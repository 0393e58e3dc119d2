import Retach.Lib.Lists
/-!
# Answers to the program (`persistent_reader_loop` in `session.rs`)

The reader writes the answers of the screen to the PTY if it gets hold of the
writer, and defers them if a client holds it. It never waits.
-/

namespace Retach

/-- What is left of the reader between two reads. `written` is what the PTY got. -/
structure ReaderLoop (α : Type) where
  deferred : List α := []
  written : List α := []

/-- A read: the answers of the screen, and whether the writer is free. -/
structure ReaderRead (α : Type) where
  responses : List α
  free : Bool

def maxDeferred : ℕ := 64

namespace ReaderLoop

variable {α : Type}

/-- The oldest makes room. -/
def pushDeferred (deferred : List α) (response : α) : List α :=
  (if maxDeferred ≤ deferred.length then deferred.tail else deferred) ++ [response]

/-- The loop does not look into the responses. -/
def step (r : ReaderLoop α) (read : ReaderRead α) : ReaderLoop α :=
  let responses := r.deferred ++ read.responses
  if responses.isEmpty then { r with deferred := [] }
  else if read.free then { deferred := [], written := r.written ++ responses }
  else { r with deferred := responses.foldl pushDeferred [] }

def run (r : ReaderLoop α) (reads : List (ReaderRead α)) : ReaderLoop α := reads.foldl step r

def produced (reads : List (ReaderRead α)) : List α := reads.flatMap ReaderRead.responses

/-- The responses to see to in a read. -/
def waiting (r : ReaderLoop α) (read : ReaderRead α) : List α := r.deferred ++ read.responses

/-- The oldest of them, beyond the last `MAX_DEFERRED`, if the writer is taken. -/
def drops (r : ReaderLoop α) (read : ReaderRead α) : List α :=
  if read.free then [] else (r.waiting read).rdrop maxDeferred

def dropped : ReaderLoop α → List (ReaderRead α) → List α
  | _, [] => []
  | r, read :: reads => r.drops read ++ dropped (r.step read) reads

/-- The responses of the reads since the writer was last free. -/
def sinceFree (reads : List (ReaderRead α)) : List α := produced (reads.rtakeWhile fun read => !read.free)

/-! ## One read -/

theorem pushDeferred_eq {deferred : List α} (h : deferred.length ≤ maxDeferred) (response : α) :
    pushDeferred deferred response = (deferred ++ [response]).rtake maxDeferred := by
  unfold pushDeferred
  split
  next hfull =>
    have hlen : (deferred ++ [response]).length - maxDeferred = 1 := by
      rw [List.length_append, List.length_singleton]
      omega
    have hne : deferred ≠ [] := List.ne_nil_of_length_pos (Nat.lt_of_lt_of_le (by decide) hfull)
    rw [List.rtake, hlen, List.drop_one, List.tail_append_of_ne_nil hne]
  next hroom =>
    rw [Lists.rtake_of_length_le]
    rw [List.length_append, List.length_singleton]
    omega

theorem foldl_pushDeferred {deferred : List α} (h : deferred.length ≤ maxDeferred) (responses : List α) :
    responses.foldl pushDeferred deferred = (deferred ++ responses).rtake maxDeferred := by
  induction responses generalizing deferred with
  | nil => rw [List.foldl_nil, List.append_nil, Lists.rtake_of_length_le h]
  | cons response responses ih =>
    have hlen : ((deferred ++ [response]).rtake maxDeferred).length ≤ maxDeferred := by
      rw [List.rtake, List.length_drop]
      omega
    rw [List.foldl_cons, pushDeferred_eq h, ih hlen, Lists.rtake_append_rtake, List.append_assoc, List.singleton_append]

theorem step_free {read : ReaderRead α} (h : read.free = true) (r : ReaderLoop α) :
    r.step read = { deferred := [], written := r.written ++ r.waiting read } := by
  by_cases hempty : (r.deferred ++ read.responses).isEmpty = true
  · have hnil : r.waiting read = [] := List.isEmpty_iff.mp hempty
    rw [hnil, List.append_nil]
    exact if_pos hempty
  · exact (if_neg hempty).trans (if_pos h)

theorem step_contended {read : ReaderRead α} (h : read.free = false) (r : ReaderLoop α) :
    r.step read = { r with deferred := (r.waiting read).rtake maxDeferred } := by
  by_cases hempty : (r.deferred ++ read.responses).isEmpty = true
  · have hnil : r.waiting read = [] := List.isEmpty_iff.mp hempty
    rw [hnil]
    exact if_pos hempty
  · have hcontended : ¬ read.free = true := by
      rw [h]
      exact Bool.false_ne_true
    have hnone : ([] : List α).length ≤ maxDeferred := Nat.zero_le maxDeferred
    have hpush : (r.waiting read).foldl pushDeferred [] = (r.waiting read).rtake maxDeferred := foldl_pushDeferred hnone _
    rw [← hpush]
    exact (if_neg hempty).trans (if_neg hcontended)

theorem drops_free {read : ReaderRead α} (h : read.free = true) (r : ReaderLoop α) : r.drops read = [] := if_pos h

theorem drops_contended {read : ReaderRead α} (h : read.free = false) (r : ReaderLoop α) :
    r.drops read = (r.waiting read).rdrop maxDeferred := by
  rw [drops, h]
  rfl

/-- What was waiting is written, deferred or dropped. -/
theorem step_perm (r : ReaderLoop α) (read : ReaderRead α) :
    (r.written ++ r.waiting read).Perm ((r.step read).written ++ (r.step read).deferred ++ r.drops read) := by
  cases h : read.free with
  | true => rw [step_free h, drops_free h, List.append_nil, List.append_nil]
  | false =>
    rw [step_contended h, drops_contended h, List.append_assoc]
    refine List.Perm.append_left r.written ?_
    have hsplit : (r.waiting read).rdrop maxDeferred ++ (r.waiting read).rtake maxDeferred = r.waiting read :=
      List.take_append_drop _ _
    have hswap : ((r.waiting read).rdrop maxDeferred ++ (r.waiting read).rtake maxDeferred).Perm
        ((r.waiting read).rtake maxDeferred ++ (r.waiting read).rdrop maxDeferred) := List.perm_append_comm
    rwa [hsplit] at hswap

theorem step_sublist (r : ReaderLoop α) (read : ReaderRead α) :
    ((r.step read).written ++ (r.step read).deferred).Sublist (r.written ++ r.waiting read) := by
  cases h : read.free with
  | true => rw [step_free h, List.append_nil]
  | false =>
    rw [step_contended h]
    exact (Lists.rtake_sublist maxDeferred _).append_left r.written

/-! ## Runs -/

theorem run_concat (r : ReaderLoop α) (reads : List (ReaderRead α)) (read : ReaderRead α) :
    run r (reads ++ [read]) = (run r reads).step read := by
  rw [run, List.foldl_append]
  rfl

/-- Nothing overtakes, and nothing comes twice. -/
theorem run_sublist (r : ReaderLoop α) (reads : List (ReaderRead α)) :
    ((run r reads).written ++ (run r reads).deferred).Sublist (r.written ++ r.deferred ++ produced reads) := by
  induction reads generalizing r with
  | nil => rw [produced, List.flatMap_nil, List.append_nil]; rfl
  | cons read reads ih =>
    have hstep := (step_sublist r read).append_right (produced reads)
    rw [waiting, ← List.append_assoc, List.append_assoc _ read.responses] at hstep
    exact (ih (r.step read)).trans hstep

/-- What is deferred is the newest of what came since the writer was free. -/
theorem run_deferred (reads : List (ReaderRead α)) : (run {} reads).deferred = (sinceFree reads).rtake maxDeferred := by
  induction reads using List.reverseRecOn with
  | nil => rfl
  | append_singleton reads read ih =>
    rw [run_concat]
    cases h : read.free with
    | true => rw [step_free h, sinceFree, List.rtakeWhile_concat_neg _ _ _ (by simp [h])]; rfl
    | false =>
      rw [step_contended h, sinceFree, List.rtakeWhile_concat_pos _ _ _ (by simp [h]), produced, List.flatMap_append,
        List.flatMap_singleton, waiting, ih, Lists.rtake_append_rtake]
      rfl

theorem run_perm (r : ReaderLoop α) (reads : List (ReaderRead α)) :
    (r.written ++ r.deferred ++ produced reads).Perm ((run r reads).written ++ (run r reads).deferred ++ dropped r reads) := by
  induction reads generalizing r with
  | nil => exact List.Perm.refl _
  | cons read reads ih =>
    have hstep := (step_perm r read).append_right (produced reads)
    rw [waiting, ← List.append_assoc, List.append_assoc _ read.responses] at hstep
    have hrest := (ih (r.step read)).append_right (r.drops read)
    rw [List.append_assoc _ (r.drops read)] at hstep
    rw [List.append_assoc _ (produced reads), List.append_assoc _ (dropped _ _)] at hrest
    -- what this read drops comes before what the others drop
    have hhere := hstep.trans (List.perm_append_comm.append_left _)
    exact (hhere.trans hrest).trans (List.perm_append_comm.append_left _)

theorem dropped_mem {r : ReaderLoop α} {reads : List (ReaderRead α)} {x : α} (h : x ∈ dropped r reads) :
    ∃ before read after, reads = before ++ read :: after ∧ read.free = false ∧
      maxDeferred < ((run r before).waiting read).length ∧ x ∈ ((run r before).waiting read).rdrop maxDeferred := by
  induction reads generalizing r with
  | nil => exact absurd h List.not_mem_nil
  | cons read reads ih =>
    rw [dropped, List.mem_append] at h
    rcases h with h | h
    · cases hfree : read.free with
      | true => exact absurd (drops_free hfree r ▸ h) List.not_mem_nil
      | false =>
        rw [drops_contended hfree] at h
        refine ⟨[], read, reads, rfl, hfree, ?_, h⟩
        have hpos := List.length_pos_of_mem h
        rw [List.rdrop, List.length_take] at hpos
        change maxDeferred < (r.waiting read).length
        omega
    · obtain ⟨before, read', after, rfl, hrest⟩ := ih h
      exact ⟨read :: before, read', after, rfl, hrest⟩

/-- The PTY gets answers in the order in which they were produced, each once at
most. A read that finds the writer free writes the newest of those that are
still deferred, and its own. Every other answer is still deferred, or was among
the oldest when more than `MAX_DEFERRED` waited for a writer that was taken. -/
theorem responses_in_order (reads : List (ReaderRead α)) :
    (run {} reads).written.Sublist (produced reads) ∧
      (∀ before read after, reads = before ++ read :: after → read.free = true →
        (run {} (before ++ [read])).written =
          (run {} before).written ++ ((sinceFree before).rtake maxDeferred ++ read.responses)) ∧
      (produced reads).Perm ((run {} reads).written ++ (run {} reads).deferred ++ dropped {} reads) ∧
      ∀ x ∈ dropped {} reads, ∃ before read after, reads = before ++ read :: after ∧ read.free = false ∧
        maxDeferred < ((run {} before).waiting read).length ∧ x ∈ ((run {} before).waiting read).rdrop maxDeferred := by
  refine ⟨?_, ?_, run_perm {} reads, fun x hx => dropped_mem hx⟩
  · exact (List.sublist_append_left _ _).trans (run_sublist {} reads)
  · rintro before read after - hfree
    rw [run_concat, step_free hfree, waiting, run_deferred]

end ReaderLoop

end Retach
