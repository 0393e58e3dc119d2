import Mathlib.Algebra.Order.BigOperators.Group.List
import Mathlib.Algebra.Order.Group.Nat
import Retach.Lib.Runs
/-!
# Threads that share locks

Threads take locks, try locks and give them back. If every thread takes locks in
the order of their ranks, no set of threads waits for itself: who waits, waits for
a thread that can go on. Trying a lock never waits, so it is free of the order.
-/

open Runs

namespace Locks

/-- What is left to do. -/
inductive Prog (L : Type) where
  | done
  | take (l : L) (p : Prog L)
  | /-- `p` with the lock, or `q` if it is not free -/ attempt (l : L) (p q : Prog L)
  | give (l : L) (p : Prog L)
  | choose (p q : Prog L)
  | /-- something that ends when others like -/ call (p : Prog L)

structure Thread (L : Type) where
  held : List L := []
  prog : Prog L

inductive SystemStep (L : Type) where
  | spawn (p : Prog L)
  | run (i : Nat) (left : Bool)

variable {L : Type} [DecidableEq L]

def Free (s : List (Thread L)) (l : L) : Prop := ∀ t ∈ s, l ∉ t.held

instance (s : List (Thread L)) (l : L) : Decidable (Free s l) := inferInstanceAs (Decidable (∀ t ∈ s, l ∉ t.held))

/-- The thread after its next step, if it can take one. -/
def Thread.next (s : List (Thread L)) (left : Bool) (t : Thread L) : Option (Thread L) :=
  match t.prog with
  | .done => none
  | .take l p => if Free s l then some ⟨l :: t.held, p⟩ else none
  | .attempt l p q => some (if Free s l then ⟨l :: t.held, p⟩ else ⟨t.held, q⟩)
  | .give l p => some ⟨t.held.erase l, p⟩
  | .choose p q => some ⟨t.held, if left then p else q⟩
  | .call p => some ⟨t.held, p⟩

def step (s : List (Thread L)) : SystemStep L → Option (List (Thread L))
  | .spawn p => some (s ++ [{ prog := p }])
  | .run i left => do
    let t ← s[i]?
    let t' ← t.next s left
    return s.set i t'

def run (s : List (Thread L)) (steps : List (SystemStep L)) : Option (List (Thread L)) := steps.foldlM step s

/-! ## Disciplines -/

/-- Locks are taken in the order of their ranks, and all are given back. -/
def Prog.Orderly (rank : L → Nat) : List L → Prog L → Prop
  | held, .done => held = []
  | held, .take l p => (∀ h ∈ held, rank h < rank l) ∧ p.Orderly rank (l :: held)
  | held, .attempt l p q => p.Orderly rank (l :: held) ∧ q.Orderly rank held
  | held, .give l p => l ∈ held ∧ p.Orderly rank (held.erase l)
  | held, .choose p q => p.Orderly rank held ∧ q.Orderly rank held
  | held, .call p => p.Orderly rank held

/-- With a quick lock in hand, only quick locks are waited for, and nobody is
called. -/
def Prog.Prompt (quick : L → Prop) : List L → Prog L → Prop
  | _, .done => True
  | held, .take l p => ((∃ h ∈ held, quick h) → quick l) ∧ p.Prompt quick (l :: held)
  | held, .attempt l p q => p.Prompt quick (l :: held) ∧ q.Prompt quick held
  | held, .give l p => p.Prompt quick (held.erase l)
  | held, .choose p q => p.Prompt quick held ∧ q.Prompt quick held
  | held, .call p => (∀ h ∈ held, ¬ quick h) ∧ p.Prompt quick held

variable {rank : L → Nat} {quick : L → Prop} {s s' : List (Thread L)} {t t' : Thread L} {left : Bool}

theorem Thread.next_orderly (h : t.prog.Orderly rank t.held) (hnext : t.next s left = some t') : t'.prog.Orderly rank t'.held := by
  obtain ⟨held, prog⟩ := t
  cases prog with
  | done => cases hnext
  | take l p =>
    simp only [next] at hnext
    split at hnext
    · obtain rfl := Option.some.inj hnext
      exact h.2
    · cases hnext
  | attempt l p q =>
    obtain rfl := Option.some.inj hnext
    split
    · exact h.1
    · exact h.2
  | give l p =>
    obtain rfl := Option.some.inj hnext
    exact h.2
  | choose p q =>
    obtain rfl := Option.some.inj hnext
    cases left with
    | true => exact h.1
    | false => exact h.2
  | call p =>
    obtain rfl := Option.some.inj hnext
    exact h

theorem Thread.next_prompt (h : t.prog.Prompt quick t.held) (hnext : t.next s left = some t') : t'.prog.Prompt quick t'.held := by
  obtain ⟨held, prog⟩ := t
  cases prog with
  | done => cases hnext
  | take l p =>
    simp only [next] at hnext
    split at hnext
    · obtain rfl := Option.some.inj hnext
      exact h.2
    · cases hnext
  | attempt l p q =>
    obtain rfl := Option.some.inj hnext
    split
    · exact h.1
    · exact h.2
  | give l p =>
    obtain rfl := Option.some.inj hnext
    exact h
  | choose p q =>
    obtain rfl := Option.some.inj hnext
    cases left with
    | true => exact h.1
    | false => exact h.2
  | call p =>
    obtain rfl := Option.some.inj hnext
    exact h.2

/-- Steps change one thread, or add one. -/
theorem step_threads {a : SystemStep L} (h : step s a = some s') (ht : t' ∈ s') :
    t' ∈ s ∨ (∃ p, a = .spawn p ∧ t' = { prog := p }) ∨ ∃ t ∈ s, ∃ left, t.next s left = some t' := by
  cases a with
  | spawn p =>
    obtain rfl := Option.some.inj h
    rcases List.mem_append.1 ht with ht | ht
    · exact .inl ht
    · exact .inr (.inl ⟨p, rfl, List.mem_singleton.1 ht⟩)
  | run i left =>
    obtain ⟨u, hu, h⟩ := Option.bind_eq_some_iff.1 h
    obtain ⟨u', hu', h⟩ := Option.bind_eq_some_iff.1 h
    obtain rfl := Option.some.inj h
    rcases List.mem_or_eq_of_mem_set ht with ht | rfl
    · exact .inl ht
    · exact .inr (.inr ⟨u, List.mem_of_getElem? hu, left, hu'⟩)

/-- What threads are spawned with and keep, all threads have. -/
theorem run_threads {P : Thread L → Prop} (hnext : ∀ s t left t', P t → Thread.next s left t = some t' → P t')
    {steps : List (SystemStep L)} (hspawn : ∀ p, .spawn p ∈ steps → P { prog := p }) (hrun : run [] steps = some s) :
    ∀ t ∈ s, P t := by
  have hall : ∀ a ∈ steps, ∀ p, a = .spawn p → P { prog := p } := by
    rintro a ha p rfl
    exact hspawn p ha
  refine (Along.of_forall hall []).keeps (I := fun s => ∀ t ∈ s, P t) ?_ (fun t ht => absurd ht List.not_mem_nil) hrun
  intro s a s' hs ha hstep t' ht'
  rcases step_threads hstep ht' with ht | ⟨p, rfl, rfl⟩ | ⟨t, ht, left, hnext'⟩
  · exact hs t' ht
  · exact ha p rfl
  · exact hnext s t left t' (hs t ht) hnext'

/-! ## Who waits for whom -/

/-- In `s`, `t` waits for a lock that `t'` holds. -/
def Awaits (s : List (Thread L)) (t t' : Thread L) : Prop := t ∈ s ∧ t' ∈ s ∧ ∃ l p, t.prog = .take l p ∧ l ∈ t'.held

/-- The rank of the lock that a thread is about to take. -/
def Thread.want (rank : L → Nat) (t : Thread L) : Nat :=
  match t.prog with
  | .take l _ => rank l
  | _ => 0

/-- Only a lock that is not free stops a thread that has not ended. -/
theorem Thread.next_isSome (hdone : t.prog ≠ .done) (htake : ∀ l p, t.prog = .take l p → Free s l) (left : Bool) :
    (t.next s left).isSome = true := by
  obtain ⟨held, prog⟩ := t
  cases prog with
  | done => exact absurd rfl hdone
  | take l p =>
    simp only [next, if_pos (htake l p rfl)]
    rfl
  | _ => rfl

omit [DecidableEq L] in
theorem not_free {l : L} (h : ¬ Free s l) : ∃ t ∈ s, l ∈ t.held := by
  unfold Free at h
  push Not at h
  exact h

/-- Along a chain of waiters the ranks rise. -/
theorem awaits_lt (hs : ∀ t ∈ s, t.prog.Orderly rank t.held) (h : Relation.TransGen (Awaits s) t t') {l : L} {p : Prog L}
    (htake : t'.prog = .take l p) : t.want rank < rank l := by
  induction h generalizing l p with
  | single h =>
    obtain ⟨-, ht', l', p', htake', hheld⟩ := h
    have hord := hs _ ht'
    rw [htake] at hord
    rw [Thread.want, htake']
    exact hord.1 l' hheld
  | tail _ h ih =>
    obtain ⟨-, ht', l', p', htake', hheld⟩ := h
    have hord := hs _ ht'
    rw [htake] at hord
    exact (ih htake').trans (hord.1 l' hheld)

/-- No thread waits for itself. -/
theorem not_awaits_self (hs : ∀ t ∈ s, t.prog.Orderly rank t.held) : ¬ Relation.TransGen (Awaits s) t t := by
  intro h
  obtain ⟨u, ⟨-, -, l, p, htake, -⟩, -⟩ := Relation.TransGen.head'_iff.1 h
  have := awaits_lt hs h htake
  rw [Thread.want, htake] at this
  exact lt_irrefl _ this

/-- From a lock that is not free on, each holder waits for a lock of a higher
rank, until one can take a step. It holds a lock with any property that passes
from the locks a thread holds to the lock it waits for. -/
theorem waits_end (hs : ∀ t ∈ s, t.prog.Orderly rank t.held) {Q : L → Prop}
    (hQ : ∀ t ∈ s, ∀ l p, t.prog = .take l p → (∃ h ∈ t.held, Q h) → Q l) (ht : t ∈ s) {l : L} {p : Prog L}
    (htake : t.prog = .take l p) (hfree : ¬ Free s l) (hl : Q l) :
    ∃ t' ∈ s, Relation.TransGen (Awaits s) t t' ∧ (∀ left, (t'.next s left).isSome = true) ∧ ∃ h ∈ t'.held, Q h := by
  -- the ranks of the locks waited for are bounded
  have hbound : ∀ u ∈ s, u.want rank ≤ (s.map (Thread.want rank)).sum := fun u hu =>
    List.single_le_sum (fun _ _ => Nat.zero_le _) _ (List.mem_map_of_mem hu)
  generalize hgap : (s.map (Thread.want rank)).sum - rank l = gap
  induction gap using Nat.strongRecOn generalizing t l p with
  | _ gap ih =>
    obtain ⟨u, hu, hheld⟩ := not_free hfree
    have hawaits : Awaits s t u := ⟨ht, hu, l, p, htake, hheld⟩
    have hudone : u.prog ≠ .done := by
      intro hdone
      have hord := hs u hu
      rw [hdone] at hord
      rw [show u.held = [] from hord] at hheld
      cases hheld
    by_cases hstuck : ∃ l' p', u.prog = .take l' p' ∧ ¬ Free s l'
    · obtain ⟨l', p', htake', hfree'⟩ := hstuck
      have hlt : rank l < rank l' := by
        have hord := hs u hu
        rw [htake'] at hord
        exact hord.1 l hheld
      have hle : rank l' ≤ (s.map (Thread.want rank)).sum := by
        have := hbound u hu
        rwa [Thread.want, htake'] at this
      obtain ⟨t', ht', hchain, hstep, hheld'⟩ := ih _ (by omega) hu htake' hfree' (hQ u hu l' p' htake' ⟨l, hheld, hl⟩) rfl
      exact ⟨t', ht', .head hawaits hchain, hstep, hheld'⟩
    · push Not at hstuck
      exact ⟨u, hu, .single hawaits, Thread.next_isSome hudone hstuck, l, hheld, hl⟩

/-- In a system of orderly and prompt threads, no thread waits for itself, and who
waits for a lock waits for a thread that can take a step; if the lock is quick,
this thread calls nobody. -/
theorem run_waits {steps : List (SystemStep L)}
    (hspawn : ∀ p, .spawn p ∈ steps → p.Orderly rank [] ∧ p.Prompt quick []) (hrun : run [] steps = some s) (ht : t ∈ s) :
    ¬ Relation.TransGen (Awaits s) t t ∧ ∀ l p, t.prog = .take l p → ¬ Free s l →
      ∃ t' ∈ s, Relation.TransGen (Awaits s) t t' ∧ (∀ left, (t'.next s left).isSome = true) ∧
        (quick l → ∀ q, t'.prog ≠ .call q) := by
  have hord := run_threads (P := fun t => t.prog.Orderly rank t.held) (fun _ _ _ _ h hn => Thread.next_orderly h hn)
    (fun p hp => (hspawn p hp).1) hrun
  have hprompt := run_threads (P := fun t => t.prog.Prompt quick t.held) (fun _ _ _ _ h hn => Thread.next_prompt h hn)
    (fun p hp => (hspawn p hp).2) hrun
  have hpass : ∀ t ∈ s, ∀ l p, t.prog = .take l p → (∃ h ∈ t.held, quick h) → quick l := by
    intro t ht l p htake
    have := hprompt t ht
    rw [htake] at this
    exact this.1
  refine ⟨not_awaits_self hord, fun l p htake hfree => ?_⟩
  by_cases hl : quick l
  · obtain ⟨t', ht', hchain, hstep, h, hheld, hquick⟩ := waits_end hord hpass ht htake hfree hl
    refine ⟨t', ht', hchain, hstep, fun _ q hcall => ?_⟩
    have := hprompt t' ht'
    rw [hcall] at this
    exact this.1 h hheld hquick
  · obtain ⟨t', ht', hchain, hstep, -⟩ := waits_end hord (Q := fun _ => True) (fun _ _ _ _ _ _ => trivial) ht htake hfree trivial
    exact ⟨t', ht', hchain, hstep, fun hquick => absurd hquick hl⟩

end Locks
