import Retach.Lib.Lists
/-!
# The client's input (`InputFilter` in `client/mod.rs`)

What is typed goes to the server, less the focus reports of the terminal. An
escape sequence may come in two reads: its start is carried over to the next
one. The detach key is looked for before anything else is.
-/

namespace Retach

inductive FilterAction where
  | forward (data : List UInt8)
  | detach
  | focusIn
deriving DecidableEq, Repr

structure InputFilter where
  carry : List UInt8 := []

namespace InputFilter

/-- Ctrl+\. -/
def detachKey : UInt8 := 0x1c

def esc : UInt8 := 0x1b

def bracket : UInt8 := 0x5b

/-- `I`. -/
def focusIn : UInt8 := 0x49

/-- `O`. -/
def focusOut : UInt8 := 0x4f

/-- `flush_filtered`. -/
def flushFiltered (filtered : List UInt8) : List FilterAction := if filtered = [] then [] else [.forward filtered]

/-- The loop of `process` over the rest of the buffer, with the bytes to forward
so far. The second result is carried over. -/
def scan : List UInt8 → List UInt8 → List FilterAction × List UInt8
  | filtered, [] => (flushFiltered filtered, [])
  | filtered, b :: rest =>
    if b ≠ esc then scan (filtered ++ [b]) rest
    else match rest with
      | [] => (flushFiltered filtered, [b])
      | c :: rest' =>
        if c ≠ bracket then scan (filtered ++ [b, c]) rest'
        else match rest' with
          | [] => (flushFiltered filtered, [b, c])
          | d :: rest'' =>
            if d = focusIn then
              (flushFiltered filtered ++ .focusIn :: (scan [] rest'').1, (scan [] rest'').2)
            else if d = focusOut then scan filtered rest''
            else scan (filtered ++ [b]) (c :: d :: rest'')

def process (f : InputFilter) (input : List UInt8) : List FilterAction × InputFilter :=
  let raw := f.carry ++ input
  match raw.findIdx? (· = detachKey) with
  | some pos => ((if pos > 0 then [.forward (raw.take pos)] else []) ++ [.detach], { carry := [] })
  | none => ((scan [] raw).1, { carry := (scan [] raw).2 })

def flush (f : InputFilter) : Option FilterAction × InputFilter :=
  if f.carry = [] then (none, f) else (some (.forward f.carry), { carry := [] })

/-- Successive reads, then the end of the input. -/
def run : InputFilter → List (List UInt8) → List FilterAction
  | f, [] => f.flush.1.toList
  | f, input :: inputs => (f.process input).1 ++ run (f.process input).2 inputs

end InputFilter

/-! ## Merging -/

namespace FilterAction

/-- The relay stops at the first detach. -/
def untilDetach : List FilterAction → List FilterAction
  | [] => []
  | .detach :: _ => [.detach]
  | a :: as => a :: untilDetach as

/-- Forwards `data` before `as`. -/
def prepend (data : List UInt8) : List FilterAction → List FilterAction
  | .forward data' :: as => .forward (data ++ data') :: as
  | as => .forward data :: as

/-- Adjacent `forward` actions are one. -/
def merge : List FilterAction → List FilterAction
  | [] => []
  | .forward data :: as => prepend data (merge as)
  | .detach :: as => .detach :: merge as
  | .focusIn :: as => .focusIn :: merge as

/-- The action byte by byte. -/
def single : FilterAction → List FilterAction
  | .forward data => data.map fun b => .forward [b]
  | .detach => [.detach]
  | .focusIn => [.focusIn]

theorem prepend_cons (b : UInt8) (data : List UInt8) (as : List FilterAction) :
    prepend [b] (prepend data as) = prepend (b :: data) as := by
  cases as with
  | nil => rfl
  | cons a as => cases a <;> rfl

theorem single_prepend (data : List UInt8) (as : List FilterAction) :
    (prepend data as).flatMap single = (data.map fun b => .forward [b]) ++ as.flatMap single := by
  cases as with
  | nil => simp [prepend, single]
  | cons a as => cases a <;> simp [prepend, single]

theorem single_merge (as : List FilterAction) : (merge as).flatMap single = as.flatMap single := by
  induction as with
  | nil => rfl
  | cons a as ih =>
    cases a with
    | forward data => rw [merge, single_prepend, ih, List.flatMap_cons, single]
    | detach | focusIn => rw [merge, List.flatMap_cons, List.flatMap_cons, ih]

theorem merge_bytes {data : List UInt8} (hne : data ≠ []) (as : List FilterAction) :
    merge ((data.map fun b => .forward [b]) ++ as) = prepend data (merge as) := by
  induction data with
  | nil => exact absurd rfl hne
  | cons b data ih =>
    rw [List.map_cons, List.cons_append, merge]
    cases data with
    | nil => rfl
    | cons c data => rw [ih (List.cons_ne_nil c data), prepend_cons]

/-- Nothing empty is forwarded. -/
def Proper (as : List FilterAction) : Prop := .forward [] ∉ as

theorem merge_single {as : List FilterAction} (h : Proper as) : merge (as.flatMap single) = merge as := by
  induction as with
  | nil => rfl
  | cons a as ih =>
    have hrest : Proper as := fun hmem => h (List.mem_cons_of_mem a hmem)
    cases a with
    | forward data =>
      have hne : data ≠ [] := by
        rintro rfl
        exact h List.mem_cons_self
      rw [List.flatMap_cons, single, merge_bytes hne, ih hrest, merge]
    | detach | focusIn => rw [List.flatMap_cons, single, List.singleton_append, merge, merge, ih hrest]

/-- Merged, two lists are equal if they are equal byte by byte. -/
theorem merge_eq_iff {as bs : List FilterAction} (ha : Proper as) (hb : Proper bs) :
    merge as = merge bs ↔ as.flatMap single = bs.flatMap single := by
  constructor
  · intro h
    rw [← single_merge as, h, single_merge]
  · intro h
    rw [← merge_single ha, h, merge_single hb]

theorem untilDetach_append {as : List FilterAction} (h : .detach ∉ as) (bs : List FilterAction) :
    untilDetach (as ++ bs) = as ++ untilDetach bs := by
  induction as with
  | nil => rfl
  | cons a as ih =>
    have hrest := ih fun hmem => h (List.mem_cons_of_mem a hmem)
    cases a with
    | detach => exact absurd List.mem_cons_self h
    | forward data | focusIn => exact congrArg _ hrest

theorem untilDetach_of_notMem {as : List FilterAction} (h : .detach ∉ as) : untilDetach as = as := by
  have happ := untilDetach_append h []
  rwa [untilDetach, List.append_nil] at happ

theorem untilDetach_subset (as : List FilterAction) : untilDetach as ⊆ as := by
  induction as with
  | nil => exact List.Subset.refl _
  | cons a as ih =>
    cases a with
    | detach => exact List.cons_subset_cons _ (List.nil_subset as)
    | forward data | focusIn => exact List.cons_subset_cons _ ih

end FilterAction

namespace InputFilter

open FilterAction (single untilDetach untilDetach_append untilDetach_of_notMem untilDetach_subset merge merge_eq_iff Proper)

/-! ## The scan, byte by byte -/

/-- The bytes forwarded one by one. -/
def forwards (data : List UInt8) : List FilterAction := data.map fun b => .forward [b]

theorem forwards_append (data data' : List UInt8) : forwards (data ++ data') = forwards data ++ forwards data' := List.map_append

theorem flushFiltered_single (filtered : List UInt8) : (flushFiltered filtered).flatMap single = forwards filtered := by
  unfold flushFiltered
  split
  next hnil => rw [hnil]; rfl
  next => exact List.flatMap_singleton ..

/-- An induction with a case for each branch of the loop. -/
theorem scan_induction {P : List UInt8 → Prop} (nil : P []) (plain : ∀ b bs, b ≠ esc → P bs → P (b :: bs)) (lone : P [esc])
    (other : ∀ c bs, c ≠ bracket → P bs → P (esc :: c :: bs)) (start : P [esc, bracket])
    (focus : ∀ d bs, d = focusIn ∨ d = focusOut → P bs → P (esc :: bracket :: d :: bs))
    (sequence : ∀ d bs, ¬ (d = focusIn ∨ d = focusOut) → P (bracket :: d :: bs) → P (esc :: bracket :: d :: bs)) :
    ∀ bs, P bs := by
  intro bs
  induction hn : bs.length using Nat.strongRecOn generalizing bs with
  | ind n ih =>
    subst hn
    have hshort : ∀ cs : List UInt8, cs.length < bs.length → P cs := fun cs hlt => ih cs.length hlt cs rfl
    match bs with
    | [] => exact nil
    | b :: bs =>
      by_cases hb : b = esc
      · subst hb
        match bs with
        | [] => exact lone
        | c :: bs =>
          by_cases hc : c = bracket
          · subst hc
            match bs with
            | [] => exact start
            | d :: bs =>
              by_cases hd : d = focusIn ∨ d = focusOut
              · exact focus d bs hd (hshort bs (by simp only [List.length_cons]; omega))
              · exact sequence d bs hd (hshort (bracket :: d :: bs) (by simp))
          · exact other c bs hc (hshort bs (by simp only [List.length_cons]; omega))
      · exact plain b bs hb (hshort bs (by simp))

section Equations

variable (filtered bs : List UInt8)

theorem scan_plain {b : UInt8} (h : b ≠ esc) : scan filtered (b :: bs) = scan (filtered ++ [b]) bs := by
  rw [scan.eq_def]
  exact if_pos h

theorem scan_other {c : UInt8} (h : c ≠ bracket) : scan filtered (esc :: c :: bs) = scan (filtered ++ [esc, c]) bs := by
  rw [scan.eq_def]
  exact (if_neg (not_not_intro rfl)).trans (if_pos h)

theorem scan_focusIn : scan filtered (esc :: bracket :: focusIn :: bs) =
    (flushFiltered filtered ++ .focusIn :: (scan [] bs).1, (scan [] bs).2) := by
  rw [scan.eq_def]
  rfl

theorem scan_focusOut : scan filtered (esc :: bracket :: focusOut :: bs) = scan filtered bs := by
  rw [scan.eq_def]
  rfl

theorem scan_sequence {d : UInt8} (h : ¬ (d = focusIn ∨ d = focusOut)) :
    scan filtered (esc :: bracket :: d :: bs) = scan (filtered ++ [esc]) (bracket :: d :: bs) := by
  rw [not_or] at h
  rw [scan.eq_def]
  exact (if_neg (not_not_intro rfl)).trans ((if_neg (not_not_intro rfl)).trans ((if_neg h.1).trans (if_neg h.2)))

end Equations

/-- What the scan of `bs` does byte by byte, and what it carries over. -/
def reading (bs : List UInt8) : List FilterAction × List UInt8 := ((scan [] bs).1.flatMap single, (scan [] bs).2)

/-- `as` done before. -/
def after (as : List FilterAction) (r : List FilterAction × List UInt8) : List FilterAction × List UInt8 := (as ++ r.1, r.2)

theorem after_after (as bs : List FilterAction) (r : List FilterAction × List UInt8) : after as (after bs r) = after (as ++ bs) r := by
  rw [after, after, after, List.append_assoc]

/-- The bytes to forward so far come first. -/
def Reads (bs : List UInt8) : Prop := ∀ filtered,
  ((scan filtered bs).1.flatMap single, (scan filtered bs).2) = after (forwards filtered) (reading bs)

theorem Reads.reading_eq {bs cs data : List UInt8} (h : Reads cs) (hstep : ∀ filtered, scan filtered bs = scan (filtered ++ data) cs) :
    reading bs = after (forwards data) (reading cs) := by
  rw [reading, hstep]
  exact h data

/-- The scan forwards `data` and goes on. -/
theorem Reads.step {bs cs data : List UInt8} (h : Reads cs) (hstep : ∀ filtered, scan filtered bs = scan (filtered ++ data) cs) :
    Reads bs := fun filtered => by
  rw [hstep, h, h.reading_eq hstep, after_after, forwards_append]

theorem scan_reads (bs : List UInt8) : Reads bs := by
  induction bs using scan_induction with
  | nil | lone | start => exact fun filtered => Prod.ext ((flushFiltered_single filtered).trans (List.append_nil _).symm) rfl
  | plain b bs hb ih => exact ih.step fun filtered => scan_plain filtered bs hb
  | other c bs hc ih => exact ih.step fun filtered => scan_other filtered bs hc
  | focus d bs hd ih =>
    intro filtered
    rcases hd with rfl | rfl
    · simp only [reading, after, scan_focusIn, List.flatMap_append, flushFiltered_single]
      rfl
    · simp only [reading, scan_focusOut]
      exact ih filtered
  | sequence d bs hd ih => exact ih.step fun filtered => scan_sequence filtered bs hd

theorem reading_plain {b : UInt8} (h : b ≠ esc) (bs : List UInt8) : reading (b :: bs) = after [.forward [b]] (reading bs) :=
  (scan_reads bs).reading_eq fun filtered => scan_plain filtered bs h

theorem reading_other {c : UInt8} (h : c ≠ bracket) (bs : List UInt8) :
    reading (esc :: c :: bs) = after [.forward [esc], .forward [c]] (reading bs) :=
  (scan_reads bs).reading_eq fun filtered => scan_other filtered bs h

theorem reading_focusIn (bs : List UInt8) : reading (esc :: bracket :: focusIn :: bs) = after [.focusIn] (reading bs) := by
  rw [reading, scan_focusIn]
  rfl

theorem reading_focusOut (bs : List UInt8) : reading (esc :: bracket :: focusOut :: bs) = reading bs := by
  rw [reading, scan_focusOut]
  rfl

theorem reading_sequence {d : UInt8} (h : ¬ (d = focusIn ∨ d = focusOut)) (bs : List UInt8) :
    reading (esc :: bracket :: d :: bs) = after [.forward [esc]] (reading (bracket :: d :: bs)) :=
  (scan_reads (bracket :: d :: bs)).reading_eq fun filtered => scan_sequence filtered bs h

/-! ## Reads -/

/-- More input does not change what has been done: the scan goes on from what
it carried over. -/
theorem reading_append (bs cs : List UInt8) : reading (bs ++ cs) = after (reading bs).1 (reading ((reading bs).2 ++ cs)) := by
  induction bs using scan_induction with
  | nil | lone | start => rfl
  | plain b bs hb ih => rw [List.cons_append, reading_plain hb, reading_plain hb, ih, after_after]; rfl
  | other c bs hc ih =>
    rw [List.cons_append, List.cons_append, reading_other hc, reading_other hc, ih, after_after]
    rfl
  | focus d bs hd ih =>
    rcases hd with rfl | rfl
    · rw [List.cons_append, List.cons_append, List.cons_append, reading_focusIn, reading_focusIn, ih, after_after]
      rfl
    · rw [List.cons_append, List.cons_append, List.cons_append, reading_focusOut, reading_focusOut, ih]
  | sequence d bs hd ih =>
    rw [List.cons_append, List.cons_append, List.cons_append, reading_sequence hd, reading_sequence hd, ← List.cons_append,
      ← List.cons_append, ih, after_after]
    rfl

/-- All that is done for `bs`, if nothing follows. -/
def whole (bs : List UInt8) : List FilterAction := (reading bs).1 ++ forwards (reading bs).2

theorem whole_after {as : List FilterAction} {bs cs : List UInt8} (h : reading bs = after as (reading cs)) :
    whole bs = as ++ whole cs := by
  rw [whole, h, after, whole, List.append_assoc]

/-! ## Focus reports -/

/-- A focus report in `bs`, its `ESC` the last of `n` in a row with `k n`. `escs`
of them come just before `bs`. -/
def HasReport (k : ℕ → Prop) : ℕ → List UInt8 → Prop
  | _, [] => False
  | escs, b :: bs => (b = bracket ∧ 0 < escs ∧ k escs ∧ (bs.head? = some focusIn ∨ bs.head? = some focusOut)) ∨
      HasReport k (if b = esc then escs + 1 else 0) bs

/-- A report is taken out wherever it starts, the rest is forwarded. -/
def reference : List UInt8 → List FilterAction
  | [] => []
  | [b] => [.forward [b]]
  | [b, c] => [.forward [b], .forward [c]]
  | b :: c :: d :: rest =>
    if b = esc ∧ c = bracket ∧ d = focusIn then .focusIn :: reference rest
    else if b = esc ∧ c = bracket ∧ d = focusOut then reference rest
    else .forward [b] :: reference (c :: d :: rest)

section Reports

variable {k : ℕ → Prop}

theorem bracket_ne_esc : bracket ≠ esc := by decide

theorem hasReport_cons {b : UInt8} (h : b ≠ esc) (escs : ℕ) (bs : List UInt8) :
    HasReport k escs (b :: bs) ↔
      (b = bracket ∧ 0 < escs ∧ k escs ∧ (bs.head? = some focusIn ∨ bs.head? = some focusOut)) ∨ HasReport k 0 bs := by
  rw [HasReport, if_neg h]

theorem hasReport_esc (escs : ℕ) (bs : List UInt8) : HasReport k escs (esc :: bs) ↔ HasReport k (escs + 1) bs := by
  rw [HasReport, if_pos rfl]
  exact or_iff_right fun h => bracket_ne_esc.symm h.1

theorem hasReport_plain {b : UInt8} (h : b ≠ esc) (bs : List UInt8) : HasReport k 0 (b :: bs) ↔ HasReport k 0 bs :=
  (hasReport_cons h 0 bs).trans (or_iff_right fun hhead => Nat.lt_irrefl 0 hhead.2.1)

theorem hasReport_other {c : UInt8} (h : c ≠ bracket) (hesc : c ≠ esc) (bs : List UInt8) :
    HasReport k 0 (esc :: c :: bs) ↔ HasReport k 0 bs := by
  rw [hasReport_esc, hasReport_cons hesc]
  exact or_iff_right fun hhead => h hhead.1

theorem hasReport_sequence (d : UInt8) (bs : List UInt8) :
    HasReport k 0 (esc :: bracket :: d :: bs) ↔ (k 1 ∧ (d = focusIn ∨ d = focusOut)) ∨ HasReport k 0 (d :: bs) := by
  rw [hasReport_esc, hasReport_cons bracket_ne_esc]
  simp

/-- Two more bytes `ESC` in a row change nothing. -/
theorem hasReport_add_two (hk : ∀ n, k (n + 2) ↔ k n) (bs : List UInt8) (escs : ℕ) :
    HasReport k (escs + 3) bs ↔ HasReport k (escs + 1) bs := by
  induction bs generalizing escs with
  | nil => rfl
  | cons b bs ih =>
    by_cases hb : b = esc
    · rw [hb, hasReport_esc, hasReport_esc, ih]
    · rw [hasReport_cons hb, hasReport_cons hb, hk (escs + 1)]
      simp

theorem hasReport_pair (hk : ∀ n, k (n + 2) ↔ k n) (bs : List UInt8) :
    HasReport k 0 (esc :: esc :: bs) ↔
      (k 2 ∧ bs.head? = some bracket ∧ (bs.tail.head? = some focusIn ∨ bs.tail.head? = some focusOut)) ∨ HasReport k 0 bs := by
  rw [hasReport_esc, hasReport_esc]
  cases bs with
  | nil => simp [HasReport]
  | cons b bs =>
    by_cases hb : b = esc
    · rw [hb, hasReport_esc, hasReport_esc, hasReport_add_two hk]
      exact (or_iff_right fun hhead => bracket_ne_esc.symm (Option.some.inj hhead.2.1)).symm
    · rw [hasReport_cons hb, hasReport_plain hb]
      simp [and_left_comm]

end Reports

section Whole

theorem whole_plain {b : UInt8} (h : b ≠ esc) (bs : List UInt8) : whole (b :: bs) = .forward [b] :: whole bs :=
  whole_after (reading_plain h bs)

theorem whole_other {c : UInt8} (h : c ≠ bracket) (bs : List UInt8) :
    whole (esc :: c :: bs) = .forward [esc] :: .forward [c] :: whole bs :=
  whole_after (reading_other h bs)

theorem whole_focusIn (bs : List UInt8) : whole (esc :: bracket :: focusIn :: bs) = .focusIn :: whole bs :=
  whole_after (reading_focusIn bs)

theorem whole_focusOut (bs : List UInt8) : whole (esc :: bracket :: focusOut :: bs) = whole bs := by
  rw [whole, reading_focusOut, whole]

theorem whole_sequence {d : UInt8} (h : ¬ (d = focusIn ∨ d = focusOut)) (bs : List UInt8) :
    whole (esc :: bracket :: d :: bs) = .forward [esc] :: whole (bracket :: d :: bs) :=
  whole_after (reading_sequence h bs)

theorem whole_length_le (bs : List UInt8) : (whole bs).length ≤ bs.length := by
  induction bs using scan_induction with
  | nil | lone | start => exact Nat.le_refl _
  | plain b bs hb ih => simpa only [whole_plain hb, List.length_cons, Nat.add_le_add_iff_right] using ih
  | other c bs hc ih => simpa only [whole_other hc, List.length_cons, Nat.add_le_add_iff_right] using ih
  | focus d bs hd ih =>
    rcases hd with rfl | rfl
    · simp only [whole_focusIn, List.length_cons]
      omega
    · simp only [whole_focusOut, List.length_cons]
      omega
  | sequence d bs hd ih => simpa only [whole_sequence hd, List.length_cons, Nat.add_le_add_iff_right] using ih

theorem focus_ne_esc {d : UInt8} (h : d = focusIn ∨ d = focusOut) : d ≠ esc := by
  rcases h with rfl | rfl <;> decide

/-- Everything is forwarded unless a report has an odd number of `ESC`. -/
theorem whole_eq_forwards_iff (bs : List UInt8) : whole bs = forwards bs ↔ ¬ HasReport (· % 2 = 1) 0 bs := by
  have hk : ∀ n : ℕ, (n + 2) % 2 = 1 ↔ n % 2 = 1 := fun n => by rw [Nat.add_mod_right]
  induction bs using scan_induction with
  | nil | lone | start => exact iff_of_true rfl (by simp [HasReport, esc, bracket])
  | plain b bs hb ih =>
    rw [whole_plain hb, hasReport_plain hb]
    exact (List.cons_inj_right _).trans ih
  | other c bs hc ih =>
    have hrest : whole (esc :: c :: bs) = forwards (esc :: c :: bs) ↔ whole bs = forwards bs := by
      rw [whole_other hc]
      exact (List.cons_inj_right _).trans (List.cons_inj_right _)
    by_cases hesc : c = esc
    · rw [hrest, hesc, hasReport_pair hk]
      exact ih.trans (not_congr (or_iff_right fun hpair => absurd hpair.1 (by decide)).symm)
    · rw [hrest, hasReport_other hc hesc]
      exact ih
  | focus d bs hd ih =>
    refine iff_of_false ?_ (not_not_intro ((hasReport_sequence d bs).mpr (.inl ⟨rfl, hd⟩)))
    intro heq
    have hlen := congrArg List.length heq
    have hle := whole_length_le bs
    rcases hd with rfl | rfl
    · simp only [whole_focusIn, forwards, List.length_cons, List.length_map] at hlen
      omega
    · simp only [whole_focusOut, forwards, List.length_cons, List.length_map] at hlen
      omega
  | sequence d bs hd ih =>
    rw [whole_sequence hd, hasReport_sequence, or_iff_right fun hhead => hd hhead.2, ← hasReport_plain bracket_ne_esc]
    exact (List.cons_inj_right _).trans ih

theorem reference_skip {b : UInt8} {bs : List UInt8}
    (h : ¬ (b = esc ∧ bs.head? = some bracket ∧ (bs.tail.head? = some focusIn ∨ bs.tail.head? = some focusOut))) :
    reference (b :: bs) = .forward [b] :: reference bs := by
  match bs with
  | [] | [c] => rfl
  | c :: d :: rest =>
    simp only [List.head?_cons, List.tail_cons, Option.some.injEq] at h
    rw [reference, if_neg fun hin => h ⟨hin.1, hin.2.1, .inl hin.2.2⟩, if_neg fun hout => h ⟨hout.1, hout.2.1, .inr hout.2.2⟩]

theorem reference_plain {b : UInt8} (h : b ≠ esc) (bs : List UInt8) : reference (b :: bs) = .forward [b] :: reference bs :=
  reference_skip fun hstart => h hstart.1

theorem reference_other {c : UInt8} (h : c ≠ bracket) (bs : List UInt8) :
    reference (esc :: c :: bs) = .forward [esc] :: reference (c :: bs) :=
  reference_skip fun hstart => h (Option.some.inj hstart.2.1)

theorem reference_focusIn (bs : List UInt8) : reference (esc :: bracket :: focusIn :: bs) = .focusIn :: reference bs := rfl

theorem reference_focusOut (bs : List UInt8) : reference (esc :: bracket :: focusOut :: bs) = reference bs := rfl

theorem reference_mem {a : FilterAction} {bs : List UInt8} (h : a ∈ reference bs) : a = .focusIn ∨ ∃ b, a = .forward [b] := by
  fun_induction reference bs with
  | case1 => exact absurd h List.not_mem_nil
  | case2 b => exact .inr ⟨b, List.mem_singleton.mp h⟩
  | case3 b c =>
    rcases List.mem_pair.mp h with h | h
    · exact .inr ⟨b, h⟩
    · exact .inr ⟨c, h⟩
  | case4 b c d rest hin ih => exact (List.mem_cons.mp h).elim .inl ih
  | case5 b c d rest hin hout ih => exact ih h
  | case6 b c d rest hin hout ih => exact (List.mem_cons.mp h).elim (fun hb => .inr ⟨b, hb⟩) ih

theorem reference_proper (bs : List UInt8) : Proper (reference bs) := by
  intro hmem
  rcases reference_mem hmem with h | ⟨b, h⟩
  · cases h
  · cases h

theorem reference_single (bs : List UInt8) : (reference bs).flatMap single = reference bs := by
  have hmem : ∀ a ∈ reference bs, single a = [a] := by
    intro a ha
    rcases reference_mem ha with rfl | ⟨b, rfl⟩
    · rfl
    · rfl
  rw [List.flatMap_congr hmem, List.flatMap_singleton']

/-- `bs` is the rest of a report if one starts just before it. -/
theorem eq_of_head {bs : List UInt8} (h : bs.head? = some bracket ∧ (bs.tail.head? = some focusIn ∨ bs.tail.head? = some focusOut)) :
    ∃ d rest, bs = bracket :: d :: rest ∧ (d = focusIn ∨ d = focusOut) := by
  match bs with
  | [] => cases h.1
  | [c] => simp at h
  | c :: d :: rest =>
    simp only [List.head?_cons, List.tail_cons, Option.some.injEq] at h
    exact ⟨d, rest, by rw [h.1], h.2⟩

theorem reference_cons_length_le (b : UInt8) (bs : List UInt8) : (reference (b :: bs)).length ≤ (reference bs).length + 1 := by
  by_cases h : b = esc ∧ bs.head? = some bracket ∧ (bs.tail.head? = some focusIn ∨ bs.tail.head? = some focusOut)
  · obtain ⟨rfl, hhead⟩ := h
    obtain ⟨d, rest, rfl, hd⟩ := eq_of_head hhead
    rw [reference_plain bracket_ne_esc, reference_plain (focus_ne_esc hd)]
    rcases hd with rfl | rfl
    · rw [reference_focusIn]
      simp only [List.length_cons]
      omega
    · rw [reference_focusOut]
      simp only [List.length_cons]
      omega
  · rw [reference_skip h, List.length_cons]

/-- The loop never takes out more than the reference does. -/
theorem reference_length_le (bs : List UInt8) : (reference bs).length ≤ (whole bs).length := by
  induction bs using scan_induction with
  | nil | lone | start => exact Nat.le_refl _
  | plain b bs hb ih => simpa only [whole_plain hb, reference_plain hb, List.length_cons, Nat.add_le_add_iff_right] using ih
  | other c bs hc ih =>
    have hle := reference_cons_length_le c bs
    simp only [whole_other hc, reference_other hc, List.length_cons]
    omega
  | focus d bs hd ih =>
    rcases hd with rfl | rfl
    · simpa only [whole_focusIn, reference_focusIn, List.length_cons, Nat.add_le_add_iff_right] using ih
    · simpa only [whole_focusOut, reference_focusOut] using ih
  | sequence d bs hd ih =>
    have hskip : reference (esc :: bracket :: d :: bs) = .forward [esc] :: reference (bracket :: d :: bs) :=
      reference_skip fun hstart => hd (by simpa using hstart.2.2)
    simpa only [whole_sequence hd, hskip, List.length_cons, Nat.add_le_add_iff_right] using ih

/-- The reports taken out are those of the reference unless one has an even
number of `ESC`. -/
theorem whole_eq_reference_iff (bs : List UInt8) : whole bs = reference bs ↔ ¬ HasReport (· % 2 = 0) 0 bs := by
  have hk : ∀ n : ℕ, (n + 2) % 2 = 0 ↔ n % 2 = 0 := fun n => by rw [Nat.add_mod_right]
  induction bs using scan_induction with
  | nil | lone | start => exact iff_of_true rfl (by simp [HasReport, esc, bracket])
  | plain b bs hb ih =>
    rw [whole_plain hb, reference_plain hb, hasReport_plain hb]
    exact (List.cons_inj_right _).trans ih
  | other c bs hc ih =>
    rw [whole_other hc, reference_other hc, List.cons_inj_right]
    by_cases hesc : c = esc
    · subst hesc
      by_cases hhead : bs.head? = some bracket ∧ (bs.tail.head? = some focusIn ∨ bs.tail.head? = some focusOut)
      · -- The two bytes `ESC` hide the report.
        refine iff_of_false ?_ (not_not_intro ((hasReport_pair hk bs).mpr (.inl ⟨rfl, hhead⟩)))
        obtain ⟨d, rest, rfl, hd⟩ := eq_of_head hhead
        have hle := reference_length_le rest
        rw [whole_plain bracket_ne_esc, whole_plain (focus_ne_esc hd)]
        intro heq
        have hlen := congrArg List.length heq
        rcases hd with rfl | rfl
        · simp only [reference_focusIn, List.length_cons] at hlen
          omega
        · simp only [reference_focusOut, List.length_cons] at hlen
          omega
      · rw [reference_skip fun hstart => hhead hstart.2, List.cons_inj_right, hasReport_pair hk]
        exact Iff.trans ih (not_congr (or_iff_right fun hpair => hhead hpair.2).symm)
    · rw [reference_plain hesc, List.cons_inj_right, hasReport_other hc hesc]
      exact ih
  | focus d bs hd ih =>
    have hnot : HasReport (· % 2 = 0) 0 (esc :: bracket :: d :: bs) ↔ HasReport (· % 2 = 0) 0 bs := by
      rw [hasReport_sequence, or_iff_right fun hodd => absurd hodd.1 (by decide), hasReport_plain (focus_ne_esc hd)]
    rw [hnot]
    rcases hd with rfl | rfl
    · rw [whole_focusIn, reference_focusIn, List.cons_inj_right]
      exact ih
    · rw [whole_focusOut, reference_focusOut]
      exact ih
  | sequence d bs hd ih =>
    rw [whole_sequence hd, reference_skip fun hstart => hd (by simpa using hstart.2.2), List.cons_inj_right, hasReport_sequence,
      or_iff_right fun hhead => hd hhead.2, ← hasReport_plain bracket_ne_esc]
    exact ih

end Whole

/-! ## Runs -/

/-- What is carried over is kept until more comes. -/
theorem reading_carry (bs : List UInt8) : reading (reading bs).2 = ([], (reading bs).2) := by
  have h := reading_append bs []
  rw [List.append_nil, List.append_nil, after] at h
  have hnil : (reading (reading bs).2).1 = [] := List.self_eq_append_right.mp (congrArg Prod.fst h)
  exact Prod.ext hnil (congrArg Prod.snd h).symm

theorem carry_subset (bs : List UInt8) : (reading bs).2 ⊆ bs := by
  induction bs using scan_induction with
  | nil | lone | start => exact List.Subset.refl _
  | plain b bs hb ih =>
    rw [reading_plain hb]
    exact List.subset_cons_of_subset b ih
  | other c bs hc ih =>
    rw [reading_other hc]
    exact List.subset_cons_of_subset esc (List.subset_cons_of_subset c ih)
  | focus d bs hd ih =>
    have hsub : (reading bs).2 ⊆ esc :: bracket :: d :: bs :=
      List.subset_cons_of_subset esc (List.subset_cons_of_subset bracket (List.subset_cons_of_subset d ih))
    rcases hd with rfl | rfl
    · rwa [reading_focusIn]
    · rwa [reading_focusOut]
  | sequence d bs hd ih =>
    rw [reading_sequence hd]
    exact List.subset_cons_of_subset esc ih

/-- The start of a sequence, or nothing. -/
structure Waiting (f : InputFilter) : Prop where
  noDetach : detachKey ∉ f.carry
  kept : reading f.carry = ([], f.carry)

theorem waiting_new : Waiting {} := ⟨List.not_mem_nil, rfl⟩

theorem Waiting.whole_carry {f : InputFilter} (hf : Waiting f) : whole f.carry = forwards f.carry := by
  rw [whole, hf.kept, List.nil_append]

theorem process_none {f : InputFilter} {input : List UInt8} (h : detachKey ∉ f.carry ++ input) :
    f.process input = ((scan [] (f.carry ++ input)).1, { carry := (reading (f.carry ++ input)).2 }) := by
  have hnone : (f.carry ++ input).findIdx? (· = detachKey) = none :=
    List.findIdx?_eq_none_iff.mpr fun b hb => decide_eq_false fun heq => h (heq ▸ hb)
  rw [process, hnone]
  rfl

theorem process_detach {f : InputFilter} {input before rest : List UInt8} (h : f.carry ++ input = before ++ detachKey :: rest)
    (hbefore : detachKey ∉ before) : f.process input = (flushFiltered before ++ [.detach], { carry := [] }) := by
  have hnone : before.findIdx? (· = detachKey) = none :=
    List.findIdx?_eq_none_iff.mpr fun b hb => decide_eq_false fun heq => hbefore (heq ▸ hb)
  have hsome : (before ++ detachKey :: rest).findIdx? (· = detachKey) = some before.length := by
    simp [List.findIdx?_append, hnone, List.findIdx?_cons]
  rw [process, h, hsome]
  cases before with
  | nil => rfl
  | cons b before => simp [flushFiltered]

/-- The next read finds the carried bytes only. -/
theorem Waiting.process {f : InputFilter} {input : List UInt8} (h : detachKey ∉ f.carry ++ input) : Waiting (f.process input).2 := by
  rw [process_none h]
  exact ⟨fun hmem => h (carry_subset _ hmem), reading_carry _⟩

/-- However the bytes come, they are treated as if they came at once. -/
theorem run_single {f : InputFilter} (hf : Waiting f) {inputs : List (List UInt8)} (h : detachKey ∉ f.carry ++ inputs.flatten) :
    (run f inputs).flatMap single = whole (f.carry ++ inputs.flatten) := by
  induction inputs generalizing f with
  | nil =>
    rw [List.flatten_nil, List.append_nil, hf.whole_carry, run, flush]
    split
    next hnil => rw [hnil]; rfl
    next => exact List.flatMap_singleton ..
  | cons input inputs ih =>
    rw [List.flatten_cons, ← List.append_assoc] at h ⊢
    have hraw : detachKey ∉ f.carry ++ input := fun hmem => h (List.mem_append_left _ hmem)
    have hrest : detachKey ∉ (f.process input).2.carry ++ inputs.flatten := by
      rw [process_none hraw, List.mem_append, not_or]
      exact ⟨fun hmem => hraw (carry_subset _ hmem), fun hmem => h (List.mem_append_right _ hmem)⟩
    rw [run, List.flatMap_append, ih (Waiting.process hraw) hrest, process_none hraw]
    exact (whole_after (reading_append _ _)).symm

theorem flushFiltered_mem {a : FilterAction} {filtered : List UInt8} (h : a ∈ flushFiltered filtered) :
    ∃ data ≠ [], a = .forward data := by
  unfold flushFiltered at h
  split at h
  next => exact absurd h List.not_mem_nil
  next hne => exact ⟨filtered, hne, List.mem_singleton.mp h⟩

/-- The scan reports the focus and forwards something. -/
theorem scan_mem {a : FilterAction} {filtered bs : List UInt8} (h : a ∈ (scan filtered bs).1) :
    a = .focusIn ∨ ∃ data ≠ [], a = .forward data := by
  induction bs using scan_induction generalizing filtered with
  | nil | lone | start => exact .inr (flushFiltered_mem h)
  | plain b bs hb ih =>
    rw [scan_plain filtered bs hb] at h
    exact ih h
  | other c bs hc ih =>
    rw [scan_other filtered bs hc] at h
    exact ih h
  | focus d bs hd ih =>
    rcases hd with rfl | rfl
    · rw [scan_focusIn, List.mem_append, List.mem_cons] at h
      rcases h with h | h | h
      · exact .inr (flushFiltered_mem h)
      · exact .inl h
      · exact ih h
    · rw [scan_focusOut] at h
      exact ih h
  | sequence d bs hd ih =>
    rw [scan_sequence filtered bs hd] at h
    exact ih h

theorem detach_notMem_scan {filtered bs : List UInt8} : .detach ∉ (scan filtered bs).1 := by
  intro hmem
  rcases scan_mem hmem with hfocus | ⟨data, -, hdata⟩
  · cases hfocus
  · cases hdata

/-- In the read with the key, nothing else is looked at. -/
theorem run_key {f : InputFilter} {input before rest : List UInt8} (h : f.carry ++ input = before ++ detachKey :: rest)
    (hbefore : detachKey ∉ before) (inputs : List (List UInt8)) :
    (untilDetach (run f (input :: inputs))).flatMap single = forwards before ++ [.detach] := by
  have hflush : .detach ∉ flushFiltered before := by
    intro hmem
    obtain ⟨data, -, hdata⟩ := flushFiltered_mem hmem
    cases hdata
  rw [run, process_detach h hbefore, List.append_assoc, untilDetach_append hflush, List.flatMap_append, flushFiltered_single]
  rfl

/-- A detach key ends the input: what came before it is treated as if it came
at once, except for the bytes of the read it is in. -/
theorem run_detach {f : InputFilter} (hf : Waiting f) {inputs : List (List UInt8)} {before rest : List UInt8}
    (h : f.carry ++ inputs.flatten = before ++ detachKey :: rest) (hbefore : detachKey ∉ before) :
    ∃ p q, f.carry ++ p ++ q = before ∧
      (untilDetach (run f inputs)).flatMap single = whole (f.carry ++ p) ++ forwards q ++ [.detach] := by
  induction inputs generalizing f before with
  | nil =>
    rw [List.flatten_nil, List.append_nil] at h
    exact absurd (h ▸ List.mem_append_right before List.mem_cons_self) hf.noDetach
  | cons input inputs ih =>
    rw [List.flatten_cons, ← List.append_assoc] at h
    by_cases hraw : detachKey ∈ f.carry ++ input
    · obtain ⟨q, rfl⟩ := Lists.prefix_of_notMem ((List.append_assoc ..).symm.trans h) hf.noDetach
      obtain ⟨post, heq⟩ := Lists.eq_append_of_mem h hbefore hraw
      refine ⟨[], q, by rw [List.append_nil], ?_⟩
      rw [run_key heq hbefore, List.append_nil, hf.whole_carry, ← forwards_append]
    · obtain ⟨x, rfl⟩ := Lists.prefix_of_notMem h hraw
      rw [List.append_assoc (f.carry ++ input), List.append_cancel_left_eq] at h
      have hcarry : (f.process input).2.carry ++ inputs.flatten = (f.process input).2.carry ++ x ++ detachKey :: rest := by
        rw [h, List.append_assoc]
      have hx : detachKey ∉ (f.process input).2.carry ++ x := by
        rw [process_none hraw, List.mem_append, not_or]
        exact ⟨fun hmem => hraw (carry_subset _ hmem), fun hmem => hbefore (List.mem_append_right _ hmem)⟩
      obtain ⟨p, q, hpq, hrun⟩ := ih (Waiting.process hraw) hcarry hx
      rw [List.append_assoc, List.append_cancel_left_eq] at hpq
      refine ⟨input ++ p, q, by rw [← hpq, List.append_assoc, List.append_assoc, List.append_assoc], ?_⟩
      have hscan : .detach ∉ (f.process input).1 := by
        rw [process_none hraw]
        exact detach_notMem_scan
      rw [run, untilDetach_append hscan, List.flatMap_append, hrun, ← List.append_assoc, ← List.append_assoc, ← List.append_assoc,
        whole_after (reading_append (f.carry ++ input) p), process_none hraw]
      rfl

theorem process_proper (f : InputFilter) (input : List UInt8) : Proper (f.process input).1 := by
  intro hmem
  by_cases hraw : detachKey ∈ f.carry ++ input
  · obtain ⟨pre, post, heq, hpre⟩ := List.eq_append_cons_of_mem hraw
    rw [process_detach heq hpre, List.mem_append, List.mem_singleton] at hmem
    rcases hmem with hmem | hmem
    · obtain ⟨data, hne, hdata⟩ := flushFiltered_mem hmem
      exact hne (FilterAction.forward.inj hdata).symm
    · cases hmem
  · rw [process_none hraw] at hmem
    rcases scan_mem hmem with hmem | ⟨data, hne, hdata⟩
    · cases hmem
    · exact hne (FilterAction.forward.inj hdata).symm

theorem run_proper (f : InputFilter) (inputs : List (List UInt8)) : Proper (run f inputs) := by
  intro hmem
  induction inputs generalizing f with
  | nil =>
    rw [run, flush] at hmem
    split at hmem
    next => exact List.not_mem_nil hmem
    next hne => exact hne (FilterAction.forward.inj (List.mem_singleton.mp hmem)).symm
  | cons input inputs ih =>
    rw [run, List.mem_append] at hmem
    exact hmem.elim (process_proper f input) (ih _)

theorem detach_notMem_run {f : InputFilter} {inputs : List (List UInt8)} (h : detachKey ∉ f.carry ++ inputs.flatten) :
    .detach ∉ run f inputs := by
  intro hmem
  induction inputs generalizing f with
  | nil =>
    rw [run, flush] at hmem
    split at hmem
    next => exact List.not_mem_nil hmem
    next => cases List.mem_singleton.mp hmem
  | cons input inputs ih =>
    rw [List.flatten_cons, ← List.append_assoc] at h
    have hraw : detachKey ∉ f.carry ++ input := fun hmem => h (List.mem_append_left _ hmem)
    rw [run, List.mem_append, process_none hraw] at hmem
    rcases hmem with hmem | hmem
    · exact detach_notMem_scan hmem
    · refine ih ?_ hmem
      rw [List.mem_append, not_or]
      exact ⟨fun hmem => hraw (carry_subset _ hmem), fun hmem => h (List.mem_append_right _ hmem)⟩

/-! ## Results -/

theorem HasReport.append {k : ℕ → Prop} {escs : ℕ} {bs : List UInt8} (h : HasReport k escs bs) (cs : List UInt8) :
    HasReport k escs (bs ++ cs) := by
  induction bs generalizing escs with
  | nil => exact h.elim
  | cons b bs ih =>
    have hhead : ∀ d, bs.head? = some d → (bs ++ cs).head? = some d := fun d hd => by rw [List.head?_append, hd, Option.some_or]
    rcases h with ⟨rfl, hpos, hk, hd⟩ | h
    · exact .inl ⟨rfl, hpos, hk, hd.imp (hhead _) (hhead _)⟩
    · exact .inr (ih h)

/-- How the input is cut into reads does not matter, unless a report comes
before the detach key: in the read of the key it is forwarded. -/
theorem cuts_agree_iff (bs : List UInt8) :
    (∀ inputs inputs' : List (List UInt8), inputs.flatten = bs → inputs'.flatten = bs →
      merge (untilDetach (run {} inputs)) = merge (untilDetach (run {} inputs'))) ↔
    ∀ before rest, bs = before ++ detachKey :: rest → detachKey ∉ before → ¬ HasReport (· % 2 = 1) 0 before := by
  have hproper : ∀ inputs, Proper (untilDetach (run {} inputs)) := fun inputs hmem =>
    run_proper {} inputs (untilDetach_subset _ hmem)
  constructor
  · rintro hcuts before rest rfl hbefore
    -- One cut leaves everything in one read, the other ends a read before the key.
    have hone : (untilDetach (run {} [before ++ detachKey :: rest])).flatMap single = forwards before ++ [.detach] :=
      run_key rfl hbefore []
    have htwo : (untilDetach (run {} [before, detachKey :: rest])).flatMap single = whole before ++ [.detach] := by
      have hcarry : detachKey ∉ (reading before).2 := fun hmem => hbefore (carry_subset before hmem)
      have hkey : (untilDetach (run ⟨(reading before).2⟩ [detachKey :: rest])).flatMap single =
          forwards (reading before).2 ++ [.detach] := run_key rfl hcarry []
      rw [run, process_none (f := {}) hbefore, untilDetach_append detach_notMem_scan, List.flatMap_append]
      exact (congrArg (_ ++ ·) hkey).trans (List.append_assoc ..).symm
    have heq := hcuts [before, detachKey :: rest] [before ++ detachKey :: rest] (by simp) (by simp)
    rw [merge_eq_iff (hproper _) (hproper _), hone, htwo, List.append_cancel_right_eq] at heq
    exact (whole_eq_forwards_iff before).mp heq
  · intro hbefore inputs inputs' hflat hflat'
    rw [merge_eq_iff (hproper inputs) (hproper inputs')]
    by_cases hmem : detachKey ∈ bs
    · obtain ⟨before, rest, rfl, hnot⟩ := List.eq_append_cons_of_mem hmem
      have hresult : ∀ cut : List (List UInt8), cut.flatten = before ++ detachKey :: rest →
          (untilDetach (run {} cut)).flatMap single = forwards before ++ [.detach] := by
        intro cut hcut
        obtain ⟨p, q, rfl, hrun⟩ := run_detach waiting_new hcut hnot
        have hp : whole p = forwards p :=
          (whole_eq_forwards_iff p).mpr fun hreport => hbefore (p ++ q) rest rfl hnot (hreport.append q)
        exact hrun.trans (by rw [List.nil_append, hp, forwards_append])
      rw [hresult inputs hflat, hresult inputs' hflat']
    · have hresult : ∀ cut : List (List UInt8), cut.flatten = bs → (untilDetach (run {} cut)).flatMap single = whole bs := by
        rintro cut rfl
        rw [untilDetach_of_notMem (detach_notMem_run (f := {}) hmem)]
        exact run_single waiting_new hmem
      rw [hresult inputs hflat, hresult inputs' hflat']

theorem cut_before_key : ∃ inputs inputs' : List (List UInt8), inputs.flatten = inputs'.flatten ∧
    merge (untilDetach (run {} inputs)) ≠ merge (untilDetach (run {} inputs')) :=
  ⟨[[esc, bracket, focusIn, detachKey]], [[esc, bracket, focusIn], [detachKey]], by decide, by decide⟩

/-- Without a detach key, the reports and only they are taken out, unless `ESC`
is pressed just before one: the loop takes two bytes `ESC` at a time. -/
theorem run_reference_iff {bs : List UInt8} (h : detachKey ∉ bs) :
    merge (run {} [bs]) = merge (reference bs) ↔ ¬ HasReport (· % 2 = 0) 0 bs := by
  have hflat : [bs].flatten = bs := List.flatten_singleton
  have hsingle : (run {} [bs]).flatMap single = whole [bs].flatten := run_single waiting_new (hflat.symm ▸ h)
  rw [hflat] at hsingle
  rw [merge_eq_iff (run_proper {} [bs]) (reference_proper bs), hsingle, reference_single]
  exact whole_eq_reference_iff bs

theorem run_reference_sample : merge (run {} [[esc, bracket, focusIn, 0x61]]) = merge (reference [esc, bracket, focusIn, 0x61]) :=
  (run_reference_iff (by decide)).mpr (by simp [HasReport, esc, bracket, focusIn])

theorem two_escapes : detachKey ∉ [esc, esc, bracket, focusIn] ∧
    merge (run {} [[esc, esc, bracket, focusIn]]) ≠ merge (reference [esc, esc, bracket, focusIn]) := by decide

end InputFilter

end Retach
