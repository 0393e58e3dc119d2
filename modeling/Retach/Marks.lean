import Retach.Inserting
/-!
# Marks follow their characters

The marks of a row are kept beside its cells. The operations that write or
shift cells move the marks along and clear those of the columns they write, but
the repairs of wide characters blank cells directly, and the marks stay.
-/

open Checked Lists Runs

namespace Retach

namespace Row

/-- Every column of `row'` is bare or shows the character of its origin in `row`
with all its marks; columns that were written have no origin. -/
def MarksFollow (origin : Nat → Option Nat) (row row' : Row) : Prop :=
  ∀ c < row'.cells.length, row'.marks c = [] ∨
    ∃ o, origin c = some o ∧ row'.cells[c]? = row.cells[o]? ∧ row'.marks c = row.marks o

/-- When all marks are moved along, those of characters that were blanked on the
way are stale. -/
theorem marksFollow_iff {origin : Nat → Option Nat} {row row' : Row}
    (hmarks : ∀ c < row'.cells.length, ∀ o, origin c = some o → row'.marks c = row.marks o) :
    MarksFollow origin row row' ↔
      (∀ c < row'.cells.length, origin c = none → row'.marks c = []) ∧
      ∀ c < row'.cells.length, ∀ o, origin c = some o → row'.cells[c]? ≠ row.cells[o]? → row.marks o = [] := by
  constructor
  · intro h
    refine ⟨fun c hc hnone => ?_, fun c hc o ho hne => ?_⟩
    · obtain hbare | ⟨o, ho, -⟩ := h c hc
      · exact hbare
      · rw [hnone] at ho
        cases ho
    · obtain hbare | ⟨o', ho', heq, -⟩ := h c hc
      · rw [← hmarks c hc o ho, hbare]
      · rw [ho, Option.some.injEq] at ho'
        exact absurd (ho' ▸ heq) hne
  · rintro ⟨hnone, hsome⟩ c hc
    cases ho : origin c with
    | none => exact .inl (hnone c hc ho)
    | some o =>
      by_cases heq : row'.cells[c]? = row.cells[o]?
      · exact .inr ⟨o, rfl, heq, hmarks c hc o ho⟩
      · rw [hmarks c hc o ho]
        exact .inl (hsome c hc o ho heq)

end Row

/-! ## Halves of wide characters -/

section Halves

variable {l : List Cell} {x z o : Nat}

theorem OtherHalf.cell_ne (h : OtherHalf l x z) {c : Cell} (hc : c.width = 1) : l[x]? ≠ some c := by
  obtain ⟨d, hd, hw⟩ := h
  rw [hd]
  rintro he
  cases he
  omega

theorem InPair.cell_ne (hp : Paired l) (h : InPair l x o) {c : Cell} (hc : c.width = 1) : l[o]? ≠ some c := by
  rcases h with ⟨rfl, z, hz⟩ | h
  · exact hz.cell_ne hc
  · exact (h.symm hp).cell_ne hc

theorem InPair.lt (hp : Paired l) (h : InPair l x o) : o < l.length := by
  rcases h with ⟨rfl, z, hz⟩ | h
  · exact hz.lt
  · exact (h.symm hp).lt

/-- Columns of one wide character have the same wide character. -/
theorem InPair.symm (hp : Paired l) (h : InPair l x o) : InPair l o x := by
  rcases h with ⟨rfl, hz⟩ | h
  · exact .inl ⟨rfl, hz⟩
  · exact .inr (h.symm hp)

theorem OtherHalf.unique (h : OtherHalf l x z) (h' : OtherHalf l x o) : z = o := by
  obtain ⟨c, hc, hw⟩ := h
  obtain ⟨d, hd, hw'⟩ := h'
  rw [hc, Option.some.injEq] at hd
  subst hd
  omega

theorem InPair.trans (hp : Paired l) (h : InPair l x z) (h' : InPair l z o) : InPair l x o := by
  rcases h with ⟨rfl, hx⟩ | h
  · exact h'
  · rcases h' with ⟨rfl, -⟩ | h'
    · exact .inr h
    · exact .inl ⟨(h.symm hp).unique h' ▸ rfl, z, h⟩

end Halves

/-! ## Writing and erasing -/

/-- Column `c` is written when a character of `width` columns is set at `x`. -/
def WritesTo (x width len c : Nat) : Prop := c = x ∨ width = 2 ∧ x + 1 < len ∧ c = x + 1

instance decidableWritesTo (x width len : Nat) : DecidablePred (WritesTo x width len) := fun c =>
  inferInstanceAs (Decidable (c = x ∨ width = 2 ∧ x + 1 < len ∧ c = x + 1))

/-- The columns for which `p` holds are written, the others stay. -/
def exceptAt (p : Nat → Prop) [DecidablePred p] (c : Nat) : Option Nat := if p c then none else some c

/-- Writing in place that clears the marks of what it writes: the stale ones are
those of the characters it blanks besides. -/
theorem marksFollow_exceptAt {p : Nat → Prop} [DecidablePred p] {row row' : Row} {blanked : Nat → Prop}
    (hlen : row'.cells.length = row.cells.length) (hmarks : ∀ c, row'.marks c = if p c then [] else row.marks c)
    (hcells : ∀ c < row.cells.length, ¬ p c → (row'.cells[c]? ≠ row.cells[c]? ↔ blanked c)) :
    Row.MarksFollow (exceptAt p) row row' ↔ ∀ c < row.cells.length, ¬ p c → blanked c → row.marks c = [] := by
  have hsome : ∀ c o, exceptAt p c = some o → ¬ p c ∧ o = c := by
    intro c o ho
    unfold exceptAt at ho
    split at ho
    · cases ho
    next hp => exact ⟨hp, (Option.some.inj ho).symm⟩
  rw [Row.marksFollow_iff fun c _ o ho => by
    obtain ⟨hp, rfl⟩ := hsome c o ho
    rw [hmarks, if_neg hp], hlen]
  constructor
  · intro h c hc hp hb
    exact h.2 c hc c (if_neg hp) ((hcells c hc hp).2 hb)
  · intro h
    refine ⟨fun c hc hnone => ?_, fun c hc o ho hne => ?_⟩
    · unfold exceptAt at hnone
      split at hnone
      next hp => rw [hmarks, if_pos hp]
      next => cases hnone
    · obtain ⟨hp, rfl⟩ := hsome c o ho
      exact h o hc hp ((hcells o hc hp).1 hne)

section Cells

variable {l : List Cell} {x z : Nat}

/-- After the fixup at `x` only the wide character there is gone. -/
theorem unpair_ne_iff (hp : Paired l) : (unpair x l)[z]? ≠ l[z]? ↔ InPair l x z := by
  by_cases h : InPair l x z
  · refine iff_of_true ?_ h
    rw [unpair_inPair h (h.lt hp)]
    exact (h.cell_ne hp rfl).symm
  · exact iff_of_false (not_not_intro (unpair_keeps h)) h

theorem writeCell_ne_iff (hp : Paired l) {cell : Cell} (hz : ¬ WritesTo x cell.width l.length z) :
    (writeCell x cell l)[z]? ≠ l[z]? ↔ ∃ w, WritesTo x cell.width l.length w ∧ OtherHalf l w z := by
  have hzx : z ≠ x := fun h => hz (.inl h)
  have hpairx : InPair l x z ↔ OtherHalf l x z := ⟨fun h => h.resolve_left fun h => hzx h.1, .inr⟩
  have hm : ((unpair x l).set x cell)[z]? = (unpair x l)[z]? := List.getElem?_set_ne (Ne.symm hzx)
  by_cases hw : cell.width = 2 ∧ x + 1 < l.length
  · have hzx1 : z ≠ x + 1 := fun h => hz (.inr ⟨hw.1, hw.2, h⟩)
    have hset : (writeCell x cell l)[z]? = (unpair (x + 1) ((unpair x l).set x cell))[z]? := by
      unfold writeCell
      dsimp only
      rw [if_pos hw, List.getElem?_set_ne (Ne.symm hzx1)]
    have hwritten : (∃ w, WritesTo x cell.width l.length w ∧ OtherHalf l w z) ↔ OtherHalf l x z ∨ OtherHalf l (x + 1) z := by
      constructor
      · rintro ⟨w, rfl | ⟨-, -, rfl⟩, h⟩
        · exact .inl h
        · exact .inr h
      · rintro (h | h)
        · exact ⟨x, .inl rfl, h⟩
        · exact ⟨x + 1, .inr ⟨hw.1, hw.2, rfl⟩, h⟩
    rw [hset, hwritten]
    have hnext : ((unpair x l).set x cell)[x + 1]? = (unpair x l)[x + 1]? := List.getElem?_set_ne (by omega)
    by_cases hboth : OtherHalf l x (x + 1)
    · -- the wide character at `x` is all that is blanked
      have hsingle : ∀ y, ¬ OtherHalf ((unpair x l).set x cell) (x + 1) y := by
        rintro y ⟨d, hd, hwd⟩
        rw [hnext, unpair_inPair (.inr hboth) hw.2, Option.some.injEq] at hd
        subst hd
        simp at hwd
      rw [unpair_single hsingle, hm, unpair_ne_iff hp, hpairx]
      refine ⟨.inl, fun h => h.elim id fun h => ?_⟩
      exact absurd ((hboth.symm hp).unique h) (Ne.symm hzx)
    · have hkeep : ((unpair x l).set x cell)[x + 1]? = l[x + 1]? := by
        rw [hnext, unpair_keeps fun h => h.elim (fun h => by omega) hboth]
      have hhalf : OtherHalf ((unpair x l).set x cell) (x + 1) z ↔ OtherHalf l (x + 1) z := by
        unfold OtherHalf
        rw [hkeep]
      by_cases h1 : OtherHalf l (x + 1) z
      · refine iff_of_true ?_ (.inr h1)
        rw [unpair_otherHalf (hhalf.2 h1) (by rw [List.length_set, unpair_length]; exact (h1.symm hp).lt)]
        exact ((h1.symm hp).cell_ne rfl).symm
      · rw [unpair_other hzx1 fun h => h1 (hhalf.1 h), hm, unpair_ne_iff hp, hpairx]
        exact ⟨.inl, fun h => h.resolve_right h1⟩
  · have hset : (writeCell x cell l)[z]? = (unpair x l)[z]? := by
      unfold writeCell
      dsimp only
      rw [if_neg hw, hm]
    rw [hset, unpair_ne_iff hp, hpairx]
    constructor
    · intro h
      exact ⟨x, .inl rfl, h⟩
    · rintro ⟨w, rfl | ⟨h2, hlt, -⟩, h⟩
      · exact h
      · exact absurd ⟨h2, hlt⟩ hw

/-- `erase_cells` outside its range. -/
theorem eraseRange_ne_iff (hp : Paired l) {lo hi : Nat} {blank : Cell} (hlo : lo < hi) (hhi : hi ≤ l.length)
    (hz : ¬ (lo ≤ z ∧ z < hi)) : (eraseRange lo hi blank l)[z]? ≠ l[z]? ↔ OtherHalf l lo z ∨ InPair l hi z := by
  have hpairlo : InPair l lo z ↔ OtherHalf l lo z := ⟨fun h => h.resolve_left fun h => by omega, .inr⟩
  rw [erase_outside hlo hhi hz]
  split
  next hin =>
    by_cases hboth : OtherHalf l lo hi
    · have hsingle : ∀ y, ¬ OtherHalf (unpair lo l) hi y := by
        rintro y ⟨d, hd, hwd⟩
        rw [unpair_inPair (.inr hboth) hin, Option.some.injEq] at hd
        subst hd
        simp at hwd
      rw [unpair_single hsingle, unpair_ne_iff hp, hpairlo]
      refine ⟨.inl, fun h => h.elim id fun h => ?_⟩
      obtain ⟨rfl, -⟩ | h := h
      · exact hboth
      · exact absurd ((hboth.symm hp).unique h) (by omega)
    · have hkeep : (unpair lo l)[hi]? = l[hi]? := unpair_keeps fun h => h.elim (fun h => by omega) hboth
      have hhalf : ∀ y, OtherHalf (unpair lo l) hi y ↔ OtherHalf l hi y := fun y => by
        unfold OtherHalf
        rw [hkeep]
      have hpairhi : InPair (unpair lo l) hi z ↔ InPair l hi z := by
        unfold InPair
        simp only [hhalf]
      by_cases h1 : InPair l hi z
      · refine iff_of_true ?_ (.inr h1)
        rw [unpair_inPair (hpairhi.2 h1) (by rw [unpair_length]; exact h1.lt hp)]
        exact (h1.cell_ne hp rfl).symm
      · rw [unpair_keeps fun h => h1 (hpairhi.1 h), unpair_ne_iff hp, hpairlo]
        exact ⟨.inl, fun h => h.resolve_right h1⟩
  next hout =>
    rw [unpair_ne_iff hp, hpairlo]
    refine ⟨.inl, fun h => h.resolve_right fun h => ?_⟩
    have := (h.symm hp).lt hp
    omega

end Cells

/-! ## Shifting -/

/-- The column that column `c` comes from when `m` columns at `x` of `len` are
deleted. -/
def deleteOrigin (x m len c : Nat) : Option Nat := if c < x then some c else if c + m < len then some (c + m) else none

/-- The column that column `c` comes from when `m` columns are inserted at `x`. -/
def insertOrigin (x m c : Nat) : Option Nat := if c < x then some c else if c < x + m then none else some (c - m)

theorem insertOrigin_some {x m c o : Nat} : insertOrigin x m c = some o ↔ MovesTo x m o c := by
  unfold insertOrigin MovesTo
  split
  next hlt =>
    rw [Option.some.injEq]
    omega
  next hge =>
    split
    next hin => exact iff_of_false (by simp) (by omega)
    next hout =>
      rw [Option.some.injEq]
      omega

theorem deleteOrigin_some {x m len c o : Nat} (hc : c < len) :
    deleteOrigin x m len c = some o ↔ o < len ∧ (o < x ∧ o = c ∨ x + m ≤ o ∧ o = c + m) := by
  unfold deleteOrigin
  split
  next hlt =>
    rw [Option.some.injEq]
    omega
  next hge =>
    split
    next hin =>
      rw [Option.some.injEq]
      omega
    next hout => exact iff_of_false (by simp) (by omega)

section Shifts

variable {l : List Cell} {x m o d : Nat} {blank : Cell}

/-- What is blanked in the last column after an insertion, seen from the columns
before it. -/
theorem lastPair_iff (hp : Paired l) (hx : x < l.length) (hfit : x + m < l.length) (hmove : MovesTo x m o d) (hd : d < l.length)
    (ho : ¬ InPair l x o) {c : Cell} (hc : l[l.length - 1 - m]? = some c) :
    (c.width = 2 ∧ d = l.length - 1 ∨
      c.width = 0 ∧ (d = l.length - 1 ∨ d + 1 = l.length - 1 ∧ ∃ b, l[o]? = some b ∧ b.width = 2)) ↔
      InPair l (l.length - 1 - m) o := by
  have hcol : d = l.length - 1 ↔ o = l.length - 1 - m := by rcases hmove with ⟨hlt, rfl⟩ | ⟨hge, rfl⟩ <;> omega
  constructor
  · rintro (⟨hw, hdl⟩ | ⟨hw, hdl | ⟨hdb, b, hb, hb2⟩⟩)
    · exact .inl ⟨hcol.1 hdl, _, c, hc, .inl ⟨hw, rfl⟩⟩
    · obtain ⟨z, -, hz, -⟩ := hp.continuation hc hw
      exact .inl ⟨hcol.1 hdl, z, c, hc, .inr ⟨hw, hz⟩⟩
    · have hnext : l.length - 1 - m = o + 1 := by rcases hmove with ⟨hlt, rfl⟩ | ⟨hge, rfl⟩ <;> omega
      exact .inr ⟨c, hc, .inr ⟨hw, hnext⟩⟩
  · rintro (⟨ho', z, e, he, hw⟩ | ⟨e, he, ⟨hw, hoz⟩ | ⟨hw, hoz⟩⟩)
    all_goals
      rw [hc, Option.some.injEq] at he
      subst he
    · exact hw.elim (fun h => .inl ⟨h.1, hcol.2 ho'⟩) fun h => .inr ⟨h.1, .inl (hcol.2 ho')⟩
    · -- a second half behind the last column is gone
      rcases hmove with ⟨hlt, rfl⟩ | ⟨hge, rfl⟩ <;> omega
    · obtain ⟨z, b, hz, hb, hb2⟩ := hp.continuation hc hw
      obtain rfl : z = o := by omega
      -- it stands right of the cursor: else it is the character there
      have hge : x ≤ z := Nat.le_of_not_lt fun hlt => ho (.inr ⟨c, by rwa [show x = l.length - 1 - m by omega], .inr ⟨hw, by omega⟩⟩)
      refine .inr ⟨hw, .inr ⟨?_, b, hb, hb2⟩⟩
      rcases hmove with ⟨hlt, rfl⟩ | ⟨-, rfl⟩ <;> omega

/-- ICH blanks the wide character at the cursor, and the one at the column that
becomes the last. -/
theorem insertCells_ne_iff (hp : Paired l) (hx : x < l.length) (hm : x + m ≤ l.length) (hb : blank.width = 1)
    (hmove : MovesTo x m o d) (hd : d < l.length) :
    (insertCells x m blank l)[d]? ≠ l[o]? ↔ InPair l x o ∨ x + m < l.length ∧ InPair l (l.length - 1 - m) o := by
  have hvlen : (shiftRight x m blank (unpair x l)).length = l.length := by
    rw [shiftRight_length (by rw [unpair_length]; exact hm), unpair_length]
  have hulen := unpair_length x l
  have hv := shiftRight_moved blank hm hmove hd
  by_cases ho : InPair l x o
  · refine iff_of_true ?_ (.inl ho)
    rw [unpair_inPair ho (ho.lt hp)] at hv
    rw [insertCells]
    rcases cutLast_or blank (shiftRight x m blank (unpair x l)) d with hr | ⟨hr, -⟩
    · rw [hr, hv]
      exact (ho.cell_ne hp rfl).symm
    · rw [hr]
      exact (ho.cell_ne hp hb).symm
  rw [unpair_keeps ho] at hv
  -- from here on only the repair at the margin can blank anything
  have hcut {c : Cell} (hc : (shiftRight x m blank (unpair x l))[l.length - 1]? = some c) :
      (insertCells x m blank l)[d]? ≠ l[o]? ↔ c.width = 2 ∧ d = l.length - 1 ∨
        c.width = 0 ∧ (d = l.length - 1 ∨ d + 1 = l.length - 1 ∧ ∃ b, l[o]? = some b ∧ b.width = 2) := by
    have hiff := cutLast_ne_iff (d := d) hb (hvlen.symm ▸ hc)
    rwa [hv, hvlen] at hiff
  rw [or_iff_right ho]
  by_cases hfull : x + m = l.length
  · rw [hcut (shiftRight_gap (by omega) (by omega) (by omega))]
    omega
  have hsource : (shiftRight x m blank (unpair x l))[l.length - 1]? = (unpair x l)[l.length - 1 - m]? := by
    have hcol : l.length - 1 = l.length - 1 - m + m := by omega
    conv => lhs; rw [hcol]
    exact shiftRight_after (by omega) (by omega)
  by_cases he : InPair l x (l.length - 1 - m)
  · rw [unpair_inPair he (he.lt hp)] at hsource
    rw [hcut hsource]
    exact iff_of_false (by simp) fun h => ho (he.trans hp h.2)
  · rw [unpair_keeps he] at hsource
    have hc : l[l.length - 1 - m]? = some l[l.length - 1 - m] := List.getElem?_eq_getElem (by omega)
    have hfit : x + m < l.length := by omega
    rw [hcut (hsource.trans hc), lastPair_iff hp hx hfit hmove hd ho hc]
    exact (and_iff_right hfit).symm

theorem shiftLeft_before (hm : x + m ≤ l.length) (hd : d < x) : (shiftLeft x m blank l)[d]? = l[d]? := by
  have hlen : (l.take x).length = x := List.length_take_of_le (by omega)
  rw [shiftLeft, List.append_assoc, List.getElem?_append_left (by omega), List.getElem?_take_of_lt hd]

theorem shiftLeft_after (hm : x + m ≤ l.length) (hx : x ≤ d) (hd : d + m < l.length) :
    (shiftLeft x m blank l)[d]? = l[d + m]? := by
  have hlen : (l.take x).length = x := List.length_take_of_le (by omega)
  rw [shiftLeft, List.append_assoc, List.getElem?_append_right (by omega), hlen,
    List.getElem?_append_left (by rw [List.length_drop]; omega), List.getElem?_drop]
  congr 1
  omega

theorem shiftLeft_gap (hm : x + m ≤ l.length) (h : l.length ≤ d + m) (hd : d < l.length) :
    (shiftLeft x m blank l)[d]? = some blank := by
  have hlen : (l.take x ++ l.drop (x + m)).length = l.length - m := by
    rw [List.length_append, List.length_drop, List.length_take_of_le (by omega)]
    omega
  rw [shiftLeft, List.getElem?_append_right (by omega), hlen, List.getElem?_replicate, if_pos (by omega)]

/-- DCH blanks the wide character at the cursor, and a second half whose first
half is deleted. -/
theorem deleteCells_ne_iff (hp : Paired l) (hx : x < l.length) (hm : x + m ≤ l.length) (hb : blank.width = 1)
    (hmove : o < x ∧ o = d ∨ x + m ≤ o ∧ o = d + m) (ho' : o < l.length) :
    (deleteCells x m blank l)[d]? ≠ l[o]? ↔ InPair l x o ∨ o = x + m ∧ ∃ z, o = z + 1 ∧ OtherHalf l o z := by
  have hulen := unpair_length x l
  have hv : (shiftLeft x m blank (unpair x l))[d]? = (unpair x l)[o]? := by
    rcases hmove with ⟨hlt, rfl⟩ | ⟨hge, rfl⟩
    · exact shiftLeft_before (by omega) hlt
    · exact shiftLeft_after (by omega) (by omega) (by omega)
  rw [deleteCells]
  by_cases ho : InPair l x o
  · refine iff_of_true ?_ (.inl ho)
    rw [unpair_inPair ho ho'] at hv
    rcases dropOrphan_or x blank (shiftLeft x m blank (unpair x l)) d with hr | ⟨hr, -⟩
    · rw [hr, hv]
      exact (ho.cell_ne hp rfl).symm
    · rw [hr]
      exact (ho.cell_ne hp hb).symm
  rw [unpair_keeps ho] at hv
  -- from here on only the repair at the cursor can blank anything
  have hdrop {c : Cell} (hc : (shiftLeft x m blank (unpair x l))[x]? = some c) :
      (dropOrphan x blank (shiftLeft x m blank (unpair x l)))[d]? ≠ l[o]? ↔
        c.width = 0 ∧ (d = x ∨ d + 1 = x ∧ ∃ b, l[o]? = some b ∧ b.width = 2) := by
    have hiff := dropOrphan_ne_iff (d := d) hb hc
    rwa [hv] at hiff
  rw [or_iff_right ho]
  by_cases hfull : x + m = l.length
  · rw [hdrop (shiftLeft_gap (by omega) (by omega) (by omega))]
    omega
  have hcursor : (shiftLeft x m blank (unpair x l))[x]? = (unpair x l)[x + m]? :=
    shiftLeft_after (by omega) (Nat.le_refl x) (by omega)
  by_cases he : InPair l x (x + m)
  · rw [unpair_inPair he (he.lt hp)] at hcursor
    rw [hdrop hcursor]
    exact iff_of_false (by simp) fun h => ho (h.1 ▸ he)
  rw [unpair_keeps he] at hcursor
  have hc : l[x + m]? = some l[x + m] := List.getElem?_eq_getElem (by omega)
  rw [hdrop (hcursor.trans hc)]
  constructor
  · rintro ⟨hw, hdx | ⟨hdx, b, hlo, hb2⟩⟩
    · have hoe : o = x + m := by omega
      obtain ⟨z, -, hz, -⟩ := hp.continuation hc hw
      exact ⟨hoe, z, by omega, _, hoe ▸ hc, .inr ⟨hw, by omega⟩⟩
    · -- a first half left of the cursor would be in the cursor's pair
      obtain ⟨f, hf, hf0⟩ := hp.base hlo hb2
      have hox : o + 1 = x := by omega
      rw [hox] at hf
      exact absurd (.inr ⟨f, hf, .inr ⟨hf0, hox.symm⟩⟩) ho
  · rintro ⟨rfl, z, hz, e, hee, he'⟩
    rw [hc, Option.some.injEq] at hee
    subst hee
    exact ⟨by omega, .inl (by omega)⟩

end Shifts

/-! ## The boundary repair -/

/-- The repair blanks the wide character in the last column that stays. -/
theorem fixBoundary_ne_iff {l : List Cell} (hp : Paired l) {n o : Nat} :
    (fixBoundary n l)[o]? ≠ l[o]? ↔ 0 < n ∧ n < l.length ∧ o < n ∧ InPair l (n - 1) o := by
  by_cases hcut : 0 < n ∧ n < l.length
  · rw [fixBoundary_get hcut.1 hcut.2]
    by_cases ho : o < n
    · rw [if_pos ho, unpair_ne_iff hp]
      exact ⟨fun h => ⟨hcut.1, hcut.2, ho, h⟩, fun h => h.2.2.2⟩
    · rw [if_neg ho]
      exact iff_of_false (fun h => h rfl) fun h => ho h.2.2.1
  · rw [fixBoundary, if_pos (by omega)]
    exact iff_of_false (fun h => h rfl) fun h => hcut ⟨h.1, h.2.1⟩

/-! ## Row by row -/

namespace Row

variable {row : Row}

theorem marksFollow_congr {origin origin' : Nat → Option Nat} {row' : Row} (h : ∀ c < row'.cells.length, origin c = origin' c) :
    MarksFollow origin row row' ↔ MarksFollow origin' row row' :=
  forall₂_congr fun c hc => by rw [h c hc]

/-- No marks on the far half of a wide character that `set_cell` cuts. -/
def BareBeside (row : Row) (x width : Nat) : Prop :=
  ∀ w z, WritesTo x width row.cells.length w → ¬ WritesTo x width row.cells.length z → OtherHalf row.cells w z →
    row.marks z = []

theorem written_follows_iff (hp : Paired row.cells) {x : Nat} (cell : Cell) :
    MarksFollow (exceptAt (WritesTo x cell.width row.cells.length)) row (row.written x cell) ↔ row.BareBeside x cell.width := by
  have hlen : (row.written x cell).cells.length = row.cells.length := by
    rw [written_cells]
    exact (writeCell_over (p := fun _ => True) trivial x trivial trivial _).1
  have hblanked : ∀ z < row.cells.length, ¬ WritesTo x cell.width row.cells.length z →
      ((row.written x cell).cells[z]? ≠ row.cells[z]? ↔ ∃ w, WritesTo x cell.width row.cells.length w ∧ OtherHalf row.cells w z) :=
    fun z _ hz => by
      rw [written_cells]
      exact writeCell_ne_iff hp hz
  rw [marksFollow_exceptAt (p := WritesTo x cell.width row.cells.length) hlen (row.written_marks x cell) hblanked]
  constructor
  · intro h w z hw hz hhalf
    exact h z (hhalf.symm hp).lt hz ⟨w, hw, hhalf⟩
  · rintro h z - hz ⟨w, hw, hhalf⟩
    exact h w z hw hz hhalf

/-- No marks outside `[lo, hi)` on the wide characters at its ends. -/
def BareAround (row : Row) (lo hi : Nat) : Prop :=
  lo < hi → ∀ z, ¬ (lo ≤ z ∧ z < hi) → OtherHalf row.cells lo z ∨ InPair row.cells hi z → row.marks z = []

theorem erased_follows_iff (hp : Paired row.cells) {lo hi : Nat} (hlo : lo < hi) (hhi : hi ≤ row.cells.length) (blank : Cell) :
    MarksFollow (exceptAt fun c => lo ≤ c ∧ c < hi) row (row.erased lo hi blank) ↔ row.BareAround lo hi := by
  rw [marksFollow_exceptAt (eraseRange_over (p := fun _ => True) trivial trivial hlo hhi).1 (row.erased_marks lo hi blank)
    fun z _ hz => eraseRange_ne_iff hp hlo hhi hz]
  constructor
  · intro h _ z hz hpair
    have hlt : z < row.cells.length := hpair.elim (fun h => (h.symm hp).lt) fun h => h.lt hp
    exact h z hlt hz hpair
  · intro h z _ hz hpair
    exact h hlo z hz hpair

/-- No marks that stay on the wide characters that ICH blanks. -/
def BareInserting (row : Row) (x m : Nat) : Prop :=
  ∀ o < row.cells.length, o < x ∨ o + m < row.cells.length →
    InPair row.cells x o ∨ x + m < row.cells.length ∧ InPair row.cells (row.cells.length - 1 - m) o → row.marks o = []

theorem inserted_follows_iff {row' : Row} (hp : Paired row.cells) {x m : Nat} (hx : x < row.cells.length)
    (hm : x + m ≤ row.cells.length) {blank : Cell} (hb : blank.width = 1) (hcells : row'.cells = insertCells x m blank row.cells)
    (hmarks : ∀ c < row.cells.length, row'.marks c = if c < x then row.marks c else if c < x + m then [] else row.marks (c - m)) :
    MarksFollow (insertOrigin x m) row row' ↔ row.BareInserting x m := by
  have hlen : row'.cells.length = row.cells.length := by
    rw [hcells]
    exact (insertCells_over (p := fun _ => True) trivial trivial hm).1
  rw [marksFollow_iff fun c hc o ho => ?_]
  · rw [hlen]
    constructor
    · rintro ⟨-, h⟩ o ho hstays hblank
      obtain ⟨c, hc, hmove⟩ : ∃ c < row.cells.length, MovesTo x m o c := by
        rcases Nat.lt_or_ge o x with hlt | hge
        · exact ⟨o, ho, .inl ⟨hlt, rfl⟩⟩
        · exact ⟨o + m, by omega, .inr ⟨hge, rfl⟩⟩
      refine h c hc o (insertOrigin_some.2 hmove) ?_
      rw [hcells]
      exact (insertCells_ne_iff hp hx hm hb hmove hc).2 hblank
    · intro h
      refine ⟨fun c hc hnone => ?_, fun c hc o ho hne => ?_⟩
      · rw [hmarks c hc]
        unfold insertOrigin at hnone
        split at hnone
        · cases hnone
        next hge =>
          split at hnone
          next hin => rw [if_neg hge, if_pos hin]
          · cases hnone
      · have hmove := insertOrigin_some.1 ho
        rw [hcells] at hne
        refine h o ?_ ?_ ((insertCells_ne_iff hp hx hm hb hmove hc).1 hne)
        · rcases hmove with ⟨-, rfl⟩ | ⟨-, rfl⟩ <;> omega
        · rcases hmove with ⟨hlt, -⟩ | ⟨-, rfl⟩
          · exact .inl hlt
          · exact .inr hc
  · rw [hlen] at hc
    rw [hmarks c hc]
    rcases insertOrigin_some.1 ho with ⟨hlt, rfl⟩ | ⟨hge, rfl⟩
    · rw [if_pos hlt]
    · rw [if_neg (by omega), if_neg (by omega), Nat.add_sub_cancel]

/-- No marks that stay on the wide characters that DCH cuts, and none beyond the
margin in the columns that move in. -/
def BareDeleting (row : Row) (x m : Nat) : Prop :=
  (∀ o, row.cells.length ≤ o → o < row.cells.length + m → row.marks o = []) ∧
  ∀ o < row.cells.length, o < x ∨ x + m ≤ o →
    InPair row.cells x o ∨ o = x + m ∧ (∃ z, o = z + 1 ∧ OtherHalf row.cells o z) → row.marks o = []

theorem deleted_follows_iff {row' : Row} (hp : Paired row.cells) {x m : Nat} (hx : x < row.cells.length)
    (hm : x + m ≤ row.cells.length) {blank : Cell} (hb : blank.width = 1) (hcells : row'.cells = deleteCells x m blank row.cells)
    (hmarks : ∀ c, row'.marks c = if c < x then row.marks c else row.marks (c + m)) :
    MarksFollow (deleteOrigin x m row.cells.length) row row' ↔ row.BareDeleting x m := by
  have hlen : row'.cells.length = row.cells.length := by
    rw [hcells]
    exact (deleteCells_over (p := fun _ => True) trivial trivial hm).1
  rw [marksFollow_iff fun c hc o ho => ?_]
  · rw [hlen]
    refine and_congr ⟨fun h o hlo hhi => ?_, fun h c hc hnone => ?_⟩ ⟨fun h o ho hstays hblank => ?_, fun h c hc o ho hne => ?_⟩
    · have hbare := h (o - m) (by omega) (by unfold deleteOrigin; rw [if_neg (by omega), if_neg (by omega)])
      rwa [hmarks, if_neg (by omega), Nat.sub_add_cancel (by omega)] at hbare
    · unfold deleteOrigin at hnone
      split at hnone
      · cases hnone
      next hge =>
        split at hnone
        · cases hnone
        · rw [hmarks, if_neg hge]
          exact h (c + m) (by omega) (by omega)
    · obtain ⟨c, hc, hmove⟩ : ∃ c < row.cells.length, (o < x ∧ o = c ∨ x + m ≤ o ∧ o = c + m) := by
        rcases hstays with hlt | hge
        · exact ⟨o, ho, .inl ⟨hlt, rfl⟩⟩
        · exact ⟨o - m, by omega, .inr ⟨hge, by omega⟩⟩
      refine h c hc o ((deleteOrigin_some hc).2 ⟨ho, hmove⟩) ?_
      rw [hcells]
      exact (deleteCells_ne_iff hp hx hm hb hmove ho).2 hblank
    · obtain ⟨ho', hmove⟩ := (deleteOrigin_some hc).1 ho
      rw [hcells] at hne
      exact h o ho' (hmove.imp (fun h => h.1) fun h => h.1) ((deleteCells_ne_iff hp hx hm hb hmove ho').1 hne)
  · rw [hlen] at hc
    rw [hmarks]
    obtain ⟨-, ⟨hlt, rfl⟩ | ⟨hge, rfl⟩⟩ := (deleteOrigin_some hc).1 ho
    · rw [if_pos hlt]
    · rw [if_neg (by omega)]

/-- No marks on the part that stays of a wide character in the last column that
stays. -/
def BareAtBoundary (row : Row) (n : Nat) : Prop :=
  0 < n → n < row.cells.length → ∀ o < n, InPair row.cells (n - 1) o → row.marks o = []

theorem fixed_follows_iff (hp : Paired row.cells) (n : Nat) :
    MarksFollow some row { row with cells := fixBoundary n row.cells } ↔ row.BareAtBoundary n := by
  rw [marksFollow_iff fun c _ o ho => by cases ho; rfl]
  have hlen := fixBoundary_length n row.cells
  simp only [hlen]
  constructor
  · rintro ⟨-, h⟩ hn hlt o ho hpair
    exact h o (by omega) o rfl ((fixBoundary_ne_iff hp).2 ⟨hn, hlt, ho, hpair⟩)
  · refine fun h => ⟨fun c _ hnone => (by cases hnone), fun c hc o ho hne => ?_⟩
    cases ho
    obtain ⟨hn, hlt, ho, hpair⟩ := (fixBoundary_ne_iff hp).1 hne
    exact h hn hlt c ho hpair

/-- Overwriting one cell leaves its marks. -/
theorem set_follows_iff (x : Nat) (cell : Cell) (hx : x < row.cells.length) :
    MarksFollow (exceptAt (· = x)) row { row with cells := row.cells.set x cell } ↔ row.marks x = [] := by
  rw [marksFollow_iff fun c _ o ho => by
    unfold exceptAt at ho
    split at ho
    · cases ho
    · cases ho
      rfl]
  simp only [List.length_set]
  constructor
  · rintro ⟨h, -⟩
    exact h x hx (if_pos rfl)
  · refine fun h => ⟨fun c _ hnone => ?_, fun c _ o ho hne => absurd ?_ hne⟩
    · unfold exceptAt at hnone
      split at hnone
      next hcx => exact hcx ▸ h
      · cases hnone
    · unfold exceptAt at ho
      split at ho
      · cases ho
      next hcx =>
        cases ho
        exact List.getElem?_set_ne (Ne.symm hcx)

end Row

namespace Grid

variable {g : Grid} {y : Nat} {row : Row}

/-- `erase_cells` clips its range. -/
theorem HasRow.eraseCells_follows (hrow : g.HasRow y row) (hlen : row.cells.length = g.cols) (hp : Paired row.cells)
    (lo hi : Nat) (blank : Cell) :
    ∃ row', g.eraseCells y lo hi blank = some (g.putRow y row') ∧
      (row.MarksFollow (exceptAt fun c => lo ≤ c ∧ c < hi) row' ↔ row.BareAround lo (min hi g.cols)) := by
  rcases Nat.lt_or_ge (min lo g.cols) (min hi g.cols) with hlt | hge
  · have hcut : g.eraseCells y lo hi blank = g.eraseCells y lo (min hi g.cols) blank := by
      unfold Grid.eraseCells
      simp only [Nat.min_assoc, Nat.min_self]
    refine ⟨_, hcut.trans (hrow.eraseCells hlen (by omega) (Nat.min_le_right _ _) blank), ?_⟩
    rw [← Row.erased_follows_iff hp (by omega) (by omega) blank]
    apply Row.marksFollow_congr
    intro c hc
    have hc' : c < g.cols := by
      rw [Row.erased_cells, (eraseRange_over (p := fun _ => True) trivial trivial (by omega) (by omega)).1] at hc
      omega
    unfold exceptAt
    by_cases hin : lo ≤ c ∧ c < hi
    · rw [if_pos hin, if_pos (by omega)]
    · rw [if_neg hin, if_neg (by omega)]
  · refine ⟨row, ?_, iff_of_true (fun c hc => .inr ⟨c, if_neg (by omega), rfl, rfl⟩) fun h => absurd h (by omega)⟩
    have hy := hrow.1
    rw [hrow.putRow_self]
    unfold Grid.eraseCells
    rw [if_neg (by omega)]
    simp only [if_pos hge]

end Grid

namespace Screen

variable {s s' : Screen}

/-! ## Line feeds move rows -/

theorem scrollUp_rows (h : s.Inv) (hs : s.scrollUp = some s') :
    ∀ row ∈ s'.grid.visibleRows, row ∈ s.grid.visibleRows ∨ row.combining = [] := by
  obtain ⟨id, t, hblank, hinv⟩ := blankCell_inv h
  have hshape : (s.grid.setStyleTable t).Shape := hinv.shape
  obtain ⟨g, hg, hvis, -⟩ := hshape.scrollUp_visible s.state.inAltScreen { styleId := id }
  have heq : s.scrollUp = some { s with grid := g, scrolledOff := s.scrolledOff ++ s.displacedRow } := by
    rw [scrollUp, hblank]
    exact congrArg (Option.bind · _) hg
  obtain rfl := Option.some.inj (heq.symm.trans hs)
  intro r hr
  rw [hvis] at hr
  rcases Grid.mem_rotated hr with hr | rfl
  · exact .inl hr
  · exact .inr rfl

theorem advanceLine_rows (h : s.Inv) (hs : s.advanceLine = some s') :
    ∀ row ∈ s'.grid.visibleRows, row ∈ s.grid.visibleRows ∨ row.combining = [] := by
  rw [advanceLine] at hs
  split at hs
  · exact scrollUp_rows h hs
  · simp only [h.bottom, Option.bind_eq_bind, Option.bind_some] at hs
    split at hs
    · obtain ⟨y, -, hs⟩ := Option.bind_eq_some_iff.1 hs
      obtain rfl := Option.some.inj hs
      exact fun _ => .inl
    · obtain rfl := Option.some.inj hs
      exact fun _ => .inl

/-- The line feed of a pending wrap brings a blank row at most. -/
theorem performDeferredWrap_rows (h : s.Inv) (hs : s.performDeferredWrap = some s') :
    ∀ row ∈ s'.grid.visibleRows, row ∈ s.grid.visibleRows ∨ row.combining = [] :=
  advanceLine_rows (s := s.onGrid fun g => (g.setWrapPending false).setCursorX 0)
    ((Effect.cursor 0 s.grid.cursorY false h.shape.cols_pos h.shape.cursor_y).inv h) hs

/-! ## The handlers -/

/-- DCH rewrites the cursor's row and nothing else. -/
theorem csiDeleteCharacter_eq (h : s.Inv) {row : Row} (hrow : s.grid.HasRow s.grid.cursorY row) (n : Nat) :
    ∃ id t row', s.csiDeleteCharacter n = some (s.onGrid fun g => (g.setStyleTable t).putRow g.cursorY row') ∧
      row'.cells = deleteCells s.grid.cursorX (min n (s.grid.cols - s.grid.cursorX)) { styleId := id } row.cells ∧
      ∀ c, row'.marks c = if c < s.grid.cursorX then row.marks c
        else row.marks (c + min n (s.grid.cols - s.grid.cursorX)) := by
  obtain ⟨id, t, hblank, hinv⟩ := blankCell_inv h
  have hrow' : (s.onGrid (·.setStyleTable t)).grid.HasRow s.grid.cursorY row := hrow
  obtain ⟨row', hdel, hcells, -, hmarks⟩ := deleteCharacter_row hinv hrow' { styleId := id } n
  refine ⟨id, t, row', ?_, hcells, hmarks⟩
  rw [csiDeleteCharacter, hblank]
  simp only [Option.bind_eq_bind, Option.bind_some]
  exact (if_pos hinv.shape.cursor_y).trans hdel

/-- The blank in the margin overwrites one cell. -/
theorem blankMargin_eq (h : s.Inv) {row : Row} (hrow : s.grid.HasRow s.grid.cursorY row) :
    ∃ id t, s.blankMargin = some (s.onGrid fun g =>
      (g.setStyleTable t).putRow g.cursorY { row with cells := row.cells.set g.cursorX { styleId := id } }) := by
  obtain ⟨id, t, hblank, hinv⟩ := blankCell_inv h
  have hx : s.grid.cursorX < row.cells.length := by
    rw [h.shape.row_len row hrow.mem]
    exact h.shape.cursor_x
  have hrow' : (s.grid.setStyleTable t).HasRow s.grid.cursorY row := hrow
  refine ⟨id, t, ?_⟩
  rw [blankMargin, if_pos ⟨h.shape.cursor_x, h.shape.cursor_y⟩, hblank]
  simp only [Option.bind_eq_bind, Option.bind_some]
  exact congrArg (Option.bind · _) (hrow'.set { styleId := id } hx)

variable (W : UnicodeWidth)

theorem passed_hasRow (width : Nat) {g : Grid} {y : Nat} {row : Row} (h : g.HasRow y row) : (passed width g).HasRow y row := by
  unfold passed
  split
  · exact h
  · split <;> exact h

/-! ## The theorem -/

/-- For each operation on a row with complete wide pairs, when every column it
overwrites or blanks is left without marks, other than those shifted there with
their character. Printing sets one cell, after a blank in the margin at most;
the line feeds before that only move rows. -/
theorem marks_follow_iff (h : s.Inv) {y : Nat} {row : Row} (hrow : s.grid.HasRow y row) (hp : Paired row.cells) :
    (∀ x < s.grid.cols, ∀ cell, ∃ row', s.grid.setCell x y cell = some (s.grid.putRow y row') ∧
      (row.MarksFollow (exceptAt (WritesTo x cell.width s.grid.cols)) row' ↔ row.BareBeside x cell.width)) ∧
    (∀ lo hi blank, ∃ row', s.grid.eraseCells y lo hi blank = some (s.grid.putRow y row') ∧
      (row.MarksFollow (exceptAt fun c => lo ≤ c ∧ c < hi) row' ↔ row.BareAround lo (min hi s.grid.cols))) ∧
    (∀ n, ∃ row', row.fixWideCharOrphanAtBoundary n = some row' ∧ (row.MarksFollow some row' ↔ row.BareAtBoundary n)) ∧
    (y = s.grid.cursorY →
      (∀ n, ∃ s' row', s.csiInsertCharacter n = some s' ∧ s'.grid.HasRow y row' ∧
        (row.MarksFollow (insertOrigin s.grid.cursorX (min n (s.grid.cols - s.grid.cursorX))) row' ↔
          row.BareInserting s.grid.cursorX (min n (s.grid.cols - s.grid.cursorX)))) ∧
      (∀ n, ∃ s' row', s.csiDeleteCharacter n = some s' ∧ s'.grid.HasRow y row' ∧
        (row.MarksFollow (deleteOrigin s.grid.cursorX (min n (s.grid.cols - s.grid.cursorX)) s.grid.cols) row' ↔
          row.BareDeleting s.grid.cursorX (min n (s.grid.cols - s.grid.cursorX)))) ∧
      (∃ s' row', s.blankMargin = some s' ∧ s'.grid.HasRow y row' ∧
        (row.MarksFollow (exceptAt (· = s.grid.cursorX)) row' ↔ row.marks s.grid.cursorX = [])) ∧
      (∀ c width, s.grid.cursorX + width ≤ 65535 → ∃ s' row', s.putChar c width = some s' ∧ s'.grid.HasRow y row' ∧
        (row.MarksFollow (exceptAt (WritesTo s.grid.cursorX width s.grid.cols)) row' ↔
          row.BareBeside s.grid.cursorX width))) ∧
    (∀ c, W.charWidth (s.mapCharset c) ≠ 0 →
      s.print W c = ((if s.grid.wrapPending = true ∧ s.grid.modes.autowrapMode = true
          then (s.noted c).performDeferredWrap else some (s.noted c)).bind fun t =>
        if W.charWidth (s.mapCharset c) = 2 ∧ t.grid.cols ≤ t.grid.cursorX + 1 then
          if t.grid.modes.autowrapMode = true ∧ 2 ≤ t.grid.cols then
            t.blankMargin.bind fun t => t.performDeferredWrap.bind fun t => t.putChar (s.mapCharset c) (W.charWidth (s.mapCharset c))
          else some t
        else t.putChar (s.mapCharset c) (W.charWidth (s.mapCharset c)))) ∧
    (∀ s', s.performDeferredWrap = some s' → ∀ row ∈ s'.grid.visibleRows, row ∈ s.grid.visibleRows ∨ row.combining = []) := by
  have hx := h.shape.cursor_x
  have hlen := h.shape.row_len row hrow.mem
  refine ⟨fun x hx' cell => ⟨_, hrow.setCell hlen hx' cell, ?_⟩, hrow.eraseCells_follows hlen hp,
    fun n => ⟨_, row.fixWideCharOrphanAtBoundary_eq n, Row.fixed_follows_iff hp n⟩, ?_,
    fun c h0 => print_stages W h h0, fun s' hs => performDeferredWrap_rows h hs⟩
  · rw [← hlen]
    exact Row.written_follows_iff hp cell
  rintro rfl
  refine ⟨fun n => ?_, fun n => ?_, ?_, fun c width hfits => ?_⟩
  · obtain ⟨id, t, row', hins, hcells, hmarks⟩ := csiInsertCharacter_eq h hrow n
    refine ⟨_, row', hins, hrow.putRow, Row.inserted_follows_iff hp (by omega) (by omega) rfl hcells fun c hc => hmarks c ?_⟩
    omega
  · obtain ⟨id, t, row', hdel, hcells, hmarks⟩ := csiDeleteCharacter_eq h hrow n
    refine ⟨_, row', hdel, hrow.putRow, ?_⟩
    rw [← hlen] at hcells hmarks ⊢
    exact Row.deleted_follows_iff hp (by omega) (by omega) rfl hcells hmarks
  · obtain ⟨id, t, hblank⟩ := blankMargin_eq h hrow
    exact ⟨_, _, hblank, hrow.putRow, Row.set_follows_iff _ _ (by omega)⟩
  · obtain ⟨id, t, hint, -⟩ : ∃ id t, s.internWithGc s.state.currentStyle = some (id, s.onGrid (·.setStyleTable t)) ∧
        Steps Effect (fun _ => True) s (s.onGrid (·.setStyleTable t)) ∧ t.Held id := internWithGc_spec trivial h _
    refine ⟨_, _, putChar_eq h hint hrow hfits, passed_hasRow width hrow.putRow, ?_⟩
    rw [← hlen]
    exact Row.written_follows_iff hp _

/-- An accented wide character that ICH moves, and one that is written over. -/
theorem marks_follow_sample : ∃ s row s' row' row'', (Screen.new 5 1 10).run .sample [.callback (.print 'a'), .callback (.print '世'),
      .callback (.print '\u0301'), .callback (.csi [[1]] [] 'G')] = some s ∧ s.grid.HasRow 0 row ∧
    row.cells.map (fun c => (c.c, c.width)) = [('a', 1), ('世', 2), ('\x00', 0), (' ', 1), (' ', 1)] ∧
    row.combining = [(1, ['\u0301'])] ∧
    s.csiInsertCharacter 1 = some s' ∧ s'.grid.HasRow 0 row' ∧ row.MarksFollow (insertOrigin 0 1) row' ∧
    row'.combining = [(2, ['\u0301'])] ∧
    s.grid.setCell 1 0 { c := '界', styleId := 0, width := 2 } = some (s.grid.putRow 0 row'') ∧
    row.MarksFollow (exceptAt (WritesTo 1 2 5)) row'' := by
  let wide : Cell := { c := '世', styleId := 0, width := 2 }
  let row : Row := { cells := [{ c := 'a' }, wide, wide.continuation, {}, {}], combining := [(1, ['\u0301'])] }
  let row' : Row := { cells := [{}, { c := 'a' }, wide, wide.continuation, {}], combining := [(2, ['\u0301'])] }
  obtain ⟨s, s', hrun, hrow, hy, hx, hcols, hins, hrow'⟩ : ∃ s s', (Screen.new 5 1 10).run .sample [.callback (.print 'a'),
      .callback (.print '世'), .callback (.print '\u0301'), .callback (.csi [[1]] [] 'G')] = some s ∧ s.grid.HasRow 0 row ∧
      0 = s.grid.cursorY ∧ s.grid.cursorX = 0 ∧ s.grid.cols = 5 ∧ s.csiInsertCharacter 1 = some s' ∧ s'.grid.HasRow 0 row' :=
    ⟨_, _, rfl, ⟨by decide, rfl⟩, rfl, rfl, rfl, rfl, ⟨by decide, rfl⟩⟩
  have h : s.Inv := (new_inv 10 (by decide) (by decide)).run (by simp [Action.Sized]) hrun
  have hp : Paired row.cells := .single ⟨by decide, by decide⟩ (.pair rfl rfl (.single ⟨by decide, by decide⟩
    (.single ⟨by decide, by decide⟩ .nil)))
  obtain ⟨hset, -, -, hcursor, -⟩ := marks_follow_iff .sample h hrow hp
  obtain ⟨s₁, row₁, hins₁, hrow₁, hinserted⟩ := (hcursor hy).1 1
  obtain rfl := Option.some.inj (hins₁.symm.trans hins)
  obtain rfl := hrow₁.unique hrow'
  obtain ⟨row'', hset, hwritten⟩ := hset 1 (by rw [hcols]; decide) { c := '界', styleId := 0, width := 2 }
  rw [hx, hcols] at hinserted
  rw [hcols] at hwritten
  refine ⟨s, row, s₁, row', row'', hrun, hrow, rfl, rfl, hins₁, hrow₁, hinserted.2 ?_, rfl, hset, hwritten.2 ?_⟩
  · -- no wide character is at the cursor or ends in the last column
    have hsingle : ∀ x o, x = 0 ∨ x = 3 → ¬ InPair row.cells x o := by
      rintro x o (rfl | rfl) (⟨-, z, c, hc, ⟨hw, -⟩ | ⟨hw, -⟩⟩ | ⟨c, hc, ⟨hw, -⟩ | ⟨hw, -⟩⟩) <;> cases hc <;> cases hw
    rintro o - - (hpair | ⟨-, hpair⟩)
    · exact absurd hpair (hsingle _ _ (.inl rfl))
    · exact absurd hpair (hsingle _ _ (.inr rfl))
  · rintro w z hw hz ⟨c, hc, hhalf⟩
    have hcases : w = 1 ∨ w = 2 := hw.imp id fun hw => hw.2.2
    rcases hcases with rfl | rfl <;> cases hc <;> rcases hhalf with ⟨hw2, hz'⟩ | ⟨hw0, hz'⟩
    · exact absurd (.inr ⟨rfl, by decide, hz'⟩) hz
    · cases hw0
    · cases hw2
    · exact absurd (.inl (Nat.succ.inj hz').symm) hz

/-- A letter over the second half of an accented wide character blanks the first
half and leaves the accent on the blank. -/
theorem marks_left_behind : ∃ s s', (Screen.new 4 1 10).run .sample [.callback (.print '世'), .callback (.print '\u0301'),
    .callback (.csi [[2]] [] 'G')] = some s ∧ s.step .sample (.print 'a') = some s' ∧
    s.grid.visibleRows.map (fun row => (row.cells.map fun c => (c.c, c.width), row.combining)) =
      [([('世', 2), ('\x00', 0), (' ', 1), (' ', 1)], [(0, ['\u0301'])])] ∧
    s'.grid.visibleRows.map (fun row => (row.cells.map fun c => (c.c, c.width), row.combining)) =
      [([(' ', 1), ('a', 1), (' ', 1), (' ', 1)], [(0, ['\u0301'])])] :=
  ⟨_, _, rfl, rfl, by decide, by decide⟩

end Screen

end Retach
