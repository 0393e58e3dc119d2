import Retach.Erasing
/-!
# Inserting blanks into a row

ICH repairs the wide character at the cursor before it shifts the row, and the
one at the right margin afterwards. Both repairs look at single columns: they
blank a wide character that starts at the cursor and one that ends in the last
column, although neither is split.
-/

open Checked Lists

namespace Retach

/-- Column `o` belongs to the wide character at column `x`. -/
def InPair (l : List Cell) (x o : Nat) : Prop := (o = x ∧ ∃ z, OtherHalf l x z) ∨ OtherHalf l x o

/-- Column `o` belongs to a wide character whose second half is at `x`. -/
def SplitAt (l : List Cell) (x o : Nat) : Prop := ∃ c, l[x]? = some c ∧ c.width = 0 ∧ (o = x ∨ o + 1 = x)

/-- With `m` columns inserted at `x`, column `o` becomes column `d`. -/
def MovesTo (x m o d : Nat) : Prop := o < x ∧ d = o ∨ x ≤ o ∧ d = o + m

/-- The wide character of column `o`, which becomes column `d`, is split: by the
insertion at `x`, or by the right margin with its first half in the last
column. -/
def CutInserting (l : List Cell) (x o d : Nat) : Prop :=
  SplitAt l x o ∨ (∃ c, l[o]? = some c ∧ c.width = 2) ∧ d + 1 = l.length

def Cell.Blank (c : Cell) : Prop := c.c = ' ' ∧ c.width = 1

/-- `l'` shows the characters of `l` with `m` blanks inserted at column `x`: only
a wide character split by the insertion or by the right margin is replaced by
blanks. -/
structure InsertedAt (x m : Nat) (l l' : List Cell) : Prop where
  length : l'.length = l.length
  gap : ∀ d, x ≤ d → d < x + m → d < l.length → ∃ c', l'[d]? = some c' ∧ c'.Blank
  cut : ∀ o d c, l[o]? = some c → MovesTo x m o d → d < l.length → CutInserting l x o d → ∃ c', l'[d]? = some c' ∧ c'.Blank
  kept : ∀ o d c, l[o]? = some c → MovesTo x m o d → d < l.length → ¬ CutInserting l x o d →
    ∃ c', l'[d]? = some c' ∧ c'.c = c.c ∧ c'.width = c.width

/-! ## The operations, column by column -/

section Columns

variable {l : List Cell} {x m o d : Nat} {blank : Cell}

theorem unpair_inPair (h : InPair l x o) (ho : o < l.length) : (unpair x l)[o]? = some {} := by
  rcases h with ⟨rfl, z, hz⟩ | h
  · exact unpair_half hz
  · exact unpair_otherHalf h ho

theorem unpair_keeps (h : ¬ InPair l x o) : (unpair x l)[o]? = l[o]? := by
  by_cases ho : o = x
  · subst ho
    rw [unpair_single fun z hz => h (.inl ⟨rfl, z, hz⟩)]
  · exact unpair_other ho fun hhalf => h (.inr hhalf)

theorem shiftRight_before (hm : x + m ≤ l.length) (hd : d < x) : (shiftRight x m blank l)[d]? = l[d]? := by
  have hlen : (l.take x).length = x := List.length_take_of_le (by omega)
  rw [shiftRight, List.append_assoc, List.getElem?_append_left (by omega), List.getElem?_take_of_lt hd]

theorem shiftRight_gap (hm : x + m ≤ l.length) (h₁ : x ≤ d) (h₂ : d < x + m) : (shiftRight x m blank l)[d]? = some blank := by
  have hlen : (l.take x).length = x := List.length_take_of_le (by omega)
  rw [shiftRight, List.append_assoc, List.getElem?_append_right (by omega), hlen,
    List.getElem?_append_left (by rw [List.length_replicate]; omega), List.getElem?_replicate, if_pos (by omega)]

theorem shiftRight_after (hx : x ≤ o) (ho : o + m < l.length) : (shiftRight x m blank l)[o + m]? = l[o]? := by
  have hlen : (l.take x ++ List.replicate m blank).length = x + m := by
    rw [List.length_append, List.length_replicate, List.length_take_of_le (by omega)]
  rw [shiftRight, List.getElem?_append_right (by omega), hlen, List.getElem?_take_of_lt (by omega), List.getElem?_drop]
  congr 1
  omega

theorem shiftRight_length (hm : x + m ≤ l.length) : (shiftRight x m blank l).length = l.length :=
  (shiftRight_over (p := fun _ => True) trivial hm).1

theorem set_or (blank : Cell) (l : List Cell) (i d : Nat) :
    (l.set i blank)[d]? = l[d]? ∨ (l.set i blank)[d]? = some blank ∧ d < l.length := by
  by_cases hi : i = d
  · subst hi
    rcases Nat.lt_or_ge i l.length with hlt | hge
    · exact .inr ⟨List.getElem?_set_self hlt, hlt⟩
    · rw [List.set_eq_of_length_le hge]
      exact .inl rfl
  · exact .inl (List.getElem?_set_ne hi)

theorem dropOrphan_or (x : Nat) (blank : Cell) (l : List Cell) (d : Nat) :
    (dropOrphan x blank l)[d]? = l[d]? ∨ (dropOrphan x blank l)[d]? = some blank ∧ d < l.length := by
  unfold dropOrphan
  split
  · split
    · split
      · split
        · rcases set_or blank (l.set x blank) (x - 1) d with h | h
          · rw [h]
            exact set_or _ _ _ _
          · rw [List.length_set] at h
            exact .inr h
        · exact set_or _ _ _ _
      · exact set_or _ _ _ _
    · exact .inl rfl
  · exact .inl rfl

/-- Only a second half at `x` is an orphan. -/
theorem dropOrphan_keeps {c : Cell} (hc : l[x]? = some c) (hw : c.width ≠ 0) : dropOrphan x blank l = l := by
  rw [dropOrphan, hc]
  dsimp only
  rw [if_neg hw]

theorem dropOrphan_at {c : Cell} (hc : l[x]? = some c) (hw : c.width = 0) : (dropOrphan x blank l)[x]? = some blank := by
  have hlt : x < l.length := (List.getElem?_eq_some_iff.1 hc).1
  rw [dropOrphan, hc]
  dsimp only
  rw [if_pos hw]
  split
  · split
    · rw [List.getElem?_set_ne (by omega), List.getElem?_set_self hlt]
    · exact List.getElem?_set_self hlt
  · exact List.getElem?_set_self hlt

/-- Besides column `x` only a first half left of it can change. -/
theorem dropOrphan_other (hd : d ≠ x) (h : d + 1 = x → ∀ c, l[d]? = some c → c.width ≠ 2) :
    (dropOrphan x blank l)[d]? = l[d]? := by
  have hset : (l.set x blank)[d]? = l[d]? := List.getElem?_set_ne (Ne.symm hd)
  unfold dropOrphan
  split
  · split
    · split
      next b hb =>
        split
        next hbase =>
          have hdx : x - 1 ≠ d := fun hdx => by
            subst hdx
            exact h (by omega) b (hset.symm.trans hb) hbase.2
          rw [List.getElem?_set_ne hdx, hset]
        next => exact hset
      next => exact hset
    · rfl
  · rfl

/-- A first half left of an orphan is blanked with it. -/
theorem dropOrphan_base {c b : Cell} (hc : l[d + 1]? = some c) (hw : c.width = 0) (hb : l[d]? = some b) (hw2 : b.width = 2) :
    (dropOrphan (d + 1) blank l)[d]? = some blank := by
  have hlt := (List.getElem?_eq_some_iff.1 hb).1
  have hset : (l.set (d + 1) blank)[d]? = some b := (List.getElem?_set_ne (by omega)).trans hb
  rw [dropOrphan, hc]
  dsimp only
  rw [if_pos hw, Nat.add_sub_cancel, hset]
  dsimp only
  rw [if_pos ⟨Nat.succ_pos d, hw2⟩, List.getElem?_set_self (by rwa [List.length_set])]

/-- The last column is blanked with a first half in it, and like any other
column with a second half. -/
theorem cutLast_eq {c : Cell} (hc : l[l.length - 1]? = some c) :
    cutLast blank l = if c.width = 2 then l.set (l.length - 1) blank else dropOrphan (l.length - 1) blank l := by
  rw [cutLast, hc]

theorem cutLast_or (blank : Cell) (l : List Cell) (d : Nat) : (cutLast blank l)[d]? = l[d]? ∨ (cutLast blank l)[d]? = some blank ∧ d < l.length := by
  unfold cutLast
  split
  · split
    · exact set_or _ _ _ _
    · exact dropOrphan_or _ _ _ _
  · exact .inl rfl

theorem ne_of_width {b : Cell} (hblank : blank.width = 1) (hb : l[d]? = some b) (hw : b.width ≠ 1) : some blank ≠ l[d]? := by
  rw [hb]
  intro h
  cases h
  exact hw hblank

/-- An orphan is blanked, with a first half left of it. -/
theorem dropOrphan_ne_iff (hblank : blank.width = 1) {c : Cell} (hc : l[x]? = some c) : (dropOrphan x blank l)[d]? ≠ l[d]? ↔
    c.width = 0 ∧ (d = x ∨ d + 1 = x ∧ ∃ b, l[d]? = some b ∧ b.width = 2) := by
  by_cases hw : c.width = 0
  · by_cases hdx : d = x
    · subst hdx
      refine iff_of_true ?_ ⟨hw, .inl rfl⟩
      rw [dropOrphan_at hc hw]
      exact ne_of_width hblank hc (by omega)
    · by_cases hbase : d + 1 = x ∧ ∃ b, l[d]? = some b ∧ b.width = 2
      · refine iff_of_true ?_ ⟨hw, .inr hbase⟩
        obtain ⟨rfl, b, hb, hb2⟩ := hbase
        rw [dropOrphan_base hc hw hb hb2]
        exact ne_of_width hblank hb (by omega)
      · refine iff_of_false ?_ fun h => h.2.elim hdx hbase
        rw [dropOrphan_other hdx fun hd b hb hb2 => hbase ⟨hd, b, hb, hb2⟩]
        exact fun h => h rfl
  · refine iff_of_false ?_ fun h => hw h.1
    rw [dropOrphan_keeps hc hw]
    exact fun h => h rfl

/-- A half in the last column is blanked, with a first half left of it. -/
theorem cutLast_ne_iff (hblank : blank.width = 1) {c : Cell} (hc : l[l.length - 1]? = some c) :
    (cutLast blank l)[d]? ≠ l[d]? ↔ c.width = 2 ∧ d = l.length - 1 ∨
      c.width = 0 ∧ (d = l.length - 1 ∨ d + 1 = l.length - 1 ∧ ∃ b, l[d]? = some b ∧ b.width = 2) := by
  rw [cutLast_eq hc]
  by_cases hbase : c.width = 2
  · rw [if_pos hbase]
    by_cases hd : d = l.length - 1
    · subst hd
      refine iff_of_true ?_ (.inl ⟨hbase, rfl⟩)
      rw [List.getElem?_set_self (List.getElem?_eq_some_iff.1 hc).1]
      exact ne_of_width hblank hc (by omega)
    · refine iff_of_false ?_ (by omega)
      rw [List.getElem?_set_ne (Ne.symm hd)]
      exact fun h => h rfl
  · rw [if_neg hbase, dropOrphan_ne_iff hblank hc]
    exact (or_iff_right fun h => hbase h.1).symm

end Columns

/-! ## Inserting into a paired row -/

/-- A wide character that fits after the insertion is blanked: it starts at the
cursor, or ends in the last column. -/
def FitsButLost (l : List Cell) (x m : Nat) : Prop :=
  ∃ z, WideAt l z ∧ (z = x ∧ x + m + 2 ≤ l.length ∨ x < z ∧ z + m + 2 = l.length)

section Insert

variable {l : List Cell} {x m : Nat} {blank : Cell}

/-- No second half is in the last column after the shift. -/
theorem shiftRight_last (hp : Paired l) (hx : x < l.length) (hm : x + m ≤ l.length) (hb : blank.Blank)
    (hlost : ¬ FitsButLost l x m) :
    ∃ c, (shiftRight x m blank (unpair x l))[l.length - 1]? = some c ∧ c.width ≠ 0 := by
  have hulen := unpair_length x l
  by_cases hfull : x + m = l.length
  · exact ⟨blank, shiftRight_gap (by omega) (by omega) (by omega), by rw [hb.2]; decide⟩
  obtain ⟨o, ho⟩ : ∃ o, o + m = l.length - 1 := ⟨l.length - 1 - m, by omega⟩
  have hv : (shiftRight x m blank (unpair x l))[o + m]? = (unpair x l)[o]? := shiftRight_after (by omega) (by omega)
  rw [← ho, hv]
  by_cases hpair : InPair l x o
  · exact ⟨{}, unpair_inPair hpair (by omega), by decide⟩
  refine ⟨l[o], by rw [unpair_keeps hpair]; exact List.getElem?_eq_getElem _, fun hw => hlost ?_⟩
  obtain ⟨z, c, rfl, hz, hz2⟩ := hp.continuation (List.getElem?_eq_getElem (show o < l.length by omega)) hw
  refine ⟨z, ⟨c, hz, hz2⟩, .inr ⟨Nat.lt_of_le_of_ne ?_ ?_, by omega⟩⟩
  · refine Nat.le_of_not_lt fun hlt => hpair (.inl ⟨by omega, z, _, ?_, .inr ⟨hw, by omega⟩⟩)
    have hcol : x = z + 1 := by omega
    simp only [hcol, List.getElem?_eq_getElem (show z + 1 < l.length by omega)]
  · rintro rfl
    exact hpair (.inr ⟨c, hz, .inl ⟨hz2, rfl⟩⟩)

/-- Then the repair at the margin blanks at most a first half there. -/
theorem insertCells_get (hp : Paired l) (hx : x < l.length) (hm : x + m ≤ l.length) (hb : blank.Blank)
    (hlost : ¬ FitsButLost l x m) {d : Nat} {c : Cell} (hc : (shiftRight x m blank (unpair x l))[d]? = some c) :
    (insertCells x m blank l)[d]? = some (if d + 1 = l.length ∧ c.width = 2 then blank else c) := by
  have hvlen : (shiftRight x m blank (unpair x l)).length = l.length := by
    rw [shiftRight_length (by rw [unpair_length]; exact hm), unpair_length]
  have hd := (List.getElem?_eq_some_iff.1 hc).1
  obtain ⟨e, he, he0⟩ := shiftRight_last hp hx hm hb hlost
  rw [← hvlen] at he
  rw [insertCells, cutLast_eq he, dropOrphan_keeps he he0]
  by_cases hlast : d + 1 = l.length
  · have hdl : (shiftRight x m blank (unpair x l)).length - 1 = d := by omega
    rw [hdl, hc, Option.some.injEq] at he
    subst he
    rw [hdl]
    by_cases hw : c.width = 2
    · rw [if_pos hw, if_pos ⟨hlast, hw⟩, List.getElem?_set_self hd]
    · rw [if_neg hw, if_neg fun h => hw h.2, hc]
  · rw [if_neg (show ¬ (d + 1 = l.length ∧ c.width = 2) from fun h => hlast h.1)]
    split
    · rw [List.getElem?_set_ne (by omega), hc]
    · exact hc

/-- What stands in a column that is not gone. -/
theorem shiftRight_moved (blank : Cell) (hm : x + m ≤ l.length) {o d : Nat} (ho : MovesTo x m o d) (hd : d < l.length) :
    (shiftRight x m blank (unpair x l))[d]? = (unpair x l)[o]? := by
  have hulen := unpair_length x l
  obtain ⟨hlt, rfl⟩ | ⟨hge, rfl⟩ := ho
  · exact shiftRight_before (by omega) hlt
  · exact shiftRight_after hge (by omega)

/-- No wide character that fits is lost. -/
theorem insertCells_keeps (hp : Paired l) (hx : x < l.length) (hm : x + m ≤ l.length) (hb : blank.Blank)
    (hlost : ¬ FitsButLost l x m) : InsertedAt x m l (insertCells x m blank l) := by
  have hulen := unpair_length x l
  have hget := fun {d : Nat} {c : Cell} => insertCells_get (d := d) (c := c) hp hx hm hb hlost
  -- a column of the pair at the cursor that stays belongs to a pair that is split
  have hpair : ∀ o d, InPair l x o → MovesTo x m o d → d < l.length → CutInserting l x o d := by
    intro o d ho hmove hd
    have hbase : ∀ c, l[x]? = some c → c.width = 2 → ¬ x + m + 2 ≤ l.length := fun c hc hw hfit =>
      hlost ⟨x, ⟨c, hc, hw⟩, .inl ⟨rfl, hfit⟩⟩
    obtain ⟨rfl, z, c, hc, ⟨hw, -⟩ | ⟨hw, -⟩⟩ | ⟨c, hc, ⟨hw, rfl⟩ | ⟨hw, hxo⟩⟩ := ho
    · have := hbase c hc hw
      obtain ⟨hlt, -⟩ | ⟨-, rfl⟩ := hmove
      · omega
      · exact .inr ⟨⟨c, hc, hw⟩, by omega⟩
    · exact .inl ⟨c, hc, hw, .inl rfl⟩
    · have := hbase c hc hw
      obtain ⟨hlt, -⟩ | ⟨-, rfl⟩ := hmove <;> omega
    · exact .inl ⟨c, hc, hw, .inr hxo.symm⟩
  refine ⟨?_, fun d h₁ h₂ _ => ?_, fun o d c hc hmove hd hcut => ?_, fun o d c hc hmove hd hcut => ?_⟩
  · exact (insertCells_over (p := fun _ => True) trivial trivial hm).1
  · rw [hget (shiftRight_gap (by omega) h₁ h₂), if_neg fun h => by rw [hb.2] at h; exact absurd h.2 (by decide)]
    exact ⟨blank, rfl, hb⟩
  · have hv := shiftRight_moved blank hm hmove hd
    by_cases ho : InPair l x o
    · rw [unpair_inPair ho (List.getElem?_eq_some_iff.1 hc).1] at hv
      exact ⟨{}, (hget hv).trans (by rw [if_neg (by simp)]), rfl, rfl⟩
    · rw [unpair_keeps ho, hc] at hv
      refine ⟨blank, ?_, hb⟩
      obtain ⟨e, he, he0, hside⟩ | ⟨⟨e, he, he2⟩, hlast⟩ := hcut
      · -- the other half of a second half at the cursor is in its pair
        refine absurd ?_ ho
        obtain rfl | hside := hside
        · obtain ⟨z, b, hz, -⟩ := hp.continuation he he0
          exact .inl ⟨rfl, z, e, he, .inr ⟨he0, hz⟩⟩
        · exact .inr ⟨e, he, .inr ⟨he0, hside.symm⟩⟩
      · rw [hc, Option.some.injEq] at he
        subst he
        rw [hget hv, if_pos ⟨hlast, he2⟩]
  · have ho : ¬ InPair l x o := fun ho => hcut (hpair o d ho hmove hd)
    have hv := shiftRight_moved blank hm hmove hd
    rw [unpair_keeps ho, hc] at hv
    refine ⟨c, ?_, rfl, rfl⟩
    rw [hget hv, if_neg fun h => hcut (.inr ⟨⟨c, hc, h.2⟩, h.1⟩)]

/-- A wide character that fits is blanked. -/
theorem insertCells_loses (hx : x < l.length) (hm : x + m ≤ l.length) (hb : blank.Blank) (hp : Paired l)
    (hlost : FitsButLost l x m) : ¬ InsertedAt x m l (insertCells x m blank l) := by
  intro h
  have hulen := unpair_length x l
  have hvlen : (shiftRight x m blank (unpair x l)).length = l.length := by rw [shiftRight_length (by omega), hulen]
  obtain ⟨z, ⟨c, hc, hw⟩, ⟨rfl, hfit⟩ | ⟨hxz, hfit⟩⟩ := hlost
  · -- the fixup at the cursor blanks it before the shift
    have hsplit : ¬ CutInserting l z z (z + m) := by
      rintro (⟨d, hd, hd0, -⟩ | ⟨-, hlast⟩)
      · rw [hc, Option.some.injEq] at hd
        subst hd
        omega
      · omega
    obtain ⟨c', hc', -, hw'⟩ := h.kept z (z + m) c hc (.inr ⟨Nat.le_refl z, rfl⟩) (by omega) hsplit
    have hv : (shiftRight z m blank (unpair z l))[z + m]? = some {} := by
      rw [shiftRight_after (Nat.le_refl z) (by omega), unpair_inPair (.inl ⟨rfl, z + 1, c, hc, .inl ⟨hw, rfl⟩⟩) hx]
    rw [hw] at hw'
    rcases cutLast_or blank (shiftRight z m blank (unpair z l)) (z + m) with hr | ⟨hr, -⟩
    · rw [insertCells, hr, hv, Option.some.injEq] at hc'
      subst hc'
      exact absurd hw' (by decide)
    · rw [insertCells, hr, Option.some.injEq] at hc'
      subst hc'
      rw [hb.2] at hw'
      exact absurd hw' (by decide)
  · -- the repair at the margin takes its second half for an orphan
    obtain ⟨e, he, he0⟩ := hp.base hc hw
    have hsplit : ¬ CutInserting l x (z + 1) (z + 1 + m) := by
      rintro (⟨d, hd, hd0, ho⟩ | ⟨⟨d, hd, hd2⟩, -⟩)
      · omega
      · rw [he, Option.some.injEq] at hd
        subst hd
        omega
    obtain ⟨c', hc', -, hw'⟩ := h.kept (z + 1) (z + 1 + m) e he (.inr ⟨by omega, rfl⟩) (by omega) hsplit
    have hpair : ¬ InPair l x (z + 1) := by
      rintro (⟨ho, -⟩ | ⟨d, hd, ⟨-, ho⟩ | ⟨-, ho⟩⟩) <;> omega
    have hv : (shiftRight x m blank (unpair x l))[z + 1 + m]? = some e := by
      rw [shiftRight_after (by omega) (by omega), unpair_keeps hpair, he]
    have hlast : z + 1 + m = (shiftRight x m blank (unpair x l)).length - 1 := by omega
    rw [hlast] at hv
    rw [insertCells, hlast, cutLast_eq hv, if_neg (by omega), dropOrphan_at hv he0, Option.some.injEq] at hc'
    subst hc'
    rw [he0, hb.2] at hw'
    exact absurd hw' (by decide)

end Insert

namespace Screen

variable {s : Screen}

/-! ## The theorem -/

/-- ICH rewrites the cursor's row and nothing else. -/
theorem csiInsertCharacter_eq (h : s.Inv) {row : Row} (hrow : s.grid.HasRow s.grid.cursorY row) (n : Nat) :
    ∃ id t row', s.csiInsertCharacter n = some (s.onGrid fun g => (g.setStyleTable t).putRow g.cursorY row') ∧
      row'.cells = insertCells s.grid.cursorX (min n (s.grid.cols - s.grid.cursorX)) { styleId := id } row.cells ∧
      ∀ c < s.grid.cols, row'.marks c = if c < s.grid.cursorX then row.marks c
        else if c < s.grid.cursorX + min n (s.grid.cols - s.grid.cursorX) then []
        else row.marks (c - min n (s.grid.cols - s.grid.cursorX)) := by
  obtain ⟨id, t, hblank, hinv⟩ := blankCell_inv h
  have hrow' : (s.onGrid (·.setStyleTable t)).grid.HasRow s.grid.cursorY row := hrow
  obtain ⟨row', hins, hcells, -, hmarks⟩ := insertCharacter_row hinv hrow' { styleId := id } n
  refine ⟨id, t, row', ?_, hcells, hmarks⟩
  rw [csiInsertCharacter, hblank]
  simp only [Option.bind_eq_bind, Option.bind_some]
  exact (if_pos hinv.shape.cursor_y).trans hins

/-- On every row with complete wide pairs ICH shows the row with `n` blanks
inserted, or as many as there is room for, exactly when no wide character that
fits after the shift starts at the cursor or ends in the last column. -/
theorem inserting_keeps_iff (h : s.Inv) {row : Row} (hrow : s.grid.HasRow s.grid.cursorY row) (hp : Paired row.cells)
    (n : Nat) :
    ∃ s' row', s.csiInsertCharacter n = some s' ∧ s'.grid.HasRow s.grid.cursorY row' ∧
      (InsertedAt s.grid.cursorX (min n (s.grid.cols - s.grid.cursorX)) row.cells row'.cells ↔
        ¬ FitsButLost row.cells s.grid.cursorX (min n (s.grid.cols - s.grid.cursorX))) := by
  have hx := h.shape.cursor_x
  have hlen := h.shape.row_len row hrow.mem
  obtain ⟨id, t, row', hins, hcells, -⟩ := csiInsertCharacter_eq h hrow n
  refine ⟨_, row', hins, hrow.putRow, ?_⟩
  have hblank : ({ styleId := id } : Cell).Blank := ⟨rfl, rfl⟩
  rw [hcells]
  by_cases hlost : FitsButLost row.cells s.grid.cursorX (min n (s.grid.cols - s.grid.cursorX))
  · exact iff_of_false (insertCells_loses (by omega) (by omega) hblank hp hlost) (not_not_intro hlost)
  · exact iff_of_true (insertCells_keeps hp (by omega) (by omega) hblank hlost) hlost

theorem inserting_keeps_sample : ∃ s s' row row', (Screen.new 5 1 10).run .sample [.callback (.print 'a'),
    .callback (.print '世'), .callback (.execute 0x0d)] = some s ∧ s.csiInsertCharacter 1 = some s' ∧
    s.grid.HasRow 0 row ∧ s'.grid.HasRow 0 row' ∧ InsertedAt 0 1 row.cells row'.cells := by
  obtain ⟨s, row, hrun, hrow, hx, hy, hcols, hp, hwidths⟩ : ∃ s row, (Screen.new 5 1 10).run .sample [.callback (.print 'a'),
      .callback (.print '世'), .callback (.execute 0x0d)] = some s ∧ s.grid.HasRow 0 row ∧ s.grid.cursorX = 0 ∧
      s.grid.cursorY = 0 ∧ s.grid.cols = 5 ∧ Paired row.cells ∧ row.cells.map Cell.width = [1, 2, 0, 1, 1] :=
    ⟨_, _, rfl, ⟨by decide, rfl⟩, rfl, rfl, rfl, .single ⟨by decide, by decide⟩ (.pair rfl rfl (.single ⟨by decide, by decide⟩
      (.single ⟨by decide, by decide⟩ .nil))),
      rfl⟩
  have hs : s.Reachable .sample := ⟨5, 1, 10, _, by decide, by decide, by simp [Action.Sized], hrun⟩
  obtain ⟨s', row', hins, hrow', hiff⟩ := inserting_keeps_iff hs.inv (hy ▸ hrow) hp 1
  rw [hy] at hrow'
  rw [hx, hcols] at hiff
  refine ⟨s, s', row, row', hrun, hins, hrow, hrow', hiff.2 ?_⟩
  rintro ⟨z, ⟨c, hc, hw⟩, hz⟩
  have hlen : row.cells.length = 5 := by simpa using congrArg List.length hwidths
  have hwide : (row.cells.map Cell.width)[z]? = some 2 := by rw [List.getElem?_map, hc, Option.map_some, hw]
  rw [hwidths] at hwide
  obtain rfl | rfl : z = 0 ∨ z = 2 := by omega
  · exact absurd hwide (by decide)
  · exact absurd hwide (by decide)

/-- ICH 1 before a letter and a wide character pushes the wide one into the last
two of four columns, where it is blanked; with the cursor on a wide character it
is blanked as well. -/
theorem inserting_loses :
    (∃ s s', (Screen.new 4 1 10).run .sample [.callback (.print 'a'), .callback (.print '世'), .callback (.execute 0x0d)] =
        some s ∧ s.csiInsertCharacter 1 = some s' ∧
      s.grid.visibleRows.map (fun row => row.cells.map fun c => (c.c, c.width)) = [[('a', 1), ('世', 2), ('\x00', 0), (' ', 1)]] ∧
      s'.grid.visibleRows.map (fun row => row.cells.map fun c => (c.c, c.width)) = [[(' ', 1), ('a', 1), (' ', 1), (' ', 1)]]) ∧
    (∃ s s', (Screen.new 4 1 10).run .sample [.callback (.print '世'), .callback (.execute 0x0d)] = some s ∧
      s.csiInsertCharacter 1 = some s' ∧
      s.grid.visibleRows.map (fun row => row.cells.map fun c => (c.c, c.width)) = [[('世', 2), ('\x00', 0), (' ', 1), (' ', 1)]] ∧
      s'.grid.visibleRows.map (fun row => row.cells.map fun c => (c.c, c.width)) = [[(' ', 1), (' ', 1), (' ', 1), (' ', 1)]]) :=
  ⟨⟨_, _, rfl, rfl, by decide, by decide⟩, ⟨_, _, rfl, rfl, by decide, by decide⟩⟩

end Screen

end Retach
