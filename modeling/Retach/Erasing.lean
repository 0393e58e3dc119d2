import Retach.Safety
/-!
# What erasing leaves alone

`erase_cells` blanks the wide characters at both ends of its range before it
fills the range. At the left end that is needed; at the right end it also hits a
wide character that only starts there.
-/

open Checked Lists

namespace Retach

/-- Column `x` is half of a wide character whose other half is column `z`. -/
def OtherHalf (l : List Cell) (x z : Nat) : Prop :=
  ∃ c, l[x]? = some c ∧ (c.width = 2 ∧ z = x + 1 ∨ c.width = 0 ∧ x = z + 1)

theorem OtherHalf.symm {l : List Cell} (hp : Paired l) {x z : Nat} (h : OtherHalf l x z) : OtherHalf l z x := by
  obtain ⟨c, hc, ⟨hw, rfl⟩ | ⟨hw, rfl⟩⟩ := h
  · obtain ⟨d, hd, hd0⟩ := hp.base hc hw
    exact ⟨d, hd, .inr ⟨hd0, rfl⟩⟩
  · obtain ⟨y, b, hy, hb, hb2⟩ := hp.continuation hc hw
    obtain rfl : y = z := by omega
    exact ⟨b, hb, .inl ⟨hb2, rfl⟩⟩

theorem OtherHalf.lt {l : List Cell} {x z : Nat} (h : OtherHalf l x z) : x < l.length := by
  obtain ⟨c, hc, -⟩ := h
  exact (List.getElem?_eq_some_iff.1 hc).1

/-- Columns `[lo, hi)` of `l` have become `blank` in `m`, the outside half of a
wide character that straddles an end of the range has become a default cell,
and nothing else has changed. -/
structure ErasedOnly (lo hi : Nat) (blank : Cell) (l m : List Cell) : Prop where
  length : m.length = l.length
  inside : ∀ x, lo ≤ x → x < hi → x < l.length → m[x]? = some blank
  straddling : ∀ x z, ¬ (lo ≤ x ∧ x < hi) → lo ≤ z → z < hi → OtherHalf l x z → m[x]? = some {}
  outside : ∀ x, ¬ (lo ≤ x ∧ x < hi) → (∀ z, lo ≤ z → z < hi → ¬ OtherHalf l x z) → m[x]? = l[x]?

/-- An empty range. -/
theorem ErasedOnly.nothing {lo hi : Nat} (h : hi ≤ lo) (blank : Cell) (l : List Cell) : ErasedOnly lo hi blank l l where
  length := rfl
  inside x h₁ h₂ := by omega
  straddling x z _ h₁ h₂ := by omega
  outside _ _ _ := rfl

/-- A range that covers the row. -/
theorem ErasedOnly.all {n : Nat} (blank : Cell) {l : List Cell} (h : l.length = n) :
    ErasedOnly 0 n blank l (List.replicate n blank) where
  length := by rw [List.length_replicate, h]
  inside x _ hx _ := by rw [List.getElem?_replicate, if_pos hx]
  straddling x z hout _ _ hz := by
    have hlt := hz.lt
    omega
  outside x hout _ := by
    rw [List.getElem?_eq_none (by rw [List.length_replicate]; omega), List.getElem?_eq_none (by omega)]

/-- Ranges with the same columns of the row. -/
theorem ErasedOnly.congr {lo hi lo' hi' : Nat} {blank : Cell} {l m : List Cell} (hp : Paired l)
    (hin : ∀ x, x < l.length → ((lo ≤ x ∧ x < hi) ↔ (lo' ≤ x ∧ x < hi'))) (h : ErasedOnly lo hi blank l m) :
    ErasedOnly lo' hi' blank l m where
  length := h.length
  inside x h₁ h₂ hx := h.inside x ((hin x hx).2 ⟨h₁, h₂⟩).1 ((hin x hx).2 ⟨h₁, h₂⟩).2 hx
  straddling x z hx h₁ h₂ hhalf := by
    have hz := (hin z (hhalf.symm hp).lt).2 ⟨h₁, h₂⟩
    exact h.straddling x z (fun hx' => hx ((hin x hhalf.lt).1 hx')) hz.1 hz.2 hhalf
  outside x hx hnone := by
    rcases Nat.lt_or_ge x l.length with hlt | hge
    · apply h.outside x (fun hx' => hx ((hin x hlt).1 hx'))
      intro z h₁ h₂ hhalf
      have hz := (hin z (hhalf.symm hp).lt).1 ⟨h₁, h₂⟩
      exact hnone z hz.1 hz.2 hhalf
    · rw [List.getElem?_eq_none (by rw [h.length]; exact hge), List.getElem?_eq_none hge]

theorem erasedOnly_congr {lo hi lo' hi' : Nat} {blank : Cell} {l m : List Cell} (hp : Paired l)
    (hin : ∀ x, x < l.length → ((lo ≤ x ∧ x < hi) ↔ (lo' ≤ x ∧ x < hi'))) :
    ErasedOnly lo hi blank l m ↔ ErasedOnly lo' hi' blank l m :=
  ⟨.congr hp hin, .congr hp fun x hx => (hin x hx).symm⟩

/-! ## The fixup, column by column -/

section Unpair

variable {l : List Cell} {x i : Nat}

/-- The fixup touches its column and the other half of what stands there. -/
theorem unpair_other (hi : i ≠ x) (h : ¬ OtherHalf l x i) : (unpair x l)[i]? = l[i]? := by
  unfold unpair
  cases hc : l[x]? with
  | none => rfl
  | some c =>
    dsimp only
    split
    next hw =>
      have hne : i ≠ x + 1 := fun hi => h ⟨c, hc, .inl ⟨hw, hi⟩⟩
      rw [List.getElem?_set_ne (Ne.symm hi), List.getElem?_set_ne (Ne.symm hne)]
    next =>
      split
      next hw =>
        have hne : i ≠ x - 1 := fun hi => h ⟨c, hc, .inr ⟨hw.1, by omega⟩⟩
        rw [List.getElem?_set_ne (Ne.symm hi), List.getElem?_set_ne (Ne.symm hne)]
      next => rfl

theorem unpair_half (h : OtherHalf l x i) : (unpair x l)[x]? = some {} := by
  have hlt := h.lt
  obtain ⟨c, hc, ⟨hw, rfl⟩ | ⟨hw, rfl⟩⟩ := h
  · simp only [unpair, hc, if_pos hw]
    rw [List.getElem?_set_self (by rwa [List.length_set])]
  · simp only [unpair, hc, hw]
    rw [if_neg (by omega), if_pos ⟨trivial, by omega⟩, List.getElem?_set_self (by rwa [List.length_set])]

theorem unpair_otherHalf (h : OtherHalf l x i) (hi : i < l.length) : (unpair x l)[i]? = some {} := by
  obtain ⟨c, hc, ⟨hw, rfl⟩ | ⟨hw, rfl⟩⟩ := h
  · simp only [unpair, hc, if_pos hw]
    rw [List.getElem?_set_ne (by omega), List.getElem?_set_self hi]
  · simp only [unpair, hc, hw]
    rw [if_neg (by omega), if_pos ⟨trivial, by omega⟩, Nat.add_sub_cancel, List.getElem?_set_ne (by omega),
      List.getElem?_set_self hi]

/-- On a column that is no half of a wide character it does nothing. -/
theorem unpair_single (h : ∀ z, ¬ OtherHalf l x z) : unpair x l = l := by
  unfold unpair
  cases hc : l[x]? with
  | none => rfl
  | some c =>
    dsimp only
    rw [if_neg fun hw => h _ ⟨c, hc, .inl ⟨hw, rfl⟩⟩, if_neg]
    rintro ⟨hw, hx⟩
    exact h (x - 1) ⟨c, hc, .inr ⟨hw, by omega⟩⟩

end Unpair

/-! ## The range -/

/-- A wide character starts at column `x`. -/
def WideAt (l : List Cell) (x : Nat) : Prop := ∃ c, l[x]? = some c ∧ c.width = 2

theorem fill_inside {α : Type} {lo n x : Nat} {a : α} {l : List α} (h : lo + n ≤ l.length) (h₁ : lo ≤ x)
    (h₂ : x < lo + n) : (fill lo n a l)[x]? = some a := by
  have hlen : (l.take lo).length = lo := List.length_take_of_le (by omega)
  rw [fill, List.append_assoc, List.getElem?_append_right (by omega), hlen,
    List.getElem?_append_left (by rw [List.length_replicate]; omega), List.getElem?_replicate, if_pos (by omega)]

theorem fill_outside {α : Type} {lo n x : Nat} {a : α} {l : List α} (h : lo + n ≤ l.length)
    (hx : ¬ (lo ≤ x ∧ x < lo + n)) : (fill lo n a l)[x]? = l[x]? := by
  have hlen : (l.take lo).length = lo := List.length_take_of_le (by omega)
  rw [fill]
  rcases Nat.lt_or_ge x lo with hlt | hge
  · rw [List.append_assoc, List.getElem?_append_left (by omega), List.getElem?_take_of_lt hlt]
  · rw [List.getElem?_append_right (by simp only [List.length_append, List.length_replicate]; omega),
      List.getElem?_drop, List.length_append, List.length_replicate, hlen]
    congr 1
    omega

section Range

variable {l : List Cell} {lo hi : Nat}

/-- After the fixups: before the range filled in. -/
theorem erase_outside {blank : Cell} (hlo : lo < hi) (hhi : hi ≤ l.length) {x : Nat} (hx : ¬ (lo ≤ x ∧ x < hi)) :
    (eraseRange lo hi blank l)[x]? =
      (if hi < l.length then unpair hi (unpair lo l) else unpair lo l)[x]? := by
  have hfill : ∀ m : List Cell, m.length = l.length → (fill lo (hi - lo) blank m)[x]? = m[x]? := fun m hm =>
    fill_outside (by omega) (by omega)
  rw [eraseRange]
  split
  · exact hfill _ (by rw [unpair_length, unpair_length])
  · exact hfill _ (by rw [unpair_length])

/-- Right of the range the first fixup leaves all but the continuation of a
wide character at `lo`. -/
theorem unpair_right (hp : Paired l) (hlo : lo < hi) {x : Nat} (hx : hi ≤ x) (h : ∀ z, lo ≤ z → z < hi → ¬ OtherHalf l x z) :
    (unpair lo l)[x]? = l[x]? :=
  unpair_other (by omega) fun ho => h lo (Nat.le_refl _) hlo (ho.symm hp)

/-- The second fixup does not reach left of the range. -/
theorem unpair_left {m : List Cell} {x : Nat} (hlo : lo < hi) (hx : x < lo) : (unpair hi m)[x]? = m[x]? := by
  refine unpair_other (by omega) ?_
  rintro ⟨d, hd, ⟨-, he⟩ | ⟨-, he⟩⟩ <;> omega

/-- A base just left of the range. -/
theorem erase_base (hp : Paired l) {x : Nat} (hlo : x + 1 < hi) (hhi : hi ≤ l.length) (blank : Cell)
    (hhalf : OtherHalf l x (x + 1)) : (eraseRange (x + 1) hi blank l)[x]? = some {} := by
  have hx0 : (unpair (x + 1) l)[x]? = some {} := unpair_otherHalf (hhalf.symm hp) hhalf.lt
  rw [erase_outside hlo hhi (by omega)]
  split
  · rw [unpair_left hlo (Nat.lt_succ_self x), hx0]
  · exact hx0

/-- A continuation just right of it. -/
theorem erase_continuation (hp : Paired l) {z : Nat} (hlo : lo < z + 1) (hhi : z + 1 ≤ l.length) (blank : Cell)
    (hhalf : OtherHalf l (z + 1) z) : (eraseRange lo (z + 1) blank l)[z + 1]? = some {} := by
  have hlt := hhalf.lt
  have hmate := hhalf.symm hp
  obtain ⟨c, hc, ⟨-, he⟩ | ⟨hc0, -⟩⟩ := hhalf
  · omega
  rw [erase_outside hlo hhi (by omega), if_pos hlt]
  by_cases hz : z = lo
  · subst hz
    have hx0 : (unpair z l)[z + 1]? = some {} := unpair_otherHalf hmate hlt
    have hsingle : ∀ y, ¬ OtherHalf (unpair z l) (z + 1) y := by
      rintro y ⟨d, hd, hwd⟩
      rw [hx0, Option.some.injEq] at hd
      subst hd
      simp at hwd
    rw [unpair_single hsingle, hx0]
  · have hkeep : (unpair lo l)[z + 1]? = some c := by
      rw [← hc]
      refine unpair_other (by omega) fun ho => hz ?_
      obtain ⟨d, hd, ⟨-, he⟩ | ⟨-, he⟩⟩ := ho <;> omega
    exact unpair_half ⟨c, hkeep, .inr ⟨hc0, rfl⟩⟩

/-- What stands at `hi` after the first fixup is no half that reaches out. -/
theorem unpair_reach (hw : ¬ WideAt l hi) (hlo : lo < hi) (hin : hi < l.length) {z : Nat} (h : OtherHalf (unpair lo l) hi z) :
    z < hi := by
  obtain ⟨d, hd, ⟨hd2, rfl⟩ | ⟨-, he⟩⟩ := h
  · refine absurd ⟨d, ?_, hd2⟩ hw
    rw [← hd]
    refine (unpair_other (by omega) fun ho => ?_).symm
    have hd0 : (unpair lo l)[hi]? = some {} := unpair_otherHalf ho hin
    rw [hd0, Option.some.injEq] at hd
    subst hd
    simp at hd2
  · omega

/-- Right of the range the second fixup changes nothing more. -/
theorem unpair_right_twice (hp : Paired l) (hlo : lo < hi) (hw : ¬ WideAt l hi) (hin : hi < l.length) {x : Nat} (hx : hi ≤ x)
    (h : ∀ z, lo ≤ z → z < hi → ¬ OtherHalf l x z) : (unpair hi (unpair lo l))[x]? = (unpair lo l)[x]? := by
  by_cases hxhi : x = hi
  · subst hxhi
    rw [unpair_single]
    intro z hz
    have hzlt := unpair_reach hw hlo hin hz
    obtain ⟨d, hd, hwd⟩ := hz
    rw [unpair_right hp hlo (Nat.le_refl x) h] at hd
    exact h z (by omega) hzlt ⟨d, hd, hwd⟩
  · apply unpair_other hxhi
    intro ho
    have := unpair_reach hw hlo hin ho
    omega

/-- Erasing is exact unless a wide character starts right after the range. -/
theorem eraseRange_exact (hp : Paired l) (hlo : lo < hi) (hhi : hi ≤ l.length) (blank : Cell) (hw : ¬ WideAt l hi) :
    ErasedOnly lo hi blank l (eraseRange lo hi blank l) where
  length := (eraseRange_over (p := fun _ => True) trivial trivial hlo hhi).1
  inside x h₁ h₂ _ := by
    rw [eraseRange]
    split <;> exact fill_inside (by simp only [unpair_length]; omega) h₁ (by omega)
  straddling x z hx hz₁ hz₂ hhalf := by
    have hside : z = x + 1 ∨ x = z + 1 := by
      obtain ⟨c, -, ⟨-, he⟩ | ⟨-, he⟩⟩ := hhalf <;> omega
    rcases hside with rfl | rfl
    · obtain rfl : lo = x + 1 := by omega
      exact erase_base hp hlo hhi blank hhalf
    · obtain rfl : hi = z + 1 := by omega
      exact erase_continuation hp hlo hhi blank hhalf
  outside x hx h := by
    rw [erase_outside hlo hhi hx]
    rcases Nat.lt_or_ge x lo with hlt | hge
    · have hleft : (unpair lo l)[x]? = l[x]? :=
        unpair_other (by omega) fun ho => h lo (Nat.le_refl _) hlo (ho.symm hp)
      split
      · rw [unpair_left hlo hlt, hleft]
      · exact hleft
    · have hright : (unpair lo l)[x]? = l[x]? := unpair_right hp hlo (by omega) h
      split
      next hin => rw [unpair_right_twice hp hlo hw hin (by omega) h, hright]
      next => exact hright

/-- A wide character that starts right after the range is lost. -/
theorem eraseRange_loses (hp : Paired l) (hlo : lo < hi) (blank : Cell) (hw : WideAt l hi) :
    ¬ ErasedOnly lo hi blank l (eraseRange lo hi blank l) := by
  intro h
  obtain ⟨c, hc, hc2⟩ := hw
  have hlt : hi < l.length := (List.getElem?_eq_some_iff.1 hc).1
  have hnone : ∀ z, lo ≤ z → z < hi → ¬ OtherHalf l hi z := by
    rintro z - hz ⟨d, hd, ⟨-, he⟩ | ⟨hd0, -⟩⟩
    · omega
    · rw [hc, Option.some.injEq] at hd
      subst hd
      omega
  have hkeep := unpair_right hp hlo (Nat.le_refl hi) hnone
  have hgone : (eraseRange lo hi blank l)[hi]? = some {} := by
    rw [erase_outside hlo (by omega) (by omega), if_pos hlt]
    exact unpair_half (i := hi + 1) ⟨c, by rw [hkeep, hc], .inl ⟨hc2, rfl⟩⟩
  rw [h.outside hi (by omega) hnone, hc, Option.some.injEq] at hgone
  rw [hgone] at hc2
  simp at hc2

end Range

/-! ## On the grid -/

namespace Grid

/-- In every visible row `y` only the columns `range y` have been erased. -/
def ErasedOnly (g g' : Grid) (range : Nat → Nat × Nat) (blank : Cell) : Prop :=
  ∀ y row, g.HasRow y row →
    ∃ row', g'.HasRow y row' ∧ Retach.ErasedOnly (range y).1 (range y).2 blank row.cells row'.cells

/-- One row's range. -/
def onRow (y lo hi : Nat) : Nat → Nat × Nat := fun y' => if y' = y then (lo, hi) else (0, 0)

@[simp] theorem onRow_self (y lo hi : Nat) : onRow y lo hi y = (lo, hi) := if_pos rfl

theorem onRow_ne {y y' : Nat} (lo hi : Nat) (h : y' ≠ y) : onRow y lo hi y' = (0, 0) := if_neg h

/-- A wide character starts in column `hi` of row `y`, right after the nonempty
range `[lo, hi)`. -/
def WideAfter (g : Grid) (y lo hi : Nat) : Prop := lo < hi ∧ ∃ row, g.HasRow y row ∧ WideAt row.cells hi

/-- Every visible row has complete wide pairs. -/
def VisiblePaired (g : Grid) : Prop := ∀ row ∈ g.visibleRows, Paired row.cells

variable {g : Grid}

theorem ErasedOnly.nothing {range : Nat → Nat × Nat} (h : ∀ y, (range y).2 ≤ (range y).1) (g : Grid) (blank : Cell) :
    g.ErasedOnly g range blank := fun y row hrow => ⟨row, hrow, .nothing (h y) blank _⟩

theorem HasRow.unique {y : Nat} {row row' : Row} (h : g.HasRow y row) (h' : g.HasRow y row') : row = row' :=
  Option.some.inj (h.2.symm.trans h'.2)

theorem HasRow.putRow_ne {y y' : Nat} {row : Row} (hne : y' ≠ y) (row' : Row) :
    (g.putRow y row').HasRow y' row ↔ g.HasRow y' row := by
  simp only [HasRow, Grid.putRow]
  rw [List.getElem?_set_ne (by omega)]

/-- `erase_cells` on a paired row: the range filled and the fixups at its ends. -/
theorem HasRow.eraseCells_iff {y : Nat} {row : Row} (hrow : g.HasRow y row) (hlen : row.cells.length = g.cols)
    (hp : Paired row.cells) (lo hi : Nat) (blank : Cell) :
    ∃ row', g.eraseCells y lo hi blank = some (g.putRow y row') ∧ row'.cells.length = row.cells.length ∧
      (Retach.ErasedOnly lo hi blank row.cells row'.cells ↔ ¬ (lo < hi ∧ WideAt row.cells hi)) := by
  have hclip : ∀ {m : List Cell}, Retach.ErasedOnly (min lo g.cols) (min hi g.cols) blank row.cells m ↔
      Retach.ErasedOnly lo hi blank row.cells m :=
    erasedOnly_congr hp fun x hx => by omega
  have hin : WideAt row.cells hi → hi < g.cols := by
    rintro ⟨c, hc, -⟩
    rw [← hlen]
    exact (List.getElem?_eq_some_iff.1 hc).1
  rcases Nat.lt_or_ge (min lo g.cols) (min hi g.cols) with hlt | hge
  · have hcut : g.eraseCells y lo hi blank = g.eraseCells y (min lo g.cols) (min hi g.cols) blank := by
      unfold Grid.eraseCells
      simp only [Nat.min_assoc, Nat.min_self]
    have herase := hrow.eraseCells hlen hlt (Nat.min_le_right _ _) blank
    refine ⟨_, hcut.trans herase, (eraseRange_over (p := fun _ => True) trivial trivial hlt (by omega)).1, ?_⟩
    rw [← hclip, Row.erased_cells]
    by_cases hw : lo < hi ∧ WideAt row.cells hi
    · have hhi : min hi g.cols = hi := Nat.min_eq_left (Nat.le_of_lt (hin hw.2))
      rw [hhi] at hlt ⊢
      exact iff_of_false (eraseRange_loses hp hlt blank hw.2) (fun h => h hw)
    · refine iff_of_true (eraseRange_exact hp hlt (by omega) blank fun hwide => ?_) hw
      have hhi : min hi g.cols = hi := by
        obtain ⟨c, hc, -⟩ := hwide
        have := (List.getElem?_eq_some_iff.1 hc).1
        omega
      exact hw ⟨by omega, hhi ▸ hwide⟩
  · refine ⟨row, ?_, rfl, ?_⟩
    · rw [hrow.putRow_self]
      unfold Grid.eraseCells
      have hy := hrow.1
      rw [if_neg (by omega)]
      simp only [if_pos hge]
    · rw [← hclip]
      apply iff_of_true (.nothing hge blank _)
      intro hw
      have := hin hw.2
      omega

/-- When the rows other than `y` are erased as they should be, row `y` decides. -/
theorem erasedOnly_iff {g' : Grid} (range : Nat → Nat × Nat) {blank : Cell} {y : Nat} {row row' : Row}
    (hrow : g.HasRow y row) (hrow' : g'.HasRow y row')
    (hothers : ∀ z r, z ≠ y → g.HasRow z r →
      ∃ r', g'.HasRow z r' ∧ Retach.ErasedOnly (range z).1 (range z).2 blank r.cells r'.cells) :
    g.ErasedOnly g' range blank ↔ Retach.ErasedOnly (range y).1 (range y).2 blank row.cells row'.cells := by
  constructor
  · intro h
    obtain ⟨r, hr, he⟩ := h y row hrow
    rwa [hrow'.unique hr]
  · intro h z r hz
    by_cases hzy : z = y
    · subst hzy
      exact ⟨row', hrow', by rwa [← hrow.unique hz]⟩
    · exact hothers z r hzy hz

theorem HasRow.wideAfter_iff {y : Nat} {row : Row} (h : g.HasRow y row) (lo hi : Nat) :
    g.WideAfter y lo hi ↔ lo < hi ∧ WideAt row.cells hi := by
  refine and_congr_right fun _ => ⟨?_, fun hw => ⟨row, h, hw⟩⟩
  rintro ⟨r, hr, hw⟩
  rwa [h.unique hr]

theorem Shape.replaceVisible_hasRow (h : g.Shape) {vis : List Row} {y : Nat} {row : Row} :
    (g.replaceVisible vis).HasRow y row ↔ y < g.rows ∧ vis[y]? = some row := by
  apply and_congr_right
  intro hy
  change (g.cells.take g.scrollbackLen ++ vis)[g.scrollbackLen + y]? = some row ↔ _
  rw [List.getElem?_append_right (by rw [← scrollbackRows, h.scrollback_length]; omega), ← scrollbackRows,
    h.scrollback_length, Nat.add_sub_cancel_left]

/-- `erase_rows`: the rows `[lo, hi)` are blank, the others as they were. -/
theorem Shape.eraseRows_hasRow (h : g.Shape) {lo hi : Nat} (hlo : lo ≤ hi) (hhi : hi ≤ g.rows) (blank : Cell) :
    ∃ g', g.eraseRows lo hi blank = some g' ∧ g'.Shape ∧ g'.cursorX = g.cursorX ∧ g'.cursorY = g.cursorY ∧
      g'.cols = g.cols ∧ (∀ y, lo ≤ y → y < hi → g'.HasRow y (.filled g.cols blank)) ∧
      ∀ y row, ¬ (lo ≤ y ∧ y < hi) → g.HasRow y row → g'.HasRow y row := by
  have hvlen := h.visible_length
  have hflen : (fill lo (hi - lo) (Row.filled g.cols blank) g.visibleRows).length = g.rows := by
    rw [fill_length _ (by omega), hvlen]
  refine ⟨_, h.eraseRows hlo hhi blank, h.replaceVisible hflen fun row hr => ?_, rfl, rfl, rfl, ?_, ?_⟩
  · rcases mem_fill hr with hr | rfl
    · exact h.row_len row hr
    · exact List.length_replicate
  · intro y h₁ h₂
    exact h.replaceVisible_hasRow.2 ⟨by omega, fill_inside (by omega) h₁ (by omega)⟩
  · intro y row hy hrow
    refine h.replaceVisible_hasRow.2 ⟨hrow.1, ?_⟩
    rw [fill_outside (by omega) (by omega), hrow.getElem?]

/-- One row erased, the others as they were. -/
theorem HasRow.erasedOnly_iff {g' : Grid} {blank : Cell} {y lo hi : Nat} {row row' : Row} (hrow : g.HasRow y row)
    (hrow' : g'.HasRow y row') (hothers : ∀ z r, z ≠ y → g.HasRow z r → g'.HasRow z r) :
    g.ErasedOnly g' (onRow y lo hi) blank ↔ Retach.ErasedOnly lo hi blank row.cells row'.cells := by
  have h : g.ErasedOnly g' (onRow y lo hi) blank ↔ _ := Grid.erasedOnly_iff _ hrow hrow' fun z r hz hr =>
    ⟨r, hothers z r hz hr, by rw [onRow_ne lo hi hz]; exact .nothing (Nat.le_refl 0) blank _⟩
  rwa [onRow_self] at h

/-- What `check_invariants` asserts of the buffer, and rows as wide as the grid. -/
structure Fits (g : Grid) : Prop where
  cells_len : g.cells.length = g.scrollbackLen + g.rows
  row_len : ∀ row ∈ g.visibleRows, row.cells.length = g.cols

theorem Fits.hasRow (h : g.Fits) {y : Nat} (hy : y < g.rows) : ∃ row, g.HasRow y row ∧ row.cells.length = g.cols := by
  have hlt : g.scrollbackLen + y < g.cells.length := by
    rw [h.cells_len]
    omega
  have hrow : g.HasRow y g.cells[g.scrollbackLen + y] := ⟨hy, List.getElem?_eq_getElem hlt⟩
  exact ⟨_, hrow, h.row_len _ hrow.mem⟩

theorem Shape.fits (h : g.Shape) : g.Fits := ⟨h.cells_len, h.row_len⟩

theorem Fits.eraseCells_erases (h : g.Fits) (hp : g.VisiblePaired) (y lo hi : Nat) (blank : Cell) :
    ∃ g', g.eraseCells y lo hi blank = some g' ∧ g'.scrollbackRows = g.scrollbackRows ∧
      (g.ErasedOnly g' (onRow y lo hi) blank ↔ ¬ g.WideAfter y lo hi) := by
  rcases Nat.lt_or_ge y g.rows with hy | hy
  · obtain ⟨row, hrow, hlen⟩ := h.hasRow hy
    obtain ⟨row', herase, -, hiff⟩ := hrow.eraseCells_iff hlen (hp row hrow.mem) lo hi blank
    refine ⟨_, herase, List.take_set_of_le (Nat.le_add_right ..), ?_⟩
    rw [hrow.erasedOnly_iff hrow.putRow fun z r hz hr => (HasRow.putRow_ne hz row').2 hr, hiff, hrow.wideAfter_iff]
  · refine ⟨g, if_pos hy, rfl, iff_of_true ?_ ?_⟩
    · intro z r hr
      have hz := hr.1
      refine ⟨r, hr, ?_⟩
      rw [onRow_ne lo hi (by omega)]
      exact .nothing (Nat.le_refl 0) blank _
    · rintro ⟨-, row, hrow, -⟩
      exact absurd hrow.1 (by omega)

end Grid

/-! ## The commands -/

/-- ED, EL and ECH with their parameter. -/
inductive EraseCommand where
  | display (mode : Nat)
  | line (mode : Nat)
  | character (n : Nat)

namespace EraseCommand

/-- The columns of each row that the command is to erase. -/
def range (g : Grid) : EraseCommand → Nat → Nat × Nat
  | .display 0, y => if y = g.cursorY then (g.cursorX, g.cols) else if y > g.cursorY then (0, g.cols) else (0, 0)
  | .display 1, y => if y = g.cursorY then (0, g.cursorX + 1) else if y < g.cursorY then (0, g.cols) else (0, 0)
  | .display 2, _ => (0, g.cols)
  | .line 0, y => Grid.onRow g.cursorY g.cursorX g.cols y
  | .line 1, y => Grid.onRow g.cursorY 0 (g.cursorX + 1) y
  | .line 2, y => Grid.onRow g.cursorY 0 g.cols y
  | .character n, y => Grid.onRow g.cursorY g.cursorX (g.cursorX + n) y
  | _, _ => (0, 0)

/-- The handler, after the blank cell has been made. -/
def run (s : Screen) : EraseCommand → Option Screen
  | .display mode => s.csiEraseDisplay mode
  | .line mode => s.csiEraseLine mode
  | .character n => s.csiEraseCharacter n

end EraseCommand

namespace Grid

variable {g : Grid}

/-- `erase_cells` on the cursor's row, where the handlers clip the range. -/
theorem Shape.erase_cursorRow (h : g.Shape) (hp : g.VisiblePaired) (lo : Nat) {hi hi' : Nat}
    (hhi : min hi' g.cols = min hi g.cols) (blank : Cell) :
    ∃ row row', g.HasRow g.cursorY row ∧ row'.cells.length = g.cols ∧
      g.eraseCells g.cursorY lo hi' blank = some (g.putRow g.cursorY row') ∧
      (Retach.ErasedOnly lo hi blank row.cells row'.cells ↔ ¬ g.WideAfter g.cursorY lo hi) := by
  obtain ⟨row, hrow, hlen⟩ := h.hasRow h.cursor_y
  obtain ⟨row', herase, hlen', hiff⟩ := hrow.eraseCells_iff hlen (hp row hrow.mem) lo hi blank
  refine ⟨row, row', hrow, hlen'.trans hlen, ?_, ?_⟩
  · rw [← herase]
    unfold Grid.eraseCells
    simp only [hhi]
  · rw [hiff, hrow.wideAfter_iff]

/-- EL and ECH. -/
theorem Shape.erase_line (h : g.Shape) (hp : g.VisiblePaired) (lo hi : Nat) {hi' : Nat}
    (hhi : min hi' g.cols = min hi g.cols) (blank : Cell) :
    ∃ g', g.eraseCells g.cursorY lo hi' blank = some g' ∧
      (g.ErasedOnly g' (onRow g.cursorY lo hi) blank ↔ ¬ g.WideAfter g.cursorY lo hi) := by
  obtain ⟨row, row', hrow, -, herase, hiff⟩ := h.erase_cursorRow hp lo hhi blank
  refine ⟨_, herase, ?_⟩
  rw [hrow.erasedOnly_iff hrow.putRow fun z r hz hr => (HasRow.putRow_ne hz row').2 hr, hiff]

theorem Shape.putRow_shape (h : g.Shape) {y : Nat} {row : Row} (hlen : row.cells.length = g.cols) :
    (g.putRow y row).Shape := by
  rw [h.putRow y row]
  apply h.replaceVisible (by rw [List.length_set, h.visible_length])
  intro r hr
  rcases List.mem_or_eq_of_mem_set hr with hr | rfl
  · exact h.row_len r hr
  · exact hlen

/-- ED 0: the end of the cursor's row, then the rows below. -/
theorem Shape.erase_below (h : g.Shape) (hp : g.VisiblePaired) (blank : Cell) :
    ∃ g' g'', g.eraseCells g.cursorY g.cursorX g.cols blank = some g' ∧
      g'.eraseRows (g'.cursorY + 1) g'.rows blank = some g'' ∧
      (g.ErasedOnly g'' (EraseCommand.range g (.display 0)) blank ↔ ¬ g.WideAfter g.cursorY g.cursorX g.cols) := by
  obtain ⟨row, row', hrow, hlen', herase, hiff⟩ := h.erase_cursorRow hp g.cursorX (rfl : min g.cols g.cols = _) blank
  have hy := h.cursor_y
  obtain ⟨g'', hg'', -, -, -, -, hblank, hkept⟩ :=
    (h.putRow_shape (y := g.cursorY) hlen').eraseRows_hasRow (show g.cursorY + 1 ≤ g.rows from hy) (Nat.le_refl g.rows) blank
  refine ⟨_, g'', herase, hg'', ?_⟩
  rw [← hiff]
  have hself : EraseCommand.range g (.display 0) g.cursorY = (g.cursorX, g.cols) := if_pos rfl
  rw [erasedOnly_iff (EraseCommand.range g (.display 0)) hrow (hkept _ _ (by omega) hrow.putRow), hself]
  intro z r hz hr
  rw [EraseCommand.range, if_neg hz]
  have hzlt := hr.1
  split
  · exact ⟨_, hblank z (by omega) hzlt, .all blank (h.row_len r hr.mem)⟩
  · exact ⟨r, hkept z r (by omega) ((HasRow.putRow_ne hz row').2 hr), .nothing (Nat.le_refl 0) blank _⟩

/-- ED 1: the rows above, then the start of the cursor's row. -/
theorem Shape.erase_above (h : g.Shape) (hp : g.VisiblePaired) (blank : Cell) :
    ∃ g' g'', g.eraseRows 0 g.cursorY blank = some g' ∧
      g'.eraseCells g'.cursorY 0 (min (g'.cursorX + 1) g'.cols) blank = some g'' ∧
      (g.ErasedOnly g'' (EraseCommand.range g (.display 1)) blank ↔ ¬ g.WideAfter g.cursorY 0 (g.cursorX + 1)) := by
  have hy := h.cursor_y
  obtain ⟨g', hg', hs', hx, hcy, hcols, hblank, hkept⟩ := h.eraseRows_hasRow (Nat.zero_le _) (Nat.le_of_lt hy) blank
  obtain ⟨row, hrow, hlen⟩ := h.hasRow hy
  have hrow' := hkept _ _ (by omega) hrow
  obtain ⟨row', herase, -, hiff⟩ := hrow'.eraseCells_iff (hlen.trans hcols.symm) (hp row hrow.mem) 0 (g.cursorX + 1) blank
  refine ⟨g', g'.putRow g.cursorY row', hg', ?_, ?_⟩
  · rw [hcy, hx, ← herase]
    unfold Grid.eraseCells
    simp only [Nat.min_assoc, Nat.min_self]
  · have hself : EraseCommand.range g (.display 1) g.cursorY = (0, g.cursorX + 1) := if_pos rfl
    rw [hrow.wideAfter_iff, ← hiff,
      erasedOnly_iff (EraseCommand.range g (.display 1)) hrow hrow'.putRow, hself]
    intro z r hz hr
    rw [EraseCommand.range, if_neg hz]
    split
    · exact ⟨_, (HasRow.putRow_ne hz row').2 (hblank z (Nat.zero_le _) (by omega)), .all blank (h.row_len r hr.mem)⟩
    · exact ⟨r, (HasRow.putRow_ne hz row').2 (hkept z r (by omega) hr), .nothing (Nat.le_refl 0) blank _⟩

/-- ED 2. -/
theorem Shape.erase_all (h : g.Shape) (blank : Cell) :
    ∃ g', g.eraseRows 0 g.rows blank = some g' ∧ g.ErasedOnly g' (fun _ => (0, g.cols)) blank := by
  obtain ⟨g', hg', -, -, -, -, hblank, -⟩ := h.eraseRows_hasRow (Nat.zero_le _) (Nat.le_refl _) blank
  exact ⟨g', hg', fun y row hrow => ⟨_, hblank y (Nat.zero_le _) hrow.1, .all blank (h.row_len row hrow.mem)⟩⟩

/-- Nothing starts after the last column. -/
theorem Shape.not_wideAfter (h : g.Shape) (y lo : Nat) : ¬ g.WideAfter y lo g.cols := by
  rintro ⟨-, row, hrow, c, hc, -⟩
  have hlt := (List.getElem?_eq_some_iff.1 hc).1
  rw [h.row_len row hrow.mem] at hlt
  exact absurd hlt (Nat.lt_irrefl _)

end Grid

namespace EraseCommand

variable {s : Screen} {blank : Cell}

/-- What a command is to do, once the blank cell is made. -/
def Erases (cmd : EraseCommand) (s : Screen) (blank : Cell) : Prop :=
  ∃ s', cmd.run s = some s' ∧
    (s.grid.ErasedOnly s'.grid (cmd.range s.grid) blank ↔
      ¬ s.grid.WideAfter s.grid.cursorY (cmd.range s.grid s.grid.cursorY).1 (cmd.range s.grid s.grid.cursorY).2)

/-- A command that leaves the visible rows alone. -/
theorem erases_nothing {cmd : EraseCommand} (s' : Screen) (hrun : cmd.run s = some s')
    (hrange : cmd.range s.grid = fun _ => (0, 0)) (hkeep : ∀ y row, s.grid.HasRow y row → s'.grid.HasRow y row) :
    cmd.Erases s blank := by
  refine ⟨s', hrun, ?_⟩
  rw [hrange]
  apply iff_of_true (fun y row hrow => ⟨row, hkeep y row hrow, .nothing (Nat.le_refl 0) _ _⟩)
  intro hw
  exact absurd hw.1 (Nat.lt_irrefl 0)

/-- A command that erases in the cursor's row; the blank cell's style table is
the only other change. -/
theorem erases_line {cmd : EraseCommand} {lo hi : Nat} (hi' : Nat) (t : StyleTable) (h : s.Inv) (hp : s.grid.VisiblePaired)
    (hhi : min hi' s.grid.cols = min hi s.grid.cols) (hrange : cmd.range s.grid = Grid.onRow s.grid.cursorY lo hi)
    (hrun : cmd.run s = ((s.grid.setStyleTable t).eraseCells s.grid.cursorY lo hi' blank).bind fun g =>
      some { s with grid := g }) : cmd.Erases s blank := by
  have hs : (s.grid.setStyleTable t).Shape := { h.shape with }
  obtain ⟨g', herase, hiff⟩ := hs.erase_line hp lo hi hhi blank
  refine ⟨{ s with grid := g' }, ?_, ?_⟩
  · rw [hrun]
    exact congrArg (Option.bind · _) herase
  · rw [hrange, Grid.onRow_self]
    exact hiff

section Commands

variable (h : s.Inv) (hp : s.grid.VisiblePaired) {t : StyleTable}
  (hblank : s.blankCell = some (blank, s.onGrid (·.setStyleTable t)))

include h hp hblank

theorem line_erases (mode : Nat) : (line mode).Erases s blank := by
  match mode with
  | 0 => exact erases_line s.grid.cols t h hp rfl rfl (by rw [run, Screen.csiEraseLine, hblank]; rfl)
  | 1 =>
    refine erases_line (min (s.grid.cursorX + 1) s.grid.cols) t h hp ?_ rfl (by rw [run, Screen.csiEraseLine, hblank]; rfl)
    rw [Nat.min_assoc, Nat.min_self]
  | 2 => exact erases_line s.grid.cols t h hp rfl rfl (by rw [run, Screen.csiEraseLine, hblank]; rfl)
  | mode + 3 =>
    exact erases_nothing (s.onGrid (·.setStyleTable t)) (by rw [run, Screen.csiEraseLine, hblank]; rfl) rfl
      fun _ _ hrow => hrow

theorem character_erases (n : Nat) : (character n).Erases s blank := by
  refine erases_line (min (s.grid.cursorX + n) s.grid.cols) t h hp ?_ rfl ?_
  · rw [Nat.min_assoc, Nat.min_self]
  · rw [run, Screen.csiEraseCharacter, hblank]
    exact if_pos h.shape.cursor_y

theorem display_erases (mode : Nat) : (display mode).Erases s blank := by
  have hs : (s.grid.setStyleTable t).Shape := { h.shape with }
  have hself : ∀ lo hi : Nat × Nat, (if s.grid.cursorY = s.grid.cursorY then lo else hi) = lo := fun _ _ => if_pos rfl
  match mode with
  | 0 =>
    obtain ⟨g', g'', hg', hg'', hiff⟩ := hs.erase_below hp blank
    refine ⟨{ s with grid := g'' }, ?_, ?_⟩
    · rw [run, Screen.csiEraseDisplay, hblank]
      refine (congrArg (Option.bind · _) hg').trans ?_
      exact congrArg (Option.bind · _) hg''
    · rw [range, hself]
      exact hiff
  | 1 =>
    obtain ⟨g', g'', hg', hg'', hiff⟩ := hs.erase_above hp blank
    refine ⟨{ s with grid := g'' }, ?_, ?_⟩
    · rw [run, Screen.csiEraseDisplay, hblank]
      refine (congrArg (Option.bind · _) hg').trans ?_
      exact congrArg (Option.bind · _) hg''
    · rw [range, hself]
      exact hiff
  | 2 =>
    obtain ⟨g', hg', herased⟩ := hs.erase_all blank
    refine ⟨{ s with grid := g' }, ?_, iff_of_true herased (h.shape.not_wideAfter _ _)⟩
    rw [run, Screen.csiEraseDisplay, hblank]
    exact congrArg (Option.bind · _) hg'
  | 3 =>
    refine erases_nothing
      { s with
        grid := { s.grid.setStyleTable t with cells := s.grid.visibleRows, scrollbackLen := 0, pendingStart := 0 }
        state := s.state.pushPassthrough [0x1b, 0x5b, 0x33, 0x4a] } ?_ rfl fun y row hrow => ?_
    · rw [run, Screen.csiEraseDisplay, hblank]
      exact congrArg (Option.bind · _) hs.clearScrollback
    · refine ⟨hrow.1, ?_⟩
      change s.grid.visibleRows[0 + y]? = some row
      rw [Nat.zero_add, hrow.getElem?]
  | mode + 4 =>
    exact erases_nothing (s.onGrid (·.setStyleTable t)) (by rw [run, Screen.csiEraseDisplay, hblank]; rfl) rfl
      fun _ _ hrow => hrow

end Commands

/-- Every command erases its range, and nothing but its range unless a wide
character starts right after it on the cursor's row. -/
theorem erases (h : s.Inv) (hp : s.grid.VisiblePaired) :
    ∃ blank s₁, s.blankCell = some (blank, s₁) ∧ ∀ cmd : EraseCommand, cmd.Erases s blank := by
  obtain ⟨id, t, hblank, -⟩ := Screen.blankCell_inv h
  refine ⟨_, _, hblank, ?_⟩
  intro cmd
  cases cmd with
  | display mode => exact display_erases h hp hblank mode
  | line mode => exact line_erases h hp hblank mode
  | character n => exact character_erases h hp hblank n

end EraseCommand

/-- On a grid with complete wide pairs, `erase_cells` and with it ED, EL and ECH
change only what they must exactly when no wide character starts in the column
right after the erased range. -/
theorem erasing_exact_iff {g : Grid} (hfits : g.Fits) (hp : g.VisiblePaired) :
    (∀ y lo hi blank, ∃ g', g.eraseCells y lo hi blank = some g' ∧ g'.scrollbackRows = g.scrollbackRows ∧
      (g.ErasedOnly g' (Grid.onRow y lo hi) blank ↔ ¬ g.WideAfter y lo hi)) ∧
    ∀ s : Screen, s.Inv → s.grid = g →
      ∃ blank s₁, s.blankCell = some (blank, s₁) ∧ ∀ cmd : EraseCommand, cmd.Erases s blank := by
  refine ⟨hfits.eraseCells_erases hp, ?_⟩
  rintro s h rfl
  exact EraseCommand.erases h hp

/-- The erased range begins in one wide character and ends in another. -/
theorem erasing_exact_straddled : ∃ s g', (Screen.new 5 1 0).run .sample
      [.callback (.print '世'), .callback (.print 'a'), .callback (.print '界')] = some s ∧
    s.grid.visibleRows.map (fun row => row.cells.map fun c => (c.c, c.width)) =
      [[('世', 2), ('\x00', 0), ('a', 1), ('界', 2), ('\x00', 0)]] ∧
    s.grid.eraseCells 0 1 4 {} = some g' ∧ s.grid.ErasedOnly g' (Grid.onRow 0 1 4) {} ∧
    g'.visibleRows.map (fun row => row.cells.map fun c => (c.c, c.width)) = [[(' ', 1), (' ', 1), (' ', 1), (' ', 1), (' ', 1)]] := by
  let left : Cell := { c := '世', styleId := 0, width := 2 }
  let right : Cell := { c := '界', styleId := 0, width := 2 }
  let cells : List Cell := [left, left.continuation, { c := 'a' }, right, right.continuation]
  obtain ⟨s, g', hrun, hvis, hlen, hcols, herase, herased⟩ : ∃ s g', (Screen.new 5 1 0).run .sample
      [.callback (.print '世'), .callback (.print 'a'), .callback (.print '界')] = some s ∧
      s.grid.visibleRows = [{ cells, combining := [] }] ∧ s.grid.cells.length = s.grid.scrollbackLen + s.grid.rows ∧
      s.grid.cols = 5 ∧ s.grid.eraseCells 0 1 4 {} = some g' ∧
      g'.visibleRows.map (fun row => row.cells.map fun c => (c.c, c.width)) = [[(' ', 1), (' ', 1), (' ', 1), (' ', 1), (' ', 1)]] :=
    ⟨_, _, rfl, rfl, rfl, rfl, rfl, rfl⟩
  have hfits : s.grid.Fits := ⟨hlen, fun row hr => by
    rw [hvis, List.mem_singleton] at hr
    rw [hr, hcols]
    rfl⟩
  have hpaired : s.grid.VisiblePaired := fun row hr => by
    rw [hvis, List.mem_singleton] at hr
    rw [hr]
    exact .pair rfl rfl (.single ⟨by decide, by decide⟩ (.pair rfl rfl .nil))
  obtain ⟨g₁, herase₁, -, hiff⟩ := (erasing_exact_iff hfits hpaired).1 0 1 4 {}
  obtain rfl := Option.some.inj (herase₁.symm.trans herase)
  refine ⟨s, g₁, hrun, by rw [hvis]; rfl, herase, hiff.2 ?_, herased⟩
  rintro ⟨-, row, hrow, c, hc, hw⟩
  have hget := hrow.getElem?
  rw [hvis] at hget
  cases hget
  cases hc
  exact absurd hw (by decide)

/-- A wide character in columns 2 and 3, and columns 0 and 1 erased: the wide
character is gone. -/
theorem erasing_loses_wide : ∃ s g', (Screen.new 4 1 0).run .sample
      [.callback (.csi [[1], [3]] [] 'H'), .callback (.print '世')] = some s ∧ s.grid.Fits ∧ s.grid.VisiblePaired ∧
    s.grid.eraseCells 0 0 2 {} = some g' ∧ ¬ s.grid.ErasedOnly g' (Grid.onRow 0 0 2) {} := by
  let wide : Cell := { c := '世', styleId := 0, width := 2 }
  let cells : List Cell := [{}, {}, wide, wide.continuation]
  obtain ⟨s, hrun, hvis, hlen, hcols⟩ : ∃ s, (Screen.new 4 1 0).run .sample
      [.callback (.csi [[1], [3]] [] 'H'), .callback (.print '世')] = some s ∧
      s.grid.visibleRows = [{ cells, combining := [] }] ∧ s.grid.cells.length = s.grid.scrollbackLen + s.grid.rows ∧
      s.grid.cols = 4 :=
    ⟨_, rfl, rfl, rfl, rfl⟩
  have hfits : s.grid.Fits := ⟨hlen, fun row hr => by
    rw [hvis, List.mem_singleton] at hr
    rw [hr, hcols]
    rfl⟩
  have hpaired : s.grid.VisiblePaired := fun row hr => by
    rw [hvis, List.mem_singleton] at hr
    rw [hr]
    exact .single (single_blank 0) (.single (single_blank 0) (.pair rfl rfl .nil))
  obtain ⟨g', herase, -, hiff⟩ := hfits.eraseCells_erases hpaired 0 0 2 {}
  refine ⟨s, g', hrun, hfits, hpaired, herase, fun h => hiff.1 h ⟨by decide, ?_⟩⟩
  obtain ⟨row, hrow, -⟩ := hfits.hasRow (y := 0) (by
    have := congrArg List.length hvis
    rw [Grid.visibleRows, List.length_take] at this
    simp only [List.length_cons, List.length_nil] at this
    omega)
  have hget := hrow.getElem?
  rw [hvis] at hget
  cases hget
  exact ⟨_, hrow, wide, rfl, rfl⟩

end Retach
