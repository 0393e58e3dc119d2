import Retach.Lib.Lists
import Retach.Row
/-!
# Wide characters in a row

A wide character is a cell of width 2 followed by a continuation of width 0.
`Paired` lists hold only complete pairs and single cells. The operations of the
code on the cells of a row are written here as functions on lists that always
succeed; `Grid` operations compute them (`GridOps`).
-/

open Checked Lists

namespace Retach

/-- Not half of a wide character. -/
def Cell.Single (c : Cell) : Prop := c.width ≠ 0 ∧ c.width ≠ 2

theorem single_blank (id : StyleId) : ({ c := ' ', styleId := id, width := 1 } : Cell).Single :=
  ⟨Nat.one_ne_zero, by simp⟩

/-- No half of a wide character without the other. -/
inductive Paired : List Cell → Prop
  | nil : Paired []
  | single {c l} : c.Single → Paired l → Paired (c :: l)
  | pair {b c l} : b.width = 2 → c.width = 0 → Paired l → Paired (b :: c :: l)

namespace Paired

theorem append {l m : List Cell} (hl : Paired l) (hm : Paired m) : Paired (l ++ m) := by
  induction hl with
  | nil => exact hm
  | single hc _ ih => exact .single hc ih
  | pair hb hc _ ih => exact .pair hb hc ih

theorem of_singles {l : List Cell} (h : ∀ c ∈ l, c.Single) : Paired l := by
  induction l with
  | nil => exact .nil
  | cons c l ih => exact .single (h c (List.mem_cons_self ..)) (ih fun d hd => h d (List.mem_cons_of_mem _ hd))

theorem replicate {c : Cell} (hc : c.Single) (n : Nat) : Paired (List.replicate n c) :=
  of_singles fun _ hd => (List.mem_replicate.1 hd).2 ▸ hc

/-- The first cell is not a continuation. -/
theorem head {c : Cell} {l : List Cell} (h : Paired (c :: l)) : c.width ≠ 0 := by
  cases h with
  | single hc _ => exact hc.1
  | pair hb _ _ => omega

/-- A wide character's base is followed by its continuation. -/
theorem base {l : List Cell} (h : Paired l) {x : Nat} {b : Cell} (hb : l[x]? = some b) (hw : b.width = 2) :
    ∃ c, l[x + 1]? = some c ∧ c.width = 0 := by
  induction h generalizing x with
  | nil => simp at hb
  | single hc _ ih =>
    cases x with
    | zero => simp only [List.getElem?_cons_zero, Option.some.injEq] at hb; exact absurd (hb ▸ hw) hc.2
    | succ x => exact ih hb
  | @pair b' c _ hb' hc _ ih =>
    match x with
    | 0 => exact ⟨c, rfl, hc⟩
    | 1 => simp only [List.getElem?_cons_succ, List.getElem?_cons_zero, Option.some.injEq] at hb; subst hb; omega
    | x + 2 => exact ih hb

/-- A continuation is preceded by its base. -/
theorem continuation {l : List Cell} (h : Paired l) {x : Nat} {c : Cell} (hc : l[x]? = some c) (hw : c.width = 0) :
    ∃ y b, x = y + 1 ∧ l[y]? = some b ∧ b.width = 2 := by
  induction h generalizing x with
  | nil => simp at hc
  | single hs _ ih =>
    cases x with
    | zero => simp only [List.getElem?_cons_zero, Option.some.injEq] at hc; exact absurd (hc ▸ hw) hs.1
    | succ x =>
      obtain ⟨y, b, rfl, hb⟩ := ih hc
      exact ⟨y + 1, b, rfl, hb⟩
  | @pair b' c' _ hb' hc' _ ih =>
    match x with
    | 0 => simp only [List.getElem?_cons_zero, Option.some.injEq] at hc; subst hc; omega
    | 1 => exact ⟨0, b', rfl, rfl, hb'⟩
    | x + 2 =>
      obtain ⟨y, b, rfl, hb⟩ := ih hc
      exact ⟨y + 2, b, rfl, hb⟩

/-- A row cut at a column: the part after it is paired, or starts with the
continuation of a pair that was cut. -/
theorem drop {l : List Cell} (h : Paired l) (n : Nat) :
    Paired (l.drop n) ∨ ∃ c r, l.drop n = c :: r ∧ c.width = 0 ∧ Paired r := by
  induction h generalizing n with
  | nil => exact .inl (by simpa using Paired.nil)
  | single hc hl ih =>
    cases n with
    | zero => exact .inl (.single hc hl)
    | succ n => exact ih n
  | @pair b c l hb hc hl ih =>
    match n with
    | 0 => exact .inl (.pair hb hc hl)
    | 1 => exact .inr ⟨c, l, rfl, hc, hl⟩
    | n + 2 => exact ih n

/-- The part before it is paired, or ends with the base of a pair that was
cut. -/
theorem take {l : List Cell} (h : Paired l) (n : Nat) :
    Paired (l.take n) ∨ ∃ a b, l.take n = a ++ [b] ∧ b.width = 2 ∧ Paired a := by
  induction h generalizing n with
  | nil => exact .inl (by simpa using Paired.nil)
  | @single c l hc hl ih =>
    cases n with
    | zero => exact .inl .nil
    | succ n =>
      rcases ih n with h | ⟨a, b, h, hb, ha⟩
      · exact .inl (.single hc h)
      · exact .inr ⟨c :: a, b, by simp [h], hb, .single hc ha⟩
  | @pair b c l hb hc hl ih =>
    match n with
    | 0 => exact .inl .nil
    | 1 => exact .inr ⟨[], b, rfl, hb, .nil⟩
    | n + 2 =>
      rcases ih n with h | ⟨a, d, h, hd, ha⟩
      · exact .inl (.pair hb hc h)
      · exact .inr ⟨b :: c :: a, d, by simp [h], hd, .pair hb hc ha⟩

end Paired

/-- What stands at column `x` of a paired row. -/
inductive Around (x : Nat) : List Cell → Prop
  | single {a c r} : a.length = x → Paired a → c.Single → Paired r → Around x (a ++ c :: r)
  | base {a b c r} : a.length = x → Paired a → b.width = 2 → c.width = 0 → Paired r → Around x (a ++ b :: c :: r)
  | continuation {a b c r} : a.length + 1 = x → Paired a → b.width = 2 → c.width = 0 → Paired r →
      Around x (a ++ b :: c :: r)

theorem Around.cons {x : Nat} {c : Cell} {l : List Cell} (hc : c.Single) (h : Around x l) : Around (x + 1) (c :: l) := by
  cases h with
  | single ha hpa hs hr => exact .single (a := c :: _) (by simp [ha]) (.single hc hpa) hs hr
  | base ha hpa hb hd hr => exact .base (a := c :: _) (by simp [ha]) (.single hc hpa) hb hd hr
  | continuation ha hpa hb hd hr => exact .continuation (a := c :: _) (by simp [ha]) (.single hc hpa) hb hd hr

theorem Around.cons₂ {x : Nat} {b c : Cell} {l : List Cell} (hb : b.width = 2) (hc : c.width = 0) (h : Around x l) :
    Around (x + 2) (b :: c :: l) := by
  cases h with
  | single ha hpa hs hr => exact .single (a := b :: c :: _) (by simp [ha]) (.pair hb hc hpa) hs hr
  | base ha hpa hb' hd hr => exact .base (a := b :: c :: _) (by simp [ha]) (.pair hb hc hpa) hb' hd hr
  | continuation ha hpa hb' hd hr => exact .continuation (a := b :: c :: _) (by simp [ha]) (.pair hb hc hpa) hb' hd hr

theorem Paired.around {l : List Cell} (h : Paired l) {x : Nat} (hx : x < l.length) : Around x l := by
  induction h generalizing x with
  | nil => simp at hx
  | single hc hl ih =>
    cases x with
    | zero => exact .single (a := []) rfl .nil hc hl
    | succ x => exact (ih (by simpa using hx)).cons hc
  | pair hb hc hl ih =>
    match x with
    | 0 => exact .base (a := []) rfl .nil hb hc hl
    | 1 => exact .continuation (a := []) rfl .nil hb hc hl
    | x + 2 => exact (ih (by simpa using hx)).cons₂ hb hc

/-! ## Operations on the cells of a row -/

/-- The cells of `m` come from `l` or satisfy `p`. -/
def Over (p : Cell → Prop) (l m : List Cell) : Prop := m.length = l.length ∧ ∀ c ∈ m, c ∈ l ∨ p c

namespace Over

variable {p : Cell → Prop} {l m k : List Cell}

theorem refl : Over p l l := ⟨rfl, fun _ h => .inl h⟩

theorem trans (h : Over p l m) (h' : Over p m k) : Over p l k := by
  refine ⟨h'.1.trans h.1, ?_⟩
  intro c hc
  rcases h'.2 c hc with hm | hc
  · exact h.2 c hm
  · exact .inr hc

theorem set {c : Cell} (hc : p c) (x : Nat) : Over p l (l.set x c) := by
  refine ⟨List.length_set, ?_⟩
  intro d hd
  rcases List.mem_or_eq_of_mem_set hd with h | rfl
  · exact .inl h
  · exact .inr hc

end Over

/-- The cell has the default style or style `id`. -/
def InStyle (id : StyleId) (c : Cell) : Prop := c.styleId = 0 ∨ c.styleId = id

/-- `fixup_wide_char_at`. -/
def unpair (x : Nat) (l : List Cell) : List Cell :=
  match l[x]? with
  | some c =>
    if c.width = 2 then (l.set (x + 1) {}).set x {}
    else if c.width = 0 ∧ x > 0 then (l.set (x - 1) {}).set x {}
    else l
  | none => l

theorem unpair_over {p : Cell → Prop} (h0 : p {}) (x : Nat) (l : List Cell) : Over p l (unpair x l) := by
  unfold unpair
  split
  · split
    · exact (Over.set h0 _).trans (.set h0 _)
    · split
      · exact (Over.set h0 _).trans (.set h0 _)
      · exact .refl
  · exact .refl

theorem unpair_length (x : Nat) (l : List Cell) : (unpair x l).length = l.length :=
  (unpair_over (p := fun _ => True) trivial x l).1

/-- After the fixup no pair contains column `x`. -/
theorem Paired.unpair {l : List Cell} (h : Paired l) {x : Nat} (hx : x < l.length) :
    ∃ a c r, unpair x l = a ++ c :: r ∧ a.length = x ∧ Paired a ∧ c.Single ∧ Paired r := by
  have hblank : ({} : Cell).Single := single_blank 0
  cases h.around hx with
  | @single a c r ha hpa hc hr =>
    subst ha
    exact ⟨a, c, r, by simp [Retach.unpair, hc.1, hc.2], rfl, hpa, hc, hr⟩
  | @base a b c r ha hpa hb hc hr =>
    subst ha
    exact ⟨a, {}, {} :: r, by simp [Retach.unpair, hb], rfl, hpa, hblank, .single hblank hr⟩
  | @continuation a b c r ha hpa hb hc hr =>
    subst ha
    exact ⟨a ++ [{}], {}, r, by simp [Retach.unpair, hc], by simp, hpa.append (.single hblank .nil), hblank, hr⟩

/-- A fixup after column 0 of a suffix leaves what is before the suffix. -/
theorem unpair_append (a l : List Cell) {x : Nat} (hx : 0 < x) : unpair (a.length + x) (a ++ l) = a ++ unpair x l := by
  unfold unpair
  rw [List.getElem?_append_right (by omega), Nat.add_sub_cancel_left]
  split
  · have hset (i : Nat) (m : List Cell) (c : Cell) : (a ++ m).set (a.length + i) c = a ++ m.set i c := by
      rw [List.set_append_right _ _ (by omega), Nat.add_sub_cancel_left]
    split
    · rw [Nat.add_assoc, hset, hset]
    · simp only [show a.length + x > 0 by omega, hx, and_true]
      split
      · rw [show a.length + x - 1 = a.length + (x - 1) by omega, hset, hset]
      · rfl
  · rfl

/-! ### Writing -/

/-- The second cell of a wide character. -/
def Cell.continuation (cell : Cell) : Cell := { c := '\x00', styleId := cell.styleId, width := 0 }

/-- `set_cell`. -/
def writeCell (x : Nat) (cell : Cell) (l : List Cell) : List Cell :=
  let m := (unpair x l).set x cell
  if cell.width = 2 ∧ x + 1 < l.length then (unpair (x + 1) m).set (x + 1) cell.continuation else m

theorem writeCell_over {p : Cell → Prop} (h0 : p {}) (x : Nat) {cell : Cell} (hc : p cell) (hcont : p cell.continuation)
    (l : List Cell) : Over p l (writeCell x cell l) := by
  have hm : Over p l ((unpair x l).set x cell) := (unpair_over h0 x l).trans (.set hc x)
  unfold writeCell
  dsimp only
  split
  · exact hm.trans ((unpair_over h0 _ _).trans (.set hcont _))
  · exact hm

theorem Paired.writeCell {l : List Cell} (h : Paired l) {x : Nat} {cell : Cell} (hx : x < l.length)
    (h0 : cell.width ≠ 0) (h2 : cell.width = 2 → x + 1 < l.length) : Paired (writeCell x cell l) := by
  obtain ⟨a, c, r, hu, rfl, hpa, hc, hr⟩ := h.unpair hx
  have hlen : l.length = a.length + (r.length + 1) := by
    rw [← unpair_length a.length l, hu, List.length_append, List.length_cons]
  have hm : (Retach.unpair a.length l).set a.length cell = a ++ cell :: r := by rw [hu]; simp
  unfold Retach.writeCell
  dsimp only
  rw [hm]
  split
  next hw =>
    have hr1 : 0 < r.length := by omega
    obtain ⟨a', d, r', hu', ha', hpa', hd, hr'⟩ := hr.unpair hr1
    obtain rfl := List.eq_nil_of_length_eq_zero ha'
    -- the fixup of the second column sees the new base before it, and `r`
    -- does not start with a continuation
    have hfix : Retach.unpair (a.length + 1) (a ++ cell :: r) = a ++ cell :: Retach.unpair 0 r := by
      rw [unpair_append _ _ Nat.one_pos]
      obtain ⟨e, r, rfl⟩ := List.exists_cons_of_length_pos hr1
      simp [Retach.unpair, hr.head]
      split <;> rfl
    rw [hfix, hu']
    simp only [List.nil_append]
    rw [List.set_append_right _ _ (by omega)]
    simp only [Nat.add_sub_cancel_left, List.set_cons_succ, List.set_cons_zero]
    exact hpa.append (.pair hw.1 rfl hr')
  next hw =>
    refine hpa.append (.single ⟨h0, fun h => hw ⟨h, h2 h⟩⟩ hr)

/-- The last column rewritten, unless a wide character ends there. -/
theorem Paired.set_last {l : List Cell} (h : Paired l) {x : Nat} {b cell : Cell} (hx : l.length = x + 1)
    (hb : l[x]? = some b) (hw : b.width ≠ 0) (hc : cell.Single) : Paired (l.set x cell) := by
  cases h.around (show x < l.length by omega) with
  | @single a c r ha hpa _ hr =>
    rw [List.length_append, List.length_cons] at hx
    obtain rfl : r = [] := List.eq_nil_of_length_eq_zero (by omega)
    subst ha
    simpa using hpa.append (.single hc .nil)
  | @base a b c r ha _ _ _ _ =>
    simp only [List.length_append, List.length_cons] at hx
    omega
  | @continuation a b' c r ha _ _ hc0 _ =>
    subst ha
    rw [List.getElem?_append_right (by omega)] at hb
    simp only [Nat.add_sub_cancel_left, List.getElem?_cons_succ, List.getElem?_cons_zero, Option.some.injEq] at hb
    exact absurd (hb ▸ hc0) hw

/-! ### Erasing -/

/-- `erase_cells` for `lo < hi`. -/
def eraseRange (lo hi : Nat) (blank : Cell) (l : List Cell) : List Cell :=
  fill lo (hi - lo) blank (if hi < l.length then unpair hi (unpair lo l) else unpair lo l)

theorem fill_over {p : Cell → Prop} {lo n : Nat} {blank : Cell} {l : List Cell} (hb : p blank)
    (h : lo + n ≤ l.length) : Over p l (fill lo n blank l) := by
  refine ⟨fill_length _ h, ?_⟩
  intro c hc
  rcases mem_fill hc with hc | rfl
  · exact .inl hc
  · exact .inr hb

theorem eraseRange_over {p : Cell → Prop} (h0 : p {}) {lo hi : Nat} {blank : Cell} (hb : p blank) {l : List Cell}
    (hlo : lo < hi) (hhi : hi ≤ l.length) : Over p l (eraseRange lo hi blank l) := by
  unfold eraseRange
  have hu : Over p l (unpair lo l) := unpair_over h0 _ _
  split
  · have hu' := hu.trans (unpair_over h0 hi (unpair lo l))
    exact hu'.trans (fill_over hb (by rw [hu'.1]; omega))
  · exact hu.trans (fill_over hb (by rw [hu.1]; omega))

theorem Paired.eraseRange {l : List Cell} (h : Paired l) {lo hi : Nat} {blank : Cell} (hb : blank.Single)
    (hlo : lo < hi) (hhi : hi ≤ l.length) : Paired (eraseRange lo hi blank l) := by
  obtain ⟨a, c, r, hu, rfl, hpa, hc, hr⟩ := h.unpair (show lo < l.length by omega)
  have hlen : l.length = a.length + (r.length + 1) := by
    rw [← unpair_length a.length l, hu, List.length_append, List.length_cons]
  unfold Retach.eraseRange
  split
  next hlt =>
    obtain ⟨a', c', r', hu', ha', hpa', hc', hr'⟩ :=
      (Paired.single hc hr).unpair (x := hi - a.length) (by simp; omega)
    have hfix : Retach.unpair hi (a ++ c :: r) = a ++ (a' ++ c' :: r') := by
      rw [← hu', ← unpair_append _ _ (by omega), show a.length + (hi - a.length) = hi by omega]
    rw [hu, hfix, fill]
    simp only [List.take_left', List.append_assoc]
    rw [← List.append_assoc a a', List.drop_left' (by simp; omega)]
    exact hpa.append ((Paired.replicate hb _).append (.single hc' hr'))
  next hge =>
    rw [hu, fill, List.take_left' rfl, List.drop_eq_nil_of_le (by simp; omega), List.append_nil]
    exact hpa.append (.replicate hb _)

/-! ### Deleting and inserting -/

/-- A continuation at column `x` becomes `blank`, as does a base before it. -/
def dropOrphan (x : Nat) (blank : Cell) (l : List Cell) : List Cell :=
  match l[x]? with
  | some c =>
    if c.width = 0 then
      match (l.set x blank)[x - 1]? with
      | some b => if x > 0 ∧ b.width = 2 then (l.set x blank).set (x - 1) blank else l.set x blank
      | none => l.set x blank
    else l
  | none => l

/-- The cells after `n` deletions at column `x`. -/
def shiftLeft (x n : Nat) (blank : Cell) (l : List Cell) : List Cell :=
  l.take x ++ l.drop (x + n) ++ List.replicate n blank

/-- DCH. -/
def deleteCells (x n : Nat) (blank : Cell) (l : List Cell) : List Cell :=
  dropOrphan x blank (shiftLeft x n blank (unpair x l))

/-- The cells after `n` insertions at column `x`. -/
def shiftRight (x n : Nat) (blank : Cell) (l : List Cell) : List Cell :=
  l.take x ++ List.replicate n blank ++ (l.drop x).take (l.length - x - n)

/-- A base in the last column becomes `blank`, as does a pair that ends
there. -/
def cutLast (blank : Cell) (l : List Cell) : List Cell :=
  match l[l.length - 1]? with
  | some c => if c.width = 2 then l.set (l.length - 1) blank else dropOrphan (l.length - 1) blank l
  | none => l

/-- ICH. -/
def insertCells (x n : Nat) (blank : Cell) (l : List Cell) : List Cell :=
  cutLast blank (shiftRight x n blank (unpair x l))

theorem shiftLeft_succ {x : Nat} {l : List Cell} (n : Nat) (blank : Cell) (h : x + (n + 1) ≤ l.length) :
    shiftLeft x n blank (l.eraseIdx x ++ [blank]) = shiftLeft x (n + 1) blank l := by
  have htake : (l.eraseIdx x ++ [blank]).take x = l.take x := by
    rw [List.take_append_of_le_length (by rw [List.length_eraseIdx]; split <;> omega), List.eraseIdx_eq_take_drop_succ,
      List.take_append_of_le_length (by rw [List.length_take]; omega), List.take_take, Nat.min_self]
  have hdrop : (l.eraseIdx x ++ [blank]).drop (x + n) = l.drop (x + (n + 1)) ++ [blank] := by
    rw [List.drop_append_of_le_length (by rw [List.length_eraseIdx]; split <;> omega), List.eraseIdx_eq_take_drop_succ,
      List.drop_append, List.drop_eq_nil_of_le (by rw [List.length_take]; omega), List.nil_append, List.drop_drop,
      List.length_take, show x + 1 + (x + n - min x l.length) = x + (n + 1) by omega]
  simp only [shiftLeft, htake, hdrop, List.append_assoc, List.replicate_succ, List.cons_append, List.nil_append]

theorem shiftRight_succ {x : Nat} {l : List Cell} (n : Nat) (blank : Cell) (h : x + (n + 1) ≤ l.length) :
    shiftRight x n blank (l.dropLast.insertIdx x blank) = shiftRight x (n + 1) blank l := by
  have hlen : (l.dropLast.insertIdx x blank).length = l.length := by
    rw [List.length_insertIdx_of_le_length (by rw [List.length_dropLast]; omega), List.length_dropLast]
    omega
  have hins : l.dropLast.insertIdx x blank = l.dropLast.take x ++ blank :: l.dropLast.drop x :=
    insertIdx_eq_append blank (by rw [List.length_dropLast]; omega)
  have htake : l.dropLast.take x = l.take x := by
    rw [List.dropLast_eq_take, List.take_take, show min x (l.length - 1) = x by omega]
  have hx : (l.take x).length = x := by rw [List.length_take]; omega
  have hdrop : (l.dropLast.drop x).take (l.length - x - (n + 1)) = (l.drop x).take (l.length - x - (n + 1)) := by
    rw [List.dropLast_eq_take, List.drop_take, List.take_take,
      show min (l.length - x - (n + 1)) (l.length - 1 - x) = l.length - x - (n + 1) by omega]
  simp only [shiftRight]
  rw [hlen, hins, htake, List.take_left' hx, List.drop_left' hx, show l.length - x - n = l.length - x - (n + 1) + 1 by omega,
    List.take_succ_cons, hdrop, List.replicate_succ']
  simp only [List.append_assoc, List.cons_append, List.nil_append]

theorem dropOrphan_over {p : Cell → Prop} {blank : Cell} (hb : p blank) (x : Nat) (l : List Cell) :
    Over p l (dropOrphan x blank l) := by
  unfold dropOrphan
  split
  · split
    · split
      · split
        · exact (Over.set hb _).trans (.set hb _)
        · exact .set hb _
      · exact .set hb _
    · exact .refl
  · exact .refl

theorem shiftLeft_over {p : Cell → Prop} {blank : Cell} (hb : p blank) {x n : Nat} {l : List Cell} (h : x + n ≤ l.length) :
    Over p l (shiftLeft x n blank l) := by
  refine ⟨by simp [shiftLeft]; omega, ?_⟩
  intro c hc
  simp only [shiftLeft, List.mem_append, List.mem_replicate] at hc
  rcases hc with (hc | hc) | ⟨-, rfl⟩
  · exact .inl (List.mem_of_mem_take hc)
  · exact .inl (List.mem_of_mem_drop hc)
  · exact .inr hb

theorem deleteCells_over {p : Cell → Prop} (h0 : p {}) {blank : Cell} (hb : p blank) {x n : Nat} {l : List Cell}
    (h : x + n ≤ l.length) : Over p l (deleteCells x n blank l) := by
  have hu : Over p l (unpair x l) := unpair_over h0 x l
  exact (hu.trans (shiftLeft_over hb (by rw [hu.1]; exact h))).trans (dropOrphan_over hb _ _)

theorem shiftRight_over {p : Cell → Prop} {blank : Cell} (hb : p blank) {x n : Nat} {l : List Cell}
    (h : x + n ≤ l.length) : Over p l (shiftRight x n blank l) := by
  refine ⟨by simp [shiftRight]; omega, ?_⟩
  intro c hc
  simp only [shiftRight, List.mem_append, List.mem_replicate] at hc
  rcases hc with (hc | ⟨-, rfl⟩) | hc
  · exact .inl (List.mem_of_mem_take hc)
  · exact .inr hb
  · exact .inl (List.mem_of_mem_drop (List.mem_of_mem_take hc))

theorem cutLast_over {p : Cell → Prop} {blank : Cell} (hb : p blank) (l : List Cell) : Over p l (cutLast blank l) := by
  unfold cutLast
  split
  · split
    · exact .set hb _
    · exact dropOrphan_over hb _ _
  · exact .refl

theorem insertCells_over {p : Cell → Prop} (h0 : p {}) {blank : Cell} (hb : p blank) {x n : Nat} {l : List Cell}
    (h : x + n ≤ l.length) : Over p l (insertCells x n blank l) := by
  have hu : Over p l (unpair x l) := unpair_over h0 x l
  exact (hu.trans (shiftRight_over hb (by rw [hu.1]; exact h))).trans (cutLast_over hb _)

/-- A paired row does not end with a base. -/
theorem Paired.last {l : List Cell} (h : Paired l) {b : Cell} (hb : l[l.length - 1]? = some b) : b.width ≠ 2 := by
  intro hw
  obtain ⟨c, hc, -⟩ := h.base hb hw
  have := (List.getElem?_eq_some_iff.1 hc).1
  omega

theorem Paired.deleteCells {l : List Cell} (h : Paired l) {x n : Nat} {blank : Cell} (hb : blank.Single)
    (hx : x < l.length) : Paired (deleteCells x n blank l) := by
  obtain ⟨a, c, r, hu, rfl, hpa, hc, hr⟩ := h.unpair hx
  have hshift : shiftLeft a.length n blank (Retach.unpair a.length l) =
      a ++ ((c :: r).drop n ++ List.replicate n blank) := by
    rw [hu, shiftLeft, List.take_left' rfl, List.drop_append, List.drop_eq_nil_of_le (by omega)]
    simp
  unfold Retach.deleteCells
  rw [hshift]
  have hrep : Paired (List.replicate n blank) := .replicate hb n
  rcases (Paired.single hc hr).drop n with hm | ⟨d, m, hm, hd, hpm⟩
  · have hpm := hm.append hrep
    generalize (c :: r).drop n ++ List.replicate n blank = m at hpm
    cases m with
    | nil => simpa [dropOrphan] using hpa
    | cons d m => simpa [dropOrphan, hpm.head] using hpa.append hpm
  · rw [hm]
    have hres : dropOrphan a.length blank (a ++ (d :: m ++ List.replicate n blank)) =
        a ++ (blank :: m ++ List.replicate n blank) := by
      simp only [dropOrphan, List.cons_append, List.getElem?_append_right (Nat.le_refl _), Nat.sub_self,
        List.getElem?_cons_zero, hd, ↓reduceIte, List.set_append_right _ _ (Nat.le_refl _), List.set_cons_zero]
      split
      next b hb' =>
        have hnot : ¬ (a.length > 0 ∧ b.width = 2) := by
          rintro ⟨hpos, hw⟩
          rw [List.getElem?_append_left (by omega)] at hb'
          exact hpa.last hb' hw
        rw [if_neg hnot]
      next => rfl
    rw [hres]
    exact hpa.append ((Paired.single hb hpm).append hrep)

/-- The last column of a paired row, or of one that ends with a base. -/
theorem Paired.cutLast {l : List Cell} (h : Paired l) {blank : Cell} (hb : blank.Single) : Paired (cutLast blank l) := by
  rcases Nat.eq_zero_or_pos l.length with h0 | hpos
  · obtain rfl := List.eq_nil_of_length_eq_zero h0
    exact h
  generalize hlast : l.length - 1 = last
  cases h.around (show last < l.length by omega) with
  | @single a c r ha hpa hc hr =>
    simp only [List.length_append, List.length_cons] at hlast
    obtain rfl : r = [] := List.eq_nil_of_length_eq_zero (by omega)
    simpa [Retach.cutLast, dropOrphan, hc.1, hc.2] using hpa.append (.single hc .nil)
  | @base a b c r ha hpa hb' hc hr =>
    simp only [List.length_append, List.length_cons] at hlast
    omega
  | @continuation a b c r ha hpa hb' hc hr =>
    simp only [List.length_append, List.length_cons] at hlast
    obtain rfl : r = [] := List.eq_nil_of_length_eq_zero (by omega)
    simpa [Retach.cutLast, dropOrphan, hb', hc] using hpa.append (.single hb (.single hb .nil))

theorem cutLast_base {a : List Cell} {b blank : Cell} (hb : b.width = 2) : cutLast blank (a ++ [b]) = a ++ [blank] := by
  simp [cutLast, hb]

theorem Paired.insertCells {l : List Cell} (h : Paired l) {x n : Nat} {blank : Cell} (hb : blank.Single)
    (hx : x < l.length) : Paired (insertCells x n blank l) := by
  obtain ⟨a, c, r, hu, rfl, hpa, hc, hr⟩ := h.unpair hx
  have hpre : Paired (a ++ List.replicate n blank) := hpa.append (.replicate hb n)
  have hshift : shiftRight a.length n blank (Retach.unpair a.length l) =
      a ++ List.replicate n blank ++ (c :: r).take (r.length + 1 - n) := by
    rw [hu, shiftRight, List.take_left' rfl, List.drop_left' rfl]
    simp only [List.length_append, List.length_cons, Nat.add_sub_cancel_left]
  unfold Retach.insertCells
  rw [hshift]
  rcases (Paired.single hc hr).take (r.length + 1 - n) with hm | ⟨m, b, hm, hb', hpm⟩
  · exact (hpre.append hm).cutLast hb
  · rw [hm, ← List.append_assoc, cutLast_base hb']
    exact (hpre.append hpm).append (.single hb .nil)

/-! ### Changing the number of columns -/

/-- `fix_wide_char_orphan_at_boundary`. -/
def fixBoundary (cols : Nat) (l : List Cell) : List Cell :=
  if cols = 0 ∨ l.length ≤ cols then l
  else match l[cols - 1]? with
  | some c =>
    if c.width = 2 then l.set (cols - 1) {}
    else if 0 < cols - 1 ∧ c.width = 0 then (l.set (cols - 1) {}).set (cols - 1 - 1) {}
    else l
  | none => l

/-- In the columns that stay it is the fixup of the last one of them, and behind
them it changes nothing. -/
theorem fixBoundary_get {cols : Nat} {l : List Cell} (hcols : 0 < cols) (hcut : cols < l.length) (x : Nat) :
    (fixBoundary cols l)[x]? = if x < cols then (unpair (cols - 1) l)[x]? else l[x]? := by
  have hlast : l[cols - 1]? = some l[cols - 1] := List.getElem?_eq_getElem (by omega)
  simp only [fixBoundary, unpair, hlast, if_neg (show ¬ (cols = 0 ∨ l.length ≤ cols) by omega)]
  by_cases hbase : l[cols - 1].width = 2
  · rw [if_pos hbase, if_pos hbase]
    split
    · rw [List.set_comm _ _ (by omega), List.getElem?_set_ne (show cols - 1 + 1 ≠ x by omega)]
    · rw [List.getElem?_set_ne (by omega)]
  rw [if_neg hbase, if_neg hbase]
  by_cases hcont : 0 < cols - 1 ∧ l[cols - 1].width = 0
  · rw [if_pos hcont, if_pos hcont.symm]
    split
    · rw [List.set_comm _ _ (by omega)]
    · rw [List.getElem?_set_ne (by omega), List.getElem?_set_ne (by omega)]
  · have hcont' : ¬ (l[cols - 1].width = 0 ∧ cols - 1 > 0) := fun h => hcont h.symm
    rw [if_neg hcont, if_neg hcont', ite_self]

/-- A row's cells brought to `cols` columns. -/
def fit (cols : Nat) (l : List Cell) : List Cell :=
  (fixBoundary cols l).take cols ++ List.replicate (cols - l.length) ({} : Cell)

theorem fixBoundary_over {p : Cell → Prop} (h0 : p {}) (cols : Nat) (l : List Cell) : Over p l (fixBoundary cols l) := by
  unfold fixBoundary
  split
  · exact .refl
  · split
    · split
      · exact .set h0 _
      · split
        · exact (Over.set h0 _).trans (.set h0 _)
        · exact .refl
    · exact .refl

theorem fixBoundary_length (cols : Nat) (l : List Cell) : (fixBoundary cols l).length = l.length :=
  (fixBoundary_over (p := fun _ => True) trivial cols l).1

theorem fit_length (cols : Nat) (l : List Cell) : (fit cols l).length = cols := by
  have := fixBoundary_length cols l
  simp [fit]
  omega

theorem mem_fit {cols : Nat} {l : List Cell} {c : Cell} (h : c ∈ fit cols l) : c ∈ l ∨ c = {} := by
  simp only [fit, List.mem_append, List.mem_replicate] at h
  rcases h with h | ⟨-, rfl⟩
  · exact (fixBoundary_over (p := (· = {})) rfl cols l).2 c (List.mem_of_mem_take h)
  · exact .inr rfl

theorem Paired.fit {l : List Cell} (h : Paired l) (cols : Nat) : Paired (fit cols l) := by
  have hblank : ({} : Cell).Single := single_blank 0
  refine append ?_ (.replicate hblank _)
  unfold fixBoundary
  rcases Nat.eq_zero_or_pos cols with rfl | hpos
  · simpa using Paired.nil
  rcases Nat.lt_or_ge cols l.length with hlt | hge
  · rw [if_neg (by omega)]
    obtain ⟨last, rfl⟩ : ∃ last, cols = last + 1 := ⟨cols - 1, by omega⟩
    simp only [Nat.add_sub_cancel]
    cases h.around (show last < l.length by omega) with
    | @single a c r ha hpa hc hr =>
      subst ha
      simpa [hc.1, hc.2, List.take_length_add_append] using hpa.append (.single hc .nil)
    | @base a b c r ha hpa hb hc hr =>
      subst ha
      simpa [hb, List.take_length_add_append] using hpa.append (.single hblank .nil)
    | @continuation a b c r ha hpa hb hc hr =>
      subst ha
      simpa [hc, Nat.add_assoc, List.take_length_add_append] using hpa.append (.single hblank (.single hblank .nil))
  · rw [if_pos (.inr hge), List.take_of_length_le hge]
    exact h

end Retach
