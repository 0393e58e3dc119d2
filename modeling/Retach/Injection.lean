import Retach.Redraw
import Retach.Pending
/-!
# Scrollback sent to a terminal

History lines are written on the rows of the terminal and scrolled off. Each
line becomes a row of the terminal's scrollback as it was, except that erasing
to the end of the line takes the last column of a line that fills its row.
-/

open Checked Lists

namespace Retach

/-! ## Lines -/

/-- A line of history: a row, and the table with its styles. -/
structure Line where
  row : Row
  table : StyleTable

namespace Line

def events (l : Line) : List Event := renderLine l.row l.table

theorem events_eq (l : Line) : l.events = (paintRow l.table l.row 0 0 l.row.cells).1 ++
    if (paintRow l.table l.row 0 0 l.row.cells).2 ≠ 0 then [.sgrReset] else [] := rfl

/-- The cells of the row as they look, filled up with blanks. -/
def shown (cols : Nat) (l : Line) : List (Char × Nat × Style) :=
  l.row.cells.map (Cell.shown l.table) ++ List.replicate (cols - l.row.cells.length) blankShown

/-- The last column of the row is blank. -/
def EndsBlank (cols : Nat) (l : Line) : Prop := (l.shown cols).getLast? = some blankShown

instance (cols : Nat) (l : Line) : Decidable (l.EndsBlank cols) := inferInstanceAs (Decidable (_ = _))

/-- A line that a terminal of `cols` columns shows in styles of the palette. -/
structure Sendable (W : UnicodeWidth) (P : Finset Style) (cols : Nat) (l : Line) : Prop where
  wellFormed : l.row.WellFormed W
  broad : BroadLast l.row.cells
  fits : l.row.cells.length ≤ cols
  table : l.table.Wf
  styles : ∀ c ∈ l.row.cells, l.table.get c.styleId ∈ P

end Line

/-- A grid that a frame shows in styles of the palette. -/
structure Grid.Showable (W : UnicodeWidth) (P : Finset Style) (g : Grid) : Prop where
  shape : g.Shape
  table : g.styleTable.Wf
  wellFormed : ∀ row ∈ g.visibleRows, row.WellFormed W
  broad : ∀ row ∈ g.visibleRows, BroadLast row.cells
  styles : g.palette ⊆ P

/-! ## What shows -/

/-- The scrollback as it looks. -/
def Grid.past (g : Grid) : List (List (Char × Nat × Style)) :=
  g.scrollbackRows.map fun row => row.cells.map (Cell.shown g.styleTable)

/-- Whole characters, as they look. -/
def Whole (r : List (Char × Nat × Style)) : Prop := Paired (r.map fun p => { c := p.1, width := p.2.1 })

theorem Paired.of_widths {l m : List Cell} (hl : Paired l) (h : m.map Cell.width = l.map Cell.width) : Paired m := by
  induction hl generalizing m with
  | nil =>
    obtain rfl := List.map_eq_nil_iff.1 h
    exact .nil
  | single hc _ ih =>
    obtain ⟨d, m, rfl, hd, hm⟩ := List.map_eq_cons_iff.1 h
    exact .single (by rwa [Cell.Single, hd]) (ih hm)
  | pair hb hc _ ih =>
    obtain ⟨d, m, rfl, hd, hm⟩ := List.map_eq_cons_iff.1 h
    obtain ⟨e, m, rfl, he, hm⟩ := List.map_eq_cons_iff.1 hm
    exact .pair (hd.trans hb) (he.trans hc) (ih hm)

theorem whole_shown {t : StyleTable} {l : List Cell} : Whole (l.map (Cell.shown t)) ↔ Paired l := by
  have hwidths : ((l.map (Cell.shown t)).map fun p => ({ c := p.1, width := p.2.1 } : Cell)).map Cell.width = l.map Cell.width := by
    rw [List.map_map, List.map_map]
    rfl
  exact ⟨fun h => h.of_widths hwidths.symm, fun h => h.of_widths hwidths⟩

theorem whole_blank (n : Nat) : Whole (List.replicate n blankShown) := by
  rw [Whole, List.map_replicate]
  exact .replicate (single_blank 0) n

theorem Whole.append {r r' : List (Char × Nat × Style)} (h : Whole r) (h' : Whole r') : Whole (r ++ r') := by
  rw [Whole, List.map_append]
  exact Paired.append h h'

theorem Line.Sendable.whole {W : UnicodeWidth} {P : Finset Style} {cols : Nat} {l : Line} (h : l.Sendable W P cols) :
    Whole (l.shown cols) := .append (whole_shown.2 h.wellFormed.paired) (whole_blank _)

/-! ## Erasing behind what is painted -/

/-- The columns of an old row from `n` up to `lo` are blank once it is written
before `n` and erased from `lo` on: they were, or held half of a wide character
whose other half goes. -/
def Gap (old : List (Char × Nat × Style)) (n lo : Nat) : Prop :=
  ∀ j p, n ≤ j → j < lo → old[j]? = some p → p = blankShown ∨ j = n ∧ p.2.1 = 0 ∨ j + 1 = lo ∧ p.2.1 = 2

/-- A broad character is written in one column, and erasing starts three columns
on, or in the last one: nothing of the old row is left between. -/
def Covers (cells : List Cell) (old : List (Char × Nat × Style)) : Prop :=
  ∀ i c, cells[i]? = some c → c.width = 3 → Gap old (i + 1) (min (i + 3) (old.length - 1))

instance (old : List (Char × Nat × Style)) (n lo : Nat) : Decidable (Gap old n lo) :=
  decidable_of_iff (∀ j < lo, n ≤ j → ∀ p ∈ old[j]?, p = blankShown ∨ j = n ∧ p.2.1 = 0 ∨ j + 1 = lo ∧ p.2.1 = 2)
    ⟨fun h j p hn hlo hp => h j hlo hn p hp, fun h j hlo hn p hp => h j p hn hlo hp⟩

instance (cells : List Cell) (old : List (Char × Nat × Style)) : Decidable (Covers cells old) :=
  decidable_of_iff (∀ i < cells.length, ∀ c ∈ cells[i]?, c.width = 3 → Gap old (i + 1) (min (i + 3) (old.length - 1)))
    ⟨fun h i c hc => h i (List.getElem?_eq_some_iff.1 hc).1 c hc, fun h i _ c hc => h i c hc⟩

theorem gap_of_le {old : List (Char × Nat × Style)} {n lo : Nat} (h : lo ≤ n) : Gap old n lo := fun _ _ hn hlo => by omega

theorem gap_blank (k n lo : Nat) : Gap (List.replicate k blankShown) n lo := fun _ _ _ _ hp =>
  .inl (List.mem_replicate.1 (List.mem_of_getElem? hp)).2

theorem covers_of_narrow {cells : List Cell} (h : ∀ c ∈ cells, c.width ≠ 3) (old : List (Char × Nat × Style)) : Covers cells old :=
  fun _ c hc h3 => absurd h3 (h c (List.mem_of_getElem? hc))

theorem covers_blank (cells : List Cell) (k : Nat) : Covers cells (List.replicate k blankShown) := fun i _ _ _ => gap_blank k (i + 1) _

/-- Row `i` of a terminal that shows `vis` gets the line as it is. -/
def Line.Lands (cols : Nat) (vis : List (List (Char × Nat × Style))) (i : Nat) (l : Line) : Prop :=
  l.EndsBlank cols ∧ ∀ old ∈ vis[i]?, Covers l.row.cells old

instance (cols : Nat) (vis : List (List (Char × Nat × Style))) (i : Nat) (l : Line) : Decidable (l.Lands cols vis i) :=
  inferInstanceAs (Decidable (_ ∧ ∀ old ∈ vis[i]?, Covers l.row.cells old))

/-- What a broad character covers, by how far the cells reach. -/
theorem Reaches.covers_iff {cells : List Cell} {n k : Nat} (h : Reaches cells n k) {old : List (Char × Nat × Style)} :
    Covers cells old ↔ Gap old n (min k (old.length - 1)) := by
  obtain ⟨hnone, rfl⟩ | ⟨i, hi, honly, rfl, rfl⟩ := h
  · exact ⟨fun _ => gap_of_le (Nat.min_le_left ..), fun _ => covers_of_narrow hnone old⟩
  · refine ⟨fun h => ?_, fun h j c hc h3 => ?_⟩
    · exact h i _ (List.getElem?_eq_getElem hi) ((honly i _ (List.getElem?_eq_getElem hi)).2 rfl)
    · obtain rfl := (honly j c hc).1 h3
      exact h

/-- Whole characters are erased as they are behind others. -/
theorem eraseRange_append (a : List Cell) {rest : List Cell} (h : Paired rest) (blank : Cell) (m : Nat) :
    eraseRange (a.length + m) (a ++ rest).length blank (a ++ rest) = a ++ eraseRange m rest.length blank rest := by
  have hunpair : unpair (a.length + m) (a ++ rest) = a ++ unpair m rest := by
    cases m with
    | succ m => exact unpair_append a rest m.succ_pos
    | zero =>
      cases h with
      | nil => simp [unpair]
      | single hc _ => simp [unpair, hc.1, hc.2]
      | pair hb _ _ => simp [unpair, hb]
  have hlen : (unpair m rest).length = rest.length := unpair_length m rest
  rw [eraseRange, if_neg (Nat.lt_irrefl _), eraseRange, if_neg (Nat.lt_irrefl _), hunpair, fill, fill, List.length_append,
    List.take_length_add_append, List.append_assoc, List.append_assoc, List.append_assoc, Nat.add_sub_add_left,
    List.drop_eq_nil_of_le (by rw [List.length_append]; omega), List.drop_eq_nil_of_le (by omega)]

/-- Whole characters erased from column `k` on: the columns before it stay, but
for the first half of a character that goes on there. -/
theorem eraseRange_tail {rest : List Cell} (h : Paired rest) {k : Nat} (hk : k < rest.length) :
    ∃ a, eraseRange k rest.length {} rest = a ++ List.replicate (rest.length - k) ({} : Cell) ∧ a.length = k ∧
      ∀ j < k, ∀ c, rest[j]? = some c → a[j]? = some (if j + 1 = k ∧ c.width = 2 then {} else c) := by
  have hlen : (unpair k rest).length = rest.length := unpair_length k rest
  refine ⟨(unpair k rest).take k, ?_, by rw [List.length_take]; omega, ?_⟩
  · rw [eraseRange, if_neg (Nat.lt_irrefl _), fill, List.drop_eq_nil_of_le (by omega), List.append_nil]
  -- no character that begins before column `k` goes on there
  have hwhole {a m : List Cell} (ha : Paired a) (hak : a.length = k) {j : Nat} (hj : j < k) {c : Cell} (hc : (a ++ m)[j]? = some c) :
      a[j]? = some (if j + 1 = k ∧ c.width = 2 then {} else c) := by
    rw [List.getElem?_append_left (by omega)] at hc
    rw [if_neg, hc]
    rintro ⟨hlast, h2⟩
    obtain ⟨d, hd, -⟩ := ha.base hc h2
    have := (List.getElem?_eq_some_iff.1 hd).1
    omega
  cases h.around hk with
  | @single a c r ha hpa hc hr =>
    intro j hj d hd
    have hunpair : unpair k (a ++ c :: r) = a ++ c :: r := by
      subst ha
      simp [unpair, hc.1, hc.2]
    rw [hunpair, List.take_left' ha]
    exact hwhole hpa ha hj hd
  | @base a b c r ha hpa hb hc hr =>
    intro j hj d hd
    have hunpair : unpair k (a ++ b :: c :: r) = a ++ {} :: {} :: r := by
      subst ha
      simp [unpair, hb]
    rw [hunpair, List.take_left' ha]
    exact hwhole hpa ha hj hd
  | @continuation a b c r ha hpa hb hc hr =>
    intro j hj d hd
    have hunpair : unpair k (a ++ b :: c :: r) = (a ++ [({} : Cell)]) ++ {} :: r := by
      rw [← ha]
      simp [unpair, hc]
    rw [hunpair, List.take_left' (by rw [List.length_append, List.length_singleton, ha])]
    by_cases hja : j < a.length
    · rw [List.getElem?_append_left hja] at hd ⊢
      rw [if_neg fun h => by omega, hd]
    · obtain rfl : j = a.length := by omega
      rw [List.getElem?_append_right (Nat.le_refl _), Nat.sub_self] at hd ⊢
      obtain rfl := Option.some.inj hd
      rw [if_pos ⟨ha, hb⟩]
      rfl

theorem healed_getElem? (l : List Cell) (j : Nat) :
    (healed l)[j]? = (l[j]?).map fun c => if j = 0 ∧ c.width = 0 then {} else c := by
  cases l with
  | nil => rfl
  | cons c l =>
    cases j with
    | zero => simp [healed]
    | succ j => simp [healed]

/-- The cells behind what was painted, erased from column `lo` on. -/
theorem eraseRange_gap {t t' : StyleTable} (h0 : t.get 0 = {}) {old : List Cell} {n k : Nat} (hwhole : Paired (healed (old.drop n)))
    (hsame : ∀ d ∈ healed (old.drop n), Cell.shown t d = Cell.shown t' d) (hk : k < (healed (old.drop n)).length) :
    (eraseRange k (healed (old.drop n)).length {} (healed (old.drop n))).map (Cell.shown t) =
        List.replicate (healed (old.drop n)).length blankShown ↔ Gap (old.map (Cell.shown t')) n (n + k) := by
  have hblank : Cell.shown t {} = blankShown := by rw [Cell.shown, h0, blankShown]
  obtain ⟨a, herase, ha, hget⟩ := eraseRange_tail hwhole hk
  have hcell (j : Nat) : (healed (old.drop n))[j]? = (old[n + j]?).map fun c => if j = 0 ∧ c.width = 0 then {} else c := by
    rw [healed_getElem?, List.getElem?_drop]
  have hall : (eraseRange k (healed (old.drop n)).length {} (healed (old.drop n))).map (Cell.shown t) =
      List.replicate (healed (old.drop n)).length blankShown ↔ ∀ d ∈ a, Cell.shown t d = blankShown := by
    rw [herase, List.map_append, List.map_replicate, hblank, List.append_eq_replicate_iff, List.length_map, List.length_replicate, ha,
      Nat.add_sub_cancel' (Nat.le_of_lt hk), List.eq_replicate_iff, List.length_map]
    simp [ha]
  rw [hall]
  constructor
  · intro h j p hn hlo hp
    obtain ⟨j, rfl⟩ := Nat.exists_eq_add_of_le hn
    rw [List.getElem?_map] at hp
    obtain ⟨c, hc, rfl⟩ := Option.map_eq_some_iff.1 hp
    by_cases hhalf : j = 0 ∧ c.width = 0
    · exact .inr (.inl ⟨by omega, hhalf.2⟩)
    have hrest := hcell j
    rw [hc, Option.map_some, if_neg hhalf] at hrest
    by_cases hcut : j + 1 = k ∧ c.width = 2
    · exact .inr (.inr ⟨by omega, hcut.2⟩)
    have hkept := hget j (by omega) c hrest
    rw [if_neg hcut] at hkept
    exact .inl ((hsame c (List.mem_of_getElem? hrest)).symm.trans (h c (List.mem_of_getElem? hkept)))
  · intro h d hd
    obtain ⟨j, hj⟩ := List.mem_iff_getElem?.1 hd
    have hjk : j < k := ha ▸ (List.getElem?_eq_some_iff.1 hj).1
    have hin : n + j < old.length := by
      rw [healed_length, List.length_drop] at hk
      omega
    have hold := List.getElem?_eq_getElem hin
    generalize old[n + j] = c at hold
    have hrest := hcell j
    rw [hold, Option.map_some] at hrest
    by_cases hhalf : j = 0 ∧ c.width = 0
    · rw [if_pos hhalf] at hrest
      rw [hget j hjk _ hrest, Option.some.injEq] at hj
      rw [← hj, if_neg (by simp), hblank]
    rw [if_neg hhalf] at hrest
    rw [hget j hjk _ hrest, Option.some.injEq] at hj
    rcases h (n + j) (Cell.shown t' c) (Nat.le_add_right ..) (by omega) (by rw [List.getElem?_map, hold]; rfl) with hc | hc | hc
    · rw [← hj]
      split
      · exact hblank
      · exact (hsame c (List.mem_of_getElem? hrest)).trans hc
    · exact absurd ⟨by omega, hc.2⟩ hhalf
    · rw [← hj, if_pos ⟨by omega, hc.2⟩, hblank]

/-- In a full row the last cell is erased. -/
theorem eraseRange_last {t : StyleTable} (h0 : t.get 0 = {}) {a : List Cell} (hne : a ≠ []) :
    (eraseRange (a.length - 1) a.length {} a).map (Cell.shown t) = a.map (Cell.shown t) ↔
      (a.map (Cell.shown t)).getLast? = some blankShown := by
  have hblank : Cell.shown t {} = blankShown := by rw [Cell.shown, h0, blankShown]
  obtain ⟨a, c, rfl⟩ := List.eq_nil_or_concat a |>.resolve_left hne
  rw [List.concat_eq_append, List.length_append, List.length_singleton, Nat.add_sub_cancel]
  have hlast : (eraseRange a.length (a.length + 1) {} (a ++ [c])).getLast? = some {} := by
    have hlen : (unpair a.length (a ++ [c])).length = a.length + 1 := by rw [unpair_length, List.length_append, List.length_singleton]
    rw [eraseRange, if_neg (by rw [List.length_append, List.length_singleton]; omega), fill, List.drop_eq_nil_of_le (by omega),
      List.append_nil, Nat.add_sub_cancel_left, List.replicate_one, List.getLast?_concat]
  constructor
  · intro hsame
    rw [← hsame, List.getLast?_map, hlast, Option.map_some, hblank]
  · intro hc
    rw [List.map_append, List.map_singleton, List.getLast?_concat, Option.some.injEq] at hc
    have hw : c.width = 1 := congrArg (fun p => p.2.1) hc
    have hunpair : unpair a.length (a ++ [c]) = a ++ [c] := by simp [unpair, hw]
    rw [eraseRange, if_neg (by rw [List.length_append, List.length_singleton]; omega), fill, hunpair, List.take_left' rfl,
      List.drop_eq_nil_of_le (by rw [List.length_append, List.length_singleton]; omega), List.append_nil, Nat.add_sub_cancel_left,
      List.map_append, List.map_append, List.replicate_one, List.map_singleton, List.map_singleton, hc, hblank]

namespace Screen

variable {W : UnicodeWidth} {P : Finset Style} {T T' s : Screen} {y : Nat}

theorem blankCell_default (h : s.state.currentStyle = {}) : s.blankCell = some ({}, s) := by
  rw [blankCell, h]
  rfl

/-- EL 0 and EL 2 in the default style. -/
theorem step_el (h : s.Inv) (hstyle : s.state.currentStyle = {}) {row : Row} (hrow : s.grid.HasRow s.grid.cursorY row)
    {n lo : Nat} (hlo : n = 0 ∧ lo = s.grid.cursorX ∨ n = 2 ∧ lo = 0) :
    ∃ row', s.step W (.el n) = some (s.onGrid (·.putRow s.grid.cursorY row')) ∧
      row'.cells = eraseRange lo row.cells.length {} row.cells := by
  have hlen := h.shape.row_len row hrow.mem
  have hlt : lo < s.grid.cols := by
    have := h.shape.cursor_x
    have := h.shape.cols_pos
    omega
  have herase := hrow.eraseCells hlen hlt (Nat.le_refl _) {}
  refine ⟨_, ?_, by rw [Row.erased_cells, hlen]⟩
  change s.csiEraseLine (param [[n]] 0 0) = _
  rw [csiEraseLine, blankCell_default hstyle]
  rcases hlo with ⟨rfl, rfl⟩ | ⟨rfl, rfl⟩ <;>
  · simp only [Option.bind_eq_bind, Option.bind_some]
    change (s.grid.eraseCells s.grid.cursorY _ s.grid.cols {}).bind _ = _
    rw [herase]
    rfl

end Screen

/-- The row rewritten in the default style, all of it. -/
theorem Drawing.rewritten {P : Finset Style} {T s : Screen} {y : Nat} (hp : Drawing P T y s) {row row' : Row}
    (hrow : s.grid.HasRow y row) (hover : Over (InStyle 0) row.cells row'.cells) (hpaired : Paired row'.cells)
    (hinv : (s.onGrid (·.putRow y row')).Inv) (hT : T.Inv) :
    Stroke P T y (row'.cells.map (Cell.shown s.grid.styleTable)) (s.onGrid (·.putRow y row')) := by
  have hself : s.onGrid (·.putRow y row') = s.drawn y ⟨row', s.grid.cursorX, s.grid.wrapPending, s.grid.styleTable,
      s.state.currentStyle, s.state.lastPrintedChar⟩ := by
    rw [Screen.drawn, ← hp.cursorY]
    rfl
  have hy : y < T.grid.rows := by
    obtain ⟨p, hs⟩ := hp.drawn
    rw [hs] at hrow
    exact hrow.1
  obtain ⟨old, hold, hlen⟩ := hT.shape.hasRow hy
  have hrowlen := hp.inv.shape.row_len row hrow.mem
  refine ⟨hself ▸ hp.redrawn hrow hover rfl (hself ▸ hinv), old, row', row'.cells, [], hold, hrow.putRow, (List.append_nil _).symm,
    rfl, hpaired, .nil, ?_, fun d hd => absurd hd List.not_mem_nil⟩
  rw [List.drop_eq_nil_of_le (by rw [List.length_map, hover.1, hrowlen, hlen, hp.cols]), healed]

/-- All of the row is painted. -/
theorem Stroke.view_full {P : Finset Style} {T s : Screen} {y : Nat} {done : List (Char × Nat × Style)}
    (hp : Stroke P T y done s) (hlen : done.length = s.grid.cols) : s.viewRow y = some done := by
  obtain ⟨old, row, a, rest, -, hrow, hsplit, hshown, -⟩ := hp.row
  have hrowlen := hp.inv.shape.row_len row hrow.mem
  have halen : a.length = done.length := by rw [← hshown, List.length_map]
  obtain rfl : rest = [] := by
    rw [hsplit, List.length_append] at hrowlen
    exact List.length_eq_zero_iff.1 (by omega)
  rw [List.append_nil] at hsplit
  rw [Screen.viewRow, hrow.getElem?, Option.map_some, hsplit, hshown]

/-- The painted row erased from the cursor on. -/
theorem Stroke.erase {W : UnicodeWidth} {P : Finset Style} {T s : Screen} {y : Nat} {done : List (Char × Nat × Style)}
    (hp : Stroke P T y done s) (hT : T.Inv) (hstyle : s.state.currentStyle = {}) {row : Row} (hrow : s.grid.HasRow y row) :
    ∃ T', s.step W (.el 0) = some T' ∧ T'.state.currentStyle = {} ∧
      Stroke P T y ((eraseRange s.grid.cursorX row.cells.length {} row.cells).map (Cell.shown s.grid.styleTable)) T' ∧
      T'.viewRow y = some ((eraseRange s.grid.cursorX row.cells.length {} row.cells).map (Cell.shown s.grid.styleTable)) := by
  have hrowlen := hp.inv.shape.row_len row hrow.mem
  have hlt : s.grid.cursorX < row.cells.length := hrowlen.symm ▸ hp.inv.shape.cursor_x
  rw [← hp.cursorY] at hrow
  obtain ⟨row', hel, hcells⟩ := Screen.step_el (W := W) hp.inv hstyle hrow (.inl ⟨rfl, rfl⟩)
  have hinv := steps_inv (Screen.step_steps W hp.inv hel) hp.inv
  rw [hp.cursorY] at hel hinv hrow
  have hpaired : Paired row'.cells := by
    obtain ⟨-, row₀, -, -, -, hrow₀, -, -, hwhole, -⟩ := hp.row
    obtain rfl : row = row₀ := Option.some.inj (hrow.getElem?.symm.trans hrow₀.getElem?)
    rw [hcells]
    exact hwhole.eraseRange (single_blank 0) hlt (Nat.le_refl _)
  have hover : Over (InStyle 0) row.cells row'.cells := by
    rw [hcells]
    exact eraseRange_over (.inl rfl) (.inl rfl) hlt (Nat.le_refl _)
  have hp' := hp.toDrawing.rewritten hrow hover hpaired hinv hT
  rw [hcells] at hp'
  refine ⟨_, hel, hstyle, hp', hp'.view_full ?_⟩
  rw [List.length_map, ← hcells, hover.1, hrowlen]
  rfl

/-- The cursor's row blanked, whatever it holds. -/
theorem Screen.step_blank {W : UnicodeWidth} {P : Finset Style} {T : Screen} {y : Nat} (h : T.Inv) (hfits : T.Fits P)
    (hstyle : T.state.currentStyle = {}) (hy : T.grid.cursorY = y) :
    ∃ T', T.step W (.el 2) = some T' ∧ T'.state.currentStyle = {} ∧
      Stroke P T y (List.replicate T.grid.cols blankShown) T' ∧ T'.viewRow y = some (List.replicate T.grid.cols blankShown) := by
  obtain ⟨row, hrow, hlen⟩ := h.shape.hasRow h.shape.cursor_y
  obtain ⟨row', hel, hcells⟩ := Screen.step_el (W := W) h hstyle hrow (.inr ⟨rfl, rfl⟩)
  have hinv := steps_inv (Screen.step_steps W h hel) h
  have hblank : row'.cells = List.replicate T.grid.cols {} := by
    rw [hcells, eraseRange, if_neg (Nat.lt_irrefl _), fill, List.take_zero, List.nil_append, Nat.sub_zero, Nat.zero_add,
      List.drop_eq_nil_of_le (by rw [unpair_length]), List.append_nil, hlen]
  have hpos : 0 < row.cells.length := hlen.symm ▸ h.shape.cols_pos
  have hover : Over (InStyle 0) row.cells row'.cells := by
    rw [hcells]
    exact eraseRange_over (.inl rfl) (.inl rfl) hpos (Nat.le_refl _)
  have hp := (Drawing.start h hfits).rewritten hrow hover (hblank ▸ .replicate (single_blank 0) _) hinv h
  rw [hblank, List.map_replicate, Cell.shown, h.table.get_zero] at hp
  rw [hy] at hp hel
  exact ⟨_, hel, hstyle, hp, hp.view_full (by rw [List.length_replicate]; rfl)⟩

/-- The row erased behind what is painted: it shows what was painted, followed by
blanks, if it is to end with a blank and nothing is left beside a broad cell. -/
theorem Stroke.erase_behind {W : UnicodeWidth} {P : Finset Style} {T s : Screen} {y k : Nat} {b : List (Char × Nat × Style)}
    (hp : Stroke P T y b s) (hT : T.Inv) (hstyle : s.state.currentStyle = {}) {cells : List Cell} (hk : Reaches cells b.length k)
    (hx : s.grid.cursorX = Screen.landing T.grid k) {old : List (Char × Nat × Style)} (hold : T.viewRow y = some old) :
    ∃ T' r, s.step W (.el 0) = some T' ∧ T'.state.currentStyle = {} ∧ Stroke P T y r T' ∧ T'.viewRow y = some r ∧
      (r = b ++ List.replicate (T.grid.cols - b.length) blankShown ↔
        (b ++ List.replicate (T.grid.cols - b.length) blankShown).getLast? = some blankShown ∧ Covers cells old) := by
  obtain ⟨oldRow, row, a, rest, hget, hrow, hsplit, hdone, -, hrest, hbehind, hsame⟩ := hp.row
  obtain ⟨T', hel, hstyle', hp', hview⟩ := hp.erase (W := W) hT hstyle hrow
  refine ⟨T', _, hel, hstyle', hp', hview, ?_⟩
  have halen : a.length = b.length := by rw [← hdone, List.length_map]
  have hrowlen := hp.inv.shape.row_len row hrow.mem
  have hpos := hp.inv.shape.cols_pos
  have holdlen := hT.shape.row_len oldRow hget.mem
  obtain rfl : oldRow.cells.map (Cell.shown T.grid.styleTable) = old := by
    rw [Screen.viewRow, hget.getElem?, Option.map_some] at hold
    exact Option.some.inj hold
  have hreach : b.length ≤ k := by
    obtain ⟨-, rfl⟩ | ⟨i, -, -, hb, rfl⟩ := hk
    · exact Nat.le_refl _
    · omega
  rw [hsplit, List.length_append, hp.cols] at hrowlen
  rw [hp.cols] at hpos
  rw [hk.covers_iff, List.length_map, holdlen, hsplit, hx, Screen.landing]
  by_cases hfull : rest = []
  · -- the row is full, and its last cell is erased
    rw [hfull, List.length_nil, Nat.add_zero] at hrowlen
    have hlo : (if k < T.grid.cols then k else T.grid.cols - 1) = a.length - 1 := by
      rw [if_neg (by omega), hrowlen]
    rw [hfull, List.append_nil, hlo, ← hdone, List.length_map, hrowlen, Nat.sub_self, List.replicate_zero, List.append_nil,
      ← hrowlen, eraseRange_last hp.inv.table.get_zero fun h => by rw [h, List.length_nil] at hrowlen; omega]
    exact ⟨fun h => ⟨h, gap_of_le (by omega)⟩, fun h => h.1⟩
  have hlen : 0 < rest.length := List.length_pos_iff.2 hfull
  obtain ⟨m, hm⟩ : ∃ m, min k (T.grid.cols - 1) = b.length + m := ⟨min k (T.grid.cols - 1) - b.length, by omega⟩
  have hlo : (if k < T.grid.cols then k else T.grid.cols - 1) = a.length + m := by split <;> omega
  have hlast : (b ++ List.replicate (T.grid.cols - b.length) blankShown).getLast? = some blankShown := by
    rw [List.getLast?_append, List.getLast?_replicate, if_neg (by omega), Option.some_or]
  rw [show T.grid.cols - b.length = rest.length by omega] at hlast ⊢
  rw [hlo, eraseRange_append a hrest, List.map_append, hdone, List.append_cancel_left_eq, hm]
  subst hbehind
  rw [eraseRange_gap hp.inv.table.get_zero hrest hsame (by omega)]
  exact ⟨fun h => ⟨hlast, h⟩, fun h => h.2⟩

namespace Screen

variable {W : UnicodeWidth} {P : Finset Style} {T T' s : Screen} {y : Nat} {cols rows limit : Nat}
  {past vis : List (List (Char × Nat × Style))}

theorem Inv.past_length (h : T.Inv) : T.grid.past.length = T.grid.scrollbackLen := by
  rw [Grid.past, List.length_map, h.shape.scrollback_length]

/-- What looks the same stays in the scrollback. -/
theorem Kept.past_eq (h : T.Kept T') (hT : T.Inv) : T'.grid.past = T.grid.past := by
  rw [Grid.past, Grid.past, h.scrollback]
  refine List.map_congr_left fun row hrow => List.map_congr_left fun c hc => ?_
  have huse : usesStyle (T.grid.scrollbackRows ++ SavedGrid.rows T.state.savedGrid) c.styleId = true :=
    usesStyle_iff.2 ⟨row, List.mem_append_left _ hrow, c, hc, rfl⟩
  have hget := (h.styles c.styleId huse (hT.held row (T.scrollback_mem hrow) c hc)).2
  simp only [Cell.shown, hget]

/-- What is painted followed by blanks, as the row of the line is shown. -/
theorem shown_of_painted {l : Line} {b : List (Char × Nat × Style)} (hchars : ∀ c, T.mapCharset c = c)
    (hlen : b.length ≤ l.row.cells.length) (hfits : l.row.cells.length ≤ cols)
    (hseen : b ++ List.replicate (l.row.cells.length - b.length) blankShown = l.row.cells.map (T.seen l.table)) :
    l.shown cols = b ++ List.replicate (cols - b.length) blankShown := by
  have hsame : T.seen l.table = Cell.shown l.table := by
    funext c
    rw [seen, hchars, Cell.shown]
  rw [Line.shown, ← hsame, ← hseen, List.append_assoc, List.replicate_append_replicate,
    show l.row.cells.length - b.length + (cols - l.row.cells.length) = cols - b.length by omega]

/-- A line feed in the last row of a screen that scrolls, with room in the
scrollback: the first row goes there. -/
theorem step_feed (h : T.Inv) (hstyle : T.state.currentStyle = {}) (hmain : T.state.inAltScreen = false)
    (htop : T.grid.scrollTop = 0) (hbottom : T.grid.scrollBottom + 1 = T.grid.rows)
    (hy : T.grid.cursorY = T.grid.scrollBottom) (hlimit : T.grid.scrollbackLen < T.grid.scrollbackLimit) {top : Row}
    {rest : List Row} (hvis : T.grid.visibleRows = top :: rest) :
    T.step W (.execute 0x0a) = some { T with
      grid := { T.grid with
        cells := T.grid.scrollbackRows ++ [top] ++ (rest ++ [.filled T.grid.cols {}])
        scrollbackLen := T.grid.scrollbackLen + 1
        wrapPending := false }
      scrolledOff := T.scrolledOff ++ T.displacedRow } := by
  have hrest : rest.length = T.grid.scrollBottom := by
    have := h.shape.visible_length
    rw [hvis, List.length_cons] at this
    omega
  let T₁ := T.onGrid (·.setWrapPending false)
  have h₁ : T₁.Inv := (Effect.cursor T.grid.cursorX T.grid.cursorY false h.shape.cursor_x h.shape.cursor_y).inv h
  have hvis₁ : T₁.grid.visibleRows = top :: rest := hvis
  have hscroll := h₁.shape.scrollUp_capture hvis₁ htop (Nat.lt_of_le_of_lt (Nat.zero_le _) hlimit) {}
  rw [show T₁.grid.scrollBottom = T.grid.scrollBottom from rfl, ← hrest, List.insertIdx_length_self, Grid.captured,
    if_neg (Nat.not_lt.2 (show T₁.grid.scrollbackLen + 1 ≤ T₁.grid.scrollbackLimit from hlimit))] at hscroll
  change T₁.advanceLine = _
  rw [advanceLine, if_pos (show T₁.grid.cursorY = T₁.grid.scrollBottom from hy), scrollUp,
    blankCell_default (show T₁.state.currentStyle = {} from hstyle)]
  simp only [Option.bind_eq_bind, Option.bind_some, show T₁.state.inAltScreen = false from hmain, hscroll]
  rfl

end Screen

/-- A line painted in the default style. -/
theorem Brush.line {W : UnicodeWidth} {P : Finset Style} {T s : Screen} {y cols : Nat} (hb : Brush P T y [] {} s) (hT : T.Inv)
    (hchars : ∀ c, T.mapCharset c = c) (hcols : T.grid.cols = cols) {l : Line} (hl : l.Sendable W P cols) :
    ∃ T' b k, s.process W l.events = some T' ∧ Stroke P T y b T' ∧ T'.state.currentStyle = {} ∧
      l.shown cols = b ++ List.replicate (cols - b.length) blankShown ∧ Reaches l.row.cells b.length k ∧
      T'.grid.cursorX = Screen.landing T.grid k := by
  have hreads : T.Reads W l.row := hl.wellFormed.reads (.inr hchars)
  rw [← hl.table.get_zero] at hb
  obtain ⟨T₁, b, hp⟩ := hb.paint hT hreads.marks (hl.wellFormed.laid hl.broad) hreads.widths hl.styles hl.table.get_zero rfl
    (by rw [List.length_nil, Nat.zero_add, hcols]; exact hl.fits)
  have hshown := Screen.shown_of_painted hchars hp.length_le hl.fits hp.seen
  obtain ⟨k, hk, hx⟩ := hp.x
  rw [List.length_nil, Nat.zero_add] at hx
  rw [l.events_eq, Screen.process_append, hp.run, Option.bind_some]
  by_cases hlast : (paintRow l.table l.row 0 0 l.row.cells).2 = 0
  · rw [if_neg (not_not_intro hlast)]
    have hstyle := hp.style
    rw [hlast, hl.table.get_zero] at hstyle
    exact ⟨T₁, b, k, rfl, hp.stroke, hstyle, hshown, hk, hx⟩
  · rw [if_pos hlast, Screen.process_one]
    obtain ⟨hreset, hp₂⟩ := hp.stroke.sgr (W := W) {}
    exact ⟨_, b, k, hreset, hp₂, rfl, hshown, hk, hx⟩

namespace Screen

variable {W : UnicodeWidth} {P : Finset Style} {T T' s : Screen} {y : Nat} {cols rows limit : Nat}
  {past vis : List (List (Char × Nat × Style))}

/-- Sent to a terminal that shows `vis`, the lines become the rows `new`: each as
it was exactly if it lands. -/
structure Delivers (cols : Nat) (vis : List (List (Char × Nat × Style))) (lines : List Line)
    (new : List (List (Char × Nat × Style))) : Prop where
  length : new.length = lines.length
  rows : ∀ (i : Nat) l r, lines[i]? = some l → new[i]? = some r → (r = l.shown cols ↔ l.Lands cols vis i)

namespace Delivers

variable {lines lines' : List Line} {new new' : List (List (Char × Nat × Style))}

theorem nil : Delivers cols vis [] [] := ⟨rfl, fun _ _ _ hl => by cases hl⟩

theorem cons (h : Delivers cols vis lines new) {l : Line} {r old : List (Char × Nat × Style)}
    (hr : r = l.shown cols ↔ l.EndsBlank cols ∧ Covers l.row.cells old) : Delivers cols (old :: vis) (l :: lines) (r :: new) where
  length := congrArg (· + 1) h.length
  rows := by
    rintro (_ | i) l' r' hl' hr'
    · obtain rfl := Option.some.inj hl'
      obtain rfl := Option.some.inj hr'
      rw [hr]
      simp [Line.Lands]
    · exact h.rows i l' r' hl' hr'

/-- The rest of the lines, sent to a blank terminal. -/
theorem append (h : Delivers cols vis lines new) (hfull : lines' ≠ [] → lines.length = vis.length) {m n : Nat}
    (h' : Delivers cols (List.replicate m (List.replicate n blankShown)) lines' new') :
    Delivers cols vis (lines ++ lines') (new ++ new') where
  length := by rw [List.length_append, List.length_append, h.length, h'.length]
  rows := by
    intro i l r hl hr
    by_cases hi : i < lines.length
    · rw [List.getElem?_append_left hi] at hl
      rw [List.getElem?_append_left (h.length ▸ hi)] at hr
      exact h.rows i l r hl hr
    · rw [List.getElem?_append_right (by omega)] at hl
      rw [List.getElem?_append_right (by rw [h.length]; omega), h.length] at hr
      have hvis := hfull fun hnil => by rw [hnil] at hl; cases hl
      rw [h'.rows _ l r hl hr, Line.Lands, Line.Lands, List.getElem?_eq_none (show vis.length ≤ i by omega)]
      refine and_congr_right fun _ => ⟨fun _ _ hold => absurd hold (Option.not_mem_none _), fun _ old hold => ?_⟩
      rw [(List.mem_replicate.1 (List.mem_of_getElem? hold)).2]
      exact covers_blank _ _

theorem eq_shown_iff (h : Delivers cols vis lines new) :
    new = lines.map (Line.shown cols) ↔ ∀ p ∈ lines.zipIdx, p.1.Lands cols vis p.2 := by
  constructor
  · rintro rfl ⟨l, i⟩ hp
    have hl : lines[i]? = some l := List.mem_zipIdx_iff_getElem?.1 hp
    exact (h.rows i l _ hl (by rw [List.getElem?_map, hl]; rfl)).1 rfl
  · intro hall
    apply List.ext_getElem?
    intro i
    rw [List.getElem?_map]
    cases hl : lines[i]? with
    | none => exact List.getElem?_eq_none (by rw [h.length]; exact List.getElem?_eq_none_iff.1 hl)
    | some l =>
      have hi : i < new.length := by
        rw [h.length]
        exact (List.getElem?_eq_some_iff.1 hl).1
      have hr := List.getElem?_eq_getElem hi
      rw [hr]
      exact congrArg some ((h.rows i l _ hl hr).2 (hall (l, i) (List.mem_zipIdx_iff_getElem?.2 hl)))

end Delivers

/-- A terminal in the default modes, all of whose main screen scrolls, with
what its scrollback and its rows show. -/
structure Stage (P : Finset Style) (cols rows limit : Nat) (past vis : List (List (Char × Nat × Style))) (T : Screen) :
    Prop where
  inv : T.Inv
  fits : T.Fits P
  modes : T.grid.modes = {}
  top : T.grid.scrollTop = 0
  bottom : T.grid.scrollBottom = rows - 1
  main : T.state.inAltScreen = false
  cols_eq : T.grid.cols = cols
  rows_eq : T.grid.rows = rows
  limit_eq : T.grid.scrollbackLimit = limit
  past_eq : T.grid.past = past
  vis_eq : T.grid.view = vis

namespace Stage

theorem addressed (h : Stage P cols rows limit past vis T) (y : Nat) : T.addressed y = y := by
  rw [Screen.addressed, h.modes]
  rfl

theorem mapCharset (h : Stage P cols rows limit past vis T) (c : Char) : T.mapCharset c = c := by
  rw [Screen.mapCharset, h.modes]
  rfl

theorem vis_length (h : Stage P cols rows limit past vis T) : vis.length = rows := by
  rw [← h.vis_eq, Grid.view, List.length_map, h.inv.shape.visible_length, h.rows_eq]

theorem past_length (h : Stage P cols rows limit past vis T) : past.length = T.grid.scrollbackLen := by
  rw [← h.past_eq, h.inv.past_length]

/-- CUP puts the cursor where it says. -/
theorem cup (h : Stage P cols rows limit past vis T) {x : Nat} (hx : x < cols) (hy : y < rows) :
    ∃ T', T.step W (.cup (y + 1) (x + 1)) = some T' ∧ Stage P cols rows limit past vis T' ∧ T'.grid.cursorX = x ∧
      T'.grid.cursorY = y ∧ T'.grid.wrapPending = false ∧ T'.state.currentStyle = T.state.currentStyle := by
  rw [← h.cols_eq] at hx
  rw [← h.rows_eq] at hy
  refine ⟨T.cursorAt x y, ?_, ?_, rfl, rfl, rfl, rfl⟩
  · rw [step_cup W h.inv hx hy, h.addressed]
  · exact { h with inv := (Effect.cursor x y false hx hy).inv h.inv }

/-- A row painted. -/
theorem stroke (h : Stage P cols rows limit past vis T) {done r : List (Char × Nat × Style)} (hp : Stroke P T y done s)
    (hr : s.viewRow y = some r) : Stage P cols rows limit past (vis.set y r) s := by
  have helse := hp.elsewhere h.inv
  have hy : y < T.grid.visibleRows.length := by
    obtain ⟨old, -, -, -, hold, -⟩ := hp.row
    rw [h.inv.shape.visible_length]
    exact hold.1
  refine { inv := hp.inv, fits := hp.fits, modes := helse.modes.trans h.modes
           top := helse.top.trans h.top, bottom := helse.bottom.trans h.bottom, main := helse.alt.trans h.main
           cols_eq := helse.cols.trans h.cols_eq, rows_eq := helse.rows.trans h.rows_eq
           limit_eq := helse.limit.trans h.limit_eq, past_eq := (helse.toKept.past_eq h.inv).trans h.past_eq, vis_eq := ?_ }
  apply List.ext_getElem?
  intro i
  rw [view_getElem?, ← h.vis_eq]
  by_cases hiy : i = y
  · rw [hiy, hr, List.getElem?_set_self (by rw [Grid.view, List.length_map]; exact hy)]
  · rw [helse.view i hiy, List.getElem?_set_ne (Ne.symm hiy), view_getElem?]

/-- A row of the terminal, by how it looks. -/
theorem row (h : Stage P cols rows limit past vis T) {old : List (Char × Nat × Style)} (hold : vis[y]? = some old) (hwhole : Whole old)
    {row : Row} (hrow : T.grid.HasRow y row) : Paired row.cells := by
  rw [← h.vis_eq, view_getElem?, viewRow, hrow.getElem?, Option.map_some, Option.some.injEq] at hold
  rw [← hold] at hwhole
  exact whole_shown.1 hwhole

/-- A line written on row `y`. -/
theorem write_line (h : Stage P cols rows limit past vis T) {old : List (Char × Nat × Style)} (hold : vis[y]? = some old)
    (hwhole : Whole old) {l : Line} (hl : l.Sendable W P cols) :
    ∃ T' r, T.process W (.cup (y + 1) 1 :: .sgrReset :: l.events ++ [.el 0]) = some T' ∧
      Stage P cols rows limit past (vis.set y r) T' ∧ T'.state.currentStyle = {} ∧
      (r = l.shown cols ↔ l.EndsBlank cols ∧ Covers l.row.cells old) := by
  have hcols : 0 < cols := h.cols_eq ▸ h.inv.shape.cols_pos
  have hy : y < rows := h.vis_length ▸ (List.getElem?_eq_some_iff.1 hold).1
  obtain ⟨T₁, hcup, h₁, hx₁, hy₁, hwrap₁, -⟩ := h.cup (W := W) hcols hy
  have hb₁ : Brush P T₁ y [] T₁.state.currentStyle T₁ := by
    rw [← hy₁] at hold ⊢
    exact .start h₁.inv h₁.fits hx₁ hwrap₁ fun row hrow => h₁.row hold hwhole hrow
  obtain ⟨hreset, hp₂⟩ := hb₁.toStroke.sgr {} (W := W)
  obtain ⟨T₂, hreset, hb₂⟩ : ∃ T₂, T₁.step W .sgrReset = some T₂ ∧ Brush P T₁ y [] {} T₂ :=
    ⟨_, hreset, hp₂, rfl, hb₁.x, hb₁.wrap⟩
  obtain ⟨T₃, b, k, hrun, hp₃, hstyle₃, hshown, hk, hx₃⟩ := hb₂.line h₁.inv h₁.mapCharset h₁.cols_eq hl
  have hview₁ : T₁.viewRow y = some old := by rw [← view_getElem?, h₁.vis_eq, hold]
  obtain ⟨T₄, r, hel, hstyle₄, hp₄, hview, hiff⟩ := hp₃.erase_behind (W := W) h₁.inv hstyle₃ hk hx₃ hview₁
  refine ⟨T₄, r, ?_, h₁.stroke hp₄ hview, hstyle₄, ?_⟩
  · rw [List.cons_append, List.cons_append, process_cons, hcup, Option.bind_some, process_cons, hreset, Option.bind_some,
      process_append, hrun, Option.bind_some, process_one]
    exact hel
  · rw [h₁.cols_eq, ← hshown] at hiff
    exact hiff

/-- A row blanked. -/
theorem clear_line (h : Stage P cols rows limit past vis T) (hstyle : T.state.currentStyle = {}) (hy : y < rows) :
    ∃ T', T.process W [.cup (y + 1) 1, .el 2] = some T' ∧
      Stage P cols rows limit past (vis.set y (List.replicate cols blankShown)) T' ∧ T'.state.currentStyle = {} := by
  obtain ⟨T₁, hcup, h₁, -, hy₁, -, hstyle₁⟩ := h.cup (W := W) (h.cols_eq ▸ h.inv.shape.cols_pos) hy
  obtain ⟨T₂, hel, hstyle₂, hp, hview⟩ := step_blank (W := W) h₁.inv h₁.fits (hstyle₁.trans hstyle) hy₁
  rw [h₁.cols_eq] at hp hview
  exact ⟨T₂, by rw [process_cons, hcup, Option.bind_some, process_one, hel], h₁.stroke hp hview, hstyle₂⟩

/-- A line feed in the last row: the first row goes to the scrollback. -/
theorem feed (h : Stage P cols rows limit past vis T) (hstyle : T.state.currentStyle = {}) (hy : T.grid.cursorY + 1 = rows)
    (hlimit : past.length < limit) :
    ∃ T' top rest, T.step W (.execute 0x0a) = some T' ∧ vis = top :: rest ∧
      Stage P cols rows limit (past ++ [top]) (rest ++ [List.replicate cols blankShown]) T' ∧
      T'.state.currentStyle = {} ∧ T'.grid.cursorX = T.grid.cursorX ∧ T'.grid.cursorY = T.grid.cursorY ∧
      T'.grid.wrapPending = false := by
  have hpos := h.inv.shape.rows_pos
  have hrows := h.rows_eq
  have hbottom := h.bottom
  have hpast := h.past_length
  obtain ⟨top, rest, hvis⟩ : ∃ top rest, T.grid.visibleRows = top :: rest :=
    List.exists_cons_of_length_pos (by rw [h.inv.shape.visible_length]; exact hpos)
  have hrest : (rest ++ [Row.filled T.grid.cols {}]).length = T.grid.rows := by
    have := h.inv.shape.visible_length
    rw [hvis, List.length_cons] at this
    rw [List.length_append, List.length_singleton, this]
  have hstep := step_feed (W := W) h.inv hstyle h.main h.top (by omega) (by omega) (by rw [h.limit_eq]; omega) hvis
  have hinv := steps_inv (step_steps W h.inv hstep) h.inv
  generalize hT' : ({ T with grid := _, scrolledOff := _ } : Screen) = T' at hstep hinv
  have hsb : (T.grid.scrollbackRows ++ [top]).length = T.grid.scrollbackLen + 1 := by
    rw [List.length_append, h.inv.shape.scrollback_length, List.length_singleton]
  have hpastRows : T'.grid.scrollbackRows = T.grid.scrollbackRows ++ [top] := by
    rw [← hT']
    exact List.take_left' hsb
  have hvisRows : T'.grid.visibleRows = rest ++ [.filled T.grid.cols {}] := by
    rw [← hT']
    change List.take T.grid.rows (List.drop (T.grid.scrollbackLen + 1) _) = _
    rw [List.drop_left' hsb, List.take_of_length_le (Nat.le_of_eq hrest)]
  have htable : T'.grid.styleTable = T.grid.styleTable := by rw [← hT']
  have hblank : (Row.filled T.grid.cols {}).cells.map (Cell.shown T.grid.styleTable) = List.replicate cols blankShown := by
    rw [Row.filled, List.map_replicate, Cell.shown, h.inv.table.get_zero, h.cols_eq, blankShown]
  have hfits : T'.Fits P := by
    have hstate : T'.state = T.state := by rw [← hT']
    apply h.fits.blanks htable
    intro row hrow
    rw [allRows, hinv.shape.cells_eq, hpastRows, hvisRows, hstate] at hrow
    rw [allRows, h.inv.shape.cells_eq, hvis]
    simp only [List.mem_append, List.mem_cons, List.not_mem_nil, or_false] at hrow ⊢
    rcases hrow with ((hrow | hrow) | (hrow | rfl)) | hrow
    · exact .inl (.inl (.inl hrow))
    · exact .inl (.inl (.inr (.inl hrow)))
    · exact .inl (.inl (.inr (.inr hrow)))
    · exact .inr fun c hc => congrArg Cell.styleId (List.mem_replicate.1 hc).2
    · exact .inl (.inr hrow)
  refine ⟨T', top.cells.map (Cell.shown T.grid.styleTable), rest.map fun row => row.cells.map (Cell.shown T.grid.styleTable),
    hstep, ?_, ?_, by rw [← hT']; exact hstyle, by rw [← hT'], by rw [← hT'], by rw [← hT']⟩
  · rw [← h.vis_eq, Grid.view, hvis, List.map_cons]
  · refine { inv := hinv, fits := hfits
             modes := by rw [← hT']; exact h.modes
             top := by rw [← hT']; exact h.top
             bottom := by rw [← hT']; exact h.bottom
             main := by rw [← hT']; exact h.main
             cols_eq := by rw [← hT']; exact h.cols_eq
             rows_eq := by rw [← hT']; exact h.rows_eq
             limit_eq := by rw [← hT']; exact h.limit_eq
             past_eq := ?_, vis_eq := ?_ }
    · rw [Grid.past, hpastRows, htable, List.map_append, ← Grid.past, h.past_eq, List.map_singleton]
    · rw [Grid.view, hvisRows, htable, List.map_append, List.map_singleton, hblank]

/-- Lines written one below the other from row `a.length` on. -/
theorem write_lines {a : List (List (Char × Nat × Style))} {lines : List Line} {b : List (List (Char × Nat × Style))}
    (h : Stage P cols rows limit past (a ++ b) T) (hlines : ∀ l ∈ lines, l.Sendable W P cols) (hlen : lines.length ≤ b.length)
    (hwhole : ∀ r ∈ b.take lines.length, Whole r) (hstyle : lines ≠ [] ∨ T.state.currentStyle = {}) :
    ∃ T' new, T.process W (((lines.map Line.events).zipIdx a.length).map fun (line, i) =>
        .cup (i + 1) 1 :: .sgrReset :: line ++ [.el 0]).flatten = some T' ∧
      Stage P cols rows limit past (a ++ new ++ b.drop lines.length) T' ∧ T'.state.currentStyle = {} ∧
      Delivers cols b lines new := by
  induction lines generalizing T a b with
  | nil =>
    refine ⟨T, [], rfl, ?_, hstyle.resolve_left fun h => h rfl, .nil⟩
    rw [List.append_nil]
    exact h
  | cons l lines ih =>
    obtain ⟨r₀, b, rfl⟩ := List.exists_cons_of_length_pos (l := b) (by rw [List.length_cons] at hlen; omega)
    rw [List.length_cons, List.take_succ_cons] at hwhole
    have hold : (a ++ r₀ :: b)[a.length]? = some r₀ := by
      rw [List.getElem?_append_right (Nat.le_refl _), Nat.sub_self, List.getElem?_cons_zero]
    obtain ⟨T₁, r, hrun₁, h₁, hstyle₁, hr⟩ := h.write_line (W := W) hold (hwhole r₀ List.mem_cons_self) (hlines l List.mem_cons_self)
    rw [List.set_append_right _ _ (Nat.le_refl _), Nat.sub_self, List.set_cons_zero, ← List.singleton_append,
      ← List.append_assoc] at h₁
    obtain ⟨T₂, new, hrun₂, h₂, hstyle₂, hnew⟩ := ih h₁ (fun l hl => hlines l (List.mem_cons_of_mem _ hl))
      (Nat.le_of_succ_le_succ hlen) (fun r hr => hwhole r (List.mem_cons_of_mem _ hr)) (.inr hstyle₁)
    rw [List.length_append, List.length_singleton] at hrun₂
    refine ⟨T₂, r :: new, ?_, ?_, hstyle₂, hnew.cons hr⟩
    · rw [List.map_cons, List.zipIdx_cons, List.map_cons, List.flatten_cons, process_append, hrun₁, Option.bind_some]
      exact hrun₂
    · rw [List.append_assoc a [r]] at h₂
      exact h₂

/-- The rows below the lines blanked. -/
theorem clear_lines {a b : List (List (Char × Nat × Style))} (h : Stage P cols rows limit past (a ++ b) T)
    (hstyle : T.state.currentStyle = {}) {n : Nat} (hn : n ≤ b.length) :
    ∃ T', T.process W ((List.range n).map fun i => [.cup (a.length + i + 1) 1, .el 2]).flatten = some T' ∧
      Stage P cols rows limit past (a ++ List.replicate n (List.replicate cols blankShown) ++ b.drop n) T' ∧
      T'.state.currentStyle = {} := by
  induction n with
  | zero => exact ⟨T, rfl, by rw [List.replicate_zero, List.append_nil]; exact h, hstyle⟩
  | succ n ih =>
    obtain ⟨T₁, hrun₁, h₁, hstyle₁⟩ := ih (by omega)
    have hrows := h.vis_length
    rw [List.length_append] at hrows
    obtain ⟨T₂, hrun₂, h₂, hstyle₂⟩ := h₁.clear_line (W := W) hstyle₁ (y := a.length + n) (by omega)
    refine ⟨T₂, ?_, ?_, hstyle₂⟩
    · rw [List.range_succ, List.map_append, List.flatten_append, process_append, hrun₁, Option.bind_some, List.map_singleton,
        List.flatten_singleton]
      exact hrun₂
    · have hlen : (a ++ List.replicate n (List.replicate cols blankShown)).length = a.length + n := by
        rw [List.length_append, List.length_replicate]
      rw [List.drop_eq_getElem_cons (by omega : n < b.length), List.set_append_right _ _ (Nat.le_of_eq hlen), hlen, Nat.sub_self,
        List.set_cons_zero, ← List.singleton_append, ← List.append_assoc, List.append_assoc a,
        ← List.replicate_succ'] at h₂
      exact h₂

/-- Line feeds in the last row. -/
theorem feeds (h : Stage P cols rows limit past vis T) (hstyle : T.state.currentStyle = {}) (hy : T.grid.cursorY + 1 = rows)
    {n : Nat} (hn : n ≤ vis.length) (hlimit : past.length + n ≤ limit) :
    ∃ T', T.process W (List.replicate n (.execute 0x0a)) = some T' ∧
      Stage P cols rows limit (past ++ vis.take n) (vis.drop n ++ List.replicate n (List.replicate cols blankShown)) T' ∧
      T'.state.currentStyle = {} ∧ T'.grid.cursorY + 1 = rows := by
  induction n generalizing T past vis with
  | zero =>
    refine ⟨T, rfl, ?_, hstyle, hy⟩
    rw [List.take_zero, List.append_nil, List.drop_zero, List.replicate_zero, List.append_nil]
    exact h
  | succ n ih =>
    obtain ⟨T₁, top, rest, hstep, rfl, h₁, hstyle₁, -, hy₁, -⟩ := h.feed (W := W) hstyle hy (by omega)
    rw [List.length_cons] at hn
    obtain ⟨T₂, hrun, h₂, hstyle₂, hy₂⟩ := ih h₁ hstyle₁ (by rw [hy₁]; exact hy)
      (by rw [List.length_append]; omega) (by rw [List.length_append, List.length_singleton]; omega)
    refine ⟨T₂, ?_, ?_, hstyle₂, hy₂⟩
    · rw [List.replicate_succ, process_cons, hstep, Option.bind_some, hrun]
    · rw [List.take_append_of_le_length (by omega), List.drop_append_of_le_length (by omega), List.append_assoc,
        List.append_assoc, List.singleton_append, List.singleton_append, ← List.replicate_succ] at h₂
      exact h₂

/-- A chunk: its lines go to the scrollback, and leave the screen blank. -/
theorem chunk (h : Stage P cols rows limit past vis T) {lines : List Line} (hlines : ∀ l ∈ lines, l.Sendable W P cols)
    (hne : lines ≠ []) (hlen : lines.length ≤ rows) (hwhole : ∀ r ∈ vis.take lines.length, Whole r)
    (hlimit : past.length + lines.length ≤ limit) :
    ∃ T' new, T.process W (renderChunk rows (lines.map Line.events)) = some T' ∧
      Stage P cols rows limit (past ++ new) (List.replicate rows (List.replicate cols blankShown)) T' ∧
      T'.state.currentStyle = {} ∧ Delivers cols vis lines new := by
  have hvis := h.vis_length
  obtain ⟨T₁, new, hrun₁, h₁, hstyle₁, hnew⟩ := h.write_lines (a := []) (W := W) hlines (by rw [hvis]; exact hlen) hwhole (.inl hne)
  rw [List.nil_append] at h₁
  have hnewlen := hnew.length
  obtain ⟨T₂, hrun₂, h₂, hstyle₂⟩ := h₁.clear_lines (W := W) hstyle₁ (n := rows - lines.length)
    (by rw [List.length_drop, hvis])
  rw [List.drop_eq_nil_of_le (by rw [List.length_drop, hvis]), List.append_nil] at h₂
  obtain ⟨T₃, hcup, h₃, -, hy₃, -, hstyle₃⟩ := h₂.cup (W := W) (x := 0) (y := rows - 1)
    (h.cols_eq ▸ h.inv.shape.cols_pos) (by have := h.inv.shape.rows_pos; rw [h.rows_eq] at this; omega)
  have hpos : 0 < rows := h.rows_eq ▸ h.inv.shape.rows_pos
  rw [Nat.sub_add_cancel hpos] at hcup
  obtain ⟨T₄, hrun₄, h₄, hstyle₄, -⟩ := h₃.feeds (W := W) (hstyle₃.trans hstyle₂) (by omega) (n := lines.length)
    (by rw [h₂.vis_length]; exact hlen) hlimit
  rw [List.take_left' hnewlen, List.drop_left' hnewlen, List.replicate_append_replicate, Nat.sub_add_cancel hlen] at h₄
  refine ⟨T₄, new, ?_, h₄, hstyle₄, hnew⟩
  rw [hnewlen] at hrun₂
  rw [renderChunk, List.length_map, process_append, process_append]
  rw [show T.process W ((lines.map Line.events).zipIdx.map fun (line, i) =>
    .cup (i + 1) 1 :: .sgrReset :: line ++ [.el 0]).flatten = some T₁ from hrun₁, Option.bind_some]
  rw [show T₁.process W ((List.range (rows - lines.length)).map fun i => [.cup (lines.length + i + 1) 1, .el 2]).flatten =
    some T₂ from hrun₂, Option.bind_some, process_cons, hcup, Option.bind_some]
  exact hrun₄

/-- All chunks, however many lines the last one has. -/
theorem chunks (h : Stage P cols rows limit past vis T) {lines : List Line} (hlines : ∀ l ∈ lines, l.Sendable W P cols)
    (hwhole : ∀ r ∈ vis.take lines.length, Whole r) (hlimit : past.length + lines.length ≤ limit) :
    ∃ T' new vis', T.process W ((Retach.chunks rows (lines.map Line.events)).map (renderChunk rows)).flatten = some T' ∧
      Stage P cols rows limit (past ++ new) vis' T' ∧ Delivers cols vis lines new := by
  have hpos : 0 < rows := h.rows_eq ▸ h.inv.shape.rows_pos
  induction hn : lines.length using Nat.strongRecOn generalizing T past vis lines with
  | ind n ih =>
    rcases eq_or_ne lines [] with rfl | hne
    · refine ⟨T, [], vis, ?_, by rw [List.append_nil]; exact h, .nil⟩
      rw [List.map_nil, chunks_nil hpos]
      rfl
    · have hlen := List.length_pos_iff.2 hne
      have hvis := h.vis_length
      have hsplit : (lines.take rows).length + (lines.drop rows).length = lines.length := by
        rw [← List.length_append, List.take_append_drop]
      have hfirst : 0 < (lines.take rows).length := by rw [List.length_take]; omega
      have hfull : lines.drop rows ≠ [] → (lines.take rows).length = vis.length := fun hrest => by
        have := List.length_pos_iff.2 hrest
        rw [List.length_drop] at this
        rw [List.length_take, hvis]
        omega
      obtain ⟨T₁, new₁, hrun₁, h₁, -, hnew₁⟩ := h.chunk (fun l hl => hlines l (List.mem_of_mem_take hl))
        (List.length_pos_iff.1 hfirst) (List.length_take_le _ _)
        (fun r hr => hwhole r ((List.take_sublist_take_left (by omega)).subset hr)) (by omega)
      have hblank : ∀ r ∈ (List.replicate rows (List.replicate cols blankShown)).take (lines.drop rows).length, Whole r := by
        intro r hr
        rw [(List.mem_replicate.1 (List.mem_of_mem_take hr)).2]
        exact whole_blank cols
      obtain ⟨T₂, new₂, vis', hrun₂, h₂, hnew₂⟩ := ih _ (by omega) h₁ (fun l hl => hlines l (List.mem_of_mem_drop hl)) hblank
        (by rw [List.length_append, hnew₁.length]; omega) rfl
      refine ⟨T₂, new₁ ++ new₂, vis', ?_, ?_, ?_⟩
      · rw [chunks_eq_cons hpos (by simpa using hne), List.map_cons, List.flatten_cons, process_append, ← List.map_take,
          hrun₁, Option.bind_some, ← List.map_drop, hrun₂]
      · rw [List.append_assoc] at h₂
        exact h₂
      · have hnew := hnew₁.append hfull hnew₂
        rwa [List.take_append_drop] at hnew

end Stage

/-! ## All of the scrollback -/

/-- A terminal in the default modes, on its main screen, with room for `n` more
rows in its scrollback and for the styles of the palette. -/
structure HasRoomFor (P : Finset Style) (n : Nat) (T : Screen) : Prop where
  inv : T.Inv
  modes : T.grid.modes = {}
  main : T.state.inAltScreen = false
  fits : T.Fits P
  room : T.grid.scrollbackLen + n ≤ T.grid.scrollbackLimit

/-- A terminal before `n` lines of scrollback are sent to it: the rows that they
are painted over hold whole wide characters. -/
structure Receives (P : Finset Style) (n : Nat) (T : Screen) : Prop extends T.HasRoomFor P n where
  paired : ∀ row ∈ T.grid.visibleRows.take n, Paired row.cells

theorem HasRoomFor.start {n : Nat} (h : T.HasRoomFor P n) : ∃ T', T.process W [.decReset 25, .csi [[0]] [] 'r'] = some T' ∧
    Stage P T.grid.cols T.grid.rows T.grid.scrollbackLimit T.grid.past T.grid.view T' := by
  let T' : Screen := { T with grid := { T.grid with
    cursorVisible := false, scrollTop := 0, scrollBottom := T.grid.rows - 1, cursorX := 0, cursorY := 0
    wrapPending := false } }
  have hrun : T.process W [.decReset 25, .csi [[0]] [] 'r'] = some T' := by
    rw [process_cons, show T.step W (.decReset 25) = some (T.onGrid (·.setCursorVisible false)) from rfl, Option.bind_some,
      process_one]
    exact step_region_full W ((Effect.visible false).inv h.inv)
  exact ⟨T', hrun, { inv := steps_inv (process_steps W h.inv hrun) h.inv, fits := h.fits
                     modes := h.modes, top := rfl, bottom := rfl, main := h.main, cols_eq := rfl, rows_eq := rfl
                     limit_eq := rfl, past_eq := rfl, vis_eq := rfl }⟩

theorem Fits.wiped (hfits : T.Fits P) (h : T.Inv) : T.wiped.Fits P := by
  refine wiped_fits h (hfits.imp_right fun ⟨htidy, hP, hused⟩ => ⟨htidy, hP, fun id hpos hid => hused id hpos ?_⟩)
  obtain ⟨row, hrow, c, hc, rfl⟩ := usesStyle_iff.1 hid
  refine usesStyle_iff.2 ⟨row, ?_, c, hc, rfl⟩
  rcases List.mem_append.1 hrow with hrow | hrow
  · exact T.scrollback_mem hrow
  · exact List.mem_append_right _ hrow

section

variable {H : Type} [DecidableEq H] (R : RowHash H) {g : Grid}

/-- A full frame does not touch the scrollback of a terminal in the default modes. -/
theorem process_frame_past (h : T.Inv) (hmodes : T.grid.modes = {}) (hfits : T.Fits P)
    (hsize : T.grid.cols = g.cols ∧ T.grid.rows = g.rows) (hg : g.Showable W P) (title : List UInt8) :
    ∃ T', T.process W (fullFrame R g title) = some T' ∧ T'.grid.past = T.grid.past := by
  have hmatch : T.Matches g := ⟨h, hsize.1, hsize.2⟩
  have hchars (c : Char) : T.mapCharset c = c := by
    rw [mapCharset, hmodes]
    rfl
  obtain ⟨T', hrun, hdrawn⟩ := process_frame_exact R hmatch hg.shape hg.table (hfits.wiped h) (fun row hrow =>
    have hpaint := hmatch.paintable hg.shape hrow (hg.wellFormed row hrow) (hg.broad row hrow) (.inr hchars)
    ⟨hpaint.laid, hpaint.reads, fun c hc => hg.styles (hpaint.styles c hc), hpaint.fits⟩) title
  exact ⟨T', hrun, hdrawn.toKept.past_eq h⟩

theorem inject_iff {lines : List Line} (hT : T.Receives P lines.length) (hsize : T.grid.cols = g.cols ∧ T.grid.rows = g.rows)
    (hlines : ∀ l ∈ lines, l.Sendable W P g.cols) (hg : g.Showable W P) (title : List UInt8) (cache : RenderCache H) :
    ∃ T', T.process W (renderScreenImpl R g title (lines.map Line.events) true cache).1 = some T' ∧
      (T'.grid.past = T.grid.past ++ lines.map (Line.shown g.cols) ↔ ∀ p ∈ lines.zipIdx, p.1.Lands g.cols T.grid.view p.2) := by
  rw [renderScreenImpl_full]
  obtain ⟨T₁, new, hrun₁, h₁, hmodes, hfits, hsize₁, hpast, hnew⟩ : ∃ T₁ new,
      T.process W (if lines.map Line.events ≠ [] then renderScrollback g (lines.map Line.events) else []) = some T₁ ∧ T₁.Inv ∧
      T₁.grid.modes = {} ∧ T₁.Fits P ∧ (T₁.grid.cols = g.cols ∧ T₁.grid.rows = g.rows) ∧
      T₁.grid.past = T.grid.past ++ new ∧ Delivers g.cols T.grid.view lines new := by
    split
    · obtain ⟨T₀, hrun₀, h₀⟩ := hT.start (W := W)
      rw [hsize.1, hsize.2] at h₀
      have hwhole : ∀ r ∈ T.grid.view.take lines.length, Whole r := by
        intro r hr
        rw [Grid.view, ← List.map_take] at hr
        obtain ⟨row, hrow, rfl⟩ := List.mem_map.1 hr
        exact whole_shown.2 (hT.paired row hrow)
      obtain ⟨T₁, new, vis', hrun₁, h₁, hnew⟩ := h₀.chunks (W := W) hlines hwhole (by rw [hT.inv.past_length]; exact hT.room)
      refine ⟨T₁, new, ?_, h₁.inv, h₁.modes, h₁.fits, ⟨h₁.cols_eq, h₁.rows_eq⟩, h₁.past_eq, hnew⟩
      change T.process W ([.decReset 25, .csi [[0]] [] 'r'] ++ _) = _
      rw [process_append, hrun₀, Option.bind_some, hrun₁]
    next hnone =>
      obtain rfl : lines = [] := List.map_eq_nil_iff.1 (Decidable.not_not.1 hnone)
      exact ⟨T, [], rfl, hT.inv, hT.modes, hT.fits, hsize, (List.append_nil _).symm, .nil⟩
  obtain ⟨T₂, hrun₂, hpast₂⟩ := process_frame_past R h₁ hmodes hfits hsize₁ hg title
  refine ⟨T₂, ?_, ?_⟩
  · rw [process_append, hrun₁, Option.bind_some]
    exact hrun₂
  · rw [hpast₂, hpast, List.append_cancel_left_eq, hnew.eq_shown_iff]

end

/-- A fresh terminal has room for as many styles as a table holds. -/
theorem new_fits (cols rows limit : Nat) {P : Finset Style} (hP : (P.erase {}).card ≤ 65535) :
    (Screen.new cols rows limit).Fits P := by
  refine .inr ⟨StyleTable.tidy_new, hP, fun id hpos hid => ?_⟩
  obtain ⟨row, hrow, c, hc, rfl⟩ := usesStyle_iff.1 hid
  simp only [allRows, Screen.new, Grid.new, SavedGrid.rows, List.append_nil, List.mem_replicate] at hrow
  obtain ⟨-, rfl⟩ := hrow
  rw [(List.mem_replicate.1 hc).2] at hpos
  exact absurd hpos (Nat.lt_irrefl 0)

theorem new_hasRoomFor {cols rows limit n : Nat} (hcols : cols ≤ 65535) (hrows : rows ≤ 65535) (hn : n ≤ limit)
    {P : Finset Style} (hP : (P.erase {}).card ≤ 65535) : (Screen.new cols rows limit).HasRoomFor P n where
  inv := new_inv limit hcols hrows
  modes := rfl
  main := rfl
  fits := new_fits cols rows limit hP
  room := (Nat.zero_add n).symm ▸ hn

theorem new_visible_paired (cols rows limit : Nat) : ∀ row ∈ (Screen.new cols rows limit).grid.visibleRows, Paired row.cells := by
  intro row hrow
  obtain rfl := (List.mem_replicate.1 (List.mem_of_mem_drop (List.mem_of_mem_take hrow))).2
  exact .replicate (single_blank 0) _

theorem new_receives {cols rows limit n : Nat} (hcols : cols ≤ 65535) (hrows : rows ≤ 65535) (hn : n ≤ limit)
    {P : Finset Style} (hP : (P.erase {}).card ≤ 65535) : (Screen.new cols rows limit).Receives P n where
  toHasRoomFor := new_hasRoomFor hcols hrows hn hP
  paired := fun row hrow => new_visible_paired cols rows limit row (List.mem_of_mem_take hrow)

theorem plain_sendable {cells : List Cell}
    (hplain : ∀ c ∈ cells, (c.width = UnicodeWidth.sample.charWidth c.c ∧ c.width = 1) ∧ c.styleId = 0) {cols : Nat}
    (hfits : cells.length ≤ cols) : (Line.mk { cells } .new).Sendable .sample {({} : Style)} cols where
  wellFormed := .of_single (fun c hc => by have := (hplain c hc).1; omega) rfl
  broad := fun i c hc h3 => by have := (hplain c (List.mem_of_getElem? hc)).1; omega
  fits := hfits
  table := StyleTable.wf_new
  styles := fun c hc => by rw [(hplain c hc).2]; exact Finset.mem_singleton_self _

theorem new_showable {cols rows : Nat} (hcols : cols ≤ 65535) (hrows : rows ≤ 65535) :
    (Grid.new cols rows 0).Showable .sample {({} : Style)} := by
  have hnew : (Screen.new cols rows 0).Inv := new_inv 0 hcols hrows
  have hblank {row : Row} (hrow : row ∈ (Grid.new cols rows 0).visibleRows) : row = .new (max cols 1) :=
    (List.mem_replicate.1 (List.mem_of_mem_drop (List.mem_of_mem_take hrow))).2
  have hplain : ∀ row ∈ (Grid.new cols rows 0).visibleRows, Plain row := by
    intro row hrow
    rw [hblank hrow]
    exact ⟨fun c hc => by rw [(List.mem_replicate.1 hc).2]; decide, rfl⟩
  refine ⟨hnew.shape, hnew.table, Plain.wellFormed hplain, Plain.broadLast hplain, ?_⟩
  intro style hstyle
  rw [Grid.palette, List.mem_toFinset, List.mem_flatMap] at hstyle
  obtain ⟨row, hrow, hstyle⟩ := hstyle
  obtain ⟨c, hc, rfl⟩ := List.mem_map.1 hstyle
  rw [hblank hrow] at hc
  rw [(List.mem_replicate.1 hc).2]
  exact Finset.mem_singleton_self _

/-- Three lines on two rows. -/
theorem inject_iff_sample : ∃ T', (Screen.new 2 2 10).process .sample (renderScreenImpl Viewed.rowHash (Grid.new 2 2 0) []
      (([⟨{ cells := [{ c := 'a' }] }, .new⟩, ⟨{ cells := [] }, .new⟩, ⟨{ cells := [{ c := 'c' }, {}] }, .new⟩] :
        List Line).map Line.events) true {}).1 = some T' ∧
    T'.grid.past = [[('a', 1, {}), blankShown], [blankShown, blankShown], [('c', 1, {}), blankShown]] := by
  have hlines : ∀ l ∈ ([⟨{ cells := [{ c := 'a' }] }, .new⟩, ⟨{ cells := [] }, .new⟩,
      ⟨{ cells := [{ c := 'c' }, {}] }, .new⟩] : List Line), l.Sendable .sample {({} : Style)} 2 := by
    intro l hl
    simp only [List.mem_cons, List.not_mem_nil, or_false] at hl
    rcases hl with rfl | rfl | rfl <;> exact plain_sendable (by decide) (by decide)
  obtain ⟨T', hrun, hiff⟩ := inject_iff Viewed.rowHash (T := .new 2 2 10) (g := Grid.new 2 2 0)
    (new_receives (by decide) (by decide) (by decide) (by decide)) ⟨rfl, rfl⟩ hlines (new_showable (by decide) (by decide)) [] {}
  exact ⟨T', hrun, hiff.2 (by decide)⟩

/-- A line that fills its row loses its last column. -/
theorem inject_cuts : (Screen.new 2 1 10).Receives {({} : Style)} 1 ∧
    (Line.mk { cells := [{ c := 'a' }, { c := 'b' }] } .new).Sendable .sample {({} : Style)} 2 ∧
    ¬ ∃ T', (Screen.new 2 1 10).process .sample (renderScreenImpl Viewed.rowHash (Grid.new 2 1 0) []
        [(Line.mk { cells := [{ c := 'a' }, { c := 'b' }] } .new).events] true {}).1 = some T' ∧
      T'.grid.past = (Screen.new 2 1 10).grid.past ++ [(Line.mk { cells := [{ c := 'a' }, { c := 'b' }] } .new).shown 2] := by
  refine ⟨new_receives (by decide) (by decide) (by decide) (by decide), plain_sendable (by decide) (by decide), ?_⟩
  rintro ⟨T', hrun, hpast⟩
  have hshown := congrArg (Option.map fun T : Screen => T.grid.past) hrun
  rw [Option.map_some, hpast] at hshown
  revert hshown
  decide

end Screen

end Retach
