import Retach.Lib.Tables
import Retach.Pairs
import Retach.Grid
/-!
# Grid operations on a well-shaped grid

`Shape` is what `check_invariants` asserts and everything the code relies on
without asserting it. On a grid with this shape no row access fails, and the
writing operations compute the functions of `Pairs` on the cells of one row.
-/

open Checked Lists Tables

namespace Retach

theorem Row.len_eq (row : Row) : row.len = row.cells.length := by rfl

theorem Row.set_eq (row : Row) {x : Nat} (cell : Cell) (h : x < row.cells.length) :
    row.set x cell = some { row with cells := row.cells.set x cell } := by
  rw [Row.set, setAt_eq h]
  rfl

/-- The mark lists of `r'` are mark lists of `r`, of whatever column. -/
def Row.MarksFrom (r r' : Row) : Prop := ∀ e' ∈ r'.combining, ∃ e ∈ r.combining, e'.2 = e.2

theorem Row.MarksFrom.refl (r : Row) : r.MarksFrom r := fun e he => ⟨e, he, rfl⟩

theorem Row.MarksFrom.of_subset {r r' : Row} (h : r'.combining ⊆ r.combining) : r.MarksFrom r' :=
  fun e he => ⟨e, h he, rfl⟩

theorem Row.MarksFrom.trans {r₁ r₂ r₃ : Row} (h : r₁.MarksFrom r₂) (h' : r₂.MarksFrom r₃) : r₁.MarksFrom r₃ := by
  intro e₃ he₃
  obtain ⟨e₂, he₂, heq₂⟩ := h' e₃ he₃
  obtain ⟨e₁, he₁, heq₁⟩ := h e₂ he₂
  exact ⟨e₁, he₁, heq₂.trans heq₁⟩

theorem Row.retain_marksFrom (r : Row) (p : Nat → Bool) : r.MarksFrom (r.retain p) :=
  .of_subset (List.filter_subset_self _)

/-- Renumbered columns. -/
theorem Row.MarksFrom.of_shift {r r' : Row} (f : Nat → Nat) (h : r'.combining = (r.shiftMarks f).combining) :
    r.MarksFrom r' := by
  intro e' he'
  rw [h] at he'
  obtain ⟨e, he, rfl⟩ := List.mem_map.1 he'
  exact ⟨e, he, rfl⟩

/-! ### The marks of a column -/

theorem Row.marks_eq_found (r : Row) (c : Nat) : r.marks c = found r.combining c := by
  unfold marks found
  cases r.combining.find? (·.1 = c) <;> rfl

/-- A mark goes to the marks that the column has. -/
theorem Row.mem_pushMark {col : Nat} {mark : Char} {l : List (Nat × List Char)} {e : Nat × List Char} (he : e ∈ pushMark col mark l) :
    e ∈ l ∨ e = (col, found l col ++ [mark]) := by
  induction l with
  | nil => exact .inr (List.mem_singleton.1 he)
  | cons e' rest ih =>
    obtain ⟨c, ms⟩ := e'
    unfold pushMark at he
    split at he
    next hc =>
      subst hc
      rcases List.mem_cons.1 he with rfl | he
      · right
        rw [found_cons_self (c, ms)]
      · exact .inl (List.mem_cons_of_mem _ he)
    next hc =>
      rcases List.mem_cons.1 he with rfl | he
      · exact .inl List.mem_cons_self
      · rw [found_cons_ne (e := (c, ms)) hc]
        exact (ih he).imp_left (List.mem_cons_of_mem _)

theorem Row.marks_retain (r : Row) (p : Nat → Bool) (c : Nat) : (r.retain p).marks c = if p c = true then r.marks c else [] := by
  rw [marks_eq_found, marks_eq_found]
  change found (r.combining.filter fun e => p e.1) c = _
  rw [filter_eq_moved]
  split
  next hp => exact found_moved fun e _ => ⟨fun he => (keeping_eq_some he).2, fun he => he ▸ if_pos (he ▸ hp)⟩
  next hp => exact found_moved_none fun e _ he => hp ((keeping_eq_some he).2 ▸ (keeping_eq_some he).1)

/-- The marks that were those of column `c` are those of column `d`. -/
theorem Row.marks_shiftMarks {r : Row} {f : Nat → Nat} {c d : Nat} (h : ∀ e ∈ r.combining, f e.1 = d ↔ e.1 = c) :
    (r.shiftMarks f).marks d = r.marks c := by
  rw [marks_eq_found, marks_eq_found]
  change found (r.combining.map fun e => (f e.1, e.2)) d = _
  rw [map_eq_moved f]
  exact found_moved fun e he => by rw [Option.some.injEq]; exact h e he

theorem Row.marks_shiftMarks_none {r : Row} {f : Nat → Nat} {d : Nat} (h : ∀ e ∈ r.combining, f e.1 ≠ d) :
    (r.shiftMarks f).marks d = [] := by
  rw [marks_eq_found]
  change found (r.combining.map fun e => (f e.1, e.2)) d = _
  rw [map_eq_moved f]
  exact found_moved_none fun e he heq => h e he (Option.some.inj heq)

namespace Grid

structure Shape (g : Grid) : Prop where
  cols_pos : 0 < g.cols
  cols_le : g.cols ≤ 65535
  rows_pos : 0 < g.rows
  rows_le : g.rows ≤ 65535
  cells_len : g.cells.length = g.scrollbackLen + g.rows
  pending_le : g.pendingStart ≤ g.scrollbackLen
  row_len : ∀ row ∈ g.visibleRows, row.cells.length = g.cols
  cursor_x : g.cursorX < g.cols
  cursor_y : g.cursorY < g.rows
  region_le : g.scrollTop ≤ g.scrollBottom
  region_lt : g.scrollBottom < g.rows
  tabs_len : g.tabStops.length = g.cols

/-- The visible rows end where the buffer ends. -/
theorem Shape.visibleRows_eq {g : Grid} (h : g.Shape) : g.visibleRows = g.cells.drop g.scrollbackLen :=
  List.take_of_length_le (by rw [List.length_drop, h.cells_len]; omega)

theorem Shape.visible_length {g : Grid} (h : g.Shape) : g.visibleRows.length = g.rows := by
  rw [h.visibleRows_eq, List.length_drop, h.cells_len]
  omega

theorem Shape.scrollback_length {g : Grid} (h : g.Shape) : g.scrollbackRows.length = g.scrollbackLen := by
  rw [scrollbackRows, List.length_take, h.cells_len]
  omega

theorem Shape.cells_eq {g : Grid} (h : g.Shape) : g.cells = g.scrollbackRows ++ g.visibleRows := by
  rw [h.visibleRows_eq, scrollbackRows, List.take_append_drop]

/-! ## One row -/

/-- Visible row `y` is `row`. -/
def HasRow (g : Grid) (y : Nat) (row : Row) : Prop := y < g.rows ∧ g.cells[g.scrollbackLen + y]? = some row

variable {g : Grid} {y : Nat} {row row' : Row}

theorem HasRow.visibleRow (h : g.HasRow y row) : g.visibleRow y = some row := by
  rw [Grid.visibleRow, ensure_eq h.1]
  exact h.2

theorem HasRow.mem (h : g.HasRow y row) : row ∈ g.visibleRows := by
  refine List.mem_iff_getElem?.2 ⟨y, ?_⟩
  rw [visibleRows, List.getElem?_take_of_lt h.1, List.getElem?_drop]
  exact h.2

theorem HasRow.getElem? (h : g.HasRow y row) : g.visibleRows[y]? = some row := by
  rw [visibleRows, List.getElem?_take_of_lt h.1, List.getElem?_drop]
  exact h.2

theorem HasRow.lt (h : g.HasRow y row) : g.scrollbackLen + y < g.cells.length := (List.getElem?_eq_some_iff.1 h.2).1

theorem Shape.hasRow (h : g.Shape) (hy : y < g.rows) : ∃ row, g.HasRow y row ∧ row.cells.length = g.cols := by
  have hlt : g.scrollbackLen + y < g.cells.length := by rw [h.cells_len]; omega
  have hrow : g.HasRow y g.cells[g.scrollbackLen + y] := ⟨hy, List.getElem?_eq_getElem hlt⟩
  exact ⟨_, hrow, h.row_len _ hrow.mem⟩

theorem HasRow.putRow (h : g.HasRow y row) : (g.putRow y row').HasRow y row' :=
  ⟨h.1, List.getElem?_set_self h.lt⟩

@[simp] theorem putRow_putRow (g : Grid) (y : Nat) (row row' : Row) : (g.putRow y row).putRow y row' = g.putRow y row' := by
  simp [Grid.putRow, List.set_set]

theorem HasRow.putRow_self (h : g.HasRow y row) : g.putRow y row = g := by
  obtain ⟨hlt, rfl⟩ := List.getElem?_eq_some_iff.1 h.2
  rw [Grid.putRow, List.set_getElem_self]

@[simp] theorem putRow_rows (g : Grid) (y : Nat) (row : Row) : (g.putRow y row).rows = g.rows := by rfl
@[simp] theorem putRow_cols (g : Grid) (y : Nat) (row : Row) : (g.putRow y row).cols = g.cols := by rfl
@[simp] theorem putRow_cursorX (g : Grid) (y : Nat) (row : Row) : (g.putRow y row).cursorX = g.cursorX := by rfl
@[simp] theorem putRow_modes (g : Grid) (y : Nat) (row : Row) : (g.putRow y row).modes = g.modes := by rfl

theorem HasRow.visibleRowMut (h : g.HasRow y row) {f : Row → Option Row} (hf : f row = some row') :
    g.visibleRowMut y f = some (g.putRow y row') := by
  simp only [Grid.visibleRowMut, h.visibleRow, Option.bind_eq_bind, Option.bind_some, hf]
  rfl

/-- Rounds of edits of one row are rounds on the row. -/
theorem HasRow.iter_visibleRowMut (h : g.HasRow y row) {f : Row → Option Row} (n : Nat) (hf : iter f n row = some row') :
    iter (fun g : Grid => g.visibleRowMut y f) n g = some (g.putRow y row') := by
  induction n generalizing g row with
  | zero =>
    obtain rfl : row = row' := by simpa using hf
    rw [iter_zero, h.putRow_self]
  | succ n ih =>
    rw [iter_succ] at hf ⊢
    cases hrow : f row with
    | none => simp [hrow] at hf
    | some r =>
      rw [hrow, Option.bind_some] at hf
      rw [h.visibleRowMut hrow, Option.bind_some, ih h.putRow hf, putRow_putRow]

/-- The visible rows with row `y` replaced. -/
theorem Shape.putRow (h : g.Shape) (y : Nat) (row : Row) : g.putRow y row = g.replaceVisible (g.visibleRows.set y row) := by
  have hset : g.cells.set (g.scrollbackLen + y) row = g.scrollbackRows ++ g.visibleRows.set y row := by
    rw [h.cells_eq, List.set_append_right _ _ (by rw [h.scrollback_length]; omega), h.scrollback_length,
      Nat.add_sub_cancel_left]
  rw [Grid.putRow, replaceVisible, hset]
  rfl

/-! ## Writing cells -/

theorem HasRow.set (h : g.HasRow y row) {x : Nat} (cell : Cell) (hx : x < row.cells.length) :
    g.visibleRowMut y (·.set x cell) = some (g.putRow y { row with cells := row.cells.set x cell }) :=
  h.visibleRowMut (Row.set_eq row cell hx)

theorem HasRow.fixup (h : g.HasRow y row) (hlen : row.cells.length = g.cols) (x : Nat) :
    g.fixupWideCharAt x y = some (g.putRow y { row with cells := unpair x row.cells }) := by
  have hy := h.1
  unfold fixupWideCharAt
  rcases Nat.lt_or_ge x g.cols with hx | hx
  · rw [if_neg (by omega)]
    obtain ⟨cell, hcell⟩ : ∃ cell, row.cells[x]? = some cell := ⟨_, List.getElem?_eq_getElem (by omega)⟩
    simp only [h.visibleRow, Row.get, hcell, Option.bind_eq_bind, Option.bind_some, unpair]
    split
    next hw =>
      split
      next hx1 =>
        rw [h.set _ (by omega), Option.bind_some, h.putRow.set _ (by rw [List.length_set]; omega), putRow_putRow]
      next hx1 =>
        rw [h.set _ (by omega), List.set_eq_of_length_le (show row.cells.length ≤ x + 1 by omega)]
    next =>
      split
      next hw =>
        rw [h.set _ (by omega), Option.bind_some, h.putRow.set _ (by rw [List.length_set]; omega), putRow_putRow]
      next => rw [h.putRow_self]
  · rw [if_pos (.inr hx), unpair, List.getElem?_eq_none (by omega), h.putRow_self]

theorem HasRow.replaceCell (h : g.HasRow y row) {x : Nat} (cell : Cell) (hx : x < row.cells.length) :
    g.replaceCell x y cell = some (g.putRow y ({ row with cells := row.cells.set x cell }.clearCombining x)) :=
  h.visibleRowMut (by rw [Row.set_eq row cell hx]; rfl)

end Grid

/-- A row after `set_cell` at column `x`. -/
def Row.written (row : Row) (x : Nat) (cell : Cell) : Row :=
  let r := { row with cells := writeCell x cell row.cells }.clearCombining x
  if cell.width = 2 ∧ x + 1 < row.cells.length then r.clearCombining (x + 1) else r

theorem Row.written_cells (row : Row) (x : Nat) (cell : Cell) : (row.written x cell).cells = writeCell x cell row.cells := by
  unfold Row.written
  dsimp only
  split <;> rfl

theorem Row.written_marks (row : Row) (x : Nat) (cell : Cell) (c : Nat) : (row.written x cell).marks c =
    if c = x ∨ cell.width = 2 ∧ x + 1 < row.cells.length ∧ c = x + 1 then [] else row.marks c := by
  have hx : ({ row with cells := writeCell x cell row.cells }.clearCombining x).marks c = if c ≠ x then row.marks c else [] := by
    rw [Row.clearCombining, Row.marks_retain]
    simp only [decide_not, Bool.not_eq_true', decide_eq_false_iff_not]
    rfl
  unfold Row.written
  dsimp only
  split
  next hw =>
    rw [Row.clearCombining, Row.marks_retain, hx]
    by_cases hcx : c = x <;> by_cases hcx1 : c = x + 1 <;> simp [hcx, hcx1, hw]
  next hw =>
    rw [hx]
    by_cases hcx : c = x
    · simp [hcx]
    · rw [if_pos hcx, if_neg (by tauto)]

theorem Row.written_marksFrom (row : Row) (x : Nat) (cell : Cell) : row.MarksFrom (row.written x cell) := by
  have hx : row.MarksFrom ({ row with cells := writeCell x cell row.cells }.clearCombining x) := row.retain_marksFrom (· ≠ x)
  unfold Row.written
  dsimp only
  split
  · exact hx.trans (Row.retain_marksFrom _ _)
  · exact hx

namespace Grid

variable {g : Grid} {y : Nat} {row row' : Row}

theorem HasRow.setCell (h : g.HasRow y row) (hlen : row.cells.length = g.cols) {x : Nat} (hx : x < g.cols) (cell : Cell) :
    g.setCell x y cell = some (g.putRow y (row.written x cell)) := by
  have hy := h.1
  have hulen : (unpair x row.cells).length = row.cells.length := unpair_length x _
  unfold Grid.setCell Row.written writeCell
  rw [if_neg (by omega), h.fixup hlen]
  simp only [Option.bind_eq_bind, Option.bind_some]
  rw [h.putRow.replaceCell cell (by simp only [hulen]; omega)]
  simp only [Option.bind_some, putRow_putRow, putRow_cols, hlen]
  by_cases hw : cell.width = 2 ∧ x + 1 < g.cols
  · rw [if_pos hw, if_pos hw, if_pos hw]
    have hmlen : ((unpair x row.cells).set x cell).length = g.cols := by rw [List.length_set, hulen, hlen]
    rw [h.putRow.fixup (by simpa [Row.clearCombining, Row.retain] using hmlen), Option.bind_some, putRow_putRow,
      h.putRow.replaceCell _ (by simp only [Row.clearCombining, Row.retain, unpair_length, hmlen]; omega), putRow_putRow]
    rfl
  · rw [if_neg hw, if_neg hw, if_neg hw]

/-! ## Erasing -/

/-- Columns set one by one. -/
theorem iterFrom_set (blank : Cell) (n lo : Nat) (row : Row) (h : lo + n ≤ row.cells.length) :
    iterFrom (fun i row => Row.set row i blank) lo n row = some { row with cells := fill lo n blank row.cells } := by
  induction n generalizing lo row with
  | zero => rw [iterFrom_zero, fill_zero]
  | succ n ih =>
    rw [iterFrom_succ, Row.set_eq row blank (by omega), Option.bind_some, ih _ _ (by simp only [List.length_set]; omega),
      fill_succ n blank (by omega)]

end Grid

/-- A row after `erase_cells` in `[lo, hi)`. -/
def Row.erased (row : Row) (lo hi : Nat) (blank : Cell) : Row :=
  { row with cells := eraseRange lo hi blank row.cells }.clearCombiningRange lo hi

theorem Row.erased_cells (row : Row) (lo hi : Nat) (blank : Cell) :
    (row.erased lo hi blank).cells = eraseRange lo hi blank row.cells := rfl

theorem Row.erased_marks (row : Row) (lo hi : Nat) (blank : Cell) (c : Nat) :
    (row.erased lo hi blank).marks c = if lo ≤ c ∧ c < hi then [] else row.marks c := by
  have h : (row.erased lo hi blank).marks c = if c < lo ∨ c ≥ hi then row.marks c else [] := by
    rw [Row.erased, Row.clearCombiningRange, Row.marks_retain]
    simp only [decide_eq_true_eq]
    rfl
  rw [h]
  split
  next hout => rw [if_neg (by omega)]
  next hin => rw [if_pos (by omega)]

theorem Row.erased_marksFrom (row : Row) (lo hi : Nat) (blank : Cell) : row.MarksFrom (row.erased lo hi blank) :=
  row.retain_marksFrom fun c => c < lo ∨ c ≥ hi

namespace Grid

variable {g : Grid} {y : Nat} {row row' : Row}

theorem HasRow.eraseCells (h : g.HasRow y row) (hlen : row.cells.length = g.cols) {lo hi : Nat} (hlo : lo < hi)
    (hhi : hi ≤ g.cols) (blank : Cell) : g.eraseCells y lo hi blank = some (g.putRow y (row.erased lo hi blank)) := by
  have hy := h.1
  unfold Grid.eraseCells Row.erased eraseRange
  simp only [show min lo g.cols = lo by omega, show min hi g.cols = hi by omega]
  rw [if_neg (by omega), if_neg (by omega), h.fixup hlen]
  simp only [Option.bind_eq_bind, Option.bind_some, putRow_cols, hlen]
  by_cases hlt : hi < g.cols
  · rw [if_pos hlt, if_pos hlt, h.putRow.fixup (by simpa [unpair_length] using hlen), Option.bind_some, putRow_putRow,
      h.putRow.visibleRowMut (by rw [iterFrom_set _ _ _ _ (by simp only [unpair_length]; omega)]; rfl), putRow_putRow]
  · rw [if_neg hlt, if_neg hlt,
      h.putRow.visibleRowMut (by rw [iterFrom_set _ _ _ _ (by simp only [unpair_length]; omega)]; rfl), putRow_putRow]

/-! ## The visible rows as a whole -/

theorem Shape.scrollback_replaceVisible (h : g.Shape) (vis : List Row) :
    (g.replaceVisible vis).scrollbackRows = g.scrollbackRows := by
  rw [scrollbackRows, replaceVisible]
  exact List.take_left' h.scrollback_length

theorem Shape.visible_replaceVisible (h : g.Shape) {vis : List Row} (hv : vis.length = g.rows) :
    (g.replaceVisible vis).visibleRows = vis := by
  rw [visibleRows, replaceVisible]
  have hdrop : (g.cells.take g.scrollbackLen ++ vis).drop g.scrollbackLen = vis := List.drop_left' h.scrollback_length
  simp only [hdrop]
  rw [List.take_of_length_le (by omega)]

/-- Rows of the right number and length may replace the visible ones. -/
theorem Shape.replaceVisible (h : g.Shape) {vis : List Row} (hv : vis.length = g.rows)
    (hrow : ∀ row ∈ vis, row.cells.length = g.cols) : (g.replaceVisible vis).Shape :=
  { h with
    cells_len := by
      have := h.scrollback_length
      simp only [Grid.replaceVisible, List.length_append, hv]
      rw [← scrollbackRows, this]
    row_len := fun row hr => hrow row (by rwa [h.visible_replaceVisible hv] at hr) }

theorem replaceVisible_replaceVisible (h : g.Shape) (vis vis' : List Row) :
    (g.replaceVisible vis).replaceVisible vis' = g.replaceVisible vis' := by
  have := h.scrollback_replaceVisible vis
  simp only [scrollbackRows] at this
  simp only [Grid.replaceVisible] at this ⊢
  rw [this]

theorem replaceVisible_self (h : g.Shape) : g.replaceVisible g.visibleRows = g := by
  rw [Grid.replaceVisible, ← scrollbackRows, ← h.cells_eq]

/-- `erase_rows`: the rows `[lo, lo + n)` become blank rows. -/
theorem Shape.blankRows (h : g.Shape) (blank : Cell) (n lo : Nat) (hn : lo + n ≤ g.rows) :
    iterFrom (fun y (g : Grid) => g.visibleRowMut y fun row =>
      some { row with cells := row.cells.map fun _ => blank }.clearAllCombining) lo n g =
    some (g.replaceVisible (fill lo n (.filled g.cols blank) g.visibleRows)) := by
  induction n generalizing lo g with
  | zero => rw [iterFrom_zero, fill_zero, replaceVisible_self h]
  | succ n ih =>
    obtain ⟨row, hrow, hlen⟩ := h.hasRow (show lo < g.rows by omega)
    have hblank : ({ row with cells := row.cells.map fun _ => blank } : Row).clearAllCombining = .filled g.cols blank := by
      rw [Row.clearAllCombining, Row.filled, List.map_const', hlen]
    have hput : g.putRow lo (.filled g.cols blank) = _ := h.putRow lo _
    have hvlen : (g.visibleRows.set lo (.filled g.cols blank)).length = g.rows := by rw [List.length_set, h.visible_length]
    have hshape : (g.replaceVisible (g.visibleRows.set lo (.filled g.cols blank))).Shape := by
      apply h.replaceVisible hvlen
      intro r hr
      rcases List.mem_or_eq_of_mem_set hr with hr | rfl
      · exact h.row_len r hr
      · simp [Row.filled]
    rw [iterFrom_succ, hrow.visibleRowMut (by rw [hblank]), Option.bind_some, hput, ih hshape _ (by
      change lo + 1 + n ≤ g.rows
      omega), replaceVisible_replaceVisible h, h.visible_replaceVisible hvlen]
    have hcols : (g.replaceVisible (g.visibleRows.set lo (.filled g.cols blank))).cols = g.cols := rfl
    rw [hcols, fill_succ n _ (by rw [h.visible_length]; omega)]

theorem Shape.eraseRows (h : g.Shape) {lo hi : Nat} (hlo : lo ≤ hi) (hhi : hi ≤ g.rows) (blank : Cell) :
    g.eraseRows lo hi blank = some (g.replaceVisible (fill lo (hi - lo) (.filled g.cols blank) g.visibleRows)) := by
  unfold Grid.eraseRows
  simp only [show min lo g.rows = lo by omega, show min hi g.rows = hi by omega]
  exact h.blankRows blank _ _ (by omega)

/-! ## Moving rows -/

/-- Visible row `src` removed and a blank row inserted at `dst`. -/
def rotated (g : Grid) (src dst : Nat) (fill : Cell) : Grid :=
  g.replaceVisible ((g.visibleRows.eraseIdx src).insertIdx dst (g.newBlankRow fill))

/-- The scrollback lies before the rows that move. -/
theorem Shape.eraseIdx_cells (h : g.Shape) (src : Nat) :
    g.cells.eraseIdx (g.scrollbackLen + src) = g.scrollbackRows ++ g.visibleRows.eraseIdx src := by
  have hsb := h.scrollback_length
  conv => lhs; rw [h.cells_eq]
  rw [List.eraseIdx_append_of_length_le (by omega), hsb, Nat.add_sub_cancel_left]

theorem insertIdx_append {l m : List Row} {i n : Nat} (row : Row) (hl : l.length = n) (hi : i ≤ m.length) :
    (l ++ m).insertIdx (n + i) row = l ++ m.insertIdx i row := by
  subst hl
  rw [insertIdx_eq_append row (by rw [List.length_append]; omega), insertIdx_eq_append row hi,
    List.take_length_add_append, List.drop_length_add_append, List.append_assoc]

theorem Shape.rotate (h : g.Shape) {src dst : Nat} (hsrc : src < g.rows) (hdst : dst < g.rows) (fill : Cell) :
    insertAt (g.cells.eraseIdx (g.scrollbackLen + src)) (g.scrollbackLen + dst) (g.newBlankRow fill) =
      some (g.rotated src dst fill).cells := by
  have hlen : (g.visibleRows.eraseIdx src).length = g.rows - 1 := by
    rw [List.length_eraseIdx_of_lt (by rw [h.visible_length]; exact hsrc), h.visible_length]
  have hsb := h.scrollback_length
  rw [h.eraseIdx_cells, insertAt_eq (by rw [List.length_append]; omega), insertIdx_append _ hsb (by omega)]
  rfl

theorem Shape.rotated_length (h : g.Shape) {src dst : Nat} (hsrc : src < g.rows) (hdst : dst < g.rows) (row : Row) :
    ((g.visibleRows.eraseIdx src).insertIdx dst row).length = g.rows := by
  have hlen := h.visible_length
  rw [List.length_insertIdx_of_le_length (by rw [List.length_eraseIdx_of_lt (by omega)]; omega),
    List.length_eraseIdx_of_lt (by omega)]
  omega

theorem mem_rotated {vis : List Row} {src dst : Nat} {row r : Row} (h : r ∈ (vis.eraseIdx src).insertIdx dst row) :
    r ∈ vis ∨ r = row := by
  rcases Nat.lt_or_ge (vis.eraseIdx src).length dst with hlt | hle
  · rw [List.insertIdx_of_length_lt hlt] at h
    exact .inl (List.mem_of_mem_eraseIdx h)
  · rcases (List.mem_insertIdx hle).1 h with h | h
    · exact .inr h
    · exact .inl (List.mem_of_mem_eraseIdx h)

theorem Shape.rotated_shape (h : g.Shape) {src dst : Nat} (hsrc : src < g.rows) (hdst : dst < g.rows) (fill : Cell) :
    (g.rotated src dst fill).Shape := by
  apply h.replaceVisible (h.rotated_length hsrc hdst _)
  intro row hr
  rcases mem_rotated hr with hr | rfl
  · exact h.row_len row hr
  · simp [newBlankRow, Row.filled]

theorem checkInvariants_eq (hp : g.pendingStart ≤ g.scrollbackLen) (hlen : g.cells.length = g.scrollbackLen + g.rows) :
    g.checkInvariants = some g := by
  rw [checkInvariants, ensure_eq hp, ensure_eq hlen]
  rfl

theorem Shape.check (h : g.Shape) : g.checkInvariants = some g := checkInvariants_eq h.pending_le h.cells_len

theorem Shape.visibleLen (h : g.Shape) : sub g.cells.length g.scrollbackLen = some g.rows := by
  rw [sub_eq (by rw [h.cells_len]; omega), h.cells_len, Nat.add_sub_cancel_left]

/-- Deleting or inserting a line. -/
theorem Shape.scrollDown (h : g.Shape) (fill : Cell) :
    g.scrollDown fill = some (g.rotated g.scrollBottom g.scrollTop fill) := by
  have hle := h.region_le
  have hlt := h.region_lt
  rw [Grid.scrollDown, h.visibleLen]
  simp only [Option.bind_eq_bind, Option.bind_some]
  rw [if_pos ⟨hle, hlt⟩, h.rotate hlt (Nat.lt_of_le_of_lt hle hlt)]
  exact (h.rotated_shape hlt (Nat.lt_of_le_of_lt hle hlt) fill).check

/-- The branch of `scroll_up` without scrollback. -/
theorem Shape.scrollUpDrop (h : g.Shape) (fill : Cell) :
    g.scrollUpDrop g.rows fill = some (g.rotated g.scrollTop g.scrollBottom fill) := by
  have hle := h.region_le
  have hlt := h.region_lt
  have hrot := h.rotate (Nat.lt_of_le_of_lt hle hlt) hlt fill
  rw [Grid.scrollUpDrop, sub_eq h.rows_pos]
  simp only [Option.bind_eq_bind, Option.bind_some]
  split
  next hfull =>
    have hend : (g.cells.eraseIdx g.scrollbackLen).length = g.scrollbackLen + g.scrollBottom := by
      rw [List.length_eraseIdx_of_lt (by rw [h.cells_len]; omega), h.cells_len]
      omega
    rw [hfull.1, Nat.add_zero, insertAt_eq (by omega), ← hend, List.insertIdx_length_self] at hrot
    rw [Option.some.injEq] at hrot
    rw [hrot, ← hfull.1]
    rfl
  next => rw [hrot]; rfl

/-- `scroll_up` keeping the top row as scrollback: the scrollback grows at its
end, or loses its oldest row to the limit. -/
def captured (g : Grid) (top : Row) (vis : List Row) : Grid :=
  if g.scrollbackLen + 1 > g.scrollbackLimit then
    { g with cells := (g.scrollbackRows ++ [top]).tail ++ vis, pendingStart := g.pendingStart - 1 }
  else { g with cells := g.scrollbackRows ++ [top] ++ vis, scrollbackLen := g.scrollbackLen + 1 }

/-- The branch of `scroll_up` that feeds the scrollback. -/
theorem Shape.scrollUpCapture (h : g.Shape) {top : Row} {vis : List Row} (hvis : g.visibleRows = top :: vis) (fill : Cell) :
    g.scrollUpCapture g.rows fill = some (g.captured top (vis.insertIdx g.scrollBottom (g.newBlankRow fill))) := by
  have hlt := h.region_lt
  have hsb := h.scrollback_length
  have hlen : vis.length = g.rows - 1 := by
    have := h.visible_length
    rw [hvis, List.length_cons] at this
    omega
  have hcells : g.cells = g.scrollbackRows ++ [top] ++ vis := by
    rw [List.append_assoc, List.singleton_append, ← hvis, ← h.cells_eq]
  -- the blank row goes after the region, also where the code appends it
  have hinsert : ∀ sb : List Row, ∀ n, sb.length = n →
      (if g.scrollBottom ≥ g.rows - 1 then some (sb ++ vis ++ [g.newBlankRow fill])
        else insertAt (sb ++ vis) (n + g.scrollBottom) (g.newBlankRow fill)) =
      some (sb ++ vis.insertIdx g.scrollBottom (g.newBlankRow fill)) := by
    intro sb n hn
    split
    · rw [show g.scrollBottom = vis.length by omega, List.insertIdx_length_self, List.append_assoc]
    · rw [insertAt_eq (by rw [List.length_append]; omega), insertIdx_append _ hn (by omega)]
  rw [Grid.scrollUpCapture, captured, sub_eq h.rows_pos]
  simp only [Option.bind_eq_bind, Option.bind_some]
  by_cases hover : g.scrollbackLen + 1 > g.scrollbackLimit
  · have hlentail : ((g.scrollbackRows ++ [top]).tail).length = g.scrollbackLen := by
      rw [List.length_tail, List.length_append, hsb, List.length_singleton]
      omega
    have htail : g.cells.tail = (g.scrollbackRows ++ [top]).tail ++ vis := by
      rw [hcells, List.tail_append_of_ne_nil (by simp)]
    have hins := hinsert _ _ hlentail
    simp only [if_pos hover, popOldest, newBlankRow, htail, Nat.add_sub_cancel] at hins ⊢
    split
    next hb => rw [if_pos hb, Option.some.injEq] at hins; rw [hins]; rfl
    next hb => rw [if_neg hb] at hins; rw [hins]; rfl
  · have hlenapp : (g.scrollbackRows ++ [top]).length = g.scrollbackLen + 1 := by
      rw [List.length_append, hsb, List.length_singleton]
    have hins := hinsert _ _ hlenapp
    simp only [if_neg hover, newBlankRow, hcells] at hins ⊢
    split
    next hb => rw [if_pos hb, Option.some.injEq] at hins; rw [hins]; rfl
    next hb => rw [if_neg hb] at hins; rw [hins]; rfl

theorem Shape.captured_check (h : g.Shape) (top : Row) {vis : List Row} (hlen : vis.length = g.rows) :
    (g.captured top vis).checkInvariants = some (g.captured top vis) := by
  have hsb := h.scrollback_length
  have hp := h.pending_le
  rw [checkInvariants, captured]
  split
  · rw [ensure_eq (show g.pendingStart - 1 ≤ g.scrollbackLen by omega),
      ensure_eq (by simp only [List.length_append, List.length_tail, List.length_singleton, hsb, hlen]; omega)]
    rfl
  · rw [ensure_eq (show g.pendingStart ≤ g.scrollbackLen + 1 by omega),
      ensure_eq (by simp only [List.length_append, List.length_singleton, hsb, hlen])]
    rfl

theorem Shape.captured_scrollback (h : g.Shape) (hlimit : g.scrollbackLen ≤ g.scrollbackLimit) (top : Row) (vis : List Row) :
    (g.captured top vis).scrollbackRows = (g.scrollbackRows ++ [top]).rtake g.scrollbackLimit := by
  have hlen : (g.scrollbackRows ++ [top]).length = g.scrollbackLen + 1 := by
    rw [List.length_append, h.scrollback_length, List.length_singleton]
  unfold captured
  split
  next hover =>
    have hn : (g.scrollbackRows ++ [top]).length - g.scrollbackLimit = 1 := by omega
    rw [List.rtake, hn, List.drop_one]
    exact List.take_left' (by rw [List.length_tail, hlen, Nat.add_sub_cancel])
  next hroom =>
    rw [rtake_of_length_le (by omega)]
    exact List.take_left' hlen

theorem Shape.captured_visible (h : g.Shape) (top : Row) {vis : List Row} (hvis : vis.length = g.rows) :
    (g.captured top vis).visibleRows = vis := by
  have hlen : (g.scrollbackRows ++ [top]).length = g.scrollbackLen + 1 := by
    rw [List.length_append, h.scrollback_length, List.length_singleton]
  unfold captured
  split
  · change List.take g.rows (List.drop g.scrollbackLen _) = vis
    rw [List.drop_left' (by rw [List.length_tail, hlen, Nat.add_sub_cancel]), List.take_of_length_le (Nat.le_of_eq hvis)]
  · change List.take g.rows (List.drop (g.scrollbackLen + 1) _) = vis
    rw [List.drop_left' hlen, List.take_of_length_le (Nat.le_of_eq hvis)]

/-- `scroll_up` on the main screen, from its top row. -/
theorem Shape.scrollUp_capture (h : g.Shape) {top : Row} {vis : List Row} (hvis : g.visibleRows = top :: vis)
    (htop : g.scrollTop = 0) (hlimit : 0 < g.scrollbackLimit) (fill : Cell) :
    g.scrollUp false fill = some (g.captured top (vis.insertIdx g.scrollBottom (g.newBlankRow fill))) := by
  have hlt := h.region_lt
  have hlen : vis.length = g.rows - 1 := by
    have := h.visible_length
    rw [hvis, List.length_cons] at this
    omega
  rw [Grid.scrollUp, h.visibleLen]
  simp only [Option.bind_eq_bind, Option.bind_some]
  rw [if_pos ⟨by simp, htop, hlimit⟩, h.scrollUpCapture hvis fill, Option.bind_some]
  refine h.captured_check top ?_
  rw [List.length_insertIdx_of_le_length (by omega)]
  omega

/-- `scroll_up` everywhere else. -/
theorem Shape.scrollUp_drop (h : g.Shape) (inAltScreen : Bool)
    (hno : ¬ (¬ inAltScreen ∧ g.scrollTop = 0 ∧ g.scrollbackLimit > 0)) (fill : Cell) :
    g.scrollUp inAltScreen fill = some (g.rotated g.scrollTop g.scrollBottom fill) := by
  have hle := h.region_le
  have hlt := h.region_lt
  rw [Grid.scrollUp, h.visibleLen]
  simp only [Option.bind_eq_bind, Option.bind_some]
  rw [if_neg hno, if_pos ⟨hle, hlt⟩, h.scrollUpDrop, Option.bind_some]
  exact (h.rotated_shape (Nat.lt_of_le_of_lt hle hlt) hlt fill).check

/-- Either way the row at the top of the region is no longer visible, and a blank
row is at its bottom. -/
theorem Shape.scrollUp_visible (h : g.Shape) (inAltScreen : Bool) (fill : Cell) :
    ∃ g', g.scrollUp inAltScreen fill = some g' ∧
      g'.visibleRows = (g.visibleRows.eraseIdx g.scrollTop).insertIdx g.scrollBottom (g.newBlankRow fill) ∧
      g'.scrollTop = g.scrollTop ∧ g'.scrollBottom = g.scrollBottom ∧ g'.cols = g.cols := by
  have hle := h.region_le
  have hlt := h.region_lt
  have hlen := h.visible_length
  by_cases hcap : ¬ inAltScreen ∧ g.scrollTop = 0 ∧ g.scrollbackLimit > 0
  · cases hvis : g.visibleRows with
    | nil =>
      rw [hvis, List.length_nil] at hlen
      omega
    | cons top vis =>
      obtain rfl : inAltScreen = false := by simpa using hcap.1
      have hvlen : (vis.insertIdx g.scrollBottom (g.newBlankRow fill)).length = g.rows := by
        rw [hvis, List.length_cons] at hlen
        rw [List.length_insertIdx_of_le_length (by omega)]
        exact hlen
      refine ⟨_, h.scrollUp_capture hvis hcap.2.1 hcap.2.2 fill, ?_, ?_⟩
      · rw [h.captured_visible top hvlen, hcap.2.1, List.eraseIdx_cons_zero]
      · unfold captured
        split <;> exact ⟨rfl, rfl, rfl⟩
  · exact ⟨_, h.scrollUp_drop inAltScreen hcap fill,
      h.visible_replaceVisible (h.rotated_length (Nat.lt_of_le_of_lt hle hlt) hlt _), rfl, rfl, rfl⟩

/-- `scroll_up` leaves old rows and a blank one. -/
theorem Shape.scrollUp_rows (h : g.Shape) (inAltScreen : Bool) (fill : Cell) :
    ∃ g', g.scrollUp inAltScreen fill = some g' ∧ (∀ row ∈ g'.cells, row ∈ g.cells ∨ row = g.newBlankRow fill) ∧
      (∀ row ∈ g'.visibleRows, row ∈ g.visibleRows ∨ row = g.newBlankRow fill) ∧
      g'.cols = g.cols ∧ g'.rows = g.rows ∧ g'.styleTable = g.styleTable ∧ g'.modes = g.modes := by
  have hlt := h.region_lt
  have hlen := h.visible_length
  by_cases hcap : ¬ inAltScreen ∧ g.scrollTop = 0 ∧ g.scrollbackLimit > 0
  · obtain ⟨top, vis, hvis⟩ : ∃ top vis, g.visibleRows = top :: vis :=
      List.exists_cons_of_length_pos (by rw [hlen]; exact h.rows_pos)
    obtain rfl : inAltScreen = false := by simpa using hcap.1
    have hnew : ∀ row ∈ vis.insertIdx g.scrollBottom (g.newBlankRow fill), row ∈ g.visibleRows ∨ row = g.newBlankRow fill := by
      intro row hrow
      rw [hvis]
      exact (List.eq_or_mem_of_mem_insertIdx hrow).elim .inr fun hrow => .inl (List.mem_cons_of_mem _ hrow)
    have hvlen : (vis.insertIdx g.scrollBottom (g.newBlankRow fill)).length = g.rows := by
      rw [hvis, List.length_cons] at hlen
      rw [List.length_insertIdx_of_le_length (by omega), hlen]
    refine ⟨_, h.scrollUp_capture hvis hcap.2.1 hcap.2.2 fill, fun row hrow => ?_, ?_, ?_⟩
    · have hmem : row ∈ g.scrollbackRows ++ [top] ++ vis.insertIdx g.scrollBottom (g.newBlankRow fill) := by
        unfold captured at hrow
        split at hrow
        · exact (List.mem_append.1 hrow).elim (fun hrow => List.mem_append_left _ (List.mem_of_mem_tail hrow))
            fun hrow => List.mem_append_right _ hrow
        · exact hrow
      rw [h.cells_eq, List.mem_append]
      rcases List.mem_append.1 hmem with hmem | hmem
      · rcases List.mem_append.1 hmem with hmem | hmem
        · exact .inl (.inl hmem)
        · rw [hvis, List.mem_singleton.1 hmem]
          exact .inl (.inr List.mem_cons_self)
      · exact (hnew row hmem).imp_left .inr
    · rw [h.captured_visible top hvlen]
      exact hnew
    · unfold captured
      split <;> exact ⟨rfl, rfl, rfl, rfl⟩
  · have hvlen := h.rotated_length (Nat.lt_of_le_of_lt h.region_le hlt) hlt (g.newBlankRow fill)
    have hnew : ∀ row ∈ (g.visibleRows.eraseIdx g.scrollTop).insertIdx g.scrollBottom (g.newBlankRow fill),
        row ∈ g.visibleRows ∨ row = g.newBlankRow fill := fun row hrow =>
      (List.eq_or_mem_of_mem_insertIdx hrow).elim .inr fun hrow => .inl (List.mem_of_mem_eraseIdx hrow)
    refine ⟨_, h.scrollUp_drop inAltScreen hcap fill, fun row hrow => ?_, ?_, rfl, rfl, rfl, rfl⟩
    · rcases List.mem_append.1 hrow with hrow | hrow
      · exact .inl (List.mem_of_mem_take hrow)
      · exact (hnew row hrow).imp_left fun hrow => h.cells_eq ▸ List.mem_append_right _ hrow
    · rw [rotated, h.visible_replaceVisible hvlen]
      exact hnew

/-- One round of DL or IL. -/
theorem Shape.moveRow (h : g.Shape) {src dst : Nat} (hsrc : src < g.rows) (hdst : dst < g.rows) (fill : Cell) :
    ((g.removeVisibleRow src).bind fun g => g.insertVisibleRow dst (g.newBlankRow fill)) =
      some (g.rotated src dst fill) := by
  rw [removeVisibleRow, ensure_eq (by rw [h.cells_len]; omega)]
  change (insertAt (g.cells.eraseIdx (g.scrollbackLen + src)) (g.scrollbackLen + dst) (g.newBlankRow fill)).bind _ = _
  rw [h.rotate hsrc hdst]
  rfl

/-! ## The alternate screen -/

theorem resetScrollRegion_eq (h : 0 < g.rows) : g.resetScrollRegion = some (g.setScrollRegion 0 (g.rows - 1)) := by
  rw [resetScrollRegion, sub_eq h]
  rfl

theorem Shape.drainVisible (h : g.Shape) :
    g.drainVisible = some (g.visibleRows, { g with cells := g.scrollbackRows }) := by
  rw [Grid.drainVisible, ensure_eq (by rw [h.cells_len]; omega), h.visibleRows_eq]
  rfl

theorem Shape.fillVisibleBlank (h : g.Shape) :
    { g with cells := g.scrollbackRows : Grid }.fillVisibleBlank =
      some { g with cells := g.scrollbackRows ++ List.replicate g.rows (.new g.cols) } :=
  checkInvariants_eq h.pending_le (by simp [h.scrollback_length])

/-- ED 3. -/
theorem Shape.clearScrollback (h : g.Shape) :
    g.clearScrollback = some { g with cells := g.visibleRows, scrollbackLen := 0, pendingStart := 0 } := by
  have hlen := h.visible_length
  rw [Grid.clearScrollback, ensure_eq (by rw [h.cells_len]; omega), ← h.visibleRows_eq]
  simp only [Option.bind_eq_bind, Option.bind_some]
  rw [checkInvariants_eq (by exact Nat.le_refl 0) (by simpa using hlen)]

end Grid

/-! ## Fitting rows -/

/-- `fitRow` succeeds with this row. -/
def Row.fitted (cols : Nat) (row : Row) : Row :=
  { cells := fit cols row.cells
    combining := if cols < row.cells.length then row.combining.filter fun e => e.1 < cols else row.combining }

theorem Row.fixWideCharOrphanAtBoundary_eq (row : Row) (cols : Nat) :
    row.fixWideCharOrphanAtBoundary cols = some { row with cells := fixBoundary cols row.cells } := by
  unfold Row.fixWideCharOrphanAtBoundary fixBoundary
  simp only [row.len_eq, Row.get]
  by_cases hfit : cols = 0 ∨ row.cells.length ≤ cols
  · rw [if_pos hfit, if_pos hfit]
  rw [if_neg hfit, if_neg hfit]
  have hlast : cols - 1 < row.cells.length := by omega
  rw [List.getElem?_eq_getElem hlast]
  simp only [Option.bind_eq_bind, Option.bind_some]
  by_cases hbase : row.cells[cols - 1].width = 2
  · rw [if_pos hbase, if_pos hbase, Row.set_eq row _ hlast]
  rw [if_neg hbase, if_neg hbase]
  by_cases hcont : 0 < cols - 1 ∧ row.cells[cols - 1].width = 0
  · rw [if_pos hcont, if_pos hcont, Row.set_eq row _ hlast, Option.bind_some,
      Row.set_eq _ _ (by simp only [List.length_set]; omega)]
  · rw [if_neg hcont, if_neg hcont]

theorem Row.fitRow_eq (row : Row) (cols : Nat) : Grid.fitRow cols row = some (row.fitted cols) := by
  have hlen := fixBoundary_length cols row.cells
  rw [Grid.fitRow, row.fixWideCharOrphanAtBoundary_eq cols]
  simp only [Option.bind_eq_bind, Option.bind_some, Row.resize, Row.len, hlen, Row.fitted, fit]
  split <;> simp [Row.retain, hlen]

theorem Row.fitted_marksFrom (row : Row) (cols : Nat) : row.MarksFrom (row.fitted cols) := by
  refine .of_subset ?_
  rw [Row.fitted]
  split
  · exact List.filter_subset_self _
  · exact List.Subset.refl _

theorem Row.fitted_self (row : Row) : row.fitted row.cells.length = row := by
  rw [Row.fitted, fit, fixBoundary, if_pos (.inr (Nat.le_refl _)), if_neg (Nat.lt_irrefl _)]
  simp

/-- Rows brought to `rows` rows of `cols` columns. -/
def fitRows (cols rows : Nat) (vis : List Row) : List Row :=
  (vis.take rows ++ List.replicate (rows - vis.length) (Row.new cols)).map (Row.fitted cols)

theorem fitRows_length (cols rows : Nat) (vis : List Row) : (fitRows cols rows vis).length = rows := by
  simp [fitRows]
  omega

theorem mem_fitRows {cols rows : Nat} {vis : List Row} {row : Row} (h : row ∈ fitRows cols rows vis) :
    ∃ r, (r ∈ vis ∨ r = Row.new cols) ∧ row = r.fitted cols := by
  simp only [fitRows, List.mem_map, List.mem_append, List.mem_replicate] at h
  obtain ⟨r, hr | ⟨-, hr⟩, rfl⟩ := h
  · exact ⟨r, .inl (List.mem_of_mem_take hr), rfl⟩
  · exact ⟨r, .inr hr, rfl⟩

/-- Rows that fit already do not change. -/
theorem fitRows_self {cols rows : Nat} {vis : List Row} (hv : vis.length = rows)
    (hrow : ∀ row ∈ vis, row.cells.length = cols) : fitRows cols rows vis = vis := by
  rw [fitRows, hv, Nat.sub_self, List.replicate_zero, List.append_nil, List.take_of_length_le (by omega)]
  refine (List.map_congr_left fun row hr => ?_).trans (List.map_id vis)
  rw [← hrow row hr, row.fitted_self]
  rfl

end Retach
