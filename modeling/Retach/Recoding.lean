import Mathlib.Data.List.InsertIdx
import Mathlib.Tactic.Simps.Basic
import Retach.Keeping
import Retach.Lib.Views
/-!
# Style ids in other codes

Apart from interning, the code only copies the style ids of cells: with every
id replaced by another one, 0 by 0, it does the same. What a handler does with
an id that was interned is a function of the id, and the id is replaced too.
-/

open Checked Views

namespace Retach

@[simps] def Cell.recode (φ : StyleId → StyleId) (c : Cell) : Cell := { c with styleId := φ c.styleId }

/-- The ids that a recoding keeps are those of its fixed points. -/
theorem Cell.recode_default {φ : StyleId → StyleId} (h0 : φ 0 = 0) : ({} : Cell).recode φ = {} := by
  simp [recode, h0]

/-! ## Rows -/

namespace Row

@[simps] def recode (φ : StyleId → StyleId) (r : Row) : Row := { r with cells := r.cells.map (Cell.recode φ) }

variable {φ : StyleId → StyleId}

@[simp] theorem recode_len (r : Row) : (r.recode φ).len = r.len := List.length_map _

@[simp] theorem recode_get (r : Row) (x : Nat) : (r.recode φ).get x = (r.get x).map (Cell.recode φ) := List.getElem?_map

@[simp] theorem recode_set (r : Row) (x : Nat) (c : Cell) :
    (r.recode φ).set x (c.recode φ) = (r.set x c).map (recode φ) := by
  simp only [Row.set, setAt, recode_cells, List.length_map, Option.bind_eq_bind]
  split
  · simp [recode, List.map_set]
  · rfl

@[simp] theorem recode_marks (r : Row) (x : Nat) : (r.recode φ).marks x = r.marks x := rfl
@[simp] theorem recode_combiningLen (r : Row) (x : Nat) : (r.recode φ).combiningLen x = r.combiningLen x := rfl
@[simp] theorem recode_clearCombining (r : Row) (x : Nat) : (r.recode φ).clearCombining x = (r.clearCombining x).recode φ := rfl
@[simp] theorem recode_clearCombiningRange (r : Row) (lo hi : Nat) :
    (r.recode φ).clearCombiningRange lo hi = (r.clearCombiningRange lo hi).recode φ := rfl
@[simp] theorem recode_retain (r : Row) (p : Nat → Bool) : (r.recode φ).retain p = (r.retain p).recode φ := rfl
@[simp] theorem recode_shiftMarks (r : Row) (f : Nat → Nat) : (r.recode φ).shiftMarks f = (r.shiftMarks f).recode φ := rfl
@[simp] theorem recode_pushCombining (r : Row) (x : Nat) (m : Char) :
    (r.recode φ).pushCombining x m = (r.pushCombining x m).recode φ := rfl

theorem recode_filled (n : Nat) (c : Cell) : (filled n c).recode φ = filled n (c.recode φ) := by simp [filled, recode]

theorem recode_new (h0 : φ 0 = 0) (n : Nat) : (new n).recode φ = new n := by
  rw [new, recode_filled, Cell.recode_default h0]

theorem recode_resize (h0 : φ 0 = 0) (r : Row) (n : Nat) : (r.recode φ).resize n {} = (r.resize n {}).recode φ := by
  simp only [resize, recode_len]
  split <;> simp [recode, List.map_append, List.map_take, Cell.recode_default h0, retain]

@[simp] theorem recode_remove (r : Row) (x : Nat) : (r.recode φ).remove x = (r.remove x).map (recode φ) := by
  simp only [remove, recode_retain, recode_shiftMarks, recode_len, Option.bind_eq_bind, Option.map_bind]
  refine congrArg _ (funext fun _ => ?_)
  simp [recode, List.eraseIdx_map]

theorem recode_push (r : Row) (c : Cell) : (r.recode φ).push (c.recode φ) = (r.push c).recode φ := by simp [push, recode]

theorem recode_pop (r : Row) : (r.recode φ).pop = r.pop.recode φ := by
  simp only [pop, recode_cells, List.isEmpty_map, recode_len]
  split
  · rfl
  · simp [recode, retain]

theorem recode_insert (r : Row) (x : Nat) (c : Cell) : (r.recode φ).insert x (c.recode φ) = (r.insert x c).map (recode φ) := by
  simp only [insert, recode_shiftMarks, recode_cells, insertAt, List.length_map, Option.bind_eq_bind]
  split
  · simp [recode, List.map_insertIdx]
  · rfl

theorem recode_fixWideCharOrphanAtBoundary (h0 : φ 0 = 0) (r : Row) (n : Nat) :
    (r.recode φ).fixWideCharOrphanAtBoundary n = (r.fixWideCharOrphanAtBoundary n).map (recode φ) := by
  have hset (r : Row) (x : Nat) : (r.recode φ).set x {} = (r.set x {}).map (recode φ) := by
    rw [← recode_set, Cell.recode_default h0]
  simp only [fixWideCharOrphanAtBoundary, recode_len, recode_get, Option.bind_eq_bind]
  split
  · rfl
  · cases r.get (n - 1) with
    | none => rfl
    | some c =>
      simp only [Option.map_some, Option.bind_some, Cell.recode_width]
      split
      · exact hset r _
      split
      · rw [hset, Option.bind_map, Option.map_bind]
        exact congrArg _ (funext fun r => hset r _)
      · rfl

end Row

theorem recode_fitRow {φ : StyleId → StyleId} (h0 : φ 0 = 0) (cols : Nat) (r : Row) :
    Grid.fitRow cols (r.recode φ) = (Grid.fitRow cols r).map (Row.recode φ) := by
  simp only [Grid.fitRow, Row.recode_fixWideCharOrphanAtBoundary h0, Option.bind_eq_bind, Option.bind_map, Option.map_bind]
  exact congrArg _ (funext fun r => congrArg some (Row.recode_resize h0 r cols))

theorem recode_deleteCell {φ : StyleId → StyleId} (x : Nat) (blank : Cell) (r : Row) :
    Screen.deleteCell x (blank.recode φ) (r.recode φ) = (Screen.deleteCell x blank r).map (Row.recode φ) := by
  simp only [Screen.deleteCell, Row.recode_remove, Option.bind_eq_bind, Option.bind_map, Option.map_bind]
  exact congrArg _ (funext fun r => congrArg some (Row.recode_push r blank))

theorem recode_insertCell {φ : StyleId → StyleId} (x : Nat) (blank : Cell) (r : Row) :
    Screen.insertCell x (blank.recode φ) (r.recode φ) = (Screen.insertCell x blank r).map (Row.recode φ) := by
  rw [Screen.insertCell, Row.recode_pop, Row.recode_insert]
  rfl

/-! ## Grids -/

namespace Grid

/-- Other ids, and another style table. -/
@[simps] def recode (φ : StyleId → StyleId) (t : StyleTable) (g : Grid) : Grid :=
  { g with cells := g.cells.map (Row.recode φ), styleTable := t }

variable {φ : StyleId → StyleId} {t : StyleTable}

@[simp] theorem recode_visibleRow (g : Grid) (y : Nat) : (g.recode φ t).visibleRow y = (g.visibleRow y).map (Row.recode φ) := by
  simp only [visibleRow, recode_rows, recode_cells, recode_scrollbackLen, List.getElem?_map, Option.bind_eq_bind, Option.map_bind]
  rfl

@[simp] theorem recode_visibleRowCount (g : Grid) : (g.recode φ t).visibleRowCount = g.visibleRowCount := by
  simp [visibleRowCount]

theorem recode_newBlankRow (g : Grid) (c : Cell) : (g.recode φ t).newBlankRow (c.recode φ) = (g.newBlankRow c).recode φ :=
  (Row.recode_filled g.cols c).symm

theorem recode_putRow (g : Grid) (y : Nat) (r : Row) :
    (g.recode φ t).putRow y (r.recode φ) = (g.putRow y r).recode φ t := by
  simp [putRow, recode, List.map_set]

/-- An update of a row by a function that recodes. -/
theorem recode_visibleRowMut {f' f : Row → Option Row} (hf : ∀ r, f' (r.recode φ) = (f r).map (Row.recode φ)) (g : Grid)
    (y : Nat) : (g.recode φ t).visibleRowMut y f' = (g.visibleRowMut y f).map (recode φ t) := by
  simp only [visibleRowMut, recode_visibleRow, Option.bind_eq_bind, Option.bind_map, Option.map_bind]
  refine congrArg _ (funext fun r => ?_)
  change (f' (r.recode φ)).bind _ = _
  rw [hf, Option.bind_map]
  simp only [Function.comp_def, Option.map_bind]
  exact congrArg _ (funext fun r => congrArg some (recode_putRow g y r))

@[simp] theorem recode_setRow (g : Grid) (x y : Nat) (c : Cell) :
    (g.recode φ t).visibleRowMut y (·.set x (c.recode φ)) = (g.visibleRowMut y (·.set x c)).map (recode φ t) :=
  recode_visibleRowMut (fun r => r.recode_set x c) g y

@[simp] theorem recode_checkInvariants (g : Grid) : (g.recode φ t).checkInvariants = g.checkInvariants.map (recode φ t) :=
  bind_shared rfl fun _ => bind_shared (by simp) fun _ => rfl

theorem recode_resetScrollRegion (g : Grid) : (g.recode φ t).resetScrollRegion = g.resetScrollRegion.map (recode φ t) := by
  simp only [resetScrollRegion, Option.bind_eq_bind, Option.map_bind]
  rfl

theorem recode_clearScrollback (g : Grid) : (g.recode φ t).clearScrollback = g.clearScrollback.map (recode φ t) := by
  simp only [clearScrollback, Option.bind_eq_bind, Option.map_bind, Function.comp_def, ← recode_checkInvariants, recode_cells,
    recode_scrollbackLen, List.length_map, ← List.map_drop]
  rfl

theorem recode_fillVisibleBlank (h0 : φ 0 = 0) (g : Grid) :
    (g.recode φ t).fillVisibleBlank = g.fillVisibleBlank.map (recode φ t) := by
  simp only [fillVisibleBlank, ← recode_checkInvariants]
  refine congrArg checkInvariants ?_
  simp [recode, Row.recode_new h0]

theorem recode_fitCells (h0 : φ 0 = 0) (g : Grid) : (g.recode φ t).fitCells = g.fitCells.map (Row.recode φ) := by
  simp [fitCells, Row.recode_new h0]

theorem recode_adjustVisibleToFit (h0 : φ 0 = 0) (g : Grid) :
    (g.recode φ t).adjustVisibleToFit = g.adjustVisibleToFit.map (recode φ t) := by
  simp only [adjustVisibleToFit, ← recode_checkInvariants, recode_fitCells h0]
  rfl

theorem recode_drainVisible (g : Grid) :
    (g.recode φ t).drainVisible = g.drainVisible.map fun p => (p.1.map (Row.recode φ), p.2.recode φ t) := by
  simp only [drainVisible, Option.bind_eq_bind, Option.map_bind, recode_cells, recode_scrollbackLen, List.length_map]
  refine congrArg _ (funext fun _ => ?_)
  simp [recode]

theorem recode_replaceVisible (g : Grid) (rows : List Row) :
    (g.recode φ t).replaceVisible (rows.map (Row.recode φ)) = (g.replaceVisible rows).recode φ t := by
  simp [replaceVisible, recode]

theorem recode_restoreScrollback (g : Grid) (count : Nat) :
    (g.recode φ t).restoreScrollback count = (g.restoreScrollback count).map (recode φ t) := by
  simp only [restoreScrollback, Option.bind_eq_bind, Option.map_bind]
  rfl

/-- A list of rows that recodes becomes the buffer. -/
theorem recode_cellsMap {x' x : Option (List Row)} (hx : x' = x.map (List.map (Row.recode φ))) (g : Grid) :
    (x'.bind fun cells => some { g.recode φ t with cells }) = (x.bind fun cells => some { g with cells }).map (recode φ t) := by
  subst hx
  cases x <;> rfl

theorem recode_insertAt (l : List Row) (i : Nat) (r : Row) :
    insertAt (l.map (Row.recode φ)) i (r.recode φ) = (insertAt l i r).map (List.map (Row.recode φ)) := by
  simp only [insertAt, List.length_map]
  split
  · rw [Option.map_some, List.map_insertIdx]
  · rfl

theorem recode_removeVisibleRow (g : Grid) (y : Nat) :
    (g.recode φ t).removeVisibleRow y = (g.removeVisibleRow y).map (recode φ t) := by
  simp only [removeVisibleRow, Option.bind_eq_bind, Option.map_bind, recode_cells, recode_scrollbackLen, List.length_map]
  refine congrArg _ (funext fun _ => ?_)
  simp [recode, List.eraseIdx_map]

theorem recode_insertVisibleRow (g : Grid) (y : Nat) (r : Row) :
    (g.recode φ t).insertVisibleRow y (r.recode φ) = (g.insertVisibleRow y r).map (recode φ t) :=
  recode_cellsMap (recode_insertAt g.cells _ r) g

/-! ### Scrolling and writing -/

theorem recode_appendRow (g : Grid) (l : List Row) (c : Cell) :
    ({ g.recode φ t with cells := l.map (Row.recode φ) ++ [(g.recode φ t).newBlankRow (c.recode φ)] } : Grid) =
      ({ g with cells := l ++ [g.newBlankRow c] } : Grid).recode φ t := by
  rw [recode_newBlankRow, ← List.map_singleton, ← List.map_append]
  rfl

theorem recode_insertRow (g : Grid) (l : List Row) (i : Nat) (c : Cell) :
    ((insertAt (l.map (Row.recode φ)) i ((g.recode φ t).newBlankRow (c.recode φ))).bind fun cells =>
        some { g.recode φ t with cells }) =
      ((insertAt l i (g.newBlankRow c)).bind fun cells => some { g with cells }).map (recode φ t) := by
  rw [recode_newBlankRow]
  exact recode_cellsMap (recode_insertAt l i _) g

theorem recode_eraseIdx (l : List Row) (i : Nat) :
    (l.map (Row.recode φ)).eraseIdx i = (l.eraseIdx i).map (Row.recode φ) := List.eraseIdx_map ..

theorem recode_scrollUpCapture (g : Grid) (n : Nat) (fill : Cell) :
    (g.recode φ t).scrollUpCapture n (fill.recode φ) = (g.scrollUpCapture n fill).map (recode φ t) := by
  let grown : Grid := { g with scrollbackLen := g.scrollbackLen + 1 }
  unfold scrollUpCapture
  by_cases hover : g.scrollbackLen + 1 > g.scrollbackLimit
  · simp only [recode_scrollbackLen, recode_scrollbackLimit, if_pos hover, popOldest, recode_cells, ← List.map_tail]
    exact bind_shared rfl fun last => ite_renamed Iff.rfl (congrArg some (recode_appendRow grown.popOldest _ fill))
      (recode_insertRow grown.popOldest _ _ fill)
  · simp only [recode_scrollbackLen, recode_scrollbackLimit, if_neg hover]
    exact bind_shared rfl fun last => ite_renamed Iff.rfl (congrArg some (recode_appendRow grown _ fill))
      (recode_insertRow grown _ _ fill)

theorem recode_scrollUpDrop (g : Grid) (n : Nat) (fill : Cell) :
    (g.recode φ t).scrollUpDrop n (fill.recode φ) = (g.scrollUpDrop n fill).map (recode φ t) := by
  refine bind_shared rfl fun last => ite_renamed Iff.rfl ?_ ?_
  · simp only [recode_cells, recode_eraseIdx]
    exact congrArg some (recode_appendRow g _ fill)
  · simp only [recode_cells, recode_eraseIdx]
    exact recode_insertRow g _ _ fill

theorem recode_scrollUp (g : Grid) (alt : Bool) (fill : Cell) :
    (g.recode φ t).scrollUp alt (fill.recode φ) = (g.scrollUp alt fill).map (recode φ t) := by
  refine bind_shared (by simp) fun n => ite_renamed Iff.rfl ?_ (ite_renamed Iff.rfl ?_ g.recode_checkInvariants)
  · exact bind_renamed (g.recode_scrollUpCapture n fill) recode_checkInvariants
  · exact bind_renamed (g.recode_scrollUpDrop n fill) recode_checkInvariants

theorem recode_scrollDown (g : Grid) (fill : Cell) :
    (g.recode φ t).scrollDown (fill.recode φ) = (g.scrollDown fill).map (recode φ t) := by
  refine bind_shared (by simp) fun n => ite_renamed Iff.rfl ?_ g.recode_checkInvariants
  have hrows := bind_renamed (recode_insertRow (φ := φ) (t := t) g (g.cells.eraseIdx (g.scrollbackLen + g.scrollBottom))
    (g.scrollbackLen + g.scrollTop) fill) recode_checkInvariants
  simpa only [Option.map_eq_bind, Function.comp_def, Option.bind_eq_bind, recode_cells, recode_scrollbackLen,
    recode_scrollTop, recode_scrollBottom, recode_eraseIdx] using hrows

theorem recode_fixupWideCharAt (h0 : φ 0 = 0) (g : Grid) (x y : Nat) :
    (g.recode φ t).fixupWideCharAt x y = (g.fixupWideCharAt x y).map (recode φ t) := by
  have hset (g : Grid) (x : Nat) : (g.recode φ t).visibleRowMut y (·.set x {}) =
      (g.visibleRowMut y (·.set x {})).map (recode φ t) := by
    rw [← recode_setRow, Cell.recode_default h0]
  refine ite_renamed Iff.rfl rfl (bind_renamed (g.recode_visibleRow y) fun row => bind_renamed (row.recode_get x) fun cell => ?_)
  refine ite_renamed Iff.rfl ?_ (ite_renamed Iff.rfl ?_ rfl)
  · exact ite_renamed Iff.rfl (bind_renamed (hset g (x + 1)) fun g => hset g x) (hset g x)
  · exact bind_renamed (hset g (x - 1)) fun g => hset g x

theorem recode_replaceCell (g : Grid) (x y : Nat) (c : Cell) :
    (g.recode φ t).replaceCell x y (c.recode φ) = (g.replaceCell x y c).map (recode φ t) :=
  recode_visibleRowMut (fun r => bind_renamed (r.recode_set x c) fun _ => rfl) g y

theorem recode_setCell (h0 : φ 0 = 0) (g : Grid) (x y : Nat) (c : Cell) :
    (g.recode φ t).setCell x y (c.recode φ) = (g.setCell x y c).map (recode φ t) := by
  refine ite_renamed Iff.rfl rfl (bind_renamed (g.recode_fixupWideCharAt h0 x y) fun g =>
    bind_renamed (g.recode_replaceCell x y c) fun g => ite_renamed Iff.rfl ?_ rfl)
  exact bind_renamed (g.recode_fixupWideCharAt h0 (x + 1) y) fun g =>
    g.recode_replaceCell (x + 1) y { c := '\x00', styleId := c.styleId, width := 0 }

theorem recode_eraseCells (h0 : φ 0 = 0) (g : Grid) (y lo hi : Nat) (blank : Cell) :
    (g.recode φ t).eraseCells y lo hi (blank.recode φ) = (g.eraseCells y lo hi blank).map (recode φ t) := by
  refine ite_renamed Iff.rfl rfl (ite_renamed Iff.rfl rfl (bind_renamed (g.recode_fixupWideCharAt h0 ..) fun g => ?_))
  refine ite_renamed Iff.rfl (bind_renamed (g.recode_fixupWideCharAt h0 ..) fun g => ?_) ?_
  · refine recode_visibleRowMut (fun r => ?_) g y
    exact bind_renamed (iterFrom_renamed (fun i r => r.recode_set i blank) _ _ r) fun _ => rfl
  · refine recode_visibleRowMut (fun r => ?_) g y
    exact bind_renamed (iterFrom_renamed (fun i r => r.recode_set i blank) _ _ r) fun _ => rfl

theorem recode_eraseRows (g : Grid) (lo hi : Nat) (blank : Cell) :
    (g.recode φ t).eraseRows lo hi (blank.recode φ) = (g.eraseRows lo hi blank).map (recode φ t) := by
  refine iterFrom_renamed (fun y g => recode_visibleRowMut (fun r => ?_) g y) _ _ g
  simp [Row.recode, Row.clearAllCombining, Function.comp_def]

theorem recode_mapM {f' f : Row → Option Row} (hf : ∀ r, f' (r.recode φ) = (f r).map (Row.recode φ)) (l : List Row) :
    (l.map (Row.recode φ)).mapM f' = (l.mapM f).map (List.map (Row.recode φ)) := by
  induction l with
  | nil => rfl
  | cons r l ih =>
    simp only [List.map_cons, List.mapM_cons, Option.bind_eq_bind]
    exact bind_renamed (hf r) fun r => bind_renamed ih fun l => rfl

theorem recode_resize (h0 : φ 0 = 0) (g : Grid) (cols rows : Nat) :
    (g.recode φ t).resize cols rows = (g.resize cols rows).map (recode φ t) := by
  let d := sanitizeDimensions cols rows
  let sized : Grid := { g with cols := d.cols, rows := d.rows }
  have hfit : (sized.recode φ t).fitCells = sized.fitCells.map (Row.recode φ) := recode_fitCells h0 sized
  refine bind_shared (by simp) fun _ => bind_renamed (v := List.map (Row.recode φ)) ?_ fun visible => ?_
  · change ((sized.recode φ t).fitCells.drop g.scrollbackLen).mapM (Grid.fitRow d.cols) = _
    rw [hfit, ← List.map_drop]
    exact recode_mapM (recode_fitRow h0 d.cols) _
  · refine bind_shared rfl fun right => bind_shared rfl fun bottom => ?_
    rw [← recode_checkInvariants]
    refine congrArg checkInvariants ?_
    change Grid.mk _ _ ((sized.recode φ t).fitCells.take g.scrollbackLen ++ visible.map (Row.recode φ)) _ _ _ _ _ _ _ _ _ _ _ _ = _
    rw [hfit, ← List.map_take, ← List.map_append]
    rfl

end Grid

section

variable {φ : StyleId → StyleId} {t : StyleTable}

theorem recode_fixDeleted (g : Grid) (x y : Nat) (blank : Cell) :
    Screen.fixDeleted (g.recode φ t) x y (blank.recode φ) = (Screen.fixDeleted g x y blank).map (Grid.recode φ t) := by
  refine ite_renamed Iff.rfl (bind_renamed (g.recode_visibleRow y) fun row => bind_renamed (row.recode_get x) fun cell =>
    ite_renamed Iff.rfl (bind_renamed (g.recode_setRow x y blank) fun g => ite_renamed Iff.rfl ?_ rfl) rfl) rfl
  exact bind_renamed (g.recode_visibleRow y) fun row => bind_renamed (row.recode_get (x - 1)) fun base =>
    ite_renamed Iff.rfl (g.recode_setRow (x - 1) y blank) rfl

theorem recode_fixInserted (g : Grid) (y : Nat) (blank : Cell) :
    Screen.fixInserted (g.recode φ t) y (blank.recode φ) = (Screen.fixInserted g y blank).map (Grid.recode φ t) := by
  refine bind_shared rfl fun last => bind_renamed (g.recode_visibleRow y) fun row =>
    bind_renamed (row.recode_get last) fun cell => ite_renamed Iff.rfl (g.recode_setRow last y blank) (ite_renamed Iff.rfl ?_ rfl)
  refine bind_renamed (g.recode_setRow last y blank) fun g => ite_renamed Iff.rfl ?_ rfl
  exact bind_renamed (g.recode_visibleRow y) fun row => bind_renamed (row.recode_get (last - 1)) fun base =>
    ite_renamed Iff.rfl (g.recode_setRow (last - 1) y blank) rfl

theorem recode_moveBlank (src dst bottom : Nat) (blank : Cell) (g : Grid) :
    Screen.moveBlank src dst bottom (blank.recode φ) (g.recode φ t) =
      (Screen.moveBlank src dst bottom blank g).map (Grid.recode φ t) := by
  refine ite_renamed (by simp) (bind_renamed (g.recode_removeVisibleRow src) fun g => ?_) rfl
  rw [Grid.recode_newBlankRow]
  exact g.recode_insertVisibleRow dst _

end

/-! ## Screens -/

def SavedGrid.recode (φ : StyleId → StyleId) (saved : SavedGrid) : SavedGrid :=
  { saved with visibleCells := saved.visibleCells.map (Row.recode φ) }

def ScreenState.recode (φ : StyleId → StyleId) (st : ScreenState) : ScreenState :=
  { st with savedGrid := st.savedGrid.map (SavedGrid.recode φ) }

theorem ScreenState.recode_pushPassthrough (st : ScreenState) (φ : StyleId → StyleId) (data : List UInt8) :
    (st.recode φ).pushPassthrough data = (st.pushPassthrough data).recode φ := by
  simp only [pushPassthrough, apply_ite (ScreenState.recode φ)]
  rfl

theorem ScreenState.recode_pushResponse (st : ScreenState) (φ : StyleId → StyleId) (data : List UInt8) :
    (st.recode φ).pushResponse data = (st.pushResponse data).recode φ := by
  simp only [pushResponse, apply_ite (ScreenState.recode φ)]
  rfl

namespace Screen

/-- Other ids in every row, another style table and another record of the rows
scrolled off. -/
def recode (φ : StyleId → StyleId) (t : StyleTable) (off : List Row) (s : Screen) : Screen :=
  { grid := s.grid.recode φ t, state := s.state.recode φ, scrolledOff := off }

/-- The same is done with other ids. -/
def Natural (k : StyleId → Screen → Option Screen) : Prop :=
  ∀ φ, φ 0 = 0 → ∀ t off id s, k (φ id) (recode φ t off s) = (k id s).map (recode φ t off)

theorem some_natural {f : Screen → Screen} (hf : ∀ φ t off s, f (recode φ t off s) = recode φ t off (f s)) :
    Natural fun _ s => some (f s) :=
  fun φ _ t off _ s => congrArg some (hf φ t off s)

theorem ite_natural {p : Screen → Prop} [DecidablePred p] (hp : ∀ φ t off s, p (recode φ t off s) ↔ p s)
    {k l : StyleId → Screen → Option Screen} (hk : Natural k) (hl : Natural l) :
    Natural fun id s => if p s then k id s else l id s :=
  fun φ h0 t off id s => ite_renamed (hp φ t off s) (hk φ h0 t off id s) (hl φ h0 t off id s)

theorem comp_natural {k l : StyleId → Screen → Option Screen} (hk : Natural k) (hl : Natural l) :
    Natural fun id s => (k id s).bind (l id) :=
  fun φ h0 t off id s => bind_renamed (hk φ h0 t off id s) fun s => hl φ h0 t off id s

/-! ## Handlers that intern nothing -/

theorem restoreCursor_natural : Natural fun _ => restoreCursor := by
  intro φ _ t off _ s
  simp only [restoreCursor]
  rw [show (recode φ t off s).state.savedCursorState = s.state.savedCursorState from rfl]
  cases s.state.savedCursorState with
  | none => rfl
  | some saved => exact bind_shared rfl fun right => bind_shared rfl fun bottom => rfl

theorem switchToAlt_natural : Natural fun _ => switchToAlt := by
  intro φ h0 t off _ s
  refine bind_renamed s.grid.recode_drainVisible fun p => bind_renamed (p.2.recode_fillVisibleBlank h0) fun g => ?_
  exact bind_renamed (Grid.recode_resetScrollRegion (((g.setScrollbackLimit 0).setCursorX 0).setCursorY 0)) fun _ => rfl

theorem enterAltScreen_natural (save : Bool) : Natural fun _ s => s.enterAltScreen save := by
  refine ite_natural (p := fun s => s.state.inAltScreen = true) (fun _ _ _ _ => Iff.rfl) (some_natural fun _ _ _ _ => rfl) ?_
  cases save with
  | true => exact comp_natural (some_natural (f := saveCursor) fun _ _ _ _ => rfl) switchToAlt_natural
  | false => exact switchToAlt_natural

theorem restoreRows_natural : Natural fun _ => restoreRows := by
  intro φ h0 t off _ s
  have hsaved : (recode φ t off s).state.savedGrid = s.state.savedGrid.map (SavedGrid.recode φ) := rfl
  simp only [restoreRows]
  rw [hsaved]
  cases s.state.savedGrid with
  | none => rfl
  | some saved =>
    simp only [Option.map_some]
    have hadjust : (((recode φ t off s).grid.replaceVisible (saved.recode φ).visibleCells).setScrollbackLimit
        (saved.recode φ).scrollbackLimit).adjustVisibleToFit =
        (((s.grid.replaceVisible saved.visibleCells).setScrollbackLimit saved.scrollbackLimit).adjustVisibleToFit).map
          (Grid.recode φ t) := by
      rw [← Grid.recode_adjustVisibleToFit h0]
      exact congrArg (fun g => (Grid.setScrollbackLimit g saved.scrollbackLimit).adjustVisibleToFit)
        (s.grid.recode_replaceVisible saved.visibleCells)
    refine bind_renamed hadjust fun g => bind_renamed ?_ fun _ => rfl
    rw [g.recode_visibleRowCount]
    exact iterFrom_renamed (fun y g => Grid.recode_visibleRowMut (fun r => recode_fitRow h0 g.cols r) g y) 0 _ g

theorem restoreModes_natural : Natural fun _ s => some s.restoreModes := by
  apply some_natural
  intro φ t off s
  unfold restoreModes
  rw [show (recode φ t off s).state.savedModes = s.state.savedModes from rfl]
  cases s.state.savedModes <;> rfl

theorem restoreRegion_natural : Natural fun _ => restoreRegion := by
  intro φ _ t off _ s
  simp only [restoreRegion]
  rw [show (recode φ t off s).state.savedScrollRegion = s.state.savedScrollRegion from rfl]
  cases s.state.savedScrollRegion with
  | none => exact bind_renamed s.grid.recode_resetScrollRegion fun _ => rfl
  | some region => rfl

theorem handleCombiningMark_natural (c : Char) : Natural fun _ s => s.handleCombiningMark c := by
  intro φ _ t off _ s
  refine ite_renamed (p := s.grid.cursorY ≥ s.grid.rows) Iff.rfl rfl ?_
  rw [show (recode φ t off s).markColumn = s.markColumn from rfl]
  cases s.markColumn with
  | none => rfl
  | some tx =>
    refine ite_renamed (p := tx ≥ s.grid.cols) Iff.rfl rfl (bind_renamed (s.grid.recode_visibleRow _) fun row =>
      bind_renamed (row.recode_get tx) fun cell => ite_renamed Iff.rfl (bind_renamed ?_ fun _ => rfl) rfl)
    exact Grid.recode_visibleRowMut (fun _ => rfl) s.grid _

theorem resize_natural (cols rows : Nat) : Natural fun _ s => s.resize cols rows := by
  intro φ h0 t off _ s
  refine bind_renamed (v := Grid.recode φ t) ?_ fun g => bind_renamed (g.recode_resize h0 cols rows) fun _ => rfl
  refine ite_renamed (p := ¬ s.state.inAltScreen ∧ rows > s.grid.rows) Iff.rfl ?_ rfl
  exact bind_renamed (s.grid.recode_restoreScrollback _) fun _ => rfl

theorem takePendingScrollback_natural : Natural fun _ s => some s.takePendingScrollback.2 := some_natural fun _ _ _ _ => rfl

theorem alignmentPattern_natural : Natural fun _ => alignmentPattern := by
  intro φ h0 t off _ s
  refine bind_renamed s.grid.recode_resetScrollRegion fun g => bind_renamed (v := Grid.recode φ t) ?_ fun _ => rfl
  let e : Cell := { c := 'E', styleId := 0, width := 1 }
  have he : e.recode φ = e := by simp [e, Cell.recode, h0]
  have hrow (y : Nat) (h : Grid) : iterFrom (fun x (h : Grid) => h.setCell x y e) 0 g.cols (h.recode φ t) =
      (iterFrom (fun x (h : Grid) => h.setCell x y e) 0 g.cols h).map (Grid.recode φ t) :=
    iterFrom_renamed (fun x h => by rw [← h.recode_setCell h0, he]) 0 _ h
  exact iterFrom_renamed hrow 0 g.rows (((g.setCursorX 0).setCursorY 0).setWrapPending false)

theorem pushTitle_natural : Natural fun _ => pushTitle := by
  intro φ _ t off _ s
  refine ite_renamed (p := s.state.titleStack.length < 16) Iff.rfl ?_ rfl
  exact ite_renamed (p := maxTitleLen ≤ s.state.title.length) Iff.rfl
    (bind_shared (x := cutTitle s.state.title) rfl fun _ => rfl) rfl

theorem popTitle_natural : Natural fun _ s => some s.popTitle := by
  apply some_natural
  intro φ t off s
  unfold popTitle
  rw [show (recode φ t off s).state.titleStack = s.state.titleStack from rfl]
  cases s.state.titleStack.getLast? <;> rfl

/-- What leaving the alternate screen does before it collects garbage. -/
theorem exitAltScreen_natural (restore : Bool) : ∃ k : Screen → Option Screen, Natural (fun _ => k) ∧
    ∀ s : Screen, s.state.inAltScreen = true →
      s.exitAltScreen restore = (k s).bind fun s => some (s.onGrid fun g => compactStyles g none) := by
  have hrows : Natural fun _ s => restoreRows { s with state := { s.state with inAltScreen := false } } :=
    comp_natural (some_natural fun _ _ _ _ => rfl) restoreRows_natural
  have hcursor : Natural fun _ s => if restore then s.restoreModes.restoreCursor else some s.restoreModes := by
    cases restore with
    | true => exact comp_natural restoreModes_natural restoreCursor_natural
    | false => exact restoreModes_natural
  refine ⟨_, comp_natural hrows (comp_natural hcursor restoreRegion_natural), ?_⟩
  intro s halt
  rw [exitAltScreen, if_neg (by simp [halt])]
  simp only [Option.bind_eq_bind, Option.bind_assoc]
  cases restore <;> rfl

/-! ## Callbacks that intern nothing -/

theorem pushPassthrough_natural (data : List UInt8) :
    Natural fun _ s => some { s with state := s.state.pushPassthrough data } :=
  some_natural fun φ t off s => congrArg (fun st => Screen.mk (s.grid.recode φ t) st off) (s.state.recode_pushPassthrough φ data)

theorem execute_natural (byte : UInt8) (hbyte : byte ∉ [0x0a, 0x0b, 0x0c]) : Natural fun _ s => s.execute byte := by
  intro φ h0 t off id s
  simp only [execute]
  split
  · rfl
  · exact absurd hbyte (by simp)
  · exact absurd hbyte (by simp)
  · exact absurd hbyte (by simp)
  · rfl
  · exact bind_shared (x := s.grid.nextTabStop s.grid.cursorX) rfl fun _ => rfl
  · rfl
  · rfl
  · exact pushPassthrough_natural _ φ h0 t off id s
  · rfl

/-- Only leaving the alternate screen collects garbage. -/
theorem setDecMode_natural (mode : Nat) (enable : Bool) (hmode : enable = true ∨ mode ∉ [47, 1047, 1049]) :
    Natural fun _ s => s.setDecMode mode enable := by
  intro φ h0 t off id s
  simp only [setDecMode]
  split
  · rfl
  · cases enable <;> rfl
  · rfl
  · rfl
  · rfl
  · rfl
  · rfl
  · rfl
  · rfl
  · rfl
  · cases enable with
    | true => rfl
    | false => exact restoreCursor_natural φ h0 t off id s
  · rfl
  · cases enable with
    | true => exact enterAltScreen_natural true φ h0 t off id s
    | false => exact absurd hmode (by simp)
  · cases enable with
    | true => exact enterAltScreen_natural false φ h0 t off id s
    | false => exact absurd hmode (by simp)
  · cases enable with
    | true => exact enterAltScreen_natural false φ h0 t off id s
    | false => exact absurd hmode (by simp)
  · rfl

theorem pushResponse_natural (data : List UInt8) : Natural fun _ s => some { s with state := s.state.pushResponse data } :=
  some_natural fun φ t off s => congrArg (fun st => Screen.mk (s.grid.recode φ t) st off) (s.state.recode_pushResponse φ data)

/-- The final bytes of the sequences that write cells or switch screens. -/
def paints (action : Char) : Bool := action ∈ ['J', 'K', 'X', 'P', '@', 'b', 'S', 'T', 'M', 'L', 'h', 'l']

theorem csiDispatch_natural (W : UnicodeWidth) (ps : List Param) (intermediates : List Char) {action : Char}
    (haction : paints action = false) : Natural fun _ s => s.csiDispatch W ps intermediates action := by
  intro φ h0 t off id s
  have hskip {action : Char} (h : paints action = true) (h' : paints action = false) {P : Prop} : P := by
    rw [h] at h'
    cases h'
  simp only [csiDispatch]
  split
  · rfl
  · exact bind_shared (x := lowerStop s.grid) rfl fun _ => rfl
  · exact bind_shared (x := sub s.grid.cols 1) rfl fun _ => rfl
  · rfl
  · exact bind_shared (x := lowerStop s.grid) rfl fun _ => rfl
  · rfl
  · exact bind_shared (x := sub s.grid.cols 1) rfl fun _ => rfl
  · exact bind_shared (x := addressedRow s.grid _) rfl fun _ => bind_shared (x := sub s.grid.cols 1) rfl fun _ => rfl
  · exact bind_shared (x := addressedRow s.grid _) rfl fun _ => bind_shared (x := sub s.grid.cols 1) rfl fun _ => rfl
  · exact bind_shared (x := addressedRow s.grid _) rfl fun _ => rfl
  · exact hskip rfl haction
  · exact hskip rfl haction
  · exact hskip rfl haction
  · exact hskip rfl haction
  · exact hskip rfl haction
  · exact hskip rfl haction
  · rfl
  · refine ite_renamed Iff.rfl ?_ rfl
    exact bind_shared (x := s.cursorReport) rfl fun r => pushResponse_natural r φ h0 t off id s
  · refine ite_renamed Iff.rfl (ite_renamed Iff.rfl ?_ (ite_renamed Iff.rfl ?_ rfl)) rfl
    · exact pushResponse_natural _ φ h0 t off id s
    · exact pushResponse_natural _ φ h0 t off id s
  · exact ite_renamed Iff.rfl rfl rfl
  · exact hskip rfl haction
  · exact hskip rfl haction
  · exact hskip rfl haction
  · exact hskip rfl haction
  · refine ite_renamed Iff.rfl ?_ rfl
    exact bind_shared (x := sub s.grid.rows 1) rfl fun last => ite_renamed Iff.rfl rfl rfl
  · exact ite_renamed Iff.rfl rfl rfl
  · exact ite_renamed Iff.rfl (restoreCursor_natural φ h0 t off id s) rfl
  · refine ite_renamed Iff.rfl ?_ rfl
    split <;> rfl
  · refine ite_renamed Iff.rfl ?_ rfl
    split
    · exact pushTitle_natural φ h0 t off id s
    · exact popTitle_natural φ h0 t off id s
    · rfl
  · exact hskip rfl haction
  · exact hskip rfl haction
  · rfl

/-- IND, NEL and RI scroll; RIS makes a new style table. -/
theorem escDispatch_natural (intermediates : List Char) (byte : Char)
    (hbyte : intermediates = [] → byte ∉ ['D', 'E', 'M', 'c']) : Natural fun _ s => s.escDispatch intermediates byte := by
  intro φ h0 t off id s
  simp only [escDispatch]
  split
  · rfl
  · exact absurd (hbyte rfl) (by simp)
  · exact absurd (hbyte rfl) (by simp)
  · exact absurd (hbyte rfl) (by simp)
  · rfl
  · exact restoreCursor_natural φ h0 t off id s
  · exact absurd (hbyte rfl) (by simp)
  · rfl
  · rfl
  · rfl
  · rfl
  · rfl
  · rfl
  · exact alignmentPattern_natural φ h0 t off id s
  · rfl

theorem oscDispatch_natural (params : List (List UInt8)) (bell : Bool) : Natural fun _ s => s.oscDispatch params bell := by
  intro φ h0 t off id s
  simp only [oscDispatch]
  cases params with
  | nil => rfl
  | cons num rest =>
    refine ite_renamed Iff.rfl ?_ (ite_renamed Iff.rfl ?_ (pushPassthrough_natural _ φ h0 t off id s))
    · cases rest with
      | nil => rfl
      | cons title _ =>
        refine ite_renamed Iff.rfl ?_ rfl
        exact ite_renamed Iff.rfl rfl (bind_shared (x := cutTitle title) rfl fun _ => rfl)
    · rfl

/-! ## Handlers that intern one style -/

theorem recode_id (s : Screen) (t : StyleTable) : recode id t s.scrolledOff s = s.onGrid (·.setStyleTable t) := by
  have hcell : Cell.recode id = id := rfl
  have hrow : Row.recode id = id := funext fun r => by simp [Row.recode, hcell]
  have hsaved : SavedGrid.recode id = id := funext fun g => by simp [SavedGrid.recode, hrow]
  simp [recode, Grid.recode, ScreenState.recode, hrow, hsaved, onGrid, Grid.setStyleTable]

def unlogged (s : Screen) : Screen := { s with scrolledOff := [] }

/-- One style is interned, and the rest is natural in its id. The rows that
scroll off are not looked at. -/
def InternsOnce (f : Screen → Option Screen) : Prop :=
  ∃ (style : Screen → Style) (k : StyleId → Screen → Option Screen),
    (∀ φ t off s, style (recode φ t off s) = style s) ∧ Natural k ∧
    ∀ s, (f s).map unlogged = ((s.internWithGc (style s)).bind fun p => k p.1 p.2).map unlogged

theorem intern_internsOnce (style : Screen → Style) (hstyle : ∀ φ t off s, style (recode φ t off s) = style s)
    {k : StyleId × Screen → Option Screen} (hk : Natural fun id s => k (id, s)) :
    InternsOnce fun s => (s.internWithGc (style s)).bind k :=
  ⟨style, fun id s => k (id, s), hstyle, hk, fun _ => rfl⟩

/-- A handler that starts with a blank cell. -/
theorem blank_internsOnce {k : Cell × Screen → Option Screen}
    (hk : ∀ φ, φ 0 = 0 → ∀ t off (blank : Cell) s, k (blank.recode φ, recode φ t off s) = (k (blank, s)).map (recode φ t off)) :
    InternsOnce fun s => s.blankCell.bind k := by
  refine ⟨fun s => { bg := s.state.currentStyle.bg }, fun id s => k ({ c := ' ', styleId := id, width := 1 }, s),
    fun _ _ _ _ => rfl, fun φ h0 t off id s => hk φ h0 t off { c := ' ', styleId := id, width := 1 } s, fun s => ?_⟩
  dsimp only
  rw [blankCell]
  cases s.internWithGc { bg := s.state.currentStyle.bg } <;> rfl

/-- A handler that looks first whether there is something to do. -/
theorem ite_internsOnce {p : Screen → Prop} [DecidablePred p] (hp : ∀ φ t off s, p (recode φ t off s) ↔ p s)
    {f : Screen → Option Screen} (hf : InternsOnce f) : InternsOnce fun s => if p s then f s else some s := by
  obtain ⟨style, k, hstyle, hk, heq⟩ := hf
  refine ⟨fun s => if p s then style s else {}, fun id s => if p s then k id s else some s, fun φ t off s => ?_,
    ite_natural hp hk (some_natural fun _ _ _ _ => rfl), fun s => ?_⟩
  · simp only [hp, hstyle]
  · by_cases h : p s
    · simp only [if_pos h, heq]
      cases hint : s.internWithGc (style s) with
      | none => rfl
      | some q =>
        obtain ⟨t, ht⟩ := internWithGc_table hint
        have hq : p q.2 := by rwa [ht, ← recode_id, hp]
        simp only [Option.bind_some, if_pos hq]
    · simp only [if_neg h]
      exact (congrArg (Option.map unlogged) (if_neg h)).symm

theorem scrollUp_internsOnce : InternsOnce scrollUp := by
  refine ⟨fun s => { bg := s.state.currentStyle.bg }, fun id s => (s.grid.scrollUp s.state.inAltScreen
    { c := ' ', styleId := id, width := 1 }).bind fun g => some { s with grid := g }, fun _ _ _ _ => rfl, ?_, fun s => ?_⟩
  · exact fun φ _ t off id s => bind_renamed (s.grid.recode_scrollUp s.state.inAltScreen { c := ' ', styleId := id, width := 1 })
      fun _ => rfl
  · rw [scrollUp, blankCell]
    cases s.internWithGc { bg := s.state.currentStyle.bg } with
    | none => rfl
    | some q =>
      simp only [Option.bind_eq_bind, Option.bind_some, pure]
      cases q.2.grid.scrollUp q.2.state.inAltScreen { c := ' ', styleId := q.1, width := 1 } <;> rfl

theorem scrollDown_internsOnce : InternsOnce scrollDown :=
  blank_internsOnce fun _ _ _ _ blank s => bind_renamed (s.grid.recode_scrollDown blank) fun _ => rfl

theorem csiEraseDisplay_internsOnce (mode : Nat) : InternsOnce (csiEraseDisplay · mode) := by
  apply blank_internsOnce
  intro φ h0 t off blank s
  rcases mode with _ | _ | _ | _ | mode
  · exact bind_renamed (s.grid.recode_eraseCells h0 _ _ _ blank) fun g =>
      bind_renamed (g.recode_eraseRows _ _ blank) fun _ => rfl
  · exact bind_renamed (s.grid.recode_eraseRows _ _ blank) fun g =>
      bind_renamed (g.recode_eraseCells h0 _ _ _ blank) fun _ => rfl
  · exact bind_renamed (s.grid.recode_eraseRows _ _ blank) fun _ => rfl
  · apply bind_renamed s.grid.recode_clearScrollback
    intro g
    exact congrArg (fun st => some (Screen.mk (g.recode φ t) st off)) (s.state.recode_pushPassthrough φ _)
  · rfl

theorem csiEraseLine_internsOnce (mode : Nat) : InternsOnce (csiEraseLine · mode) := by
  apply blank_internsOnce
  intro φ h0 t off blank s
  rcases mode with _ | _ | _ | mode
  · exact bind_renamed (s.grid.recode_eraseCells h0 _ _ _ blank) fun _ => rfl
  · exact bind_renamed (s.grid.recode_eraseCells h0 _ _ _ blank) fun _ => rfl
  · exact bind_renamed (s.grid.recode_eraseCells h0 _ _ _ blank) fun _ => rfl
  · rfl

theorem csiEraseCharacter_internsOnce (n : Nat) : InternsOnce (csiEraseCharacter · n) :=
  blank_internsOnce fun _ h0 _ _ blank s =>
    ite_renamed Iff.rfl (bind_renamed (s.grid.recode_eraseCells h0 _ _ _ blank) fun _ => rfl) rfl

theorem csiDeleteCharacter_internsOnce (n : Nat) : InternsOnce (csiDeleteCharacter · n) := by
  refine blank_internsOnce fun φ h0 t off blank s =>
    ite_renamed Iff.rfl (bind_renamed (s.grid.recode_fixupWideCharAt h0 _ _) fun g => bind_renamed ?_ fun g =>
      bind_renamed (recode_fixDeleted g _ _ blank) fun _ => rfl) rfl
  exact iter_renamed (fun g => Grid.recode_visibleRowMut (recode_deleteCell _ blank) g _) _ g

theorem csiInsertCharacter_internsOnce (n : Nat) : InternsOnce (csiInsertCharacter · n) := by
  refine blank_internsOnce fun φ h0 t off blank s =>
    ite_renamed Iff.rfl (bind_renamed (s.grid.recode_fixupWideCharAt h0 _ _) fun g => bind_renamed ?_ fun g =>
      bind_renamed (recode_fixInserted g _ blank) fun _ => rfl) rfl
  exact iter_renamed (fun g => Grid.recode_visibleRowMut (recode_insertCell _ blank) g _) _ g

theorem shiftLines_internsOnce (n : Nat) {move : Nat → Nat → Cell → Grid → Option Grid}
    (hmove : ∀ φ t y bottom blank g, move y bottom (blank.recode φ) (g.recode φ t) =
      (move y bottom blank g).map (Grid.recode φ t)) : InternsOnce (shiftLines · n move) :=
  blank_internsOnce fun φ _ t _ blank s => ite_renamed Iff.rfl
    (bind_renamed (iter_renamed (hmove φ t _ _ blank) _ (s.grid.setWrapPending false)) fun _ => rfl) rfl

theorem csiDeleteLines_internsOnce (n : Nat) : InternsOnce (csiDeleteLines · n) :=
  shiftLines_internsOnce n fun _ _ y bottom blank g => recode_moveBlank y bottom bottom blank g

theorem csiInsertLines_internsOnce (n : Nat) : InternsOnce (csiInsertLines · n) :=
  shiftLines_internsOnce n fun _ _ y bottom blank g => recode_moveBlank bottom y bottom blank g

theorem blankMargin_internsOnce : InternsOnce blankMargin := by
  refine ite_internsOnce (p := fun s => s.grid.cursorX < s.grid.cols ∧ s.grid.cursorY < s.grid.rows)
    (fun _ _ _ _ => Iff.rfl) (blank_internsOnce fun φ _ t off blank s => ?_)
  exact bind_renamed (s.grid.recode_setRow _ _ blank) fun _ => rfl

theorem putChar_internsOnce (c : Char) (width : Nat) : InternsOnce (putChar · c width) := by
  refine ite_internsOnce (p := fun s => s.grid.cursorX < s.grid.cols ∧ s.grid.cursorY < s.grid.rows)
    (fun _ _ _ _ => Iff.rfl) (intern_internsOnce (fun s => s.state.currentStyle) (fun _ _ _ _ => rfl)
      fun φ h0 t off id s => bind_renamed (s.grid.recode_setCell h0 _ _ { c, styleId := id, width }) fun g => ?_)
  refine bind_shared (x := add16 g.cursorX width) rfl fun x => ite_renamed Iff.rfl (bind_shared (x := sub g.cols 1) rfl fun right => ?_) rfl
  refine congrArg (fun g => some (Screen.mk g (s.state.recode φ) off)) ?_
  change (if g.modes.autowrapMode then _ else _) = Grid.recode φ t (if g.modes.autowrapMode then _ else _)
  split <;> rfl

end Screen

end Retach
