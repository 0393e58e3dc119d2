import Retach.Handlers
/-!
# Every callback as effects

Printing, the dispatchers and resizing. A callback of a screen with the
invariant succeeds, with two provisos: a printed character must fit into 16-bit
columns (`PrintFits`), and a title must be short (`Event.OscBounded`).
-/

open Checked Lists Runs

namespace Retach

/-- The column of the character that a mark at column `tx` belongs to. -/
def Row.baseColumn (row : Row) (tx : Nat) : Nat := if row.cells[tx]?.map (·.width) = some 0 ∧ 0 < tx then tx - 1 else tx

theorem Row.baseColumn_eq {row : Row} {tx : Nat} {cell : Cell} (hcell : row.cells[tx]? = some cell) :
    row.baseColumn tx = if cell.width = 0 ∧ tx > 0 then tx - 1 else tx := by
  simp only [baseColumn, hcell, Option.map_some, Option.some.injEq, gt_iff_lt]

namespace Screen

variable {allowed : Kind → Prop} {s : Screen}

/-! ## Lines -/

theorem moveBlank_does (ho : allowed .other) (h : s.Inv) {id : StyleId} (hid : s.grid.styleTable.Held id)
    {src dst bottom : Nat} (hsrc : src < s.grid.rows) (hdst : dst < s.grid.rows) (hbottom : bottom < s.grid.rows) :
    ∃ g, moveBlank src dst bottom { c := ' ', styleId := id, width := 1 } s.grid = some g ∧
      Steps Effect allowed s (s.onGrid fun _ => g) ∧ g.styleTable = s.grid.styleTable ∧ g.rows = s.grid.rows := by
  have hcount : bottom < s.grid.visibleRowCount := by
    rw [Grid.visibleRowCount, h.shape.cells_len]
    omega
  refine ⟨_, ?_, rotated_steps ho h hid hsrc hdst, rfl, rfl⟩
  rw [moveBlank, if_pos hcount]
  exact h.shape.moveRow hsrc hdst _

theorem shiftLines_does (ho : allowed .other) (hm : allowed .move) (h : s.Inv) (n : Nat) {move : Nat → Nat → Cell → Grid → Option Grid}
    (hmove : ∀ (s : Screen) (id : StyleId) (y bottom : Nat), s.Inv → s.grid.styleTable.Held id → y ≤ bottom →
      bottom < s.grid.rows → ∃ g, move y bottom { c := ' ', styleId := id, width := 1 } s.grid = some g ∧
        Steps Effect allowed s (s.onGrid fun _ => g) ∧ g.styleTable = s.grid.styleTable ∧ g.rows = s.grid.rows) :
    Does allowed s (s.shiftLines n move) := by
  apply does_blank ho h
  intro id s h hid _
  dsimp only
  split
  next hin =>
    have hstart : Steps Effect allowed s (s.onGrid (·.setWrapPending false)) :=
      .single hm (.cursor s.grid.cursorX s.grid.cursorY false h.shape.cursor_x h.shape.cursor_y)
    obtain ⟨g, hg, hs, -, -⟩ := iter_spec
      (fun g => Steps Effect allowed s (s.onGrid fun _ => g) ∧ g.styleTable = s.grid.styleTable ∧ g.rows = s.grid.rows)
      (f := move s.grid.cursorY s.grid.scrollBottom { c := ' ', styleId := id, width := 1 })
      (fun g ⟨hs, ht, hr⟩ => by
        obtain ⟨g', hg', hs', ht', hr'⟩ := hmove (s.onGrid fun _ => g) id s.grid.cursorY s.grid.scrollBottom
          (steps_inv hs h) (ht ▸ hid) hin.2 (hr ▸ h.shape.region_lt)
        exact ⟨g', hg', hs.trans hs', ht'.trans ht, hr'.trans hr⟩)
      (min n (s.grid.scrollBottom - s.grid.cursorY + 1)) ⟨hstart, rfl, rfl⟩
    rw [hg]
    exact .of_steps hs
  next => exact .stay s

theorem csiDeleteLines_does (ho : allowed .other) (hm : allowed .move) (h : s.Inv) (n : Nat) : Does allowed s (s.csiDeleteLines n) :=
  shiftLines_does ho hm h n fun _ _ _ _ h hid hy hb => moveBlank_does ho h hid (Nat.lt_of_le_of_lt hy hb) hb hb

theorem csiInsertLines_does (ho : allowed .other) (hm : allowed .move) (h : s.Inv) (n : Nat) : Does allowed s (s.csiInsertLines n) :=
  shiftLines_does ho hm h n fun _ _ _ _ h hid hy hb => moveBlank_does ho h hid hb (Nat.lt_of_le_of_lt hy hb) hb

theorem csiScrollUpN_does (ho : allowed .other) (h : s.Inv) (n : Nat) : Does allowed s (s.csiScrollUpN n) :=
  iter_takes (fun _ _ _ _ he => he.inv) (fun _ h => scrollUp_does ho h) _ h

theorem csiScrollDownN_does (ho : allowed .other) (h : s.Inv) (n : Nat) : Does allowed s (s.csiScrollDownN n) :=
  iter_takes (fun _ _ _ _ he => he.inv) (fun _ h => scrollDown_does ho h) _ h

/-! ## Printing -/

/-- A mark printed here is kept: there is a column before, with room for it. -/
def TakesMark (s : Screen) : Prop :=
  s.grid.cursorY < s.grid.rows ∧ ∃ tx, s.markColumn = some tx ∧ tx < s.grid.cols ∧
    ∃ row cell, s.grid.visibleRow s.grid.cursorY = some row ∧ row.get tx = some cell ∧
      row.combiningLen (if cell.width = 0 ∧ tx > 0 then tx - 1 else tx) < maxCombining

theorem markColumn_lt (h : s.Inv) {tx : Nat} (hcol : s.markColumn = some tx) : tx < s.grid.cols := by
  have hx := h.shape.cursor_x
  unfold markColumn at hcol
  split at hcol
  · obtain rfl := Option.some.inj hcol
    exact hx
  · split at hcol
    · obtain rfl := Option.some.inj hcol
      omega
    · cases hcol

theorem handleCombiningMark_none (h : s.Inv) (hcol : s.markColumn = none) (m : Char) : s.handleCombiningMark m = some s := by
  rw [handleCombiningMark, if_neg (Nat.not_le.2 h.shape.cursor_y), hcol]

theorem handleCombiningMark_some (h : s.Inv) {row : Row} (hrow : s.grid.HasRow s.grid.cursorY row) {tx : Nat} (hcol : s.markColumn = some tx)
    (m : Char) : s.handleCombiningMark m =
      some (if row.combiningLen (row.baseColumn tx) < maxCombining
        then s.onGrid fun g => g.putRow g.cursorY (row.pushCombining (row.baseColumn tx) m) else s) := by
  have htx := markColumn_lt h hcol
  have hlt : tx < row.cells.length := Nat.lt_of_lt_of_eq htx (h.shape.row_len row hrow.mem).symm
  have hcell : row.cells[tx]? = some row.cells[tx] := List.getElem?_eq_getElem hlt
  rw [handleCombiningMark, if_neg (Nat.not_le.2 h.shape.cursor_y), hcol]
  dsimp only
  rw [if_neg (Nat.not_le.2 htx), hrow.visibleRow, Row.baseColumn_eq hcell]
  simp only [Row.get, hcell, Option.bind_eq_bind, Option.bind_some]
  generalize (if row.cells[tx].width = 0 ∧ tx > 0 then tx - 1 else tx) = base
  split
  · rw [hrow.visibleRowMut (show _ = some (row.pushCombining base m) from rfl)]
    rfl
  · rfl

/-- A mark changes no cell. -/
theorem handleCombiningMark_does (ho : allowed .other) (h : s.Inv) (c : Char)
    (hcontrol : IsControl c → s.TakesMark → allowed .control) : Does allowed s (s.handleCombiningMark c) := by
  have hy := h.shape.cursor_y
  obtain ⟨row, hrow, hlen⟩ := h.shape.hasRow hy
  cases hcol : s.markColumn with
  | none =>
    rw [handleCombiningMark_none h hcol]
    exact .stay s
  | some tx =>
    rw [handleCombiningMark_some h hrow hcol]
    split
    next hroom =>
      have htx := markColumn_lt h hcol
      have hcell : row.cells[tx]? = some row.cells[tx] := List.getElem?_eq_getElem (Nat.lt_of_lt_of_eq htx hlen.symm)
      have htakes : s.TakesMark :=
        ⟨hy, tx, hcol, htx, row, row.cells[tx], hrow.visibleRow, hcell, Row.baseColumn_eq hcell ▸ hroom⟩
      by_cases hc : IsControl c
      · exact .of_steps (control_steps (hcontrol hc htakes) h hrow ⟨rfl, fun hb => hb.pushCombining hroom c⟩)
      · exact .of_steps (putRow_steps ho h h.table.held_zero hrow
          ⟨⟨.refl, fun hb => hb.pushCombining hroom c, fun hp => hp.pushCombining _ hc⟩, fun hp => hp⟩)
    next => exact .stay s

theorem performDeferredWrap_does (ho : allowed .other) (hm : allowed .move) (h : s.Inv) : Does allowed s s.performDeferredWrap :=
  advanceLine_after ho hm h h.shape.cols_pos false

/-- The cell under the cursor. -/
def cellAtCursor (s : Screen) : Option Cell := (s.grid.visibleRow s.grid.cursorY).bind (·.get s.grid.cursorX)

/-- Blanking the margin keeps the pairs unless it hits a continuation. -/
theorem blankMargin_does (ho : allowed .other) (h : s.Inv) (hx : s.grid.cols ≤ s.grid.cursorX + 1)
    (horphan : ∀ c, s.cellAtCursor = some c → c.width = 0 → allowed .orphan) : Does allowed s s.blankMargin := by
  unfold blankMargin
  rw [if_pos ⟨h.shape.cursor_x, h.shape.cursor_y⟩]
  apply does_blank ho h
  intro id s' h' hid ht
  have hx' : s'.grid.cols ≤ s'.grid.cursorX + 1 := by obtain ⟨t, rfl⟩ := ht; exact hx
  have horphan' : ∀ c, s'.cellAtCursor = some c → c.width = 0 → allowed .orphan := by
    obtain ⟨t, rfl⟩ := ht
    exact horphan
  have hcur := h'.shape.cursor_x
  obtain ⟨row, hrow, hlen⟩ := h'.shape.hasRow h'.shape.cursor_y
  have hlt : s'.grid.cursorX < row.cells.length := by omega
  have hover : row.Rewrite id { row with cells := row.cells.set s'.grid.cursorX { c := ' ', styleId := id, width := 1 } } :=
    ⟨.set (fresh_blank id) _, fun hb => hb, fun hp => hp⟩
  have hcell : s'.cellAtCursor = some row.cells[s'.grid.cursorX] := by
    rw [cellAtCursor, hrow.visibleRow]
    exact List.getElem?_eq_getElem hlt
  simp only [hrow.set _ hlt, Option.bind_eq_bind, Option.bind_some]
  by_cases hw : row.cells[s'.grid.cursorX].width = 0
  · exact .of_steps (orphan_steps (horphan' _ hcell hw) h' hid hrow hover)
  · refine .of_steps (putRow_steps ho h' hid hrow ⟨hover, fun hp => ?_⟩)
    exact hp.set_last (by omega) (List.getElem?_eq_getElem hlt) hw (single_blank id)

/-- `set_cell` with a held style. -/
theorem setCell_steps (ho : allowed .other) (h : s.Inv) (cell : Cell) (hid : s.grid.styleTable.Held cell.styleId)
    (hplain : ¬ IsControl cell.c) {x y : Nat} (hx : x < s.grid.cols) (hy : y < s.grid.rows) (h0 : cell.width ≠ 0)
    (h2 : cell.width = 2 → x + 1 < s.grid.cols) :
    ∃ row', s.grid.setCell x y cell = some (s.grid.putRow y row') ∧
      Steps Effect allowed s (s.onGrid (·.putRow y row')) := by
  obtain ⟨row, hrow, hlen⟩ := h.shape.hasRow hy
  have hmarks := row.written_marksFrom x cell
  refine ⟨_, hrow.setCell hlen hx cell, putRow_steps ho h hid hrow ⟨⟨?_, hmarks.bounded, hmarks.plain⟩, fun hp => ?_⟩⟩
  · rw [row.written_cells]
    exact writeCell_over (fresh_default _) x ⟨.inr rfl, fun _ => hplain⟩ ⟨.inr rfl, fun h => absurd rfl h⟩ _
  · rw [row.written_cells]
    exact hp.writeCell (by omega) h0 (by omega)

/-- The cursor past a character of `width` columns. -/
def passed (width : Nat) (g : Grid) : Grid :=
  if g.cursorX + width < g.cols then g.setCursorX (g.cursorX + width)
  else if g.modes.autowrapMode then (g.setCursorX (g.cols - 1)).setWrapPending true
  else g.setCursorX (g.cols - 1)

theorem passed_cursorY (width : Nat) (g : Grid) : (passed width g).cursorY = g.cursorY := by
  unfold passed
  split
  · rfl
  · split <;> rfl

/-- `putChar` once its style has an id. -/
theorem putChar_eq (h : s.Inv) {c : Char} {width : Nat} {id : StyleId} {t : StyleTable} {row : Row}
    (hint : s.internWithGc s.state.currentStyle = some (id, s.onGrid (·.setStyleTable t)))
    (hrow : s.grid.HasRow s.grid.cursorY row) (hfits : s.grid.cursorX + width ≤ 65535) :
    s.putChar c width = some (s.onGrid fun g =>
      passed width ((g.setStyleTable t).putRow g.cursorY (row.written g.cursorX { c, styleId := id, width }))) := by
  have hset : (s.grid.setStyleTable t).setCell s.grid.cursorX s.grid.cursorY { c, styleId := id, width } = _ :=
    Grid.HasRow.setCell (g := s.grid.setStyleTable t) hrow (h.shape.row_len row hrow.mem) h.shape.cursor_x _
  rw [putChar, if_pos ⟨h.shape.cursor_x, h.shape.cursor_y⟩, hint]
  simp only [Option.bind_eq_bind, Option.bind_some]
  change ((s.grid.setStyleTable t).setCell s.grid.cursorX s.grid.cursorY _).bind _ = _
  rw [hset, Option.bind_some]
  change (add16 s.grid.cursorX width).bind _ = _
  rw [add16_eq hfits, Option.bind_some]
  unfold passed
  by_cases hend : s.grid.cursorX + width < s.grid.cols
  · have hend' : ¬ s.grid.cursorX + width ≥ s.grid.cols := Nat.not_le.2 hend
    exact (if_neg hend').trans (congrArg (fun g => some (s.onGrid fun _ => g)) (if_pos hend).symm)
  · refine (if_pos (Nat.not_lt.1 hend)).trans ?_
    change (sub s.grid.cols 1).bind _ = _
    rw [sub_eq (show 1 ≤ s.grid.cols from h.shape.cols_pos), Option.bind_some]
    exact congrArg (fun g => some (s.onGrid fun _ => g)) (if_neg hend).symm

theorem putChar_does (ho : allowed .other) (hm : allowed .move) (h : s.Inv) {c : Char} (hplain : ¬ IsControl c) {width : Nat}
    (h0 : width ≠ 0) (h2 : width = 2 → s.grid.cursorX + 1 < s.grid.cols) (hfits : s.grid.cursorX + width ≤ 65535) :
    Does allowed s (s.putChar c width) := by
  rw [putChar, if_pos ⟨h.shape.cursor_x, h.shape.cursor_y⟩]
  apply does_intern ho h _
  intro id s' h' hid ht
  have hcur : s'.grid.cursorX = s.grid.cursorX ∧ s'.grid.cols = s.grid.cols := by obtain ⟨t, rfl⟩ := ht; exact ⟨rfl, rfl⟩
  obtain ⟨row', hset, hput⟩ := setCell_steps ho h' { c, styleId := id, width } hid hplain h'.shape.cursor_x
    h'.shape.cursor_y h0 (by rw [hcur.1, hcur.2]; exact h2)
  have h'' := steps_inv hput h'
  have hcols := h'.shape.cols_pos
  simp only [hset, Option.bind_eq_bind, Option.bind_some, Grid.putRow_cursorX, Grid.putRow_cols]
  rw [add16_eq (by rw [hcur.1]; exact hfits)]
  refine Takes.after hput ?_
  simp only [Option.bind_some]
  by_cases hend : s'.grid.cursorX + width ≥ s'.grid.cols
  · rw [if_pos hend, sub_eq hcols]
    simp only [Option.bind_some]
    have hlast : s'.grid.cols - 1 < s'.grid.cols := by omega
    split
    · exact does_cursor (s := s'.onGrid (·.putRow _ row')) hm hlast h''.shape.cursor_y true
    · exact does_cursor (s := s'.onGrid (·.putRow _ row')) hm hlast h''.shape.cursor_y s'.grid.wrapPending
  · rw [if_neg hend]
    have hlt : s'.grid.cursorX + width < s'.grid.cols := by omega
    exact does_cursor (s := s'.onGrid (·.putRow _ row')) hm hlt h''.shape.cursor_y s'.grid.wrapPending

/-- The column a printed character starts in is at most this one. -/
def PrintFits (W : UnicodeWidth) (s : Screen) (c : Char) : Prop :=
  (s.grid.wrapPending = true ∧ s.grid.modes.autowrapMode = true) ∨ W.charWidth (s.mapCharset c) ≤ 2 ∨
    s.grid.cursorX + W.charWidth (s.mapCharset c) ≤ 65535

/-- A wide character printed in the last column, on the continuation of another
one, while nothing wraps first. -/
def SplitsPair (W : UnicodeWidth) (s : Screen) (c : Char) : Prop :=
  W.charWidth (s.mapCharset c) = 2 ∧ s.grid.modes.autowrapMode = true ∧ s.grid.wrapPending = false ∧
    2 ≤ s.grid.cols ∧ s.grid.cursorX + 1 = s.grid.cols ∧ ∃ cell, s.cellAtCursor = some cell ∧ cell.width = 0

/-- A wide character wraps at the last column, with autowrap on. -/
theorem printBase_eq (hcols : 0 < s.grid.cols) (c : Char) (width : Nat) :
    s.printBase c width =
      if width = 2 ∧ s.grid.cols ≤ s.grid.cursorX + 1 then
        if s.grid.modes.autowrapMode = true ∧ 2 ≤ s.grid.cols then
          s.blankMargin.bind fun s => s.performDeferredWrap.bind fun s => s.putChar c width
        else some s
      else s.putChar c width := by
  unfold printBase
  by_cases hw : width = 2
  · simp only [hw, ↓reduceIte, atRightMargin, sub_eq (show 1 ≤ s.grid.cols from hcols), Option.bind_eq_bind, Option.bind_some, pure, true_and,
      decide_eq_true_eq, show (s.grid.cursorX ≥ s.grid.cols - 1) ↔ (s.grid.cols ≤ s.grid.cursorX + 1) by omega]
    split
    · cases s.grid.modes.autowrapMode with
      | false => simp
      | true => by_cases hn : s.grid.cols < 2 <;> simp [hn, show 2 ≤ s.grid.cols ↔ ¬ s.grid.cols < 2 by omega]
    · rfl
  · simp [hw]

theorem scrollUp_cursor (h : s.Inv) {s' : Screen} (hs : s.scrollUp = some s') :
    s'.grid.cursorX = s.grid.cursorX ∧ s'.grid.cols = s.grid.cols := by
  obtain ⟨s'', hs'', hsteps⟩ : Does (· = .other) s s.scrollUp := scrollUp_does rfl h
  obtain rfl : s'' = s' := by rw [hs, Option.some.injEq] at hs''; exact hs''.symm
  exact hsteps.keeps (P := fun t => t.grid.cursorX = s.grid.cursorX ∧ t.grid.cols = s.grid.cols)
    (fun _ _ _ hk he ht => ⟨(he.cursorX hk).1.trans ht.1, (he.cursorX hk).2.trans ht.2⟩) ⟨rfl, rfl⟩

/-- A line feed stays in its column. -/
theorem advanceLine_cursor (h : s.Inv) {s' : Screen} (hs : s.advanceLine = some s') :
    s'.grid.cursorX = s.grid.cursorX ∧ s'.grid.cols = s.grid.cols := by
  rw [advanceLine] at hs
  split at hs
  · exact scrollUp_cursor h hs
  · simp only [h.bottom, Option.bind_eq_bind, Option.bind_some] at hs
    split at hs
    · rw [Option.bind_eq_some_iff] at hs
      obtain ⟨y, -, hs⟩ := hs
      cases hs
      exact ⟨rfl, rfl⟩
    · cases hs
      exact ⟨rfl, rfl⟩

theorem performDeferredWrap_cursor (h : s.Inv) {s' : Screen} (hs : s.performDeferredWrap = some s') :
    s'.grid.cursorX = 0 ∧ s'.grid.cols = s.grid.cols := by
  have hmove : Steps Effect (· = .move) s (s.onGrid fun g => (g.setWrapPending false).setCursorX 0) :=
    .single rfl (.cursor 0 s.grid.cursorY false h.shape.cols_pos h.shape.cursor_y)
  exact advanceLine_cursor (steps_inv hmove h) hs

theorem blankMargin_cols (h : s.Inv) (hx : s.grid.cols ≤ s.grid.cursorX + 1) {s' : Screen} (hs : s.blankMargin = some s') :
    s'.grid.cols = s.grid.cols := by
  obtain ⟨s'', hs'', hsteps⟩ : Does (· ≠ .resize) s s.blankMargin := blankMargin_does (by decide) h hx (by simp)
  obtain rfl : s'' = s' := by rw [hs, Option.some.injEq] at hs''; exact hs''.symm
  exact (steps_dims (by simp) hsteps).1

theorem printBase_does (ho : allowed .other) (hm : allowed .move) (h : s.Inv) {c : Char} (hplain : ¬ IsControl c) {width : Nat}
    (h0 : width ≠ 0) (hfits : width ≤ 2 ∨ s.grid.cursorX + width ≤ 65535)
    (horphan : width = 2 → s.grid.modes.autowrapMode = true → 2 ≤ s.grid.cols → s.grid.cursorX + 1 = s.grid.cols →
      ∀ cell, s.cellAtCursor = some cell → cell.width = 0 → allowed .orphan) :
    Does allowed s (s.printBase c width) := by
  have hx := h.shape.cursor_x
  have hcols := h.shape.cols_pos
  have hcols' := h.shape.cols_le
  rw [printBase_eq hcols]
  split
  next hwide =>
    split
    next hwrap =>
      apply (blankMargin_does ho h hwide.2 (horphan hwide.1 hwrap.1 hwrap.2 (by omega))).bind
      intro s₁ hs₁ hsteps
      have h₁ := steps_inv hsteps h
      apply (performDeferredWrap_does ho hm h₁).bind
      intro s₂ hs₂ hsteps₂
      have h₂ := steps_inv hsteps₂ h₁
      have hcur := performDeferredWrap_cursor h₁ hs₂
      have hcols₁ := blankMargin_cols h hwide.2 hs₁
      exact putChar_does ho hm h₂ hplain h0 (by omega) (by omega)
    next => exact .stay s
  next hwide => exact putChar_does ho hm h hplain h0 (by omega) (by omega)

/-- The screen with `c` as the character that REP repeats. -/
def noted (s : Screen) (c : Char) : Screen := { s with state := { s.state with lastPrintedChar := c } }

@[simp] theorem noted_grid (s : Screen) (c : Char) : (s.noted c).grid = s.grid := rfl

theorem noted_steps (ho : allowed .other) (s : Screen) (c : Char) : Steps Effect allowed s (s.noted c) :=
  .single ho (.aux _ ⟨rfl, rfl, rfl, rfl, rfl, List.prefix_rfl, id⟩ (fun hq => { hq with }) (.of_eq rfl rfl))

theorem noted_inv (h : s.Inv) (c : Char) : (s.noted c).Inv := steps_inv (noted_steps trivial s c : Steps Effect (fun _ => True) s (s.noted c)) h

variable (W : UnicodeWidth)

theorem print_eq (s : Screen) (c : Char) :
    s.print W c = if W.charWidth (s.mapCharset c) = 0 then (s.noted c).handleCombiningMark (s.mapCharset c)
      else (if s.grid.wrapPending = true ∧ s.grid.modes.autowrapMode = true then (s.noted c).performDeferredWrap
        else some (s.noted c)).bind fun t => t.printBase (s.mapCharset c) (W.charWidth (s.mapCharset c)) := by
  unfold print
  dsimp only
  refine if_congr Iff.rfl rfl ?_
  by_cases hwrap : s.grid.wrapPending = true ∧ s.grid.modes.autowrapMode = true
  · rw [if_pos hwrap, if_pos hwrap]
    rfl
  · rw [if_neg hwrap, if_neg hwrap]
    rfl

/-- Printing: a pending wrap comes first; a wide character that does not fit
leaves a blank in the margin and wraps; then one cell is set. -/
theorem print_stages (h : s.Inv) {c : Char} (h0 : W.charWidth (s.mapCharset c) ≠ 0) :
    s.print W c = ((if s.grid.wrapPending = true ∧ s.grid.modes.autowrapMode = true
        then (s.noted c).performDeferredWrap else some (s.noted c)).bind fun t =>
      if W.charWidth (s.mapCharset c) = 2 ∧ t.grid.cols ≤ t.grid.cursorX + 1 then
        if t.grid.modes.autowrapMode = true ∧ 2 ≤ t.grid.cols then
          t.blankMargin.bind fun t => t.performDeferredWrap.bind fun t => t.putChar (s.mapCharset c) (W.charWidth (s.mapCharset c))
        else some t
      else t.putChar (s.mapCharset c) (W.charWidth (s.mapCharset c))) := by
  have h₁ := noted_inv h c
  rw [print_eq, if_neg h0]
  split
  · obtain ⟨t, ht, hsteps⟩ : Does (fun _ => True) (s.noted c) (s.noted c).performDeferredWrap :=
      performDeferredWrap_does trivial trivial h₁
    rw [ht]
    exact printBase_eq (steps_inv hsteps h₁).shape.cols_pos _ _
  · exact printBase_eq h₁.shape.cols_pos _ _

/-- No wrap comes first, and the character fits. -/
theorem print_within (h : s.Inv) {c : Char} (h0 : W.charWidth (s.mapCharset c) ≠ 0)
    (hwrap : ¬ (s.grid.wrapPending = true ∧ s.grid.modes.autowrapMode = true))
    (hfits : ¬ (W.charWidth (s.mapCharset c) = 2 ∧ s.grid.cols ≤ s.grid.cursorX + 1)) :
    s.print W c = (s.noted c).putChar (s.mapCharset c) (W.charWidth (s.mapCharset c)) := by
  rw [print_stages W h h0, if_neg hwrap, Option.bind_some]
  exact if_neg hfits

/-- A control character that becomes a mark. -/
def MarksControl (s : Screen) (c : Char) : Prop := IsControl (s.mapCharset c) ∧ s.TakesMark

/-- Printing keeps the pairs unless it splits one. -/
theorem print_does (ho : allowed .other) (hm : allowed .move) (h : s.Inv) (c : Char) (hfits : s.PrintFits W c)
    (horphan : s.SplitsPair W c → allowed .orphan) (hcontrol : s.MarksControl c → allowed .control) :
    Does allowed s (s.print W c) := by
  have h₁ := noted_inv h c
  rw [print_eq]
  refine Takes.after (noted_steps ho s c) ?_
  split
  · exact handleCombiningMark_does ho h₁ _ fun hc ht => hcontrol ⟨hc, ht⟩
  next h0 =>
    have hplain : ¬ IsControl (s.mapCharset c) := fun hc => h0 (by rw [UnicodeWidth.charWidth, W.width_control _ hc]; rfl)
    split
    next hwrap =>
      apply (performDeferredWrap_does ho hm h₁).bind
      intro s₂ hs₂ hsteps
      have hcur := performDeferredWrap_cursor h₁ hs₂
      have hle := W.charWidth_le (s.mapCharset c)
      apply printBase_does ho hm (steps_inv hsteps h₁) hplain h0 (by omega)
      intro _ _ _ _
      omega
    next hwrap =>
      have hfits' : W.charWidth (s.mapCharset c) ≤ 2 ∨ s.grid.cursorX + W.charWidth (s.mapCharset c) ≤ 65535 :=
        hfits.resolve_left hwrap
      apply printBase_does ho hm h₁ hplain h0 hfits'
      intro hw hauto hcols hx cell hcell hcell0
      have hpending : s.grid.wrapPending = false := by
        cases hp : s.grid.wrapPending with
        | false => rfl
        | true => exact absurd ⟨hp, hauto⟩ hwrap
      exact horphan ⟨hw, hauto, hpending, hcols, hx, cell, hcell, hcell0⟩

theorem putChar_overflows (h : s.Inv) (c : Char) {width : Nat} (hsum : 65535 < s.grid.cursorX + width) :
    s.putChar c width = none := by
  obtain ⟨id, t, hint, hsteps, -⟩ : ∃ id t, s.internWithGc s.state.currentStyle = some (id, s.onGrid (·.setStyleTable t)) ∧
      Steps Effect (fun _ => True) s (s.onGrid (·.setStyleTable t)) ∧ t.Held id := internWithGc_spec trivial h _
  have h' := steps_inv hsteps h
  obtain ⟨row, hrow, hlen⟩ := h'.shape.hasRow h'.shape.cursor_y
  have hset := hrow.setCell hlen h'.shape.cursor_x { c, styleId := id, width }
  rw [putChar, if_pos ⟨h.shape.cursor_x, h.shape.cursor_y⟩, hint]
  simp only [Option.bind_eq_bind, Option.bind_some, hset, Grid.putRow_cursorX]
  rw [add16_none]
  · rfl
  · exact hsum

/-- Printing a character that does not fit overflows the column. -/
theorem print_overflows (h : s.Inv) (c : Char) (hfits : ¬ s.PrintFits W c) : s.print W c = none := by
  have h₁ := noted_inv h c
  simp only [PrintFits, not_or] at hfits
  obtain ⟨hwrap, hwide, hsum⟩ := hfits
  rw [print_within W h (by omega) hwrap (by omega)]
  exact putChar_overflows h₁ _ (show 65535 < s.grid.cursorX + W.charWidth (s.mapCharset c) by omega)

/-- A successful print, whatever its width. -/
theorem print_leads (ho : allowed .other) (hm : allowed .move) (h : s.Inv) (c : Char)
    (horphan : s.SplitsPair W c → allowed .orphan) (hcontrol : s.MarksControl c → allowed .control) :
    Leads Effect allowed s (s.print W c) := by
  by_cases hfits : s.PrintFits W c
  · exact (print_does W ho hm h c hfits horphan hcontrol).leads
  · rw [print_overflows W h c hfits]
    exact .fail s

/-- `P` holds at each of `n` printings of `c`. -/
def PrintsIn (P : Screen → Char → Prop) (c : Char) : Nat → Screen → Prop
  | 0, _ => True
  | n + 1, s => P s c ∧ ∀ s', s.print W c = some s' → PrintsIn P c n s'

theorem repeat_does (ho : allowed .other) (hm : allowed .move) (c : Char) (n : Nat) (h : s.Inv)
    (hfits : PrintsIn W (PrintFits W) c n s) (horphan : PrintsIn W (fun s c => s.SplitsPair W c → allowed .orphan) c n s)
    (hcontrol : PrintsIn W (fun s c => s.MarksControl c → allowed .control) c n s) :
    Does allowed s (iter (fun s => s.print W c) n s) := by
  induction n generalizing s with
  | zero => exact .stay s
  | succ n ih =>
    exact (print_does W ho hm h c hfits.1 horphan.1 hcontrol.1).bind fun s' hs' hsteps =>
      ih (steps_inv hsteps h) (hfits.2 s' hs') (horphan.2 s' hs') (hcontrol.2 s' hs')

theorem repeat_leads (ho : allowed .other) (hm : allowed .move) (c : Char) (n : Nat) (h : s.Inv)
    (horphan : PrintsIn W (fun s c => s.SplitsPair W c → allowed .orphan) c n s)
    (hcontrol : PrintsIn W (fun s c => s.MarksControl c → allowed .control) c n s) :
    Leads Effect allowed s (iter (fun s => s.print W c) n s) := by
  induction n generalizing s with
  | zero => exact .stay s
  | succ n ih =>
    exact (print_leads W ho hm h c horphan.1 hcontrol.1).bind fun s' hs' hsteps =>
      ih (steps_inv hsteps h) (horphan.2 s' hs') (hcontrol.2 s' hs')

/-! ## Private modes -/

/-- The parameter saves the cursor when it is set. -/
def SavesAt (s : Screen) (mode : Nat) : Prop := mode = 1048 ∨ mode = 1049 ∧ s.state.inAltScreen = false

theorem setDecMode_does (ho : allowed .other) (hm : allowed .move) (hd : allowed .modes) (h : s.Inv) (mode : Nat) (enable : Bool)
    (hsave : enable = true → s.SavesAt mode → allowed (.save s.cursorState))
    (henter : enable = true → mode ∈ [47, 1047, 1049] → allowed .enter)
    (hexit : enable = false → mode ∈ [47, 1047, 1049] → allowed .exit) : Does allowed s (s.setDecMode mode enable) := by
  have hpos := h.shape.cols_pos
  have hmodes : ∀ f, Does allowed s (some (s.setModes f)) := fun f => does_modes hd f
  unfold setDecMode
  split
  -- DECCKM
  · exact hmodes _
  -- DECOM
  · -- origin mode homes the cursor to the top of the region
    have hset : Steps Effect allowed s (s.setModes fun m => { m with originMode := enable }) := .single hd (.modes _)
    split
    · have hlt := Nat.lt_of_le_of_lt h.shape.region_le h.shape.region_lt
      exact Takes.after hset (.of_steps (.single hm (.cursor 0 s.grid.scrollTop false hpos hlt)))
    · exact .of_steps hset
  -- DECAWM, DECTCEM
  · exact hmodes _
  · exact .of_steps (.single hd (.visible enable))
  -- mouse modes and encodings, focus reports
  · exact hmodes _
  · exact hmodes _
  · exact hmodes _
  · exact hmodes _
  · exact hmodes _
  · exact hmodes _
  -- the saved cursor
  · split
    next he => exact saveCursor_does (hsave he (.inl rfl))
    next => exact restoreCursor_does ho hm hd h
  -- bracketed paste
  · exact hmodes _
  -- the alternate screen
  · split
    next he =>
      exact enterAltScreen_does h true (fun halt _ => hsave he (.inr ⟨rfl, halt⟩)) (henter he (by simp))
    next he => exact exitAltScreen_does ho hm hd h true (hexit (by simpa using he) (by simp))
  · split
    next he => exact enterAltScreen_does h false (by simp) (henter he (by simp))
    next he => exact exitAltScreen_does ho hm hd h false (hexit (by simpa using he) (by simp))
  · split
    next he => exact enterAltScreen_does h false (by simp) (henter he (by simp))
    next he => exact exitAltScreen_does ho hm hd h false (hexit (by simpa using he) (by simp))
  -- no mode
  · exact .stay s

/-- One parameter of `CSI ? h` or `CSI ? l`. -/
def setDecParam (enable : Bool) (s : Screen) (p : Param) : Option Screen :=
  match p with
  | mode :: _ => s.setDecMode mode enable
  | [] => some s

/-- `P` holds whenever one of these parameters, set in turn, saves the
cursor. -/
def SavesIn (P : Screen → Prop) : List Param → Screen → Prop
  | [], _ => True
  | p :: ps, s =>
    (∀ mode rest, p = mode :: rest → s.SavesAt mode → P s) ∧ ∀ s', setDecParam true s p = some s' → SavesIn P ps s'

def switchesAlt (p : Param) : Prop := ∃ mode rest, p = mode :: rest ∧ mode ∈ [47, 1047, 1049]

theorem csiSetDecPrivateMode_does (ho : allowed .other) (hm : allowed .move) (hd : allowed .modes) (ps : List Param) (enable : Bool)
    (h : s.Inv) (hsave : enable = true → SavesIn (fun s => allowed (.save s.cursorState)) ps s)
    (henter : enable = true → (∃ p ∈ ps, switchesAlt p) → allowed .enter)
    (hexit : enable = false → (∃ p ∈ ps, switchesAlt p) → allowed .exit) :
    Does allowed s (s.csiSetDecPrivateMode ps enable) := by
  change Does allowed s (ps.foldlM (setDecParam enable) s)
  induction ps generalizing s with
  | nil => exact .stay s
  | cons p ps ih =>
    rw [List.foldlM_cons]
    have hone : Does allowed s (setDecParam enable s p) := by
      cases p with
      | nil => exact .stay s
      | cons mode rest =>
        exact setDecMode_does ho hm hd h mode enable (fun he hs => (hsave he).1 mode rest rfl hs)
          (fun he hmem => henter he ⟨_, List.mem_cons_self .., mode, rest, rfl, hmem⟩)
          (fun he hmem => hexit he ⟨_, List.mem_cons_self .., mode, rest, rfl, hmem⟩)
    refine hone.bind fun s' hs' hsteps => ih (steps_inv hsteps h) (fun he => ?_) (fun he ⟨p, hp, hsw⟩ => ?_)
      (fun he ⟨p, hp, hsw⟩ => ?_)
    · subst he
      exact (hsave rfl).2 s' hs'
    · exact henter he ⟨p, List.mem_cons_of_mem _ hp, hsw⟩
    · exact hexit he ⟨p, List.mem_cons_of_mem _ hp, hsw⟩

/-! ## Titles and reports -/

theorem cutTitle_eq {t : List UInt8} (h : t.length = maxTitleLen) : cutTitle t = some t := by
  rw [cutTitle, ensure_eq (by simp [isCharBoundary, h])]
  simp only [Option.bind_eq_bind, Option.bind_some, pure, ← h, List.take_length]

theorem pushTitle_leads (ho : allowed .other) : Leads Effect allowed s s.pushTitle := by
  have hpush : ∀ t : List UInt8, t.length ≤ maxTitleLen → t <+: s.state.title →
      Does allowed s (some { s with state := { s.state with titleStack := s.state.titleStack ++ [t] } }) := by
    refine fun t hlen hpre => does_aux ho ⟨rfl, rfl, rfl, rfl, rfl, List.prefix_rfl, fun ht => ⟨ht.1, fun t' hmem => ?_⟩⟩
      (fun hq => { hq with titleStack := fun t' hmem => ?_ }) fun t' hmem => ?_
    · rcases List.mem_append.1 hmem with hmem | hmem
      · exact ht.2 t' hmem
      · rw [List.mem_singleton.1 hmem]
        exact hlen
    · rcases List.mem_append.1 hmem with hmem | hmem
      · exact hq.titleStack t' hmem
      · rw [List.mem_singleton.1 hmem]
        exact List.prefix_nil.1 (hq.title ▸ hpre)
    · rcases List.mem_cons.1 hmem with rfl | hmem
      · exact ⟨_, List.mem_cons_self, List.prefix_rfl⟩
      · rcases List.mem_append.1 hmem with hmem | hmem
        · exact ⟨t', List.mem_cons_of_mem _ hmem, List.prefix_rfl⟩
        · rw [List.mem_singleton.1 hmem]
          exact ⟨_, List.mem_cons_self, hpre⟩
  unfold pushTitle
  split
  · split
    · intro s' hs'
      obtain ⟨t, ht, hs'⟩ := Option.bind_eq_some_iff.1 hs'
      obtain ⟨-, -, ht⟩ := Option.bind_eq_some_iff.1 ht
      obtain rfl : s.state.title.take maxTitleLen = t := by simpa using ht
      exact (hpush _ (by rw [List.length_take]; omega) (List.take_prefix _ _)).leads s' hs'
    · exact (hpush _ (by omega) List.prefix_rfl).leads
  · exact .stay s

/-- A title of at most 4096 bytes is cut at its end, if at all. -/
theorem pushTitle_does (ho : allowed .other) (ht : s.state.title.length ≤ maxTitleLen) : Does allowed s s.pushTitle := by
  have hsome : ∃ s', s.pushTitle = some s' := by
    unfold pushTitle
    split
    · split
      · rw [cutTitle_eq (by omega)]
        exact ⟨_, rfl⟩
      · exact ⟨_, rfl⟩
    · exact ⟨_, rfl⟩
  obtain ⟨s', hs'⟩ := hsome
  exact ⟨s', hs', pushTitle_leads ho s' hs'⟩

theorem popTitle_does (ho : allowed .other) : Does allowed s (some s.popTitle) := by
  unfold popTitle
  split
  next title hlast =>
    refine does_aux ho ⟨rfl, rfl, rfl, rfl, rfl, List.prefix_rfl, fun ht => ⟨?_, fun t hmem => ?_⟩⟩
      (fun hq => { hq with title := ?_, titleStack := fun t hmem => ?_ }) fun t hmem => ⟨t, List.mem_cons_of_mem _ ?_, List.prefix_rfl⟩
    · exact ht.2 title (List.mem_of_getLast? hlast)
    · exact ht.2 t (List.dropLast_subset _ hmem)
    · exact hq.titleStack title (List.mem_of_getLast? hlast)
    · exact hq.titleStack t (List.dropLast_subset _ hmem)
    · rcases List.mem_cons.1 hmem with rfl | hmem
      · exact List.mem_of_getLast? hlast
      · exact List.dropLast_subset _ hmem
  next => exact .stay s

theorem cursorReport_spec (h : s.Inv) : ∃ r, s.cursorReport = some r := by
  have hx := h.shape.cursor_x
  have hy := h.shape.cursor_y
  have hcols := h.shape.cols_le
  have hrows := h.shape.rows_le
  unfold cursorReport
  rw [add16_eq (show (if s.grid.modes.originMode then s.grid.cursorY - s.grid.scrollTop else s.grid.cursorY) + 1 ≤ 65535 by
    split <;> omega), add16_eq (by omega)]
  exact ⟨_, rfl⟩

theorem pushResponse_does (ho : allowed .other) (data : List UInt8) :
    Does allowed s (some { s with state := s.state.pushResponse data }) := by
  refine does_aux ho ?_ (fun hq => ?_) ?_ <;> unfold ScreenState.pushResponse <;> split
  · exact ⟨rfl, rfl, rfl, rfl, rfl, List.prefix_rfl, id⟩
  · exact ⟨rfl, rfl, rfl, rfl, rfl, List.prefix_rfl, id⟩
  · exact { hq with }
  · exact hq
  · exact .of_eq rfl rfl
  · exact .of_eq rfl rfl

/-! ## Dispatching -/

/-- `P` holds at each character the event prints: one, or those of REP. -/
def EveryPrint (P : Screen → Char → Prop) (s : Screen) : Event → Prop
  | .print c => P s c
  | .csi ps _ 'b' => PrintsIn W P s.state.lastPrintedChar (param ps 0 1) s
  | _ => True

/-- `P` holds whenever the event saves the cursor. -/
def EverySave (P : Screen → Prop) (s : Screen) : Event → Prop
  | .esc [] '7' => P s
  | .csi _ [] 's' => P s
  | .csi ps ['?'] 'h' => SavesIn P ps s
  | _ => True

theorem printsIn_of_forall {P : Screen → Char → Prop} (hP : ∀ s c, P s c) (c : Char) (n : Nat) (s : Screen) :
    PrintsIn W P c n s := by
  induction n generalizing s with
  | zero => trivial
  | succ n ih => exact ⟨hP s c, fun s' _ => ih s'⟩

theorem everyPrint_of_forall {P : Screen → Char → Prop} (hP : ∀ s c, P s c) (s : Screen) (e : Event) :
    EveryPrint W P s e := by
  unfold EveryPrint
  split
  · exact hP _ _
  · exact printsIn_of_forall W hP _ _ _
  · trivial

theorem savesIn_of_forall {P : Screen → Prop} (hP : ∀ s, P s) (ps : List Param) (s : Screen) : SavesIn P ps s := by
  induction ps generalizing s with
  | nil => trivial
  | cons p ps ih => exact ⟨fun _ _ _ _ => hP s, fun s' _ => ih s'⟩

theorem everySave_of_forall {P : Screen → Prop} (hP : ∀ s, P s) (s : Screen) (e : Event) : EverySave P s e := by
  unfold EverySave
  split
  · exact hP s
  · exact hP s
  · exact savesIn_of_forall hP _ s
  · trivial

end Screen

/-- `CSI ? h` switching to the alternate screen. -/
def Event.EntersAlt : Event → Prop
  | .csi ps ['?'] 'h' => ∃ p ∈ ps, Screen.switchesAlt p
  | _ => False

/-- `CSI ? l` switching back to the main screen. -/
def Event.ExitsAlt : Event → Prop
  | .csi ps ['?'] 'l' => ∃ p ∈ ps, Screen.switchesAlt p
  | _ => False

/-- ED 3. -/
def Event.ClearsScrollback : Event → Prop
  | .csi ps _ 'J' => Screen.param ps 0 0 = 3
  | _ => False

/-- RIS. -/
def Event.Resets : Event → Prop
  | .esc [] 'c' => True
  | _ => False

def Event.IsOsc : Event → Prop
  | .osc _ _ => True
  | _ => False

/-- The payload of a title sequence is short, as the parser guarantees. -/
def Event.OscBounded : Event → Prop
  | .osc params _ => ∀ p ∈ params, p.length ≤ 1024
  | _ => True

namespace Screen

variable {allowed : Kind → Prop} {s : Screen} (W : UnicodeWidth)

/-- What an event may do, as kinds of effects. -/
structure Allows (allowed : Kind → Prop) (s : Screen) (e : Event) : Prop where
  other : allowed .other
  move : allowed .move
  modes : allowed .modes
  orphan : EveryPrint W (fun s c => s.SplitsPair W c → allowed .orphan) s e
  control : EveryPrint W (fun s c => s.MarksControl c → allowed .control) s e
  save : EverySave (fun s => allowed (.save s.cursorState)) s e
  enter : e.EntersAlt → allowed .enter
  exit : e.ExitsAlt → allowed .exit
  clear : e.ClearsScrollback → allowed .clear
  reset : e.Resets → allowed .reset
  title : ¬ e.OscBounded → allowed .title
  osc : e.IsOsc → allowed .osc

/-- Callbacks do not resize, and set a long title only from a long payload. -/
theorem Allows.of_forall (h : ∀ k, k ≠ .resize → k ≠ .title → allowed k) {e : Event} (ht : ¬ e.OscBounded → allowed .title) :
    Allows W allowed s e where
  other := h _ (by simp) (by simp)
  move := h _ (by simp) (by simp)
  modes := h _ (by simp) (by simp)
  orphan := everyPrint_of_forall W (fun _ _ _ => h _ (by simp) (by simp)) s e
  control := everyPrint_of_forall W (fun _ _ _ => h _ (by simp) (by simp)) s e
  save := everySave_of_forall (fun _ => h _ (by simp) (by simp)) s e
  enter := fun _ => h _ (by simp) (by simp)
  exit := fun _ => h _ (by simp) (by simp)
  clear := fun _ => h _ (by simp) (by simp)
  reset := fun _ => h _ (by simp) (by simp)
  title := ht
  osc := fun _ => h _ (by simp) (by simp)

variable {W}

theorem csiDispatch_does (h : s.Inv) (ps : List Param) (intermediates : List Char) (action : Char)
    (ht : action = 't' → s.state.title.length ≤ maxTitleLen) (hfits : EveryPrint W (PrintFits W) s (.csi ps intermediates action))
    (ha : Allows W allowed s (.csi ps intermediates action)) :
    Does allowed s (s.csiDispatch W ps intermediates action) := by
  have ho := ha.other
  have hm := ha.move
  have hd := ha.modes
  have hstay : Does allowed s (some s) := .stay s
  unfold csiDispatch
  split
  -- CUU, CUD, CUF, CUB, CNL, CPL, CHA, CUP, HVP, VPA
  · exact csiCursorUp_does hm h _
  · exact csiCursorDown_does hm h _
  · exact csiCursorForward_does hm h _
  · exact csiCursorBack_does hm h _
  · exact csiCursorNextLine_does hm h _
  · exact csiCursorPrevLine_does hm h _
  · exact csiCursorHorizontalAbsolute_does hm h _
  · exact csiCursorPosition_does hm h _ _
  · exact csiCursorPosition_does hm h _ _
  · exact csiLinePositionAbsolute_does hm h _
  -- ED, EL, ECH, DCH, ICH
  · exact csiEraseDisplay_does ho h _ ha.clear
  · exact csiEraseLine_does ho h _
  · exact csiEraseCharacter_does ho h _
  · exact csiDeleteCharacter_does ho h _
  · exact csiInsertCharacter_does ho h _
  -- REP
  · exact repeat_does W ho hm _ _ h hfits ha.orphan ha.control
  -- SGR
  · exact does_aux ho ⟨rfl, rfl, rfl, rfl, rfl, List.prefix_rfl, id⟩ (fun hq => { hq with }) (.of_eq rfl rfl)
  -- DSR
  · split
    · obtain ⟨r, hr⟩ := cursorReport_spec h
      rw [hr]
      exact pushResponse_does ho _
    · exact hstay
  -- DA
  · split
    · split
      · exact pushResponse_does ho _
      · split
        · exact pushResponse_does ho _
        · exact hstay
    · exact hstay
  -- DECSCUSR
  · split
    · exact does_modes hd _
    · exact hstay
  -- SU, SD
  · exact csiScrollUpN_does ho h _
  · split
    · exact csiScrollDownN_does ho h _
    · exact hstay
  -- DL, IL
  · exact csiDeleteLines_does ho hm h _
  · exact csiInsertLines_does ho hm h _
  -- DECSTBM
  · split
    · exact csiSetScrollingRegion_does ho hm h _ _
    · exact hstay
  -- SCOSC, SCORC
  · split
    next hi => subst hi; exact saveCursor_does ha.save
    next => exact hstay
  · split
    · exact restoreCursor_does ho hm hd h
    · exact hstay
  -- TBC
  · split
    · split
      · exact .of_steps (.single ho (.tabs _ (by rw [List.length_set, h.shape.tabs_len])))
      · exact .of_steps (.single ho (.tabs _ (by rw [List.length_map, h.shape.tabs_len])))
      · exact hstay
    · exact hstay
  -- the title stack
  · split
    · split
      · exact pushTitle_does ho (ht rfl)
      · exact popTitle_does ho
      · exact hstay
    · exact hstay
  -- DECSET, DECRST
  · split
    next hi =>
      subst hi
      exact csiSetDecPrivateMode_does ho hm hd ps true h (fun _ => ha.save) (fun _ => ha.enter) (by simp)
    next => exact hstay
  · split
    next hi =>
      subst hi
      exact csiSetDecPrivateMode_does ho hm hd ps false h (by simp) (by simp) (fun _ => ha.exit)
    next => exact hstay
  -- no sequence
  · exact hstay

/-! ## ESC sequences -/

/-- The grid of RIS before its rows are erased. -/
def resetGrid (s : Screen) (limit : Nat) : Grid :=
  { s.grid with
    cursorX := 0
    cursorY := 0
    wrapPending := false
    scrollTop := 0
    scrollBottom := s.grid.rows - 1
    cursorVisible := true
    modes := {}
    tabStops := defaultTabStops s.grid.cols
    scrollbackLimit := limit
    styleTable := s.grid.styleTable.reset }

theorem resetGrid_shape (h : s.grid.Shape) (limit : Nat) : (s.resetGrid limit).Shape :=
  { h with
    cursor_x := h.cols_pos
    cursor_y := h.rows_pos
    region_le := Nat.zero_le _
    region_lt := Nat.sub_lt h.rows_pos Nat.one_pos
    tabs_len := defaultTabStops_length _ }

theorem fill_all {α : Type} (a : α) (l : List α) : fill 0 l.length a l = List.replicate l.length a := by
  simp [fill]

/-- Erasing and clearing the grid of RIS. -/
theorem resetGrid_clear (h : s.grid.Shape) (limit : Nat) :
    (((s.resetGrid limit).eraseRows 0 s.grid.rows {}).bind fun g => g.clearScrollback) =
      some (s.grid.cleared limit) := by
  have hshape := resetGrid_shape h limit
  have herase := hshape.eraseRows (Nat.zero_le s.grid.rows) (Nat.le_refl _) {}
  have hvis : (s.resetGrid limit).visibleRows.length = s.grid.rows := hshape.visible_length
  rw [Nat.sub_zero, ← hvis, fill_all, hvis] at herase
  have hrep : (List.replicate s.grid.rows (Row.filled (s.resetGrid limit).cols ({} : Cell))).length =
      (s.resetGrid limit).rows := List.length_replicate
  have hshape' := hshape.replaceVisible hrep fun row hr => by
    rw [(List.mem_replicate.1 hr).2]
    simp [Row.filled]
  rw [herase, Option.bind_some, hshape'.clearScrollback, hshape.visible_replaceVisible hrep]
  rfl

/-- RIS. The scrollback limit comes back from the saved grid, if there is
one. -/
theorem fullReset_eq (h : s.grid.Shape) :
    s.fullReset = some { s with
      grid := s.grid.cleared s.mainLimit
      state := { s.state with
        currentStyle := {}
        inAltScreen := false
        savedGrid := none
        savedModes := none
        savedCursorState := none
        savedScrollRegion := none
        title := []
        titleStack := []
        lastPrintedChar := ' ' }.pushPassthrough [0x1b, 0x5b, 0x33, 0x4a] } := by
  have hclear := resetGrid_clear h s.mainLimit
  unfold fullReset
  rw [Grid.resetScrollRegion_eq]
  · obtain ⟨g, herase, hscroll⟩ := Option.bind_eq_some_iff.1 hclear
    -- the setters in turn build the grid that is erased
    simp only [Option.bind_eq_bind, Option.bind_some, Grid.setScrollRegion, Grid.setCursorX, Grid.setCursorY,
      Grid.setCursorVisible, Grid.setWrapPending, Grid.setModes, Grid.setScrollbackLimit, Grid.resetTabStops,
      Grid.setStyleTable]
    change ((s.resetGrid s.mainLimit).eraseRows 0 s.grid.rows {}).bind _ = _
    rw [herase, Option.bind_some, hscroll]
    rfl
  · exact h.rows_pos

theorem fullReset_does (ho : allowed .other) (hr : allowed .reset) (h : s.Inv) : Does allowed s s.fullReset := by
  rw [fullReset_eq h.shape]
  exact .of_steps ((Steps.single hr .reset).snoc ho (.aux _ (pushPassthrough_aux _ _)
    (fun hq => pushPassthrough_quiet hq (by decide)) (pushPassthrough_titles _ _)))

/-- The screen that DECALN fills. -/
def cornered (s : Screen) : Screen :=
  { s with grid := (((s.grid.setScrollRegion 0 (s.grid.rows - 1)).setCursorX 0).setCursorY 0).setWrapPending false }

theorem cornered_steps (ho : allowed .other) (hm : allowed .move) (h : s.Inv) : Steps Effect allowed s s.cornered := by
  have hrows := h.shape.rows_pos
  exact (Steps.single ho (.region 0 (s.grid.rows - 1) (Nat.zero_le _) (Nat.sub_lt hrows Nat.one_pos))).snoc hm
    (.cursor (s := s.onGrid (·.setScrollRegion 0 (s.grid.rows - 1))) 0 0 false h.shape.cols_pos hrows)

/-- DECALN writes every cell in turn. -/
theorem alignmentPattern_fills (ho : allowed .other) (h : s.Inv) : Does allowed s.cornered s.alignmentPattern := by
  have hhome : Steps Effect (fun _ => True) s s.cornered := cornered_steps trivial trivial h
  rw [alignmentPattern, Grid.resetScrollRegion_eq h.shape.rows_pos]
  simp only [Option.bind_eq_bind, Option.bind_some]
  apply does_intern ho (steps_inv hhome h) {}
  intro id s h hid _
  let Paints (g : Grid) : Prop :=
    Steps Effect allowed s (s.onGrid fun _ => g) ∧ g.styleTable = s.grid.styleTable ∧ g.cols = s.grid.cols ∧
      g.rows = s.grid.rows
  have hcell : ∀ x y g, x < s.grid.cols → y < s.grid.rows → Paints g →
      ∃ g', g.setCell x y { c := 'E', styleId := id, width := 1 } = some g' ∧ Paints g' := by
    rintro x y g hx hy ⟨hs, ht, hc, hr⟩
    obtain ⟨row', hset, hput⟩ := setCell_steps (s := s.onGrid fun _ => g) ho (steps_inv hs h)
      { c := 'E', styleId := id, width := 1 } (ht ▸ hid) (show ¬ IsControl 'E' by decide) (hc ▸ hx) (hr ▸ hy) (by simp) (by simp)
    exact ⟨_, hset, hs.trans hput, ht, hc, hr⟩
  have hrow : ∀ y g, y < s.grid.rows → Paints g → ∃ g',
      iterFrom (fun x (g : Grid) => g.setCell x y { c := 'E', styleId := id, width := 1 }) 0 s.grid.cols g = some g' ∧
        Paints g' := fun y g hy hg =>
    iterFrom_spec (fun _ g => Paints g) (fun x g _ hx hg => hcell x y g (by omega) hy hg) hg
  obtain ⟨g, hg, hpaint⟩ := iterFrom_spec (fun _ g => Paints g) (k := 0) (n := s.grid.rows)
    (fun y g _ hy hg => hrow y g (by omega) hg) (a := s.grid) ⟨.refl s, rfl, rfl, rfl⟩
  simp only [hg, Option.bind_some]
  exact .of_steps hpaint.1

theorem alignmentPattern_does (ho : allowed .other) (hm : allowed .move) (h : s.Inv) :
    Does allowed s s.alignmentPattern :=
  Takes.after (cornered_steps ho hm h) (alignmentPattern_fills ho h)

theorem escDispatch_does (h : s.Inv) (intermediates : List Char) (byte : Char)
    (ha : Allows W allowed s (.esc intermediates byte)) : Does allowed s (s.escDispatch intermediates byte) := by
  have ho := ha.other
  have hm := ha.move
  have hd := ha.modes
  unfold escDispatch
  split
  · exact .of_steps (.single ho (.tabs _ (by rw [List.length_set, h.shape.tabs_len])))
  · exact advanceLine_after ho hm h h.shape.cursor_x false
  · exact advanceLine_after ho hm h h.shape.cols_pos false
  · split
    · exact scrollDown_does ho h
    · have hy := h.shape.cursor_y
      exact does_cursor hm h.shape.cursor_x (show s.grid.cursorY - 1 < s.grid.rows by omega) s.grid.wrapPending
  · exact saveCursor_does ha.save
  · exact restoreCursor_does ho hm hd h
  · exact fullReset_does ho (ha.reset trivial) h
  · exact does_modes hd _
  · exact does_modes hd _
  · exact does_modes hd _
  · exact does_modes hd _
  · exact does_modes hd _
  · exact does_modes hd _
  · exact alignmentPattern_does ho hm h
  · exact .stay s

/-! ## OSC sequences -/

theorem pushNotification_aux (st : ScreenState) (data : List UInt8) : st.Aux (st.pushNotification data) :=
  ⟨rfl, rfl, rfl, rfl, rfl, List.prefix_rfl, id⟩

theorem oscDispatch_does (ho : allowed .osc) (params : List (List UInt8)) (bell : Bool)
    (hosc : Event.OscBounded (.osc params bell)) : Does allowed s (s.oscDispatch params bell) := by
  unfold oscDispatch
  split
  · exact .stay s
  next num rest =>
    dsimp only
    split
    · split
      next title tail =>
        have hlen : title.length ≤ 1024 := hosc title (by simp)
        have hmax : title.length ≤ maxTitleLen := by unfold maxTitleLen; omega
        split
        · exact does_osc ho ⟨rfl, rfl, rfl, rfl, rfl, List.prefix_rfl, fun ht => ⟨hmax, ht.2⟩⟩
        · exact .stay s
      · exact .stay s
    · split
      · exact does_osc ho (pushNotification_aux _ _)
      · exact does_osc ho (pushPassthrough_aux _ _)

/-! ## Control bytes -/

theorem execute_does (ho : allowed .other) (hm : allowed .move) (hd : allowed .modes) (h : s.Inv) (byte : UInt8) :
    Does allowed s (s.execute byte) := by
  have hx := h.shape.cursor_x
  have hy := h.shape.cursor_y
  unfold execute
  split
  · exact does_cursor hm h.shape.cols_pos hy false
  · exact advanceLine_after ho hm h hx false
  · exact advanceLine_after ho hm h hx false
  · exact advanceLine_after ho hm h hx false
  · exact does_cursor hm (show s.grid.cursorX - 1 < s.grid.cols by omega) hy false
  · obtain ⟨x, hnext, hlt⟩ := nextTabStop_spec h s.grid.cursorX
    rw [hnext]
    exact does_cursor hm hlt hy false
  · exact does_modes hd _
  · exact does_modes hd _
  · exact does_aux ho (pushPassthrough_aux _ _) (fun hq => pushPassthrough_quiet hq (by decide)) (pushPassthrough_titles _ _)
  · exact .stay s

/-- One callback: it succeeds, by effects of the kinds it may have. -/
theorem step_does (h : s.Inv) (ht : s.state.TitlesBounded) (e : Event) (hosc : e.OscBounded) (hfits : EveryPrint W (PrintFits W) s e)
    (ha : Allows W allowed s e) : Does allowed s (s.step W e) := by
  cases e with
  | print c => exact print_does W ha.other ha.move h c hfits ha.orphan ha.control
  | execute byte => exact execute_does ha.other ha.move ha.modes h byte
  | csi ps intermediates action => exact csiDispatch_does h ps intermediates action (fun _ => ht.1) hfits ha
  | esc intermediates byte => exact escDispatch_does h intermediates byte ha
  | osc params bell => exact oscDispatch_does (ha.osc trivial) params bell hosc

/-! ### Callbacks that succeed

Without the provisos: what a callback does when it succeeds. -/

theorem csiDispatch_leads (h : s.Inv) (ps : List Param) (intermediates : List Char) (action : Char)
    (ha : Allows W allowed s (.csi ps intermediates action)) :
    Leads Effect allowed s (s.csiDispatch W ps intermediates action) := by
  by_cases hb : action = 'b'
  · subst hb
    exact repeat_leads W ha.other ha.move _ _ h ha.orphan ha.control
  by_cases ht : action = 't'
  · subst ht
    simp only [csiDispatch]
    split
    · split
      · exact pushTitle_leads ha.other
      · exact (popTitle_does ha.other).leads
      · exact .stay s
    · exact .stay s
  have hfits : EveryPrint W (PrintFits W) s (.csi ps intermediates action) := by
    unfold EveryPrint
    split <;> simp_all
  exact (csiDispatch_does h ps intermediates action (fun e => absurd e ht) hfits ha).leads

theorem oscDispatch_leads (params : List (List UInt8)) (bell : Bool) (ha : Allows W allowed s (.osc params bell)) :
    Leads Effect allowed s (s.oscDispatch params bell) := by
  by_cases hosc : Event.OscBounded (.osc params bell)
  · exact (oscDispatch_does (ha.osc trivial) params bell hosc).leads
  have htitle := ha.title hosc
  unfold oscDispatch
  split
  · exact .stay s
  · dsimp only
    split
    · split
      next title _ =>
        have hlong : ∀ t, Leads Effect allowed s (some { s with state := { s.state with title := t } }) :=
          fun t => (Takes.of_steps (.single htitle (.longTitle t))).leads
        split
        · split
          · exact hlong title
          · intro s' hs'
            obtain ⟨t, -, hs'⟩ := Option.bind_eq_some_iff.1 hs'
            exact hlong t s' hs'
        · exact .stay s
      · exact .stay s
    · split
      · exact (does_osc (ha.osc trivial) (pushNotification_aux _ _)).leads
      · exact (does_osc (ha.osc trivial) (pushPassthrough_aux _ _)).leads

theorem step_leads (h : s.Inv) (e : Event) (ha : Allows W allowed s e) : Leads Effect allowed s (s.step W e) := by
  cases e with
  | print c => exact print_leads W ha.other ha.move h c ha.orphan ha.control
  | execute byte => exact (execute_does ha.other ha.move ha.modes h byte).leads
  | csi ps intermediates action => exact csiDispatch_leads h ps intermediates action ha
  | esc intermediates byte => exact (escDispatch_does h intermediates byte ha).leads
  | osc params bell => exact oscDispatch_leads params bell ha

/-! ## Resizing -/

theorem mapM_fitRow (cols : Nat) (rows : List Row) : rows.mapM (Grid.fitRow cols) = some (rows.map (Row.fitted cols)) := by
  induction rows with
  | nil => rfl
  | cons row rows ih => simp [List.mapM_cons, Row.fitRow_eq, ih]

/-- `Grid::resize` after `count` rows came back from the scrollback. -/
theorem gridResize_eq {g : Grid} (h : g.Shape) {count y : Nat} (hcount : count ≤ g.scrollbackLen) (cols rows : Nat) :
    Grid.resize { g with
        scrollbackLen := g.scrollbackLen - count
        pendingStart := min g.pendingStart (g.scrollbackLen - count)
        cursorY := y } cols rows =
      some (g.resized (max cols 1) (max rows 1) count (min g.cursorX (max cols 1 - 1)) (min y (max rows 1 - 1))) := by
  have hlen := h.cells_len
  let sb := g.scrollbackLen - count
  let c := max cols 1
  let r := max rows 1
  let fitted := g.cells.take (sb + r) ++ List.replicate (sb + r - g.cells.length) (Row.new c)
  have hsb : sb ≤ g.cells.length := by simp only [sb]; omega
  have htakelen : (g.cells.take (sb + r)).length = min (sb + r) g.cells.length := List.length_take
  have hdrop : fitted.drop sb = (g.cells.drop sb).take r ++ List.replicate (r - (g.cells.drop sb).length) (Row.new c) := by
    simp only [fitted]
    rw [List.drop_append_of_le_length (by omega), List.drop_take, Nat.add_sub_cancel_left, List.length_drop,
      show sb + r - g.cells.length = r - (g.cells.length - sb) by omega]
  have htake : fitted.take sb = g.cells.take sb := by
    simp only [fitted]
    rw [List.take_append_of_le_length (by omega), List.take_take, Nat.min_eq_left (by omega)]
  have hmap : (fitted.drop sb).mapM (Grid.fitRow c) = some (fitRows c r (g.cells.drop sb)) := by
    rw [mapM_fitRow, hdrop]
    rfl
  have hcells : (g.cells.take sb ++ fitRows c r (g.cells.drop sb)).length = sb + r := by
    rw [List.length_append, fitRows_length, List.length_take]
    omega
  have hclamp (a n : Nat) : (if a ≥ max n 1 then max n 1 - 1 else a) = min a (max n 1 - 1) := by split <;> omega
  rw [← hclamp, ← hclamp]
  simp only [Grid.resize, sanitizeDimensions, Option.bind_eq_bind]
  rw [ensure_eq hsb]
  simp only [Option.bind_some]
  change ((fitted.drop sb).mapM (Grid.fitRow c)).bind _ = _
  rw [hmap, sub_eq (show 1 ≤ max cols 1 by omega), sub_eq (show 1 ≤ max rows 1 by omega)]
  simp only [Option.bind_some]
  change Grid.checkInvariants { g with
    cols := c, rows := r, cells := fitted.take sb ++ _, cursorX := _, cursorY := _, wrapPending := false, scrollTop := 0
    scrollBottom := r - 1, tabStops := defaultTabStops c, scrollbackLen := sb, pendingStart := min g.pendingStart sb } = _
  rw [htake, Grid.checkInvariants_eq (by exact Nat.min_le_right _ _) (by exact hcells)]
  rfl

/-- The rows that growing to `rows` rows brings back from the scrollback. -/
def restoreCount (s : Screen) (rows : Nat) : Nat :=
  if ¬ s.state.inAltScreen ∧ rows > s.grid.rows then min (rows - s.grid.rows) s.grid.scrollbackLen else 0

/-- The screen after `resize`. -/
def resized (s : Screen) (cols rows : Nat) : Screen :=
  s.onGrid (·.resized (max cols 1) (max rows 1) (s.restoreCount rows) (min s.grid.cursorX (max cols 1 - 1))
    (min (s.grid.cursorY + s.restoreCount rows) (max rows 1 - 1)))

theorem restoreCount_le (s : Screen) (rows : Nat) : s.restoreCount rows ≤ s.grid.scrollbackLen := by
  unfold restoreCount
  split
  · exact Nat.min_le_right _ _
  · exact Nat.zero_le _

theorem growIntoScrollback_eq (h : s.Inv) {rows : Nat} (hrows : rows ≤ 65535) :
    s.growIntoScrollback rows = some { s.grid with
      scrollbackLen := s.grid.scrollbackLen - s.restoreCount rows
      pendingStart := min s.grid.pendingStart (s.grid.scrollbackLen - s.restoreCount rows)
      cursorY := s.grid.cursorY + s.restoreCount rows } := by
  have hp := h.shape.pending_le
  have hy := h.shape.cursor_y
  unfold growIntoScrollback restoreCount
  split
  · have hcount := Nat.min_le_right (rows - s.grid.rows) s.grid.scrollbackLen
    have hsum : satAdd16 s.grid.cursorY (min (min (rows - s.grid.rows) s.grid.scrollbackLen) u16Max) =
        s.grid.cursorY + min (rows - s.grid.rows) s.grid.scrollbackLen := by
      simp only [satAdd16, u16Max]
      omega
    rw [← hsum]
    simp only [Grid.restoreScrollback, ensure_eq hcount]
    rfl
  · simp [Nat.min_eq_left hp]

theorem resize_eq (h : s.Inv) (cols : Nat) {rows : Nat} (hrows : rows ≤ 65535) :
    s.resize cols rows = some (s.resized cols rows) := by
  rw [resize, growIntoScrollback_eq h hrows]
  simp only [Option.bind_eq_bind, Option.bind_some, gridResize_eq h.shape (s.restoreCount_le rows)]
  rfl

theorem resized_effect (s : Screen) {cols rows : Nat} (hcols : cols ≤ 65535) (hrows : rows ≤ 65535) :
    Effect .resize s (s.resized cols rows) :=
  .resize _ _ _ _ _ ⟨by omega, by omega⟩ ⟨by omega, by omega⟩ (s.restoreCount_le rows) (by omega) (by omega)

theorem resize_does (hr : allowed .resize) (h : s.Inv) {cols rows : Nat} (hcols : cols ≤ 65535) (hrows : rows ≤ 65535) :
    Does allowed s (s.resize cols rows) := by
  rw [resize_eq h cols hrows]
  exact .of_steps (.single hr (s.resized_effect hcols hrows))

end Screen

end Retach
