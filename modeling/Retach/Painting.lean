import Retach.Palette
import Retach.Modes
import Retach.Safety
import Retach.Sgr
/-!
# Painting a row

The characters of a row, printed from the first column on, put the row's cells
on a terminal that has room for their styles: each cell with the character that
the terminal's character set makes of it, the width and the style. What a
terminal row held before stays only behind the last cell painted.
-/

open Checked

namespace Retach

/-! ## Cells laid next to each other -/

/-- The cells a character takes up. -/
def Cell.laid (cell : Cell) : List Cell := if cell.width = 2 then [cell, cell.continuation] else [cell]

/-- Cells behind what was written: the second half of a character that has lost
its first one is blank. -/
def healed : List Cell → List Cell
  | [] => []
  | c :: l => (if c.width = 0 then {} else c) :: l

theorem healed_length (l : List Cell) : (healed l).length = l.length := by cases l <;> rfl

theorem healed_drop {n : Nat} (hn : 0 < n) (l : List Cell) : (healed l).drop n = l.drop n := by
  obtain ⟨n, rfl⟩ := Nat.exists_eq_succ_of_ne_zero (Nat.ne_of_gt hn)
  cases l <;> rfl

theorem mem_healed {l : List Cell} {d : Cell} (h : d ∈ healed l) : d = {} ∨ d ∈ l := by
  cases l with
  | nil => exact absurd h List.not_mem_nil
  | cons c l =>
    rcases List.mem_cons.1 h with rfl | h
    · split
      · exact .inl rfl
      · exact .inr List.mem_cons_self
    · exact .inr (List.mem_cons_of_mem _ h)

theorem Paired.healed_eq {l : List Cell} (h : Paired l) : healed l = l := by
  cases l with
  | nil => rfl
  | cons c l => rw [healed, if_neg h.head]

/-- Writing behind the cells `a` leaves them, and whole characters behind what
is written. -/
theorem writeCell_append (a : List Cell) {rest : List Cell} (h : Paired rest) {cell : Cell}
    (hfit : cell.laid.length ≤ rest.length) :
    writeCell a.length cell (a ++ rest) = a ++ cell.laid ++ healed (rest.drop cell.laid.length) ∧
      Paired (healed (rest.drop cell.laid.length)) := by
  have hblank : ({} : Cell).Single := single_blank 0
  have hset (i : Nat) (m : List Cell) (d : Cell) : (a ++ m).set (a.length + i) d = a ++ m.set i d := by
    rw [List.set_append_right _ _ (by omega), Nat.add_sub_cancel_left]
  -- the first column of `rest` does not end a wide character
  obtain ⟨d, hfirst, hr⟩ : ∃ d, unpair a.length (a ++ rest) = a ++ d :: healed (rest.drop 1) ∧ Paired (healed (rest.drop 1)) := by
    cases h with
    | nil => unfold Cell.laid at hfit; split at hfit <;> simp at hfit
    | @single c r hc hr => exact ⟨c, by simp [unpair, hc.1, hc.2, hr.healed_eq], by rwa [List.drop_one, List.tail_cons, hr.healed_eq]⟩
    | @pair b c r hb hc hr => exact ⟨{}, by simp [unpair, hb, healed, hc], by simpa [healed, hc] using .single hblank hr⟩
  generalize hm : healed (rest.drop 1) = r at hfirst hr
  have hput : (unpair a.length (a ++ rest)).set a.length cell = a ++ cell :: r := by
    rw [hfirst]
    simp
  unfold writeCell Cell.laid
  dsimp only
  rw [hput]
  by_cases h2 : cell.width = 2
  · have hlen : r.length + 1 = rest.length := by
      simp only [Cell.laid, h2, if_true, List.length_cons, List.length_nil] at hfit
      rw [← hm, healed_length, List.length_drop]
      omega
    simp only [Cell.laid, h2, if_true, List.length_cons, List.length_nil] at hfit
    rw [if_pos ⟨h2, by rw [List.length_append]; omega⟩, if_pos h2, unpair_append _ _ Nat.one_pos]
    have hdrop : rest.drop 2 = r.drop 1 := by rw [← hm, healed_drop Nat.one_pos, List.drop_drop]
    rw [List.length_cons, List.length_singleton, hdrop]
    cases hr with
    | nil => simp at hlen; omega
    | @single c r hc hr => exact ⟨by simp [unpair, hc.1, hc.2, hset, hr.healed_eq], by simpa [hr.healed_eq] using hr⟩
    | @pair b c r hb hc hr => exact ⟨by simp [unpair, hb, hset, healed, hc], by simpa [healed, hc] using .single hblank hr⟩
  · rw [if_neg fun h => h2 h.1, if_neg h2, List.length_singleton, hm]
    exact ⟨by simp, hr⟩

/-! ## What painting changes -/

/-- The painted row, the cursor's column and pending wrap, and the styles. -/
structure Pen where
  row : Row
  x : Nat
  wrap : Bool
  table : StyleTable
  style : Style
  last : Char

namespace Screen

variable {W : UnicodeWidth} {P : Finset Style} {T s : Screen} {y : Nat}

/-- The terminal after painting in row `y`. -/
def drawn (T : Screen) (y : Nat) (p : Pen) : Screen :=
  { T with
    grid := { T.grid.putRow y p.row with cursorX := p.x, cursorY := y, wrapPending := p.wrap, styleTable := p.table }
    state := { T.state with currentStyle := p.style, lastPrintedChar := p.last } }

theorem drawn_drawn (T : Screen) (y : Nat) (p p' : Pen) : (T.drawn y p).drawn y p' = T.drawn y p' := by
  simp [drawn, Grid.putRow, List.set_set]

/-- All rows but row `y`. -/
def others (T : Screen) (y : Nat) : List Row :=
  T.grid.scrollbackRows ++ T.grid.visibleRows.eraseIdx y ++ SavedGrid.rows T.state.savedGrid

theorem Inv.visible_drawn (h : T.Inv) (y : Nat) (p : Pen) :
    (T.drawn y p).grid.visibleRows = T.grid.visibleRows.set y p.row := by
  have hput := h.shape.putRow y p.row
  have hlen : (T.grid.visibleRows.set y p.row).length = T.grid.rows := by rw [List.length_set, h.shape.visible_length]
  have hvis := h.shape.visible_replaceVisible hlen
  rw [← hvis, ← hput]
  rfl

theorem Inv.scrollback_drawn (h : T.Inv) (y : Nat) (p : Pen) : (T.drawn y p).grid.scrollbackRows = T.grid.scrollbackRows := by
  have hput := h.shape.putRow y p.row
  rw [← h.shape.scrollback_replaceVisible (T.grid.visibleRows.set y p.row), ← hput]
  rfl

theorem Inv.others_drawn (h : T.Inv) (y : Nat) (p : Pen) : (T.drawn y p).others y = T.others y := by
  simp only [others, h.visible_drawn, h.scrollback_drawn, List.eraseIdx_set_eq]
  rfl

/-- The rows of a screen are row `y` and the others. -/
theorem Inv.mem_allRows (h : T.Inv) {row : Row} (hrow : T.grid.HasRow y row) {r : Row} :
    r ∈ T.allRows ↔ r = row ∨ r ∈ T.others y := by
  obtain ⟨hlt, hget⟩ := List.getElem?_eq_some_iff.1 hrow.getElem?
  have hvis : r ∈ T.grid.visibleRows ↔ r = row ∨ r ∈ T.grid.visibleRows.eraseIdx y := by
    conv => lhs; rw [← List.insertIdx_eraseIdx_getElem hlt, hget]
    exact List.mem_insertIdx (by rw [List.length_eraseIdx_of_lt hlt]; omega)
  rw [allRows, h.shape.cells_eq, others]
  simp only [List.mem_append, hvis]
  tauto

theorem Inv.hasRow_drawn (h : T.Inv) (hy : y < T.grid.rows) (p : Pen) : (T.drawn y p).grid.HasRow y p.row := by
  obtain ⟨row, hrow, -⟩ := h.shape.hasRow hy
  exact hrow.putRow

/-- A style in use after painting was in use, or is that of a painted cell. -/
theorem Inv.uses_drawn (h : T.Inv) {row : Row} (hrow : T.grid.HasRow y row) {p : Pen} {id sid : StyleId} (hpos : 0 < id)
    (hover : Over (InStyle sid) row.cells p.row.cells) (hid : usesStyle (T.drawn y p).allRows id = true) (hdrawn : (T.drawn y p).Inv) :
    usesStyle T.allRows id = true ∨ id = sid := by
  obtain ⟨r, hr, c, hc, rfl⟩ := usesStyle_iff.1 hid
  rcases (hdrawn.mem_allRows (h.hasRow_drawn hrow.1 p)).1 hr with rfl | hr
  · rcases hover.2 c hc with hc | hc | hc
    · exact .inl (usesStyle_iff.2 ⟨row, (h.mem_allRows hrow).2 (.inl rfl), c, hc, rfl⟩)
    · exact absurd hc (Nat.ne_of_gt hpos)
    · exact .inr hc
  · rw [h.others_drawn] at hr
    exact .inl (usesStyle_iff.2 ⟨r, (h.mem_allRows hrow).2 (.inr hr), c, hc, rfl⟩)

/-! ## Printing a character -/

/-- Where the cursor stops after `n` columns. -/
def landing (g : Grid) (n : Nat) : Nat := if n < g.cols then n else g.cols - 1

theorem putChar_drawn (h : s.Inv) (hfits : s.Fits P) (hstyle : s.state.currentStyle ∈ P ∨ s.state.currentStyle = {})
    {row : Row} (hrow : s.grid.HasRow s.grid.cursorY row) (c : Char) {w : Nat} (hsum : s.grid.cursorX + w ≤ 65535) :
    ∃ id p, s.putChar c w = some (s.drawn s.grid.cursorY p) ∧ s.Interned P s.state.currentStyle id p.table ∧
      p.row.cells = writeCell s.grid.cursorX { c, styleId := id, width := w } row.cells ∧
      p.x = landing s.grid (s.grid.cursorX + w) ∧ p.style = s.state.currentStyle ∧
      (s.grid.cursorX + w < s.grid.cols → p.wrap = s.grid.wrapPending) := by
  obtain ⟨id, t, hint, hdone⟩ := internWithGc_exact h hfits hstyle
  rw [putChar_eq h hint hrow hsum]
  unfold passed landing
  by_cases hmargin : s.grid.cursorX + w < s.grid.cols
  · rw [if_pos hmargin]
    refine ⟨id, ⟨_, s.grid.cursorX + w, s.grid.wrapPending, t, s.state.currentStyle, s.state.lastPrintedChar⟩, ?_, hdone,
      row.written_cells _ _, rfl, rfl, fun _ => rfl⟩
    exact congrArg (fun g => some (s.onGrid fun _ => g)) (if_pos hmargin)
  · rw [if_neg hmargin]
    refine ⟨id, ⟨_, s.grid.cols - 1, if s.grid.modes.autowrapMode then true else s.grid.wrapPending, t,
      s.state.currentStyle, s.state.lastPrintedChar⟩, ?_, hdone, row.written_cells _ _, rfl, rfl,
      fun hlt => absurd hlt hmargin⟩
    refine (congrArg (fun g => some (s.onGrid fun _ => g)) (if_neg hmargin)).trans ?_
    change some (s.onGrid fun _ => if s.grid.modes.autowrapMode then _ else _) = _
    cases hauto : s.grid.modes.autowrapMode <;> rfl

section

variable {style : Style} {id : StyleId} {p : Pen} {row : Row} {x : Nat} {cell : Cell}

/-- The new cell is in a style of the palette. -/
theorem Interned.fits_drawn (hdone : s.Interned P style id p.table) (h : s.Inv) (hstyle : style ∈ P ∨ style = {})
    (hrow : s.grid.HasRow y row) (hcells : p.row.cells = writeCell x cell row.cells) (hcell : cell.styleId = id)
    (hinv : (s.drawn y p).Inv) : (s.drawn y p).Fits P := by
  have hbase : (s.onGrid (·.setStyleTable p.table)).Inv := h.table_change hdone.wf hdone.keeps
  refine hdone.fits.rows rfl fun sid hsid huse => ?_
  have hover : Over (InStyle id) row.cells p.row.cells := hcells ▸ writeCell_over (.inl rfl) _ (.inr hcell) (.inr hcell) _
  refine (hbase.uses_drawn (show (s.onGrid (·.setStyleTable p.table)).grid.HasRow y row from hrow) hsid hover huse hinv).imp_right ?_
  rintro rfl
  change p.table.get sid ∈ P
  rw [hdone.get]
  exact hstyle.resolve_right fun h0 => absurd (hdone.default_zero h0) (Nat.ne_of_gt hsid)

/-- The cells of the screen look as before. -/
theorem Interned.shown (hdone : s.Interned P style id p.table) (h : s.Inv) (hrow : row ∈ s.allRows) {d : Cell} (hd : d ∈ row.cells) :
    Cell.shown p.table d = Cell.shown s.grid.styleTable d := by
  have huse : usesStyle s.allRows d.styleId = true := usesStyle_iff.2 ⟨row, hrow, d, hd, rfl⟩
  rw [Cell.shown, Cell.shown, (hdone.keeps d.styleId huse (h.held row hrow d hd)).2]

end

/-- A mark goes to the marks of its row. -/
theorem handleCombiningMark_drawn (h : s.Inv) {row : Row} (hrow : s.grid.HasRow s.grid.cursorY row) (c : Char) :
    ∃ combining, s.handleCombiningMark c = some (s.drawn s.grid.cursorY ⟨{ row with combining }, s.grid.cursorX,
      s.grid.wrapPending, s.grid.styleTable, s.state.currentStyle, s.state.lastPrintedChar⟩) := by
  have hnone : s = s.drawn s.grid.cursorY ⟨row, s.grid.cursorX, s.grid.wrapPending, s.grid.styleTable,
      s.state.currentStyle, s.state.lastPrintedChar⟩ := by
    rw [drawn, hrow.putRow_self]
  cases hcol : s.markColumn with
  | none =>
    rw [handleCombiningMark_none h hcol]
    exact ⟨row.combining, congrArg some hnone⟩
  | some tx =>
    rw [handleCombiningMark_some h hrow hcol]
    split
    · exact ⟨_, rfl⟩
    · exact ⟨row.combining, congrArg some hnone⟩

end Screen

/-! ## A row being painted -/

/-- The cells of a character of `w` columns as they look. -/
def laidShown (c : Char) (w : Nat) (style : Style) : List (Char × Nat × Style) :=
  if w = 2 then [(c, 2, style), ('\x00', 0, style)] else [(c, w, style)]

theorem Cell.laid_shown (t : StyleTable) (cell : Cell) :
    cell.laid.map (Cell.shown t) = laidShown cell.c cell.width (t.get cell.styleId) := by
  unfold Cell.laid laidShown
  split
  next h => simp [Cell.shown, Cell.continuation, h]
  next => rfl

/-- The terminal `s` is `T` with row `y` drawn in styles of the palette. -/
structure Drawing (P : Finset Style) (T : Screen) (y : Nat) (s : Screen) : Prop where
  drawn : ∃ p, s = T.drawn y p
  inv : s.Inv
  fits : s.Fits P
  keeps : T.grid.styleTable.Keeps (fun id => usesStyle (T.others y) id = true) s.grid.styleTable
  tidy : T.grid.styleTable.Tidy → s.grid.styleTable.Tidy

/-- The terminal `s` is `T` with `done` painted at the start of row `y`. Behind
it are the cells that were there, as they were. -/
structure Stroke (P : Finset Style) (T : Screen) (y : Nat) (done : List (Char × Nat × Style)) (s : Screen) : Prop
    extends Drawing P T y s where
  row : ∃ old row a rest, T.grid.HasRow y old ∧ s.grid.HasRow y row ∧ row.cells = a ++ rest ∧
    a.map (Cell.shown s.grid.styleTable) = done ∧ Paired row.cells ∧ Paired rest ∧ rest = healed (old.cells.drop done.length) ∧
    ∀ d ∈ rest, Cell.shown s.grid.styleTable d = Cell.shown T.grid.styleTable d

/-- Ready for the next character: the cursor is behind `done`. -/
structure Brush (P : Finset Style) (T : Screen) (y : Nat) (done : List (Char × Nat × Style)) (style : Style) (s : Screen) :
    Prop extends Stroke P T y done s where
  style : s.state.currentStyle = style
  x : s.grid.cursorX = Screen.landing T.grid done.length
  wrap : done.length < T.grid.cols → s.grid.wrapPending = false

namespace Drawing

variable {P : Finset Style} {T s : Screen} {y : Nat}

/-- Before anything is drawn. -/
theorem start (h : T.Inv) (hfits : T.Fits P) : Drawing P T T.grid.cursorY T := by
  obtain ⟨row, hrow, -⟩ := h.shape.hasRow h.shape.cursor_y
  refine ⟨⟨⟨row, T.grid.cursorX, T.grid.wrapPending, T.grid.styleTable, T.state.currentStyle, T.state.lastPrintedChar⟩, ?_⟩,
    h, hfits, .refl _ _, id⟩
  rw [Screen.drawn, hrow.putRow_self]

theorem cursorY (hp : Drawing P T y s) : s.grid.cursorY = y := by
  obtain ⟨p, rfl⟩ := hp.drawn
  rfl

theorem modes (hp : Drawing P T y s) : s.grid.modes = T.grid.modes := by
  obtain ⟨p, rfl⟩ := hp.drawn
  rfl

theorem cols (hp : Drawing P T y s) : s.grid.cols = T.grid.cols := by
  obtain ⟨p, rfl⟩ := hp.drawn
  rfl

theorem mapCharset (hp : Drawing P T y s) (c : Char) : s.mapCharset c = T.mapCharset c := by
  rw [Screen.mapCharset, Screen.mapCharset, hp.modes]

/-- The row rewritten, with no new style. -/
theorem redrawn (hp : Drawing P T y s) {row : Row} (hrow : s.grid.HasRow y row) {p : Pen}
    (hover : Over (InStyle 0) row.cells p.row.cells) (htable : p.table = s.grid.styleTable) (hinv : (s.drawn y p).Inv) :
    Drawing P T y (s.drawn y p) where
  drawn := by
    obtain ⟨p₀, rfl⟩ := hp.drawn
    exact ⟨p, T.drawn_drawn y p₀ p⟩
  inv := hinv
  fits := hp.fits.rows htable fun id hpos hid =>
    (hp.inv.uses_drawn hrow hpos hover hid hinv).imp_right fun h0 => absurd h0 (Nat.ne_of_gt hpos)
  keeps := by
    rw [show (s.drawn y p).grid.styleTable = s.grid.styleTable from htable]
    exact hp.keeps
  tidy := by
    rw [show (s.drawn y p).grid.styleTable = s.grid.styleTable from htable]
    exact hp.tidy

end Drawing

namespace Stroke

variable {W : UnicodeWidth} {P : Finset Style} {T s : Screen} {y : Nat} {done : List (Char × Nat × Style)}

/-- Nothing but marks, the cursor and the current style changes. -/
theorem redrawn (hp : Stroke P T y done s) {row : Row} (hrow : s.grid.HasRow y row) {p : Pen}
    (hcells : p.row.cells = row.cells) (htable : p.table = s.grid.styleTable) (hinv : (s.drawn y p).Inv) :
    Stroke P T y done (s.drawn y p) where
  toDrawing := hp.toDrawing.redrawn hrow (hcells ▸ .refl) htable hinv
  row := by
    obtain ⟨old, row', a, rest, hold, hrow', hsplit, hshown, hwhole, hpaired, hrest⟩ := hp.row
    obtain rfl : row = row' := Option.some.inj (hrow.getElem?.symm.trans hrow'.getElem?)
    rw [show (s.drawn y p).grid.styleTable = s.grid.styleTable from htable]
    exact ⟨old, p.row, a, rest, hold, hp.inv.hasRow_drawn hrow.1 p, hcells.trans hsplit, hshown, hcells ▸ hwhole, hpaired,
      hrest⟩

/-- A mark printed: no cell changes, and the cursor stays. -/
theorem mark (hp : Stroke P T y done s) {m : Char} (hm : W.charWidth (T.mapCharset m) = 0) :
    ∃ s', s.step W (.print m) = some s' ∧ Stroke P T y done s' ∧ s'.state.currentStyle = s.state.currentStyle ∧
      s'.grid.cursorX = s.grid.cursorX ∧ s'.grid.wrapPending = s.grid.wrapPending := by
  obtain ⟨old, row, a, rest, hold, hrow, -⟩ := hp.row
  have hy := hp.cursorY
  let s₁ : Screen := { s with state := { s.state with lastPrintedChar := m } }
  have h₁ : s₁.Inv := hp.inv.aux ⟨rfl, rfl, rfl, rfl, rfl, List.prefix_rfl, id⟩
  have hrow₁ : s₁.grid.HasRow s₁.grid.cursorY row := by
    rw [← hy] at hrow
    exact hrow
  obtain ⟨combining, hmark⟩ := Screen.handleCombiningMark_drawn h₁ hrow₁ (s₁.mapCharset m)
  have hstep : s.step W (.print m) = some (s.drawn y ⟨{ row with combining }, s.grid.cursorX, s.grid.wrapPending,
      s.grid.styleTable, s.state.currentStyle, m⟩) := by
    have hwidth : W.charWidth (s₁.mapCharset m) = 0 := by
      rw [show s₁.mapCharset m = T.mapCharset m from hp.mapCharset m]
      exact hm
    change (if W.charWidth (s₁.mapCharset m) = 0 then s₁.handleCombiningMark (s₁.mapCharset m) else _) = _
    rw [if_pos hwidth, hmark]
    subst hy
    rfl
  have hinv := steps_inv (Screen.step_steps W hp.inv hstep) hp.inv
  exact ⟨_, hstep, hp.redrawn hrow rfl rfl hinv, rfl, rfl, rfl⟩

theorem marks (hp : Stroke P T y done s) {ms : List Char} (hms : ∀ m ∈ ms, W.charWidth (T.mapCharset m) = 0) :
    ∃ s', s.process W (ms.map .print) = some s' ∧ Stroke P T y done s' ∧
      s'.state.currentStyle = s.state.currentStyle ∧ s'.grid.cursorX = s.grid.cursorX ∧
      s'.grid.wrapPending = s.grid.wrapPending := by
  induction ms generalizing s with
  | nil => exact ⟨s, rfl, hp, rfl, rfl, rfl⟩
  | cons m ms ih =>
    obtain ⟨s₁, hstep, hp₁, hstyle, hx, hwrap⟩ := hp.mark (hms m (List.mem_cons_self ..))
    obtain ⟨s₂, hrun, hp₂, hstyle₂, hx₂, hwrap₂⟩ := ih hp₁ fun m hm => hms m (List.mem_cons_of_mem _ hm)
    rw [List.map_cons, Screen.process_cons, hstep]
    exact ⟨s₂, hrun, hp₂, hstyle₂.trans hstyle, hx₂.trans hx, hwrap₂.trans hwrap⟩

/-- SGR sets the current style. -/
theorem sgr (hp : Stroke P T y done s) (style : Style) :
    s.step W (.sgr style) = some { s with state := { s.state with currentStyle := style } } ∧
      Stroke P T y done { s with state := { s.state with currentStyle := style } } := by
  obtain ⟨old, row, a, rest, hold, hrow, -⟩ := hp.row
  have hstep : s.step W (.sgr style) = some { s with state := { s.state with currentStyle := style } } := by
    change some { s with state := { s.state with currentStyle := s.state.currentStyle.applySgr style.sgrWithReset } } = _
    rw [Style.applySgr_sgrWithReset]
  have hdrawn : ({ s with state := { s.state with currentStyle := style } } : Screen) = s.drawn y ⟨row, s.grid.cursorX,
      s.grid.wrapPending, s.grid.styleTable, style, s.state.lastPrintedChar⟩ := by
    rw [Screen.drawn, hrow.putRow_self, ← hp.cursorY]
  have hinv := steps_inv (Screen.step_steps W hp.inv hstep) hp.inv
  rw [hdrawn] at hinv ⊢
  exact ⟨hdrawn ▸ hstep, hp.redrawn hrow rfl rfl hinv⟩

end Stroke

theorem laidShown_length (c : Char) (w : Nat) (style : Style) : (laidShown c w style).length = if w = 2 then 2 else 1 := by
  unfold laidShown
  split <;> rfl

theorem Cell.laid_length (cell : Cell) : cell.laid.length = if cell.width = 2 then 2 else 1 := by
  unfold Cell.laid
  split <;> rfl

namespace Brush

variable {W : UnicodeWidth} {P : Finset Style} {T s : Screen} {y : Nat} {done : List (Char × Nat × Style)} {style : Style}

/-- The terminal itself, with the cursor in column 0. -/
theorem start (h : T.Inv) (hfits : T.Fits P) (hx : T.grid.cursorX = 0) (hwrap : T.grid.wrapPending = false)
    (hpaired : ∀ row, T.grid.HasRow T.grid.cursorY row → Paired row.cells) :
    Brush P T T.grid.cursorY [] T.state.currentStyle T := by
  obtain ⟨row, hrow, -⟩ := h.shape.hasRow h.shape.cursor_y
  refine ⟨⟨.start h hfits, row, row, [], row.cells, hrow, hrow, rfl, rfl, hpaired row hrow, hpaired row hrow,
    (hpaired row hrow).healed_eq.symm, fun _ _ => rfl⟩, rfl, ?_, fun _ => hwrap⟩
  rw [hx, List.length_nil, Screen.landing, if_pos h.shape.cols_pos]

/-- A character printed behind `done`. -/
theorem print (hb : Brush P T y done style s) (hT : T.Inv) (hstyle : style ∈ P ∨ style = {}) {c : Char} {w : Nat}
    (hw : W.charWidth (T.mapCharset c) = w) (hpos : 0 < w)
    (hfit : done.length + (laidShown (T.mapCharset c) w style).length ≤ T.grid.cols) (hsum : done.length + w ≤ 65535) :
    ∃ s', s.step W (.print c) = some s' ∧ Stroke P T y (done ++ laidShown (T.mapCharset c) w style) s' ∧
      s'.state.currentStyle = style ∧ s'.grid.cursorX = Screen.landing T.grid (done.length + w) ∧
      (done.length + w < T.grid.cols → s'.grid.wrapPending = false) := by
  rw [laidShown_length] at hfit
  have hlt : done.length < T.grid.cols := by split at hfit <;> omega
  have hwrap := hb.wrap hlt
  have hx : s.grid.cursorX = done.length := by rw [hb.x, Screen.landing, if_pos hlt]
  have hcols := hb.cols
  obtain ⟨old, row, a, rest, hold, hrow, hsplit, hshown, hwhole, hpaired, hrest, hseen⟩ := hb.row
  have halen : a.length = done.length := by rw [← hshown, List.length_map]
  have hrowlen := hb.inv.shape.row_len row hrow.mem
  rw [hsplit, List.length_append] at hrowlen
  let s₁ : Screen := s.noted c
  have h₁ : s₁.Inv := Screen.noted_inv hb.inv c
  have hy : s₁.grid.cursorY = y := hb.cursorY
  have hstyle₁ : s₁.state.currentStyle = style := hb.style
  have hrow₁ : s₁.grid.HasRow s₁.grid.cursorY row := hy ▸ hrow
  have hx₁ : s₁.grid.cursorX = done.length := hx
  obtain ⟨id, p, hput, hdone, hcells, hpx, hpstyle, hpwrap⟩ := Screen.putChar_drawn h₁ (show s₁.Fits P from hb.fits)
    (hstyle₁.symm ▸ hstyle) hrow₁ (T.mapCharset c) (w := w) (by rw [hx₁]; exact hsum)
  rw [hx₁] at hcells hpx hpwrap
  rw [hy] at hput
  have hstep : s.step W (.print c) = some (s₁.drawn y p) := by
    have hcut : ¬ (w = 2 ∧ s₁.grid.cols ≤ s₁.grid.cursorX + 1) := fun ⟨h2, hle⟩ => by
      rw [if_pos h2] at hfit
      rw [hx₁, show s₁.grid.cols = T.grid.cols from hcols] at hle
      omega
    have hmap : s.mapCharset c = T.mapCharset c := hb.mapCharset c
    have hwrap₁ : ¬ (s.grid.wrapPending = true ∧ s.grid.modes.autowrapMode = true) := fun hp => by
      rw [show s.grid.wrapPending = false from hwrap] at hp
      cases hp.1
    change s.print W c = _
    rw [Screen.print_within W hb.inv (by rw [hmap, hw]; exact Nat.ne_of_gt hpos) hwrap₁ (by rw [hmap, hw]; exact hcut), hmap, hw]
    exact hput
  have hinv : (s₁.drawn y p).Inv := steps_inv (Screen.step_steps W hb.inv hstep) hb.inv
  refine ⟨_, hstep, ⟨⟨?_, hinv, ?_, ?_, fun ht => hdone.tidy (hb.tidy ht)⟩, ?_⟩, hpstyle.trans hstyle₁, ?_, fun hroom => ?_⟩
  · obtain ⟨p₀, rfl⟩ := hb.drawn
    exact ⟨p, T.drawn_drawn y p₀ p⟩
  · exact hdone.fits_drawn h₁ (hstyle₁.symm ▸ hstyle) hrow hcells rfl hinv
  · refine hb.keeps.trans fun sid hsid hheld => hdone.keeps sid ?_ hheld
    obtain ⟨r, hr, d, hd, rfl⟩ := usesStyle_iff.1 hsid
    refine usesStyle_iff.2 ⟨r, (h₁.mem_allRows (y := y) hrow).2 (.inr ?_), d, hd, rfl⟩
    obtain ⟨p₀, rfl⟩ := hb.drawn
    exact (hT.others_drawn y p₀).symm ▸ hr
  · have hlaid : ({ c := T.mapCharset c, styleId := id, width := w } : Cell).laid.length ≤ rest.length := by
      rw [Cell.laid_length]
      dsimp only
      omega
    obtain ⟨hwrite, hpaired'⟩ := writeCell_append a hpaired hlaid
    have hwhole' : Paired p.row.cells := by
      rw [hcells]
      refine hwhole.writeCell ?_ (Nat.ne_of_gt hpos) fun h2 => ?_ <;> rw [hsplit, List.length_append]
      · omega
      · rw [if_pos h2] at hfit
        omega
    have hbehind : healed (rest.drop ({ c := T.mapCharset c, styleId := id, width := w } : Cell).laid.length) =
        healed (old.cells.drop (done ++ laidShown (T.mapCharset c) w style).length) := by
      have hlaidpos : 0 < ({ c := T.mapCharset c, styleId := id, width := w } : Cell).laid.length := by
        rw [Cell.laid_length]
        split <;> omega
      rw [hrest, healed_drop hlaidpos, List.drop_drop, List.length_append, laidShown_length, Cell.laid_length]
    have hsame (d : Cell) (hd : d ∈ row.cells) : Cell.shown p.table d = Cell.shown s.grid.styleTable d :=
      hdone.shown h₁ ((h₁.mem_allRows hrow).2 (.inl rfl)) hd
    refine ⟨old, p.row, _, _, hold, hb.inv.hasRow_drawn hrow.1 p, by rw [hcells, hsplit, ← halen, hwrite], ?_, hwhole',
      hpaired', hbehind, fun d hd => ?_⟩
    · rw [List.map_append, Cell.laid_shown]
      change a.map (Cell.shown p.table) ++ laidShown (T.mapCharset c) w (p.table.get id) = _
      rw [List.map_congr_left fun d hd => hsame d (by rw [hsplit]; exact List.mem_append_left _ hd), hshown, hdone.get, hstyle₁]
    · rcases mem_healed hd with rfl | hd
      · simp only [Cell.shown, hinv.table.get_zero, hT.table.get_zero]
      · have hrest' := List.mem_of_mem_drop hd
        exact (hsame d (by rw [hsplit]; exact List.mem_append_right _ hrest')).trans (hseen d hrest')
  · change p.x = _
    rw [hpx, Screen.landing, Screen.landing, show s₁.grid.cols = T.grid.cols from hcols]
  · exact (hpwrap (by rw [show s₁.grid.cols = T.grid.cols from hcols]; exact hroom)).trans hwrap

end Brush

/-! ## The cells of a row that are written -/

theorem writeLen_cons (c : Cell) (l : List Cell) :
    writeLen (c :: l) = if writeLen l = 0 then (if c.hasContent then 1 else 0) else writeLen l + 1 := by
  unfold writeLen lastContentPosition
  rw [List.reverse_cons, List.findIdx?_append]
  cases hfind : l.reverse.findIdx? Cell.hasContent with
  | some i =>
    have hlt : i < l.length := by
      have := (List.findIdx?_eq_some_iff_getElem.1 hfind).1
      rwa [List.length_reverse] at this
    simp only [Option.some_or, Option.map_some, List.length_cons]
    rw [if_neg (by omega)]
    omega
  | none =>
    cases hc : c.hasContent <;> simp [List.findIdx?_cons, hc]

theorem writeLen_append (a l : List Cell) :
    writeLen (a ++ l) = if writeLen l = 0 then writeLen a else a.length + writeLen l := by
  induction a with
  | nil =>
    rw [List.nil_append, List.length_nil, Nat.zero_add]
    split
    next hl => exact hl
    next => rfl
  | cons c a ih =>
    rw [List.cons_append, writeLen_cons, ih, writeLen_cons, List.length_cons]
    by_cases hl : writeLen l = 0
    · rw [if_pos hl, if_pos hl]
    · rw [if_neg hl, if_neg hl, if_neg (by omega)]
      omega

theorem writeLen_eq_zero {l : List Cell} : writeLen l = 0 ↔ ∀ c ∈ l, c.hasContent = false := by
  induction l with
  | nil => simp [writeLen, lastContentPosition]
  | cons c l ih =>
    rw [writeLen_cons, List.forall_mem_cons, ← ih]
    cases hc : c.hasContent <;> by_cases hl : writeLen l = 0 <;> simp [hl]

/-- The events that paint the cells of a row from column `x` on. -/
def paintRow (t : StyleTable) (row : Row) (last : StyleId) (x : Nat) (cells : List Cell) : List Event × StyleId :=
  paintCells t row last x (cells.take (writeLen cells))

section

variable (t : StyleTable) (row : Row) (last : StyleId) (x : Nat)

theorem paintRow_blank {cells : List Cell} (h : writeLen cells = 0) : paintRow t row last x cells = ([], last) := by
  rw [paintRow, h, List.take_zero, paintCells]

theorem paintRow_continuation {c : Cell} (l : List Cell) (hw : c.width = 0) :
    paintRow t row last x (c :: l) = paintRow t row last (x + 1) l := by
  have hlen := writeLen_cons c l
  by_cases hl : writeLen l = 0
  · rw [if_pos hl] at hlen
    rw [paintRow_blank t row last (x + 1) hl, paintRow, hlen]
    split
    · rw [List.take_succ_cons, List.take_zero, paintCells, if_pos hw, paintCells]
    · rw [List.take_zero, paintCells]
  · rw [if_neg hl] at hlen
    rw [paintRow, hlen, List.take_succ_cons, paintCells, if_pos hw, paintRow]

theorem paintRow_cons {c : Cell} {l : List Cell} (hw : c.width ≠ 0) (hlen : writeLen (c :: l) ≠ 0) :
    paintRow t row last x (c :: l) =
      ((if c.styleId ≠ last then [.sgr (t.get c.styleId)] else []) ++ .print c.c :: (row.marks x).map .print ++
        (paintRow t row c.styleId (x + 1) l).1, (paintRow t row c.styleId (x + 1) l).2) := by
  have hcons := writeLen_cons c l
  by_cases hl : writeLen l = 0
  · rw [if_pos hl] at hcons
    have h1 : writeLen (c :: l) = 1 := by split at hcons <;> omega
    rw [paintRow_blank t row c.styleId (x + 1) hl, paintRow, h1, List.take_succ_cons, List.take_zero, paintCells,
      if_neg hw, paintCells]
  · rw [if_neg hl] at hcons
    rw [paintRow, hcons, List.take_succ_cons, paintCells, if_neg hw, paintRow]

end

/-! ## Rows that can be painted -/

/-- The second cell of each wide character is the one that `set_cell` writes. -/
def Joined (l : List Cell) : Prop :=
  ∀ i b c, l[i]? = some b → l[i + 1]? = some c → b.width = 2 → c.width = 0 → c = b.continuation

instance (l : List Cell) : Decidable (Joined l) :=
  decidable_of_iff (∀ i < l.length, ∀ b ∈ l[i]?, ∀ c ∈ l[i + 1]?, b.width = 2 → c.width = 0 → c = b.continuation)
    ⟨fun h i b c hb hc => h i (List.getElem?_eq_some_iff.1 hb).1 b hb c hc, fun h i _ b hb c hc => h i b c hb hc⟩

/-- Complete wide characters, each cell as wide as its character, and marks
without a width that are no control characters. -/
structure Row.WellFormed (W : UnicodeWidth) (row : Row) : Prop where
  paired : Paired row.cells
  joined : Joined row.cells
  widths : ∀ c ∈ row.cells, c.width = W.charWidth c.c
  marks : ∀ x, ∀ m ∈ row.marks x, W.width m = some 0

theorem Row.mem_marks {row : Row} {x : Nat} {m : Char} (h : m ∈ row.marks x) : ∃ e ∈ row.combining, m ∈ e.2 := by
  unfold Row.marks at h
  split at h
  next e hfind => exact ⟨_, List.mem_of_find?_eq_some hfind, h⟩
  next => cases h

/-- A character of three columns is the last one of its row, and the column
after it is a 16-bit word. -/
def BroadLast (l : List Cell) : Prop := ∀ i c, l[i]? = some c → c.width = 3 → writeLen l ≤ i + 1 ∧ i + 3 ≤ 65535

instance (l : List Cell) : Decidable (BroadLast l) :=
  decidable_of_iff (∀ i < l.length, ∀ c ∈ l[i]?, c.width = 3 → writeLen l ≤ i + 1 ∧ i + 3 ≤ 65535)
    ⟨fun h i c hc => h i (List.getElem?_eq_some_iff.1 hc).1 c hc, fun h i _ c hc => h i c hc⟩

/-- Cells from column `x` on that are printed one after the other. -/
inductive Laid (W : UnicodeWidth) : Nat → List Cell → Prop
  | nil {x} : Laid W x []
  | narrow {x c l} : c.width = 1 → W.charWidth c.c = 1 → Laid W (x + 1) l → Laid W x (c :: l)
  | wide {x b l} : b.width = 2 → W.charWidth b.c = 2 → Laid W (x + 2) l → Laid W x (b :: b.continuation :: l)
  | broad {x c l} : c.width = 3 → W.charWidth c.c = 3 → x + 3 ≤ 65535 → writeLen l = 0 → Laid W (x + 1) l →
      Laid W x (c :: l)

section

variable {W : UnicodeWidth}

theorem UnicodeWidth.charWidth_space (W : UnicodeWidth) : W.charWidth ' ' = 1 := by
  rw [charWidth, W.width_ascii ' ' (by decide) (by decide), Option.getD_some]

theorem UnicodeWidth.charWidth_nul (W : UnicodeWidth) : W.charWidth '\x00' = 0 := by
  rw [charWidth, W.width_control '\x00' (.inl (by decide)), Option.getD_none]

theorem Cell.hasContent_eq_false {c : Cell} : c.hasContent = false ↔ (c.c = ' ' ∨ c.c = '\x00') ∧ c.styleId = 0 := by
  simp [Cell.hasContent]
  tauto

/-- Only spaces have a width and no content. -/
theorem Cell.eq_blank {c : Cell} (hc : c.hasContent = false) (hw : W.charWidth c.c = c.width) (h0 : c.width ≠ 0) : c = {} := by
  obtain ⟨hchar, hid⟩ := Cell.hasContent_eq_false.1 hc
  rcases hchar with hchar | hchar
  · rw [hchar, W.charWidth_space] at hw
    cases c
    simp_all
  · rw [hchar, W.charWidth_nul] at hw
    exact absurd hw.symm h0

theorem Laid.blank {x : Nat} {l : List Cell} (h : Laid W x l) (hl : writeLen l = 0) : l = List.replicate l.length {} := by
  have hall := writeLen_eq_zero.1 hl
  have hblank {c : Cell} {w : Nat} (hc : c.hasContent = false) (hw : c.width = w) (hcw : W.charWidth c.c = w) (h0 : w ≠ 0) :
      c = {} := Cell.eq_blank hc (hcw.trans hw.symm) (hw.symm ▸ h0)
  induction h with
  | nil => rfl
  | narrow hw hcw _ ih =>
    obtain ⟨hc, hl⟩ := List.forall_mem_cons.1 hall
    rw [List.length_cons, List.replicate_succ, hblank hc hw hcw Nat.one_ne_zero]
    exact congrArg _ (ih (writeLen_eq_zero.2 hl) hl)
  | wide hw hcw =>
    have hb := hblank (hall _ (List.mem_cons_self ..)) hw hcw (by decide)
    rw [hb] at hw
    cases hw
  | broad hw hcw =>
    have hb := hblank (hall _ (List.mem_cons_self ..)) hw hcw (by decide)
    rw [hb] at hw
    cases hw

/-- Whole characters with at most one broad character, at the end. -/
theorem Paired.laid {cells : List Cell} (hpaired : Paired cells) (hjoined : Joined cells)
    (hwidths : ∀ c ∈ cells, c.width = W.charWidth c.c) (hbroad : BroadLast cells) : Laid W 0 cells := by
  have hle (c : Cell) (hc : c ∈ cells) : c.width ≤ 3 := hwidths c hc ▸ W.charWidth_le _
  have key : ∀ {l : List Cell}, Paired l → ∀ pre, cells = pre ++ l → Laid W pre.length l := by
    intro l hl
    induction hl with
    | nil => exact fun _ _ => .nil
    | @single c l hs _ ih =>
      intro pre hpre
      have hmem : c ∈ cells := by simp [hpre]
      have hw := hwidths c hmem
      have hrest := ih (pre ++ [c]) (by simp [hpre])
      rw [List.length_append, List.length_singleton] at hrest
      have := hle c hmem
      rcases (show c.width = 1 ∨ c.width = 3 by have := hs.1; have := hs.2; omega) with h1 | h3
      · exact .narrow h1 (hw ▸ h1) hrest
      · obtain ⟨hlen, hsum⟩ := hbroad pre.length c (by simp [hpre]) h3
        have hl : writeLen l = 0 := by
          by_contra hl
          have hcons := writeLen_cons c l
          rw [if_neg hl] at hcons
          rw [hpre, writeLen_append, if_neg (by omega)] at hlen
          omega
        exact .broad h3 (hw ▸ h3) hsum hl hrest
    | @pair b c l hb hc _ ih =>
      intro pre hpre
      have hmem : b ∈ cells := by simp [hpre]
      obtain rfl := hjoined pre.length b c (by simp [hpre]) (by simp [hpre]) hb hc
      have hrest := ih (pre ++ [b, b.continuation]) (by simp [hpre])
      rw [List.length_append] at hrest
      exact .wide hb (hwidths b hmem ▸ hb) hrest
  exact key hpaired [] rfl

theorem Row.WellFormed.laid {row : Row} (h : row.WellFormed W) (hbroad : BroadLast row.cells) : Laid W 0 row.cells :=
  h.paired.laid h.joined h.widths hbroad

end

/-! ## Painting a row -/

/-- What a cell shows on a terminal `T`. -/
def Screen.seen (T : Screen) (t : StyleTable) (c : Cell) : Char × Nat × Style := (T.mapCharset c.c, c.width, t.get c.styleId)

/-- What a blank shows. -/
def blankShown : Char × Nat × Style := (' ', 1, {})

/-- The terminal prints the characters of the row in their widths, and the
marks as marks. -/
structure Screen.Reads (W : UnicodeWidth) (T : Screen) (row : Row) : Prop where
  widths : ∀ c ∈ row.cells, W.charWidth (T.mapCharset c.c) = W.charWidth c.c
  marks : ∀ x, ∀ m ∈ row.marks x, W.charWidth (T.mapCharset m) = 0

/-- No character set changes a space or the second cell of a wide character. -/
theorem Screen.mapCharset_blank (T : Screen) : T.mapCharset ' ' = ' ' ∧ T.mapCharset '\x00' = '\x00' := by
  unfold Screen.mapCharset
  split <;> exact ⟨rfl, rfl⟩

section

variable {W : UnicodeWidth} {P : Finset Style} {T s : Screen} {y : Nat} {done : List (Char × Nat × Style)}
  {t : StyleTable} {last : StyleId}

/-- One cell: its style if it is another one, its character and its marks. -/
theorem Brush.cell (hb : Brush P T y done (t.get last) s) (hT : T.Inv) {c : Cell} {ms : List Char}
    (hstyle : t.get c.styleId ∈ P) (hw : W.charWidth (T.mapCharset c.c) = c.width) (hpos : 0 < c.width)
    (hms : ∀ m ∈ ms, W.charWidth (T.mapCharset m) = 0)
    (hfit : done.length + (laidShown (T.mapCharset c.c) c.width (t.get c.styleId)).length ≤ T.grid.cols)
    (hsum : done.length + c.width ≤ 65535) :
    ∃ s', s.process W ((if c.styleId ≠ last then [.sgr (t.get c.styleId)] else []) ++ .print c.c :: ms.map .print) = some s' ∧
      Stroke P T y (done ++ laidShown (T.mapCharset c.c) c.width (t.get c.styleId)) s' ∧
      s'.state.currentStyle = t.get c.styleId ∧ s'.grid.cursorX = Screen.landing T.grid (done.length + c.width) ∧
      (done.length + c.width < T.grid.cols → s'.grid.wrapPending = false) := by
  obtain ⟨s₁, hsgr, hb₁⟩ : ∃ s₁, s.process W (if c.styleId ≠ last then [.sgr (t.get c.styleId)] else []) = some s₁ ∧
      Brush P T y done (t.get c.styleId) s₁ := by
    split
    · obtain ⟨hstep, hp⟩ := hb.sgr (t.get c.styleId) (W := W)
      rw [Screen.process_one]
      exact ⟨_, hstep, hp, rfl, hb.x, hb.wrap⟩
    next hsame =>
      rw [Decidable.not_not.1 hsame]
      exact ⟨s, rfl, hb⟩
  obtain ⟨s₂, hprint, hp₂, hs₂, hx₂, hwrap₂⟩ := hb₁.print hT (.inl hstyle) hw hpos hfit hsum
  obtain ⟨s₃, hmarks, hp₃, hs₃, hx₃, hwrap₃⟩ := hp₂.marks hms
  rw [Screen.process_append, hsgr, Option.bind_some, Screen.process_cons, hprint, Option.bind_some]
  exact ⟨s₃, hmarks, hp₃, hs₃.trans hs₂, hx₃.trans hx₂, fun hlt => hwrap₃.trans (hwrap₂ hlt)⟩

/-- A cell that is not broad leaves the cursor behind it. -/
theorem Brush.cell_brush (hb : Brush P T y done (t.get last) s) (hT : T.Inv) {c : Cell} {ms : List Char}
    (hstyle : t.get c.styleId ∈ P) (hw : W.charWidth (T.mapCharset c.c) = c.width) (hwidth : c.width = 1 ∨ c.width = 2)
    (hms : ∀ m ∈ ms, W.charWidth (T.mapCharset m) = 0) (hfit : done.length + c.width ≤ T.grid.cols) :
    ∃ s', s.process W ((if c.styleId ≠ last then [.sgr (t.get c.styleId)] else []) ++ .print c.c :: ms.map .print) = some s' ∧
      Brush P T y (done ++ laidShown (T.mapCharset c.c) c.width (t.get c.styleId)) (t.get c.styleId) s' := by
  have hlen : (laidShown (T.mapCharset c.c) c.width (t.get c.styleId)).length = c.width := by
    rw [laidShown_length]
    split <;> omega
  have hcols := hT.shape.cols_le
  obtain ⟨s', hs', hp, hstyle', hx, hwrap⟩ := hb.cell hT hstyle hw (by omega) hms (by omega) (by omega)
  refine ⟨s', hs', hp, hstyle', ?_, ?_⟩ <;> rw [List.length_append, hlen]
  · exact hx
  · exact hwrap

theorem Laid.blank_seen {x : Nat} {l : List Cell} (h : Laid W x l) (hl : writeLen l = 0) (h0 : t.get 0 = {}) :
    l.map (T.seen t) = List.replicate l.length blankShown := by
  have hblank : T.seen t {} = blankShown := Prod.ext T.mapCharset_blank.1 (Prod.ext rfl h0)
  conv => lhs; rw [h.blank hl, List.map_replicate, hblank]

/-- How far `n` painted cells of a row reach: behind the last of them, or two
columns further if that one is broad. -/
def Reaches (cells : List Cell) (n k : Nat) : Prop :=
  (∀ c ∈ cells, c.width ≠ 3) ∧ k = n ∨ ∃ i < cells.length, (∀ j d, cells[j]? = some d → (d.width = 3 ↔ j = i)) ∧ n = i + 1 ∧ k = i + 3

theorem Reaches.cons {cells : List Cell} {n k : Nat} (h : Reaches cells n k) {c : Cell} (hc : c.width ≠ 3) :
    Reaches (c :: cells) (n + 1) (k + 1) := by
  obtain ⟨hnone, rfl⟩ | ⟨i, hi, honly, rfl, rfl⟩ := h
  · exact .inl ⟨List.forall_mem_cons.2 ⟨hc, hnone⟩, rfl⟩
  · refine .inr ⟨i + 1, Nat.succ_lt_succ hi, fun j d hd => ?_, rfl, rfl⟩
    cases j with
    | zero =>
      obtain rfl := Option.some.inj hd
      exact ⟨fun h3 => absurd h3 hc, fun h0 => by omega⟩
    | succ j => rw [honly j d hd, Nat.succ_inj]

/-- The cells of a row painted: they show what they showed, up to the character
set of the terminal. -/
structure Inked (W : UnicodeWidth) (P : Finset Style) (T : Screen) (y : Nat) (done : List (Char × Nat × Style)) (t : StyleTable)
    (events : List Event × StyleId) (cells : List Cell) (s s' : Screen) (b : List (Char × Nat × Style)) : Prop where
  run : s.process W events.1 = some s'
  stroke : Stroke P T y (done ++ b) s'
  length_le : b.length ≤ cells.length
  seen : b ++ List.replicate (cells.length - b.length) blankShown = cells.map (T.seen t)
  style : s'.state.currentStyle = t.get events.2
  x : ∃ k, Reaches cells b.length k ∧ s'.grid.cursorX = Screen.landing T.grid (done.length + k)

/-- Nothing is left to write. -/
theorem Stroke.paint_blank (row : Row) {x : Nat} {l : List Cell} (hl : Laid W x l) (hblank : writeLen l = 0) (h0 : t.get 0 = {})
    (hp : Stroke P T y done s) (hs : s.state.currentStyle = t.get last) (hx : s.grid.cursorX = Screen.landing T.grid done.length) :
    Inked W P T y done t (paintRow t row last x l) l s s [] := by
  have hcells := hl.blank hblank
  rw [paintRow_blank t row last x hblank]
  refine ⟨rfl, (List.append_nil done).symm ▸ hp, Nat.zero_le _, (hl.blank_seen hblank h0).symm, hs, 0, .inl ⟨fun c hc => ?_, rfl⟩, hx⟩
  rw [hcells] at hc
  rw [(List.mem_replicate.1 hc).2]
  decide

theorem Brush.paint {row : Row} (hT : T.Inv) (hmarks : ∀ x, ∀ m ∈ row.marks x, W.charWidth (T.mapCharset m) = 0)
    {x : Nat} {cells : List Cell} (hl : Laid W x cells)
    (hreads : ∀ c ∈ cells, W.charWidth (T.mapCharset c.c) = W.charWidth c.c) (hstyles : ∀ c ∈ cells, t.get c.styleId ∈ P)
    (h0 : t.get 0 = {}) (hb : Brush P T y done (t.get last) s) (hx : done.length = x)
    (hfit : done.length + cells.length ≤ T.grid.cols) :
    ∃ s' b, Inked W P T y done t (paintRow t row last x cells) cells s s' b := by
  induction hl generalizing done last s with
  | nil => exact ⟨s, [], hb.toStroke.paint_blank row (x := x) .nil rfl h0 hb.style hb.x⟩
  | @narrow x c l hw hcw hl ih =>
    by_cases hblank : writeLen (c :: l) = 0
    · exact ⟨s, [], hb.toStroke.paint_blank row (.narrow hw hcw hl) hblank h0 hb.style hb.x⟩
    rw [List.length_cons] at hfit
    obtain ⟨s₁, hrun₁, hb₁⟩ := hb.cell_brush hT (hstyles c (List.mem_cons_self ..))
      ((hreads c (List.mem_cons_self ..)).trans (hcw.trans hw.symm)) (.inl hw) (hmarks x) (by omega)
    have hone : laidShown (T.mapCharset c.c) c.width (t.get c.styleId) = [T.seen t c] := by
      rw [laidShown, if_neg (by omega)]
      rfl
    rw [hone] at hb₁
    obtain ⟨s', b, hp⟩ := ih (fun d hd => hreads d (List.mem_cons_of_mem _ hd))
      (fun d hd => hstyles d (List.mem_cons_of_mem _ hd)) hb₁ (by simp [hx]) (by simp; omega)
    obtain ⟨k, hk, hcursor⟩ := hp.x
    rw [paintRow_cons t row last x (by omega) hblank]
    refine ⟨s', T.seen t c :: b, ?_, by simpa using hp.stroke, Nat.succ_le_succ hp.length_le, ?_, hp.style, k + 1,
      hk.cons (by omega), ?_⟩
    · rw [Screen.process_append, hrun₁, Option.bind_some, hp.run]
    · rw [List.length_cons, List.length_cons, Nat.add_sub_add_right, List.cons_append, hp.seen, List.map_cons]
    · rw [hcursor, List.length_append, List.length_singleton, Nat.add_assoc, Nat.add_comm 1 k]
  | @wide x b l hw hbw hl ih =>
    by_cases hblank : writeLen (b :: b.continuation :: l) = 0
    · exact ⟨s, [], hb.toStroke.paint_blank row (.wide hw hbw hl) hblank h0 hb.style hb.x⟩
    rw [List.length_cons, List.length_cons] at hfit
    obtain ⟨s₁, hrun₁, hb₁⟩ := hb.cell_brush hT (hstyles b (List.mem_cons_self ..))
      ((hreads b (List.mem_cons_self ..)).trans (hbw.trans hw.symm)) (.inr hw) (hmarks x) (by omega)
    have htwo : laidShown (T.mapCharset b.c) b.width (t.get b.styleId) = [T.seen t b, T.seen t b.continuation] := by
      rw [laidShown, if_pos hw, Screen.seen, Screen.seen, hw, Cell.continuation, T.mapCharset_blank.2]
    rw [htwo] at hb₁
    have hmem {d : Cell} (hd : d ∈ l) : d ∈ b :: b.continuation :: l := List.mem_cons_of_mem _ (List.mem_cons_of_mem _ hd)
    obtain ⟨s', m, hp⟩ := ih (fun d hd => hreads d (hmem hd)) (fun d hd => hstyles d (hmem hd)) hb₁ (by simp [hx]) (by simp; omega)
    obtain ⟨k, hk, hcursor⟩ := hp.x
    rw [paintRow_cons t row last x (by omega) hblank, paintRow_continuation t row b.styleId (x + 1) l rfl]
    refine ⟨s', T.seen t b :: T.seen t b.continuation :: m, ?_, by simpa using hp.stroke,
      Nat.succ_le_succ (Nat.succ_le_succ hp.length_le), ?_, hp.style, k + 2,
      (hk.cons (c := b.continuation) (Nat.succ_ne_zero 2).symm).cons (by omega), ?_⟩
    · rw [Screen.process_append, hrun₁, Option.bind_some, hp.run]
    · rw [List.length_cons, List.length_cons, List.length_cons, List.length_cons, Nat.add_sub_add_right,
        Nat.add_sub_add_right, List.cons_append, List.cons_append, hp.seen, List.map_cons, List.map_cons]
    · rw [hcursor, List.length_append, List.length_cons, List.length_singleton, Nat.add_assoc, Nat.add_comm 2 k]
  | @broad x c l hw hcw hsum hblank hl ih =>
    by_cases hnone : writeLen (c :: l) = 0
    · exact ⟨s, [], hb.toStroke.paint_blank row (.broad hw hcw hsum hblank hl) hnone h0 hb.style hb.x⟩
    rw [List.length_cons] at hfit
    have hone : laidShown (T.mapCharset c.c) c.width (t.get c.styleId) = [T.seen t c] := by
      rw [laidShown, if_neg (by omega)]
      rfl
    obtain ⟨s₁, hrun₁, hp₁, hs₁, hx₁, -⟩ := hb.cell hT (hstyles c (List.mem_cons_self ..))
      ((hreads c (List.mem_cons_self ..)).trans (hcw.trans hw.symm)) (by omega) (hmarks x)
      (by rw [hone, List.length_singleton]; omega) (by omega)
    rw [hone] at hp₁
    have hcells := hl.blank hblank
    rw [paintRow_cons t row last x (by omega) hnone, paintRow_blank t row c.styleId (x + 1) hblank]
    refine ⟨s₁, [T.seen t c], ?_, hp₁, by simp, ?_, hs₁, 3, .inr ⟨0, by simp, fun j d hd => ?_, rfl, rfl⟩, by rw [hx₁, hw]⟩
    · rw [Screen.process_append, hrun₁, Option.bind_some]
      rfl
    · rw [List.length_cons, List.length_singleton, Nat.add_sub_cancel, List.map_cons, hl.blank_seen hblank h0]
      rfl
    · cases j with
      | zero =>
        obtain rfl := Option.some.inj hd
        exact ⟨fun _ => rfl, fun _ => hw⟩
      | succ j =>
        have hmem := List.mem_of_getElem? (show l[j]? = some d from hd)
        rw [hcells] at hmem
        rw [(List.mem_replicate.1 hmem).2]
        simp

end

end Retach
