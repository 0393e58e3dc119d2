import Retach.Effects
/-!
# The handlers as effects

On a screen with the invariant no handler fails, and each is a sequence of
effects. Most need no effect with a name of its own: `allowed` is any set of
kinds with `other` in it.
-/

open Checked Lists Runs

namespace Retach

namespace Screen

variable {allowed : Kind → Prop} {s : Screen}

/-- A screen reached by effects, and the option it is the value of. -/
abbrev Does (allowed : Kind → Prop) (s : Screen) (x : Option Screen) : Prop := Takes Effect allowed s x

/-! ## Single effects -/

theorem does_cursor (hm : allowed .move) {x y : Nat} (hx : x < s.grid.cols) (hy : y < s.grid.rows) (w : Bool) :
    Does allowed s (some (s.onGrid fun g => ((g.setCursorX x).setCursorY y).setWrapPending w)) :=
  .of_steps (.single hm (.cursor x y w hx hy))

theorem does_aux (ho : allowed .other) {st : ScreenState} (h : s.state.Aux st) (hquiet : s.state.Quiet → st.Quiet)
    (htitles : s.state.KeepsTitles st) : Does allowed s (some { s with state := st }) :=
  .of_steps (.single ho (.aux st h hquiet htitles))

theorem does_osc (ho : allowed .osc) {st : ScreenState} (h : s.state.Aux st) :
    Does allowed s (some { s with state := st }) :=
  .of_steps (.single ho (.osc st h))

theorem does_modes (hd : allowed .modes) (f : TerminalModes → TerminalModes) : Does allowed s (some (s.setModes f)) :=
  .of_steps (.single hd (.modes (f s.grid.modes)))

theorem Inv.right (h : s.Inv) : sub s.grid.cols 1 = some (s.grid.cols - 1) := sub_eq h.shape.cols_pos

theorem Inv.bottom (h : s.Inv) : sub s.grid.rows 1 = some (s.grid.rows - 1) := sub_eq h.shape.rows_pos

/-! ## Styles -/

/-- `compact_styles` keeps the slots in use. -/
theorem compactStyles_keeps (h : s.Inv) :
    ∃ t, compactStyles s.grid s.state.savedGrid = s.grid.setStyleTable t ∧ t.Wf ∧
      s.grid.styleTable.Keeps (fun id => usesStyle s.allRows id = true) t ∧ s.grid.styleTable.Logs t := by
  unfold compactStyles
  split
  · exact ⟨s.grid.styleTable, rfl, h.table, .refl _ _, .refl _⟩
  refine ⟨_, rfl, h.table.reclaim _, fun id hid hheld => StyleTable.reclaim_keeps _ _ id ?_ hheld,
    StyleTable.reclaim_logs _ _⟩
  have hrows : s.grid.scrollbackRows ++ s.grid.visibleRows ++ SavedGrid.rows s.state.savedGrid = s.allRows := by
    rw [allRows, h.shape.cells_eq, Grid.visibleRows, Grid.scrollbackRows]
  simp only [Bool.decide_or, Bool.or_eq_true, decide_eq_true_eq]
  rw [← hrows] at hid
  exact .inr hid

theorem compactStyles_steps (ho : allowed .other) (h : s.Inv) :
    Steps Effect allowed s (s.onGrid fun g => compactStyles g s.state.savedGrid) := by
  obtain ⟨t, heq, hwf, hkeep, hlogs⟩ := compactStyles_keeps h
  simp only [onGrid, heq]
  exact .single ho (.table t hwf hkeep hlogs)

/-- Interning returns a held slot; only the style table changes. -/
theorem internWithGc_spec (ho : allowed .other) (h : s.Inv) (style : Style) :
    ∃ id t, s.internWithGc style = some (id, s.onGrid (·.setStyleTable t)) ∧
      Steps Effect allowed s (s.onGrid (·.setStyleTable t)) ∧ t.Held id := by
  obtain ⟨id, t, hint, hwf, hheld, hkeep, hfreed, -⟩ := h.table.intern style
  have hstep : Steps Effect allowed s (s.onGrid (·.setStyleTable t)) :=
    .single ho (.table t hwf (fun id _ => hkeep id trivial) (hkeep.logs hfreed))
  unfold internWithGc
  simp only [hint, Option.bind_eq_bind, Option.bind_some]
  split
  · have h₁ := steps_inv hstep h
    obtain ⟨t₂, ht₂, hwf₂, hkeep₂, hlogs₂⟩ := compactStyles_keeps h₁
    have hgc : Steps Effect allowed s (s.onGrid (·.setStyleTable t₂)) :=
      hstep.snoc ho (.table t₂ hwf₂ hkeep₂ hlogs₂)
    obtain ⟨id', t', hint', hwf', hheld', hkeep', hfreed', -⟩ := hwf₂.intern style
    refine ⟨id', t', ?_, hgc.snoc ho (.table t' hwf' (fun id _ => hkeep' id trivial) (hkeep'.logs hfreed')), hheld'⟩
    rw [show compactStyles (s.grid.setStyleTable t) s.state.savedGrid = s.grid.setStyleTable t₂ from ht₂]
    change ((t₂.intern style).bind _) = _
    rw [hint', Option.bind_some]
    rfl
  · exact ⟨id, t, rfl, hstep, hheld⟩

/-- A program that starts by interning a style. -/
theorem does_intern (ho : allowed .other) (h : s.Inv) (style : Style) {f : StyleId × Screen → Option Screen}
    (hf : ∀ id s', s'.Inv → s'.grid.styleTable.Held id → (∃ t, s' = s.onGrid (·.setStyleTable t)) →
      Does allowed s' (f (id, s'))) :
    Does allowed s ((s.internWithGc style).bind f) := by
  obtain ⟨id, t, hint, hsteps, hheld⟩ := internWithGc_spec ho h style
  rw [hint]
  exact Takes.after hsteps (hf id _ (steps_inv hsteps h) hheld ⟨t, rfl⟩)

/-- The blank cell is a space of width 1; only the style table changes. -/
theorem blankCell_inv (h : s.Inv) :
    ∃ id t, s.blankCell = some ({ styleId := id }, s.onGrid (·.setStyleTable t)) ∧ (s.onGrid (·.setStyleTable t)).Inv := by
  obtain ⟨id, t, hintern, hsteps, -⟩ := @internWithGc_spec (fun _ => True) s trivial h { bg := s.state.currentStyle.bg }
  exact ⟨id, t, by rw [blankCell, hintern]; rfl, steps_inv hsteps h⟩

/-- A program that starts with a blank cell in the current background. -/
theorem does_blank (ho : allowed .other) (h : s.Inv) {f : Cell × Screen → Option Screen}
    (hf : ∀ id s', s'.Inv → s'.grid.styleTable.Held id → (∃ t, s' = s.onGrid (·.setStyleTable t)) →
      Does allowed s' (f ({ c := ' ', styleId := id, width := 1 }, s'))) :
    Does allowed s (s.blankCell.bind f) := by
  have hblank : s.blankCell.bind f = (s.internWithGc { bg := s.state.currentStyle.bg }).bind fun p =>
      f ({ c := ' ', styleId := p.1, width := 1 }, p.2) := by
    rw [blankCell]
    cases s.internWithGc { bg := s.state.currentStyle.bg } <;> rfl
  rw [hblank]
  exact does_intern ho h _ hf

/-! ## Painting -/

/-- One row edited. -/
theorem putRow_steps (ho : allowed .other) (h : s.Inv) {id : StyleId} (hid : s.grid.styleTable.Held id) {y : Nat}
    {row row' : Row} (hrow : s.grid.HasRow y row) (hedit : row.Edit id row') :
    Steps Effect allowed s (s.onGrid (·.putRow y row')) := by
  have hput := h.shape.putRow y row'
  simp only [onGrid, hput]
  refine .single ho (.paint id _ hid (by rw [List.length_set, h.shape.visible_length]) fun r hr => ?_)
  rcases List.mem_or_eq_of_mem_set hr with hr | rfl
  · exact Edits.refl id _ r hr
  · exact ⟨row, hrow.mem, hedit⟩

/-- One row overwritten without regard to its pairs. -/
theorem orphan_steps (hk : allowed .orphan) (h : s.Inv) {id : StyleId} (hid : s.grid.styleTable.Held id) {y : Nat}
    {row row' : Row} (hrow : s.grid.HasRow y row) (hover : row.Rewrite id row') :
    Steps Effect allowed s (s.onGrid (·.putRow y row')) := by
  have hput := h.shape.putRow y row'
  simp only [onGrid, hput]
  refine .single hk (.orphan id _ hid (by rw [List.length_set, h.shape.visible_length]) fun r hr => ?_)
  rcases List.mem_or_eq_of_mem_set hr with hr | rfl
  · exact ⟨r, hr, .refl id r⟩
  · exact ⟨row, hrow.mem, hover⟩

/-- One row marked. -/
theorem control_steps (hk : allowed .control) (h : s.Inv) {y : Nat} {row row' : Row} (hrow : s.grid.HasRow y row)
    (hmark : row.Marked row') : Steps Effect allowed s (s.onGrid (·.putRow y row')) := by
  have hput := h.shape.putRow y row'
  simp only [onGrid, hput]
  refine .single hk (.control _ (by rw [List.length_set, h.shape.visible_length]) fun r hr => ?_)
  rcases List.mem_or_eq_of_mem_set hr with hr | rfl
  · exact ⟨r, hr, .refl r⟩
  · exact ⟨row, hrow.mem, hmark⟩

/-- Rows moved, with a blank one inserted. -/
theorem rotated_edits (h : s.Inv) (src dst : Nat) (id : StyleId) :
    Edits id s.grid.visibleRows ((s.grid.visibleRows.eraseIdx src).insertIdx dst
      (s.grid.newBlankRow { c := ' ', styleId := id, width := 1 })) := by
  intro r hr
  rcases Grid.mem_rotated hr with hr | rfl
  · exact Edits.refl id _ r hr
  · obtain ⟨row, hrow, hlen⟩ := h.shape.hasRow h.shape.rows_pos
    refine ⟨row, hrow.mem, ?_⟩
    rw [Grid.newBlankRow, ← hlen]
    exact .blank id row _ (fresh_blank id) (single_blank id)

theorem rotated_steps (ho : allowed .other) (h : s.Inv) {id : StyleId} (hid : s.grid.styleTable.Held id) {src dst : Nat}
    (hsrc : src < s.grid.rows) (hdst : dst < s.grid.rows) :
    Steps Effect allowed s (s.onGrid (·.rotated src dst { c := ' ', styleId := id, width := 1 })) :=
  .single ho (.paint id _ hid (h.shape.rotated_length hsrc hdst _) (rotated_edits h src dst id))

/-! ## Scrolling -/

theorem scrollDown_does (ho : allowed .other) (h : s.Inv) : Does allowed s s.scrollDown := by
  apply does_blank ho h
  intro id s h hid _
  have hlt := h.shape.region_lt
  have hle := h.shape.region_le
  simp only [h.shape.scrollDown, Option.bind_eq_bind, Option.bind_some]
  exact .of_steps (rotated_steps ho h hid hlt (Nat.lt_of_le_of_lt hle hlt))

/-- Only the main screen with its scroll region at the top displaces a row. -/
theorem displacedRow_of_not (h : ¬ (s.state.inAltScreen = false ∧ s.grid.scrollTop = 0)) : s.displacedRow = [] := by
  rw [displacedRow, if_neg (by simpa using h)]

theorem scrollUp_does (ho : allowed .other) (h : s.Inv) : Does allowed s s.scrollUp := by
  apply does_blank ho h
  intro id s h hid _
  have hlt := h.shape.region_lt
  have hle := h.shape.region_le
  have hrot : Steps Effect allowed s _ := rotated_steps ho h hid (Nat.lt_of_le_of_lt hle hlt) hlt
  by_cases hmain : s.state.inAltScreen = false ∧ s.grid.scrollTop = 0
  · obtain ⟨halt, htop⟩ := hmain
    obtain ⟨top, hrow, -⟩ := h.shape.hasRow h.shape.rows_pos
    have hdisp : s.displacedRow = [top] := by
      rw [displacedRow, if_pos ⟨by simp [halt], htop⟩, ← Nat.add_zero s.grid.scrollbackLen, hrow.2]
      rfl
    rcases Nat.eq_zero_or_pos s.grid.scrollbackLimit with hzero | hlimit
    · simp only [h.shape.scrollUp_drop s.state.inAltScreen (by omega), hdisp, Option.bind_eq_bind,
        Option.bind_some]
      exact .of_steps (hrot.snoc ho (.forget top halt hzero))
    · obtain ⟨vis, hvis⟩ : ∃ vis, s.grid.visibleRows = top :: vis := by
        have := hrow.getElem?
        cases hv : s.grid.visibleRows with
        | nil => rw [hv] at this; simp at this
        | cons r vis => rw [hv] at this; simp only [List.getElem?_cons_zero, Option.some.injEq] at this; exact ⟨vis, by rw [this]⟩
      have hlen := h.shape.visible_length
      have hedit := rotated_edits h 0 s.grid.scrollBottom id
      simp only [hvis, List.eraseIdx_cons_zero] at hedit
      rw [hvis, List.length_cons] at hlen
      simp only [halt, h.shape.scrollUp_capture hvis htop hlimit, hdisp, Option.bind_eq_bind, Option.bind_some]
      refine .of_steps (.single ho (.capture id top _ halt hlimit hid ?_ (by rw [hvis]; rfl) ?_))
      · rw [List.length_insertIdx_of_le_length (by omega)]
        omega
      · rw [hvis]
        exact hedit
  · have hno : ¬ (¬ s.state.inAltScreen ∧ s.grid.scrollTop = 0 ∧ s.grid.scrollbackLimit > 0) :=
      fun ⟨halt, htop, _⟩ => hmain ⟨by simpa using halt, htop⟩
    simp only [h.shape.scrollUp_drop s.state.inAltScreen hno, displacedRow_of_not hmain, List.append_nil,
      Option.bind_eq_bind, Option.bind_some]
    exact .of_steps hrot

theorem advanceLine_does (ho : allowed .other) (hm : allowed .move) (h : s.Inv) : Does allowed s s.advanceLine := by
  have hy := h.shape.cursor_y
  have hrows := h.shape.rows_le
  rw [advanceLine]
  split
  · exact scrollUp_does ho h
  · simp only [h.bottom, Option.bind_eq_bind, Option.bind_some]
    split
    next hlast =>
      rw [add16_eq (by omega)]
      exact does_cursor hm h.shape.cursor_x (show s.grid.cursorY + 1 < s.grid.rows by omega) s.grid.wrapPending
    next => exact .stay s

/-- The cursor moved before a line feed. -/
theorem advanceLine_after (ho : allowed .other) (hm : allowed .move) (h : s.Inv) {x : Nat} (hx : x < s.grid.cols) (w : Bool) :
    Does allowed s (s.onGrid fun g => (g.setCursorX x).setWrapPending w).advanceLine := by
  have hmove : Steps Effect allowed s (s.onGrid fun g => (g.setCursorX x).setWrapPending w) :=
    .single hm (.cursor x s.grid.cursorY w hx h.shape.cursor_y)
  exact Takes.after hmove (advanceLine_does ho hm (steps_inv hmove h))

/-! ## The saved cursor -/

/-- The screen with the saved cursor. -/
def cursorBack (s : Screen) : Screen :=
  match s.state.savedCursorState with
  | some saved =>
    { s with
      grid := (((s.grid.setWrapPending saved.wrapPending).setCursorX (min saved.x (s.grid.cols - 1))).setCursorY
        (min saved.y (s.grid.rows - 1))).setModes (restoredModes saved s.grid.modes)
      state := { s.state with currentStyle := saved.style } }
  | none => s

theorem cursorBack_none (h : s.state.savedCursorState = none) : s.cursorBack = s := by
  simp only [cursorBack, h]

theorem cursorBack_some {saved : SavedCursor} (h : s.state.savedCursorState = some saved) :
    s.cursorBack = { s with
      grid := (((s.grid.setWrapPending saved.wrapPending).setCursorX (min saved.x (s.grid.cols - 1))).setCursorY
        (min saved.y (s.grid.rows - 1))).setModes (restoredModes saved s.grid.modes)
      state := { s.state with currentStyle := saved.style } } := by
  simp only [cursorBack, h]

theorem restoreCursor_eq (hcols : 0 < s.grid.cols) (hrows : 0 < s.grid.rows) :
    s.restoreCursor = some s.cursorBack := by
  unfold restoreCursor cursorBack
  cases s.state.savedCursorState with
  | none => rfl
  | some saved =>
    simp only [sub_eq (show 1 ≤ s.grid.cols from hcols), sub_eq (show 1 ≤ s.grid.rows from hrows), Option.bind_eq_bind,
      Option.bind_some]
    rfl

theorem cursorBack_steps (ho : allowed .other) (hm : allowed .move) (hd : allowed .modes) (h : s.Inv) : Steps Effect allowed s s.cursorBack := by
  unfold cursorBack
  split
  next saved _ =>
    have hx : min saved.x (s.grid.cols - 1) < s.grid.cols := by have := h.shape.cols_pos; omega
    have hy : min saved.y (s.grid.rows - 1) < s.grid.rows := by have := h.shape.rows_pos; omega
    refine ((Steps.single hm (.cursor _ _ saved.wrapPending hx hy)).snoc hd
      (.modes (restoredModes saved s.grid.modes))).snoc ho (.aux { s.state with currentStyle := saved.style } ?_ ?_ ?_)
    · exact ⟨rfl, rfl, rfl, rfl, rfl, List.prefix_rfl, id⟩
    · exact fun hq => { hq with }
    · exact .of_eq rfl rfl
  · exact .refl s

theorem restoreCursor_does (ho : allowed .other) (hm : allowed .move) (hd : allowed .modes) (h : s.Inv) : Does allowed s s.restoreCursor := by
  rw [restoreCursor_eq h.shape.cols_pos h.shape.rows_pos]
  exact .of_steps (cursorBack_steps ho hm hd h)

theorem saveCursor_does (hs : allowed (.save s.cursorState)) : Does allowed s (some s.saveCursor) :=
  .of_steps (.single hs .save)

/-! ## The alternate screen -/

theorem switchToAlt_eq (h : s.Inv) :
    s.switchToAlt = some { s with
      grid := s.grid.switched
      state := { s.state with
        savedScrollRegion := some (s.grid.scrollTop, s.grid.scrollBottom)
        savedGrid := some { visibleCells := s.grid.visibleRows, scrollbackLimit := s.grid.scrollbackLimit }
        savedModes := some s.grid.modes
        inAltScreen := true } } := by
  simp only [switchToAlt, h.shape.drainVisible, h.shape.fillVisibleBlank, Option.bind_eq_bind, Option.bind_some]
  rw [Grid.resetScrollRegion_eq]
  · rfl
  · exact h.shape.rows_pos

theorem enterAltScreen_does (h : s.Inv) (save : Bool)
    (hs : s.state.inAltScreen = false → save = true → allowed (.save s.cursorState)) (he : allowed .enter) :
    Does allowed s (s.enterAltScreen save) := by
  unfold enterAltScreen
  cases halt : s.state.inAltScreen with
  | true => exact .stay s
  | false =>
    cases save with
    | true =>
      have hsave : Steps Effect allowed s s.saveCursor := .single (hs halt rfl) .save
      have h' := steps_inv hsave h
      simp only [Bool.false_eq_true, ↓reduceIte, switchToAlt_eq h']
      exact .of_steps (hsave.snoc he (.enter halt))
    | false =>
      simp only [Bool.false_eq_true, ↓reduceIte, switchToAlt_eq h]
      exact .of_steps (.single he (.enter halt))

/-- Fitting every row from `lo` on. -/
theorem iterFrom_fitRow (vis : List Row) (g : Grid) (pre : List Row) (lo : Nat) (hcells : g.cells = pre ++ vis)
    (hpre : pre.length = g.scrollbackLen + lo) (hrows : lo + vis.length ≤ g.rows) :
    iterFrom (fun y (g : Grid) => g.visibleRowMut y (Grid.fitRow g.cols)) lo vis.length g =
      some { g with cells := pre ++ vis.map (Row.fitted g.cols) } := by
  induction vis generalizing g pre lo with
  | nil =>
    simp only [List.length_nil, iterFrom_zero, List.map_nil, List.append_nil] at hcells ⊢
    rw [← hcells]
  | cons row vis ih =>
    have hrow : g.HasRow lo row := by
      refine ⟨by rw [List.length_cons] at hrows; omega, ?_⟩
      rw [hcells, ← hpre, List.getElem?_append_right (Nat.le_refl _), Nat.sub_self]
      rfl
    have hput : (g.putRow lo (row.fitted g.cols)).cells = (pre ++ [row.fitted g.cols]) ++ vis := by
      rw [Grid.putRow, hcells, ← hpre, List.set_append_right _ _ (Nat.le_refl _), Nat.sub_self]
      simp
    rw [List.length_cons, iterFrom_succ, hrow.visibleRowMut (row.fitRow_eq g.cols), Option.bind_some,
      ih (g.putRow lo (row.fitted g.cols)) (pre ++ [row.fitted g.cols]) (lo + 1) hput]
    · simp [Grid.putRow]
    · rw [List.length_append, hpre]
      rfl
    · rw [List.length_cons] at hrows
      change lo + 1 + vis.length ≤ g.rows
      omega

/-- The screen with the saved rows, fitted to its dimensions. -/
def rowsBack (s : Screen) (saved : SavedGrid) : Screen :=
  { s with
    grid := { s.grid with
      cells := s.grid.scrollbackRows ++ fitRows s.grid.cols s.grid.rows saved.visibleCells
      scrollbackLimit := saved.scrollbackLimit }
    state := { s.state with savedGrid := none } }

theorem restoreRows_eq (h : s.grid.Shape) {saved : SavedGrid} (hsaved : s.state.savedGrid = some saved) :
    s.restoreRows = some (s.rowsBack saved) := by
  have hsb := h.scrollback_length
  obtain ⟨vis, limit⟩ := saved
  let fitted := vis.take s.grid.rows ++ List.replicate (s.grid.rows - vis.length) (Row.new s.grid.cols)
  have hfitted : fitted.length = s.grid.rows := by simp [fitted]; omega
  have hfit : ((s.grid.replaceVisible vis).setScrollbackLimit limit).fitCells = s.grid.scrollbackRows ++ fitted := by
    change (s.grid.scrollbackRows ++ vis).take (s.grid.scrollbackLen + s.grid.rows) ++ List.replicate
      (s.grid.scrollbackLen + s.grid.rows - (s.grid.scrollbackRows ++ vis).length) (Row.new s.grid.cols) = _
    rw [← hsb, List.take_length_add_append, List.length_append, List.append_assoc, Nat.add_sub_add_left]
  have hlen : (s.grid.scrollbackRows ++ fitted).length = s.grid.scrollbackLen + s.grid.rows := by
    rw [List.length_append, hsb, hfitted]
  have hiter := iterFrom_fitRow fitted
    { s.grid with cells := s.grid.scrollbackRows ++ fitted, scrollbackLimit := limit } s.grid.scrollbackRows 0 rfl hsb
    (by simp [hfitted])
  simp only [restoreRows, hsaved, Grid.adjustVisibleToFit, hfit, Option.bind_eq_bind]
  rw [Grid.checkInvariants_eq]
  · have hcount : (s.grid.scrollbackRows ++ fitted).length - s.grid.scrollbackLen = fitted.length := by omega
    simp only [Option.bind_some, Grid.visibleRowCount, Grid.setScrollbackLimit, Grid.replaceVisible, hcount] at hiter ⊢
    rw [hiter]
    rfl
  · exact h.pending_le
  · exact hlen

theorem restoreModes_eq {modes : TerminalModes} (h : s.state.savedModes = some modes) :
    s.restoreModes = { s with grid := s.grid.setModes modes, state := { s.state with savedModes := none } } := by
  simp only [restoreModes, h]

/-- The screen with the scroll region saved by the alternate screen. -/
def regionBack (s : Screen) (region : Nat × Nat) : Screen :=
  { s with
    grid := s.grid.setScrollRegion (min region.1 (s.grid.rows - 1))
      (max (min region.2 (s.grid.rows - 1)) (min region.1 (s.grid.rows - 1)))
    state := { s.state with savedScrollRegion := none } }

theorem restoreRegion_eq {region : Nat × Nat} (h : s.state.savedScrollRegion = some region) :
    s.restoreRegion = some (s.regionBack region) := by
  obtain ⟨top, bottom⟩ := region
  simp only [restoreRegion, h]
  rfl

/-- The saved cursor does not touch the scroll region. -/
theorem cursorBack_regionBack (s : Screen) (region : Nat × Nat) :
    (s.regionBack region).cursorBack = s.cursorBack.regionBack region := by
  cases hsaved : s.state.savedCursorState with
  | none => rw [cursorBack_none hsaved, cursorBack_none (show (s.regionBack region).state.savedCursorState = none from hsaved)]
  | some saved =>
    rw [cursorBack_some hsaved, cursorBack_some (show (s.regionBack region).state.savedCursorState = some saved from hsaved)]
    rfl

theorem cursorBack_savedScrollRegion (s : Screen) : s.cursorBack.state.savedScrollRegion = s.state.savedScrollRegion := by
  unfold cursorBack
  cases s.state.savedCursorState <;> rfl

theorem cursorBack_savedGrid (s : Screen) : s.cursorBack.state.savedGrid = s.state.savedGrid := by
  unfold cursorBack
  cases s.state.savedCursorState <;> rfl

/-- The main screen shown again, without the saved cursor. -/
def switchedBack (s : Screen) (saved : SavedGrid) (modes : TerminalModes) (region : Nat × Nat) : Screen :=
  { s with
    grid := s.grid.switchedBack saved modes region
    state := { s.state with inAltScreen := false, savedGrid := none, savedModes := none, savedScrollRegion := none } }

/-- `exit_alt_screen` up to the compaction at its end. -/
theorem exitAltScreen_eq (h : s.Inv) {saved : SavedGrid} {modes : TerminalModes} {region : Nat × Nat}
    (halt : s.state.inAltScreen = true) (hgrid : s.state.savedGrid = some saved) (hmodes : s.state.savedModes = some modes)
    (hregion : s.state.savedScrollRegion = some region) (restore : Bool) :
    s.exitAltScreen restore = some ((if restore then (s.switchedBack saved modes region).cursorBack
      else s.switchedBack saved modes region).onGrid fun g => compactStyles g none) := by
  let s₀ : Screen := { s with state := { s.state with inAltScreen := false } }
  have hrows : s₀.restoreRows = some (s₀.rowsBack saved) :=
    restoreRows_eq (show s₀.grid.Shape from h.shape) hgrid
  have hmodes₀ : (s₀.rowsBack saved).restoreModes = _ := restoreModes_eq hmodes
  let s₁ : Screen := (s₀.rowsBack saved).restoreModes
  have hback : s₁.regionBack region = s.switchedBack saved modes region := by
    simp only [s₁, hmodes₀]
    rfl
  have hregion₁ : s₁.state.savedScrollRegion = some region := by
    simp only [s₁, hmodes₀]
    exact hregion
  have hcursor : s₁.restoreCursor = some s₁.cursorBack := restoreCursor_eq (by
    simp only [s₁, hmodes₀]
    exact h.shape.cols_pos) (by
    simp only [s₁, hmodes₀]
    exact h.shape.rows_pos)
  have hstart : s.exitAltScreen restore = (if restore then s₁.restoreCursor else some s₁).bind fun s₂ =>
      s₂.restoreRegion.bind fun s₃ => some (s₃.onGrid fun g => compactStyles g none) := by
    rw [exitAltScreen, if_neg (by simp [halt])]
    simp only [Option.bind_eq_bind]
    rw [hrows, Option.bind_some]
    cases restore <;> rfl
  rw [hstart, hcursor]
  cases restore with
  | true =>
    simp only [↓reduceIte, Option.bind_some]
    rw [restoreRegion_eq ((cursorBack_savedScrollRegion s₁).trans hregion₁), Option.bind_some, ← cursorBack_regionBack, hback]
  | false =>
    simp only [Bool.false_eq_true, ↓reduceIte, Option.bind_some]
    rw [restoreRegion_eq hregion₁, Option.bind_some, hback]

theorem exitAltScreen_does (ho : allowed .other) (hm : allowed .move) (hd : allowed .modes) (h : s.Inv) (restore : Bool)
    (he : allowed .exit) :
    Does allowed s (s.exitAltScreen restore) := by
  cases halt : s.state.inAltScreen with
  | false =>
    rw [exitAltScreen, if_pos (by simp [halt])]
    exact .stay s
  | true =>
    obtain ⟨saved, hgrid⟩ := Option.isSome_iff_exists.1 (h.savedGrid.1 halt)
    obtain ⟨modes, hmodes⟩ := Option.isSome_iff_exists.1 (h.savedModes.1 halt)
    obtain ⟨region, hregion⟩ := Option.isSome_iff_exists.1 (h.savedRegion.1 halt)
    rw [exitAltScreen_eq h halt hgrid hmodes hregion]
    have hexit : Steps Effect allowed s (s.switchedBack saved modes region) :=
      .single he (.exit saved modes region hgrid hmodes hregion)
    have h₁ := steps_inv hexit h
    have hcur : Steps Effect allowed _ _ := cursorBack_steps ho hm hd h₁
    have h₂ := steps_inv hcur h₁
    have hnone : (s.switchedBack saved modes region).cursorBack.state.savedGrid = none := cursorBack_savedGrid _
    have hgc : Steps Effect allowed _ _ := compactStyles_steps ho h₂
    rw [hnone] at hgc
    cases restore with
    | true => exact .of_steps ((hexit.trans hcur).trans hgc)
    | false => exact .of_steps (hexit.trans (compactStyles_steps ho h₁))

/-! ## Cursor movement -/

theorem lowerStop_spec (h : s.Inv) : ∃ b, lowerStop s.grid = some b ∧ b < s.grid.rows := by
  have hrows := h.shape.rows_pos
  unfold lowerStop
  split
  · exact ⟨_, rfl, h.shape.region_lt⟩
  · exact ⟨_, h.bottom, by omega⟩

theorem upperStop_lt (h : s.Inv) : upperStop s.grid < s.grid.rows := by
  have h₁ := h.shape.region_le
  have h₂ := h.shape.region_lt
  unfold upperStop
  split <;> omega

theorem addressedRow_spec (h : s.Inv) (row : Nat) : ∃ y, addressedRow s.grid row = some y ∧ y < s.grid.rows := by
  have h₁ := h.shape.region_lt
  have h₂ := h.shape.rows_pos
  unfold addressedRow
  split
  · exact ⟨_, rfl, by omega⟩
  · simp only [h.bottom, Option.bind_eq_bind, Option.bind_some]
    exact ⟨_, rfl, by omega⟩

theorem csiCursorUp_does (hm : allowed .move) (h : s.Inv) (n : Nat) : Does allowed s (some (s.csiCursorUp n)) := by
  have hy := h.shape.cursor_y
  have hup := upperStop_lt h
  exact does_cursor hm h.shape.cursor_x (show max (s.grid.cursorY - n) (upperStop s.grid) < s.grid.rows by omega) false

theorem csiCursorDown_does (hm : allowed .move) (h : s.Inv) (n : Nat) : Does allowed s (s.csiCursorDown n) := by
  obtain ⟨b, hb, hlt⟩ := lowerStop_spec h
  rw [csiCursorDown, hb]
  exact does_cursor hm h.shape.cursor_x (show min (satAdd16 s.grid.cursorY n) b < s.grid.rows by omega) false

theorem csiCursorForward_does (hm : allowed .move) (h : s.Inv) (n : Nat) : Does allowed s (s.csiCursorForward n) := by
  have hcols := h.shape.cols_pos
  rw [csiCursorForward, h.right]
  exact does_cursor hm (show min (satAdd16 s.grid.cursorX n) (s.grid.cols - 1) < s.grid.cols by omega)
    h.shape.cursor_y false

theorem csiCursorBack_does (hm : allowed .move) (h : s.Inv) (n : Nat) : Does allowed s (some (s.csiCursorBack n)) := by
  have hx := h.shape.cursor_x
  exact does_cursor hm (show s.grid.cursorX - n < s.grid.cols by omega) h.shape.cursor_y false

theorem csiCursorNextLine_does (hm : allowed .move) (h : s.Inv) (n : Nat) : Does allowed s (s.csiCursorNextLine n) := by
  obtain ⟨b, hb, hlt⟩ := lowerStop_spec h
  rw [csiCursorNextLine, hb]
  exact does_cursor hm h.shape.cols_pos (show min (satAdd16 s.grid.cursorY n) b < s.grid.rows by omega) false

theorem csiCursorPrevLine_does (hm : allowed .move) (h : s.Inv) (n : Nat) :
    Does allowed s (some (s.csiCursorPrevLine n)) := by
  have hy := h.shape.cursor_y
  have hup := upperStop_lt h
  exact does_cursor hm h.shape.cols_pos (show max (s.grid.cursorY - n) (upperStop s.grid) < s.grid.rows by omega) false

theorem csiCursorHorizontalAbsolute_does (hm : allowed .move) (h : s.Inv) (col : Nat) :
    Does allowed s (s.csiCursorHorizontalAbsolute col) := by
  have hcols := h.shape.cols_pos
  rw [csiCursorHorizontalAbsolute, h.right]
  exact does_cursor hm (show min (col - 1) (s.grid.cols - 1) < s.grid.cols by omega) h.shape.cursor_y false

theorem csiCursorPosition_does (hm : allowed .move) (h : s.Inv) (row col : Nat) :
    Does allowed s (s.csiCursorPosition row col) := by
  have hcols := h.shape.cols_pos
  obtain ⟨y, hy, hlt⟩ := addressedRow_spec h row
  rw [csiCursorPosition, hy]
  simp only [h.right, Option.bind_eq_bind, Option.bind_some]
  exact does_cursor hm (show min (col - 1) (s.grid.cols - 1) < s.grid.cols by omega) hlt false

theorem csiLinePositionAbsolute_does (hm : allowed .move) (h : s.Inv) (row : Nat) :
    Does allowed s (s.csiLinePositionAbsolute row) := by
  obtain ⟨y, hy, hlt⟩ := addressedRow_spec h row
  rw [csiLinePositionAbsolute, hy]
  exact does_cursor hm h.shape.cursor_x hlt false

theorem nextTabStop_spec (h : s.Inv) (col : Nat) : ∃ x, s.grid.nextTabStop col = some x ∧ x < s.grid.cols := by
  have hcols := h.shape.cols_pos
  unfold Grid.nextTabStop
  split
  next i hi =>
    have hlt := (List.findIdx?_eq_some_iff_findIdx_eq.1 hi).1
    rw [List.length_drop, h.shape.tabs_len] at hlt
    exact ⟨_, rfl, by omega⟩
  next => exact ⟨_, h.right, by omega⟩

theorem csiSetScrollingRegion_does (ho : allowed .other) (hm : allowed .move) (h : s.Inv) (top bottom : Nat) :
    Does allowed s (s.csiSetScrollingRegion top bottom) := by
  have hrows := h.shape.rows_pos
  rw [csiSetScrollingRegion, h.bottom]
  simp only [Option.bind_eq_bind, Option.bind_some]
  split
  next hle =>
    have hlt : min (bottom - 1) (s.grid.rows - 1) < s.grid.rows := by omega
    have hreg : Steps Effect allowed s (s.onGrid (·.setScrollRegion (top - 1) (min (bottom - 1) (s.grid.rows - 1)))) :=
      .single ho (.region _ _ hle hlt)
    have hy : (if s.grid.modes.originMode then top - 1 else 0) < s.grid.rows := by split <;> omega
    exact Takes.after hreg (.of_steps (.single hm (.cursor 0 _ false h.shape.cols_pos hy)))
  next => exact .stay s

/-! ## Erasing -/

/-- `erase_cells` with a held blank. -/
theorem eraseCells_does (ho : allowed .other) (h : s.Inv) {id : StyleId} (hid : s.grid.styleTable.Held id) {y : Nat}
    (hy : y < s.grid.rows) (lo hi : Nat) :
    ∃ g, s.grid.eraseCells y lo hi { c := ' ', styleId := id, width := 1 } = some g ∧
      Steps Effect allowed s (s.onGrid fun _ => g) ∧ g.styleTable = s.grid.styleTable := by
  obtain ⟨row, hrow, hlen⟩ := h.shape.hasRow hy
  rcases Nat.lt_or_ge (min lo s.grid.cols) (min hi s.grid.cols) with hlt | hge
  · have hcut : s.grid.eraseCells y lo hi { c := ' ', styleId := id, width := 1 } =
        s.grid.eraseCells y (min lo s.grid.cols) (min hi s.grid.cols) { c := ' ', styleId := id, width := 1 } := by
      unfold Grid.eraseCells
      simp only [Nat.min_assoc, Nat.min_self]
    have hmarks := row.erased_marksFrom (min lo s.grid.cols) (min hi s.grid.cols) { c := ' ', styleId := id, width := 1 }
    refine ⟨_, hcut.trans (hrow.eraseCells hlen hlt (Nat.min_le_right _ _) _),
      putRow_steps ho h hid hrow ⟨⟨?_, hmarks.bounded, hmarks.plain⟩, fun hp => ?_⟩, rfl⟩
    · rw [Row.erased_cells]
      exact eraseRange_over (fresh_default id) (fresh_blank id) hlt (by omega)
    · rw [Row.erased_cells]
      exact hp.eraseRange (single_blank id) hlt (by omega)
  · refine ⟨s.grid, ?_, .refl s, rfl⟩
    unfold Grid.eraseCells
    rw [if_neg (by omega)]
    simp only [if_pos hge]

/-- `erase_rows` with a held blank. -/
theorem eraseRows_does (ho : allowed .other) (h : s.Inv) {id : StyleId} (hid : s.grid.styleTable.Held id) {lo hi : Nat}
    (hlo : lo ≤ hi) (hhi : hi ≤ s.grid.rows) :
    ∃ g, s.grid.eraseRows lo hi { c := ' ', styleId := id, width := 1 } = some g ∧
      Steps Effect allowed s (s.onGrid fun _ => g) ∧ g.styleTable = s.grid.styleTable := by
  refine ⟨_, h.shape.eraseRows hlo hhi _, .single ho (.paint id _ hid ?_ fun r hr => ?_), rfl⟩
  · rw [fill_length _ (by rw [h.shape.visible_length]; omega), h.shape.visible_length]
  · rcases mem_fill hr with hr | rfl
    · exact Edits.refl id _ r hr
    · obtain ⟨row, hrow, hlen⟩ := h.shape.hasRow h.shape.rows_pos
      refine ⟨row, hrow.mem, ?_⟩
      rw [← hlen]
      exact .blank id row _ (fresh_blank id) (single_blank id)

theorem pushPassthrough_currentStyle (st : ScreenState) (data : List UInt8) :
    (st.pushPassthrough data).currentStyle = st.currentStyle := by
  unfold ScreenState.pushPassthrough
  split <;> rfl

theorem pushPassthrough_aux (st : ScreenState) (data : List UInt8) : st.Aux (st.pushPassthrough data) := by
  unfold ScreenState.pushPassthrough
  split
  · exact ⟨rfl, rfl, rfl, rfl, rfl, List.prefix_append .., id⟩
  · exact ⟨rfl, rfl, rfl, rfl, rfl, List.prefix_rfl, id⟩

/-- A sequence other than an OSC sequence is short. -/
theorem pushPassthrough_titles (st : ScreenState) (data : List UInt8) : st.KeepsTitles (st.pushPassthrough data) := by
  unfold ScreenState.pushPassthrough
  split <;> exact .of_eq rfl rfl

theorem pushPassthrough_quiet {st : ScreenState} (h : st.Quiet) {data : List UInt8} (hdata : data.length ≤ 4) :
    (st.pushPassthrough data).Quiet := by
  unfold ScreenState.pushPassthrough
  split
  next hroom =>
    refine { h with passthrough_length := ?_, passthrough := fun d hd => ?_ }
    · rw [List.length_append]
      exact hroom
    · rcases List.mem_append.1 hd with hd | hd
      · exact h.passthrough d hd
      · rw [List.mem_singleton.1 hd]
        exact hdata
  next => exact h

theorem csiEraseDisplay_does (ho : allowed .other) (h : s.Inv) (mode : Nat) (hc : mode = 3 → allowed .clear) :
    Does allowed s (s.csiEraseDisplay mode) := by
  apply does_blank ho h
  intro id s h hid _
  have hy := h.shape.cursor_y
  simp only [Option.bind_eq_bind]
  split
  · obtain ⟨g₁, hg₁, hs₁, ht₁⟩ := eraseCells_does ho h hid hy s.grid.cursorX s.grid.cols
    have h₁ := steps_inv hs₁ h
    have hy₁ : g₁.cursorY < g₁.rows := h₁.shape.cursor_y
    obtain ⟨g₂, hg₂, hs₂, -⟩ := eraseRows_does ho h₁ (ht₁ ▸ hid) (show g₁.cursorY + 1 ≤ g₁.rows from hy₁)
      (Nat.le_refl _)
    rw [hg₁, Option.bind_some, show g₁.eraseRows (g₁.cursorY + 1) g₁.rows _ = some g₂ from hg₂]
    exact .of_steps (hs₁.trans hs₂)
  · obtain ⟨g₁, hg₁, hs₁, ht₁⟩ := eraseRows_does ho h hid (Nat.zero_le _) (Nat.le_of_lt hy)
    have h₁ := steps_inv hs₁ h
    obtain ⟨g₂, hg₂, hs₂, -⟩ := eraseCells_does ho h₁ (ht₁ ▸ hid) h₁.shape.cursor_y 0 (min (g₁.cursorX + 1) g₁.cols)
    rw [hg₁, Option.bind_some, show g₁.eraseCells g₁.cursorY 0 _ _ = some g₂ from hg₂]
    exact .of_steps (hs₁.trans hs₂)
  · obtain ⟨g, hg, hs, -⟩ := eraseRows_does ho h hid (Nat.zero_le _) (Nat.le_refl _)
    rw [hg]
    exact .of_steps hs
  · rw [h.shape.clearScrollback]
    exact .of_steps ((Steps.single (hc rfl) .clear).snoc ho (.aux _ (pushPassthrough_aux _ _)
      (fun hq => pushPassthrough_quiet hq (by decide)) (pushPassthrough_titles _ _)))
  · exact .stay s

theorem csiEraseLine_does (ho : allowed .other) (h : s.Inv) (mode : Nat) : Does allowed s (s.csiEraseLine mode) := by
  apply does_blank ho h
  intro id s h hid _
  have herase : ∀ lo hi, Does allowed s (do
      let g ← s.grid.eraseCells s.grid.cursorY lo hi { c := ' ', styleId := id, width := 1 }
      return { s with grid := g }) := by
    intro lo hi
    obtain ⟨g, hg, hs, -⟩ := eraseCells_does ho h hid h.shape.cursor_y lo hi
    rw [hg]
    exact .of_steps hs
  dsimp only
  split
  · exact herase _ _
  · exact herase _ _
  · exact herase _ _
  · exact .stay s

theorem csiEraseCharacter_does (ho : allowed .other) (h : s.Inv) (n : Nat) : Does allowed s (s.csiEraseCharacter n) := by
  apply does_blank ho h
  intro id s h hid _
  obtain ⟨g, hg, hs, -⟩ := eraseCells_does ho h hid h.shape.cursor_y s.grid.cursorX
    (min (s.grid.cursorX + n) s.grid.cols)
  simp only [if_pos h.shape.cursor_y, hg]
  exact .of_steps hs

/-! ## Deleting and inserting characters -/

/-- One deletion: the marks of later columns move left with their characters. -/
theorem deleteCell_eq {x : Nat} {row : Row} (hx : x < row.cells.length) (blank : Cell) :
    ∃ r, deleteCell x blank row = some r ∧ r.cells = row.cells.eraseIdx x ++ [blank] ∧ row.MarksFrom r ∧
      ∀ c, r.marks c = if c < x then row.marks c else row.marks (c + 1) := by
  let f (c : Nat) : Nat := if c > x then c - 1 else c
  refine ⟨{ (row.retain (· ≠ x)).shiftMarks f with cells := row.cells.eraseIdx x ++ [blank] }, ?_, rfl,
    (row.retain_marksFrom (· ≠ x)).trans (.of_shift f rfl), fun c => ?_⟩
  · rw [deleteCell, Row.remove, ensure_eq (by simpa [Row.len, Row.retain, Row.shiftMarks] using hx)]
    rfl
  have hne : ∀ e ∈ (row.retain (· ≠ x)).combining, e.1 ≠ x := fun e he => by simpa using (List.mem_filter.1 he).2
  change ((row.retain (· ≠ x)).shiftMarks f).marks c = _
  split
  next hlt =>
    rw [Row.marks_shiftMarks (c := c), Row.marks_retain, if_pos (by simp; omega)]
    intro e he
    have := hne e he
    change (if e.1 > x then e.1 - 1 else e.1) = c ↔ e.1 = c
    split <;> omega
  next hge =>
    rw [Row.marks_shiftMarks (c := c + 1), Row.marks_retain, if_pos (by simp; omega)]
    intro e he
    have := hne e he
    change (if e.1 > x then e.1 - 1 else e.1) = c ↔ e.1 = c + 1
    split <;> omega

theorem iter_deleteCell (x : Nat) (blank : Cell) (n : Nat) (row : Row) (h : x + n ≤ row.cells.length) :
    ∃ row', iter (deleteCell x blank) n row = some row' ∧ row'.cells = shiftLeft x n blank row.cells ∧ row.MarksFrom row' ∧
      ∀ c, row'.marks c = if c < x then row.marks c else row.marks (c + n) := by
  induction n generalizing row with
  | zero => exact ⟨row, rfl, by simp [shiftLeft], .refl row, fun c => by simp⟩
  | succ n ih =>
    have hx : x < row.cells.length := by omega
    obtain ⟨r, hr, hcells, hfrom, hmarks⟩ := deleteCell_eq hx blank
    have hlen : r.cells.length = row.cells.length := by
      rw [hcells, List.length_append, List.length_eraseIdx_of_lt hx, List.length_singleton]
      omega
    obtain ⟨row', hrow', hc, hfrom', hmarks'⟩ := ih r (by omega)
    refine ⟨row', ?_, ?_, hfrom.trans hfrom', fun c => ?_⟩
    · rw [iter_succ, hr, Option.bind_some, hrow']
    · rw [hc, hcells, shiftLeft_succ n blank h]
    · rw [hmarks' c]
      split
      next hlt => rw [hmarks, if_pos hlt]
      next hge => rw [hmarks, if_neg (by omega), Nat.add_assoc]

/-- One insertion: the marks of later columns move right with their
characters, those of the last one are gone. -/
theorem insertCell_eq {x : Nat} {row : Row} (hx : x < row.cells.length) (hlen : row.cells.length ≤ 65535) (blank : Cell) :
    ∃ r, insertCell x blank row = some r ∧ r.cells = row.cells.dropLast.insertIdx x blank ∧ row.MarksFrom r ∧
      ∀ c < row.cells.length, r.marks c = if c < x then row.marks c else if c = x then [] else row.marks (c - 1) := by
  let f (c : Nat) : Nat := if c ≥ x then satAdd16 c 1 else c
  have hpop : row.pop = { row with cells := row.cells.dropLast }.retain (· ≠ row.len - 1) := by
    rw [Row.pop, if_neg (by rw [List.isEmpty_iff]; rintro hnil; simp [hnil] at hx)]
  have hpopped : row.MarksFrom row.pop := by
    rw [hpop]
    exact .of_subset (List.filter_subset_self _)
  have hmarks : ∀ c, c + 1 < row.cells.length → row.pop.marks c = row.marks c := fun c hc => by
    rw [hpop, Row.marks_retain, if_pos (by simp only [Row.len_eq, decide_not, Bool.not_eq_true', decide_eq_false_iff_not]; omega)]
    rfl
  have hle : x ≤ row.pop.cells.length := by
    rw [hpop]
    change x ≤ row.cells.dropLast.length
    rw [List.length_dropLast]
    omega
  refine ⟨{ row.pop.shiftMarks f with cells := row.pop.cells.insertIdx x blank }, ?_, by rw [hpop]; rfl,
    hpopped.trans (.of_shift f rfl), fun c hc => ?_⟩
  · rw [insertCell, Row.insert]
    simp only [Row.shiftMarks, insertAt_eq hle]
    rfl
  change (row.pop.shiftMarks f).marks c = _
  have hf : ∀ k, f k = if k ≥ x then min (k + 1) 65535 else k := fun k => rfl
  by_cases hlt : c < x
  · rw [if_pos hlt, Row.marks_shiftMarks (c := c), hmarks c (by omega)]
    intro e _
    rw [hf]
    split <;> omega
  · rw [if_neg hlt]
    by_cases hcx : c = x
    · rw [if_pos hcx, Row.marks_shiftMarks_none]
      intro e _
      rw [hf]
      split <;> omega
    · rw [if_neg hcx, Row.marks_shiftMarks (c := c - 1), hmarks _ (by omega)]
      intro e _
      rw [hf]
      split <;> omega

theorem iter_insertCell (x : Nat) (blank : Cell) (n : Nat) (row : Row) (h : x + n ≤ row.cells.length)
    (hlen : row.cells.length ≤ 65535) :
    ∃ row', iter (insertCell x blank) n row = some row' ∧ row'.cells = shiftRight x n blank row.cells ∧ row.MarksFrom row' ∧
      ∀ c < row.cells.length, row'.marks c = if c < x then row.marks c else if c < x + n then [] else row.marks (c - n) := by
  induction n generalizing row with
  | zero =>
    refine ⟨row, rfl, ?_, .refl row, fun c _ => by simp only [Nat.add_zero, Nat.sub_zero]; split <;> simp_all⟩
    have htake : (row.cells.drop x).take (row.cells.length - x) = row.cells.drop x :=
      List.take_of_length_le (Nat.le_of_eq List.length_drop)
    simp [shiftRight, htake]
  | succ n ih =>
    have hx : x < row.cells.length := by omega
    obtain ⟨r, hr, hcells, hfrom, hmarks⟩ := insertCell_eq hx hlen blank
    have hlen' : r.cells.length = row.cells.length := by
      rw [hcells, List.length_insertIdx_of_le_length (by rw [List.length_dropLast]; omega), List.length_dropLast]
      omega
    obtain ⟨row', hrow', hc, hfrom', hmarks'⟩ := ih r (by omega) (by omega)
    refine ⟨row', ?_, ?_, hfrom.trans hfrom', fun c hcl => ?_⟩
    · rw [iter_succ, hr, Option.bind_some, hrow']
    · rw [hc, hcells, shiftRight_succ n blank h]
    · rw [hmarks' c (by omega)]
      by_cases hlt : c < x
      · rw [if_pos hlt, if_pos hlt, hmarks c hcl, if_pos hlt]
      rw [if_neg hlt, if_neg hlt]
      by_cases hin : c < x + n
      · rw [if_pos hin, if_pos (by omega)]
      · rw [if_neg hin, hmarks (c - n) (by omega), if_neg (by omega)]
        by_cases hcx : c - n = x
        · rw [if_pos hcx, if_pos (by omega)]
        · rw [if_neg hcx, if_neg (by omega), Nat.sub_sub]

variable {g : Grid} {y : Nat} {row : Row}

theorem fixDeleted_eq (hrow : g.HasRow y row) (hlen : row.cells.length = g.cols) {x : Nat} (hx : x < g.cols) (blank : Cell) :
    fixDeleted g x y blank = some (g.putRow y { row with cells := dropOrphan x blank row.cells }) := by
  unfold fixDeleted dropOrphan
  rw [if_pos hx]
  have hxl : x < row.cells.length := by omega
  simp only [hrow.visibleRow, Row.get, List.getElem?_eq_getElem hxl, Option.bind_eq_bind, Option.bind_some]
  split
  next hw =>
    have hlast : x - 1 < (row.cells.set x blank).length := by rw [List.length_set]; omega
    rw [hrow.set _ hxl, Option.bind_some, List.getElem?_eq_getElem hlast]
    simp only [hrow.putRow.visibleRow, Option.bind_some, List.getElem?_eq_getElem hlast]
    by_cases hpos : x > 0
    · rw [if_pos hpos]
      by_cases hb : (row.cells.set x blank)[x - 1].width = 2
      · rw [if_pos hb, if_pos ⟨hpos, hb⟩, hrow.putRow.set _ hlast, Grid.putRow_putRow]
      · rw [if_neg hb, if_neg fun h => hb h.2]
    · rw [if_neg hpos, if_neg fun h => hpos h.1]
  next => rw [hrow.putRow_self]

theorem fixInserted_eq (hrow : g.HasRow y row) (hlen : row.cells.length = g.cols) (hcols : 0 < g.cols) (blank : Cell) :
    fixInserted g y blank = some (g.putRow y { row with cells := cutLast blank row.cells }) := by
  have hlast : g.cols - 1 < row.cells.length := by omega
  unfold fixInserted cutLast
  rw [sub_eq (show 1 ≤ g.cols from hcols), hlen]
  simp only [hrow.visibleRow, Row.get, List.getElem?_eq_getElem hlast, Option.bind_eq_bind, Option.bind_some]
  by_cases hbase : row.cells[g.cols - 1].width = 2
  · rw [if_pos hbase, if_pos hbase, hrow.set _ hlast]
  rw [if_neg hbase, if_neg hbase]
  have hdel := fixDeleted_eq hrow hlen (show g.cols - 1 < g.cols by omega) blank
  unfold fixDeleted at hdel
  rw [if_pos (by omega)] at hdel
  simpa only [hrow.visibleRow, Row.get, List.getElem?_eq_getElem hlast, Option.bind_eq_bind, Option.bind_some] using hdel

/-- DCH once the blank is known. -/
theorem deleteCharacter_row (h : s.Inv) (hrow : s.grid.HasRow s.grid.cursorY row) (blank : Cell) (n : Nat) :
    ∃ row', (do
        let g ← s.grid.fixupWideCharAt s.grid.cursorX s.grid.cursorY
        let g ← iter (fun (g : Grid) => g.visibleRowMut s.grid.cursorY (deleteCell s.grid.cursorX blank))
          (min n (g.cols - s.grid.cursorX)) g
        let g ← fixDeleted g s.grid.cursorX s.grid.cursorY blank
        return { s with grid := g } : Option Screen) = some (s.onGrid (·.putRow s.grid.cursorY row')) ∧
      row'.cells = deleteCells s.grid.cursorX (min n (s.grid.cols - s.grid.cursorX)) blank row.cells ∧ row.MarksFrom row' ∧
      ∀ c, row'.marks c = if c < s.grid.cursorX then row.marks c
        else row.marks (c + min n (s.grid.cols - s.grid.cursorX)) := by
  have hx := h.shape.cursor_x
  have hlen := h.shape.row_len row hrow.mem
  have hulen := unpair_length s.grid.cursorX row.cells
  obtain ⟨row', hiter, hcells, hfrom, hmarks⟩ := iter_deleteCell s.grid.cursorX blank (min n (s.grid.cols - s.grid.cursorX))
    { row with cells := unpair s.grid.cursorX row.cells } (by
      simp only [hulen]
      omega)
  have hlen' : row'.cells.length = s.grid.cols := by
    rw [hcells, (shiftLeft_over (p := fun _ => True) trivial (by simp only [hulen]; omega)).1, hulen, hlen]
  refine ⟨{ row' with cells := dropOrphan s.grid.cursorX blank row'.cells }, ?_, by rw [hcells]; rfl, hfrom, hmarks⟩
  simp only [hrow.fixup hlen, Option.bind_eq_bind, Option.bind_some, Grid.putRow_cols]
  rw [hrow.putRow.iter_visibleRowMut _ hiter, Option.bind_some, Grid.putRow_putRow, fixDeleted_eq hrow.putRow hlen' hx,
    Option.bind_some, Grid.putRow_putRow]
  rfl

/-- ICH once the blank is known. -/
theorem insertCharacter_row (h : s.Inv) (hrow : s.grid.HasRow s.grid.cursorY row) (blank : Cell) (n : Nat) :
    ∃ row', (do
        let g ← s.grid.fixupWideCharAt s.grid.cursorX s.grid.cursorY
        let g ← iter (fun (g : Grid) => g.visibleRowMut s.grid.cursorY (insertCell s.grid.cursorX blank))
          (min n (g.cols - s.grid.cursorX)) g
        let g ← fixInserted g s.grid.cursorY blank
        return { s with grid := g } : Option Screen) = some (s.onGrid (·.putRow s.grid.cursorY row')) ∧
      row'.cells = insertCells s.grid.cursorX (min n (s.grid.cols - s.grid.cursorX)) blank row.cells ∧ row.MarksFrom row' ∧
      ∀ c < s.grid.cols, row'.marks c = if c < s.grid.cursorX then row.marks c
        else if c < s.grid.cursorX + min n (s.grid.cols - s.grid.cursorX) then []
        else row.marks (c - min n (s.grid.cols - s.grid.cursorX)) := by
  have hx := h.shape.cursor_x
  have hcols := h.shape.cols_le
  have hlen := h.shape.row_len row hrow.mem
  have hulen := unpair_length s.grid.cursorX row.cells
  obtain ⟨row', hiter, hcells, hfrom, hmarks⟩ := iter_insertCell s.grid.cursorX blank (min n (s.grid.cols - s.grid.cursorX))
    { row with cells := unpair s.grid.cursorX row.cells } (by
      simp only [hulen]
      omega) (by
      simp only [hulen]
      omega)
  have hlen' : row'.cells.length = s.grid.cols := by
    rw [hcells, (shiftRight_over (p := fun _ => True) trivial (by simp only [hulen]; omega)).1, hulen, hlen]
  refine ⟨{ row' with cells := cutLast blank row'.cells }, ?_, by rw [hcells]; rfl, hfrom, fun c hc =>
    hmarks c (by simp only [hulen]; omega)⟩
  simp only [hrow.fixup hlen, Option.bind_eq_bind, Option.bind_some, Grid.putRow_cols]
  rw [hrow.putRow.iter_visibleRowMut _ hiter, Option.bind_some, Grid.putRow_putRow,
    fixInserted_eq hrow.putRow hlen' h.shape.cols_pos, Option.bind_some, Grid.putRow_putRow]
  rfl

theorem csiDeleteCharacter_does (ho : allowed .other) (h : s.Inv) (n : Nat) :
    Does allowed s (s.csiDeleteCharacter n) := by
  apply does_blank ho h
  intro id s h hid _
  have hx := h.shape.cursor_x
  obtain ⟨row, hrow, hlen⟩ := h.shape.hasRow h.shape.cursor_y
  obtain ⟨row', hdel, hcells, hmarks, -⟩ := deleteCharacter_row h hrow { c := ' ', styleId := id, width := 1 } n
  simp only [if_pos h.shape.cursor_y, hdel]
  refine .of_steps (putRow_steps ho h hid hrow ⟨⟨?_, hmarks.bounded, hmarks.plain⟩, fun hp => ?_⟩)
  · rw [hcells]
    exact deleteCells_over (fresh_default id) (fresh_blank id) (by omega)
  · rw [hcells]
    exact hp.deleteCells (single_blank id) (by omega)

theorem csiInsertCharacter_does (ho : allowed .other) (h : s.Inv) (n : Nat) :
    Does allowed s (s.csiInsertCharacter n) := by
  apply does_blank ho h
  intro id s h hid _
  have hx := h.shape.cursor_x
  obtain ⟨row, hrow, hlen⟩ := h.shape.hasRow h.shape.cursor_y
  obtain ⟨row', hins, hcells, hmarks, -⟩ := insertCharacter_row h hrow { c := ' ', styleId := id, width := 1 } n
  simp only [if_pos h.shape.cursor_y, hins]
  refine .of_steps (putRow_steps ho h hid hrow ⟨⟨?_, hmarks.bounded, hmarks.plain⟩, fun hp => ?_⟩)
  · rw [hcells]
    exact insertCells_over (fresh_default id) (fresh_blank id) (by omega)
  · rw [hcells]
    exact hp.insertCells (single_blank id) (by omega)

end Screen

end Retach
