import Retach.Safety
/-!
# The alternate screen

While a program runs on the alternate screen, the main screen is parked: its
visible rows, modes and scroll region in slots that nothing else uses, its
scrollback in the live buffer. Its cursor is parked in the slot of DECSC,
which the program on the alternate screen can use as well.
-/

open Checked Runs

namespace Retach

namespace Screen

/-- `enter_alt_screen` without saving the cursor. -/
def switchedToAlt (s : Screen) : Screen :=
  { s with
    grid := s.grid.switched
    state := { s.state with
      savedScrollRegion := some (s.grid.scrollTop, s.grid.scrollBottom)
      savedGrid := some { visibleCells := s.grid.visibleRows, scrollbackLimit := s.grid.scrollbackLimit }
      savedModes := some s.grid.modes
      inAltScreen := true } }

/-! ## What stays parked -/

/-- `t` shows the alternate screen over the main screen of `s`. -/
structure Shelves (s t : Screen) : Prop where
  alt : t.state.inAltScreen = true
  savedGrid : t.state.savedGrid = some { visibleCells := s.grid.visibleRows, scrollbackLimit := s.grid.scrollbackLimit }
  savedModes : t.state.savedModes = some s.grid.modes
  savedRegion : t.state.savedScrollRegion = some (s.grid.scrollTop, s.grid.scrollBottom)
  cols : t.grid.cols = s.grid.cols
  rows : t.grid.rows = s.grid.rows

/-- The rows of `s` are parked in `t`, and look the same. -/
structure Parks (s t : Screen) : Prop extends Shelves s t where
  scrollback : t.grid.scrollbackRows = s.grid.scrollbackRows
  scrollbackLen : t.grid.scrollbackLen = s.grid.scrollbackLen
  pendingStart : t.grid.pendingStart = s.grid.pendingStart
  styles : s.grid.styleTable.Keeps (fun id => usesStyle s.grid.cells id = true) t.grid.styleTable

end Screen

/-- The effects of a program that stays on the alternate screen. -/
def Kind.StaysAlt (k : Kind) : Prop := k ≠ .exit ∧ k ≠ .reset ∧ k ≠ .resize

/-- The effects that do not touch the parked scrollback either. -/
def Kind.KeepsScrollback (k : Kind) : Prop := k.StaysAlt ∧ k ≠ .clear ∧ k ≠ .take

theorem Effect.shelves {k : Kind} {s t t' : Screen} (h : Effect k t t') (hk : k.StaysAlt) (hs : s.Shelves t) :
    s.Shelves t' := by
  obtain ⟨hexit, hreset, hresize⟩ := hk
  have hne : ¬ t.state.inAltScreen = false := by simp [hs.alt]
  cases h with
  | aux st ha | osc st ha =>
    exact ⟨ha.inAltScreen.trans hs.alt, ha.savedGrid.trans hs.savedGrid, ha.savedModes.trans hs.savedModes,
      ha.savedScrollRegion.trans hs.savedRegion, hs.cols, hs.rows⟩
  | capture id top vis halt => exact absurd halt hne
  | enter halt => exact absurd halt hne
  | exit => exact absurd rfl hexit
  | reset => exact absurd rfl hreset
  | resize => exact absurd rfl hresize
  | _ => exact ⟨hs.alt, hs.savedGrid, hs.savedModes, hs.savedRegion, hs.cols, hs.rows⟩

namespace Screen

variable {s t t' : Screen}

/-- The parked rows are among those the style table serves. -/
theorem Parks.mem_allRows (hs : s.Parks t) (hi : s.Inv) {row : Row} (hr : row ∈ s.grid.cells) : row ∈ t.allRows := by
  rw [hi.shape.cells_eq, List.mem_append] at hr
  rcases hr with hr | hr
  · rw [← hs.scrollback] at hr
    exact scrollback_mem t hr
  · refine List.mem_append_right _ ?_
    rw [hs.savedGrid]
    exact hr

/-- A change of the visible rows. -/
theorem Parks.replaceVisible (hs : s.Parks t) (ht : t.Inv) (vis : List Row) : s.Parks (t.onGrid (·.replaceVisible vis)) :=
  { hs with
    toShelves := { hs.toShelves with }
    scrollback := (ht.shape.scrollback_replaceVisible vis).trans hs.scrollback }

/-- A style table that keeps the styles in use keeps those of the parked
rows. -/
theorem Parks.table (hs : s.Parks t) (hi : s.Inv) {st : StyleTable}
    (hkeep : t.grid.styleTable.Keeps (fun id => usesStyle t.allRows id = true) st) :
    s.Parks (t.onGrid (·.setStyleTable st)) :=
  { hs with
    toShelves := { hs.toShelves with }
    styles := fun id hid hheld => by
      obtain ⟨hheld', hget⟩ := hs.styles id hid hheld
      obtain ⟨row, hr, c, hc, rfl⟩ := usesStyle_iff.1 hid
      obtain ⟨hheld'', hget'⟩ := hkeep c.styleId (usesStyle_iff.2 ⟨row, hs.mem_allRows hi hr, c, hc, rfl⟩) hheld'
      exact ⟨hheld'', hget'.trans hget⟩ }

end Screen

theorem Effect.parks {k : Kind} {s t t' : Screen} (h : Effect k t t') (hk : k.KeepsScrollback) (hi : s.Inv)
    (ht : t.Inv) (hs : s.Parks t) : s.Parks t' := by
  have hshelves := h.shelves hk.1 hs.toShelves
  have hne : ¬ t.state.inAltScreen = false := by simp [hs.alt]
  obtain ⟨⟨hexit, hreset, hresize⟩, hclear, htake⟩ := hk
  cases h with
  | paint id vis => exact hs.replaceVisible ht vis
  | orphan id vis => exact hs.replaceVisible ht vis
  | control vis => exact hs.replaceVisible ht vis
  | table st hwf hkeep => exact hs.table hi hkeep
  | capture id top vis halt => exact absurd halt hne
  | enter halt => exact absurd halt hne
  | exit => exact absurd rfl hexit
  | reset => exact absurd rfl hreset
  | resize => exact absurd rfl hresize
  | clear => exact absurd rfl hclear
  | takeScrollback => exact absurd rfl htake
  | takePassthrough => exact absurd rfl htake
  | _ => exact { hs with toShelves := hshelves }

/-! ## Entering and leaving -/

namespace Screen

variable {s t : Screen} {W : UnicodeWidth}

theorem switchedToAlt_parks (h : s.Inv) : s.Parks s.switchedToAlt where
  alt := rfl
  savedGrid := rfl
  savedModes := rfl
  savedRegion := rfl
  cols := rfl
  rows := rfl
  scrollback := by
    have hlen := h.shape.scrollback_length
    change (s.grid.scrollbackRows ++ _).take s.grid.scrollbackLen = _
    rw [List.take_left' hlen]
  scrollbackLen := rfl
  pendingStart := rfl
  styles := .refl _ _

/-- The modes that switch to the alternate screen. -/
def altModes : List Nat := [47, 1047, 1049]

theorem step_decSet (h : s.Inv) (halt : s.state.inAltScreen = false) {mode : Nat} (hm : mode ∈ altModes) :
    s.step W (.decSet mode) = some (if mode = 1049 then s.saveCursor.switchedToAlt else s.switchedToAlt) := by
  have hone : s.step W (.decSet mode) = s.setDecMode mode true := by
    change [[mode]].foldlM (setDecParam true) s = _
    simp [setDecParam]
  have hsave : s.saveCursor.Inv := Effect.save.inv h
  rw [hone]
  simp only [altModes, List.mem_cons, List.not_mem_nil, or_false] at hm
  rcases hm with rfl | rfl | rfl
  · simp only [setDecMode, enterAltScreen, halt]
    exact switchToAlt_eq h
  · simp only [setDecMode, enterAltScreen, halt]
    exact switchToAlt_eq h
  · simp only [setDecMode, enterAltScreen, halt]
    exact switchToAlt_eq hsave

theorem step_decReset {mode : Nat} (hm : mode ∈ altModes) :
    t.step W (.decReset mode) = t.exitAltScreen (mode = 1049) := by
  have hone : t.step W (.decReset mode) = t.setDecMode mode false := by
    change [[mode]].foldlM (setDecParam false) t = _
    simp [setDecParam]
  rw [hone]
  simp only [altModes, List.mem_cons, List.not_mem_nil, or_false] at hm
  rcases hm with rfl | rfl | rfl <;> rfl

/-- The saved cursor changes no cell and no style. -/
theorem cursorBack_grid (s : Screen) : ∃ x y w m,
    s.cursorBack.grid = (((s.grid.setWrapPending w).setCursorX x).setCursorY y).setModes m := by
  unfold cursorBack
  split
  · exact ⟨_, _, _, _, rfl⟩
  · exact ⟨s.grid.cursorX, s.grid.cursorY, s.grid.wrapPending, s.grid.modes, rfl⟩

/-- The main screen right after `exit_alt_screen` brought it back. -/
def broughtBack (s t : Screen) (restore : Bool) : Screen :=
  let u := t.switchedBack { visibleCells := s.grid.visibleRows, scrollbackLimit := s.grid.scrollbackLimit } s.grid.modes
    (s.grid.scrollTop, s.grid.scrollBottom)
  if restore then u.cursorBack else u

theorem broughtBack_inv (hs : s.Shelves t) (ht : t.Inv) (restore : Bool) : (s.broughtBack t restore).Inv := by
  have hinv := ht.exit s.grid.modes (s.grid.scrollTop, s.grid.scrollBottom) hs.savedGrid
  unfold broughtBack
  split
  · have hback : Steps Effect (fun _ => True) _ _ := cursorBack_steps trivial trivial trivial hinv
    exact steps_inv hback hinv
  · exact hinv

theorem broughtBack_grid (s t : Screen) (restore : Bool) : ∃ x y w m, (s.broughtBack t restore).grid =
    (((t.grid.switchedBack { visibleCells := s.grid.visibleRows, scrollbackLimit := s.grid.scrollbackLimit } s.grid.modes
      (s.grid.scrollTop, s.grid.scrollBottom)).setWrapPending w |>.setCursorX x).setCursorY y).setModes m := by
  unfold broughtBack
  split
  · exact cursorBack_grid _
  · exact ⟨_, _, _, _, rfl⟩

theorem broughtBack_saved (s t : Screen) (restore : Bool) : (s.broughtBack t restore).state.savedGrid = none := by
  unfold broughtBack
  split
  · exact cursorBack_savedGrid _
  · rfl

/-- `exit_alt_screen` brings the main screen back, with its styles
compacted. -/
theorem exit_eq (hs : s.Shelves t) (ht : t.Inv) (restore : Bool) : ∃ st,
    t.exitAltScreen restore = some ((s.broughtBack t restore).onGrid (·.setStyleTable st)) ∧
      (s.broughtBack t restore).grid.styleTable.Keeps (fun id => usesStyle (s.broughtBack t restore).allRows id = true) st := by
  obtain ⟨st, hst, -, hkeep, -⟩ := compactStyles_keeps (broughtBack_inv hs ht restore)
  rw [broughtBack_saved] at hst
  refine ⟨st, ?_, hkeep⟩
  rw [exitAltScreen_eq ht hs.alt hs.savedGrid hs.savedModes hs.savedRegion]
  exact congrArg (fun g => some { s.broughtBack t restore with grid := g }) hst

/-- The rows of the buffer are the parked ones. -/
theorem broughtBack_cells (hs : s.Parks t) (hi : s.Inv) (restore : Bool) :
    (s.broughtBack t restore).grid.cells = s.grid.cells := by
  obtain ⟨x, y, w, m, hgrid⟩ := broughtBack_grid s t restore
  rw [hgrid]
  change t.grid.scrollbackRows ++ fitRows t.grid.cols t.grid.rows s.grid.visibleRows = s.grid.cells
  rw [hs.scrollback, hs.cols, hs.rows, fitRows_self hi.shape.visible_length hi.shape.row_len, ← hi.shape.cells_eq]

end Screen

/-! ## Programs on the alternate screen -/

/-- The event neither leaves the alternate screen nor resets the terminal. -/
def Event.StaysAlt (e : Event) : Prop := ¬ e.Resets ∧ ¬ e.ExitsAlt

namespace Screen

variable {s t : Screen} (W : UnicodeWidth)

theorem allows_alt {e : Event} (h : e.StaysAlt) (t : Screen) : Allows W Kind.StaysAlt t e where
  other := by simp [Kind.StaysAlt]
  move := by simp [Kind.StaysAlt]
  modes := by simp [Kind.StaysAlt]
  orphan := everyPrint_of_forall W (by simp [Kind.StaysAlt]) t e
  control := everyPrint_of_forall W (by simp [Kind.StaysAlt]) t e
  save := everySave_of_forall (by simp [Kind.StaysAlt]) t e
  enter := by simp [Kind.StaysAlt]
  exit := fun he => absurd he h.2
  clear := by simp [Kind.StaysAlt]
  reset := fun hr => absurd hr h.1
  title := by simp [Kind.StaysAlt]
  osc := by simp [Kind.StaysAlt]

theorem allows_scrollback {e : Event} (h : e.StaysAlt) (hc : ¬ e.ClearsScrollback) (t : Screen) :
    Allows W Kind.KeepsScrollback t e where
  other := by simp [Kind.KeepsScrollback, Kind.StaysAlt]
  move := by simp [Kind.KeepsScrollback, Kind.StaysAlt]
  modes := by simp [Kind.KeepsScrollback, Kind.StaysAlt]
  orphan := everyPrint_of_forall W (by simp [Kind.KeepsScrollback, Kind.StaysAlt]) t e
  control := everyPrint_of_forall W (by simp [Kind.KeepsScrollback, Kind.StaysAlt]) t e
  save := everySave_of_forall (by simp [Kind.KeepsScrollback, Kind.StaysAlt]) t e
  enter := by simp [Kind.KeepsScrollback, Kind.StaysAlt]
  exit := fun he => absurd he h.2
  clear := fun h => absurd h hc
  reset := fun hr => absurd hr h.1
  title := by simp [Kind.KeepsScrollback, Kind.StaysAlt]
  osc := by simp [Kind.KeepsScrollback, Kind.StaysAlt]

theorem process_shelves {w : List Event} (hw : ∀ e ∈ w, e.StaysAlt) {t' : Screen} (ht : t.Inv) (hs : s.Shelves t)
    (hrun : t.process W w = some t') : t'.Inv ∧ s.Shelves t' :=
  (Along.of_forall hw t).keeps (I := fun t => t.Inv ∧ s.Shelves t) (fun t e t' h he hstep => by
    have hsteps := step_leads h.1 e (allows_alt W he t) t' hstep
    exact ⟨steps_inv hsteps h.1, hsteps.keeps (fun _ _ _ hk heff hs => heff.shelves hk hs) h.2⟩) ⟨ht, hs⟩ hrun

theorem process_parks {w : List Event} (hw : ∀ e ∈ w, e.StaysAlt ∧ ¬ e.ClearsScrollback) {t' : Screen} (hi : s.Inv)
    (ht : t.Inv) (hs : s.Parks t) (hrun : t.process W w = some t') : t'.Inv ∧ s.Parks t' :=
  (Along.of_forall hw t).keeps (I := fun t => t.Inv ∧ s.Parks t) (fun t e t' h he hstep =>
    (step_leads h.1 e (allows_scrollback W he.1 he.2 t) t' hstep).keeps (P := fun t => t.Inv ∧ s.Parks t)
      (fun _ _ _ hk heff h => ⟨heff.inv h.1, heff.parks hk hi h.1 h.2⟩) h) ⟨ht, hs⟩ hrun

/-- The state after a mode that enters the alternate screen. -/
theorem enter_parks (hi : s.Inv) (hmain : s.state.inAltScreen = false) {mode : Nat} (hm : mode ∈ altModes) {w : List Event}
    (hrun : s.process W (.decSet mode :: w) = some t) :
    ∃ t₀, t₀.Inv ∧ s.Parks t₀ ∧ t₀.process W w = some t := by
  rw [process, List.foldlM_cons, step_decSet hi hmain hm] at hrun
  have hsave : s.saveCursor.Inv := Effect.save.inv hi
  by_cases hsaves : mode = 1049
  · rw [if_pos hsaves] at hrun
    exact ⟨_, hsave.enter hmain, { switchedToAlt_parks hsave with }, hrun⟩
  · rw [if_neg hsaves] at hrun
    exact ⟨_, hi.enter hmain, switchedToAlt_parks hi, hrun⟩

/-! ## Main-screen content -/

/-- A program on the alternate screen cannot touch the content of the main
screen: after it has left, all rows show what they showed, and the scrollback
is as before. -/
theorem alt_keeps_rows (hs : s.Reachable W) (hmain : s.state.inAltScreen = false) {mode : Nat} (hm : mode ∈ altModes)
    {w : List Event} (hw : ∀ e ∈ w, e.StaysAlt ∧ ¬ e.ClearsScrollback) (hrun : s.process W (.decSet mode :: w) = some t) :
    ∃ s', t.step W (.decReset mode) = some s' ∧
      s'.grid.visibleRows.map (Row.shown s'.grid.styleTable) = s.grid.visibleRows.map (Row.shown s.grid.styleTable) ∧
      s'.grid.scrollbackRows.map (Row.shown s'.grid.styleTable) = s.grid.scrollbackRows.map (Row.shown s.grid.styleTable) ∧
      s'.grid.scrollbackLen = s.grid.scrollbackLen ∧ s'.grid.pendingStart = s.grid.pendingStart ∧
      s'.grid.scrollbackLimit = s.grid.scrollbackLimit := by
  have hi := hs.inv
  obtain ⟨t₀, ht₀, hparks₀, hrun₀⟩ := enter_parks W hi hmain hm hrun
  obtain ⟨ht, hparks⟩ := process_parks W hw hi ht₀ hparks₀ hrun₀
  obtain ⟨st, hexit, hkeep⟩ := exit_eq hparks.toShelves ht (mode = 1049)
  have hcells := broughtBack_cells hparks hi (mode = 1049)
  obtain ⟨x, y, wr, m, hgrid⟩ := broughtBack_grid s t (mode = 1049)
  have hnone : s.state.savedGrid = none := by simpa [hmain] using hi.savedGrid
  have hstyles : s.grid.styleTable.Keeps (fun id => usesStyle s.grid.cells id = true) st := by
    refine hparks.styles.trans fun id hid hheld => ?_
    have := hkeep id (by
      rw [allRows, hcells, broughtBack_saved, SavedGrid.rows, List.append_nil]
      exact hid)
    rw [hgrid] at this
    exact this hheld
  have hheld : ∀ row ∈ s.grid.cells, ∀ c ∈ row.cells, s.grid.styleTable.Held c.styleId := fun row hr =>
    hi.held row (List.mem_append_left _ hr)
  have hshown := hstyles.shown hheld
  refine ⟨_, (step_decReset hm).trans hexit, ?_, ?_, ?_, ?_, ?_⟩
  · simp only [onGrid, Grid.setStyleTable, Grid.visibleRows, hcells, List.map_take, List.map_drop, hshown]
    rw [hgrid]
    change ((s.grid.cells.map _).drop t.grid.scrollbackLen).take t.grid.rows = _
    rw [hparks.scrollbackLen, hparks.rows]
  · simp only [onGrid, Grid.setStyleTable, Grid.scrollbackRows, hcells, List.map_take, hshown]
    rw [hgrid]
    change (s.grid.cells.map _).take t.grid.scrollbackLen = _
    rw [hparks.scrollbackLen]
  · simp only [onGrid, Grid.setStyleTable]
    rw [hgrid]
    exact hparks.scrollbackLen
  · simp only [onGrid, Grid.setStyleTable]
    rw [hgrid]
    exact hparks.pendingStart
  · simp only [onGrid, Grid.setStyleTable]
    rw [hgrid]
    rfl

/-- Red text in the scrollback and on the screen. -/
theorem alt_keeps_rows_sample : ∃ s t s', (Screen.new 3 2 10).run .sample [.callback (.csi [[31]] [] 'm'), .callback (.print 'a'),
      .callback (.execute 0x0a), .callback (.execute 0x0a), .callback (.print 'b')] = some s ∧
    s.process .sample [.decSet 1049, .csi [[32]] [] 'm', .print 'c'] = some t ∧ t.step .sample (.decReset 1049) = some s' ∧
    s'.grid.visibleRows.map (Row.shown s'.grid.styleTable) =
      [([(' ', 1, {}), (' ', 1, {}), (' ', 1, {})], []), ([(' ', 1, {}), ('b', 1, { fg := some (.indexed 1) }), (' ', 1, {})], [])] ∧
    s'.grid.scrollbackRows.map (Row.shown s'.grid.styleTable) =
      [([('a', 1, { fg := some (.indexed 1) }), (' ', 1, {}), (' ', 1, {})], [])] := by
  obtain ⟨s, t, hrun, hmain, hvisible, hscrollback, halt⟩ : ∃ s t, (Screen.new 3 2 10).run .sample [.callback (.csi [[31]] [] 'm'),
      .callback (.print 'a'), .callback (.execute 0x0a), .callback (.execute 0x0a), .callback (.print 'b')] = some s ∧
      s.state.inAltScreen = false ∧
      s.grid.visibleRows.map (Row.shown s.grid.styleTable) =
        [([(' ', 1, {}), (' ', 1, {}), (' ', 1, {})], []), ([(' ', 1, {}), ('b', 1, { fg := some (.indexed 1) }), (' ', 1, {})], [])] ∧
      s.grid.scrollbackRows.map (Row.shown s.grid.styleTable) =
        [([('a', 1, { fg := some (.indexed 1) }), (' ', 1, {}), (' ', 1, {})], [])] ∧
      s.process .sample [.decSet 1049, .csi [[32]] [] 'm', .print 'c'] = some t := ⟨_, _, rfl, rfl, by decide, by decide, rfl⟩
  have hw : ∀ e ∈ [Event.csi [[32]] [] 'm', .print 'c'], e.StaysAlt ∧ ¬ e.ClearsScrollback := by
    simp [Event.StaysAlt, Event.Resets, Event.ExitsAlt, Event.ClearsScrollback]
  obtain ⟨s', hs', hrows, hpast, -⟩ := alt_keeps_rows .sample ⟨3, 2, 10, _, by decide, by decide, by simp [Action.Sized], hrun⟩ hmain
    (show 1049 ∈ altModes by simp [altModes]) hw halt
  exact ⟨s, t, s', hrun, halt, hs', hrows.trans hvisible, hpast.trans hscrollback⟩

/-! ## The save slot -/

/-- Whether a parameter of `CSI ? h` saves the cursor. -/
def savesParam (s : Screen) : Param → Bool
  | mode :: _ => mode = 1048 ∨ (mode = 1049 ∧ s.state.inAltScreen = false)
  | [] => false

/-- The cursor states that parameters of `CSI ? h` save, in order. -/
def savesIn : List Param → Screen → List SavedCursor
  | [], _ => []
  | p :: ps, s => (if s.savesParam p then [s.cursorState] else []) ++
    match setDecParam true s p with
    | some s' => savesIn ps s'
    | none => []

/-- The cursor states that an event saves. -/
def savesOf (s : Screen) : Event → List SavedCursor
  | .esc [] '7' => [s.cursorState]
  | .csi _ [] 's' => [s.cursorState]
  | .csi ps ['?'] 'h' => savesIn ps s
  | _ => []

/-- The cursor states that a run saves. -/
def saves (s : Screen) : List Event → List SavedCursor
  | [] => []
  | e :: es => s.savesOf e ++
    match s.step W e with
    | some s' => saves s' es
    | none => []

end Screen

/-- Only saves and RIS write the save slot. -/
theorem Effect.slot {k : Kind} {s s' : Screen} (h : Effect k s s') (hs : ∀ c, k ≠ .save c) (hr : k ≠ .reset) :
    s'.state.savedCursorState = s.state.savedCursorState := by
  cases h with
  | aux st ha => exact ha.savedCursorState
  | osc st ha => exact ha.savedCursorState
  | save => exact absurd rfl (hs _)
  | reset => exact absurd rfl hr
  | _ => rfl

/-- A saved cursor is on the screen, until a resize. -/
theorem Effect.slot_inside {k : Kind} {s s' : Screen} (h : Effect k s s') (hk : k ≠ .resize) (hs : s.Inv)
    (hin : ∀ c, s.state.savedCursorState = some c → c.x < s.grid.cols ∧ c.y < s.grid.rows) :
    ∀ c, s'.state.savedCursorState = some c → c.x < s'.grid.cols ∧ c.y < s'.grid.rows := by
  have hdims := h.dims hk
  rw [hdims.1, hdims.2]
  cases h with
  | aux st ha => rwa [ha.savedCursorState]
  | osc st ha => rwa [ha.savedCursorState]
  | save =>
    rintro c hc
    obtain rfl := Option.some.inj hc
    exact ⟨hs.shape.cursor_x, hs.shape.cursor_y⟩
  | reset => simp
  | _ => exact hin

/-- The effects that do not write the slot. -/
def Kind.KeepsSlot (k : Kind) : Prop := (∀ c, k ≠ .save c) ∧ k ≠ .reset

theorem steps_slot {s s' : Screen} (h : Steps Effect Kind.KeepsSlot s s') :
    s'.state.savedCursorState = s.state.savedCursorState :=
  h.keeps (P := fun t => t.state.savedCursorState = s.state.savedCursorState)
    (fun _ _ _ hk he ht => (he.slot hk.1 hk.2).trans ht) rfl

namespace Screen

variable {s t : Screen}

/-- The slot after a parameter of `CSI ? h`. -/
theorem setDecParam_slot (h : s.Inv) {p : Param} {s' : Screen} (hs' : setDecParam true s p = some s') :
    s'.state.savedCursorState = (if s.savesParam p then [s.cursorState] else []).getLast?.or s.state.savedCursorState := by
  cases p with
  | nil =>
    obtain rfl := Option.some.inj hs'
    rfl
  | cons mode rest =>
    have hmode : s.setDecMode mode true = some s' := hs'
    by_cases hsaves : mode = 1048 ∨ (mode = 1049 ∧ s.state.inAltScreen = false)
    · rw [if_pos (by simpa [savesParam] using hsaves)]
      rcases hsaves with rfl | ⟨rfl, halt⟩
      · obtain rfl := Option.some.inj hmode
        rfl
      · have henter := switchToAlt_eq (s := s.saveCursor) (Effect.save.inv h)
        simp only [setDecMode, enterAltScreen, halt, Bool.false_eq_true, ↓reduceIte, henter] at hmode
        obtain rfl := Option.some.inj hmode
        rfl
    · rw [if_neg (by simpa [savesParam] using hsaves)]
      have hdoes : Does Kind.KeepsSlot s (s.setDecMode mode true) := by
        refine setDecMode_does ?_ ?_ ?_ h mode true (fun _ hs => absurd hs hsaves) ?_ ?_ <;> simp [Kind.KeepsSlot]
      exact steps_slot (hdoes.leads s' hmode)

theorem savesIn_slot (ps : List Param) (h : s.Inv) {s' : Screen} (hs' : ps.foldlM (setDecParam true) s = some s') :
    s'.state.savedCursorState = (savesIn ps s).getLast?.or s.state.savedCursorState := by
  induction ps generalizing s with
  | nil =>
    obtain rfl := Option.some.inj hs'
    rfl
  | cons p ps ih =>
    rw [List.foldlM_cons] at hs'
    obtain ⟨s₁, hone, hrest⟩ := Option.bind_eq_some_iff.1 hs'
    have hone' : Leads Effect (fun _ => True) s (setDecParam true s p) := by
      cases p with
      | nil => exact .stay s
      | cons mode rest => exact (setDecMode_does trivial trivial trivial h mode true (by simp) (by simp) (by simp)).leads
    rw [ih (steps_inv (hone' s₁ hone) h) hrest, setDecParam_slot h hone, savesIn, hone]
    simp only [List.getLast?_append, Option.or_assoc]

variable (W : UnicodeWidth)

/-- The slot after an event: what the event saved last, if it saved. -/
theorem step_slot (h : s.Inv) {e : Event} (hr : ¬ e.Resets) {s' : Screen} (hs' : s.step W e = some s') :
    s'.state.savedCursorState = (s.savesOf e).getLast?.or s.state.savedCursorState := by
  unfold savesOf
  split
  · obtain rfl := Option.some.inj hs'
    rfl
  · obtain rfl := Option.some.inj hs'
    rfl
  next ps => exact savesIn_slot ps h hs'
  next h7 hs hh =>
    have hallows : Allows W Kind.KeepsSlot s e := {
      other := by simp [Kind.KeepsSlot]
      move := by simp [Kind.KeepsSlot]
      modes := by simp [Kind.KeepsSlot]
      orphan := everyPrint_of_forall W (by simp [Kind.KeepsSlot]) s e
      control := everyPrint_of_forall W (by simp [Kind.KeepsSlot]) s e
      save := by
        unfold EverySave
        split
        · exact absurd rfl h7
        · exact absurd rfl (hs _)
        · exact absurd rfl (hh _)
        · trivial
      enter := by simp [Kind.KeepsSlot]
      exit := by simp [Kind.KeepsSlot]
      clear := by simp [Kind.KeepsSlot]
      reset := fun he => absurd he hr
      title := by simp [Kind.KeepsSlot]
      osc := by simp [Kind.KeepsSlot] }
    exact steps_slot (step_leads h e hallows s' hs')

theorem process_slot {w : List Event} (hw : ∀ e ∈ w, ¬ e.Resets) (h : s.Inv) (hrun : s.process W w = some t) :
    t.state.savedCursorState = (saves W s w).getLast?.or s.state.savedCursorState := by
  induction w generalizing s with
  | nil =>
    obtain rfl := Option.some.inj hrun
    rfl
  | cons e w ih =>
    rw [process, List.foldlM_cons] at hrun
    obtain ⟨s₁, hone, hrest⟩ := Option.bind_eq_some_iff.1 hrun
    have h₁ := act_inv W h (a := .callback e) trivial hone
    rw [ih (fun e he => hw e (List.mem_cons_of_mem _ he)) h₁ hrest, step_slot W h (hw e (List.mem_cons_self ..)) hone,
      saves, hone]
    simp only [List.getLast?_append, Option.or_assoc]

/-- Callbacks leave a saved cursor on the screen. -/
theorem process_slot_inside {w : List Event} (h : s.Inv)
    (hin : ∀ c, s.state.savedCursorState = some c → c.x < s.grid.cols ∧ c.y < s.grid.rows)
    (hrun : s.process W w = some t) : ∀ c, t.state.savedCursorState = some c → c.x < t.grid.cols ∧ c.y < t.grid.rows := by
  let Inside (s : Screen) : Prop :=
    s.Inv ∧ ∀ c, s.state.savedCursorState = some c → c.x < s.grid.cols ∧ c.y < s.grid.rows
  have hstep : ∀ s e s', Inside s → True → s.step W e = some s' → Inside s' := fun s e s' hs _ hact =>
    (step_steps W hs.1 hact).keeps (P := Inside)
      (fun _ _ _ hk he hs => ⟨he.inv hs.1, he.slot_inside hk hs.1 hs.2⟩) hs
  exact ((Along.of_forall (fun _ _ => trivial) s).keeps (P := fun _ _ => True) hstep ⟨h, hin⟩ hrun).2

/-! ## The cursor of the main screen -/

/-- The cursor, the modes and the scroll region of `s'` are those of `s`. -/
def Restores (s s' : Screen) : Prop :=
  s'.cursorState = s.cursorState ∧ s'.grid.modes = s.grid.modes ∧ s'.grid.scrollTop = s.grid.scrollTop ∧
    s'.grid.scrollBottom = s.grid.scrollBottom

/-- What `exit_alt_screen` restores with `c` in the save slot. -/
theorem broughtBack_restores (hi : s.Inv) (hs : s.Shelves t) {c : SavedCursor} (hslot : t.state.savedCursorState = some c)
    (hin : c.x < t.grid.cols ∧ c.y < t.grid.rows) (st : StyleTable) :
    Restores s ((s.broughtBack t true).onGrid (·.setStyleTable st)) ↔ c = s.cursorState := by
  have hback : s.broughtBack t true = _ := cursorBack_some (s := t.switchedBack
    { visibleCells := s.grid.visibleRows, scrollbackLimit := s.grid.scrollbackLimit } s.grid.modes
    (s.grid.scrollTop, s.grid.scrollBottom)) hslot
  have hx : min c.x (t.grid.cols - 1) = c.x := by omega
  have hy : min c.y (t.grid.rows - 1) = c.y := by omega
  have hcursor : ((s.broughtBack t true).onGrid (·.setStyleTable st)).cursorState = c := by
    rw [hback]
    change SavedCursor.mk (min c.x (t.grid.cols - 1)) (min c.y (t.grid.rows - 1)) _ _ _ _ _ _ _ = c
    rw [hx, hy]
    rfl
  refine ⟨fun h => hcursor.symm.trans h.1, fun hc => ⟨hcursor.trans hc, ?_, ?_, ?_⟩⟩
  · rw [hback, hc]
    rfl
  · have h₁ := hi.shape.region_le
    have h₂ := hi.shape.region_lt
    rw [hback]
    change min s.grid.scrollTop (t.grid.rows - 1) = _
    rw [hs.rows]
    omega
  · have h₁ := hi.shape.region_le
    have h₂ := hi.shape.region_lt
    rw [hback]
    change max (min s.grid.scrollBottom (t.grid.rows - 1)) (min s.grid.scrollTop (t.grid.rows - 1)) = _
    rw [hs.rows]
    omega

/-- Leaving the alternate screen of mode 1049 restores the cursor exactly when
the last cursor state saved since is the one saved on entry. -/
theorem alt_restores_iff (hs : s.Reachable W) (hmain : s.state.inAltScreen = false) {w : List Event}
    (hw : ∀ e ∈ w, e.StaysAlt) (hrun : s.process W (.decSet 1049 :: w) = some t) :
    ∃ s', t.step W (.decReset 1049) = some s' ∧
      (Restores s s' ↔ (saves W s (.decSet 1049 :: w)).getLast? = some s.cursorState) := by
  have hi := hs.inv
  have hm : 1049 ∈ altModes := by simp [altModes]
  have hsave : s.saveCursor.Inv := Effect.save.inv hi
  have ht₀ : s.saveCursor.switchedToAlt.Inv := hsave.enter hmain
  have hrun₀ : s.saveCursor.switchedToAlt.process W w = some t := by
    rwa [process, List.foldlM_cons, step_decSet hi hmain hm, if_pos rfl] at hrun
  obtain ⟨ht, hshelves⟩ := process_shelves W hw (s := s) ht₀ { (switchedToAlt_parks hsave).toShelves with } hrun₀
  have hslot := process_slot W (fun e he => (hw e he).1) ht₀ hrun₀
  have hlast : (saves W s (.decSet 1049 :: w)).getLast? =
      (saves W s.saveCursor.switchedToAlt w).getLast?.or (some s.cursorState) := by
    have hfirst : s.savesOf (.decSet 1049) = [s.cursorState] := by
      change savesIn [[1049]] s = _
      simp [savesIn, savesParam, hmain]
      split <;> rfl
    rw [saves, step_decSet hi hmain hm, if_pos rfl, List.getLast?_append, hfirst]
    rfl
  rw [show s.saveCursor.switchedToAlt.state.savedCursorState = some s.cursorState from rfl, ← hlast] at hslot
  obtain ⟨c, hc⟩ : ∃ c, (saves W s (.decSet 1049 :: w)).getLast? = some c := by
    rw [hlast]
    cases (saves W s.saveCursor.switchedToAlt w).getLast? with
    | none => exact ⟨_, rfl⟩
    | some c => exact ⟨c, rfl⟩
  have hin := process_slot_inside W ht₀ (fun c hc => by
    obtain rfl := Option.some.inj hc
    exact ⟨hi.shape.cursor_x, hi.shape.cursor_y⟩) hrun₀ c (hslot.trans hc)
  obtain ⟨st, hexit, -⟩ := exit_eq hshelves ht true
  refine ⟨_, (step_decReset hm).trans hexit, ?_⟩
  rw [broughtBack_restores hi hshelves (hslot.trans hc) hin st, hc, Option.some.injEq]

theorem alt_restores_iff_sample : ∃ s t s', (Screen.new 4 2 10).run .sample [.callback (.csi [[31]] [] 'm'), .callback (.print 'a'),
      .callback (.execute 0x0a), .callback (.execute 0x0a), .callback (.print 'b')] = some s ∧
    (s.grid.cursorX = 2 ∧ s.grid.cursorY = 1 ∧ s.grid.scrollbackLen = 1) ∧
    s.process .sample [.decSet 1049, .csi [[1]] [] 'H', .print 'c'] = some t ∧ t.step .sample (.decReset 1049) = some s' ∧
    Restores s s' := by
  obtain ⟨s, t, hrun, hmain, hcursor, halt, hsaves⟩ : ∃ s t, (Screen.new 4 2 10).run .sample [.callback (.csi [[31]] [] 'm'),
      .callback (.print 'a'), .callback (.execute 0x0a), .callback (.execute 0x0a), .callback (.print 'b')] = some s ∧
      s.state.inAltScreen = false ∧ (s.grid.cursorX = 2 ∧ s.grid.cursorY = 1 ∧ s.grid.scrollbackLen = 1) ∧
      s.process .sample [.decSet 1049, .csi [[1]] [] 'H', .print 'c'] = some t ∧
      (saves .sample s [.decSet 1049, .csi [[1]] [] 'H', .print 'c']).getLast? = some s.cursorState :=
    ⟨_, _, rfl, rfl, by decide, rfl, rfl⟩
  have hw : ∀ e ∈ [Event.csi [[1]] [] 'H', .print 'c'], e.StaysAlt := by simp [Event.StaysAlt, Event.Resets, Event.ExitsAlt]
  obtain ⟨s', hs', hiff⟩ := alt_restores_iff .sample ⟨4, 2, 10, _, by decide, by decide, by simp [Action.Sized], hrun⟩ hmain hw halt
  exact ⟨s, t, s', hrun, hcursor, halt, hs', hiff.2 hsaves⟩

/-- A program on the alternate screen that saves the cursor with `ESC 7`
replaces the main screen's. -/
theorem alt_loses_cursor : ∃ t s', (Screen.new 4 2 10).process .sample
      [.decSet 1049, .csi [[2], [3]] [] 'H', .esc [] '7'] = some t ∧
    t.step .sample (.decReset 1049) = some s' ∧ ¬ Restores (Screen.new 4 2 10) s' :=
  ⟨_, _, rfl, rfl, fun h => absurd h.1 (by decide)⟩

end Screen

end Retach
