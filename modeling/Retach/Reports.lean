import Retach.Cursor
import Retach.DeferredWrap
import Retach.Keeping
import Retach.SgrText
/-!
# Reports of the cursor's position

In origin mode `CSI 6 n` counts rows from the top of the scroll region, and so
does the CUP that puts the cursor back. That works as long as the cursor is in
the region. The handlers that move it keep it there, but a saved cursor comes
back where it was saved, and the alternate screen leaves the cursor where it is.
-/

open Checked Runs

namespace Retach

/-- What an address is relative to, and the cursor's row. -/
structure Window where
  cursorY : Nat
  scrollTop : Nat
  scrollBottom : Nat
  modes : TerminalModes

namespace Grid

variable {g : Grid} {w : Window}

def window (g : Grid) : Window := ⟨g.cursorY, g.scrollTop, g.scrollBottom, g.modes⟩

/-- The result has window `w`. -/
def Framed (w : Window) (x : Option Grid) : Prop := Ends (fun g => g.window = w) x

/-! ## Grids -/

theorem visibleRowMut_framed (h : g.window = w) (y : Nat) (f : Row → Option Row) : Framed w (g.visibleRowMut y f) :=
  .after fun _ => .after fun _ => .pure h

/-- Painting a grid leaves the cursor in its row, the region and the modes. -/
theorem window_stable (w : Window) : Grid.Stable (fun _ => True) fun g => g.window = w where
  cursorX _ _ h := h
  wrapPending _ _ h := h
  change _ y f _ h := visibleRowMut_framed h y f
  mark _ _ _ _ _ _ _ _ h := h
  rows _ _ _ h := h
  boundary _ _ _ h := h

end Grid

namespace Screen

variable {s : Screen} {w : Window}

/-! ## Screens -/

@[inherit_doc Grid.Framed]
def Framed (w : Window) (x : Option Screen) : Prop := Ends (fun s => s.grid.window = w) x

theorem window_stable (w : Window) : Screen.Stable (fun _ => True) True fun s => s.grid.window = w where
  grid _ := Grid.window_stable w
  mends _ := (Grid.window_stable w).mends Cell.written_any
  intern _ style h := internWithGc_ends (R := fun s => s.grid.window = w) (fun _ => h) style
  scrolledOff _ _ h := h
  passthrough _ _ h := h

/-! ## The cursor in the region -/

/-- In origin mode the cursor is in the scroll region. -/
def InRegion (s : Screen) : Prop :=
  s.grid.modes.originMode = true → s.grid.scrollTop ≤ s.grid.cursorY ∧ s.grid.cursorY ≤ s.grid.scrollBottom

/-- The result has. -/
def Inside (x : Option Screen) : Prop := Ends InRegion x

theorem Framed.inside {x : Option Screen} (hx : Framed s.grid.window x) (hs : s.InRegion) : Inside x := by
  intro s' hs'
  have hw := hx s' hs'
  have hy : s'.grid.cursorY = s.grid.cursorY := congrArg Window.cursorY hw
  have htop : s'.grid.scrollTop = s.grid.scrollTop := congrArg Window.scrollTop hw
  have hbottom : s'.grid.scrollBottom = s.grid.scrollBottom := congrArg Window.scrollBottom hw
  have hmodes : s'.grid.modes = s.grid.modes := congrArg Window.modes hw
  unfold InRegion
  rwa [hy, htop, hbottom, hmodes]

theorem advanceLine_inside (hs : s.InRegion) : Inside s.advanceLine := by
  rw [advanceLine]
  split
  · exact Framed.inside ((window_stable _).scrollUp rfl) hs
  next hbottom =>
    refine .after fun last => ?_
    split
    · refine .bind (P := (· = s.grid.cursorY + 1)) (fun y hy => ?_) fun y hy => .pure fun ho => ?_
      · unfold add16 at hy
        split at hy
        · exact (Option.some.inj hy).symm
        · cases hy
      · -- above the bottom row there is room for one more line
        obtain ⟨htop, hle⟩ := hs ho
        subst hy
        exact ⟨Nat.le_succ_of_le htop, Nat.lt_of_le_of_ne hle hbottom⟩
    · exact .pure hs

theorem performDeferredWrap_inside (hs : s.InRegion) : Inside s.performDeferredWrap :=
  advanceLine_inside (s := s.onGrid fun g => (g.setWrapPending false).setCursorX 0) hs

theorem putChar_inside (hs : s.InRegion) (c : Char) (width : Nat) : Inside (s.putChar c width) :=
  Framed.inside ((window_stable _).putChar rfl c (.inr trivial)) hs

theorem printBase_inside (hs : s.InRegion) (c : Char) (width : Nat) : Inside (s.printBase c width) := by
  unfold printBase
  dsimp only
  split
  all_goals
    refine .after fun cut => ?_
    split
    · split
      · split
        · exact .pure hs
        · refine .bind (Framed.inside ((window_stable _).blankMargin rfl) hs) fun t ht => .bind (performDeferredWrap_inside ht) fun t ht => ?_
          exact putChar_inside ht c width
      · exact .pure hs
    · exact putChar_inside hs c width

theorem print_inside (W : UnicodeWidth) (hs : s.InRegion) (c : Char) : Inside (s.print W c) := by
  let t : Screen := { s with state := { s.state with lastPrintedChar := c } }
  have ht : t.InRegion := hs
  unfold print
  dsimp only
  split
  · exact Framed.inside (s := t) ((window_stable _).handleCombiningMark rfl _) ht
  · split
    · exact .bind (performDeferredWrap_inside ht) fun u hu => printBase_inside hu _ _
    · exact .bind (.pure ht) fun u hu => printBase_inside hu _ _

/-- CUU and CPL stop at the top of the region, CUD and CNL at its bottom. -/
theorem upperStop_le {g : Grid} (h : g.scrollTop ≤ g.cursorY) (n : Nat) :
    g.scrollTop ≤ max (g.cursorY - n) (upperStop g) ∧ max (g.cursorY - n) (upperStop g) ≤ g.cursorY := by
  rw [upperStop, if_pos h]
  omega

theorem lowerStop_le {g : Grid} (h : g.cursorY ≤ g.scrollBottom) (hmax : g.cursorY ≤ u16Max) (n : Nat) {bottom : Nat}
    (hbottom : lowerStop g = some bottom) :
    g.cursorY ≤ min (satAdd16 g.cursorY n) bottom ∧ min (satAdd16 g.cursorY n) bottom ≤ g.scrollBottom := by
  rw [lowerStop, if_pos h, Option.some.injEq] at hbottom
  subst hbottom
  unfold satAdd16
  omega

theorem addressedRow_inside {g : Grid} (h : g.Shape) (ho : g.modes.originMode = true) {row y : Nat} (hy : addressedRow g row = some y) :
    g.scrollTop ≤ y ∧ y ≤ g.scrollBottom := by
  have hle := h.region_le
  have hlt := h.region_lt
  have hrows := h.rows_le
  rw [addressedRow, if_pos ho, Option.some.injEq] at hy
  subst hy
  unfold satAdd16 u16Max
  omega

theorem csiCursorUp_inside (hs : s.InRegion) (n : Nat) : (s.csiCursorUp n).InRegion := fun ho =>
  have h := hs ho
  ⟨(upperStop_le h.1 n).1, Nat.le_trans (upperStop_le h.1 n).2 h.2⟩

theorem csiCursorPrevLine_inside (hs : s.InRegion) (n : Nat) : (s.csiCursorPrevLine n).InRegion := fun ho =>
  have h := hs ho
  ⟨(upperStop_le h.1 n).1, Nat.le_trans (upperStop_le h.1 n).2 h.2⟩

theorem csiCursorDown_inside (h : s.Inv) (hs : s.InRegion) (n : Nat) : Inside (s.csiCursorDown n) := by
  have hmax : s.grid.cursorY ≤ u16Max := Nat.le_of_lt (Nat.lt_of_lt_of_le h.shape.cursor_y h.shape.rows_le)
  refine .bind (P := fun bottom => lowerStop s.grid = some bottom) (fun _ hb => hb) fun bottom hb => .pure fun ho => ?_
  obtain ⟨htop, hbottom⟩ := hs ho
  exact ⟨Nat.le_trans htop (lowerStop_le hbottom hmax n hb).1, (lowerStop_le hbottom hmax n hb).2⟩

theorem csiCursorNextLine_inside (h : s.Inv) (hs : s.InRegion) (n : Nat) : Inside (s.csiCursorNextLine n) := by
  have hmax : s.grid.cursorY ≤ u16Max := Nat.le_of_lt (Nat.lt_of_lt_of_le h.shape.cursor_y h.shape.rows_le)
  refine .bind (P := fun bottom => lowerStop s.grid = some bottom) (fun _ hb => hb) fun bottom hb => .pure fun ho => ?_
  obtain ⟨htop, hbottom⟩ := hs ho
  exact ⟨Nat.le_trans htop (lowerStop_le hbottom hmax n hb).1, (lowerStop_le hbottom hmax n hb).2⟩

theorem csiCursorPosition_inside (h : s.Inv) (row col : Nat) : Inside (s.csiCursorPosition row col) :=
  .bind (P := fun y => addressedRow s.grid row = some y) (fun _ hy => hy) fun _ hy => .after fun _ => .pure fun ho =>
    addressedRow_inside h.shape ho hy

theorem csiLinePositionAbsolute_inside (h : s.Inv) (row : Nat) : Inside (s.csiLinePositionAbsolute row) :=
  .bind (P := fun y => addressedRow s.grid row = some y) (fun _ hy => hy) fun _ hy => .pure fun ho =>
    addressedRow_inside h.shape ho hy

theorem csiSetScrollingRegion_inside (hs : s.InRegion) (top bottom : Nat) : Inside (s.csiSetScrollingRegion top bottom) := by
  refine .after fun last => ?_
  dsimp only
  split
  next hle =>
    refine .pure fun ho => ?_
    have horigin : s.grid.modes.originMode = true := ho
    change top - 1 ≤ (if s.grid.modes.originMode = true then top - 1 else 0) ∧
      (if s.grid.modes.originMode = true then top - 1 else 0) ≤ min (bottom - 1) last
    rw [if_pos horigin]
    exact ⟨Nat.le_refl _, hle⟩
  next => exact .pure hs

/-! ## The cursor brought back -/

/-- The origin mode and the row that `restore_cursor` leaves, from origin mode
`origin`. -/
def restoredTo (s : Screen) (origin : Bool) : Bool × Nat :=
  match s.state.savedCursorState with
  | some saved => (saved.originMode, min saved.y (s.grid.rows - 1))
  | none => (origin, s.grid.cursorY)

/-- `restore_cursor` leaves the cursor in the region, if in origin mode. -/
def RestoresInside (s : Screen) : Prop :=
  (s.restoredTo s.grid.modes.originMode).1 = true →
    s.grid.scrollTop ≤ (s.restoredTo s.grid.modes.originMode).2 ∧ (s.restoredTo s.grid.modes.originMode).2 ≤ s.grid.scrollBottom

/-- So does `exit_alt_screen` with the region that comes back. -/
def ExitsInside (s : Screen) (restore : Bool) : Prop :=
  ∀ modes region, s.state.savedModes = some modes → s.state.savedScrollRegion = some region →
    let back := if restore then s.restoredTo modes.originMode else (modes.originMode, s.grid.cursorY)
    back.1 = true → min region.1 (s.grid.rows - 1) ≤ back.2 ∧
      back.2 ≤ max (min region.2 (s.grid.rows - 1)) (min region.1 (s.grid.rows - 1))

theorem cursorBack_inRegion_iff : s.cursorBack.InRegion ↔ s.RestoresInside := by
  unfold RestoresInside restoredTo InRegion
  cases hsaved : s.state.savedCursorState with
  | none => rw [cursorBack_none hsaved]
  | some saved =>
    rw [cursorBack_some hsaved]
    exact Iff.rfl

theorem restoreCursor_inside (h : s.Inv) (hsaved : s.RestoresInside) : Inside s.restoreCursor := by
  rw [restoreCursor_eq h.shape.cols_pos h.shape.rows_pos]
  exact .pure (cursorBack_inRegion_iff.2 hsaved)

theorem exitAltScreen_inside (h : s.Inv) (hs : s.InRegion) (restore : Bool) (hsaved : s.ExitsInside restore) :
    Inside (s.exitAltScreen restore) := by
  cases halt : s.state.inAltScreen with
  | false =>
    rw [exitAltScreen, if_pos (by simp [halt])]
    exact .pure hs
  | true =>
    obtain ⟨saved, hgrid⟩ := Option.isSome_iff_exists.1 (h.savedGrid.1 halt)
    obtain ⟨modes, hmodes⟩ := Option.isSome_iff_exists.1 (h.savedModes.1 halt)
    obtain ⟨region, hregion⟩ := Option.isSome_iff_exists.1 (h.savedRegion.1 halt)
    have hcompact : ∀ u : Screen, u.InRegion → Inside (some (u.onGrid fun g => compactStyles g none)) := by
      intro u hu
      refine .pure ?_
      unfold compactStyles
      simp only [onGrid]
      split <;> exact hu
    have hback := hsaved modes region hmodes hregion
    rw [exitAltScreen_eq h halt hgrid hmodes hregion]
    cases restore with
    | true => exact hcompact _ (cursorBack_inRegion_iff.2 hback)
    | false => exact hcompact _ hback

theorem switchToAlt_inside (h : s.Inv) : Inside s.switchToAlt := by
  rw [switchToAlt_eq h]
  exact .pure fun _ => ⟨Nat.le_refl 0, Nat.zero_le _⟩

theorem enterAltScreen_inside (h : s.Inv) (hs : s.InRegion) (save : Bool) : Inside (s.enterAltScreen save) := by
  unfold enterAltScreen
  split
  · exact .pure hs
  · split
    · exact switchToAlt_inside (Effect.save.inv h)
    · exact switchToAlt_inside h

/-! ## Modes -/

/-- What the parameter brings back when it is reset is in the region. -/
def ParamInside (s : Screen) : Param → Prop
  | 1048 :: _ => s.RestoresInside
  | 1049 :: _ => s.ExitsInside true
  | 1047 :: _ | 47 :: _ => s.ExitsInside false
  | _ => True

/-- What the event brings back is. -/
def BringsInside (s : Screen) : Event → Prop
  | .esc [] '8' | .csi _ [] 'u' => s.RestoresInside
  | .csi ps ['?'] 'l' => Along (setDecParam false) ParamInside s ps
  | _ => True

theorem setDecMode_inside (h : s.Inv) (hs : s.InRegion) (mode : Nat) (rest : Param) (enable : Bool)
    (hsaved : enable = false → s.ParamInside (mode :: rest)) : Inside (s.setDecMode mode enable) := by
  have hstay : ∀ st, Inside (some { s with state := st }) := fun _ => .pure hs
  have hmodes : ∀ f : TerminalModes → TerminalModes, (∀ m, (f m).originMode = m.originMode) → Inside (some (s.setModes f)) := by
    intro f hf
    refine .pure fun ho => hs ?_
    rw [← hf]
    exact ho
  unfold setDecMode
  split
  · exact hmodes _ fun _ => rfl
  · cases enable with
    | true => exact .pure fun _ => ⟨Nat.le_refl _, h.shape.region_le⟩
    | false => exact .pure fun ho => by cases ho
  · exact hmodes _ fun _ => rfl
  · exact .pure hs
  · exact hmodes _ fun _ => rfl
  · exact hmodes _ fun _ => rfl
  · exact hmodes _ fun _ => rfl
  · exact hmodes _ fun _ => rfl
  · exact hmodes _ fun _ => rfl
  · exact hmodes _ fun _ => rfl
  · split
    · exact hstay _
    next he => exact restoreCursor_inside h (hsaved (by simpa using he))
  · exact hmodes _ fun _ => rfl
  · split
    · exact enterAltScreen_inside h hs true
    next he => exact exitAltScreen_inside h hs true (hsaved (by simpa using he))
  · split
    · exact enterAltScreen_inside h hs false
    next he => exact exitAltScreen_inside h hs false (hsaved (by simpa using he))
  · split
    · exact enterAltScreen_inside h hs false
    next he => exact exitAltScreen_inside h hs false (hsaved (by simpa using he))
  · exact .pure hs

theorem csiSetDecPrivateMode_inside (h : s.Inv) (hs : s.InRegion) (ps : List Param) (enable : Bool)
    (hsaved : enable = false → Along (setDecParam false) ParamInside s ps) : Inside (s.csiSetDecPrivateMode ps enable) := by
  intro s' hs'
  change ps.foldlM (setDecParam enable) s = some s' at hs'
  have halong : Along (setDecParam enable) (fun s p => enable = false → s.ParamInside p) s ps := by
    cases enable with
    | true => exact Along.of_forall (P := fun _ => True) (fun _ _ => trivial) s |>.mono fun _ _ _ he => by cases he
    | false => exact (hsaved rfl).mono fun _ _ hp _ => hp
  refine (halong.keeps (I := fun s => s.Inv ∧ s.InRegion) (fun s p s' hi hp hstep => ⟨setDecParam_inv hi.1 hstep, ?_⟩)
    ⟨h, hs⟩ hs').2
  cases p with
  | nil =>
    obtain rfl := Option.some.inj hstep
    exact hi.2
  | cons mode rest => exact setDecMode_inside hi.1 hi.2 mode rest enable hp s' hstep

/-! ## Dispatching -/

variable (W : UnicodeWidth)

theorem pushTitle_inside (hs : s.InRegion) : Inside s.pushTitle := by
  unfold pushTitle
  split
  · dsimp only
    split
    · exact .after fun _ => .pure hs
    · exact .after fun _ => .pure hs
  · exact .pure hs

theorem popTitle_inside (hs : s.InRegion) : Inside (some s.popTitle) := by
  refine .pure ?_
  unfold popTitle
  split <;> exact hs

theorem csiDispatch_inside (h : s.Inv) (hs : s.InRegion) (ps : List Param) (intermediates : List Char) (action : Char)
    (hsaved : s.BringsInside (.csi ps intermediates action)) : Inside (s.csiDispatch W ps intermediates action) := by
  have hstay : Inside (some s) := .pure hs
  have hframed : ∀ {x : Option Screen}, Framed s.grid.window x → Inside x := fun hx => hx.inside hs
  unfold csiDispatch
  split
  · exact .pure (csiCursorUp_inside hs _)
  · exact csiCursorDown_inside h hs _
  · exact .after fun _ => .pure hs
  · exact .pure hs
  · exact csiCursorNextLine_inside h hs _
  · exact .pure (csiCursorPrevLine_inside hs _)
  · exact .after fun _ => .pure hs
  · exact csiCursorPosition_inside h _ _
  · exact csiCursorPosition_inside h _ _
  · exact csiLinePositionAbsolute_inside h _
  · exact hframed ((window_stable _).csiEraseDisplay rfl _)
  · exact hframed ((window_stable _).csiEraseLine rfl _)
  · exact hframed ((window_stable _).csiEraseCharacter rfl _)
  · exact hframed ((window_stable _).csiDeleteCharacter rfl _)
  · exact hframed ((window_stable _).csiInsertCharacter rfl _)
  · exact .iter (fun _ hs => print_inside W hs _) _ hs
  · exact .pure hs
  · split
    · exact .after fun _ => .pure hs
    · exact hstay
  · split
    · split
      · exact .pure hs
      · split <;> exact .pure hs
    · exact hstay
  · split
    · exact .pure hs
    · exact hstay
  · exact .iter (fun _ hs => Framed.inside ((window_stable _).scrollUp rfl) hs) _ hs
  · split
    · exact .iter (fun _ hs => Framed.inside ((window_stable _).scrollDown rfl) hs) _ hs
    · exact hstay
  · exact hframed ((window_stable _).csiDeleteLines rfl _)
  · exact hframed ((window_stable _).csiInsertLines rfl _)
  · split
    · exact csiSetScrollingRegion_inside hs _ _
    · exact hstay
  · split
    · exact .pure hs
    · exact hstay
  · split
    next hi =>
      subst hi
      exact restoreCursor_inside h hsaved
    next => exact hstay
  · split
    · split <;> exact .pure hs
    · exact hstay
  · split
    · split
      · exact pushTitle_inside hs
      · exact popTitle_inside hs
      · exact hstay
    · exact hstay
  · split
    · exact csiSetDecPrivateMode_inside h hs ps true (by simp)
    · exact hstay
  · split
    next hi =>
      subst hi
      exact csiSetDecPrivateMode_inside h hs ps false fun _ => hsaved
    next => exact hstay
  · exact hstay

theorem execute_inside (hs : s.InRegion) (byte : UInt8) : Inside (s.execute byte) := by
  have hfeed : Inside (s.onGrid (·.setWrapPending false)).advanceLine :=
    advanceLine_inside (s := s.onGrid (·.setWrapPending false)) hs
  unfold execute
  split
  · exact .pure hs
  · exact hfeed
  · exact hfeed
  · exact hfeed
  · exact .pure hs
  · exact .after fun _ => .pure hs
  · exact .pure hs
  · exact .pure hs
  · exact .pure hs
  · exact .pure hs

/-- RI goes up in the region, or scrolls. -/
theorem reverseIndex_inside (hs : s.InRegion) :
    Inside (if s.grid.cursorY = s.grid.scrollTop then s.scrollDown else some (s.onGrid fun g => g.setCursorY (g.cursorY - 1))) := by
  split
  · exact Framed.inside ((window_stable _).scrollDown rfl) hs
  next htop =>
    refine .pure fun ho => ?_
    obtain ⟨hle, hbottom⟩ := hs ho
    exact ⟨Nat.le_sub_one_of_lt (Nat.lt_of_le_of_ne hle (Ne.symm htop)), Nat.le_trans (Nat.sub_le _ _) hbottom⟩

theorem alignmentPattern_inside (h : s.Inv) : Inside s.alignmentPattern := by
  have hhome : s.cornered.InRegion := fun _ => ⟨Nat.le_refl 0, Nat.zero_le _⟩
  rw [alignmentPattern, Grid.resetScrollRegion_eq h.shape.rows_pos, Option.bind_eq_bind, Option.bind_some]
  refine Framed.inside (s := s.cornered) (.bind ((window_stable _).intern _ _ rfl) fun p hp => ?_) hhome
  refine ends_grid (.iterFrom (fun y g hg => ?_) _ _ hp.2)
  exact .iterFrom (fun x g hg => (Grid.window_stable _).setCell ((Grid.window_stable _).mends Cell.written_any) hg x y trivial) _ _ hg

theorem escDispatch_inside (h : s.Inv) (hs : s.InRegion) (intermediates : List Char) (byte : Char)
    (hsaved : s.BringsInside (.esc intermediates byte)) : Inside (s.escDispatch intermediates byte) := by
  unfold escDispatch
  split
  · exact .pure hs
  · exact advanceLine_inside (s := s.onGrid (·.setWrapPending false)) hs
  · exact advanceLine_inside (s := s.onGrid fun g => (g.setCursorX 0).setWrapPending false) hs
  · exact reverseIndex_inside hs
  · exact .pure hs
  · exact restoreCursor_inside h hsaved
  · rw [fullReset_eq h.shape]
    exact .pure fun ho => by cases ho
  · exact .pure hs
  · exact .pure hs
  · exact .pure hs
  · exact .pure hs
  · exact .pure hs
  · exact .pure hs
  · exact alignmentPattern_inside h
  · exact .pure hs

theorem oscDispatch_inside (hs : s.InRegion) (params : List (List UInt8)) (bell : Bool) : Inside (s.oscDispatch params bell) := by
  unfold oscDispatch
  split
  · exact .pure hs
  · dsimp only
    split
    · split
      · split
        · split
          · exact .pure hs
          · exact .after fun _ => .pure hs
        · exact .pure hs
      · exact .pure hs
    · split
      · exact .pure hs
      · exact .pure hs

/-- One callback. -/
theorem step_inside (h : s.Inv) (hs : s.InRegion) (e : Event) (hsaved : s.BringsInside e) : Inside (s.step W e) := by
  cases e with
  | print c => exact print_inside W hs c
  | execute byte => exact execute_inside hs byte
  | csi ps intermediates action => exact csiDispatch_inside W h hs ps intermediates action hsaved
  | esc intermediates byte => exact escDispatch_inside h hs intermediates byte hsaved
  | osc params bell => exact oscDispatch_inside hs params bell

/-! ## Runs -/

/-- What the action brings back is in the region. -/
def ActInside (s : Screen) : Action → Prop
  | .callback e => s.BringsInside e
  | _ => True

theorem act_inRegion {s' : Screen} {a : Action} (h : s.Inv ∧ s.InRegion) (hsized : a.Sized) (hsaved : s.ActInside a)
    (hact : s.act W a = some s') : s'.Inv ∧ s'.InRegion := by
  refine ⟨act_inv W h.1 hsized hact, ?_⟩
  cases a with
  | callback e => exact step_inside W h.1 h.2 e hsaved s' hact
  | resize cols rows =>
    obtain rfl := Option.some.inj ((resize_eq h.1 cols hsized.2).symm.trans hact)
    exact fun _ => ⟨Nat.zero_le _, Nat.min_le_right _ _⟩
  | takeScrollback =>
    obtain rfl := Option.some.inj hact
    exact h.2

theorem run_inRegion {as : List Action} {cols rows limit : Nat} (hcols : cols ≤ 65535) (hrows : rows ≤ 65535)
    (hrun : Along (·.act W) (fun s a => a.Sized ∧ s.ActInside a) (Screen.new cols rows limit) as)
    (hs : (Screen.new cols rows limit).run W as = some s) : s.Inv ∧ s.InRegion :=
  hrun.keeps (I := fun s => s.Inv ∧ s.InRegion) (fun _ _ _ h hP hact => act_inRegion W h hP.1 hP.2 hact)
    ⟨new_inv limit hcols hrows, fun ho => by cases ho⟩ hs

/-! ## Replaying a report -/

/-- `CSI 6 n` queues one response, if there is room, and its parameters, sent
back with CUP, put the cursor where it is. -/
def Replays (s : Screen) : Prop := ∃ text t t', s.cursorReport = some ([0x1b, 0x5b] ++ text ++ [0x52]) ∧
  s.step W (.csi [[6]] [] 'n') = some t ∧
  (s.state.pendingResponses.length < maxPending →
    t.state.pendingResponses = s.state.pendingResponses ++ [[0x1b, 0x5b] ++ text ++ [0x52]]) ∧
  t.step W (.csi (readParams text) [] 'H') = some t' ∧ t'.grid.cursorX = s.grid.cursorX ∧ t'.grid.cursorY = s.grid.cursorY

/-- The row reported, counted from 0. -/
def reportedRow (s : Screen) : Nat :=
  if s.grid.modes.originMode then s.grid.cursorY - s.grid.scrollTop else s.grid.cursorY

/-- The row and the column between `CSI` and `R`. -/
def reportText (s : Screen) : List UInt8 := [0x3b].intercalate ([[s.reportedRow + 1], [s.grid.cursorX + 1]].map Event.paramBytes)

theorem reportedRow_le (s : Screen) : s.reportedRow ≤ s.grid.cursorY := by
  unfold reportedRow
  split
  · exact Nat.sub_le _ _
  · exact Nat.le_refl _

theorem cursorReport_eq (h : s.Inv) : s.cursorReport = some ([0x1b, 0x5b] ++ s.reportText ++ [0x52]) := by
  have hrow : s.reportedRow + 1 ≤ u16Max :=
    Nat.le_trans (Nat.succ_le_of_lt (Nat.lt_of_le_of_lt s.reportedRow_le h.shape.cursor_y)) h.shape.rows_le
  have hcol : s.grid.cursorX + 1 ≤ u16Max := Nat.le_trans h.shape.cursor_x h.shape.cols_le
  change (add16 s.reportedRow 1).bind (fun row => (add16 s.grid.cursorX 1).bind fun col => some _) = _
  rw [add16, if_pos hrow, Option.bind_some, add16, if_pos hcol, Option.bind_some]
  simp [reportText, Event.paramBytes, List.intercalate]

theorem readParams_reportText (h : s.Inv) : readParams s.reportText = [[s.reportedRow + 1], [s.grid.cursorX + 1]] := by
  have hrow : s.reportedRow + 1 ≤ u16Max :=
    Nat.le_trans (Nat.succ_le_of_lt (Nat.lt_of_le_of_lt s.reportedRow_le h.shape.cursor_y)) h.shape.rows_le
  have hcol : s.grid.cursorX + 1 ≤ u16Max := Nat.le_trans h.shape.cursor_x h.shape.cols_le
  refine readParams_intercalate (k := 2) ⟨?_, by simp⟩ (List.cons_ne_nil _ _)
  simpa using ⟨hrow, hcol⟩

/-- The row reported addresses the cursor's row from inside the region only. -/
theorem addressed_reportedRow_iff (h : s.Inv) : s.addressed s.reportedRow = s.grid.cursorY ↔ s.InRegion := by
  have hle := h.shape.region_le
  unfold addressed reportedRow InRegion
  split
  next ho =>
    simp only [ho, forall_const]
    generalize s.grid.cursorY = y
    omega
  next ho => simp [ho]

theorem replays_iff (h : s.Inv) : s.Replays W ↔ s.InRegion := by
  have hreport := cursorReport_eq h
  let t : Screen := { s with state := s.state.pushResponse ([0x1b, 0x5b] ++ s.reportText ++ [0x52]) }
  have hasks : s.step W (.csi [[6]] [] 'n') = some t := by
    change (s.cursorReport.bind fun r => some { s with state := s.state.pushResponse r }) = _
    rw [hreport, Option.bind_some]
  have hqueued : s.state.pendingResponses.length < maxPending →
      t.state.pendingResponses = s.state.pendingResponses ++ [[0x1b, 0x5b] ++ s.reportText ++ [0x52]] := fun hroom =>
    congrArg ScreenState.pendingResponses (if_pos hroom)
  have ht : t.Inv := act_inv W h (a := .callback (.csi [[6]] [] 'n')) trivial hasks
  have hback : t.step W (.csi (readParams s.reportText) [] 'H') = some (t.cursorAt s.grid.cursorX (s.addressed s.reportedRow)) := by
    rw [readParams_reportText h]
    exact step_cup W ht h.shape.cursor_x (Nat.lt_of_le_of_lt s.reportedRow_le h.shape.cursor_y)
  rw [← addressed_reportedRow_iff h]
  constructor
  · rintro ⟨text, u, u', htext, hu, -, hu', -, hy⟩
    obtain rfl : s.reportText = text := by
      have heq := Option.some.inj (hreport.symm.trans htext)
      exact List.append_cancel_left (List.append_cancel_right heq)
    obtain rfl := Option.some.inj (hasks.symm.trans hu)
    obtain rfl := Option.some.inj (hback.symm.trans hu')
    exact hy
  · intro hy
    exact ⟨_, _, _, hreport, hasks, hqueued, hback, rfl, hy⟩

/-- In every state that is reached, the report puts the cursor back if and only
if the cursor is in the region or origin mode is off. It does as long as nothing
is brought back outside. -/
theorem reports_replay {as : List Action} {cols rows limit : Nat} (hcols : cols ≤ 65535) (hrows : rows ≤ 65535)
    (hsized : ∀ a ∈ as, a.Sized) (hs : (Screen.new cols rows limit).run W as = some s) :
    (s.Replays W ↔ s.InRegion) ∧ (Along (·.act W) ActInside (Screen.new cols rows limit) as → s.Replays W) := by
  have hreach : s.Reachable W := ⟨cols, rows, limit, as, hcols, hrows, hsized, hs⟩
  refine ⟨replays_iff W hreach.inv, fun hrun => (replays_iff W hreach.inv).2 ?_⟩
  exact (run_inRegion W hcols hrows ((Along.of_forall hsized _).and hrun) hs).2

theorem reports_replay_sample : ∃ s, (Screen.new 4 4 10).run .sample [.callback (.csi [[2], [3]] [] 'r'),
    .callback (.decSet 6), .callback (.csi [[1]] [] 'B')] = some s ∧ s.grid.cursorY = 2 ∧ s.Replays .sample := by
  obtain ⟨s, hs, hy⟩ : ∃ s, (Screen.new 4 4 10).run .sample [.callback (.csi [[2], [3]] [] 'r'),
      .callback (.decSet 6), .callback (.csi [[1]] [] 'B')] = some s ∧ s.grid.cursorY = 2 := ⟨_, rfl, rfl⟩
  refine ⟨s, hs, hy, (reports_replay .sample (by decide) (by decide) ?_ hs).2 ?_⟩
  · simp [Action.Sized]
  · exact .cons trivial rfl (.cons trivial rfl (.cons trivial rfl trivial))

/-- In origin mode a cursor saved in the first row comes back there, above a
region of the last two rows: reported as in row 1, it goes to the third. -/
theorem restored_above_region : ∃ s t, (Screen.new 4 4 10).run .sample [.callback (.decSet 6), .callback (.csi [[0]] [] 's'),
    .callback (.csi [[3], [4]] [] 'r'), .callback (.csi [[0]] [] 'u')] = some s ∧
    s.cursorReport = some [0x1b, 0x5b, 0x31, 0x3b, 0x31, 0x52] ∧ s.grid.cursorY = 0 ∧
    s.step .sample (.csi [[1], [1]] [] 'H') = some t ∧ t.grid.cursorY = 2 ∧ ¬ s.Replays .sample := by
  obtain ⟨s, t, hs, hreport, hy, hback, hy', hin⟩ : ∃ s t, (Screen.new 4 4 10).run .sample [.callback (.decSet 6),
      .callback (.csi [[0]] [] 's'), .callback (.csi [[3], [4]] [] 'r'), .callback (.csi [[0]] [] 'u')] = some s ∧
      s.cursorReport = some [0x1b, 0x5b, 0x31, 0x3b, 0x31, 0x52] ∧ s.grid.cursorY = 0 ∧
      s.step .sample (.csi [[1], [1]] [] 'H') = some t ∧ t.grid.cursorY = 2 ∧
      s.grid.modes.originMode = true ∧ s.grid.scrollTop = 2 := ⟨_, _, rfl, rfl, rfl, rfl, rfl, rfl, rfl⟩
  have hreach : s.Reachable .sample := ⟨4, 4, 10, _, by decide, by decide, by simp [Action.Sized], hs⟩
  refine ⟨s, t, hs, hreport, hy, hback, hy', ?_⟩
  intro hreplays
  have hle := ((replays_iff .sample hreach.inv).1 hreplays hin.1).1
  omega

end Screen

end Retach
