import Retach.Safety
/-!
# The pending wrap

A character printed in the last column leaves the cursor there with a wrap
pending. Every handler that moves the cursor out of the column drops the wrap,
but a saved cursor brings its wrap back in the column it was saved in, which is
no longer the last one when the screen has become wider.
-/

open Checked Runs

namespace Retach

namespace Screen

/-- A wrap is pending in the last column only. -/
def AtMargin (s : Screen) : Prop := s.grid.wrapPending = true → s.grid.cursorX + 1 = s.grid.cols

/-- The saved cursor, if a wrap was pending, is in the last column or was saved
beyond it. -/
def SavedAtMargin (s : Screen) : Prop :=
  ∀ saved, s.state.savedCursorState = some saved → saved.wrapPending = true → s.grid.cols ≤ saved.x + 1

/-- The parameter brings the saved cursor back when it is reset. -/
def RestoresAt (s : Screen) (p : Param) : Prop := ∃ mode rest, p = mode :: rest ∧
  (mode = 1048 ∨ mode = 1049 ∧ s.state.inAltScreen = true)

/-- `P` holds whenever the event brings the saved cursor back. -/
def EveryRestore (P : Screen → Prop) (s : Screen) : Event → Prop
  | .esc [] '8' => P s
  | .csi _ [] 'u' => P s
  | .csi ps ['?'] 'l' => Along (setDecParam false) (fun s p => s.RestoresAt p → P s) s ps
  | _ => True

/-- The result, if there is one, has the wrap pending in the last column
only. -/
def OnMargin (x : Option Screen) : Prop := ∀ s', x = some s' → s'.AtMargin

theorem atMargin_of_clear {s : Screen} (h : s.grid.wrapPending = false) : s.AtMargin := fun hp => by
  rw [h] at hp
  cases hp

end Screen

/-- Only a move of the cursor can take a pending wrap out of the last column. -/
theorem Effect.atMargin {k : Kind} {s s' : Screen} (h : Effect k s s') (hk : k ≠ .move) (hs : s.AtMargin) : s'.AtMargin := by
  cases h with
  | cursor => exact absurd rfl hk
  | capture id top vis =>
    unfold Screen.AtMargin Grid.captured
    split <;> exact hs
  | enter | reset | resize => exact Screen.atMargin_of_clear rfl
  | _ => exact hs

/-- Printing a mark leaves the cursor in its row. -/
theorem Effect.cursorY {k : Kind} {s s' : Screen} (h : Effect k s s') (hk : k = .other ∨ k = .control) :
    s'.grid.cursorY = s.grid.cursorY := by
  rcases hk with rfl | rfl
  · cases h with
    | capture id top vis =>
      unfold Grid.captured
      dsimp only [Screen.onGrid]
      split <;> rfl
    | _ => rfl
  · cases h with
    | _ => rfl

namespace Screen

variable {s s' : Screen}

/-! ## Putting handlers together -/

theorem OnMargin.stay (hs : s.AtMargin) : OnMargin (some s) := Ends.pure hs

theorem onMargin_clear (h : s.grid.wrapPending = false) : OnMargin (some s) := .stay (atMargin_of_clear h)

theorem OnMargin.bind {x : Option Screen} {f : Screen → Option Screen} (hx : OnMargin x)
    (hf : ∀ s', x = some s' → s'.AtMargin → OnMargin (f s')) : OnMargin (x.bind f) :=
  Ends.bind (P := fun s' => x = some s' ∧ s'.AtMargin) (fun s' hs' => ⟨hs', hx s' hs'⟩) fun s' hs' => hf s' hs'.1 hs'.2

/-- A checked number before a handler. -/
theorem OnMargin.after {α : Type} {x : Option α} {f : α → Option Screen} (hf : ∀ a, OnMargin (f a)) :
    OnMargin (x.bind f) := Ends.after hf

/-- Handlers that leave the cursor alone. -/
theorem onMargin_of_leads {x : Option Screen} (h : Leads Effect (· ≠ .move) s x) (hs : s.AtMargin) : OnMargin x :=
  fun s' hs' => (h s' hs').keeps (fun _ _ _ hk he hs => he.atMargin hk hs) hs

theorem onMargin_of_does {x : Option Screen} (h : Does (· ≠ .move) s x) (hs : s.AtMargin) : OnMargin x :=
  onMargin_of_leads h.leads hs

theorem onMargin_state {st : ScreenState} (hs : s.AtMargin) : OnMargin (some { s with state := st }) := .stay hs

theorem onMargin_modes (hs : s.AtMargin) (f : TerminalModes → TerminalModes) : OnMargin (some (s.setModes f)) := .stay hs

/-! ## Lines -/

theorem advanceLine_onMargin (h : s.Inv) (hs : s.AtMargin) : OnMargin s.advanceLine := by
  rw [advanceLine]
  split
  · exact onMargin_of_does (scrollUp_does (by decide) h) hs
  · refine .after fun bottom => ?_
    split
    · exact .after fun y => .stay hs
    · exact .stay hs

/-- A line feed after the pending wrap has been dropped. -/
theorem lineFeed_onMargin (h : s.Inv) {x : Nat} (hx : x < s.grid.cols) :
    OnMargin (s.onGrid fun g => (g.setWrapPending false).setCursorX x).advanceLine :=
  advanceLine_onMargin ((Effect.cursor x s.grid.cursorY false hx h.shape.cursor_y).inv h) (atMargin_of_clear rfl)

theorem moveBlank_wrapPending {src dst bottom : Nat} {blank : Cell} {g g' : Grid}
    (h : moveBlank src dst bottom blank g = some g') : g'.wrapPending = g.wrapPending := by
  unfold moveBlank at h
  split at h
  · obtain ⟨g₁, hremove, h⟩ := Option.bind_eq_some_iff.1 h
    obtain ⟨-, -, hremove⟩ := Option.bind_eq_some_iff.1 hremove
    obtain ⟨cells, -, h⟩ := Option.bind_eq_some_iff.1 h
    cases hremove
    cases h
    rfl
  · cases h
    rfl

theorem shiftLines_onMargin (h : s.Inv) (hs : s.AtMargin) (n : Nat) {move : Nat → Nat → Cell → Grid → Option Grid}
    (hmove : ∀ y bottom blank g g', move y bottom blank g = some g' → g'.wrapPending = g.wrapPending) :
    OnMargin (s.shiftLines n move) := by
  obtain ⟨id, table, hblank, -⟩ := blankCell_inv h
  rw [shiftLines, hblank]
  simp only [Option.bind_eq_bind, Option.bind_some]
  split
  · intro s' hs'
    obtain ⟨g, hg, hs'⟩ := Option.bind_eq_some_iff.1 hs'
    obtain rfl := Option.some.inj hs'
    exact atMargin_of_clear (iter_keeps (P := fun g => g.wrapPending = false)
      (fun _ _ hp hstep => (hmove _ _ _ _ _ hstep).trans hp) rfl hg)
  · exact .stay hs

/-! ## Printing -/

/-- Only in the last column can the next character be on a wrap still pending. -/
theorem putChar_onMargin (h : s.Inv) (hs : s.AtMargin) (c : Char) {width : Nat} (h0 : width ≠ 0) :
    OnMargin (s.putChar c width) := by
  obtain ⟨id, t, hint, hsteps, -⟩ : ∃ id t, s.internWithGc s.state.currentStyle = some (id, s.onGrid (·.setStyleTable t)) ∧
      Steps Effect (fun _ => True) s (s.onGrid (·.setStyleTable t)) ∧ t.Held id := internWithGc_spec trivial h _
  have hcols := h.shape.cols_pos
  obtain ⟨row, hrow, -⟩ := h.shape.hasRow h.shape.cursor_y
  intro s' hs'
  have hfits : s.grid.cursorX + width ≤ 65535 := Nat.le_of_not_lt fun hsum => by
    rw [putChar_overflows h c hsum] at hs'
    cases hs'
  obtain rfl := Option.some.inj ((putChar_eq h hint hrow hfits).symm.trans hs')
  intro hp
  simp only [onGrid, passed] at hp ⊢
  split at hp
  next hroom =>
    have hx := hs hp
    have hroom' : s.grid.cursorX + width < s.grid.cols := hroom
    omega
  next hend =>
    rw [if_neg hend]
    split <;> exact Nat.sub_add_cancel hcols

theorem performDeferredWrap_onMargin (h : s.Inv) : OnMargin s.performDeferredWrap := lineFeed_onMargin h h.shape.cols_pos

theorem printBase_onMargin (h : s.Inv) (hs : s.AtMargin) (c : Char) {width : Nat} (h0 : width ≠ 0) :
    OnMargin (s.printBase c width) := by
  rw [printBase_eq h.shape.cols_pos]
  split
  next hwide =>
    split
    next =>
      have hblank : Does (· ≠ .move) s s.blankMargin := blankMargin_does (by decide) h hwide.2 (by simp)
      apply (onMargin_of_does hblank hs).bind
      intro s₁ hs₁ _
      have h₁ := steps_inv (hblank.leads s₁ hs₁) h
      apply (performDeferredWrap_onMargin h₁).bind
      intro s₂ hs₂ hm₂
      have hwrap : Does (fun _ => True) s₁ s₁.performDeferredWrap := performDeferredWrap_does trivial trivial h₁
      exact putChar_onMargin (steps_inv (hwrap.leads s₂ hs₂) h₁) hm₂ c h0
    next => exact .stay hs
  next => exact putChar_onMargin h hs c h0

variable (W : UnicodeWidth)

theorem print_onMargin (h : s.Inv) (hs : s.AtMargin) (c : Char) : OnMargin (s.print W c) := by
  have h₁ := noted_inv h c
  rw [print_eq]
  split
  · exact onMargin_of_does (handleCombiningMark_does (by decide) h₁ _ (by simp)) hs
  next h0 =>
    split
    · apply (performDeferredWrap_onMargin h₁).bind
      intro s₂ hs₂ hm₂
      have hwrap : Does (fun _ => True) (s.noted c) (s.noted c).performDeferredWrap :=
        performDeferredWrap_does trivial trivial h₁
      exact printBase_onMargin (steps_inv (hwrap.leads s₂ hs₂) h₁) hm₂ _ h0
    · exact printBase_onMargin h₁ hs _ h0

theorem repeat_onMargin (h : s.Inv) (hs : s.AtMargin) (c : Char) (n : Nat) :
    OnMargin (iter (fun s => s.print W c) n s) := fun _ hs' =>
  (iter_keeps (P := fun s => s.Inv ∧ s.AtMargin) (fun _ s₂ hp hstep =>
    ⟨steps_inv ((print_leads W trivial trivial hp.1 c (fun _ => trivial) (fun _ => trivial) :
      Leads Effect (fun _ => True) _ _) s₂ hstep) hp.1, print_onMargin W hp.1 hp.2 c s₂ hstep⟩) ⟨h, hs⟩ hs').2

/-! ## The saved cursor -/

theorem cursorBack_atMargin (h : s.Inv) (hs : s.AtMargin) (hsaved : s.SavedAtMargin) : s.cursorBack.AtMargin := by
  cases hc : s.state.savedCursorState with
  | none => rwa [cursorBack_none hc]
  | some saved =>
    rw [cursorBack_some hc]
    intro hp
    have hcols := h.shape.cols_pos
    have hx := hsaved saved hc hp
    change min saved.x (s.grid.cols - 1) + 1 = s.grid.cols
    omega

theorem restoreCursor_onMargin (h : s.Inv) (hs : s.AtMargin) (hsaved : s.SavedAtMargin) : OnMargin s.restoreCursor := by
  rw [restoreCursor_eq h.shape.cols_pos h.shape.rows_pos]
  exact .stay (cursorBack_atMargin h hs hsaved)

theorem exitAltScreen_onMargin (h : s.Inv) (hs : s.AtMargin) (restore : Bool)
    (hsaved : restore = true → s.state.inAltScreen = true → s.SavedAtMargin) : OnMargin (s.exitAltScreen restore) := by
  cases halt : s.state.inAltScreen with
  | false =>
    rw [exitAltScreen, if_pos (by simp [halt])]
    exact .stay hs
  | true =>
    obtain ⟨saved, hgrid⟩ := Option.isSome_iff_exists.1 (h.savedGrid.1 halt)
    obtain ⟨modes, hmodes⟩ := Option.isSome_iff_exists.1 (h.savedModes.1 halt)
    obtain ⟨region, hregion⟩ := Option.isSome_iff_exists.1 (h.savedRegion.1 halt)
    have hexit : Effect .exit s (s.switchedBack saved modes region) := .exit saved modes region hgrid hmodes hregion
    have hm := hexit.atMargin (by decide) hs
    have hcompact : ∀ u : Screen, u.AtMargin → OnMargin (some (u.onGrid fun g => compactStyles g none)) := by
      intro u hu
      refine .stay ?_
      unfold compactStyles
      simp only [onGrid]
      split <;> exact hu
    rw [exitAltScreen_eq h halt hgrid hmodes hregion]
    cases restore with
    | true => exact hcompact _ (cursorBack_atMargin (hexit.inv h) hm (hsaved rfl halt))
    | false => exact hcompact _ hm

/-! ## Modes -/

theorem setDecMode_onMargin (h : s.Inv) (hs : s.AtMargin) (mode : Nat) (enable : Bool)
    (hsaved : enable = false → (mode = 1048 ∨ mode = 1049 ∧ s.state.inAltScreen = true) → s.SavedAtMargin) :
    OnMargin (s.setDecMode mode enable) := by
  have hmodes : ∀ f, OnMargin (some (s.setModes f)) := onMargin_modes hs
  unfold setDecMode
  split
  · exact hmodes _
  · split
    · exact onMargin_clear rfl
    · exact hmodes _
  · exact hmodes _
  · exact .stay hs
  · exact hmodes _
  · exact hmodes _
  · exact hmodes _
  · exact hmodes _
  · exact hmodes _
  · exact hmodes _
  · split
    · exact .stay hs
    next he => exact restoreCursor_onMargin h hs (hsaved (by simpa using he) (.inl rfl))
  · exact hmodes _
  · split
    · exact onMargin_of_does (enterAltScreen_does h true (by simp) (by decide)) hs
    next he => exact exitAltScreen_onMargin h hs true fun _ halt => hsaved (by simpa using he) (.inr ⟨rfl, halt⟩)
  · split
    · exact onMargin_of_does (enterAltScreen_does h false (by simp) (by decide)) hs
    · exact exitAltScreen_onMargin h hs false (by simp)
  · split
    · exact onMargin_of_does (enterAltScreen_does h false (by simp) (by decide)) hs
    · exact exitAltScreen_onMargin h hs false (by simp)
  · exact .stay hs

theorem setDecParam_inv {enable : Bool} {p : Param} (h : s.Inv) (hstep : setDecParam enable s p = some s') : s'.Inv := by
  cases p with
  | nil =>
    obtain rfl := Option.some.inj hstep
    exact h
  | cons mode rest =>
    have hdoes : Does (fun _ => True) s (s.setDecMode mode enable) :=
      setDecMode_does trivial trivial trivial h mode enable (fun _ _ => trivial) (fun _ _ => trivial) (fun _ _ => trivial)
    exact steps_inv (hdoes.leads s' hstep) h

theorem csiSetDecPrivateMode_onMargin (h : s.Inv) (hs : s.AtMargin) (ps : List Param) (enable : Bool)
    (hsaved : enable = false → Along (setDecParam false) (fun s p => s.RestoresAt p → s.SavedAtMargin) s ps) :
    OnMargin (s.csiSetDecPrivateMode ps enable) := by
  intro s' hs'
  change ps.foldlM (setDecParam enable) s = some s' at hs'
  have halong : Along (setDecParam enable) (fun s p => enable = false → s.RestoresAt p → s.SavedAtMargin) s ps := by
    cases enable with
    | true => exact Along.of_forall (P := fun _ => True) (fun _ _ => trivial) s |>.mono fun _ _ _ he => by cases he
    | false => exact (hsaved rfl).mono fun _ _ hp _ => hp
  refine (halong.keeps (I := fun s => s.Inv ∧ s.AtMargin) (fun s p s' hi hp hstep => ⟨setDecParam_inv hi.1 hstep, ?_⟩)
    ⟨h, hs⟩ hs').2
  cases p with
  | nil =>
    obtain rfl := Option.some.inj hstep
    exact hi.2
  | cons mode rest =>
    exact setDecMode_onMargin hi.1 hi.2 mode enable (fun he hm => hp he ⟨mode, rest, rfl, hm⟩) s' hstep

/-! ## Dispatching -/

theorem csiDispatch_onMargin (h : s.Inv) (hs : s.AtMargin) (ps : List Param) (intermediates : List Char) (action : Char)
    (hsaved : EveryRestore SavedAtMargin s (.csi ps intermediates action)) :
    OnMargin (s.csiDispatch W ps intermediates action) := by
  have hstay : OnMargin (some s) := .stay hs
  unfold csiDispatch
  split
  · exact onMargin_clear rfl
  · exact .after fun _ => onMargin_clear rfl
  · exact .after fun _ => onMargin_clear rfl
  · exact onMargin_clear rfl
  · exact .after fun _ => onMargin_clear rfl
  · exact onMargin_clear rfl
  · exact .after fun _ => onMargin_clear rfl
  · exact .after fun _ => .after fun _ => onMargin_clear rfl
  · exact .after fun _ => .after fun _ => onMargin_clear rfl
  · exact .after fun _ => onMargin_clear rfl
  · exact onMargin_of_does (csiEraseDisplay_does (by decide) h _ (by simp)) hs
  · exact onMargin_of_does (csiEraseLine_does (by decide) h _) hs
  · exact onMargin_of_does (csiEraseCharacter_does (by decide) h _) hs
  · exact onMargin_of_does (csiDeleteCharacter_does (by decide) h _) hs
  · exact onMargin_of_does (csiInsertCharacter_does (by decide) h _) hs
  · exact repeat_onMargin W h hs _ _
  · exact onMargin_state hs
  · split
    · exact .after fun _ => onMargin_state hs
    · exact hstay
  · split
    · split
      · exact onMargin_state hs
      · split <;> exact .stay hs
    · exact hstay
  · split
    · exact .stay hs
    · exact hstay
  · exact onMargin_of_does (csiScrollUpN_does (by decide) h _) hs
  · split
    · exact onMargin_of_does (csiScrollDownN_does (by decide) h _) hs
    · exact hstay
  · exact shiftLines_onMargin h hs _ fun _ _ _ _ _ => moveBlank_wrapPending
  · exact shiftLines_onMargin h hs _ fun _ _ _ _ _ => moveBlank_wrapPending
  · split
    · refine .after fun last => ?_
      dsimp only
      split
      · exact onMargin_clear rfl
      · exact hstay
    · exact hstay
  · split
    · exact .stay hs
    · exact hstay
  · split
    next hi =>
      subst hi
      exact restoreCursor_onMargin h hs hsaved
    next => exact hstay
  · split
    · split <;> exact .stay hs
    · exact hstay
  · split
    · split
      · exact onMargin_of_leads (pushTitle_leads (by decide)) hs
      · exact onMargin_of_does (popTitle_does (by decide)) hs
      · exact hstay
    · exact hstay
  · split
    · exact csiSetDecPrivateMode_onMargin h hs ps true (by simp)
    · exact hstay
  · split
    next hi =>
      subst hi
      exact csiSetDecPrivateMode_onMargin h hs ps false fun _ => hsaved
    next => exact hstay
  · exact hstay

theorem execute_onMargin (h : s.Inv) (hs : s.AtMargin) (byte : UInt8) : OnMargin (s.execute byte) := by
  have hfeed : OnMargin (s.onGrid (·.setWrapPending false)).advanceLine := lineFeed_onMargin h h.shape.cursor_x
  unfold execute
  split
  · exact onMargin_clear rfl
  · exact hfeed
  · exact hfeed
  · exact hfeed
  · exact onMargin_clear rfl
  · exact .after fun _ => onMargin_clear rfl
  · exact onMargin_modes hs _
  · exact onMargin_modes hs _
  · exact onMargin_state hs
  · exact .stay hs

theorem escDispatch_onMargin (h : s.Inv) (hs : s.AtMargin) (intermediates : List Char) (byte : Char)
    (hsaved : EveryRestore SavedAtMargin s (.esc intermediates byte)) : OnMargin (s.escDispatch intermediates byte) := by
  unfold escDispatch
  split
  · exact .stay hs
  · exact lineFeed_onMargin h h.shape.cursor_x
  · exact lineFeed_onMargin h h.shape.cols_pos
  · split
    · exact onMargin_of_does (scrollDown_does (by decide) h) hs
    · exact .stay hs
  · exact .stay hs
  · exact restoreCursor_onMargin h hs hsaved
  · exact onMargin_of_does (fullReset_does (by decide) (by decide) h) hs
  · exact onMargin_modes hs _
  · exact onMargin_modes hs _
  · exact onMargin_modes hs _
  · exact onMargin_modes hs _
  · exact onMargin_modes hs _
  · exact onMargin_modes hs _
  · exact onMargin_of_does (alignmentPattern_fills (by decide) h) (atMargin_of_clear rfl)
  · exact .stay hs

theorem oscDispatch_onMargin (hs : s.AtMargin) (params : List (List UInt8)) (bell : Bool) :
    OnMargin (s.oscDispatch params bell) := by
  unfold oscDispatch
  split
  · exact .stay hs
  · dsimp only
    split
    · split
      · split
        · split
          · exact onMargin_state hs
          · exact .after fun _ => onMargin_state hs
        · exact .stay hs
      · exact .stay hs
    · split
      · exact onMargin_state hs
      · exact onMargin_state hs

/-- One callback. -/
theorem step_onMargin (h : s.Inv) (hs : s.AtMargin) (e : Event) (hsaved : EveryRestore SavedAtMargin s e) :
    OnMargin (s.step W e) := by
  cases e with
  | print c => exact print_onMargin W h hs c
  | execute byte => exact execute_onMargin h hs byte
  | csi ps intermediates action => exact csiDispatch_onMargin W h hs ps intermediates action hsaved
  | esc intermediates byte => exact escDispatch_onMargin h hs intermediates byte hsaved
  | osc params bell => exact oscDispatch_onMargin hs params bell

/-! ## Runs -/

/-- No cursor comes back that was saved with a pending wrap left of the last
column. -/
def ActRestores (s : Screen) : Action → Prop
  | .callback e => EveryRestore SavedAtMargin s e
  | _ => True

theorem act_atMargin {a : Action} (h : s.Inv ∧ s.AtMargin) (hsized : a.Sized) (hsaved : s.ActRestores a)
    (hact : s.act W a = some s') : s'.Inv ∧ s'.AtMargin := by
  refine ⟨act_inv W h.1 hsized hact, ?_⟩
  cases a with
  | callback e => exact step_onMargin W h.1 h.2 e hsaved s' hact
  | resize cols rows => exact onMargin_of_does (resize_does (by decide) h.1 hsized.1 hsized.2) h.2 s' hact
  | takeScrollback =>
    obtain rfl := Option.some.inj hact
    exact h.2

theorem run_atMargin {as : List Action} {cols rows limit : Nat} (hcols : cols ≤ 65535) (hrows : rows ≤ 65535)
    (hrun : Along (·.act W) (fun s a => a.Sized ∧ s.ActRestores a) (Screen.new cols rows limit) as)
    (hs : (Screen.new cols rows limit).run W as = some s) : s.Inv ∧ s.AtMargin :=
  hrun.keeps (I := fun s => s.Inv ∧ s.AtMargin) (fun _ _ _ h hP hact => act_atMargin W h hP.1 hP.2 hact)
    ⟨new_inv limit hcols hrows, atMargin_of_clear rfl⟩ hs

/-! ## Printing with room left -/

/-- The line has `width` columns left for the next character. -/
def HasRoom (s : Screen) (width : Nat) : Prop :=
  s.grid.cursorX + (if s.grid.wrapPending = true then 1 else 0) + width ≤ s.grid.cols

theorem putChar_cursorY (h : s.Inv) {c : Char} {width : Nat} (hs' : s.putChar c width = some s') :
    s'.grid.cursorY = s.grid.cursorY := by
  obtain ⟨id, t, hint, -, -⟩ : ∃ id t, s.internWithGc s.state.currentStyle = some (id, s.onGrid (·.setStyleTable t)) ∧
      Steps Effect (fun _ => True) s (s.onGrid (·.setStyleTable t)) ∧ t.Held id := internWithGc_spec trivial h _
  obtain ⟨row, hrow, -⟩ := h.shape.hasRow h.shape.cursor_y
  have hfits : s.grid.cursorX + width ≤ 65535 := Nat.le_of_not_lt fun hsum => by
    rw [putChar_overflows h c hsum] at hs'
    cases hs'
  obtain rfl := Option.some.inj ((putChar_eq h hint hrow hfits).symm.trans hs')
  exact passed_cursorY width _

/-- With the wrap pending in the last column only, a character that has room
stays on its line. -/
theorem AtMargin.print_stays (hs : s.AtMargin) (h : s.Inv) {c : Char} (hroom : s.HasRoom (W.charWidth (s.mapCharset c)))
    (hs' : s.print W c = some s') : s'.grid.cursorY = s.grid.cursorY := by
  have h₁ := noted_inv h c
  unfold HasRoom at hroom
  by_cases h0 : W.charWidth (s.mapCharset c) = 0
  · rw [print_eq, if_pos h0] at hs'
    have hmark : Does (fun k => k = .other ∨ k = .control) (s.noted c) ((s.noted c).handleCombiningMark (s.mapCharset c)) :=
      handleCombiningMark_does (.inl rfl) h₁ _ fun _ _ => .inr rfl
    exact (hmark.leads s' hs').keeps (P := fun t => t.grid.cursorY = s.grid.cursorY)
      (fun _ _ _ hk he ht => (he.cursorY hk).trans ht) rfl
  · have hclear : s.grid.wrapPending = false := by
      cases hp : s.grid.wrapPending with
      | false => rfl
      | true =>
        have hx := hs hp
        simp only [hp, if_true] at hroom
        omega
    simp only [hclear, Bool.false_eq_true, if_false, Nat.add_zero] at hroom
    rw [print_within W h h0 (by simp [hclear]) (by omega)] at hs'
    exact (putChar_cursorY h₁ hs').trans rfl

/-- From a new screen on, as long as no step brings back a cursor that was saved
with a pending wrap left of the last column, a wrap is pending in the last
column only, and a character that has room does not wrap. -/
theorem wrap_at_margin {as : List Action} {cols rows limit : Nat} (hcols : cols ≤ 65535) (hrows : rows ≤ 65535)
    (hrun : Along (·.act W) (fun s a => a.Sized ∧ s.ActRestores a) (Screen.new cols rows limit) as)
    (hs : (Screen.new cols rows limit).run W as = some s) :
    (s.grid.wrapPending = true → s.grid.cursorX + 1 = s.grid.cols) ∧
    (∀ c s', s.HasRoom (W.charWidth (s.mapCharset c)) → s.step W (.print c) = some s' →
      s'.grid.cursorY = s.grid.cursorY) := by
  obtain ⟨h, hm⟩ := run_atMargin W hcols hrows hrun hs
  exact ⟨hm, fun c s' hroom hprint => hm.print_stays W h hroom hprint⟩

theorem wrap_at_margin_sample : ∃ s, (Screen.new 2 2 10).run .sample [.callback (.print 'a'), .callback (.print 'b'),
    .callback (.esc [] '7'), .callback (.execute 0x0d), .callback (.esc [] '8')] = some s ∧
    s.grid.wrapPending = true ∧ s.grid.cursorX + 1 = s.grid.cols := by
  obtain ⟨s, hrun, hp⟩ : ∃ s, (Screen.new 2 2 10).run .sample [.callback (.print 'a'), .callback (.print 'b'),
      .callback (.esc [] '7'), .callback (.execute 0x0d), .callback (.esc [] '8')] = some s ∧ s.grid.wrapPending = true :=
    ⟨_, rfl, rfl⟩
  refine ⟨s, hrun, hp, (wrap_at_margin .sample (by decide) (by decide) ?_ hrun).1 hp⟩
  refine .cons ⟨trivial, trivial⟩ rfl (.cons ⟨trivial, trivial⟩ rfl (.cons ⟨trivial, trivial⟩ rfl (.cons ⟨trivial, trivial⟩ rfl
    (.cons ⟨trivial, ?_⟩ rfl trivial))))
  intro saved hsaved _
  have hx : saved.x = 1 := congrArg SavedCursor.x (Option.some.inj hsaved).symm
  rw [hx]
  decide

/-- A cursor saved in the second of two columns, with the wrap pending, comes
back to a screen of four: the next character goes to the next line. -/
theorem wrap_left_of_margin : ∃ s s', (Screen.new 2 2 10).run .sample [.callback (.print 'a'), .callback (.print 'b'),
    .callback (.esc [] '7'), .resize 4 2, .callback (.esc [] '8')] = some s ∧
    s.grid.wrapPending = true ∧ s.grid.cursorX = 1 ∧ s.grid.cols = 4 ∧
    s.step .sample (.print 'c') = some s' ∧ s.grid.cursorY = 0 ∧ s'.grid.cursorY = 1 :=
  ⟨_, _, rfl, rfl, rfl, rfl, rfl, rfl, rfl⟩

end Screen

end Retach
