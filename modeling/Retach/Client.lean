import Retach.ModeSync
import Retach.Handlers
/-!
# The outer terminal in the client's hands (`client/mod.rs`)

On connecting, the client switches focus reporting on; when it leaves it resets
the terminal. In between the terminal belongs to the frames, which set the modes
that the application wants.
-/

open Checked Lists Runs

namespace Retach

/-- `\x1b[?1004h`, sent by `connect`. -/
def enableFocusReporting : Event := .decSet 1004

/-- `cleanup_terminal`. -/
def cleanupTerminal : List Event :=
  [.csi [[0]] [] 'r', .csi [[2]] [] 'J', .csi [[0]] [] 'H', .decSet 25, .decSet 7, .decReset 1, .decReset 2004,
    .decReset 1000, .decReset 1002, .decReset 1003, .decReset 1005, .decReset 1006, .decReset 1004, .decReset 2026,
    .esc [] '>', .csi [[0]] [' '] 'q', .sgrReset]

/-- The modes that `cleanup_terminal` resets. -/
def TerminalModes.cleaned (m : TerminalModes) : TerminalModes :=
  { originMode := m.originMode, g0Charset := m.g0Charset, g1Charset := m.g1Charset, activeCharset := m.activeCharset }

/-- The modes that it leaves alone have their defaults. -/
structure TerminalModes.Cleanable (m : TerminalModes) : Prop where
  origin : m.originMode = false
  g0 : m.g0Charset = .ascii
  g1 : m.g1Charset = .ascii
  active : m.activeCharset = .g0

theorem TerminalModes.cleaned_eq_default {m : TerminalModes} : m.cleaned = {} ↔ m.Cleanable := by
  constructor
  · intro h
    rw [cleaned, TerminalModes.mk.injEq] at h
    obtain ⟨-, -, horigin, -, -, -, -, -, -, hg0, hg1, hactive⟩ := h
    exact ⟨horigin, hg0, hg1, hactive⟩
  · rintro ⟨horigin, hg0, hg1, hactive⟩
    rw [cleaned, horigin, hg0, hg1, hactive]

namespace Screen

variable {W : UnicodeWidth} {T : Screen}

theorem step_mouseEncoding_reset (W : UnicodeWidth) (T : Screen) {code : Nat} (h : code = 1005 ∨ code = 1006) :
    T.step W (.decReset code) = some (T.setModes fun m => { m with mouseEncoding := .x10 }) := by
  rcases h with rfl | rfl <;> rfl

/-- The end of `cleanup_terminal`, from the modes on. -/
theorem process_cleanup_modes (T : Screen) : T.process W (cleanupTerminal.drop 4) =
    some { T.setModes TerminalModes.cleaned with state := { T.state with currentStyle := {} } } := by
  change T.process W [emitDecMode 7 true, emitDecMode 1 false, emitDecMode 2004 false, emitDecMode 1000 false,
    emitDecMode 1002 false, emitDecMode 1003 false, .decReset 1005, .decReset 1006, emitDecMode 1004 false, .decReset 2026,
    emitKeypad false, emitCursorShape .default, .sgrReset] = _
  simp only [process_cons, process_nil, step_autowrapMode, step_cursorKeyMode, step_bracketedPaste, step_mouseClick,
    step_mouseButton, step_mouseAny, step_mouseEncoding_reset W _ (.inl rfl), step_mouseEncoding_reset W _ (.inr rfl),
    step_focusReporting, show ∀ T : Screen, T.step W (.decReset 2026) = some T from fun _ => rfl, step_keypad,
    step_cursorShape, Option.bind_some, setModes_setModes]
  rfl

/-- ED 2 in any style. -/
theorem step_eraseAll (h : T.Inv) :
    ∃ t vis, T.step W (.csi [[2]] [] 'J') = some (T.onGrid fun g => (g.setStyleTable t).replaceVisible vis) := by
  obtain ⟨id, t, hblank, -⟩ := blankCell_inv h
  have hs : (T.grid.setStyleTable t).Shape := { h.shape with }
  refine ⟨t, fill 0 (T.grid.rows - 0) (.filled T.grid.cols { styleId := id }) T.grid.visibleRows, ?_⟩
  change T.csiEraseDisplay 2 = _
  rw [csiEraseDisplay, hblank]
  exact congrArg (Option.bind · _) (hs.eraseRows (Nat.zero_le _) (Nat.le_refl _) { styleId := id })

theorem step_home (h : T.Inv) : T.step W (.csi [[0]] [] 'H') = some (T.cursorAt 0 (T.addressed 0)) :=
  step_cup W h h.shape.cols_pos h.shape.rows_pos

theorem step_show (W : UnicodeWidth) (T : Screen) : T.step W (.decSet 25) = some (T.onGrid (·.setCursorVisible true)) := rfl

/-- `cleanup_terminal` always resets the region, the cursor and the style, and all
modes but origin mode and the character sets. -/
theorem process_cleanup (h : T.Inv) :
    ∃ T', T.process W cleanupTerminal = some T' ∧ T'.grid.scrollTop = 0 ∧ T'.grid.scrollBottom = T'.grid.rows - 1 ∧
      T'.grid.cursorVisible = true ∧ T'.state.currentStyle = {} ∧ T'.grid.modes = T.grid.modes.cleaned := by
  obtain ⟨T₁, hregion, htop, hbottom, hmodes⟩ : ∃ T₁, T.step W (.csi [[0]] [] 'r') = some T₁ ∧ T₁.grid.scrollTop = 0 ∧
      T₁.grid.scrollBottom = T₁.grid.rows - 1 ∧ T₁.grid.modes = T.grid.modes := ⟨_, step_region_full W h, rfl, rfl, rfl⟩
  have h₁ := steps_inv (step_steps W h hregion) h
  obtain ⟨t, vis, herase⟩ := step_eraseAll (W := W) h₁
  let T₂ : Screen := T₁.onGrid fun g => (g.setStyleTable t).replaceVisible vis
  have h₂ : T₂.Inv := steps_inv (step_steps W h₁ herase) h₁
  let T₃ : Screen := (T₂.cursorAt 0 (T₂.addressed 0)).onGrid (·.setCursorVisible true)
  refine ⟨{ T₃.setModes TerminalModes.cleaned with state := { T₃.state with currentStyle := {} } }, ?_, ?_⟩
  · rw [show cleanupTerminal = .csi [[0]] [] 'r' :: .csi [[2]] [] 'J' :: .csi [[0]] [] 'H' :: .decSet 25 ::
      cleanupTerminal.drop 4 from rfl, process_cons, hregion, Option.bind_some, process_cons, herase, Option.bind_some,
      process_cons, step_home h₂, Option.bind_some, process_cons, step_show, Option.bind_some]
    exact process_cleanup_modes T₃
  · exact ⟨htop, hbottom, rfl, rfl, congrArg TerminalModes.cleaned hmodes⟩

end Screen

namespace Mirror

variable {H : Type} [DecidableEq H] {W : UnicodeWidth} {R : RowHash H} {m m' : Mirror H}

/-! ## Detaching -/

/-- The modes that a frame sends. -/
def sentBy (m : Mirror H) : Showing → Option TerminalModes
  | .viewing (.frame _ _) => some m.screen.grid.modes
  | _ => none

/-- The modes that the last frame of a run sends. -/
def lastSent (W : UnicodeWidth) (R : RowHash H) : Mirror H → List Showing → Option TerminalModes
  | _, [] => none
  | m, a :: as =>
    match m.present W R a with
    | none => none
    | some m' => (lastSent W R m' as).or (m.sentBy a)

/-- The terminal has the modes of the last frame, or those it had before. -/
theorem Synced.lastSent (hm : m.Synced) {as : List Showing} (has : ∀ a ∈ as, a.Rendered)
    (hrun : m.presentAll W R as = some m') :
    m'.terminal.grid.modes = (Mirror.lastSent W R m as).getD m.terminal.grid.modes := by
  induction as generalizing m with
  | nil =>
    obtain rfl := Option.some.inj hrun
    rfl
  | cons a as ih =>
    rw [Mirror.presentAll, List.foldlM_cons] at hrun
    obtain ⟨m₁, hstep, hrun⟩ := Option.bind_eq_some_iff.1 hrun
    have ha := has a (List.mem_cons_self ..)
    have hrest := ih (hm.present ha hstep) (fun a ha => has a (List.mem_cons_of_mem _ ha)) hrun
    rw [hrest, Mirror.lastSent, hstep]
    dsimp only
    cases Mirror.lastSent W R m₁ as with
    | some n => rfl
    | none =>
      change m₁.terminal.grid.modes = (m.sentBy a).getD m.terminal.grid.modes
      match a with
      | .viewing (.frame scrollback full) => exact (hm.frame ha hstep).2.2
      | .viewing (.act a) =>
        obtain ⟨s', -, rfl⟩ := Option.map_eq_some_iff.1 hstep
        rfl
      | .invalidate =>
        obtain rfl := Option.some.inj hstep
        rfl

/-- Detached after any frames, the terminal has the full region, a visible cursor
and the default style. It has the default modes exactly if the last frame was
sent with origin mode off and the default character sets. -/
theorem cleanup_iff (hT : m.terminal.Inv) (hmodes : m.terminal.grid.modes = {}) (hfresh : m.cache.lastModes = none)
    {as : List Showing} (has : ∀ a ∈ as, a.Rendered) (hrun : m.presentAll W R as = some m') :
    ∃ T', m'.terminal.process W cleanupTerminal = some T' ∧ T'.grid.scrollTop = 0 ∧
      T'.grid.scrollBottom = T'.grid.rows - 1 ∧ T'.grid.cursorVisible = true ∧ T'.state.currentStyle = {} ∧
      (T'.grid.modes = {} ↔ ∀ n, lastSent W R m as = some n → n.Cleanable) := by
  have hstart : m.Synced := ⟨hT, fun n hn => by rw [hfresh] at hn; cases hn⟩
  obtain ⟨T', hclean, htop, hbottom, hvisible, hstyle, hcleaned⟩ :=
    Screen.process_cleanup (W := W) (hstart.presentAll has hrun).terminal
  refine ⟨T', hclean, htop, hbottom, hvisible, hstyle, ?_⟩
  rw [hcleaned, TerminalModes.cleaned_eq_default, hstart.lastSent has hrun, hmodes]
  cases lastSent W R m as with
  | none => exact iff_of_true ⟨rfl, rfl, rfl, rfl⟩ fun n hn => by cases hn
  | some n => exact ⟨fun h n' hn' => Option.some.inj hn' ▸ h, fun h => h n rfl⟩

/-- An application that used mouse reports and bracketed paste. -/
theorem cleanup_sample : ∃ m' T', presentAll .sample Viewed.rowHash { screen := .new 4 2 10, terminal := .new 4 2 10 }
      [.viewing (.act (.callback (.csi [[1002], [1006], [2004]] ['?'] 'h'))), .viewing (.frame [] true)] = some m' ∧
    m'.terminal.process .sample cleanupTerminal = some T' ∧ T'.grid.modes = {} := by
  obtain ⟨m', hrun, hsent⟩ : ∃ m', presentAll .sample Viewed.rowHash { screen := .new 4 2 10, terminal := .new 4 2 10 }
      [.viewing (.act (.callback (.csi [[1002], [1006], [2004]] ['?'] 'h'))), .viewing (.frame [] true)] = some m' ∧
      lastSent .sample Viewed.rowHash { screen := .new 4 2 10, terminal := .new 4 2 10 }
        [.viewing (.act (.callback (.csi [[1002], [1006], [2004]] ['?'] 'h'))), .viewing (.frame [] true)] =
        some { mouseModes := { button := true }, mouseEncoding := .sgr, bracketedPaste := true } := ⟨_, rfl, rfl⟩
  obtain ⟨T', hclean, -, -, -, -, hiff⟩ := cleanup_iff (W := .sample) (R := Viewed.rowHash)
    (m := { screen := .new 4 2 10, terminal := .new 4 2 10 }) (Screen.new_inv 10 (by decide) (by decide)) rfl rfl
    (by simp [Showing.Rendered]) hrun
  refine ⟨m', T', hrun, hclean, hiff.2 fun n hn => ?_⟩
  obtain rfl := Option.some.inj (hsent.symm.trans hn)
  exact ⟨rfl, rfl, rfl, rfl⟩

/-- Origin mode stays on when the client detaches. -/
theorem cleanup_misses : ∃ m' T', presentAll .sample Viewed.rowHash { screen := .new 4 2 10, terminal := .new 4 2 10 }
      [.viewing (.act (.callback (.csi [[6]] ['?'] 'h'))), .viewing (.frame [] true)] = some m' ∧
    m'.terminal.process .sample cleanupTerminal = some T' ∧ T'.grid.modes ≠ {} := by
  obtain ⟨m', hrun, hinv, hmodes⟩ : ∃ m', presentAll .sample Viewed.rowHash { screen := .new 4 2 10, terminal := .new 4 2 10 }
      [.viewing (.act (.callback (.csi [[6]] ['?'] 'h'))), .viewing (.frame [] true)] = some m' ∧ m'.terminal.Inv ∧
      m'.terminal.grid.modes.originMode = true := by
    have hstart : Synced ({ screen := .new 4 2 10, terminal := .new 4 2 10 } : Mirror (Option Row)) :=
      ⟨Screen.new_inv 10 (by decide) (by decide), fun n hn => by cases hn⟩
    have hrendered : ∀ a ∈ [Showing.viewing (.act (.callback (.csi [[6]] ['?'] 'h'))), .viewing (.frame [] true)],
        a.Rendered := by
      simp [Showing.Rendered]
    exact ⟨_, rfl, (hstart.presentAll (W := .sample) (R := Viewed.rowHash) hrendered rfl).terminal, rfl⟩
  obtain ⟨T', hclean, -, -, -, -, hcleaned⟩ := Screen.process_cleanup (W := .sample) hinv
  refine ⟨m', T', hrun, hclean, ?_⟩
  rw [hcleaned, ne_eq, TerminalModes.cleaned_eq_default]
  intro h
  rw [h.origin] at hmodes
  cases hmodes

/-! ## Focus reporting -/

/-- After a frame the terminal still reports focus changes. -/
def ReportsAfter (W : UnicodeWidth) (R : RowHash H) (m : Mirror H) : Showing → Prop
  | .viewing (.frame scrollback full) => ∀ m', m.present W R (.viewing (.frame scrollback full)) = some m' →
    m'.terminal.grid.modes.focusReporting = true
  | _ => True

/-- The application has asked for focus reports when a frame is made. -/
def AppReports (m : Mirror H) : Showing → Prop
  | .viewing (.frame _ _) => m.screen.grid.modes.focusReporting = true
  | _ => True

/-- The client's focus reporting survives the frames of a run exactly if the
application asks for focus reports whenever a frame is made. -/
theorem focus_iff {T : Screen} (hT : T.Inv) (hconnect : T.step W enableFocusReporting = some m.terminal)
    (hfresh : m.cache.lastModes = none) {as : List Showing} (has : ∀ a ∈ as, a.Rendered)
    (hrun : m.presentAll W R as = some m') :
    m.terminal.grid.modes.focusReporting = true ∧
      (Along (Mirror.present W R) (ReportsAfter W R) m as ↔ Along (Mirror.present W R) AppReports m as) := by
  have hset := (Screen.step_focusReporting W T true).symm.trans hconnect
  have hfocus : m.terminal.grid.modes.focusReporting = true := by rw [← Option.some.inj hset]; rfl
  have hstart : m.Synced :=
    ⟨steps_inv (Screen.step_steps W hT hconnect) hT, fun n hn => by rw [hfresh] at hn; cases hn⟩
  refine ⟨hfocus, Along.congr (I := Synced) (fun m a ha m' hm hstep => hm.present (has a ha) hstep) ?_ hstart hrun⟩
  intro m a ha m' hm hstep
  match a with
  | .viewing (.frame scrollback full) =>
    obtain ⟨-, -, hmodes⟩ := hm.frame (has _ ha) hstep
    rw [ReportsAfter, AppReports, ← hmodes]
    constructor
    · intro h
      exact h m' hstep
    · intro h m'' hm''
      rwa [← Option.some.inj (hstep.symm.trans hm'')]
  | .viewing (.act a) => exact Iff.rfl
  | .invalidate => exact Iff.rfl

/-- An application that asks for focus reports itself. -/
theorem focus_sample : ∃ m', presentAll .sample Viewed.rowHash
      { screen := .new 4 2 10, terminal := (Screen.new 4 2 10).setModes fun m => { m with focusReporting := true } }
      [.viewing (.act (.callback (.csi [[1004]] ['?'] 'h'))), .viewing (.frame [] true)] = some m' ∧
    Along (Mirror.present .sample Viewed.rowHash) (ReportsAfter .sample Viewed.rowHash)
      { screen := .new 4 2 10, terminal := (Screen.new 4 2 10).setModes fun m => { m with focusReporting := true } }
      [.viewing (.act (.callback (.csi [[1004]] ['?'] 'h'))), .viewing (.frame [] true)] := by
  refine ⟨_, rfl, ?_⟩
  refine (focus_iff (W := .sample) (R := Viewed.rowHash) (T := .new 4 2 10)
    (m := { screen := .new 4 2 10, terminal := (Screen.new 4 2 10).setModes fun m => { m with focusReporting := true } })
    (Screen.new_inv 10 (by decide) (by decide)) rfl rfl (by simp [Showing.Rendered]) rfl).2.2 ?_
  exact .cons trivial rfl (.cons rfl rfl trivial)

/-- The first frame of any other session switches focus reporting off. -/
theorem focus_lost : ∃ T m', (Screen.new 4 2 10).step .sample enableFocusReporting = some T ∧
    T.grid.modes.focusReporting = true ∧
    Mirror.present .sample Viewed.rowHash { screen := .new 4 2 10, terminal := T } (.viewing (.frame [] true)) = some m' ∧
    m'.terminal.grid.modes.focusReporting = false := ⟨_, _, rfl, rfl, rfl, rfl⟩

end Mirror

end Retach
