import Mathlib.Tactic.Tauto
import Retach.Render
/-!
# Mode events on a terminal

A frame ends with the events that set the terminal's modes: all of them, or
those that have changed. Either way the terminal's modes are then the
screen's.
-/

open Checked

namespace Retach

/-! ## What is sent -/

/-- A change sends nothing that all modes would not. -/
theorem mem_emitMode_of_mem_emitModeDelta {m prev : TerminalModes} {e : Event} (he : e ∈ emitModeDelta m prev) : e ∈ emitMode m := by
  simp only [emitModeDelta, onChange, List.mem_append, List.mem_ite_nil_right, List.mem_singleton] at he
  simp only [emitMode, List.mem_append, List.mem_cons, List.not_mem_nil, or_false]
  tauto

theorem mem_emitMode_of_mem_modeEvents {m : TerminalModes} {full : Bool} {last : Option TerminalModes} {e : Event}
    (he : e ∈ modeEvents m full last) : e ∈ emitMode m := by
  unfold modeEvents at he
  split at he
  · split at he
    · exact mem_emitMode_of_mem_emitModeDelta he
    · exact he
  · exact he

namespace Screen

variable (W : UnicodeWidth) (T : Screen)

theorem process_nil : T.process W [] = some T := rfl

theorem process_cons (e : Event) (es : List Event) : T.process W (e :: es) = (T.step W e).bind (·.process W es) := by
  rw [process, List.foldlM_cons]
  rfl

theorem process_append (es es' : List Event) : T.process W (es ++ es') = (T.process W es).bind (·.process W es') := by
  rw [process, List.foldlM_append]
  rfl

theorem process_one (e : Event) : T.process W [e] = T.step W e := by
  rw [process_cons]
  cases T.step W e <;> rfl

/-- The cursor at the top of the scroll region, where DECOM puts it when
`home`. -/
def homed (home : Bool) : Screen :=
  if home then T.onGrid fun g => ((g.setCursorX 0).setCursorY g.scrollTop).setWrapPending false else T

theorem setModes_setModes (f g : TerminalModes → TerminalModes) :
    (T.setModes f).setModes g = T.setModes fun m => g (f m) := rfl

theorem homed_setModes (home : Bool) (f : TerminalModes → TerminalModes) :
    (T.setModes f).homed home = (T.homed home).setModes f := by
  cases home <;> rfl

theorem homed_modes (home : Bool) : (T.homed home).grid.modes = T.grid.modes := by
  cases home <;> rfl

/-! ## Single modes -/

theorem step_cursorShape (shape : CursorShape) :
    T.step W (emitCursorShape shape) = some (T.setModes fun m => { m with cursorShape := shape }) := by
  cases shape <;> rfl

theorem step_cursorKeyMode (b : Bool) :
    T.step W (emitDecMode 1 b) = some (T.setModes fun m => { m with cursorKeyMode := b }) := by
  cases b <;> rfl

theorem step_originMode (b : Bool) :
    T.step W (emitDecMode 6 b) = some ((T.homed b).setModes fun m => { m with originMode := b }) := by
  cases b <;> rfl

theorem step_autowrapMode (b : Bool) :
    T.step W (emitDecMode 7 b) = some (T.setModes fun m => { m with autowrapMode := b }) := by
  cases b <;> rfl

theorem step_bracketedPaste (b : Bool) :
    T.step W (emitDecMode 2004 b) = some (T.setModes fun m => { m with bracketedPaste := b }) := by
  cases b <;> rfl

theorem step_mouseClick (b : Bool) :
    T.step W (emitDecMode 1000 b) = some (T.setModes fun m => { m with mouseModes := { m.mouseModes with click := b } }) := by
  cases b <;> rfl

theorem step_mouseButton (b : Bool) :
    T.step W (emitDecMode 1002 b) = some (T.setModes fun m => { m with mouseModes := { m.mouseModes with button := b } }) := by
  cases b <;> rfl

theorem step_mouseAny (b : Bool) :
    T.step W (emitDecMode 1003 b) = some (T.setModes fun m => { m with mouseModes := { m.mouseModes with any := b } }) := by
  cases b <;> rfl

theorem process_mouseEncoding (encoding : MouseEncoding) :
    T.process W (emitMouseEncoding encoding) = some (T.setModes fun m => { m with mouseEncoding := encoding }) := by
  cases encoding <;> rfl

theorem step_focusReporting (b : Bool) :
    T.step W (emitDecMode 1004 b) = some (T.setModes fun m => { m with focusReporting := b }) := by
  cases b <;> rfl

theorem step_keypad (b : Bool) : T.step W (emitKeypad b) = some (T.setModes fun m => { m with keypadAppMode := b }) := by
  cases b <;> rfl

theorem step_g0Charset (charset : Charset) :
    T.step W (emitCharset '(' charset) = some (T.setModes fun m => { m with g0Charset := charset }) := by
  cases charset <;> rfl

theorem step_g1Charset (charset : Charset) :
    T.step W (emitCharset ')' charset) = some (T.setModes fun m => { m with g1Charset := charset }) := by
  cases charset <;> rfl

theorem step_active (active : ActiveCharset) :
    T.step W (emitActive active) = some (T.setModes fun m => { m with activeCharset := active }) := by
  cases active <;> rfl

/-! ## All modes -/

/-- The terminal takes over all modes. -/
theorem process_emitMode (m : TerminalModes) :
    T.process W (emitMode m) = some ((T.homed m.originMode).setModes fun _ => m) := by
  simp only [emitMode, process_append, process_cons, process_nil, process_mouseEncoding, step_cursorShape,
    step_cursorKeyMode, step_originMode, step_autowrapMode, step_bracketedPaste, step_mouseClick, step_mouseButton,
    step_mouseAny, step_focusReporting, step_keypad, step_g0Charset, step_g1Charset, step_active, Option.bind_some,
    setModes_setModes, homed_setModes]

theorem setModes_self {T : Screen} {f : TerminalModes → TerminalModes} (h : f T.grid.modes = T.grid.modes) :
    T.setModes f = T := by
  rw [setModes, onGrid, h]
  rfl

/-- Modes sent if they have changed. -/
theorem process_onChange {α : Type} [DecidableEq α] {a p : α} {es : List Event} {T : Screen}
    {f : TerminalModes → TerminalModes} (hes : T.process W es = some (T.setModes f))
    (hsame : a = p → f T.grid.modes = T.grid.modes) : T.process W (onChange a p es) = some (T.setModes f) := by
  unfold onChange
  split
  · exact hes
  next h => rw [process_nil, setModes_self (hsame (Decidable.not_not.1 h))]

theorem step_onChange {α : Type} [DecidableEq α] {a p : α} {e : Event} {T : Screen} {f : TerminalModes → TerminalModes}
    (he : T.step W e = some (T.setModes f)) (hsame : a = p → f T.grid.modes = T.grid.modes) :
    T.process W (onChange a p [e]) = some (T.setModes f) :=
  process_onChange W ((process_one W T e).trans he) hsame

/-- DECOM, sent if it has changed. -/
theorem step_onChange_origin (m p : Bool) (hp : T.grid.modes.originMode = p) :
    T.process W (onChange m p [emitDecMode 6 m]) =
      some ((T.homed (m && !p)).setModes fun n => { n with originMode := m }) := by
  unfold onChange
  split
  next h =>
    rw [process_one, step_originMode]
    cases m <;> cases p <;> first | rfl | exact absurd rfl h
  next h =>
    obtain rfl := Decidable.not_not.1 h
    rw [process_nil, Bool.and_not_self]
    exact congrArg some (setModes_self (by rw [← hp])).symm

/-- The modes that have changed are all it takes. -/
theorem process_emitModeDelta (m : TerminalModes) :
    T.process W (emitModeDelta m T.grid.modes) =
      some ((T.homed (m.originMode && !T.grid.modes.originMode)).setModes fun _ => m) := by
  simp only [emitModeDelta, process_append]
  rw [step_onChange W (step_cursorShape W T _) fun h => by rw [h], Option.bind_some,
    step_onChange W (step_cursorKeyMode W _ _) fun h => by rw [h]; rfl, Option.bind_some,
    step_onChange_origin W _ m.originMode T.grid.modes.originMode (by rfl), Option.bind_some,
    homed_setModes, homed_setModes]
  have hmodes := T.homed_modes (m.originMode && !T.grid.modes.originMode)
  generalize T.homed _ = T₁ at hmodes ⊢
  rw [← hmodes]
  simp only [setModes_setModes]
  rw [step_onChange W (step_autowrapMode W _ _) fun h => by rw [h]; rfl, Option.bind_some]
  simp only [setModes_setModes]
  rw [step_onChange W (step_bracketedPaste W _ _) fun h => by rw [h]; rfl, Option.bind_some]
  simp only [setModes_setModes]
  rw [step_onChange W (step_mouseClick W _ _) fun h => by rw [h]; rfl, Option.bind_some]
  simp only [setModes_setModes]
  rw [step_onChange W (step_mouseButton W _ _) fun h => by rw [h]; rfl, Option.bind_some]
  simp only [setModes_setModes]
  rw [step_onChange W (step_mouseAny W _ _) fun h => by rw [h]; rfl, Option.bind_some]
  simp only [setModes_setModes]
  rw [process_onChange W (process_mouseEncoding W _ _) fun h => by rw [h]; rfl, Option.bind_some]
  simp only [setModes_setModes]
  rw [step_onChange W (step_focusReporting W _ _) fun h => by rw [h]; rfl, Option.bind_some]
  simp only [setModes_setModes]
  rw [step_onChange W (step_keypad W _ _) fun h => by rw [h]; rfl, Option.bind_some]
  simp only [setModes_setModes]
  rw [step_onChange W (step_g0Charset W _ _) fun h => by rw [h]; rfl, Option.bind_some]
  simp only [setModes_setModes]
  rw [step_onChange W (step_g1Charset W _ _) fun h => by rw [h]; rfl, Option.bind_some]
  simp only [setModes_setModes]
  rw [step_onChange W (step_active W _ _) fun h => by rw [h]; rfl]
  simp only [setModes_setModes]

end Screen

end Retach
