import Retach.Screen
/-!
# The performer (`screen/performer.rs`)

The parser's callbacks: printing, control bytes, CSI, ESC and OSC sequences.
Bytes of escape sequences are written as the ASCII characters they are. How
many columns a character takes is decided outside the repository (the crate
`unicode-width`), so it is a parameter.
-/

open Checked

namespace Retach

/-- What the code relies on of `unicode-width`: printable ASCII takes one
column, control characters have no width, and no character takes more than
three columns. (One takes three: U+17D8, KHMER SIGN BEYYAL.) -/
structure UnicodeWidth where
  width : Char → Option Nat
  width_ascii : ∀ c, 0x20 ≤ c.toNat → c.toNat < 0x7f → width c = some 1
  width_control : ∀ c, c.toNat < 0x20 ∨ (0x7f ≤ c.toNat ∧ c.toNat < 0xa0) → width c = none
  width_le : ∀ c w, width c = some w → w ≤ 3

/-- `UnicodeWidthChar::width(c).unwrap_or(0)`. -/
def UnicodeWidth.charWidth (W : UnicodeWidth) (c : Char) : Nat := (W.width c).getD 0

/-- A width function that agrees with the crate on ASCII, control characters,
the combining diacritical marks, the CJK ideographs and U+17D8. -/
def UnicodeWidth.sample : UnicodeWidth where
  width c :=
    if c.toNat < 0x20 ∨ (0x7f ≤ c.toNat ∧ c.toNat < 0xa0) then none
    else if 0x300 ≤ c.toNat ∧ c.toNat ≤ 0x36f then some 0
    else if 0x4e00 ≤ c.toNat ∧ c.toNat ≤ 0x9fff then some 2
    else if c.toNat = 0x17d8 then some 3
    else some 1
  width_ascii c h₁ h₂ := by
    rw [if_neg (by omega), if_neg (by omega), if_neg (by omega), if_neg (by omega)]
  width_control c h := by rw [if_pos h]
  width_le c w h := by
    repeat' split at h
    all_goals simp only [Option.some.injEq, reduceCtorEq] at h
    all_goals omega

theorem UnicodeWidth.charWidth_le (W : UnicodeWidth) (c : Char) : W.charWidth c ≤ 3 := by
  unfold charWidth
  cases h : W.width c with
  | none => exact Nat.zero_le _
  | some w => exact W.width_le c w h

def maxCombining : Nat := 16

/-- A callback of the parser. `bell` tells how the OSC string ended. -/
inductive Event where
  | print (c : Char)
  | execute (byte : UInt8)
  | csi (params : List Param) (intermediates : List Char) (action : Char)
  | esc (intermediates : List Char) (byte : Char)
  | osc (params : List (List UInt8)) (bell : Bool)
deriving DecidableEq, Repr

/-- `CSI ? mode h`. -/
def Event.decSet (mode : Nat) : Event := .csi [[mode]] ['?'] 'h'

/-- `CSI ? mode l`. -/
def Event.decReset (mode : Nat) : Event := .csi [[mode]] ['?'] 'l'

namespace Screen

def onGrid (s : Screen) (f : Grid → Grid) : Screen := { s with grid := f s.grid }

def setModes (s : Screen) (f : TerminalModes → TerminalModes) : Screen := s.onGrid fun g => g.setModes (f g.modes)

/-! ## Styles -/

/-- Interns a style; a full table is compacted and tried again. -/
def internWithGc (s : Screen) (style : Style) : Option (StyleId × Screen) := do
  let (id, t) ← s.grid.styleTable.intern style
  if id = 0 ∧ ¬ style.isDefault ∧ t.isFull then do
    let g := compactStyles (s.grid.setStyleTable t) s.state.savedGrid
    let (id, t) ← g.styleTable.intern style
    return (id, { s with grid := g.setStyleTable t })
  else return (id, s.onGrid (·.setStyleTable t))

/-- A blank with the current background colour. -/
def blankCell (s : Screen) : Option (Cell × Screen) := do
  let (id, s) ← s.internWithGc { bg := s.state.currentStyle.bg }
  return ({ c := ' ', styleId := id, width := 1 }, s)

/-! ## Scrolling -/

/-- The row that `scroll_up` moves off the top of the main screen. -/
def displacedRow (s : Screen) : List Row :=
  if ¬ s.state.inAltScreen ∧ s.grid.scrollTop = 0 then (s.grid.cells[s.grid.scrollbackLen]?).toList else []

def scrollUp (s : Screen) : Option Screen := do
  let (fill, s) ← s.blankCell
  let g ← s.grid.scrollUp s.state.inAltScreen fill
  return { s with grid := g, scrolledOff := s.scrolledOff ++ s.displacedRow }

def scrollDown (s : Screen) : Option Screen := do
  let (fill, s) ← s.blankCell
  let g ← s.grid.scrollDown fill
  return { s with grid := g }

/-- One line down: scrolls at the bottom of the region, stays at the last row
below it. -/
def advanceLine (s : Screen) : Option Screen := do
  if s.grid.cursorY = s.grid.scrollBottom then s.scrollUp
  else do
    let last ← sub s.grid.rows 1
    if s.grid.cursorY < last then do
      let y ← add16 s.grid.cursorY 1
      return s.onGrid (·.setCursorY y)
    else return s

/-! ## Saving the cursor -/

/-- What `save_cursor` saves. -/
def cursorState (s : Screen) : SavedCursor :=
  { x := s.grid.cursorX
    y := s.grid.cursorY
    style := s.state.currentStyle
    g0Charset := s.grid.modes.g0Charset
    g1Charset := s.grid.modes.g1Charset
    activeCharset := s.grid.modes.activeCharset
    autowrapMode := s.grid.modes.autowrapMode
    originMode := s.grid.modes.originMode
    wrapPending := s.grid.wrapPending }

def saveCursor (s : Screen) : Screen :=
  { s with state := { s.state with savedCursorState := some s.cursorState } }

/-- The modes a saved cursor brings back. -/
def restoredModes (saved : SavedCursor) (m : TerminalModes) : TerminalModes :=
  { m with
    g0Charset := saved.g0Charset
    g1Charset := saved.g1Charset
    activeCharset := saved.activeCharset
    autowrapMode := saved.autowrapMode
    originMode := saved.originMode }

def restoreCursor (s : Screen) : Option Screen :=
  match s.state.savedCursorState with
  | some saved => do
    let right ← sub s.grid.cols 1
    let bottom ← sub s.grid.rows 1
    let g := (((s.grid.setWrapPending saved.wrapPending).setCursorX (min saved.x right)).setCursorY
      (min saved.y bottom)).setModes (restoredModes saved s.grid.modes)
    return { s with grid := g, state := { s.state with currentStyle := saved.style } }
  | none => some s

/-! ## The alternate screen -/

/-- `enter_alt_screen` after its guard and the optional `save_cursor`. -/
def switchToAlt (s : Screen) : Option Screen := do
  let (visibleCells, g) ← s.grid.drainVisible
  let g ← g.fillVisibleBlank
  let g ← (((g.setScrollbackLimit 0).setCursorX 0).setCursorY 0).resetScrollRegion
  return { s with
    grid := g.setWrapPending false
    state := { s.state with
      savedScrollRegion := some (s.grid.scrollTop, s.grid.scrollBottom)
      savedGrid := some { visibleCells, scrollbackLimit := s.grid.scrollbackLimit }
      savedModes := some s.grid.modes
      inAltScreen := true } }

/-- Ignored on the alternate screen. -/
def enterAltScreen (s : Screen) (save : Bool) : Option Screen :=
  if s.state.inAltScreen then some s
  else (if save then s.saveCursor else s).switchToAlt

/-- The part of `exit_alt_screen` that brings the saved rows back, fitted to
the current dimensions. -/
def restoreRows (s : Screen) : Option Screen :=
  match s.state.savedGrid with
  | some saved => do
    let g ← ((s.grid.replaceVisible saved.visibleCells).setScrollbackLimit saved.scrollbackLimit).adjustVisibleToFit
    let g ← iterFrom (fun y (g : Grid) => g.visibleRowMut y (Grid.fitRow g.cols)) 0 g.visibleRowCount g
    return { s with grid := g, state := { s.state with savedGrid := none } }
  | none => some s

def restoreModes (s : Screen) : Screen :=
  match s.state.savedModes with
  | some modes => { s with grid := s.grid.setModes modes, state := { s.state with savedModes := none } }
  | none => s

/-- The saved region clamped to the current rows; the full screen if none was
saved. -/
def restoreRegion (s : Screen) : Option Screen :=
  match s.state.savedScrollRegion with
  | some (top, bottom) =>
    let bottomMax := s.grid.rows - 1
    let top := min top bottomMax
    let bottom := max (min bottom bottomMax) top
    some { s with grid := s.grid.setScrollRegion top bottom, state := { s.state with savedScrollRegion := none } }
  | none => do
    let g ← s.grid.resetScrollRegion
    return { s with grid := g }

/-- Ignored on the main screen. -/
def exitAltScreen (s : Screen) (restore : Bool) : Option Screen :=
  if ¬ s.state.inAltScreen then some s
  else do
    let s := { s with state := { s.state with inAltScreen := false } }
    let s ← s.restoreRows
    let s := s.restoreModes
    let s ← if restore then s.restoreCursor else some s
    let s ← s.restoreRegion
    return s.onGrid fun g => compactStyles g none

/-! ## Cursor movement -/

/-- The row `CUU` and `CPL` stop at. -/
def upperStop (g : Grid) : Nat := if g.cursorY ≥ g.scrollTop then g.scrollTop else 0

/-- The row `CUD` and `CNL` stop at. -/
def lowerStop (g : Grid) : Option Nat := if g.cursorY ≤ g.scrollBottom then some g.scrollBottom else sub g.rows 1

def csiCursorUp (s : Screen) (n : Nat) : Screen :=
  s.onGrid fun g => (g.setWrapPending false).setCursorY (max (g.cursorY - n) (upperStop g))

def csiCursorDown (s : Screen) (n : Nat) : Option Screen := do
  let bottom ← lowerStop s.grid
  return s.onGrid fun g => (g.setWrapPending false).setCursorY (min (satAdd16 g.cursorY n) bottom)

def csiCursorForward (s : Screen) (n : Nat) : Option Screen := do
  let right ← sub s.grid.cols 1
  return s.onGrid fun g => (g.setWrapPending false).setCursorX (min (satAdd16 g.cursorX n) right)

def csiCursorBack (s : Screen) (n : Nat) : Screen :=
  s.onGrid fun g => (g.setWrapPending false).setCursorX (g.cursorX - n)

def csiCursorNextLine (s : Screen) (n : Nat) : Option Screen := do
  let bottom ← lowerStop s.grid
  return s.onGrid fun g =>
    ((g.setWrapPending false).setCursorX 0).setCursorY (min (satAdd16 g.cursorY n) bottom)

def csiCursorPrevLine (s : Screen) (n : Nat) : Screen :=
  s.onGrid fun g => ((g.setWrapPending false).setCursorX 0).setCursorY (max (g.cursorY - n) (upperStop g))

def csiCursorHorizontalAbsolute (s : Screen) (col : Nat) : Option Screen := do
  let right ← sub s.grid.cols 1
  return s.onGrid fun g => (g.setWrapPending false).setCursorX (min (col - 1) right)

/-- The row an absolute row parameter addresses: relative to the region in
origin mode. -/
def addressedRow (g : Grid) (row : Nat) : Option Nat :=
  if g.modes.originMode then some (min (satAdd16 g.scrollTop (row - 1)) g.scrollBottom)
  else do
    let bottom ← sub g.rows 1
    return min (row - 1) bottom

def csiCursorPosition (s : Screen) (row col : Nat) : Option Screen := do
  let y ← addressedRow s.grid row
  let right ← sub s.grid.cols 1
  return s.onGrid fun g => ((g.setWrapPending false).setCursorY y).setCursorX (min (col - 1) right)

def csiLinePositionAbsolute (s : Screen) (row : Nat) : Option Screen := do
  let y ← addressedRow s.grid row
  return s.onGrid fun g => (g.setWrapPending false).setCursorY y

/-! ## Erasing -/

def csiEraseDisplay (s : Screen) (mode : Nat) : Option Screen := do
  let (blank, s) ← s.blankCell
  let g := s.grid
  match mode with
  | 0 => do
    let g ← g.eraseCells g.cursorY g.cursorX g.cols blank
    let g ← g.eraseRows (g.cursorY + 1) g.rows blank
    return { s with grid := g }
  | 1 => do
    let g ← g.eraseRows 0 g.cursorY blank
    let g ← g.eraseCells g.cursorY 0 (min (g.cursorX + 1) g.cols) blank
    return { s with grid := g }
  | 2 => do
    let g ← g.eraseRows 0 g.rows blank
    return { s with grid := g }
  | 3 => do
    -- forwarded so that the outer terminal clears its own scrollback
    let g ← g.clearScrollback
    return { s with grid := g, state := s.state.pushPassthrough [0x1b, 0x5b, 0x33, 0x4a] }
  | _ => some s

def csiEraseLine (s : Screen) (mode : Nat) : Option Screen := do
  let (blank, s) ← s.blankCell
  let g := s.grid
  let erase (lo hi : Nat) : Option Screen := do
    let g ← g.eraseCells g.cursorY lo hi blank
    return { s with grid := g }
  match mode with
  | 0 => erase g.cursorX g.cols
  | 1 => erase 0 (min (g.cursorX + 1) g.cols)
  | 2 => erase 0 g.cols
  | _ => some s

def csiEraseCharacter (s : Screen) (n : Nat) : Option Screen := do
  let (blank, s) ← s.blankCell
  let g := s.grid
  if g.cursorY < g.rows then do
    let g ← g.eraseCells g.cursorY g.cursorX (min (g.cursorX + n) g.cols) blank
    return { s with grid := g }
  else return s

/-- One deletion of `DCH` at column `x`. -/
def deleteCell (x : Nat) (blank : Cell) (row : Row) : Option Row := do
  let row ← row.remove x
  return row.push blank

/-- A continuation that shifted into column `x` lost its base. -/
def fixDeleted (g : Grid) (x y : Nat) (blank : Cell) : Option Grid :=
  if x < g.cols then do
    let cell ← (← g.visibleRow y).get x
    if cell.width = 0 then do
      let g ← g.visibleRowMut y (·.set x blank)
      if x > 0 then do
        let base ← (← g.visibleRow y).get (x - 1)
        if base.width = 2 then g.visibleRowMut y (·.set (x - 1) blank) else some g
      else some g
    else some g
  else some g

def csiDeleteCharacter (s : Screen) (n : Nat) : Option Screen := do
  let (blank, s) ← s.blankCell
  let g := s.grid
  let y := g.cursorY
  let x := g.cursorX
  if y < g.rows then do
    let g ← g.fixupWideCharAt x y
    let g ← iter (fun (g : Grid) => g.visibleRowMut y (deleteCell x blank)) (min n (g.cols - x)) g
    let g ← fixDeleted g x y blank
    return { s with grid := g }
  else return s

/-- One insertion of `ICH` at column `x`. -/
def insertCell (x : Nat) (blank : Cell) (row : Row) : Option Row := row.pop.insert x blank

/-- Blanks the wide character that the right margin cuts, and a pair that ends
in the last column. -/
def fixInserted (g : Grid) (y : Nat) (blank : Cell) : Option Grid := do
  let last ← sub g.cols 1
  let cell ← (← g.visibleRow y).get last
  if cell.width = 2 then g.visibleRowMut y (·.set last blank)
  else if cell.width = 0 then do
    let g ← g.visibleRowMut y (·.set last blank)
    if last > 0 then do
      let base ← (← g.visibleRow y).get (last - 1)
      if base.width = 2 then g.visibleRowMut y (·.set (last - 1) blank) else some g
    else some g
  else some g

def csiInsertCharacter (s : Screen) (n : Nat) : Option Screen := do
  let (blank, s) ← s.blankCell
  let g := s.grid
  let y := g.cursorY
  let x := g.cursorX
  if y < g.rows then do
    let g ← g.fixupWideCharAt x y
    let g ← iter (fun (g : Grid) => g.visibleRowMut y (insertCell x blank)) (min n (g.cols - x)) g
    let g ← fixInserted g y blank
    return { s with grid := g }
  else return s

/-! ## Lines and the scroll region -/

def csiScrollUpN (s : Screen) (n : Nat) : Option Screen := iter scrollUp (min n s.grid.rows) s

def csiScrollDownN (s : Screen) (n : Nat) : Option Screen := iter scrollDown (min n s.grid.rows) s

/-- Removes visible row `src` and inserts a blank row at `dst`. -/
def moveBlank (src dst bottom : Nat) (blank : Cell) (g : Grid) : Option Grid :=
  if bottom < g.visibleRowCount then do
    let g ← g.removeVisibleRow src
    g.insertVisibleRow dst (g.newBlankRow blank)
  else some g

/-- `csi_delete_lines` and `csi_insert_lines`: rows move only with the cursor
inside the scroll region. `move y bottom` is one round of the loop. -/
def shiftLines (s : Screen) (n : Nat) (move : Nat → Nat → Cell → Grid → Option Grid) : Option Screen := do
  let (blank, s) ← s.blankCell
  let y := s.grid.cursorY
  let bottom := s.grid.scrollBottom
  if y ≥ s.grid.scrollTop ∧ y ≤ bottom then do
    let g ← iter (move y bottom blank) (min n (bottom - y + 1)) (s.grid.setWrapPending false)
    return { s with grid := g }
  else return s

def csiDeleteLines (s : Screen) (n : Nat) : Option Screen :=
  s.shiftLines n fun y bottom blank => moveBlank y bottom bottom blank

def csiInsertLines (s : Screen) (n : Nat) : Option Screen :=
  s.shiftLines n fun y bottom blank => moveBlank bottom y bottom blank

def csiSetScrollingRegion (s : Screen) (top bottom : Nat) : Option Screen := do
  let last ← sub s.grid.rows 1
  let top := top - 1
  let bottom := min (bottom - 1) last
  if top ≤ bottom then
    return s.onGrid fun g => (((g.setScrollRegion top bottom).setCursorX 0).setCursorY
      (if g.modes.originMode then top else 0)).setWrapPending false
  else return s

/-! ## Printing -/

/-- The DEC line drawing set. -/
def lineDrawing : Char → Char
  | 'j' => '┘' | 'k' => '┐' | 'l' => '┌' | 'm' => '└' | 'n' => '┼'
  | 'q' => '─' | 't' => '├' | 'u' => '┤' | 'v' => '┴' | 'w' => '┬'
  | 'x' => '│' | 'a' => '▒' | '`' => '◆'
  | c => c

/-- The set designated in the active slot. -/
def currentCharset (m : TerminalModes) : Charset :=
  match m.activeCharset with
  | .g0 => m.g0Charset
  | .g1 => m.g1Charset

def mapCharset (s : Screen) (c : Char) : Char :=
  match currentCharset s.grid.modes with
  | .lineDrawing => lineDrawing c
  | .ascii => c

/-- The column a mark printed now belongs to. -/
def markColumn (s : Screen) : Option Nat :=
  if s.grid.wrapPending then some s.grid.cursorX
  else if s.grid.cursorX > 0 then some (s.grid.cursorX - 1)
  else none

def handleCombiningMark (s : Screen) (c : Char) : Option Screen :=
  if s.grid.cursorY ≥ s.grid.rows then some s
  else match s.markColumn with
  | none => some s
  | some tx =>
    if tx ≥ s.grid.cols then some s
    else do
      let row ← s.grid.visibleRow s.grid.cursorY
      let cell ← row.get tx
      let tx := if cell.width = 0 ∧ tx > 0 then tx - 1 else tx
      if row.combiningLen tx < maxCombining then do
        let g ← s.grid.visibleRowMut s.grid.cursorY fun row => some (row.pushCombining tx c)
        return { s with grid := g }
      else return s

def performDeferredWrap (s : Screen) : Option Screen :=
  (s.onGrid fun g => (g.setWrapPending false).setCursorX 0).advanceLine

/-- The blank left in the margin column when a wide character wraps. -/
def blankMargin (s : Screen) : Option Screen :=
  if s.grid.cursorX < s.grid.cols ∧ s.grid.cursorY < s.grid.rows then do
    let (blank, s) ← s.blankCell
    let g ← s.grid.visibleRowMut s.grid.cursorY (·.set s.grid.cursorX blank)
    return { s with grid := g }
  else some s

/-- Puts a character of `width` columns at the cursor and moves past it. -/
def putChar (s : Screen) (c : Char) (width : Nat) : Option Screen :=
  if s.grid.cursorX < s.grid.cols ∧ s.grid.cursorY < s.grid.rows then do
    let (sid, s) ← s.internWithGc s.state.currentStyle
    let g ← s.grid.setCell s.grid.cursorX s.grid.cursorY { c, styleId := sid, width }
    let newX ← add16 g.cursorX width
    if newX ≥ g.cols then do
      let right ← sub g.cols 1
      let g := g.setCursorX right
      return { s with grid := if g.modes.autowrapMode then g.setWrapPending true else g }
    else return { s with grid := g.setCursorX newX }
  else some s

/-- Whether the cursor is in the last column. -/
def atRightMargin (s : Screen) : Option Bool := do
  let right ← sub s.grid.cols 1
  return s.grid.cursorX ≥ right

/-- `print` for a character of `width` columns, after the pending wrap: a wide
character does not fit in the last column. -/
def printBase (s : Screen) (c : Char) (width : Nat) : Option Screen := do
  let cut ← if width = 2 then s.atRightMargin else some false
  if cut then
    if s.grid.modes.autowrapMode then
      if s.grid.cols < 2 then return s
      else do
        let s ← s.blankMargin
        let s ← s.performDeferredWrap
        s.putChar c width
    else return s
  else s.putChar c width

variable (W : UnicodeWidth)

def print (s : Screen) (c : Char) : Option Screen := do
  -- the character before mapping, for REP
  let s := { s with state := { s.state with lastPrintedChar := c } }
  let c := s.mapCharset c
  let width := W.charWidth c
  if width = 0 then s.handleCombiningMark c
  else do
    let s ← if s.grid.wrapPending ∧ s.grid.modes.autowrapMode then s.performDeferredWrap else some s
    s.printBase c width

/-! ## Control bytes -/

def execute (s : Screen) (byte : UInt8) : Option Screen :=
  match byte with
  | 0x0d => some (s.onGrid fun g => (g.setCursorX 0).setWrapPending false)
  | 0x0a | 0x0b | 0x0c => (s.onGrid (·.setWrapPending false)).advanceLine
  | 0x08 => some (s.onGrid fun g => (g.setWrapPending false).setCursorX (g.cursorX - 1))
  | 0x09 => do
    let next ← s.grid.nextTabStop s.grid.cursorX
    return s.onGrid fun g => (g.setWrapPending false).setCursorX next
  | 0x0e => some (s.setModes fun m => { m with activeCharset := .g1 })
  | 0x0f => some (s.setModes fun m => { m with activeCharset := .g0 })
  | 0x07 => some { s with state := s.state.pushPassthrough [0x07] }
  | _ => some s

/-! ## CSI sequences -/

/-- The `i`th parameter; absent and zero parameters take the default. -/
def param (ps : List Param) (i default : Nat) : Nat :=
  match ps[i]? with
  | some (v :: _) => if v ≠ 0 then v else default
  | _ => default

/-- One parameter of `CSI ? h` (`enable`) or `CSI ? l`. -/
def setDecMode (s : Screen) (mode : Nat) (enable : Bool) : Option Screen :=
  match mode with
  | 1 => some (s.setModes fun m => { m with cursorKeyMode := enable })
  | 6 =>
    let s := s.setModes fun m => { m with originMode := enable }
    some (if enable then s.onGrid fun g => ((g.setCursorX 0).setCursorY g.scrollTop).setWrapPending false else s)
  | 7 => some (s.setModes fun m => { m with autowrapMode := enable })
  | 25 => some (s.onGrid (·.setCursorVisible enable))
  | 1000 | 1002 | 1003 => some (s.setModes fun m => { m with mouseModes := m.mouseModes.set mode enable })
  | 1005 | 1006 => some (s.setModes fun m => { m with
      mouseEncoding := if enable then (MouseEncoding.fromParam mode).getD .x10 else .x10 })
  | 1004 => some (s.setModes fun m => { m with focusReporting := enable })
  | 1048 => if enable then some s.saveCursor else s.restoreCursor
  | 2004 => some (s.setModes fun m => { m with bracketedPaste := enable })
  | 1049 => if enable then s.enterAltScreen true else s.exitAltScreen true
  | 1047 | 47 => if enable then s.enterAltScreen false else s.exitAltScreen false
  | _ => some s

/-- An empty parameter matches no mode. -/
def csiSetDecPrivateMode (s : Screen) (ps : List Param) (enable : Bool) : Option Screen :=
  ps.foldlM (fun s p => match p with
    | mode :: _ => s.setDecMode mode enable
    | [] => some s) s

/-- The answer to `CSI 6 n`. -/
def cursorReport (s : Screen) : Option (List UInt8) := do
  let row ← add16 (if s.grid.modes.originMode then s.grid.cursorY - s.grid.scrollTop else s.grid.cursorY) 1
  let col ← add16 s.grid.cursorX 1
  return [0x1b, 0x5b] ++ writeU16 row ++ [0x3b] ++ writeU16 col ++ [0x52]

/-- A string cut at byte `n` panics inside a character. -/
def isCharBoundary (t : List UInt8) (n : Nat) : Bool :=
  match t[n]? with
  | some b => b < 0x80 ∨ b ≥ 0xc0
  | none => n = t.length

def maxTitleLen : Nat := 4096

/-- `title[..4096]`. -/
def cutTitle (t : List UInt8) : Option (List UInt8) := do
  ensure (isCharBoundary t maxTitleLen)
  return t.take maxTitleLen

/-- `CSI 22 t`. -/
def pushTitle (s : Screen) : Option Screen :=
  if s.state.titleStack.length < 16 then do
    let t ← if maxTitleLen ≤ s.state.title.length then cutTitle s.state.title else some s.state.title
    return { s with state := { s.state with titleStack := s.state.titleStack ++ [t] } }
  else some s

/-- `CSI 23 t`. -/
def popTitle (s : Screen) : Screen :=
  match s.state.titleStack.getLast? with
  | some title => { s with state := { s.state with title, titleStack := s.state.titleStack.dropLast } }
  | none => s

def csiDispatch (s : Screen) (ps : List Param) (intermediates : List Char) (action : Char) : Option Screen :=
  match action with
  | 'A' => some (s.csiCursorUp (param ps 0 1))
  | 'B' => s.csiCursorDown (param ps 0 1)
  | 'C' => s.csiCursorForward (param ps 0 1)
  | 'D' => some (s.csiCursorBack (param ps 0 1))
  | 'E' => s.csiCursorNextLine (param ps 0 1)
  | 'F' => some (s.csiCursorPrevLine (param ps 0 1))
  | 'G' => s.csiCursorHorizontalAbsolute (param ps 0 1)
  | 'H' | 'f' => s.csiCursorPosition (param ps 0 1) (param ps 1 1)
  | 'd' => s.csiLinePositionAbsolute (param ps 0 1)
  | 'J' => s.csiEraseDisplay (param ps 0 0)
  | 'K' => s.csiEraseLine (param ps 0 0)
  | 'X' => s.csiEraseCharacter (param ps 0 1)
  | 'P' => s.csiDeleteCharacter (param ps 0 1)
  | '@' => s.csiInsertCharacter (param ps 0 1)
  | 'b' => iter (fun s' => s'.print W s.state.lastPrintedChar) (param ps 0 1) s
  | 'm' => some { s with state := { s.state with currentStyle := s.state.currentStyle.applySgr ps } }
  | 'n' =>
    if intermediates = [] ∧ param ps 0 0 = 6 then do
      let r ← s.cursorReport
      return { s with state := s.state.pushResponse r }
    else some s
  | 'c' =>
    if param ps 0 0 = 0 then
      if intermediates = [] then
        some { s with state := s.state.pushResponse [0x1b, 0x5b, 0x3f, 0x36, 0x32, 0x3b, 0x63] }
      else if intermediates = ['>'] then
        some { s with
          state := s.state.pushResponse [0x1b, 0x5b, 0x3e, 0x30, 0x3b, 0x31, 0x30, 0x3b, 0x31, 0x63] }
      else some s
    else some s
  | 'q' =>
    if intermediates = [' '] then
      some (s.setModes fun m => { m with cursorShape := .fromParam (param ps 0 0 % 256) })
    else some s
  | 'S' => s.csiScrollUpN (param ps 0 1)
  | 'T' => if ps.length ≤ 1 then s.csiScrollDownN (param ps 0 1) else some s
  | 'M' => s.csiDeleteLines (param ps 0 1)
  | 'L' => s.csiInsertLines (param ps 0 1)
  | 'r' =>
    if intermediates = [] then s.csiSetScrollingRegion (param ps 0 1) (param ps 1 s.grid.rows) else some s
  | 's' => if intermediates = [] then some s.saveCursor else some s
  | 'u' => if intermediates = [] then s.restoreCursor else some s
  | 'g' =>
    if intermediates = [] then
      match param ps 0 0 with
      | 0 => some (s.onGrid fun g => g.clearTabStop g.cursorX)
      | 3 => some (s.onGrid (·.clearAllTabStops))
      | _ => some s
    else some s
  | 't' =>
    if param ps 1 0 = 0 ∨ param ps 1 0 = 2 then
      match param ps 0 0 with
      | 22 => s.pushTitle
      | 23 => some s.popTitle
      | _ => some s
    else some s
  | 'h' => if intermediates = ['?'] then s.csiSetDecPrivateMode ps true else some s
  | 'l' => if intermediates = ['?'] then s.csiSetDecPrivateMode ps false else some s
  | _ => some s

/-! ## ESC sequences -/

/-- RIS. The scrollback limit comes back from the saved grid. -/
def fullReset (s : Screen) : Option Screen := do
  let g ← ((s.grid.setCursorX 0).setCursorY 0).resetScrollRegion
  let g := ((g.setCursorVisible true).setWrapPending false).setModes {}
  let limit := match s.state.savedGrid with
    | some saved => saved.scrollbackLimit
    | none => g.scrollbackLimit
  let g := (g.setScrollbackLimit limit).resetTabStops
  let g := g.setStyleTable g.styleTable.reset
  let g ← g.eraseRows 0 g.rows {}
  let g ← g.clearScrollback
  let st := { s.state with
    currentStyle := {}
    inAltScreen := false
    savedGrid := none
    savedModes := none
    savedCursorState := none
    savedScrollRegion := none
    title := []
    titleStack := []
    lastPrintedChar := ' ' }
  return { s with grid := g, state := st.pushPassthrough [0x1b, 0x5b, 0x33, 0x4a] }

/-- DECALN: fills the screen with `E`. -/
def alignmentPattern (s : Screen) : Option Screen := do
  let g ← s.grid.resetScrollRegion
  let s := { s with grid := ((g.setCursorX 0).setCursorY 0).setWrapPending false }
  let (sid, s) ← s.internWithGc {}
  let g ← iterFrom (fun y g => iterFrom (fun x (g : Grid) => g.setCell x y { c := 'E', styleId := sid, width := 1 })
    0 s.grid.cols g) 0 s.grid.rows s.grid
  return { s with grid := g }

def escDispatch (s : Screen) (intermediates : List Char) (byte : Char) : Option Screen :=
  match intermediates, byte with
  | [], 'H' => some (s.onGrid fun g => g.setTabStop g.cursorX)
  | [], 'D' => (s.onGrid (·.setWrapPending false)).advanceLine
  | [], 'E' => (s.onGrid fun g => (g.setCursorX 0).setWrapPending false).advanceLine
  | [], 'M' =>
    if s.grid.cursorY = s.grid.scrollTop then s.scrollDown
    else some (s.onGrid fun g => g.setCursorY (g.cursorY - 1))
  | [], '7' => some s.saveCursor
  | [], '8' => s.restoreCursor
  | [], 'c' => s.fullReset
  | [], '=' => some (s.setModes fun m => { m with keypadAppMode := true })
  | [], '>' => some (s.setModes fun m => { m with keypadAppMode := false })
  | ['('], 'B' => some (s.setModes fun m => { m with g0Charset := .ascii })
  | ['('], '0' => some (s.setModes fun m => { m with g0Charset := .lineDrawing })
  | [')'], 'B' => some (s.setModes fun m => { m with g1Charset := .ascii })
  | [')'], '0' => some (s.setModes fun m => { m with g1Charset := .lineDrawing })
  | ['#'], '8' => s.alignmentPattern
  | _, _ => some s

/-! ## OSC sequences -/

/-- `str::parse::<u16>`. -/
def parseDigits : Nat → List UInt8 → Option Nat
  | acc, [] => some acc
  | acc, b :: bs =>
    if 48 ≤ b.toNat ∧ b.toNat ≤ 57 ∧ acc * 10 + (b.toNat - 48) ≤ u16Max then
      parseDigits (acc * 10 + (b.toNat - 48)) bs
    else none

@[inherit_doc parseDigits]
def parseU16 : List UInt8 → Option Nat
  | [] => none
  | 43 :: bs => if bs = [] then none else parseDigits 0 bs
  | bs => parseDigits 0 bs

def isUtf8 (bytes : List UInt8) : Bool := (ByteArray.mk bytes.toArray).validateUTF8

/-- The sequence as the outer terminal gets it. -/
def oscSequence (params : List (List UInt8)) (bell : Bool) : List UInt8 :=
  [0x1b, 0x5d] ++ [0x3b].intercalate params ++ (if bell then [0x07] else [0x1b, 0x5c])

/-- OSC 0 and 2 set the title; notifications (9, 777, 99) are queued and all
others passed through. -/
def oscDispatch (s : Screen) (params : List (List UInt8)) (bell : Bool) : Option Screen :=
  match params with
  | [] => some s
  | num :: rest =>
    let oscNum := parseU16 num
    if oscNum = some 0 ∨ oscNum = some 2 then
      match rest with
      | title :: _ =>
        if isUtf8 title then do
          let title ← if title.length ≤ maxTitleLen then some title else cutTitle title
          return { s with state := { s.state with title } }
        else some s
      | [] => some s
    else if oscNum = some 9 ∨ oscNum = some 777 ∨ oscNum = some 99 then
      some { s with state := s.state.pushNotification (oscSequence params bell) }
    else some { s with state := s.state.pushPassthrough (oscSequence params bell) }

/-! ## Runs -/

/-- One callback. -/
def step (s : Screen) : Event → Option Screen
  | .print c => s.print W c
  | .execute b => s.execute b
  | .csi ps intermediates action => s.csiDispatch W ps intermediates action
  | .esc intermediates byte => s.escDispatch intermediates byte
  | .osc params bell => s.oscDispatch params bell

/-- `process`: the callbacks of a byte string. -/
def process (s : Screen) (es : List Event) : Option Screen := es.foldlM (step W) s

end Screen

end Retach
