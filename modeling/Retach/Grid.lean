import Retach.Row
/-!
# The grid (`screen/grid.rs`)

Scrollback and visible rows in one buffer with a boundary between them, the
cursor, the scroll region and the terminal modes. Debug assertions are kept:
a grid operation that fails one returns `none`.
-/

open Checked

namespace Retach

/-! ## Modes -/

inductive Charset where
  | ascii | lineDrawing
deriving DecidableEq, Repr

inductive ActiveCharset where
  | g0 | g1
deriving DecidableEq, Repr

inductive CursorShape where
  | default | blinkBlock | steadyBlock | blinkUnderline | steadyUnderline | blinkBar | steadyBar
deriving DecidableEq, Repr

def CursorShape.fromParam : Nat → CursorShape
  | 1 => .blinkBlock
  | 2 => .steadyBlock
  | 3 => .blinkUnderline
  | 4 => .steadyUnderline
  | 5 => .blinkBar
  | 6 => .steadyBar
  | _ => .default

def CursorShape.toParam : CursorShape → Nat
  | .default => 0
  | .blinkBlock => 1
  | .steadyBlock => 2
  | .blinkUnderline => 3
  | .steadyUnderline => 4
  | .blinkBar => 5
  | .steadyBar => 6

structure MouseModes where
  click : Bool := false
  button : Bool := false
  any : Bool := false
deriving DecidableEq, Repr

def MouseModes.set (m : MouseModes) (param : Nat) (enable : Bool) : MouseModes :=
  match param with
  | 1000 => { m with click := enable }
  | 1002 => { m with button := enable }
  | 1003 => { m with any := enable }
  | _ => m

inductive MouseEncoding where
  | x10 | utf8 | sgr
deriving DecidableEq, Repr

def MouseEncoding.fromParam : Nat → Option MouseEncoding
  | 1005 => some .utf8
  | 1006 => some .sgr
  | _ => none

structure TerminalModes where
  cursorKeyMode : Bool := false
  bracketedPaste : Bool := false
  originMode : Bool := false
  autowrapMode : Bool := true
  focusReporting : Bool := false
  mouseModes : MouseModes := {}
  mouseEncoding : MouseEncoding := .x10
  keypadAppMode : Bool := false
  cursorShape : CursorShape := .default
  g0Charset : Charset := .ascii
  g1Charset : Charset := .ascii
  activeCharset : ActiveCharset := .g0
deriving DecidableEq, Repr

/-! ## The grid -/

structure Grid where
  cols : Nat
  rows : Nat
  /-- `[scrollback | visible]`, split at `scrollbackLen`. -/
  cells : List Row
  cursorX : Nat
  cursorY : Nat
  /-- The cursor is past the right margin; the next character wraps. -/
  wrapPending : Bool
  /-- The scroll region, both ends included. -/
  scrollTop : Nat
  scrollBottom : Nat
  cursorVisible : Bool
  modes : TerminalModes
  tabStops : List Bool
  scrollbackLen : Nat
  scrollbackLimit : Nat
  /-- Scrollback from here on has not been sent to the client. -/
  pendingStart : Nat
  styleTable : StyleTable

/-- The main screen's visible rows and scrollback limit, while the alternate
screen is shown. -/
structure SavedGrid where
  visibleCells : List Row
  scrollbackLimit : Nat

structure TerminalSize where
  cols : Nat
  rows : Nat
deriving DecidableEq, Repr

/-- At least 1x1. -/
def sanitizeDimensions (cols rows : Nat) : TerminalSize := ⟨max cols 1, max rows 1⟩

def defaultTabStops (cols : Nat) : List Bool := (List.range cols).map fun c => c > 0 ∧ c % 8 = 0

namespace Grid

def new (cols rows scrollbackLimit : Nat) : Grid :=
  let d := sanitizeDimensions cols rows
  { cols := d.cols
    rows := d.rows
    cells := List.replicate d.rows (Row.new d.cols)
    cursorX := 0
    cursorY := 0
    wrapPending := false
    scrollTop := 0
    scrollBottom := d.rows - 1
    cursorVisible := true
    modes := {}
    tabStops := defaultTabStops d.cols
    scrollbackLen := 0
    scrollbackLimit
    pendingStart := 0
    styleTable := .new }

/-! ### Setters -/

def setCursorX (g : Grid) (x : Nat) : Grid := { g with cursorX := x }
def setCursorY (g : Grid) (y : Nat) : Grid := { g with cursorY := y }
def setWrapPending (g : Grid) (val : Bool) : Grid := { g with wrapPending := val }
def setCursorVisible (g : Grid) (visible : Bool) : Grid := { g with cursorVisible := visible }
def setScrollRegion (g : Grid) (top bottom : Nat) : Grid := { g with scrollTop := top, scrollBottom := bottom }
def setModes (g : Grid) (modes : TerminalModes) : Grid := { g with modes }
def setStyleTable (g : Grid) (t : StyleTable) : Grid := { g with styleTable := t }
def setScrollbackLimit (g : Grid) (limit : Nat) : Grid := { g with scrollbackLimit := limit }

/-- Out-of-range columns are ignored, as in the code. -/
def setTabStop (g : Grid) (col : Nat) : Grid := { g with tabStops := g.tabStops.set col true }
def clearTabStop (g : Grid) (col : Nat) : Grid := { g with tabStops := g.tabStops.set col false }
def clearAllTabStops (g : Grid) : Grid := { g with tabStops := g.tabStops.map fun _ => false }
def resetTabStops (g : Grid) : Grid := { g with tabStops := defaultTabStops g.cols }

def resetScrollRegion (g : Grid) : Option Grid := do
  let bottom ← sub g.rows 1
  return g.setScrollRegion 0 bottom

/-! ### Rows -/

def scrollbackRows (g : Grid) : List Row := g.cells.take g.scrollbackLen

def visibleRows (g : Grid) : List Row := (g.cells.drop g.scrollbackLen).take g.rows

def visibleRowCount (g : Grid) : Nat := g.cells.length - g.scrollbackLen

/-- `visible_row`. -/
def visibleRow (g : Grid) (y : Nat) : Option Row := do
  ensure (y < g.rows)
  g.cells[g.scrollbackLen + y]?

/-- A visible row replaced. -/
def putRow (g : Grid) (y : Nat) (row : Row) : Grid := { g with cells := g.cells.set (g.scrollbackLen + y) row }

/-- An update through `visible_row_mut`. -/
def visibleRowMut (g : Grid) (y : Nat) (f : Row → Option Row) : Option Grid := do
  let row ← g.visibleRow y
  let row ← f row
  return g.putRow y row

def newBlankRow (g : Grid) (fill : Cell) : Row := .filled g.cols fill

def removeVisibleRow (g : Grid) (y : Nat) : Option Grid := do
  ensure (g.scrollbackLen + y < g.cells.length)
  return { g with cells := g.cells.eraseIdx (g.scrollbackLen + y) }

def insertVisibleRow (g : Grid) (y : Nat) (row : Row) : Option Grid := do
  let cells ← insertAt g.cells (g.scrollbackLen + y) row
  return { g with cells }

/-- `check_invariants`: the debug assertions at the end of an operation. -/
def checkInvariants (g : Grid) : Option Grid := do
  ensure (g.pendingStart ≤ g.scrollbackLen)
  ensure (g.cells.length = g.scrollbackLen + g.rows)
  return g

/-- The first tab stop after `col`, or the right margin. -/
def nextTabStop (g : Grid) (col : Nat) : Option Nat :=
  match (g.tabStops.drop (col + 1)).findIdx? id with
  | some i => some (col + 1 + i)
  | none => sub g.cols 1

/-! ### Alternate screen support -/

/-- The visible rows, taken out of the buffer. -/
def drainVisible (g : Grid) : Option (List Row × Grid) := do
  ensure (g.scrollbackLen ≤ g.cells.length)
  return (g.cells.drop g.scrollbackLen, { g with cells := g.cells.take g.scrollbackLen })

def replaceVisible (g : Grid) (rows : List Row) : Grid :=
  { g with cells := g.cells.take g.scrollbackLen ++ rows }

def fillVisibleBlank (g : Grid) : Option Grid :=
  { g with cells := g.cells ++ List.replicate g.rows (.new g.cols) : Grid }.checkInvariants

/-- Trims or pads the buffer to `rows` visible rows. -/
def fitCells (g : Grid) : List Row :=
  g.cells.take (g.scrollbackLen + g.rows) ++
    List.replicate (g.scrollbackLen + g.rows - g.cells.length) (.new g.cols)

def adjustVisibleToFit (g : Grid) : Option Grid := { g with cells := g.fitCells }.checkInvariants

/-- Makes the newest `count` scrollback rows visible by moving the boundary. -/
def restoreScrollback (g : Grid) (count : Nat) : Option Grid := do
  ensure (count ≤ g.scrollbackLen)
  return { g with
    scrollbackLen := g.scrollbackLen - count
    pendingStart := min g.pendingStart (g.scrollbackLen - count) }

/-! ### Scrolling -/

/-- Drops the oldest scrollback row. -/
def popOldest (g : Grid) : Grid :=
  { g with
    cells := g.cells.tail
    scrollbackLen := g.scrollbackLen - 1
    pendingStart := g.pendingStart - 1 }

/-- The branch of `scroll_up` that keeps the top visible row as scrollback. -/
def scrollUpCapture (g : Grid) (visibleLen : Nat) (fill : Cell) : Option Grid := do
  let g := { g with scrollbackLen := g.scrollbackLen + 1 }
  let g := if g.scrollbackLen > g.scrollbackLimit then g.popOldest else g
  let last ← sub visibleLen 1
  if g.scrollBottom ≥ last then
    return { g with cells := g.cells ++ [g.newBlankRow fill] }
  else do
    let cells ← insertAt g.cells (g.scrollbackLen + g.scrollBottom) (g.newBlankRow fill)
    return { g with cells }

/-- The branch of `scroll_up` that drops the region's top row. -/
def scrollUpDrop (g : Grid) (visibleLen : Nat) (fill : Cell) : Option Grid := do
  let last ← sub visibleLen 1
  if g.scrollTop = 0 ∧ g.scrollBottom = last then
    return { g with cells := g.cells.eraseIdx g.scrollbackLen ++ [g.newBlankRow fill] }
  else do
    let cells ← insertAt (g.cells.eraseIdx (g.scrollbackLen + g.scrollTop))
      (g.scrollbackLen + g.scrollBottom) (g.newBlankRow fill)
    return { g with cells }

def scrollUp (g : Grid) (inAltScreen : Bool) (fill : Cell) : Option Grid := do
  let visibleLen ← sub g.cells.length g.scrollbackLen
  let g ←
    if ¬ inAltScreen ∧ g.scrollTop = 0 ∧ g.scrollbackLimit > 0 then g.scrollUpCapture visibleLen fill
    else if g.scrollTop ≤ g.scrollBottom ∧ g.scrollBottom < visibleLen then g.scrollUpDrop visibleLen fill
    else some g
  g.checkInvariants

def scrollDown (g : Grid) (fill : Cell) : Option Grid := do
  let visibleLen ← sub g.cells.length g.scrollbackLen
  let g ←
    if g.scrollTop ≤ g.scrollBottom ∧ g.scrollBottom < visibleLen then
      (insertAt (g.cells.eraseIdx (g.scrollbackLen + g.scrollBottom))
        (g.scrollbackLen + g.scrollTop) (g.newBlankRow fill)).map fun cells => { g with cells }
    else some g
  g.checkInvariants

def clearScrollback (g : Grid) : Option Grid := do
  ensure (g.scrollbackLen ≤ g.cells.length)
  { g with cells := g.cells.drop g.scrollbackLen, scrollbackLen := 0, pendingStart := 0 : Grid }.checkInvariants

def pendingScrollbackCount (g : Grid) : Nat := g.scrollbackLen - g.pendingStart

/-! ### Resizing -/

/-- A row brought to `cols` columns. -/
def fitRow (cols : Nat) (row : Row) : Option Row := do
  let row ← row.fixWideCharOrphanAtBoundary cols
  return row.resize cols {}

def resize (g : Grid) (cols rows : Nat) : Option Grid := do
  let d := sanitizeDimensions cols rows
  let g := { g with cols := d.cols, rows := d.rows }
  ensure (g.scrollbackLen ≤ g.cells.length)
  let visible ← (g.fitCells.drop g.scrollbackLen).mapM (fitRow g.cols)
  let right ← sub g.cols 1
  let bottom ← sub g.rows 1
  { g with
    cells := g.fitCells.take g.scrollbackLen ++ visible
    cursorX := if g.cursorX ≥ g.cols then right else g.cursorX
    cursorY := if g.cursorY ≥ g.rows then bottom else g.cursorY
    wrapPending := false
    scrollTop := 0
    scrollBottom := bottom
    tabStops := defaultTabStops g.cols : Grid }.checkInvariants

/-! ### Writing cells -/

/-- Blanks both halves of the wide character at `(x, y)`, if there is one. -/
def fixupWideCharAt (g : Grid) (x y : Nat) : Option Grid :=
  if y ≥ g.rows ∨ x ≥ g.cols then some g
  else do
    let cell ← (← g.visibleRow y).get x
    if cell.width = 2 then do
      let g ← if x + 1 < g.cols then g.visibleRowMut y (·.set (x + 1) {}) else some g
      g.visibleRowMut y (·.set x {})
    else if cell.width = 0 ∧ x > 0 then do
      let g ← g.visibleRowMut y (·.set (x - 1) {})
      g.visibleRowMut y (·.set x {})
    else some g

/-- `row[x] = cell` with the column's combining marks cleared. -/
def replaceCell (g : Grid) (x y : Nat) (cell : Cell) : Option Grid :=
  g.visibleRowMut y fun row => do
    let row ← row.set x cell
    return row.clearCombining x

/-- Writes a cell, and the continuation of a wide one, after blanking the
other halves of the wide characters it overwrites. -/
def setCell (g : Grid) (x y : Nat) (cell : Cell) : Option Grid :=
  if y ≥ g.rows ∨ x ≥ g.cols then some g
  else do
    let g ← g.fixupWideCharAt x y
    let g ← g.replaceCell x y cell
    if cell.width = 2 ∧ x + 1 < g.cols then do
      let g ← g.fixupWideCharAt (x + 1) y
      g.replaceCell (x + 1) y { c := '\x00', styleId := cell.styleId, width := 0 }
    else some g

/-- Columns `[lo, hi)` of row `y` become `blank`. -/
def eraseCells (g : Grid) (y lo hi : Nat) (blank : Cell) : Option Grid :=
  if y ≥ g.rows then some g
  else
    let lo := min lo g.cols
    let hi := min hi g.cols
    if lo ≥ hi then some g
    else do
      let g ← g.fixupWideCharAt lo y
      let g ← if hi < g.cols then g.fixupWideCharAt hi y else some g
      g.visibleRowMut y fun row => do
        let row ← iterFrom (fun i row => row.set i blank) lo (hi - lo) row
        return row.clearCombiningRange lo hi

/-- Every cell of rows `[lo, hi)` becomes `blank`. -/
def eraseRows (g : Grid) (lo hi : Nat) (blank : Cell) : Option Grid :=
  let lo := min lo g.rows
  let hi := min hi g.rows
  iterFrom (fun y g => g.visibleRowMut y fun row =>
    some { row with cells := row.cells.map fun _ => blank }.clearAllCombining) lo (hi - lo) g

end Grid

end Retach
