import Retach.Grid
/-!
# The screen state (`screen/mod.rs`)

The grid and the state next to it. `scrolledOff` is not in the code: it records
every row scrolled off the top of the main screen, oldest first, and nothing
reads it. The byte parser is outside the model: a screen processes the parser's
callbacks.
-/

open Checked

namespace Retach

/-- The cursor state saved by DECSC, `CSI s` and modes 1048 and 1049. -/
structure SavedCursor where
  x : Nat
  y : Nat
  style : Style
  g0Charset : Charset
  g1Charset : Charset
  activeCharset : ActiveCharset
  autowrapMode : Bool
  originMode : Bool
  wrapPending : Bool
deriving DecidableEq, Repr

def maxPending : Nat := 1024

def maxQueuedNotifications : Nat := 50

structure ScreenState where
  currentStyle : Style := {}
  inAltScreen : Bool := false
  savedGrid : Option SavedGrid := none
  savedCursorState : Option SavedCursor := none
  savedModes : Option TerminalModes := none
  savedScrollRegion : Option (Nat × Nat) := none
  pendingResponses : List (List UInt8) := []
  pendingPassthrough : List (List UInt8) := []
  queuedNotifications : List (List UInt8) := []
  /-- The bytes of a UTF-8 string, as are the entries of `titleStack`. -/
  title : List UInt8 := []
  titleStack : List (List UInt8) := []
  lastPrintedChar : Char := ' '

namespace ScreenState

def pushResponse (st : ScreenState) (data : List UInt8) : ScreenState :=
  if st.pendingResponses.length < maxPending then
    { st with pendingResponses := st.pendingResponses ++ [data] }
  else st

def pushPassthrough (st : ScreenState) (data : List UInt8) : ScreenState :=
  if st.pendingPassthrough.length < maxPending then
    { st with pendingPassthrough := st.pendingPassthrough ++ [data] }
  else st

/-- A full queue loses its oldest notification. -/
def pushNotification (st : ScreenState) (data : List UInt8) : ScreenState :=
  let queue :=
    if st.queuedNotifications.length ≥ maxQueuedNotifications then st.queuedNotifications.tail
    else st.queuedNotifications
  { st with queuedNotifications := queue ++ [data] }

end ScreenState

structure Screen where
  grid : Grid
  state : ScreenState
  /-- Ghost: the rows scrolled off the main screen. -/
  scrolledOff : List Row := []

/-- The ids used by the cells of `rows`. -/
def usesStyle (rows : List Row) (id : StyleId) : Bool := rows.any fun row => row.cells.any (·.styleId = id)

/-- Frees the style slots that no scrollback, visible or saved cell uses. -/
def compactStyles (g : Grid) (savedGrid : Option SavedGrid) : Grid :=
  if g.styleTable.capacity ≤ 1 then g
  else
    let saved := match savedGrid with
      | some saved => saved.visibleCells
      | none => []
    g.setStyleTable (g.styleTable.reclaim fun id =>
      id = 0 ∨ usesStyle (g.scrollbackRows ++ g.visibleRows ++ saved) id)

namespace Screen

def new (cols rows scrollbackLimit : Nat) : Screen :=
  { grid := .new cols rows scrollbackLimit, state := {} }

/-- Marks all scrollback as sent and returns what was not. -/
def takePendingScrollback (s : Screen) : List Row × Screen :=
  ((s.grid.scrollbackRows.drop s.grid.pendingStart).take s.grid.pendingScrollbackCount,
   { s with grid := { s.grid with pendingStart := s.grid.scrollbackLen } })

def takeResponses (s : Screen) : List (List UInt8) × Screen :=
  (s.state.pendingResponses, { s with state := { s.state with pendingResponses := [] } })

def takePassthrough (s : Screen) : List (List UInt8) × Screen :=
  (s.state.pendingPassthrough, { s with state := { s.state with pendingPassthrough := [] } })

def takeQueuedNotifications (s : Screen) : List (List UInt8) × Screen :=
  (s.state.queuedNotifications, { s with state := { s.state with queuedNotifications := [] } })

/-- The first part of `resize`: on the main screen, growing brings scrollback
rows back, and the cursor stays on its line. -/
def growIntoScrollback (s : Screen) (rows : Nat) : Option Grid :=
  if ¬ s.state.inAltScreen ∧ rows > s.grid.rows then do
    let count := min (rows - s.grid.rows) s.grid.scrollbackLen
    let g ← s.grid.restoreScrollback count
    return g.setCursorY (satAdd16 g.cursorY (min count u16Max))
  else some s.grid

def resize (s : Screen) (cols rows : Nat) : Option Screen := do
  let g ← s.growIntoScrollback rows
  let g ← g.resize cols rows
  return { s with grid := g }

end Screen

end Retach
