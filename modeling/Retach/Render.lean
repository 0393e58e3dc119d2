import Retach.Performer
/-!
# Rendering (`screen/render.rs`)

A frame is the escape sequences and characters that show a grid on another
terminal. Its bytes are written here as the callbacks that a parser makes of
them; an absent parameter reaches the callback as 0. Rows hold only characters
that the parser printed, so their bytes are printed again.
-/

open Checked

namespace Retach

namespace Event

/-- `CSI y ; x H`. -/
def cup (y x : Nat) : Event := .csi [[y], [x]] [] 'H'

/-- `CSI 0 m`. -/
def sgrReset : Event := .csi [[0]] [] 'm'

/-- `write_sgr_with_reset_to`. -/
def sgr (style : Style) : Event := .csi style.sgrWithReset [] 'm'

/-- `CSI n K`. -/
def el (n : Nat) : Event := .csi [[n]] [] 'K'

end Event

/-! ## Rows -/

/-- A visible character or a style other than the default. -/
def Cell.hasContent (c : Cell) : Bool := (c.c ≠ ' ' ∧ c.c ≠ '\x00') ∨ c.styleId ≠ 0

/-- `last_content_position`: the last cell with content. -/
def lastContentPosition (cells : List Cell) : Option Nat :=
  (cells.reverse.findIdx? Cell.hasContent).map fun i => cells.length - 1 - i

/-- How many cells of a row are written. -/
def writeLen (cells : List Cell) : Nat :=
  match lastContentPosition cells with
  | some p => p + 1
  | none => 0

/-- The loop over the cells of a row from column `x` on, with the style written
last. Continuation cells are skipped. -/
def paintCells (t : StyleTable) (row : Row) : StyleId → Nat → List Cell → List Event × StyleId
  | last, _, [] => ([], last)
  | last, x, cell :: cells =>
    if cell.width = 0 then paintCells t row last (x + 1) cells
    else
      let rest := paintCells t row cell.styleId (x + 1) cells
      ((if cell.styleId ≠ last then [.sgr (t.get cell.styleId)] else []) ++
        .print cell.c :: (row.marks x).map .print ++ rest.1, rest.2)

/-- `render_line`. -/
def renderLine (row : Row) (t : StyleTable) : List Event :=
  let painted := paintCells t row 0 0 (row.cells.take (writeLen row.cells))
  painted.1 ++ if painted.2 ≠ 0 then [.sgrReset] else []

/-- One row of a frame. A full frame has cleared the screen before. -/
def renderRow (t : StyleTable) (full : Bool) (y : Nat) (row : Row) : List Event :=
  .cup (y + 1) 1 :: (paintCells t row 0 0 (row.cells.take (writeLen row.cells))).1 ++
    if full then [.sgrReset] else [.sgrReset, .el 0]

/-! ## Modes -/

def emitDecMode (code : Nat) (enabled : Bool) : Event := if enabled then .decSet code else .decReset code

/-- `slot` is `(` for G0 and `)` for G1. -/
def emitCharset (slot : Char) (charset : Charset) : Event :=
  .esc [slot] (match charset with
    | .ascii => 'B'
    | .lineDrawing => '0')

def emitMouseEncoding : MouseEncoding → List Event
  | .sgr => [.decReset 1005, .decSet 1006]
  | .utf8 => [.decReset 1006, .decSet 1005]
  | .x10 => [.decReset 1006, .decReset 1005]

def emitCursorShape (shape : CursorShape) : Event := .csi [[shape.toParam]] [' '] 'q'

def emitKeypad (app : Bool) : Event := .esc [] (if app then '=' else '>')

/-- SI for G0, SO for G1. -/
def emitActive (active : ActiveCharset) : Event :=
  .execute (match active with
    | .g0 => 0x0f
    | .g1 => 0x0e)

def emitMode (m : TerminalModes) : List Event :=
  [emitCursorShape m.cursorShape, emitDecMode 1 m.cursorKeyMode, emitDecMode 6 m.originMode,
    emitDecMode 7 m.autowrapMode, emitDecMode 2004 m.bracketedPaste, emitDecMode 1000 m.mouseModes.click,
    emitDecMode 1002 m.mouseModes.button, emitDecMode 1003 m.mouseModes.any] ++
  emitMouseEncoding m.mouseEncoding ++
  [emitDecMode 1004 m.focusReporting, emitKeypad m.keypadAppMode, emitCharset '(' m.g0Charset,
    emitCharset ')' m.g1Charset, emitActive m.activeCharset]

/-- Events emitted on a change. -/
def onChange {α : Type} [DecidableEq α] (a prev : α) (es : List Event) : List Event := if a ≠ prev then es else []

/-- Only the modes that changed. -/
def emitModeDelta (m prev : TerminalModes) : List Event :=
  onChange m.cursorShape prev.cursorShape [emitCursorShape m.cursorShape] ++
  onChange m.cursorKeyMode prev.cursorKeyMode [emitDecMode 1 m.cursorKeyMode] ++
  onChange m.originMode prev.originMode [emitDecMode 6 m.originMode] ++
  onChange m.autowrapMode prev.autowrapMode [emitDecMode 7 m.autowrapMode] ++
  onChange m.bracketedPaste prev.bracketedPaste [emitDecMode 2004 m.bracketedPaste] ++
  onChange m.mouseModes.click prev.mouseModes.click [emitDecMode 1000 m.mouseModes.click] ++
  onChange m.mouseModes.button prev.mouseModes.button [emitDecMode 1002 m.mouseModes.button] ++
  onChange m.mouseModes.any prev.mouseModes.any [emitDecMode 1003 m.mouseModes.any] ++
  onChange m.mouseEncoding prev.mouseEncoding (emitMouseEncoding m.mouseEncoding) ++
  onChange m.focusReporting prev.focusReporting [emitDecMode 1004 m.focusReporting] ++
  onChange m.keypadAppMode prev.keypadAppMode [emitKeypad m.keypadAppMode] ++
  onChange m.g0Charset prev.g0Charset [emitCharset '(' m.g0Charset] ++
  onChange m.g1Charset prev.g1Charset [emitCharset ')' m.g1Charset] ++
  onChange m.activeCharset prev.activeCharset [emitActive m.activeCharset]

/-- The modes that a frame sends. -/
def modeEvents (m : TerminalModes) (full : Bool) : Option TerminalModes → List Event
  | some prev => if ¬ full then emitModeDelta m prev else emitMode m
  | none => emitMode m

/-! ## The title -/

/-- Where the parser cuts the payload of an OSC sequence. -/
def splitParams : List UInt8 → List (List UInt8)
  | [] => [[]]
  | b :: bs =>
    if b = 0x3b then [] :: splitParams bs
    else match splitParams bs with
      | p :: ps => (b :: p) :: ps
      | [] => [[b]]

/-- The first piece ends before the first semicolon. -/
theorem splitParams_head (l : List UInt8) : ∃ ps, splitParams l = l.takeWhile (· ≠ 0x3b) :: ps := by
  induction l with
  | nil => exact ⟨[], rfl⟩
  | cons b bs ih =>
    obtain ⟨ps, hps⟩ := ih
    unfold splitParams
    by_cases hsep : b = 0x3b
    · exact ⟨splitParams bs, by rw [if_pos hsep, List.takeWhile_cons_of_neg (by simpa using hsep)]⟩
    · exact ⟨ps, by rw [if_neg hsep, hps, List.takeWhile_cons_of_pos (by simpa using hsep)]⟩

/-- What the parser reads of a payload when `n` more bytes fit in its buffer, which
does not hold the semicolons. -/
def oscKept : Nat → List UInt8 → List UInt8
  | _, [] => []
  | 0, _ => []
  | n + 1, b :: bs => b :: oscKept (if b = 0x3b then n + 1 else n) bs

theorem oscKept_of_length_le {l : List UInt8} {n : Nat} (h : l.length ≤ n) : oscKept n l = l := by
  induction l generalizing n with
  | nil => cases n <;> rfl
  | cons b bs ih =>
    obtain ⟨m, rfl⟩ : ∃ m, n = m + 1 := ⟨n - 1, by rw [List.length_cons] at h; omega⟩
    rw [List.length_cons] at h
    rw [oscKept, ih (by split <;> omega)]

/-- The first piece fits in the buffer. -/
theorem oscKept_piece (n : Nat) (l : List UInt8) : ((oscKept n l).takeWhile (· ≠ 0x3b)).length ≤ n := by
  induction l generalizing n with
  | nil => cases n <;> exact Nat.zero_le _
  | cons b bs ih =>
    cases n with
    | zero => exact Nat.le_refl 0
    | succ n =>
      rw [oscKept]
      by_cases hsep : b = 0x3b
      · rw [List.takeWhile_cons_of_neg (by simpa using hsep)]
        exact Nat.zero_le _
      · rw [List.takeWhile_cons_of_pos (by simpa using hsep), if_neg hsep]
        exact Nat.succ_le_succ (ih n)

/-- Control bytes are left out. The parser's buffer holds 1024 bytes, the first
of which is the `2`. -/
def titleEvent (title : List UInt8) : Event :=
  .osc ([0x32] :: splitParams (oscKept 1023 (title.filter fun b => b ≥ 0x20 ∧ b ≠ 0x7f))) true

/-! ## The cache -/

/-- What the client has been shown. `H` is the type of row hashes. -/
structure RenderCache (H : Type) where
  rowHashes : List H := []
  lastModes : Option TerminalModes := none
  lastScrollRegion : Option (Nat × Nat) := none
  lastTitle : List UInt8 := []
  lastCursor : Option (Nat × Nat) := none
  lastCursorVisible : Option Bool := none

/-- The hash of rows, and the value that stands for a row never painted
(`u64::MAX`). -/
structure RowHash (H : Type) where
  hash : Row → H
  unset : H

namespace RenderCache

variable {H : Type}

/-- `Vec::resize`. -/
def resizeHashes (R : RowHash H) (n : Nat) (hashes : List H) : List H :=
  hashes.take n ++ List.replicate (n - hashes.length) R.unset

/-- The hashes that `n` rows are compared with. -/
def hashesFor (R : RowHash H) (n : Nat) (cache : RenderCache H) : List H :=
  if cache.rowHashes.length ≠ n then resizeHashes R n cache.rowHashes else cache.rowHashes

/-- `invalidate`. -/
def invalidate (_ : RenderCache H) : RenderCache H := {}

end RenderCache

/-- The row loop leaves the row alone. -/
def RowHash.skips {H : Type} [DecidableEq H] (R : RowHash H) (full : Bool) (h : H) (row : Row) : Bool :=
  ¬ full ∧ h = R.hash row

/-! ## Frames -/

/-- `slice::chunks`. -/
def chunks {α : Type} (n : Nat) (l : List α) : List (List α) :=
  (List.range ((l.length + n - 1) / n)).map fun i => (l.drop (i * n)).take n

theorem chunks_nil {α : Type} {n : Nat} (hn : 0 < n) : chunks n ([] : List α) = [] := by
  rw [chunks, List.length_nil, Nat.zero_add, Nat.div_eq_of_lt (Nat.sub_lt hn Nat.one_pos)]
  rfl

theorem chunks_eq_cons {α : Type} {n : Nat} (hn : 0 < n) {l : List α} (hl : l ≠ []) :
    chunks n l = l.take n :: chunks n (l.drop n) := by
  have hpos := List.length_pos_iff.2 hl
  have hcount : (l.length + n - 1) / n = ((l.drop n).length + n - 1) / n + 1 := by
    rw [List.length_drop, ← Nat.add_div_right _ hn]
    rcases Nat.lt_or_ge l.length n with hlt | hge
    · rw [Nat.sub_eq_zero_of_le (Nat.le_of_lt hlt), Nat.div_eq_of_lt_le (k := 1) (by omega) (by omega),
        Nat.div_eq_of_lt_le (k := 1) (by omega) (by omega)]
    · rw [show l.length - n + n - 1 + n = l.length + n - 1 by omega]
  rw [chunks, hcount, List.range_succ_eq_map, List.map_cons, List.map_map, Nat.zero_mul, List.drop_zero, chunks]
  refine congrArg _ (List.map_congr_left fun i _ => ?_)
  rw [Function.comp_apply, List.drop_drop, Nat.succ_mul, Nat.add_comm]

section Frames

variable {H : Type} [DecidableEq H] (R : RowHash H)

/-- One chunk of scrollback lines: written from the top, the rows below erased,
then scrolled off by line feeds at the bottom. -/
def renderChunk (rows : Nat) (chunk : List (List Event)) : List Event :=
  ((chunk.zipIdx.map fun (line, i) => .cup (i + 1) 1 :: .sgrReset :: line ++ [.el 0]).flatten) ++
  (((List.range (rows - chunk.length)).map fun i => [.cup (chunk.length + i + 1) 1, .el 2]).flatten) ++
  .cup rows 1 :: List.replicate chunk.length (.execute 0x0a)

def renderScrollback (g : Grid) (scrollback : List (List Event)) : List Event :=
  .decReset 25 :: .csi [[0]] [] 'r' :: ((chunks g.rows scrollback).map (renderChunk g.rows)).flatten

/-- The rows from `y` on whose hashes have changed, and the hashes after. -/
def renderRows (t : StyleTable) (full : Bool) : Nat → List Row → List H → List Event × List H
  | y, row :: rows, h :: hashes =>
    let rest := renderRows t full (y + 1) rows hashes
    if R.skips full h row then (rest.1, h :: rest.2)
    else (renderRow t full y row ++ rest.1, R.hash row :: rest.2)
  | _, _, hashes => ([], hashes)

/-- DECSTBM, modes, cursor and title. -/
def renderModesTitleCursor (g : Grid) (title : List UInt8) (full : Bool) (cache : RenderCache H) :
    List Event × RenderCache H :=
  let region := (g.scrollTop, g.scrollBottom)
  let cursor := (g.cursorX, g.cursorY)
  let regionEvents :=
    if full ∨ cache.lastScrollRegion ≠ some region then [.csi [[g.scrollTop + 1], [g.scrollBottom + 1]] [] 'r'] else []
  let cursorEvents := if full ∨ cache.lastCursor ≠ some cursor then [.cup (g.cursorY + 1) (g.cursorX + 1)] else []
  let titleEvents := if full ∨ title ≠ cache.lastTitle then [titleEvent title] else []
  (regionEvents ++ modeEvents g.modes full cache.lastModes ++ cursorEvents ++ titleEvents,
    { cache with
      lastScrollRegion := some region, lastModes := some g.modes, lastCursor := some cursor, lastTitle := title })

/-- A full frame clears the screen first. -/
def clearEvents (full : Bool) : List Event := if full then [.sgrReset, .csi [[2]] [] 'J', .csi [[0]] [] 'H'] else []

/-- The part of a frame between its header and the cursor's visibility. -/
def renderBody (g : Grid) (title : List UInt8) (full : Bool) (cache : RenderCache H) : List Event × RenderCache H :=
  let cache := if full then cache.invalidate else cache
  let rows := renderRows R g.styleTable full 0 g.visibleRows (cache.hashesFor R g.visibleRowCount)
  let tail := renderModesTitleCursor g title full { cache with rowHashes := rows.2 }
  (clearEvents full ++ rows.1 ++ tail.1, tail.2)

/-- `render_screen_impl`. A frame with nothing to show is empty. -/
def renderScreenImpl (g : Grid) (title : List UInt8) (scrollback : List (List Event)) (full : Bool)
    (cache : RenderCache H) : List Event × RenderCache H :=
  let injected := if scrollback ≠ [] then renderScrollback g scrollback else []
  let cache := if scrollback ≠ [] then cache.invalidate else cache
  let body := renderBody R g title (full || decide (scrollback ≠ [])) cache
  if body.1 = [] ∧ body.2.lastCursorVisible = some g.cursorVisible then (injected, body.2)
  else
    (injected ++ [.decSet 2026, .decReset 25] ++ body.1 ++ (if g.cursorVisible then [.decSet 25] else []) ++
      [.decReset 2026], { body.2 with lastCursorVisible := some g.cursorVisible })

/-- The cache after a frame, empty or not. -/
theorem renderScreenImpl_cache (g : Grid) (title : List UInt8) (scrollback : List (List Event)) (full : Bool)
    (cache : RenderCache H) : (renderScreenImpl R g title scrollback full cache).2 =
      { (renderBody R g title (full || decide (scrollback ≠ [])) (if scrollback ≠ [] then cache.invalidate else cache)).2 with
        lastCursorVisible := some g.cursorVisible } := by
  unfold renderScreenImpl
  dsimp only
  generalize renderBody R g title (full || decide (scrollback ≠ []))
    (if scrollback ≠ [] then cache.invalidate else cache) = body
  by_cases hempty : body.1 = [] ∧ body.2.lastCursorVisible = some g.cursorVisible
  · rw [if_pos hempty, ← hempty.2]
  · rw [if_neg hempty]

namespace Screen

def getHistory (s : Screen) : List (List Event) := s.grid.scrollbackRows.map fun row => renderLine row s.grid.styleTable

def render (s : Screen) (full : Bool) (cache : RenderCache H) : List Event × RenderCache H :=
  renderScreenImpl R s.grid s.state.title [] full cache

end Screen

end Frames

end Retach
