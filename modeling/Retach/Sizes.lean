import Mathlib.Algebra.GroupWithZero.Nat
import Retach.Bytes
import Retach.Effects
/-!
# The size of a frame

How many bytes the parts of a frame take, counted on the grid: an address for
each row, a text for each cell, a sequence for each change of style. A cell
takes at most 144 bytes.
-/

namespace Retach

namespace Event

/-- How many bytes are written. -/
def size (es : List Event) : Nat := (written es).length

@[simp] theorem size_nil : size [] = 0 := rfl

@[simp] theorem size_cons (e : Event) (es : List Event) : size (e :: es) = e.bytes.length + size es := by
  rw [size, written_cons, List.length_append]
  rfl

@[simp] theorem size_append (es es' : List Event) : size (es ++ es') = size es + size es' := by
  rw [size, written_append, List.length_append]
  rfl

theorem size_replicate (n : Nat) (e : Event) : size (List.replicate n e) = n * e.bytes.length := by
  induction n with
  | zero => rw [List.replicate_zero, size_nil, Nat.zero_mul]
  | succ n ih => rw [List.replicate_succ, size_cons, ih, Nat.succ_mul, Nat.add_comm]

/-- Leaving callbacks out makes a frame no longer. -/
theorem size_le_of_sublist {es es' : List Event} (h : es.Sublist es') : size es ≤ size es' := by
  induction h with
  | slnil => exact Nat.le_refl 0
  | cons e _ ih =>
    rw [size_cons]
    omega
  | cons_cons e _ ih =>
    rw [size_cons, size_cons]
    omega

theorem size_ite_le (p : Prop) [Decidable p] (es : List Event) : size (if p then es else []) ≤ size es := by
  split
  · exact Nat.le_refl _
  · exact Nat.zero_le _

/-! ## Numbers -/

/-- The digits of a number. -/
def digits (n : Nat) : Nat := (writeU16 n).length

theorem digits_le (n : Nat) : digits n ≤ 5 := by
  unfold digits writeU16
  simp only [List.length_append]
  repeat' split
  all_goals simp

theorem digits_lt {n : Nat} (h : n < 1000) : digits n ≤ 3 := by
  unfold digits writeU16
  rw [if_neg (by omega), if_neg (by omega)]
  simp only [List.length_append]
  repeat' split
  all_goals simp

theorem digits_small {n : Nat} (h : n < 10) : digits n = 1 := by
  unfold digits writeU16
  rw [if_neg (by omega), if_neg (by omega), if_neg (by omega), if_neg (by omega)]
  rfl

theorem paramBytes_length (n : Nat) : (paramBytes [n]).length = digits n := by
  rw [paramBytes, List.map_singleton, List.intercalate_singleton]
  rfl

/-! ## Sequences -/

@[simp] theorem cup_length (y x : Nat) : (cup y x).bytes.length = 4 + digits y + digits x := by
  have hutf : String.utf8EncodeChar 'H' = [0x48] := rfl
  simp [cup, bytes, hutf, paramBytes_length]
  omega

@[simp] theorem region_length (top bottom : Nat) : (csi [[top], [bottom]] [] 'r').bytes.length = 4 + digits top + digits bottom := by
  have hutf : String.utf8EncodeChar 'r' = [0x72] := rfl
  simp [bytes, hutf, paramBytes_length]
  omega

@[simp] theorem sgrReset_length : sgrReset.bytes.length = 4 := rfl

@[simp] theorem el_zero_length : (el 0).bytes.length = 3 := rfl

@[simp] theorem el_two_length : (el 2).bytes.length = 4 := rfl

@[simp] theorem print_length (c : Char) : (print c).bytes.length = c.utf8Size := String.length_utf8EncodeChar c

theorem size_print (cs : List Char) : size (cs.map print) = (cs.map Char.utf8Size).sum := by
  induction cs with
  | nil => rfl
  | cons c cs ih => rw [List.map_cons, size_cons, print_length, ih, List.map_cons, List.sum_cons]

theorem utf8Size_sum_le (cs : List Char) : (cs.map Char.utf8Size).sum ≤ 4 * cs.length := by
  induction cs with
  | nil => exact Nat.le_refl 0
  | cons c cs ih =>
    have hc := c.utf8Size_le_four
    rw [List.map_cons, List.sum_cons, List.length_cons]
    omega

end Event

open Event

/-! ## SGR -/

/-- The bytes of parameters, with a separator each. -/
def paramsSize (ps : List Param) : Nat := (ps.map fun p => (paramBytes p).length + 1).sum

theorem paramsSize_append (ps qs : List Param) : paramsSize (ps ++ qs) = paramsSize ps + paramsSize qs := by
  rw [paramsSize, List.map_append, List.sum_append]
  rfl

theorem paramsSize_intercalate (p : Param) (ps : List Param) :
    ([0x3b].intercalate ((p :: ps).map paramBytes)).length + 1 = paramsSize (p :: ps) := by
  induction ps generalizing p with
  | nil =>
    rw [List.map_singleton, List.intercalate_singleton]
    rfl
  | cons q ps ih =>
    rw [List.map_cons, List.map_cons, List.intercalate_cons_cons, ← List.map_cons, List.length_append, Nat.add_assoc, ih]
    simp only [paramsSize, List.map_cons, List.sum_cons, List.length_append, List.length_singleton]

theorem paramsSize_flag (on : Bool) {code : Nat} (h : code < 10) : paramsSize (Style.flagParams on code) ≤ 2 := by
  cases on with
  | false => exact Nat.zero_le 2
  | true =>
    have hd := digits_small h
    simp [paramsSize, Style.flagParams, paramBytes_length, hd]

theorem paramsSize_underline (u : UnderlineStyle) : paramsSize (Style.underlineParams u) ≤ 4 := by
  cases u <;> decide

theorem paramsSize_code {code : Nat} (hcode : code < 1000) : paramsSize [[code]] ≤ 18 := by
  have hcode := digits_lt hcode
  simp [paramsSize, paramBytes_length]
  omega

/-- `5;c` after the code of the colour. -/
theorem paramsSize_indexed {code : Nat} (hcode : code < 1000) (c : UInt8) : paramsSize [[code], [5], [c.toNat]] ≤ 18 := by
  have hcode := digits_lt hcode
  have hfive := digits_small (show 5 < 10 by decide)
  have hc := digits_lt (Nat.lt_trans c.toNat_lt (by decide))
  simp [paramsSize, paramBytes_length]
  omega

/-- `2;r;g;b` after the code of the colour. -/
theorem paramsSize_rgb {code : Nat} (hcode : code < 1000) (r g b : UInt8) :
    paramsSize [[code], [2], [r.toNat], [g.toNat], [b.toNat]] ≤ 18 := by
  have hcode := digits_lt hcode
  have htwo := digits_small (show 2 < 10 by decide)
  have hbyte (c : UInt8) : digits c.toNat ≤ 3 := digits_lt (Nat.lt_trans c.toNat_lt (by decide))
  have hr := hbyte r
  have hg := hbyte g
  have hb := hbyte b
  simp [paramsSize, paramBytes_length]
  omega

theorem paramsSize_color {base bright extended : Nat} (hbase : base < 900) (hbright : bright < 900) (hextended : extended < 900)
    (color : Option Color) : paramsSize (Style.colorParams base bright extended color) ≤ 18 := by
  rcases color with _ | (c | ⟨r, g, b⟩)
  · exact Nat.zero_le 18
  · rw [Style.colorParams]
    by_cases h8 : c.toNat < 8
    · rw [if_pos h8]
      exact paramsSize_code (by omega)
    · rw [if_neg h8]
      by_cases h16 : c.toNat < 16
      · rw [if_pos h16]
        exact paramsSize_code (by omega)
      · rw [if_neg h16]
        exact paramsSize_indexed (by omega) c
  · exact paramsSize_rgb (by omega) r g b

theorem paramsSize_underlineColor (color : Option Color) : paramsSize (Style.underlineColorParams color) ≤ 18 := by
  rcases color with _ | (c | ⟨r, g, b⟩)
  · exact Nat.zero_le 18
  · exact paramsSize_indexed (by decide) c
  · exact paramsSize_rgb (by decide) r g b

/-- The bytes of a style: introducer, parameters and final byte. -/
def Style.size (style : Style) : Nat := 2 + paramsSize style.sgrWithReset

theorem sgr_length (style : Style) : (Event.sgr style).bytes.length = style.size := by
  have hm : ¬ 'm' ∈ ['r', 'H', 'K'] := by decide
  have hutf : String.utf8EncodeChar 'm' = [0x6d] := rfl
  obtain ⟨p, ps, hps⟩ : ∃ p ps, style.sgrWithReset = p :: ps := by
    unfold Style.sgrWithReset
    split <;> exact ⟨_, _, rfl⟩
  have hlen := paramsSize_intercalate p ps
  rw [Style.size, hps, Event.sgr, hps, bytes]
  simp only [hm, false_and, if_false, hutf, List.flatMap_nil, List.append_nil, List.length_append, List.length_cons,
    List.length_nil, show ¬ ([] : List Char) = ['?'] by decide]
  omega

/-- The longest sequence sets everything. -/
theorem Style.size_le (style : Style) : style.size ≤ 76 := by
  unfold Style.size Style.sgrWithReset
  split
  · decide
  · have hreset : paramsSize ([0] :: style.sgrParams) = 2 + paramsSize style.sgrParams := rfl
    have hbold := paramsSize_flag style.bold (show 1 < 10 by decide)
    have hdim := paramsSize_flag style.dim (show 2 < 10 by decide)
    have hitalic := paramsSize_flag style.italic (show 3 < 10 by decide)
    have hunderline := paramsSize_underline style.underline
    have hblink := paramsSize_flag style.blink (show 5 < 10 by decide)
    have hinverse := paramsSize_flag style.inverse (show 7 < 10 by decide)
    have hhidden := paramsSize_flag style.hidden (show 8 < 10 by decide)
    have hstrike := paramsSize_flag style.strikethrough (show 9 < 10 by decide)
    have hfg := paramsSize_color (show 30 < 900 by decide) (show 90 < 900 by decide) (show 38 < 900 by decide) style.fg
    have hbg := paramsSize_color (show 40 < 900 by decide) (show 100 < 900 by decide) (show 48 < 900 by decide) style.bg
    have hcolor := paramsSize_underlineColor style.underlineColor
    rw [hreset]
    simp only [Style.sgrParams, paramsSize_append]
    omega

/-! ## Rows -/

/-- What the loop over the cells writes. -/
def cellsSize (t : StyleTable) (row : Row) : StyleId → Nat → List Cell → Nat
  | _, _, [] => 0
  | last, x, cell :: cells =>
    if cell.width = 0 then cellsSize t row last (x + 1) cells
    else
      (if cell.styleId ≠ last then (t.get cell.styleId).size else 0) + cell.c.utf8Size +
        ((row.marks x).map Char.utf8Size).sum + cellsSize t row cell.styleId (x + 1) cells

/-- The style written last. -/
def lastStyle : StyleId → List Cell → StyleId
  | last, [] => last
  | last, cell :: cells => lastStyle (if cell.width = 0 then last else cell.styleId) cells

namespace Row

/-- The cells of a row as a frame shows them. -/
def textSize (t : StyleTable) (row : Row) : Nat := cellsSize t row 0 0 (row.cells.take (writeLen row.cells))

/-- A scrollback line: it ends in the default style. -/
def lineSize (t : StyleTable) (row : Row) : Nat :=
  row.textSize t + if lastStyle 0 (row.cells.take (writeLen row.cells)) ≠ 0 then 4 else 0

theorem MarksBounded.marks_length {row : Row} (h : row.MarksBounded) (x : Nat) : (row.marks x).length ≤ maxCombining := by
  unfold Row.marks
  split
  next hfind => exact h _ (List.mem_of_find?_eq_some hfind)
  next => exact Nat.zero_le _

end Row

theorem size_paintCells (t : StyleTable) (row : Row) (last : StyleId) (x : Nat) (cells : List Cell) :
    size (paintCells t row last x cells).1 = cellsSize t row last x cells ∧
      (paintCells t row last x cells).2 = lastStyle last cells := by
  induction cells generalizing last x with
  | nil => exact ⟨rfl, rfl⟩
  | cons cell cells ih =>
    unfold paintCells cellsSize lastStyle
    by_cases hwidth : cell.width = 0
    · rw [if_pos hwidth, if_pos hwidth, if_pos hwidth]
      exact ih last (x + 1)
    · rw [if_neg hwidth, if_neg hwidth, if_neg hwidth]
      obtain ⟨hsize, hlast⟩ := ih cell.styleId (x + 1)
      refine ⟨?_, hlast⟩
      simp only [size_append, size_cons, size_print, print_length, hsize, apply_ite size, sgr_length, size_nil, Nat.add_zero]
      omega

/-- A style, a character and its marks for each cell. -/
theorem cellsSize_le (t : StyleTable) {row : Row} (h : row.MarksBounded) (last : StyleId) (x : Nat) (cells : List Cell) :
    cellsSize t row last x cells ≤ 144 * cells.length := by
  induction cells generalizing last x with
  | nil => exact Nat.le_refl 0
  | cons cell cells ih =>
    rw [cellsSize, List.length_cons]
    split
    · have := ih last (x + 1)
      omega
    · have hrest := ih cell.styleId (x + 1)
      have hchar := cell.c.utf8Size_le_four
      have hmarks := utf8Size_sum_le (row.marks x)
      have hbound := h.marks_length x
      have hstyle : (if cell.styleId ≠ last then (t.get cell.styleId).size else 0) ≤ 76 := by
        split
        · exact (t.get cell.styleId).size_le
        · exact Nat.zero_le _
      unfold maxCombining at hbound
      omega

theorem Row.textSize_le (t : StyleTable) {row : Row} (h : row.MarksBounded) : row.textSize t ≤ 144 * row.cells.length := by
  have hcells := cellsSize_le t h 0 0 (row.cells.take (writeLen row.cells))
  have htake := List.length_take_le' (writeLen row.cells) row.cells
  rw [textSize]
  omega

theorem Row.lineSize_le (t : StyleTable) {row : Row} (h : row.MarksBounded) : row.lineSize t ≤ 144 * row.cells.length + 4 := by
  have htext := textSize_le t h
  rw [lineSize]
  split <;> omega

theorem size_renderLine (row : Row) (t : StyleTable) : size (renderLine row t) = row.lineSize t := by
  obtain ⟨hsize, hlast⟩ := size_paintCells t row 0 0 (row.cells.take (writeLen row.cells))
  rw [renderLine, size_append, hsize, hlast, apply_ite size]
  rfl

theorem size_renderRow (t : StyleTable) (full : Bool) (y : Nat) (row : Row) :
    size (renderRow t full y row) = 9 + digits (y + 1) + row.textSize t + if full then 0 else 3 := by
  obtain ⟨hsize, -⟩ := size_paintCells t row 0 0 (row.cells.take (writeLen row.cells))
  have hone := digits_small (show 1 < 10 by decide)
  rw [renderRow, size_append, size_cons, cup_length, hone, hsize, Row.textSize]
  cases full with
  | true =>
    simp only [if_true, size_cons, size_nil, sgrReset_length]
    omega
  | false =>
    simp only [Bool.false_eq_true, if_false, size_cons, size_nil, sgrReset_length, el_zero_length]
    omega

/-- The rows of a full frame, from row `y` on. -/
def rowsSize (t : StyleTable) : Nat → List Row → Nat
  | _, [] => 0
  | y, row :: rows => 9 + digits (y + 1) + row.textSize t + rowsSize t (y + 1) rows

section Frames

variable {H : Type} [DecidableEq H] (R : RowHash H)

/-- A full frame skips no row. -/
theorem size_renderRows_full (t : StyleTable) (y : Nat) (rows : List Row) (hashes : List H) (hlen : rows.length ≤ hashes.length) :
    size (renderRows R t true y rows hashes).1 = rowsSize t y rows := by
  induction rows generalizing y hashes with
  | nil => rfl
  | cons row rows ih =>
    cases hashes with
    | nil => exact absurd hlen (Nat.not_succ_le_zero _)
    | cons h hashes =>
      have hrest := ih (y + 1) hashes (Nat.le_of_succ_le_succ hlen)
      have hskip : R.skips true h row = false := by simp [RowHash.skips]
      rw [renderRows, hskip, rowsSize, ← hrest]
      simp only [Bool.false_eq_true, if_false, size_append, size_renderRow, if_true, Nat.add_zero]

theorem size_renderRows_le (t : StyleTable) (full : Bool) {cols : Nat} (y : Nat) (rows : List Row) (hashes : List H)
    (h : ∀ row ∈ rows, row.cells.length = cols ∧ row.MarksBounded) :
    size (renderRows R t full y rows hashes).1 ≤ rows.length * (144 * cols + 17) := by
  induction rows generalizing y hashes with
  | nil => exact Nat.zero_le _
  | cons row rows ih =>
    obtain ⟨⟨hlen, hmarks⟩, hrest⟩ := List.forall_mem_cons.1 h
    rw [List.length_cons, Nat.succ_mul]
    cases hashes with
    | nil => exact Nat.zero_le _
    | cons h hashes =>
      have hmore := ih (y + 1) hashes hrest
      have htext := Row.textSize_le t hmarks
      have hy := digits_le (y + 1)
      rw [hlen] at htext
      rw [renderRows]
      split
      · exact Nat.le_trans hmore (Nat.le_add_right _ _)
      · rw [size_append, size_renderRow]
        split <;> omega

end Frames

/-! ## Scrollback -/

/-- What it takes to go to `n` rows from row `k` on, one after the other. -/
def addressSize (k n : Nat) : Nat := ((List.range' k n).map fun y => 9 + digits (y + 1)).sum

theorem addressSize_add (k n m : Nat) : addressSize k n + addressSize (k + n) m = addressSize k (n + m) := by
  rw [addressSize, addressSize, addressSize, ← List.sum_append, ← List.map_append, List.range'_append_1]

theorem addressSize_succ (k n : Nat) : addressSize k (n + 1) = 9 + digits (k + 1) + addressSize (k + 1) n := by
  rw [addressSize, List.range'_succ, List.map_cons, List.sum_cons]
  rfl

/-- The lines of a chunk, from row `k` on. -/
theorem size_chunkLines (k : Nat) (chunk : List (List Event)) :
    size (((chunk.zipIdx k).map fun p => cup (p.2 + 1) 1 :: sgrReset :: p.1 ++ [el 0]).flatten) =
      (chunk.map fun line => size line + 3).sum + addressSize k chunk.length := by
  have hone := digits_small (show 1 < 10 by decide)
  induction chunk generalizing k with
  | nil => rfl
  | cons line chunk ih =>
    rw [List.zipIdx_cons, List.map_cons, List.flatten_cons, size_append, ih, List.length_cons, addressSize_succ,
      List.map_cons, List.sum_cons]
    simp only [List.cons_append, size_cons, size_append, size_nil, cup_length, hone, sgrReset_length, el_zero_length]
    omega

/-- The rows below a chunk. -/
theorem size_chunkErased (k n : Nat) :
    size (((List.range n).map fun i => [cup (k + i + 1) 1, el 2]).flatten) = addressSize k n := by
  have hone := digits_small (show 1 < 10 by decide)
  induction n with
  | zero => rfl
  | succ n ih =>
    have hlast : addressSize (k + n) 1 = 9 + digits (k + n + 1) := rfl
    rw [List.range_succ, List.map_append, List.flatten_append, size_append, ih, ← addressSize_add, hlast]
    simp only [List.map_cons, List.map_nil, List.flatten_cons, List.flatten_nil, List.append_nil, size_cons, size_nil,
      cup_length, hone, el_two_length]
    omega

/-- A chunk goes to every row once, and once more to the last one. -/
theorem size_renderChunk {rows : Nat} {chunk : List (List Event)} (hlen : chunk.length ≤ rows) :
    size (renderChunk rows chunk) = (chunk.map fun line => size line + 4).sum + (5 + digits rows + addressSize 0 rows) := by
  have hone := digits_small (show 1 < 10 by decide)
  have hrows := addressSize_add 0 chunk.length (rows - chunk.length)
  rw [Nat.zero_add, Nat.add_sub_cancel' hlen] at hrows
  have hlines : size ((chunk.zipIdx.map fun p => cup (p.2 + 1) 1 :: sgrReset :: p.1 ++ [el 0]).flatten) = _ :=
    size_chunkLines 0 chunk
  have hfeeds : (chunk.map fun line => size line + 4).sum = (chunk.map fun line => size line + 3).sum + chunk.length := by
    clear hlines hlen hrows
    induction chunk with
    | nil => rfl
    | cons line chunk ih =>
      rw [List.map_cons, List.map_cons, List.sum_cons, List.sum_cons, ih, List.length_cons]
      omega
  have hlf : (execute 0x0a).bytes.length = 1 := rfl
  unfold renderChunk
  rw [size_append, size_append, size_chunkErased, size_cons, size_replicate, cup_length, hone, hlf]
  refine (congrArg (· + addressSize chunk.length (rows - chunk.length) + (4 + digits rows + 1 + chunk.length * 1)) hlines).trans ?_
  omega

theorem chunks_length {α : Type} (n : Nat) (l : List α) : (chunks n l).length = (l.length + n - 1) / n := by
  rw [chunks, List.length_map, List.length_range]

theorem size_renderChunks {rows : Nat} (hrows : 0 < rows) (lines : List (List Event)) :
    size ((chunks rows lines).map (renderChunk rows)).flatten = (lines.map fun line => size line + 4).sum +
      (chunks rows lines).length * (5 + digits rows + addressSize 0 rows) := by
  induction hn : lines.length using Nat.strongRecOn generalizing lines with
  | ind n ih =>
    subst hn
    rcases eq_or_ne lines [] with rfl | hne
    · rw [chunks_nil hrows, List.length_nil, Nat.zero_mul]
      rfl
    · have hpos := List.length_pos_iff.2 hne
      have hrest := ih (lines.drop rows).length (by rw [List.length_drop]; omega) (lines.drop rows) rfl
      have hsplit : (lines.map fun line => size line + 4).sum =
          ((lines.take rows).map fun line => size line + 4).sum + ((lines.drop rows).map fun line => size line + 4).sum := by
        rw [← List.sum_append, ← List.map_append, List.take_append_drop]
      rw [chunks_eq_cons hrows hne, List.map_cons, List.flatten_cons, size_append, hrest, List.length_cons, Nat.succ_mul,
        size_renderChunk (List.length_take_le _ _), hsplit]
      omega

/-- Scrollback lines in front of a frame. -/
theorem size_renderScrollback {g : Grid} (hrows : 0 < g.rows) (lines : List (List Event)) :
    size (renderScrollback g lines) = 9 + (lines.map fun line => size line + 4).sum +
      (lines.length + g.rows - 1) / g.rows * (5 + digits g.rows + addressSize 0 g.rows) := by
  have hhide : (decReset 25).bytes.length = 6 := rfl
  have hregion : (csi [[0]] [] 'r').bytes.length = 3 := rfl
  rw [renderScrollback, size_cons, size_cons, size_renderChunks hrows, chunks_length, hhide, hregion]
  omega

/-! ## Modes, cursor and title -/

theorem emitDecMode_length (code : Nat) (enabled : Bool) : (emitDecMode code enabled).bytes.length = 4 + digits code := by
  have hh : String.utf8EncodeChar 'h' = [0x68] := rfl
  have hl : String.utf8EncodeChar 'l' = [0x6c] := rfl
  have hmem : ¬ 'h' ∈ ['r', 'H', 'K'] ∧ ¬ 'l' ∈ ['r', 'H', 'K'] := by decide
  cases enabled with
  | true =>
    simp only [emitDecMode, if_true, decSet, bytes, hmem, false_and, if_false, hh, List.map_cons, List.map_nil,
      List.intercalate_singleton, List.length_append, List.length_cons, List.length_nil, paramBytes_length]
    omega
  | false =>
    simp only [emitDecMode, Bool.false_eq_true, decReset, bytes, hmem, false_and, if_false, hl, List.map_cons, List.map_nil,
      if_true, List.intercalate_singleton, List.length_append, List.length_cons, List.length_nil, paramBytes_length]
    omega

theorem size_emitMode (m : TerminalModes) : size (emitMode m) = 85 := by
  have hshape : (emitCursorShape m.cursorShape).bytes.length = 5 := by cases m.cursorShape <;> rfl
  have hmouse : size (emitMouseEncoding m.mouseEncoding) = 16 := by cases m.mouseEncoding <;> rfl
  have hkeypad : (emitKeypad m.keypadAppMode).bytes.length = 2 := by cases m.keypadAppMode <;> rfl
  have hg0 : (emitCharset '(' m.g0Charset).bytes.length = 3 := by cases m.g0Charset <;> rfl
  have hg1 : (emitCharset ')' m.g1Charset).bytes.length = 3 := by cases m.g1Charset <;> rfl
  have hactive : (emitActive m.activeCharset).bytes.length = 1 := by cases m.activeCharset <;> rfl
  simp only [emitMode, size_append, size_cons, size_nil, emitDecMode_length, hshape, hmouse, hkeypad, hg0, hg1, hactive]
  rfl

/-- A change of mode is sent as it is when all modes are. -/
theorem emitModeDelta_sublist (m prev : TerminalModes) : (emitModeDelta m prev).Sublist (emitMode m) := by
  have hone {α : Type} [DecidableEq α] (a prev : α) (es : List Event) : (onChange a prev es).Sublist es := by
    unfold onChange
    split
    · exact .refl es
    · exact List.nil_sublist es
  have hall : emitMode m = [emitCursorShape m.cursorShape] ++ [emitDecMode 1 m.cursorKeyMode] ++ [emitDecMode 6 m.originMode] ++
      [emitDecMode 7 m.autowrapMode] ++ [emitDecMode 2004 m.bracketedPaste] ++ [emitDecMode 1000 m.mouseModes.click] ++
      [emitDecMode 1002 m.mouseModes.button] ++ [emitDecMode 1003 m.mouseModes.any] ++ emitMouseEncoding m.mouseEncoding ++
      [emitDecMode 1004 m.focusReporting] ++ [emitKeypad m.keypadAppMode] ++ [emitCharset '(' m.g0Charset] ++
      [emitCharset ')' m.g1Charset] ++ [emitActive m.activeCharset] := by
    simp [emitMode]
  rw [hall]
  unfold emitModeDelta
  repeat' apply List.Sublist.append
  all_goals exact hone _ _ _

theorem size_modeEvents_le (m : TerminalModes) (full : Bool) (last : Option TerminalModes) : size (modeEvents m full last) ≤ 85 := by
  have hall := size_emitMode m
  cases last with
  | none => exact Nat.le_of_eq hall
  | some prev =>
    rw [modeEvents]
    split
    · exact Nat.le_trans (size_le_of_sublist (emitModeDelta_sublist m prev)) (Nat.le_of_eq hall)
    · exact Nat.le_of_eq hall

/-- The region, the modes and the cursor, and a title that is empty. -/
def tailSize (g : Grid) : Nat :=
  98 + digits (g.scrollTop + 1) + digits (g.scrollBottom + 1) + digits (g.cursorY + 1) + digits (g.cursorX + 1)

theorem tailSize_le (g : Grid) : tailSize g ≤ 118 := by
  have htop := digits_le (g.scrollTop + 1)
  have hbottom := digits_le (g.scrollBottom + 1)
  have hy := digits_le (g.cursorY + 1)
  have hx := digits_le (g.cursorX + 1)
  rw [tailSize]
  omega

section Frames

variable {H : Type} [DecidableEq H] (R : RowHash H)

omit [DecidableEq H] in
theorem size_tail_full (g : Grid) (cache : RenderCache H) (h : cache.lastModes = none) :
    size (renderModesTitleCursor g [] true cache).1 = tailSize g := by
  have htitle : (titleEvent []).bytes.length = 5 := rfl
  unfold renderModesTitleCursor
  simp only [true_or, if_true, size_append, size_cons, size_nil, region_length, cup_length, htitle, h, modeEvents, size_emitMode]
  rw [tailSize]
  omega

omit [DecidableEq H] in
theorem size_tail_le (g : Grid) (full : Bool) (cache : RenderCache H) :
    size (renderModesTitleCursor g [] full cache).1 ≤ tailSize g := by
  have hmodes := size_modeEvents_le g.modes full cache.lastModes
  have htitle : (titleEvent []).bytes.length = 5 := rfl
  have h₁ := size_ite_le (full = true ∨ cache.lastScrollRegion ≠ some (g.scrollTop, g.scrollBottom))
    [csi [[g.scrollTop + 1], [g.scrollBottom + 1]] [] 'r']
  have h₂ := size_ite_le (full = true ∨ cache.lastCursor ≠ some (g.cursorX, g.cursorY)) [cup (g.cursorY + 1) (g.cursorX + 1)]
  have h₃ := size_ite_le (full = true ∨ ([] : List UInt8) ≠ cache.lastTitle) [titleEvent []]
  unfold renderModesTitleCursor
  simp only [size_append, size_cons, size_nil, region_length, cup_length, htitle] at h₁ h₂ h₃ ⊢
  rw [tailSize]
  omega

end Frames

end Retach
