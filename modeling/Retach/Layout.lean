import Retach.Injection
import Retach.Lib.Breaking
/-!
# The layout of printed text

Text printed on a new screen is broken into lines greedily. A line that is full
leaves the wrap pending, a wide character with one column left leaves it blank;
the screen scrolls for a new line in its last row, and nothing is lost as long
as the scrollback has room.
-/

open Checked Runs Breaking

namespace Retach

/-- Characters of one or two columns. -/
def UnicodeWidth.Prints (W : UnicodeWidth) (text : List Char) : Prop := ∀ c ∈ text, W.charWidth c = 1 ∨ W.charWidth c = 2

/-- The cells of a line in the default style. -/
def lineCells (W : UnicodeWidth) (line : List Char) : List Cell :=
  line.flatMap fun c => Cell.laid { c, styleId := 0, width := W.charWidth c }

/-- The row of a line, filled up with blanks. -/
def lineRow (W : UnicodeWidth) (cols : Nat) (line : List Char) : Row where
  cells := lineCells W line ++ List.replicate (cols - lineWidth W.charWidth line) {}

section

variable {W : UnicodeWidth} {cols : Nat} {line : List Char} {c : Char}

theorem lineRow_nil : lineRow W cols [] = .new cols := rfl

theorem laid_length (hc : W.charWidth c = 1 ∨ W.charWidth c = 2) :
    (Cell.laid { c, styleId := 0, width := W.charWidth c }).length = W.charWidth c := by
  unfold Cell.laid
  rcases hc with hc | hc <;> rw [hc] <;> rfl

theorem lineCells_length (h : W.Prints line) : (lineCells W line).length = lineWidth W.charWidth line := by
  rw [lineCells, List.length_flatMap, lineWidth]
  exact congrArg List.sum (List.map_congr_left fun c hc => laid_length (h c hc))

/-- One more character on a line that has room for it. -/
theorem lineRow_written (h : W.Prints line) (hc : W.charWidth c = 1 ∨ W.charWidth c = 2)
    (hroom : lineWidth W.charWidth line + W.charWidth c ≤ cols) :
    (lineRow W cols line).written (lineWidth W.charWidth line) { c, styleId := 0, width := W.charWidth c } =
      lineRow W cols (line ++ [c]) := by
  have hlaid := laid_length hc
  have hblanks : Paired (List.replicate (cols - lineWidth W.charWidth line) {}) := .replicate (single_blank 0) _
  have hfit : (Cell.laid { c, styleId := 0, width := W.charWidth c }).length ≤
      (List.replicate (cols - lineWidth W.charWidth line) ({} : Cell)).length := by
    rw [hlaid, List.length_replicate]
    omega
  obtain ⟨hcells, -⟩ := writeCell_append (lineCells W line) hblanks hfit
  have hroom' : cols - lineWidth W.charWidth line - W.charWidth c = cols - lineWidth W.charWidth (line ++ [c]) := by
    rw [lineWidth_append, lineWidth_singleton]
    omega
  rw [lineCells_length h, hlaid, List.drop_replicate, hroom', (Paired.replicate (single_blank 0) _).healed_eq] at hcells
  have hrow : ((lineRow W cols line).written (lineWidth W.charWidth line) { c, styleId := 0, width := W.charWidth c }).cells =
      (lineRow W cols (line ++ [c])).cells := by
    rw [Row.written_cells, lineRow, hcells, lineRow, lineCells, lineCells, List.flatMap_append, List.flatMap_singleton]
  have hmarks : ((lineRow W cols line).written (lineWidth W.charWidth line) { c, styleId := 0, width := W.charWidth c }).combining = [] := by
    unfold Row.written
    dsimp only
    split <;> rfl
  calc (lineRow W cols line).written (lineWidth W.charWidth line) { c, styleId := 0, width := W.charWidth c }
      = ⟨(lineRow W cols (line ++ [c])).cells, []⟩ := by rw [← hrow, ← hmarks]
    _ = lineRow W cols (line ++ [c]) := rfl

end

namespace Screen

/-- With autowrap on, and no wrap pending. -/
theorem passed_eq {g : Grid} (hauto : g.modes.autowrapMode = true) (hclear : g.wrapPending = false) (width : Nat) :
    passed width g = (g.setCursorX (min (g.cursorX + width) (g.cols - 1))).setWrapPending (decide (g.cols ≤ g.cursorX + width)) := by
  unfold passed
  by_cases hroom : g.cursorX + width < g.cols
  · rw [if_pos hroom, Nat.min_eq_left (by omega), decide_eq_false (by omega), ← hclear]
    rfl
  · rw [if_neg hroom, if_pos hauto, Nat.min_eq_right (by omega), decide_eq_true (by omega)]

/-- The screen after text whose ended lines are `done` and whose last line is
`line`: their rows fill the scrollback and the screen down to the cursor. -/
structure Laid (W : UnicodeWidth) (s : Screen) (done : List (List Char)) (line : List Char) : Prop where
  style : s.state.currentStyle = {}
  main : s.state.inAltScreen = false
  modes : s.grid.modes = {}
  top : s.grid.scrollTop = 0
  bottom : s.grid.scrollBottom + 1 = s.grid.rows
  cells : s.grid.cells = (done ++ [line]).map (lineRow W s.grid.cols) ++
    List.replicate (s.grid.rows - (done.length + 1)) (.new s.grid.cols)
  scrollback : s.grid.scrollbackLen = done.length + 1 - s.grid.rows
  cursorY : s.grid.scrollbackLen + s.grid.cursorY = done.length
  cursorX : s.grid.cursorX = min (lineWidth W.charWidth line) (s.grid.cols - 1)
  wrap : s.grid.wrapPending = true ↔ s.grid.cols ≤ lineWidth W.charWidth line
  fits : lineWidth W.charWidth line ≤ s.grid.cols
  prints : W.Prints line

namespace Laid

variable {W : UnicodeWidth} {s : Screen} {done : List (List Char)} {line : List Char} {c : Char}

theorem hasRow (hs : s.Laid W done line) (h : s.Inv) : s.grid.HasRow s.grid.cursorY (lineRow W s.grid.cols line) := by
  refine ⟨h.shape.cursor_y, ?_⟩
  rw [hs.cells, hs.cursorY, List.map_append, List.append_assoc, List.getElem?_append_right (by simp)]
  simp

theorem cursorX_eq (hs : s.Laid W done line) (hroom : lineWidth W.charWidth line < s.grid.cols) :
    s.grid.cursorX = lineWidth W.charWidth line := by
  rw [hs.cursorX]
  omega

theorem clear (hs : s.Laid W done line) (hroom : lineWidth W.charWidth line < s.grid.cols) : s.grid.wrapPending = false := by
  rw [← Bool.not_eq_true, hs.wrap]
  omega

/-- The row of the line with one more character. -/
theorem cells_put (hs : s.Laid W done line) (line' : List Char) :
    (s.grid.putRow s.grid.cursorY (lineRow W s.grid.cols line')).cells =
      (done ++ [line']).map (lineRow W s.grid.cols) ++ List.replicate (s.grid.rows - (done.length + 1)) (.new s.grid.cols) := by
  have hlen : (done.map (lineRow W s.grid.cols)).length = done.length := List.length_map _
  rw [Grid.putRow, hs.cells, hs.cursorY, List.map_append, List.map_append, List.append_assoc, List.append_assoc,
    List.set_append_right _ _ (Nat.le_of_eq hlen), hlen, Nat.sub_self]
  rfl

/-- The character goes behind the line. -/
theorem putChar (hs : s.Laid W done line) (h : s.Inv) (hc : W.charWidth c = 1 ∨ W.charWidth c = 2)
    (hroom : lineWidth W.charWidth line + W.charWidth c ≤ s.grid.cols) :
    ∃ s', s.putChar c (W.charWidth c) = some s' ∧ s'.Laid W done (line ++ [c]) ∧
      s'.grid.scrollbackLimit = s.grid.scrollbackLimit ∧ s'.grid.cols = s.grid.cols := by
  have hcols := h.shape.cols_le
  have hx : s.grid.cursorX = lineWidth W.charWidth line := hs.cursorX_eq (by omega)
  have hwide : lineWidth W.charWidth (line ++ [c]) = lineWidth W.charWidth line + W.charWidth c := by
    rw [lineWidth_append, lineWidth_singleton]
  have hintern : s.internWithGc s.state.currentStyle = some (0, s.onGrid (·.setStyleTable s.grid.styleTable)) := by
    rw [hs.style]
    rfl
  have hpassed : passed (W.charWidth c) (s.grid.putRow s.grid.cursorY (lineRow W s.grid.cols (line ++ [c]))) =
      ((s.grid.putRow s.grid.cursorY (lineRow W s.grid.cols (line ++ [c]))).setCursorX
        (min (lineWidth W.charWidth (line ++ [c])) (s.grid.cols - 1))).setWrapPending
        (decide (s.grid.cols ≤ lineWidth W.charWidth (line ++ [c]))) := by
    have hauto : s.grid.modes.autowrapMode = true := by rw [hs.modes]
    have hsame := passed_eq (g := s.grid.putRow s.grid.cursorY (lineRow W s.grid.cols (line ++ [c]))) hauto
      (hs.clear (by omega)) (W.charWidth c)
    rwa [Grid.putRow_cursorX, hx, ← hwide] at hsame
  refine ⟨_, putChar_eq h hintern (hs.hasRow h) (by omega), ?_⟩
  have hgrid : (s.onGrid fun g => passed (W.charWidth c) ((g.setStyleTable s.grid.styleTable).putRow g.cursorY
      ((lineRow W s.grid.cols line).written g.cursorX { c, styleId := 0, width := W.charWidth c }))) =
      s.onGrid fun g => ((g.putRow g.cursorY (lineRow W g.cols (line ++ [c]))).setCursorX
        (min (lineWidth W.charWidth (line ++ [c])) (g.cols - 1))).setWrapPending
        (decide (g.cols ≤ lineWidth W.charWidth (line ++ [c]))) := by
    simp only [onGrid]
    rw [← hpassed, hx, lineRow_written hs.prints hc hroom]
    rfl
  rw [hgrid]
  refine ⟨?_, rfl, rfl⟩
  exact {
    style := hs.style, main := hs.main, modes := hs.modes, top := hs.top, bottom := hs.bottom
    cells := hs.cells_put (line ++ [c])
    scrollback := hs.scrollback, cursorY := hs.cursorY, cursorX := rfl, wrap := decide_eq_true_iff
    fits := hwide ▸ hroom
    prints := List.forall_mem_append.2 ⟨hs.prints, List.forall_mem_singleton.2 hc⟩ }

/-- In the last row the screen scrolls for a new line. -/
theorem feed (hs : s.Laid W done line) (h : s.Inv) (hroom : done.length < s.grid.scrollbackLimit)
    (hlast : s.grid.cursorY = s.grid.scrollBottom) :
    ∃ s', s.performDeferredWrap = some s' ∧ s'.Laid W (done ++ [line]) [] ∧
      s'.grid.scrollbackLimit = s.grid.scrollbackLimit ∧ s'.grid.cols = s.grid.cols := by
  have hcols := h.shape.cols_pos
  have hbottom := hs.bottom
  have hsb := hs.scrollback
  have hy := hs.cursorY
  let t : Screen := s.onGrid (·.setCursorX 0)
  have ht : t.Inv := (Effect.cursor 0 s.grid.cursorY s.grid.wrapPending hcols h.shape.cursor_y).inv h
  obtain ⟨top, rest, hvis⟩ : ∃ top rest, s.grid.visibleRows = top :: rest := by
    apply List.exists_cons_of_ne_nil
    intro hnil
    have hlen := h.shape.visible_length
    rw [hnil, List.length_nil] at hlen
    omega
  have hlimit : s.grid.scrollbackLen < s.grid.scrollbackLimit := by omega
  have hfull : s.grid.rows - (done.length + 1) = 0 := by omega
  have hcells : s.grid.scrollbackRows ++ [top] ++ (rest ++ [.new s.grid.cols]) =
      (done ++ [line] ++ [[]]).map (lineRow W s.grid.cols) := by
    have heq := h.shape.cells_eq
    rw [hvis, hs.cells, hfull, List.replicate_zero, List.append_nil] at heq
    rw [List.map_append, heq, List.map_singleton, lineRow_nil]
    simp only [List.append_assoc, List.cons_append, List.nil_append]
  have hlen : (done ++ [line]).length = done.length + 1 := List.length_append
  have hscrollback : s.grid.scrollbackLen + 1 = (done ++ [line]).length + 1 - s.grid.rows := by omega
  have hcursor : s.grid.scrollbackLen + 1 + s.grid.cursorY = (done ++ [line]).length := by omega
  have hnone : s.grid.rows - ((done ++ [line]).length + 1) = 0 := by omega
  refine ⟨_, step_feed (W := W) (T := t) ht hs.style hs.main hs.top hbottom hlast hlimit hvis, ?_, rfl, rfl⟩
  exact {
    style := hs.style, main := hs.main, modes := hs.modes, top := hs.top, bottom := hs.bottom
    cells := hcells.trans (by simp only [onGrid, Grid.setCursorX, t, hnone, List.replicate_zero, List.append_nil])
    scrollback := hscrollback
    cursorY := hcursor
    cursorX := (Nat.zero_min _).symm
    wrap := iff_of_false Bool.false_ne_true (Nat.not_le.2 hcols)
    fits := Nat.zero_le _
    prints := fun _ hc => absurd hc List.not_mem_nil }

/-- Above it the cursor goes down. -/
theorem down (hs : s.Laid W done line) (h : s.Inv) (hlast : s.grid.cursorY ≠ s.grid.scrollBottom) :
    ∃ s', s.performDeferredWrap = some s' ∧ s'.Laid W (done ++ [line]) [] ∧
      s'.grid.scrollbackLimit = s.grid.scrollbackLimit ∧ s'.grid.cols = s.grid.cols := by
  have hcols := h.shape.cols_pos
  have hrows := h.shape.rows_le
  have hcursor := h.shape.cursor_y
  have hbottom := hs.bottom
  have hsb := hs.scrollback
  have hy := hs.cursorY
  have hadvance : s.performDeferredWrap =
      some (s.onGrid fun g => ((g.setWrapPending false).setCursorX 0).setCursorY (g.cursorY + 1)) := by
    change (s.onGrid fun g => (g.setWrapPending false).setCursorX 0).advanceLine = _
    rw [advanceLine]
    refine (if_neg hlast).trans ?_
    change (sub s.grid.rows 1).bind _ = _
    rw [sub_eq h.shape.rows_pos, Option.bind_some]
    refine (if_pos (show s.grid.cursorY < s.grid.rows - 1 by omega)).trans ?_
    change (add16 s.grid.cursorY 1).bind _ = _
    rw [add16_eq (by omega), Option.bind_some]
    rfl
  have hlen : (done ++ [line]).length = done.length + 1 := List.length_append
  have hblank : s.grid.rows - (done.length + 1) = s.grid.rows - ((done ++ [line]).length + 1) + 1 := by omega
  have hcells : s.grid.cells = (done ++ [line] ++ [[]]).map (lineRow W s.grid.cols) ++
      List.replicate (s.grid.rows - ((done ++ [line]).length + 1)) (.new s.grid.cols) := by
    rw [hs.cells, hblank, List.replicate_succ, List.append_assoc done, List.map_append, List.map_append, List.append_assoc,
      List.append_assoc]
    rfl
  have hscrollback : s.grid.scrollbackLen = (done ++ [line]).length + 1 - s.grid.rows := by omega
  have hnext : s.grid.scrollbackLen + (s.grid.cursorY + 1) = (done ++ [line]).length := by omega
  refine ⟨_, hadvance, ?_, rfl, rfl⟩
  exact {
    style := hs.style, main := hs.main, modes := hs.modes, top := hs.top, bottom := hs.bottom
    cells := hcells
    scrollback := hscrollback
    cursorY := hnext
    cursorX := (Nat.zero_min _).symm
    wrap := iff_of_false Bool.false_ne_true (Nat.not_le.2 hcols)
    fits := Nat.zero_le _
    prints := fun _ hc => absurd hc List.not_mem_nil }

/-- A new line. -/
theorem performDeferredWrap (hs : s.Laid W done line) (h : s.Inv) (hroom : done.length < s.grid.scrollbackLimit) :
    ∃ s', s.performDeferredWrap = some s' ∧ s'.Laid W (done ++ [line]) [] ∧
      s'.grid.scrollbackLimit = s.grid.scrollbackLimit ∧ s'.grid.cols = s.grid.cols := by
  by_cases hlast : s.grid.cursorY = s.grid.scrollBottom
  · exact hs.feed h hroom hlast
  · exact hs.down h hlast

/-- The margin is blank already when a wide character does not fit. -/
theorem blankMargin (hs : s.Laid W done line) (h : s.Inv) (hend : lineWidth W.charWidth line + 1 = s.grid.cols) :
    s.blankMargin = some s := by
  have hrow := hs.hasRow h
  have hx : s.grid.cursorX = lineWidth W.charWidth line := hs.cursorX_eq (by omega)
  have hlen := lineCells_length hs.prints
  have hset : (lineRow W s.grid.cols line).cells.set s.grid.cursorX {} = (lineRow W s.grid.cols line).cells := by
    rw [lineRow, hx, List.set_append_right _ _ (Nat.le_of_eq hlen), hlen, Nat.sub_self, ← hend, Nat.add_sub_cancel_left]
    rfl
  have hwrite := hrow.set {} (show s.grid.cursorX < (lineRow W s.grid.cols line).cells.length by
    rw [h.shape.row_len _ hrow.mem]
    exact h.shape.cursor_x)
  rw [Screen.blankMargin, if_pos ⟨h.shape.cursor_x, h.shape.cursor_y⟩, blankCell_default hs.style]
  simp only [Option.bind_eq_bind, Option.bind_some]
  rw [hwrite, hset, Option.bind_some]
  exact congrArg (fun g => some { s with grid := g }) hrow.putRow_self

theorem noted (hs : s.Laid W done line) (c : Char) : (s.noted c).Laid W done line := { hs with }

/-- Printing puts the character where it is placed. -/
theorem print (hs : s.Laid W done line) (h : s.Inv) (hcols : 2 ≤ s.grid.cols) (hc : W.charWidth c = 1 ∨ W.charWidth c = 2)
    (hroom : done.length < s.grid.scrollbackLimit) :
    ∃ s', s.print W c = some s' ∧
      s'.Laid W (place W.charWidth s.grid.cols (done, line) c).1 (place W.charWidth s.grid.cols (done, line) c).2 ∧
      s'.grid.scrollbackLimit = s.grid.scrollbackLimit ∧ s'.grid.cols = s.grid.cols := by
  have hfits := hs.fits
  have hn := hs.noted c
  have h₁ := noted_inv h c
  have hmap : s.mapCharset c = c := by
    rw [mapCharset, hs.modes]
    rfl
  have hauto : s.grid.modes.autowrapMode = true := by rw [hs.modes]
  have h0 : W.charWidth (s.mapCharset c) ≠ 0 := by
    rw [hmap]
    omega
  rw [place]
  by_cases hplace : lineWidth W.charWidth line + W.charWidth c ≤ s.grid.cols
  · obtain ⟨s', hs', hput⟩ := hn.putChar h₁ hc hplace
    have hx : s.grid.cursorX = lineWidth W.charWidth line := hs.cursorX_eq (by omega)
    have hclear : s.grid.wrapPending = false := hs.clear (by omega)
    have hprint := print_within W h h0 (by simp [hclear]) (by rw [hmap]; omega)
    rw [hmap, hs'] at hprint
    rw [if_pos hplace]
    exact ⟨s', hprint, hput⟩
  · -- on a new line the character fits
    obtain ⟨t, ht, hlaid, htlimit, htcols⟩ := hn.performDeferredWrap h₁ hroom
    have htinv := steps_inv ((performDeferredWrap_does trivial trivial h₁ : Does (fun _ => True) _ _).leads t ht) h₁
    have hwidth : lineWidth W.charWidth [] + W.charWidth c ≤ t.grid.cols := by
      rw [htcols, lineWidth_nil, noted_grid]
      omega
    obtain ⟨s', hs', hput, hlimit, hcols'⟩ := hlaid.putChar htinv hc hwidth
    rw [if_neg hplace]
    refine ⟨s', ?_, hput, hlimit.trans htlimit, hcols'.trans htcols⟩
    rw [print_stages W h h0, hmap]
    by_cases hfull : s.grid.cols ≤ lineWidth W.charWidth line
    · rw [if_pos ⟨hs.wrap.2 hfull, hauto⟩, ht, Option.bind_some, if_neg, hs']
      rw [(performDeferredWrap_cursor h₁ ht).1, htcols, noted_grid]
      omega
    · have hx : s.grid.cursorX = lineWidth W.charWidth line := hs.cursorX_eq (by omega)
      have hclear : s.grid.wrapPending = false := hs.clear (by omega)
      have hblank : (s.noted c).blankMargin = some (s.noted c) := hn.blankMargin h₁ (by rw [noted_grid]; omega)
      rw [if_neg (by simp [hclear]), Option.bind_some, if_pos, if_pos ⟨hauto, hcols⟩, hblank, Option.bind_some, ht,
        Option.bind_some, hs']
      rw [noted_grid, hx]
      omega

end Laid

variable {W : UnicodeWidth} {cols rows limit : Nat} {text : List Char}

theorem new_laid (W : UnicodeWidth) (hcols : 0 < cols) (hrows : 0 < rows) (limit : Nat) :
    (Screen.new cols rows limit).Laid W [] [] ∧ (Screen.new cols rows limit).grid.cols = cols := by
  have hdims : sanitizeDimensions cols rows = ⟨cols, rows⟩ := by
    rw [sanitizeDimensions, Nat.max_eq_left hcols, Nat.max_eq_left hrows]
  have hgrid : (Screen.new cols rows limit).grid = Grid.new cols rows limit := rfl
  have hcells : List.replicate rows (Row.new cols) = .new cols :: List.replicate (rows - 1) (.new cols) := by
    rw [← List.replicate_succ, Nat.sub_add_cancel hrows]
  refine ⟨?_, by rw [hgrid, Grid.new, hdims]⟩
  exact {
    style := rfl, main := rfl, modes := rfl, top := rfl
    bottom := by
      rw [hgrid, Grid.new, hdims]
      exact Nat.sub_add_cancel hrows
    cells := by
      rw [hgrid, Grid.new, hdims]
      exact hcells
    scrollback := by
      rw [hgrid, Grid.new, hdims]
      exact (Nat.sub_eq_zero_of_le hrows).symm
    cursorY := rfl
    cursorX := (Nat.zero_min _).symm
    wrap := by
      rw [hgrid, Grid.new, hdims]
      exact iff_of_false Bool.false_ne_true (Nat.not_le.2 hcols)
    fits := Nat.zero_le _
    prints := fun _ hc => absurd hc List.not_mem_nil }

/-- Text of narrow and wide characters, printed on a new screen of two columns or more, with
room for the text in the scrollback. -/
theorem process_text (hcols : 2 ≤ cols) (hcols' : cols ≤ 65535) (hrows : 1 ≤ rows) (hrows' : rows ≤ 65535)
    (htext : W.Prints text) (hlimit : text.length ≤ limit) :
    ∃ s, (Screen.new cols rows limit).process W (text.map .print) = some s ∧ s.Inv ∧
      s.Laid W (placeAll W.charWidth cols text).1 (placeAll W.charWidth cols text).2 ∧
      s.grid.scrollbackLimit = limit ∧ s.grid.cols = cols := by
  induction text using List.reverseRecOn with
  | nil =>
    obtain ⟨hlaid, hsame⟩ := new_laid W (show 0 < cols by omega) hrows limit
    exact ⟨_, rfl, new_inv limit hcols' hrows', hlaid, rfl, hsame⟩
  | append_singleton text c ih =>
    rw [UnicodeWidth.Prints, List.forall_mem_append, List.forall_mem_singleton] at htext
    rw [List.length_append, List.length_singleton] at hlimit
    obtain ⟨s, hs, h, hlaid, hslimit, hscols⟩ := ih htext.1 (Nat.le_of_succ_le hlimit)
    have hfit : ∀ c ∈ text, W.charWidth c ≤ cols := fun c hc => by
      have := htext.1 c hc
      omega
    have hroom : (placeAll W.charWidth cols text).1.length < s.grid.scrollbackLimit := by
      rw [hslimit]
      by_cases hnil : text = []
      · subst hnil
        exact Nat.lt_of_lt_of_le Nat.one_pos hlimit
      · exact Nat.lt_of_lt_of_le (placeAll_length hfit hnil) (Nat.le_of_succ_le hlimit)
    obtain ⟨s', hs', hput, hlimit', hcols''⟩ := hlaid.print h (by omega) htext.2 hroom
    refine ⟨s', ?_, steps_inv (step_steps W h (e := .print c) hs') h, ?_, hlimit'.trans hslimit, hcols''.trans hscols⟩
    · rw [List.map_append, process_append, hs, Option.bind_some]
      exact (process_one ..).trans hs'
    · rw [placeAll_concat, ← hscols]
      rw [← hscols] at hput
      exact hput

/-- Scrollback and screen down to the cursor are the greedy lines of the text. -/
theorem text_laid_out (hcols : 2 ≤ cols) (hcols' : cols ≤ 65535) (hrows : 1 ≤ rows) (hrows' : rows ≤ 65535)
    (htext : W.Prints text) (hlimit : text.length ≤ limit) :
    Greedy W.charWidth cols text (greedy W.charWidth cols text) ∧
    ∃ s, (Screen.new cols rows limit).process W (text.map .print) = some s ∧
      s.grid.scrollbackRows ++ s.grid.visibleRows.take (s.grid.cursorY + 1) =
        (greedy W.charWidth cols text).map (lineRow W cols) := by
  have hfit : ∀ c ∈ text, W.charWidth c ≤ cols := fun c hc => by
    have := htext c hc
    omega
  obtain ⟨s, hs, h, hlaid, -, hscols⟩ := process_text hcols hcols' hrows hrows' htext hlimit
  refine ⟨greedy_spec hfit, s, hs, ?_⟩
  have hy := h.shape.cursor_y
  have hlen : (greedy W.charWidth cols text).length = s.grid.scrollbackLen + (s.grid.cursorY + 1) := by
    rw [greedy, List.length_append, List.length_singleton, ← hlaid.cursorY, Nat.add_assoc]
  rw [Grid.visibleRows, List.take_take, Nat.min_eq_left (by omega), Grid.scrollbackRows, ← List.take_add, ← hlen, hlaid.cells, hscols]
  exact List.take_left' (List.length_map _)

theorem text_laid_out_sample :
    greedy UnicodeWidth.sample.charWidth 3 ['a', '世', '世', '世'] = [['a', '世'], ['世'], ['世']] ∧
    ∃ s, (Screen.new 3 2 4).process .sample (['a', '世', '世', '世'].map .print) = some s ∧
      s.grid.scrollbackRows ++ s.grid.visibleRows.take (s.grid.cursorY + 1) =
        (greedy UnicodeWidth.sample.charWidth 3 ['a', '世', '世', '世']).map (lineRow .sample 3) :=
  ⟨by decide, (text_laid_out (by decide) (by decide) (by decide) (by decide)
    (show UnicodeWidth.sample.Prints ['a', '世', '世', '世'] by
      intro c hc
      simp only [List.mem_cons, List.not_mem_nil, or_false] at hc
      rcases hc with rfl | rfl | rfl | rfl <;> decide) (by decide)).2⟩

end Screen

end Retach
