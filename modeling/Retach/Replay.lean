import Retach.Injection
/-!
# Replaying history to a client that attaches

The client writes each line of the history, and the frame after it first feeds
the screen out. A line written on a blank row stays there, and all rows move to
the scrollback in their order before the frame clears the screen.
-/

open Checked Lists

namespace Retach

/-! ## What is sent -/

/-- The loop of `send_initial_state` over the lines of the history: the chunk so
far is sent when the next line would take it over the limit. -/
def chunkHistory {α : Type} (lineSize : α → Nat) (sizeLimit : Nat) : List α → Nat → List α → List (List α)
  | chunk, _, [] => if chunk = [] then [] else [chunk]
  | chunk, chunkSize, line :: lines =>
    if chunkSize + lineSize line > sizeLimit ∧ chunk ≠ [] then chunk :: chunkHistory lineSize sizeLimit [line] (lineSize line) lines
    else chunkHistory lineSize sizeLimit (chunk ++ [line]) (chunkSize + lineSize line) lines

/-- What the client writes for a History message. -/
def writeHistory (lines : List (List Event)) : List Event :=
  (lines.map fun line => line ++ [.execute 0x0d, .execute 0x0a]).flatten

/-- What moves the history off the screen. -/
def flushHistory {α : Type} (rows : Nat) (history : List α) : List Event :=
  if history ≠ [] then .cup rows 1 :: List.replicate (rows - 1) (.execute 0x0a) else []

/-- The ScreenUpdate of `send_initial_state` when no notifications are queued. -/
def initialUpdate {H : Type} [DecidableEq H] (R : RowHash H) (g : Grid) (title : List UInt8) (history : List (List Event))
    (cache : RenderCache H) : List Event :=
  flushHistory g.rows history ++ (renderScreenImpl R g title [] true cache).1

section

variable {α : Type} {lineSize : α → Nat} {sizeLimit : Nat}

/-- The chunks hold the lines in order. -/
theorem chunkHistory_flatten (chunk : List α) (chunkSize : Nat) (lines : List α) :
    (chunkHistory lineSize sizeLimit chunk chunkSize lines).flatten = chunk ++ lines := by
  induction lines generalizing chunk chunkSize with
  | nil =>
    rw [chunkHistory, List.append_nil]
    split
    next hnil => exact hnil.symm
    next => exact List.flatten_singleton
  | cons line lines ih =>
    rw [chunkHistory]
    split
    · rw [List.flatten_cons, ih, List.singleton_append]
    · rw [ih, List.append_assoc, List.singleton_append]

/-- No chunk is empty: a chunk is sent with a line in it, or not at all. -/
theorem chunkHistory_ne_nil (chunk : List α) (chunkSize : Nat) (lines : List α) :
    ∀ c ∈ chunkHistory lineSize sizeLimit chunk chunkSize lines, c ≠ [] := by
  induction lines generalizing chunk chunkSize with
  | nil =>
    rw [chunkHistory]
    split
    · exact fun c hc => absurd hc List.not_mem_nil
    next hne => exact List.forall_mem_singleton.2 hne
  | cons line lines ih =>
    rw [chunkHistory]
    split
    next hflush => exact List.forall_mem_cons.2 ⟨hflush.2, ih [line] _⟩
    next => exact ih _ _

end

theorem writeHistory_flatten (messages : List (List (List Event))) :
    (messages.map writeHistory).flatten = writeHistory messages.flatten := by
  induction messages with
  | nil => rfl
  | cons lines messages ih =>
    rw [List.map_cons, List.flatten_cons, ih, List.flatten_cons, writeHistory, writeHistory, writeHistory, List.map_append,
      List.flatten_append]

namespace Screen

variable {W : UnicodeWidth} {P : Finset Style} {T T' : Screen} {cols rows limit : Nat}
  {past above : List (List (Char × Nat × Style))}

/-! ## Writing the lines -/

/-- The cursor is at the start of a row, and from there on all rows are blank. -/
structure Ready (P : Finset Style) (cols rows limit : Nat) (past above : List (List (Char × Nat × Style))) (T : Screen) :
    Prop where
  stage : Stage P cols rows limit past (above ++ List.replicate (rows - above.length) (List.replicate cols blankShown)) T
  lt : above.length < rows
  style : T.state.currentStyle = {}
  x : T.grid.cursorX = 0
  y : T.grid.cursorY = above.length
  wrap : T.grid.wrapPending = false

/-- A row that looks blank is blank. -/
theorem blankRow_of_view (h : T.Inv) {y : Nat} (hview : T.viewRow y = some (List.replicate T.grid.cols blankShown)) :
    T.BlankRow y := by
  obtain ⟨row, hget, hcells⟩ := Option.map_eq_some_iff.1 hview
  have hrow := h.shape.hasRow_of_getElem? hget
  refine ⟨row, hrow, List.eq_replicate_iff.2 ⟨h.shape.row_len row hrow.mem, fun c hc => ?_⟩⟩
  have hshown := List.mem_map_of_mem (f := Cell.shown T.grid.styleTable) hc
  rw [hcells] at hshown
  obtain ⟨hchar, hwidth, hstyle⟩ : c.c = ' ' ∧ c.width = 1 ∧ T.grid.styleTable.get c.styleId = {} := by
    simpa [Cell.shown, blankShown] using (List.mem_replicate.1 hshown).2
  have hid := h.table.get_eq_default (h.held_visible hrow.mem hc).1 hstyle
  cases c
  simp_all

theorem step_cr (T : Screen) : T.step W (.execute 0x0d) = some (T.onGrid fun g => (g.setCursorX 0).setWrapPending false) := rfl

/-- A line feed above the last row of a screen that scrolls. -/
theorem step_down (h : T.Inv) (hbottom : T.grid.scrollBottom + 1 = T.grid.rows) (hy : T.grid.cursorY + 1 < T.grid.rows) :
    T.step W (.execute 0x0a) = some (T.onGrid fun g => (g.setWrapPending false).setCursorY (T.grid.cursorY + 1)) := by
  have hrows := h.shape.rows_le
  let T₁ := T.onGrid (·.setWrapPending false)
  have h₁ : T₁.Inv := (Effect.cursor T.grid.cursorX T.grid.cursorY false h.shape.cursor_x h.shape.cursor_y).inv h
  have hadd : add16 T₁.grid.cursorY 1 = some (T.grid.cursorY + 1) := add16_eq (show T.grid.cursorY + 1 ≤ 65535 by omega)
  have hne : ¬ T₁.grid.cursorY = T₁.grid.scrollBottom := fun he => by
    have : T.grid.cursorY = T.grid.scrollBottom := he
    omega
  have hlt : T₁.grid.cursorY < T₁.grid.rows - 1 := by
    change T.grid.cursorY < T.grid.rows - 1
    omega
  change T₁.advanceLine = _
  rw [advanceLine, if_neg hne, h₁.bottom]
  simp only [Option.bind_eq_bind, Option.bind_some, if_pos hlt, hadd]
  rfl

theorem Stage.moved (h : Stage P cols rows limit past above T) {x y : Nat} (hx : x < cols) (hy : y < rows) (w : Bool) :
    Stage P cols rows limit past above (T.onGrid fun g => ((g.setCursorX x).setCursorY y).setWrapPending w) :=
  { h with inv := (Effect.cursor x y w (h.cols_eq.symm ▸ hx) (h.rows_eq.symm ▸ hy)).inv h.inv }

/-- A line, CR and LF: the row is the line's, and is above the cursor or off the
screen. -/
theorem Ready.line (h : Ready P cols rows limit past above T) {l : Line} (hl : l.Sendable W P cols)
    (hlimit : past.length + above.length < limit) :
    ∃ T' past' above', T.process W (l.events ++ [.execute 0x0d, .execute 0x0a]) = some T' ∧
      Ready P cols rows limit past' above' T' ∧ past' ++ above' = past ++ above ++ [l.shown cols] ∧
      above'.length = min (above.length + 1) (rows - 1) := by
  have hs := h.stage
  have hlt := h.lt
  have hfirst : (above ++ List.replicate (rows - above.length) (List.replicate cols blankShown))[above.length]? =
      some (List.replicate cols blankShown) := by
    rw [List.getElem?_append_right (Nat.le_refl _), Nat.sub_self, List.getElem?_replicate, if_pos (by omega)]
  have hb : Brush P T above.length [] {} T := by
    rw [← h.style, ← h.y]
    exact .start hs.inv hs.fits h.x h.wrap fun row hrow => hs.row hfirst (whole_blank cols) (h.y ▸ hrow)
  obtain ⟨T₁, b, -, hrun₁, hp₁, hstyle₁, hshown, -⟩ := hb.line hs.inv hs.mapCharset hs.cols_eq hl
  have hblank : T.BlankRow above.length := blankRow_of_view hs.inv (by rw [← view_getElem?, hs.vis_eq, hfirst, hs.cols_eq])
  have hview := hp₁.view hblank
  rw [hs.cols_eq, ← hshown] at hview
  have h₁ := hs.stroke hp₁ hview
  obtain ⟨n, hn⟩ : ∃ n, rows - above.length = n + 1 := ⟨rows - above.length - 1, by omega⟩
  rw [List.set_append_right _ _ (Nat.le_refl _), Nat.sub_self, hn, List.replicate_succ, List.set_cons_zero,
    ← List.singleton_append, ← List.append_assoc] at h₁
  have h₂ := h₁.moved (x := 0) (y := above.length) (hs.cols_eq ▸ hs.inv.shape.cols_pos) hlt false
  have hcr : T₁.process W [.execute 0x0d, .execute 0x0a] =
      (T₁.onGrid fun g => ((g.setCursorX 0).setCursorY above.length).setWrapPending false).step W (.execute 0x0a) := by
    rw [process_cons, step_cr, Option.bind_some, process_one, ← hp₁.cursorY]
    rfl
  rw [process_append, hrun₁, Option.bind_some, hcr]
  generalize hT₂ : (T₁.onGrid fun g => ((g.setCursorX 0).setCursorY above.length).setWrapPending false) = T₂ at h₂
  have hx₂ : T₂.grid.cursorX = 0 := by rw [← hT₂]; rfl
  have hy₂ : T₂.grid.cursorY = above.length := by rw [← hT₂]; rfl
  have hstyle₂ : T₂.state.currentStyle = {} := by rw [← hT₂]; exact hstyle₁
  have hrows₂ := h₂.rows_eq
  have hbottom₂ := h₂.bottom
  by_cases hlast : above.length + 1 < rows
  · refine ⟨_, past, above ++ [l.shown cols], step_down h₂.inv (by omega) (by omega), ?_, (List.append_assoc ..).symm, ?_⟩
    · have hmoved := h₂.moved (x := 0) (y := T₂.grid.cursorY + 1) (hs.cols_eq ▸ hs.inv.shape.cols_pos) (by omega) false
      refine ⟨?_, by rw [List.length_append, List.length_singleton]; exact hlast, hstyle₂, hx₂, ?_, rfl⟩
      · rw [List.length_append, List.length_singleton, show rows - (above.length + 1) = n by omega]
        rw [← hx₂] at hmoved
        exact hmoved
      · rw [List.length_append, List.length_singleton, ← hy₂]
        rfl
    · rw [List.length_append, List.length_singleton]
      omega
  · obtain ⟨T₃, top, rest, hstep, hvis, h₃, hstyle₃, hx₃, hy₃, hwrap₃⟩ := h₂.feed (W := W) hstyle₂ (by omega) (by omega)
    obtain rfl : n = 0 := by omega
    rw [List.replicate_zero, List.append_nil] at hvis
    have hlen := congrArg List.length hvis
    rw [List.length_append, List.length_singleton, List.length_cons] at hlen
    refine ⟨T₃, past ++ [top], rest, hstep, ⟨?_, by omega, hstyle₃, hx₃.trans hx₂, by omega, hwrap₃⟩, ?_, by omega⟩
    · rw [show rows - rest.length = 1 by omega]
      exact h₃
    · rw [List.append_assoc, List.singleton_append, ← hvis, List.append_assoc]

/-- All lines. -/
theorem Ready.lines (h : Ready P cols rows limit past above T) {lines : List Line} (hlines : ∀ l ∈ lines, l.Sendable W P cols)
    (hlimit : past.length + above.length + lines.length ≤ limit) :
    ∃ T' past' above', T.process W (writeHistory (lines.map Line.events)) = some T' ∧
      Ready P cols rows limit past' above' T' ∧ past' ++ above' = past ++ above ++ lines.map (Line.shown cols) ∧
      above'.length = min (above.length + lines.length) (rows - 1) := by
  induction lines generalizing T past above with
  | nil =>
    have := h.lt
    exact ⟨T, past, above, rfl, h, by rw [List.map_nil, List.append_nil], by rw [List.length_nil]; omega⟩
  | cons l lines ih =>
    rw [List.length_cons] at hlimit
    obtain ⟨T₁, past₁, above₁, hrun₁, h₁, htotal₁, hlen₁⟩ := h.line (hlines l (List.mem_cons_self ..)) (by omega)
    have hsum := congrArg List.length htotal₁
    rw [List.length_append, List.length_append, List.length_append, List.length_singleton] at hsum
    obtain ⟨T₂, past₂, above₂, hrun₂, h₂, htotal₂, hlen₂⟩ := ih h₁ (fun l hl => hlines l (List.mem_cons_of_mem _ hl)) (by omega)
    refine ⟨T₂, past₂, above₂, ?_, h₂, ?_, ?_⟩
    · rw [writeHistory, List.map_cons, List.map_cons, List.flatten_cons, process_append, hrun₁, Option.bind_some]
      exact hrun₂
    · rw [htotal₂, htotal₁, List.map_cons, List.append_assoc, List.append_assoc, List.append_assoc, List.singleton_append]
    · rw [hlen₂, hlen₁, List.length_cons]
      omega

/-! ## The whole replay -/

/-- A terminal with the cursor at the start of a row, all rows from there on
blank, and room for `n` rows in its scrollback. -/
structure Prompts (P : Finset Style) (n : Nat) (T : Screen) : Prop extends T.HasRoomFor P n where
  top : T.grid.scrollTop = 0
  bottom : T.grid.scrollBottom = T.grid.rows - 1
  style : T.state.currentStyle = {}
  x : T.grid.cursorX = 0
  wrap : T.grid.wrapPending = false
  blank : ∀ y, T.grid.cursorY ≤ y → y < T.grid.rows → T.viewRow y = some (List.replicate T.grid.cols blankShown)

theorem Prompts.ready {n : Nat} (h : T.Prompts P n) : Ready P T.grid.cols T.grid.rows T.grid.scrollbackLimit T.grid.past
    (T.grid.view.take T.grid.cursorY) T := by
  have hy := h.inv.shape.cursor_y
  have hview : T.grid.view.length = T.grid.rows := by rw [Grid.view, List.length_map, h.inv.shape.visible_length]
  have hlen : (T.grid.view.take T.grid.cursorY).length = T.grid.cursorY := by
    rw [List.length_take]
    omega
  have hrest : T.grid.view.drop T.grid.cursorY =
      List.replicate (T.grid.rows - T.grid.cursorY) (List.replicate T.grid.cols blankShown) := by
    refine List.eq_replicate_iff.2 ⟨by rw [List.length_drop, hview], fun r hr => ?_⟩
    obtain ⟨i, hi⟩ := List.mem_iff_getElem?.1 hr
    rw [List.getElem?_drop] at hi
    have hlt := (List.getElem?_eq_some_iff.1 hi).1
    rw [view_getElem?, h.blank _ (Nat.le_add_right ..) (by omega)] at hi
    exact (Option.some.inj hi).symm
  refine ⟨{ inv := h.inv, fits := h.fits, modes := h.modes, top := h.top, bottom := h.bottom
            main := h.main, cols_eq := rfl, rows_eq := rfl, limit_eq := rfl, past_eq := rfl, vis_eq := ?_ },
    by omega, h.style, h.x, hlen.symm, h.wrap⟩
  rw [hlen, ← hrest, List.take_append_drop]

section

variable {H : Type} [DecidableEq H] (R : RowHash H) {g : Grid}

theorem replay_exact {lines : List Line} (hne : lines ≠ [])
    (hT : T.Prompts P (max (T.grid.cursorY + lines.length) (T.grid.rows - 1)))
    (hsize : T.grid.cols = g.cols ∧ T.grid.rows = g.rows) (hlines : ∀ l ∈ lines, l.Sendable W P g.cols) (hg : g.Showable W P)
    (lineSize : List Event → Nat) (sizeLimit : Nat) (title : List UInt8) (cache : RenderCache H) :
    ∃ T', T.process W (((chunkHistory lineSize sizeLimit [] 0 (lines.map Line.events)).map writeHistory).flatten ++
        initialUpdate R g title (lines.map Line.events) cache) = some T' ∧
      T'.grid.past = T.grid.past ++ T.grid.view.take T.grid.cursorY ++ lines.map (Line.shown g.cols) ++
        List.replicate (g.rows - 1 - T.grid.cursorY - lines.length) (List.replicate g.cols blankShown) := by
  have hready := hT.ready
  have hroom := hT.room
  have hpast := hT.inv.past_length
  have hpos := hT.inv.shape.rows_pos
  have habove := hready.y
  rw [hsize.1, hsize.2] at hready
  rw [hsize.2] at hroom hpos
  obtain ⟨T₁, past₁, above₁, hrun₁, h₁, htotal, hlen⟩ := hready.lines hlines (by omega)
  have hsum := congrArg List.length htotal
  rw [List.length_append, List.length_append, List.length_append, List.length_map] at hsum
  obtain ⟨T₂, hcup, h₂, -, hy₂, -, hstyle₂⟩ := h₁.stage.cup (W := W) (x := 0) (y := g.rows - 1) hg.shape.cols_pos (by omega)
  obtain ⟨T₃, hrun₃, h₃, -⟩ := h₂.feeds (W := W) (hstyle₂.trans h₁.style) (by omega) (n := g.rows - 1)
    (by rw [h₂.vis_length]; omega) (by omega)
  obtain ⟨T₄, hrun₄, hpast₄⟩ := process_frame_past R h₃.inv h₃.modes h₃.fits ⟨h₃.cols_eq, h₃.rows_eq⟩ hg title
  refine ⟨T₄, ?_, ?_⟩
  · rw [Nat.sub_add_cancel hpos] at hcup
    rw [writeHistory_flatten, chunkHistory_flatten, List.nil_append, process_append, hrun₁, Option.bind_some, initialUpdate,
      flushHistory, if_pos (by simpa using hne), renderScreenImpl_full, if_neg (not_not_intro rfl), List.nil_append, process_append,
      process_cons, hcup, Option.bind_some, hrun₃, Option.bind_some, hrun₄]
  · rw [hpast₄, h₃.past_eq, List.take_append, List.take_of_length_le (show above₁.length ≤ g.rows - 1 by omega),
      ← List.append_assoc, htotal, List.take_replicate]
    congr 2
    omega

end

/-- A prompt in the first of three rows, and two lines of history. -/
theorem replay_exact_sample : ∃ T T', (Screen.new 2 3 10).process .sample [.print '$', .execute 0x0d, .execute 0x0a] = some T ∧
    T.process .sample (((chunkHistory List.length 1 [] 0 ([Line.mk { cells := [{ c := 'a' }, { c := 'b' }] } .new,
        Line.mk { cells := [{ c := 'c' }] } .new].map Line.events)).map writeHistory).flatten ++
      initialUpdate Viewed.rowHash (Grid.new 2 3 0) [] ([Line.mk { cells := [{ c := 'a' }, { c := 'b' }] } .new,
        Line.mk { cells := [{ c := 'c' }] } .new].map Line.events) {}) = some T' ∧
    T'.grid.past = [[('$', 1, {}), blankShown], [('a', 1, {}), ('b', 1, {})], [('c', 1, {}), blankShown]] := by
  have hnew : (Screen.new 2 3 10).Inv := new_inv 10 (by decide) (by decide)
  obtain ⟨T, hrun, hfits, hfacts, hblank, hview⟩ : ∃ T,
      (Screen.new 2 3 10).process .sample [.print '$', .execute 0x0d, .execute 0x0a] = some T ∧ T.Fits {({} : Style)} ∧
      (T.grid.modes = {} ∧ T.state.inAltScreen = false ∧ T.grid.scrollTop = 0 ∧ T.grid.scrollBottom = 2 ∧
        T.state.currentStyle = {} ∧ T.grid.cursorX = 0 ∧ T.grid.cursorY = 1 ∧ T.grid.wrapPending = false ∧
        T.grid.cols = 2 ∧ T.grid.rows = 3 ∧ T.grid.scrollbackLen = 0 ∧ T.grid.scrollbackLimit = 10) ∧
      (T.viewRow 1 = some (List.replicate 2 blankShown) ∧ T.viewRow 2 = some (List.replicate 2 blankShown)) ∧
      T.grid.past ++ T.grid.view.take 1 = [[('$', 1, {}), blankShown]] := by
    exact ⟨_, rfl, .inl (by decide), by decide, by decide, by decide⟩
  obtain ⟨hmodes, hmain, htop, hbottom, hstyle, hx, hy, hwrap, hcols, hrows, hlen, hlimit⟩ := hfacts
  have hlines : ∀ l ∈ [Line.mk { cells := [{ c := 'a' }, { c := 'b' }] } .new, Line.mk { cells := [{ c := 'c' }] } .new],
      l.Sendable .sample {({} : Style)} 2 := by
    intro l hl
    simp only [List.mem_cons, List.not_mem_nil, or_false] at hl
    rcases hl with rfl | rfl <;> exact plain_sendable (by decide) (by decide)
  obtain ⟨T', hrun', hpast⟩ := replay_exact Viewed.rowHash (g := Grid.new 2 3 0) (List.cons_ne_nil _ _)
    { inv := steps_inv (process_steps .sample hnew hrun) hnew, modes := hmodes, main := hmain, fits := hfits
      room := by rw [hy, hrows, hlen, hlimit]; decide
      top := htop, bottom := by rw [hbottom, hrows], style := hstyle, x := hx, wrap := hwrap
      blank := fun y hle hlt => by
        rw [hcols]
        rcases (show y = 1 ∨ y = 2 by omega) with rfl | rfl
        · exact hblank.1
        · exact hblank.2 }
    ⟨hcols, hrows⟩ hlines (new_showable (by decide) (by decide)) List.length 1 [] {}
  refine ⟨T, T', hrun, hrun', ?_⟩
  rw [hpast, hy, hview]
  decide

/-- The line of `broadRow` is not replayed as it is. -/
theorem replay_shifts : (Screen.new 6 2 10).Prompts {({} : Style)} 1 ∧ broadRow.WellFormed .sample ∧
    broadRow.cells.length ≤ 6 ∧
    ¬ ∃ T', (Screen.new 6 2 10).process .sample (((chunkHistory List.length 1 [] 0
          ([Line.mk broadRow .new].map Line.events)).map writeHistory).flatten ++
        initialUpdate Viewed.rowHash (Grid.new 6 2 0) [] ([Line.mk broadRow .new].map Line.events) {}) = some T' ∧
      T'.grid.past = [(Line.mk broadRow .new).shown 6] := by
  refine ⟨{ toHasRoomFor := new_hasRoomFor (by decide) (by decide) (by decide) (by decide), top := rfl, bottom := rfl
            style := rfl, x := rfl, wrap := rfl, blank := ?_ }, broadRow_wellFormed, by decide, ?_⟩
  · intro y _ hy
    have hrows : (Screen.new 6 2 10).grid.rows = 2 := rfl
    rcases (show y = 0 ∨ y = 1 by omega) with rfl | rfl <;> rfl
  · rintro ⟨T', hrun, hpast⟩
    have hshown := congrArg (Option.map fun T : Screen => T.grid.past) hrun
    rw [Option.map_some, hpast] at hshown
    revert hshown
    decide

end Screen

end Retach
