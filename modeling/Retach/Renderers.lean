import Retach.Bytes
import Retach.Dirty
/-!
# Two renderers (`AnsiRenderer`)

`AnsiRenderer` shows a screen in two ways: `render_screen` reads the grid, and
`render` sees the screen as a `TerminalEmulator` only. Both are written here
down to the bytes, and they agree where different slots have different styles.
-/

open Checked

namespace Retach

open Event (written)

/-! ## The fast path -/

/-- The title in an OSC 2 sequence, less its control bytes. -/
def titleBytes (title : List UInt8) : List UInt8 :=
  [0x1b, 0x5d, 0x32, 0x3b] ++ (title.filter fun b => b ≥ 0x20 ∧ b ≠ 0x7f) ++ [0x07]

/-- DECSTBM. -/
def regionBytes (region : Nat × Nat) : List UInt8 := (Event.csi [[region.1 + 1], [region.2 + 1]] [] 'r').bytes

structure AnsiRenderer (H : Type) where
  cache : RenderCache H := {}

section

variable {H : Type} [DecidableEq H] (R : RowHash H)

/-- `render_modes_title_cursor`. -/
def modesTitleCursorBytes (g : Grid) (title : List UInt8) (full : Bool) (cache : RenderCache H) :
    List UInt8 × RenderCache H :=
  ((if full ∨ cache.lastScrollRegion ≠ some (g.scrollTop, g.scrollBottom) then
      regionBytes (g.scrollTop, g.scrollBottom) else []) ++
    written (modeEvents g.modes full cache.lastModes) ++
    (if full ∨ cache.lastCursor ≠ some (g.cursorX, g.cursorY) then
      (Event.cup (g.cursorY + 1) (g.cursorX + 1)).bytes else []) ++
    (if full ∨ title ≠ cache.lastTitle then titleBytes title else []),
    { cache with
      lastScrollRegion := some (g.scrollTop, g.scrollBottom), lastModes := some g.modes
      lastCursor := some (g.cursorX, g.cursorY), lastTitle := title })

/-- `render_screen_impl`. The frame is a no-op if it is no longer than its
header, which stands before the clear. -/
def renderScreenBytes (g : Grid) (title : List UInt8) (scrollback : List (List Event)) (full : Bool)
    (cache : RenderCache H) : List UInt8 × RenderCache H :=
  let injected := if scrollback ≠ [] then written (renderScrollback g scrollback) else []
  let cache := if scrollback ≠ [] then cache.invalidate else cache
  let full := full || decide (scrollback ≠ [])
  let cache := if full then cache.invalidate else cache
  let rows := renderRows R g.styleTable full 0 g.visibleRows (cache.hashesFor R g.visibleRowCount)
  let tail := modesTitleCursorBytes g title full { cache with rowHashes := rows.2 }
  let body := written (clearEvents full) ++ written rows.1 ++ tail.1
  if body = [] ∧ tail.2.lastCursorVisible = some g.cursorVisible then (injected, tail.2)
  else
    (injected ++ written [.decSet 2026, .decReset 25] ++ body ++
      (if g.cursorVisible then (Event.decSet 25).bytes else []) ++ (Event.decReset 2026).bytes,
      { tail.2 with lastCursorVisible := some g.cursorVisible })

/-- `AnsiRenderer::render_screen`. -/
def AnsiRenderer.renderScreen (r : AnsiRenderer H) (g : Grid) (title : List UInt8) (full : Bool) :
    List UInt8 × AnsiRenderer H :=
  let out := renderScreenBytes R g title [] full r.cache
  (out.1, { cache := out.2 })

/-! ## The fast path in callbacks -/

/-- What the parser cuts apart was joined by the separators. -/
theorem intercalate_splitParams (bs : List UInt8) : [0x3b].intercalate (splitParams bs) = bs := by
  induction bs with
  | nil => rfl
  | cons b bs ih =>
    unfold splitParams
    obtain ⟨p, ps, hps⟩ : ∃ p ps, splitParams bs = p :: ps := ⟨_, splitParams_head bs⟩
    rw [hps] at ih ⊢
    by_cases hsep : b = 0x3b
    · rw [if_pos hsep, List.intercalate_cons_cons, ih, hsep]
      rfl
    · rw [if_neg hsep]
      cases ps with
      | nil => rw [List.intercalate_singleton] at ih ⊢; rw [ih]
      | cons q qs => rw [List.intercalate_cons_cons] at ih ⊢; rw [← ih]; rfl

/-- A title that the parser takes whole. -/
theorem titleEvent_bytes {title : List UInt8} (h : (title.filter fun b => b ≥ 0x20 ∧ b ≠ 0x7f).length ≤ 1023) :
    (titleEvent title).bytes = titleBytes title := by
  obtain ⟨ps, hps⟩ := splitParams_head (title.filter fun b => b ≥ 0x20 ∧ b ≠ 0x7f)
  have hjoin := intercalate_splitParams (title.filter fun b => b ≥ 0x20 ∧ b ≠ 0x7f)
  rw [titleEvent, oscKept_of_length_le h, Event.bytes, titleBytes]
  rw [hps] at hjoin ⊢
  rw [List.intercalate_cons_cons, hjoin]
  rfl

omit [DecidableEq H] in
theorem modesTitleCursorBytes_eq (g : Grid) {title : List UInt8}
    (htitle : (title.filter fun b => b ≥ 0x20 ∧ b ≠ 0x7f).length ≤ 1023) (full : Bool) (cache : RenderCache H) :
    modesTitleCursorBytes g title full cache =
      (written (renderModesTitleCursor g title full cache).1, (renderModesTitleCursor g title full cache).2) := by
  unfold modesTitleCursorBytes renderModesTitleCursor regionBytes
  simp only [Event.written_append, apply_ite written, Event.written_cons, Event.written_nil, List.append_nil,
    titleEvent_bytes htitle]

/-- The bytes of a frame are those of its callbacks. -/
theorem renderScreenBytes_eq (g : Grid) {title : List UInt8}
    (htitle : (title.filter fun b => b ≥ 0x20 ∧ b ≠ 0x7f).length ≤ 1023) (scrollback : List (List Event)) (full : Bool)
    (cache : RenderCache H) : renderScreenBytes R g title scrollback full cache =
      (written (renderScreenImpl R g title scrollback full cache).1, (renderScreenImpl R g title scrollback full cache).2) := by
  unfold renderScreenBytes renderScreenImpl renderBody
  simp only [modesTitleCursorBytes_eq g htitle, ← Event.written_append, Event.written_eq_nil]
  generalize (full || decide (scrollback ≠ [])) = all
  generalize (if scrollback ≠ [] then cache.invalidate else cache) = cache₁
  generalize (if all then cache₁.invalidate else cache₁) = cache₂
  generalize renderRows R g.styleTable all 0 g.visibleRows (cache₂.hashesFor R g.visibleRowCount) = rows
  generalize renderModesTitleCursor g title all { cache₂ with rowHashes := rows.2 } = tail
  by_cases hempty : clearEvents all ++ rows.1 ++ tail.1 = [] ∧ tail.2.lastCursorVisible = some g.cursorVisible
  · rw [if_pos hempty, if_pos hempty, apply_ite written, Event.written_nil]
  · rw [if_neg hempty, if_neg hempty]
    simp only [Event.written_append, apply_ite written, Event.written_cons, Event.written_nil, List.append_nil]

/-! ## Through the trait -/

/-- What the renderer asks of a `TerminalEmulator`. -/
structure TerminalEmulator where
  rows : Nat
  visibleRows : List Row
  cursorPosition : Nat × Nat
  cursorVisible : Bool
  resolveStyle : StyleId → Style
  title : List UInt8
  scrollRegion : Nat × Nat
  modes : TerminalModes

/-- `impl TerminalEmulator for Screen`. -/
def Screen.emulator (s : Screen) : TerminalEmulator where
  rows := s.grid.rows
  visibleRows := s.grid.visibleRows
  cursorPosition := (s.grid.cursorX, s.grid.cursorY)
  cursorVisible := s.grid.cursorVisible
  resolveStyle := s.grid.styleTable.get
  title := s.state.title
  scrollRegion := (s.grid.scrollTop, s.grid.scrollBottom)
  modes := s.grid.modes

namespace TerminalEmulator

/-- The loop over the cells of a row from column `x` on. Styles are compared by
value with the one written last. -/
def paintStyles (e : TerminalEmulator) (row : Row) : Style → Nat → List Cell → List UInt8
  | _, _, [] => []
  | prev, x, cell :: cells =>
    if cell.width = 0 then e.paintStyles row prev (x + 1) cells
    else
      (if e.resolveStyle cell.styleId ≠ prev then (Event.sgr (e.resolveStyle cell.styleId)).bytes else []) ++
        String.utf8EncodeChar cell.c ++ (row.marks x).flatMap String.utf8EncodeChar ++
        e.paintStyles row (e.resolveStyle cell.styleId) (x + 1) cells

def paintRow (e : TerminalEmulator) (full : Bool) (y : Nat) (row : Row) : List UInt8 :=
  (Event.cup (y + 1) 1).bytes ++ e.paintStyles row {} 0 (row.cells.take (writeLen row.cells)) ++
    written (if full then [.sgrReset] else [.sgrReset, .el 0])

/-- The loop over the rows from `y` on. A row without a hash in the cache
panics. -/
def paintRows (e : TerminalEmulator) (full : Bool) : Nat → List Row → List H → Option (List UInt8 × List H)
  | _, [], hashes => some ([], hashes)
  | _, _ :: _, [] => none
  | y, row :: rows, h :: hashes => do
    let rest ← e.paintRows full (y + 1) rows hashes
    if R.skips full h row then return (rest.1, h :: rest.2)
    else return (e.paintRow full y row ++ rest.1, R.hash row :: rest.2)

end TerminalEmulator

/-- `TerminalRenderer::render`. The header of the frame ends behind the clear. -/
def AnsiRenderer.render (r : AnsiRenderer H) (e : TerminalEmulator) (full : Bool) :
    Option (List UInt8 × AnsiRenderer H) := do
  let header := written [.decSet 2026, .decReset 25] ++ written (clearEvents full)
  let cache := if full then r.cache.invalidate else r.cache
  let rows ← e.paintRows R full 0 e.visibleRows (cache.hashesFor R e.rows)
  let region := if full ∨ cache.lastScrollRegion ≠ some e.scrollRegion then regionBytes e.scrollRegion else []
  let modes := written (modeEvents e.modes full cache.lastModes)
  let cursor :=
    if full ∨ cache.lastCursor ≠ some e.cursorPosition then
      (Event.cup (e.cursorPosition.2 + 1) (e.cursorPosition.1 + 1)).bytes else []
  let title := if full ∨ e.title ≠ cache.lastTitle then titleBytes e.title else []
  let body := rows.1 ++ region ++ modes ++ cursor ++ title
  let cache : RenderCache H :=
    { rowHashes := rows.2
      lastModes := some e.modes
      lastScrollRegion := some e.scrollRegion
      lastTitle := e.title
      lastCursor := some e.cursorPosition
      lastCursorVisible := cache.lastCursorVisible }
  if body = [] ∧ cache.lastCursorVisible = some e.cursorVisible then return ([], { cache })
  else
    return (header ++ body ++ (if e.cursorVisible then (Event.decSet 25).bytes else []) ++ (Event.decReset 2026).bytes,
      { cache := { cache with lastCursorVisible := some e.cursorVisible } })

/-! ## One frame -/

/-- Different slots that visible cells use have different styles. -/
def Screen.StylesDistinct (s : Screen) : Prop :=
  ∀ row ∈ s.grid.visibleRows, ∀ c ∈ row.cells, ∀ row' ∈ s.grid.visibleRows, ∀ c' ∈ row'.cells,
    c.styleId ≠ c'.styleId → s.grid.styleTable.get c.styleId ≠ s.grid.styleTable.get c'.styleId

namespace Screen

/-- A slot that a row may have written last: the default, or one in use. -/
def Shows (s : Screen) (id : StyleId) : Prop := id = 0 ∨ ∃ row ∈ s.grid.visibleRows, ∃ c ∈ row.cells, c.styleId = id

variable {s : Screen}

/-- No slot but 0 has the default style, so the default may be written last. -/
theorem Shows.inj (h : s.Inv) (hdistinct : s.StylesDistinct) {i j : StyleId} (hi : s.Shows i) (hj : s.Shows j) :
    s.grid.styleTable.get i = s.grid.styleTable.get j ↔ i = j := by
  have hdefault : ∀ row ∈ s.grid.visibleRows, ∀ c ∈ row.cells, s.grid.styleTable.get c.styleId = {} → c.styleId = 0 :=
    fun row hrow c hc hget => h.table.get_eq_default (h.held row (h.visible_mem hrow) c hc).1 hget
  refine ⟨fun hget => ?_, fun hid => by rw [hid]⟩
  rcases hi with rfl | ⟨row, hrow, c, hc, rfl⟩
  · rcases hj with rfl | ⟨row', hrow', c', hc', rfl⟩
    · rfl
    · exact (hdefault row' hrow' c' hc' (hget.symm.trans h.table.get_zero)).symm
  · rcases hj with rfl | ⟨row', hrow', c', hc', rfl⟩
    · exact hdefault row hrow c hc (hget.trans h.table.get_zero)
    · by_contra hne
      exact hdistinct row hrow c hc row' hrow' c' hc' hne hget

theorem emulator_resolveStyle (s : Screen) : s.emulator.resolveStyle = s.grid.styleTable.get := rfl

/-- Comparing styles by slot and by value writes the same bytes. -/
theorem paintStyles_eq (h : s.Inv) (hdistinct : s.StylesDistinct) {row : Row} (hrow : row ∈ s.grid.visibleRows) {last : StyleId}
    (hlast : s.Shows last) (x : Nat) {cells : List Cell} (hcells : ∀ c ∈ cells, c ∈ row.cells) :
    s.emulator.paintStyles row (s.grid.styleTable.get last) x cells =
      written (paintCells s.grid.styleTable row last x cells).1 := by
  induction cells generalizing last x with
  | nil => rfl
  | cons cell cells ih =>
    have hrest : ∀ c ∈ cells, c ∈ row.cells := fun c hc => hcells c (List.mem_cons_of_mem cell hc)
    have hshows : s.Shows cell.styleId := .inr ⟨row, hrow, cell, hcells cell List.mem_cons_self, rfl⟩
    unfold TerminalEmulator.paintStyles paintCells
    by_cases hwidth : cell.width = 0
    · rw [if_pos hwidth, if_pos hwidth]
      exact ih hlast (x + 1) hrest
    · rw [if_neg hwidth, if_neg hwidth]
      have hsgr : (if s.grid.styleTable.get cell.styleId ≠ s.grid.styleTable.get last then
          (Event.sgr (s.grid.styleTable.get cell.styleId)).bytes else []) =
          written (if cell.styleId ≠ last then [.sgr (s.grid.styleTable.get cell.styleId)] else []) := by
        have hiff := hshows.inj h hdistinct hlast
        by_cases hsame : cell.styleId = last
        · rw [if_neg (not_not_intro (hiff.2 hsame)), if_neg (not_not_intro hsame), Event.written_nil]
        · rw [if_pos (mt hiff.1 hsame), if_pos hsame, Event.written_cons, Event.written_nil, List.append_nil]
      have hmarks : written ((row.marks x).map .print) = (row.marks x).flatMap String.utf8EncodeChar := List.flatMap_map ..
      have htail := ih hshows (x + 1) hrest
      rw [emulator_resolveStyle, htail, hsgr, Event.written_append, Event.written_append, Event.written_cons, hmarks]
      simp only [Event.bytes, List.append_assoc]

/-- A row takes the same bytes either way. -/
theorem paintRow_eq (h : s.Inv) (hdistinct : s.StylesDistinct) (full : Bool) (y : Nat) {row : Row} (hrow : row ∈ s.grid.visibleRows) :
    s.emulator.paintRow full y row = written (renderRow s.grid.styleTable full y row) := by
  have hpaint : s.emulator.paintStyles row (s.grid.styleTable.get 0) 0 (row.cells.take (writeLen row.cells)) = _ :=
    paintStyles_eq h hdistinct hrow (.inl rfl) 0 fun c hc => List.mem_of_mem_take hc
  rw [h.table.get_zero] at hpaint
  rw [TerminalEmulator.paintRow, renderRow, hpaint, Event.written_append, Event.written_cons]

/-- With a hash for each row the loop does not panic, and skips the same rows. -/
theorem paintRows_eq (h : s.Inv) (hdistinct : s.StylesDistinct) (full : Bool) (y : Nat) {rows : List Row}
    (hrows : ∀ row ∈ rows, row ∈ s.grid.visibleRows) {hashes : List H} (hlen : hashes.length = rows.length) :
    s.emulator.paintRows R full y rows hashes =
      some (written (renderRows R s.grid.styleTable full y rows hashes).1, (renderRows R s.grid.styleTable full y rows hashes).2) := by
  induction rows generalizing y hashes with
  | nil => rfl
  | cons row rows ih =>
    match hashes, hlen with
    | hash :: hashes, hlen =>
      have hrest := ih (y + 1) (fun r hr => hrows r (List.mem_cons_of_mem row hr)) (Nat.succ.inj hlen)
      rw [TerminalEmulator.paintRows, renderRows, hrest]
      dsimp only [Option.bind_eq_bind, Option.bind_some]
      by_cases hskip : R.skips full hash row
      · rw [if_pos hskip, if_pos hskip]
        rfl
      · rw [if_neg hskip, if_neg hskip, paintRow_eq h hdistinct full y (hrows row List.mem_cons_self), Event.written_append]
        rfl

end Screen

/-- The frame through the trait. A full frame is never empty. -/
theorem AnsiRenderer.render_eq {s : Screen} (h : s.Inv) (hdistinct : s.StylesDistinct) (r : AnsiRenderer H) (full : Bool) :
    r.render R s.emulator full = some (r.renderScreen R s.grid s.state.title full) := by
  have hcount : s.grid.visibleRowCount = s.grid.rows := (Viewed.visibleRowCount_eq h.shape).trans h.shape.visible_length
  have hrows (cache : RenderCache H) := s.paintRows_eq R h hdistinct full 0 (fun _ hrow => hrow)
    ((Viewed.hashesFor_length R cache s.grid.rows).trans h.shape.visible_length.symm)
  unfold AnsiRenderer.render AnsiRenderer.renderScreen renderScreenBytes modesTitleCursorBytes
  simp only [ne_eq, not_true_eq_false, if_false, decide_false, Bool.or_false, hcount]
  rw [show s.emulator.rows = s.grid.rows from rfl, show s.emulator.visibleRows = s.grid.visibleRows from rfl, hrows]
  simp only [Screen.emulator, Option.bind_eq_bind, Option.bind_some]
  cases full with
  | false =>
    simp only [clearEvents, Bool.false_eq_true, if_false, Event.written_nil, List.nil_append, List.append_nil, List.append_assoc]
    symm
    apply apply_ite fun out : List UInt8 × RenderCache H => some (out.1, ({ cache := out.2 } : AnsiRenderer H))
  | true =>
    -- the cache has just been emptied, so neither test for a no-op succeeds
    simp only [if_true, true_or, RenderCache.invalidate, reduceCtorEq, and_false, if_false, List.append_assoc]
    rfl

/-! ## All frames -/

namespace AnsiRenderer

/-- One frame after the other through the trait. -/
def renders (r : AnsiRenderer H) : List (Screen × Bool) → Option (List (List UInt8) × AnsiRenderer H)
  | [] => some ([], r)
  | (s, full) :: frames => do
    let out ← r.render R s.emulator full
    let rest ← out.2.renders frames
    return (out.1 :: rest.1, rest.2)

/-- One frame after the other on the fast path. -/
def renderScreens (r : AnsiRenderer H) : List (Screen × Bool) → List (List UInt8) × AnsiRenderer H
  | [] => ([], r)
  | (s, full) :: frames =>
    let out := r.renderScreen R s.grid s.state.title full
    let rest := out.2.renderScreens frames
    (out.1 :: rest.1, rest.2)

variable (W : UnicodeWidth)

/-- A renderer writes the same bytes on both paths and is the same after, for
one frame and for every run of frames. -/
theorem renders_agree :
    (∀ s : Screen, s.Reachable W → s.StylesDistinct → ∀ (r : AnsiRenderer H) (full : Bool),
      r.render R s.emulator full = some (r.renderScreen R s.grid s.state.title full)) ∧
    ∀ frames : List (Screen × Bool), (∀ f ∈ frames, f.1.Reachable W ∧ f.1.StylesDistinct) → ∀ r : AnsiRenderer H,
      r.renders R frames = some (r.renderScreens R frames) := by
  have hone : ∀ s : Screen, s.Reachable W → s.StylesDistinct → ∀ (r : AnsiRenderer H) (full : Bool),
      r.render R s.emulator full = some (r.renderScreen R s.grid s.state.title full) :=
    fun s hs hdistinct r full => render_eq R (Screen.Reachable.inv W hs) hdistinct r full
  refine ⟨hone, ?_⟩
  intro frames
  induction frames with
  | nil => exact fun _ r => rfl
  | cons frame frames ih =>
    obtain ⟨s, full⟩ := frame
    intro hframes r
    obtain ⟨hs, hdistinct⟩ := hframes (s, full) List.mem_cons_self
    rw [renders, hone s hs hdistinct r full]
    dsimp only [Option.bind_eq_bind, Option.bind_some]
    rw [ih (fun f hf => hframes f (List.mem_cons_of_mem _ hf))]
    rfl

end AnsiRenderer

end

/-- A red letter and a green one, shown whole and then again. -/
theorem AnsiRenderer.renders_agree_sample : ∃ s, (Screen.new 2 1 0).run .sample
    [.callback (.csi [[31]] [] 'm'), .callback (.print 'a'), .callback (.csi [[32]] [] 'm'), .callback (.print 'b')] = some s ∧
      ({} : AnsiRenderer (Option Row)).renders Viewed.rowHash [(s, true), (s, false)] =
        some (({} : AnsiRenderer (Option Row)).renderScreens Viewed.rowHash [(s, true), (s, false)]) := by
  obtain ⟨s, hrun, hdistinct⟩ : ∃ s, (Screen.new 2 1 0).run .sample
      [.callback (.csi [[31]] [] 'm'), .callback (.print 'a'), .callback (.csi [[32]] [] 'm'), .callback (.print 'b')] = some s ∧
        s.StylesDistinct := ⟨_, rfl, by unfold Screen.StylesDistinct; decide⟩
  have hs : s.Reachable .sample := ⟨2, 1, 0, _, by decide, by decide, by simp [Action.Sized], hrun⟩
  exact ⟨s, hrun, (renders_agree Viewed.rowHash .sample).2 _ (by simp [hs, hdistinct]) {}⟩

end Retach
