import Retach.DirtyRow
/-!
# A terminal in the middle of a run

What a frame leaves behind is what the next one is painted on: whole wide
characters, the default style, and room for the styles to come. As long as
origin mode is off and the terminal prints characters as they are, this is so
after frames of all kinds.
-/

open Checked Lists

namespace Retach

/-- Rows are addressed from the top of the screen, and characters printed as
they are. -/
structure TerminalModes.Direct (m : TerminalModes) : Prop where
  origin : m.originMode = false
  ascii : Screen.currentCharset m = .ascii

theorem TerminalModes.direct_default : ({} : TerminalModes).Direct := ⟨rfl, rfl⟩

namespace Screen

variable {W : UnicodeWidth} {P : Finset Style} {cols rows : Nat} {T T' T₁ s : Screen} {y : Nat}

/-- A terminal between two frames. -/
structure Canvas (P : Finset Style) (cols rows : Nat) (T : Screen) : Prop extends T.Sheet P where
  direct : T.grid.modes.Direct
  cols_eq : T.grid.cols = cols
  rows_eq : T.grid.rows = rows

/-- Nothing but the cursor, the modes, the region and the titles changes. -/
structure Recast (T T' : Screen) : Prop where
  inv : T'.Inv
  cells : T'.grid.cells = T.grid.cells
  scrollbackLen : T'.grid.scrollbackLen = T.grid.scrollbackLen
  cols : T'.grid.cols = T.grid.cols
  rows : T'.grid.rows = T.grid.rows
  table : T'.grid.styleTable = T.grid.styleTable
  saved : T'.state.savedGrid = T.state.savedGrid
  style : T'.state.currentStyle = T.state.currentStyle

namespace Recast

theorem refl (h : T.Inv) : T.Recast T := ⟨h, rfl, rfl, rfl, rfl, rfl, rfl, rfl⟩

theorem trans (h : T.Recast T₁) (h' : T₁.Recast T') : T.Recast T' where
  inv := h'.inv
  cells := h'.cells.trans h.cells
  scrollbackLen := h'.scrollbackLen.trans h.scrollbackLen
  cols := h'.cols.trans h.cols
  rows := h'.rows.trans h.rows
  table := h'.table.trans h.table
  saved := h'.saved.trans h.saved
  style := h'.style.trans h.style

theorem visible (h : T.Recast T') : T'.grid.visibleRows = T.grid.visibleRows := by
  rw [Grid.visibleRows, Grid.visibleRows, h.cells, h.scrollbackLen, h.rows]

theorem viewRow (h : T.Recast T') (r : Nat) : T'.viewRow r = T.viewRow r := by
  rw [Screen.viewRow, Screen.viewRow, h.visible, h.table]

theorem sheet (h : T.Recast T') (hT : T.Sheet P) : T'.Sheet P where
  inv := h.inv
  fits := by
    have hrows : T'.allRows = T.allRows := by rw [allRows, allRows, h.cells, h.saved]
    exact hT.fits.rows h.table fun id _ hid => .inl (hrows ▸ hid)
  style := h.style.trans hT.style
  paired := fun row hrow => hT.paired row (h.visible ▸ hrow)

theorem canvas (h : T.Recast T') (hT : T.Canvas P cols rows) (hm : T'.grid.modes.Direct) : T'.Canvas P cols rows where
  toSheet := h.sheet hT.toSheet
  direct := hm
  cols_eq := h.cols.trans hT.cols_eq
  rows_eq := h.rows.trans hT.rows_eq

end Recast

namespace Canvas

theorem addressed (h : T.Canvas P cols rows) (y : Nat) : T.addressed y = y := by
  rw [Screen.addressed, h.direct.origin]
  rfl

theorem mapCharset (h : T.Canvas P cols rows) (c : Char) : T.mapCharset c = c := by
  rw [Screen.mapCharset, h.direct.ascii]

theorem cols_pos (h : T.Canvas P cols rows) : 0 < cols := h.cols_eq ▸ h.inv.shape.cols_pos

theorem rows_pos (h : T.Canvas P cols rows) : 0 < rows := h.rows_eq ▸ h.inv.shape.rows_pos

theorem awaits (h : T.Canvas P cols rows) (hy : y < rows) : T.Awaits y P where
  inv := h.inv
  lt := h.rows_eq ▸ hy
  origin := h.direct.origin
  ascii := h.direct.ascii
  style := h.style
  paired := fun _ hold => h.hasRow hold
  fits := h.fits

/-- CUP puts the cursor where it says. -/
theorem cup (h : T.Canvas P cols rows) {x : Nat} (hx : x < cols) (hy : y < rows) :
    T.step W (.cup (y + 1) (x + 1)) = some (T.cursorAt x y) ∧ (T.cursorAt x y).Canvas P cols rows := by
  have hx' := h.cols_eq ▸ hx
  have hy' := h.rows_eq ▸ hy
  have hrecast : T.Recast (T.cursorAt x y) :=
    ⟨(Effect.cursor x y false hx' hy').inv h.inv, rfl, rfl, rfl, rfl, rfl, rfl, rfl⟩
  exact ⟨by rw [step_cup W h.inv hx' hy', h.addressed], hrecast.canvas h h.direct⟩

/-- A row painted in the default style. -/
theorem stroke (h : T.Canvas P cols rows) {done : List (Char × Nat × Style)} (hp : Stroke P T y done s)
    (hstyle : s.state.currentStyle = {}) : s.Canvas P cols rows where
  toSheet := h.toSheet.stroke hp hstyle
  direct := hp.modes ▸ h.direct
  cols_eq := (hp.elsewhere h.inv).cols.trans h.cols_eq
  rows_eq := (hp.elsewhere h.inv).rows.trans h.rows_eq

/-! ## Rows of an incremental frame -/

/-- A row written over an old one. -/
theorem repaint (h : T.Canvas P cols rows) (hy : y < rows) {t : StyleTable} {row : Row} (hrow : row.Printable W)
    (hbroad : BroadLast row.cells) (hcols : row.cells.length = cols) (hstyles : ∀ c ∈ row.cells, t.get c.styleId ∈ P)
    (h0 : t.get 0 = {}) :
    ∃ T', T.process W (renderRow t false y row) = some T' ∧ T'.Canvas P cols rows ∧ T.Elsewhere y T' ∧
      (T'.viewRow y = some (row.looks t) ↔ row.EndsBlank t ∧ ∀ old ∈ T.viewRow y, Covers row.cells old) := by
  obtain ⟨-, h₁⟩ := h.cup (W := W) h.cols_pos hy
  obtain ⟨T', hrun, ⟨r, hp⟩, hstyle, helse, hiff⟩ :=
    (h.awaits hy).paint (hcols.trans h.cols_eq.symm) hrow hbroad hstyles h0
  exact ⟨T', hrun, h₁.stroke hp hstyle, helse, hiff⟩

end Canvas

section

variable {H : Type} [DecidableEq H] (R : RowHash H)

/-- What the row loop does to the terminal's row for a row of the screen. -/
def Updates (t : StyleTable) (T T' : Screen) (y : Nat) (row : Row) (h : H) : Prop :=
  if R.skips false h row then T'.viewRow y = T.viewRow y
  else (T'.viewRow y = some (row.looks t) ↔ row.EndsBlank t ∧ ∀ old ∈ T.viewRow y, Covers row.cells old)

theorem Canvas.repaint_rows (hT : T.Canvas P cols rows) {t : StyleTable} (h0 : t.get 0 = {}) {vis : List Row}
    {hashes : List H} (hlen : vis.length = hashes.length) (hy : y + vis.length ≤ rows)
    (hvis : ∀ row ∈ vis, row.Printable W ∧ BroadLast row.cells ∧ row.cells.length = cols ∧ ∀ c ∈ row.cells, t.get c.styleId ∈ P) :
    ∃ T', T.process W (renderRows R t false y vis hashes).1 = some T' ∧ T'.Canvas P cols rows ∧ T.Kept T' ∧
      T'.grid.modes = T.grid.modes ∧ (∀ r < y, T'.viewRow r = T.viewRow r) ∧
      ∀ (i : Nat) row h, vis[i]? = some row → hashes[i]? = some h → Updates R t T T' (y + i) row h := by
  induction vis generalizing T y hashes with
  | nil => exact ⟨T, rfl, hT, .refl T, rfl, fun _ _ => rfl, fun i row h hrow => by cases hrow⟩
  | cons row vis ih =>
    obtain ⟨h, hashes, rfl⟩ := List.exists_cons_of_length_eq_add_one hlen.symm
    rw [List.length_cons] at hy
    obtain ⟨T₁, hrun₁, hT₁, hkept₁, hmodes₁, helse₁, hfirst⟩ : ∃ T₁,
        T.process W (if R.skips false h row then [] else renderRow t false y row) = some T₁ ∧ T₁.Canvas P cols rows ∧
        T.Kept T₁ ∧ T₁.grid.modes = T.grid.modes ∧ (∀ r, r ≠ y → T₁.viewRow r = T.viewRow r) ∧ Updates R t T T₁ y row h := by
      unfold Updates
      cases hskip : R.skips false h row with
      | true => exact ⟨T, rfl, hT, .refl T, rfl, fun _ _ => rfl, rfl⟩
      | false =>
        obtain ⟨hprint, hbroad, hcols, hstyles⟩ := hvis row List.mem_cons_self
        obtain ⟨T₁, hrun, hT₁, helse, hiff⟩ := hT.repaint (y := y) (by omega) hprint hbroad hcols hstyles h0
        exact ⟨T₁, hrun, hT₁, helse.toKept, helse.modes, helse.view, hiff⟩
    obtain ⟨T', hrun, hT', hkept, hmodes, hbefore, hrest⟩ := ih hT₁ (y := y + 1) (Nat.succ.inj hlen) (by omega)
      fun r hr => hvis r (List.mem_cons_of_mem _ hr)
    refine ⟨T', ?_, hT', hkept₁.trans hkept, hmodes.trans hmodes₁, fun r hr => ?_, ?_⟩
    · rw [renderRows]
      split at hrun₁
      next hskip =>
        obtain rfl := Option.some.inj hrun₁
        rw [if_pos hskip]
        exact hrun
      next hskip =>
        rw [if_neg hskip, process_append, hrun₁, Option.bind_some]
        exact hrun
    · rw [hbefore r (by omega), helse₁ r (by omega)]
    · rintro (_ | i) r hr hrow hhash
      · obtain rfl := Option.some.inj hrow
        obtain rfl := Option.some.inj hhash
        rw [Nat.add_zero]
        unfold Updates at hfirst ⊢
        rwa [hbefore y (Nat.lt_succ_self y)]
      · have hupd := hrest i r hr hrow hhash
        unfold Updates at hupd ⊢
        rwa [show y + (i + 1) = y + 1 + i by omega, ← helse₁ (y + 1 + i) (by omega)]

end

/-! ## The end of a frame -/

variable {g : Grid}

/-- OSC sequences do not touch the style. -/
theorem step_osc_style {params : List (List UInt8)} {bell : Bool} (h : T.step W (.osc params bell) = some T') :
    T'.state.currentStyle = T.state.currentStyle := by
  change T.oscDispatch params bell = some T' at h
  have hpush (st : ScreenState) (hst : st.currentStyle = T.state.currentStyle) (h : some { T with state := st } = some T') :
      T'.state.currentStyle = T.state.currentStyle := by
    obtain rfl := Option.some.inj h
    exact hst
  unfold oscDispatch at h
  split at h
  · exact hpush _ rfl h
  dsimp only at h
  split at h
  · split at h
    · split at h
      · split at h <;>
        · obtain ⟨title, -, h⟩ := Option.bind_eq_some_iff.1 h
          exact hpush { T.state with title } rfl h
      · exact hpush _ rfl h
    · exact hpush _ rfl h
  · split at h
    · refine hpush _ ?_ h
      rfl
    · refine hpush _ ?_ h
      unfold ScreenState.pushPassthrough
      split <;> rfl


/-- The end of a frame: the region, the modes, the cursor and the title. -/
theorem Canvas.tail (hT : T.Canvas P g.cols g.rows) (hg : g.Shape) (hdirect : g.modes.Direct) {H : Type}
    (title : List UInt8) (full : Bool) (cache : RenderCache H)
    (hmodes : full = false → ∀ m, cache.lastModes = some m → T.grid.modes = m) :
    ∃ T', T.process W (renderModesTitleCursor g title full cache).1 = some T' ∧ T.Recast T' ∧ T'.grid.modes = g.modes := by
  obtain ⟨T₁, hrun₁, h₁, hmodes₁⟩ : ∃ T₁, T.process W (if full ∨ cache.lastScrollRegion ≠ some (g.scrollTop, g.scrollBottom)
      then [.csi [[g.scrollTop + 1], [g.scrollBottom + 1]] [] 'r'] else []) = some T₁ ∧ T.Recast T₁ ∧
      T₁.grid.modes = T.grid.modes := by
    split
    · have hregion := step_region W ⟨hT.inv, hT.cols_eq, hT.rows_eq⟩ hg
      have hinv := steps_inv (step_steps W hT.inv hregion) hT.inv
      exact ⟨_, (process_one ..).trans hregion, ⟨hinv, rfl, rfl, rfl, rfl, rfl, rfl, rfl⟩, rfl⟩
    · exact ⟨T, rfl, .refl hT.inv, rfl⟩
  have hrun₂ := process_modes W (T := T₁) hdirect.origin fun hf m hm => hmodes₁.trans (hmodes hf m hm)
  have h₂ : T.Recast (T₁.setModes fun _ => g.modes) :=
    h₁.trans ⟨(Effect.modes g.modes).inv h₁.inv, rfl, rfl, rfl, rfl, rfl, rfl, rfl⟩
  have hT₂ : (T₁.setModes fun _ => g.modes).Canvas P g.cols g.rows := h₂.canvas hT hdirect
  obtain ⟨T₃, hrun₃, h₃, hmodes₃⟩ : ∃ T₃, (T₁.setModes fun _ => g.modes).process W
      (if full ∨ cache.lastCursor ≠ some (g.cursorX, g.cursorY) then [.cup (g.cursorY + 1) (g.cursorX + 1)] else []) = some T₃ ∧
      T.Recast T₃ ∧ T₃.grid.modes = g.modes := by
    split
    · obtain ⟨hcup, hT₃⟩ := hT₂.cup (W := W) hg.cursor_x hg.cursor_y
      exact ⟨_, (process_one ..).trans hcup, h₂.trans ⟨hT₃.inv, rfl, rfl, rfl, rfl, rfl, rfl, rfl⟩, rfl⟩
    · exact ⟨_, rfl, h₂, rfl⟩
  obtain ⟨T₄, hrun₄, h₄, hmodes₄⟩ : ∃ T₄, T₃.process W (if full ∨ title ≠ cache.lastTitle then [titleEvent title] else []) =
      some T₄ ∧ T.Recast T₄ ∧ T₄.grid.modes = g.modes := by
    split
    · obtain ⟨st, hst, haux⟩ := step_title W T₃ title
      have hrecast : T₃.Recast { T₃ with state := st } :=
        ⟨h₃.inv.aux haux, rfl, rfl, rfl, rfl, rfl, haux.savedGrid, step_osc_style (titleEvent.eq_1 title ▸ hst)⟩
      exact ⟨_, (process_one ..).trans hst, h₃.trans hrecast, hmodes₃⟩
    · exact ⟨T₃, rfl, h₃, hmodes₃⟩
  refine ⟨T₄, ?_, h₄, hmodes₄⟩
  simp only [renderModesTitleCursor, process_append]
  rw [hrun₁, Option.bind_some, hrun₂, Option.bind_some, hrun₃, Option.bind_some, hrun₄]

theorem Canvas.setCursorVisible (hT : T.Canvas P cols rows) (v : Bool) :
    T.Recast (T.onGrid (·.setCursorVisible v)) ∧ (T.onGrid (·.setCursorVisible v)).Canvas P cols rows := by
  have h : T.Recast (T.onGrid (·.setCursorVisible v)) :=
    ⟨(Effect.visible v).inv hT.inv, rfl, rfl, rfl, rfl, rfl, rfl, rfl⟩
  exact ⟨h, h.canvas hT hT.direct⟩

/-- The cursor is shown again. -/
theorem Canvas.show (hT : T.Canvas P cols rows) (v : Bool) :
    ∃ T', T.process W ((if v then [.decSet 25] else []) ++ [.decReset 2026]) = some T' ∧ T.Recast T' ∧
      T'.Canvas P cols rows ∧ T'.grid.modes = T.grid.modes := by
  cases v with
  | true => exact ⟨_, rfl, (hT.setCursorVisible true).1, (hT.setCursorVisible true).2, rfl⟩
  | false => exact ⟨T, rfl, .refl hT.inv, hT, rfl⟩

section

variable {H : Type} [DecidableEq H] (R : RowHash H) (title : List UInt8) {cache : RenderCache H}

/-- The rows that an incremental frame paints have the property. -/
def Repainted (g : Grid) (cache : RenderCache H) (Q : Nat → Row → Prop) : Prop :=
  ∀ (i : Nat) row h, g.visibleRows[i]? = some row → (cache.hashesFor R g.visibleRowCount)[i]? = some h →
    R.skips false h row = false → Q i row

theorem Canvas.body (hT : T.Canvas P g.cols g.rows) (hg : g.Showable W P) (hdirect : g.modes.Direct)
    (hmodes : ∀ m, cache.lastModes = some m → T.grid.modes = m) :
    ∃ T', T.process W (renderBody R g title false cache).1 = some T' ∧ T'.Canvas P g.cols g.rows ∧ T'.grid.modes = g.modes ∧
      ∀ (i : Nat) row h, g.visibleRows[i]? = some row → (cache.hashesFor R g.visibleRowCount)[i]? = some h →
        Updates R g.styleTable T T' i row h := by
  obtain ⟨T₁, hrun₁, hT₁, -, hmodes₁, -, hupd⟩ := hT.repaint_rows R (y := 0) hg.table.get_zero
    (show g.visibleRows.length = (cache.hashesFor R g.visibleRowCount).length by
      rw [Viewed.hashesFor_length, Viewed.visibleRowCount_eq hg.shape])
    (by rw [hg.shape.visible_length]; omega)
    (fun row hrow => ⟨(hg.wellFormed row hrow).printable, hg.broad row hrow, hg.shape.row_len row hrow,
      fun c hc => hg.styles (Grid.mem_palette hrow hc)⟩)
  obtain ⟨T', hrun, hrecast, hmodes'⟩ := hT₁.tail (W := W) hg.shape hdirect title false { cache with rowHashes :=
      (renderRows R g.styleTable false 0 g.visibleRows (cache.hashesFor R g.visibleRowCount)).2 }
    fun _ m hm => hmodes₁.trans (hmodes m hm)
  refine ⟨T', ?_, hrecast.canvas hT₁ (hmodes' ▸ hdirect), hmodes', fun i row h hrow hh => ?_⟩
  · change T.process W ([] ++ (renderRows R g.styleTable false 0 g.visibleRows (cache.hashesFor R g.visibleRowCount)).1 ++ _) = _
    rw [List.nil_append, process_append, hrun₁, Option.bind_some]
    exact hrun
  · have := hupd i row h hrow hh
    rw [Nat.zero_add] at this
    unfold Updates at this ⊢
    rwa [hrecast.viewRow]

/-- An incremental frame, empty or not. -/
theorem Canvas.frame (hT : T.Canvas P g.cols g.rows) (hg : g.Showable W P) (hdirect : g.modes.Direct)
    (hmodes : ∀ m, cache.lastModes = some m → T.grid.modes = m) :
    ∃ T', T.process W (renderScreenImpl R g title [] false cache).1 = some T' ∧ T'.Canvas P g.cols g.rows ∧
      T'.grid.modes = g.modes ∧
      ∀ (i : Nat) row h, g.visibleRows[i]? = some row → (cache.hashesFor R g.visibleRowCount)[i]? = some h →
        Updates R g.styleTable T T' i row h := by
  unfold renderScreenImpl
  simp only [ne_eq, not_true_eq_false, decide_false, Bool.or_false, if_false, List.nil_append]
  split
  next hempty =>
    obtain ⟨T', hrun, hT', hrest⟩ := hT.body R title hg hdirect hmodes
    rw [hempty.1] at hrun
    obtain rfl := Option.some.inj hrun
    exact ⟨T, rfl, hT', hrest⟩
  next =>
    obtain ⟨hrecast₁, hT₁⟩ := hT.setCursorVisible false
    obtain ⟨T₂, hrun₂, hT₂, hmodes₂, hupd⟩ := hT₁.body R title hg hdirect hmodes
    obtain ⟨T₃, hrun₃, hrecast₃, hT₃, hmodes₃⟩ := hT₂.show (W := W) g.cursorVisible
    refine ⟨T₃, ?_, hT₃, hmodes₃.trans hmodes₂, fun i row h hrow hh => ?_⟩
    · have hhead : T.process W [.decSet 2026, .decReset 25] = some (T.onGrid (·.setCursorVisible false)) := rfl
      rw [List.append_assoc, process_append, process_append, hhead, Option.bind_some, hrun₂, Option.bind_some, hrun₃]
    · have := hupd i row h hrow hh
      unfold Updates at this ⊢
      rwa [hrecast₃.viewRow, ← hrecast₁.viewRow]

/-- A full frame. -/
theorem Canvas.full (hT : T.Canvas P g.cols g.rows) (hg : g.Showable W P) (hdirect : g.modes.Direct) :
    ∃ T', T.process W (fullFrame R g title) = some T' ∧ T'.Canvas P g.cols g.rows ∧ T'.grid.modes = g.modes ∧
      T'.grid.view = g.view := by
  have hmatch : T.Matches g := ⟨hT.inv, hT.cols_eq, hT.rows_eq⟩
  have hfits : T.wiped.Fits P := hT.fits.wiped hT.inv
  have hpaint : ∀ row ∈ g.visibleRows, T.Paintable W P g.styleTable row := fun row hrow =>
    have h := hmatch.paintable hg.shape hrow (hg.wellFormed row hrow) (hg.broad row hrow) (.inr hT.mapCharset)
    ⟨h.laid, h.reads, fun c hc => hg.styles (h.styles c hc), h.fits⟩
  obtain ⟨T', hrun, hdrawn⟩ := process_frame_exact R hmatch hg.shape hg.table hfits hpaint title
  have hview : T'.grid.view = g.view := hdrawn.view_eq hmatch hg.shape hg.table
    (fun row hrow => (hg.wellFormed row hrow).laid (hg.broad row hrow)) (fun y _ _ _ => hT.addressed y)
    fun _ _ c _ => hT.mapCharset c.c
  obtain ⟨T₁, hrun₁, hT₁, hkept₁, hmodes₁, -⟩ := (wiped_sheet hT.inv hfits).paint_rows R (y := 0)
    (show g.visibleRows.length = (({} : RenderCache H).hashesFor R g.visibleRowCount).length by
      rw [Viewed.hashesFor_length, Viewed.visibleRowCount_eq hg.shape])
    (by rw [hg.shape.visible_length, Nat.zero_add]; exact Nat.le_of_eq hT.rows_eq.symm)
    (fun row hrow => (hpaint row hrow).along (wiped_kept hT.inv) ⟨rfl, rfl, rfl⟩) hg.table.get_zero
  have hcanvas₁ : T₁.Canvas P g.cols g.rows := ⟨hT₁, hmodes₁.modes ▸ hT.direct, hkept₁.cols.trans hT.cols_eq, hkept₁.rows.trans hT.rows_eq⟩
  obtain ⟨T₂, hrun₂, hrecast₂, hmodes₂⟩ := hcanvas₁.tail (W := W) hg.shape hdirect title true ({} : RenderCache H) (by simp)
  have hcanvas₂ := hrecast₂.canvas hcanvas₁ (hmodes₂ ▸ hdirect)
  obtain ⟨T₃, hrun₃, -, hcanvas₃, hmodes₃⟩ := hcanvas₂.show (W := W) g.cursorVisible
  have hsame : T.process W (fullFrame R g title) = some T₃ := by
    rw [fullFrame, List.append_assoc, process_append, process_append, process_append, process_clear hT.inv, Option.bind_some,
      hrun₁, Option.bind_some, hrun₂, Option.bind_some, hrun₃]
  obtain rfl : T₃ = T' := Option.some.inj (hsame.symm.trans hrun)
  exact ⟨T₃, hrun, hcanvas₃, hmodes₃.trans hmodes₂, hview⟩

end

/-! ## Scrollback before a frame -/

/-- The rows move up, and a blank one follows. -/
theorem Canvas.scrollUp (h : T.Canvas P cols rows) :
    ∃ T', T.scrollUp = some T' ∧ (T'.Inv → T'.Canvas P cols rows) ∧ T'.grid.modes = T.grid.modes := by
  obtain ⟨g', hscroll, hcells, hvis, hcols, hrows, htable, hmodes⟩ := h.inv.shape.scrollUp_rows T.state.inAltScreen {}
  refine ⟨{ T with grid := g', scrolledOff := T.scrolledOff ++ T.displacedRow }, ?_, fun hinv => ?_, hmodes⟩
  · rw [Screen.scrollUp, blankCell_default h.style]
    simp only [Option.bind_eq_bind, Option.bind_some, hscroll]
    rfl
  · refine ⟨⟨hinv, h.fits.blanks htable fun row hrow => ?_, h.style, fun row hrow => ?_⟩, hmodes ▸ h.direct,
      hcols.trans h.cols_eq, hrows.trans h.rows_eq⟩
    · rcases List.mem_append.1 hrow with hrow | hrow
      · rcases hcells row hrow with hold | rfl
        · exact .inl (List.mem_append_left _ hold)
        · exact .inr fun c hc => congrArg Cell.styleId (List.mem_replicate.1 hc).2
      · exact .inl (List.mem_append_right _ hrow)
    · rcases hvis row hrow with hold | rfl
      · exact h.paired row hold
      · exact .replicate (single_blank 0) _

/-- A line feed. -/
theorem Canvas.feed (h : T.Canvas P cols rows) :
    ∃ T', T.step W (.execute 0x0a) = some T' ∧ T'.Canvas P cols rows ∧ T'.grid.modes = T.grid.modes := by
  have hlast := h.inv.shape.rows_pos
  have hcursor := h.inv.shape.cursor_y
  have hle := h.inv.shape.rows_le
  have hclear : T.Recast (T.onGrid (·.setWrapPending false)) :=
    ⟨(Effect.cursor T.grid.cursorX T.grid.cursorY false h.inv.shape.cursor_x hcursor).inv h.inv, rfl, rfl, rfl, rfl, rfl, rfl, rfl⟩
  have h₁ := hclear.canvas h h.direct
  obtain ⟨T', hstep, hT', hmodes⟩ : ∃ T', (T.onGrid (·.setWrapPending false)).advanceLine = some T' ∧
      (T'.Inv → T'.Canvas P cols rows) ∧ T'.grid.modes = T.grid.modes := by
    unfold advanceLine
    split
    · exact h₁.scrollUp
    · rw [sub_eq (show 1 ≤ (T.onGrid (·.setWrapPending false)).grid.rows from hlast), Option.bind_eq_bind, Option.bind_some]
      split
      next =>
        have hnext : (T.onGrid (·.setWrapPending false)).grid.cursorY + 1 ≤ 65535 := by
          change T.grid.cursorY + 1 ≤ 65535
          omega
        rw [add16_eq hnext, Option.bind_some]
        refine ⟨_, rfl, fun hinv => ?_, rfl⟩
        have hmoved : (T.onGrid (·.setWrapPending false)).Recast ((T.onGrid (·.setWrapPending false)).onGrid
            (·.setCursorY ((T.onGrid (·.setWrapPending false)).grid.cursorY + 1))) :=
          ⟨hinv, rfl, rfl, rfl, rfl, rfl, rfl, rfl⟩
        exact hmoved.canvas h₁ h₁.direct
      next => exact ⟨_, rfl, fun _ => h₁, rfl⟩
  have hinv := steps_inv (step_steps W h.inv (show T.step W (.execute 0x0a) = some T' from hstep)) h.inv
  exact ⟨T', hstep, hT' hinv, hmodes⟩

/-- Such a terminal is such a terminal after the events, in the same modes. -/
def Canvas.Kept (W : UnicodeWidth) (P : Finset Style) (cols rows : Nat) (es : List Event) : Prop :=
  ∀ T : Screen, T.Canvas P cols rows →
    ∃ T', T.process W es = some T' ∧ T'.Canvas P cols rows ∧ T'.grid.modes = T.grid.modes

theorem Canvas.Kept.append {es₁ es₂ : List Event} (h₁ : Canvas.Kept W P cols rows es₁) (h₂ : Canvas.Kept W P cols rows es₂) :
    Canvas.Kept W P cols rows (es₁ ++ es₂) := by
  intro T h
  obtain ⟨T₁, hrun₁, hT₁, hmodes₁⟩ := h₁ T h
  obtain ⟨T', hrun, hT', hmodes⟩ := h₂ T₁ hT₁
  exact ⟨T', by rw [process_append, hrun₁, Option.bind_some, hrun], hT', hmodes.trans hmodes₁⟩

theorem Canvas.Kept.flatten {ess : List (List Event)} (hes : ∀ es ∈ ess, Canvas.Kept W P cols rows es) :
    Canvas.Kept W P cols rows ess.flatten := by
  induction ess with
  | nil => exact fun T h => ⟨T, rfl, h, rfl⟩
  | cons es ess ih =>
    rw [List.flatten_cons]
    exact .append (hes es List.mem_cons_self) (ih fun es' hes' => hes es' (List.mem_cons_of_mem _ hes'))

theorem Canvas.Kept.feeds (n : Nat) : Canvas.Kept W P cols rows (List.replicate n (.execute 0x0a)) := by
  have hfeed : ∀ es ∈ List.replicate n [.execute 0x0a], Canvas.Kept W P cols rows es := by
    intro es hes T h
    rw [(List.mem_replicate.1 hes).2]
    obtain ⟨T', hstep, hrest⟩ := h.feed (W := W)
    exact ⟨T', (process_one ..).trans hstep, hrest⟩
  have hall : (List.replicate n [Event.execute 0x0a]).flatten = List.replicate n (.execute 0x0a) := by simp
  exact hall ▸ .flatten hfeed

/-- A line written on row `y`. -/
theorem Canvas.line (h : T.Canvas P cols rows) (hy : y < rows) {l : Line} (hl : l.Sendable W P cols) :
    ∃ T', T.process W (.cup (y + 1) 1 :: .sgrReset :: l.events ++ [.el 0]) = some T' ∧ T'.Canvas P cols rows ∧
      T'.grid.modes = T.grid.modes := by
  obtain ⟨hcup, h₁⟩ := h.cup (W := W) h.cols_pos hy
  have hb₁ : Brush P (T.cursorAt 0 y) y [] (T.cursorAt 0 y).state.currentStyle (T.cursorAt 0 y) :=
    .start h₁.inv h₁.fits rfl rfl fun row hrow => h₁.hasRow hrow
  obtain ⟨hreset, hp₂⟩ := hb₁.toStroke.sgr {} (W := W)
  obtain ⟨T₂, hreset, hb₂⟩ : ∃ T₂, (T.cursorAt 0 y).step W .sgrReset = some T₂ ∧ Brush P (T.cursorAt 0 y) y [] {} T₂ :=
    ⟨_, hreset, hp₂, rfl, hb₁.x, hb₁.wrap⟩
  obtain ⟨T₃, b, -, hrun, hp₃, hstyle₃, -⟩ := hb₂.line h₁.inv h₁.mapCharset h₁.cols_eq hl
  obtain ⟨-, row, -, -, -, hrow, -⟩ := hp₃.row
  obtain ⟨T₄, hel, hstyle₄, hp₄, -⟩ := hp₃.erase (W := W) h₁.inv hstyle₃ hrow
  refine ⟨T₄, ?_, h₁.stroke hp₄ hstyle₄, hp₄.modes⟩
  rw [List.cons_append, List.cons_append, process_cons, hcup, Option.bind_some, process_cons, hreset, Option.bind_some,
    process_append, hrun, Option.bind_some, process_one]
  exact hel

/-- A row blanked. -/
theorem Canvas.clear (h : T.Canvas P cols rows) (hy : y < rows) :
    ∃ T', T.process W [.cup (y + 1) 1, .el 2] = some T' ∧ T'.Canvas P cols rows ∧ T'.grid.modes = T.grid.modes := by
  obtain ⟨hcup, h₁⟩ := h.cup (W := W) h.cols_pos hy
  obtain ⟨T₂, hel, hstyle₂, hp₂, -⟩ := step_blank (W := W) h₁.inv h₁.fits h₁.style (rfl : (T.cursorAt 0 y).grid.cursorY = y)
  refine ⟨T₂, ?_, h₁.stroke hp₂ hstyle₂, hp₂.modes⟩
  rw [process_cons, hcup, Option.bind_some, process_one, hel]

/-- A chunk of scrollback. -/
theorem Canvas.Kept.chunk {lines : List Line} (hlines : ∀ l ∈ lines, l.Sendable W P cols) (hlen : lines.length ≤ rows) :
    Canvas.Kept W P cols rows (renderChunk rows (lines.map Line.events)) := by
  unfold renderChunk
  rw [List.length_map]
  refine .append (.append (.flatten ?_) (.flatten ?_)) fun T h => ?_
  · intro es hes T h
    obtain ⟨⟨line, i⟩, hmem, rfl⟩ := List.mem_map.1 hes
    obtain ⟨l, hl, rfl⟩ := List.mem_map.1 (List.fst_mem_of_mem_zipIdx hmem)
    have hi := List.snd_lt_of_mem_zipIdx hmem
    rw [List.length_map] at hi
    exact h.line (by omega) (hlines l hl)
  · intro es hes T h
    obtain ⟨i, hi, rfl⟩ := List.mem_map.1 hes
    exact h.clear (by have := List.mem_range.1 hi; omega)
  · have hpos := h.rows_pos
    obtain ⟨hcup, h₁⟩ := h.cup (W := W) (x := 0) (y := rows - 1) h.cols_pos (by omega)
    rw [Nat.sub_add_cancel hpos] at hcup
    obtain ⟨T', hrun, h', hmodes⟩ := feeds lines.length _ h₁
    exact ⟨T', by rw [process_cons, hcup, Option.bind_some, hrun], h', hmodes⟩

/-- All of the scrollback. -/
theorem Canvas.scrollback (h : T.Canvas P g.cols g.rows) {lines : List Line} (hlines : ∀ l ∈ lines, l.Sendable W P g.cols) :
    ∃ T', T.process W (renderScrollback g (lines.map Line.events)) = some T' ∧ T'.Canvas P g.cols g.rows ∧
      T'.grid.modes = T.grid.modes := by
  obtain ⟨-, h₁⟩ := h.setCursorVisible false
  obtain ⟨T₂, hregion, hrecast₂, hmodes₂⟩ : ∃ T₂, (T.onGrid (·.setCursorVisible false)).step W (.csi [[0]] [] 'r') = some T₂ ∧
      (T.onGrid (·.setCursorVisible false)).Recast T₂ ∧ T₂.grid.modes = T.grid.modes := by
    have hregion := step_region_full W h₁.inv
    exact ⟨_, hregion, ⟨steps_inv (step_steps W h₁.inv hregion) h₁.inv, rfl, rfl, rfl, rfl, rfl, rfl, rfl⟩, rfl⟩
  have h₂ := hrecast₂.canvas h₁ (hmodes₂ ▸ h₁.direct)
  have hmem : ∀ es ∈ (chunks g.rows (lines.map Line.events)).map (renderChunk g.rows), Canvas.Kept W P g.cols g.rows es := by
    intro es hes
    obtain ⟨_, hchunk, rfl⟩ := List.mem_map.1 hes
    obtain ⟨i, -, rfl⟩ := List.mem_map.1 hchunk
    rw [← List.map_drop, ← List.map_take]
    exact .chunk (fun l hl => hlines l (List.mem_of_mem_drop (List.mem_of_mem_take hl))) (List.length_take_le _ _)
  obtain ⟨T', hrun, h', hmodes⟩ := Canvas.Kept.flatten hmem _ h₂
  refine ⟨T', ?_, h', hmodes.trans hmodes₂⟩
  have hhide : T.step W (.decReset 25) = some (T.onGrid (·.setCursorVisible false)) := rfl
  rw [renderScrollback, process_cons, hhide, Option.bind_some, process_cons, hregion, Option.bind_some]
  exact hrun

section

variable {H : Type} [DecidableEq H] (R : RowHash H) (title : List UInt8) {cache : RenderCache H}

/-- A full frame, with or without scrollback before it. -/
theorem Canvas.fullFrame (h : T.Canvas P g.cols g.rows) (hg : g.Showable W P) (hdirect : g.modes.Direct) {lines : List Line}
    (hlines : ∀ l ∈ lines, l.Sendable W P g.cols) :
    ∃ T', T.process W (renderScreenImpl R g title (lines.map Line.events) true cache).1 = some T' ∧ T'.Canvas P g.cols g.rows ∧
      T'.grid.modes = g.modes ∧ T'.grid.view = g.view := by
  rw [renderScreenImpl_full]
  obtain ⟨T₁, hrun₁, h₁⟩ : ∃ T₁, T.process W (if lines.map Line.events ≠ [] then renderScrollback g (lines.map Line.events) else []) =
      some T₁ ∧ T₁.Canvas P g.cols g.rows := by
    split
    · obtain ⟨T₁, hrun₁, h₁, -⟩ := h.scrollback (W := W) hlines
      exact ⟨T₁, hrun₁, h₁⟩
    · exact ⟨T, rfl, h⟩
  obtain ⟨T', hrun, hrest⟩ := h₁.full R title hg hdirect
  exact ⟨T', by rw [process_append, hrun₁, Option.bind_some, hrun], hrest⟩

end

end Screen

end Retach
