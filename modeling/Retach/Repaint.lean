import Retach.Painting
import Retach.Cursor
/-!
# A full frame on a terminal

A full frame clears the terminal and paints every row where the terminal
addresses it. The row that one painted row alone reaches shows that row; one
that none reaches stays blank.
-/

open Checked Lists

namespace Retach

/-- The visible cells as they look. -/
def Grid.view (g : Grid) : List (List (Char × Nat × Style)) :=
  g.visibleRows.map fun row => row.cells.map (Cell.shown g.styleTable)

theorem Grid.Shape.hasRow_of_getElem? {g : Grid} (h : g.Shape) {y : Nat} {row : Row} (hrow : g.visibleRows[y]? = some row) :
    g.HasRow y row := by
  have hy : y < g.rows := by
    rw [← h.visible_length]
    exact (List.getElem?_eq_some_iff.1 hrow).1
  refine ⟨hy, ?_⟩
  rwa [Grid.visibleRows, List.getElem?_take_of_lt hy, List.getElem?_drop] at hrow

namespace Screen

variable {W : UnicodeWidth} {P : Finset Style} {T T' T₁ T₂ : Screen}

/-! ## What a frame leaves alone -/

/-- The rows outside the visible screen and how they look. -/
structure Kept (T T' : Screen) : Prop where
  cols : T'.grid.cols = T.grid.cols
  rows : T'.grid.rows = T.grid.rows
  scrollback : T'.grid.scrollbackRows = T.grid.scrollbackRows
  limit : T'.grid.scrollbackLimit = T.grid.scrollbackLimit
  alt : T'.state.inAltScreen = T.state.inAltScreen
  saved : T'.state.savedGrid = T.state.savedGrid
  styles : T.grid.styleTable.Keeps
    (fun id => usesStyle (T.grid.scrollbackRows ++ SavedGrid.rows T.state.savedGrid) id = true) T'.grid.styleTable
  tidy : T.grid.styleTable.Tidy → T'.grid.styleTable.Tidy

theorem Kept.refl (T : Screen) : T.Kept T := ⟨rfl, rfl, rfl, rfl, rfl, rfl, .refl _ _, fun h => h⟩

theorem Kept.trans (h : T.Kept T₁) (h' : T₁.Kept T₂) : T.Kept T₂ where
  cols := h'.cols.trans h.cols
  rows := h'.rows.trans h.rows
  scrollback := h'.scrollback.trans h.scrollback
  limit := h'.limit.trans h.limit
  alt := h'.alt.trans h.alt
  saved := h'.saved.trans h.saved
  styles := h.styles.trans (by
    have := h'.styles
    rwa [h.scrollback, h.saved] at this)
  tidy := fun ht => h'.tidy (h.tidy ht)

/-- The modes and the scroll region. -/
structure SameModes (T T' : Screen) : Prop where
  modes : T'.grid.modes = T.grid.modes
  top : T'.grid.scrollTop = T.grid.scrollTop
  bottom : T'.grid.scrollBottom = T.grid.scrollBottom

theorem SameModes.refl (T : Screen) : T.SameModes T := ⟨rfl, rfl, rfl⟩

theorem SameModes.trans (h : T.SameModes T₁) (h' : T₁.SameModes T₂) : T.SameModes T₂ :=
  ⟨h'.modes.trans h.modes, h'.top.trans h.top, h'.bottom.trans h.bottom⟩

theorem SameModes.addressed (h : T.SameModes T') (y : Nat) : T'.addressed y = T.addressed y := by
  rw [Screen.addressed, Screen.addressed, h.modes, h.top, h.bottom]

theorem SameModes.mapCharset (h : T.SameModes T') (c : Char) : T'.mapCharset c = T.mapCharset c := by
  rw [Screen.mapCharset, Screen.mapCharset, h.modes]

theorem SameModes.seen (h : T.SameModes T') (t : StyleTable) : T'.seen t = T.seen t := by
  funext c
  rw [Screen.seen, Screen.seen, h.mapCharset]

theorem SameModes.reads (h : T.SameModes T') {row : Row} (hr : T.Reads W row) : T'.Reads W row :=
  ⟨fun c hc => by rw [h.mapCharset]; exact hr.widths c hc, fun x m hm => by rw [h.mapCharset]; exact hr.marks x m hm⟩

/-- Row `r` of the screen as it looks. -/
def viewRow (T : Screen) (r : Nat) : Option (List (Char × Nat × Style)) :=
  (T.grid.visibleRows[r]?).map fun row => row.cells.map (Cell.shown T.grid.styleTable)

theorem view_getElem? (T : Screen) (r : Nat) : T.grid.view[r]? = T.viewRow r := List.getElem?_map ..

/-- Row `r` is blank. -/
def BlankRow (T : Screen) (r : Nat) : Prop :=
  ∃ row, T.grid.HasRow r row ∧ row.cells = List.replicate T.grid.cols {}

theorem BlankRow.same {r : Nat} (h : T.BlankRow r) (hT' : T'.Inv) (hcols : T'.grid.cols = T.grid.cols)
    (hsame : T'.grid.visibleRows[r]? = T.grid.visibleRows[r]?) : T'.BlankRow r := by
  obtain ⟨row, hrow, hcells⟩ := h
  rw [hrow.getElem?] at hsame
  exact ⟨row, hT'.shape.hasRow_of_getElem? hsame, hcells.trans (by rw [hcols])⟩

/-- A terminal between two rows of a frame. -/
structure Sheet (P : Finset Style) (T : Screen) : Prop where
  inv : T.Inv
  fits : T.Fits P
  style : T.state.currentStyle = {}
  paired : ∀ row ∈ T.grid.visibleRows, Paired row.cells

theorem Sheet.hasRow (h : T.Sheet P) {y : Nat} {row : Row} (hrow : T.grid.HasRow y row) : Paired row.cells :=
  h.paired row hrow.mem

/-! ## One row -/

/-- What the rows from `T` to `T'` have in common, all but row `y`. -/
structure Elsewhere (T : Screen) (y : Nat) (T' : Screen) : Prop extends T.Kept T', T.SameModes T' where
  same : ∀ r, r ≠ y → T'.grid.visibleRows[r]? = T.grid.visibleRows[r]?
  view : ∀ r, r ≠ y → T'.viewRow r = T.viewRow r

end Screen

theorem Stroke.elsewhere {P : Finset Style} {T s : Screen} {y : Nat} {done : List (Char × Nat × Style)}
    (hp : Stroke P T y done s) (hT : T.Inv) : T.Elsewhere y s := by
  have hkeep := hp.keeps
  have htidy := hp.tidy
  obtain ⟨p, rfl⟩ := hp.drawn
  have hsame (r : Nat) (hr : r ≠ y) : (T.drawn y p).grid.visibleRows[r]? = T.grid.visibleRows[r]? := by
    rw [hT.visible_drawn, List.getElem?_set_ne (Ne.symm hr)]
  refine { cols := rfl, rows := rfl, scrollback := hT.scrollback_drawn y p, limit := rfl, alt := rfl, saved := rfl,
           styles := fun id hid => hkeep id ?_, tidy := htidy, modes := rfl, top := rfl, bottom := rfl,
           same := hsame, view := fun r hr => ?_ }
  · obtain ⟨row, hrow, c, hc, rfl⟩ := usesStyle_iff.1 hid
    refine usesStyle_iff.2 ⟨row, ?_, c, hc, rfl⟩
    rw [Screen.others, List.mem_append, List.mem_append]
    exact (List.mem_append.1 hrow).imp_left .inl
  · rw [Screen.viewRow, Screen.viewRow, hsame r hr]
    cases hrow : T.grid.visibleRows[r]? with
    | none => rfl
    | some row =>
      refine congrArg some (List.map_congr_left fun c hc => ?_)
      have hother : row ∈ T.others y := by
        rw [Screen.others, List.mem_append, List.mem_append]
        exact .inl (.inr (List.mem_eraseIdx_iff_getElem?.2 ⟨r, hr, hrow⟩))
      have hget := (hkeep c.styleId (usesStyle_iff.2 ⟨row, hother, c, hc, rfl⟩)
        (hT.held_visible (List.mem_of_getElem? hrow) hc)).2
      simp only [Cell.shown, hget]

/-- Painted on a blank row, cells are followed by blanks. -/
theorem Stroke.view {P : Finset Style} {T s : Screen} {y : Nat} {done : List (Char × Nat × Style)}
    (hp : Stroke P T y done s) (hblank : T.BlankRow y) :
    s.viewRow y = some (done ++ List.replicate (T.grid.cols - done.length) blankShown) := by
  obtain ⟨old, row, a, rest, hold, hrow, hsplit, hshown, -, -, hrest, -⟩ := hp.row
  obtain ⟨old', hold', hcells⟩ := hblank
  obtain rfl : old = old' := Option.some.inj (hold.getElem?.symm.trans hold'.getElem?)
  have hcols := hp.cols
  have hlen := hp.inv.shape.row_len row hrow.mem
  rw [hsplit, List.length_append, hcols] at hlen
  have halen : a.length = done.length := by rw [← hshown, List.length_map]
  have hall : rest = List.replicate (T.grid.cols - done.length) {} := by
    refine List.eq_replicate_iff.2 ⟨by omega, fun d hd => ?_⟩
    rcases mem_healed (hrest ▸ hd) with h | h
    · exact h
    · rw [hcells] at h
      exact (List.mem_replicate.1 (List.mem_of_mem_drop h)).2
  have hzero : Cell.shown s.grid.styleTable {} = blankShown := by
    simp only [Cell.shown, hp.inv.table.get_zero, blankShown]
  rw [Screen.viewRow, hrow.getElem?, Option.map_some, hsplit, List.map_append, hshown, hall, List.map_replicate, hzero]

namespace Screen

variable {W : UnicodeWidth} {P : Finset Style} {T T' T₁ T₂ : Screen} {t : StyleTable}

/-- A row that can be painted on the terminal in styles of the palette. -/
structure Paintable (W : UnicodeWidth) (P : Finset Style) (T : Screen) (t : StyleTable) (row : Row) : Prop where
  laid : Laid W 0 row.cells
  reads : T.Reads W row
  styles : ∀ c ∈ row.cells, t.get c.styleId ∈ P
  fits : row.cells.length ≤ T.grid.cols

theorem Paintable.along {row : Row} (h : T.Paintable W P t row) (hk : T.Kept T') (hm : T.SameModes T') :
    T'.Paintable W P t row := ⟨h.laid, hm.reads h.reads, h.styles, hk.cols.symm ▸ h.fits⟩

theorem addressed_lt (h : T.Inv) {y : Nat} (hy : y < T.grid.rows) : T.addressed y < T.grid.rows := by
  have := h.shape.region_lt
  unfold Screen.addressed
  split <;> omega

/-- The sheet after a row. -/
theorem Sheet.stroke (hT : T.Sheet P) {y : Nat} {done : List (Char × Nat × Style)} {s : Screen} (hp : Stroke P T y done s)
    (hstyle : s.state.currentStyle = {}) : s.Sheet P where
  inv := hp.inv
  fits := hp.fits
  style := hstyle
  paired := fun r hr => by
    obtain ⟨old, row, a, rest, hold, hrow, -, -, hpaired, -⟩ := hp.row
    obtain ⟨p, rfl⟩ := hp.drawn
    rw [hT.inv.visible_drawn] at hr
    rcases List.mem_or_eq_of_mem_set hr with hr | rfl
    · exact hT.paired r hr
    · have := hrow.getElem?
      rw [hT.inv.visible_drawn, List.getElem?_set_self (by rw [hT.inv.shape.visible_length]; exact hold.1)] at this
      exact Option.some.inj this ▸ hpaired

/-- A row of a full frame, painted where the terminal addresses it. -/
theorem Sheet.paint_row (hT : T.Sheet P) {y : Nat} (hy : y < T.grid.rows) {row : Row} (hrow : T.Paintable W P t row)
    (h0 : t.get 0 = {}) :
    ∃ T' b, T.process W (renderRow t true y row) = some T' ∧ Stroke P T (T.addressed y) b T' ∧ T'.Sheet P ∧
      b.length ≤ row.cells.length ∧
      b ++ List.replicate (row.cells.length - b.length) blankShown = row.cells.map (T.seen t) ∧
      (writeLen row.cells = 0 → T'.grid.visibleRows = T.grid.visibleRows ∧ T'.grid.styleTable = T.grid.styleTable) := by
  have hlt := addressed_lt hT.inv hy
  have hcup := step_cup W hT.inv hT.inv.shape.cols_pos hy
  let T₁ := T.cursorAt 0 (T.addressed y)
  have h₁ : T₁.Inv := (Effect.cursor 0 (T.addressed y) false hT.inv.shape.cols_pos hlt).inv hT.inv
  have hb : Brush P T₁ (T.addressed y) [] (t.get 0) T₁ := by
    rw [h0, ← hT.style]
    exact .start h₁ hT.fits rfl rfl fun r hr => hT.hasRow hr
  obtain ⟨T₂, b, hp⟩ := hb.paint h₁ hrow.reads.marks hrow.laid hrow.reads.widths hrow.styles h0 rfl
    (by rw [List.length_nil, Nat.zero_add]; exact hrow.fits)
  have hrun := hp.run
  obtain ⟨hreset, hp'⟩ := hp.stroke.sgr (W := W) {}
  have hpT : Stroke P T (T.addressed y) b { T₂ with state := { T₂.state with currentStyle := {} } } :=
    ⟨⟨hp'.drawn, hp'.inv, hp'.fits, hp'.keeps, hp'.tidy⟩, hp'.row⟩
  refine ⟨_, b, ?_, hpT, hT.stroke hpT rfl, hp.length_le, hp.seen, fun hblank => ?_⟩
  · rw [renderRow, if_pos rfl, process_append, process_cons, hcup, Option.bind_some]
    rw [show T₁.process W (paintCells t row 0 0 (row.cells.take (writeLen row.cells))).1 = some T₂ from hrun,
      Option.bind_some, process_one]
    exact hreset
  · rw [paintRow_blank t row 0 0 hblank] at hrun
    obtain rfl := Option.some.inj hrun
    exact ⟨rfl, rfl⟩

/-! ## All rows -/

theorem renderRows_cons {H : Type} [DecidableEq H] (R : RowHash H) (t : StyleTable) (y : Nat) (row : Row) (rows : List Row)
    (h : H) (hashes : List H) : (renderRows R t true y (row :: rows) (h :: hashes)).1 =
      renderRow t true y row ++ (renderRows R t true (y + 1) rows hashes).1 := by
  have hskip : R.skips true h row = false := by simp [RowHash.skips]
  rw [renderRows, hskip]
  rfl

/-- Row `i` of the rows painted from row `y` on has content and is painted on
row `r` of the terminal. -/
def Hits (T : Screen) (rows : List Row) (y i r : Nat) : Prop :=
  ∃ row, rows[i]? = some row ∧ writeLen row.cells ≠ 0 ∧ T.addressed (y + i) = r

/-- What the rows of a frame do to row `r` of the terminal. -/
structure Overlaid (T : Screen) (t : StyleTable) (rows : List Row) (y : Nat) (T' : Screen) (r : Nat) : Prop where
  none : (∀ i, ¬ T.Hits rows y i r) → T'.grid.visibleRows[r]? = T.grid.visibleRows[r]? ∧ T'.viewRow r = T.viewRow r
  one : ∀ i row, rows[i]? = some row → T.Hits rows y i r → (∀ j, T.Hits rows y j r → j = i) → T.BlankRow r →
    T'.viewRow r = some (row.cells.map (T.seen t) ++ List.replicate (T.grid.cols - row.cells.length) blankShown)

theorem Hits.succ {rows : List Row} {row : Row} {y i r : Nat} (hm : T.SameModes T') :
    T'.Hits rows (y + 1) i r ↔ T.Hits (row :: rows) y (i + 1) r := by
  simp only [Hits, List.getElem?_cons_succ, hm.addressed, show y + 1 + i = y + (i + 1) by omega]

theorem Sheet.paint_rows {H : Type} [DecidableEq H] (R : RowHash H) (hT : T.Sheet P) {y : Nat} {rows : List Row}
    {hashes : List H} (hlen : rows.length = hashes.length) (hy : y + rows.length ≤ T.grid.rows)
    (hrows : ∀ row ∈ rows, T.Paintable W P t row) (h0 : t.get 0 = {}) :
    ∃ T', T.process W (renderRows R t true y rows hashes).1 = some T' ∧ T'.Sheet P ∧ T.Kept T' ∧ T.SameModes T' ∧
      ∀ r, T.Overlaid t rows y T' r := by
  induction rows generalizing T y hashes with
  | nil =>
    refine ⟨T, rfl, hT, .refl T, .refl T, fun r => ⟨fun _ => ⟨rfl, rfl⟩, fun i row hrow => ?_⟩⟩
    rw [List.getElem?_nil] at hrow
    cases hrow
  | cons row rows ih =>
    cases hashes with
    | nil => cases hlen
    | cons h hashes =>
      rw [List.length_cons] at hy
      obtain ⟨T₁, b, hrun₁, hp, hT₁, hblen, hseen, hempty⟩ := hT.paint_row (y := y) (by omega)
        (hrows row (List.mem_cons_self ..)) h0
      have helse := hp.elsewhere hT.inv
      obtain ⟨T₂, hrun₂, hT₂, hkept, hmodes, hover⟩ := ih hT₁ (y := y + 1) (Nat.succ.inj hlen)
        (show y + 1 + rows.length ≤ T₁.grid.rows by rw [helse.rows]; omega)
        fun r hr => (hrows r (List.mem_cons_of_mem _ hr)).along helse.toKept helse.toSameModes
      rw [renderRows_cons, process_append, hrun₁, Option.bind_some]
      have hsucc {i r : Nat} : T₁.Hits rows (y + 1) i r ↔ T.Hits (row :: rows) y (i + 1) r := Hits.succ helse.toSameModes
      have hfirst (r : Nat) (hr : ¬ T.Hits (row :: rows) y 0 r) :
          T₁.grid.visibleRows[r]? = T.grid.visibleRows[r]? ∧ T₁.viewRow r = T.viewRow r := by
        by_cases hat : r = T.addressed y
        · have hblank : writeLen row.cells = 0 := by
            by_contra hcontent
            exact hr ⟨row, rfl, hcontent, hat.symm⟩
          obtain ⟨hvis, htable⟩ := hempty hblank
          rw [viewRow, viewRow, hvis, htable]
          exact ⟨rfl, rfl⟩
        · exact ⟨helse.same r hat, helse.view r hat⟩
      refine ⟨T₂, hrun₂, hT₂, helse.toKept.trans hkept, helse.toSameModes.trans hmodes, fun r => ⟨fun hnone => ?_, ?_⟩⟩
      · have hrest := (hover r).none fun i hi => hnone (i + 1) (hsucc.1 hi)
        have hone := hfirst r (hnone 0)
        exact ⟨hrest.1.trans hone.1, hrest.2.trans hone.2⟩
      · rintro (_ | i) row' hrow' hhit honly hblank
        · obtain rfl := Option.some.inj hrow'
          have hrest := (hover r).none fun i hi => by
            have := honly (i + 1) (hsucc.1 hi)
            omega
          obtain ⟨row'', hrow'', -, rfl⟩ := hhit
          have hfits := (hrows row (List.mem_cons_self ..)).fits
          rw [Nat.add_zero] at hblank hrest ⊢
          rw [hrest.2, hp.view hblank, ← hseen, List.append_assoc, List.replicate_append_replicate,
            show row.cells.length - b.length + (T.grid.cols - row.cells.length) = T.grid.cols - b.length by omega]
        · have hmiss : ¬ T.Hits (row :: rows) y 0 r := fun h => absurd (honly 0 h) (by omega)
          have hone := (hover r).one i row' hrow' (hsucc.2 hhit) (fun j hj => by
            have := honly (j + 1) (hsucc.1 hj)
            omega) (hblank.same hT₁.inv helse.cols (hfirst r hmiss).1)
          rwa [helse.toSameModes.seen, helse.cols] at hone

/-! ## The whole frame -/

/-- The terminal cleared for a full frame, with the cursor at home. -/
def wiped (T : Screen) : Screen :=
  ({ T with
    grid := (T.grid.replaceVisible (List.replicate T.grid.rows (.filled T.grid.cols {}))).setCursorVisible false
    state := { T.state with currentStyle := {} } } : Screen).cursorAt 0 (T.addressed 0)

/-- ED 2 in the default style. -/
theorem eraseDisplay_eq (h : T.Inv) (hstyle : T.state.currentStyle = {}) :
    T.csiEraseDisplay 2 =
      some (T.onGrid (·.replaceVisible (List.replicate T.grid.rows (.filled T.grid.cols {})))) := by
  have hblank : T.blankCell = some ({}, T) := by
    rw [blankCell, hstyle]
    rfl
  have hfill : fill 0 (T.grid.rows - 0) (Row.filled T.grid.cols {}) T.grid.visibleRows =
      List.replicate T.grid.rows (.filled T.grid.cols {}) := by
    rw [fill, List.drop_eq_nil_of_le (by rw [h.shape.visible_length]; omega)]
    simp
  rw [csiEraseDisplay, hblank]
  simp only [Option.bind_eq_bind, Option.bind_some]
  rw [h.shape.eraseRows (Nat.zero_le _) (Nat.le_refl _), hfill]
  rfl

theorem process_clear (h : T.Inv) :
    T.process W (.decSet 2026 :: .decReset 25 :: clearEvents true) = some T.wiped := by
  let T₁ : Screen := { T.onGrid (·.setCursorVisible false) with state := { T.state with currentStyle := {} } }
  have h₁ : T₁.Inv := (Effect.visible (s := { T with state := { T.state with currentStyle := {} } }) false).inv
    (h.aux ⟨rfl, rfl, rfl, rfl, rfl, List.prefix_rfl, id⟩)
  have hlen := List.length_replicate (n := T.grid.rows) (a := Row.filled T.grid.cols {})
  have h₂ : (T₁.onGrid (·.replaceVisible (List.replicate T.grid.rows (.filled T.grid.cols {})))).Inv := by
    have hrun : T₁.process W [.csi [[2]] [] 'J'] = _ := (process_one ..).trans (eraseDisplay_eq h₁ rfl)
    exact steps_inv (process_steps W h₁ hrun) h₁
  have hhead : T.process W [.decSet 2026, .decReset 25, .sgrReset] = some T₁ := rfl
  have hclear : T₁.step W (.csi [[2]] [] 'J') =
      some (T₁.onGrid (·.replaceVisible (List.replicate T.grid.rows (.filled T.grid.cols {})))) := eraseDisplay_eq h₁ rfl
  have hhome := step_cup W h₂ h₂.shape.cols_pos h₂.shape.rows_pos
  rw [show Event.decSet 2026 :: .decReset 25 :: clearEvents true =
    [.decSet 2026, .decReset 25, .sgrReset] ++ [.csi [[2]] [] 'J', .csi [[0]] [] 'H'] from rfl, process_append, hhead,
    Option.bind_some, process_cons, hclear, Option.bind_some, process_one]
  exact hhome

theorem wiped_inv (h : T.Inv) : T.wiped.Inv := by
  have hrun := process_clear (W := .sample) h
  exact steps_inv (process_steps .sample h hrun) h

theorem wiped_visible (h : T.Inv) : T.wiped.grid.visibleRows = List.replicate T.grid.rows (.filled T.grid.cols {}) :=
  h.shape.visible_replaceVisible List.length_replicate

theorem wiped_kept (h : T.Inv) : T.Kept T.wiped :=
  ⟨rfl, rfl, h.shape.scrollback_replaceVisible _, rfl, rfl, rfl, .refl _ _, fun ht => ht⟩

theorem wiped_blank (h : T.Inv) {r : Nat} (hr : r < T.grid.rows) : T.wiped.BlankRow r := by
  have hget : T.wiped.grid.visibleRows[r]? = some (.filled T.grid.cols {}) := by
    rw [wiped_visible h, List.getElem?_replicate, if_pos hr]
  exact ⟨_, (wiped_inv h).shape.hasRow_of_getElem? hget, rfl⟩

/-- A cleared terminal shows the palette with what is in its scrollback. -/
theorem wiped_fits (h : T.Inv) (hfits : T.grid.styleTable.Room P ∨ T.grid.styleTable.Tidy ∧ (P.erase {}).card ≤ 65535 ∧
      ∀ id, 0 < id → usesStyle (T.grid.scrollbackRows ++ SavedGrid.rows T.state.savedGrid) id = true →
        T.grid.styleTable.get id ∈ P) : T.wiped.Fits P := by
  refine hfits.imp_right fun ⟨htidy, hP, hused⟩ => ⟨htidy, hP, fun id hpos hid => hused id hpos ?_⟩
  obtain ⟨row, hrow, c, hc, rfl⟩ := usesStyle_iff.1 hid
  refine usesStyle_iff.2 ⟨row, ?_, c, hc, rfl⟩
  rw [allRows, (wiped_inv h).shape.cells_eq, wiped_visible h, (wiped_kept h).scrollback, List.mem_append,
    List.mem_append] at hrow
  rcases hrow with (hrow | hrow) | hrow
  · exact List.mem_append_left _ hrow
  · rw [(List.mem_replicate.1 hrow).2] at hc
    rw [(List.mem_replicate.1 hc).2] at hpos
    exact absurd hpos (Nat.lt_irrefl 0)
  · exact List.mem_append_right _ hrow

theorem wiped_sheet (h : T.Inv) (hfits : T.wiped.Fits P) : T.wiped.Sheet P where
  inv := wiped_inv h
  fits := hfits
  style := rfl
  paired := fun row hrow => by
    rw [wiped_visible h] at hrow
    rw [(List.mem_replicate.1 hrow).2]
    exact .replicate (single_blank 0) _

section

variable {H : Type} [DecidableEq H] (R : RowHash H) {g : Grid}

/-- A full frame's events after its scrollback, whatever is in the cache. -/
def fullFrame (g : Grid) (title : List UInt8) : List Event :=
  .decSet 2026 :: .decReset 25 :: clearEvents true ++
    (renderRows R g.styleTable true 0 g.visibleRows (({} : RenderCache H).hashesFor R g.visibleRowCount)).1 ++
    (renderModesTitleCursor g title true ({} : RenderCache H)).1 ++
    (if g.cursorVisible then [.decSet 25] else []) ++ [.decReset 2026]

theorem renderScreenImpl_full (g : Grid) (title : List UInt8) (scrollback : List (List Event)) (cache : RenderCache H) :
    (renderScreenImpl R g title scrollback true cache).1 =
      (if scrollback ≠ [] then renderScrollback g scrollback else []) ++ fullFrame R g title := by
  have hbody (c : RenderCache H) : (renderBody R g title true c).1 = clearEvents true ++
      (renderRows R g.styleTable true 0 g.visibleRows (({} : RenderCache H).hashesFor R g.visibleRowCount)).1 ++
      (renderModesTitleCursor g title true ({} : RenderCache H)).1 := rfl
  unfold renderScreenImpl
  dsimp only
  rw [Bool.true_or, hbody, if_neg fun h => by simp [clearEvents] at h, fullFrame]
  simp

/-- The end of a full frame: the region, the modes, and the cursor where the
terminal addresses it then. -/
structure Closes (T : Screen) (g : Grid) (T' : Screen) : Prop extends T.Kept T' where
  inv : T'.Inv
  visible : T'.grid.visibleRows = T.grid.visibleRows
  table : T'.grid.styleTable = T.grid.styleTable
  modes : T'.grid.modes = g.modes
  top : T'.grid.scrollTop = g.scrollTop
  bottom : T'.grid.scrollBottom = g.scrollBottom
  cursorX : T'.grid.cursorX = g.cursorX
  cursorY : T'.grid.cursorY = T'.addressed g.cursorY

/-- DECOM moves the cursor at most. -/
theorem homed_eq (T : Screen) (home : Bool) :
    ∃ x y w, T.homed home = T.onGrid fun g => ((g.setCursorX x).setCursorY y).setWrapPending w := by
  cases home with
  | false => exact ⟨T.grid.cursorX, T.grid.cursorY, T.grid.wrapPending, rfl⟩
  | true => exact ⟨0, T.grid.scrollTop, false, rfl⟩

/-- The terminal with the region, the modes and the cursor of the grid, the
cursor in row `y`. -/
def closed (T : Screen) (g : Grid) (y : Nat) : Screen :=
  { T with grid := { T.grid with
      cursorX := g.cursorX, cursorY := y, wrapPending := false, scrollTop := g.scrollTop, scrollBottom := g.scrollBottom,
      modes := g.modes } }

theorem Matches.process (h : T.Matches g) {es : List Event} (hrun : T.process W es = some T') : T'.Matches g :=
  h.steps (not_not.2 rfl) (process_steps W h.inv hrun)

omit [DecidableEq H] in
theorem process_close (h : T.Matches g) (hg : g.Shape) (title : List UInt8) :
    ∃ T', T.process W ((renderModesTitleCursor g title true ({} : RenderCache H)).1 ++
        (if g.cursorVisible then [.decSet 25] else []) ++ [.decReset 2026]) = some T' ∧ T.Closes g T' := by
  obtain ⟨T₁, hregion, hT₁⟩ : ∃ T₁, T.process W [.csi [[g.scrollTop + 1], [g.scrollBottom + 1]] [] 'r'] = some T₁ ∧ _ :=
    ⟨_, (process_one ..).trans (step_region W h hg), rfl⟩
  have h₁ := h.process hregion
  obtain ⟨x, y, w, hhomed⟩ := T₁.homed_eq g.modes.originMode
  obtain ⟨T₂, hmodes, hT₂⟩ : ∃ T₂, T₁.process W (emitMode g.modes) = some T₂ ∧
      T₂ = (T₁.onGrid fun g => ((g.setCursorX x).setCursorY y).setWrapPending w).setModes fun _ => g.modes :=
    ⟨_, (process_emitMode W T₁ g.modes).trans (by rw [hhomed]), rfl⟩
  have h₂ := h₁.process hmodes
  obtain ⟨T₃, hcup, hT₃⟩ : ∃ T₃, T₂.process W [.cup (g.cursorY + 1) (g.cursorX + 1)] = some T₃ ∧
      T₃ = T₂.cursorAt g.cursorX (T₂.addressed g.cursorY) :=
    ⟨_, (process_one ..).trans (step_cup W h₂.inv (h₂.cols ▸ hg.cursor_x) (h₂.rows ▸ hg.cursor_y)), rfl⟩
  have h₃ := h₂.process hcup
  have hclosed : T₃ = T.closed g (T₂.addressed g.cursorY) := by
    simp only [hT₃, cursorAt, onGrid, Grid.setCursorX, Grid.setCursorY, Grid.setWrapPending, closed]
    simp only [hT₂, ← hT₁, setModes, onGrid, Grid.setCursorX, Grid.setCursorY, Grid.setWrapPending, Grid.setModes,
      Grid.setScrollRegion]
  obtain ⟨st, htitle, haux⟩ := step_title W T₃ title
  obtain ⟨v, hshow⟩ : ∃ v, ({ T₃ with state := st } : Screen).process W
      ((if g.cursorVisible then [.decSet 25] else []) ++ [.decReset 2026]) =
        some (({ T₃ with state := st } : Screen).onGrid (·.setCursorVisible v)) := by
    cases g.cursorVisible with
    | true => exact ⟨true, rfl⟩
    | false => exact ⟨T₃.grid.cursorVisible, rfl⟩
  have hinv := (Effect.visible v).inv (h₃.inv.aux haux)
  refine ⟨({ T₃ with state := st } : Screen).onGrid (·.setCursorVisible v), ?_, ?_⟩
  · change T.process W ([.csi [[g.scrollTop + 1], [g.scrollBottom + 1]] [] 'r'] ++ emitMode g.modes ++
      [.cup (g.cursorY + 1) (g.cursorX + 1)] ++ [titleEvent title] ++ _ ++ _) = _
    rw [List.append_assoc, process_append, process_append, process_append, process_append, hregion, Option.bind_some, hmodes,
      Option.bind_some, hcup, Option.bind_some, process_one, htitle, Option.bind_some]
    exact hshow
  · have haddr : (T.closed g (T₂.addressed g.cursorY)).addressed g.cursorY = T₂.addressed g.cursorY := by
      simp only [closed, addressed, hT₂, ← hT₁, setModes, onGrid, Grid.setCursorX, Grid.setCursorY, Grid.setWrapPending,
        Grid.setModes, Grid.setScrollRegion]
    subst hclosed
    exact
      { cols := rfl, rows := rfl, scrollback := rfl, limit := rfl, alt := haux.inAltScreen, saved := haux.savedGrid
        styles := .refl _ _, tidy := fun ht => ht, inv := hinv, visible := rfl, table := rfl, modes := rfl
        top := rfl, bottom := rfl, cursorX := rfl, cursorY := haddr.symm }

/-- The terminal after a full frame. -/
structure Redrawn (T : Screen) (g : Grid) (T' : Screen) : Prop extends T.Kept T' where
  inv : T'.Inv
  modes : T'.grid.modes = g.modes
  top : T'.grid.scrollTop = g.scrollTop
  bottom : T'.grid.scrollBottom = g.scrollBottom
  cursorX : T'.grid.cursorX = g.cursorX
  cursorY : T'.grid.cursorY = T'.addressed g.cursorY
  none : ∀ r, r < g.rows → (∀ i, ¬ T.Hits g.visibleRows 0 i r) → T'.viewRow r = some (List.replicate g.cols blankShown)
  one : ∀ r i row, g.visibleRows[i]? = some row → T.Hits g.visibleRows 0 i r →
    (∀ j, T.Hits g.visibleRows 0 j r → j = i) → T'.viewRow r = some (row.cells.map (T.seen g.styleTable))

theorem process_frame_exact (h : T.Matches g) (hg : g.Shape) (htable : g.styleTable.Wf) (hfits : T.wiped.Fits P)
    (hrows : ∀ row ∈ g.visibleRows, T.Paintable W P g.styleTable row) (title : List UInt8) :
    ∃ T', T.process W (fullFrame R g title) = some T' ∧ T.Redrawn g T' := by
  have hkept := wiped_kept h.inv
  have hmodes : T.SameModes T.wiped := ⟨rfl, rfl, rfl⟩
  have hvis := Viewed.visibleRowCount_eq hg
  obtain ⟨T₁, hrun₁, hT₁, hkept₁, hmodes₁, hover⟩ := (wiped_sheet h.inv hfits).paint_rows R (y := 0)
    (show g.visibleRows.length = (({} : RenderCache H).hashesFor R g.visibleRowCount).length by
      rw [Viewed.hashesFor_length, hvis])
    (by rw [hg.visible_length, Nat.zero_add]; exact Nat.le_of_eq h.rows.symm)
    (fun row hr => (hrows row hr).along hkept hmodes) htable.get_zero
  have hmatch : T₁.Matches g := ⟨hT₁.inv, hkept₁.cols.trans h.cols, hkept₁.rows.trans h.rows⟩
  obtain ⟨T₂, hrun₂, hclose⟩ := process_close (W := W) (H := H) hmatch hg title
  have hview (r : Nat) : T₂.viewRow r = T₁.viewRow r := by rw [viewRow, viewRow, hclose.visible, hclose.table]
  have hblank {r : Nat} (hr : r < g.rows) : T.wiped.BlankRow r := wiped_blank h.inv (h.rows.symm ▸ hr)
  have hhits {i r : Nat} : T.wiped.Hits g.visibleRows 0 i r ↔ T.Hits g.visibleRows 0 i r := by
    simp only [Hits, hmodes.addressed]
  refine ⟨T₂, ?_, ?_⟩
  · rw [fullFrame, List.append_assoc, List.append_assoc, List.append_assoc, process_append, process_clear h.inv,
      Option.bind_some, process_append, hrun₁, Option.bind_some, ← List.append_assoc]
    exact hrun₂
  · exact
      { toKept := (hkept.trans hkept₁).trans hclose.toKept
        inv := hclose.inv, modes := hclose.modes, top := hclose.top, bottom := hclose.bottom
        cursorX := hclose.cursorX, cursorY := hclose.cursorY
        none := fun r hr hnone => by
          rw [hview, ((hover r).none fun i hi => hnone i (hhits.1 hi)).2, viewRow, wiped_visible h.inv, List.getElem?_replicate,
            if_pos (h.rows.symm ▸ hr), Option.map_some, Row.filled, List.map_replicate, h.cols, Cell.shown,
            (wiped_inv h.inv).table.get_zero, blankShown]
        one := fun r i row hrow hhit honly => by
          have hr : r < g.rows := by
            obtain ⟨row', hrow', -, rfl⟩ := hhit
            rw [Nat.zero_add]
            have hi := (List.getElem?_eq_some_iff.1 hrow').1
            rw [hg.visible_length] at hi
            exact h.rows ▸ addressed_lt h.inv (h.rows.symm ▸ hi)
          rw [hview, (hover r).one i row hrow (hhits.2 hhit) (fun j hj => honly j (hhits.1 hj)) (hblank hr), hmodes.seen,
            hkept.cols, h.cols, hg.row_len row (List.mem_of_getElem? hrow), Nat.sub_self, List.replicate_zero, List.append_nil] }

end

end Screen

end Retach
