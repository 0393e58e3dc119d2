import Mathlib.Data.Finset.Max
import Retach.Repaint
/-!
# Full redraws

A full frame shows a grid on a terminal that addresses each row with content
where it is, and prints each character as it is. On a terminal fresh or last
left in the modes of an older screen these are conditions on those modes.
-/

open Checked

/-- A monotone map of a finite set onto itself moves nothing. -/
theorem Monotone.eq_of_subset_image {α : Type} [LinearOrder α] {f : α → α} (hf : Monotone f) {s : Finset α}
    (h : s ⊆ s.image f) {a : α} (ha : a ∈ s) : f a = a := by
  have himage : s = s.image f := Finset.eq_of_subset_of_card_le h Finset.card_image_le
  have hinj : Set.InjOn f s := Finset.injOn_of_card_image_eq (congrArg Finset.card himage.symm)
  by_contra hne
  have hmoved : (s.filter fun a => f a ≠ a).Nonempty := ⟨a, Finset.mem_filter.2 ⟨ha, hne⟩⟩
  obtain ⟨hb, hfb⟩ := Finset.mem_filter.1 (Finset.min'_mem _ hmoved)
  generalize hmin : (s.filter fun a => f a ≠ a).min' hmoved = b at hb hfb
  have hleast {c : α} (hc : c ∈ s) (hlt : c < b) : f c = c := by
    by_contra hfc
    exact absurd (Finset.min'_le _ c (Finset.mem_filter.2 ⟨hc, hfc⟩)) (hmin ▸ not_le_of_gt hlt)
  rcases lt_or_gt_of_ne hfb with hlt | hgt
  · have hmem : f b ∈ s := himage ▸ Finset.mem_image_of_mem f hb
    exact hfb (hinj hmem hb (hleast hmem hlt))
  · obtain ⟨c, hc, hcb⟩ := Finset.mem_image.1 (h hb)
    rcases lt_trichotomy c b with hlt | rfl | hcgt
    · exact absurd ((hleast hc hlt).symm.trans hcb) (ne_of_lt hlt)
    · exact hfb hcb
    · refine absurd (hf (le_of_lt hcgt)) ?_
      rw [hcb]
      exact not_le_of_gt hgt

namespace Retach

/-! ## The styles of a grid -/

namespace Grid

/-- The styles of the visible cells. -/
def palette (g : Grid) : Finset Style :=
  (g.visibleRows.flatMap fun row => row.cells.map fun c => g.styleTable.get c.styleId).toFinset

theorem mem_palette {g : Grid} {row : Row} (hrow : row ∈ g.visibleRows) {c : Cell} (hc : c ∈ row.cells) :
    g.styleTable.get c.styleId ∈ g.palette := by
  rw [palette, List.mem_toFinset, List.mem_flatMap]
  exact ⟨row, hrow, List.mem_map_of_mem hc⟩

/-- The slots of one table have at most 65535 styles next to the default. -/
theorem palette_card {g : Grid} (h : g.styleTable.Wf) : (g.palette.erase {}).card ≤ 65535 := by
  have hsub : g.palette.erase {} ⊆ ((Finset.range g.styleTable.styles.length).erase 0).image g.styleTable.get := by
    intro style hstyle
    obtain ⟨hne, hmem⟩ := Finset.mem_erase.1 hstyle
    rw [palette, List.mem_toFinset, List.mem_flatMap] at hmem
    obtain ⟨row, -, hmem⟩ := hmem
    obtain ⟨c, -, rfl⟩ := List.mem_map.1 hmem
    refine Finset.mem_image.2 ⟨c.styleId, Finset.mem_erase.2 ⟨?_, Finset.mem_range.2 ?_⟩, rfl⟩
    · intro h0
      rw [h0, h.get_zero] at hne
      exact hne rfl
    · by_contra hout
      rw [StyleTable.get, List.getD_eq_getElem?_getD, List.getElem?_eq_none (Nat.le_of_not_lt hout)] at hne
      exact hne rfl
  have hcard := (Finset.card_le_card hsub).trans Finset.card_image_le
  rw [Finset.card_erase_of_mem (Finset.mem_range.2 h.zero_lt), Finset.card_range] at hcard
  have := h.size_le
  omega

end Grid

/-! ## What a terminal has to do -/

/-- The line drawing set has characters of one column only. -/
def UnicodeWidth.DrawsLines (W : UnicodeWidth) : Prop := ∀ c, Screen.lineDrawing c ≠ c → W.width (Screen.lineDrawing c) = some 1

namespace Screen

variable {W : UnicodeWidth} {P : Finset Style} {T T' : Screen} {g : Grid}

/-- The terminal addresses the rows with content where they are. -/
def Places (T : Screen) (g : Grid) : Prop :=
  ∀ y row, g.visibleRows[y]? = some row → writeLen row.cells ≠ 0 → T.addressed y = y

/-- The terminal prints the characters as they are. -/
def Spells (T : Screen) (g : Grid) : Prop := ∀ row ∈ g.visibleRows, ∀ c ∈ row.cells, T.mapCharset c.c = c.c

instance (T : Screen) (g : Grid) : Decidable (T.Spells g) :=
  inferInstanceAs (Decidable (∀ row ∈ g.visibleRows, ∀ c ∈ row.cells, T.mapCharset c.c = c.c))

theorem lineDrawing_ascii {c : Char} (h : lineDrawing c ≠ c) : 0x20 ≤ c.toNat ∧ c.toNat < 0x7f := by
  unfold lineDrawing at h
  split at h
  case h_14 => exact absurd rfl h
  all_goals decide

theorem mapCharset_width (hline : W.DrawsLines) (T : Screen) {c : Char} (hc : T.mapCharset c ≠ c) :
    W.width c = some 1 ∧ W.width (T.mapCharset c) = some 1 := by
  unfold mapCharset at hc ⊢
  split at hc
  · obtain ⟨hlo, hhi⟩ := lineDrawing_ascii hc
    exact ⟨W.width_ascii c hlo hhi, hline c hc⟩
  · exact absurd rfl hc

end Screen

theorem Row.WellFormed.reads {W : UnicodeWidth} {T : Screen} {row : Row} (h : row.WellFormed W)
    (hline : W.DrawsLines ∨ ∀ c, T.mapCharset c = c) : T.Reads W row := by
  have hwidth (c : Char) : W.charWidth (T.mapCharset c) = W.charWidth c := by
    by_cases hc : T.mapCharset c = c
    · rw [hc]
    · obtain ⟨hold, hnew⟩ := Screen.mapCharset_width (hline.resolve_right fun hall => hc (hall c)) T hc
      rw [UnicodeWidth.charWidth, UnicodeWidth.charWidth, hold, hnew]
  refine ⟨fun c _ => hwidth c.c, ?_⟩
  intro x m hm
  rw [hwidth, UnicodeWidth.charWidth, h.marks x m hm, Option.getD_some]

theorem Laid.blank_shown {W : UnicodeWidth} {t : StyleTable} (ht : t.Wf) {x : Nat} {cells : List Cell} (h : Laid W x cells)
    (hl : writeLen cells = 0) : cells.map (Cell.shown t) = List.replicate cells.length blankShown := by
  have hzero : Cell.shown t {} = blankShown := by rw [Cell.shown, ht.get_zero, blankShown]
  conv => lhs; rw [h.blank hl, List.map_replicate, hzero]

/-- A row without wide characters and marks. -/
theorem Row.WellFormed.of_single {W : UnicodeWidth} {row : Row}
    (h : ∀ c ∈ row.cells, c.width = W.charWidth c.c ∧ c.width ≠ 0 ∧ c.width ≠ 2) (hmarks : row.combining = []) :
    row.WellFormed W where
  paired := .of_singles fun c hc => (h c hc).2
  joined := fun i b c hb _ hw => absurd hw (h b (List.mem_of_getElem? hb)).2.2
  widths := fun c hc => (h c hc).1
  marks := fun x m hm => by
    obtain ⟨e, he, -⟩ := Row.mem_marks hm
    rw [hmarks] at he
    cases he

namespace Screen

variable {W : UnicodeWidth} {P : Finset Style} {T T' : Screen} {g : Grid}

theorem Matches.paintable (h : T.Matches g) (hg : g.Shape) {row : Row} (hrow : row ∈ g.visibleRows)
    (hwell : row.WellFormed W) (hbroad : BroadLast row.cells) (hline : W.DrawsLines ∨ ∀ c, T.mapCharset c = c) :
    T.Paintable W g.palette g.styleTable row where
  laid := hwell.laid hbroad
  reads := hwell.reads hline
  styles := fun _ hc => Grid.mem_palette hrow hc
  fits := Nat.le_of_eq ((hg.row_len row hrow).trans h.cols.symm)

/-! ## When a frame shows the grid -/

theorem writeLen_shown {t : StyleTable} (ht : t.Wf) {cells : List Cell} (hids : ∀ c ∈ cells, c.styleId < t.styles.length)
    {n : Nat} (h : cells.map (Cell.shown t) = List.replicate n blankShown) : writeLen cells = 0 := by
  apply writeLen_eq_zero.2
  intro c hc
  have hblank := List.mem_map_of_mem (f := Cell.shown t) hc
  rw [h] at hblank
  obtain ⟨hchar, -, hstyle⟩ : c.c = ' ' ∧ c.width = 1 ∧ t.get c.styleId = {} := by
    simpa [Cell.shown, blankShown] using (List.mem_replicate.1 hblank).2
  exact Cell.hasContent_eq_false.2 ⟨.inl hchar, ht.get_eq_default (hids c hc) hstyle⟩

theorem addressed_monotone (T : Screen) : Monotone T.addressed := by
  intro y y' hle
  unfold addressed
  split <;> omega

namespace Redrawn

theorem blank_of_not_hit (h : T.Redrawn g T') (hg : g.Shape) {y : Nat} {row : Row} (hrow : g.visibleRows[y]? = some row)
    (hnone : ∀ i, ¬ T.Hits g.visibleRows 0 i y) : T'.viewRow y = some (List.replicate g.cols blankShown) := by
  refine h.none y ?_ hnone
  rw [← hg.visible_length]
  exact (List.getElem?_eq_some_iff.1 hrow).1

/-- A row painted on in its own place shows what the terminal makes of it. -/
theorem own (h : T.Redrawn g T') (hp : T.Places g) {y : Nat} {row : Row} (hrow : g.visibleRows[y]? = some row)
    (hcontent : writeLen row.cells ≠ 0) : T'.viewRow y = some (row.cells.map (T.seen g.styleTable)) := by
  refine h.one y y row hrow ⟨row, hrow, hcontent, ?_⟩ fun j hj => ?_
  · rw [Nat.zero_add]
    exact hp y row hrow hcontent
  · obtain ⟨row', hrow', hcontent', hj⟩ := hj
    rwa [Nat.zero_add, hp j row' hrow' hcontent'] at hj

theorem view_eq (h : T.Redrawn g T') (hmatch : T.Matches g) (hg : g.Shape) (ht : g.styleTable.Wf)
    (hlaid : ∀ row ∈ g.visibleRows, Laid W 0 row.cells) (hp : T.Places g) (hs : T.Spells g) : T'.grid.view = g.view := by
  apply List.ext_getElem?
  intro y
  rw [view_getElem?, Grid.view, List.getElem?_map]
  cases hrow : g.visibleRows[y]? with
  | none =>
    have hlen : T'.grid.visibleRows.length = g.visibleRows.length := by
      rw [h.inv.shape.visible_length, hg.visible_length, h.rows, hmatch.rows]
    rw [List.getElem?_eq_none_iff, ← hlen, ← List.getElem?_eq_none_iff] at hrow
    rw [viewRow, hrow, Option.map_none, Option.map_none]
  | some row =>
    have hmem := List.mem_of_getElem? hrow
    by_cases hcontent : writeLen row.cells = 0
    · rw [h.blank_of_not_hit hg hrow, Option.map_some, (hlaid row hmem).blank_shown ht hcontent, hg.row_len row hmem]
      rintro i ⟨row', hrow', hcontent', hi⟩
      rw [Nat.zero_add, hp i row' hrow' hcontent'] at hi
      rw [hi, hrow, Option.some.injEq] at hrow'
      exact hcontent' (hrow' ▸ hcontent)
    · rw [h.own hp hrow hcontent, Option.map_some, Option.some.injEq]
      apply List.map_congr_left
      intro c hc
      rw [seen, Cell.shown, hs row hmem c hc]

/-- Nothing else makes a frame show the grid: the rows with content are painted
where rows with content are shown, so each is painted in its own place. -/
theorem view_iff (h : T.Redrawn g T') (hmatch : T.Matches g) (hg : g.Shape) (ht : g.styleTable.Wf)
    (hlaid : ∀ row ∈ g.visibleRows, Laid W 0 row.cells)
    (hids : ∀ row ∈ g.visibleRows, ∀ c ∈ row.cells, c.styleId < g.styleTable.styles.length) :
    T'.grid.view = g.view ↔ T.Places g ∧ T.Spells g := by
  refine ⟨fun hview => ?_, fun ⟨hp, hs⟩ => h.view_eq hmatch hg ht hlaid hp hs⟩
  have hsame {y : Nat} {row : Row} (hrow : g.visibleRows[y]? = some row) :
      T'.viewRow y = some (row.cells.map (Cell.shown g.styleTable)) := by
    rw [← view_getElem?, hview, Grid.view, List.getElem?_map, hrow, Option.map_some]
  classical
  let content := (Finset.range g.rows).filter fun y => ∃ row, g.visibleRows[y]? = some row ∧ writeLen row.cells ≠ 0
  have hmem {y : Nat} {row : Row} (hrow : g.visibleRows[y]? = some row) (hcontent : writeLen row.cells ≠ 0) : y ∈ content := by
    refine Finset.mem_filter.2 ⟨Finset.mem_range.2 ?_, row, hrow, hcontent⟩
    rw [← hg.visible_length]
    exact (List.getElem?_eq_some_iff.1 hrow).1
  have hsub : content ⊆ content.image T.addressed := by
    intro y hy
    obtain ⟨-, row, hrow, hcontent⟩ := Finset.mem_filter.1 hy
    obtain ⟨i, row', hrow', hcontent', hi⟩ : ∃ i, T.Hits g.visibleRows 0 i y := by
      by_contra hnone
      have hblank := (hsame hrow).symm.trans (h.blank_of_not_hit hg hrow (not_exists.1 hnone))
      exact hcontent (writeLen_shown ht (hids row (List.mem_of_getElem? hrow)) (Option.some.inj hblank))
    rw [Nat.zero_add] at hi
    exact Finset.mem_image.2 ⟨i, hmem hrow' hcontent', hi⟩
  have hp : T.Places g := fun y row hrow hcontent => T.addressed_monotone.eq_of_subset_image hsub (hmem hrow hcontent)
  refine ⟨hp, ?_⟩
  intro row hrow c hc
  by_cases hcontent : writeLen row.cells = 0
  · rcases (Cell.hasContent_eq_false.1 (writeLen_eq_zero.1 hcontent c hc)).1 with hchar | hchar <;> rw [hchar]
    · exact T.mapCharset_blank.1
    · exact T.mapCharset_blank.2
  · obtain ⟨y, hy, rfl⟩ := List.getElem_of_mem hrow
    have hrow' := List.getElem?_eq_getElem hy
    have hcells := (h.own hp hrow' hcontent).symm.trans (hsame hrow')
    exact congrArg Prod.fst (List.map_inj_left.1 (Option.some.inj hcells) c hc)

end Redrawn

/-! ## Terminals that frames are painted on -/

/-- A terminal that nothing but frames has been written to: it has no rows but
the visible ones, and one slot for each style. -/
structure Pristine (T : Screen) : Prop where
  inv : T.Inv
  tidy : T.grid.styleTable.Tidy
  scrollback : T.grid.scrollbackRows = []
  saved : T.state.savedGrid = none

theorem new_pristine {cols rows : Nat} (limit : Nat) (hcols : cols ≤ 65535) (hrows : rows ≤ 65535) :
    (Screen.new cols rows limit).Pristine := ⟨new_inv limit hcols hrows, StyleTable.tidy_new, rfl, rfl⟩

/-- Its table has room for the styles of any grid. -/
theorem Pristine.fits (h : T.Pristine) (ht : g.styleTable.Wf) : T.wiped.Fits g.palette := by
  refine wiped_fits h.inv (.inr ⟨h.tidy, g.palette_card ht, fun id _ hid => ?_⟩)
  rw [h.scrollback, h.saved] at hid
  cases hid

theorem Redrawn.pristine (h : T.Redrawn g T') (hT : T.Pristine) : T'.Pristine :=
  ⟨h.inv, h.tidy hT.tidy, h.scrollback.trans hT.scrollback, h.saved.trans hT.saved⟩

section

variable {H : Type} [DecidableEq H] (R : RowHash H)

/-- A full frame on a terminal of the size of the grid. -/
theorem Pristine.process_render (hT : T.Pristine) (hmatch : T.Matches g) (hg : g.Shape) (ht : g.styleTable.Wf)
    (hwell : ∀ row ∈ g.visibleRows, row.WellFormed W) (hbroad : ∀ row ∈ g.visibleRows, BroadLast row.cells)
    (hline : W.DrawsLines ∨ ∀ c, T.mapCharset c = c) (title : List UInt8) (cache : RenderCache H) :
    ∃ T', T.process W (renderScreenImpl R g title [] true cache).1 = some T' ∧ T.Redrawn g T' := by
  obtain ⟨T', hrun, h⟩ := process_frame_exact R hmatch hg ht (hT.fits ht)
    (fun row hrow => hmatch.paintable hg hrow (hwell row hrow) (hbroad row hrow) hline) title
  refine ⟨T', ?_, h⟩
  rw [renderScreenImpl_full, if_neg (not_not_intro rfl), List.nil_append]
  exact hrun

theorem new_matches (hg : g.Shape) (limit : Nat) : (Screen.new g.cols g.rows limit).Matches g :=
  ⟨new_inv limit hg.cols_le hg.rows_le, Nat.max_eq_left hg.cols_pos, Nat.max_eq_left hg.rows_pos⟩

/-! ## One frame -/

/-- A fresh terminal shows the grid after one frame. -/
theorem frame_shows (hg : g.Shape) (ht : g.styleTable.Wf) (hwell : ∀ row ∈ g.visibleRows, row.WellFormed W)
    (hbroad : ∀ row ∈ g.visibleRows, BroadLast row.cells) (limit : Nat) (title : List UInt8) :
    ∃ T, (Screen.new g.cols g.rows limit).process W (renderScreenImpl R g title [] true {}).1 = some T ∧
      T.grid.view = g.view := by
  obtain ⟨T, hrun, h⟩ := (new_pristine limit hg.cols_le hg.rows_le).process_render R (new_matches hg limit) hg ht hwell hbroad
    (.inr fun _ => rfl) title {}
  exact ⟨T, hrun, h.view_eq (new_matches hg limit) hg ht (fun row hrow => (hwell row hrow).laid (hbroad row hrow))
    (fun _ _ _ _ => rfl) fun _ _ _ _ => rfl⟩

end

/-- A grid of one row. -/
def ofRow (row : Row) : Grid := { Grid.new row.cells.length 1 0 with cells := [row] }

theorem ofRow_shape {row : Row} (hpos : 0 < row.cells.length) (hle : row.cells.length ≤ 65535) : (ofRow row).Shape := by
  have hnew : (Grid.new row.cells.length 1 0).Shape := (new_inv 0 hle (by decide)).shape
  refine { hnew with cells_len := rfl, row_len := fun r hr => ?_ }
  obtain rfl := List.mem_singleton.1 hr
  exact (Nat.max_eq_left hpos).symm

/-- `e` with an accent, a wide character and a blank. -/
def markedRow : Row where
  cells := [{ c := 'e' }, { c := '世', width := 2 }, { c := '\x00', width := 0 }, {}]
  combining := [(0, ['\u0301'])]

theorem markedRow_wellFormed : markedRow.WellFormed .sample where
  paired := .single ⟨by decide, by decide⟩ (.pair rfl rfl (.single ⟨by decide, by decide⟩ .nil))
  joined := by decide
  widths := by decide
  marks := fun x m hm => by
    obtain ⟨e, he, hm⟩ := Row.mem_marks hm
    obtain rfl := List.mem_singleton.1 he
    obtain rfl := List.mem_singleton.1 hm
    rfl

theorem frame_shows_sample : ∃ T, (Screen.new (ofRow markedRow).cols (ofRow markedRow).rows 0).process .sample
    (renderScreenImpl Viewed.rowHash (ofRow markedRow) [] [] true {}).1 = some T ∧ T.grid.view = (ofRow markedRow).view :=
  frame_shows Viewed.rowHash (ofRow_shape (by decide) (by decide)) StyleTable.wf_new
    (fun row hrow => List.mem_singleton.1 hrow ▸ markedRow_wellFormed)
    (fun row hrow => List.mem_singleton.1 hrow ▸ by decide) 0 []

/-- U+17D8 and `a` printed on six columns: `a` is in the fourth. -/
def broadRow : Row where
  cells := [{ c := '\u17d8', width := 3 }, {}, {}, { c := 'a' }, {}, {}]

theorem broadRow_wellFormed : broadRow.WellFormed .sample := .of_single (by decide) rfl

/-- On the terminal the two blanks after U+17D8 move `a` on to the sixth column. -/
theorem frame_shifts : (ofRow broadRow).Shape ∧ (ofRow broadRow).styleTable.Wf ∧
    (∀ row ∈ (ofRow broadRow).visibleRows, row.WellFormed .sample) ∧
    ¬ ∃ T, (Screen.new (ofRow broadRow).cols (ofRow broadRow).rows 0).process .sample
      (renderScreenImpl Viewed.rowHash (ofRow broadRow) [] [] true {}).1 = some T ∧
        T.grid.view = (ofRow broadRow).view := by
  refine ⟨ofRow_shape (by decide) (by decide), StyleTable.wf_new,
    fun row hrow => List.mem_singleton.1 hrow ▸ broadRow_wellFormed, ?_⟩
  rintro ⟨T, hrun, hview⟩
  have hshown := congrArg (Option.map fun T : Screen => T.grid.view) hrun
  rw [Option.map_some, hview] at hshown
  revert hshown
  decide

/-! ## Two frames -/

/-- CUP addresses rows by the modes and the scroll region only. -/
theorem addressed_congr {T T' : Screen} (hmodes : T.grid.modes = T'.grid.modes) (htop : T.grid.scrollTop = T'.grid.scrollTop)
    (hbottom : T.grid.scrollBottom = T'.grid.scrollBottom) : T.addressed = T'.addressed := by
  funext y
  rw [addressed, addressed, hmodes, htop, hbottom]

theorem mapCharset_congr {T T' : Screen} (hmodes : T.grid.modes = T'.grid.modes) : T.mapCharset = T'.mapCharset := by
  funext c
  rw [mapCharset, mapCharset, hmodes]

section

variable {H : Type} [DecidableEq H] (R : RowHash H) {s₁ s₂ : Screen}

/-- Two frames, the second in the modes of the first. -/
theorem Pristine.process_twice (hline : W.DrawsLines) (hT : T.Pristine) (h₁ : s₁.Inv) (h₂ : s₂.Inv)
    (hsize : s₂.grid.cols = s₁.grid.cols ∧ s₂.grid.rows = s₁.grid.rows)
    (hterm : T.grid.cols = s₁.grid.cols ∧ T.grid.rows = s₁.grid.rows)
    (hwell₁ : ∀ row ∈ s₁.grid.visibleRows, row.WellFormed W) (hwell₂ : ∀ row ∈ s₂.grid.visibleRows, row.WellFormed W)
    (hbroad₁ : ∀ row ∈ s₁.grid.visibleRows, BroadLast row.cells)
    (hbroad₂ : ∀ row ∈ s₂.grid.visibleRows, BroadLast row.cells) (cache₁ cache₂ : RenderCache H) :
    ∃ T₁ T₂, T.process W (s₁.render R true cache₁).1 = some T₁ ∧ T₁.process W (s₂.render R true cache₂).1 = some T₂ ∧
      T₁.Redrawn s₂.grid T₂ ∧ (T₂.grid.view = s₂.grid.view ↔ s₁.Places s₂.grid ∧ s₁.Spells s₂.grid) := by
  have hmatch : T.Matches s₁.grid := ⟨hT.inv, hterm.1, hterm.2⟩
  obtain ⟨T₁, hrun₁, hdrawn₁⟩ := hT.process_render R hmatch h₁.shape h₁.table hwell₁ hbroad₁ (.inl hline) s₁.state.title cache₁
  have hmatch₁ : T₁.Matches s₂.grid :=
    ⟨hdrawn₁.inv, hdrawn₁.cols.trans (hterm.1.trans hsize.1.symm), hdrawn₁.rows.trans (hterm.2.trans hsize.2.symm)⟩
  obtain ⟨T₂, hrun₂, hdrawn₂⟩ := (hdrawn₁.pristine hT).process_render R hmatch₁ h₂.shape h₂.table hwell₂ hbroad₂
    (.inl hline) s₂.state.title cache₂
  have hview := hdrawn₂.view_iff hmatch₁ h₂.shape h₂.table (fun row hrow => (hwell₂ row hrow).laid (hbroad₂ row hrow))
    fun row hrow c hc => (h₂.held_visible hrow hc).1
  have hplaces : T₁.Places s₂.grid ↔ s₁.Places s₂.grid := by
    rw [Places, Places, addressed_congr hdrawn₁.modes hdrawn₁.top hdrawn₁.bottom]
  have hspells : T₁.Spells s₂.grid ↔ s₁.Spells s₂.grid := by
    rw [Spells, Spells, mapCharset_congr hdrawn₁.modes]
  exact ⟨T₁, T₂, hrun₁, hrun₂, hdrawn₂, by rw [hview, hplaces, hspells]⟩

theorem redraw_iff (hline : W.DrawsLines) (hT : T.Pristine) (hs₁ : s₁.Reachable W) {as : List Action}
    (hsized : ∀ a ∈ as, a.Sized) (hrun : s₁.run W as = some s₂)
    (hsize : s₂.grid.cols = s₁.grid.cols ∧ s₂.grid.rows = s₁.grid.rows)
    (hterm : T.grid.cols = s₁.grid.cols ∧ T.grid.rows = s₁.grid.rows)
    (hwell₁ : ∀ row ∈ s₁.grid.visibleRows, row.WellFormed W) (hwell₂ : ∀ row ∈ s₂.grid.visibleRows, row.WellFormed W)
    (hbroad₁ : ∀ row ∈ s₁.grid.visibleRows, BroadLast row.cells)
    (hbroad₂ : ∀ row ∈ s₂.grid.visibleRows, BroadLast row.cells) (cache₁ cache₂ : RenderCache H) :
    ∃ T₁ T₂, T.process W (s₁.render R true cache₁).1 = some T₁ ∧ T₁.process W (s₂.render R true cache₂).1 = some T₂ ∧
      ((T₂.grid.view = s₂.grid.view ∧ T₂.grid.cursorX = s₂.grid.cursorX ∧ T₂.grid.cursorY = s₂.grid.cursorY) ↔
        s₁.Places s₂.grid ∧ s₁.Spells s₂.grid ∧ s₂.addressed s₂.grid.cursorY = s₂.grid.cursorY) := by
  have h₂ := hs₁.inv.run hsized hrun
  obtain ⟨T₁, T₂, hrun₁, hrun₂, hdrawn, hview⟩ :=
    hT.process_twice R hline hs₁.inv h₂ hsize hterm hwell₁ hwell₂ hbroad₁ hbroad₂ cache₁ cache₂
  refine ⟨T₁, T₂, hrun₁, hrun₂, ?_⟩
  rw [hview, hdrawn.cursorX, hdrawn.cursorY, addressed_congr hdrawn.modes hdrawn.top hdrawn.bottom]
  tauto

end

theorem sample_drawsLines : UnicodeWidth.sample.DrawsLines := by
  intro c hc
  unfold lineDrawing at hc ⊢
  split at hc
  case h_14 => exact absurd rfl hc
  all_goals decide

/-- Rows that are well formed and not broad by evaluation. -/
def Plain (row : Row) : Prop :=
  (∀ c ∈ row.cells, c.width = UnicodeWidth.sample.charWidth c.c ∧ c.width = 1) ∧ row.combining = []

instance : DecidablePred Plain := fun _ => inferInstanceAs (Decidable (_ ∧ _))

theorem Plain.wellFormed {rows : List Row} (h : ∀ row ∈ rows, Plain row) : ∀ row ∈ rows, row.WellFormed .sample :=
  fun row hrow => .of_single (fun c hc => by have := (h row hrow).1 c hc; omega) (h row hrow).2

theorem Plain.broadLast {rows : List Row} (h : ∀ row ∈ rows, Plain row) : ∀ row ∈ rows, BroadLast row.cells :=
  fun row hrow i c hc h3 => by
    have := ((h row hrow).1 c (List.mem_of_getElem? hc)).2
    omega

/-- The line drawing set is left active, and a line drawn. -/
theorem redraw_iff_sample : ∃ s₁ s₂ T₁ T₂, (Screen.new 3 2 0).run .sample [.callback (.esc ['('] '0'), .callback (.print 'q')] = some s₁ ∧
    s₁.run .sample [.callback (.print 'x')] = some s₂ ∧
    (Screen.new 3 2 0).process .sample (s₁.render Viewed.rowHash true {}).1 = some T₁ ∧
    T₁.process .sample (s₂.render Viewed.rowHash true {}).1 = some T₂ ∧
    T₂.grid.view = s₂.grid.view ∧ T₂.grid.cursorX = s₂.grid.cursorX ∧ T₂.grid.cursorY = s₂.grid.cursorY := by
  obtain ⟨s₁, s₂, hrun₁, hrun₂, hsize, hterm, hplain₁, hplain₂, horigin, hspells⟩ : ∃ s₁ s₂,
      (Screen.new 3 2 0).run .sample [.callback (.esc ['('] '0'), .callback (.print 'q')] = some s₁ ∧
      s₁.run .sample [.callback (.print 'x')] = some s₂ ∧
      (s₂.grid.cols = s₁.grid.cols ∧ s₂.grid.rows = s₁.grid.rows) ∧ (3 = s₁.grid.cols ∧ 2 = s₁.grid.rows) ∧
      (∀ row ∈ s₁.grid.visibleRows, Plain row) ∧ (∀ row ∈ s₂.grid.visibleRows, Plain row) ∧
      (s₁.grid.modes.originMode = false ∧ s₂.grid.modes.originMode = false) ∧ s₁.Spells s₂.grid :=
    ⟨_, _, rfl, rfl, by decide, by decide, by decide, by decide, by decide, by decide⟩
  obtain ⟨T₁, T₂, h₁, h₂, hiff⟩ := redraw_iff (T := .new 3 2 0) Viewed.rowHash sample_drawsLines (new_pristine 0 (by decide) (by decide))
    ⟨3, 2, 0, _, by decide, by decide, by simp [Action.Sized], hrun₁⟩ (by simp [Action.Sized]) hrun₂ hsize hterm
    (Plain.wellFormed hplain₁) (Plain.wellFormed hplain₂) (Plain.broadLast hplain₁) (Plain.broadLast hplain₂) {} {}
  refine ⟨s₁, s₂, T₁, T₂, hrun₁, hrun₂, h₁, h₂, hiff.2 ⟨fun y _ _ _ => ?_, hspells, ?_⟩⟩
  · simp [addressed, horigin.1]
  · simp [addressed, horigin.2]

/-- Origin mode with the last two of three rows, and `a` in the second: the
frame puts it in the third. -/
theorem redraw_misplaces : ∃ s₁ s₂, (Screen.new 2 3 0).process .sample [.csi [[2], [3]] [] 'r', .decSet 6] = some s₁ ∧
    s₁.process .sample [.print 'a'] = some s₂ ∧ (∀ row ∈ s₁.grid.visibleRows, row.WellFormed .sample) ∧
    (∀ row ∈ s₂.grid.visibleRows, row.WellFormed .sample) ∧
    ¬ ∃ T₁ T₂, (Screen.new 2 3 0).process .sample (s₁.render Viewed.rowHash true {}).1 = some T₁ ∧
      T₁.process .sample (s₂.render Viewed.rowHash true {}).1 = some T₂ ∧
      T₂.grid.view = s₂.grid.view ∧ T₂.grid.cursorX = s₂.grid.cursorX ∧ T₂.grid.cursorY = s₂.grid.cursorY := by
  obtain ⟨s₁, s₂, hes₁, hes₂, hsize, hterm, hplain₁, hplain₂, hmoved⟩ : ∃ s₁ s₂,
      (Screen.new 2 3 0).process .sample [.csi [[2], [3]] [] 'r', .decSet 6] = some s₁ ∧
      s₁.process .sample [.print 'a'] = some s₂ ∧
      (s₂.grid.cols = s₁.grid.cols ∧ s₂.grid.rows = s₁.grid.rows) ∧ (2 = s₁.grid.cols ∧ 3 = s₁.grid.rows) ∧
      (∀ row ∈ s₁.grid.visibleRows, Plain row) ∧ (∀ row ∈ s₂.grid.visibleRows, Plain row) ∧
      s₁.addressed 1 = 2 ∧ ∃ row, s₂.grid.visibleRows[1]? = some row ∧ writeLen row.cells ≠ 0 :=
    ⟨_, _, rfl, rfl, by decide, by decide, by decide, by decide, by decide, _, rfl, by decide⟩
  refine ⟨s₁, s₂, hes₁, hes₂, Plain.wellFormed hplain₁, Plain.wellFormed hplain₂, ?_⟩
  rintro ⟨T₁, T₂, hrun₁, hrun₂, hview, -⟩
  have h : (Screen.new 2 3 0).Inv := new_inv 0 (by decide) (by decide)
  have h₁ := steps_inv (process_steps .sample h hes₁) h
  have h₂ := steps_inv (process_steps .sample h₁ hes₂) h₁
  have hnew : (Screen.new 2 3 0).Pristine := new_pristine 0 (by decide) (by decide)
  obtain ⟨T₁', T₂', hrun₁', hrun₂', -, hiff⟩ := hnew.process_twice Viewed.rowHash sample_drawsLines h₁ h₂ hsize hterm
    (Plain.wellFormed hplain₁) (Plain.wellFormed hplain₂) (Plain.broadLast hplain₁) (Plain.broadLast hplain₂) {} {}
  obtain rfl : T₁ = T₁' := Option.some.inj (hrun₁.symm.trans hrun₁')
  obtain rfl : T₂ = T₂' := Option.some.inj (hrun₂.symm.trans hrun₂')
  obtain ⟨haddr, row, hrow, hcontent⟩ := hmoved
  have := (hiff.1 hview).1 1 row hrow hcontent
  omega

end Screen

end Retach
