import Retach.Safety
/-!
# Rows that move

IL, DL, SU and SD move the rows of a range, one row a round, and bring in blank
ones. The rows lie in one buffer with the scrollback, whose end moves when a row
leaves the main screen at its top.
-/

open Checked Lists Runs

namespace Retach

/-- A row of blanks, in some style. -/
def BlankRow (cols : Nat) (row : Row) : Prop := ∃ id : StyleId, row = .filled cols { c := ' ', styleId := id, width := 1 }

/-- Rows `lo` to `hi` of `vis`. -/
def rowRange (lo hi : Nat) (vis : List Row) : List Row := (vis.drop lo).take (hi + 1 - lo)

/-- `vis` with `rows` in place of rows `lo` to `hi`. -/
def withRange (lo hi : Nat) (rows vis : List Row) : List Row := vis.take lo ++ rows ++ vis.drop (hi + 1)

theorem rowRange_length (lo : Nat) {hi : Nat} {vis : List Row} (hhi : hi < vis.length) : (rowRange lo hi vis).length = hi + 1 - lo := by
  rw [rowRange, List.length_take, List.length_drop]
  omega

theorem withRange_self {lo hi : Nat} {vis : List Row} (hle : lo ≤ hi) : withRange lo hi (rowRange lo hi vis) vis = vis := by
  have hrest : vis.drop (hi + 1) = (vis.drop lo).drop (hi + 1 - lo) := by
    rw [List.drop_drop]
    congr 1
    omega
  rw [withRange, rowRange, hrest, List.append_assoc, List.take_append_drop, List.take_append_drop]

/-! ## The loops -/

section Loops

variable {α : Type} {f : α → Option α} (view : α → List Row) (P : α → Prop) {cols lo hi : Nat} {a : α}

/-- Each round takes out the row `src` and puts a blank one at `dst`, the two
ends of the range. `M` says what is in the range after some rounds. -/
theorem iter_moves {M : Nat → List Row → List Row → Prop} {src dst : Nat} (hzero : ∀ rows, M 0 rows rows)
    (hround : ∀ i rows row, M i (rowRange lo hi (view a)) rows → BlankRow cols row → ∃ rows', M (i + 1) (rowRange lo hi (view a)) rows' ∧
      ((withRange lo hi rows (view a)).eraseIdx src).insertIdx dst row = withRange lo hi rows' (view a))
    (hf : ∀ a, P a → ∃ b row, f a = some b ∧ P b ∧ BlankRow cols row ∧ view b = ((view a).eraseIdx src).insertIdx dst row)
    (ha : P a) (hle : lo ≤ hi) (n : Nat) :
    ∃ b rows, iter f n a = some b ∧ P b ∧ M n (rowRange lo hi (view a)) rows ∧ view b = withRange lo hi rows (view a) := by
  obtain ⟨b, hb, hPb, rows, hmoved, hview⟩ := iter_count
    (fun i b => P b ∧ ∃ rows, M i (rowRange lo hi (view a)) rows ∧ view b = withRange lo hi rows (view a))
    (fun i b hb => by
      obtain ⟨hPb, rows, hmoved, hview⟩ := hb
      obtain ⟨c, row, hc, hPc, hrow, hviewc⟩ := hf b hPb
      obtain ⟨rows', hmoved', hturn⟩ := hround i rows row hmoved hrow
      exact ⟨c, hc, hPc, rows', hmoved', by rw [hviewc, hview, hturn]⟩)
    n ⟨ha, _, hzero _, (withRange_self hle).symm⟩
  rw [Nat.zero_add] at hmoved
  exact ⟨b, rows, hb, hPb, hmoved, hview⟩

/-- The first row of the range goes, a blank one comes after its last. -/
theorem iter_movesUp (hf : ∀ a, P a → ∃ b row, f a = some b ∧ P b ∧ BlankRow cols row ∧ view b = ((view a).eraseIdx lo).insertIdx hi row)
    (ha : P a) (hle : lo ≤ hi) (hhi : hi < (view a).length) (n : Nat) :
    ∃ b rows, iter f n a = some b ∧ P b ∧ MovedUp (BlankRow cols) n (rowRange lo hi (view a)) rows ∧
      view b = withRange lo hi rows (view a) := by
  refine iter_moves view P (MovedUp.refl _) (fun i rows row hmoved hrow => ?_) hf ha hle n
  have hlen := rowRange_length lo hhi
  have hrows : rows ≠ [] := List.ne_nil_of_length_pos (by rw [hmoved.length]; omega)
  have hbefore : ((view a).take lo).length = lo := List.length_take_of_le (by omega)
  have hturn := eraseIdx_insertIdx_up hrows ((view a).take lo) ((view a).drop (hi + 1)) row
  rw [hbefore, hmoved.length, hlen, show lo + (hi + 1 - lo) - 1 = hi by omega] at hturn
  exact ⟨_, hmoved.step (List.ne_nil_of_length_pos (by omega)) hrow, hturn⟩

/-- The last row goes, a blank one comes before the first. -/
theorem iter_movesDown (hf : ∀ a, P a → ∃ b row, f a = some b ∧ P b ∧ BlankRow cols row ∧ view b = ((view a).eraseIdx hi).insertIdx lo row)
    (ha : P a) (hle : lo ≤ hi) (hhi : hi < (view a).length) (n : Nat) :
    ∃ b rows, iter f n a = some b ∧ P b ∧ MovedDown (BlankRow cols) n (rowRange lo hi (view a)) rows ∧
      view b = withRange lo hi rows (view a) := by
  refine iter_moves view P (MovedDown.refl _) (fun i rows row hmoved hrow => ?_) hf ha hle n
  have hlen := rowRange_length lo hhi
  have hrows : rows ≠ [] := List.ne_nil_of_length_pos (by rw [hmoved.length]; omega)
  have hbefore : ((view a).take lo).length = lo := List.length_take_of_le (by omega)
  have hturn := eraseIdx_insertIdx_down hrows ((view a).take lo) ((view a).drop (hi + 1)) row
  rw [hbefore, hmoved.length, hlen, show lo + (hi + 1 - lo) - 1 = hi by omega] at hturn
  exact ⟨_, hmoved.step (List.ne_nil_of_length_pos (by omega)) hrow, hturn⟩

end Loops

namespace Screen

variable {s s' : Screen}

/-! ## One round -/

/-- The region and the width that a round works with. -/
structure SameRegion (s s' : Screen) : Prop where
  top : s'.grid.scrollTop = s.grid.scrollTop
  bottom : s'.grid.scrollBottom = s.grid.scrollBottom
  cols : s'.grid.cols = s.grid.cols

theorem SameRegion.refl (s : Screen) : s.SameRegion s := ⟨rfl, rfl, rfl⟩

theorem scrollDown_visible {u : Screen} (h : u.Inv ∧ s.SameRegion u) :
    ∃ u' row, u.scrollDown = some u' ∧ (u'.Inv ∧ s.SameRegion u') ∧ BlankRow s.grid.cols row ∧
      u'.grid.visibleRows = (u.grid.visibleRows.eraseIdx s.grid.scrollBottom).insertIdx s.grid.scrollTop row := by
  obtain ⟨hu, htop, hbottom, hcols⟩ := h
  obtain ⟨id, t, hblank, hinv⟩ := blankCell_inv hu
  have hshape : (u.grid.setStyleTable t).Shape := hinv.shape
  have hle := hu.shape.region_le
  have hlt := hu.shape.region_lt
  have heq : u.scrollDown = some (u.onGrid fun g => (g.setStyleTable t).rotated g.scrollBottom g.scrollTop { styleId := id }) := by
    rw [scrollDown, hblank]
    exact congrArg (Option.bind · _) (hshape.scrollDown { styleId := id })
  have hsteps : Does (fun _ => True) u u.scrollDown := scrollDown_does trivial hu
  refine ⟨_, .filled u.grid.cols { styleId := id }, heq, ⟨steps_inv (hsteps.leads _ heq) hu, htop, hbottom, hcols⟩, ⟨id, by rw [hcols]⟩, ?_⟩
  rw [← htop, ← hbottom]
  exact hshape.visible_replaceVisible (hshape.rotated_length hlt (Nat.lt_of_le_of_lt hle hlt) _)

theorem scrollUp_visible {u : Screen} (h : u.Inv ∧ s.SameRegion u) :
    ∃ u' row, u.scrollUp = some u' ∧ (u'.Inv ∧ s.SameRegion u') ∧ BlankRow s.grid.cols row ∧
      u'.grid.visibleRows = (u.grid.visibleRows.eraseIdx s.grid.scrollTop).insertIdx s.grid.scrollBottom row := by
  obtain ⟨hu, htop, hbottom, hcols⟩ := h
  obtain ⟨id, t, hblank, hinv⟩ := blankCell_inv hu
  have hshape : (u.grid.setStyleTable t).Shape := hinv.shape
  obtain ⟨g, hg, hvis, hgtop, hgbottom, hgcols⟩ := hshape.scrollUp_visible u.state.inAltScreen { styleId := id }
  have heq : u.scrollUp = some { u with grid := g, scrolledOff := u.scrolledOff ++ u.displacedRow } := by
    rw [scrollUp, hblank]
    exact congrArg (Option.bind · _) hg
  have hsteps : Does (fun _ => True) u u.scrollUp := scrollUp_does trivial hu
  refine ⟨_, .filled u.grid.cols { styleId := id }, heq, ⟨steps_inv (hsteps.leads _ heq) hu, hgtop.trans htop, hgbottom.trans hbottom,
    hgcols.trans hcols⟩, ⟨id, by rw [hcols]⟩, ?_⟩
  rw [← htop, ← hbottom]
  exact hvis

/-- A round of DL (`src` the cursor's row) or IL (`src` the bottom row). -/
theorem moveBlank_visible {g : Grid} (h : g.Shape ∧ g.rows = s.grid.rows ∧ g.cols = s.grid.cols) {src dst bottom : Nat}
    (hsrc : src < s.grid.rows) (hdst : dst < s.grid.rows) (hbottom : bottom < s.grid.rows) (id : StyleId) :
    ∃ g' row, moveBlank src dst bottom { styleId := id } g = some g' ∧
      (g'.Shape ∧ g'.rows = s.grid.rows ∧ g'.cols = s.grid.cols) ∧ BlankRow s.grid.cols row ∧
      g'.visibleRows = (g.visibleRows.eraseIdx src).insertIdx dst row := by
  obtain ⟨hg, hrows, hcols⟩ := h
  rw [← hrows] at hsrc hdst hbottom
  have hcount : bottom < g.visibleRowCount := by
    rw [Grid.visibleRowCount, hg.cells_len]
    omega
  refine ⟨_, .filled g.cols { styleId := id }, (if_pos hcount).trans (hg.moveRow hsrc hdst _),
    ⟨hg.rotated_shape hsrc hdst _, hrows, hcols⟩, ⟨id, by rw [hcols]⟩, ?_⟩
  exact hg.visible_replaceVisible (hg.rotated_length hsrc hdst _)

/-! ## The handlers -/

/-- DL and IL outside the region. -/
theorem shiftLines_outside (h : s.Inv) (hout : ¬ (s.grid.scrollTop ≤ s.grid.cursorY ∧ s.grid.cursorY ≤ s.grid.scrollBottom)) (n : Nat)
    (move : Nat → Nat → Cell → Grid → Option Grid) :
    ∃ s', s.shiftLines n move = some s' ∧ s'.grid.visibleRows = s.grid.visibleRows := by
  obtain ⟨id, t, hblank, -⟩ := blankCell_inv h
  refine ⟨s.onGrid (·.setStyleTable t), ?_, rfl⟩
  rw [shiftLines, hblank]
  exact if_neg hout

/-- Inside they run the loop on the grid. -/
theorem shiftLines_inside (h : s.Inv) (hin : s.grid.scrollTop ≤ s.grid.cursorY ∧ s.grid.cursorY ≤ s.grid.scrollBottom) (n : Nat)
    (move : Nat → Nat → Cell → Grid → Option Grid) :
    ∃ id g, g.Shape ∧ (g.rows = s.grid.rows ∧ g.cols = s.grid.cols) ∧ g.visibleRows = s.grid.visibleRows ∧ ∀ g',
      iter (move s.grid.cursorY s.grid.scrollBottom { styleId := id }) (min n (s.grid.scrollBottom - s.grid.cursorY + 1)) g = some g' →
      ∃ s', s.shiftLines n move = some s' ∧ s'.grid = g' := by
  obtain ⟨id, t, hblank, hinv⟩ := blankCell_inv h
  refine ⟨id, (s.grid.setStyleTable t).setWrapPending false, { hinv.shape with }, ⟨rfl, rfl⟩, rfl, ?_⟩
  intro g' hg'
  refine ⟨{ s.onGrid (·.setStyleTable t) with grid := g' }, ?_, rfl⟩
  rw [shiftLines, hblank]
  exact (if_pos hin).trans (congrArg (Option.bind · _) hg')

/-! ## The theorem -/

/-- SU and SD move the rows of the scroll region, DL and IL those from the cursor
to the end of the region if it is inside: up or down by `n`, or by as many as
there are, with blank rows coming in. No other visible row changes, whatever
happens to the scrollback. -/
theorem lines_move (h : s.Inv) (n : Nat) :
    (∃ s' rows, s.csiScrollUpN n = some s' ∧
      MovedUp (BlankRow s.grid.cols) n (rowRange s.grid.scrollTop s.grid.scrollBottom s.grid.visibleRows) rows ∧
      s'.grid.visibleRows = withRange s.grid.scrollTop s.grid.scrollBottom rows s.grid.visibleRows) ∧
    (∃ s' rows, s.csiScrollDownN n = some s' ∧
      MovedDown (BlankRow s.grid.cols) n (rowRange s.grid.scrollTop s.grid.scrollBottom s.grid.visibleRows) rows ∧
      s'.grid.visibleRows = withRange s.grid.scrollTop s.grid.scrollBottom rows s.grid.visibleRows) ∧
    (s.grid.scrollTop ≤ s.grid.cursorY ∧ s.grid.cursorY ≤ s.grid.scrollBottom →
      (∃ s' rows, s.csiDeleteLines n = some s' ∧
        MovedUp (BlankRow s.grid.cols) n (rowRange s.grid.cursorY s.grid.scrollBottom s.grid.visibleRows) rows ∧
        s'.grid.visibleRows = withRange s.grid.cursorY s.grid.scrollBottom rows s.grid.visibleRows) ∧
      (∃ s' rows, s.csiInsertLines n = some s' ∧
        MovedDown (BlankRow s.grid.cols) n (rowRange s.grid.cursorY s.grid.scrollBottom s.grid.visibleRows) rows ∧
        s'.grid.visibleRows = withRange s.grid.cursorY s.grid.scrollBottom rows s.grid.visibleRows)) ∧
    (¬ (s.grid.scrollTop ≤ s.grid.cursorY ∧ s.grid.cursorY ≤ s.grid.scrollBottom) →
      (∃ s', s.csiDeleteLines n = some s' ∧ s'.grid.visibleRows = s.grid.visibleRows) ∧
      ∃ s', s.csiInsertLines n = some s' ∧ s'.grid.visibleRows = s.grid.visibleRows) := by
  have hle := h.shape.region_le
  have hlt : s.grid.scrollBottom < s.grid.visibleRows.length := by
    rw [h.shape.visible_length]
    exact h.shape.region_lt
  have hregion := rowRange_length s.grid.scrollTop hlt
  have hlines := rowRange_length s.grid.cursorY hlt
  have hrows := h.shape.visible_length
  have hself : s.Inv ∧ s.SameRegion s := ⟨h, .refl s⟩
  refine ⟨?_, ?_, fun hin => ⟨?_, ?_⟩, fun hout => ⟨shiftLines_outside h hout n _, shiftLines_outside h hout n _⟩⟩
  · obtain ⟨s', rows, hs', -, hmoved, hvis⟩ := iter_movesUp (·.grid.visibleRows) (fun u => u.Inv ∧ s.SameRegion u)
      (fun _ => scrollUp_visible) hself hle hlt (min n s.grid.rows)
    exact ⟨s', rows, hs', hmoved.of_min (by omega), hvis⟩
  · obtain ⟨s', rows, hs', -, hmoved, hvis⟩ := iter_movesDown (·.grid.visibleRows) (fun u => u.Inv ∧ s.SameRegion u)
      (fun _ => scrollDown_visible) hself hle hlt (min n s.grid.rows)
    exact ⟨s', rows, hs', hmoved.of_min (by omega), hvis⟩
  · obtain ⟨id, g, hg, hsize, hgvis, hdone⟩ := shiftLines_inside h hin n fun y bottom blank => moveBlank y bottom bottom blank
    obtain ⟨g', rows, hg', -, hmoved, hvis⟩ := iter_movesUp Grid.visibleRows
      (fun g => g.Shape ∧ g.rows = s.grid.rows ∧ g.cols = s.grid.cols)
      (fun _ hg => moveBlank_visible hg h.shape.cursor_y h.shape.region_lt h.shape.region_lt id) ⟨hg, hsize⟩ hin.2 (hgvis ▸ hlt)
      (min n (s.grid.scrollBottom - s.grid.cursorY + 1))
    obtain ⟨s', hs', rfl⟩ := hdone g' hg'
    rw [hgvis] at hmoved hvis
    exact ⟨s', rows, hs', hmoved.of_min (by omega), hvis⟩
  · obtain ⟨id, g, hg, hsize, hgvis, hdone⟩ := shiftLines_inside h hin n fun y bottom blank => moveBlank bottom y bottom blank
    obtain ⟨g', rows, hg', -, hmoved, hvis⟩ := iter_movesDown Grid.visibleRows
      (fun g => g.Shape ∧ g.rows = s.grid.rows ∧ g.cols = s.grid.cols)
      (fun _ hg => moveBlank_visible hg h.shape.region_lt h.shape.cursor_y h.shape.region_lt id) ⟨hg, hsize⟩ hin.2 (hgvis ▸ hlt)
      (min n (s.grid.scrollBottom - s.grid.cursorY + 1))
    obtain ⟨s', hs', rfl⟩ := hdone g' hg'
    rw [hgvis] at hmoved hvis
    exact ⟨s', rows, hs', hmoved.of_min (by omega), hvis⟩

theorem lines_move_sample : ∃ s s' rows, (Screen.new 2 3 10).run .sample [.callback (.print 'a')] = some s ∧
    s.csiInsertLines 1 = some s' ∧ MovedDown (BlankRow 2) 1 s.grid.visibleRows rows ∧ s'.grid.visibleRows = rows := by
  obtain ⟨s, hrun, hcols, htop, hbottom, hy, hrows⟩ : ∃ s, (Screen.new 2 3 10).run .sample [.callback (.print 'a')] = some s ∧
      s.grid.cols = 2 ∧ s.grid.scrollTop = 0 ∧ s.grid.scrollBottom = 2 ∧ s.grid.cursorY = 0 ∧ s.grid.visibleRows.length = 3 :=
    ⟨_, rfl, rfl, rfl, rfl, rfl, rfl⟩
  have hs : s.Reachable .sample := ⟨2, 3, 10, _, by decide, by decide, by simp [Action.Sized], hrun⟩
  obtain ⟨-, -, hlines, -⟩ := lines_move hs.inv 1
  obtain ⟨-, s', rows, hs', hmoved, hvis⟩ := hlines (by omega)
  rw [hcols, hy, hbottom, rowRange, List.drop_zero, List.take_of_length_le (by omega)] at hmoved
  rw [hy, hbottom, withRange, List.take_zero, List.nil_append, List.drop_of_length_le (by omega), List.append_nil] at hvis
  exact ⟨s, s', rows, hrun, hs', hmoved, hvis⟩

end Screen

end Retach
