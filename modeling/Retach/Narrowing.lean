import Retach.Growing
/-!
# Narrowing rows

A row is cut to the new width after a repair at the new margin. The repair
looks at the last column that stays: the second half of a wide character there
counts as cut off from its first half, which also stays, so both are blanked.
-/

open Checked Lists Runs

namespace Retach

namespace Row

/-- `row'` is `row` in `cols` columns with every character that fits: only a wide
character that the new margin cuts in two has become a blank. -/
def KeepsFitting (cols : Nat) (row row' : Row) : Prop :=
  ∀ x < min cols row.cells.length, ∃ c c', row.cells[x]? = some c ∧ row'.cells[x]? = some c' ∧
    if c.width = 2 ∧ x + 1 = cols ∧ cols < row.cells.length then c'.c = ' ' ∧ c'.width = 1
    else c'.c = c.c ∧ c'.width = c.width

/-- The row is cut right behind the second half of a wide character. -/
def CutBehindPair (cols : Nat) (row : Row) : Prop :=
  1 < cols ∧ cols < row.cells.length ∧ ∃ c, row.cells[cols - 1]? = some c ∧ c.width = 0

/-- In a row with complete pairs that wide character is in the last two columns
that stay. -/
theorem cutBehindPair_iff {row : Row} (hp : Paired row.cells) {cols : Nat} :
    row.CutBehindPair cols ↔ cols < row.cells.length ∧ 1 < cols ∧
      ∃ c, row.cells[cols - 2]? = some c ∧ c.width = 2 := by
  constructor
  · rintro ⟨hpos, hlen, c, hc, hw⟩
    obtain ⟨y, b, hy, hb, hb2⟩ := hp.continuation hc hw
    have hcol : cols - 2 = y := by omega
    exact ⟨hlen, hpos, b, hcol ▸ hb, hb2⟩
  · rintro ⟨hlen, hpos, b, hb, hw⟩
    obtain ⟨c, hc, hw0⟩ := hp.base hb hw
    have hcol : cols - 2 + 1 = cols - 1 := by omega
    exact ⟨hpos, hlen, c, hcol ▸ hc, hw0⟩

variable {row : Row} {cols : Nat}

theorem fitted_get {x : Nat} (hx : x < min cols row.cells.length) :
    (row.fitted cols).cells[x]? = (fixBoundary cols row.cells)[x]? := by
  have hlen := fixBoundary_length cols row.cells
  rw [fitted, fit, List.getElem?_append_left (by rw [List.length_take]; omega), List.getElem?_take_of_lt (by omega)]

theorem fixBoundary_cut (hcut : cols < row.cells.length) {c : Cell} (hc : row.cells[cols - 1]? = some c) (hcols : 0 < cols) :
    fixBoundary cols row.cells = if c.width = 2 then row.cells.set (cols - 1) {}
      else if 0 < cols - 1 ∧ c.width = 0 then (row.cells.set (cols - 1) {}).set (cols - 1 - 1) {}
      else row.cells := by
  rw [fixBoundary, if_neg (by omega), hc]

/-- Nothing to repair. -/
theorem fitted_keeps_of_same (hfix : fixBoundary cols row.cells = row.cells)
    (hlast : ∀ c, row.cells[cols - 1]? = some c → cols < row.cells.length → c.width ≠ 2) :
    row.KeepsFitting cols (row.fitted cols) := by
  intro x hx
  have hc : row.cells[x]? = some row.cells[x] := List.getElem?_eq_getElem (by omega)
  refine ⟨_, row.cells[x], hc, ?_, ?_⟩
  · rw [fitted_get hx, hfix, hc]
  · rw [if_neg]
    · exact ⟨rfl, rfl⟩
    · rintro ⟨hw, rfl, hlen⟩
      exact hlast _ hc hlen hw

/-- The first half of a pair that does not fit. -/
theorem fitted_keeps_of_base (hcols : 0 < cols) (hcut : cols < row.cells.length) {c : Cell}
    (hlast : row.cells[cols - 1]? = some c) (hbase : c.width = 2) : row.KeepsFitting cols (row.fitted cols) := by
  have hfix := fixBoundary_cut hcut hlast hcols
  rw [if_pos hbase] at hfix
  intro x hx
  have hc : row.cells[x]? = some row.cells[x] := List.getElem?_eq_getElem (by omega)
  by_cases hxl : x = cols - 1
  · subst hxl
    refine ⟨c, {}, hlast, ?_, ?_⟩
    · rw [fitted_get hx, hfix, List.getElem?_set_self (by omega)]
    · rw [if_pos ⟨hbase, by omega, by omega⟩]
      exact ⟨rfl, rfl⟩
  · refine ⟨_, row.cells[x], hc, ?_, ?_⟩
    · rw [fitted_get hx, hfix, List.getElem?_set_ne (Ne.symm hxl), hc]
    · rw [if_neg (by omega)]
      exact ⟨rfl, rfl⟩

/-- The second half of a pair that fits. -/
theorem fitted_loses (hcols : 1 < cols) (hcut : cols < row.cells.length) {c : Cell} (hlast : row.cells[cols - 1]? = some c)
    (hcont : c.width = 0) : ¬ row.KeepsFitting cols (row.fitted cols) := by
  have hfix := fixBoundary_cut hcut hlast (by omega)
  rw [if_neg (by omega), if_pos ⟨by omega, hcont⟩] at hfix
  intro h
  obtain ⟨d, d', hd, hd', hkeep⟩ := h (cols - 1) (by omega)
  obtain rfl : c = d := Option.some.inj (hlast.symm.trans hd)
  rw [fitted_get (by omega), hfix, List.getElem?_set_ne (by omega), List.getElem?_set_self (by omega), Option.some.injEq] at hd'
  subst hd'
  rw [if_neg (by omega), hcont] at hkeep
  exact absurd hkeep.2 (by decide)

/-- Every character that fits stays, unless the row is cut right behind a wide
one. -/
theorem fitted_keeps_iff (hcols : 0 < cols) : row.KeepsFitting cols (row.fitted cols) ↔ ¬ row.CutBehindPair cols := by
  by_cases hfit : row.cells.length ≤ cols
  · have hfix : fixBoundary cols row.cells = row.cells := by rw [fixBoundary, if_pos (.inr hfit)]
    exact iff_of_true (fitted_keeps_of_same hfix fun _ _ hlen => absurd hlen (by omega)) fun h => absurd h.2.1 (by omega)
  have hcut : cols < row.cells.length := Nat.not_le.1 hfit
  have hlast : row.cells[cols - 1]? = some row.cells[cols - 1] := List.getElem?_eq_getElem (by omega)
  have hcell {c : Cell} (hc : row.cells[cols - 1]? = some c) : c = row.cells[cols - 1] := Option.some.inj (hc.symm.trans hlast)
  by_cases hbase : row.cells[cols - 1].width = 2
  · refine iff_of_true (fitted_keeps_of_base hcols hcut hlast hbase) ?_
    rintro ⟨-, -, c, hc, hw⟩
    rw [← hcell hc] at hbase
    omega
  by_cases hcont : 1 < cols ∧ row.cells[cols - 1].width = 0
  · exact iff_of_false (fitted_loses hcont.1 hcut hlast hcont.2) (not_not_intro ⟨hcont.1, hcut, _, hlast, hcont.2⟩)
  · have hfix : fixBoundary cols row.cells = row.cells := by
      rw [fixBoundary_cut hcut hlast hcols, if_neg hbase, if_neg (by omega)]
    refine iff_of_true (fitted_keeps_of_same hfix fun c hc _ => hcell hc ▸ hbase) ?_
    rintro ⟨hpos, -, c, hc, hw⟩
    exact hcont ⟨hpos, hcell hc ▸ hw⟩

end Row

/-! ## The visible rows -/

/-- The rows come back in order, each with every character that fits. -/
def KeepsRows (cols rows : Nat) (before after : List Row) : Prop :=
  ∀ i < rows, ∀ row, before[i]? = some row → ∃ row', after[i]? = some row' ∧ row.KeepsFitting cols row'

theorem fitRows_get {cols rows i : Nat} {vis : List Row} {row : Row} (hi : i < rows) (hrow : vis[i]? = some row) :
    (fitRows cols rows vis)[i]? = some (row.fitted cols) := by
  have hlt := (List.getElem?_eq_some_iff.1 hrow).1
  rw [fitRows, List.getElem?_map, List.getElem?_append_left (by rw [List.length_take]; omega),
    List.getElem?_take_of_lt hi, hrow]
  rfl

theorem fitRows_keeps_iff {cols rows : Nat} (hcols : 0 < cols) {vis : List Row} :
    KeepsRows cols rows vis (fitRows cols rows vis) ↔ ∀ row ∈ vis.take rows, ¬ row.CutBehindPair cols := by
  constructor
  · intro h row hr
    obtain ⟨i, hi, hrow⟩ := List.getElem_of_mem hr
    rw [List.length_take] at hi
    rw [List.getElem_take] at hrow
    have hget : vis[i]? = some row := by rw [← hrow]; exact List.getElem?_eq_getElem _
    obtain ⟨row', hrow', hkeep⟩ := h i (by omega) row hget
    rw [fitRows_get (by omega) hget, Option.some.injEq] at hrow'
    exact (Row.fitted_keeps_iff hcols).1 (hrow' ▸ hkeep)
  · intro h i hi row hrow
    refine ⟨_, fitRows_get hi hrow, (Row.fitted_keeps_iff hcols).2 (h row ?_)⟩
    exact List.mem_of_getElem? (by rw [List.getElem?_take_of_lt hi, hrow])

namespace Screen

variable {s : Screen}

/-- The rows of the main screen after the alternate one has been left. -/
theorem exitAltScreen_rows (h : s.Inv) {saved : SavedGrid} (halt : s.state.inAltScreen = true)
    (hgrid : s.state.savedGrid = some saved) (restore : Bool) :
    ∃ s', s.exitAltScreen restore = some s' ∧ s'.grid.cols = s.grid.cols ∧ s'.grid.rows = s.grid.rows ∧
      s'.grid.visibleRows = fitRows s.grid.cols s.grid.rows saved.visibleCells := by
  obtain ⟨modes, hmodes⟩ := Option.isSome_iff_exists.1 (h.savedModes.1 halt)
  obtain ⟨region, hregion⟩ := Option.isSome_iff_exists.1 (h.savedRegion.1 halt)
  let HasRows (u : Screen) : Prop := u.grid.cols = s.grid.cols ∧ u.grid.rows = s.grid.rows ∧
    u.grid.visibleRows = fitRows s.grid.cols s.grid.rows saved.visibleCells
  have hback : HasRows (s.switchedBack saved modes region) := by
    refine ⟨rfl, rfl, ?_⟩
    change ((s.grid.scrollbackRows ++ fitRows s.grid.cols s.grid.rows saved.visibleCells).drop s.grid.scrollbackLen).take
      s.grid.rows = _
    rw [List.drop_left' h.shape.scrollback_length, List.take_of_length_le (by rw [fitRows_length])]
  have hcursor : HasRows (if restore then (s.switchedBack saved modes region).cursorBack
      else s.switchedBack saved modes region) := by
    split
    · unfold cursorBack
      split <;> exact hback
    · exact hback
  refine ⟨_, exitAltScreen_eq h halt hgrid hmodes hregion restore, ?_⟩
  generalize (if restore then _ else _) = u at hcursor
  obtain ⟨hc, hr, hv⟩ := hcursor
  unfold compactStyles
  simp only [onGrid]
  split <;> exact ⟨hc, hr, hv⟩

/-! ## The theorem -/

/-- Cutting a row to `cols` columns keeps every character that fits exactly when
it is not cut right behind a wide one. So does a resize with the rows that stay
visible or come back from the scrollback, and leaving the alternate screen with
the rows saved when it was entered. -/
theorem narrowing_keeps_iff {W : UnicodeWidth} (hs : s.Reachable W) {cols rows : Nat} (hrows : rows ≤ 65535) :
    (∀ n > 0, ∀ row, ∃ row', Grid.fitRow n row = some row' ∧ row'.cells.length = n ∧
      (row.KeepsFitting n row' ↔ ¬ row.CutBehindPair n) ∧
      (Paired row.cells → (row.CutBehindPair n ↔ n < row.cells.length ∧ 1 < n ∧
        ∃ c, row.cells[n - 2]? = some c ∧ c.width = 2))) ∧
    (∃ s', s.resize cols rows = some s' ∧
      ∀ before, before = (s.grid.scrollbackRows ++ s.grid.visibleRows).drop s'.grid.scrollbackLen →
        (KeepsRows s'.grid.cols s'.grid.rows before s'.grid.visibleRows ↔
          ∀ row ∈ before.take s'.grid.rows, ¬ row.CutBehindPair s'.grid.cols)) ∧
    (∀ saved restore, s.state.inAltScreen = true → s.state.savedGrid = some saved →
      ∃ s', s.exitAltScreen restore = some s' ∧
        (KeepsRows s'.grid.cols s'.grid.rows saved.visibleCells s'.grid.visibleRows ↔
          ∀ row ∈ saved.visibleCells.take s'.grid.rows, ¬ row.CutBehindPair s'.grid.cols)) := by
  have h := hs.inv
  refine ⟨fun n hn row => ?_, ⟨_, resize_eq h cols hrows, ?_⟩, fun saved restore halt hgrid => ?_⟩
  · exact ⟨_, row.fitRow_eq n, fit_length _ _, Row.fitted_keeps_iff hn, fun hp => Row.cutBehindPair_iff hp⟩
  · rintro before rfl
    rw [resized_visibleRows h]
    exact fitRows_keeps_iff (Nat.le_max_right cols 1)
  · obtain ⟨s', hexit, hc, hr, hv⟩ := exitAltScreen_rows h halt hgrid restore
    refine ⟨s', hexit, ?_⟩
    rw [hc, hr, hv]
    exact fitRows_keeps_iff h.shape.cols_pos

theorem narrowing_keeps_sample : ∃ s s', (Screen.new 4 1 10).run .sample [.callback (.print '世')] = some s ∧
    s.resize 3 1 = some s' ∧ KeepsRows s'.grid.cols s'.grid.rows s.grid.visibleRows s'.grid.visibleRows := by
  obtain ⟨s, hrun, hback, hlen, hno⟩ : ∃ s, (Screen.new 4 1 10).run .sample [.callback (.print '世')] = some s ∧
      s.grid.scrollbackRows = [] ∧ s.grid.scrollbackLen = 0 ∧
      ∀ row ∈ s.grid.visibleRows, row.cells.map Cell.width = [2, 0, 1, 1] := ⟨_, rfl, rfl, rfl, by decide⟩
  have hs : s.Reachable .sample := ⟨4, 1, 10, _, by decide, by decide, by simp [Action.Sized], hrun⟩
  obtain ⟨-, ⟨s', hres, hkeep⟩, -⟩ : _ ∧ (∃ s', s.resize 3 1 = some s' ∧ _) ∧ _ := narrowing_keeps_iff hs (by decide)
  have hcols : s'.grid.cols = 3 ∧ s'.grid.scrollbackLen = 0 := by
    obtain rfl := Option.some.inj ((resize_eq hs.inv 3 (show 1 ≤ 65535 by decide)).symm.trans hres)
    exact ⟨rfl, by rw [show (s.resized 3 1).grid.scrollbackLen = s.grid.scrollbackLen - s.restoreCount 1 from rfl, hlen]; simp⟩
  refine ⟨s, s', hrun, hres, (hkeep _ (by rw [hback, hcols.2]; rfl)).2 fun row hr => ?_⟩
  rw [hcols.1]
  rintro ⟨-, -, c, hc, hw⟩
  have hwidths := hno row (List.mem_of_mem_take hr)
  have hc2 : (row.cells.map Cell.width)[2]? = some c.width := by rw [List.getElem?_map, hc]; rfl
  rw [hwidths, hw] at hc2
  exact absurd hc2 (by decide)

/-- A wide character in the first two of four columns does not survive a resize
to two columns. -/
theorem narrowing_loses : ∃ s s', (Screen.new 4 1 10).run .sample [.callback (.print '世')] = some s ∧
    s.resize 2 1 = some s' ∧
    s.grid.visibleRows.map (fun row => row.cells.map fun c => (c.c, c.width)) = [[('世', 2), ('\x00', 0), (' ', 1), (' ', 1)]] ∧
    s'.grid.visibleRows.map (fun row => row.cells.map fun c => (c.c, c.width)) = [[(' ', 1), (' ', 1)]] :=
  ⟨_, _, rfl, rfl, by decide, by decide⟩

end Screen

end Retach
