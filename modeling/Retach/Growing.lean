import Retach.Pending
/-!
# Growing the screen

On the main screen a resize to more rows takes the missing ones from the end of
the scrollback: the boundary between scrollback and visible rows moves up, and
with it the first pending row and the cursor.
-/

open Checked Lists Runs

namespace Retach

/-! ## The rows -/

theorem Row.fitted_new (cols : Nat) : (Row.new cols).fitted cols = Row.new cols := by
  have hlen : (Row.new cols).cells.length = cols := List.length_replicate
  have hself := (Row.new cols).fitted_self
  rwa [hlen] at hself

/-- Rows that all find room are fitted one by one, and blank rows follow. -/
theorem fitRows_grow {cols rows : Nat} {vis : List Row} (h : vis.length ≤ rows) :
    fitRows cols rows vis = vis.map (Row.fitted cols) ++ List.replicate (rows - vis.length) (Row.new cols) := by
  rw [fitRows, List.take_of_length_le h, List.map_append, List.map_replicate, Row.fitted_new]

namespace Screen

variable {s : Screen} {rows : Nat}

/-! ## The boundary -/

theorem restoreCount_grow (hmain : s.state.inAltScreen = false) (hgrow : s.grid.rows < rows) :
    s.restoreCount rows = min (rows - s.grid.rows) s.grid.scrollbackLen :=
  if_pos ⟨by simp [hmain], hgrow⟩

/-- Growing gives every row that comes back a visible line. -/
theorem restoreCount_fits (hgrow : s.grid.rows < rows) : s.grid.rows + s.restoreCount rows ≤ rows := by
  unfold restoreCount
  split <;> omega

theorem resized_scrollbackRows (h : s.Inv) (cols rows : Nat) :
    (s.resized cols rows).grid.scrollbackRows =
      (s.grid.scrollbackRows ++ s.grid.visibleRows).take (s.grid.scrollbackLen - s.restoreCount rows) := by
  have hlen := h.shape.cells_len
  rw [← h.shape.cells_eq]
  refine List.take_left' ?_
  rw [List.length_take]
  change min (s.grid.scrollbackLen - s.restoreCount rows) _ = s.grid.scrollbackLen - s.restoreCount rows
  omega

theorem resized_visibleRows (h : s.Inv) (cols rows : Nat) :
    (s.resized cols rows).grid.visibleRows = fitRows (max cols 1) (max rows 1)
      ((s.grid.scrollbackRows ++ s.grid.visibleRows).drop (s.grid.scrollbackLen - s.restoreCount rows)) := by
  have hlen := h.shape.cells_len
  rw [← h.shape.cells_eq]
  have hkept : (s.grid.cells.take (s.grid.scrollbackLen - s.restoreCount rows)).length =
      s.grid.scrollbackLen - s.restoreCount rows := by
    rw [List.length_take]
    omega
  change ((s.grid.cells.take (s.grid.scrollbackLen - s.restoreCount rows) ++
    fitRows (max cols 1) (max rows 1) (s.grid.cells.drop (s.grid.scrollbackLen - s.restoreCount rows))).drop
      (s.grid.scrollbackLen - s.restoreCount rows)).take (max rows 1) = _
  rw [List.drop_left' hkept, List.take_of_length_le (by rw [fitRows_length])]

/-! ## The theorem -/

/-- A main screen that grows loses no row: the rows are those it had, the
visible ones fitted to the new width, and blank ones after them. The scrollback
gives back one row for each new line as far as it goes, the cursor stays on its
row, and the rows that were pending and are still scrollback are pending. -/
theorem growing_keeps {W : UnicodeWidth} (hs : s.Reachable W) (hmain : s.state.inAltScreen = false) {cols rows : Nat}
    (hcols : cols ≤ 65535) (hrows : rows ≤ 65535) (hgrow : s.grid.rows < rows) :
    ∃ s', s.resize cols rows = some s' ∧ s'.grid.cols = max cols 1 ∧ s'.grid.rows = rows ∧
      s'.grid.scrollbackLen = s.grid.scrollbackLen - min (rows - s.grid.rows) s.grid.scrollbackLen ∧
      s'.grid.scrollbackRows = (s.grid.scrollbackRows ++ s.grid.visibleRows).take s'.grid.scrollbackLen ∧
      (∃ fitted blank, ((s.grid.scrollbackRows ++ s.grid.visibleRows).drop s'.grid.scrollbackLen).mapM
          (Grid.fitRow s'.grid.cols) = some fitted ∧
        s'.grid.visibleRows = fitted ++ List.replicate blank (Row.new s'.grid.cols)) ∧
      s'.grid.scrollbackLen + s'.grid.cursorY = s.grid.scrollbackLen + s.grid.cursorY ∧
      s'.pendingRows = s'.grid.scrollbackRows.drop s.grid.pendingStart := by
  have h := hs.inv
  have hcount := restoreCount_grow hmain hgrow
  have hfits := restoreCount_fits hgrow
  have hle := s.restoreCount_le rows
  have hy := h.shape.cursor_y
  have hsb : (s.resized cols rows).grid.scrollbackLen = s.grid.scrollbackLen - s.restoreCount rows := rfl
  have hrows1 : max rows 1 = rows := by omega
  refine ⟨s.resized cols rows, resize_eq h cols hrows, rfl, hrows1, by rw [hsb, hcount], resized_scrollbackRows h cols rows, ?_, ?_, ?_⟩
  · have hroom : ((s.grid.scrollbackRows ++ s.grid.visibleRows).drop (s.grid.scrollbackLen - s.restoreCount rows)).length ≤
        rows := by
      rw [List.length_drop, List.length_append, h.shape.scrollback_length, h.shape.visible_length]
      omega
    have hvis := resized_visibleRows h cols rows
    rw [hrows1, fitRows_grow hroom] at hvis
    exact ⟨_, _, mapM_fitRow _ _, hvis⟩
  · change s.grid.scrollbackLen - s.restoreCount rows + min (s.grid.cursorY + s.restoreCount rows) (max rows 1 - 1) = _
    omega
  · rw [((s.resized_effect hcols hrows).inv h).pendingRows_eq]
    change List.drop (min s.grid.pendingStart (s.grid.scrollbackLen - s.restoreCount rows)) _ = _
    rcases Nat.le_total s.grid.pendingStart (s.grid.scrollbackLen - s.restoreCount rows) with hp | hp
    · rw [Nat.min_eq_left hp]
    · have hlen : (s.resized cols rows).grid.scrollbackRows.length ≤ s.grid.scrollbackLen - s.restoreCount rows := by
        rw [resized_scrollbackRows h, List.length_take]
        exact Nat.min_le_left _ _
      rw [Nat.min_eq_right hp, List.drop_eq_nil_of_le hlen, List.drop_eq_nil_of_le (Nat.le_trans hlen hp)]

theorem growing_keeps_sample : ∃ s s', (Screen.new 4 1 10).run .sample [.callback (.print 'a'), .callback (.execute 0x0a)] =
    some s ∧ s.resize 4 3 = some s' ∧ s'.grid.scrollbackLen = 0 ∧
    s'.grid.scrollbackLen + s'.grid.cursorY = s.grid.scrollbackLen + s.grid.cursorY := by
  obtain ⟨s, hrun, hmain, hlines, hlen⟩ : ∃ s, (Screen.new 4 1 10).run .sample
      [.callback (.print 'a'), .callback (.execute 0x0a)] = some s ∧ s.state.inAltScreen = false ∧ s.grid.rows = 1 ∧
      s.grid.scrollbackLen = 1 := ⟨_, rfl, rfl, rfl, rfl⟩
  have hs : s.Reachable .sample := ⟨4, 1, 10, _, by decide, by decide, by simp [Action.Sized], hrun⟩
  obtain ⟨s', hres, -, -, hback, -, -, hline, -⟩ := growing_keeps hs hmain (show 4 ≤ 65535 by decide) (show 3 ≤ 65535 by decide)
    (by rw [hlines]; decide)
  exact ⟨s, s', hrun, hres, by rw [hback, hlines, hlen]; decide, hline⟩

end Screen

end Retach
