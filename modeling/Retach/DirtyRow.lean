import Retach.Injection
/-!
# One dirty row

An incremental frame writes a row over whatever the terminal shows there, up to
its last content, and erases the rest of the line. Erasing starts at the cursor,
which stays on the last column when that column has been written.
-/

open Checked Lists

namespace Retach

/-- Complete wide characters, cells as wide as their characters, and marks
without a width. -/
structure Row.Printable (W : UnicodeWidth) (row : Row) : Prop where
  paired : Paired row.cells
  joined : Joined row.cells
  widths : ∀ c ∈ row.cells, c.width = W.charWidth c.c
  marks : ∀ x, ∀ m ∈ row.marks x, W.charWidth m = 0

theorem Row.WellFormed.printable {W : UnicodeWidth} {row : Row} (h : row.WellFormed W) : row.Printable W :=
  ⟨h.paired, h.joined, h.widths, fun x m hm => by rw [UnicodeWidth.charWidth, h.marks x m hm]; rfl⟩

namespace Row

/-- The cells as they look. -/
def looks (row : Row) (t : StyleTable) : List (Char × Nat × Style) := row.cells.map (Cell.shown t)

/-- The last column is blank. -/
def EndsBlank (row : Row) (t : StyleTable) : Prop := (row.looks t).getLast? = some blankShown

instance (row : Row) (t : StyleTable) : Decidable (row.EndsBlank t) := inferInstanceAs (Decidable (_ = _))

/-- The styles of the cells. -/
def palette (row : Row) (t : StyleTable) : Finset Style := (row.cells.map fun c => t.get c.styleId).toFinset

end Row

namespace Screen

variable {W : UnicodeWidth} {T T' s : Screen} {row : Row} {t : StyleTable} {y : Nat}

/-- A terminal about to be sent the row for its row `y`: origin mode off, ASCII,
the default style, whole wide characters in row `y`, and room for the styles of
the row. -/
structure Awaits (T : Screen) (y : Nat) (P : Finset Style) : Prop where
  inv : T.Inv
  lt : y < T.grid.rows
  origin : T.grid.modes.originMode = false
  ascii : currentCharset T.grid.modes = .ascii
  style : T.state.currentStyle = {}
  paired : ∀ old, T.grid.HasRow y old → Paired old.cells
  fits : T.Fits P

theorem Awaits.mapCharset {P : Finset Style} (h : T.Awaits y P) (c : Char) : T.mapCharset c = c := by
  rw [Screen.mapCharset, h.ascii]

/-- The row written and the rest of the line erased: it is shown exactly if its
last column is blank and nothing of the old row is left beside a broad character. -/
theorem Awaits.paint {P : Finset Style} (h : T.Awaits y P) (hcols : row.cells.length = T.grid.cols) (hrow : row.Printable W)
    (hbroad : BroadLast row.cells) (hstyles : ∀ c ∈ row.cells, t.get c.styleId ∈ P) (h0 : t.get 0 = {}) :
    ∃ T', T.process W (renderRow t false y row) = some T' ∧ (∃ r, Stroke P (T.cursorAt 0 y) y r T') ∧
      T'.state.currentStyle = {} ∧ T.Elsewhere y T' ∧
      (T'.viewRow y = some (row.looks t) ↔ row.EndsBlank t ∧ ∀ old ∈ T.viewRow y, Covers row.cells old) := by
  have h₁ : (T.cursorAt 0 y).Inv := (Effect.cursor 0 y false h.inv.shape.cols_pos h.lt).inv h.inv
  have hcup : T.step W (.cup (y + 1) 1) = some (T.cursorAt 0 y) := by
    rw [step_cup W h.inv h.inv.shape.cols_pos h.lt, addressed, h.origin]
    rfl
  have hchars (c : Char) : (T.cursorAt 0 y).mapCharset c = c := h.mapCharset c
  have hb : Brush P (T.cursorAt 0 y) y [] (t.get 0) (T.cursorAt 0 y) := by
    rw [h0, ← h.style]
    exact .start h₁ h.fits rfl rfl h.paired
  obtain ⟨T₂, b, hp⟩ := hb.paint h₁ (fun x m hm => by rw [hchars]; exact hrow.marks x m hm)
    (hrow.paired.laid hrow.joined hrow.widths hbroad) (fun c _ => by rw [hchars]) hstyles h0 rfl
    (by rw [List.length_nil, Nat.zero_add, hcols]; rfl)
  obtain ⟨k, hk, hx⟩ := hp.x
  rw [List.length_nil, Nat.zero_add] at hx
  obtain ⟨hreset, hp₃⟩ := hp.stroke.sgr (W := W) {}
  have hlooks : row.looks t = b ++ List.replicate (T.grid.cols - b.length) blankShown := by
    have hshown : (T.cursorAt 0 y).seen t = Cell.shown t := funext fun c => by rw [seen, hchars, Cell.shown]
    rw [Row.looks, ← hshown, ← hp.seen, hcols]
  obtain ⟨oldRow, hget, -⟩ := h.inv.shape.hasRow h.lt
  have hold : T.viewRow y = some (oldRow.cells.map (Cell.shown T.grid.styleTable)) := by
    rw [viewRow, hget.getElem?, Option.map_some]
  obtain ⟨T', r, hel, hstyle', hp', hview, hiff⟩ := hp₃.erase_behind (W := W) h₁ rfl hk hx
    (show (T.cursorAt 0 y).viewRow y = _ from hold)
  have hcursor : T.Elsewhere y (T.cursorAt 0 y) :=
    { Kept.refl T, SameModes.refl T with same := fun _ _ => rfl, view := fun _ _ => rfl }
  have helse := hp'.elsewhere h₁
  refine ⟨T', ?_, ⟨r, hp'⟩, hstyle', ?_, ?_⟩
  · rw [renderRow, if_neg (by decide), List.cons_append, process_cons, hcup, Option.bind_some]
    change (T.cursorAt 0 y).process W ((paintRow t row 0 0 row.cells).1 ++ ([.sgrReset] ++ [.el 0])) = _
    rw [process_append, hp.run, Option.bind_some, process_append, process_one, show T₂.step W .sgrReset = _ from hreset,
      Option.bind_some, process_one, hel]
  · exact { hcursor.toKept.trans helse.toKept, hcursor.toSameModes.trans helse.toSameModes with
            same := helse.same, view := helse.view }
  · rw [hview, Option.some.injEq, Row.EndsBlank, hlooks, hold]
    simp only [Option.mem_some_iff, forall_eq']
    exact hiff

/-- A dirty row is shown exactly if its last column is blank and nothing of the
old row is left beside a broad character. Nothing outside row `y` changes either
way. -/
theorem renderRow_iff (t : StyleTable) (ht : t.Wf) (row : Row) (hrow : row.Printable W) (hbroad : BroadLast row.cells) (T : Screen)
    (y : Nat) {P : Finset Style} (hP : row.palette t ⊆ P) (hT : T.Awaits y P) (hcols : row.cells.length = T.grid.cols) :
    ∃ T', T.process W (renderRow t false y row) = some T' ∧ T.Elsewhere y T' ∧
      (T'.viewRow y = some (row.looks t) ↔ row.EndsBlank t ∧ ∀ old ∈ T.viewRow y, Covers row.cells old) := by
  obtain ⟨T', hrun, -, -, helse, hiff⟩ := hT.paint hcols hrow hbroad
    (fun c hc => hP (List.mem_toFinset.2 (List.mem_map_of_mem hc))) ht.get_zero
  exact ⟨T', hrun, helse, hiff⟩

/-- The row "ab" followed by a blank, over a terminal that shows "xyz". -/
theorem renderRow_sample : ∃ T T', (Screen.new 3 2 0).process .sample [.print 'x', .print 'y', .print 'z'] = some T ∧
    T.process .sample (renderRow .new false 0 { cells := [{ c := 'a' }, { c := 'b' }, {}] }) = some T' ∧
    T'.viewRow 0 = some [('a', 1, {}), ('b', 1, {}), blankShown] := by
  obtain ⟨T, hrun, hvis, hcols, hrows, hmodes, hstyle, htable⟩ : ∃ T, (Screen.new 3 2 0).process .sample
      [.print 'x', .print 'y', .print 'z'] = some T ∧
      T.grid.visibleRows[0]? = some { cells := [{ c := 'x' }, { c := 'y' }, { c := 'z' }], combining := [] } ∧
      T.grid.cols = 3 ∧ T.grid.rows = 2 ∧ T.grid.modes = {} ∧ T.state.currentStyle = {} ∧ T.grid.styleTable = .new :=
    ⟨_, rfl, rfl, rfl, rfl, rfl, rfl, rfl⟩
  have hnew : (Screen.new 3 2 0).Inv := new_inv 0 (by decide) (by decide)
  have hT : T.Awaits 0 ((Row.mk [{ c := 'a' }, { c := 'b' }, {}] []).palette .new) :=
    { inv := steps_inv (process_steps .sample hnew hrun) hnew
      lt := by rw [hrows]; decide
      origin := by rw [hmodes]
      ascii := by rw [hmodes]; rfl
      style := hstyle
      paired := fun old hold => by
        rw [hold.getElem?, Option.some.injEq] at hvis
        rw [hvis]
        exact .of_singles (by simp [Cell.Single])
      fits := .inl (by rw [htable]; decide) }
  obtain ⟨T', hpaint, -, hiff⟩ := renderRow_iff .new StyleTable.wf_new { cells := [{ c := 'a' }, { c := 'b' }, {}] }
    (Row.WellFormed.of_single (W := .sample) (by decide) rfl).printable (by decide) T 0 (Finset.Subset.refl _) hT hcols.symm
  exact ⟨T, T', hrun, hpaint, hiff.2 ⟨by decide, fun old _ => covers_of_narrow (by decide) old⟩⟩

/-- The row "ab" on a terminal of two columns: the last column is erased. -/
theorem renderRow_cuts : (Row.mk [{ c := 'a' }, { c := 'b' }] []).Printable .sample ∧
    (Screen.new 2 1 0).Awaits 0 ((Row.mk [{ c := 'a' }, { c := 'b' }] []).palette .new) ∧
    ¬ ∃ T', (Screen.new 2 1 0).process .sample (renderRow .new false 0 ⟨[{ c := 'a' }, { c := 'b' }], []⟩) = some T' ∧
      T'.viewRow 0 = some ((Row.mk [{ c := 'a' }, { c := 'b' }] []).looks .new) := by
  refine ⟨(Row.WellFormed.of_single (by decide) rfl).printable, ?_, ?_⟩
  · exact
      { inv := new_inv 0 (by decide) (by decide), lt := by decide, origin := rfl, ascii := rfl, style := rfl
        paired := fun old hold => by
          obtain rfl := (List.mem_replicate.1 (List.mem_of_mem_drop (List.mem_of_mem_take hold.mem))).2
          exact .replicate (single_blank 0) _
        fits := new_fits 2 1 0 (by decide) }
  · rintro ⟨T', hrun, hview⟩
    have hshown := congrArg (Option.bind · (viewRow · 0)) hrun
    simp only [Option.bind_some, hview] at hshown
    revert hshown
    decide

end Screen

end Retach
