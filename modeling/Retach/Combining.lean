import Retach.Marks
import Retach.Cursor
/-!
# Where a mark lands

The column of a mark is worked out from the cursor, which is one past the
character before: in the last column only when a wrap is pending there. Without
autowrap no wrap is, and a mark after a character in the last column goes to the
column before.
-/

open Checked Lists Runs

namespace Retach

namespace Row

theorem baseColumn_self {row : Row} {tx : Nat} {cell : Cell} (hcell : row.cells[tx]? = some cell) (h0 : cell.width ≠ 0) :
    row.baseColumn tx = tx := by
  rw [baseColumn_eq hcell, if_neg fun h => h0 h.1]

/-- A column after another belongs to it when it shows a second half. -/
theorem baseColumn_succ_iff {row : Row} {tx : Nat} :
    row.baseColumn (tx + 1) = tx ↔ row.cells[tx + 1]?.map (·.width) = some 0 := by
  unfold baseColumn
  split
  next h => exact iff_of_true (Nat.add_sub_cancel ..) h.1
  next h => exact iff_of_false (by omega) fun h0 => h ⟨h0, Nat.succ_pos tx⟩

/-- The base is in the column or just before it. -/
theorem baseColumn_le (row : Row) (tx : Nat) : row.baseColumn tx ≤ tx ∧ tx ≤ row.baseColumn tx + 1 := by
  unfold baseColumn
  split <;> omega

theorem marks_pushCombining (r : Row) (col : Nat) (m : Char) (c : Nat) :
    (r.pushCombining col m).marks c = if c = col then r.marks c ++ [m] else r.marks c := by
  obtain ⟨cells, l⟩ := r
  simp only [pushCombining, marks]
  induction l with
  | nil =>
    by_cases hc : c = col
    · simp [pushMark, hc]
    · simp [pushMark, hc, Ne.symm hc]
  | cons e l ih =>
    obtain ⟨k, ms⟩ := e
    rw [pushMark]
    by_cases hk : k = col
    · subst hk
      rw [if_pos rfl]
      by_cases hc : c = k
      · subst hc
        simp
      · rw [if_neg hc, List.find?_cons_of_neg (by simpa using Ne.symm hc), List.find?_cons_of_neg (by simpa using Ne.symm hc)]
    · rw [if_neg hk]
      by_cases hkc : k = c
      · subst hkc
        simp [hk]
      · rw [List.find?_cons_of_neg (by simpa using hkc), List.find?_cons_of_neg (by simpa using hkc)]
        exact ih

end Row

/-! ## The cells around a character just written -/

section Cells

variable {l : List Cell} {x : Nat} {cell : Cell}

/-- The column written is never a second half. -/
theorem writeCell_at (hx : x < l.length) (h0 : cell.width ≠ 0) : ∃ d, (writeCell x cell l)[x]? = some d ∧ d.width ≠ 0 := by
  have hm : ((unpair x l).set x cell)[x]? = some cell := List.getElem?_set_self (by rw [unpair_length]; exact hx)
  unfold writeCell
  dsimp only
  split
  · rw [List.getElem?_set_ne (by omega)]
    -- a second half left over in the next column takes the new cell with it
    by_cases hpair : InPair ((unpair x l).set x cell) (x + 1) x
    · exact ⟨{}, unpair_inPair hpair (by rw [List.length_set, unpair_length]; exact hx), by decide⟩
    · exact ⟨cell, (unpair_keeps hpair).trans hm, h0⟩
  · exact ⟨cell, hm, h0⟩

theorem writeCell_wide (hx : x + 1 < l.length) (hw : cell.width = 2) :
    (writeCell x cell l)[x + 1]? = some cell.continuation := by
  unfold writeCell
  dsimp only
  rw [if_pos ⟨hw, hx⟩, List.getElem?_set_self]
  rwa [unpair_length, List.length_set, unpair_length]

/-- A second half after column `x` that does not belong to a first half there. -/
def StrayAfter (l : List Cell) (x : Nat) : Prop :=
  ∃ a b, l[x]? = some a ∧ a.width ≠ 2 ∧ l[x + 1]? = some b ∧ b.width = 0

theorem writeCell_narrow (hx : x + 1 < l.length) (hw : cell.width ≠ 2) :
    (writeCell x cell l)[x + 1]?.map (·.width) = some 0 ↔ StrayAfter l x := by
  have ha : l[x]? = some l[x] := List.getElem?_eq_getElem (by omega)
  have hb : l[x + 1]? = some l[x + 1] := List.getElem?_eq_getElem hx
  have hset : (writeCell x cell l)[x + 1]? = (unpair x l)[x + 1]? := by
    unfold writeCell
    dsimp only
    rw [if_neg fun h => hw h.1, List.getElem?_set_ne (by omega)]
  rw [hset]
  by_cases h2 : l[x].width = 2
  · rw [unpair_otherHalf ⟨_, ha, .inl ⟨h2, rfl⟩⟩ hx]
    refine iff_of_false (by decide) ?_
    rintro ⟨a, b, ha', hne, -⟩
    rw [ha, Option.some.injEq] at ha'
    exact hne (ha' ▸ h2)
  · have hkeep : (unpair x l)[x + 1]? = l[x + 1]? := by
      refine unpair_other (by omega) ?_
      rintro ⟨c, hc, ⟨hc2, -⟩ | ⟨-, hx'⟩⟩
      · rw [ha, Option.some.injEq] at hc
        exact h2 (hc ▸ hc2)
      · omega
    rw [hkeep, hb, Option.map_some, Option.some.injEq]
    constructor
    · intro h0
      exact ⟨_, _, ha, h2, hb, h0⟩
    · rintro ⟨-, b, -, -, hb', h0⟩
      rw [hb, Option.some.injEq] at hb'
      exact hb' ▸ h0

end Cells

namespace Screen

variable {s s' : Screen} {x y : Nat} {m : Char} {row : Row}

/-! ## Adding a mark -/

/-- `m` has been added to the marks of column `x` in row `y`, and nothing else
has changed in the rows. -/
def MarkAdded (x y : Nat) (m : Char) (s s' : Screen) : Prop :=
  (∃ row row', s.grid.HasRow y row ∧ s'.grid.HasRow y row' ∧ row'.cells = row.cells ∧
    ∀ c, row'.marks c = if c = x then row.marks c ++ [m] else row.marks c) ∧
  ∀ z r, z ≠ y → (s'.grid.HasRow z r ↔ s.grid.HasRow z r)

theorem markAdded_pushCombining (hrow : s.grid.HasRow y row) (x : Nat) (m : Char) :
    MarkAdded x y m s (s.onGrid (·.putRow y (row.pushCombining x m))) :=
  ⟨⟨row, _, hrow, hrow.putRow, rfl, row.marks_pushCombining x m⟩, fun _ _ hz => Grid.HasRow.putRow_ne hz _⟩

/-- A column that has kept its marks has not received one. -/
theorem not_markAdded {row' : Row} (hrow : s.grid.HasRow y row) (hrow' : s'.grid.HasRow y row')
    (h : row'.marks x = row.marks x) : ¬ MarkAdded x y m s s' := by
  rintro ⟨⟨r, r', hr, hr', -, hmarks⟩, -⟩
  obtain rfl := hrow.unique hr
  obtain rfl := hrow'.unique hr'
  have hx := hmarks x
  rw [if_pos rfl, h] at hx
  exact absurd (congrArg List.length hx) (by simp)

/-- A mark goes to the base of the column worked out for it. -/
theorem handleCombiningMark_added_iff (h : s.Inv) (hrow : s.grid.HasRow s.grid.cursorY row) (hroom : row.combiningLen x < maxCombining)
    (m : Char) : ∃ s', s.handleCombiningMark m = some s' ∧
      (MarkAdded x s.grid.cursorY m s s' ↔ s.markColumn.map row.baseColumn = some x) := by
  cases hcol : s.markColumn with
  | none => exact ⟨s, handleCombiningMark_none h hcol m, iff_of_false (not_markAdded hrow hrow rfl) (by simp)⟩
  | some tx =>
    refine ⟨_, handleCombiningMark_some h hrow hcol m, ?_⟩
    rw [Option.map_some, Option.some.injEq]
    by_cases hbase : row.baseColumn tx = x
    · refine iff_of_true ?_ hbase
      rw [hbase, if_pos hroom]
      exact markAdded_pushCombining hrow x m
    · refine iff_of_false ?_ hbase
      split
      · refine not_markAdded hrow hrow.putRow ?_
        rw [row.marks_pushCombining, if_neg (Ne.symm hbase)]
      · exact not_markAdded hrow hrow rfl

theorem print_mark_iff (W : UnicodeWidth) (h : s.Inv) (hy : s.grid.cursorY = y) (hrow : s.grid.HasRow y row)
    (hbare : row.marks x = []) (hm : W.charWidth (s.mapCharset m) = 0) : ∃ s', s.print W m = some s' ∧
      (MarkAdded x y (s.mapCharset m) s s' ↔ s.markColumn.map row.baseColumn = some x) := by
  subst hy
  have hroom : row.combiningLen x < maxCombining := by
    rw [Row.combiningLen, hbare]
    decide
  rw [print_eq, if_pos hm]
  exact handleCombiningMark_added_iff (s := s.noted m) (noted_inv h m) hrow hroom _

/-! ## Where a character is put -/

/-- The row that a line feed goes to. -/
def lineBelow (s : Screen) : Nat :=
  if s.grid.cursorY = s.grid.scrollBottom then s.grid.cursorY
  else if s.grid.cursorY + 1 < s.grid.rows then s.grid.cursorY + 1 else s.grid.cursorY

/-- A character of `width` columns goes to the next line. -/
def Wraps (s : Screen) (width : Nat) : Prop := s.grid.modes.autowrapMode = true ∧
  (s.grid.wrapPending = true ∨ width = 2 ∧ s.grid.cols ≤ s.grid.cursorX + 1)

instance decidableWraps (s : Screen) (width : Nat) : Decidable (s.Wraps width) :=
  inferInstanceAs (Decidable (s.grid.modes.autowrapMode = true ∧
    (s.grid.wrapPending = true ∨ width = 2 ∧ s.grid.cols ≤ s.grid.cursorX + 1)))

/-- The column and row that a character of `width` columns is written to. -/
def baseCell (s : Screen) (width : Nat) : Nat × Nat :=
  if s.Wraps width then (0, s.lineBelow) else (s.grid.cursorX, s.grid.cursorY)

/-- There is a cell for a character of `width` columns. -/
def HasCell (s : Screen) (width : Nat) : Prop := width = 2 → 2 ≤ s.grid.cols ∧
  (s.grid.modes.autowrapMode = true ∨ s.grid.cursorX + 1 < s.grid.cols)

theorem advanceLine_line (h : s.Inv) (hs : s.advanceLine = some s') : s'.grid.cursorY = s.lineBelow ∧
    s'.grid.wrapPending = s.grid.wrapPending ∧ s'.grid.modes = s.grid.modes := by
  have hrows := h.shape.rows_pos
  rw [advanceLine] at hs
  unfold lineBelow
  split at hs
  next hbottom =>
    rw [if_pos hbottom]
    have hscroll : Does (· = .other) s s.scrollUp := scrollUp_does rfl h
    have hsteps := hscroll.leads s' hs
    refine hsteps.keeps (P := fun t => t.grid.cursorY = s.grid.cursorY ∧ t.grid.wrapPending = s.grid.wrapPending ∧
      t.grid.modes = s.grid.modes) (fun _ _ _ hk he ht => ?_) ⟨rfl, rfl, rfl⟩
    obtain ⟨-, hy, hpending⟩ := he.still hk
    exact ⟨hy.trans ht.1, hpending.trans ht.2.1, (he.display (.inl hk)).1.trans ht.2.2⟩
  next hbottom =>
    rw [if_neg hbottom]
    simp only [h.bottom, Option.bind_eq_bind, Option.bind_some] at hs
    split at hs
    next hlt =>
      rw [if_pos (by omega)]
      obtain ⟨y, hy, hs⟩ := Option.bind_eq_some_iff.1 hs
      obtain rfl := Option.some.inj hs
      rw [add16_eq (by have := h.shape.rows_le; omega), Option.some.injEq] at hy
      exact ⟨hy.symm, rfl, rfl⟩
    next hlt =>
      rw [if_neg (by omega)]
      obtain rfl := Option.some.inj hs
      exact ⟨rfl, rfl, rfl⟩

theorem performDeferredWrap_line (h : s.Inv) (hs : s.performDeferredWrap = some s') : s'.grid.cursorY = s.lineBelow ∧
    s'.grid.wrapPending = false ∧ s'.grid.modes = s.grid.modes :=
  advanceLine_line (s := s.onGrid fun g => (g.setWrapPending false).setCursorX 0)
    ((Effect.cursor 0 s.grid.cursorY false h.shape.cols_pos h.shape.cursor_y).inv h) hs

/-- `t` is `s` when it comes to putting the character. -/
structure Placed (s : Screen) (c : Char) (width : Nat) (t : Screen) : Prop where
  inv : t.Inv
  base : (t.grid.cursorX, t.grid.cursorY) = s.baseCell width
  cols : t.grid.cols = s.grid.cols
  modes : t.grid.modes = s.grid.modes
  wrapped : s.grid.modes.autowrapMode = true → t.grid.wrapPending = false
  stayed : s.grid.modes.autowrapMode = false → t = s.noted c

/-- After the wrap the character is put at the start of the line. -/
theorem placed_of_wrap (c : Char) {width : Nat} (hwraps : s.Wraps width) {t t' : Screen} (ht : t.Inv)
    (hgrid : t.grid.modes = s.grid.modes ∧ t.grid.cols = s.grid.cols ∧ t.lineBelow = s.lineBelow)
    (hs : t.performDeferredWrap = some t') : Placed s c width t' := by
  have hwrap : Does (fun _ => True) t t.performDeferredWrap := performDeferredWrap_does trivial trivial ht
  obtain ⟨hx, hcols⟩ := performDeferredWrap_cursor ht hs
  obtain ⟨hy, hpending, hmodes⟩ := performDeferredWrap_line ht hs
  refine ⟨steps_inv (hwrap.leads t' hs) ht, ?_, hcols.trans hgrid.2.1, hmodes.trans hgrid.1, fun _ => hpending, fun hoff => ?_⟩
  · rw [hx, hy, hgrid.2.2, baseCell, if_pos hwraps]
  · rw [hwraps.1] at hoff
    cases hoff

variable (W : UnicodeWidth)

/-- A character with a cell is put there. -/
theorem print_placed (h : s.Inv) {c : Char} {width : Nat} (hwidth : W.charWidth (s.mapCharset c) = width) (h0 : width ≠ 0)
    (hroom : s.HasCell width) : ∃ t, Placed s c width t ∧ s.print W c = t.putChar (s.mapCharset c) width := by
  have h₁ := noted_inv h c
  rw [print_stages W h (by rw [hwidth]; exact h0), hwidth]
  by_cases hpending : s.grid.wrapPending = true ∧ s.grid.modes.autowrapMode = true
  · obtain ⟨t, ht, -⟩ : Does (fun _ => True) (s.noted c) (s.noted c).performDeferredWrap :=
      performDeferredWrap_does trivial trivial h₁
    have hplaced : Placed s c width t := placed_of_wrap c ⟨hpending.2, .inl hpending.1⟩ h₁ ⟨rfl, rfl, rfl⟩ ht
    refine ⟨t, hplaced, ?_⟩
    rw [if_pos hpending, ht, Option.bind_some, if_neg]
    rintro ⟨h2, hend⟩
    rw [hplaced.cols, (performDeferredWrap_cursor h₁ ht).1] at hend
    have := (hroom h2).1
    omega
  rw [if_neg hpending, Option.bind_some]
  by_cases hmargin : width = 2 ∧ s.grid.cols ≤ s.grid.cursorX + 1
  · obtain ⟨hcols, hon⟩ := hroom hmargin.1
    have hauto : s.grid.modes.autowrapMode = true := hon.resolve_right (by omega)
    obtain ⟨row, hrow, -⟩ := h₁.shape.hasRow h₁.shape.cursor_y
    obtain ⟨id, table, hblank⟩ := blankMargin_eq h₁ hrow
    have hdoes : Does (fun _ => True) (s.noted c) (s.noted c).blankMargin := blankMargin_does trivial h₁ hmargin.2 fun _ _ _ => trivial
    have h₂ := steps_inv (hdoes.leads _ hblank) h₁
    obtain ⟨t, ht, -⟩ : Does (fun _ => True) _ _ := performDeferredWrap_does trivial trivial h₂
    refine ⟨t, placed_of_wrap c ⟨hauto, .inr hmargin⟩ h₂ ⟨rfl, rfl, rfl⟩ ht, ?_⟩
    rw [noted_grid, if_pos hmargin, if_pos ⟨hauto, hcols⟩, hblank, Option.bind_some, ht, Option.bind_some]
  · have hwraps : ¬ s.Wraps width := fun ⟨hauto, hw⟩ => hw.elim (fun hp => hpending ⟨hp, hauto⟩) hmargin
    refine ⟨s.noted c, ⟨h₁, ?_, rfl, rfl, fun hauto => ?_, fun _ => rfl⟩, if_neg hmargin⟩
    · rw [baseCell, if_neg hwraps]
      rfl
    · rw [noted_grid]
      exact Bool.eq_false_iff.2 fun hp => hpending ⟨hp, hauto⟩

/-! ## The column of the next mark -/

/-- The column past a character of `width` columns just put, if there is one. -/
theorem markColumn_passed {t : Screen} {width : Nat} (h0 : 0 < width) {g : Grid} (hg : g.cursorX = t.grid.cursorX ∧
    g.cols = t.grid.cols ∧ g.wrapPending = t.grid.wrapPending ∧ g.modes = t.grid.modes) :
    (t.onGrid fun _ => passed width g).markColumn =
      if t.grid.cursorX + width < t.grid.cols then
        some (if t.grid.wrapPending = true then t.grid.cursorX + width else t.grid.cursorX + width - 1)
      else if t.grid.wrapPending = true ∨ t.grid.modes.autowrapMode = true then some (t.grid.cols - 1)
      else if 1 < t.grid.cols then some (t.grid.cols - 2) else none := by
  obtain ⟨hgx, hcols, hpending, hmodes⟩ := hg
  unfold markColumn passed
  dsimp only [onGrid]
  rw [hgx, hcols, hmodes]
  by_cases hfit : t.grid.cursorX + width < t.grid.cols
  · rw [if_pos hfit, if_pos hfit]
    change (if g.wrapPending = true then _ else _) = _
    rw [hpending]
    split
    · rfl
    · exact if_pos (Nat.lt_of_lt_of_le h0 (Nat.le_add_left _ _))
  rw [if_neg hfit, if_neg hfit]
  by_cases hauto : t.grid.modes.autowrapMode = true
  · rw [if_pos hauto, if_pos (.inr hauto)]
    rfl
  rw [if_neg hauto]
  change (if g.wrapPending = true then _ else _) = _
  rw [hpending]
  by_cases hp : t.grid.wrapPending = true
  · rw [if_pos hp, if_pos (.inl hp)]
    rfl
  rw [if_neg hp, if_neg (by tauto)]
  by_cases hone : 1 < t.grid.cols
  · rw [if_pos hone]
    exact if_pos (Nat.sub_pos_of_lt hone)
  · rw [if_neg hone]
    exact if_neg (by simp only [Grid.setCursorX]; omega)

/-- The marks after a character of `width` columns go to it. With autowrap off
the wrap pending in the last column is not the character's own: it is set or
not from before. -/
def KeepsMarks (s : Screen) (width : Nat) : Prop := s.grid.modes.autowrapMode = true ∨
  (if s.grid.wrapPending = true
    then s.grid.cols ≤ s.grid.cursorX + width ∨
      width = 1 ∧ ∃ row, s.grid.HasRow s.grid.cursorY row ∧ StrayAfter row.cells s.grid.cursorX
    else width = 2 ∨ s.grid.cursorX + 1 < s.grid.cols)

section

variable {x : Nat} {cell : Cell}

theorem baseColumn_written (hx : x < row.cells.length) (h0 : cell.width ≠ 0) : (row.written x cell).baseColumn x = x := by
  obtain ⟨d, hd, hd0⟩ : ∃ d, (writeCell x cell row.cells)[x]? = some d ∧ d.width ≠ 0 := writeCell_at hx h0
  exact Row.baseColumn_self (by rw [Row.written_cells]; exact hd) hd0

theorem baseColumn_written_wide (hx : x + 1 < row.cells.length) (h2 : cell.width = 2) :
    (row.written x cell).baseColumn (x + 1) = x := by
  rw [Row.baseColumn_succ_iff, Row.written_cells, writeCell_wide hx h2]
  rfl

theorem baseColumn_written_narrow (hx : x + 1 < row.cells.length) (h2 : cell.width ≠ 2) :
    (row.written x cell).baseColumn (x + 1) = x ↔ StrayAfter row.cells x := by
  rw [Row.baseColumn_succ_iff, Row.written_cells, writeCell_narrow hx h2]

end

/-- The mark after the pending wrap of a restored cursor goes one column on. -/
theorem baseColumn_pending_iff {t : Screen} {width : Nat} (hw : width = 1 ∨ width = 2) (hrow : t.grid.HasRow t.grid.cursorY row)
    (hlen : row.cells.length = t.grid.cols) (hroom : t.grid.cursorX + width < t.grid.cols)
    (hauto : ¬ t.grid.modes.autowrapMode = true) (hp : t.grid.wrapPending = true) {cell : Cell} (hcell : cell.width = width) :
    (row.written t.grid.cursorX cell).baseColumn (t.grid.cursorX + width) = t.grid.cursorX ↔ t.KeepsMarks width := by
  unfold KeepsMarks
  rw [if_pos hp]
  rcases hw with rfl | rfl
  · rw [baseColumn_written_narrow (by omega) (by omega)]
    constructor
    · intro hstray
      exact .inr (.inr ⟨rfl, row, hrow, hstray⟩)
    · rintro (hon | hend | ⟨-, row', hrow', hstray⟩)
      · exact absurd hon hauto
      · omega
      · rwa [hrow.unique hrow']
  · -- two columns on is past the wide character
    have := ((row.written t.grid.cursorX cell).baseColumn_le (t.grid.cursorX + 2)).2
    refine iff_of_false (by omega) ?_
    rintro (hon | hend | ⟨h1, -⟩)
    · exact hauto hon
    · omega
    · omega

/-- The base of the next mark against the column of the character just put. -/
theorem baseColumn_passed_iff {t : Screen} {width : Nat} (hw : width = 1 ∨ width = 2) (h : t.Inv)
    (hrow : t.grid.HasRow t.grid.cursorY row) (hfit : width = 2 → t.grid.cursorX + 1 < t.grid.cols)
    (hwrapped : t.grid.modes.autowrapMode = true → t.grid.wrapPending = false) (cell : Cell) (hcell : cell.width = width) (g : Grid)
    (hg : g.cursorX = t.grid.cursorX ∧ g.cols = t.grid.cols ∧ g.wrapPending = t.grid.wrapPending ∧ g.modes = t.grid.modes) :
    (t.onGrid fun _ => passed width g).markColumn.map (row.written t.grid.cursorX cell).baseColumn = some t.grid.cursorX ↔
      t.KeepsMarks width := by
  have hx := h.shape.cursor_x
  have hlen := h.shape.row_len row hrow.mem
  have hself : (row.written t.grid.cursorX cell).baseColumn t.grid.cursorX = t.grid.cursorX :=
    baseColumn_written (by omega) (by omega)
  have hlast : (row.written t.grid.cursorX cell).baseColumn (t.grid.cursorX + width - 1) = t.grid.cursorX := by
    rcases hw with rfl | rfl
    · exact hself
    · exact baseColumn_written_wide (by rw [hlen]; exact hfit rfl) hcell
  rw [markColumn_passed (by omega) hg]
  by_cases hroom : t.grid.cursorX + width < t.grid.cols
  · rw [if_pos hroom, Option.map_some, Option.some.injEq]
    by_cases hp : t.grid.wrapPending = true
    · have hauto : ¬ t.grid.modes.autowrapMode = true := fun hauto => by
        rw [hwrapped hauto] at hp
        cases hp
      rw [if_pos hp]
      exact baseColumn_pending_iff hw hrow hlen hroom hauto hp hcell
    · rw [if_neg hp, KeepsMarks, if_neg hp]
      exact iff_of_true hlast (.inr (by omega))
  rw [if_neg hroom]
  have hend : t.grid.cursorX + width = t.grid.cols := by
    rcases hw with rfl | rfl
    · omega
    · have := hfit rfl
      omega
  by_cases hwrap : t.grid.wrapPending = true ∨ t.grid.modes.autowrapMode = true
  · rw [if_pos hwrap, Option.map_some, Option.some.injEq, ← hend]
    refine iff_of_true hlast ?_
    rcases hwrap with hp | hauto
    · rw [KeepsMarks, if_pos hp]
      exact .inr (.inl (Nat.not_lt.1 hroom))
    · exact .inl hauto
  · obtain ⟨hp, hauto⟩ := not_or.1 hwrap
    rw [if_neg hwrap, KeepsMarks, if_neg hp]
    rcases hw with rfl | rfl
    · -- the cursor stays on the character, and the mark goes before it
      refine iff_of_false ?_ (fun h => h.elim hauto (by omega))
      split
      · have := ((row.written t.grid.cursorX cell).baseColumn_le (t.grid.cols - 2)).1
        rw [Option.map_some, Option.some.injEq]
        omega
      · simp
    · rw [if_pos (show 1 < t.grid.cols by omega), Option.map_some, ← hend, Nat.add_sub_cancel, hself]
      exact iff_of_true rfl (.inr (.inl rfl))

/-- A wide character without a cell leaves no more than the pending wrap. -/
theorem print_without_cell (h : s.Inv) {c : Char} (hwidth : W.charWidth (s.mapCharset c) = 2) (hroom : ¬ s.HasCell 2) :
    s.print W c = if s.grid.wrapPending = true ∧ s.grid.modes.autowrapMode = true
      then (s.noted c).performDeferredWrap else some (s.noted c) := by
  have h₁ := noted_inv h c
  have hcols := h.shape.cols_pos
  have hno : ¬ (2 ≤ s.grid.cols ∧ (s.grid.modes.autowrapMode = true ∨ s.grid.cursorX + 1 < s.grid.cols)) :=
    fun hyes => hroom fun _ => hyes
  have hskip : ∀ t : Screen, t.grid.cols = s.grid.cols → t.grid.modes = s.grid.modes →
      (if t.grid.modes.autowrapMode = true ∧ 2 ≤ t.grid.cols then
        t.blankMargin.bind fun t => t.performDeferredWrap.bind fun t => t.putChar (s.mapCharset c) 2 else some t) = some t := by
    intro t htcols htmodes
    rw [htcols, htmodes, if_neg fun hyes => hno ⟨hyes.2, .inl hyes.1⟩]
  rw [print_stages W h (by rw [hwidth]; decide), hwidth]
  split
  next hwrap =>
    obtain ⟨t, ht, -⟩ : Does (fun _ => True) (s.noted c) (s.noted c).performDeferredWrap :=
      performDeferredWrap_does trivial trivial h₁
    have htcols := (performDeferredWrap_cursor h₁ ht).2
    have hone : ¬ 2 ≤ s.grid.cols := fun h2 => hno ⟨h2, .inl hwrap.2⟩
    have hend : t.grid.cols ≤ t.grid.cursorX + 1 := by
      rw [htcols, noted_grid]
      omega
    rw [ht, Option.bind_some, if_pos ⟨rfl, hend⟩, hskip t htcols (performDeferredWrap_line h₁ ht).2.2]
  next =>
    have hend : s.grid.cols ≤ s.grid.cursorX + 1 := by
      by_cases h2 : 2 ≤ s.grid.cols
      · exact Nat.not_lt.1 fun hlt => hno ⟨h2, .inr hlt⟩
      · omega
    rw [Option.bind_some, if_pos ⟨rfl, hend⟩, hskip (s.noted c) rfl rfl]

/-- A mark after a character that has a cell. The character has no marks of its
own, so there is room for it. -/
theorem mark_added_of_cell (h : s.Inv) {c : Char} {width : Nat} (hwidth : W.charWidth (s.mapCharset c) = width)
    (hw : width = 1 ∨ width = 2) (hroom : s.HasCell width) :
    ∃ s' : Screen, ∃ row : Row, ∃ id : StyleId, s.print W c = some s' ∧
      s'.grid.HasRow (s.baseCell width).2 (row.written (s.baseCell width).1 { c := s.mapCharset c, styleId := id, width }) ∧
      ∀ m, W.charWidth (s'.mapCharset m) = 0 → ∃ s'', s'.print W m = some s'' ∧
        (MarkAdded (s.baseCell width).1 (s.baseCell width).2 (s'.mapCharset m) s' s'' ↔ s.KeepsMarks width) := by
  obtain ⟨t, hplaced, hprint⟩ := print_placed W h hwidth (by omega) hroom
  have ht := hplaced.inv
  have hx := ht.shape.cursor_x
  have hcols := ht.shape.cols_le
  have hfit : width = 2 → t.grid.cursorX + 1 < t.grid.cols := by
    intro h2
    have hbase := congrArg Prod.fst hplaced.base
    obtain ⟨h2cols, hon⟩ := hroom h2
    rw [show t.grid.cursorX = (s.baseCell width).1 from hbase, hplaced.cols, baseCell]
    split
    · exact h2cols
    next hwraps =>
      rcases hon with hauto | hlt
      · exact Nat.not_le.1 fun hend => hwraps ⟨hauto, .inr ⟨h2, hend⟩⟩
      · exact hlt
  have hmodes : t.grid.modes.autowrapMode = s.grid.modes.autowrapMode := by rw [hplaced.modes]
  have hkeeps : t.KeepsMarks width ↔ s.KeepsMarks width := by
    cases hauto : s.grid.modes.autowrapMode with
    | true => exact iff_of_true (.inl (hmodes.trans hauto)) (.inl hauto)
    | false => rw [hplaced.stayed hauto]; rfl
  obtain ⟨row, hrow, hlen⟩ := ht.shape.hasRow ht.shape.cursor_y
  obtain ⟨id, table, hint, hsteps, -⟩ : ∃ id table, t.internWithGc t.state.currentStyle = some (id, t.onGrid (·.setStyleTable table)) ∧
      Steps Effect (fun _ => True) t (t.onGrid (·.setStyleTable table)) ∧ table.Held id := internWithGc_spec trivial ht _
  have hput := putChar_eq (c := s.mapCharset c) ht hint hrow (show t.grid.cursorX + width ≤ 65535 by omega)
  have hbase := baseColumn_passed_iff hw ht hrow hfit (fun hauto => hplaced.wrapped (hmodes ▸ hauto))
    { c := s.mapCharset c, styleId := id, width } rfl
    ((t.grid.setStyleTable table).putRow t.grid.cursorY (row.written t.grid.cursorX { c := s.mapCharset c, styleId := id, width }))
    ⟨rfl, rfl, rfl, rfl⟩
  rw [hkeeps] at hbase
  have hprinted := hprint.trans hput
  have hleads : Leads Effect (fun _ => True) s (s.print W c) :=
    print_leads W trivial trivial h c (fun _ => trivial) (fun _ => trivial)
  have hinv := steps_inv (hleads _ hprinted) h
  rw [← hplaced.base]
  refine ⟨_, row, id, hprinted, passed_hasRow width hrow.putRow, ?_⟩
  intro m hm
  have hbare : (row.written t.grid.cursorX { c := s.mapCharset c, styleId := id, width }).marks t.grid.cursorX = [] := by
    rw [row.written_marks, if_pos (.inl rfl)]
  obtain ⟨s'', hs'', hadded⟩ := print_mark_iff W hinv (y := t.grid.cursorY) (passed_cursorY width _)
    (passed_hasRow width hrow.putRow) hbare hm
  exact ⟨s'', hs'', hadded.trans hbase⟩

/-! ## The theorem -/

/-- A character that has a cell is written there, and a mark after it goes to it
exactly in these states. A character without a cell leaves no more than the
pending wrap. -/
theorem mark_added_iff (h : s.Inv) {c : Char} {width : Nat} (hwidth : W.charWidth (s.mapCharset c) = width)
    (hw : width = 1 ∨ width = 2) :
    (s.HasCell width → ∃ s' : Screen, ∃ row : Row, ∃ id : StyleId, s.print W c = some s' ∧
      s'.grid.HasRow (s.baseCell width).2 (row.written (s.baseCell width).1 { c := s.mapCharset c, styleId := id, width }) ∧
      ∀ m, W.charWidth (s'.mapCharset m) = 0 → ∃ s'', s'.print W m = some s'' ∧
        (MarkAdded (s.baseCell width).1 (s.baseCell width).2 (s'.mapCharset m) s' s'' ↔ s.KeepsMarks width)) ∧
    (¬ s.HasCell width → s.print W c = if s.grid.wrapPending = true ∧ s.grid.modes.autowrapMode = true
      then (s.noted c).performDeferredWrap else some (s.noted c)) := by
  refine ⟨mark_added_of_cell W h hwidth hw, ?_⟩
  intro hroom
  rcases hw with rfl | rfl
  · exact absurd (fun h2 => by cases h2) hroom
  · exact print_without_cell W h hwidth hroom

theorem mark_added_sample : ∃ s' row, ∃ id : StyleId, (Screen.new 3 1 10).print .sample '世' = some s' ∧
    s'.grid.HasRow 0 (Row.written row 0 { c := '世', styleId := id, width := 2 }) ∧
    ∃ s'', s'.print .sample '\u0301' = some s'' ∧ MarkAdded 0 0 '\u0301' s' s'' := by
  obtain ⟨hcell, -⟩ := mark_added_iff .sample (new_inv 10 (by decide) (by decide) : (Screen.new 3 1 10).Inv)
    (show UnicodeWidth.sample.charWidth ((Screen.new 3 1 10).mapCharset '世') = 2 by decide) (.inr rfl)
  obtain ⟨s', row, id, hs', hrow, hmark⟩ := hcell fun _ => by decide
  obtain ⟨t, ht, hmap⟩ : ∃ t, (Screen.new 3 1 10).print .sample '世' = some t ∧ t.mapCharset '\u0301' = '\u0301' := ⟨_, rfl, rfl⟩
  rw [ht, Option.some.injEq] at hs'
  subst hs'
  obtain ⟨s'', hs'', hadded⟩ := hmark '\u0301' (by rw [hmap]; decide)
  rw [hmap] at hadded
  exact ⟨t, row, id, ht, hrow, s'', hs'', hadded.2 (.inl rfl)⟩

/-- With autowrap off, a mark after a character in the last column goes to the
one before. -/
theorem mark_misplaced : ∃ s s', (Screen.new 3 1 10).run .sample [.callback (.csi [[7]] ['?'] 'l'),
    .callback (.print 'a'), .callback (.print 'b'), .callback (.print 'c')] = some s ∧
    s.step .sample (.print '\u0301') = some s' ∧
    s.grid.visibleRows.map (fun row => (row.cells.map (·.c), row.combining)) = [(['a', 'b', 'c'], [])] ∧
    s'.grid.visibleRows.map (fun row => (row.cells.map (·.c), row.combining)) = [(['a', 'b', 'c'], [(1, ['\u0301'])])] :=
  ⟨_, _, rfl, rfl, by decide, by decide⟩

end Screen

end Retach
