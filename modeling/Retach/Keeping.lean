import Retach.Performer
/-!
# What handlers keep

Handlers change rows, grids and screens through a few updates each. What all of
these keep is kept by the handlers, whether or not the screen is well-shaped.
`C` says which cells are written.
-/

open Checked

namespace Retach

/-! ## Rows -/

/-- Default cells are written, and both halves of those that are wide. -/
structure Cell.Written (C : Cell → Prop) : Prop where
  default : C {}
  second : ∀ cell, C cell → cell.width = 2 → C { c := '\x00', styleId := cell.styleId, width := 0 }

theorem Cell.written_any : Cell.Written fun _ => True := ⟨trivial, fun _ _ _ => trivial⟩

/-- What the code does to one row keeps `P`. -/
structure Row.Invariant (C : Cell → Prop) (P : Row → Prop) : Prop where
  filled : ∀ cols fill, C fill → cols ≤ 65535 → P (.filled cols fill)
  set : ∀ row x cell, C cell → P row → Ends P (row.set x cell)
  retain : ∀ row p, P row → P (row.retain p)
  blanked : ∀ row blank, C blank → P row → P { row with cells := row.cells.map fun _ => blank }.clearAllCombining
  resize : ∀ row cols, C {} → P row → cols ≤ 65535 → P (row.resize cols {})
  deleteCell : ∀ row x blank, C blank → P row → Ends P (Screen.deleteCell x blank row)
  insertCell : ∀ row x blank, C blank → P row → Ends P (Screen.insertCell x blank row)
  pushCombining : ∀ row x m, P row → x < row.cells.length → row.combiningLen x < maxCombining → P (row.pushCombining x m)

/-- A change of a row that does nothing else. -/
def Row.Change (C : Cell → Prop) (f : Row → Option Row) : Prop := ∀ P, Row.Invariant C P → ∀ row, P row → Ends P (f row)

namespace Row.Change

variable {C : Cell → Prop} {cell : Cell}

theorem set (hcell : C cell) (x : Nat) : Change C (·.set x cell) := fun _ hP row h => hP.set row x cell hcell h

theorem replace (hcell : C cell) (x : Nat) : Change C fun row => do
    let row ← row.set x cell
    return row.clearCombining x := fun _ hP row h =>
  .bind (hP.set row x cell hcell h) fun _ hrow => .pure (hP.retain _ _ hrow)

theorem erase {blank : Cell} (hblank : C blank) (lo hi : Nat) : Change C fun row => do
    let row ← iterFrom (fun i row => Row.set row i blank) lo (hi - lo) row
    return row.clearCombiningRange lo hi := fun _ hP _ h =>
  .bind (.iterFrom (fun i _ hrow => hP.set _ i blank hblank hrow) _ _ h) fun _ hrow => .pure (hP.retain _ _ hrow)

theorem blanked {blank : Cell} (hblank : C blank) : Change C fun row => some { row with cells := row.cells.map fun _ => blank }.clearAllCombining :=
  fun _ hP row h => .pure (hP.blanked row _ hblank h)

theorem deleteCell {blank : Cell} (hblank : C blank) (x : Nat) : Change C (Screen.deleteCell x blank) :=
  fun _ hP row h => hP.deleteCell row x blank hblank h

theorem insertCell {blank : Cell} (hblank : C blank) (x : Nat) : Change C (Screen.insertCell x blank) :=
  fun _ hP row h => hP.insertCell row x blank hblank h

variable (hC : Cell.Written C)

include hC

theorem fixWideCharOrphanAtBoundary (cols : Nat) : Change C (·.fixWideCharOrphanAtBoundary cols) := by
  intro P hP row h
  change Ends P (row.fixWideCharOrphanAtBoundary cols)
  unfold Row.fixWideCharOrphanAtBoundary
  split
  · exact .pure h
  · refine .after fun cell => ?_
    split
    · exact hP.set _ _ _ hC.default h
    · split
      · exact .bind (hP.set _ _ _ hC.default h) fun row hrow => hP.set _ _ _ hC.default hrow
      · exact .pure h

theorem fitRow {cols : Nat} (hcols : cols ≤ 65535) : Change C (Grid.fitRow cols) := fun P hP row h =>
  .bind (fixWideCharOrphanAtBoundary hC cols P hP row h) fun _ hrow => .pure (hP.resize _ cols hC.default hrow hcols)

end Row.Change

/-! ## Grids -/

/-- What painting does to a grid keeps `Q`. -/
structure Grid.Stable (C : Cell → Prop) (Q : Grid → Prop) : Prop where
  cursorX : ∀ g x, Q g → Q (g.setCursorX x)
  wrapPending : ∀ g w, Q g → Q (g.setWrapPending w)
  change : ∀ g y f, Row.Change C f → Q g → Ends Q (g.visibleRowMut y f)
  mark : ∀ g y row x m, g.visibleRow y = some row → x < row.cells.length → row.combiningLen x < maxCombining → Q g →
    Q (g.putRow y (row.pushCombining x m))
  /-- rows move, and there are blank ones -/
  rows : ∀ g rows, (∀ row ∈ rows, row ∈ g.cells ∨ ∃ fill, C fill ∧ row = g.newBlankRow fill) → Q g → Q { g with cells := rows }
  boundary : ∀ g len start, Q g → Q { g with scrollbackLen := len, pendingStart := start }

namespace Grid

variable {C : Cell → Prop} {Q : Grid → Prop} (hQ : Grid.Stable C Q) {g : Grid} {cell fill blank : Cell}

theorem checkInvariants_ends (h : Q g) : Ends Q g.checkInvariants := .after fun _ => .after fun _ => .pure h

include hQ

theorem Stable.subset (h : Q g) {rows : List Row} (hsub : rows ⊆ g.cells) : Q { g with cells := rows } :=
  hQ.rows g rows (fun _ hrow => .inl (hsub hrow)) h

theorem Stable.append (h : Q g) {rows : List Row} (hsub : rows ⊆ g.cells) (hfill : C fill) :
    Q { g with cells := rows ++ [g.newBlankRow fill] } := by
  apply hQ.rows g _ _ h
  intro row hrow
  rcases List.mem_append.1 hrow with hrow | hrow
  · exact .inl (hsub hrow)
  · exact .inr ⟨fill, hfill, List.mem_singleton.1 hrow⟩

theorem Stable.insertAt (h : Q g) {rows : List Row} (hsub : rows ⊆ g.cells) (i : Nat) (hfill : C fill) :
    Ends (fun rows => Q { g with cells := rows }) (insertAt rows i (g.newBlankRow fill)) := by
  unfold Checked.insertAt
  split
  next hi =>
    apply Ends.pure
    apply hQ.rows g _ _ h
    intro row hrow
    rcases (List.mem_insertIdx hi).1 hrow with rfl | hrow
    · exact .inr ⟨fill, hfill, rfl⟩
    · exact .inl (hsub hrow)
  next => exact fun _ h => by cases h

theorem Stable.set (h : Q g) (x y : Nat) (hcell : C cell) : Ends Q (g.visibleRowMut y (·.set x cell)) :=
  hQ.change g y _ (.set hcell x) h

theorem Stable.clearScrollback (h : Q g) : Ends Q g.clearScrollback :=
  .after fun _ => checkInvariants_ends (hQ.boundary _ 0 0 (hQ.subset h (List.drop_subset _ _)))

theorem Stable.eraseRows (h : Q g) (lo hi : Nat) (hblank : C blank) : Ends Q (g.eraseRows lo hi blank) :=
  .iterFrom (fun y g hg => hQ.change g y _ (.blanked hblank) hg) _ _ h

theorem Stable.scrollUpCapture (h : Q g) (visibleLen : Nat) (hfill : C fill) : Ends Q (g.scrollUpCapture visibleLen fill) := by
  have hcaptured : ∀ g : Grid, Q g → Ends Q (do
      let last ← sub visibleLen 1
      if g.scrollBottom ≥ last then return { g with cells := g.cells ++ [g.newBlankRow fill] }
      else do
        let cells ← Checked.insertAt g.cells (g.scrollbackLen + g.scrollBottom) (g.newBlankRow fill)
        return { g with cells }) := by
    intro g hg
    refine .after fun last => ?_
    split
    · exact .pure (hQ.append hg (List.Subset.refl _) hfill)
    · exact .bind (hQ.insertAt hg (List.Subset.refl _) _ hfill) fun _ hcells => .pure hcells
  have hgrown : Q { g with scrollbackLen := g.scrollbackLen + 1 } := hQ.boundary g _ g.pendingStart h
  unfold Grid.scrollUpCapture
  dsimp only
  split
  · exact hcaptured _ (hQ.boundary _ _ _ (hQ.subset hgrown fun _ => List.mem_of_mem_tail))
  · exact hcaptured _ hgrown

theorem Stable.scrollUpDrop (h : Q g) (visibleLen : Nat) (hfill : C fill) : Ends Q (g.scrollUpDrop visibleLen fill) := by
  refine .after fun last => ?_
  split
  · exact .pure (hQ.append h List.eraseIdx_subset hfill)
  · exact .bind (hQ.insertAt h List.eraseIdx_subset _ hfill) fun _ hcells => .pure hcells

theorem Stable.scrollUp (h : Q g) (inAltScreen : Bool) (hfill : C fill) : Ends Q (g.scrollUp inAltScreen fill) := by
  refine .after fun visibleLen => ?_
  dsimp only
  split
  · exact .bind (hQ.scrollUpCapture h _ hfill) fun g hg => checkInvariants_ends hg
  · split
    · exact .bind (hQ.scrollUpDrop h _ hfill) fun g hg => checkInvariants_ends hg
    · exact .bind (.pure h) fun g hg => checkInvariants_ends hg

theorem Stable.scrollDown (h : Q g) (hfill : C fill) : Ends Q (g.scrollDown fill) := by
  refine .after fun visibleLen => ?_
  dsimp only
  split
  · refine .bind (P := Q) ?_ fun g hg => checkInvariants_ends hg
    intro g' hg'
    obtain ⟨cells, hcells, rfl⟩ := Option.map_eq_some_iff.1 hg'
    exact hQ.insertAt h List.eraseIdx_subset _ hfill cells hcells
  · exact .bind (.pure h) fun g hg => checkInvariants_ends hg

theorem Stable.fixDeleted (h : Q g) (x y : Nat) (hblank : C blank) : Ends Q (Screen.fixDeleted g x y blank) := by
  unfold Screen.fixDeleted
  split
  · refine .after fun _ => .after fun _ => ?_
    split
    · refine .bind (hQ.set h _ _ hblank) fun g hg => ?_
      split
      · refine .after fun _ => .after fun _ => ?_
        split
        · exact hQ.set hg _ _ hblank
        · exact .pure hg
      · exact .pure hg
    · exact .pure h
  · exact .pure h

theorem Stable.fixInserted (h : Q g) (y : Nat) (hblank : C blank) : Ends Q (Screen.fixInserted g y blank) := by
  refine .after fun last => .after fun _ => .after fun _ => ?_
  split
  · exact hQ.set h _ _ hblank
  · split
    · refine .bind (hQ.set h _ _ hblank) fun g hg => ?_
      split
      · refine .after fun _ => .after fun _ => ?_
        split
        · exact hQ.set hg _ _ hblank
        · exact .pure hg
      · exact .pure hg
    · exact .pure h

theorem Stable.moveBlank (h : Q g) (src dst bottom : Nat) (hblank : C blank) : Ends Q (Screen.moveBlank src dst bottom blank g) := by
  unfold Screen.moveBlank
  split
  · have hremove : Ends Q (g.removeVisibleRow src) := .after fun _ => .pure (hQ.subset h List.eraseIdx_subset)
    exact .bind hremove fun g hg => .bind (hQ.insertAt hg (List.Subset.refl _) _ hblank) fun _ hcells => .pure hcells
  · exact .pure h

theorem Stable.fixupWideCharAt (hC : Cell.Written C) (h : Q g) (x y : Nat) : Ends Q (g.fixupWideCharAt x y) := by
  unfold Grid.fixupWideCharAt
  split
  · exact .pure h
  · refine .after fun _ => .after fun _ => ?_
    split
    · dsimp only
      split
      · exact .bind (hQ.set h _ y hC.default) fun g hg => hQ.set hg x y hC.default
      · exact .bind (.pure h) fun g hg => hQ.set hg x y hC.default
    · split
      · exact .bind (hQ.set h _ y hC.default) fun g hg => hQ.set hg x y hC.default
      · exact .pure h

omit hQ in
/-- What happens around wide characters keeps `Q`. -/
structure Mends (C : Cell → Prop) (Q : Grid → Prop) : Prop where
  fixup : ∀ g x y, Q g → Ends Q (g.fixupWideCharAt x y)
  second : ∀ cell, C cell → cell.width = 2 → C { c := '\x00', styleId := cell.styleId, width := 0 }

theorem Stable.mends (hC : Cell.Written C) : Mends C Q := ⟨fun _ x y h => hQ.fixupWideCharAt hC h x y, hC.second⟩

variable (hM : Mends C Q)

include hM

theorem Stable.setCell (h : Q g) (x y : Nat) (hcell : C cell) : Ends Q (g.setCell x y cell) := by
  unfold Grid.setCell
  split
  · exact .pure h
  · refine .bind (hM.fixup g x y h) fun g hg => .bind (hQ.change g y _ (.replace hcell x) hg) fun g hg => ?_
    split
    next hwide =>
      refine .bind (hM.fixup g (x + 1) y hg) fun g hg => ?_
      exact hQ.change g y _ (.replace (hM.second cell hcell hwide.1) (x + 1)) hg
    next => exact .pure hg

theorem Stable.eraseCells (h : Q g) (y lo hi : Nat) (hblank : C blank) : Ends Q (g.eraseCells y lo hi blank) := by
  unfold Grid.eraseCells
  split
  · exact .pure h
  · dsimp only
    split
    · exact .pure h
    · refine .bind (hM.fixup g _ y h) fun g hg => ?_
      split
      · exact .bind (hM.fixup g _ y hg) fun g hg => hQ.change g y _ (.erase hblank _ _) hg
      · exact .bind (.pure hg) fun g hg => hQ.change g y _ (.erase hblank _ _) hg

end Grid

/-! ## Screens -/

/-- The cells that `s` writes in `style`: any in the current style, blank ones
in its background. -/
def Screen.Inks (s : Screen) (style : Style) (c : Char) (width : Nat) : Prop :=
  style = s.state.currentStyle ∨ c = ' ' ∧ width = 1 ∧ style = { bg := s.state.currentStyle.bg }

/-- What painting does to a screen keeps `R`; `wide` says if characters may be
wide. -/
structure Screen.Stable (C : Cell → Prop) (wide : Prop) (R : Screen → Prop) : Prop where
  grid : ∀ s : Screen, Grid.Stable C fun g => R { s with grid := g }
  mends : ∀ s : Screen, Grid.Mends C fun g => R { s with grid := g }
  intern : ∀ (s : Screen) style, R s → Ends (fun p =>
    (∀ c width, width = 1 ∨ wide → s.Inks style c width → C { c, styleId := p.1, width }) ∧ R p.2) (s.internWithGc style)
  scrolledOff : ∀ (s : Screen) rows, R s → R { s with scrolledOff := rows }
  passthrough : ∀ (s : Screen) data, R s → R { s with state := s.state.pushPassthrough data }

/-- So does going to another line. -/
structure Screen.PrintStable (C : Cell → Prop) (wide : Prop) (R : Screen → Prop) : Prop extends Screen.Stable C wide R where
  cursorY : ∀ (s : Screen) y, R s → R (s.onGrid (·.setCursorY y))
  printed : ∀ (s : Screen) c, R s → R { s with state := { s.state with lastPrintedChar := c } }

namespace Screen

/-- A collection leaves every slot its style. -/
theorem compactStyles_table (g : Grid) (saved : Option SavedGrid) :
    ∃ t, compactStyles g saved = g.setStyleTable t ∧ t.get = g.styleTable.get := by
  unfold compactStyles
  split
  · exact ⟨g.styleTable, rfl, rfl⟩
  · exact ⟨_, rfl, rfl⟩

/-- Interning changes the style table only. -/
theorem internWithGc_table {s v : Screen} {style : Style} {id : StyleId} (h : s.internWithGc style = some (id, v)) :
    ∃ t, v = s.onGrid (·.setStyleTable t) := by
  unfold internWithGc at h
  obtain ⟨⟨id₁, t₁⟩, -, h⟩ := Option.bind_eq_some_iff.1 h
  obtain ⟨t₂, hgc, -⟩ := compactStyles_table (s.grid.setStyleTable t₁) s.state.savedGrid
  dsimp only at h
  split at h
  · obtain ⟨⟨id₂, t₃⟩, -, h⟩ := Option.bind_eq_some_iff.1 h
    rw [hgc] at h
    cases h
    exact ⟨t₃, rfl⟩
  · cases h
    exact ⟨t₁, rfl⟩

theorem internWithGc_ends {R : Screen → Prop} {s : Screen} (h : ∀ t, R (s.onGrid (·.setStyleTable t))) (style : Style) :
    Ends (fun p => (∀ c width, width = 1 ∨ True → s.Inks style c width → True) ∧ R p.2) (s.internWithGc style) := by
  rintro ⟨id, v⟩ hint
  obtain ⟨t, rfl⟩ := internWithGc_table hint
  exact ⟨fun _ _ _ _ => trivial, h t⟩

variable {C : Cell → Prop} {wide : Prop} {R : Screen → Prop} {s : Screen}

/-- A grid operation as the last step of a handler. -/
theorem ends_grid {x : Option Grid} (hx : Ends (fun g => R { s with grid := g }) x) :
    Ends R (x.bind fun g => some { s with grid := g }) :=
  .bind hx fun _ hg => .pure hg

namespace Stable

variable (hR : Screen.Stable C wide R)

include hR

theorem blankCell (h : R s) : Ends (fun p => C p.1 ∧ R p.2) s.blankCell :=
  .bind (hR.intern s _ h) fun _ hp => .pure ⟨hp.1 _ _ (.inl rfl) (.inr ⟨rfl, rfl, rfl⟩), hp.2⟩

theorem scrollUp (h : R s) : Ends R s.scrollUp := by
  refine .bind (hR.blankCell h) fun p hp => ?_
  exact .bind ((hR.grid p.2).scrollUp hp.2 _ hp.1) fun g hg => .pure (hR.scrolledOff _ _ hg)

theorem scrollDown (h : R s) : Ends R s.scrollDown :=
  .bind (hR.blankCell h) fun p hp => ends_grid ((hR.grid p.2).scrollDown hp.2 hp.1)

theorem shiftLines (h : R s) (n : Nat) {move : Nat → Nat → Cell → Grid → Option Grid}
    (hmove : ∀ Q, Grid.Stable C Q → ∀ y bottom blank (g : Grid), C blank → Q g → Ends Q (move y bottom blank g)) :
    Ends R (s.shiftLines n move) := by
  refine .bind (hR.blankCell h) fun p hp => ?_
  have hQ := hR.grid p.2
  dsimp only
  split
  · exact ends_grid (.iter (fun g hg => hmove _ hQ _ _ _ g hp.1 hg) _ (hQ.wrapPending _ false hp.2))
  · exact .pure hp.2

theorem csiDeleteLines (h : R s) (n : Nat) : Ends R (s.csiDeleteLines n) :=
  hR.shiftLines h n fun _ hQ _ _ _ _ hblank hg => hQ.moveBlank hg _ _ _ hblank

theorem csiInsertLines (h : R s) (n : Nat) : Ends R (s.csiInsertLines n) :=
  hR.shiftLines h n fun _ hQ _ _ _ _ hblank hg => hQ.moveBlank hg _ _ _ hblank

theorem handleCombiningMark (h : R s) (c : Char) : Ends R (s.handleCombiningMark c) := by
  unfold Screen.handleCombiningMark
  split
  · exact .pure h
  · split
    · exact .pure h
    next tx _ =>
      split
      · exact .pure h
      · refine .bind (P := fun row => s.grid.visibleRow s.grid.cursorY = some row) (fun _ hrow => hrow) fun row hrow => ?_
        refine .bind (P := fun _ => tx < row.cells.length) (fun cell hcell => (List.getElem?_eq_some_iff.1 hcell).1) fun cell hlt => ?_
        have hbase : (if cell.width = 0 ∧ tx > 0 then tx - 1 else tx) < row.cells.length := by
          split <;> omega
        dsimp only
        generalize (if cell.width = 0 ∧ tx > 0 then tx - 1 else tx) = base at hbase
        split
        next hroom =>
          -- the row is looked up twice
          refine .bind (P := fun g => R { s with grid := g }) ?_ fun g hg => .pure hg
          unfold Grid.visibleRowMut
          rw [hrow]
          exact .pure ((hR.grid s).mark _ _ row base c hrow hbase hroom h)
        next => exact .pure h

theorem blankMargin (h : R s) : Ends R s.blankMargin := by
  unfold Screen.blankMargin
  split
  · exact .bind (hR.blankCell h) fun p hp => ends_grid ((hR.grid p.2).set hp.2 _ _ hp.1)
  · exact .pure h

/-! ### Erasing and moving cells -/

theorem csiEraseDisplay (h : R s) (mode : Nat) : Ends R (s.csiEraseDisplay mode) := by
  refine .bind (hR.blankCell h) fun p hp => ?_
  obtain ⟨blank, s⟩ := p
  obtain ⟨hblank, hp⟩ := hp
  have hQ := hR.grid s
  have hM := hR.mends s
  dsimp only at hblank ⊢
  split
  · exact .bind (hQ.eraseCells hM hp _ _ _ hblank) fun g hg => ends_grid (hQ.eraseRows hg _ _ hblank)
  · exact .bind (hQ.eraseRows hp _ _ hblank) fun g hg => ends_grid (hQ.eraseCells hM hg _ _ _ hblank)
  · exact ends_grid (hQ.eraseRows hp _ _ hblank)
  · exact .bind (hQ.clearScrollback hp) fun g hg => .pure (hR.passthrough _ _ hg)
  · exact .pure hp

theorem csiEraseLine (h : R s) (mode : Nat) : Ends R (s.csiEraseLine mode) := by
  refine .bind (hR.blankCell h) fun p hp => ?_
  obtain ⟨blank, s⟩ := p
  obtain ⟨hblank, hp⟩ := hp
  have hQ := hR.grid s
  have hM := hR.mends s
  dsimp only at hblank ⊢
  split
  · exact ends_grid (hQ.eraseCells hM hp _ _ _ hblank)
  · exact ends_grid (hQ.eraseCells hM hp _ _ _ hblank)
  · exact ends_grid (hQ.eraseCells hM hp _ _ _ hblank)
  · exact .pure hp

theorem csiEraseCharacter (h : R s) (n : Nat) : Ends R (s.csiEraseCharacter n) := by
  refine .bind (hR.blankCell h) fun p hp => ?_
  dsimp only
  split
  · exact ends_grid ((hR.grid p.2).eraseCells (hR.mends p.2) hp.2 _ _ _ hp.1)
  · exact .pure hp.2

theorem csiDeleteCharacter (h : R s) (n : Nat) : Ends R (s.csiDeleteCharacter n) := by
  refine .bind (hR.blankCell h) fun p hp => ?_
  have hQ := hR.grid p.2
  dsimp only
  split
  · refine .bind ((hR.mends p.2).fixup _ _ _ hp.2) fun g hg => ?_
    refine .bind (.iter (fun g hg => hQ.change g _ _ (.deleteCell hp.1 _) hg) _ hg) fun g hg => ?_
    exact ends_grid (hQ.fixDeleted hg _ _ hp.1)
  · exact .pure hp.2

theorem csiInsertCharacter (h : R s) (n : Nat) : Ends R (s.csiInsertCharacter n) := by
  refine .bind (hR.blankCell h) fun p hp => ?_
  have hQ := hR.grid p.2
  dsimp only
  split
  · refine .bind ((hR.mends p.2).fixup _ _ _ hp.2) fun g hg => ?_
    refine .bind (.iter (fun g hg => hQ.change g _ _ (.insertCell hp.1 _) hg) _ hg) fun g hg => ?_
    exact ends_grid (hQ.fixInserted hg _ hp.1)
  · exact .pure hp.2

/-! ### Printing -/

/-- The column of the mark has a cell, and room for the mark. -/
theorem putChar (h : R s) (c : Char) {width : Nat} (hwidth : width = 1 ∨ wide) : Ends R (s.putChar c width) := by
  unfold Screen.putChar
  split
  · refine .bind (hR.intern s _ h) fun p hp => ?_
    have hQ := hR.grid p.2
    refine .bind (hQ.setCell (hR.mends p.2) hp.2 _ _ (hp.1 c width hwidth (.inl rfl))) fun g hg => .after fun newX => ?_
    split
    · refine .after fun right => ?_
      dsimp only
      split
      · exact .pure (hQ.wrapPending _ true (hQ.cursorX g right hg))
      · exact .pure (hQ.cursorX g right hg)
    · exact .pure (hQ.cursorX g newX hg)
  · exact .pure h

end Stable

namespace PrintStable

variable (hR : Screen.PrintStable C wide R)

include hR

theorem advanceLine (h : R s) : Ends R s.advanceLine := by
  unfold Screen.advanceLine
  split
  · exact hR.scrollUp h
  · refine .after fun last => ?_
    split
    · exact .after fun y => .pure (hR.cursorY s y h)
    · exact .pure h

theorem lineFeed (h : R s) : Ends R (s.onGrid (·.setWrapPending false)).advanceLine :=
  hR.advanceLine ((hR.grid s).wrapPending _ false h)

theorem performDeferredWrap (h : R s) : Ends R s.performDeferredWrap :=
  hR.advanceLine ((hR.grid s).cursorX _ 0 ((hR.grid s).wrapPending _ false h))

theorem printBase (h : R s) (c : Char) {width : Nat} (hwidth : width = 1 ∨ wide) : Ends R (s.printBase c width) := by
  unfold Screen.printBase
  dsimp only
  split
  all_goals
    refine .after fun cut => ?_
    split
    · split
      · split
        · exact .pure h
        · refine .bind (hR.blankMargin h) fun t ht => .bind (hR.performDeferredWrap ht) fun t ht => ?_
          exact hR.putChar ht c hwidth
      · exact .pure h
    · exact hR.putChar h c hwidth

theorem print (W : UnicodeWidth) (h : R s) (c : Char) (hwidth : W.charWidth (s.mapCharset c) ≤ 1 ∨ wide) : Ends R (s.print W c) := by
  have ht := hR.printed s c h
  unfold Screen.print
  dsimp only
  split
  · exact hR.handleCombiningMark ht _
  next hzero =>
    have hone : W.charWidth (s.mapCharset c) = 1 ∨ wide := hwidth.imp_left fun hle =>
      Nat.le_antisymm hle (Nat.one_le_iff_ne_zero.2 hzero)
    split
    · exact .bind (hR.performDeferredWrap ht) fun u hu => hR.printBase hu _ hone
    · exact .bind (.pure ht) fun u hu => hR.printBase hu _ hone

end PrintStable

end Screen

end Retach
