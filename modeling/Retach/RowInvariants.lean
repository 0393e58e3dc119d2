import Retach.Keeping
import Retach.Safety
/-!
# What holds of every row

A property of rows that the code keeps when it changes one row holds of every
row of every screen that is reached, in the scrollback, on the screen or saved.
-/

open Checked Runs

namespace Retach

variable {C : Cell → Prop} {P : Row → Prop}

namespace Grid

variable {g : Grid}

/-- `P` holds of the scrollback and the visible rows, and of rows as wide as the
grid can be made. -/
def Holds (P : Row → Prop) (g : Grid) : Prop := g.cols ≤ 65535 ∧ ∀ row ∈ g.cells, P row

/-! ## Grids -/

theorem Holds.sublist (h : g.Holds P) {rows : List Row} (hsub : rows ⊆ g.cells) : { g with cells := rows }.Holds P :=
  ⟨h.1, fun row hrow => h.2 row (hsub hrow)⟩

theorem Holds.append (h : g.Holds P) {rows rows' : List Row} (hsub : rows ⊆ g.cells) (hrows : ∀ row ∈ rows', P row) :
    { g with cells := rows ++ rows' }.Holds P :=
  ⟨h.1, List.forall_mem_append.2 ⟨fun row hrow => h.2 row (hsub hrow), hrows⟩⟩

theorem Holds.visibleRow (h : g.Holds P) {y : Nat} {row : Row} (hrow : g.visibleRow y = some row) : P row := by
  obtain ⟨-, -, hrow⟩ := Option.bind_eq_some_iff.1 hrow
  exact h.2 row (List.mem_of_getElem? hrow)

theorem Holds.putRow (h : g.Holds P) (y : Nat) {row : Row} (hrow : P row) : (g.putRow y row).Holds P := by
  refine ⟨h.1, fun r hr => ?_⟩
  rcases List.mem_or_eq_of_mem_set hr with hr | rfl
  · exact h.2 r hr
  · exact hrow

theorem visibleRowMut_holds (h : g.Holds P) (y : Nat) {f : Row → Option Row} (hf : ∀ row, P row → Ends P (f row)) :
    Ends (Holds P) (g.visibleRowMut y f) := by
  refine .bind (P := P) (fun row hrow => h.visibleRow hrow) fun row hrow => ?_
  exact .bind (hf row hrow) fun row' hrow' => .pure (h.putRow y hrow')

theorem resetScrollRegion_holds (h : g.Holds P) : Ends (Holds P) g.resetScrollRegion := .after fun _ => .pure h

variable (hP : Row.Invariant C P)

include hP

/-- Painting a grid. -/
theorem holds_stable : Grid.Stable C (Holds P) where
  cursorX _ _ h := h
  wrapPending _ _ h := h
  change _ y _ hf h := visibleRowMut_holds h y (hf P hP)
  mark _ y row x m hrow hx hroom h := h.putRow y (hP.pushCombining row x m (h.visibleRow hrow) hx hroom)
  rows g rows hrows h := by
    refine ⟨h.1, fun row hrow => ?_⟩
    rcases hrows row hrow with hold | ⟨fill, hfill, rfl⟩
    · exact h.2 row hold
    · exact hP.filled _ fill hfill h.1
  boundary _ _ _ h := h

variable (hC : Cell.Written C)

include hC

theorem blankRows_holds (h : g.Holds P) (n : Nat) : ∀ row ∈ List.replicate n (Row.new g.cols), P row := by
  intro row hrow
  rw [(List.mem_replicate.1 hrow).2]
  exact hP.filled _ _ hC.default h.1

theorem fillVisibleBlank_holds (h : g.Holds P) : Ends (Holds P) g.fillVisibleBlank :=
  checkInvariants_ends (h.append (List.Subset.refl _) (blankRows_holds hP hC h _))

theorem fitCells_holds (h : g.Holds P) : ∀ row ∈ g.fitCells, P row :=
  (h.append (List.take_subset _ _) (blankRows_holds hP hC h _)).2

theorem resize_holds (h : g.Holds P) {cols : Nat} (hcols : cols ≤ 65535) (rows : Nat) : Ends (Holds P) (g.resize cols rows) := by
  have hmax : max cols 1 ≤ 65535 := Nat.max_le.2 ⟨hcols, by decide⟩
  have hfit : ∀ row ∈ { g with cols := max cols 1, rows := max rows 1 : Grid }.fitCells, P row := fitCells_holds hP hC ⟨hmax, h.2⟩
  refine .after fun _ => .bind (.mapM (Row.Change.fitRow hC hmax P hP) fun row hrow => ?_) fun visible hvisible => ?_
  · exact hfit row (List.mem_of_mem_drop hrow)
  · refine .after fun _ => .after fun _ => checkInvariants_ends ⟨hmax, ?_⟩
    exact List.forall_mem_append.2 ⟨fun row hrow => hfit row (List.mem_of_mem_take hrow), hvisible⟩

end Grid

/-! ## Callbacks -/

/-- It fills up rows with default blanks, or the screen with the alignment
pattern. -/
inductive Event.Fills : Event → Prop
  | /-- to or from the alternate screen -/ switches {ps : List Param} {mode : Nat} {rest : List Nat} {action : Char} (h : mode :: rest ∈ ps)
      (hmode : mode = 47 ∨ mode = 1047 ∨ mode = 1049) : Fills (.csi ps ['?'] action)
  | resets : Fills (.esc [] 'c')
  | aligns : Fills (.esc ['#'] '8')

/-- The character that `e` prints on `s`. -/
def Event.prints (s : Screen) : Event → Option Char
  | .print c => some c
  | .csi _ _ 'b' => some s.state.lastPrintedChar
  | _ => none

namespace Screen

variable {s : Screen}

@[inherit_doc Grid.Holds]
def Holds (P : Row → Prop) (s : Screen) : Prop := s.grid.Holds P ∧ ∀ row ∈ SavedGrid.rows s.state.savedGrid, P row

/-! ## Screens -/

theorem Holds.allRows (h : s.Holds P) : ∀ row ∈ s.allRows, P row := List.forall_mem_append.2 ⟨h.1.2, h.2⟩

theorem Holds.imp (h : s.Holds P) {P' : Row → Prop} (himp : ∀ row ∈ s.allRows, P row → P' row) : s.Holds P' :=
  ⟨⟨h.1.1, fun row hrow => himp row (List.mem_append_left _ hrow) (h.1.2 row hrow)⟩,
    fun row hrow => himp row (List.mem_append_right _ hrow) (h.2 row hrow)⟩

/-- A grid operation as the last step of a handler. -/
theorem Holds.grid (h : s.Holds P) {x : Option Grid} (hx : Ends (Grid.Holds P) x) :
    Ends (Holds P) (x.bind fun g => some { s with grid := g }) :=
  .bind hx fun _ hg => .pure ⟨hg, h.2⟩

theorem Holds.pushPassthrough (h : s.Holds P) (data : List UInt8) : { s with state := s.state.pushPassthrough data }.Holds P := by
  refine ⟨h.1, ?_⟩
  rw [(pushPassthrough_aux s.state data).savedGrid]
  exact h.2

theorem Holds.pushResponse (h : s.Holds P) (data : List UInt8) : { s with state := s.state.pushResponse data }.Holds P := by
  unfold ScreenState.pushResponse
  split <;> exact h

theorem compactStyles_holds {g : Grid} (h : g.Holds P) (saved : Option SavedGrid) : (compactStyles g saved).Holds P := by
  unfold compactStyles
  split <;> exact h

/-- The default style has id 0. -/
theorem internWithGc_default (s : Screen) : s.internWithGc {} = some (0, s.onGrid (·.setStyleTable s.grid.styleTable)) := rfl

theorem restoreCursor_holds (h : s.Holds P) : Ends (Holds P) s.restoreCursor := by
  unfold restoreCursor
  split
  · exact .after fun right => .after fun bottom => .pure h
  · exact .pure h

theorem restoreModes_holds (h : s.Holds P) : s.restoreModes.Holds P := by
  unfold restoreModes
  split <;> exact h

theorem restoreRegion_holds (h : s.Holds P) : Ends (Holds P) s.restoreRegion := by
  unfold restoreRegion
  split
  · exact .pure h
  · exact h.grid (Grid.resetScrollRegion_holds h.1)

theorem growIntoScrollback_holds (h : s.Holds P) (rows : Nat) : Ends (Grid.Holds P) (s.growIntoScrollback rows) := by
  unfold growIntoScrollback
  split
  · exact .bind (.after fun _ => .pure h.1) fun g hg => .pure hg
  · exact .pure h.1

theorem pushTitle_holds (h : s.Holds P) : Ends (Holds P) s.pushTitle := by
  unfold pushTitle
  split
  · dsimp only
    split
    · exact .after fun _ => .pure h
    · exact .after fun _ => .pure h
  · exact .pure h

theorem popTitle_holds (h : s.Holds P) : s.popTitle.Holds P := by
  unfold popTitle
  split <;> exact h

theorem oscDispatch_holds (h : s.Holds P) (params : List (List UInt8)) (bell : Bool) : Ends (Holds P) (s.oscDispatch params bell) := by
  unfold oscDispatch
  split
  · exact .pure h
  · dsimp only
    split
    · split
      · split
        · split
          · exact .pure h
          · exact .after fun _ => .pure h
        · exact .pure h
      · exact .pure h
    · split
      · exact .pure h
      · exact .pure (h.pushPassthrough _)

section

variable (hP : Row.Invariant C P)

include hP

/-- Painting the grid of a screen. -/
theorem holds_grid (s : Screen) : Grid.Stable C fun g => Holds P { s with grid := g } where
  cursorX _ _ h := h
  wrapPending _ _ h := h
  change g y f hf h := ((Grid.holds_stable hP).change g y f hf h.1).mono fun _ hg => ⟨hg, h.2⟩
  mark g y row x m hrow hx hroom h := ⟨(Grid.holds_stable hP).mark g y row x m hrow hx hroom h.1, h.2⟩
  rows g rows hrows h := ⟨(Grid.holds_stable hP).rows g rows hrows h.1, h.2⟩
  boundary _ _ _ h := h

variable (hC : Cell.Written C)

include hC

/-! ### The alternate screen -/

/-- The rows on the screen are saved, and others are put there. -/
theorem switchToAlt_holds (h : s.Holds P) : Ends (Holds P) s.switchToAlt := by
  have hdrain : Ends (fun p => (∀ row ∈ p.1, P row) ∧ p.2.Holds P) s.grid.drainVisible := .after fun _ => .pure
    ⟨fun row hrow => h.1.2 row (List.mem_of_mem_drop hrow), h.1.sublist (List.take_subset _ _)⟩
  refine .bind hdrain fun p hp => .bind (Grid.fillVisibleBlank_holds hP hC hp.2) fun g hg => ?_
  have hlimit : (((g.setScrollbackLimit 0).setCursorX 0).setCursorY 0).Holds P := hg
  exact .bind (Grid.resetScrollRegion_holds hlimit) fun g hg => .pure ⟨hg, hp.1⟩

theorem enterAltScreen_holds (h : s.Holds P) (save : Bool) : Ends (Holds P) (s.enterAltScreen save) := by
  unfold enterAltScreen
  split
  · exact .pure h
  · split
    · exact switchToAlt_holds (s := s.saveCursor) hP hC h
    · exact switchToAlt_holds hP hC h

/-- The saved rows come back, each fitted to the columns there are now. -/
theorem restoreRows_holds (h : s.Holds P) : Ends (Holds P) s.restoreRows := by
  unfold restoreRows
  split
  next saved hsaved =>
    have hrows := h.2
    rw [hsaved] at hrows
    have hback : ((s.grid.replaceVisible saved.visibleCells).setScrollbackLimit saved.scrollbackLimit).Holds P :=
      h.1.append (List.take_subset _ _) hrows
    have hfit : Ends (Grid.Holds P)
        ((s.grid.replaceVisible saved.visibleCells).setScrollbackLimit saved.scrollbackLimit).adjustVisibleToFit :=
      Grid.checkInvariants_ends ⟨hback.1, Grid.fitCells_holds hP hC hback⟩
    refine .bind hfit fun g hg => .bind (.iterFrom (fun y g hg => ?_) _ _ hg) fun g hg => .pure ⟨hg, ?_⟩
    · exact Grid.visibleRowMut_holds hg y (Row.Change.fitRow hC hg.1 P hP)
    · exact fun row hrow => absurd hrow List.not_mem_nil
  next => exact .pure h

theorem exitAltScreen_holds (h : s.Holds P) (restore : Bool) : Ends (Holds P) (s.exitAltScreen restore) := by
  have hlast : ∀ t : Screen, t.Holds P → Ends (Holds P) (do
      let t ← t.restoreRegion
      return t.onGrid fun g => compactStyles g none) := fun t ht =>
    .bind (restoreRegion_holds ht) fun u hu => .pure ⟨compactStyles_holds hu.1 none, hu.2⟩
  unfold exitAltScreen
  split
  · exact .pure h
  · refine .bind (restoreRows_holds (s := { s with state := { s.state with inAltScreen := false } }) hP hC h) fun t ht => ?_
    dsimp only
    split
    · exact .bind (restoreCursor_holds (restoreModes_holds ht)) fun u hu => hlast u hu
    · exact .bind (.pure (restoreModes_holds ht)) fun u hu => hlast u hu

/-! ### Dispatching -/

omit hC in
theorem setDecMode_holds {mode : Nat} (hC : mode = 47 ∨ mode = 1047 ∨ mode = 1049 → Cell.Written C) (h : s.Holds P) (enable : Bool) :
    Ends (Holds P) (s.setDecMode mode enable) := by
  have hmodes : ∀ f : TerminalModes → TerminalModes, Ends (Holds P) (some (s.setModes f)) := fun f => .pure h
  unfold setDecMode
  split
  · exact hmodes _
  · cases enable <;> exact .pure h
  · exact hmodes _
  · exact .pure h
  · exact hmodes _
  · exact hmodes _
  · exact hmodes _
  · exact hmodes _
  · exact hmodes _
  · exact hmodes _
  · split
    · exact .pure h
    · exact restoreCursor_holds h
  · exact hmodes _
  · split
    · exact enterAltScreen_holds hP (hC (by decide)) h true
    · exact exitAltScreen_holds hP (hC (by decide)) h true
  · split
    · exact enterAltScreen_holds hP (hC (by decide)) h false
    · exact exitAltScreen_holds hP (hC (by decide)) h false
  · split
    · exact enterAltScreen_holds hP (hC (by decide)) h false
    · exact exitAltScreen_holds hP (hC (by decide)) h false
  · exact .pure h

omit hC in
theorem csiSetDecPrivateMode_holds {ps : List Param}
    (hC : ∀ mode rest, mode :: rest ∈ ps → mode = 47 ∨ mode = 1047 ∨ mode = 1049 → Cell.Written C) (h : s.Holds P) (enable : Bool) :
    Ends (Holds P) (s.csiSetDecPrivateMode ps enable) := by
  unfold csiSetDecPrivateMode
  induction ps generalizing s with
  | nil => exact .pure h
  | cons p ps ih =>
    rw [List.foldlM_cons]
    refine .bind (P := Holds P) ?_ fun t ht => ih (fun mode rest hp => hC mode rest (List.mem_cons_of_mem _ hp)) ht
    cases p with
    | nil => exact .pure h
    | cons mode rest => exact setDecMode_holds hP (hC mode rest (List.mem_cons_self ..)) h enable

/-- No saved rows are left. -/
theorem fullReset_holds (h : s.Holds P) : Ends (Holds P) s.fullReset := by
  have hQ := Grid.holds_stable hP
  refine .bind (Grid.resetScrollRegion_holds (g := (s.grid.setCursorX 0).setCursorY 0) h.1) fun g hg => ?_
  refine .bind (P := Grid.Holds P) ?_ fun g hg => .bind (hQ.clearScrollback hg) fun g hg => ?_
  · refine hQ.eraseRows ?_ _ _ hC.default
    simp only [Grid.Holds, Grid.setStyleTable, Grid.resetTabStops, Grid.setScrollbackLimit, Grid.setModes, Grid.setWrapPending,
      Grid.setCursorVisible]
    exact hg
  · apply Ends.pure
    refine ⟨hg, ?_⟩
    dsimp only
    rw [(pushPassthrough_aux _ _).savedGrid]
    exact fun row hrow => absurd hrow List.not_mem_nil

theorem alignmentPattern_holds (hE : C { c := 'E' }) (h : s.Holds P) : Ends (Holds P) s.alignmentPattern := by
  refine .bind (Grid.resetScrollRegion_holds h.1) fun g hg => ?_
  dsimp only
  rw [internWithGc_default]
  have hhome : Holds P { s with grid := ((g.setCursorX 0).setCursorY 0).setWrapPending false } := ⟨hg, h.2⟩
  refine Holds.grid (s := { s with grid := ((g.setCursorX 0).setCursorY 0).setWrapPending false }) hhome ?_
  refine .iterFrom (fun y g hg => ?_) _ _ hg
  exact .iterFrom (fun x g hg => (Grid.holds_stable hP).setCell ((Grid.holds_stable hP).mends hC) hg x y hE) _ _ hg

/-! ### Callbacks -/

omit hP hC

section

/-! Painting keeps more than `P`. -/

variable {R : Screen → Prop} {wide : Prop} (hpaint : PrintStable C wide R) (hR : ∀ s, R s → s.Holds P)

include hP hpaint hR

theorem csiDispatch_holds (W : UnicodeWidth) (hs : R s) {ps : List Param} {intermediates : List Char} {action : Char}
    (hC : Event.Fills (.csi ps intermediates action) → Cell.Written C)
    (hwide : ∀ c ∈ Event.prints s (.csi ps intermediates action), ∀ t, R t → W.charWidth (t.mapCharset c) ≤ 1 ∨ wide) :
    Ends (Holds P) (s.csiDispatch W ps intermediates action) := by
  have h := hR s hs
  have hstay : Ends (Holds P) (some s) := .pure h
  unfold csiDispatch
  split
  · exact .pure h
  · exact .after fun _ => .pure h
  · exact .after fun _ => .pure h
  · exact .pure h
  · exact .after fun _ => .pure h
  · exact .pure h
  · exact .after fun _ => .pure h
  · exact .after fun _ => .after fun _ => .pure h
  · exact .after fun _ => .after fun _ => .pure h
  · exact .after fun _ => .pure h
  · exact (hpaint.csiEraseDisplay hs _).mono hR
  · exact (hpaint.csiEraseLine hs _).mono hR
  · exact (hpaint.csiEraseCharacter hs _).mono hR
  · exact (hpaint.csiDeleteCharacter hs _).mono hR
  · exact (hpaint.csiInsertCharacter hs _).mono hR
  · exact (Ends.iter (fun t ht => hpaint.print W ht _ (hwide _ rfl t ht)) _ hs).mono hR
  · exact .pure h
  · split
    · exact .after fun _ => .pure (h.pushResponse _)
    · exact hstay
  · split
    · split
      · exact .pure (h.pushResponse _)
      · split
        · exact .pure (h.pushResponse _)
        · exact hstay
    · exact hstay
  · split
    · exact .pure h
    · exact hstay
  · exact (Ends.iter (fun _ ht => hpaint.scrollUp ht) _ hs).mono hR
  · split
    · exact (Ends.iter (fun _ ht => hpaint.scrollDown ht) _ hs).mono hR
    · exact hstay
  · exact (hpaint.csiDeleteLines hs _).mono hR
  · exact (hpaint.csiInsertLines hs _).mono hR
  · split
    · refine .after fun last => ?_
      dsimp only
      split <;> exact .pure h
    · exact hstay
  · split
    · exact .pure h
    · exact hstay
  · split
    · exact restoreCursor_holds h
    · exact hstay
  · split
    · split <;> exact .pure h
    · exact hstay
  · split
    · split
      · exact pushTitle_holds h
      · exact .pure (popTitle_holds h)
      · exact hstay
    · exact hstay
  · split
    next hi =>
      subst hi
      exact csiSetDecPrivateMode_holds hP (fun mode rest hp hmode => hC (.switches hp hmode)) h true
    next => exact hstay
  · split
    next hi =>
      subst hi
      exact csiSetDecPrivateMode_holds hP (fun mode rest hp hmode => hC (.switches hp hmode)) h false
    next => exact hstay
  · exact hstay

omit hP in
theorem execute_holds (hs : R s) (byte : UInt8) : Ends (Holds P) (s.execute byte) := by
  have h := hR s hs
  have hfeed : Ends (Holds P) (s.onGrid (·.setWrapPending false)).advanceLine := (hpaint.lineFeed hs).mono hR
  unfold execute
  split
  · exact .pure h
  · exact hfeed
  · exact hfeed
  · exact hfeed
  · exact .pure h
  · exact .after fun _ => .pure h
  · exact .pure h
  · exact .pure h
  · exact .pure (h.pushPassthrough _)
  · exact .pure h

theorem escDispatch_holds (hs : R s) {intermediates : List Char} {byte : Char}
    (hC : Event.Fills (.esc intermediates byte) → Cell.Written C) (hE : Event.esc intermediates byte = .esc ['#'] '8' → C { c := 'E' }) :
    Ends (Holds P) (s.escDispatch intermediates byte) := by
  have h := hR s hs
  unfold escDispatch
  split
  · exact .pure h
  · exact (hpaint.lineFeed hs).mono hR
  · have hhome : R (s.onGrid (·.setCursorX 0)) := (hpaint.grid s).cursorX _ 0 hs
    exact (hpaint.lineFeed hhome).mono hR
  · split
    · exact (hpaint.scrollDown hs).mono hR
    · exact .pure h
  · exact .pure h
  · exact restoreCursor_holds h
  · exact fullReset_holds hP (hC .resets) h
  · exact .pure h
  · exact .pure h
  · exact .pure h
  · exact .pure h
  · exact .pure h
  · exact .pure h
  · exact alignmentPattern_holds hP (hC .aligns) (hE rfl) h
  · exact .pure h

/-- One callback. -/
theorem step_holds (W : UnicodeWidth) (hs : R s) {e : Event} (hC : e.Fills → Cell.Written C) (hE : e = .esc ['#'] '8' → C { c := 'E' })
    (hwide : ∀ c ∈ e.prints s, ∀ t, R t → W.charWidth (t.mapCharset c) ≤ 1 ∨ wide) : Ends (Holds P) (s.step W e) := by
  cases e with
  | print c => exact (hpaint.print W hs c (hwide c rfl s hs)).mono hR
  | execute byte => exact execute_holds hpaint hR hs byte
  | csi ps intermediates action => exact csiDispatch_holds hP hpaint hR W hs hC hwide
  | esc intermediates byte => exact escDispatch_holds hP hpaint hR hs hC hE
  | osc params bell => exact oscDispatch_holds (hR s hs) params bell

end

include hP hC in
theorem resize_holds (h : s.Holds P) {cols : Nat} (hcols : cols ≤ 65535) (rows : Nat) : Ends (Holds P) (s.resize cols rows) :=
  .bind (growIntoScrollback_holds h rows) fun _ hg => h.grid (Grid.resize_holds hP hC hg hcols rows)

end

/-! ## Runs -/

variable (hP : Row.Invariant (fun _ => True) P)

include hP

/-- Painting a screen, whatever is written. -/
theorem holds_stable : Screen.PrintStable (fun _ => True) True (Holds P) where
  grid := holds_grid hP
  mends s := (holds_grid hP s).mends Cell.written_any
  intern _ style h := internWithGc_ends (fun _ => h) style
  scrolledOff _ _ h := h
  passthrough _ data h := h.pushPassthrough data
  cursorY _ _ h := h
  printed _ _ h := h

theorem new_holds {cols : Nat} (hcols : cols ≤ 65535) (rows limit : Nat) : (Screen.new cols rows limit).Holds P := by
  have hmax : max cols 1 ≤ 65535 := Nat.max_le.2 ⟨hcols, by decide⟩
  refine ⟨⟨hmax, fun row hrow => ?_⟩, fun row hrow => absurd hrow List.not_mem_nil⟩
  rw [(List.mem_replicate.1 hrow).2]
  exact hP.filled _ _ trivial hmax

theorem act_holds (W : UnicodeWidth) (h : s.Holds P) {a : Action} (hsized : a.Sized) : Ends (Holds P) (s.act W a) := by
  cases a with
  | callback e =>
    exact step_holds hP (holds_stable hP) (fun _ h => h) W h (fun _ => Cell.written_any) (fun _ => trivial) fun _ _ _ _ => .inr trivial
  | resize cols rows => exact resize_holds hP Cell.written_any h hsized.1 rows
  | takeScrollback => exact .pure h

/-- The rule for rows: what the code does to one row keeps `P`, so `P` holds of
all rows, whatever the callbacks and resizes. -/
theorem Reachable.rows {W : UnicodeWidth} (hs : s.Reachable W) : ∀ row ∈ s.allRows, P row := by
  obtain ⟨cols, rows, limit, as, hcols, hrows, hsized, hrun⟩ := hs
  have hkept : s.Holds P := (Along.of_forall hsized _).keeps (fun t a t' ht hsized hact => act_holds hP W ht hsized t' hact)
    (new_holds hP hcols rows limit) hrun
  exact hkept.allRows

end Screen

end Retach
