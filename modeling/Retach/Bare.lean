import Retach.Recoding
/-!
# Screens without their queues

No callback looks at the queued responses, passthrough and notifications, but
to add to them, or at what the model records next to the code's state: two
screens that are equal without these go on alike.
-/

open Checked Views

namespace Retach

/-- The table without the log of freed slots. -/
def StyleTable.bare (t : StyleTable) : StyleTable := { t with freed := [] }

theorem StyleTable.bare_intern (t : StyleTable) (style : Style) :
    t.bare.intern style = (t.intern style).map fun p => (p.1, p.2.bare) := by
  obtain ⟨styles, index, freeSlots, freed⟩ := t
  simp only [bare, intern]
  split
  · rfl
  split
  · rfl
  split
  · next id _ => cases hset : setAt styles id style <;> rfl
  · by_cases hfull : styles.length > u16Max <;> simp only [hfull, if_true, if_false] <;> rfl

/-! ## Grids -/

namespace Grid

@[simps] def bare (g : Grid) : Grid := { g with styleTable := g.styleTable.bare }

@[simp] theorem bare_bare (g : Grid) : g.bare.bare = g.bare := rfl

/-- With the ids as they are, recoding puts in another style table. -/
theorem recode_id (t : StyleTable) (g : Grid) : g.recode id t = g.setStyleTable t := by
  have hrow : Row.recode id = id := funext fun r => by simp [Row.recode, show Cell.recode id = id from rfl]
  simp [recode, hrow, setStyleTable]

/-- An operation that recodes keeps the style table and does not look at it. -/
theorem bare_of_recode (f : Grid → Option Grid) (hf : ∀ t g, f (g.recode id t) = (f g).map (recode id t)) (g : Grid) :
    f g.bare = (f g).map bare := by
  have hbare : g.recode id g.styleTable.bare = g.bare := recode_id _ g
  have hself : f g = (f g).map (recode id g.styleTable) := by
    rw [← hf, recode_id]
    rfl
  rw [← hbare, hf]
  cases hg : f g with
  | none => rfl
  | some g' =>
    rw [hg, Option.map_some, Option.some.injEq, recode_id] at hself
    rw [Option.map_some, recode_id, hself]
    rfl

@[simp] theorem bare_visibleRowMut (g : Grid) (y : Nat) (f : Row → Option Row) :
    g.bare.visibleRowMut y f = (g.visibleRowMut y f).map bare := by
  unfold visibleRowMut
  exact bind_shared rfl fun row => bind_shared rfl fun row => rfl

theorem bare_resetScrollRegion (g : Grid) : g.bare.resetScrollRegion = g.resetScrollRegion.map bare :=
  bare_of_recode resetScrollRegion (fun _ g => g.recode_resetScrollRegion) g

theorem bare_clearScrollback (g : Grid) : g.bare.clearScrollback = g.clearScrollback.map bare :=
  bare_of_recode clearScrollback (fun _ g => g.recode_clearScrollback) g

theorem bare_fillVisibleBlank (g : Grid) : g.bare.fillVisibleBlank = g.fillVisibleBlank.map bare :=
  bare_of_recode fillVisibleBlank (fun _ g => g.recode_fillVisibleBlank rfl) g

theorem bare_adjustVisibleToFit (g : Grid) : g.bare.adjustVisibleToFit = g.adjustVisibleToFit.map bare :=
  bare_of_recode adjustVisibleToFit (fun _ g => g.recode_adjustVisibleToFit rfl) g

theorem bare_scrollUp (g : Grid) (alt : Bool) (fill : Cell) :
    g.bare.scrollUp alt fill = (g.scrollUp alt fill).map bare :=
  bare_of_recode (·.scrollUp alt fill) (fun _ g => g.recode_scrollUp alt fill) g

theorem bare_scrollDown (g : Grid) (fill : Cell) : g.bare.scrollDown fill = (g.scrollDown fill).map bare :=
  bare_of_recode (·.scrollDown fill) (fun _ g => g.recode_scrollDown fill) g

theorem bare_fixupWideCharAt (g : Grid) (x y : Nat) : g.bare.fixupWideCharAt x y = (g.fixupWideCharAt x y).map bare :=
  bare_of_recode (·.fixupWideCharAt x y) (fun _ g => g.recode_fixupWideCharAt rfl x y) g

theorem bare_setCell (g : Grid) (x y : Nat) (c : Cell) : g.bare.setCell x y c = (g.setCell x y c).map bare :=
  bare_of_recode (·.setCell x y c) (fun _ g => g.recode_setCell rfl x y c) g

theorem bare_eraseCells (g : Grid) (y lo hi : Nat) (blank : Cell) :
    g.bare.eraseCells y lo hi blank = (g.eraseCells y lo hi blank).map bare :=
  bare_of_recode (·.eraseCells y lo hi blank) (fun _ g => g.recode_eraseCells rfl y lo hi blank) g

theorem bare_eraseRows (g : Grid) (lo hi : Nat) (blank : Cell) :
    g.bare.eraseRows lo hi blank = (g.eraseRows lo hi blank).map bare :=
  bare_of_recode (·.eraseRows lo hi blank) (fun _ g => g.recode_eraseRows lo hi blank) g

end Grid

/-- A collection frees the same slots. -/
theorem bare_compactStyles (g : Grid) (saved : Option SavedGrid) :
    (compactStyles g.bare saved).bare = (compactStyles g saved).bare := by
  unfold compactStyles
  by_cases h : g.styleTable.capacity ≤ 1
  · rw [if_pos h, if_pos (show g.bare.styleTable.capacity ≤ 1 from h)]
    rfl
  · rw [if_neg h, if_neg (show ¬ g.bare.styleTable.capacity ≤ 1 from h)]
    rfl

/-! ## Screens -/

namespace ScreenState

def bare (st : ScreenState) : ScreenState :=
  { st with pendingResponses := [], pendingPassthrough := [], queuedNotifications := [] }

theorem bare_pushResponse (st : ScreenState) (data : List UInt8) : (st.pushResponse data).bare = st.bare := by
  unfold pushResponse
  split <;> rfl

theorem bare_pushPassthrough (st : ScreenState) (data : List UInt8) : (st.pushPassthrough data).bare = st.bare := by
  unfold pushPassthrough
  split <;> rfl

end ScreenState

namespace Screen

/-- Without the queues, the log of freed style slots and the displaced rows. -/
def bare (s : Screen) : Screen := { grid := s.grid.bare, state := s.state.bare }

theorem bare_bare (s : Screen) : s.bare.bare = s.bare := rfl

/-- A sequence handed on to the outer terminal. -/
theorem bare_passthrough {g' g : Grid} (hg : g'.bare = g.bare) {st' st : ScreenState} (hst : st'.bare = st.bare)
    (data : List UInt8) (off' off : List Row) :
    (Screen.mk g' (st'.pushPassthrough data) off').bare = (Screen.mk g (st.pushPassthrough data) off).bare := by
  simp only [bare, hg, ScreenState.bare_pushPassthrough, hst]

theorem bare_state (s : Screen) : s.bare.state.bare = s.state.bare := rfl

/-- A handler looks at nothing of it. -/
abbrev IsBlind (f : Screen → Option Screen) : Prop := Blind bare bare f

theorem some_blind {f : Screen → Screen} (hf : ∀ s, (f s.bare).bare = (f s).bare) : IsBlind fun s => some (f s) :=
  fun s => congrArg some (hf s)

theorem ite_blind {p : Screen → Prop} [DecidablePred p] (hp : ∀ s, p s.bare ↔ p s) {f g : Screen → Option Screen}
    (hf : IsBlind f) (hg : IsBlind g) : IsBlind fun s => if p s then f s else g s :=
  .ite hp hf hg

/-- A computation on what the view shows. -/
theorem bind_blind {β : Type} {x : Screen → Option β} (hx : ∀ s, x s.bare = x s) {k : Screen → β → Option Screen}
    (hk : ∀ b, IsBlind (k · b)) : IsBlind fun s => (x s).bind (k s) :=
  Blind.bind (w := id) bare_bare (fun s => by rw [hx]) fun s b => hk b s

theorem comp_blind {f k : Screen → Option Screen} (hf : IsBlind f) (hk : IsBlind k) : IsBlind fun s => (f s).bind k :=
  hf.comp bare_bare hk

theorem ite_step {p' p : Prop} [Decidable p'] [Decidable p] (hp : p' ↔ p) {x' y' x y : Option Screen}
    (hx : x'.map bare = x.map bare) (hy : y'.map bare = y.map bare) :
    (if p' then x' else y').map bare = (if p then x else y).map bare := by
  by_cases h : p
  · rwa [if_pos h, if_pos (hp.2 h)]
  · rwa [if_neg h, if_neg (mt hp.1 h)]

/-- A step on which both runs agree. -/
theorem value_step {β : Type} {x y : Option β} (hx : x = y) {k' k : β → Option Screen}
    (hk : ∀ b, (k' b).map bare = (k b).map bare) : (x.bind k').map bare = (y.bind k).map bare := by
  subst hx
  cases x with
  | none => rfl
  | some b => exact hk b

/-- A step of the grid. -/
theorem grid_step {x' x : Option Grid} (hx : x' = x.map Grid.bare) {k' k : Grid → Option Screen}
    (hk : ∀ g, (k' g.bare).map bare = (k g).map bare) : (x'.bind k').map bare = (x.bind k).map bare := by
  subst hx
  cases x with
  | none => rfl
  | some g => exact hk g

/-- A step on two grids with one view. -/
theorem alike_step {f : Grid → Option Grid} (hf : ∀ g, f g.bare = (f g).map Grid.bare) {g' g : Grid} (h : g'.bare = g.bare)
    {k' k : Grid → Option Screen} (hk : ∀ g' g, g'.bare = g.bare → (k' g').map bare = (k g).map bare) :
    ((f g').bind k').map bare = ((f g).bind k).map bare := by
  have hview : (f g').map Grid.bare = (f g).map Grid.bare := by rw [← hf, h, hf]
  rcases cases_of_map_eq hview with ⟨h', h⟩ | ⟨a, b, h', h, hab⟩
  · rw [h', h]
    rfl
  · rw [h', h]
    exact hk a b hab

/-- An operation of the grid. -/
theorem grid_blind {f : Grid → Option Grid} (hf : ∀ g, f g.bare = (f g).map Grid.bare) :
    IsBlind fun s => (f s.grid).bind fun g => some { s with grid := g } := by
  intro s
  change Option.map bare ((f s.grid.bare).bind _) = Option.map bare ((f s.grid).bind _)
  rw [hf]
  cases f s.grid <;> rfl

theorem internWithGc_blind (style : Style) : Blind bare (fun p : StyleId × Screen => (p.1, p.2.bare)) (internWithGc · style) := by
  intro s
  have hintern : s.bare.grid.styleTable.intern style = (s.grid.styleTable.intern style).map fun p => (p.1, p.2.bare) :=
    s.grid.styleTable.bare_intern style
  simp only [internWithGc, Option.bind_eq_bind, hintern]
  cases s.grid.styleTable.intern style with
  | none => rfl
  | some p =>
    obtain ⟨id, t⟩ := p
    by_cases hfull : id = 0 ∧ ¬ style.isDefault ∧ t.isFull
    · have hfull' : id = 0 ∧ ¬ style.isDefault ∧ t.bare.isFull := hfull
      simp only [Option.map_some, Option.bind_some, if_pos hfull, if_pos hfull']
      have hgc : (compactStyles (s.bare.grid.setStyleTable t.bare) s.bare.state.savedGrid).bare =
          (compactStyles (s.grid.setStyleTable t) s.state.savedGrid).bare :=
        bare_compactStyles (s.grid.setStyleTable t) s.state.savedGrid
      revert hgc
      generalize compactStyles (s.bare.grid.setStyleTable t.bare) s.bare.state.savedGrid = g'
      generalize compactStyles (s.grid.setStyleTable t) s.state.savedGrid = g
      intro hgc
      have hagain := (g'.styleTable.bare_intern style).symm.trans
        ((congrArg (·.styleTable.intern style) hgc).trans (g.styleTable.bare_intern style))
      rcases Views.cases_of_map_eq (w := fun p : StyleId × StyleTable => (p.1, p.2.bare)) hagain with
        ⟨h', h⟩ | ⟨p', p, h', h, hp⟩
      · rw [h', h]
        rfl
      · obtain ⟨hid, htable⟩ := Prod.mk.inj hp
        have hgrid : (g'.setStyleTable p'.2).bare = (g.setStyleTable p.2).bare := by
          change g'.bare.setStyleTable p'.2.bare = g.bare.setStyleTable p.2.bare
          rw [hgc, htable]
        rw [h', h]
        exact congrArg some (Prod.ext hid (congrArg (Screen.mk · s.state.bare []) hgrid))
    · have hfull' : ¬ (id = 0 ∧ ¬ style.isDefault ∧ t.bare.isFull) := hfull
      simp only [Option.map_some, Option.bind_some, if_neg hfull, if_neg hfull']
      rfl

/-- A handler that interns a style first. -/
theorem intern_blind (style : Style) {k : StyleId × Screen → Option Screen} (hk : ∀ id, IsBlind fun s => k (id, s)) :
    IsBlind fun s => (s.internWithGc style).bind k :=
  (internWithGc_blind style).comp bare_bare fun p => hk p.1 p.2

/-- A handler that starts with a blank cell. -/
theorem blank_blind {k : Cell × Screen → Option Screen} (hk : ∀ blank, IsBlind fun s => k (blank, s)) :
    IsBlind fun s => s.blankCell.bind k := by
  have hblank : Blind bare (fun p : Cell × Screen => (p.1, p.2.bare)) blankCell := fun s =>
    Blind.comp bare_bare (internWithGc_blind { bg := s.state.currentStyle.bg }) (fun _ => rfl) s
  exact hblank.comp bare_bare fun p => hk p.1 p.2

theorem scrollUp_blind : IsBlind scrollUp :=
  blank_blind fun fill s => by
    change Option.map bare ((s.grid.bare.scrollUp s.state.inAltScreen fill).bind _) =
      Option.map bare ((s.grid.scrollUp s.state.inAltScreen fill).bind _)
    rw [Grid.bare_scrollUp]
    cases s.grid.scrollUp s.state.inAltScreen fill <;> rfl

theorem scrollDown_blind : IsBlind scrollDown :=
  blank_blind fun fill => grid_blind (f := (·.scrollDown fill)) fun g => g.bare_scrollDown fill

theorem advanceLine_blind : IsBlind advanceLine :=
  ite_blind (p := fun s => s.grid.cursorY = s.grid.scrollBottom) (fun _ => Iff.rfl) scrollUp_blind <|
    bind_blind (fun _ => rfl) fun last => ite_blind (p := fun s => s.grid.cursorY < last) (fun _ => Iff.rfl)
      (bind_blind (fun _ => rfl) fun _ => some_blind fun _ => rfl) fun _ => rfl

/-! ## The cursor and the alternate screen -/

theorem restoreCursor_blind : IsBlind restoreCursor := by
  intro s
  simp only [restoreCursor, Grid.setWrapPending, Grid.setCursorX, Grid.setCursorY, Grid.setModes]
  rw [show s.bare.state.savedCursorState = s.state.savedCursorState from rfl]
  cases s.state.savedCursorState with
  | none => rfl
  | some saved =>
    exact value_step (x := sub s.grid.cols 1) rfl fun right => value_step (x := sub s.grid.rows 1) rfl fun bottom => rfl

theorem switchToAlt_blind : IsBlind switchToAlt := by
  intro s
  have hdrain : s.bare.grid.drainVisible = s.grid.drainVisible.map fun p => (p.1, p.2.bare) := by
    simp only [Grid.drainVisible, Option.bind_eq_bind, Option.map_bind]
    rfl
  simp only [switchToAlt, hdrain, Option.bind_eq_bind, Option.bind_map, Function.comp_def]
  refine value_step rfl fun p => grid_step p.2.bare_fillVisibleBlank fun g => grid_step ?_ fun g => rfl
  exact Grid.bare_resetScrollRegion (((g.setScrollbackLimit 0).setCursorX 0).setCursorY 0)

theorem enterAltScreen_blind (save : Bool) : IsBlind (enterAltScreen · save) := by
  refine ite_blind (p := fun s => s.state.inAltScreen = true) (fun _ => Iff.rfl) (fun _ => rfl) ?_
  cases save with
  | true => exact comp_blind (f := fun s => some s.saveCursor) (some_blind fun _ => rfl) switchToAlt_blind
  | false => exact switchToAlt_blind

theorem restoreRows_blind : IsBlind restoreRows := by
  intro s
  unfold restoreRows
  rw [show s.bare.state.savedGrid = s.state.savedGrid from rfl]
  cases s.state.savedGrid with
  | none => rfl
  | some saved =>
    refine grid_step (Grid.bare_adjustVisibleToFit ((s.grid.replaceVisible saved.visibleCells).setScrollbackLimit
      saved.scrollbackLimit)) fun g => grid_step ?_ fun g => rfl
    exact iterFrom_renamed (fun y g => g.bare_visibleRowMut y _) 0 _ g

theorem restoreModes_blind : IsBlind fun s => some s.restoreModes := by
  apply some_blind
  intro s
  unfold restoreModes
  rw [show s.bare.state.savedModes = s.state.savedModes from rfl]
  cases s.state.savedModes <;> rfl

theorem restoreRegion_blind : IsBlind restoreRegion := by
  intro s
  unfold restoreRegion
  rw [show s.bare.state.savedScrollRegion = s.state.savedScrollRegion from rfl]
  cases s.state.savedScrollRegion with
  | none => exact grid_step s.grid.bare_resetScrollRegion fun g => rfl
  | some region => rfl

theorem exitAltScreen_blind (restore : Bool) : IsBlind (exitAltScreen · restore) := by
  refine ite_blind (p := fun s => ¬ s.state.inAltScreen) (fun _ => Iff.rfl) (fun _ => rfl) ?_
  have hback : IsBlind fun s => s.restoreRegion.bind fun s => some (s.onGrid fun g => compactStyles g none) :=
    comp_blind restoreRegion_blind (some_blind fun s =>
      congrArg (Screen.mk · s.state.bare []) (bare_compactStyles s.grid none))
  have hrows : IsBlind fun s => restoreRows { s with state := { s.state with inAltScreen := false } } :=
    comp_blind (f := fun s => some { s with state := { s.state with inAltScreen := false } })
      (some_blind fun _ => rfl) restoreRows_blind
  cases restore with
  | true =>
    have htail := comp_blind restoreModes_blind (comp_blind restoreCursor_blind hback)
    exact comp_blind hrows htail
  | false =>
    have htail := comp_blind restoreModes_blind hback
    exact comp_blind hrows htail

/-! ## Erasing and moving cells -/

theorem csiEraseDisplay_blind (mode : Nat) : IsBlind (csiEraseDisplay · mode) := by
  apply blank_blind
  intro blank s
  rcases mode with _ | _ | _ | _ | mode
  · exact grid_step (s.grid.bare_eraseCells ..) fun g => grid_step (g.bare_eraseRows ..) fun g => rfl
  · exact grid_step (s.grid.bare_eraseRows ..) fun g => grid_step (g.bare_eraseCells ..) fun g => rfl
  · exact grid_step (s.grid.bare_eraseRows ..) fun g => rfl
  · exact grid_step s.grid.bare_clearScrollback fun g => congrArg some (bare_passthrough g.bare_bare s.bare_state _ _ _)
  · rfl

theorem csiEraseLine_blind (mode : Nat) : IsBlind (csiEraseLine · mode) := by
  apply blank_blind
  intro blank s
  rcases mode with _ | _ | _ | mode
  · exact grid_step (s.grid.bare_eraseCells ..) fun g => rfl
  · exact grid_step (s.grid.bare_eraseCells ..) fun g => rfl
  · exact grid_step (s.grid.bare_eraseCells ..) fun g => rfl
  · rfl

theorem csiEraseCharacter_blind (n : Nat) : IsBlind (csiEraseCharacter · n) := by
  refine blank_blind fun blank => ite_blind (p := fun s => s.grid.cursorY < s.grid.rows) (fun _ => Iff.rfl) ?_ fun _ => rfl
  exact fun s => grid_step (s.grid.bare_eraseCells ..) fun g => rfl

end Screen

theorem bare_fixDeleted (g : Grid) (x y : Nat) (blank : Cell) :
    Screen.fixDeleted g.bare x y blank = (Screen.fixDeleted g x y blank).map Grid.bare :=
  Grid.bare_of_recode (Screen.fixDeleted · x y blank) (fun _ g => recode_fixDeleted g x y blank) g

theorem bare_fixInserted (g : Grid) (y : Nat) (blank : Cell) :
    Screen.fixInserted g.bare y blank = (Screen.fixInserted g y blank).map Grid.bare :=
  Grid.bare_of_recode (Screen.fixInserted · y blank) (fun _ g => recode_fixInserted g y blank) g

theorem bare_moveBlank (src dst bottom : Nat) (blank : Cell) (g : Grid) :
    Screen.moveBlank src dst bottom blank g.bare = (Screen.moveBlank src dst bottom blank g).map Grid.bare :=
  Grid.bare_of_recode (Screen.moveBlank src dst bottom blank) (fun _ => recode_moveBlank src dst bottom blank) g

namespace Screen

theorem csiDeleteCharacter_blind (n : Nat) : IsBlind (csiDeleteCharacter · n) := by
  refine blank_blind fun blank => ite_blind (p := fun s => s.grid.cursorY < s.grid.rows) (fun _ => Iff.rfl) ?_ fun _ => rfl
  intro s
  exact grid_step (s.grid.bare_fixupWideCharAt ..) fun g =>
    grid_step (iter_renamed (fun g => g.bare_visibleRowMut _ _) _ g) fun g => grid_step (bare_fixDeleted g ..) fun g => rfl

theorem csiInsertCharacter_blind (n : Nat) : IsBlind (csiInsertCharacter · n) := by
  refine blank_blind fun blank => ite_blind (p := fun s => s.grid.cursorY < s.grid.rows) (fun _ => Iff.rfl) ?_ fun _ => rfl
  intro s
  exact grid_step (s.grid.bare_fixupWideCharAt ..) fun g =>
    grid_step (iter_renamed (fun g => g.bare_visibleRowMut _ _) _ g) fun g => grid_step (bare_fixInserted g ..) fun g => rfl

theorem shiftLines_blind (n : Nat) {move : Nat → Nat → Cell → Grid → Option Grid}
    (hmove : ∀ y bottom blank g, move y bottom blank g.bare = (move y bottom blank g).map Grid.bare) :
    IsBlind (shiftLines · n move) := by
  refine blank_blind fun blank => ite_blind (p := fun s => s.grid.cursorY ≥ s.grid.scrollTop ∧
    s.grid.cursorY ≤ s.grid.scrollBottom) (fun _ => Iff.rfl) ?_ fun _ => rfl
  exact fun s => grid_step (iter_renamed (hmove _ _ blank) _ (s.grid.setWrapPending false)) fun g => rfl

/-! ## Printing -/

theorem handleCombiningMark_blind (c : Char) : IsBlind (handleCombiningMark · c) := by
  refine ite_blind (p := fun s => s.grid.cursorY ≥ s.grid.rows) (fun _ => Iff.rfl) (fun _ => rfl) fun s => ?_
  rw [show s.bare.markColumn = s.markColumn from rfl]
  cases s.markColumn with
  | none => rfl
  | some tx =>
    refine ite_step (p := tx ≥ s.grid.cols) Iff.rfl rfl ?_
    refine value_step (x := s.grid.visibleRow s.grid.cursorY) rfl fun row => value_step (x := row.get tx) rfl fun cell => ?_
    exact ite_step Iff.rfl (grid_step (s.grid.bare_visibleRowMut ..) fun g => rfl) rfl

theorem performDeferredWrap_blind : IsBlind performDeferredWrap :=
  comp_blind (f := fun s => some (s.onGrid fun g => (g.setWrapPending false).setCursorX 0)) (some_blind fun _ => rfl)
    advanceLine_blind

theorem blankMargin_blind : IsBlind blankMargin := by
  refine ite_blind (p := fun s => s.grid.cursorX < s.grid.cols ∧ s.grid.cursorY < s.grid.rows) (fun _ => Iff.rfl) ?_
    fun _ => rfl
  exact blank_blind fun blank s => grid_step (s.grid.bare_visibleRowMut ..) fun g => rfl

theorem putChar_blind (c : Char) (width : Nat) : IsBlind (putChar · c width) := by
  refine ite_blind (p := fun s => s.grid.cursorX < s.grid.cols ∧ s.grid.cursorY < s.grid.rows) (fun _ => Iff.rfl) ?_
    fun _ => rfl
  intro s
  refine intern_blind s.state.currentStyle (fun id s => ?_) s
  refine grid_step (s.grid.bare_setCell ..) fun g => value_step (x := add16 g.cursorX width) rfl fun x => ?_
  refine ite_step Iff.rfl (value_step (x := sub g.cols 1) rfl fun right => ?_) rfl
  -- the wrap flag is set in both runs or in none
  refine congrArg (fun g => some (Screen.mk g s.state.bare [])) ?_
  change Grid.bare (if g.modes.autowrapMode then _ else _) = Grid.bare (if g.modes.autowrapMode then _ else _)
  split <;> rfl

theorem printBase_blind (c : Char) (width : Nat) : IsBlind (printBase · c width) := by
  have hrest : ∀ cut : Bool, IsBlind fun s => if cut then
      (if s.grid.modes.autowrapMode then
        (if s.grid.cols < 2 then some s
        else s.blankMargin.bind fun s => s.performDeferredWrap.bind fun s => s.putChar c width)
      else some s)
    else s.putChar c width := by
    refine fun cut => ite_blind (p := fun _ => cut = true) (fun _ => Iff.rfl) ?_ (putChar_blind c width)
    refine ite_blind (p := fun s => s.grid.modes.autowrapMode = true) (fun _ => Iff.rfl) ?_ fun _ => rfl
    refine ite_blind (p := fun s => s.grid.cols < 2) (fun _ => Iff.rfl) (fun _ => rfl) ?_
    exact comp_blind blankMargin_blind (comp_blind performDeferredWrap_blind (putChar_blind c width))
  by_cases hwide : width = 2
  · simp only [printBase, if_pos hwide]
    exact bind_blind (x := atRightMargin) (fun _ => rfl) hrest
  · simp only [printBase, if_neg hwide]
    exact hrest false

variable (W : UnicodeWidth)

theorem print_blind (c : Char) : IsBlind (print W · c) := by
  intro s
  let printed : Screen := { s with state := { s.state with lastPrintedChar := c } }
  have hbase := printBase_blind (s.mapCharset c) (W.charWidth (s.mapCharset c))
  refine ite_step (p := W.charWidth (s.mapCharset c) = 0) Iff.rfl (handleCombiningMark_blind _ printed) ?_
  exact ite_step (p := s.grid.wrapPending ∧ s.grid.modes.autowrapMode) Iff.rfl
    (comp_blind performDeferredWrap_blind hbase printed) (hbase printed)

/-! ## Sequences -/

theorem execute_blind (byte : UInt8) : IsBlind (execute · byte) := by
  intro s
  simp only [execute]
  split
  · rfl
  · exact advanceLine_blind (s.onGrid (·.setWrapPending false))
  · exact advanceLine_blind (s.onGrid (·.setWrapPending false))
  · exact advanceLine_blind (s.onGrid (·.setWrapPending false))
  · rfl
  · exact value_step (x := s.grid.nextTabStop s.grid.cursorX) rfl fun next => rfl
  · rfl
  · rfl
  · exact congrArg some (bare_passthrough s.grid.bare_bare s.bare_state _ _ _)
  · rfl

theorem setDecMode_blind (mode : Nat) (enable : Bool) : IsBlind (setDecMode · mode enable) := by
  intro s
  simp only [setDecMode]
  split
  · rfl
  · simp only [Screen.setModes, Screen.onGrid, Grid.setModes, Grid.setCursorX, Grid.setCursorY, Grid.setWrapPending]
    cases enable <;> rfl
  · rfl
  · rfl
  · rfl
  · rfl
  · rfl
  · rfl
  · rfl
  · rfl
  · cases enable with
    | true => rfl
    | false => exact restoreCursor_blind s
  · rfl
  · cases enable with
    | true => exact enterAltScreen_blind true s
    | false => exact exitAltScreen_blind true s
  · cases enable with
    | true => exact enterAltScreen_blind false s
    | false => exact exitAltScreen_blind false s
  · cases enable with
    | true => exact enterAltScreen_blind false s
    | false => exact exitAltScreen_blind false s
  · rfl

theorem csiSetDecPrivateMode_blind (ps : List Param) (enable : Bool) : IsBlind (csiSetDecPrivateMode · ps enable) := by
  refine Blind.foldlM bare_bare (fun p => ?_) ps
  cases p with
  | nil => exact fun _ => rfl
  | cons mode _ => exact setDecMode_blind mode enable

theorem pushTitle_blind : IsBlind pushTitle := by
  intro s
  refine ite_step (p := s.state.titleStack.length < 16) Iff.rfl ?_ rfl
  exact ite_step (p := maxTitleLen ≤ s.state.title.length) Iff.rfl
    (value_step (x := cutTitle s.state.title) rfl fun t => rfl) rfl

theorem popTitle_blind : IsBlind fun s => some s.popTitle := by
  apply some_blind
  intro s
  unfold popTitle
  rw [show s.bare.state.titleStack = s.state.titleStack from rfl]
  cases s.state.titleStack.getLast? <;> rfl

theorem pushResponse_blind (s : Screen) (data : List UInt8) :
    ({ s.bare with state := s.bare.state.pushResponse data } : Screen).bare =
      ({ s with state := s.state.pushResponse data } : Screen).bare := by
  refine congrArg (Screen.mk s.grid.bare · []) ?_
  rw [ScreenState.bare_pushResponse, ScreenState.bare_pushResponse]
  rfl

theorem csiDispatch_blind (ps : List Param) (intermediates : List Char) (action : Char) :
    IsBlind (csiDispatch W · ps intermediates action) := by
  intro s
  simp only [csiDispatch]
  split
  · rfl
  · exact value_step (x := lowerStop s.grid) rfl fun _ => rfl
  · exact value_step (x := sub s.grid.cols 1) rfl fun _ => rfl
  · rfl
  · exact value_step (x := lowerStop s.grid) rfl fun _ => rfl
  · rfl
  · exact value_step (x := sub s.grid.cols 1) rfl fun _ => rfl
  · exact value_step (x := addressedRow s.grid _) rfl fun _ => value_step (x := sub s.grid.cols 1) rfl fun _ => rfl
  · exact value_step (x := addressedRow s.grid _) rfl fun _ => value_step (x := sub s.grid.cols 1) rfl fun _ => rfl
  · exact value_step (x := addressedRow s.grid _) rfl fun _ => rfl
  · exact csiEraseDisplay_blind _ s
  · exact csiEraseLine_blind _ s
  · exact csiEraseCharacter_blind _ s
  · exact csiDeleteCharacter_blind _ s
  · exact csiInsertCharacter_blind _ s
  · exact Blind.iter bare_bare (print_blind W s.state.lastPrintedChar) _ s
  · rfl
  · refine ite_step Iff.rfl ?_ rfl
    exact value_step (x := s.cursorReport) rfl fun r => congrArg some (s.pushResponse_blind r)
  · refine ite_step Iff.rfl (ite_step Iff.rfl ?_ (ite_step Iff.rfl ?_ rfl)) rfl
    · exact congrArg some (s.pushResponse_blind _)
    · exact congrArg some (s.pushResponse_blind _)
  · exact ite_step Iff.rfl rfl rfl
  · exact Blind.iter bare_bare scrollUp_blind _ s
  · exact ite_step Iff.rfl (Blind.iter bare_bare scrollDown_blind _ s) rfl
  · exact shiftLines_blind _ (fun y bottom blank g => bare_moveBlank y bottom bottom blank g) s
  · exact shiftLines_blind _ (fun y bottom blank g => bare_moveBlank bottom y bottom blank g) s
  · refine ite_step Iff.rfl ?_ rfl
    simp only [csiSetScrollingRegion, onGrid, Grid.setScrollRegion, Grid.setWrapPending, Grid.setCursorX, Grid.setCursorY]
    exact value_step (x := sub s.grid.rows 1) rfl fun last => ite_step Iff.rfl rfl rfl
  · exact ite_step Iff.rfl rfl rfl
  · exact ite_step Iff.rfl (restoreCursor_blind s) rfl
  · refine ite_step Iff.rfl ?_ rfl
    split <;> rfl
  · refine ite_step Iff.rfl ?_ rfl
    split
    · exact pushTitle_blind s
    · exact popTitle_blind s
    · rfl
  · exact ite_step Iff.rfl (csiSetDecPrivateMode_blind ps true s) rfl
  · exact ite_step Iff.rfl (csiSetDecPrivateMode_blind ps false s) rfl
  · rfl

theorem alignmentPattern_blind : IsBlind alignmentPattern := by
  intro s
  apply grid_step s.grid.bare_resetScrollRegion
  intro g
  refine intern_blind {} (fun id s => ?_) { s with grid := ((g.setCursorX 0).setCursorY 0).setWrapPending false }
  exact grid_step (iterFrom_renamed (fun y g => iterFrom_renamed (fun x g => g.bare_setCell x y _) 0 _ g) 0 _ s.grid)
    fun g => rfl

/-- The end of RIS. -/
theorem clear_alike {g' g : Grid} (h : g'.bare = g.bare) {st' st : ScreenState} (hst : st'.bare = st.bare)
    (off' off : List Row) (data : List UInt8) :
    ((g'.eraseRows 0 g'.rows {}).bind fun g' => g'.clearScrollback.bind fun g' =>
        some (Screen.mk g' (st'.pushPassthrough data) off')).map bare =
      ((g.eraseRows 0 g.rows {}).bind fun g => g.clearScrollback.bind fun g =>
        some (Screen.mk g (st.pushPassthrough data) off)).map bare := by
  have hrows : g'.rows = g.rows := congrArg (·.rows) h
  rw [hrows]
  exact alike_step (f := (·.eraseRows 0 g.rows {})) (fun g => g.bare_eraseRows ..) h fun g' g h =>
    alike_step Grid.bare_clearScrollback h fun g' g h => congrArg some (bare_passthrough h hst _ _ _)

theorem fullReset_blind : IsBlind fullReset := by
  intro s
  apply grid_step (Grid.bare_resetScrollRegion ((s.grid.setCursorX 0).setCursorY 0))
  intro g
  dsimp only
  refine clear_alike ?_ ?_ _ _ _
  · rfl
  · rfl

theorem escDispatch_blind (intermediates : List Char) (byte : Char) : IsBlind (escDispatch · intermediates byte) := by
  intro s
  simp only [escDispatch]
  split
  · rfl
  · exact advanceLine_blind (s.onGrid (·.setWrapPending false))
  · exact advanceLine_blind (s.onGrid fun g => (g.setCursorX 0).setWrapPending false)
  · exact ite_step Iff.rfl (scrollDown_blind s) rfl
  · rfl
  · exact restoreCursor_blind s
  · exact fullReset_blind s
  · rfl
  · rfl
  · rfl
  · rfl
  · rfl
  · rfl
  · exact alignmentPattern_blind s
  · rfl

theorem oscDispatch_blind (params : List (List UInt8)) (bell : Bool) : IsBlind (oscDispatch · params bell) := by
  intro s
  unfold oscDispatch
  cases params with
  | nil => rfl
  | cons num rest =>
    dsimp only
    refine ite_step Iff.rfl ?_ (ite_step Iff.rfl (congrArg some ?_) (congrArg some (bare_passthrough s.grid.bare_bare s.bare_state _ _ _)))
    · cases rest with
      | nil => rfl
      | cons title _ =>
        refine ite_step Iff.rfl ?_ rfl
        exact ite_step Iff.rfl rfl (value_step (x := cutTitle title) rfl fun t => rfl)
    · rfl

/-- No callback looks at what `bare` leaves out. -/
theorem step_blind (e : Event) : IsBlind (step W · e) := by
  cases e with
  | print c => exact print_blind W c
  | execute byte => exact execute_blind byte
  | csi ps intermediates action => exact csiDispatch_blind W ps intermediates action
  | esc intermediates byte => exact escDispatch_blind intermediates byte
  | osc params bell => exact oscDispatch_blind params bell

theorem process_blind (es : List Event) : IsBlind (process W · es) := Blind.foldlM bare_bare (step_blind W) es

end Screen

end Retach
