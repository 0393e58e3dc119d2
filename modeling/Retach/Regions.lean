import Retach.AltScreen
import Retach.Growing
/-!
# The scroll region across the alternate screen

`enter_alt_screen` parks the scroll region of the main screen as row numbers and
`exit_alt_screen` clamps them to the rows there are. A region that was the whole
screen is cut with the screen, but does not grow with it.
-/

open Checked Lists Runs

namespace Retach

/-- The action neither leaves the alternate screen nor resets the terminal. -/
def Action.StaysAlt : Action → Prop
  | .callback e => e.StaysAlt
  | _ => True

def Action.isResize : Action → Bool
  | .resize _ _ => true
  | _ => false

namespace Screen

/-- The scroll region is the whole screen. -/
def WholeRegion (s : Screen) : Prop := s.grid.scrollTop = 0 ∧ s.grid.scrollBottom = s.grid.rows - 1

/-- A line feed moves every visible row up by one, and the first one into the
scrollback. -/
def FeedsScrollback (s : Screen) : Prop := ∃ s' top rest blank, s.execute 0x0a = some s' ∧
  s.grid.visibleRows = top :: rest ∧ s'.grid.visibleRows = rest ++ [Row.filled s.grid.cols blank] ∧
  s'.grid.scrollbackRows = (s.grid.scrollbackRows ++ [top]).rtake s.grid.scrollbackLimit

/-- `t` shows the alternate screen, and the main screen's region is parked. -/
structure ParksRegion (region : Nat × Nat) (t : Screen) : Prop where
  alt : t.state.inAltScreen = true
  savedRegion : t.state.savedScrollRegion = some region

end Screen

theorem Effect.parksRegion {k : Kind} {t t' : Screen} {region : Nat × Nat} (h : Effect k t t') (hexit : k ≠ .exit)
    (hreset : k ≠ .reset) (hs : t.ParksRegion region) : t'.ParksRegion region := by
  have hne : ¬ t.state.inAltScreen = false := by simp [hs.alt]
  cases h with
  | aux st ha | osc st ha => exact ⟨ha.inAltScreen.trans hs.alt, ha.savedScrollRegion.trans hs.savedRegion⟩
  | enter halt => exact absurd halt hne
  | exit => exact absurd rfl hexit
  | reset => exact absurd rfl hreset
  | _ => exact ⟨hs.alt, hs.savedRegion⟩

/-! ## Line feeds -/

namespace Screen

variable {s t t' u : Screen} {W : UnicodeWidth} {region : Nat × Nat}

/-- In the last row of a main screen that scrolls as a whole. -/
theorem WholeRegion.feeds (hw : s.WholeRegion) (h : s.Inv) (hmain : s.state.inAltScreen = false)
    (hlimit : 0 < s.grid.scrollbackLimit) (hy : s.grid.cursorY = s.grid.rows - 1) : s.FeedsScrollback := by
  let s₁ := s.onGrid (·.setWrapPending false)
  have h₁ : s₁.Inv := (Effect.cursor s.grid.cursorX s.grid.cursorY false h.shape.cursor_x h.shape.cursor_y).inv h
  obtain ⟨id, table, hblank, -⟩ := blankCell_inv h₁
  let s₂ := s₁.onGrid (·.setStyleTable table)
  have hshape : s₂.grid.Shape := { h₁.shape with }
  have hlen := h.shape.visible_length
  have hpos := h.shape.rows_pos
  cases hvis : s.grid.visibleRows with
  | nil =>
    rw [hvis, List.length_nil] at hlen
    omega
  | cons top rest =>
    have hrest : rest.length = s.grid.scrollBottom := by
      rw [hvis, List.length_cons] at hlen
      rw [hw.2]
      omega
    let blank : Cell := { c := ' ', styleId := id, width := 1 }
    have hscroll := hshape.scrollUp_capture (show s₂.grid.visibleRows = top :: rest from hvis) hw.1 hlimit blank
    rw [show s₂.grid.scrollBottom = rest.length from hrest.symm, List.insertIdx_length_self] at hscroll
    have hnew : (rest ++ [Row.filled s.grid.cols blank]).length = s.grid.rows := by
      rw [List.length_append, List.length_singleton, hrest, hw.2]
      omega
    let vis := rest ++ [Row.filled s.grid.cols blank]
    refine ⟨{ s₂ with grid := s₂.grid.captured top vis, scrolledOff := s₂.scrolledOff ++ s₂.displacedRow }, top, rest,
      blank, ?_, hvis, ?_, ?_⟩
    · change s₁.advanceLine = _
      rw [advanceLine, if_pos (show s₁.grid.cursorY = s₁.grid.scrollBottom from hy.trans hw.2.symm), scrollUp, hblank]
      simp only [Option.bind_eq_bind, Option.bind_some]
      rw [show (s₁.onGrid (·.setStyleTable table)).state.inAltScreen = false from hmain]
      exact congrArg (Option.bind · _) hscroll
    · exact hshape.captured_visible top hnew
    · exact hshape.captured_scrollback (h.main_limit hmain) top _

/-! ## Runs -/

theorem act_parksRegion {a : Action} (h : t.Inv ∧ t.ParksRegion region) (ha : a.Sized ∧ a.StaysAlt)
    (hact : t.act W a = some t') : t'.Inv ∧ t'.ParksRegion region := by
  have hsteps : Steps Effect (fun k => k ≠ .exit ∧ k ≠ .reset) t t' := by
    cases a with
    | callback e =>
      exact (step_leads h.1 e (allows_alt W ha.2 t) t' hact).mono fun _ hk => ⟨hk.1, hk.2.1⟩
    | resize cols rows => exact (resize_does (by decide) h.1 ha.1.1 ha.1.2).leads t' hact
    | takeScrollback => exact (Takes.of_steps (.single (by decide) .takeScrollback)).leads t' hact
  exact ⟨steps_inv hsteps h.1, hsteps.keeps (fun _ _ _ hk he hs => he.parksRegion hk.1 hk.2 hs) h.2⟩

/-- The region after `exit_alt_screen`. -/
theorem ParksRegion.exit (hs : t.ParksRegion region) (h : t.Inv) (restore : Bool) :
    ∃ s', t.exitAltScreen restore = some s' ∧ s'.Inv ∧ s'.state.inAltScreen = false ∧ s'.grid.rows = t.grid.rows ∧
      s'.grid.scrollTop = min region.1 (t.grid.rows - 1) ∧
      s'.grid.scrollBottom = max (min region.2 (t.grid.rows - 1)) (min region.1 (t.grid.rows - 1)) := by
  obtain ⟨saved, hgrid⟩ := Option.isSome_iff_exists.1 (h.savedGrid.1 hs.alt)
  obtain ⟨modes, hmodes⟩ := Option.isSome_iff_exists.1 (h.savedModes.1 hs.alt)
  have hexit : Does (fun _ => True) t (t.exitAltScreen restore) := exitAltScreen_does trivial trivial trivial h restore trivial
  have heq := exitAltScreen_eq h hs.alt hgrid hmodes hs.savedRegion restore
  have hinv := steps_inv (hexit.leads _ heq) h
  refine ⟨_, heq, hinv, ?_⟩
  -- the saved cursor and the compaction leave the region
  have hback : ∀ u : Screen, (u.cursorBack.grid.rows = u.grid.rows ∧ u.cursorBack.grid.scrollTop = u.grid.scrollTop ∧
      u.cursorBack.grid.scrollBottom = u.grid.scrollBottom) ∧ u.cursorBack.state.inAltScreen = u.state.inAltScreen := by
    intro u
    unfold cursorBack
    cases u.state.savedCursorState <;> exact ⟨⟨rfl, rfl, rfl⟩, rfl⟩
  have hcompact : ∀ g : Grid, (compactStyles g none).rows = g.rows ∧ (compactStyles g none).scrollTop = g.scrollTop ∧
      (compactStyles g none).scrollBottom = g.scrollBottom := by
    intro g
    unfold compactStyles
    split <;> exact ⟨rfl, rfl, rfl⟩
  obtain ⟨⟨hr, ht, hb⟩, ha⟩ := hback (t.switchedBack saved modes region)
  cases restore with
  | true =>
    obtain ⟨hr', ht', hb'⟩ := hcompact (t.switchedBack saved modes region).cursorBack.grid
    exact ⟨ha, hr'.trans hr, ht'.trans ht, hb'.trans hb⟩
  | false =>
    obtain ⟨hr', ht', hb'⟩ := hcompact (t.switchedBack saved modes region).grid
    exact ⟨rfl, hr', ht', hb'⟩

theorem act_rows {a : Action} (h : s.Inv) (hsized : a.Sized) (hact : s.act W a = some t) (hno : a.isResize = false) :
    t.grid.rows = s.grid.rows := by
  cases a with
  | callback e => exact (steps_dims (by simp) (step_steps W h hact)).2
  | resize => cases hno
  | takeScrollback =>
    obtain rfl := Option.some.inj hact
    rfl

theorem resized_whole (cols rows : Nat) : (s.resized cols rows).WholeRegion := ⟨rfl, rfl⟩

/-- The resizes of a run alone, on another screen: in the end it has as many
rows, and still scrolls as a whole. -/
theorem resizes_whole {as : List Action} (hs : s.Inv) (ht : t.Inv) (hsized : ∀ a ∈ as, a.Sized)
    (hrows : s.grid.rows = t.grid.rows) (hw : s.WholeRegion) (hrun : t.run W as = some t')
    (hmain : s.run W (as.filter Action.isResize) = some u) : u.WholeRegion ∧ u.grid.rows = t'.grid.rows := by
  induction as generalizing s t with
  | nil =>
    obtain rfl : s = u := by simpa [run] using hmain
    obtain rfl : t = t' := by simpa [run] using hrun
    exact ⟨hw, hrows⟩
  | cons a as ih =>
    have ha := hsized a (List.mem_cons_self ..)
    have has : ∀ b ∈ as, b.Sized := fun b hb => hsized b (List.mem_cons_of_mem _ hb)
    rw [run, List.foldlM_cons] at hrun
    obtain ⟨t₁, ht₁, hrun⟩ := Option.bind_eq_some_iff.1 hrun
    have hinv := act_inv W ht ha ht₁
    cases hres : a.isResize with
    | false =>
      rw [List.filter_cons_of_neg (by simp [hres])] at hmain
      exact ih hs hinv has (hrows.trans (act_rows ht ha ht₁ hres).symm) hw hrun hmain
    | true =>
      rw [List.filter_cons_of_pos hres, run, List.foldlM_cons] at hmain
      obtain ⟨s₁, hs₁, hmain⟩ := Option.bind_eq_some_iff.1 hmain
      cases a with
      | callback => cases hres
      | takeScrollback => cases hres
      | resize cols rows =>
        have hs₁' : s₁ = s.resized cols rows := Option.some.inj (hs₁.symm.trans (resize_eq hs cols ha.2))
        have ht₁' : t₁ = t.resized cols rows := Option.some.inj (ht₁.symm.trans (resize_eq ht cols ha.2))
        subst hs₁' ht₁'
        exact ih (act_inv W hs ha hs₁) hinv has rfl (resized_whole cols rows) hrun hmain

/-! ## The theorem -/

/-- A program runs on the alternate screen of a main screen that scrolls as a
whole, while the terminal is resized. After it has left, the main screen scrolls
as a whole exactly when it has not grown; resized by itself, it always does.
Scrolling as a whole, it feeds its scrollback from the last row. -/
theorem alt_region_iff (hs : s.Reachable W) (hmain : s.state.inAltScreen = false) (hw : s.WholeRegion) {mode mode' : Nat}
    (hm : mode ∈ altModes) (hm' : mode' ∈ altModes) {as : List Action} (hsized : ∀ a ∈ as, a.Sized)
    (hstays : ∀ a ∈ as, a.StaysAlt) (hrun : s.run W (.callback (.decSet mode) :: as) = some t) :
    ∃ s', t.step W (.decReset mode') = some s' ∧ s'.state.inAltScreen = false ∧ s'.grid.rows = t.grid.rows ∧
      (s'.WholeRegion ↔ t.grid.rows ≤ s.grid.rows) ∧
      (∀ u, s.run W (as.filter Action.isResize) = some u → u.WholeRegion ∧ u.grid.rows = s'.grid.rows) ∧
      (s'.WholeRegion → 0 < s'.grid.scrollbackLimit → s'.grid.cursorY = s'.grid.rows - 1 → s'.FeedsScrollback) := by
  have h := hs.inv
  rw [run, List.foldlM_cons] at hrun
  obtain ⟨t₀, ht₀, hrun⟩ := Option.bind_eq_some_iff.1 hrun
  have hinv₀ : t₀.Inv := act_inv W h (a := .callback (.decSet mode)) trivial ht₀
  obtain ⟨hparks, hrows₀⟩ : t₀.ParksRegion (s.grid.scrollTop, s.grid.scrollBottom) ∧ t₀.grid.rows = s.grid.rows := by
    have henter : s.step W (.decSet mode) = some t₀ := ht₀
    rw [step_decSet h hmain hm] at henter
    obtain rfl := Option.some.inj henter
    split <;> exact ⟨⟨rfl, rfl⟩, rfl⟩
  obtain ⟨hinv, hpark⟩ := (Along.of_forall (P := fun a => a.Sized ∧ a.StaysAlt)
    (fun a ha => ⟨hsized a ha, hstays a ha⟩) t₀).keeps (I := fun t => t.Inv ∧ t.ParksRegion (s.grid.scrollTop, s.grid.scrollBottom))
    (fun _ _ _ h ha hact => act_parksRegion h ha hact) ⟨hinv₀, hparks⟩ hrun
  obtain ⟨s', hexit, hinv', hmain', hrows, htop, hbottom⟩ := hpark.exit hinv (mode' = 1049)
  refine ⟨s', (step_decReset hm').trans hexit, hmain', hrows, ?_, fun u hu => ?_, fun hw' hlimit hy =>
    hw'.feeds hinv' hmain' hlimit hy⟩
  · have hpos := hinv.shape.rows_pos
    have hpos₀ := h.shape.rows_pos
    rw [WholeRegion, htop, hbottom, hrows, hw.1, hw.2]
    omega
  · rw [hrows]
    exact resizes_whole h hinv₀ hsized hrows₀.symm hw hrun hu

theorem alt_region_sample : ∃ t s', (Screen.new 4 3 10).run .sample [.callback (.decSet 1049), .resize 4 5, .resize 2 2] =
    some t ∧ t.step .sample (.decReset 1049) = some s' ∧ s'.WholeRegion := by
  have hs : (Screen.new 4 3 10).Reachable .sample := new_reachable .sample 4 3 10 (by decide) (by decide)
  obtain ⟨t, hrun, hrows⟩ : ∃ t, (Screen.new 4 3 10).run .sample [.callback (.decSet 1049), .resize 4 5, .resize 2 2] = some t ∧
      t.grid.rows = 2 := ⟨_, rfl, rfl⟩
  obtain ⟨s', hstep, -, -, hiff, -⟩ := alt_region_iff hs rfl ⟨rfl, rfl⟩ (show 1049 ∈ altModes by decide)
    (show 1049 ∈ altModes by decide) (by simp [Action.Sized]) (by simp [Action.StaysAlt]) hrun
  exact ⟨t, s', hrun, hstep, hiff.2 (by rw [hrows]; decide)⟩

/-- Two rows grow to four while the alternate screen is shown: the main screen
comes back with the first two as its scroll region. -/
theorem alt_region_stale : ∃ t s', (Screen.new 2 2 10).run .sample [.callback (.decSet 1049), .resize 2 4] = some t ∧
    t.step .sample (.decReset 1049) = some s' ∧ ¬ s'.WholeRegion := by
  refine ⟨_, _, rfl, rfl, ?_⟩
  intro h
  exact absurd h.2 (by decide)

end Screen

end Retach
