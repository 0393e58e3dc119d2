import Retach.Bare
import Retach.Safety
/-!
# RIS

Whatever ran before, `ESC c` leaves the screen that a new one of the current
size would be, but for the queues. The scrollback limit it brings back is the
one the screen was made with: while the alternate screen is shown, the saved
grid has it. No callback looks at the queues, so later output goes on as on a
new screen.
-/

open Checked Runs Views

namespace Retach

namespace Screen

variable (W : UnicodeWidth) {s : Screen}

/-- RIS on a screen with the invariant. -/
theorem fullReset_bare (h : s.Inv) :
    ∃ s', s.fullReset = some s' ∧ s'.bare = Screen.new s.grid.cols s.grid.rows s.mainLimit := by
  refine ⟨_, fullReset_eq h.shape, ?_⟩
  have hcols : max s.grid.cols 1 = s.grid.cols := Nat.max_eq_left h.shape.cols_pos
  have hrows : max s.grid.rows 1 = s.grid.rows := Nat.max_eq_left h.shape.rows_pos
  simp only [bare, ScreenState.bare_pushPassthrough, Screen.new, Grid.new, sanitizeDimensions, hcols, hrows]
  rfl

theorem run_mainLimit {t : Screen} {as : List Action} (hs : s.Inv) (hsized : ∀ a ∈ as, a.Sized)
    (hrun : s.run W as = some t) : t.Inv ∧ t.mainLimit = s.mainLimit :=
  (Along.of_forall hsized s).keeps (I := fun t => t.Inv ∧ t.mainLimit = s.mainLimit) (fun _ _ _ h hsized hact =>
    have hsteps := act_steps W h.1 hsized hact
    ⟨steps_inv hsteps h.1, (steps_mainLimit hsteps h.1).trans h.2⟩) ⟨hs, rfl⟩ hrun

/-- After any run `ESC c` succeeds and leaves a new screen of the current size,
but for the queues, and later output does what it does on one. -/
theorem run_resets {cols rows : Nat} (limit : Nat) (hcols : cols ≤ 65535) (hrows : rows ≤ 65535) {as : List Action}
    (hsized : ∀ a ∈ as, a.Sized) (hrun : (Screen.new cols rows limit).run W as = some s) :
    ∃ s', s.step W (.esc [] 'c') = some s' ∧ s'.bare = Screen.new s.grid.cols s.grid.rows limit ∧
      ∀ es, (s'.process W es).map bare = ((Screen.new s.grid.cols s.grid.rows limit).process W es).map bare := by
  obtain ⟨hinv, hlimit⟩ := run_mainLimit W (new_inv limit hcols hrows) hsized hrun
  obtain ⟨s', hreset, hbare⟩ := fullReset_bare hinv
  rw [hlimit] at hbare
  refine ⟨s', hreset, hbare, fun es => (process_blind W es).alike ?_⟩
  exact hbare

theorem run_resets_sample : ∃ s s', (Screen.new 4 2 10).run .sample
      [.callback (.csi [[1049]] ['?'] 'h'), .callback (.print 'a'), .resize 3 2] = some s ∧
    s.step .sample (.esc [] 'c') = some s' ∧ s'.bare = Screen.new s.grid.cols s.grid.rows 10 := by
  have hsized : ∀ a ∈ [Action.callback (.csi [[1049]] ['?'] 'h'), .callback (.print 'a'), .resize 3 2], a.Sized := by
    simp [Action.Sized]
  obtain ⟨s', hstep, hbare, -⟩ := run_resets .sample 10 (show 4 ≤ 65535 by decide) (show 2 ≤ 65535 by decide) hsized rfl
  exact ⟨_, s', rfl, hstep, hbare⟩

end Screen

end Retach
