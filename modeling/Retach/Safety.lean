import Retach.Dispatch
/-!
# No run panics

Every run of callbacks, resizes and deliveries of scrollback keeps the grid
well shaped and never fails, as long as the printed characters fit into 16-bit
columns. One character of the Unicode tables is three columns wide, and the
code does not expect it.
-/

open Checked Runs

namespace Retach

/-- What happens to a screen. -/
inductive Action where
  | callback (e : Event)
  | resize (cols rows : Nat)
  | takeScrollback
deriving DecidableEq, Repr

/-- Dimensions are 16-bit. -/
def Action.Sized : Action → Prop
  | .resize cols rows => cols ≤ 65535 ∧ rows ≤ 65535
  | _ => True

/-- The payload of an OSC sequence is short. -/
def Action.OscBounded : Action → Prop
  | .callback e => e.OscBounded
  | _ => True

namespace Screen

variable (W : UnicodeWidth)

def act (s : Screen) : Action → Option Screen
  | .callback e => s.step W e
  | .resize cols rows => s.resize cols rows
  | .takeScrollback => some s.takePendingScrollback.2

def run (s : Screen) (as : List Action) : Option Screen := as.foldlM (act W) s

/-! ## The invariant of the grid -/

/-- What the code relies on between calls. -/
structure WellShaped (s : Screen) : Prop where
  cells : s.grid.cells.length = s.grid.scrollbackLen + s.grid.rows
  pending : s.grid.pendingStart ≤ s.grid.scrollbackLen
  rows : ∀ row ∈ s.grid.visibleRows, row.cells.length = s.grid.cols
  cursor : s.grid.cursorX < s.grid.cols ∧ s.grid.cursorY < s.grid.rows
  region : s.grid.scrollTop ≤ s.grid.scrollBottom ∧ s.grid.scrollBottom < s.grid.rows
  tabs : s.grid.tabStops.length = s.grid.cols
  alt : s.state.inAltScreen = true ↔
    s.state.savedGrid.isSome = true ∧ s.state.savedModes.isSome = true ∧ s.state.savedScrollRegion.isSome = true
  main : s.state.inAltScreen = false →
    s.state.savedGrid = none ∧ s.state.savedModes = none ∧ s.state.savedScrollRegion = none
  limit : s.state.inAltScreen = false → s.grid.scrollbackLen ≤ s.grid.scrollbackLimit

theorem Inv.wellShaped {s : Screen} (h : s.Inv) : s.WellShaped where
  cells := h.shape.cells_len
  pending := h.shape.pending_le
  rows := h.shape.row_len
  cursor := ⟨h.shape.cursor_x, h.shape.cursor_y⟩
  region := ⟨h.shape.region_le, h.shape.region_lt⟩
  tabs := h.shape.tabs_len
  alt := ⟨fun ha => ⟨h.savedGrid.1 ha, h.savedModes.1 ha, h.savedRegion.1 ha⟩, fun hs => h.savedGrid.2 hs.1⟩
  main := fun ha => by
    have h₁ := h.savedGrid
    have h₂ := h.savedModes
    have h₃ := h.savedRegion
    simp only [ha, Bool.false_eq_true, false_iff, Bool.not_eq_true, Option.isSome_eq_false_iff,
      Option.isNone_iff_eq_none] at h₁ h₂ h₃
    exact ⟨h₁, h₂, h₃⟩
  limit := fun ha => by
    have hnone : s.state.savedGrid = none := by simpa [ha] using h.savedGrid
    have hl := h.limit
    rwa [mainLimit, hnone] at hl

theorem new_inv {cols rows : Nat} (limit : Nat) (hcols : cols ≤ 65535) (hrows : rows ≤ 65535) :
    (Screen.new cols rows limit).Inv where
  shape := {
    cols_pos := Nat.le_max_right _ _
    cols_le := show max cols 1 ≤ 65535 by omega
    rows_pos := Nat.le_max_right _ _
    rows_le := show max rows 1 ≤ 65535 by omega
    cells_len := by simp [Screen.new, Grid.new]
    pending_le := Nat.le_refl 0
    row_len := fun row hr => by
      obtain rfl := (List.mem_replicate.1 (List.mem_of_mem_drop (List.mem_of_mem_take hr))).2
      simp [Row.new, Row.filled, Screen.new, Grid.new]
    cursor_x := Nat.le_max_right _ _
    cursor_y := Nat.le_max_right _ _
    region_le := Nat.zero_le _
    region_lt := Nat.sub_lt (Nat.le_max_right _ _) Nat.one_pos
    tabs_len := defaultTabStops_length _ }
  table := StyleTable.wf_new
  held := fun row hr c hc => by
    simp only [allRows, Screen.new, Grid.new, SavedGrid.rows, List.append_nil, List.mem_replicate] at hr
    obtain ⟨-, rfl⟩ := hr
    obtain rfl := (List.mem_replicate.1 hc).2
    exact StyleTable.wf_new.held_zero
  savedGrid := by simp [Screen.new]
  savedModes := by simp [Screen.new]
  savedRegion := by simp [Screen.new]
  limit := Nat.zero_le _

/-! ## Runs -/

/-- The states that runs lead to. -/
def Reachable (s : Screen) : Prop :=
  ∃ cols rows limit as, cols ≤ 65535 ∧ rows ≤ 65535 ∧ (∀ a ∈ as, Action.Sized a) ∧ (Screen.new cols rows limit).run W as = some s

/-- Every character an action prints fits. -/
def ActFits (s : Screen) : Action → Prop
  | .callback e => EveryPrint W (PrintFits W) s e
  | _ => True

theorem new_reachable (cols rows limit : Nat) (hcols : cols ≤ 65535) (hrows : rows ≤ 65535) :
    (Screen.new cols rows limit).Reachable W :=
  ⟨cols, rows, limit, [], hcols, hrows, fun _ h => absurd h List.not_mem_nil, rfl⟩

/-- One action keeps the invariant and succeeds. -/
theorem act_safe {s : Screen} {a : Action} (h : s.Inv ∧ s.state.TitlesBounded) (hsized : a.Sized)
    (hosc : a.OscBounded) (hfits : s.ActFits W a) : ∃ s', s.act W a = some s' ∧ s'.Inv ∧ s'.state.TitlesBounded := by
  have hsteps : Does (· ≠ .title) s (s.act W a) := by
    cases a with
    | callback e => exact step_does h.1 h.2 e hosc hfits (.of_forall W (fun _ _ hk => hk) fun hn => absurd hosc hn)
    | resize cols rows => exact resize_does (by decide) h.1 hsized.1 hsized.2
    | takeScrollback => exact .of_steps (.single (by decide) .takeScrollback)
  obtain ⟨s', hs', hst⟩ := hsteps
  exact ⟨s', hs', steps_inv hst h.1, steps_titles (by simp) hst h.2⟩

/-- One action that succeeds is a path of effects. -/
theorem act_steps {s s' : Screen} {a : Action} (h : s.Inv) (hsized : a.Sized) (hact : s.act W a = some s') :
    Steps Effect (fun _ => True) s s' := by
  cases a with
  | callback e => exact step_leads h e (.of_forall W (fun _ _ _ => trivial) fun _ => trivial) s' hact
  | resize cols rows => exact (resize_does trivial h hsized.1 hsized.2).leads s' hact
  | takeScrollback => exact (Takes.of_steps (.single trivial .takeScrollback)).leads s' hact

/-- Callbacks do not change the dimensions. -/
theorem step_steps {s s' : Screen} {e : Event} (h : s.Inv) (hstep : s.step W e = some s') :
    Steps Effect (· ≠ .resize) s s' :=
  step_leads h e (.of_forall W (fun _ hk _ => hk) fun _ => by simp) s' hstep

theorem process_steps {s s' : Screen} {es : List Event} (h : s.Inv) (hrun : s.process W es = some s') :
    Steps Effect (· ≠ .resize) s s' :=
  ((Along.of_forall (fun _ _ => trivial) s).keeps (P := fun _ _ => True) (I := fun t => t.Inv ∧ Steps Effect (· ≠ .resize) s t)
    (fun _ _ _ ht _ hstep =>
      have hsteps := step_steps W ht.1 hstep
      ⟨steps_inv hsteps ht.1, ht.2.trans hsteps⟩) ⟨h, .refl s⟩ hrun).2

theorem act_inv {s s' : Screen} {a : Action} (h : s.Inv) (hsized : a.Sized) (hact : s.act W a = some s') : s'.Inv :=
  steps_inv (act_steps W h hsized hact) h

variable {W} in
theorem Inv.run {s s' : Screen} {as : List Action} (h : s.Inv) (hsized : ∀ a ∈ as, a.Sized) (hrun : s.run W as = some s') :
    s'.Inv :=
  (Along.of_forall hsized _).keeps (fun _ _ _ h hp hact => act_inv W h hp hact) h hrun

theorem Reachable.inv {s : Screen} (h : s.Reachable W) : s.Inv := by
  obtain ⟨cols, rows, limit, as, hcols, hrows, hsized, hrun⟩ := h
  exact (new_inv limit hcols hrows).run hsized hrun

/-! ## Narrow screens -/

theorem printsIn_narrow {s : Screen} (h : s.Inv) (hcols : s.grid.cols ≤ 65533) (c : Char) (n : Nat) :
    PrintsIn W (PrintFits W) c n s := by
  induction n generalizing s with
  | zero => trivial
  | succ n ih =>
    have hx := h.shape.cursor_x
    have hw := W.charWidth_le (s.mapCharset c)
    refine ⟨.inr (.inr (by omega)), ?_⟩
    intro s' hs'
    have hsteps := step_steps W h (e := .print c) hs'
    exact ih (steps_inv hsteps h) ((steps_dims (by simp) hsteps).1 ▸ hcols)

/-- On at most 65533 columns every character fits. -/
theorem everyPrint_narrow {s : Screen} (h : s.Inv) (hcols : s.grid.cols ≤ 65533) (e : Event) :
    EveryPrint W (PrintFits W) s e := by
  unfold EveryPrint
  split
  · exact (printsIn_narrow W h hcols _ 1).1
  · exact printsIn_narrow W h hcols _ _
  · trivial

theorem along_narrow {s : Screen} (h : s.Inv) (hcols : s.grid.cols ≤ 65533) (es : List Event) :
    Along (step W) (EveryPrint W (PrintFits W)) s es := by
  induction es generalizing s with
  | nil => trivial
  | cons e es ih =>
    refine ⟨everyPrint_narrow W h hcols e, ?_⟩
    intro s' hs'
    have hsteps := step_steps W h hs'
    exact ih (steps_inv hsteps h) ((steps_dims (by simp) hsteps).1 ▸ hcols)

/-! ## The theorem -/

/-- A run from a new screen whose printed characters fit never panics and keeps
the shape of the grid. -/
theorem run_safe {cols rows : Nat} (limit : Nat) (hcols : cols ≤ 65535) (hrows : rows ≤ 65535) (as : List Action)
    (hsized : ∀ a ∈ as, a.Sized) (hosc : ∀ a ∈ as, a.OscBounded)
    (hfits : Along (act W) (ActFits W) (Screen.new cols rows limit) as) :
    ∃ s', (Screen.new cols rows limit).run W as = some s' ∧ s'.WellShaped := by
  have halong := ((Along.of_forall hsized _).and (Along.of_forall hosc _)).and hfits
  obtain ⟨s', hs', h, -⟩ := halong.succeeds (I := fun s => s.Inv ∧ s.state.TitlesBounded)
    (fun s a h hp => act_safe W h hp.1.1 hp.1.2 hp.2) ⟨new_inv limit hcols hrows, Nat.zero_le _, by simp [Screen.new]⟩
  exact ⟨s', hs', h.wellShaped⟩

theorem run_safe_sample : ∃ s', (Screen.new 80 24 1000).run .sample
    [.callback (.print 'a'), .callback (.print '世'), .resize 3 0, .callback (.esc [] 'D'), .takeScrollback] = some s' ∧
      s'.WellShaped := by
  refine run_safe .sample 1000 (by decide) (by decide) _ ?_ ?_ ⟨.inr (.inl (by decide)), fun s₁ h₁ => ⟨.inr (.inl ?_),
    fun _ _ => ⟨trivial, fun _ _ => ⟨trivial, fun _ _ => ⟨trivial, fun _ _ => trivial⟩⟩⟩⟩⟩
  · simp [Action.Sized]
  · simp [Action.OscBounded, Event.OscBounded]
  · unfold mapCharset
    split <;> decide

/-- U+17D8 takes three columns: printed in the last column of a screen as wide
as a 16-bit word, it overflows the cursor. -/
theorem wide_overflows {s : Screen} (h : s.Inv) (hcols : s.grid.cols = 65535) :
    s.run .sample [.callback (.csi [[65535]] [] 'G'), .callback (.print '\u17d8')] = none := by
  have h₁ := (Effect.cursor 65534 s.grid.cursorY false (by rw [hcols]; decide) h.shape.cursor_y).inv h
  have hstep : s.act .sample (.callback (.csi [[65535]] [] 'G')) =
      some (s.onGrid fun g => ((g.setCursorX 65534).setCursorY s.grid.cursorY).setWrapPending false) := by
    change s.csiCursorHorizontalAbsolute (param [[65535]] 0 1) = _
    rw [csiCursorHorizontalAbsolute, h.right, hcols]
    simp only [Option.bind_eq_bind, Option.bind_some]
    rw [show min (param [[65535]] 0 1 - 1) (65535 - 1) = 65534 by decide]
    rfl
  have hmap : ∀ s : Screen, s.mapCharset '\u17d8' = '\u17d8' := fun s => by
    unfold mapCharset
    split <;> rfl
  have hfits : ¬ PrintFits .sample
      (s.onGrid fun g => ((g.setCursorX 65534).setCursorY s.grid.cursorY).setWrapPending false) '\u17d8' := by
    rw [PrintFits, not_or, not_or, hmap]
    exact ⟨fun hw => Bool.false_ne_true hw.1, by decide,
      show ¬ 65534 + UnicodeWidth.sample.charWidth '\u17d8' ≤ 65535 by decide⟩
  have hprint := print_overflows .sample h₁ _ hfits
  rw [run, List.foldlM_cons, hstep]
  simp only [Option.bind_eq_bind, Option.bind_some, List.foldlM_cons, act, step, hprint, Option.bind_none]

theorem run_overflows : (Screen.new 65535 1 0).run .sample
    [.callback (.csi [[65535]] [] 'G'), .callback (.print '\u17d8')] = none :=
  wide_overflows (new_inv 0 (by decide) (by decide)) (by simp [Screen.new, Grid.new, sanitizeDimensions])

end Screen

end Retach
