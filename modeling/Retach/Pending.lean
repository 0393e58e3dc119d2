import Retach.Render
import Retach.Safety
/-!
# Pending scrollback (`take_pending_scrollback` and `get_history` in `screen/mod.rs`)

The rows displaced off the top of the main screen go to a buffer that forgets
its oldest row at the limit; `pending_start` says how many of the rows in it
have been taken, and moves along with every row that is forgotten. A take
returns what was displaced since the last one, the history everything, each as
far as the limit keeps it.
-/

open Checked Lists Runs

namespace Retach

namespace Screen

variable {s t : Screen}

/-- The scrollback not yet sent. -/
def pendingRows (s : Screen) : List Row := s.takePendingScrollback.1

theorem Inv.pendingRows_eq (h : s.Inv) : s.pendingRows = s.grid.scrollbackRows.drop s.grid.pendingStart := by
  refine List.take_of_length_le ?_
  rw [List.length_drop, h.shape.scrollback_length]
  exact Nat.le_refl _

/-- The scrollback of the main screen is within its limit. -/
theorem Inv.main_limit (h : s.Inv) (hmain : s.state.inAltScreen = false) :
    s.grid.scrollbackLen ≤ s.grid.scrollbackLimit := h.wellShaped.limit hmain

theorem Inv.mainLimit_main (h : s.Inv) (hmain : s.state.inAltScreen = false) : s.mainLimit = s.grid.scrollbackLimit := by
  rw [mainLimit, (h.wellShaped.main hmain).1]

theorem Inv.pendingRows_length (h : s.Inv) (hmain : s.state.inAltScreen = false) :
    s.pendingRows.length ≤ s.grid.scrollbackLimit := by
  have hlimit := h.main_limit hmain
  rw [h.pendingRows_eq, List.length_drop, h.shape.scrollback_length]
  omega

/-- A line scrolled off is pending; over the limit, the oldest is forgotten. -/
theorem pendingRows_captured (h : s.Inv) (hmain : s.state.inAltScreen = false) {top : Row} {vis log : List Row}
    (ht : ({ s with grid := s.grid.captured top vis, scrolledOff := log } : Screen).Inv) :
    ({ s with grid := s.grid.captured top vis, scrolledOff := log } : Screen).pendingRows =
      (s.pendingRows ++ [top]).rtake s.grid.scrollbackLimit := by
  have hsb := h.shape.scrollback_length
  have hlimit := h.main_limit hmain
  have hp := h.shape.pending_le
  rw [ht.pendingRows_eq, h.pendingRows_eq]
  by_cases hover : s.grid.scrollbackLen + 1 > s.grid.scrollbackLimit
  · have htake : ((s.grid.scrollbackRows ++ [top]).tail ++ vis).take s.grid.scrollbackLen =
        (s.grid.scrollbackRows ++ [top]).tail := by
      refine List.take_left' ?_
      rw [List.length_tail, List.length_append, hsb, List.length_singleton]
      omega
    simp only [Grid.captured, if_pos hover, Grid.scrollbackRows] at htake ⊢
    rw [htake, ← Grid.scrollbackRows]
    cases hpend : s.grid.pendingStart with
    | zero =>
      rw [List.drop_zero, List.drop_zero, List.rtake, List.length_append, hsb, List.length_singleton,
        show s.grid.scrollbackLen + 1 - s.grid.scrollbackLimit = 1 by omega, List.drop_one]
    | succ n =>
      rw [Nat.add_sub_cancel, List.drop_tail, rtake_of_length_le, List.drop_append_of_le_length (by omega)]
      rw [List.length_append, List.length_drop, hsb, List.length_singleton]
      omega
  · have htake : (s.grid.scrollbackRows ++ [top] ++ vis).take (s.grid.scrollbackLen + 1) =
        s.grid.scrollbackRows ++ [top] := by
      refine List.take_left' ?_
      rw [List.length_append, hsb, List.length_singleton]
    simp only [Grid.captured, if_neg hover, Grid.scrollbackRows] at htake ⊢
    rw [htake, ← Grid.scrollbackRows, List.drop_append_of_le_length (by omega), rtake_of_length_le]
    rw [List.length_append, List.length_drop, hsb, List.length_singleton]
    omega

end Screen

/-! ## What one effect displaces -/

/-- The effects of output that forgets no scrollback. -/
def Kind.Retains (k : Kind) : Prop := k ≠ .clear ∧ k ≠ .reset ∧ k ≠ .resize ∧ k ≠ .take

namespace Screen

variable {s t : Screen}

/-- A row in the history, of which the limit forgets the oldest. -/
theorem history_captured (h : s.Inv) (hmain : s.state.inAltScreen = false) (top : Row) (vis : List Row) :
    (s.grid.captured top vis).scrollbackRows = (s.grid.scrollbackRows ++ [top]).rtake s.grid.scrollbackLimit := by
  have hsb := h.shape.scrollback_length
  have hlimit := h.main_limit hmain
  have hlen : (s.grid.scrollbackRows ++ [top]).length = s.grid.scrollbackLen + 1 := by
    rw [List.length_append, hsb, List.length_singleton]
  unfold Grid.captured
  split
  next hover =>
    have htail : ((s.grid.scrollbackRows ++ [top]).tail).length = s.grid.scrollbackLen := by
      rw [List.length_tail, hlen, Nat.add_sub_cancel]
    rw [Grid.scrollbackRows, List.take_left' htail, List.rtake, hlen,
      show s.grid.scrollbackLen + 1 - s.grid.scrollbackLimit = 1 by omega, List.drop_one]
  next hover =>
    rw [Grid.scrollbackRows, List.take_left' hlen, rtake_of_length_le]
    omega

/-- From `s` to `t` the rows `new` were displaced: they are pending and in the
history, as far as the limit keeps them. -/
structure Displaced (s t : Screen) (new : List Row) : Prop where
  log : t.scrolledOff = s.scrolledOff ++ new
  limit : t.mainLimit = s.mainLimit
  pending : t.pendingRows = (s.pendingRows ++ new).rtake s.mainLimit
  history : t.grid.scrollbackRows = (s.grid.scrollbackRows ++ new).rtake s.mainLimit

theorem Inv.pendingRows_le (h : s.Inv) : s.pendingRows.length ≤ s.mainLimit := by
  have hlimit := h.limit
  rw [h.pendingRows_eq, List.length_drop, h.shape.scrollback_length]
  omega

theorem Inv.scrollbackRows_le (h : s.Inv) : s.grid.scrollbackRows.length ≤ s.mainLimit :=
  h.shape.scrollback_length.trans_le h.limit

/-- The buffer is left alone. -/
theorem Displaced.same (h : s.Inv) (hlog : t.scrolledOff = s.scrolledOff) (hlimit : t.mainLimit = s.mainLimit)
    (hpending : t.pendingRows = s.pendingRows) (hhistory : t.grid.scrollbackRows = s.grid.scrollbackRows) :
    s.Displaced t [] where
  log := by rw [hlog, List.append_nil]
  limit := hlimit
  pending := by rw [List.append_nil, rtake_of_length_le h.pendingRows_le, hpending]
  history := by rw [List.append_nil, rtake_of_length_le h.scrollbackRows_le, hhistory]

theorem Displaced.refl (h : s.Inv) : s.Displaced s [] := .same h rfl rfl rfl rfl

theorem Displaced.trans {u : Screen} {n₁ n₂ : List Row} (h : s.Displaced t n₁) (h' : t.Displaced u n₂) :
    s.Displaced u (n₁ ++ n₂) where
  log := by rw [h'.log, h.log, List.append_assoc]
  limit := h'.limit.trans h.limit
  pending := by rw [h'.pending, h.pending, h.limit, rtake_append_rtake, List.append_assoc]
  history := by rw [h'.history, h.history, h.limit, rtake_append_rtake, List.append_assoc]

end Screen

open Screen in
/-- Output displaces at most one row per effect, and only on the main screen. -/
theorem Effect.displaces {k : Kind} {s t : Screen} (h : Effect k s t) (hk : k.Retains) (hs : s.Inv) :
    ∃ new, s.Displaced t new := by
  have ht := h.inv hs
  have hmain := h.mainLimit hs
  have hsb := hs.shape.scrollback_length
  have hkeep : ∀ (g : Grid) (vis : List Row), g.cells = s.grid.scrollbackRows ++ vis →
      g.scrollbackLen = s.grid.scrollbackLen → g.scrollbackRows = s.grid.scrollbackRows := fun g vis hcells hlen => by
    rw [Grid.scrollbackRows, hcells, hlen, List.take_left' hsb]
  have hpend : t.grid.scrollbackRows = s.grid.scrollbackRows → t.grid.pendingStart = s.grid.pendingStart →
      t.pendingRows = s.pendingRows := fun hrows hstart => by
    rw [ht.pendingRows_eq, hs.pendingRows_eq, hrows, hstart]
  obtain ⟨hclear, hreset, hresize, htake⟩ := hk
  cases h with
  | clear => exact absurd rfl hclear
  | reset => exact absurd rfl hreset
  | resize => exact absurd rfl hresize
  | takeScrollback => exact absurd rfl htake
  | takePassthrough => exact absurd rfl htake
  | aux st ha => exact ⟨[], .same hs rfl hmain rfl rfl⟩
  | osc st ha => exact ⟨[], .same hs rfl hmain rfl rfl⟩
  | paint id vis =>
    have hrows := hs.shape.scrollback_replaceVisible vis
    exact ⟨[], .same hs rfl rfl (hpend hrows rfl) hrows⟩
  | orphan id vis | control vis =>
    have hrows := hs.shape.scrollback_replaceVisible vis
    exact ⟨[], .same hs rfl rfl (hpend hrows rfl) hrows⟩
  | capture id top vis halt =>
    have hlimit := hs.mainLimit_main halt
    refine ⟨[top], rfl, hmain, ?_, ?_⟩
    · rw [hlimit]
      exact pendingRows_captured hs halt ht
    · rw [hlimit]
      exact history_captured hs halt top vis
  | forget row halt hlimit =>
    have hzero : s.mainLimit = 0 := (hs.mainLimit_main halt).trans hlimit
    have hpending := hs.pendingRows_le
    have hhistory := hs.scrollbackRows_le
    rw [hzero] at hpending hhistory
    refine ⟨[row], rfl, hmain, ?_, ?_⟩
    · rw [hzero, List.rtake_zero]
      exact List.length_eq_zero_iff.1 (Nat.le_zero.1 hpending)
    · rw [hzero, List.rtake_zero]
      exact List.length_eq_zero_iff.1 (Nat.le_zero.1 hhistory)
  | enter halt =>
    have hrows := hkeep s.grid.switched _ rfl rfl
    exact ⟨[], .same hs rfl hmain (hpend hrows rfl) hrows⟩
  | exit saved m region hgrid =>
    have hrows := hkeep (s.grid.switchedBack saved m region) _ rfl rfl
    exact ⟨[], .same hs rfl hmain (hpend hrows rfl) hrows⟩
  | _ => exact ⟨[], .same hs rfl rfl rfl rfl⟩

/-- Output that forgets no scrollback. -/
def Event.Retains (e : Event) : Prop := ¬ e.ClearsScrollback ∧ ¬ e.Resets

namespace Screen

variable (W : UnicodeWidth) {s t : Screen}

theorem allows_retains {e : Event} (h : e.Retains) (s : Screen) : Allows W Kind.Retains s e where
  other := by simp [Kind.Retains]
  move := by simp [Kind.Retains]
  modes := by simp [Kind.Retains]
  orphan := everyPrint_of_forall W (by simp [Kind.Retains]) s e
  control := everyPrint_of_forall W (by simp [Kind.Retains]) s e
  save := everySave_of_forall (by simp [Kind.Retains]) s e
  enter := by simp [Kind.Retains]
  exit := by simp [Kind.Retains]
  clear := fun hc => absurd hc h.1
  reset := fun hr => absurd hr h.2
  title := by simp [Kind.Retains]
  osc := by simp [Kind.Retains]

/-- Output without ED 3 and RIS. -/
theorem process_displaces {es : List Event} (hes : ∀ e ∈ es, e.Retains) (hs : s.Inv) (hrun : s.process W es = some t) :
    t.Inv ∧ ∃ new, s.Displaced t new :=
  (Along.of_forall hes s).keeps (I := fun t => t.Inv ∧ ∃ new, s.Displaced t new) (fun t e t' h he hstep =>
    (step_leads h.1 e (allows_retains W he t) t' hstep).keeps (P := fun t => t.Inv ∧ ∃ new, s.Displaced t new)
      (fun _ _ _ hk heff ⟨hi, n₁, h₁⟩ =>
        have ⟨n₂, h₂⟩ := heff.displaces hk hi
        ⟨heff.inv hi, n₁ ++ n₂, h₁.trans h₂⟩) h) ⟨hs, [], .refl hs⟩ hrun

/-- On the alternate screen, or in a region that does not start at the top,
`scroll_up` displaces nothing. -/
theorem scrollUp_elsewhere (hs : s.Inv) (helsewhere : s.state.inAltScreen = true ∨ s.grid.scrollTop ≠ 0)
    (h : s.scrollUp = some t) : t.scrolledOff = s.scrolledOff := by
  obtain ⟨id, table, hblank, -⟩ := blankCell_inv hs
  rw [scrollUp, hblank, Option.bind_eq_bind, Option.bind_some] at h
  obtain ⟨g, -, h⟩ := Option.bind_eq_some_iff.1 h
  obtain rfl := Option.some.inj h
  have hrow : (s.onGrid (·.setStyleTable table)).displacedRow = [] := by
    refine if_neg fun hmain => ?_
    rcases helsewhere with halt | htop
    · exact hmain.1 halt
    · exact htop hmain.2
  exact (congrArg (s.scrolledOff ++ ·) hrow).trans (List.append_nil _)

end Screen

/-! ## Takes between output -/

inductive DeliveryStep where
  | process (es : List Event)
  | take

/-- Output without ED 3 and RIS. -/
def DeliveryStep.Retains : DeliveryStep → Prop
  | .process es => ∀ e ∈ es, e.Retains
  | .take => True

structure Delivery where
  screen : Screen
  /-- What the last take returned. -/
  taken : List (List Event) := []
  /-- Ghost: the rows displaced before the last take. -/
  before : List Row := []
  /-- Ghost: and since. -/
  since : List Row := []

namespace Delivery

variable (W : UnicodeWidth)

def step (d : Delivery) : DeliveryStep → Option Delivery
  | .process es => do
    let s ← d.screen.process W es
    return { d with screen := s, since := d.since ++ s.scrolledOff.drop d.screen.scrolledOff.length }
  | .take =>
    let (rows, s) := d.screen.takePendingScrollback
    some {
      screen := s
      taken := rows.map fun row => renderLine row d.screen.grid.styleTable
      before := d.before ++ d.since
      since := [] }

def run (d : Delivery) (steps : List DeliveryStep) : Option Delivery := steps.foldlM (step W) d

/-- The buffer holds the end of what was displaced since the last take. -/
structure Holds (L : Nat) (d : Delivery) : Prop where
  inv : d.screen.Inv
  limit : d.screen.mainLimit = L
  log : d.before ++ d.since = d.screen.scrolledOff
  pending : d.screen.pendingRows = d.since.rtake L
  history : d.screen.grid.scrollbackRows = d.screen.scrolledOff.rtake L

variable {L : Nat} {d d' : Delivery}

theorem new_holds {cols rows : Nat} (L : Nat) (hcols : cols ≤ 65535) (hrows : rows ≤ 65535) :
    Holds L { screen := .new cols rows L } :=
  ⟨Screen.new_inv L hcols hrows, rfl, rfl, (List.rtake_nil L).symm, (List.rtake_nil L).symm⟩

theorem process_holds (h : Holds L d) {es : List Event} (hes : ∀ e ∈ es, e.Retains)
    (hstep : d.step W (.process es) = some d') : Holds L d' := by
  obtain ⟨s, hrun, hstep⟩ := Option.bind_eq_some_iff.1 hstep
  obtain rfl := Option.some.inj hstep
  obtain ⟨hinv, new, hnew⟩ := Screen.process_displaces W hes h.inv hrun
  have hdrop : s.scrolledOff.drop d.screen.scrolledOff.length = new := by rw [hnew.log, List.drop_left]
  rw [hdrop]
  exact {
    inv := hinv
    limit := hnew.limit.trans h.limit
    log := by rw [hnew.log, ← h.log, List.append_assoc]
    pending := by rw [hnew.pending, h.limit, h.pending, rtake_append_rtake]
    history := by rw [hnew.history, h.limit, h.history, rtake_append_rtake, hnew.log] }

theorem take_holds (h : Holds L d) (hstep : d.step W .take = some d') : Holds L d' := by
  have hinv := Effect.inv .takeScrollback h.inv
  have hnone : d.screen.takePendingScrollback.2.pendingRows = [] := by
    rw [hinv.pendingRows_eq]
    exact List.drop_eq_nil_of_le (Nat.le_of_eq h.inv.shape.scrollback_length)
  obtain rfl := Option.some.inj hstep
  exact { h with inv := hinv, log := (List.append_nil _).trans h.log, pending := hnone.trans (List.rtake_nil L).symm }

theorem step_holds (h : Holds L d) {step : DeliveryStep} (hretains : step.Retains) (hstep : d.step W step = some d') :
    Holds L d' := by
  cases step with
  | process es => exact process_holds W h hretains hstep
  | take => exact take_holds W h hstep

theorem run_holds {steps : List DeliveryStep} (hretains : ∀ st ∈ steps, st.Retains) (h : Holds L d)
    (hrun : d.run W steps = some d') : Holds L d' :=
  (Along.of_forall hretains d).keeps (fun _ _ _ h hp hstep => step_holds W h hp hstep) h hrun

/-- After any output and takes, the next take returns the most recent rows
displaced since the last one, as many as the limit keeps, and marks all of them
as taken; the history is the most recent rows displaced at all. Scrolling on
the alternate screen, or in a region below the first row, displaces none. -/
theorem run_takes {cols rows : Nat} (L : Nat) (hcols : cols ≤ 65535) (hrows : rows ≤ 65535) {steps : List DeliveryStep}
    (hretains : ∀ st ∈ steps, st.Retains) (hrun : run W { screen := .new cols rows L } steps = some d) :
    (∃ d', d.step W .take = some d' ∧
        d'.taken = (d.since.rtake L).map (fun row => renderLine row d.screen.grid.styleTable) ∧
        d'.before = d.screen.scrolledOff ∧ d'.since = []) ∧
      d.before ++ d.since = d.screen.scrolledOff ∧
      d.screen.getHistory = (d.screen.scrolledOff.rtake L).map (fun row => renderLine row d.screen.grid.styleTable) ∧
      ∀ s, d.screen.scrollUp = some s → d.screen.state.inAltScreen = true ∨ d.screen.grid.scrollTop ≠ 0 →
        s.scrolledOff = d.screen.scrolledOff := by
  have h : Holds L d := run_holds W hretains (new_holds L hcols hrows) hrun
  refine ⟨⟨_, rfl, congrArg _ h.pending, h.log, rfl⟩, h.log, congrArg _ h.history, ?_⟩
  intro s hs helsewhere
  exact Screen.scrollUp_elsewhere h.inv helsewhere hs

theorem run_takes_sample : ∃ d d', run .sample { screen := .new 4 1 1 }
      [.process [.print 'a', .execute 10], .take, .process [.print 'b', .execute 10, .print 'c', .execute 10]] = some d ∧
    d.step .sample .take = some d' ∧
    d'.taken = (d.since.rtake 1).map fun row => renderLine row d.screen.grid.styleTable := by
  have hretains : ∀ st ∈ [DeliveryStep.process [.print 'a', .execute 10], .take,
      .process [.print 'b', .execute 10, .print 'c', .execute 10]], st.Retains := by
    simp [DeliveryStep.Retains, Event.Retains, Event.ClearsScrollback, Event.Resets]
  obtain ⟨⟨d', hstep, htaken, -⟩, -⟩ := run_takes .sample 1 (show 4 ≤ 65535 by decide) (show 1 ≤ 65535 by decide) hretains rfl
  exact ⟨_, d', rfl, hstep, htaken⟩

end Delivery

end Retach
