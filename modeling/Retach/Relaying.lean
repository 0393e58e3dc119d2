import Retach.Ending
import Retach.Passing
/-!
# No update is lost (`server/session_bridge.rs`, `server/session_relay.rs`, `session.rs`)

A client that attaches gets the history and a full frame, and from then on its
relay sends frames when the reader has notified it, a little later, and when the
client asks for one. Whatever is interleaved, the client's terminal shows the
screen as soon as nothing is due, and left alone the relay gets there.

The outer terminal is this repository's screen. What it does when its window is
resized is its own business: a resize comes with the terminal as it is then.
-/

open Checked Runs

namespace Retach

/-! ## A session and its client -/

/-- Where the client's connection is. -/
inductive WatchPhase where
  | /-- nothing was sent: earlier clients may come and go -/ connected
  | /-- after the first section of `send_initial_state` -/ shown
  | /-- after the second -/ drained
  | /-- before the relay's check of `reader_alive` -/ spawned
  | /-- in `select!`, with `pending_render` -/ waiting (pendingRender : Bool)
  | ended
deriving DecidableEq, Repr

structure Watch (H : Type) extends Display H where
  phase : WatchPhase := .connected
  reader : ReaderState := .running
  /-- The reader has processed a chunk, and has yet to notify. -/
  processed : Bool := false
  /-- The permit of `screen_notify`. -/
  permit : Bool := false
  /-- The permit of `refresh_notify`. -/
  refresh : Bool := false
  /-- A `Resize` was handled, and the `RefreshScreen` that the client sends with
  it was not. -/
  resized : Bool := false

/-- `passed` is how the terminal reads what is passed on. -/
inductive WatchStep where
  | /-- the reader processes a chunk -/ chunk (es : List Event) (hasClient : Bool)
  | /-- and calls `notify_one` -/ notify
  | /-- the reader stores `reader_alive = false` -/ readerStore
  | readerNotify
  | snapshot (passed : List Event)
  | drain
  | /-- the `notify_one` of `handle_session` -/ spawn
  | /-- the relay looks at `reader_alive` -/ check
  | notified (passed : List Event)
  | throttle (passed : List Event)
  | /-- the branch of `refresh_notify` -/ refreshed
  | /-- the client's messages -/ refreshScreen
  | resize (cols rows : Nat) (terminal : Screen)
  | /-- the relay of an evicted client takes the permit -/ oldNotified
  | /-- and what is pending -/ oldRender

namespace WatchPhase

/-- Both relays run. -/
def Relaying : WatchPhase → Prop
  | .spawned | .waiting _ => True
  | _ => False

instance : (p : WatchPhase) → Decidable p.Relaying
  | .spawned | .waiting _ => .isTrue trivial
  | .connected | .shown | .drained | .ended => .isFalse fun h => h

end WatchPhase

namespace Watch

section

variable {H : Type} [DecidableEq H] (W : UnicodeWidth) (R : RowHash H)

def step (w : Watch H) : WatchStep → Option (Watch H)
  | .chunk es hasClient =>
    if w.reader = .running ∧ ¬ w.processed ∧ (hasClient ∨ w.phase = .connected) then do
      let s ← w.screen.process W es
      let s := s.takeResponses.2
      return { w with screen := if hasClient then s else Attach.drained s, processed := true }
    else none
  | .notify => if w.processed then some { w with permit := true, processed := false } else none
  | .readerStore => if w.reader = .running ∧ ¬ w.processed then some { w with reader := .stored } else none
  | .readerNotify => if w.reader = .stored then some { w with permit := true, reader := .finished } else none
  | .snapshot passed =>
    if w.phase = .connected ∧ ReadsAs passed w.screen.state.queuedNotifications then do
      let d ← { w.toDisplay with screen := w.screen.takeQueuedNotifications.2 : Display H }.send W R
        (w.toDisplay.prelude passed) [] true
      return { w with toDisplay := d, phase := .shown }
    else none
  | .drain => if w.phase = .shown then some { w with screen := Attach.drained w.screen, phase := .drained } else none
  | .spawn => if w.phase = .drained then some { w with permit := true, phase := .spawned } else none
  | .check =>
    if w.phase = .spawned then
      if w.reader = .running then some { w with phase := .waiting false }
      else do
        let d ← w.toDisplay.view W R (.frame [] true)
        return { w with toDisplay := d, phase := .ended }
    else none
  | .notified passed =>
    match w.phase, w.permit with
    | .waiting _, true =>
      if w.reader = .running then some { w with permit := false, phase := .waiting true }
      else do
        let d ← w.toDisplay.takeAndRender W R passed
        return { w with toDisplay := d, permit := false, phase := .ended }
    | _, _ => none
  | .throttle passed =>
    if w.phase = .waiting true then do
      let d ← w.toDisplay.takeAndRender W R passed
      return { w with toDisplay := d, phase := .waiting false }
    else none
  | .refreshed =>
    match w.phase, w.refresh with
    | .waiting _, true => do
      let d ← w.toDisplay.view W R (.frame [] true)
      return { w with toDisplay := d, refresh := false }
    | _, _ => none
  | .refreshScreen => if w.phase.Relaying then some { w with refresh := true, resized := false } else none
  | .resize cols rows terminal =>
    -- before the first frame it is `setup_session` that resizes
    if w.phase = .connected ∨ w.phase.Relaying then do
      let dims := sanitizeDimensions cols rows
      let s ← w.screen.act W (.resize dims.cols dims.rows)
      return { w with screen := s, terminal, resized := decide w.phase.Relaying }
    else none
  | .oldNotified => if w.permit then some { w with permit := false } else none
  | .oldRender => some { w with screen := (Attach.takeAll w.screen).2.2 }

def run (w : Watch H) (steps : List WatchStep) : Option (Watch H) := steps.foldlM (step W R) w

/-- A frame is still to come. -/
def Due (w : Watch H) : Prop :=
  match w.phase with
  | .connected | .shown | .drained => True
  | .spawned => w.permit ∨ w.processed ∨ w.refresh ∨ w.resized ∨ w.reader ≠ .running
  | .waiting pendingRender => pendingRender ∨ w.permit ∨ w.processed ∨ w.refresh ∨ w.resized ∨ w.reader = .stored
  | .ended => w.refresh ∨ w.resized

/-- The terminal shows the screen. -/
def Current (w : Watch H) : Prop := w.terminal.grid.view = w.screen.grid.view

/-- What is asked of a step: frames erase nothing they paint and free nothing the
cache knows, a resized terminal is one that frames can be painted on, and an old
relay takes no permit that the client's relay needs. -/
def Asks (P : Finset Style) (w : Watch H) : WatchStep → Prop
  | .chunk es _ => Along (Display.view W R) (Display.Asks W R P) w.toDisplay (es.map fun e => .act (.callback e))
  | .snapshot _ => w.toDisplay.Greets W P ∧ w.toDisplay.Frameable W P []
  | .check => w.reader ≠ .running → w.toDisplay.Frameable W P []
  | .notified _ => w.reader ≠ .running → w.toDisplay.Takes W R P
  | .throttle _ => w.toDisplay.Takes W R P
  | .refreshed => w.toDisplay.Frameable W P []
  | .resize cols rows terminal =>
    let dims := sanitizeDimensions cols rows
    cols ≤ 65535 ∧ rows ≤ 65535 ∧ w.toViewed.Spares W (.act (.resize dims.cols dims.rows)) ∧
      terminal.Canvas P dims.cols dims.rows ∧ terminal.grid.modes = w.terminal.grid.modes
  | .oldNotified => w.Current ∨ Due { w with permit := false }
  | _ => True

/-- The invariant. -/
structure Inv (P : Finset Style) (w : Watch H) : Prop where
  ready : w.toDisplay.Ready R P
  outbox : w.screen.outbox.Bounded ∧ w.screen.outbox.Kinds
  /-- A resized terminal is painted again. -/
  shows : w.phase ≠ .connected → w.resized = false → w.refresh = false → w.toDisplay.Shows
  due : w.Current ∨ w.Due
  gone : w.phase = .ended → w.reader ≠ .running
  last : w.processed = true → w.reader = .running

variable {W R} {P : Finset Style} {w w' : Watch H}

/-! ### One step -/

omit [DecidableEq H] in
/-- Queues are emptied. -/
theorem outbox_taken {s : Screen} (h : s.outbox.Bounded ∧ s.outbox.Kinds) {o : Outbox} (ho : o.Within s.outbox) :
    o.Bounded ∧ o.Kinds :=
  ⟨⟨ho.responses.length_le.trans h.1.responses, ho.passthrough.length_le.trans h.1.passthrough,
    ho.notifications.length_le.trans h.1.notifications⟩, h.2.within ho⟩

theorem takeResponses_within (s : Screen) : s.takeResponses.2.outbox.Within s.outbox :=
  ⟨List.nil_sublist _, .refl _, .refl _⟩

theorem drained_within (s : Screen) : (Attach.drained s).outbox.Within s.outbox :=
  ⟨.refl _, List.nil_sublist _, .refl _⟩

theorem takeAll_within (s : Screen) : (Attach.takeAll s).2.2.outbox.Within s.outbox :=
  ⟨.refl _, List.nil_sublist _, List.nil_sublist _⟩

theorem takeQueuedNotifications_within (s : Screen) : s.takeQueuedNotifications.2.outbox.Within s.outbox :=
  ⟨.refl _, .refl _, List.nil_sublist _⟩

theorem Inv.chunk (h : w.Inv R P) (es : List Event) (hasClient : Bool) (ha : w.Asks W R P (.chunk es hasClient))
    (hstep : w.step W R (.chunk es hasClient) = some w') : w'.Inv R P := by
  simp only [step] at hstep
  split at hstep
  next hrunning =>
    obtain ⟨s, hrun, hstep⟩ := Option.bind_eq_some_iff.1 hstep
    obtain rfl := Option.some.inj hstep
    obtain ⟨hready, hshows⟩ := h.ready.chunk ha hrun
    have hs : s.takeResponses.2.Inv :=
      (Effect.osc { s.state with pendingResponses := [] } ⟨rfl, rfl, rfl, rfl, rfl, List.prefix_rfl, id⟩).inv hready.viewed.screen
    have hout := outbox_taken (Screen.process_outbox hrun h.outbox.1 h.outbox.2) (takeResponses_within s)
    have hready' : Display.Ready R P
        { w.toDisplay with screen := if hasClient then s.takeResponses.2 else Attach.drained s.takeResponses.2 } := by
      split
      · exact hready.rescreen hs rfl ⟨rfl, rfl⟩
      · exact hready.rescreen (Effect.takePassthrough.inv (Effect.takeScrollback.inv hs)) rfl ⟨rfl, rfl⟩
    refine
      { ready := hready'
        outbox := ?_
        shows := fun hphase hresized hrefresh => ?_
        due := .inr ?_
        gone := h.gone
        last := fun _ => hrunning.1 }
    · dsimp only
      split
      · exact hout
      · exact outbox_taken hout (drained_within _)
    · obtain rfl : hasClient = true := hrunning.2.2.resolve_right hphase
      exact hshows (h.shows hphase hresized hrefresh)
    have hended := h.gone
    simp only [Due]
    split
    · trivial
    · trivial
    · trivial
    · exact .inr (.inl trivial)
    · exact .inr (.inr (.inl trivial))
    next hphase => exact absurd hrunning.1 (hended hphase)
  next => cases hstep

/-- The reader's end, and its notifications. -/
theorem Inv.reader (h : w.Inv R P) {a : WatchStep} (ha : a = .notify ∨ a = .readerStore ∨ a = .readerNotify)
    (hstep : w.step W R a = some w') : w'.Inv R P := by
  have hended := h.gone
  rcases ha with rfl | rfl | rfl
  · simp only [step] at hstep
    split at hstep
    next hprocessed =>
      obtain rfl := Option.some.inj hstep
      refine { h with due := .inr ?_, last := fun hp => by cases hp }
      simp only [Due]
      split
      · trivial
      · trivial
      · trivial
      · exact .inl trivial
      · exact .inr (.inl trivial)
      next hphase => exact absurd (h.last hprocessed) (hended hphase)
    next => cases hstep
  · simp only [step] at hstep
    split at hstep
    next hrunning =>
      obtain rfl := Option.some.inj hstep
      refine { h with due := ?_, gone := fun _ => by simp, last := fun hp => absurd hp hrunning.2 }
      refine h.due.imp_right fun hdue => ?_
      simp only [Due] at hdue ⊢
      split at hdue
      · trivial
      · trivial
      · trivial
      · simp
      · simp
      next hphase => exact absurd hrunning.1 (hended hphase)
    next => cases hstep
  · simp only [step] at hstep
    split at hstep
    next hstored =>
      obtain rfl := Option.some.inj hstep
      refine { h with due := ?_, gone := fun _ => by simp, last := fun hp => ?_ }
      · refine h.due.imp_right fun hdue => ?_
        simp only [Due] at hdue ⊢
        split at hdue
        · trivial
        · trivial
        · trivial
        · simp
        · simp
        · exact hdue
      · have := h.last hp
        rw [hstored] at this
        cases this
    next => cases hstep

/-- The first frame. -/
theorem Inv.snapshot (hinj : Function.Injective R.hash) (hunset : ∀ row, R.hash row ≠ R.unset) (h : w.Inv R P)
    {passed : List Event} (hreads : ReadsAs passed w.screen.state.queuedNotifications) (ha : w.Asks W R P (.snapshot passed)) :
    ∃ d, { w.toDisplay with screen := w.screen.takeQueuedNotifications.2 : Display H }.send W R (w.toDisplay.prelude passed) [] true =
        some d ∧ d.Inv R P ∧ d.screen = w.screen.takeQueuedNotifications.2 ∧ d.terminal.grid.view = d.screen.grid.view := by
  obtain ⟨T, hrun, hT, hmodes⟩ := h.ready.prelude hreads ha.1
  have hready : Display.Ready R P { w.toDisplay with screen := w.screen.takeQueuedNotifications.2, terminal := T } :=
    ⟨⟨(Effect.osc { w.screen.state with queuedNotifications := [] } ⟨rfl, rfl, rfl, rfl, rfl, List.prefix_rfl, id⟩).inv
      h.ready.viewed.screen, h.ready.viewed.tracks⟩, hT, fun m hm => hmodes.trans (h.ready.modes m hm)⟩
  have hframe := ha.2
  obtain ⟨d, hview, hinv, hcurrent⟩ := hready.full (W := W) hinj hunset (.inl rfl)
    ⟨hframe.direct, hframe.wellFormed, hframe.broad, hframe.styles, hframe.lines⟩
  refine ⟨d, ?_, hinv, Display.view_screen hview rfl, hcurrent⟩
  rw [Display.send]
  exact Option.bind_eq_some_iff.2 ⟨T, hrun, hview⟩

/-- Attaching. -/
theorem Inv.attach (hinj : Function.Injective R.hash) (hunset : ∀ row, R.hash row ≠ R.unset) (h : w.Inv R P) {a : WatchStep}
    (hkind : (∃ passed, a = .snapshot passed) ∨ a = .drain ∨ a = .spawn) (ha : w.Asks W R P a) (hstep : w.step W R a = some w') :
    w'.Inv R P := by
  rcases hkind with ⟨passed, rfl⟩ | rfl | rfl
  · simp only [step] at hstep
    split at hstep
    next hphase =>
      obtain ⟨d, hsend, hstep⟩ := Option.bind_eq_some_iff.1 hstep
      obtain rfl := Option.some.inj hstep
      obtain ⟨d', hsend', hinv, hscreen, hcurrent⟩ := h.snapshot hinj hunset hphase.2 ha
      obtain rfl := Option.some.inj (hsend.symm.trans hsend')
      exact
        { ready := hinv.toReady
          outbox := by
            change d.screen.outbox.Bounded ∧ d.screen.outbox.Kinds
            rw [hscreen]
            exact outbox_taken h.outbox (takeQueuedNotifications_within _)
          shows := fun _ _ _ => hinv.shows
          due := .inl hcurrent
          gone := fun hp => by cases hp
          last := h.last }
    next => cases hstep
  · simp only [step] at hstep
    split at hstep
    next hphase =>
      obtain rfl := Option.some.inj hstep
      exact { h with
              ready := h.ready.rescreen (Effect.takePassthrough.inv (Effect.takeScrollback.inv h.ready.viewed.screen)) rfl ⟨rfl, rfl⟩
              outbox := outbox_taken h.outbox (drained_within _)
              shows := fun _ => h.shows (by simp [hphase])
              due := .inr trivial
              gone := fun hp => by cases hp }
    next => cases hstep
  · simp only [step] at hstep
    split at hstep
    next hphase =>
      obtain rfl := Option.some.inj hstep
      exact { h with
              shows := fun _ => h.shows (by simp [hphase])
              due := .inr (.inl rfl)
              gone := fun hp => by cases hp }
    next => cases hstep

/-- A full frame by itself. -/
theorem Inv.repaint (hinj : Function.Injective R.hash) (hunset : ∀ row, R.hash row ≠ R.unset) (h : w.Inv R P)
    (ha : w.toDisplay.Frameable W P []) {d : Display H} (hview : w.toDisplay.view W R (.frame [] true) = some d) :
    d.Inv R P ∧ d.screen = w.screen ∧ d.terminal.grid.view = d.screen.grid.view := by
  obtain ⟨d', hview', hinv, hcurrent⟩ := h.ready.full hinj hunset (.inl rfl) ha
  obtain rfl := Option.some.inj (hview.symm.trans hview')
  exact ⟨hinv, Display.view_screen hview rfl, hcurrent⟩

/-- A frame of `take_and_render`. -/
theorem Inv.take (hinj : Function.Injective R.hash) (hunset : ∀ row, R.hash row ≠ R.unset) (h : w.Inv R P)
    (hphase : w.phase ≠ .connected) (ha : w.toDisplay.Takes W R P) {passed : List Event} {d : Display H}
    (htake : w.toDisplay.takeAndRender W R passed = some d) :
    d.Ready R P ∧ (d.screen.outbox.Bounded ∧ d.screen.outbox.Kinds) ∧
      (w.resized = false → w.refresh = false → d.Shows ∧ d.terminal.grid.view = d.screen.grid.view) := by
  have hreads : ReadsAs passed w.toDisplay.takenPassed := by
    by_contra hreads
    rw [Display.takeAndRender, if_neg hreads] at htake
    cases htake
  obtain ⟨d', htake', hready, hscreen, hrest⟩ := h.ready.takeAndRender hinj hunset hreads ha.frameable
  obtain rfl := Option.some.inj (htake.symm.trans htake')
  refine ⟨hready, ?_, fun hresized hrefresh => hrest (h.shows hphase hresized hrefresh) ha.clean⟩
  rw [hscreen]
  exact outbox_taken h.outbox (takeAll_within _)

/-- The relay's frames. -/
theorem Inv.relay (hinj : Function.Injective R.hash) (hunset : ∀ row, R.hash row ≠ R.unset) (h : w.Inv R P) {a : WatchStep}
    (hkind : a = .check ∨ (∃ passed, a = .notified passed ∨ a = .throttle passed) ∨ a = .refreshed) (ha : w.Asks W R P a)
    (hstep : w.step W R a = some w') : w'.Inv R P := by
  -- the state after a full frame, and after one of `take_and_render`
  have hfull {d : Display H} (hd : d.Inv R P ∧ d.screen = w.screen ∧ d.terminal.grid.view = d.screen.grid.view) (w' : Watch H)
      (hw' : w'.toDisplay = d) (hgone : w'.phase = .ended → w'.reader ≠ .running) (hlast : w'.processed = true → w'.reader = .running) :
      w'.Inv R P := by
    subst hw'
    exact ⟨hd.1.toReady, by rw [hd.2.1]; exact h.outbox, fun _ _ _ => hd.1.shows, .inl hd.2.2, hgone, hlast⟩
  have htake {d : Display H} (hd : d.Ready R P ∧ (d.screen.outbox.Bounded ∧ d.screen.outbox.Kinds) ∧
      (w.resized = false → w.refresh = false → d.Shows ∧ d.terminal.grid.view = d.screen.grid.view)) (w' : Watch H)
      (hw' : w'.toDisplay = d) (hsame : w'.resized = w.resized ∧ w'.refresh = w.refresh)
      (hdue : w.refresh = true ∨ w.resized = true → w'.Due) (hgone : w'.phase = .ended → w'.reader ≠ .running)
      (hlast : w'.processed = true → w'.reader = .running) : w'.Inv R P := by
    subst hw'
    refine ⟨hd.1, hd.2.1, fun _ hr hf => (hd.2.2 (hsame.1 ▸ hr) (hsame.2 ▸ hf)).1, ?_, hgone, hlast⟩
    by_cases howes : w.refresh = true ∨ w.resized = true
    · exact .inr (hdue howes)
    · simp only [not_or, Bool.not_eq_true] at howes
      exact .inl (hd.2.2 howes.2 howes.1).2
  rcases hkind with rfl | ⟨passed, rfl | rfl⟩ | rfl
  · simp only [step] at hstep
    split at hstep
    next hphase =>
      split at hstep
      next hrunning =>
        obtain rfl := Option.some.inj hstep
        refine { h with
                 shows := fun _ => h.shows (by simp [hphase])
                 due := h.due.imp_right fun hdue => ?_
                 gone := fun hp => by cases hp }
        simp only [Due, hphase] at hdue ⊢
        simpa [hrunning] using hdue
      next hstopped =>
        obtain ⟨d, hview, hstep⟩ := Option.bind_eq_some_iff.1 hstep
        obtain rfl := Option.some.inj hstep
        exact hfull (h.repaint hinj hunset (ha hstopped) hview) _ rfl (fun _ => hstopped) h.last
    next => cases hstep
  · simp only [step] at hstep
    split at hstep
    next p hphase hpermit =>
      split at hstep
      next hrunning =>
        obtain rfl := Option.some.inj hstep
        exact { h with
                shows := fun _ => h.shows (by simp [hphase])
                due := .inr (.inl rfl)
                gone := fun hp => by cases hp }
      next hstopped =>
        obtain ⟨d, htaken, hstep⟩ := Option.bind_eq_some_iff.1 hstep
        obtain rfl := Option.some.inj hstep
        exact htake (h.take hinj hunset (by simp [hphase]) (ha hstopped) htaken) _ rfl ⟨rfl, rfl⟩ id (fun _ => hstopped) h.last
    next => cases hstep
  · simp only [step] at hstep
    split at hstep
    next hphase =>
      obtain ⟨d, htaken, hstep⟩ := Option.bind_eq_some_iff.1 hstep
      obtain rfl := Option.some.inj hstep
      refine htake (h.take hinj hunset (by simp [hphase]) ha htaken) _ rfl ⟨rfl, rfl⟩ (fun howes => ?_) (fun hp => by cases hp) h.last
      exact .inr (.inr (.inr (howes.imp_right .inl)))
    next => cases hstep
  · simp only [step] at hstep
    split at hstep
    next p hphase hrefresh =>
      obtain ⟨d, hview, hstep⟩ := Option.bind_eq_some_iff.1 hstep
      obtain rfl := Option.some.inj hstep
      exact hfull (h.repaint hinj hunset ha hview) _ rfl (fun hp => by rw [hphase] at hp; cases hp) h.last
    next => cases hstep

/-- The client's messages. -/
theorem Inv.message (h : w.Inv R P) {a : WatchStep} (hkind : a = .refreshScreen ∨ ∃ cols rows terminal, a = .resize cols rows terminal)
    (ha : w.Asks W R P a) (hstep : w.step W R a = some w') : w'.Inv R P := by
  rcases hkind with rfl | ⟨cols, rows, terminal, rfl⟩
  · simp only [step] at hstep
    split at hstep
    next hphase =>
      obtain rfl := Option.some.inj hstep
      refine { h with due := .inr ?_, shows := fun _ _ hr => by cases hr }
      simp only [Due]
      split <;> simp
    next => cases hstep
  · simp only [step] at hstep
    split at hstep
    next hphase =>
      obtain ⟨s, hact, hstep⟩ := Option.bind_eq_some_iff.1 hstep
      obtain rfl := Option.some.inj hstep
      obtain ⟨hcols, hrows, hspares, hterminal, hmodes⟩ := ha
      have hdims : (sanitizeDimensions cols rows).cols ≤ 65535 ∧ (sanitizeDimensions cols rows).rows ≤ 65535 :=
        ⟨Nat.max_le.2 ⟨hcols, by decide⟩, Nat.max_le.2 ⟨hrows, by decide⟩⟩
      have hsame : s = w.screen.resized (sanitizeDimensions cols rows).cols (sanitizeDimensions cols rows).rows := by
        have heq : w.screen.act W (.resize _ _) = _ := Screen.resize_eq h.ready.viewed.screen (sanitizeDimensions cols rows).cols hdims.2
        exact Option.some.inj (hact.symm.trans heq)
      have hviewed := h.ready.viewed.act (a := .resize _ _) hdims hspares hact
      refine { ready := ⟨hviewed, ?_, fun m hm => hmodes.trans (h.ready.modes m hm)⟩
               outbox := by
                 change s.outbox.Bounded ∧ s.outbox.Kinds
                 rw [Counter.act_outbox (W := W) (by simp) hact]
                 exact h.outbox
               shows := fun hp hr => absurd (hphase.resolve_left hp) (of_decide_eq_false hr)
               due := .inr ?_
               gone := h.gone
               last := h.last }
      · have hmax : s.grid.cols = (sanitizeDimensions cols rows).cols ∧ s.grid.rows = (sanitizeDimensions cols rows).rows := by
          rw [hsame]
          exact ⟨Nat.max_eq_left (Nat.le_max_right _ _), Nat.max_eq_left (Nat.le_max_right _ _)⟩
        change terminal.Canvas P s.grid.cols s.grid.rows
        rwa [hmax.1, hmax.2]
      · rcases hphase with hphase | hphase
        · simp [Due, hphase]
        · simp only [Due, decide_eq_true hphase]
          split <;> simp
    next => cases hstep

/-- What the relay of an evicted client takes. -/
theorem Inv.oldRelay (h : w.Inv R P) {a : WatchStep} (hkind : a = .oldNotified ∨ a = .oldRender) (ha : w.Asks W R P a)
    (hstep : w.step W R a = some w') : w'.Inv R P := by
  rcases hkind with rfl | rfl
  · simp only [step] at hstep
    split at hstep
    · obtain rfl := Option.some.inj hstep
      exact { h with due := ha }
    · cases hstep
  · obtain rfl := Option.some.inj hstep
    exact { h with
            ready := h.ready.taken
            outbox := outbox_taken h.outbox (takeAll_within _)
            due := h.due }

theorem Inv.step (hinj : Function.Injective R.hash) (hunset : ∀ row, R.hash row ≠ R.unset) (h : w.Inv R P) {a : WatchStep}
    (ha : w.Asks W R P a) (hstep : w.step W R a = some w') : w'.Inv R P := by
  cases a with
  | chunk es hasClient => exact h.chunk es hasClient ha hstep
  | notify => exact h.reader (.inl rfl) hstep
  | readerStore => exact h.reader (.inr (.inl rfl)) hstep
  | readerNotify => exact h.reader (.inr (.inr rfl)) hstep
  | snapshot passed => exact h.attach hinj hunset (.inl ⟨passed, rfl⟩) ha hstep
  | drain => exact h.attach hinj hunset (.inr (.inl rfl)) ha hstep
  | spawn => exact h.attach hinj hunset (.inr (.inr rfl)) ha hstep
  | check => exact h.relay hinj hunset (.inl rfl) ha hstep
  | notified passed => exact h.relay hinj hunset (.inr (.inl ⟨passed, .inl rfl⟩)) ha hstep
  | throttle passed => exact h.relay hinj hunset (.inr (.inl ⟨passed, .inr rfl⟩)) ha hstep
  | refreshed => exact h.relay hinj hunset (.inr (.inr rfl)) ha hstep
  | refreshScreen => exact h.message (.inl rfl) ha hstep
  | resize cols rows terminal => exact h.message (.inr ⟨cols, rows, terminal, rfl⟩) ha hstep
  | oldNotified => exact h.oldRelay (.inl rfl) ha hstep
  | oldRender => exact h.oldRelay (.inr rfl) ha hstep

/-! ### Runs -/

/-- A fresh session, and the terminal of the client to come. -/
def start (cols rows limit : Nat) (terminal : Screen) : Watch H := { screen := .new cols rows limit, terminal }

omit [DecidableEq H] in
theorem start_inv {cols rows : Nat} (limit : Nat) (hcols : cols ≤ 65535) (hrows : rows ≤ 65535) {T : Screen}
    (hT : T.Canvas P (max cols 1) (max rows 1)) : (start cols rows limit T : Watch H).Inv R P where
  ready :=
    { viewed := ⟨Screen.new_inv limit hcols hrows, by simp [start]⟩
      canvas := hT
      modes := by simp [start] }
  outbox := ⟨⟨Nat.zero_le _, Nat.zero_le _, Nat.zero_le _⟩, Outbox.kinds_nil⟩
  shows := fun hp => absurd rfl hp
  due := .inr trivial
  gone := fun hp => by cases hp
  last := fun hp => by cases hp

theorem run_inv (hinj : Function.Injective R.hash) (hunset : ∀ row, R.hash row ≠ R.unset) {cols rows limit : Nat}
    (hcols : cols ≤ 65535) (hrows : rows ≤ 65535) {T : Screen} (hT : T.Canvas P (max cols 1) (max rows 1)) {steps : List WatchStep}
    (hasks : Along (step W R) (Asks W R P) (start cols rows limit T) steps)
    (hrun : run W R (start cols rows limit T) steps = some w) : w.Inv R P :=
  hasks.keeps (fun _ _ _ h ha hstep => h.step hinj hunset ha hstep) (start_inv limit hcols hrows hT) hrun

/-- A client that attaches to a fresh session, and some output. -/
theorem sample_asks : Along (step .sample Viewed.rowHash) (Asks .sample Viewed.rowHash {({} : Style)}) (start 4 2 10 (.new 4 2 10))
    [.snapshot [], .drain, .spawn, .check, .chunk [.print 'b'] true, .notify, .notified [], .throttle []] := by
  refine .cons ⟨fun h => absurd rfl h, Display.frameable_plain (by decide) (by decide) ⟨rfl, rfl⟩⟩ rfl ?_
  refine .cons trivial rfl (.cons trivial rfl ?_)
  refine .cons (fun h => absurd rfl h) rfl (.cons (.cons (Display.asks_print rfl rfl) rfl trivial) rfl (.cons trivial rfl ?_))
  refine .cons (fun h => absurd rfl h) rfl (.cons ⟨?_, ?_⟩ rfl trivial)
  · exact Display.frameable_plain (by decide) (by decide) ⟨rfl, rfl⟩
  · exact Display.clean_of_plain (by decide) (by decide)

/-- What is still to be done when neither the session nor the client's user does
anything more. -/
def Finishes (w : Watch H) : WatchStep → Prop
  | .notify | .readerNotify | .snapshot _ | .drain | .spawn | .check | .notified _ | .throttle _ | .refreshed => True
  | .refreshScreen => w.resized
  | .chunk .. | .readerStore | .resize .. | .oldNotified | .oldRender => False

/-- The steps that are left to the connection by itself. -/
def phaseWeight : WatchPhase → Nat
  | .connected => 7
  | .shown => 6
  | .drained => 5
  | .spawned => 2
  | .waiting pendingRender => pendingRender.toNat
  | .ended => 0

def weight (w : Watch H) : Nat :=
  phaseWeight w.phase + 3 * w.processed.toNat + 3 * (decide (w.reader = .stored)).toNat + 2 * w.permit.toNat +
    2 * w.resized.toNat + w.refresh.toNat

omit [DecidableEq H] in
theorem Inv.weight_le (h : w.Inv R P) : w.weight ≤ 15 := by
  have hphase : phaseWeight w.phase ≤ 7 := by
    cases w.phase with
    | waiting p => exact (Bool.toNat_le p).trans (by decide)
    | _ => decide
  have hreader : w.processed.toNat + (decide (w.reader = .stored)).toNat ≤ 1 := by
    cases hp : w.processed with
    | false => simpa using Bool.toNat_le _
    | true => simp [h.last hp]
  have hpermit := w.permit.toNat_le
  have hresized := w.resized.toNat_le
  have hrefresh := w.refresh.toNat_le
  unfold weight
  omega

/-- One such step. -/
theorem step_weight {a : WatchStep} (ha : w.Finishes a) (hstep : w.step W R a = some w') : w'.weight < w.weight := by
  have hpermit := w.permit.toNat_le
  cases a with
  | chunk | readerStore | resize | oldNotified | oldRender => exact ha.elim
  | notify =>
    simp only [step] at hstep
    split at hstep
    next hprocessed =>
      obtain rfl := Option.some.inj hstep
      simp only [weight, hprocessed, Bool.toNat_true, Bool.toNat_false]
      omega
    next => cases hstep
  | readerNotify =>
    simp only [step] at hstep
    split at hstep
    next hstored =>
      obtain rfl := Option.some.inj hstep
      simp only [weight, hstored, decide_true, Bool.toNat_true, reduceCtorEq, decide_false, Bool.toNat_false]
      omega
    next => cases hstep
  | snapshot passed =>
    simp only [step] at hstep
    split at hstep
    next hphase =>
      obtain ⟨d, -, hstep⟩ := Option.bind_eq_some_iff.1 hstep
      obtain rfl := Option.some.inj hstep
      simp only [weight, hphase.1, phaseWeight]
      omega
    next => cases hstep
  | drain =>
    simp only [step] at hstep
    split at hstep
    next hphase =>
      obtain rfl := Option.some.inj hstep
      simp only [weight, hphase, phaseWeight]
      omega
    next => cases hstep
  | spawn =>
    simp only [step] at hstep
    split at hstep
    next hphase =>
      obtain rfl := Option.some.inj hstep
      simp only [weight, hphase, phaseWeight, Bool.toNat_true]
      omega
    next => cases hstep
  | check =>
    simp only [step] at hstep
    split at hstep
    next hphase =>
      split at hstep
      · obtain rfl := Option.some.inj hstep
        simp only [weight, hphase, phaseWeight, Bool.toNat_false]
        omega
      · obtain ⟨d, -, hstep⟩ := Option.bind_eq_some_iff.1 hstep
        obtain rfl := Option.some.inj hstep
        simp only [weight, hphase, phaseWeight]
        omega
    next => cases hstep
  | notified passed =>
    simp only [step] at hstep
    split at hstep
    next p hphase hpermit =>
      split at hstep
      · obtain rfl := Option.some.inj hstep
        simp only [weight, hphase, hpermit, phaseWeight, Bool.toNat_true, Bool.toNat_false]
        omega
      · obtain ⟨d, -, hstep⟩ := Option.bind_eq_some_iff.1 hstep
        obtain rfl := Option.some.inj hstep
        simp only [weight, hphase, hpermit, phaseWeight, Bool.toNat_true, Bool.toNat_false]
        omega
    next => cases hstep
  | throttle passed =>
    simp only [step] at hstep
    split at hstep
    next hphase =>
      obtain ⟨d, -, hstep⟩ := Option.bind_eq_some_iff.1 hstep
      obtain rfl := Option.some.inj hstep
      simp only [weight, hphase, phaseWeight, Bool.toNat_true, Bool.toNat_false]
      omega
    next => cases hstep
  | refreshed =>
    simp only [step] at hstep
    split at hstep
    next p hphase hrefresh =>
      obtain ⟨d, -, hstep⟩ := Option.bind_eq_some_iff.1 hstep
      obtain rfl := Option.some.inj hstep
      simp only [weight, hrefresh, Bool.toNat_true, Bool.toNat_false]
      omega
    next => cases hstep
  | refreshScreen =>
    simp only [step] at hstep
    split at hstep
    next hphase =>
      obtain rfl := Option.some.inj hstep
      have hresized : w.resized = true := ha
      simp only [weight, hresized, Bool.toNat_true, Bool.toNat_false]
      omega
    next => cases hstep

/-- The next step. -/
theorem Inv.finishes (hinj : Function.Injective R.hash) (hunset : ∀ row, R.hash row ≠ R.unset) (h : w.Inv R P)
    (hasks : ∀ a, w.Finishes a → w.Asks W R P a) (hstuck : ∀ a, w.Finishes a → w.step W R a = none) (hdue : w.Due) :
    w.phase = .ended := by
  have hpassed : ∃ passed, ReadsAs passed w.toDisplay.takenPassed := exists_reads fun d hd =>
    (List.mem_append.1 hd).elim (fun hd => (h.outbox.2.passthrough d hd).reads) fun hd => (h.outbox.2.notifications d hd).reads
  have hnotify : w.processed = false := by
    by_contra hprocessed
    have := hstuck .notify trivial
    simp [Watch.step, hprocessed] at this
  have hreader : w.reader ≠ .stored := fun hstored => by
    have := hstuck .readerNotify trivial
    simp [Watch.step, hstored] at this
  have hmessage (hp : w.phase.Relaying) : w.resized = false := by
    by_contra hresized
    have := hstuck .refreshScreen (by simpa [Finishes] using hresized)
    simp [Watch.step, hp] at this
  cases hphase : w.phase with
  | ended => rfl
  | connected =>
    obtain ⟨passed, hreads⟩ := exists_reads fun d hd => (h.outbox.2.notifications d hd).reads
    obtain ⟨d, hsend, -⟩ := h.snapshot hinj hunset hreads (hasks (.snapshot passed) trivial)
    have := hstuck (.snapshot passed) trivial
    rw [Watch.step, if_pos ⟨hphase, hreads⟩, hsend] at this
    cases this
  | shown =>
    have := hstuck .drain trivial
    simp [Watch.step, hphase] at this
  | drained =>
    have := hstuck .spawn trivial
    simp [Watch.step, hphase] at this
  | spawned =>
    have := hstuck .check trivial
    by_cases hrunning : w.reader = .running
    · simp [Watch.step, hphase, hrunning] at this
    · obtain ⟨d, hview, -⟩ := h.ready.full hinj hunset (.inl rfl) (hasks .check trivial hrunning)
      simp [Watch.step, hphase, hrunning, hview] at this
  | waiting p =>
    obtain ⟨passed, hreads⟩ := hpassed
    have hpending : p = false := by
      by_contra hp
      rw [Bool.not_eq_false] at hp
      obtain ⟨d, htake, -⟩ := h.ready.takeAndRender hinj hunset hreads (hasks (.throttle passed) trivial).frameable
      have := hstuck (.throttle passed) trivial
      simp [Watch.step, hphase, hp, htake] at this
    have hpermit : w.permit = false := by
      by_contra hpermit
      rw [Bool.not_eq_false] at hpermit
      have := hstuck (.notified passed) trivial
      by_cases hrunning : w.reader = .running
      · simp [Watch.step, hphase, hpermit, hrunning] at this
      · obtain ⟨d, htake, -⟩ := h.ready.takeAndRender hinj hunset hreads (hasks (.notified passed) trivial hrunning).frameable
        simp [Watch.step, hphase, hpermit, hrunning, htake] at this
    have hrefresh : w.refresh = false := by
      by_contra hrefresh
      rw [Bool.not_eq_false] at hrefresh
      obtain ⟨d, hview, -⟩ := h.ready.full hinj hunset (.inl rfl) (hasks .refreshed trivial)
      have := hstuck .refreshed trivial
      simp [Watch.step, hphase, hrefresh, hview] at this
    have hresized := hmessage (hphase ▸ trivial)
    simp [Due, hphase, hpending, hpermit, hnotify, hrefresh, hresized, hreader] at hdue

/-- Plain text, with nothing scrolled off. -/
theorem asks_plain {w : Watch (Option Row)} (hplain : ∀ row ∈ w.screen.grid.visibleRows, Screen.Plain row)
    (hstyles : w.screen.grid.palette ⊆ {({} : Style)}) (hdirect : w.screen.grid.modes.Direct)
    (hblank : ∀ row ∈ w.screen.grid.visibleRows, row.EndsBlank w.screen.grid.styleTable) (hhistory : w.historyLines = [])
    (hlines : w.takenLines = []) {a : WatchStep} (ha : w.Finishes a) : w.Asks .sample Viewed.rowHash {({} : Style)} a := by
  have hfull : w.toDisplay.Frameable .sample {({} : Style)} [] :=
    Display.frameable_plain hplain hstyles hdirect
  have htakes : w.toDisplay.Takes .sample Viewed.rowHash {({} : Style)} := by
    constructor
    · rw [hlines]
      exact Display.frameable_plain (d := w.toDisplay.taken) hplain hstyles hdirect
    · exact Display.clean_of_plain (d := w.toDisplay.taken) hplain hblank
  cases a with
  | chunk | readerStore | resize | oldNotified | oldRender => exact ha.elim
  | snapshot => exact ⟨fun h => absurd hhistory h, hfull⟩
  | check => exact fun _ => hfull
  | notified => exact fun _ => htakes
  | throttle => exact htakes
  | refreshed => exact hfull
  | _ => trivial

end

end Watch

end Retach
