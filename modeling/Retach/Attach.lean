import Retach.Pending
/-!
# Attaching to a running session (`server/session_bridge.rs`, `server/session_relay.rs`)

A client attaches in two sections under the screen's lock: the first takes the
history and a full frame, the second drains what is pending. Its relay then
delivers what scrolls off and what is passed through. Between these steps the
reader goes on processing output, and the relay of an evicted client may still
run.
-/

open Checked Lists Runs

namespace Retach

/-! ## What scrolls off -/

/-- The effects of output on the main screen. -/
def Kind.Live (k : Kind) : Prop := k ≠ .clear ∧ k ≠ .enter ∧ k ≠ .reset ∧ k ≠ .resize ∧ k ≠ .take

/-- Output that stays on the main screen and forgets no scrollback. -/
def Event.Live (e : Event) : Prop := ¬ e.EntersAlt ∧ ¬ e.ClearsScrollback ∧ ¬ e.Resets

namespace Screen

variable {s t : Screen}

/-- Output took `s` to `t`, on the main screen: what scrolled off is pending, as
far as the limit keeps it, and what is passed through is queued. -/
structure Scrolls (s t : Screen) : Prop where
  inv : t.Inv
  main : t.state.inAltScreen = false
  limit : t.grid.scrollbackLimit = s.grid.scrollbackLimit
  lines : ∃ new, t.scrolledOff = s.scrolledOff ++ new ∧ t.pendingRows = (s.pendingRows ++ new).rtake s.grid.scrollbackLimit
  passthrough : s.state.pendingPassthrough <+: t.state.pendingPassthrough

theorem Scrolls.refl (h : s.Inv) (hmain : s.state.inAltScreen = false) : s.Scrolls s where
  inv := h
  main := hmain
  limit := rfl
  lines := ⟨[], by simp, by rw [List.append_nil, rtake_of_length_le (h.pendingRows_length hmain)]⟩
  passthrough := List.prefix_rfl

theorem Scrolls.trans {u : Screen} (h : s.Scrolls t) (h' : t.Scrolls u) : s.Scrolls u where
  inv := h'.inv
  main := h'.main
  limit := h'.limit.trans h.limit
  lines := by
    obtain ⟨n₁, hoff₁, hpend₁⟩ := h.lines
    obtain ⟨n₂, hoff₂, hpend₂⟩ := h'.lines
    refine ⟨n₁ ++ n₂, by rw [hoff₂, hoff₁, List.append_assoc], ?_⟩
    rw [hpend₂, hpend₁, h.limit, rtake_append_rtake, List.append_assoc]
  passthrough := h.passthrough.trans h'.passthrough

end Screen

theorem Kind.Live.retains {k : Kind} (h : k.Live) : k.Retains := ⟨h.1, h.2.2.1, h.2.2.2.1, h.2.2.2.2⟩

/-- A live effect on the main screen. -/
theorem Effect.scrolls {k : Kind} {s t : Screen} (h : Effect k s t) (hk : k.Live) (hs : s.Inv)
    (hmain : s.state.inAltScreen = false) : s.Scrolls t := by
  obtain ⟨new, hnew⟩ := h.displaces hk.retains hs
  have ht := h.inv hs
  have hmain' : t.state.inAltScreen = false := by
    cases h with
    | enter => exact absurd rfl hk.2.1
    | aux st ha => exact ha.inAltScreen.trans hmain
    | osc st ha => exact ha.inAltScreen.trans hmain
    | reset | exit => rfl
    | _ => exact hmain
  have hpassthrough : s.state.pendingPassthrough <+: t.state.pendingPassthrough := by
    cases h with
    | aux st ha => exact ha.passthrough
    | osc st ha => exact ha.passthrough
    | takePassthrough => exact absurd rfl hk.2.2.2.2
    | _ => exact List.prefix_rfl
  have hlimit := hnew.limit
  have hlines := hnew.pending
  rw [hs.mainLimit_main hmain] at hlines hlimit
  rw [ht.mainLimit_main hmain'] at hlimit
  exact ⟨ht, hmain', hlimit, ⟨new, hnew.log, hlines⟩, hpassthrough⟩

namespace Screen

variable (W : UnicodeWidth)

theorem allows_live {e : Event} (h : e.Live) (s : Screen) : Allows W Kind.Live s e where
  other := by simp [Kind.Live]
  move := by simp [Kind.Live]
  modes := by simp [Kind.Live]
  orphan := everyPrint_of_forall W (by simp [Kind.Live]) s e
  control := everyPrint_of_forall W (by simp [Kind.Live]) s e
  save := everySave_of_forall (by simp [Kind.Live]) s e
  enter := fun he => absurd he h.1
  exit := by simp [Kind.Live]
  clear := fun hc => absurd hc h.2.1
  reset := fun hr => absurd hr h.2.2
  title := by simp [Kind.Live]
  osc := by simp [Kind.Live]

/-- Live output. -/
theorem process_scrolls {es : List Event} (hes : ∀ e ∈ es, e.Live) {s t : Screen} (hs : s.Inv)
    (hmain : s.state.inAltScreen = false) (hrun : s.process W es = some t) : s.Scrolls t :=
  (Along.of_forall hes s).keeps (I := s.Scrolls) (fun t e t' h he hstep =>
    (step_leads h.inv e (allows_live W he t) t' hstep).keeps (P := s.Scrolls)
      (fun _ _ _ hk heff h => h.trans (heff.scrolls hk h.inv h.main)) h) (.refl hs hmain) hrun

end Screen

/-! ## What the client is due -/

/-- What a client that attaches should be sent, next to what it was sent: its
history and every line scrolled off since, as far as the scrollback limit keeps
a line until the next delivery. -/
structure Feed where
  /-- The scrollback when the history was taken. -/
  history : List Row := []
  /-- Every line scrolled off since. -/
  scrolled : List Row := []
  /-- What it should have been sent. -/
  lines : List Row := []
  /-- What it should be sent next. -/
  owed : List Row := []
  /-- Some line fell out of the scrollback before the next delivery. -/
  overflowed : Bool := false
  passthrough : List (List UInt8) := []
  owedPassthrough : List (List UInt8) := []

namespace Feed

def grow (f : Feed) (limit : Nat) (new : List Row) (queued : List (List UInt8)) : Feed :=
  { f with
    scrolled := f.scrolled ++ new
    owed := (f.owed ++ new).rtake limit
    overflowed := f.overflowed || limit < (f.owed ++ new).length
    owedPassthrough := f.owedPassthrough ++ queued }

def deliver (f : Feed) : Feed :=
  { f with
    lines := f.lines ++ f.owed
    owed := []
    passthrough := f.passthrough ++ f.owedPassthrough
    owedPassthrough := [] }

/-- In order, nothing twice, and nothing missing unless the limit took it. -/
structure Sound (f : Feed) : Prop where
  sublist : (f.lines ++ f.owed).Sublist (f.history ++ f.scrolled)
  complete : f.overflowed = false → f.lines ++ f.owed = f.history ++ f.scrolled

theorem Sound.grow {f : Feed} (h : f.Sound) (limit : Nat) (new : List Row) (queued : List (List UInt8)) :
    (f.grow limit new queued).Sound where
  sublist := by
    have hall := (h.sublist.append (List.Sublist.refl new))
    rw [List.append_assoc, List.append_assoc] at hall
    exact ((List.Sublist.refl f.lines).append (rtake_sublist limit (f.owed ++ new))).trans hall
  complete := fun ho => by
    simp only [Feed.grow, Bool.or_eq_false_iff, decide_eq_false_iff_not, Nat.not_lt] at ho
    change f.lines ++ (f.owed ++ new).rtake limit = f.history ++ (f.scrolled ++ new)
    rw [rtake_of_length_le ho.2, ← List.append_assoc, h.complete ho.1, List.append_assoc]

theorem Sound.deliver {f : Feed} (h : f.Sound) : f.deliver.Sound where
  sublist := by simpa [Feed.deliver] using h.sublist
  complete := fun ho => by simpa [Feed.deliver] using h.complete ho

end Feed

/-! ## The protocol -/

/-- Where the new client is. -/
inductive Phase where
  | waiting | connected
  | /-- after the first section of `send_initial_state` -/ shown
  | /-- after the second -/ relaying
deriving DecidableEq, Repr

structure Attach where
  screen : Screen
  hasClient : Bool
  phase : Phase := .waiting
  /-- The relay of a previous client runs. -/
  oldRelay : Bool
  /-- What the new client was sent. -/
  sentLines : List Row := []
  sentPassthrough : List (List UInt8) := []
  /-- Ghost: what it is due. -/
  due : Feed := {}

inductive AttachStep where
  | /-- the reader processes a chunk -/ chunk (es : List Event)
  | connect
  | /-- the first section of `send_initial_state` -/ snapshot
  | /-- the second -/ drain
  | relay
  | oldRelay
  | /-- the previous client's relay observes its eviction -/ oldStop

namespace Attach

variable (W : UnicodeWidth)

/-- What `take_and_render` takes: the lines, the passthrough and the rest. The
notifications, which it adds to the passthrough, are dropped here. -/
def takeAll (s : Screen) : List Row × List (List UInt8) × Screen :=
  let (lines, s) := s.takePendingScrollback
  let (passthrough, s) := s.takePassthrough
  (lines, passthrough, s.takeQueuedNotifications.2)

/-- The reader and the second section drain pending output. -/
def drained (s : Screen) : Screen := s.takePendingScrollback.2.takePassthrough.2

def step (a : Attach) : AttachStep → Option Attach
  | .chunk es => do
    let s ← a.screen.process W es
    let due := a.due.grow s.grid.scrollbackLimit (s.scrolledOff.drop a.screen.scrolledOff.length)
      (s.state.pendingPassthrough.drop a.screen.state.pendingPassthrough.length)
    let s := s.takeResponses.2
    return { a with screen := if a.hasClient then s else drained s, due }
  | .connect => if a.phase = .waiting then some { a with hasClient := true, phase := .connected } else none
  | .snapshot =>
    if a.phase = .connected then
      let history := if a.screen.state.inAltScreen then [] else a.screen.grid.scrollbackRows
      some { a with
        screen := a.screen.takeQueuedNotifications.2
        phase := .shown
        sentLines := history
        due := { history := a.screen.grid.scrollbackRows, lines := a.screen.grid.scrollbackRows } }
    else none
  | .drain => if a.phase = .shown then some { a with screen := drained a.screen, phase := .relaying } else none
  | .relay =>
    if a.phase = .relaying then
      let (lines, passthrough, s) := takeAll a.screen
      some { a with
        screen := s
        sentLines := a.sentLines ++ lines
        sentPassthrough := a.sentPassthrough ++ passthrough
        due := a.due.deliver }
    else none
  | .oldRelay => if a.oldRelay then some { a with screen := (takeAll a.screen).2.2 } else none
  | .oldStop => if a.phase ≠ .waiting then some { a with oldRelay := false } else none

def run (a : Attach) (steps : List AttachStep) : Option Attach := steps.foldlM (step W) a

/-- A session before a client attaches, with or without a previous one. -/
def start (s : Screen) (oldRelay : Bool) : Attach := { screen := s, hasClient := oldRelay, oldRelay }

/-- Nothing has scrolled off and nothing was queued that the client is still
due. -/
def NothingDue (a : Attach) : Prop := a.due.owed = [] ∧ a.due.owedPassthrough = []

/-- Nobody else takes what the client is due. -/
def TakesNothingDue (a : Attach) : AttachStep → Prop
  | .drain => a.NothingDue
  | .oldRelay => a.phase = .shown ∨ a.phase = .relaying → a.NothingDue
  | _ => True

def StepLive : AttachStep → Prop
  | .chunk es => ∀ e ∈ es, e.Live
  | _ => True

/-! ## The invariant -/

structure Ok (a : Attach) : Prop where
  inv : a.screen.Inv
  main : a.screen.state.inAltScreen = false
  client : a.phase ≠ .waiting → a.hasClient = true
  feed : a.due.Sound
  fresh : a.phase = .waiting ∨ a.phase = .connected → a.sentPassthrough = []
  sent : a.phase = .shown ∨ a.phase = .relaying → a.sentLines = a.due.lines ∧ a.sentPassthrough = a.due.passthrough
  pending : a.phase = .relaying →
    a.screen.pendingRows = a.due.owed ∧ a.screen.state.pendingPassthrough = a.due.owedPassthrough

theorem drained_inv {s : Screen} (h : s.Inv) : (drained s).Inv :=
  Effect.inv .takePassthrough (Effect.inv .takeScrollback h)

theorem drained_pendingRows {s : Screen} (h : s.Inv) : (drained s).pendingRows = [] := by
  rw [(drained_inv h).pendingRows_eq]
  change (s.grid.scrollbackRows).drop s.grid.scrollbackLen = []
  rw [List.drop_eq_nil_iff, h.shape.scrollback_length]

theorem takeQueuedNotifications_inv {s : Screen} (h : s.Inv) : s.takeQueuedNotifications.2.Inv :=
  h.aux (show s.state.Aux { s.state with queuedNotifications := [] } from ⟨rfl, rfl, rfl, rfl, rfl, List.prefix_rfl, id⟩)

theorem takeAll_inv {s : Screen} (h : s.Inv) : (takeAll s).2.2.Inv := takeQueuedNotifications_inv (drained_inv h)

theorem takeAll_pendingRows {s : Screen} (h : s.Inv) : (takeAll s).2.2.pendingRows = [] := drained_pendingRows h

theorem takeResponses_inv {s : Screen} (h : s.Inv) : s.takeResponses.2.Inv :=
  h.aux (show s.state.Aux { s.state with pendingResponses := [] } from ⟨rfl, rfl, rfl, rfl, rfl, List.prefix_rfl, id⟩)

variable {W : UnicodeWidth} {a a' : Attach}

theorem start_ok {s : Screen} (hs : s.Inv) (hmain : s.state.inAltScreen = false) (oldRelay : Bool) : (start s oldRelay).Ok where
  inv := hs
  main := hmain
  client := fun h => absurd rfl h
  feed := ⟨.refl _, fun _ => rfl⟩
  fresh := fun _ => rfl
  sent := fun h => by rcases h with h | h <;> cases h
  pending := fun h => by cases h

/-- Output: what it adds is due, and pending once the relay runs. -/
theorem chunk_ok (h : a.Ok) {es : List Event} (hes : ∀ e ∈ es, e.Live) (hstep : a.step W (.chunk es) = some a') :
    a'.Ok := by
  obtain ⟨s, hrun, hstep⟩ := Option.bind_eq_some_iff.1 hstep
  obtain rfl := Option.some.inj hstep
  have hscrolls := Screen.process_scrolls W hes h.inv h.main hrun
  obtain ⟨new, hoff, hpend⟩ := hscrolls.lines
  obtain ⟨queued, hqueued⟩ := hscrolls.passthrough
  have hnew : s.scrolledOff.drop a.screen.scrolledOff.length = new := by rw [hoff, List.drop_left]
  have hpt : s.state.pendingPassthrough.drop a.screen.state.pendingPassthrough.length = queued := by
    rw [← hqueued, List.drop_left]
  have hinv := takeResponses_inv hscrolls.inv
  rw [hnew, hpt]
  refine { inv := ?_, main := ?_, client := h.client, feed := h.feed.grow _ _ _, fresh := h.fresh, sent := h.sent, pending := ?_ }
  · dsimp only
    split
    · exact hinv
    · exact drained_inv hinv
  · dsimp only
    split
    · exact hscrolls.main
    · exact hscrolls.main
  · intro hphase
    obtain ⟨hlines, hpassthrough⟩ := h.pending hphase
    have hclient : a.hasClient = true := h.client fun hw => by rw [hphase] at hw; cases hw
    dsimp only [Feed.grow]
    rw [if_pos hclient]
    exact ⟨by rw [← hlines, hscrolls.limit]; exact hpend, by rw [← hpassthrough]; exact hqueued.symm⟩

theorem connect_ok (h : a.Ok) (hstep : a.step W .connect = some a') : a'.Ok := by
  simp only [step] at hstep
  split at hstep
  next hphase =>
    obtain rfl := Option.some.inj hstep
    exact { h with
      client := fun _ => rfl
      fresh := fun _ => h.fresh (.inl hphase)
      sent := fun hp => by rcases hp with hp | hp <;> cases hp
      pending := fun hp => by cases hp }
  next => cases hstep

theorem snapshot_ok (h : a.Ok) (hstep : a.step W .snapshot = some a') : a'.Ok := by
  simp only [step] at hstep
  split at hstep
  next hphase =>
    obtain rfl := Option.some.inj hstep
    exact {
      inv := takeQueuedNotifications_inv h.inv
      main := h.main
      client := fun _ => h.client (by simp [hphase])
      feed := ⟨by simp, by simp⟩
      fresh := fun hp => by rcases hp with hp | hp <;> cases hp
      sent := fun _ => ⟨if_neg (by simp [h.main]), h.fresh (.inr hphase)⟩
      pending := fun hp => by cases hp }
  next => cases hstep

theorem drain_ok (h : a.Ok) (hdue : a.NothingDue) (hstep : a.step W .drain = some a') : a'.Ok := by
  simp only [step] at hstep
  split at hstep
  next hphase =>
    obtain rfl := Option.some.inj hstep
    exact {
      inv := drained_inv h.inv
      main := h.main
      client := fun _ => h.client (by simp [hphase])
      feed := h.feed
      fresh := fun hp => by rcases hp with hp | hp <;> cases hp
      sent := fun _ => h.sent (.inl hphase)
      pending := fun _ => ⟨(drained_pendingRows h.inv).trans hdue.1.symm, hdue.2.symm⟩ }
  next => cases hstep

theorem relay_ok (h : a.Ok) (hstep : a.step W .relay = some a') : a'.Ok := by
  simp only [step] at hstep
  split at hstep
  next hphase =>
    obtain rfl := Option.some.inj hstep
    obtain ⟨hlines, hpassthrough⟩ := h.pending hphase
    obtain ⟨hsent, hsentPassthrough⟩ := h.sent (.inr hphase)
    exact { h with
      inv := takeAll_inv h.inv
      main := h.main
      feed := h.feed.deliver
      fresh := fun hp => by rcases hp with hp | hp <;> rw [hphase] at hp <;> cases hp
      sent := fun _ => ⟨congrArg₂ (· ++ ·) hsent hlines, congrArg₂ (· ++ ·) hsentPassthrough hpassthrough⟩
      pending := fun _ => ⟨takeAll_pendingRows h.inv, rfl⟩ }
  next => cases hstep

theorem oldRelay_ok (h : a.Ok) (hdue : a.phase = .shown ∨ a.phase = .relaying → a.NothingDue)
    (hstep : a.step W .oldRelay = some a') : a'.Ok := by
  simp only [step] at hstep
  split at hstep
  · obtain rfl := Option.some.inj hstep
    exact { h with
      inv := takeAll_inv h.inv
      main := h.main
      pending := fun hphase =>
        ⟨(takeAll_pendingRows h.inv).trans (hdue (.inr hphase)).1.symm, (hdue (.inr hphase)).2.symm⟩ }
  · cases hstep

theorem oldStop_ok (h : a.Ok) (hstep : a.step W .oldStop = some a') : a'.Ok := by
  simp only [step] at hstep
  split at hstep
  · obtain rfl := Option.some.inj hstep
    exact { h with }
  · cases hstep

theorem step_ok (h : a.Ok) {step : AttachStep} (hlive : StepLive step) (hdue : a.TakesNothingDue step)
    (hstep : a.step W step = some a') : a'.Ok := by
  cases step with
  | chunk es => exact chunk_ok h hlive hstep
  | connect => exact connect_ok h hstep
  | snapshot => exact snapshot_ok h hstep
  | drain => exact drain_ok h hdue hstep
  | relay => exact relay_ok h hstep
  | oldRelay => exact oldRelay_ok h hdue hstep
  | oldStop => exact oldStop_ok h hstep

/-! ## Runs -/

variable (W)

/-- If nobody else takes what the client is due, then after each step of its
relay it was sent its history and every line scrolled off since, in order and
once each, except for lines the scrollback limit took before their delivery;
and everything passed through. -/
theorem run_delivers {s : Screen} (hs : s.Reachable W) (hmain : s.state.inAltScreen = false) (old : Bool)
    {steps : List AttachStep} (hlive : ∀ st ∈ steps, StepLive st) {b : Attach}
    (hdue : Along (step W) TakesNothingDue (start s old) (steps ++ [.relay]))
    (hrun : (start s old).run W (steps ++ [.relay]) = some b) :
    b.sentLines = b.due.lines ∧ b.sentPassthrough = b.due.passthrough ∧
      b.sentLines.Sublist (b.due.history ++ b.due.scrolled) ∧
      (b.due.overflowed = false → b.sentLines = b.due.history ++ b.due.scrolled) := by
  have hlive' : ∀ st ∈ steps ++ [AttachStep.relay], StepLive st :=
    List.forall_mem_append.2 ⟨hlive, List.forall_mem_singleton.2 trivial⟩
  have hok : b.Ok := ((Along.of_forall hlive' _).and hdue).keeps (fun _ _ _ h hp hstep => step_ok h hp.1 hp.2 hstep)
    (start_ok hs.inv hmain old) hrun
  -- the last step is the relay's
  rw [run, List.foldlM_append] at hrun
  obtain ⟨a, -, hlast⟩ := Option.bind_eq_some_iff.1 hrun
  simp only [List.foldlM_cons, List.foldlM_nil, step, Option.bind_eq_bind] at hlast
  split at hlast
  next hphase =>
    obtain rfl := Option.some.inj hlast
    obtain ⟨hlines, hpassthrough⟩ := hok.sent (.inr hphase)
    have hsub := hok.feed.sublist
    have hall := hok.feed.complete
    dsimp only [Feed.deliver] at hsub hall hlines hpassthrough ⊢
    rw [List.append_nil] at hsub hall
    rw [hlines]
    exact ⟨rfl, hpassthrough, hsub, hall⟩
  next => cases hlast

theorem run_delivers_sample : ∃ b, (start (Screen.new 4 1 10) true).run .sample
      [.connect, .snapshot, .drain, .oldStop, .chunk [.print 'a', .execute 10], .relay] = some b ∧
    b.sentLines = b.due.history ++ b.due.scrolled := by
  have hlive : ∀ st ∈ [AttachStep.connect, .snapshot, .drain, .oldStop, .chunk [.print 'a', .execute 10]], StepLive st := by
    simp [StepLive, Event.Live, Event.EntersAlt, Event.ClearsScrollback, Event.Resets]
  have hdue : Along (step .sample) TakesNothingDue (start (Screen.new 4 1 10) true)
      ([.connect, .snapshot, .drain, .oldStop, .chunk [.print 'a', .execute 10]] ++ [.relay]) :=
    .cons trivial rfl (.cons trivial rfl (.cons ⟨rfl, rfl⟩ rfl (.cons trivial rfl (.cons trivial rfl
      (.cons trivial rfl trivial)))))
  obtain ⟨-, -, -, hall⟩ := run_delivers .sample (Screen.new_reachable .sample 4 1 10 (by decide) (by decide)) rfl true
    hlive hdue rfl
  exact ⟨_, rfl, hall rfl⟩

/-- A line scrolls off between the two sections of `send_initial_state`: the
second drains it, and the client never gets it. -/
theorem drain_loses : ∃ b, (start (Screen.new 4 1 10) false).run .sample
      [.connect, .snapshot, .chunk [.print 'a', .execute 10], .drain, .relay] = some b ∧
    b.sentLines ≠ b.due.history ++ b.due.scrolled ∧ b.due.overflowed = false :=
  ⟨_, rfl, by decide, rfl⟩

/-- The relay of an evicted client takes a line that the new client is due. -/
theorem oldRelay_loses : ∃ b, (start (Screen.new 4 1 10) true).run .sample
      [.connect, .snapshot, .drain, .chunk [.print 'a', .execute 10], .oldRelay, .relay] = some b ∧
    b.sentLines ≠ b.due.history ++ b.due.scrolled ∧ b.due.overflowed = false :=
  ⟨_, rfl, by decide, rfl⟩

end Attach

end Retach
