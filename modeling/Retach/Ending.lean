import Retach.Lib.Runs
/-!
# The end of a session (`screen_to_client` in `server/session_relay.rs`, `session.rs`)

The relay of each client waits for the reader's notifications and for its own
eviction channel. Connects, `KillSession`, the clean-up of dead sessions and the
shutdown of the server all act on that channel; the reader's end is announced by
a flag and one last notification, and all relays that a session has ever had
wait on the same `Notify`.

A `Notify` holds at most one permit. `notify_one` wakes one of the relays that
wait, or stores the permit if none does; a relay that was woken and leaves its
`select!` by another branch passes the notification on.
-/

open Runs

namespace Retach

/-- The eviction channel as its receiver sees it: nothing new, the value
`false`, or the sender dropped without it. -/
inductive Channel where
  | quiet | evicted | closed
deriving DecidableEq, Repr

/-- What a client is told at the end. -/
inductive Farewell where
  | sessionEnded
  | /-- `evicted by new client` -/ evicted
  | /-- nothing: its connection failed, or its other relay ended -/ failed
deriving DecidableEq, Repr

inductive RelayState where
  | /-- before the `notify_one` of `handle_session` -/ setup
  | /-- before its check of `reader_alive` -/ spawned
  | /-- in the body of a branch -/ busy
  | /-- in `select!` -/ waiting
  | /-- in `select!`, with a notification -/ woken
  | ended (how : Farewell)
deriving DecidableEq, Repr

/-- Ended, or bound to look at `reader_alive` without another notification. -/
def RelayState.Sure : RelayState → Prop
  | .busy | .waiting => False
  | _ => True

structure Relay where
  channel : Channel := .quiet
  state : RelayState := .setup
deriving DecidableEq, Repr

inductive ReaderState where
  | running
  | /-- has stored `reader_alive = false` -/ stored
  | /-- and called `notify_one` -/ finished
deriving DecidableEq, Repr

/-- Where the `Session` is. -/
inductive Holder where
  | manager
  | /-- removed by `KillSession` -/ killed
  | /-- after `disconnect` -/ disconnected
  | /-- removed by the clean-up or at shutdown -/ removed
  | dropped
deriving DecidableEq, Repr

/-- `relays` are in the order of their connections: the last one is the current
client's, and `evict_tx` is its channel until `disconnect` or the drop. -/
structure LiveSession where
  relays : List Relay := []
  reader : ReaderState := .running
  permit : Bool := false
  childAlive : Bool := true
  holder : Holder := .manager
deriving DecidableEq, Repr

/-- `t` is the relay that a notification wakes, or `none` to store it. -/
inductive LifeStep where
  | connect | kill | disconnect | sweep | drainAll
  | /-- the `Drop` of `Session`; `contended`: the child's lock is taken -/ drop (contended : Bool)
  | childExit
  | /-- the reader has processed output -/ data (t : Option Nat)
  | readerStore
  | readerNotify (t : Option Nat)
  | /-- the `notify_one` of `handle_session` -/ spawn (i : Nat) (t : Option Nat)
  | /-- the check of `reader_alive` -/ check (i : Nat)
  | select (i : Nat)
  | notified (i : Nat)
  | /-- the throttle or the refresh -/ other (i : Nat) (t : Option Nat)
  | changed (i : Nat) (t : Option Nat)
  | fail (i : Nat) (t : Option Nat)
deriving DecidableEq, Repr

/-- The steps of the relays, of the reader and of the child. -/
def LifeStep.Inside : LifeStep → Prop
  | .connect | .kill | .disconnect | .sweep | .drainAll | .drop _ => False
  | _ => True

namespace LiveSession

def readerAlive (s : LiveSession) : Bool := s.reader = .running

def setState (s : LiveSession) (i : Nat) (state : RelayState) : LiveSession :=
  { s with relays := s.relays.modify i fun r => { r with state } }

/-- The last channel gets `c`, unless it has been decided. -/
def setChannel (s : LiveSession) (c : Channel) : LiveSession :=
  { s with relays := s.relays.modify (s.relays.length - 1) fun r =>
      { r with channel := if r.channel = .quiet then c else r.channel } }

/-- `notify_one`. -/
def notify (s : LiveSession) : Option Nat → Option LiveSession
  | some i =>
    match s.relays[i]? with
    | some ⟨_, .waiting⟩ => some (s.setState i .woken)
    | _ => none
  | none => if ∀ r ∈ s.relays, r.state ≠ .waiting then some { s with permit := true } else none

/-- Relay `i` leaves `select!` by a branch other than the notification's. -/
def leave (s : LiveSession) (i : Nat) (state : RelayState) (t : Option Nat) : Option LiveSession :=
  match s.relays[i]? with
  | some ⟨_, .waiting⟩ => if t = none then some (s.setState i state) else none
  | some ⟨_, .woken⟩ => (s.setState i state).notify t
  | _ => none

/-- The branch of the notification. -/
def wake (s : LiveSession) (i : Nat) : LiveSession :=
  s.setState i (if s.readerAlive then .busy else .ended .sessionEnded)

def step (s : LiveSession) : LifeStep → Option LiveSession
  | .connect =>
    if s.holder = .manager then some { s with relays := (s.setChannel .evicted).relays ++ [{}] } else none
  | .kill => if s.holder = .manager then some { s with holder := .killed } else none
  | .disconnect =>
    if s.holder = .killed then some { s.setChannel .closed with holder := .disconnected } else none
  | .sweep =>
    -- only a session that is not alive
    if s.holder = .manager ∧ ¬ (s.readerAlive ∧ s.childAlive) then some { s with holder := .removed } else none
  | .drainAll => if s.holder = .manager then some { s with holder := .removed } else none
  | .drop contended =>
    match s.holder with
    | .disconnected => some { s with childAlive := contended && s.childAlive, holder := .dropped }
    | .removed =>
      if contended then some { s.setChannel .closed with holder := .dropped }
      else some { s.setChannel .evicted with childAlive := false, holder := .dropped }
    | _ => none
  | .childExit => some { s with childAlive := false }
  | .data t => if s.reader = .running then s.notify t else none
  | .readerStore => if s.reader = .running then some { s with reader := .stored } else none
  | .readerNotify t => if s.reader = .stored then { s with reader := .finished : LiveSession }.notify t else none
  | .spawn i t =>
    match s.relays[i]? with
    | some ⟨_, .setup⟩ => (s.setState i .spawned).notify t
    | _ => none
  | .check i =>
    match s.relays[i]? with
    | some ⟨_, .spawned⟩ => some (s.wake i)
    | _ => none
  | .select i =>
    match s.relays[i]? with
    | some ⟨_, .busy⟩ => some (s.setState i .waiting)
    | _ => none
  | .notified i =>
    match s.relays[i]? with
    | some ⟨_, .woken⟩ => some (s.wake i)
    | some ⟨_, .waiting⟩ => if s.permit then some { s.wake i with permit := false } else none
    | _ => none
  | .other i t => s.leave i .busy t
  | .changed i t =>
    match s.relays[i]? with
    | some ⟨.evicted, _⟩ => s.leave i (.ended .evicted) t
    | some ⟨.closed, _⟩ => s.leave i (.ended .sessionEnded) t
    | _ => none
  | .fail i t =>
    match s.relays[i]? with
    | some ⟨_, .waiting⟩ | some ⟨_, .woken⟩ => s.leave i (.ended .failed) t
    | some ⟨_, .ended _⟩ => none
    | some _ => some (s.setState i (.ended .failed))
    | none => none

def run (s : LiveSession) (steps : List LifeStep) : Option LiveSession := steps.foldlM step s

/-- The relay of the current client. -/
def current (s : LiveSession) : Option Relay := s.relays[s.relays.length - 1]?

variable {s s' : LiveSession}

theorem getElem?_setState (s : LiveSession) (i : Nat) (state : RelayState) (j : Nat) :
    (s.setState i state).relays[j]? = if i = j then s.relays[j]?.map fun r => { r with state } else s.relays[j]? := by
  simp only [setState, List.getElem?_modify]
  split <;> simp

theorem length_setState (s : LiveSession) (i : Nat) (state : RelayState) :
    (s.setState i state).relays.length = s.relays.length := by simp [setState]

/-! ## What the relays do -/

/-- Relays move on: their channels stay, nobody comes back from the end, and
who is told of an eviction had it in the channel. -/
structure Moves (s s' : LiveSession) : Prop where
  length : s'.relays.length = s.relays.length
  holder : s'.holder = s.holder
  relay : ∀ (i : Nat) (r' : Relay), s'.relays[i]? = some r' → ∃ r : Relay, s.relays[i]? = some r ∧ r'.channel = r.channel ∧
    (∀ how, r.state = .ended how → r' = r) ∧
    (r'.state = .ended .evicted → r.state = .ended .evicted ∨ r.channel = .evicted ∧ ∀ how, r.state ≠ .ended how)

theorem Moves.refl (s : LiveSession) : s.Moves s :=
  ⟨rfl, rfl, fun _ r' h => ⟨r', h, rfl, fun _ _ => rfl, .inl⟩⟩

theorem Moves.trans {s'' : LiveSession} (h : s.Moves s') (h' : s'.Moves s'') : s.Moves s'' where
  length := h'.length.trans h.length
  holder := h'.holder.trans h.holder
  relay i r'' hr'' := by
    obtain ⟨r', hr', hchannel', hend', htold'⟩ := h'.relay i r'' hr''
    obtain ⟨r, hr, hchannel, hend, htold⟩ := h.relay i r' hr'
    refine ⟨r, hr, hchannel'.trans hchannel, fun how hhow => ?_, fun ht => ?_⟩
    · obtain rfl := hend how hhow
      exact hend' how hhow
    · rcases htold' ht with ht' | ⟨hev, hlive⟩
      · exact htold ht'
      · refine .inr ⟨hchannel ▸ hev, fun how hhow => ?_⟩
        obtain rfl := hend how hhow
        exact hlive how hhow

/-- A relay that has not ended moves on. -/
theorem moves_setState {i : Nat} {r : Relay} (hr : s.relays[i]? = some r) (hlive : ∀ how, r.state ≠ .ended how)
    {state : RelayState} (htold : state = .ended .evicted → r.channel = .evicted) : s.Moves (s.setState i state) where
  length := length_setState s i state
  holder := rfl
  relay j r' hr' := by
    rw [getElem?_setState] at hr'
    split at hr'
    next hij =>
      subst hij
      rw [hr, Option.map_some, Option.some.injEq] at hr'
      subst hr'
      exact ⟨r, hr, rfl, fun how hhow => absurd hhow (hlive how), fun ht => .inr ⟨htold ht, hlive⟩⟩
    next => exact ⟨r', hr', rfl, fun _ _ => rfl, .inl⟩

theorem moves_notify {t : Option Nat} (h : s.notify t = some s') : s.Moves s' := by
  cases t with
  | some i =>
    simp only [notify] at h
    split at h
    next c hr =>
      obtain rfl := Option.some.inj h
      exact moves_setState hr (by simp) (by simp)
    next => cases h
  | none =>
    simp only [notify] at h
    split at h
    · obtain rfl := Option.some.inj h
      exact ⟨rfl, rfl, (Moves.refl s).relay⟩
    · cases h

theorem moves_leave {i : Nat} {state : RelayState} {t : Option Nat} (h : s.leave i state t = some s')
    (htold : state = .ended .evicted → ∀ r, s.relays[i]? = some r → r.channel = .evicted) : s.Moves s' := by
  unfold leave at h
  split at h
  next c hr =>
    split at h
    · obtain rfl := Option.some.inj h
      exact moves_setState hr (by simp) fun hs => htold hs _ hr
    · cases h
  next c hr => exact (moves_setState hr (by simp) fun hs => htold hs _ hr).trans (moves_notify h)
  next => cases h

theorem moves_wake {i : Nat} {r : Relay} (hr : s.relays[i]? = some r) (hlive : ∀ how, r.state ≠ .ended how) :
    s.Moves (s.wake i) := by
  apply moves_setState hr hlive
  intro h
  split at h <;> cases h

theorem step_moves {a : LifeStep} (ha : a.Inside) (h : s.step a = some s') : s.Moves s' := by
  cases a with
  | connect | kill | disconnect | sweep | drainAll | drop => exact ha.elim
  | childExit =>
    obtain rfl := Option.some.inj h
    exact ⟨rfl, rfl, (Moves.refl s).relay⟩
  | data t =>
    simp only [step] at h
    split at h
    · exact moves_notify h
    · cases h
  | readerStore =>
    simp only [step] at h
    split at h
    · obtain rfl := Option.some.inj h
      exact ⟨rfl, rfl, (Moves.refl s).relay⟩
    · cases h
  | readerNotify t =>
    simp only [step] at h
    split at h
    · have hmoves := moves_notify h
      exact ⟨hmoves.length, hmoves.holder, hmoves.relay⟩
    · cases h
  | spawn i t =>
    simp only [step] at h
    split at h
    next c hr => exact (moves_setState hr (by simp) (by simp)).trans (moves_notify h)
    next => cases h
  | check i =>
    simp only [step] at h
    split at h
    next c hr =>
      obtain rfl := Option.some.inj h
      exact moves_wake hr (by simp)
    next => cases h
  | select i =>
    simp only [step] at h
    split at h
    next c hr =>
      obtain rfl := Option.some.inj h
      exact moves_setState hr (by simp) (by simp)
    next => cases h
  | notified i =>
    simp only [step] at h
    split at h
    next c hr =>
      obtain rfl := Option.some.inj h
      exact moves_wake hr (by simp)
    next c hr =>
      split at h
      · obtain rfl := Option.some.inj h
        have hmoves := moves_wake hr (by simp)
        exact ⟨hmoves.length, hmoves.holder, hmoves.relay⟩
      · cases h
    next => cases h
  | other i t => exact moves_leave h (by simp)
  | changed i t =>
    simp only [step] at h
    split at h
    next state hr =>
      apply moves_leave h
      intro _ r hr'
      rw [hr] at hr'
      obtain rfl := Option.some.inj hr'
      rfl
    next state hr => exact moves_leave h (by simp)
    next => cases h
  | fail i t =>
    simp only [step] at h
    split at h
    · exact moves_leave h (by simp)
    · exact moves_leave h (by simp)
    · cases h
    next r _ _ hend hr =>
      obtain rfl := Option.some.inj h
      refine moves_setState hr (fun how hhow => ?_) (by simp)
      obtain ⟨c, state⟩ := r
      subst hhow
      exact hend c how rfl
    · cases h

/-! ## Who is told of an eviction -/

/-- A session that a dead child or the shutdown brought down is dropped only
when nobody listens to its channel any more. -/
def DropsUnheard (s : LiveSession) : LifeStep → Prop
  | .drop false => s.holder = .removed → ∀ r, s.current = some r → ∃ how, r.state = .ended how
  | _ => True

/-- Only a newer client evicts. -/
structure Fair (s : LiveSession) : Prop where
  /-- A client told of its eviction is not the last one. -/
  told : ∀ (i : Nat) (r : Relay), s.relays[i]? = some r → r.state = .ended .evicted → i + 1 < s.relays.length
  channel : ∀ (i : Nat) (r : Relay), s.relays[i]? = some r → r.channel = .evicted →
    i + 1 < s.relays.length ∨ ∃ how, r.state = .ended how
  /-- The current client's channel, before `disconnect` and after the drop. -/
  undecided : s.holder = .manager ∨ s.holder = .killed ∨ s.holder = .removed →
    ∀ r, s.current = some r → r.channel = .quiet
  decided : s.holder = .disconnected ∨ s.holder = .dropped →
    ∀ r, s.current = some r → r.channel = .closed ∨ ∃ how, r.state = .ended how

theorem Moves.current (h : s.Moves s') {r' : Relay} (hr' : s'.current = some r') :
    ∃ r, s.current = some r ∧ r'.channel = r.channel ∧ ∀ how, r.state = .ended how → r' = r := by
  unfold LiveSession.current at hr'
  rw [h.length] at hr'
  obtain ⟨r, hr, hchannel, hend, -⟩ := h.relay _ r' hr'
  exact ⟨r, hr, hchannel, hend⟩

theorem Fair.moves (hs : s.Fair) (h : s.Moves s') : s'.Fair where
  told i r' hr' ht := by
    obtain ⟨r, hr, -, -, htold⟩ := h.relay i r' hr'
    rw [h.length]
    rcases htold ht with hr' | ⟨hev, hlive⟩
    · exact hs.told i r hr hr'
    · rcases hs.channel i r hr hev with hlt | ⟨how, hhow⟩
      · exact hlt
      · exact absurd hhow (hlive how)
  channel i r' hr' hev := by
    obtain ⟨r, hr, hchannel, hend, -⟩ := h.relay i r' hr'
    rw [h.length]
    rcases hs.channel i r hr (hchannel ▸ hev) with hlt | ⟨how, hhow⟩
    · exact .inl hlt
    · exact .inr ⟨how, by rw [hend how hhow, hhow]⟩
  undecided hholder r' hr' := by
    rw [h.holder] at hholder
    obtain ⟨r, hr, hchannel, -⟩ := h.current hr'
    exact hchannel.trans (hs.undecided hholder r hr)
  decided hholder r' hr' := by
    rw [h.holder] at hholder
    obtain ⟨r, hr, hchannel, hend⟩ := h.current hr'
    rcases hs.decided hholder r hr with hclosed | ⟨how, hhow⟩
    · exact .inl (hchannel.trans hclosed)
    · exact .inr ⟨how, by rw [hend how hhow, hhow]⟩

theorem getElem?_setChannel (s : LiveSession) (c : Channel) (i : Nat) :
    (s.setChannel c).relays[i]? =
      if s.relays.length - 1 = i then s.relays[i]?.map fun r => { r with channel := if r.channel = .quiet then c else r.channel }
      else s.relays[i]? := by
  simp only [setChannel, List.getElem?_modify]
  split <;> simp

theorem length_setChannel (s : LiveSession) (c : Channel) : (s.setChannel c).relays.length = s.relays.length := by
  simp [setChannel]

/-- The current channel, once it is decided. -/
theorem current_setChannel (s : LiveSession) (c : Channel) :
    (s.setChannel c).current =
      s.current.map fun r => { r with channel := if r.channel = .quiet then c else r.channel } := by
  unfold LiveSession.current
  rw [length_setChannel, getElem?_setChannel, if_pos rfl]

/-- The relays keep their states when a channel is decided. -/
theorem relay_setChannel {c : Channel} {i : Nat} {r' : Relay} (h : (s.setChannel c).relays[i]? = some r') :
    ∃ r, s.relays[i]? = some r ∧ r'.state = r.state ∧
      (r'.channel = r.channel ∨ i = s.relays.length - 1 ∧ r'.channel = c) := by
  rw [getElem?_setChannel] at h
  split at h
  next hi =>
    obtain ⟨r, hr, rfl⟩ := Option.map_eq_some_iff.1 h
    refine ⟨r, hr, rfl, ?_⟩
    dsimp only
    split
    · exact .inr ⟨hi.symm, rfl⟩
    · exact .inl rfl
  next => exact ⟨r', h, rfl, .inl rfl⟩

/-- The current channel is decided: it closes, or nobody listens to it. -/
theorem Fair.decide (hs : s.Fair) (hundecided : s.holder = .killed ∨ s.holder = .removed) {c : Channel}
    (hc : c = .closed ∨ ∀ r, s.current = some r → ∃ how, r.state = .ended how) (childAlive : Bool) {holder : Holder}
    (hholder : holder = .disconnected ∨ holder = .dropped) : ({ s.setChannel c with childAlive, holder } : LiveSession).Fair where
  told i r' hr' ht := by
    obtain ⟨r, hr, hstate, -⟩ := relay_setChannel hr'
    simp only [length_setChannel]
    exact hs.told i r hr (hstate ▸ ht)
  channel i r' hr' hev := by
    obtain ⟨r, hr, hstate, hchannel⟩ := relay_setChannel hr'
    simp only [length_setChannel, hstate]
    rcases hchannel with hchannel | ⟨rfl, hchannel⟩
    · exact hs.channel i r hr (hchannel ▸ hev)
    · rcases hc with rfl | hended
      · rw [hchannel] at hev
        cases hev
      · exact .inr (hended r hr)
  undecided h := by
    rcases hholder with rfl | rfl <;> simp at h
  decided _ r' hr' := by
    have hcurrent : LiveSession.current { s.setChannel c with childAlive, holder } = (s.setChannel c).current := rfl
    rw [hcurrent, current_setChannel] at hr'
    obtain ⟨r, hr, rfl⟩ := Option.map_eq_some_iff.1 hr'
    rcases hc with rfl | hended
    · exact .inl (if_pos (hs.undecided (.inr hundecided) r hr))
    · exact .inr (hended r hr)

/-- A change of hands before the channel is decided. -/
theorem Fair.hand (hs : s.Fair) (hmanager : s.holder = .manager) {holder : Holder}
    (hholder : holder = .killed ∨ holder = .removed) : ({ s with holder } : LiveSession).Fair :=
  { hs with
    undecided := fun _ => hs.undecided (.inl hmanager)
    decided := fun h => by rcases hholder with rfl | rfl <;> simp at h }

theorem Fair.connect (hmanager : s.holder = .manager) :
    ({ s with relays := (s.setChannel .evicted).relays ++ [{}] } : LiveSession).Fair := by
  have hlen : ((s.setChannel .evicted).relays ++ [({} : Relay)]).length = s.relays.length + 1 := by
    rw [List.length_append, length_setChannel, List.length_singleton]
  have hold (i : Nat) (r : Relay) (hr : ((s.setChannel .evicted).relays ++ [({} : Relay)])[i]? = some r) :
      i < s.relays.length ∨ r = {} := by
    rcases Nat.lt_or_ge i s.relays.length with hi | hi
    · exact .inl hi
    · rw [List.getElem?_append_right (by rw [length_setChannel]; exact hi)] at hr
      exact .inr (List.mem_singleton.1 (List.mem_of_getElem? hr))
  refine Fair.mk (fun i r hr ht => ?_) (fun i r hr hev => ?_) (fun _ r hr => ?_) fun h => ?_
  · rw [hlen]
    rcases hold i r hr with hi | rfl
    · omega
    · cases ht
  · rw [hlen]
    rcases hold i r hr with hi | rfl
    · exact .inl (by omega)
    · cases hev
  · unfold LiveSession.current at hr
    simp only [hlen, Nat.add_sub_cancel] at hr
    rcases hold _ r hr with hi | rfl
    · omega
    · rfl
  · simp [hmanager] at h

theorem Fair.step {a : LifeStep} (hs : s.Fair) (ha : s.DropsUnheard a) (h : s.step a = some s') : s'.Fair := by
  by_cases hinside : a.Inside
  · exact hs.moves (step_moves hinside h)
  cases a with
  | connect =>
    simp only [LiveSession.step] at h
    split at h
    next hm =>
      obtain rfl := Option.some.inj h
      exact Fair.connect hm
    next => cases h
  | kill =>
    simp only [LiveSession.step] at h
    split at h
    next hm =>
      obtain rfl := Option.some.inj h
      exact hs.hand hm (.inl rfl)
    next => cases h
  | sweep =>
    simp only [LiveSession.step] at h
    split at h
    next hm =>
      obtain rfl := Option.some.inj h
      exact hs.hand hm.1 (.inr rfl)
    next => cases h
  | drainAll =>
    simp only [LiveSession.step] at h
    split at h
    next hm =>
      obtain rfl := Option.some.inj h
      exact hs.hand hm (.inr rfl)
    next => cases h
  | disconnect =>
    simp only [LiveSession.step] at h
    split at h
    next hk =>
      obtain rfl := Option.some.inj h
      exact hs.decide (.inl hk) (.inl rfl) s.childAlive (.inl rfl)
    next => cases h
  | drop contended =>
    simp only [LiveSession.step] at h
    split at h
    next hd =>
      obtain rfl := Option.some.inj h
      exact { hs with undecided := by simp, decided := fun _ => hs.decided (.inl hd) }
    next hr =>
      cases contended with
      | true =>
        obtain rfl := Option.some.inj h
        exact hs.decide (.inr hr) (.inl rfl) s.childAlive (.inr rfl)
      | false =>
        obtain rfl := Option.some.inj h
        exact hs.decide (.inr hr) (.inr (ha hr)) false (.inr rfl)
    next => cases h
  | _ => exact absurd trivial hinside

theorem fair_start : Fair {} := by
  refine Fair.mk ?_ ?_ ?_ ?_ <;> simp [LiveSession.current]

/-- As long as sessions that are brought down are dropped unheard, a client that
is told of its eviction has been followed by another one, and the current
client's relay finds its channel closed, or has ended otherwise. -/
theorem run_evicts {steps : List LifeStep} (hdrops : Along step DropsUnheard {} steps) (hrun : run {} steps = some s) :
    (∀ (i : Nat) (r : Relay), s.relays[i]? = some r → r.state = .ended .evicted → i + 1 < s.relays.length) ∧
      (s.holder = .dropped → ∀ r, s.current = some r →
        r.channel = .closed ∨ ∃ how, r.state = .ended how ∧ how ≠ .evicted) := by
  have hfair : s.Fair := hdrops.keeps (fun _ _ _ hs ha h => hs.step ha h) fair_start hrun
  refine ⟨hfair.told, fun hdropped r hr => (hfair.decided (.inr hdropped) r hr).imp_right fun ⟨how, hhow⟩ => ?_⟩
  refine ⟨how, hhow, ?_⟩
  intro hev
  have hlt := hfair.told _ r hr (hev ▸ hhow)
  omega

theorem run_evicts_sample : ∃ s, run {} [.connect, .spawn 0 none, .check 0, .select 0, .connect, .changed 0 none, .kill,
      .disconnect, .drop false] = some s ∧
    (∀ (i : Nat) (r : Relay), s.relays[i]? = some r → r.state = .ended .evicted → i + 1 < s.relays.length) ∧
      (s.holder = .dropped → ∀ r, s.current = some r →
        r.channel = .closed ∨ ∃ how, r.state = .ended how ∧ how ≠ .evicted) := by
  have hdrops : Along step DropsUnheard {} [.connect, .spawn 0 none, .check 0, .select 0, .connect, .changed 0 none, .kill,
      .disconnect, .drop false] := .cons trivial rfl <| .cons trivial rfl <| .cons trivial rfl <| .cons trivial rfl <| .cons trivial rfl <|
    .cons trivial rfl <| .cons trivial rfl <| .cons trivial rfl <| .cons (fun h => by cases h) rfl trivial
  exact ⟨_, rfl, run_evicts hdrops rfl⟩

/-- A client whose session the clean-up drops is told that another client
evicted it. -/
theorem sweep_evicts : ∃ s r, run {} [.connect, .spawn 0 none, .check 0, .select 0, .childExit, .sweep, .drop false,
    .changed 0 none] = some s ∧ s.relays = [r] ∧ r.state = .ended .evicted :=
  ⟨_, _, rfl, rfl, rfl⟩

/-! ## The last notification -/

/-- The current client's relay, if there is one, needs no notification. -/
def CurrentSure (s : LiveSession) : Prop := ∀ r, s.current = some r → r.state.Sure

/-- The reader is gone, and the current client's relay waits for a notification
that nobody will send. -/
def Lost (s : LiveSession) : Prop :=
  s.reader = .finished ∧ s.permit = false ∧ ∃ r, s.current = some r ∧ r.state = .waiting

/-- From the reader's last notification on, the relay of an evicted client is
not given one that the current client's relay needs: it is not woken by it,
takes no permit, and gets none passed on. -/
def Reaches (s : LiveSession) : LifeStep → Prop
  | .readerNotify (some i) => i + 1 = s.relays.length ∨ s.CurrentSure
  | .notified i => s.reader = .finished → (∃ c, s.relays[i]? = some ⟨c, .waiting⟩) →
    i + 1 = s.relays.length ∨ s.CurrentSure
  | .other i (some _) => s.reader = .finished → i + 1 ≠ s.relays.length
  | _ => True

/-- The last notification is there for the current client's relay. -/
def Told (s : LiveSession) : Prop := s.reader = .finished → s.permit = true ∨ s.CurrentSure

theorem Told.not_lost (h : s.Told) : ¬ s.Lost := by
  rintro ⟨hreader, hpermit, r, hr, hwaiting⟩
  rcases h hreader with hp | hsure
  · simp [hpermit] at hp
  · have := hsure r hr
    rw [hwaiting] at this
    exact this

theorem CurrentSure.setState {i : Nat} {state : RelayState} (hlast : i + 1 = s.relays.length → state.Sure)
    (hother : i + 1 ≠ s.relays.length → s.CurrentSure) : (s.setState i state).CurrentSure := by
  intro r hr
  unfold LiveSession.current at hr
  rw [length_setState, getElem?_setState] at hr
  split at hr
  next hi =>
    obtain ⟨r', hr', rfl⟩ := Option.map_eq_some_iff.1 hr
    have hlt := (List.getElem?_eq_some_iff.1 hr').1
    exact hlast (by omega)
  next hi => exact hother (by omega) r hr

theorem notify_some {i : Nat} (h : s.notify (some i) = some s') : s' = s.setState i .woken := by
  simp only [notify] at h
  split at h
  · exact (Option.some.inj h).symm
  · cases h

theorem notify_none (h : s.notify none = some s') : s' = { s with permit := true } := by
  simp only [notify] at h
  split at h
  · exact (Option.some.inj h).symm
  · cases h

/-- A notification hurts nobody. -/
theorem Told.notify {t : Option Nat} (h : s.notify t = some s') (hs : s.Told) : s'.Told := by
  cases t with
  | none =>
    obtain rfl := notify_none h
    exact fun _ => .inl rfl
  | some i =>
    obtain rfl := notify_some h
    exact fun hreader => (hs hreader).imp_right fun hsure => .setState (fun _ => trivial) fun _ => hsure

theorem Told.setState {i : Nat} {state : RelayState} (hs : s.Told) (hstate : state.Sure) : (s.setState i state).Told :=
  fun hreader => (hs hreader).imp_right fun hsure => .setState (fun _ => hstate) fun _ => hsure

theorem Told.leave {i : Nat} {state : RelayState} {t : Option Nat} (hs : s.Told) (hstate : state.Sure)
    (h : s.leave i state t = some s') : s'.Told := by
  unfold LiveSession.leave at h
  split at h
  · split at h
    · obtain rfl := Option.some.inj h
      exact hs.setState hstate
    · cases h
  · exact (hs.setState hstate).notify h
  · cases h

/-- The throttle and the refresh. -/
theorem Told.other {i : Nat} {t : Option Nat} (hs : s.Told) (ha : s.Reaches (.other i t))
    (h : s.leave i .busy t = some s') : s'.Told := by
  have hbusy (hpermit : s.permit = true ∨ i + 1 ≠ s.relays.length) : (s.setState i .busy).Told := fun hreader =>
    hpermit.elim .inl fun hi => (hs hreader).imp_right fun hsure => .setState (fun hlast => absurd hlast hi) fun _ => hsure
  unfold LiveSession.leave at h
  split at h
  next c hr =>
    split at h
    · obtain rfl := Option.some.inj h
      intro hreader
      rcases hs hreader with hpermit | hsure
      · exact .inl hpermit
      · -- a relay that waits is not the current client's
        refine hbusy (.inr fun hi => ?_) hreader
        have hcurrent : s.current = some ⟨c, .waiting⟩ := by
          unfold LiveSession.current
          rw [← hi, Nat.add_sub_cancel, hr]
        exact hsure _ hcurrent
    · cases h
  next c hr =>
    cases t with
    | none =>
      obtain rfl := notify_none h
      exact fun _ => .inl rfl
    | some j =>
      obtain rfl := notify_some h
      intro hreader
      have hi := ha hreader
      exact (hs hreader).imp_right fun hsure => .setState (fun _ => trivial) fun _ =>
        .setState (fun hlast => absurd hlast hi) fun _ => hsure
  next => cases h

/-- The relay looks at the flag of a reader that is gone. -/
theorem Told.wake {i : Nat} (hs : s.Told) : (s.wake i).Told := by
  intro hreader
  have hstate : RelayState.Sure (if s.readerAlive then .busy else .ended .sessionEnded) := by
    have hgone : s.reader = .finished := hreader
    simp [LiveSession.readerAlive, hgone, RelayState.Sure]
  exact hs.setState hstate hreader

theorem Told.setChannel (hs : s.Told) (c : Channel) : (s.setChannel c).Told := by
  refine fun hreader => (hs hreader).imp_right fun hsure r' hr' => ?_
  rw [current_setChannel] at hr'
  obtain ⟨r, hr, rfl⟩ := Option.map_eq_some_iff.1 hr'
  exact hsure r hr

/-- The relay of a new client has not begun. -/
theorem told_connect (s : LiveSession) : ({ s with relays := (s.setChannel .evicted).relays ++ [{}] } : LiveSession).Told := by
  refine fun _ => .inr fun r hr => ?_
  unfold LiveSession.current at hr
  simp only [List.length_append, List.length_singleton, Nat.add_sub_cancel, List.getElem?_concat_length,
    Option.some.injEq] at hr
  subst hr
  trivial

/-- The last notification is stored, or wakes the relay that needs it. -/
theorem told_readerNotify {t : Option Nat} (ha : s.Reaches (.readerNotify t))
    (h : ({ s with reader := .finished } : LiveSession).notify t = some s') : s'.Told := by
  cases t with
  | none =>
    obtain rfl := notify_none h
    exact fun _ => .inl rfl
  | some i =>
    obtain rfl := notify_some h
    refine fun _ => .inr ?_
    rcases ha with hi | hsure
    · exact .setState (fun _ => trivial) fun hne => absurd hi hne
    · exact .setState (fun _ => trivial) fun _ => hsure

/-- The current client's relay is in the body of a branch only before the last
notification. -/
theorem Told.select {i : Nat} {c : Channel} (hs : s.Told) (hr : s.relays[i]? = some ⟨c, .busy⟩) : (s.setState i .waiting).Told := by
  refine fun hreader => (hs hreader).imp_right fun hsure => .setState (fun hi => ?_) fun _ => hsure
  have hcurrent : s.current = some ⟨c, .busy⟩ := by
    unfold LiveSession.current
    rw [← hi, Nat.add_sub_cancel, hr]
  exact absurd (hsure _ hcurrent) id

/-- A relay takes the permit. -/
theorem told_permit {i : Nat} {c : Channel} (ha : s.Reaches (.notified i)) (hr : s.relays[i]? = some ⟨c, .waiting⟩) :
    ({ s.wake i with permit := false } : LiveSession).Told := by
  intro hreader
  have hgone : s.reader = .finished := hreader
  have hstate : RelayState.Sure (if s.readerAlive then .busy else .ended .sessionEnded) := by
    simp [LiveSession.readerAlive, hgone, RelayState.Sure]
  refine .inr ?_
  rcases ha hgone ⟨c, hr⟩ with hi | hsure
  · exact CurrentSure.setState (s := s) (fun _ => hstate) fun hne => absurd hi hne
  · exact CurrentSure.setState (s := s) (fun _ => hstate) fun _ => hsure

theorem Told.step {a : LifeStep} (hs : s.Told) (ha : s.Reaches a) (h : s.step a = some s') : s'.Told := by
  cases a with
  | connect =>
    simp only [LiveSession.step] at h
    split at h
    · obtain rfl := Option.some.inj h
      exact told_connect s
    · cases h
  | kill | sweep | drainAll =>
    simp only [LiveSession.step] at h
    split at h
    · obtain rfl := Option.some.inj h
      exact hs
    · cases h
  | disconnect =>
    simp only [LiveSession.step] at h
    split at h
    · obtain rfl := Option.some.inj h
      exact hs.setChannel .closed
    · cases h
  | drop contended =>
    simp only [LiveSession.step] at h
    split at h
    · obtain rfl := Option.some.inj h
      exact hs
    · split at h
      · obtain rfl := Option.some.inj h
        exact hs.setChannel .closed
      · obtain rfl := Option.some.inj h
        exact hs.setChannel .evicted
    · cases h
  | childExit =>
    obtain rfl := Option.some.inj h
    exact hs
  | data t =>
    simp only [LiveSession.step] at h
    split at h
    · exact hs.notify h
    · cases h
  | readerStore =>
    simp only [LiveSession.step] at h
    split at h
    · obtain rfl := Option.some.inj h
      exact fun hreader => by cases hreader
    · cases h
  | readerNotify t =>
    simp only [LiveSession.step] at h
    split at h
    · exact told_readerNotify ha h
    · cases h
  | spawn i t =>
    simp only [LiveSession.step] at h
    split at h
    · exact (hs.setState (by trivial)).notify h
    · cases h
  | check i =>
    simp only [LiveSession.step] at h
    split at h
    · obtain rfl := Option.some.inj h
      exact hs.wake
    · cases h
  | select i =>
    simp only [LiveSession.step] at h
    split at h
    next c hr =>
      obtain rfl := Option.some.inj h
      exact hs.select hr
    next => cases h
  | notified i =>
    simp only [LiveSession.step] at h
    split at h
    · obtain rfl := Option.some.inj h
      exact hs.wake
    next c hr =>
      split at h
      · obtain rfl := Option.some.inj h
        exact told_permit ha hr
      · cases h
    next => cases h
  | other i t => exact hs.other ha h
  | changed i t =>
    simp only [LiveSession.step] at h
    split at h
    · exact hs.leave (by trivial) h
    · exact hs.leave (by trivial) h
    · cases h
  | fail i t =>
    simp only [LiveSession.step] at h
    split at h
    · exact hs.leave (by trivial) h
    · exact hs.leave (by trivial) h
    · cases h
    · obtain rfl := Option.some.inj h
      exact hs.setState (by trivial)
    · cases h

/-- As long as no evicted client's relay is given what the current client's
relay needs, the current client is told of the end. -/
theorem run_reaches {steps : List LifeStep} (hreaches : Along step Reaches {} steps) (hrun : run {} steps = some s) :
    ¬ s.Lost := by
  have hstart : Told {} := fun h => by cases h
  have htold : s.Told := hreaches.keeps (fun _ _ _ hs ha h => hs.step ha h) hstart hrun
  exact htold.not_lost

theorem run_reaches_sample : ∃ s, run {} [.connect, .spawn 0 none, .check 0, .select 0, .notified 0, .select 0,
    .readerStore, .readerNotify (some 0), .notified 0] = some s ∧ ¬ s.Lost := by
  have hreaches : Along step Reaches {} [.connect, .spawn 0 none, .check 0, .select 0, .notified 0, .select 0,
      .readerStore, .readerNotify (some 0), .notified 0] := .cons trivial rfl <| .cons trivial rfl <| .cons trivial rfl <| .cons trivial rfl <|
    .cons (fun h => by cases h) rfl <| .cons trivial rfl <| .cons trivial rfl <| .cons (.inl rfl) rfl <|
    .cons (fun _ _ => .inl rfl) rfl trivial
  exact ⟨_, rfl, run_reaches hreaches rfl⟩

/-- The relay of an evicted client comes back to `select!` and takes the reader's
last notification, before the current client's relay does. -/
theorem evicted_wakes : ∃ s, run {} [.connect, .spawn 0 none, .check 0, .connect, .spawn 1 none, .check 1, .select 1,
    .notified 1, .readerStore, .readerNotify none, .select 0, .notified 0, .select 1] = some s ∧ s.Lost :=
  ⟨_, rfl, rfl, rfl, _, rfl, rfl⟩

end LiveSession

end Retach
