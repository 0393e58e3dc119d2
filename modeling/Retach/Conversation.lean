import Retach.InputFilter
import Retach.Reading
/-!
# A client and its server (`client/mod.rs`, `server/client_handler.rs`, `server/session_bridge.rs`)

Client and server read from each other whatever has arrived, while the tasks of
both go on sending: the client's stdin relay and its SIGWINCH handler, and the
server's relay of the screen. A read takes any part of what is on the way.

The client sends nothing after Connect until it has read the server's answer.
Setting up the session and what its relay sends are left open.
-/

open Binary

namespace Retach

open Protocol

/-! ## Receiving -/

section Receiving

variable {M : Type} [Codec M]

/-- What is left over and what is on the way are the encodings of `ms`. -/
structure Receives (r : FrameReader) (wire : List UInt8) (ms : List M) : Prop where
  encodable : ∀ m ∈ ms, Encodable m
  bytes : r.intoLeftover ++ wire = stream ms

variable {r : FrameReader} {wire : List UInt8} {ms : List M}

theorem Receives.nil : Receives (M := M) {} [] [] := ⟨by simp, rfl⟩

theorem Receives.send (h : Receives r wire ms) {m : M} (hm : Encodable m) : Receives r (wire ++ encoding m) (ms ++ [m]) where
  encodable := by
    intro m' hm'
    rcases List.mem_append.1 hm' with hm' | hm'
    · exact h.encodable m' hm'
    · rwa [List.mem_singleton.1 hm']
  bytes := by
    rw [← List.append_assoc, h.bytes]
    simp [stream]

/-- A call of `decode_next` finds the first message, or too little of it. -/
theorem Receives.decode (h : Receives r wire ms) :
    (r.decodeNext M = .ok (none, r) ∧ nextMessage M r.intoLeftover = .ok none) ∨
      ∃ m rest r', ms = m :: rest ∧ r.decodeNext M = .ok (some m, r') ∧ Receives r' wire rest := by
  rw [FrameReader.decodeNext_eq]
  by_cases hnone : nextMessage M r.intoLeftover = .ok none
  · exact .inl ⟨by rw [hnone], hnone⟩
  have hall := nextMessage_append wire hnone
  rw [h.bytes] at hall
  cases ms with
  | nil => exact absurd (hall.symm.trans (nextMessage_nil M)) hnone
  | cons m rest =>
    rw [stream, List.flatMap_cons, nextMessage_encoding (h.encodable m (List.mem_cons_self ..))] at hall
    obtain ⟨-, -, hbs⟩ := of_nextMessage hall.symm
    refine .inr ⟨m, rest, { r with offset := r.offset + (encoding m).length }, rfl, by rw [← hall], ?_, ?_⟩
    · exact fun m' hm' => h.encodable m' (List.mem_cons_of_mem _ hm')
    · have hbytes := h.bytes
      rw [hbs, stream, List.flatMap_cons, List.append_assoc] at hbytes
      rw [show FrameReader.intoLeftover { r with offset := r.offset + (encoding m).length } =
        r.intoLeftover.drop (encoding m).length by rw [FrameReader.intoLeftover, FrameReader.intoLeftover, List.drop_drop]]
      exact List.append_cancel_left hbytes

/-- A read of some of what is on the way. -/
theorem Receives.fill (h : Receives r wire ms) (hwants : nextMessage M r.intoLeftover = .ok none) {n : Nat} (hpos : 0 < n)
    (hn : n ≤ wire.length) (hbuf : n ≤ readBufSize) :
    ∃ r', r.fillFrom (wire.take n) = .ok (true, r') ∧ Receives r' (wire.drop n) ms := by
  have htake : (wire.take n).length = n := by rw [List.length_take]; omega
  have hshort := length_of_none hwants
  refine ⟨_, FrameReader.fillFrom_eq (fun hnil => ?_) ?_, h.encodable, ?_⟩
  · rw [hnil, List.length_nil] at htake
    omega
  · unfold readBufSize at hbuf
    unfold maxFrameSize at *
    omega
  · rw [← h.bytes, FrameReader.intoLeftover, List.drop_zero, List.append_assoc, List.take_append_drop]

/-- Nothing is on the way, and no message is left over. -/
theorem Receives.done (h : Receives r wire ms) (hwants : nextMessage M r.intoLeftover = .ok none) (hwire : wire = []) : ms = [] := by
  have hbytes := h.bytes
  rw [hwire, List.append_nil] at hbytes
  cases ms with
  | nil => rfl
  | cons m rest =>
    rw [hbytes, stream, List.flatMap_cons, nextMessage_encoding (h.encodable m (List.mem_cons_self ..))] at hwants
    cases hwants

end Receiving

/-! ## The two parties -/

inductive ClientPhase where
  | /-- `connect`, until the answer is there -/ awaiting
  | /-- both relays run -/ relaying
  | refused (message : String)
  | finished
  | failed (e : ProtocolError)
deriving DecidableEq, Repr

inductive ServerPhase where
  | /-- the loop of `handle_client` -/ opening
  | /-- `setup_session` -/ settingUp (leftover : List UInt8)
  | /-- both relays run -/ serving
  | closed
  | failed (e : ProtocolError)
deriving DecidableEq, Repr

structure Conversation where
  client : ClientPhase := .awaiting
  clientReader : FrameReader := {}
  clientDraining : Bool := false
  filter : InputFilter := {}
  /-- The stdin relay runs. -/
  typing : Bool := false
  /-- What is left to do of the last read from stdin. -/
  actions : List FilterAction := []
  server : ServerPhase := .opening
  serverReader : FrameReader := {}
  serverDraining : Bool := false
  toServer : List UInt8
  toClient : List UInt8 := []
  -- not in the source: the reads from stdin, what was sent after Connect and dispatched, the
  -- server's answer, what it sent after that and what the client made of it
  reads : List (List UInt8) := []
  sent : List ClientMsg := []
  dispatched : List ClientMsg := []
  answer : Option ServerMsg := none
  replied : List ServerMsg := []
  shown : List ServerMsg := []

/-- `n` is how much a read returns. -/
inductive ConversationStep where
  | serverRead (n : Nat)
  | serverDecode
  | accept (name : String) (newSession : Bool)
  | refuse (message : String)
  | /-- `send_initial_state`, `screen_to_client` -/ reply (msg : ServerMsg)
  | /-- the connection's task ends -/ serverLeave
  | clientRead (n : Nat)
  | clientDecode
  | /-- a read from stdin -/ key (input : List UInt8)
  | /-- the next action for it -/ forward
  | endOfInput
  | /-- SIGWINCH -/ winch (cols rows : UInt16)
  | /-- SIGINT, SIGTERM -/ signal
  | clientLeave
deriving DecidableEq, Repr

/-- The message for an action. -/
def FilterAction.msg : FilterAction → ClientMsg
  | .forward data => .input data
  | .detach => .detach
  | .focusIn => .refreshScreen

def stdinBufSize : Nat := 1024

namespace Conversation

def write (c : Conversation) (msg : ClientMsg) : Conversation :=
  match encode msg with
  | .ok bytes => { c with toServer := c.toServer ++ bytes, sent := c.sent ++ [msg] }
  | .error _ => { c with client := .finished }

/-- What the server sends; a message that cannot be encoded ends the relay, as
does one after which it has nothing more to say. -/
def reply (c : Conversation) (msg : ServerMsg) : Conversation :=
  match encode msg with
  | .ok bytes =>
    { c with
      toClient := c.toClient ++ bytes
      replied := c.replied ++ [msg]
      server := if msg.isDone then .closed else c.server }
  | .error _ => { c with server := .closed }

/-- The first message to the client; `next` is how the connection goes on. -/
def greet (c : Conversation) (msg : ServerMsg) (next : ServerPhase) : Conversation :=
  match encode msg with
  | .ok bytes => { c with toClient := c.toClient ++ bytes, answer := some msg, server := next }
  | .error _ => { c with server := .closed }

/-- Setting up a session, an answer, or nothing. -/
def opened (c : Conversation) : Handled → Conversation
  | .session req _ => { c with server := .settingUp req.leftover }
  | .refused message => c.greet (.error message) .closed
  | _ => { c with server := .closed }

/-- What `connect` makes of the first message. -/
def answered (c : Conversation) : ServerMsg → Conversation
  | .connected _ _ => { c with client := .relaying, clientDraining := true, typing := true }
  | .error message => { c with client := .refused message }
  | _ => { c with client := .finished }

def step (c : Conversation) : ConversationStep → Option Conversation
  | .serverRead n =>
    if (c.server = .opening ∨ c.server = .serving) ∧ c.serverDraining = false ∧ 0 < n ∧ n ≤ c.toServer.length ∧ n ≤ readBufSize then
      match c.serverReader.fillFrom (c.toServer.take n) with
      | .error e => some { c with server := .failed e, toServer := c.toServer.drop n }
      | .ok (_, r) => some { c with serverReader := r, serverDraining := true, toServer := c.toServer.drop n }
    else none
  | .serverDecode =>
    if c.serverDraining = false then none
    else
      match c.server, c.serverReader.decodeNext ClientMsg with
      | .opening, .ok (some msg, r) => some ({ c with serverReader := r, serverDraining := false }.opened (handleMessage r [] msg))
      | .serving, .ok (some msg, r) =>
        some { c with
          serverReader := r
          dispatched := c.dispatched ++ [msg]
          server := if msg.isDetach then .closed else .serving }
      | .opening, .ok (none, r) | .serving, .ok (none, r) => some { c with serverReader := r, serverDraining := false }
      | .opening, .error e | .serving, .error e => some { c with server := .failed e }
      | _, _ => none
  | .accept name newSession =>
    match c.server with
    | .settingUp leftover => some ({ c with serverReader := .withLeftover leftover, serverDraining := false }.greet (.connected name newSession) .serving)
    | _ => none
  | .refuse message =>
    match c.server with
    | .settingUp _ => some (c.greet (.error message) .closed)
    | _ => none
  | .reply msg => if c.server = .serving then some (c.reply msg) else none
  | .serverLeave =>
    match c.server with
    | .failed _ => none
    | _ => some { c with server := .closed }
  | .clientRead n =>
    if (c.client = .awaiting ∨ c.client = .relaying) ∧ c.clientDraining = false ∧ 0 < n ∧ n ≤ c.toClient.length ∧ n ≤ readBufSize then
      match c.clientReader.fillFrom (c.toClient.take n) with
      | .error e => some { c with client := .failed e, toClient := c.toClient.drop n }
      | .ok (_, r) => some { c with clientReader := r, clientDraining := true, toClient := c.toClient.drop n }
    else none
  | .clientDecode =>
    if c.clientDraining = false then none
    else
      match c.client, c.clientReader.decodeNext ServerMsg with
      | .awaiting, .ok (some msg, r) => some ({ c with clientReader := r, clientDraining := false }.answered msg)
      | .relaying, .ok (some msg, r) =>
        some { c with
          clientReader := r
          shown := c.shown ++ [msg]
          client := if msg.isDone then .finished else .relaying }
      | .awaiting, .ok (none, r) | .relaying, .ok (none, r) => some { c with clientReader := r, clientDraining := false }
      | .awaiting, .error e | .relaying, .error e => some { c with client := .failed e }
      | _, _ => none
  | .key input =>
    if c.client = .relaying ∧ c.typing = true ∧ c.actions = [] ∧ input ≠ [] ∧ input.length ≤ stdinBufSize then
      some { c with actions := (c.filter.process input).1, filter := (c.filter.process input).2, reads := c.reads ++ [input] }
    else none
  | .forward =>
    match c.client, c.actions with
    | .relaying, .detach :: _ => some ({ c with actions := [], typing := false }.write .detach)
    | .relaying, a :: actions => some ({ c with actions }.write a.msg)
    | _, _ => none
  | .endOfInput =>
    if c.client = .relaying ∧ c.typing = true ∧ c.actions = [] then
      match c.filter.flush with
      | (some a, filter) => some ({ c with filter, typing := false }.write a.msg)
      | (none, filter) => some { c with filter, typing := false }
    else none
  | .winch cols rows => if c.client = .relaying then some ((c.write (.resize cols rows)).write .refreshScreen) else none
  | .signal => if c.client = .relaying then some { c.write .detach with client := .finished } else none
  | .clientLeave =>
    match c.client with
    | .awaiting | .relaying => some { c with client := .finished }
    | _ => none

def run (c : Conversation) (steps : List ConversationStep) : Option Conversation := steps.foldlM step c

/-- `connect` has sent its message. -/
def start (connect : ClientMsg) : Conversation := { toServer := encoding connect }

/-! ## Messages on their way -/

variable {connect : ClientMsg} {c c' : Conversation}

/-- Neither party has got beyond the answer. -/
def Unanswered (c : Conversation) : Prop := c.sent = [] ∧ c.dispatched = [] ∧ c.replied = [] ∧ c.client ≠ .relaying

/-- What was sent is dispatched, or on its way to be; likewise what was replied. -/
structure Inv (connect : ClientMsg) (c : Conversation) : Prop where
  opening : c.server = .opening → Receives c.serverReader c.toServer [connect] ∧
    (c.serverDraining = false → nextMessage ClientMsg c.serverReader.intoLeftover = .ok none)
  settingUp : ∀ leftover, c.server = .settingUp leftover → leftover = [] ∧ c.toServer = []
  before : c.server = .opening ∨ (∃ leftover, c.server = .settingUp leftover) → c.answer = none
  unanswered : c.answer = none → c.Unanswered
  serving : c.server = .serving → ∃ rest, Receives c.serverReader c.toServer rest ∧ c.sent = c.dispatched ++ rest ∧
    (c.serverDraining = false → nextMessage ClientMsg c.serverReader.intoLeftover = .ok none)
  answered : c.server = .serving → c.answer ≠ none
  dispatched : c.dispatched <+: c.sent
  serverOk : ∀ e, c.server ≠ .failed e
  awaiting : c.client = .awaiting → Receives c.clientReader c.toClient (c.answer.toList ++ c.replied) ∧ c.shown = [] ∧
    (c.clientDraining = false → nextMessage ServerMsg c.clientReader.intoLeftover = .ok none)
  relaying : c.client = .relaying → ∃ rest, Receives c.clientReader c.toClient rest ∧ c.replied = c.shown ++ rest ∧
    (c.clientDraining = false → nextMessage ServerMsg c.clientReader.intoLeftover = .ok none)
  shown : c.shown <+: c.replied
  clientOk : ∀ e, c.client ≠ .failed e

theorem start_inv (hconnect : Encodable connect) : (start connect).Inv connect where
  opening _ := ⟨⟨by simpa using hconnect, by simp [start, stream, FrameReader.intoLeftover]⟩, fun _ => rfl⟩
  settingUp leftover h := by cases h
  before _ := rfl
  unanswered _ := ⟨rfl, rfl, rfl, by simp [start]⟩
  serving h := by cases h
  answered h := by cases h
  dispatched := List.prefix_rfl
  serverOk e h := by cases h
  awaiting _ := ⟨.nil, rfl, fun _ => rfl⟩
  relaying h := by cases h
  shown := List.prefix_rfl
  clientOk e h := by cases h

theorem write_answer (c : Conversation) (msg : ClientMsg) : (c.write msg).answer = c.answer := by
  unfold Conversation.write
  cases encode msg <;> rfl

/-- The client sends a message. -/
theorem Inv.write (h : c.Inv connect) (hanswer : c.answer ≠ none) (msg : ClientMsg) : (c.write msg).Inv connect := by
  unfold Conversation.write
  cases henc : encode msg with
  | error e => exact { h with
      unanswered := fun ha => absurd ha hanswer
      awaiting := by simp, relaying := by simp, clientOk := by simp }
  | ok bytes =>
    have hmsg : Encodable msg := ⟨bytes, henc⟩
    have hbytes : encoding msg = bytes := by rw [encoding, henc]
    exact { h with
      opening := fun hs => absurd (h.before (.inl hs)) hanswer
      settingUp := fun leftover hs => absurd (h.before (.inr ⟨leftover, hs⟩)) hanswer
      unanswered := fun ha => absurd ha hanswer
      serving := by
        intro hs
        obtain ⟨rest, hrest, hsent, hwants⟩ := h.serving hs
        refine ⟨rest ++ [msg], hbytes ▸ hrest.send hmsg, ?_, hwants⟩
        rw [← List.append_assoc, ← hsent]
      dispatched := h.dispatched.trans (List.prefix_append _ _) }

/-- The connection ends. -/
theorem Inv.close (h : c.Inv connect) (r : FrameReader) (draining : Bool) :
    Inv connect { c with server := .closed, serverReader := r, serverDraining := draining } :=
  { h with
    opening := by simp, settingUp := by simp, before := by simp, serving := by simp, answered := by simp, serverOk := by simp }

/-- The server serves, or closes after having served. -/
theorem Inv.serve (h : c.Inv connect) (hanswer : c.answer ≠ none) {phase : ServerPhase} (hphase : phase = .closed ∨ phase = .serving)
    {r : FrameReader} {draining : Bool} {dispatched rest : List ClientMsg} (hrest : Receives r c.toServer rest)
    (hsent : c.sent = dispatched ++ rest) (hwants : draining = false → nextMessage ClientMsg r.intoLeftover = .ok none) :
    Inv connect { c with server := phase, serverReader := r, serverDraining := draining, dispatched } := by
  have hother : phase ≠ .opening ∧ (∀ leftover, phase ≠ .settingUp leftover) ∧ ∀ e, phase ≠ .failed e := by
    rcases hphase with rfl | rfl <;> simp
  exact { h with
    opening := fun hs => absurd hs hother.1
    settingUp := fun leftover hs => absurd hs (hother.2.1 leftover)
    before := by
      rintro (hs | ⟨leftover, hs⟩)
      · exact absurd hs hother.1
      · exact absurd hs (hother.2.1 leftover)
    unanswered := fun ha => absurd ha hanswer
    serving := fun _ => ⟨rest, hrest, hsent, hwants⟩
    answered := fun _ => hanswer
    dispatched := ⟨rest, hsent.symm⟩
    serverOk := hother.2.2 }

/-- The server sends a message. -/
theorem Inv.reply (h : c.Inv connect) (hs : c.server = .serving) (msg : ServerMsg) : (c.reply msg).Inv connect := by
  have hanswer := h.answered hs
  unfold Conversation.reply
  cases henc : encode msg with
  | error e => exact h.close c.serverReader c.serverDraining
  | ok bytes =>
    have hmsg : Encodable msg := ⟨bytes, henc⟩
    have hbytes : encoding msg = bytes := by rw [encoding, henc]
    obtain ⟨rest, hrest, hsent, hwants⟩ := h.serving hs
    have hserve : Inv connect { c with server := if msg.isDone then .closed else c.server } :=
      h.serve hanswer (by rw [hs]; split <;> simp) hrest hsent hwants
    exact { hserve with
      unanswered := fun ha => absurd ha hanswer
      awaiting := by
        intro hc
        obtain ⟨hall, hshown, hwants⟩ := h.awaiting hc
        exact ⟨by simpa [hbytes] using hall.send hmsg, hshown, hwants⟩
      relaying := by
        intro hc
        obtain ⟨rest, hrest, hreplied, hwants⟩ := h.relaying hc
        exact ⟨rest ++ [msg], hbytes ▸ hrest.send hmsg, by rw [hreplied, List.append_assoc], hwants⟩
      shown := h.shown.trans (List.prefix_append _ _) }

/-- The server sends its answer, and serves or closes. -/
theorem Inv.greet (h : c.Inv connect) (hnone : c.answer = none) (msg : ServerMsg) {next : ServerPhase}
    (hnext : next = .closed ∨ next = .serving ∧ Receives c.serverReader c.toServer ([] : List ClientMsg) ∧
      nextMessage ClientMsg c.serverReader.intoLeftover = .ok none) : (c.greet msg next).Inv connect := by
  obtain ⟨hsent, hdispatched, hreplied, hclient⟩ := h.unanswered hnone
  unfold Conversation.greet
  cases henc : encode msg with
  | error e => exact h.close c.serverReader c.serverDraining
  | ok bytes =>
    have hmsg : Encodable msg := ⟨bytes, henc⟩
    have hbytes : encoding msg = bytes := by rw [encoding, henc]
    have hphase : next ≠ .opening ∧ (∀ leftover, next ≠ .settingUp leftover) ∧ ∀ e, next ≠ .failed e := by
      rcases hnext with rfl | ⟨rfl, -⟩ <;> simp
    exact { h with
      opening := fun hs => absurd hs hphase.1
      settingUp := fun leftover hs => absurd hs (hphase.2.1 leftover)
      before := by
        rintro (hs | ⟨leftover, hs⟩)
        · exact absurd hs hphase.1
        · exact absurd hs (hphase.2.1 leftover)
      unanswered := fun ha => by cases ha
      serving := by
        rintro rfl
        obtain hclosed | ⟨-, hrest, hwants⟩ := hnext
        · cases hclosed
        · exact ⟨[], hrest, by rw [hsent, hdispatched, List.append_nil], fun _ => hwants⟩
      answered := fun _ ha => by cases ha
      serverOk := hphase.2.2
      awaiting := by
        intro hc
        obtain ⟨hall, hshown, hwants⟩ := h.awaiting hc
        rw [hnone, hreplied] at hall
        exact ⟨by simpa [hreplied, hbytes] using hall.send hmsg, hshown, hwants⟩
      relaying := fun hc => absurd hc hclient }

theorem greet_closed (c : Conversation) (msg : ServerMsg) : c.greet msg .closed = { c with server := .closed }.greet msg .closed := by
  unfold Conversation.greet
  cases encode msg <;> rfl

/-- A read by the server. -/
theorem Inv.serverRead (h : c.Inv connect) {n : Nat} (hstep : c.step (.serverRead n) = some c') : c'.Inv connect := by
  simp only [step] at hstep
  split at hstep
  next hguard =>
    obtain ⟨hphase, hdraining, hpos, hn, hbuf⟩ := hguard
    rcases hphase with hs | hs
    · obtain ⟨hrest, hwants⟩ := h.opening hs
      obtain ⟨r', hfill, hrest'⟩ := hrest.fill (hwants hdraining) hpos hn hbuf
      rw [hfill] at hstep
      obtain rfl := Option.some.inj hstep
      exact { h with
        opening := fun _ => ⟨hrest', by simp⟩
        settingUp := fun leftover hs' => by simp [hs] at hs'
        serving := fun hs' => by simp [hs] at hs' }
    · obtain ⟨rest, hrest, hsent, hwants⟩ := h.serving hs
      obtain ⟨r', hfill, hrest'⟩ := hrest.fill (hwants hdraining) hpos hn hbuf
      rw [hfill] at hstep
      obtain rfl := Option.some.inj hstep
      exact { h with
        opening := fun hs' => by simp [hs] at hs'
        settingUp := fun leftover hs' => by simp [hs] at hs'
        serving := fun _ => ⟨rest, hrest', hsent, by simp⟩ }
  next => cases hstep

theorem handleMessage_leftover {r : FrameReader} {reads reads' : List (List UInt8)} {msg : ClientMsg} {req : ConnectRequest}
    (h : handleMessage r reads msg = .session req reads') : req.leftover = r.intoLeftover := by
  cases hopens : msg.opensSession with
  | false => exact absurd h (handleMessage_other hopens r reads req reads')
  | true =>
    obtain ⟨req', hsession, hleft⟩ := handleMessage_opens hopens r reads
    obtain ⟨rfl, -⟩ := Handled.session.inj (h.symm.trans hsession)
    exact hleft

/-- The first message has been read, and nothing follows it. -/
theorem Inv.opened (h : c.Inv connect) (hs : c.server = .opening) (hwire : c.toServer = []) (r : FrameReader) {handled : Handled}
    (hleft : ∀ req reads, handled = .session req reads → req.leftover = []) :
    ({ c with serverReader := r, serverDraining := false }.opened handled).Inv connect := by
  have hnone := h.before (.inl hs)
  have hclosed := h.close r false
  cases handled with
  | session req reads =>
    obtain hempty : req.leftover = [] := hleft req reads rfl
    exact { hclosed with
      opening := by simp [Conversation.opened]
      settingUp := fun leftover hs' => by
        obtain rfl : req.leftover = leftover := by simpa [Conversation.opened] using hs'
        exact ⟨hempty, hwire⟩
      before := fun _ => hnone
      serving := by simp [Conversation.opened]
      answered := by simp [Conversation.opened]
      serverOk := by simp [Conversation.opened] }
  | refused message =>
    change (Conversation.greet _ (.error message) .closed).Inv connect
    rw [greet_closed]
    exact hclosed.greet hnone _ (.inl rfl)
  | closed | list | kill name => exact hclosed

/-- A call of `decode_next` by the server. -/
theorem Inv.serverDecode (h : c.Inv connect) (hstep : c.step .serverDecode = some c') : c'.Inv connect := by
  simp only [step] at hstep
  split at hstep
  · cases hstep
  next hdraining =>
    split at hstep
    next msg r hs hnext =>
      obtain rfl := Option.some.inj hstep
      obtain ⟨hrest, -⟩ := h.opening hs
      rcases hrest.decode with ⟨hnext', -⟩ | ⟨m, rest, r', hone, hnext', hrest'⟩
      · cases hnext.symm.trans hnext'
      · obtain ⟨-, rfl⟩ : connect = m ∧ rest = [] := by simpa using hone
        obtain ⟨rfl, rfl⟩ : msg = m ∧ r = r' := by simpa using hnext.symm.trans hnext'
        obtain ⟨hleft, hwire⟩ := List.append_eq_nil_iff.1 hrest'.bytes
        exact h.opened hs hwire r fun req reads hsession => (handleMessage_leftover hsession).trans hleft
    next msg r hs hnext =>
      obtain rfl := Option.some.inj hstep
      obtain ⟨rest, hrest, hsent, -⟩ := h.serving hs
      rcases hrest.decode with ⟨hnext', -⟩ | ⟨m, rest', r', rfl, hnext', hrest'⟩
      · cases hnext.symm.trans hnext'
      · obtain ⟨rfl, rfl⟩ : msg = m ∧ r = r' := by simpa using hnext.symm.trans hnext'
        exact h.serve (h.answered hs) (by split <;> simp) hrest' (by rw [hsent, List.append_assoc, List.singleton_append])
          (by simp [hdraining])
    next r hs hnext =>
      obtain rfl := Option.some.inj hstep
      obtain ⟨hrest, -⟩ := h.opening hs
      rcases hrest.decode with ⟨hnext', hwants⟩ | ⟨m, rest, r', -, hnext', -⟩
      · obtain rfl : r = c.serverReader := by simpa using hnext.symm.trans hnext'
        exact { h with
          opening := fun _ => ⟨hrest, fun _ => hwants⟩
          serving := fun hs' => by simp [hs] at hs' }
      · cases hnext.symm.trans hnext'
    next r hs hnext =>
      obtain rfl := Option.some.inj hstep
      obtain ⟨rest, hrest, hsent, -⟩ := h.serving hs
      rcases hrest.decode with ⟨hnext', hwants⟩ | ⟨m, rest', r', -, hnext', -⟩
      · obtain rfl : r = c.serverReader := by simpa using hnext.symm.trans hnext'
        exact h.serve (h.answered hs) (.inr hs) hrest hsent fun _ => hwants
      · cases hnext.symm.trans hnext'
    next e hs hnext =>
      obtain ⟨hrest, -⟩ := h.opening hs
      rcases hrest.decode with ⟨hnext', -⟩ | ⟨m, rest, r', -, hnext', -⟩ <;> cases hnext.symm.trans hnext'
    next e hs hnext =>
      obtain ⟨rest, hrest, -⟩ := h.serving hs
      rcases hrest.decode with ⟨hnext', -⟩ | ⟨m, rest', r', -, hnext', -⟩ <;> cases hnext.symm.trans hnext'
    next => cases hstep

/-- A read by the client. -/
theorem Inv.clientRead (h : c.Inv connect) {n : Nat} (hstep : c.step (.clientRead n) = some c') : c'.Inv connect := by
  simp only [step] at hstep
  split at hstep
  next hguard =>
    obtain ⟨hphase, hdraining, hpos, hn, hbuf⟩ := hguard
    rcases hphase with hc | hc
    · obtain ⟨hall, hshown, hwants⟩ := h.awaiting hc
      obtain ⟨r', hfill, hall'⟩ := hall.fill (hwants hdraining) hpos hn hbuf
      rw [hfill] at hstep
      obtain rfl := Option.some.inj hstep
      exact { h with
        awaiting := fun _ => ⟨hall', hshown, by simp⟩
        relaying := fun hc' => by simp [hc] at hc' }
    · obtain ⟨rest, hrest, hreplied, hwants⟩ := h.relaying hc
      obtain ⟨r', hfill, hrest'⟩ := hrest.fill (hwants hdraining) hpos hn hbuf
      rw [hfill] at hstep
      obtain rfl := Option.some.inj hstep
      exact { h with
        awaiting := fun hc' => by simp [hc] at hc'
        relaying := fun _ => ⟨rest, hrest', hreplied, by simp⟩ }
  next => cases hstep

/-- The client is done, or shows what it gets. -/
theorem Inv.leave (h : c.Inv connect) {phase : ClientPhase} (hphase : phase = .finished ∨ ∃ message, phase = .refused message)
    (r : FrameReader) (draining : Bool) : Inv connect { c with client := phase, clientReader := r, clientDraining := draining } := by
  have hother : phase ≠ .awaiting ∧ phase ≠ .relaying ∧ ∀ e, phase ≠ .failed e := by
    rcases hphase with rfl | ⟨message, rfl⟩ <;> simp
  exact { h with
    unanswered := fun ha => ⟨(h.unanswered ha).1, (h.unanswered ha).2.1, (h.unanswered ha).2.2.1, hother.2.1⟩
    awaiting := fun hc => absurd hc hother.1
    relaying := fun hc => absurd hc hother.2.1
    clientOk := hother.2.2 }

theorem Inv.show (h : c.Inv connect) (hanswer : c.answer ≠ none) {phase : ClientPhase} (hphase : phase = .finished ∨ phase = .relaying)
    {r : FrameReader} {draining : Bool} {shown rest : List ServerMsg} (hrest : Receives r c.toClient rest)
    (hreplied : c.replied = shown ++ rest) (hwants : draining = false → nextMessage ServerMsg r.intoLeftover = .ok none) {typing : Bool} :
    Inv connect { c with client := phase, clientReader := r, clientDraining := draining, shown, typing } := by
  have hother : phase ≠ .awaiting ∧ ∀ e, phase ≠ .failed e := by
    rcases hphase with rfl | rfl <;> simp
  exact { h with
    unanswered := fun ha => absurd ha hanswer
    awaiting := fun hc => absurd hc hother.1
    relaying := fun _ => ⟨rest, hrest, hreplied, hwants⟩
    shown := ⟨rest, hreplied.symm⟩
    clientOk := hother.2 }

theorem Inv.answer_ne (h : c.Inv connect) (hc : c.client = .relaying) : c.answer ≠ none := fun ha => (h.unanswered ha).2.2.2 hc

/-- The client has read the answer. -/
theorem Inv.answered_inv (h : c.Inv connect) (hshown : c.shown = []) {msg : ServerMsg} {rest : List ServerMsg}
    (hmsgs : c.answer.toList ++ c.replied = msg :: rest) {r : FrameReader} (hrest : Receives r c.toClient rest) :
    ({ c with clientReader := r, clientDraining := false }.answered msg).Inv connect := by
  have hanswer : c.answer = some msg ∧ c.replied = rest := by
    cases ha : c.answer with
    | none =>
      rw [ha, (h.unanswered ha).2.2.1] at hmsgs
      cases hmsgs
    | some answer =>
      rw [ha] at hmsgs
      simpa using hmsgs
  obtain ⟨ha, rfl⟩ := hanswer
  cases msg with
  | connected name newSession =>
    have hshow : Inv connect { c with client := .relaying, clientReader := r, clientDraining := true, shown := c.shown, typing := true } :=
      h.show (by simp [ha]) (.inr rfl) hrest (by rw [hshown, List.nil_append]) (by simp)
    exact hshow
  | error message => exact h.leave (.inr ⟨message, rfl⟩) r false
  | _ => exact h.leave (.inl rfl) r false

/-- A call of `decode_next` by the client. -/
theorem Inv.clientDecode (h : c.Inv connect) (hstep : c.step .clientDecode = some c') : c'.Inv connect := by
  simp only [step] at hstep
  split at hstep
  · cases hstep
  next hdraining =>
    split at hstep
    next msg r hc hnext =>
      obtain rfl := Option.some.inj hstep
      obtain ⟨hall, hshown, -⟩ := h.awaiting hc
      rcases hall.decode with ⟨hnext', -⟩ | ⟨m, rest, r', hmsgs, hnext', hrest⟩
      · cases hnext.symm.trans hnext'
      · obtain ⟨rfl, rfl⟩ : msg = m ∧ r = r' := by simpa using hnext.symm.trans hnext'
        exact h.answered_inv hshown hmsgs hrest
    next msg r hc hnext =>
      obtain rfl := Option.some.inj hstep
      obtain ⟨rest, hrest, hreplied, -⟩ := h.relaying hc
      have hanswer := h.answer_ne hc
      rcases hrest.decode with ⟨hnext', -⟩ | ⟨m, rest', r', rfl, hnext', hrest'⟩
      · cases hnext.symm.trans hnext'
      · obtain ⟨rfl, rfl⟩ : msg = m ∧ r = r' := by simpa using hnext.symm.trans hnext'
        exact h.show hanswer (by split <;> simp) hrest' (by rw [hreplied, List.append_assoc, List.singleton_append])
          (by simp [hdraining])
    next r hc hnext =>
      obtain rfl := Option.some.inj hstep
      obtain ⟨hall, hshown, -⟩ := h.awaiting hc
      rcases hall.decode with ⟨hnext', hwants⟩ | ⟨m, rest, r', -, hnext', -⟩
      · obtain rfl : r = c.clientReader := by simpa using hnext.symm.trans hnext'
        exact { h with
          awaiting := fun _ => ⟨hall, hshown, fun _ => hwants⟩
          relaying := fun hc' => by simp [hc] at hc' }
      · cases hnext.symm.trans hnext'
    next r hc hnext =>
      obtain rfl := Option.some.inj hstep
      obtain ⟨rest, hrest, hreplied, -⟩ := h.relaying hc
      rcases hrest.decode with ⟨hnext', hwants⟩ | ⟨m, rest', r', -, hnext', -⟩
      · obtain rfl : r = c.clientReader := by simpa using hnext.symm.trans hnext'
        exact { h with
          awaiting := fun hc' => by simp [hc] at hc'
          relaying := fun _ => ⟨rest, hrest, hreplied, fun _ => hwants⟩ }
      · cases hnext.symm.trans hnext'
    next e hc hnext =>
      obtain ⟨hall, -⟩ := h.awaiting hc
      rcases hall.decode with ⟨hnext', -⟩ | ⟨m, rest, r', -, hnext', -⟩ <;> cases hnext.symm.trans hnext'
    next e hc hnext =>
      obtain ⟨rest, hrest, -⟩ := h.relaying hc
      rcases hrest.decode with ⟨hnext', -⟩ | ⟨m, rest', r', -, hnext', -⟩ <;> cases hnext.symm.trans hnext'
    next => cases hstep

/-- The session is set up. -/
theorem Inv.accept (h : c.Inv connect) {name : String} {newSession : Bool} (hstep : c.step (.accept name newSession) = some c') :
    c'.Inv connect := by
  simp only [step] at hstep
  split at hstep
  next leftover hs =>
    obtain rfl := Option.some.inj hstep
    obtain ⟨rfl, hwire⟩ := h.settingUp leftover hs
    have hnone := h.before (.inr ⟨_, hs⟩)
    have hset : Inv connect { c with serverReader := .withLeftover [], serverDraining := false } :=
      { h with
        opening := fun hs' => by simp [hs] at hs'
        serving := fun hs' => by simp [hs] at hs' }
    exact hset.greet hnone _ (.inr ⟨rfl, ⟨by simp, by simp [hwire, stream, FrameReader.intoLeftover, FrameReader.withLeftover]⟩, rfl⟩)
  next => cases hstep

/-- The state of the stdin relay makes no difference. -/
theorem Inv.stdin (h : c.Inv connect) (filter : InputFilter) (typing : Bool) (actions : List FilterAction) :
    Inv connect { c with filter, typing, actions } := { h with }

theorem step_inv {a : ConversationStep} (h : c.Inv connect) (hstep : c.step a = some c') : c'.Inv connect := by
  cases a with
  | serverRead n => exact h.serverRead hstep
  | serverDecode => exact h.serverDecode hstep
  | accept name newSession => exact h.accept hstep
  | refuse message =>
    simp only [step] at hstep
    split at hstep
    next leftover hs =>
      obtain rfl := Option.some.inj hstep
      exact h.greet (h.before (.inr ⟨leftover, hs⟩)) _ (.inl rfl)
    next => cases hstep
  | reply msg =>
    simp only [step] at hstep
    split at hstep
    next hs =>
      obtain rfl := Option.some.inj hstep
      exact h.reply hs msg
    next => cases hstep
  | serverLeave =>
    simp only [step] at hstep
    split at hstep
    next => cases hstep
    next =>
      obtain rfl := Option.some.inj hstep
      exact h.close c.serverReader c.serverDraining
  | clientRead n => exact h.clientRead hstep
  | clientDecode => exact h.clientDecode hstep
  | key input =>
    simp only [step] at hstep
    split at hstep
    next =>
      obtain rfl := Option.some.inj hstep
      exact { h with }
    next => cases hstep
  | forward =>
    simp only [step] at hstep
    split at hstep
    next hc _ =>
      obtain rfl := Option.some.inj hstep
      exact (h.stdin c.filter false []).write (h.answer_ne hc) .detach
    next a actions _ hc _ =>
      obtain rfl := Option.some.inj hstep
      exact (h.stdin c.filter c.typing actions).write (h.answer_ne hc) a.msg
    next => cases hstep
  | endOfInput =>
    simp only [step] at hstep
    split at hstep
    next hguard =>
      split at hstep
      next a filter _ =>
        obtain rfl := Option.some.inj hstep
        exact (h.stdin filter false c.actions).write (h.answer_ne hguard.1) a.msg
      next filter _ =>
        obtain rfl := Option.some.inj hstep
        exact { h with }
    next => cases hstep
  | winch cols rows =>
    simp only [step] at hstep
    split at hstep
    next hc =>
      obtain rfl := Option.some.inj hstep
      have hanswer := h.answer_ne hc
      exact (h.write hanswer _).write (by rwa [write_answer]) _
    next => cases hstep
  | signal =>
    simp only [step] at hstep
    split at hstep
    next hc =>
      obtain rfl := Option.some.inj hstep
      exact (h.write (h.answer_ne hc) .detach).leave (.inl rfl) _ _
    next => cases hstep
  | clientLeave =>
    simp only [step] at hstep
    split at hstep
    · obtain rfl := Option.some.inj hstep
      exact h.leave (.inl rfl) c.clientReader c.clientDraining
    · obtain rfl := Option.some.inj hstep
      exact h.leave (.inl rfl) c.clientReader c.clientDraining
    · cases hstep

end Conversation

end Retach
