import Retach.Reading
import Retach.Registry
/-!
# Listing and killing sessions (`client/mod.rs`, `server/client_handler.rs`, `session.rs`)

`retach list` and `retach kill` each send one request on a connection of their
own and print the one answer. Any number of them run at a time, next to the
clients that connect and the server's own work. What each of them prints is the
answer of a server that does one thing after the other, and answers it while the
request waits: if it gets an answer at all.

The connection may break at any time. A log of what the server does tells when a
request was answered.
-/

open Binary Checked

namespace Retach

open Protocol

/-! ## Requests -/

inductive Request where
  | list
  | kill (name : String)
deriving DecidableEq, Repr

def Request.msg : Request → ClientMsg
  | .list => .listSessions
  | .kill name => .killSession name

/-- How `list_sessions` and `kill_session` fail. -/
inductive RequestError where
  | read (e : ReadError)
  | encode (e : ProtocolError)
  | /-- the text of `ServerMsg::Error` -/ server (message : String)
  | unexpected
  | notRunning
  | /-- `list_sessions` cannot connect for another reason -/ connect
deriving DecidableEq, Repr

/-- What is printed, line by line. -/
abbrev Printed := Except RequestError (List String)

def SessionInfo.line (s : SessionInfo) : String :=
  s.name ++ " (" ++ toString s.cols.toNat ++ "x" ++ toString s.rows.toNat ++ ")"

def Request.print : Request → ServerMsg → Printed
  | .list, .sessionList sessions => .ok (if sessions = [] then ["No active sessions"] else sessions.map SessionInfo.line)
  | .kill _, .sessionKilled name => .ok ["killed session '" ++ name ++ "'"]
  | _, .error e => .error (.server e)
  | _, _ => .error .unexpected

def Request.output (r : Request) : Except ReadError ServerMsg → Printed
  | .error e => .error (.read e)
  | .ok msg => r.print msg

/-- How connecting to the server's socket ends. -/
inductive Connecting where
  | connected
  | /-- `ConnectionRefused` or `NotFound` -/ refused
  | failed
deriving DecidableEq, Repr

/-- What is printed without a connection. -/
def Request.unconnected : Request → Connecting → Printed
  | .list, .refused => .ok ["No active sessions"]
  | .list, _ => .error .connect
  | .kill _, _ => .error .notRunning

/-- `list`; `dims` and `pid` are what it finds behind the locks of a session. -/
def SessionManager.list (m : SessionManager) (dims : ManagedSession → UInt16 × UInt16) (pid : ManagedSession → Option UInt32) :
    List SessionInfo :=
  (m.names.filterMap m.get).map fun s => ⟨s.name, (pid s).getD 0, (dims s).1, (dims s).2⟩

/-! ## The system -/

/-- Where `handle_client` is. -/
inductive HandlerPhase where
  | reading
  | /-- after the section under the manager's lock -/ answering (msg : ServerMsg)
  | closed
deriving DecidableEq, Repr

structure RequestConn where
  request : Request
  connecting : Connecting := .connected
  handler : HandlerPhase := .reading
  toServer : List UInt8 := []
  toClient : List UInt8 := []
  output : Option Printed := none
  -- not in the source: the length of the log when the request was made, answered and printed
  made : Nat
  answered : Option Nat := none
  printed : Nat := 0

structure Requests where
  server : Server := {}
  conns : List RequestConn := []
  /-- What the server has done. -/
  log : List ServerStep := []

/-- `reads` are what the reads return up to the end of the file. -/
inductive RequestStep where
  | request (r : Request) (connecting : Connecting)
  | /-- the first message, and the section; `order` is how the map is iterated -/
    handle (i : Nat) (reads : List (List UInt8)) (dims : ManagedSession → UInt16 × UInt16)
      (pid : ManagedSession → Option UInt32) (order : List SessionInfo)
  | answer (i : Nat)
  | receive (i : Nat) (reads : List (List UInt8))
  | server (a : ServerStep)

/-- Reads of some of what is on the way, and then the end of the file. -/
def Cuts (reads : List (List UInt8)) (wire : List UInt8) : Prop :=
  reads.flatten <+: wire ∧ ∀ bytes ∈ reads, bytes ≠ [] ∧ bytes.length ≤ readBufSize

instance (reads : List (List UInt8)) (wire : List UInt8) : Decidable (Cuts reads wire) := inferInstanceAs (Decidable (_ ∧ _))

def ServerStep.isKill : ServerStep → Bool
  | .kill _ => true
  | _ => false

namespace Requests

def step (st : Requests) : RequestStep → Option Requests
  | .request r connecting =>
    let conn : RequestConn := { request := r, made := st.log.length, printed := st.log.length }
    match connecting, encode r.msg with
    | .connected, .ok bytes => some { st with conns := st.conns ++ [{ conn with toServer := bytes }] }
    | .connected, .error e =>
      some { st with conns := st.conns ++ [{ conn with handler := .closed, output := some (.error (.encode e)) }] }
    | _, _ =>
      some { st with
        conns := st.conns ++ [{ conn with connecting, handler := .closed, output := some (r.unconnected connecting) }] }
  | .handle i reads dims pid order =>
    match st.conns[i]? with
    | some c =>
      if c.handler = .reading ∧ Cuts reads c.toServer then
        match handleClient {} reads with
        | .error _ | .ok .closed => some { st with conns := st.conns.set i { c with handler := .closed } }
        | .ok (.refused e) =>
          some { st with conns := st.conns.set i { c with handler := .answering (.error e), answered := some st.log.length } }
        | .ok .list =>
          if order.Perm (st.server.manager.list dims pid) then
            some { st with
              conns := st.conns.set i { c with handler := .answering (.sessionList order), answered := some st.log.length } }
          else none
        | .ok (.kill name) =>
          let (server, result) := st.server.killSession name
          let msg := match result with
            | .ok () => .sessionKilled name
            | .error e => .error e
          some { server, log := st.log ++ [.kill name]
                 conns := st.conns.set i { c with handler := .answering msg, answered := some st.log.length } }
        | .ok (.session ..) => none
      else none
    | none => none
  | .answer i =>
    match st.conns[i]? with
    | some c =>
      match c.handler with
      -- where it cannot be encoded, the connection is closed without an answer
      | .answering msg => some { st with conns := st.conns.set i { c with handler := .closed, toClient := encoding msg } }
      | _ => none
    | none => none
  | .receive i reads =>
    match st.conns[i]? with
    | some c =>
      if c.output = none ∧ Cuts reads c.toClient then
        some { st with
          conns := st.conns.set i
            { c with output := some (c.request.output (readOneMessage ServerMsg reads)), printed := st.log.length } }
      else none
    | none => none
  | .server a =>
    if a.isKill then none else (st.server.step a).map fun server => { st with server, log := st.log ++ [a] }

def run (st : Requests) (steps : List RequestStep) : Option Requests := steps.foldlM step st

end Requests

/-! ## Messages that are cut -/

section Cutting

variable {M : Type} [Codec M] {msg : M} {reads : List (List UInt8)} {wire : List UInt8}

/-- A part of a message is no message. -/
theorem nextMessage_prefix (h : Encodable msg) {bs : List UInt8} (hbs : bs <+: encoding msg) :
    nextMessage M bs = .ok none ∨ bs = encoding msg := by
  by_cases hnone : nextMessage M bs = .ok none
  · exact .inl hnone
  · obtain ⟨rest, hrest⟩ := hbs
    have hall := nextMessage_append rest hnone
    rw [hrest, ← List.append_nil (encoding msg), nextMessage_encoding h] at hall
    have hlen := ((messages M).next_pos hall.symm).2
    rw [← hrest, List.length_append] at hlen
    have hnil : rest = [] := List.eq_nil_of_length_eq_zero (by omega)
    exact .inr (by rw [← hrest, hnil, List.append_nil])

theorem firstMessage_cuts (h : Encodable msg) (hcuts : Cuts reads (encoding msg)) :
    firstMessage M {} reads = .ok none ∨ ∃ r post, firstMessage M {} reads = .ok (some (msg, r, post)) := by
  have hfirst := firstMessage_any (M := M) (p := []) (nextMessage_nil M) hcuts.2
  rw [List.nil_append] at hfirst
  rcases nextMessage_prefix h hcuts.1 with hnone | hall
  · rw [hnone] at hfirst
    exact .inl hfirst
  · rw [hall, ← List.append_nil (encoding msg), nextMessage_encoding h] at hfirst
    obtain ⟨r, post, hresult, -⟩ := hfirst
    exact .inr ⟨r, post, hresult⟩

/-- An answer is read whole, or not at all. -/
theorem readOneMessage_cuts (h : wire = [] ∨ wire = encoding msg ∧ Encodable msg) (hcuts : Cuts reads wire) :
    readOneMessage M reads = .error .connectionClosed ∨
      wire = encoding msg ∧ Encodable msg ∧ readOneMessage M reads = .ok msg := by
  rcases h with rfl | ⟨rfl, hmsg⟩
  · have hfirst := firstMessage_any (M := M) (p := []) (nextMessage_nil M) hcuts.2
    rw [List.prefix_nil.1 hcuts.1, List.nil_append, nextMessage_nil] at hfirst
    exact .inl (by rw [readOneMessage, show firstMessage M {} reads = .ok none from hfirst])
  · rcases firstMessage_cuts hmsg hcuts with hnone | ⟨r, post, hsome⟩
    · exact .inl (by rw [readOneMessage, hnone])
    · exact .inr ⟨rfl, hmsg, by rw [readOneMessage, hsome]⟩

end Cutting

/-- What `handle_client` makes of a request. -/
theorem handleClient_request {r : Request} (hr : Encodable r.msg) {reads : List (List UInt8)}
    (hcuts : Cuts reads (encoding r.msg)) : handleClient {} reads = .ok .closed ∨
      (r = .list ∧ handleClient {} reads = .ok .list) ∨
      (∃ name e, r = .kill name ∧ validateSessionName name = some e ∧ handleClient {} reads = .ok (.refused e)) ∨
      ∃ name, r = .kill name ∧ validateSessionName name = none ∧ handleClient {} reads = .ok (.kill name) := by
  rw [handleClient_eq_first]
  rcases firstMessage_cuts hr hcuts with hnone | ⟨r', post, hsome⟩
  · rw [hnone]
    exact .inl rfl
  rw [hsome]
  cases r with
  | list => exact .inr (.inl ⟨rfl, rfl⟩)
  | kill name =>
    simp only [Request.msg, handleMessage]
    cases hname : validateSessionName name with
    | some e => exact .inr (.inr (.inl ⟨name, e, rfl, hname, rfl⟩))
    | none => exact .inr (.inr (.inr ⟨name, rfl, hname, rfl⟩))

/-! ## Answers -/

/-- What a server answers that does `next` then. -/
inductive Answers (server : Server) (next : Option ServerStep) : Request → ServerMsg → Prop
  | list {dims : ManagedSession → UInt16 × UInt16} {pid : ManagedSession → Option UInt32} {sessions : List SessionInfo}
      (h : sessions.Perm (server.manager.list dims pid)) : Answers server next .list (.sessionList sessions)
  | killed {name : String} (h : (server.killSession name).2 = .ok ()) (hnext : next = some (.kill name)) :
      Answers server next (.kill name) (.sessionKilled name)
  | refused {name e : String} (h : (server.killSession name).2 = .error e) : Answers server next (.kill name) (.error e)

/-- The answer of the server that has done the first `k` steps of the log. -/
def AnsweredAt (log : List ServerStep) (r : Request) (k : Nat) (msg : ServerMsg) : Prop :=
  ∃ server, Server.run {} (log.take k) = some server ∧ Answers server log[k]? r msg

/-- Why that was printed. -/
inductive RequestConn.Explained (log : List ServerStep) (c : RequestConn) : Printed → Prop
  | unconnected (h : c.connecting ≠ .connected) : Explained log c (c.request.unconnected c.connecting)
  | oversized {e : ProtocolError} (hconnected : c.connecting = .connected) (h : encode c.request.msg = .error e) :
      Explained log c (.error (.encode e))
  | /-- the connection was closed before an answer -/ closed (hconnected : c.connecting = .connected) :
      Explained log c (.error (.read .connectionClosed))
  | answered {k : Nat} {msg : ServerMsg} (hconnected : c.connecting = .connected) (hk : c.answered = some k) (hmade : c.made ≤ k)
      (hprinted : k ≤ c.printed) (h : AnsweredAt log c.request k msg) : Explained log c (c.request.print msg)

theorem AnsweredAt.append {log : List ServerStep} {r : Request} {k : Nat} {msg : ServerMsg} (h : AnsweredAt log r k msg)
    (hk : k ≤ log.length) (more : List ServerStep) : AnsweredAt (log ++ more) r k msg := by
  obtain ⟨server, hrun, hanswers⟩ := h
  refine ⟨server, by rwa [List.take_append_of_le_length hk], ?_⟩
  cases hanswers with
  | list h => exact .list h
  | killed h hnext => exact .killed h (by rw [List.getElem?_append_left (List.getElem?_eq_some_iff.1 hnext).1, hnext])
  | refused h => exact .refused h

variable {log : List ServerStep} {c : RequestConn}

namespace RequestConn

/-- An answer that the handler has. -/
structure Answered (log : List ServerStep) (c : RequestConn) (msg : ServerMsg) : Prop where
  point : ∃ k, c.answered = some k ∧ c.made ≤ k ∧ k ≤ log.length ∧ AnsweredAt log c.request k msg

structure Inv (log : List ServerStep) (c : RequestConn) : Prop where
  reading : c.handler = .reading →
    Encodable c.request.msg ∧ c.toServer = encoding c.request.msg ∧ c.toClient = [] ∧ c.answered = none
  answering : ∀ msg, c.handler = .answering msg → Answered log c msg
  wire : c.toClient = [] ∨ ∃ msg, c.toClient = encoding msg ∧ Encodable msg ∧ Answered log c msg
  connected : c.output = none → c.connecting = .connected
  explained : ∀ o, c.output = some o → Explained log c o
  made : c.made ≤ log.length
  printed : c.printed ≤ log.length
  killed : ∀ name k, c.request = .kill name → validateSessionName name = none → c.answered = some k → k < log.length

theorem Answered.append {msg : ServerMsg} (h : Answered log c msg) (more : List ServerStep) : Answered (log ++ more) c msg := by
  obtain ⟨k, hk, hmade, hlen, hat⟩ := h.point
  exact ⟨k, hk, hmade, Nat.le_trans hlen (by simp), hat.append hlen more⟩

theorem Inv.append (h : c.Inv log) (more : List ServerStep) : c.Inv (log ++ more) where
  reading := h.reading
  answering msg hmsg := (h.answering msg hmsg).append more
  wire := h.wire.imp_right fun ⟨msg, hwire, henc, hmsg⟩ => ⟨msg, hwire, henc, hmsg.append more⟩
  connected := h.connected
  explained o ho := by
    cases h.explained o ho with
    | unconnected h => exact .unconnected h
    | oversized hc h => exact .oversized hc h
    | closed hc => exact .closed hc
    | answered hc hk hmade hprinted hat => exact .answered hc hk hmade hprinted (hat.append (Nat.le_trans hprinted h.printed) more)
  made := Nat.le_trans h.made (by simp)
  printed := Nat.le_trans h.printed (by simp)
  killed name k hr hname hk := Nat.lt_of_lt_of_le (h.killed name k hr hname hk) (by simp)

end RequestConn

namespace RequestConn

/-- The handler returns, having written `wire`. -/
theorem Inv.close (h : c.Inv log) {wire : List UInt8}
    (hwire : wire = [] ∨ ∃ msg, wire = encoding msg ∧ Encodable msg ∧ Answered log c msg) :
    Inv log { c with handler := .closed, toClient := wire } where
  reading hp := by cases hp
  answering _ hp := by cases hp
  wire := hwire.imp_right fun ⟨msg, hmsg, henc, hat⟩ => ⟨msg, hmsg, henc, ⟨hat.point⟩⟩
  connected := h.connected
  explained o ho := by
    cases h.explained o ho with
    | unconnected h => exact .unconnected h
    | oversized hc h => exact .oversized hc h
    | closed hc => exact .closed hc
    | answered hc hk hmade hprinted hat => exact .answered hc hk hmade hprinted hat
  made := h.made
  printed := h.printed
  killed := h.killed

end RequestConn

namespace Requests

/-- A request to kill a session of a valid name that was answered at `k`. -/
def KillsAt (c : RequestConn) (k : Nat) : Prop :=
  ∃ name, c.request = .kill name ∧ validateSessionName name = none ∧ c.answered = some k

structure Inv (st : Requests) : Prop where
  server : Server.run {} st.log = some st.server
  conns : ∀ c ∈ st.conns, c.Inv st.log
  apart : ∀ (i j : Nat) (c c' : RequestConn) (k : Nat), st.conns[i]? = some c → st.conns[j]? = some c' → KillsAt c k →
    KillsAt c' k → i = j

variable {st st' : Requests}

theorem Inv.kills_lt (h : st.Inv) {i k : Nat} {c : RequestConn} (hc : st.conns[i]? = some c) (hk : KillsAt c k) :
    k < st.log.length := by
  obtain ⟨name, hr, hname, hk⟩ := hk
  exact (h.conns c (List.mem_of_getElem? hc)).killed name k hr hname hk

/-- A connection changes, and the server takes the steps `more`. -/
theorem Inv.set (h : st.Inv) {i : Nat} {c c' : RequestConn} (hc : st.conns[i]? = some c) (more : List ServerStep) {server : Server}
    (hserver : Server.run {} (st.log ++ more) = some server) (hc' : c'.Inv (st.log ++ more)) (hrequest : c'.request = c.request)
    (hanswered : c'.answered = c.answered ∨ c'.answered = some st.log.length) :
    Inv { server, log := st.log ++ more, conns := st.conns.set i c' } where
  server := hserver
  conns b hb := by
    rcases List.mem_or_eq_of_mem_set hb with hb | rfl
    · exact (h.conns b hb).append more
    · exact hc'
  apart := by
    -- what is answered now is answered later than what was answered before
    have hnew {j k : Nat} {b : RequestConn} (hj : j ≠ i) (hb : st.conns[j]? = some b) (hbk : KillsAt b k) : ¬ KillsAt c' k := by
      rintro ⟨name, hr, hname, hk⟩
      rcases hanswered with hsame | hlast
      · exact hj (h.apart j i b c k hb hc hbk ⟨name, hrequest ▸ hr, hname, hsame ▸ hk⟩)
      · have := h.kills_lt hb hbk
        rw [hlast, Option.some.injEq] at hk
        omega
    intro j j' b b' k hb hb' hk hk'
    rw [List.getElem?_set] at hb hb'
    split at hb <;> split at hb'
    next hi hi' => exact hi.symm.trans hi'
    next hi hi' =>
      split at hb
      · obtain rfl := Option.some.inj hb
        exact absurd hk (hnew (fun heq => hi' heq.symm) hb' hk')
      · cases hb
    next hi hi' =>
      split at hb'
      · obtain rfl := Option.some.inj hb'
        exact absurd hk' (hnew (fun heq => hi heq.symm) hb hk)
      · cases hb'
    next => exact h.apart j j' b b' k hb hb' hk hk'

/-- A connection changes by itself. -/
theorem Inv.update (h : st.Inv) {i : Nat} {c c' : RequestConn} (hc : st.conns[i]? = some c) (hc' : c'.Inv st.log)
    (hrequest : c'.request = c.request) (hanswered : c'.answered = c.answered) : Inv { st with conns := st.conns.set i c' } := by
  have hserver : Server.run {} (st.log ++ []) = some st.server := by rw [List.append_nil, h.server]
  simpa using h.set hc [] hserver (by simpa using hc') hrequest (.inl hanswered)

/-- A new connection, with nothing answered. -/
theorem Inv.snoc (h : st.Inv) {c : RequestConn} (hc : c.Inv st.log) (hnone : c.answered = none) :
    Inv { st with conns := st.conns ++ [c] } where
  server := h.server
  conns b hb := by
    rcases List.mem_append.1 hb with hb | hb
    · exact h.conns b hb
    · rwa [List.mem_singleton.1 hb]
  apart := by
    have hold {j k : Nat} {b : RequestConn} (hb : (st.conns ++ [c])[j]? = some b) (hk : KillsAt b k) : st.conns[j]? = some b := by
      rw [List.getElem?_append] at hb
      split at hb
      · exact hb
      · obtain rfl := List.mem_singleton.1 (List.mem_of_getElem? hb)
        obtain ⟨-, -, -, hk⟩ := hk
        rw [hnone] at hk
        cases hk
    exact fun j j' b b' k hb hb' hk hk' => h.apart j j' b b' k (hold hb hk) (hold hb' hk') hk hk'

theorem Inv.request (h : st.Inv) (r : Request) (connecting : Connecting) (hstep : st.step (.request r connecting) = some st') :
    st'.Inv := by
  have hunsent {o : Printed} (connecting : Connecting) (ho : RequestConn.Explained st.log
      { request := r, connecting, made := st.log.length, printed := st.log.length, handler := .closed, output := some o } o) :
      Inv { st with conns := st.conns ++
        [{ request := r, connecting, made := st.log.length, printed := st.log.length, handler := .closed, output := some o }] } :=
    h.snoc
      { reading := fun hp => by cases hp
        answering := fun _ hp => by cases hp
        wire := .inl rfl
        connected := fun hp => by cases hp
        explained := fun o' ho' => Option.some.inj ho' ▸ ho
        made := Nat.le_refl _
        printed := Nat.le_refl _
        killed := fun _ _ _ _ hk => by cases hk } rfl
  cases connecting with
  | refused =>
    obtain rfl := Option.some.inj hstep
    exact hunsent .refused (.unconnected (by simp))
  | failed =>
    obtain rfl := Option.some.inj hstep
    exact hunsent .failed (.unconnected (by simp))
  | connected =>
    cases henc : encode r.msg with
    | error e =>
      simp only [step, henc] at hstep
      obtain rfl := Option.some.inj hstep
      exact hunsent .connected (.oversized rfl henc)
    | ok bytes =>
      simp only [step, henc] at hstep
      obtain rfl := Option.some.inj hstep
      refine h.snoc ?_ rfl
      exact
        { reading := fun _ => ⟨⟨bytes, henc⟩, by rw [encoding, henc], rfl, rfl⟩
          answering := fun _ hp => by cases hp
          wire := .inl rfl
          connected := fun _ => rfl
          explained := fun _ ho => by cases ho
          made := Nat.le_refl _
          printed := Nat.le_refl _
          killed := fun _ _ _ _ hk => by cases hk }

theorem Inv.handle (h : st.Inv) {i : Nat} {reads : List (List UInt8)} {dims : ManagedSession → UInt16 × UInt16}
    {pid : ManagedSession → Option UInt32} {order : List SessionInfo}
    (hstep : st.step (.handle i reads dims pid order) = some st') : st'.Inv := by
  simp only [step] at hstep
  split at hstep
  next c hc =>
    have hold := h.conns c (List.mem_of_getElem? hc)
    split at hstep
    next hreads =>
      obtain ⟨hr, hwire, hclient, hnone⟩ := hold.reading hreads.1
      have hanswer {msg : ServerMsg} (more : List ServerStep) {server : Server} (hserver : Server.run {} (st.log ++ more) = some server)
          (hmsg : Answers st.server (st.log ++ more)[st.log.length]? c.request msg)
          (hkilled : ∀ name, c.request = .kill name → validateSessionName name = none → more ≠ []) :
          Inv { server, log := st.log ++ more
                conns := st.conns.set i { c with handler := .answering msg, answered := some st.log.length } } := by
        have hat : AnsweredAt (st.log ++ more) c.request st.log.length msg :=
          ⟨st.server, by rw [List.take_left, h.server], hmsg⟩
        refine h.set hc more hserver ?_ rfl (.inr rfl)
        exact
          { reading := fun hp => by cases hp
            answering := fun msg' hp => by
              obtain rfl := HandlerPhase.answering.inj hp
              exact ⟨_, rfl, hold.made, by simp, hat⟩
            wire := .inl hclient
            connected := hold.connected
            explained := fun o ho => by
              cases hold.explained o ho with
              | unconnected h => exact .unconnected h
              | oversized hc h => exact .oversized hc h
              | closed hc => exact .closed hc
              | answered _ hk => cases hnone.symm.trans hk
            made := (hold.append more).made
            printed := (hold.append more).printed
            killed := fun name k hr hname hk => by
              obtain rfl := Option.some.inj hk
              have := List.length_pos_of_ne_nil (hkilled name hr hname)
              rw [List.length_append]
              omega }
      have hsame : Server.run {} (st.log ++ []) = some st.server := by rw [List.append_nil, h.server]
      rcases handleClient_request hr (hwire ▸ hreads.2) with hhandle | ⟨hlist, hhandle⟩ | ⟨name, e, hkill, hname, hhandle⟩ |
        ⟨name, hkill, hname, hhandle⟩
      · rw [hhandle] at hstep
        obtain rfl := Option.some.inj hstep
        exact h.update hc (hold.close (.inl hclient)) rfl rfl
      · rw [hhandle] at hstep
        simp only at hstep
        split at hstep
        next horder =>
          obtain rfl := Option.some.inj hstep
          simpa using hanswer [] hsame (hlist ▸ .list horder) (by simp [hlist])
        next => cases hstep
      · rw [hhandle] at hstep
        obtain rfl := Option.some.inj hstep
        have hrefused : (st.server.killSession name).2 = .error e := by rw [Server.killSession, hname]
        simpa using hanswer [] hsame (hkill ▸ .refused hrefused) fun name' hkill' hname' => by
          rw [hkill, Request.kill.injEq] at hkill'
          rw [← hkill', hname] at hname'
          cases hname'
      · rw [hhandle] at hstep
        obtain rfl := Option.some.inj hstep
        have hserver : Server.run {} (st.log ++ [.kill name]) = some (st.server.killSession name).1 := by
          rw [Server.run, List.foldlM_append, show List.foldlM Server.step {} st.log = some st.server from h.server]
          rfl
        refine hanswer [.kill name] hserver ?_ (by simp)
        rw [List.getElem?_concat_length, hkill]
        cases hresult : (st.server.killSession name).2 with
        | ok _ => exact .killed hresult rfl
        | error e => exact .refused hresult
    next => cases hstep
  next => cases hstep

theorem Inv.answer (h : st.Inv) {i : Nat} (hstep : st.step (.answer i) = some st') : st'.Inv := by
  simp only [step] at hstep
  split at hstep
  next c hc =>
    have hold := h.conns c (List.mem_of_getElem? hc)
    split at hstep
    next msg hmsg =>
      obtain rfl := Option.some.inj hstep
      have hwire : encoding msg = [] ∨ ∃ msg', encoding msg = encoding msg' ∧ Encodable msg' ∧ RequestConn.Answered st.log c msg' := by
        cases henc : encode msg with
        | ok bytes => exact .inr ⟨msg, rfl, ⟨bytes, henc⟩, hold.answering msg hmsg⟩
        | error e => exact .inl (by rw [encoding, henc])
      exact h.update hc (hold.close hwire) rfl rfl
    next => cases hstep
  next => cases hstep

theorem Inv.receive (h : st.Inv) {i : Nat} {reads : List (List UInt8)} (hstep : st.step (.receive i reads) = some st') :
    st'.Inv := by
  simp only [step] at hstep
  split at hstep
  next c hc =>
    have hold := h.conns c (List.mem_of_getElem? hc)
    split at hstep
    next hreads =>
      obtain rfl := Option.some.inj hstep
      have hconnected := hold.connected hreads.1
      have hexplained (o : Option Printed) : RequestConn.Explained st.log { c with output := o, printed := st.log.length }
          (c.request.output (readOneMessage ServerMsg reads)) := by
        have hread (msg : ServerMsg) (hwire : c.toClient = [] ∨ c.toClient = encoding msg ∧ Encodable msg) :=
          readOneMessage_cuts hwire hreads.2
        rcases hold.wire with hnil | ⟨msg, hmsg, henc, k, hk, hmade, hlen, hat⟩
        · rcases hread .sessionEnded (.inl hnil) with hclosed | ⟨hwire, henc, -⟩
          · rw [hclosed]
            exact .closed hconnected
          · have := henc.encoding_length
            rw [← hwire, hnil] at this
            exact absurd this.1 (by simp)
        · rcases hread _ (.inr ⟨hmsg, henc⟩) with hclosed | ⟨-, -, hread⟩
          · rw [hclosed]
            exact .closed hconnected
          · rw [hread]
            exact .answered hconnected hk hmade hlen hat
      refine h.update hc ?_ rfl rfl
      exact
        { reading := hold.reading
          answering := fun msg hmsg => ⟨(hold.answering msg hmsg).point⟩
          wire := hold.wire.imp_right fun ⟨msg, hmsg, henc, hat⟩ => ⟨msg, hmsg, henc, ⟨hat.point⟩⟩
          connected := fun hp => by cases hp
          explained := fun o ho => Option.some.inj ho ▸ hexplained _
          made := hold.made
          printed := Nat.le_refl _
          killed := hold.killed }
    next => cases hstep
  next => cases hstep

theorem Inv.serverStep (h : st.Inv) {a : ServerStep} (hstep : st.step (.server a) = some st') : st'.Inv := by
  simp only [step] at hstep
  split at hstep
  · cases hstep
  · obtain ⟨server, hserver, rfl⟩ := Option.map_eq_some_iff.1 hstep
    exact
      { server := by
          rw [Server.run, List.foldlM_append, show List.foldlM Server.step {} st.log = some st.server from h.server]
          simpa using hserver
        conns := fun c hc => (h.conns c hc).append [a]
        apart := h.apart }

theorem Inv.step (h : st.Inv) {a : RequestStep} (hstep : st.step a = some st') : st'.Inv := by
  cases a with
  | request r connecting => exact h.request r connecting hstep
  | handle => exact h.handle hstep
  | answer => exact h.answer hstep
  | receive => exact h.receive hstep
  | server => exact h.serverStep hstep

/-- While request `c` waited the server was in the state `server` of its log,
and did `next` then. -/
def Meets (log : List ServerStep) (c : RequestConn) (server : Server) (next : Option ServerStep) : Prop :=
  ∃ k, c.made ≤ k ∧ k ≤ c.printed ∧ Server.run {} (log.take k) = some server ∧ log[k]? = next

/-- The server does one thing after the other, and what the requests print is
explained by it: a listing on a connection shows the sessions of one state of
the server, a session is killed by a step of the server, and two that were
killed were killed one after the other. -/
structure Sequential (st : Requests) : Prop where
  server : Server.run {} st.log = some st.server
  explained : ∀ c ∈ st.conns, ∀ o, c.output = some o → c.Explained st.log o
  listed : ∀ c ∈ st.conns, ∀ lines, c.request = .list → c.connecting = .connected → c.output = some (.ok lines) →
    ∃ server next dims pid, ∃ sessions : List SessionInfo, Meets st.log c server next ∧ sessions.Perm (server.manager.list dims pid) ∧
      (sessions = [] ∧ lines = ["No active sessions"] ∨ sessions ≠ [] ∧ lines = sessions.map SessionInfo.line)
  killed : ∀ c ∈ st.conns, ∀ name lines, c.request = .kill name → c.output = some (.ok lines) →
    lines = ["killed session '" ++ name ++ "'"] ∧
      ∃ server, Meets st.log c server (some (.kill name)) ∧ (server.killSession name).2 = .ok ()
  apart : ∀ (i j : Nat) (c c' : RequestConn) (name name' : String) (lines lines' : List String), i ≠ j →
    st.conns[i]? = some c → st.conns[j]? = some c' → c.request = .kill name → c'.request = .kill name' →
    c.output = some (.ok lines) → c'.output = some (.ok lines') → c.answered ≠ c'.answered

/-- A request to kill that prints no error was answered by a section of its own. -/
theorem killsAt_of_ok {log : List ServerStep} {c : RequestConn} {name : String} {lines : List String} (hr : c.request = .kill name)
    (h : c.Explained log (.ok lines)) : ∃ k, KillsAt c k := by
  generalize ho : Except.ok lines = o at h
  cases h with
  | unconnected =>
    rw [hr] at ho
    cases ho
  | oversized | closed => cases ho
  | @answered k msg hconnected hk hmade hprinted hat =>
    obtain ⟨server, -, hanswers⟩ := hat
    refine ⟨k, name, hr, ?_, hk⟩
    rw [hr] at hanswers ho
    cases hanswers with
    | killed hkilled hnext =>
      cases hname : validateSessionName name with
      | none => rfl
      | some e =>
        rw [Server.killSession, hname] at hkilled
        cases hkilled
    | refused => cases ho

/-- A listing that prints no error. -/
theorem listed_of_ok {log : List ServerStep} {c : RequestConn} {lines : List String} (hr : c.request = .list)
    (hconnected : c.connecting = .connected) (h : c.Explained log (.ok lines)) :
    ∃ server next dims pid, ∃ sessions : List SessionInfo, Meets log c server next ∧ sessions.Perm (server.manager.list dims pid) ∧
      (sessions = [] ∧ lines = ["No active sessions"] ∨ sessions ≠ [] ∧ lines = sessions.map SessionInfo.line) := by
  generalize ho : Except.ok lines = o at h
  cases h with
  | unconnected hfailed => exact absurd hconnected hfailed
  | oversized | closed => cases ho
  | @answered k msg _ hk hmade hprinted hat =>
    obtain ⟨server, hrun, hanswers⟩ := hat
    rw [hr] at hanswers ho
    cases hanswers with
    | @list dims pid sessions hperm =>
      refine ⟨server, _, dims, pid, sessions, ⟨k, hmade, hprinted, hrun, rfl⟩, hperm, ?_⟩
      by_cases hnone : sessions = []
      · exact .inl ⟨hnone, by simpa [Request.print, hnone] using ho⟩
      · exact .inr ⟨hnone, by simpa [Request.print, hnone] using ho⟩

/-- A request to kill that prints no error. -/
theorem killed_of_ok {log : List ServerStep} {c : RequestConn} {name : String} {lines : List String} (hr : c.request = .kill name)
    (h : c.Explained log (.ok lines)) : lines = ["killed session '" ++ name ++ "'"] ∧
      ∃ server, Meets log c server (some (.kill name)) ∧ (server.killSession name).2 = .ok () := by
  generalize ho : Except.ok lines = o at h
  cases h with
  | unconnected =>
    rw [hr] at ho
    cases ho
  | oversized | closed => cases ho
  | @answered k msg _ hk hmade hprinted hat =>
    obtain ⟨server, hrun, hanswers⟩ := hat
    rw [hr] at hanswers ho
    cases hanswers with
    | killed hkilled hnext => exact ⟨Except.ok.inj ho, server, ⟨k, hmade, hprinted, hrun, hnext⟩, hkilled⟩
    | refused => cases ho

theorem Inv.sequential (h : st.Inv) : st.Sequential where
  server := h.server
  explained c hc o ho := (h.conns c hc).explained o ho
  listed c hc _ hr hconnected ho := listed_of_ok hr hconnected ((h.conns c hc).explained _ ho)
  killed c hc _ _ hr ho := killed_of_ok hr ((h.conns c hc).explained _ ho)
  apart i j c c' name name' lines lines' hij hc hc' hr hr' ho ho' := by
    obtain ⟨k, hk⟩ := killsAt_of_ok hr ((h.conns c (List.mem_of_getElem? hc)).explained _ ho)
    obtain ⟨k', hk'⟩ := killsAt_of_ok hr' ((h.conns c' (List.mem_of_getElem? hc')).explained _ ho')
    intro hsame
    obtain ⟨n, hn, hvalid, hpoint⟩ := hk'
    have hk'' : KillsAt c' k := by
      obtain ⟨-, -, -, hat⟩ := hk
      exact ⟨n, hn, hvalid, hsame ▸ hat⟩
    exact hij (h.apart i j c c' k hc hc' hk hk'')

/-- Whatever is interleaved and wherever the bytes are cut, requests that reach
the server print what a server that does one thing after the other answers
between the time they were made and the time they print, or that the connection
was closed. -/
theorem run_sequential {steps : List RequestStep} (hrun : run {} steps = some st) : st.Sequential := by
  have hstart : Inv {} := ⟨rfl, by simp, by simp⟩
  exact (Ends.foldlM (P := Inv) (fun _ _ hst _ hstep => hst.step hstep) steps hstart st hrun).sequential

/-- A session is killed while a listing is on its way back, and then once more. -/
theorem run_sequential_sample : ∃ steps st, run {} steps = some st ∧ st.Sequential ∧
    st.conns.map (·.output) =
      [some (.ok ["a (80x24)"]), some (.ok ["killed session 'a'"]), some (.error (.read .connectionClosed))] := by
  obtain ⟨st, hrun, houtput⟩ : ∃ st, run {} [.server (.connect ⟨"a", 0, 80, 24, [], .createOnly⟩ none),
        .request .list .connected, .request (.kill "a") .connected,
        .handle 0 [[0, 0, 0, 4], [3, 0, 0, 0]] (fun _ => (80, 24)) (fun _ => none) [⟨"a", 0, 80, 24⟩], .answer 0,
        .handle 1 [[0, 0, 0, 13, 5, 0, 0, 0, 1, 0, 0, 0, 0, 0, 0, 0, 97]] (fun _ => (0, 0)) (fun _ => none) [],
        .request (.kill "a") .connected,
        .handle 2 [[0, 0], [0, 13, 5, 0, 0, 0, 1, 0, 0, 0, 0, 0, 0, 0, 97]] (fun _ => (0, 0)) (fun _ => none) [],
        .receive 0 [[0, 0, 0, 29, 2, 0, 0, 0, 1, 0, 0, 0, 0, 0, 0, 0, 1, 0, 0, 0, 0, 0, 0, 0], [97, 0, 0, 0, 0, 80, 0, 24, 0]],
        .answer 1, .receive 1 [[0, 0, 0, 13, 6, 0, 0, 0, 1, 0, 0, 0, 0, 0, 0, 0, 97]], .answer 2, .receive 2 []] = some st ∧
      st.conns.map (·.output) =
        [some (.ok ["a (80x24)"]), some (.ok ["killed session 'a'"]), some (.error (.read .connectionClosed))] :=
    ⟨_, rfl, by decide⟩
  exact ⟨_, st, hrun, run_sequential hrun, houtput⟩

end Requests

end Retach
