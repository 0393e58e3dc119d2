import Mathlib.Data.List.AList
import Retach.Serving
import Retach.Ending
/-!
# The registry of sessions (`session.rs`, `setup_session` in `server/session_setup.rs`)

Connecting, killing a session, the clean-up of dead sessions and the shutdown
each hold the manager's lock, so each is one step. What follows the removal of a
session does not: `KillSession` disconnects it later, and every removed session
is dropped later still. Meanwhile a session of the same name may come up.

A session is told from a later one of its name by the number of sessions
created before it.
-/

open Runs

namespace Retach

def defaultCols : UInt16 := 80
def defaultRows : UInt16 := 24

/-- A session as the manager sees it. -/
structure ManagedSession where
  id : Nat
  name : String
  cols : UInt16
  rows : UInt16
  history : UInt64
  /-- The client whose eviction channel it can send to. -/
  evictTx : Option Nat := none
deriving DecidableEq, Repr

structure SessionManager where
  sessions : AList fun _ : String => ManagedSession := ∅
  created : Nat := 0

namespace SessionManager

/-- `Session::new`; `fails` is the error of what it starts. -/
def newSession (m : SessionManager) (name : String) (cols rows : UInt16) (history : UInt64) (fails : Option String) :
    Except String ManagedSession :=
  match fails with
  | some e => .error e
  | none => .ok { id := m.created, name, cols, rows, history }

def insertNew (m : SessionManager) (name : String) (s : ManagedSession) : SessionManager :=
  { sessions := m.sessions.insert name s, created := m.created + 1 }

def get (m : SessionManager) (name : String) : Option ManagedSession := m.sessions.lookup name

/-- Writes through the reference that `get_mut` returns. -/
def set (m : SessionManager) (name : String) (s : ManagedSession) : SessionManager :=
  { m with sessions := m.sessions.insert name s }

def create (m : SessionManager) (name : String) (cols rows : UInt16) (history : UInt64) (fails : Option String) :
    SessionManager × Except String Unit :=
  match validateSessionName name with
  | some e => (m, .error e)
  | none =>
    if name ∈ m.sessions then (m, .error ("session '" ++ name ++ "' already exists"))
    else
      let c := if cols > 0 then cols else defaultCols
      let r := if rows > 0 then rows else defaultRows
      match m.newSession name c r history fails with
      | .error e => (m, .error e)
      | .ok s => (m.insertNew name s, .ok ())

/-- The session, and whether it is new. -/
def getOrCreate (m : SessionManager) (name : String) (cols rows : UInt16) (history : UInt64) (fails : Option String) :
    SessionManager × Except String (ManagedSession × Bool) :=
  match validateSessionName name with
  | some e => (m, .error e)
  | none =>
    match m.get name with
    | some s => (m, .ok (s, false))
    | none =>
      let c := if cols > 0 then cols else defaultCols
      let r := if rows > 0 then rows else defaultRows
      match m.newSession name c r history fails with
      | .error e => (m, .error e)
      | .ok s => (m.insertNew name s, .ok (s, true))

def remove (m : SessionManager) (name : String) : SessionManager × Option ManagedSession :=
  ({ m with sessions := m.sessions.erase name }, m.get name)

/-- `filter_map` with `remove`. -/
def removeAll (m : SessionManager) : List String → SessionManager × List ManagedSession
  | [] => (m, [])
  | name :: names =>
    let (m, s) := m.remove name
    let (m, rest) := m.removeAll names
    (m, s.toList ++ rest)

def names (m : SessionManager) : List String := m.sessions.keys

/-- `alive` is what `is_alive` finds. -/
def takeDeadSessions (m : SessionManager) (alive : ManagedSession → Bool) : SessionManager × List ManagedSession :=
  m.removeAll (m.names.filter fun name => (m.get name).any fun s => !alive s)

def drainAll (m : SessionManager) : SessionManager × List ManagedSession :=
  ({ m with sessions := ∅ }, m.names.filterMap m.get)

end SessionManager

/-- A client that has connected: the receivers of its eviction channel. -/
structure ConnectedClient where
  session : Nat
  /-- `true` until the client is evicted. -/
  evictRx : Bool := true
  /-- It has not gone yet. -/
  connected : Bool := true
deriving DecidableEq, Repr

/-- Sending fails when the receivers are gone. -/
def sendEvict (clients : List ConnectedClient) : Option Nat → List ConnectedClient
  | none => clients
  | some i => clients.modify i fun c => if c.connected then { c with evictRx := false } else c

/-- `clients` are in the order of their connections; `removed` are the sessions
that are yet to be dropped. -/
structure Server where
  manager : SessionManager := {}
  removed : List (ManagedSession × Holder) := []
  clients : List ConnectedClient := []

structure SessionSetup where
  isNewSession : Bool
  client : Nat
deriving DecidableEq, Repr

/-- `connect` and `kill` are the sections of `Connect` and of `KillSession`
under the manager's lock. -/
inductive ServerStep where
  | connect (req : ConnectRequest) (fails : Option String)
  | kill (name : String)
  | sweep (alive : ManagedSession → Bool)
  | drainAll
  | /-- `disconnect`, in `KillSession` -/ disconnect (i : Nat)
  | /-- the `Drop` of `Session`; `contended`: the child's lock is taken -/ drop (i : Nat) (contended : Bool)
  | /-- a client's receivers are dropped -/ leave (i : Nat)

namespace SessionManager

/-- The session that `setup_session` connects to, by the mode. -/
def acquire (m : SessionManager) (req : ConnectRequest) (fails : Option String) :
    SessionManager × Except String (ManagedSession × Bool) :=
  match req.mode with
  | .createOrAttach => m.getOrCreate req.name req.cols req.rows req.history fails
  | .createOnly =>
    if (m.get req.name).isSome then (m, .error ("session '" ++ req.name ++ "' already exists"))
    else
      match m.create req.name req.cols req.rows req.history fails with
      | (m, .error e) => (m, .error e)
      | (m, .ok ()) =>
        match m.get req.name with
        | some s => (m, .ok (s, true))
        | none => (m, .error "session disappeared after creation")
  | .attachOnly =>
    match m.get req.name with
    | some s => (m, .ok (s, false))
    | none => (m, .error ("session '" ++ req.name ++ "' not found"))

end SessionManager

namespace Server

/-- `Session::connect` on the session `s` of that name. -/
def connect (st : Server) (name : String) (s : ManagedSession) : Server :=
  { st with
    manager := st.manager.set name { s with evictTx := some st.clients.length }
    clients := sendEvict st.clients s.evictTx ++ [{ session := s.id }] }

def setupSession (st : Server) (req : ConnectRequest) (fails : Option String) : Server × Except String SessionSetup :=
  match st.manager.acquire req fails with
  | (manager, .error e) => ({ st with manager }, .error e)
  | (manager, .ok (s, isNew)) =>
    ({ st with manager }.connect req.name s, .ok { isNewSession := isNew, client := st.clients.length })

def killSession (st : Server) (name : String) : Server × Except String Unit :=
  match validateSessionName name with
  | some e => (st, .error e)
  | none =>
    match st.manager.remove name with
    | (manager, some s) => ({ st with manager, removed := st.removed ++ [(s, .killed)] }, .ok ())
    | (manager, none) => ({ st with manager }, .error ("session '" ++ name ++ "' not found"))

/-- The sessions in `taken` are removed, to be dropped. -/
def take (st : Server) (taken : SessionManager × List ManagedSession) : Server :=
  { st with manager := taken.1, removed := st.removed ++ taken.2.map fun s => (s, .removed) }

def step (st : Server) : ServerStep → Option Server
  | .connect req fails => some (st.setupSession req fails).1
  | .kill name => some (st.killSession name).1
  | .sweep alive => some (st.take (st.manager.takeDeadSessions alive))
  | .drainAll => some (st.take st.manager.drainAll)
  | .disconnect i =>
    match st.removed[i]? with
    | some (s, .killed) => some { st with removed := st.removed.set i ({ s with evictTx := none }, .disconnected) }
    | _ => none
  | .drop i contended =>
    match st.removed[i]? with
    | some (s, .disconnected) | some (s, .removed) =>
      some { st with
        removed := st.removed.eraseIdx i
        clients := if contended then st.clients else sendEvict st.clients s.evictTx }
    | _ => none
  | .leave i =>
    match st.clients[i]? with
    | some ⟨session, evictRx, true⟩ => some { st with clients := st.clients.set i ⟨session, evictRx, false⟩ }
    | _ => none

def run (st : Server) (steps : List ServerStep) : Option Server := steps.foldlM step st

end Server

/-! ## The manager -/

namespace SessionManager

variable {m : SessionManager} {name : String}

theorem get_set (s : ManagedSession) (n : String) : (m.set name s).get n = if n = name then some s else m.get n := by
  unfold SessionManager.get SessionManager.set
  split
  next h => rw [h, AList.lookup_insert]
  next h => exact AList.lookup_insert_ne h

theorem get_insertNew (s : ManagedSession) (n : String) :
    (m.insertNew name s).get n = if n = name then some s else m.get n := get_set s n

theorem get_remove (n : String) : (m.remove name).1.get n = if n = name then none else m.get n := by
  unfold SessionManager.get SessionManager.remove
  split
  next h => rw [h, AList.lookup_erase]
  next h => exact AList.lookup_erase_ne h

theorem mem_sessions : name ∈ m.sessions ↔ (m.get name).isSome := AList.lookup_isSome.symm

/-- Sessions are taken out of `m`, which leaves `taken.1`. -/
structure Takes (m : SessionManager) (taken : SessionManager × List ManagedSession) : Prop where
  created : taken.1.created = m.created
  kept : ∀ n s, taken.1.get n = some s → m.get n = some s
  taken : ∀ s ∈ taken.2, ∃ n, m.get n = some s ∧ taken.1.get n = none

theorem takes_remove (m : SessionManager) (name : String) :
    m.Takes ((m.remove name).1, (m.remove name).2.toList) where
  created := rfl
  kept n s h := by
    rw [get_remove] at h
    split at h
    · cases h
    · exact h
  taken s hs := by
    rw [Option.mem_toList] at hs
    exact ⟨name, hs, by rw [get_remove, if_pos rfl]⟩

theorem takes_removeAll (m : SessionManager) (names : List String) : m.Takes (m.removeAll names) := by
  induction names generalizing m with
  | nil => exact ⟨rfl, fun _ _ h => h, fun s hs => absurd hs List.not_mem_nil⟩
  | cons name names ih =>
    have hone := takes_remove m name
    have hrest := ih (m.remove name).1
    refine ⟨hrest.created.trans hone.created, fun n s h => hone.kept n s (hrest.kept n s h), ?_⟩
    intro s hs
    rcases List.mem_append.1 hs with hs | hs
    · obtain ⟨n, hn, hnone⟩ := hone.taken s hs
      refine ⟨n, hn, Option.eq_none_iff_forall_ne_some.2 fun t ht => ?_⟩
      have hkept := hrest.kept n t ht
      rw [hnone] at hkept
      cases hkept
    · obtain ⟨n, hn, hnone⟩ := hrest.taken s hs
      exact ⟨n, hone.kept n s hn, hnone⟩

theorem takes_drainAll (m : SessionManager) : m.Takes m.drainAll where
  created := rfl
  kept n s h := by
    have hempty : m.drainAll.1.get n = none := AList.lookup_empty n
    rw [hempty] at h
    cases h
  taken s hs := by
    obtain ⟨n, -, hn⟩ := List.mem_filterMap.1 hs
    exact ⟨n, hn, AList.lookup_empty n⟩

/-- Whom a request connects to: nobody, an old session or a new one. -/
theorem acquire_cases (m : SessionManager) (req : ConnectRequest) (fails : Option String) :
    (∃ e, m.acquire req fails = (m, .error e)) ∨
    (∃ s, m.acquire req fails = (m, .ok (s, false)) ∧ req.mode ≠ .createOnly ∧ m.get req.name = some s) ∨
    (∃ cols rows, m.acquire req fails =
        (m.insertNew req.name { id := m.created, name := req.name, cols, rows, history := req.history },
          .ok ({ id := m.created, name := req.name, cols, rows, history := req.history }, true)) ∧
      req.mode ≠ .attachOnly ∧ m.get req.name = none) := by
  unfold acquire
  cases hmode : req.mode with
  | createOrAttach =>
    simp only [getOrCreate]
    cases validateSessionName req.name with
    | some e => exact .inl ⟨e, rfl⟩
    | none =>
      cases hget : m.get req.name with
      | some s => exact .inr (.inl ⟨s, rfl, by simp, rfl⟩)
      | none =>
        cases fails with
        | some e => exact .inl ⟨e, rfl⟩
        | none => exact .inr (.inr ⟨_, _, rfl, by simp, rfl⟩)
  | createOnly =>
    simp only [create]
    cases hget : m.get req.name with
    | some s => exact .inl ⟨_, rfl⟩
    | none =>
      cases validateSessionName req.name with
      | some e => exact .inl ⟨e, rfl⟩
      | none =>
        have hnew : req.name ∉ m.sessions := by simp [mem_sessions, hget]
        rw [if_neg hnew]
        cases fails with
        | some e => exact .inl ⟨e, rfl⟩
        | none =>
          simp only [newSession]
          rw [get_insertNew, if_pos rfl]
          exact .inr (.inr ⟨_, _, rfl, by simp, trivial⟩)
  | attachOnly =>
    cases hget : m.get req.name with
    | some s => exact .inr (.inl ⟨s, rfl, by simp, rfl⟩)
    | none => exact .inl ⟨_, rfl⟩

end SessionManager

/-! ## The clients -/

/-- The `i`th of the connections was the last one to that session. -/
def LastTo (connections : List Nat) (session i : Nat) : Prop :=
  connections[i]? = some session ∧ ∀ j, connections[j]? = some session → j ≤ i

theorem LastTo.snoc (connections : List Nat) (session : Nat) :
    LastTo (connections ++ [session]) session connections.length := by
  refine ⟨List.getElem?_concat_length, fun j hj => ?_⟩
  have hlt := (List.getElem?_eq_some_iff.1 hj).1
  rw [List.length_append, List.length_singleton] at hlt
  omega

theorem LastTo.snoc_other {connections : List Nat} {session i : Nat} (h : LastTo connections session i) {other : Nat}
    (hne : other ≠ session) : LastTo (connections ++ [other]) session i := by
  have hlt := (List.getElem?_eq_some_iff.1 h.1).1
  refine ⟨(List.getElem?_append_left hlt).trans h.1, fun j hj => ?_⟩
  rcases Nat.lt_or_ge j connections.length with hj' | hj'
  · exact h.2 j ((List.getElem?_append_left hj').symm.trans hj)
  · rw [List.getElem?_append_right hj'] at hj
    exact absurd (List.mem_singleton.1 (List.mem_of_getElem? hj)) hne.symm

theorem LastTo.unique {connections : List Nat} {session i j : Nat} (hi : LastTo connections session i)
    (hj : LastTo connections session j) : i = j := Nat.le_antisymm (hj.2 i hi.1) (hi.2 j hj.1)

theorem getElem?_sendEvict (clients : List ConnectedClient) (tx : Option Nat) (j : Nat) :
    (sendEvict clients tx)[j]? =
      if tx = some j then clients[j]?.map fun c => if c.connected then { c with evictRx := false } else c
      else clients[j]? := by
  cases tx with
  | none => rfl
  | some i => simp only [sendEvict, List.getElem?_modify, Option.some.injEq]; split <;> simp

theorem map_session_sendEvict (clients : List ConnectedClient) (tx : Option Nat) :
    (sendEvict clients tx).map (·.session) = clients.map (·.session) := by
  apply List.ext_getElem?
  intro j
  rw [List.getElem?_map, List.getElem?_map, getElem?_sendEvict]
  split
  · cases clients[j]? with
    | none => rfl
    | some c => simp only [Option.map_some]; split <;> rfl
  · rfl

/-- A client after somebody was evicted. -/
theorem client_sendEvict {clients : List ConnectedClient} {tx : Option Nat} {j : Nat} {c : ConnectedClient}
    (h : (sendEvict clients tx)[j]? = some c) : ∃ b, clients[j]? = some b ∧ c.session = b.session ∧
      c.connected = b.connected ∧ (c.evictRx = b.evictRx ∨ tx = some j ∧ c.evictRx = false) ∧
      (tx = some j → c.connected = true → c.evictRx = false) := by
  rw [getElem?_sendEvict] at h
  split at h
  next htx =>
    obtain ⟨b, hb, rfl⟩ := Option.map_eq_some_iff.1 h
    refine ⟨b, hb, ?_⟩
    cases hc : b.connected <;> simp [hc, htx]
  next htx => exact ⟨c, h, rfl, rfl, .inl rfl, fun h => absurd h htx⟩

/-! ## What holds between the requests -/

namespace Server

/-- The sessions that clients connected to, in the order of their connections. -/
def connections (st : Server) : List Nat := st.clients.map (·.session)

/-- A session that is registered, or removed and yet to be dropped. -/
def Has (st : Server) (s : ManagedSession) : Prop :=
  (∃ name, st.manager.get name = some s) ∨ ∃ h, (s, h) ∈ st.removed

structure Inv (st : Server) : Prop where
  named : ∀ name s, st.manager.get name = some s → s.name = name
  fresh : ∀ s, st.Has s → s.id < st.manager.created
  served : ∀ id ∈ st.connections, id < st.manager.created
  distinct : ∀ name name' s s', st.manager.get name = some s → st.manager.get name' = some s' → s.id = s'.id → name = name'
  apart : ∀ name s, st.manager.get name = some s → ∀ p ∈ st.removed, p.1.id ≠ s.id
  sender : ∀ s, st.Has s → ∀ i, s.evictTx = some i → LastTo st.connections s.id i
  owned : ∀ name s, st.manager.get name = some s → s.id ∈ st.connections → s.evictTx ≠ none
  current : ∀ name s, st.manager.get name = some s → ∀ i, s.evictTx = some i →
    ∀ c, st.clients[i]? = some c → c.connected = true → c.evictRx = true
  evicted : ∀ i j id : Nat, i < j → st.connections[j]? = some id →
    ∀ c : ConnectedClient, st.clients[i]? = some c → c.session = id → c.connected = true → c.evictRx = false

theorem inv_start : Inv {} := by
  constructor <;> simp [SessionManager.get, Has, connections]

variable {st : Server}

theorem connections_getElem? {i : Nat} {c : ConnectedClient} (h : st.clients[i]? = some c) :
    st.connections[i]? = some c.session := by
  rw [connections, List.getElem?_map, h]
  rfl

theorem mem_connections {i id : Nat} (h : st.connections[i]? = some id) : id ∈ st.connections := List.mem_of_getElem? h

/-- A new session, which has no clients yet. -/
theorem Inv.insertNew (h : st.Inv) {new : ManagedSession} (hid : new.id = st.manager.created) (htx : new.evictTx = none) :
    ({ st with manager := st.manager.insertNew new.name new } : Server).Inv := by
  have hget (n : String) (s : ManagedSession) (hs : (st.manager.insertNew new.name new).get n = some s) :
      n = new.name ∧ s = new ∨ st.manager.get n = some s := by
    rw [SessionManager.get_insertNew] at hs
    split at hs
    next hn => exact .inl ⟨hn, (Option.some.inj hs).symm⟩
    next => exact .inr hs
  have hhas (s : ManagedSession) (hs : ({ st with manager := st.manager.insertNew new.name new } : Server).Has s) :
      s = new ∨ st.Has s := by
    rcases hs with ⟨n, hn⟩ | hs
    · rcases hget n s hn with ⟨-, hs⟩ | hs
      · exact .inl hs
      · exact .inr (.inl ⟨n, hs⟩)
    · exact .inr (.inr hs)
  constructor
  case named =>
    intro n s hs
    rcases hget n s hs with ⟨rfl, rfl⟩ | hs
    · rfl
    · exact h.named n s hs
  case fresh =>
    intro s hs
    rcases hhas s hs with rfl | hs
    · exact hid ▸ Nat.lt_succ_self _
    · exact Nat.lt_succ_of_lt (h.fresh s hs)
  case served => exact fun id hid => Nat.lt_succ_of_lt (h.served id hid)
  case distinct =>
    intro n n' s s' hs hs' heq
    rcases hget n s hs with ⟨rfl, rfl⟩ | hold <;> rcases hget n' s' hs' with ⟨rfl, rfl⟩ | hold'
    · rfl
    · exact absurd (heq.symm.trans hid) (Nat.ne_of_lt (h.fresh s' (.inl ⟨_, hold'⟩)))
    · exact absurd (heq.trans hid) (Nat.ne_of_lt (h.fresh s (.inl ⟨_, hold⟩)))
    · exact h.distinct n n' s s' hold hold' heq
  case apart =>
    intro n s hs p hp
    rcases hget n s hs with ⟨rfl, rfl⟩ | hs
    · exact hid ▸ Nat.ne_of_lt (h.fresh p.1 (.inr ⟨p.2, hp⟩))
    · exact h.apart n s hs p hp
  case sender =>
    intro s hs i hi
    rcases hhas s hs with rfl | hs
    · rw [htx] at hi
      cases hi
    · exact h.sender s hs i hi
  case owned =>
    intro n s hs hmem
    rcases hget n s hs with ⟨rfl, rfl⟩ | hs
    · exact absurd (h.served _ hmem) (hid ▸ Nat.lt_irrefl _)
    · exact h.owned n s hs hmem
  case current =>
    intro n s hs i hi
    rcases hget n s hs with ⟨rfl, rfl⟩ | hs
    · rw [htx] at hi
      cases hi
    · exact h.current n s hs i hi
  case evicted => exact h.evicted

theorem connections_connect (st : Server) (name : String) (s : ManagedSession) :
    (st.connect name s).connections = st.connections ++ [s.id] := by
  simp [connect, connections, map_session_sendEvict]

/-- A client after a connect: an old one, or the new one. -/
theorem client_connect {name : String} {s : ManagedSession} {j : Nat} {c : ConnectedClient}
    (h : (st.connect name s).clients[j]? = some c) :
    j < st.clients.length ∧ (sendEvict st.clients s.evictTx)[j]? = some c ∨
      j = st.clients.length ∧ c = { session := s.id } := by
  have hlen : (sendEvict st.clients s.evictTx).length = st.clients.length := by
    simpa using congrArg List.length (map_session_sendEvict st.clients s.evictTx)
  simp only [connect] at h
  rcases Nat.lt_or_ge j st.clients.length with hj | hj
  · rw [List.getElem?_append_left (by omega)] at h
    exact .inl ⟨hj, h⟩
  · rw [List.getElem?_append_right (by omega)] at h
    have hlt := (List.getElem?_eq_some_iff.1 h).1
    rw [List.length_singleton] at hlt
    exact .inr ⟨by omega, List.mem_singleton.1 (List.mem_of_getElem? h)⟩

theorem get_connect {name n : String} {s t : ManagedSession} (h : (st.connect name s).manager.get n = some t) :
    n = name ∧ t = { s with evictTx := some st.clients.length } ∨ n ≠ name ∧ st.manager.get n = some t := by
  rw [Server.connect, SessionManager.get_set] at h
  split at h
  next hn => exact .inl ⟨hn, (Option.some.inj h).symm⟩
  next hn => exact .inr ⟨hn, h⟩

/-- A client that another one has followed is evicted: the last one now, the
others have been. -/
theorem Inv.evicted_connect (h : st.Inv) {name : String} {s : ManagedSession} (hs : st.manager.get name = some s) {i j id : Nat}
    (hij : i < j) (hj : (st.connect name s).connections[j]? = some id) {c : ConnectedClient}
    (hc : (st.connect name s).clients[i]? = some c) (hsession : c.session = id) (hconn : c.connected = true) :
    c.evictRx = false := by
  have hi : i < st.clients.length ∧ (sendEvict st.clients s.evictTx)[i]? = some c := by
    rcases client_connect hc with hc | ⟨rfl, -⟩
    · exact hc
    · have hlt := (List.getElem?_eq_some_iff.1 hj).1
      rw [connections_connect, List.length_append, List.length_singleton, connections, List.length_map] at hlt
      omega
  obtain ⟨b, hb, hbsession, hbconn, hrx, hgets⟩ := client_sendEvict hi.2
  have hstays (hb : b.evictRx = false) : c.evictRx = false := by
    rcases hrx with hrx | ⟨-, hrx⟩
    · exact hrx.trans hb
    · exact hrx
  rw [connections_connect] at hj
  rcases Nat.lt_or_ge j st.connections.length with hjlt | hjge
  · rw [List.getElem?_append_left hjlt] at hj
    exact hstays (h.evicted i j id hij hj b hb (hbsession.symm.trans hsession) (hbconn.symm.trans hconn))
  · rw [List.getElem?_append_right hjge] at hj
    obtain rfl : id = s.id := List.mem_singleton.1 (List.mem_of_getElem? hj)
    have hbid : st.connections[i]? = some s.id := by rw [connections_getElem? hb, ← hbsession, hsession]
    obtain ⟨k, hk⟩ := Option.ne_none_iff_exists'.1 (h.owned name s hs (mem_connections hbid))
    obtain ⟨hkid, hlast⟩ := h.sender s (.inl ⟨name, hs⟩) k hk
    rcases Nat.lt_or_eq_of_le (hlast i hbid) with hik | rfl
    · exact hstays (h.evicted i k s.id hik hkid b hb (hbsession.symm.trans hsession) (hbconn.symm.trans hconn))
    · exact hgets hk hconn

/-- The connect to a registered session evicts whoever had it. -/
theorem Inv.connect (h : st.Inv) {name : String} {s : ManagedSession} (hs : st.manager.get name = some s) :
    (st.connect name s).Inv := by
  have hname := h.named name s hs
  have hlen : st.connections.length = st.clients.length := List.length_map _
  have hother (n : String) (t : ManagedSession) (hn : n ≠ name) (ht : st.manager.get n = some t) : s.id ≠ t.id :=
    fun heq => hn (h.distinct name n s t hs ht heq).symm
  have hhas (t : ManagedSession) (ht : (st.connect name s).Has t) :
      t = { s with evictTx := some st.clients.length } ∨ st.Has t ∧ s.id ≠ t.id := by
    rcases ht with ⟨n, hn⟩ | ⟨hold, ht⟩
    · rcases get_connect hn with ⟨-, rfl⟩ | ⟨hne, ht⟩
      · exact .inl rfl
      · exact .inr ⟨.inl ⟨n, ht⟩, hother n t hne ht⟩
    · exact .inr ⟨.inr ⟨hold, ht⟩, (h.apart name s hs _ ht).symm⟩
  constructor
  case named =>
    intro n t ht
    rcases get_connect ht with ⟨rfl, rfl⟩ | ⟨-, ht⟩
    · exact hname
    · exact h.named n t ht
  case fresh =>
    intro t ht
    rcases hhas t ht with rfl | ⟨ht, -⟩
    · exact h.fresh s (.inl ⟨name, hs⟩)
    · exact h.fresh t ht
  case served =>
    intro id hid
    rw [connections_connect, List.mem_append, List.mem_singleton] at hid
    rcases hid with hid | rfl
    · exact h.served id hid
    · exact h.fresh s (.inl ⟨name, hs⟩)
  case distinct =>
    intro n n' t t' ht ht' heq
    rcases get_connect ht with ⟨rfl, rfl⟩ | ⟨hn, hold⟩ <;> rcases get_connect ht' with ⟨rfl, rfl⟩ | ⟨hn', hold'⟩
    · rfl
    · exact absurd heq (hother n' t' hn' hold')
    · exact absurd heq.symm (hother n t hn hold)
    · exact h.distinct n n' t t' hold hold' heq
  case apart =>
    intro n t ht p hp
    rcases get_connect ht with ⟨rfl, rfl⟩ | ⟨-, ht⟩
    · exact h.apart n s hs p hp
    · exact h.apart n t ht p hp
  case sender =>
    intro t ht i hi
    rw [connections_connect]
    rcases hhas t ht with rfl | ⟨ht, hne⟩
    · obtain rfl := Option.some.inj hi
      exact hlen ▸ LastTo.snoc st.connections s.id
    · exact (h.sender t ht i hi).snoc_other hne
  case owned =>
    intro n t ht hmem
    rw [connections_connect, List.mem_append, List.mem_singleton] at hmem
    rcases get_connect ht with ⟨rfl, rfl⟩ | ⟨hn, ht⟩
    · simp
    · rcases hmem with hmem | heq
      · exact h.owned n t ht hmem
      · exact absurd heq.symm (hother n t hn ht)
  case current =>
    intro n t ht i hi c hc hconn
    rcases client_connect hc with ⟨hj, hc⟩ | ⟨rfl, rfl⟩
    · rcases get_connect ht with ⟨rfl, rfl⟩ | ⟨hn, ht⟩
      · obtain rfl := Option.some.inj hi
        omega
      · -- the channel of another session is another channel
        obtain ⟨b, hb, -, hbconn, hrx | ⟨hsi, -⟩, -⟩ := client_sendEvict hc
        · exact hrx.trans (h.current n t ht i hi b hb (hbconn.symm.trans hconn))
        · have hlast := (h.sender s (.inl ⟨name, hs⟩) i hsi).1
          rw [(h.sender t (.inl ⟨n, ht⟩) i hi).1] at hlast
          exact absurd (Option.some.inj hlast).symm (hother n t hn ht)
    · rfl
  case evicted => exact fun i j id hij hj c => h.evicted_connect hs hij hj

/-- Sessions taken out of the registry. -/
theorem Inv.take (h : st.Inv) {taken : SessionManager × List ManagedSession} (htaken : st.manager.Takes taken)
    (holder : Holder) :
    ({ st with manager := taken.1, removed := st.removed ++ taken.2.map fun s => (s, holder) } : Server).Inv := by
  have hmem (p : ManagedSession × Holder) (hp : p ∈ st.removed ++ taken.2.map fun s => (s, holder)) :
      p ∈ st.removed ∨ p.1 ∈ taken.2 := by
    rcases List.mem_append.1 hp with hp | hp
    · exact .inl hp
    · obtain ⟨s, hs, rfl⟩ := List.mem_map.1 hp
      exact .inr hs
  have hhas (s : ManagedSession) (hs : ({ st with manager := taken.1, removed := st.removed ++ taken.2.map fun s => (s, holder) } :
      Server).Has s) : st.Has s := by
    rcases hs with ⟨n, hn⟩ | ⟨k, hs⟩
    · exact .inl ⟨n, htaken.kept n s hn⟩
    · rcases hmem _ hs with hs | hs
      · exact .inr ⟨k, hs⟩
      · obtain ⟨n, hn, -⟩ := htaken.taken s hs
        exact .inl ⟨n, hn⟩
  constructor
  case named => exact fun n s hs => h.named n s (htaken.kept n s hs)
  case fresh => exact fun s hs => htaken.created ▸ h.fresh s (hhas s hs)
  case served => exact fun id hid => htaken.created ▸ h.served id hid
  case distinct => exact fun n n' s s' hs hs' => h.distinct n n' s s' (htaken.kept n s hs) (htaken.kept n' s' hs')
  case apart =>
    intro n s hs p hp
    rcases hmem p hp with hp | hp
    · exact h.apart n s (htaken.kept n s hs) p hp
    · obtain ⟨n', hn', hnone⟩ := htaken.taken p.1 hp
      intro heq
      obtain rfl := h.distinct n' n p.1 s hn' (htaken.kept n s hs) heq
      rw [hnone] at hs
      cases hs
  case sender => exact fun s hs => h.sender s (hhas s hs)
  case owned => exact fun n s hs => h.owned n s (htaken.kept n s hs)
  case current => exact fun n s hs => h.current n s (htaken.kept n s hs)
  case evicted => exact h.evicted

/-- Steps outside the manager's lock: removed sessions lose their channels or
go, and clients other than those of registered sessions are evicted or go. -/
theorem Inv.outside (h : st.Inv) {removed : List (ManagedSession × Holder)} {clients : List ConnectedClient}
    (hremoved : ∀ p ∈ removed, ∃ q ∈ st.removed, p.1.id = q.1.id ∧ (p.1.evictTx = none ∨ p.1.evictTx = q.1.evictTx))
    (hsessions : clients.map (·.session) = st.connections)
    (hclients : ∀ (i : Nat) (c : ConnectedClient), clients[i]? = some c →
      ∃ b : ConnectedClient, st.clients[i]? = some b ∧ (c.connected = true → b.connected = true) ∧
      (c.evictRx = b.evictRx ∨ c.evictRx = false ∧ ∃ p ∈ st.removed, p.1.id = b.session)) :
    ({ st with removed, clients } : Server).Inv := by
  have hconnections : ({ st with removed, clients } : Server).connections = st.connections := hsessions
  constructor
  case named => exact h.named
  case fresh =>
    rintro s (hs | ⟨k, hs⟩)
    · exact h.fresh s (.inl hs)
    · obtain ⟨q, hq, hid, -⟩ := hremoved _ hs
      exact hid ▸ h.fresh q.1 (.inr ⟨q.2, hq⟩)
  case served =>
    rw [hconnections]
    exact h.served
  case distinct => exact h.distinct
  case apart =>
    intro n s hs p hp
    obtain ⟨q, hq, hid, -⟩ := hremoved p hp
    exact hid ▸ h.apart n s hs q hq
  case sender =>
    rw [hconnections]
    rintro s (hs | ⟨k, hs⟩) i hi
    · exact h.sender s (.inl hs) i hi
    · obtain ⟨q, hq, hid, hnone | htx⟩ := hremoved _ hs
      · rw [hi] at hnone
        cases hnone
      · exact hid ▸ h.sender q.1 (.inr ⟨q.2, hq⟩) i (htx.symm.trans hi)
  case owned =>
    rw [hconnections]
    exact h.owned
  case current =>
    intro n s hs i hi c hc hconn
    obtain ⟨b, hb, hbconn, hrx | ⟨-, p, hp, hid⟩⟩ := hclients i c hc
    · exact hrx.trans (h.current n s hs i hi b hb (hbconn hconn))
    · have hlast := (h.sender s (.inl ⟨n, hs⟩) i hi).1
      rw [connections_getElem? hb, ← hid] at hlast
      exact absurd (Option.some.inj hlast) (h.apart n s hs p hp)
  case evicted =>
    intro i j id hij hj c hc hsession hconn
    rw [hconnections] at hj
    obtain ⟨b, hb, hbconn, hrx⟩ := hclients i c hc
    have hbsession : b.session = c.session := by
      have hold := connections_getElem? hb
      have hnew : (clients.map (·.session))[i]? = some c.session := by rw [List.getElem?_map, hc]; rfl
      rw [← hsessions, hnew] at hold
      exact (Option.some.inj hold).symm
    rcases hrx with hrx | ⟨hrx, -⟩
    · exact hrx.trans (h.evicted i j id hij hj b hb (hbsession.trans hsession) (hbconn hconn))
    · exact hrx

/-! ## What the requests do -/

theorem setupSession_cases (st : Server) (req : ConnectRequest) (fails : Option String) :
    (∃ e, st.setupSession req fails = (st, .error e)) ∨
    (∃ s, req.mode ≠ .createOnly ∧ st.manager.get req.name = some s ∧
      st.setupSession req fails = (st.connect req.name s, .ok { isNewSession := false, client := st.clients.length })) ∨
    (∃ s, req.mode ≠ .attachOnly ∧ st.manager.get req.name = none ∧ s.id = st.manager.created ∧ s.name = req.name ∧
      s.evictTx = none ∧ st.setupSession req fails =
        (Server.connect { st with manager := st.manager.insertNew req.name s } req.name s,
          .ok { isNewSession := true, client := st.clients.length })) := by
  unfold setupSession
  rcases st.manager.acquire_cases req fails with ⟨e, h⟩ | ⟨s, h, hmode, hget⟩ | ⟨cols, rows, h, hmode, hget⟩
  · rw [h]
    exact .inl ⟨e, rfl⟩
  · rw [h]
    exact .inr (.inl ⟨s, hmode, hget, rfl⟩)
  · rw [h]
    exact .inr (.inr ⟨_, hmode, hget, rfl, rfl, rfl, rfl⟩)

theorem killSession_cases (st : Server) (name : String) :
    (∃ e, st.killSession name = (st, .error e)) ∨
    (∃ s, st.manager.get name = some s ∧ st.killSession name =
      ({ st with manager := (st.manager.remove name).1, removed := st.removed ++ [(s, .killed)] }, .ok ())) := by
  unfold killSession
  cases validateSessionName name with
  | some e => exact .inl ⟨e, rfl⟩
  | none =>
    simp only [SessionManager.remove]
    cases hget : st.manager.get name with
    | some s => exact .inr ⟨s, rfl, rfl⟩
    | none =>
      have habsent : st.manager.sessions.erase name = st.manager.sessions := by
        apply AList.ext
        exact List.kerase_of_notMem_keys fun hmem => by
          have hsome := SessionManager.mem_sessions.1 (AList.mem_keys.2 hmem)
          rw [hget] at hsome
          cases hsome
      rw [habsent]
      exact .inl ⟨_, rfl⟩

/-- `disconnect` takes the channel out of the removed session. -/
theorem Inv.disconnect (h : st.Inv) {i : Nat} {s : ManagedSession} {holder holder' : Holder}
    (hs : st.removed[i]? = some (s, holder)) :
    ({ st with removed := st.removed.set i ({ s with evictTx := none }, holder') } : Server).Inv := by
  refine h.outside (fun p hp => ?_) rfl fun i c hc => ⟨c, hc, id, .inl rfl⟩
  rcases List.mem_or_eq_of_mem_set hp with hp | rfl
  · exact ⟨p, hp, rfl, .inr rfl⟩
  · exact ⟨_, List.mem_of_getElem? hs, rfl, .inl rfl⟩

/-- The drop of a removed session evicts its last client only. -/
theorem Inv.drop (h : st.Inv) {i : Nat} {s : ManagedSession} {holder : Holder} (hs : st.removed[i]? = some (s, holder))
    (contended : Bool) :
    ({ st with
        removed := st.removed.eraseIdx i
        clients := if contended then st.clients else sendEvict st.clients s.evictTx } : Server).Inv := by
  have hmem := List.mem_of_getElem? hs
  refine h.outside (fun p hp => ⟨p, List.mem_of_mem_eraseIdx hp, rfl, .inr rfl⟩) ?_ fun j c hc => ?_
  · split
    · rfl
    · exact map_session_sendEvict st.clients s.evictTx
  · split at hc
    · exact ⟨c, hc, id, .inl rfl⟩
    · obtain ⟨b, hb, -, hconn, hrx, -⟩ := client_sendEvict hc
      refine ⟨b, hb, fun hc => hconn ▸ hc, hrx.imp_right fun ⟨htx, hrx⟩ => ⟨hrx, _, hmem, ?_⟩⟩
      have hlast := (h.sender s (.inr ⟨holder, hmem⟩) j htx).1
      rw [connections_getElem? hb] at hlast
      exact (Option.some.inj hlast).symm

/-- A client goes. -/
theorem Inv.leave (h : st.Inv) {i : Nat} {b : ConnectedClient} (hb : st.clients[i]? = some b) :
    ({ st with clients := st.clients.set i { b with connected := false } } : Server).Inv := by
  refine h.outside (fun p hp => ⟨p, hp, rfl, .inr rfl⟩) ?_ fun j c hj => ?_
  · rw [List.map_set]
    obtain ⟨hlt, hsession⟩ := List.getElem?_eq_some_iff.1 (connections_getElem? hb)
    exact hsession ▸ List.set_getElem_self hlt
  · rw [List.getElem?_set] at hj
    split at hj
    next hij =>
      split at hj
      · subst hij
        obtain rfl := Option.some.inj hj
        exact ⟨_, hb, fun hconn => absurd hconn Bool.false_ne_true, .inl rfl⟩
      · cases hj
    next => exact ⟨c, hj, id, .inl rfl⟩

theorem step_inv {st' : Server} {a : ServerStep} (h : st.Inv) (hstep : st.step a = some st') : st'.Inv := by
  cases a with
  | connect req fails =>
    obtain rfl := Option.some.inj hstep
    rcases st.setupSession_cases req fails with ⟨e, hset⟩ | ⟨s, -, hget, hset⟩ | ⟨s, -, -, hid, hname, htx, hset⟩
    · rw [hset]
      exact h
    · rw [hset]
      exact h.connect hget
    · rw [hset, ← hname]
      apply (h.insertNew hid htx).connect
      rw [SessionManager.get_insertNew, if_pos rfl]
  | kill name =>
    obtain rfl := Option.some.inj hstep
    rcases st.killSession_cases name with ⟨e, hkill⟩ | ⟨s, hget, hkill⟩
    · rw [hkill]
      exact h
    · rw [hkill]
      have htaken := st.manager.takes_remove name
      rw [show (st.manager.remove name).2 = some s from hget] at htaken
      exact h.take htaken .killed
  | sweep alive =>
    obtain rfl := Option.some.inj hstep
    exact h.take (st.manager.takes_removeAll _) .removed
  | drainAll =>
    obtain rfl := Option.some.inj hstep
    exact h.take st.manager.takes_drainAll .removed
  | disconnect i =>
    simp only [step] at hstep
    split at hstep
    next s hs =>
      obtain rfl := Option.some.inj hstep
      exact h.disconnect hs
    next => cases hstep
  | drop i contended =>
    simp only [step] at hstep
    split at hstep
    next s hs =>
      obtain rfl := Option.some.inj hstep
      exact h.drop hs contended
    next s hs =>
      obtain rfl := Option.some.inj hstep
      exact h.drop hs contended
    next => cases hstep
  | leave i =>
    simp only [step] at hstep
    split at hstep
    next session evictRx hc =>
      obtain rfl := Option.some.inj hstep
      exact h.leave hc
    next => cases hstep

/-! ## Runs -/

def Registered (st : Server) (name : String) : Prop := ∃ s, st.manager.get name = some s

def Accepts (st : Server) (req : ConnectRequest) (fails : Option String) : Prop :=
  ∃ setup, (st.setupSession req fails).2 = .ok setup

/-- The steps that may take a session of that name out of the registry. -/
def Removes (name : String) : ServerStep → Prop
  | .kill n => n = name
  | .sweep _ | .drainAll => True
  | _ => False

theorem registered_connect {name : String} {s : ManagedSession} {n : String} :
    (st.connect name s).Registered n ↔ n = name ∨ st.Registered n := by
  unfold Registered connect
  simp only [SessionManager.get_set]
  split
  next h => exact ⟨fun _ => .inl h, fun _ => ⟨_, rfl⟩⟩
  next h => exact ⟨.inr, fun hn => hn.resolve_left h⟩

theorem registered_insertNew {name : String} {s : ManagedSession} {n : String} :
    Registered { st with manager := st.manager.insertNew name s } n ↔ n = name ∨ st.Registered n := by
  unfold Registered
  simp only [SessionManager.get_insertNew]
  split
  next h => exact ⟨fun _ => .inl h, fun _ => ⟨_, rfl⟩⟩
  next h => exact ⟨.inr, fun hn => hn.resolve_left h⟩

/-- A request leaves every session registered, and its own if it succeeds. -/
theorem registered_setup (req : ConnectRequest) (fails : Option String) {name : String}
    (h : st.Registered name ∨ req.name = name ∧ st.Accepts req fails) :
    (st.setupSession req fails).1.Registered name := by
  rcases st.setupSession_cases req fails with ⟨e, hset⟩ | ⟨s, -, hget, hset⟩ | ⟨s, -, -, -, -, -, hset⟩
  · rcases h with h | ⟨-, setup, hok⟩
    · rw [hset]
      exact h
    · rw [hset] at hok
      cases hok
  · rw [hset, registered_connect]
    rcases h with h | ⟨h, -⟩
    · exact .inr h
    · exact .inl h.symm
  · rw [hset, registered_connect, registered_insertNew]
    rcases h with h | ⟨h, -⟩
    · exact .inr (.inr h)
    · exact .inl h.symm

theorem step_registered {st' : Server} {a : ServerStep} {name : String} (ha : ¬ Removes name a) (h : st.Registered name)
    (hstep : st.step a = some st') : st'.Registered name := by
  cases a with
  | connect req fails =>
    obtain rfl := Option.some.inj hstep
    exact registered_setup req fails (.inl h)
  | kill n =>
    obtain rfl := Option.some.inj hstep
    rcases st.killSession_cases n with ⟨e, hkill⟩ | ⟨s, hget, hkill⟩
    · rw [hkill]
      exact h
    · rw [hkill]
      obtain ⟨t, ht⟩ := h
      refine ⟨t, ?_⟩
      rw [SessionManager.get_remove, if_neg fun heq => ha heq.symm]
      exact ht
  | sweep alive => exact absurd trivial ha
  | drainAll => exact absurd trivial ha
  | disconnect i | drop i contended | leave i =>
    simp only [step] at hstep
    split at hstep
    all_goals first
      | cases hstep; done
      | (obtain rfl := Option.some.inj hstep; exact h)

/-- `CreateOnly` succeeds only for names that are not registered. -/
theorem not_registered_of_accepts {req : ConnectRequest} {fails : Option String} (hmode : req.mode = .createOnly)
    (h : st.Accepts req fails) : ¬ st.Registered req.name := by
  rintro ⟨t, ht⟩
  obtain ⟨setup, hok⟩ := h
  rcases st.setupSession_cases req fails with ⟨e, hset⟩ | ⟨s, hne, -, -⟩ | ⟨s, -, hget, -⟩
  · rw [hset] at hok
    cases hok
  · exact hne hmode
  · rw [hget] at ht
    cases ht

/-- Client `i` is connected and its receiver has `true`, and the session holds
its sender. -/
def Unevicted (st : Server) (s : ManagedSession) (i : Nat) : Prop :=
  s.evictTx = some i ∧ ∃ session, st.clients[i]? = some { session, evictRx := true, connected := true }

/-- What holds while nobody has the manager's lock. -/
structure Sound (st : Server) : Prop where
  unique : ∀ name name' s s', st.manager.get name = some s → st.manager.get name' = some s' → s.name = s'.name →
    name = name' ∧ s = s'
  failedConnect : ∀ req fails e, (st.setupSession req fails).2 = .error e → (st.setupSession req fails).1 = st
  failedKill : ∀ name e, (st.killSession name).2 = .error e → (st.killSession name).1 = st
  attachOnly : ∀ req fails, req.mode = .attachOnly → (st.setupSession req fails).1.manager.created = st.manager.created ∧
    ∀ name, (st.setupSession req fails).1.Registered name ↔ st.Registered name
  /-- The client that nobody evicted is the one whose connect came last. -/
  unevicted : ∀ s, st.Has s → ∀ i, st.Unevicted s i → LastTo st.connections s.id i
  /-- That client stays unevicted as long as its session is registered. -/
  last : ∀ name s, st.manager.get name = some s → ∀ i, LastTo st.connections s.id i →
    ∀ c, st.clients[i]? = some c → c.connected = true → st.Unevicted s i
  /-- The others have been told. -/
  others : ∀ (i : Nat) (c : ConnectedClient), st.clients[i]? = some c → c.connected = true →
    ¬ LastTo st.connections c.session i → c.evictRx = false

theorem Inv.sound (h : st.Inv) : st.Sound where
  unique name name' s s' hs hs' heq := by
    obtain rfl : name = name' := by rw [← h.named name s hs, heq, h.named name' s' hs']
    rw [hs] at hs'
    exact ⟨rfl, Option.some.inj hs'⟩
  failedConnect req fails e he := by
    rcases st.setupSession_cases req fails with ⟨e, hset⟩ | ⟨s, -, -, hset⟩ | ⟨s, -, -, -, -, -, hset⟩
    · rw [hset]
    · rw [hset] at he
      cases he
    · rw [hset] at he
      cases he
  failedKill name e he := by
    rcases st.killSession_cases name with ⟨e, hkill⟩ | ⟨s, -, hkill⟩
    · rw [hkill]
    · rw [hkill] at he
      cases he
  attachOnly req fails hmode := by
    rcases st.setupSession_cases req fails with ⟨e, hset⟩ | ⟨s, -, hget, hset⟩ | ⟨s, hne, -⟩
    · rw [hset]
      exact ⟨rfl, fun _ => Iff.rfl⟩
    · rw [hset]
      refine ⟨rfl, fun name => registered_connect.trans ⟨?_, .inr⟩⟩
      rintro (rfl | hname)
      · exact ⟨s, hget⟩
      · exact hname
    · exact absurd hmode hne
  unevicted s hs i hi := h.sender s hs i hi.1
  last name s hs i hi c hc hconn := by
    obtain ⟨k, hk⟩ := Option.ne_none_iff_exists'.1 (h.owned name s hs (mem_connections hi.1))
    obtain rfl := (h.sender s (.inl ⟨name, hs⟩) k hk).unique hi
    obtain ⟨session, evictRx, connected⟩ := c
    obtain rfl : connected = true := hconn
    obtain rfl : evictRx = true := h.current name s hs k hk _ hc rfl
    exact ⟨hk, session, hc⟩
  others i c hc hconn hlast := by
    have hsession := connections_getElem? hc
    obtain ⟨j, hj, hij⟩ : ∃ j, st.connections[j]? = some c.session ∧ i < j := by
      simpa [LastTo, hsession] using hlast
    exact h.evicted i j c.session hij hj c hc rfl hconn

/-- From `st` on, some step takes the session of that name out of the registry. -/
def RemovedIn (st : Server) (name : String) (steps : List ServerStep) : Prop :=
  ∃ pre a post u v, steps = pre ++ a :: post ∧ st.run pre = some u ∧ u.step a = some v ∧ Removes name a ∧
    u.Registered name ∧ ¬ v.Registered name

/-- However requests, sweeps and what follows them interleave, the registry is
sound; and between a connect and a later `CreateOnly` for its name that
succeeds, the session was removed. -/
theorem run_sound {steps : List ServerStep} {st : Server} (hrun : run {} steps = some st) :
    st.Sound ∧ ∀ pre req fails mid u, steps = pre ++ .connect req fails :: mid → run {} pre = some u →
      u.Accepts req fails → ∀ req' fails', req'.mode = .createOnly → req'.name = req.name → st.Accepts req' fails' →
        RemovedIn (u.setupSession req fails).1 req.name mid := by
  have hinv : st.Inv := (Along.of_forall (P := fun _ => True) (fun _ _ => trivial) _).keeps
    (fun _ _ _ h _ hstep => step_inv h hstep) inv_start hrun
  refine ⟨hinv.sound, ?_⟩
  rintro pre req fails mid u rfl hpre haccepts req' fails' hmode hname haccepts'
  have hmid : (u.setupSession req fails).1.run mid = some st := by
    unfold run at hpre hrun ⊢
    rw [List.foldlM_append, hpre] at hrun
    exact hrun
  have hgone : ¬ st.Registered req.name := hname ▸ not_registered_of_accepts hmode haccepts'
  obtain ⟨l₁, a, l₂, v, v', rfl, hv, hstep, hbefore, hafter⟩ :=
    loses (Registered · req.name) hmid (registered_setup req fails (.inr ⟨rfl, haccepts⟩)) hgone
  refine ⟨l₁, a, l₂, v, v', rfl, hv, hstep, ?_, hbefore, hafter⟩
  exact Classical.not_not.1 fun ha => hafter (step_registered ha hbefore hstep)

theorem run_sound_sample : ∃ st, run {} [.connect ⟨"a", 0, 80, 24, [], .createOnly⟩ none, .kill "a"] = some st ∧ st.Sound ∧
    RemovedIn (setupSession {} ⟨"a", 0, 80, 24, [], .createOnly⟩ none).1 "a" [.kill "a"] := by
  obtain ⟨st, hrun, hok⟩ : ∃ st, run {} [.connect ⟨"a", 0, 80, 24, [], .createOnly⟩ none, .kill "a"] = some st ∧
      st.Accepts ⟨"a", 0, 80, 24, [], .createOnly⟩ none := ⟨_, rfl, _, rfl⟩
  have h := run_sound hrun
  exact ⟨st, hrun, h.1, h.2 [] _ none _ {} rfl rfl ⟨_, rfl⟩ _ none rfl rfl hok⟩

end Server

end Retach
