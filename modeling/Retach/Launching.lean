import Retach.Lib.Runs
/-!
# Starting the server (`client/server_launcher.rs`, `server/mod.rs`)

A client that finds no server starts one, and clients that do so at the same time
are kept apart by a lock file. A server removes a socket file that nobody listens
on, binds its own, and removes it when it ends.

The server looks for the file, connects, removes and binds in steps of their own,
and `SocketGuard` removes the file of whoever it is by then. So a server that
listens keeps its socket when no two servers start at the same time, and that is
so when they are started by clients that wait for them.
-/

open Runs

namespace Retach

/-! ## Servers and clients -/

/-- Where `run_server` is. -/
inductive BootPhase where
  | starting
  | /-- the path exists -/ found
  | /-- and nobody listens there -/ stale
  | binding
  | listening
  | /-- `SocketGuard` was dropped -/ unlinked
  | gone
deriving DecidableEq, Repr

def serverPollMax : Nat := 50

/-- Where `ensure_server_running` is. -/
inductive LaunchPhase where
  | connecting
  | locking
  | /-- for the server of another client -/ waiting (polls : Nat)
  | /-- has the lock, before it connects once more -/ holding
  | spawning
  | /-- for its own -/ polling (server polls : Nat)
  | done
  | failed
deriving DecidableEq, Repr

structure Launching where
  /-- The socket file, and the server that has bound it. -/
  socket : Option Nat := none
  servers : List BootPhase := []
  /-- The client that has the lock file's lock. -/
  lock : Option Nat := none
  launchers : List LaunchPhase := []

inductive LaunchStep where
  | /-- `retach server`, by hand -/ server
  | /-- a client calls `ensure_server_running` -/ launch
  | /-- a server goes on, one that listens shuts down; `ok`: it can remove and bind its socket file -/ boot (s : Nat) (ok : Bool)
  | crash (s : Nat)
  | /-- a client goes on; `ok`: it can open and lock the file, and spawn the server -/ client (i : Nat) (ok : Bool)
  | killClient (i : Nat)
deriving DecidableEq, Repr

/-- Before the socket is bound. -/
def BootPhase.boots : BootPhase → Bool
  | .starting | .found | .stale | .binding => true
  | _ => false

def BootPhase.live (p : BootPhase) : Bool := p.boots || p = .listening

/-- `_lock_guard` is there. -/
def LaunchPhase.holds : LaunchPhase → Bool
  | .holding | .spawning | .polling .. => true
  | _ => false

/-- The next step of the server `s`, and the socket file after it. -/
def BootPhase.next (s : Nat) (socket : Option Nat) (connects ok : Bool) : BootPhase → Option (BootPhase × Option Nat)
  | .starting => some (if socket = none then .binding else .found, socket)
  -- "another server is already running"
  | .found => some (if connects then .gone else .stale, socket)
  -- a stale file that cannot be removed is in the way of `bind`
  | .stale => some (.binding, if ok then none else socket)
  | .binding => some (if ok ∧ socket = none then (.listening, some s) else (.gone, socket))
  | .listening => some (if ok then (.unlinked, none) else (.gone, socket))
  | .unlinked => some (.gone, socket)
  | .gone => none

namespace Launching

/-- A server listens behind the socket file. -/
def connects (st : Launching) : Bool := st.socket.any fun s => st.servers[s]? = some .listening

/-- The next step of the client `i`. -/
def clientNext (st : Launching) (i : Nat) (ok : Bool) : LaunchPhase → Option Launching
  | .connecting => some { st with launchers := st.launchers.set i (if st.connects then .done else .locking) }
  | .locking =>
    if ¬ ok then some { st with launchers := st.launchers.set i .failed }
    else if st.lock = none then some { st with lock := some i, launchers := st.launchers.set i .holding }
    else some { st with launchers := st.launchers.set i (.waiting 0) }
  | .waiting n => some { st with
      launchers := st.launchers.set i (if st.connects then .done else if n + 1 = serverPollMax then .failed else .waiting (n + 1)) }
  | .holding =>
    if st.connects then some { st with lock := none, launchers := st.launchers.set i .done }
    else some { st with launchers := st.launchers.set i .spawning }
  | .spawning =>
    if ¬ ok then some { st with lock := none, launchers := st.launchers.set i .failed }
    else some { st with servers := st.servers ++ [.starting], launchers := st.launchers.set i (.polling st.servers.length 0) }
  | .polling s n =>
    if st.connects then some { st with lock := none, launchers := st.launchers.set i .done }
    else if n + 1 = serverPollMax then some { st with lock := none, launchers := st.launchers.set i .failed }
    else some { st with launchers := st.launchers.set i (.polling s (n + 1)) }
  | .done | .failed => none

def step (st : Launching) : LaunchStep → Option Launching
  | .server => some { st with servers := st.servers ++ [.starting] }
  | .launch => some { st with launchers := st.launchers ++ [.connecting] }
  | .boot s ok => do
    let p ← st.servers[s]?
    let (p', socket) ← p.next s st.socket st.connects ok
    return { st with socket, servers := st.servers.set s p' }
  | .crash s => do
    let _ ← st.servers[s]?
    return { st with servers := st.servers.set s .gone }
  | .client i ok => do
    let p ← st.launchers[i]?
    st.clientNext i ok p
  | .killClient i => do
    let p ← st.launchers[i]?
    return { st with lock := if p.holds then none else st.lock, launchers := st.launchers.set i .failed }

def run (st : Launching) (steps : List LaunchStep) : Option Launching := steps.foldlM step st

variable {st st' : Launching}

theorem getElem?_set_phase {α : Type} {l : List α} {i j : Nat} {p p' q : α} (hp : l[i]? = some p) (h : (l.set i p')[j]? = some q) :
    i = j ∧ q = p' ∨ i ≠ j ∧ l[j]? = some q := by
  rw [List.getElem?_set] at h
  split at h
  next hij =>
    rw [if_pos (List.getElem?_eq_some_iff.1 hp).1, Option.some.injEq] at h
    exact .inl ⟨hij, h.symm⟩
  next hij => exact .inr ⟨hij, h⟩

/-! ## What a client does -/

/-- A client's phase, its next one and who has the lock then, if it spawns no
server. -/
inductive Turns (st : Launching) (i : Nat) : LaunchPhase → LaunchPhase → Option Nat → Prop
  | idle {p p' : LaunchPhase} (hp : p.holds = false) (hp' : p'.holds = false) : Turns st i p p' st.lock
  | lock (h : st.lock = none) : Turns st i .locking .holding (some i)
  | check (h : st.connects = false) : Turns st i .holding .spawning st.lock
  | wait {s n : Nat} : Turns st i (.polling s n) (.polling s (n + 1)) st.lock
  | release {p p' : LaunchPhase} (hp : p.holds = true) (hp' : p'.holds = false) : Turns st i p p' none

/-- A client takes its turn, and polls until it connects or is out of patience;
or it spawns a server. -/
theorem clientNext_cases {i : Nat} {ok : Bool} {p : LaunchPhase} (h : st.clientNext i ok p = some st') :
    (∃ p' lock, st' = { st with lock, launchers := st.launchers.set i p' } ∧ st.Turns i p p' lock ∧
      ∀ s n, p = .polling s n → p' = .polling s (n + 1) ∨ st.connects = true ∨ n + 1 = serverPollMax) ∨
    p = .spawning ∧ st' = { st with servers := st.servers ++ [.starting]
                                    launchers := st.launchers.set i (.polling st.servers.length 0) } := by
  cases p with
  | connecting =>
    obtain rfl := Option.some.inj h
    exact .inl ⟨_, _, rfl, .idle rfl (by split <;> rfl), by simp⟩
  | locking =>
    simp only [clientNext] at h
    split at h
    · obtain rfl := Option.some.inj h
      exact .inl ⟨_, _, rfl, .idle rfl rfl, by simp⟩
    · split at h
      next hlock =>
        obtain rfl := Option.some.inj h
        exact .inl ⟨_, _, rfl, .lock hlock, by simp⟩
      next =>
        obtain rfl := Option.some.inj h
        exact .inl ⟨_, _, rfl, .idle rfl rfl, by simp⟩
  | waiting n =>
    obtain rfl := Option.some.inj h
    exact .inl ⟨_, _, rfl, .idle rfl (by repeat' split <;> try rfl), by simp⟩
  | holding =>
    simp only [clientNext] at h
    split at h
    next =>
      obtain rfl := Option.some.inj h
      exact .inl ⟨_, _, rfl, .release rfl rfl, by simp⟩
    next hconnects =>
      obtain rfl := Option.some.inj h
      exact .inl ⟨_, _, rfl, .check (by simpa using hconnects), by simp⟩
  | spawning =>
    simp only [clientNext] at h
    split at h
    · obtain rfl := Option.some.inj h
      exact .inl ⟨_, _, rfl, .release rfl rfl, by simp⟩
    · obtain rfl := Option.some.inj h
      exact .inr ⟨rfl, rfl⟩
  | polling s n =>
    simp only [clientNext] at h
    split at h
    next hconnects =>
      obtain rfl := Option.some.inj h
      exact .inl ⟨_, _, rfl, .release rfl rfl, fun _ _ _ => .inr (.inl hconnects)⟩
    next =>
      split at h
      next hmax =>
        obtain rfl := Option.some.inj h
        refine .inl ⟨_, _, rfl, .release rfl rfl, fun s' n' heq => .inr (.inr ?_)⟩
        obtain ⟨-, rfl⟩ := LaunchPhase.polling.inj heq
        exact hmax
      next =>
        obtain rfl := Option.some.inj h
        refine .inl ⟨_, _, rfl, .wait, fun s' n' heq => .inl ?_⟩
        obtain ⟨rfl, rfl⟩ := LaunchPhase.polling.inj heq
        rfl
  | done | failed => cases h

/-! ## The socket of a server -/

/-- No two servers start at the same time. -/
def NoOverlap (st : Launching) : Prop := st.servers.Pairwise fun p p' => ¬ (p.boots = true ∧ p'.boots = true)

instance (st : Launching) : Decidable st.NoOverlap := inferInstanceAs (Decidable (List.Pairwise _ _))

theorem NoOverlap.eq (h : st.NoOverlap) {s s' : Nat} {p p' : BootPhase} (hs : st.servers[s]? = some p)
    (hs' : st.servers[s']? = some p') (hp : p.boots = true) (hp' : p'.boots = true) : s = s' := by
  obtain ⟨hlt, rfl⟩ := List.getElem?_eq_some_iff.1 hs
  obtain ⟨hlt', rfl⟩ := List.getElem?_eq_some_iff.1 hs'
  have hpairs := List.pairwise_iff_getElem.1 h
  rcases Nat.lt_trichotomy s s' with hless | heq | hless
  · exact absurd ⟨hp, hp'⟩ (hpairs s s' hlt hlt' hless)
  · exact heq
  · exact absurd ⟨hp', hp⟩ (hpairs s' s hlt' hlt hless)

structure Reach (st : Launching) : Prop where
  linked : ∀ s : Nat, st.servers[s]? = some .listening → st.socket = some s
  /-- Who is to remove the file or to bind it has made sure that nobody listens. -/
  clear : ∀ (s : Nat) (p : BootPhase), st.servers[s]? = some p → p = .stale ∨ p = .binding →
    ∀ s' : Nat, st.servers[s']? ≠ some .listening

theorem Reach.connects (h : st.Reach) {s : Nat} (hs : st.servers[s]? = some .listening) : st.connects = true := by
  simp [Launching.connects, h.linked s hs, hs]

/-- A server goes on, and does not listen now. -/
theorem Reach.boot_other (h : st.Reach) {s : Nat} {p p' : BootPhase} {socket : Option Nat} (hp : st.servers[s]? = some p)
    (hp' : p' ≠ .listening) (hlinked : ∀ t ≠ s, st.servers[t]? = some .listening → socket = some t)
    (hclear : p' = .stale ∨ p' = .binding → ∀ t ≠ s, st.servers[t]? ≠ some .listening) :
    Reach { st with socket, servers := st.servers.set s p' } := by
  have hother {t : Nat} (ht : (st.servers.set s p')[t]? = some .listening) : t ≠ s ∧ st.servers[t]? = some .listening := by
    rcases getElem?_set_phase hp ht with ⟨-, heq⟩ | ⟨hne, ht⟩
    · exact absurd heq.symm hp'
    · exact ⟨hne.symm, ht⟩
  refine ⟨fun t ht => hlinked t (hother ht).1 (hother ht).2, fun t q ht hq t' ht' => ?_⟩
  obtain ⟨hne, hlistening⟩ := hother ht'
  rcases getElem?_set_phase hp ht with ⟨-, rfl⟩ | ⟨-, ht⟩
  · exact hclear hq t' hne hlistening
  · exact h.clear t q ht hq t' hlistening

theorem Reach.boot (h : st.Reach) (hone : st.NoOverlap) {s : Nat} {ok : Bool} {p p' : BootPhase} {socket : Option Nat}
    (hp : st.servers[s]? = some p) (hnext : p.next s st.socket st.connects ok = some (p', socket)) :
    Reach { st with socket, servers := st.servers.set s p' } := by
  cases p with
  | starting =>
    obtain ⟨rfl, rfl⟩ := Prod.mk.inj (Option.some.inj hnext)
    refine h.boot_other hp (by split <;> simp) (fun t _ => h.linked t) fun hp' t _ ht => ?_
    rw [h.linked t ht] at hp'
    simp at hp'
  | found =>
    obtain ⟨rfl, rfl⟩ := Prod.mk.inj (Option.some.inj hnext)
    refine h.boot_other hp (by split <;> simp) (fun t _ => h.linked t) fun hp' t _ ht => ?_
    rw [h.connects ht] at hp'
    simp at hp'
  | stale =>
    obtain ⟨rfl, rfl⟩ := Prod.mk.inj (Option.some.inj hnext)
    have hclear := h.clear s .stale hp (.inl rfl)
    exact h.boot_other hp (by simp) (fun t _ ht => absurd ht (hclear t)) fun _ t _ => hclear t
  | binding =>
    have hclear := h.clear s .binding hp (.inr rfl)
    by_cases hsocket : ok = true ∧ st.socket = none
    · rw [BootPhase.next, if_pos hsocket] at hnext
      obtain ⟨rfl, rfl⟩ := Prod.mk.inj (Option.some.inj hnext)
      refine ⟨fun t ht => ?_, fun t q ht hq t' _ => ?_⟩
      · rcases getElem?_set_phase hp ht with ⟨rfl, -⟩ | ⟨-, ht⟩
        · rfl
        · exact absurd ht (hclear t)
      · rcases getElem?_set_phase hp ht with ⟨-, rfl⟩ | ⟨hne, ht⟩
        · simp at hq
        · exact hne (hone.eq hp ht rfl (by rcases hq with rfl | rfl <;> rfl))
    · rw [BootPhase.next, if_neg hsocket] at hnext
      obtain ⟨rfl, rfl⟩ := Prod.mk.inj (Option.some.inj hnext)
      exact h.boot_other hp (by simp) (fun t _ => h.linked t) (by simp)
  | listening =>
    have hp' : p' = .unlinked ∨ p' = .gone := by
      cases ok <;> obtain ⟨rfl, -⟩ := Prod.mk.inj (Option.some.inj hnext) <;> simp
    refine h.boot_other hp (by rcases hp' with rfl | rfl <;> simp) (fun t hne ht => ?_) (by rcases hp' with rfl | rfl <;> simp)
    -- the file is that of this server
    exact absurd (Option.some.inj ((h.linked t ht).symm.trans (h.linked s hp))) hne
  | unlinked =>
    obtain ⟨rfl, rfl⟩ := Prod.mk.inj (Option.some.inj hnext)
    exact h.boot_other hp (by simp) (fun t _ => h.linked t) (by simp)
  | gone => cases hnext

/-- Another server starts. -/
theorem Reach.spawn (h : st.Reach) (lock : Option Nat) (launchers : List LaunchPhase) :
    Reach { st with servers := st.servers ++ [.starting], lock, launchers } := by
  have hold {t : Nat} {q : BootPhase} (ht : (st.servers ++ [.starting])[t]? = some q) (hq : q ≠ .starting) :
      st.servers[t]? = some q := by
    rw [List.getElem?_append] at ht
    split at ht
    · exact ht
    · exact absurd (List.mem_singleton.1 (List.mem_of_getElem? ht)) hq
  refine ⟨fun t ht => h.linked t (hold ht (by simp)), fun t q ht hq t' ht' => ?_⟩
  exact h.clear t q (hold ht (by rcases hq with rfl | rfl <;> simp)) hq t' (hold ht' (by simp))

/-- Clients by themselves change nothing. -/
theorem Reach.client (h : st.Reach) (lock : Option Nat) (launchers : List LaunchPhase) : Reach { st with lock, launchers } :=
  ⟨h.linked, h.clear⟩

theorem Reach.step (h : st.Reach) (hone : st.NoOverlap) {a : LaunchStep} (hstep : st.step a = some st') : st'.Reach := by
  cases a with
  | server =>
    obtain rfl := Option.some.inj hstep
    exact h.spawn st.lock st.launchers
  | launch =>
    obtain rfl := Option.some.inj hstep
    exact h.client st.lock _
  | boot s ok =>
    obtain ⟨p, hp, hstep⟩ := Option.bind_eq_some_iff.1 hstep
    obtain ⟨⟨p', socket⟩, hnext, hstep⟩ := Option.bind_eq_some_iff.1 hstep
    obtain rfl := Option.some.inj hstep
    exact h.boot hone hp hnext
  | crash s =>
    obtain ⟨p, hp, hstep⟩ := Option.bind_eq_some_iff.1 hstep
    obtain rfl := Option.some.inj hstep
    exact h.boot_other hp (by simp) (fun t _ => h.linked t) (by simp)
  | client i ok =>
    obtain ⟨p, hp, hstep⟩ := Option.bind_eq_some_iff.1 hstep
    rcases clientNext_cases hstep with ⟨p', lock, rfl, -⟩ | ⟨-, rfl⟩
    · exact h.client lock _
    · exact h.spawn st.lock _
  | killClient i =>
    obtain ⟨p, hp, hstep⟩ := Option.bind_eq_some_iff.1 hstep
    obtain rfl := Option.some.inj hstep
    exact h.client _ _

/-- While no two servers start at the same time, a server that listens has its
socket. -/
theorem run_linked {steps : List LaunchStep} (hrun : run {} steps = some st)
    (hone : Along step (fun st _ => st.NoOverlap) {} steps) {s : Nat} (hs : st.servers[s]? = some .listening) : st.socket = some s := by
  have h : st.Reach := hone.keeps (fun _ _ _ h hone hstep => h.step hone hstep) (by constructor <;> simp) hrun
  exact h.linked s hs

/-- A stale socket file that one server cannot remove is taken over by the next. -/
theorem run_linked_sample : ∃ st, run {} [.server, .boot 0 true, .boot 0 true, .crash 0, .server, .boot 1 true, .boot 1 true, .boot 1 false,
      .boot 1 true, .server, .boot 2 true, .boot 2 true, .boot 2 true, .boot 2 true] = some st ∧
    st.servers = [.gone, .gone, .listening] ∧ st.socket = some 2 := by
  obtain ⟨st, hrun, hservers⟩ : ∃ st, run {} [.server, .boot 0 true, .boot 0 true, .crash 0, .server, .boot 1 true, .boot 1 true,
      .boot 1 false, .boot 1 true, .server, .boot 2 true, .boot 2 true, .boot 2 true, .boot 2 true] = some st ∧
      st.servers = [.gone, .gone, .listening] := ⟨_, rfl, rfl⟩
  have hone : Along step (fun st _ => st.NoOverlap) {} [.server, .boot 0 true, .boot 0 true, .crash 0, .server, .boot 1 true,
      .boot 1 true, .boot 1 false, .boot 1 true, .server, .boot 2 true, .boot 2 true, .boot 2 true, .boot 2 true] := by
    refine .cons (by decide) rfl (.cons (by decide) rfl (.cons (by decide) rfl (.cons (by decide) rfl ?_)))
    refine .cons (by decide) rfl (.cons (by decide) rfl (.cons (by decide) rfl (.cons (by decide) rfl ?_)))
    refine .cons (by decide) rfl (.cons (by decide) rfl (.cons (by decide) rfl (.cons (by decide) rfl ?_)))
    exact .cons (by decide) rfl (.cons (by decide) rfl trivial)
  exact ⟨st, hrun, hservers, run_linked hrun hone (by rw [hservers]; rfl)⟩

/-! ## Servers that clients start -/

def boots (st : Launching) (s : Nat) : Bool := st.servers[s]?.any BootPhase.boots

/-- No server is started by hand, and no client goes while the server that it has
spawned starts. -/
def Patient (st : Launching) : LaunchStep → Prop
  | .server => False
  | .client i _ =>
    match st.launchers[i]? with
    | some (.polling s n) => n + 1 = serverPollMax → st.connects = true ∨ st.boots s = false
    | _ => True
  | .killClient i =>
    match st.launchers[i]? with
    | some (.polling s _) => st.boots s = false
    | _ => True
  | _ => True

structure Guarded (st : Launching) : Prop extends st.Reach where
  held : ∀ (i : Nat) (p : LaunchPhase), st.launchers[i]? = some p → p.holds = true → st.lock = some i
  /-- Somebody waits for a server that starts. -/
  booting : ∀ (s : Nat) (p : BootPhase), st.servers[s]? = some p → p.boots = true →
    ∃ i n : Nat, st.launchers[i]? = some (.polling s n)
  /-- A server is spawned when there is none. -/
  free : ∀ i : Nat, st.launchers[i]? = some .spawning → ∀ (s : Nat) (p : BootPhase), st.servers[s]? = some p → p.live = false
  single : ∀ (s s' : Nat) (p p' : BootPhase), st.servers[s]? = some p → st.servers[s']? = some p' →
    p.live = true → p'.live = true → s = s'

theorem live_of_boots {p : BootPhase} (h : p.boots = true) : p.live = true := by rw [BootPhase.live, h, Bool.true_or]

theorem Guarded.noOverlap (h : st.Guarded) : st.NoOverlap := List.pairwise_iff_getElem.2 fun s s' hs hs' hless hboots =>
  Nat.ne_of_lt hless (h.single s s' _ _ (List.getElem?_eq_getElem hs) (List.getElem?_eq_getElem hs') (live_of_boots hboots.1)
    (live_of_boots hboots.2))

/-- While a server listens no other starts. -/
theorem Guarded.not_boots (h : st.Guarded) (hconnects : st.connects = true) (s : Nat) : st.boots s = false := by
  obtain ⟨s', -, hs'⟩ := (Option.any_eq_true _ _).1 hconnects
  rw [decide_eq_true_eq] at hs'
  rw [← Bool.not_eq_true]
  intro hboots
  obtain ⟨p, hs, hp⟩ := (Option.any_eq_true _ _).1 hboots
  obtain rfl := h.single s s' p .listening hs hs' (live_of_boots hp) rfl
  obtain rfl := Option.some.inj (hs.symm.trans hs')
  cases hp

theorem Guarded.turn (h : st.Guarded) {i : Nat} {p p' : LaunchPhase} {lock : Option Nat} (hp : st.launchers[i]? = some p)
    (hturn : st.Turns i p p' lock)
    (hpolls : ∀ s n, p = .polling s n → p' = .polling s (n + 1) ∨ st.boots s = false) :
    Guarded { st with lock, launchers := st.launchers.set i p' } where
  toReach := h.toReach.client lock _
  held j q hj hq := by
    rcases getElem?_set_phase hp hj with ⟨rfl, rfl⟩ | ⟨hne, hj⟩
    · cases hturn with
      | idle _ hp' | release _ hp' => exact absurd hq (by simp [hp'])
      | lock => rfl
      | check => exact h.held i _ hp rfl
      | wait => exact h.held i _ hp rfl
    · have hlock := h.held j q hj hq
      cases hturn with
      | lock hnone =>
        rw [hnone] at hlock
        cases hlock
      | release hholds => exact absurd (Option.some.inj ((h.held i p hp hholds).symm.trans hlock)) hne
      | _ => exact hlock
  booting s q hs hq := by
    obtain ⟨j, n, hj⟩ := h.booting s q hs hq
    by_cases hij : i = j
    · subst hij
      obtain rfl := Option.some.inj (hp.symm.trans hj)
      rcases hpolls s n rfl with rfl | hnone
      · exact ⟨i, n + 1, List.getElem?_set_self (List.getElem?_eq_some_iff.1 hp).1⟩
      · rw [boots, hs] at hnone
        exact absurd hq (by simpa using hnone)
    · exact ⟨j, n, by rwa [List.getElem?_set_ne hij]⟩
  free j hj s q hs := by
    rcases getElem?_set_phase hp hj with ⟨rfl, heq⟩ | ⟨-, hj⟩
    · cases hturn with
      | idle _ hp' | release _ hp' =>
        rw [← heq] at hp'
        cases hp'
      | lock | wait => cases heq
      | check hconnects =>
        cases hboots : q.boots with
        | true =>
          -- who waits for it has the lock
          obtain ⟨j, n, hj⟩ := h.booting s q hs hboots
          obtain rfl := Option.some.inj ((h.held i _ hp rfl).symm.trans (h.held j _ hj rfl))
          cases hp.symm.trans hj
        | false =>
          rw [BootPhase.live, hboots, Bool.false_or, decide_eq_false_iff_not]
          rintro rfl
          rw [h.connects hs] at hconnects
          cases hconnects
    · exact h.free j hj s q hs
  single := h.single

/-- A client spawns a server. -/
theorem Guarded.spawn (h : st.Guarded) {i : Nat} (hp : st.launchers[i]? = some .spawning) :
    Guarded { st with servers := st.servers ++ [.starting], launchers := st.launchers.set i (.polling st.servers.length 0) } := by
  have hold {t : Nat} {q : BootPhase} (ht : (st.servers ++ [.starting])[t]? = some q) (hq : q.live = true) : t = st.servers.length := by
    rw [List.getElem?_append] at ht
    split at ht
    · exact absurd hq (by simp [h.free i hp t q ht])
    next hlen =>
      have := (List.getElem?_eq_some_iff.1 ht).1
      rw [List.length_singleton] at this
      omega
  refine { toReach := h.toReach.spawn st.lock _, held := fun j q hj hq => ?_, booting := fun s q hs hq => ?_, free := fun j hj => ?_
           single := fun s s' q q' hs hs' hq hq' => (hold hs hq).trans (hold hs' hq').symm }
  · rcases getElem?_set_phase hp hj with ⟨rfl, rfl⟩ | ⟨-, hj⟩
    · exact h.held i _ hp rfl
    · exact h.held j q hj hq
  · obtain rfl := hold hs (live_of_boots hq)
    exact ⟨i, 0, List.getElem?_set_self (List.getElem?_eq_some_iff.1 hp).1⟩
  · rcases getElem?_set_phase hp hj with ⟨-, heq⟩ | ⟨hne, hj⟩
    · cases heq
    · exact absurd (Option.some.inj ((h.held i _ hp rfl).symm.trans (h.held j _ hj rfl))) hne

theorem next_live {s : Nat} {socket socket' : Option Nat} {connects ok : Bool} {p p' : BootPhase}
    (h : p.next s socket connects ok = some (p', socket')) :
    (p'.boots = true → p.boots = true) ∧ (p'.live = true → p.live = true) := by
  cases p with
  | starting | found | stale => exact ⟨fun _ => rfl, fun _ => rfl⟩
  | binding => exact ⟨fun _ => rfl, fun _ => rfl⟩
  | listening => cases ok <;> obtain ⟨rfl, -⟩ := Prod.mk.inj (Option.some.inj h) <;> exact ⟨nofun, nofun⟩
  | unlinked =>
    obtain ⟨rfl, -⟩ := Prod.mk.inj (Option.some.inj h)
    exact ⟨nofun, nofun⟩
  | gone => cases h

/-- A server goes on. -/
theorem Guarded.boot (h : st.Guarded) {s : Nat} {p p' : BootPhase} {socket : Option Nat} (hp : st.servers[s]? = some p)
    (hless : (p'.boots = true → p.boots = true) ∧ (p'.live = true → p.live = true))
    (hreach : Reach { st with socket, servers := st.servers.set s p' }) :
    Guarded { st with socket, servers := st.servers.set s p' } := by
  have hold {t : Nat} {q : BootPhase} (ht : (st.servers.set s p')[t]? = some q) : ∃ q', st.servers[t]? = some q' ∧
      (q.boots = true → q'.boots = true) ∧ (q.live = true → q'.live = true) := by
    rcases getElem?_set_phase hp ht with ⟨rfl, rfl⟩ | ⟨-, ht⟩
    · exact ⟨p, hp, hless⟩
    · exact ⟨q, ht, id, id⟩
  refine { toReach := hreach, held := h.held, booting := fun t q ht hq => ?_, free := fun i hi t q ht => ?_
           single := fun t t' q q' ht ht' hq hq' => ?_ }
  · obtain ⟨q', hq', hboots, -⟩ := hold ht
    exact h.booting t q' hq' (hboots hq)
  · obtain ⟨q', hq', -, hlive⟩ := hold ht
    have := h.free i hi t q' hq'
    cases hq : q.live with
    | false => rfl
    | true => exact absurd (hlive hq) (by simp [this])
  · obtain ⟨r, hr, -, hlive⟩ := hold ht
    obtain ⟨r', hr', -, hlive'⟩ := hold ht'
    exact h.single t t' r r' hr hr' (hlive hq) (hlive' hq')

theorem Guarded.step (h : st.Guarded) {a : LaunchStep} (ha : st.Patient a) (hstep : st.step a = some st') : st'.Guarded := by
  have hreach := h.toReach.step h.noOverlap hstep
  cases a with
  | server => exact ha.elim
  | launch =>
    obtain rfl := Option.some.inj hstep
    have hold {i : Nat} {p : LaunchPhase} (hi : (st.launchers ++ [.connecting])[i]? = some p) (hp : p ≠ .connecting) :
        st.launchers[i]? = some p := by
      rw [List.getElem?_append] at hi
      split at hi
      · exact hi
      · exact absurd (List.mem_singleton.1 (List.mem_of_getElem? hi)) hp
    refine { toReach := hreach, held := fun i p hi hp => ?_, booting := fun s p hs hp => ?_, free := fun i hi => ?_,
             single := h.single }
    · exact h.held i p (hold hi (by rintro rfl; cases hp)) hp
    · obtain ⟨i, n, hi⟩ := h.booting s p hs hp
      exact ⟨i, n, (List.getElem?_append_left (List.getElem?_eq_some_iff.1 hi).1).trans hi⟩
    · exact h.free i (hold hi (by simp))
  | boot s ok =>
    obtain ⟨p, hp, hstep⟩ := Option.bind_eq_some_iff.1 hstep
    obtain ⟨⟨p', socket⟩, hnext, hstep⟩ := Option.bind_eq_some_iff.1 hstep
    obtain rfl := Option.some.inj hstep
    exact h.boot hp (next_live hnext) hreach
  | crash s =>
    obtain ⟨p, hp, hstep⟩ := Option.bind_eq_some_iff.1 hstep
    obtain rfl := Option.some.inj hstep
    exact h.boot hp ⟨nofun, nofun⟩ hreach
  | client i ok =>
    obtain ⟨p, hp, hstep⟩ := Option.bind_eq_some_iff.1 hstep
    rcases clientNext_cases hstep with ⟨p', lock, rfl, hturn, hpolls⟩ | ⟨rfl, rfl⟩
    · refine h.turn hp hturn fun s n heq => ?_
      subst heq
      rcases hpolls s n rfl with hmore | hconnects | hmax
      · exact .inl hmore
      · exact .inr (h.not_boots hconnects s)
      · rw [Patient, hp] at ha
        exact .inr ((ha hmax).elim (fun hconnects => h.not_boots hconnects s) id)
    · exact h.spawn hp
  | killClient i =>
    obtain ⟨p, hp, hstep⟩ := Option.bind_eq_some_iff.1 hstep
    obtain rfl := Option.some.inj hstep
    refine h.turn hp ?_ fun s n heq => ?_
    · cases hholds : p.holds with
      | true => exact .release hholds rfl
      | false => exact .idle hholds rfl
    · rw [Patient, hp, heq] at ha
      exact .inr ha

/-- However clients come and go and servers crash and shut down: while every
client waits for its server, at most one server starts or listens, and one that
listens has its socket. -/
theorem run_lone {steps : List LaunchStep} (hrun : run {} steps = some st) (hpatient : Along step Patient {} steps) :
    (∀ (s s' : Nat) (p p' : BootPhase), st.servers[s]? = some p → st.servers[s']? = some p' →
        p.live = true → p'.live = true → s = s') ∧
      ∀ s : Nat, st.servers[s]? = some .listening → st.socket = some s := by
  have hstart : Guarded {} :=
    { linked := by simp, clear := by simp, held := by simp, booting := by simp, free := by simp, single := by simp }
  have h : st.Guarded := hpatient.keeps (fun _ _ _ h ha hstep => h.step ha hstep) hstart hrun
  exact ⟨h.single, h.linked⟩

/-- Two clients at once: the second waits for the server of the first. -/
theorem run_lone_sample : ∃ steps st, run {} steps = some st ∧ st.launchers = [.done, .done] ∧ st.servers = [.listening] ∧
    st.socket = some 0 := by
  obtain ⟨st, hrun, hlaunchers, hservers⟩ : ∃ st, run {} [.launch, .client 0 true, .launch, .client 1 true, .client 0 true,
      .client 1 true, .client 0 true, .client 0 true, .boot 0 true, .client 1 true, .client 0 true, .boot 0 true, .client 1 true,
      .client 0 true] = some st ∧ st.launchers = [.done, .done] ∧ st.servers = [.listening] := ⟨_, rfl, rfl, rfl⟩
  have hpatient : Along step Patient {} [.launch, .client 0 true, .launch, .client 1 true, .client 0 true, .client 1 true,
      .client 0 true, .client 0 true, .boot 0 true, .client 1 true, .client 0 true, .boot 0 true, .client 1 true, .client 0 true] := by
    refine .cons trivial rfl (.cons trivial rfl (.cons trivial rfl (.cons trivial rfl (.cons trivial rfl ?_))))
    refine .cons trivial rfl (.cons trivial rfl (.cons trivial rfl (.cons trivial rfl (.cons trivial rfl ?_))))
    exact .cons nofun rfl (.cons trivial rfl (.cons trivial rfl (.cons nofun rfl trivial)))
  exact ⟨_, st, hrun, hlaunchers, hservers, (run_lone hrun hpatient).2 0 (by rw [hservers]; rfl)⟩

end Launching

end Retach
