import Retach.Lib.Locks
/-!
# The locks of the server (`server/session_bridge.rs`)

What each task of the server takes and gives back, with a `call` where it waits
for the socket, the PTY, the child or another task, and a choice where what it
does depends on data. A relay may be aborted where it waits. The number `n`
tells the sessions apart: a session that is created under an old name has locks
of its own.

A child may take no input before its output has been read. So the turn of a
session, which is no lock of the code, is with the reader from one read to the
next, and a write of input waits for it. A reply is short and does not.
-/

open Locks

namespace Retach

namespace Locking

inductive Lock where
  | manager
  | screen (n : Nat)
  | master (n : Nat)
  | ptyWriter (n : Nat)
  | turn (n : Nat)
  | dims (n : Nat)
  | child (n : Nat)
deriving DecidableEq, Repr

abbrev Code := Prog Lock

/-- The order of the locks. `child` is only ever tried. -/
def Lock.rank : Lock → Nat
  | manager | child _ => 0
  | ptyWriter _ => 1
  | turn _ => 2
  | screen _ => 3
  | master _ => 4
  | dims _ => 5

/-- The locks that nobody holds while waiting for the outside. -/
def Lock.Quick : Lock → Prop
  | screen _ | master _ | dims _ => True
  | manager | ptyWriter _ | turn _ | child _ => False

@[simp] theorem quick_screen {n : Nat} : (Lock.screen n).Quick := trivial

@[simp] theorem quick_master {n : Nat} : (Lock.master n).Quick := trivial

@[simp] theorem quick_dims {n : Nat} : (Lock.dims n).Quick := trivial

@[simp] theorem not_quick_manager : ¬ Lock.manager.Quick := id

@[simp] theorem not_quick_ptyWriter {n : Nat} : ¬ (Lock.ptyWriter n).Quick := id

@[simp] theorem not_quick_turn {n : Nat} : ¬ (Lock.turn n).Quick := id

@[simp] theorem not_quick_child {n : Nat} : ¬ (Lock.child n).Quick := id

/-! ## The tasks -/

/-- A lock held for a piece of work that waits for nothing. -/
def within (l : Lock) (p : Code) : Code := .take l <| .give l p

/-- A look at the child with `try_lock`, then `p`, or `q` if it is not to be had. -/
def look (n : Nat) (p q : Code) : Code := .attempt (.child n) (.give (.child n) p) q

/-- `persistent_reader_loop`, at most `passes` times around. Replies are written
if the writer is to be had, and deferred otherwise. -/
def persistentReaderLoop (n : Nat) : Nat → Code
  | 0 => .done
  | passes + 1 =>
    let rest := .give (.turn n) <| persistentReaderLoop n passes
    .call <| .choose .done <| .take (.turn n) <| within (.screen n) <|
      .choose rest <| .attempt (.ptyWriter n) (.call <| .give (.ptyWriter n) rest) rest

/-- `resize_pty`, with what its caller does where it fails, and where it does not. -/
def resizePty (n : Nat) (failed p : Code) : Code :=
  .take (.screen n) <| .take (.master n) <| .give (.master n) <| .give (.screen n) <| .choose failed p

/-- The last render, and `SessionEnded`. -/
def finalRender (n : Nat) : Code := within (.screen n) <| .call <| .call .done

/-- `screen_to_client`: the reader has ended, a render is pending from now on, a
render is due (and sent unless it is empty), or the client is evicted. -/
def screenToClient (n : Nat) : Nat → Code
  | 0 => .done
  | passes + 1 =>
    let rest := screenToClient n passes
    .call <| .choose .done <| .choose (finalRender n) <| .choose rest <|
      .choose (within (.screen n) <| .choose rest <| .call rest) (.call .done)

/-- `client_to_pty`: a pass is a read, or a message: `Input`, `Resize`, `Detach`
(or what does not decode), and those that take no lock. -/
def clientToPty (n : Nat) : Nat → Code
  | 0 => .done
  | passes + 1 =>
    let rest := clientToPty n passes
    .choose (.call <| .choose .done rest) <|
    .choose (.take (.ptyWriter n) <| within (.turn n) <| .call <| .give (.ptyWriter n) <| .choose .done rest) <|
    .choose (resizePty n .done <| within (.dims n) <| .choose .done rest) <|
    .choose .done rest

/-- `send_initial_state` -/
def sendInitialState (n : Nat) (p : Code) : Code :=
  .call <| within (.screen n) <| .call <| within (.screen n) p

/-- `resize_or_sigwinch` -/
def resizeOrSigwinch (n : Nat) (p : Code) : Code :=
  .choose (resizePty n .done <| within (.dims n) p) (within (.master n) <| .choose .done p)

/-- `send_error_to_client` in `setup_session`, which still has the manager. -/
def refuse : Code := .call <| .give .manager .done

/-- `setup_session`. A new session is spawned with the manager in hand; to attach
to one, the manager is given back first. -/
def setupSession (n : Nat) (p : Code) : Code :=
  .take .manager <| .choose refuse <|
    .choose (.call <| within (.master n) <| .choose refuse <| .give .manager p)
      (.give .manager <| within (.dims n) <| resizeOrSigwinch n p)

/-- `handle_session`, which waits for its relays. -/
def handleSession (n : Nat) : Code := setupSession n <| sendInitialState n <| .call .done

/-- `list`, for the sessions `ns`. -/
def list : List Nat → Code → Code
  | [], p => p
  | n :: ns, p =>
    let rest := list ns p
    within (.dims n) <| look n rest rest

/-- `handle_client`: a read, then a connection, a list or a kill. The dropping of
a killed session is a task of its own, waited for at most five seconds. -/
def handleClient (n : Nat) (ns : List Nat) : Nat → Code
  | 0 => .done
  | passes + 1 =>
    .call <| .choose .done <| .choose (handleClient n ns passes) <| .choose (handleSession n) <|
      .choose (.take .manager <| list ns <| .give .manager <| .call .done) <|
      within .manager <| .choose (.call .done) <| .call <| .call .done

/-- `Drop for Session`, one after another: the child is killed, and then its
reader joined. -/
def dropSessions : List Nat → Code
  | [] => .done
  | n :: ns =>
    let rest := dropSessions ns
    .attempt (.child n) (.call <| .give (.child n) <| .call rest) rest

/-- `take_dead_sessions`: `is_child_alive` is not asked once the reader has ended. -/
def takeDeadSessions : List Nat → Code → Code
  | [], p => p
  | n :: ns, p =>
    let rest := takeDeadSessions ns p
    let dead := look n rest rest
    .choose dead <| look n (.choose rest dead) rest

/-- The cleanup task of `run_server`, at most `passes` times around. -/
def cleanup (ns : List Nat) : Nat → Code
  | 0 => .done
  | passes + 1 =>
    let rest := cleanup ns passes
    .call <| .choose .done <| .take .manager <| takeDeadSessions ns <| .give .manager <| .choose rest <| .call rest

/-- The end of `run_server`. -/
def shutdown : Code := .call <| within .manager <| .call .done

inductive Job where
  | reader (n passes : Nat)
  | client (n : Nat) (ns : List Nat) (passes : Nat)
  | screenRelay (n passes : Nat)
  | inputRelay (n passes : Nat)
  | cleanup (ns : List Nat) (passes : Nat)
  | drop (ns : List Nat)
  | shutdown
deriving DecidableEq, Repr

def Job.code : Job → Code
  | reader n passes => persistentReaderLoop n passes
  | client n ns passes => handleClient n ns passes
  | screenRelay n passes => .choose (finalRender n) (screenToClient n passes)
  | inputRelay n passes => clientToPty n passes
  | cleanup ns passes => Locking.cleanup ns passes
  | drop ns => dropSessions ns
  | shutdown => Locking.shutdown

/-! ## Every task keeps to the order -/

/-- `p` keeps to the order of the locks, and does not wait for the outside with
a quick one in hand. -/
def Fit (held : List Lock) (p : Code) : Prop := p.Orderly Lock.rank held ∧ p.Prompt Lock.Quick held

variable {held : List Lock} {p q : Code} {n : Nat}

@[simp] theorem fit_done : Fit held .done ↔ held = [] := by simp [Fit, Prog.Orderly, Prog.Prompt]

@[simp] theorem fit_choose : Fit held (.choose p q) ↔ Fit held p ∧ Fit held q := by
  simp only [Fit, Prog.Orderly, Prog.Prompt]
  tauto

@[simp] theorem fit_call : Fit held (.call p) ↔ (∀ h ∈ held, ¬ h.Quick) ∧ Fit held p := by
  simp only [Fit, Prog.Orderly, Prog.Prompt]
  tauto

@[simp] theorem fit_take {l : Lock} :
    Fit held (.take l p) ↔ (∀ h ∈ held, h.rank < l.rank) ∧ ((∃ h ∈ held, h.Quick) → l.Quick) ∧ Fit (l :: held) p := by
  simp only [Fit, Prog.Orderly, Prog.Prompt]
  tauto

@[simp] theorem fit_give {l : Lock} : Fit held (.give l p) ↔ l ∈ held ∧ Fit (held.erase l) p := by
  simp only [Fit, Prog.Orderly, Prog.Prompt]
  tauto

@[simp] theorem fit_attempt {l : Lock} : Fit held (.attempt l p q) ↔ Fit (l :: held) p ∧ Fit held q := by
  simp only [Fit, Prog.Orderly, Prog.Prompt]
  tauto

/-- No quick lock is in hand. -/
def Light (held : List Lock) : Prop := ∀ h ∈ held, ¬ h.Quick

theorem light_nil : Light [] := fun _ h => absurd h List.not_mem_nil

theorem light_manager : Light [.manager] := fun _ h => List.mem_singleton.1 h ▸ id

theorem light_turn : Light [.turn n] := fun _ h => List.mem_singleton.1 h ▸ id

/-- The quick locks are the last to be taken. -/
theorem Lock.rank_lt {h l : Lock} (hh : ¬ h.Quick) (hl : l.Quick) : h.rank < l.rank := by
  cases l <;> cases h <;> simp_all [Quick, rank]

theorem within_fit {l : Lock} (hheld : Light held) (hl : l.Quick) : Fit held (within l p) ↔ Fit held p := by
  have hbelow : ∀ h ∈ held, h.rank < l.rank := fun h hh => Lock.rank_lt (hheld h hh) hl
  simp only [within, fit_take, fit_give, List.mem_cons_self, List.erase_cons_head, true_and]
  exact ⟨fun h => h.2.2, fun h => ⟨hbelow, fun _ => hl, h⟩⟩

theorem within_turn_fit : Fit [.ptyWriter n] (within (.turn n) p) ↔ Fit [.ptyWriter n] p := by
  simp [within, Lock.rank]

theorem look_fit : Fit held (look n p q) ↔ Fit held p ∧ Fit held q := by simp [look]

theorem persistentReaderLoop_fit (passes : Nat) : Fit [] (persistentReaderLoop n passes) := by
  induction passes with
  | zero => simp [persistentReaderLoop]
  | succ passes ih => simp [persistentReaderLoop, within_fit light_turn, ih]

theorem resizePty_fit : Fit [] (resizePty n p q) ↔ Fit [] p ∧ Fit [] q := by
  simp [resizePty, Lock.rank]

theorem finalRender_fit : Fit [] (finalRender n) := by simp [finalRender, within_fit light_nil]

theorem screenToClient_fit (passes : Nat) : Fit [] (screenToClient n passes) := by
  induction passes with
  | zero => simp [screenToClient]
  | succ passes ih => simp [screenToClient, finalRender_fit, within_fit light_nil, ih]

theorem clientToPty_fit (passes : Nat) : Fit [] (clientToPty n passes) := by
  induction passes with
  | zero => simp [clientToPty]
  | succ passes ih => simp [clientToPty, resizePty_fit, within_fit light_nil, within_turn_fit, ih]

theorem setupSession_fit (hp : Fit [] p) : Fit [] (setupSession n p) := by
  simp [setupSession, refuse, resizeOrSigwinch, resizePty_fit, within_fit light_nil, within_fit light_manager, hp, Lock.rank]

theorem handleSession_fit : Fit [] (handleSession n) :=
  setupSession_fit (by simp [sendInitialState, within_fit light_nil])

theorem list_fit (ns : List Nat) (hp : Fit [.manager] p) : Fit [.manager] (list ns p) := by
  induction ns with
  | nil => exact hp
  | cons n ns ih => simp [list, within_fit light_manager, look_fit, ih]

theorem handleClient_fit (ns : List Nat) (passes : Nat) : Fit [] (handleClient n ns passes) := by
  have hlist : Fit [.manager] (list ns <| .give .manager <| .call .done) := list_fit ns (by simp)
  induction passes with
  | zero => simp [handleClient]
  | succ passes ih => simp [handleClient, handleSession_fit, within, hlist, ih]

theorem dropSessions_fit (ns : List Nat) : Fit [] (dropSessions ns) := by
  induction ns with
  | nil => simp [dropSessions]
  | cons n ns ih => simp [dropSessions, ih]

theorem takeDeadSessions_fit (ns : List Nat) (hp : Fit [.manager] p) : Fit [.manager] (takeDeadSessions ns p) := by
  induction ns with
  | nil => exact hp
  | cons n ns ih => simp [takeDeadSessions, look_fit, ih]

theorem cleanup_fit (ns : List Nat) (passes : Nat) : Fit [] (cleanup ns passes) := by
  induction passes with
  | zero => simp [cleanup]
  | succ passes ih =>
    have hdead : Fit [.manager] (takeDeadSessions ns <| .give .manager <| .choose (cleanup ns passes) (.call (cleanup ns passes))) :=
      takeDeadSessions_fit ns (by simp [ih])
    simp [cleanup, hdead]

theorem Job.fit (j : Job) : Fit [] j.code := by
  cases j with
  | reader n passes => exact persistentReaderLoop_fit passes
  | client n ns passes => exact handleClient_fit ns passes
  | screenRelay n passes => exact fit_choose.2 ⟨finalRender_fit, screenToClient_fit passes⟩
  | inputRelay n passes => exact clientToPty_fit passes
  | cleanup ns passes => exact cleanup_fit ns passes
  | drop ns => exact dropSessions_fit ns
  | shutdown => simp [code, Locking.shutdown, within]

/-! ## Runs of the server -/

/-- The server's tasks, started in any number and at any time. -/
def ServerRun (steps : List (SystemStep Lock)) : Prop := ∀ p, .spawn p ∈ steps → ∃ j : Job, p = j.code

variable {steps : List (SystemStep Lock)} {s : List (Thread Lock)} {t : Thread Lock}

theorem ServerRun.fit (h : ServerRun steps) : ∀ p, .spawn p ∈ steps → Fit [] p := by
  intro p hp
  obtain ⟨j, rfl⟩ := h p hp
  exact j.fit

/-- However the tasks interleave, no task waits for itself by way of others. Who
waits for a lock waits for a task that can take a step; if the lock is that of a
screen, a master or dimensions, this task does not wait for the outside either. -/
theorem no_deadlock (hserver : ServerRun steps) (hrun : run [] steps = some s) (ht : t ∈ s) :
    ¬ Relation.TransGen (Awaits s) t t ∧ ∀ l p, t.prog = .take l p → ¬ Free s l →
      ∃ t' ∈ s, Relation.TransGen (Awaits s) t t' ∧ (∀ left, (t'.next s left).isSome = true) ∧
        (l.Quick → ∀ q, t'.prog ≠ .call q) := run_waits hserver.fit hrun ht

/-- Input is written while the reader is at work: the relay has the writer and
waits for the reader, which only tries the writer. -/
theorem no_deadlock_reader :
    let steps := [.spawn (Job.reader 0 1).code, .spawn (Job.inputRelay 0 1).code, .run 0 true, .run 0 false, .run 0 true,
      .run 1 false, .run 1 true, .run 1 true]
    ∃ s, run [] steps = some s ∧ ∃ t ∈ s, t.held = [.ptyWriter 0] ∧ ∃ t' ∈ s, Relation.TransGen (Awaits s) t t' ∧
      ∀ left, (t'.next s left).isSome = true := by
  have hserver : ServerRun [.spawn (Job.reader 0 1).code, .spawn (Job.inputRelay 0 1).code, .run 0 true, .run 0 false,
      .run 0 true, .run 1 false, .run 1 true, .run 1 true] := by
    intro p hp
    simp only [List.mem_cons, SystemStep.spawn.injEq, reduceCtorEq, List.not_mem_nil, or_false] at hp
    exact hp.elim (fun h => ⟨_, h⟩) fun h => ⟨_, h⟩
  refine ⟨_, rfl, _, List.mem_cons_of_mem _ (List.mem_singleton.2 rfl), rfl, ?_⟩
  obtain ⟨t', ht', hwaits, hstep, -⟩ :=
    (no_deadlock hserver rfl (List.mem_cons_of_mem _ (List.mem_singleton.2 rfl))).2 (.turn 0) _ rfl (by decide)
  exact ⟨t', ht', hwaits, hstep⟩

end Locking

end Retach
