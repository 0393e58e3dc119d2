import Retach.Safety
import Retach.Registry
/-!
# Resizing a session (`server/session_setup.rs`, `client_to_pty` in `server/session_relay.rs`)

A session's size is kept three times: by the PTY, by the screen and in `dims`.
`resize_pty` changes the first two under both their locks, `dims` follows in a
step of its own, and a client that reattaches reads `dims` first: if they are its
own, it resizes only the PTY, for the sake of SIGWINCH.

An evicted client's resize goes on where it is. A client whose connection has
ended is one that resizes nothing more.
-/

open Checked Runs

namespace Retach

/-- Where a client's resize is. -/
inductive ResizeTask where
  | idle
  | /-- before `resize_pty` -/ resizing (cols rows : UInt16)
  | /-- before its update of `dims` -/ storing (cols rows : UInt16)
  | /-- before it resizes only the PTY -/ signalling (cols rows : UInt16)
deriving DecidableEq, Repr

/-- What the clients of a session share; `master` is the size of the PTY. -/
structure SharedSizes where
  master : TerminalSize
  screen : Screen
  dims : TerminalSize
  clients : List ResizeTask := []

/-- `ok`: the PTY takes its size. -/
inductive ResizeStep where
  | /-- the reader -/ output (es : List Event)
  | /-- the client that made the session -/ connect
  | /-- `setup_session` reads `dims` -/ reattach (cols rows : UInt16)
  | /-- a Resize message -/ message (i : Nat) (cols rows : UInt16)
  | resizePty (i : Nat) (ok : Bool)
  | storeDims (i : Nat)
  | sigwinch (i : Nat) (ok : Bool)
deriving DecidableEq, Repr

/-- A step of a resize that has begun. -/
def ResizeStep.Finishes : ResizeStep → Prop
  | .resizePty .. | .storeDims _ | .sigwinch .. => True
  | _ => False

namespace SharedSizes

/-- As `SessionManager::create` and `Session::new` leave them. -/
def new (cols rows : UInt16) (history : Nat) : SharedSizes :=
  let c := if cols > 0 then cols else defaultCols
  let r := if rows > 0 then rows else defaultRows
  { master := ⟨c.toNat, r.toNat⟩
    screen := .new c.toNat r.toNat history
    dims := ⟨c.toNat, r.toNat⟩ }

def setTask (st : SharedSizes) (i : Nat) (t : ResizeTask) : SharedSizes := { st with clients := st.clients.set i t }

/-- `resize_or_sigwinch` compares the sizes before it makes them valid. -/
def resizeOrSigwinch (dims : TerminalSize) (cols rows : UInt16) : ResizeTask :=
  if dims.cols ≠ cols.toNat ∨ dims.rows ≠ rows.toNat then .resizing cols rows else .signalling cols rows

/-- `resize_pty`. -/
def resizePty (st : SharedSizes) (cols rows : UInt16) : Option SharedSizes := do
  let d := sanitizeDimensions cols.toNat rows.toNat
  let screen ← st.screen.resize d.cols d.rows
  return { st with master := d, screen }

variable (W : UnicodeWidth)

def step (st : SharedSizes) : ResizeStep → Option SharedSizes
  | .output es => (st.screen.process W es).map fun screen => { st with screen }
  | .connect => some { st with clients := st.clients ++ [.idle] }
  | .reattach cols rows => some { st with clients := st.clients ++ [resizeOrSigwinch st.dims cols rows] }
  | .message i cols rows =>
    match st.clients[i]? with
    | some .idle => some (st.setTask i (.resizing cols rows))
    | _ => none
  | .resizePty i ok =>
    match st.clients[i]? with
    | some (.resizing cols rows) =>
      if ok then (st.resizePty cols rows).map (·.setTask i (.storing cols rows)) else some (st.setTask i .idle)
    | _ => none
  | .storeDims i =>
    match st.clients[i]? with
    | some (.storing cols rows) => some { st.setTask i .idle with dims := sanitizeDimensions cols.toNat rows.toNat }
    | _ => none
  | .sigwinch i ok =>
    match st.clients[i]? with
    | some (.signalling cols rows) =>
      some { st.setTask i .idle with
        master := if ok then sanitizeDimensions cols.toNat rows.toNat else st.master }
    | _ => none

def run (st : SharedSizes) (steps : List ResizeStep) : Option SharedSizes := steps.foldlM (step W) st

def screenSize (st : SharedSizes) : TerminalSize := ⟨st.screen.grid.cols, st.screen.grid.rows⟩

/-- No resize is in flight. -/
def Quiet (st : SharedSizes) : Prop := ∀ t ∈ st.clients, t = .idle

def Agrees (st : SharedSizes) : Prop := st.master = st.screenSize ∧ st.dims = st.screenSize

/-- Client `i` is yet to set `dims` to the screen's size. -/
def WillStore (st : SharedSizes) (i : Nat) : Prop :=
  ∃ cols rows, st.clients[i]? = some (.storing cols rows) ∧ sanitizeDimensions cols.toNat rows.toNat = st.screenSize

/-- `dims` are updated only while some client is yet to set them to the screen's
size, and the PTY alone gets no other size. -/
def InOrder (st : SharedSizes) : ResizeStep → Prop
  | .storeDims _ => ∃ j, st.WillStore j
  | .sigwinch i true =>
    ∀ cols rows, st.clients[i]? = some (.signalling cols rows) → sanitizeDimensions cols.toNat rows.toNat = st.screenSize
  | _ => True

/-! ## The sizes after a step -/

end SharedSizes

theorem Screen.resize_size {s : Screen} (h : s.Inv) {cols rows : Nat} (hcols : cols ≤ 65535) (hrows : rows ≤ 65535) :
    ∃ s', s.resize cols rows = some s' ∧ s'.Inv ∧ s'.grid.cols = max cols 1 ∧ s'.grid.rows = max rows 1 :=
  ⟨_, resize_eq h cols hrows, (s.resized_effect hcols hrows).inv h, rfl, rfl⟩

theorem Screen.process_size {W : UnicodeWidth} {s s' : Screen} {es : List Event} (h : s.Inv)
    (hrun : s.process W es = some s') : s'.Inv ∧ s'.grid.cols = s.grid.cols ∧ s'.grid.rows = s.grid.rows :=
  have hsteps := process_steps W h hrun
  ⟨steps_inv hsteps h, steps_dims (by simp) hsteps⟩

namespace SharedSizes

variable {W : UnicodeWidth} {st st' : SharedSizes}

theorem resizePty_eq (h : st.screen.Inv) (cols rows : UInt16) : ∃ screen, screen.Inv ∧
    st.resizePty cols rows = some { st with master := sanitizeDimensions cols.toNat rows.toNat, screen } ∧
    (⟨screen.grid.cols, screen.grid.rows⟩ : TerminalSize) = sanitizeDimensions cols.toNat rows.toNat := by
  have hcols := cols.toNat_lt
  have hrows := rows.toNat_lt
  have hcols' : max cols.toNat 1 ≤ 65535 := by omega
  have hrows' : max rows.toNat 1 ≤ 65535 := by omega
  obtain ⟨screen, hres, hinv, hc, hr⟩ := Screen.resize_size h hcols' hrows'
  refine ⟨screen, hinv, ?_, ?_⟩
  · simp only [resizePty, sanitizeDimensions, hres, Option.bind_eq_bind, Option.bind_some]
    rfl
  · rw [hc, hr, sanitizeDimensions]
    simp

/-- What a step does to the sizes, and to the task of the client it is about. -/
theorem step_cases {a : ResizeStep} (h : st.screen.Inv) (hstep : st.step W a = some st') :
    (∃ screen : Screen, screen.Inv ∧ screen.grid.cols = st.screen.grid.cols ∧ screen.grid.rows = st.screen.grid.rows ∧
      st' = { st with screen }) ∨
    (∃ t, st' = { st with clients := st.clients ++ [t] }) ∨
    (∃ i cols rows, st.clients[i]? = some .idle ∧ st' = st.setTask i (.resizing cols rows)) ∨
    (∃ i cols rows screen, st.clients[i]? = some (.resizing cols rows) ∧ screen.Inv ∧
      (⟨screen.grid.cols, screen.grid.rows⟩ : TerminalSize) = sanitizeDimensions cols.toNat rows.toNat ∧
      st' = { st.setTask i (.storing cols rows) with master := sanitizeDimensions cols.toNat rows.toNat, screen }) ∨
    (∃ i cols rows, a = .storeDims i ∧ st.clients[i]? = some (.storing cols rows) ∧
      st' = { st.setTask i .idle with dims := sanitizeDimensions cols.toNat rows.toNat }) ∨
    (∃ i cols rows, a = .sigwinch i true ∧ st.clients[i]? = some (.signalling cols rows) ∧
      st' = { st.setTask i .idle with master := sanitizeDimensions cols.toNat rows.toNat }) ∨
    (∃ i t, st.clients[i]? = some t ∧ (∀ cols rows, t ≠ .storing cols rows) ∧ st' = st.setTask i .idle) := by
  cases a with
  | output es =>
    obtain ⟨screen, hrun, rfl⟩ := Option.map_eq_some_iff.1 hstep
    obtain ⟨hinv, hcols, hrows⟩ := Screen.process_size h hrun
    exact .inl ⟨screen, hinv, hcols, hrows, rfl⟩
  | connect =>
    obtain rfl := Option.some.inj hstep
    exact .inr (.inl ⟨_, rfl⟩)
  | reattach cols rows =>
    obtain rfl := Option.some.inj hstep
    exact .inr (.inl ⟨_, rfl⟩)
  | message i cols rows =>
    simp only [step] at hstep
    split at hstep
    next ht =>
      obtain rfl := Option.some.inj hstep
      exact .inr (.inr (.inl ⟨i, cols, rows, ht, rfl⟩))
    next => cases hstep
  | resizePty i ok =>
    simp only [step] at hstep
    split at hstep
    next cols rows ht =>
      split at hstep
      · obtain ⟨screen, hinv, hres, hsize⟩ := resizePty_eq h cols rows
        rw [hres] at hstep
        obtain rfl := Option.some.inj hstep
        exact .inr (.inr (.inr (.inl ⟨i, cols, rows, screen, ht, hinv, hsize, rfl⟩)))
      · obtain rfl := Option.some.inj hstep
        exact .inr (.inr (.inr (.inr (.inr (.inr ⟨i, _, ht, by simp, rfl⟩)))))
    next => cases hstep
  | storeDims i =>
    simp only [step] at hstep
    split at hstep
    next cols rows ht =>
      obtain rfl := Option.some.inj hstep
      exact .inr (.inr (.inr (.inr (.inl ⟨i, cols, rows, rfl, ht, rfl⟩))))
    next => cases hstep
  | sigwinch i ok =>
    simp only [step] at hstep
    split at hstep
    next cols rows ht =>
      obtain rfl := Option.some.inj hstep
      cases ok with
      | true => exact .inr (.inr (.inr (.inr (.inr (.inl ⟨i, cols, rows, rfl, ht, rfl⟩)))))
      | false => exact .inr (.inr (.inr (.inr (.inr (.inr ⟨i, _, ht, by simp, rfl⟩)))))
    next => cases hstep

/-! ## Resizes in order -/

/-- The PTY has the screen's size, and `dims` have it or will. -/
structure Inv (st : SharedSizes) : Prop where
  screen : st.screen.Inv
  master : st.master = st.screenSize
  dims : st.dims = st.screenSize ∨ ∃ i, st.WillStore i

theorem inv_new (cols rows : UInt16) (history : Nat) : (new cols rows history).Inv := by
  have hsize (n m : UInt16) (hm : 0 < m) : max (if n > 0 then n else m).toNat 1 = (if n > 0 then n else m).toNat := by
    refine Nat.max_eq_left ?_
    split
    next hn => exact UInt16.lt_iff_toNat_lt.1 hn
    next => exact UInt16.lt_iff_toNat_lt.1 hm
  have hagree : (new cols rows history).screenSize = (new cols rows history).dims := by
    simp only [new, screenSize, Screen.new, Grid.new, sanitizeDimensions]
    rw [hsize cols defaultCols (by decide), hsize rows defaultRows (by decide)]
  have hcols := (if cols > 0 then cols else defaultCols).toNat_lt
  have hrows := (if rows > 0 then rows else defaultRows).toNat_lt
  exact ⟨Screen.new_inv history (by omega) (by omega), hagree.symm, .inl hagree.symm⟩

theorem getElem?_setTask (st : SharedSizes) {i : Nat} {t : ResizeTask} (ht : st.clients[i]? = some t) (t' : ResizeTask)
    (j : Nat) : (st.setTask i t').clients[j]? = if i = j then some t' else st.clients[j]? := by
  have hlt := (List.getElem?_eq_some_iff.1 ht).1
  simp only [setTask, List.getElem?_set, hlt, if_true]

/-- A change to a task other than an update of `dims` leaves the updates. -/
theorem WillStore.setTask {i j : Nat} {t t' : ResizeTask} (h : st.WillStore j) (ht : st.clients[i]? = some t)
    (hother : ∀ cols rows, t ≠ .storing cols rows) : (st.setTask i t').WillStore j := by
  obtain ⟨cols, rows, hj, hsize⟩ := h
  refine ⟨cols, rows, ?_, hsize⟩
  rw [getElem?_setTask st ht]
  split
  next hij =>
    subst hij
    rw [ht] at hj
    exact absurd (Option.some.inj hj) (hother cols rows)
  next => exact hj

theorem Inv.step {a : ResizeStep} (h : st.Inv) (ha : st.InOrder a) (hstep : st.step W a = some st') : st'.Inv := by
  rcases step_cases h.screen hstep with ⟨screen, hinv, hcols, hrows, rfl⟩ | ⟨t, rfl⟩ | ⟨i, cols, rows, ht, rfl⟩ |
    ⟨i, cols, rows, screen, ht, hinv, hsize, rfl⟩ | ⟨i, cols, rows, rfl, ht, rfl⟩ | ⟨i, cols, rows, rfl, ht, rfl⟩ |
    ⟨i, t, ht, hother, rfl⟩
  · have hsize : ({ st with screen } : SharedSizes).screenSize = st.screenSize := by simp only [screenSize, hcols, hrows]
    refine ⟨hinv, hsize ▸ h.master, ?_⟩
    rcases h.dims with hdims | ⟨j, c, r, hj, hjsize⟩
    · exact .inl (hsize ▸ hdims)
    · exact .inr ⟨j, c, r, hj, hsize ▸ hjsize⟩
  · refine ⟨h.screen, h.master, h.dims.imp_right fun ⟨j, c, r, hj, hjsize⟩ => ⟨j, c, r, ?_, hjsize⟩⟩
    have hlt := (List.getElem?_eq_some_iff.1 hj).1
    exact (List.getElem?_append_left hlt).trans hj
  · exact ⟨h.screen, h.master, h.dims.imp_right fun ⟨j, hj⟩ => ⟨j, hj.setTask ht (by simp)⟩⟩
  · -- the client that resized will update `dims`
    refine ⟨hinv, hsize.symm, .inr ⟨i, cols, rows, ?_, hsize.symm⟩⟩
    exact (getElem?_setTask st ht _ i).trans (if_pos rfl)
  · -- an update of `dims`: it is right, or another one is still to come
    refine ⟨h.screen, h.master, ?_⟩
    obtain ⟨j, c, r, hj, hsize⟩ := ha
    by_cases hij : i = j
    · subst hij
      rw [ht] at hj
      cases hj
      exact .inl hsize
    · exact .inr ⟨j, c, r, (getElem?_setTask st ht _ j).trans ((if_neg hij).trans hj), hsize⟩
  · exact ⟨h.screen, ha cols rows ht, h.dims.imp_right fun ⟨j, hj⟩ => ⟨j, hj.setTask ht (by simp)⟩⟩
  · exact ⟨h.screen, h.master, h.dims.imp_right fun ⟨j, hj⟩ => ⟨j, hj.setTask ht hother⟩⟩

theorem Inv.agrees (h : st.Inv) (hquiet : st.Quiet) : st.Agrees := by
  refine ⟨h.master, h.dims.resolve_right ?_⟩
  rintro ⟨i, cols, rows, hi, -⟩
  cases hquiet _ (List.mem_of_getElem? hi)

/-! ## Resizes out of order -/

/-- A wrong size that no update of `dims` in flight puts right. -/
def Broken (st : SharedSizes) : Prop :=
  st.master ≠ st.screenSize ∨ st.dims ≠ st.screenSize ∧ ∀ i, ¬ st.WillStore i

theorem WillStore.of_setTask_idle {i j : Nat} {t : ResizeTask} (ht : st.clients[i]? = some t)
    (h : (st.setTask i .idle).WillStore j) : st.WillStore j := by
  obtain ⟨cols, rows, hj, hsize⟩ := h
  rw [getElem?_setTask st ht] at hj
  split at hj
  · cases hj
  · exact ⟨cols, rows, hj, hsize⟩

theorem Broken.setTask_idle (h : st.Broken) {i : Nat} {t : ResizeTask} (ht : st.clients[i]? = some t) :
    (st.setTask i .idle).Broken :=
  h.imp id fun ⟨hdims, hnone⟩ => ⟨hdims, fun j hj => hnone j (hj.of_setTask_idle ht)⟩

/-- A wrong size in `dims` that is set by the last update. -/
theorem broken_store {i : Nat} {cols rows : UInt16} (ht : st.clients[i]? = some (.storing cols rows))
    (hnone : ∀ j, ¬ st.WillStore j) :
    ({ st.setTask i .idle with dims := sanitizeDimensions cols.toNat rows.toNat } : SharedSizes).Broken :=
  .inr ⟨fun hsize => hnone i ⟨cols, rows, ht, hsize⟩, fun j hj => hnone j (WillStore.of_setTask_idle ht hj)⟩

/-- The client's resize ends, the PTY taking no size any more. -/
theorem Broken.finish (h : st.Broken) {i : Nat} (hi : i < st.clients.length) : ∃ rest v,
    (∀ b ∈ rest, ResizeStep.Finishes b) ∧ run W st rest = some v ∧ v.Broken ∧ v.clients = st.clients.set i .idle := by
  have ht : st.clients[i]? = some st.clients[i] := List.getElem?_eq_getElem hi
  cases htask : st.clients[i] with
  | idle =>
    refine ⟨[], st, by simp, rfl, h, ?_⟩
    rw [← htask, List.set_getElem_self]
  | resizing cols rows =>
    rw [htask] at ht
    refine ⟨[.resizePty i false], st.setTask i .idle, by simp [ResizeStep.Finishes], ?_, h.setTask_idle ht, rfl⟩
    simp [run, step, ht]
  | storing cols rows =>
    rw [htask] at ht
    refine ⟨[.storeDims i], { st.setTask i .idle with dims := sanitizeDimensions cols.toNat rows.toNat },
      by simp [ResizeStep.Finishes], ?_, ?_, rfl⟩
    · simp [run, step, ht]
    · rcases h with hmaster | ⟨-, hnone⟩
      · exact .inl hmaster
      · exact broken_store ht hnone
  | signalling cols rows =>
    rw [htask] at ht
    refine ⟨[.sigwinch i false], st.setTask i .idle, by simp [ResizeStep.Finishes], ?_, h.setTask_idle ht, rfl⟩
    simp [run, step, ht]
    rfl

theorem Broken.finish_all (h : st.Broken) {n : Nat} (hn : n ≤ st.clients.length) : ∃ rest v,
    (∀ b ∈ rest, ResizeStep.Finishes b) ∧ run W st rest = some v ∧ v.Broken ∧ v.clients.length = st.clients.length ∧
      ∀ j < n, v.clients[j]? = some .idle := by
  induction n with
  | zero => exact ⟨[], st, by simp, rfl, h, rfl, fun _ hj => absurd hj (Nat.not_lt_zero _)⟩
  | succ n ih =>
    obtain ⟨rest, u, hrest, hu, hbroken, hlen, hidle⟩ := ih (Nat.le_of_succ_le hn)
    have hlt : n < u.clients.length := by omega
    obtain ⟨last, v, hlast, hv, hbroken, hclients⟩ := hbroken.finish (W := W) hlt
    refine ⟨rest ++ last, v, fun b hb => (List.mem_append.1 hb).elim (hrest b) (hlast b), ?_, hbroken, ?_, fun j hj => ?_⟩
    · unfold run at hu hv ⊢
      rw [List.foldlM_append, hu]
      exact hv
    · rw [hclients, List.length_set, hlen]
    · rw [hclients, List.getElem?_set]
      split
      next hjn => simp
      next hjn => exact hidle j (by omega)

theorem Broken.ends (h : st.Broken) : ∃ rest v,
    (∀ b ∈ rest, ResizeStep.Finishes b) ∧ run W st rest = some v ∧ v.Quiet ∧ ¬ v.Agrees := by
  obtain ⟨rest, v, hrest, hv, hbroken, hlen, hidle⟩ := h.finish_all (W := W) (Nat.le_refl _)
  refine ⟨rest, v, hrest, hv, fun t ht => ?_, fun hagrees => ?_⟩
  · obtain ⟨j, hj⟩ := List.getElem?_of_mem ht
    have hlt := (List.getElem?_eq_some_iff.1 hj).1
    rw [hidle j (by omega)] at hj
    exact (Option.some.inj hj).symm
  · rcases hbroken with hmaster | ⟨hdims, -⟩
    · exact hmaster hagrees.1
    · exact hdims hagrees.2

theorem broken_of_step {a : ResizeStep} (ha : ¬ st.InOrder a) (hstep : st.step W a = some st') : st'.Broken := by
  cases a with
  | storeDims i =>
    simp only [step] at hstep
    split at hstep
    next cols rows ht =>
      obtain rfl := Option.some.inj hstep
      exact broken_store ht fun j hj => ha ⟨j, hj⟩
    next => cases hstep
  | sigwinch i ok =>
    cases ok with
    | false => exact absurd trivial ha
    | true =>
      simp only [InOrder, not_forall] at ha
      obtain ⟨cols, rows, ht, hsize⟩ := ha
      simp only [step, ht, if_true] at hstep
      obtain rfl := Option.some.inj hstep
      exact .inl hsize
  | _ => exact absurd trivial ha

/-! ## Runs -/

/-- As long as `dims` and the bare PTY are set in order, the sizes agree
whenever no resize is in flight; once they are not, finishing what is in flight
may leave them in disagreement. -/
theorem run_agrees {cols rows : UInt16} {history : Nat} {steps : List ResizeStep}
    (horder : Along (step W) InOrder (new cols rows history) steps) (hrun : run W (new cols rows history) steps = some st) :
    (st.Quiet → st.Agrees) ∧ ∀ a st', ¬ st.InOrder a → st.step W a = some st' →
      ∃ rest v, (∀ b ∈ rest, ResizeStep.Finishes b) ∧ run W st' rest = some v ∧ v.Quiet ∧ ¬ v.Agrees := by
  have hinv : st.Inv := horder.keeps (fun _ _ _ h ha hstep => h.step ha hstep) (inv_new cols rows history) hrun
  exact ⟨hinv.agrees, fun a st' ha hstep => (broken_of_step ha hstep).ends⟩

theorem run_agrees_sample : ∃ st, run .sample (new 2 1 0) [.connect, .message 0 3 1, .resizePty 0 true, .storeDims 0] = some st ∧
    st.Agrees := by
  have horder : Along (step .sample) InOrder (new 2 1 0) [.connect, .message 0 3 1, .resizePty 0 true, .storeDims 0] :=
    .cons trivial rfl (.cons trivial rfl (.cons trivial rfl (.cons ⟨0, 3, 1, rfl, rfl⟩ rfl trivial)))
  exact ⟨_, rfl, (run_agrees horder rfl).1 (by unfold Quiet; decide)⟩

/-- A resize of the first client is overtaken by that of a second one, which
reattaches: the screen has the second one's size, `dims` the first one's. -/
theorem resizes_cross : ∃ st, run .sample (new 2 1 0) [.connect, .message 0 3 1, .resizePty 0 true, .reattach 4 1,
    .resizePty 1 true, .storeDims 1, .storeDims 0] = some st ∧ st.Quiet ∧ st.screenSize = ⟨4, 1⟩ ∧ st.dims = ⟨3, 1⟩ ∧
      ¬ st.Agrees := by
  refine ⟨_, rfl, by unfold Quiet; decide, rfl, rfl, ?_⟩
  intro hagrees
  exact absurd hagrees.2 (by decide)

end SharedSizes

end Retach
