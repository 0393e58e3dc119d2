import Retach.Lib.Runs
/-!
# Attaching and detaching clients (`session.rs`)

`Session::connect` runs under the manager's lock, the drop of a `ClientGuard`
does not: a guard reads its eviction channel and, in a second step, clears
`has_client`. Connects in steps of their own can run between the two.
-/

open Runs

namespace Retach

/-- Where the drop of a guard is. -/
inductive GuardState where
  | held
  | /-- read that its client was not evicted, and has yet to clear the flag -/ clearing
  | dropped
deriving DecidableEq, Repr

structure ClientGuard where
  /-- The value in the eviction channel: `true` until the client is evicted. -/
  evictRx : Bool := true
  state : GuardState := .held
deriving DecidableEq, Repr

/-- Where `connect` is. -/
inductive ConnectState where
  | idle
  | /-- set the flag -/ stored
  | /-- and evicted the previous client -/ evicted
deriving DecidableEq, Repr

/-- `guards` are in the order of their connections. Between connects,
`evict_tx` is the channel of the last one. -/
structure Session where
  hasClient : Bool := false
  connect : ConnectState := .idle
  guards : List ClientGuard := []
deriving DecidableEq, Repr

/-- The atomic steps of connects and of the drops of guards. -/
inductive SessionStep where
  | storeTrue | sendFalse | newChannel
  | readFlag (i : Nat)
  | storeFalse (i : Nat)
deriving DecidableEq, Repr

namespace Session

/-- Without a previous client nothing is sent. A value sent after the guard is
gone is lost in the code and read by nobody here. -/
def evictLast (guards : List ClientGuard) : List ClientGuard :=
  guards.modify (guards.length - 1) fun g => { g with evictRx := false }

def step (s : Session) : SessionStep → Option Session
  | .storeTrue => if s.connect = .idle then some { s with hasClient := true, connect := .stored } else none
  | .sendFalse =>
    if s.connect = .stored then some { s with guards := evictLast s.guards, connect := .evicted } else none
  | .newChannel => if s.connect = .evicted then some { s with guards := s.guards ++ [{}], connect := .idle } else none
  | .readFlag i =>
    match s.guards[i]? with
    | some ⟨rx, .held⟩ => some { s with guards := s.guards.set i ⟨rx, if rx then .clearing else .dropped⟩ }
    | _ => none
  | .storeFalse i =>
    match s.guards[i]? with
    | some ⟨rx, .clearing⟩ => some { s with hasClient := false, guards := s.guards.set i ⟨rx, .dropped⟩ }
    | _ => none

def run (s : Session) (steps : List SessionStep) : Option Session := steps.foldlM step s

/-- Client `i` has connected, is not evicted and has not begun to drop its
guard. -/
def Attached (s : Session) (i : Nat) : Prop := s.guards[i]? = some ⟨true, .held⟩

/-- A guard clears the flag only while nobody is attached or connecting. -/
def ClearsAlone (s : Session) : SessionStep → Prop
  | .storeFalse _ => s.connect = .idle ∧ ∀ j, ¬ s.Attached j
  | _ => True

/-! ## What the steps do -/

theorem step_cases {s s' : Session} {a : SessionStep} (h : s.step a = some s') :
    (a = .storeTrue ∧ s' = { s with hasClient := true, connect := .stored }) ∨
    (a = .sendFalse ∧ s.connect = .stored ∧ s' = { s with guards := evictLast s.guards, connect := .evicted }) ∨
    (a = .newChannel ∧ s.connect = .evicted ∧ s' = { s with guards := s.guards ++ [{}], connect := .idle }) ∨
    (∃ i rx, a = .readFlag i ∧ s.guards[i]? = some ⟨rx, .held⟩ ∧
      s' = { s with guards := s.guards.set i ⟨rx, if rx then .clearing else .dropped⟩ }) ∨
    (∃ i rx, a = .storeFalse i ∧ s.guards[i]? = some ⟨rx, .clearing⟩ ∧
      s' = { s with hasClient := false, guards := s.guards.set i ⟨rx, .dropped⟩ }) := by
  cases a with
  | storeTrue =>
    simp only [step] at h
    split at h
    · exact .inl ⟨rfl, by simpa using h.symm⟩
    · cases h
  | sendFalse =>
    simp only [step] at h
    split at h
    next hc => exact .inr (.inl ⟨rfl, hc, by simpa using h.symm⟩)
    next => cases h
  | newChannel =>
    simp only [step] at h
    split at h
    next hc => exact .inr (.inr (.inl ⟨rfl, hc, by simpa using h.symm⟩))
    next => cases h
  | readFlag i =>
    simp only [step] at h
    split at h
    next rx hg => exact .inr (.inr (.inr (.inl ⟨i, rx, rfl, hg, by simpa using h.symm⟩)))
    next => cases h
  | storeFalse i =>
    simp only [step] at h
    split at h
    next rx hg => exact .inr (.inr (.inr (.inr ⟨i, rx, rfl, hg, by simpa using h.symm⟩)))
    next => cases h

/-- A guard changed to one that is not held detaches nobody else. -/
theorem attached_of_set {guards : List ClientGuard} {i j : Nat} {g : ClientGuard} (hg : g.state ≠ .held)
    (h : (guards.set i g)[j]? = some ⟨true, .held⟩) : guards[j]? = some ⟨true, .held⟩ := by
  rw [List.getElem?_set] at h
  split at h
  · split at h
    · cases h
      exact absurd rfl hg
    · cases h
  · exact h

/-! ## The flag of an attached client -/

/-- The flag is set while somebody is attached or connecting. -/
def FlagSet (s : Session) : Prop := (s.connect ≠ .idle ∨ ∃ i, s.Attached i) → s.hasClient = true

theorem step_flagSet {s s' : Session} {a : SessionStep} (hs : s.FlagSet) (ha : s.ClearsAlone a)
    (h : s.step a = some s') : s'.FlagSet := by
  rcases step_cases h with ⟨-, rfl⟩ | ⟨-, hc, rfl⟩ | ⟨-, hc, rfl⟩ | ⟨i, rx, -, hg, rfl⟩ | ⟨i, rx, rfl, hg, rfl⟩
  · exact fun _ => rfl
  · exact fun _ => hs (.inl (by simp [hc]))
  · exact fun _ => hs (.inl (by simp [hc]))
  · have hheld : (if rx then GuardState.clearing else .dropped) ≠ .held := by split <;> simp
    exact fun hp => hs (hp.imp_right fun ⟨j, hj⟩ => ⟨j, attached_of_set hheld hj⟩)
  · rintro (hp | ⟨j, hj⟩)
    · exact absurd ha.1 hp
    · exact absurd (attached_of_set (by simp) hj) (ha.2 j)

/-! ## The flag without clients -/

/-- Between connects the flag is set only as long as the last guard, which
nobody evicted, is there to clear it. -/
def FlagOwned (s : Session) : Prop :=
  s.connect = .idle → s.hasClient = true →
    ∃ g, s.guards[s.guards.length - 1]? = some g ∧ g.evictRx = true ∧ g.state ≠ .dropped

theorem step_flagOwned {s s' : Session} {a : SessionStep} (hs : s.FlagOwned) (h : s.step a = some s') : s'.FlagOwned := by
  rcases step_cases h with ⟨-, rfl⟩ | ⟨-, hc, rfl⟩ | ⟨-, hc, rfl⟩ | ⟨i, rx, -, hg, rfl⟩ | ⟨i, rx, rfl, hg, rfl⟩
  · exact fun hidle => by cases hidle
  · exact fun hidle => by cases hidle
  · exact fun _ _ => ⟨{}, by simp, rfl, by simp⟩
  · intro hidle hflag
    obtain ⟨g, hlast, hrx, hstate⟩ := hs hidle hflag
    simp only [List.length_set]
    by_cases hi : i = s.guards.length - 1
    · -- the last guard finds that its client was not evicted
      subst hi
      obtain rfl : g = ⟨rx, .held⟩ := by rw [hlast] at hg; exact Option.some.inj hg
      have hlt := (List.getElem?_eq_some_iff.1 hg).1
      exact ⟨_, List.getElem?_set_self hlt, hrx, by simp only at hrx; simp [hrx]⟩
    · exact ⟨g, (List.getElem?_set_ne hi).trans hlast, hrx, hstate⟩
  · exact fun _ hflag => by cases hflag

/-! ## Runs -/

/-- As long as guards clear the flag only while nobody is attached or
connecting, an attached client has the flag set; and the flag is clear once
every guard is dropped. -/
theorem run_flag {steps : List SessionStep} {s : Session} (hclears : Along step ClearsAlone {} steps)
    (hrun : run {} steps = some s) :
    (∀ i, s.Attached i → s.hasClient = true) ∧
      (s.connect = .idle → (∀ g ∈ s.guards, g.state = .dropped) → s.hasClient = false) := by
  have hset : s.FlagSet := hclears.keeps (fun _ _ _ hs ha h => step_flagSet hs ha h) (by simp [FlagSet, Attached]) hrun
  have howned : s.FlagOwned := hclears.keeps (fun _ _ _ hs _ h => step_flagOwned hs h) (by simp [FlagOwned]) hrun
  refine ⟨fun i hi => hset (.inr ⟨i, hi⟩), ?_⟩
  intro hidle hall
  cases hflag : s.hasClient with
  | false => rfl
  | true =>
    obtain ⟨g, hlast, -, hstate⟩ := howned hidle hflag
    exact absurd (hall g (List.mem_of_getElem? hlast)) hstate

/-- The first client leaves before the second attaches, and the third evicts
the second. -/
theorem run_flag_sample : ∃ s, run {} [.storeTrue, .sendFalse, .newChannel, .readFlag 0, .storeFalse 0, .storeTrue, .sendFalse,
      .newChannel, .storeTrue, .sendFalse, .newChannel, .readFlag 1] = some s ∧
    s.guards.map ClientGuard.state = [.dropped, .dropped, .held] ∧ s.Attached 2 ∧ s.hasClient = true := by
  have hconnect {s s₁ s₂ s₃ : Session} {steps : List SessionStep} (h₁ : s.step .storeTrue = some s₁) (h₂ : s₁.step .sendFalse = some s₂)
      (h₃ : s₂.step .newChannel = some s₃) (h : Along step ClearsAlone s₃ steps) :
      Along step ClearsAlone s (.storeTrue :: .sendFalse :: .newChannel :: steps) :=
    .cons trivial h₁ (.cons trivial h₂ (.cons trivial h₃ h))
  have halone : ∀ j, ¬ Attached { hasClient := true, guards := [⟨true, .clearing⟩] } j := by
    intro j
    cases j <;> simp [Attached]
  have hclears : Along step ClearsAlone {} [.storeTrue, .sendFalse, .newChannel, .readFlag 0, .storeFalse 0, .storeTrue, .sendFalse,
      .newChannel, .storeTrue, .sendFalse, .newChannel, .readFlag 1] :=
    hconnect rfl rfl rfl (.cons trivial rfl (.cons ⟨rfl, halone⟩ rfl (hconnect rfl rfl rfl (hconnect rfl rfl rfl
      (.cons trivial rfl trivial)))))
  exact ⟨_, rfl, rfl, rfl, (run_flag hclears rfl).1 2 rfl⟩

/-- A whole connect between the two steps of a guard: the new client is
attached, and the flag is clear. -/
theorem guard_straddles : ∃ s, run {} [.storeTrue, .sendFalse, .newChannel, .readFlag 0,
    .storeTrue, .sendFalse, .newChannel, .storeFalse 0] = some s ∧ s.Attached 1 ∧ s.hasClient = false :=
  ⟨_, rfl, rfl, rfl⟩

end Session

end Retach
