import Mathlib.Logic.Relation
import Retach.Lib.Checked
/-!
# Labelled steps

A system given by a step relation whose steps carry labels. Restricting the
labels restricts what a path may do, so one step relation serves theorems about
different sets of allowed steps: an invariant or a frame condition is proved
once for each label it has to survive.
-/

open Checked

namespace Runs

variable {S K α β : Type} {R : K → S → S → Prop} {allowed : K → Prop}

/-- The paths of `R` all of whose labels are allowed. -/
def Steps (R : K → S → S → Prop) (allowed : K → Prop) : S → S → Prop :=
  Relation.ReflTransGen fun s s' => ∃ k, allowed k ∧ R k s s'

namespace Steps

theorem refl (s : S) : Steps R allowed s s := Relation.ReflTransGen.refl

theorem single {k : K} {s s' : S} (hk : allowed k) (h : R k s s') : Steps R allowed s s' :=
  Relation.ReflTransGen.single ⟨k, hk, h⟩

theorem trans {s₁ s₂ s₃ : S} (h : Steps R allowed s₁ s₂) (h' : Steps R allowed s₂ s₃) : Steps R allowed s₁ s₃ :=
  Relation.ReflTransGen.trans h h'

theorem snoc {k : K} {s₁ s₂ s₃ : S} (h : Steps R allowed s₁ s₂) (hk : allowed k) (h' : R k s₂ s₃) :
    Steps R allowed s₁ s₃ := h.trans (single hk h')

/-- Fewer labels allow fewer paths. -/
theorem mono {allowed' : K → Prop} (hk : ∀ k, allowed k → allowed' k) {s s' : S} (h : Steps R allowed s s') :
    Steps R allowed' s s' :=
  Relation.ReflTransGen.mono (fun _ _ ⟨k, ha, hr⟩ => ⟨k, hk k ha, hr⟩) _ _ h

/-- What every allowed step keeps, every path keeps. -/
theorem keeps {P : S → Prop} (hstep : ∀ k s s', allowed k → R k s s' → P s → P s') {s s' : S}
    (h : Steps R allowed s s') (hs : P s) : P s' := by
  induction h with
  | refl => exact hs
  | tail _ hlast ih =>
    obtain ⟨k, hk, hr⟩ := hlast
    exact hstep k _ _ hk hr ih

/-- A reflexive and transitive relation that every allowed step satisfies,
from the states with the invariant `P`, relates the ends of every path. -/
theorem relates {P : S → Prop} {Q : S → S → Prop} (hP : ∀ k s s', allowed k → R k s s' → P s → P s')
    (hrefl : ∀ s, Q s s) (htrans : ∀ s₁ s₂ s₃, Q s₁ s₂ → Q s₂ s₃ → Q s₁ s₃)
    (hstep : ∀ k s s', allowed k → R k s s' → P s → Q s s') {s s' : S} (h : Steps R allowed s s') (hs : P s) :
    Q s s' := by
  have hboth : P s' ∧ Q s s' := by
    induction h with
    | refl => exact ⟨hs, hrefl s⟩
    | tail _ hlast ih =>
      obtain ⟨k, hk, hr⟩ := hlast
      exact ⟨hP k _ _ hk hr ih.1, htrans _ _ _ ih.2 (hstep k _ _ hk hr ih.1)⟩
  exact hboth.2

end Steps

/-! ## Programs that take steps -/

/-- `x` succeeds, and its result is reached from `s` by allowed steps. -/
def Takes (R : K → S → S → Prop) (allowed : K → Prop) (s : S) (x : Option S) : Prop :=
  ∃ s', x = some s' ∧ Steps R allowed s s'

namespace Takes

theorem of_steps {s s' : S} (h : Steps R allowed s s') : Takes R allowed s (some s') := ⟨s', rfl, h⟩

theorem stay (s : S) : Takes R allowed s (some s) := of_steps (.refl s)

theorem mono {allowed' : K → Prop} (hk : ∀ k, allowed k → allowed' k) {s : S} {x : Option S}
    (h : Takes R allowed s x) : Takes R allowed' s x := by
  obtain ⟨s', hx, hs⟩ := h
  exact ⟨s', hx, hs.mono hk⟩

/-- More steps before a program. -/
theorem after {s s' : S} {x : Option S} (h : Steps R allowed s s') (hx : Takes R allowed s' x) : Takes R allowed s x := by
  obtain ⟨s'', hx, hs⟩ := hx
  exact ⟨s'', hx, h.trans hs⟩

/-- One program after another. -/
theorem bind {s : S} {x : Option S} {f : S → Option S} (h : Takes R allowed s x)
    (hf : ∀ s', x = some s' → Steps R allowed s s' → Takes R allowed s' (f s')) : Takes R allowed s (x.bind f) := by
  obtain ⟨s', rfl, hs⟩ := h
  exact after hs (hf s' rfl hs)

end Takes

/-- If `x` succeeds, its result is reached from `s` by allowed steps. -/
def Leads (R : K → S → S → Prop) (allowed : K → Prop) (s : S) (x : Option S) : Prop :=
  ∀ s', x = some s' → Steps R allowed s s'

theorem Takes.leads {s : S} {x : Option S} (h : Takes R allowed s x) : Leads R allowed s x := by
  rintro s' rfl
  obtain ⟨s'', hx, hs⟩ := h
  obtain rfl : s' = s'' := by simpa using hx
  exact hs

namespace Leads

theorem stay (s : S) : Leads R allowed s (some s) := (Takes.stay s).leads

theorem fail (s : S) : Leads R allowed s none := fun _ h => by cases h

theorem bind {s : S} {x : Option S} {f : S → Option S} (h : Leads R allowed s x)
    (hf : ∀ s', x = some s' → Steps R allowed s s' → Leads R allowed s' (f s')) : Leads R allowed s (x.bind f) := by
  intro s'' hs''
  obtain ⟨s', hx, hs'⟩ := Option.bind_eq_some_iff.1 hs''
  exact (h s' hx).trans (hf s' hx (h s' hx) s'' hs')

end Leads

/-- A loop takes steps when its body does, from every state with `P`. -/
theorem iter_takes {P : S → Prop} (hP : ∀ k s s', allowed k → R k s s' → P s → P s') {f : S → Option S}
    (hf : ∀ s, P s → Takes R allowed s (f s)) (n : Nat) {s : S} (hs : P s) : Takes R allowed s (iter f n s) := by
  refine (iter_spec (fun a => P a ∧ Steps R allowed s a) ?_ n ⟨hs, .refl s⟩).imp fun _ h => ⟨h.1, h.2.2⟩
  intro a ⟨ha, hsa⟩
  obtain ⟨b, hb, hab⟩ := hf a ha
  exact ⟨b, hb, hab.keeps hP ha, hsa.trans hab⟩

/-! ## Runs of inputs -/

/-- `P` holds of every input and the state it meets. -/
def Along (f : S → α → Option S) (P : S → α → Prop) : S → List α → Prop
  | _, [] => True
  | s, x :: l => P s x ∧ ∀ s', f s x = some s' → Along f P s' l

/-- One input that succeeds, and the rest of the run. -/
theorem Along.cons {f : S → α → Option S} {P : S → α → Prop} {x : α} {l : List α} {s s' : S} (hP : P s x)
    (hx : f s x = some s') (hl : Along f P s' l) : Along f P s (x :: l) :=
  ⟨hP, fun s'' hs'' => by
    obtain rfl : s' = s'' := by simpa [hx] using hs''
    exact hl⟩

/-- Inputs with `P` that succeed on states with `I` and keep it make a run that
succeeds and keeps it. -/
theorem Along.succeeds {f : S → α → Option S} {P : S → α → Prop} {I : S → Prop}
    (hf : ∀ s x, I s → P s x → ∃ s', f s x = some s' ∧ I s') {l : List α} {s : S} (h : Along f P s l) (hs : I s) :
    ∃ s', l.foldlM f s = some s' ∧ I s' := by
  induction l generalizing s with
  | nil => exact ⟨s, rfl, hs⟩
  | cons x l ih =>
    obtain ⟨s₁, hx, hI⟩ := hf s x hs h.1
    obtain ⟨s₂, hl, hI₂⟩ := ih (h.2 s₁ hx) hI
    exact ⟨s₂, by rw [List.foldlM_cons, hx]; exact hl, hI₂⟩

/-- Inputs with `P` that keep `I` when they succeed make runs that do. -/
theorem Along.keeps {f : S → α → Option S} {P : S → α → Prop} {I : S → Prop}
    (hf : ∀ s x s', I s → P s x → f s x = some s' → I s') {l : List α} {s s' : S} (h : Along f P s l) (hs : I s)
    (hrun : l.foldlM f s = some s') : I s' := by
  induction l generalizing s with
  | nil =>
    obtain rfl : s = s' := by simpa using hrun
    exact hs
  | cons x l ih =>
    rw [List.foldlM_cons] at hrun
    obtain ⟨s₁, hx, hrun⟩ := Option.bind_eq_some_iff.1 hrun
    exact ih (h.2 s₁ hx) (hf s x s₁ hs h.1 hx) hrun

/-- Along a run that succeeds from a state with `I`, properties agree that agree
on every input that succeeds. -/
theorem Along.congr {f : S → α → Option S} {P Q : S → α → Prop} {I : S → Prop} {l : List α} {s s' : S}
    (hkeep : ∀ s, ∀ x ∈ l, ∀ s', I s → f s x = some s' → I s')
    (hiff : ∀ s, ∀ x ∈ l, ∀ s', I s → f s x = some s' → (P s x ↔ Q s x)) (hs : I s) (hrun : l.foldlM f s = some s') :
    Along f P s l ↔ Along f Q s l := by
  induction l generalizing s with
  | nil => exact Iff.rfl
  | cons x l ih =>
    rw [List.foldlM_cons] at hrun
    obtain ⟨s₁, hx, hrun⟩ := Option.bind_eq_some_iff.1 hrun
    have hmem : x ∈ x :: l := List.mem_cons_self ..
    have hrest : Along f P s₁ l ↔ Along f Q s₁ l :=
      ih (fun s y hy => hkeep s y (List.mem_cons_of_mem _ hy)) (fun s y hy => hiff s y (List.mem_cons_of_mem _ hy))
        (hkeep s x hmem s₁ hs hx) hrun
    constructor
    · intro h
      exact .cons ((hiff s x hmem s₁ hs hx).1 h.1) hx (hrest.1 (h.2 s₁ hx))
    · intro h
      exact .cons ((hiff s x hmem s₁ hs hx).2 h.1) hx (hrest.2 (h.2 s₁ hx))

/-- Inputs that lower a measure make short runs. -/
theorem Along.length_le {f : S → α → Option S} {P : S → α → Prop} {m : S → Nat}
    (hf : ∀ s x s', P s x → f s x = some s' → m s' < m s) {l : List α} {s s' : S} (h : Along f P s l)
    (hrun : l.foldlM f s = some s') : l.length + m s' ≤ m s := by
  induction l generalizing s with
  | nil =>
    obtain rfl := Option.some.inj hrun
    simp
  | cons x l ih =>
    rw [List.foldlM_cons] at hrun
    obtain ⟨s₁, hx, hrun⟩ := Option.bind_eq_some_iff.1 hrun
    have hlower := hf s x s₁ h.1 hx
    have hrest := ih (h.2 s₁ hx) hrun
    rw [List.length_cons]
    omega

/-- A property of the inputs alone holds along every run. -/
theorem Along.of_forall {f : S → α → Option S} {P : α → Prop} {l : List α} (h : ∀ x ∈ l, P x) (s : S) :
    Along f (fun _ => P) s l := by
  induction l generalizing s with
  | nil => trivial
  | cons x l ih =>
    exact ⟨h x (List.mem_cons_self ..), fun s' _ => ih (fun y hy => h y (List.mem_cons_of_mem _ hy)) s'⟩

/-- The two parts of a run. -/
theorem Along.append {f : S → α → Option S} {P : S → α → Prop} {l l' : List α} {s : S} (h : Along f P s (l ++ l')) :
    Along f P s l ∧ ∀ s', l.foldlM f s = some s' → Along f P s' l' := by
  induction l generalizing s with
  | nil =>
    refine ⟨trivial, ?_⟩
    intro s' hs'
    obtain rfl := Option.some.inj hs'
    exact h
  | cons x l ih =>
    refine ⟨⟨h.1, fun s' hs' => (ih (h.2 s' hs')).1⟩, ?_⟩
    intro s'' hs''
    rw [List.foldlM_cons] at hs''
    obtain ⟨s', hs', hrest⟩ := Option.bind_eq_some_iff.1 hs''
    exact (ih (h.2 s' hs')).2 s'' hrest

theorem Along.mono {f : S → α → Option S} {P Q : S → α → Prop} {l : List α} {s : S} (h : Along f P s l)
    (hPQ : ∀ s x, P s x → Q s x) : Along f Q s l := by
  induction l generalizing s with
  | nil => trivial
  | cons x l ih => exact ⟨hPQ s x h.1, fun s' hs' => ih (h.2 s' hs')⟩

theorem Along.and {f : S → α → Option S} {P Q : S → α → Prop} {l : List α} {s : S} (hP : Along f P s l)
    (hQ : Along f Q s l) : Along f (fun s x => P s x ∧ Q s x) s l := by
  induction l generalizing s with
  | nil => trivial
  | cons x l ih => exact ⟨⟨hP.1, hQ.1⟩, fun s' hs' => ih (hP.2 s' hs') (hQ.2 s' hs')⟩

/-- A run that loses a property has a step that does. -/
theorem loses {f : S → α → Option S} (P : S → Prop) {l : List α} {s t : S} (hrun : l.foldlM f s = some t) (hs : P s)
    (ht : ¬ P t) : ∃ l₁ x l₂ u v, l = l₁ ++ x :: l₂ ∧ l₁.foldlM f s = some u ∧ f u x = some v ∧ P u ∧ ¬ P v := by
  induction l generalizing s with
  | nil =>
    obtain rfl := Option.some.inj hrun
    exact absurd hs ht
  | cons x l ih =>
    rw [List.foldlM_cons] at hrun
    obtain ⟨s₁, hx, hrest⟩ := Option.bind_eq_some_iff.1 hrun
    by_cases hs₁ : P s₁
    · obtain ⟨l₁, y, l₂, u, v, rfl, hu, hv, hPu, hPv⟩ := ih hrest hs₁
      exact ⟨x :: l₁, y, l₂, u, v, rfl, by rw [List.foldlM_cons, hx]; exact hu, hv, hPu, hPv⟩
    · exact ⟨[], x, l, s, s₁, rfl, rfl, hx, hs, hs₁⟩

end Runs
