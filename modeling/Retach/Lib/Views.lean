import Retach.Lib.Checked
/-!
# Programs that do not look

A view erases a part of a state. A program is blind to that part when it does
the same, as far as the view of its result shows, with the part erased. Blind
programs compose, so two states with one view run alike. Nothing here depends
on the program.
-/

open Checked

namespace Views

variable {α β γ δ : Type}

/-- `f` does not look at what `v` erases, as far as `w` shows. -/
def Blind (v : α → α) (w : β → β) (f : α → Option β) : Prop := ∀ a, (f (v a)).map w = (f a).map w

section

variable {v : α → α} {w : β → β} {u : γ → γ}

/-- Blind programs run alike on states with one view. -/
theorem Blind.alike {f : α → Option β} (hf : Blind v w f) {a b : α} (h : v a = v b) : (f a).map w = (f b).map w := by
  rw [← hf a, h, hf b]

/-- Two results with one view. -/
theorem cases_of_map_eq {x y : Option β} (h : x.map w = y.map w) :
    (x = none ∧ y = none) ∨ ∃ a b, x = some a ∧ y = some b ∧ w a = w b := by
  cases x with
  | none => exact .inl ⟨rfl, Option.map_eq_none_iff.1 h.symm⟩
  | some a =>
    obtain ⟨b, hb, hab⟩ := Option.map_eq_some_iff.1 h.symm
    exact .inr ⟨a, b, rfl, hb, hab.symm⟩

theorem Blind.bind (hv : ∀ a, v (v a) = v a) {f : α → Option β} (hf : Blind v w f) {k : α → β → Option γ}
    (hk : ∀ a b, (k (v a) (w b)).map u = (k a b).map u) : Blind v u fun a => (f a).bind (k a) := by
  have hview (x : Option β) (k : β → Option γ) : (x.map w).bind k = x.bind fun b => k (w b) := by cases x <;> rfl
  have hmap (x : Option β) (k : β → Option γ) : (x.bind k).map u = x.bind fun b => (k b).map u := by cases x <;> rfl
  intro a
  calc ((f (v a)).bind (k (v a))).map u
      = (f (v a)).bind fun b => (k (v a) (w b)).map u := by
        rw [hmap]
        exact congrArg _ (funext fun b => by rw [← hk (v a) b, hv])
    _ = ((f (v a)).map w).bind fun b => (k (v a) b).map u := by cases f (v a) <;> rfl
    _ = ((f a).map w).bind fun b => (k (v a) b).map u := by rw [hf a]
    _ = (f a).bind fun b => (k (v a) (w b)).map u := by cases f a <;> rfl
    _ = ((f a).bind (k a)).map u := by
        rw [hmap]
        exact congrArg _ (funext fun b => hk a b)

/-- The second program looks at the result of the first only. -/
theorem Blind.comp (hv : ∀ a, v (v a) = v a) {f : α → Option β} (hf : Blind v w f) {k : β → Option γ} (hk : Blind w u k) :
    Blind v u fun a => (f a).bind k :=
  hf.bind hv fun _ b => hk b

theorem Blind.ite {p : α → Prop} [DecidablePred p] (hp : ∀ a, p (v a) ↔ p a) {f g : α → Option β} (hf : Blind v w f)
    (hg : Blind v w g) : Blind v w fun a => if p a then f a else g a := by
  intro a
  by_cases h : p a
  · simp only [if_pos h, if_pos ((hp a).2 h), hf a]
  · simp only [if_neg h, if_neg (mt (hp a).1 h), hg a]

end

/-! ## Renamings

Two programs of which the second does what the first does, under other names.
-/

section

variable {v : α → β} {w : γ → δ}

/-- A step whose result is renamed. -/
theorem bind_renamed {x' : Option β} {x : Option α} (hx : x' = x.map v) {k' : β → Option δ} {k : α → Option γ}
    (hk : ∀ a, k' (v a) = (k a).map w) : x'.bind k' = (x.bind k).map w := by
  subst hx
  cases x with
  | none => rfl
  | some a => exact hk a

/-- A step with the same result. -/
theorem bind_shared {x' x : Option α} (hx : x' = x) {k' : α → Option δ} {k : α → Option γ}
    (hk : ∀ a, k' a = (k a).map w) : x'.bind k' = (x.bind k).map w :=
  bind_renamed (v := id) (by rw [hx, Option.map_id_fun, id]) hk

theorem ite_renamed {p' p : Prop} [Decidable p'] [Decidable p] (hp : p' ↔ p) {x' y' : Option δ} {x y : Option γ}
    (hx : x' = x.map w) (hy : y' = y.map w) : (if p' then x' else y') = (if p then x else y).map w := by
  by_cases h : p
  · rwa [if_pos h, if_pos (hp.2 h)]
  · rwa [if_neg h, if_neg (mt hp.1 h)]

theorem iter_renamed {f' : β → Option β} {f : α → Option α} (hf : ∀ a, f' (v a) = (f a).map v) (n : Nat) (a : α) :
    iter f' n (v a) = (iter f n a).map v := by
  induction n generalizing a with
  | zero => rfl
  | succ n ih => exact bind_renamed (hf a) ih

theorem iterFrom_renamed {f' : Nat → β → Option β} {f : Nat → α → Option α} (hf : ∀ i a, f' i (v a) = (f i a).map v)
    (start n : Nat) (a : α) : iterFrom f' start n (v a) = (iterFrom f start n a).map v := by
  induction n generalizing start a with
  | zero => rfl
  | succ n ih => exact bind_renamed (hf start a) (ih (start + 1))

end

variable {v : α → α}

theorem Blind.iter (hv : ∀ a, v (v a) = v a) {f : α → Option α} (hf : Blind v v f) (n : Nat) : Blind v v (iter f n) := by
  induction n with
  | zero => exact fun a => congrArg some (hv a)
  | succ n ih => exact hf.comp hv ih

theorem Blind.iterFrom (hv : ∀ a, v (v a) = v a) {f : Nat → α → Option α} (hf : ∀ i, Blind v v (f i)) (start n : Nat) :
    Blind v v (iterFrom f start n) := by
  induction n generalizing start with
  | zero => exact fun a => congrArg some (hv a)
  | succ n ih => exact (hf start).comp hv (ih (start + 1))

theorem Blind.foldlM (hv : ∀ a, v (v a) = v a) {f : α → β → Option α} (hf : ∀ b, Blind v v (f · b)) (l : List β) :
    Blind v v fun a => l.foldlM f a := by
  induction l with
  | nil => exact fun a => congrArg some (hv a)
  | cons b l ih =>
    simp only [List.foldlM_cons]
    exact (hf b).comp hv ih

end Views
