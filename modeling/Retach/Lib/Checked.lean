/-!
# Arithmetic and indexing that can panic

Machine operations as partial functions: `none` is the panic of a build with
overflow checks and debug assertions. Nothing here depends on the program; a
model writes its code with these and shows that no run ends in `none`.
-/

namespace Checked

variable {α : Type}

/-- The values of an unsigned 16-bit word. -/
def u16Max : Nat := 65535

/-- `a + b` on 16-bit words. -/
def add16 (a b : Nat) : Option Nat := if a + b ≤ u16Max then some (a + b) else none

/-- `a.saturating_add(b)` on 16-bit words. -/
def satAdd16 (a b : Nat) : Nat := min (a + b) u16Max

/-- `a - b` on unsigned words. -/
def sub (a b : Nat) : Option Nat := if b ≤ a then some (a - b) else none

/-- `l[i] = a`. -/
def setAt (l : List α) (i : Nat) (a : α) : Option (List α) :=
  if i < l.length then some (l.set i a) else none

/-- Insertion before index `i`, which may be the end. -/
def insertAt (l : List α) (i : Nat) (a : α) : Option (List α) :=
  if i ≤ l.length then some (l.insertIdx i a) else none

/-- An assertion. -/
def ensure (p : Prop) [Decidable p] : Option Unit := if p then some () else none

/-- `for _ in 0..n`, threading a state. -/
def iter (f : α → Option α) : Nat → α → Option α
  | 0, a => some a
  | n + 1, a => (f a).bind (iter f n)

/-- `for i in start..start + n`, threading a state. -/
def iterFrom (f : Nat → α → Option α) (start : Nat) : Nat → α → Option α
  | 0, a => some a
  | n + 1, a => (f start a).bind (iterFrom f (start + 1) n)

/-! ## When they succeed -/

theorem add16_eq {a b : Nat} (h : a + b ≤ 65535) : add16 a b = some (a + b) := if_pos h

theorem add16_none {a b : Nat} (h : 65535 < a + b) : add16 a b = none :=
  if_neg (Nat.not_le_of_lt h)

theorem sub_eq {a b : Nat} (h : b ≤ a) : sub a b = some (a - b) := if_pos h

theorem setAt_eq {l : List α} {i : Nat} {a : α} (h : i < l.length) : setAt l i a = some (l.set i a) := if_pos h

theorem insertAt_eq {l : List α} {i : Nat} {a : α} (h : i ≤ l.length) :
    insertAt l i a = some (l.insertIdx i a) := if_pos h

theorem ensure_eq {p : Prop} [Decidable p] (h : p) : ensure p = some () := if_pos h

/-! ## Loops -/

@[simp] theorem iter_zero (f : α → Option α) (a : α) : iter f 0 a = some a := rfl

@[simp] theorem iterFrom_zero (f : Nat → α → Option α) (i : Nat) (a : α) : iterFrom f i 0 a = some a := rfl

theorem iter_succ (f : α → Option α) (n : Nat) (a : α) : iter f (n + 1) a = (f a).bind (iter f n) := rfl

theorem iterFrom_succ (f : Nat → α → Option α) (i n : Nat) (a : α) :
    iterFrom f i (n + 1) a = (f i a).bind (iterFrom f (i + 1) n) := rfl

/-- The loop rule: a body that keeps `P` and succeeds under it makes a loop
that keeps `P` and succeeds. -/
theorem iter_spec (P : α → Prop) {f : α → Option α} (hf : ∀ a, P a → ∃ b, f a = some b ∧ P b) (n : Nat)
    {a : α} (ha : P a) : ∃ b, iter f n a = some b ∧ P b := by
  induction n generalizing a with
  | zero => exact ⟨a, rfl, ha⟩
  | succ n ih =>
    obtain ⟨b, hb, hPb⟩ := hf a ha
    obtain ⟨c, hc, hPc⟩ := ih hPb
    exact ⟨c, by rw [iter_succ, hb]; exact hc, hPc⟩

/-- The loop rule with a count: `P i` holds after `i` rounds. -/
theorem iter_count (P : Nat → α → Prop) {f : α → Option α} (hf : ∀ i a, P i a → ∃ b, f a = some b ∧ P (i + 1) b) (n : Nat)
    {i : Nat} {a : α} (ha : P i a) : ∃ b, iter f n a = some b ∧ P (i + n) b := by
  induction n generalizing i a with
  | zero => exact ⟨a, rfl, ha⟩
  | succ n ih =>
    obtain ⟨b, hb, hPb⟩ := hf i a ha
    obtain ⟨c, hc, hPc⟩ := ih hPb
    refine ⟨c, by rw [iter_succ, hb]; exact hc, ?_⟩
    rwa [Nat.add_right_comm] at hPc

/-- What every round that succeeds keeps, the loop keeps. -/
theorem iter_keeps {P : α → Prop} {f : α → Option α} (hf : ∀ a b, P a → f a = some b → P b) {n : Nat} {a c : α}
    (ha : P a) (hc : iter f n a = some c) : P c := by
  induction n generalizing a with
  | zero =>
    obtain rfl := Option.some.inj hc
    exact ha
  | succ n ih =>
    obtain ⟨b, hb, hc⟩ := Option.bind_eq_some_iff.1 hc
    exact ih (hf a b ha hb) hc

/-- The loop rule with an index: `P i` holds before round `i`. -/
theorem iterFrom_spec (P : Nat → α → Prop) {f : Nat → α → Option α} {k n : Nat}
    (hf : ∀ i a, k ≤ i → i < k + n → P i a → ∃ b, f i a = some b ∧ P (i + 1) b)
    {a : α} (ha : P k a) : ∃ b, iterFrom f k n a = some b ∧ P (k + n) b := by
  induction n generalizing k a with
  | zero => exact ⟨a, rfl, ha⟩
  | succ n ih =>
    obtain ⟨b, hb, hPb⟩ := hf k a (Nat.le_refl _) (by omega) ha
    obtain ⟨c, hc, hPc⟩ := ih (fun i a h1 h2 => hf i a (by omega) (by omega)) hPb
    refine ⟨c, by rw [iterFrom_succ, hb]; exact hc, ?_⟩
    rwa [show k + (n + 1) = k + 1 + n by omega]

/-! ## What programs end in -/

/-- The result, if there is one, satisfies `P`. -/
def Ends (P : α → Prop) (x : Option α) : Prop := ∀ a, x = some a → P a

namespace Ends

variable {β : Type} {P : α → Prop} {Q : β → Prop}

theorem pure {a : α} (h : P a) : Ends P (some a) := fun b hb => by
  obtain rfl := Option.some.inj hb
  exact h

theorem bind {x : Option α} {f : α → Option β} (hx : Ends P x) (hf : ∀ a, P a → Ends Q (f a)) : Ends Q (x.bind f) := by
  intro b hb
  obtain ⟨a, ha, hb⟩ := Option.bind_eq_some_iff.1 hb
  exact hf a (hx a ha) b hb

theorem mono {Q : α → Prop} {x : Option α} (hx : Ends P x) (h : ∀ a, P a → Q a) : Ends Q x := fun a ha => h a (hx a ha)

/-- Whatever comes before. -/
theorem after {x : Option α} {f : α → Option β} (hf : ∀ a, Ends Q (f a)) : Ends Q (x.bind f) := by
  intro b hb
  obtain ⟨a, -, hb⟩ := Option.bind_eq_some_iff.1 hb
  exact hf a b hb

theorem iter {f : α → Option α} (hf : ∀ a, P a → Ends P (f a)) (n : Nat) {a : α} (ha : P a) : Ends P (iter f n a) :=
  fun _ hc => iter_keeps (fun a b ha hb => hf a ha b hb) ha hc

theorem iterFrom {f : Nat → α → Option α} (hf : ∀ i a, P a → Ends P (f i a)) (i n : Nat) {a : α} (ha : P a) :
    Ends P (iterFrom f i n a) := by
  induction n generalizing i a with
  | zero => exact pure ha
  | succ n ih => exact bind (hf i a ha) fun b hb => ih (i + 1) hb

theorem foldlM {f : α → β → Option α} (hf : ∀ a b, P a → Ends P (f a b)) (l : List β) {a : α} (ha : P a) :
    Ends P (l.foldlM f a) := by
  induction l generalizing a with
  | nil => exact pure ha
  | cons b l ih =>
    rw [List.foldlM_cons]
    exact bind (hf a b ha) fun _ h => ih h

theorem mapM {f : α → Option β} (hf : ∀ a, P a → Ends Q (f a)) {l : List α} (hl : ∀ a ∈ l, P a) :
    Ends (fun l' => ∀ b ∈ l', Q b) (l.mapM f) := by
  induction l with
  | nil => exact pure fun b hb => absurd hb List.not_mem_nil
  | cons a l ih =>
    obtain ⟨ha, hl⟩ := List.forall_mem_cons.1 hl
    rw [List.mapM_cons]
    exact bind (hf a ha) fun b hb => bind (ih hl) fun bs hbs => pure (List.forall_mem_cons.2 ⟨hb, hbs⟩)

end Ends

end Checked
