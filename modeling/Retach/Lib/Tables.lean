import Mathlib.Data.List.InsertIdx
import Mathlib.Data.List.Nodup
import Retach.Lib.Lists
/-!
# Tables beside a list

Where few elements of a list have something attached, it is kept beside the
list, by position. When elements move, the entries of the table are renumbered.
-/

open Lists

namespace Tables

variable {α β κ : Type}

/-! ## Renumbering -/

/-- The entries whose keys `move` keeps, at their new keys. -/
def moved (move : κ → Option κ) (t : List (κ × β)) : List (κ × β) :=
  t.filterMap fun e => (move e.1).map fun k => (k, e.2)

section Keys

variable {move move' : κ → Option κ} {t : List (κ × β)}

theorem mem_moved {e : κ × β} : e ∈ moved move t ↔ ∃ k, (k, e.2) ∈ t ∧ move k = some e.1 := by
  obtain ⟨k', b⟩ := e
  simp only [moved, List.mem_filterMap, Option.map_eq_some_iff, Prod.mk.injEq, Prod.exists]
  constructor
  · rintro ⟨k, b', hmem, k₁, hk, rfl, rfl⟩
    exact ⟨k, hmem, hk⟩
  · rintro ⟨k, hmem, hk⟩
    exact ⟨k, b, hmem, k', hk, rfl, rfl⟩

theorem keys_moved (move : κ → Option κ) (t : List (κ × β)) : (moved move t).map Prod.fst = (t.map Prod.fst).filterMap move := by
  rw [moved, List.map_filterMap, List.filterMap_map]
  congr 1
  funext e
  simp [Function.comp_def]

theorem moved_congr (h : ∀ e ∈ t, move e.1 = move' e.1) : moved move t = moved move' t :=
  List.filterMap_congr fun e he => by rw [h e he]

theorem moved_moved (move move' : κ → Option κ) (t : List (κ × β)) :
    moved move' (moved move t) = moved (fun k => (move k).bind move') t := by
  rw [moved, moved, List.filterMap_filterMap]
  congr 1
  funext e
  cases h : move e.1 with
  | none => simp [h]
  | some k => simp [h]

theorem map_eq_moved (f : κ → κ) (t : List (κ × β)) : (t.map fun e => (f e.1, e.2)) = moved (fun k => some (f k)) t := by
  rw [moved, ← List.filterMap_eq_map']
  rfl

/-- Only the keys with `p` stay. -/
def keeping (p : κ → Bool) (k : κ) : Option κ := if p k = true then some k else none

theorem keeping_eq_some {p : κ → Bool} {j k : κ} (h : keeping p j = some k) : p j = true ∧ j = k := by
  unfold keeping at h
  split at h
  next hp => exact ⟨hp, Option.some.inj h⟩
  next => cases h

theorem filter_eq_moved (p : κ → Bool) (t : List (κ × β)) : (t.filter fun e => p e.1) = moved (keeping p) t := by
  rw [moved, ← List.filterMap_eq_filter]
  congr 1
  funext e
  unfold keeping Option.guard
  by_cases hp : p e.1 = true
  · simp [hp]
  · simp [hp]

theorem nodup_moved (hinj : ∀ i j k, move i = some k → move j = some k → i = j) (h : (t.map Prod.fst).Nodup) :
    ((moved move t).map Prod.fst).Nodup := by
  rw [keys_moved]
  exact h.filterMap hinj

end Keys

section Lookup

variable [DecidableEq κ] {move : κ → Option κ} {t : List (κ × List β)} {k k' : κ}

/-- What was found at a key is found where the key went, and no other. -/
theorem found_moved (h : ∀ e ∈ t, move e.1 = some k' ↔ e.1 = k) : found (moved move t) k' = found t k := by
  induction t with
  | nil => rfl
  | cons e t ih =>
    have hrest := ih fun e' he' => h e' (List.mem_cons_of_mem _ he')
    have hhead := h e List.mem_cons_self
    by_cases he : e.1 = k
    · have hcons : moved move (e :: t) = (k', e.2) :: moved move t := by simp [moved, hhead.2 he]
      rw [hcons, ← he, found_cons_self e]
      exact found_cons_self (k', e.2) _
    · rw [found_cons_ne he, ← hrest]
      cases hmove : move e.1 with
      | none =>
        congr 1
        simp [moved, hmove]
      | some k₁ =>
        have hcons : moved move (e :: t) = (k₁, e.2) :: moved move t := by simp [moved, hmove]
        rw [hcons]
        apply found_cons_ne
        rintro rfl
        exact he (hhead.1 hmove)

theorem found_moved_none (h : ∀ e ∈ t, move e.1 ≠ some k) : found (moved move t) k = [] := by
  have hnone : (moved move t).find? (·.1 = k) = none := by
    rw [List.find?_eq_none]
    intro e he hk
    obtain ⟨k₁, hmem, hmove⟩ := mem_moved.1 he
    rw [decide_eq_true_iff] at hk
    exact h (k₁, e.2) hmem (hk ▸ hmove)
  rw [found, hnone]
  rfl

end Lookup

/-! ## Positions -/

/-- Every entry belongs to one of `n` positions, and no two to the same. -/
structure Keyed (t : List (Nat × β)) (n : Nat) : Prop where
  distinct : (t.map Prod.fst).Nodup
  lt : ∀ e ∈ t, e.1 < n

/-- The elements of `l` that `move` keeps are in `l'`, each where it says. -/
structure Carried (move : Nat → Option Nat) (l l' : List α) : Prop where
  inj : ∀ i j k, move i = some k → move j = some k → i = j
  same : ∀ i < l.length, ∀ k, move i = some k → l'[k]? = l[i]?

section Positions

variable {move : Nat → Option Nat} {l l' : List α}

theorem Carried.lt (h : Carried move l l') {i k : Nat} (hi : i < l.length) (hk : move i = some k) : k < l'.length := by
  have hsame := h.same i hi k hk
  rw [List.getElem?_eq_getElem hi] at hsame
  exact (List.getElem?_eq_some_iff.1 hsame).1

/-- Only where the positions go matters. -/
theorem Keyed.moved_congr {t : List (Nat × β)} {n : Nat} {move' : Nat → Option Nat} (h : Keyed t n) (hmove : ∀ i < n, move i = move' i) :
    moved move t = moved move' t :=
  Tables.moved_congr fun e he => hmove e.1 (h.lt e he)

theorem Keyed.moved_self {t : List (Nat × β)} {n : Nat} (h : Keyed t n) (hmove : ∀ i < n, move i = some i) : moved move t = t := by
  rw [h.moved_congr hmove]
  exact (List.filterMap_congr fun _ _ => rfl).trans List.filterMap_some

/-- A table that moves along still fits. -/
theorem Keyed.moved {t : List (Nat × β)} (h : Keyed t l.length) (hc : Carried move l l') : Keyed (moved move t) l'.length where
  distinct := nodup_moved hc.inj h.distinct
  lt := by
    intro e he
    obtain ⟨k, hmem, hk⟩ := mem_moved.1 he
    exact hc.lt (h.lt _ hmem) hk

/-! ### Where elements go -/

/-- An insertion before `i`. -/
def afterInsert (i j : Nat) : Option Nat := some (if j < i then j else j + 1)

/-- A removal at `i`. -/
def afterErase (i j : Nat) : Option Nat := if j < i then some j else if j = i then none else some (j - 1)

theorem afterInsert_eq_some {i j k : Nat} (h : afterInsert i j = some k) : j < i ∧ k = j ∨ i ≤ j ∧ k = j + 1 := by
  unfold afterInsert at h
  rw [Option.some.injEq] at h
  split at h <;> omega

theorem afterErase_eq_some {i j k : Nat} (h : afterErase i j = some k) : j < i ∧ k = j ∨ i < j ∧ j = k + 1 := by
  unfold afterErase at h
  split at h
  · rw [Option.some.injEq] at h
    omega
  · split at h
    · cases h
    · rw [Option.some.injEq] at h
      omega

theorem carried_insertIdx (l : List α) (i : Nat) (a : α) : Carried (afterInsert i) l (l.insertIdx i a) where
  inj := by
    intro j j' k hj hj'
    have := afterInsert_eq_some hj
    have := afterInsert_eq_some hj'
    omega
  same := by
    intro j hj k hk
    rcases afterInsert_eq_some hk with ⟨hlt, rfl⟩ | ⟨hle, rfl⟩
    · exact List.getElem?_insertIdx_of_lt hlt
    · rw [List.getElem?_insertIdx_of_gt (by omega), Nat.add_sub_cancel]

theorem carried_eraseIdx (l : List α) (i : Nat) : Carried (afterErase i) l (l.eraseIdx i) where
  inj := by
    intro j j' k hj hj'
    have := afterErase_eq_some hj
    have := afterErase_eq_some hj'
    omega
  same := by
    intro j hj k hk
    rcases afterErase_eq_some hk with ⟨hlt, rfl⟩ | ⟨hlt, rfl⟩
    · exact List.getElem?_eraseIdx_of_lt hlt
    · exact List.getElem?_eraseIdx_of_ge (by omega)

/-- Elements that stay where they are. -/
theorem carried_keeping {p : Nat → Bool} (h : ∀ i < l.length, p i = true → l'[i]? = l[i]?) : Carried (keeping p) l l' where
  inj := by
    intro j j' k hj hj'
    exact (keeping_eq_some hj).2.trans (keeping_eq_some hj').2.symm
  same := by
    intro j hj k hk
    obtain ⟨hp, rfl⟩ := keeping_eq_some hk
    exact h j hj hp

end Positions

end Tables
