import Mathlib.Data.List.Basic
/-!
# Taking items off a byte string

Bytes arrive in pieces of any size and are to be cut into items. What can be
said of a splitter, which looks at the bytes so far, is what it makes of all of
them: an item once found, and an error once met, are not changed by what comes
later, so it does not matter where the pieces end.
-/

namespace Splitting

variable {E I : Type}

/-- Finds the item in front of some bytes and how many of them it takes; `none`
if more bytes are needed to tell. -/
structure Splitter (E I : Type) where
  next : List UInt8 → Except E (Option (I × Nat))
  next_pos : ∀ {bs i n}, next bs = .ok (some (i, n)) → 0 < n ∧ n ≤ bs.length
  next_append : ∀ {bs} rest, next bs ≠ .ok none → next (bs ++ rest) = next bs

/-- How the bytes end, and those that are not in an item. -/
inductive Ending (E : Type) where
  | /-- more bytes are needed -/ wants (rest : List UInt8)
  | /-- an item was the last one -/ stopped (rest : List UInt8)
  | failed (e : E) (rest : List UInt8)
deriving DecidableEq, Repr

def Ending.rest : Ending E → List UInt8
  | wants rest | stopped rest | failed _ rest => rest

def Ending.failure : Ending E → Option E
  | wants _ | stopped _ => none
  | failed e _ => some e

namespace Splitter

variable (p : Splitter E I) (stop : I → Bool)

/-- At most `k` items, up to one with `stop`. -/
def upToItems : Nat → List UInt8 → List I × Ending E
  | 0, bs => ([], .wants bs)
  | k + 1, bs =>
    match p.next bs with
    | .error e => ([], .failed e bs)
    | .ok none => ([], .wants bs)
    | .ok (some (i, n)) =>
      if stop i then ([i], .stopped (bs.drop n))
      else
        let (is, ending) := upToItems k (bs.drop n)
        (i :: is, ending)

/-- All items. -/
def items (bs : List UInt8) : List I × Ending E := p.upToItems stop (bs.length + 1) bs

variable {p stop}

/-- There are no more items than bytes. -/
theorem upToItems_length {k : Nat} {bs : List UInt8} (hk : bs.length < k) : p.upToItems stop k bs = p.items stop bs := by
  have hsame : ∀ m k : Nat, ∀ bs : List UInt8, bs.length < k → bs.length < m → p.upToItems stop k bs = p.upToItems stop m bs := by
    intro m
    induction m with
    | zero => exact fun _ _ _ hm => absurd hm (Nat.not_lt_zero _)
    | succ m ih =>
      intro k bs hk hm
      cases k with
      | zero => exact absurd hk (Nat.not_lt_zero _)
      | succ k =>
        unfold upToItems
        cases hnext : p.next bs with
        | error e => rfl
        | ok found =>
          cases found with
          | none => rfl
          | some item =>
            have hpos := p.next_pos hnext
            have hrest := ih k (bs.drop item.2) (by rw [List.length_drop]; omega) (by rw [List.length_drop]; omega)
            simp only [hrest]
  exact hsame _ _ _ hk (Nat.lt_succ_self _)

/-- The items by the one in front. -/
theorem items_eq (bs : List UInt8) : p.items stop bs =
    match p.next bs with
    | .error e => ([], .failed e bs)
    | .ok none => ([], .wants bs)
    | .ok (some (i, n)) =>
      if stop i then ([i], .stopped (bs.drop n))
      else (i :: (p.items stop (bs.drop n)).1, (p.items stop (bs.drop n)).2) := by
  rw [items, upToItems]
  cases hnext : p.next bs with
  | error e => rfl
  | ok found =>
    cases found with
    | none => rfl
    | some item =>
      have hpos := p.next_pos hnext
      have hrest : p.upToItems stop bs.length (bs.drop item.2) = p.items stop (bs.drop item.2) :=
        upToItems_length (by rw [List.length_drop]; omega)
      simp only [hrest]

section Front

variable {bs rest : List UInt8} {i : I} {n : Nat} {e : E}

/-- An error in front. -/
theorem items_error (h : p.next bs = .error e) : p.items stop (bs ++ rest) = ([], .failed e (bs ++ rest)) := by
  rw [items_eq, p.next_append rest (by rw [h]; simp), h]

/-- No item yet. -/
theorem items_none (h : p.next bs = .ok none) : p.items stop bs = ([], .wants bs) := by rw [items_eq, h]

/-- An item in front, found before all the bytes are there. -/
theorem items_some (h : p.next bs = .ok (some (i, n))) : p.items stop (bs ++ rest) =
    if stop i then ([i], .stopped (bs.drop n ++ rest))
    else (i :: (p.items stop (bs.drop n ++ rest)).1, (p.items stop (bs.drop n ++ rest)).2) := by
  have hpos := p.next_pos h
  rw [items_eq, p.next_append rest (by rw [h]; simp), h]
  simp only [List.drop_append_of_le_length hpos.2]

end Front

/-- What holds of every item and of how the bytes end holds of all that `items`
returns. The induction is on the bytes. -/
theorem items_induct {P : List UInt8 → List I → Ending E → Prop} (hwants : ∀ bs, p.next bs = .ok none → P bs [] (.wants bs))
    (hfailed : ∀ bs e, p.next bs = .error e → P bs [] (.failed e bs))
    (hstopped : ∀ bs i n, p.next bs = .ok (some (i, n)) → stop i = true → P bs [i] (.stopped (bs.drop n)))
    (hitem : ∀ bs i n is ending, p.next bs = .ok (some (i, n)) → stop i = false → P (bs.drop n) is ending → P bs (i :: is) ending)
    (bs : List UInt8) : P bs (p.items stop bs).1 (p.items stop bs).2 := by
  induction hlen : bs.length using Nat.strongRecOn generalizing bs with
  | ind k ih =>
    rw [items_eq]
    cases hnext : p.next bs with
    | error e => exact hfailed bs e hnext
    | ok found =>
      cases found with
      | none => exact hwants bs hnext
      | some item =>
        obtain ⟨i, n⟩ := item
        have hpos := p.next_pos hnext
        cases hstop : stop i with
        | true => simpa [hstop] using hstopped bs i n hnext hstop
        | false =>
          have hrest := ih (bs.drop n).length (by rw [List.length_drop]; omega) (bs.drop n) rfl
          simpa [hstop] using hitem bs i n _ _ hnext hstop hrest

end Splitter

end Splitting
