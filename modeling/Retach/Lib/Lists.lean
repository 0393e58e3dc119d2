import Mathlib.Data.List.DropRight
/-!
# Lists changed in place

Facts about list surgery that the standard library does not have in this form.
-/

namespace Lists

variable {α : Type}

/-- Inserting splits the list. -/
theorem insertIdx_eq_append {l : List α} {i : Nat} (a : α) (h : i ≤ l.length) :
    l.insertIdx i a = l.take i ++ a :: l.drop i := by
  induction l generalizing i with
  | nil =>
    obtain rfl : i = 0 := by simpa using h
    rfl
  | cons b l ih =>
    cases i with
    | zero => rfl
    | succ i => simp [ih (by simpa using h)]

/-- A part that is there or not. -/
theorem forall_mem_ite {P : α → Prop} {p : Prop} [Decidable p] {l : List α} (h : ∀ a ∈ l, P a) : ∀ a ∈ if p then l else [], P a := by
  split
  · exact h
  · exact fun a ha => absurd ha List.not_mem_nil

/-! ## Filling a range -/

/-- Positions `[lo, lo + n)` become `a`. -/
def fill (lo n : Nat) (a : α) (l : List α) : List α := l.take lo ++ List.replicate n a ++ l.drop (lo + n)

theorem fill_zero (lo : Nat) (a : α) (l : List α) : fill lo 0 a l = l := by simp [fill]

theorem fill_succ {lo : Nat} {l : List α} (n : Nat) (a : α) (h : lo < l.length) :
    fill (lo + 1) n a (l.set lo a) = fill lo (n + 1) a l := by
  have htake : (l.set lo a).take (lo + 1) = l.take lo ++ [a] := by
    rw [List.take_set, List.take_add_one, List.getElem?_eq_getElem h, Option.toList_some,
      List.set_append_right _ _ (by rw [List.length_take]; omega), List.length_take]
    simp [show lo - min lo l.length = 0 by omega]
  simp only [fill, htake, List.replicate_succ, List.append_assoc, List.cons_append, List.nil_append,
    List.drop_set_of_lt (show lo < lo + 1 + n by omega), show lo + (n + 1) = lo + 1 + n by omega]

theorem fill_length {lo n : Nat} (a : α) {l : List α} (h : lo + n ≤ l.length) :
    (fill lo n a l).length = l.length := by
  simp only [fill, List.length_append, List.length_take, List.length_replicate, List.length_drop]
  omega

theorem mem_fill {lo n : Nat} {a b : α} {l : List α} (h : b ∈ fill lo n a l) : b ∈ l ∨ b = a := by
  simp only [fill, List.mem_append, List.mem_replicate] at h
  rcases h with (h | ⟨-, h⟩) | h
  · exact .inl (List.mem_of_mem_take h)
  · exact .inr h
  · exact .inl (List.mem_of_mem_drop h)

/-! ## Moving a range -/

/-- `l'` is `l` without its first `n` elements, with as many new ones after it. -/
def MovedUp (p : α → Prop) (n : Nat) (l l' : List α) : Prop :=
  ∃ bs : List α, bs.length = min n l.length ∧ (∀ b ∈ bs, p b) ∧ l' = l.drop n ++ bs

/-- `l'` is `l` without its last `n` elements, with as many new ones before it. -/
def MovedDown (p : α → Prop) (n : Nat) (l l' : List α) : Prop :=
  ∃ bs : List α, bs.length = min n l.length ∧ (∀ b ∈ bs, p b) ∧ l' = bs ++ l.take (l.length - n)

section Moving

variable {p : α → Prop} {n : Nat} {l l' : List α} {b : α}

theorem MovedUp.refl (p : α → Prop) (l : List α) : MovedUp p 0 l l :=
  ⟨[], (Nat.zero_min _).symm, fun _ hb => absurd hb List.not_mem_nil, (List.append_nil l).symm⟩

theorem MovedDown.refl (p : α → Prop) (l : List α) : MovedDown p 0 l l :=
  ⟨[], (Nat.zero_min _).symm, fun _ hb => absurd hb List.not_mem_nil, by rw [Nat.sub_zero, List.take_length, List.nil_append]⟩

theorem MovedUp.length (h : MovedUp p n l l') : l'.length = l.length := by
  obtain ⟨bs, hlen, -, rfl⟩ := h
  rw [List.length_append, List.length_drop, hlen]
  omega

theorem MovedDown.length (h : MovedDown p n l l') : l'.length = l.length := by
  obtain ⟨bs, hlen, -, rfl⟩ := h
  rw [List.length_append, List.length_take, hlen]
  omega

/-- One more. Once everything is new, the oldest of the new ones goes. -/
theorem MovedUp.step (h : MovedUp p n l l') (hl : l ≠ []) (hb : p b) : MovedUp p (n + 1) l (l'.tail ++ [b]) := by
  obtain ⟨bs, hlen, hbs, rfl⟩ := h
  have hpos := List.length_pos_of_ne_nil hl
  by_cases hn : n < l.length
  · refine ⟨bs ++ [b], ?_, fun c hc => ?_, ?_⟩
    · rw [List.length_append, List.length_singleton, hlen]
      omega
    · rcases List.mem_append.1 hc with hc | hc
      · exact hbs c hc
      · exact List.mem_singleton.1 hc ▸ hb
    · have hne : l.drop n ≠ [] := List.ne_nil_of_length_pos (by rw [List.length_drop]; omega)
      rw [List.tail_append_of_ne_nil hne, List.tail_drop, List.append_assoc]
  · have hdrop : l.drop n = [] := List.drop_of_length_le (by omega)
    refine ⟨bs.tail ++ [b], ?_, fun c hc => ?_, ?_⟩
    · rw [List.length_append, List.length_singleton, List.length_tail, hlen]
      omega
    · rcases List.mem_append.1 hc with hc | hc
      · exact hbs c (List.mem_of_mem_tail hc)
      · exact List.mem_singleton.1 hc ▸ hb
    · rw [hdrop, List.nil_append, List.drop_of_length_le (by omega), List.nil_append]

theorem MovedDown.step (h : MovedDown p n l l') (hl : l ≠ []) (hb : p b) : MovedDown p (n + 1) l (b :: l'.dropLast) := by
  obtain ⟨bs, hlen, hbs, rfl⟩ := h
  have hpos := List.length_pos_of_ne_nil hl
  by_cases hn : n < l.length
  · refine ⟨b :: bs, ?_, List.forall_mem_cons.2 ⟨hb, hbs⟩, ?_⟩
    · rw [List.length_cons, hlen]
      omega
    · have hne : l.take (l.length - n) ≠ [] := List.ne_nil_of_length_pos (by rw [List.length_take]; omega)
      have htake : (l.take (l.length - n)).dropLast = l.take (l.length - (n + 1)) := by
        rw [List.dropLast_eq_take, List.length_take, List.take_take]
        congr 1
        omega
      rw [List.dropLast_append_of_ne_nil hne, htake, List.cons_append]
  · have htake : l.length - n = 0 := by omega
    refine ⟨b :: bs.dropLast, ?_, List.forall_mem_cons.2 ⟨hb, fun c hc => hbs c (List.dropLast_subset bs hc)⟩, ?_⟩
    · rw [List.length_cons, List.length_dropLast, hlen]
      omega
    · rw [htake, List.take_zero, List.append_nil, show l.length - (n + 1) = 0 by omega, List.take_zero, List.append_nil]

/-- Beyond its length nothing more happens to a list. -/
theorem MovedUp.of_min {m : Nat} (h : MovedUp p (min n m) l l') (hm : l.length ≤ m) : MovedUp p n l l' := by
  obtain ⟨bs, hlen, hbs, rfl⟩ := h
  refine ⟨bs, by omega, hbs, congrArg (· ++ bs) ?_⟩
  rcases Nat.le_total n m with hn | hn
  · rw [Nat.min_eq_left hn]
  · rw [Nat.min_eq_right hn, List.drop_of_length_le hm, List.drop_of_length_le (by omega)]

theorem MovedDown.of_min {m : Nat} (h : MovedDown p (min n m) l l') (hm : l.length ≤ m) : MovedDown p n l l' := by
  obtain ⟨bs, hlen, hbs, rfl⟩ := h
  refine ⟨bs, by omega, hbs, congrArg (bs ++ ·) (congrArg (l.take ·) ?_)⟩
  omega

end Moving

/-- The first element of a range taken out, and one put after its last. -/
theorem eraseIdx_insertIdx_up {l : List α} (hl : l ≠ []) (before rest : List α) (b : α) :
    ((before ++ l ++ rest).eraseIdx before.length).insertIdx (before.length + l.length - 1) b = before ++ (l.tail ++ [b]) ++ rest := by
  cases l with
  | nil => exact absurd rfl hl
  | cons a l =>
    have hmid : before.length + (a :: l).length - 1 = (before ++ l).length := by
      rw [List.length_cons, List.length_append]
      omega
    rw [List.append_assoc, List.eraseIdx_append_of_length_le (Nat.le_refl _), Nat.sub_self, List.cons_append, List.eraseIdx_cons_zero,
      hmid, ← List.append_assoc, insertIdx_eq_append b (by simp), List.take_left, List.drop_left, List.tail_cons]
    simp only [List.append_assoc, List.singleton_append]

/-- The last element taken out, and one put before the first. -/
theorem eraseIdx_insertIdx_down {l : List α} (hl : l ≠ []) (before rest : List α) (b : α) :
    ((before ++ l ++ rest).eraseIdx (before.length + l.length - 1)).insertIdx before.length b =
      before ++ (b :: l.dropLast) ++ rest := by
  have hpos := List.length_pos_of_ne_nil hl
  have hlast : (before ++ l).length - 1 < (before ++ l).length := by
    rw [List.length_append]
    omega
  rw [← List.length_append, List.eraseIdx_append_of_lt_length hlast, List.eraseIdx_length_sub_one, List.dropLast_append_of_ne_nil hl,
    insertIdx_eq_append b (by simp), List.append_assoc, List.take_left, List.drop_left]
  simp only [List.append_assoc, List.cons_append]

/-! ## The end of a list -/

theorem rtake_of_length_le {n : Nat} {l : List α} (h : l.length ≤ n) : l.rtake n = l := by
  rw [List.rtake, Nat.sub_eq_zero_of_le h, List.drop_zero]

/-- A bounded queue may forget its oldest entries before or after it grows. -/
theorem rtake_append_rtake (n : Nat) (l m : List α) : (l.rtake n ++ m).rtake n = (l ++ m).rtake n := by
  simp only [List.rtake_eq_reverse_take_reverse, List.reverse_append, List.reverse_reverse, List.take_append,
    List.take_take, List.length_reverse, Nat.min_eq_left (Nat.sub_le n m.length)]

theorem rtake_sublist (n : Nat) (l : List α) : (l.rtake n).Sublist l := List.drop_sublist _ _

/-! ## The first occurrence -/

/-- A list without `a` ends before the first `a`. -/
theorem prefix_of_notMem {a : α} {xs ys before rest : List α} (h : xs ++ ys = before ++ a :: rest) (ha : a ∉ xs) : xs <+: before := by
  rcases List.append_eq_append_iff.mp h with ⟨zs, hzs, -⟩ | ⟨zs, hxs, hzs⟩
  · exact ⟨zs, hzs.symm⟩
  · cases zs with
    | nil => exact ⟨[], by rw [hxs, List.append_nil, List.append_nil]⟩
    | cons z zs =>
      obtain rfl : a = z := (List.cons.inj hzs).1
      exact absurd (hxs ▸ List.mem_append_right before List.mem_cons_self) ha

/-- A list with `a` goes as far as the first `a`. -/
theorem eq_append_of_mem {a : α} {xs ys before rest : List α} (h : xs ++ ys = before ++ a :: rest) (ha : a ∉ before) (hmem : a ∈ xs) :
    ∃ zs, xs = before ++ a :: zs := by
  rcases List.append_eq_append_iff.mp h with ⟨zs, hzs, -⟩ | ⟨zs, hxs, hzs⟩
  · exact absurd (hzs ▸ List.mem_append_left zs hmem) ha
  · cases zs with
    | nil => exact absurd (by rwa [hxs, List.append_nil] at hmem) ha
    | cons z zs => exact ⟨zs, by rw [hxs, (List.cons.inj hzs).1]⟩

/-! ## Entries found by their key -/

section Keys

variable {κ : Type} [DecidableEq κ]

/-- What the first entry of key `k` holds. -/
def found (l : List (κ × List α)) (k : κ) : List α := ((l.find? (·.1 = k)).map Prod.snd).getD []

theorem found_cons_self (e : κ × List α) (l : List (κ × List α)) : found (e :: l) e.1 = e.2 := by simp [found]

theorem found_cons_ne {e : κ × List α} {k : κ} (h : e.1 ≠ k) (l : List (κ × List α)) : found (e :: l) k = found l k := by
  simp [found, h]

theorem exists_of_mem_found {a : α} {k : κ} {l : List (κ × List α)} (h : a ∈ found l k) : ∃ e ∈ l, a ∈ e.2 := by
  unfold found at h
  cases hfind : l.find? (·.1 = k) with
  | none =>
    rw [hfind] at h
    exact absurd h List.not_mem_nil
  | some e =>
    rw [hfind] at h
    exact ⟨e, List.mem_of_find?_eq_some hfind, h⟩

/-- What is left when each of the keys `ks` has been looked up once. -/
def leftOver : List κ → List (κ × List α) → List α
  | _, [] => []
  | ks, e :: l => if e.1 ∈ ks then leftOver (ks.erase e.1) l else e.2 ++ leftOver ks l

theorem flatMap_found_perm {ks : List κ} (h : ks.Nodup) (l : List (κ × List α)) :
    (ks.flatMap (found l) ++ leftOver ks l).Perm (l.flatMap Prod.snd) := by
  induction l generalizing ks with
  | nil => simp [found, leftOver]
  | cons e l ih =>
    rw [leftOver, List.flatMap_cons]
    split
    next hmem =>
      have hrest : (ks.erase e.1).flatMap (found (e :: l)) = (ks.erase e.1).flatMap (found l) :=
        List.flatMap_congr fun k hk => found_cons_ne (fun he => (h.mem_erase_iff.1 hk).1 he.symm) l
      have hks : (ks.flatMap (found (e :: l))).Perm (e.2 ++ (ks.erase e.1).flatMap (found l)) := by
        rw [← hrest, ← found_cons_self e l]
        exact (List.perm_cons_erase hmem).flatMap_right _
      refine (hks.append_right _).trans ?_
      rw [List.append_assoc]
      exact (ih (h.erase _)).append_left _
    next hmem =>
      have hks : ks.flatMap (found (e :: l)) = ks.flatMap (found l) :=
        List.flatMap_congr fun k hk => found_cons_ne (fun he => hmem (he ▸ hk)) l
      rw [hks]
      refine (List.perm_append_comm_assoc _ _ _).trans ?_
      exact (ih h).append_left _

theorem leftOver_eq_nil_iff {ks : List κ} (h : ks.Nodup) (l : List (κ × List α)) : leftOver ks l = [] ↔
    (∀ e ∈ l, e.2 ≠ [] → e.1 ∈ ks) ∧ l.Pairwise fun a b => b.2 ≠ [] → a.1 ≠ b.1 := by
  induction l generalizing ks with
  | nil => simp [leftOver]
  | cons e l ih =>
    rw [leftOver, List.forall_mem_cons, List.pairwise_cons]
    split
    next hmem =>
      rw [ih (h.erase _)]
      simp only [h.mem_erase_iff]
      constructor
      · rintro ⟨hall, hpair⟩
        exact ⟨⟨fun _ => hmem, fun b hb hne => (hall b hb hne).2⟩, fun b hb hne => Ne.symm (hall b hb hne).1, hpair⟩
      · rintro ⟨⟨-, hall⟩, hhead, hpair⟩
        exact ⟨fun b hb hne => ⟨Ne.symm (hhead b hb hne), hall b hb hne⟩, hpair⟩
    next hmem =>
      rw [List.append_eq_nil_iff, ih h]
      constructor
      · rintro ⟨he, hall, hpair⟩
        exact ⟨⟨fun hne => absurd he hne, hall⟩, fun b hb hne heq => hmem (heq ▸ hall b hb hne), hpair⟩
      · rintro ⟨⟨he, hall⟩, -, hpair⟩
        exact ⟨Decidable.not_not.1 fun hne => hmem (he hne), hall, hpair⟩

/-- Looking up keys finds everything when they are the keys of all entries that
hold something, each the first of its key. -/
theorem flatMap_found_perm_iff {ks : List κ} (h : ks.Nodup) (l : List (κ × List α)) :
    (ks.flatMap (found l)).Perm (l.flatMap Prod.snd) ↔
      (∀ e ∈ l, e.2 ≠ [] → e.1 ∈ ks) ∧ l.Pairwise fun a b => b.2 ≠ [] → a.1 ≠ b.1 := by
  rw [← leftOver_eq_nil_iff h]
  have hperm := flatMap_found_perm h l
  constructor
  · intro hks
    have hlen := hks.length_eq.trans hperm.length_eq.symm
    rw [List.length_append] at hlen
    exact List.eq_nil_of_length_eq_zero (by omega)
  · intro hnil
    rwa [hnil, List.append_nil] at hperm

end Keys

end Lists
