import Retach.Palette
/-!
# One id for each style

The users of a style table hold the ids that `intern` gave them until they let
go of them. Styles that are held under two ids come from `reclaim`: a dead
slot's style leaves the index, also when it is the old style of a free slot and
has a new slot by now.
-/

open Checked Runs

namespace Retach

/-- A style table with the ids in use, one entry for each user. -/
structure SharedTable where
  table : StyleTable
  held : List StyleId

namespace SharedTable

inductive Call where
  | intern (style : Style)
  | letGo (id : StyleId)
  | reclaim (live : StyleId → Bool)

def call (u : SharedTable) : Call → Option SharedTable
  | .intern style => do
    let (id, table) ← u.table.intern style
    return { table, held := id :: u.held }
  | .letGo id => some { u with held := u.held.erase id }
  | .reclaim live => some { u with table := u.table.reclaim live }

def new : SharedTable := { table := .new, held := [] }

/-- The live set given to `reclaim` has every id still held. -/
def MarksHeld (u : SharedTable) : Call → Prop
  | .reclaim live => ∀ id ∈ u.held, live id = true
  | _ => True

/-- `reclaim` frees no slot with the style of a held one. -/
def FreesOthers (u : SharedTable) : Call → Prop
  | .reclaim live => ∀ dead ∈ u.table.deadSlots live, ∀ id ∈ u.held, u.table.get id ≠ u.table.get dead
  | _ => True

instance decidableMarksHeld (u : SharedTable) : DecidablePred u.MarksHeld
  | .reclaim live => inferInstanceAs (Decidable (∀ id ∈ u.held, live id = true))
  | .intern _ | .letGo _ => .isTrue trivial

instance decidableFreesOthers (u : SharedTable) : DecidablePred u.FreesOthers
  | .reclaim live =>
    inferInstanceAs (Decidable (∀ dead ∈ u.table.deadSlots live, ∀ id ∈ u.held, u.table.get id ≠ u.table.get dead))
  | .intern _ | .letGo _ => .isTrue trivial

/-! ## The invariant -/

/-- The held ids are in use and each is what its style is interned as. -/
structure Canonical (u : SharedTable) : Prop where
  wf : u.table.Wf
  held : ∀ id ∈ u.held, u.table.Held id
  back : ∀ id ∈ u.held, 0 < id → u.table.index (u.table.get id) = some id

theorem new_canonical : new.Canonical where
  wf := StyleTable.wf_new
  held id hid := by cases hid
  back id hid := by cases hid

variable {u u' : SharedTable}

theorem Canonical.intern (h : u.Canonical) (style : Style) : ∃ u', u.call (.intern style) = some u' ∧ u'.Canonical := by
  obtain ⟨id, t, hint, hwf, hheld, hkeep, -⟩ := h.wf.intern style
  refine ⟨{ table := t, held := id :: u.held }, by rw [call, hint]; rfl, hwf, fun i hi => ?_, fun i hi hpos => ?_⟩
  · rcases List.mem_cons.1 hi with rfl | hi
    · exact hheld
    · exact (hkeep i trivial (h.held i hi)).1
  · by_cases hne : style = {}
    · subst hne
      rw [StyleTable.intern_default, Option.some.injEq, Prod.mk.injEq] at hint
      obtain ⟨rfl, rfl⟩ := hint
      exact h.back i ((List.mem_cons.1 hi).resolve_left (Nat.ne_of_gt hpos)) hpos
    obtain ⟨id', t', hint', hi'⟩ := h.wf.interns hne
    rw [hint, Option.some.injEq, Prod.mk.injEq] at hint'
    obtain ⟨rfl, rfl⟩ := hint'
    rcases List.mem_cons.1 hi with rfl | hi
    · exact hi'.found_self h.wf hpos
    · exact hi'.found (h.held i hi) (h.back i hi hpos)

theorem Canonical.letGo (h : u.Canonical) (id : StyleId) : Canonical { u with held := u.held.erase id } where
  wf := h.wf
  held i hi := h.held i (List.mem_of_mem_erase hi)
  back i hi := h.back i (List.mem_of_mem_erase hi)

/-- `reclaim` leaves the held ids in use. -/
theorem Canonical.reclaim_held (h : u.Canonical) {live : StyleId → Bool} (hlive : u.MarksHeld (.reclaim live)) :
    ∀ id ∈ u.held, (u.table.reclaim live).Held id := fun id hid =>
  (StyleTable.reclaim_keeps u.table live id (hlive id hid) (h.held id hid)).1

/-- After `reclaim` the styles of the held slots are found exactly when none of
them was the style of a dead slot. -/
theorem Canonical.reclaim_iff (h : u.Canonical) {live : StyleId → Bool} (hlive : u.MarksHeld (.reclaim live)) :
    Canonical { u with table := u.table.reclaim live } ↔ u.FreesOthers (.reclaim live) := by
  have hindex (style : Style) : (u.table.reclaim live).index style =
      if style ∈ (u.table.deadSlots live).map u.table.get then none else u.table.index style := rfl
  constructor
  · intro hc dead hdead id hid heq
    obtain ⟨hlt, hne, -⟩ := StyleTable.mem_deadSlots.1 hdead
    have hpos : 0 < id := Nat.pos_of_ne_zero fun h0 => hne (h.wf.get_eq_default hlt (by rw [← heq, h0, h.wf.get_zero]))
    have hback : (u.table.reclaim live).index (u.table.get id) = some id := hc.back id hid hpos
    rw [hindex, if_pos (List.mem_map.2 ⟨dead, hdead, heq.symm⟩)] at hback
    cases hback
  · intro hfrees
    refine ⟨h.wf.reclaim live, h.reclaim_held hlive, ?_⟩
    intro id hid hpos
    change (u.table.reclaim live).index (u.table.get id) = some id
    rw [hindex, if_neg, h.back id hid hpos]
    rintro hmem
    obtain ⟨dead, hdead, heq⟩ := List.mem_map.1 hmem
    exact hfrees dead hdead id hid heq.symm

/-- One call. -/
theorem Canonical.call (h : u.Canonical) {c : Call} (hmarks : u.MarksHeld c) (hfrees : u.FreesOthers c)
    (hcall : u.call c = some u') : u'.Canonical := by
  cases c with
  | intern style =>
    obtain ⟨u'', hu'', hc⟩ := h.intern style
    obtain rfl : u'' = u' := by simpa [hu''] using hcall
    exact hc
  | letGo id =>
    obtain rfl := Option.some.inj hcall
    exact h.letGo id
  | reclaim live =>
    obtain rfl := Option.some.inj hcall
    exact (h.reclaim_iff hmarks).2 hfrees

/-- Held ids of one style are the same. -/
theorem Canonical.unique (h : u.Canonical) {i j : StyleId} (hi : i ∈ u.held) (hj : j ∈ u.held)
    (heq : u.table.get i = u.table.get j) : i = j := by
  rcases Nat.eq_zero_or_pos i with rfl | hpos
  · rw [h.wf.get_zero] at heq
    exact (h.wf.get_eq_default (h.held j hj).1 heq.symm).symm
  rcases Nat.eq_zero_or_pos j with rfl | hpos'
  · rw [h.wf.get_zero] at heq
    exact h.wf.get_eq_default (h.held i hi).1 heq
  · have hback := h.back i hi hpos
    rw [heq, h.back j hj hpos', Option.some.injEq] at hback
    exact hback.symm

/-- A held style is interned as the id that holds it. -/
theorem Canonical.again (h : u.Canonical) {id : StyleId} (hid : id ∈ u.held) :
    u.table.intern (u.table.get id) = some (id, u.table) := by
  rcases Nat.eq_zero_or_pos id with rfl | hpos
  · rw [h.wf.get_zero, StyleTable.intern_default]
  · have hne : ¬ (u.table.get id).isDefault := fun hd =>
      Nat.ne_of_gt hpos (h.wf.get_eq_default (h.held id hid).1 (by simpa [Style.isDefault] using hd))
    rw [StyleTable.intern, if_neg hne, h.back id hid hpos]

/-! ## Runs -/

/-- As long as `reclaim` frees no slot with the style of a held one, held ids of
one style are the same, and interning a held style gives the id again. -/
theorem run_canonical {calls : List Call} {u : SharedTable} (hmarks : Along call MarksHeld new calls)
    (hfrees : Along call FreesOthers new calls) (hrun : calls.foldlM call new = some u) :
    (∀ i ∈ u.held, ∀ j ∈ u.held, u.table.get i = u.table.get j → i = j) ∧
      (∀ id ∈ u.held, 0 < id → u.table.index (u.table.get id) = some id) ∧
      ∀ id ∈ u.held, u.table.intern (u.table.get id) = some (id, u.table) := by
  have h : u.Canonical := (hmarks.and hfrees).keeps (I := Canonical) (fun u c u' hu hc hcall => hu.call hc.1 hc.2 hcall)
    new_canonical hrun
  exact ⟨fun i hi j hj heq => h.unique hi hj heq, h.back, fun id hid => h.again hid⟩

def bold : Style := { bold := true }

def dim : Style := { dim := true }

/-- Two styles interned, one of them let go of and its slot reused. -/
theorem run_canonical_sample : ∃ u, [.intern bold, .intern dim, .letGo 1, .reclaim (· ≠ 1), .intern bold].foldlM call new =
      some u ∧ u.held = [1, 2] ∧ ∀ id ∈ u.held, u.table.intern (u.table.get id) = some (id, u.table) := by
  have hmarks : Along call MarksHeld new [.intern bold, .intern dim, .letGo 1, .reclaim (· ≠ 1), .intern bold] :=
    .cons trivial rfl (.cons trivial rfl (.cons trivial rfl (.cons (by decide) rfl (.cons trivial rfl trivial))))
  have hfrees : Along call FreesOthers new [.intern bold, .intern dim, .letGo 1, .reclaim (· ≠ 1), .intern bold] :=
    .cons trivial rfl (.cons trivial rfl (.cons trivial rfl (.cons (by decide) rfl (.cons trivial rfl trivial))))
  exact ⟨_, rfl, rfl, (run_canonical hmarks hfrees rfl).2.2⟩

/-- Two slots are freed and one of the styles comes back in the other's slot.
Freeing its old slot once more forgets it, and it gets a second slot. -/
theorem run_duplicates : ∃ u, Along call MarksHeld new
      [.intern bold, .intern dim, .letGo 1, .letGo 2, .reclaim (· = 0), .intern bold, .reclaim (· ≠ 1), .intern bold] ∧
    [.intern bold, .intern dim, .letGo 1, .letGo 2, .reclaim (· = 0), .intern bold, .reclaim (· ≠ 1), .intern bold].foldlM
      call new = some u ∧ ¬ ∀ i ∈ u.held, ∀ j ∈ u.held, u.table.get i = u.table.get j → i = j := by
  refine ⟨_, ?_, rfl, fun h => absurd (h 1 (by decide) 2 (by decide) rfl) (by decide)⟩
  exact .cons trivial rfl (.cons trivial rfl (.cons trivial rfl (.cons trivial rfl (.cons (by decide) rfl
    (.cons trivial rfl (.cons (by decide) rfl (.cons trivial rfl trivial)))))))

end SharedTable

end Retach
