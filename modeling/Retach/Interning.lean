import Retach.Screen
/-!
# Interning styles

What the style table keeps: slot 0 is the default style, every indexed style
is in its slot, and the slots of the free list are outside the index. A slot is
`Held` when it is not free; interning and collecting garbage change no slot
that a cell holds.
-/

open Checked

namespace Retach

namespace StyleTable

/-- The slot exists and is not on the free list. -/
def Held (t : StyleTable) (id : StyleId) : Prop := id < t.styles.length ∧ id ∉ t.freeSlots

structure Wf (t : StyleTable) : Prop where
  default_zero : t.styles[0]? = some ({} : Style)
  default_only : ∀ id, t.styles[id]? = some ({} : Style) → id = 0
  size_le : t.styles.length ≤ 65536
  free_pos : ∀ id ∈ t.freeSlots, 0 < id
  free_lt : ∀ id ∈ t.freeSlots, id < t.styles.length
  free_nodup : t.freeSlots.Nodup
  indexed : ∀ style id, t.index style = some id → t.styles[id]? = some style ∧ id ∉ t.freeSlots

/-- `t'` keeps the slots that satisfy `p`, with their styles. -/
def Keeps (p : StyleId → Prop) (t t' : StyleTable) : Prop := ∀ id, p id → t.Held id → t'.Held id ∧ t'.get id = t.get id

/-- `t'` keeps the slots of `t` that it has not logged as freed since. -/
def Logs (t t' : StyleTable) : Prop := ∃ dead, t'.freed = t.freed ++ dead ∧ t.Keeps (· ∉ dead) t'

/-- The slots freed from `t` to `t'`. -/
def freedSince (t t' : StyleTable) : List StyleId := t'.freed.drop t.freed.length

theorem wf_new : new.Wf where
  default_zero := rfl
  default_only := fun id hid => Nat.lt_one_iff.1 (List.getElem?_eq_some_iff.1 hid).1
  size_le := by simp [new]
  free_pos := by simp [new]
  free_lt := by simp [new]
  free_nodup := .nil
  indexed := by simp [new]

theorem wf_reset (t : StyleTable) : t.reset.Wf := { wf_new with }

theorem Wf.zero_lt {t : StyleTable} (h : t.Wf) : 0 < t.styles.length := (List.getElem?_eq_some_iff.1 h.default_zero).1

theorem Wf.held_zero {t : StyleTable} (h : t.Wf) : t.Held 0 :=
  ⟨h.zero_lt, fun h0 => Nat.lt_irrefl 0 (h.free_pos 0 h0)⟩

/-- No slot but 0 has the default style. -/
theorem Wf.get_eq_default {t : StyleTable} (h : t.Wf) {id : StyleId} (hid : id < t.styles.length) (hget : t.get id = {}) :
    id = 0 := by
  refine h.default_only id ?_
  rw [List.getElem?_eq_getElem hid, ← hget, get, List.getD_eq_getElem?_getD, List.getElem?_eq_getElem hid, Option.getD_some]

theorem Wf.get_zero {t : StyleTable} (h : t.Wf) : t.get 0 = {} := by
  rw [get, List.getD_eq_getElem?_getD, h.default_zero, Option.getD_some]

theorem get_eq {t : StyleTable} {id : StyleId} {style : Style} (h : t.styles[id]? = some style) : t.get id = style := by
  rw [get, List.getD_eq_getElem?_getD, h, Option.getD_some]

theorem Keeps.refl (p : StyleId → Prop) (t : StyleTable) : Keeps p t t := fun _ _ h => ⟨h, rfl⟩

theorem Keeps.trans {p : StyleId → Prop} {t₁ t₂ t₃ : StyleTable} (h : Keeps p t₁ t₂) (h' : Keeps p t₂ t₃) :
    Keeps p t₁ t₃ := fun id hp hid => by
  obtain ⟨h2, e2⟩ := h id hp hid
  obtain ⟨h3, e3⟩ := h' id hp h2
  exact ⟨h3, e3.trans e2⟩

theorem Logs.refl (t : StyleTable) : t.Logs t := ⟨[], (List.append_nil _).symm, .refl _ t⟩

theorem Logs.trans {t₁ t₂ t₃ : StyleTable} (h : t₁.Logs t₂) (h' : t₂.Logs t₃) : t₁.Logs t₃ := by
  obtain ⟨dead, hdead, hkeep⟩ := h
  obtain ⟨dead', hdead', hkeep'⟩ := h'
  refine ⟨dead ++ dead', by rw [hdead', hdead, List.append_assoc], ?_⟩
  intro id hid hheld
  simp only [List.mem_append, not_or] at hid
  obtain ⟨h₂, e₂⟩ := hkeep id hid.1 hheld
  obtain ⟨h₃, e₃⟩ := hkeep' id hid.2 h₂
  exact ⟨h₃, e₃.trans e₂⟩

theorem Logs.keeps {t t' : StyleTable} (h : t.Logs t') : t.Keeps (· ∉ t.freedSince t') t' := by
  obtain ⟨dead, hdead, hkeep⟩ := h
  rwa [freedSince, hdead, List.drop_left]

theorem Keeps.logs {t t' : StyleTable} (h : t.Keeps (fun _ => True) t') (hfreed : t'.freed = t.freed) : t.Logs t' :=
  ⟨[], by rw [hfreed, List.append_nil], fun id _ => h id trivial⟩

/-! ## Interning -/

/-- Reusing a free slot. -/
theorem Wf.reuse {t : StyleTable} (h : t.Wf) {id : StyleId} (hid : t.freeSlots.getLast? = some id) {style : Style}
    (hstyle : style ≠ {}) :
    Wf { t with styles := t.styles.set id style, index := t.insertIndex style id, freeSlots := t.freeSlots.dropLast } := by
  obtain ⟨init, hinit⟩ : ∃ init, t.freeSlots = init ++ [id] := List.getLast?_eq_some_iff.1 hid
  have hmem : id ∈ t.freeSlots := by rw [hinit]; simp
  have hdrop : t.freeSlots.dropLast = init := by rw [hinit]; simp
  have hnd := h.free_nodup
  rw [hinit, List.nodup_append] at hnd
  have hsub : ∀ i ∈ init, i ∈ t.freeSlots := fun i hi => by rw [hinit]; simp [hi]
  have hpos := h.free_pos id hmem
  rw [hdrop]
  refine ⟨?_, fun i hi => ?_, ?_, fun i hi => h.free_pos i (hsub i hi), fun i hi => ?_, hnd.1, fun s i hs => ?_⟩
  · rw [List.getElem?_set_ne (Nat.ne_of_gt hpos)]; exact h.default_zero
  · by_cases hne : id = i
    · subst hne
      rw [List.getElem?_set_self (h.free_lt id hmem), Option.some.injEq] at hi
      exact absurd hi hstyle
    · rw [List.getElem?_set_ne hne] at hi
      exact h.default_only i hi
  · rw [List.length_set]; exact h.size_le
  · rw [List.length_set]; exact h.free_lt i (hsub i hi)
  · simp only [insertIndex] at hs
    split at hs
    next heq =>
      obtain rfl : id = i := by simpa using hs
      rw [heq]
      exact ⟨List.getElem?_set_self (h.free_lt id hmem), fun hi => hnd.2.2 _ hi _ (by simp) rfl⟩
    next =>
      obtain ⟨hget, hfree⟩ := h.indexed s i hs
      have hne : id ≠ i := fun e => hfree (e ▸ hmem)
      exact ⟨by rw [List.getElem?_set_ne hne]; exact hget, fun hi => hfree (hsub i hi)⟩

/-- A new slot. -/
theorem Wf.extend {t : StyleTable} (h : t.Wf) (hsize : ¬ t.styles.length > u16Max) {style : Style} (hstyle : style ≠ {}) :
    Wf { t with styles := t.styles ++ [style], index := t.insertIndex style t.styles.length } := by
  have hpos := h.zero_lt
  refine ⟨?_, fun i hi => ?_, ?_, h.free_pos, fun i hi => ?_, h.free_nodup, fun s i hs => ?_⟩
  · rw [List.getElem?_append_left hpos]; exact h.default_zero
  · by_cases hlt : i < t.styles.length
    · rw [List.getElem?_append_left hlt] at hi
      exact h.default_only i hi
    · rw [List.getElem?_append_right (Nat.le_of_not_lt hlt)] at hi
      exact absurd (List.mem_singleton.1 (List.mem_of_getElem? hi)).symm hstyle
  · simp only [u16Max] at hsize; simp only [List.length_append, List.length_singleton]; omega
  · rw [List.length_append]; exact Nat.lt_add_right _ (h.free_lt i hi)
  · simp only [insertIndex] at hs
    split at hs
    next heq =>
      obtain rfl : t.styles.length = i := by simpa using hs
      refine ⟨by rw [heq, List.getElem?_concat_length], fun hi => ?_⟩
      exact absurd (h.free_lt _ hi) (Nat.lt_irrefl _)
    next =>
      obtain ⟨hget, hfree⟩ := h.indexed s i hs
      exact ⟨by rw [List.getElem?_append_left (List.getElem?_eq_some_iff.1 hget).1]; exact hget, hfree⟩

/-- `intern` succeeds, returns a held slot and keeps all held slots. The slot
has the style, unless the table is full: then it is the default slot. -/
theorem Wf.intern {t : StyleTable} (h : t.Wf) (style : Style) :
    ∃ id t', t.intern style = some (id, t') ∧ t'.Wf ∧ t'.Held id ∧ Keeps (fun _ => True) t t' ∧
      t'.freed = t.freed ∧ (t'.get id = style ∨ id = 0 ∧ ¬ style.isDefault ∧ t' = t ∧ t.isFull) := by
  unfold StyleTable.intern
  split
  next hd =>
    refine ⟨0, t, rfl, h, h.held_zero, .refl _ _, rfl, .inl ?_⟩
    rw [h.get_zero]
    simpa [Style.isDefault, eq_comm] using hd
  next hd =>
    have hstyle : style ≠ {} := by simpa [Style.isDefault] using hd
    split
    next id hid =>
      obtain ⟨hget, hfree⟩ := h.indexed style id hid
      exact ⟨id, t, rfl, h, ⟨(List.getElem?_eq_some_iff.1 hget).1, hfree⟩, .refl _ _, rfl, .inl (get_eq hget)⟩
    next =>
      split
      next id hid =>
        obtain ⟨init, hinit⟩ : ∃ init, t.freeSlots = init ++ [id] := List.getLast?_eq_some_iff.1 hid
        have hmem : id ∈ t.freeSlots := by rw [hinit]; simp
        have hlt := h.free_lt id hmem
        have hwf := h.reuse hid hstyle
        refine ⟨id, _, by rw [setAt_eq hlt]; rfl, hwf, ?_, fun i _ hi => ⟨⟨?_, ?_⟩, ?_⟩, rfl, .inl ?_⟩
        · exact (hwf.indexed style id (by simp [insertIndex])).elim fun hg hf => ⟨(List.getElem?_eq_some_iff.1 hg).1, hf⟩
        · simpa using hi.1
        · rw [hinit, List.dropLast_concat]
          exact fun hi' => hi.2 (by rw [hinit]; simp [hi'])
        · have hne : id ≠ i := fun e => hi.2 (e ▸ hmem)
          simp only [get, List.getD_eq_getElem?_getD, List.getElem?_set_ne hne]
        · exact get_eq (List.getElem?_set_self hlt)
      next hnone =>
        split
        next hfull =>
          refine ⟨0, t, rfl, h, h.held_zero, .refl _ _, rfl, .inr ⟨rfl, hd, rfl, ?_⟩⟩
          simpa [isFull, List.getLast?_eq_none_iff.1 hnone] using hfull
        next hsize =>
          have hfree : t.freeSlots = [] := List.getLast?_eq_none_iff.1 hnone
          refine ⟨_, _, rfl, h.extend hsize hstyle, ⟨?_, ?_⟩, fun i _ hi => ⟨⟨?_, hi.2⟩, ?_⟩, rfl, .inl ?_⟩
          · simp
          · simp [hfree]
          · rw [List.length_append]; exact Nat.lt_add_right _ hi.1
          · simp only [get, List.getD_eq_getElem?_getD, List.getElem?_append_left hi.1]
          · exact get_eq (by rw [List.getElem?_concat_length])

/-! ## Collecting garbage -/

theorem mem_deadSlots {t : StyleTable} {live : StyleId → Bool} {id : StyleId} :
    id ∈ t.deadSlots live ↔ id < t.styles.length ∧ id ≠ 0 ∧ ¬ live id := by
  simp [deadSlots]

theorem Wf.reclaim {t : StyleTable} (h : t.Wf) (live : StyleId → Bool) : (t.reclaim live).Wf where
  default_zero := h.default_zero
  default_only := h.default_only
  size_le := h.size_le
  free_pos := fun id hid => Nat.pos_of_ne_zero (mem_deadSlots.1 hid).2.1
  free_lt := fun id hid => (mem_deadSlots.1 hid).1
  free_nodup := List.nodup_range.sublist List.filter_sublist
  indexed := fun style id hid => by
    simp only [StyleTable.reclaim] at hid
    split at hid
    · cases hid
    next hnot =>
      obtain ⟨hget, -⟩ := h.indexed style id hid
      exact ⟨hget, fun hdead => hnot (List.mem_map.2 ⟨id, hdead, get_eq hget⟩)⟩

/-- The live slots stay held, whatever was free before. -/
theorem reclaim_keeps (t : StyleTable) (live : StyleId → Bool) : Keeps (fun id => live id = true) t (t.reclaim live) :=
  fun _ hlive hid => ⟨⟨hid.1, fun hdead => (mem_deadSlots.1 hdead).2.2 hlive⟩, rfl⟩

theorem reclaim_logs (t : StyleTable) (live : StyleId → Bool) : t.Logs (t.reclaim live) :=
  ⟨t.deadSlots live, rfl, fun _ hid hheld => ⟨⟨hheld.1, hid⟩, rfl⟩⟩

theorem Wf.reset_logs {t : StyleTable} (h : t.Wf) : t.Logs t.reset := by
  refine ⟨t.deadSlots fun _ => false, rfl, ?_⟩
  intro id hid hheld
  obtain rfl : id = 0 := by
    simpa [mem_deadSlots, hheld.1] using hid
  exact ⟨(wf_reset t).held_zero, ((wf_reset t).get_zero).trans h.get_zero.symm⟩

end StyleTable

/-! ## What cells show -/

theorem usesStyle_iff {rows : List Row} {id : StyleId} :
    usesStyle rows id = true ↔ ∃ row ∈ rows, ∃ c ∈ row.cells, c.styleId = id := by
  simp [usesStyle]

/-- The character, the width and the style of a cell. -/
def Cell.shown (t : StyleTable) (c : Cell) : Char × Nat × Style := (c.c, c.width, t.get c.styleId)

/-- What a row shows: its cells and its combining marks. -/
def Row.shown (t : StyleTable) (row : Row) : List (Char × Nat × Style) × List (Nat × List Char) :=
  (row.cells.map (Cell.shown t), row.combining)

/-- Rows look the same in a table that keeps their styles. -/
theorem StyleTable.Keeps.shown {t t' : StyleTable} {rows : List Row} (h : t.Keeps (fun id => usesStyle rows id = true) t')
    (hheld : ∀ row ∈ rows, ∀ c ∈ row.cells, t.Held c.styleId) : rows.map (Row.shown t') = rows.map (Row.shown t) := by
  refine List.map_congr_left fun row hr => Prod.ext (List.map_congr_left fun c hc => ?_) rfl
  have hget := (h c.styleId (usesStyle_iff.2 ⟨row, hr, c, hc, rfl⟩) (hheld row hr c hc)).2
  simp only [Cell.shown, hget]

end Retach
