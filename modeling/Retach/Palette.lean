import Mathlib.Data.Finset.Card
import Retach.Handlers
/-!
# Styles on another terminal

A terminal that is sent text in the styles of a palette interns each of them.
It shows them all as long as its table has room for those it does not hold yet.
Collecting garbage makes that room when the rows in the terminal use styles of
the palette only and no style has two slots.
-/

open Checked

namespace Retach

namespace StyleTable

variable {t : StyleTable} {P : Finset Style} {style : Style}

/-! ## Interning, case by case -/

/-- What `intern` does for a style other than the default one. -/
inductive Interns (t : StyleTable) (style : Style) : StyleId → StyleTable → Prop
  | known {id} : t.index style = some id → Interns t style id t
  | reuse {init id} : t.index style = none → t.freeSlots = init ++ [id] → id < t.styles.length →
      Interns t style id { t with styles := t.styles.set id style, index := t.insertIndex style id, freeSlots := init }
  | extend : t.index style = none → t.freeSlots = [] → t.styles.length ≤ u16Max →
      Interns t style t.styles.length
        { t with styles := t.styles ++ [style], index := t.insertIndex style t.styles.length }
  | full : t.index style = none → t.isFull = true → Interns t style 0 t

theorem Wf.interns (h : t.Wf) (hstyle : style ≠ {}) : ∃ id t', t.intern style = some (id, t') ∧ t.Interns style id t' := by
  unfold StyleTable.intern
  rw [if_neg (by simpa [Style.isDefault] using hstyle)]
  cases hindex : t.index style with
  | some id => exact ⟨id, t, rfl, .known hindex⟩
  | none =>
    rcases List.eq_nil_or_concat t.freeSlots with hfree | ⟨init, id, hfree⟩
    · simp only [hfree, List.getLast?_nil]
      split
      next hfull => exact ⟨0, t, rfl, .full hindex (by simpa [isFull, hfree] using hfull)⟩
      next hsize => exact ⟨_, _, rfl, hfree ▸ .extend hindex hfree (Nat.le_of_not_lt hsize)⟩
    · rw [List.concat_eq_append] at hfree
      have hlt := h.free_lt id (by simp [hfree])
      simp only [hfree, List.getLast?_concat, List.dropLast_concat, setAt_eq hlt]
      exact ⟨id, _, rfl, .reuse hindex hfree hlt⟩

theorem intern_default (t : StyleTable) : t.intern {} = some (0, t) := rfl

/-! ## Room for a palette -/

/-- The styles of the palette that have no slot. -/
def missing (P : Finset Style) (t : StyleTable) : Finset Style := P.filter fun style => style ≠ {} ∧ t.index style = none

/-- There is a slot left for each style that has none. -/
def Room (P : Finset Style) (t : StyleTable) : Prop :=
  t.styles.length + (t.missing P).card ≤ 65536 + t.freeSlots.length

instance (P : Finset Style) (t : StyleTable) : Decidable (t.Room P) := inferInstanceAs (Decidable (_ ≤ _))

theorem mem_missing {s : Style} : s ∈ t.missing P ↔ s ∈ P ∧ s ≠ {} ∧ t.index s = none := Finset.mem_filter

theorem missing_insert (id : StyleId) (styles : List Style) (freeSlots : List StyleId) (hstyle : style ∈ t.missing P) :
    (missing P { t with styles, index := t.insertIndex style id, freeSlots }).card + 1 = (t.missing P).card := by
  have herase : missing P { t with styles, index := t.insertIndex style id, freeSlots } = (t.missing P).erase style := by
    ext s
    rw [mem_missing, Finset.mem_erase, mem_missing]
    by_cases hs : s = style <;> simp [insertIndex, hs]
  rw [herase, Finset.card_erase_add_one hstyle]

theorem Interns.room {id : StyleId} {t' : StyleTable} (h : t.Interns style id t') (hstyle : style ∈ P) (hne : style ≠ {})
    (hroom : t.Room P) : t'.Room P := by
  have hmissing (hindex : t.index style = none) : style ∈ t.missing P := mem_missing.2 ⟨hstyle, hne, hindex⟩
  cases h with
  | known | full => exact hroom
  | @reuse init id hindex hfree hlt =>
    have hcard := missing_insert id (t.styles.set id style) init (hmissing hindex)
    simp only [Room, hfree, List.length_append, List.length_singleton, List.length_set] at hroom ⊢
    omega
  | extend hindex hfree hsize =>
    have hcard := missing_insert t.styles.length (t.styles ++ [style]) t.freeSlots (hmissing hindex)
    simp only [Room, List.length_append, List.length_singleton] at hroom ⊢
    omega

/-- With room for the palette the table is not full of other styles. -/
theorem Room.not_full (hroom : t.Room P) (hstyle : style ∈ P) (hne : style ≠ {}) (hindex : t.index style = none) :
    t.isFull = false := by
  have hpos : 0 < (t.missing P).card := Finset.card_pos.2 ⟨style, mem_missing.2 ⟨hstyle, hne, hindex⟩⟩
  by_contra hfull
  simp only [isFull, u16Max, Bool.not_eq_false, decide_eq_true_eq, List.isEmpty_iff] at hfull
  simp only [Room, hfull.2, List.length_nil] at hroom
  omega

/-! ## One slot for each style -/

/-- Every style in use is found again, and the default style has slot 0. -/
structure Tidy (t : StyleTable) : Prop where
  back : ∀ id, 0 < id → t.Held id → t.index (t.get id) = some id
  default_out : t.index {} = none

theorem tidy_new : new.Tidy where
  back id hpos hid := by
    exact absurd hid.1 (Nat.not_lt.2 hpos)
  default_out := rfl

/-- Interning a style leaves the index entries of the slots in use. -/
theorem Interns.found {id i : StyleId} {t' : StyleTable} (h : t.Interns style id t') (hi : t.Held i)
    (hback : t.index (t.get i) = some i) : t'.index (t'.get i) = some i := by
  have hother (hindex : t.index style = none) : t.get i ≠ style := fun he => by
    rw [he, hindex] at hback
    cases hback
  cases h with
  | known | full => exact hback
  | @reuse init id hindex hfree hlt =>
    have hid : id ≠ i := fun he => hi.2 (by simp [hfree, he])
    have hget : get { t with styles := t.styles.set id style, index := t.insertIndex style id, freeSlots := init } i =
        t.get i := by
      simp only [get, List.getD_eq_getElem?_getD, List.getElem?_set_ne hid]
    rw [hget]
    simp only [insertIndex, if_neg (hother hindex), hback]
  | extend hindex hfree hsize =>
    have hget : get { t with styles := t.styles ++ [style], index := t.insertIndex style t.styles.length } i = t.get i := by
      simp only [get, List.getD_eq_getElem?_getD, List.getElem?_append_left hi.1]
    rw [hget]
    simp only [insertIndex, if_neg (hother hindex), hback]

/-- A style that got a slot is found there. -/
theorem Interns.found_self {id : StyleId} {t' : StyleTable} (h : t.Interns style id t') (hwf : t.Wf) (hpos : 0 < id) :
    t'.index (t'.get id) = some id := by
  cases h with
  | known hindex => rwa [get_eq (hwf.indexed style id hindex).1]
  | full => exact absurd hpos (Nat.lt_irrefl 0)
  | @reuse init id hindex hfree hlt => simp [get, insertIndex, hlt]
  | extend hindex hfree hsize => simp [get, insertIndex]

theorem Interns.tidy {id : StyleId} {t' : StyleTable} (h : t.Interns style id t') (hne : style ≠ {}) (hwf : t.Wf)
    (ht : t.Tidy) : t'.Tidy where
  back i hpos hi := by
    by_cases hid : i = id
    · subst hid
      exact h.found_self hwf hpos
    · have hheld : t.Held i := by
        cases h with
        | known | full => exact hi
        | @reuse init id hindex hfree hlt =>
          refine ⟨by simpa using hi.1, ?_⟩
          intro hmem
          rw [hfree, List.mem_append, List.mem_singleton] at hmem
          exact hmem.elim hi.2 hid
        | extend hindex hfree hsize =>
          have hle : i < t.styles.length + 1 := by simpa using hi.1
          exact ⟨Nat.lt_of_le_of_ne (Nat.le_of_lt_succ hle) hid, hi.2⟩
      exact h.found hheld (ht.back i hpos hheld)
  default_out := by
    cases h with
    | known | full => exact ht.default_out
    | reuse | extend => simpa [insertIndex, Ne.symm hne] using ht.default_out

/-- A full table has no free slot with an old style in it, so collecting
garbage keeps every live style in the index. -/
theorem Tidy.reclaim (ht : t.Tidy) (hfree : t.freeSlots = []) (live : StyleId → Bool) : (t.reclaim live).Tidy where
  back id hpos hid := by
    have hheld {i : StyleId} (hi : i < t.styles.length) : t.Held i := ⟨hi, by simp [hfree]⟩
    have hlive : ¬ get t id ∈ (t.deadSlots live).map t.get := by
      simp only [List.mem_map, not_exists, not_and]
      intro d hd heq
      obtain ⟨hlt, hd0, -⟩ := mem_deadSlots.1 hd
      have hback := ht.back d (Nat.pos_of_ne_zero hd0) (hheld hlt)
      rw [heq, ht.back id hpos (hheld hid.1), Option.some.injEq] at hback
      exact hid.2 (hback ▸ hd)
    change (if get t id ∈ (t.deadSlots live).map t.get then none else t.index (t.get id)) = some id
    rw [if_neg hlive]
    exact ht.back id hpos (hheld hid.1)
  default_out := by
    simp only [StyleTable.reclaim, ht.default_out, ite_self]

/-- Collecting garbage makes room for a palette that has all live styles. -/
theorem Tidy.room_reclaim (ht : t.Tidy) (hwf : t.Wf) (hfree : t.freeSlots = []) {live : StyleId → Bool}
    (hlive : ∀ id, 0 < id → id < t.styles.length → live id = true → t.get id ∈ P) (hP : (P.erase {}).card ≤ 65535) :
    (t.reclaim live).Room P := by
  have htidy := ht.reclaim hfree live
  have hsize := hwf.size_le
  -- the live slots, each with a style of its own that is not missing
  let used := ((List.range t.styles.length).filter fun id => id ≠ 0 ∧ live id).toFinset
  have hmem {id : StyleId} : id ∈ used ↔ id < t.styles.length ∧ id ≠ 0 ∧ live id = true := by simp [used]
  have hback {id : StyleId} (hid : id ∈ used) : (t.reclaim live).index (t.get id) = some id := by
    obtain ⟨hlt, hpos, hl⟩ := hmem.1 hid
    exact htidy.back id (Nat.pos_of_ne_zero hpos) ⟨hlt, fun hd => (mem_deadSlots.1 hd).2.2 hl⟩
  have hinj : Set.InjOn t.get used := fun i hi j hj heq => by
    have := hback hi
    rw [heq, hback hj, Option.some.injEq] at this
    exact this.symm
  have hdisj : Disjoint (used.image t.get) (missing P (t.reclaim live)) := by
    rw [Finset.disjoint_left]
    rintro _ hs hmiss
    obtain ⟨id, hid, rfl⟩ := Finset.mem_image.1 hs
    have := (mem_missing.1 hmiss).2.2
    rw [hback hid] at this
    cases this
  have hsub : used.image t.get ∪ missing P (t.reclaim live) ⊆ P.erase {} := by
    intro s hs
    rcases Finset.mem_union.1 hs with hs | hs
    · obtain ⟨id, hid, rfl⟩ := Finset.mem_image.1 hs
      obtain ⟨hlt, hpos, hl⟩ := hmem.1 hid
      refine Finset.mem_erase.2 ⟨fun h0 => ?_, hlive id (Nat.pos_of_ne_zero hpos) hlt hl⟩
      have := hback hid
      rw [h0, htidy.default_out] at this
      cases this
    · exact Finset.mem_erase.2 ⟨(mem_missing.1 hs).2.1, (mem_missing.1 hs).1⟩
  have hcard := Finset.card_le_card hsub
  rw [Finset.card_union_of_disjoint hdisj, Finset.card_image_of_injOn hinj] at hcard
  have hall : used.card + (t.deadSlots live).length + 1 = t.styles.length := by
    have hdead : ((t.deadSlots live).toFinset).card = (t.deadSlots live).length :=
      List.toFinset_card_of_nodup (List.nodup_range.sublist List.filter_sublist)
    have hsplit : insert 0 (used ∪ (t.deadSlots live).toFinset) = Finset.range t.styles.length := by
      ext id
      simp only [Finset.mem_insert, Finset.mem_union, hmem, List.mem_toFinset, mem_deadSlots, Finset.mem_range]
      have := hwf.zero_lt
      by_cases h0 : id = 0
      · simp [h0, this]
      · by_cases hl : live id = true <;> simp [h0, hl]
    have hnot : (0 : StyleId) ∉ used ∪ (t.deadSlots live).toFinset := by
      simp [hmem, mem_deadSlots]
    have hsep : Disjoint used (t.deadSlots live).toFinset := by
      rw [Finset.disjoint_left]
      intro id hid hd
      exact (mem_deadSlots.1 (List.mem_toFinset.1 hd)).2.2 (hmem.1 hid).2.2
    have := congrArg Finset.card hsplit
    rwa [Finset.card_insert_of_notMem hnot, Finset.card_union_of_disjoint hsep, hdead, Finset.card_range] at this
  change t.styles.length + (missing P (t.reclaim live)).card ≤ 65536 + (t.deadSlots live).length
  omega

end StyleTable

/-! ## Screens with room -/

namespace Screen

variable {T : Screen} {P : Finset Style} {style : Style}

/-- The terminal shows any further text in the styles of the palette: its table
has room, or collecting garbage makes room when needed. -/
def Fits (P : Finset Style) (T : Screen) : Prop :=
  T.grid.styleTable.Room P ∨
    T.grid.styleTable.Tidy ∧ (P.erase {}).card ≤ 65535 ∧
      ∀ id, 0 < id → usesStyle T.allRows id = true → T.grid.styleTable.get id ∈ P

/-- New cells are in styles of the palette. -/
theorem Fits.rows (h : T.Fits P) {T' : Screen} (htable : T'.grid.styleTable = T.grid.styleTable)
    (hrows : ∀ id, 0 < id → usesStyle T'.allRows id = true →
      usesStyle T.allRows id = true ∨ T.grid.styleTable.get id ∈ P) : T'.Fits P := by
  unfold Fits
  rw [htable]
  refine h.imp_right fun ⟨htidy, hP, hused⟩ => ⟨htidy, hP, fun id hpos hid => ?_⟩
  exact (hrows id hpos hid).elim (hused id hpos) fun h => h

/-- New rows are blank. -/
theorem Fits.blanks (h : T.Fits P) {T' : Screen} (htable : T'.grid.styleTable = T.grid.styleTable)
    (hrows : ∀ row ∈ T'.allRows, row ∈ T.allRows ∨ ∀ c ∈ row.cells, c.styleId = 0) : T'.Fits P := by
  apply h.rows htable
  intro id hpos hid
  obtain ⟨row, hrow, c, hc, rfl⟩ := usesStyle_iff.1 hid
  rcases hrows row hrow with hold | hblank
  · exact .inl (usesStyle_iff.2 ⟨row, hold, c, hc, rfl⟩)
  · exact absurd (hblank c hc) (Nat.ne_of_gt hpos)

/-- The slot is held and has the style; the rows look as before. -/
structure Interned (P : Finset Style) (T : Screen) (style : Style) (id : StyleId) (t : StyleTable) : Prop where
  wf : t.Wf
  held : t.Held id
  get : t.get id = style
  default_zero : style = {} → id = 0
  keeps : T.grid.styleTable.Keeps (fun id => usesStyle T.allRows id = true) t
  tidy : T.grid.styleTable.Tidy → t.Tidy
  fits : (T.onGrid (·.setStyleTable t)).Fits P

/-- Interning a style that is not missing or has a slot left. -/
theorem intern_interned (h : T.Inv) (hfits : T.Fits P) (hstyle : style ∈ P) (hne : style ≠ {}) {id : StyleId}
    {t : StyleTable} (hint : T.grid.styleTable.intern style = some (id, t)) (hi : T.grid.styleTable.Interns style id t)
    (hroom : T.grid.styleTable.index style = none → T.grid.styleTable.isFull = false) :
    T.Interned P style id t ∧ id ≠ 0 := by
  obtain ⟨_, _, hint', hwf, hheld, hkeep, -, hget⟩ := h.table.intern style
  rw [hint, Option.some.injEq, Prod.mk.injEq] at hint'
  obtain ⟨rfl, rfl⟩ := hint'
  have hhas : t.get id = style := by
    refine hget.resolve_right ?_
    rintro ⟨hid, -, -, hfull⟩
    have hindex : T.grid.styleTable.index style ≠ none := fun hindex => by
      rw [hroom hindex] at hfull
      cases hfull
    cases hi with
    | known hsome =>
      have h0 := (h.table.indexed style _ hsome).1
      rw [hid, h.table.default_zero, Option.some.injEq] at h0
      exact hne h0.symm
    | reuse hnone | extend hnone | full hnone => exact hindex hnone
  refine ⟨⟨hwf, hheld, hhas, fun h0 => absurd h0 hne, fun id _ => hkeep id trivial, hi.tidy hne h.table, ?_⟩, ?_⟩
  · refine hfits.imp (hi.room hstyle hne) fun ⟨htidy, hP, hused⟩ => ⟨hi.tidy hne h.table htidy, hP, fun id hpos hid => ?_⟩
    obtain ⟨row, hr, c, hc, rfl⟩ := usesStyle_iff.1 hid
    change t.get c.styleId ∈ P
    rw [(hkeep _ trivial (h.held row hr c hc)).2]
    exact hused _ hpos hid
  · rintro rfl
    exact hne (hhas.symm.trans hwf.get_zero)

/-- The rows that keep their styles when garbage is collected. -/
theorem compactStyles_eq (h : T.Inv) (hfull : 1 < T.grid.styleTable.capacity) :
    ∃ live, compactStyles T.grid T.state.savedGrid = T.grid.setStyleTable (T.grid.styleTable.reclaim live) ∧
      ∀ id, live id = true ↔ id = 0 ∨ usesStyle T.allRows id = true := by
  have hrows : T.grid.scrollbackRows ++ T.grid.visibleRows ++ SavedGrid.rows T.state.savedGrid = T.allRows := by
    rw [allRows, h.shape.cells_eq, Grid.visibleRows, Grid.scrollbackRows]
  unfold compactStyles
  rw [if_neg (Nat.not_le.2 hfull)]
  refine ⟨_, rfl, ?_⟩
  intro id
  simp only [Bool.decide_or, Bool.or_eq_true, decide_eq_true_eq, ← hrows]
  exact Iff.rfl

/-- A terminal with room for the palette interns each of its styles. -/
theorem internWithGc_exact (h : T.Inv) (hfits : T.Fits P) (hstyle : style ∈ P ∨ style = {}) :
    ∃ id t, T.internWithGc style = some (id, T.onGrid (·.setStyleTable t)) ∧ T.Interned P style id t := by
  by_cases hne : style = {}
  · subst hne
    exact ⟨0, T.grid.styleTable, rfl, h.table, h.table.held_zero, h.table.get_zero, fun _ => rfl, .refl _ _, fun ht => ht, hfits⟩
  replace hstyle := hstyle.resolve_right hne
  have hdefault : ¬ style.isDefault := by simpa [Style.isDefault] using hne
  obtain ⟨id, t, hint, hi⟩ := h.table.interns hne
  unfold internWithGc
  simp only [hint, Option.bind_eq_bind, Option.bind_some]
  by_cases hroom : T.grid.styleTable.index style = none → T.grid.styleTable.isFull = false
  · obtain ⟨hdone, hid⟩ := intern_interned h hfits hstyle hne hint hi hroom
    rw [if_neg fun hc => hid hc.1]
    exact ⟨id, t, rfl, hdone⟩
  · obtain ⟨hindex, hfull⟩ : T.grid.styleTable.index style = none ∧ T.grid.styleTable.isFull = true := by
      simpa using hroom
    have hlen : 65535 < T.grid.styleTable.styles.length ∧ T.grid.styleTable.freeSlots = [] := by
      simpa [StyleTable.isFull, u16Max] using hfull
    obtain ⟨rfl, rfl⟩ : id = 0 ∧ t = T.grid.styleTable := by
      cases hi with
      | known hsome => rw [hindex] at hsome; cases hsome
      | reuse _ hfree => rw [hlen.2] at hfree; simp at hfree
      | extend _ _ hsize => rw [u16Max] at hsize; omega
      | full => exact ⟨rfl, rfl⟩
    obtain ⟨htidy, hP, hused⟩ := hfits.resolve_left fun hr => by
      rw [hr.not_full hstyle hne hindex] at hfull
      cases hfull
    obtain ⟨live, hgc, hlive⟩ := compactStyles_eq h (show 1 < T.grid.styleTable.styles.length by omega)
    have hmem : ∀ id, 0 < id → id < T.grid.styleTable.styles.length → live id = true → T.grid.styleTable.get id ∈ P :=
      fun id hpos _ hl => hused id hpos (((hlive id).1 hl).resolve_left (Nat.ne_of_gt hpos))
    have hroom' := htidy.room_reclaim h.table hlen.2 hmem hP
    have hkeep : T.grid.styleTable.Keeps (fun id => usesStyle T.allRows id = true) (T.grid.styleTable.reclaim live) :=
      fun id hid => StyleTable.reclaim_keeps _ live id ((hlive id).2 (.inr hid))
    have h₁ : (T.onGrid (·.setStyleTable (T.grid.styleTable.reclaim live))).Inv :=
      h.table_change (h.table.reclaim live) hkeep
    obtain ⟨id, t, hint', hi'⟩ := h₁.table.interns hne
    obtain ⟨hdone, -⟩ := intern_interned h₁ (.inl hroom') hstyle hne hint' hi' (hroom'.not_full hstyle hne)
    have hself : T.grid.setStyleTable T.grid.styleTable = T.grid := rfl
    rw [if_pos ⟨rfl, hdefault, hfull⟩, hself, hgc]
    refine ⟨id, t, ?_, hdone.wf, hdone.held, hdone.get, hdone.default_zero, hkeep.trans hdone.keeps,
      fun ht => hdone.tidy (ht.reclaim hlen.2 live), hdone.fits⟩
    change (((T.grid.styleTable.reclaim live).intern style).bind _) = _
    rw [show (T.grid.styleTable.reclaim live).intern style = some (id, t) from hint']
    rfl

end Screen

end Retach
