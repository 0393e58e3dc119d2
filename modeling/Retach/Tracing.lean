import Mathlib.Data.Nat.Pairing
import Mathlib.Tactic.DeriveEncodable
import Retach.Palette
import Retach.Recoding
import Retach.Safety
/-!
# Where the styles of cells come from

The same actions run on a second screen, whose cells have instead of a style id
the origin of their style: the id the cell had at the start, or the action that
wrote the cell and the style it was written in. There the style table has an id
for every style, and nothing is ever collected. Cell by cell, the real screen
shows what the origins say.
-/

open Checked Runs Views

instance UInt8.encodable : Encodable UInt8 := Encodable.ofLeftInverse UInt8.toNat UInt8.ofNat fun _ => UInt8.ofNat_toNat

deriving instance Encodable for Retach.UnderlineStyle, Retach.Color, Retach.Style

namespace Retach

/-! ## Origins -/

/-- `written i`: by the `i`th action. -/
inductive Origin where
  | kept (id : StyleId)
  | written (i : Nat) (style : Style)

namespace Origin

/-- Origins as ids; a cell in the default style has id 0. -/
def code : Origin → Nat
  | .kept id => 2 * id + 1
  | .written i style => if style = {} then 0 else 2 * Nat.pair i (Encodable.encode style) + 2

theorem code_default (i : Nat) : (written i {}).code = 0 := by simp [code]

theorem code_written {style : Style} (h : style ≠ {}) (i : Nat) :
    (written i style).code = 2 * Nat.pair i (Encodable.encode style) + 2 := by simp [code, h]

theorem eq_kept {id : StyleId} {o : Origin} (h : o.code = (kept id).code) : o = kept id := by
  cases o with
  | kept id' =>
    rw [Nat.eq_of_mul_eq_mul_left Nat.two_pos (Nat.succ.inj h)]
  | written i style =>
    change (written i style).code = 2 * id + 1 at h
    by_cases hstyle : style = {}
    · rw [hstyle, code_default] at h
      omega
    · rw [code_written hstyle] at h
      omega

/-- Only the default style is written without a number. -/
theorem eq_written {i : Nat} {style : Style} {o : Origin} (h : o.code = (written i style).code) :
    o = written i style ∨ style = {} ∧ ∃ j, o = written j {} := by
  cases o with
  | kept id => exact absurd (eq_kept h.symm) nofun
  | written j style' =>
    by_cases hstyle : style = {} <;> by_cases hstyle' : style' = {}
    · exact .inr ⟨hstyle, j, by rw [hstyle']⟩
    · rw [hstyle, code_default, code_written hstyle'] at h
      omega
    · rw [hstyle', code_default, code_written hstyle] at h
      omega
    · rw [code_written hstyle, code_written hstyle'] at h
      have hpair : Nat.pair j (Encodable.encode style') = Nat.pair i (Encodable.encode style) := by omega
      obtain ⟨rfl, hcode⟩ := Nat.pair_eq_pair.1 hpair
      rw [Encodable.encode_injective hcode]
      exact .inl rfl

end Origin

/-- A table that has an id for every style the `i`th action can write. -/
def originTable (i : Nat) : StyleTable :=
  { styles := [{}], index := fun style => some (Origin.written i style).code, freeSlots := [] }

theorem originTable_intern (i : Nat) (style : Style) :
    (originTable i).intern style = some ((Origin.written i style).code, originTable i) := by
  unfold StyleTable.intern
  by_cases hstyle : style = {}
  · subst hstyle
    rfl
  · rw [if_neg (by simpa [Style.isDefault] using hstyle)]
    rfl

/-- Nothing is collected. -/
theorem originTable_compact {g : Grid} {i : Nat} (hg : g.styleTable = originTable i) (saved : Option SavedGrid) :
    compactStyles g saved = g := by
  unfold compactStyles
  rw [if_pos]
  rw [hg]
  exact Nat.le_refl 1

namespace Screen

/-- Interning gives the origin and changes nothing. -/
theorem origin_intern {t : Screen} {i : Nat} (ht : t.grid.styleTable = originTable i) (style : Style) :
    t.internWithGc style = some ((Origin.written i style).code, t) := by
  have hself : t.grid.setStyleTable (originTable i) = t.grid := by rw [← ht]; rfl
  unfold internWithGc
  simp only [ht, originTable_intern, Option.bind_eq_bind, Option.bind_some]
  rw [if_neg]
  · simp only [onGrid, hself]
    rfl
  · have hfull : (originTable i).isFull = false := rfl
    rw [hfull]
    exact fun h => Bool.false_ne_true h.2.2

end Screen

/-- A table that is still full after a collection had no dead slot. -/
theorem StyleTable.live_of_full {t : StyleTable} {live : StyleId → Bool} (hlen : 65535 < t.styles.length)
    (hfull : (t.reclaim live).isFull = true) {id : StyleId} (hpos : 0 < id) (hle : id ≤ 65535) : live id = true := by
  have hdead : t.deadSlots live = [] := by
    simp only [isFull, reclaim, decide_eq_true_eq, List.isEmpty_iff] at hfull
    exact hfull.2
  by_contra hunused
  have hmem : id ∈ t.deadSlots live := mem_deadSlots.2 ⟨Nat.lt_of_le_of_lt hle hlen, Nat.ne_of_gt hpos, hunused⟩
  rw [hdead] at hmem
  exact absurd hmem List.not_mem_nil

/-! ## The ids in use -/

theorem Row.recode_eq_self {φ : StyleId → StyleId} {row : Row} :
    row.recode φ = row ↔ ∀ c ∈ row.cells, φ c.styleId = c.styleId := by
  have hcell (c : Cell) : c.recode φ = c ↔ φ c.styleId = c.styleId := by
    obtain ⟨c, id, w⟩ := c
    simp [Cell.recode]
  obtain ⟨cells, marks⟩ := row
  simp only [Row.recode, Row.mk.injEq, and_true]
  constructor
  · intro h c hc
    have hid : cells.map (Cell.recode φ) = cells.map fun c => c := by rw [h, List.map_id']
    exact (hcell c).1 (List.map_inj_left.1 hid c hc)
  · exact fun h => (List.map_congr_left fun c hc => (hcell c).2 (h c hc)).trans (List.map_id cells)

theorem Grid.recode_shape {φ : StyleId → StyleId} {T : StyleTable} {g : Grid} : (g.recode φ T).Shape ↔ g.Shape := by
  have hvisible : (g.recode φ T).visibleRows = g.visibleRows.map (Row.recode φ) := by simp [visibleRows]
  have hrows : (∀ row ∈ (g.recode φ T).visibleRows, row.cells.length = g.cols) ↔ ∀ row ∈ g.visibleRows, row.cells.length = g.cols := by
    rw [hvisible, List.forall_mem_map]
    exact forall₂_congr fun row _ => by rw [Row.recode_cells, List.length_map]
  have hcells : (g.recode φ T).cells.length = g.cells.length := List.length_map _
  constructor
  · exact fun h => { h with cells_len := hcells ▸ h.cells_len, row_len := hrows.1 h.row_len }
  · exact fun h => { h with cells_len := hcells.trans h.cells_len, row_len := hrows.2 h.row_len }

namespace Screen

variable {φ ψ : StyleId → StyleId} {T : StyleTable} {off : List Row} {s : Screen} {id : StyleId}

@[simp] theorem recode_allRows : (recode φ T off s).allRows = s.allRows.map (Row.recode φ) := by
  have hsaved : SavedGrid.rows (s.state.savedGrid.map (SavedGrid.recode φ)) =
      (SavedGrid.rows s.state.savedGrid).map (Row.recode φ) := by cases s.state.savedGrid <;> rfl
  rw [allRows, allRows, List.map_append, ← hsaved]
  rfl

theorem recode_recode (T' : StyleTable) (off' : List Row) :
    recode ψ T' off' (recode φ T off s) = recode (ψ ∘ φ) T' off' s := by
  have hrow : Row.recode ψ ∘ Row.recode φ = Row.recode (ψ ∘ φ) := funext fun r => by simp [Row.recode, Function.comp_def, Cell.recode]
  have hsaved : SavedGrid.recode ψ ∘ SavedGrid.recode φ = SavedGrid.recode (ψ ∘ φ) := funext fun g => by
    simp [SavedGrid.recode, hrow]
  simp [recode, Grid.recode, ScreenState.recode, hrow, hsaved]

/-- Recoding that keeps the ids in use changes no row. -/
theorem recode_fixed (h : ∀ id, usesStyle s.allRows id = true → φ id = id) :
    recode φ T off s = { grid := s.grid.setStyleTable T, state := s.state, scrolledOff := off } := by
  have hrow : ∀ row ∈ s.allRows, row.recode φ = row := fun row hr =>
    Row.recode_eq_self.2 fun c hc => h _ (usesStyle_iff.2 ⟨row, hr, c, hc, rfl⟩)
  have hcells : s.grid.cells.map (Row.recode φ) = s.grid.cells :=
    (List.map_congr_left fun row hr => hrow row (List.mem_append_left _ hr)).trans (List.map_id _)
  have hsaved : s.state.savedGrid.map (SavedGrid.recode φ) = s.state.savedGrid := by
    cases hs : s.state.savedGrid with
    | none => rfl
    | some saved =>
      have hmem : ∀ row ∈ saved.visibleCells, row ∈ s.allRows := fun row hr =>
        List.mem_append_right _ (by rw [hs]; exact hr)
      have hmap : saved.visibleCells.map (Row.recode φ) = saved.visibleCells :=
        (List.map_congr_left fun row hr => hrow row (hmem row hr)).trans (List.map_id _)
      rw [Option.map_some, SavedGrid.recode, hmap]
  simp only [recode, Grid.recode, ScreenState.recode, Grid.setStyleTable, hcells, hsaved]

theorem uses_recode (h : usesStyle s.allRows id = true) : usesStyle (recode φ T off s).allRows (φ id) = true := by
  obtain ⟨row, hr, c, hc, rfl⟩ := usesStyle_iff.1 h
  rw [recode_allRows]
  exact usesStyle_iff.2 ⟨row.recode φ, List.mem_map_of_mem hr, c.recode φ, List.mem_map_of_mem hc, rfl⟩

@[inherit_doc recode_fixed]
theorem fixed_of_recode (h : recode φ T off s = s) (hid : usesStyle s.allRows id = true) : φ id = id := by
  obtain ⟨row, hr, c, hc, rfl⟩ := usesStyle_iff.1 hid
  have hrows : s.allRows.map (Row.recode φ) = s.allRows.map fun row => row :=
    recode_allRows.symm.trans ((congrArg allRows h).trans (List.map_id' _).symm)
  exact Row.recode_eq_self.1 (List.map_inj_left.1 hrows row hr) c hc

/-- What a natural program leaves uses no new ids but the one it was given. -/
theorem Natural.uses {k : StyleId → Screen → Option Screen} (hk : Natural k) {n : StyleId} {s' : Screen}
    (h : k n s = some s') (hid : usesStyle s'.allRows id = true) : usesStyle s.allRows id = true ∨ id = n ∨ id = 0 := by
  let φ (i : StyleId) : StyleId := if usesStyle s.allRows i = true ∨ i = n then i else 0
  have h0 : φ 0 = 0 := by simp [φ]
  have hs : recode φ s.grid.styleTable s.scrolledOff s = s := recode_fixed fun i hi => if_pos (.inl hi)
  have hn : φ n = n := if_pos (.inr rfl)
  have hnat := hk φ h0 s.grid.styleTable s.scrolledOff n s
  rw [hs, hn, h, Option.map_some, Option.some.injEq] at hnat
  have hfix := fixed_of_recode hnat.symm hid
  by_cases hused : usesStyle s.allRows id = true ∨ id = n
  · exact hused.imp_right .inl
  · exact .inr (.inr (by rw [← hfix]; exact if_neg hused))

/-! ## Interning -/

/-- Every slot but the default one is in use. -/
def Crowded (s : Screen) : Prop := ∀ id, 0 < id → id ≤ 65535 → usesStyle s.allRows id = true

/-- A style is not interned as the default one unless every slot is in use. -/
theorem internWithGc_crowded {s : Screen} (h : s.Inv) (style : Style) :
    ∃ id t, s.internWithGc style = some (id, s.onGrid (·.setStyleTable t)) ∧
      s.grid.styleTable.Keeps (fun id => usesStyle s.allRows id = true) t ∧
      (t.get id = style ∨ id = 0 ∧ style ≠ {} ∧ s.Crowded) := by
  obtain ⟨id, t, hint, hwf, -, hkeep, -, hget⟩ := h.table.intern style
  have hkeep₁ : s.grid.styleTable.Keeps (fun id => usesStyle s.allRows id = true) t := fun id _ => hkeep id trivial
  unfold internWithGc
  simp only [hint, Option.bind_eq_bind, Option.bind_some]
  by_cases hfull : id = 0 ∧ ¬ style.isDefault ∧ t.isFull
  · rw [if_pos hfull]
    have hlen : 65535 < t.styles.length ∧ t.freeSlots = [] := by simpa [StyleTable.isFull, u16Max] using hfull.2.2
    have h₁ : (s.onGrid (·.setStyleTable t)).Inv := h.table_change hwf hkeep₁
    obtain ⟨live, hgc, hlive⟩ := compactStyles_eq h₁ (show 1 < t.styles.length by omega)
    obtain ⟨id', t', hint', hwf', -, hkeep', -, hget'⟩ := (hwf.reclaim live).intern style
    refine ⟨id', t', ?_, ?_, ?_⟩
    · rw [show compactStyles (s.grid.setStyleTable t) s.state.savedGrid = s.grid.setStyleTable (t.reclaim live) from hgc]
      change (((t.reclaim live).intern style).bind _) = _
      rw [hint', Option.bind_some]
      rfl
    · refine (hkeep₁.trans fun id hid => StyleTable.reclaim_keeps _ live id ((hlive id).2 (.inr hid))).trans ?_
      exact fun id _ => hkeep' id trivial
    · rcases hget' with hget' | ⟨h0, hstyle, -, hstill⟩
      · exact .inl hget'
      · refine .inr ⟨h0, by simpa [Style.isDefault] using hstyle, fun i hpos hle => ?_⟩
        have hi := (hlive i).1 (StyleTable.live_of_full hlen.1 hstill hpos hle)
        exact hi.resolve_left (Nat.ne_of_gt hpos)
  · rw [if_neg hfull]
    exact ⟨id, t, rfl, hkeep₁, .inl (hget.resolve_right fun hdeg => hfull ⟨hdeg.1, hdeg.2.1, by rw [hdeg.2.2.1]; exact hdeg.2.2.2⟩)⟩

/-! ## Linked screens -/

variable {start s t : Screen} {crowds : Nat → Prop} {i : Nat}

/-- What a cell of `s` with this id shows, by the origin of its style. An action
in `crowds` may have had no slot left for a style. -/
def ShowsOrigin (start : Screen) (crowds : Nat → Prop) (s : Screen) (id : StyleId) : Origin → Prop
  | .kept old => id = old ∧ s.grid.styleTable.get id = start.grid.styleTable.get old
  | .written i style => s.grid.styleTable.get id = style ∨ id = 0 ∧ style ≠ {} ∧ crowds i

/-- One screen with pairs of ids: those of `s`, and those of `t`, which stand
for origins. -/
structure Pairs (start : Screen) (crowds : Nat → Prop) (i : Nat) (s t p : Screen) : Prop where
  left : s = p.recode (·.unpair.1) s.grid.styleTable s.scrolledOff
  right : t = p.recode (·.unpair.2) (originTable i) t.scrolledOff
  shows : ∀ n, usesStyle p.allRows n = true → ∃ o : Origin, n.unpair.2 = o.code ∧ ShowsOrigin start crowds s n.unpair.1 o

/-- `t` has the origins of the styles of `s`, and the `i`th action is next. -/
def Linked (start : Screen) (crowds : Nat → Prop) (i : Nat) (s t : Screen) : Prop := s.Inv ∧ ∃ p, Pairs start crowds i s t p

theorem ShowsOrigin.mono {s s' : Screen} {id : StyleId} {o : Origin} (h : ShowsOrigin start crowds s id o)
    (hget : s'.grid.styleTable.get id = s.grid.styleTable.get id) : ShowsOrigin start crowds s' id o := by
  cases o with
  | kept old => exact ⟨h.1, hget.trans h.2⟩
  | written i style => exact h.imp_left hget.trans

/-- The default style. -/
theorem shows_default (h : s.Inv) (i : Nat) : ShowsOrigin start crowds s 0 (.written i {}) := .inl h.table.get_zero

theorem eq_of_unlogged {φ : StyleId → StyleId} {T : StyleTable} {off : List Row} {s p : Screen}
    (h : s.unlogged = (recode φ T off p).unlogged) :
    s = recode φ s.grid.styleTable s.scrolledOff p ∧ s.grid.styleTable = T := by
  obtain ⟨g, st, off'⟩ := s
  obtain ⟨rfl, rfl, -⟩ := Screen.mk.inj h
  exact ⟨rfl, rfl⟩

section

/-- What recoding leaves is the same on both. -/
theorem Linked.same {β : Type} {x : Screen → β} (hl : Linked start crowds i s t) (hx : ∀ φ T off s, x (recode φ T off s) = x s) :
    x t = x s := by
  obtain ⟨-, p, hp⟩ := hl
  rw [(congrArg x hp.right).trans (hx ..), (congrArg x hp.left).trans (hx ..)]

theorem Linked.styleTable (hl : Linked start crowds i s t) : t.grid.styleTable = originTable i := by
  obtain ⟨-, p, hp⟩ := hl
  exact congrArg (fun t : Screen => t.grid.styleTable) hp.right

/-- The id of a cell in use on the screen of pairs. -/
theorem Pairs.used {p : Screen} (hp : Pairs start crowds i s t p) {n : StyleId} (hn : usesStyle p.allRows n = true) :
    usesStyle s.allRows n.unpair.1 = true := by
  rw [hp.left]
  exact uses_recode (φ := (·.unpair.1)) hn

/-- Two programs that do the same but for the ids. -/
theorem Linked.after {s' t' p : Screen} (hp : Pairs start crowds i s t p) (hinv : s'.Inv) (p' : Screen)
    (hleft : s' = p'.recode (·.unpair.1) s'.grid.styleTable s'.scrolledOff)
    (hright : t' = p'.recode (·.unpair.2) (originTable i) t'.scrolledOff)
    (hids : ∀ n, usesStyle p'.allRows n = true →
      usesStyle p.allRows n = true ∧ s'.grid.styleTable.get n.unpair.1 = s.grid.styleTable.get n.unpair.1 ∨ n = 0 ∨
        ∃ o : Origin, n.unpair.2 = o.code ∧ ShowsOrigin start crowds s' n.unpair.1 o) : Linked start crowds i s' t' := by
  refine ⟨hinv, p', hleft, hright, ?_⟩
  intro n hn
  rcases hids n hn with ⟨hused, hget⟩ | rfl | hshows
  · obtain ⟨o, ho, hshows⟩ := hp.shows n hused
    exact ⟨o, ho, hshows.mono hget⟩
  · exact ⟨.written 0 {}, rfl, shows_default hinv 0⟩
  · exact hshows

/-- The same program on both screens, with one style interned. -/
theorem Linked.intern {f : Screen → Option Screen} {x : Screen → Style} {k : StyleId → Screen → Option Screen}
    (hx : ∀ φ T off s, x (recode φ T off s) = x s) (hk : Natural k)
    (heq : ∀ s, (f s).map unlogged = ((s.internWithGc (x s)).bind fun p => k p.1 p.2).map unlogged)
    (hl : Linked start crowds i s t) (hcrowds : x s ≠ {} → s.Crowded → crowds i)
    (hleads : Leads Effect (fun _ => True) s (f s)) : Option.Rel (Linked start crowds i) (f s) (f t) := by
  have hst : x t = x s := hl.same hx
  have htable := hl.styleTable
  obtain ⟨hs, p, hp⟩ := hl
  obtain ⟨id, T, hint, hkeep, hget⟩ := internWithGc_crowded hs (x s)
  let n := Nat.pair id (Origin.written i (x s)).code
  have hn : n.unpair = (id, (Origin.written i (x s)).code) := Nat.unpair_pair _ _
  have hfs : (f s).map unlogged = ((k n p).map (recode (·.unpair.1) T s.scrolledOff)).map unlogged := by
    have hnat := hk (·.unpair.1) rfl T s.scrolledOff n p
    rw [heq, hint, Option.bind_some, ← hnat, hn]
    exact congrArg (fun s : Screen => (k id (s.onGrid (·.setStyleTable T))).map unlogged) hp.left
  have hft : (f t).map unlogged = ((k n p).map (recode (·.unpair.2) (originTable i) t.scrolledOff)).map unlogged := by
    have hnat := hk (·.unpair.2) rfl (originTable i) t.scrolledOff n p
    rw [heq, hst, origin_intern htable, Option.bind_some, ← hnat, hn]
    exact congrArg (fun t : Screen => (k (Origin.written i (x s)).code t).map unlogged) hp.right
  cases hkp : k n p with
  | none =>
    rw [hkp] at hfs hft
    rw [Option.map_eq_none_iff.1 hfs, Option.map_eq_none_iff.1 hft]
    exact .none
  | some p' =>
    rw [hkp] at hfs hft
    obtain ⟨s', hs', heq⟩ := Option.map_eq_some_iff.1 hfs
    obtain ⟨t', ht', heq'⟩ := Option.map_eq_some_iff.1 hft
    obtain ⟨hleft, hT⟩ := eq_of_unlogged heq
    obtain ⟨hright, hT'⟩ := eq_of_unlogged heq'
    have hsteps := hleads s' hs'
    rw [hs', ht']
    refine .some (Linked.after hp (steps_inv hsteps hs) p' hleft (hT' ▸ hright) fun m hm => ?_)
    rcases hk.uses hkp hm with hused | rfl | rfl
    · have hid := hp.used hused
      obtain ⟨row, hr, c, hc, heq⟩ := usesStyle_iff.1 hid
      exact .inl ⟨hused, hT ▸ (hkeep _ hid (heq ▸ hs.held row hr c hc)).2⟩
    · refine .inr (.inr ⟨.written i (x s), by rw [hn], ?_⟩)
      rw [← hT] at hget
      rw [hn]
      exact hget.imp_right fun ⟨h0, hne, hcrowded⟩ => ⟨h0, hne, hcrowds hne hcrowded⟩
    · exact .inr (.inl rfl)

theorem InternsOnce.links {f : Screen → Option Screen} (hf : InternsOnce f) (hl : Linked start crowds i s t)
    (hcrowds : s.Crowded → crowds i) (hleads : Leads Effect (fun _ => True) s (f s)) :
    Option.Rel (Linked start crowds i) (f s) (f t) := by
  obtain ⟨style, k, hstyle, hk, heq⟩ := hf
  exact hl.intern hstyle hk heq (fun _ => hcrowds) hleads

/-- The default style needs no slot. -/
theorem Natural.links {f : Screen → Option Screen} (hf : Natural fun _ => f) (hl : Linked start crowds i s t)
    (hleads : Leads Effect (fun _ => True) s (f s)) : Option.Rel (Linked start crowds i) (f s) (f t) :=
  hl.intern (x := fun _ => {}) (fun _ _ _ _ => rfl) hf (fun _ => rfl) (fun h => absurd rfl h) hleads

/-! ## Programs on linked screens -/

theorem links_bind {x y : Option Screen} (h : Option.Rel (Linked start crowds i) x y) {k l : Screen → Option Screen}
    (hk : ∀ s t, x = some s → Linked start crowds i s t → Option.Rel (Linked start crowds i) (k s) (l t)) :
    Option.Rel (Linked start crowds i) (x.bind k) (y.bind l) := by
  cases h with
  | none => exact .none
  | some h => exact hk _ _ rfl h

theorem Linked.ite {p : Screen → Prop} [DecidablePred p] (hl : Linked start crowds i s t)
    (hp : ∀ φ T off s, p (recode φ T off s) = p s) {x x' y y' : Option Screen}
    (hx : p s → Option.Rel (Linked start crowds i) x x') (hy : ¬ p s → Option.Rel (Linked start crowds i) y y') :
    Option.Rel (Linked start crowds i) (if p s then x else y) (if p t then x' else y') := by
  have hpt : p t = p s := hl.same hp
  by_cases h : p s
  · rw [if_pos h, if_pos (hpt ▸ h)]
    exact hx h
  · rw [if_neg h, if_neg (hpt ▸ h)]
    exact hy h

/-- The same change of other fields. -/
theorem Linked.set {f : Screen → Screen} (hl : Linked start crowds i s t)
    (hf : ∀ φ T off s, f (recode φ T off s) = recode φ T off (f s)) (hsteps : Steps Effect (fun _ => True) s (f s)) :
    Linked start crowds i (f s) (f t) := by
  have hrel := (some_natural hf).links hl (Takes.of_steps hsteps).leads
  cases hrel with
  | some h => exact h

/-- A loop, with what holds of its rounds. -/
theorem links_iter {f : Screen → Option Screen} {n : Nat} (hl : Linked start crowds i s t)
    (hf : ∀ m < n, ∀ s' t', iter f m s = some s' → Linked start crowds i s' t' → Option.Rel (Linked start crowds i) (f s') (f t')) :
    Option.Rel (Linked start crowds i) (iter f n s) (iter f n t) := by
  induction n generalizing s t with
  | zero => exact .some hl
  | succ n ih =>
    refine links_bind (hf 0 (Nat.zero_lt_succ n) s t rfl hl) fun s' t' hs' hl' => ih hl' fun m hm s'' t'' hs'' => ?_
    refine hf (m + 1) (Nat.succ_lt_succ hm) s'' t'' ?_
    rw [iter, hs']
    exact hs''

/-! ## Handlers on linked screens -/

theorem scrollUp_links (hl : Linked start crowds i s t) (hcrowds : s.Crowded → crowds i) :
    Option.Rel (Linked start crowds i) s.scrollUp t.scrollUp :=
  scrollUp_internsOnce.links hl hcrowds (scrollUp_does trivial hl.1).leads

theorem scrollDown_links (hl : Linked start crowds i s t) (hcrowds : s.Crowded → crowds i) :
    Option.Rel (Linked start crowds i) s.scrollDown t.scrollDown :=
  scrollDown_internsOnce.links hl hcrowds (scrollDown_does trivial hl.1).leads

theorem advanceLine_links (hl : Linked start crowds i s t) (hcrowds : s.Crowded → crowds i) :
    Option.Rel (Linked start crowds i) s.advanceLine t.advanceLine := by
  have hleads : Leads Effect (fun _ => True) s s.advanceLine := (advanceLine_does trivial trivial hl.1).leads
  unfold advanceLine at hleads ⊢
  refine hl.ite (p := fun s => s.grid.cursorY = s.grid.scrollBottom) (fun _ _ _ _ => rfl) (fun _ => scrollUp_links hl hcrowds)
    fun hnot => ?_
  rw [if_neg hnot] at hleads
  have hmove : Natural fun _ s => (sub s.grid.rows 1).bind fun last =>
      if s.grid.cursorY < last then (add16 s.grid.cursorY 1).bind fun y => some (s.onGrid (·.setCursorY y)) else some s :=
    fun φ _ T off _ s => bind_shared rfl fun last => ite_renamed Iff.rfl (bind_shared rfl fun _ => rfl) rfl
  exact hmove.links hl hleads

/-- A line feed after a move of the cursor. -/
theorem lineFeed_links (hl : Linked start crowds i s t) (hcrowds : s.Crowded → crowds i) {f : Grid → Grid}
    (hf : ∀ φ T g, f (Grid.recode φ T g) = Grid.recode φ T (f g)) (hcells : (f s.grid).cells = s.grid.cells)
    (hsteps : Steps Effect (fun _ => True) s (s.onGrid f)) :
    Option.Rel (Linked start crowds i) (s.onGrid f).advanceLine (t.onGrid f).advanceLine := by
  have hrows : (s.onGrid f).allRows = s.allRows := congrArg (· ++ SavedGrid.rows s.state.savedGrid) hcells
  refine advanceLine_links (hl.set (f := (·.onGrid f)) (fun φ T off s => ?_) hsteps) fun h => hcrowds ?_
  · exact congrArg (Screen.mk · (s.state.recode φ) off) (hf φ T s.grid)
  · unfold Crowded at h ⊢
    rwa [← hrows]

theorem performDeferredWrap_links (hl : Linked start crowds i s t) (hcrowds : s.Crowded → crowds i) :
    Option.Rel (Linked start crowds i) s.performDeferredWrap t.performDeferredWrap :=
  lineFeed_links hl hcrowds (fun _ _ _ => rfl) rfl
    (.single trivial (.cursor 0 s.grid.cursorY false hl.1.shape.cols_pos hl.1.shape.cursor_y))

/-- A character that fits nowhere overflows the column. -/
theorem putChar_leads (h : s.Inv) {c : Char} (hplain : ¬ IsControl c) {width : Nat} (h0 : width ≠ 0)
    (h2 : width = 2 → s.grid.cursorX + 1 < s.grid.cols) : Leads Effect (fun _ => True) s (s.putChar c width) := by
  by_cases hfits : s.grid.cursorX + width ≤ 65535
  · exact (putChar_does trivial trivial h hplain h0 h2 hfits).leads
  · rw [putChar_overflows h c (Nat.lt_of_not_le hfits)]
    exact .fail s

/-! ## Where styles are interned -/

/-- A character of `width` columns is cut by the margin, and wraps. -/
def Cuts (s : Screen) (width : Nat) : Prop :=
  width = 2 ∧ s.grid.cols ≤ s.grid.cursorX + 1 ∧ s.grid.modes.autowrapMode = true ∧ 2 ≤ s.grid.cols

/-- `print` up to the end of the deferred wrap. -/
def wrapped (s : Screen) (c : Char) : Option Screen :=
  if s.grid.wrapPending = true ∧ s.grid.modes.autowrapMode = true then (s.noted c).performDeferredWrap else some (s.noted c)

variable (W : UnicodeWidth)

/-- The states in which `print` interns a style, but for the cursor. -/
inductive PrintMoment (c : Char) (s : Screen) : Screen → Prop
  | begun : PrintMoment c s s
  | wrapped {u : Screen} (hwidth : W.charWidth (s.mapCharset c) ≠ 0) (hu : s.wrapped c = some u) : PrintMoment c s u
  | blanked {u v : Screen} (hu : s.wrapped c = some u) (hcuts : u.Cuts (W.charWidth (s.mapCharset c)))
    (hv : u.blankMargin = some v) : PrintMoment c s v
  | continued {u v w : Screen} (hu : s.wrapped c = some u) (hcuts : u.Cuts (W.charWidth (s.mapCharset c)))
    (hv : u.blankMargin = some v) (hw : v.performDeferredWrap = some w) : PrintMoment c s w

/-- The states in which an action that begins in `s` interns a style, but for
the cursor: most only in `s`, loops in every round. -/
inductive Moment (s : Screen) : Action → Screen → Prop
  | begun (a : Action) : Moment s a s
  | printed {c : Char} {u : Screen} (hu : PrintMoment W c s u) : Moment s (.callback (.print c)) u
  | repeated {ps : List Param} {intermediates : List Char} {m : Nat} {t u : Screen} (hm : m < param ps 0 1)
    (ht : iter (·.print W s.state.lastPrintedChar) m s = some t) (hu : PrintMoment W s.state.lastPrintedChar t u) :
    Moment s (.callback (.csi ps intermediates 'b')) u
  | scrolledUp {ps : List Param} {intermediates : List Char} {m : Nat} {u : Screen} (hm : m < min (param ps 0 1) s.grid.rows)
    (hu : iter scrollUp m s = some u) : Moment s (.callback (.csi ps intermediates 'S')) u
  | scrolledDown {ps : List Param} {intermediates : List Char} {m : Nat} {u : Screen} (hm : m < min (param ps 0 1) s.grid.rows)
    (hu : iter scrollDown m s = some u) : Moment s (.callback (.csi ps intermediates 'T')) u

theorem print_links (hl : Linked start crowds i s t) (c : Char) (hcrowds : ∀ u, PrintMoment W c s u → u.Crowded → crowds i) :
    Option.Rel (Linked start crowds i) (s.print W c) (t.print W c) := by
  have hlast := hl.set (f := (·.noted c)) (fun _ _ _ _ => rfl) (noted_steps trivial s c)
  have hmap : t.mapCharset c = s.mapCharset c := hl.same (x := (mapCharset · c)) fun _ _ _ _ => rfl
  rw [print_eq, print_eq, hmap]
  by_cases h0 : W.charWidth (s.mapCharset c) = 0
  · rw [if_pos h0, if_pos h0]
    exact (handleCombiningMark_natural _).links hlast (handleCombiningMark_does trivial hlast.1 _ fun _ _ => trivial).leads
  have hplain : ¬ IsControl (s.mapCharset c) := fun hc => h0 (by rw [UnicodeWidth.charWidth, W.width_control _ hc]; rfl)
  rw [if_neg h0, if_neg h0]
  have hwrap : Option.Rel (Linked start crowds i) (s.wrapped c)
      (if t.grid.wrapPending = true ∧ t.grid.modes.autowrapMode = true then (t.noted c).performDeferredWrap else some (t.noted c)) :=
    hlast.ite (p := fun s => s.grid.wrapPending ∧ s.grid.modes.autowrapMode) (fun _ _ _ _ => rfl)
      (fun _ => performDeferredWrap_links hlast fun h => hcrowds s .begun h) fun _ => .some hlast
  refine links_bind hwrap fun u t' hu hl => ?_
  have hcols := hl.1.shape.cols_pos
  rw [printBase_eq hcols, printBase_eq (hl.same (x := fun s => s.grid.cols) (fun _ _ _ _ => rfl) ▸ hcols)]
  refine hl.ite (p := fun s => W.charWidth (mapCharset _ c) = 2 ∧ s.grid.cols ≤ s.grid.cursorX + 1) (fun _ _ _ _ => rfl)
    (fun hwide => ?_) fun hwide => ?_
  · refine hl.ite (p := fun s => s.grid.modes.autowrapMode = true ∧ 2 ≤ s.grid.cols) (fun _ _ _ _ => rfl) (fun hwraps => ?_)
      fun _ => .some hl
    have hcuts : u.Cuts (W.charWidth (s.mapCharset c)) := ⟨hwide.1, hwide.2, hwraps⟩
    have hblank := blankMargin_internsOnce.links hl (hcrowds u (.wrapped h0 hu))
      (blankMargin_does trivial hl.1 hwide.2 fun _ _ _ => trivial).leads
    refine links_bind hblank fun v t₁ hv hl₁ => links_bind (performDeferredWrap_links hl₁ (hcrowds v (.blanked hu hcuts hv)))
      fun w t₂ hw hl₂ => ?_
    have hcur := performDeferredWrap_cursor hl₁.1 hw
    have hcols₁ := blankMargin_cols hl.1 hwide.2 hv
    exact (putChar_internsOnce _ _).links hl₂ (hcrowds w (.continued hu hcuts hv hw)) (putChar_leads hl₂.1 hplain h0 (by omega))
  · exact (putChar_internsOnce _ _).links hl (hcrowds u (.wrapped h0 hu)) (putChar_leads hl.1 hplain h0 (by omega))

/-- Leaving the alternate screen collects garbage at the end. -/
theorem exitAltScreen_links (hl : Linked start crowds i s t) (restore : Bool) :
    Option.Rel (Linked start crowds i) (s.exitAltScreen restore) (t.exitAltScreen restore) := by
  have hs := hl.1
  have hleads : Leads Effect (fun _ => True) s (s.exitAltScreen restore) :=
    (exitAltScreen_does trivial trivial trivial hs restore trivial).leads
  have halt' : t.state.inAltScreen = s.state.inAltScreen := hl.same (x := fun s => s.state.inAltScreen) fun _ _ _ _ => rfl
  by_cases halt : s.state.inAltScreen = true
  · obtain ⟨k, hk, heq⟩ := exitAltScreen_natural restore
    rw [heq s halt] at hleads ⊢
    rw [heq t (halt'.trans halt)]
    obtain ⟨p, hp⟩ := hl.2
    have hks : k s = (k p).map (recode (·.unpair.1) s.grid.styleTable s.scrolledOff) :=
      (congrArg k hp.left).trans (hk (·.unpair.1) rfl _ _ 0 p)
    have hkt : k t = (k p).map (recode (·.unpair.2) (originTable i) t.scrolledOff) :=
      (congrArg k hp.right).trans (hk (·.unpair.2) rfl _ _ 0 p)
    cases hkp : k p with
    | none =>
      rw [hks, hkt, hkp]
      exact .none
    | some p' =>
      rw [hkp] at hks hkt
      rw [hks] at hleads
      rw [hks, hkt]
      obtain ⟨T, hgc, hget⟩ := compactStyles_table (p'.grid.recode (·.unpair.1) s.grid.styleTable) none
      have hleft : (recode (·.unpair.1) s.grid.styleTable s.scrolledOff p').onGrid (compactStyles · none) =
          recode (·.unpair.1) T s.scrolledOff p' := congrArg (Screen.mk · (p'.state.recode (·.unpair.1)) s.scrolledOff) hgc
      have hright : (recode (·.unpair.2) (originTable i) t.scrolledOff p').onGrid (compactStyles · none) =
          recode (·.unpair.2) (originTable i) t.scrolledOff p' :=
        congrArg (Screen.mk · (p'.state.recode (·.unpair.2)) t.scrolledOff) (originTable_compact rfl none)
      refine .some (Linked.after hp (steps_inv (hleads _ rfl) hs) p' ?_ ?_ fun n hn => ?_)
      · rw [hleft]
        rfl
      · rw [hright]
        rfl
      · rw [hleft]
        exact (hk.uses (n := 0) hkp hn).imp (fun h => ⟨h, congrFun hget _⟩) fun h => .inl (or_self_iff.1 h)
  · rw [exitAltScreen, exitAltScreen, if_pos halt, if_pos (halt' ▸ halt)]
    exact .some hl

theorem setDecMode_links (hl : Linked start crowds i s t) (mode : Nat) (enable : Bool) :
    Option.Rel (Linked start crowds i) (s.setDecMode mode enable) (t.setDecMode mode enable) := by
  by_cases hmode : enable = true ∨ mode ∉ [47, 1047, 1049]
  · refine (setDecMode_natural mode enable hmode).links hl (Takes.leads ?_)
    exact setDecMode_does trivial trivial trivial hl.1 mode enable (fun _ _ => trivial) (fun _ _ => trivial)
      fun _ _ => trivial
  · obtain ⟨henable, halt⟩ := not_or.1 hmode
    obtain rfl : enable = false := by simpa using henable
    have hcases : mode = 47 ∨ mode = 1047 ∨ mode = 1049 := by simpa using Decidable.not_not.1 halt
    rcases hcases with rfl | rfl | rfl
    · exact exitAltScreen_links hl false
    · exact exitAltScreen_links hl false
    · exact exitAltScreen_links hl true

theorem csiSetDecPrivateMode_links (hl : Linked start crowds i s t) (ps : List Param) (enable : Bool) :
    Option.Rel (Linked start crowds i) (s.csiSetDecPrivateMode ps enable) (t.csiSetDecPrivateMode ps enable) := by
  unfold csiSetDecPrivateMode
  induction ps generalizing s t with
  | nil => exact .some hl
  | cons p ps ih =>
    rw [List.foldlM_cons, List.foldlM_cons]
    refine links_bind ?_ fun s t _ hl => ih hl
    cases p with
    | nil => exact .some hl
    | cons mode _ => exact setDecMode_links hl mode enable

theorem csiDispatch_links (hl : Linked start crowds i s t) (ps : List Param) (intermediates : List Char) (action : Char)
    (hcrowds : ∀ u, Moment W s (.callback (.csi ps intermediates action)) u → u.Crowded → crowds i) :
    Option.Rel (Linked start crowds i) (s.csiDispatch W ps intermediates action) (t.csiDispatch W ps intermediates action) := by
  have hleads : Leads Effect (fun _ => True) s (s.csiDispatch W ps intermediates action) :=
    csiDispatch_leads hl.1 ps intermediates action (.of_forall W (fun _ _ _ => trivial) fun _ => trivial)
  have hlast : t.state.lastPrintedChar = s.state.lastPrintedChar := hl.same (x := fun s => s.state.lastPrintedChar) fun _ _ _ _ => rfl
  have hbegun : s.Crowded → crowds i := hcrowds s (.begun _)
  by_cases haction : paints action = true
  · have hcases : action = 'J' ∨ action = 'K' ∨ action = 'X' ∨ action = 'P' ∨ action = '@' ∨ action = 'b' ∨ action = 'S' ∨
        action = 'T' ∨ action = 'M' ∨ action = 'L' ∨ action = 'h' ∨ action = 'l' := by simpa [paints] using haction
    rcases hcases with rfl | rfl | rfl | rfl | rfl | rfl | rfl | rfl | rfl | rfl | rfl | rfl
    · exact (csiEraseDisplay_internsOnce _).links hl hbegun hleads
    · exact (csiEraseLine_internsOnce _).links hl hbegun hleads
    · exact (csiEraseCharacter_internsOnce _).links hl hbegun hleads
    · exact (csiDeleteCharacter_internsOnce _).links hl hbegun hleads
    · exact (csiInsertCharacter_internsOnce _).links hl hbegun hleads
    · change Option.Rel _ (iter (fun s' => s'.print W s.state.lastPrintedChar) _ s)
        (iter (fun s' => s'.print W t.state.lastPrintedChar) _ t)
      rw [hlast]
      refine links_iter hl fun m hm s' t' hs' hl' => print_links W hl' _ fun u hu => hcrowds u ?_
      exact .repeated hm hs' hu
    · change Option.Rel _ (iter scrollUp (min (param ps 0 1) s.grid.rows) s) (iter scrollUp (min (param ps 0 1) t.grid.rows) t)
      rw [hl.same (x := fun s => s.grid.rows) fun _ _ _ _ => rfl]
      exact links_iter hl fun m hm s' t' hs' hl' => scrollUp_links hl' (hcrowds s' (.scrolledUp hm hs'))
    · refine hl.ite (p := fun _ => ps.length ≤ 1) (fun _ _ _ _ => rfl) (fun _ => ?_) fun _ => .some hl
      change Option.Rel _ (iter scrollDown (min (param ps 0 1) s.grid.rows) s) (iter scrollDown (min (param ps 0 1) t.grid.rows) t)
      rw [hl.same (x := fun s => s.grid.rows) fun _ _ _ _ => rfl]
      exact links_iter hl fun m hm s' t' hs' hl' => scrollDown_links hl' (hcrowds s' (.scrolledDown hm hs'))
    · exact (csiDeleteLines_internsOnce _).links hl hbegun hleads
    · exact (csiInsertLines_internsOnce _).links hl hbegun hleads
    · exact hl.ite (p := fun _ => intermediates = ['?']) (fun _ _ _ _ => rfl)
        (fun _ => csiSetDecPrivateMode_links hl ps true) fun _ => .some hl
    · exact hl.ite (p := fun _ => intermediates = ['?']) (fun _ _ _ _ => rfl)
        (fun _ => csiSetDecPrivateMode_links hl ps false) fun _ => .some hl
  · exact (csiDispatch_natural W ps intermediates (by simpa using haction)).links hl hleads

/-- The traced screen goes on with another table. -/
def retable (t : Screen) (i : Nat) : Screen := t.onGrid (·.setStyleTable (originTable i))

theorem Linked.retable (hl : Linked start crowds i s t) (j : Nat) : Linked start crowds j s (t.retable j) := by
  obtain ⟨hs, p, hp⟩ := hl
  exact ⟨hs, p, hp.left, congrArg (Screen.retable · j) hp.right, hp.shows⟩

/-- After RIS every cell has the default style. -/
theorem fullReset_links (hl : Linked start crowds i s t) (j : Nat) :
    Option.Rel (Linked start crowds j) s.fullReset (t.fullReset.map (retable · j)) := by
  have hs := hl.1
  have hsteps : Leads Effect (fun _ => True) s s.fullReset := (fullReset_does trivial trivial hs).leads
  obtain ⟨p, hp⟩ := hl.2
  have hshape : t.grid.Shape := by
    have hsg : p.grid.Shape := Grid.recode_shape.1 (congrArg (fun s : Screen => s.grid) hp.left ▸ hs.shape)
    rw [hp.right]
    exact Grid.recode_shape.2 hsg
  have hlimit : t.mainLimit = s.mainLimit := hl.same (x := mainLimit) fun φ T off s => by
    unfold mainLimit
    rw [show (recode φ T off s).state.savedGrid = s.state.savedGrid.map (SavedGrid.recode φ) from rfl]
    cases s.state.savedGrid <;> rfl
  let wiped (st : ScreenState) : ScreenState := { st with
    currentStyle := {}
    inAltScreen := false
    savedGrid := none
    savedModes := none
    savedCursorState := none
    savedScrollRegion := none
    title := []
    titleStack := []
    lastPrintedChar := ' ' }.pushPassthrough [0x1b, 0x5b, 0x33, 0x4a]
  let s' : Screen := { s with grid := s.grid.cleared s.mainLimit, state := wiped s.state }
  let t' : Screen := { t with grid := t.grid.cleared s.mainLimit, state := wiped t.state }
  have hstate : wiped t.state = wiped s.state := hl.same (x := fun s => wiped s.state) fun _ _ _ _ => rfl
  have hgrid : (t.grid.cleared s.mainLimit).setStyleTable (originTable j) =
      (s.grid.cleared s.mainLimit).setStyleTable (originTable j) :=
    hl.same (x := fun u => (u.grid.cleared s.mainLimit).setStyleTable (originTable j)) fun _ _ _ _ => rfl
  have hzero : ∀ id, usesStyle s'.allRows id = true → id = 0 := fun id hid => by
    obtain ⟨row, hr, c, hc, rfl⟩ := usesStyle_iff.1 hid
    have hsaved : s'.state.savedGrid = none := (pushPassthrough_aux _ _).savedGrid
    have hr : row ∈ s'.grid.cells := by simpa [allRows, hsaved, SavedGrid.rows] using hr
    obtain rfl := (List.mem_replicate.1 hr).2
    rw [(List.mem_replicate.1 hc).2]
  rw [show s.fullReset = some s' from fullReset_eq hs.shape] at hsteps ⊢
  have ht' : t.fullReset = some t' := by
    rw [fullReset_eq hshape, hlimit]
  rw [ht']
  have hnext : Pairs start crowds j s (t.retable j) p := ⟨hp.left, congrArg (Screen.retable · j) hp.right, hp.shows⟩
  refine .some (Linked.after hnext (steps_inv (hsteps s' rfl) hs) s' ?_ ?_ fun n hn => .inr (.inl (hzero n hn)))
  · exact (recode_fixed (φ := (·.unpair.1)) fun id hid => by rw [hzero id hid]; rfl).symm
  · rw [recode_fixed (φ := (·.unpair.2)) fun id hid => by rw [hzero id hid]; rfl]
    exact congrArg₂ (Screen.mk · · t.scrolledOff) hgrid hstate

theorem rel_retable {x y : Option Screen} (h : Option.Rel (Linked start crowds i) x y) (j : Nat) :
    Option.Rel (Linked start crowds j) x (y.map (retable · j)) := by
  cases h with
  | none => exact .none
  | some hl => exact .some (hl.retable j)

/-! ## Callbacks on linked screens -/

theorem execute_links (hl : Linked start crowds i s t) (hcrowds : s.Crowded → crowds i) (byte : UInt8) :
    Option.Rel (Linked start crowds i) (s.execute byte) (t.execute byte) := by
  have hs := hl.1
  by_cases hbyte : byte ∈ [0x0a, 0x0b, 0x0c]
  · have hfeed : Option.Rel (Linked start crowds i) (s.onGrid (·.setWrapPending false)).advanceLine
        (t.onGrid (·.setWrapPending false)).advanceLine :=
      lineFeed_links hl hcrowds (fun _ _ _ => rfl) rfl
        (.single trivial (.cursor s.grid.cursorX s.grid.cursorY false hs.shape.cursor_x hs.shape.cursor_y))
    have hcases : byte = 0x0a ∨ byte = 0x0b ∨ byte = 0x0c := by simpa using hbyte
    rcases hcases with rfl | rfl | rfl
    · exact hfeed
    · exact hfeed
    · exact hfeed
  · exact (execute_natural byte hbyte).links hl (execute_does trivial trivial trivial hs byte).leads

/-- Any sequence but RIS. -/
theorem escDispatch_links (hl : Linked start crowds i s t) (hcrowds : s.Crowded → crowds i) (intermediates : List Char) (byte : Char)
    (hreset : ¬ (intermediates = [] ∧ byte = 'c')) :
    Option.Rel (Linked start crowds i) (s.escDispatch intermediates byte) (t.escDispatch intermediates byte) := by
  have hs := hl.1
  have hx := hs.shape.cursor_x
  have hy := hs.shape.cursor_y
  by_cases hbyte : intermediates = [] → byte ∉ ['D', 'E', 'M', 'c']
  · exact (escDispatch_natural intermediates byte hbyte).links hl
      (step_leads hs (.esc intermediates byte) (.of_forall .sample (fun _ _ _ => trivial) fun _ => trivial))
  · obtain ⟨rfl, hmem⟩ := Classical.not_imp.1 hbyte
    have hcases : byte = 'D' ∨ byte = 'E' ∨ byte = 'M' := by
      have hc : byte ≠ 'c' := fun hc => hreset ⟨rfl, hc⟩
      simpa [hc] using Decidable.not_not.1 hmem
    rcases hcases with rfl | rfl | rfl
    · exact lineFeed_links hl hcrowds (f := (·.setWrapPending false)) (fun _ _ _ => rfl) rfl
        (.single trivial (.cursor s.grid.cursorX s.grid.cursorY false hx hy))
    · exact lineFeed_links hl hcrowds (f := fun g => (g.setCursorX 0).setWrapPending false) (fun _ _ _ => rfl) rfl
        (.single trivial (.cursor 0 s.grid.cursorY false hs.shape.cols_pos hy))
    · refine hl.ite (p := fun s => s.grid.cursorY = s.grid.scrollTop) (fun _ _ _ _ => rfl)
        (fun _ => scrollDown_links hl hcrowds) fun _ => .some ?_
      refine hl.set (f := fun s => s.onGrid fun g => g.setCursorY (g.cursorY - 1)) (fun _ _ _ _ => rfl) ?_
      exact .single trivial (.cursor s.grid.cursorX (s.grid.cursorY - 1) s.grid.wrapPending hx (Nat.lt_of_le_of_lt (Nat.sub_le _ _) hy))

theorem step_links (hl : Linked start crowds i s t) (e : Event)
    (hcrowds : ∀ u, Moment W s (.callback e) u → u.Crowded → crowds i) (j : Nat) :
    Option.Rel (Linked start crowds j) (s.step W e) ((t.step W e).map (retable · j)) := by
  have hs := hl.1
  have hbegun : s.Crowded → crowds i := hcrowds s (.begun _)
  by_cases hreset : e = .esc [] 'c'
  · subst hreset
    exact fullReset_links hl j
  refine rel_retable (i := i) ?_ j
  cases e with
  | print c => exact print_links W hl c fun u hu => hcrowds u (.printed hu)
  | execute byte => exact execute_links hl hbegun byte
  | csi ps intermediates action => exact csiDispatch_links W hl ps intermediates action hcrowds
  | esc intermediates byte =>
    exact escDispatch_links hl hbegun intermediates byte fun ⟨hi, hb⟩ => hreset (by rw [hi, hb])
  | osc params bell =>
    exact (oscDispatch_natural params bell).links hl
      (step_leads hs (.osc params bell) (.of_forall W (fun _ _ _ => trivial) fun _ => trivial))

theorem act_links (hl : Linked start crowds i s t) {a : Action} (hsized : a.Sized)
    (hcrowds : ∀ u, Moment W s a u → u.Crowded → crowds i) (j : Nat) :
    Option.Rel (Linked start crowds j) (s.act W a) ((t.act W a).map (retable · j)) := by
  cases a with
  | callback e => exact step_links W hl e hcrowds j
  | resize cols rows =>
    exact rel_retable ((resize_natural cols rows).links hl (resize_does trivial hl.1 hsized.1 hsized.2).leads) j
  | takeScrollback =>
    exact rel_retable (takePendingScrollback_natural.links hl (Takes.of_steps (.single trivial .takeScrollback)).leads) j

/-! ## Tracing -/

/-- The screen with the origins of its cells. -/
def traced (s : Screen) : Screen := recode (fun id => (Origin.kept id).code) (originTable 0) [] s

/-- Actions on a traced screen, numbered from `i` on. -/
def tracedRun : Nat → Screen → List Action → Option Screen
  | _, t, [] => some t
  | i, t, a :: as => (t.act W a).bind fun t => tracedRun (i + 1) (t.retable (i + 1)) as

theorem traced_linked (h : s.Inv) (crowds : Nat → Prop) : Linked s crowds 0 s s.traced := by
  let φ (id : StyleId) : StyleId := Nat.pair id (Origin.kept id).code
  refine ⟨h, recode φ s.grid.styleTable s.scrolledOff s, ?_, ?_, fun n hn => ?_⟩
  · rw [recode_recode, recode_fixed fun id _ => ?_]
    · rfl
    · exact congrArg Prod.fst (Nat.unpair_pair id _)
  · rw [recode_recode]
    exact congrArg (recode · (originTable 0) [] s) (funext fun id => (congrArg Prod.snd (Nat.unpair_pair id _)).symm)
  · rw [recode_allRows] at hn
    obtain ⟨row, hr, c, hc, rfl⟩ := usesStyle_iff.1 hn
    obtain ⟨row, -, rfl⟩ := List.mem_map.1 hr
    obtain ⟨c, -, rfl⟩ := List.mem_map.1 hc
    refine ⟨.kept c.styleId, congrArg Prod.snd (Nat.unpair_pair _ _), ?_⟩
    change ShowsOrigin s crowds s (Nat.pair c.styleId (Origin.kept c.styleId).code).unpair.1 _
    rw [Nat.unpair_pair]
    exact ⟨rfl, rfl⟩

end

end Screen

end Retach
