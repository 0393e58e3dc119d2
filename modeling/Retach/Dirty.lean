import Retach.Safety
import Retach.Render
/-!
# Dirty tracking

An incremental frame leaves out the rows whose hashes have not changed. The
hashes are taken over style ids, so this is right as long as no slot that a row
in the cache uses is freed. RIS and the compaction at the end of the alternate
screen free such slots.
-/

open Checked Runs

namespace Retach

/-- A row as it was sent, and the style table it was sent with. -/
structure Painted where
  row : Row
  table : StyleTable

def Painted.shown (p : Painted) : List (Char × Nat × Style) × List (Nat × List Char) := p.row.shown p.table

/-- A screen, the cache of its client, and what was sent last for each row. -/
structure Viewed (H : Type) where
  screen : Screen
  cache : RenderCache H := {}
  sent : Nat → Option Painted := fun _ => none

/-- What happens to a screen with a client. -/
inductive Viewing where
  | act (a : Action)
  | frame (scrollback : List (List Event)) (full : Bool)
deriving DecidableEq, Repr

def Viewing.Sized : Viewing → Prop
  | .act a => a.Sized
  | .frame _ _ => True

/-! ## Cached rows -/

namespace Viewed

section Cached

variable {H : Type} (W : UnicodeWidth) (R : RowHash H)

/-- A row of the cache uses the slot. -/
def Caches (v : Viewed H) (id : StyleId) : Prop :=
  ∃ y < v.cache.rowHashes.length, ∃ p, v.sent y = some p ∧ ∃ c ∈ p.row.cells, c.styleId = id

/-- No slot that a row of the cache uses is freed. -/
def Spares (v : Viewed H) : Viewing → Prop
  | .act a => ∀ s', v.screen.act W a = some s' →
    ∀ id ∈ v.screen.grid.styleTable.freedSince s'.grid.styleTable, ¬ v.Caches id
  | .frame _ _ => True

/-- What a hash in the cache stands for. -/
def Tracks (v : Viewed H) (y : Nat) (h : H) : Prop :=
  h = R.unset ∨ ∃ p, v.sent y = some p ∧ h = R.hash p.row ∧
    (∀ c ∈ p.row.cells, v.screen.grid.styleTable.Held c.styleId) ∧ p.shown = p.row.shown v.screen.grid.styleTable

structure Inv (v : Viewed H) : Prop where
  screen : v.screen.Inv
  tracks : ∀ y h, v.cache.rowHashes[y]? = some h → v.Tracks R y h

variable {W R} {v : Viewed H}

/-- Rows that the cache does not know yet are unset. -/
theorem Inv.hashesFor (hv : v.Inv R) {n y : Nat} {h : H} (hh : (v.cache.hashesFor R n)[y]? = some h) :
    v.Tracks R y h := by
  unfold RenderCache.hashesFor at hh
  split at hh
  · rcases Nat.lt_or_ge y (v.cache.rowHashes.take n).length with hold | hnew
    · rw [RenderCache.resizeHashes, List.getElem?_append_left hold] at hh
      rw [List.length_take, Nat.lt_min] at hold
      exact hv.tracks y h (by rwa [List.getElem?_take_of_lt hold.1] at hh)
    · rw [RenderCache.resizeHashes, List.getElem?_append_right hnew] at hh
      exact .inl (List.mem_replicate.1 (List.mem_of_getElem? hh)).2
  · exact hv.tracks y h hh

/-- A hash that a row agrees with stands for that row. -/
theorem Tracks.row (hinj : Function.Injective R.hash) (hunset : ∀ row, R.hash row ≠ R.unset) {y : Nat} {row : Row}
    (h : v.Tracks R y (R.hash row)) :
    ∃ p, v.sent y = some p ∧ p.row = row ∧ p.shown = row.shown v.screen.grid.styleTable := by
  rcases h with h | ⟨p, hp, hhash, -, hshown⟩
  · exact absurd h (hunset row)
  · have hrow : p.row = row := (hinj hhash).symm
    exact ⟨p, hp, hrow, hrow ▸ hshown⟩

/-- Slots that are not freed keep their style, so the cached rows look the
same. -/
theorem Inv.act (hv : v.Inv R) {a : Action} (hsized : a.Sized) (hspares : v.Spares W (.act a)) {s' : Screen}
    (hact : v.screen.act W a = some s') : Inv R { v with screen := s' } := by
  have hsteps := Screen.act_steps W hv.screen hsized hact
  have hkeep := (steps_logs hsteps hv.screen).keeps
  refine ⟨steps_inv hsteps hv.screen, ?_⟩
  intro y h hh
  have hy : y < v.cache.rowHashes.length := (List.getElem?_eq_some_iff.1 hh).1
  rcases hv.tracks y h hh with hunset | ⟨p, hp, hhash, hheld, hshown⟩
  · exact .inl hunset
  have hcell : ∀ c ∈ p.row.cells, s'.grid.styleTable.Held c.styleId ∧
      s'.grid.styleTable.get c.styleId = v.screen.grid.styleTable.get c.styleId := fun c hc =>
    hkeep c.styleId (fun hfreed => hspares s' hact c.styleId hfreed ⟨y, hy, p, hp, c, hc, rfl⟩) (hheld c hc)
  refine .inr ⟨p, hp, hhash, fun c hc => (hcell c hc).1, hshown.trans ?_⟩
  refine Prod.ext (List.map_congr_left fun c hc => ?_) rfl
  simp only [Cell.shown, (hcell c hc).2]

theorem hashesFor_length (R : RowHash H) (cache : RenderCache H) (n : Nat) : (cache.hashesFor R n).length = n := by
  unfold RenderCache.hashesFor
  split
  · simp only [RenderCache.resizeHashes, List.length_append, List.length_take, List.length_replicate]
    omega
  next h => exact not_not.1 h

end Cached

/-! ## Runs -/

section Frames

variable {H : Type} [DecidableEq H] (W : UnicodeWidth) (R : RowHash H)

/-- What was sent last for row `y` once the row loop has run. -/
def paint (full : Bool) (hashes : List H) (v : Viewed H) (y : Nat) : Option Painted :=
  match v.screen.grid.visibleRows[y]?, hashes[y]? with
  | some row, some h => if R.skips full h row then v.sent y else some ⟨row, v.screen.grid.styleTable⟩
  | _, _ => v.sent y

/-- The hashes that a frame compares the rows with. -/
def compared (full : Bool) (v : Viewed H) : List H :=
  (if full then v.cache.invalidate else v.cache).hashesFor R v.screen.grid.visibleRowCount

def frame (v : Viewed H) (scrollback : List (List Event)) (full : Bool) : Viewed H :=
  let full' := full || decide (scrollback ≠ [])
  { v with
    cache := (renderScreenImpl R v.screen.grid v.screen.state.title scrollback full v.cache).2
    sent := v.paint R full' (v.compared R full') }

def view (v : Viewed H) : Viewing → Option (Viewed H)
  | .act a => (v.screen.act W a).map fun s => { v with screen := s }
  | .frame scrollback full => some (v.frame R scrollback full)

def run (v : Viewed H) (as : List Viewing) : Option (Viewed H) := as.foldlM (view W R) v

/-- Every row that an incremental frame would leave alone shows what was sent
for it last. -/
def SkipsSound (v : Viewed H) : Prop :=
  ∀ y row h, v.screen.grid.visibleRows[y]? = some row → (v.compared R false)[y]? = some h →
    R.skips false h row = true → ∃ p, v.sent y = some p ∧ p.shown = row.shown v.screen.grid.styleTable

variable {W R} {v : Viewed H}

theorem skips_iff {full : Bool} {h : H} {row : Row} : R.skips full h row = true ↔ full = false ∧ h = R.hash row := by
  simp [RowHash.skips]

theorem Inv.skipsSound (hinj : Function.Injective R.hash) (hunset : ∀ row, R.hash row ≠ R.unset) (hv : v.Inv R) :
    v.SkipsSound R := by
  intro y row h hrow hh hskip
  obtain rfl : h = R.hash row := (skips_iff.1 hskip).2
  obtain ⟨p, hp, -, hshown⟩ := (hv.hashesFor hh).row hinj hunset
  exact ⟨p, hp, hshown⟩

/-- Skipped or painted, a row leaves its hash. -/
theorem renderRows_hashes (t : StyleTable) (full : Bool) (y : Nat) (rows : List Row) (hashes : List H)
    (hlen : hashes.length = rows.length) : (renderRows R t full y rows hashes).2 = rows.map R.hash := by
  induction rows generalizing y hashes with
  | nil =>
    obtain rfl := List.length_eq_zero_iff.1 hlen
    rfl
  | cons row rows ih =>
    obtain ⟨h, hashes, rfl⟩ := List.exists_cons_of_length_eq_add_one hlen
    have hrest := ih (y + 1) hashes (by simpa using hlen)
    rw [renderRows]
    split
    next hskip =>
      obtain rfl : h = R.hash row := (skips_iff.1 hskip).2
      simp only [hrest, List.map_cons]
    next => simp only [hrest, List.map_cons]

theorem visibleRowCount_eq {g : Grid} (hg : g.Shape) : g.visibleRowCount = g.visibleRows.length := by
  rw [hg.visible_length, Grid.visibleRowCount, hg.cells_len, Nat.add_sub_cancel_left]

theorem frame_hashes {g : Grid} (hg : g.Shape) (title : List UInt8) (scrollback : List (List Event)) (full : Bool)
    (cache : RenderCache H) : (renderScreenImpl R g title scrollback full cache).2.rowHashes = g.visibleRows.map R.hash := by
  rw [renderScreenImpl_cache]
  exact renderRows_hashes _ _ _ _ _ ((hashesFor_length _ _ _).trans (visibleRowCount_eq hg))

/-- A painted row has its hash; a skipped one is the row that was sent. -/
theorem Inv.frame (hinj : Function.Injective R.hash) (hunset : ∀ row, R.hash row ≠ R.unset) (hv : v.Inv R)
    (scrollback : List (List Event)) (full : Bool) : (v.frame R scrollback full).Inv R := by
  refine ⟨hv.screen, fun y h hh => .inr ?_⟩
  have hcache : (v.frame R scrollback full).cache.rowHashes = v.screen.grid.visibleRows.map R.hash :=
    frame_hashes hv.screen.shape ..
  rw [hcache, List.getElem?_map, Option.map_eq_some_iff] at hh
  obtain ⟨row, hrow, rfl⟩ := hh
  have hheld : ∀ c ∈ row.cells, v.screen.grid.styleTable.Held c.styleId := fun c hc =>
    hv.screen.held_visible (List.mem_of_getElem? hrow) hc
  have hy : y < (v.compared R (full || decide (scrollback ≠ []))).length := by
    rw [compared, hashesFor_length, visibleRowCount_eq hv.screen.shape]
    exact (List.getElem?_eq_some_iff.1 hrow).1
  have hsent : (v.frame R scrollback full).sent y = v.paint R _ (v.compared R (full || decide (scrollback ≠ []))) y := rfl
  rw [paint, hrow, List.getElem?_eq_getElem hy] at hsent
  by_cases hskip : R.skips (full || decide (scrollback ≠ [])) (v.compared R (full || decide (scrollback ≠ [])))[y] row = true
  · obtain ⟨hfull, hhash⟩ := skips_iff.1 hskip
    have htracks : v.Tracks R y (R.hash row) := by
      refine hv.hashesFor (n := v.screen.grid.visibleRowCount) ?_
      rw [← hhash, ← List.getElem?_eq_getElem hy, compared, hfull]
      rfl
    obtain ⟨p, hp, rfl, hshown⟩ := htracks.row hinj hunset
    exact ⟨p, by simpa only [hskip, if_true, hp] using hsent, rfl, hheld, hshown⟩
  · exact ⟨⟨row, v.screen.grid.styleTable⟩, by simpa only [hskip, Bool.false_eq_true, if_false] using hsent, rfl, hheld, rfl⟩

/-- In a run that frees no slot under the cache, frames leave out no row that
looks different from what was sent. -/
theorem run_skips (hinj : Function.Injective R.hash) (hunset : ∀ row, R.hash row ≠ R.unset) {cols rows : Nat} (limit : Nat)
    (hcols : cols ≤ 65535) (hrows : rows ≤ 65535) (as : List Viewing) (hsized : ∀ a ∈ as, a.Sized)
    (hspares : Along (view W R) (Spares W) { screen := .new cols rows limit } as)
    (hrun : run W R { screen := .new cols rows limit } as = some v) : v.SkipsSound R := by
  have hstep : ∀ v a v', Inv R v → a.Sized ∧ v.Spares W a → v.view W R a = some v' → Inv R v' := by
    rintro v (a | ⟨scrollback, full⟩) v' hv ⟨hsized, hspares⟩ hview
    · obtain ⟨s', hact, rfl⟩ := Option.map_eq_some_iff.1 hview
      exact hv.act hsized hspares hact
    · obtain rfl := Option.some.inj hview
      exact hv.frame hinj hunset scrollback full
  have hstart : Inv R { screen := .new cols rows limit } := ⟨Screen.new_inv limit hcols hrows, by simp⟩
  exact (((Along.of_forall hsized _).and hspares).keeps hstep hstart hrun).skipsSound hinj hunset

end Frames

/-- Rows are their own hashes. -/
def rowHash : RowHash (Option Row) := ⟨some, none⟩

theorem spares_act {H : Type} {W : UnicodeWidth} {v : Viewed H} {a : Action} {s' : Screen} (hact : v.screen.act W a = some s')
    (hfree : ∀ id ∈ v.screen.grid.styleTable.freedSince s'.grid.styleTable, ∀ y < v.cache.rowHashes.length, ∀ p ∈ v.sent y,
      ∀ c ∈ p.row.cells, c.styleId ≠ id) : v.Spares W (.act a) := by
  intro s'' hs'' id hid
  obtain rfl := Option.some.inj (hact.symm.trans hs'')
  rintro ⟨y, hy, p, hp, c, hc, hcid⟩
  exact hfree id hid y hy p hp c hc hcid

/-- The slot of a style of the alternate screen is freed, and the next frame
leaves out a row in another style. -/
theorem run_skips_sample : ∃ v row h p, run .sample rowHash { screen := .new 2 1 10 }
      [.act (.callback (.csi [[31]] [] 'm')), .act (.callback (.print 'a')), .frame [] true, .act (.callback (.decSet 1049)),
        .act (.callback (.csi [[32]] [] 'm')), .act (.callback (.print 'b')), .act (.callback (.decReset 1049))] = some v ∧
    v.screen.grid.styleTable.freed = [2] ∧ v.screen.grid.visibleRows[0]? = some row ∧ (v.compared rowHash false)[0]? = some h ∧
    rowHash.skips false h row = true ∧ v.sent 0 = some p ∧ p.shown = row.shown v.screen.grid.styleTable := by
  have hspares : Along (view .sample rowHash) (Spares .sample) { screen := .new 2 1 10 }
      [.act (.callback (.csi [[31]] [] 'm')), .act (.callback (.print 'a')), .frame [] true, .act (.callback (.decSet 1049)),
        .act (.callback (.csi [[32]] [] 'm')), .act (.callback (.print 'b')), .act (.callback (.decReset 1049))] :=
    .cons (spares_act rfl (by decide)) rfl (.cons (spares_act rfl (by decide)) rfl (.cons trivial rfl
      (.cons (spares_act rfl (by decide)) rfl (.cons (spares_act rfl (by decide)) rfl (.cons (spares_act rfl (by decide)) rfl
        (.cons (spares_act rfl (by decide)) rfl trivial))))))
  obtain ⟨v, row, h, hrun, hfreed, hrow, hh, hskip⟩ : ∃ v row h, run .sample rowHash { screen := .new 2 1 10 }
      [.act (.callback (.csi [[31]] [] 'm')), .act (.callback (.print 'a')), .frame [] true, .act (.callback (.decSet 1049)),
        .act (.callback (.csi [[32]] [] 'm')), .act (.callback (.print 'b')), .act (.callback (.decReset 1049))] = some v ∧
      v.screen.grid.styleTable.freed = [2] ∧ v.screen.grid.visibleRows[0]? = some row ∧ (v.compared rowHash false)[0]? = some h ∧
      rowHash.skips false h row = true := ⟨_, _, _, rfl, rfl, rfl, rfl, by decide⟩
  obtain ⟨p, hp, hshown⟩ := run_skips (fun _ _ h => Option.some.inj h) (fun _ h => by cases h) 10 (by decide) (by decide) _
    (by simp [Viewing.Sized, Action.Sized]) hspares hrun 0 row h hrow hh hskip
  exact ⟨v, row, h, p, hrun, hfreed, hrow, hh, hskip, hp, hshown⟩

/-- RIS frees the slot of a painted style, and the same text in another style
gets the same slot: the frame leaves the row as it was. -/
theorem reset_hides : ∃ v, run .sample rowHash { screen := .new 4 1 10 }
    [.act (.callback (.csi [[31]] [] 'm')), .act (.callback (.print 'a')), .frame [] true, .act (.callback (.esc [] 'c')),
      .act (.callback (.csi [[32]] [] 'm')), .act (.callback (.print 'a'))] = some v ∧ ¬ v.SkipsSound rowHash := by
  refine ⟨_, rfl, ?_⟩
  intro h
  obtain ⟨p, hp, hshown⟩ := h 0 _ _ rfl rfl rfl
  obtain rfl := Option.some.inj hp
  exact absurd hshown (by decide)

/-- So does leaving the alternate screen. -/
theorem compaction_hides : ∃ v, run .sample rowHash { screen := .new 4 1 10 }
    [.act (.callback (.decSet 1049)), .act (.callback (.csi [[31]] [] 'm')), .act (.callback (.print 'a')), .frame [] true,
      .act (.callback (.decReset 1049)), .act (.callback (.csi [[32]] [] 'm')), .act (.callback (.print 'a'))] = some v ∧
    ¬ v.SkipsSound rowHash := by
  refine ⟨_, rfl, ?_⟩
  intro h
  obtain ⟨p, hp, hshown⟩ := h 0 _ _ rfl rfl rfl
  obtain rfl := Option.some.inj hp
  exact absurd hshown (by decide)

end Viewed

end Retach
