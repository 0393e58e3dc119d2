import Mathlib.Data.List.Forall2
import Retach.RowInvariants
import Retach.Tracing
/-!
# What styles cells are written in

An action writes cells in the style that is current when it begins, blank ones
in its background; what it fills up or repairs it leaves in the default style.
On the traced screen this is a property of every row, so with the ids of both
screens linked it says where the style of every cell of a run comes from.
-/

open Checked Runs

namespace Retach

/-- Every cell of a row is allowed if every cell that is written is. -/
theorem Row.cells_invariant {C A : Cell → Prop} (hwritten : ∀ c, C c → A c) : Row.Invariant C fun row => ∀ c ∈ row.cells, A c where
  filled cols fill hfill _ := by
    intro c hc
    rw [(List.mem_replicate.1 hc).2]
    exact hwritten _ hfill
  set row x cell hcell h := by
    intro row' hset
    obtain ⟨cells, hcells, hrow'⟩ := Option.bind_eq_some_iff.1 hset
    obtain rfl := Option.some.inj hrow'
    unfold setAt at hcells
    split at hcells
    · obtain rfl := Option.some.inj hcells
      intro c hc
      rcases List.mem_or_eq_of_mem_set hc with hc | rfl
      · exact h c hc
      · exact hwritten _ hcell
    · cases hcells
  retain _ _ h := h
  blanked row blank hblank _ := by
    intro c hc
    obtain ⟨-, -, rfl⟩ := List.mem_map.1 hc
    exact hwritten _ hblank
  resize row cols hdefault h _ := by
    have hcells : (row.resize cols {}).cells = row.cells.take cols ++ List.replicate (cols - row.cells.length) ({} : Cell) := by
      unfold Row.resize
      split <;> rfl
    rw [hcells]
    refine List.forall_mem_append.2 ⟨fun c hc => h c (List.mem_of_mem_take hc), fun c hc => ?_⟩
    rw [(List.mem_replicate.1 hc).2]
    exact hwritten _ hdefault
  deleteCell row x blank hblank h := by
    have hremove : Ends (fun row' => ∀ c ∈ row'.cells, A c) (row.remove x) :=
      .after fun _ => .pure fun c hc => h c (List.mem_of_mem_eraseIdx hc)
    exact .bind hremove fun row' hrow' =>
      .pure (List.forall_mem_append.2 ⟨hrow', List.forall_mem_singleton.2 (hwritten _ hblank)⟩)
  insertCell row x blank hblank h := by
    have hpop : ∀ c ∈ row.pop.cells, A c := by
      unfold Row.pop
      split
      · exact h
      · exact fun c hc => h c (List.mem_of_mem_dropLast hc)
    intro row' hinsert
    obtain ⟨cells, hcells, hrow'⟩ := Option.bind_eq_some_iff.1 hinsert
    obtain rfl := Option.some.inj hrow'
    unfold insertAt at hcells
    split at hcells
    next hx =>
      obtain rfl := Option.some.inj hcells
      intro c hc
      rcases (List.mem_insertIdx hx).1 hc with rfl | hc
      · exact hwritten _ hblank
      · exact hpop c hc
    next => cases hcells
  pushCombining _ _ _ h _ _ := h

namespace Screen

/-! ## Writing -/

/-- The action that begins in `u` writes this cell in `style`. The alignment
pattern is in the default style. -/
def Writes (u : Screen) (a : Action) (style : Style) (c : Cell) : Prop :=
  u.Inks style c.c c.width ∨ a = .callback (.esc ['#'] '8') ∧ c.c = 'E' ∧ c.width = 1 ∧ style = {}

/-- `a` fills up rows, or there are wide characters that may be cut. -/
def MayFill (W : UnicodeWidth) (u : Screen) : Action → Prop
  | .callback e => e.Fills ∨ (∃ c ∈ e.prints u, 1 < W.charWidth (u.mapCharset c)) ∨ ∃ row ∈ u.allRows, ∃ c ∈ row.cells, c.width ≠ 1
  | .resize _ _ => True
  | .takeScrollback => False

/-- The `i`th action writes this cell on the traced screen in a style of its own. -/
def Inked (i : Nat) (u : Screen) (a : Action) (c : Cell) : Prop :=
  ∃ style, u.Writes a style c ∧ c.styleId = (Origin.written i style).code

/-- The cells that the `i`th action writes on the traced screen. -/
def Marked (W : UnicodeWidth) (i : Nat) (u : Screen) (a : Action) (c : Cell) : Prop := u.MayFill W a ∧ c = {} ∨ Inked i u a c

variable {W : UnicodeWidth} {C : Cell → Prop} {P : Row → Prop} {wide : Prop} {i : Nat} {u t : Screen} {a : Action} {e : Event}

theorem marked_written (hfill : u.MayFill W a) : Cell.Written (Marked W i u a) where
  default := .inl ⟨hfill, rfl⟩
  second c hc hwide := by
    rcases hc with ⟨-, rfl⟩ | ⟨style, hink | ⟨-, -, hone, -⟩, hid⟩
    · exact absurd hwide (by decide)
    · rcases hink with hcurrent | ⟨-, hone, -⟩
      · exact .inr ⟨style, .inl (.inl hcurrent), hid⟩
      · exact absurd (hone.symm.trans hwide) (by decide)
    · exact absurd (hone.symm.trans hwide) (by decide)

/-- A traced screen in the middle of an action that began in `u`. -/
structure Tracing (P : Row → Prop) (i : Nat) (u t : Screen) : Prop where
  holds : t.Holds P
  table : t.grid.styleTable = originTable i
  style : t.state.currentStyle = u.state.currentStyle
  modes : t.grid.modes = u.grid.modes

/-- Painting the grid of a traced screen. -/
theorem tracing_grid (hP : Row.Invariant C P) (t : Screen) : Grid.Stable C fun g => Tracing P i u { t with grid := g } where
  cursorX _ _ h := ⟨h.holds, h.table, h.style, h.modes⟩
  wrapPending _ _ h := ⟨h.holds, h.table, h.style, h.modes⟩
  change g y f hf h := by
    intro g' hg'
    have hholds := (holds_grid hP t).change g y f hf h.holds g' hg'
    obtain ⟨row, -, hg'⟩ := Option.bind_eq_some_iff.1 hg'
    obtain ⟨row', -, hg'⟩ := Option.bind_eq_some_iff.1 hg'
    obtain rfl := Option.some.inj hg'
    exact ⟨hholds, h.table, h.style, h.modes⟩
  mark g y row x m hrow hx hroom h := ⟨(holds_grid hP t).mark g y row x m hrow hx hroom h.holds, h.table, h.style, h.modes⟩
  rows g rows hrows h := ⟨(holds_grid hP t).rows g rows hrows h.holds, h.table, h.style, h.modes⟩
  boundary _ _ _ h := ⟨h.holds, h.table, h.style, h.modes⟩

/-- Painting a traced screen. -/
theorem tracing_stable (hP : Row.Invariant C P) (hmends : ∀ t : Screen, Grid.Mends C fun g => Tracing P i u { t with grid := g })
    (hinked : ∀ c, c.width = 1 ∨ wide → Inked i u (.callback e) c → C c) : Screen.PrintStable C wide (Tracing P i u) where
  grid := tracing_grid hP
  mends := hmends
  intern t style h := by
    intro p hp
    rw [origin_intern h.table, Option.some.injEq] at hp
    subst hp
    refine ⟨fun c width hwidth hink => hinked _ hwidth ⟨style, .inl ?_, rfl⟩, h⟩
    unfold Inks at hink ⊢
    rwa [h.style] at hink
  scrolledOff _ _ h := ⟨h.holds, h.table, h.style, h.modes⟩
  passthrough _ data h := ⟨h.holds.pushPassthrough data, h.table, (pushPassthrough_currentStyle _ data).trans h.style, h.modes⟩
  cursorY _ _ h := ⟨h.holds, h.table, h.style, h.modes⟩
  printed _ _ h := ⟨h.holds, h.table, h.style, h.modes⟩

theorem Tracing.mapCharset (h : Tracing P i u t) (c : Char) : t.mapCharset c = u.mapCharset c := by
  rw [Screen.mapCharset, Screen.mapCharset, h.modes]

/-- Where all cells are one column wide there is nothing to repair. -/
theorem fixup_narrow {A : Cell → Prop} (hA : ∀ c, A c → c.width = 1) {g : Grid} (h : ∀ row ∈ g.cells, ∀ c ∈ row.cells, A c) (x y : Nat) :
    Ends (· = g) (g.fixupWideCharAt x y) := by
  unfold Grid.fixupWideCharAt
  split
  · exact .pure rfl
  · refine .bind (P := fun row => ∀ c ∈ row.cells, A c) (fun row hrow => ?_) fun row hrow =>
      .bind (P := fun c => c.width = 1) (fun c hc => hA c (hrow c (List.mem_of_getElem? hc))) fun c hc => ?_
    · obtain ⟨-, -, hrow⟩ := Option.bind_eq_some_iff.1 hrow
      exact h row (List.mem_of_getElem? hrow)
    · rw [if_neg (by omega), if_neg (by omega)]
      exact .pure rfl

/-- One callback on the traced screen. -/
theorem step_marked {A : Cell → Prop} (hA : ∀ c, Marked W i u (.callback e) c → A c) (h : Tracing (fun row => ∀ c ∈ row.cells, A c) i u t)
    (hlast : t.state.lastPrintedChar = u.state.lastPrintedChar)
    (hwidths : (∀ row ∈ u.allRows, ∀ c ∈ row.cells, c.width = 1) → ∀ row ∈ t.allRows, ∀ c ∈ row.cells, c.width = 1) :
    Ends (Holds fun row => ∀ c ∈ row.cells, A c) (t.step W e) := by
  have hE : e = .esc ['#'] '8' → Inked i u (.callback e) { c := 'E' } := fun he =>
    ⟨{}, .inr ⟨by rw [he], rfl, rfl, rfl⟩, (Origin.code_default i).symm⟩
  by_cases hfill : u.MayFill W (.callback e)
  · have hC := marked_written (i := i) hfill
    have hP := Row.cells_invariant hA
    have hpaint : PrintStable (Marked W i u (.callback e)) True (Tracing (fun row => ∀ c ∈ row.cells, A c) i u) :=
      tracing_stable hP (fun t => (tracing_grid hP t).mends hC) fun _ _ => .inr
    exact step_holds hP hpaint (fun _ h => h.holds) W h (fun _ => hC) (fun he => .inr (hE he)) fun _ _ _ _ => .inr trivial
  · have hnone : ¬ e.Fills ∧ (∀ c ∈ e.prints u, W.charWidth (u.mapCharset c) ≤ 1) ∧ ∀ row ∈ u.allRows, ∀ c ∈ row.cells, c.width = 1 := by
      simpa [MayFill] using hfill
    obtain ⟨hfills, hprints, hnarrow⟩ := hnone
    -- all cells stay one column wide, so that nothing is repaired
    have hP : Row.Invariant (fun c => c.width = 1 ∧ Inked i u (.callback e) c) fun row => ∀ c ∈ row.cells, c.width = 1 ∧ A c :=
      Row.cells_invariant fun c hc => ⟨hc.1, hA c (.inr hc.2)⟩
    have hmends (t : Screen) : Grid.Mends (fun c => c.width = 1 ∧ Inked i u (.callback e) c)
        fun g => Tracing (fun row => ∀ c ∈ row.cells, c.width = 1 ∧ A c) i u { t with grid := g } := by
      refine ⟨fun g x y hg => ?_, fun c hc hwide => absurd (hc.1.symm.trans hwide) (by decide)⟩
      exact (fixup_narrow (fun _ hc => hc.1) hg.holds.1.2 x y).mono fun g' hg' => hg' ▸ hg
    have hpaint : PrintStable (fun c => c.width = 1 ∧ Inked i u (.callback e) c) False
        (Tracing (fun row => ∀ c ∈ row.cells, c.width = 1 ∧ A c) i u) :=
      tracing_stable hP hmends fun c hwidth hink => ⟨hwidth.resolve_right id, hink⟩
    have ht : t.Holds fun row => ∀ c ∈ row.cells, c.width = 1 ∧ A c :=
      h.holds.imp fun row hrow hcells c hc => ⟨hwidths hnarrow row hrow c hc, hcells c hc⟩
    have hstep : Ends (Holds fun row => ∀ c ∈ row.cells, c.width = 1 ∧ A c) (t.step W e) := by
      refine step_holds hP hpaint (fun _ h => h.holds) W { h with holds := ht } (fun h => absurd h hfills) (fun he => ⟨rfl, hE he⟩)
        fun c hc t' ht' => .inl ?_
      rw [ht'.mapCharset]
      refine hprints c ?_
      unfold Event.prints at hc ⊢
      rwa [hlast] at hc
    exact hstep.mono fun _ ht' => ht'.imp fun _ _ hcells c hc => (hcells c hc).2

/-- One action on the traced screen. -/
theorem act_marked {A : Cell → Prop} (hA : ∀ c, Marked W i u a c → A c) (h : Tracing (fun row => ∀ c ∈ row.cells, A c) i u t)
    (hlast : t.state.lastPrintedChar = u.state.lastPrintedChar)
    (hwidths : (∀ row ∈ u.allRows, ∀ c ∈ row.cells, c.width = 1) → ∀ row ∈ t.allRows, ∀ c ∈ row.cells, c.width = 1) (hsized : a.Sized) :
    Ends (Holds fun row => ∀ c ∈ row.cells, A c) (t.act W a) := by
  cases a with
  | callback e => exact step_marked hA h hlast hwidths
  | resize cols rows => exact resize_holds (Row.cells_invariant hA) (marked_written trivial) h.holds hsized.1 rows
  | takeScrollback => exact .pure h.holds

/-! ## Runs -/

variable (W : UnicodeWidth) (start : Screen) (as : List Action)

/-- The `i`th action interned a style when every slot was in use. -/
def Crowds (i : Nat) : Prop :=
  ∃ a u v, as[i]? = some a ∧ start.run W (as.take i) = some u ∧ Moment W u a v ∧ v.Crowded

/-- A cell of a traced screen during the run `as`. -/
def Sourced (c : Cell) : Prop :=
  (∃ id, c.styleId = (Origin.kept id).code) ∨ ∃ i a u, as[i]? = some a ∧ start.run W (as.take i) = some u ∧ Marked W i u a c

/-- How cell `c` of `s`, with origin `d`, got its style in the run `as`. -/
inductive Styled (s : Screen) (c d : Cell) : Prop
  /-- it had it at the start -/
  | kept (id : StyleId) (horigin : d.styleId = (Origin.kept id).code) (hid : c.styleId = id)
      (hstyle : s.grid.styleTable.get id = start.grid.styleTable.get id)
  /-- the `i`th action, begun in `u`, filled up rows or may have cut a wide character -/
  | filled (i : Nat) (a : Action) (u : Screen) (ha : as[i]? = some a) (hu : start.run W (as.take i) = some u) (hfill : u.MayFill W a)
      (horigin : d = {}) (hcell : c.c = ' ' ∧ c.width = 1) (hstyle : s.grid.styleTable.get c.styleId = {})
  /-- the `i`th action, begun in `u`, wrote it -/
  | written (i : Nat) (a : Action) (u : Screen) (style : Style) (ha : as[i]? = some a) (hu : start.run W (as.take i) = some u)
      (hwrites : u.Writes a style c) (horigin : d.styleId = (Origin.written i style).code)
      (hstyle : s.grid.styleTable.get c.styleId = style ∨ c.styleId = 0 ∧ style ≠ {} ∧ ∃ v, Moment W u a v ∧ v.Crowded)

/-- What is left without the style ids. -/
def uncoloured (s : Screen) : Screen := recode (fun _ => 0) .new [] s

/-- `t` is `s` with an origin for the style of each cell, and every cell shows
what its origin says. -/
structure Traces (s t : Screen) : Prop where
  same : t.uncoloured = s.uncoloured
  shows : List.Forall₂ (fun row origins => List.Forall₂ (Styled W start as s) row.cells origins.cells) s.allRows t.allRows

variable {W start as} {s : Screen}

theorem Linked.narrow {n : Nat} (hl : Linked start (Crowds W start as) n s t) (h : ∀ row ∈ s.allRows, ∀ c ∈ row.cells, c.width = 1) :
    ∀ row ∈ t.allRows, ∀ c ∈ row.cells, c.width = 1 := by
  have hsame : t.allRows.map (·.cells.map Cell.width) = s.allRows.map (·.cells.map Cell.width) :=
    hl.same (x := fun s => s.allRows.map fun row => row.cells.map Cell.width) fun φ T off s => by
      rw [recode_allRows, List.map_map]
      exact List.map_congr_left fun row _ => by simp [Row.recode_cells, Cell.recode]
  intro row hrow c hc
  have hmem : row.cells.map Cell.width ∈ s.allRows.map (·.cells.map Cell.width) := hsame ▸ List.mem_map_of_mem hrow
  obtain ⟨row', hrow', hwidths⟩ := List.mem_map.1 hmem
  have hwidth : c.width ∈ row'.cells.map Cell.width := hwidths ▸ List.mem_map_of_mem hc
  obtain ⟨c', hc', hsame⟩ := List.mem_map.1 hwidth
  exact hsame ▸ h row' hrow' c' hc'

/-- The rest of a run after `pre`. -/
theorem run_links {pre rest : List Action} (has : as = pre ++ rest) (hpre : start.run W pre = some s)
    (hl : Linked start (Crowds W start as) pre.length s t) (ht : t.Holds fun row => ∀ c ∈ row.cells, Sourced W start as c)
    (hsized : ∀ a ∈ rest, a.Sized) :
    Option.Rel (fun s t => Linked start (Crowds W start as) as.length s t ∧ t.Holds fun row => ∀ c ∈ row.cells, Sourced W start as c)
      (s.run W rest) (tracedRun W pre.length t rest) := by
  unfold run
  induction rest generalizing pre s t with
  | nil =>
    rw [List.append_nil] at has
    subst has
    exact .some ⟨hl, ht⟩
  | cons a rest ih =>
    have ha : as[pre.length]? = some a := by rw [has, List.getElem?_append_right (Nat.le_refl _), Nat.sub_self]; rfl
    have hu : start.run W (as.take pre.length) = some s := by rw [has, List.take_left, hpre]
    have hcrowds : ∀ v, Moment W s a v → v.Crowded → Crowds W start as pre.length := fun v hv h => ⟨a, s, v, ha, hu, hv, h⟩
    have hrel := act_links W hl (hsized a (List.mem_cons_self ..)) hcrowds (pre.length + 1)
    have htracing : Tracing (fun row => ∀ c ∈ row.cells, Sourced W start as c) pre.length s t :=
      { holds := ht, table := hl.styleTable, style := hl.same (x := fun s => s.state.currentStyle) fun _ _ _ _ => rfl
        modes := hl.same (x := fun s => s.grid.modes) fun _ _ _ _ => rfl }
    have hmarked : Ends (Holds fun row => ∀ c ∈ row.cells, Sourced W start as c) (t.act W a) :=
      act_marked (fun c hc => .inr ⟨_, a, s, ha, hu, hc⟩) htracing (hl.same (x := fun s => s.state.lastPrintedChar) fun _ _ _ _ => rfl)
        hl.narrow (hsized a (List.mem_cons_self ..))
    rw [List.foldlM_cons, tracedRun]
    cases hact : s.act W a with
    | none =>
      rw [hact] at hrel
      cases htact : t.act W a with
      | none => exact .none
      | some t' =>
        rw [htact] at hrel
        cases hrel
    | some s' =>
      rw [hact] at hrel
      cases htact : t.act W a with
      | none =>
        rw [htact] at hrel
        cases hrel
      | some t' =>
        rw [htact] at hrel
        cases hrel with
        | some hl' =>
          have has' : as = (pre ++ [a]) ++ rest := by rw [has, List.append_assoc]; rfl
          have hpre' : start.run W (pre ++ [a]) = some s' := by
            rw [run, List.foldlM_append, show List.foldlM (act W) start pre = some s from hpre, Option.bind_eq_bind,
              Option.bind_some, List.foldlM_cons, hact]
            rfl
          have hlinked : Linked start (Crowds W start as) (pre ++ [a]).length s' (t'.retable (pre.length + 1)) := by
            rwa [List.length_append]
          have hnext := ih has' hpre' hlinked (hmarked t' htact) fun b hb => hsized b (List.mem_cons_of_mem _ hb)
          rwa [List.length_append] at hnext

/-- One cell of a linked pair. -/
theorem Pairs.styled {p : Screen} {n : Nat} (hp : Pairs start (Crowds W start as) n s t p) {row : Row} (hrow : row ∈ p.allRows)
    {c : Cell} (hc : c ∈ row.cells) (hsource : Sourced W start as (c.recode (·.unpair.2))) :
    Styled W start as s (c.recode (·.unpair.1)) (c.recode (·.unpair.2)) := by
  obtain ⟨o, ho, hshows⟩ := hp.shows c.styleId (usesStyle_iff.2 ⟨row, hrow, c, hc, rfl⟩)
  rcases hsource with ⟨id, hkept⟩ | ⟨i, a, u, ha, hu, ⟨hfill, hblank⟩ | ⟨style, hwrites, horigin⟩⟩
  · obtain rfl := Origin.eq_kept (ho.symm.trans hkept)
    obtain ⟨hid, hget⟩ := hshows
    exact .kept id hkept hid (hid ▸ hget)
  · have hzero : o.code = (Origin.written 0 {}).code := by
      rw [Origin.code_default, ← ho]
      exact congrArg Cell.styleId hblank
    have hdefault : s.grid.styleTable.get c.styleId.unpair.1 = {} := by
      rcases Origin.eq_written hzero with rfl | ⟨-, j, rfl⟩ <;> exact hshows.resolve_right fun h => h.2.1 rfl
    exact .filled i a u ha hu hfill hblank ⟨congrArg Cell.c hblank, congrArg Cell.width hblank⟩ hdefault
  · refine .written i a u style ha hu hwrites horigin ?_
    rcases Origin.eq_written (ho.symm.trans horigin) with rfl | ⟨rfl, j, rfl⟩
    · refine hshows.imp_right fun ⟨hid, hne, a', u', v, ha', hu', hv, hcrowded⟩ => ⟨hid, hne, v, ?_, hcrowded⟩
      obtain rfl := Option.some.inj (ha'.symm.trans ha)
      obtain rfl := Option.some.inj (hu'.symm.trans hu)
      exact hv
    · exact .inl (hshows.resolve_right fun h => h.2.1 rfl)

theorem Linked.traces {n : Nat} (hl : Linked start (Crowds W start as) n s t)
    (ht : t.Holds fun row => ∀ c ∈ row.cells, Sourced W start as c) : Traces W start as s t where
  same := hl.same fun φ T off s => recode_recode .new []
  shows := by
    obtain ⟨-, p, hp⟩ := hl
    have hrows : s.allRows = p.allRows.map (Row.recode (·.unpair.1)) := (congrArg allRows hp.left).trans recode_allRows
    have horigins : t.allRows = p.allRows.map (Row.recode (·.unpair.2)) := (congrArg allRows hp.right).trans recode_allRows
    rw [hrows, horigins, List.forall₂_map_left_iff, List.forall₂_map_right_iff, List.forall₂_same]
    intro row hr
    rw [Row.recode_cells, Row.recode_cells, List.forall₂_map_left_iff, List.forall₂_map_right_iff, List.forall₂_same]
    intro c hc
    refine hp.styled hr hc (ht.allRows (row.recode (·.unpair.2)) ?_ _ (List.mem_map_of_mem hc))
    rw [horigins]
    exact List.mem_map_of_mem hr

theorem traced_sourced (h : start.Inv) (as : List Action) : start.traced.Holds fun row => ∀ c ∈ row.cells, Sourced W start as c := by
  have hkept : ∀ row ∈ start.traced.allRows, ∀ c ∈ row.cells, Sourced W start as c := by
    intro row hr c hc
    rw [traced, recode_allRows] at hr
    obtain ⟨row, -, rfl⟩ := List.mem_map.1 hr
    obtain ⟨c, -, rfl⟩ := List.mem_map.1 hc
    exact .inl ⟨c.styleId, rfl⟩
  obtain ⟨hgrid, hsaved⟩ := List.forall_mem_append.1 hkept
  exact ⟨⟨h.shape.cols_le, hgrid⟩, hsaved⟩

end Screen

end Retach
