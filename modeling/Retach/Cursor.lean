import Retach.Dirty
import Retach.Modes
/-!
# The client's cursor

Painting a row moves the terminal's cursor, and so does setting the scroll
region. A frame puts the cursor back only if the screen's cursor is not where
the frame before left it.
-/

open Checked Runs

namespace Retach

/-! ## Painting -/

/-- The effects of painting. -/
def Kind.Paints (k : Kind) : Prop := k = .other ∨ k = .move ∨ k = .orphan ∨ k = .control

/-- Neither modes nor the visibility of the cursor are touched by painting. -/
theorem Effect.display {k : Kind} {s s' : Screen} (h : Effect k s s') (hk : k.Paints) :
    s'.grid.modes = s.grid.modes ∧ s'.grid.cursorVisible = s.grid.cursorVisible := by
  cases h with
  | capture id top vis =>
    unfold Grid.captured
    split <;> exact ⟨rfl, rfl⟩
  | visible | modes | clear | enter | exit | reset | resize | takeScrollback => simp [Kind.Paints] at hk
  | _ => exact ⟨rfl, rfl⟩

/-- Effects without a name leave the cursor and its pending wrap alone. -/
theorem Effect.still {k : Kind} {s s' : Screen} (h : Effect k s s') (hk : k = .other) :
    s'.grid.cursorX = s.grid.cursorX ∧ s'.grid.cursorY = s.grid.cursorY ∧ s'.grid.wrapPending = s.grid.wrapPending := by
  subst hk
  cases h with
  | capture id top vis =>
    unfold Grid.captured
    split <;> exact ⟨rfl, rfl, rfl⟩
  | _ => exact ⟨rfl, rfl, rfl⟩

/-- The events that paint. -/
def Event.Paints : Event → Prop
  | .print _ => True
  | .execute b => b = 0x0a
  | .csi ps [] 'J' => ps = [[2]]
  | .csi _ [] a => a = 'H' ∨ a = 'm' ∨ a = 'K' ∨ a = 'r'
  | _ => False

namespace Screen

variable (W : UnicodeWidth) {T T' : Screen}

theorem paints_does {e : Event} (he : e.Paints) (h : T.Inv) (hfits : EveryPrint W (PrintFits W) T e) :
    Does Kind.Paints T (T.step W e) := by
  have ho : Kind.Paints .other := .inl rfl
  have hm : Kind.Paints .move := .inr (.inl rfl)
  unfold Event.Paints at he
  split at he
  · exact print_does W ho hm h _ hfits (fun _ => .inr (.inr (.inl rfl))) fun _ => .inr (.inr (.inr rfl))
  · subst he
    exact advanceLine_after ho hm h h.shape.cursor_x false
  · subst he
    exact csiEraseDisplay_does ho h 2 fun h3 => by cases h3
  next ps a _ =>
    rcases he with rfl | rfl | rfl | rfl
    · exact csiCursorPosition_does hm h _ _
    · exact does_aux ho ⟨rfl, rfl, rfl, rfl, rfl, List.prefix_rfl, id⟩ (fun hq => { hq with }) (.of_eq rfl rfl)
    · exact csiEraseLine_does ho h _
    · exact csiSetScrollingRegion_does ho hm h _ _
  · exact he.elim

/-- Painting succeeds when the characters fit. -/
theorem process_paints {es : List Event} (hes : ∀ e ∈ es, e.Paints) (h : T.Inv)
    (hfits : Along (step W) (EveryPrint W (PrintFits W)) T es) : Does Kind.Paints T (T.process W es) := by
  induction es generalizing T with
  | nil => exact .stay T
  | cons e es ih =>
    rw [process_cons]
    apply (paints_does W (hes e (List.mem_cons_self ..)) h hfits.1).bind
    intro T₁ hone hsteps
    exact ih (fun e he => hes e (List.mem_cons_of_mem _ he)) (steps_inv hsteps h) (hfits.2 T₁ hone)

theorem steps_display (h : Steps Effect Kind.Paints T T') :
    T'.grid.modes = T.grid.modes ∧ T'.grid.cursorVisible = T.grid.cursorVisible :=
  h.keeps (P := fun t => t.grid.modes = T.grid.modes ∧ t.grid.cursorVisible = T.grid.cursorVisible)
    (fun _ _ _ hk he ht => ⟨(he.display hk).1.trans ht.1, (he.display hk).2.trans ht.2⟩) ⟨rfl, rfl⟩

end Screen

/-! ## The events of a frame -/

theorem paintCells_paints (t : StyleTable) (row : Row) (last : StyleId) (x : Nat) (cells : List Cell) :
    ∀ e ∈ (paintCells t row last x cells).1, e.Paints := by
  induction cells generalizing last x with
  | nil => simp [paintCells]
  | cons cell cells ih =>
    rw [paintCells]
    split
    · exact ih last (x + 1)
    · intro e he
      simp only [List.mem_append, List.mem_cons, List.mem_map] at he
      rcases he with (he | rfl | ⟨mark, -, rfl⟩) | he
      · split at he
        · obtain rfl := List.mem_singleton.1 he
          simp [Event.sgr, Event.Paints]
        · exact absurd he List.not_mem_nil
      · trivial
      · trivial
      · exact ih _ _ e he

theorem renderLine_paints (row : Row) (t : StyleTable) : ∀ e ∈ renderLine row t, e.Paints := by
  intro e he
  rw [renderLine, List.mem_append] at he
  rcases he with he | he
  · exact paintCells_paints _ _ _ _ _ e he
  · split at he
    · obtain rfl := List.mem_singleton.1 he
      simp [Event.sgrReset, Event.Paints]
    · exact absurd he List.not_mem_nil

theorem renderRow_paints (t : StyleTable) (full : Bool) (y : Nat) (row : Row) : ∀ e ∈ renderRow t full y row, e.Paints := by
  intro e he
  simp only [renderRow, List.mem_cons, List.mem_append] at he
  rcases he with (rfl | he) | he
  · simp [Event.cup, Event.Paints]
  · exact paintCells_paints _ _ _ _ _ e he
  · split at he <;> simp only [List.mem_cons, List.not_mem_nil, or_false] at he
    · subst he
      simp [Event.sgrReset, Event.Paints]
    · rcases he with rfl | rfl <;> simp [Event.sgrReset, Event.el, Event.Paints]

theorem renderRows_paints {H : Type} [DecidableEq H] (R : RowHash H) (t : StyleTable) (full : Bool) (y : Nat)
    (rows : List Row) (hashes : List H) : ∀ e ∈ (renderRows R t full y rows hashes).1, e.Paints := by
  induction rows generalizing y hashes with
  | nil => simp [renderRows]
  | cons row rows ih =>
    cases hashes with
    | nil => simp [renderRows]
    | cons h hashes =>
      rw [renderRows]
      split
      · exact ih (y + 1) hashes
      · intro e he
        rcases List.mem_append.1 he with he | he
        · exact renderRow_paints _ _ _ _ e he
        · exact ih (y + 1) hashes e he

theorem renderChunk_paints (rows : Nat) {chunk : List (List Event)} (h : ∀ line ∈ chunk, ∀ e ∈ line, e.Paints) :
    ∀ e ∈ renderChunk rows chunk, e.Paints := by
  intro e he
  simp only [renderChunk, List.mem_append, List.mem_cons, List.mem_flatten, List.mem_map] at he
  rcases he with (⟨_, ⟨⟨line, i⟩, hline, rfl⟩, he⟩ | ⟨_, ⟨i, -, rfl⟩, he⟩) | rfl | he
  · simp only [List.mem_append, List.mem_cons, List.not_mem_nil, or_false] at he
    rcases he with (rfl | rfl | he) | rfl
    · simp [Event.cup, Event.Paints]
    · simp [Event.sgrReset, Event.Paints]
    · exact h line (List.fst_mem_of_mem_zipIdx hline) e he
    · simp [Event.el, Event.Paints]
  · simp only [List.mem_cons, List.not_mem_nil, or_false] at he
    rcases he with rfl | rfl <;> simp [Event.cup, Event.el, Event.Paints]
  · simp [Event.cup, Event.Paints]
  · obtain rfl := (List.mem_replicate.1 he).2
    rfl

/-- A chunk holds lines of the list. -/
theorem mem_chunks {α : Type} {n : Nat} {l c : List α} (hc : c ∈ chunks n l) : ∀ a ∈ c, a ∈ l := by
  obtain ⟨i, -, rfl⟩ := List.mem_map.1 hc
  exact fun a ha => List.mem_of_mem_drop (List.mem_of_mem_take ha)

/-! ## Cursor, title and modes on a terminal -/

namespace Screen

variable (W : UnicodeWidth) {T T' : Screen} {g : Grid}

/-- A terminal of the size of the grid. -/
structure Matches (T : Screen) (g : Grid) : Prop where
  inv : T.Inv
  cols : T.grid.cols = g.cols
  rows : T.grid.rows = g.rows

theorem Matches.steps (h : T.Matches g) {allowed : Kind → Prop} (hk : ¬ allowed .resize)
    (hs : Steps Effect allowed T T') : T'.Matches g :=
  ⟨steps_inv hs h.inv, (steps_dims hk hs).1.trans h.cols, (steps_dims hk hs).2.trans h.rows⟩

theorem Matches.effect (h : T.Matches g) {k : Kind} (hk : k ≠ .resize) (he : Effect k T T') : T'.Matches g :=
  ⟨he.inv h.inv, (he.dims hk).1.trans h.cols, (he.dims hk).2.trans h.rows⟩

theorem Matches.setModes (h : T.Matches g) (f : TerminalModes → TerminalModes) : (T.setModes f).Matches g :=
  h.effect (by decide) (.modes (f T.grid.modes))

theorem Matches.setCursorVisible (h : T.Matches g) (v : Bool) : (T.onGrid (·.setCursorVisible v)).Matches g :=
  h.effect (by decide) (.visible v)

theorem Matches.homed (h : T.Matches g) (home : Bool) : (T.homed home).Matches g := by
  unfold Screen.homed
  split
  · have htop : T.grid.scrollTop < T.grid.rows := Nat.lt_of_le_of_lt h.inv.shape.region_le h.inv.shape.region_lt
    exact h.effect (by decide) (.cursor 0 _ false h.inv.shape.cols_pos htop)
  · exact h

/-- The cursor in column `x` of row `y`. -/
def cursorAt (T : Screen) (x y : Nat) : Screen :=
  T.onGrid fun g => ((g.setWrapPending false).setCursorY y).setCursorX x

/-- The row that CUP addresses as row `y`. -/
def addressed (T : Screen) (y : Nat) : Nat :=
  if T.grid.modes.originMode then min (T.grid.scrollTop + y) T.grid.scrollBottom else y

theorem step_cup (h : T.Inv) {x y : Nat} (hx : x < T.grid.cols) (hy : y < T.grid.rows) :
    T.step W (.cup (y + 1) (x + 1)) = some (T.cursorAt x (T.addressed y)) := by
  have hrows := h.shape.rows_le
  have hbottom := h.shape.region_lt
  have hrow : addressedRow T.grid (y + 1) = some (T.addressed y) := by
    unfold addressedRow addressed
    split
    · rw [Nat.add_sub_cancel, satAdd16, u16Max]
      congr 1
      omega
    · rw [h.bottom]
      simp only [Option.bind_eq_bind, Option.bind_some, Nat.add_sub_cancel, Option.pure_def]
      congr 1
      omega
  change T.csiCursorPosition (param [[y + 1], [x + 1]] 0 1) (param [[y + 1], [x + 1]] 1 1) = _
  have hparams : param [[y + 1], [x + 1]] 0 1 = y + 1 ∧ param [[y + 1], [x + 1]] 1 1 = x + 1 := by simp [param]
  rw [hparams.1, hparams.2, csiCursorPosition, hrow, h.right]
  simp only [Option.bind_eq_bind, Option.bind_some, Nat.add_sub_cancel, show min x (T.grid.cols - 1) = x by omega]
  rfl

theorem step_region (h : T.Matches g) (hg : g.Shape) :
    T.step W (.csi [[g.scrollTop + 1], [g.scrollBottom + 1]] [] 'r') = some (T.onGrid fun t =>
      (((t.setScrollRegion g.scrollTop g.scrollBottom).setCursorX 0).setCursorY
        (if t.modes.originMode then g.scrollTop else 0)).setWrapPending false) := by
  have hle := hg.region_le
  have hlt := hg.region_lt
  have hrows := h.rows
  change T.csiSetScrollingRegion (param [[g.scrollTop + 1], [g.scrollBottom + 1]] 0 1)
    (param [[g.scrollTop + 1], [g.scrollBottom + 1]] 1 T.grid.rows) = _
  have hparams : param [[g.scrollTop + 1], [g.scrollBottom + 1]] 0 1 = g.scrollTop + 1 ∧
      param [[g.scrollTop + 1], [g.scrollBottom + 1]] 1 T.grid.rows = g.scrollBottom + 1 := by simp [param]
  rw [hparams.1, hparams.2, csiSetScrollingRegion, h.inv.bottom]
  simp only [Option.bind_eq_bind, Option.bind_some, Nat.add_sub_cancel,
    show min g.scrollBottom (T.grid.rows - 1) = g.scrollBottom by omega, if_pos hle]
  rfl

/-- DECSTBM without parameters. -/
theorem step_region_full (h : T.Inv) :
    T.step W (.csi [[0]] [] 'r') = some (T.onGrid fun t =>
      (((t.setScrollRegion 0 (t.rows - 1)).setCursorX 0).setCursorY 0).setWrapPending false) := by
  have hpos := h.shape.rows_pos
  change T.csiSetScrollingRegion (param [[0]] 0 1) (param [[0]] 1 T.grid.rows) = _
  have hparams : param [[0]] 0 1 = 1 ∧ param [[0]] 1 T.grid.rows = T.grid.rows := by simp [param]
  rw [hparams.1, hparams.2, csiSetScrollingRegion, h.bottom]
  simp only [Option.bind_eq_bind, Option.bind_some, Nat.sub_self, Nat.min_self, if_pos (Nat.zero_le _), ite_self]
  rfl

/-- A title does not touch the grid. -/
theorem step_title (T : Screen) (title : List UInt8) :
    ∃ st, T.step W (titleEvent title) = some { T with state := st } ∧ T.state.Aux st := by
  unfold titleEvent
  obtain ⟨ps, hps⟩ := splitParams_head (oscKept 1023 (title.filter fun b => b ≥ 0x20 ∧ b ≠ 0x7f))
  have hp := oscKept_piece 1023 (title.filter fun b => b ≥ 0x20 ∧ b ≠ 0x7f)
  rw [hps]
  generalize (oscKept 1023 (title.filter fun b => b ≥ 0x20 ∧ b ≠ 0x7f)).takeWhile (· ≠ 0x3b) = p at hp
  replace hp : p.length ≤ maxTitleLen := Nat.le_trans hp (by decide)
  change ∃ st, T.oscDispatch ([0x32] :: p :: ps) true = _ ∧ _
  have hnum : parseU16 [0x32] = some 2 := rfl
  simp only [oscDispatch, hnum, or_true, if_true, Option.bind_eq_bind, if_pos hp, Option.bind_some]
  split
  · refine ⟨_, rfl, rfl, rfl, rfl, rfl, rfl, List.prefix_rfl, fun ht => ⟨hp, ht.2⟩⟩
  · exact ⟨T.state, rfl, rfl, rfl, rfl, rfl, rfl, List.prefix_rfl, id⟩

/-! ## A frame on a terminal -/

/-- The terminal shows the cursor and the modes of the grid. -/
structure Follows (T : Screen) (g : Grid) : Prop extends T.Matches g where
  cursorX : T.grid.cursorX = g.cursorX
  cursorY : T.grid.cursorY = g.cursorY
  modes : T.grid.modes = g.modes

variable {H : Type} {title : List UInt8} {full : Bool} {cache : RenderCache H}

/-- The scroll region, if it is sent. -/
theorem process_region (h : T.Matches g) (P : Prop) [Decidable P] :
    ∃ T', T.process W (if P then [.csi [[g.scrollTop + 1], [g.scrollBottom + 1]] [] 'r'] else []) = some T' ∧
      T'.Matches g ∧ T'.grid.modes = T.grid.modes ∧ T'.grid.cursorVisible = T.grid.cursorVisible ∧ (¬ P → T' = T) := by
  split
  next hP =>
    have hpaints : Event.Paints (.csi [[g.scrollTop + 1], [g.scrollBottom + 1]] [] 'r') := by simp [Event.Paints]
    obtain ⟨T', hT', hsteps⟩ := paints_does W hpaints h.inv trivial
    have hdisplay := steps_display hsteps
    exact ⟨T', (process_one ..).trans hT', h.steps (by simp [Kind.Paints]) hsteps, hdisplay.1, hdisplay.2, absurd hP⟩
  next => exact ⟨T, rfl, h, rfl, rfl, fun _ => rfl⟩

/-- The modes, all or those that have changed. -/
theorem process_modes (horigin : g.modes.originMode = false)
    (hmodes : full = false → ∀ m, cache.lastModes = some m → T.grid.modes = m) :
    T.process W (modeEvents g.modes full cache.lastModes) = some (T.setModes fun _ => g.modes) := by
  have hall : T.process W (emitMode g.modes) = some (T.setModes fun _ => g.modes) := by
    rw [process_emitMode, horigin]
    rfl
  cases hlast : cache.lastModes with
  | none => exact hall
  | some prev =>
    cases full with
    | true => exact hall
    | false =>
      obtain rfl := hmodes rfl prev hlast
      rw [modeEvents, if_pos (by simp), process_emitModeDelta, horigin]
      rfl

/-- The end of a frame leaves the terminal with the cursor of the grid when it
sends it, and also when nothing before has moved it. -/
theorem process_tail (h : T.Matches g) (hg : g.Shape) (horigin : g.modes.originMode = false)
    (hmodes : full = false → ∀ m, cache.lastModes = some m → T.grid.modes = m)
    (hcursor : full = false → cache.lastCursor = some (g.cursorX, g.cursorY) →
      cache.lastScrollRegion = some (g.scrollTop, g.scrollBottom) ∧
        T.grid.cursorX = g.cursorX ∧ T.grid.cursorY = g.cursorY) :
    ∃ T', T.process W (renderModesTitleCursor g title full cache).1 = some T' ∧ T'.Follows g ∧
      T'.grid.cursorVisible = T.grid.cursorVisible := by
  obtain ⟨T₁, hT₁, h₁, hmodes₁, hvisible₁, hsame₁⟩ := process_region W h
    (full ∨ cache.lastScrollRegion ≠ some (g.scrollTop, g.scrollBottom))
  have hT₂ := process_modes W (T := T₁) horigin fun hf m hm => hmodes₁.trans (hmodes hf m hm)
  have h₂ : (T₁.setModes fun _ => g.modes).Matches g := h₁.setModes _
  have hT₃ : ∃ T₃, (T₁.setModes fun _ => g.modes).process W
        (if full ∨ cache.lastCursor ≠ some (g.cursorX, g.cursorY) then [.cup (g.cursorY + 1) (g.cursorX + 1)] else []) =
          some T₃ ∧ T₃.Follows g ∧ T₃.grid.cursorVisible = T₁.grid.cursorVisible := by
    split
    next hsent =>
      have hx : g.cursorX < (T₁.setModes fun _ => g.modes).grid.cols := h₂.cols ▸ hg.cursor_x
      have hy : g.cursorY < (T₁.setModes fun _ => g.modes).grid.rows := h₂.rows ▸ hg.cursor_y
      have hrow : (T₁.setModes fun _ => g.modes).addressed g.cursorY = g.cursorY := if_neg (by
        change ¬ g.modes.originMode = true
        simp [horigin])
      refine ⟨(T₁.setModes fun _ => g.modes).cursorAt g.cursorX g.cursorY,
        (process_one ..).trans ((step_cup W h₂.inv hx hy).trans (by rw [hrow])), ?_, rfl⟩
      exact ⟨h₂.effect (by decide) (.cursor _ _ false hx hy), rfl, rfl, rfl⟩
    next hsent =>
      rw [not_or, Bool.not_eq_true, Decidable.not_not] at hsent
      obtain ⟨hregion, hx, hy⟩ := hcursor hsent.1 hsent.2
      obtain rfl := hsame₁ (by simp [hsent.1, hregion])
      exact ⟨_, rfl, ⟨h₂, hx, hy, rfl⟩, rfl⟩
  obtain ⟨T₃, hT₃, h₃, hvisible₃⟩ := hT₃
  have hT₄ : ∃ T₄, T₃.process W (if full ∨ title ≠ cache.lastTitle then [titleEvent title] else []) = some T₄ ∧
      T₄.Follows g ∧ T₄.grid.cursorVisible = T₃.grid.cursorVisible := by
    split
    · obtain ⟨st, hst, haux⟩ := step_title W T₃ title
      refine ⟨_, (process_one ..).trans hst, ?_, rfl⟩
      exact ⟨h₃.toMatches.effect (by decide) (.osc st haux), h₃.cursorX, h₃.cursorY, h₃.modes⟩
    · exact ⟨T₃, rfl, h₃, rfl⟩
  obtain ⟨T₄, hT₄, h₄, hvisible₄⟩ := hT₄
  refine ⟨T₄, ?_, h₄, hvisible₄.trans (hvisible₃.trans hvisible₁)⟩
  simp only [renderModesTitleCursor, process_append]
  rw [hT₁, Option.bind_some, hT₂, Option.bind_some, hT₃, Option.bind_some, hT₄]

section Frames

variable [DecidableEq H] {R : RowHash H}

/-- Where the cursor of a terminal has to be before a frame: the frame sends
the cursor, or it sends nothing that moves it. -/
def FollowsSoon (T : Screen) (R : RowHash H) (g : Grid) (full : Bool) (cache : RenderCache H) : Prop :=
  full = true ∨ cache.lastCursor ≠ some (g.cursorX, g.cursorY) ∨
    (cache.rowHashes = g.visibleRows.map R.hash ∧ cache.lastScrollRegion = some (g.scrollTop, g.scrollBottom) ∧
      T.grid.cursorX = g.cursorX ∧ T.grid.cursorY = g.cursorY)

/-- Nothing is painted when no row has changed. -/
theorem renderRows_unchanged (t : StyleTable) (y : Nat) (rows : List Row) :
    (renderRows R t false y rows (rows.map R.hash)).1 = [] := by
  induction rows generalizing y with
  | nil => rfl
  | cons row rows ih =>
    have hskip : R.skips false (R.hash row) row = true := by simp [RowHash.skips]
    rw [List.map_cons, renderRows, if_pos hskip]
    exact ih (y + 1)

theorem clearEvents_paints (full : Bool) : ∀ e ∈ clearEvents full, e.Paints := by
  cases full <;> simp [clearEvents, Event.sgrReset, Event.Paints]

theorem process_body (h : T.Matches g) (hg : g.Shape) (horigin : g.modes.originMode = false)
    (hmodes : ∀ m, cache.lastModes = some m → T.grid.modes = m) (hsoon : T.FollowsSoon R g full cache)
    (hfits : Along (step W) (EveryPrint W (PrintFits W)) T (renderBody R g title full cache).1) :
    ∃ T', T.process W (renderBody R g title full cache).1 = some T' ∧ T'.Follows g ∧
      T'.grid.cursorVisible = T.grid.cursorVisible := by
  let cache₁ := if full then cache.invalidate else cache
  let rows := renderRows R g.styleTable full 0 g.visibleRows (cache₁.hashesFor R g.visibleRowCount)
  have hpaints : ∀ e ∈ clearEvents full ++ rows.1, e.Paints := fun e he =>
    (List.mem_append.1 he).elim (clearEvents_paints full e) (renderRows_paints R _ _ _ _ _ e)
  obtain ⟨T₁, hT₁, hsteps⟩ := process_paints W hpaints h.inv hfits.append.1
  have hdisplay := steps_display hsteps
  have h₁ : T₁.Matches g := h.steps (by simp [Kind.Paints]) hsteps
  have htail : ∃ T', T₁.process W (renderModesTitleCursor g title full { cache₁ with rowHashes := rows.2 }).1 = some T' ∧
      T'.Follows g ∧ T'.grid.cursorVisible = T₁.grid.cursorVisible := by
    refine process_tail W h₁ hg horigin ?_ ?_
    · rintro rfl m hm
      exact hdisplay.1.trans (hmodes m hm)
    · rintro rfl hlast
      rcases hsoon with hfull | hmoved | ⟨hrows, hregion, hx, hy⟩
      · cases hfull
      · exact absurd hlast hmoved
      · have hhashes : cache.hashesFor R g.visibleRowCount = g.visibleRows.map R.hash := by
          rw [RenderCache.hashesFor, if_neg, hrows]
          rw [hrows, List.length_map, Viewed.visibleRowCount_eq hg]
          exact not_not.2 rfl
        have hnil : clearEvents false ++ rows.1 = [] := by
          change (renderRows R g.styleTable false 0 g.visibleRows (cache.hashesFor R g.visibleRowCount)).1 = []
          rw [hhashes, renderRows_unchanged]
        rw [hnil, process_nil] at hT₁
        obtain rfl := Option.some.inj hT₁
        exact ⟨hregion, hx, hy⟩
  obtain ⟨T', hT', hfollows, hvisible⟩ := htail
  refine ⟨T', ?_, hfollows, hvisible.trans hdisplay.2⟩
  change T.process W (clearEvents full ++ rows.1 ++ _) = _
  rw [process_append, hT₁, Option.bind_some, hT']

/-- Scrollback is painted, once the cursor is hidden. -/
theorem scrollback_paints (g : Grid) {scrollback : List (List Event)} (hlines : ∀ line ∈ scrollback, ∀ e ∈ line, e.Paints) :
    ∀ e ∈ .csi [[0]] [] 'r' :: ((chunks g.rows scrollback).map (renderChunk g.rows)).flatten, Event.Paints e := by
  intro e he
  rcases List.mem_cons.1 he with rfl | he
  · simp [Event.Paints]
  · obtain ⟨_, hmem, he⟩ := List.mem_flatten.1 he
    obtain ⟨chunk, hchunk, rfl⟩ := List.mem_map.1 hmem
    exact renderChunk_paints g.rows (fun line hl => hlines line (mem_chunks hchunk line hl)) e he

theorem process_scrollback (h : T.Matches g) {scrollback : List (List Event)}
    (hlines : ∀ line ∈ scrollback, ∀ e ∈ line, e.Paints)
    (hfits : Along (step W) (EveryPrint W (PrintFits W)) T (renderScrollback g scrollback)) :
    ∃ T', T.process W (renderScrollback g scrollback) = some T' ∧ T'.Matches g := by
  have h₁ := h.setCursorVisible false
  obtain ⟨T', hT', hsteps⟩ := process_paints W (scrollback_paints g hlines) h₁.inv (hfits.2 _ rfl)
  refine ⟨T', ?_, h₁.steps (by simp [Kind.Paints]) hsteps⟩
  rw [renderScrollback, process_cons]
  exact hT'

/-- The body of a frame between hiding the cursor and showing it. -/
theorem process_wrapped (h : T.Matches g) (hg : g.Shape) (horigin : g.modes.originMode = false)
    (hmodes : ∀ m, cache.lastModes = some m → T.grid.modes = m) (hsoon : T.FollowsSoon R g full cache)
    (hfits : Along (step W) (EveryPrint W (PrintFits W)) T ([.decSet 2026, .decReset 25] ++
      (renderBody R g title full cache).1 ++ (if g.cursorVisible then [.decSet 25] else []) ++ [.decReset 2026])) :
    ∃ T', T.process W ([.decSet 2026, .decReset 25] ++ (renderBody R g title full cache).1 ++
        (if g.cursorVisible then [.decSet 25] else []) ++ [.decReset 2026]) = some T' ∧ T'.Follows g ∧
      T'.grid.cursorVisible = g.cursorVisible := by
  have h₁ := h.setCursorVisible false
  have hT₁ : T.process W [.decSet 2026, .decReset 25] = some (T.onGrid (·.setCursorVisible false)) := rfl
  obtain ⟨T₂, hT₂, h₂, hvisible₂⟩ := process_body W h₁ hg horigin hmodes hsoon (hfits.append.1.append.1.append.2 _ hT₁)
  have hT₃ : ∃ T₃, T₂.process W ((if g.cursorVisible then [.decSet 25] else []) ++ [.decReset 2026]) = some T₃ ∧
      T₃.Follows g ∧ T₃.grid.cursorVisible = g.cursorVisible := by
    cases hvis : g.cursorVisible with
    | true => exact ⟨T₂.onGrid (·.setCursorVisible true), rfl, ⟨h₂.toMatches.setCursorVisible true, h₂.cursorX, h₂.cursorY,
        h₂.modes⟩, rfl⟩
    | false => exact ⟨T₂, rfl, h₂, hvisible₂⟩
  obtain ⟨T₃, hT₃, h₃⟩ := hT₃
  refine ⟨T₃, ?_, h₃⟩
  rw [List.append_assoc, process_append, process_append, hT₁, Option.bind_some, hT₂, Option.bind_some, hT₃]

/-- A frame brings the cursor of the terminal to that of the grid. -/
theorem process_frame (h : T.Matches g) (hg : g.Shape) (horigin : g.modes.originMode = false)
    (hmodes : ∀ m, cache.lastModes = some m → T.grid.modes = m)
    (hvisible : ∀ b, cache.lastCursorVisible = some b → T.grid.cursorVisible = b) {scrollback : List (List Event)}
    (hlines : ∀ line ∈ scrollback, ∀ e ∈ line, e.Paints)
    (hsoon : T.FollowsSoon R g (full || decide (scrollback ≠ [])) cache)
    (hfits : Along (step W) (EveryPrint W (PrintFits W)) T (renderScreenImpl R g title scrollback full cache).1) :
    ∃ T', T.process W (renderScreenImpl R g title scrollback full cache).1 = some T' ∧ T'.Follows g ∧
      T'.grid.cursorVisible = g.cursorVisible := by
  unfold renderScreenImpl at hfits ⊢
  by_cases hsb : scrollback = []
  · subst hsb
    simp only [ne_eq, not_true_eq_false, decide_false, Bool.or_false, if_false, List.nil_append] at hfits hsoon ⊢
    by_cases hempty : (renderBody R g title full cache).1 = [] ∧
        (renderBody R g title full cache).2.lastCursorVisible = some g.cursorVisible
    · rw [if_pos hempty]
      obtain ⟨T', hT', hfollows, -⟩ : ∃ T', T.process W (renderBody R g title full cache).1 = some T' ∧ T'.Follows g ∧
          T'.grid.cursorVisible = T.grid.cursorVisible :=
        process_body W h hg horigin hmodes hsoon (hempty.1 ▸ trivial)
      rw [hempty.1] at hT'
      obtain rfl := Option.some.inj hT'
      refine ⟨T, rfl, hfollows, ?_⟩
      cases full with
      | true => exact absurd hempty.1 (by simp [renderBody, clearEvents])
      | false => exact hvisible _ hempty.2
    · rw [if_neg hempty] at hfits ⊢
      exact process_wrapped W h hg horigin hmodes hsoon hfits
  · have hbody : (renderBody R g title true cache.invalidate).1 ≠ [] := by simp [renderBody, clearEvents]
    simp only [ne_eq, hsb, not_false_eq_true, decide_true, Bool.or_true, if_true] at hfits ⊢
    rw [if_neg fun hempty => hbody hempty.1] at hfits ⊢
    simp only [List.append_assoc] at hfits ⊢
    obtain ⟨T₁, hT₁, h₁⟩ := process_scrollback W h hlines hfits.append.1
    have hfits₁ := hfits.append.2 T₁ hT₁
    rw [process_append, hT₁, Option.bind_some]
    rw [← List.append_assoc, ← List.append_assoc] at hfits₁ ⊢
    exact process_wrapped W h₁ hg horigin (by simp [RenderCache.invalidate]) (.inl rfl) hfits₁

end Frames

end Screen

/-! ## Runs -/

/-- A screen, the cache of its client, and the client's terminal. -/
structure Mirror (H : Type) where
  screen : Screen
  cache : RenderCache H := {}
  terminal : Screen

/-- No resize, and scrollback lines as they are rendered. -/
def Viewing.Rendered : Viewing → Prop
  | .act (.resize _ _) => False
  | .act _ => True
  | .frame scrollback _ => ∀ line ∈ scrollback, ∃ row t, line = renderLine row t

namespace Mirror

variable {H : Type} [DecidableEq H] (W : UnicodeWidth) (R : RowHash H)

/-- The events of a frame. -/
def frameEvents (m : Mirror H) (scrollback : List (List Event)) (full : Bool) : List Event :=
  (renderScreenImpl R m.screen.grid m.screen.state.title scrollback full m.cache).1

def view (m : Mirror H) : Viewing → Option (Mirror H)
  | .act a => (m.screen.act W a).map fun s => { m with screen := s }
  | .frame scrollback full => do
    let terminal ← m.terminal.process W (m.frameEvents R scrollback full)
    return { m with
      cache := (renderScreenImpl R m.screen.grid m.screen.state.title scrollback full m.cache).2
      terminal }

def run (m : Mirror H) (as : List Viewing) : Option (Mirror H) := as.foldlM (view W R) m

/-- Origin mode is off when a frame is made. -/
def OriginOff (m : Mirror H) : Viewing → Prop
  | .act _ => True
  | .frame _ _ => m.screen.grid.modes.originMode = false

/-- A frame that finds the screen's cursor where it left it paints no row and
sets no scroll region, unless it is a full one. -/
def Still (m : Mirror H) : Viewing → Prop
  | .act _ => True
  | .frame scrollback full => full = true ∨ scrollback ≠ [] ∨
    m.cache.lastCursor ≠ some (m.screen.grid.cursorX, m.screen.grid.cursorY) ∨
    (m.cache.rowHashes = m.screen.grid.visibleRows.map R.hash ∧
      m.cache.lastScrollRegion = some (m.screen.grid.scrollTop, m.screen.grid.scrollBottom))

/-- The characters of a frame fit on the terminal. -/
def FrameFits (m : Mirror H) : Viewing → Prop
  | .act _ => True
  | .frame scrollback full =>
    Along (Screen.step W) (Screen.EveryPrint W (Screen.PrintFits W)) m.terminal (m.frameEvents R scrollback full)

/-- What is asked of a step. -/
structure Asks (m : Mirror H) (a : Viewing) : Prop where
  origin : m.OriginOff a
  still : m.Still R a
  fits : m.FrameFits W R a

/-- The terminal shows what the cache says it was sent. -/
structure Inv (m : Mirror H) : Prop where
  screen : m.screen.Inv
  terminal : m.terminal.Matches m.screen.grid
  cursor : ∀ c, m.cache.lastCursor = some c → (m.terminal.grid.cursorX, m.terminal.grid.cursorY) = c
  visible : ∀ b, m.cache.lastCursorVisible = some b → m.terminal.grid.cursorVisible = b
  modes : ∀ n, m.cache.lastModes = some n → m.terminal.grid.modes = n

variable {W R} {m m' : Mirror H}

/-- A frame succeeds, and the terminal's cursor is the screen's. -/
theorem Inv.frame (hm : m.Inv) {scrollback : List (List Event)} {full : Bool}
    (hlines : Viewing.Rendered (.frame scrollback full)) (hasks : m.Asks W R (.frame scrollback full)) :
    ∃ m', m.view W R (.frame scrollback full) = some m' ∧ m'.Inv ∧
      m'.terminal.grid.cursorX = m'.screen.grid.cursorX ∧ m'.terminal.grid.cursorY = m'.screen.grid.cursorY ∧
      m'.terminal.grid.cursorVisible = m'.screen.grid.cursorVisible := by
  have hsoon : m.terminal.FollowsSoon R m.screen.grid (full || decide (scrollback ≠ [])) m.cache := by
    rcases hasks.still with rfl | hsb | hmoved | ⟨hrows, hregion⟩
    · exact .inl rfl
    · exact .inl (by simp [hsb])
    · exact .inr (.inl hmoved)
    · by_cases hlast : m.cache.lastCursor = some (m.screen.grid.cursorX, m.screen.grid.cursorY)
      · have hcursor := hm.cursor _ hlast
        exact .inr (.inr ⟨hrows, hregion, congrArg Prod.fst hcursor, congrArg Prod.snd hcursor⟩)
      · exact .inr (.inl hlast)
  have hpaints : ∀ line ∈ scrollback, ∀ e ∈ line, e.Paints := fun line hl => by
    obtain ⟨row, t, rfl⟩ := hlines line hl
    exact renderLine_paints row t
  obtain ⟨T', hT', hfollows, hvisible⟩ := Screen.process_frame W hm.terminal hm.screen.shape hasks.origin hm.modes hm.visible
    hpaints hsoon hasks.fits
  refine ⟨_, congrArg (Option.bind · _) hT', ⟨hm.screen, hfollows.toMatches, ?_, ?_, ?_⟩, hfollows.cursorX, hfollows.cursorY,
    hvisible⟩
  all_goals
    intro x hx
    dsimp only at hx
    rw [renderScreenImpl_cache] at hx
    obtain rfl := Option.some.inj hx
  · exact Prod.ext hfollows.cursorX hfollows.cursorY
  · exact hvisible
  · exact hfollows.modes

/-- What happens to the screen between frames leaves the terminal alone. -/
theorem Inv.act (hm : m.Inv) {a : Action} (ha : Viewing.Rendered (.act a)) (hview : m.view W R (.act a) = some m') :
    m'.Inv := by
  obtain ⟨s', hact, rfl⟩ := Option.map_eq_some_iff.1 hview
  have hdims : s'.Inv ∧ s'.grid.cols = m.screen.grid.cols ∧ s'.grid.rows = m.screen.grid.rows := by
    cases a with
    | callback e =>
      have hsteps := Screen.step_steps W hm.screen hact
      exact ⟨steps_inv hsteps hm.screen, steps_dims (by simp) hsteps⟩
    | resize => exact ha.elim
    | takeScrollback => exact ⟨Screen.act_inv W hm.screen (a := .takeScrollback) trivial hact, by
        obtain rfl := Option.some.inj hact
        exact ⟨rfl, rfl⟩⟩
  exact { hm with
    screen := hdims.1
    terminal := ⟨hm.terminal.inv, hm.terminal.cols.trans hdims.2.1.symm, hm.terminal.rows.trans hdims.2.2.symm⟩ }

theorem run_inv {cols rows : Nat} (limit limit' : Nat) (hcols : cols ≤ 65535) (hrows : rows ≤ 65535) {as : List Viewing}
    (hrendered : ∀ a ∈ as, a.Rendered)
    (hrun : run W R { screen := .new cols rows limit, terminal := .new cols rows limit' } as = some m)
    (hasks : Along (view W R) (Asks W R) { screen := .new cols rows limit, terminal := .new cols rows limit' } as) :
    m.Inv := by
  have hstart : Inv ({ screen := .new cols rows limit, terminal := .new cols rows limit' } : Mirror H) :=
    { screen := Screen.new_inv limit hcols hrows
      terminal := ⟨Screen.new_inv limit' hcols hrows, rfl, rfl⟩
      cursor := by simp
      visible := by simp
      modes := by simp }
  refine ((Along.of_forall hrendered _).and hasks).keeps ?_ hstart hrun
  rintro m (a | ⟨scrollback, full⟩) m' hm ⟨hr, ha⟩ hview
  · exact hm.act hr hview
  · obtain ⟨m₁, hm₁, hinv, -⟩ := hm.frame hr ha
    obtain rfl := Option.some.inj (hm₁.symm.trans hview)
    exact hinv

/-- In a run whose frames send the cursor or move nothing, the terminal's
cursor is the screen's after every frame. -/
theorem run_follows {cols rows : Nat} (limit limit' : Nat) (hcols : cols ≤ 65535) (hrows : rows ≤ 65535)
    {as : List Viewing} (hrendered : ∀ a ∈ as, a.Rendered)
    (hrun : run W R { screen := .new cols rows limit, terminal := .new cols rows limit' } as = some m)
    (hasks : Along (view W R) (Asks W R) { screen := .new cols rows limit, terminal := .new cols rows limit' } as)
    {scrollback : List (List Event)} {full : Bool} (hlines : Viewing.Rendered (.frame scrollback full))
    (hlast : m.Asks W R (.frame scrollback full)) :
    ∃ m', m.view W R (.frame scrollback full) = some m' ∧
      m'.terminal.grid.cursorX = m'.screen.grid.cursorX ∧ m'.terminal.grid.cursorY = m'.screen.grid.cursorY ∧
      m'.terminal.grid.cursorVisible = m'.screen.grid.cursorVisible := by
  obtain ⟨m', hm', -, hcursor⟩ := (run_inv limit limit' hcols hrows hrendered hrun hasks).frame hlines hlast
  exact ⟨m', hm', hcursor⟩

/-- On at most 65533 columns every frame fits. -/
theorem Inv.fits (hm : m.Inv) (hcols : m.screen.grid.cols ≤ 65533) (a : Viewing) : m.FrameFits W R a := by
  cases a with
  | act => trivial
  | frame => exact Screen.along_narrow W hm.terminal.inv (hm.terminal.cols ▸ hcols) _

theorem run_follows_sample : ∃ m m', run .sample Viewed.rowHash { screen := .new 4 2 10, terminal := .new 4 2 10 }
      [.act (.callback (.print 'a')), .frame [] true, .act (.callback (.print 'b'))] = some m ∧
    m.view .sample Viewed.rowHash (.frame [] false) = some m' ∧
      m'.terminal.grid.cursorX = m'.screen.grid.cursorX ∧ m'.terminal.grid.cursorY = m'.screen.grid.cursorY ∧
      m'.terminal.grid.cursorVisible = m'.screen.grid.cursorVisible := by
  have hasks : Along (view .sample Viewed.rowHash) (Asks .sample Viewed.rowHash)
      { screen := .new 4 2 10, terminal := .new 4 2 10 }
      [.act (.callback (.print 'a')), .frame [] true, .act (.callback (.print 'b'))] :=
    .cons ⟨trivial, trivial, trivial⟩ rfl (.cons
      ⟨rfl, .inl rfl, Screen.along_narrow .sample (Screen.new_inv 10 (by decide) (by decide)) (by decide) _⟩ rfl
      (.cons ⟨trivial, trivial, trivial⟩ rfl trivial))
  have hrendered : ∀ a ∈ [Viewing.act (.callback (.print 'a')), .frame [] true, .act (.callback (.print 'b'))],
      a.Rendered := by
    simp [Viewing.Rendered]
  have hlast : ∀ m, run .sample Viewed.rowHash { screen := .new 4 2 10, terminal := .new 4 2 10 }
      [.act (.callback (.print 'a')), .frame [] true, .act (.callback (.print 'b'))] = some m →
      m.Asks .sample Viewed.rowHash (.frame [] false) := by
    rintro m hrun
    have hinv := run_inv 10 10 (by decide) (by decide) hrendered hrun hasks
    obtain rfl := Option.some.inj hrun
    exact ⟨rfl, .inr (.inr (.inl (by decide))), hinv.fits (by decide) _⟩
  obtain ⟨m', hm', hcursor⟩ := run_follows 10 10 (by decide) (by decide) hrendered rfl hasks
    (show Viewing.Rendered (.frame [] false) by simp [Viewing.Rendered]) (hlast _ rfl)
  exact ⟨_, m', rfl, hm', hcursor⟩

/-- Text painted on the row of a cursor that has come back to its place leaves
the terminal's cursor behind the text. -/
theorem cursor_stays : ∃ m m', run .sample Viewed.rowHash { screen := .new 4 1 10, terminal := .new 4 1 10 }
      [.act (.callback (.print 'a')), .act (.callback (.execute 0x0d)), .frame [] true, .act (.callback (.print 'Z')),
        .act (.callback (.execute 0x0d))] = some m ∧
    m.view .sample Viewed.rowHash (.frame [] false) = some m' ∧
      m'.terminal.grid.cursorX ≠ m'.screen.grid.cursorX :=
  ⟨_, _, rfl, rfl, by decide⟩

end Mirror

end Retach
