import Retach.Canvas
/-!
# What the client sees

A screen, the cache of its client, and the client's terminal. The terminal is
sent nothing but frames: full ones, incremental ones that leave out the rows
with a known hash, and ones with scrollback before them. After each of them it
shows the screen, if the frame can be read back at all: no row painted on an old
one runs to the last column or leaves some of it, and no slot that the cache
relies on is freed.
-/

open Checked Runs

namespace Retach

/-- A screen with its client's cache, and the terminal that the frames go to. -/
structure Display (H : Type) extends Viewed H where
  terminal : Screen

namespace Display

variable {H : Type} [DecidableEq H] (W : UnicodeWidth) (R : RowHash H)

def view (d : Display H) : Viewing → Option (Display H)
  | .act a => (d.screen.act W a).map fun s => { d with screen := s }
  | .frame scrollback full => do
    let terminal ← d.terminal.process W (renderScreenImpl R d.screen.grid d.screen.state.title scrollback full d.cache).1
    return { toViewed := d.toViewed.frame R scrollback full, terminal }

def run (d : Display H) (as : List Viewing) : Option (Display H) := as.foldlM (view W R) d

/-- A fresh screen and a fresh terminal of its size. -/
def start (cols rows limit limit' : Nat) : Display H := { screen := .new cols rows limit, terminal := .new cols rows limit' }

/-- A frame in styles of the palette, of a screen in direct modes. -/
structure Frameable (P : Finset Style) (d : Display H) (scrollback : List (List Event)) : Prop where
  direct : d.screen.grid.modes.Direct
  wellFormed : ∀ row ∈ d.screen.grid.visibleRows, row.WellFormed W
  broad : ∀ row ∈ d.screen.grid.visibleRows, BroadLast row.cells
  styles : d.screen.grid.palette ⊆ P
  lines : ∃ lines : List Line, scrollback = lines.map Line.events ∧ ∀ l ∈ lines, l.Sendable W P d.screen.grid.cols

/-- Of the rows painted over old ones nothing is erased again, and of the old
ones nothing is left beside broad characters. -/
def Clean (d : Display H) (scrollback : List (List Event)) (full : Bool) : Prop :=
  full = false → scrollback = [] → Screen.Repainted R d.screen.grid d.cache fun y row =>
    row.EndsBlank d.screen.grid.styleTable ∧ ∀ old ∈ d.terminal.viewRow y, Covers row.cells old

/-- What is asked of a step. -/
def Asks (P : Finset Style) (d : Display H) : Viewing → Prop
  | .act (.resize _ _) => False
  | .act a => d.toViewed.Spares W (.act a)
  | .frame scrollback full => d.Frameable W P scrollback ∧ d.Clean R scrollback full

/-- The next frame finds the terminal as it takes it to be, but for what is on
it. -/
structure Ready (P : Finset Style) (d : Display H) : Prop where
  viewed : d.toViewed.Inv R
  canvas : d.terminal.Canvas P d.screen.grid.cols d.screen.grid.rows
  modes : ∀ m, d.cache.lastModes = some m → d.terminal.grid.modes = m

/-- The terminal shows each row as it was sent. -/
def Shows (d : Display H) : Prop :=
  ∀ y < d.screen.grid.rows, ∀ p, d.sent y = some p → d.terminal.viewRow y = some (p.row.looks p.table)

structure Inv (P : Finset Style) (d : Display H) : Prop extends d.Ready R P where
  shows : d.Shows

variable {W R} {P : Finset Style} {d d' : Display H}

omit [DecidableEq H] in
theorem Frameable.showable {scrollback : List (List Event)} (h : d.Frameable W P scrollback) (hd : d.Ready R P) :
    d.screen.grid.Showable W P :=
  ⟨hd.viewed.screen.shape, hd.viewed.screen.table, h.wellFormed, h.broad, h.styles⟩

/-- The modes that a frame leaves in the cache. -/
theorem frame_modes (d : Display H) (scrollback : List (List Event)) (full : Bool) :
    (d.toViewed.frame R scrollback full).cache.lastModes = some d.screen.grid.modes := by
  change (renderScreenImpl R d.screen.grid d.screen.state.title scrollback full d.cache).2.lastModes = _
  rw [renderScreenImpl_cache]
  rfl

/-- What was sent last for a row of the screen, after a frame. -/
theorem sent_frame (hd : d.Ready R P) (scrollback : List (List Event)) (full : Bool) {y : Nat} (hy : y < d.screen.grid.rows) :
    ∃ row h, d.screen.grid.visibleRows[y]? = some row ∧
      (d.toViewed.compared R (full || decide (scrollback ≠ [])))[y]? = some h ∧
      (d.toViewed.frame R scrollback full).sent y = if R.skips (full || decide (scrollback ≠ [])) h row then d.sent y
        else some ⟨row, d.screen.grid.styleTable⟩ := by
  have hshape := hd.viewed.screen.shape
  have hrow := List.getElem?_eq_getElem (hshape.visible_length.symm ▸ hy)
  have hhash : y < (d.toViewed.compared R (full || decide (scrollback ≠ []))).length := by
    rw [Viewed.compared, Viewed.hashesFor_length, Viewed.visibleRowCount_eq hshape, hshape.visible_length]
    exact hy
  refine ⟨_, _, hrow, List.getElem?_eq_getElem hhash, ?_⟩
  change d.toViewed.paint R _ _ y = _
  rw [Viewed.paint, hrow, List.getElem?_eq_getElem hhash]

/-- The view of a grid, row by row. -/
theorem view_eq_of_rows {T : Screen} {g : Grid} (hg : g.Shape) (hT : T.Canvas P g.cols g.rows)
    (h : ∀ (y : Nat) row, g.visibleRows[y]? = some row → T.viewRow y = some (row.looks g.styleTable)) : T.grid.view = g.view := by
  apply List.ext_getElem?
  intro y
  rw [Screen.view_getElem?, Grid.view, List.getElem?_map]
  cases hrow : g.visibleRows[y]? with
  | none =>
    rw [List.getElem?_eq_none_iff, hg.visible_length, ← hT.rows_eq, ← hT.inv.shape.visible_length,
      ← List.getElem?_eq_none_iff] at hrow
    rw [Screen.viewRow, hrow]
    rfl
  | some row => rw [h y row hrow, Option.map_some, Row.looks]

theorem viewRow_of_view {T : Screen} {g : Grid} (h : T.grid.view = g.view) {y : Nat} {row : Row}
    (hrow : g.visibleRows[y]? = some row) : T.viewRow y = some (row.looks g.styleTable) := by
  rw [← Screen.view_getElem?, h, Grid.view, List.getElem?_map, hrow, Option.map_some, Row.looks]

/-! ## One frame -/

/-- Scrollback makes a frame full. -/
theorem renderScreenImpl_of_scrollback (g : Grid) (title : List UInt8) {scrollback : List (List Event)} (h : scrollback ≠ [])
    (full : Bool) (cache : RenderCache H) :
    renderScreenImpl R g title scrollback full cache = renderScreenImpl R g title scrollback true cache := by
  simp only [renderScreenImpl, h, ne_eq, not_false_eq_true, decide_true, Bool.or_true]

/-- After a full frame, and after one with scrollback. -/
theorem Ready.full (hd : d.Ready R P) (hinj : Function.Injective R.hash) (hunset : ∀ row, R.hash row ≠ R.unset)
    {scrollback : List (List Event)} {full : Bool} (hfull : full = true ∨ scrollback ≠ [])
    (hasks : d.Frameable W P scrollback) :
    ∃ d', d.view W R (.frame scrollback full) = some d' ∧ d'.Inv R P ∧ d'.terminal.grid.view = d'.screen.grid.view := by
  obtain ⟨lines, rfl, hlines⟩ := hasks.lines
  have hsame : renderScreenImpl R d.screen.grid d.screen.state.title (lines.map Line.events) full d.cache =
      renderScreenImpl R d.screen.grid d.screen.state.title (lines.map Line.events) true d.cache := by
    rcases hfull with rfl | hsb
    · rfl
    · exact renderScreenImpl_of_scrollback _ _ hsb _ _
  have hall : (full || decide (lines.map Line.events ≠ [])) = true := by
    rcases hfull with rfl | hsb
    · rfl
    · rw [decide_eq_true hsb, Bool.or_true]
  obtain ⟨T', hrun, hT', hmodes, hview⟩ := hd.canvas.fullFrame R d.screen.state.title (hasks.showable hd)
    hasks.direct hlines
  rw [← hsame] at hrun
  refine ⟨⟨d.toViewed.frame R (lines.map Line.events) full, T'⟩, congrArg (Option.bind · _) hrun, ?_, hview⟩
  refine ⟨⟨hd.viewed.frame hinj hunset _ _, hT', fun m hm => ?_⟩, fun y hy p hp => ?_⟩
  · rw [frame_modes, Option.some.injEq] at hm
    exact hmodes.trans hm
  · obtain ⟨row, h, hrow, -, hsent⟩ := sent_frame hd (lines.map Line.events) full hy
    have hskip : R.skips (full || decide (lines.map Line.events ≠ [])) h row = false := by
      rw [hall]
      simp [RowHash.skips]
    rw [hskip, if_neg Bool.false_ne_true] at hsent
    obtain rfl := Option.some.inj (hsent.symm.trans hp)
    exact viewRow_of_view hview hrow

/-- After an incremental frame. Where the terminal showed what it was sent, it
shows the screen exactly if the frame erases nothing that it has painted. -/
theorem Ready.incremental (hd : d.Ready R P) (hinj : Function.Injective R.hash) (hunset : ∀ row, R.hash row ≠ R.unset)
    (hasks : d.Frameable W P []) :
    ∃ d', d.view W R (.frame [] false) = some d' ∧ d'.Ready R P ∧ (d.Shows → (d.Clean R [] false → d'.Shows) ∧
      (d'.terminal.grid.view = d'.screen.grid.view ↔ d.Clean R [] false)) := by
  obtain ⟨T', hrun, hT', hmodes, hupd⟩ := hd.canvas.frame R d.screen.state.title (hasks.showable hd)
    hasks.direct hd.modes
  have hg := hd.viewed.screen.shape
  refine ⟨⟨d.toViewed.frame R [] false, T'⟩, congrArg (Option.bind · _) hrun, ⟨hd.viewed.frame hinj hunset _ _, hT', fun m hm => ?_⟩,
    fun hshows => ?_⟩
  · rw [frame_modes, Option.some.injEq] at hm
    exact hmodes.trans hm
  have hskipped {y : Nat} {row : Row} {h : H} (hrow : d.screen.grid.visibleRows[y]? = some row)
      (hh : (d.toViewed.compared R false)[y]? = some h) (hskip : R.skips false h row = true) :
      T'.viewRow y = some (row.looks d.screen.grid.styleTable) := by
    have hsame := hupd y row h hrow hh
    have hy := (hg.hasRow_of_getElem? hrow).1
    rw [Screen.Updates, if_pos hskip] at hsame
    obtain ⟨p, hp, hshown⟩ := hd.viewed.skipsSound hinj hunset y row h hrow hh hskip
    rw [hsame, hshows y hy p hp]
    exact congrArg (fun q => some q.1) hshown
  have hpainted {y : Nat} {row : Row} {h : H} (hrow : d.screen.grid.visibleRows[y]? = some row)
      (hh : (d.toViewed.compared R false)[y]? = some h) (hskip : R.skips false h row = false) :
      T'.viewRow y = some (row.looks d.screen.grid.styleTable) ↔
        row.EndsBlank d.screen.grid.styleTable ∧ ∀ old ∈ d.terminal.viewRow y, Covers row.cells old := by
    have hpaint := hupd y row h hrow hh
    rwa [Screen.Updates, if_neg (by rw [hskip]; exact Bool.false_ne_true)] at hpaint
  refine ⟨fun hclean y hy p hp => ?_, fun hview => ?_, fun hclean => ?_⟩
  · obtain ⟨row, h, hrow, hh, hsent⟩ := sent_frame hd [] false hy
    change _ = if R.skips false h row then _ else _ at hsent
    cases hskip : R.skips false h row with
    | true =>
      have hsame := hupd y row h hrow hh
      rw [Screen.Updates, if_pos hskip] at hsame
      rw [if_pos hskip] at hsent
      exact hsame.trans (hshows y hy p (hsent.symm.trans hp))
    | false =>
      rw [if_neg (by simp [hskip])] at hsent
      obtain rfl := Option.some.inj (hsent.symm.trans hp)
      exact (hpainted hrow hh hskip).2 (hclean rfl rfl y row h hrow hh hskip)
  · intro _ _ y row h hrow hh hskip
    exact (hpainted hrow hh hskip).1 (viewRow_of_view hview hrow)
  · refine view_eq_of_rows hg hT' fun y row hrow => ?_
    have hy : y < (d.toViewed.compared R false).length := by
      rw [Viewed.compared, Viewed.hashesFor_length, Viewed.visibleRowCount_eq hg]
      exact (List.getElem?_eq_some_iff.1 hrow).1
    have hh := List.getElem?_eq_getElem hy
    cases hskip : R.skips false (d.toViewed.compared R false)[y] row with
    | true => exact hskipped hrow hh hskip
    | false => exact (hpainted hrow hh hskip).2 (hclean rfl rfl y row _ hrow hh hskip)

/-! ## Runs -/

theorem Ready.act (hd : d.Ready R P) {a : Action} (ha : d.Asks W R P (.act a)) (hview : d.view W R (.act a) = some d') :
    d'.Ready R P ∧ (d.Shows → d'.Shows) := by
  obtain ⟨s', hact, rfl⟩ := Option.map_eq_some_iff.1 hview
  have hspares : d.toViewed.Spares W (.act a) := by
    cases a with
    | resize => exact ha.elim
    | _ => exact ha
  have hsized : a.Sized := by
    cases a with
    | resize => exact ha.elim
    | _ => trivial
  have hdims : s'.grid.cols = d.screen.grid.cols ∧ s'.grid.rows = d.screen.grid.rows := by
    cases a with
    | callback e => exact steps_dims (by simp) (Screen.step_steps W hd.viewed.screen hact)
    | resize => exact ha.elim
    | takeScrollback =>
      obtain rfl := Option.some.inj hact
      exact ⟨rfl, rfl⟩
  refine ⟨⟨hd.viewed.act hsized hspares hact, ?_, hd.modes⟩, fun hshows y hy => hshows y (hdims.2 ▸ hy)⟩
  change d.terminal.Canvas P s'.grid.cols s'.grid.rows
  rw [hdims.1, hdims.2]
  exact hd.canvas

/-- A fresh terminal. -/
theorem new_canvas {cols rows : Nat} (limit : Nat) (hcols : cols ≤ 65535) (hrows : rows ≤ 65535) (hP : (P.erase {}).card ≤ 65535) :
    (Screen.new cols rows limit).Canvas P (Screen.new cols rows limit).grid.cols (Screen.new cols rows limit).grid.rows where
  inv := Screen.new_inv limit hcols hrows
  fits := Screen.new_fits cols rows limit hP
  style := rfl
  paired := Screen.new_visible_paired cols rows limit
  direct := TerminalModes.direct_default
  cols_eq := rfl
  rows_eq := rfl

omit [DecidableEq H] in
theorem start_inv {cols rows : Nat} (limit limit' : Nat) (hcols : cols ≤ 65535) (hrows : rows ≤ 65535)
    (hP : (P.erase {}).card ≤ 65535) : (start cols rows limit limit' : Display H).Inv R P where
  viewed := ⟨Screen.new_inv limit hcols hrows, by simp [start]⟩
  canvas := new_canvas limit' hcols hrows hP
  modes := by simp [start]
  shows := fun _ _ _ hp => by cases hp

theorem run_inv (hinj : Function.Injective R.hash) (hunset : ∀ row, R.hash row ≠ R.unset) {cols rows : Nat}
    (limit limit' : Nat) (hcols : cols ≤ 65535) (hrows : rows ≤ 65535) (hP : (P.erase {}).card ≤ 65535) {as : List Viewing}
    (hrun : run W R (start cols rows limit limit') as = some d)
    (hasks : Along (view W R) (Asks W R P) (start cols rows limit limit') as) : d.Inv R P := by
  refine hasks.keeps ?_ (start_inv limit limit' hcols hrows hP) hrun
  rintro d (a | ⟨scrollback, full⟩) d' hd ha hview
  · obtain ⟨hready, hshows⟩ := hd.act ha hview
    exact ⟨hready, hshows hd.shows⟩
  · by_cases hfull : full = true ∨ scrollback ≠ []
    · obtain ⟨d₁, hd₁, hinv, -⟩ := hd.full hinj hunset hfull ha.1
      obtain rfl := Option.some.inj (hd₁.symm.trans hview)
      exact hinv
    · rw [not_or, Bool.not_eq_true, not_not] at hfull
      obtain ⟨rfl, rfl⟩ := hfull
      obtain ⟨d₁, hd₁, hready, hshows⟩ := hd.incremental hinj hunset ha.1
      obtain rfl := Option.some.inj (hd₁.symm.trans hview)
      exact ⟨hready, (hshows hd.shows).1 ha.2⟩

/-- In a run whose frames erase nothing that they paint, the next frame makes
the terminal show the screen, exactly if it erases nothing either. -/
theorem run_mirrors (hinj : Function.Injective R.hash) (hunset : ∀ row, R.hash row ≠ R.unset) {cols rows : Nat}
    (limit limit' : Nat) (hcols : cols ≤ 65535) (hrows : rows ≤ 65535) (hP : (P.erase {}).card ≤ 65535) {as : List Viewing}
    (hrun : run W R (start cols rows limit limit') as = some d)
    (hasks : Along (view W R) (Asks W R P) (start cols rows limit limit') as) {scrollback : List (List Event)} {full : Bool}
    (hframe : d.Frameable W P scrollback) :
    ∃ d', d.view W R (.frame scrollback full) = some d' ∧
      (d'.terminal.grid.view = d'.screen.grid.view ↔ d.Clean R scrollback full) := by
  have hd := run_inv hinj hunset limit limit' hcols hrows hP hrun hasks
  by_cases hfull : full = true ∨ scrollback ≠ []
  · obtain ⟨d', hd', -, hview⟩ := hd.full hinj hunset hfull hframe
    refine ⟨d', hd', fun _ => ?_, fun _ => hview⟩
    rintro rfl rfl
    simp at hfull
  · rw [not_or, Bool.not_eq_true, not_not] at hfull
    obtain ⟨rfl, rfl⟩ := hfull
    obtain ⟨d', hd', -, hshows⟩ := hd.incremental hinj hunset hframe
    exact ⟨d', hd', (hshows hd.shows).2⟩

/-- Plain text in the default style. -/
theorem frameable_plain {d : Display (Option Row)} (hplain : ∀ row ∈ d.screen.grid.visibleRows, Screen.Plain row)
    (hstyles : d.screen.grid.palette ⊆ {({} : Style)}) (hdirect : d.screen.grid.modes.Direct) :
    d.Frameable .sample {({} : Style)} [] where
  direct := hdirect
  wellFormed := Screen.Plain.wellFormed hplain
  broad := Screen.Plain.broadLast hplain
  styles := hstyles
  lines := ⟨[], rfl, fun _ hl => absurd hl List.not_mem_nil⟩

theorem clean_of_plain {scrollback : List (List Event)} {full : Bool} (hplain : ∀ row ∈ d.screen.grid.visibleRows, Screen.Plain row)
    (h : ∀ row ∈ d.screen.grid.visibleRows, row.EndsBlank d.screen.grid.styleTable) : d.Clean R scrollback full :=
  fun _ _ _ row _ hrow _ _ => ⟨h row (List.mem_of_getElem? hrow), fun old _ => covers_of_narrow (fun c hc => by
    have := ((hplain row (List.mem_of_getElem? hrow)).1 c hc).2
    omega) old⟩

/-- A print that frees no slot. -/
theorem asks_print {d : Display (Option Row)} {c : Char} {s' : Screen} (hact : d.screen.act .sample (.callback (.print c)) = some s')
    (hfree : d.screen.grid.styleTable.freedSince s'.grid.styleTable = []) :
    d.Asks .sample Viewed.rowHash {({} : Style)} (.act (.callback (.print c))) :=
  Viewed.spares_act hact fun _ hid => by
    rw [hfree] at hid
    cases hid

/-- A full frame, and text painted over it. -/
theorem run_mirrors_sample : ∃ d d', run .sample Viewed.rowHash (start 4 2 10 10)
      [.frame [] true, .act (.callback (.print 'b'))] = some d ∧
    d.view .sample Viewed.rowHash (.frame [] false) = some d' ∧ d'.terminal.grid.view = d'.screen.grid.view := by
  have hasks : Along (view .sample Viewed.rowHash) (Asks .sample Viewed.rowHash {({} : Style)}) (start 4 2 10 10)
      [.frame [] true, .act (.callback (.print 'b'))] :=
    .cons ⟨frameable_plain (by decide) (by decide) ⟨rfl, rfl⟩, fun h => by cases h⟩ rfl
      (.cons (asks_print rfl rfl) rfl trivial)
  obtain ⟨d, hrun, hplain, hstyles, hdirect, hblank⟩ : ∃ d, run .sample Viewed.rowHash (start 4 2 10 10)
      [.frame [] true, .act (.callback (.print 'b'))] = some d ∧ (∀ row ∈ d.screen.grid.visibleRows, Screen.Plain row) ∧
      d.screen.grid.palette ⊆ {({} : Style)} ∧ d.screen.grid.modes.Direct ∧
      ∀ row ∈ d.screen.grid.visibleRows, row.EndsBlank d.screen.grid.styleTable :=
    ⟨_, rfl, by decide, by decide, ⟨rfl, rfl⟩, by decide⟩
  obtain ⟨d', hd', hiff⟩ := run_mirrors (fun _ _ h => Option.some.inj h) (fun _ h => by cases h) 10 10 (by decide) (by decide)
    (by decide) hrun hasks (frameable_plain hplain hstyles hdirect)
  exact ⟨d, d', hrun, hd', hiff.2 (clean_of_plain hplain hblank)⟩

end Display

end Retach
