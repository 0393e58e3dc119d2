import Retach.Lib.Runs
import Retach.GridOps
import Retach.Performer
import Retach.Interning
/-!
# What the callbacks can do to a screen

Every callback, resize and delivery of scrollback is a sequence of `Effect`s:
explicit updates of the screen, each with what is known when it happens. The
handlers are taken apart once (`Handlers`); a property of all runs is then one
case for each effect.
-/

open Checked Lists Runs

namespace Retach

/-! ## The invariant -/

def SavedGrid.rows : Option SavedGrid → List Row
  | some saved => saved.visibleCells
  | none => []

namespace Screen

/-- Scrollback, visible and saved rows. -/
def allRows (s : Screen) : List Row := s.grid.cells ++ SavedGrid.rows s.state.savedGrid

/-- The scrollback limit of the main screen. -/
def mainLimit (s : Screen) : Nat :=
  match s.state.savedGrid with
  | some saved => saved.scrollbackLimit
  | none => s.grid.scrollbackLimit

end Screen

def ScreenState.TitlesBounded (st : ScreenState) : Prop :=
  st.title.length ≤ Screen.maxTitleLen ∧ ∀ t ∈ st.titleStack, t.length ≤ Screen.maxTitleLen

namespace Screen

structure Inv (s : Screen) : Prop where
  shape : s.grid.Shape
  table : s.grid.styleTable.Wf
  held : ∀ row ∈ s.allRows, ∀ c ∈ row.cells, s.grid.styleTable.Held c.styleId
  savedGrid : s.state.inAltScreen = true ↔ s.state.savedGrid.isSome = true
  savedModes : s.state.inAltScreen = true ↔ s.state.savedModes.isSome = true
  savedRegion : s.state.inAltScreen = true ↔ s.state.savedScrollRegion.isSome = true
  limit : s.grid.scrollbackLen ≤ s.mainLimit

end Screen

/-! ## Edits of rows -/

/-- Every column has at most as many marks as the code keeps. -/
def Row.MarksBounded (r : Row) : Prop := ∀ e ∈ r.combining, e.2.length ≤ maxCombining

theorem Row.MarksFrom.bounded {r r' : Row} (h : r.MarksFrom r') (hr : r.MarksBounded) : r'.MarksBounded := by
  intro e' he'
  obtain ⟨e, he, heq⟩ := h e' he'
  rw [heq]
  exact hr e he

/-- A column with room for a mark. -/
theorem Row.MarksBounded.pushCombining {r : Row} (h : r.MarksBounded) {col : Nat} (hroom : r.combiningLen col < maxCombining)
    (mark : Char) : (r.pushCombining col mark).MarksBounded := by
  intro e he
  rcases Row.mem_pushMark he with he | rfl
  · exact h e he
  · rw [Row.combiningLen, Row.marks_eq_found] at hroom
    rw [List.length_append]
    exact hroom

/-- C0, DEL and C1. -/
def IsControl (c : Char) : Prop := c.toNat < 0x20 ∨ (0x7f ≤ c.toNat ∧ c.toNat < 0xa0)

instance : DecidablePred IsControl := fun _ => inferInstanceAs (Decidable (_ ∨ _))

/-- What is sent of the cell is no control character. -/
def Cell.Plain (c : Cell) : Prop := c.width ≠ 0 → ¬ IsControl c.c

def Row.MarksPlain (r : Row) : Prop := ∀ e ∈ r.combining, ∀ m ∈ e.2, ¬ IsControl m

theorem Row.MarksFrom.plain {r r' : Row} (h : r.MarksFrom r') (hr : r.MarksPlain) : r'.MarksPlain := by
  intro e' he'
  obtain ⟨e, he, heq⟩ := h e' he'
  rw [heq]
  exact hr e he

theorem Row.MarksPlain.pushCombining {r : Row} (h : r.MarksPlain) (col : Nat) {mark : Char} (hmark : ¬ IsControl mark) :
    (r.pushCombining col mark).MarksPlain := by
  intro e he
  rcases Row.mem_pushMark he with he | rfl
  · exact h e he
  · refine List.forall_mem_append.2 ⟨fun m hm => ?_, List.forall_mem_singleton.2 hmark⟩
    obtain ⟨e, he, hm⟩ := exists_of_mem_found hm
    exact h e he m hm

/-- A cell as callbacks write them: in style `id` or the default style. -/
def Fresh (id : StyleId) (c : Cell) : Prop := InStyle id c ∧ c.Plain

theorem fresh_default (id : StyleId) : Fresh id {} := ⟨.inl rfl, fun _ => by decide⟩

theorem fresh_blank (id : StyleId) : Fresh id { c := ' ', styleId := id, width := 1 } := ⟨.inr rfl, fun _ => show ¬ IsControl ' ' by decide⟩

/-- `r'` is `r` with cells rewritten in style `id` or the default style. -/
structure Row.Rewrite (id : StyleId) (r r' : Row) : Prop where
  cells : Over (Fresh id) r.cells r'.cells
  marks : r.MarksBounded → r'.MarksBounded
  plain : r.MarksPlain → r'.MarksPlain

/-- A rewrite that keeps the halves of wide characters together. -/
structure Row.Edit (id : StyleId) (r r' : Row) : Prop extends r.Rewrite id r' where
  paired : Paired r.cells → Paired r'.cells

theorem Row.Rewrite.refl (id : StyleId) (r : Row) : r.Rewrite id r := ⟨.refl, fun h => h, fun h => h⟩

theorem Row.Edit.refl (id : StyleId) (r : Row) : r.Edit id r := ⟨.refl id r, fun h => h⟩

theorem Row.Edit.blank (id : StyleId) (r : Row) (blank : Cell) (hid : Fresh id blank) (hs : blank.Single) :
    r.Edit id (.filled r.cells.length blank) := by
  refine ⟨⟨⟨by simp [Row.filled], fun c hc => ?_⟩, fun _ e he => absurd he List.not_mem_nil,
    fun _ e he => absurd he List.not_mem_nil⟩, fun _ => .replicate hs _⟩
  obtain rfl := (List.mem_replicate.1 hc).2
  exact .inr hid

/-- `r'` is `r` with marks added, of whatever characters. -/
structure Row.Marked (r r' : Row) : Prop where
  cells : r'.cells = r.cells
  marks : r.MarksBounded → r'.MarksBounded

theorem Row.Marked.refl (r : Row) : r.Marked r := ⟨rfl, id⟩

/-- Every row of `vis'` is an edit of a row of `vis`. -/
def Edits (id : StyleId) (vis vis' : List Row) : Prop := ∀ r' ∈ vis', ∃ r ∈ vis, r.Edit id r'

theorem Edits.refl (id : StyleId) (vis : List Row) : Edits id vis vis := fun r hr => ⟨r, hr, .refl id r⟩

/-- The same without the pairs: a half of a wide character may be left. -/
def Overwrites (id : StyleId) (vis vis' : List Row) : Prop := ∀ r' ∈ vis', ∃ r ∈ vis, r.Rewrite id r'

theorem Edits.overwrites {id : StyleId} {vis vis' : List Row} (h : Edits id vis vis') : Overwrites id vis vis' :=
  fun r' hr' => (h r' hr').imp fun _ hr => ⟨hr.1, hr.2.toRewrite⟩

/-! ## Updates -/

/-- The grid with the alternate screen shown. -/
def Grid.switched (g : Grid) : Grid :=
  { g with
    cells := g.scrollbackRows ++ List.replicate g.rows (.new g.cols)
    scrollbackLimit := 0
    cursorX := 0
    cursorY := 0
    wrapPending := false
    scrollTop := 0
    scrollBottom := g.rows - 1 }

/-- The grid with the saved rows, modes and region back. -/
def Grid.switchedBack (g : Grid) (saved : SavedGrid) (modes : TerminalModes) (region : Nat × Nat) : Grid :=
  { g with
    cells := g.scrollbackRows ++ fitRows g.cols g.rows saved.visibleCells
    scrollbackLimit := saved.scrollbackLimit
    modes
    scrollTop := min region.1 (g.rows - 1)
    scrollBottom := max (min region.2 (g.rows - 1)) (min region.1 (g.rows - 1)) }

/-- The grid after RIS. -/
def Grid.cleared (g : Grid) (limit : Nat) : Grid :=
  { cols := g.cols
    rows := g.rows
    cells := List.replicate g.rows (.filled g.cols {})
    cursorX := 0
    cursorY := 0
    wrapPending := false
    scrollTop := 0
    scrollBottom := g.rows - 1
    cursorVisible := true
    modes := {}
    tabStops := defaultTabStops g.cols
    scrollbackLen := 0
    scrollbackLimit := limit
    pendingStart := 0
    styleTable := g.styleTable.reset }

/-- The grid after a resize that brings `count` rows of scrollback back. -/
def Grid.resized (g : Grid) (cols rows count x y : Nat) : Grid :=
  { g with
    cols, rows
    cells := g.cells.take (g.scrollbackLen - count) ++ fitRows cols rows (g.cells.drop (g.scrollbackLen - count))
    scrollbackLen := g.scrollbackLen - count
    pendingStart := min g.pendingStart (g.scrollbackLen - count)
    cursorX := x
    cursorY := y
    wrapPending := false
    scrollTop := 0
    scrollBottom := rows - 1
    tabStops := defaultTabStops cols }

/-- `st'` is `st` up to what no other effect reads; passthrough is only added. -/
structure ScreenState.Aux (st st' : ScreenState) : Prop where
  inAltScreen : st'.inAltScreen = st.inAltScreen
  savedGrid : st'.savedGrid = st.savedGrid
  savedCursorState : st'.savedCursorState = st.savedCursorState
  savedModes : st'.savedModes = st.savedModes
  savedScrollRegion : st'.savedScrollRegion = st.savedScrollRegion
  passthrough : st.pendingPassthrough <+: st'.pendingPassthrough
  titles : st.TitlesBounded → st'.TitlesBounded

/-- Nothing is left of any OSC sequence: no title, no notification, and no
passthrough but the short sequences that other callbacks pass on. -/
structure ScreenState.Quiet (st : ScreenState) : Prop where
  title : st.title = []
  titleStack : ∀ t ∈ st.titleStack, t = []
  notifications : st.queuedNotifications = []
  passthrough_length : st.pendingPassthrough.length ≤ maxPending
  passthrough : ∀ data ∈ st.pendingPassthrough, data.length ≤ 4

/-- Every title is an earlier one, or the start of one. -/
def ScreenState.KeepsTitles (st st' : ScreenState) : Prop :=
  ∀ t' ∈ st'.title :: st'.titleStack, ∃ t ∈ st.title :: st.titleStack, t' <+: t

theorem ScreenState.KeepsTitles.of_eq {st st' : ScreenState} (ht : st'.title = st.title) (hs : st'.titleStack = st.titleStack) :
    st.KeepsTitles st' := fun t h => ⟨t, by rwa [← ht, ← hs], List.prefix_rfl⟩

/-! ## Effects -/

/-- The effects a theorem may have to exclude have a name of their own. -/
inductive Kind where
  | /-- a half of a wide character may lose the other half -/ orphan
  | /-- a control character becomes a mark -/ control
  | /-- the cursor state goes to the save slot -/ save (c : SavedCursor)
  | enter | exit
  | /-- ED 3 -/ clear
  | /-- RIS -/ reset
  | resize
  | /-- scrollback or passthrough handed out -/ take
  | /-- the cursor or its pending wrap -/ move
  | /-- the modes, or whether the cursor is visible -/ modes
  | /-- a title longer than the parser lets through -/ title
  | /-- a title, a notification or passthrough of an OSC sequence -/ osc
  | other
deriving DecidableEq, Repr

inductive Effect : Kind → Screen → Screen → Prop
  | cursor {s : Screen} (x y : Nat) (w : Bool) (hx : x < s.grid.cols) (hy : y < s.grid.rows) :
      Effect .move s (s.onGrid fun g => ((g.setCursorX x).setCursorY y).setWrapPending w)
  | visible {s : Screen} (v : Bool) : Effect .modes s (s.onGrid (·.setCursorVisible v))
  | modes {s : Screen} (m : TerminalModes) : Effect .modes s (s.onGrid (·.setModes m))
  | region {s : Screen} (top bottom : Nat) (hle : top ≤ bottom) (hlt : bottom < s.grid.rows) :
      Effect .other s (s.onGrid (·.setScrollRegion top bottom))
  | tabs {s : Screen} (stops : List Bool) (hlen : stops.length = s.grid.cols) :
      Effect .other s (s.onGrid fun g => { g with tabStops := stops })
  | aux {s : Screen} (st : ScreenState) (h : s.state.Aux st) (hquiet : s.state.Quiet → st.Quiet)
      (htitles : s.state.KeepsTitles st) : Effect .other s { s with state := st }
  | osc {s : Screen} (st : ScreenState) (h : s.state.Aux st) : Effect .osc s { s with state := st }
  | longTitle {s : Screen} (title : List UInt8) : Effect .title s { s with state := { s.state with title } }
  | save {s : Screen} : Effect (.save s.cursorState) s s.saveCursor
  | table {s : Screen} (t : StyleTable) (hwf : t.Wf)
      (hkeep : s.grid.styleTable.Keeps (fun id => usesStyle s.allRows id = true) t)
      (hlogs : s.grid.styleTable.Logs t) : Effect .other s (s.onGrid (·.setStyleTable t))
  | paint {s : Screen} (id : StyleId) (vis : List Row) (hid : s.grid.styleTable.Held id)
      (hlen : vis.length = s.grid.rows) (hedit : Edits id s.grid.visibleRows vis) :
      Effect .other s (s.onGrid (·.replaceVisible vis))
  | orphan {s : Screen} (id : StyleId) (vis : List Row) (hid : s.grid.styleTable.Held id)
      (hlen : vis.length = s.grid.rows) (hover : Overwrites id s.grid.visibleRows vis) :
      Effect .orphan s (s.onGrid (·.replaceVisible vis))
  | control {s : Screen} (vis : List Row) (hlen : vis.length = s.grid.rows)
      (hmarks : ∀ r' ∈ vis, ∃ r ∈ s.grid.visibleRows, r.Marked r') :
      Effect .control s (s.onGrid (·.replaceVisible vis))
  | capture {s : Screen} (id : StyleId) (top : Row) (vis : List Row) (halt : s.state.inAltScreen = false)
      (hlimit : 0 < s.grid.scrollbackLimit) (hid : s.grid.styleTable.Held id) (hlen : vis.length = s.grid.rows)
      (htop : s.grid.visibleRows.head? = some top) (hedit : Edits id s.grid.visibleRows vis) :
      Effect .other s { s with grid := s.grid.captured top vis, scrolledOff := s.scrolledOff ++ [top] }
  | forget {s : Screen} (row : Row) (halt : s.state.inAltScreen = false) (hlimit : s.grid.scrollbackLimit = 0) :
      Effect .other s { s with scrolledOff := s.scrolledOff ++ [row] }
  | clear {s : Screen} :
      Effect .clear s (s.onGrid fun g => { g with cells := g.visibleRows, scrollbackLen := 0, pendingStart := 0 })
  | enter {s : Screen} (halt : s.state.inAltScreen = false) :
      Effect .enter s { s with
        grid := s.grid.switched
        state := { s.state with
          savedScrollRegion := some (s.grid.scrollTop, s.grid.scrollBottom)
          savedGrid := some { visibleCells := s.grid.visibleRows, scrollbackLimit := s.grid.scrollbackLimit }
          savedModes := some s.grid.modes
          inAltScreen := true } }
  | exit {s : Screen} (saved : SavedGrid) (m : TerminalModes) (region : Nat × Nat)
      (hgrid : s.state.savedGrid = some saved) (hmodes : s.state.savedModes = some m)
      (hregion : s.state.savedScrollRegion = some region) :
      Effect .exit s { s with
        grid := s.grid.switchedBack saved m region
        state := { s.state with inAltScreen := false, savedGrid := none, savedModes := none, savedScrollRegion := none } }
  | reset {s : Screen} :
      Effect .reset s { s with
        grid := s.grid.cleared s.mainLimit
        state := { s.state with
          currentStyle := {}
          inAltScreen := false
          savedGrid := none
          savedModes := none
          savedCursorState := none
          savedScrollRegion := none
          title := []
          titleStack := []
          lastPrintedChar := ' ' } }
  | resize {s : Screen} (cols rows count x y : Nat) (hcols : 0 < cols ∧ cols ≤ 65535) (hrows : 0 < rows ∧ rows ≤ 65535)
      (hcount : count ≤ s.grid.scrollbackLen) (hx : x < cols) (hy : y < rows) :
      Effect .resize s (s.onGrid fun g => g.resized cols rows count x y)
  | takeScrollback {s : Screen} : Effect .take s s.takePendingScrollback.2
  | takePassthrough {s : Screen} : Effect .take s s.takePassthrough.2

/-! ## Effects keep the invariant -/

namespace Screen

variable {s : Screen}

theorem Inv.visible_mem (h : s.Inv) {row : Row} (hr : row ∈ s.grid.visibleRows) : row ∈ s.allRows := by
  rw [allRows, h.shape.cells_eq]
  simp [hr]

theorem Inv.held_visible (h : s.Inv) {row : Row} (hr : row ∈ s.grid.visibleRows) {c : Cell} (hc : c ∈ row.cells) :
    s.grid.styleTable.Held c.styleId := h.held row (h.visible_mem hr) c hc

/-- Every row of `vis` is a visible row with cells rewritten in held styles. -/
def OverHeld (s : Screen) (vis : List Row) : Prop :=
  ∀ r' ∈ vis, ∃ r ∈ s.grid.visibleRows, Over (fun c => s.grid.styleTable.Held c.styleId) r.cells r'.cells

theorem Inv.overHeld (h : s.Inv) {id : StyleId} (hid : s.grid.styleTable.Held id) {vis : List Row}
    (hover : Overwrites id s.grid.visibleRows vis) : s.OverHeld vis := fun row hr => by
  obtain ⟨r, hr, hov⟩ := hover row hr
  refine ⟨r, hr, hov.cells.1, fun c hc => (hov.cells.2 c hc).imp_right fun hfresh => ?_⟩
  rcases hfresh.1 with hid' | hid'
  · rw [hid']; exact h.table.held_zero
  · rw [hid']; exact hid

/-- Rewritten rows hold held slots. -/
theorem Inv.held_over (h : s.Inv) {vis : List Row} (hover : s.OverHeld vis) {row : Row} (hr : row ∈ vis) {c : Cell}
    (hc : c ∈ row.cells) : s.grid.styleTable.Held c.styleId := by
  obtain ⟨r, hr, hov⟩ := hover row hr
  exact (hov.2 c hc).elim (h.held_visible hr) id

theorem Inv.over_len (h : s.Inv) {vis : List Row} (hover : s.OverHeld vis) {row : Row} (hr : row ∈ vis) :
    row.cells.length = s.grid.cols := by
  obtain ⟨r, hr, hov⟩ := hover row hr
  rw [hov.1, h.shape.row_len r hr]

theorem Inv.replaceVisible (h : s.Inv) {vis : List Row} (hlen : vis.length = s.grid.rows) (hover : s.OverHeld vis) :
    (s.onGrid (·.replaceVisible vis)).Inv :=
  { h with
    shape := h.shape.replaceVisible hlen fun _ hr => h.over_len hover hr
    held := fun row hr c hc => by
      simp only [allRows, onGrid, Grid.replaceVisible, List.mem_append] at hr
      rcases hr with (hr | hr) | hr
      · exact h.held row (by simp [allRows, List.mem_of_mem_take hr]) c hc
      · exact h.held_over hover hr hc
      · exact h.held row (by simp [allRows, hr]) c hc }

/-- A new buffer on the main screen. -/
theorem Inv.buffer (h : s.Inv) (hnone : s.state.savedGrid = none) {sb vis : List Row} {n p : Nat} (hsb : sb.length = n)
    (hpending : p ≤ n) (hlimit : n ≤ s.grid.scrollbackLimit) (hlen : vis.length = s.grid.rows)
    (hrows : ∀ row ∈ vis, row.cells.length = s.grid.cols)
    (hheld : ∀ row ∈ sb ++ vis, ∀ c ∈ row.cells, s.grid.styleTable.Held c.styleId) (log : List Row) :
    ({ s with
        grid := { s.grid with cells := sb ++ vis, scrollbackLen := n, pendingStart := p }
        scrolledOff := log } : Screen).Inv := by
  refine { h with shape := { h.shape with cells_len := ?_, pending_le := hpending, row_len := ?_ }, held := ?_, limit := ?_ }
  · rw [List.length_append, hsb, hlen]
  · intro row hr
    rw [Grid.visibleRows] at hr
    simp only [List.drop_left' hsb] at hr
    exact hrows row (List.mem_of_mem_take hr)
  · intro row hr c hc
    simp only [allRows, hnone, SavedGrid.rows, List.append_nil] at hr
    exact hheld row hr c hc
  · rw [mainLimit, hnone]
    exact hlimit

theorem Inv.captured (h : s.Inv) {top : Row} {vis : List Row} (halt : s.state.inAltScreen = false)
    (hlimit : 0 < s.grid.scrollbackLimit) (hlen : vis.length = s.grid.rows)
    (htop : s.grid.visibleRows.head? = some top) (hover : s.OverHeld vis)
    (log : List Row) : ({ s with grid := s.grid.captured top vis, scrolledOff := log } : Screen).Inv := by
  have hnone : s.state.savedGrid = none := by
    have := h.savedGrid
    rw [halt] at this
    simpa using this
  have hbound : s.grid.scrollbackLen ≤ s.grid.scrollbackLimit := by
    have := h.limit
    rwa [mainLimit, hnone] at this
  have hpending := h.shape.pending_le
  have hrows : ∀ row ∈ vis, row.cells.length = s.grid.cols := fun row => h.over_len hover
  have htopmem : top ∈ s.grid.visibleRows := List.mem_of_mem_head? htop
  have hheld : ∀ row ∈ s.grid.scrollbackRows ++ [top] ++ vis, ∀ c ∈ row.cells, s.grid.styleTable.Held c.styleId := by
    intro row hr c hc
    simp only [List.mem_append, List.mem_singleton] at hr
    rcases hr with (hr | rfl) | hr
    · exact h.held row (by simp [allRows, List.mem_of_mem_take hr]) c hc
    · exact h.held_visible htopmem hc
    · exact h.held_over hover hr hc
  have hlenapp : (s.grid.scrollbackRows ++ [top]).length = s.grid.scrollbackLen + 1 := by
    rw [List.length_append, h.shape.scrollback_length, List.length_singleton]
  unfold Grid.captured
  split
  next =>
    have hlentail : ((s.grid.scrollbackRows ++ [top]).tail).length = s.grid.scrollbackLen := by
      rw [List.length_tail, hlenapp, Nat.add_sub_cancel]
    refine h.buffer hnone hlentail (by omega) hbound hlen hrows (fun row hr => hheld row ?_) log
    rcases List.mem_append.1 hr with hr | hr
    · exact List.mem_append_left _ (List.mem_of_mem_tail hr)
    · exact List.mem_append_right _ hr
  next hroom => exact h.buffer hnone hlenapp (by omega) (by omega) hlen hrows hheld log

/-- A buffer whose visible part is `vis`. -/
theorem visible_of_append {sb vis : List Row} {n rows : Nat} (hsb : sb.length = n) {row : Row}
    (hr : row ∈ ((sb ++ vis).drop n).take rows) : row ∈ vis := by
  rw [List.drop_left' hsb] at hr
  exact List.mem_of_mem_take hr

theorem scrollback_mem (s : Screen) {row : Row} (hr : row ∈ s.grid.scrollbackRows) : row ∈ s.allRows :=
  List.mem_append_left _ (List.mem_of_mem_take hr)

theorem blank_held (h : s.Inv) {cols : Nat} {row : Row} (hr : row = .new cols) {c : Cell} (hc : c ∈ row.cells) :
    s.grid.styleTable.Held c.styleId := by
  subst hr
  obtain rfl := (List.mem_replicate.1 hc).2
  exact h.table.held_zero

theorem Inv.enter (h : s.Inv) (halt : s.state.inAltScreen = false) :
    ({ s with
      grid := s.grid.switched
      state := { s.state with
        savedScrollRegion := some (s.grid.scrollTop, s.grid.scrollBottom)
        savedGrid := some { visibleCells := s.grid.visibleRows, scrollbackLimit := s.grid.scrollbackLimit }
        savedModes := some s.grid.modes
        inAltScreen := true } } : Screen).Inv := by
  have hrows := h.shape.rows_pos
  have hsb := h.shape.scrollback_length
  have hnone : s.state.savedGrid = none := by
    have := h.savedGrid
    rw [halt] at this
    simpa using this
  refine { h with
    shape := { h.shape with
      cells_len := ?_, row_len := ?_, cursor_x := h.shape.cols_pos, cursor_y := hrows, region_le := Nat.zero_le _
      region_lt := Nat.sub_lt hrows Nat.one_pos }
    held := ?_, savedGrid := by simp, savedModes := by simp, savedRegion := by simp, limit := ?_ }
  · simp [Grid.switched, hsb]
  · intro row hr
    obtain rfl := (List.mem_replicate.1 (visible_of_append hsb hr)).2
    simp [Row.new, Row.filled, Grid.switched]
  · intro row hr c hc
    simp only [allRows, SavedGrid.rows, Grid.switched, List.mem_append, List.mem_replicate] at hr
    rcases hr with (hr | ⟨-, hr⟩) | hr
    · exact h.held row (s.scrollback_mem hr) c hc
    · exact blank_held h hr hc
    · exact h.held_visible hr hc
  · have := h.limit
    rwa [mainLimit, hnone] at this

theorem Inv.fitted_held (h : s.Inv) {cols rows : Nat} {vis : List Row} (hvis : ∀ row ∈ vis, row ∈ s.allRows) {row : Row}
    (hr : row ∈ fitRows cols rows vis) {c : Cell} (hc : c ∈ row.cells) : s.grid.styleTable.Held c.styleId := by
  obtain ⟨r, hr', rfl⟩ := mem_fitRows hr
  rcases mem_fit hc with hc | hc
  · rcases hr' with hr' | hr'
    · exact h.held r (hvis r hr') c hc
    · exact blank_held h hr' hc
  · rw [hc]
    exact h.table.held_zero

theorem Inv.exit (h : s.Inv) {saved : SavedGrid} (m : TerminalModes) (region : Nat × Nat)
    (hgrid : s.state.savedGrid = some saved) :
    ({ s with
      grid := s.grid.switchedBack saved m region
      state := { s.state with inAltScreen := false, savedGrid := none, savedModes := none, savedScrollRegion := none } } :
        Screen).Inv := by
  have hrows := h.shape.rows_pos
  have hsb := h.shape.scrollback_length
  refine { h with
    shape := { h.shape with
      cells_len := ?_, row_len := ?_, region_le := Nat.le_max_right _ _, region_lt := ?_ }
    held := ?_, savedGrid := by simp, savedModes := by simp, savedRegion := by simp, limit := ?_ }
  · simp [Grid.switchedBack, hsb, fitRows_length]
  · intro row hr
    obtain ⟨r, -, rfl⟩ := mem_fitRows (visible_of_append hsb hr)
    exact fit_length _ _
  · change max (min region.2 (s.grid.rows - 1)) (min region.1 (s.grid.rows - 1)) < s.grid.rows
    omega
  · intro row hr c hc
    simp only [allRows, SavedGrid.rows, Grid.switchedBack, List.append_nil, List.mem_append] at hr
    rcases hr with hr | hr
    · exact h.held row (s.scrollback_mem hr) c hc
    · exact h.fitted_held (fun r hr => by simp [allRows, hgrid, SavedGrid.rows, hr]) hr hc
  · have := h.limit
    rwa [mainLimit, hgrid] at this

theorem defaultTabStops_length (cols : Nat) : (defaultTabStops cols).length = cols := by simp [defaultTabStops]

theorem Inv.reset (h : s.Inv) (limit : Nat) :
    ({ s with
      grid := s.grid.cleared limit
      state := { s.state with
        currentStyle := {}
        inAltScreen := false
        savedGrid := none
        savedModes := none
        savedCursorState := none
        savedScrollRegion := none
        title := []
        titleStack := []
        lastPrintedChar := ' ' } } : Screen).Inv := by
  have hrows := h.shape.rows_pos
  refine {
    shape := { h.shape with
      cells_len := by simp [Grid.cleared], pending_le := Nat.le_refl 0, row_len := ?_, cursor_x := h.shape.cols_pos
      cursor_y := hrows, region_le := Nat.zero_le _, region_lt := Nat.sub_lt hrows Nat.one_pos
      tabs_len := defaultTabStops_length _ }
    table := StyleTable.wf_reset _, held := ?_, savedGrid := by simp, savedModes := by simp, savedRegion := by simp
    limit := Nat.zero_le _ }
  · intro row hr
    obtain rfl := (List.mem_replicate.1 (List.mem_of_mem_drop (List.mem_of_mem_take hr))).2
    simp [Row.filled, Grid.cleared]
  · intro row hr c hc
    simp only [allRows, SavedGrid.rows, List.append_nil, Grid.cleared, List.mem_replicate] at hr
    obtain ⟨-, rfl⟩ := hr
    obtain rfl := (List.mem_replicate.1 hc).2
    exact (StyleTable.wf_reset _).held_zero

theorem Inv.resize (h : s.Inv) {cols rows count x y : Nat} (hcols : 0 < cols ∧ cols ≤ 65535)
    (hrows : 0 < rows ∧ rows ≤ 65535) (hx : x < cols) (hy : y < rows) :
    (s.onGrid fun g => g.resized cols rows count x y).Inv := by
  have hlen : (s.grid.cells.take (s.grid.scrollbackLen - count)).length = s.grid.scrollbackLen - count := by
    rw [List.length_take, h.shape.cells_len]
    omega
  refine { h with
    shape := {
      cols_pos := hcols.1, cols_le := hcols.2, rows_pos := hrows.1, rows_le := hrows.2, cells_len := ?_
      pending_le := Nat.min_le_right _ _, row_len := ?_, cursor_x := hx, cursor_y := hy, region_le := Nat.zero_le _
      region_lt := Nat.sub_lt hrows.1 Nat.one_pos, tabs_len := defaultTabStops_length _ }
    held := ?_, limit := Nat.le_trans (Nat.sub_le _ _) h.limit }
  · simp only [onGrid, Grid.resized, List.length_append, hlen, fitRows_length]
  · intro row hr
    obtain ⟨r, -, rfl⟩ := mem_fitRows (visible_of_append hlen hr)
    exact fit_length _ _
  · intro row hr c hc
    simp only [allRows, onGrid, Grid.resized, List.mem_append] at hr
    rcases hr with (hr | hr) | hr
    · exact h.held row (List.mem_append_left _ (List.mem_of_mem_take hr)) c hc
    · exact h.fitted_held (fun r hr => List.mem_append_left _ (List.mem_of_mem_drop hr)) hr hc
    · exact h.held row (List.mem_append_right _ hr) c hc

theorem Inv.clear (h : s.Inv) :
    (s.onGrid fun g => { g with cells := g.visibleRows, scrollbackLen := 0, pendingStart := 0 }).Inv := by
  refine { h with
    shape := { h.shape with
      cells_len := by simp [onGrid, h.shape.visible_length], pending_le := Nat.le_refl 0, row_len := ?_ }
    held := ?_, limit := Nat.zero_le _ }
  · exact fun row hr => h.shape.row_len row (List.mem_of_mem_drop (List.mem_of_mem_take hr))
  · intro row hr c hc
    simp only [allRows, onGrid, List.mem_append] at hr
    rcases hr with hr | hr
    · exact h.held_visible hr hc
    · exact h.held row (List.mem_append_right _ hr) c hc

theorem Inv.table_change (h : s.Inv) {t : StyleTable} (hwf : t.Wf)
    (hkeep : s.grid.styleTable.Keeps (fun id => usesStyle s.allRows id = true) t) :
    (s.onGrid (·.setStyleTable t)).Inv :=
  { h with
    shape := { h.shape with }
    table := hwf
    held := fun row hr c hc =>
      (hkeep c.styleId (usesStyle_iff.2 ⟨row, hr, c, hc, rfl⟩) (h.held row hr c hc)).1 }

theorem Inv.aux (h : s.Inv) {st : ScreenState} (ha : s.state.Aux st) : ({ s with state := st } : Screen).Inv :=
  { h with
    held := fun row hr => h.held row (by simpa [allRows, ha.savedGrid] using hr)
    savedGrid := by simpa [ha.savedGrid, ha.inAltScreen] using h.savedGrid
    savedModes := by simpa [ha.savedModes, ha.inAltScreen] using h.savedModes
    savedRegion := by simpa [ha.savedScrollRegion, ha.inAltScreen] using h.savedRegion
    limit := by simpa [mainLimit, ha.savedGrid] using h.limit }

end Screen

/-- Every effect keeps the invariant. -/
theorem Effect.inv {k : Kind} {s s' : Screen} (h : Effect k s s') (hs : s.Inv) : s'.Inv := by
  cases h with
  | cursor x y w hx hy => exact { hs with shape := { hs.shape with cursor_x := hx, cursor_y := hy } }
  | visible v => exact { hs with shape := { hs.shape with } }
  | modes m => exact { hs with shape := { hs.shape with } }
  | region top bottom hle hlt => exact { hs with shape := { hs.shape with region_le := hle, region_lt := hlt } }
  | tabs stops hlen => exact { hs with shape := { hs.shape with tabs_len := hlen } }
  | aux st h => exact hs.aux h
  | osc st h => exact hs.aux h
  | longTitle title => exact { hs with }
  | save => exact { hs with }
  | table t hwf hkeep => exact hs.table_change hwf hkeep
  | paint id vis hid hlen hedit => exact hs.replaceVisible hlen (hs.overHeld hid hedit.overwrites)
  | orphan id vis hid hlen hover => exact hs.replaceVisible hlen (hs.overHeld hid hover)
  | control vis hlen hmarks =>
    apply hs.replaceVisible hlen
    intro r' hr'
    obtain ⟨r, hr, hmark⟩ := hmarks r' hr'
    exact ⟨r, hr, hmark.cells ▸ .refl⟩
  | capture id top vis halt hlimit hid hlen htop hedit =>
    exact hs.captured halt hlimit hlen htop (hs.overHeld hid hedit.overwrites) _
  | forget row halt hlimit => exact { hs with }
  | clear => exact hs.clear
  | enter halt => exact hs.enter halt
  | exit saved m region hgrid hmodes hregion => exact hs.exit m region hgrid
  | reset => exact hs.reset _
  | resize cols rows count x y hcols hrows hcount hx hy => exact hs.resize hcols hrows hx hy
  | takeScrollback => exact { hs with shape := { hs.shape with pending_le := Nat.le_refl _ } }
  | takePassthrough => exact { hs with }

theorem captured_dims (g : Grid) (top : Row) (vis : List Row) :
    (g.captured top vis).cols = g.cols ∧ (g.captured top vis).rows = g.rows ∧
      (g.captured top vis).cursorX = g.cursorX := by
  unfold Grid.captured
  split <;> exact ⟨rfl, rfl, rfl⟩

theorem captured_styleTable (g : Grid) (top : Row) (vis : List Row) : (g.captured top vis).styleTable = g.styleTable := by
  unfold Grid.captured
  split <;> rfl

/-- Only a resize changes the dimensions. -/
theorem Effect.dims {k : Kind} {s s' : Screen} (h : Effect k s s') (hk : k ≠ .resize) :
    s'.grid.cols = s.grid.cols ∧ s'.grid.rows = s.grid.rows := by
  cases h with
  | capture id top vis => exact ⟨(captured_dims ..).1, (captured_dims ..).2.1⟩
  | resize => exact absurd rfl hk
  | _ => exact ⟨rfl, rfl⟩

/-- Effects without a name do not move the cursor. -/
theorem Effect.cursorX {k : Kind} {s s' : Screen} (h : Effect k s s') (hk : k = .other) :
    s'.grid.cursorX = s.grid.cursorX ∧ s'.grid.cols = s.grid.cols := by
  subst hk
  refine ⟨?_, (h.dims (by decide)).1⟩
  cases h with
  | capture id top vis => exact (captured_dims ..).2.2
  | _ => rfl

/-- The scrollback limit of the main screen never changes. -/
theorem Effect.mainLimit {k : Kind} {s s' : Screen} (h : Effect k s s') (hs : s.Inv) : s'.mainLimit = s.mainLimit := by
  cases h with
  | aux st h => simp only [Screen.mainLimit, h.savedGrid]
  | osc st h => simp only [Screen.mainLimit, h.savedGrid]
  | capture id top vis halt =>
    have hlimit : (s.grid.captured top vis).scrollbackLimit = s.grid.scrollbackLimit := by
      unfold Grid.captured
      split <;> rfl
    simp only [Screen.mainLimit, hlimit]
  | enter halt =>
    have hnone : s.state.savedGrid = none := by simpa [halt] using hs.savedGrid
    simp only [Screen.mainLimit, hnone]
  | exit saved m region hgrid => simp only [Screen.mainLimit, hgrid, Grid.switchedBack]
  | _ => rfl

/-- Every slot that an effect does not keep is logged as freed. -/
theorem Effect.logs {k : Kind} {s s' : Screen} (h : Effect k s s') (hs : s.Inv) :
    s.grid.styleTable.Logs s'.grid.styleTable := by
  cases h with
  | table t hwf hkeep hlogs => exact hlogs
  | capture id top vis => rw [captured_styleTable]; exact .refl _
  | reset => exact hs.table.reset_logs
  | _ => exact .refl _

theorem mem_captured {g : Grid} {top row : Row} {vis : List Row} (h : row ∈ (g.captured top vis).cells) :
    row ∈ g.scrollbackRows ∨ row = top ∨ row ∈ vis := by
  unfold Grid.captured at h
  split at h
  · rcases List.mem_append.1 h with h | h
    · simpa [or_assoc] using Or.inl (List.mem_of_mem_tail h)
    · exact .inr (.inr h)
  · simpa [or_assoc] using h

/-- What rewriting and fitting keep, and blank rows have, all rows keep. -/
theorem Effect.keeps_rows {P : Row → Prop} {k : Kind} {s s' : Screen} (h : Effect k s s') (hs : s.Inv)
    (hedit : ∀ id r r', Row.Edit id r r' → P r → P r')
    (horphan : k = .orphan → ∀ id r r', Row.Rewrite id r r' → P r → P r')
    (hcontrol : k = .control → ∀ r r', Row.Marked r r' → P r → P r')
    (hfit : ∀ cols ≤ 65535, k = .resize ∨ cols = s.grid.cols → P (.new cols) ∧ ∀ r, P r → P (r.fitted cols))
    (hp : ∀ row ∈ s.allRows, P row) : ∀ row ∈ s'.allRows, P row := by
  have hcells : ∀ row ∈ s.grid.cells, P row := fun row hr => hp row (List.mem_append_left _ hr)
  have hsaved : ∀ row ∈ SavedGrid.rows s.state.savedGrid, P row := fun row hr => hp row (List.mem_append_right _ hr)
  have hback : ∀ row ∈ s.grid.scrollbackRows, P row := fun row hr => hcells row (List.mem_of_mem_take hr)
  have hvis : ∀ row ∈ s.grid.visibleRows, P row := fun row hr => hp row (hs.visible_mem hr)
  have hnone : ∀ row ∈ SavedGrid.rows none, P row := fun row hr => absurd hr List.not_mem_nil
  have hblank : ∀ row ∈ List.replicate s.grid.rows (Row.new s.grid.cols), P row := fun row hr => by
    rw [(List.mem_replicate.1 hr).2]
    exact (hfit _ hs.shape.cols_le (.inr rfl)).1
  have hedits : ∀ id vis, Edits id s.grid.visibleRows vis → ∀ row ∈ vis, P row := fun id vis he row hr => by
    obtain ⟨r, hr, he⟩ := he row hr
    exact hedit id r row he (hvis r hr)
  have hfitted : ∀ cols ≤ 65535, ∀ rows vis, k = .resize ∨ cols = s.grid.cols → (∀ row ∈ vis, P row) →
      ∀ row ∈ fitRows cols rows vis, P row := by
    intro cols hle rows vis hc hv row hr
    obtain ⟨hnew, hkeep⟩ := hfit cols hle hc
    obtain ⟨r, hr' | rfl, rfl⟩ := mem_fitRows hr
    · exact hkeep r (hv r hr')
    · exact hkeep _ hnew
  cases h with
  | aux st ha | osc st ha =>
    intro row hr
    exact hp row (by simpa [Screen.allRows, ha.savedGrid] using hr)
  | paint id vis hid hlen he =>
    exact List.forall_mem_append.2 ⟨List.forall_mem_append.2 ⟨hback, hedits id vis he⟩, hsaved⟩
  | orphan id vis hid hlen hover =>
    refine List.forall_mem_append.2 ⟨List.forall_mem_append.2 ⟨hback, fun row hr => ?_⟩, hsaved⟩
    obtain ⟨r, hr, he⟩ := hover row hr
    exact horphan rfl id r row he (hvis r hr)
  | control vis hlen hmarks =>
    refine List.forall_mem_append.2 ⟨List.forall_mem_append.2 ⟨hback, fun row hr => ?_⟩, hsaved⟩
    obtain ⟨r, hr, hmark⟩ := hmarks row hr
    exact hcontrol rfl r row hmark (hvis r hr)
  | capture id top vis halt hlimit hid hlen htop he =>
    refine List.forall_mem_append.2 ⟨fun row hr => ?_, hsaved⟩
    rcases mem_captured hr with hr | rfl | hr
    · exact hback row hr
    · exact hvis row (List.mem_of_mem_head? htop)
    · exact hedits id vis he row hr
  | clear => exact List.forall_mem_append.2 ⟨hvis, hsaved⟩
  | enter halt => exact List.forall_mem_append.2 ⟨List.forall_mem_append.2 ⟨hback, hblank⟩, hvis⟩
  | exit saved m region hgrid =>
    rw [hgrid] at hsaved
    exact List.forall_mem_append.2 ⟨List.forall_mem_append.2 ⟨hback, hfitted _ hs.shape.cols_le _ _ (.inr rfl) hsaved⟩, hnone⟩
  | reset => exact List.forall_mem_append.2 ⟨hblank, hnone⟩
  | resize cols rows count x y hcols =>
    refine List.forall_mem_append.2 ⟨List.forall_mem_append.2 ⟨fun row hr => ?_, ?_⟩, hsaved⟩
    · exact hcells row (List.mem_of_mem_take hr)
    · exact hfitted _ hcols.2 _ _ (.inl rfl) fun row hr => hcells row (List.mem_of_mem_drop hr)
  | _ => exact hp

/-- Only an OSC sequence leaves a title or a notification. -/
theorem Effect.quiet {k : Kind} {s s' : Screen} (h : Effect k s s') (hosc : k ≠ .osc) (htitle : k ≠ .title)
    (hq : s.state.Quiet) : s'.state.Quiet := by
  cases h with
  | aux st ha hquiet => exact hquiet hq
  | osc => exact absurd rfl hosc
  | longTitle => exact absurd rfl htitle
  | reset => exact { hq with title := rfl, titleStack := fun t ht => absurd ht List.not_mem_nil }
  | takePassthrough =>
    exact { hq with passthrough_length := Nat.zero_le _, passthrough := fun d hd => absurd hd List.not_mem_nil }
  | save | enter | exit => exact { hq with }
  | _ => exact hq

/-- Paths of effects keep the invariant. -/
theorem steps_inv {allowed : Kind → Prop} {s s' : Screen} (h : Steps Effect allowed s s') (hs : s.Inv) : s'.Inv :=
  h.keeps (fun _ _ _ _ he => he.inv) hs

theorem steps_logs {allowed : Kind → Prop} {s s' : Screen} (h : Steps Effect allowed s s') (hs : s.Inv) :
    s.grid.styleTable.Logs s'.grid.styleTable :=
  h.relates (P := Screen.Inv) (Q := fun s s' => s.grid.styleTable.Logs s'.grid.styleTable) (fun _ _ _ _ he => he.inv)
    (fun s => .refl s.grid.styleTable) (fun _ _ _ => .trans) (fun _ _ _ _ he hs => he.logs hs) hs

/-- Without a resize the dimensions stay. -/
theorem steps_dims {allowed : Kind → Prop} (hk : ¬ allowed .resize) {s s' : Screen} (h : Steps Effect allowed s s') :
    s'.grid.cols = s.grid.cols ∧ s'.grid.rows = s.grid.rows :=
  h.keeps (P := fun t => t.grid.cols = s.grid.cols ∧ t.grid.rows = s.grid.rows)
    (fun _ _ _ hka he ht =>
      have hd := he.dims fun e => hk (e ▸ hka)
      ⟨hd.1.trans ht.1, hd.2.trans ht.2⟩) ⟨rfl, rfl⟩

/-- Titles stay bounded. -/
theorem Effect.titles {k : Kind} {s s' : Screen} (h : Effect k s s') (hk : k ≠ .title) (ht : s.state.TitlesBounded) :
    s'.state.TitlesBounded := by
  cases h with
  | longTitle => exact absurd rfl hk
  | aux st h => exact h.titles ht
  | osc st h => exact h.titles ht
  | reset => exact ⟨Nat.zero_le _, by simp⟩
  | _ => exact ht

theorem steps_titles {allowed : Kind → Prop} (hk : ¬ allowed .title) {s s' : Screen} (h : Steps Effect allowed s s')
    (ht : s.state.TitlesBounded) : s'.state.TitlesBounded :=
  h.keeps (fun _ _ _ hka he => he.titles fun e => hk (e ▸ hka)) ht

theorem steps_mainLimit {allowed : Kind → Prop} {s s' : Screen} (h : Steps Effect allowed s s') (hs : s.Inv) :
    s'.mainLimit = s.mainLimit :=
  h.relates (P := Screen.Inv) (Q := fun s s' => s'.mainLimit = s.mainLimit) (fun _ _ _ _ he => he.inv)
    (fun _ => rfl) (fun _ _ _ h h' => h'.trans h) (fun _ _ _ _ he hs => he.mainLimit hs) hs

end Retach
