import Retach.Attach
import Retach.Mirroring
import Retach.Queues
import Retach.Replay
/-!
# What is passed on with frames (`server/session_bridge.rs`)

The relay puts the bells, OSC sequences and `ED 3` that it takes from the queues
before its frame, and the first frame comes behind the history. The terminal
draws nothing for what is passed on, so the frame behind it is read as it would
be by itself.
-/

open Checked Runs

namespace Retach

/-! ## What is passed on -/

/-- What a callback is passed on as. -/
def Event.passedBytes : Event → Option (List UInt8)
  | .execute 0x07 => some [0x07]
  | .csi [[3]] [] 'J' => some Screen.clearSequence
  | .osc (num :: rest) bell =>
    if Screen.parseU16 num = some 0 ∨ Screen.parseU16 num = some 2 then none else some (Screen.oscSequence (num :: rest) bell)
  | _ => none

/-- The terminal reads `data` as the callbacks `passed`. -/
def ReadsAs (passed : List Event) (data : List (List UInt8)) : Prop := passed.map Event.passedBytes = data.map some

instance (passed : List Event) (data : List (List UInt8)) : Decidable (ReadsAs passed data) := inferInstanceAs (Decidable (_ = _))

theorem Passed.reads {data : List UInt8} (h : Passed data) : ∃ e : Event, e.passedBytes = some data := by
  cases h with
  | bell => exact ⟨.execute 0x07, rfl⟩
  | clear => exact ⟨.csi [[3]] [] 'J', rfl⟩
  | osc num rest bell hnum =>
    refine ⟨.osc (num :: rest) bell, if_neg ?_⟩
    simp only [List.mem_cons, not_or] at hnum
    exact not_or.2 ⟨hnum.1, hnum.2.1⟩

theorem Notice.reads {data : List UInt8} (h : Notice data) : ∃ e : Event, e.passedBytes = some data := by
  obtain ⟨num, rest, bell, hnum⟩ := h
  refine ⟨.osc (num :: rest) bell, if_neg ?_⟩
  simp only [List.mem_cons, List.not_mem_nil, or_false] at hnum
  rcases hnum with h | h | h <;> simp [h]

/-- Something is read for whatever is queued. -/
theorem exists_reads {data : List (List UInt8)} (h : ∀ d ∈ data, ∃ e : Event, e.passedBytes = some d) :
    ∃ passed, ReadsAs passed data := by
  induction data with
  | nil => exact ⟨[], rfl⟩
  | cons d data ih =>
    obtain ⟨e, he⟩ := h d List.mem_cons_self
    obtain ⟨passed, hpassed⟩ := ih fun d hd => h d (List.mem_cons_of_mem _ hd)
    exact ⟨e :: passed, congrArg₂ List.cons he hpassed⟩

namespace Screen

variable {W : UnicodeWidth} {P : Finset Style} {cols rows : Nat} {T T' : Screen}

/-- The rows look the same, and the modes are the same. -/
structure Still (T T' : Screen) : Prop where
  modes : T'.grid.modes = T.grid.modes
  view : ∀ r, T'.viewRow r = T.viewRow r

theorem Still.refl (T : Screen) : T.Still T := ⟨rfl, fun _ => rfl⟩

theorem Still.trans {T₁ : Screen} (h : T.Still T₁) (h' : T₁.Still T') : T.Still T' :=
  ⟨h'.modes.trans h.modes, fun r => (h'.view r).trans (h.view r)⟩

theorem Canvas.requeue (h : T.Canvas P cols rows) {st : ScreenState} (haux : T.state.Aux st)
    (hstyle : st.currentStyle = T.state.currentStyle) :
    ({ T with state := st } : Screen).Canvas P cols rows ∧ T.Still { T with state := st } := by
  have hrecast : T.Recast { T with state := st } :=
    ⟨(Effect.osc st haux).inv h.inv, rfl, rfl, rfl, rfl, rfl, haux.savedGrid, hstyle⟩
  exact ⟨hrecast.canvas h h.direct, rfl, hrecast.viewRow⟩

/-- The terminal clears its own scrollback. -/
theorem Canvas.clearScrollback (h : T.Canvas P cols rows) :
    ∃ T', T.step W (.csi [[3]] [] 'J') = some T' ∧ T'.Canvas P cols rows ∧ T.Still T' := by
  have hcleared : (T.onGrid fun g => { g with cells := g.visibleRows, scrollbackLen := 0, pendingStart := 0 }).Inv :=
    Effect.clear.inv h.inv
  let T₁ := T.onGrid fun g => { g with cells := g.visibleRows, scrollbackLen := 0, pendingStart := 0 }
  have hvisible : T₁.grid.visibleRows = T.grid.visibleRows := by
    change (T.grid.visibleRows.drop 0).take T.grid.rows = _
    rw [List.drop_zero, List.take_of_length_le (Nat.le_of_eq h.inv.shape.visible_length)]
  have h₁ : T₁.Canvas P cols rows :=
    { inv := hcleared
      fits := h.fits.blanks rfl fun row hrow => .inl (by
        rcases List.mem_append.1 hrow with hrow | hrow
        · exact List.mem_append_left _ (List.mem_of_mem_drop (List.mem_of_mem_take hrow))
        · exact List.mem_append_right _ hrow)
      style := h.style
      paired := fun row hrow => h.paired row (hvisible ▸ hrow)
      direct := h.direct
      cols_eq := h.cols_eq
      rows_eq := h.rows_eq }
  have hstill : T.Still T₁ := ⟨rfl, fun r => by rw [viewRow, viewRow, hvisible]; rfl⟩
  obtain ⟨h₂, hstill₂⟩ := h₁.requeue (pushPassthrough_aux T₁.state clearSequence) (pushPassthrough_currentStyle _ _)
  refine ⟨_, ?_, h₂, hstill.trans hstill₂⟩
  change T.csiEraseDisplay 3 = _
  rw [csiEraseDisplay, blankCell_default h.style]
  simp only [Option.bind_eq_bind, Option.bind_some, h.inv.shape.clearScrollback]
  rfl

theorem Canvas.pass (h : T.Canvas P cols rows) {e : Event} {data : List UInt8} (he : e.passedBytes = some data) :
    ∃ T', T.step W e = some T' ∧ T'.Canvas P cols rows ∧ T.Still T' := by
  unfold Event.passedBytes at he
  split at he
  · exact ⟨_, rfl, h.requeue (pushPassthrough_aux T.state _) (pushPassthrough_currentStyle _ _)⟩
  · exact h.clearScrollback
  next num rest bell =>
    split at he
    · cases he
    next htitle =>
      change ∃ T', T.oscDispatch (num :: rest) bell = some T' ∧ _
      simp only [oscDispatch, if_neg htitle]
      split
      · exact ⟨_, rfl, h.requeue (pushNotification_aux T.state _) rfl⟩
      · exact ⟨_, rfl, h.requeue (pushPassthrough_aux T.state _) (pushPassthrough_currentStyle _ _)⟩
  · cases he

/-- What is passed on draws nothing. -/
theorem Canvas.passes (h : T.Canvas P cols rows) {passed : List Event} {data : List (List UInt8)} (hreads : ReadsAs passed data) :
    ∃ T', T.process W passed = some T' ∧ T'.Canvas P cols rows ∧ T.Still T' := by
  induction passed generalizing T data with
  | nil => exact ⟨T, rfl, h, .refl T⟩
  | cons e passed ih =>
    cases data with
    | nil => cases hreads
    | cons d data =>
      obtain ⟨he, hrest⟩ := List.cons.inj hreads
      obtain ⟨T₁, hstep, h₁, hstill₁⟩ := h.pass (W := W) he
      obtain ⟨T', hrun, h', hstill⟩ := ih h₁ hrest
      exact ⟨T', by rw [process_cons, hstep, Option.bind_some, hrun], h', hstill₁.trans hstill⟩

end Screen

/-! ## Frames of the relay -/

namespace Display

section

variable {H : Type} [DecidableEq H] (W : UnicodeWidth) (R : RowHash H)

/-- A frame, behind what is passed on. -/
def send (d : Display H) (before : List Event) (scrollback : List (List Event)) (full : Bool) : Option (Display H) := do
  let terminal ← d.terminal.process W before
  view W R { d with terminal } (.frame scrollback full)

/-- What `take_and_render` takes from the screen: the lines, what is passed on,
and the rest. -/
def takenLines (d : Display H) : List (List Event) :=
  d.screen.takePendingScrollback.1.map fun row => renderLine row d.screen.grid.styleTable

@[inherit_doc takenLines]
def takenPassed (d : Display H) : List (List UInt8) := d.screen.state.pendingPassthrough ++ d.screen.state.queuedNotifications

@[inherit_doc takenLines]
def taken (d : Display H) : Display H := { d with screen := (Attach.takeAll d.screen).2.2 }

/-- `take_and_render`, and what the terminal does with it. -/
def takeAndRender (d : Display H) (passed : List Event) : Option (Display H) :=
  if ReadsAs passed d.takenPassed then d.taken.send W R passed d.takenLines (decide (d.takenLines ≠ [])) else none

/-- What is asked of the frame of `take_and_render`. -/
structure Takes (P : Finset Style) (d : Display H) : Prop where
  frameable : d.taken.Frameable W P d.takenLines
  clean : d.taken.Clean R d.takenLines (decide (d.takenLines ≠ []))

variable {W R} {P : Finset Style} {d d' : Display H}

omit [DecidableEq H] in
/-- The screen changes outside what frames depend on. -/
theorem Ready.rescreen (hd : d.Ready R P) {s : Screen} (hs : s.Inv) (htable : s.grid.styleTable = d.screen.grid.styleTable)
    (hdims : s.grid.cols = d.screen.grid.cols ∧ s.grid.rows = d.screen.grid.rows) : Ready R P { d with screen := s } where
  viewed := by
    refine ⟨hs, fun y h hh => ?_⟩
    have htracks := hd.viewed.tracks y h hh
    unfold Viewed.Tracks at htracks ⊢
    dsimp only
    rwa [htable]
  canvas := by
    change d.terminal.Canvas P s.grid.cols s.grid.rows
    rw [hdims.1, hdims.2]
    exact hd.canvas
  modes := hd.modes

omit [DecidableEq H] in
theorem Ready.still (hd : d.Ready R P) {T : Screen} (hT : T.Canvas P d.screen.grid.cols d.screen.grid.rows)
    (hstill : d.terminal.Still T) : Ready R P { d with terminal := T } ∧ (d.Shows → Shows { d with terminal := T }) :=
  ⟨⟨hd.viewed, hT, fun m hm => hstill.modes.trans (hd.modes m hm)⟩,
    fun hshows y hy p hp => (hstill.view y).trans (hshows y hy p hp)⟩

/-- The rows that are painted over are as they were. -/
theorem Clean.still {scrollback : List (List Event)} {full : Bool} (h : d.Clean R scrollback full) {T : Screen}
    (hstill : d.terminal.Still T) : Clean R { d with terminal := T } scrollback full := fun hfull hsb y row hash hrow hh hskip => by
  obtain ⟨hends, hcovers⟩ := h hfull hsb y row hash hrow hh hskip
  exact ⟨hends, fun old hold => hcovers old (hstill.view y ▸ hold)⟩

theorem view_screen {scrollback : List (List Event)} {full : Bool} (h : d.view W R (.frame scrollback full) = some d')
    {s : Screen} (hs : d.screen = s) : d'.screen = s := by
  subst hs
  obtain ⟨T, -, h⟩ := Option.bind_eq_some_iff.1 h
  obtain rfl := Option.some.inj h
  rfl

omit [DecidableEq H] in
theorem Ready.taken (hd : d.Ready R P) : d.taken.Ready R P := by
  have hdrained : (Attach.drained d.screen).Inv := Effect.takePassthrough.inv (Effect.takeScrollback.inv hd.viewed.screen)
  exact hd.rescreen ((Effect.osc { (Attach.drained d.screen).state with queuedNotifications := [] }
    ⟨rfl, rfl, rfl, rfl, rfl, List.prefix_rfl, id⟩).inv hdrained) rfl ⟨rfl, rfl⟩

theorem Ready.takeAndRender (hd : d.Ready R P) (hinj : Function.Injective R.hash) (hunset : ∀ row, R.hash row ≠ R.unset)
    {passed : List Event} (hreads : ReadsAs passed d.takenPassed)
    (hasks : d.taken.Frameable W P d.takenLines) :
    ∃ d', d.takeAndRender W R passed = some d' ∧ d'.Ready R P ∧ d'.screen = d.taken.screen ∧
      (d.Shows → d.taken.Clean R d.takenLines (decide (d.takenLines ≠ [])) →
        d'.Shows ∧ d'.terminal.grid.view = d'.screen.grid.view) := by
  obtain ⟨T, hrun, hT, hstill⟩ := hd.taken.canvas.passes (W := W) hreads
  obtain ⟨hready, hshows⟩ := hd.taken.still hT hstill
  have hframe : Frameable W P { d.taken with terminal := T } d.takenLines :=
    ⟨hasks.direct, hasks.wellFormed, hasks.broad, hasks.styles, hasks.lines⟩
  have hsend {d' : Display H} (hview : view W R { d.taken with terminal := T } (.frame d.takenLines (decide (d.takenLines ≠ []))) =
      some d') : d.takeAndRender W R passed = some d' := by
    rw [Display.takeAndRender, if_pos hreads, send]
    exact Option.bind_eq_some_iff.2 ⟨T, hrun, hview⟩
  by_cases hlines : d.takenLines = []
  · rw [hlines] at hframe hsend ⊢
    simp only [ne_eq, not_true_eq_false, decide_false] at hframe hsend ⊢
    obtain ⟨d', hview, hready', hrest⟩ := hready.incremental hinj hunset hframe
    refine ⟨d', hsend hview, hready', view_screen hview rfl, fun hs hclean => ?_⟩
    obtain ⟨hkeep, hiff⟩ := hrest (hshows hs)
    exact ⟨hkeep (hclean.still hstill), hiff.2 (hclean.still hstill)⟩
  · obtain ⟨d', hview, hinv, hsame⟩ := hready.full hinj hunset (.inr hlines) hframe
    exact ⟨d', hsend hview, hinv.toReady, view_screen hview rfl, fun _ _ => ⟨hinv.shows, hsame⟩⟩

/-- A chunk of output. -/
theorem run_chunk (d : Display H) (es : List Event) :
    d.run W R (es.map fun e => .act (.callback e)) = (d.screen.process W es).map fun s => { d with screen := s } := by
  induction es generalizing d with
  | nil => rfl
  | cons e es ih =>
    rw [List.map_cons, run, List.foldlM_cons, Screen.process_cons]
    change ((d.screen.step W e).map fun s => { d with screen := s }).bind _ = _
    cases d.screen.step W e with
    | none => rfl
    | some s => exact ih { d with screen := s }

theorem Ready.chunk (hd : d.Ready R P) {es : List Event}
    (hasks : Along (view W R) (Asks W R P) d (es.map fun e => .act (.callback e))) {s : Screen}
    (hrun : d.screen.process W es = some s) : Ready R P { d with screen := s } ∧ (d.Shows → Shows { d with screen := s }) := by
  have hall : d.run W R (es.map fun e => .act (.callback e)) = some { d with screen := s } := by
    rw [run_chunk, hrun, Option.map_some]
  refine (hasks.and (.of_forall (P := fun v => ∃ a, v = .act a) (by simp) d)).keeps
    (I := fun d' => d'.Ready R P ∧ (d.Shows → d'.Shows)) (fun d₁ v d₂ h hv hview => ?_) ⟨hd, id⟩ hall
  obtain ⟨hask, a, rfl⟩ := hv
  obtain ⟨hready, hshows⟩ := h.1.act hask hview
  exact ⟨hready, fun hs => hshows (h.2 hs)⟩

/-! ### The first frame -/

/-- What the client writes before its first frame: the history, what is kept of
notifications, and the line feeds that move the history off the screen. -/
def prelude (d : Display H) (passed : List Event) : List Event :=
  let history := if d.screen.state.inAltScreen then [] else d.screen.getHistory
  writeHistory history ++ passed ++ flushHistory d.screen.grid.rows history

/-- The lines of the history. -/
def historyLines (d : Display H) : List Line :=
  if d.screen.state.inAltScreen then [] else d.screen.grid.scrollbackRows.map fun row => ⟨row, d.screen.grid.styleTable⟩

/-- What is asked of a terminal that gets a history. -/
def Greets (W : UnicodeWidth) (P : Finset Style) (d : Display H) : Prop :=
  d.historyLines ≠ [] →
    d.terminal.Prompts P (max (d.terminal.grid.cursorY + d.historyLines.length) (d.terminal.grid.rows - 1)) ∧
      ∀ l ∈ d.historyLines, l.Sendable W P d.screen.grid.cols

omit [DecidableEq H] in
theorem historyLines_events (d : Display H) :
    (if d.screen.state.inAltScreen then [] else d.screen.getHistory) = d.historyLines.map Line.events := by
  unfold historyLines Screen.getHistory
  split
  · rfl
  · rw [List.map_map]
    rfl

/-- A terminal that gets lines at its prompt. -/
theorem canvas_history {T : Screen} {cols rows : Nat} (hT : T.Canvas P cols rows) {lines : List Line}
    (hprompts : T.Prompts P (max (T.grid.cursorY + lines.length) (T.grid.rows - 1))) (hlines : ∀ l ∈ lines, l.Sendable W P cols) :
    ∃ T', T.process W (writeHistory (lines.map Line.events)) = some T' ∧ T'.Canvas P cols rows ∧
      T'.grid.modes = T.grid.modes := by
  have hready := hprompts.ready
  have hroom := hprompts.room
  have hpast := hprompts.inv.past_length
  have habove := hready.y
  rw [hT.cols_eq, hT.rows_eq] at hready
  obtain ⟨T', past', above', hrun, h', htotal, hlen⟩ := hready.lines hlines (by omega)
  -- the rows above the cursor are among those that were there and the lines
  have habove' : above' <:+ T.grid.view.take T.grid.cursorY ++ lines.map (Line.shown cols) := by
    rw [List.append_assoc] at htotal
    refine List.suffix_of_suffix_length_le (htotal ▸ List.suffix_append ..) (List.suffix_append ..) ?_
    rw [hlen, List.length_append, List.length_map]
    exact Nat.min_le_left ..
  have hwhole : ∀ r ∈ above' ++ List.replicate (rows - above'.length) (List.replicate cols blankShown), Whole r := by
    intro r hr
    rcases List.mem_append.1 hr with hr | hr
    · rcases List.mem_append.1 (habove'.subset hr) with hr | hr
      · obtain ⟨row, hrow, rfl⟩ := List.mem_map.1 (List.mem_of_mem_take hr)
        exact whole_shown.2 (hT.paired row hrow)
      · obtain ⟨l, hl, rfl⟩ := List.mem_map.1 hr
        exact (hlines l hl).whole
    · rw [(List.mem_replicate.1 hr).2]
      exact whole_blank cols
  refine ⟨T', hrun, ?_, h'.stage.modes.trans hprompts.modes.symm⟩
  exact
    { inv := h'.stage.inv
      fits := h'.stage.fits
      style := h'.style
      paired := fun row hrow => by
        rw [← h'.stage.vis_eq] at hwhole
        exact whole_shown.1 (hwhole _ (List.mem_map_of_mem hrow))
      direct := h'.stage.modes ▸ TerminalModes.direct_default
      cols_eq := h'.stage.cols_eq
      rows_eq := h'.stage.rows_eq }

omit [DecidableEq H] in
theorem Ready.prelude (hd : d.Ready R P) {passed : List Event} (hreads : ReadsAs passed d.screen.state.queuedNotifications)
    (hgreets : d.Greets W P) :
    ∃ T, d.terminal.process W (d.prelude passed) = some T ∧ T.Canvas P d.screen.grid.cols d.screen.grid.rows ∧
      T.grid.modes = d.terminal.grid.modes := by
  have hpos := hd.viewed.screen.shape.rows_pos
  unfold Display.prelude
  rw [historyLines_events]
  by_cases hnone : d.historyLines = []
  · obtain ⟨T, hrun, hT, hstill⟩ := hd.canvas.passes (W := W) hreads
    refine ⟨T, ?_, hT, hstill.modes⟩
    rw [hnone]
    simpa [writeHistory, flushHistory] using hrun
  · obtain ⟨hprompts, hlines⟩ := hgreets hnone
    obtain ⟨T₁, hrun₁, h₁, hmodes₁⟩ := canvas_history hd.canvas hprompts hlines
    obtain ⟨T₂, hrun₂, h₂, hstill₂⟩ := h₁.passes (W := W) hreads
    obtain ⟨hcup, h₃⟩ := h₂.cup (W := W) (x := 0) (y := d.screen.grid.rows - 1) h₂.cols_pos (by omega)
    rw [Nat.sub_add_cancel hpos] at hcup
    obtain ⟨T₄, hrun₄, h₄, hmodes₄⟩ := Screen.Canvas.Kept.feeds (d.screen.grid.rows - 1) _ h₃
    refine ⟨T₄, ?_, h₄, hmodes₄.trans (hstill₂.modes.trans hmodes₁)⟩
    dsimp only
    rw [flushHistory, if_pos (by simpa using hnone), Screen.process_append, Screen.process_append, hrun₁, Option.bind_some, hrun₂,
      Option.bind_some, Screen.process_cons, hcup, Option.bind_some, hrun₄]

end

end Display

end Retach
