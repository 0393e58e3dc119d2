import Retach.Safety
import Retach.Render
import Retach.Dirty
/-!
# Control characters in what is sent

The application's text reaches the client as characters of cells, as marks and
as the window title. A control character has no width, so it is never put in a
cell; but it becomes a mark where a mark is taken, and a title may hold C1.
-/

open Checked Runs

namespace Retach

/-! ## Rows -/

/-- Nothing sent of the row is a control character. -/
def Row.Plain (r : Row) : Prop := (∀ c ∈ r.cells, c.Plain) ∧ r.MarksPlain

namespace Row

theorem Rewrite.kept_plain {id : StyleId} {r r' : Row} (h : r.Rewrite id r') (hr : r.Plain) : r'.Plain :=
  ⟨fun c hc => (h.cells.2 c hc).elim (hr.1 c) And.right, h.plain hr.2⟩

theorem plain_new (cols : Nat) : (new cols).Plain := by
  refine ⟨fun c hc => ?_, fun e he => absurd he List.not_mem_nil⟩
  obtain rfl := (List.mem_replicate.1 hc).2
  exact (fresh_default 0).2

theorem Plain.fitted {r : Row} (h : r.Plain) (cols : Nat) : (r.fitted cols).Plain := by
  refine ⟨fun c hc => ?_, (r.fitted_marksFrom cols).plain h.2⟩
  rcases mem_fit hc with hc | rfl
  · exact h.1 c hc
  · exact (fresh_default 0).2

end Row

/-- Only a `control` effect puts a control character in a row. -/
theorem Effect.plain {k : Kind} {s s' : Screen} (h : Effect k s s') (hk : k ≠ .control) (hs : s.Inv)
    (hp : ∀ row ∈ s.allRows, row.Plain) : ∀ row ∈ s'.allRows, row.Plain :=
  h.keeps_rows hs (fun _ _ _ he hr => he.kept_plain hr) (fun _ _ _ _ he hr => he.kept_plain hr) (fun hc => absurd hc hk)
    (fun cols _ _ => ⟨Row.plain_new cols, fun _ hr => hr.fitted cols⟩) hp

/-! ## Titles -/

/-- The encoding of a control character stands in the bytes. -/
def Controls (bytes : List UInt8) : Prop := ∃ c, IsControl c ∧ String.utf8EncodeChar c <:+: bytes

/-- The title as it is sent. -/
def sanitized (title : List UInt8) : List UInt8 := title.filter fun b => b ≥ 0x20 ∧ b ≠ 0x7f

/-- Sanitized, the title and those that may come back hold no control
character. -/
def ScreenState.TitlesPlain (st : ScreenState) : Prop := ∀ t ∈ st.title :: st.titleStack, ¬ Controls (sanitized t)

theorem Controls.mono {t t' : List UInt8} (h : Controls (sanitized t)) (hpre : t <+: t') : Controls (sanitized t') := by
  obtain ⟨c, hc, hin⟩ := h
  exact ⟨c, hc, hin.trans (hpre.filter _).isInfix⟩

theorem ScreenState.TitlesPlain.keeps {st st' : ScreenState} (h : st.TitlesPlain) (hkeeps : st.KeepsTitles st') :
    st'.TitlesPlain := fun t' ht' hc => by
  obtain ⟨t, ht, hpre⟩ := hkeeps t' ht'
  exact h t ht (hc.mono hpre)

theorem not_controls_nil : ¬ Controls (sanitized []) := by
  rintro ⟨c, -, hin⟩
  exact String.utf8EncodeChar_ne_nil (List.infix_nil.1 hin)

/-- Only an OSC sequence brings a new title. -/
theorem Effect.titlesPlain {k : Kind} {s s' : Screen} (h : Effect k s s') (hosc : k ≠ .osc) (htitle : k ≠ .title)
    (hp : s.state.TitlesPlain) : s'.state.TitlesPlain := by
  cases h with
  | aux st ha hquiet htitles => exact hp.keeps htitles
  | osc => exact absurd rfl hosc
  | longTitle => exact absurd rfl htitle
  | reset =>
    intro t ht
    obtain rfl := List.mem_singleton.1 ht
    exact not_controls_nil
  | _ => exact hp

/-! ## Runs -/

/-- The title that the event sets holds no control character that is sent. -/
def Event.TitlePlain : Event → Prop
  | .osc (num :: title :: _) _ =>
    (Screen.parseU16 num = some 0 ∨ Screen.parseU16 num = some 2) ∧ Screen.isUtf8 title = true →
      ¬ Controls (sanitized (title.take Screen.maxTitleLen))
  | _ => True

namespace Screen

variable (W : UnicodeWidth)

/-- The action makes no control character a mark and puts none in the title. -/
def ActPlain (s : Screen) : Action → Prop
  | .callback e => EveryPrint W (fun s c => ¬ s.MarksControl c) s e ∧ e.TitlePlain
  | _ => True

/-- No row and no title holds a control character that is sent. -/
structure Clean (s : Screen) : Prop where
  rows : ∀ row ∈ s.allRows, row.Plain
  titles : s.state.TitlesPlain

variable {W}

theorem steps_clean {allowed : Kind → Prop} (hcontrol : ¬ allowed .control) (hosc : ¬ allowed .osc) (htitle : ¬ allowed .title)
    {s s' : Screen} (h : Steps Effect allowed s s') (hs : s.Inv) (hp : s.Clean) : s'.Clean :=
  (h.keeps (P := fun t => t.Inv ∧ t.Clean) (fun _ _ _ hk he ht =>
    ⟨he.inv ht.1, he.plain (fun hc => hcontrol (hc ▸ hk)) ht.1 ht.2.rows,
      he.titlesPlain (fun hc => hosc (hc ▸ hk)) (fun hc => htitle (hc ▸ hk)) ht.2.titles⟩) ⟨hs, hp⟩).2

/-- An OSC sequence that sets no control character as title. -/
theorem osc_clean {s s' : Screen} {params : List (List UInt8)} {bell : Bool} (hp : s.Clean)
    (hplain : Event.TitlePlain (.osc params bell)) (hstep : s.oscDispatch params bell = some s') : s'.Clean := by
  have hsame : ∀ st : ScreenState, st.savedGrid = s.state.savedGrid → st.TitlesPlain → ({ s with state := st } : Screen).Clean :=
    fun st hst ht => ⟨fun row hr => hp.rows row (by simpa [allRows, hst] using hr), ht⟩
  have hstack : ∀ t ∈ s.state.titleStack, ¬ Controls (sanitized t) := fun t ht => hp.titles t (List.mem_cons_of_mem _ ht)
  unfold oscDispatch at hstep
  split at hstep
  · obtain rfl := Option.some.inj hstep
    exact hp
  next num rest =>
    dsimp only at hstep
    split at hstep
    next hnum =>
      split at hstep
      next title tail =>
        split at hstep
        next hutf =>
          have hset : ∀ t, t = title.take maxTitleLen → ({ s with state := { s.state with title := t } } : Screen).Clean :=
            fun t ht => hsame _ rfl (List.forall_mem_cons.2 ⟨ht ▸ hplain ⟨hnum, hutf⟩, hstack⟩)
          split at hstep
          next hle =>
            obtain rfl := Option.some.inj hstep
            exact hset title (List.take_of_length_le hle).symm
          next =>
            obtain ⟨t, ht, hstep⟩ := Option.bind_eq_some_iff.1 hstep
            obtain ⟨-, -, ht⟩ := Option.bind_eq_some_iff.1 ht
            obtain rfl := Option.some.inj hstep
            exact hset t (Option.some.inj ht).symm
        next =>
          obtain rfl := Option.some.inj hstep
          exact hp
      next =>
        obtain rfl := Option.some.inj hstep
        exact hp
    next =>
      split at hstep
      · obtain rfl := Option.some.inj hstep
        exact hsame _ rfl hp.titles
      · obtain rfl := Option.some.inj hstep
        exact hsame _ (pushPassthrough_aux _ _).savedGrid (hp.titles.keeps (pushPassthrough_titles _ _))

theorem act_clean {s s' : Screen} {a : Action} (h : s.Inv) (hp : s.Clean) (hsized : a.Sized) (hplain : s.ActPlain W a)
    (hact : s.act W a = some s') : s'.Clean := by
  let allowed : Kind → Prop := fun k => k ≠ .control ∧ k ≠ .osc ∧ k ≠ .title
  have hsteps : Steps Effect allowed s s' → s'.Clean := fun hsteps =>
    steps_clean (by simp [allowed]) (by simp [allowed]) (by simp [allowed]) hsteps h hp
  cases a with
  | callback e =>
    by_cases hosc : e.IsOsc
    · unfold Event.IsOsc at hosc
      split at hosc
      · exact osc_clean hp hplain.2 hact
      · exact hosc.elim
    · refine hsteps (step_leads h e ?_ s' hact)
      exact {
        other := by simp [allowed]
        move := by simp [allowed]
        modes := by simp [allowed]
        orphan := everyPrint_of_forall W (by simp [allowed]) s e
        control := by simpa [allowed] using hplain.1
        save := everySave_of_forall (by simp [allowed]) s e
        enter := by simp [allowed]
        exit := by simp [allowed]
        clear := by simp [allowed]
        reset := by simp [allowed]
        title := fun ho => absurd (by unfold Event.OscBounded; split; exact absurd trivial hosc; trivial) ho
        osc := fun ho => absurd ho hosc }
  | resize cols rows => exact hsteps ((resize_does (by simp [allowed]) h hsized.1 hsized.2).leads s' hact)
  | takeScrollback => exact hsteps ((Takes.of_steps (.single (by simp [allowed]) .takeScrollback)).leads s' hact)

/-! ## What is sent -/

/-- No control character of the callback's bytes comes from the application. The
callbacks of a frame's own sequences print nothing; its only OSC sequence has the
title, which the callback may hold cut short. -/
def Sends (s : Screen) : Event → Prop
  | .print c => ¬ IsControl c
  | .execute byte => byte = 0x0e ∨ byte = 0x0f
  | .osc params bell => .osc params bell = titleEvent s.state.title ∧ ¬ Controls (sanitized s.state.title)
  | .csi _ _ _ | .esc _ _ => True

end Screen

theorem Row.MarksPlain.marks {row : Row} (h : row.MarksPlain) {x : Nat} {m : Char} (hm : m ∈ row.marks x) : ¬ IsControl m := by
  unfold Row.marks at hm
  split at hm
  next ms he => exact h _ (List.mem_of_find?_eq_some he) m hm
  next => exact absurd hm List.not_mem_nil

namespace Screen

variable {s : Screen}

theorem sends_paintCells {row : Row} (hrow : row.Plain) (t : StyleTable) (last : StyleId) (x : Nat) {cells : List Cell}
    (hcells : ∀ c ∈ cells, c ∈ row.cells) : ∀ e ∈ (paintCells t row last x cells).1, s.Sends e := by
  induction cells generalizing last x with
  | nil => exact fun e he => absurd he List.not_mem_nil
  | cons cell cells ih =>
    have hrest : ∀ c ∈ cells, c ∈ row.cells := fun c hc => hcells c (List.mem_cons_of_mem cell hc)
    unfold paintCells
    by_cases hwidth : cell.width = 0
    · rw [if_pos hwidth]
      exact ih last (x + 1) hrest
    · rw [if_neg hwidth]
      have hcell : s.Sends (.print cell.c) := hrow.1 cell (hcells cell List.mem_cons_self) hwidth
      have hmarks : ∀ e ∈ (row.marks x).map Event.print, s.Sends e :=
        List.forall_mem_map.2 fun m hm => hrow.2.marks hm
      refine List.forall_mem_append.2 ⟨List.forall_mem_append.2 ⟨Lists.forall_mem_ite ?_, ?_⟩, ih _ _ hrest⟩
      · exact List.forall_mem_singleton.2 trivial
      · exact List.forall_mem_cons.2 ⟨hcell, hmarks⟩

theorem sends_renderLine {row : Row} (hrow : row.Plain) (t : StyleTable) : ∀ e ∈ renderLine row t, s.Sends e :=
  List.forall_mem_append.2 ⟨sends_paintCells hrow t 0 0 fun _ hc => List.mem_of_mem_take hc,
    Lists.forall_mem_ite (List.forall_mem_singleton.2 trivial)⟩

theorem sends_renderRow {row : Row} (hrow : row.Plain) (t : StyleTable) (full : Bool) (y : Nat) :
    ∀ e ∈ renderRow t full y row, s.Sends e := by
  refine List.forall_mem_append.2 ⟨List.forall_mem_cons.2 ⟨trivial, ?_⟩, ?_⟩
  · exact sends_paintCells hrow t 0 0 fun _ hc => List.mem_of_mem_take hc
  · cases full <;> simp [Event.sgrReset, Event.el, Sends]

theorem sends_decMode (s : Screen) (code : Nat) (enabled : Bool) : s.Sends (emitDecMode code enabled) := by
  cases enabled <;> trivial

theorem sends_active (s : Screen) (active : ActiveCharset) : s.Sends (emitActive active) := by
  cases active
  · exact .inr rfl
  · exact .inl rfl

theorem sends_mouse (s : Screen) (encoding : MouseEncoding) : ∀ e ∈ emitMouseEncoding encoding, s.Sends e := by
  cases encoding <;> exact List.forall_mem_cons.2 ⟨trivial, List.forall_mem_singleton.2 trivial⟩

theorem sends_onChange (s : Screen) {α : Type} [DecidableEq α] (a prev : α) {es : List Event} (h : ∀ e ∈ es, s.Sends e) :
    ∀ e ∈ onChange a prev es, s.Sends e := Lists.forall_mem_ite h

theorem sends_one {s : Screen} {e : Event} (h : s.Sends e) : ∀ e' ∈ [e], s.Sends e' := List.forall_mem_singleton.2 h

/-- The only control characters among the modes are SI and SO. -/
theorem sends_modeEvents (s : Screen) (m : TerminalModes) (full : Bool) (prev : Option TerminalModes) :
    ∀ e ∈ modeEvents m full prev, s.Sends e := by
  have hshape : s.Sends (emitCursorShape m.cursorShape) := trivial
  have hkeypad : s.Sends (emitKeypad m.keypadAppMode) := trivial
  have hcharset (slot : Char) (charset : Charset) : s.Sends (emitCharset slot charset) := trivial
  have hall : ∀ e ∈ emitMode m, s.Sends e := by
    simp only [emitMode, List.forall_mem_append, List.forall_mem_cons, List.not_mem_nil, false_imp_iff, implies_true, and_true]
    exact ⟨⟨⟨hshape, s.sends_decMode _ _, s.sends_decMode _ _, s.sends_decMode _ _, s.sends_decMode _ _, s.sends_decMode _ _,
      s.sends_decMode _ _, s.sends_decMode _ _⟩, s.sends_mouse _⟩, s.sends_decMode _ _, hkeypad, hcharset _ _, hcharset _ _,
      s.sends_active _⟩
  unfold modeEvents
  split
  next prev =>
    split
    · simp only [emitModeDelta, List.forall_mem_append, and_assoc]
      have hdec (a b : Bool) (code : Nat) := s.sends_onChange a b (sends_one (s.sends_decMode code a))
      exact ⟨s.sends_onChange _ _ (sends_one hshape), hdec _ _ _, hdec _ _ _, hdec _ _ _, hdec _ _ _, hdec _ _ _, hdec _ _ _,
        hdec _ _ _, s.sends_onChange _ _ (s.sends_mouse _), hdec _ _ _, s.sends_onChange _ _ (sends_one hkeypad),
        s.sends_onChange _ _ (sends_one (hcharset _ _)), s.sends_onChange _ _ (sends_one (hcharset _ _)),
        s.sends_onChange _ _ (sends_one (s.sends_active _))⟩
    · exact hall
  next => exact hall

section Frames

variable {H : Type} [DecidableEq H] (R : RowHash H)

theorem sends_renderRows {rows : List Row} (hrows : ∀ row ∈ rows, row.Plain) (t : StyleTable) (full : Bool) (y : Nat)
    (hashes : List H) : ∀ e ∈ (renderRows R t full y rows hashes).1, s.Sends e := by
  induction rows generalizing y hashes with
  | nil => exact fun e he => absurd he List.not_mem_nil
  | cons row rows ih =>
    cases hashes with
    | nil => exact fun e he => absurd he List.not_mem_nil
    | cons hash hashes =>
      have hrest := ih (fun r hr => hrows r (List.mem_cons_of_mem row hr)) (y + 1) hashes
      rw [renderRows]
      split
      · exact hrest
      · exact List.forall_mem_append.2 ⟨sends_renderRow (hrows row List.mem_cons_self) t full y, hrest⟩

/-- Every callback of a frame. -/
theorem Clean.render (h : s.Clean) (hs : s.Inv) (full : Bool) (cache : RenderCache H) :
    ∀ e ∈ (s.render R full cache).1, s.Sends e := by
  have hrows : ∀ row ∈ s.grid.visibleRows, row.Plain := fun row hr => h.rows row (hs.visible_mem hr)
  have htitle : s.Sends (titleEvent s.state.title) := ⟨rfl, h.titles _ List.mem_cons_self⟩
  have hclear : ∀ e ∈ clearEvents full, s.Sends e := by
    cases full
    · exact fun e he => absurd he List.not_mem_nil
    · simp [clearEvents, Event.sgrReset, Sends]
  have hbody : ∀ e ∈ (renderBody R s.grid s.state.title full cache).1, s.Sends e := by
    simp only [renderBody, renderModesTitleCursor, List.forall_mem_append]
    exact ⟨⟨hclear, sends_renderRows R hrows _ _ _ _⟩, ⟨⟨Lists.forall_mem_ite (sends_one trivial), s.sends_modeEvents _ _ _⟩,
      Lists.forall_mem_ite (sends_one trivial)⟩, Lists.forall_mem_ite (sends_one htitle)⟩
  unfold Screen.render renderScreenImpl
  simp only [ne_eq, not_true_eq_false, if_false, decide_false, Bool.or_false, List.nil_append]
  split
  · exact fun e he => absurd he List.not_mem_nil
  · refine List.forall_mem_append.2 ⟨List.forall_mem_append.2 ⟨List.forall_mem_append.2 ⟨?_, hbody⟩, ?_⟩, sends_one trivial⟩
    · exact List.forall_mem_cons.2 ⟨trivial, sends_one trivial⟩
    · exact Lists.forall_mem_ite (sends_one trivial)

end Frames

/-! ## The theorem -/

variable (W : UnicodeWidth)

/-- As long as no control character is printed where a mark is taken, and none is
put in a title, frames and lines hold no control characters but the renderer's
own. -/
theorem controls_kept {cols rows : Nat} (limit : Nat) (hcols : cols ≤ 65535) (hrows : rows ≤ 65535) {as : List Action}
    (hsized : ∀ a ∈ as, a.Sized) (hplain : Along (act W) (ActPlain W) (Screen.new cols rows limit) as)
    (hrun : (Screen.new cols rows limit).run W as = some s) :
    (∀ {H : Type} [DecidableEq H] (R : RowHash H) (full : Bool) (cache : RenderCache H), ∀ e ∈ (s.render R full cache).1, s.Sends e) ∧
    (∀ line ∈ s.getHistory, ∀ e ∈ line, s.Sends e) ∧
    ∀ row ∈ s.takePendingScrollback.1, ∀ e ∈ renderLine row s.grid.styleTable, s.Sends e := by
  have hnew : (Screen.new cols rows limit).Clean := by
    refine ⟨fun row hr => ?_, List.forall_mem_singleton.2 not_controls_nil⟩
    simp only [allRows, Screen.new, Grid.new, SavedGrid.rows, List.append_nil, List.mem_replicate] at hr
    obtain ⟨-, rfl⟩ := hr
    exact Row.plain_new _
  obtain ⟨hs, h⟩ : s.Inv ∧ s.Clean := ((Along.of_forall hsized _).and hplain).keeps (I := fun s => s.Inv ∧ s.Clean)
    (fun s a s' hs hp hact => ⟨act_inv W hs.1 hp.1 hact, act_clean hs.1 hs.2 hp.1 hp.2 hact⟩) ⟨new_inv limit hcols hrows, hnew⟩ hrun
  have hback : ∀ row ∈ s.grid.scrollbackRows, row.Plain := fun row hr =>
    h.rows row (List.mem_append_left _ (List.mem_of_mem_take hr))
  refine ⟨fun R full cache => h.render R hs full cache, fun line hline => ?_, fun row hrow => ?_⟩
  · obtain ⟨row, hrow, rfl⟩ := List.mem_map.1 hline
    exact sends_renderLine (hback row hrow) _
  · exact sends_renderLine (hback row (List.mem_of_mem_drop (List.mem_of_mem_take hrow))) _

/-- A letter and an accent. -/
theorem controls_kept_sample : ∃ s, (Screen.new 2 1 10).run .sample [.callback (.print 'a'), .callback (.print '\u0301')] = some s ∧
    ∀ e ∈ (s.render Viewed.rowHash true {}).1, s.Sends e := by
  obtain ⟨s, hrun⟩ : ∃ s, (Screen.new 2 1 10).run .sample [.callback (.print 'a'), .callback (.print '\u0301')] = some s :=
    ⟨_, rfl⟩
  have hmap : ∀ s : Screen, ¬ IsControl (s.mapCharset 'a') ∧ ¬ IsControl (s.mapCharset '\u0301') := fun s => by
    unfold mapCharset
    split <;> decide
  refine ⟨s, hrun, (controls_kept .sample 10 (by decide) (by decide) (by simp [Action.Sized]) ?_ hrun).1 Viewed.rowHash true {}⟩
  exact ⟨⟨fun h => (hmap _).1 h.1, trivial⟩, fun s _ => ⟨⟨fun h => (hmap s).2 h.1, trivial⟩, fun _ _ => trivial⟩⟩

/-- U+009B is sent to the client, behind a letter or in a title. -/
theorem controls_smuggled :
    (∃ s, (Screen.new 2 1 10).run .sample [.callback (.print 'a'), .callback (.print '\u009b')] = some s ∧
      ¬ ∀ e ∈ (s.render Viewed.rowHash true {}).1, s.Sends e) ∧
    ∃ s, (Screen.new 2 1 10).run .sample [.callback (.osc [[0x32], [0xc2, 0x9b]] true)] = some s ∧
      ¬ ∀ e ∈ (s.render Viewed.rowHash true {}).1, s.Sends e := by
  constructor
  · obtain ⟨s, hrun, hmem⟩ : ∃ s, (Screen.new 2 1 10).run .sample [.callback (.print 'a'), .callback (.print '\u009b')] = some s ∧
        Event.print '\u009b' ∈ (s.render Viewed.rowHash true {}).1 := ⟨_, rfl, by decide⟩
    exact ⟨s, hrun, fun h => h _ hmem (by decide)⟩
  · obtain ⟨s, hrun, hmem, htitle⟩ : ∃ s, (Screen.new 2 1 10).run .sample [.callback (.osc [[0x32], [0xc2, 0x9b]] true)] = some s ∧
        Event.osc [[0x32], [0xc2, 0x9b]] true ∈ (s.render Viewed.rowHash true {}).1 ∧ s.state.title = [0xc2, 0x9b] :=
      ⟨_, rfl, by decide, rfl⟩
    refine ⟨s, hrun, fun h => (h _ hmem).2 ⟨'\u009b', by decide, ?_⟩⟩
    rw [htitle]
    decide

end Screen

end Retach
