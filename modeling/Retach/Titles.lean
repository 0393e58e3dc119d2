import Retach.Keeping
import Retach.ModeSync
/-!
# The window title

The parser cuts the payload of an OSC sequence at its semicolons. All other
sequences are put together again, but of a title only the first piece is kept.
This piece reaches the client's terminal with every frame that sends a title.
-/

open Checked Runs

namespace Retach

/-! ## The pieces of a payload -/

/-- A byte of ASCII in the encoding of a character is that character. -/
theorem ascii_of_mem_utf8EncodeChar {c : Char} {b : UInt8} (hb : b.toNat < 0x80) (h : b ∈ String.utf8EncodeChar c) :
    c.toNat = b.toNat := by
  have hlong : ∀ n, 0x80 ≤ n → n < 0x100 → b ≠ UInt8.ofNat n := by
    rintro n hle hlt rfl
    rw [UInt8.toNat_ofNat', Nat.mod_eq_of_lt hlt] at hb
    omega
  unfold String.utf8EncodeChar at h
  dsimp only at h
  split at h
  next hle =>
    obtain rfl := List.mem_singleton.1 h
    rw [UInt8.toNat_ofNat', Nat.mod_eq_of_lt (Nat.lt_of_le_of_lt hle (by decide))]
    rfl
  next =>
    -- every byte of a longer encoding has its highest bit set
    refine absurd h ?_
    split
    · simp only [List.mem_cons, List.not_mem_nil, or_false, not_or]
      exact ⟨hlong _ (by omega) (by omega), hlong _ (by omega) (by omega)⟩
    · split
      · simp only [List.mem_cons, List.not_mem_nil, or_false, not_or]
        exact ⟨hlong _ (by omega) (by omega), hlong _ (by omega) (by omega), hlong _ (by omega) (by omega)⟩
      · simp only [List.mem_cons, List.not_mem_nil, or_false, not_or]
        exact ⟨hlong _ (by omega) (by omega), hlong _ (by omega) (by omega), hlong _ (by omega) (by omega),
          hlong _ (by omega) (by omega)⟩

/-- Cutting the bytes at the first semicolon cuts the text there. -/
theorem takeWhile_flatMap_utf8EncodeChar (cs : List Char) :
    (cs.flatMap String.utf8EncodeChar).takeWhile (· ≠ 0x3b) = (cs.takeWhile (· ≠ ';')).flatMap String.utf8EncodeChar := by
  induction cs with
  | nil => rfl
  | cons c cs ih =>
    rw [List.flatMap_cons]
    by_cases hc : c = ';'
    · subst hc
      rfl
    · have hbytes : ∀ b ∈ String.utf8EncodeChar c, decide (b ≠ 0x3b) = true := by
        intro b hb
        rw [decide_eq_true_iff]
        rintro rfl
        have hcode : c.toNat = ';'.toNat := ascii_of_mem_utf8EncodeChar (by decide) hb
        exact hc (Char.toNat_inj.1 hcode)
      rw [List.takeWhile_append_of_pos hbytes, ih, List.takeWhile_cons_of_pos (by simpa using hc), List.flatMap_cons]

namespace Screen

theorem isUtf8_iff (bytes : List UInt8) : isUtf8 bytes = true ↔ ∃ cs : List Char, bytes = cs.flatMap String.utf8EncodeChar := by
  rw [isUtf8, ByteArray.validateUTF8_eq_true_iff]
  constructor
  · rintro ⟨cs, hcs⟩
    refine ⟨cs, ?_⟩
    have hdata := congrArg (fun a => a.data.toList) hcs
    simpa [List.utf8Encode] using hdata
  · rintro ⟨cs, rfl⟩
    refine ⟨cs, ?_⟩
    simp [List.utf8Encode, ByteArray.ext_iff]

theorem isUtf8_takeWhile {bytes : List UInt8} (h : isUtf8 bytes = true) : isUtf8 (bytes.takeWhile (· ≠ 0x3b)) = true := by
  obtain ⟨cs, rfl⟩ := (isUtf8_iff bytes).1 h
  exact (isUtf8_iff _).2 ⟨cs.takeWhile (· ≠ ';'), takeWhile_flatMap_utf8EncodeChar cs⟩

variable {W : UnicodeWidth} {s T : Screen} {t : List UInt8}

/-! ## Painting -/

/-- The result has title `t`. -/
def Titled (t : List UInt8) (x : Option Screen) : Prop := Ends (fun s => s.state.title = t) x

theorem pushPassthrough_title (st : ScreenState) (data : List UInt8) : (st.pushPassthrough data).title = st.title := by
  unfold ScreenState.pushPassthrough
  split <;> rfl

/-- What is not in the grid does not change with it. -/
theorem rest_stable (p : Prop) : Grid.Stable (fun _ => True) fun _ => p where
  cursorX _ _ h := h
  wrapPending _ _ h := h
  change _ _ _ _ h := .after fun _ => .after fun _ => .pure h
  mark _ _ _ _ _ _ _ _ h := h
  rows _ _ _ h := h
  boundary _ _ _ h := h

/-- Painting leaves the title alone. -/
theorem title_stable (t : List UInt8) : Screen.PrintStable (fun _ => True) True fun s => s.state.title = t where
  grid s := rest_stable (s.state.title = t)
  mends s := (rest_stable (s.state.title = t)).mends Cell.written_any
  intern _ style h := internWithGc_ends (R := fun s => s.state.title = t) (fun _ => h) style
  scrolledOff _ _ h := h
  passthrough _ _ h := (pushPassthrough_title _ _).trans h
  cursorY _ _ h := h
  printed _ _ h := h

theorem csiSetScrollingRegion_titled (h : s.state.title = t) (top bottom : Nat) : Titled t (s.csiSetScrollingRegion top bottom) := by
  refine .after fun last => ?_
  dsimp only
  split <;> exact .pure h

theorem paints_titled {e : Event} (he : e.Paints) (h : s.state.title = t) : Titled t (s.step W e) := by
  unfold Event.Paints at he
  split at he
  · exact (title_stable t).print W h _ (.inr trivial)
  · subst he
    exact (title_stable t).lineFeed h
  · subst he
    exact (title_stable t).csiEraseDisplay h 2
  · rcases he with rfl | rfl | rfl | rfl
    · exact .after fun _ => .after fun _ => .pure h
    · exact .pure h
    · exact (title_stable t).csiEraseLine h _
    · exact csiSetScrollingRegion_titled h _ _
  · exact he.elim

/-! ## What passes over the title -/

/-- The event leaves the title alone, and on at most 65533 columns it
succeeds. -/
def Passes (W : UnicodeWidth) (e : Event) : Prop :=
  ∀ T : Screen, T.Inv → Titled T.state.title (T.step W e) ∧ (T.grid.cols ≤ 65533 → ∃ T', T.step W e = some T')

theorem passes_paints {e : Event} (he : e.Paints) : Passes W e := fun _ h =>
  ⟨paints_titled he rfl, fun hcols => (paints_does W he h (everyPrint_narrow W h hcols e)).imp fun _ hT => hT.1⟩

theorem passes_setModes {e : Event} (he : ∀ T : Screen, ∃ home f, T.step W e = some ((T.homed home).setModes f)) : Passes W e := by
  intro T _
  obtain ⟨home, f, hstep⟩ := he T
  rw [hstep]
  refine ⟨.pure ?_, fun _ => ⟨_, rfl⟩⟩
  cases home <;> rfl

/-- Showing or hiding the cursor, and synchronized output. -/
theorem passes_decMode {code : Nat} (hcode : code = 25 ∨ code = 2026) (enable : Bool) : Passes W (emitDecMode code enable) := by
  intro T _
  rcases hcode with rfl | rfl <;> cases enable <;> exact ⟨.pure rfl, fun _ => ⟨_, rfl⟩⟩

theorem passes_emitMouseEncoding (encoding : MouseEncoding) : ∀ e ∈ emitMouseEncoding encoding, Passes W e := by
  intro e he
  cases encoding <;>
  · simp only [emitMouseEncoding, List.mem_cons, List.not_mem_nil, or_false] at he
    rcases he with rfl | rfl <;> exact passes_setModes fun T => ⟨false, _, rfl⟩

theorem passes_emitMode (m : TerminalModes) : ∀ e ∈ emitMode m, Passes W e := by
  intro e he
  simp only [emitMode, List.mem_append, List.mem_cons, List.not_mem_nil, or_false] at he
  rcases he with ((rfl | rfl | rfl | rfl | rfl | rfl | rfl | rfl) | he) | rfl | rfl | rfl | rfl | rfl
  · exact passes_setModes fun T => ⟨false, _, step_cursorShape W T _⟩
  · exact passes_setModes fun T => ⟨false, _, step_cursorKeyMode W T _⟩
  · exact passes_setModes fun T => ⟨_, _, step_originMode W T _⟩
  · exact passes_setModes fun T => ⟨false, _, step_autowrapMode W T _⟩
  · exact passes_setModes fun T => ⟨false, _, step_bracketedPaste W T _⟩
  · exact passes_setModes fun T => ⟨false, _, step_mouseClick W T _⟩
  · exact passes_setModes fun T => ⟨false, _, step_mouseButton W T _⟩
  · exact passes_setModes fun T => ⟨false, _, step_mouseAny W T _⟩
  · exact passes_emitMouseEncoding _ e he
  · exact passes_setModes fun T => ⟨false, _, step_focusReporting W T _⟩
  · exact passes_setModes fun T => ⟨false, _, step_keypad W T _⟩
  · exact passes_setModes fun T => ⟨false, _, step_g0Charset W T _⟩
  · exact passes_setModes fun T => ⟨false, _, step_g1Charset W T _⟩
  · exact passes_setModes fun T => ⟨false, _, step_active W T _⟩

theorem passes_modeEvents (m : TerminalModes) (full : Bool) (last : Option TerminalModes) :
    ∀ e ∈ modeEvents m full last, Passes W e := fun e he => passes_emitMode m e (mem_emitMode_of_mem_modeEvents he)

theorem process_passes {es : List Event} (hes : ∀ e ∈ es, Passes W e) (h : T.Inv) :
    Titled T.state.title (T.process W es) ∧ (T.grid.cols ≤ 65533 → ∃ T', T.process W es = some T') := by
  induction es generalizing T with
  | nil => exact ⟨.pure rfl, fun _ => ⟨T, rfl⟩⟩
  | cons e es ih =>
    obtain ⟨htitle, hlands⟩ := hes e List.mem_cons_self T h
    have hrest : ∀ T₁, T.step W e = some T₁ → T₁.Inv ∧ T₁.grid.cols = T.grid.cols := fun T₁ hT₁ =>
      have hsteps := step_steps W h hT₁
      ⟨steps_inv hsteps h, (steps_dims (by simp) hsteps).1⟩
    rw [process_cons]
    constructor
    · intro T' hT'
      obtain ⟨T₁, hT₁, hT'⟩ := Option.bind_eq_some_iff.1 hT'
      have hkept := (ih (fun e he => hes e (List.mem_cons_of_mem _ he)) (hrest T₁ hT₁).1).1 T' hT'
      exact hkept.trans (htitle T₁ hT₁)
    · intro hcols
      obtain ⟨T₁, hT₁⟩ := hlands hcols
      rw [hT₁, Option.bind_some]
      obtain ⟨hinv, hsame⟩ := hrest T₁ hT₁
      exact (ih (fun e he => hes e (List.mem_cons_of_mem _ he)) hinv).2 (hsame ▸ hcols)

/-! ## Setting a title -/

/-- `ESC ] 2 ; t BEL`, with fewer semicolons than the parser takes. -/
def oscTitle (t : List UInt8) : Event := .osc ([0x32] :: splitParams t) true

@[inherit_doc ScreenState.title]
def setTitle (s : Screen) (title : List UInt8) : Screen := { s with state := { s.state with title } }

/-- The title is the first piece. -/
theorem step_oscTitle (hutf8 : isUtf8 t = true) (hlen : t.length ≤ maxTitleLen) :
    s.step W (oscTitle t) = some (s.setTitle (t.takeWhile (· ≠ 0x3b))) := by
  obtain ⟨ps, hps⟩ := splitParams_head t
  have hnum : parseU16 [0x32] = some 2 := rfl
  have hpiece : (t.takeWhile (· ≠ 0x3b)).length ≤ maxTitleLen := Nat.le_trans (List.takeWhile_prefix _).length_le hlen
  change s.oscDispatch ([0x32] :: splitParams t) true = _
  rw [hps]
  simp only [oscDispatch, hnum, or_true, if_true, if_pos (isUtf8_takeWhile hutf8), if_pos hpiece, Option.bind_eq_bind,
    Option.bind_some]
  rfl

/-- A title that frames pass on as it is. -/
structure Portable (t : List UInt8) : Prop where
  utf8 : isUtf8 t = true
  plain : ∀ b ∈ t, 0x20 ≤ b ∧ b ≠ 0x7f
  whole : 0x3b ∉ t
  length_le : t.length ≤ 1023

theorem takeWhile_of_notMem (h : 0x3b ∉ t) : t.takeWhile (· ≠ 0x3b) = t :=
  List.takeWhile_eq_self_iff.2 fun _ hb => decide_eq_true fun hsep => h (hsep ▸ hb)

theorem notMem_takeWhile (t : List UInt8) : 0x3b ∉ t.takeWhile (· ≠ 0x3b) := fun h => by
  simpa using List.mem_takeWhile_imp h

theorem Portable.step_titleEvent (ht : Portable t) : T.step W (titleEvent t) = some (T.setTitle t) := by
  have hsame : oscKept 1023 (t.filter fun b => b ≥ 0x20 ∧ b ≠ 0x7f) = t := by
    rw [List.filter_eq_self.2 fun b hb => decide_eq_true (ht.plain b hb), oscKept_of_length_le ht.length_le]
  have hstep := step_oscTitle (W := W) (s := T) ht.utf8 (Nat.le_trans ht.length_le (by decide))
  rw [takeWhile_of_notMem ht.whole] at hstep
  rw [titleEvent, hsame]
  exact hstep

/-- The first piece of a title without control characters. -/
theorem portable_takeWhile (hutf8 : isUtf8 t = true) (hplain : ∀ b ∈ t, 0x20 ≤ b ∧ b ≠ 0x7f) (hlen : t.length ≤ 1023) :
    Portable (t.takeWhile (· ≠ 0x3b)) where
  utf8 := isUtf8_takeWhile hutf8
  plain b hb := hplain b ((List.takeWhile_prefix _).subset hb)
  whole := notMem_takeWhile t
  length_le := Nat.le_trans (List.takeWhile_prefix _).length_le hlen

/-! ## Frames -/

section

variable {H : Type} [DecidableEq H] (R : RowHash H)

/-- The title comes last in the body of a frame, unless the cache has it. -/
theorem renderBody_titles (g : Grid) (title : List UInt8) (full : Bool) (cache : RenderCache H) :
    ∃ before sent, (renderBody R g title full cache).1 = before ++ sent ∧ (∀ e ∈ before, Passes W e) ∧
      (sent = [titleEvent title] ∨ sent = [] ∧ full = false ∧ title = cache.lastTitle) := by
  have hregion : Passes W (.csi [[g.scrollTop + 1], [g.scrollBottom + 1]] [] 'r') := passes_paints (by simp [Event.Paints])
  have hcup : Passes W (.cup (g.cursorY + 1) (g.cursorX + 1)) := passes_paints (by simp [Event.cup, Event.Paints])
  refine ⟨_, _, (List.append_assoc _ _ _).symm, fun e he => ?_, ?_⟩
  · rcases List.mem_append.1 he with he | he
    · exact passes_paints ((List.mem_append.1 he).elim (clearEvents_paints full e) (renderRows_paints R _ _ _ _ _ e))
    · rcases List.mem_append.1 he with he | he
      · rcases List.mem_append.1 he with he | he
        · exact Lists.forall_mem_ite (List.forall_mem_singleton.2 hregion) e he
        · exact passes_modeEvents _ _ _ e he
      · exact Lists.forall_mem_ite (List.forall_mem_singleton.2 hcup) e he
  · cases full with
    | true => exact .inl (if_pos (.inl rfl))
    | false =>
      by_cases hlast : title = cache.lastTitle
      · exact .inr ⟨if_neg (not_or.2 ⟨Bool.false_ne_true, not_not_intro hlast⟩), rfl, hlast⟩
      · exact .inl (if_pos (.inr hlast))

/-- So in a frame. -/
theorem renderScreenImpl_titles (g : Grid) (title : List UInt8) {scrollback : List (List Event)}
    (hlines : ∀ line ∈ scrollback, ∀ e ∈ line, e.Paints) (full : Bool) (cache : RenderCache H) :
    ∃ before sent after, (renderScreenImpl R g title scrollback full cache).1 = before ++ sent ++ after ∧
      (∀ e ∈ before, Passes W e) ∧ (∀ e ∈ after, Passes W e) ∧
      (sent = [titleEvent title] ∨ sent = [] ∧ full = false ∧ scrollback = [] ∧ title = cache.lastTitle) := by
  have hinjected : ∀ e ∈ if scrollback ≠ [] then renderScrollback g scrollback else [], Passes W e := by
    intro e he
    rw [List.mem_ite_nil_right] at he
    rcases List.mem_cons.1 he.2 with rfl | he
    · exact passes_decMode (.inl rfl) false
    · exact passes_paints (scrollback_paints g hlines e he)
  obtain ⟨before, sent, hbody, hbefore, hsent⟩ := renderBody_titles (W := W) R g title (full || decide (scrollback ≠ []))
    (if scrollback ≠ [] then cache.invalidate else cache)
  have hsent' : sent = [titleEvent title] ∨ sent = [] ∧ full = false ∧ scrollback = [] ∧ title = cache.lastTitle := by
    refine hsent.imp_right fun ⟨hnone, hall, hlast⟩ => ?_
    rw [Bool.or_eq_false_iff, decide_eq_false_iff_not, not_not] at hall
    rw [if_neg (not_not_intro hall.2)] at hlast
    exact ⟨hnone, hall.1, hall.2, hlast⟩
  unfold renderScreenImpl
  dsimp only
  rw [hbody]
  by_cases hempty : before ++ sent = [] ∧ (renderBody R g title (full || decide (scrollback ≠ []))
      (if scrollback ≠ [] then cache.invalidate else cache)).2.lastCursorVisible = some g.cursorVisible
  · rw [if_pos hempty]
    refine ⟨_, sent, [], ?_, hinjected, fun e he => absurd he List.not_mem_nil, hsent'⟩
    rw [(List.append_eq_nil_iff.1 hempty.1).2, List.append_nil, List.append_nil]
  · rw [if_neg hempty]
    refine ⟨(if scrollback ≠ [] then renderScrollback g scrollback else []) ++ [.decSet 2026, .decReset 25] ++ before, sent,
      (if g.cursorVisible then [.decSet 25] else []) ++ [.decReset 2026], by simp only [List.append_assoc], ?_, ?_, hsent'⟩
    · intro e he
      rcases List.mem_append.1 he with he | he
      · rcases List.mem_append.1 he with he | he
        · exact hinjected e he
        · simp only [List.mem_cons, List.not_mem_nil, or_false] at he
          rcases he with rfl | rfl
          · exact passes_decMode (.inr rfl) true
          · exact passes_decMode (.inl rfl) false
      · exact hbefore e he
    · intro e he
      rcases List.mem_append.1 he with he | he
      · exact Lists.forall_mem_ite (List.forall_mem_singleton.2 (passes_decMode (.inl rfl) true)) e he
      · obtain rfl := List.mem_singleton.1 he
        exact passes_decMode (.inr rfl) false

/-- Every frame leaves a terminal with the title of the screen, as long as the
terminal has the title of the cache when the frame may leave the title out. On
at most 65533 columns the terminal takes the frame. -/
def FrameTitles (W : UnicodeWidth) (s : Screen) : Prop :=
  ∀ (T : Screen) (scrollback : List (List Event)) (full : Bool) (cache : RenderCache H), T.Inv →
    (∀ line ∈ scrollback, ∃ row table, line = renderLine row table) →
    (full = false → scrollback = [] → T.state.title = cache.lastTitle) →
    (∀ T', T.process W (renderScreenImpl R s.grid s.state.title scrollback full cache).1 = some T' →
      T'.state.title = s.state.title) ∧
    (T.grid.cols ≤ 65533 → ∃ T', T.process W (renderScreenImpl R s.grid s.state.title scrollback full cache).1 = some T')

theorem frameTitles_of_portable (ht : Portable s.state.title) : s.FrameTitles R W := by
  intro T scrollback full cache h hlines hcache
  have hpaints : ∀ line ∈ scrollback, ∀ e ∈ line, e.Paints := by
    intro line hline
    obtain ⟨row, table, rfl⟩ := hlines line hline
    exact renderLine_paints row table
  obtain ⟨before, sent, after, hframe, hbefore, hafter, hsent⟩ :=
    renderScreenImpl_titles (W := W) R s.grid s.state.title hpaints full cache
  have hkeeps : ∀ {T T' : Screen} {es : List Event}, T.Inv → T.process W es = some T' → T'.Inv ∧ T'.grid.cols = T.grid.cols :=
    fun h hrun => ⟨steps_inv (process_steps W h hrun) h, (steps_dims (by simp) (process_steps W h hrun)).1⟩
  obtain ⟨htitle₁, hlands₁⟩ := process_passes hbefore h
  rw [hframe, process_append, process_append]
  have hmiddle : ∀ T₁, T.process W before = some T₁ → ∃ T₂, T₁.process W sent = some T₂ ∧ T₂.Inv ∧
      T₂.grid.cols = T.grid.cols ∧ T₂.state.title = s.state.title := by
    intro T₁ hT₁
    obtain ⟨h₁, hcols₁⟩ := hkeeps h hT₁
    rcases hsent with rfl | ⟨rfl, hfull, hnone, hlast⟩
    · have hone : T₁.process W [titleEvent s.state.title] = some (T₁.setTitle s.state.title) :=
        (process_one ..).trans ht.step_titleEvent
      exact ⟨_, hone, (hkeeps h₁ hone).1, hcols₁, rfl⟩
    · exact ⟨T₁, rfl, h₁, hcols₁, (htitle₁ T₁ hT₁).trans ((hcache hfull hnone).trans hlast.symm)⟩
  constructor
  · intro T' hT'
    obtain ⟨T₂, hT₂, hT'⟩ := Option.bind_eq_some_iff.1 hT'
    obtain ⟨T₁, hT₁, hT₂⟩ := Option.bind_eq_some_iff.1 hT₂
    obtain ⟨T₂', hT₂', h₂, -, htitle₂⟩ := hmiddle T₁ hT₁
    obtain rfl := Option.some.inj (hT₂.symm.trans hT₂')
    exact ((process_passes hafter h₂).1 T' hT').trans htitle₂
  · intro hcols
    obtain ⟨T₁, hT₁⟩ := hlands₁ hcols
    obtain ⟨T₂, hT₂, h₂, hcols₂, -⟩ := hmiddle T₁ hT₁
    rw [hT₁, Option.bind_some, hT₂, Option.bind_some]
    exact (process_passes hafter h₂).2 (hcols₂ ▸ hcols)

/-! ## The round trip -/

/-- The title is set and reaches a second screen. -/
def TitleArrives (W : UnicodeWidth) (s : Screen) (t : List UInt8) : Prop :=
  ∃ s', s.step W (oscTitle t) = some s' ∧ s'.state.title = t ∧ s'.FrameTitles R W

/-- A title arrives if and only if it holds no semicolon. What is set of it
arrives in any case. -/
theorem title_arrives_iff (hutf8 : isUtf8 t = true) (hplain : ∀ b ∈ t, 0x20 ≤ b ∧ b ≠ 0x7f) (hlen : t.length ≤ 1000) :
    (s.TitleArrives R W t ↔ 0x3b ∉ t) ∧
    ∃ s', s.step W (oscTitle t) = some s' ∧ s'.state.title = t.takeWhile (· ≠ 0x3b) ∧ s'.FrameTitles R W := by
  have hstep : s.step W (oscTitle t) = some (s.setTitle (t.takeWhile (· ≠ 0x3b))) :=
    step_oscTitle hutf8 (Nat.le_trans hlen (by decide))
  have hframes : (s.setTitle (t.takeWhile (· ≠ 0x3b))).FrameTitles R W :=
    frameTitles_of_portable R (portable_takeWhile hutf8 hplain (Nat.le_trans hlen (by decide)))
  refine ⟨⟨?_, fun hwhole => ⟨_, hstep, takeWhile_of_notMem hwhole, hframes⟩⟩, _, hstep, rfl, hframes⟩
  rintro ⟨s', hs', htitle, -⟩ hsep
  obtain rfl := Option.some.inj (hstep.symm.trans hs')
  have hpiece : t.takeWhile (· ≠ 0x3b) = t := htitle
  rw [← hpiece] at hsep
  exact notMem_takeWhile t hsep

end

/-- `ESC ] 2 ; a b BEL` -/
theorem title_arrives_sample : (Screen.new 2 1 0).TitleArrives Viewed.rowHash .sample [0x61, 0x62] := by
  have hutf8 : isUtf8 [0x61, 0x62] = true := (isUtf8_iff _).2 ⟨['a', 'b'], rfl⟩
  have hplain : ∀ b ∈ ([0x61, 0x62] : List UInt8), 0x20 ≤ b ∧ b ≠ 0x7f := by simp
  exact (title_arrives_iff Viewed.rowHash hutf8 hplain (by decide)).1.2 (by decide)

/-- Of the title `a;b` only the `a` is kept. -/
theorem title_cut : ∃ s', (Screen.new 2 1 0).step .sample (oscTitle [0x61, 0x3b, 0x62]) = some s' ∧ s'.state.title = [0x61] ∧
    ¬ (Screen.new 2 1 0).TitleArrives Viewed.rowHash .sample [0x61, 0x3b, 0x62] := by
  have hstep : (Screen.new 2 1 0).step .sample (oscTitle [0x61, 0x3b, 0x62]) = some ((Screen.new 2 1 0).setTitle [0x61]) :=
    step_oscTitle ((isUtf8_iff _).2 ⟨['a', ';', 'b'], rfl⟩) (by decide)
  refine ⟨_, hstep, rfl, ?_⟩
  rintro ⟨s', hs', htitle, _⟩
  obtain rfl := Option.some.inj (hstep.symm.trans hs')
  exact absurd htitle (by decide)

end Screen

end Retach
