import Retach.Cursor
/-!
# The modes of the client's terminal

Frames send the modes in full or as changes against the cache. On whatever
terminal the frames arrive, its modes are the screen's after every frame.
-/

open Checked Runs

namespace Retach

namespace Screen

variable {W : UnicodeWidth} {T T' : Screen}

/-- Where the event succeeds it leaves the modes alone. -/
def KeepsModes (W : UnicodeWidth) (e : Event) : Prop :=
  ∀ T T' : Screen, T.Inv → T.step W e = some T' → T'.grid.modes = T.grid.modes

theorem paints_leads {e : Event} (he : e.Paints) (h : T.Inv) : Leads Effect Kind.Paints T (T.step W e) := by
  have ho : Kind.Paints .other := .inl rfl
  have hm : Kind.Paints .move := .inr (.inl rfl)
  by_cases hprint : ∃ c, e = .print c
  · obtain ⟨c, rfl⟩ := hprint
    exact print_leads W ho hm h c (fun _ => .inr (.inr (.inl rfl))) fun _ => .inr (.inr (.inr rfl))
  · refine (paints_does W he h ?_).leads
    unfold Event.Paints at he
    split at he
    · exact absurd ⟨_, rfl⟩ hprint
    · trivial
    · trivial
    · rcases he with rfl | rfl | rfl | rfl <;> trivial
    · exact he.elim

theorem keepsModes_paints {e : Event} (he : e.Paints) : KeepsModes W e := fun _ T' h hstep =>
  (steps_display (paints_leads he h T' hstep)).1

theorem keepsModes_title (title : List UInt8) : KeepsModes W (titleEvent title) := by
  intro T T' _ hstep
  obtain ⟨st, htitle, -⟩ := step_title W T title
  obtain rfl := Option.some.inj (htitle.symm.trans hstep)
  rfl

/-- Showing or hiding the cursor, and synchronized output. -/
theorem keepsModes_decMode {code : Nat} (hcode : code = 25 ∨ code = 2026) (enable : Bool) :
    KeepsModes W (emitDecMode code enable) := by
  intro T T' _ hstep
  rcases hcode with rfl | rfl <;> cases enable <;> obtain rfl := Option.some.inj hstep <;> rfl

theorem process_keepsModes {es : List Event} (hes : ∀ e ∈ es, KeepsModes W e) (h : T.Inv)
    (hrun : T.process W es = some T') : T'.grid.modes = T.grid.modes :=
  ((Along.of_forall hes T).keeps (I := fun s => s.Inv ∧ s.grid.modes = T.grid.modes)
    (fun s _ s' hs he hstep => ⟨steps_inv (step_steps W hs.1 hstep) hs.1, (he s s' hs.1 hstep).trans hs.2⟩) ⟨h, rfl⟩
    hrun).2

/-! ## Frames -/

section

variable {H : Type} [DecidableEq H] (R : RowHash H)

omit [DecidableEq H] in
theorem process_modeEvents (m : TerminalModes) (full : Bool) (last : Option TerminalModes)
    (hlast : full = false → ∀ n, last = some n → T.grid.modes = n) :
    ∃ T', T.process W (modeEvents m full last) = some T' ∧ T'.grid.modes = m := by
  have hall : ∃ T', T.process W (emitMode m) = some T' ∧ T'.grid.modes = m := ⟨_, process_emitMode W T m, rfl⟩
  cases last with
  | none => exact hall
  | some prev =>
    cases full with
    | true => exact hall
    | false =>
      obtain rfl := hlast rfl prev rfl
      exact ⟨_, process_emitModeDelta W T m, rfl⟩

end

/-- Mode events between events that leave the modes alone. -/
def SendsModes (W : UnicodeWidth) (es modes : List Event) : Prop :=
  ∃ before after, es = before ++ modes ++ after ∧ (∀ e ∈ before, KeepsModes W e) ∧ ∀ e ∈ after, KeepsModes W e

namespace SendsModes

variable {es es' modes : List Event}

theorem self (modes : List Event) : SendsModes W modes modes :=
  ⟨[], [], by simp, fun _ he => absurd he List.not_mem_nil, fun _ he => absurd he List.not_mem_nil⟩

theorem before (h : SendsModes W es modes) (h' : ∀ e ∈ es', KeepsModes W e) : SendsModes W (es' ++ es) modes := by
  obtain ⟨b, a, rfl, hb, ha⟩ := h
  refine ⟨es' ++ b, a, by simp only [List.append_assoc], fun e he => ?_, ha⟩
  exact (List.mem_append.1 he).elim (h' e) (hb e)

theorem after (h : SendsModes W es modes) (h' : ∀ e ∈ es', KeepsModes W e) : SendsModes W (es ++ es') modes := by
  obtain ⟨b, a, rfl, hb, ha⟩ := h
  refine ⟨b, a ++ es', by simp only [List.append_assoc], hb, ?_⟩
  intro e he
  exact (List.mem_append.1 he).elim (ha e) (h' e)

end SendsModes

theorem keepsModes_one {e : Event} (h : KeepsModes W e) : ∀ d ∈ [e], KeepsModes W d := List.forall_mem_singleton.2 h

section

variable {H : Type} [DecidableEq H] (R : RowHash H)

theorem renderBody_sends (g : Grid) (title : List UInt8) (full : Bool) (cache : RenderCache H) :
    SendsModes W (renderBody R g title full cache).1
      (modeEvents g.modes full (if full then cache.invalidate else cache).lastModes) := by
  have hregion : KeepsModes W (.csi [[g.scrollTop + 1], [g.scrollBottom + 1]] [] 'r') :=
    keepsModes_paints (by simp [Event.Paints])
  have hcup : KeepsModes W (.cup (g.cursorY + 1) (g.cursorX + 1)) :=
    keepsModes_paints (by simp [Event.cup, Event.Paints])
  refine .before (((SendsModes.self _).before (Lists.forall_mem_ite (keepsModes_one hregion))).after
    (Lists.forall_mem_ite (keepsModes_one hcup)) |>.after
    (Lists.forall_mem_ite (keepsModes_one (keepsModes_title title)))) fun e he => keepsModes_paints ?_
  exact (List.mem_append.1 he).elim (clearEvents_paints full e) (renderRows_paints R _ _ _ _ _ e)

theorem renderScrollback_keepsModes (g : Grid) {scrollback : List (List Event)}
    (hlines : ∀ line ∈ scrollback, ∀ e ∈ line, e.Paints) : ∀ e ∈ renderScrollback g scrollback, KeepsModes W e := by
  intro e he
  rcases List.mem_cons.1 he with rfl | he
  · exact keepsModes_decMode (.inl rfl) false
  · exact keepsModes_paints (scrollback_paints g hlines e he)

/-- Every frame sends its modes, an empty one no modes. -/
theorem renderScreenImpl_sends (g : Grid) (title : List UInt8) {scrollback : List (List Event)}
    (hlines : ∀ line ∈ scrollback, ∀ e ∈ line, e.Paints) (full : Bool) (cache : RenderCache H) :
    ∃ full' last, (full' = false → last = none ∨ last = cache.lastModes) ∧
      SendsModes W (renderScreenImpl R g title scrollback full cache).1 (modeEvents g.modes full' last) := by
  have hinjected : ∀ e ∈ if scrollback ≠ [] then renderScrollback g scrollback else [], KeepsModes W e := by
    intro e he
    split at he
    · exact renderScrollback_keepsModes g hlines e he
    · exact absurd he List.not_mem_nil
  have hcache : ∀ last, last = (if full || decide (scrollback ≠ []) then
      (if scrollback ≠ [] then cache.invalidate else cache).invalidate
      else if scrollback ≠ [] then cache.invalidate else cache).lastModes → last = none ∨ last = cache.lastModes := by
    rintro last rfl
    by_cases hfull : (full || decide (scrollback ≠ [])) = true
    · rw [if_pos hfull]
      exact .inl rfl
    · rw [if_neg hfull]
      split
      · exact .inl rfl
      · exact .inr rfl
  refine ⟨full || decide (scrollback ≠ []), _, fun _ => hcache _ rfl, ?_⟩
  have hbody := renderBody_sends (W := W) R g title (full || decide (scrollback ≠ []))
    (if scrollback ≠ [] then cache.invalidate else cache)
  unfold renderScreenImpl
  dsimp only
  by_cases hempty : (renderBody R g title (full || decide (scrollback ≠ []))
        (if scrollback ≠ [] then cache.invalidate else cache)).1 = [] ∧
      (renderBody R g title (full || decide (scrollback ≠ []))
        (if scrollback ≠ [] then cache.invalidate else cache)).2.lastCursorVisible = some g.cursorVisible
  · rw [if_pos hempty]
    obtain ⟨b, a, hsplit, -⟩ := hbody
    rw [hempty.1] at hsplit
    have hnone : modeEvents g.modes _ _ = [] := (List.append_eq_nil_iff.1 (List.append_eq_nil_iff.1 hsplit.symm).1).2
    rw [hnone]
    have h := (SendsModes.self (W := W) []).after hinjected
    rwa [List.nil_append] at h
  · rw [if_neg hempty]
    have hhead : ∀ e ∈ (if scrollback ≠ [] then renderScrollback g scrollback else []) ++ [.decSet 2026, .decReset 25],
        KeepsModes W e := by
      intro e he
      rcases List.mem_append.1 he with he | he
      · exact hinjected e he
      · simp only [List.mem_cons, List.not_mem_nil, or_false] at he
        rcases he with rfl | rfl
        · exact keepsModes_decMode (.inr rfl) true
        · exact keepsModes_decMode (.inl rfl) false
    exact ((hbody.before hhead).after (Lists.forall_mem_ite (keepsModes_one (keepsModes_decMode (.inl rfl) true)))).after
      (keepsModes_one (keepsModes_decMode (.inr rfl) false))

/-- After a frame the terminal has the modes of the grid, when the cache had
those of the terminal. -/
theorem frame_modes {g : Grid} {title : List UInt8} {scrollback : List (List Event)} {full : Bool} {cache : RenderCache H}
    (h : T.Inv) (hlast : ∀ n, cache.lastModes = some n → T.grid.modes = n)
    (hlines : ∀ line ∈ scrollback, ∀ e ∈ line, e.Paints)
    (hrun : T.process W (renderScreenImpl R g title scrollback full cache).1 = some T') : T'.grid.modes = g.modes := by
  obtain ⟨full', last, hsent, b, a, hsplit, hbefore, hafter⟩ := renderScreenImpl_sends (W := W) R g title hlines full cache
  rw [hsplit, process_append, process_append] at hrun
  obtain ⟨T₂, hrun₂, hlast₂⟩ := Option.bind_eq_some_iff.1 hrun
  obtain ⟨T₁, hrun₁, hmodes⟩ := Option.bind_eq_some_iff.1 hrun₂
  have h₁ := steps_inv (process_steps W h hrun₁) h
  have hkept := process_keepsModes hbefore h hrun₁
  obtain ⟨T₂', hrun₂', hset⟩ := process_modeEvents (W := W) (T := T₁) g.modes full' last
    fun hfull n hn => by
      rcases hsent hfull with hnone | hsame
      · rw [hnone] at hn
        cases hn
      · exact hkept.trans (hlast n (hsame.symm.trans hn))
  obtain rfl := Option.some.inj (hrun₂'.symm.trans hmodes)
  exact (process_keepsModes hafter (steps_inv (process_steps W h₁ hmodes) h₁) hlast₂).trans hset

end

end Screen

/-! ## Runs -/

/-- What happens on the way from a screen to its client's terminal. -/
inductive Showing where
  | viewing (v : Viewing)
  | invalidate
deriving DecidableEq, Repr

/-- Scrollback lines are rows as they are rendered. -/
def Showing.Rendered : Showing → Prop
  | .viewing (.frame scrollback _) => ∀ line ∈ scrollback, ∃ row t, line = renderLine row t
  | _ => True

namespace Mirror

variable {H : Type} [DecidableEq H] (W : UnicodeWidth) (R : RowHash H)

def present (m : Mirror H) : Showing → Option (Mirror H)
  | .viewing v => m.view W R v
  | .invalidate => some { m with cache := m.cache.invalidate }

def presentAll (m : Mirror H) (as : List Showing) : Option (Mirror H) := as.foldlM (Mirror.present W R) m

variable {W R} {m m' m'' : Mirror H}

/-- The cache has the modes of the terminal, or none. -/
structure Synced (m : Mirror H) : Prop where
  terminal : m.terminal.Inv
  modes : ∀ n, m.cache.lastModes = some n → m.terminal.grid.modes = n

/-- A frame, and the cache after it. -/
theorem Synced.frame (hm : m.Synced) {scrollback : List (List Event)} {full : Bool}
    (hlines : Showing.Rendered (.viewing (.frame scrollback full)))
    (hshow : m.present W R (.viewing (.frame scrollback full)) = some m') :
    m'.Synced ∧ m'.screen = m.screen ∧ m'.terminal.grid.modes = m.screen.grid.modes := by
  obtain ⟨T', hrun, hm'⟩ := Option.bind_eq_some_iff.1 hshow
  obtain rfl := Option.some.inj hm'
  have hmodes : T'.grid.modes = m.screen.grid.modes := by
    refine Screen.frame_modes R hm.terminal hm.modes (fun line hl => ?_) hrun
    obtain ⟨row, t, rfl⟩ := hlines line hl
    exact renderLine_paints row t
  refine ⟨⟨steps_inv (Screen.process_steps W hm.terminal hrun) hm.terminal, fun n hn => ?_⟩, rfl, hmodes⟩
  dsimp only at hn
  rw [renderScreenImpl_cache] at hn
  obtain rfl := Option.some.inj hn
  exact hmodes

theorem Synced.present (hm : m.Synced) {a : Showing} (ha : a.Rendered) (hshow : m.present W R a = some m') : m'.Synced := by
  match a with
  | .viewing (.act a) =>
    obtain ⟨s', -, rfl⟩ := Option.map_eq_some_iff.1 hshow
    exact ⟨hm.terminal, hm.modes⟩
  | .viewing (.frame scrollback full) => exact (hm.frame ha hshow).1
  | .invalidate =>
    obtain rfl := Option.some.inj hshow
    exact ⟨hm.terminal, fun n hn => by cases hn⟩

theorem Synced.presentAll (hm : m.Synced) {as : List Showing} (has : ∀ a ∈ as, a.Rendered)
    (hrun : m.presentAll W R as = some m') : m'.Synced :=
  (Along.of_forall has m).keeps (fun _ _ _ hm ha hshow => hm.present ha hshow) hm hrun

/-- Whatever modes the terminal starts with, it has the screen's modes after
every frame, and changes alone bring it as far as all modes would. -/
theorem modes_follow (hT : m.terminal.Inv) (hfresh : m.cache.lastModes = none) {as : List Showing}
    (has : ∀ a ∈ as, a.Rendered) (hrun : m.presentAll W R as = some m') {scrollback : List (List Event)} {full : Bool}
    (hlines : Showing.Rendered (.viewing (.frame scrollback full)))
    (hframe : m'.present W R (.viewing (.frame scrollback full)) = some m'') :
    m''.terminal.grid.modes = m''.screen.grid.modes ∧
      ∀ (T : Screen) (n : TerminalModes),
        (T.process W (emitModeDelta n T.grid.modes)).map (·.grid.modes) = some n ∧
        (T.process W (emitMode n)).map (·.grid.modes) = some n := by
  have hstart : m.Synced := ⟨hT, fun n hn => by rw [hfresh] at hn; cases hn⟩
  obtain ⟨-, hscreen, hmodes⟩ := (hstart.presentAll has hrun).frame hlines hframe
  refine ⟨hmodes.trans (by rw [hscreen]), fun T n => ⟨?_, ?_⟩⟩
  · rw [Screen.process_emitModeDelta]
    rfl
  · rw [Screen.process_emitMode]
    rfl

/-- A terminal left in origin mode and with UTF-8 mouse coordinates. -/
theorem modes_follow_sample : ∃ m' m'', presentAll .sample Viewed.rowHash
      { screen := .new 4 2 10, terminal := (Screen.new 4 2 10).setModes fun m => { m with originMode := true, mouseEncoding := .utf8 } }
      [.viewing (.frame [] true), .viewing (.act (.callback (.csi [[1], [1006]] ['?'] 'h')))] = some m' ∧
    m'.present .sample Viewed.rowHash (.viewing (.frame [] false)) = some m'' ∧
      m''.terminal.grid.modes = m''.screen.grid.modes := by
  have hnew : (Screen.new 4 2 10).Inv := Screen.new_inv 10 (by decide) (by decide)
  have hrendered : ∀ a ∈ [Showing.viewing (.frame [] true), .viewing (.act (.callback (.csi [[1], [1006]] ['?'] 'h')))],
      a.Rendered := by
    simp [Showing.Rendered]
  exact ⟨_, _, rfl, rfl, (modes_follow (W := .sample) (R := Viewed.rowHash)
    (m := { screen := .new 4 2 10,
            terminal := (Screen.new 4 2 10).setModes fun m => { m with originMode := true, mouseEncoding := .utf8 } })
    ((Effect.modes _).inv hnew) rfl hrendered rfl
    (show Showing.Rendered (.viewing (.frame [] false)) by simp [Showing.Rendered]) rfl).1⟩

end Mirror

end Retach
