import Retach.Cursor
import Retach.Renderers
/-!
# Frames settle

Every frame writes all fields of the cache, so the next frame of an unchanged
screen finds nothing to send. A frame with something to send puts it between the
beginning and the end of a synchronized update.
-/

open Checked

namespace Retach

open Event (written)

section

variable {H : Type} [DecidableEq H] (R : RowHash H)

/-! ## The cache after a frame -/

/-- The cache once the client shows the grid. -/
def settled (g : Grid) (title : List UInt8) : RenderCache H where
  rowHashes := g.visibleRows.map R.hash
  lastModes := some g.modes
  lastScrollRegion := some (g.scrollTop, g.scrollBottom)
  lastTitle := title
  lastCursor := some (g.cursorX, g.cursorY)
  lastCursorVisible := some g.cursorVisible

/-- Whatever was cached before. -/
theorem renderScreenBytes_settles {g : Grid} (hg : g.Shape) (title : List UInt8) (scrollback : List (List Event)) (full : Bool)
    (cache : RenderCache H) : (renderScreenBytes R g title scrollback full cache).2 = settled R g title := by
  unfold renderScreenBytes
  dsimp only
  generalize (full || decide (scrollback ≠ [])) = full
  generalize (if scrollback ≠ [] then cache.invalidate else cache) = cache
  generalize (if full = true then cache.invalidate else cache) = cache
  have hhashes : (renderRows R g.styleTable full 0 g.visibleRows (cache.hashesFor R g.visibleRowCount)).2 =
      g.visibleRows.map R.hash := Viewed.renderRows_hashes _ _ _ _ _ ((Viewed.hashesFor_length _ _ _).trans (Viewed.visibleRowCount_eq hg))
  rw [hhashes]
  split
  next hempty =>
    -- an empty frame finds the cursor's visibility in the cache
    have hvisible : cache.lastCursorVisible = some g.cursorVisible := hempty.2
    simp only [modesTitleCursorBytes, settled, hvisible]
  next => rfl

/-- Nothing has changed. -/
theorem renderScreenBytes_again {g : Grid} (hg : g.Shape) (title : List UInt8) :
    renderScreenBytes R g title [] false (settled R g title) = ([], settled R g title) := by
  have hcache := renderScreenBytes_settles R hg title [] false (settled R g title)
  refine Prod.ext ?_ hcache
  have hlen : (g.visibleRows.map R.hash).length = g.visibleRowCount := by
    rw [List.length_map, Viewed.visibleRowCount_eq hg]
  have hmodes : modeEvents g.modes false (some g.modes) = [] := by
    simp [modeEvents, emitModeDelta, onChange]
  have hrows : (settled R g title).hashesFor R g.visibleRowCount = g.visibleRows.map R.hash := if_neg (not_not_intro hlen)
  simp only [renderScreenBytes, modesTitleCursorBytes, ne_eq, not_true_eq_false, if_false, decide_false, Bool.or_false,
    Bool.false_eq_true, hrows, Screen.renderRows_unchanged, clearEvents, Event.written_nil, List.append_nil]
  simp only [settled, not_true_eq_false, or_self, if_false, hmodes, Event.written_nil, List.append_nil, and_self, if_true]

/-! ## What a frame holds -/

/-- Neither the beginning nor the end of a synchronized update, no title, and
the cursor is not shown. -/
def Event.Inner (e : Event) : Prop :=
  e ≠ .decSet 2026 ∧ e ≠ .decReset 2026 ∧ e ≠ .decSet 25 ∧ ∀ params bell, e ≠ .osc params bell

theorem Event.Paints.inner {e : Event} (he : e.Paints) : e.Inner := by
  refine ⟨?_, ?_, ?_, ?_⟩
  · rintro rfl
    simp [Event.Paints, Event.decSet] at he
  · rintro rfl
    simp [Event.Paints, Event.decReset] at he
  · rintro rfl
    simp [Event.Paints, Event.decSet] at he
  · rintro params bell rfl
    exact he

theorem inner_emitDecMode {code : Nat} (hsync : code ≠ 2026) (hcursor : code ≠ 25) (b : Bool) : (emitDecMode code b).Inner := by
  unfold emitDecMode Event.Inner
  split <;> simp [Event.decSet, Event.decReset, hsync, hcursor]

theorem inner_emitMode (m : TerminalModes) : ∀ e ∈ emitMode m, e.Inner := by
  intro e he
  simp only [emitMode, List.mem_append, List.mem_cons, List.not_mem_nil, or_false] at he
  rcases he with ((rfl | rfl | rfl | rfl | rfl | rfl | rfl | rfl) | he) | rfl | rfl | rfl | rfl | rfl
  · simp [emitCursorShape, Event.Inner, Event.decSet, Event.decReset]
  · exact inner_emitDecMode (by decide) (by decide) _
  · exact inner_emitDecMode (by decide) (by decide) _
  · exact inner_emitDecMode (by decide) (by decide) _
  · exact inner_emitDecMode (by decide) (by decide) _
  · exact inner_emitDecMode (by decide) (by decide) _
  · exact inner_emitDecMode (by decide) (by decide) _
  · exact inner_emitDecMode (by decide) (by decide) _
  · have hset : ∀ b, (emitDecMode 1005 b).Inner ∧ (emitDecMode 1006 b).Inner := fun b =>
      ⟨inner_emitDecMode (by decide) (by decide) b, inner_emitDecMode (by decide) (by decide) b⟩
    cases hencoding : m.mouseEncoding <;>
    · rw [hencoding] at he
      simp only [emitMouseEncoding, List.mem_cons, List.not_mem_nil, or_false] at he
      rcases he with rfl | rfl <;> first | exact (hset true).1 | exact (hset true).2 | exact (hset false).1 | exact (hset false).2
  · exact inner_emitDecMode (by decide) (by decide) _
  · simp [emitKeypad, Event.Inner, Event.decSet, Event.decReset]
  · simp [emitCharset, Event.Inner, Event.decSet, Event.decReset]
  · simp [emitCharset, Event.Inner, Event.decSet, Event.decReset]
  · simp [emitActive, Event.Inner, Event.decSet, Event.decReset]

theorem renderScrollback_inner (g : Grid) {scrollback : List (List Event)} (hlines : ∀ line ∈ scrollback, ∀ e ∈ line, e.Paints) :
    ∀ e ∈ renderScrollback g scrollback, e.Inner := by
  intro e he
  rcases List.mem_cons.1 he with rfl | he
  · simp [Event.Inner, Event.decSet, Event.decReset]
  · exact (Screen.scrollback_paints g hlines e he).inner

/-- How an event of a frame is sent: the title is not cut. -/
def sentBytes (title : List UInt8) (e : Event) : List UInt8 := if e = titleEvent title then titleBytes title else e.bytes

theorem sentBytes_ne_nil (title : List UInt8) (e : Event) : sentBytes title e ≠ [] := by
  unfold sentBytes
  split
  · exact List.cons_ne_nil 0x1b _
  · exact e.bytes_ne_nil

theorem sent_eq_nil {title : List UInt8} {es : List Event} : es.flatMap (sentBytes title) = [] ↔ es = [] := by
  cases es with
  | nil => exact iff_of_true rfl rfl
  | cons e es => exact iff_of_false (by simp [sentBytes_ne_nil]) (List.cons_ne_nil e es)

theorem sent_title (title : List UInt8) : [titleEvent title].flatMap (sentBytes title) = titleBytes title := by
  rw [List.flatMap_singleton, sentBytes, if_pos rfl]

theorem sent_inner (title : List UInt8) {es : List Event} (hes : ∀ e ∈ es, e.Inner) : es.flatMap (sentBytes title) = written es :=
  List.flatMap_congr fun e he => if_neg fun heq => (hes e he).2.2.2 _ _ heq

/-- A header or an end: no title either. -/
theorem sent_mode (title : List UInt8) (code : Nat) :
    sentBytes title (.decSet code) = (Event.decSet code).bytes ∧ sentBytes title (.decReset code) = (Event.decReset code).bytes :=
  ⟨if_neg nofun, if_neg nofun⟩

omit [DecidableEq H] in
/-- The region, the modes and the cursor, and then the title. -/
theorem modesTitleCursor_parts (g : Grid) (title : List UInt8) (full : Bool) (cache : RenderCache H) :
    ∃ es, (∀ e ∈ es, Event.Inner e) ∧
      ((renderModesTitleCursor g title full cache).1 = es ∨ (renderModesTitleCursor g title full cache).1 = es ++ [titleEvent title]) ∧
      (renderModesTitleCursor g title full cache).1.flatMap (sentBytes title) = (modesTitleCursorBytes g title full cache).1 := by
  have hregion : Event.Inner (.csi [[g.scrollTop + 1], [g.scrollBottom + 1]] [] 'r') := Event.Paints.inner (by simp [Event.Paints])
  have hcup : Event.Inner (.cup (g.cursorY + 1) (g.cursorX + 1)) := Event.Paints.inner (by simp [Event.cup, Event.Paints])
  let es := (if full ∨ cache.lastScrollRegion ≠ some (g.scrollTop, g.scrollBottom) then
      [.csi [[g.scrollTop + 1], [g.scrollBottom + 1]] [] 'r'] else []) ++ modeEvents g.modes full cache.lastModes ++
    if full ∨ cache.lastCursor ≠ some (g.cursorX, g.cursorY) then [.cup (g.cursorY + 1) (g.cursorX + 1)] else []
  have hes : ∀ e ∈ es, Event.Inner e := by
    rw [List.forall_mem_append, List.forall_mem_append]
    refine ⟨⟨Lists.forall_mem_ite (List.forall_mem_singleton.2 hregion), ?_⟩, Lists.forall_mem_ite (List.forall_mem_singleton.2 hcup)⟩
    exact fun e he => inner_emitMode _ e (mem_emitMode_of_mem_modeEvents he)
  have hbytes : (modesTitleCursorBytes g title full cache).1 =
      written es ++ if full ∨ title ≠ cache.lastTitle then titleBytes title else [] := by
    simp only [modesTitleCursorBytes, regionBytes, es, Event.written_append, apply_ite written, Event.written_cons, Event.written_nil,
      List.append_nil]
  have hevents : (renderModesTitleCursor g title full cache).1 =
      es ++ if full ∨ title ≠ cache.lastTitle then [titleEvent title] else [] := rfl
  refine ⟨es, hes, ?_, ?_⟩
  · rw [hevents]
    split
    · exact .inr rfl
    · exact .inl (List.append_nil es)
  · rw [hevents, hbytes, List.flatMap_append, sent_inner title hes]
    split
    · rw [sent_title]
    · rfl

/-- What stands between the header of a frame and the cursor's visibility. -/
theorem renderBody_parts (g : Grid) (title : List UInt8) (full : Bool) (cache : RenderCache H) :
    ∃ es, (∀ e ∈ es, Event.Inner e) ∧
      ((renderBody R g title full cache).1 = es ∨ (renderBody R g title full cache).1 = es ++ [titleEvent title]) := by
  unfold renderBody
  dsimp only
  generalize (if full = true then cache.invalidate else cache) = cache
  obtain ⟨tail, htail, heq, -⟩ := modesTitleCursor_parts g title full
    { cache with rowHashes := (renderRows R g.styleTable full 0 g.visibleRows (cache.hashesFor R g.visibleRowCount)).2 }
  refine ⟨clearEvents full ++ (renderRows R g.styleTable full 0 g.visibleRows (cache.hashesFor R g.visibleRowCount)).1 ++ tail, ?_, ?_⟩
  · rw [List.forall_mem_append, List.forall_mem_append]
    exact ⟨⟨fun e he => (Screen.clearEvents_paints full e he).inner, fun e he => (renderRows_paints R _ _ _ _ _ e he).inner⟩, htail⟩
  · rcases heq with heq | heq <;> rw [heq]
    · exact .inl rfl
    · exact .inr (List.append_assoc _ _ _).symm

/-- The bytes of a frame are those of its callbacks, the title sent whole. -/
theorem renderScreenBytes_sent (g : Grid) (title : List UInt8) {scrollback : List (List Event)}
    (hlines : ∀ line ∈ scrollback, ∀ e ∈ line, e.Paints) (full : Bool) (cache : RenderCache H) :
    (renderScreenBytes R g title scrollback full cache).1 =
      (renderScreenImpl R g title scrollback full cache).1.flatMap (sentBytes title) := by
  have hinjected : (if scrollback ≠ [] then renderScrollback g scrollback else []).flatMap (sentBytes title) =
      if scrollback ≠ [] then written (renderScrollback g scrollback) else [] := by
    split
    · exact sent_inner title (renderScrollback_inner g hlines)
    · rfl
  unfold renderScreenBytes renderScreenImpl renderBody
  dsimp only
  generalize (full || decide (scrollback ≠ [])) = all
  generalize (if scrollback ≠ [] then cache.invalidate else cache) = cache₁
  generalize (if all = true then cache₁.invalidate else cache₁) = cache₂
  have hrows : (renderRows R g.styleTable all 0 g.visibleRows (cache₂.hashesFor R g.visibleRowCount)).1.flatMap (sentBytes title) =
      written (renderRows R g.styleTable all 0 g.visibleRows (cache₂.hashesFor R g.visibleRowCount)).1 :=
    sent_inner title fun e he => (renderRows_paints R _ _ _ _ _ e he).inner
  generalize renderRows R g.styleTable all 0 g.visibleRows (cache₂.hashesFor R g.visibleRowCount) = rows at hrows ⊢
  have hcache : (modesTitleCursorBytes g title all { cache₂ with rowHashes := rows.2 }).2 =
      (renderModesTitleCursor g title all { cache₂ with rowHashes := rows.2 }).2 := rfl
  obtain ⟨-, -, -, htail⟩ := modesTitleCursor_parts g title all { cache₂ with rowHashes := rows.2 }
  rw [hcache, ← htail]
  generalize renderModesTitleCursor g title all { cache₂ with rowHashes := rows.2 } = tail
  have hbody : (clearEvents all ++ rows.1 ++ tail.1).flatMap (sentBytes title) =
      written (clearEvents all) ++ written rows.1 ++ tail.1.flatMap (sentBytes title) := by
    rw [List.flatMap_append, List.flatMap_append, sent_inner title fun e he => (Screen.clearEvents_paints all e he).inner, hrows]
  rw [← hbody]
  simp only [sent_eq_nil]
  by_cases hempty : clearEvents all ++ rows.1 ++ tail.1 = [] ∧ tail.2.lastCursorVisible = some g.cursorVisible
  · rw [if_pos hempty, if_pos hempty]
    exact hinjected.symm
  · have hshow : (if g.cursorVisible then [Event.decSet 25] else []).flatMap (sentBytes title) =
        if g.cursorVisible then (Event.decSet 25).bytes else [] := by
      split
      · rw [List.flatMap_singleton, (sent_mode title 25).1]
      · rfl
    rw [if_neg hempty, if_neg hempty]
    simp only [List.flatMap_append, List.flatMap_cons, List.flatMap_nil, List.append_nil, hinjected, hshow, sent_mode,
      Event.written_cons, Event.written_nil]

/-- A frame with something to send. A line of scrollback makes the frame a full
one, so its update is not left out. -/
theorem renderScreenImpl_parts (g : Grid) (title : List UInt8) {scrollback : List (List Event)}
    (hlines : ∀ line ∈ scrollback, ∀ e ∈ line, e.Paints) (full : Bool) (cache : RenderCache H)
    (hne : (renderScreenImpl R g title scrollback full cache).1 ≠ []) :
    ∃ injected body, (∀ e ∈ injected ++ body, Event.Inner e) ∧ ∃ tail, (tail = [] ∨ tail = [titleEvent title]) ∧
      (renderScreenImpl R g title scrollback full cache).1 =
        injected ++ [.decSet 2026, .decReset 25] ++ body ++ tail ++ (if g.cursorVisible then [.decSet 25] else []) ++
          [.decReset 2026] := by
  have hinjected : ∀ e ∈ (if scrollback ≠ [] then renderScrollback g scrollback else []), Event.Inner e := by
    split
    · exact renderScrollback_inner g hlines
    · exact List.forall_mem_nil _
  have hfull : scrollback ≠ [] → (renderBody R g title (full || decide (scrollback ≠ []))
      (if scrollback ≠ [] then cache.invalidate else cache)).1 ≠ [] := by
    intro hsome
    rw [decide_eq_true hsome, Bool.or_true]
    exact List.cons_ne_nil _ _
  revert hne
  unfold renderScreenImpl
  dsimp only
  obtain ⟨es, hes, htitle⟩ := renderBody_parts R g title (full || decide (scrollback ≠ []))
    (if scrollback ≠ [] then cache.invalidate else cache)
  generalize renderBody R g title (full || decide (scrollback ≠ []))
    (if scrollback ≠ [] then cache.invalidate else cache) = body at hes htitle hfull ⊢
  split
  next hempty =>
    intro hne
    by_cases hsome : scrollback ≠ []
    · exact absurd hempty.1 (hfull hsome)
    · exact absurd (if_neg hsome) hne
  next =>
    intro _
    refine ⟨_, es, List.forall_mem_append.2 ⟨hinjected, hes⟩, ?_⟩
    rcases htitle with heq | heq
    · exact ⟨[], .inl rfl, by rw [heq, List.append_nil]⟩
    · exact ⟨[titleEvent title], .inr rfl, by rw [heq, List.append_assoc, List.append_assoc]; simp only [List.append_assoc]⟩

/-- A frame of a reachable screen leaves nothing to send, whatever was cached.
If it sends anything, it sends the renderer's sequences: a synchronized update
is begun once and ended by the last of them, and the cursor is shown once, just
before the end, if it is visible, and else not at all. -/
theorem rendering_settles {W : UnicodeWidth} {s : Screen} (hs : s.Reachable W) {scrollback : List (List Event)}
    (hlines : ∀ line ∈ scrollback, ∃ row table, line = renderLine row table) (full : Bool) (cache : RenderCache H) :
    let frame := renderScreenBytes R s.grid s.state.title scrollback full cache
    let sequences := (renderScreenImpl R s.grid s.state.title scrollback full cache).1
    renderScreenBytes R s.grid s.state.title [] false frame.2 = ([], frame.2) ∧
    frame.1 = sequences.flatMap (sentBytes s.state.title) ∧
    (frame.1 ≠ [] → ∃ before, sequences = before ++ (if s.grid.cursorVisible then [.decSet 25] else []) ++ [.decReset 2026] ∧
      before.count (.decSet 2026) = 1 ∧ .decReset 2026 ∉ before ∧ .decSet 25 ∉ before) := by
  have hshape := hs.inv.shape
  have hpaints : ∀ line ∈ scrollback, ∀ e ∈ line, e.Paints := by
    intro line hline
    obtain ⟨row, table, rfl⟩ := hlines line hline
    exact renderLine_paints row table
  intro frame sequences
  have hsent : frame.1 = sequences.flatMap (sentBytes s.state.title) := renderScreenBytes_sent R s.grid _ hpaints full cache
  refine ⟨?_, hsent, fun hne => ?_⟩
  · have hcache : frame.2 = settled R s.grid s.state.title := renderScreenBytes_settles R hshape _ _ _ _
    rw [hcache]
    exact renderScreenBytes_again R hshape _
  rw [hsent, ne_eq, sent_eq_nil] at hne
  obtain ⟨injected, body, hinner, tail, htail, hsequences⟩ := renderScreenImpl_parts R s.grid s.state.title hpaints full cache hne
  obtain ⟨hinjected, hbody⟩ := List.forall_mem_append.1 hinner
  have hnone : ∀ es : List Event, (∀ e ∈ es, e.Inner) → .decSet 2026 ∉ es ∧ .decReset 2026 ∉ es ∧ .decSet 25 ∉ es :=
    fun es hes => ⟨fun h => (hes _ h).1 rfl, fun h => (hes _ h).2.1 rfl, fun h => (hes _ h).2.2.1 rfl⟩
  have htitle : .decSet 2026 ∉ tail ∧ .decReset 2026 ∉ tail ∧ .decSet 25 ∉ tail := by
    rcases htail with rfl | rfl
    · simp
    · simp [titleEvent, Event.decSet, Event.decReset]
  refine ⟨injected ++ [.decSet 2026, .decReset 25] ++ body ++ tail, hsequences, ?_, ?_, ?_⟩
  · simp only [List.count_append, List.count_eq_zero.2 (hnone _ hinjected).1, List.count_eq_zero.2 (hnone _ hbody).1,
      List.count_eq_zero.2 htitle.1]
    decide
  · simp only [List.mem_append, not_or]
    exact ⟨⟨⟨(hnone _ hinjected).2.1, by decide⟩, (hnone _ hbody).2.1⟩, htitle.2.1⟩
  · simp only [List.mem_append, not_or]
    exact ⟨⟨⟨(hnone _ hinjected).2.2, by decide⟩, (hnone _ hbody).2.2⟩, htitle.2.2⟩

/-- After a full frame with a line of scrollback. -/
theorem rendering_settles_sample :
    let s := Screen.new 2 1 10
    let frame := renderScreenBytes Viewed.rowHash s.grid s.state.title [renderLine (.new 2) s.grid.styleTable] true {}
    frame.1 ≠ [] ∧ renderScreenBytes Viewed.rowHash s.grid s.state.title [] false frame.2 = ([], frame.2) := by
  have hs : (Screen.new 2 1 10).Reachable .sample := Screen.new_reachable .sample 2 1 10 (by decide) (by decide)
  intro s frame
  refine ⟨List.cons_ne_nil _ _, (rendering_settles Viewed.rowHash hs (fun line hline => ?_) true {}).1⟩
  obtain rfl := List.mem_singleton.1 hline
  exact ⟨_, _, rfl⟩

end

end Retach
