import Mathlib.Algebra.Order.BigOperators.Group.List
import Retach.Pending
import Retach.Protocol
import Retach.Renderers
import Retach.Replay
import Retach.SideTable
import Retach.Sizes
/-!
# What the relay sends (`session_relay.rs`, `session_bridge.rs`)

The history goes to a client in chunks, each within the limit of a frame. What
scrolls off later goes in front of the next update, all of it in one message,
and the relay has taken it before it finds out that the message is too long.
-/

open Binary Runs
open Retach.Event (size digits written)
open Retach.Protocol (encode maxFrameSize)

namespace Retach

/-! ## Updates -/

/-- `prepend_passthrough`. -/
def prependPassthrough (passthrough : List (List UInt8)) (renderData : List UInt8) : List UInt8 :=
  if passthrough = [] then renderData else passthrough.flatten ++ renderData

theorem prependPassthrough_length (passthrough : List (List UInt8)) (renderData : List UInt8) :
    (prependPassthrough passthrough renderData).length = (passthrough.map List.length).sum + renderData.length := by
  unfold prependPassthrough
  split
  next hnil => rw [hnil, List.map_nil, List.sum_nil, Nat.zero_add]
  next => rw [List.length_append, List.length_flatten]

section

variable {H : Type} [DecidableEq H] (R : RowHash H)

namespace Screen

/-- `take_and_render`. -/
def takeAndRender (s : Screen) (cache : RenderCache H) : (List UInt8 × List (List UInt8)) × Screen × RenderCache H :=
  let (rows, s) := s.takePendingScrollback
  let lines := rows.map fun row => renderLine row s.grid.styleTable
  let (passthrough, s) := s.takePassthrough
  let (notifications, s) := s.takeQueuedNotifications
  let frame :=
    if lines ≠ [] then renderScreenBytes R s.grid s.state.title lines true cache
    else renderScreenBytes R s.grid s.state.title [] false cache
  ((frame.1, passthrough ++ notifications), s, frame.2)

/-- The branch of `screen_to_client` that sends an update, except that an empty
one is left out there. The screen is as `take_and_render` leaves it whether or
not the message can be encoded. -/
def relay (s : Screen) (cache : RenderCache H) :
    Except Protocol.ProtocolError (List UInt8) × Screen × RenderCache H :=
  let ((renderData, passthrough), s, cache) := s.takeAndRender R cache
  (encode (ServerMsg.screenUpdate (prependPassthrough passthrough renderData)), s, cache)

end Screen

end

/-! ## The history -/

def bincodeLineOverhead : Nat := 16

def lineSize (line : List UInt8) : Nat := line.length + bincodeLineOverhead

/-- The `History` messages of `send_initial_state`. -/
def Screen.historyChunks (s : Screen) : List (List (List UInt8)) :=
  chunkHistory lineSize (maxFrameSize / 2) [] 0 (if s.state.inAltScreen then [] else s.getHistory.map written)

/-! ## The size of a message -/

theorem enc_byte_length (b : UInt8) : (enc b).length = 1 := leBytes_length _ _

theorem enc_bytes_length (bs : List UInt8) : (enc bs).length = 8 + bs.length := by
  have hword : (enc (UInt64.ofNat bs.length)).length = 8 := leBytes_length _ _
  have hbytes : (bs.flatMap enc).length = bs.length := by
    clear hword
    induction bs with
    | nil => rfl
    | cons b bs ih => rw [List.flatMap_cons, List.length_append, ih, enc_byte_length, List.length_cons, Nat.add_comm]
  change (enc (UInt64.ofNat bs.length) ++ bs.flatMap enc).length = _
  rw [List.length_append, hword, hbytes]

theorem enc_lines_length (lines : List (List UInt8)) : (enc lines).length = 8 + (lines.map fun line => 8 + line.length).sum := by
  have hword : (enc (UInt64.ofNat lines.length)).length = 8 := leBytes_length _ _
  have hlines : (lines.flatMap enc).length = (lines.map fun line => 8 + line.length).sum := by
    rw [List.length_flatMap]
    exact congrArg List.sum (List.map_congr_left fun line _ => enc_bytes_length line)
  change (enc (UInt64.ofNat lines.length) ++ lines.flatMap enc).length = _
  rw [List.length_append, hword, hlines]

/-- An update has a variant number and a length before its bytes. -/
theorem enc_screenUpdate_length (data : List UInt8) : (enc (ServerMsg.screenUpdate data)).length = 12 + data.length := by
  have hword : (enc (UInt32.ofNat 0)).length = 4 := leBytes_length _ _
  change (enc (UInt32.ofNat 0) ++ enc data).length = _
  rw [List.length_append, hword, enc_bytes_length]
  omega

theorem enc_history_length (lines : List (List UInt8)) :
    (enc (ServerMsg.history lines)).length = 12 + (lines.map fun line => 8 + line.length).sum := by
  have hword : (enc (UInt32.ofNat 1)).length = 4 := leBytes_length _ _
  change (enc (UInt32.ofNat 1) ++ enc lines).length = _
  rw [List.length_append, hword, enc_lines_length]
  omega

/-- A message can be encoded if it is within the limit, and only then. -/
theorem encodes_iff (msg : ServerMsg) : (∃ bytes, encode msg = .ok bytes) ↔ (enc msg).length ≤ maxFrameSize :=
  ⟨fun ⟨_, h⟩ => (Protocol.encode_ok h).2, fun h => ⟨_, Protocol.encode_of_le h⟩⟩

theorem encode_error {msg : ServerMsg} (h : maxFrameSize < (enc msg).length) : encode msg = .error .deserialize := by
  unfold Protocol.encode Protocol.serialize
  rw [if_neg (Nat.not_le.2 h)]
  rfl

/-! ## Chunks -/

/-- What the loop counts for a chunk. -/
def countedSize (chunk : List (List UInt8)) : Nat := (chunk.map lineSize).sum

theorem countedSize_append (chunk : List (List UInt8)) (line : List UInt8) :
    countedSize (chunk ++ [line]) = countedSize chunk + lineSize line := by
  rw [countedSize, List.map_append, List.sum_append]
  rfl

/-- A chunk takes less than is counted for it. -/
theorem history_encodes {chunk : List (List UInt8)} (h : countedSize chunk + 12 ≤ maxFrameSize) :
    ∃ bytes, encode (ServerMsg.history chunk) = .ok bytes := by
  have hoverhead : 8 ≤ bincodeLineOverhead := by decide
  have hle : (chunk.map fun line => 8 + line.length).sum ≤ countedSize chunk := List.sum_le_sum fun line _ => by
    rw [lineSize]
    omega
  rw [encodes_iff, enc_history_length]
  omega

/-- A chunk is within half the limit, or a single line. -/
theorem chunkHistory_encodes {longest : Nat} (hlongest : longest + 28 ≤ maxFrameSize) {chunk lines : List (List UInt8)}
    (hlines : ∀ line ∈ lines, line.length ≤ longest) (hchunk : countedSize chunk + 12 ≤ maxFrameSize) :
    ∀ c ∈ chunkHistory lineSize (maxFrameSize / 2) chunk (countedSize chunk) lines, ∃ bytes, encode (ServerMsg.history c) = .ok bytes := by
  induction lines generalizing chunk with
  | nil =>
    rw [chunkHistory]
    split
    · exact fun c hc => absurd hc List.not_mem_nil
    · exact List.forall_mem_singleton.2 (history_encodes hchunk)
  | cons line lines ih =>
    obtain ⟨hline, hrest⟩ := List.forall_mem_cons.1 hlines
    have hsize : lineSize line = line.length + 16 := rfl
    rw [chunkHistory]
    by_cases hflush : countedSize chunk + lineSize line > maxFrameSize / 2 ∧ chunk ≠ []
    · have hone : countedSize [line] = lineSize line := rfl
      rw [if_pos hflush, ← hone]
      exact List.forall_mem_cons.2 ⟨history_encodes hchunk, ih hrest (by omega)⟩
    · rw [if_neg hflush, ← countedSize_append]
      refine ih hrest ?_
      rw [countedSize_append]
      rcases eq_or_ne chunk [] with rfl | hne
      · have hzero : countedSize [] = 0 := rfl
        omega
      · have hhalf : countedSize chunk + lineSize line ≤ maxFrameSize / 2 := by
          by_contra hover
          exact hflush ⟨Nat.lt_of_not_le hover, hne⟩
        unfold maxFrameSize at *
        omega

/-! ## The history of a screen -/

/-- As wide as a screen can be, and with no more marks than the code keeps. -/
def Row.Bounded (row : Row) : Prop := row.cells.length ≤ 65535 ∧ row.MarksBounded

/-- The longest line: every column of it sets a style and has all its marks. -/
theorem Row.Bounded.line_length {row : Row} (h : row.Bounded) (t : StyleTable) :
    (Event.written (renderLine row t)).length ≤ 144 * 65535 + 4 := by
  have hsize := Row.lineSize_le t h.2
  have hlen := h.1
  change size (renderLine row t) ≤ _
  rw [size_renderLine]
  omega

namespace Screen

variable {W : UnicodeWidth}

theorem Reachable.bounded {s : Screen} (h : s.Reachable W) : ∀ row ∈ s.allRows, row.Bounded := by
  intro row hr
  obtain ⟨hsound, hlen⟩ := h.rows Row.sound_invariant row hr
  exact ⟨hlen, fun e he => (hsound.count e he).2⟩

/-- The history of a screen arrives whole and in order: no message is empty,
each can be encoded, and without history there is none. On the alternate screen
no history is sent. -/
theorem history_arrives {s : Screen} (hs : s.Reachable W) {lines : List (List UInt8)}
    (hlines : lines = if s.state.inAltScreen then [] else s.getHistory.map written) :
    (∀ chunk ∈ s.historyChunks, chunk ≠ [] ∧ ∃ bytes, encode (ServerMsg.history chunk) = .ok bytes) ∧
      s.historyChunks.flatten = lines ∧ (lines = [] → s.historyChunks = []) := by
  have hlong : ∀ line ∈ lines, line.length ≤ 144 * 65535 + 4 := by
    rw [hlines]
    split
    · exact fun line hl => absurd hl List.not_mem_nil
    · intro line hl
      obtain ⟨es, hes, rfl⟩ := List.mem_map.1 hl
      obtain ⟨row, hr, rfl⟩ := List.mem_map.1 hes
      exact (hs.bounded row (scrollback_mem s hr)).line_length _
  have hchunks : s.historyChunks = chunkHistory lineSize (maxFrameSize / 2) [] 0 lines := by rw [hlines, historyChunks]
  have hempty : countedSize [] + 12 ≤ maxFrameSize := by decide
  rw [hchunks]
  refine ⟨fun chunk hc => ⟨chunkHistory_ne_nil _ _ _ chunk hc, ?_⟩, chunkHistory_flatten _ _ _, ?_⟩
  · exact chunkHistory_encodes (by decide) hlong hempty chunk hc
  · rintro rfl
    rfl

theorem history_arrives_sample : ∃ s, (Screen.new 4 1 10).run .sample
    [.callback (.print 'a'), .callback (.execute 10), .callback (.print '世'), .callback (.execute 10)] = some s ∧
      (∀ chunk ∈ s.historyChunks, chunk ≠ [] ∧ ∃ bytes, encode (ServerMsg.history chunk) = .ok bytes) ∧
        s.historyChunks.flatten = s.getHistory.map written := by
  obtain ⟨s, hrun, hmain⟩ : ∃ s, (Screen.new 4 1 10).run .sample
      [.callback (.print 'a'), .callback (.execute 10), .callback (.print '世'), .callback (.execute 10)] = some s ∧
        s.state.inAltScreen = false := ⟨_, rfl, rfl⟩
  have hs : s.Reachable .sample := ⟨4, 1, 10, _, by decide, by decide, by simp [Action.Sized], hrun⟩
  obtain ⟨hchunks, hlines, -⟩ := history_arrives hs rfl
  exact ⟨s, hrun, hchunks, by rw [hlines, hmain]; rfl⟩

end Screen

/-! ## Screens without OSC sequences -/

/-- Nothing is left of an OSC sequence, and no row is longer or has more marks
than the grid allows. -/
structure Screen.OscFree (s : Screen) : Prop where
  inv : s.Inv
  quiet : s.state.Quiet
  rows : ∀ row ∈ s.allRows, row.cells.length = s.grid.cols ∧ row.MarksBounded

/-- The effects of callbacks that are not OSC sequences. -/
def Kind.OscFree (k : Kind) : Prop := k ≠ .osc ∧ k ≠ .title ∧ k ≠ .resize

theorem Effect.oscFree {k : Kind} {s s' : Screen} (h : Effect k s s') (hk : k.OscFree) (hs : s.OscFree) : s'.OscFree := by
  obtain ⟨hosc, htitle, hresize⟩ := hk
  have hrewrite : ∀ id r r', Row.Rewrite id r r' → r.cells.length = s.grid.cols ∧ r.MarksBounded →
      r'.cells.length = s.grid.cols ∧ r'.MarksBounded := fun id r r' he hr => ⟨he.cells.1.trans hr.1, he.marks hr.2⟩
  refine ⟨h.inv hs.inv, h.quiet hosc htitle hs.quiet, ?_⟩
  rw [(h.dims hresize).1]
  refine h.keeps_rows hs.inv (fun id r r' he => hrewrite id r r' he.toRewrite) (fun _ => hrewrite) ?_ ?_ hs.rows
  · intro _ r r' hm hr
    exact ⟨(congrArg List.length hm.cells).trans hr.1, hm.marks hr.2⟩
  · rintro cols - (hk | rfl)
    · exact absurd hk hresize
    · refine ⟨⟨by simp [Row.new, Row.filled], fun e he => absurd he List.not_mem_nil⟩, fun r hr => ⟨fit_length _ _, ?_⟩⟩
      have hcut : ¬ s.grid.cols < r.cells.length := Nat.not_lt.2 (Nat.le_of_eq hr.1)
      unfold Row.fitted
      rw [if_neg hcut]
      exact hr.2

namespace Screen

theorem new_oscFree {cols rows : Nat} (limit : Nat) (hcols : cols ≤ 65535) (hrows : rows ≤ 65535) :
    (Screen.new cols rows limit).OscFree where
  inv := new_inv limit hcols hrows
  quiet := ⟨rfl, by simp [Screen.new], rfl, Nat.zero_le _, by simp [Screen.new]⟩
  rows := fun row hr => by
    simp only [allRows, Screen.new, Grid.new, SavedGrid.rows, List.append_nil] at hr
    rw [(List.mem_replicate.1 hr).2]
    exact ⟨by simp [Row.new, Row.filled, Screen.new, Grid.new], fun e he => absurd he List.not_mem_nil⟩

variable (W : UnicodeWidth) {s t : Screen}

theorem allows_oscFree {e : Event} (h : ¬ e.IsOsc) (s : Screen) : Allows W Kind.OscFree s e where
  other := by simp [Kind.OscFree]
  move := by simp [Kind.OscFree]
  modes := by simp [Kind.OscFree]
  orphan := everyPrint_of_forall W (by simp [Kind.OscFree]) s e
  control := everyPrint_of_forall W (by simp [Kind.OscFree]) s e
  save := everySave_of_forall (by simp [Kind.OscFree]) s e
  enter := by simp [Kind.OscFree]
  exit := by simp [Kind.OscFree]
  clear := by simp [Kind.OscFree]
  reset := by simp [Kind.OscFree]
  title := fun ho => absurd (by unfold Event.OscBounded; split; exact absurd trivial h; trivial) ho
  osc := fun ho => absurd ho h

theorem process_oscFree {es : List Event} (hes : ∀ e ∈ es, ¬ e.IsOsc) (hs : s.OscFree) (hrun : s.process W es = some t) :
    t.OscFree ∧ t.grid.cols = s.grid.cols ∧ t.grid.rows = s.grid.rows :=
  ⟨(Along.of_forall hes s).keeps (I := OscFree) (fun t e t' h he hstep =>
    (step_leads h.inv e (allows_oscFree W he t) t' hstep).keeps (fun _ _ _ hk heff => heff.oscFree hk) h) hs hrun,
    steps_dims (by simp) (process_steps W hs.inv hrun)⟩

end Screen

/-! ## The size of an update -/

namespace Screen

/-- The frame behind the scrollback of an update: its header, the clear and the
end take 33 bytes. -/
def frameSize (s : Screen) : Nat :=
  33 + rowsSize s.grid.styleTable 0 s.grid.visibleRows + tailSize s.grid + if s.grid.cursorVisible then 6 else 0

/-- The scrollback of an update. Every screenful of it goes to all rows. -/
def pendingSize (s : Screen) : Nat :=
  9 + (s.pendingRows.map fun row => row.lineSize s.grid.styleTable + 4).sum +
    (s.pendingRows.length + s.grid.rows - 1) / s.grid.rows * (5 + digits s.grid.rows + addressSize 0 s.grid.rows)

def passthroughSize (s : Screen) : Nat := (s.state.pendingPassthrough.map List.length).sum

/-- Nothing is pending, or one message has room for all of it. -/
def UpdateFits (s : Screen) : Prop :=
  s.pendingRows = [] ∨ 12 + s.passthroughSize + s.pendingSize + s.frameSize ≤ maxFrameSize

variable {W : UnicodeWidth} {s : Screen} {H : Type} [DecidableEq H] (R : RowHash H)

/-- The bytes of the update that `relay` sends. -/
def update (s : Screen) (cache : RenderCache H) : List UInt8 :=
  prependPassthrough (s.takeAndRender R cache).1.2 (s.takeAndRender R cache).1.1

theorem relay_encodes_iff (cache : RenderCache H) :
    (∃ bytes, (s.relay R cache).1 = .ok bytes) ↔ 12 + (s.update R cache).length ≤ maxFrameSize := by
  rw [← enc_screenUpdate_length]
  exact encodes_iff _

theorem short_title : (([] : List UInt8).filter fun b => b ≥ 0x20 ∧ b ≠ 0x7f).length ≤ 1023 := by decide

/-- The frame of an update with scrollback. -/
theorem renderScreenBytes_full (h : s.Inv) {lines : List (List Event)} (hne : lines ≠ []) (cache : RenderCache H) :
    (renderScreenBytes R s.grid [] lines true cache).1.length = size (renderScrollback s.grid lines) + s.frameSize := by
  have hheader : size [Event.decSet 2026, Event.decReset 25] = 14 := rfl
  have hclear : size (clearEvents true) = 11 := rfl
  have hshow : size [Event.decSet 25] = 6 := rfl
  have hend : size [Event.decReset 2026] = 8 := rfl
  have hhashes : s.grid.visibleRows.length ≤ (({} : RenderCache H).hashesFor R s.grid.visibleRowCount).length := by
    rw [Viewed.hashesFor_length, Viewed.visibleRowCount_eq h.shape]
  have hbody : size (renderBody R s.grid [] true ({} : RenderCache H)).1 =
      11 + rowsSize s.grid.styleTable 0 s.grid.visibleRows + tailSize s.grid := by
    unfold renderBody
    simp only [if_true, RenderCache.invalidate, Event.size_append]
    rw [hclear, size_renderRows_full R s.grid.styleTable 0 s.grid.visibleRows _ hhashes, size_tail_full]
    rfl
  have hsome : (renderBody R s.grid [] true ({} : RenderCache H)).1 ≠ [] := by
    unfold renderBody clearEvents
    simp
  rw [renderScreenBytes_eq R s.grid short_title]
  unfold renderScreenImpl
  simp only [if_pos hne, Bool.true_or, RenderCache.invalidate]
  rw [if_neg fun hempty => hsome hempty.1]
  change size _ = _
  rw [Event.size_append, Event.size_append, Event.size_append, Event.size_append, hheader, hbody, hend, apply_ite size, hshow,
    Event.size_nil, frameSize]
  omega

/-- The frame of an update without scrollback. -/
theorem renderScreenBytes_le (h : s.OscFree) (cache : RenderCache H) :
    (renderScreenBytes R s.grid [] [] false cache).1.length ≤ s.grid.rows * (144 * s.grid.cols + 17) + 146 := by
  have hheader : size [Event.decSet 2026, Event.decReset 25] = 14 := rfl
  have hend : size [Event.decReset 2026] = 8 := rfl
  have hshow : size (if s.grid.cursorVisible then [Event.decSet 25] else []) ≤ 6 := Event.size_ite_le _ _
  have hbody : size (renderBody R s.grid [] false cache).1 ≤ s.grid.rows * (144 * s.grid.cols + 17) + 118 := by
    have hrows := size_renderRows_le R s.grid.styleTable false 0 s.grid.visibleRows (cache.hashesFor R s.grid.visibleRowCount)
      fun row hr => h.rows row (h.inv.visible_mem hr)
    have htail := size_tail_le s.grid false
      { cache with rowHashes := (renderRows R s.grid.styleTable false 0 s.grid.visibleRows (cache.hashesFor R s.grid.visibleRowCount)).2 }
    have hmax := tailSize_le s.grid
    rw [h.inv.shape.visible_length] at hrows
    unfold renderBody
    simp only [Bool.false_eq_true, if_false, Event.size_append, clearEvents, Event.size_nil]
    omega
  rw [renderScreenBytes_eq R s.grid short_title]
  unfold renderScreenImpl
  simp only [ne_eq, not_true_eq_false, if_false, decide_false, Bool.or_false]
  by_cases hempty : (renderBody R s.grid [] false cache).1 = [] ∧
      (renderBody R s.grid [] false cache).2.lastCursorVisible = some s.grid.cursorVisible
  · rw [if_pos hempty]
    exact Nat.zero_le _
  · rw [if_neg hempty]
    change size _ ≤ _
    rw [Event.size_append, Event.size_append, Event.size_append, Event.size_append, hheader, hend, Event.size_nil]
    omega

/-- The bytes of an update. Taking what is pending changes no frame. -/
theorem update_eq (s : Screen) (cache : RenderCache H) : s.update R cache =
    prependPassthrough (s.state.pendingPassthrough ++ s.state.queuedNotifications)
      (if (s.pendingRows.map fun row => renderLine row s.grid.styleTable) ≠ [] then
        (renderScreenBytes R s.grid s.state.title (s.pendingRows.map fun row => renderLine row s.grid.styleTable) true cache).1
      else (renderScreenBytes R s.grid s.state.title [] false cache).1) := by
  rw [← apply_ite Prod.fst]
  rfl

theorem OscFree.update_length (h : s.OscFree) (cache : RenderCache H) : (s.update R cache).length = s.passthroughSize +
    if (s.pendingRows.map fun row => renderLine row s.grid.styleTable) ≠ [] then
      (renderScreenBytes R s.grid [] (s.pendingRows.map fun row => renderLine row s.grid.styleTable) true cache).1.length
    else (renderScreenBytes R s.grid [] [] false cache).1.length := by
  rw [update_eq, prependPassthrough_length, h.quiet.notifications, h.quiet.title, List.append_nil, apply_ite List.length]
  rfl

/-- With scrollback pending, the size of the update is known. -/
theorem update_length (h : s.OscFree) (hpending : s.pendingRows ≠ []) (cache : RenderCache H) :
    (s.update R cache).length = s.passthroughSize + s.pendingSize + s.frameSize := by
  have hlines : (s.pendingRows.map fun row => renderLine row s.grid.styleTable) ≠ [] := by simpa using hpending
  have hsizes : (s.pendingRows.map ((fun line => size line + 4) ∘ fun row => renderLine row s.grid.styleTable)) =
      s.pendingRows.map fun row => row.lineSize s.grid.styleTable + 4 :=
    List.map_congr_left fun row _ => congrArg (· + 4) (size_renderLine row s.grid.styleTable)
  have hrows : 0 < s.grid.rows := h.inv.shape.rows_pos
  rw [h.update_length, if_pos hlines, renderScreenBytes_full R h.inv hlines, size_renderScrollback hrows, List.map_map, hsizes,
    List.length_map, pendingSize]
  omega

/-- The passthrough that callbacks other than OSC sequences leave. -/
theorem OscFree.passthroughSize_le (h : s.OscFree) : s.passthroughSize ≤ 4096 := by
  have hlen := h.quiet.passthrough_length
  have hsum : s.passthroughSize ≤ s.state.pendingPassthrough.length * 4 :=
    List.sum_le_card_nsmul _ 4 (by simpa using h.quiet.passthrough) |>.trans (by simp)
  unfold maxPending at hlen
  omega

/-- Without scrollback, an update is one frame. -/
theorem update_length_le (h : s.OscFree) (hpending : s.pendingRows = []) (cache : RenderCache H) :
    (s.update R cache).length ≤ s.grid.rows * (144 * s.grid.cols + 17) + 4242 := by
  have hpass := h.passthroughSize_le
  have hframe := renderScreenBytes_le R h cache
  rw [h.update_length, hpending, List.map_nil, if_neg (not_not_intro rfl)]
  omega

/-! ## Small grids -/

theorem area_le {cols rows : Nat} (hcols : cols ≤ 65535) (hrows : rows ≤ 65535) (harea : cols * rows ≤ 20000) :
    max rows 1 * max cols 1 ≤ 65535 := by
  rcases Nat.eq_zero_or_pos cols with rfl | hc
  · rw [Nat.zero_max, Nat.mul_one]
    omega
  · rcases Nat.eq_zero_or_pos rows with rfl | hr
    · rw [Nat.zero_max, Nat.one_mul]
      omega
    · rw [Nat.max_eq_left hc, Nat.max_eq_left hr, Nat.mul_comm]
      omega

/-- A frame of a small grid fits. -/
theorem frame_le {c r : Nat} (hr : r ≤ 65535) (harea : r * c ≤ 65535) : r * (144 * c + 17) + 4254 ≤ maxFrameSize := by
  have hmul : r * (144 * c + 17) = 144 * (r * c) + r * 17 := by rw [Nat.mul_add, Nat.mul_left_comm]
  unfold maxFrameSize
  omega

/-- Every chunk of the history can be encoded. -/
theorem OscFree.history (h : s.OscFree) :
    ∀ chunk ∈ s.historyChunks, ∃ bytes, encode (ServerMsg.history chunk) = .ok bytes := by
  have hcols := h.inv.shape.cols_le
  have hline : ∀ line ∈ (if s.state.inAltScreen then [] else s.getHistory.map written), line.length ≤ 144 * 65535 + 4 := by
    split
    · exact fun line hl => absurd hl List.not_mem_nil
    · intro line hl
      obtain ⟨es, hes, rfl⟩ := List.mem_map.1 hl
      obtain ⟨row, hr, rfl⟩ := List.mem_map.1 hes
      obtain ⟨hlen, hmarks⟩ := h.rows row (scrollback_mem s hr)
      have hsize := Row.lineSize_le s.grid.styleTable hmarks
      rw [← size_renderLine, hlen] at hsize
      change size _ ≤ _
      omega
  have hempty : countedSize [] + 12 ≤ maxFrameSize := by decide
  exact chunkHistory_encodes (by decide) hline hempty

/-! ## Which updates can be sent -/

/-- After any output without OSC sequences, the update and the chunks of the
history can be encoded exactly if the update is not too long for all that is
pending. Without scrollback pending it never is, and no chunk ever is. -/
theorem updates_encode_iff {cols rows limit : Nat} (hcols : cols ≤ 65535) (hrows : rows ≤ 65535) (harea : cols * rows ≤ 20000)
    {es : List Event} (hes : ∀ e ∈ es, ¬ e.IsOsc) (hrun : (Screen.new cols rows limit).process W es = some s)
    (cache : RenderCache H) :
    ((∃ bytes, (s.relay R cache).1 = .ok bytes) ∧
      ∀ chunk ∈ s.historyChunks, ∃ bytes, encode (ServerMsg.history chunk) = .ok bytes) ↔ s.UpdateFits := by
  obtain ⟨h, hc, hr⟩ := process_oscFree W hes (new_oscFree limit hcols hrows) hrun
  have harea := area_le hcols hrows harea
  have hrows := h.inv.shape.rows_le
  rw [and_iff_left h.history, relay_encodes_iff]
  by_cases hpending : s.pendingRows = []
  · refine iff_of_true ?_ (.inl hpending)
    have hlen := update_length_le R h hpending cache
    have hframe := frame_le hrows (show s.grid.rows * s.grid.cols ≤ 65535 by rw [hc, hr]; exact harea)
    omega
  · rw [update_length R h hpending, UpdateFits, or_iff_right hpending]
    simp only [Nat.add_assoc]

end Screen

theorem Screen.updates_encode_sample : ∃ s, (Screen.new 2 1 10).process .sample [.print 'a', .execute 0x0a, .execute 0x0a] = some s ∧
    (∃ bytes, (s.relay Viewed.rowHash {}).1 = .ok bytes) ∧
      ∀ chunk ∈ s.historyChunks, ∃ bytes, encode (ServerMsg.history chunk) = .ok bytes := by
  have hes : ∀ e ∈ [Event.print 'a', .execute 0x0a, .execute 0x0a], ¬ e.IsOsc := by simp [Event.IsOsc]
  have hfits : ∃ s, (Screen.new 2 1 10).process .sample [.print 'a', .execute 0x0a, .execute 0x0a] = some s ∧ s.UpdateFits :=
    ⟨_, rfl, by unfold UpdateFits; decide⟩
  obtain ⟨s, hrun, hfits⟩ := hfits
  exact ⟨s, hrun, (updates_encode_iff Viewed.rowHash (by decide) (by decide) (by decide) hes hrun {}).2 hfits⟩

/-! ## A message that is too long -/

namespace Screen

variable {s : Screen} {H : Type} [DecidableEq H] (R : RowHash H)

/-- A screen of one cell with `n` blank lines scrolled off. -/
def blankPile (n limit : Nat) : Screen :=
  { Screen.new 1 1 limit with
    grid := { Grid.new 1 1 limit with cells := List.replicate (n + 1) (.new 1), scrollbackLen := n }
    scrolledOff := List.replicate n (.new 1) }

theorem blankPile_visible (n limit : Nat) : (blankPile n limit).grid.visibleRows = [.new 1] := by
  change ((List.replicate (n + 1) (Row.new 1)).drop n).take 1 = [.new 1]
  rw [List.drop_replicate, Nat.add_sub_cancel_left]
  rfl

theorem blankPile_scrollback (n limit : Nat) : (blankPile n limit).grid.scrollbackRows = List.replicate n (.new 1) := by
  change (List.replicate (n + 1) (Row.new 1)).take n = _
  rw [List.take_replicate, Nat.min_eq_left (Nat.le_succ n)]

theorem blankPile_step (W : UnicodeWidth) {n limit : Nat} (h : (blankPile n limit).Inv) (hn : n < limit) :
    (blankPile n limit).step W (.execute 0x0a) = some (blankPile (n + 1) limit) := by
  have hdisplaced : (blankPile n limit).displacedRow = [.new 1] := by
    change ((List.replicate (n + 1) (Row.new 1))[n]?).toList = _
    rw [List.getElem?_replicate, if_pos (Nat.lt_succ_self n)]
    rfl
  rw [step_feed h rfl rfl rfl rfl rfl hn (blankPile_visible n limit), blankPile_scrollback, hdisplaced]
  have hcells : List.replicate n (Row.new 1) ++ [.new 1] ++ ([] ++ [.filled 1 {}]) = List.replicate (n + 2) (.new 1) := by
    rw [← List.replicate_succ', List.nil_append]
    exact (List.replicate_succ' (n := n + 1) (a := Row.new 1)).symm
  have hlog : List.replicate n (Row.new 1) ++ [.new 1] = List.replicate (n + 1) (.new 1) := List.replicate_succ'.symm
  change some { Screen.new 1 1 limit with
    grid := { Grid.new 1 1 limit with
      cells := List.replicate n (Row.new 1) ++ [Row.new 1] ++ ([] ++ [Row.filled 1 {}]), scrollbackLen := n + 1 }
    scrolledOff := List.replicate n (Row.new 1) ++ [Row.new 1] } = _
  rw [hcells, hlog]
  rfl

/-- Line feeds pile blank lines up, as far as the limit allows. -/
theorem process_feeds (W : UnicodeWidth) {n limit : Nat} (hn : n ≤ limit) :
    (Screen.new 1 1 limit).process W (List.replicate n (.execute 0x0a)) = some (blankPile n limit) := by
  induction n with
  | zero => rfl
  | succ n ih =>
    have hprev := ih (Nat.le_of_succ_le hn)
    have hinv := steps_inv (process_steps W (new_inv limit (by decide) (by decide)) hprev) (new_inv limit (by decide) (by decide))
    rw [List.replicate_succ', process_append, hprev, Option.bind_some, process_one]
    exact blankPile_step W hinv hn

theorem blankPile_pendingRows {n limit : Nat} (h : (blankPile n limit).Inv) :
    (blankPile n limit).pendingRows = List.replicate n (.new 1) := by
  rw [h.pendingRows_eq, blankPile_scrollback]
  exact List.drop_zero

/-- Every blank line takes twenty bytes. -/
theorem blankPile_update {n limit : Nat} (h : (blankPile n limit).OscFree) (hn : 0 < n) (cache : RenderCache H) :
    20 * n < ((blankPile n limit).update R cache).length := by
  have hrows := blankPile_pendingRows h.inv
  have hline : (blankPile n limit).grid.rows = 1 := rfl
  have haddress : 5 + digits 1 + addressSize 0 1 = 16 := rfl
  rw [update_length R h (by rw [hrows]; simp; omega), pendingSize, hrows, hline, haddress, List.map_replicate,
    List.sum_replicate_nat, List.length_replicate, Nat.add_sub_cancel, Nat.div_one]
  have hfour := Nat.mul_le_mul_left n (Nat.le_add_left 4 ((Row.new 1).lineSize (blankPile n limit).grid.styleTable))
  omega

/-- The relay has taken what was pending when it fails. -/
theorem relay_takes (h : s.Inv) (cache : RenderCache H) : (s.relay R cache).2.1.pendingRows = [] := by
  change ((s.grid.scrollbackRows).drop s.grid.scrollbackLen).take _ = []
  rw [List.drop_eq_nil_of_le (Nat.le_of_eq h.shape.scrollback_length), List.take_nil]

/-- As many line feeds as fill a message at twenty bytes each. -/
theorem feeds_too_long (W : UnicodeWidth) {n limit : Nat} (hn : n ≤ limit) (hlong : maxFrameSize ≤ 20 * n) (cache : RenderCache H) :
    ∃ s, (Screen.new 1 1 limit).process W (List.replicate n (.execute 0x0a)) = some s ∧ s.pendingRows.length = n ∧
      (s.relay R cache).1 = .error .deserialize ∧ (s.relay R cache).2.1.pendingRows = [] := by
  have hrun := process_feeds W hn
  have hfree := (process_oscFree W (by simp [Event.IsOsc]) (new_oscFree limit (by decide) (by decide)) hrun).1
  have hpos : 0 < n := by
    unfold maxFrameSize at hlong
    omega
  refine ⟨blankPile n limit, hrun, ?_, ?_, relay_takes R hfree.inv cache⟩
  · rw [blankPile_pendingRows hfree.inv, List.length_replicate]
  · have hlen := blankPile_update R hfree hpos cache
    refine encode_error ?_
    rw [enc_screenUpdate_length]
    change maxFrameSize < 12 + ((blankPile n limit).update R cache).length
    omega

/-- A million empty lines scroll off a screen of one cell. The update is more
than 20 MB long, so the relay fails, and the lines are taken all the same. -/
theorem update_too_long : ∃ s, (Screen.new 1 1 1000000).process .sample (List.replicate 1000000 (.execute 0x0a)) = some s ∧
    s.pendingRows.length = 1000000 ∧ (s.relay Viewed.rowHash {}).1 = .error .deserialize ∧
      (s.relay Viewed.rowHash {}).2.1.pendingRows = [] :=
  feeds_too_long Viewed.rowHash .sample (Nat.le_refl 1000000) (by decide) {}

end Screen

end Retach
