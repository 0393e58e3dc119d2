import Retach.Safety
import Retach.Lib.Lists
/-!
# What a screen queues (`screen/mod.rs`, `screen/performer.rs`)

Beside its frames a screen has answers for the program, sequences to pass
through to the client, and notifications to keep for it. The queues are bounded:
a full one takes no more answers and nothing more to pass through, but drops the
oldest notification.
-/

open Checked Lists

namespace Retach

structure Outbox where
  responses : List (List UInt8) := []
  passthrough : List (List UInt8) := []
  notifications : List (List UInt8) := []
deriving DecidableEq, Repr

namespace Outbox

/-- One thing after another, before any bound. -/
def append (o o' : Outbox) : Outbox :=
  ⟨o.responses ++ o'.responses, o.passthrough ++ o'.passthrough, o.notifications ++ o'.notifications⟩

/-- What the queues keep: the oldest answers and passthrough, the newest
notifications. -/
def capped (o : Outbox) : Outbox :=
  ⟨o.responses.take maxPending, o.passthrough.take maxPending, o.notifications.rtake maxQueuedNotifications⟩

structure Bounded (o : Outbox) : Prop where
  responses : o.responses.length ≤ maxPending
  passthrough : o.passthrough.length ≤ maxPending
  notifications : o.notifications.length ≤ maxQueuedNotifications

variable {o o' o'' : Outbox}

@[simp] theorem append_nil (o : Outbox) : o.append {} = o := by simp [append]

@[simp] theorem nil_append (o : Outbox) : Outbox.append {} o = o := by simp [append]

theorem append_assoc (o o' o'' : Outbox) : (o.append o').append o'' = o.append (o'.append o'') := by simp [append]

theorem Bounded.capped (h : o.Bounded) : o.capped = o := by
  rw [Outbox.capped, List.take_of_length_le h.responses, List.take_of_length_le h.passthrough,
    rtake_of_length_le h.notifications]

theorem capped_bounded (o : Outbox) : o.capped.Bounded where
  responses := List.length_take_le _ _
  passthrough := List.length_take_le _ _
  notifications := by
    rw [Outbox.capped, List.rtake, List.length_drop]
    omega

theorem take_append_take {α : Type} (n : Nat) (l m : List α) : (l.take n ++ m).take n = (l ++ m).take n := by
  rw [List.take_append, List.take_take, Nat.min_self, List.take_append, List.length_take]
  rcases Nat.le_total l.length n with h | h
  · rw [Nat.min_eq_right h]
  · rw [Nat.min_eq_left h, Nat.sub_self, Nat.sub_eq_zero_of_le h]

/-- Queues that were cut before take what they would take in one go. -/
theorem capped_append (o o' : Outbox) : (o.capped.append o').capped = (o.append o').capped := by
  simp only [Outbox.capped, append, take_append_take, rtake_append_rtake]

end Outbox

def ScreenState.outbox (st : ScreenState) : Outbox := ⟨st.pendingResponses, st.pendingPassthrough, st.queuedNotifications⟩

namespace ScreenState

variable {st : ScreenState}

theorem outbox_pushResponse (h : st.outbox.Bounded) (data : List UInt8) :
    (st.pushResponse data).outbox = (st.outbox.append { responses := [data] }).capped := by
  have hlen : st.pendingResponses.length ≤ maxPending := h.responses
  have hpass : st.pendingPassthrough.length ≤ maxPending := h.passthrough
  have hnote : st.queuedNotifications.length ≤ maxQueuedNotifications := h.notifications
  simp only [outbox, Outbox.append, Outbox.capped, List.append_nil, List.take_of_length_le hpass, rtake_of_length_le hnote,
    pushResponse]
  split
  next hlt => rw [List.take_of_length_le (by rw [List.length_append]; exact hlt)]
  next hge => rw [List.take_append_of_le_length (by omega), List.take_of_length_le hlen]

theorem outbox_pushPassthrough (h : st.outbox.Bounded) (data : List UInt8) :
    (st.pushPassthrough data).outbox = (st.outbox.append { passthrough := [data] }).capped := by
  have hlen : st.pendingPassthrough.length ≤ maxPending := h.passthrough
  have hresp : st.pendingResponses.length ≤ maxPending := h.responses
  have hnote : st.queuedNotifications.length ≤ maxQueuedNotifications := h.notifications
  simp only [outbox, Outbox.append, Outbox.capped, List.append_nil, List.take_of_length_le hresp, rtake_of_length_le hnote,
    pushPassthrough]
  split
  next hlt => rw [List.take_of_length_le (by rw [List.length_append]; exact hlt)]
  next hge => rw [List.take_append_of_le_length (by omega), List.take_of_length_le hlen]

theorem outbox_pushNotification (h : st.outbox.Bounded) (data : List UInt8) :
    (st.pushNotification data).outbox = (st.outbox.append { notifications := [data] }).capped := by
  have hlen : st.queuedNotifications.length ≤ maxQueuedNotifications := h.notifications
  have hresp : st.pendingResponses.length ≤ maxPending := h.responses
  have hpass : st.pendingPassthrough.length ≤ maxPending := h.passthrough
  simp only [outbox, Outbox.append, Outbox.capped, List.append_nil, List.take_of_length_le hresp, List.take_of_length_le hpass,
    pushNotification]
  split
  next hge =>
    have hfull : st.queuedNotifications.length = maxQueuedNotifications := Nat.le_antisymm hlen hge
    have hpos : 0 < st.queuedNotifications.length := hfull ▸ (by decide : 0 < maxQueuedNotifications)
    rw [List.rtake, List.length_append, List.length_singleton, hfull, Nat.add_sub_cancel_left,
      List.drop_append_of_le_length hpos, List.drop_one]
  next hlt => rw [rtake_of_length_le (by rw [List.length_append, List.length_singleton]; omega)]

end ScreenState

namespace Screen

def outbox (s : Screen) : Outbox := s.state.outbox

/-! ## What a callback queues -/

def clearSequence : List UInt8 := [0x1b, 0x5b, 0x33, 0x4a]

/-- BEL, ED 3 and RIS pass something through, and so do all OSC sequences that
neither set a title nor notify; DSR 6 and DA are answered. -/
def posts (s : Screen) : Event → Outbox
  | .execute 0x07 => { passthrough := [[0x07]] }
  | .csi ps _ 'J' => if param ps 0 0 = 3 then { passthrough := [clearSequence] } else {}
  | .csi ps intermediates 'n' =>
    if intermediates = [] ∧ param ps 0 0 = 6 then { responses := s.cursorReport.toList } else {}
  | .csi ps intermediates 'c' =>
    if param ps 0 0 = 0 then
      if intermediates = [] then { responses := [[0x1b, 0x5b, 0x3f, 0x36, 0x32, 0x3b, 0x63]] }
      else if intermediates = ['>'] then { responses := [[0x1b, 0x5b, 0x3e, 0x30, 0x3b, 0x31, 0x30, 0x3b, 0x31, 0x63]] }
      else {}
    else {}
  | .esc [] 'c' => { passthrough := [clearSequence] }
  | .osc (num :: rest) bell =>
    let oscNum := parseU16 num
    if oscNum = some 0 ∨ oscNum = some 2 then {}
    else if oscNum = some 9 ∨ oscNum = some 777 ∨ oscNum = some 99 then { notifications := [oscSequence (num :: rest) bell] }
    else { passthrough := [oscSequence (num :: rest) bell] }
  | _ => {}

/-- The queues of the result. -/
def Posts (o : Outbox) (x : Option Screen) : Prop := Ends (fun t => t.outbox = o) x

variable {s : Screen} {o : Outbox}

/-! ### Painting -/

theorem internWithGc_posts (h : s.outbox = o) (style : Style) : Ends (fun p => p.2.outbox = o) (s.internWithGc style) := by
  refine .after fun p => ?_
  dsimp only
  split
  · exact .after fun p => .pure h
  · exact .pure h

theorem blankCell_posts (h : s.outbox = o) : Ends (fun p => p.2.outbox = o) s.blankCell :=
  .bind (internWithGc_posts h _) fun _ hp => .pure hp

theorem scrollUp_posts (h : s.outbox = o) : Posts o s.scrollUp :=
  .bind (blankCell_posts h) fun _ hp => .after fun _ => .pure hp

theorem scrollDown_posts (h : s.outbox = o) : Posts o s.scrollDown :=
  .bind (blankCell_posts h) fun _ hp => .after fun _ => .pure hp

theorem advanceLine_posts (h : s.outbox = o) : Posts o s.advanceLine := by
  unfold advanceLine
  split
  · exact scrollUp_posts h
  · refine .after fun last => ?_
    split
    · exact .after fun y => .pure h
    · exact .pure h

theorem csiEraseDisplay_posts (h : s.outbox = o) (hb : o.Bounded) (mode : Nat) :
    Posts (o.append (if mode = 3 then { passthrough := [clearSequence] } else {})).capped (s.csiEraseDisplay mode) := by
  refine .bind (blankCell_posts h) fun p hp => ?_
  obtain ⟨blank, t⟩ := p
  have hsame : (o.append {}).capped = o := by rw [Outbox.append_nil, hb.capped]
  match mode with
  | 0 => exact .after fun _ => .after fun _ => .pure (hp.trans hsame.symm)
  | 1 => exact .after fun _ => .after fun _ => .pure (hp.trans hsame.symm)
  | 2 => exact .after fun _ => .pure (hp.trans hsame.symm)
  | 3 =>
    obtain rfl : t.outbox = o := hp
    exact .after fun _ => .pure (ScreenState.outbox_pushPassthrough hb _)
  | mode + 4 => exact .pure (hp.trans hsame.symm)

theorem csiEraseLine_posts (h : s.outbox = o) (mode : Nat) : Posts o (s.csiEraseLine mode) := by
  refine .bind (blankCell_posts h) fun p hp => ?_
  dsimp only
  split
  · exact .after fun _ => .pure hp
  · exact .after fun _ => .pure hp
  · exact .after fun _ => .pure hp
  · exact .pure hp

theorem csiEraseCharacter_posts (h : s.outbox = o) (n : Nat) : Posts o (s.csiEraseCharacter n) := by
  refine .bind (blankCell_posts h) fun p hp => ?_
  dsimp only
  split
  · exact .after fun _ => .pure hp
  · exact .pure hp

theorem csiDeleteCharacter_posts (h : s.outbox = o) (n : Nat) : Posts o (s.csiDeleteCharacter n) := by
  refine .bind (blankCell_posts h) fun p hp => ?_
  dsimp only
  split
  · exact .after fun _ => .after fun _ => .after fun _ => .pure hp
  · exact .pure hp

theorem csiInsertCharacter_posts (h : s.outbox = o) (n : Nat) : Posts o (s.csiInsertCharacter n) := by
  refine .bind (blankCell_posts h) fun p hp => ?_
  dsimp only
  split
  · exact .after fun _ => .after fun _ => .after fun _ => .pure hp
  · exact .pure hp

theorem shiftLines_posts (h : s.outbox = o) (n : Nat) (move : Nat → Nat → Cell → Grid → Option Grid) :
    Posts o (s.shiftLines n move) := by
  refine .bind (blankCell_posts h) fun p hp => ?_
  dsimp only
  split
  · exact .after fun _ => .pure hp
  · exact .pure hp

/-! ### Printing -/

theorem handleCombiningMark_posts (h : s.outbox = o) (c : Char) : Posts o (s.handleCombiningMark c) := by
  unfold handleCombiningMark
  split
  · exact .pure h
  · split
    · exact .pure h
    · split
      · exact .pure h
      next tx _ _ =>
        refine .after fun row => .after fun cell => ?_
        dsimp only
        generalize (if cell.width = 0 ∧ tx > 0 then tx - 1 else tx) = base
        split
        · exact .after fun _ => .pure h
        · exact .pure h

theorem performDeferredWrap_posts (h : s.outbox = o) : Posts o s.performDeferredWrap :=
  advanceLine_posts (s := s.onGrid fun g => (g.setWrapPending false).setCursorX 0) h

theorem blankMargin_posts (h : s.outbox = o) : Posts o s.blankMargin := by
  unfold blankMargin
  split
  · exact .bind (blankCell_posts h) fun _ hp => .after fun _ => .pure hp
  · exact .pure h

theorem putChar_posts (h : s.outbox = o) (c : Char) (width : Nat) : Posts o (s.putChar c width) := by
  unfold putChar
  split
  · refine .bind (internWithGc_posts h _) fun p hp => .after fun g => .after fun newX => ?_
    split
    · exact .after fun right => .pure hp
    · exact .pure hp
  · exact .pure h

theorem printBase_posts (h : s.outbox = o) (c : Char) (width : Nat) : Posts o (s.printBase c width) := by
  unfold printBase
  dsimp only
  split
  all_goals
    refine .after fun cut => ?_
    split
    · split
      · split
        · exact .pure h
        · exact .bind (blankMargin_posts h) fun t ht => .bind (performDeferredWrap_posts ht) fun t ht => putChar_posts ht c width
      · exact .pure h
    · exact putChar_posts h c width

theorem print_posts (W : UnicodeWidth) (h : s.outbox = o) (c : Char) : Posts o (s.print W c) := by
  have hprinted : ({ s with state := { s.state with lastPrintedChar := c } } : Screen).outbox = o := h
  unfold print
  dsimp only
  split
  · exact handleCombiningMark_posts hprinted _
  · split
    · exact .bind (performDeferredWrap_posts hprinted) fun t ht => printBase_posts ht _ _
    · exact .bind (.pure hprinted) fun t ht => printBase_posts ht _ _

/-! ### The cursor and the alternate screen -/

theorem restoreCursor_posts (h : s.outbox = o) : Posts o s.restoreCursor := by
  unfold restoreCursor
  split
  · exact .after fun _ => .after fun _ => .pure h
  · exact .pure h

theorem switchToAlt_posts (h : s.outbox = o) : Posts o s.switchToAlt :=
  .after fun _ => .after fun _ => .after fun _ => .pure h

theorem enterAltScreen_posts (h : s.outbox = o) (save : Bool) : Posts o (s.enterAltScreen save) := by
  unfold enterAltScreen
  split
  · exact .pure h
  · cases save <;> exact switchToAlt_posts h

theorem restoreRows_posts (h : s.outbox = o) : Posts o s.restoreRows := by
  unfold restoreRows
  split
  · exact .after fun _ => .after fun _ => .pure h
  · exact .pure h

theorem restoreModes_posts (h : s.outbox = o) : s.restoreModes.outbox = o := by
  unfold restoreModes
  split <;> exact h

theorem restoreRegion_posts (h : s.outbox = o) : Posts o s.restoreRegion := by
  unfold restoreRegion
  split
  · exact .pure h
  · exact .after fun _ => .pure h

theorem exitAltScreen_posts (h : s.outbox = o) (restore : Bool) : Posts o (s.exitAltScreen restore) := by
  have hlast : ∀ t : Screen, t.outbox = o → Posts o (do
      let t ← t.restoreRegion
      return t.onGrid fun g => compactStyles g none) := fun t ht => .bind (restoreRegion_posts ht) fun _ hu => .pure hu
  unfold exitAltScreen
  split
  · exact .pure h
  · refine .bind (restoreRows_posts (s := { s with state := { s.state with inAltScreen := false } }) h) fun t ht => ?_
    dsimp only
    split
    · exact .bind (restoreCursor_posts (restoreModes_posts ht)) fun u hu => hlast u hu
    · exact .bind (.pure (restoreModes_posts ht)) fun u hu => hlast u hu

theorem setDecMode_posts (h : s.outbox = o) (mode : Nat) (enable : Bool) : Posts o (s.setDecMode mode enable) := by
  unfold setDecMode
  split
  case h_2 => cases enable <;> exact .pure h
  case h_11 =>
    split
    · exact .pure h
    · exact restoreCursor_posts h
  case h_13 =>
    split
    · exact enterAltScreen_posts h true
    · exact exitAltScreen_posts h true
  case h_14 | h_15 =>
    split
    · exact enterAltScreen_posts h false
    · exact exitAltScreen_posts h false
  all_goals exact .pure h

theorem csiSetDecPrivateMode_posts (h : s.outbox = o) (ps : List Param) (enable : Bool) :
    Posts o (s.csiSetDecPrivateMode ps enable) := by
  refine .foldlM (P := fun t : Screen => t.outbox = o) (fun t p ht => ?_) ps h
  split
  · exact setDecMode_posts ht _ enable
  · exact .pure ht

/-! ### Dispatching -/

theorem pushTitle_posts (h : s.outbox = o) : Posts o s.pushTitle := by
  unfold pushTitle
  split
  · dsimp only
    split
    · exact .after fun _ => .pure h
    · exact .after fun _ => .pure h
  · exact .pure h

theorem popTitle_posts (h : s.outbox = o) : s.popTitle.outbox = o := by
  unfold popTitle
  split <;> exact h

/-- All sequences but ED, DSR and DA. -/
theorem csiDispatch_quiet (W : UnicodeWidth) (h : s.outbox = o) (ps : List Param) (intermediates : List Char) {action : Char}
    (haction : action ∉ ['J', 'n', 'c']) : Posts o (s.csiDispatch W ps intermediates action) := by
  have hstay : Posts o (some s) := .pure h
  unfold csiDispatch
  split
  · exact .pure h
  · exact .after fun _ => .pure h
  · exact .after fun _ => .pure h
  · exact .pure h
  · exact .after fun _ => .pure h
  · exact .pure h
  · exact .after fun _ => .pure h
  · exact .after fun _ => .after fun _ => .pure h
  · exact .after fun _ => .after fun _ => .pure h
  · exact .after fun _ => .pure h
  · simp at haction
  · exact csiEraseLine_posts h _
  · exact csiEraseCharacter_posts h _
  · exact csiDeleteCharacter_posts h _
  · exact csiInsertCharacter_posts h _
  · exact .iter (fun _ ht => print_posts W ht _) _ h
  · exact .pure h
  · simp at haction
  · simp at haction
  · split
    · exact .pure h
    · exact hstay
  · exact .iter (fun _ ht => scrollUp_posts ht) _ h
  · split
    · exact .iter (fun _ ht => scrollDown_posts ht) _ h
    · exact hstay
  · exact shiftLines_posts h _ _
  · exact shiftLines_posts h _ _
  · split
    · refine .after fun last => ?_
      dsimp only
      split <;> exact .pure h
    · exact hstay
  · split
    · exact .pure h
    · exact hstay
  · split
    · exact restoreCursor_posts h
    · exact hstay
  · split
    · split <;> exact .pure h
    · exact hstay
  · split
    · split
      · exact pushTitle_posts h
      · exact .pure (popTitle_posts h)
      · exact hstay
    · exact hstay
  · split
    · exact csiSetDecPrivateMode_posts h ps true
    · exact hstay
  · split
    · exact csiSetDecPrivateMode_posts h ps false
    · exact hstay
  · exact hstay

/-- Nothing queued. -/
theorem Posts.none {x : Option Screen} (hb : o.Bounded) (hx : Posts o x) : Posts (o.append {}).capped x := by
  rwa [Outbox.append_nil, hb.capped]

theorem csiDispatch_posts (W : UnicodeWidth) (hb : s.outbox.Bounded) (ps : List Param) (intermediates : List Char) (action : Char) :
    Posts (s.outbox.append (s.posts (.csi ps intermediates action))).capped (s.csiDispatch W ps intermediates action) := by
  by_cases haction : action ∈ ['J', 'n', 'c']
  · simp only [List.mem_cons, List.not_mem_nil, or_false] at haction
    rcases haction with rfl | rfl | rfl
    · exact csiEraseDisplay_posts rfl hb _
    · simp only [csiDispatch, posts]
      split
      · refine .bind (P := fun r => s.cursorReport = some r) (fun r hr => hr) fun r hr => .pure ?_
        rw [hr]
        exact ScreenState.outbox_pushResponse hb r
      · exact .none hb (.pure rfl)
    · simp only [csiDispatch, posts]
      split
      · split
        · exact .pure (ScreenState.outbox_pushResponse hb _)
        · split
          · exact .pure (ScreenState.outbox_pushResponse hb _)
          · exact .none hb (.pure rfl)
      · exact .none hb (.pure rfl)
  · have hnone : s.posts (.csi ps intermediates action) = {} := by
      simp only [List.mem_cons, List.not_mem_nil, or_false, not_or] at haction
      unfold posts
      split <;> simp_all
    rw [hnone]
    exact .none hb (csiDispatch_quiet W rfl ps intermediates haction)

theorem execute_posts (hb : s.outbox.Bounded) (byte : UInt8) :
    Posts (s.outbox.append (s.posts (.execute byte))).capped (s.execute byte) := by
  have hfeed : Posts s.outbox (s.onGrid (·.setWrapPending false)).advanceLine :=
    advanceLine_posts (s := s.onGrid (·.setWrapPending false)) rfl
  unfold execute
  split
  · exact .none hb (.pure rfl)
  · exact .none hb hfeed
  · exact .none hb hfeed
  · exact .none hb hfeed
  · exact .none hb (.pure rfl)
  · exact .none hb (.after fun _ => .pure rfl)
  · exact .none hb (.pure rfl)
  · exact .none hb (.pure rfl)
  · exact .pure (ScreenState.outbox_pushPassthrough hb _)
  next hother =>
    have hnone : s.posts (.execute byte) = {} := by
      unfold posts
      split <;> simp_all
    rw [hnone]
    exact .none hb (.pure rfl)

theorem fullReset_posts (hb : s.outbox.Bounded) :
    Posts (s.outbox.append { passthrough := [clearSequence] }).capped s.fullReset := by
  refine .after fun g => .after fun g => .after fun g => .pure ?_
  have hb' : ScreenState.outbox { s.state with
      currentStyle := {}, inAltScreen := false, savedGrid := none, savedModes := none, savedCursorState := none
      savedScrollRegion := none, title := [], titleStack := [], lastPrintedChar := ' ' } |>.Bounded := hb
  exact ScreenState.outbox_pushPassthrough hb' _

theorem alignmentPattern_posts (h : s.outbox = o) : Posts o s.alignmentPattern := by
  refine .after fun g => .bind (internWithGc_posts ?_ _) fun p hp => .after fun g => .pure hp
  exact h

theorem escDispatch_posts (hb : s.outbox.Bounded) (intermediates : List Char) (byte : Char) :
    Posts (s.outbox.append (s.posts (.esc intermediates byte))).capped (s.escDispatch intermediates byte) := by
  unfold escDispatch
  split
  · exact .none hb (.pure rfl)
  · exact .none hb (advanceLine_posts (s := s.onGrid (·.setWrapPending false)) rfl)
  · exact .none hb (advanceLine_posts (s := s.onGrid fun g => (g.setCursorX 0).setWrapPending false) rfl)
  · refine .none hb ?_
    split
    · exact scrollDown_posts rfl
    · exact .pure rfl
  · exact .none hb (.pure rfl)
  · exact .none hb (restoreCursor_posts rfl)
  · exact fullReset_posts hb
  · exact .none hb (.pure rfl)
  · exact .none hb (.pure rfl)
  · exact .none hb (.pure rfl)
  · exact .none hb (.pure rfl)
  · exact .none hb (.pure rfl)
  · exact .none hb (.pure rfl)
  · exact .none hb (alignmentPattern_posts rfl)
  next hother =>
    have hnone : s.posts (.esc intermediates byte) = {} := by
      unfold posts
      split <;> simp_all
    rw [hnone]
    exact .none hb (.pure rfl)

theorem oscDispatch_posts (hb : s.outbox.Bounded) (params : List (List UInt8)) (bell : Bool) :
    Posts (s.outbox.append (s.posts (.osc params bell))).capped (s.oscDispatch params bell) := by
  cases params with
  | nil => exact .none hb (.pure rfl)
  | cons num rest =>
    simp only [oscDispatch, posts]
    split
    · refine .none hb ?_
      split
      · split
        · split
          · exact .pure rfl
          · exact .after fun _ => .pure rfl
        · exact .pure rfl
      · exact .pure rfl
    · split
      · exact .pure (ScreenState.outbox_pushNotification hb _)
      · exact .pure (ScreenState.outbox_pushPassthrough hb _)

/-- One callback. -/
theorem step_posts (W : UnicodeWidth) (hb : s.outbox.Bounded) (e : Event) :
    Posts (s.outbox.append (s.posts e)).capped (s.step W e) := by
  cases e with
  | print c => exact .none hb (print_posts W rfl c)
  | execute byte => exact execute_posts hb byte
  | csi ps intermediates action => exact csiDispatch_posts W hb ps intermediates action
  | esc intermediates byte => exact escDispatch_posts hb intermediates byte
  | osc params bell => exact oscDispatch_posts hb params bell

end Screen

/-! ## What there is in the queues -/

/-- The answers to DA 1, DA 2 and DSR 6. -/
inductive Answer : List UInt8 → Prop where
  | primary : Answer [0x1b, 0x5b, 0x3f, 0x36, 0x32, 0x3b, 0x63]
  | secondary : Answer [0x1b, 0x5b, 0x3e, 0x30, 0x3b, 0x31, 0x30, 0x3b, 0x31, 0x63]
  | cursor (row col : Nat) (hrow : 1 ≤ row ∧ row ≤ u16Max) (hcol : 1 ≤ col ∧ col ≤ u16Max) :
    Answer ([0x1b, 0x5b] ++ writeU16 row ++ [0x3b] ++ writeU16 col ++ [0x52])

/-- BEL, ED 3, and OSC sequences that neither set a title nor notify. -/
inductive Passed : List UInt8 → Prop where
  | bell : Passed [0x07]
  | clear : Passed Screen.clearSequence
  | osc (num : List UInt8) (rest : List (List UInt8)) (bell : Bool)
    (hnum : Screen.parseU16 num ∉ [some 0, some 2, some 9, some 777, some 99]) : Passed (Screen.oscSequence (num :: rest) bell)

/-- The OSC sequences that notify. -/
inductive Notice : List UInt8 → Prop where
  | osc (num : List UInt8) (rest : List (List UInt8)) (bell : Bool)
    (hnum : Screen.parseU16 num ∈ [some 9, some 777, some 99]) : Notice (Screen.oscSequence (num :: rest) bell)

namespace Outbox

structure Kinds (o : Outbox) : Prop where
  responses : ∀ data ∈ o.responses, Answer data
  passthrough : ∀ data ∈ o.passthrough, Passed data
  notifications : ∀ data ∈ o.notifications, Notice data

variable {o o' : Outbox}

theorem kinds_nil : Kinds {} := ⟨List.forall_mem_nil _, List.forall_mem_nil _, List.forall_mem_nil _⟩

theorem Kinds.append (h : o.Kinds) (h' : o'.Kinds) : (o.append o').Kinds where
  responses := List.forall_mem_append.2 ⟨h.responses, h'.responses⟩
  passthrough := List.forall_mem_append.2 ⟨h.passthrough, h'.passthrough⟩
  notifications := List.forall_mem_append.2 ⟨h.notifications, h'.notifications⟩

/-- In order, and nothing twice. -/
structure Within (o o' : Outbox) : Prop where
  responses : o.responses.Sublist o'.responses
  passthrough : o.passthrough.Sublist o'.passthrough
  notifications : o.notifications.Sublist o'.notifications

theorem Within.refl (o : Outbox) : o.Within o := ⟨.refl _, .refl _, .refl _⟩

theorem Within.trans {o'' : Outbox} (h : o.Within o') (h' : o'.Within o'') : o.Within o'' :=
  ⟨h.responses.trans h'.responses, h.passthrough.trans h'.passthrough, h.notifications.trans h'.notifications⟩

theorem Within.append {p p' : Outbox} (h : o.Within o') (h' : p.Within p') : (o.append p).Within (o'.append p') :=
  ⟨h.responses.append h'.responses, h.passthrough.append h'.passthrough, h.notifications.append h'.notifications⟩

theorem capped_within (o : Outbox) : o.capped.Within o := ⟨List.take_sublist _ _, List.take_sublist _ _, rtake_sublist _ _⟩

theorem Kinds.within (h : o'.Kinds) (hsub : o.Within o') : o.Kinds where
  responses := fun data hdata => h.responses data (hsub.responses.subset hdata)
  passthrough := fun data hdata => h.passthrough data (hsub.passthrough.subset hdata)
  notifications := fun data hdata => h.notifications data (hsub.notifications.subset hdata)

end Outbox

namespace Screen

variable {s s' : Screen}

theorem cursorReport_answers {r : List UInt8} (h : s.cursorReport = some r) : Answer r := by
  obtain ⟨row, hrow, h⟩ := Option.bind_eq_some_iff.1 h
  obtain ⟨col, hcol, h⟩ := Option.bind_eq_some_iff.1 h
  obtain rfl := Option.some.inj h
  have hle : ∀ {a b : Nat}, add16 a 1 = some b → 1 ≤ b ∧ b ≤ u16Max := by
    intro a b hab
    unfold add16 at hab
    split at hab
    · obtain rfl := Option.some.inj hab
      exact ⟨Nat.le_add_left 1 a, ‹_›⟩
    · cases hab
  exact .cursor row col (hle hrow) (hle hcol)

theorem posts_kinds (s : Screen) (e : Event) : (s.posts e).Kinds := by
  have hanswer {data : List UInt8} (h : Answer data) : Outbox.Kinds { responses := [data] } :=
    ⟨List.forall_mem_singleton.2 h, List.forall_mem_nil _, List.forall_mem_nil _⟩
  have hpass {data : List UInt8} (h : Passed data) : Outbox.Kinds { passthrough := [data] } :=
    ⟨List.forall_mem_nil _, List.forall_mem_singleton.2 h, List.forall_mem_nil _⟩
  unfold posts
  split
  · exact hpass .bell
  · split
    · exact hpass .clear
    · exact Outbox.kinds_nil
  · split
    · refine ⟨fun data hdata => ?_, List.forall_mem_nil _, List.forall_mem_nil _⟩
      exact cursorReport_answers (Option.mem_toList.1 hdata)
    · exact Outbox.kinds_nil
  · split
    · split
      · exact hanswer .primary
      · split
        · exact hanswer .secondary
        · exact Outbox.kinds_nil
    · exact Outbox.kinds_nil
  · exact hpass .clear
  next num rest bell =>
    dsimp only
    split
    · exact Outbox.kinds_nil
    next htitle =>
      split
      next hnote =>
        refine ⟨List.forall_mem_nil _, List.forall_mem_nil _, List.forall_mem_singleton.2 (.osc num rest bell ?_)⟩
        simpa using hnote
      next hnote =>
        refine hpass (.osc num rest bell ?_)
        rw [not_or] at htitle
        rw [not_or, not_or] at hnote
        simp [htitle.1, htitle.2, hnote.1, hnote.2.1, hnote.2.2]
  · exact Outbox.kinds_nil

/-- A chunk of output queues things of these kinds, and no more than there is
room for. -/
theorem process_outbox {W : UnicodeWidth} {es : List Event} (hrun : s.process W es = some s') (hb : s.outbox.Bounded)
    (hk : s.outbox.Kinds) : s'.outbox.Bounded ∧ s'.outbox.Kinds := by
  refine Ends.foldlM (P := fun t : Screen => t.outbox.Bounded ∧ t.outbox.Kinds) (fun t e ht t' hstep => ?_) es ⟨hb, hk⟩ s' hrun
  have hposts : t'.outbox = _ := step_posts W ht.1 e t' hstep
  exact ⟨hposts ▸ Outbox.capped_bounded _, hposts ▸ (ht.2.append (posts_kinds t e)).within (Outbox.capped_within _)⟩

end Screen

/-! ## Taking -/

inductive QueueStep where
  | act (a : Action)
  | takeResponses | takePassthrough | takeQueuedNotifications
deriving DecidableEq, Repr

/-- A screen and what was taken from its queues. -/
structure Counter where
  screen : Screen
  taken : Outbox := {}
  /-- Ghost: all that was ever queued. -/
  posted : Outbox := {}
  /-- Ghost: what was queued since the last taking, queue by queue. -/
  since : Outbox := {}
  /-- Ghost: some queue was too short. -/
  overflowed : Bool := false

namespace Counter

variable (W : UnicodeWidth)

def post (c : Counter) (new : Outbox) : Counter :=
  { c with
    posted := c.posted.append new
    since := c.since.append new
    overflowed := c.overflowed || decide ((c.since.append new).capped ≠ c.since.append new) }

def step (c : Counter) : QueueStep → Option Counter
  | .act (.callback e) => do
    let s ← c.screen.step W e
    return { c.post (c.screen.posts e) with screen := s }
  | .act a => do
    let s ← c.screen.act W a
    return { c with screen := s }
  | .takeResponses =>
    let (responses, s) := c.screen.takeResponses
    some { c with
      screen := s
      taken := c.taken.append { responses }
      since := { c.since with responses := [] } }
  | .takePassthrough =>
    let (passthrough, s) := c.screen.takePassthrough
    some { c with
      screen := s
      taken := c.taken.append { passthrough }
      since := { c.since with passthrough := [] } }
  | .takeQueuedNotifications =>
    let (notifications, s) := c.screen.takeQueuedNotifications
    some { c with
      screen := s
      taken := c.taken.append { notifications }
      since := { c.since with notifications := [] } }

def run (c : Counter) (as : List QueueStep) : Option Counter := as.foldlM (step W) c

/-- The queues hold what was queued since, as far as there is room. -/
structure Inv (c : Counter) : Prop where
  outbox : c.screen.outbox = c.since.capped
  kinds : c.posted.Kinds
  within : (c.taken.append c.since).Within c.posted
  complete : c.overflowed = false → c.since.capped = c.since ∧ c.taken.append c.since = c.posted

variable {W} {c c' : Counter}

theorem Inv.post (h : c.Inv) {new : Outbox} (hnew : new.Kinds) {s : Screen}
    (hs : s.outbox = (c.screen.outbox.append new).capped) : Inv { c.post new with screen := s } where
  outbox := by rw [show ({ c.post new with screen := s } : Counter).screen.outbox = _ from hs, h.outbox, Outbox.capped_append]; rfl
  kinds := h.kinds.append hnew
  within := by
    change (c.taken.append (c.since.append new)).Within (c.posted.append new)
    rw [← Outbox.append_assoc]
    exact h.within.append (.refl new)
  complete := fun ho => by
    simp only [Counter.post, Bool.or_eq_false_iff, decide_eq_false_iff_not, not_not] at ho
    exact ⟨ho.2, by
      change c.taken.append (c.since.append new) = c.posted.append new
      rw [← Outbox.append_assoc, (h.complete ho.1).2]⟩

/-- Resizing and taking scrollback queue nothing. -/
theorem act_outbox {s s' : Screen} {a : Action} (ha : ∀ e, a ≠ .callback e) (h : s.act W a = some s') : s'.outbox = s.outbox := by
  cases a with
  | callback e => exact absurd rfl (ha e)
  | resize cols rows =>
    obtain ⟨g, -, h⟩ := Option.bind_eq_some_iff.1 h
    obtain ⟨g', -, h⟩ := Option.bind_eq_some_iff.1 h
    obtain rfl := Option.some.inj h
    rfl
  | takeScrollback =>
    obtain rfl := Option.some.inj h
    rfl

/-- Part of a queue is taken, and the rest is lost. -/
theorem sublist_taken {α : Type} {taken since part posted : List α} (h : (taken ++ since).Sublist posted)
    (hpart : part.Sublist since) : (taken ++ part ++ []).Sublist posted := by
  rw [List.append_nil]
  exact ((List.Sublist.refl taken).append hpart).trans h

theorem Inv.step {a : QueueStep} (h : c.Inv) (hstep : c.step W a = some c') : c'.Inv := by
  have hbounded : c.screen.outbox.Bounded := h.outbox ▸ Outbox.capped_bounded _
  obtain ⟨hr, hp, hn⟩ := h.within
  cases a with
  | act a =>
    cases a with
    | callback e =>
      obtain ⟨s, hs, hstep⟩ := Option.bind_eq_some_iff.1 hstep
      obtain rfl := Option.some.inj hstep
      exact h.post (Screen.posts_kinds _ e) (Screen.step_posts W hbounded e s hs)
    | resize cols rows =>
      obtain ⟨s, hs, hstep⟩ := Option.bind_eq_some_iff.1 hstep
      obtain rfl := Option.some.inj hstep
      exact { h with outbox := (act_outbox (W := W) (by simp) hs).trans h.outbox }
    | takeScrollback =>
      obtain rfl := Option.some.inj hstep
      exact { h with outbox := h.outbox }
  | takeResponses =>
    obtain rfl := Option.some.inj hstep
    have htaken : c.screen.state.pendingResponses = c.since.responses.take maxPending := congrArg Outbox.responses h.outbox
    refine { h with outbox := ?_, within := ⟨?_, ?_, ?_⟩, complete := fun ho => ?_ }
    · change ({ c.screen.outbox with responses := [] } : Outbox) = _
      rw [h.outbox]
      rfl
    · exact sublist_taken hr (htaken ▸ List.take_sublist _ _)
    · simpa [Outbox.append, Screen.takeResponses] using hp
    · simpa [Outbox.append, Screen.takeResponses] using hn
    · obtain ⟨hcap, hall⟩ := h.complete ho
      have hwhole : c.since.responses.take maxPending = c.since.responses := congrArg Outbox.responses hcap
      refine ⟨congrArg (fun o : Outbox => { o with responses := [] }) hcap, ?_⟩
      rw [← hall]
      simp [Outbox.append, htaken, hwhole]
  | takePassthrough =>
    obtain rfl := Option.some.inj hstep
    have htaken : c.screen.state.pendingPassthrough = c.since.passthrough.take maxPending := congrArg Outbox.passthrough h.outbox
    refine { h with outbox := ?_, within := ⟨?_, ?_, ?_⟩, complete := fun ho => ?_ }
    · change ({ c.screen.outbox with passthrough := [] } : Outbox) = _
      rw [h.outbox]
      rfl
    · simpa [Outbox.append, Screen.takePassthrough] using hr
    · exact sublist_taken hp (htaken ▸ List.take_sublist _ _)
    · simpa [Outbox.append, Screen.takePassthrough] using hn
    · obtain ⟨hcap, hall⟩ := h.complete ho
      have hwhole : c.since.passthrough.take maxPending = c.since.passthrough := congrArg Outbox.passthrough hcap
      refine ⟨congrArg (fun o : Outbox => { o with passthrough := [] }) hcap, ?_⟩
      rw [← hall]
      simp [Outbox.append, htaken, hwhole]
  | takeQueuedNotifications =>
    obtain rfl := Option.some.inj hstep
    have htaken : c.screen.state.queuedNotifications = c.since.notifications.rtake maxQueuedNotifications :=
      congrArg Outbox.notifications h.outbox
    refine { h with outbox := ?_, within := ⟨?_, ?_, ?_⟩, complete := fun ho => ?_ }
    · change ({ c.screen.outbox with notifications := [] } : Outbox) = _
      rw [h.outbox]
      rfl
    · simpa [Outbox.append, Screen.takeQueuedNotifications] using hr
    · simpa [Outbox.append, Screen.takeQueuedNotifications] using hp
    · exact sublist_taken hn (htaken ▸ rtake_sublist _ _)
    · obtain ⟨hcap, hall⟩ := h.complete ho
      have hwhole : c.since.notifications.rtake maxQueuedNotifications = c.since.notifications := congrArg Outbox.notifications hcap
      refine ⟨congrArg (fun o : Outbox => { o with notifications := [] }) hcap, ?_⟩
      rw [← hall]
      simp [Outbox.append, htaken, hwhole]

theorem new_inv (cols rows limit : Nat) : Inv { screen := .new cols rows limit } where
  outbox := rfl
  kinds := Outbox.kinds_nil
  within := .refl _
  complete := fun _ => ⟨rfl, rfl⟩

/-- Whoever takes from the queues, and whenever: what has been taken and what is
left are of those kinds, in the order in which they were queued and nothing
twice, and they are all there was unless a queue was too short. What is left is
at most what the queues may hold. -/
theorem run_hands {cols rows limit : Nat} {as : List QueueStep} (hrun : run W { screen := .new cols rows limit } as = some c) :
    (c.taken.append c.screen.outbox).Kinds ∧ (c.taken.append c.screen.outbox).Within c.posted ∧ c.screen.outbox.Bounded ∧
      (c.overflowed = false → c.taken.append c.screen.outbox = c.posted) := by
  have h : c.Inv := Ends.foldlM (P := Inv) (fun c a hc c' hstep => hc.step hstep) as (new_inv cols rows limit) c hrun
  have hwithin : (c.taken.append c.screen.outbox).Within c.posted := by
    rw [h.outbox]
    exact ((Outbox.Within.refl _).append (Outbox.capped_within _)).trans h.within
  refine ⟨h.kinds.within hwithin, hwithin, h.outbox ▸ Outbox.capped_bounded _, fun ho => ?_⟩
  obtain ⟨hcap, hall⟩ := h.complete ho
  rw [h.outbox, hcap, hall]

/-- A bell that is taken, and a report that is not. -/
theorem run_hands_sample : ∃ c, run .sample { screen := .new 4 2 10 } [.act (.callback (.execute 0x07)), .takePassthrough,
      .act (.callback (.csi [[6]] [] 'n'))] = some c ∧
    c.taken.append c.screen.outbox = c.posted ∧ c.posted = ⟨[[0x1b, 0x5b, 0x31, 0x3b, 0x31, 0x52]], [[0x07]], []⟩ := by
  obtain ⟨c, hrun, hover, hposted⟩ : ∃ c, run .sample { screen := .new 4 2 10 } [.act (.callback (.execute 0x07)),
        .takePassthrough, .act (.callback (.csi [[6]] [] 'n'))] = some c ∧
      c.overflowed = false ∧ c.posted = ⟨[[0x1b, 0x5b, 0x31, 0x3b, 0x31, 0x52]], [[0x07]], []⟩ :=
    ⟨_, rfl, by decide, by decide⟩
  exact ⟨c, hrun, (run_hands hrun).2.2.2 hover, hposted⟩

end Counter

end Retach
