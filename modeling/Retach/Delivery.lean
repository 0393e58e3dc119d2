import Retach.Conversation
import Retach.Settling
import Retach.Updates
/-!
# What arrives

What is typed at a client passes its filter, is sent in messages among others
and reaches the PTY; what the session shows on attaching reaches the terminal.
Both hold however the tasks of the two sides and their reads interleave.
-/

open Binary Runs
open Retach.Event (written)
open Retach.Protocol (encode maxFrameSize encode_of_le)

namespace Retach

/-! ## What is typed -/

/-- The bytes that actions forward. -/
def actionBytes (as : List FilterAction) : List UInt8 := as.flatMap fun a => match a with
  | .forward data => data
  | _ => []

/-- What `client_to_pty` writes to the PTY for messages. -/
def ptyInput (ms : List ClientMsg) : List UInt8 := ms.flatMap fun m => match m with
  | .input data => data
  | _ => []

theorem actionBytes_append (as bs : List FilterAction) : actionBytes (as ++ bs) = actionBytes as ++ actionBytes bs :=
  List.flatMap_append

theorem ptyInput_append (ms ns : List ClientMsg) : ptyInput (ms ++ ns) = ptyInput ms ++ ptyInput ns := List.flatMap_append

namespace InputFilter

open FilterAction (single)

theorem actionBytes_single (as : List FilterAction) : actionBytes (as.flatMap single) = actionBytes as := by
  induction as with
  | nil => rfl
  | cons a as ih =>
    have hone : actionBytes (single a) = actionBytes [a] := by
      cases a with
      | forward data => simp [single, actionBytes, List.flatMap_map]
      | detach | focusIn => rfl
    rw [List.flatMap_cons, actionBytes_append, ih, hone, ← actionBytes_append]
    rfl

theorem actionBytes_forwards (data : List UInt8) : actionBytes (forwards data) = data := by
  simp [forwards, actionBytes, List.flatMap_map]

theorem actionBytes_flushFiltered (filtered : List UInt8) : actionBytes (flushFiltered filtered) = filtered := by
  rw [← actionBytes_single, flushFiltered_single, actionBytes_forwards]

/-- What gets through of what is typed, if nothing follows. -/
def through (typed : List UInt8) : List UInt8 := actionBytes (whole typed)

theorem through_eq (typed : List UInt8) : through typed = actionBytes (reading typed).1 ++ (reading typed).2 := by
  rw [through, whole, actionBytes_append, actionBytes_forwards]

/-- The filter makes no bytes, and carries over two at most. -/
theorem reading_length (bs : List UInt8) :
    (reading bs).1.length + (reading bs).2.length ≤ bs.length ∧ (reading bs).2.length ≤ 2 := by
  induction bs using scan_induction with
  | nil | lone | start => decide
  | plain b bs hb ih =>
    rw [reading_plain hb, after]
    simp only [List.length_append, List.length_cons, List.length_nil]
    omega
  | other c bs hc ih =>
    rw [reading_other hc, after]
    simp only [List.length_append, List.length_cons, List.length_nil]
    omega
  | focus d bs hd ih =>
    rcases hd with rfl | rfl
    · rw [reading_focusIn, after]
      simp only [List.length_append, List.length_cons, List.length_nil]
      omega
    · rw [reading_focusOut]
      simp only [List.length_cons]
      omega
  | sequence d bs hd ih =>
    rw [reading_sequence hd, after]
    simp only [List.length_append, List.length_cons, List.length_nil] at ih ⊢
    omega

/-- A read is forwarded in parts no longer than it and what was carried over. -/
theorem process_length {f : InputFilter} {input data : List UInt8} (h : .forward data ∈ (f.process input).1) :
    data.length ≤ f.carry.length + input.length := by
  rw [← List.length_append]
  by_cases hkey : detachKey ∈ f.carry ++ input
  · obtain ⟨before, rest, heq, hbefore⟩ := List.eq_append_cons_of_mem hkey
    rw [process_detach heq hbefore, List.mem_append, List.mem_singleton] at h
    rcases h with h | h
    · obtain ⟨data', -, hdata⟩ := flushFiltered_mem h
      have hbytes := actionBytes_flushFiltered before
      have hsub : data <:+: actionBytes (flushFiltered before) := by
        obtain ⟨l₁, l₂, hl⟩ := List.append_of_mem h
        rw [hl, actionBytes_append]
        exact ⟨actionBytes l₁, actionBytes l₂, by simp [actionBytes]⟩
      have hlen := hsub.length_le
      rw [hbytes] at hlen
      rw [heq, List.length_append]
      omega
    · cases h
  · rw [process_none hkey] at h
    have hsub : (single (.forward data)).length ≤ (reading (f.carry ++ input)).1.length := by
      obtain ⟨l₁, l₂, hl⟩ := List.append_of_mem h
      rw [reading, hl, List.flatMap_append, List.flatMap_cons]
      simp only [List.length_append]
      omega
    have hlen := (reading_length (f.carry ++ input)).1
    rw [single, List.length_map] at hsub
    omega

end InputFilter

namespace Conversation

variable {connect : ClientMsg} {c c' : Conversation}

/-! ## What is typed arrives -/

open InputFilter (detachKey reading through)

/-- What was read from stdin. -/
def typed (c : Conversation) : List UInt8 := c.reads.flatten

/-- What has been sent of what was typed, what is left to do and what is carried
over are what gets through. -/
structure Typed (c : Conversation) : Prop where
  idle : c.typing = false → c.actions = []
  carry : c.filter.carry.length ≤ 2
  encodable : ∀ a ∈ c.actions, Encodable a.msg
  last : ∀ as bs, c.actions = as ++ .detach :: bs → bs = []
  plain : detachKey ∉ c.typed → ptyInput c.sent ++ actionBytes c.actions ++ c.filter.carry = through c.typed ∧
    .detach ∉ c.actions ∧ (c.typing = true → c.filter.carry = (reading c.typed).2)
  /-- Of the read with the detach key, what is before the key is not filtered. -/
  key : detachKey ∈ c.typed → (∃ earlier before rest, c.reads = earlier ++ [before ++ detachKey :: rest] ∧
      detachKey ∉ earlier.flatten ++ before ∧ ptyInput c.sent ++ actionBytes c.actions = through earlier.flatten ++ before) ∧
    (c.typing = true → .detach ∈ c.actions)
  fresh : c.client = .awaiting → c.filter.carry = [] ∧ c.actions = [] ∧ c.reads = [] ∧ c.sent = []

theorem start_typed (connect : ClientMsg) : (start connect).Typed where
  idle _ := rfl
  carry := Nat.zero_le 2
  encodable := by simp [start]
  last as bs h := by simp [start] at h
  plain _ := ⟨rfl, by simp [start], fun h => by cases h⟩
  key h := by simp [start, typed] at h
  fresh _ := ⟨rfl, rfl, rfl, rfl⟩

/-- What has nothing to do with stdin. -/
theorem Typed.same (h : c.Typed) (hfilter : c'.filter = c.filter) (htyping : c'.typing = c.typing) (hactions : c'.actions = c.actions)
    (hreads : c'.reads = c.reads) (hsent : c'.sent = c.sent) (hclient : c'.client = .awaiting → c.client = .awaiting) : c'.Typed := by
  obtain ⟨idle, carry, encodable, last, plain, key, fresh⟩ := h
  rw [← htyping, ← hactions] at idle
  rw [← hfilter] at carry
  rw [← hactions] at encodable last
  unfold typed at plain key
  rw [← hfilter, ← htyping, ← hactions, ← hreads, ← hsent] at plain
  rw [← htyping, ← hactions, ← hreads, ← hsent] at key
  rw [← hfilter, ← hactions, ← hreads, ← hsent] at fresh
  exact ⟨idle, carry, encodable, last, plain, key, fun hc => fresh (hclient hc)⟩

/-- The messages that are not typed. -/
theorem encodable_other : (∀ cols rows, Encodable (ClientMsg.resize cols rows)) ∧ Encodable ClientMsg.refreshScreen ∧
    Encodable ClientMsg.detach := by
  refine ⟨fun cols rows => ⟨_, encode_of_le ?_⟩, ⟨_, rfl⟩, ⟨_, rfl⟩⟩
  have hword : ∀ v : UInt16, (enc v).length = 2 := fun v => leBytes_length _ _
  have htag : (enc (UInt32.ofNat 1)).length = 4 := leBytes_length _ _
  change (enc (UInt32.ofNat 1) ++ (enc cols ++ enc rows)).length ≤ maxFrameSize
  rw [List.length_append, List.length_append, htag, hword, hword]
  decide

theorem encodable_msg {a : FilterAction} (h : ∀ data, a = .forward data → data.length ≤ 1026) : Encodable a.msg := by
  cases a with
  | forward data =>
    have hdata := h data rfl
    refine ⟨_, encode_of_le ?_⟩
    have htag : (enc (UInt32.ofNat 0)).length = 4 := leBytes_length _ _
    change (enc (UInt32.ofNat 0) ++ enc data).length ≤ maxFrameSize
    rw [List.length_append, htag, enc_bytes_length]
    unfold maxFrameSize
    omega
  | detach => exact encodable_other.2.2
  | focusIn => exact encodable_other.2.1

theorem write_eq (c : Conversation) {msg : ClientMsg} (h : Encodable msg) :
    c.write msg = { c with toServer := c.toServer ++ encoding msg, sent := c.sent ++ [msg] } := by
  rw [Conversation.write, h.encode_eq]

theorem ptyInput_msg (a : FilterAction) : ptyInput [a.msg] = actionBytes [a] := by cases a <;> rfl

/-- A message that is not typed. -/
theorem Typed.write (h : c.Typed) (hc : c.client = .relaying) {msg : ClientMsg} (hmsg : Encodable msg) (hother : ptyInput [msg] = []) :
    (c.write msg).Typed := by
  have hsame : ptyInput (c.sent ++ [msg]) = ptyInput c.sent := by rw [ptyInput_append, hother, List.append_nil]
  rw [write_eq c hmsg]
  exact { h with
    plain := fun hkey => by
      rw [hsame]
      exact h.plain hkey
    key := fun hkey => by
      rw [hsame]
      exact h.key hkey
    fresh := fun hawait => by cases hc.symm.trans hawait }

/-- While stdin is read and nothing is left to do, no detach key was typed. -/
theorem Typed.plain_of_idle (h : c.Typed) (htyping : c.typing = true) (hidle : c.actions = []) : detachKey ∉ c.typed := by
  intro hmem
  have hdetach := (h.key hmem).2 htyping
  rw [hidle] at hdetach
  exact List.not_mem_nil hdetach

/-- A read from stdin. -/
theorem Typed.key_step (h : c.Typed) (hc : c.client = .relaying) (htyping : c.typing = true) (hidle : c.actions = []) {input : List UInt8}
    (hlen : input.length ≤ stdinBufSize) :
    Typed { c with actions := (c.filter.process input).1, filter := (c.filter.process input).2, reads := c.reads ++ [input] } := by
  have hnokey := h.plain_of_idle htyping hidle
  obtain ⟨hsent, -, hcarry⟩ := h.plain hnokey
  have hcarry := hcarry htyping
  have hbytes : ptyInput c.sent = actionBytes (reading c.typed).1 := by
    rw [hidle, show actionBytes [] = [] from rfl, List.append_nil, InputFilter.through_eq, hcarry] at hsent
    exact List.append_cancel_right hsent
  have hcarrykey : detachKey ∉ c.filter.carry := fun hmem => hnokey (InputFilter.carry_subset _ (hcarry ▸ hmem))
  have htyped (actions : List FilterAction) (filter : InputFilter) :
      typed { c with actions, filter, reads := c.reads ++ [input] } = c.typed ++ input := by simp [typed]
  have hencodable : ∀ a ∈ (c.filter.process input).1, Encodable a.msg := fun a ha => encodable_msg fun data hdata => by
    subst hdata
    have hdata := InputFilter.process_length ha
    have hsmall := h.carry
    unfold stdinBufSize at hlen
    omega
  by_cases hkey : detachKey ∈ c.filter.carry ++ input
  · have hinput : detachKey ∈ input := (List.mem_append.1 hkey).resolve_left hcarrykey
    obtain ⟨q, rest, rfl, hq⟩ := List.eq_append_cons_of_mem hinput
    have hprocess := InputFilter.process_detach (f := c.filter) (List.append_assoc c.filter.carry q (detachKey :: rest)).symm
      (by simp [hcarrykey, hq])
    have hflush : FilterAction.detach ∉ InputFilter.flushFiltered (c.filter.carry ++ q) := fun hmem => by
      obtain ⟨data, -, hdata⟩ := InputFilter.flushFiltered_mem hmem
      cases hdata
    refine { idle := fun hf => ?_, carry := ?_, encodable := hencodable, last := ?_, plain := ?_, key := ?_
             fresh := fun hawait => by cases hc.symm.trans hawait }
    · exact absurd (htyping.symm.trans hf) (by simp)
    · rw [hprocess]
      exact Nat.zero_le 2
    · intro as bs heq
      simp only [hprocess] at heq
      obtain ⟨zs, rfl⟩ := Lists.prefix_of_notMem heq hflush
      rw [List.append_assoc, List.append_cancel_left_eq] at heq
      have hlength := congrArg List.length heq
      simp only [List.length_append, List.length_cons, List.length_nil] at hlength
      exact List.eq_nil_of_length_eq_zero (by omega)
    · intro hno
      rw [htyped] at hno
      simp at hno
    · refine fun _ => ⟨⟨c.reads, q, rest, rfl, by simpa [typed, hq] using hnokey, ?_⟩, fun _ => by simp [hprocess]⟩
      simp only [hprocess]
      rw [actionBytes_append, InputFilter.actionBytes_flushFiltered, hbytes, show c.reads.flatten = c.typed from rfl,
        InputFilter.through_eq, ← hcarry]
      simp [actionBytes]
  · have hprocess := InputFilter.process_none hkey
    have hread := InputFilter.reading_append c.typed input
    rw [← hcarry] at hread
    refine { idle := fun hf => ?_, carry := ?_, encodable := hencodable, last := ?_, plain := ?_, key := ?_
             fresh := fun hawait => by cases hc.symm.trans hawait }
    · exact absurd (htyping.symm.trans hf) (by simp)
    · rw [hprocess]
      exact (InputFilter.reading_length _).2
    · intro as bs heq
      simp only [hprocess] at heq
      have hmem : FilterAction.detach ∈ (InputFilter.scan [] (c.filter.carry ++ input)).1 := by rw [heq]; simp
      exact absurd hmem InputFilter.detach_notMem_scan
    · intro _
      rw [htyped]
      simp only [hprocess]
      refine ⟨?_, InputFilter.detach_notMem_scan, fun _ => by rw [hread]; rfl⟩
      rw [InputFilter.through_eq, hread, InputFilter.after, actionBytes_append, hbytes]
      congr 2
      rw [reading, InputFilter.actionBytes_single]
    · intro hmem
      rw [htyped] at hmem
      rcases List.mem_append.1 hmem with hmem | hmem
      · exact absurd hmem hnokey
      · exact absurd (List.mem_append_right _ hmem) hkey

/-- The next action. -/
theorem Typed.forward_step (h : c.Typed) (hstep : c.step .forward = some c') : c'.Typed := by
  simp only [step] at hstep
  split at hstep
  next rest hc hactions =>
    -- the detach key: it was typed, and nothing comes after it
    obtain rfl := Option.some.inj hstep
    obtain rfl : rest = [] := h.last [] rest hactions
    have hkey : detachKey ∈ c.typed := by
      by_contra hno
      exact (h.plain hno).2.1 (by rw [hactions]; simp)
    rw [write_eq _ encodable_other.2.2]
    refine { idle := fun _ => rfl, carry := h.carry, encodable := by simp, last := by simp, plain := fun hno => absurd hkey hno, key := ?_
             fresh := fun hawait => by cases hc.symm.trans hawait }
    intro _
    obtain ⟨⟨earlier, before, rest, hreads, hfirst, hbytes⟩, -⟩ := h.key hkey
    refine ⟨⟨earlier, before, rest, hreads, hfirst, ?_⟩, fun hf => by cases hf⟩
    change ptyInput (c.sent ++ [.detach]) ++ actionBytes [] = _
    rw [← hbytes, hactions, ptyInput_append, List.append_assoc]
    rfl
  next a rest hne hc hactions =>
    obtain rfl := Option.some.inj hstep
    have htyping : c.typing = true := by
      by_contra hno
      have hnil := h.idle (by simpa using hno)
      rw [hactions] at hnil
      cases hnil
    have hmsg : Encodable a.msg := h.encodable a (by rw [hactions]; simp)
    have hbytes : ptyInput (c.sent ++ [a.msg]) ++ actionBytes rest = ptyInput c.sent ++ actionBytes c.actions := by
      rw [hactions, ptyInput_append, ptyInput_msg, List.append_assoc, ← actionBytes_append, List.singleton_append]
    rw [write_eq _ hmsg]
    refine { idle := fun hf => absurd (htyping.symm.trans hf) (by simp), carry := h.carry, encodable := ?_, last := ?_, plain := ?_, key := ?_
             fresh := fun hawait => by cases hc.symm.trans hawait }
    · exact fun b hb => h.encodable b (by rw [hactions]; exact List.mem_cons_of_mem _ hb)
    · exact fun xs ys (heq : rest = xs ++ .detach :: ys) => h.last (a :: xs) ys (by rw [hactions, heq]; rfl)
    · intro hno
      obtain ⟨hsent, hdetach, hcarry⟩ := h.plain hno
      refine ⟨?_, fun hmem => hdetach (by rw [hactions]; exact List.mem_cons_of_mem _ hmem), hcarry⟩
      exact (congrArg (· ++ c.filter.carry) hbytes).trans hsent
    · intro hkey
      obtain ⟨⟨earlier, before, rest, hreads, hfirst, hall⟩, hdetach⟩ := h.key hkey
      refine ⟨⟨earlier, before, rest, hreads, hfirst, hbytes.trans hall⟩, fun ht => ?_⟩
      have hmem := hdetach ht
      rw [hactions] at hmem
      exact (List.mem_cons.1 hmem).resolve_left fun heq => hne heq.symm
  next => cases hstep

/-- The end of stdin. -/
theorem Typed.end_step (h : c.Typed) (hstep : c.step .endOfInput = some c') : c'.Typed := by
  simp only [step] at hstep
  split at hstep
  next hguard =>
    obtain ⟨hc, htyping, hidle⟩ := hguard
    have hno := h.plain_of_idle htyping hidle
    obtain ⟨hsent, hdetach, -⟩ := h.plain hno
    rw [hidle, show actionBytes [] = [] from rfl, List.append_nil] at hsent
    by_cases hcarry : c.filter.carry = []
    · have hflush : c.filter.flush = (none, c.filter) := by rw [InputFilter.flush, if_pos hcarry]
      rw [hflush] at hstep
      obtain rfl := Option.some.inj hstep
      exact { h with
        idle := fun _ => hidle
        plain := fun _ => ⟨by simpa [hidle, actionBytes, typed] using hsent, hdetach, fun hf => by cases hf⟩
        key := fun hkey => absurd hkey hno
        fresh := fun hawait => by cases hc.symm.trans hawait }
    · have hflush : c.filter.flush = (some (.forward c.filter.carry), {}) := by rw [InputFilter.flush, if_neg hcarry]
      rw [hflush] at hstep
      obtain rfl := Option.some.inj hstep
      have hmsg : Encodable (FilterAction.forward c.filter.carry).msg := encodable_msg fun data hdata => by
        obtain rfl := FilterAction.forward.inj hdata
        have hsmall := h.carry
        omega
      rw [write_eq _ hmsg]
      refine { h with idle := fun _ => hidle, carry := Nat.zero_le 2, plain := fun _ => ⟨?_, hdetach, fun hf => by cases hf⟩, key := ?_
                      fresh := fun hawait => by cases hc.symm.trans hawait }
      · rw [ptyInput_append, ptyInput_msg, hidle]
        simpa [actionBytes, typed] using hsent
      · exact fun hkey => absurd hkey hno
  next => cases hstep

theorem Typed.answered (h : c.Typed) (hc : c.client = .awaiting) (msg : ServerMsg) (r : FrameReader) :
    ({ c with clientReader := r, clientDraining := false }.answered msg).Typed := by
  obtain ⟨hcarry, hactions, hreads, hsent⟩ := h.fresh hc
  have htyped : c.typed = [] := by rw [typed, hreads]; rfl
  cases msg with
  | connected name newSession =>
    refine { h with idle := (fun hf => by cases hf), plain := fun _ => ?_, key := ?_, fresh := fun hawait => by cases hawait }
    · change ptyInput c.sent ++ actionBytes c.actions ++ c.filter.carry = through c.typed ∧ .detach ∉ c.actions ∧
        (true = true → c.filter.carry = (reading c.typed).2)
      rw [hcarry, hactions, htyped, hsent]
      exact ⟨rfl, List.not_mem_nil, fun _ => rfl⟩
    · intro (hkey : detachKey ∈ c.typed)
      rw [htyped] at hkey
      cases hkey
  | _ => exact h.same rfl rfl rfl rfl rfl fun hawait => by cases hawait

theorem step_typed {a : ConversationStep} (h : c.Typed) (hstep : c.step a = some c') : c'.Typed := by
  have hgreet : ∀ (d : Conversation) (msg : ServerMsg) (next : ServerPhase), d.Typed → (d.greet msg next).Typed := by
    intro d msg next hd
    unfold greet
    cases encode msg <;> exact hd.same rfl rfl rfl rfl rfl id
  cases a with
  | forward => exact h.forward_step hstep
  | endOfInput => exact h.end_step hstep
  | key input =>
    simp only [step] at hstep
    split at hstep
    next hguard =>
      obtain rfl := Option.some.inj hstep
      exact h.key_step hguard.1 hguard.2.1 hguard.2.2.1 hguard.2.2.2.2
    next => cases hstep
  | winch cols rows =>
    simp only [step] at hstep
    split at hstep
    next hc =>
      obtain rfl := Option.some.inj hstep
      have hresize := encodable_other.1 cols rows
      exact (h.write hc hresize rfl).write (by rw [write_eq c hresize]; exact hc) encodable_other.2.1 rfl
    next => cases hstep
  | signal =>
    simp only [step] at hstep
    split at hstep
    next hc =>
      obtain rfl := Option.some.inj hstep
      exact (h.write hc encodable_other.2.2 rfl).same rfl rfl rfl rfl rfl fun hawait => by cases hawait
    next => cases hstep
  | clientDecode =>
    simp only [step] at hstep
    split at hstep
    · cases hstep
    next =>
      split at hstep
      next msg r hc _ =>
        obtain rfl := Option.some.inj hstep
        exact h.answered hc msg r
      next hc _ =>
        obtain rfl := Option.some.inj hstep
        exact h.same rfl rfl rfl rfl rfl fun hawait => by split at hawait <;> cases hawait
      all_goals
        cases hstep
        try exact h.same rfl rfl rfl rfl rfl (by simp_all)
  | serverDecode =>
    simp only [step] at hstep
    split at hstep
    · cases hstep
    next =>
      split at hstep
      next msg r hs _ =>
        obtain rfl := Option.some.inj hstep
        have hread : Typed { c with serverReader := r, serverDraining := false } := h.same rfl rfl rfl rfl rfl id
        cases handleMessage r [] msg with
        | refused message => exact hgreet _ _ _ hread
        | _ => exact hread.same rfl rfl rfl rfl rfl id
      all_goals
        cases hstep
        try exact h.same rfl rfl rfl rfl rfl id
  | reply msg =>
    simp only [step, reply] at hstep
    split at hstep
    next =>
      split at hstep <;> cases hstep <;> exact h.same rfl rfl rfl rfl rfl id
    next => cases hstep
  | accept name newSession =>
    simp only [step] at hstep
    split at hstep
    next =>
      obtain rfl := Option.some.inj hstep
      exact hgreet _ _ _ (h.same rfl rfl rfl rfl rfl id)
    next => cases hstep
  | refuse message =>
    simp only [step] at hstep
    split at hstep
    next =>
      obtain rfl := Option.some.inj hstep
      exact hgreet _ _ _ h
    next => cases hstep
  | serverRead n | clientRead n =>
    simp only [step] at hstep
    split at hstep
    next => split at hstep <;> cases hstep <;> exact h.same rfl rfl rfl rfl rfl (by simp)
    next => cases hstep
  | serverLeave | clientLeave =>
    simp only [step] at hstep
    split at hstep <;> cases hstep <;> exact h.same rfl rfl rfl rfl rfl (by simp)

/-! ## Runs -/

theorem run_inv (hconnect : Encodable connect) {steps : List ConversationStep} (hrun : (start connect).run steps = some c) :
    c.Inv connect ∧ c.Typed :=
  Along.keeps (f := step) (I := fun c => c.Inv connect ∧ c.Typed)
    (fun _ _ _ h _ hstep => ⟨step_inv h.1 hstep, step_typed h.2 hstep⟩) (Along.of_forall (P := fun _ => True) (fun _ _ => trivial) _)
    ⟨start_inv hconnect, start_typed connect⟩ hrun

/-- Nothing is on the way to the client. -/
theorem Inv.shown_all (h : c.Inv connect) (hc : c.client = .relaying) (hdraining : c.clientDraining = false) (hwire : c.toClient = []) :
    c.shown = c.replied := by
  obtain ⟨rest, hrest, hreplied, hwants⟩ := h.relaying hc
  obtain rfl := hrest.done (hwants hdraining) hwire
  rw [hreplied, List.append_nil]

/-- However a client, its server and what is on the way between them interleave:
neither party meets a malformed frame; what one dispatches is what the other has
sent, in order; and where nothing is on the way and nobody is at work, it is all
of it. What the client has sent to be typed into the PTY, is about to send and
has carried over is what its filter lets through of stdin. The detach key ends
it: of the read with the key, what comes before the key is sent as it is. -/
theorem run_dispatches (hconnect : Encodable connect) {steps : List ConversationStep} (hrun : (start connect).run steps = some c) :
    (∀ e, c.client ≠ .failed e ∧ c.server ≠ .failed e) ∧ c.dispatched <+: c.sent ∧ c.shown <+: c.replied ∧
      (c.server = .serving → c.serverDraining = false → c.toServer = [] → c.dispatched = c.sent) ∧
      (c.client = .relaying → c.clientDraining = false → c.toClient = [] → c.shown = c.replied) ∧
      (detachKey ∉ c.typed → ptyInput c.sent ++ actionBytes c.actions ++ c.filter.carry = through c.typed) ∧
      (detachKey ∈ c.typed → ∃ earlier before rest, c.reads = earlier ++ [before ++ detachKey :: rest] ∧
        detachKey ∉ earlier.flatten ++ before ∧
        ptyInput c.sent ++ actionBytes c.actions = through earlier.flatten ++ before) := by
  obtain ⟨h, htyped⟩ := run_inv hconnect hrun
  refine ⟨fun e => ⟨h.clientOk e, h.serverOk e⟩, h.dispatched, h.shown, ?_, h.shown_all, fun hno => (htyped.plain hno).1,
    fun hkey => (htyped.key hkey).1⟩
  intro hs hdraining hwire
  obtain ⟨rest, hrest, hsent, hwants⟩ := h.serving hs
  obtain rfl := hrest.done (hwants hdraining) hwire
  rw [hsent, List.append_nil]

/-- A key and a focus report in one read; the server's read cuts a message. -/
theorem run_dispatches_sample : ∃ c, (start (.connect "a" 0 80 24 .createOrAttach)).run [.serverRead 33, .serverDecode, .accept "a" true,
      .clientRead 18, .clientDecode, .clientDecode, .key [0x68, 0x1b, 0x5b, 0x49], .forward, .forward, .serverRead 10, .serverDecode,
      .serverRead 15, .serverDecode, .serverDecode, .serverDecode] = some c ∧
    c.dispatched = c.sent ∧ ptyInput c.sent ++ actionBytes c.actions ++ c.filter.carry = through [0x68, 0x1b, 0x5b, 0x49] := by
  obtain ⟨c, hrun, hserver, hdraining, hwire, htyped⟩ : ∃ c, (start (.connect "a" 0 80 24 .createOrAttach)).run [.serverRead 33,
      .serverDecode, .accept "a" true, .clientRead 18, .clientDecode, .clientDecode, .key [0x68, 0x1b, 0x5b, 0x49], .forward, .forward,
      .serverRead 10, .serverDecode, .serverRead 15, .serverDecode, .serverDecode, .serverDecode] = some c ∧
      c.server = .serving ∧ c.serverDraining = false ∧ c.toServer = [] ∧ c.typed = [0x68, 0x1b, 0x5b, 0x49] := ⟨_, rfl, rfl, rfl, rfl, rfl⟩
  obtain ⟨-, -, -, hall, -, hplain, -⟩ := run_dispatches ⟨_, rfl⟩ hrun
  rw [htyped] at hplain
  exact ⟨c, hrun, hall hserver hdraining hwire, hplain (by decide)⟩

end Conversation

/-! ## Attaching -/

/-- What the client writes to its terminal for a message. -/
def dispatchServerMsg : ServerMsg → List UInt8
  | .screenUpdate data | .passthrough data => data
  | .history lines => lines.flatMap fun line => line ++ [0x0d, 0x0a]
  | _ => []

section Initial

variable {H : Type} [DecidableEq H] (R : RowHash H)

namespace Screen

/-- The bytes of the ScreenUpdate of `send_initial_state`, with the screen and
the cache that it leaves. -/
def initialUpdateBytes (s : Screen) : List UInt8 × Screen × RenderCache H :=
  let history := if s.state.inAltScreen then [] else s.getHistory.map written
  let (notifications, s) := s.takeQueuedNotifications
  let flush := if history ≠ [] then (Event.cup s.grid.rows 1).bytes ++ List.replicate (s.grid.rows - 1) 0x0a else []
  let (frame, cache) := renderScreenBytes R s.grid s.state.title [] true {}
  (notifications.flatten ++ flush ++ frame, s, cache)

/-- What `send_initial_state` sends after Connected. -/
def initialMessages (s : Screen) : List ServerMsg := s.historyChunks.map .history ++ [.screenUpdate (s.initialUpdateBytes R).1]

/-- The bytes that a client is to get when it attaches: the lines of the history,
then the update. -/
def initialOutput (s : Screen) : List UInt8 :=
  ((if s.state.inAltScreen then [] else s.getHistory.map written).flatMap fun line => line ++ [0x0d, 0x0a]) ++ (s.initialUpdateBytes R).1

theorem initialMessages_output (s : Screen) : (s.initialMessages R).flatMap dispatchServerMsg = s.initialOutput R := by
  have hchunks : s.historyChunks.flatten = if s.state.inAltScreen then [] else s.getHistory.map written := chunkHistory_flatten _ _ _
  rw [initialMessages, initialOutput, List.flatMap_append, List.flatMap_map, ← hchunks, ← List.flatMap_id, List.flatMap_assoc]
  simp [dispatchServerMsg]

theorem written_history (lines : List (List Event)) :
    written (writeHistory lines) = (lines.map written).flatMap fun line => line ++ [0x0d, 0x0a] := by
  induction lines with
  | nil => rfl
  | cons line lines ih =>
    rw [writeHistory, List.map_cons, List.flatten_cons, Event.written_append, Event.written_append, List.map_cons, List.flatMap_cons, ← ih]
    rfl

theorem sent_flush (title : List UInt8) (rows : Nat) (history : List (List Event)) :
    (flushHistory rows history).flatMap (sentBytes title) =
      if history.map written ≠ [] then (Event.cup rows 1).bytes ++ List.replicate (rows - 1) 0x0a else [] := by
  have hpaints : ∀ e ∈ flushHistory rows history, e.Paints := by
    intro e he
    unfold flushHistory at he
    split at he
    · rcases List.mem_cons.1 he with rfl | he
      · simp [Event.cup, Event.Paints]
      · rw [(List.mem_replicate.1 he).2]
        rfl
    · cases he
  have hfeeds (n : Nat) : written (List.replicate n (.execute 0x0a)) = List.replicate n 0x0a := by
    rw [written, List.flatMap_replicate, Event.bytes, List.flatten_replicate_singleton]
  rw [sent_inner title fun e he => (hpaints e he).inner]
  unfold flushHistory
  by_cases hnone : history = []
  · subst hnone
    rfl
  · rw [if_pos hnone, if_pos (by simpa using hnone), Event.written_cons, hfeeds]

/-- What the client writes: the callbacks of the history, the notifications as
they are, and the callbacks of the update. -/
theorem initialOutput_sent (s : Screen) {history : List (List Event)} (h : history = if s.state.inAltScreen then [] else s.getHistory) :
    s.initialOutput R = written (writeHistory history) ++ s.state.queuedNotifications.flatten ++
      (initialUpdate R s.grid s.state.title history {}).flatMap (sentBytes s.state.title) := by
  have hbytes : (if s.state.inAltScreen then [] else s.getHistory.map written) = history.map written := by
    rw [h]
    split <;> rfl
  rw [initialOutput, initialUpdateBytes, hbytes, written_history, initialUpdate, List.flatMap_append, sent_flush,
    ← renderScreenBytes_sent R s.grid s.state.title (fun _ hline => absurd hline List.not_mem_nil) true {}]
  simp only [takeQueuedNotifications, List.append_assoc]

/-- All of them can be sent, if the update can. -/
theorem initialMessages_encodable {W : UnicodeWidth} {s : Screen} (hs : s.Reachable W)
    (hfits : 12 + (s.initialUpdateBytes R).1.length ≤ maxFrameSize) : ∀ m ∈ s.initialMessages R, Encodable m ∧ m.isDone = false := by
  intro m hm
  rcases List.mem_append.1 hm with hm | hm
  · obtain ⟨chunk, hchunk, rfl⟩ := List.mem_map.1 hm
    exact ⟨((history_arrives hs rfl).1 chunk hchunk).2, rfl⟩
  · obtain rfl := List.mem_singleton.1 hm
    exact ⟨(encodes_iff _).2 (by rwa [enc_screenUpdate_length]), rfl⟩

end Screen

end Initial

namespace Conversation

variable {H : Type} [DecidableEq H] {R : RowHash H} {W : UnicodeWidth} {connect : ClientMsg} {c : Conversation} {s : Screen}

/-- A client attaches to a session with screen `s`. All messages of its initial
state can be sent if its update is not too long. What the client's terminal gets
is the front of the history, line by line, the update and what is sent later;
and once nothing is on the way, all that has been sent of it. -/
theorem attach_shows (hs : s.Reachable W) (hfits : 12 + (s.initialUpdateBytes R).1.length ≤ maxFrameSize) (hconnect : Encodable connect)
    {steps : List ConversationStep} (hrun : (start connect).run steps = some c) {later : List ServerMsg}
    (hreplied : c.replied <+: s.initialMessages R ++ later) :
    (∀ m ∈ s.initialMessages R, Encodable m ∧ m.isDone = false) ∧
      c.shown.flatMap dispatchServerMsg <+: s.initialOutput R ++ later.flatMap dispatchServerMsg ∧
      (c.client = .relaying → c.clientDraining = false → c.toClient = [] →
        c.shown.flatMap dispatchServerMsg = c.replied.flatMap dispatchServerMsg ∧
          (c.replied = s.initialMessages R ++ later →
            c.shown.flatMap dispatchServerMsg = s.initialOutput R ++ later.flatMap dispatchServerMsg)) := by
  have h := (run_inv hconnect hrun).1
  have hout : (s.initialMessages R ++ later).flatMap dispatchServerMsg = s.initialOutput R ++ later.flatMap dispatchServerMsg := by
    rw [List.flatMap_append, Screen.initialMessages_output]
  refine ⟨Screen.initialMessages_encodable R hs hfits, ?_, fun hc hdraining hwire => ?_⟩
  · obtain ⟨rest, hrest⟩ := h.shown.trans hreplied
    rw [← hout, ← hrest, List.flatMap_append]
    exact List.prefix_append _ _
  · rw [h.shown_all hc hdraining hwire]
    exact ⟨rfl, fun hall => by rw [hall, hout]⟩

set_option maxRecDepth 2000 in
/-- A line has scrolled off a screen of one row. -/
theorem attach_shows_sample : ∃ s c, (Screen.new 2 1 10).run .sample [.callback (.print 'a'), .callback (.execute 0x0a)] = some s ∧
    (start (.connect "a" 0 2 1 .attachOnly)).run ([.serverRead 33, .serverDecode, .accept "a" false] ++
      (s.initialMessages Viewed.rowHash).map .reply ++ [.clientRead 216, .clientDecode, .clientDecode, .clientDecode, .clientDecode]) = some c ∧
    c.shown.flatMap dispatchServerMsg = s.initialOutput Viewed.rowHash := by
  obtain ⟨s, hscreen, hfits, c, hrun, hreplied, hclient, hdraining, hwire⟩ :
      ∃ s, (Screen.new 2 1 10).run .sample [.callback (.print 'a'), .callback (.execute 0x0a)] = some s ∧
        12 + (s.initialUpdateBytes Viewed.rowHash).1.length ≤ maxFrameSize ∧
        ∃ c, (start (.connect "a" 0 2 1 .attachOnly)).run ([.serverRead 33, .serverDecode, .accept "a" false] ++
            (s.initialMessages Viewed.rowHash).map .reply ++ [.clientRead 216, .clientDecode, .clientDecode, .clientDecode, .clientDecode]) = some c ∧
          c.replied = s.initialMessages Viewed.rowHash ++ [] ∧ c.client = .relaying ∧ c.clientDraining = false ∧ c.toClient = [] :=
    ⟨_, rfl, by decide, _, rfl, rfl, rfl, rfl, rfl⟩
  have hs : s.Reachable .sample := ⟨2, 1, 10, _, by decide, by decide, by simp [Action.Sized], hscreen⟩
  have hprefix : c.replied <+: s.initialMessages Viewed.rowHash ++ [] := hreplied ▸ List.prefix_rfl
  have hshown := ((attach_shows hs hfits ⟨_, rfl⟩ hrun hprefix).2.2 hclient hdraining hwire).2 hreplied
  exact ⟨s, c, hscreen, hrun, by rw [hshown, List.flatMap_nil, List.append_nil]⟩

end Conversation

end Retach
