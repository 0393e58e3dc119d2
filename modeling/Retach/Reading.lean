import Retach.Serving
import Retach.Lib.Splitting
/-!
# Reading any bytes (`protocol/codec.rs`, `server/client_handler.rs`, `client/mod.rs`)

What a peer sends need not be messages. The loops that read and decode yield
the messages in front of the bytes and stop at the first that ends them, at an
error or at the end of the file, and where the reads cut the bytes makes no
difference to it.
-/

open Binary Splitting

namespace Retach

open Protocol

/-! ## Messages in front of bytes -/

section Messages

variable {M : Type} [Codec M]

/-- `decode_frame` and `decode`. -/
def nextMessage (M : Type) [Codec M] (bs : List UInt8) : Except ProtocolError (Option (M × Nat)) :=
  match decodeFrame bs with
  | .error e => .error e
  | .ok none => .ok none
  | .ok (some (data, consumed)) =>
    match (decode data : Except ProtocolError M) with
    | .error e => .error e
    | .ok msg => .ok (some (msg, consumed))

theorem beBytes_beValue {bs : List UInt8} (h : bs.length = 4) : beBytes (beValue bs) = bs := by
  have hle := leBytes_leValue bs.reverse
  rw [List.length_reverse, h] at hle
  rw [beBytes, beValue, hle, List.reverse_reverse]

/-- What `decode_frame` accepts is a frame. -/
theorem of_decodeFrame {bs data : List UInt8} {n : Nat} (h : decodeFrame bs = .ok (some (data, n))) :
    data.length ≤ maxFrameSize ∧ n = (frame data).length ∧ bs = frame data ++ bs.drop n := by
  unfold decodeFrame at h
  split at h
  · cases h
  next hhead =>
    simp only at h
    split at h
    · cases h
    next hmax =>
      split at h
      · cases h
      next hlen =>
        simp only [Except.ok.injEq, Option.some.injEq, Prod.mk.injEq] at h
        obtain ⟨rfl, rfl⟩ := h
        have hdata : ((bs.drop 4).take (beValue (bs.take 4))).length = beValue (bs.take 4) := by
          rw [List.length_take, List.length_drop]
          omega
        refine ⟨by omega, by rw [frame_length, hdata], ?_⟩
        rw [frame, hdata, beBytes_beValue (by rw [List.length_take]; omega), ← List.drop_drop, List.append_assoc,
          List.take_append_drop, List.take_append_drop]

/-- What is accepted is what `encode` writes. -/
theorem of_nextMessage {bs : List UInt8} {msg : M} {n : Nat} (h : nextMessage M bs = .ok (some (msg, n))) :
    Encodable msg ∧ n = (encoding msg).length ∧ bs = encoding msg ++ bs.drop n := by
  unfold nextMessage at h
  split at h
  · cases h
  · cases h
  next data consumed hframe =>
    split at h
    · cases h
    next msg' hdecode =>
      simp only [Except.ok.injEq, Option.some.injEq, Prod.mk.injEq] at h
      obtain ⟨rfl, rfl⟩ := h
      obtain ⟨hsize, hn, hbs⟩ := of_decodeFrame hframe
      obtain rfl := enc_of_decode hdecode
      have henc : encode msg' = .ok (frame (enc msg')) := encode_of_le hsize
      have hencoding : encoding msg' = frame (enc msg') := by rw [encoding, henc]
      rw [hencoding]
      exact ⟨⟨_, henc⟩, hn, hbs⟩

theorem nextMessage_encoding {msg : M} (h : Encodable msg) (rest : List UInt8) :
    nextMessage M (encoding msg ++ rest) = .ok (some (msg, (encoding msg).length)) := by
  obtain ⟨payload, hframe, hdecode, -⟩ := (encode_roundTrips h.encode_eq).whole rest
  rw [nextMessage, hframe]
  simp only [hdecode]

/-- What `decode_frame` says is not changed by more bytes, unless it asks for them. -/
theorem decodeFrame_stable {bs : List UInt8} (rest : List UInt8) (h : decodeFrame bs ≠ .ok none) :
    decodeFrame (bs ++ rest) = decodeFrame bs := by
  unfold decodeFrame at h ⊢
  by_cases hhead : bs.length < 4
  · exact absurd (if_pos hhead) h
  rw [if_neg hhead] at h ⊢
  rw [if_neg (by rw [List.length_append]; omega), List.take_append_of_le_length (by omega)]
  simp only at h ⊢
  by_cases hmax : beValue (bs.take 4) > maxFrameSize
  · rw [if_pos hmax, if_pos hmax]
  rw [if_neg hmax] at h ⊢
  by_cases hlen : bs.length < 4 + beValue (bs.take 4)
  · exact absurd (if_pos hlen) h
  rw [if_neg hlen, if_neg hmax, if_neg (by rw [List.length_append]; omega), List.drop_append_of_le_length (by omega),
    List.take_append_of_le_length (by rw [List.length_drop]; omega)]

/-- Messages as items of the bytes. -/
def messages (M : Type) [Codec M] : Splitter ProtocolError M where
  next := nextMessage M
  next_pos h := by
    obtain ⟨hmsg, rfl, hbs⟩ := of_nextMessage h
    have hlen := congrArg List.length hbs
    have hmin := hmsg.encoding_length
    rw [List.length_append] at hlen
    omega
  next_append rest h := by
    have hframe : decodeFrame _ ≠ .ok none := fun hnone => h (by rw [nextMessage, hnone])
    rw [nextMessage, decodeFrame_stable rest hframe]
    rfl

/-- While more bytes are needed, they are less than a frame. -/
theorem length_of_none {bs : List UInt8} (h : nextMessage M bs = .ok none) : bs.length < 4 + maxFrameSize := by
  unfold nextMessage decodeFrame at h
  split at h
  · cases h
  next hnone =>
    split at hnone
    · omega
    · simp only at hnone
      split at hnone
      · cases hnone
      · split at hnone
        · omega
        · cases hnone
  · split at h <;> cases h

/-- The bytes are the encodings of the messages and what is left, and `stop`
holds of the last message alone, if it does of any. -/
theorem items_messages (stop : M → Bool) (bs : List UInt8) :
    bs = stream ((messages M).items stop bs).1 ++ ((messages M).items stop bs).2.rest ∧
      (∀ m ∈ ((messages M).items stop bs).1, Encodable m) ∧
        upTo stop ((messages M).items stop bs).1 = ((messages M).items stop bs).1 := by
  refine Splitter.items_induct (P := fun bs ms ending => bs = stream ms ++ ending.rest ∧ (∀ m ∈ ms, Encodable m) ∧
    upTo stop ms = ms) ?_ ?_ ?_ ?_ bs
  · exact fun _ _ => ⟨rfl, by simp, rfl⟩
  · exact fun _ _ _ => ⟨rfl, by simp, rfl⟩
  · intro bs msg n hnext hstop
    obtain ⟨hmsg, -, hbs⟩ := of_nextMessage hnext
    exact ⟨by simpa [stream, Ending.rest] using hbs, by simpa using hmsg, by simp [upTo, hstop]⟩
  · rintro bs msg n ms ending hnext hstop ⟨hrest, hms, hupTo⟩
    obtain ⟨hmsg, -, hbs⟩ := of_nextMessage hnext
    refine ⟨?_, by simpa using ⟨hmsg, hms⟩, by simp [upTo, hstop, hupTo]⟩
    rw [hrest] at hbs
    rw [hbs]
    simp [stream]

end Messages

/-! ## The loops -/

/-- `decode_next` looks at what is left over. -/
theorem FrameReader.decodeNext_eq {M : Type} [Codec M] (r : FrameReader) : r.decodeNext M =
    match nextMessage M r.intoLeftover with
    | .error e => .error e
    | .ok none => .ok (none, r)
    | .ok (some (msg, n)) => .ok (some msg, { r with offset := r.offset + n }) := by
  unfold decodeNext nextMessage intoLeftover
  cases decodeFrame (r.readBuf.drop r.offset) with
  | error e => rfl
  | ok found =>
    cases found with
    | none => rfl
    | some item => cases hdecode : (decode item.1 : Except ProtocolError M) <;> simp [hdecode]

namespace ReadLoop

variable {M : Type} [Codec M] {stop : M → Bool} {d : ReadLoop M}

/-- The bytes that are not decoded. -/
def ahead (d : ReadLoop M) : List UInt8 := d.reader.intoLeftover ++ d.reads.flatten

/-- What the loop will have decoded, and how it will end. -/
def outcome (stop : M → Bool) (d : ReadLoop M) : List M × Ending ProtocolError :=
  if d.stopped then (d.decoded, .stopped d.ahead)
  else (d.decoded ++ ((messages M).items stop d.ahead).1, ((messages M).items stop d.ahead).2)

/-- Every step makes it smaller. -/
def weight (d : ReadLoop M) : Nat := d.ahead.length + 2 * d.reads.length + (if d.draining then 1 else 0)

/-- Before a read no message is left over; every read returns something, and no
more than the buffer holds. -/
structure Fed (d : ReadLoop M) : Prop where
  wants : d.stopped = false → d.draining = false → nextMessage M d.reader.intoLeftover = .ok none
  reads : ∀ bytes ∈ d.reads, bytes ≠ [] ∧ bytes.length ≤ readBufSize

/-- How the loop ends from `d`, and that it has. -/
def Ended (stop : M → Bool) (d : ReadLoop M) : Ending ProtocolError → Prop
  | .wants rest => d.step stop = .ok none ∧ d.reads = [] ∧ d.reader.intoLeftover = rest
  | .stopped rest => d.step stop = .ok none ∧ d.ahead = rest
  | .failed e rest => d.step stop = .error e ∧ d.ahead = rest

/-- A step that keeps the outcome, or the end. -/
def Advances (stop : M → Bool) (d : ReadLoop M) : Prop :=
  (∃ ending, d.Ended stop ending ∧ d.outcome stop = (d.decoded, ending) ∧ (∀ e rest, ending = .failed e rest → 0 < d.weight)) ∨
    ∃ d', d.step stop = .ok (some d') ∧ d'.Fed ∧ d'.outcome stop = d.outcome stop ∧ d'.weight < d.weight

/-- A call of `decode_next`. -/
theorem Fed.drain (h : d.Fed) (hstop : d.stopped = false) (hd : d.draining = true) : d.Advances stop := by
  have houtcome : d.outcome stop = (d.decoded ++ ((messages M).items stop d.ahead).1, ((messages M).items stop d.ahead).2) := by
    rw [outcome, if_neg (by simp [hstop])]
  cases hnext : nextMessage M d.reader.intoLeftover with
  | error e =>
    have hstep : d.step stop = .error e := by simp [ReadLoop.step, hstop, hd, FrameReader.decodeNext_eq, hnext]
    refine .inl ⟨.failed e d.ahead, ⟨hstep, rfl⟩, ?_, fun _ _ _ => by rw [weight, if_pos hd]; omega⟩
    rw [houtcome, ahead, Splitter.items_error (p := messages M) hnext, List.append_nil]
  | ok found =>
    cases found with
    | none =>
      have hstep : d.step stop = .ok (some { d with draining := false }) := by
        simp [ReadLoop.step, hstop, hd, FrameReader.decodeNext_eq, hnext]
      refine .inr ⟨_, hstep, ⟨fun _ _ => hnext, h.reads⟩, rfl, ?_⟩
      simp [weight, ahead, hd]
    | some item =>
      obtain ⟨msg, n⟩ := item
      have hleft : FrameReader.intoLeftover { d.reader with offset := d.reader.offset + n } = d.reader.intoLeftover.drop n := by
        rw [FrameReader.intoLeftover, FrameReader.intoLeftover, List.drop_drop]
      have hstep : d.step stop = .ok (some { d with reader := { d.reader with offset := d.reader.offset + n }
                                                    decoded := d.decoded ++ [msg], stopped := stop msg }) := by
        simp [ReadLoop.step, hstop, hd, FrameReader.decodeNext_eq, hnext]
      refine .inr ⟨_, hstep, ⟨by simp [hd], h.reads⟩, ?_, ?_⟩
      · rw [houtcome, ahead, Splitter.items_some (p := messages M) hnext, outcome, ahead]
        simp only [hleft]
        cases hmsg : stop msg <;> simp
      · have hpos := (messages M).next_pos hnext
        simp only [weight, ahead, hleft, List.length_append, List.length_drop]
        omega

/-- A read. -/
theorem Fed.fill (h : d.Fed) (hstop : d.stopped = false) (hd : d.draining = false) {bytes : List UInt8}
    {reads : List (List UInt8)} (hreads : d.reads = bytes :: reads) : d.Advances stop := by
  obtain ⟨hne, hlen⟩ := h.reads bytes (by simp [hreads])
  have hleft := length_of_none (h.wants hstop hd)
  have hfill := FrameReader.fillFrom_eq hne (r := d.reader) (by
    unfold readBufSize at hlen
    unfold maxFrameSize at *
    omega)
  have hahead : ahead { d with reader := { readBuf := d.reader.intoLeftover ++ bytes }, reads, draining := true,
                               received := d.received ++ bytes } = d.ahead := by
    rw [ahead, ahead, hreads, List.flatten_cons, ← List.append_assoc]
    rfl
  refine .inr ⟨{ d with reader := { readBuf := d.reader.intoLeftover ++ bytes }, reads, draining := true
                        received := d.received ++ bytes }, ?_, ⟨by simp, ?_⟩, ?_, ?_⟩
  · rw [ReadLoop.step, if_neg (by simp [hstop]), if_neg (by simp [hd]), hreads]
    simp only [hfill]
  · exact fun b hb => h.reads b (by simp [hreads, hb])
  · simp only [outcome, hahead]
  · simp only [weight, hahead, hreads, hd, List.length_cons]
    simp
    omega

theorem Fed.step (h : d.Fed) (stop : M → Bool) : d.Advances stop := by
  cases hstop : d.stopped with
  | true =>
    have hstep : d.step stop = .ok none := by rw [ReadLoop.step, if_pos hstop]
    exact .inl ⟨.stopped d.ahead, ⟨hstep, rfl⟩, by rw [outcome, if_pos hstop], by simp⟩
  | false =>
    cases hd : d.draining with
    | true => exact h.drain hstop hd
    | false =>
      cases hreads : d.reads with
      | cons bytes reads => exact h.fill hstop hd hreads
      | nil =>
        have hstep : d.step stop = .ok none := by
          rw [ReadLoop.step, if_neg (by simp [hstop]), if_neg (by simp [hd]), hreads]
        have hahead : d.ahead = d.reader.intoLeftover := by rw [ahead, hreads, List.flatten_nil, List.append_nil]
        refine .inl ⟨.wants d.reader.intoLeftover, ⟨hstep, hreads, rfl⟩, ?_, by simp⟩
        rw [outcome, if_neg (by simp [hstop]), hahead, Splitter.items_none (p := messages M) (h.wants hstop hd), List.append_nil]

/-- What is decoded is part of the outcome. -/
theorem decoded_prefix (d : ReadLoop M) : d.decoded <+: (d.outcome stop).1 := by
  unfold outcome
  split
  · exact List.prefix_rfl
  · exact List.prefix_append _ _

/-- The outcome is the same at every moment. -/
theorem Fed.after (h : d.Fed) {n : Nat} {d' : ReadLoop M} (hd' : d.after stop n = .ok d') :
    d'.Fed ∧ d'.outcome stop = d.outcome stop := by
  induction n generalizing d with
  | zero =>
    obtain rfl := Except.ok.inj hd'
    exact ⟨h, rfl⟩
  | succ n ih =>
    rw [ReadLoop.after] at hd'
    rcases h.step stop with ⟨ending, hended, -, -⟩ | ⟨d₁, hstep, hfed, hout, -⟩
    · cases ending with
      | failed e rest =>
        rw [hended.1] at hd'
        cases hd'
      | wants rest | stopped rest =>
        rw [hended.1] at hd'
        obtain rfl := Except.ok.inj hd'
        exact ⟨h, rfl⟩
    · rw [hstep] at hd'
      obtain ⟨hfed', hout'⟩ := ih hfed hd'
      exact ⟨hfed', hout'.trans hout⟩

/-- With enough steps the loop ends as the outcome says. -/
theorem Fed.ends (h : d.Fed) (stop : M → Bool) {n : Nat} (hn : d.weight ≤ n) : ∃ k d' ending, d.after stop k = .ok d' ∧
    d'.Ended stop ending ∧ d.outcome stop = (d'.decoded, ending) ∧ d.finish stop n = (d', ending.failure) := by
  induction n generalizing d with
  | zero =>
    rcases h.step stop with ⟨ending, hended, hout, hpos⟩ | ⟨_, _, _, _, hlt⟩
    · refine ⟨0, d, ending, rfl, hended, hout, ?_⟩
      cases ending with
      | failed e rest => exact absurd (hpos e rest rfl) (by omega)
      | wants rest | stopped rest => rfl
    · omega
  | succ n ih =>
    rcases h.step stop with ⟨ending, hended, hout, -⟩ | ⟨d₁, hstep, hfed, hout, hlt⟩
    · refine ⟨0, d, ending, rfl, hended, hout, ?_⟩
      rw [finish]
      cases ending with
      | failed e rest => rw [hended.1]; rfl
      | wants rest | stopped rest => rw [hended.1]; rfl
    · obtain ⟨k, d', ending, hk, hended, hout', hfinish⟩ := ih hfed (by omega)
      refine ⟨k + 1, d', ending, ?_, hended, hout.symm.trans hout', ?_⟩
      · rw [ReadLoop.after, hstep]
        exact hk
      · rw [finish, hstep]
        exact hfinish

/-- `after` keeps the error or the loop. -/
theorem after_eq (n : Nat) (d : ReadLoop M) : d.after stop n = match d.finish stop n with
    | (_, some e) => .error e
    | (d', none) => .ok d' := by
  induction n generalizing d with
  | zero => rfl
  | succ n ih =>
    rw [ReadLoop.after, finish]
    cases d.step stop with
    | error e => rfl
    | ok next =>
      cases next with
      | none => rfl
      | some d₁ => exact ih d₁

theorem fed_start {leftover received : List UInt8} {reads : List (List UInt8)}
    (hreads : ∀ bytes ∈ reads, bytes ≠ [] ∧ bytes.length ≤ readBufSize) :
    Fed ({ reader := .withLeftover leftover, reads, draining := true, received } : ReadLoop M) :=
  ⟨by simp, hreads⟩

/-- On any bytes, however they are cut into reads, a loop yields the messages
that the bytes begin with, nothing else at any moment, and then ends: at the
first message with `stop`, at the first error, or for want of bytes. What it has
taken is what `encode` writes for the messages. -/
theorem run_any (stop : M → Bool) (leftover : List UInt8) (reads : List (List UInt8))
    (hreads : ∀ bytes ∈ reads, bytes ≠ [] ∧ bytes.length ≤ readBufSize) :
    let start : ReadLoop M := { reader := .withLeftover leftover, reads, draining := true, received := leftover }
    let all := (messages M).items stop (leftover ++ reads.flatten)
    leftover ++ reads.flatten = stream all.1 ++ all.2.rest ∧ (∀ m ∈ all.1, Encodable m) ∧ upTo stop all.1 = all.1 ∧
      (∀ n d, start.after stop n = .ok d → d.decoded <+: all.1) ∧
        ∃ n d, start.after stop n = .ok d ∧ d.decoded = all.1 ∧ d.Ended stop all.2 ∧
          start.run stop = match all.2 with | .failed e _ => .error e | _ => .ok d := by
  intro start all
  have hstart : start.Fed := fed_start hreads
  have hout : start.outcome stop = all := rfl
  obtain ⟨hbytes, hms, hupTo⟩ := items_messages stop (leftover ++ reads.flatten)
  refine ⟨hbytes, hms, hupTo, ?_, ?_⟩
  · intro n d hd
    obtain ⟨-, hsame⟩ := hstart.after hd
    rw [← hout, ← hsame]
    exact decoded_prefix d
  · obtain ⟨k, d, ending, hk, hended, hall, hrun⟩ := hstart.ends stop (n := start.fuel) (by
      simp only [weight, fuel, ahead, List.length_append, start]
      simp)
    rw [hout] at hall
    rw [hall]
    refine ⟨k, d, hk, rfl, hended, ?_⟩
    rw [run, after_eq, hrun]
    cases ending <;> rfl

/-- A message, and then bytes that are none. -/
theorem run_any_sample : run (fun _ => false) ({ reader := .withLeftover [0, 0, 0], reads := [[4, 2, 0, 0], [0, 0, 0, 0, 4, 9, 0, 0, 0]]
                                                 draining := true, received := [0, 0, 0] } : ReadLoop ClientMsg) =
    .error .deserialize := by
  obtain ⟨-, -, -, -, n, d, -, -, -, hrun⟩ := run_any (M := ClientMsg) (fun _ => false) [0, 0, 0] [[4, 2, 0, 0], [0, 0, 0, 0, 4, 9, 0, 0, 0]] (by decide)
  have hall : (messages ClientMsg).items (fun _ => false) ([0, 0, 0] ++ [[4, 2, 0, 0], [0, 0, 0, 0, 4, 9, 0, 0, 0]].flatten) =
      ([.detach], .failed .deserialize [0, 0, 0, 4, 9, 0, 0, 0]) := by decide
  rw [hall] at hrun
  exact hrun

end ReadLoop

/-! ## The first message -/

section First

variable (M : Type) [Codec M]

/-- Reads until the first message is there; `none` at the end of the file. -/
def firstMessage (r : FrameReader) : List (List UInt8) → Except ProtocolError (Option (M × FrameReader × List (List UInt8)))
  | [] => .ok none
  | bytes :: reads =>
    match r.fillFrom bytes with
    | .error e => .error e
    | .ok (_, r) =>
      match r.decodeNext M with
      | .error e => .error e
      | .ok (some msg, r) => .ok (some (msg, r, reads))
      | .ok (none, r) => firstMessage r reads

/-- A `ProtocolError`, or `UnexpectedEof`. -/
inductive ReadError where
  | protocol (e : ProtocolError)
  | connectionClosed
deriving DecidableEq, Repr

/-- `read_one_message`. What comes after the message is discarded. -/
def readOneMessage (reads : List (List UInt8)) : Except ReadError M :=
  match firstMessage M {} reads with
  | .error e => .error (.protocol e)
  | .ok none => .error .connectionClosed
  | .ok (some (msg, _)) => .ok msg

variable {M}

/-- The first message ends in one of the reads, and the part of that read beyond
it is kept. -/
structure EndsIn (reads : List (List UInt8)) (p : List UInt8) (n : Nat) (r : FrameReader) (post : List (List UInt8)) : Prop where
  split : ∃ pre bytes, reads = pre ++ bytes :: post ∧ (p ++ pre.flatten).length < n ∧ n ≤ (p ++ pre.flatten ++ bytes).length ∧
    r.intoLeftover.length ≤ bytes.length
  rest : r.intoLeftover ++ post.flatten = (p ++ reads.flatten).drop n

/-- What `firstMessage` is to return, given the message that all bytes begin with. -/
def Finds (reads : List (List UInt8)) (p : List UInt8)
    (result : Except ProtocolError (Option (M × FrameReader × List (List UInt8)))) : Except ProtocolError (Option (M × Nat)) → Prop
  | .error e => result = .error e
  | .ok none => result = .ok none
  | .ok (some (msg, n)) => ∃ r post, result = .ok (some (msg, r, post)) ∧ EndsIn reads p n r post

theorem nextMessage_append {bs : List UInt8} (rest : List UInt8) (h : nextMessage M bs ≠ .ok none) :
    nextMessage M (bs ++ rest) = nextMessage M bs := (messages M).next_append rest h

omit [Codec M] in
/-- More reads before the first message ends. -/
theorem Finds.cons {reads : List (List UInt8)} {p bytes : List UInt8}
    {result : Except ProtocolError (Option (M × FrameReader × List (List UInt8)))} {next : Except ProtocolError (Option (M × Nat))}
    (h : Finds reads (p ++ bytes) result next) : Finds (bytes :: reads) p result next := by
  match next, h with
  | .error e, h => exact h
  | .ok none, h => exact h
  | .ok (some (msg, n)), ⟨r, post, hresult, ⟨pre, b, hreads, hlt, hge, hleft⟩, hrest⟩ =>
    refine ⟨r, post, hresult, ⟨bytes :: pre, b, by rw [hreads]; rfl, ?_, ?_, hleft⟩, ?_⟩
    · rwa [List.flatten_cons, ← List.append_assoc]
    · rwa [List.flatten_cons, ← List.append_assoc]
    · rw [hrest, List.flatten_cons, List.append_assoc]

/-- On any bytes, the first message is the one they begin with, wherever they
are cut. -/
theorem firstMessage_any {p : List UInt8} (hp : nextMessage M p = .ok none) {reads : List (List UInt8)}
    (hreads : ∀ bytes ∈ reads, bytes ≠ [] ∧ bytes.length ≤ readBufSize) :
    Finds reads p (firstMessage M { readBuf := p } reads) (nextMessage M (p ++ reads.flatten)) := by
  induction reads generalizing p with
  | nil =>
    rw [List.flatten_nil, List.append_nil, hp]
    rfl
  | cons bytes reads ih =>
    obtain ⟨hne, hlen⟩ := hreads bytes (List.mem_cons_self ..)
    have hrest : ∀ b ∈ reads, b ≠ [] ∧ b.length ≤ readBufSize := fun b hb => hreads b (List.mem_cons_of_mem _ hb)
    have hshort := length_of_none hp
    have hfill : FrameReader.fillFrom { readBuf := p } bytes = .ok (true, { readBuf := p ++ bytes }) :=
      FrameReader.fillFrom_eq hne (by
        change p.length + bytes.length ≤ _
        unfold readBufSize at hlen
        unfold maxFrameSize at *
        omega)
    rw [List.flatten_cons, ← List.append_assoc, firstMessage, hfill]
    dsimp only
    rw [FrameReader.decodeNext_eq, show FrameReader.intoLeftover { readBuf := p ++ bytes } = p ++ bytes from rfl]
    cases hnext : nextMessage M (p ++ bytes) with
    | error e =>
      rw [nextMessage_append reads.flatten (by rw [hnext]; simp), hnext]
      rfl
    | ok found =>
      cases found with
      | none => exact (ih hnext hrest).cons
      | some item =>
        obtain ⟨msg, n⟩ := item
        rw [nextMessage_append reads.flatten (by rw [hnext]; simp), hnext]
        have hpos : n ≤ (p ++ bytes).length := ((messages M).next_pos hnext).2
        have hover : p.length < n := by
          by_contra hle
          -- else the message was there before this read
          obtain ⟨hmsg, rfl, hbs⟩ := of_nextMessage hnext
          obtain ⟨rest, hrest⟩ : encoding msg <+: p :=
            List.prefix_of_prefix_length_le ⟨_, hbs.symm⟩ (List.prefix_append _ _) (by omega)
          rw [← hrest, nextMessage_encoding hmsg] at hp
          cases hp
        refine ⟨_, reads, rfl, ⟨[], bytes, rfl, by simpa using hover, by simpa using hpos, ?_⟩, ?_⟩
        · change ((p ++ bytes).drop (0 + n)).length ≤ bytes.length
          rw [List.length_drop, List.length_append]
          omega
        · change (p ++ bytes).drop (0 + n) ++ reads.flatten = _
          rw [Nat.zero_add, List.flatten_cons, ← List.append_assoc, List.drop_append_of_le_length hpos]

end First

/-! ## A connection -/

theorem nextMessage_nil (M : Type) [Codec M] : nextMessage M [] = .ok none := rfl

theorem handleClient_eq_first (r : FrameReader) (reads : List (List UInt8)) : handleClient r reads =
    match firstMessage ClientMsg r reads with
    | .error e => .error e
    | .ok none => .ok .closed
    | .ok (some (msg, r, reads)) => .ok (handleMessage r reads msg) := by
  induction reads generalizing r with
  | nil => rfl
  | cons bytes reads ih =>
    rw [handleClient, firstMessage]
    cases r.fillFrom bytes with
    | error e => rfl
    | ok filled =>
      dsimp only
      cases hnext : filled.2.decodeNext ClientMsg with
      | error e => rfl
      | ok found =>
        obtain ⟨msg, r'⟩ := found
        cases msg with
        | none => exact ih r'
        | some msg => rfl

/-- What a relay dispatches of `bs`, however they come, and the error that ends
it. -/
def relayed (bs : List UInt8) : List ClientMsg × Option ProtocolError :=
  let all := (messages ClientMsg).items ClientMsg.isDetach bs
  (all.1, all.2.failure)

/-- A first message that starts a relay. -/
def ClientMsg.opensSession : ClientMsg → Bool
  | .connect name .. => (validateSessionName name).isNone
  | _ => false

theorem handleMessage_opens {msg : ClientMsg} (h : msg.opensSession = true) (r : FrameReader) (reads : List (List UInt8)) :
    ∃ req, handleMessage r reads msg = .session req reads ∧ req.leftover = r.intoLeftover := by
  cases msg with
  | connect name history cols rows mode =>
    obtain hname : validateSessionName name = none := by simpa [ClientMsg.opensSession] using h
    exact ⟨_, by rw [handleMessage, hname], rfl⟩
  | _ => cases h

theorem handleMessage_other {msg : ClientMsg} (h : msg.opensSession = false) (r : FrameReader) (reads : List (List UInt8)) :
    ∀ req reads', handleMessage r reads msg ≠ .session req reads' := by
  intro req reads' heq
  cases msg with
  | connect name history cols rows mode =>
    rw [handleMessage] at heq
    split at heq
    · cases heq
    next hname => simp [ClientMsg.opensSession, hname] at h
  | killSession name =>
    rw [handleMessage] at heq
    split at heq <;> cases heq
  | _ => cases heq

/-- The relay of a session, on any bytes. -/
theorem clientToPty_any {leftover bytes : List UInt8} {reads : List (List UInt8)} (hleft : leftover.length ≤ readBufSize)
    (hreads : ∀ b ∈ bytes :: reads, b ≠ [] ∧ b.length ≤ readBufSize) :
    clientToPty leftover (bytes :: reads) = relayed (leftover ++ (bytes :: reads).flatten) := by
  obtain ⟨hne, hlen⟩ := hreads bytes (List.mem_cons_self ..)
  have hfill := FrameReader.fillFrom_eq (r := .withLeftover leftover) hne (by
    change leftover.length + bytes.length ≤ _
    unfold readBufSize at hleft hlen
    unfold maxFrameSize
    omega)
  have hleftover : (FrameReader.withLeftover leftover).intoLeftover = leftover := rfl
  rw [hleftover] at hfill
  let d : ReadLoop ClientMsg := { reader := { readBuf := leftover ++ bytes }, reads, draining := true, received := leftover ++ bytes }
  have hfed : d.Fed := ReadLoop.fed_start fun b hb => hreads b (List.mem_cons_of_mem _ hb)
  have hahead : d.ahead = leftover ++ (bytes :: reads).flatten := by
    rw [List.flatten_cons, ← List.append_assoc]
    rfl
  obtain ⟨k, d', ending, -, -, hout, hrun⟩ := hfed.ends ClientMsg.isDetach
    (n := leftover.length + (bytes :: reads).flatten.length + 2 * (bytes :: reads).length) (by
      simp only [ReadLoop.weight, hahead, List.length_append, List.length_cons, d, if_true]
      omega)
  have hitems : (messages ClientMsg).items ClientMsg.isDetach (leftover ++ (bytes :: reads).flatten) = (d'.decoded, ending) := by
    rw [← hout, ReadLoop.outcome, if_neg (by simp [d]), hahead]
    rfl
  unfold clientToPty ReadLoop.fuel
  dsimp only
  rw [ReadLoop.finish]
  simp only [ReadLoop.step, Bool.false_eq_true, if_false, hfill, hleftover]
  rw [hrun, relayed, hitems]

theorem dropLast_ends {pre : List (List UInt8)} (post : List (List UInt8)) {bytes : List UInt8} {n : Nat} (hlt : pre.flatten.length < n)
    (hge : n ≤ (pre.flatten ++ bytes).length) : n ≤ (pre ++ bytes :: post).dropLast.flatten.length ↔ post ≠ [] := by
  rw [List.length_append] at hge
  cases post with
  | nil =>
    rw [List.dropLast_concat]
    exact iff_of_false (by omega) (by simp)
  | cons b post =>
    rw [List.dropLast_append_of_ne_nil (by simp), List.dropLast_cons_of_ne_nil (by simp)]
    simp only [List.flatten_append, List.flatten_cons, List.length_append]
    exact iff_of_true (by omega) (by simp)

/-- A connection on any bytes: unless they begin with a Connect message for a
valid name, its relay dispatches nothing. If they do, it dispatches the messages
that follow, up to Detach or the first that is malformed, when a read comes
after the one in which Connect ends; where the reads cut the bytes makes no
other difference. -/
theorem serve_any {reads : List (List UInt8)} (hreads : ∀ bytes ∈ reads, bytes ≠ [] ∧ bytes.length ≤ readBufSize) :
    serve reads = match nextMessage ClientMsg reads.flatten with
      | .error e => ([], some e)
      | .ok none => ([], none)
      | .ok (some (msg, n)) =>
        if msg.opensSession ∧ n ≤ reads.dropLast.flatten.length then relayed (reads.flatten.drop n) else ([], none) := by
  have hfirst := firstMessage_any (p := []) (nextMessage_nil ClientMsg) hreads
  rw [List.nil_append] at hfirst
  rw [serve, handleClient_eq_first]
  cases hnext : nextMessage ClientMsg reads.flatten with
  | error e =>
    rw [hnext] at hfirst
    rw [show firstMessage ClientMsg {} reads = .error e from hfirst]
  | ok found =>
    rw [hnext] at hfirst
    cases found with
    | none => rw [show firstMessage ClientMsg {} reads = .ok none from hfirst]
    | some item =>
      obtain ⟨msg, n⟩ := item
      obtain ⟨r, post, hresult, ⟨pre, bytes, rfl, hlt, hge, hleft⟩, hrest⟩ := hfirst
      rw [List.nil_append] at hlt hge hrest
      rw [show firstMessage ClientMsg {} (pre ++ bytes :: post) = _ from hresult]
      dsimp only
      have hcut := dropLast_ends post hlt hge
      cases hopens : msg.opensSession with
      | false =>
        have hnone : ∀ req reads', handleMessage r post msg ≠ .session req reads' := handleMessage_other hopens r post
        rw [if_neg (by simp)]
        split
        next h => cases h
        next req reads' h => exact absurd (Except.ok.inj h) (hnone req reads')
        next => rfl
      | true =>
        obtain ⟨req, hsession, hleftover⟩ := handleMessage_opens hopens r post
        rw [hsession]
        dsimp only
        rw [hleftover]
        cases post with
        | nil =>
          rw [clientToPty_nil, if_neg]
          exact fun h => hcut.1 h.2 rfl
        | cons b post =>
          have hlen := (hreads bytes (by simp)).2
          rw [clientToPty_any (by omega) fun c hc => hreads c (by simp only [List.mem_append, List.mem_cons] at hc ⊢; exact .inr (.inr hc)),
            hrest, if_pos ⟨rfl, hcut.2 (by simp)⟩]

/-- A key before a frame that is too long. -/
theorem serve_any_sample : ∃ connect key, encode (ClientMsg.connect "a" 0 80 24 .attachOnly) = .ok connect ∧
    encode (ClientMsg.input [97]) = .ok key ∧ serve [connect, key, [1, 0, 0, 1]] = ([.input [97]], some (.frameTooLarge 16777217 16777216)) := by
  refine ⟨_, _, rfl, rfl, ?_⟩
  rw [serve_any (by decide)]
  decide

end Retach
