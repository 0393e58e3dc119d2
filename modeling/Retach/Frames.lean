import Retach.Protocol
/-!
# Reading frames (`FrameReader` in `protocol/codec.rs`)

The reader keeps the bytes it has received and an offset up to which they are
decoded; they are dropped at the next read. The loops of client and server that
read and decode in turn are one `ReadLoop`: they differ in the messages that
end them and in whether they decode or read first.
-/

open Binary

namespace Retach

open Protocol

/-! ## The reader -/

structure FrameReader where
  readBuf : List UInt8 := []
  offset : Nat := 0
deriving DecidableEq, Repr

namespace FrameReader

def withLeftover (leftover : List UInt8) : FrameReader := { readBuf := leftover }

/-- Drops the consumed bytes. -/
def compact (r : FrameReader) : FrameReader :=
  if r.offset > 0 then { readBuf := r.readBuf.drop r.offset } else r

/-- `fill_from`, when the read returned `bytes`; none at the end of file. -/
def fillFrom (r : FrameReader) (bytes : List UInt8) : Except ProtocolError (Bool × FrameReader) :=
  if bytes = [] then .ok (false, r.compact)
  else
    let r := { r.compact with readBuf := r.compact.readBuf ++ bytes }
    if r.readBuf.length > maxFrameSize * 2 + 8 then .error (.frameTooLarge r.readBuf.length maxFrameSize)
    else .ok (true, r)

def decodeNext (M : Type) [Codec M] (r : FrameReader) : Except ProtocolError (Option M × FrameReader) :=
  match decodeFrame (r.readBuf.drop r.offset) with
  | .error e => .error e
  | .ok none => .ok (none, r)
  | .ok (some (data, consumed)) =>
    match (decode data : Except ProtocolError M) with
    | .error e => .error e
    | .ok msg => .ok (some msg, { r with offset := r.offset + consumed })

def intoLeftover (r : FrameReader) : List UInt8 := r.readBuf.drop r.offset

end FrameReader

/-! ## The loops -/

section Loops

variable (M : Type)

structure ReadLoop where
  reader : FrameReader
  /-- What the reads to come return, up to the end of file. -/
  reads : List (List UInt8)
  decoded : List M := []
  /-- `decode_next` has not returned `None` since the last read. -/
  draining : Bool
  /-- A message has ended the loop. -/
  stopped : Bool := false
  /-- Not in the source: the bytes received. -/
  received : List UInt8

variable {M} [Codec M]

namespace ReadLoop

/-- The next call of `decode_next` or `fill_from`, until there is none. The
messages with `stop` end the loop. -/
def step (stop : M → Bool) (d : ReadLoop M) : Except ProtocolError (Option (ReadLoop M)) :=
  if d.stopped then .ok none
  else if d.draining then
    match d.reader.decodeNext M with
    | .error e => .error e
    | .ok (some msg, r) => .ok (some { d with reader := r, decoded := d.decoded ++ [msg], stopped := stop msg })
    | .ok (none, r) => .ok (some { d with reader := r, draining := false })
  else
    match d.reads with
    | [] => .ok none
    | bytes :: reads =>
      match d.reader.fillFrom bytes with
      | .error e => .error e
      | .ok (_, r) => .ok (some { d with reader := r, reads, draining := true, received := d.received ++ bytes })

/-- At most `n` steps. -/
def after (stop : M → Bool) : Nat → ReadLoop M → Except ProtocolError (ReadLoop M)
  | 0, d => .ok d
  | n + 1, d =>
    match d.step stop with
    | .error e => .error e
    | .ok none => .ok d
    | .ok (some d') => after stop n d'

/-- The loop as it stands after at most `n` steps, and the error that has ended
it, if one has. -/
def finish (stop : M → Bool) : Nat → ReadLoop M → ReadLoop M × Option ProtocolError
  | 0, d => (d, none)
  | n + 1, d =>
    match d.step stop with
    | .error e => (d, some e)
    | .ok none => (d, none)
    | .ok (some d') => finish stop n d'

theorem finish_of_after {stop : M → Bool} {n : Nat} {d d' : ReadLoop M} (h : d.after stop n = .ok d') :
    d.finish stop n = (d', none) := by
  induction n generalizing d with
  | zero => rw [finish, Except.ok.inj h]
  | succ n ih =>
    rw [after] at h
    rw [finish]
    cases hstep : d.step stop with
    | error e =>
      rw [hstep] at h
      cases h
    | ok next =>
      rw [hstep] at h
      cases next with
      | none => rw [← Except.ok.inj h]
      | some d₁ => exact ih h

/-- No loop takes more steps: a frame has four bytes or more. -/
def fuel (d : ReadLoop M) : Nat :=
  d.reader.intoLeftover.length + d.reads.flatten.length + 2 * d.reads.length + 1

/-- The whole loop. -/
def run (stop : M → Bool) (d : ReadLoop M) : Except ProtocolError (ReadLoop M) := d.after stop d.fuel

end ReadLoop

/-! ## Specifications of the reader -/

namespace FrameReader

variable {r : FrameReader}

theorem compact_eq (r : FrameReader) : r.compact = { readBuf := r.intoLeftover } := by
  obtain ⟨buf, offset⟩ := r
  unfold compact intoLeftover
  cases offset with
  | zero => rfl
  | succ n => rfl

/-- A read is added to what was left over. -/
theorem fillFrom_eq {bytes : List UInt8} (hne : bytes ≠ [])
    (hlen : r.intoLeftover.length + bytes.length ≤ maxFrameSize * 2 + 8) :
    r.fillFrom bytes = .ok (true, { readBuf := r.intoLeftover ++ bytes }) := by
  unfold fillFrom
  rw [if_neg hne, compact_eq]
  exact if_neg (by simp only [List.length_append]; omega)

variable {M : Type} [Codec M] {msg : M} {bytes : List UInt8}

/-- A whole frame in front is decoded. -/
theorem decodeNext_frame (henc : encode msg = .ok bytes) {rest : List UInt8} (h : r.intoLeftover = bytes ++ rest)
    (hoffset : r.offset ≤ r.readBuf.length) :
    ∃ r', r.decodeNext M = .ok (some msg, r') ∧ r'.intoLeftover = rest ∧ r'.offset ≤ r'.readBuf.length := by
  obtain ⟨payload, hframe, hdecode, -⟩ := (encode_roundTrips henc).whole rest
  refine ⟨{ r with offset := r.offset + bytes.length }, ?_, ?_, ?_⟩
  · unfold decodeNext
    rw [← intoLeftover, h, hframe]
    simp only [hdecode]
  · rw [intoLeftover, ← List.drop_drop, ← intoLeftover, h, List.drop_left]
  · have hlen := congrArg List.length h
    simp only [intoLeftover, List.length_drop, List.length_append] at hlen
    change r.offset + bytes.length ≤ r.readBuf.length
    omega

/-- Part of a frame is left for later. -/
theorem decodeNext_part (henc : encode msg = .ok bytes) (h : r.intoLeftover <+: bytes) (hne : r.intoLeftover ≠ bytes) :
    r.decodeNext M = .ok (none, r) := by
  unfold decodeNext
  rw [← intoLeftover, (encode_roundTrips henc).part _ h hne]

/-- As is nothing. -/
theorem decodeNext_nil (h : r.intoLeftover = []) : r.decodeNext M = .ok (none, r) := by
  unfold decodeNext
  rw [← intoLeftover, h]
  rfl

end FrameReader

/-! ## The loops on whole messages -/

/-- The messages up to the first one that ends the loop. -/
def upTo {M : Type} (stop : M → Bool) : List M → List M
  | [] => []
  | m :: ms => if stop m then [m] else m :: upTo stop ms

theorem upTo_false {M : Type} (ms : List M) : upTo (fun _ => false) ms = ms := by
  induction ms with
  | nil => rfl
  | cons m ms ih => simp [upTo, ih]

section Streams

variable {M : Type} [Codec M]

/-- The bytes of a message that `encode` accepts. -/
def encoding (msg : M) : List UInt8 :=
  match encode msg with
  | .ok bytes => bytes
  | .error _ => []

def stream (ms : List M) : List UInt8 := ms.flatMap encoding

def Encodable (msg : M) : Prop := ∃ bytes, encode msg = .ok bytes

theorem Encodable.encode_eq {msg : M} (h : Encodable msg) : encode msg = .ok (encoding msg) := by
  obtain ⟨bytes, hbytes⟩ := h
  unfold encoding
  rw [hbytes]

theorem Encodable.encoding_length {msg : M} (h : Encodable msg) :
    4 ≤ (encoding msg).length ∧ (encoding msg).length ≤ 4 + maxFrameSize := by
  obtain ⟨hframe, hsize⟩ := encode_ok h.encode_eq
  rw [hframe, frame_length]
  omega

end Streams

namespace ReadLoop

variable {M : Type} [Codec M] {stop : M → Bool} {ms rest : List M} {k : Nat} {d : ReadLoop M}

/-- What is received is decoded or left over; what is left over and the reads
to come are the encodings of `rest`. `k` steps are left. -/
structure Inv (stop : M → Bool) (ms rest : List M) (k : Nat) (d : ReadLoop M) : Prop where
  messages : d.decoded ++ rest = ms
  encodable : ∀ m ∈ rest, Encodable m
  received : d.received = stream d.decoded ++ d.reader.intoLeftover
  ahead : d.reader.intoLeftover ++ d.reads.flatten = stream rest
  /-- Before a read no whole message is left over. -/
  part : d.draining = false → ∀ m ∈ rest.head?, d.reader.intoLeftover <+: encoding m ∧ d.reader.intoLeftover ≠ encoding m
  result : d.decoded ++ (if d.stopped then [] else upTo stop rest) = upTo stop ms
  offset : d.reader.offset ≤ d.reader.readBuf.length
  reads : ∀ bytes ∈ d.reads, bytes ≠ [] ∧ bytes.length ≤ readBufSize
  steps : k = rest.length + 2 * d.reads.length + (if d.draining then 1 else 0)

/-- `decode_next` finds no whole message. -/
theorem Inv.pause (h : Inv stop ms rest k d) (hstop : d.stopped = false) (hd : d.draining = true)
    (hnext : d.reader.decodeNext M = .ok (none, d.reader))
    (hpart : ∀ m ∈ rest.head?, d.reader.intoLeftover <+: encoding m ∧ d.reader.intoLeftover ≠ encoding m) :
    ∃ d' rest' k', k = k' + 1 ∧ d.step stop = .ok (some d') ∧ Inv stop ms rest' k' d' := by
  have hsteps := h.steps
  rw [hd, if_pos rfl] at hsteps
  refine ⟨{ d with draining := false }, rest, _, hsteps, ?_, { h with part := fun _ => hpart, steps := by simp }⟩
  unfold step
  rw [if_neg (by simp [hstop]), if_pos hd, hnext]

/-- A call of `decode_next`. -/
theorem Inv.drain (h : Inv stop ms rest k d) (hstop : d.stopped = false) (hd : d.draining = true) :
    ∃ d' rest' k', k = k' + 1 ∧ d.step stop = .ok (some d') ∧ Inv stop ms rest' k' d' := by
  have hahead := h.ahead
  cases rest with
  | nil =>
    have hnil : d.reader.intoLeftover = [] := (List.append_eq_nil_iff.1 hahead).1
    exact h.pause hstop hd (FrameReader.decodeNext_nil hnil) (by simp)
  | cons m rest =>
    have hm := h.encodable m (List.mem_cons_self ..)
    rw [stream, List.flatMap_cons] at hahead
    rcases Nat.lt_or_ge d.reader.intoLeftover.length (encoding m).length with hlt | hge
    · have hpart : d.reader.intoLeftover <+: encoding m :=
        List.prefix_of_prefix_length_le ⟨_, hahead⟩ (List.prefix_append _ _) (by omega)
      have hne : d.reader.intoLeftover ≠ encoding m := fun heq => by rw [heq] at hlt; omega
      exact h.pause hstop hd (FrameReader.decodeNext_part hm.encode_eq hpart hne) (by simpa using ⟨hpart, hne⟩)
    · obtain ⟨tail, htail⟩ : encoding m <+: d.reader.intoLeftover :=
        List.prefix_of_prefix_length_le (show encoding m <+: d.reader.intoLeftover ++ d.reads.flatten from ⟨_, hahead.symm⟩)
          (List.prefix_append _ _) hge
      obtain ⟨r', hnext, hleft, hoffset⟩ := FrameReader.decodeNext_frame hm.encode_eq htail.symm h.offset
      have hsteps := h.steps
      have hresult := h.result
      rw [hd, if_pos rfl, List.length_cons] at hsteps
      rw [hstop, if_neg Bool.false_ne_true, upTo] at hresult
      refine ⟨{ d with reader := r', decoded := d.decoded ++ [m], stopped := stop m }, rest, k - 1, by omega, ?_, ?_⟩
      · unfold step
        rw [if_neg (by simp [hstop]), if_pos hd, hnext]
      refine { h with
        messages := ?_, encodable := fun m hm => h.encodable m (List.mem_cons_of_mem _ hm), received := ?_, ahead := ?_
        part := by simp [hd], result := ?_, offset := hoffset, steps := by simp [hd]; omega }
      · rw [← h.messages, List.append_assoc, List.singleton_append]
      · rw [h.received, ← htail, hleft, stream, stream, List.flatMap_append]
        simp
      · rw [← htail, List.append_assoc] at hahead
        rw [hleft]
        exact List.append_cancel_left hahead
      · rw [← hresult, List.append_assoc]
        split <;> rfl

/-- A read. -/
theorem Inv.fill (h : Inv stop ms rest k d) (hstop : d.stopped = false) (hd : d.draining = false) {bytes : List UInt8}
    {reads : List (List UInt8)} (hreads : d.reads = bytes :: reads) :
    ∃ d' rest' k', k = k' + 1 ∧ d.step stop = .ok (some d') ∧ Inv stop ms rest' k' d' := by
  obtain ⟨hne, hlen⟩ := h.reads bytes (by simp [hreads])
  have hahead := h.ahead
  have hsteps := h.steps
  rw [hreads, List.flatten_cons] at hahead
  rw [hreads, hd, if_neg Bool.false_ne_true, List.length_cons] at hsteps
  have hleft : d.reader.intoLeftover.length ≤ 4 + maxFrameSize := by
    cases rest with
    | nil => exact absurd (List.append_eq_nil_iff.1 (List.append_eq_nil_iff.1 hahead).2).1 hne
    | cons m rest =>
      have hpart := (h.part hd m rfl).1.length_le
      have hm := (h.encodable m (List.mem_cons_self ..)).encoding_length
      omega
  have hfill := FrameReader.fillFrom_eq hne (r := d.reader) (by unfold readBufSize at hlen; unfold maxFrameSize at *; omega)
  refine ⟨{ d with reader := { readBuf := d.reader.intoLeftover ++ bytes }, reads, draining := true
                   received := d.received ++ bytes }, rest, k - 1, by omega, ?_, ?_⟩
  · unfold step
    rw [if_neg (by simp [hstop]), if_neg (by simp [hd]), hreads]
    simp only [hfill]
  · refine { h with
      received := ?_, ahead := ?_, part := by simp, offset := Nat.zero_le _
      reads := fun b hb => h.reads b (by simp [hreads, hb]), steps := by simp; omega }
    · rw [h.received, List.append_assoc]
      rfl
    · rw [← hahead, ← List.append_assoc]
      rfl

/-- A step, or the end. -/
theorem Inv.step (h : Inv stop ms rest k d) : (d.step stop = .ok none ∧ d.decoded = upTo stop ms) ∨
    ∃ d' rest' k', k = k' + 1 ∧ d.step stop = .ok (some d') ∧ Inv stop ms rest' k' d' := by
  cases hstop : d.stopped with
  | true =>
    have hresult := h.result
    rw [hstop, if_pos rfl, List.append_nil] at hresult
    exact .inl ⟨by rw [ReadLoop.step, if_pos hstop], hresult⟩
  | false =>
    cases hd : d.draining with
    | true => exact .inr (h.drain hstop hd)
    | false =>
      cases hreads : d.reads with
      | cons bytes reads => exact .inr (h.fill hstop hd hreads)
      | nil =>
        have hahead := h.ahead
        rw [hreads, List.flatten_nil, List.append_nil] at hahead
        have hrest : rest = [] := by
          cases rest with
          | nil => rfl
          | cons m rest =>
            obtain ⟨hpart, hne⟩ := h.part hd m rfl
            have hle := hpart.length_le
            rw [hahead, stream, List.flatMap_cons, List.length_append] at hle
            exact absurd (hpart.eq_of_length (by
              rw [hahead, stream, List.flatMap_cons, List.length_append]
              omega)) hne
        have hresult := h.result
        rw [hstop, hrest] at hresult
        simp only [Bool.false_eq_true, if_false, upTo, List.append_nil] at hresult
        refine .inl ⟨?_, hresult⟩
        unfold ReadLoop.step
        rw [if_neg (by simp [hstop]), if_neg (by simp [hd]), hreads]

/-- The invariant holds at every moment. -/
theorem Inv.after (h : Inv stop ms rest k d) (n : Nat) :
    ∃ d' rest' k', d.after stop n = .ok d' ∧ Inv stop ms rest' k' d' := by
  induction n generalizing d rest k with
  | zero => exact ⟨d, rest, k, rfl, h⟩
  | succ n ih =>
    rcases h.step with ⟨hend, -⟩ | ⟨d', rest', k', -, hstep, h'⟩
    · exact ⟨d, rest, k, by rw [ReadLoop.after, hend], h⟩
    · obtain ⟨d'', rest'', k'', hafter, h''⟩ := ih h'
      exact ⟨d'', rest'', k'', by rw [ReadLoop.after, hstep]; exact hafter, h''⟩

/-- With enough steps the loop ends. -/
theorem Inv.ends (h : Inv stop ms rest k d) {n : Nat} (hn : k ≤ n) :
    ∃ d', d.after stop n = .ok d' ∧ d'.step stop = .ok none ∧ d'.decoded = upTo stop ms := by
  induction n generalizing d rest k with
  | zero =>
    rcases h.step with ⟨hend, hresult⟩ | ⟨_, _, _, hk, -⟩
    · exact ⟨d, rfl, hend, hresult⟩
    · omega
  | succ n ih =>
    rcases h.step with ⟨hend, hresult⟩ | ⟨d', rest', k', hk, hstep, h'⟩
    · exact ⟨d, by rw [ReadLoop.after, hend], hend, hresult⟩
    · obtain ⟨d'', hafter, hend⟩ := ih h' (by omega)
      exact ⟨d'', by rw [ReadLoop.after, hstep]; exact hafter, hend⟩

theorem length_le_stream (h : ∀ m ∈ ms, Encodable m) : ms.length ≤ (stream ms).length := by
  induction ms with
  | nil => exact Nat.zero_le _
  | cons m ms ih =>
    have hm := (h m (List.mem_cons_self ..)).encoding_length
    have hms := ih fun m hm => h m (List.mem_cons_of_mem _ hm)
    rw [stream] at hms
    rw [stream, List.flatMap_cons, List.length_append, List.length_cons]
    omega

/-- The whole loop yields the messages up to the one that ends it. -/
theorem Inv.run (h : Inv stop ms rest k d) :
    ∃ d', d.run stop = .ok d' ∧ d'.step stop = .ok none ∧ d'.decoded = upTo stop ms := by
  refine h.ends ?_
  have hlen := length_le_stream h.encodable
  have hsteps := h.steps
  rw [← h.ahead, List.length_append] at hlen
  have hd : (if d.draining then 1 else 0) ≤ 1 := by split <;> omega
  unfold fuel
  omega

/-- A loop that decodes what is left over before its first read. -/
theorem inv_start (hms : ∀ m ∈ ms, Encodable m) {leftover : List UInt8} {reads : List (List UInt8)}
    (hbytes : leftover ++ reads.flatten = stream ms) (hreads : ∀ bytes ∈ reads, bytes ≠ [] ∧ bytes.length ≤ readBufSize) :
    Inv stop ms ms (ms.length + 2 * reads.length + 1)
      { reader := .withLeftover leftover, reads, draining := true, received := leftover } where
  messages := rfl
  encodable := hms
  received := rfl
  ahead := hbytes
  part := by simp
  result := rfl
  offset := Nat.zero_le _
  reads := hreads
  steps := rfl

/-- However the bytes are split, the reader yields all messages in order, and
at every moment what is left over is what is received and not decoded. -/
theorem run_chunks (hms : ∀ m ∈ ms, Encodable m) (leftover : List UInt8) (reads : List (List UInt8))
    (hbytes : leftover ++ reads.flatten = stream ms) (hreads : ∀ bytes ∈ reads, bytes ≠ [] ∧ bytes.length ≤ readBufSize) :
    let start : ReadLoop M := { reader := .withLeftover leftover, reads, draining := true, received := leftover }
    (∀ n, ∃ d, start.after (fun _ => false) n = .ok d ∧ d.decoded <+: ms ∧ d.reader.offset ≤ d.reader.readBuf.length ∧
      d.received = stream d.decoded ++ d.reader.intoLeftover ∧ d.received ++ d.reads.flatten = stream ms) ∧
    ∃ d, start.run (fun _ => false) = .ok d ∧ d.step (fun _ => false) = .ok none ∧ d.decoded = ms := by
  have hstart : Inv (fun _ => false) ms ms (ms.length + 2 * reads.length + 1)
      { reader := .withLeftover leftover, reads, draining := true, received := leftover } := inv_start hms hbytes hreads
  refine ⟨fun n => ?_, ?_⟩
  · obtain ⟨d, rest, k, hafter, h⟩ := hstart.after n
    refine ⟨d, hafter, ⟨rest, h.messages⟩, h.offset, h.received, ?_⟩
    rw [h.received, List.append_assoc, h.ahead, ← h.messages, stream, stream, stream, List.flatMap_append]
  · obtain ⟨d, hrun, hend, hdecoded⟩ := hstart.run
    exact ⟨d, hrun, hend, hdecoded.trans (upTo_false ms)⟩

theorem run_chunks_sample :
    ∃ d, run (fun _ => false) ({ reader := .withLeftover [0, 0, 0], reads := [[4, 2, 0, 0], [0, 0, 0, 0, 4, 6, 0, 0, 0]]
                                 draining := true, received := [0, 0, 0] } : ReadLoop ClientMsg) = .ok d ∧
      d.step (fun _ => false) = .ok none ∧ d.decoded = [.detach, .refreshScreen] := by
  refine (run_chunks (show ∀ m ∈ [ClientMsg.detach, .refreshScreen], Encodable m from ?_) [0, 0, 0] [[4, 2, 0, 0], [0, 0, 0, 0, 4, 6, 0, 0, 0]]
    (by decide) (by decide)).2
  rintro m hm
  simp only [List.mem_cons, List.not_mem_nil, or_false] at hm
  rcases hm with rfl | rfl
  · exact ⟨[0, 0, 0, 4, 2, 0, 0, 0], by decide⟩
  · exact ⟨[0, 0, 0, 4, 6, 0, 0, 0], by decide⟩

end ReadLoop

end Loops

end Retach
