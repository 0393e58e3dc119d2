import Retach.Lib.Codec
/-!
# The protocol (`protocol/messages.rs`, `protocol/codec.rs`)

Messages are serialized with bincode (fixed-width integers, lengths of 64 bits,
variants numbered by 32 bits, trailing bytes rejected, at most 16 MiB) and
framed by a big-endian length.
-/

open Binary

namespace Retach

/-! ## Messages -/

inductive ConnectMode where
  | createOrAttach | createOnly | attachOnly
deriving DecidableEq, Repr

inductive ClientMsg where
  | input (data : List UInt8)
  | resize (cols rows : UInt16)
  | detach
  | listSessions
  | connect (name : String) (history : UInt64) (cols rows : UInt16) (mode : ConnectMode)
  | killSession (name : String)
  | refreshScreen
deriving DecidableEq, Repr

structure SessionInfo where
  name : String
  pid : UInt32
  cols : UInt16
  rows : UInt16
deriving DecidableEq, Repr

inductive ServerMsg where
  | screenUpdate (data : List UInt8)
  | history (lines : List (List UInt8))
  | sessionList (list : List SessionInfo)
  | sessionEnded
  | error (message : String)
  | connected (name : String) (newSession : Bool)
  | sessionKilled (name : String)
  | passthrough (data : List UInt8)
deriving DecidableEq, Repr

/-! ## Serialization -/

/-- The value `f` makes of what comes next. -/
def decAs {α β : Type} [Codec β] (f : β → α) (bs : List UInt8) : Option (α × List UInt8) :=
  (dec bs).map fun p => (f p.1, p.2)

theorem decAs_enc {α β : Type} [Codec β] (f : β → α) (b : β) (rest : List UInt8) (h : (enc b).length < 2 ^ 64) :
    decAs f (enc b ++ rest) = some (f b, rest) := by
  rw [decAs, Codec.dec_enc b rest h, Option.map_some]

theorem of_decAs {α β : Type} [Codec β] {f : β → α} {a : α} {bs rest : List UInt8} (h : decAs f bs = some (a, rest)) :
    ∃ b, a = f b ∧ bs = enc b ++ rest := by
  obtain ⟨⟨b, rest'⟩, hb, heq⟩ := Option.map_eq_some_iff.1 h
  obtain ⟨rfl, rfl⟩ := Prod.mk.inj heq
  exact ⟨b, rfl, Codec.of_dec b bs rest' hb⟩

/-- A variant's number, then its fields. -/
@[reducible] def variants {α : Type} (tag : α → Nat) (fields : α → List UInt8)
    (decFields : Nat → List UInt8 → Option (α × List UInt8)) (htag : ∀ a, tag a < 2 ^ 32)
    (hdec : ∀ a rest, (fields a).length < 2 ^ 64 → decFields (tag a) (fields a ++ rest) = some (a, rest))
    (hof : ∀ n a bs rest, decFields n bs = some (a, rest) → n = tag a ∧ bs = fields a ++ rest) : Codec α where
  enc a := enc (UInt32.ofNat (tag a)) ++ fields a
  dec bs := (dec bs).bind fun (n, bs) => decFields (UInt32.toNat n) bs
  enc_ne a h := Codec.enc_ne _ (List.append_eq_nil_iff.1 h).1
  dec_enc a rest h := by
    rw [List.length_append] at h
    rw [List.append_assoc, Codec.dec_enc _ _ (by omega), Option.bind_some]
    simp only [UInt32.toNat_ofNat_of_lt' (htag a)]
    exact hdec a rest (by omega)
  of_dec a bs rest h := by
    obtain ⟨⟨n, bs'⟩, hn, h⟩ := Option.bind_eq_some_iff.1 h
    obtain ⟨htag, rfl⟩ := hof _ a bs' rest h
    rw [Codec.of_dec n bs _ hn, ← htag, UInt32.ofNat_toNat, List.append_assoc]

/-- Variants without fields are their numbers. -/
instance : Codec ConnectMode :=
  .sub
    (fun m => match m with
      | .createOrAttach => (0 : UInt32)
      | .createOnly => 1
      | .attachOnly => 2)
    (fun n =>
      if n = 0 then some .createOrAttach else if n = 1 then some .createOnly else if n = 2 then some .attachOnly
      else none)
    (fun m => by cases m <;> rfl)
    fun n m h => by
      repeat' split at h
      all_goals cases h
      all_goals exact Eq.symm ‹_›

instance : Codec ClientMsg :=
  variants
    (fun m => match m with
      | .input _ => 0
      | .resize _ _ => 1
      | .detach => 2
      | .listSessions => 3
      | .connect .. => 4
      | .killSession _ => 5
      | .refreshScreen => 6)
    (fun m => match m with
      | .input data => enc data
      | .resize cols rows => enc (cols, rows)
      | .connect name history cols rows mode => enc (name, history, cols, rows, mode)
      | .killSession name => enc name
      | .detach | .listSessions | .refreshScreen => [])
    (fun n bs => match n with
      | 0 => decAs .input bs
      | 1 => decAs (fun (cols, rows) => .resize cols rows) bs
      | 2 => some (.detach, bs)
      | 3 => some (.listSessions, bs)
      | 4 => decAs (fun (name, history, cols, rows, mode) => .connect name history cols rows mode) bs
      | 5 => decAs .killSession bs
      | 6 => some (.refreshScreen, bs)
      | _ => none)
    (fun m => by cases m <;> simp)
    (fun m rest h => by
      cases m with
      | detach | listSessions | refreshScreen => rfl
      | _ => exact decAs_enc _ _ rest h)
    fun n m bs rest h => by
      split at h
      case h_8 => cases h
      case h_3 | h_4 | h_7 =>
        cases h
        exact ⟨rfl, rfl⟩
      all_goals
        obtain ⟨b, rfl, rfl⟩ := of_decAs h
        exact ⟨rfl, rfl⟩

instance : Codec SessionInfo :=
  .sub (fun s => (s.name, s.pid, s.cols, s.rows)) (fun (name, pid, cols, rows) => some { name, pid, cols, rows })
    (fun _ => rfl) fun _ _ h => by
      cases h
      rfl

instance : Codec ServerMsg :=
  variants
    (fun m => match m with
      | .screenUpdate _ => 0
      | .history _ => 1
      | .sessionList _ => 2
      | .sessionEnded => 3
      | .error _ => 4
      | .connected .. => 5
      | .sessionKilled _ => 6
      | .passthrough _ => 7)
    (fun m => match m with
      | .screenUpdate data => enc data
      | .history lines => enc lines
      | .sessionList list => enc list
      | .sessionEnded => []
      | .error message => enc message
      | .connected name newSession => enc (name, newSession)
      | .sessionKilled name => enc name
      | .passthrough data => enc data)
    (fun n bs => match n with
      | 0 => decAs .screenUpdate bs
      | 1 => decAs .history bs
      | 2 => decAs .sessionList bs
      | 3 => some (.sessionEnded, bs)
      | 4 => decAs .error bs
      | 5 => decAs (fun (name, newSession) => .connected name newSession) bs
      | 6 => decAs .sessionKilled bs
      | 7 => decAs .passthrough bs
      | _ => none)
    (fun m => by cases m <;> simp)
    (fun m rest h => by
      cases m with
      | sessionEnded => rfl
      | _ => exact decAs_enc _ _ rest h)
    fun n m bs rest h => by
      split at h
      case h_9 => cases h
      case h_4 =>
        cases h
        exact ⟨rfl, rfl⟩
      all_goals
        obtain ⟨b, rfl, rfl⟩ := of_decAs h
        exact ⟨rfl, rfl⟩

/-! ## Frames -/

namespace Protocol

inductive ProtocolError where
  | frameTooLarge (size max : Nat)
  | encodeTooLarge (size : Nat)
  | /-- an error of bincode, also for its size limit -/ deserialize
deriving DecidableEq, Repr

def maxFrameSize : Nat := 16 * 1024 * 1024

def readBufSize : Nat := 65536

/-- `u32::to_be_bytes`. -/
def beBytes (n : Nat) : List UInt8 := (leBytes 4 n).reverse

/-- `u32::from_be_bytes`. -/
def beValue (bs : List UInt8) : Nat := leValue bs.reverse

section Message

variable {M : Type} [Codec M]

/-- `bincode_config().serialize`. -/
def serialize (msg : M) : Except ProtocolError (List UInt8) :=
  if (enc msg).length ≤ maxFrameSize then .ok (enc msg) else .error .deserialize

def encode (msg : M) : Except ProtocolError (List UInt8) := do
  let data ← serialize msg
  if data.length < 2 ^ 32 then return beBytes data.length ++ data
  else throw (.encodeTooLarge data.length)

/-- Trailing bytes are rejected, as are messages over the limit. -/
def decode (data : List UInt8) : Except ProtocolError M :=
  match (dec data : Option (M × List UInt8)) with
  | some (msg, []) => if data.length ≤ maxFrameSize then .ok msg else .error .deserialize
  | _ => .error .deserialize

end Message

/-- The payload of the first frame, and how many bytes the frame takes. -/
def decodeFrame (buf : List UInt8) : Except ProtocolError (Option (List UInt8 × Nat)) :=
  if buf.length < 4 then .ok none
  else
    let len := beValue (buf.take 4)
    if len > maxFrameSize then .error (.frameTooLarge len maxFrameSize)
    else if buf.length < 4 + len then .ok none
    else .ok (some ((buf.drop 4).take len, 4 + len))

/-! ## Round trip -/

/-- The bytes of a frame. -/
def frame (payload : List UInt8) : List UInt8 := beBytes payload.length ++ payload

theorem beBytes_length (n : Nat) : (beBytes n).length = 4 := by rw [beBytes, List.length_reverse, leBytes_length]

theorem frame_length (payload : List UInt8) : (frame payload).length = 4 + payload.length := by
  rw [frame, List.length_append, beBytes_length]

theorem beValue_beBytes {n : Nat} (h : n < 2 ^ 32) : beValue (beBytes n) = n := by
  rw [beValue, beBytes, List.reverse_reverse, leValue_leBytes]
  exact Nat.mod_eq_of_lt (by omega)

/-- The length is known once four bytes are there. -/
theorem beValue_take {payload p : List UInt8} (hsize : payload.length ≤ maxFrameSize) (hp : p <+: frame payload)
    (hlen : 4 ≤ p.length) : beValue (p.take 4) = payload.length := by
  obtain ⟨rest, hrest⟩ := hp
  have htake : p.take 4 = beBytes payload.length := by
    rw [← (List.take_append_of_le_length hlen : (p ++ rest).take 4 = p.take 4), hrest, frame, List.take_left' (beBytes_length _)]
  rw [htake, beValue_beBytes (by unfold maxFrameSize at hsize; omega)]

theorem decodeFrame_append {payload : List UInt8} (hsize : payload.length ≤ maxFrameSize) (rest : List UInt8) :
    decodeFrame (frame payload ++ rest) = .ok (some (payload, (frame payload).length)) := by
  have hlen := frame_length payload
  have hvalue : beValue ((frame payload ++ rest).take 4) = payload.length := by
    rw [List.take_append_of_le_length (by omega)]
    rw [frame, List.take_left' (beBytes_length _), beValue_beBytes (by unfold maxFrameSize at hsize; omega)]
  have hpayload : ((frame payload ++ rest).drop 4).take payload.length = payload := by
    rw [frame, List.append_assoc, List.drop_left' (beBytes_length _), List.take_left' rfl]
  unfold decodeFrame
  rw [if_neg (by rw [List.length_append]; omega)]
  simp only [hvalue]
  rw [if_neg (by omega), if_neg (by rw [List.length_append]; omega), hpayload, hlen]

/-- Part of a frame is not yet a frame. -/
theorem decodeFrame_prefix {payload p : List UInt8} (hsize : payload.length ≤ maxFrameSize) (hp : p <+: frame payload)
    (hne : p ≠ frame payload) : decodeFrame p = .ok none := by
  have hlt : p.length < 4 + payload.length := by
    rw [← frame_length]
    exact Nat.lt_of_le_of_ne hp.length_le fun h => hne (hp.eq_of_length h)
  unfold decodeFrame
  by_cases hlen : p.length < 4
  · rw [if_pos hlen]
  · rw [if_neg hlen]
    simp only [beValue_take hsize hp (by omega)]
    rw [if_neg (by omega), if_pos hlt]

section Message

variable {M : Type} [Codec M] {msg : M} {bytes : List UInt8}

/-- The size limit is all that `encode` checks. -/
theorem encode_ok (h : encode msg = .ok bytes) : bytes = frame (enc msg) ∧ (enc msg).length ≤ maxFrameSize := by
  unfold encode serialize at h
  by_cases hsize : (enc msg).length ≤ maxFrameSize
  · rw [if_pos hsize] at h
    simp only [bind, Except.bind, if_pos (show (enc msg).length < 2 ^ 32 by unfold maxFrameSize at hsize; omega)] at h
    exact ⟨(Except.ok.inj h).symm, hsize⟩
  · rw [if_neg hsize] at h
    cases h

theorem encode_of_le (h : (enc msg).length ≤ maxFrameSize) : encode msg = .ok (frame (enc msg)) := by
  unfold encode serialize
  rw [if_pos h]
  simp only [bind, Except.bind, if_pos (show (enc msg).length < 2 ^ 32 by unfold maxFrameSize at h; omega)]
  rfl

theorem decode_enc (h : (enc msg).length ≤ maxFrameSize) : decode (enc msg) = .ok msg := by
  have hdec := Codec.dec_enc msg [] (by unfold maxFrameSize at h; omega)
  rw [List.append_nil] at hdec
  unfold decode
  rw [hdec]
  exact if_pos h

/-- What decodes is what is encoded. -/
theorem enc_of_decode {data : List UInt8} (h : decode data = .ok msg) : data = enc msg := by
  unfold decode at h
  split at h
  next m hdec =>
    split at h
    · obtain rfl := Except.ok.inj h
      rw [Codec.of_dec m data [] hdec, List.append_nil]
    · cases h
  next => cases h

/-- One message through `encode`, `decode_frame` and `decode`. -/
structure RoundTrips (msg : M) (bytes : List UInt8) : Prop where
  whole : ∀ rest, ∃ payload, decodeFrame (bytes ++ rest) = .ok (some (payload, bytes.length)) ∧
    decode payload = .ok msg ∧ payload.length ≤ maxFrameSize
  part : ∀ p, p <+: bytes → p ≠ bytes → decodeFrame p = .ok none

theorem encode_roundTrips (h : encode msg = .ok bytes) : RoundTrips msg bytes := by
  obtain ⟨rfl, hsize⟩ := encode_ok h
  exact ⟨fun rest => ⟨enc msg, decodeFrame_append hsize rest, decode_enc hsize, hsize⟩,
    fun _ => decodeFrame_prefix hsize⟩

end Message

/-- Every message of the protocol that `encode` accepts is read back. -/
theorem round_trip :
    (∀ (m : ClientMsg) (bytes : List UInt8), encode m = .ok bytes → RoundTrips m bytes) ∧
      ∀ (m : ServerMsg) (bytes : List UInt8), encode m = .ok bytes → RoundTrips m bytes :=
  ⟨fun _ _ => encode_roundTrips, fun _ _ => encode_roundTrips⟩

theorem round_trip_sample :
    RoundTrips (ClientMsg.resize 80 24) [0, 0, 0, 8, 1, 0, 0, 0, 80, 0, 24, 0] ∧
      RoundTrips (ServerMsg.history [[104, 105]]) ([0, 0, 0, 22, 1, 0, 0, 0, 1] ++ List.replicate 7 0 ++ [2] ++
        List.replicate 7 0 ++ [104, 105]) :=
  ⟨round_trip.1 _ _ (by decide), round_trip.2 _ _ (by decide)⟩

end Protocol

end Retach
