import Retach.Frames
/-!
# Serving a client (`server/client_handler.rs`, `client_to_pty` in `server/session_relay.rs`)

`handle_client` reads until the first message is there, and hands what it has
read beyond it to the relay of the session. The relay reads before it decodes,
so what was handed over is looked at only after another read. The 30 seconds
that a client has for its first message are not modelled, nor is setting up the
session.
-/

open Binary

namespace Retach

open Protocol

/-! ## Session names -/

def maxSessionNameLen : Nat := 128

/-- `[a-zA-Z0-9_-.]`. -/
def nameChar (ch : Char) : Bool := ch.isAlphanum || ch = '_' || ch = '-' || ch = '.'

/-- `validate_session_name`: the text of the error, if there is one. -/
def validateSessionName (name : String) : Option String :=
  if name.toList = [] then some "session name cannot be empty"
  else if name.utf8ByteSize > maxSessionNameLen then some "session name too long (max 128 bytes)"
  else (name.toList.find? fun ch => !nameChar ch).map fun ch =>
    "invalid character '" ++ ch.toString ++ "' in session name (allowed: a-zA-Z0-9_-.)"

/-! ## The first message -/

structure ConnectRequest where
  name : String
  history : UInt64
  cols : UInt16
  rows : UInt16
  leftover : List UInt8
  mode : ConnectMode
deriving DecidableEq, Repr

/-- How `handle_client` ends. -/
inductive Handled where
  | closed
  | /-- `handle_session`, with the reads that are left -/ session (req : ConnectRequest) (reads : List (List UInt8))
  | list
  | kill (name : String)
  | /-- answered by an error -/ refused (message : String)
deriving DecidableEq, Repr

def handleMessage (r : FrameReader) (reads : List (List UInt8)) : ClientMsg → Handled
  | .connect name history cols rows mode =>
    match validateSessionName name with
    | some e => .refused e
    | none => .session { name, history, cols, rows, leftover := r.intoLeftover, mode } reads
  | .listSessions => .list
  | .killSession name =>
    match validateSessionName name with
    | some e => .refused e
    | none => .kill name
  | _ => .refused "expected Connect, ListSessions, or KillSession"

/-- The loop of `handle_client` on the reads up to the end of file. -/
def handleClient (r : FrameReader) : List (List UInt8) → Except ProtocolError Handled
  | [] => .ok .closed
  | bytes :: reads =>
    match r.fillFrom bytes with
    | .error e => .error e
    | .ok (_, r) =>
      match r.decodeNext ClientMsg with
      | .error e => .error e
      | .ok (some msg, r) => .ok (handleMessage r reads msg)
      | .ok (none, r) => handleClient r reads

/-! ## The relay -/

def ClientMsg.isDetach : ClientMsg → Bool
  | .detach => true
  | _ => false

/-- `client_to_pty`: the messages it dispatches until Detach, the end of file or
an error, and the error. -/
def clientToPty (leftover : List UInt8) (reads : List (List UInt8)) : List ClientMsg × Option ProtocolError :=
  let start : ReadLoop ClientMsg := { reader := .withLeftover leftover, reads, draining := false, received := leftover }
  let ended := start.finish ClientMsg.isDetach start.fuel
  (ended.1.decoded, ended.2)

/-- What the relay of a connection dispatches, and the error the connection ends
with, if there is one. -/
def serve (reads : List (List UInt8)) : List ClientMsg × Option ProtocolError :=
  match handleClient {} reads with
  | .error e => ([], some e)
  | .ok (.session req reads) => clientToPty req.leftover reads
  | .ok _ => ([], none)

/-- Messages that end the client's relay. -/
def ServerMsg.isDone : ServerMsg → Bool
  | .sessionEnded | .error _ => true
  | _ => false

section Relays

variable {leftover : List UInt8} {reads : List (List UInt8)}

/-- Without another read the relay dispatches nothing. -/
theorem clientToPty_nil : clientToPty leftover [] = ([], none) := by
  unfold clientToPty ReadLoop.fuel
  dsimp only
  rw [ReadLoop.finish]
  rfl

/-- With one it dispatches everything up to Detach. -/
theorem clientToPty_cons {ms : List ClientMsg} (hms : ∀ m ∈ ms, Encodable m) {bytes : List UInt8}
    (hleft : leftover.length ≤ readBufSize) (hbytes : leftover ++ (bytes :: reads).flatten = stream ms)
    (hreads : ∀ b ∈ bytes :: reads, b ≠ [] ∧ b.length ≤ readBufSize) :
    clientToPty leftover (bytes :: reads) = (upTo ClientMsg.isDetach ms, none) := by
  obtain ⟨hne, hlen⟩ := hreads bytes (List.mem_cons_self ..)
  have hfill := FrameReader.fillFrom_eq (r := .withLeftover leftover) hne (by
    change leftover.length + bytes.length ≤ _
    unfold readBufSize at hleft hlen
    unfold maxFrameSize
    omega)
  have hstart : ReadLoop.Inv ClientMsg.isDetach ms ms (ms.length + 2 * reads.length + 1)
      { reader := .withLeftover (leftover ++ bytes), reads, draining := true, received := leftover ++ bytes } :=
    ReadLoop.inv_start hms (by simpa using hbytes) fun b hb => hreads b (List.mem_cons_of_mem _ hb)
  have hms' := ReadLoop.length_le_stream hms
  rw [← hbytes, List.length_append] at hms'
  obtain ⟨d, hafter, -, hdecoded⟩ := hstart.ends (n := leftover.length + (bytes :: reads).flatten.length +
    2 * (bytes :: reads).length) (by
      rw [List.length_cons]
      omega)
  have hfinish := ReadLoop.finish_of_after hafter
  unfold clientToPty ReadLoop.fuel
  dsimp only
  rw [ReadLoop.finish]
  simp only [ReadLoop.step, Bool.false_eq_true, if_false, hfill]
  have hleftover : (FrameReader.withLeftover leftover).intoLeftover = leftover := rfl
  simp only [FrameReader.withLeftover] at hfinish hleftover ⊢
  rw [hleftover, hfinish]
  exact congrArg (·, none) hdecoded

end Relays

/-! ## A whole connection -/

section Connections

variable {name : String} {history : UInt64} {cols rows : UInt16} {mode : ConnectMode}

/-- The first message ends in one of the reads; the part of that read beyond it
is handed over. -/
theorem handleClient_eq (hname : validateSessionName name = none)
    (hconnect : Encodable (ClientMsg.connect name history cols rows mode)) {tail : List UInt8}
    {reads : List (List UInt8)} (hreads : ∀ b ∈ reads, b ≠ [] ∧ b.length ≤ readBufSize) {p : List UInt8}
    (hp : p.length < (encoding (ClientMsg.connect name history cols rows mode)).length)
    (hbytes : p ++ reads.flatten = encoding (ClientMsg.connect name history cols rows mode) ++ tail) :
    ∃ pre bytes post leftover, reads = pre ++ bytes :: post ∧
      handleClient { readBuf := p } reads = .ok (.session { name, history, cols, rows, leftover, mode } post) ∧
      leftover ++ post.flatten = tail ∧ leftover.length ≤ bytes.length ∧
      (p ++ pre.flatten).length < (encoding (ClientMsg.connect name history cols rows mode)).length ∧
      (encoding (ClientMsg.connect name history cols rows mode)).length ≤ (p ++ pre.flatten ++ bytes).length := by
  have hsize := hconnect.encoding_length
  have henc := hconnect.encode_eq
  generalize encoding (ClientMsg.connect name history cols rows mode) = whole at *
  induction reads generalizing p with
  | nil =>
    have hlen := congrArg List.length hbytes
    simp only [List.flatten_nil, List.append_nil, List.length_append] at hlen
    omega
  | cons bytes reads ih =>
    obtain ⟨hne, hlen⟩ := hreads bytes (List.mem_cons_self ..)
    have hfill : FrameReader.fillFrom { readBuf := p } bytes = .ok (true, { readBuf := p ++ bytes }) :=
      FrameReader.fillFrom_eq hne (by
        change p.length + bytes.length ≤ _
        unfold readBufSize at hlen
        unfold maxFrameSize at *
        omega)
    have hread : (p ++ bytes) ++ reads.flatten = whole ++ tail := by rw [← hbytes, List.flatten_cons, List.append_assoc]
    have hleft : (FrameReader.intoLeftover { readBuf := p ++ bytes }) = p ++ bytes := rfl
    rcases Nat.lt_or_ge (p ++ bytes).length whole.length with hlt | hge
    · have hpart : p ++ bytes <+: whole :=
        List.prefix_of_prefix_length_le ⟨_, hread⟩ (List.prefix_append _ _) (by omega)
      have hnext := FrameReader.decodeNext_part (r := { readBuf := p ++ bytes }) henc (by rwa [hleft])
        (by rw [hleft]; exact fun heq => by rw [heq] at hlt; omega)
      obtain ⟨pre, b, post, leftover, rfl, hhandle, htail, hover, hlt', hge'⟩ :=
        ih (fun b hb => hreads b (List.mem_cons_of_mem _ hb)) hlt hread
      refine ⟨bytes :: pre, b, post, leftover, rfl, ?_, htail, hover, by simpa using hlt', by simpa using hge'⟩
      unfold handleClient
      rw [hfill]
      simp only [hnext]
      exact hhandle
    · obtain ⟨rest, hrest⟩ : whole <+: p ++ bytes :=
        List.prefix_of_prefix_length_le (show whole <+: p ++ bytes ++ reads.flatten from ⟨_, hread.symm⟩)
          (List.prefix_append _ _) hge
      obtain ⟨r', hnext, hleft', -⟩ := FrameReader.decodeNext_frame (r := { readBuf := p ++ bytes }) henc
        (by rw [hleft, hrest]) (Nat.zero_le _)
      refine ⟨[], bytes, reads, rest, rfl, ?_, ?_, ?_, by simpa using hp, by simpa using hge⟩
      · unfold handleClient
        rw [hfill]
        simp only [hnext, handleMessage, hname, hleft']
      · rw [← hrest, List.append_assoc] at hread
        exact List.append_cancel_left hread
      · have hcount := congrArg List.length hrest
        simp only [List.length_append] at hcount
        omega

theorem upTo_ne_nil {M : Type} (stop : M → Bool) {ms : List M} (h : ms ≠ []) : upTo stop ms ≠ [] := by
  cases ms with
  | nil => exact absurd rfl h
  | cons m ms =>
    rw [upTo]
    split <;> simp

/-- The relay dispatches every message up to Detach exactly if there is none,
or the Connect message is complete before the last read. -/
theorem serve_iff (hname : validateSessionName name = none)
    (hconnect : Encodable (ClientMsg.connect name history cols rows mode)) {ms : List ClientMsg}
    (hms : ∀ m ∈ ms, Encodable m) {reads : List (List UInt8)}
    (hreads : ∀ bytes ∈ reads, bytes ≠ [] ∧ bytes.length ≤ readBufSize)
    (hbytes : reads.flatten = stream (.connect name history cols rows mode :: ms)) :
    serve reads = (upTo ClientMsg.isDetach ms, none) ↔
      ms = [] ∨ (encoding (ClientMsg.connect name history cols rows mode)).length ≤ reads.dropLast.flatten.length := by
  have hsize := hconnect.encoding_length
  rw [stream, List.flatMap_cons] at hbytes
  obtain ⟨pre, bytes, post, leftover, rfl, hhandle, htail, hover, hlt, hge⟩ :=
    handleClient_eq hname hconnect hreads (p := []) (by simp; omega) hbytes
  simp only [List.nil_append] at hlt hge
  have hserve : serve (pre ++ bytes :: post) = clientToPty leftover post := by
    unfold serve
    rw [hhandle]
  rw [hserve]
  have hlen := (hreads bytes (by simp)).2
  cases post with
  | nil =>
    have hdrop : (pre ++ [bytes]).dropLast = pre := List.dropLast_concat
    rw [clientToPty_nil, hdrop]
    constructor
    · intro hnone
      refine .inl (Decidable.not_not.1 fun hne => ?_)
      exact upTo_ne_nil ClientMsg.isDetach hne (congrArg Prod.fst hnone).symm
    · rintro (rfl | hle)
      · rfl
      · omega
  | cons b post =>
    rw [clientToPty_cons hms (by omega) htail fun c hc => hreads c (by simp only [List.mem_append, List.mem_cons] at hc ⊢; exact .inr (.inr hc))]
    refine ⟨fun _ => .inr ?_, fun _ => rfl⟩
    have hdrop : (pre ++ bytes :: b :: post).dropLast = pre ++ bytes :: (b :: post).dropLast := by
      rw [List.dropLast_append_of_ne_nil (by simp), List.dropLast_cons_of_ne_nil (by simp)]
    rw [hdrop]
    simp only [List.flatten_append, List.flatten_cons, List.length_append] at hge ⊢
    omega

theorem serve_iff_sample : ∃ connect detach, encode (ClientMsg.connect "a" 0 80 24 .attachOnly) = .ok connect ∧
    encode ClientMsg.detach = .ok detach ∧ serve [connect, detach] = ([.detach], none) := by
  have hone : ∀ m ∈ [ClientMsg.detach], Encodable m := by
    simp only [List.mem_singleton, forall_eq]
    exact ⟨[0, 0, 0, 4, 2, 0, 0, 0], by decide⟩
  have hconnect : Encodable (ClientMsg.connect "a" 0 80 24 .attachOnly) := ⟨_, rfl⟩
  exact ⟨_, _, rfl, rfl, (serve_iff (by decide) hconnect hone (by decide) rfl).2 (.inr (by decide))⟩

/-- Connect and a key in one read, then the end of file: the key is lost. -/
theorem serve_loses : ∃ connect key, encode (ClientMsg.connect "a" 0 80 24 .attachOnly) = .ok connect ∧
    encode (ClientMsg.input [97]) = .ok key ∧ serve [connect ++ key] = ([], none) ∧
      serve [connect ++ key] ≠ (upTo ClientMsg.isDetach [.input [97]], none) :=
  ⟨_, _, rfl, rfl, by decide, by decide⟩

end Connections

end Retach
