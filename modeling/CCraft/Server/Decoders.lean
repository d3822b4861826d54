import CCraft.Lib.ReadTrace
import CCraft.Net.Opening
import CCraft.Raft.Election

/-!
# Payloads that are too short

A frame has a payload of at least one byte, and the peer chooses its length.  The RPC server,
the synchronous client, the consensus module and the handshake read fixed fields of two or four
bytes at the beginning of the payload.  Only the server's half of the handshake compares the
length first.  The others read on behind the payload, where the pool has left what was there
before, and act on it.

Each of the readers is given as a program that reads memory, and the programs are those of the
models of the four components.

Main results:

- Theorems {lit}`procRequestProg_run`, {lit}`recvMessageProg_run`,
  {lit}`isValidMsgIdProg_run` and {lit}`handshake_eq_of_run`: the programs compute what the
  components compute.
- Theorem {lit}`decoders_stay_inside_iff`: a reader stays inside a payload exactly when the
  payload is long enough for its fixed fields, or the reader compares the length first.
- Theorem {lit}`decodes_payload_only`: then its outcome depends on the payload only.
-/

namespace CCraft

open Common Net Rpc

namespace Server

/-! ## The readers -/

section Readers

variable {R : Type}

/-- `RpcServer::proc_msg` for a message with content. -/
def procRequestProg (s : RpcServer R) (rm : RcvMessage) : ReadProg (Processed R) :=
  match rm.buffer.pos with
  | none => .done ⟨s, [], some .noPosition⟩
  | some p => .read p 2 fun bytes =>
    let handlerId := loadBytes 2 bytes
    let reqBuf := rm.buffer.moveHeadBack 2
    match s.handlerFor handlerId with
    | (none, s) => .done (s.sendError .errorNoHandler handlerId)
    | (some handler, s) =>
      match handler.createMessage with
      | none => .done (s.sendError .errorInternal handlerId)
      | some pb => .read (reqBuf.pos.getD 0) reqBuf.availableLength.toNat fun body =>
        match pb.parseFromArray body with
        | none => .done (s.sendError .errorMsg handlerId)
        | some request => .done (s.sendResult (handler.handle request) handlerId rm)

/-- What `recvMessage` throws for the code of a response. -/
inductive ReplyError where
  | badRpcHandlerId (code handlerId : Nat)
  | rpcMessageCorrupt (handlerId : Nat)
  | rpcServerInternal
deriving DecidableEq, Repr

/-- The end of `recvMessage`: an exception for three of the codes, the message for all others. -/
def replyResult (serverCode handlerId : Nat) (buffer : Buffer) : Except ReplyError Buffer :=
  if serverCode = RpcCode.errorNoHandler.toNat then .error (.badRpcHandlerId serverCode handlerId)
  else if serverCode = RpcCode.errorMsg.toNat then .error (.rpcMessageCorrupt handlerId)
  else if serverCode = RpcCode.errorInternal.toNat then .error .rpcServerInternal
  else .ok buffer

/-- `ARpcSyncClient::recvMessage` behind its wait; {lit}`none` for a buffer without a position. -/
def recvMessageProg (rm : RcvMessage) : ReadProg (Option (Except ReplyError Buffer)) :=
  match rm.buffer.pos with
  | none => .done none
  | some p => .read p 2 fun codeBytes =>
    let buffer := rm.buffer.moveHeadBack 2
    .read (buffer.pos.getD 0) 2 fun idBytes =>
      .done (some (replyResult (loadBytes 2 codeBytes) (loadBytes 2 idBytes) buffer))

/-- `RaftConsensus::is_valid_msg_id`. -/
def isValidMsgIdProg (nrt : Raft.NodeRoleType) (sentMsgsId : Finset Nat) (rm : RcvMessage) :
    ReadProg (Option (Bool × Buffer)) :=
  match rm.buffer.pos with
  | none => .done none
  | some p => .read p 2 fun codeBytes =>
    if RpcCode.ok.toNat ≠ loadBytes 2 codeBytes then .done (some (false, rm.buffer))
    else
      match nrt with
      | .leader | .candidate =>
        .done (some (decide (rm.header.id ∈ sentMsgsId), rm.buffer.moveHeadBack 2))
      | .follower => .done (some (false, rm.buffer.moveHeadBack 2))

/-- What the handshake makes of a payload. -/
inductive HandshakeInput where
  | noPosition
  | refused (what : List UInt8)
  | accepted
  | acknowledged (ok : Bool)
  | corrupt
  | port (port : Nat)
  | notRead
deriving DecidableEq, Repr

/-- Everything but a payload that takes the handshake further. -/
def HandshakeInput.isError : HandshakeInput → Bool
  | .accepted => false
  | .acknowledged ok => !ok
  | .port _ => false
  | .notRead => false
  | _ => true

/-- The payload reads of `handshake`; the client copies the text of a refusal for its log. -/
def handshakeProg (c : ConnectionState) (b : Buffer) : ReadProg HandshakeInput :=
  match c with
  | .connectSe =>
    match b.pos with
    | none => .done .noPosition
    | some p => .read p 2 fun bytes =>
      if loadBytes 2 bytes ≠ Status.toNat .ok then
        let buffer := b.moveHeadBack 2
        .read (buffer.pos.getD 0) (sizeT buffer.availableLength) fun what =>
          .done (.refused what)
      else .done .accepted
  | .waitLastACK =>
    match b.pos with
    | none => .done .noPosition
    | some p => .read p 2 fun bytes =>
      .done (.acknowledged (decide (loadBytes 2 bytes = Status.toNat .ok)))
  | .connecting =>
    if b.availableLength ≠ 2 then .done .corrupt
    else
      match b.pos with
      | none => .done .noPosition
      | some p => .read p 2 fun bytes => .done (.port (loadBytes 2 bytes))
  | .connectingRe => .done .notRead
  | .connected => .done .notRead

/-! ## The readers and the components -/

theorem bytes_eq_read {b : Buffer} (h : b.pos.isSome = true) :
    b.bytes = Memory.read b.mem (b.pos.getD 0) b.availableLength.toNat := by
  obtain ⟨p, hp⟩ := Option.isSome_iff_exists.1 h
  rw [Buffer.bytes, hp]
  rfl

theorem moveHeadBack_mem (b : Buffer) (n : Nat) : (b.moveHeadBack n).mem = b.mem := by
  unfold Buffer.moveHeadBack
  split <;> rfl

theorem moveHeadBack_pos_isSome {b : Buffer} (h : b.pos.isSome = true) (n : Nat) :
    (b.moveHeadBack n).pos.isSome = true := by
  unfold Buffer.moveHeadBack
  split
  · rfl
  · exact h

/-- The server computes the result of its program. -/
theorem procRequestProg_run (s : RpcServer R) (rm : RcvMessage) :
    (procRequestProg s rm).run rm.buffer.mem = s.procRequest rm := by
  cases hpos : rm.buffer.pos with
  | none => simp only [procRequestProg, RpcServer.procRequest, parseRequest, takeUInt16, hpos,
      Option.map_none, ReadProg.run]
  | some p =>
    have hbody : ∀ {M : Type} (pb : PbType M), deserialize pb (rm.buffer.moveHeadBack 2) =
        pb.parseFromArray (Memory.read rm.buffer.mem ((rm.buffer.moveHeadBack 2).pos.getD 0)
          (rm.buffer.moveHeadBack 2).availableLength.toNat) := by
      intro M pb
      have hsome : rm.buffer.pos.isSome = true := by rw [hpos]; rfl
      rw [deserialize, bytes_eq_read (moveHeadBack_pos_isSome hsome 2), moveHeadBack_mem]
    simp only [procRequestProg, RpcServer.procRequest, parseRequest, takeUInt16, hpos,
      Option.map_some, ReadProg.run, readUInt]
    rcases s.handlerFor (loadBytes 2 (Memory.read rm.buffer.mem p 2)) with ⟨handler | handler, s'⟩
    · rfl
    · simp only
      cases handler.createMessage with
      | none => rfl
      | some pb =>
        simp only [ReadProg.run, hbody]
        cases pb.parseFromArray (Memory.read rm.buffer.mem
            ((rm.buffer.moveHeadBack 2).pos.getD 0)
            (rm.buffer.moveHeadBack 2).availableLength.toNat) with
        | none => rfl
        | some request => rfl

/-- The client decides by the two integers of the response. -/
theorem recvMessageProg_run (rm : RcvMessage) :
    (recvMessageProg rm).run rm.buffer.mem =
      (parseResponse rm.buffer).map fun x => replyResult x.1 x.2.1 (rm.buffer.moveHeadBack 2) := by
  cases hpos : rm.buffer.pos with
  | none => simp only [recvMessageProg, parseResponse, takeUInt16, hpos, Option.map_none,
      Option.bind_none, ReadProg.run]
  | some p =>
    have hsome : rm.buffer.pos.isSome = true := by rw [hpos]; rfl
    obtain ⟨q, hq⟩ := Option.isSome_iff_exists.1 (moveHeadBack_pos_isSome hsome 2)
    simp only [recvMessageProg, parseResponse, takeUInt16, hpos, hq, Option.map_some,
      Option.bind_some, ReadProg.run, moveHeadBack_mem, readUInt, Option.getD_some]

/-- The consensus module computes the result of its program. -/
theorem isValidMsgIdProg_run (nrt : Raft.NodeRoleType) (sentMsgsId : Finset Nat)
    (rm : RcvMessage) :
    (isValidMsgIdProg nrt sentMsgsId rm).run rm.buffer.mem =
      Raft.isValidMsgId nrt sentMsgsId rm := by
  cases hpos : rm.buffer.pos with
  | none => simp only [isValidMsgIdProg, Raft.isValidMsgId, hpos, Option.map_none, ReadProg.run]
  | some p =>
    simp only [isValidMsgIdProg, Raft.isValidMsgId, hpos, Option.map_some, ReadProg.run]
    by_cases hcode : RpcCode.ok.toNat ≠ readUInt 2 rm.buffer.mem p
    · have hread : RpcCode.ok.toNat ≠ loadBytes 2 (Memory.read rm.buffer.mem p 2) := hcode
      rw [if_pos hcode, if_pos hread]
      rfl
    · have hread : ¬ RpcCode.ok.toNat ≠ loadBytes 2 (Memory.read rm.buffer.mem p 2) := hcode
      rw [if_neg hcode, if_neg hread]
      cases nrt <;> rfl

/-- A buffer over another memory moves its head in the same way. -/
theorem moveHeadBack_over (b : Buffer) (m : Mem) (n : Nat) :
    ({ b with mem := m } : Buffer).moveHeadBack n = { b.moveHeadBack n with mem := m } := by
  obtain ⟨pos, last, start, endPtr, mpObject, available, mem⟩ := b
  cases pos <;> cases last <;> rfl

theorem availableLength_over (b : Buffer) (m : Mem) :
    ({ b with mem := m } : Buffer).availableLength = b.availableLength :=
  rfl

/-- What the release of a message gives back to the pool does not depend on memory. -/
theorem release_over (o : Opening) (rm : RcvMessage) (b : Buffer) (m : Mem) :
    o.release { rm with buffer := { b with mem := m } } = o.release { rm with buffer := b } :=
  rfl

/-- The client goes on exactly when it reads that the server accepts. -/
theorem connectSe_isError {b : Buffer} {p : Nat} (hp : b.pos = some p) (m : Mem) :
    ((handshakeProg .connectSe b).run m).isError = true ↔
      LittleEndianCodecUtils.readUInt16 m p ≠ Status.toNat .ok := by
  simp only [handshakeProg, hp, ReadProg.run]
  by_cases hstatus : loadBytes 2 (Memory.read m p 2) ≠ Status.toNat .ok
  · rw [if_pos hstatus]
    exact iff_of_true rfl hstatus
  · rw [if_neg hstatus]
    exact iff_of_false Bool.false_ne_true hstatus

/-- The handshake depends on memory only through the result of its program. -/
theorem handshake_eq_of_run (E : OpeningEnv) (recv : Opening → Except Halt (Bool × Opening))
    (rm : RcvMessage) (o : Opening) (m : Mem)
    (h : (handshakeProg o.worker.connState rm.buffer).run m =
      (handshakeProg o.worker.connState rm.buffer).run rm.buffer.mem) :
    o.handshake E recv { rm with buffer := { rm.buffer with mem := m } } =
      o.handshake E recv rm := by
  cases hstate : o.worker.connState with
  | connectSe =>
    rw [hstate] at h
    simp only [Opening.handshake, hstate, moveHeadBack_over, availableLength_over, release_over]
    cases hpos : rm.buffer.pos with
    | none => simp only [deref, Option.elim_none, Fallible.error_bind]
    | some p =>
      -- the copied text goes to the log, so the status is all that counts
      have hstatus := connectSe_isError hpos m
      rw [h, connectSe_isError hpos] at hstatus
      simp only [deref, Option.elim_some, Fallible.ok_bind]
      by_cases hm : LittleEndianCodecUtils.readUInt16 m p ≠ Status.toNat .ok
      · rw [if_pos hm, if_pos (hstatus.2 hm)]
      · rw [if_neg hm, if_neg (mt hstatus.1 hm)]
  | waitLastACK =>
    rw [hstate] at h
    simp only [Opening.handshake, hstate, release_over]
    cases hpos : rm.buffer.pos with
    | none => simp only [deref, Option.elim_none, Fallible.error_bind]
    | some p =>
      simp only [handshakeProg, hpos, ReadProg.run, HandshakeInput.acknowledged.injEq,
        decide_eq_decide] at h
      have hstatus : LittleEndianCodecUtils.readUInt16 m p = Status.toNat .ok ↔
          LittleEndianCodecUtils.readUInt16 rm.buffer.mem p = Status.toNat .ok := h
      simp only [deref, Option.elim_some, Fallible.ok_bind, hstatus]
  | connecting =>
    rw [hstate] at h
    simp only [Opening.handshake, hstate, release_over]
    have hsame := availableLength_over rm.buffer m
    by_cases hlength : rm.buffer.availableLength ≠ 2
    · have hother : ({ rm.buffer with mem := m } : Buffer).availableLength ≠ 2 := by
        rw [hsame]
        exact hlength
      rw [if_pos hother, if_pos hlength]
    · have hother : ¬ ({ rm.buffer with mem := m } : Buffer).availableLength ≠ 2 := by
        rw [hsame]
        exact hlength
      rw [if_neg hother, if_neg hlength]
      cases hpos : rm.buffer.pos with
      | none => simp only [deref, Option.elim_none, Fallible.error_bind]
      | some p =>
        rw [handshakeProg, if_neg hlength, hpos] at h
        simp only [ReadProg.run, HandshakeInput.port.injEq] at h
        have hport : LittleEndianCodecUtils.readUInt16 m p =
            LittleEndianCodecUtils.readUInt16 rm.buffer.mem p := h
        simp only [deref, Option.elim_some, Fallible.ok_bind, hport]
  | connectingRe | connected => simp only [Opening.handshake, hstate, release_over]

end Readers

/-! ## Payloads -/

section Payloads

variable {R : Type} {rm : RcvMessage} {payload : List UInt8} {p : Nat}

/-- The readers of payloads. -/
inductive PayloadReader (R : Type) where
  | procMsg (s : RpcServer R)
  | recvMessage
  | isValidMsgId (nrt : Raft.NodeRoleType) (sentMsgsId : Finset Nat)
  | handshake (c : ConnectionState)

/-- A response with an error code or an exception. -/
def procIsError (r : Processed R) : Bool :=
  r.threw.isSome || r.submitted.any fun m => decide (m.response.toBase.code ≠ .ok)

/-- Every end of `recvMessage` but the return of the message. -/
def replyIsError : Option (Except ReplyError Buffer) → Bool
  | some (.ok _) => false
  | _ => true

/-- Every end of `is_valid_msg_id` but the reply that counts. -/
def voteIsError : Option (Bool × Buffer) → Bool
  | some (true, _) => false
  | _ => true

namespace PayloadReader

/-- The reads of a reader, and whether the payload is treated as an error. -/
def prog (rm : RcvMessage) : PayloadReader R → ReadProg Bool
  | procMsg s => (procRequestProg s rm).map procIsError
  | recvMessage => (recvMessageProg rm).map replyIsError
  | isValidMsgId nrt sentMsgsId => (isValidMsgIdProg nrt sentMsgsId rm).map voteIsError
  | handshake c => (handshakeProg c rm.buffer).map HandshakeInput.isError

/-- The length of the fixed fields: the handler id of a request, the code and the handler id of
a response, the code alone in a vote reply, the status or the port in the handshake. -/
def fixedLength : PayloadReader R → Nat
  | procMsg _ => 2
  | recvMessage => 4
  | isValidMsgId _ _ => 2
  | handshake c =>
    match c with
    | .connecting | .connectSe | .waitLastACK => 2
    | .connectingRe | .connected => 0

end PayloadReader

/-- The reader reads the payload only, and a payload too short is an error. -/
structure DecodesInside (d : PayloadReader R) (rm : RcvMessage) (payload : List UInt8) : Prop where
  inside : ∀ p ∈ rm.buffer.pos, (d.prog rm).Inside rm.buffer.mem p (p + payload.length)
  short_error : payload.length < d.fixedLength → (d.prog rm).run rm.buffer.mem = true

theorem loaded_moveHeadBack_pos {b : Buffer} (h : Loaded b payload) (hp : b.pos = some p)
    (n : Nat) : (b.moveHeadBack n).pos = some (p + n) := by
  obtain ⟨q, hq, hlast, -⟩ := h.cursor
  simp only [Buffer.moveHeadBack, hp, hlast]

theorem loaded_rest_availableLength {b : Buffer} (h : Loaded b payload)
    (hlen : 2 ≤ payload.length) :
    (b.moveHeadBack 2).availableLength = ((payload.length - 2 : Nat) : Int) := by
  obtain hlt | heq := Nat.lt_or_eq_of_le hlen
  · have hrest := h.moveHeadBack (by decide) hlt
    rw [hrest.availableLength_eq, List.length_drop]
  · have hall := h.moveHeadBack_all
    rw [← heq] at hall ⊢
    exact hall

/-- A field of two bytes at the beginning of a payload. -/
theorem inside_read_two {α : Type*} {next : List UInt8 → ReadProg α} {m : Mem} {len : Nat} :
    (ReadProg.read p 2 next).Inside m p (p + len) ↔
      2 ≤ len ∧ (next (Memory.read m p 2)).Inside m p (p + len) := by
  rw [ReadProg.inside_read]
  refine and_congr_left fun _ => ?_
  omega

theorem procRequestProg_inside (h : Loaded rm.buffer payload) (hp : rm.buffer.pos = some p)
    (s : RpcServer R) :
    (procRequestProg s rm).Inside rm.buffer.mem p (p + payload.length) ↔
      2 ≤ payload.length := by
  simp only [procRequestProg, hp, inside_read_two]
  refine and_iff_left_of_imp fun hlen => ?_
  have hrest := loaded_rest_availableLength h hlen
  split
  · exact ReadProg.inside_done _
  · split
    · exact ReadProg.inside_done _
    · rw [ReadProg.inside_read, loaded_moveHeadBack_pos h hp, hrest]
      constructor
      · rw [Option.getD_some, Int.toNat_natCast]
        omega
      · split <;> exact ReadProg.inside_done _

theorem recvMessageProg_inside (h : Loaded rm.buffer payload) (hp : rm.buffer.pos = some p) :
    (recvMessageProg rm).Inside rm.buffer.mem p (p + payload.length) ↔
      4 ≤ payload.length := by
  simp only [recvMessageProg, hp, ReadProg.inside_read, loaded_moveHeadBack_pos h hp,
    ReadProg.inside_done, Option.getD_some, and_true]
  omega

theorem isValidMsgIdProg_inside (hp : rm.buffer.pos = some p) (nrt : Raft.NodeRoleType)
    (sentMsgsId : Finset Nat) :
    (isValidMsgIdProg nrt sentMsgsId rm).Inside rm.buffer.mem p (p + payload.length) ↔
      2 ≤ payload.length := by
  simp only [isValidMsgIdProg, hp, inside_read_two]
  refine and_iff_left_of_imp fun _ => ?_
  split
  · exact ReadProg.inside_done _
  · cases nrt <;> exact ReadProg.inside_done _

/-- The handshake stays inside exactly when there are two bytes where it does not compare. -/
theorem handshakeProg_inside (h : Loaded rm.buffer payload) (hp : rm.buffer.pos = some p)
    (c : ConnectionState) :
    (handshakeProg c rm.buffer).Inside rm.buffer.mem p (p + payload.length) ↔
      (PayloadReader.handshake c : PayloadReader R).fixedLength ≤ payload.length ∨
        c = .connecting := by
  cases c with
  | connectSe =>
    simp only [handshakeProg, hp, inside_read_two, PayloadReader.fixedLength, reduceCtorEq,
      or_false]
    refine and_iff_left_of_imp fun hlen => ?_
    have hrest := loaded_rest_availableLength h hlen
    split
    · have hsize := h.size_lt
      rw [ReadProg.inside_read, loaded_moveHeadBack_pos h hp, hrest,
        sizeT_natCast (by omega), Option.getD_some]
      exact ⟨by omega, ReadProg.inside_done _⟩
    · exact ReadProg.inside_done _
  | waitLastACK =>
    simp only [handshakeProg, hp, inside_read_two, PayloadReader.fixedLength, reduceCtorEq,
      or_false, ReadProg.inside_done, and_true]
  | connecting =>
    refine iff_of_true ?_ (.inr rfl)
    have hlength := h.availableLength_eq
    simp only [handshakeProg, hp]
    split
    · exact ReadProg.inside_done _
    · exact inside_read_two.2 ⟨by omega, ReadProg.inside_done _⟩
  | connectingRe | connected => exact iff_of_true (ReadProg.inside_done _) (.inl (Nat.zero_le _))

theorem prog_inside (h : Loaded rm.buffer payload) (hp : rm.buffer.pos = some p)
    (d : PayloadReader R) :
    (d.prog rm).Inside rm.buffer.mem p (p + payload.length) ↔
      d.fixedLength ≤ payload.length ∨ d = .handshake .connecting := by
  cases d with
  | procMsg s =>
    rw [PayloadReader.prog, ReadProg.inside_map, procRequestProg_inside h hp]
    simp [PayloadReader.fixedLength]
  | recvMessage =>
    rw [PayloadReader.prog, ReadProg.inside_map, recvMessageProg_inside h hp]
    simp [PayloadReader.fixedLength]
  | isValidMsgId nrt sentMsgsId =>
    rw [PayloadReader.prog, ReadProg.inside_map, isValidMsgIdProg_inside hp]
    simp [PayloadReader.fixedLength]
  | handshake c =>
    rw [PayloadReader.prog, ReadProg.inside_map, handshakeProg_inside (R := R) h hp,
      PayloadReader.handshake.injEq]

/-- The comparison of the server's half of the handshake refuses what is too short. -/
theorem connecting_short_error (h : Loaded rm.buffer payload) (hshort : payload.length < 2) :
    ((PayloadReader.handshake .connecting : PayloadReader R).prog rm).run rm.buffer.mem = true := by
  have hlength := h.availableLength_eq
  have hne : rm.buffer.availableLength ≠ 2 := by omega
  rw [PayloadReader.prog, ReadProg.run_map, handshakeProg, if_pos hne]
  rfl

/-- A reader stays inside the payload and refuses what is too short exactly when the payload is
long enough for its fixed fields, or it is the one that compares the length first. -/
theorem decoders_stay_inside_iff (d : PayloadReader R) (hloaded : Loaded rm.buffer payload) :
    DecodesInside d rm payload ↔
      d.fixedLength ≤ payload.length ∨ d = .handshake .connecting := by
  obtain ⟨p, hp, -, -⟩ := hloaded.cursor
  constructor
  · intro h
    exact (prog_inside hloaded hp d).1 (h.inside p hp)
  · intro h
    constructor
    · intro q hq
      exact (prog_inside hloaded hq d).2 h
    · intro hshort
      obtain hlong | rfl := h
      · omega
      · exact connecting_short_error hloaded hshort

/-- A received message with the given payload. -/
def received (payload : List UInt8) : RcvMessage :=
  ⟨⟨messageMagicNo, 7, payload.length⟩, NetPeerInfo.unset, .holding payload, 0⟩

/-- Four bytes are enough for all of the readers. -/
theorem decoders_stay_inside_four_bytes :
    DecodesInside (.procMsg ⟨⟨false, fun _ => true⟩, 0, ∅⟩ : PayloadReader Nat)
        (received [0, 0, 0, 7]) [0, 0, 0, 7] ∧
      DecodesInside (.recvMessage : PayloadReader Nat) (received [0, 0, 0, 7]) [0, 0, 0, 7] ∧
      DecodesInside (.isValidMsgId .candidate {7} : PayloadReader Nat)
        (received [0, 0, 0, 7]) [0, 0, 0, 7] ∧
      ∀ c, DecodesInside (.handshake c : PayloadReader Nat)
        (received [0, 0, 0, 7]) [0, 0, 0, 7] := by
  have hloaded : Loaded (received [0, 0, 0, 7]).buffer [0, 0, 0, 7] :=
    Buffer.holding_loaded (by decide) (by decide)
  refine ⟨?_, ?_, ?_, fun c => ?_⟩
  on_goal 4 => cases c
  all_goals exact (decoders_stay_inside_iff _ hloaded).2 (.inl (by decide))

/-- A reply with a payload of one byte, and the byte that the pool has left behind it. -/
def oneByteReply (behind : UInt8) : RcvMessage :=
  { received [0] with
    buffer := { Buffer.holding [0] with mem := Memory.write (fun _ => 0) 1 [0, behind] } }

theorem oneByteReply_loaded (behind : UInt8) : Loaded (oneByteReply behind).buffer [0] :=
  ⟨by decide, by decide, rfl, 1, rfl, rfl, rfl⟩

/-- A reply of one byte counts as a vote or not by the byte behind it. -/
theorem one_byte_reply_counts :
    (∀ behind, Loaded (oneByteReply behind).buffer [0] ∧
      ¬ DecodesInside (.isValidMsgId .candidate {7} : PayloadReader Nat)
        (oneByteReply behind) [0]) ∧
      (Raft.isValidMsgId .candidate {7} (oneByteReply 0)).map Prod.fst = some true ∧
      (Raft.isValidMsgId .candidate {7} (oneByteReply 1)).map Prod.fst = some false := by
  refine ⟨?_, by decide, by decide⟩
  intro behind
  refine ⟨oneByteReply_loaded behind, ?_⟩
  intro h
  have hshort := (prog_inside (oneByteReply_loaded behind) rfl _).1 (h.inside 1 rfl)
  simp [PayloadReader.fixedLength] at hshort

/-- A reader that stays inside has an outcome that depends on the payload only. -/
theorem decodes_payload_only {d : PayloadReader R} {m : Mem} (h : DecodesInside d rm payload)
    (hp : rm.buffer.pos = some p)
    (hsame : ∀ i, p ≤ i → i < p + payload.length → rm.buffer.mem i = m i) :
    (d.prog rm).run m = (d.prog rm).run rm.buffer.mem :=
  (h.inside p hp).run_eq hsame

end Payloads

end Server
end CCraft
