import CCraft.Net.Message

/-!
# RPC messages on the wire

A request is the handler id and the serialized body behind it, a response the code, the
handler id and the body.  Either may come without a body.  The server and the client read
the integers at the position of the buffer, move the position behind them and hand the rest
to protobuf; behind the last byte the buffer counts as empty.

Main results:

- Theorems {lit}`RpcRequest.encodeDerive_writes` and {lit}`RpcResponse.encodeDerive_writes`:
  the derived classes write as many bytes as they announce.
- Theorem {lit}`rpc_wire_round_trip`: what was encoded is what the other side reads.
-/

namespace CCraft
namespace Rpc

open Common Net

/-! ## Protobuf -/

/-- What the RPC code uses of a type of protobuf messages, and what it relies on. -/
structure PbType (M : Type) where
  byteSize : M → Nat
  serializeToArray : M → List UInt8
  parseFromArray : List UInt8 → Option M
  byteSize_eq : ∀ m, byteSize m = (serializeToArray m).length
  parse_serialize : ∀ m, parseFromArray (serializeToArray m) = some m

/-- Messages that are their own bytes. -/
def PbType.bytes : PbType (List UInt8) :=
  ⟨List.length, fun m => m, some, fun _ => rfl, fun _ => rfl⟩

/-- `ProtoBufUtils::Serialize` into a buffer with room for the message. -/
def serialize {M : Type} (pb : PbType M) (m : M) (b : Buffer) : Buffer :=
  encodeDerive b (pb.serializeToArray m)

/-- `ProtoBufUtils::Deserialize`. -/
def deserialize {M : Type} (pb : PbType M) (b : Buffer) : Option M :=
  pb.parseFromArray b.bytes

/-! ## Requests and responses -/

/-- `RpcCode`. -/
inductive RpcCode where
  | ok
  | errorNoHandler
  | errorMsg
  | errorInternal
  | errorNoRegisteredRpc
  | errorUnknown
deriving DecidableEq, Repr

def RpcCode.toNat : RpcCode → Nat
  | .ok => 0
  | .errorNoHandler => 1
  | .errorMsg => 2
  | .errorInternal => 3
  | .errorNoRegisteredRpc => 4
  | .errorUnknown => 5

theorem RpcCode.toNat_lt (c : RpcCode) : c.toNat < 256 ^ 2 := by
  cases c <;> decide

/-- `RpcRequest`. -/
structure RpcRequest (M : Type) where
  id : Nat
  handlerId : Nat
  msg : Option M
  id_lt : id < 2 ^ 64
  handlerId_lt : handlerId < 2 ^ 16

/-- `RpcResponseBase`. -/
structure RpcResponseBase where
  id : Nat
  code : RpcCode
  ht : Nat
  id_lt : id < 2 ^ 64
  ht_lt : ht < 2 ^ 16

/-- `RpcResponse`; its constructor sets the code to `OK`. -/
structure RpcResponse (M : Type) extends RpcResponseBase where
  msg : Option M

section Encode

variable {M : Type} (pb : PbType M)

/-- The bytes of a body, none when there is no message. -/
def bodyBytes (msg : Option M) : List UInt8 :=
  match msg with
  | some m => pb.serializeToArray m
  | none => []

/-- `RpcRequest::getDerivePayloadLength`. -/
def RpcRequest.getDerivePayloadLength (r : RpcRequest M) : Nat :=
  match r.msg with
  | some m => (2 + pb.byteSize m) % 2 ^ 32
  | none => 2

/-- `RpcRequest::encodeDerive`. -/
def RpcRequest.encodeDerive (r : RpcRequest M) (b : Buffer) : Buffer :=
  let b := (putUInt 2 b r.handlerId).moveHeadBack 2
  match r.msg with
  | some m => serialize pb m b
  | none => b

/-- `RpcResponseBase::getDerivePayloadLength`. -/
def RpcResponseBase.getDerivePayloadLength (_ : RpcResponseBase) : Nat :=
  2 + 2

/-- `RpcResponseBase::encodeDerive`. -/
def RpcResponseBase.encodeDerive (r : RpcResponseBase) (b : Buffer) : Buffer :=
  let b := (putUInt 2 b r.code.toNat).moveHeadBack 2
  putUInt 2 b r.ht

/-- `RpcResponse::getDerivePayloadLength`. -/
def RpcResponse.getDerivePayloadLength (r : RpcResponse M) : Nat :=
  match r.msg with
  | some m => (r.toRpcResponseBase.getDerivePayloadLength + pb.byteSize m) % 2 ^ 32
  | none => r.toRpcResponseBase.getDerivePayloadLength

/-- `RpcResponse::encodeDerive`. -/
def RpcResponse.encodeDerive (r : RpcResponse M) (b : Buffer) : Buffer :=
  let b := (putUInt 2 b r.code.toNat).moveHeadBack 2
  let b := (putUInt 2 b r.ht).moveHeadBack 2
  match r.msg with
  | some m => serialize pb m b
  | none => b

/-- `Encode` of a request. -/
def RpcRequest.encode (P : MemSource) (v : MemView) (r : RpcRequest M) :
    Except EncodeError (Buffer × MemView) :=
  encodeWith P v r.id (r.getDerivePayloadLength pb) (r.encodeDerive pb)

/-- `Encode` of a response without a body. -/
def RpcResponseBase.encode (P : MemSource) (v : MemView) (r : RpcResponseBase) :
    Except EncodeError (Buffer × MemView) :=
  encodeWith P v r.id r.getDerivePayloadLength r.encodeDerive

/-- `Encode` of a response. -/
def RpcResponse.encode (P : MemSource) (v : MemView) (r : RpcResponse M) :
    Except EncodeError (Buffer × MemView) :=
  encodeWith P v r.id (r.getDerivePayloadLength pb) (r.encodeDerive pb)

/-- The payload of a request. -/
def RpcRequest.payload (r : RpcRequest M) : List UInt8 :=
  storeBytes 2 r.handlerId ++ bodyBytes pb r.msg

/-- The payload of a response. -/
def RpcResponse.payload (r : RpcResponse M) : List UInt8 :=
  storeBytes 2 r.code.toNat ++ storeBytes 2 r.ht ++ bodyBytes pb r.msg

/-- The payload of a response without a body. -/
def RpcResponseBase.payload (r : RpcResponseBase) : List UInt8 :=
  storeBytes 2 r.code.toNat ++ storeBytes 2 r.ht

/-- The body goes to the position of the buffer. -/
theorem body_writes (msg : Option M) :
    Writes (fun b => match msg with
      | some m => serialize pb m b
      | none => b) (bodyBytes pb msg) := by
  cases msg with
  | some m => exact Net.encodeDerive_writes (pb.serializeToArray m)
  | none =>
    refine ⟨fun _ => rfl, fun _ => rfl, fun _ => rfl, ?_⟩
    intro b a n l _ _
    simp [bodyBytes]

theorem RpcRequest.encodeDerive_writes (r : RpcRequest M) :
    Writes (r.encodeDerive pb) (r.payload pb) :=
  (putUInt_puts 2 r.handlerId).comp_writes (body_writes pb r.msg)

theorem RpcResponse.encodeDerive_writes (r : RpcResponse M) :
    Writes (r.encodeDerive pb) (r.payload pb) :=
  ((putUInt_puts 2 r.code.toNat).comp (putUInt_puts 2 r.ht)).comp_writes (body_writes pb r.msg)

theorem RpcResponseBase.encodeDerive_writes (r : RpcResponseBase) :
    Writes r.encodeDerive r.payload :=
  (putUInt_puts 2 r.code.toNat).comp_writes (putUInt_writes 2 r.ht)

/-- The announced length is that of the payload, as long as it fits. -/
theorem RpcRequest.getDerivePayloadLength_eq (r : RpcRequest M)
    (hmax : (r.payload pb).length ≤ maxMsgPayloadSize) :
    r.getDerivePayloadLength pb = (r.payload pb).length := by
  simp only [RpcRequest.payload, List.length_append, length_storeBytes, maxMsgPayloadSize] at hmax ⊢
  cases hmsg : r.msg with
  | none => simp [RpcRequest.getDerivePayloadLength, hmsg, bodyBytes]
  | some m =>
    simp only [hmsg, bodyBytes] at hmax
    simp only [RpcRequest.getDerivePayloadLength, hmsg, bodyBytes, pb.byteSize_eq]
    omega

theorem RpcResponse.getDerivePayloadLength_eq (r : RpcResponse M)
    (hmax : (r.payload pb).length ≤ maxMsgPayloadSize) :
    r.getDerivePayloadLength pb = (r.payload pb).length := by
  simp only [RpcResponse.payload, List.length_append, length_storeBytes, maxMsgPayloadSize]
    at hmax ⊢
  cases hmsg : r.msg with
  | none =>
    simp [RpcResponse.getDerivePayloadLength, RpcResponseBase.getDerivePayloadLength, hmsg,
      bodyBytes]
  | some m =>
    simp only [hmsg, bodyBytes] at hmax
    simp only [RpcResponse.getDerivePayloadLength, RpcResponseBase.getDerivePayloadLength, hmsg,
      bodyBytes, pb.byteSize_eq]
    omega

end Encode

/-! ## The two readers -/

/-- Read an integer of two bytes at the position of the buffer and move the position behind
it; {lit}`none` when there is no position. -/
def takeUInt16 (b : Buffer) : Option (Nat × Buffer) :=
  b.pos.map fun p => (readUInt 2 b.mem p, b.moveHeadBack 2)

/-- The parsing steps of `RpcServer::proc_msg`: the handler id and the buffer with the
body. -/
def parseRequest (b : Buffer) : Option (Nat × Buffer) :=
  takeUInt16 b

/-- The parsing steps of a synchronous call, in `recvMessage` and behind it: the code, the
handler id and the buffer with the body. -/
def parseResponse (b : Buffer) : Option (Nat × Nat × Buffer) :=
  (takeUInt16 b).bind fun x => (takeUInt16 x.2).map fun y => (x.1, y.1, y.2)

/-- Reading an integer that stands in front of other bytes. -/
theorem takeUInt16_loaded {b : Buffer} {n : Nat} {rest : List UInt8} (hn : n < 256 ^ 2)
    (h : Loaded b (storeBytes 2 n ++ rest)) :
    takeUInt16 b = some (n, b.moveHeadBack 2) ∧ (b.moveHeadBack 2).bytes = rest := by
  have hlen : (storeBytes 2 n).length = 2 := length_storeBytes 2 n
  constructor
  · obtain ⟨p, hp, _, hread⟩ := h.cursor
    rw [List.length_append, hlen, Memory.read_add] at hread
    have hfront := (List.append_inj hread (by simp)).1
    have hvalue : readUInt 2 b.mem p = n := by
      rw [readUInt_eq_decode, hfront, storeBytes_eq_encode]
      exact BigEndian.decode_encode_of_lt hn
    rw [takeUInt16, hp, Option.map_some, hvalue]
  · have hbytes := h.bytes_moveHeadBack (by omega)
    rwa [hlen] at hbytes

/-- The server reads the handler id, and the bytes of the body are left. -/
theorem parseRequest_loaded {b : Buffer} {n : Nat} {rest : List UInt8} (hn : n < 2 ^ 16)
    (h : Loaded b (storeBytes 2 n ++ rest)) :
    ∃ b', parseRequest b = some (n, b') ∧ b'.bytes = rest :=
  ⟨_, takeUInt16_loaded hn h⟩

/-- The client reads the code and the handler id, and the bytes of the body are left. -/
theorem parseResponse_loaded {b : Buffer} {c n : Nat} {rest : List UInt8} (hc : c < 256 ^ 2)
    (hn : n < 2 ^ 16) (h : Loaded b (storeBytes 2 c ++ storeBytes 2 n ++ rest)) :
    ∃ b', parseResponse b = some (c, n, b') ∧ b'.bytes = rest := by
  rw [List.append_assoc] at h
  have hlen : (storeBytes 2 c).length = 2 := length_storeBytes 2 c
  obtain ⟨hcode, _⟩ := takeUInt16_loaded hc h
  have hnext : Loaded (b.moveHeadBack 2) (storeBytes 2 n ++ rest) := by
    have hloaded := h.moveHeadBack (show 1 ≤ 2 by omega) (by simp)
    rwa [List.drop_left' hlen] at hloaded
  obtain ⟨hid, hbytes⟩ := takeUInt16_loaded hn hnext
  refine ⟨_, ?_, hbytes⟩
  rw [parseResponse, hcode, Option.bind_some, hid, Option.map_some]

/-! ## Round trip -/

/-- A receiver has the header bytes of a frame in its header buffer and the others in a
buffer of their own. -/
structure Received (frame : List UInt8) (header payload : Buffer) : Prop where
  header : Loaded header (frame.take headerSize)
  payload : Loaded payload (frame.drop headerSize)

/-- Whatever writes a payload of admissible length arrives with its id and its length. -/
theorem encodeWith_received (P : MemSource) (v : MemView) (h₀ : Header) {id : Nat}
    {payload : List UInt8} {derive : Buffer → Buffer} (hid : id < 2 ^ 64)
    (hderive : Writes derive payload) (hpos : 1 ≤ payload.length)
    (hmax : payload.length ≤ maxMsgPayloadSize) :
    ∃ b, encodeWith P v id payload.length derive =
        .ok (b, (P.get v (headerSize + payload.length)).2) ∧
      b.bytes = headerBytes id payload.length ++ payload ∧
      ∀ header buf, Received b.bytes header buf →
        decodeMsgHeader header h₀ = (true, ⟨messageMagicNo, id, payload.length⟩) ∧
          Loaded buf payload := by
  obtain ⟨b, hencode, hloaded⟩ := encodeWith_loaded P v id hderive hpos hmax
  have hbytes := hloaded.bytes_eq
  refine ⟨b, hencode, hbytes, ?_⟩
  intro header buf hreceived
  have hheader := hreceived.header
  have hpayload := hreceived.payload
  rw [hbytes, List.take_left' (length_headerBytes _ _)] at hheader
  rw [hbytes, List.drop_left' (length_headerBytes _ _)] at hpayload
  exact ⟨decodeMsgHeader_loaded h₀ hheader hid hmax, hpayload⟩

/-- Every request and every response whose payload has an admissible length, with any body
or none, is read by the other side as it was encoded: the id and the length from the header,
the handler id, the code of a response, the bytes of the body, and the body itself. -/
theorem rpc_wire_round_trip {M : Type} (pb : PbType M) (P : MemSource) (v : MemView)
    (h₀ : Header) :
    (∀ r : RpcRequest M, (r.payload pb).length ≤ maxMsgPayloadSize →
      ∃ b v', r.encode pb P v = .ok (b, v') ∧
        b.bytes = headerBytes r.id (r.payload pb).length ++ r.payload pb ∧
        ∀ header buf, Received b.bytes header buf →
          decodeMsgHeader header h₀ = (true, ⟨messageMagicNo, r.id, (r.payload pb).length⟩) ∧
          ∃ rest, parseRequest buf = some (r.handlerId, rest) ∧
            rest.bytes = bodyBytes pb r.msg ∧ ∀ m ∈ r.msg, deserialize pb rest = some m) ∧
    (∀ r : RpcResponse M, (r.payload pb).length ≤ maxMsgPayloadSize →
      ∃ b v', r.encode pb P v = .ok (b, v') ∧
        b.bytes = headerBytes r.id (r.payload pb).length ++ r.payload pb ∧
        ∀ header buf, Received b.bytes header buf →
          decodeMsgHeader header h₀ = (true, ⟨messageMagicNo, r.id, (r.payload pb).length⟩) ∧
          ∃ rest, parseResponse buf = some (r.code.toNat, r.ht, rest) ∧
            rest.bytes = bodyBytes pb r.msg ∧ ∀ m ∈ r.msg, deserialize pb rest = some m) ∧
    (∀ r : RpcResponseBase, ∃ b v', r.encode P v = .ok (b, v') ∧
      b.bytes = headerBytes r.id r.payload.length ++ r.payload ∧
      ∀ header buf, Received b.bytes header buf →
        decodeMsgHeader header h₀ = (true, ⟨messageMagicNo, r.id, r.payload.length⟩) ∧
        ∃ rest, parseResponse buf = some (r.code.toNat, r.ht, rest) ∧ rest.bytes = []) := by
  have hbody : ∀ (msg : Option M) (rest : Buffer), rest.bytes = bodyBytes pb msg →
      ∀ m ∈ msg, deserialize pb rest = some m := by
    rintro _ rest hrest m rfl
    rw [deserialize, hrest]
    exact pb.parse_serialize m
  refine ⟨?_, ?_, ?_⟩
  · intro r hmax
    obtain ⟨b, hencode, hbytes, hreads⟩ := encodeWith_received P v h₀ r.id_lt
      (r.encodeDerive_writes pb) (by simp [RpcRequest.payload]; omega) hmax
    rw [← r.getDerivePayloadLength_eq pb hmax] at hencode
    refine ⟨b, _, hencode, hbytes, ?_⟩
    intro header buf hreceived
    obtain ⟨hheader, hloaded⟩ := hreads header buf hreceived
    obtain ⟨rest, hparse, hrest⟩ := parseRequest_loaded r.handlerId_lt hloaded
    exact ⟨hheader, rest, hparse, hrest, hbody r.msg rest hrest⟩
  · intro r hmax
    obtain ⟨b, hencode, hbytes, hreads⟩ := encodeWith_received P v h₀ r.id_lt
      (r.encodeDerive_writes pb) (by simp [RpcResponse.payload]; omega) hmax
    rw [← r.getDerivePayloadLength_eq pb hmax] at hencode
    refine ⟨b, _, hencode, hbytes, ?_⟩
    intro header buf hreceived
    obtain ⟨hheader, hloaded⟩ := hreads header buf hreceived
    obtain ⟨rest, hparse, hrest⟩ := parseResponse_loaded r.code.toNat_lt r.ht_lt hloaded
    exact ⟨hheader, rest, hparse, hrest, hbody r.msg rest hrest⟩
  · intro r
    have hlen : r.payload.length = 4 := by simp [RpcResponseBase.payload]
    obtain ⟨b, hencode, hbytes, hreads⟩ := encodeWith_received P v h₀ r.id_lt
      r.encodeDerive_writes (by omega) (by rw [hlen]; decide)
    refine ⟨b, _, hencode, hbytes, ?_⟩
    intro header buf hreceived
    obtain ⟨hheader, hloaded⟩ := hreads header buf hreceived
    rw [RpcResponseBase.payload, ← List.append_nil (_ ++ _)] at hloaded
    obtain ⟨rest, hparse, hrest⟩ := parseResponse_loaded r.code.toNat_lt r.ht_lt hloaded
    exact ⟨hheader, rest, hparse, hrest⟩

/-- A request whose body is empty arrives, for a protobuf type whose messages are their own
bytes. -/
theorem rpc_wire_round_trip_empty_body :
    let pb : PbType (List UInt8) := ⟨List.length, fun m => m, some, fun _ => rfl, fun _ => rfl⟩
    let P : MemSource := pagePool
    let r : RpcRequest (List UInt8) := ⟨7, 513, some [], by decide, by decide⟩
    ∃ b v' header buf rest, r.encode pb P ⟨0, []⟩ = .ok (b, v') ∧
      Received b.bytes header buf ∧
      decodeMsgHeader header ⟨0, 0, 0⟩ = (true, ⟨messageMagicNo, 7, 2⟩) ∧
      parseRequest buf = some (513, rest) ∧ deserialize pb rest = some [] := by
  intro pb P r
  have hmax : (r.payload pb).length ≤ maxMsgPayloadSize := by decide
  obtain ⟨b, v', hencode, hbytes, hreads⟩ :=
    (rpc_wire_round_trip pb P ⟨0, []⟩ ⟨0, 0, 0⟩).1 r hmax
  have hreceived : Received b.bytes (Buffer.holding (headerBytes 7 2))
      (Buffer.holding (r.payload pb)) := by
    rw [hbytes]
    refine ⟨?_, ?_⟩
    · rw [List.take_left' (length_headerBytes _ _)]
      exact Buffer.holding_loaded (by simp [headerSize]) (by simp [headerSize])
    · rw [List.drop_left' (length_headerBytes _ _)]
      exact Buffer.holding_loaded (by decide) (by decide)
  obtain ⟨hheader, rest, hparse, _, hbody⟩ := hreads _ _ hreceived
  exact ⟨b, v', _, _, rest, hencode, hreceived, hheader, hparse, hbody [] rfl⟩

end Rpc
end CCraft
