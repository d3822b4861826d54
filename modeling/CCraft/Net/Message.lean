import CCraft.Common.Buffer
import CCraft.Common.Codec

/-!
# Messages and their frames

A message on the wire is a frame: a header of sixteen bytes with the magic
number, the 64-bit id and the payload length, and the payload behind it.  This
module embeds `SndMessage::Encode` and `RcvMessage::DecodeMsgHeader` together
with the buffers they run over.

Main results:

- Theorem {lit}`encodeWith_loaded`: if a derived class writes as many bytes as it has
  announced and their number is admissible, encoding gives a buffer whose valid range
  is the frame, whatever the pool left in the block.
- Theorem {lit}`SndMessage.encode_loaded`: the same for messages that write their payload
  at once.
- Theorem {lit}`decodeMsgHeader_filling`: decoding the header bytes of a frame
  succeeds with the id and the length of the message.
-/

namespace CCraft
namespace Net

open Common

/-! ## Peers -/

/-- `SocketProtocol`. -/
inductive SocketProtocol where
  | none
  | tcp
  | udp
deriving DecidableEq, Repr

/-- `net_addr_t`. -/
structure NetAddr where
  addr : String
  port : Nat
deriving DecidableEq, Repr

/-- `net_peer_info_t`. -/
structure NetPeerInfo where
  nat : NetAddr
  sp : SocketProtocol
deriving DecidableEq, Repr

/-- `net_peer_info_t()`; the port, which the constructor leaves unset, is not read. -/
def NetPeerInfo.unset : NetPeerInfo :=
  ⟨⟨"", 0⟩, .none⟩

/-! ## Encoding -/

/-- `MESSAGE_MAGIC_NO`. -/
def messageMagicNo : Nat := 0xdeadbeef

/-- `MAX_MSG_PAYLOAD_SIZE`, 64 MiB. -/
def maxMsgPayloadSize : Nat := 0x4000000

/-- `MSG_HEADER_SIZE` with 64-bit ids. -/
def headerSize : Nat := 16

/-- `Message::Header`. -/
structure Header where
  magic : Nat
  id : Nat
  len : Nat
deriving DecidableEq, Repr

/-- A message to be sent.  The payload is what the derived class writes in
`encodeDerive`; its length is what `getDerivePayloadLength` answers. -/
structure SndMessage where
  id : Nat
  payload : List UInt8
  peer : NetPeerInfo
  id_lt : id < 2 ^ 64
  payload_lt : payload.length < 2 ^ 32

/-- The lengths that `SndMessage::Encode` accepts. -/
def SndMessage.Encodable (m : SndMessage) : Prop :=
  1 ≤ m.payload.length ∧ m.payload.length ≤ maxMsgPayloadSize

instance (m : SndMessage) : Decidable m.Encodable :=
  inferInstanceAs (Decidable (_ ∧ _))

/-- What `SndMessage::Encode` throws. -/
inductive EncodeError where
  | lessThanZero
  | moreThan64MiB
deriving DecidableEq, Repr

/-- `Message::GetNewAvailableBuffer`. -/
def getNewAvailableBuffer (mpo : MemPoolObject) (totalBufferSize : Nat) : Buffer :=
  let bufferStart := mpo.block.pointer
  let bufferEnd := bufferStart + totalBufferSize - 1
  Buffer.refresh (some bufferStart) (some bufferEnd) (some bufferStart) (some bufferEnd)
    (some mpo.id) mpo.block.mem

/-- `Message::GetNewBuffer`. -/
def getNewBuffer (mpo : MemPoolObject) (totalBufferSize : Nat) : Buffer :=
  let bufferStart := mpo.block.pointer
  let bufferEnd := bufferStart + totalBufferSize - 1
  Buffer.refresh none none (some bufferStart) (some bufferEnd) (some mpo.id) mpo.block.mem

/-- Write an integer of `w` bytes at the position of the buffer. -/
def putUInt (w : Nat) (b : Buffer) (n : Nat) : Buffer :=
  match b.pos with
  | some p => { b with mem := writeUInt w b.mem p n }
  | none => b

/-- `SndMessage::encode_header`. -/
def encodeHeader (b : Buffer) (h : Header) : Buffer :=
  let b := (putUInt 4 b h.magic).moveHeadBack 4
  let b := (putUInt 8 b h.id).moveHeadBack 8
  (putUInt 4 b h.len).moveHeadBack 4

/-- The `encodeDerive` of a message: the payload goes to the position of the
buffer. -/
def encodeDerive (b : Buffer) (payload : List UInt8) : Buffer :=
  match b.pos with
  | some p => { b with mem := Memory.write b.mem p payload }
  | none => b

/-- `SndMessage::Encode` for a derived class: {lit}`deriveBufferSize` is the answer of its
`getDerivePayloadLength`, {lit}`derive` its `encodeDerive`. -/
def encodeWith (P : MemSource) (v : MemView) (id deriveBufferSize : Nat)
    (derive : Buffer → Buffer) : Except EncodeError (Buffer × MemView) :=
  if deriveBufferSize ≤ 0 then .error .lessThanZero
  else if deriveBufferSize > maxMsgPayloadSize then .error .moreThan64MiB
  else
    let totalBufferSize := headerSize + deriveBufferSize
    let got := P.get v totalBufferSize
    let buf := getNewAvailableBuffer got.1 totalBufferSize
    let buf := encodeHeader buf ⟨messageMagicNo, id, deriveBufferSize⟩
    let buf := derive buf
    .ok (buf.setPos buf.start, got.2)

/-- `SndMessage::Encode` for a message whose `encodeDerive` is one write. -/
def SndMessage.encode (P : MemSource) (v : MemView) (m : SndMessage) :
    Except EncodeError (Buffer × MemView) :=
  encodeWith P v m.id m.payload.length fun b => encodeDerive b m.payload

/-- The bytes that `SndMessage::Encode` puts into its buffer, nothing when it
throws. -/
def SndMessage.encodedBytes (P : MemSource) (v : MemView) (m : SndMessage) : List UInt8 :=
  match m.encode P v with
  | .ok (b, _) => b.bytes
  | .error _ => []

/-- The sixteen header bytes of a message. -/
def headerBytes (id len : Nat) : List UInt8 :=
  storeBytes 4 messageMagicNo ++ storeBytes 8 id ++ storeBytes 4 len

/-- The frame of a message. -/
def SndMessage.frame (m : SndMessage) : List UInt8 :=
  headerBytes m.id m.payload.length ++ m.payload

@[simp]
theorem length_headerBytes (id len : Nat) : (headerBytes id len).length = headerSize := by
  simp [headerBytes, headerSize]

@[simp]
theorem SndMessage.length_frame (m : SndMessage) :
    m.frame.length = headerSize + m.payload.length := by
  simp [SndMessage.frame]

/-! ## Pieces of a writer -/

/-- The writer leaves {lit}`bs` at the position of the buffer and nothing else before or
inside the bytes that precede them. -/
structure Writes (f : Buffer → Buffer) (bs : List UInt8) : Prop where
  start_eq : ∀ b, (f b).start = b.start
  end_eq : ∀ b, (f b).endPtr = b.endPtr
  last_eq : ∀ b, (f b).last = b.last
  read_eq : ∀ b a n l, b.pos = some (a + n) → b.last = some l →
    Memory.read (f b).mem a (n + bs.length) = Memory.read b.mem a n ++ bs

/-- The writer also moves the position behind its bytes. -/
structure Puts (f : Buffer → Buffer) (bs : List UInt8) : Prop extends Writes f bs where
  pos_eq : ∀ b p l, b.pos = some p → b.last = some l → (f b).pos = some (p + bs.length)

section Pieces

variable {f g : Buffer → Buffer} {bs cs : List UInt8}

theorem Puts.comp_writes (hf : Puts f bs) (hg : Writes g cs) :
    Writes (fun b => g (f b)) (bs ++ cs) := by
  refine ⟨fun b => ?_, fun b => ?_, fun b => ?_, ?_⟩
  · rw [hg.start_eq, hf.start_eq]
  · rw [hg.end_eq, hf.end_eq]
  · rw [hg.last_eq, hf.last_eq]
  · intro b a n l hpos hlast
    have hpos' : (f b).pos = some (a + (n + bs.length)) := by
      rw [hf.pos_eq b (a + n) l hpos hlast, Nat.add_assoc]
    have hlast' : (f b).last = some l := by rw [hf.last_eq, hlast]
    have hread := hg.read_eq (f b) a (n + bs.length) l hpos' hlast'
    rw [hf.read_eq b a n l hpos hlast, Nat.add_assoc, List.append_assoc] at hread
    rwa [List.length_append]

theorem Puts.comp (hf : Puts f bs) (hg : Puts g cs) :
    Puts (fun b => g (f b)) (bs ++ cs) := by
  refine ⟨hf.comp_writes hg.toWrites, ?_⟩
  intro b p l hpos hlast
  rw [hg.pos_eq (f b) (p + bs.length) l (hf.pos_eq b p l hpos hlast)
    (by rw [hf.last_eq, hlast]), List.length_append, Nat.add_assoc]

/-- Bytes at the position of the buffer. -/
theorem encodeDerive_writes (payload : List UInt8) :
    Writes (fun b => encodeDerive b payload) payload := by
  refine ⟨fun b => ?_, fun b => ?_, fun b => ?_, ?_⟩
  case refine_4 =>
    intro b a n l hpos _
    simp only [encodeDerive, hpos]
    exact Memory.read_write_extend _ _ rfl
  all_goals
    unfold encodeDerive
    split <;> rfl

/-- An integer at the position of the buffer. -/
theorem putUInt_writes (w n : Nat) : Writes (fun b => putUInt w b n) (storeBytes w n) :=
  encodeDerive_writes (storeBytes w n)

/-- A writer that is followed by a move of the position. -/
theorem Writes.moveHeadBack (hf : Writes f bs) (hpos : ∀ b, (f b).pos = b.pos) :
    Puts (fun b => (f b).moveHeadBack bs.length) bs := by
  have hmove : ∀ b : Buffer, (b.moveHeadBack bs.length).start = b.start ∧
      (b.moveHeadBack bs.length).endPtr = b.endPtr ∧
      (b.moveHeadBack bs.length).last = b.last ∧ (b.moveHeadBack bs.length).mem = b.mem := by
    intro b
    unfold Buffer.moveHeadBack
    split <;> exact ⟨rfl, rfl, rfl, rfl⟩
  refine ⟨⟨fun b => ?_, fun b => ?_, fun b => ?_, ?_⟩, ?_⟩
  · rw [(hmove _).1, hf.start_eq]
  · rw [(hmove _).2.1, hf.end_eq]
  · rw [(hmove _).2.2.1, hf.last_eq]
  · intro b a n l hp hl
    rw [(hmove _).2.2.2]
    exact hf.read_eq b a n l hp hl
  · intro b p l hp hl
    have hp' : (f b).pos = some p := by rw [hpos, hp]
    have hl' : (f b).last = some l := by rw [hf.last_eq, hl]
    simp only [Buffer.moveHeadBack, hp', hl']

/-- An integer with the move of the position behind it. -/
theorem putUInt_puts (w n : Nat) :
    Puts (fun b => (putUInt w b n).moveHeadBack w) (storeBytes w n) := by
  have hputs := (putUInt_writes w n).moveHeadBack fun b => by
    unfold putUInt
    split <;> rfl
  simpa only [length_storeBytes] using hputs

/-- `SndMessage::encode_header` puts the header bytes. -/
theorem encodeHeader_puts (id len : Nat) :
    Puts (fun b => encodeHeader b ⟨messageMagicNo, id, len⟩) (headerBytes id len) :=
  ((putUInt_puts 4 messageMagicNo).comp (putUInt_puts 8 id)).comp (putUInt_puts 4 len)

end Pieces

/-! ## What is encoded -/

/-- Encoding a payload of admissible length gives a buffer that holds exactly the frame. -/
theorem encodeWith_loaded (P : MemSource) (v : MemView) (id : Nat) {payload : List UInt8}
    {derive : Buffer → Buffer} (hderive : Writes derive payload) (hpos : 1 ≤ payload.length)
    (hmax : payload.length ≤ maxMsgPayloadSize) :
    ∃ b, encodeWith P v id payload.length derive =
        .ok (b, (P.get v (headerSize + payload.length)).2) ∧
      Loaded b (headerBytes id payload.length ++ payload) := by
  have hzero : ¬ payload.length ≤ 0 := by omega
  have hbig : ¬ payload.length > maxMsgPayloadSize := by omega
  have hwrites := (encodeHeader_puts id payload.length).comp_writes hderive
  refine ⟨_, by rw [encodeWith]; simp only [hzero, hbig, if_false]; rfl, ?_⟩
  generalize (P.get v (headerSize + payload.length)).1 = mpo
  have hlen : (headerBytes id payload.length ++ payload).length =
      headerSize + payload.length := by simp
  have hsize : headerSize + payload.length < 2 ^ 31 := by
    simp only [headerSize, maxMsgPayloadSize] at hmax ⊢
    omega
  have hle : mpo.block.pointer ≤ mpo.block.pointer + (headerSize + payload.length) - 1 := by
    simp only [headerSize]
    omega
  -- the buffer that the writers start from
  obtain ⟨b₀, hb₀⟩ : ∃ b₀, b₀ = getNewAvailableBuffer mpo (headerSize + payload.length) :=
    ⟨_, rfl⟩
  have hpos₀ : b₀.pos = some (mpo.block.pointer + 0) := by
    rw [hb₀]
    rfl
  have hlast₀ : b₀.last = some (mpo.block.pointer + (headerSize + payload.length) - 1) := by
    rw [hb₀]
    rfl
  have hstart := (hwrites.start_eq b₀).trans (hb₀ ▸ rfl : b₀.start = some mpo.block.pointer)
  have hend := (hwrites.end_eq b₀).trans (hb₀ ▸ rfl : b₀.endPtr =
    some (mpo.block.pointer + (headerSize + payload.length) - 1))
  have hlast := (hwrites.last_eq b₀).trans hlast₀
  have hread := hwrites.read_eq b₀ mpo.block.pointer 0 _ hpos₀ hlast₀
  rw [Nat.zero_add, Memory.read_zero, List.nil_append] at hread
  rw [← hb₀]
  refine ⟨by omega, by omega, ?_, mpo.block.pointer, ?_, ?_, ?_⟩
  · simp only [Buffer.setPos, Buffer.checkAvailable, hstart, hend, hlast, decide_eq_true_eq]
    exact hle
  · simp only [Buffer.setPos, Buffer.checkAvailable, hstart, hend, hlast]
  · simp only [Buffer.setPos, Buffer.checkAvailable, hstart, hend, hlast, hlen]
  · simp only [Buffer.setPos, Buffer.checkAvailable, hstart, hend, hlast]
    exact hread

/-- Encoding a message of admissible length gives a buffer that holds exactly the
frame. -/
theorem SndMessage.encode_loaded (P : MemSource) (v : MemView) {m : SndMessage}
    (hm : m.Encodable) :
    ∃ b, m.encode P v = .ok (b, (P.get v (headerSize + m.payload.length)).2) ∧
      Loaded b m.frame :=
  encodeWith_loaded P v m.id (encodeDerive_writes m.payload) hm.1 hm.2

/-- The bytes of an encoding do not depend on the pool. -/
theorem SndMessage.encodedBytes_eq (P : MemSource) (v : MemView) {m : SndMessage}
    (hm : m.Encodable) : m.encodedBytes P v = m.frame := by
  obtain ⟨b, hencode, hloaded⟩ := m.encode_loaded P v hm
  rw [SndMessage.encodedBytes, hencode]
  exact hloaded.bytes_eq

/-- The concatenation of the frames of some messages. -/
def frames (ms : List SndMessage) : List UInt8 :=
  ms.flatMap SndMessage.frame

@[simp]
theorem frames_cons (m : SndMessage) (ms : List SndMessage) :
    frames (m :: ms) = m.frame ++ frames ms := by
  simp [frames]

@[simp]
theorem frames_append (ms ms' : List SndMessage) :
    frames (ms ++ ms') = frames ms ++ frames ms' := by
  simp [frames]

theorem flatMap_encodedBytes (P : MemSource) (view : SndMessage → MemView)
    {ms : List SndMessage} (h : ∀ m ∈ ms, m.Encodable) :
    (ms.flatMap fun m => m.encodedBytes P (view m)) = frames ms :=
  List.flatMap_congr fun m hm => SndMessage.encodedBytes_eq P (view m) (h m hm)

/-! ## Decoding -/

/-- `RcvMessage::DecodeMsgHeader`: the answer and the header as it is left, with
the fields before the failing check already overwritten. -/
def decodeMsgHeader (b : Buffer) (h : Header) : Bool × Header :=
  if uint32 b.availableLength < headerSize then (false, h)
  else
    match b.pos with
    | none => (false, h)
    | some p =>
      let magic := LittleEndianCodecUtils.readUInt32 b.mem p
      if magic ≠ messageMagicNo then (false, { h with magic := magic })
      else
        let id := LittleEndianCodecUtils.readUInt64 b.mem (p + 4)
        let len := LittleEndianCodecUtils.readUInt32 b.mem (p + 12)
        (decide (len ≤ maxMsgPayloadSize), ⟨magic, id, len⟩)

/-- Decoding the header bytes of a frame gives the id and the length in it. -/
theorem decodeMsgHeader_loaded {b : Buffer} {id len : Nat} (h : Header)
    (hb : Loaded b (headerBytes id len)) (hid : id < 2 ^ 64) (hlen : len ≤ maxMsgPayloadSize) :
    decodeMsgHeader b h = (true, ⟨messageMagicNo, id, len⟩) := by
  have havail := hb.availableLength_eq
  rw [length_headerBytes] at havail
  obtain ⟨a, hpos, -, hread⟩ := hb.cursor
  rw [length_headerBytes, headerSize, show 16 = 4 + 8 + 4 by rfl, Memory.read_add,
    Memory.read_add, headerBytes] at hread
  obtain ⟨hfront, hl⟩ := List.append_inj hread (by simp)
  obtain ⟨hmagic, hi⟩ := List.append_inj hfront (by simp)
  have hrmagic : LittleEndianCodecUtils.readUInt32 b.mem a = messageMagicNo := by
    rw [LittleEndianCodecUtils.readUInt32, readUInt_eq_decode, hmagic, storeBytes_eq_encode]
    exact BigEndian.decode_encode_of_lt (by simp [messageMagicNo])
  have hrid : LittleEndianCodecUtils.readUInt64 b.mem (a + 4) = id := by
    rw [LittleEndianCodecUtils.readUInt64, readUInt_eq_decode, hi, storeBytes_eq_encode]
    exact BigEndian.decode_encode_of_lt (by omega)
  have hrlen : LittleEndianCodecUtils.readUInt32 b.mem (a + 12) = len := by
    rw [LittleEndianCodecUtils.readUInt32, readUInt_eq_decode, hl, storeBytes_eq_encode]
    refine BigEndian.decode_encode_of_lt (lt_of_le_of_lt hlen ?_)
    simp [maxMsgPayloadSize]
  have hnot : ¬ uint32 b.availableLength < headerSize := by
    rw [havail, uint32_natCast (by decide)]
    exact lt_irrefl _
  rw [decodeMsgHeader, if_neg hnot, hpos]
  simp only [hrmagic, hrid, hrlen, ne_eq, not_true, if_false, hlen, decide_true]

/-- The same for the header buffer of a worker. -/
theorem decodeMsgHeader_filling {b : Buffer} {a n id len : Nat} (h : Header)
    (hb : Filling b a n (headerBytes id len)) (hid : id < 2 ^ 64)
    (hlen : len ≤ maxMsgPayloadSize) :
    decodeMsgHeader b h = (true, ⟨messageMagicNo, id, len⟩) :=
  decodeMsgHeader_loaded h hb.loaded hid hlen

end Net
end CCraft
