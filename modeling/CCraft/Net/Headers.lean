import CCraft.Net.Recv

/-!
# The headers that are accepted

`SndMessage::Encode` and `RcvMessage::DecodeMsgHeader` check the length of a payload each on
its own.  The sender refuses the length zero and lengths above 64 MiB, the receiver only the
latter.  After a header with the length zero `Recv` asks the pool for a block without bytes,
which `MemPool::Get` asserts never to happen.

Main results:

- Theorem {lit}`decodeMsgHeader_accepts_iff`: the byte strings that `DecodeMsgHeader` accepts.
- Theorem {lit}`header_contract_iff`: what is accepted is what the encoder writes, and `Recv` can
  ask for a block, exactly when the length in the header is not zero.
-/

namespace CCraft
namespace Net

open Common

/-! ## What the receiver reads -/

/-- The three fields in sixteen header bytes. -/
def headerOf (bs : List UInt8) : Header :=
  ⟨BigEndian.decode (bs.take 4), BigEndian.decode ((bs.drop 4).take 8),
    BigEndian.decode (bs.drop 12)⟩

section Decoding

variable {b : Buffer} {bs : List UInt8} {m : SndMessage} {P : MemSource} {v : MemView}

/-- A byte string with the magic number is the header of the fields in it. -/
theorem headerBytes_headerOf (hlen : bs.length = headerSize)
    (hmagic : (headerOf bs).magic = messageMagicNo) :
    headerBytes (headerOf bs).id (headerOf bs).len = bs := by
  rw [headerSize] at hlen
  have hencode : ∀ {part : List UInt8} {w : Nat}, part.length = w →
      storeBytes w (BigEndian.decode part) = part := by
    rintro part w rfl
    rw [storeBytes_eq_encode, BigEndian.encode_decode]
  have hfront : storeBytes 4 messageMagicNo = bs.take 4 := by
    rw [← hmagic]
    exact hencode (by rw [List.length_take]; omega)
  have hid : storeBytes 8 (headerOf bs).id = (bs.drop 4).take 8 :=
    hencode (by rw [List.length_take, List.length_drop]; omega)
  have hback : storeBytes 4 (headerOf bs).len = bs.drop 12 :=
    hencode (by rw [List.length_drop]; omega)
  have hdrop : bs.drop 12 = (bs.drop 4).drop 8 := by rw [List.drop_drop]
  rw [headerBytes, hfront, hid, hback, hdrop, List.append_assoc, List.take_append_drop,
    List.take_append_drop]

/-- `DecodeMsgHeader` looks at the magic number and then at the length. -/
theorem decodeMsgHeader_eq (h : Header) (hb : Loaded b bs) (hlen : bs.length = headerSize) :
    decodeMsgHeader b h =
      if (headerOf bs).magic ≠ messageMagicNo then (false, { h with magic := (headerOf bs).magic })
      else (decide ((headerOf bs).len ≤ maxMsgPayloadSize), headerOf bs) := by
  have havail := hb.availableLength_eq
  obtain ⟨p, hpos, -, hread⟩ := hb.cursor
  rw [hlen, headerSize, show 16 = 4 + (8 + 4) by rfl, Memory.read_add, Memory.read_add] at hread
  have hfront : bs.take 4 = Memory.read b.mem p 4 := by
    rw [← hread, List.take_left' (by simp)]
  have hmiddle : (bs.drop 4).take 8 = Memory.read b.mem (p + 4) 8 := by
    rw [← hread, List.drop_left' (by simp), List.take_left' (by simp)]
  have hback : bs.drop 12 = Memory.read b.mem (p + 12) 4 := by
    rw [← hread, ← List.append_assoc, List.drop_left' (by simp)]
  have hmagic : LittleEndianCodecUtils.readUInt32 b.mem p = (headerOf bs).magic := by
    rw [LittleEndianCodecUtils.readUInt32, readUInt_eq_decode, ← hfront, headerOf]
  have hid : LittleEndianCodecUtils.readUInt64 b.mem (p + 4) = (headerOf bs).id := by
    rw [LittleEndianCodecUtils.readUInt64, readUInt_eq_decode, ← hmiddle, headerOf]
  have hpayload : LittleEndianCodecUtils.readUInt32 b.mem (p + 12) = (headerOf bs).len := by
    rw [LittleEndianCodecUtils.readUInt32, readUInt_eq_decode, ← hback, headerOf]
  have hnot : ¬ uint32 b.availableLength < headerSize := by
    rw [havail, hlen, uint32_natCast (by decide)]
    exact lt_irrefl _
  rw [decodeMsgHeader, if_neg hnot, hpos]
  simp only [hmagic, hid, hpayload]

/-- A number read from eight bytes is a 64-bit number. -/
theorem headerOf_id_lt (hlen : bs.length = headerSize) : (headerOf bs).id < 2 ^ 64 := by
  rw [headerSize] at hlen
  have hpart : ((bs.drop 4).take 8).length = 8 := by
    rw [List.length_take, List.length_drop]
    omega
  have hmod := BigEndian.decode_encode 8 (headerOf bs).id
  have hself : BigEndian.encode 8 (headerOf bs).id = (bs.drop 4).take 8 := by
    have hencode := BigEndian.encode_decode ((bs.drop 4).take 8)
    rw [hpart] at hencode
    exact hencode
  rw [hself] at hmod
  have heq : (headerOf bs).id = (headerOf bs).id % 256 ^ 8 := hmod
  omega

/-- `DecodeMsgHeader` accepts the headers with any id and a length of at most 64 MiB. -/
theorem decodeMsgHeader_accepts_iff (h : Header) (hb : Loaded b bs)
    (hlen : bs.length = headerSize) :
    (decodeMsgHeader b h).1 = true ↔
      ∃ id len, id < 2 ^ 64 ∧ len ≤ maxMsgPayloadSize ∧ bs = headerBytes id len := by
  constructor
  · intro haccept
    rw [decodeMsgHeader_eq h hb hlen] at haccept
    split_ifs at haccept with hmagic
    refine ⟨(headerOf bs).id, (headerOf bs).len, headerOf_id_lt hlen, by simpa using haccept, ?_⟩
    exact (headerBytes_headerOf hlen (not_not.1 hmagic)).symm
  · rintro ⟨id, len, hid, hle, rfl⟩
    rw [decodeMsgHeader_loaded h hb hid hle]

/-! ## What the sender writes -/

/-- `Encode` writes the header {lit}`bs` for a message. -/
def EncodesHeader (P : MemSource) (v : MemView) (bs : List UInt8) (m : SndMessage) : Prop :=
  ∃ b v', m.encode P v = .ok (b, v') ∧ b.bytes.take headerSize = bs

theorem encodesHeader_iff :
    EncodesHeader P v bs m ↔ m.Encodable ∧ bs = headerBytes m.id m.payload.length := by
  constructor
  · rintro ⟨b, v', hencode, rfl⟩
    have hm : m.Encodable := by
      rw [SndMessage.encode, encodeWith] at hencode
      split_ifs at hencode with hzero hbig
      exact ⟨by omega, by omega⟩
    obtain ⟨b₁, hencode₁, hloaded⟩ := m.encode_loaded P v hm
    rw [hencode] at hencode₁
    cases hencode₁
    refine ⟨hm, ?_⟩
    rw [hloaded.bytes_eq, SndMessage.frame, List.take_left' (length_headerBytes _ _)]
  · rintro ⟨hm, rfl⟩
    obtain ⟨b, hencode, hloaded⟩ := m.encode_loaded P v hm
    refine ⟨b, _, hencode, ?_⟩
    rw [hloaded.bytes_eq, SndMessage.frame, List.take_left' (length_headerBytes _ _)]

/-- No message is encoded to a header with the length zero. -/
theorem not_encodesHeader_zero {id : Nat} (hid : id < 2 ^ 64) :
    ¬ EncodesHeader P v (headerBytes id 0) m := by
  intro hm
  obtain ⟨hencodable, hbs⟩ := encodesHeader_iff.1 hm
  have hlen := length_headerBytes id 0
  have hloaded : Loaded (Buffer.holding (headerBytes id 0)) (headerBytes id 0) :=
    Buffer.holding_loaded (by rw [hlen]; decide) (by rw [hlen]; decide)
  have hdecode := decodeMsgHeader_loaded ⟨0, 0, 0⟩ hloaded hid (Nat.zero_le _)
  rw [hbs] at hloaded
  have hdecode' := decodeMsgHeader_loaded ⟨0, 0, 0⟩ hloaded m.id_lt hencodable.2
  rw [← hbs, hdecode] at hdecode'
  simp only [Prod.mk.injEq, Header.mk.injEq, true_and] at hdecode'
  have hpos := hencodable.1
  omega

/-- Every 32-bit length is the length of some message to a peer. -/
theorem exists_message (peer : NetPeerInfo) (id len : Nat) (hid : id < 2 ^ 64)
    (hlt : len < 2 ^ 32) :
    ∃ m : SndMessage, m.peer = peer ∧ m.id = id ∧ m.payload.length = len := by
  have hlength : (List.replicate len (0 : UInt8)).length = len := List.length_replicate
  exact ⟨⟨id, List.replicate len 0, peer, hid, hlength.symm ▸ hlt⟩, rfl, rfl, hlength⟩

/-! ## The two ends together -/

/-- The size for which the next round of `Recv` calls `MemPool::Get` to receive a payload. -/
def Worker.payloadRequest (w : Worker) : Option Nat :=
  match w.rcvState with
  | .startToRcvPayload => some w.header.len
  | _ => none

/-- Sixteen bytes are accepted exactly when the encoder writes them for some message; the
receiver then has the id and the length of that message, and the size that it goes on to ask
for meets the assertion of `MemPool::Get`. -/
structure HeaderContract (P : MemSource) (v : MemView) (bs : List UInt8) : Prop where
  accepts_iff : ∀ b h, Loaded b bs →
    ((decodeMsgHeader b h).1 = true ↔ ∃ m, EncodesHeader P v bs m)
  fields : ∀ b h m, Loaded b bs → (decodeMsgHeader b h).1 = true → EncodesHeader P v bs m →
    (decodeMsgHeader b h).2 = ⟨messageMagicNo, m.id, m.payload.length⟩
  request_pos : ∀ w sock a, Filling w.headerBuffer a headerSize bs →
    (parseHeader w sock).rc = true →
      ∀ size ∈ (parseHeader w sock).worker.payloadRequest, 0 < size

/-- After a complete header `Recv` goes on to the payload exactly when the header is
accepted. -/
theorem parseHeader_complete {w : Worker} {a : Nat} (sock : Socket)
    (hfill : Filling w.headerBuffer a headerSize bs) (hlen : bs.length = headerSize)
    (hrc : (parseHeader w sock).rc = true) :
    (decodeMsgHeader w.headerBuffer w.header).1 = true ∧
      (parseHeader w sock).worker.payloadRequest =
        some (decodeMsgHeader w.headerBuffer w.header).2.len := by
  have hfull : w.headerBuffer.availableLength = w.headerBuffer.totalLength := by
    rw [hfill.availableLength_eq, hfill.toSpans.totalLength_eq, hlen]
  cases hdecode : (decodeMsgHeader w.headerBuffer w.header).1 with
  | false => simp [parseHeader, hfull, hdecode] at hrc
  | true => simp [parseHeader, hfull, hdecode, Worker.payloadRequest]

/-- What is accepted has a length other than zero, unless it is a header with the length
zero. -/
theorem accepted_nonempty (hlen : bs.length = headerSize)
    (hnonzero : ∀ id < 2 ^ 64, bs ≠ headerBytes id 0) {h : Header} (hb : Loaded b bs)
    (haccept : (decodeMsgHeader b h).1 = true) :
    ∃ id len, id < 2 ^ 64 ∧ 1 ≤ len ∧ len ≤ maxMsgPayloadSize ∧ bs = headerBytes id len := by
  obtain ⟨id, len, hid, hle, hbs⟩ := (decodeMsgHeader_accepts_iff h hb hlen).1 haccept
  refine ⟨id, len, hid, Nat.pos_of_ne_zero ?_, hle, hbs⟩
  rintro rfl
  exact hnonzero id hid hbs

/-- For every sixteen bytes, what is accepted is what the encoder writes, with its id and
length, and the block that is asked for has a size that the pool allows, exactly when they are
not a header with the length zero. -/
theorem header_contract_iff (P : MemSource) (v : MemView) (bs : List UInt8)
    (hlen : bs.length = headerSize) :
    HeaderContract P v bs ↔ ∀ id < 2 ^ 64, bs ≠ headerBytes id 0 := by
  constructor
  · rintro hcontract id hid rfl
    have hloaded : Loaded (Buffer.holding (headerBytes id 0)) (headerBytes id 0) :=
      Buffer.holding_loaded (by rw [hlen]; decide) (by rw [hlen]; decide)
    have haccept := (decodeMsgHeader_accepts_iff ⟨0, 0, 0⟩ hloaded hlen).2
      ⟨id, 0, hid, Nat.zero_le _, rfl⟩
    obtain ⟨m, hm⟩ := (hcontract.accepts_iff _ ⟨0, 0, 0⟩ hloaded).1 haccept
    exact not_encodesHeader_zero hid hm
  · intro hnonzero
    refine ⟨?_, ?_, ?_⟩
    · intro b h hb
      constructor
      · intro haccept
        obtain ⟨id, len, hid, hpos, hle, hbs⟩ := accepted_nonempty hlen hnonzero hb haccept
        obtain ⟨m, -, rfl, rfl⟩ := exists_message .unset _ _ hid (lt_of_le_of_lt hle (by decide))
        exact ⟨m, encodesHeader_iff.2 ⟨⟨hpos, hle⟩, hbs⟩⟩
      · rintro ⟨m, hm⟩
        obtain ⟨hencodable, hbs⟩ := encodesHeader_iff.1 hm
        exact (decodeMsgHeader_accepts_iff h hb hlen).2
          ⟨m.id, m.payload.length, m.id_lt, hencodable.2, hbs⟩
    · intro b h m hb _ hm
      obtain ⟨hencodable, rfl⟩ := encodesHeader_iff.1 hm
      rw [decodeMsgHeader_loaded h hb m.id_lt hencodable.2]
    · intro w sock a hfill hrc size hsize
      obtain ⟨haccept, hrequest⟩ := parseHeader_complete sock hfill hlen hrc
      obtain ⟨id, len, hid, hpos, hle, rfl⟩ :=
        accepted_nonempty hlen hnonzero hfill.loaded haccept
      rw [hrequest, decodeMsgHeader_loaded w.header hfill.loaded hid hle,
        Option.mem_some_iff] at hsize
      exact hsize ▸ hpos

/-- A header of three bytes of payload. -/
theorem header_contract_iff_three_bytes :
    (headerBytes 7 3).length = headerSize ∧
      HeaderContract pagePool ⟨0, []⟩ (headerBytes 7 3) := by
  have hlen : (headerBytes 7 3).length = headerSize := length_headerBytes 7 3
  refine ⟨hlen, (header_contract_iff pagePool ⟨0, []⟩ _ hlen).2 ?_⟩
  intro id _ heq
  have hparts := (List.append_inj' heq rfl).2
  revert hparts
  decide

/-- A header with the id seven and the length zero is accepted, no message is encoded to it,
and `Recv` goes on to ask for a block of no bytes. -/
theorem empty_header_accepted :
    ∃ b r, Loaded b (headerBytes 7 0) ∧
      decodeMsgHeader b ⟨0, 0, 0⟩ = (true, ⟨messageMagicNo, 7, 0⟩) ∧
      (¬ ∃ m, EncodesHeader pagePool ⟨0, []⟩ (headerBytes 7 0) m) ∧
      recvStep pagePool (fun _ s => s) false (Worker.create pagePool .unset .unset)
        ⟨headerBytes 7 0, [.transfer 16], [], []⟩ = some r ∧
      r.rc = true ∧ r.worker.payloadRequest = some 0 := by
  have hloaded : Loaded (Buffer.holding (headerBytes 7 0)) (headerBytes 7 0) :=
    Buffer.holding_loaded (by decide) (by decide)
  have hdecode := decodeMsgHeader_loaded ⟨0, 0, 0⟩ hloaded (by norm_num) (Nat.zero_le _)
  have hround : (recvStep pagePool (fun _ s => s) false (Worker.create pagePool .unset .unset)
      ⟨headerBytes 7 0, [.transfer 16], [], []⟩).map
        (fun r => (r.rc, r.worker.payloadRequest)) = some (true, some 0) := by
    decide +kernel
  obtain ⟨r, hr, hview⟩ := Option.map_eq_some_iff.1 hround
  obtain ⟨hrc, hrequest⟩ := Prod.mk.inj hview
  refine ⟨_, r, hloaded, hdecode, ?_, hr, hrc, hrequest⟩
  rintro ⟨m, hm⟩
  exact not_encodesHeader_zero (by norm_num) hm

end Decoding

end Net
end CCraft
