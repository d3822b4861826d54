import CCraft.Common.Codec

/-!
# Wire integers on both kinds of hosts

The codecs of `codec-utils.cc` on a host of either byte order.  `LittleEndianCodecUtils` moves
the bytes with shifts, which do not depend on the host.  `BigEndianCodecUtils` copies the bytes
that the integer has in memory and reads an integer through a pointer to the buffer, so its
bytes are those of the host.  `ByteOrderUtils` is the first class on a little-endian host and
the second on a big-endian one.

Main results:

- Theorems {lit}`objectBytes_eq_encode` and {lit}`objectValue_eq_decode`: the memory of a
  big-endian host holds an integer as the shifts write it.
- Theorem {lit}`wire_integers_byte_order_independent`: each class reads back what it has
  written and writes back what it has read, and the two kinds of hosts put the same bytes on the
  wire.
-/

namespace CCraft
namespace Common

/-! ## Integers in the memory of a host -/

/-- `BYTE_ORDER` of the host. -/
inductive ByteOrder where
  | littleEndian
  | bigEndian
deriving DecidableEq, Repr

/-- The bytes in memory of an unsigned integer of `w` bytes, from the lowest address on. -/
def objectBytes : ByteOrder → Nat → Nat → List UInt8
  | .littleEndian, w, n => (List.range w).map fun i => uchar (n >>> (8 * i))
  | .bigEndian, w, n => (List.range w).map fun i => uchar (n >>> (8 * (w - 1 - i)))

/-- The value of the unsigned integer that has the given bytes in memory. -/
def objectValue : ByteOrder → List UInt8 → Nat
  | .littleEndian, bs => bs.foldr (fun b n => 256 * n + b.toNat) 0
  | .bigEndian, bs => bs.foldl (fun n b => 256 * n + b.toNat) 0

/-! ## The second codec class -/

namespace BigEndianCodecUtils

/-- The common shape of the three write functions: `NTOC` for every byte. -/
def writeUInt (host : ByteOrder) (w : Nat) (m : Mem) (buf n : Nat) : Mem :=
  Memory.write m buf (objectBytes host w n)

/-- The common shape of the three read functions: the integer that the pointer points to. -/
def readUInt (host : ByteOrder) (w : Nat) (m : Mem) (buf : Nat) : Nat :=
  objectValue host (Memory.read m buf w)

/-- `BigEndianCodecUtils::WriteUInt16`. -/
def writeUInt16 (host : ByteOrder) (m : Mem) (buf n : Nat) : Mem := writeUInt host 2 m buf n

/-- `BigEndianCodecUtils::WriteUInt32`. -/
def writeUInt32 (host : ByteOrder) (m : Mem) (buf n : Nat) : Mem := writeUInt host 4 m buf n

/-- `BigEndianCodecUtils::WriteUInt64`. -/
def writeUInt64 (host : ByteOrder) (m : Mem) (buf n : Nat) : Mem := writeUInt host 8 m buf n

/-- `BigEndianCodecUtils::ReadUInt16`. -/
def readUInt16 (host : ByteOrder) (m : Mem) (buf : Nat) : Nat := readUInt host 2 m buf

/-- `BigEndianCodecUtils::ReadUInt32`. -/
def readUInt32 (host : ByteOrder) (m : Mem) (buf : Nat) : Nat := readUInt host 4 m buf

/-- `BigEndianCodecUtils::ReadUInt64`. -/
def readUInt64 (host : ByteOrder) (m : Mem) (buf : Nat) : Nat := readUInt host 8 m buf

end BigEndianCodecUtils

/-! ## The two classes behind one name -/

/-- The two codec classes. -/
inductive CodecClass where
  | littleEndianCodecUtils
  | bigEndianCodecUtils
deriving DecidableEq, Repr

/-- The widths of the wire integers. -/
inductive UIntWidth where
  | uint16
  | uint32
  | uint64
deriving DecidableEq, Repr

/-- `sizeof` of the integer type. -/
def UIntWidth.size : UIntWidth → Nat
  | .uint16 => 2
  | .uint32 => 4
  | .uint64 => 8

/-- `WriteUInt16`, `WriteUInt32` and `WriteUInt64` of a class on a host. -/
def CodecClass.write (host : ByteOrder) : CodecClass → UIntWidth → Mem → Nat → Nat → Mem
  | .littleEndianCodecUtils, .uint16 => LittleEndianCodecUtils.writeUInt16
  | .littleEndianCodecUtils, .uint32 => LittleEndianCodecUtils.writeUInt32
  | .littleEndianCodecUtils, .uint64 => LittleEndianCodecUtils.writeUInt64
  | .bigEndianCodecUtils, .uint16 => BigEndianCodecUtils.writeUInt16 host
  | .bigEndianCodecUtils, .uint32 => BigEndianCodecUtils.writeUInt32 host
  | .bigEndianCodecUtils, .uint64 => BigEndianCodecUtils.writeUInt64 host

/-- `ReadUInt16`, `ReadUInt32` and `ReadUInt64` of a class on a host. -/
def CodecClass.read (host : ByteOrder) : CodecClass → UIntWidth → Mem → Nat → Nat
  | .littleEndianCodecUtils, .uint16 => LittleEndianCodecUtils.readUInt16
  | .littleEndianCodecUtils, .uint32 => LittleEndianCodecUtils.readUInt32
  | .littleEndianCodecUtils, .uint64 => LittleEndianCodecUtils.readUInt64
  | .bigEndianCodecUtils, .uint16 => BigEndianCodecUtils.readUInt16 host
  | .bigEndianCodecUtils, .uint32 => BigEndianCodecUtils.readUInt32 host
  | .bigEndianCodecUtils, .uint64 => BigEndianCodecUtils.readUInt64 host

/-- `ByteOrderUtils`, the class that a host compiles in. -/
def byteOrderUtils : ByteOrder → CodecClass
  | .littleEndian => .littleEndianCodecUtils
  | .bigEndian => .bigEndianCodecUtils

/-- The bytes that a class writes on a host for an integer of `w` bytes. -/
def CodecClass.bytes (host : ByteOrder) : CodecClass → Nat → Nat → List UInt8
  | .littleEndianCodecUtils, w, n => storeBytes w n
  | .bigEndianCodecUtils, w, n => objectBytes host w n

/-- The value that a class reads on a host from the bytes of an integer. -/
def CodecClass.value (host : ByteOrder) : CodecClass → List UInt8 → Nat
  | .littleEndianCodecUtils, bs => loadBytes bs.length bs
  | .bigEndianCodecUtils, bs => objectValue host bs

theorem CodecClass.write_eq (host : ByteOrder) (cls : CodecClass) (width : UIntWidth) (m : Mem)
    (buf n : Nat) :
    cls.write host width m buf n = Memory.write m buf (cls.bytes host width.size n) := by
  cases cls <;> cases width <;> rfl

theorem CodecClass.read_eq (host : ByteOrder) (cls : CodecClass) (width : UIntWidth) (m : Mem)
    (buf : Nat) : cls.read host width m buf = cls.value host (Memory.read m buf width.size) := by
  cases cls <;> cases width <;> rfl

/-! ## The memory of the hosts and the shifts -/

theorem length_objectBytes (host : ByteOrder) (w n : Nat) : (objectBytes host w n).length = w := by
  cases host <;> simp [objectBytes]

/-- A big-endian host keeps an integer in memory as the shifts write it. -/
theorem objectBytes_eq_encode (w n : Nat) :
    objectBytes .bigEndian w n = BigEndian.encode w n := by
  induction w generalizing n with
  | zero => rfl
  | succ w ih =>
    have hlast : uchar (n >>> (8 * (w + 1 - 1 - w))) = UInt8.ofNat n := by simp [uchar]
    have hfirst : (List.range w).map (fun i => uchar (n >>> (8 * (w + 1 - 1 - i)))) =
        objectBytes .bigEndian w (n / 256) := by
      apply List.map_congr_left
      intro i hi
      have hlt : i < w := List.mem_range.mp hi
      have hshift : 8 * (w + 1 - 1 - i) = 8 + 8 * (w - 1 - i) := by omega
      rw [hshift, Nat.shiftRight_add, Nat.shiftRight_eq_div_pow n 8]
    rw [BigEndian.encode, ← ih, ← hfirst, ← hlast]
    simp [objectBytes, List.range_succ]

/-- A little-endian host keeps the bytes of an integer the other way round. -/
theorem objectBytes_littleEndian (w n : Nat) :
    objectBytes .littleEndian w n = (BigEndian.encode w n).reverse := by
  rw [← objectBytes_eq_encode]
  apply List.ext_getElem
  · simp [objectBytes]
  · intro i hi _
    have hlt : i < w := by simpa [objectBytes] using hi
    have hpos : w - 1 - (w - 1 - i) = i := by omega
    simp [objectBytes, hpos]

/-- What the bytes in memory stand for, in terms of the bytes of a big-endian host. -/
theorem objectValue_eq_decode (bs : List UInt8) :
    objectValue .bigEndian bs = BigEndian.decode bs ∧
      objectValue .littleEndian bs = BigEndian.decode bs.reverse := by
  constructor
  · simp only [objectValue, BigEndian.decode, Nat.mul_comm]
  · simp only [objectValue, BigEndian.decode, Nat.mul_comm, List.foldl_reverse]

/-! ## The round trips of one class -/

theorem CodecClass.length_bytes (host : ByteOrder) (cls : CodecClass) (w n : Nat) :
    (cls.bytes host w n).length = w := by
  cases cls with
  | littleEndianCodecUtils => exact length_storeBytes w n
  | bigEndianCodecUtils => exact length_objectBytes host w n

/-- The bytes of a value that fits the width stand for the value. -/
theorem CodecClass.value_bytes (host : ByteOrder) (cls : CodecClass) {w n : Nat}
    (h : n < 256 ^ w) : cls.value host (cls.bytes host w n) = n := by
  cases cls with
  | littleEndianCodecUtils =>
    simp only [value, bytes, length_storeBytes]
    rw [loadBytes_eq_decode (by simp), storeBytes_eq_encode, BigEndian.decode_encode_of_lt h]
  | bigEndianCodecUtils =>
    cases host with
    | littleEndian =>
      rw [value, bytes, objectBytes_littleEndian, (objectValue_eq_decode _).2,
        List.reverse_reverse, BigEndian.decode_encode_of_lt h]
    | bigEndian =>
      rw [value, bytes, objectBytes_eq_encode, (objectValue_eq_decode _).1,
        BigEndian.decode_encode_of_lt h]

/-- Every byte string is the one of its value. -/
theorem CodecClass.bytes_value (host : ByteOrder) (cls : CodecClass) (bs : List UInt8) :
    cls.bytes host bs.length (cls.value host bs) = bs := by
  cases cls with
  | littleEndianCodecUtils =>
    rw [value, bytes, loadBytes_eq_decode (le_refl _), storeBytes_eq_encode,
      BigEndian.encode_decode]
  | bigEndianCodecUtils =>
    cases host with
    | littleEndian =>
      rw [value, bytes, objectBytes_littleEndian, (objectValue_eq_decode _).2,
        ← List.length_reverse, BigEndian.encode_decode, List.reverse_reverse]
    | bigEndian =>
      rw [value, bytes, objectBytes_eq_encode, (objectValue_eq_decode _).1,
        BigEndian.encode_decode]

theorem CodecClass.read_write (host : ByteOrder) (cls : CodecClass) (width : UIntWidth)
    (m : Mem) (buf : Nat) {n : Nat} (h : n < 256 ^ width.size) :
    cls.read host width (cls.write host width m buf n) buf = n := by
  have hself := Memory.read_write_self m buf (cls.bytes host width.size n)
  rw [cls.length_bytes] at hself
  rw [cls.read_eq, cls.write_eq, hself, cls.value_bytes host h]

theorem CodecClass.write_read (host : ByteOrder) (cls : CodecClass) (width : UIntWidth)
    (m : Mem) (buf : Nat) :
    Memory.read (cls.write host width m buf (cls.read host width m buf)) buf width.size =
      Memory.read m buf width.size := by
  have hback := cls.bytes_value host (Memory.read m buf width.size)
  rw [Memory.length_read] at hback
  have hself := Memory.read_write_self m buf (Memory.read m buf width.size)
  rw [Memory.length_read] at hself
  rw [cls.write_eq, cls.read_eq, hback, hself]

/-! ## Two hosts -/

/-- Whatever its byte order, a host puts the big-endian bytes on the wire. -/
theorem byteOrderUtils_bytes (host : ByteOrder) (w n : Nat) :
    (byteOrderUtils host).bytes host w n = BigEndian.encode w n := by
  cases host with
  | littleEndian => exact storeBytes_eq_encode w n
  | bigEndian => exact objectBytes_eq_encode w n

theorem byteOrderUtils_write (writer reader : ByteOrder) (width : UIntWidth) (m : Mem)
    (buf n : Nat) :
    (byteOrderUtils writer).write writer width m buf n =
      (byteOrderUtils reader).write reader width m buf n := by
  rw [CodecClass.write_eq, CodecClass.write_eq, byteOrderUtils_bytes, byteOrderUtils_bytes]

/-- Each codec class reads back the values it has written and writes back the bytes it has
read, on hosts of both byte orders; the first class on a little-endian host and the second on a
big-endian host write the same bytes, and each host reads the integers of the other. -/
theorem wire_integers_byte_order_independent (width : UIntWidth) (n : Fin (256 ^ width.size))
    (m : Mem) (buf : Nat) :
    (∀ (cls : CodecClass) (host : ByteOrder),
      cls.read host width (cls.write host width m buf n) buf = n ∧
        Memory.read (cls.write host width m buf (cls.read host width m buf)) buf width.size =
          Memory.read m buf width.size) ∧
      CodecClass.littleEndianCodecUtils.write .littleEndian width m buf n =
        CodecClass.bigEndianCodecUtils.write .bigEndian width m buf n ∧
      ∀ writer reader : ByteOrder,
        (byteOrderUtils reader).read reader width
          ((byteOrderUtils writer).write writer width m buf n) buf = n := by
  refine ⟨?_, byteOrderUtils_write .littleEndian .bigEndian width m buf n, ?_⟩
  · intro cls host
    exact ⟨cls.read_write host width m buf n.isLt, cls.write_read host width m buf⟩
  · intro writer reader
    rw [byteOrderUtils_write writer reader]
    exact (byteOrderUtils reader).read_write reader width m buf n.isLt

end Common
end CCraft
