import CCraft.Lib.BigEndian
import CCraft.Lib.Memory

/-!
# Wire integers

The integer codecs of `codec-utils.cc` as a little-endian host runs them.  Every
width goes through the same two loops: a write stores the low byte of `n` at the
last address and shifts `n` right for each byte before it, a read shifts the
accumulator left and ors in one byte at a time.

Main results:

- Theorems {lit}`storeBytes_eq_encode` and {lit}`loadBytes_eq_decode`: the two
  loops are big-endian encoding and decoding.
-/

namespace CCraft
namespace Common

/-- The C cast `(uchar)n`. -/
def uchar (n : Nat) : UInt8 :=
  UInt8.ofNat n

/-- The bytes that `w` rounds of `buf[i] = (uchar)n; n >>= 8` leave behind, the
last round being the one for `buf[0]`. -/
def storeBytes : Nat → Nat → List UInt8
  | 0, _ => []
  | w + 1, n => storeBytes w (n >>> 8) ++ [uchar n]

/-- The value after `n <<= 8; n |= buf[i]` for every byte in turn, in an integer
of `w` bytes. -/
def loadBytes (w : Nat) (bs : List UInt8) : Nat :=
  bs.foldl (fun n b => ((n <<< 8) % 256 ^ w) ||| b.toNat) 0

/-- The common shape of the three write functions. -/
def writeUInt (w : Nat) (m : Mem) (buf n : Nat) : Mem :=
  Memory.write m buf (storeBytes w n)

/-- The common shape of the three read functions. -/
def readUInt (w : Nat) (m : Mem) (buf : Nat) : Nat :=
  loadBytes w (Memory.read m buf w)

namespace LittleEndianCodecUtils

/-- `LittleEndianCodecUtils::WriteUInt16`. -/
def writeUInt16 (m : Mem) (buf n : Nat) : Mem := writeUInt 2 m buf n

/-- `LittleEndianCodecUtils::WriteUInt32`. -/
def writeUInt32 (m : Mem) (buf n : Nat) : Mem := writeUInt 4 m buf n

/-- `LittleEndianCodecUtils::WriteUInt64`. -/
def writeUInt64 (m : Mem) (buf n : Nat) : Mem := writeUInt 8 m buf n

/-- `LittleEndianCodecUtils::ReadUInt16`. -/
def readUInt16 (m : Mem) (buf : Nat) : Nat := readUInt 2 m buf

/-- `LittleEndianCodecUtils::ReadUInt32`. -/
def readUInt32 (m : Mem) (buf : Nat) : Nat := readUInt 4 m buf

/-- `LittleEndianCodecUtils::ReadUInt64`. -/
def readUInt64 (m : Mem) (buf : Nat) : Nat := readUInt 8 m buf

end LittleEndianCodecUtils

/-- The write loop is big-endian encoding. -/
theorem storeBytes_eq_encode (w n : Nat) : storeBytes w n = BigEndian.encode w n := by
  induction w generalizing n with
  | zero => rfl
  | succ w ih => rw [storeBytes, BigEndian.encode, ih, Nat.shiftRight_eq_div_pow]; rfl

@[simp]
theorem length_storeBytes (w n : Nat) : (storeBytes w n).length = w := by
  rw [storeBytes_eq_encode, BigEndian.length_encode]

/-- One round of the read loop is one digit in base 256, as long as the digits
read so far leave room in the integer. -/
theorem loadBytes_step {w n : Nat} (b : UInt8) (h : n * 256 < 256 ^ w) :
    ((n <<< 8) % 256 ^ w) ||| b.toNat = n * 256 + b.toNat := by
  have hshift : n <<< 8 = n * 256 := by
    rw [Nat.shiftLeft_eq]
  rw [hshift, Nat.mod_eq_of_lt h, ← hshift]
  exact (Nat.shiftLeft_add_eq_or_of_lt b.toNat_lt n).symm

/-- The read loop is big-endian decoding for every string of at most `w` bytes. -/
theorem loadBytes_eq_decode {w : Nat} {bs : List UInt8} (h : bs.length ≤ w) :
    loadBytes w bs = BigEndian.decode bs := by
  induction bs using List.reverseRecOn with
  | nil => rfl
  | append_singleton bs b ih =>
    have hlen : bs.length + 1 ≤ w := by simpa using h
    have hlt : BigEndian.decode bs < 256 ^ bs.length := by
      rw [← BigEndian.encode_decode bs, BigEndian.decode_encode, BigEndian.length_encode]
      exact Nat.mod_lt _ (by positivity)
    have hroom : BigEndian.decode bs * 256 < 256 ^ w :=
      calc BigEndian.decode bs * 256 < 256 ^ bs.length * 256 := by omega
        _ = 256 ^ (bs.length + 1) := (Nat.pow_succ ..).symm
        _ ≤ 256 ^ w := Nat.pow_le_pow_right (by omega) hlen
    have ih' : loadBytes w bs = BigEndian.decode bs := ih (by omega)
    rw [BigEndian.decode_append_singleton, ← loadBytes_step b hroom, ← ih']
    simp [loadBytes]

theorem readUInt_eq_decode (w : Nat) (m : Mem) (buf : Nat) :
    readUInt w m buf = BigEndian.decode (Memory.read m buf w) := by
  exact loadBytes_eq_decode (by simp)

end Common
end CCraft
