import Mathlib.Data.List.Induction
import Mathlib.Tactic

/-!
# Big-endian byte strings

Unsigned integers as byte strings of a fixed width, most significant byte first.

Main results:

- Theorem {lit}`decode_encode`: decoding an encoded number gives the number
  modulo the range of the width.
- Theorem {lit}`encode_decode`: every byte string is the encoding of its value.
-/

namespace BigEndian

/-- The `w` low bytes of `n`, most significant first. -/
def encode : Nat → Nat → List UInt8
  | 0, _ => []
  | w + 1, n => encode w (n / 256) ++ [UInt8.ofNat n]

/-- The number that a byte string stands for. -/
def decode (bs : List UInt8) : Nat :=
  bs.foldl (fun n b => n * 256 + b.toNat) 0

@[simp]
theorem length_encode (w n : Nat) : (encode w n).length = w := by
  induction w generalizing n with
  | zero => rfl
  | succ w ih => simp [encode, ih]

@[simp]
theorem decode_nil : decode [] = 0 :=
  rfl

@[simp]
theorem decode_append_singleton (bs : List UInt8) (b : UInt8) :
    decode (bs ++ [b]) = decode bs * 256 + b.toNat := by
  simp [decode]

/-- Decoding an encoded number gives the number modulo the range of the width. -/
theorem decode_encode (w n : Nat) : decode (encode w n) = n % 256 ^ w := by
  induction w generalizing n with
  | zero => simp [encode, Nat.mod_one]
  | succ w ih =>
    have hbyte : (UInt8.ofNat n).toNat = n % 256 := by simp
    rw [encode, decode_append_singleton, ih, hbyte, Nat.pow_succ', Nat.mod_mul]
    ring

theorem decode_encode_of_lt {w n : Nat} (h : n < 256 ^ w) : decode (encode w n) = n := by
  rw [decode_encode, Nat.mod_eq_of_lt h]

/-- Every byte string is the encoding of its value. -/
theorem encode_decode (bs : List UInt8) : encode bs.length (decode bs) = bs := by
  induction bs using List.reverseRecOn with
  | nil => rfl
  | append_singleton bs b ih =>
    have hlt : b.toNat < 256 := b.toNat_lt
    have hdiv : (decode bs * 256 + b.toNat) / 256 = decode bs := by omega
    have hlow : UInt8.ofNat (decode bs * 256 + b.toNat) = b := by
      apply UInt8.toNat_inj.mp
      simp
    rw [List.length_append, List.length_singleton, encode, decode_append_singleton,
      hdiv, ih, hlow]

end BigEndian
