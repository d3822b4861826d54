import Mathlib.Data.List.Basic
import Mathlib.Tactic

/-!
# Tagged fields on the wire

A message is written as a sequence of fields.  Each field starts with a tag, which
holds the number of the field and its wire type, and is followed by a base-128 integer
or by a byte string that starts with its length.

Main results:

- Theorem {lit}`decodeVarint_encodeVarint`: an integer is read back, and the bytes that
  follow it are left.
- Theorem {lit}`exists_encodeVarint_mix`: integers of one length that are overwritten only in
  part leave the bytes of an integer.
- Theorem {lit}`decode_encode`: a sequence of fields is read back.
- Theorem {lit}`readFields_encode_append`: so is a field in front of any bytes, by a reader that
  stops where it can not go on.
-/

namespace WireFormat

/-! ## Base-128 integers -/

/-- Seven bits a byte, least significant first; the high bit says that more follow. -/
def encodeVarint (n : Nat) : List UInt8 :=
  if n < 128 then [UInt8.ofNat n]
  else UInt8.ofNat (n % 128 + 128) :: encodeVarint (n / 128)

/-- The integer at the head of a byte string and what follows it. -/
def decodeVarint : List UInt8 → Option (Nat × List UInt8)
  | [] => none
  | b :: bs =>
    if b.toNat < 128 then some (b.toNat, bs)
    else (decodeVarint bs).map fun (n, rest) => (n * 128 + b.toNat % 128, rest)

theorem encodeVarint_of_lt {n : Nat} (h : n < 128) : encodeVarint n = [UInt8.ofNat n] := by
  rw [encodeVarint, if_pos h]

theorem encodeVarint_of_ge {n : Nat} (h : 128 ≤ n) :
    encodeVarint n = UInt8.ofNat (n % 128 + 128) :: encodeVarint (n / 128) := by
  rw [encodeVarint, if_neg (by omega)]

/-- An integer is read back, and the bytes that follow it are left. -/
@[simp]
theorem decodeVarint_encodeVarint (n : Nat) (rest : List UInt8) :
    decodeVarint (encodeVarint n ++ rest) = some (n, rest) := by
  induction n using Nat.strongRecOn with
  | ind n ih =>
    rcases Nat.lt_or_ge n 128 with hlt | hge
    · have hbyte : (UInt8.ofNat n).toNat = n := by simp; omega
      simp [encodeVarint_of_lt hlt, decodeVarint, hbyte, hlt]
    · have hbyte : (UInt8.ofNat (n % 128 + 128)).toNat = n % 128 + 128 := by simp; omega
      have hhigh : ¬ n % 128 + 128 < 128 := by omega
      have hvalue : n / 128 * 128 + (n % 128 + 128) % 128 = n := by omega
      rw [encodeVarint_of_ge hge, List.cons_append, decodeVarint, hbyte, if_neg hhigh,
        ih (n / 128) (by omega)]
      simp only [Option.map_some, hvalue]

theorem encodeVarint_length_pos (n : Nat) : 1 ≤ (encodeVarint n).length := by
  rw [encodeVarint]
  split_ifs <;> simp

/-- An integer of `k + 1` groups of seven bits takes at most as many bytes. -/
theorem encodeVarint_length_le {n k : Nat} (h : n < 128 ^ (k + 1)) :
    (encodeVarint n).length ≤ k + 1 := by
  induction k generalizing n with
  | zero => simp [encodeVarint_of_lt (by simpa using h)]
  | succ k ih =>
    rcases Nat.lt_or_ge n 128 with hlt | hge
    · simp [encodeVarint_of_lt hlt]
    · have hquot : n / 128 < 128 ^ (k + 1) := by
        rw [pow_succ] at h
        exact Nat.div_lt_of_lt_mul (by rw [mul_comm]; exact h)
      have hrest := ih hquot
      rw [encodeVarint_of_ge hge, List.length_cons]
      omega

/-- A larger integer does not take fewer bytes. -/
theorem encodeVarint_length_mono {m n : Nat} (h : m ≤ n) :
    (encodeVarint m).length ≤ (encodeVarint n).length := by
  induction n using Nat.strongRecOn generalizing m with
  | ind n ih =>
    rcases Nat.lt_or_ge m 128 with hlt | hge
    · rw [encodeVarint_of_lt hlt]
      exact encodeVarint_length_pos n
    · have hn : 128 ≤ n := hge.trans h
      have hquot := ih (n / 128) (by omega) (Nat.div_le_div_right h)
      rw [encodeVarint_of_ge hge, encodeVarint_of_ge hn]
      exact Nat.succ_le_succ hquot

theorem encodeVarint_length_eq_one {n : Nat} : (encodeVarint n).length = 1 ↔ n < 128 := by
  constructor
  · intro hlen
    by_contra hge
    have hpos := encodeVarint_length_pos (n / 128)
    rw [encodeVarint_of_ge (by omega), List.length_cons] at hlen
    omega
  · intro hlt
    simp [encodeVarint_of_lt hlt]

/-- The first bytes of one integer and the last bytes of another one of the same length are the
bytes of an integer. -/
theorem exists_encodeVarint_mix {m n e : Nat} (k : Nat)
    (hlen : (encodeVarint m).length = (encodeVarint n).length) (hm : m < 2 ^ e)
    (hn : n < 2 ^ e) (hm0 : m ≠ 0) (hn0 : n ≠ 0) :
    ∃ j, j ≠ 0 ∧ j < 2 ^ e ∧
      encodeVarint j = (encodeVarint n).take k ++ (encodeVarint m).drop k := by
  induction n using Nat.strongRecOn generalizing m e k with
  | ind n ih =>
    cases k with
    | zero => exact ⟨m, hm0, hm, by simp⟩
    | succ k =>
      rcases Nat.lt_or_ge n 128 with hlt | hge
      · have hone := hlen.trans (encodeVarint_length_eq_one.2 hlt)
        have hmlt := encodeVarint_length_eq_one.1 hone
        exact ⟨n, hn0, hn, by simp [encodeVarint_of_lt hlt, encodeVarint_of_lt hmlt]⟩
      · have hmge : 128 ≤ m := by
          by_contra hmlt
          have hone := encodeVarint_length_eq_one.2 (show m < 128 by omega)
          have := encodeVarint_length_eq_one.1 (hlen.symm.trans hone)
          omega
        rw [encodeVarint_of_ge hge, encodeVarint_of_ge hmge, List.length_cons, List.length_cons,
          Nat.add_right_cancel_iff] at hlen
        obtain ⟨d, rfl⟩ : ∃ d, e = d + 7 := by
          refine ⟨e - 7, ?_⟩
          by_contra hne
          have hpow : (2 : Nat) ^ e ≤ 2 ^ 7 := Nat.pow_le_pow_right (by omega) (by omega)
          omega
        rw [pow_add] at hm hn
        obtain ⟨j, hj0, hj, hbytes⟩ := ih (n / 128) (by omega) (e := d) k hlen (by omega)
          (by omega) (by omega) (by omega)
        -- the low group of the first integer above the mix of the rest
        refine ⟨j * 128 + n % 128, by omega, ?_, ?_⟩
        · rw [pow_add]
          omega
        · have hlow : (j * 128 + n % 128) % 128 = n % 128 := by omega
          have hhigh : (j * 128 + n % 128) / 128 = j := by omega
          rw [encodeVarint_of_ge (show 128 ≤ j * 128 + n % 128 by omega), hlow, hhigh, hbytes,
            encodeVarint_of_ge hge, encodeVarint_of_ge hmge, List.take_succ_cons,
            List.drop_succ_cons, List.cons_append]

/-! ## Fields -/

/-- A field with its number: an integer or a byte string. -/
inductive Field where
  | varint (number value : Nat)
  | bytes (number : Nat) (value : List UInt8)
deriving DecidableEq, Repr

/-- A field on the wire; the low three bits of the tag are the wire type. -/
def Field.encode : Field → List UInt8
  | .varint number value => encodeVarint (number * 8) ++ encodeVarint value
  | .bytes number value =>
    encodeVarint (number * 8 + 2) ++ (encodeVarint value.length ++ value)

/-- The field at the head of a byte string and what follows it.  Field number zero and
the other wire types are refused, and so is a byte string that is cut off. -/
def Field.decode (bs : List UInt8) : Option (Field × List UInt8) :=
  match decodeVarint bs with
  | none => none
  | some (tag, bs) =>
    if tag / 8 = 0 then none
    else
      match decodeVarint bs with
      | none => none
      | some (n, rest) =>
        if tag % 8 = 0 then some (.varint (tag / 8) n, rest)
        else if tag % 8 = 2 ∧ n ≤ rest.length then
          some (.bytes (tag / 8) (rest.take n), rest.drop n)
        else none

/-- The number of a field. -/
def Field.number : Field → Nat
  | .varint number _ => number
  | .bytes number _ => number

/-- Fields are written one after the other. -/
def encode (fields : List Field) : List UInt8 :=
  fields.flatMap Field.encode

/-- At most `fuel` fields are read until the byte string is used up. -/
def decodeFields : Nat → List UInt8 → Option (List Field)
  | _, [] => some []
  | 0, _ :: _ => none
  | fuel + 1, bs =>
    match Field.decode bs with
    | none => none
    | some (f, rest) => (decodeFields fuel rest).map (f :: ·)

/-- Read fields until the byte string is used up. -/
def decode (bs : List UInt8) : Option (List Field) :=
  decodeFields bs.length bs

/-- A field is read back, and the bytes that follow it are left. -/
theorem Field.decode_encode {f : Field} (hf : 1 ≤ f.number) (rest : List UInt8) :
    Field.decode (f.encode ++ rest) = some (f, rest) := by
  cases f with
  | varint number value =>
    have hnumber : number ≠ 0 := by simpa [Field.number, Nat.one_le_iff_ne_zero] using hf
    simp [Field.decode, Field.encode, hnumber]
  | bytes number value =>
    have hnumber : (number * 8 + 2) / 8 = number := by omega
    have htype : (number * 8 + 2) % 8 = 2 := by omega
    have hpos : number ≠ 0 := by simpa [Field.number, Nat.one_le_iff_ne_zero] using hf
    simp [Field.decode, Field.encode, hnumber, htype, hpos]

theorem Field.encode_length_pos (f : Field) : 1 ≤ f.encode.length := by
  cases f with
  | varint number value =>
    have htag := encodeVarint_length_pos (number * 8)
    simp only [Field.encode, List.length_append]
    omega
  | bytes number value =>
    have htag := encodeVarint_length_pos (number * 8 + 2)
    simp only [Field.encode, List.length_append]
    omega

/-- With a unit of fuel for every byte all the fields are read back. -/
theorem decodeFields_encode {fields : List Field} (hf : ∀ f ∈ fields, 1 ≤ f.number) {fuel : Nat}
    (hfuel : (encode fields).length ≤ fuel) : decodeFields fuel (encode fields) = some fields := by
  induction fields generalizing fuel with
  | nil => cases fuel <;> rfl
  | cons f fields ih =>
    have hpos := f.encode_length_pos
    have hcons : encode (f :: fields) = f.encode ++ encode fields := rfl
    rw [hcons, List.length_append] at hfuel
    obtain ⟨fuel, rfl⟩ : ∃ k, fuel = k + 1 := ⟨fuel - 1, by omega⟩
    obtain ⟨b, bs, hbytes⟩ : ∃ b bs, f.encode ++ encode fields = b :: bs :=
      List.exists_cons_of_length_pos (by rw [List.length_append]; omega)
    rw [hcons, hbytes, decodeFields, ← hbytes, Field.decode_encode (hf f (by simp))]
    · simp only
      rw [ih (fun g hg => hf g (by simp [hg])) (by omega), Option.map_some]
    · simp

/-- A sequence of fields is read back. -/
theorem decode_encode {fields : List Field} (hf : ∀ f ∈ fields, 1 ≤ f.number) :
    decode (encode fields) = some fields :=
  decodeFields_encode hf (Nat.le_refl _)

/-! ## Reading as far as possible -/

/-- At most `fuel` fields, up to the first one that can not be read. -/
def readUpTo : Nat → List UInt8 → List Field
  | 0, _ => []
  | fuel + 1, bs =>
    match Field.decode bs with
    | none => []
    | some (f, rest) => f :: readUpTo fuel rest

/-- The fields at the head of a byte string, up to the first one that can not be read. -/
def readFields (bs : List UInt8) : List Field :=
  readUpTo bs.length bs

theorem decodeVarint_length {bs rest : List UInt8} {n : Nat}
    (h : decodeVarint bs = some (n, rest)) : rest.length < bs.length := by
  induction bs generalizing n with
  | nil => cases h
  | cons b bs ih =>
    unfold decodeVarint at h
    split_ifs at h
    · cases h
      simp
    · obtain ⟨⟨m, rest'⟩, hm, hrest⟩ := Option.map_eq_some_iff.1 h
      cases hrest
      exact (ih hm).trans (Nat.lt_succ_self _)

/-- A field takes at least one byte. -/
theorem Field.decode_length {f : Field} {bs rest : List UInt8}
    (h : Field.decode bs = some (f, rest)) : rest.length < bs.length := by
  unfold Field.decode at h
  split at h
  · cases h
  · rename_i tag front htag
    have hfront := decodeVarint_length htag
    by_cases hzero : tag / 8 = 0
    · rw [if_pos hzero] at h
      cases h
    rw [if_neg hzero] at h
    cases hn : decodeVarint front with
    | none =>
      rw [hn] at h
      cases h
    | some r =>
      obtain ⟨n, behind⟩ := r
      have hbehind := decodeVarint_length hn
      simp only [hn] at h
      split_ifs at h <;> cases h
      · omega
      · rw [List.length_drop]
        omega

/-- A unit of fuel for every byte is enough. -/
theorem readUpTo_of_le {bs : List UInt8} {fuel : Nat} (hfuel : bs.length ≤ fuel) :
    readUpTo fuel bs = readFields bs := by
  induction fuel using Nat.strongRecOn generalizing bs with
  | ind fuel ih =>
    unfold readFields
    rcases Nat.eq_or_lt_of_le hfuel with hlen | hlt
    · rw [hlen]
    obtain ⟨fuel, rfl⟩ : ∃ k, fuel = k + 1 := ⟨fuel - 1, by omega⟩
    cases hdecode : Field.decode bs with
    | none => cases hlen : bs.length <;> simp [readUpTo, hdecode]
    | some r =>
      obtain ⟨f, rest⟩ := r
      have hrest := Field.decode_length hdecode
      obtain ⟨n, hn⟩ : ∃ n, bs.length = n + 1 := ⟨bs.length - 1, by omega⟩
      rw [hn]
      simp only [readUpTo, hdecode]
      rw [ih fuel (by omega) (by omega), ih n (by omega) (by omega)]

/-- A field is read, whatever follows it. -/
theorem readFields_encode_append {f : Field} (hf : 1 ≤ f.number) (rest : List UInt8) :
    readFields (f.encode ++ rest) = f :: readFields rest := by
  have hpos := f.encode_length_pos
  obtain ⟨n, hn⟩ : ∃ n, (f.encode ++ rest).length = n + 1 := by
    refine ⟨(f.encode ++ rest).length - 1, ?_⟩
    rw [List.length_append]
    omega
  have hrest : rest.length ≤ n := by
    rw [List.length_append] at hn
    omega
  rw [readFields, hn, readUpTo, Field.decode_encode hf, ← readUpTo_of_le hrest]

end WireFormat
