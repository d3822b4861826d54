import CCraft.Lib.Memory

/-!
# Reads and writes that may be short

The system calls `read`, `pread` and `write` on a regular file.  A call may transfer less than it
was asked for, and it may fail.  It transfers nothing only when there is nothing to transfer.  How
much a call transfers is up to the system, so the answers to a sequence of calls are a parameter,
with what is promised about them as fields.

Main results:

- Theorem {lit}`Holds.write`: a piece of a file that is put behind the previous ones extends the
  part that an array holds.
- Theorem {lit}`Holds.read_eq`: what an array holds when nothing is left to transfer.
- Theorem {lit}`overwrite_overwrite`: adjacent writes are one write.
-/

namespace SystemCalls

/-! ## Reading -/

/-- A regular file, whose size is an `off_t`. -/
structure File where
  bytes : List UInt8
  length_lt : bytes.length < 2 ^ 63

/-- The answers to the reads from a file.  Call number `k`, for `count` bytes from `offset` on,
returns -1 or the number of bytes it has transferred, and zero only at the end of the file. -/
structure Reads (bytes : List UInt8) where
  answer : Nat → Nat → Nat → Int
  answer_ge : ∀ k offset count, -1 ≤ answer k offset count
  answer_le : ∀ k offset count, answer k offset count ≤ (min count (bytes.length - offset) : Nat)
  answer_ne_zero : ∀ k offset count, 0 < count → offset < bytes.length →
    answer k offset count ≠ 0

namespace Reads

variable {bytes : List UInt8} (calls : Reads bytes) (k offset count : Nat)

/-- None of the reads fails. -/
def Succeed : Prop :=
  ∀ k offset count, calls.answer k offset count ≠ -1

/-- The bytes that a call transfers. -/
def data : List UInt8 :=
  (bytes.drop offset).take (calls.answer k offset count).toNat

/-- A read that transfers nothing is at the end of the file, or asks for nothing. -/
theorem answer_eq_zero (h : calls.answer k offset count = 0) :
    count = 0 ∨ bytes.length ≤ offset := by
  by_contra hnot
  push Not at hnot
  exact calls.answer_ne_zero k offset count (Nat.pos_of_ne_zero hnot.1) hnot.2 h

/-- What a read transfers when a list bounds the first calls, each by one more than its entry. -/
def limitedCount (bytes : List UInt8) (limits : List Nat) (k offset count : Nat) : Nat :=
  min ((limits[k]?).elim count Nat.succ) (min count (bytes.length - offset))

theorem limitedCount_ge (bytes : List UInt8) (limits : List Nat) (k offset count : Nat) :
    (-1 : Int) ≤ limitedCount bytes limits k offset count := by
  omega

theorem limitedCount_le (bytes : List UInt8) (limits : List Nat) (k offset count : Nat) :
    (limitedCount bytes limits k offset count : Int) ≤
      (min count (bytes.length - offset) : Nat) := by
  unfold limitedCount
  omega

theorem limitedCount_ne_zero (bytes : List UInt8) (limits : List Nat) (k offset count : Nat)
    (hcount : 0 < count) (hoffset : offset < bytes.length) :
    (limitedCount bytes limits k offset count : Int) ≠ 0 := by
  unfold limitedCount
  cases limits[k]? with
  | none =>
    simp only [Option.elim_none]
    omega
  | some limit =>
    simp only [Option.elim_some]
    omega

/-- The reads with these answers. -/
def limited (bytes : List UInt8) (limits : List Nat) : Reads bytes where
  answer k offset count := limitedCount bytes limits k offset count
  answer_ge := limitedCount_ge bytes limits
  answer_le := limitedCount_le bytes limits
  answer_ne_zero := limitedCount_ne_zero bytes limits

theorem limited_succeed (bytes : List UInt8) (limits : List Nat) :
    (limited bytes limits).Succeed := by
  intro k offset count
  have hge : (0 : Int) ≤ (limited bytes limits).answer k offset count := Int.natCast_nonneg _
  omega

end Reads

/-- An array of `size` bytes holds the first `got` bytes of a list, and zeros behind them. -/
structure Holds (bytes : List UInt8) (mem : Mem) (size got : Nat) : Prop where
  le_size : got ≤ size
  le_length : got ≤ bytes.length
  front : Memory.read mem 0 got = bytes.take got
  back : ∀ i, got ≤ i → i < size → mem i = 0

section Holds

variable {bytes : List UInt8} {mem : Mem} {size got n : Nat}

theorem holds_zero (bytes : List UInt8) (mem : Mem) (size : Nat) :
    Holds bytes (Memory.zero mem 0 size) size 0 := by
  refine ⟨Nat.zero_le _, Nat.zero_le _, rfl, ?_⟩
  intro i _ hi
  simp [Memory.zero, hi]

/-- A piece that is put behind the others extends what the array holds. -/
theorem Holds.write (h : Holds bytes mem size got) (hsize : got + n ≤ size)
    (hlength : got + n ≤ bytes.length) :
    Holds bytes (Memory.write mem got ((bytes.drop got).take n)) size (got + n) := by
  have hlen : ((bytes.drop got).take n).length = n := by
    rw [List.length_take, List.length_drop]
    omega
  refine ⟨hsize, hlength, ?_, ?_⟩
  · have hextend := Memory.read_write_extend mem ((bytes.drop got).take n) (Nat.zero_add got).symm
    rw [hlen] at hextend
    rw [hextend, h.front, List.take_add]
  · intro i hi hlt
    rw [Memory.write_of_ge (by omega)]
    exact h.back i (by omega) hlt

/-- When everything that fits is there, the array holds a beginning of the list and zeros. -/
theorem Holds.read_eq (h : Holds bytes mem size (min size bytes.length)) :
    Memory.read mem 0 size = bytes.take size ++ List.replicate (size - bytes.length) 0 := by
  have hzeros : Memory.read mem (min size bytes.length) (size - bytes.length) =
      List.replicate (size - bytes.length) 0 := by
    apply Memory.read_eq_replicate
    intro i hi hlt
    exact h.back i hi (by omega)
  have hsplit : size = min size bytes.length + (size - bytes.length) := by omega
  calc Memory.read mem 0 size
      = Memory.read mem 0 (min size bytes.length + (size - bytes.length)) := by rw [← hsplit]
    _ = bytes.take (min size bytes.length) ++ List.replicate (size - bytes.length) 0 := by
        rw [Memory.read_add, h.front, Nat.zero_add, hzeros]
    _ = bytes.take size ++ List.replicate (size - bytes.length) 0 := by
        rw [← List.take_eq_take_min]

end Holds

/-! ## Writing -/

/-- The answers to the writes to a file: call number `k`, for `count` bytes, returns -1 or the
number of bytes it has transferred, and zero only if it is asked for nothing. -/
structure Writes where
  answer : Nat → Nat → Int
  answer_ge : ∀ k count, -1 ≤ answer k count
  answer_le : ∀ k count, answer k count ≤ count
  answer_ne_zero : ∀ k count, 0 < count → answer k count ≠ 0

/-- None of the writes fails. -/
def Writes.Succeed (calls : Writes) : Prop :=
  ∀ k count, calls.answer k count ≠ -1

/-- A file after bytes have been written at an offset.  A gap behind its end is filled with
zeros, and writing nothing does not fill it. -/
def overwrite (file : List UInt8) (offset : Nat) (bytes : List UInt8) : List UInt8 :=
  if bytes = [] then file
  else
    (file ++ List.replicate (offset - file.length) 0).take offset ++ bytes ++
      file.drop (offset + bytes.length)

section Overwrite

variable {file xs ys : List UInt8} {offset : Nat}

@[simp]
theorem overwrite_nil : overwrite file offset [] = file :=
  if_pos rfl

theorem overwrite_of_ne_nil (hxs : xs ≠ []) :
    overwrite file offset xs =
      (file ++ List.replicate (offset - file.length) 0).take offset ++ xs ++
        file.drop (offset + xs.length) :=
  if_neg hxs

/-- Adjacent writes are one write. -/
theorem overwrite_overwrite (file xs ys : List UInt8) (offset : Nat) :
    overwrite (overwrite file offset xs) (offset + xs.length) ys =
      overwrite file offset (xs ++ ys) := by
  by_cases hxs : xs = []
  · simp [hxs]
  by_cases hys : ys = []
  · simp [hys]
  · rw [overwrite_of_ne_nil hys, overwrite_of_ne_nil (List.append_ne_nil_of_left_ne_nil hxs ys),
      overwrite_of_ne_nil hxs]
    -- what precedes the second write is what the first one leaves up to its end
    set front := (file ++ List.replicate (offset - file.length) 0).take offset ++ xs with hfront
    have hlength : front.length = offset + xs.length := by
      rw [hfront, List.length_append, List.length_take, List.length_append, List.length_replicate]
      omega
    have hgap : offset + xs.length - (front ++ file.drop (offset + xs.length)).length = 0 := by
      rw [List.length_append]
      omega
    have hrest : (front ++ file.drop (offset + xs.length)).drop (offset + xs.length + ys.length) =
        file.drop (offset + (xs ++ ys).length) := by
      rw [← hlength, List.drop_length_add_append, List.drop_drop, hlength, List.length_append,
        Nat.add_assoc]
    rw [hgap, List.replicate_zero, List.append_nil, List.take_left' hlength, hrest, hfront]
    simp only [List.append_assoc]

/-- Inside the file or right behind its end there is no gap. -/
theorem overwrite_of_le (hle : offset ≤ file.length) :
    overwrite file offset xs = file.take offset ++ xs ++ file.drop (offset + xs.length) := by
  by_cases hxs : xs = []
  · simp [hxs]
  · rw [overwrite_of_ne_nil hxs, Nat.sub_eq_zero_of_le hle, List.replicate_zero, List.append_nil]

end Overwrite

end SystemCalls
