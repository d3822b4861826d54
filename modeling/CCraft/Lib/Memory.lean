import Mathlib.Data.List.Basic
import Mathlib.Tactic

/-!
# Byte memory

A block of memory is a function from addresses to bytes.  Reading a range gives
a list of bytes and writing a list overwrites the range it covers.

Main results:

- Theorem {lit}`read_write_self`: reading back a written range gives the written
  bytes.
- Theorem {lit}`read_write_of_disjoint`: a write leaves every disjoint range
  alone.
- Theorem {lit}`read_add`: adjacent ranges are read one after the other.
-/

/-- The contents of memory, one byte for each address. -/
abbrev Mem := Nat → UInt8

namespace Memory

variable {m : Mem} {a b n k i : Nat} {bs : List UInt8}

/-- The `n` bytes that start at address `a`. -/
def read (m : Mem) (a n : Nat) : List UInt8 :=
  (List.range n).map fun i => m (a + i)

/-- Overwrite the range that starts at `a` with the given bytes. -/
def write (m : Mem) (a : Nat) (bs : List UInt8) : Mem :=
  fun i => if a ≤ i then (bs[i - a]?).getD (m i) else m i

/-- Set the `n` bytes from `a` on to zero. -/
def zero (m : Mem) (a n : Nat) : Mem :=
  fun i => if a ≤ i ∧ i < a + n then 0 else m i

@[simp]
theorem length_read : (read m a n).length = n := by
  simp [read]

@[simp]
theorem read_zero : read m a 0 = [] :=
  rfl

/-- Adjacent ranges are read one after the other. -/
theorem read_add : read m a (n + k) = read m a n ++ read m (a + n) k := by
  simp only [read, List.range_add, List.map_append, List.map_map]
  congr 1
  apply List.map_congr_left
  intro i _
  simp [Nat.add_assoc]

/-- Reading depends only on the bytes in the range. -/
theorem read_congr {m' : Mem} (h : ∀ i, a ≤ i → i < a + n → m i = m' i) :
    read m a n = read m' a n := by
  unfold read
  apply List.map_congr_left
  intro i hi
  have hlt : i < n := List.mem_range.mp hi
  exact h (a + i) (by omega) (by omega)

theorem read_eq_replicate (h : ∀ i, a ≤ i → i < a + n → m i = 0) :
    read m a n = List.replicate n 0 := by
  apply List.eq_replicate_iff.2
  refine ⟨length_read, ?_⟩
  intro x hx
  obtain ⟨i, hi, rfl⟩ := List.mem_map.1 hx
  have hlt : i < n := List.mem_range.1 hi
  exact h (a + i) (by omega) (by omega)

theorem write_of_lt (h : i < a) : write m a bs i = m i := by
  simp [write, Nat.not_le.mpr h]

theorem write_of_ge (h : a + bs.length ≤ i) : write m a bs i = m i := by
  unfold write
  split
  · rw [List.getElem?_eq_none (by omega)]
    rfl
  · rfl

/-- Reading back a written range gives the written bytes. -/
theorem read_write_self (m : Mem) (a : Nat) (bs : List UInt8) :
    read (write m a bs) a bs.length = bs := by
  apply List.ext_getElem
  · simp
  · intro i h₁ h₂
    simp [read, write, h₂]

/-- A write leaves every range disjoint from it alone. -/
theorem read_write_of_disjoint (h : a + n ≤ b ∨ b + bs.length ≤ a) :
    read (write m b bs) a n = read m a n := by
  apply read_congr
  intro i hlo hhi
  rcases h with h | h
  · exact write_of_lt (by omega)
  · exact write_of_ge (by omega)

/-- A write extends what has been read just before it. -/
theorem read_write_extend (m : Mem) (bs : List UInt8) (hb : b = a + n) :
    read (write m b bs) a (n + bs.length) = read m a n ++ bs := by
  rw [read_add, ← hb, read_write_self, read_write_of_disjoint (Or.inl (by omega))]

end Memory
