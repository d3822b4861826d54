import CCraft.Lib.Run
import Mathlib.Tactic

/-!
# The segmented vector

`SegmentedVector` keeps its elements in segments of `2 ^ n` elements, with `m_iSegmentSize` set
to `2 ^ n - 1` as the mask for the position in a segment.  `push_back` moves a pair of segment
and position and fills a segment completely; `operator[]` divides by the mask instead of the
size.  `init` sets the pair to the last segment, not the first.

Indexing outside of a segment or of the table is undefined in the source: here `operator[]`
answers with the fault, and a vector remembers whether an element has been pushed outside of the
table.

Main results:

- Theorem {lit}`FirstSegment.step`: as long as the elements fit into the first segment but one
  place, and it is the only segment, the vector holds them there.
- Theorem {lit}`segmented_vector_behaves_iff`: the vector behaves as a vector along a run exactly
  when this is so at each `push_back`.
-/

namespace CCraft
namespace Common

open Runs

/-! ## The vector -/

/-- `CommonUtils::IsPowerOfTwo` for a value of 32 bits that is converted to `int`. -/
def isPowerOfTwo (x : Nat) : Bool :=
  0 < x ∧ x < 2 ^ 31 ∧ x &&& (x - 1) = 0

/-- The members of `SegmentedVector`, and whether an element was pushed outside of the table. -/
structure SegmentedVector (T : Type) where
  segmentSize : Nat
  expandSegmentNum : Nat
  segments : List (List T)
  segmentsMaxIdx : Int
  nextElementShouldUsedIdx : Nat × Nat
  size : Nat
  strayed : Bool
deriving DecidableEq, Repr

/-- What can go wrong in `operator[]`. -/
inductive IndexFault where
  | divisionByZero
  | outsideTable
  | outsideSegment
deriving DecidableEq, Repr

/-- An expansion count of 32 bits, at least one. -/
abbrev ExpandNum := { e : Nat // 1 ≤ e ∧ e < 2 ^ 32 }

/-- The constructors, with the exponent of the segment size; the count of the segments to
reserve is not used by any of them. -/
inductive VectorCtor where
  | default
  | sized (n : Fin 32)
  | reserving (n : Fin 32) (reserveSegmentsCnt : Nat)
  | expanding (n : Fin 32) (reserveSegmentsCnt : Nat) (expendSegNumber : ExpandNum)
deriving DecidableEq

namespace SegmentedVector

variable {T : Type}

/-- `alloc_new_segments`. -/
def allocNewSegments (v : SegmentedVector T) : SegmentedVector T :=
  { v with
    segments := v.segments ++ List.replicate v.expandSegmentNum []
    segmentsMaxIdx := v.segmentsMaxIdx + v.expandSegmentNum }

/-- `init`; the index of the last segment is converted to 32 bits. -/
def init (v : SegmentedVector T) : SegmentedVector T :=
  { v with
    size := 0
    nextElementShouldUsedIdx := ((v.segmentsMaxIdx % 2 ^ 32).toNat, 0) }

/-- The common end of the constructors. -/
def construct (segmentSize expandSegmentNum : Nat) : SegmentedVector T :=
  (allocNewSegments ⟨segmentSize, expandSegmentNum, [], -1, (0, 0), 0, false⟩).init

/-- A constructor with a segment size, which stops at a failed assertion. -/
def constructSized (asserts : Bool) (n : Fin 32) (expandSegmentNum : Nat) :
    Option (SegmentedVector T) :=
  if asserts ∧ isPowerOfTwo (2 ^ n.val) = false then none
  else some (construct (2 ^ n.val - 1) expandSegmentNum)

/-- The constructors. -/
def new (asserts : Bool) : VectorCtor → Option (SegmentedVector T)
  | .default => some (construct 127 1)
  | .sized n => constructSized asserts n 1
  | .reserving n _ => constructSized asserts n 1
  | .expanding n _ e => constructSized asserts n e

/-- `operator[]`. -/
def get (v : SegmentedVector T) (index : Nat) : Except IndexFault T :=
  if v.segmentSize = 0 then .error .divisionByZero
  else
    let segIdx := index / v.segmentSize
    let inSegIdx := index &&& v.segmentSize
    match v.segments[segIdx]? with
    | none => .error .outsideTable
    | some segment =>
      match segment[inSegIdx]? with
      | none => .error .outsideSegment
      | some element => .ok element

/-- The pair moves on to the place of the next element. -/
def moveOn (v : SegmentedVector T) : SegmentedVector T :=
  if v.segmentSize < v.nextElementShouldUsedIdx.2 then
    let v := if v.segmentsMaxIdx = v.nextElementShouldUsedIdx.1 then v.allocNewSegments else v
    { v with nextElementShouldUsedIdx := ((v.nextElementShouldUsedIdx.1 + 1) % 2 ^ 32, 1) }
  else
    { v with nextElementShouldUsedIdx :=
        (v.nextElementShouldUsedIdx.1, (v.nextElementShouldUsedIdx.2 + 1) % 2 ^ 32) }

/-- `push_back`. -/
def pushBack (v : SegmentedVector T) (element : T) : SegmentedVector T :=
  let v := moveOn { v with size := (v.size + 1) % 2 ^ 32 }
  { v with
    segments := v.segments.modify v.nextElementShouldUsedIdx.1 (· ++ [element])
    strayed := v.strayed || decide (v.segments.length ≤ v.nextElementShouldUsedIdx.1) }

/-- `clear`. -/
def clear (v : SegmentedVector T) : SegmentedVector T :=
  let v := v.init
  { v with segments := v.segments.map fun _ => [] }

/-- Within a segment only the position moves on. -/
theorem moveOn_of_le {v : SegmentedVector T} (h : v.nextElementShouldUsedIdx.2 ≤ v.segmentSize) :
    v.moveOn = { v with nextElementShouldUsedIdx :=
      (v.nextElementShouldUsedIdx.1, (v.nextElementShouldUsedIdx.2 + 1) % 2 ^ 32) } := by
  rw [moveOn, if_neg (Nat.not_lt.2 h)]

end SegmentedVector

/-! ## The vector beside the list of its elements -/

/-- The operations. -/
inductive VectorOp (T : Type) where
  | pushBack (element : T)
  | clear
deriving DecidableEq, Repr

variable {T : Type}

/-- One operation on the vector and on the list of the elements since the last `clear`. -/
def vectorStep (s : SegmentedVector T × List T) : VectorOp T → Option (SegmentedVector T × List T)
  | .pushBack element => some (s.1.pushBack element, s.2 ++ [element])
  | .clear => some (s.1.clear, [])

/-- The size is the number of the elements, each of them is found under its index, and nothing
has been pushed outside of the table. -/
structure IsVector (s : SegmentedVector T × List T) : Prop where
  size : s.1.size = s.2.length
  get : ∀ i element, s.2[i]? = some element → s.1.get i = .ok element
  inside : s.1.strayed = false

/-- There is a vector, and it behaves as one along the operations. -/
def BehavesAsVector (asserts : Bool) (ctor : VectorCtor) (ops : List (VectorOp T)) : Prop :=
  ∃ v, SegmentedVector.new asserts ctor = some v ∧ Always vectorStep IsVector (v, []) ops

/-- A new element finds room in the first segment, and that is the only one; one place of the
segment does not count. -/
def RoomInFirst (s : SegmentedVector T × List T) : VectorOp T → Prop
  | .pushBack _ => s.1.expandSegmentNum = 1 ∧ s.1.size < s.1.segmentSize
  | .clear => True

instance (s : SegmentedVector T × List T) : ∀ a, Decidable (RoomInFirst s a)
  | .pushBack _ =>
    inferInstanceAs (Decidable (s.1.expandSegmentNum = 1 ∧ s.1.size < s.1.segmentSize))
  | .clear => isTrue trivial

/-! ## The elements in the last segment -/

variable {s s' : SegmentedVector T × List T} {a : VectorOp T}

/-- The table has as many segments as one expansion gives; all but the last are empty, and the
last one has the elements.  There are elements only when it is the first one as well. -/
structure FirstSegment (s : SegmentedVector T × List T) : Prop where
  mask : ∃ n : Fin 32, s.1.segmentSize = 2 ^ n.val - 1
  expand : 1 ≤ s.1.expandSegmentNum ∧ s.1.expandSegmentNum < 2 ^ 32
  maxIdx : s.1.segmentsMaxIdx = s.1.expandSegmentNum - 1
  next : s.1.nextElementShouldUsedIdx = (s.1.expandSegmentNum - 1, s.2.length)
  segments : s.1.segments = List.replicate (s.1.expandSegmentNum - 1) [] ++ [s.2]
  size : s.1.size = s.2.length
  only : s.2 ≠ [] → s.1.expandSegmentNum = 1
  room : s.2.length ≤ s.1.segmentSize
  inside : s.1.strayed = false

namespace FirstSegment

theorem segmentSize_lt (h : FirstSegment s) : s.1.segmentSize < 2 ^ 31 := by
  obtain ⟨n, hn⟩ := h.mask
  have hle : 2 ^ n.val ≤ 2 ^ 31 := Nat.pow_le_pow_right (by decide) (by omega)
  have hpos : 0 < 2 ^ n.val := Nat.two_pow_pos _
  omega

/-- The index of the last segment fits into 32 bits. -/
theorem maxIdx_toNat (h : FirstSegment s) :
    (s.1.segmentsMaxIdx % 2 ^ 32).toNat = s.1.expandSegmentNum - 1 := by
  have hexpand := h.expand
  rw [h.maxIdx]
  omega

/-- The constructors leave an empty vector. -/
theorem construct (n : Fin 32) {e : Nat} (he : 1 ≤ e ∧ e < 2 ^ 32) :
    FirstSegment (SegmentedVector.construct (T := T) (2 ^ n.val - 1) e, []) := by
  have hidx : (((-1 : Int) + e) % 2 ^ 32).toNat = e - 1 := by omega
  have hsplit : List.replicate e ([] : List T) = List.replicate (e - 1) [] ++ [[]] := by
    rw [← List.replicate_succ']
    congr 1
    omega
  refine ⟨⟨n, rfl⟩, he, ?_, ?_, ?_, rfl, fun hne => absurd rfl hne, Nat.zero_le _, rfl⟩
  · simp only [SegmentedVector.construct, SegmentedVector.init, SegmentedVector.allocNewSegments]
    omega
  · simp only [SegmentedVector.construct, SegmentedVector.init, SegmentedVector.allocNewSegments,
      hidx, List.length_nil]
  · simp only [SegmentedVector.construct, SegmentedVector.init, SegmentedVector.allocNewSegments,
      List.nil_append, hsplit]

theorem clear (h : FirstSegment s) : FirstSegment (s.1.clear, []) := by
  refine ⟨h.mask, h.expand, h.maxIdx, ?_, ?_, rfl, fun hne => absurd rfl hne, Nat.zero_le _,
    h.inside⟩
  · simp only [SegmentedVector.clear, SegmentedVector.init, h.maxIdx_toNat, List.length_nil]
  · simp [SegmentedVector.clear, SegmentedVector.init, h.segments]

theorem modify_last (k : Nat) (l : List T) (f : List T → List T) :
    (List.replicate k [] ++ [l]).modify k f = List.replicate k [] ++ [f l] := by
  induction k with
  | zero => rfl
  | succ k ih =>
    rw [List.replicate_succ, List.cons_append, List.modify_succ_cons, ih]
    rfl

/-- An element is appended to the last segment. -/
theorem pushBack_eq (h : FirstSegment s) (element : T) :
    s.1.pushBack element = { s.1 with
      size := s.2.length + 1
      nextElementShouldUsedIdx := (s.1.expandSegmentNum - 1, s.2.length + 1)
      segments := List.replicate (s.1.expandSegmentNum - 1) [] ++ [s.2 ++ [element]] } := by
  have hlt := h.segmentSize_lt
  have hroom := h.room
  have hfits : s.2.length + 1 < 4294967296 := by omega
  have hposition : s.1.nextElementShouldUsedIdx.2 ≤ s.1.segmentSize := by
    rw [h.next]
    exact hroom
  rw [SegmentedVector.pushBack, SegmentedVector.moveOn_of_le]
  · simp [h.next, h.size, h.segments, h.inside, hfits, modify_last]
  · exact hposition

/-- The elements are found as long as they are all in the first segment. -/
theorem isVector (h : FirstSegment s) : IsVector s := by
  refine ⟨h.size, ?_, h.inside⟩
  intro i element hi
  obtain ⟨n, hn⟩ := h.mask
  have hlt : i < s.2.length := (List.getElem?_eq_some_iff.1 hi).1
  have hne : s.2 ≠ [] := List.ne_nil_of_length_pos (by omega)
  have hroom := h.room
  have hseg : i / s.1.segmentSize = 0 := Nat.div_eq_of_lt (by omega)
  have hin : i &&& s.1.segmentSize = i := by
    rw [hn, Nat.and_two_pow_sub_one_eq_mod, Nat.mod_eq_of_lt (by omega)]
  have hzero : s.1.segmentSize ≠ 0 := by omega
  simp [SegmentedVector.get, hzero, hseg, hin, h.segments, h.only hne, hi]

/-- An element that fits into the first segment but one place is found there. -/
theorem pushBack (h : FirstSegment s) {element : T} (honly : s.1.expandSegmentNum = 1)
    (hroom : s.1.size < s.1.segmentSize) :
    FirstSegment (s.1.pushBack element, s.2 ++ [element]) := by
  have hlen : (s.2 ++ [element]).length = s.2.length + 1 := by simp
  rw [h.size] at hroom
  rw [h.pushBack_eq]
  exact ⟨h.mask, h.expand, h.maxIdx, by rw [hlen], rfl, hlen.symm, fun _ => honly,
    by rw [hlen]; exact hroom, h.inside⟩

/-- An element behind another segment, or at the last place of the first one, is not found. -/
theorem not_isVector_pushBack (h : FirstSegment s) {element : T}
    (hfull : ¬ (s.1.expandSegmentNum = 1 ∧ s.1.size < s.1.segmentSize)) :
    ¬ IsVector (s.1.pushBack element, s.2 ++ [element]) := by
  intro hvector
  have hget := hvector.get s.2.length element (by simp)
  rw [h.pushBack_eq] at hget
  have hexpand := h.expand
  have hroom := h.room
  have hsize := h.size
  by_cases hzero : s.1.segmentSize = 0
  · simp [SegmentedVector.get, hzero] at hget
  by_cases hone : s.1.expandSegmentNum = 1
  · have hlast : s.2.length = s.1.segmentSize := by omega
    have hseg : s.1.segmentSize / s.1.segmentSize = 1 := Nat.div_self (by omega)
    simp [SegmentedVector.get, hzero, hone, hlast, hseg] at hget
  · have hempty : s.2 = [] := by
      by_contra hne
      exact hone (h.only hne)
    obtain ⟨e, he⟩ : ∃ e, s.1.expandSegmentNum - 1 = e + 1 := ⟨s.1.expandSegmentNum - 2, by omega⟩
    simp [SegmentedVector.get, hzero, hempty, he, List.replicate_succ] at hget

/-- One operation with room in the first segment. -/
theorem step (h : FirstSegment s) (hguard : RoomInFirst s a)
    (hstep : vectorStep s a = some s') : FirstSegment s' := by
  cases a with
  | pushBack element =>
    cases hstep
    exact h.pushBack hguard.1 hguard.2
  | clear =>
    cases hstep
    exact h.clear

end FirstSegment

/-! ## Whole runs -/

theorem isPowerOfTwo_two_pow (n : Nat) : isPowerOfTwo (2 ^ n) = true ↔ n < 31 := by
  have hmask : 2 ^ n &&& (2 ^ n - 1) = 0 := by
    rw [Nat.and_two_pow_sub_one_eq_mod, Nat.mod_self]
  have hlt : 2 ^ n < 2 ^ 31 ↔ n < 31 := Nat.pow_lt_pow_iff_right (by decide)
  simp only [isPowerOfTwo, hlt, hmask, Nat.two_pow_pos, and_true, true_and, decide_eq_true_eq]

/-- A constructor stops only for a segment size of `2 ^ 31`, which is negative as an `int`. -/
theorem constructSized_eq_some {asserts : Bool} {n : Fin 32} {e : Nat} {v : SegmentedVector T} :
    SegmentedVector.constructSized asserts n e = some v ↔
      (asserts = true → n.val < 31) ∧ SegmentedVector.construct (2 ^ n.val - 1) e = v := by
  have hpower := isPowerOfTwo_two_pow n.val
  rw [SegmentedVector.constructSized, ← hpower]
  cases asserts <;> simp

/-- The constructors leave an empty vector. -/
theorem new_firstSegment {asserts : Bool} {ctor : VectorCtor} {v : SegmentedVector T}
    (hnew : SegmentedVector.new asserts ctor = some v) : FirstSegment (v, []) := by
  cases ctor with
  | default =>
    cases hnew
    exact .construct 7 (by decide)
  | sized n | reserving n =>
    obtain ⟨-, rfl⟩ := constructSized_eq_some.1 hnew
    exact .construct n (by decide)
  | expanding n reserveSegmentsCnt e =>
    obtain ⟨-, rfl⟩ := constructSized_eq_some.1 hnew
    exact .construct n e.2

theorem run_vectorStep (s : SegmentedVector T × List T) (ops : List (VectorOp T)) :
    ∃ t, run vectorStep s ops = some t := by
  induction ops generalizing s with
  | nil => exact ⟨s, rfl⟩
  | cons a ops ih =>
    cases a with
    | pushBack | clear => exact ih _

/-- For every constructor and every sequence of operations, the vector behaves as a vector
exactly when it can be made and each element finds room in the first segment. -/
theorem segmented_vector_behaves_iff (asserts : Bool) (ctor : VectorCtor)
    (ops : List (VectorOp T)) :
    BehavesAsVector asserts ctor ops ↔
      ∃ v, SegmentedVector.new asserts ctor = some v ∧
        Guarded vectorStep RoomInFirst (v, []) ops := by
  refine exists_congr fun v => and_congr_right fun hnew => ?_
  obtain ⟨t, hrun⟩ := run_vectorStep (v, []) ops
  refine always_iff_guarded (I := FirstSegment) (Q := fun _ => True) ?_ ?_ ?_
    (new_firstSegment hnew) (fun _ _ => trivial) hrun
  · intro s a s' hfirst _ hguard hstep
    exact hfirst.step hguard hstep
  · intro s hfirst
    exact hfirst.isVector
  · intro s a s' hfirst _ hguard hstep
    cases a with
    | pushBack element =>
      cases hstep
      exact hfirst.not_isVector_pushBack hguard
    | clear => exact absurd trivial hguard

/-- Three elements in a segment of four, then a new start. -/
theorem segmented_vector_behaves_three_of_four :
    BehavesAsVector true (.sized 2) [.pushBack 10, .pushBack 11, .pushBack 12, .clear,
      .pushBack 13] :=
  (segmented_vector_behaves_iff true (.sized 2) _).2 ⟨_, rfl, by decide⟩

/-- The last element of a full segment is looked for in the next one. -/
theorem last_of_segment_is_not_found :
    ¬ BehavesAsVector true (.sized 2) [.pushBack 10, .pushBack 11, .pushBack 12, .pushBack 13] ∧
      ∃ v s, SegmentedVector.new true (.sized 2) = some v ∧
        run vectorStep (v, []) [.pushBack 10, .pushBack 11, .pushBack 12, .pushBack 13] = some s ∧
        s.2[3]? = some 13 ∧ s.1.get 3 = .error .outsideTable := by
  refine ⟨?_, _, _, rfl, rfl, rfl, rfl⟩
  rintro ⟨v, ⟨⟩, halways⟩
  have hget := (halways.last rfl).get 3 13 rfl
  cases hget

end Common
end CCraft
