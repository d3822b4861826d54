import CCraft.Lib.Slab
import Mathlib.Algebra.Order.Floor.Div
import Mathlib.Data.Nat.Bitwise

/-!
# Sizes and slots of the memory pool

The arithmetic of `MemPool`: rounding a request up to a slot, the size of the
block a slot grows by, and the objects a block is split into.  All of it is
`uint32_t` arithmetic in the source, except for the addresses.

Main results:

- Theorem {lit}`roundup_eq`: rounding up gives the next multiple of the footstep.
- Theorem {lit}`genExpandSlotPageSize_eq`: a block is the least number of pages
  that holds the wanted number of objects.
- Theorem {lit}`rounding_up_exact`: both give the least multiple that is not below
  their argument, wherever that is a 32-bit number.
- Definition {lit}`Config.carver`: the four kinds of slots as classes of a store
  that carves blocks into objects.
-/

namespace CCraft
namespace MemPool

open Slab

/-! ## Arithmetic -/

/-- A value kept in a `uint32_t`. -/
def u32 (n : Nat) : Nat :=
  n % 2 ^ 32

/-- A value kept in a `uintptr_t`. -/
def u64 (n : Nat) : Nat :=
  n % 2 ^ 64

theorem u32_of_lt {n : Nat} (h : n < 2 ^ 32) : u32 n = n :=
  Nat.mod_eq_of_lt h

theorem u64_of_lt {n : Nat} (h : n < 2 ^ 64) : u64 n = n :=
  Nat.mod_eq_of_lt h

/-- `roundup_to_the_next_highest_multiple_of_exponent2`. -/
def roundupToTheNextHighestMultipleOfExponent2 (x exponent : Nat) : Nat :=
  let lowTrue := u32 (x <<< (32 - exponent)) ^^^ 0
  if lowTrue = 0 then x
  else
    let multipleBase := u32 (2 <<< (exponent - 1))
    let mask := u32 ((0xFFFFFFFF >>> exponent) <<< exponent)
    u32 ((x &&& mask) + multipleBase)

/-- `convert_slot_obj_size_to_slot_idx`. -/
def convertSlotObjSizeToSlotIdx (size footstep : Nat) : Nat :=
  size / footstep

/-- `gen_expand_slot_page_size`. -/
def genExpandSlotPageSize (objSize expandObjCntFactor pageSize : Nat) : Nat :=
  let expandCalSize := u32 (objSize * expandObjCntFactor)
  let pageCnt := expandCalSize / pageSize
  let pageCnt := if expandCalSize % pageSize ≠ 0 then u32 (pageCnt + 1) else pageCnt
  u32 (pageCnt * pageSize)

/-- `split_mem_page`. -/
def splitMemPage (slotSize pagePv pageSize : Nat) : List Nat :=
  let cnt := pageSize / slotSize
  (List.range cnt).map fun i => u64 (pagePv + u32 (slotSize * i))

section Arithmetic

variable {x e : Nat}

/-- The low bits of a value, moved to the top of the word, vanish exactly when there
are none. -/
theorem lowTrue_eq_zero_iff (he : e ≤ 32) : u32 (x <<< (32 - e)) ^^^ 0 = 0 ↔ 2 ^ e ∣ x := by
  have hpow : 2 ^ 32 = 2 ^ e * 2 ^ (32 - e) := by rw [← pow_add]; congr 1; omega
  have hpos : 0 < 2 ^ (32 - e) := by positivity
  rw [Nat.xor_zero, u32, Nat.shiftLeft_eq, hpow, Nat.mul_mod_mul_right, Nat.mul_eq_zero,
    or_iff_left hpos.ne', Nat.dvd_iff_mod_eq_zero]

/-- Clearing the low bits of a word rounds it down. -/
theorem and_mask_eq (hx : x < 2 ^ 32) (he : e ≤ 32) :
    x &&& u32 ((0xFFFFFFFF >>> e) <<< e) = x / 2 ^ e * 2 ^ e := by
  have hpow : 2 ^ 32 = 2 ^ (32 - e) * 2 ^ e := by rw [← pow_add]; congr 1; omega
  have hpos : 0 < 2 ^ e := by positivity
  have hones : 0xFFFFFFFF >>> e = 2 ^ (32 - e) - 1 := by
    rw [Nat.shiftRight_eq_div_pow]
    have hle : 1 ≤ 2 ^ (32 - e) := Nat.one_le_two_pow
    refine Nat.div_eq_of_lt_le ?_ ?_
    · rw [Nat.sub_mul]
      omega
    · rw [Nat.sub_add_cancel hle]
      omega
  have hlt : (2 ^ (32 - e) - 1) <<< e < 2 ^ 32 := by
    rw [Nat.shiftLeft_eq, hpow]
    exact Nat.mul_lt_mul_of_pos_right (Nat.sub_lt Nat.one_le_two_pow Nat.one_pos) hpos
  rw [hones, u32_of_lt hlt, ← Nat.shiftRight_eq_div_pow, ← Nat.shiftLeft_eq]
  refine Nat.eq_of_testBit_eq ?_
  intro i
  simp only [Nat.testBit_and, Nat.testBit_shiftLeft, Nat.testBit_shiftRight,
    Nat.testBit_two_pow_sub_one]
  by_cases hei : e ≤ i
  · have hadd : e + (i - e) = i := by omega
    by_cases hi : i < 32
    · have : i - e < 32 - e := by omega
      simp [hei, hadd, this]
    · have hbit : x.testBit i = false :=
        Nat.testBit_lt_two_pow (lt_of_lt_of_le hx (Nat.pow_le_pow_right (by omega) (by omega)))
      simp [hadd, hbit]
  · simp [hei]

/-- Dividing and rounding up, by the remainder. -/
theorem add_sub_one_div {n p : Nat} (hp : 0 < p) :
    (n + p - 1) / p = if n % p = 0 then n / p else n / p + 1 := by
  have hdiv := Nat.div_add_mod n p
  have hmod := Nat.mod_lt n hp
  split_ifs with h
  · have hn : n + p - 1 = p * (n / p) + (p - 1) := by omega
    rw [hn, Nat.mul_add_div hp, Nat.div_eq_of_lt (show p - 1 < p by omega), add_zero]
  · have hn : n + p - 1 = p * (n / p + 1) + (n % p - 1) := by
      rw [Nat.mul_add]
      omega
    rw [hn, Nat.mul_add_div hp, Nat.div_eq_of_lt (show n % p - 1 < p by omega), add_zero]

/-- Dividing and rounding up leads to the least multiple that is not below a value. -/
theorem isLeast_multiple {n p : Nat} (hp : 0 < p) :
    IsLeast {m | p ∣ m ∧ n ≤ m} ((n + p - 1) / p * p) := by
  rw [← Nat.ceilDiv_eq_add_pred_div, Nat.mul_comm]
  constructor
  · exact ⟨Nat.dvd_mul_right p _, le_smul_ceilDiv hp⟩
  · rintro m ⟨⟨k, rfl⟩, hle⟩
    exact Nat.mul_le_mul_left p ((ceilDiv_le_iff_le_mul hp).2 hle)

/-- Rounding up gives the least multiple of `2 ^ e` that is not below the value. -/
theorem roundup_eq (he : 1 ≤ e) (he' : e ≤ 31) (hx : x + 2 ^ e ≤ 2 ^ 32) :
    roundupToTheNextHighestMultipleOfExponent2 x e = (x + 2 ^ e - 1) / 2 ^ e * 2 ^ e := by
  have hpos : 0 < 2 ^ e := by positivity
  have hbase : u32 (2 <<< (e - 1)) = 2 ^ e := by
    rw [Nat.shiftLeft_eq, ← pow_succ', Nat.sub_add_cancel he, u32_of_lt]
    exact Nat.pow_lt_pow_right (by norm_num) (by omega)
  have hle : x / 2 ^ e * 2 ^ e ≤ x := Nat.div_mul_le_self _ _
  simp only [roundupToTheNextHighestMultipleOfExponent2, lowTrue_eq_zero_iff (by omega : e ≤ 32),
    hbase, and_mask_eq (by omega : x < 2 ^ 32) (by omega : e ≤ 32), add_sub_one_div hpos,
    Nat.dvd_iff_mod_eq_zero]
  split_ifs with hmod
  · exact (Nat.div_mul_cancel (Nat.dvd_of_mod_eq_zero hmod)).symm
  · have hdiv := Nat.div_mul_le_self x (2 ^ e)
    have hne : x / 2 ^ e * 2 ^ e ≠ x := fun h => hmod (by rw [← h, Nat.mul_mod_left])
    rw [Nat.add_mul, one_mul, u32_of_lt (by omega)]

/-- The block size is the least multiple of the page size that holds the objects, if that is
a 32-bit number. -/
theorem genExpandSlotPageSize_eq_of_lt {s f p : Nat} (hp : 0 < p)
    (h : (s * f + p - 1) / p * p < 2 ^ 32) :
    genExpandSlotPageSize s f p = (s * f + p - 1) / p * p := by
  have hlt : s * f < 2 ^ 32 := lt_of_le_of_lt (isLeast_multiple hp).1.2 h
  rw [add_sub_one_div hp] at h ⊢
  simp only [genExpandSlotPageSize, u32_of_lt hlt]
  by_cases hmod : s * f % p = 0
  · simp only [hmod, ne_eq, not_true, if_false, if_true] at h ⊢
    exact u32_of_lt h
  · simp only [hmod, ne_eq, not_false_iff, if_false, if_true] at h ⊢
    -- the number of pages is not above the number of bytes
    have hcnt : s * f / p + 1 < 2 ^ 32 := lt_of_le_of_lt (Nat.le_mul_of_pos_right _ hp) h
    rw [u32_of_lt hcnt, u32_of_lt h]

/-- The same under a bound that is easier to check. -/
theorem genExpandSlotPageSize_eq {s f p : Nat} (hp : 0 < p) (h : s * f + p ≤ 2 ^ 32) :
    genExpandSlotPageSize s f p = (s * f + p - 1) / p * p := by
  apply genExpandSlotPageSize_eq_of_lt hp
  have hle : (s * f + p - 1) / p * p ≤ s * f + p - 1 := Nat.div_mul_le_self _ _
  omega

/-- A block holds the objects it was made for. -/
theorem le_genExpandSlotPageSize {s f p : Nat} (hp : 0 < p) (h : s * f + p ≤ 2 ^ 32) :
    s * f ≤ genExpandSlotPageSize s f p ∧ genExpandSlotPageSize s f p < s * f + p := by
  rw [genExpandSlotPageSize_eq hp h]
  have hle : (s * f + p - 1) / p * p ≤ s * f + p - 1 := Nat.div_mul_le_self _ _
  exact ⟨(isLeast_multiple hp).1.2, by omega⟩

/-- The block size, wherever some multiple of the page size that holds the objects is a 32-bit
number. -/
theorem isLeast_genExpandSlotPageSize {s f p : Nat} (hp : 0 < p)
    (h : ∃ r, p ∣ r ∧ s * f ≤ r ∧ r < 2 ^ 32) :
    IsLeast {m | p ∣ m ∧ s * f ≤ m} (genExpandSlotPageSize s f p) := by
  obtain ⟨r, hdvd, hle, hr⟩ := h
  have hleast : IsLeast {m | p ∣ m ∧ s * f ≤ m} ((s * f + p - 1) / p * p) := isLeast_multiple hp
  rw [genExpandSlotPageSize_eq_of_lt hp (lt_of_le_of_lt (hleast.2 ⟨hdvd, hle⟩) hr)]
  exact hleast

/-- Rounding up is exact, for exponents and for pages: the result is the least multiple that is
not below the argument, and a block has room for the objects it was made for.  A page size is
positive, since the source divides by it. -/
theorem rounding_up_exact :
    (∀ e x, 1 ≤ e → e ≤ 31 → x ≤ 2 ^ 32 - 2 ^ e →
      IsLeast {m | 2 ^ e ∣ m ∧ x ≤ m} (roundupToTheNextHighestMultipleOfExponent2 x e)) ∧
    ∀ s f p, 0 < p → (∃ r, p ∣ r ∧ s * f ≤ r ∧ r < 2 ^ 32) →
      IsLeast {m | p ∣ m ∧ s * f ≤ m} (genExpandSlotPageSize s f p) ∧
      (∀ i < f, s * i + s ≤ genExpandSlotPageSize s f p) ∧
      ∀ pagePv, 0 < s → f ≤ (splitMemPage s pagePv (genExpandSlotPageSize s f p)).length := by
  constructor
  · intro e x he he' hx
    have hpow : 2 ^ e ≤ 2 ^ 31 := Nat.pow_le_pow_right (by norm_num) he'
    rw [roundup_eq he he' (by omega)]
    exact isLeast_multiple (by positivity)
  · intro s f p hp hround
    have hleast := isLeast_genExpandSlotPageSize hp hround
    have hroom : s * f ≤ genExpandSlotPageSize s f p := hleast.1.2
    refine ⟨hleast, ?_, ?_⟩
    · intro i hi
      calc s * i + s = s * (i + 1) := (Nat.mul_succ s i).symm
        _ ≤ s * f := Nat.mul_le_mul_left s hi
        _ ≤ genExpandSlotPageSize s f p := hroom
    · intro pagePv hs
      rw [splitMemPage, List.length_map, List.length_range]
      exact (Nat.le_div_iff_mul_le hs).2 (by rwa [Nat.mul_comm])

/-- A request of 5000 bytes on pages of 4 KiB, and a block for 32 objects of 200 bytes. -/
theorem rounding_up_exact_pages :
    roundupToTheNextHighestMultipleOfExponent2 5000 12 = 8192 ∧
    IsLeast {m | 2 ^ 12 ∣ m ∧ 5000 ≤ m} (roundupToTheNextHighestMultipleOfExponent2 5000 12) ∧
    genExpandSlotPageSize 200 32 4096 = 8192 ∧
    IsLeast {m | 4096 ∣ m ∧ 200 * 32 ≤ m} (genExpandSlotPageSize 200 32 4096) :=
  ⟨by decide, rounding_up_exact.1 12 5000 (by decide) (by decide) (by decide), by decide,
    (rounding_up_exact.2 200 32 4096 (by decide) ⟨8192, by decide⟩).1⟩

end Arithmetic

/-! ## Slots -/

/-- `TINY_OBJECT_SIZE_THRESHOLD`. -/
def tinyObjThreshold : Nat := 16

/-- `DEFAULT_SMALL_OBJECT_SLOT_FOOTSTEP`, with its logarithm. -/
def smallObjSlotFootstepSize : Nat := 32

def smallObjSlotFootstepExponent : Nat := 5

/-- `BULK_PAGE_SIZE_THRESHOLD`. -/
def bulkObjThreshold : Nat := 131072

/-- `RESIDENT_BULK_OBJ_MAX_SIZE`. -/
def availableReserveBulkObjMaxSize : Nat := 1048576

/-- `DEFAULT_EXPAND_OBJ_CNT_FACTOR`. -/
def expandObjCntFactor : Nat := 32

/-- `DEFAULT_EXPAND_BULK_OBJ_CNT_FACTOR`. -/
def expandBulkObjCntFactor : Nat := 4

/-- What the constructor of a pool fixes: the logarithm of the page size, the numbers
of resident tiny, small and big objects of a slot, and the number of processors,
which is the number of resident bulk objects.  The thresholds are the default
ones. -/
structure Config where
  exponent : Nat
  torc : Nat
  sorc : Nat
  borc : Nat
  nprocs : Nat
  exponent_ge : 12 ≤ exponent
  exponent_le : exponent ≤ 16

/-- The default constructor on a machine with pages of 4 KiB and four processors. -/
def Config.default : Config :=
  ⟨12, 512, 256, 128, 4, by decide, by decide⟩

/-- The slots of the pool.  The index of a slot is its object size, counted in
footsteps or in pages. -/
inductive Key where
  | tiny
  | small (i : Nat)
  | big (i : Nat)
  | bulk (i : Nat)
deriving DecidableEq, Repr

namespace Config

variable (c : Config)

/-- `m_sys_page_size`. -/
def sysPageSize : Nat :=
  2 ^ c.exponent

/-- The size of the objects of a slot. -/
def slotSize : Key → Nat
  | .tiny => tinyObjThreshold
  | .small i => smallObjSlotFootstepSize * i
  | .big i => c.sysPageSize * i
  | .bulk i => c.sysPageSize * i

/-- The size of the blocks that a slot obtains. -/
def pageBytes : Key → Nat
  | .tiny => c.sysPageSize
  | .small i => genExpandSlotPageSize (c.slotSize (.small i)) expandObjCntFactor c.sysPageSize
  | .big i => genExpandSlotPageSize (c.slotSize (.big i)) expandObjCntFactor c.sysPageSize
  | .bulk i =>
    if c.slotSize (.bulk i) < availableReserveBulkObjMaxSize then
      genExpandSlotPageSize (c.slotSize (.bulk i)) expandBulkObjCntFactor c.sysPageSize
    else c.slotSize (.bulk i)

/-- The slots that requests below `2 ^ 32` minus a page can ask for. -/
def Valid : Key → Prop
  | .tiny => True
  | .small i => 1 ≤ i ∧ i ≤ c.sysPageSize / smallObjSlotFootstepSize
  | .big i => 1 ≤ i ∧ i ≤ bulkObjThreshold / c.sysPageSize
  | .bulk i => bulkObjThreshold < c.sysPageSize * i ∧ c.sysPageSize * i < 2 ^ 32

instance : DecidablePred c.Valid
  | .tiny => isTrue trivial
  | .small _ => inferInstanceAs (Decidable (_ ∧ _))
  | .big _ => inferInstanceAs (Decidable (_ ∧ _))
  | .bulk _ => inferInstanceAs (Decidable (_ ∧ _))

/-- The page size lies between 4 KiB and 64 KiB. -/
theorem sysPageSize_bounds : 4096 ≤ c.sysPageSize ∧ c.sysPageSize ≤ 65536 := by
  have h1 : 2 ^ 12 ≤ 2 ^ c.exponent := Nat.pow_le_pow_right (by norm_num) c.exponent_ge
  have h2 : 2 ^ c.exponent ≤ 2 ^ 16 := Nat.pow_le_pow_right (by norm_num) c.exponent_le
  exact ⟨h1, h2⟩

variable {c}

/-- A block has room for an object, and its size fits into 32 bits. -/
theorem pageBytes_bounds {k : Key} (hk : c.Valid k) :
    0 < c.slotSize k ∧ c.slotSize k ≤ c.pageBytes k ∧ c.pageBytes k < 2 ^ 32 := by
  obtain ⟨hlo, hhi⟩ := c.sysPageSize_bounds
  have hexpand : ∀ s f, 0 < s → 0 < f → s * f ≤ 4 * 2 ^ 20 →
      s ≤ genExpandSlotPageSize s f c.sysPageSize ∧
        genExpandSlotPageSize s f c.sysPageSize < 2 ^ 32 := by
    intro s f hs hf hle
    have h := le_genExpandSlotPageSize (s := s) (f := f) (p := c.sysPageSize) (by omega) (by omega)
    have hmul : s ≤ s * f := Nat.le_mul_of_pos_right s hf
    omega
  cases k with
  | tiny => simp only [slotSize, pageBytes, tinyObjThreshold]; omega
  | small i =>
    simp only [Valid, smallObjSlotFootstepSize] at hk
    have hs : c.slotSize (.small i) = 32 * i := rfl
    have h := hexpand (c.slotSize (.small i)) expandObjCntFactor (by omega) (by decide)
      (by simp only [expandObjCntFactor]; omega)
    exact ⟨by omega, h⟩
  | big i =>
    simp only [Valid, bulkObjThreshold] at hk
    have hs : c.slotSize (.big i) = c.sysPageSize * i := rfl
    have hle : c.sysPageSize * i ≤ 131072 := by
      rw [Nat.mul_comm]
      exact (Nat.le_div_iff_mul_le (by omega)).mp hk.2
    have hpos : 0 < c.sysPageSize * i := Nat.mul_pos (by omega) hk.1
    have h := hexpand (c.slotSize (.big i)) expandObjCntFactor (by omega) (by decide)
      (by simp only [expandObjCntFactor]; omega)
    exact ⟨by omega, h⟩
  | bulk i =>
    simp only [Valid, bulkObjThreshold] at hk
    have hs : c.slotSize (.bulk i) = c.sysPageSize * i := rfl
    simp only [pageBytes]
    split_ifs with hlt
    · simp only [availableReserveBulkObjMaxSize] at hlt
      have h := hexpand (c.slotSize (.bulk i)) expandBulkObjCntFactor (by omega) (by decide)
        (by simp only [expandBulkObjCntFactor]; omega)
      exact ⟨by omega, h⟩
    · omega

/-- Inside a block of user space the 32-bit offsets and the addresses do not wrap. -/
theorem splitMemPage_eq {s p n : Nat} (hs : 0 < s) (hn : n < 2 ^ 32) (hp : p + n ≤ 2 ^ 47) :
    splitMemPage s p n = (List.range (n / s)).map fun i => p + s * i := by
  refine List.map_congr_left ?_
  intro i hi
  have hle : s * (i + 1) ≤ n := by
    rw [Nat.mul_comm]
    exact (Nat.le_div_iff_mul_le hs).mp (List.mem_range.mp hi)
  rw [Nat.mul_add] at hle
  rw [u32_of_lt (by omega), u64_of_lt (by omega)]

/-- The slots of a pool, as classes of a store.  Addresses of user space lie below
`2 ^ 47`. -/
def carver (c : Config) : Carver Key where
  valid := c.Valid
  limit := 2 ^ 47
  size := c.pageBytes
  objSize := c.slotSize
  split k p := splitMemPage (c.slotSize k) p (c.pageBytes k)
  objSize_pos k hk := (pageBytes_bounds hk).1
  split_ne_nil k p hk := by
    obtain ⟨hpos, hle, -⟩ := pageBytes_bounds hk
    have hcnt : 0 < c.pageBytes k / c.slotSize k := Nat.div_pos hle hpos
    intro hnil
    have hlen := congrArg List.length hnil
    simp only [splitMemPage, List.length_map, List.length_range, List.length_nil] at hlen
    omega
  split_spaced k p hk hp := by
    obtain ⟨hpos, -, hlt⟩ := pageBytes_bounds hk
    rw [splitMemPage_eq hpos hlt hp, List.pairwise_map]
    refine List.pairwise_lt_range.imp ?_
    intro i j hij
    have hmul : c.slotSize k * (i + 1) ≤ c.slotSize k * j := Nat.mul_le_mul_left _ hij
    rw [Nat.mul_add] at hmul
    omega
  split_inside k p x hk hp hx := by
    obtain ⟨hpos, -, hlt⟩ := pageBytes_bounds hk
    rw [splitMemPage_eq hpos hlt hp, List.mem_map] at hx
    obtain ⟨i, hi, rfl⟩ := hx
    have hle : c.slotSize k * (i + 1) ≤ c.pageBytes k := by
      rw [Nat.mul_comm]
      exact (Nat.le_div_iff_mul_le hpos).mp (List.mem_range.mp hi)
    rw [Nat.mul_add] at hle
    omega

end Config

end MemPool
end CCraft
