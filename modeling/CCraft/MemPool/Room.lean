import CCraft.MemPool.Sound

/-!
# The room that `Get` gives

An object that `Get` returns is at least as large as the request and lies inside
the block it was carved from.  The sizes on the way are 32-bit values; they are
compared with the same formulas over the integers.

Main results:

- Theorem {lit}`sizesExact_iff`: the 32-bit values are exact exactly when the size is
  at least a page below `2 ^ 32`.
- Theorem {lit}`gets_room_iff`: in every state of every run `Get` gives enough room
  exactly when moreover its search finds the entries of the indexes in place.
-/

namespace CCraft
namespace MemPool

open Slab PageMap Fallible

/-! ## The values that `Get` computes -/

/-- The object size that `Get` computes for a request. -/
def requestSlotSize (c : Config) (size : Nat) : Nat :=
  if tinyObjThreshold ≥ size then tinyObjThreshold
  else if bulkObjThreshold ≥ size then
    if c.sysPageSize < size then roundupToTheNextHighestMultipleOfExponent2 size c.exponent
    else roundupToTheNextHighestMultipleOfExponent2 size smallObjSlotFootstepExponent
  else roundupToTheNextHighestMultipleOfExponent2 size c.exponent

/-- The size of the block that `Get` allocates when nothing is free. -/
def requestExpandSize (c : Config) (size : Nat) : Nat :=
  if tinyObjThreshold ≥ size then c.sysPageSize
  else if bulkObjThreshold ≥ size then
    genExpandSlotPageSize (requestSlotSize c size) expandObjCntFactor c.sysPageSize
  else if requestSlotSize c size < availableReserveBulkObjMaxSize then
    genExpandSlotPageSize (requestSlotSize c size) expandBulkObjCntFactor c.sysPageSize
  else requestSlotSize c size

/-- The least multiple of `p` that is not below `n`, over the integers. -/
def ceilMultiple (n p : Nat) : Nat :=
  (n + p - 1) / p * p

/-- The slot of a request over the integers. -/
def exactKey (c : Config) (size : Nat) : Key :=
  if size ≤ tinyObjThreshold then .tiny
  else if size ≤ bulkObjThreshold then
    if c.sysPageSize < size then .big ((size + c.sysPageSize - 1) / c.sysPageSize)
    else .small ((size + 31) / 32)
  else .bulk ((size + c.sysPageSize - 1) / c.sysPageSize)

/-- The size of the blocks of a slot over the integers. -/
def exactPageBytes (c : Config) : Key → Nat
  | .tiny => c.sysPageSize
  | .small i => ceilMultiple (c.slotSize (.small i) * expandObjCntFactor) c.sysPageSize
  | .big i => ceilMultiple (c.slotSize (.big i) * expandObjCntFactor) c.sysPageSize
  | .bulk i =>
    if c.slotSize (.bulk i) < availableReserveBulkObjMaxSize then
      ceilMultiple (c.slotSize (.bulk i) * expandBulkObjCntFactor) c.sysPageSize
    else c.slotSize (.bulk i)

/-- The slot index, the round-up, the expansion size and the offsets of the objects in a
block of user space are those over the integers. -/
structure SizesExact (c : Config) (size : Nat) : Prop where
  key : requestKey c size = exactKey c size
  slot_size : requestSlotSize c size = c.slotSize (exactKey c size)
  expand_size : requestExpandSize c size = exactPageBytes c (exactKey c size)
  offsets : ∀ p, p + exactPageBytes c (exactKey c size) ≤ 2 ^ 47 →
    splitMemPage (requestSlotSize c size) p (requestExpandSize c size) =
      (List.range (exactPageBytes c (exactKey c size) / c.slotSize (exactKey c size))).map
        fun i => p + c.slotSize (exactKey c size) * i

section Sizes

variable {c : Config} {size : Nat} {k : Key}

theorem pageBytes_exact (hk : c.Valid k) : c.pageBytes k = exactPageBytes c k := by
  obtain ⟨hlo, hhi⟩ := c.sysPageSize_bounds
  cases k with
  | tiny => rfl
  | small i =>
    simp only [Config.Valid, smallObjSlotFootstepSize] at hk
    refine genExpandSlotPageSize_eq (by omega) ?_
    simp only [Config.slotSize, smallObjSlotFootstepSize, expandObjCntFactor]
    omega
  | big i =>
    simp only [Config.Valid, bulkObjThreshold] at hk
    have hle : i * c.sysPageSize ≤ 131072 := (Nat.le_div_iff_mul_le (by omega)).mp hk.2
    refine genExpandSlotPageSize_eq (by omega) ?_
    simp only [Config.slotSize, expandObjCntFactor, Nat.mul_comm c.sysPageSize i]
    omega
  | bulk i =>
    simp only [Config.pageBytes, exactPageBytes]
    split_ifs with hlt
    · refine genExpandSlotPageSize_eq (by omega) ?_
      simp only [availableReserveBulkObjMaxSize] at hlt
      simp only [expandBulkObjCntFactor]
      omega
    · rfl

/-- The request is served from a valid slot of its own object size. -/
theorem request_exact (c : Config) (hle : size + c.sysPageSize ≤ 2 ^ 32) :
    requestKey c size = exactKey c size ∧ c.Valid (exactKey c size) ∧
      requestSlotSize c size = c.slotSize (exactKey c size) ∧
      requestExpandSize c size = c.pageBytes (exactKey c size) := by
  by_cases htiny : size ≤ tinyObjThreshold
  · have hkey : exactKey c size = .tiny := if_pos htiny
    rw [hkey]
    exact ⟨requestKey_tiny c htiny, trivial, if_pos htiny, if_pos htiny⟩
  simp only [exactKey, requestExpandSize, requestSlotSize, ge_iff_le, htiny, if_false]
  by_cases hbulk : size ≤ bulkObjThreshold
  · by_cases hbig : c.sysPageSize < size
    · obtain ⟨hkey, hround, hvalid⟩ := requestKey_big hbig hbulk
      simp only [hbulk, hbig, if_true, hround]
      exact ⟨hkey, hvalid, trivial, rfl⟩
    · obtain ⟨hkey, hround, hvalid⟩ :=
        requestKey_small c (lt_of_not_ge htiny) (le_of_not_gt hbig)
      simp only [hbulk, hbig, if_true, if_false, hround]
      exact ⟨hkey, hvalid, trivial, rfl⟩
  · obtain ⟨_, rfl, hkey, hround, -, hvalid⟩ := requestKey_bulk (lt_of_not_ge hbulk) hle
    simp only [hbulk, if_false, hround]
    exact ⟨hkey, hvalid, trivial, rfl⟩

/-- A slot has the size of the requests it serves. -/
theorem le_slotSize_exactKey (c : Config) (size : Nat) : size ≤ c.slotSize (exactKey c size) := by
  obtain ⟨hlo, -⟩ := c.sysPageSize_bounds
  have hpage := (le_mul_ceil size (p := c.sysPageSize) (by omega)).1
  unfold exactKey
  split_ifs with htiny hbulk hbig
  · exact htiny
  · exact hpage
  · simp only [Config.slotSize, smallObjSlotFootstepSize]
    omega
  · exact hpage

/-- The 32-bit values are exact unless the round-up to a page leaves 32 bits. -/
theorem sizesExact_iff (c : Config) (hsize : size < 2 ^ 32) :
    SizesExact c size ↔ size + c.sysPageSize ≤ 2 ^ 32 := by
  constructor
  · intro h
    by_contra hlt
    -- the code asks for slot zero, which holds nothing
    have hkey := h.key
    rw [requestKey_wrapped (lt_of_not_ge hlt) hsize] at hkey
    have hle := le_slotSize_exactKey c size
    have hpage := c.sysPageSize_bounds.2
    rw [← hkey] at hle
    simp only [Config.slotSize] at hle
    omega
  · intro hle
    obtain ⟨hkey, hvalid, hslot, hexpand⟩ := request_exact c hle
    obtain ⟨hpos, -, hlt⟩ := Config.pageBytes_bounds hvalid
    have hbytes := pageBytes_exact hvalid
    refine ⟨hkey, hslot, hexpand.trans hbytes, ?_⟩
    intro p hp
    rw [← hbytes] at hp ⊢
    rw [hslot, hexpand]
    exact Config.splitMemPage_eq hpos hlt hp

end Sizes

/-! ## The object that `Get` returns -/

/-- The object of an outstanding wrapper is as large as the request and lies inside the
block it was carved from. -/
structure HasRoom (c : Config) (s : Pool) (size h : Nat) : Prop where
  out : h ∈ s.out
  size_le : size ≤ (s.objects h).slotSize
  inside : ∃ b ∈ s.live, b.addr = (s.objects h).objPagePv ∧ b.addr ≤ (s.objects h).objPv ∧
    (s.objects h).objPv + (s.objects h).slotSize ≤ b.addr + c.pageBytes b.key

/-- `Get` computes exact values and returns null or an object with room for the
request. -/
def GetsRoom (c : Config) (s : Pool) (size : Nat) (objP : Option Nat) (it : IterOrder Nat) :
    Prop :=
  SizesExact c size ∧
    ∃ got s', s.get c size objP it = .ok (got, s') ∧ ∀ h ∈ got, HasRoom c s' size h

section Search

variable {b b' : Bulk} {n : Nat} {f : Suitable} {it : IterOrder Nat}

/-- The search never returns an object of a smaller slot. -/
theorem Bulk.search_slotIdx (h : b.getSuitableBulkPage it n = .ok (some f, b')) :
    n ≤ f.slotIdx := by
  have hsuitable := Bulk.suitable_of_search h
  cases hentry : b.hash.lookup n with
  | some e =>
    simp only [Bulk.suitable, hentry] at hsuitable
    obtain ⟨first, -, hf⟩ := bind_eq_ok.1 hsuitable
    cases hf
    exact le_rfl
  | none =>
    cases hlarger : b.larger? n with
    | none =>
      simp only [Bulk.suitable, hentry, hlarger] at hsuitable
      cases hsuitable
    | some larger =>
      simp only [Bulk.suitable, hentry, hlarger] at hsuitable
      obtain ⟨e, p, x, objs, -, -, hf⟩ := Bulk.found_eq_ok hsuitable
      cases hf
      exact (Bulk.larger?_spec hlarger).2.1.le

theorem findBulk_slotIdx {c : Config} {needPageSize : Nat} {objP newPage : Option Nat}
    (h : Pool.findBulk c n needPageSize objP it b = .ok (some f, b', newPage)) :
    n ≤ f.slotIdx := by
  unfold Pool.findBulk at h
  obtain ⟨⟨found, b₁⟩, hsearch, h⟩ := bind_eq_ok.1 h
  cases found with
  | some g =>
    cases h
    exact Bulk.search_slotIdx hsearch
  | none =>
    obtain ⟨⟨b₂, page⟩, -, h⟩ := bind_eq_ok.1 h
    obtain ⟨⟨g, b₃⟩, hsearch', h⟩ := bind_eq_ok.1 h
    cases h
    exact Bulk.search_slotIdx hsearch'

end Search

section Get

variable {c : Config} {s s' : Pool} {h size : Nat} {objP : Option Nat} {it : IterOrder Nat}

theorem getMemObject_got {o : MemObject} (hget : s.getMemObject o = (h, s')) :
    h ∈ s'.out ∧ s'.objects h = o := by
  unfold Pool.getMemObject at hget
  split at hget
  · cases hget
    simp
  · cases hget
    simp

/-- A slot hands out objects of its own size. -/
theorem getSlot_size {type : MemObjectType} {k : Key} {slotSize expandPageSize : Nat}
    (hget : s.getSlot type k slotSize expandPageSize objP it = .ok (some h, s')) :
    h ∈ s'.out ∧ (s'.objects h).slotSize = slotSize := by
  unfold Pool.getSlot at hget
  split at hget
  · cases hget
  · obtain ⟨⟨slot₁, newPage⟩, -, hget⟩ := bind_eq_ok.1 hget
    obtain ⟨⟨got, slot₂⟩, -, hget⟩ := bind_eq_ok.1 hget
    cases got with
    | none => cases hget
    | some found =>
      obtain ⟨hh, hs'⟩ := Prod.mk.inj (Except.ok.inj hget)
      obtain ⟨hmem, hobj⟩ := getMemObject_got (Prod.ext (Option.some.inj hh) hs')
      exact ⟨hmem, by rw [hobj]⟩

/-- A taken object comes from a valid slot. -/
theorem Inv.popped_valid {exact : Key → Prop} {f : Suitable} {e : HashEntry}
    {objs : PageMap Nat Nat} (hinv : Inv c exact s) (hpopped : s.bulk.Popped f e objs) :
    c.Valid (.bulk f.slotIdx) := by
  obtain ⟨hl, -⟩ := popFront_eq_some hpopped.pop
  rw [← objsAt_of_lookup hpopped.entry] at hl
  exact (hinv.bulk_home hl).2

/-- A bulk request gets an object of its own slot or of a larger one. -/
theorem getBulk_size (hs : SoundInv c s) (hlt : bulkObjThreshold < size)
    (hle : size + c.sysPageSize ≤ 2 ^ 32)
    (hget : s.get c size objP it = .ok (some h, s')) :
    h ∈ s'.out ∧ size ≤ (s'.objects h).slotSize := by
  obtain ⟨n, -, hkey, hround, hidx, hvalid⟩ := requestKey_bulk hlt hle
  have hsize : size ≤ c.slotSize (.bulk n) := by
    have hexact := (request_exact c hle).1
    rw [hkey] at hexact
    exact hexact ▸ le_slotSize_exactKey c size
  have houtcome := Bulk.findBulk_outcome (c := c) hs.ptr_slots hvalid objP it
  rw [get_eq_getBulk hlt] at hget
  simp only [Pool.getBulk, hround, hidx] at hget
  obtain ⟨⟨found, b', newPage⟩, hfind, hget⟩ := bind_eq_ok.1 hget
  rw [hfind] at houtcome
  cases found with
  | none => cases hget
  | some f =>
    have hge := findBulk_slotIdx hfind
    have hf : c.Valid (.bulk f.slotIdx) := by
      cases houtcome with
      | reused fits served safe =>
        obtain ⟨e, objs, hpopped, -⟩ := served.popped
        exact hs.inv.popped_valid hpopped
      | forgot forgot risky =>
        obtain ⟨hpopped, -⟩ := forgot
        exact hs.inv.popped_valid hpopped
      | expanded noFit alloc upd slot served => exact slot ▸ hvalid
    obtain ⟨hh, hs'⟩ := Prod.mk.inj (Except.ok.inj hget)
    obtain ⟨hmem, hobj⟩ := getMemObject_got (Prod.ext (Option.some.inj hh) hs')
    refine ⟨hmem, ?_⟩
    rw [hobj]
    show size ≤ u32 (f.slotIdx * c.sysPageSize)
    rw [(key_of_slotIdx hf f.objPv f.pagePv).1]
    exact hsize.trans (Nat.mul_le_mul_left _ hge)

/-- An outstanding object lies inside the block it was carved from. -/
theorem Inv.inside {exact : Key → Prop} (hinv : Inv c exact s) (hmem : h ∈ s.out) :
    ∃ b ∈ s.live, b.addr = (s.objects h).objPagePv ∧ b.addr ≤ (s.objects h).objPv ∧
      (s.objects h).objPv + (s.objects h).slotSize ≤ b.addr + c.pageBytes b.key := by
  have hout := obj_mem_outs (c := c) hmem
  have hhome := hinv.wf.out_home _ hout
  obtain ⟨hvalid, hfits⟩ := hinv.wf.fits _ hhome
  have hinside := c.carver.split_inside _ _ _ hvalid hfits (hinv.wf.ptr_mem_split hout)
  rw [hinv.size_eq h hmem]
  exact ⟨_, hhome, rfl, hinside⟩

/-- What `Get` returns has room for the request. -/
theorem get_hasRoom (hs : SoundInv c s) (hle : size + c.sysPageSize ≤ 2 ^ 32)
    (hobjP : AllocOk c s (requestKey c size) objP)
    (hget : s.get c size objP it = .ok (some h, s')) : HasRoom c s' size h := by
  obtain ⟨hlo, -⟩ := c.sysPageSize_bounds
  have hs' := get_soundInv it hs (by omega) hobjP
  rw [hget] at hs'
  have hgot : h ∈ s'.out ∧ size ≤ (s'.objects h).slotSize := by
    by_cases hslot : size ≤ bulkObjThreshold
    · obtain ⟨type, k, hkey, -, -, -, hgetSlot⟩ := get_eq_getSlot c s hslot objP it
      obtain ⟨hmem, hsize⟩ := getSlot_size (hgetSlot ▸ hget)
      refine ⟨hmem, ?_⟩
      rw [hsize, ← hkey, (request_exact c hle).1]
      exact le_slotSize_exactKey c size
    · exact getBulk_size hs (lt_of_not_ge hslot) hle hget
  exact ⟨hgot.1, hgot.2, hs'.inv.inside hgot.1⟩

end Get

/-- In every state that a pool reaches, for every size of 32 bits and every result of the
allocation, `Get` gives enough room exactly when the size is at least a page below `2 ^ 32` and
the search for a bulk object finds its entries in place. -/
theorem gets_room_iff (c : Config) (garbage : Nat) (labels : List Label) (t : Pool)
    (size : Nat) (objP : Option Nat) (it : IterOrder Nat)
    (hlabels : ∀ a ∈ labels, a.InRange)
    (hrun : Runs.run (step c) (Pool.init c garbage) labels = some t)
    (hrange : 1 ≤ size ∧ size < 2 ^ 32) (hobjP : AllocOk c t (requestKey c size) objP) :
    GetsRoom c t size objP it ↔ size + c.sysPageSize ≤ 2 ^ 32 ∧
      ∀ n, requestKey c size = .bulk n → t.bulk.SearchSafe n := by
  have hs := soundInv_of_run hlabels hrun
  have hreturns := get_ok_iff it hs hrange.2 hobjP
  rw [GetsRoom, sizesExact_iff c hrange.2]
  refine and_congr_right ?_
  intro hle
  constructor
  · rintro ⟨got, s', hget, -⟩
    exact (hreturns.1 ⟨_, hget⟩).1
  · intro hsafe
    obtain ⟨⟨got, s'⟩, hget⟩ := hreturns.2 ⟨hsafe, .inl hle⟩
    refine ⟨got, s', hget, ?_⟩
    rintro h rfl
    exact get_hasRoom hs hle hobjP hget

/-- A second object of 100 bytes from the block of the first one. -/
theorem gets_room_iff_second_object :
    ∃ t, Runs.run (step Config.default) (Pool.init Config.default 0)
        [.get 100 (some 65536) .listed] = some t ∧ GetsRoom Config.default t 100 none .listed := by
  refine ⟨_, (Option.some_get (by decide +kernel)).symm, ?_⟩
  refine (gets_room_iff Config.default 0 _ _ 100 none .listed ?_ (Option.some_get _).symm ?_
    trivial).2 ⟨?_, ?_⟩
  · decide
  · decide
  · decide
  · intro n hn
    revert hn
    rw [show requestKey Config.default 100 = .small 4 by decide +kernel]
    simp

/-- The largest size is rounded up to zero, and the block that is allocated for it is divided
by that object size. -/
theorem largest_size_divides_by_zero :
    requestSlotSize Config.default (2 ^ 32 - 1) = 0 ∧
      AllocOk Config.default (Pool.init Config.default 0)
        (requestKey Config.default (2 ^ 32 - 1)) (some 65536) ∧
      ((Pool.init Config.default 0).get Config.default (2 ^ 32 - 1) (some 65536) .listed).map
        Prod.fst = .error .divideByZero := by
  decide +kernel

end MemPool
end CCraft
