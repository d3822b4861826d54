import CCraft.MemPool.BulkPool
import CCraft.MemPool.BulkSearch

/-!
# Every run of the memory pool

What holds in every state that a pool can reach with sizes that fit into a
`uint32_t`, whatever else happens to it: also after a search has met a removed
slot, and also when the size has wrapped around in the round-up to a page.

Main results:

- Theorem {lit}`get_wrapped`: a size within a page of `2 ^ 32` is rounded to zero.
- Theorem {lit}`step_soundInv`: every step keeps the pool a well-formed store.
- Theorem {lit}`get_ok_iff`: when `Get` returns, told from the pool before it.
-/

namespace CCraft
namespace MemPool

open Slab PageMap Fallible

/-! ## The ordered index -/

namespace Bulk

variable {b b' : Bulk} {n : Nat} {f : Suitable} {o : MemObject}

theorem PtrSlots.updated {set : Option (Finset Nat)} {entry : Option HashEntry}
    {ptr : Option EntryPtr} (h : PtrSlots b) (upd : b.Updated n set entry ptr b')
    (hptr : ∀ q ∈ ptr, q.slot = n) : PtrSlots b' := by
  intro m q hq
  rw [upd.ordered] at hq
  split_ifs at hq with hm
  · exact (hptr q hq).trans hm.symm
  · exact h m q hq

theorem PtrSlots.served (h : PtrSlots b) (hserved : b.Served f b') : PtrSlots b' := by
  cases hserved with
  | kept kept =>
    obtain ⟨-, -, upd⟩ := kept
    exact h.updated upd fun q hq => h _ q hq
  | last popped rest upd => exact h.updated upd (by simp)

theorem PtrSlots.forgot (h : PtrSlots b) (hforgot : b.Forgot f b') : PtrSlots b' := by
  obtain ⟨-, -, -, -, -, ordered⟩ := hforgot
  intro m q hq
  rw [ordered] at hq
  split_ifs at hq
  exact h m q hq

theorem PtrSlots.slotted {e : HashEntry} {ptr : Option EntryPtr} (h : PtrSlots b)
    (hslotted : b.Slotted n e ptr) : ∀ q ∈ ptr, q.slot = n := by
  cases hslotted with
  | old entry => exact fun q hq => h n q hq
  | new entry => simp

theorem Given.ptrSlots {freed : Option Nat} (h : b.Given 4 n o (b', freed)) (hptr : PtrSlots b) :
    PtrSlots b' := by
  cases h with
  | kept slotted upd | freed slotted mem full cnt_eq rest upd =>
    exact hptr.updated upd (hptr.slotted slotted)
  | emptied slotted mem full rest upd => exact hptr.updated upd (by simp)

end Bulk

/-! ## Sizes that wrap around -/

/-- A size above the last page of 32 bits is rounded up to zero. -/
theorem roundup_wrapped (c : Config) {size : Nat} (hlt : 2 ^ 32 < size + c.sysPageSize)
    (hsize : size < 2 ^ 32) :
    roundupToTheNextHighestMultipleOfExponent2 size c.exponent = 0 := by
  have hge := c.exponent_ge
  have hle := c.exponent_le
  have hpage : c.sysPageSize = 2 ^ c.exponent := rfl
  obtain ⟨hlo, hhi⟩ := c.sysPageSize_bounds
  have hpow : 2 ^ 32 = c.sysPageSize * 2 ^ (32 - c.exponent) := by
    rw [hpage, ← pow_add]
    congr 1
    omega
  have hbase : u32 (2 <<< (c.exponent - 1)) = c.sysPageSize := by
    rw [Nat.shiftLeft_eq, ← pow_succ', Nat.sub_add_cancel (by omega), u32_of_lt, hpage]
    exact Nat.pow_lt_pow_right (by norm_num) (by omega)
  have hcnt : 1 ≤ 2 ^ (32 - c.exponent) := Nat.one_le_two_pow
  -- the size lies strictly inside the last page
  have hdiv : size / c.sysPageSize = 2 ^ (32 - c.exponent) - 1 := by
    refine Nat.div_eq_of_lt_le ?_ ?_
    · rw [Nat.sub_mul, Nat.mul_comm, ← hpow]
      omega
    · rw [Nat.sub_add_cancel hcnt, Nat.mul_comm, ← hpow]
      exact hsize
  have hdown : size / c.sysPageSize * c.sysPageSize = 2 ^ 32 - c.sysPageSize := by
    rw [hdiv, Nat.sub_mul, Nat.mul_comm, ← hpow, one_mul]
  have hndvd : ¬ 2 ^ c.exponent ∣ size := by
    rw [← hpage]
    intro hdvd
    have hback := Nat.div_mul_cancel hdvd
    omega
  have hwrap : 2 ^ 32 - c.sysPageSize + c.sysPageSize = 2 ^ 32 := Nat.sub_add_cancel (by omega)
  simp only [roundupToTheNextHighestMultipleOfExponent2,
    lowTrue_eq_zero_iff (by omega : c.exponent ≤ 32), hndvd, if_false, hbase,
    and_mask_eq hsize (by omega : c.exponent ≤ 32)]
  rw [← hpage, hdown, hwrap, u32, Nat.mod_self]

section Wrapped

variable {c : Config} {exact : Key → Prop} {s : Pool} {size : Nat}

theorem requestKey_wrapped (hlt : 2 ^ 32 < size + c.sysPageSize) (hsize : size < 2 ^ 32) :
    requestKey c size = .bulk 0 := by
  have hpage := c.sysPageSize_bounds.2
  have hbulk : bulkObjThreshold < size := by simp only [bulkObjThreshold]; omega
  rw [requestKey_eq_bulk hbulk, roundup_wrapped c hlt hsize, convertSlotObjSizeToSlotIdx,
    Nat.zero_div]

/-- Slot zero has no free object. -/
theorem Inv.objsAt_zero (hinv : Inv c exact s) : (objsAt s.bulk.hash 0).keys = [] := by
  refine List.eq_nil_iff_forall_not_mem.2 ?_
  intro p hp
  obtain ⟨l, hl⟩ := mem_keys_iff_lookup.1 hp
  have hvalid := (hinv.bulk_home hl).2
  simp [Config.Valid] at hvalid

/-- What `Get` does with a size that wraps around: it faults, or the allocation of zero
bytes has failed and it returns null. -/
theorem get_wrapped (hinv : Inv c exact s) (hlt : 2 ^ 32 < size + c.sysPageSize)
    (hsize : size < 2 ^ 32) (objP : Option Nat) (it : IterOrder Nat) :
    (∃ fault, s.get c size objP it = .error fault ∧ ¬ (s.bulk.NoFit 0 ∧ objP = none)) ∨
      ∃ b', s.bulk.Updated 0 (some ∅) none none b' ∧ s.bulk.NoFit 0 ∧ objP = none ∧
        s.get c size objP it = .ok (none, s.setBulk b') := by
  have hpage := c.sysPageSize_bounds.2
  have hbulk : bulkObjThreshold < size := by simp only [bulkObjThreshold]; omega
  rw [get_eq_getBulk hbulk]
  simp only [Pool.getBulk, roundup_wrapped c hlt hsize, convertSlotObjSizeToSlotIdx, Nat.zero_div,
    Pool.findBulk]
  cases hentry : s.bulk.hash.lookup 0 with
  | some e =>
    -- an entry of slot zero has no page, so the search reads the end iterator
    left
    have hkeys : e.page.objs.keys = [] := objsAt_of_lookup hentry ▸ hinv.objsAt_zero
    have hempty : Bulk.takeFirst it e.page.objs = .error .emptyList := by
      have hnil : it.order e.page.objs.keys = [] := by
        rw [hkeys]
        exact List.perm_nil.1 (it.perm [])
      simp only [Bulk.takeFirst, hnil]
    refine ⟨.emptyList, ?_, ?_⟩
    · simp only [Bulk.getSuitableBulkPage, hentry, Bulk.takeExact, hempty, error_bind]
    · rintro ⟨hnone, -⟩
      rw [hnone.1] at hentry
      cases hentry
  | none =>
    have hnoFit : s.bulk.NoFit 0 := by
      refine ⟨hentry, ?_⟩
      intro m ptr _
      omega
    rw [Bulk.search_noFit hnoFit]
    simp only [ok_bind]
    cases objP with
    | none =>
      right
      obtain ⟨b₁, hexpand, hupd⟩ := Bulk.expandBulk_none c s.bulk 0 0
      refine ⟨b₁, hupd, hnoFit, rfl, ?_⟩
      simp only [hexpand, ok_bind, Bulk.search_noFit (hnoFit.failed hupd), Pool.addLive]
    | some p =>
      left
      refine ⟨.divideByZero, ?_, by simp⟩
      simp only [Pool.expandBulk, allocPageObjs, if_true, error_bind]

end Wrapped

/-! ## Runs -/

/-- The sizes that `Get` can be called with. -/
def Label.InRange : Label → Prop
  | .get size _ _ => 1 ≤ size ∧ size < 2 ^ 32
  | .put _ _ => True
  | .recycle _ => True

instance : DecidablePred Label.InRange
  | .get size _ _ => inferInstanceAs (Decidable (1 ≤ size ∧ size < 2 ^ 32))
  | .put _ _ | .recycle _ => isTrue trivial

/-- The invariant of all runs: the pool is a well-formed store in which only bulk slots
can have lost free objects, and an entry of the ordered index points to its own slot. -/
structure SoundInv (c : Config) (s : Pool) : Prop where
  inv : Inv c Key.IsSlot s
  ptr_slots : s.bulk.PtrSlots

section Runs

variable {c : Config} {s s' : Pool} {a : Label}

theorem init_soundInv (c : Config) (garbage : Nat) : SoundInv c (Pool.init c garbage) := by
  refine ⟨init_inv c Key.IsSlot garbage, ?_⟩
  intro n ptr hptr
  rw [Pool.init, Bulk.empty, OrderedMap.find?_empty] at hptr
  cases hptr

theorem SoundInv.settle_error (h : SoundInv c s) (fault : Fault) :
    SoundInv c (s.settle (.error fault)) :=
  ⟨h.inv.settle_error fault, h.ptr_slots⟩

theorem SoundInv.wrapped {b' : Bulk} {o : MemObject} {h : Nat}
    (hw : Wrapped (s.setBulk b') o h s') (hinv : Inv c Key.IsSlot s') (hptr : b'.PtrSlots) :
    SoundInv c s' :=
  ⟨hinv, hw.bulk_eq ▸ hptr⟩

/-- `Get` of a bulk object. -/
theorem BulkGot.soundInv {n : Nat} {objP : Option Nat} {r : Except Fault (Option Nat × Pool)}
    (hgot : BulkGot c s n objP r) (h : SoundInv c s) (hvalid : c.Valid (.bulk n))
    (hobjP : AllocOk c s (.bulk n) objP) : SoundInv c (s.settle (r.map Prod.snd)) := by
  cases hgot with
  | fault fits search risky => exact h.settle_error _
  | forgot forgot risky wrapped =>
    have hinv := forgot_inv h.inv (fun _ hslot => hslot) forgot wrapped
    exact SoundInv.wrapped wrapped hinv (h.ptr_slots.forgot forgot)
  | reused fits served safe wrapped =>
    have hinv := served_inv h.inv served wrapped
    exact SoundInv.wrapped wrapped hinv (h.ptr_slots.served served)
  | failed noFit alloc upd =>
    exact ⟨failed_inv h.inv noFit.1 upd, h.ptr_slots.updated upd (by simp)⟩
  | expanded noFit alloc upd slot served wrapped =>
    subst alloc
    have hinv₁ := expanded_inv h.inv noFit.1 hvalid hobjP upd
    have hptr₁ := h.ptr_slots.updated upd (by simp)
    exact SoundInv.wrapped wrapped (served_inv hinv₁ served wrapped) (hptr₁.served served)

theorem get_soundInv {size : Nat} {objP : Option Nat} (it : IterOrder Nat) (h : SoundInv c s)
    (hsize : size < 2 ^ 32) (hobjP : AllocOk c s (requestKey c size) objP) :
    SoundInv c (s.settle ((s.get c size objP it).map Prod.snd)) := by
  by_cases hslot : size ≤ bulkObjThreshold
  · obtain ⟨r, hget, -, hok⟩ := get_slot it h.inv hslot hobjP
    rw [hget]
    exact ⟨hok.inv, hok.bulk_eq ▸ h.ptr_slots⟩
  · by_cases hle : size + c.sysPageSize ≤ 2 ^ 32
    · obtain ⟨n, hkey, hvalid, hgot⟩ := get_bulkGot h.inv.handles h.ptr_slots
        (lt_of_not_ge hslot) hle objP it
      rw [hkey] at hobjP
      exact hgot.soundInv h hvalid hobjP
    · rcases get_wrapped h.inv (lt_of_not_ge hle) hsize objP it with
        ⟨fault, hget, -⟩ | ⟨b', hupd, hnoFit, -, hget⟩
      · rw [hget]
        exact h.settle_error fault
      · rw [hget]
        exact ⟨failed_inv h.inv hnoFit.1 hupd, h.ptr_slots.updated hupd (by simp)⟩

theorem put_soundInv {h : Nat} (it : IterOrder Nat) (hs : SoundInv c s) (hmem : h ∈ s.out) :
    SoundInv c (s.settle (s.put c h it)) := by
  by_cases hk : ((s.objects h).key c).IsSlot
  · obtain ⟨s', hput, hok, hbulk, -⟩ := put_slot it hs.inv hmem hk
    rw [hput]
    exact ⟨hok.inv, hbulk ▸ hs.ptr_slots⟩
  · obtain ⟨n, hkey⟩ := exists_bulk_key hk
    by_cases hle : c.slotSize (.bulk n) ≤ availableReserveBulkObjMaxSize
    · obtain ⟨b', freed, s', -, hgiven, hput, hok, hbulk, -⟩ :=
        put_resident hs.inv hmem hkey hle (fun hslot => hslot.elim) it
      rw [hput]
      exact ⟨hok.inv, hbulk ▸ hgiven.ptrSlots hs.ptr_slots⟩
    · rcases put_dropped hs.inv hmem hkey (lt_of_not_ge hle) it with
        ⟨-, hput⟩ | ⟨set, s', -, hput, hok, hupd, -⟩
      · rw [hput]
        exact hs.settle_error _
      · rw [hput]
        exact ⟨hok.inv, hs.ptr_slots.updated hupd fun q hq => hs.ptr_slots n q hq⟩

/-- Every step keeps the pool a well-formed store. -/
theorem step_soundInv (h : SoundInv c s) (hrange : a.InRange) (hstep : step c s a = some s') :
    SoundInv c s' := by
  cases a with
  | get size objP it =>
    obtain ⟨-, hobjP, rfl⟩ := step_get hstep
    exact get_soundInv it h hrange.2 hobjP
  | put h' it =>
    obtain ⟨-, hmem, rfl⟩ := step_put hstep
    exact put_soundInv it h hmem
  | recycle h' =>
    obtain ⟨-, hmem, rfl⟩ := step_recycle hstep
    exact ⟨recycle_inv h.inv hmem, h.ptr_slots⟩

/-- What `Get` needs in order to return: the search for a bulk object reads only what is there,
and a size that wraps around to zero is not given a block, which it would divide by zero. -/
def GetSafe (c : Config) (s : Pool) (size : Nat) (objP : Option Nat) : Prop :=
  (∀ n, requestKey c size = .bulk n → s.bulk.SearchSafe n) ∧
    (size + c.sysPageSize ≤ 2 ^ 32 ∨ objP = none)

/-- With an allocation for a valid slot, only the first search can fault. -/
theorem findBulk_ok_iff {b : Bulk} {n : Nat} (hptr : b.PtrSlots) (hvalid : c.Valid (.bulk n))
    (objP : Option Nat) (it : IterOrder Nat) :
    (∃ r, Pool.findBulk c n (c.slotSize (.bulk n)) objP it b = .ok r) ↔
      ∃ r, b.getSuitableBulkPage it n = .ok r := by
  constructor
  · rintro ⟨r, hr⟩
    obtain ⟨found, hsearch, -⟩ := bind_eq_ok.1 hr
    exact ⟨found, hsearch⟩
  · rintro ⟨found, hsearch⟩
    have houtcome := Bulk.findBulk_outcome (c := c) hptr hvalid objP it
    have hfound := Bulk.search_found hptr it n
    generalize hfind : Pool.findBulk c n (c.slotSize (.bulk n)) objP it b = r at houtcome
    cases r with
    | ok r => exact ⟨r, rfl⟩
    | error fault =>
      cases houtcome with
      | fault fits search risky =>
        rw [hsearch] at hfound
        cases hfound with
        | nothing noFit => exact absurd noFit fits
        | served | forgot =>
          simp only [Pool.findBulk, hsearch, ok_bind] at hfind
          cases hfind

/-- `Get` returns exactly when the pool before it is safe for the request. -/
theorem get_ok_iff {size : Nat} {objP : Option Nat} (it : IterOrder Nat) (hs : SoundInv c s)
    (hsize : size < 2 ^ 32) (hobjP : AllocOk c s (requestKey c size) objP) :
    (∃ r, s.get c size objP it = .ok r) ↔ GetSafe c s size objP := by
  have hpage := c.sysPageSize_bounds.2
  by_cases hslot : size ≤ bulkObjThreshold
  · obtain ⟨r, hget, -⟩ := get_slot it hs.inv hslot hobjP
    refine iff_of_true ⟨r, hget⟩ ⟨?_, .inl ?_⟩
    · intro n hn
      exact absurd (bulk_of_requestKey hn) (Nat.not_lt.2 hslot)
    · simp only [bulkObjThreshold] at hslot
      omega
  by_cases hle : size + c.sysPageSize ≤ 2 ^ 32
  · obtain ⟨n, -, hkey, hround, hidx, hvalid⟩ := requestKey_bulk (lt_of_not_ge hslot) hle
    have hget : (∃ r, s.get c size objP it = .ok r) ↔
        ∃ r, Pool.findBulk c n (c.slotSize (.bulk n)) objP it s.bulk = .ok r := by
      simp only [get_eq_getBulk (lt_of_not_ge hslot), Pool.getBulk, hround, hidx]
      constructor
      · rintro ⟨r, hr⟩
        obtain ⟨found, hfind, -⟩ := bind_eq_ok.1 hr
        exact ⟨found, hfind⟩
      · rintro ⟨⟨found, b', newPage⟩, hfind⟩
        rw [hfind, ok_bind]
        cases found with
        | none | some => exact ⟨_, rfl⟩
    rw [hget, findBulk_ok_iff hs.ptr_slots hvalid,
      Bulk.search_ok_iff hs.ptr_slots hs.inv.bulk_noEmpty]
    constructor
    · intro hsafe
      refine ⟨?_, .inl hle⟩
      intro m hm
      exact Key.bulk.inj (hkey.symm.trans hm) ▸ hsafe
    · exact fun hsafe => hsafe.1 n hkey
  · -- the request is for slot zero, which never has a free object
    have hkey := requestKey_wrapped (lt_of_not_ge hle) hsize
    rcases get_wrapped hs.inv (lt_of_not_ge hle) hsize objP it with
      ⟨fault, hget, hfits⟩ | ⟨b', -, hnoFit, hnone, hget⟩
    · refine iff_of_false (by simp [hget]) ?_
      rintro ⟨hsafe, hnone⟩
      refine hfits ⟨⟨?_, fun m ptr _ => by omega⟩, hnone.resolve_left hle⟩
      have hzero := hsafe 0 hkey
      cases hentry : s.bulk.hash.lookup 0 with
      | none => rfl
      | some e =>
        simp only [Bulk.SearchSafe, hentry] at hzero
        exact absurd (objsAt_of_lookup hentry ▸ hs.inv.objsAt_zero) hzero
    · refine iff_of_true ⟨_, hget⟩ ⟨?_, .inr hnone⟩
      intro n hn
      cases hkey.symm.trans hn
      exact hnoFit.searchSafe

/-- Every state that a run reaches is sound. -/
theorem soundInv_of_run {garbage : Nat} {labels : List Label} {t : Pool}
    (hlabels : ∀ a ∈ labels, a.InRange)
    (hrun : Runs.run (step c) (Pool.init c garbage) labels = some t) : SoundInv c t := by
  have halways : Runs.Always (step c) (SoundInv c) (Pool.init c garbage) labels :=
    Runs.always_of_forall (fun s a s' h ha hstep => step_soundInv h ha hstep)
      (init_soundInv c garbage) hlabels
  exact halways.last hrun

end Runs

end MemPool
end CCraft
