import CCraft.MemPool.Bulk

/-!
# Bulk objects in the pool

`Get` and `Put` of bulk objects as operations of a store.  A bulk slot may forget
free objects, unless it is known that its indexes agree.

Main results:

- Theorem {lit}`get_bulkGot`: the outcomes of `Get` for a bulk object, with
  {lit}`served_inv`, {lit}`forgot_inv`, {lit}`expanded_inv` and {lit}`failed_inv` for the
  invariant after each of them.
- Theorems {lit}`put_resident` and {lit}`put_dropped`: `Put` of a bulk object keeps the
  invariant.
-/

namespace CCraft
namespace MemPool

open Slab PageMap

/-! ## The invariant -/

section Invariant

variable {c : Config} {exact : Key → Prop} {s s' : Pool} {n h : Nat} {f : Suitable}
  {b b' : Bulk} {e : HashEntry} {objs : PageMap Nat Nat}

theorem objsAt_of_lookup {hash : AList fun _ : Nat => HashEntry} (h : hash.lookup n = some e) :
    objsAt hash n = e.page.objs := by
  simp only [objsAt, h]

theorem objsAt_of_none {hash : AList fun _ : Nat => HashEntry} (h : hash.lookup n = none) :
    objsAt hash n = ∅ := by
  simp only [objsAt, h]

/-- The free objects after an update of one slot. -/
theorem Bulk.Updated.objsAt_some {set : Option (Finset Nat)} {ptr : Option EntryPtr}
    (upd : b.Updated n set (some e) ptr b') (m : Nat) :
    objsAt b'.hash m = if m = n then e.page.objs else objsAt b.hash m := by
  have hm := upd.hash m
  split_ifs with heq
  · rw [if_pos heq] at hm
    exact objsAt_of_lookup hm
  · rw [if_neg heq] at hm
    simp only [objsAt, hm]

theorem Bulk.Updated.objsAt_none {set : Option (Finset Nat)} {ptr : Option EntryPtr}
    (upd : b.Updated n set none ptr b') (m : Nat) :
    objsAt b'.hash m = if m = n then ∅ else objsAt b.hash m := by
  have hm := upd.hash m
  split_ifs with heq
  · rw [if_pos heq] at hm
    exact objsAt_of_none hm
  · rw [if_neg heq] at hm
    simp only [objsAt, hm]

/-- A change of one entry is a change of one free list. -/
theorem freeMap_bulk_update {slots : Key → Option Slot}
    {hash hash' : AList fun _ : Nat => HashEntry}
    (h : ∀ m, objsAt hash' m = if m = n then objs else objsAt hash m) :
    freeMap slots hash' = Function.update (freeMap slots hash) (.bulk n) objs := by
  funext k
  cases k with
  | bulk m =>
    by_cases hm : m = n
    · subst hm
      rw [Function.update_self]
      exact (h m).trans (if_pos rfl)
    · rw [Function.update_of_ne (by simpa using hm)]
      exact (h m).trans (if_neg hm)
  | _ => rw [Function.update_of_ne (by simp)]; rfl

/-- What remains to be shown when the fixed slots and their pages do not change. -/
theorem Inv.of_bulk (hinv : Inv c exact s) (hwf : (s'.store c).Wf c.carver exact)
    (hhandles : Handles s')
    (hsize : ∀ h ∈ s'.out, (s'.objects h).slotSize = c.slotSize ((s'.objects h).key c))
    (hslots : s'.slots = s.slots)
    (hlive : ∀ k p, k.IsSlot → ((⟨k, p⟩ : Block Key) ∈ s'.live ↔ (⟨k, p⟩ : Block Key) ∈ s.live))
    (hfrees : ∀ r ∈ s'.frees, ∀ o ∈ r.outstanding, o.objPagePv ≠ r.page) : Inv c exact s' := by
  refine ⟨hwf, hhandles, hsize, hslots ▸ hinv.slots_valid, ?_, hfrees⟩
  intro k slot hslot p
  rw [hslots] at hslot
  rw [hlive k p ((hinv.slots_valid k).mp ⟨slot, hslot⟩).1]
  exact hinv.pages_live k slot hslot p

/-- The pages of the fixed slots stay when a bulk page is freed. -/
theorem Inv.mem_live_erase (hinv : Inv c exact s) {p : Nat} :
    ∀ k q, k.IsSlot →
      ((⟨k, q⟩ : Block Key) ∈ s.live.erase ⟨.bulk n, p⟩ ↔ (⟨k, q⟩ : Block Key) ∈ s.live) := by
  intro k q hk
  refine hinv.wf.live_nodup.mem_erase_iff.trans (and_iff_right ?_)
  rintro heq
  cases heq
  exact hk

/-- A failed operation leaves a pool that differs in its fault only. -/
theorem Inv.settle_error (hinv : Inv c exact s) (fault : Fault) :
    Inv c exact (s.settle (.error fault)) :=
  ⟨hinv.wf, ⟨hinv.handles.nodup, hinv.handles.lt_made⟩, hinv.size_eq, hinv.slots_valid,
    hinv.pages_live, hinv.frees_ok⟩

/-- The free objects of a bulk slot lie in blocks of that slot. -/
theorem Inv.bulk_home (hinv : Inv c exact s) {p : Nat} {l : List Nat}
    (hl : (objsAt s.bulk.hash n).lookup p = some l) :
    (⟨.bulk n, p⟩ : Block Key) ∈ s.live ∧ c.Valid (.bulk n) := by
  have hlive : (⟨.bulk n, p⟩ : Block Key) ∈ s.live := hinv.wf.free_home (.bulk n) p l hl
  exact ⟨hlive, (hinv.wf.fits _ hlive).1⟩

theorem Inv.bulk_noEmpty (hinv : Inv c exact s) (n : Nat) : NoEmpty (objsAt s.bulk.hash n) :=
  fun p l hl => hinv.wf.free_ne_nil (.bulk n) p l hl

/-- There are never so many free objects that a counter could overflow. -/
theorem Inv.total_lt (hinv : Inv c exact s) (n : Nat) :
    total (objsAt s.bulk.hash n) < 2 ^ 31 := by
  by_cases hkeys : (objsAt s.bulk.hash n).keys = []
  · rw [(total_eq_zero (hinv.bulk_noEmpty n)).mpr hkeys]
    norm_num
  · obtain ⟨p, hp⟩ := List.exists_mem_of_ne_nil _ hkeys
    obtain ⟨l, hl⟩ := mem_keys_iff_lookup.mp hp
    obtain ⟨hlarge, -⟩ := (hinv.bulk_home hl).2
    have hle : total (objsAt s.bulk.hash n) * (c.sysPageSize * n) ≤ 2 ^ 47 :=
      hinv.wf.total_le (.bulk n)
    have hmul : total (objsAt s.bulk.hash n) * 131072 ≤
        total (objsAt s.bulk.hash n) * (c.sysPageSize * n) :=
      Nat.mul_le_mul_left _ (le_of_lt hlarge)
    omega

/-- The wrapper of a bulk object belongs to the slot the object was taken from. -/
theorem key_of_slotIdx (hvalid : c.Valid (.bulk n)) (x p : Nat) :
    u32 (n * c.sysPageSize) = c.slotSize (.bulk n) ∧
      (⟨.bulk, u32 (n * c.sysPageSize), x, p⟩ : MemObject).key c = .bulk n := by
  have hpos : 0 < c.sysPageSize := by have := c.sysPageSize_bounds; omega
  have hsize : u32 (n * c.sysPageSize) = c.sysPageSize * n := by
    rw [Nat.mul_comm]
    exact u32_of_lt hvalid.2
  refine ⟨hsize, ?_⟩
  simp only [MemObject.key, hsize, convertSlotObjSizeToSlotIdx, Nat.mul_div_cancel_left _ hpos]

/-- An object was taken and wrapped; slots that may forget objects may have lost all of
theirs. -/
theorem taken_inv (hinv : Inv c exact s) (hpopped : s.bulk.Popped f e objs)
    (hobjs : ∀ m, objsAt b'.hash m =
        (if m = f.slotIdx then objs else objsAt s.bulk.hash m) ∨
      ¬ exact (.bulk m) ∧ objsAt b'.hash m = ∅)
    (hw : Wrapped (s.setBulk b')
      ⟨.bulk, u32 (f.slotIdx * c.sysPageSize), f.objPv, f.pagePv⟩ h s') : Inv c exact s' := by
  have hfree : objsAt s.bulk.hash f.slotIdx = e.page.objs := objsAt_of_lookup hpopped.entry
  have hfront := (popFront_eq_some hpopped.pop).1
  rw [← hfree] at hfront
  obtain ⟨hsize, hkey⟩ := key_of_slotIdx (hinv.bulk_home hfront).2 f.objPv f.pagePv
  refine hinv.of_bulk ?_ hw.handles ?_ hw.slots_eq ?_ ?_
  · have htake := hinv.wf.take (o := ⟨.bulk f.slotIdx, f.pagePv, f.objPv⟩) (m := objs)
      (by rw [← hpopped.pop, ← hfree]; rfl)
    have hrestrict := htake.restrict (f := freeMap s.slots b'.hash) ?_ ?_
    · rw [hw.store_eq c]
      simp only [MemObject.obj, hkey]
      exact hrestrict
    · intro k p l hl
      cases k with
      | bulk m =>
        rcases hobjs m with heq | ⟨-, heq⟩
        · simp only [freeMap, heq] at hl
          by_cases hm : m = f.slotIdx
          · subst hm
            rw [if_pos rfl] at hl
            simpa [Store.take] using hl
          · rw [if_neg hm] at hl
            simpa [Store.take, hm, Pool.store, freeMap] using hl
        · simp [freeMap, heq] at hl
      | _ => exact hl
    · intro k hex p
      cases k with
      | bulk m =>
        rcases hobjs m with heq | ⟨hnot, -⟩
        · simp only [freeMap, heq]
          by_cases hm : m = f.slotIdx
          · subst hm
            simp [Store.take]
          · simp [Store.take, hm, Pool.store, freeMap]
        · exact absurd hex hnot
      | _ => rfl
  · intro h' hmem
    rcases hw.mem_out hmem with heq | ⟨hmem, heq⟩
    · rw [heq, hkey]
      exact hsize
    · rw [heq]
      exact hinv.size_eq h' hmem
  · intro k p _
    rw [hw.live_eq]
    rfl
  · rw [hw.frees_eq]
    exact hinv.frees_ok

/-- A served request has taken one object from the entry of its slot. -/
theorem Bulk.Served.popped {b b' : Bulk} (h : b.Served f b') :
    ∃ e objs, b.Popped f e objs ∧ b'.pages.lookup = b.pages.lookup ∧
      ∀ m, objsAt b'.hash m = if m = f.slotIdx then objs else objsAt b.hash m := by
  cases h with
  | kept kept =>
    obtain ⟨popped, rest, upd⟩ := kept
    refine ⟨_, _, popped, ?_, upd.objsAt_some⟩
    funext m
    rw [upd.pages m]
    split_ifs with hm
    · rw [hm]
    · rfl
  | last popped rest upd =>
    refine ⟨_, _, popped, ?_, ?_⟩
    · funext m
      rw [upd.pages m]
      split_ifs with hm
      · rw [hm]
      · rfl
    · intro m
      rw [upd.objsAt_none, eq_empty_of_keys rest]

/-- An object taken without damage. -/
theorem served_inv (hinv : Inv c exact s) (hserved : s.bulk.Served f b')
    (hw : Wrapped (s.setBulk b')
      ⟨.bulk, u32 (f.slotIdx * c.sysPageSize), f.objPv, f.pagePv⟩ h s') : Inv c exact s' := by
  obtain ⟨e, objs, hpopped, -, hobjs⟩ := hserved.popped
  exact taken_inv hinv hpopped (fun m => .inl (hobjs m)) hw

/-- An object taken with damage to another slot. -/
theorem forgot_inv (hinv : Inv c exact s) (hexact : ∀ m, ¬ exact (.bulk m))
    (hforgot : s.bulk.Forgot f b')
    (hw : Wrapped (s.setBulk b')
      ⟨.bulk, u32 (f.slotIdx * c.sysPageSize), f.objPv, f.pagePv⟩ h s') : Inv c exact s' := by
  cases hforgot with
  | mk popped rest lt pages hash ordered =>
    refine taken_inv hinv popped ?_ hw
    intro m
    have hm := hash m
    split_ifs at hm with h₁ h₂
    · exact .inr ⟨hexact m, objsAt_of_none hm⟩
    · rw [if_pos h₂]
      exact .inl (objsAt_of_lookup hm)
    · rw [if_neg h₂]
      exact .inl (by simp only [objsAt, hm])

/-- The pool with a new block, before an object of it is taken. -/
theorem expanded_inv {p cnt : Nat} {set : Option (Finset Nat)} {ptr : Option EntryPtr}
    (hinv : Inv c exact s) (hnone : s.bulk.hash.lookup n = none) (hvalid : c.Valid (.bulk n))
    (hobjP : AllocOk c s (.bulk n) (some p))
    (hupd : s.bulk.Updated n set (some ⟨s.bulk.nodes,
      ⟨(∅ : PageMap Nat Nat).insert p (c.carver.split (.bulk n) p), cnt⟩⟩) ptr b') :
    Inv c exact ((s.addLive (.bulk n) (some p)).setBulk b') := by
  obtain ⟨-, hfits, hfresh⟩ := hobjP
  refine hinv.of_bulk ?_ ⟨hinv.handles.nodup, hinv.handles.lt_made⟩ hinv.size_eq rfl ?_
    hinv.frees_ok
  · have hstore : ((s.addLive (.bulk n) (some p)).setBulk b').store c =
        (s.store c).alloc c.carver ⟨.bulk n, p⟩ := by
      have hfree : (s.store c).free (.bulk n) = ∅ := objsAt_of_none hnone
      simp only [Store.alloc, hfree]
      simp only [Pool.store, Pool.setBulk, Pool.addLive, freeMap_bulk_update hupd.objsAt_some]
      rfl
    rw [hstore]
    exact hinv.wf.alloc ⟨hvalid, hfits⟩ hfresh
  · intro k q hk
    simp only [Pool.setBulk, Pool.addLive, List.mem_cons, Block.mk.injEq]
    refine or_iff_right ?_
    rintro ⟨rfl, -⟩
    exact hk

/-- The pool after a failed expansion. -/
theorem failed_inv {set : Option (Finset Nat)} {ptr : Option EntryPtr} (hinv : Inv c exact s)
    (hnone : s.bulk.hash.lookup n = none) (hupd : s.bulk.Updated n set none ptr b') :
    Inv c exact (s.setBulk b') := by
  have hsame : ∀ m, objsAt b'.hash m = objsAt s.bulk.hash m := by
    intro m
    rw [hupd.objsAt_none]
    split_ifs with hm
    · rw [hm, objsAt_of_none hnone]
    · rfl
  have hfree : freeMap s.slots b'.hash = freeMap s.slots s.bulk.hash := by
    funext k
    cases k with
    | bulk m => exact hsame m
    | _ => rfl
  refine hinv.of_bulk ?_ ⟨hinv.handles.nodup, hinv.handles.lt_made⟩ hinv.size_eq rfl
    (fun _ _ _ => Iff.rfl) hinv.frees_ok
  simp only [Pool.store, Pool.setBulk, hfree]
  exact hinv.wf

/-- The outcomes of `Get` for a bulk object. -/
inductive BulkGot (c : Config) (s : Pool) (n : Nat) (objP : Option Nat) :
    Except Fault (Option Nat × Pool) → Prop
  | fault {fault : Fault} (fits : ¬ s.bulk.NoFit n) (search : fault.OfSearch)
      (risky : s.bulk.Agree → s.bulk.Risky n) : BulkGot c s n objP (.error fault)
  | forgot {f : Suitable} {b' : Bulk} {h : Nat} {s' : Pool}
      (forgot : s.bulk.Forgot f b') (risky : s.bulk.Risky n)
      (wrapped : Wrapped (s.setBulk b')
        ⟨.bulk, u32 (f.slotIdx * c.sysPageSize), f.objPv, f.pagePv⟩ h s') :
      BulkGot c s n objP (.ok (some h, s'))
  | reused {f : Suitable} {b' : Bulk} {h : Nat} {s' : Pool} (fits : ¬ s.bulk.NoFit n)
      (served : s.bulk.Served f b') (safe : s.bulk.Agree → ¬ s.bulk.Risky n)
      (wrapped : Wrapped (s.setBulk b')
        ⟨.bulk, u32 (f.slotIdx * c.sysPageSize), f.objPv, f.pagePv⟩ h s') :
      BulkGot c s n objP (.ok (some h, s'))
  | failed {b' : Bulk} (noFit : s.bulk.NoFit n) (alloc : objP = none)
      (upd : s.bulk.Updated n (some ∅) none none b') :
      BulkGot c s n objP (.ok (none, s.setBulk b'))
  | expanded {p : Nat} {b₁ b' : Bulk} {f : Suitable} {h : Nat} {s' : Pool}
      (noFit : s.bulk.NoFit n) (alloc : objP = some p)
      (upd : s.bulk.Updated n (some {p}) (some ⟨s.bulk.nodes,
        ⟨(∅ : PageMap Nat Nat).insert p (c.carver.split (.bulk n) p),
          c.pageBytes (.bulk n) / c.slotSize (.bulk n)⟩⟩) (some ⟨n, s.bulk.nodes⟩) b₁)
      (slot : f.slotIdx = n) (served : b₁.Served f b')
      (wrapped : Wrapped ((s.addLive (.bulk n) (some p)).setBulk b')
        ⟨.bulk, u32 (f.slotIdx * c.sysPageSize), f.objPv, f.pagePv⟩ h s') :
      BulkGot c s n objP (.ok (some h, s'))

/-- Sizes above the bulk threshold are above the tiny one. -/
theorem not_tiny_of_bulk {size : Nat} (hlt : bulkObjThreshold < size) :
    ¬ tinyObjThreshold ≥ size := by
  simp only [tinyObjThreshold, bulkObjThreshold] at hlt ⊢
  omega

/-- A size above the threshold belongs to a bulk. -/
theorem requestKey_eq_bulk {size : Nat} (hlt : bulkObjThreshold < size) :
    requestKey c size = .bulk (convertSlotObjSizeToSlotIdx
      (roundupToTheNextHighestMultipleOfExponent2 size c.exponent) c.sysPageSize) := by
  rw [requestKey, if_neg (not_tiny_of_bulk hlt), if_neg (Nat.not_le.2 hlt)]

theorem get_eq_getBulk {size : Nat} (hlt : bulkObjThreshold < size) (objP : Option Nat)
    (it : IterOrder Nat) : s.get c size objP it = s.getBulk c size objP it := by
  rw [Pool.get, if_neg (not_tiny_of_bulk hlt), if_neg (Nat.not_le.2 hlt)]

/-- The slot of a bulk request. -/
theorem requestKey_bulk {size : Nat} (hlt : bulkObjThreshold < size)
    (hle : size + c.sysPageSize ≤ 2 ^ 32) :
    ∃ n, n = (size + c.sysPageSize - 1) / c.sysPageSize ∧ requestKey c size = .bulk n ∧
      roundupToTheNextHighestMultipleOfExponent2 size c.exponent = c.slotSize (.bulk n) ∧
      convertSlotObjSizeToSlotIdx (c.slotSize (.bulk n)) c.sysPageSize = n ∧
      c.Valid (.bulk n) := by
  obtain ⟨hlo, hhi⟩ := c.sysPageSize_bounds
  have hge := c.exponent_ge
  have hexp := c.exponent_le
  obtain ⟨hround, hidx⟩ := roundup_slot size (e := c.exponent) (p := c.sysPageSize)
    rfl (by omega) (by omega) hle
  have hceil := le_mul_ceil size (p := c.sysPageSize) (by omega)
  refine ⟨_, rfl, ?_, hround, ?_, ?_, ?_⟩
  · rw [requestKey_eq_bulk hlt, hidx]
  · exact Nat.mul_div_cancel_left _ (by omega)
  · omega
  · omega

/-- Requests up to the bulk threshold are not served from bulk slots. -/
theorem bulk_of_requestKey {size : Nat} (hkey : requestKey c size = .bulk n) :
    bulkObjThreshold < size := by
  by_contra hle
  have hle' : bulkObjThreshold ≥ size := by omega
  unfold requestKey at hkey
  split_ifs at hkey

/-- `Get` of a bulk object takes one of these ways. -/
theorem get_bulkGot {size : Nat} (hhandles : Handles s) (hptr : s.bulk.PtrSlots)
    (hlt : bulkObjThreshold < size) (hle : size + c.sysPageSize ≤ 2 ^ 32) (objP : Option Nat)
    (it : IterOrder Nat) :
    ∃ n, requestKey c size = .bulk n ∧ c.Valid (.bulk n) ∧
      BulkGot c s n objP (s.get c size objP it) := by
  obtain ⟨n, -, hkey, hround, hidx, hvalid⟩ := requestKey_bulk hlt hle
  refine ⟨n, hkey, hvalid, ?_⟩
  have hfind := Bulk.findBulk_outcome (c := c) hptr hvalid objP it
  rw [get_eq_getBulk hlt]
  simp only [Pool.getBulk, hround, hidx]
  generalize Pool.findBulk c n (c.slotSize (.bulk n)) objP it s.bulk = r at hfind ⊢
  cases hfind with
  | reused fits served safe =>
    refine .reused fits served safe (getMemObject_wrapped ?_ _)
    exact ⟨hhandles.nodup, hhandles.lt_made⟩
  | forgot forgot risky =>
    refine .forgot forgot risky (getMemObject_wrapped ?_ _)
    exact ⟨hhandles.nodup, hhandles.lt_made⟩
  | fault fits search risky => exact .fault fits search risky
  | failed noFit alloc upd => exact .failed noFit alloc upd
  | expanded noFit alloc upd slot served =>
    refine .expanded noFit alloc upd slot served (getMemObject_wrapped ?_ _)
    exact ⟨hhandles.nodup, hhandles.lt_made⟩

/-- The free objects of a slot are those of its entry. -/
theorem Bulk.Slotted.objsAt {ptr : Option EntryPtr} (h : b.Slotted n e ptr) :
    objsAt b.hash n = e.page.objs := by
  cases h with
  | old entry => exact objsAt_of_lookup entry
  | new entry => exact objsAt_of_none entry

/-- The pages of the resident bulk slots hold four objects, but those of the largest
one hold a single object. -/
theorem onePageObjsCnt_eq (hvalid : c.Valid (.bulk n))
    (hle : c.slotSize (.bulk n) ≤ availableReserveBulkObjMaxSize) :
    genExpandSlotPageSize (c.slotSize (.bulk n)) expandBulkObjCntFactor c.sysPageSize /
        c.slotSize (.bulk n) = 4 ∧
      ((c.carver.split (.bulk n) 0).length = 4 ∨ (c.carver.split (.bulk n) 0).length = 1) := by
  obtain ⟨hlo, hhi⟩ := c.sysPageSize_bounds
  have hsize : c.slotSize (.bulk n) = c.sysPageSize * n := rfl
  have hpos := (Config.pageBytes_bounds hvalid).1
  simp only [availableReserveBulkObjMaxSize] at hle
  have hexpand : genExpandSlotPageSize (c.slotSize (.bulk n)) expandBulkObjCntFactor
      c.sysPageSize = c.slotSize (.bulk n) * 4 := by
    rw [genExpandSlotPageSize_eq (by omega) (by simp only [expandBulkObjCntFactor]; omega)]
    have hsplit : c.slotSize (.bulk n) * expandBulkObjCntFactor + c.sysPageSize - 1 =
        c.sysPageSize * (n * 4) + (c.sysPageSize - 1) := by
      simp only [expandBulkObjCntFactor, hsize, Nat.mul_assoc]
      omega
    rw [hsplit, Nat.mul_add_div (by omega), Nat.div_eq_of_lt (by omega : c.sysPageSize - 1 < _),
      hsize, add_zero]
    ring
  refine ⟨by rw [hexpand, Nat.mul_div_cancel_left _ hpos], ?_⟩
  simp only [Config.carver, splitMemPage, List.length_map, List.length_range, Config.pageBytes]
  split_ifs with hlt
  · exact .inl (by rw [hexpand, Nat.mul_div_cancel_left _ hpos])
  · exact .inr (Nat.div_self hpos)

/-- A page with as many free objects as `put` asks for is free as a whole. -/
theorem full_of_length (hinv : Inv c exact s) {p : Nat}
    (hlive : (⟨.bulk n, p⟩ : Block Key) ∈ s.live)
    (hle : c.slotSize (.bulk n) ≤ availableReserveBulkObjMaxSize)
    (hlen : (listAt (objsAt s.bulk.hash n) p).length =
      genExpandSlotPageSize (c.slotSize (.bulk n)) expandBulkObjCntFactor c.sysPageSize /
        c.slotSize (.bulk n)) :
    (listAt ((s.store c).free (.bulk n)) p).length = (c.carver.split (.bulk n) p).length := by
  obtain ⟨hfour, hcases⟩ := onePageObjsCnt_eq (hinv.wf.fits _ hlive).1 hle
  have hle : (listAt (objsAt s.bulk.hash n) p).length ≤ (c.carver.split (.bulk n) p).length :=
    hinv.wf.listAt_le hlive
  have hsame : (c.carver.split (.bulk n) p).length = (c.carver.split (.bulk n) 0).length := by
    simp [Config.carver, splitMemPage]
  show (listAt (objsAt s.bulk.hash n) p).length = _
  rw [hfour] at hlen
  omega

/-- An object given back to its slot. -/
theorem given_inv (hinv : Inv c exact s) (hmem : h ∈ s.out)
    (hkey : (s.objects h).key c = .bulk n)
    (hobjs : ∀ m, objsAt b'.hash m = if m = n then
      pushBack (objsAt s.bulk.hash n) (s.objects h).objPagePv (s.objects h).objPv
      else objsAt s.bulk.hash m) :
    Inv c exact ((s.retire h).setBulk b') := by
  have hhandles := retire_handles hinv.handles hmem
  refine hinv.of_bulk ?_ ⟨hhandles.nodup, hhandles.lt_made⟩
    (fun h' hh' => hinv.size_eq h' (List.mem_of_mem_erase hh')) rfl (fun _ _ _ => Iff.rfl)
    hinv.frees_ok
  have hstore : ((s.retire h).setBulk b').store c = (s.store c).give ((s.objects h).obj c) := by
    have hfree : (s.store c).free (.bulk n) = objsAt s.bulk.hash n := rfl
    simp only [Store.give, MemObject.obj, hkey, hfree]
    simp only [Pool.store, Pool.setBulk, freeMap_bulk_update hobjs]
    congr 1
    have houts := retire_outs c hmem
    simp only [MemObject.obj, hkey] at houts
    exact houts
  rw [hstore]
  exact hinv.wf.give (obj_mem_outs hmem)

/-- A full page given up; a slot that may forget objects may be given up with it. -/
theorem gaveUp_inv {p : Nat} (hinv : Inv c exact s) (hp : p ∈ (objsAt s.bulk.hash n).keys)
    (hfull : (listAt ((s.store c).free (.bulk n)) p).length = (c.carver.split (.bulk n) p).length)
    (hother : ∀ m, m ≠ n → objsAt b'.hash m = objsAt s.bulk.hash m)
    (hself : objsAt b'.hash n = (objsAt s.bulk.hash n).erase p ∨
      ¬ exact (.bulk n) ∧ objsAt b'.hash n = ∅) :
    ∃ s', (s.setBulk b').freeBlock p = .ok s' ∧ Inv c exact s' ∧ s'.fault = s.fault ∧
      s'.out = s.out ∧ s'.objects = s.objects ∧ s'.bulk = b' ∧
      s'.live = s.live.erase ⟨.bulk n, p⟩ := by
  obtain ⟨l, hl⟩ := mem_keys_iff_lookup.mp hp
  obtain ⟨hlive, -⟩ := hinv.bulk_home hl
  have hfind := hinv.find_live hlive
  simp only [Pool.freeBlock, Pool.setBulk, hfind]
  refine ⟨_, rfl, hinv.of_bulk ?_ ⟨hinv.handles.nodup, hinv.handles.lt_made⟩ hinv.size_eq rfl ?_ ?_,
    rfl, rfl, rfl, rfl, rfl⟩
  · have hdrop := hinv.wf.drop hlive hfull
    refine hdrop.restrict (f := freeMap s.slots b'.hash) ?_ ?_
    · intro k q l' hl'
      cases k with
      | bulk m =>
        simp only [freeMap] at hl'
        by_cases hm : m = n
        · subst hm
          rcases hself with heq | ⟨-, heq⟩
          · rw [heq] at hl'
            simpa [Store.drop, Pool.store, freeMap] using hl'
          · simp [heq] at hl'
        · rw [hother m hm] at hl'
          simpa [Store.drop, Pool.store, freeMap, hm] using hl'
      | _ => exact hl'
    · intro k hex q
      cases k with
      | bulk m =>
        simp only [freeMap]
        by_cases hm : m = n
        · subst hm
          rcases hself with heq | ⟨hnot, -⟩
          · rw [heq]
            simp [Store.drop, Pool.store, freeMap]
          · exact absurd hex hnot
        · rw [hother m hm]
          simp [Store.drop, Pool.store, freeMap, hm]
      | _ => rfl
  · exact hinv.mem_live_erase
  · refine hinv.frees_append fun h' hh' => ?_
    exact hinv.wf.page_ne_of_full hlive hfull (obj_mem_outs hh')

/-- What `Put` of a bulk object starts from. -/
theorem put_bulk_eq (hinv : Inv c exact s) (hmem : h ∈ s.out)
    (hkey : (s.objects h).key c = .bulk n) (it : IterOrder Nat) :
    (s.objects h).slotSize = c.slotSize (.bulk n) ∧
      convertSlotObjSizeToSlotIdx (c.slotSize (.bulk n)) c.sysPageSize = n ∧
      s.put c h it = (s.retire h).putBulk c (s.objects h) it := by
  have hsize := hinv.size_eq h hmem
  rw [hkey] at hsize
  have htype : (s.objects h).type = .bulk := by
    cases htype : (s.objects h).type <;> simp [MemObject.key, htype] at hkey ⊢
  refine ⟨hsize, ?_, ?_⟩
  · simp only [MemObject.key, htype, hsize, Key.bulk.injEq] at hkey
    exact hkey
  · simp only [Pool.put, htype]

/-- The pool between the return of an object and the release of a full page. -/
theorem put_gaveUp {p : Nat} (hinv : Inv c exact s) (hmem : h ∈ s.out)
    (hkey : (s.objects h).key c = .bulk n)
    (hle : c.slotSize (.bulk n) ≤ availableReserveBulkObjMaxSize)
    (hobjs : objs = pushBack (objsAt s.bulk.hash n) (s.objects h).objPagePv (s.objects h).objPv)
    (hp : p ∈ objs.keys) (hlen : (listAt objs p).length = 4)
    (hother : ∀ m, m ≠ n → objsAt b'.hash m = objsAt s.bulk.hash m)
    (hself : objsAt b'.hash n = objs.erase p ∨ ¬ exact (.bulk n) ∧ objsAt b'.hash n = ∅) :
    ∃ s', ((s.retire h).setBulk b').freeBlock p = .ok s' ∧ PutOk c exact s h s' ∧
      s'.bulk = b' ∧ s'.live = s.live.erase ⟨.bulk n, p⟩ := by
  obtain ⟨hfour, -⟩ := onePageObjsCnt_eq (hkey ▸ hinv.key_valid hmem) hle
  obtain ⟨b₁, hb₁⟩ : ∃ b₁ : Bulk, ∀ m, objsAt b₁.hash m =
      if m = n then objs else objsAt s.bulk.hash m := by
    refine ⟨{ s.bulk with hash := s.bulk.hash.insert n ⟨0, ⟨objs, 0⟩⟩ }, ?_⟩
    intro m
    simp only [objsAt, lookup_insert_eq]
    split_ifs <;> rfl
  have hself₁ : objsAt b₁.hash n = objs := (hb₁ n).trans (if_pos rfl)
  have hinv₁ : Inv c exact ((s.retire h).setBulk b₁) :=
    given_inv hinv hmem hkey fun m => (hb₁ m).trans (by rw [hobjs])
  have hp₁ : p ∈ (objsAt b₁.hash n).keys := hself₁.symm ▸ hp
  obtain ⟨l, hl⟩ := mem_keys_iff_lookup.mp hp₁
  have hfull := full_of_length hinv₁ (hinv₁.bulk_home hl).1 hle
    (by rw [hfour, ← hlen, ← hself₁]; rfl)
  have hrest : ∀ m, m ≠ n → objsAt b'.hash m = objsAt b₁.hash m := by
    intro m hm
    rw [hother m hm, hb₁ m, if_neg hm]
  obtain ⟨s', hok, hinv', hfault, hout, hobjects, hbulk, hlive⟩ :=
    gaveUp_inv hinv₁ hp₁ hfull hrest (by rw [← hself₁] at hself; exact hself)
  exact ⟨s', hok, ⟨hinv', hfault, hout, hobjects⟩, hbulk, hlive⟩

/-- When the counter of a slot is right and drops to zero, no free object is left. -/
theorem emptied_objs {ptr : Option EntryPtr} {o : MemObject} {p : Nat} (hinv : Inv c exact s)
    (hslotted : s.bulk.Slotted n e ptr)
    (hcnt : ∀ e, s.bulk.hash.lookup n = some e → e.page.cnt = total e.page.objs)
    (hlen : (listAt (pushBack e.page.objs o.objPagePv o.objPv) p).length = 4)
    (hrest : u32 (u32 (e.page.cnt + 1) + (2 ^ 32 - 4)) = 0) :
    (pushBack e.page.objs o.objPagePv o.objPv).erase p = ∅ := by
  have hobjs := hslotted.objsAt
  have hne : NoEmpty e.page.objs := hobjs ▸ hinv.bulk_noEmpty n
  have hlt : total e.page.objs < 2 ^ 31 := hobjs ▸ hinv.total_lt n
  have hcount : e.page.cnt = total e.page.objs := by
    cases hslotted with
    | old entry => exact hcnt e entry
    | new entry => rfl
  have hsum := total_erase (pushBack e.page.objs o.objPagePv o.objPv) p
  rw [total_pushBack, hlen] at hsum
  rw [hcount, u32_of_lt (show total e.page.objs + 1 < 2 ^ 32 by omega), u32] at hrest
  refine eq_empty_of_keys ((total_eq_zero (noEmpty_erase (noEmpty_pushBack hne))).mp ?_)
  omega

/-- `Put` of a bulk object that stays in the pool.  A slot that never forgets objects
needs a counter that is right. -/
theorem put_resident (hinv : Inv c exact s) (hmem : h ∈ s.out)
    (hkey : (s.objects h).key c = .bulk n)
    (hle : c.slotSize (.bulk n) ≤ availableReserveBulkObjMaxSize)
    (hcnt : exact (.bulk n) → ∀ e, s.bulk.hash.lookup n = some e →
      e.page.cnt = total e.page.objs) (it : IterOrder Nat) :
    ∃ b' freed s', Pool.residentBulk c.nprocs 4 n it (s.objects h) s.bulk = (b', freed) ∧
      s.bulk.Given 4 n (s.objects h) (b', freed) ∧ s.put c h it = .ok s' ∧
      PutOk c exact s h s' ∧ s'.bulk = b' ∧
      s'.live = freed.elim s.live fun p => s.live.erase ⟨.bulk n, p⟩ := by
  obtain ⟨hsize, hidx, hput⟩ := put_bulk_eq hinv hmem hkey it
  obtain ⟨hfour, -⟩ := onePageObjsCnt_eq (hkey ▸ hinv.key_valid hmem) hle
  have hnot : ¬ c.slotSize (.bulk n) > availableReserveBulkObjMaxSize := by omega
  have hgiven := Bulk.residentBulk_given c.nprocs 4 it s.bulk n (s.objects h)
  have hbulk : (s.retire h).bulk = s.bulk := rfl
  simp only [hput, Pool.putBulk, hsize, hidx, hnot, if_false, hfour, hbulk]
  generalize Pool.residentBulk c.nprocs 4 n it (s.objects h) s.bulk = r at hgiven ⊢
  obtain ⟨b', freed⟩ := r
  refine ⟨b', freed, ?_⟩
  cases hgiven with
  | kept slotted upd =>
    refine ⟨_, rfl, .kept slotted upd, rfl, ⟨?_, rfl, rfl, rfl⟩, rfl, rfl⟩
    refine given_inv hinv hmem hkey ?_
    intro m
    rw [upd.objsAt_some, slotted.objsAt]
  | freed slotted mem full cnt_eq rest upd =>
    obtain ⟨s', hok, hput', hbulk', hlive⟩ := put_gaveUp hinv hmem hkey hle
      (by rw [slotted.objsAt]) mem full
      (fun m hm => (upd.objsAt_some m).trans (if_neg hm))
      (.inl ((upd.objsAt_some n).trans (if_pos rfl)))
    exact ⟨s', rfl, .freed slotted mem full cnt_eq rest upd, hok, hput', hbulk', hlive⟩
  | emptied slotted mem full rest upd =>
    have hzero : objsAt b'.hash n = ∅ := (upd.objsAt_none n).trans (if_pos rfl)
    obtain ⟨s', hok, hput', hbulk', hlive⟩ := put_gaveUp hinv hmem hkey hle
      (by rw [slotted.objsAt]) mem full
      (fun m hm => (upd.objsAt_none m).trans (if_neg hm))
      (by
        by_cases hex : exact (.bulk n)
        · exact .inl (hzero.trans (emptied_objs hinv slotted (hcnt hex) full rest).symm)
        · exact .inr ⟨hex, hzero⟩)
    exact ⟨s', rfl, .emptied slotted mem full rest upd, hok, hput', hbulk', hlive⟩

theorem exists_bulk_key {k : Key} (hk : ¬ k.IsSlot) : ∃ n, k = .bulk n := by
  cases k with
  | bulk n => exact ⟨n, rfl⟩
  | _ => exact absurd trivial hk

/-- The page set of a slot after the page of an object above the resident limit is
gone. -/
def droppedSet (set : Finset Nat) (p : Nat) : Option (Finset Nat) :=
  if set.erase p = ∅ then none else some (set.erase p)

/-- `Put` of a bulk object above the resident limit. -/
theorem put_dropped (hinv : Inv c exact s) (hmem : h ∈ s.out)
    (hkey : (s.objects h).key c = .bulk n)
    (hlt : availableReserveBulkObjMaxSize < c.slotSize (.bulk n)) (it : IterOrder Nat) :
    (s.bulk.pages.lookup n = none ∧ s.put c h it = .error .noPageSet) ∨
      ∃ set s', s.bulk.pages.lookup n = some set ∧ s.put c h it = .ok s' ∧
        PutOk c exact s h s' ∧
        s.bulk.Updated n (droppedSet set (s.objects h).objPagePv) (s.bulk.hash.lookup n)
          (s.bulk.ordered.find? n) s'.bulk ∧
        s'.live = s.live.erase ⟨.bulk n, (s.objects h).objPagePv⟩ := by
  obtain ⟨hsize, hidx, hput⟩ := put_bulk_eq hinv hmem hkey it
  have hgt : c.slotSize (.bulk n) > availableReserveBulkObjMaxSize := hlt
  have hobj : (s.objects h).obj c = ⟨.bulk n, (s.objects h).objPagePv, (s.objects h).objPv⟩ := by
    rw [MemObject.obj, hkey]
  have hout : (⟨.bulk n, (s.objects h).objPagePv, (s.objects h).objPv⟩ : Obj Key) ∈
      (s.store c).outs := hobj ▸ obj_mem_outs hmem
  have hlive : (⟨.bulk n, (s.objects h).objPagePv⟩ : Block Key) ∈ s.live :=
    hinv.wf.out_home _ hout
  have hvalid : c.Valid (.bulk n) := (hinv.wf.fits _ hlive).1
  have hpos := (Config.pageBytes_bounds hvalid).1
  have hone : (c.carver.split (.bulk n) (s.objects h).objPagePv).length = 1 := by
    have hnot : ¬ c.slotSize (.bulk n) < availableReserveBulkObjMaxSize := by omega
    simp only [Config.carver, splitMemPage, List.length_map, List.length_range, Config.pageBytes,
      hnot, if_false, Nat.div_self hpos]
  have hbulk : (s.retire h).bulk = s.bulk := rfl
  have hdrop : s.put c h it = (s.retire h).dropBulk n (s.objects h) := by
    simp only [hput, Pool.putBulk, hsize, hidx, hgt, if_true]
  simp only [hdrop, Pool.dropBulk, hbulk]
  cases hset : s.bulk.pages.lookup n with
  | none => exact .inl ⟨rfl, rfl⟩
  | some set =>
    right
    have hfind : (s.retire h).live.find? (fun b => b.addr = (s.objects h).objPagePv) =
        some ⟨.bulk n, (s.objects h).objPagePv⟩ := hinv.find_live hlive
    have hhandles := retire_handles hinv.handles hmem
    simp only [Pool.freeBlock, Pool.setBulk, hfind]
    refine ⟨set, _, rfl, rfl, ⟨hinv.of_bulk ?_ ⟨hhandles.nodup, hhandles.lt_made⟩
      (fun h' hh' => hinv.size_eq h' (List.mem_of_mem_erase hh')) rfl ?_ ?_, rfl, rfl, rfl⟩,
      ⟨?_, ?_, ?_⟩, rfl⟩
    · have hdiscard := hinv.wf.discard hout hone
      have houts := retire_outs c hmem
      rw [hobj] at houts
      simp only [Store.discard, Pool.store, ← houts] at hdiscard
      exact hdiscard
    · exact hinv.mem_live_erase
    · refine hinv.frees_append fun h' hh' => ?_
      have hrest : ((s.retire h).objects h').obj c ∈ (s.store c).outs.erase
          ⟨.bulk n, (s.objects h).objPagePv, (s.objects h).objPv⟩ := by
        rw [← hobj]
        exact (retire_outs c hmem) ▸ obj_mem_outs hh'
      exact hinv.wf.page_ne_of_single hout hone hrest
    · intro m
      simp only [droppedSet]
      by_cases hempty : set.erase (s.objects h).objPagePv = ∅
      · simp only [hempty, if_true, lookup_erase_eq]
      · simp only [hempty, if_false, lookup_insert_eq]
    · simp
    · simp

end Invariant

/-! ## Requests -/

instance (k : Key) (P : Nat → Prop) [DecidablePred P] : Decidable (∀ n, k = .bulk n → P n) :=
  match k with
  | .bulk m => decidable_of_iff (P m) ⟨fun h _ hn => Key.bulk.inj hn ▸ h, fun h => h m rfl⟩
  | .tiny => isTrue nofun
  | .small _ => isTrue nofun
  | .big _ => isTrue nofun

/-- Requests that can be rounded up to whole pages. -/
def Label.Sized (c : Config) : Label → Prop
  | .get size _ _ => size + c.sysPageSize ≤ 2 ^ 32
  | .put _ _ => True
  | .recycle _ => True

instance (c : Config) : DecidablePred (Label.Sized c)
  | .get size _ _ => inferInstanceAs (Decidable (size + c.sysPageSize ≤ 2 ^ 32))
  | .put _ _ | .recycle _ => isTrue trivial

end MemPool
end CCraft
