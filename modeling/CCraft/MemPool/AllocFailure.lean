import CCraft.MemPool.Pages

/-!
# Failed allocations

When nothing is free and `PosixMemAlign` fails, `Get` is to return null and to leave
the tables of the pool as they were.  For tiny, small and big objects it does.  For
bulk objects it starts a new page set and new entries of both indexes before it
allocates, and takes only the entries back.

Main results:

- Theorem {lit}`get_failed_bulk`: what a failed allocation does to the bulk tables.
- Theorem {lit}`failed_alloc_unchanged_iff`: in every state of every run a failed
  allocation changes nothing exactly when the slot had no page and no entry of the
  ordered index.
-/

namespace CCraft
namespace MemPool

open Slab PageMap Fallible

/-- No free object fits the request, so that `Get` has to allocate. -/
def NothingFits (c : Config) (s : Pool) (size : Nat) : Prop :=
  match requestKey c size with
  | .bulk n => s.bulk.NoFit n
  | k => ∀ slot, s.slots k = some slot → slot.free.objs.keys = []

/-- The tables of the two pools are the same: the slots with their page sets, free lists
and counters, the page sets of the bulk slots, where a slot without a set has the empty one,
the two bulk indexes, and the objects and blocks in use. -/
structure Unchanged (s s' : Pool) : Prop where
  slots : s'.slots = s.slots
  pages : ∀ n, s'.bulk.pageSet n = s.bulk.pageSet n
  hash : ∀ n, s'.bulk.hash.lookup n = s.bulk.hash.lookup n
  ordered : ∀ n, s'.bulk.ordered.find? n = s.bulk.ordered.find? n
  out : s'.out = s.out
  objects : s'.objects = s.objects
  wrappers : s'.made = s.made ∧ s'.freeMemObjs = s.freeMemObjs ∧ s'.retired = s.retired
  live : s'.live = s.live ∧ s'.frees = s.frees
  fault : s'.fault = s.fault

section Get

variable {c : Config} {s : Pool} {size n : Nat} {k : Key}

/-- An empty slot stays as it is when the allocation fails. -/
theorem getSlot_failed {type : MemObjectType} {slot : Slot} (slotSize expandPageSize : Nat)
    (it : IterOrder Nat) (hslot : s.slots k = some slot) (hempty : slot.free.objs.keys = []) :
    ∃ s', s.getSlot type k slotSize expandPageSize none it = .ok (none, s') ∧ Unchanged s s' := by
  have hexpand : slot.expand expandPageSize slotSize none = .ok (slot, none) := by
    simp only [Slot.expand, hempty, if_true, allocPageObjs, ok_bind]
  have hnil : it.order slot.free.objs.keys = [] := by
    rw [hempty]
    exact List.perm_nil.1 (it.perm [])
  have htake : slot.take it = .ok (none, slot) := by
    simp only [Slot.take, getFreeObjFromSlotPage, hnil, ok_bind]
  have hsame : Function.update s.slots k (some slot) = s.slots := by
    rw [← hslot]
    exact Function.update_eq_self k s.slots
  refine ⟨s.setSlot k slot, ?_, ⟨hsame, ?_, ?_, ?_, rfl, rfl, ⟨rfl, rfl, rfl⟩, ⟨rfl, rfl⟩, rfl⟩⟩
  · simp only [Pool.getSlot, hslot, hexpand, htake, ok_bind, Pool.addLive]
  · intro n
    rfl
  · intro n
    rfl
  · intro n
    rfl

/-- A failed allocation leaves a bulk slot with an empty page set and without entries in
the two indexes. -/
theorem get_failed_bulk (hs : SoundInv c s) (hsize : size < 2 ^ 32)
    (hkey : requestKey c size = .bulk n) (hnoFit : s.bulk.NoFit n) (it : IterOrder Nat) :
    ∃ b', s.bulk.Updated n (some ∅) none none b' ∧
      s.get c size none it = .ok (none, s.setBulk b') := by
  by_cases hle : size + c.sysPageSize ≤ 2 ^ 32
  · obtain ⟨m, hm, -, hgot⟩ := get_bulkGot hs.inv.handles hs.ptr_slots
      (bulk_of_requestKey hkey) hle none it
    cases hkey.symm.trans hm
    generalize hr : s.get c size none it = r at hgot
    cases hgot with
    | fault fits | reused fits => exact absurd hnoFit fits
    | forgot forgot risky => exact absurd risky hnoFit.not_risky
    | failed noFit alloc upd => exact ⟨_, upd, rfl⟩
    | expanded noFit alloc upd slot served wrapped => cases alloc
  · have hwrapped := requestKey_wrapped (lt_of_not_ge hle) hsize
    cases hkey.symm.trans hwrapped
    rcases get_wrapped hs.inv (lt_of_not_ge hle) hsize none it with
      ⟨fault, -, hfits⟩ | ⟨b', hupd, -, -, hget⟩
    · exact absurd ⟨hnoFit, rfl⟩ hfits
    · exact ⟨b', hupd, hget⟩

/-- The tables are the same after the failure exactly when the slot had nothing to lose. -/
theorem unchanged_setBulk_iff {b' : Bulk} (hnoFit : s.bulk.NoFit n)
    (hupd : s.bulk.Updated n (some ∅) none none b') :
    Unchanged s (s.setBulk b') ↔ s.bulk.pageSet n = ∅ ∧ s.bulk.ordered.find? n = none := by
  constructor
  · intro h
    have hpages := h.pages n
    have hordered := h.ordered n
    simp only [Pool.setBulk, hupd.pageSet n, hupd.ordered n, if_true] at hpages hordered
    exact ⟨hpages.symm, hordered.symm⟩
  · rintro ⟨hpages, hordered⟩
    refine ⟨rfl, ?_, ?_, ?_, rfl, rfl, ⟨rfl, rfl, rfl⟩, ⟨rfl, rfl⟩, rfl⟩
    · intro m
      simp only [Pool.setBulk, hupd.pageSet m]
      split_ifs with hm
      · rw [hm, hpages]
        rfl
      · rfl
    · intro m
      simp only [Pool.setBulk, hupd.hash m]
      split_ifs with hm
      · rw [hm, hnoFit.1]
      · rfl
    · intro m
      simp only [Pool.setBulk, hupd.ordered m]
      split_ifs with hm
      · rw [hm, hordered]
      · rfl

/-- A failed request for a tiny, small or big object. -/
theorem get_failed_slot (hs : SoundInv c s) (hslot : size ≤ bulkObjThreshold)
    (hfits : NothingFits c s size) (it : IterOrder Nat) :
    ∃ s', s.get c size none it = .ok (none, s') ∧ Unchanged s s' := by
  obtain ⟨type, k, hkey, hk, hvalid, -, hget⟩ := get_eq_getSlot c s hslot none it
  obtain ⟨slot, hslots⟩ := (hs.inv.slots_valid k).2 ⟨hk, hvalid⟩
  have hempty : slot.free.objs.keys = [] := by
    rw [NothingFits, hkey] at hfits
    cases k with
    | bulk n => exact hk.elim
    | tiny | small | big => exact hfits slot hslots
  rw [hget]
  exact getSlot_failed _ _ it hslots hempty

end Get

/-- In every state that a pool reaches and for every size of 32 bits that nothing free fits, a
`Get` whose allocation fails returns null and changes nothing exactly when, in case of a bulk
request, the slot has no page and no entry of the ordered index. -/
theorem failed_alloc_unchanged_iff (c : Config) (garbage : Nat) (labels : List Label) (t : Pool)
    (size : Nat) (it : IterOrder Nat) (hlabels : ∀ a ∈ labels, a.InRange)
    (hrun : Runs.run (step c) (Pool.init c garbage) labels = some t)
    (hrange : 1 ≤ size ∧ size < 2 ^ 32) (hfits : NothingFits c t size) :
    (∃ s', t.get c size none it = .ok (none, s') ∧ Unchanged t s') ↔
      ∀ n, requestKey c size = .bulk n →
        t.bulk.pageSet n = ∅ ∧ t.bulk.ordered.find? n = none := by
  have hs := soundInv_of_run hlabels hrun
  by_cases hslot : size ≤ bulkObjThreshold
  · refine iff_of_true (get_failed_slot hs hslot hfits it) ?_
    intro n hn
    exact absurd (bulk_of_requestKey hn) (Nat.not_lt.2 hslot)
  · obtain ⟨n, hkey⟩ : ∃ n, requestKey c size = .bulk n :=
      ⟨_, requestKey_eq_bulk (lt_of_not_ge hslot)⟩
    have hnoFit : t.bulk.NoFit n := by
      rw [NothingFits, hkey] at hfits
      exact hfits
    obtain ⟨b', hupd, hget⟩ := get_failed_bulk hs hrange.2 hkey hnoFit it
    have hiff := unchanged_setBulk_iff hnoFit hupd
    constructor
    · rintro ⟨s', hs', hunchanged⟩ m hm
      cases hkey.symm.trans hm
      rw [hget] at hs'
      cases hs'
      exact hiff.1 hunchanged
    · intro h
      exact ⟨_, hget, hiff.2 (h n hkey)⟩

/-- A failed request for two megabytes from a pool that has handed out 100 bytes. -/
theorem failed_alloc_unchanged_iff_fresh_slot :
    ∃ t, Runs.run (step Config.default) (Pool.init Config.default 0)
        [.get 100 (some 65536) .listed] = some t ∧
      ∃ s', t.get Config.default 2097152 none .listed = .ok (none, s') ∧ Unchanged t s' := by
  obtain ⟨t, hrun, hhash, hordered, hpages⟩ :
      ∃ t, Runs.run (step Config.default) (Pool.init Config.default 0)
        [.get 100 (some 65536) .listed] = some t ∧ t.bulk.hash.lookup 512 = none ∧
        t.bulk.ordered.entries = [] ∧ t.bulk.pageSet 512 = ∅ :=
    ⟨_, rfl, rfl, rfl, rfl⟩
  have hfind := OrderedMap.entries_eq_nil.1 hordered
  have hkey : requestKey Config.default 2097152 = .bulk 512 := by decide +kernel
  refine ⟨t, hrun, (failed_alloc_unchanged_iff Config.default 0 _ t 2097152 .listed (by decide)
    hrun (by decide) ?_).2 ?_⟩
  · rw [NothingFits, hkey]
    refine ⟨hhash, ?_⟩
    intro m ptr hptr
    rw [hfind] at hptr
    cases hptr
  · intro n hn
    cases hkey.symm.trans hn
    exact ⟨hpages, hfind 512⟩

/-- With two objects of two megabytes outstanding, a failed request for a third one empties
the page set of the slot, and the second object can no longer be put back. -/
theorem failed_alloc_loses_pages :
    ∃ t s' u v, Runs.run (step Config.default) (Pool.init Config.default 0)
        [.get 2097152 (some 4194304) .listed, .get 2097152 (some 8388608) .listed] = some t ∧
      t.bulk.NoFit 512 ∧ t.get Config.default 2097152 none .listed = .ok (none, s') ∧
      t.bulk.pageSet 512 = {8388608} ∧ s'.bulk.pageSet 512 = ∅ ∧
      Runs.run (step Config.default) t [.put 0 .listed, .put 1 .listed] = some u ∧
      u.fault = none ∧
      Runs.run (step Config.default) s' [.put 0 .listed, .put 1 .listed] = some v ∧
      v.fault = some .noPageSet := by
  obtain ⟨t, hrun, hhash, hordered, hrest⟩ :
      ∃ t, Runs.run (step Config.default) (Pool.init Config.default 0)
        [.get 2097152 (some 4194304) .listed, .get 2097152 (some 8388608) .listed] = some t ∧
        t.bulk.hash.lookup 512 = none ∧ t.bulk.ordered.entries = [] ∧
        ∃ s' u v, t.get Config.default 2097152 none .listed = .ok (none, s') ∧
          t.bulk.pageSet 512 = {8388608} ∧ s'.bulk.pageSet 512 = ∅ ∧
          Runs.run (step Config.default) t [.put 0 .listed, .put 1 .listed] = some u ∧
          u.fault = none ∧
          Runs.run (step Config.default) s' [.put 0 .listed, .put 1 .listed] = some v ∧
          v.fault = some .noPageSet :=
    ⟨_, rfl, rfl, rfl, _, _, _, rfl, rfl, rfl, rfl, rfl, rfl, rfl⟩
  obtain ⟨s', u, v, hrest⟩ := hrest
  refine ⟨t, s', u, v, hrun, ⟨hhash, ?_⟩, hrest⟩
  intro m ptr hptr
  rw [OrderedMap.entries_eq_nil.1 hordered m] at hptr
  cases hptr

end MemPool
end CCraft
