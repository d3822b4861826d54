import CCraft.MemPool.Slots

/-!
# The resident limit of tiny, small and big slots

A slot counts its free objects.  When `Put` brings the counter to the resident limit
plus the objects of one page, it gives up at most one page, the first one whose
objects are all free.  The limit therefore rests on how the free objects are spread
over the pages.

Main results:

- Theorem {lit}`Slot.Within.put`: `put` keeps a slot within its limit.
- Theorem {lit}`resident_limits_iff`: along a run every slot is within its limit exactly
  when the counter of the tiny slot, which the constructor leaves as it finds it, starts at zero
  and no `Put` brings the free objects of a slot to `2 ^ 32`.
-/

namespace CCraft
namespace MemPool

open Slab PageMap Fallible

/-- The number of objects in a block of a slot. -/
def Config.objsPerPage (c : Config) (k : Key) : Nat :=
  c.pageBytes k / c.slotSize k

/-! ## One slot -/

namespace Slot

/-- The counter is the number of free objects, and there are few of them or no page is
wholly free. -/
structure Within (residentCnts onePageObjsCnt : Nat) (slot : Slot) : Prop where
  cnt_eq : slot.free.cnt = total slot.free.objs
  total_lt : total slot.free.objs < 2 ^ 32
  limit : Limited residentCnts onePageObjsCnt slot.free.objs

variable {slot slot' : Slot} {R P : Nat} {it : IterOrder Nat}

/-- A new page sets the counter. -/
theorem expand_counted {expandPageSize slotSize : Nat} {objP newPage : Option Nat}
    (h : slot.expand expandPageSize slotSize objP = .ok (slot', newPage)) :
    slot' = slot ∨ slot'.free.cnt = expandPageSize / slotSize ∧
      total slot'.free.objs = expandPageSize / slotSize := by
  unfold Slot.expand at h
  split_ifs at h with hempty
  · cases objP with
    | none =>
      cases h
      exact .inl rfl
    | some p =>
      obtain ⟨r, halloc, h⟩ := bind_eq_ok.1 h
      unfold allocPageObjs at halloc
      simp only at halloc
      split_ifs at halloc
      cases halloc
      cases h
      refine .inr ⟨rfl, ?_⟩
      rw [eq_empty_of_keys hempty, total_insert_fresh rfl]
      simp [total, splitMemPage]
  · cases h
    exact .inl rfl

/-- Taking an object counts it out. -/
theorem take_counted {got : Option (Nat × Nat)} (h : slot.take it = .ok (got, slot')) :
    (slot' = slot ∧ slot.free.objs.keys = []) ∨
      ∃ p x, popFront slot.free.objs p = some (x, slot'.free.objs) ∧
        slot'.free.cnt = u32 (slot.free.cnt + (2 ^ 32 - 1)) := by
  unfold Slot.take getFreeObjFromSlotPage at h
  cases horder : it.order slot.free.objs.keys with
  | nil =>
    rw [horder] at h
    cases h
    refine .inl ⟨rfl, ?_⟩
    exact List.perm_nil.1 (horder ▸ (it.perm _).symm)
  | cons p ps =>
    rw [horder] at h
    cases hpop : popFront slot.free.objs p with
    | none =>
      simp only [hpop, error_bind] at h
      cases h
    | some r =>
      simp only [hpop, ok_bind] at h
      cases h
      exact .inr ⟨p, r.1, hpop, rfl⟩

/-- The counter follows an object that is taken. -/
theorem cnt_popped {p x : Nat} (hcnt : slot.free.cnt = total slot.free.objs)
    (hlt : total slot.free.objs < 2 ^ 32)
    (hpop : popFront slot.free.objs p = some (x, slot'.free.objs))
    (hcnt' : slot'.free.cnt = u32 (slot.free.cnt + (2 ^ 32 - 1))) :
    slot'.free.cnt = total slot'.free.objs ∧ total slot'.free.objs < 2 ^ 32 := by
  have htotal := total_popFront hpop
  rw [hcnt', hcnt, htotal, u32]
  omega

/-- Taking an object keeps a slot within its limit. -/
theorem Within.popped {p x : Nat} (h : slot.Within R P)
    (hle : ∀ p, (listAt slot.free.objs p).length ≤ P)
    (hpop : popFront slot.free.objs p = some (x, slot'.free.objs))
    (hcnt : slot'.free.cnt = u32 (slot.free.cnt + (2 ^ 32 - 1))) : slot'.Within R P := by
  obtain ⟨hcnt', hlt'⟩ := cnt_popped h.cnt_eq h.total_lt hpop hcnt
  exact ⟨hcnt', hlt', h.limit.popFront (hle p) hpop⟩

/-- Both halves of `Get` together keep a slot within its limit, also when the new page
is above the limit at first. -/
theorem Within.get {expandPageSize slotSize : Nat} {objP newPage : Option Nat} {slot₁ : Slot}
    {got : Option (Nat × Nat)} (h : slot.Within R P)
    (hexpand : slot.expand expandPageSize slotSize objP = .ok (slot₁, newPage))
    (htake : slot₁.take it = .ok (got, slot')) (hP : expandPageSize / slotSize = P) (hpos : 0 < P)
    (hlt : R + P < 2 ^ 32) (hle : ∀ p, (listAt slot.free.objs p).length ≤ P) :
    slot'.Within R P := by
  rcases expand_counted hexpand with rfl | ⟨hcnt, htotal⟩
  · rcases take_counted htake with ⟨rfl, -⟩ | ⟨p, x, hpop, hcnt⟩
    · exact h
    · exact h.popped hle hpop hcnt
  · rw [hP] at hcnt htotal
    rcases take_counted htake with ⟨-, hkeys⟩ | ⟨p, x, hpop, hcnt'⟩
    · rw [eq_empty_of_keys hkeys, total_empty] at htotal
      omega
    · obtain ⟨hcnt₂, hlt₂⟩ := cnt_popped (hcnt.trans htotal.symm) (by omega) hpop hcnt'
      have htotal₂ := total_popFront hpop
      exact ⟨hcnt₂, hlt₂, .inl (by omega)⟩

/-- `put` keeps a slot within its limit as long as its counter does not wrap around. -/
theorem Within.put (h : slot.Within R P) (hpos : 0 < P) (hlt : R + P < 2 ^ 32)
    (hfits : total slot.free.objs + 1 < 2 ^ 32) (it : IterOrder Nat) (x q : Nat) :
    (slot.put R P it x q).1.Within R P := by
  have hcnt : u32 (slot.free.cnt + 1) = total slot.free.objs + 1 := by
    rw [h.cnt_eq, u32_of_lt hfits]
  have htotal : total (pushBack slot.free.objs q x) = total slot.free.objs + 1 := total_pushBack
  unfold Slot.put
  simp only [hcnt, u32_of_lt hlt]
  split_ifs with hge
  · split
    · rename_i p hfind
      have hfull : (listAt (pushBack slot.free.objs q x) p).length = P := by
        simpa using List.find?_some hfind
      have herase := total_erase (pushBack slot.free.objs q x) p
      refine ⟨?_, ?_, h.limit.pushBack_erase hpos hfull⟩
      · simp only [u32]
        omega
      · show total ((pushBack slot.free.objs q x).erase p) < 2 ^ 32
        omega
    · rename_i hfind
      exact ⟨htotal.symm, htotal ▸ hfits, .inr (ne_full_of_find hpos hfind)⟩
  · exact ⟨htotal.symm, htotal ▸ hfits, .inl (by rw [htotal]; omega)⟩

/-- At `2 ^ 32` free objects the counter starts again at zero. -/
theorem put_wraps (hcnt : slot.free.cnt = total slot.free.objs) (hpos : 0 < P)
    (hlt : R + P < 2 ^ 32) (hwrap : total slot.free.objs + 1 = 2 ^ 32) (it : IterOrder Nat)
    (x q : Nat) :
    (slot.put R P it x q).1 = ⟨slot.pages, ⟨pushBack slot.free.objs q x, 0⟩⟩ := by
  have hzero : u32 (slot.free.cnt + 1) = 0 := by
    rw [hcnt, hwrap, u32, Nat.mod_self]
  unfold Slot.put
  simp only [hzero, u32_of_lt hlt]
  rw [if_neg (by omega)]

end Slot

/-! ## The slots of a pool -/

section Pool

variable {c : Config} {exact : Key → Prop} {s s' : Pool} {k : Key} {slot : Slot}
  {it : IterOrder Nat}

theorem split_length (c : Config) (k : Key) (p : Nat) :
    (c.carver.split k p).length = c.objsPerPage k := by
  simp [Config.carver, splitMemPage, Config.objsPerPage]

theorem objsPerPage_pos (hvalid : c.Valid k) : 0 < c.objsPerPage k := by
  obtain ⟨hpos, hle, -⟩ := Config.pageBytes_bounds hvalid
  exact Nat.div_pos hle hpos

/-- The blocks of tiny, small and big slots are far smaller than `2 ^ 32`. -/
theorem objsPerPage_lt (hk : k.IsSlot) (hvalid : c.Valid k) : c.objsPerPage k < 2 ^ 23 := by
  obtain ⟨hlo, hhi⟩ := c.sysPageSize_bounds
  refine lt_of_le_of_lt (Nat.div_le_self _ _) ?_
  cases k with
  | tiny =>
    simp only [Config.pageBytes]
    omega
  | bulk n => exact hk.elim
  | small i =>
    simp only [Config.Valid, smallObjSlotFootstepSize] at hvalid
    have hs : c.slotSize (.small i) * expandObjCntFactor = 32 * i * 32 := rfl
    have h := (le_genExpandSlotPageSize (s := c.slotSize (.small i)) (f := expandObjCntFactor)
      (p := c.sysPageSize) (by omega) (by omega)).2
    simp only [Config.pageBytes]
    omega
  | big i =>
    simp only [Config.Valid, bulkObjThreshold] at hvalid
    have hle : i * c.sysPageSize ≤ 131072 := (Nat.le_div_iff_mul_le (by omega)).mp hvalid.2
    have hs : c.slotSize (.big i) * expandObjCntFactor = c.sysPageSize * i * 32 := rfl
    have hcomm := Nat.mul_comm c.sysPageSize i
    have h := (le_genExpandSlotPageSize (s := c.slotSize (.big i)) (f := expandObjCntFactor)
      (p := c.sysPageSize) (by omega) (by omega)).2
    simp only [Config.pageBytes]
    omega

/-- `Get` changes one slot, by its two halves. -/
theorem getSlot_slots {type : MemObjectType} {slotSize expandPageSize : Nat} {objP : Option Nat}
    {r : Option Nat × Pool} (hslot : s.slots k = some slot)
    (hget : s.getSlot type k slotSize expandPageSize objP it = .ok r) :
    ∃ slot₁ newPage got slot₂, slot.expand expandPageSize slotSize objP = .ok (slot₁, newPage) ∧
      slot₁.take it = .ok (got, slot₂) ∧
      r.2.slots = Function.update s.slots k (some slot₂) := by
  simp only [Pool.getSlot, hslot] at hget
  obtain ⟨⟨slot₁, newPage⟩, hexpand, hget⟩ := bind_eq_ok.1 hget
  obtain ⟨⟨got, slot₂⟩, htake, hget⟩ := bind_eq_ok.1 hget
  refine ⟨slot₁, newPage, got, slot₂, hexpand, htake, ?_⟩
  have hslots : ((s.addLive k newPage).setSlot k slot₂).slots =
      Function.update s.slots k (some slot₂) := by
    cases newPage <;> rfl
  cases got with
  | none =>
    cases hget
    exact hslots
  | some found =>
    cases hget
    rw [← hslots]
    simp only [Pool.getMemObject]
    split <;> rfl

/-- `Put` changes one slot. -/
theorem putSlot_slots {R P : Nat} {o : MemObject} (hslot : s.slots k = some slot)
    (hput : s.putSlot k R P o it = .ok s') :
    s'.slots = Function.update s.slots k (some (slot.put R P it o.objPv o.objPagePv).1) := by
  simp only [Pool.putSlot, hslot] at hput
  unfold Pool.freePage at hput
  split at hput
  · unfold Pool.freeBlock at hput
    split at hput
    · cases hput
      rfl
    · cases hput
  · cases hput
    rfl

/-- No page holds more free objects than were carved from it. -/
theorem Inv.free_listAt_le (hinv : Inv c exact s) (k : Key) (p : Nat) :
    (listAt ((s.store c).free k) p).length ≤ c.objsPerPage k := by
  cases hl : ((s.store c).free k).lookup p with
  | none => simp [listAt_of_lookup_none hl]
  | some l =>
    rw [← split_length c k p]
    exact hinv.wf.listAt_le (hinv.wf.free_home k p l hl)

/-- The pages of a slot without outstanding objects are wholly free. -/
theorem Inv.full_of_idle {p : Nat} (hinv : Inv c exact s) (hexact : exact k)
    (hidle : ∀ h ∈ s.out, (s.objects h).key c ≠ k) (hlive : (⟨k, p⟩ : Block Key) ∈ s.live) :
    (listAt ((s.store c).free k) p).length = c.objsPerPage k := by
  rw [← split_length c k p]
  refine hinv.wf.full_of_idle hlive hexact ?_
  intro o ho
  simp only [Pool.store, Pool.outs, Multiset.mem_map, Multiset.mem_coe] at ho
  obtain ⟨h, hmem, rfl⟩ := ho
  exact hidle h hmem

end Pool

/-! ## Runs -/

/-- What the resident limit means for a slot: the counter is the number of free objects, it
is below the limit or no page is wholly free, and a slot without outstanding objects is below
the limit. -/
structure SlotResident (c : Config) (s : Pool) (k : Key) (slot : Slot) : Prop where
  counter : slot.free.cnt = total slot.free.objs
  limit : slot.free.cnt < c.residentCnts k + c.objsPerPage k ∨
    ∀ p ∈ slot.pages, (listAt slot.free.objs p).length ≠ c.objsPerPage k
  idle : (∀ h ∈ s.out, (s.objects h).key c ≠ k) →
    total slot.free.objs < c.residentCnts k + c.objsPerPage k

def ResidentLimits (c : Config) (s : Pool) : Prop :=
  ∀ k slot, s.slots k = some slot → SlotResident c s k slot

/-- `Put` does not bring the free objects of its slot to `2 ^ 32`. -/
def CounterFits (c : Config) (s : Pool) : Label → Prop
  | .get _ _ _ => True
  | .put h _ => ∀ slot ∈ s.slots ((s.objects h).key c), total slot.free.objs + 1 < 2 ^ 32
  | .recycle _ => True

instance (c : Config) (s : Pool) : DecidablePred (CounterFits c s)
  | .put h _ =>
    inferInstanceAs (Decidable (∀ slot ∈ s.slots ((s.objects h).key c), _ < 2 ^ 32))
  | .get _ _ _ | .recycle _ => isTrue trivial

/-- The invariant of runs whose counters do not wrap around. -/
structure ResidentInv (c : Config) (s : Pool) : Prop where
  slots_inv : SlotsInv c s
  within : ∀ k slot, s.slots k = some slot → slot.Within (c.residentCnts k) (c.objsPerPage k)

section Runs

variable {c : Config} {s s' : Pool} {a : Label}

theorem ResidentInv.residentLimits (h : ResidentInv c s) : ResidentLimits c s := by
  intro k slot hslot
  obtain ⟨hk, hvalid⟩ := (h.slots_inv.inv.slots_valid k).1 ⟨slot, hslot⟩
  have hwithin := h.within k slot hslot
  refine ⟨hwithin.cnt_eq, ?_, ?_⟩
  · rw [hwithin.cnt_eq]
    exact hwithin.limit.imp id fun hno p _ => hno p
  · intro hidle
    refine hwithin.limit.total_lt (objsPerPage_pos hvalid) ?_
    have hfree : (s.store c).free k = slot.free.objs := freeMap_slot hk hslot
    rw [← hfree]
    intro p hp
    obtain ⟨l, hl⟩ := mem_keys_iff_lookup.1 hp
    exact h.slots_inv.inv.full_of_idle hk hidle (h.slots_inv.inv.wf.free_home k p l hl)

theorem init_slotsInv (c : Config) (garbage : Nat) : SlotsInv c (Pool.init c garbage) :=
  ⟨init_inv c Key.IsSlot garbage, rfl, by simp [Pool.init]⟩

theorem init_residentInv (c : Config) : ResidentInv c (Pool.init c 0) := by
  refine ⟨init_slotsInv c 0, ?_⟩
  intro k slot hslot
  -- every slot starts without pages and with a counter of zero
  obtain ⟨hvalid, rfl⟩ : c.Valid k ∧ slot = ⟨∅, SlotObjPage.empty⟩ := by
    cases k with
    | tiny =>
      cases hslot
      exact ⟨trivial, rfl⟩
    | bulk n => cases hslot
    | small | big =>
      simp only [Pool.init, Option.ite_none_right_eq_some, Option.some.injEq] at hslot
      exact ⟨hslot.1, hslot.2.symm⟩
  have hpos := objsPerPage_pos hvalid
  refine ⟨rfl, ?_, .inl ?_⟩
  · simp [SlotObjPage.empty, total]
  · simp [SlotObjPage.empty, total]
    omega

/-- A step that replaces one slot by one within its limit. -/
theorem within_update {k : Key} {slot' : Slot} (h : ResidentInv c s)
    (hslots : s'.slots = Function.update s.slots k (some slot'))
    (hslot' : slot'.Within (c.residentCnts k) (c.objsPerPage k)) :
    ∀ k' slot, s'.slots k' = some slot →
      slot.Within (c.residentCnts k') (c.objsPerPage k') := by
  intro k' slot hslot
  rw [hslots] at hslot
  by_cases hk : k' = k
  · subst hk
    rw [Function.update_self, Option.some.injEq] at hslot
    exact hslot ▸ hslot'
  · rw [Function.update_of_ne hk] at hslot
    exact h.within k' slot hslot

/-- `Put` in the slot of an outstanding object, before its page is freed. -/
theorem put_slots {h : Nat} (it : IterOrder Nat) (hs : SlotsInv c s) (hmem : h ∈ s.out) :
    ∃ slot, ((s.objects h).key c).IsSlot ∧ c.Valid ((s.objects h).key c) ∧
      s.slots ((s.objects h).key c) = some slot ∧
      (s.settle (s.put c h it)).slots = Function.update s.slots ((s.objects h).key c)
        (some (slot.put (c.residentCnts ((s.objects h).key c))
          (c.objsPerPage ((s.objects h).key c)) it (s.objects h).objPv
          (s.objects h).objPagePv).1) := by
  have hk := hs.out_slot h hmem
  have hvalid := hs.inv.key_valid hmem
  obtain ⟨slot, hslot⟩ := (hs.inv.slots_valid _).2 ⟨hk, hvalid⟩
  obtain ⟨s', hs', -⟩ := putSlot_inv (c.residentCnts _) it hs.inv hmem hk hvalid
  refine ⟨slot, hk, hvalid, hslot, ?_⟩
  rw [put_eq_putSlot hs.inv hmem hk it, hs']
  exact putSlot_slots (s := s.retire h) hslot hs'

/-- Every step that keeps the counter in its range keeps the slots within their limits. -/
theorem step_residentInv (hlt : ∀ k, k.IsSlot → c.Valid k →
      c.residentCnts k + c.objsPerPage k < 2 ^ 32)
    (h : ResidentInv c s) (ha : a.InSlots) (hfits : CounterFits c s a)
    (hstep : step c s a = some s') : ResidentInv c s' := by
  have hslots' := step_slotsInv h.slots_inv ha hstep
  refine ⟨hslots', ?_⟩
  cases a with
  | get size objP it =>
    obtain ⟨-, hobjP, rfl⟩ := step_get hstep
    obtain ⟨type, k, hkey, hk, hvalid, htype, hget⟩ := get_eq_getSlot c s ha.2 objP it
    obtain ⟨slot, hslot⟩ := (h.slots_inv.inv.slots_valid k).2 ⟨hk, hvalid⟩
    obtain ⟨r, hr, -⟩ := getSlot_inv it h.slots_inv.inv hk hvalid (hkey ▸ hobjP) htype
    obtain ⟨slot₁, newPage, got, slot₂, hexpand, htake, hslots⟩ := getSlot_slots hslot hr
    rw [hget, hr]
    have hle := h.slots_inv.inv.free_listAt_le k
    have hfree : (s.store c).free k = slot.free.objs := freeMap_slot hk hslot
    rw [hfree] at hle
    refine within_update h hslots ?_
    exact (h.within k slot hslot).get hexpand htake rfl (objsPerPage_pos hvalid)
      (hlt k hk hvalid) hle
  | put h' it =>
    obtain ⟨-, hmem, rfl⟩ := step_put hstep
    obtain ⟨slot, hk, hvalid, hslot, hslots⟩ := put_slots it h.slots_inv hmem
    refine within_update h hslots ?_
    exact (h.within _ slot hslot).put (objsPerPage_pos hvalid) (hlt _ hk hvalid)
      (hfits slot hslot) it _ _
  | recycle h' =>
    obtain ⟨-, -, rfl⟩ := step_recycle hstep
    exact h.within

/-- When the counter wraps around it is no longer the number of free objects. -/
theorem step_wraps (hlt : ∀ k, k.IsSlot → c.Valid k →
      c.residentCnts k + c.objsPerPage k < 2 ^ 32)
    (h : ResidentInv c s) (hfits : ¬ CounterFits c s a)
    (hstep : step c s a = some s') : ¬ ResidentLimits c s' := by
  cases a with
  | get | recycle => exact absurd trivial hfits
  | put h' it =>
    obtain ⟨-, hmem, rfl⟩ := step_put hstep
    obtain ⟨slot, hk, hvalid, hslot, hslots⟩ := put_slots it h.slots_inv hmem
    have hwithin := h.within _ slot hslot
    have hwrap : total slot.free.objs + 1 = 2 ^ 32 := by
      have hlt := hwithin.total_lt
      by_contra hne
      refine hfits ?_
      intro slot' hslot'
      cases hslot.symm.trans hslot'
      omega
    rw [Slot.put_wraps hwithin.cnt_eq (objsPerPage_pos hvalid) (hlt _ hk hvalid) hwrap] at hslots
    intro hlimits
    have hcounter := (hlimits _ _ (by rw [hslots, Function.update_self])).counter
    simp only [total_pushBack] at hcounter
    omega

/-- With any resident counts that stay below `2 ^ 32` together with the objects of a page, in
every run of `Get` and `Put` of sizes up to the bulk threshold all slots are within their limits
exactly when the tiny counter happens to start at zero and no `Put` brings the free objects of a
slot to `2 ^ 32`. -/
theorem resident_limits_iff (c : Config) (garbage : Nat) (labels : List Label) (t : Pool)
    (hlt : ∀ k, k.IsSlot → c.Valid k → c.residentCnts k + c.objsPerPage k < 2 ^ 32)
    (hlabels : ∀ a ∈ labels, a.InSlots)
    (hrun : Runs.run (step c) (Pool.init c garbage) labels = some t) :
    Runs.Always (step c) (ResidentLimits c) (Pool.init c garbage) labels ↔
      garbage = 0 ∧ Runs.Guarded (step c) (CounterFits c) (Pool.init c garbage) labels := by
  have hzero (hgarbage : garbage = 0) :
      Runs.Always (step c) (ResidentLimits c) (Pool.init c garbage) labels ↔
        Runs.Guarded (step c) (CounterFits c) (Pool.init c garbage) labels := by
    subst hgarbage
    exact Runs.always_iff_guarded
      (fun _ _ _ h ha hfits hstep => step_residentInv hlt h ha hfits hstep)
      (fun _ h => h.residentLimits) (fun _ _ _ h _ hfits hstep => step_wraps hlt h hfits hstep)
      (init_residentInv c) hlabels hrun
  constructor
  · intro halways
    have hgarbage : garbage = 0 := (halways.head .tiny _ rfl).counter
    exact ⟨hgarbage, (hzero hgarbage).1 halways⟩
  · rintro ⟨hgarbage, hfits⟩
    exact (hzero hgarbage).2 hfits

/-- Two objects of one size and one of another, put back in turn. -/
theorem resident_limits_iff_put_back :
    let labels : List Label := [.get 10 (some 65536) .listed, .get 12 none .listed,
      .get 100 (some 131072) .listed, .put 0 .listed, .put 2 .listed, .put 1 .listed]
    Runs.Always (step Config.default) (ResidentLimits Config.default)
      (Pool.init Config.default 0) labels := by
  intro labels
  have hlt : ∀ k : Key, k.IsSlot → Config.default.Valid k →
      Config.default.residentCnts k + Config.default.objsPerPage k < 2 ^ 32 := by
    intro k hk hvalid
    have hobjs := objsPerPage_lt hk hvalid
    have hresident : Config.default.residentCnts k ≤ 512 := by
      cases k <;> simp [Config.residentCnts, Config.default]
    omega
  have hslots : ∀ a ∈ labels, a.InSlots := by
    simp [labels, Label.InSlots, bulkObjThreshold]
  exact (resident_limits_iff Config.default 0 labels _ hlt hslots
    (Option.some_get (by decide +kernel)).symm).2 ⟨rfl, by decide +kernel⟩

/-- A new pool whose tiny counter starts with whatever was in memory. -/
theorem tiny_counter_uninitialised :
    ∃ slot, (Pool.init Config.default 7).slots .tiny = some slot ∧
      slot.free.cnt = 7 ∧ total slot.free.objs = 0 :=
  ⟨_, rfl, rfl, rfl⟩

end Runs

end MemPool
end CCraft
