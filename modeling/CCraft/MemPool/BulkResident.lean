import CCraft.MemPool.Indexes
import CCraft.MemPool.Resident

/-!
# Bulk memory is given back

After every object has been put back, a bulk slot above the reserve limit is to keep
nothing, and any other one less than its resident objects and the objects of one
page.  `Get` and `Put` compute the objects of a page separately: `Get` expands below
the reserve limit, `Put` assumes an expansion up to and including the limit.

Main results:

- Theorem {lit}`putObjsCnt_eq_iff`: the two computations agree for every slot except
  the one of the reserve limit itself.
- Theorem {lit}`step_giveBackInv`: what every step keeps of the free objects.
- Theorem {lit}`bulk_given_back_iff`: at the end of a run in which no request is served
  with the last object of a larger slot, a slot has given its memory back exactly when
  it is not the slot of the reserve limit.
-/

namespace CCraft
namespace MemPool

open Slab PageMap

/-! ## The objects of a page -/

/-- The number of objects of a page that `put` assumes for a bulk slot. -/
def putObjsCnt (c : Config) (n : Nat) : Nat :=
  genExpandSlotPageSize (c.slotSize (.bulk n)) expandBulkObjCntFactor c.sysPageSize /
    c.slotSize (.bulk n)

section Counts

variable {c : Config} {n : Nat}

theorem objsPerPage_le (hvalid : c.Valid (.bulk n))
    (hle : c.slotSize (.bulk n) ≤ availableReserveBulkObjMaxSize) :
    c.objsPerPage (.bulk n) ≤ 4 := by
  rw [← split_length c _ 0]
  rcases (onePageObjsCnt_eq hvalid hle).2 with h | h <;> omega

/-- A slot from the reserve limit on carves one object from a page. -/
theorem objsPerPage_of_ge (hvalid : c.Valid (.bulk n))
    (hge : availableReserveBulkObjMaxSize ≤ c.slotSize (.bulk n)) :
    c.objsPerPage (.bulk n) = 1 := by
  have hpos := (Config.pageBytes_bounds hvalid).1
  have hnot : ¬ c.slotSize (.bulk n) < availableReserveBulkObjMaxSize := by omega
  rw [Config.objsPerPage, Config.pageBytes, if_neg hnot, Nat.div_self hpos]

/-- `Get` and `Put` agree on the objects of a page, except at the reserve limit. -/
theorem putObjsCnt_eq_iff (hvalid : c.Valid (.bulk n))
    (hle : c.slotSize (.bulk n) ≤ availableReserveBulkObjMaxSize) :
    putObjsCnt c n = c.objsPerPage (.bulk n) ↔
      c.slotSize (.bulk n) ≠ availableReserveBulkObjMaxSize := by
  have hfour : putObjsCnt c n = 4 := (onePageObjsCnt_eq hvalid hle).1
  constructor
  · intro heq hlimit
    rw [hfour, objsPerPage_of_ge hvalid (le_of_eq hlimit.symm)] at heq
    omega
  · intro hne
    have hlt : c.slotSize (.bulk n) < availableReserveBulkObjMaxSize := by omega
    rw [putObjsCnt, Config.objsPerPage, Config.pageBytes, if_pos hlt]

end Counts

/-! ## The free objects of bulk slots -/

section Free

variable {c : Config} {exact : Key → Prop} {s : Pool} {b b' : Bulk} {n : Nat} {f : Suitable}
  {o : MemObject} {it : IterOrder Nat}

/-- A resident slot keeps a page only when it is below its limit or has no full page. -/
theorem Bulk.residentBulk_kept {R P : Nat} {e : HashEntry} {ptr : Option EntryPtr} (hpos : 0 < P)
    (hslotted : b.Slotted n e ptr) (h : (Pool.residentBulk R P n it o b).2 = none) :
    u32 (e.page.cnt + 1) < u32 (R + P) ∨
      ∀ p, (listAt (pushBack e.page.objs o.objPagePv o.objPv) p).length ≠ P := by
  have hentry : (Pool.bulkEntry b n).1 = e := by
    cases hslotted with
    | old entry | new entry => simp only [Pool.bulkEntry, entry]
  simp only [Pool.residentBulk, hentry] at h
  split at h
  · split_ifs at h
  · rename_i hfind
    split_ifs at hfind with hmany
    · exact .inr (ne_full_of_find hpos hfind)
    · exact .inl (lt_of_not_ge hmany)

/-- The list of a page of a resident slot has at most four objects. -/
theorem Inv.bulk_listAt_le (hinv : Inv c exact s)
    (hle : c.slotSize (.bulk n) ≤ availableReserveBulkObjMaxSize) (p : Nat) :
    (listAt (objsAt s.bulk.hash n) p).length ≤ 4 := by
  cases hl : (objsAt s.bulk.hash n).lookup p with
  | none => simp [listAt_of_lookup_none hl]
  | some l =>
    obtain ⟨-, hvalid⟩ := hinv.bulk_home hl
    exact (hinv.free_listAt_le (.bulk n) p).trans (objsPerPage_le hvalid hle)

end Free

/-- The free objects of bulk slots: a resident slot is within its limit, a slot above the
reserve limit has none. -/
structure FreeOk (c : Config) (b : Bulk) : Prop where
  limited : ∀ n, c.slotSize (.bulk n) ≤ availableReserveBulkObjMaxSize →
    Limited c.nprocs 4 (objsAt b.hash n)
  large : ∀ n, availableReserveBulkObjMaxSize < c.slotSize (.bulk n) → b.hash.lookup n = none

section FreeOk

variable {c : Config} {exact : Key → Prop} {s : Pool} {b b' : Bulk} {n : Nat} {f : Suitable}
  {o : MemObject} {it : IterOrder Nat}

/-- One slot with a new entry. -/
theorem FreeOk.updated {set : Option (Finset Nat)} {entry : Option HashEntry}
    {ptr : Option EntryPtr} (h : FreeOk c b) (upd : b.Updated n set entry ptr b')
    (hlimited : c.slotSize (.bulk n) ≤ availableReserveBulkObjMaxSize →
      ∀ e ∈ entry, Limited c.nprocs 4 e.page.objs)
    (hlarge : availableReserveBulkObjMaxSize < c.slotSize (.bulk n) → entry = none) :
    FreeOk c b' := by
  constructor
  · intro m hm
    cases entry with
    | none =>
      rw [upd.objsAt_none m]
      split_ifs
      · exact limited_empty (by omega)
      · exact h.limited m hm
    | some e =>
      rw [upd.objsAt_some m]
      split_ifs with heq
      · exact hlimited (heq ▸ hm) e rfl
      · exact h.limited m hm
  · intro m hm
    rw [upd.hash m]
    split_ifs with heq
    · exact hlarge (heq ▸ hm)
    · exact h.large m hm

/-- Taking an object. -/
theorem FreeOk.served (h : FreeOk c b) (hserved : b.Served f b')
    (hle : c.slotSize (.bulk f.slotIdx) ≤ availableReserveBulkObjMaxSize →
      ∀ p, (listAt (objsAt b.hash f.slotIdx) p).length ≤ 4) : FreeOk c b' := by
  cases hserved with
  | last popped rest upd => exact h.updated upd (by simp) (fun _ => rfl)
  | @kept kept =>
    obtain ⟨popped, rest, upd⟩ := kept
    have hobjs := objsAt_of_lookup popped.entry
    refine h.updated upd ?_ ?_
    · rintro hm _ ⟨⟩
      have hlimited := h.limited f.slotIdx hm
      rw [hobjs] at hlimited
      exact hlimited.popFront (hobjs ▸ hle hm f.pagePv) popped.pop
    · intro hm
      have hnone := h.large f.slotIdx hm
      rw [popped.entry] at hnone
      cases hnone

/-- A new page, of which one object is taken at once. -/
theorem FreeOk.expanded {p cnt : Nat} {set : Option (Finset Nat)} {ptr : Option EntryPtr}
    {b₁ : Bulk} (h : FreeOk c b) (hvalid : c.Valid (.bulk n))
    (upd : b.Updated n set (some ⟨b.nodes,
      ⟨(∅ : PageMap Nat Nat).insert p (c.carver.split (.bulk n) p), cnt⟩⟩) ptr b₁)
    (hslot : f.slotIdx = n) (hserved : b₁.Served f b') : FreeOk c b' := by
  subst hslot
  obtain ⟨e, objs, hpopped, -, hobjs⟩ := hserved.popped
  have hsplit : e.page.objs =
      (∅ : PageMap Nat Nat).insert p (c.carver.split (.bulk f.slotIdx) p) := by
    have hentry := hpopped.entry
    rw [upd.hash, if_pos rfl] at hentry
    rw [← Option.some.inj hentry]
  have htotal : total e.page.objs = c.objsPerPage (.bulk f.slotIdx) := by
    rw [hsplit, total_insert_fresh (by simp [listAt]), total_empty, split_length, zero_add]
  have hrest := total_popFront hpopped.pop
  constructor
  · intro m hm
    rw [hobjs m]
    split_ifs with heq
    · subst heq
      have hfour := objsPerPage_le hvalid hm
      exact .inl (by omega)
    · rw [upd.objsAt_some m, if_neg heq]
      exact h.limited m hm
  · intro m hm
    by_cases heq : m = f.slotIdx
    · subst heq
      have hone := objsPerPage_of_ge hvalid (le_of_lt hm)
      -- the only object of the page is gone, and with it the entry
      cases hserved with
      | last popped rest upd' => rw [upd'.hash, if_pos rfl]
      | kept kept =>
        obtain ⟨popped', rest, -⟩ := kept
        cases hpopped.entry.symm.trans popped'.entry
        obtain ⟨-, rfl⟩ :=
          Prod.mk.inj (Option.some.inj (hpopped.pop.symm.trans popped'.pop))
        have hne : NoEmpty objs := by
          refine noEmpty_popFront ?_ hpopped.pop
          rw [hsplit]
          exact noEmpty_single (c.carver.split_ne_nil _ _ hvalid)
        exact absurd ((total_eq_zero hne).1 (by omega)) rest
    · have hsame : b'.hash.lookup m = b₁.hash.lookup m := by
        cases hserved with
        | last popped rest upd' => rw [upd'.hash, if_neg heq]
        | kept kept =>
          obtain ⟨-, -, upd'⟩ := kept
          rw [upd'.hash, if_neg heq]
      rw [hsame, upd.hash, if_neg heq]
      exact h.large m hm

/-- An object that is put back into a resident slot. -/
theorem FreeOk.given {freed : Option Nat} (h : FreeOk c b) (hagree : b.Agree)
    (hnprocs : c.nprocs + 4 < 2 ^ 32) (htotal : total (objsAt b.hash n) < 2 ^ 31)
    (hle : c.slotSize (.bulk n) ≤ availableReserveBulkObjMaxSize)
    (hput : Pool.residentBulk c.nprocs 4 n it o b = (b', freed))
    (hgiven : b.Given 4 n o (b', freed)) : FreeOk c b' := by
  have hnot : ¬ availableReserveBulkObjMaxSize < c.slotSize (.bulk n) := by omega
  have hlimited := h.limited n hle
  cases hgiven with
  | @kept e ptr _ slotted upd =>
    refine h.updated upd ?_ (fun hlt => absurd hlt hnot)
    rintro - _ ⟨⟩
    have hkept := Bulk.residentBulk_kept (P := 4) (by omega) slotted (congrArg Prod.snd hput)
    have hcnt := (slotted.agreeAt hagree).2.2
    rw [slotted.objsAt] at htotal
    rcases hkept with hfew | hfull
    · left
      rw [u32_of_lt hnprocs, hcnt, u32_of_lt (by omega)] at hfew
      rw [total_pushBack]
      exact hfew
    · exact .inr hfull
  | freed slotted mem full cnt_eq rest upd =>
    refine h.updated upd ?_ (fun hlt => absurd hlt hnot)
    rintro - _ ⟨⟩
    rw [slotted.objsAt] at hlimited
    exact hlimited.pushBack_erase (by omega) full
  | emptied slotted mem full rest upd => exact h.updated upd (by simp) (fun _ => rfl)

end FreeOk

/-! ## Runs -/

/-- The invariant of runs without risky requests: besides the agreement of the indexes, the
free objects of the slots, and that a pool that has faulted has an object that could not be put
back. -/
structure GiveBackInv (c : Config) (s : Pool) : Prop where
  index : IndexInv c s
  free_ok : FreeOk c s.bulk
  faulted : s.fault = none ∨ s.out ≠ []

/-- A bulk slot of which every object has been put back: above the reserve limit it has no
free object and no block, otherwise `Put` has assumed the objects per page that `Get` has carved,
and there are less free objects than the resident ones and those of a page. -/
def GivenBack (c : Config) (s : Pool) (n : Nat) : Prop :=
  if c.slotSize (.bulk n) > availableReserveBulkObjMaxSize then
    objsAt s.bulk.hash n = ∅ ∧ ∀ p, (⟨.bulk n, p⟩ : Block Key) ∉ s.live
  else
    putObjsCnt c n = c.objsPerPage (.bulk n) ∧
      total (objsAt s.bulk.hash n) < c.nprocs + c.objsPerPage (.bulk n)

section Runs

variable {c : Config} {s s' : Pool} {a : Label}

theorem init_giveBackInv (c : Config) (garbage : Nat) : GiveBackInv c (Pool.init c garbage) := by
  refine ⟨init_indexInv c garbage, ⟨?_, ?_⟩, .inl rfl⟩
  · intro n _
    exact limited_empty (by omega)
  · intro n _
    rfl

theorem get_freeOk {size : Nat} {objP : Option Nat} (it : IterOrder Nat) (h : GiveBackInv c s)
    (hsize : size + c.sysPageSize ≤ 2 ^ 32) (hobjP : AllocOk c s (requestKey c size) objP)
    (hsafe : ∀ n, requestKey c size = .bulk n → ¬ s.bulk.Risky n) :
    FreeOk c (s.settle ((s.get c size objP it).map Prod.snd)).bulk ∧
      (s.settle ((s.get c size objP it).map Prod.snd)).fault = s.fault := by
  have hinv := h.index.inv
  by_cases hbulk : size ≤ bulkObjThreshold
  · obtain ⟨r, hget, -, hok⟩ := get_slot it hinv hbulk hobjP
    rw [hget]
    exact ⟨hok.bulk_eq ▸ h.free_ok, hok.fault_eq⟩
  · obtain ⟨n, hkey, hvalid, hgot⟩ := get_bulkGot hinv.handles h.index.agree.paired.ptrSlots
      (lt_of_not_ge hbulk) hsize objP it
    have hnotRisky := hsafe n hkey
    generalize s.get c size objP it = r at hgot ⊢
    cases hgot with
    | fault fits search risky => exact absurd (risky h.index.agree) hnotRisky
    | forgot forgot risky wrapped => exact absurd risky hnotRisky
    | reused fits served safe wrapped =>
      have hfree := h.free_ok.served served (fun hle => hinv.bulk_listAt_le hle)
      exact ⟨wrapped.bulk_eq ▸ hfree, wrapped.fault_eq⟩
    | failed noFit alloc upd =>
      exact ⟨h.free_ok.updated upd (by simp) (fun _ => rfl), rfl⟩
    | expanded noFit alloc upd slot served wrapped =>
      have hfree := h.free_ok.expanded hvalid upd slot served
      exact ⟨wrapped.bulk_eq ▸ hfree, wrapped.fault_eq⟩

theorem put_freeOk {h : Nat} (it : IterOrder Nat) (hs : GiveBackInv c s)
    (hnprocs : c.nprocs + 4 < 2 ^ 32) (hfault : s.fault = none) (hmem : h ∈ s.out) :
    FreeOk c (s.settle (s.put c h it)).bulk ∧
      ((s.settle (s.put c h it)).fault = none ∨ (s.settle (s.put c h it)).out ≠ []) := by
  have hinv := hs.index.inv
  by_cases hk : ((s.objects h).key c).IsSlot
  · obtain ⟨s', hput, hok, hbulk, -⟩ := put_slot it hinv hmem hk
    rw [hput]
    exact ⟨hbulk ▸ hs.free_ok, .inl (hok.fault_eq.trans hfault)⟩
  · obtain ⟨n, hkey⟩ := exists_bulk_key hk
    by_cases hle : c.slotSize (.bulk n) ≤ availableReserveBulkObjMaxSize
    · obtain ⟨b', freed, s', hres, hgiven, hput, hok, hbulk, -⟩ := put_resident hinv hmem hkey hle
        (fun _ e hentry => (hs.index.agree.entry hentry).2.2.2) it
      have hfree := hs.free_ok.given hs.index.agree hnprocs (hinv.total_lt n) hle hres hgiven
      rw [hput]
      exact ⟨hbulk ▸ hfree, .inl (hok.fault_eq.trans hfault)⟩
    · rcases put_dropped hinv hmem hkey (lt_of_not_ge hle) it with
        ⟨-, hput⟩ | ⟨set, s', -, hput, hok, hupd, -⟩
      · rw [hput]
        exact ⟨hs.free_ok, .inr (List.ne_nil_of_mem hmem)⟩
      · rw [hput]
        have hnone := hs.free_ok.large n (lt_of_not_ge hle)
        rw [hnone] at hupd
        exact ⟨hs.free_ok.updated hupd (by simp) (fun _ => rfl),
          .inl (hok.fault_eq.trans hfault)⟩

/-- Every step without risk keeps the free objects of the bulk slots within their limits. -/
theorem step_giveBackInv (hnprocs : c.nprocs + 4 < 2 ^ 32) (h : GiveBackInv c s)
    (hsized : a.Sized c) (hsafe : NotRisky c s a) (hstep : step c s a = some s') :
    GiveBackInv c s' := by
  have hindex := step_indexInv h.index hsized hsafe hstep
  cases a with
  | get size objP it =>
    obtain ⟨hfault, hobjP, rfl⟩ := step_get hstep
    obtain ⟨hfree, hsame⟩ := get_freeOk it h hsized hobjP hsafe
    exact ⟨hindex, hfree, .inl (hsame.trans hfault)⟩
  | put h' it =>
    obtain ⟨hfault, hmem, rfl⟩ := step_put hstep
    obtain ⟨hfree, hout⟩ := put_freeOk it h hnprocs hfault hmem
    exact ⟨hindex, hfree, hout⟩
  | recycle h' =>
    obtain ⟨hfault, -, rfl⟩ := step_recycle hstep
    exact ⟨hindex, h.free_ok, .inl hfault⟩

/-- What a slot keeps when nothing is outstanding. -/
theorem GiveBackInv.givenBack_iff {n : Nat} (h : GiveBackInv c s) (hout : s.out = [])
    (hvalid : c.Valid (.bulk n)) :
    GivenBack c s n ↔ c.slotSize (.bulk n) ≠ availableReserveBulkObjMaxSize := by
  unfold GivenBack
  have hpos := objsPerPage_pos hvalid
  have hfull : ∀ p, (⟨.bulk n, p⟩ : Block Key) ∈ s.live →
      (listAt (objsAt s.bulk.hash n) p).length = c.objsPerPage (.bulk n) := by
    intro p hlive
    exact h.index.inv.full_of_idle trivial (by simp [hout]) hlive
  split_ifs with hlt
  · have hnone := h.free_ok.large n hlt
    have hempty : objsAt s.bulk.hash n = ∅ := objsAt_of_none hnone
    refine iff_of_true ⟨hempty, ?_⟩ (ne_of_gt hlt)
    intro p hlive
    have hlength := hfull p hlive
    rw [hempty] at hlength
    simp [listAt] at hlength
    omega
  · have hle : c.slotSize (.bulk n) ≤ availableReserveBulkObjMaxSize := by omega
    rw [putObjsCnt_eq_iff hvalid hle]
    refine and_iff_left_of_imp ?_
    intro hne
    have hfour : c.objsPerPage (.bulk n) = 4 :=
      ((putObjsCnt_eq_iff hvalid hle).2 hne).symm.trans (onePageObjsCnt_eq hvalid hle).1
    rw [hfour]
    refine (h.free_ok.limited n hle).total_lt (by omega) ?_
    intro p hp
    obtain ⟨l, hl⟩ := mem_keys_iff_lookup.1 hp
    exact (hfull p (h.index.inv.bulk_home hl).1).trans hfour

end Runs

end MemPool
end CCraft
