import CCraft.MemPool.Sound

/-!
# The page sets of bulk slots

The pages of a bulk slot are kept in a set, from which `Put` and the destructor
know what to free.  `Get` starts a new set whenever it has to allocate, so the
pages of outstanding objects are lost when the set was not empty.  Nothing is said
about a pool behind undefined behaviour, so `Get` also has to find its entries in
place.

Main results:

- Theorem {lit}`step_pagesInv`: every other step keeps the sets right.
- Theorem {lit}`pages_tracked_iff`: along a run the sets hold exactly the live bulk
  pages if and only if every `Get` is safe and no allocation meets a set that is not
  empty.
-/

namespace CCraft
namespace MemPool

open Slab PageMap

/-! ## The sets -/

namespace Bulk

/-- The page set of a slot. -/
def pageSet (b : Bulk) (n : Nat) : Finset Nat :=
  (b.pages.lookup n).getD ∅

/-- The pages that the destructor frees for bulk objects. -/
def destroy (b : Bulk) : Multiset Nat :=
  (b.pages.entries : Multiset (Σ _ : Nat, Finset Nat)).bind fun e => e.2.val

variable {b b' : Bulk} {n : Nat} {f : Suitable} {o : MemObject}

theorem mem_destroy {p : Nat} : p ∈ b.destroy ↔ ∃ n, p ∈ b.pageSet n := by
  simp only [destroy, Multiset.mem_bind, Multiset.mem_coe, Finset.mem_val]
  constructor
  · rintro ⟨⟨n, set⟩, hmem, hp⟩
    refine ⟨n, ?_⟩
    rw [pageSet, AList.mem_lookup_iff.mpr hmem]
    exact hp
  · rintro ⟨n, hp⟩
    cases hset : b.pages.lookup n with
    | none => simp [pageSet, hset] at hp
    | some set =>
      rw [pageSet, hset] at hp
      exact ⟨⟨n, set⟩, AList.mem_lookup_iff.mp hset, hp⟩

/-- When no page is in two sets, the destructor frees no page twice. -/
theorem destroy_nodup (h : ∀ n m p, p ∈ b.pageSet n → p ∈ b.pageSet m → n = m) :
    b.destroy.Nodup := by
  have hmem : ∀ e ∈ b.pages.entries, ∀ p ∈ e.2, p ∈ b.pageSet e.1 := by
    intro e he p hp
    rw [pageSet, AList.mem_lookup_iff.mpr he]
    exact hp
  rw [destroy, Multiset.nodup_bind]
  refine ⟨fun e _ => e.2.nodup, b.pages.entries, rfl, ?_⟩
  have hkeys : b.pages.entries.Pairwise fun e e' => e.1 ≠ e'.1 :=
    List.nodupKeys_iff_pairwise.mp b.pages.nodupKeys
  refine hkeys.imp_of_mem ?_
  intro e e' he he' hne
  refine Multiset.disjoint_left.mpr ?_
  intro p hp hp'
  exact hne (h _ _ p (hmem e he p hp) (hmem e' he' p hp'))

theorem Updated.pageSet {set : Option (Finset Nat)} {entry : Option HashEntry}
    {ptr : Option EntryPtr} (upd : b.Updated n set entry ptr b') (m : Nat) :
    b'.pageSet m = if m = n then set.getD ∅ else b.pageSet m := by
  simp only [Bulk.pageSet, upd.pages m]
  split_ifs <;> rfl

/-- What giving an object back does to the page sets: the page that is given up
leaves the set of its slot. -/
theorem Given.pageSet {freed : Option Nat} (h : b.Given 4 n o (b', freed)) :
    ∀ m, b'.pageSet m =
      if m = n then freed.elim (b.pageSet n) (b.pageSet n).erase else b.pageSet m := by
  cases h with
  | kept slotted upd | freed slotted mem full cnt_eq rest upd
  | emptied slotted mem full rest upd => exact upd.pageSet

theorem Served.pageSet (h : b.Served f b') (m : Nat) : b'.pageSet m = b.pageSet m := by
  obtain ⟨-, -, -, hpages, -⟩ := h.popped
  simp only [Bulk.pageSet, ← congrFun hpages m]

end Bulk

/-! ## Runs -/

/-- The page sets hold exactly the live bulk pages, the page of an outstanding bulk
object is in the set of its slot, no operation has met an entry that is not there, and the
destructor would free every live bulk page once. -/
structure PagesTracked (c : Config) (s : Pool) : Prop where
  pages_eq : ∀ p, (∃ n, p ∈ s.bulk.pageSet n) ↔ ∃ n, (⟨.bulk n, p⟩ : Block Key) ∈ s.live
  out_tracked : ∀ h ∈ s.out, (s.objects h).type = .bulk → (s.objects h).objPagePv ∈
    s.bulk.pageSet (convertSlotObjSizeToSlotIdx (s.objects h).slotSize c.sysPageSize)
  no_fault : s.fault = none
  destroy_once : s.bulk.destroy.Nodup ∧
    ∀ p, p ∈ s.bulk.destroy ↔ ∃ n, (⟨.bulk n, p⟩ : Block Key) ∈ s.live

/-- The request finds its entries in place, and when it has to allocate, the page set of its
slot is empty. -/
def FreshSet (c : Config) (s : Pool) : Label → Prop
  | .get size objP _ => GetSafe c s size objP ∧
      ∀ n, requestKey c size = .bulk n → s.bulk.NoFit n → s.bulk.pageSet n = ∅
  | .put _ _ => True
  | .recycle _ => True

theorem Bulk.noFit_iff (b : Bulk) (n : Nat) :
    b.NoFit n ↔ (b.hash.lookup n).isNone = true ∧ (b.larger? n).isNone = true := by
  simp only [Option.isNone_iff_eq_none]
  exact ⟨fun h => ⟨h.1, h.larger?⟩, fun h => ⟨h.1, Bulk.larger?_eq_none h.2⟩⟩

instance (b : Bulk) (n : Nat) : Decidable (b.NoFit n) :=
  decidable_of_iff' _ (b.noFit_iff n)

instance (c : Config) (s : Pool) : DecidablePred (FreshSet c s)
  | .get size objP _ => inferInstanceAs (Decidable
      (((∀ n, requestKey c size = .bulk n → s.bulk.SearchSafe n) ∧
        (size + c.sysPageSize ≤ 2 ^ 32 ∨ objP = none)) ∧
      ∀ n, requestKey c size = .bulk n → s.bulk.NoFit n → s.bulk.pageSet n = ∅))
  | .put _ _ | .recycle _ => isTrue trivial

/-- The part of the invariant that is about the sets. -/
structure PagesKept (s : Pool) : Prop where
  tracked : ∀ n p, p ∈ s.bulk.pageSet n ↔ (⟨.bulk n, p⟩ : Block Key) ∈ s.live
  no_fault : s.fault = none

/-- The invariant of runs in which every allocation starts from an empty set. -/
structure PagesInv (c : Config) (s : Pool) : Prop extends PagesKept s where
  sound : SoundInv c s

section Runs

variable {c : Config} {s s' : Pool} {a : Label}

/-- A page is in the set of one slot at most. -/
theorem PagesInv.slot_eq (h : PagesInv c s) {n m p : Nat} (hn : p ∈ s.bulk.pageSet n)
    (hm : p ∈ s.bulk.pageSet m) : n = m := by
  have heq := h.sound.inv.wf.eq_of_addr ((h.tracked n p).mp hn) ((h.tracked m p).mp hm) rfl
  simpa using heq

/-- The page of an outstanding bulk object is in the set of its slot. -/
theorem PagesInv.out_mem (h : PagesInv c s) {h' n : Nat} (hmem : h' ∈ s.out)
    (hkey : (s.objects h').key c = .bulk n) : (s.objects h').objPagePv ∈ s.bulk.pageSet n := by
  have hhome := h.sound.inv.wf.out_home _ (obj_mem_outs hmem)
  simp only [MemObject.obj, hkey] at hhome
  exact (h.tracked n _).mpr hhome

theorem PagesInv.pagesTracked (h : PagesInv c s) : PagesTracked c s := by
  have hpages : ∀ p, (∃ n, p ∈ s.bulk.pageSet n) ↔
      ∃ n, (⟨.bulk n, p⟩ : Block Key) ∈ s.live :=
    fun p => exists_congr fun n => h.tracked n p
  refine ⟨hpages, ?_, h.no_fault, Bulk.destroy_nodup fun n m p hn hm => h.slot_eq hn hm, ?_⟩
  · intro h' hmem htype
    exact h.out_mem hmem (by simp only [MemObject.key, htype])
  · exact fun p => Bulk.mem_destroy.trans (hpages p)

theorem init_pagesInv (c : Config) (garbage : Nat) : PagesInv c (Pool.init c garbage) := by
  refine ⟨⟨?_, rfl⟩, init_soundInv c garbage⟩
  intro n p
  simp [Pool.init, Bulk.empty, Bulk.pageSet]

/-- The outcomes of `Get` that do not allocate leave the sets and the blocks alone. -/
theorem PagesKept.wrapped {b' : Bulk} {o : MemObject} {h : Nat} (hs : PagesKept s)
    (hw : Wrapped (s.setBulk b') o h s') (hpages : ∀ m, b'.pageSet m = s.bulk.pageSet m) :
    PagesKept s' := by
  refine ⟨?_, hw.fault_eq ▸ hs.no_fault⟩
  intro n p
  rw [hw.bulk_eq, hw.live_eq]
  exact (hpages n) ▸ hs.tracked n p

/-- After an allocation for a slot with an empty set. -/
theorem PagesKept.expanded {n p : Nat} {b₁ : Bulk} {entry : Option HashEntry}
    {ptr : Option EntryPtr} (hs : PagesKept s) (hfresh : s.bulk.pageSet n = ∅)
    (hupd : s.bulk.Updated n (some {p}) entry ptr b₁) :
    PagesKept ((s.addLive (.bulk n) (some p)).setBulk b₁) := by
  refine ⟨?_, hs.no_fault⟩
  intro m q
  have hm := hupd.pageSet m
  simp only [Pool.setBulk, Pool.addLive, List.mem_cons, Block.mk.injEq, Key.bulk.injEq, hm]
  rw [← hs.tracked m q]
  split_ifs with heq
  · simp [heq, hfresh]
  · simp [heq]

/-- A failed allocation for a slot with an empty set. -/
theorem PagesKept.failed {n : Nat} {b' : Bulk} {entry : Option HashEntry} {ptr : Option EntryPtr}
    (hs : PagesKept s) (hfresh : s.bulk.pageSet n = ∅)
    (hupd : s.bulk.Updated n (some ∅) entry ptr b') : PagesKept (s.setBulk b') := by
  refine ⟨?_, hs.no_fault⟩
  intro m q
  refine Iff.trans ?_ (hs.tracked m q)
  simp only [Pool.setBulk, hupd.pageSet m]
  split_ifs with heq
  · simp [heq, hfresh]
  · rfl

theorem get_pagesKept {size : Nat} {objP : Option Nat} (it : IterOrder Nat) (h : PagesInv c s)
    (hsize : size < 2 ^ 32) (hobjP : AllocOk c s (requestKey c size) objP)
    (hsafe : GetSafe c s size objP)
    (hfresh : ∀ n, requestKey c size = .bulk n → s.bulk.NoFit n → s.bulk.pageSet n = ∅) :
    PagesKept (s.settle ((s.get c size objP it).map Prod.snd)) := by
  obtain ⟨got, hok⟩ := (get_ok_iff it h.sound hsize hobjP).2 hsafe
  by_cases hbulk : size ≤ bulkObjThreshold
  · obtain ⟨r, hget, hk, hok⟩ := get_slot it h.sound.inv hbulk hobjP
    rw [hget]
    refine ⟨?_, hok.fault_eq ▸ h.no_fault⟩
    intro n p
    have hne : (⟨.bulk n, p⟩ : Block Key).key ≠ requestKey c size := fun heq => by
      rw [← heq] at hk
      exact hk
    exact (hok.bulk_eq ▸ h.tracked n p).trans (hok.live ⟨.bulk n, p⟩ hne).symm
  by_cases hle : size + c.sysPageSize ≤ 2 ^ 32
  · obtain ⟨n, hkey, hvalid, hgot⟩ := get_bulkGot h.sound.inv.handles h.sound.ptr_slots
      (lt_of_not_ge hbulk) hle objP it
    have hempty := hfresh n hkey
    generalize s.get c size objP it = r at hgot hok ⊢
    cases hgot with
    | fault fits search risky => cases hok
    | forgot forgot risky wrapped =>
      refine h.toPagesKept.wrapped wrapped ?_
      obtain ⟨-, -, -, pages, -, -⟩ := forgot
      intro m
      simp only [Bulk.pageSet, pages]
    | reused fits served safe wrapped => exact h.toPagesKept.wrapped wrapped served.pageSet
    | failed noFit alloc upd => exact h.toPagesKept.failed (hempty noFit) upd
    | expanded noFit alloc upd slot served wrapped =>
      exact (h.toPagesKept.expanded (hempty noFit) upd).wrapped wrapped served.pageSet
  · have hkey := requestKey_wrapped (lt_of_not_ge hle) hsize
    rcases get_wrapped h.sound.inv (lt_of_not_ge hle) hsize objP it with
      ⟨fault, hget, -⟩ | ⟨b', hupd, hnoFit, -, hget⟩
    · rw [hget] at hok
      cases hok
    · rw [hget]
      exact h.toPagesKept.failed (hfresh 0 hkey hnoFit) hupd

/-- A page that leaves its set together with its block. -/
theorem PagesInv.tracked_erase {n p : Nat} {b' : Bulk} (h : PagesInv c s)
    (hpages : ∀ m, b'.pageSet m = if m = n then (s.bulk.pageSet n).erase p else s.bulk.pageSet m)
    (m q : Nat) :
    q ∈ b'.pageSet m ↔ (⟨.bulk m, q⟩ : Block Key) ∈ s.live.erase ⟨.bulk n, p⟩ := by
  have hnodup : s.live.Nodup := h.sound.inv.wf.live_nodup
  rw [hpages m, hnodup.mem_erase_iff, ← h.tracked m q]
  split_ifs with hm
  · subst hm
    rw [Finset.mem_erase]
    simp
  · simp [hm]

theorem put_pagesKept {h : Nat} (it : IterOrder Nat) (hs : PagesInv c s) (hmem : h ∈ s.out) :
    PagesKept (s.settle (s.put c h it)) := by
  by_cases hk : ((s.objects h).key c).IsSlot
  · obtain ⟨s', hput, hok, hbulk, hlive⟩ := put_slot it hs.sound.inv hmem hk
    rw [hput]
    refine ⟨?_, hok.fault_eq ▸ hs.no_fault⟩
    intro n p
    have hne : (⟨.bulk n, p⟩ : Block Key).key ≠ (s.objects h).key c := by
      intro heq
      rw [← heq] at hk
      exact hk
    exact (hbulk ▸ hs.tracked n p).trans (hlive ⟨.bulk n, p⟩ hne).symm
  · obtain ⟨n, hkey⟩ := exists_bulk_key hk
    by_cases hle : c.slotSize (.bulk n) ≤ availableReserveBulkObjMaxSize
    · obtain ⟨b', freed, s', -, hgiven, hput, hok, hbulk, hlive⟩ :=
        put_resident hs.sound.inv hmem hkey hle (fun hslot => hslot.elim) it
      have hpages := hgiven.pageSet
      rw [hput]
      refine ⟨?_, hok.fault_eq ▸ hs.no_fault⟩
      intro m q
      simp only [Pool.settle, hbulk, hlive]
      cases freed with
      | none =>
        refine Iff.trans ?_ (hs.tracked m q)
        rw [hpages m]
        split_ifs with hm
        · rw [hm]
          rfl
        · rfl
      | some p => exact hs.tracked_erase hpages m q
    · rcases put_dropped hs.sound.inv hmem hkey (lt_of_not_ge hle) it with
        ⟨hset, hput⟩ | ⟨set, s', hset, hput, hok, hupd, hlive⟩
      · have hin := hs.out_mem hmem hkey
        simp [Bulk.pageSet, hset] at hin
      · have hdrop : (droppedSet set (s.objects h).objPagePv).getD ∅ =
            (s.bulk.pageSet n).erase (s.objects h).objPagePv := by
          rw [Bulk.pageSet, hset, droppedSet]
          split_ifs with hempty
          · exact hempty.symm
          · rfl
        have hpages := hupd.pageSet
        rw [hdrop] at hpages
        rw [hput]
        refine ⟨?_, hok.fault_eq ▸ hs.no_fault⟩
        intro m q
        simp only [Pool.settle, hlive]
        exact hs.tracked_erase hpages m q

theorem step_pagesInv (h : PagesInv c s) (hrange : a.InRange) (hfresh : FreshSet c s a)
    (hstep : step c s a = some s') : PagesInv c s' := by
  have hsound := step_soundInv h.sound hrange hstep
  cases a with
  | get size objP it =>
    obtain ⟨-, hobjP, rfl⟩ := step_get hstep
    exact ⟨get_pagesKept it h hrange.2 hobjP hfresh.1 hfresh.2, hsound⟩
  | put h' it =>
    obtain ⟨-, hmem, rfl⟩ := step_put hstep
    exact ⟨put_pagesKept it h hmem, hsound⟩
  | recycle h' =>
    obtain ⟨-, hmem, rfl⟩ := step_recycle hstep
    exact ⟨⟨h.tracked, h.no_fault⟩, hsound⟩

/-- When a set that is not empty is replaced, its pages are live and in no set. -/
theorem PagesInv.lost {n q : Nat} (h : PagesInv c s) (b' : Bulk) (hq : q ∈ s.bulk.pageSet n)
    (hself : q ∉ b'.pageSet n) (hother : ∀ m, m ≠ n → b'.pageSet m = s.bulk.pageSet m)
    (hbulk : s'.bulk = b') (hlive : ∀ b ∈ s.live, b ∈ s'.live) : ¬ PagesTracked c s' := by
  intro htracked
  obtain ⟨m, hm⟩ := (htracked.pages_eq q).mpr ⟨n, hlive _ ((h.tracked n q).mp hq)⟩
  rw [hbulk] at hm
  by_cases heq : m = n
  · exact hself (heq ▸ hm)
  · rw [hother m heq] at hm
    exact heq (h.slot_eq hm hq)

/-- An allocation that meets a set that is not empty loses the pages of the set. -/
theorem get_stale {size n : Nat} {objP : Option Nat} (it : IterOrder Nat) (h : PagesInv c s)
    (hsize : size < 2 ^ 32) (hobjP : AllocOk c s (requestKey c size) objP)
    (hkey : requestKey c size = .bulk n) (hnoFit : s.bulk.NoFit n) (hset : s.bulk.pageSet n ≠ ∅) :
    ¬ PagesTracked c (s.settle ((s.get c size objP it).map Prod.snd)) := by
  obtain ⟨q, hq⟩ := Finset.nonempty_iff_ne_empty.mpr hset
  have hvalid : c.Valid (.bulk n) := (h.sound.inv.wf.fits _ ((h.tracked n q).mp hq)).1
  by_cases hle : size + c.sysPageSize ≤ 2 ^ 32
  · obtain ⟨m, hm, -, hgot⟩ := get_bulkGot h.sound.inv.handles h.sound.ptr_slots
      (bulk_of_requestKey hkey) hle objP it
    cases hkey.symm.trans hm
    rw [hkey] at hobjP
    generalize s.get c size objP it = r at hgot ⊢
    cases hgot with
    | fault fits | reused fits => exact absurd hnoFit fits
    | forgot forgot risky => exact absurd risky hnoFit.not_risky
    | failed noFit alloc upd =>
      refine h.lost _ hq ?_ (fun m' hm' => (upd.pageSet m').trans (if_neg hm')) rfl
        fun _ hb => hb
      simp [upd.pageSet]
    | @expanded p b₁ b' f _ t noFit alloc upd slot served wrapped =>
      subst alloc
      have hne : q ≠ p := by
        rintro rfl
        have hfits : c.carver.Fits ⟨.bulk n, q⟩ := ⟨hvalid, hobjP.2.1⟩
        exact hfits.not_mem_of_apart hobjP.2.2 ((h.tracked n q).mp hq)
      refine h.lost b' hq ?_ ?_ wrapped.bulk_eq ?_
      · rw [served.pageSet, upd.pageSet]
        simpa using hne
      · intro m' hm'
        rw [served.pageSet, upd.pageSet, if_neg hm']
      · intro b hb
        have hlive : t.live = ⟨.bulk n, p⟩ :: s.live := wrapped.live_eq
        exact hlive ▸ List.mem_cons_of_mem _ hb
  · -- slot zero has no block
    obtain rfl : 0 = n :=
      Key.bulk.inj ((requestKey_wrapped (lt_of_not_ge hle) hsize).symm.trans hkey)
    simp [Config.Valid] at hvalid

theorem step_stale (h : PagesInv c s) (hrange : a.InRange) (hstale : ¬ FreshSet c s a)
    (hstep : step c s a = some s') : ¬ PagesTracked c s' := by
  cases a with
  | get size objP it =>
    obtain ⟨-, hobjP, rfl⟩ := step_get hstep
    by_cases hsafe : GetSafe c s size objP
    · have hstale := fun hset => hstale ⟨hsafe, hset⟩
      simp only [imp_false, not_forall] at hstale
      obtain ⟨n, hkey, hnoFit, hset⟩ := hstale
      exact get_stale it h hrange.2 hobjP hkey hnoFit hset
    · have herror := mt (get_ok_iff it h.sound hrange.2 hobjP).1 hsafe
      intro htracked
      generalize s.get c size objP it = r at herror htracked
      cases r with
      | ok r => exact herror ⟨r, rfl⟩
      | error fault => cases htracked.no_fault
  | put | recycle => exact absurd trivial hstale

/-- In every run from a fresh pool, for every page size and sizes of 32 bits, the page sets hold
exactly the live bulk pages, and the destructor frees each of them once, if and only if every
`Get` finds its entries in place and every allocation for a bulk slot meets an empty page set. -/
theorem pages_tracked_iff (c : Config) (garbage : Nat) (labels : List Label) (t : Pool)
    (hlabels : ∀ a ∈ labels, a.InRange)
    (hrun : Runs.run (step c) (Pool.init c garbage) labels = some t) :
    Runs.Always (step c) (PagesTracked c) (Pool.init c garbage) labels ↔
      Runs.Guarded (step c) (FreshSet c) (Pool.init c garbage) labels :=
  Runs.always_iff_guarded (I := PagesInv c)
    (fun _ _ _ hs ha hfresh hstep => step_pagesInv hs ha hfresh hstep)
    (fun _ hs => hs.pagesTracked)
    (fun _ _ _ hs ha hstale hstep => step_stale hs ha hstale hstep)
    (init_pagesInv c garbage) hlabels hrun

/-- Objects of 512 and of 74 pages are taken and put back in turn, and the second slot is
searched for a smaller request. -/
theorem pages_tracked_iff_reuse :
    let labels : List Label :=
      [.get 2097152 (some 4194304) .listed, .get 303104 (some 65536) .listed, .put 0 .listed,
        .recycle 0, .put 1 .listed, .get 245760 none .listed]
    (Runs.run (step Config.default) (Pool.init Config.default 0) labels).isSome = true ∧
      Runs.Always (step Config.default) (PagesTracked Config.default)
        (Pool.init Config.default 0) labels := by
  intro labels
  have hsome : (Runs.run (step Config.default) (Pool.init Config.default 0) labels).isSome =
      true := by decide +kernel
  exact ⟨hsome, (pages_tracked_iff Config.default 0 labels _ (by decide)
    (Option.some_get hsome).symm).2 (by decide +kernel)⟩

/-- Two objects of 512 pages are taken: the page of the first one is in no set any more.
When the second one is put back its set goes, and the first one can not be put back. -/
theorem page_of_outstanding_lost :
    ∃ labels t labels' t', (∀ a ∈ labels ++ labels', a.InRange) ∧
      Runs.run (step Config.default) (Pool.init Config.default 0) labels = some t ∧
      (⟨.bulk 512, 65536⟩ : Block Key) ∈ t.live ∧ 65536 ∉ t.bulk.destroy ∧
      ¬ PagesTracked Config.default t ∧
      Runs.run (step Config.default) t labels' = some t' ∧ t'.fault = some .noPageSet := by
  let labels : List Label :=
    [.get 2097152 (some 65536) .listed, .get 2097152 (some 4194304) .listed]
  let labels' : List Label := [.put 1 .listed, .put 0 .listed]
  have hview : (Runs.run (step Config.default) (Pool.init Config.default 0) labels).map
      (fun t => (t.live, decide (65536 ∈ t.bulk.destroy),
        (Runs.run (step Config.default) t labels').map Pool.fault)) =
      some ([⟨.bulk 512, 4194304⟩, ⟨.bulk 512, 65536⟩], false, some (some .noPageSet)) := by
    decide +kernel
  obtain ⟨t, ht, hview⟩ := Option.map_eq_some_iff.mp hview
  simp only [Prod.mk.injEq, decide_eq_false_iff_not] at hview
  obtain ⟨hlive, hdestroy, hrest⟩ := hview
  obtain ⟨t', ht', hfault⟩ := Option.map_eq_some_iff.mp hrest
  have hmem : (⟨.bulk 512, 65536⟩ : Block Key) ∈ t.live := by simp [hlive]
  refine ⟨labels, t, labels', t', by decide, ht, hmem, hdestroy, ?_, ht', hfault⟩
  intro htracked
  exact hdestroy ((htracked.destroy_once.2 65536).mpr ⟨512, hmem⟩)

end Runs

end MemPool
end CCraft
