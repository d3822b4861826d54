import CCraft.MemPool.BulkPool

/-!
# The two indexes of bulk slots

The hash index and the ordered index of the bulk slots are to agree, and no free
object is to be lost.  One thing breaks this: a request whose own slot has no free
object and which is served with the last object of a larger slot.  The ordered
entry of that slot is then erased before the iterator to it is used once more, to
find the hash entry.

Main results:

- Theorem {lit}`step_indexInv`: every other step keeps the agreement.
- Theorem {lit}`indexes_agree_iff`: the indexes agree along a run exactly when no
  request of the run is served with the last object of a larger slot.
-/

namespace CCraft
namespace MemPool

open Slab PageMap

/-! ## One slot at a time -/

namespace Bulk

variable {b b' : Bulk} {n : Nat} {e : HashEntry} {f : Suitable} {o : MemObject}

theorem Agree.updated {set : Option (Finset Nat)} {entry : Option HashEntry}
    {ptr : Option EntryPtr} (h : Agree b) (upd : b.Updated n set entry ptr b')
    (hat : AgreeAt n entry ptr) : Agree b' := by
  intro m
  rw [upd.hash, upd.ordered]
  split_ifs with hm
  · exact hm ▸ hat
  · exact h m

/-- Taking an object keeps the agreement, unless another slot is damaged. -/
theorem Agree.served (h : Agree b) (hserved : b.Served f b')
    (hlt : total (objsAt b.hash f.slotIdx) < 2 ^ 32) : Agree b' := by
  cases hserved with
  | kept kept =>
    obtain ⟨popped, rest, upd⟩ := kept
    obtain ⟨hfind, -, hne, hcnt⟩ := h.entry popped.entry
    have htotal := total_popFront popped.pop
    rw [objsAt_of_lookup popped.entry] at hlt
    refine h.updated upd ?_
    rw [hfind]
    refine .present rest (noEmpty_popFront hne popped.pop) ?_
    simp only [decreased, hcnt, htotal, u32]
    omega
  | last popped rest upd => exact h.updated upd .absent

/-- Losing the hash entry of another slot breaks the agreement at once: the emptied
slot stays behind. -/
theorem Forgot.not_agree (h : b.Forgot f b') : ¬ Agree b' := by
  intro hagree
  obtain ⟨popped, rest, lt, -, hash, -⟩ := h
  have hentry := hash f.slotIdx
  rw [if_neg (by omega), if_pos rfl] at hentry
  exact (hagree.entry hentry).2.1 rest

theorem Slotted.agreeAt {ptr : Option EntryPtr} (h : Agree b) (hslotted : b.Slotted n e ptr) :
    ptr = some ⟨n, e.stamp⟩ ∧ NoEmpty e.page.objs ∧ e.page.cnt = total e.page.objs := by
  cases hslotted with
  | old entry =>
    obtain ⟨hfind, -, hne, hcnt⟩ := h.entry entry
    exact ⟨hfind, hne, hcnt⟩
  | new entry => exact ⟨rfl, fun p l hl => by simp [SlotObjPage.empty] at hl, rfl⟩

/-- Giving an object back keeps the agreement. -/
theorem Agree.given {freed : Option Nat} (h : Agree b) (hgiven : b.Given 4 n o (b', freed))
    (hlt : total (objsAt b.hash n) < 2 ^ 31) : Agree b' := by
  cases hgiven with
  | kept slotted upd =>
    obtain ⟨hptr, hne, hcnt⟩ := slotted.agreeAt h
    rw [slotted.objsAt] at hlt
    refine h.updated upd ?_
    rw [hptr]
    refine .present (by simp [pushBack]) (noEmpty_pushBack hne) ?_
    simp only [hcnt, total_pushBack]
    exact u32_of_lt (by omega)
  | @freed e ptr _ p cnt slotted mem full cnt_eq rest upd =>
    obtain ⟨hptr, hne, hcnt⟩ := slotted.agreeAt h
    rw [slotted.objsAt] at hlt
    have hsum := total_erase (pushBack e.page.objs o.objPagePv o.objPv) p
    rw [total_pushBack, full] at hsum
    have hcount : cnt = total ((pushBack e.page.objs o.objPagePv o.objPv).erase p) := by
      rw [cnt_eq, hcnt, u32_of_lt (show total e.page.objs + 1 < 2 ^ 32 by omega), u32]
      omega
    have hne' : NoEmpty ((pushBack e.page.objs o.objPagePv o.objPv).erase p) :=
      noEmpty_erase (noEmpty_pushBack hne)
    refine h.updated upd ?_
    rw [hptr]
    refine .present ?_ hne' hcount
    intro hkeys
    exact rest (hcount.trans ((total_eq_zero hne').mpr hkeys))
  | emptied slotted mem full rest upd => exact h.updated upd .absent

end Bulk

/-! ## Runs -/

/-- The indexes of the bulk slots agree, no search has met an empty or a removed slot,
and every object of a bulk page is free or outstanding. -/
structure IndexesAgree (c : Config) (s : Pool) : Prop where
  agree : s.bulk.Agree
  no_fault : ∀ fault ∈ s.fault, ¬ fault.OfSearch
  nothing_lost : ∀ n p, (⟨.bulk n, p⟩ : Block Key) ∈ s.live →
    (listAt (objsAt s.bulk.hash n) p ++ (s.outstanding.filter fun o =>
        o.key c = .bulk n ∧ o.objPagePv = p).map MemObject.objPv).Perm
      (splitMemPage (c.slotSize (.bulk n)) p (c.pageBytes (.bulk n)))

/-- The request is not served with the last object of a slot that is larger than its
own. -/
def NotRisky (c : Config) (s : Pool) : Label → Prop
  | .get size _ _ => ∀ n, requestKey c size = .bulk n → ¬ s.bulk.Risky n
  | .put _ _ => True
  | .recycle _ => True

theorem Bulk.risky_iff (b : Bulk) (n : Nat) :
    b.Risky n ↔ (b.hash.lookup n).isNone = true ∧ ((b.larger? n).any fun found =>
      (b.hash.lookup found.1).any fun e => total e.page.objs = 1) = true := by
  simp only [Bulk.Risky, Option.isNone_iff_eq_none, Option.any_eq_true, decide_eq_true_eq]
  constructor
  · rintro ⟨hnone, slot, ptr, e, hlarger, hentry, hone⟩
    exact ⟨hnone, (slot, ptr), hlarger, e, hentry, hone⟩
  · rintro ⟨hnone, ⟨slot, ptr⟩, hlarger, e, hentry, hone⟩
    exact ⟨hnone, slot, ptr, e, hlarger, hentry, hone⟩

instance (b : Bulk) (n : Nat) : Decidable (b.Risky n) :=
  decidable_of_iff' _ (b.risky_iff n)

instance (c : Config) (s : Pool) : DecidablePred (NotRisky c s)
  | .get size _ _ =>
    inferInstanceAs (Decidable (∀ n, requestKey c size = .bulk n → ¬ s.bulk.Risky n))
  | .put _ _ | .recycle _ => isTrue trivial

/-- The invariant of runs that never take a risk. -/
structure IndexInv (c : Config) (s : Pool) : Prop where
  inv : Inv c (fun _ => True) s
  agree : s.bulk.Agree
  no_fault : ∀ fault ∈ s.fault, ¬ fault.OfSearch

section Runs

variable {c : Config} {s s' : Pool} {a : Label}

theorem IndexInv.indexesAgree (h : IndexInv c s) : IndexesAgree c s := by
  refine ⟨h.agree, h.no_fault, ?_⟩
  intro n p hlive
  have hwhole := h.inv.wf.whole ⟨.bulk n, p⟩ hlive trivial
  rw [← Multiset.coe_eq_coe, ← Multiset.coe_add, ← outsAt_outs]
  exact hwhole

theorem init_indexInv (c : Config) (garbage : Nat) : IndexInv c (Pool.init c garbage) :=
  ⟨init_inv c _ garbage, fun _ => .absent, by simp [Pool.init]⟩

theorem IndexInv.settle_error (h : IndexInv c s) {fault : Fault} (hfault : ¬ fault.OfSearch) :
    IndexInv c (s.settle (.error fault)) := by
  refine ⟨h.inv.settle_error fault, h.agree, ?_⟩
  intro fault' hmem
  simp only [Pool.settle, Option.mem_some_iff] at hmem
  exact hmem ▸ hfault

theorem get_indexInv {size : Nat} {objP : Option Nat} (it : IterOrder Nat) (h : IndexInv c s)
    (hsize : size + c.sysPageSize ≤ 2 ^ 32) (hobjP : AllocOk c s (requestKey c size) objP)
    (hsafe : ∀ n, requestKey c size = .bulk n → ¬ s.bulk.Risky n) :
    IndexInv c (s.settle ((s.get c size objP it).map Prod.snd)) := by
  by_cases hbulk : size ≤ bulkObjThreshold
  · obtain ⟨r, hget, -, hok⟩ := get_slot it h.inv hbulk hobjP
    rw [hget]
    exact ⟨hok.inv, hok.bulk_eq ▸ h.agree, hok.fault_eq ▸ h.no_fault⟩
  · obtain ⟨n, hkey, hvalid, hgot⟩ := get_bulkGot h.inv.handles h.agree.paired.ptrSlots
      (lt_of_not_ge hbulk) hsize objP it
    have hnotRisky := hsafe n hkey
    rw [hkey] at hobjP
    generalize s.get c size objP it = r at hgot ⊢
    cases hgot with
    | fault fits search risky => exact absurd (risky h.agree) hnotRisky
    | forgot forgot risky wrapped => exact absurd risky hnotRisky
    | @reused f b' _ _ fits served safe wrapped =>
      have hagree : b'.Agree :=
        h.agree.served served (by have := h.inv.total_lt f.slotIdx; omega)
      exact ⟨served_inv h.inv served wrapped, wrapped.bulk_eq ▸ hagree,
        wrapped.fault_eq ▸ h.no_fault⟩
    | failed noFit alloc upd =>
      exact ⟨failed_inv h.inv noFit.1 upd, h.agree.updated upd .absent, h.no_fault⟩
    | @expanded p b₁ b' f _ _ noFit alloc upd slot served wrapped =>
      subst alloc
      have hinv := expanded_inv h.inv noFit.1 hvalid hobjP upd
      have hagree₁ : b₁.Agree := by
        refine h.agree.updated upd (.present (by simp) ?_ ?_)
        · exact noEmpty_single (c.carver.split_ne_nil _ _ hvalid)
        · rw [total_insert_fresh (by simp [listAt])]
          simp [total, Config.carver, splitMemPage]
      have hagree : b'.Agree :=
        hagree₁.served served
          (by have := hinv.total_lt f.slotIdx; exact lt_trans this (by norm_num))
      exact ⟨served_inv hinv served wrapped, wrapped.bulk_eq ▸ hagree,
        wrapped.fault_eq ▸ h.no_fault⟩

theorem put_indexInv {h : Nat} (it : IterOrder Nat) (hs : IndexInv c s) (hmem : h ∈ s.out) :
    IndexInv c (s.settle (s.put c h it)) := by
  by_cases hk : ((s.objects h).key c).IsSlot
  · obtain ⟨s', hput, hok, hbulk, -⟩ := put_slot it hs.inv hmem hk
    rw [hput]
    exact ⟨hok.inv, hbulk ▸ hs.agree, hok.fault_eq ▸ hs.no_fault⟩
  · obtain ⟨n, hkey⟩ := exists_bulk_key hk
    by_cases hle : c.slotSize (.bulk n) ≤ availableReserveBulkObjMaxSize
    · obtain ⟨b', freed, s', -, hgiven, hput, hok, hbulk, -⟩ := put_resident hs.inv hmem hkey hle
        (fun _ e hentry => (hs.agree.entry hentry).2.2.2) it
      rw [hput]
      exact ⟨hok.inv, hbulk ▸ hs.agree.given hgiven (hs.inv.total_lt n),
        hok.fault_eq ▸ hs.no_fault⟩
    · rcases put_dropped hs.inv hmem hkey (lt_of_not_ge hle) it with
        ⟨-, hput⟩ | ⟨set, s', -, hput, hok, hupd, -⟩
      · rw [hput]
        exact hs.settle_error (by simp [Fault.OfSearch])
      · rw [hput]
        exact ⟨hok.inv, hs.agree.updated hupd (hs.agree n), hok.fault_eq ▸ hs.no_fault⟩

theorem step_indexInv (h : IndexInv c s) (hsized : a.Sized c) (hsafe : NotRisky c s a)
    (hstep : step c s a = some s') : IndexInv c s' := by
  cases a with
  | get size objP it =>
    obtain ⟨-, hobjP, rfl⟩ := step_get hstep
    exact get_indexInv it h hsized hobjP hsafe
  | put h' it =>
    obtain ⟨-, hmem, rfl⟩ := step_put hstep
    exact put_indexInv it h hmem
  | recycle h' =>
    obtain ⟨-, hmem, rfl⟩ := step_recycle hstep
    exact ⟨recycle_inv h.inv hmem, h.agree, h.no_fault⟩

/-- A step that takes the risk breaks the agreement or faults. -/
theorem step_risky (h : IndexInv c s) (hsized : a.Sized c) (hrisky : ¬ NotRisky c s a)
    (hstep : step c s a = some s') : ¬ IndexesAgree c s' := by
  cases a with
  | get size objP it =>
    obtain ⟨-, hobjP, rfl⟩ := step_get hstep
    simp only [NotRisky, not_forall, not_not] at hrisky
    obtain ⟨m, hkey, hrisky⟩ := hrisky
    obtain ⟨n, hkey', hvalid, hgot⟩ :=
      get_bulkGot h.inv.handles h.agree.paired.ptrSlots (bulk_of_requestKey hkey) hsized objP it
    obtain rfl : m = n := by simpa using hkey.symm.trans hkey'
    intro hagree
    generalize s.get c size objP it = r at hgot hagree
    cases hgot with
    | fault fits search risky => exact hagree.no_fault _ rfl search
    | @forgot _ _ _ t forgot risky wrapped =>
      have hagree' : t.bulk.Agree := hagree.agree
      rw [wrapped.bulk_eq] at hagree'
      exact forgot.not_agree hagree'
    | reused fits served safe wrapped => exact safe h.agree hrisky
    | failed noFit | expanded noFit => exact noFit.not_risky hrisky
  | put | recycle => exact absurd trivial hrisky

/-- In every run from a fresh pool, for every page size, the two indexes of the bulk
slots agree and no free object is lost exactly when no request is served with the
last object of a slot larger than its own. -/
theorem indexes_agree_iff (c : Config) (garbage : Nat) (labels : List Label) (t : Pool)
    (hsized : ∀ a ∈ labels, a.Sized c)
    (hrun : Runs.run (step c) (Pool.init c garbage) labels = some t) :
    Runs.Always (step c) (IndexesAgree c) (Pool.init c garbage) labels ↔
      Runs.Guarded (step c) (NotRisky c) (Pool.init c garbage) labels :=
  Runs.always_iff_guarded (I := IndexInv c)
    (fun _ _ _ hs ha hsafe hstep => step_indexInv hs ha hsafe hstep)
    (fun _ hs => hs.indexesAgree)
    (fun _ _ _ hs ha hrisky hstep => step_risky hs ha hrisky hstep)
    (init_indexInv c garbage) hsized hrun

/-- Bulk objects of 50 and of 74 pages are taken and put back, and the first of them is taken
once more while the other slot is free. -/
theorem indexes_agree_iff_reuse :
    let labels : List Label :=
      [.get 204800 (some 65536) .listed, .get 303104 (some 2097152) .listed, .put 0 .listed,
        .recycle 0, .put 1 .listed, .recycle 1, .get 204800 none .listed]
    (Runs.run (step Config.default) (Pool.init Config.default 0) labels).isSome = true ∧
      Runs.Always (step Config.default) (IndexesAgree Config.default)
        (Pool.init Config.default 0) labels := by
  intro labels
  have hsome : (Runs.run (step Config.default) (Pool.init Config.default 0) labels).isSome =
      true := by decide +kernel
  exact ⟨hsome, (indexes_agree_iff Config.default 0 labels _ (by decide)
    (Option.some_get hsome).symm).2 (by decide +kernel)⟩

/-- Objects of 50 pages are free, and one object of 74 pages is left when 60 pages are
asked for: its ordered entry goes, together with the hash entry of the free objects of
50 pages. -/
theorem indexes_disagree :
    ∃ labels t, (∀ a ∈ labels, a.Sized Config.default) ∧
      Runs.run (step Config.default) (Pool.init Config.default 0) labels = some t ∧
      t.fault = none ∧ t.bulk.hash.lookup 50 = none ∧
      t.bulk.ordered.find? 50 = some ⟨50, 0⟩ ∧ ¬ IndexesAgree Config.default t := by
  let labels : List Label := [.get 204800 (some 65536) .listed, .get 303104 (some 2097152) .listed,
    .get 303104 none .listed, .get 303104 none .listed, .get 245760 none .listed]
  have hview : (Runs.run (step Config.default) (Pool.init Config.default 0) labels).map
      (fun t => (t.fault, (t.bulk.hash.lookup 50).isSome, t.bulk.ordered.find? 50)) =
        some (none, false, some ⟨50, 0⟩) := by
    decide +kernel
  obtain ⟨t, ht, hview⟩ := Option.map_eq_some_iff.mp hview
  simp only [Prod.mk.injEq, Option.isSome_eq_false_iff, Option.isNone_iff_eq_none] at hview
  obtain ⟨hfault, hhash, hordered⟩ := hview
  refine ⟨labels, t, ?_, ht, hfault, hhash, hordered, ?_⟩
  · decide
  · intro hagree
    have hat := hagree.agree 50
    rw [hhash, hordered] at hat
    cases hat

end Runs

end MemPool
end CCraft
