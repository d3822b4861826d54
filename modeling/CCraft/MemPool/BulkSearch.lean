import CCraft.MemPool.Bulk

/-!
# The choice of a bulk slot

`get_suitable_bulk_page` looks for a free object of at least the requested number of pages and
of at most twice as many.  It takes the slot itself when it has a free object, then the smallest
slot when all are larger, and otherwise the largest one in the range.

Main results:

- Theorem {lit}`search_ok_iff`: when the search reads only what is there.
- Theorem {lit}`findsFit_iff`: over a well-formed pair of indexes it reports what it is meant to
  find, and returns exactly when it does not take the last object of the smallest slot for a
  smaller request.
-/

namespace CCraft
namespace MemPool

open PageMap Fallible

namespace Bulk

/-! ## What a request is to be given -/

/-- The object at an address is free in a slot, under a page. -/
def FreeAt (b : Bulk) (slot page obj : Nat) : Prop :=
  ∃ e, b.hash.lookup slot = some e ∧ obj ∈ listAt e.page.objs page

/-- The slot has a free object. -/
def HasFree (b : Bulk) (slot : Nat) : Prop :=
  ∃ page obj, b.FreeAt slot page obj

/-- What a request for a slot is to be given: an object exactly when a slot in the range has a
free one.  It comes from the requested slot when that has a free object, in any case from a slot
in the range, and it is a free object of that slot, on the page that is reported with it. -/
structure Fits (b : Bulk) (n : Nat) (found : Option Suitable) : Prop where
  isSome_iff : found.isSome = true ↔ ∃ s, b.HasFree s ∧ n ≤ s ∧ s ≤ n * 2
  own : ∀ f ∈ found, b.HasFree n → f.slotIdx = n
  range : ∀ f ∈ found, n ≤ f.slotIdx ∧ f.slotIdx ≤ n * 2
  free : ∀ f ∈ found, b.FreeAt f.slotIdx f.pagePv f.objPv

/-- The search returns, with what the request is to be given. -/
def FindsFit (b : Bulk) (it : IterOrder Nat) (n : Nat) : Prop :=
  ∃ found b', b.getSuitableBulkPage it n = .ok (found, b') ∧ b.Fits n found

/-- The values that `get_suitable_bulk_page` gives to its out-parameters, all of them before it
erases anything. -/
def suitable (it : IterOrder Nat) (needSlotIdx : Nat) (b : Bulk) :
    Except Fault (Option Suitable) :=
  match b.hash.lookup needSlotIdx with
  | some e => do
    let (pagePv, objPv, _) ← takeFirst it e.page.objs
    .ok (some ⟨needSlotIdx, objPv, pagePv⟩)
  | none =>
    match b.larger? needSlotIdx with
    | some (s, ptr) => do
      let e ← b.deref ptr
      let (pagePv, objPv, _) ← takeFirst it e.page.objs
      .ok (some ⟨s, objPv, pagePv⟩)
    | none => .ok none

/-- The search reads nothing that is not there.  The hash entry of the requested slot has a
page; without such an entry, the pointer to the larger slot that is taken leads to the hash entry
of that slot, which has a page, and the smallest slot is not taken for its last object. -/
def SearchSafe (b : Bulk) (n : Nat) : Prop :=
  match b.hash.lookup n with
  | some e => e.page.objs.keys ≠ []
  | none => ∀ found ∈ b.larger? n, ∃ e ∈ b.hash.lookup found.1, e.stamp = found.2.stamp ∧
      e.page.objs.keys ≠ [] ∧ (b.ordered.first? = some found → total e.page.objs ≠ 1)

/-- The requested slot has no free object, and the smallest slot, which is in the range, has a
single one. -/
def LastOfSmallest (b : Bulk) (n : Nat) : Prop :=
  ¬ b.HasFree n ∧ ∃ s ptr, b.ordered.first? = some (s, ptr) ∧ n < s ∧ s ≤ n * 2 ∧
    total (objsAt b.hash s) = 1

instance (b : Bulk) (n : Nat) : Decidable (b.SearchSafe n) :=
  match h : b.hash.lookup n with
  | some e => decidable_of_iff (e.page.objs.keys ≠ []) (by simp only [SearchSafe, h])
  | none => decidable_of_iff (∀ found ∈ b.larger? n, ∃ e ∈ b.hash.lookup found.1,
      e.stamp = found.2.stamp ∧ e.page.objs.keys ≠ [] ∧
        (b.ordered.first? = some found → total e.page.objs ≠ 1)) (by simp only [SearchSafe, h])

variable {b b' : Bulk} {n slot : Nat} {e : HashEntry} {ptr : EntryPtr} {it : IterOrder Nat}

/-- The first object of a slot is one of its free objects. -/
theorem freeAt_of_popFront {p x : Nat} {objs : PageMap Nat Nat}
    (hentry : b.hash.lookup n = some e) (hpop : popFront e.page.objs p = some (x, objs)) :
    b.FreeAt n p x := by
  refine ⟨e, hentry, ?_⟩
  rw [(listAt_popFront hpop).1]
  exact List.mem_cons_self

/-- A slot has a free object exactly when it is in the indexes. -/
theorem Paired.hasFree_iff (h : Paired b) : b.HasFree n ↔ ∃ e, b.hash.lookup n = some e := by
  constructor
  · rintro ⟨p, x, e, hentry, -⟩
    exact ⟨e, hentry⟩
  · rintro ⟨e, hentry⟩
    obtain ⟨-, hkeys, hne⟩ := h.entry hentry
    obtain ⟨p, x, objs, -, hpop, -⟩ := exists_takeFirst .listed hne hkeys
    exact ⟨p, x, freeAt_of_popFront hentry hpop⟩

/-- When nothing fits, no slot from the requested one to its double has a free object. -/
theorem Paired.not_hasFree_of_noFit (h : Paired b) (hnoFit : NoFit b n) {s : Nat}
    (hs : b.HasFree s) : ¬ (n ≤ s ∧ s ≤ n * 2) := by
  rintro ⟨hle, hle'⟩
  obtain ⟨e, hentry⟩ := h.hasFree_iff.1 hs
  have hne : s ≠ n := by
    rintro rfl
    rw [hnoFit.1] at hentry
    cases hentry
  exact hnoFit.2 s _ (h.entry hentry).1 ⟨by omega, hle'⟩

/-! ## The outcomes of the search -/

/-- A slot without empty pages gives an object exactly when it has a page. -/
theorem takeFirst_ok_iff (it : IterOrder Nat) {objs : PageMap Nat Nat} (hne : NoEmpty objs) :
    (∃ r, takeFirst it objs = .ok r) ↔ objs.keys ≠ [] := by
  constructor
  · rintro ⟨r, hr⟩ hkeys
    have hnil : it.order objs.keys = [] := by
      rw [hkeys]
      exact List.perm_nil.1 (it.perm [])
    simp only [takeFirst, hnil] at hr
    cases hr
  · intro hkeys
    obtain ⟨p, x, objs', htake, -⟩ := exists_takeFirst it hne hkeys
    exact ⟨_, htake⟩

/-- The larger slot that is taken is the smallest one, or a slot that is not larger comes
before it. -/
theorem larger?_first_iff (h : b.larger? n = some (slot, ptr)) :
    (∀ e ∈ b.ordered.first?, n < e.1) ↔ b.ordered.first? = some (slot, ptr) := by
  constructor
  · intro hfirst
    unfold larger? at h
    cases hhead : b.ordered.first? with
    | none => simp [hhead] at h
    | some head =>
      have hgt : head.1 > n := hfirst head (by rw [hhead]; rfl)
      simp only [hhead, hgt, if_true] at h
      split_ifs at h
      exact h
  · intro hfirst e he
    rw [hfirst] at he
    cases he
    exact (larger?_spec h).2.1

/-- An object that is taken of a larger slot, which is not the last one of the smallest slot. -/
theorem takeLarger_eq_ok {smallest : Prop} [Decidable smallest] {r : Suitable × Bulk}
    (h : (if smallest then b.takeSmallest it slot ptr else b.takeScanned it slot ptr) = .ok r) :
    ∃ e p x objs, b.deref ptr = .ok e ∧ takeFirst it e.page.objs = .ok (p, x, objs) ∧
      r.1 = ⟨slot, x, p⟩ ∧ (smallest → objs.keys ≠ []) := by
  split_ifs at h with hsmallest
  · obtain ⟨e, p, x, objs, hderef, hfirst, hk⟩ := found_eq_ok h
    simp only at hk
    split_ifs at hk with hrest
    cases hk
    exact ⟨e, p, x, objs, hderef, hfirst, rfl, fun _ => hrest⟩
  · obtain ⟨e, p, x, objs, hderef, hfirst, hk⟩ := found_eq_ok h
    refine ⟨e, p, x, objs, hderef, hfirst, ?_, fun h => absurd h hsmallest⟩
    simp only at hk
    split_ifs at hk
    · split at hk <;> cases hk
      rfl
    · cases hk
      rfl

/-- What a search that returns reports is what it gave to its out-parameters. -/
theorem suitable_of_search {found : Option Suitable}
    (h : b.getSuitableBulkPage it n = .ok (found, b')) : b.suitable it n = .ok found := by
  cases hentry : b.hash.lookup n with
  | some e =>
    simp only [getSuitableBulkPage, hentry, takeExact] at h
    obtain ⟨⟨f, b₁⟩, htake, hr⟩ := bind_eq_ok.1 h
    obtain ⟨⟨p, x, objs⟩, hfirst, htake⟩ := bind_eq_ok.1 htake
    simp only [suitable, hentry, hfirst, ok_bind]
    simp only at htake
    split_ifs at htake <;> cases htake <;> cases hr <;> rfl
  | none =>
    rw [getSuitableBulkPage_eq hentry] at h
    cases hlarger : b.larger? n with
    | none =>
      rw [hlarger] at h
      cases h
      simp only [suitable, hentry, hlarger]
    | some larger =>
      obtain ⟨slot, ptr⟩ := larger
      rw [hlarger] at h
      obtain ⟨⟨f, b₁⟩, htake, hr⟩ := bind_eq_ok.1 h
      cases hr
      obtain ⟨e, p, x, objs, hderef, hfirst, rfl, -⟩ := takeLarger_eq_ok htake
      simp only [suitable, hentry, hlarger, hderef, hfirst, ok_bind]

/-- Taking an object of a larger slot returns exactly when its entry is there and has a page, and
it is not the last object of the smallest slot. -/
theorem takeLarger_ok_iff (it : IterOrder Nat) (hptr : PtrSlots b)
    (hne : ∀ m, NoEmpty (objsAt b.hash m)) (hlarger : b.larger? n = some (slot, ptr)) :
    (∃ r, (if b.ordered.first? = some (slot, ptr) then b.takeSmallest it slot ptr
        else b.takeScanned it slot ptr) = .ok r) ↔
      ∃ e ∈ b.hash.lookup slot, e.stamp = ptr.stamp ∧ e.page.objs.keys ≠ [] ∧
        (b.ordered.first? = some (slot, ptr) → total e.page.objs ≠ 1) := by
  obtain ⟨hfind, hlt, -⟩ := larger?_spec hlarger
  have hslot : ptr.slot = slot := hptr slot ptr hfind
  have hpages : ∀ {e}, b.hash.lookup slot = some e → NoEmpty e.page.objs := by
    intro e hentry
    have hat := hne slot
    simp only [objsAt, hentry] at hat
    exact hat
  constructor
  · rintro ⟨r, hr⟩
    obtain ⟨e, p, x, objs, hderef, hfirst, -, hlast⟩ := takeLarger_eq_ok hr
    obtain ⟨hentry, hstamp⟩ := deref_eq_ok.1 hderef
    rw [hslot] at hentry
    have hkeys := (takeFirst_ok_iff it (hpages hentry)).1 ⟨_, hfirst⟩
    obtain ⟨p', x', objs', hfirst', -, hone⟩ := exists_takeFirst it (hpages hentry) hkeys
    rw [hfirst] at hfirst'
    cases hfirst'
    exact ⟨e, hentry, hstamp, hkeys, fun hsmallest htotal => hlast hsmallest (hone.2 htotal)⟩
  · rintro ⟨e, hentry, hstamp, hkeys, hlast⟩
    have hderef : b.deref ptr = .ok e := deref_eq_ok.2 ⟨hslot.symm ▸ hentry, hstamp⟩
    obtain ⟨p, x, objs, hfirst, -, hone⟩ := exists_takeFirst it (hpages hentry) hkeys
    split_ifs with hsmallest
    · have hrest : objs.keys ≠ [] := fun h => hlast hsmallest (hone.1 h)
      simp only [takeSmallest, hderef, hfirst, ok_bind, hrest, if_false]
      exact ⟨_, rfl⟩
    · -- a slot that is not larger than the request comes before the one that is taken
      have hnot := mt (larger?_first_iff hlarger).1 hsmallest
      simp only [not_forall] at hnot
      obtain ⟨⟨s, q⟩, hmem, hs⟩ := hnot
      simp only [takeScanned, hderef, hfirst, ok_bind]
      split_ifs
      · cases hbelow : b.ordered.below? slot with
        | some below => exact ⟨_, rfl⟩
        | none =>
          have hless := OrderedMap.findLast?_eq_none hbelow s q (OrderedMap.first?_spec hmem).1
          simp only [decide_eq_false_iff_not] at hless
          simp only at hs
          omega
      · exact ⟨_, rfl⟩

/-- The search returns exactly when it reads only what is there. -/
theorem search_ok_iff (hptr : PtrSlots b) (hne : ∀ m, NoEmpty (objsAt b.hash m))
    (it : IterOrder Nat) (n : Nat) :
    (∃ r, b.getSuitableBulkPage it n = .ok r) ↔ b.SearchSafe n := by
  cases hentry : b.hash.lookup n with
  | some e =>
    have hpages := hne n
    simp only [objsAt, hentry] at hpages
    simp only [SearchSafe, hentry, ← takeFirst_ok_iff it hpages, getSuitableBulkPage,
      takeExact]
    constructor
    · rintro ⟨r, hr⟩
      obtain ⟨f, htake, -⟩ := bind_eq_ok.1 hr
      obtain ⟨first, hfirst, -⟩ := bind_eq_ok.1 htake
      exact ⟨first, hfirst⟩
    · rintro ⟨⟨p, x, objs⟩, hfirst⟩
      simp only [hfirst, ok_bind]
      split_ifs <;> exact ⟨_, rfl⟩
  | none =>
    rw [getSuitableBulkPage_eq hentry]
    cases hlarger : b.larger? n with
    | none => simp [SearchSafe, hentry, hlarger]
    | some larger =>
      obtain ⟨slot, ptr⟩ := larger
      simp only [SearchSafe, hentry, hlarger, Option.mem_some_iff, forall_eq',
        larger?_first_iff hlarger, ← takeLarger_ok_iff it hptr hne hlarger]
      constructor
      · rintro ⟨r, hr⟩
        obtain ⟨f, htake, -⟩ := bind_eq_ok.1 hr
        exact ⟨f, htake⟩
      · rintro ⟨f, htake⟩
        rw [htake]
        exact ⟨_, rfl⟩

/-- A request that nothing fits is searched for safely. -/
theorem NoFit.searchSafe (h : NoFit b n) : b.SearchSafe n := by
  simp [SearchSafe, h.1, h.larger?]

/-! ## Over a well-formed pair of indexes -/

theorem Paired.noEmpty (h : Paired b) (n : Nat) : NoEmpty (objsAt b.hash n) := by
  unfold objsAt
  cases hentry : b.hash.lookup n with
  | none =>
    intro p l hl
    simp at hl
  | some e => exact (h.entry hentry).2.2

/-- The out-parameters are right in any case. -/
theorem Paired.suitable_fits (h : Paired b) (it : IterOrder Nat) (n : Nat) :
    ∃ found, b.suitable it n = .ok found ∧ b.Fits n found := by
  cases hentry : b.hash.lookup n with
  | some e =>
    obtain ⟨-, hkeys, hne⟩ := h.entry hentry
    obtain ⟨p, x, objs, htake, hpop, -⟩ := exists_takeFirst it hne hkeys
    have hfree := freeAt_of_popFront hentry hpop
    refine ⟨some ⟨n, x, p⟩, by simp only [suitable, hentry, htake, ok_bind], ?_, ?_, ?_, ?_⟩
    · exact iff_of_true rfl ⟨n, ⟨p, x, hfree⟩, le_rfl, by omega⟩
    · rintro _ ⟨⟩ _
      rfl
    · rintro _ ⟨⟩
      exact ⟨le_rfl, by show n ≤ n * 2; omega⟩
    · rintro _ ⟨⟩
      exact hfree
  | none =>
    cases hlarger : b.larger? n with
    | none =>
      refine ⟨none, by simp only [suitable, hentry, hlarger], ?_, by simp, by simp, by simp⟩
      refine iff_of_false (by simp) ?_
      rintro ⟨s, hs, hrange⟩
      exact h.not_hasFree_of_noFit ⟨hentry, larger?_eq_none hlarger⟩ hs hrange
    | some larger =>
      obtain ⟨slot, ptr⟩ := larger
      obtain ⟨hfind, hlt, hle⟩ := larger?_spec hlarger
      obtain ⟨e, hslot, hderef⟩ := h.deref hfind
      obtain ⟨-, hkeys, hne⟩ := h.entry hslot
      obtain ⟨p, x, objs, htake, hpop, -⟩ := exists_takeFirst it hne hkeys
      have hfree := freeAt_of_popFront hslot hpop
      refine ⟨some ⟨slot, x, p⟩, by simp only [suitable, hentry, hlarger, hderef, htake, ok_bind],
        ?_, ?_, ?_, ?_⟩
      · exact iff_of_true rfl ⟨slot, ⟨p, x, hfree⟩, hlt.le, hle⟩
      · rintro _ ⟨⟩ hown
        obtain ⟨e', hentry'⟩ := h.hasFree_iff.1 hown
        rw [hentry] at hentry'
        cases hentry'
      · rintro _ ⟨⟩
        exact ⟨hlt.le, hle⟩
      · rintro _ ⟨⟩
        exact hfree

/-- Only the last object of the smallest slot is in the way of the search. -/
theorem Paired.searchSafe_iff (h : Paired b) (n : Nat) :
    b.SearchSafe n ↔ ¬ b.LastOfSmallest n := by
  cases hentry : b.hash.lookup n with
  | some e =>
    refine iff_of_true ?_ fun hlast => hlast.1 (h.hasFree_iff.2 ⟨e, hentry⟩)
    simp only [SearchSafe, hentry]
    exact (h.entry hentry).2.1
  | none =>
    have habsent : ¬ b.HasFree n := by
      rw [h.hasFree_iff, hentry]
      simp
    simp only [SearchSafe, hentry]
    constructor
    · rintro hsafe ⟨-, s, ptr, hfirst, hlt, hle, hone⟩
      have hlarger : b.larger? n = some (s, ptr) := by
        simp only [larger?, hfirst]
        rw [if_pos hlt, if_neg (by omega)]
      obtain ⟨e, he, -, -, hlast⟩ := hsafe _ hlarger
      rw [Option.mem_def] at he
      simp only [objsAt, he] at hone
      exact hlast hfirst hone
    · intro hnot found hfound
      obtain ⟨hfind, hlt, hle⟩ := larger?_spec hfound
      obtain ⟨e, he, hderef⟩ := h.deref hfind
      refine ⟨e, he, (deref_eq_ok.1 hderef).2, (h.entry he).2.1, ?_⟩
      intro hfirst hone
      refine hnot ⟨habsent, found.1, found.2, hfirst, hlt, hle, ?_⟩
      simp only [objsAt, he, hone]

/-- Over every well-formed pair of indexes, with every iteration order and for every requested
slot, the out-parameters are what the request is to be given; the search returns with them exactly
when it would not take the last object of the smallest slot for a smaller request, where it reads
the erased entry of that slot. -/
theorem findsFit_iff (b : Bulk) (it : IterOrder Nat) (n : Nat) (hpaired : Paired b) :
    (∃ found, b.suitable it n = .ok found ∧ b.Fits n found) ∧
      (FindsFit b it n ↔ ¬ b.LastOfSmallest n) := by
  obtain ⟨found, hsuitable, hfits⟩ := hpaired.suitable_fits it n
  refine ⟨⟨found, hsuitable, hfits⟩, ?_⟩
  rw [← hpaired.searchSafe_iff, ← search_ok_iff hpaired.ptrSlots hpaired.noEmpty it]
  constructor
  · rintro ⟨found', b', hsearch, -⟩
    exact ⟨_, hsearch⟩
  · rintro ⟨⟨found', b'⟩, hsearch⟩
    obtain rfl : found = found' :=
      Except.ok.inj (hsuitable.symm.trans (suitable_of_search hsearch))
    exact ⟨found, b', hsearch, hfits⟩

/-- Indexes with a single slot. -/
def single (slot : Nat) (objs : PageMap Nat Nat) : Bulk :=
  ⟨∅, AList.insert slot ⟨0, ⟨objs, total objs⟩⟩ ∅, OrderedMap.empty.insert slot ⟨slot, 0⟩, 1⟩

theorem single_paired (slot : Nat) {objs : PageMap Nat Nat} (hkeys : objs.keys ≠ [])
    (hne : NoEmpty objs) : Paired (single slot objs) := by
  intro n
  simp only [single, lookup_insert_eq, OrderedMap.find?_insert]
  split_ifs with hn
  · rw [hn]
    exact .present hkeys hne
  · exact .absent

/-- A request for five pages with two free objects of six pages. -/
theorem findsFit_iff_two_objects :
    Paired (single 6 ((∅ : PageMap Nat Nat).insert 4096 [4096, 28672])) ∧
      FindsFit (single 6 ((∅ : PageMap Nat Nat).insert 4096 [4096, 28672])) .listed 5 := by
  have hpaired := single_paired 6 (by simp)
    (noEmpty_single (p := 4096) (List.cons_ne_nil 4096 [28672]))
  refine ⟨hpaired, (findsFit_iff _ .listed 5 hpaired).2.2 ?_⟩
  rintro ⟨-, s, ptr, hfirst, -, -, hone⟩
  cases hfirst
  revert hone
  decide +kernel

/-- A request for five pages with one free object of six pages: slot, object and page are
reported, and then the key of the erased entry is read. -/
theorem last_of_smallest_lost :
    ∃ b, Paired b ∧ (∃ s, b.HasFree s ∧ 5 ≤ s ∧ s ≤ 5 * 2) ∧
      b.suitable .listed 5 = .ok (some ⟨6, 4096, 4096⟩) ∧
      b.getSuitableBulkPage .listed 5 = .error .erasedIterator := by
  have hpaired := single_paired 6 (by simp)
    (noEmpty_single (p := 4096) (List.cons_ne_nil 4096 []))
  refine ⟨_, hpaired, ⟨6, ⟨4096, 4096, _, rfl, ?_⟩, by omega, by omega⟩, rfl, rfl⟩
  decide +kernel

end Bulk

end MemPool
end CCraft
