import CCraft.MemPool.Slots

/-!
# Bulk objects

What the operations on bulk slots do to the page sets, to the hash index and to
the ordered index.  All of them replace the entries of one slot, with one
exception: the last object of a slot that is found on the way down from the
largest slot takes the hash entry of another slot with it.

Main results:

- Theorem {lit}`search_found`: the outcomes of `get_suitable_bulk_page`.
- Theorem {lit}`findBulk_outcome`: the outcomes of the search together with the
  expansion.
- Theorem {lit}`residentBulk_given`: the outcomes of `put`.
-/

namespace CCraft
namespace MemPool

open Slab PageMap Fallible

namespace Bulk

/-! ## Updates of one slot -/

/-- `b'` is `b` with the page set, the hash entry and the ordered entry of one slot
replaced. -/
structure Updated (b : Bulk) (n : Nat) (set : Option (Finset Nat)) (entry : Option HashEntry)
    (ptr : Option EntryPtr) (b' : Bulk) : Prop where
  pages : ∀ m, b'.pages.lookup m = if m = n then set else b.pages.lookup m
  hash : ∀ m, b'.hash.lookup m = if m = n then entry else b.hash.lookup m
  ordered : ∀ m, b'.ordered.find? m = if m = n then ptr else b.ordered.find? m

/-- A hash entry with its counter decreased. -/
def decreased (stamp : Nat) (objs : PageMap Nat Nat) (cnt : Nat) : HashEntry :=
  ⟨stamp, ⟨objs, u32 (cnt + (2 ^ 32 - 1))⟩⟩

/-- The object that was found is the first one of its page; the remaining objects of its
slot are `objs`. -/
structure Popped (b : Bulk) (f : Suitable) (e : HashEntry) (objs : PageMap Nat Nat) :
    Prop where
  entry : b.hash.lookup f.slotIdx = some e
  pop : popFront e.page.objs f.pagePv = some (f.objPv, objs)

/-- An object was taken and its slot has more. -/
inductive Kept (b : Bulk) (f : Suitable) (b' : Bulk) : Prop
  | mk {e : HashEntry} {objs : PageMap Nat Nat} (popped : Popped b f e objs)
      (rest : objs.keys ≠ [])
      (upd : Updated b f.slotIdx (b.pages.lookup f.slotIdx)
        (some (decreased e.stamp objs e.page.cnt)) (b.ordered.find? f.slotIdx) b')

/-- An object was taken; a slot goes with its last object. -/
inductive Served (b : Bulk) (f : Suitable) (b' : Bulk) : Prop
  | kept (kept : Kept b f b')
  | last {e : HashEntry} {objs : PageMap Nat Nat} (popped : Popped b f e objs)
      (rest : objs.keys = [])
      (upd : Updated b f.slotIdx (b.pages.lookup f.slotIdx) none none b')

/-- The last object of a slot was taken, and the hash entry that went is the one of a
smaller slot. -/
inductive Forgot (b : Bulk) (f : Suitable) (b' : Bulk) : Prop
  | mk {e : HashEntry} {objs : PageMap Nat Nat} {below : Nat} (popped : Popped b f e objs)
      (rest : objs.keys = []) (lt : below < f.slotIdx)
      (pages : b'.pages = b.pages)
      (hash : ∀ m, b'.hash.lookup m = if m = below then none
        else if m = f.slotIdx then some (decreased e.stamp objs e.page.cnt)
        else b.hash.lookup m)
      (ordered : ∀ m, b'.ordered.find? m = if m = f.slotIdx then none else b.ordered.find? m)

/-- The two indexes agree on a slot: both have no entry for it, or the ordered entry
refers to the hash entry, which has a page, no page without objects, and the right
counter. -/
inductive AgreeAt (n : Nat) : Option HashEntry → Option EntryPtr → Prop
  | absent : AgreeAt n none none
  | present {e : HashEntry} (page : e.page.objs.keys ≠ []) (lists : NoEmpty e.page.objs)
      (cnt : e.page.cnt = total e.page.objs) : AgreeAt n (some e) (some ⟨n, e.stamp⟩)

/-- The two tables agree on every slot. -/
def Agree (b : Bulk) : Prop :=
  ∀ n, AgreeAt n (b.hash.lookup n) (b.ordered.find? n)

/-- The two indexes have no entry for a slot, or a hash entry with free objects, no page
without objects, and a pointer to that entry. -/
inductive PairedAt (n : Nat) : Option HashEntry → Option EntryPtr → Prop
  | absent : PairedAt n none none
  | present {e : HashEntry} (page : e.page.objs.keys ≠ []) (lists : NoEmpty e.page.objs) :
      PairedAt n (some e) (some ⟨n, e.stamp⟩)

/-- A well-formed pair of indexes: the same keys, no empty slot and no empty page. -/
def Paired (b : Bulk) : Prop :=
  ∀ n, PairedAt n (b.hash.lookup n) (b.ordered.find? n)

variable {b b' : Bulk} {n slot : Nat} {e : HashEntry} {ptr : EntryPtr} {f : Suitable}
  {it : IterOrder Nat} {objs : PageMap Nat Nat}

/-- Counting an object out touches the entry of its slot only. -/
theorem decreaseCnt_lookup (b : Bulk) (n m : Nat) :
    (Pool.decreaseCnt b n).hash.lookup m =
      if m = n then (b.hash.lookup n).map fun e => decreased e.stamp e.page.objs e.page.cnt
      else b.hash.lookup m := by
  unfold Pool.decreaseCnt
  cases h : b.hash.lookup n with
  | none =>
    split_ifs with hm
    · rw [hm, h, Option.map_none]
    · rfl
  | some e =>
    rw [lookup_insert_eq]
    rfl

@[simp]
theorem decreaseCnt_pages (b : Bulk) (n : Nat) : (Pool.decreaseCnt b n).pages = b.pages := by
  unfold Pool.decreaseCnt
  split <;> rfl

@[simp]
theorem decreaseCnt_ordered (b : Bulk) (n : Nat) :
    (Pool.decreaseCnt b n).ordered = b.ordered := by
  unfold Pool.decreaseCnt
  split <;> rfl

/-! ## Taking an object -/

theorem takeFirst_eq_ok {p x : Nat} {objs' : PageMap Nat Nat}
    (h : takeFirst it objs = .ok (p, x, objs')) : popFront objs p = some (x, objs') := by
  unfold takeFirst at h
  split at h
  · cases h
  · split at h
    · rename_i heq
      cases h
      exact heq
    · cases h

/-- A slot without empty pages gives an object unless it has none. -/
theorem exists_takeFirst (it : IterOrder Nat) (hne : NoEmpty objs) (hkeys : objs.keys ≠ []) :
    ∃ p x objs', takeFirst it objs = .ok (p, x, objs') ∧ popFront objs p = some (x, objs') ∧
      (objs'.keys = [] ↔ total objs = 1) := by
  unfold takeFirst
  cases horder : it.order objs.keys with
  | nil => exact absurd ((horder ▸ it.perm objs.keys).nil_eq).symm hkeys
  | cons p ps =>
    have hmem : p ∈ objs.keys := (it.perm _).mem_iff.mp (by simp [horder])
    obtain ⟨x, objs', hpop⟩ := exists_popFront hne hmem
    refine ⟨p, x, objs', by simp only [hpop], hpop, ?_⟩
    rw [← total_eq_zero (noEmpty_popFront hne hpop), total_popFront hpop]
    omega

/-- A pointer can be followed to the entry it was made for. -/
theorem deref_eq_ok :
    b.deref ptr = .ok e ↔ b.hash.lookup ptr.slot = some e ∧ e.stamp = ptr.stamp := by
  unfold deref
  cases hentry : b.hash.lookup ptr.slot with
  | none => simp
  | some e' =>
    simp only [Option.some.injEq]
    split_ifs with hstamp
    · simp only [Except.ok.injEq]
      constructor
      · rintro rfl
        exact ⟨rfl, hstamp⟩
      · exact And.left
    · refine iff_of_false (by simp) ?_
      rintro ⟨rfl, heq⟩
      exact hstamp heq

/-- A larger slot is served by following its pointer and popping the first object. -/
theorem found_eq_ok {α : Type} {k : HashEntry → Nat × Nat × PageMap Nat Nat → Except Fault α}
    {r : α} (h : (b.deref ptr >>= fun e => takeFirst it e.page.objs >>= k e) = .ok r) :
    ∃ e p x objs, b.deref ptr = .ok e ∧ takeFirst it e.page.objs = .ok (p, x, objs) ∧
      k e (p, x, objs) = .ok r := by
  obtain ⟨e, hderef, h⟩ := bind_eq_ok.mp h
  obtain ⟨⟨p, x, objs⟩, hfirst, h⟩ := bind_eq_ok.mp h
  exact ⟨e, p, x, objs, hderef, hfirst, h⟩

/-- A slot that still has objects keeps its entry, with the rest of them. -/
theorem kept_of_insert {p x : Nat} (hentry : b.hash.lookup n = some e)
    (hpop : popFront e.page.objs p = some (x, objs)) (hrest : objs.keys ≠ []) :
    Kept b ⟨n, x, p⟩ (Pool.decreaseCnt
      { b with hash := b.hash.insert n ⟨e.stamp, ⟨objs, e.page.cnt⟩⟩ } n) := by
  refine ⟨⟨hentry, hpop⟩, hrest, ⟨?_, ?_, ?_⟩⟩
  · simp
  · intro m
    simp only [decreaseCnt_lookup, lookup_insert_eq]
    split_ifs <;> rfl
  · simp

/-- The search in the entry of the size itself. -/
theorem takeExact_spec (hentry : b.hash.lookup n = some e)
    (h : b.takeExact it n e = .ok (f, b')) :
    f.slotIdx = n ∧ Served b f (Pool.decreaseCnt b' f.slotIdx) := by
  unfold takeExact at h
  obtain ⟨⟨p, x, objs⟩, hfirst, h⟩ := bind_eq_ok.mp h
  have hpop := takeFirst_eq_ok hfirst
  simp only at h
  split_ifs at h with hrest
  · cases h
    refine ⟨rfl, .last ⟨hentry, hpop⟩ hrest ⟨?_, ?_, ?_⟩⟩
    · simp
    · intro m
      simp only [decreaseCnt_lookup, lookup_erase_eq]
      split_ifs <;> rfl
    · intro m
      simp only [decreaseCnt_ordered, OrderedMap.find?_erase]
  · cases h
    exact ⟨rfl, .kept (kept_of_insert hentry hpop hrest)⟩

/-- The objects of a slot larger than the requested one, taken through the ordered
index. -/
theorem takeSmallest_spec (hptr : ptr.slot = slot)
    (h : b.takeSmallest it slot ptr = .ok (f, b')) :
    f.slotIdx = slot ∧ Kept b f (Pool.decreaseCnt b' f.slotIdx) := by
  obtain ⟨e, p, x, objs, hderef, hfirst, h⟩ := found_eq_ok h
  have hentry := (deref_eq_ok.1 hderef).1
  have hpop := takeFirst_eq_ok hfirst
  subst hptr
  simp only at h
  split_ifs at h with hrest
  cases h
  exact ⟨rfl, kept_of_insert hentry hpop hrest⟩

/-- The search in the entry of a larger size, through its pointer. -/
theorem takeScanned_spec (hptr : ptr.slot = slot)
    (h : b.takeScanned it slot ptr = .ok (f, b')) :
    f.slotIdx = slot ∧ (Kept b f (Pool.decreaseCnt b' f.slotIdx) ∨
      Forgot b f (Pool.decreaseCnt b' f.slotIdx)) := by
  obtain ⟨e, p, x, objs, hderef, hfirst, h⟩ := found_eq_ok h
  have hentry := (deref_eq_ok.1 hderef).1
  have hpop := takeFirst_eq_ok hfirst
  subst hptr
  simp only at h
  split_ifs at h with hrest
  · cases hbelow : b.ordered.below? ptr.slot with
    | none =>
      rw [hbelow] at h
      cases h
    | some below =>
      rw [hbelow] at h
      cases h
      have hlt := (OrderedMap.below?_spec hbelow).2
      refine ⟨rfl, .inr (.mk ⟨hentry, hpop⟩ hrest hlt (decreaseCnt_pages _ _) ?_ ?_)⟩
      · intro m
        have hne : ptr.slot ≠ below.1 := by omega
        simp only [decreaseCnt_lookup, lookup_insert_eq, lookup_erase_eq]
        split_ifs with h₁ h₂ h₂
        · omega
        · rfl
        · rfl
        · rfl
      · intro m
        simp only [decreaseCnt_ordered, OrderedMap.find?_erase]
  · cases h
    exact ⟨rfl, .inl (kept_of_insert hentry hpop hrest)⟩

/-! ## The search -/

/-- The slot that a request is served from when its own slot has no free object: the
smallest slot, if all slots are larger, or else the largest one in the range. -/
def larger? (b : Bulk) (n : Nat) : Option (Nat × EntryPtr) :=
  match b.ordered.first? with
  | some (slotBegin, ptr) =>
    if slotBegin > n then
      if slotBegin > n * 2 then none else some (slotBegin, ptr)
    else b.ordered.findLast? fun s => n < s && s ≤ n * 2
  | none => none

/-- No slot fits a request. -/
def NoFit (b : Bulk) (n : Nat) : Prop :=
  b.hash.lookup n = none ∧ ∀ m ptr, b.ordered.find? m = some ptr → ¬ (n < m ∧ m ≤ n * 2)

/-- The larger slot that is scanned has at most twice the pages. -/
theorem larger?_spec (h : b.larger? n = some (slot, ptr)) :
    b.ordered.find? slot = some ptr ∧ n < slot ∧ slot ≤ n * 2 := by
  unfold larger? at h
  split at h
  · rename_i hfirst
    split_ifs at h with hlt hle
    · cases h
      exact ⟨(OrderedMap.first?_spec hfirst).1, hlt, by omega⟩
    · obtain ⟨hfind, htest, -⟩ := OrderedMap.findLast?_spec h
      exact ⟨hfind, by simpa using htest⟩
  · cases h

theorem larger?_eq_none (h : b.larger? n = none) (m : Nat) (ptr : EntryPtr)
    (hm : b.ordered.find? m = some ptr) : ¬ (n < m ∧ m ≤ n * 2) := by
  unfold larger? at h
  split at h
  · rename_i hfirst
    have hmin := (OrderedMap.first?_spec hfirst).2 m ptr hm
    split_ifs at h with hlt hle
    · simp only at hmin
      omega
    · have htest := OrderedMap.findLast?_eq_none h m ptr hm
      simp only [Bool.and_eq_false_iff, decide_eq_false_iff_not] at htest
      omega
  · rename_i hfirst
    have hnil : b.ordered.entries = [] := List.head?_eq_none_iff.mp hfirst
    rw [OrderedMap.entries_eq_nil.mp hnil m] at hm
    cases hm

theorem NoFit.larger? (h : NoFit b n) : b.larger? n = none := by
  cases hlarger : b.larger? n with
  | none => rfl
  | some e =>
    obtain ⟨hfind, hrange⟩ := larger?_spec hlarger
    exact absurd hrange (h.2 _ _ hfind)

/-- The search, by the slot that is found. -/
theorem getSuitableBulkPage_eq (hnone : b.hash.lookup n = none) :
    b.getSuitableBulkPage it n =
      match b.larger? n with
      | none => .ok (none, b)
      | some (slot, ptr) =>
        (if ∀ e ∈ b.ordered.first?, n < e.1 then b.takeSmallest it slot ptr
          else b.takeScanned it slot ptr) >>= fun r => .ok (some r.1, r.2) := by
  simp only [getSuitableBulkPage, hnone, Bulk.larger?]
  cases hfirst : b.ordered.first? with
  | none => rfl
  | some e =>
    cases hlast : b.ordered.last? with
    | none =>
      have hnil : b.ordered.entries = [] := List.getLast?_eq_none_iff.mp hlast
      simp [OrderedMap.first?, hnil] at hfirst
    | some e' =>
      have hmem := (OrderedMap.first?_spec hfirst).1
      have hmax := (OrderedMap.last?_spec hlast).2 _ _ hmem
      simp only [Option.mem_some_iff, forall_eq']
      split_ifs with hlt hgt hgt
      · omega
      · omega
      · -- every slot is smaller than the requested one
        have hscan : b.ordered.findLast? (fun s => n < s && s ≤ n * 2) = none := by
          cases hscan : b.ordered.findLast? (fun s => n < s && s ≤ n * 2) with
          | none => rfl
          | some e'' =>
            obtain ⟨hfind, htest, -⟩ := OrderedMap.findLast?_spec hscan
            have := (OrderedMap.last?_spec hlast).2 _ _ hfind
            simp only [Bool.and_eq_true, decide_eq_true_eq] at htest
            omega
        rw [hscan]
      · rfl
      · rfl
      · cases b.ordered.findLast? (fun s => n < s && s ≤ n * 2) <;> rfl

/-- Every pointer of the ordered index was made for the slot it is listed under. -/
def PtrSlots (b : Bulk) : Prop :=
  ∀ n ptr, b.ordered.find? n = some ptr → ptr.slot = n

/-- Without a fitting entry the search answers null and changes nothing. -/
theorem search_noFit (h : NoFit b n) : b.getSuitableBulkPage it n = .ok (none, b) := by
  rw [getSuitableBulkPage_eq h.1, h.larger?]

/-- The faults of the search. -/
theorem takeFirst_eq_error {fault : Fault} (h : takeFirst it objs = .error fault) :
    fault.OfSearch := by
  unfold takeFirst at h
  split at h
  · cases h
    trivial
  · split at h
    · cases h
    · cases h
      trivial

theorem deref_eq_error {fault : Fault} (h : b.deref ptr = .error fault) : fault.OfSearch := by
  unfold deref at h
  split at h
  · split_ifs at h
    cases h
    trivial
  · cases h
    trivial

theorem found_eq_error {α : Type} {fault : Fault}
    {k : HashEntry → Nat × Nat × PageMap Nat Nat → Except Fault α}
    (hk : ∀ e r, k e r = .error fault → fault.OfSearch)
    (h : (b.deref ptr >>= fun e => takeFirst it e.page.objs >>= k e) = .error fault) :
    fault.OfSearch := by
  rcases bind_eq_error.mp h with h | ⟨e, -, h⟩
  · exact deref_eq_error h
  · rcases bind_eq_error.mp h with h | ⟨r, -, h⟩
    · exact takeFirst_eq_error h
    · exact hk e r h

/-- The only faults of the search are those of the entries it follows. -/
theorem search_eq_error {fault : Fault} (h : b.getSuitableBulkPage it n = .error fault) :
    fault.OfSearch := by
  cases hentry : b.hash.lookup n with
  | some e =>
    simp only [getSuitableBulkPage, hentry, bind_eq_error, takeExact] at h
    rcases h with (h | ⟨⟨p, x, objs⟩, -, h⟩) | ⟨_, -, h⟩
    · exact takeFirst_eq_error h
    · simp only at h
      split_ifs at h
    · cases h
  | none =>
    rw [getSuitableBulkPage_eq hentry] at h
    split at h
    · cases h
    · rcases bind_eq_error.mp h with h | ⟨_, -, h⟩
      · split_ifs at h
        · refine found_eq_error ?_ h
          intro e r h
          simp only at h
          split_ifs at h
          cases h
          trivial
        · refine found_eq_error ?_ h
          intro e r h
          simp only at h
          split_ifs at h
          split at h
          · cases h
          · cases h
            trivial
      · cases h

theorem Paired.ptrSlots (h : Paired b) : PtrSlots b := by
  intro n ptr hptr
  have hn := h n
  rw [hptr] at hn
  generalize b.hash.lookup n = entry at hn
  cases hn
  rfl

theorem Paired.entry (h : Paired b) (hentry : b.hash.lookup n = some e) :
    b.ordered.find? n = some ⟨n, e.stamp⟩ ∧ e.page.objs.keys ≠ [] ∧ NoEmpty e.page.objs := by
  have hn := h n
  rw [hentry] at hn
  generalize b.ordered.find? n = ptr at hn ⊢
  cases hn with
  | present page lists => exact ⟨rfl, page, lists⟩

/-- In a well-formed pair no pointer dangles. -/
theorem Paired.deref (h : Paired b) (hfind : b.ordered.find? n = some ptr) :
    ∃ e, b.hash.lookup n = some e ∧ b.deref ptr = .ok e := by
  have hn := h n
  rw [hfind] at hn
  generalize hentry : b.hash.lookup n = entry at hn
  cases hn with
  | @present e page lists => exact ⟨e, rfl, by simp only [Bulk.deref, hentry, if_true]⟩

theorem Agree.paired (h : Agree b) : Paired b := by
  intro n
  have hn := h n
  generalize b.hash.lookup n = entry, b.ordered.find? n = ptr at hn ⊢
  cases hn with
  | absent => exact .absent
  | present page lists => exact .present page lists

theorem Agree.entry (h : Agree b) (hentry : b.hash.lookup n = some e) :
    b.ordered.find? n = some ⟨n, e.stamp⟩ ∧ e.page.objs.keys ≠ [] ∧ NoEmpty e.page.objs ∧
      e.page.cnt = total e.page.objs := by
  have hn := h n
  rw [hentry] at hn
  generalize b.ordered.find? n = ptr at hn ⊢
  cases hn with
  | present page lists cnt => exact ⟨rfl, page, lists, cnt⟩

/-- A request would be served with the last object of a slot that is larger than its
own. -/
def Risky (b : Bulk) (n : Nat) : Prop :=
  b.hash.lookup n = none ∧ ∃ slot ptr e, b.larger? n = some (slot, ptr) ∧
    b.hash.lookup slot = some e ∧ total e.page.objs = 1

theorem NoFit.not_risky (h : NoFit b n) : ¬ Risky b n := by
  rintro ⟨-, slot, ptr, e, hlarger, -⟩
  rw [h.larger?] at hlarger
  cases hlarger

/-- The outcomes of `get_suitable_bulk_page`. -/
inductive Found (b : Bulk) (n : Nat) : Except Fault (Option Suitable × Bulk) → Prop
  | nothing (noFit : NoFit b n) : Found b n (.ok (none, b))
  | served {f : Suitable} {b' : Bulk} (served : Served b f (Pool.decreaseCnt b' f.slotIdx))
      (safe : Agree b → ¬ Risky b n) : Found b n (.ok (some f, b'))
  | forgot {f : Suitable} {b' : Bulk} (forgot : Forgot b f (Pool.decreaseCnt b' f.slotIdx))
      (risky : Risky b n) : Found b n (.ok (some f, b'))
  | fault {fault : Fault} (search : fault.OfSearch) (risky : Agree b → Risky b n) :
      Found b n (.error fault)

/-- Taking an object through the ordered index goes wrong only with the last object of
a slot. -/
theorem fault_risky (hagree : Agree b) (hnone : b.hash.lookup n = none)
    (hlarger : b.larger? n = some (slot, ptr)) (smallest : Bool) {fault : Fault}
    (h : (if smallest then b.takeSmallest it slot ptr else b.takeScanned it slot ptr) =
      .error fault) : Risky b n := by
  obtain ⟨e, hentry, hderef⟩ := hagree.paired.deref (larger?_spec hlarger).1
  obtain ⟨-, hkeys, hne, -⟩ := hagree.entry hentry
  obtain ⟨p, x, objs', hfirst, -, hlast⟩ := exists_takeFirst it hne hkeys
  refine ⟨hnone, slot, ptr, e, hlarger, hentry, hlast.mp ?_⟩
  by_contra hrest
  cases smallest with
  | true => simp [takeSmallest, hderef, hfirst, hrest] at h
  | false => simp [takeScanned, hderef, hfirst, hrest] at h

/-- A search that has kept the entry of its slot took no risk. -/
theorem Kept.safe (h : Kept b f b') (hagree : Agree b)
    (hlarger : b.larger? n = some (f.slotIdx, ptr)) : ¬ Risky b n := by
  obtain ⟨popped, rest, -⟩ := h
  rintro ⟨-, slot, ptr', e', hlarger', hentry', hone⟩
  rw [hlarger] at hlarger'
  cases hlarger'
  rw [popped.entry] at hentry'
  cases hentry'
  obtain ⟨-, -, hne, -⟩ := hagree.entry popped.entry
  rw [total_popFront popped.pop, Nat.add_eq_right,
    total_eq_zero (noEmpty_popFront hne popped.pop)] at hone
  exact rest hone

/-- What the search gives, case by case. -/
theorem search_found (hptr : PtrSlots b) (it : IterOrder Nat) (n : Nat) :
    Found b n (b.getSuitableBulkPage it n) := by
  cases hentry : b.hash.lookup n with
  | some e =>
    have hsafe : ¬ Risky b n := by
      rintro ⟨hnone, -⟩
      rw [hentry] at hnone
      cases hnone
    cases hsearch : b.getSuitableBulkPage it n with
    | error fault =>
      refine .fault (search_eq_error hsearch) ?_
      intro hagree
      obtain ⟨-, hkeys, hne, -⟩ := hagree.entry hentry
      obtain ⟨p, x, objs', hfirst, -, -⟩ := exists_takeFirst it hne hkeys
      simp only [getSuitableBulkPage, hentry, takeExact, hfirst, ok_bind] at hsearch
      split_ifs at hsearch <;> simp at hsearch
    | ok r =>
      simp only [getSuitableBulkPage, hentry, bind_eq_ok] at hsearch
      obtain ⟨⟨f, b'⟩, htake, hr⟩ := hsearch
      cases hr
      exact .served (takeExact_spec hentry htake).2 fun _ => hsafe
  | none =>
    cases hlarger : b.larger? n with
    | none =>
      rw [getSuitableBulkPage_eq hentry, hlarger]
      exact .nothing ⟨hentry, larger?_eq_none hlarger⟩
    | some found =>
      obtain ⟨slot, ptr⟩ := found
      have hslot := hptr slot ptr (larger?_spec hlarger).1
      cases hsearch : b.getSuitableBulkPage it n with
      | error fault =>
        refine .fault (search_eq_error hsearch) ?_
        intro hagree
        rw [getSuitableBulkPage_eq hentry, hlarger] at hsearch
        rcases bind_eq_error.mp hsearch with htake | ⟨_, -, hr⟩
        · exact fault_risky hagree hentry hlarger
            (decide (∀ e ∈ b.ordered.first?, n < e.1))
            (by simpa only [decide_eq_true_eq] using htake)
        · cases hr
      | ok r =>
        rw [getSuitableBulkPage_eq hentry, hlarger] at hsearch
        obtain ⟨⟨f, b'⟩, htake, hr⟩ := bind_eq_ok.mp hsearch
        cases hr
        have hcases : f.slotIdx = slot ∧
            (Kept b f (Pool.decreaseCnt b' f.slotIdx) ∨
              Forgot b f (Pool.decreaseCnt b' f.slotIdx)) := by
          split_ifs at htake
          · exact ⟨(takeSmallest_spec hslot htake).1, .inl (takeSmallest_spec hslot htake).2⟩
          · exact takeScanned_spec hslot htake
        obtain ⟨rfl, hkept | hforgot⟩ := hcases
        · exact .served (.kept hkept) fun hagree => hkept.safe hagree hlarger
        · refine .forgot hforgot ?_
          cases hforgot with
          | mk popped rest lt pages hash ordered =>
            refine ⟨hentry, _, ptr, _, hlarger, popped.entry, ?_⟩
            rw [total_popFront popped.pop, total, rest]
            rfl

/-! ## The expansion -/

/-- A new block becomes the only page of its slot. -/
theorem expandBulk_some {c : Config} (hvalid : c.Valid (.bulk n)) (hnone : b.hash.lookup n = none)
    (p : Nat) :
    ∃ b₁, Pool.expandBulk c n (c.slotSize (.bulk n)) (some p) b = .ok (b₁, some p) ∧
      Updated b n (some {p}) (some ⟨b.nodes,
        ⟨(∅ : PageMap Nat Nat).insert p (c.carver.split (.bulk n) p),
          c.pageBytes (.bulk n) / c.slotSize (.bulk n)⟩⟩) (some ⟨n, b.nodes⟩) b₁ := by
  have hpos : c.slotSize (.bulk n) ≠ 0 := Nat.pos_iff_ne_zero.mp (Config.pageBytes_bounds hvalid).1
  simp only [Pool.expandBulk, hnone, allocPageObjs, hpos, if_false, ok_bind]
  refine ⟨_, rfl, ⟨?_, ?_, ?_⟩⟩
  · intro m
    simp only [lookup_insert_eq]
    split_ifs <;> rfl
  · intro m
    by_cases hm : m = n
    · simp only [lookup_insert_eq, hm, if_true]
      rfl
    · simp only [lookup_insert_eq, hm, if_false]
  · intro m
    rw [OrderedMap.find?_insert]

/-- When the allocation fails only an empty page set remains. -/
theorem expandBulk_none (c : Config) (b : Bulk) (n needPageSize : Nat) :
    ∃ b₁, Pool.expandBulk c n needPageSize none b = .ok (b₁, none) ∧
      Updated b n (some ∅) none none b₁ := by
  simp only [Pool.expandBulk, allocPageObjs, ok_bind]
  refine ⟨_, rfl, ⟨?_, ?_, ?_⟩⟩
  · intro m
    rw [lookup_insert_eq]
  · intro m
    simp only [lookup_insert_eq, lookup_erase_eq]
    split_ifs <;> rfl
  · intro m
    simp only [OrderedMap.find?_insert, OrderedMap.find?_erase]
    split_ifs <;> rfl

/-- The outcomes of the search of `Get`, with the result of the allocation. -/
inductive Outcome (c : Config) (b : Bulk) (n : Nat) (objP : Option Nat) :
    Except Fault (Option Suitable × Bulk × Option Nat) → Prop
  | reused {f : Suitable} {b' : Bulk} (fits : ¬ NoFit b n)
      (served : Served b f (Pool.decreaseCnt b' f.slotIdx))
      (safe : Agree b → ¬ Risky b n) : Outcome c b n objP (.ok (some f, b', none))
  | forgot {f : Suitable} {b' : Bulk} (forgot : Forgot b f (Pool.decreaseCnt b' f.slotIdx))
      (risky : Risky b n) : Outcome c b n objP (.ok (some f, b', none))
  | fault {fault : Fault} (fits : ¬ NoFit b n) (search : fault.OfSearch)
      (risky : Agree b → Risky b n) : Outcome c b n objP (.error fault)
  | failed {b' : Bulk} (noFit : NoFit b n) (alloc : objP = none)
      (upd : Updated b n (some ∅) none none b') : Outcome c b n objP (.ok (none, b', none))
  | expanded {p : Nat} {b₁ b' : Bulk} {f : Suitable} (noFit : NoFit b n) (alloc : objP = some p)
      (upd : Updated b n (some {p}) (some ⟨b.nodes,
        ⟨(∅ : PageMap Nat Nat).insert p (c.carver.split (.bulk n) p),
          c.pageBytes (.bulk n) / c.slotSize (.bulk n)⟩⟩) (some ⟨n, b.nodes⟩) b₁)
      (slot : f.slotIdx = n) (served : Served b₁ f (Pool.decreaseCnt b' f.slotIdx)) :
      Outcome c b n objP (.ok (some f, b', some p))

theorem NoFit.failed (h : NoFit b n) {set : Option (Finset Nat)}
    (upd : Updated b n set none none b') : NoFit b' n := by
  refine ⟨by rw [upd.hash, if_pos rfl], ?_⟩
  intro m ptr hm
  rw [upd.ordered] at hm
  split_ifs at hm
  exact h.2 m ptr hm

/-- What `Get` of a bulk does with the outcome of the search. -/
theorem findBulk_outcome {c : Config} (hptr : PtrSlots b) (hvalid : c.Valid (.bulk n))
    (objP : Option Nat) (it : IterOrder Nat) :
    Outcome c b n objP (Pool.findBulk c n (c.slotSize (.bulk n)) objP it b) := by
  have hfound := search_found hptr it n
  generalize hsearch : b.getSuitableBulkPage it n = r at hfound
  cases hfound with
  | nothing hnoFit =>
    cases objP with
    | none =>
      obtain ⟨b₁, hexpand, hupd⟩ := expandBulk_none c b n (c.slotSize (.bulk n))
      simp only [Pool.findBulk, hsearch, hexpand, ok_bind, search_noFit (hnoFit.failed hupd)]
      exact .failed hnoFit rfl hupd
    | some p =>
      obtain ⟨b₁, hexpand, hupd⟩ := expandBulk_some hvalid hnoFit.1 p
      have hentry := hupd.hash n
      rw [if_pos rfl] at hentry
      have hne : NoEmpty ((∅ : PageMap Nat Nat).insert p (c.carver.split (.bulk n) p)) :=
        noEmpty_single (c.carver.split_ne_nil _ _ hvalid)
      obtain ⟨q, x, objs, hfirst, -⟩ := exists_takeFirst it hne (by simp)
      obtain ⟨f, b', htake⟩ : ∃ f b', b₁.takeExact it n
          ⟨b.nodes, ⟨(∅ : PageMap Nat Nat).insert p (c.carver.split (.bulk n) p),
            c.pageBytes (.bulk n) / c.slotSize (.bulk n)⟩⟩ = .ok (f, b') := by
        simp only [takeExact, hfirst, ok_bind]
        split_ifs <;> exact ⟨_, _, rfl⟩
      obtain ⟨hslot, hserved⟩ := takeExact_spec hentry htake
      have hsearch₁ : b₁.getSuitableBulkPage it n = .ok (some f, b') := by
        simp only [getSuitableBulkPage, hentry, htake, ok_bind]
      simp only [Pool.findBulk, hsearch, hexpand, ok_bind, hsearch₁]
      exact .expanded hnoFit rfl hupd hslot hserved
  | served served safe =>
    simp only [Pool.findBulk, hsearch, ok_bind]
    exact .reused (fun hnoFit => by rw [search_noFit hnoFit] at hsearch; cases hsearch)
      served safe
  | forgot forgot risky =>
    simp only [Pool.findBulk, hsearch, ok_bind]
    exact .forgot forgot risky
  | fault search risky =>
    simp only [Pool.findBulk, hsearch]
    exact .fault (fun hnoFit => by rw [search_noFit hnoFit] at hsearch; cases hsearch)
      search risky

/-! ## Giving an object back -/

/-- The hash entry that an object is put into: the one of its slot, or a new one. -/
inductive Slotted (b : Bulk) (n : Nat) : HashEntry → Option EntryPtr → Prop
  | old {e : HashEntry} (entry : b.hash.lookup n = some e) : Slotted b n e (b.ordered.find? n)
  | new (entry : b.hash.lookup n = none) :
      Slotted b n ⟨b.nodes, SlotObjPage.empty⟩ (some ⟨n, b.nodes⟩)

/-- The outcomes of `put` for an object that stays in the pool, with the page that is
given up. -/
inductive Given (onePageObjsCnt : Nat) (b : Bulk) (n : Nat) (o : MemObject) :
    Bulk × Option Nat → Prop
  | kept {e : HashEntry} {ptr : Option EntryPtr} {b' : Bulk} (slotted : Slotted b n e ptr)
      (upd : Updated b n (b.pages.lookup n) (some ⟨e.stamp,
        ⟨pushBack e.page.objs o.objPagePv o.objPv, u32 (e.page.cnt + 1)⟩⟩) ptr b') :
      Given onePageObjsCnt b n o (b', none)
  | freed {e : HashEntry} {ptr : Option EntryPtr} {b' : Bulk} {p cnt : Nat}
      (slotted : Slotted b n e ptr) (mem : p ∈ (pushBack e.page.objs o.objPagePv o.objPv).keys)
      (full : (listAt (pushBack e.page.objs o.objPagePv o.objPv) p).length = onePageObjsCnt)
      (cnt_eq : cnt = u32 (u32 (e.page.cnt + 1) + (2 ^ 32 - onePageObjsCnt))) (rest : cnt ≠ 0)
      (upd : Updated b n (some (((b.pages.lookup n).getD ∅).erase p)) (some ⟨e.stamp,
        ⟨(pushBack e.page.objs o.objPagePv o.objPv).erase p, cnt⟩⟩) ptr b') :
      Given onePageObjsCnt b n o (b', some p)
  | emptied {e : HashEntry} {ptr : Option EntryPtr} {b' : Bulk} {p : Nat}
      (slotted : Slotted b n e ptr) (mem : p ∈ (pushBack e.page.objs o.objPagePv o.objPv).keys)
      (full : (listAt (pushBack e.page.objs o.objPagePv o.objPv) p).length = onePageObjsCnt)
      (rest : u32 (u32 (e.page.cnt + 1) + (2 ^ 32 - onePageObjsCnt)) = 0)
      (upd : Updated b n (some (((b.pages.lookup n).getD ∅).erase p)) none none b') :
      Given onePageObjsCnt b n o (b', some p)

/-- The entry of a slot is found or made, and its pointer with it. -/
theorem bulkEntry_spec (b : Bulk) (n : Nat) :
    ∃ e b₁ ptr, Pool.bulkEntry b n = (e, b₁) ∧ Slotted b n e ptr ∧
      b₁.pages = b.pages ∧ Updated b n (b.pages.lookup n) (some e) ptr b₁ := by
  unfold Pool.bulkEntry
  cases hentry : b.hash.lookup n with
  | some e =>
    refine ⟨e, b, _, rfl, .old hentry, rfl, ⟨?_, ?_, ?_⟩⟩
    · simp
    · rw [← hentry]
      simp
    · simp
  | none =>
    refine ⟨_, _, _, rfl, .new hentry, rfl, ⟨?_, ?_, ?_⟩⟩
    · simp
    · intro m
      rw [lookup_insert_eq]
    · intro m
      rw [OrderedMap.find?_insert]

/-- `Put` of a bulk gives the object back to the entry of its slot. -/
theorem residentBulk_given (residentCnts onePageObjsCnt : Nat) (it : IterOrder Nat)
    (b : Bulk) (n : Nat) (o : MemObject) :
    Given onePageObjsCnt b n o (Pool.residentBulk residentCnts onePageObjsCnt n it o b) := by
  obtain ⟨e, b₁, ptr, hentry, hslotted, hpages, hupd⟩ := bulkEntry_spec b n
  have hset : ∀ m, (b₁.pages.lookup m) = b.pages.lookup m := fun m => by rw [hpages]
  simp only [Pool.residentBulk, hentry]
  split
  · rename_i p hfind
    split_ifs at hfind with hmany
    have hmem := (it.perm _).mem_iff.mp (List.mem_of_find?_eq_some hfind)
    have hfull := List.find?_some hfind
    simp only [decide_eq_true_eq] at hfull
    split_ifs with hzero
    · refine .emptied hslotted hmem hfull hzero ⟨?_, ?_, ?_⟩
      · intro m
        simp only [lookup_insert_eq, hset]
      · intro m
        simp only [lookup_erase_eq, hupd.hash]
        split_ifs <;> rfl
      · intro m
        simp only [OrderedMap.find?_erase, hupd.ordered]
        split_ifs <;> rfl
    · refine .freed hslotted hmem hfull rfl hzero ⟨?_, ?_, hupd.ordered⟩
      · intro m
        simp only [lookup_insert_eq, hset]
      · intro m
        simp only [lookup_insert_eq, hupd.hash]
        split_ifs <;> rfl
  · refine .kept hslotted ⟨?_, ?_, hupd.ordered⟩
    · exact hupd.pages
    · intro m
      simp only [lookup_insert_eq, hupd.hash]
      split_ifs <;> rfl

end Bulk

end MemPool
end CCraft
