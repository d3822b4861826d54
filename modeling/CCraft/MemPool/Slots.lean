import CCraft.Lib.Run
import CCraft.MemPool.Pool

/-!
# Tiny, small and big objects

The pool is seen as a store that carves blocks into objects: the free objects of
a slot are those in its lists, the objects handed out are those of the outstanding
wrappers.  `Get` and `Put` are then the operations of a store.

Main results:

- Theorems {lit}`getSlot_inv` and {lit}`putSlot_inv`: `Get` and `Put` of tiny, small
  and big objects keep the invariant and never fault.
- Theorem {lit}`slots_never_hand_out_twice`: in every run of `Get` and `Put` of such
  objects no byte is handed out twice.
-/

namespace CCraft
namespace MemPool

open Slab PageMap Fallible

/-! ## The pool as a store -/

/-- The slot an object belongs to. -/
def MemObject.key (c : Config) (o : MemObject) : Key :=
  match o.type with
  | .tiny => .tiny
  | .small => .small (convertSlotObjSizeToSlotIdx o.slotSize smallObjSlotFootstepSize)
  | .big => .big (convertSlotObjSizeToSlotIdx o.slotSize c.sysPageSize)
  | .bulk => .bulk (convertSlotObjSizeToSlotIdx o.slotSize c.sysPageSize)

def MemObject.obj (c : Config) (o : MemObject) : Obj Key :=
  ⟨o.key c, o.objPagePv, o.objPv⟩

/-- The slots that the constructor makes.  They never forget an object. -/
def Key.IsSlot : Key → Prop
  | .bulk _ => False
  | _ => True

/-- The free objects of a bulk slot. -/
def objsAt (hash : AList fun _ : Nat => HashEntry) (n : Nat) : PageMap Nat Nat :=
  match hash.lookup n with
  | some e => e.page.objs
  | none => ∅

/-- The free objects of each slot. -/
def freeMap (slots : Key → Option Slot) (hash : AList fun _ : Nat => HashEntry) :
    Key → PageMap Nat Nat
  | .bulk n => objsAt hash n
  | k =>
    match slots k with
    | some slot => slot.free.objs
    | none => ∅

/-- The objects that are handed out. -/
def Pool.outs (c : Config) (s : Pool) : Multiset (Obj Key) :=
  (s.out : Multiset Nat).map fun h => (s.objects h).obj c

/-- The pool as a store. -/
def Pool.store (c : Config) (s : Pool) : Store Key :=
  ⟨s.live, freeMap s.slots s.bulk.hash, s.outs c⟩

theorem freeMap_slot {slots : Key → Option Slot} {hash : AList fun _ : Nat => HashEntry}
    {k : Key} {slot : Slot} (hk : k.IsSlot) (h : slots k = some slot) :
    freeMap slots hash k = slot.free.objs := by
  cases k with
  | bulk n => exact hk.elim
  | _ => simp [freeMap, h]

theorem freeMap_update {slots : Key → Option Slot} {hash : AList fun _ : Nat => HashEntry}
    {k : Key} (hk : k.IsSlot) (slot : Slot) :
    freeMap (Function.update slots k (some slot)) hash =
      Function.update (freeMap slots hash) k slot.free.objs := by
  funext k'
  by_cases hkk : k' = k
  · subst hkk
    rw [Function.update_self]
    exact freeMap_slot hk (Function.update_self _ _ _)
  · rw [Function.update_of_ne hkk]
    cases k' <;> simp [freeMap, Function.update_of_ne hkk]

/-! ## Wrappers -/

/-- No wrapper is in two places at once. -/
structure Handles (s : Pool) : Prop where
  nodup : (s.out ++ s.retired ++ s.freeMemObjs).Nodup
  lt_made : ∀ h ∈ s.out ++ s.retired ++ s.freeMemObjs, h < s.made

/-- What `get_mem_object` does: a wrapper that was not outstanding now stands for the
object, the others stand for what they stood for, and nothing else changes. -/
structure Wrapped (s : Pool) (o : MemObject) (h : Nat) (s' : Pool) : Prop where
  new : h ∉ s.out
  out_eq : s'.out = s.out ++ [h]
  objects_eq : s'.objects = Function.update s.objects h o
  handles : Handles s'
  slots_eq : s'.slots = s.slots
  bulk_eq : s'.bulk = s.bulk
  live_eq : s'.live = s.live
  frees_eq : s'.frees = s.frees
  fault_eq : s'.fault = s.fault

theorem getMemObject_wrapped {s : Pool} (hs : Handles s) (o : MemObject) :
    Wrapped s o (s.getMemObject o).1 (s.getMemObject o).2 := by
  have hnodup := hs.nodup
  have hlt := hs.lt_made
  unfold Pool.getMemObject
  cases hfree : s.freeMemObjs with
  | nil =>
    rw [hfree, List.append_nil] at hnodup hlt
    have hnew : s.made ∉ s.out ++ s.retired := fun hmem => absurd (hlt _ hmem) (by omega)
    have hnew' : s.made ∉ s.out := fun hmem => hnew (List.mem_append_left _ hmem)
    refine ⟨hnew', rfl, rfl, ⟨?_, ?_⟩, rfl, rfl, rfl, rfl, rfl⟩
    · simp only [List.append_nil, List.append_assoc, List.singleton_append]
      exact (List.perm_middle.nodup_iff).mpr (List.nodup_cons.mpr ⟨hnew, hnodup⟩)
    · intro h hmem
      simp only [List.append_nil, List.append_assoc, List.singleton_append,
        List.mem_append, List.mem_cons] at hmem
      rcases hmem with hmem | rfl | hmem
      · exact Nat.lt_succ_of_lt (hlt h (List.mem_append_left _ hmem))
      · exact Nat.lt_succ_self _
      · exact Nat.lt_succ_of_lt (hlt h (List.mem_append_right _ hmem))
  | cons h rest =>
    rw [hfree] at hnodup hlt
    have hperm : (s.out ++ [h] ++ s.retired ++ rest).Perm
        (s.out ++ s.retired ++ h :: rest) := by
      simp only [List.append_assoc, List.singleton_append]
      exact List.perm_middle.symm.append_left s.out
    have hnew : h ∉ s.out := by
      intro hmem
      exact (List.nodup_append.mp hnodup).2.2 h (List.mem_append_left _ hmem) h
        List.mem_cons_self rfl
    refine ⟨hnew, rfl, rfl, ⟨?_, ?_⟩, rfl, rfl, rfl, rfl, rfl⟩
    · exact hperm.nodup_iff.mpr hnodup
    · exact fun h' hmem => hlt h' (hperm.mem_iff.mp hmem)

namespace Wrapped

variable {s s' : Pool} {o : MemObject} {h : Nat}

theorem objects_of_mem (hw : Wrapped s o h s') {h' : Nat} (hmem : h' ∈ s.out) :
    s'.objects h' = s.objects h' := by
  have hne : h' ≠ h := fun heq => hw.new (heq ▸ hmem)
  rw [hw.objects_eq, Function.update_of_ne hne]

/-- Every outstanding wrapper is the new one or an old one with its old object. -/
theorem mem_out (hw : Wrapped s o h s') {h' : Nat} (hmem : h' ∈ s'.out) :
    s'.objects h' = o ∨ h' ∈ s.out ∧ s'.objects h' = s.objects h' := by
  rw [hw.out_eq] at hmem
  rcases List.mem_append.mp hmem with hmem | hmem
  · exact .inr ⟨hmem, hw.objects_of_mem hmem⟩
  · rw [List.mem_singleton.mp hmem, hw.objects_eq, Function.update_self]
    exact .inl rfl

theorem outs_eq (hw : Wrapped s o h s') (c : Config) : s'.outs c = o.obj c ::ₘ s.outs c := by
  have hold : s.out.map (fun h' => (s'.objects h').obj c) =
      s.out.map fun h' => (s.objects h').obj c :=
    List.map_congr_left fun h' hmem => by rw [hw.objects_of_mem hmem]
  have hnew : (s'.objects h).obj c = o.obj c := by
    rw [hw.objects_eq, Function.update_self]
  simp only [Pool.outs, Multiset.map_coe, hw.out_eq, List.map_append, hold, List.map_cons,
    List.map_nil, hnew]
  rw [Multiset.cons_coe, Multiset.coe_eq_coe]
  exact List.perm_append_singleton _ _

theorem store_eq (hw : Wrapped s o h s') (c : Config) :
    s'.store c = { s.store c with outs := o.obj c ::ₘ s.outs c } := by
  simp only [Pool.store, hw.live_eq, hw.slots_eq, hw.bulk_eq, hw.outs_eq c]

end Wrapped

/-- The first half of `Put` takes the object of the wrapper out of the outstanding
ones. -/
theorem retire_outs {s : Pool} {h : Nat} (c : Config) (hmem : h ∈ s.out) :
    (s.retire h).outs c = (s.outs c).erase ((s.objects h).obj c) := by
  have := Multiset.map_erase_of_mem (fun h => (s.objects h).obj c) (s.out : Multiset Nat)
    (Multiset.mem_coe.mpr hmem)
  rw [Multiset.coe_erase] at this
  exact this

theorem retire_handles {s : Pool} {h : Nat} (hs : Handles s) (hmem : h ∈ s.out) :
    Handles (s.retire h) := by
  have hperm : (s.out.erase h ++ h :: s.retired ++ s.freeMemObjs).Perm
      (s.out ++ s.retired ++ s.freeMemObjs) := by
    refine List.Perm.append_right _ (List.perm_middle.trans ?_)
    rw [← List.cons_append]
    exact (List.perm_cons_erase hmem).symm.append_right _
  exact ⟨hperm.nodup_iff.mpr hs.nodup, fun h' hh' => hs.lt_made h' (hperm.mem_iff.mp hh')⟩

theorem recycle_handles {s : Pool} {h : Nat} (hs : Handles s) (hmem : h ∈ s.retired) :
    Handles (s.recycle h) := by
  have hperm : (s.out ++ s.retired.erase h ++ (s.freeMemObjs ++ [h])).Perm
      (s.out ++ s.retired ++ s.freeMemObjs) := by
    rw [List.append_assoc, List.append_assoc]
    refine List.Perm.append_left _ ?_
    rw [← List.append_assoc]
    refine (List.perm_append_singleton _ _).trans ?_
    rw [← List.cons_append]
    exact (List.perm_cons_erase hmem).symm.append_right _
  exact ⟨hperm.nodup_iff.mpr hs.nodup, fun h' hh' => hs.lt_made h' (hperm.mem_iff.mp hh')⟩

/-! ## The invariant -/

/-- The invariant of a pool; the slots in `exact` never forget an object. -/
structure Inv (c : Config) (exact : Key → Prop) (s : Pool) : Prop where
  wf : (s.store c).Wf c.carver exact
  handles : Handles s
  size_eq : ∀ h ∈ s.out, (s.objects h).slotSize = c.slotSize ((s.objects h).key c)
  slots_valid : ∀ k, (∃ slot, s.slots k = some slot) ↔ k.IsSlot ∧ c.Valid k
  pages_live : ∀ k slot, s.slots k = some slot → ∀ p, p ∈ slot.pages ↔ (⟨k, p⟩ : Block Key) ∈ s.live
  frees_ok : ∀ r ∈ s.frees, ∀ o ∈ r.outstanding, o.objPagePv ≠ r.page

/-- A slot keeps its place when its contents change. -/
theorem Inv.slots_valid_setSlot {c : Config} {exact : Key → Prop} {s : Pool} {k : Key}
    {slot' : Slot} (h : Inv c exact s) (hslot : ∃ slot, s.slots k = some slot) (k' : Key) :
    (∃ slot, (s.setSlot k slot').slots k' = some slot) ↔ k'.IsSlot ∧ c.Valid k' := by
  rw [← h.slots_valid k']
  by_cases hkk : k' = k
  · subst hkk
    simp only [Pool.setSlot, Function.update_self, Option.some.injEq, exists_eq', true_iff]
    exact hslot
  · simp only [Pool.setSlot, Function.update_of_ne hkk]

theorem init_inv (c : Config) (exact : Key → Prop) (garbage : Nat) :
    Inv c exact (Pool.init c garbage) := by
  have hstore : (Pool.init c garbage).store c = Store.empty := by
    simp only [Pool.store, Store.empty, Pool.init, Pool.outs]
    congr 1
    funext k
    cases k with
    | tiny | bulk => rfl
    | small i => by_cases hv : c.Valid (.small i) <;> simp [freeMap, hv, SlotObjPage.empty]
    | big i => by_cases hv : c.Valid (.big i) <;> simp [freeMap, hv, SlotObjPage.empty]
  refine ⟨hstore ▸ Store.wf_empty, ⟨by simp [Pool.init], by simp [Pool.init]⟩,
    by simp [Pool.init], ?_, ?_, by simp [Pool.init]⟩
  · intro k
    cases k with
    | tiny => simp [Pool.init, Key.IsSlot, Config.Valid]
    | bulk n => simp [Pool.init, Key.IsSlot]
    | small i => by_cases hv : c.Valid (.small i) <;> simp [Pool.init, Key.IsSlot, hv]
    | big i => by_cases hv : c.Valid (.big i) <;> simp [Pool.init, Key.IsSlot, hv]
  · intro k slot hslot p
    have hempty : slot.pages = ∅ := by
      cases k with
      | tiny =>
        simp only [Pool.init, Option.some.injEq] at hslot
        rw [← hslot]
      | bulk n => simp [Pool.init] at hslot
      | small | big =>
        simp only [Pool.init, Option.ite_none_right_eq_some, Option.some.injEq] at hslot
        rw [← hslot.2]
    simp [hempty, Pool.init]

/-! ## `Get` -/

section Get

variable {c : Config} {exact : Key → Prop} {s : Pool} {k : Key} {slot : Slot} {objP : Option Nat}

/-- A slot is expanded only when it has no free object. -/
theorem expand_spec {slotSize expandPageSize : Nat} (hs : slotSize ≠ 0) (slot : Slot)
    (objP : Option Nat) :
    ∃ slot' newPage, slot.expand expandPageSize slotSize objP = .ok (slot', newPage) ∧
      (newPage = none ∧ slot' = slot ∨
        ∃ p, objP = some p ∧ newPage = some p ∧ slot'.pages = insert p slot.pages ∧
          slot'.free.objs = slot.free.objs.insert p (splitMemPage slotSize p expandPageSize)) := by
  unfold Slot.expand
  split_ifs with hempty
  · cases objP with
    | none => exact ⟨slot, none, rfl, .inl ⟨rfl, rfl⟩⟩
    | some p =>
      refine ⟨⟨insert p slot.pages,
        ⟨slot.free.objs.insert p (splitMemPage slotSize p expandPageSize),
          expandPageSize / slotSize⟩⟩, some p, ?_, .inr ⟨p, rfl, rfl, rfl, rfl⟩⟩
      simp only [allocPageObjs, hs, if_false]
      rfl
  · exact ⟨slot, none, rfl, .inl ⟨rfl, rfl⟩⟩

/-- A slot without empty pages gives its first object, if it has any. -/
theorem take_spec (it : IterOrder Nat) (hne : NoEmpty slot.free.objs) :
    ∃ got slot', slot.take it = .ok (got, slot') ∧ slot'.pages = slot.pages ∧
      (got = none ∧ slot' = slot ∨
        ∃ p x, got = some (p, x) ∧ popFront slot.free.objs p = some (x, slot'.free.objs)) := by
  unfold Slot.take getFreeObjFromSlotPage
  cases horder : it.order slot.free.objs.keys with
  | nil => exact ⟨none, slot, rfl, rfl, .inl ⟨rfl, rfl⟩⟩
  | cons p ps =>
    have hmem : p ∈ slot.free.objs.keys := (it.perm _).mem_iff.mp (by simp [horder])
    obtain ⟨x, objs, hpop⟩ := exists_popFront hne hmem
    refine ⟨some (p, x), { slot with free := ⟨objs, u32 (slot.free.cnt + (2 ^ 32 - 1))⟩ }, ?_,
      rfl, .inr ⟨p, x, rfl, hpop⟩⟩
    simp only [hpop]
    rfl

/-- The pool between the two halves of `Get`. -/
theorem expand_inv {slot' : Slot} {newPage : Option Nat} (h : Inv c exact s) (hk : k.IsSlot)
    (hvalid : c.Valid k) (hslot : s.slots k = some slot) (hobjP : AllocOk c s k objP)
    (hspec : newPage = none ∧ slot' = slot ∨
      ∃ p, objP = some p ∧ newPage = some p ∧ slot'.pages = insert p slot.pages ∧
        slot'.free.objs =
          slot.free.objs.insert p (splitMemPage (c.slotSize k) p (c.pageBytes k))) :
    Inv c exact ((s.addLive k newPage).setSlot k slot') := by
  rcases hspec with ⟨rfl, rfl⟩ | ⟨p, rfl, rfl, hpages, hobjs⟩
  · have hsame : (s.addLive k none).setSlot k slot' = s := by
      simp only [Pool.setSlot, Pool.addLive, ← hslot, Function.update_eq_self]
    rw [hsame]
    exact h
  · obtain ⟨-, hfits, hfresh⟩ := hobjP
    have hstore : ((s.addLive k (some p)).setSlot k slot').store c =
        (s.store c).alloc c.carver ⟨k, p⟩ := by
      simp only [Pool.store, Store.alloc, Pool.addLive, Pool.setSlot, freeMap_update hk, hobjs,
        freeMap_slot hk hslot]
      rfl
    refine ⟨?_, ⟨h.handles.nodup, h.handles.lt_made⟩, h.size_eq,
      h.slots_valid_setSlot ⟨slot, hslot⟩, ?_, h.frees_ok⟩
    · rw [hstore]
      exact h.wf.alloc ⟨hvalid, hfits⟩ hfresh
    · intro k' slot'' hslot'' q
      simp only [Pool.addLive, Pool.setSlot, List.mem_cons, Block.mk.injEq] at hslot'' ⊢
      by_cases hkk : k' = k
      · subst hkk
        rw [Function.update_self, Option.some.injEq] at hslot''
        subst hslot''
        rw [hpages, Finset.mem_insert, h.pages_live k' slot hslot q]
        simp
      · rw [Function.update_of_ne hkk] at hslot''
        rw [h.pages_live k' slot'' hslot'' q]
        simp [hkk]

/-- An object taken from a slot and wrapped. -/
theorem wrap_inv {slot' : Slot} {o : MemObject} {h : Nat} {s' : Pool} (hinv : Inv c exact s)
    (hk : k.IsSlot) (hslot : s.slots k = some slot) (hpages : slot'.pages = slot.pages)
    (hpop : popFront slot.free.objs o.objPagePv = some (o.objPv, slot'.free.objs))
    (hkey : o.key c = k) (hsize : o.slotSize = c.slotSize k)
    (hw : Wrapped (s.setSlot k slot') o h s') : Inv c exact s' := by
  refine ⟨?_, hw.handles, ?_, ?_, ?_, ?_⟩
  · have hstore : s'.store c = (s.store c).take (o.obj c) slot'.free.objs := by
      rw [hw.store_eq c]
      simp only [Pool.store, Store.take, Pool.setSlot, freeMap_update hk, MemObject.obj, hkey]
      rfl
    rw [hstore]
    refine hinv.wf.take ?_
    simp only [Pool.store, MemObject.obj, hkey, freeMap_slot hk hslot]
    exact hpop
  · intro h' hmem
    rcases hw.mem_out hmem with heq | ⟨hmem, heq⟩
    · rw [heq, hkey, hsize]
    · rw [heq]
      exact hinv.size_eq h' hmem
  · rw [hw.slots_eq]
    exact hinv.slots_valid_setSlot ⟨slot, hslot⟩
  · intro k' slot'' hslot'' q
    rw [hw.slots_eq, Pool.setSlot] at hslot''
    rw [hw.live_eq]
    by_cases hkk : k' = k
    · subst hkk
      simp only [Function.update_self, Option.some.injEq] at hslot''
      rw [← hslot'', hpages]
      exact hinv.pages_live k' slot hslot q
    · simp only [Function.update_of_ne hkk] at hslot''
      exact hinv.pages_live k' slot'' hslot'' q
  · rw [hw.frees_eq]
    exact hinv.frees_ok

/-- What `Get` in a slot establishes. -/
structure GetOk (c : Config) (exact : Key → Prop) (s : Pool) (k : Key)
    (r : Option Nat × Pool) : Prop where
  inv : Inv c exact r.2
  fault_eq : r.2.fault = s.fault
  bulk_eq : r.2.bulk = s.bulk
  live : ∀ b, b.key ≠ k → (b ∈ r.2.live ↔ b ∈ s.live)
  out : ∀ h ∈ r.2.out, (r.2.objects h).key c = k ∨ h ∈ s.out ∧ r.2.objects h = s.objects h

/-- `Get` in a slot keeps the invariant and does not fault. -/
theorem getSlot_inv {type : MemObjectType} (it : IterOrder Nat) (h : Inv c exact s) (hk : k.IsSlot)
    (hvalid : c.Valid k) (hobjP : AllocOk c s k objP)
    (hkey : ∀ x p, (⟨type, c.slotSize k, x, p⟩ : MemObject).key c = k) :
    ∃ r, s.getSlot type k (c.slotSize k) (c.pageBytes k) objP it = .ok r ∧ GetOk c exact s k r := by
  obtain ⟨slot, hslot⟩ := (h.slots_valid k).mpr ⟨hk, hvalid⟩
  have hpos : c.slotSize k ≠ 0 := Nat.pos_iff_ne_zero.mp (Config.pageBytes_bounds hvalid).1
  obtain ⟨slot₁, newPage, hexpand, hspec⟩ := expand_spec hpos slot objP
  have hinv := expand_inv h hk hvalid hslot hobjP hspec
  have hslot₁ : ((s.addLive k newPage).setSlot k slot₁).slots k = some slot₁ :=
    Function.update_self _ _ _
  have hne : NoEmpty slot₁.free.objs := by
    intro p l hl
    refine hinv.wf.free_ne_nil k p l ?_
    rw [← hl]
    exact congrArg _ (freeMap_slot hk hslot₁)
  obtain ⟨got, slot₂, htake, hpages, hgot⟩ := take_spec it hne
  have hfault : (s.addLive k newPage).fault = s.fault := by cases newPage <;> rfl
  have hbulk : (s.addLive k newPage).bulk = s.bulk := by cases newPage <;> rfl
  have hlive : ∀ b, b.key ≠ k → (b ∈ (s.addLive k newPage).live ↔ b ∈ s.live) := by
    intro b hb
    cases newPage with
    | none => rfl
    | some p => exact List.mem_cons.trans (or_iff_right fun heq => hb (by rw [heq]))
  have hout : (s.addLive k newPage).out = s.out := by cases newPage <;> rfl
  have hobjects : (s.addLive k newPage).objects = s.objects := by cases newPage <;> rfl
  simp only [Pool.getSlot, hslot, hexpand, htake, ok_bind]
  rcases hgot with ⟨rfl, rfl⟩ | ⟨p, x, rfl, hpop⟩
  · exact ⟨_, rfl, hinv, hfault, hbulk, hlive, fun h' hmem =>
      .inr ⟨hout ▸ hmem, congrFun hobjects h'⟩⟩
  · have htwice : ((s.addLive k newPage).setSlot k slot₁).setSlot k slot₂ =
        (s.addLive k newPage).setSlot k slot₂ := by
      simp only [Pool.setSlot, Function.update_idem]
    have hw := getMemObject_wrapped (s := (s.addLive k newPage).setSlot k slot₂)
      ⟨hinv.handles.nodup, hinv.handles.lt_made⟩ ⟨type, c.slotSize k, x, p⟩
    refine ⟨_, rfl, ?_, hw.fault_eq.trans hfault, hw.bulk_eq.trans hbulk, ?_, ?_⟩
    · rw [← htwice] at hw ⊢
      exact wrap_inv hinv hk hslot₁ hpages hpop (hkey x p) rfl hw
    · intro b hb
      rw [hw.live_eq]
      exact hlive b hb
    · intro h' hmem
      rcases hw.mem_out hmem with heq | ⟨hmem, heq⟩
      · exact .inl (by rw [heq]; exact hkey x p)
      · exact .inr ⟨hout ▸ hmem, heq.trans (congrFun hobjects h')⟩

end Get

/-! ## `Put` -/

section Put

variable {c : Config} {exact : Key → Prop} {s : Pool} {k : Key} {h : Nat}

/-- `put` in a slot gives the object back, and then it may give up a page whose objects
are all free. -/
theorem put_spec (residentCnts onePageObjsCnt : Nat) (it : IterOrder Nat) (x q : Nat)
    (slot : Slot) :
    let r := slot.put residentCnts onePageObjsCnt it x q
    (r.2 = none ∧ r.1.pages = slot.pages ∧ r.1.free.objs = pushBack slot.free.objs q x) ∨
      ∃ p, r.2 = some p ∧ p ∈ (pushBack slot.free.objs q x).keys ∧
        (listAt (pushBack slot.free.objs q x) p).length = onePageObjsCnt ∧
        r.1.pages = slot.pages.erase p ∧
        r.1.free.objs = (pushBack slot.free.objs q x).erase p := by
  intro r
  simp only [r, Slot.put]
  split_ifs
  · split
    · rename_i p hfind
      refine .inr ⟨p, rfl, ?_, ?_, rfl, rfl⟩
      · exact (it.perm _).mem_iff.mp (List.mem_of_find?_eq_some hfind)
      · simpa using List.find?_some hfind
    · exact .inl ⟨rfl, rfl, rfl⟩
  · exact .inl ⟨rfl, rfl, rfl⟩

/-- One more page is freed, in which no outstanding object lies. -/
theorem Inv.frees_append {p : Nat} {out : List Nat} {objects : Nat → MemObject}
    (hinv : Inv c exact s) (hne : ∀ h ∈ out, (objects h).objPagePv ≠ p) :
    ∀ r ∈ s.frees ++ [⟨p, out.map objects⟩], ∀ o ∈ r.outstanding, o.objPagePv ≠ r.page := by
  intro r hr
  rcases List.mem_append.mp hr with hr | hr
  · exact hinv.frees_ok r hr
  · rw [List.mem_singleton.mp hr]
    intro o ho
    obtain ⟨h, hh, rfl⟩ := List.mem_map.mp ho
    exact hne h hh

/-- The block at the address of a live block is that block. -/
theorem Inv.find_live (hinv : Inv c exact s) {b : Block Key} (hb : b ∈ s.live) :
    s.live.find? (fun b' => b'.addr = b.addr) = some b := by
  cases hfind : s.live.find? fun b' => b'.addr = b.addr with
  | none => simpa using List.find?_eq_none.mp hfind b hb
  | some b' =>
    have haddr : b'.addr = b.addr := by simpa using List.find?_some hfind
    rw [hinv.wf.eq_of_addr (List.mem_of_find?_eq_some hfind) hb haddr]

/-- What `Put` establishes. -/
structure PutOk (c : Config) (exact : Key → Prop) (s : Pool) (h : Nat) (s' : Pool) : Prop where
  inv : Inv c exact s'
  fault_eq : s'.fault = s.fault
  out_eq : s'.out = s.out.erase h
  objects_eq : s'.objects = s.objects

/-- An object given back to its slot. -/
theorem give_inv {slot slot' : Slot} (hinv : Inv c exact s) (hmem : h ∈ s.out)
    (hk : ((s.objects h).key c).IsSlot) (hslot : s.slots ((s.objects h).key c) = some slot)
    (hpages : slot'.pages = slot.pages)
    (hobjs : slot'.free.objs =
      pushBack slot.free.objs (s.objects h).objPagePv (s.objects h).objPv) :
    Inv c exact ((s.retire h).setSlot ((s.objects h).key c) slot') := by
  have hstore : ((s.retire h).setSlot ((s.objects h).key c) slot').store c =
      (s.store c).give ((s.objects h).obj c) := by
    simp only [Pool.store, Store.give, MemObject.obj, freeMap_slot hk hslot, ← hobjs,
      ← freeMap_update hk]
    exact congrArg _ (retire_outs c hmem)
  refine ⟨?_, ?_, ?_, ?_, ?_, hinv.frees_ok⟩
  · rw [hstore]
    exact hinv.wf.give (Multiset.mem_map_of_mem _ (Multiset.mem_coe.mpr hmem))
  · have hhandles := retire_handles hinv.handles hmem
    exact ⟨hhandles.nodup, hhandles.lt_made⟩
  · exact fun h' hh' => hinv.size_eq h' (List.mem_of_mem_erase hh')
  · exact hinv.slots_valid_setSlot ⟨slot, hslot⟩
  · intro k' slot'' hslot'' q
    simp only [Pool.setSlot, Pool.retire] at hslot'' ⊢
    by_cases hkk : k' = (s.objects h).key c
    · subst hkk
      rw [Function.update_self, Option.some.injEq] at hslot''
      rw [← hslot'', hpages]
      exact hinv.pages_live _ slot hslot q
    · rw [Function.update_of_ne hkk] at hslot''
      exact hinv.pages_live k' slot'' hslot'' q

/-- A slot that gives up a page whose objects are all free. -/
theorem drop_inv {slot slot' : Slot} {p : Nat} (hinv : Inv c exact s) (hk : k.IsSlot)
    (hslot : s.slots k = some slot) (hp : p ∈ slot.free.objs.keys)
    (hfull : (listAt slot.free.objs p).length = c.pageBytes k / c.slotSize k)
    (hpages : slot'.pages = slot.pages.erase p)
    (hobjs : slot'.free.objs = slot.free.objs.erase p) :
    ∃ s', (s.setSlot k slot').freeBlock p = .ok s' ∧ Inv c exact s' ∧ s'.fault = s.fault ∧
      s'.out = s.out ∧ s'.objects = s.objects ∧ s'.bulk = s.bulk ∧
      s'.live = s.live.erase ⟨k, p⟩ := by
  have hfree : (s.store c).free k = slot.free.objs := freeMap_slot hk hslot
  have hlive : (⟨k, p⟩ : Block Key) ∈ s.live := by
    obtain ⟨l, hl⟩ := mem_keys_iff_lookup.mp hp
    exact hinv.wf.free_home k p l (hfree ▸ hl)
  have hsplit : (listAt ((s.store c).free k) p).length = (c.carver.split k p).length := by
    rw [hfree, hfull]
    simp [Config.carver, splitMemPage]
  have hnodup : s.live.Nodup := hinv.wf.live_nodup
  have hfind := hinv.find_live hlive
  simp only [Pool.freeBlock, Pool.setSlot, hfind]
  refine ⟨_, rfl, ⟨?_, ⟨hinv.handles.nodup, hinv.handles.lt_made⟩, hinv.size_eq, ?_, ?_, ?_⟩,
    rfl, rfl, rfl, rfl, rfl⟩
  · have hwf := hinv.wf.drop hlive hsplit
    have hfreeMap : freeMap (Function.update s.slots k (some slot')) s.bulk.hash =
        Function.update (freeMap s.slots s.bulk.hash) k
          ((freeMap s.slots s.bulk.hash k).erase p) := by
      rw [freeMap_update hk, hobjs, freeMap_slot hk hslot]
    simp only [Pool.store, hfreeMap]
    exact hwf
  · exact hinv.slots_valid_setSlot ⟨slot, hslot⟩
  · intro k' slot'' hslot'' q
    refine Iff.trans ?_ hnodup.mem_erase_iff.symm
    by_cases hkk : k' = k
    · subst hkk
      simp only [Function.update_self, Option.some.injEq] at hslot''
      rw [← hslot'', hpages, Finset.mem_erase, hinv.pages_live k' slot hslot q]
      simp
    · simp only [Function.update_of_ne hkk] at hslot''
      rw [hinv.pages_live k' slot'' hslot'' q]
      simp [hkk]
  · refine hinv.frees_append fun h' hh' => ?_
    exact hinv.wf.page_ne_of_full hlive hsplit
      (Multiset.mem_map_of_mem (fun h => (s.objects h).obj c) (Multiset.mem_coe.mpr hh'))

/-- `put` in a slot keeps the invariant and does not fault. -/
theorem putSlot_inv (residentCnts : Nat) (it : IterOrder Nat) (hinv : Inv c exact s)
    (hmem : h ∈ s.out) (hk : ((s.objects h).key c).IsSlot)
    (hvalid : c.Valid ((s.objects h).key c)) :
    ∃ s', (s.retire h).putSlot ((s.objects h).key c) residentCnts
        (c.pageBytes ((s.objects h).key c) / c.slotSize ((s.objects h).key c)) (s.objects h) it =
          .ok s' ∧ PutOk c exact s h s' ∧ s'.bulk = s.bulk ∧
        ∀ b, b.key ≠ (s.objects h).key c → (b ∈ s'.live ↔ b ∈ s.live) := by
  obtain ⟨slot, hslot⟩ := (hinv.slots_valid _).mpr ⟨hk, hvalid⟩
  have hslot' : (s.retire h).slots ((s.objects h).key c) = some slot := hslot
  simp only [Pool.putSlot, hslot']
  rcases put_spec residentCnts (c.pageBytes ((s.objects h).key c) /
    c.slotSize ((s.objects h).key c)) it (s.objects h).objPv (s.objects h).objPagePv slot with
    ⟨hfreed, hpages, hobjs⟩ | ⟨p, hfreed, hp, hfull, hpages, hobjs⟩
  · rw [hfreed]
    exact ⟨_, rfl, ⟨give_inv hinv hmem hk hslot hpages hobjs, rfl, rfl, rfl⟩, rfl,
      fun _ _ => Iff.rfl⟩
  · rw [hfreed]
    have hgive : Inv c exact ((s.retire h).setSlot ((s.objects h).key c) ⟨slot.pages,
        ⟨pushBack slot.free.objs (s.objects h).objPagePv (s.objects h).objPv, 0⟩⟩) :=
      give_inv hinv hmem hk hslot rfl rfl
    obtain ⟨s', hok, hinv', hfault, hout, hobjects, hbulk, hlive⟩ :=
      drop_inv hgive hk (Function.update_self _ _ _) hp hfull hpages hobjs
    have htwice : ∀ r : Slot, ((s.retire h).setSlot ((s.objects h).key c) ⟨slot.pages,
        ⟨pushBack slot.free.objs (s.objects h).objPagePv (s.objects h).objPv, 0⟩⟩).setSlot
          ((s.objects h).key c) r = (s.retire h).setSlot ((s.objects h).key c) r := by
      intro r
      simp only [Pool.setSlot, Function.update_idem]
    rw [htwice] at hok
    refine ⟨s', hok, ⟨hinv', hfault, hout, hobjects⟩, hbulk, ?_⟩
    intro b hb
    rw [hlive]
    exact List.mem_erase_of_ne fun heq => hb (by rw [heq])

end Put

/-! ## From sizes to slots -/

section Dispatch

variable {c : Config} {exact : Key → Prop} {s : Pool} {h size : Nat}

/-- Rounding a size up to a multiple of the footstep `p`. -/
theorem roundup_slot (size : Nat) {e p : Nat} (hp : p = 2 ^ e) (he : 1 ≤ e) (he' : e ≤ 31)
    (hsize : size + p ≤ 2 ^ 32) :
    roundupToTheNextHighestMultipleOfExponent2 size e = p * ((size + p - 1) / p) ∧
      convertSlotObjSizeToSlotIdx (roundupToTheNextHighestMultipleOfExponent2 size e) p =
        (size + p - 1) / p := by
  subst hp
  have hpos : 0 < 2 ^ e := by positivity
  rw [roundup_eq he he' hsize, convertSlotObjSizeToSlotIdx, Nat.mul_div_cancel _ hpos,
    Nat.mul_comm]
  exact ⟨rfl, rfl⟩

/-- The bounds of a size that is rounded up. -/
theorem le_mul_ceil (size : Nat) {p : Nat} (hp : 0 < p) :
    size ≤ p * ((size + p - 1) / p) ∧ p * ((size + p - 1) / p) < size + p := by
  have hdiv := Nat.div_add_mod (size + p - 1) p
  have hmod := Nat.mod_lt (size + p - 1) hp
  omega

theorem ceil_le_div {n p : Nat} (hp : 0 < p) (hdvd : p ∣ n) (hle : size ≤ n) :
    (size + p - 1) / p ≤ n / p := by
  obtain ⟨m, rfl⟩ := hdvd
  rw [Nat.mul_div_cancel_left m hp, ← Nat.lt_succ_iff]
  refine Nat.div_lt_of_lt_mul ?_
  rw [Nat.mul_succ]
  omega

theorem requestKey_tiny (c : Config) (hsize : size ≤ tinyObjThreshold) :
    requestKey c size = .tiny := by
  simp [requestKey, hsize]

theorem requestKey_small (c : Config) (hlt : tinyObjThreshold < size) (hle : size ≤ c.sysPageSize) :
    requestKey c size = .small ((size + 31) / 32) ∧
      roundupToTheNextHighestMultipleOfExponent2 size smallObjSlotFootstepExponent =
        c.slotSize (.small ((size + 31) / 32)) ∧ c.Valid (.small ((size + 31) / 32)) := by
  obtain ⟨hlo, hhi⟩ := c.sysPageSize_bounds
  obtain ⟨hround, hidx⟩ := roundup_slot size (e := smallObjSlotFootstepExponent)
    (p := smallObjSlotFootstepSize) rfl (by decide) (by decide)
    (by simp only [smallObjSlotFootstepSize]; omega)
  have hdvd : 32 ∣ c.sysPageSize :=
    pow_dvd_pow 2 (show 5 ≤ c.exponent by have := c.exponent_ge; omega)
  have h1 : ¬ tinyObjThreshold ≥ size := by omega
  have h2 : bulkObjThreshold ≥ size := by simp only [bulkObjThreshold]; omega
  have h3 : ¬ c.sysPageSize < size := by omega
  refine ⟨?_, hround, ?_, ceil_le_div (by decide) hdvd hle⟩
  · simp only [requestKey, h1, h2, h3, if_true, if_false, hidx]
    rfl
  · simp only [tinyObjThreshold] at hlt
    exact Nat.div_pos (by omega) (by omega)

theorem requestKey_big (hlt : c.sysPageSize < size) (hle : size ≤ bulkObjThreshold) :
    requestKey c size = .big ((size + c.sysPageSize - 1) / c.sysPageSize) ∧
      roundupToTheNextHighestMultipleOfExponent2 size c.exponent =
        c.slotSize (.big ((size + c.sysPageSize - 1) / c.sysPageSize)) ∧
      c.Valid (.big ((size + c.sysPageSize - 1) / c.sysPageSize)) := by
  obtain ⟨hlo, hhi⟩ := c.sysPageSize_bounds
  have hge := c.exponent_ge
  have hexp := c.exponent_le
  simp only [bulkObjThreshold] at hle
  obtain ⟨hround, hidx⟩ := roundup_slot size (e := c.exponent) (p := c.sysPageSize)
    rfl (by omega) (by omega) (by omega)
  have hdvd : c.sysPageSize ∣ bulkObjThreshold := pow_dvd_pow 2 (show c.exponent ≤ 17 by omega)
  have h1 : ¬ tinyObjThreshold ≥ size := by simp only [tinyObjThreshold]; omega
  have h2 : bulkObjThreshold ≥ size := hle
  refine ⟨?_, hround, Nat.div_pos (by omega) (by omega), ceil_le_div (by omega) hdvd hle⟩
  simp only [requestKey, h1, h2, hlt, if_true, if_false, hidx]

/-- Requests up to the bulk threshold are served from one of the fixed slots. -/
theorem get_eq_getSlot (c : Config) (s : Pool) (hsize : size ≤ bulkObjThreshold)
    (objP : Option Nat) (it : IterOrder Nat) :
    ∃ type k, requestKey c size = k ∧ k.IsSlot ∧ c.Valid k ∧
      (∀ x p, (⟨type, c.slotSize k, x, p⟩ : MemObject).key c = k) ∧
      s.get c size objP it = s.getSlot type k (c.slotSize k) (c.pageBytes k) objP it := by
  obtain ⟨hlo, hhi⟩ := c.sysPageSize_bounds
  have hbulk : bulkObjThreshold ≥ size := hsize
  by_cases htiny : tinyObjThreshold ≥ size
  · refine ⟨.tiny, .tiny, requestKey_tiny c htiny, trivial, trivial, fun _ _ => rfl, ?_⟩
    simp only [Pool.get, htiny, if_true]
    rfl
  · by_cases hbig : c.sysPageSize < size
    · obtain ⟨hkey, hround, hvalid⟩ := requestKey_big hbig hsize
      refine ⟨.big, _, hkey, trivial, hvalid, ?_, ?_⟩
      · intro x p
        simp only [MemObject.key, convertSlotObjSizeToSlotIdx, Config.slotSize]
        rw [Nat.mul_div_cancel_left _ (by omega)]
      · simp only [Pool.get, htiny, hbulk, hbig, if_true, if_false, Pool.getBig, hround]
        simp only [Config.slotSize, convertSlotObjSizeToSlotIdx, Config.pageBytes]
        rw [Nat.mul_div_cancel_left _ (by omega)]
    · obtain ⟨hkey, hround, hvalid⟩ := requestKey_small c (lt_of_not_ge htiny) (le_of_not_gt hbig)
      refine ⟨.small, _, hkey, trivial, hvalid, ?_, ?_⟩
      · intro x p
        simp only [MemObject.key, convertSlotObjSizeToSlotIdx, Config.slotSize]
        rw [Nat.mul_div_cancel_left _ (by decide)]
      · simp only [Pool.get, htiny, hbulk, hbig, if_true, if_false, Pool.getSmall, hround]
        simp only [Config.slotSize, convertSlotObjSizeToSlotIdx, Config.pageBytes]
        rw [Nat.mul_div_cancel_left _ (by decide)]

/-- The number of free objects that a slot may keep: `m_one_slot_tiny_obj_resident_cnts` and
its like. -/
def Config.residentCnts (c : Config) : Key → Nat
  | .tiny => c.torc
  | .small _ => c.sorc
  | .big _ => c.borc
  | .bulk _ => c.nprocs

/-- An outstanding object is put back into the slot it was taken from. -/
theorem put_eq_putSlot (hinv : Inv c exact s) (hmem : h ∈ s.out)
    (hk : ((s.objects h).key c).IsSlot) (it : IterOrder Nat) :
    s.put c h it = (s.retire h).putSlot ((s.objects h).key c)
      (c.residentCnts ((s.objects h).key c))
      (c.pageBytes ((s.objects h).key c) / c.slotSize ((s.objects h).key c)) (s.objects h) it := by
  have hsize := hinv.size_eq h hmem
  cases htype : (s.objects h).type with
  | tiny =>
    have hkey : (s.objects h).key c = .tiny := by simp only [MemObject.key, htype]
    simp only [Pool.put, htype, hkey]
    rfl
  | small =>
    have hkey : (s.objects h).key c = .small (convertSlotObjSizeToSlotIdx
        (s.objects h).slotSize smallObjSlotFootstepSize) := by
      simp only [MemObject.key, htype]
    rw [← hsize, hkey]
    simp only [Pool.put, htype, Pool.putSmall, Config.pageBytes, Config.residentCnts, ← hkey,
      ← hsize]
  | big =>
    have hkey : (s.objects h).key c = .big (convertSlotObjSizeToSlotIdx
        (s.objects h).slotSize c.sysPageSize) := by
      simp only [MemObject.key, htype]
    rw [← hsize, hkey]
    simp only [Pool.put, htype, Pool.putBig, Config.pageBytes, Config.residentCnts, ← hkey,
      ← hsize]
  | bulk =>
    have hkey : (s.objects h).key c = .bulk (convertSlotObjSizeToSlotIdx
        (s.objects h).slotSize c.sysPageSize) := by
      simp only [MemObject.key, htype]
    rw [hkey] at hk
    exact hk.elim

theorem obj_mem_outs (hmem : h ∈ s.out) : (s.objects h).obj c ∈ (s.store c).outs :=
  Multiset.mem_map_of_mem (fun h => (s.objects h).obj c) (Multiset.mem_coe.mpr hmem)

/-- The slots that outstanding objects belong to are valid. -/
theorem Inv.key_valid (hinv : Inv c exact s) (hmem : h ∈ s.out) : c.Valid ((s.objects h).key c) :=
  (hinv.wf.fits _ (hinv.wf.out_home _ (obj_mem_outs hmem))).1

theorem get_slot {objP : Option Nat} (it : IterOrder Nat) (hinv : Inv c exact s)
    (hsize : size ≤ bulkObjThreshold) (hobjP : AllocOk c s (requestKey c size) objP) :
    ∃ r, s.get c size objP it = .ok r ∧ (requestKey c size).IsSlot ∧
      GetOk c exact s (requestKey c size) r := by
  obtain ⟨type, k, rfl, hk, hvalid, htype, hget⟩ := get_eq_getSlot c s hsize objP it
  obtain ⟨r, hr, hok⟩ := getSlot_inv it hinv hk hvalid hobjP htype
  exact ⟨r, hget.trans hr, hk, hok⟩

theorem put_slot (it : IterOrder Nat) (hinv : Inv c exact s) (hmem : h ∈ s.out)
    (hk : ((s.objects h).key c).IsSlot) :
    ∃ s', s.put c h it = .ok s' ∧ PutOk c exact s h s' ∧ s'.bulk = s.bulk ∧
      ∀ b, b.key ≠ (s.objects h).key c → (b ∈ s'.live ↔ b ∈ s.live) := by
  rw [put_eq_putSlot hinv hmem hk it]
  exact putSlot_inv _ it hinv hmem hk (hinv.key_valid hmem)

end Dispatch

/-! ## Runs of tiny, small and big objects -/

/-- Requests that are served from the fixed slots. -/
def Label.InSlots : Label → Prop
  | .get size _ _ => 1 ≤ size ∧ size ≤ bulkObjThreshold
  | .put _ _ => True
  | .recycle _ => True

/-- Two regions of `n` bytes at `x` and of `m` bytes at `y` have no byte in common. -/
def RegionsApart (x n y m : Nat) : Prop :=
  x + n ≤ y ∨ y + m ≤ x

/-- No byte of a tiny, small or big object is in two places: outstanding objects overlap
neither each other nor a free object, the free and the outstanding objects of a page
are its split, pages with free objects are tracked, and a page is freed only when
none of its objects is outstanding. -/
structure NeverTwice (c : Config) (s : Pool) : Prop where
  no_fault : s.fault = none
  out_nodup : s.out.Nodup
  out_apart : ∀ h ∈ s.out, ∀ h' ∈ s.out, h ≠ h' →
    RegionsApart (s.objects h).objPv (s.objects h).slotSize (s.objects h').objPv
      (s.objects h').slotSize
  out_free_apart : ∀ h ∈ s.out, ∀ k slot p l, s.slots k = some slot →
    slot.free.objs.lookup p = some l → ∀ y ∈ l,
      RegionsApart (s.objects h).objPv (s.objects h).slotSize y (c.slotSize k)
  page_whole : ∀ k slot, s.slots k = some slot → ∀ p ∈ slot.pages,
    (listAt slot.free.objs p ++
        (s.outstanding.filter fun o => o.key c = k ∧ o.objPagePv = p).map MemObject.objPv).Perm
      (splitMemPage (c.slotSize k) p (c.pageBytes k)) ∧
    (splitMemPage (c.slotSize k) p (c.pageBytes k)).Nodup
  key_tracked : ∀ k slot p l, s.slots k = some slot → slot.free.objs.lookup p = some l →
    p ∈ slot.pages ∧ l ≠ []
  freed_idle : ∀ r ∈ s.frees, ∀ o ∈ r.outstanding, o.objPagePv ≠ r.page

section Runs

variable {c : Config} {exact : Key → Prop} {s s' : Pool}

/-- The invariant of runs without bulk objects. -/
structure SlotsInv (c : Config) (s : Pool) : Prop where
  inv : Inv c Key.IsSlot s
  no_fault : s.fault = none
  out_slot : ∀ h ∈ s.out, ((s.objects h).key c).IsSlot

theorem outsAt_outs (s : Pool) (k : Key) (p : Nat) :
    outsAt (s.outs c) k p =
      ((s.outstanding.filter fun o => o.key c = k ∧ o.objPagePv = p).map MemObject.objPv :
        List Nat) := by
  simp only [outsAt, Pool.outs, Pool.outstanding, Multiset.map_coe, Multiset.filter_coe,
    List.filter_map, List.map_map]
  rfl

/-- The objects of two wrappers are two of the outstanding objects. -/
theorem obj_mem_outs_erase {h h' : Nat} (hmem : h ∈ s.out) (hmem' : h' ∈ s.out)
    (hne : h ≠ h') : (s.objects h').obj c ∈ (s.store c).outs.erase ((s.objects h).obj c) := by
  have hrest : h' ∈ (s.retire h).out := (List.mem_erase_of_ne (Ne.symm hne)).mpr hmem'
  have herase : (s.retire h).outs c = (s.store c).outs.erase ((s.objects h).obj c) :=
    retire_outs c hmem
  rw [← herase]
  exact obj_mem_outs hrest

theorem SlotsInv.neverTwice (h : SlotsInv c s) : NeverTwice c s := by
  have hinv := h.inv
  have hslot : ∀ k slot, s.slots k = some slot →
      k.IsSlot ∧ (s.store c).free k = slot.free.objs := by
    intro k slot hk
    have hvalid := (hinv.slots_valid k).mp ⟨slot, hk⟩
    exact ⟨hvalid.1, freeMap_slot hvalid.1 hk⟩
  refine ⟨h.no_fault, ?_, ?_, ?_, ?_, ?_, hinv.frees_ok⟩
  · exact (List.nodup_append.mp (List.nodup_append.mp hinv.handles.nodup).1).1
  · intro h₁ hmem₁ h₂ hmem₂ hne
    rw [hinv.size_eq h₁ hmem₁, hinv.size_eq h₂ hmem₂]
    exact hinv.wf.out_apart (obj_mem_outs hmem₁) (obj_mem_outs_erase hmem₁ hmem₂ hne)
  · intro h₁ hmem₁ k slot p l hk hl y hy
    rw [hinv.size_eq h₁ hmem₁]
    exact hinv.wf.out_free_apart (obj_mem_outs hmem₁) ((hslot k slot hk).2 ▸ hl) hy
  · intro k slot hk p hp
    have hlive := (hinv.pages_live k slot hk p).mp hp
    have hwhole := hinv.wf.whole ⟨k, p⟩ hlive (hslot k slot hk).1
    simp only [Store.content, (hslot k slot hk).2] at hwhole
    refine ⟨?_, (hinv.wf.fits ⟨k, p⟩ hlive).nodup⟩
    rw [← Multiset.coe_eq_coe, ← Multiset.coe_add, ← outsAt_outs]
    exact hwhole
  · intro k slot p l hk hl
    rw [← (hslot k slot hk).2] at hl
    exact ⟨(hinv.pages_live k slot hk p).mpr (hinv.wf.free_home k p l hl),
      hinv.wf.free_ne_nil k p l hl⟩

/-- Joining the free wrappers changes nothing else. -/
theorem recycle_inv {h : Nat} (hinv : Inv c exact s) (hmem : h ∈ s.retired) :
    Inv c exact (s.recycle h) :=
  ⟨hinv.wf, recycle_handles hinv.handles hmem, hinv.size_eq, hinv.slots_valid, hinv.pages_live,
    hinv.frees_ok⟩

theorem step_slotsInv {a : Label} (h : SlotsInv c s) (ha : a.InSlots)
    (hstep : step c s a = some s') : SlotsInv c s' := by
  cases a with
  | get size objP it =>
    obtain ⟨-, hobjP, rfl⟩ := step_get hstep
    obtain ⟨r, hget, hk, hok⟩ := get_slot it h.inv ha.2 hobjP
    rw [hget]
    refine ⟨hok.inv, hok.fault_eq.trans h.no_fault, ?_⟩
    intro h' hmem
    rcases hok.out h' hmem with heq | ⟨hmem, heq⟩
    · exact heq ▸ hk
    · exact heq ▸ h.out_slot h' hmem
  | put h' it =>
    obtain ⟨-, hmem, rfl⟩ := step_put hstep
    have hk := h.out_slot h' hmem
    obtain ⟨s'', hput, hok, -⟩ := put_slot it h.inv hmem hk
    rw [hput]
    refine ⟨hok.inv, hok.fault_eq.trans h.no_fault, ?_⟩
    intro h₂ hmem₂
    have hmem₂' : h₂ ∈ s.out := List.mem_of_mem_erase (hok.out_eq ▸ hmem₂)
    show ((s''.objects h₂).key c).IsSlot
    rw [hok.objects_eq]
    exact h.out_slot h₂ hmem₂'
  | recycle h' =>
    obtain ⟨-, hmem, rfl⟩ := step_recycle hstep
    exact ⟨recycle_inv h.inv hmem, h.no_fault, h.out_slot⟩

/-- In every interleaving of `Get` for up to 131072 bytes and of `Put`, for every page
size and all resident counts, no byte is handed out twice. -/
theorem slots_never_hand_out_twice (c : Config) (garbage : Nat) (labels : List Label)
    (hlabels : ∀ a ∈ labels, a.InSlots) :
    Runs.Always (step c) (NeverTwice c) (Pool.init c garbage) labels := by
  have hinit : SlotsInv c (Pool.init c garbage) :=
    ⟨init_inv c _ garbage, rfl, by simp [Pool.init]⟩
  have halways : Runs.Always (step c) (SlotsInv c) (Pool.init c garbage) labels :=
    Runs.always_of_forall (fun s a s' hs ha hstep => step_slotsInv hs ha hstep) hinit hlabels
  exact halways.mono fun s hs => hs.neverTwice

/-- Two tiny objects and a small one, of which one is put back and reused. -/
theorem slots_never_hand_out_twice_reuse :
    let labels : List Label := [.get 10 (some 65536) .listed, .get 100 (some 131072) .listed,
      .put 0 .listed, .recycle 0, .get 16 none .listed]
    (Runs.run (step Config.default) (Pool.init Config.default 7) labels).isSome = true ∧
      Runs.Always (step Config.default) (NeverTwice Config.default)
        (Pool.init Config.default 7) labels := by
  refine ⟨by decide +kernel, ?_⟩
  refine slots_never_hand_out_twice Config.default 7 _ ?_
  simp [Label.InSlots, bulkObjThreshold]

end Runs

end MemPool
end CCraft
