import CCraft.Lib.PageLists
import Mathlib.Data.Multiset.Basic

/-!
# Stores that carve blocks into objects

A store obtains blocks of memory, splits each block into objects of one size and
hands the objects out.  Blocks belong to classes; a class fixes the size of its
blocks, the size of its objects and the way a block is split.  An object of a
live block is either listed as free under its block or handed out; in a class
that never forgets objects the two together are the whole block.

Main results:

- Theorems {lit}`Wf.alloc`, {lit}`Wf.take`, {lit}`Wf.give`, {lit}`Wf.drop`,
  {lit}`Wf.restrict`, {lit}`Wf.discard`: the operations of a store keep it well formed.
- Theorem {lit}`Wf.out_apart` and {lit}`Wf.out_free_apart`: in a well-formed store
  an object that is handed out overlaps no other object that is handed out and no
  free one.
- Theorem {lit}`Wf.total_le`: the free objects of a class fit into the address
  space.
-/

namespace Slab

open PageMap

/-! ## Splitting blocks -/

/-- The classes of a store.  Blocks of class `k` have `size k` bytes, end below
`limit`, and are split into objects of `objSize k` bytes that lie in order inside
the block without touching each other. -/
structure Carver (κ : Type*) where
  valid : κ → Prop
  limit : Nat
  size : κ → Nat
  objSize : κ → Nat
  split : κ → Nat → List Nat
  objSize_pos : ∀ k, valid k → 0 < objSize k
  split_ne_nil : ∀ k p, valid k → split k p ≠ []
  split_spaced : ∀ k p, valid k → p + size k ≤ limit →
    (split k p).Pairwise fun x y => x + objSize k ≤ y
  split_inside : ∀ k p x, valid k → p + size k ≤ limit → x ∈ split k p →
    p ≤ x ∧ x + objSize k ≤ p + size k

/-- A block of a class at an address. -/
structure Block (κ : Type*) where
  key : κ
  addr : Nat
deriving DecidableEq, Repr

/-- An object of a class that is handed out, with the address of its block. -/
structure Obj (κ : Type*) where
  key : κ
  page : Nat
  ptr : Nat
deriving DecidableEq, Repr

/-- A store: its live blocks, the free objects of each class listed under their
blocks, and the objects that are handed out. -/
structure Store (κ : Type*) where
  live : List (Block κ)
  free : κ → PageMap Nat Nat
  outs : Multiset (Obj κ)

variable {κ : Type*}

/-- The block fits into the address space. -/
def Carver.Fits (C : Carver κ) (b : Block κ) : Prop :=
  C.valid b.key ∧ b.addr + C.size b.key ≤ C.limit

/-- Two blocks have no byte in common. -/
def Carver.Apart (C : Carver κ) (b b' : Block κ) : Prop :=
  b.addr + C.size b.key ≤ b'.addr ∨ b'.addr + C.size b'.key ≤ b.addr

/-- Two objects have no byte in common. -/
def Carver.ObjApart (C : Carver κ) (k : κ) (x : Nat) (k' : κ) (x' : Nat) : Prop :=
  x + C.objSize k ≤ x' ∨ x' + C.objSize k' ≤ x

section Carver

variable {C : Carver κ} {b b' : Block κ} {x x' : Nat}

instance Carver.apart_symm (C : Carver κ) : Std.Symm C.Apart :=
  ⟨fun _ _ h => h.symm⟩

/-- A block that fits is not empty. -/
theorem Carver.Fits.size_pos (h : C.Fits b) : 0 < C.size b.key := by
  obtain ⟨x, hx⟩ := List.exists_mem_of_ne_nil _ (C.split_ne_nil b.key b.addr h.1)
  have hin := C.split_inside b.key b.addr x h.1 h.2 hx
  have hpos := C.objSize_pos b.key h.1
  omega

theorem Carver.Fits.nodup (h : C.Fits b) : (C.split b.key b.addr).Nodup := by
  have hpos := C.objSize_pos b.key h.1
  refine (C.split_spaced b.key b.addr h.1 h.2).imp ?_
  intro x y hxy
  omega

theorem Carver.Fits.ne_of_apart (h : C.Fits b) (hapart : C.Apart b b') : b ≠ b' := by
  rintro rfl
  have hpos := h.size_pos
  rcases hapart with h | h <;> omega

/-- Two objects of one block that are not the same have no byte in common. -/
theorem Carver.Fits.objApart_of_ne (h : C.Fits b) (hx : x ∈ C.split b.key b.addr)
    (hx' : x' ∈ C.split b.key b.addr) (hne : x ≠ x') : C.ObjApart b.key x b.key x' := by
  have hpair : (C.split b.key b.addr).Pairwise fun x y => C.ObjApart b.key x b.key y :=
    (C.split_spaced b.key b.addr h.1 h.2).imp fun h => Or.inl h
  have : Std.Symm fun x y => C.ObjApart b.key x b.key y := ⟨fun _ _ h => h.symm⟩
  exact hpair.forall hx hx' hne

/-- Objects of blocks that have no byte in common have none in common. -/
theorem Carver.Fits.objApart_of_apart (h : C.Fits b) (h' : C.Fits b') (hapart : C.Apart b b')
    (hx : x ∈ C.split b.key b.addr) (hx' : x' ∈ C.split b'.key b'.addr) :
    C.ObjApart b.key x b'.key x' := by
  have hin := C.split_inside b.key b.addr x h.1 h.2 hx
  have hin' := C.split_inside b'.key b'.addr x' h'.1 h'.2 hx'
  rcases hapart with hlt | hlt
  · exact Or.inl (by omega)
  · exact Or.inr (by omega)

/-- A block apart from the blocks of a list is not one of them. -/
theorem Carver.Fits.not_mem_of_apart {live : List (Block κ)} (h : C.Fits b)
    (hfresh : ∀ b' ∈ live, C.Apart b b') : b ∉ live :=
  fun hb => h.ne_of_apart (hfresh b hb) rfl

end Carver

/-- Objects that lie in order inside a range take no more room than the range. -/
theorem length_mul_le_of_spaced {l : List Nat} {d e a : Nat} (hae : a ≤ e)
    (hspaced : l.Pairwise fun x y => x + d ≤ y) (hin : ∀ x ∈ l, a ≤ x ∧ x + d ≤ e) :
    l.length * d ≤ e - a := by
  induction l generalizing a with
  | nil => simp
  | cons x l ih =>
    obtain ⟨hlt, hrest⟩ := List.pairwise_cons.mp hspaced
    have hx := hin x (by simp)
    have htail := ih hx.2 hrest fun y hy => ⟨hlt y hy, (hin y (by simp [hy])).2⟩
    rw [List.length_cons, Nat.succ_mul]
    omega

/-! ## Well-formed stores -/

section Store

variable [DecidableEq κ]

/-- The objects of a block that are handed out. -/
def outsAt (outs : Multiset (Obj κ)) (k : κ) (p : Nat) : Multiset Nat :=
  (outs.filter fun o => o.key = k ∧ o.page = p).map Obj.ptr

/-- The objects of a block that the store knows of. -/
def Store.content (S : Store κ) (k : κ) (p : Nat) : Multiset Nat :=
  (listAt (S.free k) p : Multiset Nat) + outsAt S.outs k p

/-- The invariant of a store; the classes in `exact` never forget an object. -/
structure Store.Wf (C : Carver κ) (exact : κ → Prop) (S : Store κ) : Prop where
  apart : S.live.Pairwise C.Apart
  fits : ∀ b ∈ S.live, C.Fits b
  free_ne_nil : ∀ k p l, (S.free k).lookup p = some l → l ≠ []
  free_home : ∀ k p l, (S.free k).lookup p = some l → (⟨k, p⟩ : Block κ) ∈ S.live
  out_home : ∀ o ∈ S.outs, (⟨o.key, o.page⟩ : Block κ) ∈ S.live
  carved : ∀ b ∈ S.live, S.content b.key b.addr ≤ (C.split b.key b.addr : Multiset Nat)
  whole : ∀ b ∈ S.live, exact b.key →
    S.content b.key b.addr = (C.split b.key b.addr : Multiset Nat)

/-- The empty store. -/
def Store.empty : Store κ :=
  ⟨[], fun _ => ∅, 0⟩

/-- A new block, split into free objects. -/
def Store.alloc (S : Store κ) (C : Carver κ) (b : Block κ) : Store κ :=
  { S with
    live := b :: S.live
    free := Function.update S.free b.key
      ((S.free b.key).insert b.addr (C.split b.key b.addr)) }

/-- An object is handed out; `m` is what is left of the free objects of its class. -/
def Store.take (S : Store κ) (o : Obj κ) (m : PageMap Nat Nat) : Store κ :=
  { S with free := Function.update S.free o.key m, outs := o ::ₘ S.outs }

/-- An object is given back. -/
def Store.give (S : Store κ) (o : Obj κ) : Store κ :=
  { S with
    free := Function.update S.free o.key (pushBack (S.free o.key) o.page o.ptr)
    outs := S.outs.erase o }

/-- A block is given up together with the objects listed under it. -/
def Store.drop (S : Store κ) (b : Block κ) : Store κ :=
  { S with
    live := S.live.erase b
    free := Function.update S.free b.key ((S.free b.key).erase b.addr) }

/-- An object is given back and its block is given up with it. -/
def Store.discard (S : Store κ) (o : Obj κ) : Store κ :=
  { S with live := S.live.erase ⟨o.key, o.page⟩, outs := S.outs.erase o }

variable {C : Carver κ} {exact : κ → Prop} {S : Store κ} {b b' : Block κ} {o o' : Obj κ}
  {k : κ} {p : Nat} {m : PageMap Nat Nat}

theorem outsAt_cons (outs : Multiset (Obj κ)) (o : Obj κ) :
    outsAt (o ::ₘ outs) k p =
      if o.key = k ∧ o.page = p then o.ptr ::ₘ outsAt outs k p else outsAt outs k p := by
  unfold outsAt
  split_ifs with h
  · simp [h]
  · simp [h]

theorem Store.wf_empty : (Store.empty : Store κ).Wf C exact := by
  refine ⟨List.Pairwise.nil, ?_, ?_, ?_, ?_, ?_, ?_⟩ <;> simp [Store.empty]

namespace Store.Wf

/-- Two live blocks at one address are the same. -/
theorem eq_of_addr (h : S.Wf C exact) (hb : b ∈ S.live) (hb' : b' ∈ S.live)
    (haddr : b.addr = b'.addr) : b = b' := by
  by_contra hne
  have hpos := (h.fits b hb).size_pos
  have hpos' := (h.fits b' hb').size_pos
  rcases h.apart.forall hb hb' hne with hlt | hlt <;> omega

/-- No object is handed out from a block that is not live. -/
theorem outsAt_eq_zero (h : S.Wf C exact) (hb : b ∉ S.live) : outsAt S.outs b.key b.addr = 0 := by
  unfold outsAt
  rw [Multiset.map_eq_zero, Multiset.filter_eq_nil]
  rintro o ho ⟨hkey, hpage⟩
  have hhome := h.out_home o ho
  rw [hkey, hpage] at hhome
  exact hb hhome

/-- What a handed out object is: one of the objects of its live block. -/
theorem ptr_mem_split (h : S.Wf C exact) (ho : o ∈ S.outs) : o.ptr ∈ C.split o.key o.page := by
  have hmem : o.ptr ∈ outsAt S.outs o.key o.page :=
    Multiset.mem_map_of_mem _ (Multiset.mem_filter.mpr ⟨ho, rfl, rfl⟩)
  have hle := h.carved _ (h.out_home o ho)
  exact Multiset.mem_coe.mp (Multiset.mem_of_le hle (Multiset.mem_add.mpr (.inr hmem)))

theorem free_mem_split (h : S.Wf C exact) {l : List Nat} {y : Nat}
    (hl : (S.free k).lookup p = some l) (hy : y ∈ l) : y ∈ C.split k p := by
  have hle := h.carved _ (h.free_home k p l hl)
  have hmem : y ∈ S.content k p := by
    rw [Store.content, listAt_of_lookup hl]
    exact Multiset.mem_add.mpr (.inl (Multiset.mem_coe.mpr hy))
  exact Multiset.mem_coe.mp (Multiset.mem_of_le hle hmem)

/-! ## The operations -/

/-- A new block that is apart from the live ones. -/
theorem alloc (h : S.Wf C exact) (hfits : C.Fits b) (hfresh : ∀ b' ∈ S.live, C.Apart b b') :
    (S.alloc C b).Wf C exact := by
  have hnew := hfits.not_mem_of_apart hfresh
  have hlookup : ∀ k p l, ((S.alloc C b).free k).lookup p = some l →
      (k = b.key ∧ p = b.addr ∧ l = C.split b.key b.addr) ∨ (S.free k).lookup p = some l := by
    intro k p l hl
    simp only [Store.alloc] at hl
    by_cases hk : k = b.key
    · subst hk
      rw [Function.update_self, lookup_insert_eq] at hl
      split_ifs at hl with hp
      · exact .inl ⟨rfl, hp, (Option.some.inj hl).symm⟩
      · exact .inr hl
    · rw [Function.update_of_ne hk] at hl
      exact .inr hl
  have hself : (S.alloc C b).content b.key b.addr = (C.split b.key b.addr : Multiset Nat) := by
    simp only [Store.content, Store.alloc, Function.update_self, listAt_insert, if_true,
      h.outsAt_eq_zero hnew, add_zero]
  have hother : ∀ b' ∈ S.live, (S.alloc C b).content b'.key b'.addr =
      S.content b'.key b'.addr := by
    intro b' hb'
    have hne : b' ≠ b := fun heq => hnew (heq ▸ hb')
    simp only [Store.content, Store.alloc]
    by_cases hk : b'.key = b.key
    · have hp : b'.addr ≠ b.addr := fun haddr => hne (by cases b; cases b'; simp_all)
      rw [hk, Function.update_self, listAt_insert, if_neg hp]
    · rw [Function.update_of_ne hk]
  refine ⟨List.Pairwise.cons hfresh h.apart, ?_, ?_, ?_, ?_, ?_, ?_⟩
  · intro b' hb'
    rcases List.mem_cons.mp hb' with rfl | hb'
    · exact hfits
    · exact h.fits b' hb'
  · intro k p l hl
    rcases hlookup k p l hl with ⟨rfl, rfl, rfl⟩ | hl
    · exact C.split_ne_nil _ _ hfits.1
    · exact h.free_ne_nil k p l hl
  · intro k p l hl
    rcases hlookup k p l hl with ⟨rfl, rfl, rfl⟩ | hl
    · exact List.mem_cons_self
    · exact List.mem_cons_of_mem _ (h.free_home k p l hl)
  · intro o ho
    exact List.mem_cons_of_mem _ (h.out_home o ho)
  · intro b' hb'
    rcases List.mem_cons.mp hb' with rfl | hb'
    · exact hself.le
    · rw [hother b' hb']
      exact h.carved b' hb'
  · intro b' hb' hexact
    rcases List.mem_cons.mp hb' with rfl | hb'
    · exact hself
    · rw [hother b' hb']
      exact h.whole b' hb' hexact

/-- Moving objects between the free lists and the outside keeps a store well formed
when every block keeps its content. -/
theorem of_content {S' : Store κ} (h : S.Wf C exact) (hlive : S'.live = S.live)
    (hfree : ∀ k p l, (S'.free k).lookup p = some l → l ≠ [] ∧ (⟨k, p⟩ : Block κ) ∈ S.live)
    (hout : ∀ o ∈ S'.outs, (⟨o.key, o.page⟩ : Block κ) ∈ S.live)
    (hcontent : ∀ b ∈ S.live, S'.content b.key b.addr = S.content b.key b.addr) :
    S'.Wf C exact := by
  refine ⟨hlive ▸ h.apart, hlive ▸ h.fits, ?_, ?_, hlive ▸ hout, ?_, ?_⟩
  · exact fun k p l hl => (hfree k p l hl).1
  · exact fun k p l hl => hlive ▸ (hfree k p l hl).2
  · intro b hb
    rw [hlive] at hb
    rw [hcontent b hb]
    exact h.carved b hb
  · intro b hb hexact
    rw [hlive] at hb
    rw [hcontent b hb]
    exact h.whole b hb hexact

/-- The object at the front of a page is handed out. -/
theorem take (h : S.Wf C exact) (hpop : popFront (S.free o.key) o.page = some (o.ptr, m)) :
    (S.take o m).Wf C exact := by
  obtain ⟨hfront, hlookup⟩ := popFront_eq_some hpop
  obtain ⟨hat, hrest⟩ := listAt_popFront hpop
  have hhome : (⟨o.key, o.page⟩ : Block κ) ∈ S.live := h.free_home _ _ _ hfront
  refine h.of_content rfl ?_ ?_ ?_
  · intro k p l hl
    simp only [Store.take] at hl
    by_cases hk : k = o.key
    · subst hk
      rw [Function.update_self, hlookup p] at hl
      split_ifs at hl with hp hnil
      · subst hp
        exact ⟨fun hl' => hnil (by rw [Option.some.inj hl, hl']), hhome⟩
      · exact ⟨h.free_ne_nil _ _ _ hl, h.free_home _ _ _ hl⟩
    · rw [Function.update_of_ne hk] at hl
      exact ⟨h.free_ne_nil _ _ _ hl, h.free_home _ _ _ hl⟩
  · intro o' ho'
    rcases Multiset.mem_cons.mp ho' with rfl | ho'
    · exact hhome
    · exact h.out_home o' ho'
  · intro b _
    simp only [Store.content, Store.take, outsAt_cons]
    by_cases hk : b.key = o.key
    · rw [hk, Function.update_self]
      by_cases hp : b.addr = o.page
      · rw [hp, if_pos ⟨rfl, rfl⟩, hat, ← Multiset.cons_coe, Multiset.add_cons,
          Multiset.cons_add]
      · rw [if_neg fun hand => hp hand.2.symm, hrest _ hp]
    · rw [Function.update_of_ne hk, if_neg fun hand => hk hand.1.symm]

/-- An object that is handed out is given back. -/
theorem give (h : S.Wf C exact) (ho : o ∈ S.outs) : (S.give o).Wf C exact := by
  have hhome := h.out_home o ho
  refine h.of_content rfl ?_ ?_ ?_
  · intro k p l hl
    simp only [Store.give] at hl
    by_cases hk : k = o.key
    · subst hk
      rw [Function.update_self, pushBack, lookup_insert_eq] at hl
      split_ifs at hl with hp
      · subst hp
        exact ⟨by simp [← Option.some.inj hl], hhome⟩
      · exact ⟨h.free_ne_nil _ _ _ hl, h.free_home _ _ _ hl⟩
    · rw [Function.update_of_ne hk] at hl
      exact ⟨h.free_ne_nil _ _ _ hl, h.free_home _ _ _ hl⟩
  · exact fun o' ho' => h.out_home o' (Multiset.mem_of_mem_erase ho')
  · intro b _
    have hsplit : outsAt S.outs b.key b.addr =
        if o.key = b.key ∧ o.page = b.addr then o.ptr ::ₘ outsAt (S.outs.erase o) b.key b.addr
        else outsAt (S.outs.erase o) b.key b.addr := by
      rw [← outsAt_cons, Multiset.cons_erase ho]
    simp only [Store.content, Store.give, hsplit]
    by_cases hk : b.key = o.key
    · rw [hk, Function.update_self]
      by_cases hp : b.addr = o.page
      · rw [hp, if_pos ⟨rfl, rfl⟩, listAt_pushBack, if_pos rfl, ← Multiset.coe_add,
          Multiset.coe_singleton, Multiset.add_cons, ← Multiset.singleton_add]
        abel
      · rw [if_neg fun hand => hp hand.2.symm, listAt_pushBack, if_neg hp]
    · rw [Function.update_of_ne hk, if_neg fun hand => hk hand.1.symm]

theorem listAt_le (h : S.Wf C exact) (hb : b ∈ S.live) :
    (listAt (S.free b.key) b.addr).length ≤ (C.split b.key b.addr).length := by
  have hcard := Multiset.card_le_card (h.carved b hb)
  simp only [Store.content, Multiset.card_add, Multiset.coe_card] at hcard
  omega

/-- In a class that forgets nothing and of which nothing is handed out, all blocks are full. -/
theorem full_of_idle (h : S.Wf C exact) (hb : b ∈ S.live) (hexact : exact b.key)
    (hidle : ∀ o ∈ S.outs, o.key ≠ b.key) :
    (listAt (S.free b.key) b.addr).length = (C.split b.key b.addr).length := by
  have hnone : outsAt S.outs b.key b.addr = 0 := by
    unfold outsAt
    rw [Multiset.map_eq_zero, Multiset.filter_eq_nil]
    rintro o ho ⟨hkey, -⟩
    exact hidle o ho hkey
  have hwhole := congrArg Multiset.card (h.whole b hb hexact)
  simpa [Store.content, hnone] using hwhole

/-- When every object of a block is listed as free, none of them is handed out. -/
theorem outsAt_of_full (h : S.Wf C exact) (hb : b ∈ S.live)
    (hfull : (listAt (S.free b.key) b.addr).length = (C.split b.key b.addr).length) :
    outsAt S.outs b.key b.addr = 0 := by
  have hcard := Multiset.card_le_card (h.carved b hb)
  simp only [Store.content, Multiset.card_add, Multiset.coe_card] at hcard
  exact Multiset.card_eq_zero.mp (by omega)

theorem page_ne_of_full (h : S.Wf C exact) (hb : b ∈ S.live)
    (hfull : (listAt (S.free b.key) b.addr).length = (C.split b.key b.addr).length)
    (ho : o ∈ S.outs) : o.page ≠ b.addr := by
  intro hpage
  have heq : (⟨o.key, o.page⟩ : Block κ) = b := h.eq_of_addr (h.out_home o ho) hb hpage
  have hmem : o.ptr ∈ outsAt S.outs o.key o.page :=
    Multiset.mem_map_of_mem _ (Multiset.mem_filter.mpr ⟨ho, rfl, rfl⟩)
  have hzero := h.outsAt_of_full hb hfull
  rw [← heq] at hzero
  simp only at hzero
  rw [hzero] at hmem
  exact Multiset.notMem_zero _ hmem

theorem live_nodup (h : S.Wf C exact) : S.live.Nodup := by
  have hall : S.live.Pairwise fun b b' => C.Fits b ∧ C.Apart b b' :=
    h.apart.imp_of_mem fun hb _ hapart => ⟨h.fits _ hb, hapart⟩
  exact hall.imp fun hand => hand.1.ne_of_apart hand.2

/-- A block whose objects are all free is given up. -/
theorem drop (h : S.Wf C exact) (hb : b ∈ S.live)
    (hfull : (listAt (S.free b.key) b.addr).length = (C.split b.key b.addr).length) :
    (S.drop b).Wf C exact := by
  have hmem : ∀ {b'}, b' ∈ S.live.erase b ↔ b' ≠ b ∧ b' ∈ S.live := by
    intro b'
    exact h.live_nodup.mem_erase_iff
  have hlookup : ∀ k p l, ((S.drop b).free k).lookup p = some l →
      (⟨k, p⟩ : Block κ) ≠ b ∧ (S.free k).lookup p = some l := by
    intro k p l hl
    simp only [Store.drop] at hl
    by_cases hk : k = b.key
    · subst hk
      rw [Function.update_self, lookup_erase_eq] at hl
      split_ifs at hl with hp
      exact ⟨fun heq => hp (by rw [← heq]), hl⟩
    · rw [Function.update_of_ne hk] at hl
      exact ⟨fun heq => hk (by rw [← heq]), hl⟩
  have hcontent : ∀ b' ∈ S.live.erase b,
      (S.drop b).content b'.key b'.addr = S.content b'.key b'.addr := by
    intro b' hb'
    have hne := (hmem.mp hb').1
    simp only [Store.content, Store.drop]
    by_cases hk : b'.key = b.key
    · have hp : b'.addr ≠ b.addr := fun haddr => hne (by cases b; cases b'; simp_all)
      rw [hk, Function.update_self, listAt_erase, if_neg hp]
    · rw [Function.update_of_ne hk]
  refine ⟨h.apart.sublist List.erase_sublist, ?_, ?_, ?_, ?_, ?_, ?_⟩
  · exact fun b' hb' => h.fits b' (hmem.mp hb').2
  · exact fun k p l hl => h.free_ne_nil k p l (hlookup k p l hl).2
  · intro k p l hl
    obtain ⟨hne, hl⟩ := hlookup k p l hl
    exact hmem.mpr ⟨hne, h.free_home k p l hl⟩
  · intro o ho
    refine hmem.mpr ⟨?_, h.out_home o ho⟩
    intro heq
    exact h.page_ne_of_full hb hfull ho (by rw [← heq])
  · intro b' hb'
    rw [hcontent b' hb']
    exact h.carved b' (hmem.mp hb').2
  · intro b' hb' hexact
    rw [hcontent b' hb']
    exact h.whole b' (hmem.mp hb').2 hexact

/-- Classes that may forget objects lose some of their free pages; the others keep
theirs. -/
theorem restrict {f : κ → PageMap Nat Nat} (h : S.Wf C exact)
    (hsub : ∀ k p l, (f k).lookup p = some l → (S.free k).lookup p = some l)
    (hexact : ∀ k, exact k → ∀ p, (f k).lookup p = (S.free k).lookup p) :
    ({ S with free := f } : Store κ).Wf C exact := by
  have hle : ∀ k p, (listAt (f k) p : Multiset Nat) ≤ listAt (S.free k) p := by
    intro k p
    cases hl : (f k).lookup p with
    | none =>
      rw [listAt_of_lookup_none hl]
      exact Multiset.zero_le _
    | some l => rw [listAt_of_lookup hl, listAt_of_lookup (hsub k p l hl)]
  refine ⟨h.apart, h.fits, ?_, ?_, h.out_home, ?_, ?_⟩
  · exact fun k p l hl => h.free_ne_nil k p l (hsub k p l hl)
  · exact fun k p l hl => h.free_home k p l (hsub k p l hl)
  · intro b hb
    exact le_trans (Multiset.add_le_add_right (hle _ _)) (h.carved b hb)
  · intro b hb hex
    rw [← h.whole b hb hex]
    simp only [Store.content, listAt, hexact b.key hex b.addr]

/-- The only object of a block is handed out, so the block is full once it is back. -/
theorem full_of_single (h : S.Wf C exact) (ho : o ∈ S.outs)
    (hone : (C.split o.key o.page).length = 1) :
    listAt (S.free o.key) o.page = [] ∧
      (listAt ((S.give o).free o.key) o.page).length = (C.split o.key o.page).length := by
  have hcard := Multiset.card_le_card (h.carved _ (h.out_home o ho))
  rw [Multiset.coe_card, hone, Store.content, Multiset.card_add, Multiset.coe_card,
    ← Multiset.cons_erase ho, outsAt_cons, if_pos ⟨rfl, rfl⟩, Multiset.card_cons] at hcard
  simp only at hcard
  have hnil : listAt (S.free o.key) o.page = [] := List.length_eq_zero_iff.mp (by omega)
  refine ⟨hnil, ?_⟩
  simp only [Store.give, Function.update_self, listAt_pushBack, if_true, hnil, hone]
  rfl

/-- The only object of a block is given back together with its block. -/
theorem discard (h : S.Wf C exact) (ho : o ∈ S.outs) (hone : (C.split o.key o.page).length = 1) :
    (S.discard o).Wf C exact := by
  obtain ⟨hnil, hfull⟩ := h.full_of_single ho hone
  have hdrop := (h.give ho).drop (b := ⟨o.key, o.page⟩) (h.out_home o ho) hfull
  have hlookup : ∀ k p, (S.free k).lookup p =
      (((S.give o).drop ⟨o.key, o.page⟩).free k).lookup p := by
    intro k p
    simp only [Store.drop, Store.give]
    by_cases hk : k = o.key
    · subst hk
      rw [Function.update_self, Function.update_self, lookup_erase_eq, pushBack,
        lookup_insert_eq]
      by_cases hp : p = o.page
      · rw [if_pos hp, hp]
        cases hl : (S.free o.key).lookup o.page with
        | none => rfl
        | some l => exact absurd ((listAt_of_lookup hl).symm.trans hnil) (h.free_ne_nil _ _ _ hl)
      · rw [if_neg hp, if_neg hp]
    · rw [Function.update_of_ne hk, Function.update_of_ne hk]
  exact hdrop.restrict (fun k p l hl => (hlookup k p).symm.trans hl) fun k _ p => hlookup k p

theorem page_ne_of_single (h : S.Wf C exact) (ho : o ∈ S.outs)
    (hone : (C.split o.key o.page).length = 1) (ho' : o' ∈ S.outs.erase o) : o'.page ≠ o.page :=
  (h.give ho).page_ne_of_full (b := ⟨o.key, o.page⟩) (h.out_home o ho)
    (h.full_of_single ho hone).2 ho'

/-! ## No byte is handed out twice -/

/-- Two objects of live blocks that are not the same have no byte in common. -/
theorem objApart (h : S.Wf C exact) (hb : b ∈ S.live) (hb' : b' ∈ S.live) {x x' : Nat}
    (hx : x ∈ C.split b.key b.addr) (hx' : x' ∈ C.split b'.key b'.addr)
    (hne : b = b' → x ≠ x') : C.ObjApart b.key x b'.key x' := by
  by_cases heq : b = b'
  · subst heq
    exact (h.fits b hb).objApart_of_ne hx hx' (hne rfl)
  · exact (h.fits b hb).objApart_of_apart (h.fits b' hb') (h.apart.forall hb hb' heq) hx hx'

/-- The objects that a store knows of are pairwise different in each block. -/
theorem content_nodup (h : S.Wf C exact) (hb : b ∈ S.live) :
    (S.content b.key b.addr).Nodup :=
  Multiset.nodup_of_le (h.carved b hb) (Multiset.coe_nodup.mpr (h.fits b hb).nodup)

/-- Two objects that are handed out have no byte in common. -/
theorem out_apart (h : S.Wf C exact) (ho : o ∈ S.outs) (ho' : o' ∈ S.outs.erase o) :
    C.ObjApart o.key o.ptr o'.key o'.ptr := by
  have hmem' := Multiset.mem_of_mem_erase ho'
  have hhome := h.out_home o ho
  refine h.objApart hhome (h.out_home o' hmem') (h.ptr_mem_split ho) (h.ptr_mem_split hmem') ?_
  intro heq hptr
  have hnodup := Multiset.nodup_of_le (Multiset.le_add_left _ _) (h.content_nodup hhome)
  simp only [Block.mk.injEq] at heq
  rw [← Multiset.cons_erase ho, ← Multiset.cons_erase ho', outsAt_cons, if_pos ⟨rfl, rfl⟩,
    outsAt_cons, if_pos ⟨heq.1.symm, heq.2.symm⟩, hptr] at hnodup
  exact (Multiset.nodup_cons.mp hnodup).1 (Multiset.mem_cons_self _ _)

/-- An object that is handed out has no byte in common with a free one. -/
theorem out_free_apart (h : S.Wf C exact) {l : List Nat} {y : Nat} (ho : o ∈ S.outs)
    (hl : (S.free k).lookup p = some l) (hy : y ∈ l) : C.ObjApart o.key o.ptr k y := by
  have hhome := h.out_home o ho
  refine h.objApart hhome (h.free_home k p l hl) (h.ptr_mem_split ho) (h.free_mem_split hl hy) ?_
  intro heq hptr
  simp only [Block.mk.injEq] at heq
  have hnodup := h.content_nodup hhome
  have hmem : o.ptr ∈ outsAt S.outs o.key o.page :=
    Multiset.mem_map_of_mem _ (Multiset.mem_filter.mpr ⟨ho, rfl, rfl⟩)
  refine Multiset.disjoint_left.mp (Multiset.nodup_add.mp hnodup).2.2 ?_ hmem
  simp only [heq.1, heq.2, listAt_of_lookup hl, hptr]
  exact Multiset.mem_coe.mpr hy

/-! ## Room for the free objects -/

theorem length_listAt_mul_le (h : S.Wf C exact) (hb : b ∈ S.live) :
    (listAt (S.free b.key) b.addr).length * C.objSize b.key ≤ C.size b.key := by
  have hfits := h.fits b hb
  have hcard := Multiset.card_le_card (h.carved b hb)
  simp only [Store.content, Multiset.card_add, Multiset.coe_card] at hcard
  have hroom := length_mul_le_of_spaced (Nat.le_add_right b.addr (C.size b.key))
    (C.split_spaced b.key b.addr hfits.1 hfits.2)
    fun x hx => C.split_inside b.key b.addr x hfits.1 hfits.2 hx
  calc (listAt (S.free b.key) b.addr).length * C.objSize b.key
      ≤ (C.split b.key b.addr).length * C.objSize b.key := Nat.mul_le_mul_right _ (by omega)
    _ ≤ C.size b.key := by omega

/-- The free objects of a class lie in disjoint blocks below the limit. -/
theorem total_le (h : S.Wf C exact) (k : κ) : total (S.free k) * C.objSize k ≤ C.limit := by
  have hlive : ∀ p ∈ (S.free k).keys.toFinset, (⟨k, p⟩ : Block κ) ∈ S.live := by
    intro p hp
    obtain ⟨l, hl⟩ := mem_keys_iff_lookup.mp (List.mem_toFinset.mp hp)
    exact h.free_home k p l hl
  have hdisjoint : ∀ p ∈ (S.free k).keys.toFinset, ∀ q ∈ (S.free k).keys.toFinset, p ≠ q →
      Disjoint (Finset.Ico p (p + C.size k)) (Finset.Ico q (q + C.size k)) := by
    intro p hp q hq hne
    have hapart := h.apart.forall (hlive p hp) (hlive q hq) fun heq => hne (by cases heq; rfl)
    rw [Finset.disjoint_left]
    intro x hxp hxq
    rw [Finset.mem_Ico] at hxp hxq
    rcases hapart with hlt | hlt <;> simp only at hlt <;> omega
  calc total (S.free k) * C.objSize k
      = ∑ p ∈ (S.free k).keys.toFinset, (listAt (S.free k) p).length * C.objSize k := by
        rw [total, Finset.sum_mul]
    _ ≤ ∑ p ∈ (S.free k).keys.toFinset, (Finset.Ico p (p + C.size k)).card := by
        refine Finset.sum_le_sum ?_
        intro p hp
        rw [Nat.card_Ico, Nat.add_sub_cancel_left]
        exact h.length_listAt_mul_le (hlive p hp)
    _ = ((S.free k).keys.toFinset.biUnion fun p => Finset.Ico p (p + C.size k)).card :=
        (Finset.card_biUnion hdisjoint).symm
    _ ≤ (Finset.range C.limit).card := by
        refine Finset.card_le_card ?_
        intro x hx
        obtain ⟨p, hp, hx⟩ := Finset.mem_biUnion.mp hx
        have hfits := (h.fits _ (hlive p hp)).2
        rw [Finset.mem_Ico] at hx
        rw [Finset.mem_range]
        simp only at hfits
        omega
    _ = C.limit := Finset.card_range _

end Store.Wf

end Store

end Slab
