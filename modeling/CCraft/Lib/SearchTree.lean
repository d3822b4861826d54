import Mathlib.Data.List.Basic
import Mathlib.Data.Tree.Basic
import Mathlib.Tactic

/-!
# Search trees with an arbitrary comparison

A container that is searched through a binary tree.  The comparison is any Boolean function,
so the functions below say what a search does even when the comparison orders nothing.  The
contents of a container are the in-order list of its tree; how the tree is balanced is left
open.

Main results:

- Theorem {lit}`find_sound`: whatever the comparison, an entry that is found is equivalent to
  the key.
- Theorems {lit}`find_of_mem`, {lit}`insertUnique_spec` and {lit}`eraseKey_of_mem`: on a list
  that the comparison sorts, the operations do what they are for, whatever the shape of
  the tree.
- Theorem {lit}`exists_tree_not_found`: a key that stands on the wrong side of an entry is not
  found in every tree.
-/

namespace SearchTree

variable {α κ ν : Type*}

/-! ## Trees and positions -/

/-- The elements of a tree in order. -/
def inorder : BinaryTree α → List α
  | .nil => []
  | .node a l r => inorder l ++ a :: inorder r

/-- A tree with the given elements in order. -/
def spine : List α → BinaryTree α
  | [] => .nil
  | a :: as => .node a .nil (spine as)

@[simp]
theorem inorder_nil : inorder (.nil : BinaryTree α) = [] :=
  rfl

@[simp]
theorem inorder_node (a : α) (l r : BinaryTree α) :
    inorder (.node a l r) = inorder l ++ a :: inorder r :=
  rfl

@[simp]
theorem inorder_spine (as : List α) : inorder (spine as) = as := by
  induction as with
  | nil => rfl
  | cons a as ih => simp [spine, ih]

/-- Descend to the right of the elements that pass the test and to the left of the other ones;
the position where that ends. -/
def partitionPoint (p : α → Bool) : BinaryTree α → Nat
  | .nil => 0
  | .node a l r => if p a then (inorder l).length + 1 + partitionPoint p r else partitionPoint p l

theorem partitionPoint_le (p : α → Bool) (t : BinaryTree α) :
    partitionPoint p t ≤ (inorder t).length := by
  induction t with
  | nil => simp [partitionPoint]
  | node a l r ihl ihr =>
    simp only [partitionPoint, inorder_node, List.length_append, List.length_cons]
    split_ifs <;> omega

/-- The element at the position fails the test. -/
theorem partitionPoint_fails {p : α → Bool} {t : BinaryTree α} {a : α}
    (h : (inorder t)[partitionPoint p t]? = some a) : p a = false := by
  induction t with
  | nil => simp at h
  | node b l r ihl ihr =>
    simp only [partitionPoint, inorder_node] at h
    split_ifs at h with hb
    · rw [List.getElem?_append_right (by omega)] at h
      refine ihr ?_
      rw [← h, show (inorder l).length + 1 + partitionPoint p r - (inorder l).length =
        partitionPoint p r + 1 by omega, List.getElem?_cons_succ]
    · rcases Nat.lt_or_eq_of_le (partitionPoint_le p l) with hlt | heq
      · rw [List.getElem?_append_left hlt] at h
        exact ihl h
      · rw [heq, List.getElem?_append_right le_rfl, Nat.sub_self, List.getElem?_cons_zero] at h
        rw [← Option.some.inj h]
        simpa using hb

/-- When the elements that pass come first, the position is their number. -/
theorem partitionPoint_eq_countP {p : α → Bool} {t : BinaryTree α}
    (h : (inorder t).Pairwise fun a b => p b = true → p a = true) :
    partitionPoint p t = (inorder t).countP p := by
  induction t with
  | nil => rfl
  | node b l r ihl ihr =>
    simp only [inorder_node] at h
    obtain ⟨hl, hbr, hlr⟩ := List.pairwise_append.1 h
    obtain ⟨hb, hr⟩ := List.pairwise_cons.1 hbr
    simp only [partitionPoint, inorder_node, List.countP_append, List.countP_cons]
    split_ifs with hpass
    · have hall : (inorder l).countP p = (inorder l).length :=
        List.countP_eq_length.2 fun a ha => hlr a ha b (by simp) hpass
      rw [ihr hr, hall]
      omega
    · have hnone : (inorder r).countP p = 0 :=
        List.countP_eq_zero.2 fun a ha hpa => hpass (hb a ha hpa)
      rw [ihl hl, hnone]
      omega

section Parts

variable {p : α → Bool} {as bs : List α}

theorem countP_append_eq_length (has : ∀ a ∈ as, p a = true) (hbs : ∀ b ∈ bs, p b = false) :
    (as ++ bs).countP p = as.length := by
  have hall : as.countP p = as.length := List.countP_eq_length.2 has
  have hnone : bs.countP p = 0 := List.countP_eq_zero.2 fun b hb => by simp [hbs b hb]
  rw [List.countP_append, hall, hnone, Nat.add_zero]

theorem pairwise_append_of_parts (has : ∀ a ∈ as, p a = true) (hbs : ∀ b ∈ bs, p b = false) :
    (as ++ bs).Pairwise fun a b => p b = true → p a = true := by
  rw [List.pairwise_append]
  refine ⟨?_, ?_, ?_⟩
  · exact List.pairwise_of_forall_mem_list fun a ha _ _ _ => has a ha
  · refine List.pairwise_of_forall_mem_list fun _ _ b hb hpass => ?_
    rw [hbs b hb] at hpass
    cases hpass
  · exact fun a ha _ _ _ => has a ha

/-- The same with the two parts given. -/
theorem partitionPoint_append {t : BinaryTree α} (h : inorder t = as ++ bs)
    (has : ∀ a ∈ as, p a = true) (hbs : ∀ b ∈ bs, p b = false) :
    partitionPoint p t = as.length := by
  rw [partitionPoint_eq_countP, h, countP_append_eq_length has hbs]
  rw [h]
  exact pairwise_append_of_parts has hbs

/-- A list is split where a test that is passed first is failed for the first time. -/
theorem exists_append_of_pairwise {l : List α}
    (h : l.Pairwise fun a b => p b = true → p a = true) :
    ∃ xs ys, l = xs ++ ys ∧ (∀ x ∈ xs, p x = true) ∧ ∀ y ∈ ys, p y = false := by
  induction l with
  | nil => exact ⟨[], [], rfl, by simp, by simp⟩
  | cons a l ih =>
    obtain ⟨ha, hl⟩ := List.pairwise_cons.1 h
    by_cases hpa : p a = true
    · obtain ⟨xs, ys, hsplit, hxs, hys⟩ := ih hl
      refine ⟨a :: xs, ys, by rw [hsplit, List.cons_append], ?_, hys⟩
      intro x hx
      rcases List.mem_cons.1 hx with rfl | hx
      · exact hpa
      · exact hxs x hx
    · refine ⟨[], a :: l, rfl, by simp, ?_⟩
      intro y hy
      rcases List.mem_cons.1 hy with rfl | hy
      · simpa using hpa
      · simpa using mt (ha y hy) hpa

end Parts

/-! ## The operations of a map -/

section Map

variable (lt : κ → κ → Bool) (k : κ)

/-- The position of the first entry that is not before the key. -/
def lowerBound (t : BinaryTree (κ × ν)) : Nat :=
  partitionPoint (fun e => lt e.1 k) t

/-- The position of the first entry that the key is before. -/
def upperBound (t : BinaryTree (κ × ν)) : Nat :=
  partitionPoint (fun e => !lt k e.1) t

/-- The position of the entry that is found for a key. -/
def find (t : BinaryTree (κ × ν)) : Option Nat :=
  match (inorder t)[lowerBound lt k t]? with
  | some e => if lt k e.1 then none else some (lowerBound lt k t)
  | none => none

/-- The entries after an insertion: the new one goes to its upper bound, unless the entry
before that position is not before the key. -/
def insertUnique (v : ν) (t : BinaryTree (κ × ν)) : List (κ × ν) :=
  let i := upperBound lt k t
  match i with
  | 0 => (k, v) :: inorder t
  | j + 1 =>
    match (inorder t)[j]? with
    | some e =>
      if lt e.1 k then (inorder t).take i ++ (k, v) :: (inorder t).drop i else inorder t
    | none => inorder t

/-- The positions between which the entries equivalent to a key stand. -/
def equalRange : BinaryTree (κ × ν) → Nat × Nat
  | .nil => (0, 0)
  | .node e l r =>
    let n := (inorder l).length + 1
    if lt e.1 k then (n + (equalRange r).1, n + (equalRange r).2)
    else if lt k e.1 then equalRange l
    else (lowerBound lt k l, n + upperBound lt k r)

/-- The entries after those equivalent to a key have been erased. -/
def eraseKey (t : BinaryTree (κ × ν)) : List (κ × ν) :=
  (inorder t).take (equalRange lt k t).1 ++ (inorder t).drop (equalRange lt k t).2

end Map

/-! ## Sorted lists -/

section Sorted

variable {lt : κ → κ → Bool} {k : κ} {v : ν} {t : BinaryTree (κ × ν)}
  {as bs : List (κ × ν)}

/-- One key is before the other, and not the other way round. -/
def Below (lt : κ → κ → Bool) (a b : κ) : Prop :=
  lt a b = true ∧ lt b a = false

instance (a b : κ) : Decidable (Below lt a b) :=
  inferInstanceAs (Decidable (_ ∧ _))

/-- Each entry is below the ones behind it. -/
def Sorted (lt : κ → κ → Bool) (es : List (κ × ν)) : Prop :=
  es.Pairwise fun a b => Below lt a.1 b.1

/-- Whatever the comparison, an entry that is found is not before the key, nor the key before
the entry. -/
theorem find_sound {i : Nat} (h : find lt k t = some i) :
    ∃ e, (inorder t)[i]? = some e ∧ lt e.1 k = false ∧ lt k e.1 = false := by
  unfold find at h
  split at h
  case h_1 e he =>
    split_ifs at h with hlt
    cases h
    have hfails := partitionPoint_fails he
    exact ⟨e, he, hfails, by simpa using hlt⟩
  case h_2 => cases h

/-- In a sorted list the entries around a key are on its two sides. -/
theorem Sorted.sides (hsorted : Sorted lt (as ++ (k, v) :: bs)) :
    (∀ a ∈ as, Below lt a.1 k) ∧ ∀ b ∈ bs, Below lt k b.1 := by
  obtain ⟨-, hcons, hcross⟩ := List.pairwise_append.1 hsorted
  exact ⟨fun a ha => hcross a ha _ List.mem_cons_self, (List.pairwise_cons.1 hcons).1⟩

/-- A key of a sorted list is found. -/
theorem find_of_mem (hirrefl : lt k k = false) (h : inorder t = as ++ (k, v) :: bs)
    (hsorted : Sorted lt (inorder t)) : find lt k t = some as.length := by
  rw [h] at hsorted
  obtain ⟨has, hbs⟩ := hsorted.sides
  have hpos : lowerBound lt k t = as.length := by
    refine partitionPoint_append h (fun a ha => (has a ha).1) ?_
    intro b hb
    rcases List.mem_cons.1 hb with rfl | hb
    · exact hirrefl
    · exact (hbs b hb).2
  have hentry : (inorder t)[as.length]? = some (k, v) := by
    rw [h, List.getElem?_append_right le_rfl, Nat.sub_self, List.getElem?_cons_zero]
  simp [find, hpos, hentry, hirrefl]

/-- A key that has its place in a sorted list is put there. -/
theorem insertUnique_spec (hsorted : Sorted lt (inorder t))
    (htrans : ∀ a b c, Below lt a b → Below lt b c → Below lt a c)
    (hfits : ∀ e ∈ inorder t, Below lt e.1 k ∨ Below lt k e.1) (v : ν) :
    ∃ as bs, inorder t = as ++ bs ∧ insertUnique lt k v t = as ++ (k, v) :: bs ∧
      (∀ a ∈ as, Below lt a.1 k) ∧ ∀ b ∈ bs, Below lt k b.1 := by
  have hmono : (inorder t).Pairwise fun a b =>
      decide (Below lt b.1 k) = true → decide (Below lt a.1 k) = true := by
    refine List.Pairwise.imp ?_ hsorted
    intro a b hab hb
    simp only [decide_eq_true_eq] at hb ⊢
    exact htrans _ _ _ hab hb
  obtain ⟨as, bs, hsplit, has, hbs⟩ := exists_append_of_pairwise hmono
  have has' : ∀ a ∈ as, Below lt a.1 k := fun a ha => by simpa using has a ha
  have hbs' : ∀ b ∈ bs, Below lt k b.1 := by
    intro b hb
    have hnot : ¬ Below lt b.1 k := by simpa using hbs b hb
    exact (hfits b (by simp [hsplit, hb])).resolve_left hnot
  have hpos : upperBound lt k t = as.length := by
    refine partitionPoint_append hsplit ?_ ?_
    · intro a ha
      simp [(has' a ha).2]
    · intro b hb
      simp [(hbs' b hb).1]
  refine ⟨as, bs, hsplit, ?_, has', hbs'⟩
  rcases List.eq_nil_or_concat as with rfl | ⟨as', a, rfl⟩
  · simp [insertUnique, hpos, hsplit]
  · have hlast : (inorder t)[as'.length]? = some a := by
      rw [hsplit]
      simp
    have hbelow : lt a.1 k = true := (has' a (by simp)).1
    simp only [List.concat_eq_append, List.length_append, List.length_singleton] at hpos hsplit
    simp only [insertUnique, hpos, hlast, hbelow, if_true]
    have hlen : as'.length + 1 = (as' ++ [a]).length := by simp
    rw [hsplit, hlen, List.take_left, List.drop_left, List.concat_eq_append]

/-- When the entries before a key come first, then the equivalent ones, then those behind it,
the two positions are the numbers of entries before the key and not behind it. -/
theorem equalRange_eq_countP
    (hlower : (inorder t).Pairwise fun a b => lt b.1 k = true → lt a.1 k = true)
    (hupper : (inorder t).Pairwise fun a b => (!lt k b.1) = true → (!lt k a.1) = true)
    (hasymm : ∀ e ∈ inorder t, lt e.1 k = true → lt k e.1 = false) :
    equalRange lt k t =
      ((inorder t).countP fun e => lt e.1 k, (inorder t).countP fun e => !lt k e.1) := by
  induction t with
  | nil => rfl
  | node e l r ihl ihr =>
    simp only [inorder_node] at hlower hupper hasymm
    obtain ⟨hlowerl, hcons, hlowerlr⟩ := List.pairwise_append.1 hlower
    obtain ⟨hlowere, hlowerr⟩ := List.pairwise_cons.1 hcons
    obtain ⟨hupperl, hcons, hupperlr⟩ := List.pairwise_append.1 hupper
    obtain ⟨huppere, hupperr⟩ := List.pairwise_cons.1 hcons
    -- what the entry at the root says about the two subtrees
    have hbefore : lt e.1 k = true →
        (inorder l).countP (fun x => lt x.1 k) = (inorder l).length := fun he =>
      List.countP_eq_length.2 fun a ha => hlowerlr a ha e (by simp) he
    have hafter : ¬ lt e.1 k = true → (inorder r).countP (fun x => lt x.1 k) = 0 := fun he =>
      List.countP_eq_zero.2 fun a ha hpass => he (hlowere a ha hpass)
    have hbefore' : lt k e.1 = false →
        (inorder l).countP (fun x => !lt k x.1) = (inorder l).length := fun he =>
      List.countP_eq_length.2 fun a ha => hupperlr a ha e (by simp) (by simp [he])
    have hafter' : ¬ lt k e.1 = false → (inorder r).countP (fun x => !lt k x.1) = 0 := fun he =>
      List.countP_eq_zero.2 fun a ha hpass => he (by simpa using huppere a ha hpass)
    have hr := ihr hlowerr hupperr fun x hx => hasymm x (by simp [hx])
    have hl := ihl hlowerl hupperl fun x hx => hasymm x (by simp [hx])
    simp only [equalRange, inorder_node, List.countP_append, List.countP_cons, lowerBound,
      upperBound]
    cases hek : lt e.1 k with
    | true =>
      have hke : lt k e.1 = false := hasymm e (by simp) hek
      rw [hr, hbefore hek, hbefore' hke]
      simp only [hke, if_true, Bool.not_false, Prod.mk.injEq]
      omega
    | false =>
      have hnone := hafter (by simp [hek])
      cases hke : lt k e.1 with
      | true =>
        have hnone' := hafter' (by simp [hke])
        simp [hl, hnone, hnone']
      | false =>
        rw [partitionPoint_eq_countP hlowerl, partitionPoint_eq_countP hupperr, hnone,
          hbefore' hke]
        simp only [Bool.false_eq_true, if_false, Bool.not_false, if_true, Prod.mk.injEq]
        omega

/-- In a sorted list the range of a key is the place of its entry. -/
theorem equalRange_of_mem (hirrefl : lt k k = false) (h : inorder t = as ++ (k, v) :: bs)
    (hsorted : Sorted lt (inorder t)) :
    equalRange lt k t = (as.length, as.length + 1) := by
  rw [h] at hsorted
  obtain ⟨has, hbs⟩ := hsorted.sides
  have hlow : ∀ e ∈ (k, v) :: bs, lt e.1 k = false := by
    intro e he
    rcases List.mem_cons.1 he with rfl | he
    · exact hirrefl
    · exact (hbs e he).2
  have hup : ∀ e ∈ as ++ [(k, v)], (!lt k e.1) = true := by
    intro e he
    rcases List.mem_append.1 he with he | he
    · simp [(has e he).2]
    · simp only [List.mem_singleton] at he
      simp [he, hirrefl]
  have habove : ∀ e ∈ bs, (!lt k e.1) = false := fun e he => by simp [(hbs e he).1]
  have hbelow : ∀ e ∈ as, lt e.1 k = true := fun e he => (has e he).1
  have hshift : as ++ (k, v) :: bs = (as ++ [(k, v)]) ++ bs := by simp
  rw [equalRange_eq_countP, h, countP_append_eq_length hbelow hlow, hshift,
    countP_append_eq_length hup habove, List.length_append, List.length_singleton]
  · rw [h]
    exact pairwise_append_of_parts hbelow hlow
  · rw [h, hshift]
    exact pairwise_append_of_parts hup habove
  · intro e he hlt
    rw [h] at he
    rcases List.mem_append.1 he with he | he
    · exact (has e he).2
    · rw [hlow e he] at hlt
      cases hlt

/-- Erasing a key of a sorted list removes its entry. -/
theorem eraseKey_of_mem (hirrefl : lt k k = false) (h : inorder t = as ++ (k, v) :: bs)
    (hsorted : Sorted lt (inorder t)) : eraseKey lt k t = as ++ bs := by
  have hlen : as.length + 1 = (as ++ [(k, v)]).length := by simp
  rw [eraseKey, equalRange_of_mem hirrefl h hsorted, h, List.take_left, hlen,
    show as ++ (k, v) :: bs = (as ++ [(k, v)]) ++ bs by simp, List.drop_left]

/-- A search that the root sends to the right finds nothing at the root or left of it. -/
theorem find_ne_of_root {e : κ × ν} {l r : BinaryTree (κ × ν)} {i : Nat}
    (hroot : lt e.1 k = true) (h : find lt k (.node e l r) = some i) :
    (inorder l).length < i := by
  have hpos : i = lowerBound lt k (.node e l r) := by
    unfold find at h
    split at h
    · split_ifs at h
      exact (Option.some.inj h).symm
    · cases h
  rw [hpos, lowerBound, partitionPoint, if_pos hroot]
  omega

/-- A sorted list has each key once. -/
theorem Sorted.eq_of_mem {es : List (κ × ν)} (hsorted : Sorted lt es) {w : ν}
    (hv : (k, v) ∈ es) (hw : (k, w) ∈ es) : v = w := by
  obtain ⟨as, bs, rfl⟩ := List.append_of_mem hv
  obtain ⟨has, hbs⟩ := hsorted.sides
  have hirrefl : ¬ Below lt k k := fun h => absurd h.1 (by simp [h.2])
  rcases List.mem_append.1 hw with hw | hw
  · exact absurd (has _ hw) hirrefl
  · rcases List.mem_cons.1 hw with hw | hw
    · exact (Prod.mk.inj hw).2.symm
    · exact absurd (hbs _ hw) hirrefl

/-- Taking a key out of a sorted list takes out its entry. -/
theorem Sorted.filter_ne [DecidableEq κ] (hsorted : Sorted lt (as ++ (k, v) :: bs)) :
    (as ++ (k, v) :: bs).filter (fun e => e.1 ≠ k) = as ++ bs := by
  obtain ⟨has, hbs⟩ := hsorted.sides
  have hne : ∀ e ∈ as ++ bs, e.1 ≠ k := by
    rintro e he rfl
    rcases List.mem_append.1 he with he | he
    · exact absurd (has e he).1 (by simp [(has e he).2])
    · exact absurd (hbs e he).1 (by simp [(hbs e he).2])
  have hkeep : (as ++ bs).filter (fun e => e.1 ≠ k) = as ++ bs :=
    List.filter_eq_self.2 fun e he => by simpa using hne e he
  rw [List.filter_append, List.filter_cons_of_neg (by simp), ← List.filter_append, hkeep]

/-- A key that stands only left of an entry that the comparison puts before it is not found
in some tree. -/
theorem exists_tree_not_found (as : List (κ × ν)) {e : κ × ν}
    (heq : ∀ a b, lt a b = false → lt b a = false → a = b) (hlt : lt e.1 k = true)
    (hright : ∀ b ∈ bs, b.1 ≠ k) :
    ∃ t, inorder t = as ++ e :: bs ∧ find lt k t = none := by
  refine ⟨.node e (spine as) (spine bs), by simp, ?_⟩
  by_contra hfound
  obtain ⟨i, hi⟩ := Option.ne_none_iff_exists'.1 hfound
  have hafter := find_ne_of_root hlt hi
  rw [inorder_spine] at hafter
  obtain ⟨x, hx, hxk, hkx⟩ := find_sound hi
  obtain ⟨j, rfl⟩ : ∃ j, i = as.length + (j + 1) := ⟨i - as.length - 1, by omega⟩
  rw [inorder_node, inorder_spine, inorder_spine, List.getElem?_append_right (by omega),
    Nat.add_sub_cancel_left, List.getElem?_cons_succ] at hx
  exact hright x (List.mem_of_getElem? hx) (heq _ _ hxk hkx)

end Sorted

end SearchTree
