import Mathlib.Data.List.Basic
import Mathlib.Tactic

/-!
# Chains of cells

Singly linked lists in a heap.  The links are a partial function: {lit}`none` for a cell that
cannot be read, and otherwise the next cell, if there is one.  A list of cells describes the
chain behind a cell.

Main results:

- Theorem {lit}`Linked.unique`: there is at most one chain behind a cell.
- Theorems {lit}`Linked.insert` and {lit}`Linked.remove`: a cell is linked in behind a part of the
  chain, or taken out, by a change of the last link of that part.
-/

namespace Chains

variable {A : Type*} {next next' : A → Option (Option A)} {p x : A} {l l' l₁ l₂ : List A}

/-- The cells behind the first one are those of the list, and the last of them has no next
cell. -/
def Linked (next : A → Option (Option A)) : A → List A → Prop
  | p, [] => next p = some none
  | p, a :: l => next p = some (some a) ∧ Linked next a l

theorem Linked.head (h : Linked next p l) : next p = some l.head? := by
  cases l with
  | nil => exact h
  | cons a l => exact h.1

/-- There is at most one chain behind a cell. -/
theorem Linked.unique (h : Linked next p l) (h' : Linked next p l') : l = l' := by
  induction l generalizing p l' with
  | nil =>
    have hhead := h.head.symm.trans h'.head
    cases l' with
    | nil => rfl
    | cons b l' => cases hhead
  | cons a l ih =>
    have hhead := h.head.symm.trans h'.head
    cases l' with
    | nil => cases hhead
    | cons b l' =>
      cases hhead
      rw [ih h.2 h'.2]

/-- A chain depends only on the links of its cells. -/
theorem Linked.congr (h : Linked next p l) (hsame : ∀ a ∈ p :: l, next' a = next a) :
    Linked next' p l := by
  induction l generalizing p with
  | nil => exact (hsame p (by simp)).trans h
  | cons a l ih =>
    refine ⟨(hsame p (by simp)).trans h.1, ih h.2 ?_⟩
    intro b hb
    exact hsame b (List.mem_cons_of_mem p hb)

/-- Behind the last cell of a part of the chain comes the rest. -/
theorem Linked.right (h : Linked next p (l₁ ++ l₂)) : Linked next (l₁.getLastD p) l₂ := by
  induction l₁ generalizing p with
  | nil => exact h
  | cons a l₁ ih =>
    rw [List.getLastD_cons]
    exact ih h.2

theorem getLastD_mem (p : A) (l : List A) : l.getLastD p ∈ p :: l := by
  induction l generalizing p with
  | nil => simp
  | cons a l ih =>
    rw [List.getLastD_cons]
    exact List.mem_cons_of_mem p (ih a)

theorem getLastD_append (p : A) (l₁ l₂ : List A) :
    (l₁ ++ l₂).getLastD p = l₂.getLastD (l₁.getLastD p) := by
  induction l₁ generalizing p with
  | nil => rfl
  | cons a l₁ ih => rw [List.cons_append, List.getLastD_cons, List.getLastD_cons, ih]

theorem mem_middle_iff {a b : A} : a ∈ l₁ ++ b :: l₂ ↔ a = b ∨ a ∈ l₁ ++ l₂ := by
  rw [List.perm_middle.mem_iff, List.mem_cons]

/-! ## Changes of one link -/

section Update

variable [DecidableEq A]

theorem Linked.update (h : Linked next p l) (hx : x ∉ p :: l) (v : Option (Option A)) :
    Linked (Function.update next x v) p l := by
  refine h.congr ?_
  intro a ha
  rw [Function.update_of_ne]
  rintro rfl
  exact hx ha

/-- A cell is linked in behind a part of the chain. -/
theorem Linked.insert (h : Linked next p (l₁ ++ l₂)) (hnodup : (p :: (l₁ ++ l₂)).Nodup)
    (hx : x ∉ p :: (l₁ ++ l₂)) :
    Linked (Function.update (Function.update next x (some l₂.head?)) (l₁.getLastD p)
      (some (some x))) p (l₁ ++ x :: l₂) := by
  induction l₁ generalizing p with
  | nil =>
    have hp : p ∉ l₂ := (List.nodup_cons.1 hnodup).1
    have hxp : x ≠ p := fun heq => hx (by simp [heq])
    have hnext : Function.update (Function.update next x (some l₂.head?)) p (some (some x)) x =
        some l₂.head? := by
      rw [Function.update_of_ne hxp, Function.update_self]
    refine ⟨Function.update_self .., ?_⟩
    cases l₂ with
    | nil => exact hnext
    | cons a l₂ =>
      refine ⟨hnext, ?_⟩
      have hx₂ : x ∉ a :: l₂ := fun hmem => hx (List.mem_cons_of_mem p hmem)
      exact (h.2.update hx₂ _).update hp _
  | cons a l₁ ih =>
    obtain ⟨hp, hnodup⟩ := List.nodup_cons.1 hnodup
    have hxa : x ∉ a :: (l₁ ++ l₂) := fun hmem => hx (List.mem_cons_of_mem p hmem)
    have hlast : p ≠ l₁.getLastD a := by
      rintro rfl
      have := getLastD_mem a l₁
      exact hp (by simpa using List.mem_append_left l₂ this)
    have hpx : p ≠ x := fun heq => hx (by simp [heq])
    rw [List.getLastD_cons]
    refine ⟨?_, ih h.2 hnodup hxa⟩
    rw [Function.update_of_ne hlast, Function.update_of_ne hpx]
    exact h.1

/-- A cell is taken out behind a part of the chain. -/
theorem Linked.remove (h : Linked next p (l₁ ++ x :: l₂))
    (hnodup : (p :: (l₁ ++ x :: l₂)).Nodup) :
    Linked (Function.update next (l₁.getLastD p) (some l₂.head?)) p (l₁ ++ l₂) := by
  induction l₁ generalizing p with
  | nil =>
    have hp : p ∉ x :: l₂ := (List.nodup_cons.1 hnodup).1
    have hrest := h.2
    cases l₂ with
    | nil => exact Function.update_self ..
    | cons a l₂ =>
      refine ⟨Function.update_self .., hrest.2.update ?_ _⟩
      intro hmem
      exact hp (List.mem_cons_of_mem x hmem)
  | cons a l₁ ih =>
    obtain ⟨hp, hnodup⟩ := List.nodup_cons.1 hnodup
    have hlast : p ≠ l₁.getLastD a := by
      rintro rfl
      have := getLastD_mem a l₁
      exact hp (by simpa using List.mem_append_left (x :: l₂) this)
    rw [List.getLastD_cons]
    refine ⟨?_, ih h.2 hnodup⟩
    rw [Function.update_of_ne hlast]
    exact h.1

end Update

/-! ## Chains over the same cells -/

/-- The last cell of a coarser selection ends a part of a finer one. -/
theorem exists_split_filter {E : Type*} (f : E → A) (d : A) (fine coarse : E → Bool)
    (hsub : ∀ e, coarse e = true → fine e = true) (es : List E) :
    ∃ front back, es.filter fine = front ++ back ∧
      (front.map f).getLastD d = ((es.filter coarse).map f).getLastD d := by
  induction es using List.reverseRecOn with
  | nil => exact ⟨[], [], rfl, rfl⟩
  | append_singleton es e ih =>
    obtain ⟨front, back, hsplit, hlast⟩ := ih
    by_cases hcoarse : coarse e = true
    · refine ⟨es.filter fine ++ [e], [], ?_, ?_⟩
      · simp [hsub e hcoarse]
      · simp [hcoarse]
    · by_cases hfine : fine e = true
      · refine ⟨front, back ++ [e], ?_, ?_⟩
        · simp [hfine, hsplit]
        · simpa [hcoarse] using hlast
      · refine ⟨front, back, ?_, ?_⟩
        · simp [hfine, hsplit]
        · simpa [hcoarse] using hlast

/-- If a part of a list begins with a cell, its rest is a part of what comes behind the cell. -/
theorem sublist_of_cons_sublist {a : A} (ha : a ∉ l₁) (h : (a :: l).Sublist (l₁ ++ a :: l₂)) :
    l.Sublist l₂ := by
  induction l₁ with
  | nil => exact List.cons_sublist_cons.1 h
  | cons b l₁ ih =>
    rw [List.mem_cons, not_or] at ha
    cases h with
    | cons _ h => exact ih ha.2 h
    | cons_cons _ h => exact (ha.1 rfl).elim

end Chains
