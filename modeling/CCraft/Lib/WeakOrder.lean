import Mathlib.Data.List.Perm.Basic
import Mathlib.Order.Defs.Unbundled
import Mathlib.Tactic

/-!
# Sets ordered by a comparison

A comparison that is a strict weak order, lists that are sorted by it, and the sets of
elements up to equivalence that such lists stand for.  A set is a list in any order; adding an
element replaces an equivalent one.

Main results:

- Theorems {lit}`exists_split` and {lit}`exists_cut`: a sorted list is cut by an element into the
  smaller elements and the others.
- Theorems {lit}`add_perm`, {lit}`replace_perm` and {lit}`remove_eq`: adding, replacing and removing
  an element of the set at the cut.
- Theorem {lit}`find_equivalent`: the order of a set does not matter for the element that is
  equivalent to another one.
-/

namespace WeakOrder

variable {T E : Type*} {cmp : T → T → Bool} {f : E → T} {a b c t : T} {l l₁ l₂ : List T}

/-- Neither element is smaller. -/
def equivalent (cmp : T → T → Bool) (a b : T) : Bool :=
  !cmp a b && !cmp b a

/-- The list is strictly increasing. -/
def Sorted (cmp : T → T → Bool) (l : List T) : Prop :=
  l.Pairwise fun a b => cmp a b = true

/-- The set with the element instead of an equivalent one. -/
def add (cmp : T → T → Bool) (t : T) (l : List T) : List T :=
  t :: l.filter fun a => !equivalent cmp a t

/-- The set without the equivalent elements. -/
def remove (cmp : T → T → Bool) (t : T) (l : List T) : List T :=
  l.filter fun a => !equivalent cmp a t

/-! ## The order -/

section Order

variable [IsStrictWeakOrder T fun a b => cmp a b = true]

theorem cmp_trans (h : cmp a b = true) (h' : cmp b c = true) : cmp a c = true :=
  trans_of (fun a b => cmp a b = true) h h'

theorem cmp_asymm (h : cmp a b = true) : cmp b a = false :=
  Bool.eq_false_iff.2 (asymm_of (fun a b => cmp a b = true) h)

/-- What is not smaller than an element is not smaller than the elements below it. -/
theorem cmp_of_cmp_of_not (h : cmp a b = true) (h' : cmp c b = false) : cmp a c = true := by
  by_contra hac
  have hnot : ¬ cmp c b = true := by simp [h']
  have hca : ¬ cmp c a = true := fun hlt => hnot (cmp_trans hlt h)
  have hbc : ¬ cmp b c = true := fun hlt => hac (cmp_trans h hlt)
  have hincomp : ¬ cmp a b = true ∧ ¬ cmp b a = true :=
    @IsStrictWeakOrder.incomp_trans T (fun a b => cmp a b = true) _ a c b ⟨hac, hca⟩ ⟨hnot, hbc⟩
  exact hincomp.1 h

omit [IsStrictWeakOrder T fun a b => cmp a b = true] in
theorem equivalent_iff : equivalent cmp a b = true ↔ cmp a b = false ∧ cmp b a = false := by
  simp [equivalent]

/-- Equivalent elements have the same elements above them. -/
theorem cmp_of_equivalent (h : equivalent cmp a t = true) (h' : cmp a b = true) :
    cmp t b = true := by
  by_contra hnot
  have := cmp_of_cmp_of_not h' (Bool.eq_false_iff.2 hnot)
  rw [(equivalent_iff.1 h).1] at this
  cases this

/-! ## Cutting a sorted list -/

/-- A sorted list is cut by an element into the smaller elements and the others. -/
theorem exists_split {es : List E} (h : Sorted cmp (es.map f)) (t : T) :
    ∃ ls gs, es = ls ++ gs ∧ (∀ e ∈ ls, cmp (f e) t = true) ∧ ∀ e ∈ gs, cmp (f e) t = false := by
  induction es with
  | nil => exact ⟨[], [], rfl, by simp, by simp⟩
  | cons e es ih =>
    obtain ⟨hfirst, hrest⟩ := List.pairwise_cons.1 h
    by_cases hlt : cmp (f e) t = true
    · obtain ⟨ls, gs, rfl, hls, hgs⟩ := ih hrest
      refine ⟨e :: ls, gs, rfl, ?_, hgs⟩
      intro e' he'
      rcases List.mem_cons.1 he' with rfl | he'
      · exact hlt
      · exact hls e' he'
    · refine ⟨[], e :: es, rfl, by simp, ?_⟩
      intro e' he'
      rcases List.mem_cons.1 he' with rfl | he'
      · exact Bool.eq_false_iff.2 hlt
      · refine Bool.eq_false_iff.2 fun hlt' => hlt ?_
        exact cmp_trans (hfirst (f e') (List.mem_map_of_mem he')) hlt'

/-- Behind an element that is not smaller, all others of a sorted list are greater. -/
theorem cmp_of_sorted_cons (h : Sorted cmp (a :: l)) (ha : cmp a t = false) :
    ∀ b ∈ l, cmp t b = true := by
  intro b hb
  have hab : cmp a b = true := (List.pairwise_cons.1 h).1 b hb
  by_cases hta : cmp t a = true
  · exact cmp_trans hta hab
  · exact cmp_of_equivalent (equivalent_iff.2 ⟨ha, Bool.eq_false_iff.2 hta⟩) hab

/-- An element cuts a sorted list into the smaller and the greater elements, and at most one
equivalent element between them. -/
theorem exists_cut {es : List E} (h : Sorted cmp (es.map f)) (t : T) :
    (∃ ls gs, es = ls ++ gs ∧ (∀ e ∈ ls, cmp (f e) t = true) ∧ ∀ e ∈ gs, cmp t (f e) = true) ∨
      ∃ ls g gs, es = ls ++ g :: gs ∧ (∀ e ∈ ls, cmp (f e) t = true) ∧
        equivalent cmp (f g) t = true ∧ ∀ e ∈ gs, cmp t (f e) = true := by
  obtain ⟨ls, gs, rfl, hls, hgs⟩ := exists_split h t
  cases gs with
  | nil => exact .inl ⟨ls, [], rfl, hls, by simp⟩
  | cons g gs =>
    have hg : cmp (f g) t = false := hgs g (by simp)
    have hsorted : Sorted cmp (f g :: gs.map f) :=
      List.Pairwise.sublist (List.Sublist.map _ (List.sublist_append_right ls (g :: gs))) h
    have hrest : ∀ e ∈ gs, cmp t (f e) = true := fun e he =>
      cmp_of_sorted_cons hsorted hg (f e) (List.mem_map_of_mem he)
    by_cases hlt : cmp t (f g) = true
    · refine .inl ⟨ls, g :: gs, rfl, hls, ?_⟩
      intro e he
      rcases List.mem_cons.1 he with rfl | he
      · exact hlt
      · exact hrest e he
    · exact .inr ⟨ls, g, gs, rfl, hls, equivalent_iff.2 ⟨hg, Bool.eq_false_iff.2 hlt⟩, hrest⟩

omit [IsStrictWeakOrder T fun a b => cmp a b = true] in
/-- A list stays sorted with an element between the smaller and the greater ones. -/
theorem sorted_middle (h : Sorted cmp (l₁ ++ l₂)) (h₁ : ∀ a ∈ l₁, cmp a t = true)
    (h₂ : ∀ a ∈ l₂, cmp t a = true) : Sorted cmp (l₁ ++ t :: l₂) := by
  obtain ⟨hfront, hback, hcross⟩ := List.pairwise_append.1 h
  refine List.pairwise_append.2 ⟨hfront, List.pairwise_cons.2 ⟨h₂, hback⟩, ?_⟩
  intro a ha b hb
  rcases List.mem_cons.1 hb with rfl | hb
  · exact h₁ a ha
  · exact hcross a ha b hb

omit [IsStrictWeakOrder T fun a b => cmp a b = true] in
theorem not_equivalent_of_cmp (h : cmp a t = true ∨ cmp t a = true) :
    equivalent cmp a t = false := by
  rcases h with h | h <;> simp [equivalent, h]

omit [IsStrictWeakOrder T fun a b => cmp a b = true] in
theorem filter_eq_self (h : ∀ a ∈ l, cmp a t = true ∨ cmp t a = true) :
    (l.filter fun a => !equivalent cmp a t) = l := by
  apply List.filter_eq_self.2
  intro a ha
  simp [not_equivalent_of_cmp (h a ha)]

/-! ## Adding and removing -/

omit [IsStrictWeakOrder T fun a b => cmp a b = true] in
/-- A new element is added at the cut. -/
theorem add_perm (h₁ : ∀ a ∈ l₁, cmp a t = true) (h₂ : ∀ a ∈ l₂, cmp t a = true) :
    (add cmp t (l₁ ++ l₂)).Perm (l₁ ++ t :: l₂) := by
  rw [add, filter_eq_self]
  · exact List.perm_middle.symm
  · intro a ha
    rcases List.mem_append.1 ha with ha | ha
    · exact .inl (h₁ a ha)
    · exact .inr (h₂ a ha)

omit [IsStrictWeakOrder T fun a b => cmp a b = true] in
/-- An element is removed at the cut. -/
theorem remove_eq (h₁ : ∀ a ∈ l₁, cmp a t = true) (h₂ : ∀ a ∈ l₂, cmp t a = true)
    (hb : equivalent cmp b t = true) : remove cmp t (l₁ ++ b :: l₂) = l₁ ++ l₂ := by
  simp only [remove, List.filter_append, List.filter_cons, hb, Bool.not_true,
    Bool.false_eq_true, if_false]
  rw [filter_eq_self fun a ha => .inl (h₁ a ha), filter_eq_self fun a ha => .inr (h₂ a ha)]

omit [IsStrictWeakOrder T fun a b => cmp a b = true] in
/-- An equivalent element is replaced at the cut. -/
theorem replace_perm (h₁ : ∀ a ∈ l₁, cmp a t = true) (h₂ : ∀ a ∈ l₂, cmp t a = true)
    (hb : equivalent cmp b t = true) : (add cmp t (l₁ ++ b :: l₂)).Perm (l₁ ++ t :: l₂) := by
  have hremoved := remove_eq h₁ h₂ hb
  rw [remove] at hremoved
  rw [add, hremoved]
  exact List.perm_middle.symm

/-- Elements that are equivalent to a third one are not ordered. -/
theorem not_cmp_of_equivalent (ha : equivalent cmp a t = true) (hb : equivalent cmp b t = true) :
    cmp a b = false := by
  refine Bool.eq_false_iff.2 fun hlt => ?_
  have htb : cmp t b = true := cmp_of_equivalent ha hlt
  rw [(equivalent_iff.1 hb).2] at htb
  cases htb

/-- Two entries of a sorted list that are equivalent to a third one are the same. -/
theorem eq_of_equivalent {es : List E} {e e' : E} (h : Sorted cmp (es.map f)) (he : e ∈ es)
    (he' : e' ∈ es) (het : equivalent cmp (f e) t = true) (het' : equivalent cmp (f e') t = true) :
    e = e' := by
  induction es with
  | nil => cases he
  | cons e₀ es ih =>
    obtain ⟨hfirst, hrest⟩ := List.pairwise_cons.1 h
    rcases List.mem_cons.1 he with rfl | hmem
    · rcases List.mem_cons.1 he' with rfl | hmem'
      · rfl
      · have := hfirst (f e') (List.mem_map_of_mem hmem')
        rw [not_cmp_of_equivalent het het'] at this
        cases this
    · rcases List.mem_cons.1 he' with rfl | hmem'
      · have := hfirst (f e) (List.mem_map_of_mem hmem)
        rw [not_cmp_of_equivalent het' het] at this
        cases this
      · exact ih hrest hmem hmem'

/-- An equivalent entry is the one that a search finds. -/
theorem find_eq_some {es : List E} {e : E} (h : Sorted cmp (es.map f)) (he : e ∈ es)
    (het : equivalent cmp (f e) t = true) :
    es.find? (fun e => equivalent cmp (f e) t) = some e := by
  cases hfind : es.find? fun e => equivalent cmp (f e) t with
  | none => exact (List.find?_eq_none.1 hfind e he het).elim
  | some e' =>
    have het' : equivalent cmp (f e') t = true :=
      List.find?_some (p := fun e => equivalent cmp (f e) t) hfind
    rw [eq_of_equivalent h (List.mem_of_find?_eq_some hfind) he het' het]

/-- Sets in another order have the same element equivalent to a given one. -/
theorem find_equivalent (hsorted : Sorted cmp l₁) (hperm : l₁.Perm l₂) :
    l₁.find? (equivalent cmp · t) = l₂.find? (equivalent cmp · t) := by
  cases h₂ : l₂.find? (equivalent cmp · t) with
  | none =>
    rw [List.find?_eq_none] at h₂ ⊢
    exact fun a ha => h₂ a (hperm.mem_iff.1 ha)
  | some b =>
    have hb : b ∈ l₁ := hperm.mem_iff.2 (List.mem_of_find?_eq_some h₂)
    have hbt : equivalent cmp b t = true := List.find?_some (p := (equivalent cmp · t)) h₂
    exact find_eq_some (f := id) (by simpa using hsorted) hb hbt

end Order

end WeakOrder
