import CCraft.Common.SkipList.Erase

/-!
# The operations of the skip list

The operations together, with the set of elements that they stand for.  Two things can happen to
a new element.  Its level can be the maximum level, which is beyond the end of `targetPrev`.  And
it can be higher than the current level while the current level has smaller nodes: these are then
behind it on that level.

Main results:

- Theorem {lit}`apply_spec`: otherwise an operation keeps the list sorted, and the elements are
  those of the set.
- Theorem {lit}`apply_beyond`: a new element of the maximum level is the end.
-/

namespace CCraft
namespace Common

open Chains WeakOrder SkipEntry

/-- An operation; for `insert` with what `rand_level` returns and the address of a new node. -/
inductive SkipOp (T : Type) where
  | insert (t : T) (level addr : Nat)
  | erase (t : T)
  | clear

namespace SkipList

variable {T : Type} {s : SkipList T} {es ls gs : List (SkipEntry T)} {g : SkipEntry T} {t : T}
  {level addr : Nat} {op : SkipOp T}

/-- `rand_level` returns at most the maximum level, and `calloc` no address that is in use. -/
def Possible (s : SkipList T) : SkipOp T → Prop
  | .insert _ level addr => level ≤ s.maxLevel ∧ (s.heap addr).isNone
  | .erase _ => True
  | .clear => True

/-- The list is cleared only at level 0. -/
def LevelKept (s : SkipList T) : SkipOp T → Prop
  | .insert _ _ _ => True
  | .erase _ => True
  | .clear => s.curLevel = 0

instance : Decidable (s.LevelKept op) :=
  match op with
  | .clear => inferInstanceAs (Decidable (s.curLevel = 0))
  | .insert _ _ _ | .erase _ => isTrue trivial

instance : Decidable (s.Possible op) :=
  match op with
  | .insert _ level addr => inferInstanceAs (Decidable (level ≤ s.maxLevel ∧ (s.heap addr).isNone))
  | .erase _ | .clear => isTrue trivial

variable (cmp : T → T → Bool)

/-- The operation on the list. -/
def apply (s : SkipList T) : SkipOp T → Except SkipFault (SkipList T)
  | .insert t level addr => s.insert cmp t level addr
  | .erase t => (s.erase cmp t).map Prod.snd
  | .clear => s.clear

/-- The operation on the set. -/
def reference (ref : List T) : SkipOp T → List T
  | .insert t _ _ => add cmp t ref
  | .erase t => remove cmp t ref
  | .clear => []

/-- Whether the first node of the current level is smaller. -/
def passes (s : SkipList T) (t : T) : Except SkipFault Bool :=
  s.next s.head s.curLevel >>= fun q =>
    match q with
    | none => .ok false
    | some q => s.data q >>= fun d => .ok (cmp d t)

/-- A new element is below the maximum level. -/
def Fits (s : SkipList T) : SkipOp T → Prop
  | .insert t level _ => s.contains cmp t = .ok true ∨ level < s.maxLevel
  | .erase _ => True
  | .clear => True

/-- A new element that is higher than the current level has no smaller node on that level. -/
def Raises (s : SkipList T) : SkipOp T → Prop
  | .insert t level _ =>
    s.contains cmp t = .ok true ∨ level ≤ s.curLevel ∨ s.passes cmp t = .ok false
  | .erase _ => True
  | .clear => True

instance : Decidable (s.Fits cmp op) :=
  match op with
  | .insert t level _ =>
    inferInstanceAs (Decidable (s.contains cmp t = .ok true ∨ level < s.maxLevel))
  | .erase _ | .clear => isTrue trivial

instance : Decidable (s.Raises cmp op) :=
  match op with
  | .insert t level _ => inferInstanceAs
      (Decidable (s.contains cmp t = .ok true ∨ level ≤ s.curLevel ∨ s.passes cmp t = .ok false))
  | .erase _ | .clear => isTrue trivial

/-! ## Sorted lists -/

/-- The list is described by sorted entries. -/
structure Holds (s : SkipList T) (es : List (SkipEntry T)) : Prop where
  represents : s.Represents es
  sorted : Sorted cmp (es.map (·.data))

variable {cmp}

/-- A new list has no entries. -/
theorem holds_new [Inhabited T] (maxLevel : Option (Fin 32)) :
    (new maxLevel : SkipList T).Holds cmp [] := by
  have hinit : ∀ n, (init n : SkipList T).Holds cmp [] := by
    intro n
    have hmax : 0 < initMaxLevel n := by
      unfold initMaxLevel
      split <;> omega
    have hhead : (init n : SkipList T).heap (init n : SkipList T).head =
        some ⟨default, List.replicate (initMaxLevel n + 1) none⟩ := rfl
    refine ⟨⟨⟨default, ?_⟩, by simp, by simp, ?_, by simp, hmax, Nat.one_pos⟩, List.Pairwise.nil⟩
    · simp [shape, init]
    · intro i hi
      have hlt : i < initMaxLevel n + 1 := Nat.lt_succ_of_le hi
      show (init n : SkipList T).nextAt i (init n : SkipList T).head = some none
      simp [nextAt, hhead, hlt]
  cases maxLevel with
  | none => exact hinit defaultLevel
  | some k => exact hinit _

theorem smaller_map (hls : ∀ e ∈ ls, cmp e.data t = true) :
    ∀ a ∈ ls.map (·.data), cmp a t = true :=
  List.forall_mem_map.2 hls

theorem greater_map (hgs : ∀ e ∈ gs, cmp t e.data = true) :
    ∀ a ∈ gs.map (·.data), cmp t a = true :=
  List.forall_mem_map.2 hgs

section Order

variable [IsStrictWeakOrder T fun a b => cmp a b = true]

/-- An equivalent entry and the greater ones are not smaller. -/
theorem not_smaller (hg : equivalent cmp g.data t = true) (hgs : ∀ e ∈ gs, cmp t e.data = true) :
    ∀ e ∈ g :: gs, cmp e.data t = false := by
  intro e he
  rcases List.mem_cons.1 he with rfl | he
  · exact (equivalent_iff.1 hg).1
  · exact cmp_asymm (hgs e he)

/-- An element between the smaller and the greater ones is not in the list. -/
theorem Holds.contains_of_greater (h : s.Holds cmp (ls ++ gs))
    (hls : ∀ e ∈ ls, cmp e.data t = true) (hgs : ∀ e ∈ gs, cmp t e.data = true) :
    s.contains cmp t = .ok false := by
  rw [contains, findNode_eq h.represents h.sorted, find_eq_none hls hgs]
  rfl

theorem Holds.contains_of_equivalent (h : s.Holds cmp (ls ++ g :: gs))
    (hg : equivalent cmp g.data t = true) : s.contains cmp t = .ok true := by
  rw [contains_eq h.represents h.sorted]
  simp [hg]

/-- Whether the current level has a smaller node. -/
theorem Holds.passes_iff (h : s.Holds cmp (ls ++ gs)) (hls : ∀ e ∈ ls, cmp e.data t = true)
    (hgs : ∀ e ∈ gs, cmp t e.data = true) :
    s.passes cmp t = .ok false ↔ levelAddrs ls s.curLevel = [] := by
  have hnext : s.next s.head s.curLevel = .ok (levelAddrs (ls ++ gs) s.curLevel).head? :=
    next_eq_ok.2 (h.represents.chain _ h.represents.level.le).head
  rw [passes, hnext, Fallible.ok_bind, levelAddrs_append]
  cases hsmall : levelAddrs ls s.curLevel with
  | nil =>
    cases hfirst : (levelAddrs gs s.curLevel).head? with
    | none => simp [hfirst]
    | some a =>
      obtain ⟨e, he, -, rfl⟩ := mem_levelAddrs.1 (List.mem_of_mem_head? hfirst)
      have hdata := data_eq_ok (h.represents.entry e (by simp [he]))
      simp [hfirst, hdata, cmp_asymm (hgs e he)]
  | cons a l =>
    have ha : a ∈ levelAddrs ls s.curLevel := by simp [hsmall]
    obtain ⟨e, he, -, rfl⟩ := mem_levelAddrs.1 ha
    have hdata := data_eq_ok (h.represents.entry e (by simp [he]))
    simp [hdata, hls e he]

/-- What follows from an operation: the list is described by other sorted entries, with the elements
of the set, and the current level stays the highest one with a node. -/
def Refines (cmp : T → T → Bool) (s : SkipList T) (es : List (SkipEntry T)) (op : SkipOp T) :
    Prop :=
  ∃ s' es', s.apply cmp op = .ok s' ∧ s'.Holds cmp es' ∧ s'.maxLevel = s.maxLevel ∧
    (es'.map (·.data)).Perm (reference cmp (es.map (·.data)) op) ∧
    (s.curLevel = top es → s.LevelKept op → s'.curLevel = top es')

theorem refines_insert (h : s.Holds cmp es) (hfree : s.heap addr = none)
    (hfits : s.Fits cmp (.insert t level addr)) (hraises : s.Raises cmp (.insert t level addr)) :
    Refines cmp s es (.insert t level addr) := by
  obtain ⟨ls, gs, rfl, hls, hgs⟩ | ⟨ls, g, gs, rfl, hls, hg, hgs⟩ := exists_cut h.sorted t
  · have hnew : s.contains cmp t ≠ .ok true := by
      rw [h.contains_of_greater hls hgs]
      simp
    have hlevel : level < s.maxLevel := hfits.resolve_left hnew
    have hraise : s.curLevel < level → levelAddrs ls s.curLevel = [] := by
      intro hlt
      exact (h.passes_iff hls hgs).1 ((hraises.resolve_left hnew).resolve_left (by omega))
    obtain ⟨s', hinsert, hcur, hmax, hrep⟩ :=
      insert_of_greater h.represents hls hgs hlevel hfree hraise
    have hsorted := h.sorted
    rw [List.map_append] at hsorted
    have hls' := smaller_map hls
    have hgs' := greater_map hgs
    refine ⟨s', _, hinsert, ⟨hrep, ?_⟩, hmax, ?_, ?_⟩
    · rw [List.map_append]
      exact sorted_middle hsorted hls' hgs'
    · rw [List.map_append, List.map_append]
      exact (add_perm hls' hgs').symm
    · intro htop _
      simp only [hcur, htop, top_append, top]
      omega
  · have htg := (equivalent_iff.1 hg).2
    obtain ⟨s', hinsert, hcur, hmax, hrep⟩ :=
      insert_of_equivalent h.represents hls (not_smaller hg hgs) htg
    have hsorted : Sorted cmp (ls.map (·.data) ++ gs.map (·.data)) := by
      refine List.Pairwise.sublist ?_ h.sorted
      rw [List.map_append, List.map_cons]
      exact List.Sublist.append_left (List.sublist_cons_self ..) _
    have hls' := smaller_map hls
    have hgs' := greater_map hgs
    refine ⟨s', _, hinsert, ⟨hrep, ?_⟩, hmax, ?_, ?_⟩
    · rw [List.map_append]
      exact sorted_middle hsorted hls' hgs'
    · rw [List.map_append, List.map_append]
      exact (replace_perm hls' hgs' hg).symm
    · intro htop _
      simp only [hcur, htop, top_append, top]

theorem refines_erase (h : s.Holds cmp es) : Refines cmp s es (.erase t) := by
  obtain ⟨ls, gs, rfl, hls, hgs⟩ | ⟨ls, g, gs, rfl, hls, hg, hgs⟩ := exists_cut h.sorted t
  · have herase := erase_of_greater h.represents hls hgs
    refine ⟨s, ls ++ gs, by rw [apply, herase]; rfl, h, rfl, ?_, fun htop _ => htop⟩
    rw [reference, remove, filter_eq_self]
    intro a ha
    rw [List.map_append] at ha
    rcases List.mem_append.1 ha with ha | ha
    · exact .inl (smaller_map hls a ha)
    · exact .inr (greater_map hgs a ha)
  · have htg := (equivalent_iff.1 hg).2
    obtain ⟨s', herase, hcur, hmax, hrep⟩ :=
      erase_of_equivalent h.represents hls (not_smaller hg hgs) htg
    refine ⟨s', ls ++ gs, by rw [apply, herase]; rfl, ⟨hrep, ?_⟩, hmax, ?_, fun _ _ => hcur⟩
    · refine List.Pairwise.sublist (List.Sublist.map _ ?_) h.sorted
      exact List.Sublist.append_left (List.sublist_cons_self ..) _
    · rw [reference, List.map_append, List.map_append, List.map_cons,
        remove_eq (smaller_map hls) (greater_map hgs) hg]

/-- An operation keeps the list sorted, and its elements are those of the set. -/
theorem apply_spec (h : s.Holds cmp es) (hpossible : s.Possible op) (hfits : s.Fits cmp op)
    (hraises : s.Raises cmp op) : Refines cmp s es op := by
  cases op with
  | insert t level addr =>
    exact refines_insert h (Option.isNone_iff_eq_none.1 hpossible.2) hfits hraises
  | erase t => exact refines_erase h
  | clear =>
    obtain ⟨s', hclear, hcur, hmax, hrep⟩ := clear_spec h.represents
    exact ⟨s', [], hclear, ⟨hrep, List.Pairwise.nil⟩, hmax, .nil, fun _ hzero => hcur.trans hzero⟩

/-- A new element of the maximum level is beyond the end of `targetPrev`. -/
theorem apply_beyond (h : s.Holds cmp es) (hfits : ¬ s.Fits cmp op) :
    s.apply cmp op = .error .targetPrevIndex := by
  cases op with
  | insert t level addr =>
    obtain ⟨hnew, hlevel⟩ := not_or.1 hfits
    obtain ⟨ls, gs, rfl, hls, hgs⟩ | ⟨ls, g, gs, rfl, hls, hg, hgs⟩ := exists_cut h.sorted t
    · exact insert_beyond h.represents hls hgs (Nat.le_of_not_lt hlevel)
    · exact (hnew (h.contains_of_equivalent hg)).elim
  | erase | clear => exact (hfits trivial).elim

end Order

/-! ## The default comparison -/

/-- `std::less` on numbers. -/
def less (a b : Nat) : Bool :=
  a < b

instance isStrictWeakOrder_less : IsStrictWeakOrder Nat fun a b => less a b = true where
  irrefl a h := absurd (of_decide_eq_true h) (Nat.lt_irrefl a)
  trans _ _ _ h h' := decide_eq_true ((of_decide_eq_true h).trans (of_decide_eq_true h'))
  incomp_trans a b c h h' := by
    simp only [less, decide_eq_true_eq] at h h' ⊢
    omega

end SkipList

end Common
end CCraft
