import CCraft.Common.SkipList.Operations
import CCraft.Lib.Run

/-!
# The skip list as an ordered set

Runs of the operations on a new skip list, beside the set that the same operations give.  For a
node that is higher than the current level {lit}`insert` takes the head as the predecessor on the
current level too, although smaller nodes can be there.  {lit}`clear` does not reset the current
level.

Main results:

- Theorem {lit}`ordered_set_iff`: the skip list is an ordered set exactly as long as new elements
  are below the maximum level and are not raised past smaller nodes, and the list is cleared only at
  level 0.
- Theorem {lit}`raised_element_is_first`: two insertions after which the list is not sorted.
-/

namespace CCraft
namespace Common
namespace SkipList

open Chains WeakOrder SkipEntry Runs

variable {T : Type} (cmp : T → T → Bool)

/-! ## Runs beside a set -/

/-- The list, or what has gone wrong, and the set of the same operations. -/
abbrev WithReference (T : Type) := Except SkipFault (SkipList T) × List T

/-- An operation on the list and on the set. -/
def stepBoth (x : WithReference T) (op : SkipOp T) : Option (WithReference T) :=
  match x.1 with
  | .error _ => none
  | .ok s => if s.Possible op then some (s.apply cmp op, reference cmp x.2 op) else none

/-- The chains and the data that an ordered set has: each level is a part of the one below it, the
bottom level is strictly increasing, the current level is the highest one with nodes, and the
searches and the iteration agree with the set. -/
structure AgreesWith (s : SkipList T) (ref : List T) (chain : Nat → List Nat) (ds : List T) :
    Prop where
  linked : ∀ i ≤ s.maxLevel, Linked (s.nextAt i) s.head (chain i)
  data : (chain 0).map s.data = ds.map .ok
  increasing : Sorted cmp ds
  sub : ∀ i < s.maxLevel, (chain (i + 1)).Sublist (chain i)
  highest : s.curLevel = 0 ∨ chain s.curLevel ≠ []
  above : ∀ i ≤ s.maxLevel, s.curLevel < i → chain i = []
  contains : ∀ t, s.contains cmp t = .ok (ref.any (equivalent cmp · t))
  get : ∀ t, s.get cmp t = .ok (ref.find? (equivalent cmp · t))
  iterate : s.iterate = .ok ds
  elements : ds.Perm ref

/-- The list is an ordered set, with the elements of the reference. -/
def OrderedSet (x : WithReference T) : Prop :=
  ∃ s chain ds, x.1 = .ok s ∧ s.AgreesWith cmp x.2 chain ds

/-- New elements are below the maximum level and not raised past smaller nodes, and the list is
cleared only at level 0. -/
def Orderly (x : WithReference T) (op : SkipOp T) : Prop :=
  match x.1 with
  | .error _ => True
  | .ok s => s.Fits cmp op ∧ s.Raises cmp op ∧ s.LevelKept op

instance (x : WithReference T) (op : SkipOp T) : Decidable (Orderly cmp x op) :=
  match x with
  | (.error _, _) => .isTrue trivial
  | (.ok s, _) =>
    inferInstanceAs (Decidable (s.Fits cmp op ∧ s.Raises cmp op ∧ s.LevelKept op))

/-- The list is described by sorted entries with the elements of the reference, and the current
level is the highest one of them. -/
def Ordered (x : WithReference T) : Prop :=
  ∃ s es, x.1 = .ok s ∧ s.Holds cmp es ∧ (es.map (·.data)).Perm x.2 ∧ s.curLevel = top es

variable {cmp} {s : SkipList T} {es ls gs : List (SkipEntry T)} {t : T} {level addr : Nat}
  {x x' : WithReference T} {op : SkipOp T}

theorem stepBoth_eq_some (h : stepBoth cmp x op = some x') :
    ∃ s, x.1 = .ok s ∧ s.Possible op ∧ x' = (s.apply cmp op, reference cmp x.2 op) := by
  obtain ⟨r, ref⟩ := x
  cases r with
  | error f => cases h
  | ok s =>
    obtain ⟨hpossible, ⟨⟩⟩ := Option.ite_none_right_eq_some.1 h
    exact ⟨s, rfl, hpossible, rfl⟩

/-- Sets with the same elements have the same elements after an operation. -/
theorem reference_perm {l₁ l₂ : List T} (h : l₁.Perm l₂) (op : SkipOp T) :
    (reference cmp l₁ op).Perm (reference cmp l₂ op) := by
  cases op with
  | insert t level addr => exact (h.filter _).cons t
  | erase t => exact h.filter _
  | clear => exact .nil

section Order

variable [IsStrictWeakOrder T fun a b => cmp a b = true]

/-! ## The invariant -/

/-- What sorted entries describe is an ordered set. -/
theorem Ordered.orderedSet (h : Ordered cmp x) : OrderedSet cmp x := by
  obtain ⟨s, es, hx, ⟨hrep, hsorted⟩, hperm, htop⟩ := h
  refine ⟨s, levelAddrs es, es.map (·.data), hx, hrep.chain, ?_, hsorted,
    fun i _ => levelAddrs_succ_sublist, ?_, ?_, ?_, ?_, iterate_eq hrep, hperm⟩
  · rw [levelAddrs_zero, List.map_map, List.map_map]
    exact List.map_congr_left fun e he => data_eq_ok (hrep.entry e he)
  · cases hcur : s.curLevel with
    | zero => exact .inl rfl
    | succ n =>
      refine .inr fun hnil => ?_
      have := levelAddrs_eq_nil_iff.1 hnil
      omega
  · intro i _ hi
    obtain ⟨j, rfl⟩ : ∃ j, i = j + 1 := ⟨i - 1, by omega⟩
    exact levelAddrs_eq_nil_iff.2 (by omega)
  · intro t
    rw [contains_eq hrep hsorted, hperm.any_eq]
  · intro t
    rw [get_eq hrep hsorted, find_equivalent hsorted hperm]

/-- The invariant is kept. -/
theorem Ordered.keep (h : Ordered cmp x) (horderly : Orderly cmp x op)
    (hstep : stepBoth cmp x op = some x') : Ordered cmp x' := by
  obtain ⟨s, hx, hpossible, rfl⟩ := stepBoth_eq_some hstep
  obtain ⟨_, es, hx', hholds, hperm, htop⟩ := h
  cases hx.symm.trans hx'
  rw [Orderly, hx] at horderly
  obtain ⟨hfits, hraises, hkept⟩ := horderly
  obtain ⟨s', es', happly, hholds', -, hperm', htop'⟩ := apply_spec hholds hpossible hfits hraises
  exact ⟨s', es', happly, hholds', hperm'.trans (reference_perm hperm op), htop' htop hkept⟩

/-! ## Breaking it -/

omit [IsStrictWeakOrder T fun a b => cmp a b = true] in
/-- A list that is cleared above level 0 has a current level without nodes. -/
theorem not_orderedSet_clear (h : s.Holds cmp es) (hlevel : s.curLevel ≠ 0) (ref : List T) :
    ¬ OrderedSet cmp (s.clear, ref) := by
  rintro ⟨s₁, chain, ds, hx, hagrees⟩
  obtain ⟨s', hclear, hcur, hmax, hrep⟩ := clear_spec h.represents
  cases hclear.symm.trans hx
  have hle : s₁.curLevel ≤ s₁.maxLevel := hrep.level.le
  have hnil : chain s₁.curLevel = [] := (hagrees.linked _ hle).unique (hrep.chain _ hle)
  rcases hagrees.highest with hzero | hne
  · omega
  · exact hne hnil

/-- On the bottom level a raised node is before a smaller one. -/
theorem not_increasing_of_first {ref ds : List T} {chain : Nat → List Nat} {e : SkipEntry T}
    {k : Nat} {l : List Nat} (h : s.AgreesWith cmp ref chain ds) (hchain : chain 0 = addr :: l)
    (haddr : s.shape addr = some (t, k)) (he : e.addr ∈ l)
    (hentry : s.shape e.addr = some (e.data, e.height + 1)) : cmp e.data t = false := by
  have hdata := h.data
  have hsorted := h.increasing
  rw [hchain] at hdata
  cases ds with
  | nil => cases hdata
  | cons d ds =>
    rw [List.map_cons, List.map_cons, List.cons.injEq, data_eq_ok haddr] at hdata
    obtain ⟨⟨⟩, hrest⟩ := hdata
    have hmem : s.data e.addr ∈ ds.map Except.ok := hrest ▸ List.mem_map_of_mem he
    rw [data_eq_ok hentry] at hmem
    obtain ⟨d', hd', ⟨⟩⟩ := List.mem_map.1 hmem
    exact cmp_asymm ((List.pairwise_cons.1 hsorted).1 _ hd')

/-- On the levels above a raised node is before the smaller ones, and below behind them. -/
theorem not_sub_of_first {i : Nat} {e : SkipEntry T} (hnodup : ((ls ++ gs).map (·.addr)).Nodup)
    (haddr : addr ∉ (ls ++ gs).map (·.addr)) (he : e ∈ ls) (hheight : i + 1 ≤ e.height) :
    ¬ (addr :: levelAddrs (ls ++ gs) (i + 1)).Sublist
      (levelAddrs ls i ++ addr :: levelAddrs gs i) := by
  intro hsub
  have hnot : addr ∉ levelAddrs ls i := by
    intro hmem
    have := levelAddrs_sublist.mem hmem
    exact haddr (by simp only [List.map_append, List.mem_append]; exact .inl this)
  have hmem : e.addr ∈ levelAddrs (ls ++ gs) (i + 1) :=
    mem_levelAddrs.2 ⟨e, List.mem_append_left gs he, hheight, rfl⟩
  have hbehind := levelAddrs_sublist.mem ((sublist_of_cons_sublist hnot hsub).mem hmem)
  rw [List.map_append] at hnodup
  exact (List.nodup_append.1 hnodup).2.2 _ (List.mem_map_of_mem he) _ hbehind rfl

/-- A new node that is raised past smaller nodes is before them on the current level, and behind
them below it. -/
theorem not_orderedSet_raised (h : s.Holds cmp (ls ++ gs)) (hls : ∀ e ∈ ls, cmp e.data t = true)
    (hgs : ∀ e ∈ gs, cmp t e.data = true) (hlevel : level < s.maxLevel)
    (hfree : s.heap addr = none) (hraise : s.curLevel < level)
    (hsmaller : levelAddrs ls s.curLevel ≠ []) (ref : List T) :
    ¬ OrderedSet cmp (s.insert cmp t level addr, ref) := by
  rintro ⟨s₁, chain, ds, hx, hagrees⟩
  obtain ⟨s', hinsert, hin⟩ := insertNew_spec h.represents hlevel hfree t
  rw [insert_eq h.represents hls hgs] at hx
  cases hinsert.symm.trans hx
  obtain ⟨hhead, -, hmax, -⟩ := frame_eq hin.frame
  have hchain : ∀ i ≤ level, chain i = s.front ls level i ++ addr :: s.back ls gs level i := by
    intro i hi
    have hlinked := hagrees.linked i (by rw [hmax]; exact hi.trans hlevel.le)
    rw [hhead] at hlinked
    exact hlinked.unique (hin.here i (Nat.lt_succ_of_le hi))
  have hcurrent : chain s.curLevel = addr :: levelAddrs (ls ++ gs) s.curLevel := by
    rw [hchain _ hraise.le, front, back, if_pos ⟨hraise, le_rfl⟩, if_pos ⟨hraise, le_rfl⟩]
    rfl
  obtain ⟨a, ha⟩ := List.exists_mem_of_ne_nil _ hsmaller
  obtain ⟨e, he, hheight, rfl⟩ := mem_levelAddrs.1 ha
  have hfresh := h.represents.free hfree
  cases hcur : s.curLevel with
  | zero =>
    have hshape : s₁.shape = Function.update s.shape addr (some (t, level + 1)) :=
      hin.shape.trans shape_createNode
    have hmem : e.addr ∈ levelAddrs (ls ++ gs) 0 :=
      mem_levelAddrs.2 ⟨e, List.mem_append_left gs he, Nat.zero_le _, rfl⟩
    have hne : e.addr ≠ addr := by
      intro heq
      have hmem := List.mem_map_of_mem (f := (·.addr)) (List.mem_append_left gs he)
      exact hfresh (List.mem_cons_of_mem _ (heq ▸ hmem))
    have hnot := not_increasing_of_first hagrees (hcur ▸ hcurrent)
      (by rw [hshape, Function.update_self]) hmem
      (by rw [hshape, Function.update_of_ne hne, h.represents.entry e (by simp [he])])
    rw [hls e he] at hnot
    cases hnot
  | succ i =>
    have hbelow : chain i = levelAddrs ls i ++ addr :: levelAddrs gs i := by
      have hlow : ¬ (s.curLevel < level ∧ s.curLevel ≤ i) := by omega
      rw [hchain i (by omega), front, back, if_neg hlow, if_neg hlow]
    have hsub := hagrees.sub i (by rw [hmax]; exact (by omega : i < level).trans hlevel)
    rw [← hcur, hcurrent, hcur, hbelow] at hsub
    refine not_sub_of_first (List.nodup_cons.1 h.represents.nodup).2
      (fun hmem => hfresh (List.mem_cons_of_mem _ hmem)) he (hcur ▸ hheight) hsub

/-- Every other operation breaks the ordered set at once. -/
theorem Ordered.broken (h : Ordered cmp x) (horderly : ¬ Orderly cmp x op)
    (hstep : stepBoth cmp x op = some x') : ¬ OrderedSet cmp x' := by
  obtain ⟨s, hx, hpossible, rfl⟩ := stepBoth_eq_some hstep
  obtain ⟨_, es, hx', hholds, -⟩ := h
  cases hx.symm.trans hx'
  rw [Orderly, hx] at horderly
  by_cases hfits : s.Fits cmp op
  · cases op with
    | insert t level addr =>
      have hraises : ¬ s.Raises cmp (.insert t level addr) := fun hraises =>
        horderly ⟨hfits, hraises, trivial⟩
      simp only [Raises, not_or, Nat.not_le] at hraises
      obtain ⟨hnew, hraise, hpasses⟩ := hraises
      obtain ⟨ls, gs, rfl, hls, hgs⟩ | ⟨ls, g, gs, rfl, hls, hg, hgs⟩ :=
        exists_cut hholds.sorted t
      · exact not_orderedSet_raised hholds hls hgs (hfits.resolve_left hnew)
          (Option.isNone_iff_eq_none.1 hpossible.2) hraise
          (mt (hholds.passes_iff hls hgs).2 hpasses) _
      · exact (hnew (hholds.contains_of_equivalent hg)).elim
    | erase t => exact (horderly ⟨trivial, trivial, trivial⟩).elim
    | clear =>
      refine not_orderedSet_clear hholds ?_ _
      intro hzero
      exact horderly ⟨trivial, trivial, hzero⟩
  · rintro ⟨s', chain, ds, hok, -⟩
    cases hok.symm.trans (apply_beyond hholds hfits)

end Order

/-- The skip list is an ordered set along a run exactly when new elements are below the maximum
level and are not raised past smaller nodes, and the list is cleared only at level 0. -/
theorem ordered_set_iff [Inhabited T] [IsStrictWeakOrder T fun a b => cmp a b = true]
    (maxLevel : Option (Fin 32)) (ops : List (SkipOp T)) (x : WithReference T)
    (hrun : run (stepBoth cmp) (.ok (new maxLevel), []) ops = some x) :
    Always (stepBoth cmp) (OrderedSet cmp) (.ok (new maxLevel), []) ops ↔
      Guarded (stepBoth cmp) (Orderly cmp) (.ok (new maxLevel), []) ops := by
  have hnew : (new maxLevel : SkipList T).curLevel = 0 := by
    cases maxLevel <;> rfl
  refine always_iff_guarded (I := Ordered cmp) (Q := fun _ => True) ?_ ?_ ?_ ?_ ?_ hrun
  · exact fun x op x' hI _ hG hstep => hI.keep hG hstep
  · exact fun x hI => hI.orderedSet
  · exact fun x op x' hI _ hG hstep => hI.broken hG hstep
  · exact ⟨new maxLevel, [], rfl, holds_new maxLevel, .nil, hnew⟩
  · exact fun _ _ => trivial

/-- Four numbers, one of them twice, and one erased. -/
theorem ordered_set_of_numbers :
    ∃ x, run (stepBoth less) (.ok (new none), []) [.insert 7 0 1, .insert 3 2 2, .insert 5 1 3,
        .insert 5 0 4, .erase 3] = some x ∧ x.2 = [5, 7] ∧
      Always (stepBoth less) (OrderedSet less) (.ok (new none), []) [.insert 7 0 1, .insert 3 2 2,
        .insert 5 1 3, .insert 5 0 4, .erase 3] :=
  ⟨_, rfl, by decide, (ordered_set_iff none _ _ rfl).2 (by decide)⟩

/-- 2 is on level 1, where there is no node yet, and is linked in before 1 on level 0. -/
theorem raised_element_is_first :
    ∃ s, run (stepBoth less) (.ok (new none), []) [.insert 1 0 1, .insert 2 1 2] =
        some (.ok s, [2, 1]) ∧
      s.iterate = .ok [2, 1] ∧ s.contains less 1 = .ok false ∧
      ¬ OrderedSet less (.ok s, [2, 1]) := by
  refine ⟨_, rfl, rfl, rfl, ?_⟩
  rintro ⟨s, chain, ds, ⟨⟩, hagrees⟩
  have hds : ds = [2, 1] := Except.ok.inj (hagrees.iterate.symm.trans rfl)
  have hlt : less 2 1 = true := (List.pairwise_cons.1 (hds ▸ hagrees.increasing)).1 1 (by simp)
  cases hlt

end SkipList

end Common
end CCraft
