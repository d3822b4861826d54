import CCraft.Common.SkipList.Operations
import CCraft.Lib.Run

/-!
# Accesses of the skip list

Runs of the operations on a new skip list.  A run ends with the first access that goes wrong.  The
array `targetPrev` has `m_iMaxLevel` places, but `rand_level` also returns `m_iMaxLevel` itself,
and such a node is linked in on a level that the array does not have.

Main results:

- Theorem {lit}`index_safe_iff`: as long as new elements are not raised past smaller nodes, all
  accesses are right exactly when every new element is below the maximum level.
- Theorem {lit}`index_out_of_bounds`: accesses beyond `targetPrev`, and beyond the height of a node.
-/

namespace CCraft
namespace Common
namespace SkipList

open Runs

variable {T : Type} (cmp : T → T → Bool)

/-- An operation after others, none of which has gone wrong. -/
def step (x : Except SkipFault (SkipList T)) (op : SkipOp T) :
    Option (Except SkipFault (SkipList T)) :=
  match x with
  | .error _ => none
  | .ok s => if s.Possible op then some (s.apply cmp op) else none

/-- Nothing has gone wrong, and no search and no iteration goes wrong. -/
def Safe (x : Except SkipFault (SkipList T)) : Prop :=
  ∃ s, x = .ok s ∧ (∀ t, ∃ q, s.findNode cmp t = .ok q) ∧ ∃ ds, s.iterate = .ok ds

/-- A new element is below the maximum level. -/
def FitsAt (x : Except SkipFault (SkipList T)) (op : SkipOp T) : Prop :=
  match x with
  | .error _ => True
  | .ok s => s.Fits cmp op

/-- A new element is not raised past smaller nodes. -/
def RaisesAt (x : Except SkipFault (SkipList T)) (op : SkipOp T) : Prop :=
  match x with
  | .error _ => True
  | .ok s => s.Raises cmp op

instance (x : Except SkipFault (SkipList T)) (op : SkipOp T) : Decidable (FitsAt cmp x op) :=
  match x with
  | .error _ => .isTrue trivial
  | .ok s => inferInstanceAs (Decidable (s.Fits cmp op))

instance (x : Except SkipFault (SkipList T)) (op : SkipOp T) : Decidable (RaisesAt cmp x op) :=
  match x with
  | .error _ => .isTrue trivial
  | .ok s => inferInstanceAs (Decidable (s.Raises cmp op))

/-- The list is described by sorted entries. -/
def Described (x : Except SkipFault (SkipList T)) : Prop :=
  ∃ s es, x = .ok s ∧ s.Holds cmp es

variable {cmp} {x x' : Except SkipFault (SkipList T)} {op : SkipOp T}

theorem step_eq_some (h : step cmp x op = some x') :
    ∃ s, x = .ok s ∧ s.Possible op ∧ x' = s.apply cmp op := by
  cases x with
  | error f => cases h
  | ok s =>
    obtain ⟨hpossible, ⟨⟩⟩ := Option.ite_none_right_eq_some.1 h
    exact ⟨s, rfl, hpossible, rfl⟩

section Order

variable [IsStrictWeakOrder T fun a b => cmp a b = true]

theorem Described.safe (h : Described cmp x) : Safe cmp x := by
  obtain ⟨s, es, rfl, hholds⟩ := h
  refine ⟨s, rfl, fun t => ⟨_, findNode_eq hholds.represents hholds.sorted t⟩, _,
    iterate_eq hholds.represents⟩

theorem Described.keep (h : Described cmp x) (hraises : RaisesAt cmp x op)
    (hfits : FitsAt cmp x op) (hstep : step cmp x op = some x') : Described cmp x' := by
  obtain ⟨s, rfl, hpossible, rfl⟩ := step_eq_some hstep
  obtain ⟨_, es, ⟨⟩, hholds⟩ := h
  obtain ⟨s', es', happly, hholds', -⟩ :=
    apply_spec hholds hpossible hfits hraises
  exact ⟨s', es', happly, hholds'⟩

/-- A new element of the maximum level is not safe. -/
theorem Described.beyond (h : Described cmp x) (hfits : ¬ FitsAt cmp x op)
    (hstep : step cmp x op = some x') : x' = .error .targetPrevIndex := by
  obtain ⟨s, rfl, -, rfl⟩ := step_eq_some hstep
  obtain ⟨_, es, ⟨⟩, hholds⟩ := h
  exact apply_beyond hholds hfits

end Order

/-- As long as new elements are not raised past smaller nodes, all accesses are right exactly when
every new element is below the maximum level. -/
theorem index_safe_iff [Inhabited T] [IsStrictWeakOrder T fun a b => cmp a b = true]
    (maxLevel : Option (Fin 32)) (ops : List (SkipOp T)) (x : Except SkipFault (SkipList T))
    (hrun : run (step cmp) (.ok (new maxLevel)) ops = some x)
    (hraises : Guarded (step cmp) (RaisesAt cmp) (.ok (new maxLevel)) ops) :
    Always (step cmp) (Safe cmp) (.ok (new maxLevel)) ops ↔
      Guarded (step cmp) (FitsAt cmp) (.ok (new maxLevel)) ops := by
  refine always_iff_guarded_of_guarded (I := Described cmp) ?_ ?_ ?_ ?_ hraises hrun
  · exact fun x op x' hI hH hG hstep => hI.keep hH hG hstep
  · exact fun x hI => hI.safe
  · intro x op x' hI _ hG hstep hsafe
    obtain ⟨s, hok, -⟩ := hsafe
    cases hok.symm.trans (hI.beyond hG hstep)
  · exact ⟨new maxLevel, [], rfl, holds_new maxLevel⟩

/-- Three numbers on the levels 0, 2 and 1, and one of them erased. -/
theorem index_safe_three_elements :
    ∃ x, run (step less) (.ok (new (some 15))) [.insert 7 0 1, .insert 3 2 2, .insert 5 1 3,
        .erase 3] = some x ∧
      Always (step less) (Safe less) (.ok (new (some 15))) [.insert 7 0 1, .insert 3 2 2,
        .insert 5 1 3, .erase 3] :=
  ⟨_, rfl, (index_safe_iff (some 15) _ _ rfl (by decide)).2 (by decide)⟩

/-- A node of the maximum level is beyond `targetPrev`, for the default constructor and for 32
levels.  And 3 is erased while 5 still has it on level 1: the node of 4 at its address has no
pointer on that level. -/
theorem index_out_of_bounds :
    run (step less) (.ok (new none)) [.insert 1 3 1] = some (.error .targetPrevIndex) ∧
      run (step less) (.ok (new (some 31))) [.insert 1 31 1] = some (.error .targetPrevIndex) ∧
      run (step less) (.ok (new none)) [.insert 3 1 1, .insert 5 2 2, .erase 3, .insert 4 0 1,
        .insert 9 0 3] = some (.error .nextIndex) :=
  ⟨rfl, rfl, rfl⟩

end SkipList

end Common
end CCraft
