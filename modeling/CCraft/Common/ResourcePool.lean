import CCraft.Lib.Run
import Mathlib.Tactic

/-!
# The pool of resources

`ResourcePool` keeps resources that are not in use in a list, up to a number given to the
constructor.  `Get`, `Put`, `Count` and the destructor go by the counter `m_iCurResCnt`, which
nothing ever moves: `Put` appends as long as the maximum is not zero, `Get` always makes a new
resource and the destructor leaves the list alone.

Every operation holds the spin lock, so a call is one step.  A resource is put back by the one
who has got it.

Main results:

- Theorem {lit}`poolStep_inv`: the counter stays zero, and a resource in the list is not in use.
- Theorem {lit}`resource_pool_accounts_iff`: the accounts of the pool are right along a run
  exactly when no resource is put back into a pool with a maximum above zero.
-/

namespace CCraft
namespace Common

open Runs

/-! ## The pool -/

/-- The pool, with the resources in use and the number of the next new resource. -/
structure ResourcePool where
  maxResCnt : Nat
  curResCnt : Nat
  freeRes : List Nat
  inUse : List Nat
  next : Nat
deriving DecidableEq, Repr

/-- `Get` and `Put` with the resource that is given back. -/
inductive PoolLabel where
  | get
  | put (res : Nat)
deriving DecidableEq, Repr

namespace ResourcePool

/-- The constructor. -/
def new (maxResCnt : Nat) : ResourcePool := ⟨maxResCnt, 0, [], [], 0⟩

/-- `ResourcePool::Get` with the resource that it returns; taking the first element of an empty
list is undefined. -/
def get (s : ResourcePool) : Option (Nat × ResourcePool) :=
  if s.curResCnt = 0 then
    some (s.next, { s with inUse := s.next :: s.inUse, next := s.next + 1 })
  else
    match s.freeRes with
    | res :: rest => some (res, { s with freeRes := rest, inUse := res :: s.inUse })
    | [] => none

/-- `ResourcePool::Put`; a resource that is not pooled is deleted. -/
def put (s : ResourcePool) (res : Nat) : ResourcePool :=
  if s.curResCnt < s.maxResCnt then
    { s with freeRes := s.freeRes ++ [res], inUse := s.inUse.erase res }
  else { s with inUse := s.inUse.erase res }

/-- `ResourcePool::Count`. -/
def count (s : ResourcePool) : Nat := s.curResCnt

/-- The resources that the destructor deletes, in this order. -/
def deletedByDestructor (s : ResourcePool) : List Nat :=
  if s.curResCnt ≠ 0 then s.freeRes else []

end ResourcePool

/-- A call of any thread. -/
def poolStep (s : ResourcePool) : PoolLabel → Option ResourcePool
  | .get => s.get.map Prod.snd
  | .put res => if res ∈ s.inUse then some (s.put res) else none

/-- The counter is the number of the pooled resources and within the maximum, `Get` takes a
pooled resource when there is one, no pooled resource is in use, and the destructor deletes
the pooled resources, each of them once. -/
structure Accounted (s : ResourcePool) : Prop where
  count : s.count = s.freeRes.length
  capped : s.freeRes.length ≤ s.maxResCnt
  reuse : s.freeRes ≠ [] → ∀ r ∈ s.get, r.1 ∈ s.freeRes
  apart : ∀ res ∈ s.freeRes, res ∉ s.inUse
  deleted : s.deletedByDestructor.Perm s.freeRes ∧ s.deletedByDestructor.Nodup

/-- A resource is put back only into a pool that keeps none. -/
def KeepsNone (s : ResourcePool) : PoolLabel → Prop
  | .get => True
  | .put _ => s.maxResCnt = 0

instance (s : ResourcePool) : ∀ a, Decidable (KeepsNone s a)
  | .get => isTrue trivial
  | .put _ => inferInstanceAs (Decidable (s.maxResCnt = 0))

/-! ## What the calls do -/

variable {s s' : ResourcePool} {a : PoolLabel} {res : Nat}

/-- The counter is zero, the resources in use are different and have been made before, and none
of them is pooled. -/
structure PoolInv (s : ResourcePool) : Prop where
  count : s.curResCnt = 0
  made : ∀ res, res ∈ s.freeRes ∨ res ∈ s.inUse → res < s.next
  nodup : s.inUse.Nodup
  apart : ∀ res ∈ s.freeRes, res ∉ s.inUse

theorem new_poolInv (maxResCnt : Nat) : PoolInv (.new maxResCnt) :=
  ⟨rfl, by simp [ResourcePool.new], by simp [ResourcePool.new], by simp [ResourcePool.new]⟩

/-- The counter stays zero, so `Get` makes a new resource each time. -/
theorem PoolInv.get_eq (h : PoolInv s) :
    s.get = some (s.next, { s with inUse := s.next :: s.inUse, next := s.next + 1 }) := by
  rw [ResourcePool.get, if_pos h.count]

theorem PoolInv.get (h : PoolInv s) :
    PoolInv { s with inUse := s.next :: s.inUse, next := s.next + 1 } := by
  have hnew : s.next ∉ s.inUse := fun hmem => absurd (h.made s.next (.inr hmem)) (lt_irrefl _)
  refine ⟨h.count, ?_, List.nodup_cons.2 ⟨hnew, h.nodup⟩, ?_⟩
  · rintro res (hfree | huse)
    · exact Nat.lt_succ_of_lt (h.made res (.inl hfree))
    · rcases List.mem_cons.1 huse with rfl | huse
      · exact Nat.lt_succ_self _
      · exact Nat.lt_succ_of_lt (h.made res (.inr huse))
  · intro res hfree huse
    rcases List.mem_cons.1 huse with rfl | huse
    · exact absurd (h.made _ (.inl hfree)) (lt_irrefl _)
    · exact h.apart res hfree huse

theorem PoolInv.put (h : PoolInv s) (hres : res ∈ s.inUse) : PoolInv (s.put res) := by
  have hgone : ∀ r, r ∈ s.inUse.erase res ↔ r ≠ res ∧ r ∈ s.inUse := fun r => h.nodup.mem_erase_iff
  rw [ResourcePool.put]
  split_ifs
  · refine ⟨h.count, ?_, h.nodup.erase res, ?_⟩
    · rintro r (hfree | huse)
      · rcases List.mem_append.1 hfree with hfree | hlast
        · exact h.made r (.inl hfree)
        · rw [List.mem_singleton.1 hlast]
          exact h.made res (.inr hres)
      · exact h.made r (.inr ((hgone r).1 huse).2)
    · intro r hfree huse
      obtain ⟨hne, huse⟩ := (hgone r).1 huse
      rcases List.mem_append.1 hfree with hfree | hlast
      · exact h.apart r hfree huse
      · exact hne (List.mem_singleton.1 hlast)
  · refine ⟨h.count, ?_, h.nodup.erase res, ?_⟩
    · rintro r (hfree | huse)
      · exact h.made r (.inl hfree)
      · exact h.made r (.inr ((hgone r).1 huse).2)
    · intro r hfree huse
      exact h.apart r hfree ((hgone r).1 huse).2

/-- What a call does, as long as the counter is zero. -/
theorem PoolInv.poolStep_cases (h : PoolInv s) (hstep : poolStep s a = some s') :
    (a = .get ∧ s' = { s with inUse := s.next :: s.inUse, next := s.next + 1 }) ∨
      ∃ res ∈ s.inUse, a = .put res ∧ s' = s.put res := by
  cases a with
  | get =>
    simp only [poolStep, h.get_eq, Option.map_some, Option.some.injEq] at hstep
    exact .inl ⟨rfl, hstep.symm⟩
  | put res =>
    obtain ⟨hres, hput⟩ := Option.ite_none_right_eq_some.1 hstep
    exact .inr ⟨res, hres, rfl, (Option.some.inj hput).symm⟩

theorem poolStep_inv (h : PoolInv s) (hstep : poolStep s a = some s') : PoolInv s' := by
  obtain ⟨-, rfl⟩ | ⟨res, hres, -, rfl⟩ := h.poolStep_cases hstep
  · exact h.get
  · exact h.put hres

/-! ## The accounts -/

/-- With the counter at zero the accounts are right as long as the list is empty. -/
theorem PoolInv.accounted_iff (h : PoolInv s) : Accounted s ↔ s.freeRes = [] := by
  constructor
  · intro haccounted
    have hcount := haccounted.count
    rw [ResourcePool.count, h.count] at hcount
    exact List.length_eq_zero_iff.1 hcount.symm
  · intro hempty
    refine ⟨?_, ?_, fun hne => absurd hempty hne, h.apart, ?_⟩
    · rw [ResourcePool.count, h.count, hempty]
      rfl
    · rw [hempty]
      exact Nat.zero_le _
    · simp [ResourcePool.deletedByDestructor, h.count, hempty]

/-- A call keeps an empty list empty exactly when it does not put a resource into a pool with a
maximum above zero. -/
theorem PoolInv.freeRes_step (h : PoolInv s) (hempty : s.freeRes = [])
    (hstep : poolStep s a = some s') : s'.freeRes = [] ↔ KeepsNone s a := by
  obtain ⟨rfl, rfl⟩ | ⟨res, -, rfl, rfl⟩ := h.poolStep_cases hstep
  · exact iff_of_true hempty trivial
  · simp only [ResourcePool.put, KeepsNone, h.count]
    split_ifs with hroom
    · simp only [List.append_eq_nil_iff, List.cons_ne_self, and_false, false_iff]
      omega
    · exact iff_of_true hempty (by omega)

/-- For every maximum and in every interleaving of the calls, the accounts of the pool are right
in all states exactly when no resource is put back, unless the maximum is zero. -/
theorem resource_pool_accounts_iff {maxResCnt : Nat} {as : List PoolLabel} {t : ResourcePool}
    (hrun : run poolStep (.new maxResCnt) as = some t) :
    Always poolStep Accounted (.new maxResCnt) as ↔
      Guarded poolStep KeepsNone (.new maxResCnt) as := by
  refine always_iff_guarded (I := fun s => PoolInv s ∧ s.freeRes = []) (Q := fun _ => True)
    ?_ ?_ ?_ ⟨new_poolInv maxResCnt, rfl⟩ (fun _ _ => trivial) hrun
  · rintro s a s' ⟨hinv, hempty⟩ - hguard hstep
    exact ⟨poolStep_inv hinv hstep, (hinv.freeRes_step hempty hstep).2 hguard⟩
  · rintro s ⟨hinv, hempty⟩
    exact hinv.accounted_iff.2 hempty
  · rintro s a s' ⟨hinv, hempty⟩ - hguard hstep haccounted
    have hempty' := (poolStep_inv hinv hstep).accounted_iff.1 haccounted
    exact hguard ((hinv.freeRes_step hempty hstep).1 hempty')

/-- Two resources are taken from a pool that keeps none, and one is given back. -/
theorem resource_pool_accounts_iff_keeps_none :
    Always poolStep Accounted (.new 0) [.get, .get, .put 0] :=
  (resource_pool_accounts_iff (t := ⟨0, 0, [], [1], 2⟩) rfl).2 (by decide)

/-- A resource that is put back is not counted, the next `Get` makes a new one, and the
destructor deletes nothing. -/
theorem put_resource_is_not_counted :
    ∃ s, run poolStep (.new 8) [.get, .put 0] = some s ∧ ¬ Accounted s ∧ s.freeRes = [0] ∧
      s.count = 0 ∧ s.get.map Prod.fst = some 1 ∧ s.deletedByDestructor = [] :=
  ⟨_, rfl, fun h => absurd h.count (by decide), rfl, rfl, rfl, rfl⟩

end Common
end CCraft
