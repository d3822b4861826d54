import Mathlib.Algebra.Order.BigOperators.Group.Finset
import Mathlib.Data.Fintype.BigOperators
import Mathlib.Tactic

/-!
# Threads at a condition variable

A thread is outside, waits, or has been woken and is about to look again; a thread that waits or
has been woken keeps what it was called with.  A group of threads is described by how many of them
are at each place.

Main results:

- Theorem {lit}`tally_update`: how the number of the members that pass a test changes with one
  member.
- Theorems {lit}`start_group` and {lit}`exists_of_start`: a thread can start if the numbers say so,
  and what its start does to the numbers.
- Theorems {lit}`wake_group` and {lit}`exists_of_wake`: the same for a thread that is woken.
-/

namespace ThreadGroups

variable {ι α X : Type*} [Fintype ι]

/-! ## Counting by a test -/

/-- The number of members that pass the test. -/
def tally (f : ι → α) (test : α → Bool) : Nat :=
  ∑ i, (test (f i)).toNat

theorem tally_pos {f : ι → α} {test : α → Bool} : 0 < tally f test ↔ ∃ i, test (f i) = true := by
  rw [tally, Nat.pos_iff_ne_zero, Ne, Finset.sum_eq_zero_iff]
  simp

theorem tally_const (a : α) (test : α → Bool) :
    tally (fun _ : ι => a) test = Fintype.card ι * (test a).toNat := by
  simp [tally]

/-- One changed member. -/
theorem tally_update [DecidableEq ι] (f : ι → α) (i : ι) (a : α) (test : α → Bool) :
    tally (Function.update f i a) test + (test (f i)).toNat = tally f test + (test a).toNat := by
  have hrest : ∑ j ∈ Finset.univ.erase i, (test (Function.update f i a j)).toNat =
      ∑ j ∈ Finset.univ.erase i, (test (f j)).toNat := by
    refine Finset.sum_congr rfl fun j hj => ?_
    rw [Function.update_of_ne (Finset.ne_of_mem_erase hj)]
  have hnew := Finset.add_sum_erase Finset.univ
    (fun j => (test (Function.update f i a j)).toNat) (Finset.mem_univ i)
  have hold := Finset.add_sum_erase Finset.univ (fun j => (test (f j)).toNat) (Finset.mem_univ i)
  simp only [Function.update_self, hrest] at hnew
  rw [tally, tally, ← hnew, ← hold]
  omega

/-! ## Places and groups -/

/-- Where a thread is, with what it was called with. -/
inductive Place (X : Type*) where
  | outside
  | waiting (x : X)
  | woken (x : X)

namespace Place

def isOutside : Place X → Bool
  | outside => true
  | _ => false

def isWaiting : Place X → Bool
  | waiting _ => true
  | _ => false

def isWoken : Place X → Bool
  | woken _ => true
  | _ => false

/-- The thread can start: for the first time, or again after it has been woken. -/
def starts (again : Bool) (p : Place X) : Bool :=
  if again then p.isWoken else p.isOutside

theorem starts_false {p : Place X} : p.starts false = true ↔ p = .outside := by
  cases p <;> simp [starts, isOutside]

theorem starts_true {p : Place X} : p.starts true = true ↔ ∃ x, p = .woken x := by
  cases p <;> simp [starts, isWoken]

end Place

/-- How many threads are at each place. -/
@[ext]
structure Group where
  outside : Nat
  waiting : Nat
  woken : Nat

namespace Group

/-- A thread starts: one from outside, or a woken one. -/
def start (g : Group) : Bool → Option Group
  | false => if 0 < g.outside then some { g with outside := g.outside - 1 } else none
  | true => if 0 < g.woken then some { g with woken := g.woken - 1 } else none

/-- A waiting thread is woken. -/
def wake (g : Group) : Option Group :=
  if 0 < g.waiting then some ⟨g.outside, g.waiting - 1, g.woken + 1⟩ else none

/-- What is left when a thread has started. -/
def Started (g : Group) (outside woken : Nat) : Prop :=
  0 < g.outside ∧ outside = g.outside - 1 ∧ woken = g.woken ∨
    0 < g.woken ∧ outside = g.outside ∧ woken = g.woken - 1

theorem start_eq_some {g g' : Group} {again : Bool} (h : g.start again = some g') :
    g.Started g'.outside g'.woken ∧ g'.waiting = g.waiting := by
  cases again with
  | false =>
    obtain ⟨hpos, ⟨⟩⟩ := Option.ite_none_right_eq_some.1 h
    exact ⟨.inl ⟨hpos, rfl, rfl⟩, rfl⟩
  | true =>
    obtain ⟨hpos, ⟨⟩⟩ := Option.ite_none_right_eq_some.1 h
    exact ⟨.inr ⟨hpos, rfl, rfl⟩, rfl⟩

end Group

/-- The numbers for a family of threads. -/
def group (f : ι → Place X) : Group :=
  ⟨tally f Place.isOutside, tally f Place.isWaiting, tally f Place.isWoken⟩

theorem group_outside : group (fun _ : ι => (.outside : Place X)) = ⟨Fintype.card ι, 0, 0⟩ := by
  simp [group, tally_const, Place.isOutside, Place.isWaiting, Place.isWoken]

theorem waiting_pos {f : ι → Place X} :
    0 < (group f).waiting ↔ ∃ i, (f i).isWaiting = true :=
  tally_pos

theorem waiting_eq_zero {f : ι → Place X} :
    (group f).waiting = 0 ↔ ∀ i, (f i).isWaiting = false := by
  rw [← Nat.le_zero, ← Nat.not_lt, waiting_pos]
  simp

theorem woken_eq_zero {f : ι → Place X} :
    (group f).woken = 0 ↔ ∀ i, (f i).isWoken = false := by
  rw [← Nat.le_zero, ← Nat.not_lt, group, tally_pos]
  simp

theorem exists_of_start {f : ι → Place X} {again : Bool} {g : Group}
    (h : (group f).start again = some g) : ∃ i, (f i).starts again = true := by
  cases again with
  | false | true => exact tally_pos.1 (Option.ite_none_right_eq_some.1 h).1

theorem exists_of_wake {f : ι → Place X} {g : Group} (h : (group f).wake = some g) :
    ∃ i x, f i = .waiting x := by
  obtain ⟨i, hi⟩ := tally_pos.1 (Option.ite_none_right_eq_some.1 h).1
  cases hplace : f i with
  | outside | woken => simp [hplace, Place.isWaiting] at hi
  | waiting x => exact ⟨i, x, hplace⟩

section Update

variable [DecidableEq ι] {f : ι → Place X} {i : ι} {again : Bool}

/-- The numbers after one thread has gone to another place. -/
theorem group_update (f : ι → Place X) (i : ι) (a : Place X) :
    (group (Function.update f i a)).outside + (f i).isOutside.toNat =
        (group f).outside + a.isOutside.toNat ∧
      (group (Function.update f i a)).waiting + (f i).isWaiting.toNat =
        (group f).waiting + a.isWaiting.toNat ∧
      (group (Function.update f i a)).woken + (f i).isWoken.toNat =
        (group f).woken + a.isWoken.toNat :=
  ⟨tally_update .., tally_update .., tally_update ..⟩

/-- A thread that starts goes on to wait or to the outside. -/
theorem start_group (h : (f i).starts again = true) (x : X) :
    ∃ g, (group f).start again = some g ∧
      group (Function.update f i (.waiting x)) = { g with waiting := g.waiting + 1 } ∧
      group (Function.update f i .outside) = { g with outside := g.outside + 1 } := by
  obtain ⟨hout₁, hwait₁, hwoken₁⟩ := group_update f i (.waiting x)
  obtain ⟨hout₂, hwait₂, hwoken₂⟩ := group_update f i .outside
  cases hplace : f i with
  | waiting y => cases again <;> simp [hplace, Place.starts, Place.isOutside, Place.isWoken] at h
  | outside =>
    simp only [hplace, Place.isOutside, Place.isWaiting, Place.isWoken, Bool.toNat_true,
      Bool.toNat_false] at hout₁ hwait₁ hwoken₁ hout₂ hwait₂ hwoken₂
    cases again with
    | true => simp [hplace, Place.starts, Place.isWoken] at h
    | false =>
      refine ⟨_, if_pos (by omega), ?_, ?_⟩ <;> ext <;> dsimp only <;> omega
  | woken y =>
    simp only [hplace, Place.isOutside, Place.isWaiting, Place.isWoken, Bool.toNat_true,
      Bool.toNat_false] at hout₁ hwait₁ hwoken₁ hout₂ hwait₂ hwoken₂
    cases again with
    | false => simp [hplace, Place.starts, Place.isOutside] at h
    | true =>
      refine ⟨_, if_pos (by omega), ?_, ?_⟩ <;> ext <;> dsimp only <;> omega

/-- A thread that waits is woken. -/
theorem wake_group {x : X} (h : f i = .waiting x) :
    (group f).wake = some (group (Function.update f i (.woken x))) := by
  obtain ⟨hout, hwait, hwoken⟩ := group_update f i (.woken x)
  simp only [h, Place.isOutside, Place.isWaiting, Place.isWoken, Bool.toNat_true,
    Bool.toNat_false] at hout hwait hwoken
  rw [Group.wake, if_pos (by omega)]
  congr 1
  ext <;> dsimp only <;> omega

end Update

end ThreadGroups
