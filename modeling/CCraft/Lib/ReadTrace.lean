import CCraft.Lib.Memory

/-!
# Programs that read memory

A program reads ranges of memory one after the other, each at an address and of a length that
may depend on what it has read, and ends with a result.  Its reads on a given memory are a
list, and a program whose reads stay in a range has a result that depends on that range only.

Main results:

- Theorem {lit}`inside_read`: the reads of a program are its first one and those of the rest.
- Theorem {lit}`Inside.run_eq`: a program that reads inside a range does the same on every
  memory with the same contents there.
-/

/-- A program that reads ranges of memory. -/
inductive ReadProg (α : Type*) where
  | done (a : α)
  | read (a n : Nat) (next : List UInt8 → ReadProg α)

namespace ReadProg

variable {α β : Type*} {m m' : Mem} {lo hi a n : Nat} {p : ReadProg α}
  {next : List UInt8 → ReadProg α}

/-- The result of a program. -/
def run (m : Mem) : ReadProg α → α
  | done a => a
  | read a n next => (next (Memory.read m a n)).run m

/-- The ranges that a program reads, as addresses with lengths. -/
def reads (m : Mem) : ReadProg α → List (Nat × Nat)
  | done _ => []
  | read a n next => (a, n) :: (next (Memory.read m a n)).reads m

/-- Change the result. -/
def map (f : α → β) : ReadProg α → ReadProg β
  | done a => done (f a)
  | read a n next => read a n fun bs => (next bs).map f

theorem run_map (f : α → β) (p : ReadProg α) : (p.map f).run m = f (p.run m) := by
  induction p with
  | done a => rfl
  | read a n next ih => exact ih _

theorem reads_map (f : α → β) (p : ReadProg α) : (p.map f).reads m = p.reads m := by
  induction p with
  | done a => rfl
  | read a n next ih => exact congrArg _ (ih _)

/-- All reads stay between two addresses. -/
def Inside (m : Mem) (lo hi : Nat) (p : ReadProg α) : Prop :=
  ∀ r ∈ p.reads m, r.2 = 0 ∨ lo ≤ r.1 ∧ r.1 + r.2 ≤ hi

instance (m : Mem) (lo hi : Nat) (p : ReadProg α) : Decidable (p.Inside m lo hi) :=
  inferInstanceAs (Decidable (∀ r ∈ p.reads m, _))

theorem inside_done (x : α) : (done x).Inside m lo hi := by
  nofun

theorem inside_read : (read a n next).Inside m lo hi ↔
    (n = 0 ∨ lo ≤ a ∧ a + n ≤ hi) ∧ (next (Memory.read m a n)).Inside m lo hi := by
  simp only [Inside, reads, List.forall_mem_cons]

theorem inside_map (f : α → β) : (p.map f).Inside m lo hi ↔ p.Inside m lo hi := by
  simp only [Inside, reads_map]

/-- The result depends only on the range that the reads stay in. -/
theorem Inside.run_eq (h : p.Inside m lo hi) (hsame : ∀ i, lo ≤ i → i < hi → m i = m' i) :
    p.run m' = p.run m := by
  induction p with
  | done x => rfl
  | read a n next ih =>
    obtain ⟨hfirst, hrest⟩ := inside_read.1 h
    have hread : Memory.read m' a n = Memory.read m a n := by
      apply Memory.read_congr
      intro i hlo hhi
      refine (hsame i ?_ ?_).symm <;> omega
    simp only [run, hread]
    exact ih _ hrest

end ReadProg
