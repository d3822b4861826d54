import Mathlib.Data.List.Basic

/-!
# FIFO channels with a history

A channel from one party to another: what the receiver has taken out so far, and what is
still under way.  Together they are what the sender has put in.

Main results:

- Theorems {lit}`sent_push`, {lit}`seen_push` and {lit}`pop_eq_some`: sending extends what
  was sent and leaves what was seen; receiving extends what was seen and leaves what was
  sent.
-/

/-- A FIFO channel. -/
structure Fifo (α : Type*) where
  seen : List α
  queue : List α

namespace Fifo

variable {α : Type*} {f f' : Fifo α} {a : α}

/-- The channel before anything is sent. -/
def empty : Fifo α :=
  ⟨[], []⟩

/-- Everything that was put in. -/
def sent (f : Fifo α) : List α :=
  f.seen ++ f.queue

/-- Put an element in. -/
def push (f : Fifo α) (a : α) : Fifo α :=
  ⟨f.seen, f.queue ++ [a]⟩

/-- Take the oldest element out. -/
def pop (f : Fifo α) : Option (α × Fifo α) :=
  match f.queue with
  | [] => none
  | a :: queue => some (a, ⟨f.seen ++ [a], queue⟩)

@[simp]
theorem sent_push (f : Fifo α) (a : α) : (f.push a).sent = f.sent ++ [a] :=
  (List.append_assoc _ _ _).symm

@[simp]
theorem seen_push (f : Fifo α) (a : α) : (f.push a).seen = f.seen :=
  rfl

theorem pop_eq_some (h : f.pop = some (a, f')) : f'.sent = f.sent ∧ f'.seen = f.seen ++ [a] := by
  unfold pop at h
  cases hqueue : f.queue with
  | nil => simp [hqueue] at h
  | cons b queue =>
    simp only [hqueue] at h
    cases h
    simp [sent, hqueue]

/-- An empty channel has delivered everything. -/
theorem pop_eq_none (h : f.pop = none) : f.seen = f.sent := by
  unfold pop at h
  cases hqueue : f.queue with
  | nil => simp [sent, hqueue]
  | cons b queue => simp [hqueue] at h

theorem seen_prefix_sent (f : Fifo α) : f.seen <+: f.sent :=
  List.prefix_append _ _

/-- What is taken out is the next element of what was sent. -/
theorem snoc_prefix_of_pop (h : f.pop = some (a, f')) : f.seen ++ [a] <+: f.sent := by
  obtain ⟨hsent, hseen⟩ := pop_eq_some h
  rw [← hsent, ← hseen]
  exact f'.seen_prefix_sent

end Fifo
