import Mathlib.Data.List.Basic
import Mathlib.Tactic

/-!
# Items in a concatenated stream

A stream is the concatenation of the encodings of a list of items.  After some
of it has been read, the items that are complete are those whose last symbol has
been read.

Main results:

- Theorem {lit}`wholeIn_eq`: a split of the items at the point a reader has
  reached gives the complete ones.
- Theorem {lit}`wholeIn_length`: the whole stream completes every item.
-/

namespace Framing

variable {α β : Type*} {enc : α → List β} {xs done pending : List α} {n k : Nat}

/-- The items whose encodings lie in the first `n` symbols of the stream. -/
def wholeIn (enc : α → List β) : List α → Nat → List α
  | [], _ => []
  | x :: xs, n =>
    if (enc x).length ≤ n then x :: wholeIn enc xs (n - (enc x).length) else []

/-- If a reader is `k` symbols past the encodings of `done`, and inside the
encoding of the next item if there is one, then `done` is what is complete. -/
theorem wholeIn_eq (hn : n = (done.flatMap enc).length + k)
    (hnext : ∀ p ps, pending = p :: ps → k < (enc p).length) :
    wholeIn enc (done ++ pending) n = done := by
  induction done generalizing n with
  | nil =>
    cases pending with
    | nil => rfl
    | cons p ps =>
      have hk := hnext p ps rfl
      have hlt : ¬ (enc p).length ≤ n := by
        simp only [List.flatMap_nil, List.length_nil] at hn
        omega
      simp [wholeIn, hlt]
  | cons x done ih =>
    simp only [List.flatMap_cons, List.length_append] at hn
    have hle : (enc x).length ≤ n := by omega
    have hrest : wholeIn enc (done ++ pending) (n - (enc x).length) = done :=
      ih (by omega)
    simp [wholeIn, hle, hrest]

/-- Only the encodings of the items in the list matter. -/
theorem wholeIn_congr {enc' : α → List β} (h : ∀ x ∈ xs, enc x = enc' x) (n : Nat) :
    wholeIn enc xs n = wholeIn enc' xs n := by
  induction xs generalizing n with
  | nil => rfl
  | cons x xs ih =>
    rw [wholeIn, wholeIn, h x (by simp), ih fun y hy => h y (by simp [hy])]

/-- The whole stream completes every item. -/
theorem wholeIn_length (xs : List α) : wholeIn enc xs (xs.flatMap enc).length = xs := by
  have h : wholeIn enc (xs ++ []) (xs.flatMap enc).length = xs :=
    wholeIn_eq (k := 0) (by omega) (by simp)
  simpa using h

end Framing
