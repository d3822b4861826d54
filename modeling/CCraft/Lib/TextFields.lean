import Mathlib.Data.List.TakeWhile
import Mathlib.Tactic

/-!
# Fields of a text

Reading a text from the left: lines, blanks, decimal numerals with a sign, and words.  A field
is what a formatted reader takes, the longest run of its characters behind the blanks.

Main results:

- Theorem {lit}`isRun_iff`: there is exactly one longest run.
- Theorems {lit}`numeral_eq_some_iff` and {lit}`word_eq_some_iff`: the readers take a field
  exactly when the text starts with one.
-/

namespace TextFields

/-- The blanks of the C locale. -/
def isSpace (c : Char) : Bool :=
  c == ' ' || (9 ≤ c.toNat && c.toNat ≤ 13)

/-- The text without the blanks at its beginning. -/
def dropSpaces (l : List Char) : List Char :=
  l.dropWhile isSpace

/-- The lines of a text.  A newline ends a line, and the last line may do without. -/
def lines : List Char → List (List Char)
  | [] => []
  | c :: l =>
    if c = '\n' then [] :: lines l
    else
      match lines l with
      | [] => [[c]]
      | line :: rest => (c :: line) :: rest

/-- The number that a string of digits stands for. -/
def decimal (ds : List Char) : Nat :=
  ds.foldl (fun n c => 10 * n + (c.toNat - '0'.toNat)) 0

/-- A string of digits at the beginning, and what follows it. -/
def digits (l : List Char) : Option (Nat × List Char) :=
  if l.takeWhile Char.isDigit = [] then none
  else some (decimal (l.takeWhile Char.isDigit), l.dropWhile Char.isDigit)

/-- A decimal numeral with or without a sign. -/
def signed : List Char → Option (Int × List Char)
  | '-' :: l => (digits l).map fun r => (-(r.1 : Int), r.2)
  | '+' :: l => (digits l).map fun r => ((r.1 : Int), r.2)
  | l => (digits l).map fun r => ((r.1 : Int), r.2)

/-- A numeral behind blanks, and what follows it. -/
def numeral (l : List Char) : Option (Int × List Char) :=
  signed (dropSpaces l)

/-- A word behind blanks, and what follows it. -/
def word (l : List Char) : Option (List Char × List Char) :=
  let l := dropSpaces l
  if l.takeWhile (fun c => !isSpace c) = [] then none
  else some (l.takeWhile fun c => !isSpace c, l.dropWhile fun c => !isSpace c)

/-! ## Longest runs -/

variable {p : Char → Bool} {l run rest : List Char}

/-- The text starts with a run of such characters, and the run ends there. -/
structure IsRun (p : Char → Bool) (l run rest : List Char) : Prop where
  eq : l = run ++ rest
  all : ∀ c ∈ run, p c = true
  stop : ∀ c ∈ rest.head?, p c = false

/-- There is exactly one longest run. -/
theorem isRun_iff : IsRun p l run rest ↔ l.takeWhile p = run ∧ l.dropWhile p = rest := by
  constructor
  · rintro ⟨rfl, hall, hstop⟩
    induction run with
    | nil =>
      cases rest with
      | nil => exact ⟨rfl, rfl⟩
      | cons c rest =>
        have hc : p c = false := hstop c rfl
        simp [hc]
    | cons c run ih =>
      have hc : p c = true := hall c (by simp)
      obtain ⟨htake, hdrop⟩ := ih fun d hd => hall d (by simp [hd])
      simp [hc, htake, hdrop]
  · rintro ⟨rfl, rfl⟩
    refine ⟨List.takeWhile_append_dropWhile.symm, fun c hc => List.mem_takeWhile_imp hc, ?_⟩
    intro c hc
    have hhead := List.head?_dropWhile_not p l
    rw [Option.mem_def.1 hc] at hhead
    exact hhead

/-! ## What a text starts with -/

/-- The text starts with a string of digits for the number. -/
def StartsWithDigits (l : List Char) (n : Nat) (rest : List Char) : Prop :=
  ∃ ds, ds ≠ [] ∧ IsRun Char.isDigit l ds rest ∧ decimal ds = n

/-- The text starts with a decimal numeral for the number, with or without a sign. -/
inductive StartsWithSigned : List Char → Int → List Char → Prop
  | unsigned {l : List Char} {n : Nat} {rest : List Char} (h : StartsWithDigits l n rest) :
      StartsWithSigned l n rest
  | plus {l : List Char} {n : Nat} {rest : List Char} (h : StartsWithDigits l n rest) :
      StartsWithSigned ('+' :: l) n rest
  | minus {l : List Char} {n : Nat} {rest : List Char} (h : StartsWithDigits l n rest) :
      StartsWithSigned ('-' :: l) (-n) rest

/-- Behind blanks the text starts with a numeral for the number. -/
def StartsWithNumeral (l : List Char) (v : Int) (rest : List Char) : Prop :=
  ∃ blanks l', IsRun isSpace l blanks l' ∧ StartsWithSigned l' v rest

/-- Behind blanks the text starts with the word. -/
def StartsWithWord (l w rest : List Char) : Prop :=
  ∃ blanks l', IsRun isSpace l blanks l' ∧ w ≠ [] ∧ IsRun (fun c => !isSpace c) l' w rest

theorem digits_eq_some_iff {n : Nat} : digits l = some (n, rest) ↔ StartsWithDigits l n rest := by
  simp only [digits, StartsWithDigits, isRun_iff]
  constructor
  · intro h
    obtain ⟨hne, heq⟩ := Option.ite_none_left_eq_some.1 h
    obtain ⟨hn, hrest⟩ := Prod.mk.inj (Option.some.inj heq)
    exact ⟨_, hne, ⟨rfl, hrest⟩, hn⟩
  · rintro ⟨ds, hne, ⟨rfl, rfl⟩, rfl⟩
    rw [if_neg hne]

/-- Digits are no sign. -/
theorem StartsWithDigits.head {c : Char} {n : Nat} (h : StartsWithDigits (c :: l) n rest) :
    c ≠ '-' ∧ c ≠ '+' := by
  obtain ⟨ds, hne, hrun, -⟩ := h
  obtain ⟨d, ds, rfl⟩ := List.exists_cons_of_ne_nil hne
  obtain ⟨rfl, -⟩ := List.cons.inj hrun.eq
  have hdigit : c.isDigit = true := hrun.all c (by simp)
  constructor <;> rintro rfl <;> exact absurd hdigit (by decide)

theorem signed_eq_some_iff {v : Int} :
    signed l = some (v, rest) ↔ StartsWithSigned l v rest := by
  constructor
  · intro h
    unfold signed at h
    split at h
    · obtain ⟨⟨n, r⟩, hdigits, heq⟩ := Option.map_eq_some_iff.1 h
      cases heq
      exact .minus (digits_eq_some_iff.1 hdigits)
    · obtain ⟨⟨n, r⟩, hdigits, heq⟩ := Option.map_eq_some_iff.1 h
      cases heq
      exact .plus (digits_eq_some_iff.1 hdigits)
    · obtain ⟨⟨n, r⟩, hdigits, heq⟩ := Option.map_eq_some_iff.1 h
      cases heq
      exact .unsigned (digits_eq_some_iff.1 hdigits)
  · intro h
    cases h with
    | unsigned h =>
      have hdigits := digits_eq_some_iff.2 h
      unfold signed
      split
      · exact absurd rfl h.head.1
      · exact absurd rfl h.head.2
      · rw [hdigits]
        rfl
    | plus h | minus h =>
      simp only [signed, digits_eq_some_iff.2 h, Option.map_some]

/-- A numeral is read exactly when the text starts with one. -/
theorem numeral_eq_some_iff {v : Int} :
    numeral l = some (v, rest) ↔ StartsWithNumeral l v rest := by
  simp only [numeral, StartsWithNumeral, signed_eq_some_iff, isRun_iff, dropSpaces]
  constructor
  · intro h
    exact ⟨_, _, ⟨rfl, rfl⟩, h⟩
  · rintro ⟨blanks, l', ⟨-, rfl⟩, h⟩
    exact h

/-- A word is read exactly when the text starts with one. -/
theorem word_eq_some_iff {w : List Char} :
    word l = some (w, rest) ↔ StartsWithWord l w rest := by
  simp only [word, StartsWithWord, isRun_iff, dropSpaces]
  constructor
  · intro h
    obtain ⟨hne, heq⟩ := Option.ite_none_left_eq_some.1 h
    cases heq
    exact ⟨_, _, ⟨rfl, rfl⟩, hne, rfl, rfl⟩
  · rintro ⟨blanks, l', ⟨-, rfl⟩, hne, rfl, rfl⟩
    exact if_neg hne

end TextFields
