import Mathlib.Data.List.Basic
import Mathlib.Tactic

/-!
# Ordered maps

A finite map from natural numbers that is walked through in the order of its
keys, in both directions.

Main results:

- Theorem {lit}`find?_eq_some`: a key is found exactly with the value it is listed
  with.
- Theorems {lit}`find?_insert` and {lit}`find?_erase`: the map after an update.
- Theorems {lit}`first?_spec`, {lit}`last?_spec`, {lit}`findLast?_spec` and
  {lit}`below?_spec`: what the walks stop at.
-/

/-- A map as the list of its entries in the order of their keys. -/
structure OrderedMap (ν : Type*) where
  entries : List (Nat × ν)
  sorted : entries.Pairwise fun a b => a.1 < b.1

namespace OrderedMap

variable {ν : Type*} {m : OrderedMap ν} {k q : Nat} {v w : ν}

def empty : OrderedMap ν :=
  ⟨[], List.Pairwise.nil⟩

/-- The value of a key. -/
def find? (m : OrderedMap ν) (k : Nat) : Option ν :=
  (m.entries.find? fun e => e.1 = k).map Prod.snd

/-- Insert an entry into a sorted list, over the entry with the same key if there is
one. -/
def insertEntry (k : Nat) (v : ν) : List (Nat × ν) → List (Nat × ν)
  | [] => [(k, v)]
  | e :: es =>
    if k < e.1 then (k, v) :: e :: es
    else if k = e.1 then (k, v) :: es
    else e :: insertEntry k v es

theorem mem_insertEntry_fst {es : List (Nat × ν)} {e : Nat × ν}
    (h : e ∈ insertEntry k v es) : e = (k, v) ∨ e ∈ es := by
  induction es with
  | nil => simpa [insertEntry] using h
  | cons e' es ih =>
    simp only [insertEntry] at h
    split_ifs at h
    · simpa using h
    · rcases List.mem_cons.mp h with h | h
      · exact .inl h
      · exact .inr (List.mem_cons_of_mem _ h)
    · rcases List.mem_cons.mp h with h | h
      · exact .inr (h ▸ List.mem_cons_self)
      · rcases ih h with h | h
        · exact .inl h
        · exact .inr (List.mem_cons_of_mem _ h)

theorem sorted_insertEntry {es : List (Nat × ν)}
    (h : es.Pairwise fun a b => a.1 < b.1) :
    (insertEntry k v es).Pairwise fun a b => a.1 < b.1 := by
  induction es with
  | nil => simp [insertEntry]
  | cons e es ih =>
    obtain ⟨hlt, hrest⟩ := List.pairwise_cons.mp h
    simp only [insertEntry]
    split_ifs with hk heq
    · refine List.pairwise_cons.mpr ⟨?_, h⟩
      intro e' he'
      rcases List.mem_cons.mp he' with rfl | he'
      · exact hk
      · exact lt_trans hk (hlt e' he')
    · exact List.pairwise_cons.mpr ⟨fun e' he' => heq ▸ hlt e' he', hrest⟩
    · refine List.pairwise_cons.mpr ⟨?_, ih hrest⟩
      intro e' he'
      rcases mem_insertEntry_fst he' with rfl | he'
      · simp only
        omega
      · exact hlt e' he'

/-- Set the value of a key. -/
def insert (m : OrderedMap ν) (k : Nat) (v : ν) : OrderedMap ν :=
  ⟨insertEntry k v m.entries, sorted_insertEntry m.sorted⟩

/-- Remove a key. -/
def erase (m : OrderedMap ν) (k : Nat) : OrderedMap ν :=
  ⟨m.entries.filter fun e => e.1 ≠ k, m.sorted.filter _⟩

/-- The entry with the least key. -/
def first? (m : OrderedMap ν) : Option (Nat × ν) :=
  m.entries.head?

/-- The entry with the greatest key. -/
def last? (m : OrderedMap ν) : Option (Nat × ν) :=
  m.entries.getLast?

/-- Walk from the greatest key down to the first one that the test accepts. -/
def findLast? (m : OrderedMap ν) (test : Nat → Bool) : Option (Nat × ν) :=
  m.entries.reverse.find? fun e => test e.1

/-- The entry before a key. -/
def below? (m : OrderedMap ν) (k : Nat) : Option (Nat × ν) :=
  m.findLast? fun q => q < k

/-! ## What is found -/

theorem eq_of_mem {e e' : Nat × ν} (he : e ∈ m.entries) (he' : e' ∈ m.entries)
    (hkey : e.1 = e'.1) : e = e' := by
  have hnodup : m.entries.Pairwise fun a b => a.1 ≠ b.1 :=
    m.sorted.imp fun h => ne_of_lt h
  have : Std.Symm fun a b : Nat × ν => a.1 ≠ b.1 := ⟨fun _ _ h => h.symm⟩
  by_contra hne
  exact hnodup.forall he he' hne hkey

theorem find?_eq_some : m.find? k = some v ↔ (k, v) ∈ m.entries := by
  unfold find?
  constructor
  · intro h
    obtain ⟨e, he, rfl⟩ := Option.map_eq_some_iff.mp h
    have hkey : e.1 = k := by simpa using List.find?_some he
    subst hkey
    exact List.mem_of_find?_eq_some he
  · intro h
    cases he : m.entries.find? fun e => e.1 = k with
    | none => simpa using List.find?_eq_none.mp he (k, v) h
    | some e =>
      have hkey : e.1 = k := by simpa using List.find?_some he
      have heq : e = (k, v) := eq_of_mem (List.mem_of_find?_eq_some he) h hkey
      simp [heq]

theorem find?_empty : (empty : OrderedMap ν).find? k = none :=
  rfl

theorem find?_insert : (m.insert k v).find? q = if q = k then some v else m.find? q := by
  have hgen : ∀ es : List (Nat × ν), es.Pairwise (fun a b => a.1 < b.1) →
      ((insertEntry k v es).find? fun e => e.1 = q).map Prod.snd =
        if q = k then some v else (es.find? fun e => e.1 = q).map Prod.snd := by
    intro es hsorted
    induction es with
    | nil => by_cases h : q = k <;> simp [insertEntry, h, eq_comm]
    | cons e es ih =>
      obtain ⟨-, hrest⟩ := List.pairwise_cons.mp hsorted
      have ih := ih hrest
      by_cases hq : q = k
      · rw [if_pos hq] at ih ⊢
        simp only [insertEntry]
        split_ifs with hlt heq
        · simp [hq]
        · simp [hq]
        · have hqe : ¬ e.1 = q := by omega
          rw [List.find?_cons_of_neg (by simpa using hqe), ih]
      · rw [if_neg hq] at ih ⊢
        simp only [insertEntry]
        split_ifs with hlt heq
        · simp [Ne.symm hq]
        · have hqe : ¬ e.1 = q := by omega
          simp [Ne.symm hq, hqe]
        · by_cases hqe : e.1 = q
          · simp [hqe]
          · rw [List.find?_cons_of_neg (by simpa using hqe), ih,
              List.find?_cons_of_neg (by simpa using hqe)]
  exact hgen m.entries m.sorted

theorem find?_erase : (m.erase k).find? q = if q = k then none else m.find? q := by
  split_ifs with hq
  · by_contra h
    obtain ⟨v, hv⟩ := Option.ne_none_iff_exists'.mp h
    have hmem := List.mem_filter.mp (find?_eq_some.mp hv)
    simp [hq] at hmem
  · ext v
    simp only [find?_eq_some, erase, List.mem_filter]
    simp [hq]

theorem entries_eq_nil : m.entries = [] ↔ ∀ q, m.find? q = none := by
  constructor
  · intro h q
    simp [find?, h]
  · intro h
    by_contra hne
    obtain ⟨e, he⟩ := List.exists_mem_of_ne_nil _ hne
    have hfind : m.find? e.1 = some e.2 := find?_eq_some.mpr he
    rw [h e.1] at hfind
    simp at hfind

/-! ## Where the walks stop -/

theorem first?_spec {e : Nat × ν} (h : m.first? = some e) :
    m.find? e.1 = some e.2 ∧ ∀ q w, m.find? q = some w → e.1 ≤ q := by
  obtain ⟨es, hes⟩ : ∃ es, m.entries = e :: es := by
    cases hl : m.entries with
    | nil => simp [first?, hl] at h
    | cons e' es =>
      simp only [first?, hl, List.head?_cons, Option.some.injEq] at h
      exact ⟨es, by rw [h]⟩
  refine ⟨find?_eq_some.mpr (by simp [hes]), ?_⟩
  intro q w hq
  have hmem := find?_eq_some.mp hq
  have hsorted := m.sorted
  rw [hes] at hmem hsorted
  rcases List.mem_cons.mp hmem with heq | hmem
  · rw [← heq]
  · exact le_of_lt ((List.pairwise_cons.mp hsorted).1 _ hmem)

/-- The walk from the greatest key stops at the greatest key that passes. -/
theorem findLast?_spec {test : Nat → Bool} {e : Nat × ν} (h : m.findLast? test = some e) :
    m.find? e.1 = some e.2 ∧ test e.1 = true ∧
      ∀ q w, m.find? q = some w → test q = true → q ≤ e.1 := by
  obtain ⟨htest, as, bs, hsplit, hbefore⟩ := List.find?_eq_some_iff_append.mp h
  have hmem : e ∈ m.entries := by
    rw [← List.mem_reverse, hsplit]
    simp
  refine ⟨find?_eq_some.mpr hmem, htest, ?_⟩
  intro q w hq hpass
  have hrev : m.entries.reverse.Pairwise fun a b => b.1 < a.1 :=
    List.pairwise_reverse.mpr m.sorted
  have hqmem : (q, w) ∈ as ++ e :: bs := by
    rw [← hsplit, List.mem_reverse]
    exact find?_eq_some.mp hq
  rw [hsplit] at hrev
  rcases List.mem_append.mp hqmem with hin | hin
  · have := hbefore _ hin
    simp [hpass] at this
  · rcases List.mem_cons.mp hin with heq | hin
    · rw [← heq]
    · exact le_of_lt ((List.pairwise_cons.mp (List.pairwise_append.mp hrev).2.1).1 _ hin)

theorem findLast?_eq_none {test : Nat → Bool} (h : m.findLast? test = none) :
    ∀ q w, m.find? q = some w → test q = false := by
  intro q w hq
  have hmem : (q, w) ∈ m.entries.reverse := List.mem_reverse.mpr (find?_eq_some.mp hq)
  simpa using List.find?_eq_none.mp h (q, w) hmem

theorem last?_eq_findLast? : m.last? = m.findLast? fun _ => true := by
  rw [last?, findLast?, ← List.head?_reverse]
  cases m.entries.reverse <;> simp

theorem last?_spec {e : Nat × ν} (h : m.last? = some e) :
    m.find? e.1 = some e.2 ∧ ∀ q w, m.find? q = some w → q ≤ e.1 := by
  rw [last?_eq_findLast?] at h
  obtain ⟨hfind, -, hmax⟩ := findLast?_spec h
  exact ⟨hfind, fun q w hq => hmax q w hq rfl⟩

theorem below?_spec {e : Nat × ν} (h : m.below? k = some e) :
    m.find? e.1 = some e.2 ∧ e.1 < k := by
  obtain ⟨hfind, hlt, -⟩ := findLast?_spec h
  exact ⟨hfind, by simpa using hlt⟩

end OrderedMap
