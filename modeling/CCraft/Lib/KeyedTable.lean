import CCraft.Lib.PageLists

/-!
# Tables of records

Several tables can be kept over one set of records, each with a key and a value of its own.
A table lists a set of records when its entries are the keys and the values of exactly these
records, so tables that list the same set describe the same records.

Main results:

- Theorems {lit}`Lists.insert` and {lit}`Lists.erase`: an entry that is added for a record
  adds the record to the set, and an entry that is erased takes its record away.
-/

namespace KeyedTable

variable {κ β ρ : Type*} [DecidableEq κ] {t : AList fun _ : κ => β} {key : ρ → κ}
  {val : ρ → β} {R : Set ρ} {c d : ρ}

/-- The entries of the table are the keys and the values of the records in the set. -/
def Lists (t : AList fun _ : κ => β) (key : ρ → κ) (val : ρ → β) (R : Set ρ) : Prop :=
  ∀ k v, t.lookup k = some v ↔ ∃ c ∈ R, key c = k ∧ val c = v

theorem lists_empty : Lists (∅ : AList fun _ : κ => β) key val (∅ : Set ρ) := by
  intro k v
  simp

theorem Lists.lookup_eq (h : Lists t key val R) (hc : c ∈ R) : t.lookup (key c) = some (val c) :=
  (h _ _).2 ⟨c, hc, rfl, rfl⟩

/-- Two records with the same key have the same value. -/
theorem Lists.val_eq (h : Lists t key val R) (hc : c ∈ R) (hd : d ∈ R) (hkey : key c = key d) :
    val c = val d := by
  have hsome : some (val c) = some (val d) := by
    rw [← h.lookup_eq hc, ← h.lookup_eq hd, hkey]
  exact Option.some.inj hsome

/-- A key without an entry is the key of no record. -/
theorem Lists.key_ne (h : Lists t key val R) (hfree : t.lookup (key c) = none) (hd : d ∈ R) :
    key d ≠ key c := by
  intro hkey
  have hsome := h.lookup_eq hd
  rw [hkey, hfree] at hsome
  cases hsome

/-- An entry for a record with a new key adds the record. -/
theorem Lists.insert (h : Lists t key val R) (hnew : ∀ d ∈ R, key d ≠ key c) :
    Lists (t.insert (key c) (val c)) key val (insert c R) := by
  intro k v
  rw [PageMap.lookup_insert_eq]
  split_ifs with hk
  · subst hk
    constructor
    · intro hv
      exact ⟨c, Set.mem_insert c R, rfl, Option.some.inj hv⟩
    · rintro ⟨d, rfl | hd, hkey, hval⟩
      · rw [hval]
      · exact absurd hkey (hnew d hd)
  · rw [h k v]
    constructor
    · rintro ⟨d, hd, hdv⟩
      exact ⟨d, Set.mem_insert_of_mem c hd, hdv⟩
    · rintro ⟨d, rfl | hd, hkey, hval⟩
      · exact absurd hkey.symm hk
      · exact ⟨d, hd, hkey, hval⟩

/-- Erasing the entry of a record that has its key for itself takes the record away. -/
theorem Lists.erase (h : Lists t key val R) (hown : ∀ d ∈ R, key d = key c → d = c) :
    Lists (t.erase (key c)) key val (R \ {c}) := by
  intro k v
  rw [PageMap.lookup_erase_eq]
  split_ifs with hk
  · subst hk
    constructor
    · nofun
    · rintro ⟨d, ⟨hd, hne⟩, hkey, -⟩
      exact absurd (hown d hd hkey) hne
  · rw [h k v]
    constructor
    · rintro ⟨d, hd, hkey, hval⟩
      refine ⟨d, ⟨hd, ?_⟩, hkey, hval⟩
      rintro rfl
      exact hk hkey.symm
    · rintro ⟨d, ⟨hd, -⟩, hdv⟩
      exact ⟨d, hd, hdv⟩

end KeyedTable
