import CCraft.Lib.PageLists

/-!
# A table with a group index

A table finds items by their key, and an index lists the items of each group.  Both are
finite maps that are changed together: an item is added to both, taken out of both, or a
whole group is taken out at once.  A group without items is not listed.

Main results:

- Theorem {lit}`WellGrouped.add`, {lit}`WellGrouped.remove` and
  {lit}`WellGrouped.removeGroup`: each of the operations keeps the index in step with the
  table.
-/

open PageMap

/-- Items by key, and the items of each group. -/
structure GroupIndex (ι γ κ : Type*) where
  entries : AList fun _ : ι => κ
  groups : AList fun _ : γ => Finset κ

namespace GroupIndex

variable {ι γ κ : Type*} [DecidableEq ι] [DecidableEq γ]
variable {t : GroupIndex ι γ κ} {key : κ → ι} {group : κ → γ} {i : ι} {g : γ} {c : κ}

/-! ## Whole groups -/

def empty : GroupIndex ι γ κ :=
  ⟨∅, ∅⟩

/-- The items listed for a group. -/
def members (t : GroupIndex ι γ κ) (g : γ) : Finset κ :=
  (t.groups.lookup g).getD ∅

instance (key : κ → ι) :
    RightCommutative fun (m : AList fun _ : ι => κ) (c : κ) => m.erase (key c) :=
  ⟨fun m c d => AList.erase_erase (key c) (key d) m⟩

/-- Take the keys of some items out of a table. -/
def eraseAll (m : AList fun _ : ι => κ) (key : κ → ι) (s : Finset κ) : AList fun _ : ι => κ :=
  s.val.foldl (fun m c => m.erase (key c)) m

/-- Take a whole group out. -/
def removeGroup (t : GroupIndex ι γ κ) (key : κ → ι) (g : γ) : GroupIndex ι γ κ where
  entries := eraseAll t.entries key (t.members g)
  groups := t.groups.erase g

theorem removeGroup_of_none (h : t.groups.lookup g = none) : t.removeGroup key g = t := by
  have hmem : g ∉ t.groups := AList.lookup_eq_none.1 h
  have hgroups : t.groups.erase g = t.groups :=
    AList.ext (List.kerase_of_notMem_keys (AList.mem_keys.not.1 hmem))
  have hentries : eraseAll t.entries key (t.members g) = t.entries := by
    simp [eraseAll, members, h]
  rw [removeGroup, hgroups, hentries]

theorem lookup_foldl_erase (l : List κ) (m : AList fun _ : ι => κ) :
    (l.foldl (fun m c => m.erase (key c)) m).lookup i =
      if ∃ c ∈ l, key c = i then none else m.lookup i := by
  induction l generalizing m with
  | nil => simp
  | cons d l ih =>
    rw [List.foldl_cons, ih, lookup_erase_eq]
    by_cases hl : ∃ c ∈ l, key c = i
    · obtain ⟨c, hc, hkey⟩ := hl
      rw [if_pos ⟨c, hc, hkey⟩, if_pos ⟨c, List.mem_cons_of_mem d hc, hkey⟩]
    · rw [if_neg hl]
      by_cases hd : i = key d
      · rw [if_pos hd, if_pos ⟨d, List.mem_cons_self, hd.symm⟩]
      · have hcons : ¬ ∃ c ∈ d :: l, key c = i := by
          rintro ⟨c, hc, hkey⟩
          rcases List.mem_cons.1 hc with rfl | hc
          · exact hd hkey.symm
          · exact hl ⟨c, hc, hkey⟩
        rw [if_neg hd, if_neg hcons]

theorem lookup_eraseAll {m : AList fun _ : ι => κ} {s : Finset κ} :
    (eraseAll m key s).lookup i = if ∃ c ∈ s, key c = i then none else m.lookup i := by
  have hs : s.val = (s.val.toList : Multiset κ) := (Multiset.coe_toList _).symm
  have hmem : (∃ c ∈ s, key c = i) ↔ ∃ c ∈ s.val.toList, key c = i := by
    simp only [Multiset.mem_toList, Finset.mem_val]
  unfold eraseAll
  rw [hs, Multiset.coe_foldl, lookup_foldl_erase]
  simp only [hmem]

theorem members_removeGroup {g' : γ} :
    (t.removeGroup key g).members g' = if g' = g then ∅ else t.members g' := by
  rw [members, removeGroup, lookup_erase_eq]
  split_ifs <;> rfl

/-- Every group lists the items of the table that belong to it, and no group is listed
without items. -/
structure WellGrouped (key : κ → ι) (group : κ → γ) (t : GroupIndex ι γ κ) : Prop where
  key_eq : ∀ i c, t.entries.lookup i = some c → key c = i
  mem_members : ∀ g c, c ∈ t.members g ↔ group c = g ∧ t.entries.lookup (key c) = some c
  no_empty : ∀ g, t.groups.lookup g ≠ some ∅

theorem wellGrouped_empty : WellGrouped key group (empty : GroupIndex ι γ κ) := by
  constructor <;> simp [empty, members]

/-- An item of the table has its key among those of a group exactly when it belongs to the
group. -/
theorem WellGrouped.key_mem_iff {d : κ} (h : WellGrouped key group t)
    (hd : t.entries.lookup (key d) = some d) :
    (∃ c ∈ t.members g, key c = key d) ↔ d ∈ t.members g := by
  constructor
  · rintro ⟨c, hmem, hkey⟩
    have hc := ((h.mem_members g c).1 hmem).2
    rw [hkey, hd] at hc
    rw [Option.some.inj hc]
    exact hmem
  · exact fun hmem => ⟨d, hmem, rfl⟩

/-- A whole group is taken out. -/
theorem WellGrouped.removeGroup (h : WellGrouped key group t) :
    WellGrouped key group (t.removeGroup key g) := by
  have hlookup : ∀ j, (t.removeGroup key g).entries.lookup j =
      if ∃ c ∈ t.members g, key c = j then none else t.entries.lookup j :=
    fun j => lookup_eraseAll
  refine ⟨?_, ?_, ?_⟩
  · intro j d hd
    rw [hlookup] at hd
    split_ifs at hd
    exact h.key_eq j d hd
  · intro g' d
    rw [members_removeGroup, hlookup]
    -- the items of the group are those whose key has been erased
    have herased : t.entries.lookup (key d) = some d →
        ((∃ c ∈ t.members g, key c = key d) ↔ group d = g) := by
      intro hd
      rw [h.key_mem_iff hd, h.mem_members]
      exact and_iff_left hd
    constructor
    · intro hd
      split_ifs at hd with hg
      · simp at hd
      · obtain ⟨hgd, hd⟩ := (h.mem_members g' d).1 hd
        refine ⟨hgd, ?_⟩
        rw [if_neg]
        · exact hd
        · rw [herased hd, hgd]
          exact hg
    · rintro ⟨hgd, hd⟩
      split_ifs at hd with herase
      rw [herased hd, hgd] at herase
      rw [if_neg herase]
      exact (h.mem_members g' d).2 ⟨hgd, hd⟩
  · intro g'
    rw [GroupIndex.removeGroup, lookup_erase_eq]
    split_ifs
    · simp
    · exact h.no_empty g'

/-! ## Single items -/

variable [DecidableEq κ]

/-- Put an item into the table and into its group, which it may found. -/
def add (t : GroupIndex ι γ κ) (i : ι) (g : γ) (c : κ) : GroupIndex ι γ κ where
  entries := t.entries.insert i c
  groups :=
    match t.groups.lookup g with
    | none => t.groups.insert g {c}
    | some s => t.groups.insert g (insert c s)

/-- Take an item out of the table and out of its group, which goes with its last item. -/
def remove (t : GroupIndex ι γ κ) (i : ι) (g : γ) (c : κ) : GroupIndex ι γ κ where
  entries := t.entries.erase i
  groups :=
    if (t.members g).erase c = ∅ then t.groups.erase g
    else t.groups.insert g ((t.members g).erase c)

theorem members_add {g' : γ} :
    (t.add i g c).members g' = if g' = g then insert c (t.members g) else t.members g' := by
  unfold members add
  cases hg : t.groups.lookup g with
  | none | some =>
    simp only [lookup_insert_eq]
    split_ifs <;> simp

theorem members_remove {g' : γ} :
    (t.remove i g c).members g' = if g' = g then (t.members g).erase c else t.members g' := by
  by_cases hempty : (t.members g).erase c = ∅
  · have hgroups : (t.remove i g c).groups = t.groups.erase g := if_pos hempty
    rw [hempty, members, hgroups, lookup_erase_eq]
    split_ifs <;> rfl
  · have hgroups : (t.remove i g c).groups = t.groups.insert g ((t.members g).erase c) :=
      if_neg hempty
    rw [members, hgroups, lookup_insert_eq]
    split_ifs <;> rfl

/-- An item with a new key is added to its group. -/
theorem WellGrouped.add (h : WellGrouped key group t)
    (hnew : t.entries.lookup (key c) = none) :
    WellGrouped key group (t.add (key c) (group c) c) := by
  have hlookup : ∀ i, (t.add (key c) (group c) c).entries.lookup i =
      if i = key c then some c else t.entries.lookup i := fun i => lookup_insert_eq
  refine ⟨?_, ?_, ?_⟩
  · intro i d hd
    rw [hlookup] at hd
    split_ifs at hd with hi
    · rw [← Option.some.inj hd, hi]
    · exact h.key_eq i d hd
  · intro g d
    rw [members_add, hlookup]
    by_cases hdc : d = c
    · rw [hdc, if_pos rfl]
      by_cases hg : g = group c
      · simp [hg]
      · rw [if_neg hg, h.mem_members]
        simp [hnew]
        exact fun hg' => hg hg'.symm
    · have hkey : t.entries.lookup (key d) = some d → key d ≠ key c := by
        intro hd heq
        rw [heq, hnew] at hd
        cases hd
      have hmem : d ∈ (if g = group c then insert c (t.members (group c)) else t.members g) ↔
          d ∈ t.members g := by
        split_ifs with hg
        · rw [Finset.mem_insert, hg]
          exact or_iff_right hdc
        · rfl
      rw [hmem, h.mem_members]
      refine and_congr_right fun _ => ⟨fun hd => ?_, fun hd => ?_⟩
      · rw [if_neg (hkey hd)]
        exact hd
      · split_ifs at hd with heq
        · exact absurd (Option.some.inj hd).symm hdc
        · exact hd
  · intro g
    cases hg : t.groups.lookup (group c) with
    | none | some =>
      simp only [GroupIndex.add, hg, lookup_insert_eq]
      split_ifs
      · simp
      · exact h.no_empty g

/-- An item is taken out. -/
theorem WellGrouped.remove (h : WellGrouped key group t)
    (hc : t.entries.lookup i = some c) :
    WellGrouped key group (t.remove i (group c) c) := by
  have hkey : key c = i := h.key_eq i c hc
  have hlookup : ∀ j, (t.remove i (group c) c).entries.lookup j =
      if j = i then none else t.entries.lookup j := fun j => lookup_erase_eq
  refine ⟨?_, ?_, ?_⟩
  · intro j d hd
    rw [hlookup] at hd
    split_ifs at hd
    exact h.key_eq j d hd
  · intro g d
    rw [members_remove, hlookup]
    have hmem : d ∈ (if g = group c then (t.members (group c)).erase c else t.members g) ↔
        d ≠ c ∧ d ∈ t.members g := by
      split_ifs with hg
      · rw [Finset.mem_erase, hg]
      · refine ⟨fun hd => ⟨?_, hd⟩, And.right⟩
        rintro rfl
        exact hg ((h.mem_members g d).1 hd).1.symm
    rw [hmem, h.mem_members]
    constructor
    · rintro ⟨hne, hg, hd⟩
      refine ⟨hg, ?_⟩
      rw [if_neg ?_]
      · exact hd
      · intro heq
        rw [heq, hc] at hd
        exact hne (Option.some.inj hd).symm
    · rintro ⟨hg, hd⟩
      split_ifs at hd with heq
      refine ⟨?_, hg, hd⟩
      rintro rfl
      exact heq hkey
  · intro g
    by_cases hempty : (t.members (group c)).erase c = ∅
    · have hgroups : (t.remove i (group c) c).groups = t.groups.erase (group c) := if_pos hempty
      rw [hgroups, lookup_erase_eq]
      split_ifs
      · simp
      · exact h.no_empty g
    · have hgroups : (t.remove i (group c) c).groups =
          t.groups.insert (group c) ((t.members (group c)).erase c) := if_neg hempty
      rw [hgroups, lookup_insert_eq]
      split_ifs
      · simpa using hempty
      · exact h.no_empty g

end GroupIndex
