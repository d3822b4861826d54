import Mathlib.Algebra.BigOperators.Group.Finset.Basic
import Mathlib.Data.List.AList
import Mathlib.Tactic

/-!
# Maps from pages to lists of objects

A finite map whose values are queues: objects are taken from the front of the
queue of some page and given back at its end, and a page without objects is
removed from the map.

Main results:

- Theorem {lit}`popFront_eq_some`: what taking an object from a page does to the
  queues.
- Theorems {lit}`total_pushBack`, {lit}`total_popFront`, {lit}`total_erase`: the
  number of objects in the map after each operation.
- Theorems {lit}`Limited.popFront`, {lit}`Limited.pushBack_erase`: a limit on the number
  of objects that is enforced by giving up one full page at a time.
-/

/-- An iteration order of an unordered container: each time the container is
walked through, some permutation of its keys. -/
structure IterOrder (π : Type*) where
  order : List π → List π
  perm : ∀ ks, (order ks).Perm ks

/-- The order in which the keys are listed. -/
def IterOrder.listed {π : Type*} : IterOrder π :=
  ⟨id, fun _ => List.Perm.refl _⟩

/-- A map from pages to queues of objects. -/
abbrev PageMap (π ω : Type*) := AList fun _ : π => List ω

namespace PageMap

variable {π ω : Type*} [DecidableEq π] {m m' : PageMap π ω} {p q : π} {x : ω} {l : List ω}

/-- The queue of a page, empty when the page is not in the map. -/
def listAt (m : PageMap π ω) (p : π) : List ω :=
  (m.lookup p).getD []

/-- Give an object back to the end of the queue of its page. -/
def pushBack (m : PageMap π ω) (p : π) (x : ω) : PageMap π ω :=
  m.insert p (listAt m p ++ [x])

/-- Take the object at the front of the queue of a page; the page goes with its last
object. -/
def popFront (m : PageMap π ω) (p : π) : Option (ω × PageMap π ω) :=
  match m.lookup p with
  | some [x] => some (x, m.erase p)
  | some (x :: y :: l) => some (x, m.insert p (y :: l))
  | _ => none

/-- No page is listed without objects. -/
def NoEmpty (m : PageMap π ω) : Prop :=
  ∀ p l, m.lookup p = some l → l ≠ []

/-- The number of objects in the map. -/
def total (m : PageMap π ω) : Nat :=
  ∑ p ∈ m.keys.toFinset, (listAt m p).length

theorem listAt_of_lookup (h : m.lookup p = some l) : listAt m p = l := by
  simp [listAt, h]

theorem listAt_of_lookup_none (h : m.lookup p = none) : listAt m p = [] := by
  simp [listAt, h]

theorem mem_keys_iff_lookup : p ∈ m.keys ↔ ∃ l, m.lookup p = some l := by
  rw [← AList.mem_keys, ← AList.lookup_isSome, Option.isSome_iff_exists]

theorem lookup_insert_eq {β : Type*} {m : AList fun _ : π => β} {v : β} :
    (m.insert p v).lookup q = if q = p then some v else m.lookup q := by
  split_ifs with h
  · rw [h, AList.lookup_insert]
  · exact AList.lookup_insert_ne h

theorem lookup_erase_eq {β : Type*} {m : AList fun _ : π => β} :
    (m.erase p).lookup q = if q = p then none else m.lookup q := by
  split_ifs with h
  · rw [h, AList.lookup_erase]
  · exact AList.lookup_erase_ne h

theorem listAt_insert : listAt (m.insert p l) q = if q = p then l else listAt m q := by
  simp only [listAt, lookup_insert_eq]
  split_ifs <;> rfl

theorem listAt_erase : listAt (m.erase p) q = if q = p then [] else listAt m q := by
  simp only [listAt, lookup_erase_eq]
  split_ifs <;> rfl

theorem listAt_pushBack :
    listAt (pushBack m p x) q = if q = p then listAt m p ++ [x] else listAt m q :=
  listAt_insert

/-- Taking an object from a page: it was at the front, and the other pages keep their
queues. -/
theorem popFront_eq_some (h : popFront m p = some (x, m')) :
    m.lookup p = some (x :: listAt m' p) ∧
      (∀ q, m'.lookup q = if q = p then (if listAt m' p = [] then none else some (listAt m' p))
        else m.lookup q) := by
  unfold popFront at h
  split at h
  · rename_i y hlookup
    cases h
    have hnil : listAt (m.erase p) p = [] := by simp [listAt_erase]
    refine ⟨by rw [hnil, hlookup], ?_⟩
    intro q
    rw [lookup_erase_eq, if_pos hnil]
  · rename_i y z l hlookup
    cases h
    have hcons : listAt (m.insert p (z :: l)) p = z :: l := by simp [listAt_insert]
    refine ⟨by rw [hcons, hlookup], ?_⟩
    intro q
    have hne : ¬ z :: l = [] := by simp
    rw [lookup_insert_eq, hcons, if_neg hne]
  · simp at h

theorem listAt_popFront (h : popFront m p = some (x, m')) :
    listAt m p = x :: listAt m' p ∧ ∀ q, q ≠ p → listAt m' q = listAt m q := by
  obtain ⟨hp, hq⟩ := popFront_eq_some h
  refine ⟨listAt_of_lookup hp, ?_⟩
  intro q hne
  simp only [listAt, hq q, if_neg hne]

/-- A listed page always has an object to take. -/
theorem exists_popFront (hne : NoEmpty m) (h : p ∈ m.keys) :
    ∃ x m', popFront m p = some (x, m') := by
  obtain ⟨l, hl⟩ := mem_keys_iff_lookup.mp h
  match l, hl with
  | [], hl => exact absurd rfl (hne p [] hl)
  | [x], hl => exact ⟨x, m.erase p, by simp [popFront, hl]⟩
  | x :: y :: l, hl => exact ⟨x, m.insert p (y :: l), by simp [popFront, hl]⟩

/-! ## Counting objects -/

theorem mem_keys_of_listAt (h : listAt m q ≠ []) : q ∈ m.keys := by
  rw [mem_keys_iff_lookup]
  cases hl : m.lookup q with
  | none => exact absurd (listAt_of_lookup_none hl) h
  | some l => exact ⟨l, rfl⟩

/-- The sum may run over any set that covers the pages with objects. -/
theorem total_eq_sum {t : Finset π} (ht : ∀ q, listAt m q ≠ [] → q ∈ t) :
    total m = ∑ q ∈ t, (listAt m q).length := by
  have hzero : ∀ {s : Finset π}, (∀ q, listAt m q ≠ [] → q ∈ s) →
      ∀ q ∈ m.keys.toFinset ∪ t, q ∉ s → (listAt m q).length = 0 := by
    intro s hs q _ hq
    by_contra hne
    exact hq (hs q fun hnil => hne (by rw [hnil, List.length_nil]))
  have hkeys : ∀ q, listAt m q ≠ [] → q ∈ m.keys.toFinset := fun q hq =>
    List.mem_toFinset.mpr (mem_keys_of_listAt hq)
  calc total m = ∑ q ∈ m.keys.toFinset ∪ t, (listAt m q).length :=
        Finset.sum_subset Finset.subset_union_left (hzero hkeys)
    _ = ∑ q ∈ t, (listAt m q).length :=
        (Finset.sum_subset Finset.subset_union_right (hzero ht)).symm

/-- Changing the queue of one page changes the number of objects by the difference. -/
theorem total_update (m m' : PageMap π ω) (p : π)
    (hq : ∀ q, q ≠ p → listAt m' q = listAt m q) :
    total m' + (listAt m p).length = total m + (listAt m' p).length := by
  -- both sums run over the pages of `m` and the changed page
  have hcover : ∀ n : PageMap π ω, (∀ q, q ≠ p → listAt n q = listAt m q) →
      total n = (listAt n p).length + ∑ q ∈ m.keys.toFinset.erase p, (listAt m q).length := by
    intro n hn
    have ht : ∀ q, listAt n q ≠ [] → q ∈ insert p (m.keys.toFinset.erase p) := by
      intro q hne
      by_cases hqp : q = p
      · simp [hqp]
      · rw [hn q hqp] at hne
        have hmem := mem_keys_of_listAt hne
        simp [hqp, hmem]
    rw [total_eq_sum ht, Finset.sum_insert (by simp)]
    refine congrArg _ (Finset.sum_congr rfl ?_)
    intro q hq
    rw [hn q (Finset.ne_of_mem_erase hq)]
  rw [hcover m fun _ _ => rfl, hcover m' hq]
  omega

theorem total_pushBack : total (pushBack m p x) = total m + 1 := by
  have h := total_update m (pushBack m p x) p fun q hq => by
    rw [listAt_pushBack, if_neg hq]
  rw [listAt_pushBack, if_pos rfl, List.length_append, List.length_singleton] at h
  omega

theorem total_popFront (h : popFront m p = some (x, m')) : total m = total m' + 1 := by
  obtain ⟨hp, hq⟩ := listAt_popFront h
  have htotal := total_update m m' p hq
  rw [hp, List.length_cons] at htotal
  omega

theorem total_erase (m : PageMap π ω) (p : π) :
    total (m.erase p) + (listAt m p).length = total m := by
  have h := total_update m (m.erase p) p fun q hq => by
    rw [listAt_erase, if_neg hq]
  rw [listAt_erase, if_pos rfl, List.length_nil] at h
  omega

theorem total_insert_fresh (h : listAt m p = []) :
    total (m.insert p l) = total m + l.length := by
  have h' := total_update m (m.insert p l) p fun q hq => by
    rw [listAt_insert, if_neg hq]
  rw [listAt_insert, if_pos rfl, h, List.length_nil] at h'
  omega

theorem noEmpty_single {l : List ω} (hl : l ≠ []) : NoEmpty ((∅ : PageMap π ω).insert p l) := by
  intro q l' hq
  rw [lookup_insert_eq] at hq
  split_ifs at hq
  · exact Option.some.inj hq ▸ hl
  · simp at hq

theorem noEmpty_popFront (hne : NoEmpty m) (h : popFront m p = some (x, m')) : NoEmpty m' := by
  intro q l hl
  rw [(popFront_eq_some h).2 q] at hl
  split_ifs at hl with hq hnil
  · exact Option.some.inj hl ▸ hnil
  · exact hne q l hl

theorem noEmpty_pushBack (hne : NoEmpty m) : NoEmpty (pushBack m p x) := by
  intro q l hl
  rw [pushBack, lookup_insert_eq] at hl
  split_ifs at hl
  · simp [← Option.some.inj hl]
  · exact hne q l hl

theorem noEmpty_erase (hne : NoEmpty m) : NoEmpty (m.erase p) := by
  intro q l hl
  rw [lookup_erase_eq] at hl
  split_ifs at hl
  exact hne q l hl

/-- A map without empty queues has no pages exactly when it has no objects. -/
theorem total_eq_zero (hne : NoEmpty m) : total m = 0 ↔ m.keys = [] := by
  constructor
  · intro h
    rw [List.eq_nil_iff_forall_not_mem]
    intro p hp
    obtain ⟨l, hl⟩ := mem_keys_iff_lookup.mp hp
    have hlen := (Finset.sum_eq_zero_iff.mp h) p (List.mem_toFinset.mpr hp)
    rw [listAt_of_lookup hl] at hlen
    exact hne p l hl (List.length_eq_zero_iff.mp hlen)
  · intro h
    simp [total, h]

omit [DecidableEq π] in
theorem eq_empty_of_keys (h : m.keys = []) : m = ∅ := by
  refine AList.ext ?_
  simpa [AList.keys, List.keys] using h

theorem total_empty : total (∅ : PageMap π ω) = 0 := by
  simp [total]

/-! ## Limits -/

/-- There are few objects, or no page has all of its objects. -/
def Limited (limit full : Nat) (m : PageMap π ω) : Prop :=
  total m < limit + full ∨ ∀ p, (listAt m p).length ≠ full

variable {limit full : Nat}

theorem limited_empty (hfull : 0 < full) : Limited limit full (∅ : PageMap π ω) := by
  left
  rw [total_empty]
  omega

/-- Within its limit, a map of which every page is full has few objects. -/
theorem Limited.total_lt (h : Limited limit full m) (hpos : 0 < full)
    (hfull : ∀ p ∈ m.keys, (listAt m p).length = full) : total m < limit + full := by
  rcases h with hfew | hnone
  · exact hfew
  · have hkeys : m.keys = [] := by
      refine List.eq_nil_iff_forall_not_mem.2 ?_
      intro p hp
      exact hnone p (hfull p hp)
    rw [eq_empty_of_keys hkeys, total_empty]
    omega

/-- Taking an object keeps the limit. -/
theorem Limited.popFront (h : Limited limit full m) (hle : (listAt m p).length ≤ full)
    (hpop : popFront m p = some (x, m')) : Limited limit full m' := by
  have htotal := total_popFront hpop
  obtain ⟨hself, hother⟩ := listAt_popFront hpop
  rcases h with hfew | hnone
  · exact .inl (by omega)
  · right
    intro q
    by_cases hq : q = p
    · rw [hself, List.length_cons] at hle
      rw [hq]
      omega
    · rw [hother q hq]
      exact hnone q

/-- Giving an object back keeps the limit when a full page is given up. -/
theorem Limited.pushBack_erase (h : Limited limit full m) (hpos : 0 < full)
    (hfull : (listAt (pushBack m q x) p).length = full) :
    Limited limit full ((pushBack m q x).erase p) := by
  have htotal : total (pushBack m q x) = total m + 1 := total_pushBack
  have herase := total_erase (pushBack m q x) p
  rcases h with hfew | hnone
  · exact .inl (by omega)
  · -- above the limit, only the page of the new object can have become full
    right
    have hpush : ∀ p', p' ≠ q → listAt (pushBack m q x) p' = listAt m p' := by
      intro p' hp'
      rw [listAt_pushBack, if_neg hp']
    have hpq : p = q := by
      by_contra hne
      rw [hpush p hne] at hfull
      exact hnone p hfull
    intro p'
    rw [listAt_erase]
    split_ifs with hp'
    · simp only [List.length_nil]
      omega
    · rw [hpush p' (hpq ▸ hp')]
      exact hnone p'

/-- When a walk over the pages finds no full one, there is none. -/
theorem ne_full_of_find {it : IterOrder π} (hpos : 0 < full)
    (hfind : (it.order m.keys).find? (fun p => (listAt m p).length = full) = none) (p : π) :
    (listAt m p).length ≠ full := by
  intro hfull
  have hmem : p ∈ m.keys := by
    refine mem_keys_of_listAt ?_
    intro hnil
    rw [hnil, List.length_nil] at hfull
    omega
  have hno := List.find?_eq_none.1 hfind p ((it.perm _).mem_iff.2 hmem)
  exact hno (by simpa using hfull)

end PageMap
