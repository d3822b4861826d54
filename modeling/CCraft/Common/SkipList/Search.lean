import CCraft.Common.SkipList.Model
import CCraft.Lib.WeakOrder

/-!
# Searching in the skip list

A list of entries describes a well-formed skip list: the node of each entry is in the chains of
the levels up to its height, in the order of the entries.  In such a list that is sorted, the
searches take a split of the entries: the smaller ones, and the others.

Main results:

- Theorem {lit}`findPreviousLevelsNodes_eq`: on each level the search finds the last smaller node.
- Theorem {lit}`findNode_eq`: the node of the equivalent entry is found, if there is one.
- Theorem {lit}`iterate_eq`: an iterator goes through the entries in their order.
-/

namespace CCraft
namespace Common

open Chains WeakOrder

/-! ## Entries -/

/-- A node of the list with its address, its data and its height. -/
structure SkipEntry (T : Type) where
  addr : Nat
  data : T
  height : Nat

namespace SkipEntry

variable {T : Type} {es ls gs : List (SkipEntry T)} {e : SkipEntry T} {i : Nat}

/-- The addresses of the nodes that are on a level. -/
def levelAddrs (es : List (SkipEntry T)) (i : Nat) : List Nat :=
  (es.filter fun e => i ≤ e.height).map (·.addr)

/-- The highest level with a node, 0 without nodes. -/
def top : List (SkipEntry T) → Nat
  | [] => 0
  | e :: es => max e.height (top es)

theorem levelAddrs_append : levelAddrs (ls ++ gs) i = levelAddrs ls i ++ levelAddrs gs i := by
  simp [levelAddrs]

theorem levelAddrs_cons :
    levelAddrs (e :: es) i = if i ≤ e.height then e.addr :: levelAddrs es i
      else levelAddrs es i := by
  unfold levelAddrs
  by_cases hi : i ≤ e.height <;> simp [hi]

theorem mem_levelAddrs {a : Nat} :
    a ∈ levelAddrs es i ↔ ∃ e ∈ es, i ≤ e.height ∧ e.addr = a := by
  simp [levelAddrs, and_assoc]

theorem levelAddrs_zero : levelAddrs es 0 = es.map (·.addr) := by
  simp [levelAddrs]

/-- The nodes of a level are nodes of the list, in the same order. -/
theorem levelAddrs_sublist : (levelAddrs es i).Sublist (es.map (·.addr)) :=
  List.Sublist.map _ List.filter_sublist

/-- A level is a part of the one below it. -/
theorem levelAddrs_succ_sublist : (levelAddrs es (i + 1)).Sublist (levelAddrs es i) := by
  refine List.Sublist.map _ (List.monotone_filter_right es ?_)
  intro e he
  simp only [decide_eq_true_eq] at he ⊢
  omega

/-- Above a level without nodes there are none. -/
theorem levelAddrs_eq_nil_of_le {j : Nat} (hij : i ≤ j) (h : levelAddrs es i = []) :
    levelAddrs es j = [] := by
  refine List.eq_nil_iff_forall_not_mem.2 fun a ha => ?_
  obtain ⟨e, he, hheight, rfl⟩ := mem_levelAddrs.1 ha
  have hmem : e.addr ∈ levelAddrs es i := mem_levelAddrs.2 ⟨e, he, hij.trans hheight, rfl⟩
  rw [h] at hmem
  cases hmem

theorem height_le_top (he : e ∈ es) : e.height ≤ top es := by
  induction es with
  | nil => cases he
  | cons e' es ih =>
    rcases List.mem_cons.1 he with rfl | he
    · exact Nat.le_max_left ..
    · exact (ih he).trans (Nat.le_max_right ..)

theorem top_append : top (ls ++ gs) = max (top ls) (top gs) := by
  induction ls with
  | nil => simp [top]
  | cons e ls ih => simp [top, ih, Nat.max_assoc]

theorem top_le {n : Nat} (h : ∀ e ∈ es, e.height ≤ n) : top es ≤ n := by
  induction es with
  | nil => exact Nat.zero_le n
  | cons e es ih =>
    have hrest : top es ≤ n := ih fun e' he' => h e' (by simp [he'])
    exact Nat.max_le.2 ⟨h e (by simp), hrest⟩

/-- The levels above the highest one are those without nodes. -/
theorem levelAddrs_eq_nil_iff : levelAddrs es (i + 1) = [] ↔ top es ≤ i := by
  constructor
  · intro hnil
    refine top_le fun e he => ?_
    by_contra hlt
    have hmem : e.addr ∈ levelAddrs es (i + 1) := mem_levelAddrs.2 ⟨e, he, by omega, rfl⟩
    rw [hnil] at hmem
    cases hmem
  · intro htop
    refine List.eq_nil_iff_forall_not_mem.2 fun a ha => ?_
    obtain ⟨e, he, hheight, rfl⟩ := mem_levelAddrs.1 ha
    have := height_le_top he
    omega

end SkipEntry

namespace SkipList

open SkipEntry

variable {T : Type} {s : SkipList T} {es ls gs : List (SkipEntry T)} {e : SkipEntry T} {t : T}
  {n i : Nat}

/-- The entries describe the list: their nodes are there with a pointer for each level up to the
height, and they are what is linked on each level. -/
structure Represents (s : SkipList T) (es : List (SkipEntry T)) : Prop where
  head : ∃ d, s.shape s.head = some (d, s.maxLevel + 1)
  entry : ∀ e ∈ es, s.shape e.addr = some (e.data, e.height + 1)
  nodup : (s.head :: es.map (·.addr)).Nodup
  chain : ∀ i ≤ s.maxLevel, Linked (s.nextAt i) s.head (levelAddrs es i)
  height : ∀ e ∈ es, e.height ≤ s.curLevel
  level : s.curLevel < s.maxLevel
  fuel : es.length < s.made

/-- The last node of a level. -/
def lastOf (s : SkipList T) (ls : List (SkipEntry T)) (i : Nat) : Nat :=
  (levelAddrs ls i).getLastD s.head

/-- `targetPrev` after a search that passes the given entries. -/
def found (s : SkipList T) (ls : List (SkipEntry T)) : TargetPrev :=
  fun i => if i ≤ s.curLevel then some (s.lastOf ls i) else none

/-- Above the highest nodes there is only the head. -/
theorem lastOf_eq_head (h : ∀ e ∈ ls, e.height < i) : s.lastOf ls i = s.head := by
  have hnil : levelAddrs ls i = [] := by
    refine List.eq_nil_iff_forall_not_mem.2 fun a ha => ?_
    obtain ⟨e, he, hheight, -⟩ := mem_levelAddrs.1 ha
    have := h e he
    omega
  rw [lastOf, hnil]
  rfl

/-! ## The searches on sorted entries -/

section Search

variable {cmp : T → T → Bool}

/-- The inner loop goes from the last smaller node of a level to the last smaller node of the level
below. -/
theorem Represents.advance (h : s.Represents (ls ++ gs)) (hls : ∀ e ∈ ls, cmp e.data t = true)
    (hgs : ∀ e ∈ gs, cmp e.data t = false) (hi : i ≤ s.maxLevel) :
    s.advance cmp t i (s.made + 1) (s.lastOf ls (i + 1)) =
      .ok (s.lastOf ls i, (levelAddrs gs i).head?) := by
  obtain ⟨front, back, hsplit, hlast⟩ := exists_split_filter (fun e : SkipEntry T => e.addr) s.head
    (fun e => decide (i ≤ e.height)) (fun e => decide (i + 1 ≤ e.height))
    (fun e he => by simp only [decide_eq_true_eq] at he ⊢; omega) ls
  have hlevel : levelAddrs ls i = front.map (·.addr) ++ back.map (·.addr) := by
    rw [levelAddrs, hsplit, List.map_append]
  have hback : ∀ e ∈ back, e ∈ ls := by
    intro e he
    exact (List.mem_filter.1 (hsplit ▸ List.mem_append_right front he)).1
  have hchain := h.chain i hi
  rw [levelAddrs_append, hlevel, List.append_assoc] at hchain
  have hstart : (front.map (·.addr)).getLastD s.head = s.lastOf ls (i + 1) := hlast
  have hend : s.lastOf ls i = (back.map (·.addr)).getLastD (s.lastOf ls (i + 1)) := by
    rw [lastOf, hlevel, getLastD_append, hstart]
  rw [hend]
  refine advance_eq cmp (hstart ▸ hchain.right) ?_ ?_ ?_
  · intro a ha
    obtain ⟨e, he, rfl⟩ := List.mem_map.1 ha
    exact ⟨e.data, _, h.entry e (by simp [hback e he]), hls e (hback e he)⟩
  · intro a ha
    obtain ⟨e, he, -, rfl⟩ := mem_levelAddrs.1 (List.mem_of_mem_head? ha)
    exact ⟨e.data, _, h.entry e (by simp [he]), hgs e he⟩
  · have hlength : back.length ≤ ls.length := by
      calc back.length ≤ (front ++ back).length := by simp
        _ ≤ ls.length := hsplit ▸ List.length_filter_le ..
    have := h.fuel
    simp only [List.length_append, List.length_map] at this ⊢
    omega

theorem Represents.findPrevious (h : s.Represents (ls ++ gs))
    (hls : ∀ e ∈ ls, cmp e.data t = true) (hgs : ∀ e ∈ gs, cmp e.data t = false)
    (hn : n ≤ s.maxLevel) (tp : TargetPrev) :
    s.findPrevious cmp t n (s.lastOf ls n) tp =
      .ok fun i => if i < n then some (s.lastOf ls i) else tp i := by
  induction n generalizing tp with
  | zero => simp [SkipList.findPrevious]
  | succ n ih =>
    have hlt : n < s.maxLevel := hn
    rw [SkipList.findPrevious, h.advance hls hgs hlt.le]
    simp only [Fallible.ok_bind, setPrev, if_pos hlt, ih hlt.le]
    congr 1
    funext i
    by_cases hi : i < n
    · simp [hi, Nat.lt_succ_of_lt hi]
    · by_cases heq : i = n
      · subst heq
        simp
      · simp [hi, heq, show ¬ i < n + 1 by omega]

/-- `find_previous_levels_nodes` finds the last smaller node on each level. -/
theorem findPreviousLevelsNodes_eq (h : s.Represents (ls ++ gs))
    (hls : ∀ e ∈ ls, cmp e.data t = true) (hgs : ∀ e ∈ gs, cmp e.data t = false) :
    s.findPreviousLevelsNodes cmp t = .ok (s.found ls) := by
  have hhead : s.lastOf ls (s.curLevel + 1) = s.head :=
    lastOf_eq_head fun e he => Nat.lt_succ_of_le (h.height e (by simp [he]))
  have hfind := h.findPrevious hls hgs h.level fun _ => none
  rw [findPreviousLevelsNodes, ← hhead, hfind]
  simp only [Nat.lt_succ_iff]
  rfl

/-- On the levels up to the current one, `targetPrev` has the last of the smaller nodes. -/
theorem Represents.prev_found (h : s.Represents es) (hi : i ≤ s.curLevel) :
    s.prev (s.found ls) i = .ok (s.lastOf ls i) := by
  rw [prev, if_pos (Nat.lt_of_le_of_lt hi h.level), found, if_pos hi]

/-- Behind the last of the smaller nodes comes the first of the others. -/
theorem Represents.next_lastOf (h : s.Represents (ls ++ gs)) (hi : i ≤ s.maxLevel) :
    s.next (s.lastOf ls i) i = .ok (levelAddrs gs i).head? := by
  have hchain := h.chain i hi
  rw [levelAddrs_append] at hchain
  exact next_eq_ok.2 hchain.right.head

/-- What `insert` and `erase` begin with: `targetPrev` and the node behind `targetPrev[0]`. -/
theorem Represents.search {β : Type} (h : s.Represents (ls ++ gs))
    (hls : ∀ e ∈ ls, cmp e.data t = true) (hgs : ∀ e ∈ gs, cmp e.data t = false)
    (rest : TargetPrev → Option Nat → Except SkipFault β) :
    (s.findPreviousLevelsNodes cmp t >>= fun tp => s.prev tp 0 >>= fun p => s.next p 0 >>= fun q =>
      rest tp q) = rest (s.found ls) (gs.map (·.addr)).head? := by
  rw [findPreviousLevelsNodes_eq h hls hgs, Fallible.ok_bind, h.prev_found (Nat.zero_le _),
    Fallible.ok_bind, h.next_lastOf (Nat.zero_le _), Fallible.ok_bind, levelAddrs_zero]

/-- `find_node` ends on a level whose first node behind the smaller ones is not greater. -/
theorem Represents.findFrom_succ (h : s.Represents (ls ++ gs))
    (hls : ∀ e ∈ ls, cmp e.data t = true) (hgs : ∀ e ∈ gs, cmp e.data t = false)
    (hi : i ≤ s.maxLevel) :
    s.findFrom cmp t (i + 1) (s.lastOf ls (i + 1)) =
      match (gs.filter fun e => i ≤ e.height).head? with
      | none => s.findFrom cmp t i (s.lastOf ls i)
      | some e =>
        if cmp t e.data then s.findFrom cmp t i (s.lastOf ls i) else .ok (some e.addr) := by
  rw [findFrom, h.advance hls hgs hi, Fallible.ok_bind, levelAddrs, List.head?_map]
  cases hfirst : (gs.filter fun e => decide (i ≤ e.height)).head? with
  | none => rfl
  | some e =>
    have he : e ∈ gs := (List.mem_filter.1 (List.mem_of_mem_head? hfirst)).1
    simp [data_eq_ok (h.entry e (by simp [he]))]

/-- Nothing is found where all entries behind the smaller ones are greater. -/
theorem find_eq_none (hls : ∀ e ∈ ls, cmp e.data t = true) (hgs : ∀ e ∈ gs, cmp t e.data = true) :
    ((ls ++ gs).find? fun e => equivalent cmp e.data t) = none := by
  refine List.find?_eq_none.2 fun e he => Bool.eq_false_iff.1 (not_equivalent_of_cmp ?_)
  rcases List.mem_append.1 he with he | he
  · exact .inl (hls e he)
  · exact .inr (hgs e he)

variable [IsStrictWeakOrder T fun a b => cmp a b = true]

/-- The entries behind a greater first one are greater too. -/
theorem greater_of_head (hsorted : Sorted cmp (gs.map (·.data)))
    (hgs : ∀ e ∈ gs, cmp e.data t = false) (hhead : ∀ e ∈ gs.head?, cmp t e.data = true) :
    ∀ e ∈ gs, cmp t e.data = true := by
  cases gs with
  | nil => simp
  | cons g gs =>
    intro e he
    rcases List.mem_cons.1 he with rfl | he
    · exact hhead e rfl
    · exact cmp_of_sorted_cons hsorted (hgs g (by simp)) e.data (List.mem_map_of_mem he)

/-- `find_node` from a level down finds the node of the equivalent entry. -/
theorem Represents.findFrom (h : s.Represents (ls ++ gs))
    (hsorted : Sorted cmp ((ls ++ gs).map (·.data))) (hls : ∀ e ∈ ls, cmp e.data t = true)
    (hgs : ∀ e ∈ gs, cmp e.data t = false) (hi : i ≤ s.maxLevel) :
    s.findFrom cmp t (i + 1) (s.lastOf ls (i + 1)) =
      .ok (((ls ++ gs).find? fun e => equivalent cmp e.data t).map (·.addr)) := by
  have hfound : ∀ e ∈ gs, cmp t e.data = false →
      ((ls ++ gs).find? fun e => equivalent cmp e.data t) = some e := by
    intro e he hcmp
    exact find_eq_some (f := fun e : SkipEntry T => e.data) hsorted (List.mem_append_right ls he)
      (equivalent_iff.2 ⟨hgs e he, hcmp⟩)
  have hgsorted : Sorted cmp (gs.map (·.data)) :=
    List.Pairwise.sublist (List.Sublist.map _ (List.sublist_append_right ls gs)) hsorted
  induction i with
  | zero =>
    have hall : (gs.filter fun e => decide (0 ≤ e.height)) = gs := by simp
    rw [h.findFrom_succ hls hgs hi, hall]
    cases hfirst : gs.head? with
    | none =>
      have hgreater := greater_of_head hgsorted hgs (by simp [hfirst])
      rw [find_eq_none hls hgreater]
      rfl
    | some e =>
      by_cases hcmp : cmp t e.data = true
      · have hgreater := greater_of_head hgsorted hgs (by simpa [hfirst] using hcmp)
        rw [find_eq_none hls hgreater]
        simp [hcmp, SkipList.findFrom]
      · have hcmp' := Bool.eq_false_iff.2 hcmp
        simp [hcmp', hfound e (List.mem_of_mem_head? hfirst) hcmp']
  | succ i ih =>
    have hrest := ih (by omega)
    rw [h.findFrom_succ hls hgs hi]
    cases hfirst : (gs.filter fun e => decide (i + 1 ≤ e.height)).head? with
    | none => exact hrest
    | some e =>
      by_cases hcmp : cmp t e.data = true
      · simpa [hcmp] using hrest
      · have hcmp' := Bool.eq_false_iff.2 hcmp
        have he : e ∈ gs := (List.mem_filter.1 (List.mem_of_mem_head? hfirst)).1
        simp [hcmp', hfound e he hcmp']

/-- `find_node` finds the node of the equivalent entry. -/
theorem findNode_eq (h : s.Represents es) (hsorted : Sorted cmp (es.map (·.data))) (t : T) :
    s.findNode cmp t = .ok ((es.find? fun e => equivalent cmp e.data t).map (·.addr)) := by
  obtain ⟨ls, gs, rfl, hls, hgs⟩ := exists_split hsorted t
  have hhead : s.lastOf ls (s.curLevel + 1) = s.head :=
    lastOf_eq_head fun e he => Nat.lt_succ_of_le (h.height e (by simp [he]))
  rw [findNode, ← hhead, h.findFrom hsorted hls hgs h.level.le]

/-- `get` returns the data of the equivalent entry. -/
theorem get_eq (h : s.Represents es) (hsorted : Sorted cmp (es.map (·.data))) (t : T) :
    s.get cmp t = .ok ((es.map (·.data)).find? (equivalent cmp · t)) := by
  rw [get, findNode_eq h hsorted, List.find?_map, Fallible.ok_bind]
  cases hfind : es.find? fun e => equivalent cmp e.data t with
  | none => simp [hfind]
  | some e =>
    have hdata := data_eq_ok (h.entry e (List.mem_of_find?_eq_some hfind))
    simp [hfind, hdata]

/-- `contains` tells whether there is an equivalent entry. -/
theorem contains_eq (h : s.Represents es) (hsorted : Sorted cmp (es.map (·.data))) (t : T) :
    s.contains cmp t = .ok ((es.map (·.data)).any (equivalent cmp · t)) := by
  rw [contains, findNode_eq h hsorted, Fallible.ok_bind]
  congr 1
  rw [Bool.eq_iff_iff, Option.isSome_map, List.find?_isSome, List.any_map, List.any_eq_true]
  simp

end Search

/-! ## Iteration -/

theorem iterateFrom_eq {l : List (SkipEntry T)} {p fuel : Nat}
    (hentry : ∀ e ∈ l, s.shape e.addr = some (e.data, e.height + 1))
    (hchain : Linked (s.nextAt 0) p (l.map (·.addr))) (hfuel : l.length < fuel) :
    s.iterateFrom fuel ((l.map (·.addr)).head?) = .ok (l.map (·.data)) := by
  induction l generalizing p fuel with
  | nil => cases fuel <;> rfl
  | cons e l ih =>
    obtain ⟨fuel, rfl⟩ : ∃ n, fuel = n + 1 := ⟨fuel - 1, by simp at hfuel; omega⟩
    have hdata := data_eq_ok (hentry e (by simp))
    have hnext : s.next e.addr 0 = .ok (l.map (·.addr)).head? := next_eq_ok.2 hchain.2.head
    have hrest := ih (fun e' he' => hentry e' (by simp [he'])) hchain.2
      (by simpa using Nat.lt_of_succ_lt_succ hfuel)
    simp only [List.map_cons, List.head?_cons, iterateFrom, hdata, hnext, hrest,
      Fallible.ok_bind]

/-- An iterator goes through the data of the entries. -/
theorem iterate_eq (h : s.Represents es) : s.iterate = .ok (es.map (·.data)) := by
  have hchain := h.chain 0 (Nat.zero_le _)
  rw [levelAddrs_zero] at hchain
  have hfirst : s.next s.head 0 = .ok (es.map (·.addr)).head? := next_eq_ok.2 hchain.head
  rw [iterate, hfirst, Fallible.ok_bind]
  exact iterateFrom_eq h.entry hchain (Nat.lt_succ_of_lt h.fuel)

end SkipList

end Common
end CCraft
