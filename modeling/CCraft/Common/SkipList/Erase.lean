import CCraft.Common.SkipList.Insert

/-!
# Erasing from the skip list

What {lit}`erase` and {lit}`clear` do to a list that is described by sorted entries.  {lit}`erase`
takes the node of the equivalent entry out of every level up to its height, deletes it and lowers
the current level to the highest one that still has a node.  {lit}`clear` deletes only every second
node and takes all of them out of the chains; it does not change the current level.

Main results:

- Theorems {lit}`erase_of_equivalent` and {lit}`erase_of_greater`: the equivalent entry is taken
  out, and without one nothing changes.
- Theorem {lit}`clear_spec`: all entries are taken out, and the current level stays.
-/

namespace CCraft
namespace Common
namespace SkipList

open Chains WeakOrder SkipEntry

variable {T : Type} {s s' : SkipList T} {es ls gs : List (SkipEntry T)} {g : SkipEntry T} {t : T}
  {n i fuel : Nat} {tp : TargetPrev} {cmp : T → T → Bool}

/-! ## Deleted nodes -/

theorem nextAt_delete {q : Nat} :
    (s.delete q).nextAt i = Function.update (s.nextAt i) q none := by
  funext a
  by_cases ha : a = q
  · subst ha
    simp [nextAt, delete]
  · simp [nextAt, delete, Function.update_of_ne ha]

theorem shape_delete {q : Nat} : (s.delete q).shape = Function.update s.shape q none := by
  funext a
  by_cases ha : a = q
  · subst ha
    simp [shape, delete]
  · simp [shape, delete, Function.update_of_ne ha]

/-! ## Unlinking a node -/

/-- A level that an entry does not reach is the same without it. -/
theorem levelAddrs_without (hi : g.height < i) :
    levelAddrs (ls ++ g :: gs) i = levelAddrs (ls ++ gs) i := by
  rw [levelAddrs_append, levelAddrs_cons, if_neg (by omega), levelAddrs_append]

/-- One level of the loop in `erase`. -/
theorem unlinkLevel_spec {front back : List Nat} {q : Nat}
    (hchain : Linked (s.nextAt i) s.head (front ++ q :: back))
    (hnodup : (s.head :: (front ++ q :: back)).Nodup) :
    ∃ s', s.next q i = .ok back.head? ∧
      s.setNext (front.getLastD s.head) i back.head? = .ok s' ∧ s'.shape = s.shape ∧
      s'.frame = s.frame ∧ Linked (s'.nextAt i) s.head (front ++ back) ∧
      ∀ j, j ≠ i → s'.nextAt j = s.nextAt j := by
  have hlast : s.nextAt i (front.getLastD s.head) ≠ none := by
    rw [hchain.right.head]
    simp
  obtain ⟨s', hset, hlink⟩ := setNext_spec hlast back.head?
  refine ⟨s', next_eq_ok.2 hchain.right.2.head, hset, hlink.shape, hlink.frame, ?_, hlink.there⟩
  rw [hlink.here]
  exact hchain.remove hnodup

/-- An entry is not the first of those behind it on a level it does not reach. -/
theorem head_ne_of_not_on (hnodup : ((ls ++ g :: gs).map (·.addr)).Nodup) (hi : ¬ i ≤ g.height) :
    (levelAddrs (g :: gs) i).head? ≠ some g.addr := by
  rw [levelAddrs_cons, if_neg hi]
  intro hhead
  have hmem := levelAddrs_sublist.mem (List.mem_of_mem_head? hhead)
  have hrest := hnodup.sublist (List.Sublist.map _ (List.sublist_append_right ls (g :: gs)))
  exact (List.nodup_cons.1 hrest).1 hmem

/-- The loop in `erase` takes the node out of the levels up to its height. -/
theorem unlinkLevels_spec (hn : i + n ≤ s.maxLevel) (hheight : g.height < i + n)
    (htp : ∀ j, j < i + n → tp j = some (s.lastOf ls j))
    (hchain : ∀ j, i ≤ j → j < i + n → Linked (s.nextAt j) s.head (levelAddrs (ls ++ g :: gs) j))
    (hnodup : (s.head :: (ls ++ g :: gs).map (·.addr)).Nodup) :
    ∃ s', unlinkLevels tp g.addr n i s = .ok s' ∧ s'.shape = s.shape ∧ s'.frame = s.frame ∧
      (∀ j, i ≤ j → j < i + n → Linked (s'.nextAt j) s.head (levelAddrs (ls ++ gs) j)) ∧
      ∀ j, j < i ∨ i + n ≤ j → s'.nextAt j = s.nextAt j := by
  induction n generalizing i s with
  | zero => exact ⟨s, rfl, rfl, rfl, fun j hj hj' => by omega, fun _ _ => rfl⟩
  | succ n ih =>
    have hprev : s.prev tp i = .ok (s.lastOf ls i) := by
      rw [prev, if_pos (by omega), htp i (by omega)]
    have hhere := hchain i le_rfl (by omega)
    have hlevel := hnodup.sublist (List.Sublist.cons_cons _ (levelAddrs_sublist (i := i)))
    rw [levelAddrs_append] at hhere hlevel
    have hnext : s.next (s.lastOf ls i) i = .ok (levelAddrs (g :: gs) i).head? :=
      next_eq_ok.2 hhere.right.head
    by_cases hon : i ≤ g.height
    · rw [levelAddrs_cons, if_pos hon] at hhere hnext hlevel
      obtain ⟨s₁, hbehind, hset, hshape₁, hframe₁, hdone, hthere⟩ :=
        unlinkLevel_spec hhere hlevel
      obtain ⟨hhead, -, hmax, -⟩ := frame_eq hframe₁
      have hchain₁ : ∀ j, i + 1 ≤ j → j < i + 1 + n →
          Linked (s₁.nextAt j) s₁.head (levelAddrs (ls ++ g :: gs) j) := by
        intro j hj hj'
        rw [hthere j (by omega), hhead]
        exact hchain j (by omega) (by omega)
      obtain ⟨s₂, hrest, hshape, hframe, hin, hout⟩ := ih (i := i + 1) (s := s₁) (by omega)
        (by omega) (fun j hj => by rw [lastOf, hhead]; exact htp j (by omega)) hchain₁
        (hhead ▸ hnodup)
      refine ⟨s₂, ?_, hshape.trans hshape₁, hframe.trans hframe₁, ?_, ?_⟩
      · rw [unlinkLevels, hprev, Fallible.ok_bind, hnext, Fallible.ok_bind, List.head?_cons,
          if_pos rfl, hbehind, Fallible.ok_bind, lastOf, hset, Fallible.ok_bind, hrest]
      · intro j hj hj'
        by_cases heq : j = i
        · subst heq
          rw [hout j (by omega), levelAddrs_append]
          exact hdone
        · exact hhead ▸ hin j (by omega) (by omega)
      · intro j hj
        rw [hout j (by omega), hthere j (by omega)]
    · have hstop := head_ne_of_not_on (List.nodup_cons.1 hnodup).2 hon
      refine ⟨s, ?_, rfl, rfl, ?_, fun _ _ => rfl⟩
      · rw [unlinkLevels, hprev, Fallible.ok_bind, hnext, Fallible.ok_bind, if_neg hstop]
      · intro j hj hj'
        rw [← levelAddrs_without (g := g) (by omega)]
        exact hchain j hj hj'

/-- Unlinked from the levels of the search and deleted, the entry is in no chain. -/
theorem Represents.unlink (h : s.Represents (ls ++ g :: gs)) :
    ∃ s', unlinkLevels (s.found ls) g.addr (s.curLevel + 1) 0 s = .ok s' ∧ s'.shape = s.shape ∧
      s'.frame = s.frame ∧
      ∀ j ≤ s.maxLevel, Linked ((s'.delete g.addr).nextAt j) s.head (levelAddrs (ls ++ gs) j) := by
  have hlevel := h.level
  have hheight := h.height g (by simp)
  have htp : ∀ j, j < 0 + (s.curLevel + 1) → s.found ls j = some (s.lastOf ls j) := by
    intro j hj
    rw [found, if_pos (by omega)]
  obtain ⟨s', hunlink, hshape, hframe, hin, hout⟩ :=
    unlinkLevels_spec (by omega) (by omega) htp (fun j _ hj => h.chain j (by omega)) h.nodup
  refine ⟨s', hunlink, hshape, hframe, ?_⟩
  intro j hj
  rw [nextAt_delete]
  refine Linked.update ?_ (fun hmem => (nodup_middle_iff.1 h.nodup).1 ?_) _
  · by_cases hon : j ≤ s.curLevel
    · exact hin j (Nat.zero_le j) (by omega)
    · rw [hout j (by omega), ← levelAddrs_without (g := g) (by omega)]
      exact h.chain j hj
  · exact List.Sublist.mem hmem (List.Sublist.cons_cons _ levelAddrs_sublist)

/-- The current level is lowered to the highest level with a node. -/
theorem lowerLevels_eq (hchain : ∀ j ≤ i, Linked (s.nextAt j) s.head (levelAddrs es j)) :
    lowerLevels i s = .ok { s with curLevel := s.curLevel - (i - min i (top es)) } := by
  induction i generalizing s with
  | zero => simp [lowerLevels]
  | succ i ih =>
    have hnext : s.next s.head (i + 1) = .ok (levelAddrs es (i + 1)).head? :=
      next_eq_ok.2 (hchain (i + 1) le_rfl).head
    have hnone : (levelAddrs es (i + 1)).head? = none ↔ top es ≤ i := by
      rw [List.head?_eq_none_iff, levelAddrs_eq_nil_iff]
    rw [lowerLevels, hnext, Fallible.ok_bind]
    by_cases htop : top es ≤ i
    · have hrest := ih (s := { s with curLevel := s.curLevel - 1 }) fun j hj =>
        hchain j (by omega)
      rw [if_pos (hnone.2 htop), hrest]
      have hlevel : s.curLevel - 1 - (i - min i (top es)) =
          s.curLevel - (i + 1 - min (i + 1) (top es)) := by omega
      simp only [hlevel]
    · rw [if_neg (mt hnone.1 htop), ih fun j hj => hchain j (by omega)]
      congr 2
      omega

/-! ## erase -/

/-- Without an equivalent entry nothing is erased. -/
theorem erase_of_greater [IsStrictWeakOrder T fun a b => cmp a b = true]
    (h : s.Represents (ls ++ gs)) (hls : ∀ e ∈ ls, cmp e.data t = true)
    (hgs : ∀ e ∈ gs, cmp t e.data = true) : s.erase cmp t = .ok (false, s) := by
  rw [erase, h.search hls fun e he => cmp_asymm (hgs e he)]
  cases gs with
  | nil => rfl
  | cons g gs =>
    have hdata := data_eq_ok (h.entry g (by simp))
    simp [hdata, hgs g (by simp)]

/-- The equivalent entry is taken out, and the current level is the highest one with a node. -/
theorem erase_of_equivalent (h : s.Represents (ls ++ g :: gs))
    (hls : ∀ e ∈ ls, cmp e.data t = true) (hgs : ∀ e ∈ g :: gs, cmp e.data t = false)
    (hg : cmp t g.data = false) :
    ∃ s', s.erase cmp t = .ok (true, s') ∧ s'.curLevel = top (ls ++ gs) ∧
      s'.maxLevel = s.maxLevel ∧ s'.Represents (ls ++ gs) := by
  have hdata := data_eq_ok (h.entry g (by simp))
  have hlevel := h.level
  obtain ⟨hfresh, hnodup⟩ := nodup_middle_iff.1 h.nodup
  have hold : ∀ e ∈ ls ++ gs, e ∈ ls ++ g :: gs := fun e he => mem_middle_iff.2 (.inr he)
  obtain ⟨s₁, hunlink, hshape, hframe, hchain⟩ := h.unlink
  obtain ⟨hhead, hcur, hmax, hmade⟩ := frame_eq hframe
  have hchain₁ : ∀ j ≤ s₁.curLevel,
      Linked ((s₁.delete g.addr).nextAt j) (s₁.delete g.addr).head (levelAddrs (ls ++ gs) j) := by
    intro j hj
    have := hchain j (by omega)
    rwa [← hhead] at this
  have htop : top (ls ++ gs) ≤ s.curLevel :=
    top_le fun e he => h.height e (hold e he)
  have hlower : lowerLevels s₁.curLevel (s₁.delete g.addr) =
      .ok { s₁.delete g.addr with curLevel := top (ls ++ gs) } := by
    have hlevel' : (s₁.delete g.addr).curLevel -
        (s₁.curLevel - min s₁.curLevel (top (ls ++ gs))) = top (ls ++ gs) := by
      show s₁.curLevel - (s₁.curLevel - min s₁.curLevel (top (ls ++ gs))) = top (ls ++ gs)
      omega
    rw [lowerLevels_eq hchain₁, hlevel']
  have hshape' : ({ s₁.delete g.addr with curLevel := top (ls ++ gs) } : SkipList T).shape =
      Function.update s.shape g.addr none := hshape ▸ shape_delete
  obtain ⟨hheadShape, hothers⟩ := h.others hold hfresh hshape' hhead hmax
  refine ⟨{ s₁.delete g.addr with curLevel := top (ls ++ gs) }, ?_, rfl, hmax, hheadShape, hothers,
    ?_, ?_, ?_, ?_, ?_⟩
  · rw [erase, h.search hls hgs]
    simp [hdata, hgs g (by simp), hg, hunlink, hlower]
  · show (s₁.head :: (ls ++ gs).map (·.addr)).Nodup
    rw [hhead]
    exact hnodup
  · intro j hj
    show Linked ((s₁.delete g.addr).nextAt j) s₁.head (levelAddrs (ls ++ gs) j)
    rw [hhead]
    exact hchain j (hmax ▸ hj)
  · exact fun e he => height_le_top he
  · show top (ls ++ gs) < s₁.maxLevel
    omega
  · have hfuel := h.fuel
    show (ls ++ gs).length < s₁.made
    simp only [List.length_append, List.length_cons] at hfuel ⊢
    omega

/-! ## clear -/

/-- The loop of `clear` changes only nodes of the chain. -/
theorem deleteNodes_spec {l : List Nat} {p : Nat} (hchain : Linked (s.nextAt 0) p l)
    (hnodup : l.Nodup) (hfuel : l.length < fuel) :
    ∃ s', deleteNodes fuel l.head? s = .ok s' ∧ s'.frame = s.frame ∧
      ∀ a, a ∉ l → s'.heap a = s.heap a := by
  induction fuel generalizing l p s with
  | zero => omega
  | succ fuel ih =>
    cases l with
    | nil => exact ⟨s, rfl, rfl, fun _ _ => rfl⟩
    | cons a l =>
      obtain ⟨ha, hnodup⟩ := List.nodup_cons.1 hnodup
      have hnext : s.next a 0 = .ok l.head? := next_eq_ok.2 hchain.2.head
      have hkeep : ∀ b, b ≠ a → (s.delete a).heap b = s.heap b := fun b hb =>
        Function.update_of_ne hb ..
      cases l with
      | nil =>
        refine ⟨s.delete a, ?_, rfl, fun b hb => hkeep b (by simpa using hb)⟩
        simp [deleteNodes, hnext]
      | cons b l =>
        have hrest : Linked ((s.delete a).nextAt 0) b l := by
          rw [nextAt_delete]
          exact hchain.2.2.update ha none
        have hnext' : (s.delete a).next b 0 = .ok l.head? := next_eq_ok.2 hrest.head
        obtain ⟨s', hdelete, hframe, hheap⟩ := ih hrest (List.nodup_cons.1 hnodup).2
          (by simp only [List.length_cons] at hfuel; omega)
        refine ⟨s', ?_, hframe, ?_⟩
        · simp [deleteNodes, hnext, hnext', hdelete]
        · intro c hc
          simp only [List.mem_cons, not_or] at hc
          rw [hheap c hc.2.2, hkeep c hc.1]

/-- All pointers of the head up to a level are reset, and nothing else. -/
theorem resetHead_spec (hhead : ∀ i < n, s.nextAt i s.head ≠ none) :
    ∃ s', resetHead n s = .ok s' ∧ s'.shape = s.shape ∧ s'.frame = s.frame ∧
      (∀ i < n, s'.nextAt i s.head = some none) ∧ ∀ i, n ≤ i → s'.nextAt i = s.nextAt i := by
  induction n with
  | zero => exact ⟨s, rfl, rfl, rfl, by simp, fun _ _ => rfl⟩
  | succ n ih =>
    obtain ⟨s₁, hreset, hshape, hframe, hnull, hthere⟩ := ih fun i hi => hhead i (by omega)
    obtain ⟨hhead₁, -, -, -⟩ := frame_eq hframe
    have hhas : s₁.nextAt n s₁.head ≠ none := by
      rw [hthere n le_rfl, hhead₁]
      exact hhead n (by omega)
    obtain ⟨s₂, hset, hlink⟩ := setNext_spec hhas none
    refine ⟨s₂, ?_, hlink.shape.trans hshape, hlink.frame.trans hframe, ?_, ?_⟩
    · rw [resetHead, hreset, Fallible.ok_bind, hset]
    · intro i hi
      by_cases heq : i = n
      · subst heq
        rw [hlink.here, hhead₁, Function.update_self]
      · rw [hlink.there i heq]
        exact hnull i (by omega)
    · intro i hi
      rw [hlink.there i (by omega), hthere i (by omega)]

/-- `clear` takes all entries out, and leaves the current level. -/
theorem clear_spec (h : s.Represents es) :
    ∃ s', s.clear = .ok s' ∧ s'.curLevel = s.curLevel ∧ s'.maxLevel = s.maxLevel ∧
      s'.Represents [] := by
  have hchain := h.chain 0 (Nat.zero_le _)
  rw [levelAddrs_zero] at hchain
  obtain ⟨hnothead, hnodup⟩ := List.nodup_cons.1 h.nodup
  have hfuel := h.fuel
  have hlength : (es.map (·.addr)).length < s.made + 1 := by
    rw [List.length_map]
    omega
  obtain ⟨s₁, hdelete, hframe, hheap⟩ := deleteNodes_spec hchain hnodup hlength
  obtain ⟨hhead, hcur, hmax, hmade⟩ := frame_eq hframe
  have hsame : s₁.heap s₁.head = s.heap s.head := by rw [hhead, hheap s.head hnothead]
  obtain ⟨d, hd⟩ := h.head
  have hshape₁ : s₁.shape s₁.head = some (d, s₁.maxLevel + 1) := by
    rw [hmax, ← hd, shape, shape, hsame]
  obtain ⟨s₂, hreset, hshape₂, hframe₂, hnull, -⟩ := resetHead_spec fun i hi =>
    nextAt_ne_none hshape₁ hi
  obtain ⟨hhead₂, hcur₂, hmax₂, hmade₂⟩ := frame_eq hframe₂
  have hnext : s.next s.head 0 = .ok (es.map (·.addr)).head? := next_eq_ok.2 hchain.head
  have hlevel := h.level
  refine ⟨s₂, ?_, hcur₂.trans hcur, hmax₂.trans hmax, ?_⟩
  · rw [clear, hnext, Fallible.ok_bind, hdelete, Fallible.ok_bind, hreset]
  · refine ⟨⟨d, ?_⟩, by simp, by simp, ?_, by simp, by omega, ?_⟩
    · rw [hshape₂, hhead₂, hmax₂, hshape₁]
    · intro i hi
      show s₂.nextAt i s₂.head = some none
      rw [hhead₂]
      exact hnull i (by omega)
    · show 0 < s₂.made
      omega

end SkipList

end Common
end CCraft
