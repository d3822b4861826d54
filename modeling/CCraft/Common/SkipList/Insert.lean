import CCraft.Common.SkipList.Search

/-!
# Inserting into the skip list

What {lit}`insert` does to the chains of a list that is described by sorted entries.  An element
that is equivalent to one of them replaces its data.  Otherwise a new node is linked in on the
levels up to its height, on each level behind the node that `targetPrev` has for it.  From the
current level on that is the head when the new node is higher, also where there are smaller nodes
on the current level.

Main results:

- Theorem {lit}`insert_of_equivalent`: the data of an equivalent entry is replaced.
- Theorem {lit}`insertNew_spec`: where a new node is linked in on each level.
- Theorem {lit}`insert_of_greater`: the new entry comes behind the smaller ones, if a node that is
  higher than the current level has no smaller nodes on that level.
- Theorem {lit}`insert_beyond`: a node of the maximum level does not fit into `targetPrev`.
-/

namespace CCraft
namespace Common
namespace SkipList

open Chains WeakOrder SkipEntry

variable {T : Type} {s s' : SkipList T} {es ls gs : List (SkipEntry T)} {g : SkipEntry T} {t : T}
  {n i addr level : Nat} {tp : TargetPrev} {cmp : T → T → Bool}

/-! ## Changes of the nodes -/

theorem nextAt_createNode : (s.createNode addr level t).nextAt i =
    Function.update (s.nextAt i) addr (if i ≤ level then some none else none) := by
  funext a
  by_cases ha : a = addr
  · subst ha
    by_cases hi : i ≤ level
    · simp [nextAt, createNode, hi, Nat.lt_succ_of_le hi]
    · simp [nextAt, createNode, hi]
  · simp [nextAt, createNode, Function.update_of_ne ha]

theorem shape_createNode :
    (s.createNode addr level t).shape = Function.update s.shape addr (some (t, level + 1)) := by
  funext a
  by_cases ha : a = addr
  · subst ha
    simp [shape, createNode]
  · simp [shape, createNode, Function.update_of_ne ha]

theorem frame_eq (h : s'.frame = s.frame) :
    s'.head = s.head ∧ s'.curLevel = s.curLevel ∧ s'.maxLevel = s.maxLevel ∧ s'.made = s.made := by
  simpa [frame] using h

/-- The data of a node is changed, and nothing else. -/
theorem setData_spec {d : T} {p k : Nat} (h : s.shape p = some (d, k)) (t : T) :
    ∃ s', s.setData p t = .ok s' ∧ s'.shape = Function.update s.shape p (some (t, k)) ∧
      s'.nextAt = s.nextAt ∧ s'.frame = s.frame := by
  obtain ⟨n, hn, heq⟩ := Option.map_eq_some_iff.1 h
  cases heq
  refine ⟨{ s with heap := Function.update s.heap p (some { n with data := t }) },
    by simp [setData, node, hn], ?_, ?_, rfl⟩
  · funext a
    by_cases ha : a = p
    · subst ha
      simp [shape]
    · simp [shape, Function.update_of_ne ha]
  · funext i a
    by_cases ha : a = p
    · subst ha
      simp [nextAt, hn]
    · simp [nextAt, Function.update_of_ne ha]

/-! ## Linking a node in -/

/-- The second list has the node linked in on the first levels, each time between two parts of the
chain. -/
structure LinkedIn (s : SkipList T) (front back : Nat → List Nat) (addr n : Nat)
    (s' : SkipList T) : Prop where
  shape : s'.shape = s.shape
  frame : s'.frame = s.frame
  here : ∀ i < n, Linked (s'.nextAt i) s.head (front i ++ addr :: back i)
  there : ∀ i, n ≤ i → s'.nextAt i = s.nextAt i

/-- One level of the loop in `insert`. -/
theorem linkLevel_spec {front back : List Nat} (hi : i < s.maxLevel)
    (htp : tp i = some (front.getLastD s.head))
    (hchain : Linked (s.nextAt i) s.head (front ++ back))
    (hnodup : (s.head :: (front ++ back)).Nodup) (hfresh : addr ∉ s.head :: (front ++ back))
    (haddr : s.nextAt i addr ≠ none) :
    ∃ s', s.linkLevel tp addr i = .ok s' ∧ s'.shape = s.shape ∧ s'.frame = s.frame ∧
      Linked (s'.nextAt i) s.head (front ++ addr :: back) ∧
      ∀ j, j ≠ i → s'.nextAt j = s.nextAt j := by
  have hlast : s.nextAt i (front.getLastD s.head) = some back.head? := hchain.right.head
  have hne : front.getLastD s.head ≠ addr := by
    rintro rfl
    exact hfresh (List.mem_append_left back (getLastD_mem s.head front))
  obtain ⟨s₁, hset₁, hlink₁⟩ := setNext_spec haddr back.head?
  have hlast₁ : s₁.nextAt i (front.getLastD s.head) ≠ none := by
    rw [hlink₁.here, Function.update_of_ne hne, hlast]
    simp
  obtain ⟨s₂, hset₂, hlink₂⟩ := setNext_spec hlast₁ (some addr)
  refine ⟨s₂, ?_, hlink₂.shape.trans hlink₁.shape, hlink₂.frame.trans hlink₁.frame, ?_, ?_⟩
  · rw [linkLevel, prev, if_pos hi, htp]
    simp only [Fallible.ok_bind, next_eq_ok.2 hlast, hset₁, hset₂]
  · rw [hlink₂.here, hlink₁.here]
    exact hchain.insert hnodup hfresh
  · intro j hj
    rw [hlink₂.there j hj, hlink₁.there j hj]

/-- The loop in `insert`. -/
theorem linkLevels_spec {front back : Nat → List Nat} (hn : n ≤ s.maxLevel)
    (htp : ∀ i < n, tp i = some ((front i).getLastD s.head))
    (hchain : ∀ i < n, Linked (s.nextAt i) s.head (front i ++ back i))
    (hnodup : ∀ i < n, (s.head :: (front i ++ back i)).Nodup)
    (hfresh : ∀ i < n, addr ∉ s.head :: (front i ++ back i))
    (haddr : ∀ i < n, s.nextAt i addr ≠ none) :
    ∃ s', s.linkLevels tp addr n = .ok s' ∧ s.LinkedIn front back addr n s' := by
  induction n with
  | zero => exact ⟨s, rfl, rfl, rfl, by simp, fun _ _ => rfl⟩
  | succ n ih =>
    obtain ⟨s₁, hlink₁, hin⟩ := ih (by omega) (fun i hi => htp i (by omega))
      (fun i hi => hchain i (by omega)) (fun i hi => hnodup i (by omega))
      (fun i hi => hfresh i (by omega)) fun i hi => haddr i (by omega)
    have hhead : s₁.head = s.head := congrArg Prod.fst hin.frame
    have hmax : s₁.maxLevel = s.maxLevel := congrArg (·.2.2.1) hin.frame
    have hsame := hin.there n le_rfl
    obtain ⟨s₂, hlink₂, hshape, hframe, hhere, hthere⟩ := linkLevel_spec (s := s₁)
      (by omega) (hhead ▸ htp n (by omega)) (by rw [hsame, hhead]; exact hchain n (by omega))
      (by rw [hhead]; exact hnodup n (by omega)) (by rw [hhead]; exact hfresh n (by omega))
      (by rw [hsame]; exact haddr n (by omega))
    refine ⟨s₂, ?_, hshape.trans hin.shape, hframe.trans hin.frame, ?_, ?_⟩
    · rw [linkLevels, hlink₁, Fallible.ok_bind, hlink₂]
    · intro i hi
      by_cases heq : i = n
      · subst heq
        exact hhead ▸ hhere
      · rw [hthere i heq]
        exact hin.here i (by omega)
    · intro i hi
      rw [hthere i (by omega), hin.there i (by omega)]

/-! ## The levels of a new node -/

/-- `targetPrev` is set to the head from the current level on. -/
theorem raisePrev_eq (hn : s.curLevel + n ≤ s.maxLevel) :
    s.raisePrev tp n = .ok fun i =>
      if s.curLevel ≤ i ∧ i < s.curLevel + n then some s.head else tp i := by
  induction n with
  | zero =>
    have hnone : ∀ i, ¬ (s.curLevel ≤ i ∧ i < s.curLevel + 0) := fun i => by omega
    simp only [raisePrev, hnone, if_false]
  | succ n ih =>
    rw [raisePrev, ih (by omega), Fallible.ok_bind, setPrev, if_pos (by omega)]
    congr 1
    funext i
    by_cases heq : i = s.curLevel + n
    · subst heq
      simp
    · have hiff : (s.curLevel ≤ i ∧ i < s.curLevel + (n + 1)) ↔
          (s.curLevel ≤ i ∧ i < s.curLevel + n) := by omega
      simp only [Function.update_of_ne heq, hiff]

/-- The loop that sets `targetPrev` to the head goes beyond its end. -/
theorem raisePrev_beyond (hlevel : s.curLevel < s.maxLevel) (hn : s.maxLevel < s.curLevel + n) :
    s.raisePrev tp n = .error .targetPrevIndex := by
  induction n with
  | zero => omega
  | succ n ih =>
    by_cases hlast : s.maxLevel < s.curLevel + n
    · rw [raisePrev, ih hlast, Fallible.error_bind]
    · rw [raisePrev, raisePrev_eq (by omega), Fallible.ok_bind, setPrev, if_neg (by omega)]

/-- The nodes before the new one on a level. -/
def front (s : SkipList T) (ls : List (SkipEntry T)) (level i : Nat) : List Nat :=
  if s.curLevel < level ∧ s.curLevel ≤ i then [] else levelAddrs ls i

/-- The nodes behind the new one on a level. -/
def back (s : SkipList T) (ls gs : List (SkipEntry T)) (level i : Nat) : List Nat :=
  if s.curLevel < level ∧ s.curLevel ≤ i then levelAddrs (ls ++ gs) i else levelAddrs gs i

theorem front_append_back (s : SkipList T) (ls gs : List (SkipEntry T)) (level i : Nat) :
    s.front ls level i ++ s.back ls gs level i = levelAddrs (ls ++ gs) i := by
  unfold front back
  by_cases hraised : s.curLevel < level ∧ s.curLevel ≤ i
  · simp [hraised]
  · simp [hraised, levelAddrs_append]

/-- The addresses with one entry more are distinct if its address is another one. -/
theorem nodup_middle_iff {p : Nat} {e : SkipEntry T} :
    (p :: (ls ++ e :: gs).map (·.addr)).Nodup ↔
      e.addr ∉ p :: (ls ++ gs).map (·.addr) ∧ (p :: (ls ++ gs).map (·.addr)).Nodup := by
  have hperm : (p :: (ls ++ e :: gs).map (·.addr)).Perm
      (e.addr :: p :: (ls ++ gs).map (·.addr)) :=
    ((List.perm_middle.map _).cons p).trans (List.Perm.swap ..)
  rw [hperm.nodup_iff, List.nodup_cons]

/-- A change of one node leaves the head and the other entries. -/
theorem Represents.others {es' : List (SkipEntry T)} {a : Nat} {v : Option (T × Nat)}
    (h : s.Represents es') (hsub : ∀ e ∈ es, e ∈ es') (ha : a ∉ s.head :: es.map (·.addr))
    (hshape : s'.shape = Function.update s.shape a v) (hhead : s'.head = s.head)
    (hmax : s'.maxLevel = s.maxLevel) :
    (∃ d, s'.shape s'.head = some (d, s'.maxLevel + 1)) ∧
      ∀ e ∈ es, s'.shape e.addr = some (e.data, e.height + 1) := by
  have hkeep : ∀ b ∈ s.head :: es.map (·.addr), s'.shape b = s.shape b := by
    intro b hb
    have hne : b ≠ a := fun heq => ha (heq ▸ hb)
    rw [hshape, Function.update_of_ne hne]
  constructor
  · obtain ⟨d, hd⟩ := h.head
    exact ⟨d, by rw [hhead, hmax, hkeep _ List.mem_cons_self, hd]⟩
  · intro e he
    rw [hkeep _ (List.mem_cons_of_mem _ (List.mem_map_of_mem he)), h.entry e (hsub e he)]

/-- The addresses of live nodes are not free. -/
theorem Represents.free (h : s.Represents es) (hfree : s.heap addr = none) :
    addr ∉ s.head :: es.map (·.addr) := by
  have hnone : s.shape addr = none := by simp [SkipList.shape, hfree]
  intro hmem
  rcases List.mem_cons.1 hmem with rfl | hmem
  · obtain ⟨d, hd⟩ := h.head
    rw [hnone] at hd
    cases hd
  · obtain ⟨e, he, rfl⟩ := List.mem_map.1 hmem
    have hshape := h.entry e he
    rw [hnone] at hshape
    cases hshape

/-- The nodes of a level are distinct. -/
theorem Represents.nodup_level (h : s.Represents es) (i : Nat) :
    (s.head :: levelAddrs es i).Nodup :=
  h.nodup.sublist (List.Sublist.cons_cons _ levelAddrs_sublist)

/-- The list with the new node, before it is linked in. -/
def withNode (s : SkipList T) (t : T) (level addr : Nat) : SkipList T :=
  createNode { s with curLevel := max s.curLevel level } addr level t

theorem insertNew_eq (hlevel : level < s.maxLevel) :
    s.insertNew (s.found ls) t level addr =
      (s.withNode t level addr).linkLevels
        (fun i => if s.curLevel < level ∧ s.curLevel ≤ i ∧ i ≤ level then some s.head
          else s.found ls i) addr (level + 1) := by
  unfold insertNew withNode
  by_cases hraise : s.curLevel < level
  · have hprev : s.raisePrev (s.found ls) (level - s.curLevel + 1) = _ :=
      raisePrev_eq (by omega)
    have hiff : ∀ i, i < s.curLevel + (level - s.curLevel + 1) ↔ i ≤ level := by omega
    rw [if_pos hraise, hprev, Fallible.ok_bind, max_eq_right hraise.le]
    simp only [hraise, hiff, true_and]
  · rw [if_neg hraise, max_eq_left (by omega)]
    simp only [hraise, false_and, if_false]

/-- A new node is linked in on each level up to its height. -/
theorem insertNew_spec (h : s.Represents (ls ++ gs)) (hlevel : level < s.maxLevel)
    (hfree : s.heap addr = none) (t : T) :
    ∃ s', s.insertNew (s.found ls) t level addr = .ok s' ∧
      (s.withNode t level addr).LinkedIn (s.front ls level) (s.back ls gs level) addr
        (level + 1) s' := by
  rw [insertNew_eq hlevel]
  have hnext : ∀ i, (s.withNode t level addr).nextAt i =
      Function.update (s.nextAt i) addr (if i ≤ level then some none else none) :=
    fun i => nextAt_createNode
  have hfresh : ∀ i, addr ∉ s.head :: levelAddrs (ls ++ gs) i := fun i hmem =>
    h.free hfree (List.Sublist.mem hmem (List.Sublist.cons_cons _ levelAddrs_sublist))
  refine linkLevels_spec (s := s.withNode t level addr) hlevel ?_ ?_ ?_ ?_ ?_
  · intro i hi
    by_cases hraised : s.curLevel < level ∧ s.curLevel ≤ i
    · have : i ≤ level := by omega
      simp only [front, hraised, this, and_self, if_true]
      rfl
    · have hnot : ¬ (s.curLevel < level ∧ s.curLevel ≤ i ∧ i ≤ level) := by tauto
      have hcur : i ≤ s.curLevel := by omega
      simp only [front, hraised, hnot, if_false, found, hcur, if_true]
      rfl
  · intro i hi
    rw [front_append_back, hnext]
    exact (h.chain i (by omega)).update (hfresh i) _
  · intro i hi
    rw [front_append_back]
    exact h.nodup_level i
  · intro i hi
    rw [front_append_back]
    exact hfresh i
  · intro i hi
    rw [hnext, Function.update_self, if_pos (by omega)]
    simp

/-! ## The operation -/

/-- An equivalent element gets the new data. -/
theorem insert_of_equivalent (h : s.Represents (ls ++ g :: gs))
    (hls : ∀ e ∈ ls, cmp e.data t = true) (hgs : ∀ e ∈ g :: gs, cmp e.data t = false)
    (hg : cmp t g.data = false) :
    ∃ s', s.insert cmp t level addr = .ok s' ∧ s'.curLevel = s.curLevel ∧
      s'.maxLevel = s.maxLevel ∧ s'.Represents (ls ++ { g with data := t } :: gs) := by
  have hg' := h.entry g (by simp)
  obtain ⟨s', hset, hshape, hnext, hframe⟩ := setData_spec hg' t
  obtain ⟨hhead, hcur, hmax, hmade⟩ := frame_eq hframe
  have hold : ∀ e ∈ ls ++ gs, e ∈ ls ++ g :: gs := fun e he => mem_middle_iff.2 (.inr he)
  obtain ⟨hheadShape, hothers⟩ :=
    h.others hold (nodup_middle_iff.1 h.nodup).1 hshape hhead hmax
  refine ⟨s', ?_, hcur, hmax, hheadShape, ?_, ?_, ?_, ?_, ?_, ?_⟩
  · rw [insert, h.search hls hgs]
    simp [data_eq_ok hg', hgs g (by simp), hg, hset]
  · intro e he
    rcases mem_middle_iff.1 he with rfl | he
    · rw [hshape]
      exact Function.update_self ..
    · exact hothers e he
  · rw [hhead]
    simpa using h.nodup
  · intro i hi
    have hchain := h.chain i (hmax ▸ hi)
    rw [hnext, hhead, levelAddrs_append, levelAddrs_cons]
    rwa [levelAddrs_append, levelAddrs_cons] at hchain
  · intro e he
    rw [hcur]
    rcases mem_middle_iff.1 he with rfl | he
    · exact h.height g (by simp)
    · exact h.height e (hold e he)
  · rw [hcur, hmax]
    exact h.level
  · rw [hmade]
    simpa using h.fuel

variable [IsStrictWeakOrder T fun a b => cmp a b = true]

/-- An element that is not there yet is inserted behind the smaller ones. -/
theorem insert_eq (h : s.Represents (ls ++ gs)) (hls : ∀ e ∈ ls, cmp e.data t = true)
    (hgs : ∀ e ∈ gs, cmp t e.data = true) :
    s.insert cmp t level addr = s.insertNew (s.found ls) t level addr := by
  rw [insert, h.search hls fun e he => cmp_asymm (hgs e he)]
  cases gs with
  | nil => rfl
  | cons g gs =>
    have hdata := data_eq_ok (h.entry g (by simp))
    simp [hdata, hgs g (by simp)]

/-- A node of the maximum level does not fit into `targetPrev`. -/
theorem insert_beyond (h : s.Represents (ls ++ gs)) (hls : ∀ e ∈ ls, cmp e.data t = true)
    (hgs : ∀ e ∈ gs, cmp t e.data = true) (hlevel : s.maxLevel ≤ level) :
    s.insert cmp t level addr = .error .targetPrevIndex := by
  have hcur := h.level
  rw [insert_eq h hls hgs, insertNew, if_pos (by omega), raisePrev_beyond hcur (by omega),
    Fallible.error_bind]

/-- A new entry comes behind the smaller ones. -/
theorem insert_of_greater (h : s.Represents (ls ++ gs)) (hls : ∀ e ∈ ls, cmp e.data t = true)
    (hgs : ∀ e ∈ gs, cmp t e.data = true) (hlevel : level < s.maxLevel)
    (hfree : s.heap addr = none)
    (hraise : s.curLevel < level → levelAddrs ls s.curLevel = []) :
    ∃ s', s.insert cmp t level addr = .ok s' ∧ s'.curLevel = max s.curLevel level ∧
      s'.maxLevel = s.maxLevel ∧ s'.Represents (ls ++ ⟨addr, t, level⟩ :: gs) := by
  obtain ⟨s', hinsert, hin⟩ := insertNew_spec h hlevel hfree t
  obtain ⟨hhead, hcur, hmax, hmade⟩ := frame_eq hin.frame
  have hfresh := h.free hfree
  have hshape : s'.shape = Function.update s.shape addr (some (t, level + 1)) :=
    hin.shape.trans shape_createNode
  have hfront : ∀ i, s.front ls level i = levelAddrs ls i := by
    intro i
    by_cases hraised : s.curLevel < level ∧ s.curLevel ≤ i
    · rw [front, if_pos hraised, levelAddrs_eq_nil_of_le hraised.2 (hraise hraised.1)]
    · rw [front, if_neg hraised]
  have hback : ∀ i, s.back ls gs level i = levelAddrs gs i := by
    intro i
    have happend := s.front_append_back ls gs level i
    rw [hfront, levelAddrs_append] at happend
    exact List.append_cancel_left happend
  obtain ⟨hheadShape, hothers⟩ := h.others (fun e he => he) hfresh hshape hhead hmax
  refine ⟨s', insert_eq h hls hgs ▸ hinsert, hcur, hmax, hheadShape, ?_, ?_, ?_, ?_, ?_, ?_⟩
  · intro e he
    rcases mem_middle_iff.1 he with rfl | he
    · rw [hshape]
      exact Function.update_self ..
    · exact hothers e he
  · rw [hhead]
    exact nodup_middle_iff.2 ⟨hfresh, h.nodup⟩
  · intro i hi
    rw [hhead, levelAddrs_append, levelAddrs_cons]
    by_cases hon : i ≤ level
    · rw [if_pos hon, ← hfront i, ← hback i]
      exact hin.here i (Nat.lt_succ_of_le hon)
    · have hchain := h.chain i (hmax ▸ hi)
      rw [if_neg hon, ← levelAddrs_append, hin.there i (by omega)]
      refine nextAt_createNode ▸ hchain.update (fun hmem => hfresh ?_) _
      exact List.Sublist.mem hmem (List.Sublist.cons_cons _ levelAddrs_sublist)
  · intro e he
    rw [hcur]
    rcases mem_middle_iff.1 he with rfl | he
    · exact Nat.le_max_right ..
    · exact (h.height e he).trans (Nat.le_max_left ..)
  · show s'.curLevel < s'.maxLevel
    rw [hcur, hmax]
    exact Nat.max_lt.2 ⟨h.level, hlevel⟩
  · have hfuel := h.fuel
    have hmade' : s'.made = s.made + 1 := hmade
    simp only [List.length_append, List.length_cons] at hfuel ⊢
    omega

end SkipList

end Common
end CCraft
