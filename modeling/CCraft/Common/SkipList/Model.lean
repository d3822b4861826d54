import CCraft.Lib.Chains
import CCraft.Lib.Fallible

/-!
# The skip list

`skip_list` keeps its elements in nodes that are linked on several levels.  A node has a height
and one pointer `Next[i]` for each level up to it.  `insert` and `erase` look for the last smaller
node on every level from `m_iCurLevel` down, and keep it in the array `targetPrev`, which has
`m_iMaxLevel` places.  For a node that is higher than the current level `insert` then sets
`targetPrev` to the head, from the current level on.

The nodes are in a heap by their addresses, and a deleted node is not there any more.  Every
access can fault: an index of `targetPrev` beyond its length, a level above the height of a node,
a node that is deleted, a place of `targetPrev` that has not been set.  A search that has made more
steps than nodes have ever been made goes round in a circle, and does not end.  The height of a
new node and its address are part of the operation.

Main results:

- Theorem {lit}`setNext_spec`: what a change of one pointer leaves alone.
- Theorem {lit}`advance_eq`: where the inner loop of the searches stops on a chain.
-/

namespace CCraft
namespace Common

open Chains

/-! ## Nodes -/

/-- What can go wrong. -/
inductive SkipFault where
  | targetPrevIndex
  | nextIndex
  | freed
  | unset
  | endless
deriving DecidableEq, Repr

/-- `Node`: the data, and `Next` from level 0 up to the height. -/
structure SkipNode (T : Type) where
  data : T
  next : List (Option Nat)

/-- `skip_list`: the nodes by address, `m_pHead`, `m_iCurLevel` and `m_iMaxLevel`, and the number
of the nodes that have been made. -/
structure SkipList (T : Type) where
  heap : Nat → Option (SkipNode T)
  head : Nat
  curLevel : Nat
  maxLevel : Nat
  made : Nat

/-- `Node *targetPrev[m_iMaxLevel]`, with the places that have been set. -/
abbrev TargetPrev := Nat → Option Nat

namespace SkipList

variable {T : Type}

/-- The node at an address. -/
def node (s : SkipList T) (p : Nat) : Except SkipFault (SkipNode T) :=
  match s.heap p with
  | none => .error .freed
  | some n => .ok n

/-- `p->Next[i]`. -/
def next (s : SkipList T) (p i : Nat) : Except SkipFault (Option Nat) :=
  s.node p >>= fun n =>
    match n.next[i]? with
    | none => .error .nextIndex
    | some q => .ok q

/-- `p->Next[i] = q`. -/
def setNext (s : SkipList T) (p i : Nat) (q : Option Nat) : Except SkipFault (SkipList T) :=
  s.node p >>= fun n =>
    if i < n.next.length then
      .ok { s with heap := Function.update s.heap p (some { n with next := n.next.set i q }) }
    else .error .nextIndex

/-- `p->Data`. -/
def data (s : SkipList T) (p : Nat) : Except SkipFault T :=
  s.node p >>= fun n => .ok n.data

/-- `p->Data = t`. -/
def setData (s : SkipList T) (p : Nat) (t : T) : Except SkipFault (SkipList T) :=
  s.node p >>= fun n => .ok { s with heap := Function.update s.heap p (some { n with data := t }) }

/-- `create_node`, with all pointers null. -/
def createNode (s : SkipList T) (addr level : Nat) (t : T) : SkipList T :=
  { s with
    heap := Function.update s.heap addr (some ⟨t, List.replicate (level + 1) none⟩)
    made := s.made + 1 }

/-- `delete q`. -/
def delete (s : SkipList T) (q : Nat) : SkipList T :=
  { s with heap := Function.update s.heap q none }

/-- `targetPrev[i]`. -/
def prev (s : SkipList T) (tp : TargetPrev) (i : Nat) : Except SkipFault Nat :=
  if i < s.maxLevel then
    match tp i with
    | none => .error .unset
    | some p => .ok p
  else .error .targetPrevIndex

/-- `targetPrev[i] = p`. -/
def setPrev (s : SkipList T) (tp : TargetPrev) (i p : Nat) : Except SkipFault TargetPrev :=
  if i < s.maxLevel then .ok (Function.update tp i (some p)) else .error .targetPrevIndex

/-! ## The constructors -/

/-- `SKIPLIST_DEFAULT_LEVEL`. -/
def defaultLevel : Nat := 15

/-- `m_iMaxLevel` after `init`: every value below `SKIPLIST_MAX_LEVEL` is replaced by
`SKIPLIST_MIN_LEVEL`. -/
def initMaxLevel (maxLevel : Nat) : Nat :=
  if maxLevel < 31 then 3 else maxLevel

/-- `init`, with the head at address 0. -/
def init [Inhabited T] (maxLevel : Nat) : SkipList T :=
  ⟨fun p => if p = 0 then some ⟨default, List.replicate (initMaxLevel maxLevel + 1) none⟩ else none,
    0, 0, initMaxLevel maxLevel, 1⟩

/-- The constructors, for a maximum level from 1 to 32 and without one. -/
def new [Inhabited T] : Option (Fin 32) → SkipList T
  | none => init defaultLevel
  | some k => init ((k.val + 1) - 1)

/-! ## The searches -/

variable (cmp : T → T → Bool)

/-- The inner loop of the searches, `while ((q = p->Next[i]) && m_cmp(q->Data, t)) p = q`, with
`p` and `q` at its end. -/
def advance (s : SkipList T) (t : T) (i : Nat) : Nat → Nat → Except SkipFault (Nat × Option Nat)
  | 0, _ => .error .endless
  | fuel + 1, p =>
    s.next p i >>= fun q =>
      match q with
      | none => .ok (p, none)
      | some q =>
        s.data q >>= fun d => if cmp d t then advance s t i fuel q else .ok (p, some q)

/-- `find_previous_levels_nodes` from a level down; the first argument is the number of levels
that are left. -/
def findPrevious (s : SkipList T) (t : T) : Nat → Nat → TargetPrev → Except SkipFault TargetPrev
  | 0, _, tp => .ok tp
  | i + 1, p, tp =>
    s.advance cmp t i (s.made + 1) p >>= fun r =>
      s.setPrev tp i r.1 >>= fun tp => findPrevious s t i r.1 tp

/-- `find_previous_levels_nodes`. -/
def findPreviousLevelsNodes (s : SkipList T) (t : T) : Except SkipFault TargetPrev :=
  s.findPrevious cmp t (s.curLevel + 1) s.head fun _ => none

/-- `find_node` from a level down. -/
def findFrom (s : SkipList T) (t : T) : Nat → Nat → Except SkipFault (Option Nat)
  | 0, _ => .ok none
  | i + 1, p =>
    s.advance cmp t i (s.made + 1) p >>= fun r =>
      match r.2 with
      | none => findFrom s t i r.1
      | some q =>
        s.data q >>= fun d => if cmp t d then findFrom s t i r.1 else .ok (some q)

/-- `find_node`. -/
def findNode (s : SkipList T) (t : T) : Except SkipFault (Option Nat) :=
  s.findFrom cmp t (s.curLevel + 1) s.head

/-- `get`, with nothing for the pair of false and a default. -/
def get (s : SkipList T) (t : T) : Except SkipFault (Option T) :=
  s.findNode cmp t >>= fun q =>
    match q with
    | none => .ok none
    | some q => s.data q >>= fun d => .ok (some d)

/-- `contains`. -/
def contains (s : SkipList T) (t : T) : Except SkipFault Bool :=
  s.findNode cmp t >>= fun q => .ok q.isSome

/-- The data from a node on, as an iterator goes through them. -/
def iterateFrom (s : SkipList T) : Nat → Option Nat → Except SkipFault (List T)
  | _, none => .ok []
  | 0, some _ => .error .endless
  | fuel + 1, some q =>
    s.data q >>= fun d => s.next q 0 >>= fun q' =>
      iterateFrom s fuel q' >>= fun ds => .ok (d :: ds)

/-- The data from `begin()` to `end()`. -/
def iterate (s : SkipList T) : Except SkipFault (List T) :=
  s.next s.head 0 >>= fun q => s.iterateFrom (s.made + 1) q

/-! ## The operations -/

/-- `targetPrev[i] = m_pHead` for the given number of levels from the current one on. -/
def raisePrev (s : SkipList T) (tp : TargetPrev) : Nat → Except SkipFault TargetPrev
  | 0 => .ok tp
  | n + 1 => raisePrev s tp n >>= fun tp => s.setPrev tp (s.curLevel + n) s.head

/-- The new node is linked in on one level. -/
def linkLevel (s : SkipList T) (tp : TargetPrev) (addr i : Nat) : Except SkipFault (SkipList T) :=
  s.prev tp i >>= fun p => s.next p i >>= fun q =>
    s.setNext addr i q >>= fun s => s.setNext p i (some addr)

/-- The new node is linked in on the given number of levels, from level 0 on. -/
def linkLevels (s : SkipList T) (tp : TargetPrev) (addr : Nat) : Nat → Except SkipFault (SkipList T)
  | 0 => .ok s
  | n + 1 => linkLevels s tp addr n >>= fun s => s.linkLevel tp addr n

/-- The rest of `insert` for an element that is not there yet. -/
def insertNew (s : SkipList T) (tp : TargetPrev) (t : T) (level addr : Nat) :
    Except SkipFault (SkipList T) :=
  if s.curLevel < level then
    s.raisePrev tp (level - s.curLevel + 1) >>= fun tp =>
      linkLevels (createNode { s with curLevel := level } addr level t) tp addr (level + 1)
  else linkLevels (s.createNode addr level t) tp addr (level + 1)

/-- `insert`, with the result of `rand_level` and the address of a new node. -/
def insert (s : SkipList T) (t : T) (level addr : Nat) : Except SkipFault (SkipList T) :=
  s.findPreviousLevelsNodes cmp t >>= fun tp =>
    s.prev tp 0 >>= fun p => s.next p 0 >>= fun q =>
      match q with
      | none => s.insertNew tp t level addr
      | some q =>
        s.data q >>= fun d =>
          if !cmp d t && !cmp t d then s.setData q t else s.insertNew tp t level addr

/-- The unlinking of a node, from a level on for a number of levels, until a level where it is
not behind `targetPrev[i]`. -/
def unlinkLevels (tp : TargetPrev) (q : Nat) :
    Nat → Nat → SkipList T → Except SkipFault (SkipList T)
  | 0, _, s => .ok s
  | n + 1, i, s =>
    s.prev tp i >>= fun p => s.next p i >>= fun r =>
      if r = some q then
        s.next q i >>= fun r => s.setNext p i r >>= fun s => unlinkLevels tp q n (i + 1) s
      else .ok s

/-- `--m_iCurLevel` for every level without nodes, from a level down to level 1. -/
def lowerLevels : Nat → SkipList T → Except SkipFault (SkipList T)
  | 0, s => .ok s
  | i + 1, s =>
    s.next s.head (i + 1) >>= fun q =>
      lowerLevels i (if q = none then { s with curLevel := s.curLevel - 1 } else s)

/-- `erase`, with what it returns. -/
def erase (s : SkipList T) (t : T) : Except SkipFault (Bool × SkipList T) :=
  s.findPreviousLevelsNodes cmp t >>= fun tp =>
    s.prev tp 0 >>= fun p => s.next p 0 >>= fun q =>
      match q with
      | none => .ok (false, s)
      | some q =>
        s.data q >>= fun d =>
          if cmp d t || cmp t d then .ok (false, s)
          else
            unlinkLevels tp q (s.curLevel + 1) 0 s >>= fun s =>
              lowerLevels s.curLevel (s.delete q) >>= fun s => .ok (true, s)

/-- The loop of `clear`: every second node is deleted. -/
def deleteNodes : Nat → Option Nat → SkipList T → Except SkipFault (SkipList T)
  | _, none, s => .ok s
  | 0, some _, _ => .error .endless
  | fuel + 1, some q, s =>
    s.next q 0 >>= fun p =>
      match p with
      | none => .ok (s.delete q)
      | some p => (s.delete q).next p 0 >>= fun q' => deleteNodes fuel q' (s.delete q)

/-- `m_pHead->Next[i] = nullptr` for the given number of levels. -/
def resetHead : Nat → SkipList T → Except SkipFault (SkipList T)
  | 0, s => .ok s
  | n + 1, s => resetHead n s >>= fun s => s.setNext s.head n none

/-- `clear`. -/
def clear (s : SkipList T) : Except SkipFault (SkipList T) :=
  s.next s.head 0 >>= fun q =>
    deleteNodes (s.made + 1) q s >>= fun s => resetHead (s.maxLevel + 1) s

/-! ## Pointers and data of the nodes -/

/-- The pointers of one level, where a node has one. -/
def nextAt (s : SkipList T) (i p : Nat) : Option (Option Nat) :=
  (s.heap p).bind fun n => n.next[i]?

/-- The data and the number of pointers of a node. -/
def shape (s : SkipList T) (p : Nat) : Option (T × Nat) :=
  (s.heap p).map fun n => (n.data, n.next.length)

/-- The members apart from the nodes. -/
def frame (s : SkipList T) : Nat × Nat × Nat × Nat :=
  (s.head, s.curLevel, s.maxLevel, s.made)

variable {s s' : SkipList T} {p i fuel k : Nat} {q : Option Nat} {d t : T}

theorem next_eq_ok : s.next p i = .ok q ↔ s.nextAt i p = some q := by
  unfold next nextAt node
  cases s.heap p with
  | none => simp
  | some n =>
    cases hn : n.next[i]? with
    | none | some => simp [hn]

theorem data_eq_ok (h : s.shape p = some (d, k)) : s.data p = .ok d := by
  obtain ⟨n, hn, heq⟩ := Option.map_eq_some_iff.1 h
  cases heq
  simp [data, node, hn]

/-- A node has a pointer on the levels up to its height. -/
theorem nextAt_ne_none (h : s.shape p = some (d, k)) (hi : i < k) : s.nextAt i p ≠ none := by
  obtain ⟨n, hn, heq⟩ := Option.map_eq_some_iff.1 h
  cases heq
  simp [nextAt, hn, List.getElem?_eq_getElem hi]

/-- The second list has one other pointer. -/
structure Relinked (s : SkipList T) (p i : Nat) (q : Option Nat) (s' : SkipList T) : Prop where
  shape : s'.shape = s.shape
  here : s'.nextAt i = Function.update (s.nextAt i) p (some q)
  there : ∀ j, j ≠ i → s'.nextAt j = s.nextAt j
  frame : s'.frame = s.frame

/-- A pointer that the node has is changed, and nothing else. -/
theorem setNext_spec (h : s.nextAt i p ≠ none) (q : Option Nat) :
    ∃ s', s.setNext p i q = .ok s' ∧ s.Relinked p i q s' := by
  cases hn : s.heap p with
  | none => simp [nextAt, hn] at h
  | some n =>
    have hi : i < n.next.length := by simpa [nextAt, hn] using h
    refine ⟨{ s with heap := Function.update s.heap p (some { n with next := n.next.set i q }) },
      by simp [setNext, node, hn, hi], ?_, ?_, ?_, rfl⟩
    · funext a
      by_cases ha : a = p
      · subst ha
        simp [shape, hn]
      · simp [shape, Function.update_of_ne ha]
    · funext a
      by_cases ha : a = p
      · subst ha
        simp [nextAt, hi]
      · simp [nextAt, Function.update_of_ne ha]
    · intro j hj
      funext a
      by_cases ha : a = p
      · subst ha
        simp [nextAt, hn, List.getElem?_set_ne (Ne.symm hj)]
      · simp [nextAt, Function.update_of_ne ha]

/-! ## The inner loop of the searches -/

/-- The loop goes behind the smaller nodes of the chain and stops at the next one. -/
theorem advance_eq {l₁ l₂ : List Nat} (hchain : Linked (s.nextAt i) p (l₁ ++ l₂))
    (hsmall : ∀ a ∈ l₁, ∃ d k, s.shape a = some (d, k) ∧ cmp d t = true)
    (hstop : ∀ a ∈ l₂.head?, ∃ d k, s.shape a = some (d, k) ∧ cmp d t = false)
    (hfuel : l₁.length < fuel) :
    s.advance cmp t i fuel p = .ok (l₁.getLastD p, l₂.head?) := by
  induction l₁ generalizing p fuel with
  | nil =>
    obtain ⟨fuel, rfl⟩ : ∃ n, fuel = n + 1 := ⟨fuel - 1, by simp at hfuel; omega⟩
    have hnext : s.next p i = .ok l₂.head? := next_eq_ok.2 hchain.head
    cases hhead : l₂.head? with
    | none => simp [advance, hnext, hhead]
    | some q =>
      obtain ⟨d, k, hshape, hcmp⟩ := hstop q hhead
      simp [advance, hnext, hhead, data_eq_ok hshape, hcmp]
  | cons a l₁ ih =>
    obtain ⟨fuel, rfl⟩ : ∃ n, fuel = n + 1 := ⟨fuel - 1, by simp at hfuel; omega⟩
    have hnext : s.next p i = .ok (some a) := next_eq_ok.2 hchain.1
    obtain ⟨d, k, hshape, hcmp⟩ := hsmall a (by simp)
    have hrest := ih hchain.2 (fun b hb => hsmall b (by simp [hb]))
      (by simpa using Nat.lt_of_succ_lt_succ hfuel)
    rw [List.getLastD_cons, ← hrest]
    simp [advance, hnext, data_eq_ok hshape, hcmp]

end SkipList

end Common
end CCraft
