import CCraft.Net.Handshake

/-!
# Handlers and their event workers

A handler can be found from the moment its end registers itself, in the middle of the
handshake, but `AddEvent` gives it an event worker only after the handshake and after
`SetNonBlocking`.  A thread that sends to the peer in between gets a handler whose worker is
null; `SendMessage` uses that worker without a look at it, and `Release` leaves out the
deletion without it.  `AddEvent` itself picks the worker by an index that it moves on under a
lock, with `++` and then `%=`, and reads again behind the lock.

The network is the one of the handshake, with the calls of `AddEvent` statement by statement
and the threads that send.  Whether `TryPush` finds an empty queue and whether `Release`
reads a counter of zero is left open, so both are part of the labels.

Main results:

- Theorem {lit}`attachStep_inv`: what relates the workers to the calls of `AddEvent`.
- Theorem {lit}`found_handler_attached_iff`: in a run no worker is missing exactly when every
  handler that a thread gets has been through `AddEvent`, and no call of `AddEvent` reads the
  index while it stands at the number of the workers.
-/

namespace CCraft
namespace Net

open Runs

/-! ## The network with its senders -/

/-- How far the call of `AddEvent` for a handler has come: it has not begun, it is between
the statements under the lock, it is to read the index, or it has set the worker. -/
inductive AddEventPc (Node : Type) where
  | before
  | counted (node : Node)
  | selected (node : Node)
  | done
deriving DecidableEq

/-- A thread in `SendMessage` with the handler it has got, before or behind `TryPush`. -/
structure SendingThread where
  handler : EndpointId
  pushed : Bool
deriving DecidableEq, Repr

/-- The network, `m_iCurWorkerIdx` of each node and whether `m_slSelectEvents` is taken, the
progress of `AddEvent` and `m_pOwnEvWorker` of each handler, and the threads that send. -/
structure AttachState (Node : Type) where
  net : Network Node
  curWorkerIdx : Node → Int
  slSelectEvents : Node → Bool
  addPc : EndpointId → AddEventPc Node
  ownEvWorker : EndpointId → Option Nat
  senders : List SendingThread

namespace AttachState

variable {Node : Type}

def start : AttachState Node :=
  ⟨.start, fun _ => -1, fun _ => false, fun _ => .before, fun _ => none, []⟩

/-- `GetWorkerEventHandlerWithRef`, without the reference. -/
def found (s : AttachState Node) (node : Node) (peer : NetPeerInfo) : Option EndpointId :=
  (s.net.managers node).lookupWorker peer

end AttachState

/-- `m_vConnsWorkerEventLoopCtxs[idx]`, nothing outside of the vector. -/
def connWorkerAt (connWorkersCnt : PNat) (idx : Int) : Option Nat :=
  if 0 ≤ idx ∧ idx < (connWorkersCnt : Nat) then some idx.toNat else none

/-- The steps: one of the network, the statements of `AddEvent`, and those of `SendMessage`:
the handler, `TryPush` with the use of the worker when the queue was empty, and `Release`
with its use when the counter has dropped to zero. -/
inductive AttachLabel (Node : Type) where
  | net (l : NetLabel Node)
  | count (id : EndpointId)
  | wrap (id : EndpointId)
  | attach (id : EndpointId)
  | getWorker (node : Node) (peer : NetPeerInfo)
  | push (k : Nat) (wakes : Bool)
  | release (k : Nat) (zero : Bool)
deriving DecidableEq

/-- A handler is finished by the loop of the worker that it has been added to. -/
def FinishedByWorker {Node : Type} (s : AttachState Node) : NetLabel Node → Bool
  | .finish id _ => (s.ownEvWorker id).isSome
  | _ => true

section Step

variable {Node : Type} [Fintype Node] [DecidableEq Node]

/-- One step. -/
def attachStep (site : Node → Site) (connWorkersCnt : Node → PNat) (s : AttachState Node) :
    AttachLabel Node → Option (AttachState Node)
  | .net l =>
    if FinishedByWorker s l then (netStep site s.net l).map fun n => { s with net := n }
    else none
  | .count id =>
    match s.net.view id with
    | none => none
    | some (node, e) =>
      if e.stage = .live ∧ s.addPc id = .before ∧ s.slSelectEvents node = false then
        some { s with
          slSelectEvents := Function.update s.slSelectEvents node true
          curWorkerIdx := Function.update s.curWorkerIdx node (s.curWorkerIdx node + 1)
          addPc := Function.update s.addPc id (.counted node) }
      else none
  | .wrap id =>
    match s.addPc id with
    | .counted node =>
      some { s with
        slSelectEvents := Function.update s.slSelectEvents node false
        curWorkerIdx := Function.update s.curWorkerIdx node
          (s.curWorkerIdx node % (connWorkersCnt node : Nat))
        addPc := Function.update s.addPc id (.selected node) }
    | _ => none
  | .attach id =>
    match s.addPc id with
    | .selected node =>
      some { s with
        ownEvWorker := Function.update s.ownEvWorker id
          (connWorkerAt (connWorkersCnt node) (s.curWorkerIdx node))
        addPc := Function.update s.addPc id .done }
    | _ => none
  | .getWorker node peer =>
    match s.found node peer with
    | some id => some { s with senders := s.senders ++ [⟨id, false⟩] }
    | none => some s
  | .push k _ =>
    match s.senders[k]? with
    | some ⟨id, false⟩ => some { s with senders := s.senders.set k ⟨id, true⟩ }
    | _ => none
  | .release k _ =>
    match s.senders[k]? with
    | some ⟨_, true⟩ => some { s with senders := s.senders.eraseIdx k }
    | _ => none

/-- A thread that sends, alone: it gets to `TryPush` exactly when `SendMessage` of the service
returns true, with the handler that `SendMessage` finds. -/
theorem getWorker_eq_serviceSend (site : Node → Site) (connWorkersCnt : Node → PNat)
    (s : AttachState Node) (node : Node) {peer : NetPeerInfo} (htcp : peer.sp = .tcp)
    (wakes : Bool) :
    ∃ s', attachStep site connWorkersCnt s (.getWorker node peer) = some s' ∧
      serviceSend false peer (s.found node peer) (fun id => (true, id)) =
        some ((attachStep site connWorkersCnt s' (.push s.senders.length wakes)).isSome,
          s'.senders[s.senders.length]?.map SendingThread.handler) := by
  cases hfound : s.found node peer with
  | none => exact ⟨s, by simp [attachStep, hfound], by simp [attachStep, serviceSend, htcp]⟩
  | some id =>
    exact ⟨{ s with senders := s.senders ++ [⟨id, false⟩] }, by simp [attachStep, hfound],
      by simp [attachStep, serviceSend, htcp]⟩

/-- The step uses no worker that is missing: a handler that is returned has one, and so have
the handlers that are woken up or queued for deletion, and `AddEvent` finds one. -/
def UsesWorker (connWorkersCnt : Node → PNat) (s : AttachState Node) : AttachLabel Node → Prop
  | .getWorker node peer => ∀ id, s.found node peer = some id → s.ownEvWorker id ≠ none
  | .push k wakes => wakes = true → ∀ c, s.senders[k]? = some c → s.ownEvWorker c.handler ≠ none
  | .release k zero => zero = true → ∀ c, s.senders[k]? = some c → s.ownEvWorker c.handler ≠ none
  | .attach id => ∀ node, s.addPc id = .selected node →
      connWorkerAt (connWorkersCnt node) (s.curWorkerIdx node) ≠ none
  | _ => True

/-- A handler that is returned has been through `AddEvent`, and `AddEvent` does not read the
index between the two statements that move it past the last worker and back. -/
def AfterAddEvent (connWorkersCnt : Node → PNat) (s : AttachState Node) :
    AttachLabel Node → Prop
  | .getWorker node peer => (s.found node peer).all (fun id => s.addPc id = .done) = true
  | .attach id => match s.addPc id with
      | .selected node => s.curWorkerIdx node ≠ (connWorkersCnt node : Nat)
      | _ => True
  | _ => True

instance (connWorkersCnt : Node → PNat) (s : AttachState Node) :
    ∀ a, Decidable (AfterAddEvent connWorkersCnt s a)
  | .attach id =>
    match h : s.addPc id with
    | .selected node =>
      decidable_of_iff (s.curWorkerIdx node ≠ (connWorkersCnt node : Nat))
        (by simp only [AfterAddEvent, h])
    | .before => isTrue (by simp only [AfterAddEvent, h])
    | .counted _ => isTrue (by simp only [AfterAddEvent, h])
    | .done => isTrue (by simp only [AfterAddEvent, h])
  | .getWorker node peer =>
    inferInstanceAs (Decidable ((s.found node peer).all (fun id => s.addPc id = .done) = true))
  | .net _ | .count _ | .wrap _ | .push _ _ | .release _ _ => isTrue trivial

end Step

/-! ## Workers and calls of `AddEvent` -/

section Invariant

variable {Node : Type} {cnt : Node → PNat} {s t : AttachState Node} {a : AttachLabel Node}

/-- A handler has a worker exactly when it has been through `AddEvent`, the threads that send
have such handlers, and the index is past the last worker only while the lock is taken. -/
structure AttachInv (cnt : Node → PNat) (s : AttachState Node) : Prop where
  attached : ∀ id, s.ownEvWorker id ≠ none ↔ s.addPc id = .done
  sending : ∀ c ∈ s.senders, s.ownEvWorker c.handler ≠ none
  ge : ∀ node, -1 ≤ s.curWorkerIdx node
  le : ∀ node, s.curWorkerIdx node ≤ (cnt node : Nat)
  unlocked : ∀ node, s.slSelectEvents node = false → s.curWorkerIdx node < (cnt node : Nat)
  selected : ∀ id node, s.addPc id = .selected node → 0 ≤ s.curWorkerIdx node

theorem start_attachInv : AttachInv cnt (.start : AttachState Node) := by
  have hpos : ∀ node, 0 < (cnt node : Nat) := fun node => (cnt node).pos
  refine ⟨?_, ?_, ?_, ?_, ?_, ?_⟩
  · intro id
    simp [AttachState.start]
  · simp [AttachState.start]
  · intro node
    exact le_refl (-1)
  · intro node
    have := hpos node
    simp only [AttachState.start]
    omega
  · intro node _
    have := hpos node
    simp only [AttachState.start]
    omega
  · nofun

theorem connWorkerAt_ne_none {n : PNat} {idx : Int} :
    connWorkerAt n idx ≠ none ↔ 0 ≤ idx ∧ idx < (n : Nat) := by
  simp [connWorkerAt]

/-- `AddEvent` sets a worker that exists. -/
theorem AttachInv.attach {id : EndpointId} {worker : Option Nat} (h : AttachInv cnt s)
    (hworker : worker ≠ none) :
    AttachInv cnt { s with
      ownEvWorker := Function.update s.ownEvWorker id worker
      addPc := Function.update s.addPc id .done } := by
  have hkeep : ∀ id', s.ownEvWorker id' ≠ none →
      Function.update s.ownEvWorker id worker id' ≠ none := by
    intro id' hid'
    rw [Function.update_apply]
    split_ifs
    · exact hworker
    · exact hid'
  refine ⟨?_, fun c hc => hkeep c.handler (h.sending c hc), h.ge, h.le, h.unlocked, ?_⟩ <;>
    simp only [Function.update_apply]
  · intro id'
    split_ifs
    · simp [hworker]
    · exact h.attached id'
  · intro id' x hx
    split_ifs at hx
    exact h.selected id' x hx

theorem AttachInv.setSenders {senders : List SendingThread} (h : AttachInv cnt s)
    (hsending : ∀ c ∈ senders, s.ownEvWorker c.handler ≠ none) :
    AttachInv cnt { s with senders := senders } :=
  ⟨h.attached, hsending, h.ge, h.le, h.unlocked, h.selected⟩

variable [DecidableEq Node]

/-- Under the invariant no worker is missing exactly when the handlers are found after
`AddEvent`. -/
theorem AttachInv.usesWorker_iff (h : AttachInv cnt s) :
    UsesWorker cnt s a ↔ AfterAddEvent cnt s a := by
  cases a with
  | net | count | wrap => exact Iff.rfl
  | attach id =>
    simp only [UsesWorker, AfterAddEvent, connWorkerAt_ne_none]
    cases hpc : s.addPc id with
    | before | counted | done => simp
    | selected node =>
      have hge := h.selected id node hpc
      have hle := h.le node
      constructor
      · intro hall
        have := hall node rfl
        omega
      · intro hne node' hnode
        cases hnode
        omega
  | getWorker node peer =>
    simp only [UsesWorker, AfterAddEvent, h.attached]
    cases s.found node peer <;> simp
  | push k wakes =>
    refine iff_of_true ?_ trivial
    intro _ c hc
    exact h.sending c (List.mem_of_getElem? hc)
  | release k zero =>
    refine iff_of_true ?_ trivial
    intro _ c hc
    exact h.sending c (List.mem_of_getElem? hc)

/-- The call of `AddEvent` for a handler goes on, and does not set the worker yet. -/
theorem AttachInv.advance {id : EndpointId} {node : Node} {idx : Int} {locked : Bool}
    {pc : AddEventPc Node} (h : AttachInv cnt s) (hbefore : s.addPc id ≠ .done)
    (hpc : pc ≠ .done) (hselected : ∀ x, pc = .selected x → x = node)
    (hge : 0 ≤ idx) (hle : idx ≤ (cnt node : Nat))
    (hunlocked : locked = false → idx < (cnt node : Nat)) :
    AttachInv cnt { s with
      slSelectEvents := Function.update s.slSelectEvents node locked
      curWorkerIdx := Function.update s.curWorkerIdx node idx
      addPc := Function.update s.addPc id pc } := by
  refine ⟨?_, h.sending, ?_, ?_, ?_, ?_⟩ <;> simp only [Function.update_apply]
  · intro id'
    split_ifs with hid
    · subst hid
      simp [h.attached, hbefore, hpc]
    · exact h.attached id'
  · intro x
    split_ifs
    · omega
    · exact h.ge x
  · intro x
    split_ifs with hx
    · rw [hx]
      exact hle
    · exact h.le x
  · intro x
    split_ifs with hx
    · rw [hx]
      exact hunlocked
    · exact h.unlocked x
  · intro id' x hx'
    split_ifs at hx' ⊢ with hx hid hid
    · exact hge
    · exact hge
    · exact absurd (hselected x hx') hx
    · exact h.selected id' x hx'

theorem AttachInv.count {id : EndpointId} {node : Node} (h : AttachInv cnt s)
    (hpc : s.addPc id = .before) (hfree : s.slSelectEvents node = false) :
    AttachInv cnt { s with
      slSelectEvents := Function.update s.slSelectEvents node true
      curWorkerIdx := Function.update s.curWorkerIdx node (s.curWorkerIdx node + 1)
      addPc := Function.update s.addPc id (.counted node) } := by
  have hge := h.ge node
  have hlt := h.unlocked node hfree
  refine h.advance (by simp [hpc]) (by simp) (by simp) (by omega) (by omega) (by simp)

theorem AttachInv.wrap {id : EndpointId} {node : Node} (h : AttachInv cnt s)
    (hpc : s.addPc id = .counted node) :
    AttachInv cnt { s with
      slSelectEvents := Function.update s.slSelectEvents node false
      curWorkerIdx := Function.update s.curWorkerIdx node
        (s.curWorkerIdx node % (cnt node : Nat))
      addPc := Function.update s.addPc id (.selected node) } := by
  have hpos : 0 < (cnt node : Nat) := (cnt node).pos
  have hge : 0 ≤ s.curWorkerIdx node % (cnt node : Nat) := Int.emod_nonneg _ (by omega)
  have hlt : s.curWorkerIdx node % (cnt node : Nat) < (cnt node : Nat) :=
    Int.emod_lt_of_pos _ (by omega)
  refine h.advance (by simp [hpc]) (by simp) ?_ hge (by omega) fun _ => hlt
  intro x hx
  cases hx
  rfl

variable [Fintype Node] {site : Node → Site}

/-- Every step that misses no worker keeps the invariant. -/
theorem attachStep_inv (h : AttachInv cnt s) (huses : UsesWorker cnt s a)
    (hstep : attachStep site cnt s a = some t) : AttachInv cnt t := by
  cases a with
  | net l =>
    obtain ⟨-, hmap⟩ := Option.ite_none_right_eq_some.1 hstep
    obtain ⟨n, -, rfl⟩ := Option.map_eq_some_iff.1 hmap
    exact ⟨h.attached, h.sending, h.ge, h.le, h.unlocked, h.selected⟩
  | count id =>
    simp only [attachStep] at hstep
    split at hstep
    · cases hstep
    · obtain ⟨⟨-, hpc, hfree⟩, ht⟩ := Option.ite_none_right_eq_some.1 hstep
      cases ht
      exact h.count hpc hfree
  | wrap id =>
    simp only [attachStep] at hstep
    split at hstep
    case h_1 node hpc =>
      cases hstep
      exact h.wrap hpc
    case h_2 => cases hstep
  | attach id =>
    simp only [attachStep] at hstep
    split at hstep
    case h_1 node hpc =>
      cases hstep
      exact h.attach (huses node hpc)
    case h_2 => cases hstep
  | getWorker node peer =>
    simp only [attachStep] at hstep
    split at hstep
    case h_1 id hfound =>
      cases hstep
      exact h.setSenders
        (List.forall_mem_append.2 ⟨h.sending, List.forall_mem_singleton.2 (huses id hfound)⟩)
    case h_2 =>
      cases hstep
      exact h
  | push k wakes =>
    simp only [attachStep] at hstep
    split at hstep
    case h_1 id hk =>
      cases hstep
      refine h.setSenders ?_
      intro c hc
      rcases List.mem_or_eq_of_mem_set hc with hc | rfl
      · exact h.sending c hc
      · exact h.sending ⟨id, false⟩ (List.mem_of_getElem? hk)
    case h_2 => cases hstep
  | release k zero =>
    simp only [attachStep] at hstep
    split at hstep
    case h_1 =>
      cases hstep
      exact h.setSenders fun c hc => h.sending c (List.mem_of_mem_eraseIdx hc)
    case h_2 => cases hstep

/-! ## Whole runs -/

/-- In a run no worker is missing exactly when every handler that a thread gets has been
through `AddEvent`, and no call of `AddEvent` reads the index past the last worker. -/
theorem found_handler_attached_iff (site : Node → Site) (cnt : Node → PNat)
    (labels : List (AttachLabel Node)) :
    Guarded (attachStep site cnt) (UsesWorker cnt) .start labels ↔
      Guarded (attachStep site cnt) (AfterAddEvent cnt) .start labels := by
  refine guarded_congr (I := AttachInv cnt) ?_ (fun s a h => h.usesWorker_iff) start_attachInv
  intro s a s' h hafter hstep
  exact attachStep_inv h (h.usesWorker_iff.2 hafter) hstep

end Invariant

/-! ## Samples -/

/-- Nodes that listen on one port, each at an address of its own. -/
def sampleSite (node : Fin 3) : Site :=
  ⟨if node = 0 then "10.0.0.1" else if node = 1 then "10.0.0.2" else "10.0.0.3", 7000, 7000,
    by decide⟩

/-- The nodes have one event worker each. -/
def sampleWorkers : Fin 3 → PNat := fun _ => 1

/-- The connection `k` from the first node to another one, up to the registration of its
client. -/
def openConnection (k port : Nat) (server : Fin 3) : List (AttachLabel (Fin 3)) :=
  [.net (.connect 0 server), .net (.establish 0 port true), .net (.act ⟨k, .client⟩ true),
    .net (.act ⟨k, .server⟩ true), .net (.act ⟨k, .server⟩ true), .net (.act ⟨k, .client⟩ true),
    .net (.act ⟨k, .client⟩ true), .net (.act ⟨k, .server⟩ true), .net (.act ⟨k, .server⟩ true),
    .net (.act ⟨k, .server⟩ true), .net (.act ⟨k, .client⟩ true), .net (.act ⟨k, .client⟩ true)]

/-- A thread sends to the second node after `AddEvent`. -/
def sendAfterAddEvent : List (AttachLabel (Fin 3)) :=
  openConnection 0 50000 1 ++ [.net (.act ⟨0, .client⟩ true), .count ⟨0, .client⟩,
    .wrap ⟨0, .client⟩, .attach ⟨0, .client⟩, .getWorker 0 (sampleSite 1).peer, .push 0 true,
    .release 0 false]

theorem found_handler_attached_after_add_event :
    (run (attachStep sampleSite sampleWorkers) .start sendAfterAddEvent).map
        (fun t => (t.found 0 (sampleSite 1).peer, t.ownEvWorker ⟨0, .client⟩)) =
      some (some ⟨0, .client⟩, some 0) ∧
    Guarded (attachStep sampleSite sampleWorkers) (UsesWorker sampleWorkers) .start
      sendAfterAddEvent := by
  refine ⟨by decide +kernel, ?_⟩
  exact (found_handler_attached_iff sampleSite sampleWorkers sendAfterAddEvent).2
    (by decide +kernel)

/-- Both ends have registered themselves; threads at both nodes find handlers without a
worker, and one that sends uses it. -/
theorem found_handler_without_worker :
    ∃ t, run (attachStep sampleSite sampleWorkers) .start (openConnection 0 50000 1) = some t ∧
      t.found 0 (sampleSite 1).peer = some ⟨0, .client⟩ ∧
      t.found 1 (sampleSite 0).logicPeer = some ⟨0, .server⟩ ∧
      t.ownEvWorker ⟨0, .client⟩ = none ∧ t.ownEvWorker ⟨0, .server⟩ = none ∧
      ¬ UsesWorker sampleWorkers t (.getWorker 0 (sampleSite 1).peer) := by
  obtain ⟨t, hrun, hclient, hserver, hnone, hnone'⟩ :
      ∃ t ∈ run (attachStep sampleSite sampleWorkers) .start (openConnection 0 50000 1),
        t.found 0 (sampleSite 1).peer = some ⟨0, .client⟩ ∧
        t.found 1 (sampleSite 0).logicPeer = some ⟨0, .server⟩ ∧
        t.ownEvWorker ⟨0, .client⟩ = none ∧ t.ownEvWorker ⟨0, .server⟩ = none := by
    decide +kernel
  refine ⟨t, hrun, hclient, hserver, hnone, hnone', ?_⟩
  intro huses
  exact huses _ hclient hnone

end Net
end CCraft
