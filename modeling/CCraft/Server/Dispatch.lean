import CCraft.Server.Messenger

/-!
# Dispatching requests and responses

Two nodes send each other requests and responses over one connection.  A frame
does not say which of the two it is: `dispatch_msg` looks its id up in the table of
the requests that wait for a response.  Since a handler is not found exactly when
it is there, a frame with an id that is waited for goes to the server, and any
other frame reads behind the end of the table.

Main results:

- Theorem {lit}`dispatchStep_keeps` and {lit}`dispatchStep_breaks`: which frames are handed
  over correctly.
- Theorem {lit}`dispatch_exact_iff`: in every run all frames are handed over correctly
  exactly when only requests are delivered, with ids that the receiver waits for
  itself.
-/

namespace CCraft
namespace Server

/-! ## Frames and ids -/

/-- The two nodes. -/
inductive Side where
  | left
  | right
deriving DecidableEq, Repr

def Side.other : Side → Side
  | .left => .right
  | .right => .left

/-- `m_pSyncClient` and `m_pAsyncClient`. -/
inductive Client where
  | sync
  | async
deriving DecidableEq, Repr

/-- The requests of a messenger. -/
inductive Rpc where
  | appendEntriesSync
  | appendEntriesAsync
  | requestVoteSync
  | requestVoteAsync
deriving DecidableEq, Repr

def Rpc.client : Rpc → Client
  | .appendEntriesSync => .sync
  | .appendEntriesAsync => .async
  | .requestVoteSync => .sync
  | .requestVoteAsync => .async

/-- What a frame is, with the client that has sent the request.  The receiver can not see
it. -/
inductive FrameKind where
  | request (client : Client)
  | response (client : Client)
deriving DecidableEq, Repr

structure Frame where
  id : Nat
  kind : FrameKind
deriving DecidableEq, Repr

/-- Who a frame is handed to. -/
inductive Target where
  | server
  | client (client : Client)
deriving DecidableEq, Repr

/-- Who a frame should be handed to: requests to the server, responses to the client that
has sent the request. -/
def Frame.expected (f : Frame) : Target :=
  match f.kind with
  | .request _ => .server
  | .response client => .client client

/-- `SndMessage::GetNewId`, with ids of 64 bits. -/
def getNewId (lastId : Nat) : Nat :=
  let lastId := (lastId + 1) % 2 ^ 64
  if lastId = 2 ^ 64 - 1 then 1 else lastId

/-! ## A node -/

/-- The kinds of `NotifyMessage`; a message may have no content. -/
inductive NotifyMessage where
  | message (content : Option Frame)
  | worker
  | server
deriving DecidableEq, Repr

/-- `dispatch_msg` for notifications from one peer: who the message is handed to, if
anybody, and the tables after it. -/
def dispatchMsg (stopped : Bool) (peer : Side) (t : Tables Nat Client Side) (nm : NotifyMessage) :
    Except MapFault (Option Target × Tables Nat Client Side) :=
  if stopped then .ok (none, t)
  else
    match nm with
    | .message (some rm) =>
      match t.removeMsgFromMap rm.id peer with
      | .error fault => .error fault
      | .ok (some clientHandler, t) => .ok (some (.client clientHandler), t)
      | .ok (none, t) => .ok (some .server, t)
    | .message none => .ok (none, t)
    | .worker =>
      match t.clearPeerMsgMap peer with
      | .error fault => .error fault
      | .ok t => .ok (none, t)
    | .server => .ok (none, t)

/-- A frame with an id that is waited for is handed to the server. -/
theorem dispatchMsg_some {t : Tables Nat Client Side} {peer : Side} {f : Frame} {client : Client}
    (h : t.msgHandlerMapper.lookup f.id = some client) :
    dispatchMsg false peer t (.message (some f)) = .ok (some .server, t) := by
  simp [dispatchMsg, Tables.removeMsgFromMap_some h]

theorem dispatchMsg_none {t : Tables Nat Client Side} {peer : Side} {f : Frame}
    (h : t.msgHandlerMapper.lookup f.id = none) :
    dispatchMsg false peer t (.message (some f)) = .error .endIterator := by
  simp [dispatchMsg, Tables.removeMsgFromMap_none h]

/-- The part of a node that takes part in dispatching: the last id it has drawn, its
tables and the requests that its server works on. -/
structure Node where
  lastId : Nat
  tables : Tables Nat Client Side
  serving : List Frame

/-! ## Two nodes -/

/-- Two nodes, the frames on their way to each of them, and what was handed to whom. -/
structure Net where
  nodes : Side → Node
  wire : Side → List Frame
  handed : List (Frame × Target)
  fault : Option MapFault

def Net.init : Net :=
  ⟨fun _ => ⟨0, Tables.empty, []⟩, fun _ => [], [], none⟩

/-- A node sends a request, dispatches a frame, in any order, or answers a request that
was handed to its server. -/
inductive NetLabel where
  | request (x : Side) (rpc : Rpc)
  | deliver (x : Side) (i : Nat)
  | respond (x : Side) (i : Nat)
deriving DecidableEq, Repr

/-- A request draws an id and is added to the tables under it.  All requests are sent
with that id except `RequestVoteAsync`, which is sent with another new one. -/
def Net.request (s : Net) (x : Side) (rpc : Rpc) : Net :=
  let node := s.nodes x
  let id := getNewId node.lastId
  match node.tables.addMsgToMapper id rpc.client x.other with
  | .error _ => { s with nodes := Function.update s.nodes x { node with lastId := id } }
  | .ok t =>
    let sentId := match rpc with
      | .requestVoteAsync => getNewId id
      | _ => id
    { s with
      nodes := Function.update s.nodes x { node with lastId := sentId, tables := t }
      wire := Function.update s.wire x.other
        (s.wire x.other ++ [⟨sentId, .request rpc.client⟩]) }

/-- The response to a request: a new id is drawn for it and then replaced by the id of the
request. -/
def Net.respond (s : Net) (x : Side) (i : Nat) : Option Net :=
  let node := s.nodes x
  match node.serving[i]? with
  | none => none
  | some f =>
    let client := match f.kind with
      | .request client => client
      | .response client => client
    some { s with
      nodes := Function.update s.nodes x
        { node with lastId := getNewId node.lastId, serving := node.serving.eraseIdx i }
      wire := Function.update s.wire x.other (s.wire x.other ++ [⟨f.id, .response client⟩]) }

/-- A frame is taken from the wire and dispatched. -/
def Net.deliver (s : Net) (x : Side) (i : Nat) : Option Net :=
  let node := s.nodes x
  match (s.wire x)[i]? with
  | none => none
  | some f =>
    match dispatchMsg false x.other node.tables (.message (some f)) with
    | .error fault => some { s with fault := some fault }
    | .ok (target, t) =>
      let serving := if target = some .server then node.serving ++ [f] else node.serving
      some { s with
        nodes := Function.update s.nodes x { node with tables := t, serving := serving }
        wire := Function.update s.wire x ((s.wire x).eraseIdx i)
        handed := s.handed ++ (target.map fun target => (f, target)).toList }

def dispatchStep (s : Net) : NetLabel → Option Net
  | .request x rpc => if s.fault = none then some (s.request x rpc) else none
  | .deliver x i => if s.fault = none then s.deliver x i else none
  | .respond x i => if s.fault = none then s.respond x i else none

/-- Every frame that was received was handed to whom it should. -/
structure Dispatched (s : Net) : Prop where
  handed : ∀ e ∈ s.handed, e.2 = e.1.expected
  no_fault : s.fault = none

/-- The frame that is delivered is a request whose id the receiver waits for itself. -/
def EchoedRequest (s : Net) : NetLabel → Prop
  | .deliver x i =>
    ∀ f ∈ (s.wire x)[i]?, f.expected = .server ∧
      ((s.nodes x).tables.msgHandlerMapper.lookup f.id).isSome
  | .request _ _ => True
  | .respond _ _ => True

instance (s : Net) : DecidablePred (EchoedRequest s)
  | .deliver _ _ => inferInstanceAs (Decidable (∀ f ∈ _, _))
  | .request _ _ | .respond _ _ => isTrue trivial

section Runs

variable {s s' : Net} {a : NetLabel}

theorem request_log (s : Net) (x : Side) (rpc : Rpc) :
    (s.request x rpc).handed = s.handed ∧ (s.request x rpc).fault = s.fault := by
  unfold Net.request
  simp only
  split <;> exact ⟨rfl, rfl⟩

theorem respond_log {x : Side} {i : Nat} (h : s.respond x i = some s') :
    s'.handed = s.handed ∧ s'.fault = s.fault := by
  unfold Net.respond at h
  simp only at h
  split at h
  · cases h
  · cases h
    exact ⟨rfl, rfl⟩

theorem init_dispatched : Dispatched Net.init :=
  ⟨by simp [Net.init], rfl⟩

/-- Requests whose id the receiver waits for are handed over correctly. -/
theorem dispatchStep_keeps (h : Dispatched s) (ha : EchoedRequest s a)
    (hstep : dispatchStep s a = some s') : Dispatched s' := by
  cases a with
  | request x rpc =>
    obtain ⟨-, ⟨⟩⟩ := Option.ite_none_right_eq_some.1 hstep
    obtain ⟨hhanded, hfault⟩ := request_log s x rpc
    exact ⟨hhanded ▸ h.handed, hfault ▸ h.no_fault⟩
  | respond x i =>
    simp only [dispatchStep, Option.ite_none_right_eq_some] at hstep
    obtain ⟨hhanded, hfault⟩ := respond_log hstep.2
    exact ⟨hhanded ▸ h.handed, hfault ▸ h.no_fault⟩
  | deliver x i =>
    simp only [dispatchStep, Option.ite_none_right_eq_some, Net.deliver] at hstep
    obtain ⟨-, hstep⟩ := hstep
    cases hf : (s.wire x)[i]? with
    | none => simp [hf] at hstep
    | some f =>
      obtain ⟨hserver, hsome⟩ := ha f hf
      obtain ⟨client, hclient⟩ := Option.isSome_iff_exists.mp hsome
      simp only [hf, dispatchMsg_some hclient] at hstep
      cases hstep
      refine ⟨?_, h.no_fault⟩
      intro e he
      rcases List.mem_append.mp he with he | he
      · exact h.handed e he
      · simp only [Option.map_some, Option.toList_some, List.mem_singleton] at he
        rw [he]
        exact hserver.symm

/-- Every other frame is handed to the wrong one or faults. -/
theorem dispatchStep_breaks (ha : ¬ EchoedRequest s a) (hstep : dispatchStep s a = some s') :
    ¬ Dispatched s' := by
  cases a with
  | request | respond => exact absurd trivial ha
  | deliver x i =>
    simp only [dispatchStep, Option.ite_none_right_eq_some, Net.deliver] at hstep
    obtain ⟨-, hstep⟩ := hstep
    cases hf : (s.wire x)[i]? with
    | none => simp [hf] at hstep
    | some f =>
      simp only [EchoedRequest, hf, Option.mem_some_iff, forall_eq', not_and] at ha
      intro hd
      cases hlookup : (s.nodes x).tables.msgHandlerMapper.lookup f.id with
      | none =>
        simp only [hf, dispatchMsg_none hlookup] at hstep
        cases hstep
        exact absurd hd.no_fault (by simp)
      | some client =>
        simp only [hf, dispatchMsg_some hlookup] at hstep
        cases hstep
        have htarget := hd.handed (f, .server) (by simp)
        exact ha htarget.symm (by simp [hlookup])

/-- In every run of two nodes, with frames dispatched in any order, all frames are handed
over correctly exactly when every frame that is delivered is a request with an id
that its receiver waits for itself. -/
theorem dispatch_exact_iff (labels : List NetLabel) (t : Net)
    (hrun : Runs.run dispatchStep Net.init labels = some t) :
    Runs.Always dispatchStep Dispatched Net.init labels ↔
      Runs.Guarded dispatchStep EchoedRequest Net.init labels :=
  Runs.always_iff_guarded (Q := fun _ => True)
    (fun _ _ _ h _ ha hstep => dispatchStep_keeps h ha hstep) (fun _ h => h)
    (fun _ _ _ _ _ ha hstep => dispatchStep_breaks ha hstep) init_dispatched
    (fun _ _ => trivial) hrun

/-- Both nodes send their first request before either of them receives one. -/
theorem dispatch_exact_iff_crossing :
    Runs.Always dispatchStep Dispatched Net.init
      [.request .left .appendEntriesSync, .request .right .requestVoteSync, .deliver .right 0,
        .deliver .left 0, .respond .right 0] := by
  obtain ⟨t, ht⟩ : ∃ t, Runs.run dispatchStep Net.init
      [.request .left .appendEntriesSync, .request .right .requestVoteSync, .deliver .right 0,
        .deliver .left 0, .respond .right 0] = some t := ⟨_, rfl⟩
  exact (dispatch_exact_iff _ t ht).mpr (by decide)

/-- A single request faults at its receiver, and a response is handed to the server. -/
theorem dispatch_goes_wrong :
    (∃ t, Runs.run dispatchStep Net.init [.request .left .appendEntriesSync, .deliver .right 0] =
      some t ∧ t.fault = some .endIterator ∧ ¬ Dispatched t) ∧
    ∃ t, Runs.run dispatchStep Net.init
        [.request .left .appendEntriesSync, .request .right .appendEntriesSync,
          .deliver .right 0, .respond .right 0, .deliver .left 1] = some t ∧
      (⟨1, .response .sync⟩, .server) ∈ t.handed ∧ ¬ Dispatched t := by
  refine ⟨⟨_, rfl, rfl, ?_⟩, ⟨_, rfl, by decide, ?_⟩⟩
  · intro hd
    exact absurd hd.no_fault (by decide)
  · intro hd
    exact absurd (hd.handed (⟨1, .response .sync⟩, .server) (by decide)) (by decide)

end Runs

end Server
end CCraft
