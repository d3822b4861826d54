import CCraft.Lib.Delegation
import CCraft.RfLog.Entry

/-!
# Incoming requests and the objects they pass through

A request of another server is handled by the RPC server, which calls the handler it was
constructed with, the messenger.  The messenger calls the handler it was constructed with,
which is the RPC service that has created it, and the RPC service calls its messenger.  The
consensus module, whose methods compute the response, is a member of the RPC service that
none of these calls uses.

The objects are cells of a heap that hold the pointers their methods follow, and the
constructors allocate them as the source does.  Which object the RPC service passes to its
messenger is a parameter of its constructor here.

Main results:

- Theorem {lit}`forward_wired`: the calls between the objects.
- Theorem {lit}`incoming_rpc_reaches_consensus_iff`: a request is answered by the consensus
  module exactly when the messenger was constructed with the consensus module as its handler.
-/

namespace CCraft
namespace Raft

open RfLog StateTransition Delegation

/-! ## Messages -/

/-- `protocol::AppendEntriesRequest`. -/
structure AppendEntriesRequest where
  term : UInt32
  leaderId : UInt32
  prevLogIndex : UInt32
  prevLogTerm : UInt32
  entries : List RfLogEntry
  leaderCommit : UInt32
deriving DecidableEq, Repr

/-- `protocol::AppendEntriesResponse`. -/
structure AppendEntriesResponse where
  term : UInt32
  success : Bool
deriving DecidableEq, Repr

/-- `protocol::RequestVoteRequest`. -/
structure RequestVoteRequest where
  term : UInt32
  candidateId : UInt32
  lastLogIndex : UInt32
  lastLogTerm : UInt32
deriving DecidableEq, Repr

/-- `protocol::RequestVoteResponse`. -/
structure RequestVoteResponse where
  term : UInt32
  voteGranted : Bool
deriving DecidableEq, Repr

/-- The requests of other servers, one for each method of `INodeInternalRpcHandler` that
returns a message. -/
inductive RpcRequest where
  | appendEntries (req : AppendEntriesRequest)
  | requestVote (req : RequestVoteRequest)
deriving DecidableEq, Repr

/-- The responses to them. -/
inductive RpcResult where
  | appendEntries (resp : AppendEntriesResponse)
  | requestVote (resp : RequestVoteResponse)
deriving DecidableEq, Repr

/-- `RaftConsensus::OnAppendEntries` and `RaftConsensus::OnRequestVote`, which do not look at
the request. -/
def onRequest : RpcRequest → RpcResult
  | .appendEntries _ => .appendEntries ⟨1111, true⟩
  | .requestVote _ => .requestVote ⟨1111, true⟩

/-! ## Objects -/

/-- The address of an object. -/
abbrev Addr := Nat

/-- The objects with the pointers between them; a consensus module that has not been started
has no RPC service. -/
inductive NodeObject where
  | raftConsensus (pSrvRpcService : Option Addr)
  | serverRpcService (pRaftConsensus pNodeInternalMessenger : Addr)
  | serverInternalMessenger (pNodeINRpcHandler pServer : Addr)
  | rfSrvInternalRpcServerSync (pHandler : Addr)
deriving DecidableEq, Repr

/-- The objects by address; the addresses from {lit}`next` on are free. -/
structure Heap where
  objects : Addr → Option NodeObject
  next : Addr

namespace Heap

/-- Allocate an object, which gets its members later. -/
def alloc (h : Heap) : Heap :=
  { h with next := h.next + 1 }

/-- Set the members of an object. -/
def store (h : Heap) (a : Addr) (o : NodeObject) : Heap :=
  { h with objects := Function.update h.objects a (some o) }

end Heap

/-- The objects that {lit}`this` can pass on as a handler. -/
inductive HandlerChoice where
  | rpcService
  | raftConsensus
deriving DecidableEq, Repr

/-- The constructor of `RfSrvInternalRpcServerSync`. -/
def newRfSrvInternalRpcServerSync (h : Heap) (handler : Addr) : Addr × Heap :=
  (h.next, h.alloc.store h.next (.rfSrvInternalRpcServerSync handler))

/-- The constructor of `ServerInternalMessenger`: the RPC server gets the messenger as its
handler. -/
def newServerInternalMessenger (h : Heap) (nodeInternalRpcHandler : Addr) : Addr × Heap :=
  let this := h.next
  let (pServer, h) := newRfSrvInternalRpcServerSync h.alloc this
  (this, h.store this (.serverInternalMessenger nodeInternalRpcHandler pServer))

/-- The constructor of `ServerRpcService`, which passes itself to the messenger when the
choice is {lit}`rpcService`, as the source does. -/
def newServerRpcService (choice : HandlerChoice) (h : Heap) (pRaftConsensus : Addr) :
    Addr × Heap :=
  let this := h.next
  let handler := match choice with
    | .rpcService => this
    | .raftConsensus => pRaftConsensus
  let (pNodeInternalMessenger, h) := newServerInternalMessenger h.alloc handler
  (this, h.store this (.serverRpcService pRaftConsensus pNodeInternalMessenger))

/-- The constructor of `RaftConsensus`. -/
def newRaftConsensus (h : Heap) : Addr × Heap :=
  (h.next, h.alloc.store h.next (.raftConsensus none))

/-- `RaftConsensus::Start`. -/
def startRaftConsensus (choice : HandlerChoice) (h : Heap) (this : Addr) : Heap :=
  let (pSrvRpcService, h) := newServerRpcService choice h this
  h.store this (.raftConsensus (some pSrvRpcService))

/-- A consensus module that has been created and started. -/
def wired (choice : HandlerChoice) (h : Heap) : Addr × Heap :=
  let (this, h) := newRaftConsensus h
  (this, startRaftConsensus choice h this)

/-- The RPC server of a consensus module, which the messenger of its RPC service has
created. -/
def rpcServerOf (h : Heap) (consensus : Addr) : Option Addr :=
  match h.objects consensus with
  | some (.raftConsensus (some pSrvRpcService)) =>
    match h.objects pSrvRpcService with
    | some (.serverRpcService _ pNodeInternalMessenger) =>
      match h.objects pNodeInternalMessenger with
      | some (.serverInternalMessenger _ pServer) => some pServer
      | _ => none
    | _ => none
  | _ => none

/-! ## Calls -/

/-- A call of the method for a request. -/
structure Call where
  object : Addr
  request : RpcRequest
deriving DecidableEq, Repr

/-- The call that a method makes, whose result it returns. -/
def forward (h : Heap) (c : Call) : Option Call :=
  match h.objects c.object with
  | some (.rfSrvInternalRpcServerSync pHandler) => some ⟨pHandler, c.request⟩
  | some (.serverInternalMessenger pNodeINRpcHandler _) => some ⟨pNodeINRpcHandler, c.request⟩
  | some (.serverRpcService _ pNodeInternalMessenger) =>
    some ⟨pNodeInternalMessenger, c.request⟩
  | some (.raftConsensus _) => none
  | none => none

/-- The result of a method that makes no such call. -/
def returned (h : Heap) (c : Call) : Option RpcResult :=
  match h.objects c.object with
  | some (.raftConsensus _) => some (onRequest c.request)
  | _ => none

/-- The chain of calls that begins at the RPC server of the consensus module ends in the
consensus module, and with its result. -/
def ReachesConsensus (h : Heap) (consensus : Addr) (req : RpcRequest) : Prop :=
  ∃ server, rpcServerOf h consensus = some server ∧
    ⟨consensus, req⟩ ∈ eval (forward h) ⟨server, req⟩ ∧
    returned h ⟨consensus, req⟩ = some (onRequest req)

/-! ## The wired objects -/

section Wired

variable {choice : HandlerChoice} {h : Heap} {req : RpcRequest}

/-- The handler of the messenger: the RPC service comes behind the consensus module. -/
def messengerHandler (choice : HandlerChoice) (consensus : Addr) : Addr :=
  match choice with
  | .rpcService => consensus + 1
  | .raftConsensus => consensus

/-- The objects of a started consensus module, which are allocated one after the other. -/
theorem objects_wired (choice : HandlerChoice) (h : Heap) :
    (wired choice h).1 = h.next ∧
    (wired choice h).2.objects h.next = some (.raftConsensus (some (h.next + 1))) ∧
    (wired choice h).2.objects (h.next + 1) =
      some (.serverRpcService h.next (h.next + 2)) ∧
    (wired choice h).2.objects (h.next + 2) =
      some (.serverInternalMessenger (messengerHandler choice h.next) (h.next + 3)) ∧
    (wired choice h).2.objects (h.next + 3) =
      some (.rfSrvInternalRpcServerSync (h.next + 2)) := by
  cases choice <;>
    simp [wired, newRaftConsensus, startRaftConsensus, newServerRpcService,
      newServerInternalMessenger, newRfSrvInternalRpcServerSync, Heap.alloc, Heap.store,
      messengerHandler]

theorem rpcServerOf_wired (choice : HandlerChoice) (h : Heap) :
    rpcServerOf (wired choice h).2 (wired choice h).1 = some (h.next + 3) := by
  obtain ⟨hthis, hconsensus, hservice, hmessenger, -⟩ := objects_wired choice h
  simp only [rpcServerOf, hthis, hconsensus, hservice, hmessenger]

/-- The calls between the objects: the RPC server calls the messenger, the messenger its
handler, the RPC service the messenger, and the consensus module nobody. -/
theorem forward_wired (choice : HandlerChoice) (h : Heap) (req : RpcRequest) :
    forward (wired choice h).2 ⟨h.next + 3, req⟩ = some ⟨h.next + 2, req⟩ ∧
    forward (wired choice h).2 ⟨h.next + 2, req⟩ = some ⟨messengerHandler choice h.next, req⟩ ∧
    forward (wired choice h).2 ⟨h.next + 1, req⟩ = some ⟨h.next + 2, req⟩ ∧
    forward (wired choice h).2 ⟨h.next, req⟩ = none := by
  obtain ⟨-, hconsensus, hservice, hmessenger, hserver⟩ := objects_wired choice h
  simp only [forward, hconsensus, hservice, hmessenger, hserver, and_self]

/-- With the consensus module as the handler of the messenger, the chain ends there. -/
theorem reachesConsensus_of_consensus (h : Heap) (req : RpcRequest) :
    ReachesConsensus (wired .raftConsensus h).2 (wired .raftConsensus h).1 req := by
  obtain ⟨hthis, hconsensus, -⟩ := objects_wired .raftConsensus h
  obtain ⟨hserver, hmessenger, -, hend⟩ := forward_wired .raftConsensus h req
  refine ⟨h.next + 3, rpcServerOf_wired .raftConsensus h, ?_, ?_⟩
  · rw [mem_eval_of_step hserver, mem_eval_of_step hmessenger, hthis]
    exact (mem_eval_self hend).2 rfl
  · simp only [returned, hthis, hconsensus]

/-- With the RPC service as its handler, as the source has it, the messenger and the RPC
service call each other without end. -/
theorem forward_rpcService_not_dom (h : Heap) (req : RpcRequest) :
    ¬ (eval (forward (wired .rpcService h).2) ⟨h.next + 3, req⟩).Dom := by
  obtain ⟨hserver, hmessenger, hservice, -⟩ := forward_wired .rpcService h req
  refine not_dom_of_forwarding
    (I := fun c => c ∈ [⟨h.next + 1, req⟩, ⟨h.next + 2, req⟩, ⟨h.next + 3, req⟩]) ?_ (by simp)
  intro c hc
  simp only [List.mem_cons, List.not_mem_nil, or_false] at hc
  rcases hc with rfl | rfl | rfl
  · exact ⟨_, hservice, by simp⟩
  · exact ⟨_, hmessenger, by simp [messengerHandler]⟩
  · exact ⟨_, hserver, by simp⟩

/-- A request of another server is answered by the consensus module exactly when the
messenger was constructed with the consensus module as its handler. -/
theorem incoming_rpc_reaches_consensus_iff (choice : HandlerChoice) (h : Heap)
    (req : RpcRequest) :
    ReachesConsensus (wired choice h).2 (wired choice h).1 req ↔ choice = .raftConsensus := by
  constructor
  · rintro ⟨server, hserver, hmem, -⟩
    cases choice with
    | raftConsensus => rfl
    | rpcService =>
      rw [rpcServerOf_wired, Option.some.injEq] at hserver
      rw [← hserver] at hmem
      exact absurd (Part.dom_iff_mem.2 ⟨_, hmem⟩) (forward_rpcService_not_dom h req)
  · rintro rfl
    exact reachesConsensus_of_consensus h req

end Wired

/-- A heap without objects. -/
def emptyHeap : Heap :=
  ⟨fun _ => none, 0⟩

theorem incoming_vote_reaches_consensus :
    ReachesConsensus (wired .raftConsensus emptyHeap).2 (wired .raftConsensus emptyHeap).1
      (.requestVote ⟨3, 2, 7, 1⟩) :=
  (incoming_rpc_reaches_consensus_iff .raftConsensus emptyHeap (.requestVote ⟨3, 2, 7, 1⟩)).2 rfl

/-- A request for a vote at a server wired as in the source: the chain of calls has no end,
and the consensus module is not reached. -/
theorem incoming_vote_never_answered :
    rpcServerOf (wired .rpcService emptyHeap).2 (wired .rpcService emptyHeap).1 = some 3 ∧
    ¬ (eval (forward (wired .rpcService emptyHeap).2) ⟨3, .requestVote ⟨3, 2, 7, 1⟩⟩).Dom ∧
    ¬ ReachesConsensus (wired .rpcService emptyHeap).2 (wired .rpcService emptyHeap).1
      (.requestVote ⟨3, 2, 7, 1⟩) := by
  have hserver := rpcServerOf_wired .rpcService emptyHeap
  have hloop := forward_rpcService_not_dom emptyHeap (.requestVote ⟨3, 2, 7, 1⟩)
  refine ⟨hserver, hloop, ?_⟩
  rintro ⟨server, hserver', hmem, -⟩
  cases hserver.symm.trans hserver'
  exact hloop (Part.dom_iff_mem.2 ⟨_, hmem⟩)

end Raft
end CCraft
