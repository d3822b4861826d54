import CCraft.Net.Recv
import CCraft.Net.Send
import CCraft.Rpc.SyncClient
import CCraft.Server.Dispatch

/-!
# Broken connections and the calls behind them

When `Recv` or `Send` finds its connection closed or broken, the worker reports it to the
messenger in a `WorkerNotifyMessage`.  The calls that wait for an answer over the connection
are kept under the logic address of the peer, in the tables of the client and in those of the
messenger.  The report carries the real address, which is another one when the connection was
accepted, and `dispatch_msg` does not hand it to the client.

Main results:

- Theorem {lit}`reports_realPeer`: what a failing call of `Recv` or `Send` reports.
- Theorem {lit}`broken_connection_fails_calls_iff`: the report fails the calls to the peer and
  clears their ids exactly when there are none, and none are listed for the real address.
-/

namespace CCraft

open Net Rpc Common

namespace Server

/-! ## The report -/

section Report

variable {P : MemSource} {handshake : Handshake} {w w' : Worker} {sock sock' : Socket}
  {r : RecvStep} {pos : Nat} {b : Buffer}

/-- A notification that the connection of the worker is closed or broken. -/
def ReportsPeer (w : Worker) (nm : Net.NotifyMessage) : Prop :=
  ∃ code what, code ≠ .ok ∧ nm = .worker code w.realPeer what

/-- A call of `Recv` or `Send` on the connection of the worker answers false, with this
notification as its last one. -/
def Reports (w : Worker) (nm : Net.NotifyMessage) : Prop :=
  (∃ P handshake sock w' sock', recv P handshake false w sock = some (false, w', sock') ∧
      w'.notified.getLast? = some nm) ∨
    ∃ P sock w' sock', send P w sock = some (.idle false, w', sock') ∧
      w'.notified.getLast? = some nm

/-- A round of `Recv` leaves the addresses of the connection alone, and when it fails its last
notification is about them. -/
structure RoundReports (w : Worker) (r : RecvStep) : Prop where
  connected : r.worker.connState = .connected
  realPeer : r.worker.realPeer = w.realPeer
  reports : r.rc = false → ∃ nm, ReportsPeer w nm ∧ r.worker.notified.getLast? = some nm

/-- A report depends on the real peer only. -/
theorem ReportsPeer.congr {nm : Net.NotifyMessage} (hpeer : w'.realPeer = w.realPeer)
    (h : ReportsPeer w' nm) : ReportsPeer w nm := by
  unfold ReportsPeer at h ⊢
  rwa [hpeer] at h

theorem reportsPeer_closed (w : Worker) :
    ∃ nm, ReportsPeer w nm ∧ w.notifyWorkerPeerClosedMessage.notified.getLast? = some nm :=
  ⟨_, ⟨.closedByPeer, _, by simp, rfl⟩, List.getLast?_concat⟩

theorem reportsPeer_broken (w : Worker) (err : Option Nat) :
    ∃ nm, ReportsPeer w nm ∧ (w.notifyWorkerBrokenMessage err).notified.getLast? = some nm :=
  ⟨_, ⟨.error, _, by simp, rfl⟩, List.getLast?_concat⟩

theorem readFailed_reports (hconn : w.connState = .connected) (sock : Socket) (err : Nat) :
    RoundReports w (readFailed w sock err) := by
  unfold readFailed
  split_ifs
  · exact ⟨hconn, rfl, fun _ => reportsPeer_broken w (some err)⟩
  · exact ⟨hconn, rfl, by simp⟩

theorem processAfterRcvHeader_reports (hconn : w.connState = .connected) (pos : Nat)
    (read : ReadResult × Socket) : RoundReports w (processAfterRcvHeader w pos read) := by
  obtain ⟨result, sock⟩ := read
  cases result with
  | closed => exact ⟨hconn, rfl, fun _ => reportsPeer_closed w⟩
  | failed err => exact readFailed_reports hconn sock err
  | data bs =>
    simp only [processAfterRcvHeader, parseHeader]
    split_ifs
    · exact ⟨hconn, rfl, by simp⟩
    · exact ⟨hconn, rfl, fun _ => reportsPeer_broken _ none⟩
    · exact ⟨hconn, rfl, by simp⟩

theorem processAfterRcvPayload_reports (hconn : w.connState = .connected) (b : Buffer) (pos : Nat)
    (read : ReadResult × Socket) :
    RoundReports w (processAfterRcvPayload P handshake false w b pos read) := by
  obtain ⟨result, sock⟩ := read
  cases result with
  | closed => exact ⟨hconn, rfl, fun _ => reportsPeer_closed _⟩
  | failed err =>
    obtain ⟨hstate, hpeer, hreports⟩ :=
      readFailed_reports (w := { w with payloadBuffer := some b }) hconn sock err
    exact ⟨hstate, hpeer, hreports⟩
  | data bs =>
    simp only [processAfterRcvPayload, checkPayload, getNewRcvMessage, hconn, if_true]
    split_ifs <;> exact ⟨rfl, rfl, by simp⟩

theorem recvStep_reports (hconn : w.connState = .connected)
    (hstep : recvStep P handshake false w sock = some r) : RoundReports w r := by
  cases recvStep_eq_some.1 hstep with
  | startHeader state start_eq =>
    obtain ⟨hstate, hpeer, hreports⟩ := processAfterRcvHeader_reports
      (w := { w with headerBuffer := w.headerBuffer.bZero }) hconn _
      (sock.read (sizeT w.headerBuffer.bZero.totalLength))
    exact ⟨hstate, hpeer, hreports⟩
  | inHeader state pos_eq => exact processAfterRcvHeader_reports hconn _ _
  | startPayload state start_eq =>
    obtain ⟨hstate, hpeer, hreports⟩ := processAfterRcvPayload_reports (P := P)
      (w := { w with pool := (P.get w.pool w.header.len).2 }) hconn _ _ _
    exact ⟨hstate, hpeer, hreports⟩
  | inPayload state buffer pos_eq => exact processAfterRcvPayload_reports hconn _ _ _

theorem recvLoop_reports {fuel : Nat} (hconn : w.connState = .connected)
    (hloop : recvLoop P handshake false fuel w sock = some (false, w', sock')) :
    ∃ nm, ReportsPeer w nm ∧ w'.notified.getLast? = some nm := by
  induction fuel generalizing w sock with
  | zero => cases hloop
  | succ fuel ih =>
    obtain ⟨r, hstep, hrest⟩ := Option.bind_eq_some_iff.1 hloop
    have hround : RoundReports w r := recvStep_reports hconn hstep
    split_ifs at hrest with hmore
    · obtain ⟨nm, hreports, hlast⟩ := ih hround.connected hrest
      exact ⟨nm, hreports.congr hround.realPeer, hlast⟩
    · simp only [Option.some.injEq, Prod.mk.injEq] at hrest
      obtain ⟨hrc, rfl, -⟩ := hrest
      exact hround.reports hrc

/-- When a step of `Send` answers false, its last notification is about the connection. -/
theorem sendStep_reports {pc : SendPc}
    (hstep : sendStep P pc w sock = some (.idle false, w', sock')) :
    ∃ nm, ReportsPeer w nm ∧ w'.notified.getLast? = some nm := by
  have hput := (putSendBuffer_frame w sock).realPeer
  cases pc with
  | idle | threw => cases hstep
  | head =>
    simp only [sendStep, sendHead, Option.some.injEq] at hstep
    split_ifs at hstep
    · cases hstep
    · split at hstep <;> cases hstep
  | popped sm =>
    simp only [sendStep, sendPopped, Option.some.injEq] at hstep
    split at hstep <;> cases hstep
  | wrote result =>
    simp only [sendStep, Option.some.injEq, Prod.mk.injEq] at hstep
    obtain ⟨hpc, rfl, -⟩ := hstep
    cases result with
    | closed =>
      obtain ⟨nm, hreports, hlast⟩ := reportsPeer_closed (putSendBuffer w)
      exact ⟨nm, hreports.congr hput, hlast⟩
    | wrote n =>
      simp only [sendWrote] at hpc
      split_ifs at hpc
    | failed err =>
      simp only [sendWrote] at hpc ⊢
      split_ifs at hpc ⊢ with herr
      · obtain ⟨nm, hreports, hlast⟩ := reportsPeer_broken (putSendBuffer w) (some err)
        exact ⟨nm, hreports.congr hput, hlast⟩
      · cases hpc

theorem sendLoop_reports {fuel : Nat} {pc : SendPc}
    (hloop : sendLoop P fuel pc w sock = some (.idle false, w', sock')) (hpc : pc ≠ .idle false) :
    ∃ nm, ReportsPeer w nm ∧ w'.notified.getLast? = some nm := by
  induction fuel generalizing pc w sock with
  | zero => cases hloop
  | succ fuel ih =>
    rw [sendLoop] at hloop
    split at hloop
    · simp only [Option.some.injEq, Prod.mk.injEq] at hloop
      exact absurd hloop.1 hpc
    · rename_i pc' u sock₁ hstep
      by_cases hidle : pc' = .idle false
      · -- the loop ends with the state of this step
        subst hidle
        have hend : u = w' := by
          cases fuel with
          | zero => cases hloop
          | succ fuel =>
            simp only [sendLoop, sendStep, Option.some.injEq, Prod.mk.injEq] at hloop
            exact hloop.2.1
        exact hend ▸ sendStep_reports hstep
      · obtain ⟨nm, hreports, hlast⟩ := ih hloop hidle
        exact ⟨nm, hreports.congr (sendStep_frame hstep).realPeer, hlast⟩

/-- The report of a failing call is about the real peer of the connection. -/
theorem reports_realPeer {nm : Net.NotifyMessage} (hconn : w.connState = .connected)
    (h : Reports w nm) : ReportsPeer w nm := by
  rcases h with ⟨P, handshake, sock, w', sock', hrecv, hlast⟩ | ⟨P, sock, w', sock', hsend, hlast⟩
  · obtain ⟨nm', hreports, hlast'⟩ := recvLoop_reports hconn hrecv
    rw [hlast] at hlast'
    exact Option.some.inj hlast' ▸ hreports
  · obtain ⟨nm', hreports, hlast'⟩ := sendLoop_reports hsend (by simp)
    rw [hlast] at hlast'
    exact Option.some.inj hlast' ▸ hreports

end Report

/-! ## The messenger -/

/-- The tables of a messenger and its synchronous client. -/
structure Messenger where
  stopped : Bool
  tables : Tables Nat Client NetPeerInfo
  client : SyncClient RcvMessage

/-- `dispatch_msg` for what the workers report, with whom a message is handed to.  The client
takes the context of a response out of its tables. -/
def Messenger.dispatchMsg (s : Messenger) (nm : Net.NotifyMessage) :
    Except MapFault (Option Target × Messenger) :=
  if s.stopped then .ok (none, s)
  else
    match nm with
    | .message rm =>
      match s.tables.removeMsgFromMap rm.header.id rm.peer with
      | .error fault => .error fault
      | .ok (some .sync, t) =>
        .ok (some (.client .sync),
          { s with tables := t, client := s.client.take rm.header.id (.reply rm) })
      | .ok (some .async, t) => .ok (some (.client .async), { s with tables := t })
      | .ok (none, t) => .ok (some .server, { s with tables := t })
    | .worker _ peer _ =>
      match s.tables.clearPeerMsgMap peer with
      | .error fault => .error fault
      | .ok t => .ok (none, { s with tables := t })

/-! ## Calls to the peer -/

/-- The call waits for its completion in the tables of the client. -/
def IsPending (client : SyncClient RcvMessage) (rc : RpcCtx) : Prop :=
  client.tables.entries.lookup rc.msgId = some rc

instance (client : SyncClient RcvMessage) (rc : RpcCtx) : Decidable (IsPending client rc) :=
  inferInstanceAs (Decidable (_ = some rc))

/-- All calls to a peer have failed and its pending ids are gone, and nothing else has
changed. -/
structure FailsCalls (peer : NetPeerInfo) (pending : Pending Nat Client NetPeerInfo)
    (s s' : Messenger) : Prop where
  fails : ∀ rc, IsPending s.client rc → rc.peer = peer → ¬ IsPending s'.client rc ∧
    (s'.client.vars rc.address).complete = true ∧
    (s'.client.vars rc.address).state = .brokenPipe
  others : ∀ rc, IsPending s.client rc → rc.peer ≠ peer → IsPending s'.client rc ∧
    s'.client.vars rc.address = s.client.vars rc.address
  clears : ∀ id handler, pending id = some (handler, peer) →
    s'.tables.msgHandlerMapper.lookup id = none ∧ ∀ q, id ∉ s'.tables.peerSet q
  keeps : ∀ id, (∀ handler, pending id ≠ some (handler, peer)) →
    s'.tables.msgHandlerMapper.lookup id = s.tables.msgHandlerMapper.lookup id ∧
      ∀ q, id ∈ s'.tables.peerSet q ↔ id ∈ s.tables.peerSet q

/-- No call to the peer waits, no id is pending for it, and none is listed for the address that
is reported. -/
structure NothingPending (peer reported : NetPeerInfo) (pending : Pending Nat Client NetPeerInfo)
    (s : Messenger) : Prop where
  calls : ∀ rc, IsPending s.client rc → rc.peer ≠ peer
  ids : ∀ id handler, pending id ≠ some (handler, peer)
  listed : s.tables.peerSet reported = ∅

section Calls

variable {s s' : Messenger} {peer reported : NetPeerInfo} {nm : Net.NotifyMessage} {w : Worker}
  {pending : Pending Nat Client NetPeerInfo} {target : Option Target}

/-- A report changes nothing but the set of the reported address. -/
theorem dispatchMsg_report (hrunning : s.stopped = false) (hreport : ReportsPeer w nm)
    (h : s.dispatchMsg nm = .ok (target, s')) :
    s'.client = s.client ∧ s'.tables.msgHandlerMapper = s.tables.msgHandlerMapper ∧
      ∀ q, s'.tables.peerSet q = if q = w.realPeer then ∅ else s.tables.peerSet q := by
  obtain ⟨code, what, -, rfl⟩ := hreport
  simp only [Messenger.dispatchMsg, hrunning, Bool.false_eq_true, if_false] at h
  cases hclear : s.tables.clearPeerMsgMap w.realPeer with
  | error fault => simp [hclear] at h
  | ok t =>
    simp only [hclear] at h
    cases h
    exact ⟨rfl, Tables.clearPeerMsgMap_ok hclear⟩

/-- When nothing is pending the report passes without a trace. -/
theorem NothingPending.failsCalls (h : NothingPending peer w.realPeer pending s)
    (hrunning : s.stopped = false) (hreport : ReportsPeer w nm) :
    ∃ target s', s.dispatchMsg nm = .ok (target, s') ∧ FailsCalls peer pending s s' := by
  have hclear : s.tables.clearPeerMsgMap w.realPeer = .ok s.tables := by
    have hlisted := h.listed
    unfold Tables.peerSet at hlisted
    unfold Tables.clearPeerMsgMap
    cases hids : s.tables.addrMsgMapper.lookup w.realPeer with
    | none => rfl
    | some ids =>
      rw [hids, Option.getD_some] at hlisted
      simp [hlisted]
  obtain ⟨code, what, -, rfl⟩ := hreport
  refine ⟨none, s, ?_, ?_, ?_, ?_, ?_⟩
  · rw [Messenger.dispatchMsg, if_neg (by simp [hrunning])]
    simp only [hclear]
  · intro rc hrc hpeer
    exact absurd hpeer (h.calls rc hrc)
  · exact fun rc hrc _ => ⟨hrc, rfl⟩
  · intro id handler hid
    exact absurd hid (h.ids id handler)
  · exact fun id _ => ⟨rfl, fun q => Iff.rfl⟩

/-- A report never fails a call and never takes a handler out. -/
theorem FailsCalls.nothingPending (h : FailsCalls peer pending s s')
    (hhandlers : ∀ id handler q, pending id = some (handler, q) →
      s.tables.msgHandlerMapper.lookup id = some handler)
    (hrunning : s.stopped = false) (hreport : ReportsPeer w nm)
    (hdispatch : s.dispatchMsg nm = .ok (target, s')) :
    NothingPending peer w.realPeer pending s := by
  obtain ⟨hclient, hmapper, hsets⟩ := dispatchMsg_report hrunning hreport hdispatch
  have hids : ∀ id handler, pending id ≠ some (handler, peer) := by
    intro id handler hid
    have hgone := (h.clears id handler hid).1
    rw [hmapper, hhandlers id handler peer hid] at hgone
    cases hgone
  refine ⟨?_, hids, ?_⟩
  · intro rc hrc hpeer
    obtain ⟨hgone, -, -⟩ := h.fails rc hrc hpeer
    rw [hclient] at hgone
    exact hgone hrc
  · refine Finset.eq_empty_of_forall_notMem fun id hid => ?_
    have hstays := ((h.keeps id (hids id)).2 w.realPeer).2 hid
    rw [hsets, if_pos rfl] at hstays
    exact absurd hstays (Finset.notMem_empty id)

/-- A call of `Recv` or `Send` on a connection that is up answers false.  Its report, passed
through `dispatch_msg` in any state of the tables and of the client, fails the calls to the logic
peer of the connection and clears its pending ids, and nothing else, exactly when there is no
such call and no such id, and no id is listed for the real peer. -/
theorem broken_connection_fails_calls_iff (w : Worker) (hconn : w.connState = .connected)
    (nm : Net.NotifyMessage) (hreport : Reports w nm) (client : SyncClient RcvMessage)
    (labels : List (MapLabel Nat Client NetPeerInfo)) (m : Mapper Nat Client NetPeerInfo)
    (hrun : Runs.run mapStep Mapper.new labels = some m) :
    (∃ target s', Messenger.dispatchMsg ⟨false, m.tables, client⟩ nm = .ok (target, s') ∧
      FailsCalls w.logicPeer m.pending ⟨false, m.tables, client⟩ s') ↔
    NothingPending w.logicPeer w.realPeer m.pending ⟨false, m.tables, client⟩ := by
  have hpeer := reports_realPeer hconn hreport
  constructor
  · rintro ⟨target, s', hdispatch, hfails⟩
    exact hfails.nothingPending (run_hasHandlers hrun) rfl hpeer hdispatch
  · intro hnothing
    exact hnothing.failsCalls rfl hpeer

end Calls

/-- A connection that is up. -/
def connectedWorker (logicPeer realPeer : NetPeerInfo) : Worker :=
  { Worker.create pagePool logicPeer realPeer with connState := .connected }

/-- The peer closes the connection and the next `Recv` reports it. -/
theorem connectedWorker_reports (logicPeer realPeer : NetPeerInfo) :
    Reports (connectedWorker logicPeer realPeer)
      (.worker .closedByPeer realPeer (.closedBy realPeer.nat)) :=
  .inl ⟨pagePool, fun _ s => s, ⟨[], [.close], [], []⟩, _, _, rfl, rfl⟩

/-- A connection without calls breaks while a call to another peer waits, which goes on
waiting. -/
theorem broken_connection_fails_calls_iff_other_peer :
    let peer : NetPeerInfo := ⟨⟨"10.0.0.1", 7000⟩, .tcp⟩
    let other : NetPeerInfo := ⟨⟨"10.0.0.2", 7000⟩, .tcp⟩
    let client : SyncClient RcvMessage := SyncClient.new.register 7 other
    let tables : Tables Nat Client NetPeerInfo :=
      ⟨(∅ : AList fun _ : Nat => Client).insert 7 .sync,
        (∅ : AList fun _ : NetPeerInfo => Finset Nat).insert other ∅⟩
    ∃ target s', Messenger.dispatchMsg ⟨false, tables, client⟩
        (.worker .closedByPeer peer (.closedBy peer.nat)) = .ok (target, s') ∧
      FailsCalls peer (Function.update (fun _ => none) 7 (some (.sync, other)))
        ⟨false, tables, client⟩ s' := by
  intro peer other client tables
  have hne : other ≠ peer := by decide
  refine (broken_connection_fails_calls_iff (connectedWorker peer peer) rfl _
    (connectedWorker_reports peer peer) client [.add 7 .sync other]
    ⟨tables, Function.update (fun _ => none) 7 (some (.sync, other)), none, none⟩ rfl).2 ?_
  refine ⟨?_, ?_, ?_⟩
  · intro rc hrc
    have hlookup : ((∅ : AList fun _ : Nat => RpcCtx).insert 7 ⟨0, other, 7⟩).lookup rc.msgId =
        some rc := hrc
    rw [PageMap.lookup_insert_eq] at hlookup
    split_ifs at hlookup
    · rw [← Option.some.inj hlookup]
      exact hne
    · cases hlookup
  · intro id handler hid
    simp only [Function.update_apply] at hid
    split_ifs at hid
    exact hne (congrArg Prod.snd (Option.some.inj hid))
  · decide

/-- Two calls wait for an answer of a peer when the connection to it is closed, one that was
opened by this node or one that was accepted.  Neither call is completed, and both ids keep their
handlers. -/
theorem calls_survive_broken_connection :
    let peer : NetPeerInfo := ⟨⟨"10.0.0.1", 7000⟩, .tcp⟩
    let client : SyncClient RcvMessage := (SyncClient.new.register 7 peer).register 8 peer
    let labels : List (MapLabel Nat Client NetPeerInfo) := [.add 7 .sync peer, .add 8 .sync peer]
    ∃ m, Runs.run mapStep Mapper.new labels = some m ∧
      ∀ realPeer ∈ [peer, ⟨⟨"10.0.0.1", 51234⟩, .tcp⟩], ∃ nm,
        Reports (connectedWorker peer realPeer) nm ∧
        ∃ target s', Messenger.dispatchMsg ⟨false, m.tables, client⟩ nm = .ok (target, s') ∧
          s'.client = client ∧ IsPending s'.client ⟨0, peer, 7⟩ ∧
          IsPending s'.client ⟨1, peer, 8⟩ ∧
          s'.tables.msgHandlerMapper.lookup 7 = some .sync ∧
          s'.tables.msgHandlerMapper.lookup 8 = some .sync ∧
          ¬ FailsCalls peer m.pending ⟨false, m.tables, client⟩ s' := by
  intro peer client labels
  obtain ⟨m, hrun⟩ : ∃ m, Runs.run mapStep Mapper.new labels = some m := ⟨_, rfl⟩
  have hm : (m.tables.msgHandlerMapper.lookup 7, m.tables.msgHandlerMapper.lookup 8) =
      (some Client.sync, some Client.sync) := by
    cases hrun
    decide
  have hok : ∀ realPeer ∈ [peer, ⟨⟨"10.0.0.1", 51234⟩, .tcp⟩],
      (Messenger.dispatchMsg ⟨false, m.tables, client⟩
        (.worker .closedByPeer realPeer (.closedBy realPeer.nat))).toBool = true := by
    cases hrun
    decide +kernel
  refine ⟨m, hrun, ?_⟩
  intro realPeer hreal
  have hreport := connectedWorker_reports peer realPeer
  refine ⟨_, hreport, ?_⟩
  have hpeer := reports_realPeer rfl hreport
  obtain ⟨⟨target, s'⟩, hdispatch⟩ : ∃ r, Messenger.dispatchMsg ⟨false, m.tables, client⟩
      (.worker .closedByPeer realPeer (.closedBy realPeer.nat)) = .ok r := by
    have htrue := hok realPeer hreal
    cases hresult : Messenger.dispatchMsg ⟨false, m.tables, client⟩
        (.worker .closedByPeer realPeer (.closedBy realPeer.nat)) with
    | error fault => simp [hresult, Except.toBool] at htrue
    | ok r => exact ⟨r, rfl⟩
  obtain ⟨hclient, hmapper, -⟩ := dispatchMsg_report rfl hpeer hdispatch
  have hfirst : IsPending client ⟨0, peer, 7⟩ := by decide
  have hsecond : IsPending client ⟨1, peer, 8⟩ := by decide
  refine ⟨target, s', hdispatch, hclient, hclient ▸ hfirst, hclient ▸ hsecond, ?_, ?_, ?_⟩
  · rw [hmapper]
    exact congrArg Prod.fst hm
  · rw [hmapper]
    exact congrArg Prod.snd hm
  · intro hfails
    have hgone := (hfails.fails _ hfirst rfl).1
    rw [hclient] at hgone
    exact hgone hfirst

end Server
end CCraft
