import CCraft.Net.Phases

/-!
# Agreement of the handshake

One server and any number of clients, which may share addresses and logic ports, connect
over sockets that do not fail.  A client that has got the consent of the server twice is the
only one under its name: the server has registered its connection and keeps it, so every
other connection of that name is turned away by the server, and the client's own manager
never has another connection to the server when the client registers this one.

Main results:

- Theorem {lit}`ServerInv.client_free`: a client that registers its connection is not turned
  away.
- Theorem {lit}`handshake_agreement`: the ends of a connection agree in every state of every
  run, and a connection that is turned away leaves the one that was there.
-/

namespace CCraft
namespace Net

section Phases

variable {Node : Type} {site : Node → Site} {conn conn' : Connection Node}
variable {m m' : UniqueWorkerManager EndpointId} {id : EndpointId} {ok : Bool}
variable {p : ClientPhase} {q : ServerPhase}

/-! ## Phases of both ends -/

/-- When the client has the second consent of the server, or is registered itself, the
server is registered. -/
theorem Matches.server_isRegistered (h : Matches site conn p q)
    (hp : p = .acknowledged ∨ p.isRegistered = true) : q.isRegistered = true := by
  have hseen := h.client_seen
  have hreleased := h.released
  rcases hp with rfl | hp
  · cases q <;> simp_all [ClientPhase.row, ServerPhase.row, ServerPhase.isRegistered,
      errorResponse_ne.symm]
  · cases p <;> cases hp <;> cases q <;>
      simp_all [ClientPhase.row, ServerPhase.row, ServerPhase.isRegistered, errorResponse_ne.symm]

theorem Connection.Acts.refused_cases (h : Connection.Acts site m id conn ok conn' m') :
    conn'.refused = conn.refused ∨
      ∃ other, (conn.ends id.side).stage = .register ∧
        m.lookupWorker (conn.ends id.side).logicPeer = some other ∧
        conn'.refused = some (id.side, other) := by
  cases h with
  | refuse hstage htaken => exact .inr ⟨_, hstage, htaken, rfl⟩
  | _ => exact .inl rfl

/-- An action removes no registration. -/
theorem Connection.Acts.lookupWorker_mono (h : Connection.Acts site m id conn ok conn' m')
    {key : NetPeerInfo} {other : EndpointId} (hlookup : m.lookupWorker key = some other) :
    m'.lookupWorker key = some other := by
  cases h with
  | put hstage hfree =>
    rw [UniqueWorkerManager.lookupWorker_put hfree, if_neg]
    · exact hlookup
    · rintro rfl
      rw [hfree] at hlookup
      cases hlookup
  | _ => exact hlookup

end Phases

/-! ## One server -/

section Server

open Runs

variable {Node : Type} {site : Node → Site} {srv : Node} {n n' : Network Node}
variable {l : NetLabel Node} {id : EndpointId} {k : Nat} {conn : Connection Node}

/-- Only clients call `connect`, and they connect to the server. -/
def ConnectsTo (srv : Node) : NetLabel Node → Prop
  | .connect c s => s = srv ∧ c ≠ srv
  | _ => True

instance [DecidableEq Node] (srv : Node) (l : NetLabel Node) : Decidable (ConnectsTo srv l) :=
  match l with
  | .connect c s => inferInstanceAs (Decidable (s = srv ∧ c ≠ srv))
  | .establish _ _ _ | .act _ _ | .finish _ _ => isTrue trivial

/-- When a client is connected, the server has registered its end of the same connection
under the client's address and logic port, and the client has registered it too.  When a
server is connected, its client has seen the first consent and has sent its second message.
When an end was turned away, neither end is connected, and the end it was turned away for is
registered. -/
structure Agreement (site : Node → Site) (srv : Node) (n : Network Node) : Prop where
  client_connected : ∀ (k : Nat) (conn : Connection Node), n.conns[k]? = some conn →
    (conn.ends .client).connState = .connected →
    (n.managers srv).getWorkerEventHandler (site (conn.node .client)).logicPeer =
        some ⟨k, .server⟩ ∧
      (n.managers (conn.node .client)).getWorkerEventHandler (site srv).peer = some ⟨k, .client⟩
  server_connected : ∀ (k : Nat) (conn : Connection Node), n.conns[k]? = some conn →
    (conn.ends .server).connState = .connected →
    (conn.out .server).seen.head? = some okResponse ∧
      (conn.out .client).sent =
        [connectRequest (site (conn.node .client)).logicPort, okResponse]
  refused : ∀ (k : Nat) (conn : Connection Node) (side : CreatorType) (other : EndpointId),
    n.conns[k]? = some conn → conn.refused = some (side, other) →
    (conn.ends .client).connState ≠ .connected ∧ (conn.ends .server).connState ≠ .connected ∧
      (n.managers (conn.node side)).getWorkerEventHandler (conn.ends side).logicPeer = some other

/-- The invariant of a network with one server. -/
structure ServerInv (site : Node → Site) (srv : Node) (n : Network Node) : Prop where
  lossless : Lossless site n
  dialing : ∀ r ∈ n.dialing, r.2 = srv ∧ r.1 ≠ srv
  routes : ∀ (k : Nat) (conn : Connection Node), n.conns[k]? = some conn →
    conn.node .server = srv ∧ conn.node .client ≠ srv
  refused : ∀ (k : Nat) (conn : Connection Node) (side : CreatorType) (other : EndpointId),
    n.conns[k]? = some conn → conn.refused = some (side, other) →
    side = .server ∧
      (n.managers srv).lookupWorker (site (conn.node .client)).logicPeer = some other

theorem start_serverInv (site : Node → Site) (srv : Node) : ServerInv site srv .start := by
  refine ⟨start_lossless, ?_, ?_, ?_⟩ <;> simp [Network.start]

/-- The server keeps the connection of a registered client, or one that is about to
register, under the name of the client. -/
theorem ServerInv.server_found (h : ServerInv site srv n) (hconn : n.conns[k]? = some conn)
    {p : ClientPhase} {q : ServerPhase} (hmatches : Matches site conn p q)
    (hp : p = .acknowledged ∨ p.isRegistered = true) :
    (n.managers srv).lookupWorker (site (conn.node .client)).logicPeer = some ⟨k, .server⟩ := by
  have hq := hmatches.server_isRegistered hp
  have hstart : q ≠ .start := by
    rintro rfl
    cases hq
  have hentry := h.lossless.entries.entered ⟨k, .server⟩ _ _ (Network.view_eq hconn)
    (hmatches.server_registered.trans hq)
  rwa [hmatches.serverPeer hstart, (h.routes k conn hconn).1] at hentry

/-- A client that registers its connection finds its manager without one to the server. -/
theorem ServerInv.client_free (h : ServerInv site srv n) (hconn : n.conns[k]? = some conn)
    (hstage : (conn.ends .client).stage = .register) :
    (n.managers (conn.node .client)).lookupWorker (conn.ends .client).logicPeer = none := by
  obtain ⟨p, q, hmatches⟩ := h.lossless.phases k conn hconn
  have hp : p = .acknowledged := by
    have hrow := hstage.symm.trans (congrArg Row.stage hmatches.client)
    cases p <;> cases hrow
    rfl
  by_contra htaken
  obtain ⟨⟨j, side⟩, hlookup⟩ := Option.ne_none_iff_exists'.1 htaken
  obtain ⟨conn', hconn', hnode, -, hregistered⟩ := h.lossless.found hlookup
  simp only at hconn' hnode hregistered
  obtain ⟨p', q', hmatches'⟩ := h.lossless.phases j conn' hconn'
  cases side with
  | server =>
    exact (h.routes k conn hconn).2 (hnode.symm.trans (h.routes j conn' hconn').1)
  | client =>
    -- the other connection of the client is registered at the server under the same name
    have hp' : p'.isRegistered = true := hmatches'.client_registered.symm.trans hregistered
    have hfound := h.server_found hconn hmatches (.inl hp)
    have hfound' := h.server_found hconn' hmatches' (.inr hp')
    rw [hnode, hfound, Option.some.injEq, EndpointId.mk.injEq] at hfound'
    obtain ⟨rfl, -⟩ := hfound'
    rw [hconn, Option.some.injEq] at hconn'
    subst hconn'
    rw [← hmatches'.client_registered, hmatches.client_registered, hp] at hp'
    cases hp'

theorem ServerInv.agreement (h : ServerInv site srv n) : Agreement site srv n := by
  refine ⟨?_, ?_, ?_⟩
  · intro k conn hconn hstate
    obtain ⟨p, q, hmatches⟩ := h.lossless.phases k conn hconn
    have hp : p.isRegistered = true := by
      have hrow := hstate.symm.trans (congrArg Row.state hmatches.client)
      cases p <;> cases hrow <;> rfl
    refine ⟨h.server_found hconn hmatches (.inr hp), ?_⟩
    have hentry := h.lossless.entries.entered ⟨k, .client⟩ _ _ (Network.view_eq hconn)
      (hmatches.client_registered.trans hp)
    rwa [hmatches.clientPeer, (h.routes k conn hconn).1] at hentry
  · intro k conn hconn hstate
    obtain ⟨p, q, hmatches⟩ := h.lossless.phases k conn hconn
    have hrow := hstate.symm.trans (congrArg Row.state hmatches.server)
    have hseen := hmatches.server_seen
    have hclient : (conn.out .server).seen = (p.row (conn.request site)).seen :=
      congrArg Row.seen hmatches.client
    have hsent : (conn.out .client).sent = (p.row (conn.request site)).sent :=
      congrArg Row.sent hmatches.client
    rw [hclient, hsent]
    cases q <;> cases hrow <;> cases p <;>
      simp_all [ClientPhase.row, ServerPhase.row, Connection.request]
  · intro k conn side other hconn hrefused
    obtain ⟨p, q, hmatches⟩ := h.lossless.phases k conn hconn
    obtain ⟨rfl, hlookup⟩ := h.refused k conn side other hconn hrefused
    have hq : q.isRegistered = false ∧ q ≠ .start ∧
        (q.row (conn.request site)).state ≠ .connected := by
      rcases refusedIn_server (hmatches.refused.symm.trans hrefused) with rfl | rfl | rfl <;>
        exact ⟨rfl, by simp, by simp [ServerPhase.row]⟩
    refine ⟨?_, ?_, ?_⟩
    · intro hstate
      have hrow := hstate.symm.trans (congrArg Row.state hmatches.client)
      have hregistered : q.isRegistered = true := by
        refine hmatches.server_isRegistered (.inr ?_)
        cases p <;> cases hrow <;> rfl
      rw [hq.1] at hregistered
      cases hregistered
    · intro hstate
      exact hq.2.2 ((congrArg Row.state hmatches.server).symm.trans hstate)
    · rw [(h.routes k conn hconn).1, hmatches.serverPeer hq.2.1]
      exact hlookup

variable [DecidableEq Node]

/-- An action of an end. -/
theorem act_serverInv {conn' : Connection Node} {m' : UniqueWorkerManager EndpointId}
    (h : ServerInv site srv n) (hconn : n.conns[id.conn]? = some conn)
    (hacts : Connection.Acts site (n.managers (conn.node id.side)) id conn true conn' m') :
    ServerInv site srv (n.replace id.conn (conn.node id.side) (conn', m')) := by
  obtain ⟨hnode, -, -⟩ := hacts.frame
  have hkeeps : ∀ key other, (n.managers srv).lookupWorker key = some other →
      ((n.replace id.conn (conn.node id.side) (conn', m')).managers srv).lookupWorker key =
        some other := by
    intro key other hlookup
    rw [replace_managers]
    split_ifs with hx
    · exact hacts.lookupWorker_mono (hx ▸ hlookup)
    · exact hlookup
  refine ⟨act_lossless h.lossless hconn hacts, h.dialing, ?_, ?_⟩
  · intro k c hc
    rw [replace_conns hconn] at hc
    split_ifs at hc
    · cases hc
      rw [hnode]
      exact h.routes id.conn conn hconn
    · exact h.routes k c hc
  · intro k c side other hc hrefused
    rw [replace_conns hconn] at hc
    split_ifs at hc with hk
    · cases hc
      rcases hacts.refused_cases with hsame | ⟨other', hstage, htaken, hnew⟩
      · rw [hsame] at hrefused
        obtain ⟨hside, hlookup⟩ := h.refused id.conn conn side other hconn hrefused
        rw [hnode]
        exact ⟨hside, hkeeps _ _ hlookup⟩
      · simp only [hnew] at hrefused
        cases hrefused
        obtain ⟨j, side⟩ := id
        cases side with
        | client =>
          have hfree := h.client_free hconn hstage
          rw [htaken] at hfree
          cases hfree
        | server =>
          obtain ⟨p, q, hmatches⟩ := h.lossless.phases j conn hconn
          have hrow := hstage.symm.trans (congrArg Row.stage hmatches.server)
          have hstart : q ≠ .start := by
            rintro rfl
            cases hrow
          rw [hmatches.serverPeer hstart, (h.routes j conn hconn).1] at htaken
          rw [hnode]
          exact ⟨rfl, hkeeps _ _ htaken⟩
    · obtain ⟨hside, hlookup⟩ := h.refused k c side other hc hrefused
      exact ⟨hside, hkeeps _ _ hlookup⟩

variable [Fintype Node]

/-- Every step without a failure keeps the invariant. -/
theorem netStep_serverInv (h : ServerInv site srv n) (hreliable : l.Reliable)
    (hconnects : ConnectsTo srv l) (hstep : netStep site n l = some n') :
    ServerInv site srv n' := by
  have hlossless := netStep_lossless h.lossless hreliable hstep
  cases l with
  | connect c s =>
    obtain ⟨hconns, hmanagers, -, hdialing⟩ := netStep_connect hstep
    refine ⟨hlossless, ?_, ?_, ?_⟩
    · rcases hdialing with ⟨-, hdialing⟩ | ⟨-, hdialing⟩ <;> rw [hdialing]
      · exact h.dialing
      · exact List.forall_mem_append.2 ⟨h.dialing, List.forall_mem_singleton.2 hconnects⟩
    · rw [hconns]
      exact h.routes
    · rw [hconns, hmanagers]
      exact h.refused
  | establish k port ok =>
    obtain ⟨c, s, hk, hmanagers, -, hdialing, ⟨-, hconns⟩ | ⟨-, -, hconns⟩⟩ :=
      netStep_establish hstep
    all_goals
      have hrest : ∀ r ∈ n'.dialing, r.2 = srv ∧ r.1 ≠ srv := by
        intro r hr
        rw [hdialing] at hr
        exact h.dialing r (List.mem_of_mem_eraseIdx hr)
    · refine ⟨hlossless, hrest, ?_, ?_⟩
      · rw [hconns]
        exact h.routes
      · rw [hconns, hmanagers]
        exact h.refused
    · refine ⟨hlossless, hrest, ?_, ?_⟩
      · intro j conn hconn
        rcases Network.conns_append hconns hconn with hold | ⟨-, rfl⟩
        · exact h.routes j conn hold
        · exact h.dialing (c, s) (List.mem_of_getElem? hk)
      · intro j conn side other hconn hrefused
        rw [hmanagers]
        rcases Network.conns_append hconns hconn with hold | ⟨-, rfl⟩
        · exact h.refused j conn side other hold hrefused
        · cases hrefused
  | act id ok =>
    obtain ⟨conn, conn', m', hconn, hacts, rfl⟩ := netStep_act hstep
    obtain rfl : ok = true := hreliable
    exact act_serverInv h hconn hacts
  | finish id closed =>
    obtain ⟨conn, hconn, hlive, hclosed, -⟩ := netStep_finish hstep
    obtain ⟨p, q, hmatches⟩ := h.lossless.phases id.conn conn hconn
    obtain ⟨-, rfl, other, rfl⟩ := hmatches.live_closed hlive (hclosed hreliable).2
    cases (h.refused id.conn conn .client other hconn hmatches.refused).1

/-- One server, any number of clients with any addresses and logic ports, no failing
sockets: in every state of every run the ends of each connection agree. -/
theorem handshake_agreement (site : Node → Site) (srv : Node) (as : List (NetLabel Node))
    (hlabels : ∀ l ∈ as, l.Reliable ∧ ConnectsTo srv l) :
    Always (netStep site) (Agreement site srv) .start as := by
  have halways := always_of_forall (I := ServerInv site srv)
    (fun _ _ _ h hl hstep => netStep_serverInv h hl.1 hl.2 hstep) (start_serverInv site srv) hlabels
  exact halways.mono fun _ h => h.agreement

/-- Two clients with the same address and logic port: the one whose confirmation the server
handles first is connected, the other is turned away in its favour. -/
theorem handshake_agreement_same_name :
    let site : Fin 3 → Site := fun i =>
      ⟨if i = 0 then "10.0.0.9" else "10.0.0.1", 9000, 7000, by decide⟩
    let labels : List (NetLabel (Fin 3)) := [.connect 1 0, .connect 2 0, .establish 0 50000 true,
      .establish 0 50001 true, .act ⟨0, .client⟩ true, .act ⟨1, .client⟩ true,
      .act ⟨1, .server⟩ true, .act ⟨0, .server⟩ true, .act ⟨0, .server⟩ true,
      .act ⟨1, .server⟩ true, .act ⟨0, .client⟩ true, .act ⟨0, .client⟩ true,
      .act ⟨1, .client⟩ true, .act ⟨1, .client⟩ true, .act ⟨0, .server⟩ true,
      .act ⟨1, .server⟩ true, .act ⟨0, .server⟩ true, .act ⟨1, .server⟩ true,
      .act ⟨1, .server⟩ true, .act ⟨0, .server⟩ true, .act ⟨0, .client⟩ true,
      .act ⟨0, .client⟩ true, .act ⟨1, .client⟩ true]
    ∃ t : Network (Fin 3), run (netStep site) .start labels = some t ∧
      (t.conns[0]?).map (fun conn => (conn.ends .client).connState) = some .connected ∧
      (t.conns[1]?).map (fun conn => conn.refused) = some (some (.server, ⟨0, .server⟩)) ∧
      Always (netStep site) (Agreement site 0) .start labels := by
  intro site labels
  obtain ⟨t, hrun, hstate, hrefused⟩ : ∃ t ∈ run (netStep site) .start labels,
      (t.conns[0]?).map (fun conn => (conn.ends .client).connState) = some .connected ∧
        (t.conns[1]?).map (fun conn => conn.refused) = some (some (.server, ⟨0, .server⟩)) := by
    decide +kernel
  exact ⟨t, hrun, hstate, hrefused, handshake_agreement site 0 labels (by decide +kernel)⟩

end Server
end Net
end CCraft
