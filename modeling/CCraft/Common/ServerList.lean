import CCraft.Common.ServerConfiguration
import Mathlib.Data.List.Forall2

/-!
# Accepted lists of servers

What a list of servers should be: every line that is neither blank nor a comment starts with a
positive id of 32 bits, an address and two ports of 16 bits, the ids are different, and the own
id is among them.  `Initialize` does not look for the own id, takes a port with a minus sign, and
rejects an id that does not fit into 31 bits.

Main results:

- Theorem {lit}`initializeFrom_eq_true_iff`: when `Initialize` returns true for a fresh object, and
  with which configuration.
- Theorem {lit}`foldl_store_holds`: the configuration holds the servers of the lines.
- Theorem {lit}`server_list_parsed_iff`: `Initialize` accepts exactly the lists of servers, up to
  these three differences.
-/

namespace CCraft
namespace Common

open TextFields RfServerConfiguration

/-! ## Lists of servers -/

/-- The line starts with the server: a positive id of 32 bits, an address and two ports of
16 bits. -/
structure Lists (line : List Char) (srv : RfServer) : Prop where
  pos : 0 < srv.id
  id : srv.id < 2 ^ 32
  portForServer : srv.portForServer < 2 ^ 16
  portForClient : srv.portForClient < 2 ^ 16
  starts : StartsWithServer line srv.id srv.addr srv.portForServer srv.portForClient

/-- The content lists the servers, with different ids, and one of them is the own id. -/
structure ServerList (content : List Char) (myId : Nat) (srvs : List RfServer) : Prop where
  lists : List.Forall₂ Lists (serverLines content) srvs
  nodup : (srvs.map RfServer.id).Nodup
  self : myId ∈ srvs.map RfServer.id

/-- The own server is the one with the own id, and the map holds exactly the others. -/
structure Holds (c : RfServerConfiguration) (myId : Nat) (srvs : List RfServer) : Prop where
  self : c.selfServer ∈ srvs ∧ c.selfServer.id = myId
  others : ∀ id srv, c.otherServers id = some srv ↔ srv ∈ srvs ∧ srv.id = id ∧ id ≠ myId

/-- A fresh object accepts the content exactly when it lists servers, and then holds them. -/
structure ParsesServerList (content : List Char) (myId : Nat) : Prop where
  accepts : (∃ c, RfServerConfiguration.new.initializeFrom myId (some content) = .returned true c) ↔
    ∃ srvs, ServerList content myId srvs
  holds : ∀ c, RfServerConfiguration.new.initializeFrom myId (some content) = .returned true c →
    ∃ srvs, ServerList content myId srvs ∧ Holds c myId srvs

/-- The stream reads a server from every line, and the ids are different. -/
structure Readable (content : List Char) (srvs : List RfServer) : Prop where
  reads : List.Forall₂ Reads (serverLines content) srvs
  nodup : (srvs.map RfServer.id).Nodup

/-- A content that can be read has the own id and no port with a minus sign, and a list of
servers has no id of more than 31 bits. -/
structure Regular (content : List Char) (myId : Nat) : Prop where
  self : ∀ srvs, Readable content srvs → myId ∈ srvs.map RfServer.id
  ports : ∀ srvs, Readable content srvs → ∀ line ∈ serverLines content, ∀ id addr p q,
    StartsWithServer line id addr p q → 0 ≤ p ∧ 0 ≤ q
  ids : ∀ srvs, ServerList content myId srvs → ∀ id ∈ srvs.map RfServer.id, id < 2 ^ 31

/-! ## Reading and listing a line -/

variable {content line addr addr' : List Char} {myId : Nat} {srv srv' : RfServer}
  {ls : List (List Char)} {srvs srvs' : List RfServer} {c : RfServerConfiguration}
  {id id' p p' q q' : Int}

/-- A line starts with one server only. -/
theorem StartsWithServer.unique (h : StartsWithServer line id addr p q)
    (h' : StartsWithServer line id' addr' p' q') : id = id' ∧ addr = addr' ∧ p = p' ∧ q = q' := by
  obtain ⟨l₁, l₂, l₃, l₄, hid, haddr, hp, hq⟩ := h
  obtain ⟨l₁', l₂', l₃', l₄', hid', haddr', hp', hq'⟩ := h'
  have hfirst := (numeral_eq_some_iff.2 hid).symm.trans (numeral_eq_some_iff.2 hid')
  cases hfirst
  have hsecond := (word_eq_some_iff.2 haddr).symm.trans (word_eq_some_iff.2 haddr')
  cases hsecond
  have hthird := (numeral_eq_some_iff.2 hp).symm.trans (numeral_eq_some_iff.2 hp')
  cases hthird
  have hfourth := (numeral_eq_some_iff.2 hq).symm.trans (numeral_eq_some_iff.2 hq')
  cases hfourth
  exact ⟨rfl, rfl, rfl, rfl⟩

/-- What a line that is read starts with. -/
theorem reads_iff :
    Reads line srv ↔
      ∃ p q : Int, StartsWithServer line srv.id srv.addr p q ∧ (0 < srv.id ∧ srv.id < 2 ^ 31) ∧
        ((-2 ^ 16 < p ∧ p < 2 ^ 16) ∧ (p % 2 ^ 16).toNat = srv.portForServer) ∧
        (-2 ^ 16 < q ∧ q < 2 ^ 16) ∧ (q % 2 ^ 16).toNat = srv.portForClient := by
  constructor
  · rintro ⟨f, hread, hpos, rfl⟩
    obtain ⟨p, q, hstarts, hrange, hp, hq⟩ := readServer_eq_some_iff.1 hread
    have hid : ((f.server.id : Nat) : Int) = f.id := Int.toNat_of_nonneg hpos.le
    refine ⟨p, q, ?_, ?_, hp, hq⟩
    · rw [hid]
      exact hstarts
    · omega
  · rintro ⟨p, q, hstarts, hrange, hp, hq⟩
    refine ⟨⟨srv.id, srv.addr, srv.portForServer, srv.portForClient⟩, ?_, ?_, rfl⟩
    · refine readServer_eq_some_iff.2 ⟨p, q, hstarts, ?_, hp, hq⟩
      simp only
      omega
    · simp only
      omega

theorem Reads.id_lt (h : Reads line srv) : srv.id < 2 ^ 31 := by
  obtain ⟨p, q, -, hid, -⟩ := reads_iff.1 h
  exact hid.2

/-- A line that is read and has no negative port lists the server. -/
theorem Reads.lists (h : Reads line srv)
    (hports : ∀ id addr p q, StartsWithServer line id addr p q → 0 ≤ p ∧ 0 ≤ q) :
    Lists line srv := by
  obtain ⟨p, q, hstarts, hid, ⟨hp, hps⟩, hq, hqc⟩ := reads_iff.1 h
  obtain ⟨hp0, hq0⟩ := hports _ _ p q hstarts
  have hps' : (srv.portForServer : Int) = p := by omega
  have hqc' : (srv.portForClient : Int) = q := by omega
  refine ⟨hid.1, by omega, by omega, by omega, ?_⟩
  rw [hps', hqc']
  exact hstarts

/-- A line that lists a server with an id of 31 bits is read. -/
theorem Lists.reads (h : Lists line srv) (hid : srv.id < 2 ^ 31) : Reads line srv := by
  have hps := h.portForServer
  have hpc := h.portForClient
  exact reads_iff.2 ⟨srv.portForServer, srv.portForClient, h.starts, ⟨h.pos, hid⟩,
    ⟨by omega, by omega⟩, by omega, by omega⟩

theorem Lists.ports_nonneg (h : Lists line srv) (hstarts : StartsWithServer line id addr p q) :
    0 ≤ p ∧ 0 ≤ q := by
  obtain ⟨-, -, rfl, rfl⟩ := hstarts.unique h.starts
  omega

/-- The ids of the lines do not depend on who reads them. -/
theorem map_id_eq (hreads : List.Forall₂ Reads ls srvs) (hlists : List.Forall₂ Lists ls srvs') :
    srvs.map RfServer.id = srvs'.map RfServer.id := by
  induction hreads generalizing srvs' with
  | nil =>
    cases hlists
    rfl
  | cons hread hreads ih =>
    cases hlists with
    | cons hlist hlists =>
      obtain ⟨p, q, hstarts, -⟩ := reads_iff.1 hread
      have hid := (hstarts.unique hlist.starts).1
      rw [List.map_cons, List.map_cons, ih hlists, Int.ofNat_inj.1 hid]

theorem ports_nonneg_of_lists (hlists : List.Forall₂ Lists ls srvs) :
    ∀ line ∈ ls, ∀ id addr p q, StartsWithServer line id addr p q → 0 ≤ p ∧ 0 ≤ q := by
  have hboth := hlists.imp (S := fun line srv =>
    (∀ id addr p q, StartsWithServer line id addr p q → 0 ≤ p ∧ 0 ≤ q) ∧ Lists line srv)
    fun line srv hline => ⟨fun _ _ _ _ => hline.ports_nonneg, hline⟩
  exact ((List.forall₂_and_left _ _).1 hboth).1

theorem id_lt_of_reads (hreads : List.Forall₂ Reads ls srvs) :
    ∀ k ∈ srvs.map RfServer.id, k < 2 ^ 31 := by
  intro k hk
  obtain ⟨srv, hsrv, rfl⟩ := List.mem_map.1 hk
  have hboth := hreads.flip.imp (S := fun srv line => srv.id < 2 ^ 31 ∧ Reads line srv)
    fun srv line hline => ⟨hline.id_lt, hline⟩
  exact ((List.forall₂_and_left _ _).1 hboth).1 srv hsrv

/-! ## What is stored -/

theorem new_free (hmyId : 0 < myId) (k : Nat) : RfServerConfiguration.new.Free myId k := by
  unfold Free RfServerConfiguration.new
  by_cases hk : k = myId
  · rw [if_pos hk]
    exact hmyId.ne
  · rw [if_neg hk]

/-- When `Initialize` returns true for a fresh object, and with which configuration. -/
theorem initializeFrom_eq_true_iff (hmyId : 0 < myId) :
    RfServerConfiguration.new.initializeFrom myId (some content) = .returned true c ↔
      ∃ srvs, Readable content srvs ∧ c = srvs.foldl (store myId) .new := by
  rw [RfServerConfiguration.initializeFrom, initializeLines_eq_returned]
  constructor
  · rintro ⟨stored, left, srvs, hsplit, ⟨hreads, hnodup, -⟩, heq, hends⟩
    obtain rfl : left = [] := hends
    rw [List.append_nil] at hsplit
    subst hsplit
    exact ⟨srvs, ⟨hreads, hnodup⟩, heq⟩
  · rintro ⟨srvs, hreadable, heq⟩
    exact ⟨serverLines content, [], srvs, (List.append_nil _).symm, ⟨hreadable.reads,
      hreadable.nodup, fun srv _ => new_free hmyId srv.id⟩, heq, rfl⟩

/-- Servers with different ids, the last one apart. -/
theorem nodup_map_id_append (h : ((srvs ++ [srv]).map RfServer.id).Nodup) :
    (srvs.map RfServer.id).Nodup ∧ ∀ srv' ∈ srvs, srv'.id ≠ srv.id := by
  rw [List.map_append, List.nodup_append] at h
  obtain ⟨hnodup, -, hapart⟩ := h
  exact ⟨hnodup, fun srv' hsrv' => hapart _ (List.mem_map_of_mem hsrv') _ (by simp)⟩

/-- The map of the others after some servers have been stored in a fresh object. -/
theorem foldl_store_otherServers (hnodup : (srvs.map RfServer.id).Nodup) {k : Nat} :
    (srvs.foldl (store myId) .new).otherServers k = some srv ↔
      srv ∈ srvs ∧ srv.id = k ∧ k ≠ myId := by
  induction srvs using List.reverseRecOn with
  | nil => simp [RfServerConfiguration.new]
  | append_singleton srvs last ih =>
    obtain ⟨hnodup, hapart⟩ := nodup_map_id_append hnodup
    rw [List.foldl_append, List.foldl_cons, List.foldl_nil, store]
    have hmem : srv ∈ srvs ++ [last] ↔ srv ∈ srvs ∨ srv = last := by simp
    rw [hmem]
    by_cases hself : last.id = myId
    · rw [if_pos hself, ih hnodup]
      constructor
      · rintro ⟨hsrv, hk⟩
        exact ⟨.inl hsrv, hk⟩
      · rintro ⟨hsrv | rfl, hid, hk⟩
        · exact ⟨hsrv, hid, hk⟩
        · exact absurd (hid.symm.trans hself) hk
    · rw [if_neg hself]
      by_cases hk : k = last.id
      · subst hk
        simp only [Function.update_self, Option.some.injEq]
        constructor
        · rintro rfl
          exact ⟨.inr rfl, rfl, hself⟩
        · rintro ⟨hsrv | rfl, hid, -⟩
          · exact absurd hid (hapart srv hsrv)
          · rfl
      · simp only [Function.update_of_ne hk, ih hnodup]
        constructor
        · rintro ⟨hsrv, hid⟩
          exact ⟨.inl hsrv, hid⟩
        · rintro ⟨hsrv | rfl, hid, hne⟩
          · exact ⟨hsrv, hid, hne⟩
          · exact absurd hid.symm hk

/-- The own server after some servers have been stored. -/
theorem foldl_store_selfServer (hnodup : (srvs.map RfServer.id).Nodup) (hsrv : srv ∈ srvs)
    (hid : srv.id = myId) : (srvs.foldl (store myId) c).selfServer = srv := by
  induction srvs using List.reverseRecOn with
  | nil => cases hsrv
  | append_singleton srvs last ih =>
    obtain ⟨hnodup, hapart⟩ := nodup_map_id_append hnodup
    rw [List.foldl_append, List.foldl_cons, List.foldl_nil, store]
    rcases List.mem_append.1 hsrv with hsrv | hlast
    · have hother : last.id ≠ myId := hid ▸ (hapart srv hsrv).symm
      rw [if_neg hother]
      exact ih hnodup hsrv
    · obtain rfl := List.mem_singleton.1 hlast
      rw [if_pos hid]

/-- A fresh object holds the servers that have been stored. -/
theorem foldl_store_holds (hnodup : (srvs.map RfServer.id).Nodup)
    (hself : myId ∈ srvs.map RfServer.id) :
    Holds (srvs.foldl (store myId) .new) myId srvs := by
  obtain ⟨srv, hsrv, hid⟩ := List.mem_map.1 hself
  have hown := foldl_store_selfServer (c := .new) hnodup hsrv hid
  exact ⟨by rw [hown]; exact ⟨hsrv, hid⟩, fun k srv => foldl_store_otherServers hnodup⟩

/-! ## Accepted contents -/

/-- Under the conditions what can be read is a list of servers. -/
theorem Readable.serverList (h : Readable content srvs) (hregular : Regular content myId) :
    ServerList content myId srvs := by
  refine ⟨?_, h.nodup, hregular.self srvs h⟩
  have hboth := (List.forall₂_and_left _ _).2 ⟨hregular.ports srvs h, h.reads⟩
  exact hboth.imp fun line srv hline => hline.2.lists hline.1

/-- Under the conditions a list of servers can be read. -/
theorem ServerList.readable (h : ServerList content myId srvs)
    (hregular : Regular content myId) : Readable content srvs := by
  refine ⟨?_, h.nodup⟩
  have hsmall : ∀ srv ∈ srvs, srv.id < 2 ^ 31 := fun srv hsrv =>
    hregular.ids srvs h srv.id (List.mem_map_of_mem hsrv)
  have hboth := (List.forall₂_and_left _ _).2 ⟨hsmall, h.lists.flip⟩
  exact (hboth.imp fun srv line hline => hline.2.reads hline.1).flip

/-- Lines of servers with ids of 31 bits, one of them the own id, meet the conditions. -/
theorem regular_of_lists (hlists : List.Forall₂ Lists (serverLines content) srvs)
    (hreads : List.Forall₂ Reads (serverLines content) srvs)
    (hself : myId ∈ srvs.map RfServer.id) : Regular content myId := by
  refine ⟨?_, fun _ _ => ports_nonneg_of_lists hlists, ?_⟩
  · intro srvs' hreadable
    rw [map_id_eq hreadable.reads hlists]
    exact hself
  · intro srvs' hlist
    rw [← map_id_eq hreads hlist.lists]
    exact id_lt_of_reads hreads

/-- For every content and own id: `Initialize` accepts the content exactly when it lists servers,
and then holds them, if and only if the own id is there whenever the lines can be read, no port
is negative then, and no id of a list has more than 31 bits. -/
theorem server_list_parsed_iff (content : List Char) {myId : Nat} (hmyId : 0 < myId) :
    ParsesServerList content myId ↔ Regular content myId := by
  constructor
  · intro hparses
    have hlisted : ∀ srvs, Readable content srvs → ∃ srvs', ServerList content myId srvs' :=
      fun srvs hreadable => hparses.accepts.1
        ⟨_, (initializeFrom_eq_true_iff hmyId).2 ⟨srvs, hreadable, rfl⟩⟩
    refine ⟨?_, ?_, ?_⟩
    · intro srvs hreadable
      obtain ⟨srvs', hlist⟩ := hlisted srvs hreadable
      rw [map_id_eq hreadable.reads hlist.lists]
      exact hlist.self
    · intro srvs hreadable
      obtain ⟨srvs', hlist⟩ := hlisted srvs hreadable
      exact ports_nonneg_of_lists hlist.lists
    · intro srvs hlist id hid
      obtain ⟨c, hreturned⟩ := hparses.accepts.2 ⟨srvs, hlist⟩
      obtain ⟨srvs', hreadable, -⟩ := (initializeFrom_eq_true_iff hmyId).1 hreturned
      rw [← map_id_eq hreadable.reads hlist.lists] at hid
      exact id_lt_of_reads hreadable.reads id hid
  · intro hregular
    refine ⟨⟨?_, ?_⟩, ?_⟩
    · rintro ⟨c, hreturned⟩
      obtain ⟨srvs, hreadable, -⟩ := (initializeFrom_eq_true_iff hmyId).1 hreturned
      exact ⟨srvs, hreadable.serverList hregular⟩
    · rintro ⟨srvs, hlist⟩
      exact ⟨_, (initializeFrom_eq_true_iff hmyId).2 ⟨srvs, hlist.readable hregular, rfl⟩⟩
    · intro c hreturned
      obtain ⟨srvs, hreadable, rfl⟩ := (initializeFrom_eq_true_iff hmyId).1 hreturned
      have hlist := hreadable.serverList hregular
      exact ⟨srvs, hlist, foldl_store_holds hlist.nodup hlist.self⟩

/-- The own server and another one, with a comment. -/
theorem server_list_parsed_two_servers :
    ParsesServerList "# servers\n1 a 80 81\n 2 b 82 83".toList 1 ∧
      ∃ c, RfServerConfiguration.new.initializeFrom 1
          (some "# servers\n1 a 80 81\n 2 b 82 83".toList) = .returned true c ∧
        c.selfServer = ⟨1, ['a'], 80, 81⟩ ∧ c.otherServers 2 = some ⟨2, ['b'], 82, 83⟩ := by
  have hself : Lists "1 a 80 81".toList ⟨1, ['a'], 80, 81⟩ :=
    ⟨by decide, by decide, by decide, by decide, _, _, _, _, numeral_eq_some_iff.1 rfl,
      word_eq_some_iff.1 rfl, numeral_eq_some_iff.1 rfl, numeral_eq_some_iff.1 rfl⟩
  have hother : Lists "2 b 82 83".toList ⟨2, ['b'], 82, 83⟩ :=
    ⟨by decide, by decide, by decide, by decide, _, _, _, _, numeral_eq_some_iff.1 rfl,
      word_eq_some_iff.1 rfl, numeral_eq_some_iff.1 rfl, numeral_eq_some_iff.1 rfl⟩
  refine ⟨(server_list_parsed_iff _ (by decide)).2 ?_, _, rfl, rfl, rfl⟩
  exact regular_of_lists (.cons hself (.cons hother .nil))
    (.cons (hself.reads (by decide)) (.cons (hother.reads (by decide)) .nil)) (by decide)

/-- A list without the own id is accepted, a port with a minus sign is taken for another one, and
an id of 32 bits is rejected. -/
theorem server_list_without_self_is_accepted :
    ¬ ParsesServerList "2 b 80 81".toList 1 ∧
      (∃ c, RfServerConfiguration.new.initializeFrom 1 (some "2 b 80 81".toList) =
        .returned true c ∧ c.selfServer.id = 0) ∧
      (∃ c, RfServerConfiguration.new.initializeFrom 1 (some "1 a -1 81".toList) =
        .returned true c ∧ c.selfServer.portForServer = 65535) ∧
      ∃ c, RfServerConfiguration.new.initializeFrom 2147483648 (some "2147483648 a 80 81".toList) =
        .returned false c := by
  refine ⟨?_, ⟨_, rfl, rfl⟩, ⟨_, rfl, rfl⟩, _, rfl⟩
  intro hparses
  obtain ⟨srvs, hlist⟩ := hparses.accepts.1 ⟨_, rfl⟩
  have hread : List.Forall₂ Reads (serverLines "2 b 80 81".toList) [⟨2, ['b'], 80, 81⟩] :=
    .cons ⟨⟨2, ['b'], 80, 81⟩, rfl, by decide, rfl⟩ .nil
  have hself := hlist.self
  rw [← map_id_eq hread hlist.lists] at hself
  exact absurd hself (by decide)

end Common
end CCraft
