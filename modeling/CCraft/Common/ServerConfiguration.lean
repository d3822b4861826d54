import CCraft.Lib.TextFields

/-!
# Reading the list of servers

`RfServerConfiguration::Initialize` reads a file line by line.  Blank lines and comments are
skipped; every other line is read through a string stream into an id, an address and two ports,
and is stored at once as the own server or among the others.  A line that the stream cannot read
ends the call with false, an id that is not positive or that is there already with a fatal log.

A character stands for a byte of the file.  The stream reads the id into 32 bits with a sign; a
port is read into 16 bits without one, and there a minus sign is taken as well and negates the
number modulo `2 ^ 16`.

Main results:

- Theorem {lit}`readServer_eq_some_iff`: what a line that the stream can read starts with.
- Theorem {lit}`initializeLines_eq_returned`: what the loop has stored when it returns.
- Theorem {lit}`rejected_leaves_configuration_iff`: a rejected list leaves the configuration
  alone exactly when nothing is stored in front of the first line that cannot be read.
-/

namespace CCraft
namespace Common

open TextFields

/-! ## The configuration -/

/-- `RfServer`. -/
structure RfServer where
  id : Nat
  addr : List Char
  portForServer : Nat
  portForClient : Nat
deriving DecidableEq, Repr

/-- `RfServerConfiguration`: the own server and the map of the others. -/
structure RfServerConfiguration where
  selfServer : RfServer
  otherServers : Nat → Option RfServer

/-- A fresh object. -/
def RfServerConfiguration.new : RfServerConfiguration := ⟨⟨0, [], 0, 0⟩, fun _ => none⟩

/-- How `Initialize` ends: it returns, or a fatal log stops the process. -/
inductive InitResult where
  | returned (ok : Bool) (c : RfServerConfiguration)
  | fatal (message : String)

/-! ## A line -/

/-- `iss >> id` for `int32_t`. -/
def extractInt32 (l : List Char) : Option (Int × List Char) :=
  (numeral l).bind fun r => if -2 ^ 31 ≤ r.1 ∧ r.1 < 2 ^ 31 then some r else none

/-- `iss >> port` for `uint16_t`. -/
def extractUInt16 (l : List Char) : Option (Nat × List Char) :=
  (numeral l).bind fun r =>
    if -2 ^ 16 < r.1 ∧ r.1 < 2 ^ 16 then some ((r.1 % 2 ^ 16).toNat, r.2) else none

/-- The variables that a line is read into. -/
structure ServerFields where
  id : Int
  addr : List Char
  portForServer : Nat
  portForClient : Nat
deriving DecidableEq, Repr

/-- `iss >> id >> addr >> portForServer >> portForClient`. -/
def readServer (line : List Char) : Option ServerFields :=
  (extractInt32 line).bind fun id =>
  (word id.2).bind fun addr =>
  (extractUInt16 addr.2).bind fun portForServer =>
  (extractUInt16 portForServer.2).bind fun portForClient =>
  some ⟨id.1, addr.1, portForServer.1, portForClient.1⟩

/-- The server of a line with a positive id. -/
def ServerFields.server (f : ServerFields) : RfServer :=
  ⟨f.id.toNat, f.addr, f.portForServer, f.portForClient⟩

namespace RfServerConfiguration

/-- A server is stored. -/
def store (myId : Nat) (c : RfServerConfiguration) (srv : RfServer) : RfServerConfiguration :=
  if srv.id = myId then { c with selfServer := srv }
  else { c with otherServers := Function.update c.otherServers srv.id (some srv) }

/-- The rest of the loop for a line that has been read: the checks of the id and the storing. -/
def addServer (myId : Nat) (c : RfServerConfiguration) (f : ServerFields) :
    Except String RfServerConfiguration :=
  if f.id ≤ 0 then .error "Initialize: Server id must be larger than 0."
  else if f.server.id = myId then
    if c.selfServer.id = f.server.id then
      .error s!"Initialize: Server id {f.id} is duplicate!"
    else .ok (c.store myId f.server)
  else if (c.otherServers f.server.id).isSome then
    .error s!"Initialize: Server id {f.id} is duplicate!"
  else .ok (c.store myId f.server)

end RfServerConfiguration

/-- Behind the blanks a line is neither empty nor a comment. -/
def isServerLine (line : List Char) : Bool :=
  !(line.isEmpty || line.head? == some '#')

/-- The loop over the lines of the file. -/
def initializeLines (myId : Nat) : RfServerConfiguration → List (List Char) → InitResult
  | c, [] => .returned true c
  | c, line :: rest =>
    if isServerLine (dropSpaces line) = false then initializeLines myId c rest
    else
      match readServer (dropSpaces line) with
      | none => .returned false c
      | some f =>
        match c.addServer myId f with
        | .error message => .fatal message
        | .ok c' => initializeLines myId c' rest

/-- `RfServerConfiguration::Initialize` with the content of the file, if it can be opened. -/
def RfServerConfiguration.initializeFrom (c : RfServerConfiguration) (myId : Nat) :
    Option (List Char) → InitResult
  | none => .returned false c
  | some content => initializeLines myId c (lines content)

/-- The lines of the servers among some lines, without the blanks in front. -/
def serverLinesOf (ls : List (List Char)) : List (List Char) :=
  (ls.map dropSpaces).filter isServerLine

/-- The lines of the servers in a file. -/
def serverLines (content : List Char) : List (List Char) :=
  serverLinesOf (lines content)

/-! ## What a line starts with -/

variable {myId : Nat} {c c' : RfServerConfiguration} {line l rest : List Char}

/-- The line starts with a number for the id, a word for the address, and two numbers for the
ports. -/
def StartsWithServer (line : List Char) (id : Int) (addr : List Char)
    (portForServer portForClient : Int) : Prop :=
  ∃ l₁ l₂ l₃ l₄, StartsWithNumeral line id l₁ ∧ StartsWithWord l₁ addr l₂ ∧
    StartsWithNumeral l₂ portForServer l₃ ∧ StartsWithNumeral l₃ portForClient l₄

theorem extractInt32_eq_some_iff {v : Int} :
    extractInt32 l = some (v, rest) ↔ StartsWithNumeral l v rest ∧ -2 ^ 31 ≤ v ∧ v < 2 ^ 31 := by
  simp only [extractInt32, Option.bind_eq_some_iff, Option.ite_none_right_eq_some]
  constructor
  · rintro ⟨⟨v, r⟩, hnumeral, hrange, ⟨⟩⟩
    exact ⟨numeral_eq_some_iff.1 hnumeral, hrange⟩
  · rintro ⟨hstarts, hrange⟩
    exact ⟨(v, rest), numeral_eq_some_iff.2 hstarts, hrange, rfl⟩

/-- A number with a sign is read as a port if it fits into 16 bits without its sign. -/
theorem extractUInt16_eq_some_iff {port : Nat} :
    extractUInt16 l = some (port, rest) ↔
      ∃ v : Int, StartsWithNumeral l v rest ∧ (-2 ^ 16 < v ∧ v < 2 ^ 16) ∧
        (v % 2 ^ 16).toNat = port := by
  simp only [extractUInt16, Option.bind_eq_some_iff, Option.ite_none_right_eq_some]
  constructor
  · rintro ⟨⟨v, r⟩, hnumeral, hrange, ⟨⟩⟩
    exact ⟨v, numeral_eq_some_iff.1 hnumeral, hrange, rfl⟩
  · rintro ⟨v, hstarts, hrange, rfl⟩
    exact ⟨(v, rest), numeral_eq_some_iff.2 hstarts, hrange, rfl⟩

/-- What a line that the stream can read starts with. -/
theorem readServer_eq_some_iff {f : ServerFields} :
    readServer line = some f ↔
      ∃ p q : Int, StartsWithServer line f.id f.addr p q ∧ (-2 ^ 31 ≤ f.id ∧ f.id < 2 ^ 31) ∧
        ((-2 ^ 16 < p ∧ p < 2 ^ 16) ∧ (p % 2 ^ 16).toNat = f.portForServer) ∧
        (-2 ^ 16 < q ∧ q < 2 ^ 16) ∧ (q % 2 ^ 16).toNat = f.portForClient := by
  simp only [readServer, Option.bind_eq_some_iff, StartsWithServer]
  constructor
  · rintro ⟨⟨id, l₁⟩, hid, ⟨addr, l₂⟩, haddr, ⟨ps, l₃⟩, hps, ⟨pc, l₄⟩, hpc, ⟨⟩⟩
    obtain ⟨hid, hrange⟩ := extractInt32_eq_some_iff.1 hid
    obtain ⟨p, hp, hps⟩ := extractUInt16_eq_some_iff.1 hps
    obtain ⟨q, hq, hpc⟩ := extractUInt16_eq_some_iff.1 hpc
    exact ⟨p, q, ⟨l₁, l₂, l₃, l₄, hid, word_eq_some_iff.1 haddr, hp, hq⟩, hrange, hps, hpc⟩
  · rintro ⟨p, q, ⟨l₁, l₂, l₃, l₄, hid, haddr, hp, hq⟩, hrange, hps, hpc⟩
    exact ⟨(f.id, l₁), extractInt32_eq_some_iff.2 ⟨hid, hrange⟩, (f.addr, l₂),
      word_eq_some_iff.2 haddr, (f.portForServer, l₃),
      extractUInt16_eq_some_iff.2 ⟨p, hp, hps⟩, (f.portForClient, l₄),
      extractUInt16_eq_some_iff.2 ⟨q, hq, hpc⟩, rfl⟩

/-! ## Storing a server -/

namespace RfServerConfiguration

/-- The id is not taken: the own server has another id, or there is no other server with it. -/
def Free (myId : Nat) (c : RfServerConfiguration) (id : Nat) : Prop :=
  if id = myId then c.selfServer.id ≠ myId else c.otherServers id = none

/-- A line is stored exactly when its id is positive and not taken. -/
theorem addServer_eq_ok_iff {f : ServerFields} :
    c.addServer myId f = .ok c' ↔
      0 < f.id ∧ c.Free myId f.server.id ∧ c' = c.store myId f.server := by
  unfold addServer Free
  by_cases hpos : f.id ≤ 0
  · simp [hpos]
  by_cases hself : f.server.id = myId
  · by_cases htaken : c.selfServer.id = myId
    · simp [hpos, hself, htaken]
    · simp [hpos, hself, htaken, not_le.1 hpos, eq_comm]
  · cases hother : c.otherServers f.server.id with
    | none => simp [hpos, hself, not_le.1 hpos, eq_comm]
    | some srv => simp [hpos, hself]

/-- Storing a server takes its id and leaves the others free. -/
theorem free_store {srv : RfServer} {id : Nat} :
    (c.store myId srv).Free myId id ↔ c.Free myId id ∧ id ≠ srv.id := by
  unfold store Free
  by_cases hsrv : srv.id = myId
  · by_cases hid : id = myId
    · simp [hsrv, hid]
    · simp [hsrv, hid]
  · by_cases hid : id = myId
    · subst hid
      simp [hsrv, Ne.symm hsrv]
    · by_cases heq : id = srv.id
      · subst heq
        simp [hid]
      · simp [hsrv, hid, heq, Function.update_of_ne]

theorem free_foldl_store {srvs : List RfServer} {id : Nat} :
    (srvs.foldl (store myId) c).Free myId id ↔ c.Free myId id ∧ id ∉ srvs.map RfServer.id := by
  induction srvs generalizing c with
  | nil => simp
  | cons srv srvs ih =>
    rw [List.foldl_cons, ih, free_store, and_assoc, List.map_cons, List.mem_cons, not_or]

/-- A configuration changes with the first server that is stored. -/
theorem foldl_store_eq_self_iff {srvs : List RfServer} (hfree : ∀ srv ∈ srvs, c.Free myId srv.id) :
    srvs.foldl (store myId) c = c ↔ srvs = [] := by
  constructor
  · intro hsame
    by_contra hne
    obtain ⟨srv, rest, rfl⟩ := List.exists_cons_of_ne_nil hne
    have hkept : (List.foldl (store myId) c (srv :: rest)).Free myId srv.id := by
      rw [hsame]
      exact hfree srv (by simp)
    exact (free_foldl_store.1 hkept).2 (by simp)
  · rintro rfl
    rfl

end RfServerConfiguration

/-! ## The loop -/

open RfServerConfiguration

variable {ls stored left : List (List Char)} {srvs : List RfServer} {ok : Bool}

/-- The stream reads a server with a positive id from the line. -/
def Reads (line : List Char) (srv : RfServer) : Prop :=
  ∃ f, readServer line = some f ∧ 0 < f.id ∧ f.server = srv

/-- The loop ends with true behind the last line, and with false at a line that cannot be
read. -/
def EndsAt : Bool → List (List Char) → Prop
  | true, left => left = []
  | false, left => ∃ bad rest, left = bad :: rest ∧ readServer bad = none

/-- The lines are those of servers with distinct ids, none of which is taken. -/
structure Storable (myId : Nat) (c : RfServerConfiguration) (stored : List (List Char))
    (srvs : List RfServer) : Prop where
  reads : List.Forall₂ Reads stored srvs
  nodup : (srvs.map RfServer.id).Nodup
  free : ∀ srv ∈ srvs, c.Free myId srv.id

/-- What the loop has done when it returns: it has stored the servers of some lines and has
stopped in front of the others. -/
structure Stored (myId : Nat) (c : RfServerConfiguration) (stored left : List (List Char))
    (srvs : List RfServer) (ok : Bool) (c' : RfServerConfiguration) : Prop
    extends Storable myId c stored srvs where
  eq : c' = srvs.foldl (store myId) c
  ends : EndsAt ok left

/-- One more line in front. -/
theorem stored_cons_iff {srv : RfServer} :
    Stored myId c (line :: stored) left (srv :: srvs) ok c' ↔
      Reads line srv ∧ c.Free myId srv.id ∧
        Stored myId (c.store myId srv) stored left srvs ok c' := by
  constructor
  · rintro ⟨⟨hreads, hnodup, hfree⟩, heq, hends⟩
    obtain ⟨hline, hreads⟩ := List.forall₂_cons.1 hreads
    obtain ⟨hnew, hnodup⟩ := List.nodup_cons.1 hnodup
    refine ⟨hline, hfree srv (by simp), ⟨hreads, hnodup, ?_⟩, heq, hends⟩
    intro srv' hsrv'
    refine free_store.2 ⟨hfree srv' (by simp [hsrv']), ?_⟩
    intro heq
    exact hnew (heq ▸ List.mem_map_of_mem hsrv')
  · rintro ⟨hline, hsrv, ⟨hreads, hnodup, hfree⟩, heq, hends⟩
    refine ⟨⟨.cons hline hreads, ?_, ?_⟩, heq, hends⟩
    · refine List.nodup_cons.2 ⟨?_, hnodup⟩
      intro hmem
      obtain ⟨srv', hsrv', hid⟩ := List.mem_map.1 hmem
      exact (free_store.1 (hfree srv' hsrv')).2 hid
    · intro srv' hsrv'
      rcases List.mem_cons.1 hsrv' with rfl | hsrv'
      · exact hsrv
      · exact (free_store.1 (hfree srv' hsrv')).1

theorem serverLinesOf_cons_of_skipped (h : isServerLine (dropSpaces line) = false) :
    serverLinesOf (line :: ls) = serverLinesOf ls := by
  simp [serverLinesOf, h]

theorem serverLinesOf_cons_of_server (h : isServerLine (dropSpaces line) = true) :
    serverLinesOf (line :: ls) = dropSpaces line :: serverLinesOf ls := by
  simp [serverLinesOf, h]

/-- What the loop does behind a state: it returns with the servers of some lines stored. -/
def ReturnsWith (myId : Nat) (c : RfServerConfiguration) (ls : List (List Char)) (ok : Bool)
    (c' : RfServerConfiguration) : Prop :=
  ∃ stored left srvs, ls = stored ++ left ∧ Stored myId c stored left srvs ok c'

theorem returnsWith_nil : ReturnsWith myId c [] ok c' ↔ ok = true ∧ c' = c := by
  constructor
  · rintro ⟨stored, left, srvs, hsplit, ⟨hreads, -, -⟩, heq, hends⟩
    obtain ⟨rfl, rfl⟩ := List.append_eq_nil_iff.1 hsplit.symm
    cases hreads
    cases ok with
    | true => exact ⟨rfl, heq⟩
    | false =>
      obtain ⟨bad, rest, hbad, -⟩ := hends
      cases hbad
  · rintro ⟨rfl, rfl⟩
    exact ⟨[], [], [], rfl, ⟨.nil, List.nodup_nil, by simp⟩, rfl, rfl⟩

/-- At a line the loop stops, or it stores the server of the line and goes on. -/
theorem returnsWith_cons :
    ReturnsWith myId c (line :: ls) ok c' ↔
      (readServer line = none ∧ ok = false ∧ c' = c) ∨
        ∃ f, readServer line = some f ∧ 0 < f.id ∧ c.Free myId f.server.id ∧
          ReturnsWith myId (c.store myId f.server) ls ok c' := by
  constructor
  · rintro ⟨stored, left, srvs, hsplit, h⟩
    cases stored with
    | nil =>
      obtain rfl : left = line :: ls := hsplit.symm
      obtain ⟨⟨hreads, -, -⟩, heq, hends⟩ := h
      cases hreads
      cases ok with
      | true => cases hends
      | false =>
        obtain ⟨bad, rest, ⟨⟩, hbad⟩ := hends
        exact .inl ⟨hbad, rfl, heq⟩
    | cons line' stored =>
      cases hsplit
      cases srvs with
      | nil => cases h.reads
      | cons srv srvs =>
        obtain ⟨⟨f, hread, hpos, rfl⟩, hfree, hrest⟩ := stored_cons_iff.1 h
        exact .inr ⟨f, hread, hpos, hfree, stored, left, srvs, rfl, hrest⟩
  · rintro (⟨hread, rfl, rfl⟩ | ⟨f, hread, hpos, hfree, stored, left, srvs, rfl, h⟩)
    · exact ⟨[], line :: ls, [], rfl, ⟨.nil, List.nodup_nil, by simp⟩, rfl, line, ls, rfl, hread⟩
    · exact ⟨line :: stored, left, f.server :: srvs, rfl,
        stored_cons_iff.2 ⟨⟨f, hread, hpos, rfl⟩, hfree, h⟩⟩

/-- What the loop has done when it returns. -/
theorem initializeLines_eq_returned :
    initializeLines myId c ls = .returned ok c' ↔
      ReturnsWith myId c (serverLinesOf ls) ok c' := by
  induction ls generalizing c with
  | nil =>
    simp only [initializeLines, InitResult.returned.injEq, serverLinesOf, List.map_nil,
      List.filter_nil, returnsWith_nil, eq_comm]
  | cons line ls ih =>
    unfold initializeLines
    cases hline : isServerLine (dropSpaces line) with
    | false => simp only [if_true, ih, serverLinesOf_cons_of_skipped hline]
    | true =>
      rw [if_neg (by simp), serverLinesOf_cons_of_server hline, returnsWith_cons]
      cases hread : readServer (dropSpaces line) with
      | none => simp [eq_comm]
      | some f =>
        cases hadd : c.addServer myId f with
        | error message =>
          have hnot : ¬ (0 < f.id ∧ c.Free myId f.server.id) := by
            rintro ⟨hpos, hfree⟩
            rw [addServer_eq_ok_iff.2 ⟨hpos, hfree, rfl⟩] at hadd
            cases hadd
          simp only [hadd, reduceCtorEq, false_and, Option.some.injEq, false_or, false_iff]
          rintro ⟨f', rfl, hpos, hfree, -⟩
          exact hnot ⟨hpos, hfree⟩
        | ok c₁ =>
          obtain ⟨hpos, hfree, rfl⟩ := addServer_eq_ok_iff.1 hadd
          simp [hadd, ih, hpos, hfree]

/-! ## A rejected list -/

/-- For every configuration, id and file: if `Initialize` returns false it leaves the
configuration alone, exactly when no line of a server that is stored comes in front of the first
line that cannot be read. -/
theorem rejected_leaves_configuration_iff (c : RfServerConfiguration) (myId : Nat)
    (file : Option (List Char)) :
    (∀ c', c.initializeFrom myId file = .returned false c' → c' = c) ↔
      ∀ content stored bad rest srvs, file = some content →
        serverLines content = stored ++ bad :: rest → readServer bad = none →
        Storable myId c stored srvs → stored = [] := by
  constructor
  · rintro hsame content stored bad rest srvs rfl hsplit hbad hstorable
    have hc := hsame (srvs.foldl (store myId) c) (initializeLines_eq_returned.2
      ⟨stored, bad :: rest, srvs, hsplit, hstorable, rfl, bad, rest, rfl, hbad⟩)
    obtain rfl := (foldl_store_eq_self_iff hstorable.free).1 hc
    exact List.forall₂_nil_right_iff.1 hstorable.reads
  · intro hfirst c' hreturned
    cases file with
    | none =>
      cases hreturned
      rfl
    | some content =>
      obtain ⟨stored, left, srvs, hsplit, h⟩ := initializeLines_eq_returned.1 hreturned
      obtain ⟨bad, rest, rfl, hbad⟩ := h.ends
      obtain rfl := hfirst content stored bad rest srvs rfl hsplit hbad h.toStorable
      obtain rfl := List.forall₂_nil_left_iff.1 h.reads
      exact h.eq

/-- The first line of a server cannot be read. -/
theorem rejected_leaves_fresh_configuration :
    (∃ c', RfServerConfiguration.new.initializeFrom 1 (some "# id\none\n2 b 80 81\n".toList) =
      .returned false c') ∧
    ∀ c', RfServerConfiguration.new.initializeFrom 1 (some "# id\none\n2 b 80 81\n".toList) =
      .returned false c' → c' = .new := by
  refine ⟨⟨_, rfl⟩, (rejected_leaves_configuration_iff .new 1 _).2 ?_⟩
  intro content stored bad rest srvs hfile hsplit _ hstorable
  cases hfile
  cases hreads : hstorable.reads with
  | nil => rfl
  | cons hline _ =>
    -- the first line is the one that is not read
    have hlines : serverLines "# id\none\n2 b 80 81\n".toList =
        ["one".toList, "2 b 80 81".toList] := rfl
    rw [hlines] at hsplit
    obtain ⟨rfl, -⟩ := List.cons.inj hsplit
    obtain ⟨f, hread, -⟩ := hline
    cases hread

/-- A line that cannot be read comes behind the line of another server, which is stored. -/
theorem rejected_list_is_stored :
    ∃ c', RfServerConfiguration.new.initializeFrom 1 (some "2 b 80 81\none\n".toList) =
        .returned false c' ∧ c' ≠ .new ∧ c'.otherServers 2 = some ⟨2, ['b'], 80, 81⟩ := by
  refine ⟨_, rfl, ?_, rfl⟩
  intro heq
  have hother := congrArg (fun c => c.otherServers 2) heq
  cases hother

end Common
end CCraft
