import CCraft.Raft.Election
import CCraft.Raft.State

/-!
# Terms across restarts

`start_new_election` increments the term, saves it and then broadcasts the requests for votes.  The
process can end at any point and be started again; what it then knows is what is in its state file.
The vote that is saved with the term is always the server's own, so the encodings in the file only
grow, and nothing of an old one is left behind a new one.

A crash does not cut a write in two here.

Main results:

- Theorem {lit}`nodeStep_inv`: the file has a term that no broadcast exceeds, and that the next
  broadcast comes up to.
- Theorem {lit}`broadcast_terms_increase`: every broadcast has a larger term than all earlier ones.
-/

namespace CCraft
namespace Raft

open RfLog Net Rpc Runs WireFormat

/-! ## A server that crashes and restarts -/

/-- The requests of one broadcast. -/
abbrev Broadcast := List (NetPeerInfo × RequestVoteRequest)

/-- The requests that are still to be handed to the pool. -/
def ElectionPc.requests : ElectionPc → Broadcast
  | .broadcasting msgs => msgs
  | _ => []

/-- A process, and whether the pair that it holds has been saved. -/
structure Process where
  election : Election
  saved : Bool

/-- A server: its state file, the process if there is one, and the requests of all broadcasts so
far. -/
structure Node where
  file : Option (List UInt8)
  process : Option Process
  broadcasts : List Broadcast

/-- A server that has never run. -/
def Node.new : Node :=
  ⟨none, none, []⟩

/-- The process is started or ends, `save_rf_state`, or any other step of an election. -/
inductive NodeLabel where
  | boot
  | crash
  | save
  | election (a : ElectionLabel)

/-- The pair that a process holds. -/
def Process.state (p : Process) : RaftState :=
  ⟨p.election.currentTerm, p.election.voteFor⟩

/-- The steps.  There is a process if `initialize` returns; `start_new_election` saves between the
increment of the term and the broadcast. -/
def nodeStep (E : StateEnv) (c : Candidate) (s : Node) : NodeLabel → Option Node
  | .boot =>
    match s.process with
    | none =>
      some { s with
        file := (boot E s.file).2
        process := (boot E s.file).1.toOption.map fun st =>
          ⟨Election.start st.currentTerm st.votedFor, true⟩ }
    | some _ => none
  | .crash => some { s with process := none }
  | .save =>
    match s.process with
    | some p =>
      if p.election.pc = .prepared ∧ p.saved = false then
        let w := saveRfState E p.state s.file
        some { s with
          file := w.2
          process := if w.1 then some { p with saved := true } else none }
      else none
    | none => none
  | .election a =>
    match s.process with
    | some p =>
      if a = .broadcast ∧ p.saved = false then none
      else
        (electionStep c p.election a).map fun e =>
          { s with
            process := some ⟨e, p.saved && decide (a ≠ .advance)⟩
            broadcasts :=
              if a = .broadcast then s.broadcasts ++ [e.pc.requests] else s.broadcasts }
    | none => none

/-! ## Encodings grow -/

section Encodings

variable {r : RaftState} {term value value' : UInt32}

theorem fieldBytes_length_mono (number : Nat) (h : value.toNat ≤ value'.toNat) :
    (RaftState.fieldBytes number value).length ≤ (RaftState.fieldBytes number value').length := by
  unfold RaftState.fieldBytes
  split_ifs with hzero hzero'
  · exact Nat.le_refl _
  · exact Nat.zero_le _
  · have hnonzero : value.toNat ≠ 0 := fun heq => hzero (UInt32.toNat_inj.1 heq)
    rw [‹value' = 0›] at h
    exact absurd (Nat.le_zero.1 h) hnonzero
  · simp only [Field.encode, List.length_append]
    exact Nat.add_le_add_left (encodeVarint_length_mono h) _

/-- The next pair that is saved is not shorter than the one in the file. -/
theorem encode_length_le_of_next {myId : UInt32} (hvote : r.votedFor.toNat ≤ myId.toNat)
    (hterm : r.currentTerm.toNat ≤ term.toNat) :
    r.encode.length ≤ (RaftState.encode ⟨term, myId⟩).length := by
  have h1 := fieldBytes_length_mono 1 hterm
  have h2 := fieldBytes_length_mono 2 hvote
  simp only [RaftState.encode, List.length_append]
  omega

/-- The file after a save of the next pair. -/
theorem saveRfState_next {E : StateEnv} {myId : UInt32} (hvote : r.votedFor.toNat ≤ myId.toNat)
    (hterm : r.currentTerm.toNat ≤ term.toNat) :
    (saveRfState E ⟨term, myId⟩ (some (fileHeader ++ r.encode))).2 =
      some (fileHeader ++ (RaftState.encode ⟨term, myId⟩)) := by
  rw [saveRfState_file, Option.map_some, overwrite_header,
    List.drop_of_length_le (encode_length_le_of_next hvote hterm), List.append_nil]

end Encodings

/-! ## The invariant -/

/-- Every broadcast has a larger term than all earlier ones. -/
def Increasing (broadcasts : List Broadcast) : Prop :=
  broadcasts.Pairwise fun msgs msgs' =>
    ∀ m ∈ msgs, ∀ m' ∈ msgs', m.2.term.toNat < m'.2.term.toNat

/-- What a process knows about the pair in its file. -/
structure KnowsTerm (myId : UInt32) (r : RaftState) (broadcasts : List Broadcast) (p : Process) :
    Prop where
  saved : p.saved = true → p.election.currentTerm = r.currentTerm
  unsaved : p.saved = false → p.election.currentTerm.toNat = r.currentTerm.toNat + 1 ∧
    p.election.voteFor = myId ∧ p.election.pc = .prepared
  fresh : p.saved = true → p.election.pc = .prepared →
    ∀ msgs ∈ broadcasts, ∀ m ∈ msgs, m.2.term.toNat < r.currentTerm.toNat

/-- The invariant: the file holds a pair that no broadcast exceeds; a server that has never run is
to create it. -/
structure TermsInv (c : Candidate) (s : Node) (r : RaftState) : Prop where
  file_eq : s.file = some (fileHeader ++ r.encode) ∨ s = Node.new ∧ r = .initial
  vote_le : r.votedFor.toNat ≤ c.myId.toNat
  terms_le : ∀ msgs ∈ s.broadcasts, ∀ m ∈ msgs, m.2.term.toNat ≤ r.currentTerm.toNat
  process : ∀ p, s.process = some p → KnowsTerm c.myId r s.broadcasts p
  increasing : Increasing s.broadcasts

/-- The term is not incremented beyond its largest value. -/
def NoOverflow (s : Node) : NodeLabel → Prop
  | .election .advance =>
    s.process.all (fun p => p.election.currentTerm.toNat + 1 < 2 ^ 32) = true
  | _ => True

section Steps

variable {E : StateEnv} {c : Candidate} {s s' : Node} {a : NodeLabel} {r : RaftState}
  {p : Process} {e : Election}

theorem TermsInv.new : TermsInv c Node.new .initial :=
  ⟨.inr ⟨rfl, rfl⟩, Nat.zero_le _, by simp [Node.new], nofun, .nil⟩

/-- A process has a file. -/
theorem TermsInv.file (h : TermsInv c s r) (hp : s.process = some p) :
    s.file = some (fileHeader ++ r.encode) := by
  rcases h.file_eq with hfile | ⟨rfl, -⟩
  · exact hfile
  · cases hp

/-- The process goes on. -/
theorem TermsInv.go (h : TermsInv c s r) (hp : s.process = some p) {q : Process}
    (hq : KnowsTerm c.myId r s.broadcasts q) : TermsInv c { s with process := some q } r := by
  refine ⟨.inl (h.file hp), h.vote_le, h.terms_le, ?_, h.increasing⟩
  rintro _ ⟨rfl⟩
  exact hq

theorem readState_encode (E : StateEnv) (r : RaftState) :
    readState E (some (fileHeader ++ r.encode)) = .ok r := by
  have hlen := r.encode_length_le
  rw [readState_header (by omega), parse_encode]

theorem boot_some_file (E : StateEnv) (file : List UInt8) : (boot E (some file)).2 = some file := by
  simp only [boot]
  split
  · rfl
  · split_ifs
    · rfl
    · split <;> rfl

/-- A process that has been started holds the pair of the file. -/
theorem boot_inv (h : TermsInv c s r) (hstep : nodeStep E c s .boot = some s') :
    TermsInv c s' r := by
  simp only [nodeStep] at hstep
  split at hstep
  case h_2 => cases hstep
  cases hstep
  have hfile : (boot E s.file).2 = some (fileHeader ++ r.encode) ∧
      ∀ st, (boot E s.file).1 = .ok st → st = r := by
    rcases h.file_eq with hfile | ⟨rfl, rfl⟩
    · refine ⟨by rw [hfile, boot_some_file], fun st hst => ?_⟩
      have hread := ((boot_ok_iff s.file).1 hst).1
      rw [hfile, readState_encode] at hread
      exact (Except.ok.inj hread).symm
    · -- the file is created with the header
      exact ⟨rfl, fun st hst => (Except.ok.inj hst).symm⟩
  refine ⟨.inl hfile.1, h.vote_le, h.terms_le, fun p hp => ?_, h.increasing⟩
  cases hresult : (boot E s.file).1 with
  | error fault => simp [hresult, Except.toOption] at hp
  | ok st =>
    rw [hresult] at hp
    cases hp
    exact ⟨fun _ => congrArg RaftState.currentTerm (hfile.2 st hresult), nofun, fun _ => nofun⟩

theorem save_inv (h : TermsInv c s r) (hstep : nodeStep E c s .save = some s') :
    ∃ r', TermsInv c s' r' := by
  simp only [nodeStep] at hstep
  split at hstep
  case h_2 => cases hstep
  next p hp =>
  obtain ⟨hguard, hstep⟩ := Option.ite_none_right_eq_some.1 hstep
  cases hstep
  obtain ⟨hterm, hvote, -⟩ := (h.process p hp).unsaved hguard.2
  have hstate : p.state = ⟨p.election.currentTerm, c.myId⟩ := by rw [Process.state, hvote]
  -- all earlier broadcasts have smaller terms
  have hless : ∀ msgs ∈ s.broadcasts, ∀ m ∈ msgs,
      m.2.term.toNat < p.election.currentTerm.toNat := by
    intro msgs hmsgs m hm
    have hle := h.terms_le msgs hmsgs m hm
    omega
  refine ⟨p.state, .inl ?_, hvote ▸ Nat.le_refl _,
    fun msgs hmsgs m hm => (hless msgs hmsgs m hm).le, ?_, h.increasing⟩
  · rw [h.file hp, hstate]
    exact saveRfState_next h.vote_le (by omega)
  · intro q hq
    dsimp only at hq
    split_ifs at hq
    cases hq
    exact ⟨fun _ => rfl, nofun, fun _ _ => hless⟩

/-- A step of an election that changes neither the term nor what was broadcast. -/
theorem KnowsTerm.keep {broadcasts : List Broadcast} (h : KnowsTerm c.myId r broadcasts p)
    (hterm : e.currentTerm = p.election.currentTerm) (hvote : e.voteFor = p.election.voteFor)
    (hpc : e.pc = .prepared ↔ p.election.pc = .prepared) :
    KnowsTerm c.myId r broadcasts ⟨e, p.saved⟩ := by
  refine ⟨fun hsaved => hterm.trans (h.saved hsaved), fun hsaved => ?_,
    fun hsaved hprepared => h.fresh hsaved (hpc.1 hprepared)⟩
  obtain ⟨hnext, hown, hprepared⟩ := h.unsaved hsaved
  exact ⟨hterm ▸ hnext, hvote.trans hown, hpc.2 hprepared⟩

/-- The increment of the term. -/
theorem KnowsTerm.advance {broadcasts : List Broadcast} (h : KnowsTerm c.myId r broadcasts p)
    (hpc : p.election.pc = .cleared) (hroom : p.election.currentTerm.toNat + 1 < 2 ^ 32) :
    KnowsTerm c.myId r broadcasts ⟨p.election.advance c, false⟩ := by
  have hsaved : p.saved = true := by
    by_contra hnot
    have hprepared := (h.unsaved (Bool.not_eq_true _ ▸ hnot)).2.2
    rw [hpc] at hprepared
    cases hprepared
  refine ⟨nofun, fun _ => ⟨?_, rfl, rfl⟩, nofun⟩
  have hnext : (p.election.currentTerm + 1).toNat = p.election.currentTerm.toNat + 1 := by
    rw [UInt32.toNat_add]
    exact Nat.mod_eq_of_lt hroom
  rw [← h.saved hsaved]
  exact hnext

/-- The broadcast of a term that has been saved. -/
theorem broadcast_inv (h : TermsInv c s r) (hp : s.process = some p) (hsaved : p.saved = true)
    (hstep : electionStep c p.election .broadcast = some e) :
    TermsInv c { s with
      process := some ⟨e, p.saved⟩
      broadcasts := s.broadcasts ++ [e.pc.requests] } r := by
  obtain ⟨hprepared, hmsgs⟩ := Option.ite_none_right_eq_some.1 hstep
  split at hmsgs
  case h_2 => cases hmsgs
  next msgs hbroadcast =>
  cases hmsgs
  obtain ⟨last, -, rfl⟩ := broadcastRequestVote_ok_iff.1 hbroadcast
  have hknows := h.process p hp
  have hequal : ∀ m ∈ voteRequests p.election.currentTerm c.myId last c.otherSrvs,
      m.2.term.toNat = r.currentTerm.toNat := by
    intro m hm
    obtain ⟨srv, -, rfl⟩ := List.mem_map.1 hm
    exact congrArg UInt32.toNat (hknows.saved hsaved)
  refine ⟨.inl (h.file hp), h.vote_le, ?_, ?_, ?_⟩
  · refine List.forall_mem_append.2 ⟨h.terms_le, List.forall_mem_singleton.2 ?_⟩
    exact fun m hm => Nat.le_of_eq (hequal m hm)
  · rintro _ ⟨rfl⟩
    exact ⟨fun _ => hknows.saved hsaved, fun hnot => absurd (hsaved.symm.trans hnot) nofun,
      fun _ => nofun⟩
  · refine List.pairwise_append.2 ⟨h.increasing, List.pairwise_singleton _ _, ?_⟩
    intro msgs hmsgs msgs' hmsgs' m hm m' hm'
    obtain rfl := List.mem_singleton.1 hmsgs'
    rw [hequal m' hm']
    exact hknows.fresh hsaved hprepared msgs hmsgs m hm

/-- Only the increment and the broadcast concern the term. -/
theorem electionStep_keeps {a : ElectionLabel} {x : Election} (hadvance : a ≠ .advance)
    (hbroadcast : a ≠ .broadcast) (hstep : electionStep c x a = some e) :
    e.currentTerm = x.currentTerm ∧ e.voteFor = x.voteFor ∧
      (e.pc = .prepared ↔ x.pc = .prepared) := by
  cases a with
  | advance => exact absurd rfl hadvance
  | broadcast => exact absurd rfl hbroadcast
  | subscribe =>
    obtain ⟨hpc, he⟩ := Option.ite_none_right_eq_some.1 hstep
    cases he
    exact ⟨rfl, rfl, by simp [hpc]⟩
  | clear =>
    cases electionStep_move hstep with
    | clear hpc => exact ⟨rfl, rfl, by simp [hpc, Election.clear]⟩
  | addTask =>
    cases electionStep_move hstep with
    | addTask hpc => exact ⟨rfl, rfl, by simp [hpc, Election.addTask]⟩
  | newId | send | complete =>
    cases electionStep_move hstep
    exact ⟨rfl, rfl, Iff.rfl⟩

theorem election_inv {a : ElectionLabel} (h : TermsInv c s r)
    (hguard : NoOverflow s (.election a)) (hstep : nodeStep E c s (.election a) = some s') :
    TermsInv c s' r := by
  simp only [nodeStep] at hstep
  split at hstep
  case h_2 => cases hstep
  next p hp =>
  obtain ⟨hallowed, hstep⟩ := Option.ite_none_left_eq_some.1 hstep
  obtain ⟨e, he, rfl⟩ := Option.map_eq_some_iff.1 hstep
  have hknows := h.process p hp
  by_cases hbroadcast : a = .broadcast
  · subst hbroadcast
    have hsaved : p.saved = true := by simpa using hallowed
    simpa using broadcast_inv h hp hsaved he
  by_cases hadvance : a = .advance
  · subst hadvance
    cases electionStep_move he with
    | advance hpc =>
    have hroom : p.election.currentTerm.toNat + 1 < 2 ^ 32 := by
      simpa [NoOverflow, hp] using hguard
    simpa using h.go hp (hknows.advance hpc hroom)
  · obtain ⟨hterm, hvote, hpc⟩ := electionStep_keeps hadvance hbroadcast he
    simpa [hbroadcast, hadvance] using h.go hp (hknows.keep hterm hvote hpc)

/-- Every step keeps the invariant, unless the term overflows. -/
theorem nodeStep_inv (h : ∃ r, TermsInv c s r) (hguard : NoOverflow s a)
    (hstep : nodeStep E c s a = some s') : ∃ r, TermsInv c s' r := by
  obtain ⟨r, h⟩ := h
  cases a with
  | boot => exact ⟨r, boot_inv h hstep⟩
  | save => exact save_inv h hstep
  | election a => exact ⟨r, election_inv h hguard hstep⟩
  | crash =>
    cases hstep
    refine ⟨r, ?_, h.vote_le, h.terms_le, nofun, h.increasing⟩
    rcases h.file_eq with hfile | ⟨rfl, hr⟩
    · exact .inl hfile
    · exact .inr ⟨rfl, hr⟩

end Steps

/-- However often a server crashes and is started again, and wherever in an election that happens,
every broadcast of requests for votes has a larger term than all broadcasts before it, as long as
the term does not overflow.  So a server asks for votes in a term in one election at most. -/
theorem broadcast_terms_increase (E : StateEnv) (c : Candidate) (labels : List NodeLabel)
    (hguard : Guarded (nodeStep E c) NoOverflow Node.new labels) :
    Always (nodeStep E c) (fun s => Increasing s.broadcasts) Node.new labels := by
  have halways : Always (nodeStep E c) (fun s => ∃ r, TermsInv c s r) Node.new labels :=
    always_of_guarded (fun _ _ _ h hg hstep => nodeStep_inv h hg hstep) ⟨_, .new⟩ hguard
  exact halways.mono fun _ ⟨_, h⟩ => h.increasing

instance (s : Node) (a : NodeLabel) : Decidable (NoOverflow s a) := by
  unfold NoOverflow
  split <;> infer_instance

/-- A server crashes before it has saved its first term and uses that term after the restart; it
crashes again after the broadcast and goes on with the next term. -/
theorem broadcast_terms_increase_two_crashes :
    let labels : List NodeLabel := [.boot, .election .clear, .election .advance, .crash, .boot,
      .election .clear, .election .advance, .save, .election .broadcast, .crash, .boot,
      .election .clear, .election .advance, .save, .election .broadcast]
    (run (nodeStep (sampleEnv true false) twoServers) Node.new labels).map (fun t =>
        t.broadcasts.map fun msgs => msgs.map fun m => m.2.term) = some [[1], [2]] ∧
      Always (nodeStep (sampleEnv true false) twoServers) (fun s => Increasing s.broadcasts)
        Node.new labels := by
  intro labels
  exact ⟨by decide +kernel,
    broadcast_terms_increase (sampleEnv true false) twoServers labels (by decide +kernel)⟩

end Raft
end CCraft
