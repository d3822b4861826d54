import CCraft.Net.Message
import CCraft.Raft.Incoming
import CCraft.RfLog.RoundTrip

/-!
# The last log entry and the request for votes

A candidate asks the other servers for their votes and tells them the term and the index of
its last log entry.  `GetLastEntry` gives a null pointer for an empty log, which
`broadcast_request_vote` dereferences, and reads one place behind the end of the vector for
any other log.

Main results:

- Theorem {lit}`appendAll_entries`: a sequence of appends that returns leaves the appended
  entries in the logger, in their order.
- Theorem {lit}`broadcastRequestVote_ok_iff`: the broadcast is defined exactly for loggers that
  return an entry, and then every request has the term and the index of that entry.
- Theorem {lit}`log_reads`: which accessors of the log do what they are for.
-/

namespace CCraft
namespace RfLog

open Common Fallible

/-! ## Reading the log -/

/-- Reads that are undefined. -/
inductive UndefinedRead where
  | outOfRange
  | nullPointer
deriving DecidableEq, Repr

/-- `operator[]` of a vector. -/
def vectorAt {α : Type} (v : List α) (i : Nat) : Except UndefinedRead α :=
  match v[i]? with
  | some x => .ok x
  | none => .error .outOfRange

theorem vectorAt_of_lt {α : Type} {v : List α} {i : Nat} (h : i < v.length) :
    vectorAt v i = .ok v[i] := by
  rw [vectorAt, List.getElem?_eq_getElem h]

theorem vectorAt_length {α : Type} (v : List α) : vectorAt v v.length = .error .outOfRange := by
  rw [vectorAt, List.getElem?_eq_none (Nat.le_refl _)]

/-- `->` of a pointer. -/
def deref {α : Type} : Option α → Except UndefinedRead α
  | some x => .ok x
  | none => .error .nullPointer

/-- The accessors of `IRfLogger`; {lit}`none` is the null pointer. -/
structure IRfLogger where
  getLastEntry : Except UndefinedRead (Option RfLogEntry)
  getEntry : UInt32 → Except UndefinedRead (Option RfLogEntry)

namespace RtDiskRfLogger

/-- `GetLastEntry`. -/
def getLastEntry (l : RtDiskRfLogger) : Except UndefinedRead (Option RfLogEntry) :=
  if l.entries = [] then .ok none
  else (vectorAt l.entries l.entries.length).map some

/-- `GetEntry`. -/
def getEntry (l : RtDiskRfLogger) (index : UInt32) : Except UndefinedRead (Option RfLogEntry) :=
  if index.toNat < l.entries.length then (vectorAt l.entries index.toNat).map some
  else .ok none

def toIRfLogger (l : RtDiskRfLogger) : IRfLogger :=
  ⟨l.getLastEntry, l.getEntry⟩

theorem getEntry_eq (l : RtDiskRfLogger) (index : UInt32) :
    l.getEntry index = .ok l.entries[index.toNat]? := by
  unfold getEntry
  by_cases hlt : index.toNat < l.entries.length
  · rw [if_pos hlt, vectorAt_of_lt hlt, List.getElem?_eq_getElem hlt]
    rfl
  · rw [if_neg hlt, List.getElem?_eq_none (Nat.le_of_not_lt hlt)]

/-- The last entry is looked for behind the end. -/
theorem getLastEntry_of_ne_nil {l : RtDiskRfLogger} (h : l.entries ≠ []) :
    l.getLastEntry = .error .outOfRange := by
  rw [getLastEntry, if_neg h, vectorAt_length]
  rfl

theorem getLastEntry_of_nil {l : RtDiskRfLogger} (h : l.entries = []) :
    l.getLastEntry = .ok none := by
  rw [getLastEntry, if_pos h]

end RtDiskRfLogger

/-! ## Sequences of appends -/

/-- The calls that append. -/
inductive AppendCall where
  | appendEntry (entry : RfLogEntry)
  | appendEntries (entries : List RfLogEntry)
deriving DecidableEq, Repr

def AppendCall.entries : AppendCall → List RfLogEntry
  | .appendEntry e => [e]
  | .appendEntries es => es

/-- The entries that a sequence of calls appends. -/
def appendedBy (calls : List AppendCall) : List RfLogEntry :=
  calls.flatMap AppendCall.entries

section Appends

variable {E : Env}

/-- One call. -/
def AppendCall.exec (E : Env) (s : MemView × List UInt8 × RtDiskRfLogger) (call : AppendCall) :
    Except Halt (MemView × List UInt8 × RtDiskRfLogger) :=
  match call with
  | .appendEntry e => (s.2.2.appendEntry E s.1 s.2.1 e).map Prod.fst
  | .appendEntries es => (s.2.2.appendEntries E s.1 s.2.1 es).map Prod.fst

/-- The calls one after the other. -/
def appendAll (E : Env) :
    MemView × List UInt8 × RtDiskRfLogger → List AppendCall →
      Except Halt (MemView × List UInt8 × RtDiskRfLogger)
  | s, [] => .ok s
  | s, call :: calls => call.exec E s >>= fun s' => appendAll E s' calls

theorem exec_entries {s s' : MemView × List UInt8 × RtDiskRfLogger} {call : AppendCall}
    (h : call.exec E s = .ok s') : s'.2.2.entries = s.2.2.entries ++ call.entries := by
  cases call with
  | appendEntry e => exact appendEntries_entries ((appendEntry_map _ _ _ e).symm.trans h)
  | appendEntries es => exact appendEntries_entries h

/-- Calls that return have appended their entries, in their order. -/
theorem appendAll_entries {s s' : MemView × List UInt8 × RtDiskRfLogger} {calls : List AppendCall}
    (h : appendAll E s calls = .ok s') :
    s'.2.2.entries = s.2.2.entries ++ appendedBy calls := by
  induction calls generalizing s with
  | nil =>
    cases h
    simp [appendedBy]
  | cons call calls ih =>
    obtain ⟨next, hnext, hrest⟩ := bind_eq_ok.1 h
    rw [ih hrest, exec_entries hnext, appendedBy, appendedBy, List.flatMap_cons,
      List.append_assoc]

end Appends

end RfLog

/-! ## Asking for votes -/

namespace Raft

open RfLog Net Fallible

/-- What a candidate uses of `common::RfServer`. -/
structure RfServer where
  addr : String
  portForServer : UInt16
deriving DecidableEq, Repr

/-- The address under which a server talks to other servers. -/
def RfServer.addrForServer (srv : RfServer) : NetPeerInfo :=
  ⟨⟨srv.addr, srv.portForServer.toNat⟩, .tcp⟩

/-- The requests of a candidate with the given last entry, to one server after the other. -/
def voteRequests (currentTerm myId : UInt32) (last : RfLogEntry)
    (otherSrvs : List (UInt32 × RfServer)) : List (NetPeerInfo × RequestVoteRequest) :=
  otherSrvs.map fun srv => (srv.2.addrForServer, ⟨currentTerm, myId, last.index, last.term⟩)

/-- `broadcast_request_vote`: the requests that it hands to `RequestVoteAsync`. -/
def broadcastRequestVote (pRfLogger : IRfLogger) (currentTerm myId : UInt32)
    (otherSrvs : List (UInt32 × RfServer)) :
    Except UndefinedRead (List (NetPeerInfo × RequestVoteRequest)) := do
  let lastRfLogEntry ← pRfLogger.getLastEntry
  let last ← deref lastRfLogEntry
  .ok (voteRequests currentTerm myId last otherSrvs)

/-- The broadcast is defined exactly when the logger returns an entry. -/
theorem broadcastRequestVote_ok_iff {pRfLogger : IRfLogger} {currentTerm myId : UInt32}
    {otherSrvs : List (UInt32 × RfServer)} {msgs : List (NetPeerInfo × RequestVoteRequest)} :
    broadcastRequestVote pRfLogger currentTerm myId otherSrvs = .ok msgs ↔
      ∃ last, pRfLogger.getLastEntry = .ok (some last) ∧
        msgs = voteRequests currentTerm myId last otherSrvs := by
  simp only [broadcastRequestVote, bind_eq_ok]
  constructor
  · rintro ⟨lastRfLogEntry, hget, last, hderef, hmsgs⟩
    cases lastRfLogEntry with
    | none => cases hderef
    | some e =>
      obtain rfl : e = last := Except.ok.inj hderef
      exact ⟨e, hget, (Except.ok.inj hmsgs).symm⟩
  · rintro ⟨last, hget, rfl⟩
    exact ⟨some last, hget, last, rfl, rfl⟩

/-- `RtDiskRfLogger` never returns a last entry. -/
theorem getLastEntry_ne_some (l : RtDiskRfLogger) (last : RfLogEntry) :
    l.getLastEntry ≠ .ok (some last) := by
  by_cases hnil : l.entries = []
  · rw [RtDiskRfLogger.getLastEntry_of_nil hnil]
    simp
  · rw [RtDiskRfLogger.getLastEntry_of_ne_nil hnil]
    simp

/-- After any appends to a log that was opened, `GetEntry` gives the entry with that number,
`GetLastEntry` does what it is for exactly when nothing was appended, and the broadcast, which is
defined exactly for loggers that return an entry, is not defined. -/
theorem log_reads (E : Env) (file : Option (List UInt8)) (autoSync : Bool) (v : Common.MemView)
    (disk : List UInt8) (l₀ : RtDiskRfLogger) (calls : List AppendCall)
    (t : Common.MemView × List UInt8 × RtDiskRfLogger)
    (hinit : initializeLog E file autoSync = .ok (disk, l₀))
    (hcalls : appendAll E (v, disk, l₀) calls = .ok t) :
    (∀ index : UInt32, t.2.2.getEntry index = .ok (appendedBy calls)[index.toNat]?) ∧
    (t.2.2.getLastEntry = .ok (appendedBy calls).getLast? ↔ appendedBy calls = []) ∧
    (∀ (pRfLogger : IRfLogger) (currentTerm myId : UInt32) (otherSrvs : List (UInt32 × RfServer))
        (msgs : List (NetPeerInfo × RequestVoteRequest)),
      broadcastRequestVote pRfLogger currentTerm myId otherSrvs = .ok msgs ↔
        ∃ last, pRfLogger.getLastEntry = .ok (some last) ∧
          msgs = voteRequests currentTerm myId last otherSrvs) ∧
    ∀ (currentTerm myId : UInt32) (otherSrvs : List (UInt32 × RfServer))
        (msgs : List (NetPeerInfo × RequestVoteRequest)),
      broadcastRequestVote t.2.2.toIRfLogger currentTerm myId otherSrvs ≠ .ok msgs := by
  have hentries : t.2.2.entries = appendedBy calls := by
    rw [appendAll_entries hcalls, (initializeLog_ok hinit).1, List.nil_append]
  refine ⟨?_, ?_, ?_, ?_⟩
  · intro index
    rw [RtDiskRfLogger.getEntry_eq, hentries]
  · constructor
    · intro hlast
      by_contra hne
      rw [← hentries] at hne
      rw [RtDiskRfLogger.getLastEntry_of_ne_nil hne] at hlast
      cases hlast
    · intro hnil
      rw [RtDiskRfLogger.getLastEntry_of_nil (hentries.trans hnil), hnil, List.getLast?_nil]
  · intro pRfLogger currentTerm myId otherSrvs msgs
    exact broadcastRequestVote_ok_iff
  · intro currentTerm myId otherSrvs msgs hmsgs
    obtain ⟨last, hget, -⟩ := broadcastRequestVote_ok_iff.1 hmsgs
    exact getLastEntry_ne_some _ last hget

/-- Two calls on a new log. -/
theorem log_reads_second_entry :
    let calls : List AppendCall :=
      [.appendEntry ⟨1, 1, .data, [97]⟩,
        .appendEntries [⟨1, 2, .data, [98]⟩, ⟨2, 3, .data, [99]⟩]]
    ∃ t, appendAll (slotsEnv false) (⟨0, []⟩, header, ⟨false, 4, [], 0, 0⟩) calls = .ok t ∧
      t.2.2.getEntry 1 = .ok (some ⟨1, 2, .data, [98]⟩) ∧ t.2.2.getEntry 3 = .ok none := by
  intro calls
  have hinit : initializeLog (slotsEnv false) none false =
      .ok (header, ⟨false, 4, [], 0, 0⟩) := rfl
  obtain ⟨t, hcalls⟩ : ∃ t, appendAll (slotsEnv false)
      (⟨0, []⟩, header, ⟨false, 4, [], 0, 0⟩) calls = .ok t := ⟨_, rfl⟩
  obtain ⟨hget, -⟩ := log_reads _ none false _ _ _ calls t hinit hcalls
  exact ⟨t, hcalls, hget 1, hget 3⟩

/-- The first election of a new server dereferences the null pointer, and with one entry in
the log the last one is read behind the end of the vector. -/
theorem broadcast_undefined :
    let new : RtDiskRfLogger := ⟨false, 4, [], 0, 0⟩
    initializeLog (slotsEnv false) none false = .ok (header, new) ∧
    (∀ otherSrvs, broadcastRequestVote new.toIRfLogger 1 1 otherSrvs = .error .nullPointer) ∧
    ∃ t, appendAll (slotsEnv false) (⟨0, []⟩, header, new)
        [.appendEntry ⟨1, 1, .data, [97]⟩] = .ok t ∧
      t.2.2.getLastEntry = .error .outOfRange ∧
      ∀ otherSrvs, broadcastRequestVote t.2.2.toIRfLogger 2 1 otherSrvs = .error .outOfRange := by
  exact ⟨rfl, fun _ => rfl, _, rfl, rfl, fun _ => rfl⟩

end Raft
end CCraft
