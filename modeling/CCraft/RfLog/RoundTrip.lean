import CCraft.Lib.Run
import CCraft.RfLog.Logger

/-!
# Closing and reopening the log

What a log is for: the entries that were synchronised before it is closed are there
when it is opened again, each of them once and in the order in which they were
appended.  {lit}`Journal` says this without files and cursors.

The logger keeps to it only as long as no synchronised entry has to be loaded.

Main results:

- Theorems {lit}`logStep_inv` and {lit}`logStep_breaks`: which steps keep the logger in
  agreement with the journal.
- Theorem {lit}`log_round_trips_iff`: the same for whole histories.
-/

namespace CCraft
namespace RfLog

open Common

/-! ## The journal -/

/-- The entries that have been synchronised, and those appended since. -/
structure Journal where
  durable : List RfLogEntry
  pending : List RfLogEntry
deriving DecidableEq, Repr

namespace Journal

def append (j : Journal) (entries : List RfLogEntry) : Journal :=
  { j with pending := j.pending ++ entries }

def sync (j : Journal) : Journal :=
  ⟨j.durable ++ j.pending, []⟩

/-- Closing loses the entries that have not been synchronised. -/
def reopen (j : Journal) : Journal :=
  ⟨j.durable, []⟩

/-- The entries that can be read. -/
def contents (j : Journal) : List RfLogEntry :=
  j.durable ++ j.pending

@[simp]
theorem contents_append (j : Journal) (entries : List RfLogEntry) :
    (j.append entries).contents = j.contents ++ entries := by
  simp [append, contents]

@[simp]
theorem contents_sync (j : Journal) : j.sync.contents = j.contents := by
  simp [sync, contents]

@[simp]
theorem contents_reopen (j : Journal) : j.reopen.contents = j.durable := by
  simp [reopen, contents]

/-- Nothing is durable after synchronising only if there was nothing. -/
theorem durable_sync_eq_nil {j : Journal} : j.sync.durable = [] ↔ j.contents = [] :=
  Iff.rfl

end Journal

/-! ## Histories -/

/-- A log file with its logger, the journal that it is to agree with, and why the run has
ended, if it has. -/
structure System where
  disk : List UInt8
  logger : RtDiskRfLogger
  view : MemView
  journal : Journal
  halted : Option Halt

/-- The state after an append or a synchronisation. -/
def System.settle (s : System) (j : Journal) :
    Except Halt (MemView × List UInt8 × RtDiskRfLogger) → System
  | .ok (v, disk, l) => ⟨disk, l, v, j, none⟩
  | .error halt => { s with halted := some halt }

/-- The state after the constructor has run on the file. -/
def System.opened (s : System) (j : Journal) : Except Halt (List UInt8 × RtDiskRfLogger) → System
  | .ok (disk, l) => ⟨disk, l, s.view, j, none⟩
  | .error halt => { s with halted := some halt }

section Histories

variable (E : Env)

/-- The log is opened for the first time. -/
def System.start (file : Option (List UInt8)) (autoSync : Bool) : System :=
  System.opened ⟨file.getD [], ⟨autoSync, 0, [], 0, 0⟩, ⟨0, []⟩, ⟨[], []⟩, none⟩ ⟨[], []⟩
    (initializeLog E file autoSync)

/-- The steps of a history. -/
inductive LogLabel where
  | appendEntry (entry : RfLogEntry)
  | appendEntries (entries : List RfLogEntry)
  | sync
  | reopen (autoSync : Bool)

/-- The journal after an append to a logger that may be told to synchronise. -/
def appended (s : System) (entries : List RfLogEntry) : Journal :=
  if s.logger.autoSync then (s.journal.append entries).sync else s.journal.append entries

def logStep (s : System) (a : LogLabel) : Option System :=
  if s.halted.isSome then none
  else
    match a with
    | .appendEntry e =>
      some (s.settle (appended s [e]) ((s.logger.appendEntry E s.view s.disk e).map Prod.fst))
    | .appendEntries es =>
      some (s.settle (appended s es)
        ((s.logger.appendEntries E s.view s.disk es).map Prod.fst))
    | .sync => some (s.settle s.journal.sync (s.logger.sync E s.view s.disk))
    | .reopen autoSync =>
      some (s.opened s.journal.reopen (initializeLog E (some s.disk) autoSync))

/-- The run has not ended and the logger has the entries of the journal; after a reopen
these are the entries that were synchronised. -/
def RoundTrips (s : System) : Prop :=
  s.halted = none ∧ s.logger.entries = s.journal.contents

/-- Entries are appended and synchronised safely, and the log is not reopened after that. -/
def Harmless (s : System) : LogLabel → Prop
  | .appendEntry e => AppendSafe E s.view s.logger [e]
  | .appendEntries es => AppendSafe E s.view s.logger es
  | .sync => SyncSafe E s.view s.logger
  | .reopen _ => s.journal.durable = []

instance (s : System) (a : LogLabel) : Decidable (Harmless E s a) := by
  cases a <;> unfold Harmless <;> infer_instance

end Histories

/-- The invariant of harmless histories: the logger agrees with the journal, and as long
as nothing has been synchronised the file is empty or has only its header. -/
structure LogInv (s : System) : Prop where
  running : s.halted = none
  entries_eq : s.logger.entries = s.journal.contents
  blank : s.journal.durable = [] → s.disk = [] ∨ s.disk = header

section Runs

open Runs

variable {E : Env} {s s' : System}

theorem LogInv.roundTrips (h : LogInv s) : RoundTrips s :=
  ⟨h.running, h.entries_eq⟩

/-- A safe synchronisation keeps the agreement. -/
theorem settle_sync_inv {l : RtDiskRfLogger} {j : Journal} {v : MemView} {disk : List UInt8}
    (hentries : l.entries = j.contents) (hblank : j.durable = [] → disk = [] ∨ disk = header)
    (hsafe : SyncSafe E v l) : LogInv (s.settle j.sync (l.sync E v disk)) := by
  obtain ⟨v', disk', l', hsync, hkept, hsame⟩ := sync_of_safe hsafe disk
  rw [hsync]
  refine ⟨rfl, ?_, ?_⟩
  · simp only [System.settle, hkept, hentries, Journal.contents_sync]
  · intro hdurable
    have hnone : j.contents = [] := Journal.durable_sync_eq_nil.1 hdurable
    have hunsynced : l.unsynced = [] := by
      rw [RtDiskRfLogger.unsynced, hentries, hnone, List.drop_nil]
    have hempty : j.durable = [] := (List.append_eq_nil_iff.1 hnone).1
    simp only [System.settle, hsame hunsynced]
    exact hblank hempty

/-- An append keeps the agreement if the entries have their data and the synchronisation that it
may include is safe. -/
theorem settle_append_inv (h : LogInv s) {entries : List RfLogEntry}
    (hsafe : AppendSafe E s.view s.logger entries) :
    LogInv (s.settle (appended s entries)
      ((s.logger.appendEntries E s.view s.disk entries).map Prod.fst)) := by
  obtain ⟨hdata, hsync⟩ := hsafe
  have hentries : (s.logger.push entries).entries = (s.journal.append entries).contents := by
    simp [RtDiskRfLogger.push, h.entries_eq]
  have hauto : (s.logger.push entries).autoSync = s.logger.autoSync := rfl
  rw [appendEntries_map, if_pos hdata]
  unfold RtDiskRfLogger.syncIfAuto appended
  rw [hauto]
  split_ifs with hset
  · exact settle_sync_inv hentries h.blank (hsync hset)
  · exact ⟨rfl, hentries, h.blank⟩

/-- Reopening the log keeps the agreement if nothing has been synchronised. -/
theorem opened_inv (h : LogInv s) (hdurable : s.journal.durable = []) (autoSync : Bool) :
    LogInv (s.opened s.journal.reopen (initializeLog E (some s.disk) autoSync)) := by
  have hfile : some s.disk = none ∨ some s.disk = some [] ∨ some s.disk = some header := by
    simpa using h.blank hdurable
  obtain ⟨disk, l, hinit, hblank⟩ := initializeLog_blank (E := E) autoSync hfile
  rw [hinit]
  refine ⟨rfl, ?_, fun _ => hblank⟩
  simp only [System.opened, Journal.contents_reopen, hdurable]
  exact (initializeLog_ok hinit).1

/-- Every harmless step keeps the invariant. -/
theorem logStep_inv {a : LogLabel} (h : LogInv s) (ha : Harmless E s a)
    (hstep : logStep E s a = some s') : LogInv s' := by
  simp only [logStep, h.running, Option.isSome_none, Bool.false_eq_true, if_false] at hstep
  cases a with
  | appendEntry e =>
    cases hstep
    rw [appendEntry_map]
    exact settle_append_inv h ha
  | appendEntries es =>
    cases hstep
    exact settle_append_inv h ha
  | sync =>
    cases hstep
    exact settle_sync_inv h.entries_eq h.blank ha
  | reopen autoSync =>
    cases hstep
    exact opened_inv h ha autoSync

/-- A synchronisation that is not safe ends the run. -/
theorem settle_sync_halts {l : RtDiskRfLogger} {j : Journal} {v : MemView} {disk : List UInt8}
    (hrisk : ¬ SyncSafe E v l) : ¬ RoundTrips (s.settle j (l.sync E v disk)) := by
  obtain ⟨halt, hsync⟩ := sync_of_not_safe hrisk disk
  rw [hsync]
  rintro ⟨hrunning, -⟩
  cases hrunning

/-- So does an append that synchronises like that, or that has an entry without data. -/
theorem settle_append_halts {entries : List RfLogEntry}
    (hrisk : ¬ AppendSafe E s.view s.logger entries) :
    ¬ RoundTrips (s.settle (appended s entries)
      ((s.logger.appendEntries E s.view s.disk entries).map Prod.fst)) := by
  rw [appendEntries_map]
  split_ifs with hdata
  · obtain ⟨hset, hrisk⟩ := Classical.not_imp.1 fun hsync => hrisk ⟨hdata, hsync⟩
    have hauto : (s.logger.push entries).autoSync = true := hset
    rw [RtDiskRfLogger.syncIfAuto, if_pos hauto]
    exact settle_sync_halts hrisk
  · rintro ⟨hrunning, -⟩
    cases hrunning

/-- Reopening the log does not bring back what was synchronised: `initialize` does not
return, or it has loaded nothing. -/
theorem opened_breaks (hdurable : s.journal.durable ≠ []) (autoSync : Bool) :
    ¬ RoundTrips (s.opened s.journal.reopen (initializeLog E (some s.disk) autoSync)) := by
  rintro ⟨hrunning, hentries⟩
  cases hinit : initializeLog E (some s.disk) autoSync with
  | error halt =>
    rw [hinit] at hrunning
    cases hrunning
  | ok result =>
    obtain ⟨disk, l⟩ := result
    rw [hinit] at hentries
    simp only [System.opened, Journal.contents_reopen, (initializeLog_ok hinit).1] at hentries
    exact hdurable hentries.symm

/-- Every other step breaks the agreement. -/
theorem logStep_breaks {a : LogLabel} (h : LogInv s) (ha : ¬ Harmless E s a)
    (hstep : logStep E s a = some s') : ¬ RoundTrips s' := by
  simp only [logStep, h.running, Option.isSome_none, Bool.false_eq_true, if_false] at hstep
  cases a with
  | appendEntry e =>
    cases hstep
    rw [appendEntry_map]
    exact settle_append_halts ha
  | appendEntries es =>
    cases hstep
    exact settle_append_halts ha
  | sync =>
    cases hstep
    exact settle_sync_halts ha
  | reopen autoSync =>
    cases hstep
    exact opened_breaks ha autoSync

theorem start_inv {file : Option (List UInt8)} (hfile : file = none ∨ file = some [])
    (autoSync : Bool) : LogInv (System.start E file autoSync) := by
  have hblank : file = none ∨ file = some [] ∨ file = some header := by tauto
  obtain ⟨disk, l, hinit, hdisk⟩ := initializeLog_blank (E := E) autoSync hblank
  rw [System.start, hinit]
  exact ⟨rfl, (initializeLog_ok hinit).1, fun _ => hdisk⟩

/-- From an absent or an empty file, the logger agrees with the journal throughout a
history exactly if all entries come with their data, all synchronisations are safe and the log is
never reopened after an entry has been synchronised. -/
theorem log_round_trips_iff (E : Env) (file : Option (List UInt8))
    (hfile : file = none ∨ file = some []) (autoSync : Bool) (labels : List LogLabel) (t : System)
    (hrun : run (logStep E) (System.start E file autoSync) labels = some t) :
    Always (logStep E) RoundTrips (System.start E file autoSync) labels ↔
      Guarded (logStep E) (Harmless E) (System.start E file autoSync) labels :=
  always_iff_guarded (Q := fun _ => True) (I := LogInv)
    (fun _ _ _ h _ ha hstep => logStep_inv h ha hstep) (fun _ h => h.roundTrips)
    (fun _ _ _ h _ ha hstep => logStep_breaks h ha hstep) (start_inv hfile autoSync)
    (fun _ _ => trivial) hrun

/-- The slots of tiny and small objects, in a build with or without `assert`. -/
def slotsEnv (asserts : Bool) : Env where
  pool :=
    { alloc := fun _ n => ⟨4096, if n ≤ 16 then 16 else (n + 31) / 32 * 32, fun _ => 0⟩
      size_ge := fun _ n => by
        dsimp only
        split_ifs <;> omega
      pointer_pos := fun _ _ => by norm_num }
  proto := .proto3
  mapAddr := 65536
  mapAddr_pos := by norm_num
  pageSize := 4096
  pageSize_pos := by norm_num
  asserts := asserts

/-- A new log is synchronised without entries, loses an entry when it is reopened, and
then synchronises the next one at once. -/
theorem log_round_trips_iff_new :
    Always (logStep (slotsEnv false)) RoundTrips (System.start (slotsEnv false) none false)
      [.sync, .appendEntry ⟨1, 1, .data, [97]⟩, .reopen true,
        .appendEntry ⟨1, 1, .data, [98]⟩] := by
  exact (log_round_trips_iff _ none (.inl rfl) false _ _
    (Option.some_get (by decide +kernel)).symm).2 (by decide +kernel)

/-- The entry that a new log synchronises cannot be loaded.  An entry of eight bytes is
written outside its block, where `assert` is compiled in, a synchronisation without entries is
aborted, and an entry without data is not appended. -/
theorem log_not_reloaded :
    (∃ t, run (logStep (slotsEnv false)) (System.start (slotsEnv false) none false)
        [.appendEntry ⟨1, 1, .data, [97]⟩, .sync, .reopen false] = some t ∧
      t.halted = some (.fatal (.parseFailed 4)) ∧ ¬ RoundTrips t) ∧
    (∃ t, run (logStep (slotsEnv false)) (System.start (slotsEnv false) none false)
        [.appendEntry ⟨1, 1, .none, [97, 98]⟩, .sync] = some t ∧
      t.halted = some (.undefined .writeOutsideBlock) ∧ ¬ RoundTrips t) ∧
    (∃ t, run (logStep (slotsEnv true)) (System.start (slotsEnv true) none false) [.sync] = some t ∧
      t.halted = some (.fatal .assertSize) ∧ ¬ RoundTrips t) ∧
    ∃ t, run (logStep (slotsEnv false)) (System.start (slotsEnv false) none false)
        [.appendEntry ⟨1, 1, .noop, []⟩] = some t ∧
      t.halted = some (.undefined .nullData) ∧ ¬ RoundTrips t := by
  have hbad : ∀ {r : Option System} {halt : Halt}, r.map System.halted = some (some halt) →
      ∃ t, r = some t ∧ t.halted = some halt ∧ ¬ RoundTrips t := by
    intro r halt h
    obtain ⟨t, hr, ht⟩ := Option.map_eq_some_iff.1 h
    exact ⟨t, hr, ht, fun hround => by simp [hround.1] at ht⟩
  refine ⟨hbad ?_, hbad ?_, hbad ?_, hbad ?_⟩ <;> decide +kernel

end Runs

end RfLog
end CCraft
