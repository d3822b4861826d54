import CCraft.Common.Buffer
import CCraft.Common.Codec
import CCraft.Fsio.IoUtils
import CCraft.Lib.Run
import CCraft.Lib.WireFormat

/-!
# The state file of a server

A server keeps its current term and its vote in the file `rfstate`: a magic number and, behind
it, the encoding of a `RaftState`.  `save_rf_state` writes the encoding over the old one and
does not cut the file, and the length of an encoding depends on the values.  `initialize` reads
the file when the server is started.

The file is a byte string and system calls succeed, so that short reads and writes do not show and
`WriteFully` leaves {lit}`SystemCalls.overwrite`.  The parser reads fields up to the first bytes
that it can not read, and a later field replaces an earlier one.  The buffer that `initialize`
parses from does not own a pool object, so its destructor passes a pointer into the middle of an
array to `delete[]`.  That is undefined; the surroundings say whether it aborts the process or does
nothing.

Main results:

- Theorem {lit}`boot_ok_iff`: when `initialize` returns, and with what.
- Theorem {lit}`parse_encode_append`: what is read from an encoding with other bytes behind it.
- Theorem {lit}`readState_save_iff`: which saves are read back.
- Theorem {lit}`rfstate_loads_last_saved`: along which histories of boots and saves every boot
  loads the pair that was saved last.
-/

namespace CCraft
namespace Raft

open Common WireFormat Runs

/-! ## The state and its encoding -/

/-- `protocol::RaftState`. -/
structure RaftState where
  currentTerm : UInt32
  votedFor : UInt32
deriving DecidableEq, Repr

namespace RaftState

/-- The state of a server that has saved nothing. -/
def initial : RaftState := ⟨0, 0⟩

/-- A field is written unless it is zero. -/
def fieldBytes (number : Nat) (value : UInt32) : List UInt8 :=
  if value = 0 then [] else (Field.varint number value.toNat).encode

/-- The wire format of version 3 of the language, which omits the fields that are zero. -/
def encode (s : RaftState) : List UInt8 :=
  fieldBytes 1 s.currentTerm ++ fieldBytes 2 s.votedFor

theorem fieldBytes_length_le (number : Nat) (value : UInt32) (hnumber : number < 16) :
    (fieldBytes number value).length ≤ 6 := by
  unfold fieldBytes
  split_ifs
  · simp
  · have htag : (encodeVarint (number * 8)).length = 1 :=
      encodeVarint_length_eq_one.2 (by omega)
    have hvalue : (encodeVarint value.toNat).length ≤ 5 :=
      encodeVarint_length_le (k := 4) (lt_of_lt_of_le value.toNat_lt (by norm_num))
    simp only [Field.encode, List.length_append]
    omega

theorem encode_length_le (s : RaftState) : s.encode.length ≤ 12 := by
  have hterm := fieldBytes_length_le 1 s.currentTerm (by omega)
  have hvote := fieldBytes_length_le 2 s.votedFor (by omega)
  simp only [encode, List.length_append]
  omega

end RaftState

/-- The integer in a field with the given number. -/
def valueOf (number : Nat) : Field → Option UInt32
  | .varint n value => if n = number then some (UInt32.ofNat value) else none
  | .bytes _ _ => none

/-- The integer in the last field with the given number. -/
def lastValue (number : Nat) : List Field → Option UInt32
  | [] => none
  | f :: fields => (lastValue number fields).or (valueOf number f)

/-- What `initialize` and `save_rf_state` run on: `SerializeToArray`, the fields that
`ParseFromArray` reads before it stops, whatever it answers then, the address of the array that
the file is read into, whether `assert` is compiled in, and whether `delete[]` of a pointer into
the middle of an array aborts. -/
structure StateEnv where
  serialize : RaftState → List UInt8
  serialize_eq_encode : ∀ s, serialize s = s.encode
  fields : List UInt8 → List Field
  fields_nil : fields [] = []
  fields_varint : ∀ (number : Nat) (value : UInt32) (rest : List UInt8), 1 ≤ number →
    fields ((Field.varint number value.toNat).encode ++ rest) =
      .varint number value.toNat :: fields rest
  buf : Nat
  asserts : Bool
  deleteAborts : Bool

/-- `ParseFromArray`: the pair that it leaves in the message, where a field that was not read is
zero. -/
def StateEnv.parse (E : StateEnv) (bytes : List UInt8) : RaftState :=
  ⟨(lastValue 1 (E.fields bytes)).getD 0, (lastValue 2 (E.fields bytes)).getD 0⟩

/-- No field replaces a value of the pair by another one. -/
def Keeps (s : RaftState) (fields : List Field) : Prop :=
  (∀ v ∈ lastValue 1 fields, v = s.currentTerm) ∧ ∀ v ∈ lastValue 2 fields, v = s.votedFor

instance (s : RaftState) (fields : List Field) : Decidable (Keeps s fields) :=
  @instDecidableAnd _ _ (Option.decidableForallMem _) (Option.decidableForallMem _)

section Parse

variable {E : StateEnv} {s : RaftState} {rest : List UInt8}

/-- A field in front of other bytes: it has its value, written or omitted as zero, unless a later
one replaces it. -/
theorem lastValue_fieldBytes {number : Nat} (hnumber : 1 ≤ number) (value : UInt32) (k : Nat) :
    lastValue k (E.fields (RaftState.fieldBytes number value ++ rest)) =
      (lastValue k (E.fields rest)).or
        (if number = k ∧ value ≠ 0 then some value else none) := by
  unfold RaftState.fieldBytes
  by_cases hzero : value = 0
  · simp [hzero]
  · rw [if_neg hzero, E.fields_varint number value rest hnumber, lastValue, valueOf]
    simp [hzero]

/-- What is read from the encoding of a pair in front of other bytes. -/
theorem parse_encode_append (s : RaftState) (rest : List UInt8) :
    E.parse (s.encode ++ rest) = ⟨(lastValue 1 (E.fields rest)).getD s.currentTerm,
      (lastValue 2 (E.fields rest)).getD s.votedFor⟩ := by
  have hterm : lastValue 1 (E.fields (s.encode ++ rest)) = (lastValue 1 (E.fields rest)).or
      (if s.currentTerm ≠ 0 then some s.currentTerm else none) := by
    rw [RaftState.encode, List.append_assoc, lastValue_fieldBytes (by omega),
      lastValue_fieldBytes (by omega)]
    simp
  have hvote : lastValue 2 (E.fields (s.encode ++ rest)) = (lastValue 2 (E.fields rest)).or
      (if s.votedFor ≠ 0 then some s.votedFor else none) := by
    rw [RaftState.encode, List.append_assoc, lastValue_fieldBytes (by omega),
      lastValue_fieldBytes (by omega)]
    simp
  have hgetD : ∀ (o : Option UInt32) (v : UInt32),
      (o.or (if v ≠ 0 then some v else none)).getD 0 = o.getD v := by
    intro o v
    cases o <;> by_cases hv : v = 0 <;> simp [hv]
  rw [StateEnv.parse, hterm, hvote, hgetD, hgetD]

/-- The pair is read back when the bytes behind its encoding keep it. -/
theorem parse_encode_append_eq : E.parse (s.encode ++ rest) = s ↔ Keeps s (E.fields rest) := by
  have hgetD : ∀ (o : Option UInt32) (v : UInt32), o.getD v = v ↔ ∀ w ∈ o, w = v := by
    intro o v
    cases o <;> simp
  rw [parse_encode_append, Keeps, ← hgetD, ← hgetD]
  obtain ⟨term, vote⟩ := s
  exact RaftState.mk.injEq _ _ _ _ ▸ Iff.rfl

theorem parse_encode (E : StateEnv) (s : RaftState) : E.parse s.encode = s := by
  have hparse := parse_encode_append (E := E) s []
  rw [E.fields_nil, List.append_nil] at hparse
  exact hparse

end Parse

/-! ## Reading and writing the file -/

/-- `RFSTATE_MAGIC_NO`. -/
def rfstateMagicNo : Nat := 0x72667374

/-- `RFSTATE_MAGIC_NO_LEN`. -/
def rfstateMagicNoLen : Nat := 4

/-- The contents of a new file. -/
def fileHeader : List UInt8 := storeBytes rfstateMagicNoLen rfstateMagicNo

/-- How `initialize` is aborted. -/
inductive BootFault where
  | shortHeader
  | wrongMagicNo
  | deleteInside
deriving DecidableEq, Repr

section File

variable (E : StateEnv)

/-- What `initialize` leaves in `m_iCurrentTerm` and `m_iVoteFor`; a file that is not there is
created. -/
def readState : Option (List UInt8) → Except BootFault RaftState
  | none => .ok .initial
  | some file =>
    if file.length % 2 ^ 32 = 0 then .ok .initial
    else if file.length < rfstateMagicNoLen then .error .shortHeader
    else if loadBytes rfstateMagicNoLen (file.take rfstateMagicNoLen) ≠ rfstateMagicNo then
      .error .wrongMagicNo
    else .ok (E.parse (file.drop rfstateMagicNoLen))

/-- The buffer `b` over what follows the magic number. -/
def stateBuffer (file : List UInt8) : Buffer :=
  let startPtr := E.buf + rfstateMagicNoLen
  let endPtr := E.buf + file.length - 1
  Buffer.refresh (some startPtr) (some endPtr) (some startPtr) (some endPtr) none
    fun a => file.getD (a - E.buf) 0

/-- The destructor of the buffer, which frees what the buffer starts at. -/
def destroyBuffer (b : Buffer) : Except BootFault Unit :=
  match b.gives with
  | .deleteArray p => if p ≠ E.buf ∧ E.deleteAborts then .error .deleteInside else .ok ()
  | _ => .ok ()

/-- The file is not there or taken for empty. -/
def Blank : Option (List UInt8) → Prop
  | none => True
  | some file => file.length % 2 ^ 32 = 0

instance : DecidablePred Blank
  | none => isTrue trivial
  | some _ => inferInstanceAs (Decidable (_ = _))

/-- `RaftConsensus::initialize`: the pair that is loaded and the file after it. -/
def boot : Option (List UInt8) → Except BootFault RaftState × Option (List UInt8)
  | none => (.ok .initial, some fileHeader)
  | some file =>
    match readState E (some file) with
    | .error fault => (.error fault, some file)
    | .ok s =>
      -- a file that is taken for empty is not read into a buffer
      if Blank (some file) then (.ok s, some file)
      else
        match destroyBuffer E (stateBuffer E file) with
        | .error fault => (.error fault, some file)
        | .ok () => (.ok s, some file)

/-- `RaftConsensus::save_rf_state`: whether it returns, and the file after it.  An empty
encoding asks the pool for an empty object, which is asserted against. -/
def saveRfState (s : RaftState) (file : Option (List UInt8)) : Bool × Option (List UInt8) :=
  if E.serialize s = [] ∧ E.asserts = true then (false, file)
  else (true, file.map fun bytes => SystemCalls.overwrite bytes rfstateMagicNoLen (E.serialize s))

variable {E} {s : RaftState} {file payload : List UInt8}

theorem destroyBuffer_stateBuffer (file : List UInt8) :
    destroyBuffer E (stateBuffer E file) =
      if E.deleteAborts = true then .error .deleteInside else .ok () := by
  have hgives : (stateBuffer E file).gives = .deleteArray (E.buf + rfstateMagicNoLen) := by
    unfold stateBuffer Buffer.refresh Buffer.checkAvailable
    rfl
  simp [destroyBuffer, hgives, rfstateMagicNoLen]

/-- `initialize` returns when it can read the file and, if the allocator minds, has nothing to
free; then it has loaded what it has read. -/
theorem boot_ok_iff (file : Option (List UInt8)) :
    (boot E file).1 = .ok s ↔
      readState E file = .ok s ∧ (E.deleteAborts = true → Blank file) := by
  cases file with
  | none => simp [boot, readState, Blank]
  | some file =>
    simp only [boot]
    cases hread : readState E (some file) with
    | error fault => simp
    | ok r =>
      simp only [destroyBuffer_stateBuffer]
      by_cases hblank : Blank (some file)
      · simp [hblank]
      · cases hdelete : E.deleteAborts <;> simp [hblank]

/-- A file that is there is left as it is. -/
theorem boot_file (file : List UInt8) : (boot E (some file)).2 = some file := by
  simp only [boot]
  split
  · rfl
  · split_ifs
    · rfl
    · split <;> rfl

/-- The file after `initialize` reads the same. -/
theorem readState_boot (file : Option (List UInt8)) :
    readState E (boot E file).2 = readState E file := by
  cases file with
  | none =>
    have hempty : E.parse [] = .initial := parse_encode E .initial
    have hmagic : loadBytes rfstateMagicNoLen (fileHeader.take rfstateMagicNoLen) =
        rfstateMagicNo := by
      decide
    have hdrop : fileHeader.drop rfstateMagicNoLen = [] := by decide
    simp only [boot, readState, hmagic, hdrop, hempty]
    decide
  | some file => rw [boot_file]

/-- A file with its magic number is parsed. -/
theorem readState_header (hlen : payload.length + 4 < 2 ^ 32) :
    readState E (some (fileHeader ++ payload)) = .ok (E.parse payload) := by
  have hheader : fileHeader.length = 4 := length_storeBytes _ _
  have hlength : (fileHeader ++ payload).length = payload.length + 4 := by
    rw [List.length_append, hheader, Nat.add_comm]
  have htake : (fileHeader ++ payload).take rfstateMagicNoLen = fileHeader :=
    List.take_left' hheader
  have hdrop : (fileHeader ++ payload).drop rfstateMagicNoLen = payload :=
    List.drop_left' hheader
  have hmagic : loadBytes rfstateMagicNoLen fileHeader = rfstateMagicNo := by decide
  have hnonempty : (payload.length + 4) % 2 ^ 32 ≠ 0 := by
    rw [Nat.mod_eq_of_lt hlen]
    omega
  have hlong : ¬ payload.length + 4 < rfstateMagicNoLen := by
    unfold rfstateMagicNoLen
    omega
  simp only [readState, hlength, htake, hdrop, hmagic, hnonempty, hlong, if_false, ne_eq,
    not_true_eq_false]

/-- Writing behind the magic number. -/
theorem overwrite_header (bytes : List UInt8) :
    SystemCalls.overwrite (fileHeader ++ payload) rfstateMagicNoLen bytes =
      fileHeader ++ (bytes ++ payload.drop bytes.length) := by
  have hheader : fileHeader.length = rfstateMagicNoLen := length_storeBytes _ _
  have hinside : rfstateMagicNoLen ≤ (fileHeader ++ payload).length := by
    rw [List.length_append, hheader]
    omega
  rw [SystemCalls.overwrite_of_le hinside, List.take_left' hheader, List.append_assoc,
    ← hheader, List.drop_length_add_append]

/-- The file after a save, which an aborted one leaves as well: it has nothing to write. -/
theorem saveRfState_file (s : RaftState) (file : Option (List UInt8)) :
    (saveRfState E s file).2 =
      file.map fun bytes => SystemCalls.overwrite bytes rfstateMagicNoLen s.encode := by
  unfold saveRfState
  rw [E.serialize_eq_encode]
  split_ifs with hempty
  · rw [hempty.1]
    cases file <;> simp
  · rfl

/-- A file that `save_rf_state` of a pair makes readable as the pair: it is empty and there is
nothing to write, or it has its magic number, and the bytes behind the end of the new encoding keep
the pair. -/
def TakesPair (E : StateEnv) (s : RaftState) (file : List UInt8) : Prop :=
  file = [] ∧ s = .initial ∨ fileHeader <+: file ∧
    Keeps s (E.fields (file.drop (rfstateMagicNoLen + s.encode.length)))

instance (E : StateEnv) (s : RaftState) (file : List UInt8) : Decidable (TakesPair E s file) :=
  inferInstanceAs (Decidable (_ ∧ _ ∨ _ ∧ _))

theorem encode_injective (E : StateEnv) : Function.Injective RaftState.encode :=
  Function.LeftInverse.injective (parse_encode E)

/-- After a save `initialize` parses the new encoding together with what is left of the old one. -/
theorem readState_save (s : RaftState) (hlen : payload.length < 2 ^ 31) :
    readState E (saveRfState E s (some (fileHeader ++ payload))).2 =
      .ok (E.parse (s.encode ++ payload.drop s.encode.length)) := by
  have hencode := s.encode_length_le
  rw [saveRfState_file, Option.map_some, overwrite_header, readState_header]
  rw [List.length_append, List.length_drop]
  omega

/-- Writing into an empty file leaves a gap in the place of the magic number. -/
theorem readState_gap {bytes : List UInt8} (hne : bytes ≠ []) (hlen : bytes.length ≤ 12) :
    readState E (some (SystemCalls.overwrite [] rfstateMagicNoLen bytes)) =
      .error .wrongMagicNo := by
  have hgap : SystemCalls.overwrite [] rfstateMagicNoLen bytes = [0, 0, 0, 0] ++ bytes := by
    rw [SystemCalls.overwrite_of_ne_nil hne, List.drop_nil, List.append_nil]
    rfl
  have hlong : ([0, 0, 0, 0] ++ bytes).length = bytes.length + 4 := by
    rw [List.length_append, Nat.add_comm]
    rfl
  have htake : ([0, 0, 0, 0] ++ bytes).take rfstateMagicNoLen = [0, 0, 0, 0] := List.take_left' rfl
  have hmagic : loadBytes rfstateMagicNoLen ([0, 0, 0, 0] : List UInt8) ≠ rfstateMagicNo := by
    decide
  rw [hgap, readState, hlong, htake, if_neg (by omega), if_neg (by unfold rfstateMagicNoLen; omega),
    if_pos hmagic]

theorem readState_save_nil (s : RaftState) :
    readState E (saveRfState E s (some [])).2 = .ok s ↔ s = .initial := by
  rw [saveRfState_file, Option.map_some]
  by_cases hzero : s.encode = []
  · have hinitial : s = .initial := encode_injective E hzero
    rw [hzero, SystemCalls.overwrite_nil, hinitial]
    exact iff_of_true rfl rfl
  · have hne : s ≠ .initial := by
      rintro rfl
      exact hzero rfl
    rw [readState_gap hzero s.encode_length_le]
    exact iff_of_false (by simp) hne

/-- Which saves are read back. -/
theorem readState_save_iff {file : List UInt8} (s : RaftState)
    (hfile : file = [] ∨ ∃ payload, payload.length < 2 ^ 31 ∧ file = fileHeader ++ payload) :
    readState E (saveRfState E s (some file)).2 = .ok s ↔ TakesPair E s file := by
  rcases hfile with rfl | ⟨payload, hlen, rfl⟩
  · have hheader : ¬ fileHeader <+: [] := by decide
    rw [readState_save_nil, TakesPair]
    simp [hheader]
  · have hheader : fileHeader.length = rfstateMagicNoLen := length_storeBytes _ _
    have hne : fileHeader ++ payload ≠ [] :=
      List.append_ne_nil_of_left_ne_nil (by decide) payload
    rw [readState_save s hlen, Except.ok.injEq, parse_encode_append_eq, TakesPair, ← hheader,
      List.drop_length_add_append]
    simp [hne]

end File

/-! ## Histories -/

/-- A server: its file, whether it runs, the pair that was saved last, and, for every boot, its
result and the pair that was to be loaded. -/
structure Server where
  file : Option (List UInt8)
  running : Bool
  saved : Option RaftState
  boots : List (Except BootFault RaftState × RaftState)

def Server.start (file : Option (List UInt8)) : Server :=
  ⟨file, false, none, []⟩

/-- The pair that a boot is to load. -/
def Server.expected (s : Server) : RaftState :=
  s.saved.getD .initial

inductive StateLabel where
  | boot
  | save (r : RaftState)
deriving DecidableEq, Repr

/-- A server is started, again if it runs, or saves a pair. -/
def stateStep (E : StateEnv) (s : Server) : StateLabel → Option Server
  | .boot =>
    let r := boot E s.file
    some { s with
      file := r.2
      running := r.1.toBool
      boots := s.boots ++ [(r.1, s.expected)] }
  | .save r =>
    if s.running then
      let w := saveRfState E r s.file
      some { s with file := w.2, running := w.1, saved := some r }
    else none

/-- Every boot has returned and loaded the pair that was saved last. -/
def LoadsSaved (s : Server) : Prop :=
  ∀ b ∈ s.boots, b.1 = .ok b.2

/-- A pair is saved only into a file that takes it; and if the allocator minds, a boot has nothing
to read. -/
def ReadsBack (E : StateEnv) (s : Server) : StateLabel → Prop
  | .boot => E.deleteAborts = true → Blank s.file
  | .save r => ∃ file ∈ s.file, TakesPair E r file

section Histories

variable {E : StateEnv} {s s' : Server} {a : StateLabel}

/-- The files of a server whose saves were all read back: not there, empty, or with a magic number
and, behind it, not more than an encoding. -/
inductive Kept : Option (List UInt8) → Prop
  | absent : Kept none
  | empty : Kept (some [])
  | header (payload : List UInt8) (hlen : payload.length ≤ 12) : Kept (some (fileHeader ++ payload))

/-- The file reads back as the pair that was saved last, and all boots were right. -/
structure StateInv (E : StateEnv) (s : Server) : Prop where
  reads : readState E s.file = .ok s.expected
  loads : LoadsSaved s
  kept : Kept s.file
  present : s.running = true → s.file ≠ none

theorem Kept.boot {file : Option (List UInt8)} (h : Kept file) :
    Kept (boot E file).2 ∧ (boot E file).2 ≠ none := by
  cases file with
  | none => exact ⟨.header [] (Nat.zero_le _), by simp [Raft.boot]⟩
  | some file =>
    rw [boot_file]
    exact ⟨h, by simp⟩

/-- In these files a save is read back exactly when the file takes the pair. -/
theorem Kept.readState_save_iff {file : List UInt8} (h : Kept (some file)) (r : RaftState) :
    readState E (saveRfState E r (some file)).2 = .ok r ↔ TakesPair E r file := by
  apply Raft.readState_save_iff
  cases h with
  | empty => exact .inl rfl
  | header payload hlen => exact .inr ⟨payload, by omega, rfl⟩

theorem Kept.save {file : List UInt8} {r : RaftState} (h : Kept (some file))
    (htakes : TakesPair E r file) : Kept (saveRfState E r (some file)).2 := by
  rw [saveRfState_file, Option.map_some]
  cases h with
  | empty =>
    rcases htakes with ⟨-, rfl⟩ | ⟨hheader, -⟩
    · exact .empty
    · exact absurd hheader (by decide)
  | header payload hlen =>
    have hencode := r.encode_length_le
    rw [overwrite_header]
    apply Kept.header
    rw [List.length_append, List.length_drop]
    omega

theorem stateStep_inv (h : StateInv E s) (hguard : ReadsBack E s a)
    (hstep : stateStep E s a = some s') : StateInv E s' := by
  cases a with
  | boot =>
    cases hstep
    refine ⟨(readState_boot s.file).trans h.reads, ?_, h.kept.boot.1, fun _ => h.kept.boot.2⟩
    refine List.forall_mem_append.2 ⟨h.loads, List.forall_mem_singleton.2 ?_⟩
    exact (boot_ok_iff s.file).2 ⟨h.reads, hguard⟩
  | save r =>
    obtain ⟨file, hfile, htakes⟩ := hguard
    have hkept : Kept (some file) := hfile ▸ h.kept
    obtain ⟨-, ⟨⟩⟩ := Option.ite_none_right_eq_some.1 hstep
    simp only [Option.mem_def.1 hfile]
    refine ⟨(hkept.readState_save_iff r).2 htakes, h.loads, hkept.save htakes, fun _ => ?_⟩
    rw [saveRfState_file]
    simp

/-- After a step that breaks the condition some boot is wrong, this one or the next. -/
theorem stateStep_breaks (h : StateInv E s) (hguard : ¬ ReadsBack E s a)
    (hstep : stateStep E s a = some s') :
    ∃ cs u, run (stateStep E) s' cs = some u ∧ ¬ LoadsSaved u := by
  cases a with
  | boot =>
    cases hstep
    refine ⟨[], _, rfl, ?_⟩
    intro hloads
    have hok := (boot_ok_iff s.file).1 (hloads _ (List.mem_append_right _ List.mem_cons_self))
    exact hguard hok.2
  | save r =>
    obtain ⟨hrunning, ⟨⟩⟩ := Option.ite_none_right_eq_some.1 hstep
    obtain ⟨file, hfile⟩ := Option.ne_none_iff_exists'.1 (h.present hrunning)
    have hkept : Kept (some file) := hfile ▸ h.kept
    refine ⟨[.boot], _, rfl, ?_⟩
    intro hloads
    have hok := (boot_ok_iff _).1 (hloads _ (List.mem_append_right _ List.mem_cons_self))
    simp only [hfile] at hok
    exact hguard ⟨file, hfile, (hkept.readState_save_iff r).1 hok.1⟩

theorem start_stateInv {file : Option (List UInt8)} (hfile : file = none ∨ file = some []) :
    StateInv E (.start file) := by
  rcases hfile with rfl | rfl
  · exact ⟨rfl, by simp [LoadsSaved, Server.start], .absent, by simp [Server.start]⟩
  · exact ⟨rfl, by simp [LoadsSaved, Server.start], .empty, by simp [Server.start]⟩

/-- From no file or an empty one, every boot of a history loads the pair that was saved last if
every pair is saved into a file that takes it and, where `delete[]` inside an array aborts, no boot
finds a file to read; otherwise some beginning of the history leads, if need be with one more boot,
to a boot that does not. -/
theorem rfstate_loads_last_saved (E : StateEnv) (file : Option (List UInt8))
    (hfile : file = none ∨ file = some []) (labels : List StateLabel) (t : Server)
    (hrun : run (stateStep E) (.start file) labels = some t) :
    (Guarded (stateStep E) (ReadsBack E) (.start file) labels → LoadsSaved t) ∧
    (¬ Guarded (stateStep E) (ReadsBack E) (.start file) labels →
      ∃ bs cs u, bs <+: labels ∧ run (stateStep E) (.start file) (bs ++ cs) = some u ∧
        ¬ LoadsSaved u) := by
  have hstart := start_stateInv (E := E) hfile
  constructor
  · intro hguard
    have halways : Always (stateStep E) (StateInv E) (.start file) labels :=
      always_of_guarded (fun _ _ _ h hg hstep => stateStep_inv h hg hstep) hstart hguard
    exact (halways.last hrun).loads
  · intro hguard
    exact exists_violation (fun _ _ _ h hg hstep => stateStep_inv h hg hstep)
      (fun _ _ _ h hg hstep => stateStep_breaks h hg hstep) hstart hrun hguard

end Histories

instance (E : StateEnv) (s : Server) : ∀ a, Decidable (ReadsBack E s a)
  | .boot => inferInstanceAs (Decidable (_ → _))
  | .save _ => inferInstanceAs (Decidable (∃ _ ∈ _, _))

/-- Surroundings with the wire format and a reader of its fields. -/
def sampleEnv (asserts deleteAborts : Bool) : StateEnv where
  serialize := RaftState.encode
  serialize_eq_encode _ := rfl
  fields := readFields
  fields_nil := rfl
  fields_varint number value rest hnumber :=
    readFields_encode_append (f := .varint number value.toNat) hnumber rest
  buf := 4096
  asserts := asserts
  deleteAborts := deleteAborts

/-- Terms that grow, with votes, where the destructor does nothing: every save is at least as
long as the one before. -/
theorem rfstate_loads_last_saved_growing :
    let E := sampleEnv true false
    let labels : List StateLabel := [.boot, .save ⟨5, 1⟩, .boot, .save ⟨300, 2⟩, .boot]
    ∃ t, run (stateStep E) (.start none) labels = some t ∧ t.boots.length = 3 ∧ LoadsSaved t := by
  intro E labels
  obtain ⟨t, hrun, hlength⟩ : ∃ t ∈ run (stateStep E) (.start none) labels,
      t.boots.length = 3 := by
    decide +kernel
  exact ⟨t, hrun, hlength,
    (rfstate_loads_last_saved E none (.inl rfl) labels t hrun).1 (by decide +kernel)⟩

/-- A boot whose result is not the pair that was to be loaded. -/
theorem not_loadsSaved {t : Server} {r : Except BootFault RaftState} {s : RaftState}
    (hlast : t.boots.getLast? = some (r, s)) (hne : r ≠ .ok s) : ¬ LoadsSaved t :=
  fun hloads => hne (hloads _ (List.mem_of_getLast? hlast))

/-- A vote is taken back, and the shorter encoding leaves the bytes of the old vote behind it: the
next boot loads the old vote.  And a server that finds an empty file writes no magic number, so that
it can not read what it has saved. -/
theorem old_vote_loaded :
    let E := sampleEnv true false
    (∃ t, run (stateStep E) (.start none)
        [.boot, .save ⟨300, 5⟩, .save ⟨300, 0⟩, .boot] = some t ∧ ¬ LoadsSaved t ∧
        t.boots.getLast? = some (.ok ⟨300, 5⟩, ⟨300, 0⟩)) ∧
      ∃ t, run (stateStep E) (.start (some [])) [.boot, .save ⟨300, 5⟩, .boot] = some t ∧
        ¬ LoadsSaved t ∧ t.boots.getLast? = some (.error .wrongMagicNo, ⟨300, 5⟩) := by
  intro E
  have hshorter : (run (stateStep E) (.start none)
      [.boot, .save ⟨300, 5⟩, .save ⟨300, 0⟩, .boot]).map (fun t => t.boots.getLast?) =
        some (some (.ok ⟨300, 5⟩, ⟨300, 0⟩)) := by
    decide +kernel
  have hempty : (run (stateStep E) (.start (some [])) [.boot, .save ⟨300, 5⟩, .boot]).map
      (fun t => t.boots.getLast?) = some (some (.error .wrongMagicNo, ⟨300, 5⟩)) := by
    decide +kernel
  obtain ⟨t, ht, htlast⟩ := Option.map_eq_some_iff.1 hshorter
  obtain ⟨u, hu, hulast⟩ := Option.map_eq_some_iff.1 hempty
  exact ⟨⟨t, ht, not_loadsSaved htlast (by decide), htlast⟩,
    u, hu, not_loadsSaved hulast (by decide), hulast⟩

end Raft
end CCraft
