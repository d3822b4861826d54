import CCraft.Lib.WireFormat

/-!
# Log entries

The message `RfLogEntry` of `node-raft.proto` and what the logger relies on when it
serializes one: {lit}`Protobuf` carries that as fields.  The wire format of version 3
of the language, in which a field with its default value is not written, is one
instance of it.

Main results:

- Theorem {lit}`ofFields_toFields`: an entry is determined by the fields that are
  written.
- Definition {lit}`Protobuf.proto3`: the wire format keeps the promise.
-/

namespace CCraft
namespace RfLog

open WireFormat

/-- `RfLogEntryType`. -/
inductive RfLogEntryType where
  | none
  | configuration
  | data
  | noop
deriving DecidableEq, Repr, Inhabited

namespace RfLogEntryType

/-- The number of a value of the enumeration. -/
def toNat : RfLogEntryType → Nat
  | none => 0
  | configuration => 1
  | data => 2
  | noop => 3

/-- The value with a given number. -/
def ofNat? : Nat → Option RfLogEntryType
  | 0 => some none
  | 1 => some configuration
  | 2 => some data
  | 3 => some noop
  | _ => Option.none

@[simp]
theorem ofNat?_toNat (t : RfLogEntryType) : ofNat? t.toNat = some t := by
  cases t <;> rfl

end RfLogEntryType

/-- `RfLogEntry`. -/
structure RfLogEntry where
  term : UInt32
  index : UInt32
  type : RfLogEntryType
  data : List UInt8
deriving DecidableEq, Repr, Inhabited

/-- What the logger uses of the protobuf library: `SerializeToArray` writes `ByteSize`
bytes, `ParseFromArray` of these bytes gives the entry back, and `release_data` gives the data or,
as for a field that was never set, the null pointer. -/
structure Protobuf where
  byteSize : RfLogEntry → Nat
  serializeToArray : RfLogEntry → List UInt8
  parseFromArray : List UInt8 → Option RfLogEntry
  releaseData : RfLogEntry → Option (List UInt8)
  releaseData_eq : ∀ e data, releaseData e = some data → data = e.data
  length_serializeToArray : ∀ e, (serializeToArray e).length = byteSize e
  parse_serialize : ∀ e, parseFromArray (serializeToArray e) = some e

/-! ## The wire format of an entry -/

/-- A field is written unless it has its default value. -/
def toFields (e : RfLogEntry) : List Field :=
  (if e.term = 0 then [] else [.varint 1 e.term.toNat]) ++
  ((if e.index = 0 then [] else [.varint 2 e.index.toNat]) ++
  ((if e.type = .none then [] else [.varint 3 e.type.toNat]) ++
  (if e.data = [] then [] else [.bytes 4 e.data])))

/-- Store a field in an entry; fields that an entry does not have are ignored. -/
def setField (e : RfLogEntry) : Field → Option RfLogEntry
  | .varint 1 v => some { e with term := UInt32.ofNat v }
  | .varint 2 v => some { e with index := UInt32.ofNat v }
  | .varint 3 v => (RfLogEntryType.ofNat? v).map fun t => { e with type := t }
  | .bytes 4 bs => some { e with data := bs }
  | _ => some e

/-- Store fields one after the other, beginning with an empty entry. -/
def ofFields (fields : List Field) : Option RfLogEntry :=
  fields.foldlM setField ⟨0, 0, .none, []⟩

/-- An entry is determined by the fields that are written. -/
theorem ofFields_toFields (e : RfLogEntry) : ofFields (toFields e) = some e := by
  obtain ⟨term, index, type, data⟩ := e
  unfold ofFields toFields
  simp only [List.foldlM_append]
  -- Whether a field is written or not, it has its value after its turn.
  have hterm : (if term = 0 then [] else [Field.varint 1 term.toNat]).foldlM setField
      ⟨0, 0, .none, []⟩ = some ⟨term, 0, .none, []⟩ := by
    split_ifs with h <;> simp [setField, h]
  have hindex : (if index = 0 then [] else [Field.varint 2 index.toNat]).foldlM setField
      ⟨term, 0, .none, []⟩ = some ⟨term, index, .none, []⟩ := by
    split_ifs with h <;> simp [setField, h]
  have htype : (if type = .none then [] else [Field.varint 3 type.toNat]).foldlM setField
      ⟨term, index, .none, []⟩ = some ⟨term, index, type, []⟩ := by
    split_ifs with h <;> simp [setField, h]
  have hdata : (if data = [] then [] else [Field.bytes 4 data]).foldlM setField
      ⟨term, index, type, []⟩ = some ⟨term, index, type, data⟩ := by
    split_ifs with h <;> simp [setField, h]
  simp only [hterm, hindex, htype, hdata, Option.bind_eq_bind, Option.bind_some]

theorem toFields_number (e : RfLogEntry) : ∀ f ∈ toFields e, 1 ≤ f.number := by
  intro f hf
  simp only [toFields, List.mem_append] at hf
  rcases hf with h | h | h | h <;> split_ifs at h <;> simp at h <;> subst h <;>
    simp [Field.number]

/-- The wire format keeps what the logger relies on.  An entry without data counts as one whose
data was never set. -/
def Protobuf.proto3 : Protobuf where
  byteSize e := (encode (toFields e)).length
  serializeToArray e := encode (toFields e)
  parseFromArray bs := (decode bs).bind ofFields
  releaseData e := if e.data = [] then none else some e.data
  releaseData_eq e data h := by
    split_ifs at h
    exact (Option.some.inj h).symm
  length_serializeToArray _ := rfl
  parse_serialize e := by
    rw [decode_encode (toFields_number e), Option.bind_some, ofFields_toFields]

end RfLog
end CCraft
