import Nvcr.MlvcSessions

/-!
# MLVC records

A record is read back exactly when its Q index is one that a record can have, and what is read
is the record of exactly one byte string.
-/

namespace Nvcr.Mlvc

open LittleEndian StatefulResults

variable {qIndex : ℤ} {payload bytes : Bytes}

theorem serializeRecord_eq_ok :
    serializeRecord qIndex payload = .ok bytes ↔
      payload.length ≤ 2 ^ 32 - 1 ∧ ¬ (qIndex = droppedFrameQIndex ∧ payload ≠ []) ∧
      bytes = leBytes 4 (qIndex % 2 ^ 32).toNat ++ leBytes 4 payload.length ++ payload := by
  simp only [serializeRecord, bind_eq_ok, require_eq_ok]
  constructor
  · rintro ⟨_, hlength, _, hdropped, hbytes⟩
    exact ⟨hlength, hdropped, (Except.ok.inj hbytes).symm⟩
  · rintro ⟨hlength, hdropped, rfl⟩
    exact ⟨(), hlength, (), hdropped, rfl⟩

theorem parseRecord_eq_ok {record : FrameRecord} :
    parseRecord bytes = .ok record ↔
      8 ≤ bytes.length ∧ leValue ((bytes.drop 4).take 4) = bytes.length - 8 ∧
      ¬ (record.qIndex < droppedFrameQIndex ∨
        (record.qIndex = droppedFrameQIndex ∧ leValue ((bytes.drop 4).take 4) ≠ 0)) ∧
      record = ⟨Int.bmod (leValue (bytes.take 4)) (2 ^ 32), bytes.drop 8⟩ := by
  simp only [parseRecord, bind_eq_ok, require_eq_ok]
  constructor
  · rintro ⟨_, hheader, _, hlength, _, hq, hrecord⟩
    have hsame := Except.ok.inj hrecord
    refine ⟨hheader, hlength, ?_, hsame.symm⟩
    rw [← hsame]
    simpa only using hq
  · rintro ⟨hheader, hlength, hq, hsame⟩
    rw [hsame] at hq
    refine ⟨(), hheader, (), hlength, (), ?_, congrArg _ hsame.symm⟩
    simpa only using hq

/-- The Q index of a record survives its four bytes. -/
theorem bmod_qIndex_bytes (hlow : -2 ^ 31 ≤ qIndex) (hhigh : qIndex < 2 ^ 31) :
    Int.bmod (leValue (leBytes 4 (qIndex % 2 ^ 32).toNat)) (2 ^ 32) = qIndex := by
  have hnonneg : 0 ≤ qIndex % 2 ^ 32 := Int.emod_nonneg _ (by norm_num)
  have hlt : qIndex % 2 ^ 32 < 2 ^ 32 := Int.emod_lt_of_pos _ (by norm_num)
  have hcast : ((qIndex % 2 ^ 32).toNat : ℤ) = qIndex % ((2 ^ 32 : ℕ) : ℤ) :=
    (Int.toNat_of_nonneg hnonneg).trans (by norm_num)
  have hbytes : (qIndex % 2 ^ 32).toNat < 256 ^ 4 := by
    rw [Int.toNat_lt hnonneg]
    exact hlt.trans_eq (by norm_num)
  have hlower : -(((2 ^ 32 : ℕ) : ℤ) / 2) ≤ qIndex := le_trans (by norm_num) hlow
  have hupper : qIndex < (((2 ^ 32 : ℕ) : ℤ) + 1) / 2 := hhigh.trans_le (by norm_num)
  rw [leValue_leBytes_of_lt hbytes, hcast, Int.emod_bmod]
  exact Int.bmod_eq_of_le hlower hupper

/-- A record is read back exactly when its Q index is not below that of a dropped frame. -/
theorem parseRecord_serializeRecord (hlow : -2 ^ 31 ≤ qIndex) (hhigh : qIndex < 2 ^ 31)
    (h : serializeRecord qIndex payload = .ok bytes) :
    parseRecord bytes = .ok ⟨qIndex, payload⟩ ↔ droppedFrameQIndex ≤ qIndex := by
  obtain ⟨hlength, hdropped, rfl⟩ := serializeRecord_eq_ok.mp h
  have htake : (leBytes 4 (qIndex % 2 ^ 32).toNat ++ leBytes 4 payload.length ++ payload).take 4 =
      leBytes 4 (qIndex % 2 ^ 32).toNat := by
    rw [List.append_assoc, List.take_left' (leBytes_length _ _)]
  have hfield : ((leBytes 4 (qIndex % 2 ^ 32).toNat ++ leBytes 4 payload.length ++
      payload).drop 4).take 4 = leBytes 4 payload.length := by
    rw [List.append_assoc, List.drop_left' (leBytes_length _ _),
      List.take_left' (leBytes_length _ _)]
  have hrest : (leBytes 4 (qIndex % 2 ^ 32).toNat ++ leBytes 4 payload.length ++
      payload).drop 8 = payload :=
    List.drop_left' (by simp)
  have hvalue : leValue (leBytes 4 payload.length) = payload.length :=
    leValue_leBytes_of_lt (by omega)
  rw [parseRecord_eq_ok, htake, hfield, hrest, hvalue, bmod_qIndex_bytes hlow hhigh]
  constructor
  · rintro ⟨-, -, hq, -⟩
    exact not_lt.mp fun hlt => hq (.inl hlt)
  · intro hq
    refine ⟨by simp; omega, by simp; omega, ?_, rfl⟩
    rintro (hlt | ⟨heq, hne⟩)
    · exact absurd hq (not_le.mpr hlt)
    · exact hdropped ⟨heq, fun hnil => hne (by simp [hnil])⟩

/-- The bytes of a record are those that its contents are written to. -/
theorem serializeRecord_parseRecord {record : FrameRecord}
    (h : parseRecord bytes = .ok record) :
    serializeRecord record.qIndex record.payload = .ok bytes := by
  obtain ⟨hheader, hlength, hq, rfl⟩ := parseRecord_eq_ok.mp h
  have hfirst : (bytes.take 4).length = 4 := by simp; omega
  have hsecond : ((bytes.drop 4).take 4).length = 4 := by simp; omega
  have hvalue := leValue_lt (bytes.take 4)
  have hfield := leValue_lt ((bytes.drop 4).take 4)
  rw [hfirst] at hvalue
  rw [hsecond] at hfield
  have hsplit : bytes = bytes.take 4 ++ (bytes.drop 4).take 4 ++ bytes.drop 8 := by
    conv_lhs => rw [← List.take_append_drop 4 bytes, ← List.take_append_drop 4 (bytes.drop 4)]
    simp
  refine serializeRecord_eq_ok.mpr ⟨?_, ?_, ?_⟩
  · simp only [List.length_drop]
    omega
  · rintro ⟨hdropped, hne⟩
    refine hq (.inr ⟨hdropped, ?_⟩)
    rw [hlength]
    intro hzero
    exact hne (List.drop_eq_nil_iff.mpr (by omega))
  · have hmod : (Int.bmod (leValue (bytes.take 4)) (2 ^ 32) % 2 ^ 32).toNat =
        leValue (bytes.take 4) := by
      have hpow : (2 : ℤ) ^ 32 = ((2 ^ 32 : ℕ) : ℤ) := by norm_num
      rw [hpow, Int.bmod_emod, ← Int.natCast_emod, Int.toNat_natCast, 
        Nat.mod_eq_of_lt (hvalue.trans_eq (by norm_num))]
    have hpayload : (bytes.drop 8).length = leValue ((bytes.drop 4).take 4) := by
      rw [hlength]
      simp
    have hfour := leBytes_leValue (bytes.take 4)
    have hnext := leBytes_leValue ((bytes.drop 4).take 4)
    rw [hfirst] at hfour
    rw [hsecond] at hnext
    rw [hmod, hpayload, hfour, hnext]
    exact hsplit

end Nvcr.Mlvc
