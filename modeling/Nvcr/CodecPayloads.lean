import Nvcr.ExactFormats
import Nvcr.MlvcRecords
import Nvcr.RtPayloads
import Nvcr.UfFrameAccounting
import Nvcr.UfGopLaw

/-!
# The payload formats of the codecs

Each of the four headers is an exact format: the parser returns what was written exactly for the
field values that it accepts, and what it accepts has one byte string only.
-/

namespace Nvcr

open LittleEndian StatefulResults ByteWriter ExactFormats

namespace Rt

namespace Payload

/-- The fields and the stream that a payload can carry. -/
def ValidPayload (format : Format) (fields : Fields) : Prop :=
  ValidFields format fields ∧ 4 ≤ fields.rans.length

theorem readU32_eq_ok {bytes rest : Bytes} {value : UInt32}
    (h : readU32.run bytes = .ok (value, rest)) : bytes = writeU32 value ++ rest := by
  by_cases hshort : bytes.length < 4
  · simp [readU32, StateT.run, hshort] at h
  · have htake : (bytes.take 4).length = 4 := by simp; omega
    have hlt := leValue_lt (bytes.take 4)
    rw [htake] at hlt
    simp only [readU32, StateT.run, if_neg hshort] at h
    obtain ⟨rfl, rfl⟩ := Prod.mk.injEq _ _ _ _ ▸ Except.ok.inj h
    have hword : writeU32 (UInt32.ofNat (leValue (bytes.take 4))) = bytes.take 4 := by
      rw [writeU32, UInt32.toNat_ofNat', Nat.mod_eq_of_lt (hlt.trans_eq (by norm_num))]
      have hbytes := leBytes_leValue (bytes.take 4)
      rw [htake] at hbytes
      exact hbytes
    rw [hword, List.take_append_drop]

/-- The bytes of a header are those that its fields are written to. -/
theorem readFields_eq_ok {bytes rest : Bytes} {fields : Fields}
    (h : readFields.run bytes = .ok (fields, rest)) :
    bytes = writeU32 fields.width ++ (writeU32 fields.height ++ (writeU32 fields.qp ++
      (writeU32 fields.flags ++ fields.rans))) := by
  simp only [readFields, StateT.run_bind, bind_eq_ok] at h
  obtain ⟨⟨width, afterWidth⟩, hwidth, ⟨height, afterHeight⟩, hheight, ⟨qp, afterQp⟩, hqp,
    ⟨flags, rans⟩, hflags, ⟨read, last⟩, hget, hfields⟩ := h
  obtain ⟨rfl, rfl⟩ := Prod.mk.injEq _ _ _ _ ▸ Except.ok.inj hget
  obtain ⟨rfl, rfl⟩ := Prod.mk.injEq _ _ _ _ ▸ Except.ok.inj hfields
  have hstream := readU32_eq_ok hflags
  simp only [] at hwidth hheight hqp hstream ⊢
  rw [readU32_eq_ok hwidth, readU32_eq_ok hheight, readU32_eq_ok hqp, hstream]

theorem make_parse {format : Format} {bytes : Bytes} {fields : Fields}
    (h : parse format bytes = .ok fields) :
    make format fields = bytes ∧ ValidPayload format fields := by
  have hvalid := parse_eq_ok h
  simp only [parse, bind_eq_ok, require_eq_ok] at h
  obtain ⟨_, ⟨hlength, hmagic⟩, ⟨read, rest⟩, hread, _, -, hfields⟩ := h
  obtain rfl := Except.ok.inj hfields
  have hdrop := readFields_eq_ok hread
  have hmake : make format read = bytes := by
    rw [make, ← hdrop, ← hmagic, List.take_append_drop]
  refine ⟨hmake, hvalid, ?_⟩
  have htotal := make_length format read
  rw [hmake] at htotal
  change 4 ≤ read.rans.length
  omega

theorem exactFormat (format : Format) :
    ExactFormat (fun fields => (.ok (make format fields) : Result Bytes)) (parse format)
      (ValidPayload format) :=
  .of_total (fun _ h => parse_make h.1 h.2) (fun _ _ h => (make_parse h).2)
    (fun _ _ h => (make_parse h).1)

end Payload

open Payload

/-- The intra payloads that the parser accepts. -/
def IntraPayload.Valid (payload : IntraPayload) : Prop :=
  SupportedDimensions payload.width payload.height ∧ payload.qp.toNat < 64 ∧
    4 ≤ payload.rans.length

/-- The predicted payloads that the parser accepts. -/
def PredictedPayload.Valid (payload : PredictedPayload) : Prop :=
  SupportedDimensions payload.width payload.height ∧ payload.qp.toNat < 72 ∧
    4 ≤ payload.rans.length

theorem intra_canonical {bytes : Bytes} {payload : IntraPayload}
    (h : parseIntraPayload bytes = .ok payload) :
    payload.Valid ∧ makeIntraPayload payload = bytes := by
  obtain ⟨fields, hparse, hpayload⟩ := bind_eq_ok.mp h
  obtain ⟨hmake, ⟨hsize, hqp, hflags⟩, hrans⟩ := make_parse hparse
  obtain rfl := Except.ok.inj hpayload
  refine ⟨⟨hsize, hqp, hrans⟩, ?_⟩
  have hbits : (if decide (fields.flags = 1) = true then 1 else 0 : UInt32) = fields.flags := by
    change fields.flags.toNat ≤ 1 at hflags
    by_cases hone : fields.flags = 1
    · simp [hone]
    · have hne : fields.flags.toNat ≠ 1 := fun h => hone (UInt32.toNat.inj h)
      have hzero : fields.flags = 0 := UInt32.toNat.inj (by simpa using (by omega : _ = 0))
      simp [hzero]
  rw [← hmake, makeIntraPayload, hbits]

theorem predicted_canonical {bytes : Bytes} {payload : PredictedPayload}
    (h : parsePredictedPayload bytes = .ok payload) :
    payload.Valid ∧ makePredictedPayload payload = bytes := by
  obtain ⟨fields, hparse, hpayload⟩ := bind_eq_ok.mp h
  obtain ⟨hmake, ⟨hsize, hqp, hflags⟩, hrans⟩ := make_parse hparse
  obtain rfl := Except.ok.inj hpayload
  refine ⟨⟨hsize, hqp, hrans⟩, ?_⟩
  have hcases : fields.flags = 0 ∨ fields.flags = 1 ∨ fields.flags = 2 ∨ fields.flags = 3 := by
    change fields.flags.toNat ≤ 3 at hflags
    simp only [← UInt32.toNat_inj]
    simp
    omega
  have hbits : ((if decide (fields.flags &&& 1 ≠ 0) = true then 1 else 0) |||
      (if decide (fields.flags &&& 2 ≠ 0) = true then 2 else 0) : UInt32) = fields.flags := by
    rcases hcases with h | h | h | h <;> rw [h] <;> decide
  rw [← hmake, makePredictedPayload, hbits]

theorem intra_exact :
    ExactFormat (fun payload => (.ok (makeIntraPayload payload) : Result Bytes)) parseIntraPayload
      IntraPayload.Valid :=
  .of_total (fun _ h => parseIntraPayload_make h.1 h.2.1 h.2.2) (fun _ _ h => (intra_canonical h).1)
    (fun _ _ h => (intra_canonical h).2)

theorem predicted_exact :
    ExactFormat (fun payload => (.ok (makePredictedPayload payload) : Result Bytes))
      parsePredictedPayload PredictedPayload.Valid :=
  .of_total (fun _ h => parsePredictedPayload_make h.1 h.2.1 h.2.2)
    (fun _ _ h => (predicted_canonical h).1) (fun _ _ h => (predicted_canonical h).2)

end Rt

namespace Uf

/-- The payloads that the parser accepts for a frame type. -/
structure CodecPayload.Valid (type : FrameType) (payload : CodecPayload) : Prop where
  count_ne : payload.timestamps ≠ []
  count_le : payload.timestamps.length ≤ 8
  intra_count : type = .intra → payload.timestamps.length = 1
  entropy_parallel_ne : payload.entropyParallel ≠ 0
  reset : payload.resetFeatureMemory = true → type = .predicted
  bitstream_ne : payload.bitstream ≠ []
  bitstream_le : payload.bitstream.length ≤ 2 ^ 31 - 1

/-- A payload as it is written. -/
def CodecPayload.make (type : FrameType) (payload : CodecPayload) : Bytes :=
  makePayload type ⟨payload.bitstream, payload.entropyParallel⟩ payload.timestamps
    payload.resetFeatureMemory

section Read

theorem makePayload_length (type : FrameType) (encoded : Encoded) (timestamps : List Timestamp)
    (reset : Bool) : (makePayload type encoded timestamps reset).length =
      8 + timestamps.length * 8 + encoded.bitstream.length := by
  simp [makePayload, List.length_flatMap]
  omega

theorem makePayload_drop (type : FrameType) (encoded : Encoded) (timestamps : List Timestamp)
    (reset : Bool) : (makePayload type encoded timestamps reset).drop (8 + timestamps.length * 8) =
      encoded.bitstream := by
  have hsplit : makePayload type encoded timestamps reset =
      (payloadMagic type ++ (UInt8.ofNat timestamps.length :: encoded.entropyParallel ::
        (if reset then resetFeatureMemoryFlag else 0) :: 0 :: timestamps.flatMap appendU64)) ++
        encoded.bitstream := by
    simp [makePayload]
  rw [hsplit]
  refine List.drop_left' ?_
  simp [List.length_flatMap]
  omega

/-- A valid payload is read back as it was written. -/
theorem parsePayload_make {type : FrameType} {payload : CodecPayload} (h : payload.Valid type) :
    parsePayload type (payload.make type) = .ok payload := by
  have hshort : payload.timestamps.length < 256 := h.count_le.trans_lt (by decide)
  have hcount : declaredCount (payload.make type) = payload.timestamps.length :=
    declaredCount_makePayload type _ _ _ hshort
  have htimestamps : declaredTimestamps (payload.make type) = payload.timestamps :=
    declaredTimestamps_makePayload type _ _ _ hshort
  have hreset : declaredReset (payload.make type) = payload.resetFeatureMemory :=
    Ledger.declaredReset_makePayload type _ _ _
  have hparallel : (payload.make type).getD 5 0 = payload.entropyParallel := by
    cases type <;> rfl
  have hflags : (payload.make type).getD 6 0 =
      if payload.resetFeatureMemory then resetFeatureMemoryFlag else 0 := by
    cases type <;> rfl
  have hreserved : (payload.make type).getD 7 0 = 0 := by
    cases type <;> rfl
  have hlength : (payload.make type).length =
      8 + payload.timestamps.length * 8 + payload.bitstream.length := makePayload_length type _ _ _
  have hdrop : (payload.make type).drop (8 + payload.timestamps.length * 8) = payload.bitstream :=
    makePayload_drop type _ _ _
  have hmagic : (payload.make type).take 4 = payloadMagic type :=
    List.take_left' (payloadMagic_length type)
  have hcountPos : 0 < payload.timestamps.length := List.length_pos_of_ne_nil h.count_ne
  have hstreamPos : 0 < payload.bitstream.length := List.length_pos_of_ne_nil h.bitstream_ne
  have hallowed : (if payload.resetFeatureMemory then resetFeatureMemoryFlag else 0) &&&
      ~~~(if type = .intra then 0 else resetFeatureMemoryFlag) = 0 := by
    cases hr : payload.resetFeatureMemory with
    | false => simp
    | true =>
        rw [h.reset hr]
        decide
  simp only [parsePayload, hcount, hparallel, hflags, hreserved, hdrop, hreset, htimestamps,
    bind_eq_ok, require_eq_ok]
  exact ⟨(), ⟨by omega, hmagic⟩, (), ⟨hallowed, trivial, h.entropy_parallel_ne, hcountPos.ne',
    h.count_le, h.intra_count⟩, (), by omega, (), h.bitstream_le, rfl⟩

theorem appendU64_readU64 {bytes : Bytes} {offset : ℕ} (h : offset + 8 ≤ bytes.length) :
    appendU64 (readU64 bytes offset) = (bytes.drop offset).take 8 := by
  have hlength : ((bytes.drop offset).take 8).length = 8 := by simp; omega
  have hlt := leValue_lt ((bytes.drop offset).take 8)
  have hbytes := leBytes_leValue ((bytes.drop offset).take 8)
  rw [hlength] at hlt hbytes
  change leBytes 8 (UInt64.ofNat (leValue ((bytes.drop offset).take 8))).toNat = _
  rw [UInt64.toNat_ofNat', Nat.mod_eq_of_lt (hlt.trans_eq (by norm_num)), hbytes]

/-- Consecutive fields of eight bytes make up the bytes that they cover. -/
theorem flatMap_appendU64_readU64 {bytes : Bytes} {start : ℕ} :
    ∀ count, start + count * 8 ≤ bytes.length →
      (List.range count).flatMap (fun index => appendU64 (readU64 bytes (start + index * 8))) =
        (bytes.drop start).take (count * 8) := by
  intro count
  induction count with
  | zero => simp
  | succ count ih =>
      intro h
      have hfield : start + count * 8 + 8 ≤ bytes.length := by omega
      rw [List.range_succ, List.flatMap_append, ih (by omega), Nat.succ_mul, List.take_add,
        List.drop_drop]
      simp only [List.flatMap_cons, List.flatMap_nil, List.append_nil]
      rw [appendU64_readU64 hfield]

theorem eight_bytes {bytes : Bytes} (h : 8 ≤ bytes.length) :
    bytes = bytes.take 4 ++ (bytes.getD 4 0 :: bytes.getD 5 0 :: bytes.getD 6 0 ::
      bytes.getD 7 0 :: bytes.drop 8) := by
  match bytes, h with
  | _ :: _ :: _ :: _ :: _ :: _ :: _ :: _ :: _, _ => rfl

/-- A flag byte without bits outside the reset flag is determined by that flag. -/
theorem reset_flag_byte (flags : UInt8) (h : flags &&& ~~~resetFeatureMemoryFlag = 0) :
    flags = if decide (flags &&& resetFeatureMemoryFlag ≠ 0) then resetFeatureMemoryFlag else 0 := by
  have hall : ∀ n : Fin 256, UInt8.ofNat n &&& ~~~resetFeatureMemoryFlag = 0 →
      UInt8.ofNat n = if decide (UInt8.ofNat n &&& resetFeatureMemoryFlag ≠ 0)
        then resetFeatureMemoryFlag else 0 := by decide +kernel
  have hflags := hall ⟨flags.toNat, flags.toNat_lt⟩
  simp only [UInt8.ofNat_toNat] at hflags
  exact hflags h

/-- What is accepted is valid and was written so. -/
theorem payload_canonical {type : FrameType} {bytes : Bytes} {payload : CodecPayload}
    (h : parsePayload type bytes = .ok payload) :
    payload.Valid type ∧ payload.make type = bytes := by
  simp only [parsePayload, bind_eq_ok, require_eq_ok] at h
  obtain ⟨_, ⟨hlength, hmagic⟩, _, ⟨hflags, hreserved, hparallel, hne, hle, hintra⟩, _, hheader, _,
    hstream, hpayload⟩ := h
  obtain rfl := Except.ok.inj hpayload
  have hcount : (declaredTimestamps bytes).length = declaredCount bytes := by
    simp [declaredTimestamps]
  have hflag : bytes.getD 6 0 = (if declaredReset bytes then resetFeatureMemoryFlag else 0) ∧
      (declaredReset bytes = true → type = .predicted) := by
    cases type with
    | intra =>
        have hzero : bytes.getD 6 0 = 0 := by simpa using hflags
        rw [declaredReset, hzero]
        decide
    | predicted => exact ⟨reset_flag_byte _ hflags, fun _ => rfl⟩
  refine ⟨⟨?_, hcount.trans_le hle, fun ht => hcount.trans (hintra ht), hparallel, hflag.2, ?_,
    hstream⟩, ?_⟩
  · intro hnil
    have hzero := congrArg List.length hnil
    exact hne (hcount.symm.trans hzero)
  · intro hnil
    have hzero := congrArg List.length hnil
    simp only [List.length_drop, List.length_nil] at hzero
    omega
  · have hfields : (declaredTimestamps bytes).flatMap appendU64 =
        (bytes.drop 8).take (declaredCount bytes * 8) := by
      rw [declaredTimestamps, List.flatMap_map]
      exact flatMap_appendU64_readU64 _ (by omega)
    have hrest : (bytes.drop 8).drop (declaredCount bytes * 8) =
        bytes.drop (8 + declaredCount bytes * 8) := List.drop_drop
    have hbyte : UInt8.ofNat (declaredCount bytes) = bytes.getD 4 0 := by
      rw [declaredCount, UInt8.ofNat_toNat]
    have height : 8 ≤ bytes.length := by omega
    rw [CodecPayload.make, makePayload, hcount, hbyte, hfields, ← hrest, List.take_append_drop]
    conv_rhs => rw [eight_bytes height, hmagic, hflag.1, hreserved]

end Read

theorem payload_exact (type : FrameType) :
    ExactFormat (fun payload => (.ok (payload.make type) : Result Bytes)) (parsePayload type)
      (CodecPayload.Valid type) :=
  .of_total (fun _ h => parsePayload_make h) (fun _ _ h => (payload_canonical h).1)
    (fun _ _ h => (payload_canonical h).2)

end Uf

namespace Mlvc

/-- A Q index that a record can carry: that of a dropped frame, or a 31-bit number. -/
def FrameRecord.Valid (record : FrameRecord) : Prop :=
  droppedFrameQIndex ≤ record.qIndex ∧ record.qIndex < 2 ^ 31

theorem record_exact :
    ExactFormat (fun record => serializeRecord record.qIndex record.payload) parseRecord
      FrameRecord.Valid where
  read_back := by
    intro record bytes h
    constructor
    · intro hparse
      obtain ⟨-, -, hq, hrecord⟩ := parseRecord_eq_ok.mp hparse
      refine ⟨not_lt.mp fun hlt => hq (.inl hlt), ?_⟩
      have hupper := Int.bmod_lt (x := (leValue (bytes.take 4) : ℤ)) (m := 2 ^ 32) (by norm_num)
      have hindex : record.qIndex = Int.bmod (leValue (bytes.take 4)) (2 ^ 32) := by
        simp only [hrecord]
      have hhalf : (((2 ^ 32 : ℕ) : ℤ) + 1) / 2 = 2 ^ 31 := by norm_num
      rw [hindex, ← hhalf]
      exact hupper
    · rintro ⟨hlow, hhigh⟩
      have hlower : -2 ^ 31 ≤ record.qIndex := le_trans (by norm_num [droppedFrameQIndex]) hlow
      exact (parseRecord_serializeRecord hlower hhigh h).mpr hlow
  canonical _ _ h := serializeRecord_parseRecord h

end Mlvc

/-- All four payload formats are exact: what is made is read back exactly for the values that the
parser takes, and every accepted byte string is made again from what was read. -/
theorem payload_formats_exact :
    ExactFormat (fun payload => (.ok (Rt.makeIntraPayload payload) : Result Bytes))
      Rt.parseIntraPayload Rt.IntraPayload.Valid ∧
    ExactFormat (fun payload => (.ok (Rt.makePredictedPayload payload) : Result Bytes))
      Rt.parsePredictedPayload Rt.PredictedPayload.Valid ∧
    (∀ type, ExactFormat (fun payload => (.ok (payload.make type) : Result Bytes))
      (Uf.parsePayload type) (Uf.CodecPayload.Valid type)) ∧
    ExactFormat (fun record => Mlvc.serializeRecord record.qIndex record.payload)
      Mlvc.parseRecord Mlvc.FrameRecord.Valid :=
  ⟨Rt.intra_exact, Rt.predicted_exact, Uf.payload_exact, Mlvc.record_exact⟩

/-- A stream of one byte is written behind valid fields but not read back, and so is a frame of
unsupported size. -/
theorem made_payloads_rejected :
    Rt.parseIntraPayload (Rt.makeIntraPayload ⟨64, 64, 0, false, [7]⟩) =
      .error (Rt.Payload.malformed "invalid NVCR I-frame payload") ∧
    Rt.parseIntraPayload (Rt.makeIntraPayload ⟨32, 64, 0, false, [7, 7, 7, 7]⟩) =
      .error (Rt.Payload.malformed "invalid NVCR I-frame fields") ∧
    Uf.parsePayload .intra (Uf.makePayload .intra ⟨[7], 0⟩ [0] false) =
      .error (Uf.codecError .malformedBitstream "invalid DCVC-UF payload fields") := by
  decide +kernel

end Nvcr
