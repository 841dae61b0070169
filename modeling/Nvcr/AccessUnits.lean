import Nvcr.ByteStreams

/-!
# NVAU access units

Version 1 is a fixed header, the model identity and the codec payload. Version 2 adds codec
identities, dependencies and typed sections. Strings are byte strings, as the reader makes no
assumption on their encoding before it has validated them.
-/

namespace Nvcr

open StatefulResults ByteReader ByteWriter

structure AccessUnitSection where
  type : UInt16
  version : UInt16
  flags : UInt32
  payload : Bytes
  deriving DecidableEq, Repr

structure AccessUnit where
  modelId : Bytes
  width : UInt32
  height : UInt32
  qp : UInt32
  frameType : FrameType
  resetState : Bool
  payload : Bytes
  codecId : Bytes := []
  codecProfileId : Bytes := []
  bitDepth : UInt8 := 8
  randomAccess : Bool := false
  discontinuity : Bool := false
  decodeOrderIndex : UInt64 := 0
  presentationOrderIndex : UInt64 := 0
  dependencies : List UInt64 := []
  sections : List AccessUnitSection := []
  deriving DecidableEq, Repr

namespace AccessUnitIo

def formatVersion : UInt16 := 1

def sectionedFormatVersion : UInt16 := 2

def maximumModelIdBytes : ℕ := 128

def maximumCodecIdBytes : ℕ := 128

def maximumCodecProfileIdBytes : ℕ := 128

def maximumDependencies : ℕ := 32

def maximumSections : ℕ := 64

def requiredSectionFlag : UInt32 := 1

def maximumDimension : ℕ := 16384

def maximumPixels : ℕ := 256 * 1024 * 1024

/-- The bytes of "NVAU". -/
def magic : Bytes := [78, 86, 65, 85]

theorem magic_length : magic.length = 4 := rfl

def resetStateFlag : UInt8 := 1

def fixedHeaderBytesV1 : ℕ := 32

def fixedHeaderBytesV2 : UInt16 := 64

def codecPayloadSectionType : UInt16 := 1

def malformed (message : String) : Error := ⟨.malformedBitstream, message, "access-unit"⟩

def invalid (message : String) : Error := ⟨.invalidArgument, message, "access-unit"⟩

def limitError : Error :=
  ⟨.resourceExhausted, "access unit exceeds configured limit", "access-unit"⟩

/-- ASCII letters, digits, '.', '_' and '-'. -/
def identifierCharacter (c : UInt8) : Bool :=
  (48 ≤ c && c ≤ 57) || (65 ≤ c && c ≤ 90) || (97 ≤ c && c ≤ 122) || c = 46 || c = 95 || c = 45

def validIdentifier (value : Bytes) (maximumSize : ℕ) : Bool :=
  !value.isEmpty && value.length ≤ maximumSize && value.all identifierCharacter

def validModelId (modelId : Bytes) : Bool := validIdentifier modelId maximumModelIdBytes

def DimensionsInRange (width height : UInt32) : Prop :=
  width ≠ 0 ∧ height ≠ 0 ∧ width.toNat ≤ maximumDimension ∧ height.toNat ≤ maximumDimension ∧
  width.toNat % 2 = 0 ∧ height.toNat % 2 = 0 ∧ width.toNat * height.toNat ≤ maximumPixels

instance (width height : UInt32) : Decidable (DimensionsInRange width height) := by
  unfold DimensionsInRange
  infer_instance

def maximumQp : FrameType → ℕ
  | .intra => 63
  | .predicted => 71

def validateCommonFields (unit : AccessUnit) : Result Unit := do
  require (validModelId unit.modelId)
    (invalid "model_id must contain 1-128 ASCII letters, digits, '.', '_' or '-'")
  require (DimensionsInRange unit.width unit.height)
    (invalid "access-unit dimensions are out of range")
  require (unit.qp.toNat ≤ maximumQp unit.frameType) (invalid "access-unit QP is out of range")
  require (unit.resetState = decide (unit.frameType = .intra))
    (invalid "intra access units must carry reset_state and predicted access units must not")
  require (unit.payload ≠ []) (invalid "access-unit payload is empty")

def validateV1Fields (unit : AccessUnit) : Result Unit := validateCommonFields unit

def knownSectionType (type : UInt16) : Bool :=
  type = 1 || type = 2 || type = 3 || type = 4 || type = 5 || type = 6 || type = 0x8000

/-- The payload of the one codec payload section, as the loop over the sections finds it. -/
def codecPayloadSection : Option Bytes → List AccessUnitSection → Result (Option Bytes)
  | found, [] => .ok found
  | found, s :: rest =>
      if s.payload = [] then
        .error (invalid "access-unit section payload is empty")
      else if s.type = codecPayloadSectionType then
        if found.isSome then
          .error (invalid "access-unit has multiple codec payload sections")
        else
          codecPayloadSection (some s.payload) rest
      else
        codecPayloadSection found rest

def normalizedSections (unit : AccessUnit) : Result (List AccessUnitSection) := do
  let sections := if unit.sections = [] then
      [⟨codecPayloadSectionType, 1, requiredSectionFlag, unit.payload⟩]
    else unit.sections
  match ← codecPayloadSection none sections with
  | none => .error (invalid "access-unit has no codec payload section")
  | some payload =>
      require (payload = unit.payload)
        (invalid "access-unit payload must match the codec payload section")
      pure sections

def validateV2Fields (unit : AccessUnit) : Result (List AccessUnitSection) := do
  validateCommonFields unit
  require (validIdentifier unit.codecId maximumCodecIdBytes)
    (invalid "access-unit codec_id is invalid")
  require (validIdentifier unit.codecProfileId maximumCodecProfileIdBytes)
    (invalid "access-unit codec_profile_id is invalid")
  -- The only pixel format of the type is YUV420P8.
  require (unit.bitDepth = 8) (invalid "access-unit v2 currently supports only YUV420P8")
  require (unit.dependencies.length ≤ maximumDependencies)
    (invalid "access-unit has too many dependencies")
  require (unit.sections.length ≤ maximumSections) (invalid "access-unit has too many sections")
  normalizedSections unit

def frameTypeByte : FrameType → UInt8
  | .intra => 0
  | .predicted => 1

def frameTypeOfByte (byte : UInt8) : FrameType := if byte = 0 then .intra else .predicted

def deserializeV1 (size maximumAccessUnitBytes : ℕ) : ByteReader AccessUnit := do
  let frameType ← readU8
  let flags ← readU8
  let modelIdSize ← readU16
  let reserved ← readU16
  let width ← readU32
  let height ← readU32
  let qp ← readU32
  let payloadSize ← readU64
  check (frameType ≤ 1) (malformed "invalid access-unit frame type")
  check (flags &&& ~~~resetStateFlag = 0 ∧ reserved = 0)
    (malformed "unsupported access-unit flags or reserved fields")
  check (modelIdSize ≠ 0 ∧ modelIdSize.toNat ≤ maximumModelIdBytes)
    (malformed "access-unit model identity is out of range")
  let left ← remaining
  check (payloadSize ≠ 0 ∧ payloadSize.toNat ≤ left)
    (malformed "access-unit payload length is invalid")
  check (size ≤ maximumAccessUnitBytes) limitError
  let modelId ← readBytes modelIdSize.toNat
  let payload ← readBytes payloadSize.toNat
  let left ← remaining
  check (left = 0) (malformed "trailing access-unit data")
  let output : AccessUnit :=
    { modelId, width, height, qp, frameType := frameTypeOfByte frameType
      resetState := flags &&& resetStateFlag ≠ 0, payload }
  match validateV1Fields output with
  | .error e => throw (malformed e.message)
  | .ok () => pure output

structure SectionHeader where
  type : UInt16
  version : UInt16
  flags : UInt32
  size : UInt64
  deriving DecidableEq, Repr

def readDependencies : ℕ → ByteReader (List UInt64)
  | 0 => pure []
  | count + 1 => do
      let dependency ← readU64
      let rest ← readDependencies count
      pure (dependency :: rest)

/-- The section table, with the sum of the section sizes so far. -/
def readSectionHeaders : ℕ → ℕ → ByteReader (List SectionHeader × ℕ)
  | 0, aggregate => pure ([], aggregate)
  | count + 1, aggregate => do
      let type ← readU16
      let version ← readU16
      let flags ← readU32
      let size ← readU64
      check (size ≠ 0) (malformed "NVAU v2 section length is invalid")
      check (knownSectionType type ∨ flags &&& requiredSectionFlag = 0)
        (malformed "unknown required NVAU v2 section")
      check (aggregate ≤ 2 ^ 64 - 1 - size.toNat)
        (malformed "NVAU v2 aggregate section length overflow")
      let (headers, total) ← readSectionHeaders count (aggregate + size.toNat)
      pure (⟨type, version, flags, size⟩ :: headers, total)

/-- The section payloads, with the codec payload found so far. -/
def readSections : List SectionHeader → Option Bytes →
    ByteReader (List AccessUnitSection × Option Bytes)
  | [], codecPayload => pure ([], codecPayload)
  | header :: headers, codecPayload => do
      let payload ← readBytes header.size.toNat
      let codecPayload ← if header.type = codecPayloadSectionType then do
          check (codecPayload.isNone) (malformed "multiple NVAU v2 codec payload sections")
          pure (some payload)
        else pure codecPayload
      let (sections, found) ← readSections headers codecPayload
      pure (⟨header.type, header.version, header.flags, payload⟩ :: sections, found)

def deserializeV2 (size maximumAccessUnitBytes : ℕ) : ByteReader AccessUnit := do
  let headerSize ← readU16
  let flags ← readU32
  let frameType ← readU8
  let pixelFormat ← readU8
  let bitDepth ← readU8
  let reserved8 ← readU8
  let width ← readU32
  let height ← readU32
  let qp ← readU32
  let decodeOrderIndex ← readU64
  let presentationOrderIndex ← readU64
  let dependencyCount ← readU16
  let sectionCount ← readU16
  let codecIdSize ← readU16
  let codecProfileIdSize ← readU16
  let modelIdSize ← readU16
  let reserved16 ← readU16
  let totalSize ← readU64
  check (headerSize = fixedHeaderBytesV2) (malformed "invalid NVAU v2 header size")
  check (totalSize.toNat = size ∧ totalSize.toNat ≤ maximumAccessUnitBytes) limitError
  check (flags &&& ~~~7 = 0 ∧ reserved8 = 0 ∧ reserved16 = 0)
    (malformed "unsupported NVAU v2 flags or reserved fields")
  check (frameType ≤ 1) (malformed "invalid access-unit frame type")
  check (pixelFormat = 1 ∧ bitDepth = 8) (malformed "unsupported NVAU v2 pixel format")
  check (dependencyCount.toNat ≤ maximumDependencies ∧ sectionCount ≠ 0 ∧
      sectionCount.toNat ≤ maximumSections)
    (malformed "NVAU v2 dependency or section count is out of range")
  check (codecIdSize ≠ 0 ∧ codecIdSize.toNat ≤ maximumCodecIdBytes ∧
      codecProfileIdSize ≠ 0 ∧ codecProfileIdSize.toNat ≤ maximumCodecProfileIdBytes ∧
      modelIdSize ≠ 0 ∧ modelIdSize.toNat ≤ maximumModelIdBytes)
    (malformed "NVAU v2 identity length is out of range")
  let codecId ← readBytes codecIdSize.toNat
  let codecProfileId ← readBytes codecProfileIdSize.toNat
  let modelId ← readBytes modelIdSize.toNat
  let dependencies ← readDependencies dependencyCount.toNat
  let (headers, aggregate) ← readSectionHeaders sectionCount.toNat 0
  let left ← remaining
  check (aggregate = left)
    (malformed "NVAU v2 section table and payload sizes are inconsistent")
  let (sections, codecPayload) ← readSections headers none
  let left ← remaining
  check (left = 0) (malformed "trailing NVAU v2 section payload data")
  match codecPayload with
  | none => throw (malformed "NVAU v2 has no codec payload section")
  | some payload =>
      let output : AccessUnit :=
        { modelId, width, height, qp, frameType := frameTypeOfByte frameType
          resetState := flags &&& 1 ≠ 0, payload, codecId, codecProfileId, bitDepth
          randomAccess := flags &&& 2 ≠ 0, discontinuity := flags &&& 4 ≠ 0
          decodeOrderIndex, presentationOrderIndex, dependencies, sections }
      match validateV2Fields output with
      | .error e => throw (malformed e.message)
      | .ok _ => pure output

def hasMagic (bytes : Bytes) : Bool := bytes.take 4 = magic

/-- The version 1 byte string of a unit. -/
def bytesV1 (unit : AccessUnit) : Bytes :=
  magic ++ (writeU16 formatVersion ++ (writeU8 (frameTypeByte unit.frameType) ++
  (writeU8 (if unit.resetState then resetStateFlag else 0) ++
  (writeU16 (UInt16.ofNat unit.modelId.length) ++ (writeU16 0 ++
  (writeU32 unit.width ++ (writeU32 unit.height ++ (writeU32 unit.qp ++
  (writeU64 (UInt64.ofNat unit.payload.length) ++ (unit.modelId ++ unit.payload))))))))))

def serialize (unit : AccessUnit) (maximumAccessUnitBytes : ℕ) : Result Bytes := do
  validateV1Fields unit
  require (unit.modelId.length ≤ 2 ^ 16 - 1 ∧ unit.payload.length ≤ 2 ^ 64 - 1 ∧
    fixedHeaderBytesV1 + unit.modelId.length + unit.payload.length ≤ maximumAccessUnitBytes)
    limitError
  pure (bytesV1 unit)

def deserialize (bytes : Bytes) (maximumAccessUnitBytes : ℕ) : Result AccessUnit := do
  require (bytes.length ≤ maximumAccessUnitBytes) limitError
  require (hasMagic bytes) (malformed "invalid access-unit magic")
  let parse : ByteReader AccessUnit := do
    let _ ← readBytes 4
    let version ← readU16
    if version = formatVersion then
      deserializeV1 bytes.length maximumAccessUnitBytes
    else if version = sectionedFormatVersion then
      deserializeV2 bytes.length maximumAccessUnitBytes
    else
      throw (malformed "unsupported access-unit version")
  parse.run' bytes

/-- The fields that version 1 carries. -/
def v1Fields (unit : AccessUnit) : AccessUnit where
  modelId := unit.modelId
  width := unit.width
  height := unit.height
  qp := unit.qp
  frameType := unit.frameType
  resetState := unit.resetState
  payload := unit.payload

theorem serialize_eq_ok {unit : AccessUnit} {maximumAccessUnitBytes : ℕ} {bytes : Bytes} :
    serialize unit maximumAccessUnitBytes = .ok bytes ↔
      validateV1Fields unit = .ok () ∧
      (unit.modelId.length ≤ 2 ^ 16 - 1 ∧ unit.payload.length ≤ 2 ^ 64 - 1 ∧
        fixedHeaderBytesV1 + unit.modelId.length + unit.payload.length ≤ maximumAccessUnitBytes) ∧
      bytes = bytesV1 unit := by
  simp only [serialize, bind_eq_ok, require_eq_ok]
  constructor
  · rintro ⟨_, hvalid, _, hlimit, hbytes⟩
    exact ⟨hvalid, hlimit, (Except.ok.inj hbytes).symm⟩
  · rintro ⟨hvalid, hlimit, rfl⟩
    exact ⟨(), hvalid, (), hlimit, rfl⟩

structure ValidV1 (unit : AccessUnit) : Prop where
  modelId : validModelId unit.modelId
  dimensions : DimensionsInRange unit.width unit.height
  qp : unit.qp.toNat ≤ maximumQp unit.frameType
  resetState : unit.resetState = decide (unit.frameType = .intra)
  payload : unit.payload ≠ []

theorem validateV1Fields_eq_ok {unit : AccessUnit} :
    validateV1Fields unit = .ok () ↔ ValidV1 unit := by
  simp only [validateV1Fields, validateCommonFields, bind_eq_ok, require_eq_ok]
  constructor
  · rintro ⟨_, hmodel, _, hdim, _, hqp, _, hreset, hpayload⟩
    exact ⟨hmodel, hdim, hqp, hreset, hpayload⟩
  · rintro ⟨hmodel, hdim, hqp, hreset, hpayload⟩
    exact ⟨(), hmodel, (), hdim, (), hqp, (), hreset, hpayload⟩

theorem bytesV1_length (unit : AccessUnit) :
    (bytesV1 unit).length = fixedHeaderBytesV1 + unit.modelId.length + unit.payload.length := by
  simp [bytesV1, magic, fixedHeaderBytesV1]
  omega

theorem frameTypeOfByte_frameTypeByte (frameType : FrameType) :
    frameTypeOfByte (frameTypeByte frameType) = frameType := by
  cases frameType <;> rfl

/-- Parsing the version 1 bytes after the version field gives the unit's fields back. -/
theorem deserializeV1_bytesV1 {unit : AccessUnit} (h : ValidV1 unit)
    (hpayload : unit.payload.length ≤ 2 ^ 64 - 1) {size maximumAccessUnitBytes : ℕ}
    (hsize : size ≤ maximumAccessUnitBytes) :
    (deserializeV1 size maximumAccessUnitBytes).run
      (writeU8 (frameTypeByte unit.frameType) ++
      (writeU8 (if unit.resetState then resetStateFlag else 0) ++
      (writeU16 (UInt16.ofNat unit.modelId.length) ++ (writeU16 0 ++
      (writeU32 unit.width ++ (writeU32 unit.height ++ (writeU32 unit.qp ++
      (writeU64 (UInt64.ofNat unit.payload.length) ++ (unit.modelId ++ unit.payload))))))))) =
      .ok (v1Fields unit, []) := by
  have hmodel := h.modelId
  simp only [validModelId, validIdentifier, Bool.and_eq_true, decide_eq_true_eq] at hmodel
  have hmodelPos : 0 < unit.modelId.length := by
    apply List.length_pos_iff.mpr
    rintro hnil
    simp [hnil] at hmodel
  have hmodelLe : unit.modelId.length ≤ 128 := hmodel.1.2
  have hpayloadPos : 0 < unit.payload.length := List.length_pos_iff.mpr h.payload
  have hmodelSize : (UInt16.ofNat unit.modelId.length).toNat = unit.modelId.length := by
    rw [UInt16.toNat_ofNat', Nat.mod_eq_of_lt (by omega)]
  have hpayloadSize : (UInt64.ofNat unit.payload.length).toNat = unit.payload.length := by
    rw [UInt64.toNat_ofNat', Nat.mod_eq_of_lt (by omega)]
  have hmodelNe : UInt16.ofNat unit.modelId.length ≠ 0 := by
    intro hzero
    rw [hzero] at hmodelSize
    simp at hmodelSize
    omega
  have hpayloadNe : UInt64.ofNat unit.payload.length ≠ 0 := by
    intro hzero
    rw [hzero] at hpayloadSize
    simp at hpayloadSize
    omega
  have hflag : (if unit.resetState then resetStateFlag else 0) &&& ~~~resetStateFlag = 0 := by
    cases unit.resetState <;> decide
  have hreset : decide ((if unit.resetState then resetStateFlag else 0) &&& resetStateFlag ≠ 0) =
      unit.resetState := by
    cases unit.resetState <;> decide
  have htype : frameTypeByte unit.frameType ≤ 1 := by
    cases unit.frameType <;> decide
  have hvalid : validateV1Fields (v1Fields unit) = .ok () :=
    validateV1Fields_eq_ok.mpr ⟨h.modelId, h.dimensions, h.qp, h.resetState, h.payload⟩
  have hleft : (UInt64.ofNat unit.payload.length).toNat ≤ (unit.modelId ++ unit.payload).length := by
    rw [hpayloadSize, List.length_append]
    omega
  have hmodelMax : (UInt16.ofNat unit.modelId.length).toNat ≤ maximumModelIdBytes := by
    rw [hmodelSize]
    exact hmodelLe
  unfold deserializeV1
  rw [run_bind_of_ok (run_readU8_append _), run_bind_of_ok (run_readU8_append _),
    run_bind_of_ok (run_readU16_append _), run_bind_of_ok (run_readU16_append _),
    run_bind_of_ok (run_readU32_append _), run_bind_of_ok (run_readU32_append _),
    run_bind_of_ok (run_readU32_append _), run_bind_of_ok (run_readU64_append _),
    run_check_bind htype, run_check_bind ⟨hflag, rfl⟩,
    run_check_bind ⟨hmodelNe, hmodelMax⟩, run_bind_of_ok (run_remaining _),
    run_check_bind ⟨hpayloadNe, hleft⟩, run_check_bind hsize,
    run_bind_of_ok (run_readBytes_append hmodelSize.symm),
    run_bind_of_ok (run_readBytes_self hpayloadSize.symm), run_bind_of_ok (run_remaining _),
    run_check_bind List.length_nil, frameTypeOfByte_frameTypeByte, hreset]
  change StateT.run (match validateV1Fields (v1Fields unit) with
    | .error e => throw (malformed e.message)
    | .ok () => pure (v1Fields unit)) [] = _
  rw [hvalid]
  rfl

/-- A serialized unit is read back with its version 1 fields. -/
theorem deserialize_serialize {unit : AccessUnit} {maximumAccessUnitBytes : ℕ} {bytes : Bytes}
    (h : serialize unit maximumAccessUnitBytes = .ok bytes) :
    deserialize bytes maximumAccessUnitBytes = .ok (v1Fields unit) := by
  obtain ⟨hvalid, ⟨-, hpayload, hlimit⟩, rfl⟩ := serialize_eq_ok.mp h
  have hlength : (bytesV1 unit).length ≤ maximumAccessUnitBytes := by rwa [bytesV1_length]
  have hmagic : hasMagic (bytesV1 unit) = true := by simp [hasMagic, bytesV1, magic]
  have hparse := deserializeV1_bytesV1 (validateV1Fields_eq_ok.mp hvalid) hpayload hlength
  simp only [deserialize, require, if_pos hlength, if_pos hmagic, ok_bind]
  change Prod.fst <$> StateT.run _ (magic ++ _) = _
  rw [run_bind_of_ok (run_readBytes_append magic_length), run_bind_of_ok (run_readU16_append _),
    if_pos rfl, hparse]
  rfl

end AccessUnitIo

end Nvcr
