import Nvcr.AccessUnits

/-!
# Canonical access units

Each version of the format has one byte string for the fields it carries: what the writer
accepts is read back, and what the reader accepts is what the writer would have written.
-/

namespace Nvcr.AccessUnitIo

open StatefulResults ByteReader ByteWriter

/-- The version field behind the magic. -/
def versionField (bytes : Bytes) : UInt16 := UInt16.ofNat (LittleEndian.leValue ((bytes.drop 4).take 2))

theorem validIdentifier_length {value : Bytes} {maximumSize : ℕ}
    (h : validIdentifier value maximumSize = true) :
    0 < value.length ∧ value.length ≤ maximumSize := by
  simp only [validIdentifier, Bool.and_eq_true, decide_eq_true_eq] at h
  refine ⟨List.length_pos_iff.mpr ?_, h.1.2⟩
  rintro rfl
  exact absurd h.1.1 (by decide)

/-- A value without bits outside a mask is its own masked value. -/
theorem and_eq_self_of_and_not {width : ℕ} {value mask : BitVec width}
    (h : value &&& ~~~mask = BitVec.zero width) : value &&& mask = value := by
  calc
    value &&& mask = (value &&& mask) ||| (value &&& ~~~mask) := by rw [h]; exact BitVec.or_zero.symm
    _ = value &&& (mask ||| ~~~mask) := BitVec.and_or_distrib_left.symm
    _ = value := by rw [BitVec.or_not_self, BitVec.and_allOnes]

section Version1

/-- The version 1 bytes behind the version field. -/
def tailV1 (unit : AccessUnit) : Bytes :=
  writeU8 (frameTypeByte unit.frameType) ++
  (writeU8 (if unit.resetState then resetStateFlag else 0) ++
  (writeU16 (UInt16.ofNat unit.modelId.length) ++ (writeU16 0 ++
  (writeU32 unit.width ++ (writeU32 unit.height ++ (writeU32 unit.qp ++
  (writeU64 (UInt64.ofNat unit.payload.length) ++ (unit.modelId ++ unit.payload))))))))

theorem bytesV1_eq (unit : AccessUnit) :
    bytesV1 unit = magic ++ (writeU16 formatVersion ++ tailV1 unit) := rfl

theorem frameTypeByte_frameTypeOfByte {byte : UInt8} (h : byte ≤ 1) :
    frameTypeByte (frameTypeOfByte byte) = byte := by
  have hcases : byte = 0 ∨ byte = 1 := by
    have hle : byte.toNat ≤ 1 := UInt8.le_iff_toNat_le.mp h
    rcases Nat.le_one_iff_eq_zero_or_eq_one.mp hle with hzero | hone
    · exact .inl (UInt8.toNat_inj.mp hzero)
    · exact .inr (UInt8.toNat_inj.mp hone)
  rcases hcases with rfl | rfl <;> rfl

theorem resetStateFlag_of_supported {flags : UInt8} (h : flags &&& ~~~resetStateFlag = 0) :
    (if decide (flags &&& resetStateFlag ≠ 0) = true then resetStateFlag else 0) = flags := by
  have hbits : flags.toBitVec &&& ~~~1#8 = 0#8 := congrArg UInt8.toBitVec h
  have hself : flags &&& resetStateFlag = flags := by
    apply UInt8.toBitVec_inj.mp
    exact and_eq_self_of_and_not hbits
  have hle : flags.toNat ≤ 1 := by
    rw [← hself, UInt8.toNat_and]
    exact Nat.and_le_right
  simp only [hself, decide_eq_true_eq]
  rcases Nat.le_one_iff_eq_zero_or_eq_one.mp hle with hzero | hone
  · obtain rfl : flags = 0 := UInt8.toNat_inj.mp hzero
    rfl
  · obtain rfl : flags = 1 := UInt8.toNat_inj.mp hone
    rfl

/-- The bytes of an accepted version 1 unit. -/
theorem deserializeV1_eq_ok {size maximumAccessUnitBytes : ℕ} {bytes rest : Bytes}
    {unit : AccessUnit}
    (h : (deserializeV1 size maximumAccessUnitBytes).run bytes = .ok (unit, rest)) :
    rest = [] ∧ bytes = tailV1 unit ∧ validateV1Fields unit = .ok () ∧
      unit.payload.length ≤ 2 ^ 64 - 1 ∧ v1Fields unit = unit := by
  unfold deserializeV1 at h
  simp only [run_bind_eq_ok (x := readU8), run_bind_eq_ok (x := readU16),
    run_bind_eq_ok (x := readU32), run_bind_eq_ok (x := readU64), run_readU8_eq_ok,
    run_readU16_eq_ok, run_readU32_eq_ok, run_readU64_eq_ok] at h
  obtain ⟨frameType, _, rfl, flags, _, rfl, modelIdSize, _, rfl, reserved, _, rfl, width, _, rfl,
    height, _, rfl, qp, _, rfl, payloadSize, _, rfl, h⟩ := h
  obtain ⟨htype, h₁⟩ := run_check_bind_eq_ok.mp h
  obtain ⟨⟨hflags, hreserved⟩, h₂⟩ := run_check_bind_eq_ok.mp h₁
  obtain ⟨-, h₃⟩ := run_check_bind_eq_ok.mp h₂
  have h₄ := run_remaining_bind_eq_ok.mp h₃
  obtain ⟨-, h₅⟩ := run_check_bind_eq_ok.mp h₄
  obtain ⟨-, h₆⟩ := run_check_bind_eq_ok.mp h₅
  obtain ⟨modelId, afterModel, hmodel, h₇⟩ := run_bind_eq_ok.mp h₆
  obtain ⟨rfl, hmodelSize⟩ := run_readBytes_eq_ok.mp hmodel
  obtain ⟨payload, left, hpayload, h₈⟩ := run_bind_eq_ok.mp h₇
  obtain ⟨rfl, hpayloadSize⟩ := run_readBytes_eq_ok.mp hpayload
  have h₉ := run_remaining_bind_eq_ok.mp h₈
  obtain ⟨hleft, hlast⟩ := run_check_bind_eq_ok.mp h₉
  clear h h₁ h₂ h₃ h₄ h₅ h₆ h₇ h₈ h₉ hmodel hpayload
  obtain rfl := List.length_eq_zero_iff.mp hleft
  split at hlast
  · cases hlast
  · rename_i hvalid
    cases hlast
    refine ⟨rfl, ?_, hvalid, ?_, rfl⟩
    · rw [tailV1, frameTypeByte_frameTypeOfByte htype, resetStateFlag_of_supported hflags,
        hreserved, hmodelSize, hpayloadSize, UInt16.ofNat_toNat, UInt64.ofNat_toNat, List.append_nil]
    · have hlt := payloadSize.toNat_lt
      simp only [hpayloadSize]
      omega

end Version1

@[simp] theorem versionField_append (version : UInt16) (tail : Bytes) :
    versionField (magic ++ (writeU16 version ++ tail)) = version := by
  have hdrop : (magic ++ (writeU16 version ++ tail)).drop 4 = writeU16 version ++ tail :=
    List.drop_left' magic_length
  have htake : (writeU16 version ++ tail).take 2 = writeU16 version :=
    List.take_left' (writeU16_length version)
  have hvalue : LittleEndian.leValue (writeU16 version) = version.toNat :=
    LittleEndian.leValue_leBytes_of_lt (by simpa using version.toNat_lt)
  rw [versionField, hdrop, htake, hvalue, UInt16.ofNat_toNat]

/-- An accepted string has a known version, and the reader of that version accepted the bytes
behind the version field. -/
theorem deserialize_eq_ok {bytes : Bytes} {maximumAccessUnitBytes : ℕ} {unit : AccessUnit}
    (h : deserialize bytes maximumAccessUnitBytes = .ok unit) :
    bytes.length ≤ maximumAccessUnitBytes ∧ ∃ tail rest,
      (bytes = magic ++ (writeU16 formatVersion ++ tail) ∧
        (deserializeV1 bytes.length maximumAccessUnitBytes).run tail = .ok (unit, rest)) ∨
      (bytes = magic ++ (writeU16 sectionedFormatVersion ++ tail) ∧
        (deserializeV2 bytes.length maximumAccessUnitBytes).run tail = .ok (unit, rest)) := by
  obtain ⟨_, hlength, h₁⟩ := bind_eq_ok.mp h
  obtain ⟨_, hmagic, h₂⟩ := bind_eq_ok.mp h₁
  refine ⟨require_eq_ok.mp hlength, ?_⟩
  have hfront : bytes.take 4 = magic := by simpa [hasMagic] using require_eq_ok.mp hmagic
  generalize bytes.length = size at h₂ ⊢
  obtain ⟨⟨output, rest⟩, hparse, houtput⟩ := bind_eq_ok.mp (show (_ >>= fun result =>
    Except.ok (Prod.fst result)) = Except.ok unit from h₂)
  cases houtput
  obtain ⟨front, afterMagic, hread, hrest⟩ := run_bind_eq_ok.mp hparse
  obtain ⟨rfl, hfrontLength⟩ := run_readBytes_eq_ok.mp hread
  obtain ⟨version, tail, hversion, hbody⟩ := run_bind_eq_ok.mp hrest
  obtain rfl := run_readU16_eq_ok.mp hversion
  rw [List.take_left' hfrontLength] at hfront
  subst hfront
  refine ⟨tail, rest, ?_⟩
  clear h h₁ h₂ hparse hrest hread hversion
  split at hbody
  · rename_i hone
    exact .inl ⟨by rw [hone], hbody⟩
  · split at hbody
    · rename_i htwo
      exact .inr ⟨by rw [htwo], hbody⟩
    · cases hbody

/-- What is accepted as version 1 is what would have been written. -/
theorem serialize_deserialize {bytes : Bytes} {maximumAccessUnitBytes : ℕ} {unit : AccessUnit}
    (h : deserialize bytes maximumAccessUnitBytes = .ok unit)
    (hversion : versionField bytes = formatVersion) :
    serialize unit maximumAccessUnitBytes = .ok bytes := by
  obtain ⟨hlength, tail, rest, ⟨hbytes, hrun⟩ | ⟨hbytes, -⟩⟩ := deserialize_eq_ok h
  · obtain ⟨-, htail, hvalid, hpayload, -⟩ := deserializeV1_eq_ok hrun
    have hunit : bytes = bytesV1 unit := by rw [hbytes, htail, bytesV1_eq]
    have hmodel : unit.modelId.length ≤ 128 :=
      (validIdentifier_length (validateV1Fields_eq_ok.mp hvalid).modelId).2
    refine serialize_eq_ok.mpr ⟨hvalid, ⟨by omega, hpayload, ?_⟩, hunit⟩
    rw [← bytesV1_length, ← hunit]
    exact hlength
  · rw [hbytes, versionField_append] at hversion
    exact absurd hversion (by decide)

section Version2

def v2ResetStateFlag : UInt32 := 1

def v2RandomAccessFlag : UInt32 := 2

def v2DiscontinuityFlag : UInt32 := 4

def v2Flags (unit : AccessUnit) : UInt32 :=
  (if unit.resetState then v2ResetStateFlag else 0) |||
    (if unit.randomAccess then v2RandomAccessFlag else 0) |||
    (if unit.discontinuity then v2DiscontinuityFlag else 0)

/-- The table entry of a section. -/
def sectionHeader (s : AccessUnitSection) : SectionHeader :=
  ⟨s.type, s.version, s.flags, UInt64.ofNat s.payload.length⟩

def sectionHeaderBytes (header : SectionHeader) : Bytes :=
  writeU16 header.type ++ (writeU16 header.version ++ (writeU32 header.flags ++
    writeU64 header.size))

def dependencyBytes (dependencies : List UInt64) : Bytes := dependencies.flatMap writeU64

def sectionTableBytes (sections : List AccessUnitSection) : Bytes :=
  sections.flatMap fun s => sectionHeaderBytes (sectionHeader s)

def sectionPayloads (sections : List AccessUnitSection) : Bytes :=
  sections.flatMap AccessUnitSection.payload

/-- The size the writer computes, before it is reduced to the size type. -/
def totalSizeV2 (unit : AccessUnit) (sections : List AccessUnitSection) : ℕ :=
  fixedHeaderBytesV2.toNat + unit.codecId.length + unit.codecProfileId.length +
    unit.modelId.length + unit.dependencies.length * 8 + sections.length * 16 +
    (sectionPayloads sections).length

/-- The version 2 bytes behind the version field, with the given size field. -/
def tailV2 (totalSize : UInt64) (unit : AccessUnit) (sections : List AccessUnitSection) : Bytes :=
  writeU16 fixedHeaderBytesV2 ++ (writeU32 (v2Flags unit) ++
  (writeU8 (frameTypeByte unit.frameType) ++ (writeU8 1 ++ (writeU8 unit.bitDepth ++
  (writeU8 0 ++ (writeU32 unit.width ++ (writeU32 unit.height ++ (writeU32 unit.qp ++
  (writeU64 unit.decodeOrderIndex ++ (writeU64 unit.presentationOrderIndex ++
  (writeU16 (UInt16.ofNat unit.dependencies.length) ++
  (writeU16 (UInt16.ofNat sections.length) ++
  (writeU16 (UInt16.ofNat unit.codecId.length) ++
  (writeU16 (UInt16.ofNat unit.codecProfileId.length) ++
  (writeU16 (UInt16.ofNat unit.modelId.length) ++ (writeU16 0 ++
  (writeU64 totalSize ++ (unit.codecId ++
  (unit.codecProfileId ++ (unit.modelId ++ (dependencyBytes unit.dependencies ++
  (sectionTableBytes sections ++ sectionPayloads sections))))))))))))))))))))))

def bytesV2 (unit : AccessUnit) (sections : List AccessUnitSection) : Bytes :=
  magic ++ (writeU16 sectionedFormatVersion ++
    tailV2 (UInt64.ofNat (totalSizeV2 unit sections)) unit sections)

/-- The sum of the payload sizes, unless it leaves the size type. -/
def sectionPayloadBytes : ℕ → List AccessUnitSection → Result ℕ
  | total, [] => .ok total
  | total, s :: sections =>
      if s.payload.length > 2 ^ 64 - 1 - total then
        .error ⟨.resourceExhausted, "access-unit section size overflow", "access-unit"⟩
      else sectionPayloadBytes (total + s.payload.length) sections

def serializeSectioned (unit : AccessUnit) (maximumAccessUnitBytes : ℕ) : Result Bytes := do
  let sections ← validateV2Fields unit
  let _ ← sectionPayloadBytes 0 sections
  -- The sum is taken in the size type.
  require (totalSizeV2 unit sections % 2 ^ 64 ≤ maximumAccessUnitBytes) limitError
  -- No vector holds more bytes than the size type can count.
  require (totalSizeV2 unit sections < 2 ^ 64)
    ⟨.resourceExhausted, "access-unit allocation failed", "access-unit"⟩
  pure (bytesV2 unit sections)

@[simp] theorem sectionHeaderBytes_length (header : SectionHeader) :
    (sectionHeaderBytes header).length = 16 := by simp [sectionHeaderBytes]

theorem dependencyBytes_length (dependencies : List UInt64) :
    (dependencyBytes dependencies).length = dependencies.length * 8 := by
  simp [dependencyBytes, List.length_flatMap]

theorem sectionTableBytes_length (sections : List AccessUnitSection) :
    (sectionTableBytes sections).length = sections.length * 16 := by
  simp [sectionTableBytes, List.length_flatMap]

theorem tailV2_length (totalSize : UInt64) (unit : AccessUnit)
    (sections : List AccessUnitSection) :
    6 + (tailV2 totalSize unit sections).length = totalSizeV2 unit sections := by
  have hheader : fixedHeaderBytesV2.toNat = 64 := rfl
  simp only [tailV2, totalSizeV2, hheader, List.length_append, writeU8_length, writeU16_length,
    writeU32_length, writeU64_length, dependencyBytes_length, sectionTableBytes_length]
  clear hheader
  omega

theorem bytesV2_length (unit : AccessUnit) (sections : List AccessUnitSection) :
    (bytesV2 unit sections).length = totalSizeV2 unit sections := by
  rw [bytesV2, List.length_append, List.length_append, writeU16_length, magic_length,
    ← Nat.add_assoc, tailV2_length]

theorem sectionPayloadBytes_eq_ok {total sum : ℕ} {sections : List AccessUnitSection}
    (htotal : total < 2 ^ 64) :
    sectionPayloadBytes total sections = .ok sum ↔
      total + (sectionPayloads sections).length < 2 ^ 64 ∧
        sum = total + (sectionPayloads sections).length := by
  induction sections generalizing total with
  | nil =>
      simp only [sectionPayloadBytes, sectionPayloads, List.flatMap_nil, List.length_nil,
        Nat.add_zero, Except.ok.injEq]
      exact ⟨fun h => ⟨htotal, h.symm⟩, fun h => h.2.symm⟩
  | cons s sections ih =>
      have hlength : (sectionPayloads (s :: sections)).length =
          s.payload.length + (sectionPayloads sections).length := by
        simp [sectionPayloads]
      rw [sectionPayloadBytes, hlength]
      by_cases hover : s.payload.length > 2 ^ 64 - 1 - total
      · rw [if_pos hover]
        exact ⟨fun h => (nomatch h), fun h => by omega⟩
      · rw [if_neg hover, ih (by omega), Nat.add_assoc]

/-- What the writer requires of a unit, with the section list it writes. -/
structure ValidV2 (unit : AccessUnit) (sections : List AccessUnitSection) : Prop where
  common : ValidV1 unit
  codecId : validIdentifier unit.codecId maximumCodecIdBytes
  codecProfileId : validIdentifier unit.codecProfileId maximumCodecProfileIdBytes
  bitDepth : unit.bitDepth = 8
  dependencies : unit.dependencies.length ≤ maximumDependencies
  sections_le : unit.sections.length ≤ maximumSections
  normalized : sections = if unit.sections = [] then
      [⟨codecPayloadSectionType, 1, requiredSectionFlag, unit.payload⟩]
    else unit.sections
  codecPayload : codecPayloadSection none sections = .ok (some unit.payload)

theorem normalizedSections_eq_ok {unit : AccessUnit} {sections : List AccessUnitSection} :
    normalizedSections unit = .ok sections ↔
      (sections = if unit.sections = [] then
          [⟨codecPayloadSectionType, 1, requiredSectionFlag, unit.payload⟩]
        else unit.sections) ∧
      codecPayloadSection none sections = .ok (some unit.payload) := by
  simp only [normalizedSections, bind_eq_ok]
  constructor
  · rintro ⟨found, hfound, h⟩
    cases found with
    | none => cases h
    | some payload =>
        obtain ⟨_, hpayload, hsections⟩ := bind_eq_ok.mp h
        obtain rfl := require_eq_ok.mp hpayload
        cases hsections
        exact ⟨rfl, hfound⟩
  · rintro ⟨rfl, hfound⟩
    exact ⟨some unit.payload, hfound, bind_eq_ok.mpr ⟨(), require_eq_ok.mpr rfl, rfl⟩⟩

theorem validateV2Fields_eq_ok {unit : AccessUnit} {sections : List AccessUnitSection} :
    validateV2Fields unit = .ok sections ↔ ValidV2 unit sections := by
  simp only [validateV2Fields, bind_eq_ok, require_eq_ok, normalizedSections_eq_ok]
  constructor
  · rintro ⟨_, hcommon, _, hcodec, _, hprofile, _, hdepth, _, hdeps, _, hcount, hnorm, hpayload⟩
    exact ⟨validateV1Fields_eq_ok.mp hcommon, hcodec, hprofile, hdepth, hdeps, hcount, hnorm,
      hpayload⟩
  · intro h
    exact ⟨(), validateV1Fields_eq_ok.mpr h.common, (), h.codecId, (), h.codecProfileId, (),
      h.bitDepth, (), h.dependencies, (), h.sections_le, h.normalized, h.codecPayload⟩

theorem serializeSectioned_eq_ok {unit : AccessUnit} {maximumAccessUnitBytes : ℕ} {bytes : Bytes} :
    serializeSectioned unit maximumAccessUnitBytes = .ok bytes ↔
      ∃ sections, ValidV2 unit sections ∧ totalSizeV2 unit sections ≤ maximumAccessUnitBytes ∧
        totalSizeV2 unit sections < 2 ^ 64 ∧ bytes = bytesV2 unit sections := by
  simp only [serializeSectioned, bind_eq_ok, require_eq_ok, validateV2Fields_eq_ok,
    sectionPayloadBytes_eq_ok (show 0 < 2 ^ 64 by decide)]
  constructor
  · rintro ⟨sections, hvalid, _, -, _, hlimit, _, hlt, hbytes⟩
    rw [Nat.mod_eq_of_lt hlt] at hlimit
    exact ⟨sections, hvalid, hlimit, hlt, (Except.ok.inj hbytes).symm⟩
  · rintro ⟨sections, hvalid, hlimit, hlt, rfl⟩
    have hpayloads : 0 + (sectionPayloads sections).length < 2 ^ 64 := by
      unfold totalSizeV2 at hlt
      omega
    rw [← Nat.mod_eq_of_lt hlt] at hlimit
    exact ⟨sections, hvalid, _, ⟨hpayloads, rfl⟩, (), hlimit, (), hlt, rfl⟩

/-- A reader may skip a section it does not know unless the section is required. -/
def Understood (type : UInt16) (flags : UInt32) : Prop :=
  knownSectionType type = true ∨ flags &&& requiredSectionFlag = 0

instance (type : UInt16) (flags : UInt32) : Decidable (Understood type flags) :=
  inferInstanceAs (Decidable (_ ∨ _))

theorem readDependencies_run (dependencies : List UInt64) (rest : Bytes) :
    (readDependencies dependencies.length).run (dependencyBytes dependencies ++ rest) =
      .ok (dependencies, rest) := by
  induction dependencies with
  | nil => rfl
  | cons dependency dependencies ih =>
      have hbytes : dependencyBytes (dependency :: dependencies) ++ rest =
          writeU64 dependency ++ (dependencyBytes dependencies ++ rest) := by
        simp [dependencyBytes]
      rw [List.length_cons, readDependencies, hbytes, run_bind_of_ok (run_readU64_append dependency),
        run_bind_of_ok ih]
      rfl

theorem readDependencies_eq_ok {count : ℕ} {bytes rest : Bytes} {dependencies : List UInt64}
    (h : (readDependencies count).run bytes = .ok (dependencies, rest)) :
    bytes = dependencyBytes dependencies ++ rest ∧ dependencies.length = count := by
  induction count generalizing bytes dependencies with
  | zero =>
      cases h
      exact ⟨rfl, rfl⟩
  | succ count ih =>
      obtain ⟨dependency, middle, hread, hrest⟩ := run_bind_eq_ok.mp h
      obtain ⟨later, last, hlater, hlast⟩ := run_bind_eq_ok.mp hrest
      cases hlast
      obtain rfl := run_readU64_eq_ok.mp hread
      obtain ⟨rfl, rfl⟩ := ih hlater
      exact ⟨by simp [dependencyBytes], rfl⟩

/-- Reading the table of written sections stops at the first one that is not understood. -/
theorem readSectionHeaders_run (sections : List AccessUnitSection) (aggregate : ℕ) (rest : Bytes)
    (hpayload : ∀ s ∈ sections, s.payload ≠ [])
    (hsum : aggregate + (sectionPayloads sections).length < 2 ^ 64) :
    (readSectionHeaders sections.length aggregate).run (sectionTableBytes sections ++ rest) =
      if ∀ s ∈ sections, Understood s.type s.flags then
        .ok ((sections.map sectionHeader, aggregate + (sectionPayloads sections).length), rest)
      else .error (malformed "unknown required NVAU v2 section") := by
  induction sections generalizing aggregate with
  | nil => rfl
  | cons s sections ih =>
      have hbytes : sectionTableBytes (s :: sections) ++ rest =
          writeU16 s.type ++ (writeU16 s.version ++ (writeU32 s.flags ++
            (writeU64 (UInt64.ofNat s.payload.length) ++ (sectionTableBytes sections ++ rest)))) := by
        simp [sectionTableBytes, sectionHeaderBytes, sectionHeader]
      have hlength : (sectionPayloads (s :: sections)).length =
          s.payload.length + (sectionPayloads sections).length := by
        simp [sectionPayloads]
      rw [hlength] at hsum ⊢
      have hpos : 0 < s.payload.length := List.length_pos_iff.mpr (hpayload s List.mem_cons_self)
      have hsize : (UInt64.ofNat s.payload.length).toNat = s.payload.length := by
        rw [UInt64.toNat_ofNat', Nat.mod_eq_of_lt (by omega)]
      have hne : UInt64.ofNat s.payload.length ≠ 0 := by
        intro hzero
        rw [hzero] at hsize
        simp at hsize
        omega
      have hroom : aggregate ≤ 2 ^ 64 - 1 - (UInt64.ofNat s.payload.length).toNat := by
        rw [hsize]
        omega
      rw [List.length_cons, readSectionHeaders, hbytes, run_bind_of_ok (run_readU16_append _),
        run_bind_of_ok (run_readU16_append _), run_bind_of_ok (run_readU32_append _),
        run_bind_of_ok (run_readU64_append _), run_check_bind hne]
      by_cases hunderstood : Understood s.type s.flags
      · have hcheck : knownSectionType s.type = true ∨ s.flags &&& requiredSectionFlag = 0 :=
          hunderstood
        rw [run_check_bind hcheck, run_check_bind hroom, hsize, StateT.run_bind,
          ih (aggregate + s.payload.length)
            (fun other hother => hpayload other (List.mem_cons_of_mem s hother)) (by omega)]
        simp only [List.forall_mem_cons, hunderstood, true_and]
        split
        · rw [ok_bind, Nat.add_assoc]
          rfl
        · rfl
      · rw [if_neg (fun hall => hunderstood (hall s List.mem_cons_self)), StateT.run_bind]
        have hcheck : ¬ (knownSectionType s.type = true ∨ s.flags &&& requiredSectionFlag = 0) :=
          hunderstood
        simp only [check, require, if_neg hcheck]
        rfl

theorem readSectionHeaders_eq_ok {count aggregate total : ℕ} {bytes rest : Bytes}
    {headers : List SectionHeader}
    (h : (readSectionHeaders count aggregate).run bytes = .ok ((headers, total), rest)) :
    bytes = headers.flatMap sectionHeaderBytes ++ rest ∧ headers.length = count ∧
      total = aggregate + (headers.map fun header => header.size.toNat).sum ∧
      ∀ header ∈ headers, header.size ≠ 0 ∧ Understood header.type header.flags := by
  induction count generalizing aggregate bytes headers with
  | zero =>
      cases h
      exact ⟨rfl, rfl, rfl, fun _ hmem => (nomatch hmem)⟩
  | succ count ih =>
      obtain ⟨type, _, htype, h₁⟩ := run_bind_eq_ok.mp h
      obtain ⟨version, _, hversion, h₂⟩ := run_bind_eq_ok.mp h₁
      obtain ⟨flags, _, hflags, h₃⟩ := run_bind_eq_ok.mp h₂
      obtain ⟨size, _, hsize, h₄⟩ := run_bind_eq_ok.mp h₃
      obtain ⟨hne, h₅⟩ := run_check_bind_eq_ok.mp h₄
      obtain ⟨hunderstood, h₆⟩ := run_check_bind_eq_ok.mp h₅
      obtain ⟨-, h₇⟩ := run_check_bind_eq_ok.mp h₆
      obtain ⟨⟨later, sum⟩, _, hlater, hlast⟩ := run_bind_eq_ok.mp h₇
      cases hlast
      obtain ⟨rfl, rfl, rfl, hall⟩ := ih hlater
      obtain rfl := run_readU64_eq_ok.mp hsize
      obtain rfl := run_readU32_eq_ok.mp hflags
      obtain rfl := run_readU16_eq_ok.mp hversion
      obtain rfl := run_readU16_eq_ok.mp htype
      refine ⟨by simp [sectionHeaderBytes], rfl, by simp [Nat.add_assoc], ?_⟩
      intro header hheader
      rcases List.mem_cons.mp hheader with rfl | hmem
      · exact ⟨hne, hunderstood⟩
      · exact hall header hmem

theorem codecPayloadSection_cons {found found' : Option Bytes} {s : AccessUnitSection}
    {sections : List AccessUnitSection}
    (h : codecPayloadSection found (s :: sections) = .ok found') :
    s.payload ≠ [] ∧
      if s.type = codecPayloadSectionType then
        found = none ∧ codecPayloadSection (some s.payload) sections = .ok found'
      else codecPayloadSection found sections = .ok found' := by
  rw [codecPayloadSection] at h
  by_cases hempty : s.payload = []
  · rw [if_pos hempty] at h
    cases h
  · rw [if_neg hempty] at h
    refine ⟨hempty, ?_⟩
    by_cases htype : s.type = codecPayloadSectionType
    · rw [if_pos htype] at h ⊢
      cases found with
      | none => exact ⟨rfl, h⟩
      | some earlier => cases h
    · rw [if_neg htype] at h ⊢
      exact h

theorem codecPayloadSection_ne_nil {found found' : Option Bytes}
    {sections : List AccessUnitSection} (h : codecPayloadSection found sections = .ok found') :
    ∀ s ∈ sections, s.payload ≠ [] := by
  induction sections generalizing found with
  | nil => exact fun _ hmem => (nomatch hmem)
  | cons s sections ih =>
      obtain ⟨hempty, hrest⟩ := codecPayloadSection_cons h
      have hlater : ∀ other ∈ sections, other.payload ≠ [] := by
        split at hrest
        · exact ih hrest.2
        · exact ih hrest
      exact List.forall_mem_cons.mpr ⟨hempty, hlater⟩

/-- The reader finds the codec payload where the writer found it. -/
theorem readSections_run {found found' : Option Bytes} {sections : List AccessUnitSection}
    (rest : Bytes) (hfound : codecPayloadSection found sections = .ok found')
    (hsize : ∀ s ∈ sections, s.payload.length < 2 ^ 64) :
    (readSections (sections.map sectionHeader) found).run (sectionPayloads sections ++ rest) =
      .ok ((sections, found'), rest) := by
  induction sections generalizing found with
  | nil =>
      cases hfound
      rfl
  | cons s sections ih =>
      obtain ⟨-, hrest⟩ := codecPayloadSection_cons hfound
      have hlength : (sectionHeader s).size.toNat = s.payload.length := by
        rw [sectionHeader, UInt64.toNat_ofNat', Nat.mod_eq_of_lt (hsize s List.mem_cons_self)]
      have hbytes : sectionPayloads (s :: sections) ++ rest =
          s.payload ++ (sectionPayloads sections ++ rest) := by
        simp [sectionPayloads]
      have hlater : ∀ found, codecPayloadSection found sections = .ok found' →
          (readSections (sections.map sectionHeader) found).run (sectionPayloads sections ++ rest) =
            .ok ((sections, found'), rest) :=
        fun found h => ih h fun other hother => hsize other (List.mem_cons_of_mem s hother)
      rw [List.map_cons, readSections, hbytes, run_bind_of_ok (run_readBytes_append hlength.symm)]
      by_cases htype : s.type = codecPayloadSectionType
      · rw [if_pos htype] at hrest
        obtain ⟨rfl, hrest⟩ := hrest
        have hheader : (sectionHeader s).type = codecPayloadSectionType := htype
        have hnone : (none : Option Bytes).isNone = true := rfl
        rw [if_pos hheader, run_check_bind hnone, pure_bind, run_bind_of_ok (hlater _ hrest)]
        rfl
      · rw [if_neg htype] at hrest
        have hheader : ¬ (sectionHeader s).type = codecPayloadSectionType := htype
        rw [if_neg hheader, pure_bind, run_bind_of_ok (hlater _ hrest)]
        rfl

theorem readSections_eq_ok {headers : List SectionHeader} {found found' : Option Bytes}
    {bytes rest : Bytes} {sections : List AccessUnitSection}
    (h : (readSections headers found).run bytes = .ok ((sections, found'), rest)) :
    bytes = sectionPayloads sections ++ rest ∧ sections.map sectionHeader = headers := by
  induction headers generalizing found bytes sections with
  | nil =>
      cases h
      exact ⟨rfl, rfl⟩
  | cons header headers ih =>
      obtain ⟨payload, middle, hpayload, h₁⟩ := run_bind_eq_ok.mp h
      have h₂ : ∃ found, (do
          let later ← readSections headers found
          pure (⟨header.type, header.version, header.flags, payload⟩ :: later.1, later.2) :
            ByteReader _).run middle = .ok ((sections, found'), rest) := by
        by_cases htype : header.type = codecPayloadSectionType
        · simp only [if_pos htype, pure_bind] at h₁
          exact ⟨_, (run_check_bind_eq_ok.mp h₁).2⟩
        · simp only [if_neg htype, pure_bind] at h₁
          exact ⟨_, h₁⟩
      obtain ⟨found₁, h₃⟩ := h₂
      obtain ⟨⟨later, last⟩, _, hlater, hlast⟩ := run_bind_eq_ok.mp h₃
      cases hlast
      obtain ⟨rfl, rfl⟩ := ih hlater
      obtain ⟨rfl, hlength⟩ := run_readBytes_eq_ok.mp hpayload
      refine ⟨by simp [sectionPayloads], ?_⟩
      rw [List.map_cons, sectionHeader, hlength, UInt64.ofNat_toNat]

theorem v2Flags_lt {flags : UInt32} (h : flags &&& ~~~7 = 0) : flags.toNat < 8 := by
  have hbits : flags.toBitVec &&& ~~~7#32 = 0#32 := congrArg UInt32.toBitVec h
  have hself : flags &&& 7 = flags := UInt32.toBitVec_inj.mp (and_eq_self_of_and_not hbits)
  have hle : flags.toNat &&& 7 ≤ 7 := Nat.and_le_right
  have hnat : flags.toNat &&& 7 = flags.toNat := congrArg UInt32.toNat hself
  omega

/-- Supported flags are the three bits that the unit records. -/
theorem v2Flags_of_supported {flags : UInt32} (h : flags &&& ~~~7 = 0) (unit : AccessUnit)
    (hreset : unit.resetState = decide (flags &&& 1 ≠ 0))
    (hrandom : unit.randomAccess = decide (flags &&& 2 ≠ 0))
    (hdiscontinuity : unit.discontinuity = decide (flags &&& 4 ≠ 0)) : v2Flags unit = flags := by
  have hlt := v2Flags_lt h
  rw [v2Flags, hreset, hrandom, hdiscontinuity]
  obtain ⟨n, hn, rfl⟩ : ∃ n, n < 8 ∧ flags = UInt32.ofNat n :=
    ⟨flags.toNat, hlt, UInt32.ofNat_toNat.symm⟩
  clear h hlt hreset hrandom hdiscontinuity
  interval_cases n <;> decide

theorem v2Flags_bits (unit : AccessUnit) :
    v2Flags unit &&& ~~~7 = 0 ∧ decide (v2Flags unit &&& 1 ≠ 0) = unit.resetState ∧
      decide (v2Flags unit &&& 2 ≠ 0) = unit.randomAccess ∧
      decide (v2Flags unit &&& 4 ≠ 0) = unit.discontinuity := by
  unfold v2Flags
  cases unit.resetState <;> cases unit.randomAccess <;> cases unit.discontinuity <;> decide

/-- The unit that a written one is read back as. -/
def withSections (unit : AccessUnit) (sections : List AccessUnitSection) : AccessUnit :=
  { unit with sections := sections }

namespace ValidV2

variable {unit : AccessUnit} {sections : List AccessUnitSection} (h : ValidV2 unit sections)

include h

theorem sections_ne_nil : sections ≠ [] := by
  rw [h.normalized]
  split
  · exact List.cons_ne_nil _ _
  · assumption

theorem length_le : sections.length ≤ maximumSections := by
  rw [h.normalized]
  split
  · exact (by decide : 1 ≤ maximumSections)
  · exact h.sections_le

theorem withSections : ValidV2 (withSections unit sections) sections where
  common := ⟨h.common.modelId, h.common.dimensions, h.common.qp, h.common.resetState,
    h.common.payload⟩
  codecId := h.codecId
  codecProfileId := h.codecProfileId
  bitDepth := h.bitDepth
  dependencies := h.dependencies
  sections_le := h.length_le
  normalized := (if_neg h.sections_ne_nil).symm
  codecPayload := h.codecPayload

end ValidV2

/-- A length that fits a 16-bit field is read back from it. -/
theorem toNat_length16 {length bound : ℕ} (hle : length ≤ bound) (hbound : bound < 2 ^ 16) :
    (UInt16.ofNat length).toNat = length := by
  rw [UInt16.toNat_ofNat', Nat.mod_eq_of_lt (by omega)]

theorem ofNat_ne_zero16 {length bound : ℕ} (hpos : 0 < length) (hle : length ≤ bound)
    (hbound : bound < 2 ^ 16) : UInt16.ofNat length ≠ 0 := by
  intro hzero
  have hnat := toNat_length16 hle hbound
  rw [hzero] at hnat
  exact absurd hnat (by simp; omega)

/-- Reading the version 2 bytes behind the version field gives the unit back, unless a section
is not understood. -/
theorem deserializeV2_run {unit : AccessUnit} {sections : List AccessUnitSection}
    (h : ValidV2 unit sections) (hlt : totalSizeV2 unit sections < 2 ^ 64)
    {maximumAccessUnitBytes : ℕ} (hmax : totalSizeV2 unit sections ≤ maximumAccessUnitBytes) :
    (deserializeV2 (totalSizeV2 unit sections) maximumAccessUnitBytes).run
        (tailV2 (UInt64.ofNat (totalSizeV2 unit sections)) unit sections) =
      if ∀ s ∈ sections, Understood s.type s.flags then .ok (withSections unit sections, [])
      else .error (malformed "unknown required NVAU v2 section") := by
  obtain ⟨hcodecPos, hcodecLe⟩ := validIdentifier_length h.codecId
  obtain ⟨hprofilePos, hprofileLe⟩ := validIdentifier_length h.codecProfileId
  obtain ⟨hmodelPos, hmodelLe⟩ := validIdentifier_length h.common.modelId
  have hsectionsPos : 0 < sections.length := List.length_pos_iff.mpr h.sections_ne_nil
  have hcodec := toNat_length16 hcodecLe (by decide)
  have hprofile := toNat_length16 hprofileLe (by decide)
  have hmodel := toNat_length16 hmodelLe (by decide)
  have hdeps := toNat_length16 h.dependencies (by decide)
  have hcount := toNat_length16 h.length_le (by decide)
  have htotal : (UInt64.ofNat (totalSizeV2 unit sections)).toNat = totalSizeV2 unit sections := by
    rw [UInt64.toNat_ofNat', Nat.mod_eq_of_lt hlt]
  obtain ⟨hflags, hreset, hrandom, hdiscontinuity⟩ := v2Flags_bits unit
  have htype : frameTypeByte unit.frameType ≤ 1 := by
    cases unit.frameType <;> decide
  have hcounts : (UInt16.ofNat unit.dependencies.length).toNat ≤ maximumDependencies ∧
      UInt16.ofNat sections.length ≠ 0 ∧
      (UInt16.ofNat sections.length).toNat ≤ maximumSections := by
    rw [hdeps, hcount]
    exact ⟨h.dependencies, ofNat_ne_zero16 hsectionsPos h.length_le (by decide), h.length_le⟩
  have hidentities : UInt16.ofNat unit.codecId.length ≠ 0 ∧
      (UInt16.ofNat unit.codecId.length).toNat ≤ maximumCodecIdBytes ∧
      UInt16.ofNat unit.codecProfileId.length ≠ 0 ∧
      (UInt16.ofNat unit.codecProfileId.length).toNat ≤ maximumCodecProfileIdBytes ∧
      UInt16.ofNat unit.modelId.length ≠ 0 ∧
      (UInt16.ofNat unit.modelId.length).toNat ≤ maximumModelIdBytes := by
    rw [hcodec, hprofile, hmodel]
    exact ⟨ofNat_ne_zero16 hcodecPos hcodecLe (by decide), hcodecLe,
      ofNat_ne_zero16 hprofilePos hprofileLe (by decide), hprofileLe,
      ofNat_ne_zero16 hmodelPos hmodelLe (by decide), hmodelLe⟩
  have hpayloads : 0 + (sectionPayloads sections).length < 2 ^ 64 := by
    unfold totalSizeV2 at hlt
    omega
  have hsizes : ∀ s ∈ sections, s.payload.length < 2 ^ 64 := by
    intro s hs
    have hle : s.payload.length ≤ (sectionPayloads sections).length := by
      rw [sectionPayloads, List.flatMap_def]
      exact (List.sublist_flatten_of_mem (List.mem_map_of_mem hs)).length_le
    omega
  unfold deserializeV2 tailV2
  rw [run_bind_of_ok (run_readU16_append _), run_bind_of_ok (run_readU32_append _),
    run_bind_of_ok (run_readU8_append _), run_bind_of_ok (run_readU8_append _),
    run_bind_of_ok (run_readU8_append _), run_bind_of_ok (run_readU8_append _),
    run_bind_of_ok (run_readU32_append _), run_bind_of_ok (run_readU32_append _),
    run_bind_of_ok (run_readU32_append _), run_bind_of_ok (run_readU64_append _),
    run_bind_of_ok (run_readU64_append _), run_bind_of_ok (run_readU16_append _),
    run_bind_of_ok (run_readU16_append _), run_bind_of_ok (run_readU16_append _),
    run_bind_of_ok (run_readU16_append _), run_bind_of_ok (run_readU16_append _),
    run_bind_of_ok (run_readU16_append _), run_bind_of_ok (run_readU64_append _),
    run_check_bind rfl, run_check_bind (by rw [htotal]; exact ⟨rfl, hmax⟩),
    run_check_bind ⟨hflags, rfl, rfl⟩, run_check_bind htype, run_check_bind ⟨rfl, h.bitDepth⟩,
    run_check_bind hcounts, run_check_bind hidentities,
    run_bind_of_ok (run_readBytes_append hcodec.symm),
    run_bind_of_ok (run_readBytes_append hprofile.symm),
    run_bind_of_ok (run_readBytes_append hmodel.symm), hdeps,
    run_bind_of_ok (readDependencies_run _ _), hcount, StateT.run_bind,
    readSectionHeaders_run sections 0 _ (codecPayloadSection_ne_nil h.codecPayload) hpayloads]
  by_cases hunderstood : ∀ s ∈ sections, Understood s.type s.flags
  · have hread := readSections_run [] h.codecPayload hsizes
    rw [List.append_nil] at hread
    rw [if_pos hunderstood, if_pos hunderstood, ok_bind, run_bind_of_ok (run_remaining _),
      run_check_bind (Nat.zero_add _), run_bind_of_ok hread, run_bind_of_ok (run_remaining _),
      run_check_bind List.length_nil]
    simp only [frameTypeOfByte_frameTypeByte, hreset, hrandom, hdiscontinuity]
    erw [validateV2Fields_eq_ok.mpr h.withSections]
    rfl
  · rw [if_neg hunderstood, if_neg hunderstood]
    rfl

/-- The bytes of an accepted version 2 unit. -/
theorem deserializeV2_eq_ok {size maximumAccessUnitBytes : ℕ} {bytes rest : Bytes}
    {unit : AccessUnit}
    (h : (deserializeV2 size maximumAccessUnitBytes).run bytes = .ok (unit, rest)) :
    rest = [] ∧ ValidV2 unit unit.sections ∧
      ∃ totalSize : UInt64, totalSize.toNat = size ∧ bytes = tailV2 totalSize unit unit.sections := by
  unfold deserializeV2 at h
  simp only [run_bind_eq_ok (x := readU8), run_bind_eq_ok (x := readU16),
    run_bind_eq_ok (x := readU32), run_bind_eq_ok (x := readU64), run_readU8_eq_ok,
    run_readU16_eq_ok, run_readU32_eq_ok, run_readU64_eq_ok] at h
  obtain ⟨headerSize, _, rfl, flags, _, rfl, frameType, _, rfl, pixelFormat, _, rfl, bitDepth, _,
    rfl, reserved8, _, rfl, width, _, rfl, height, _, rfl, qp, _, rfl, decodeOrderIndex, _, rfl,
    presentationOrderIndex, _, rfl, dependencyCount, _, rfl, sectionCount, _, rfl, codecIdSize, _,
    rfl, codecProfileIdSize, _, rfl, modelIdSize, _, rfl, reserved16, _, rfl, totalSize, _, rfl,
    h⟩ := h
  obtain ⟨hheader, h₁⟩ := run_check_bind_eq_ok.mp h
  obtain ⟨⟨hsize, -⟩, h₂⟩ := run_check_bind_eq_ok.mp h₁
  obtain ⟨⟨hflags, hreserved8, hreserved16⟩, h₃⟩ := run_check_bind_eq_ok.mp h₂
  obtain ⟨htype, h₄⟩ := run_check_bind_eq_ok.mp h₃
  obtain ⟨⟨hformat, -⟩, h₅⟩ := run_check_bind_eq_ok.mp h₄
  obtain ⟨⟨-, hcountNe, -⟩, h₆⟩ := run_check_bind_eq_ok.mp h₅
  obtain ⟨-, h₇⟩ := run_check_bind_eq_ok.mp h₆
  obtain ⟨codecId, _, hcodec, h₈⟩ := run_bind_eq_ok.mp h₇
  obtain ⟨codecProfileId, _, hprofile, h₉⟩ := run_bind_eq_ok.mp h₈
  obtain ⟨modelId, _, hmodel, h₁₀⟩ := run_bind_eq_ok.mp h₉
  obtain ⟨dependencies, _, hdeps, h₁₁⟩ := run_bind_eq_ok.mp h₁₀
  obtain ⟨⟨headers, aggregate⟩, _, hheaders, h₁₂⟩ := run_bind_eq_ok.mp h₁₁
  have h₁₃ := run_remaining_bind_eq_ok.mp h₁₂
  obtain ⟨-, h₁₄⟩ := run_check_bind_eq_ok.mp h₁₃
  obtain ⟨⟨sections, codecPayload⟩, left, hsections, h₁₅⟩ := run_bind_eq_ok.mp h₁₄
  have h₁₆ := run_remaining_bind_eq_ok.mp h₁₅
  obtain ⟨hleft, hlast⟩ := run_check_bind_eq_ok.mp h₁₆
  clear h h₁ h₂ h₃ h₄ h₅ h₆ h₇ h₈ h₉ h₁₀ h₁₁ h₁₂ h₁₃ h₁₄ h₁₅ h₁₆
  obtain rfl := List.length_eq_zero_iff.mp hleft
  obtain ⟨rfl, hmap⟩ := readSections_eq_ok hsections
  simp only at hmap hlast
  obtain ⟨rfl, hcount, -, -⟩ := readSectionHeaders_eq_ok hheaders
  obtain ⟨rfl, hdepsCount⟩ := readDependencies_eq_ok hdeps
  obtain ⟨rfl, hmodelSize⟩ := run_readBytes_eq_ok.mp hmodel
  obtain ⟨rfl, hprofileSize⟩ := run_readBytes_eq_ok.mp hprofile
  obtain ⟨rfl, hcodecSize⟩ := run_readBytes_eq_ok.mp hcodec
  have hsectionsCount : sections.length = sectionCount.toNat := by
    rw [← hcount, ← hmap, List.length_map]
  have hne : sections ≠ [] := by
    rintro rfl
    exact hcountNe (UInt16.toNat_inj.mp hsectionsCount.symm)
  cases codecPayload with
  | none => cases hlast
  | some payload =>
      simp only at hlast
      split at hlast
      · cases hlast
      · rename_i normalized hvalid
        cases hlast
        have hvalid' := validateV2Fields_eq_ok.mp hvalid
        have hnormalized : normalized = sections := hvalid'.normalized.trans (if_neg hne)
        rw [hnormalized] at hvalid'
        refine ⟨rfl, hvalid', totalSize, hsize, ?_⟩
        have htable : headers.flatMap sectionHeaderBytes = sectionTableBytes sections := by
          rw [← hmap, sectionTableBytes, List.flatMap_map]
        rw [tailV2, v2Flags_of_supported hflags _ rfl rfl rfl, frameTypeByte_frameTypeOfByte htype]
        simp only [hdepsCount, hsectionsCount, hcodecSize, hprofileSize, hmodelSize,
          UInt16.ofNat_toNat, hheader, hformat, hreserved8, hreserved16, htable, List.append_nil]

/-- A written version 2 unit is read back with its normalized sections, unless one of them is
not understood. -/
theorem deserialize_serializeSectioned {unit : AccessUnit} {maximumAccessUnitBytes : ℕ}
    {bytes : Bytes} (h : serializeSectioned unit maximumAccessUnitBytes = .ok bytes) :
    ∃ sections, normalizedSections unit = .ok sections ∧
      deserialize bytes maximumAccessUnitBytes =
        if ∀ s ∈ sections, Understood s.type s.flags then .ok (withSections unit sections)
        else .error (malformed "unknown required NVAU v2 section") := by
  obtain ⟨sections, hvalid, hmax, hlt, rfl⟩ := serializeSectioned_eq_ok.mp h
  refine ⟨sections, normalizedSections_eq_ok.mpr ⟨hvalid.normalized, hvalid.codecPayload⟩, ?_⟩
  have hlength : (bytesV2 unit sections).length ≤ maximumAccessUnitBytes := by
    rwa [bytesV2_length]
  have hmagic : hasMagic (bytesV2 unit sections) = true := by simp [hasMagic, bytesV2, magic]
  have hparse := deserializeV2_run hvalid hlt hmax
  simp only [deserialize, require, if_pos hlength, if_pos hmagic, ok_bind]
  rw [bytesV2_length]
  change Prod.fst <$> StateT.run _ (magic ++ _) = _
  have hother : ¬ sectionedFormatVersion = formatVersion := by decide
  rw [run_bind_of_ok (run_readBytes_append magic_length), run_bind_of_ok (run_readU16_append _),
    if_neg hother, if_pos rfl, hparse]
  split
  · rfl
  · rfl

/-- What is accepted as version 2 is what would have been written. -/
theorem serializeSectioned_deserialize {bytes : Bytes} {maximumAccessUnitBytes : ℕ}
    {unit : AccessUnit} (h : deserialize bytes maximumAccessUnitBytes = .ok unit)
    (hversion : versionField bytes = sectionedFormatVersion) :
    serializeSectioned unit maximumAccessUnitBytes = .ok bytes := by
  obtain ⟨hlength, tail, rest, ⟨hbytes, -⟩ | ⟨hbytes, hrun⟩⟩ := deserialize_eq_ok h
  · rw [hbytes, versionField_append] at hversion
    exact absurd hversion (by decide)
  · obtain ⟨-, hvalid, totalSize, hsize, htail⟩ := deserializeV2_eq_ok hrun
    have htotal : totalSizeV2 unit unit.sections = bytes.length := by
      rw [hbytes, List.length_append, List.length_append, writeU16_length, magic_length, htail,
        ← Nat.add_assoc, tailV2_length]
    have hfield : UInt64.ofNat (totalSizeV2 unit unit.sections) = totalSize := by
      rw [htotal, ← hsize, UInt64.ofNat_toNat]
    refine serializeSectioned_eq_ok.mpr ⟨unit.sections, hvalid, ?_, ?_, ?_⟩
    · rwa [htotal]
    · rw [htotal, ← hsize]
      exact totalSize.toNat_lt
    · rw [hbytes, htail, bytesV2, hfield]

end Version2

end Nvcr.AccessUnitIo
