import Nvcr.AccessUnitCanonical
import Nvcr.ByteCursors

/-!
# Parsing access units at the level of offsets

The parser functions with the reads in the order of the source: the fields of a header are all
read before the first failed read is reported, and the section sizes are summed in 64 bits.
They refine the parser over the remaining bytes, so no accepted or rejected string is read
outside its bounds.
-/

namespace Nvcr

open StatefulResults

namespace CursorReader.Refines

/-- A computed value may be replaced by what its use depends on. -/
theorem bind_view {α α' β : Type} {x : CursorReader α} {view : α → α'} {y : ByteReader α'}
    {f : α → CursorReader β} {g : α' → ByteReader β}
    (hx : Refines (x >>= fun a => Pure.pure (view a)) y) (hf : ∀ a, Refines (f a) (g (view a))) :
    Refines (x >>= f) (y >>= g) := by
  have hrun : ∀ cursor, (x >>= fun a => (Pure.pure (view a) : CursorReader α')).run cursor =
      ((x.run cursor).1.map view, (x.run cursor).2) := by
    intro cursor
    rw [Action.run_bind]
    rcases x.run cursor with ⟨e | a, cursor'⟩ <;> rfl
  have hdata : Action.Keeps ByteCursor.data x := by
    intro cursor
    have hkeeps := hx.keeps cursor
    rwa [hrun] at hkeeps
  have hbounds : ∀ cursor : ByteCursor, cursor.InBounds → (x.run cursor).2.InBounds := by
    intro cursor h
    have hfirst := hx.inBounds cursor h
    rwa [hrun] at hfirst
  refine ⟨hdata.bind fun a => (hf a).keeps, fun cursor h => ?_, fun cursor h => ?_⟩
  · have hfirst := hbounds cursor h
    rw [Action.run_bind]
    rcases hcase : x.run cursor with ⟨e | a, cursor'⟩
    · rwa [hcase] at hfirst
    · rw [hcase] at hfirst
      exact (hf a).inBounds cursor' hfirst
  · have hfirst := hbounds cursor h
    rw [StateT.run_bind, hx.answer cursor h, hrun, Action.run_bind]
    rcases hcase : x.run cursor with ⟨e | a, cursor'⟩
    · rfl
    · rw [hcase] at hfirst
      exact (hf a).answer cursor' hfirst

end CursorReader.Refines

namespace AccessUnitIo.AtCursor

open CursorReader

structure HeaderV1 where
  frameType : UInt8
  flags : UInt8
  modelIdSize : UInt16
  reserved : UInt16
  width : UInt32
  height : UInt32
  qp : UInt32
  payloadSize : UInt64

def readHeaderV1 : CursorReader HeaderV1 :=
  (pure HeaderV1.mk : CursorReader _)
    |> (alongside · readU8) |> (alongside · readU8) |> (alongside · readU16)
    |> (alongside · readU16) |> (alongside · readU32) |> (alongside · readU32)
    |> (alongside · readU32) |> (alongside · readU64)

def deserializeV1 (size maximumAccessUnitBytes : ℕ) : CursorReader AccessUnit := do
  let header ← readHeaderV1
  check (header.frameType ≤ 1) (malformed "invalid access-unit frame type")
  check (header.flags &&& ~~~resetStateFlag = 0 ∧ header.reserved = 0)
    (malformed "unsupported access-unit flags or reserved fields")
  check (header.modelIdSize ≠ 0 ∧ header.modelIdSize.toNat ≤ maximumModelIdBytes)
    (malformed "access-unit model identity is out of range")
  let left ← remaining
  check (header.payloadSize ≠ 0 ∧ header.payloadSize.toNat ≤ left)
    (malformed "access-unit payload length is invalid")
  check (size ≤ maximumAccessUnitBytes) limitError
  let modelId ← readBytes header.modelIdSize.toNat
  let payload ← readBytes header.payloadSize.toNat
  let left ← remaining
  check (left = 0) (malformed "trailing access-unit data")
  let output : AccessUnit :=
    { modelId, width := header.width, height := header.height, qp := header.qp
      frameType := frameTypeOfByte header.frameType
      resetState := header.flags &&& resetStateFlag ≠ 0, payload }
  match validateV1Fields output with
  | .error e => Action.fail (malformed e.message)
  | .ok () => pure output

/-- The header fields are handed on as the sequential reader hands them on. -/
theorem readHeaderV1_bind {α : Type} {f : HeaderV1 → CursorReader α}
    {g : UInt8 → UInt8 → UInt16 → UInt16 → UInt32 → UInt32 → UInt32 → UInt64 → ByteReader α}
    (hf : ∀ header, Refines (f header) (g header.frameType header.flags header.modelIdSize
      header.reserved header.width header.height header.qp header.payloadSize)) :
    Refines (readHeaderV1 >>= f) (do
      let frameType ← ByteReader.readU8
      let flags ← ByteReader.readU8
      let modelIdSize ← ByteReader.readU16
      let reserved ← ByteReader.readU16
      let width ← ByteReader.readU32
      let height ← ByteReader.readU32
      let qp ← ByteReader.readU32
      let payloadSize ← ByteReader.readU64
      g frameType flags modelIdSize reserved width height qp payloadSize) := by
  have hread := ((((((((Refines.pure HeaderV1.mk).alongside .readU8).alongside .readU8).alongside
    .readU16).alongside .readU16).alongside .readU32).alongside .readU32).alongside
    .readU32).alongside .readU64
  have hbind := hread.bind hf
  simp only [bind_assoc, pure_bind] at hbind
  exact hbind

theorem deserializeV1_refines (size maximumAccessUnitBytes : ℕ) :
    Refines (deserializeV1 size maximumAccessUnitBytes)
      (AccessUnitIo.deserializeV1 size maximumAccessUnitBytes) := by
  refine readHeaderV1_bind fun header => ?_
  refine .bind (.check _ _) fun _ => .bind (.check _ _) fun _ => .bind (.check _ _) fun _ =>
    .bind .remaining fun left => .bind (.check _ _) fun _ => .bind (.check _ _) fun _ =>
    .bind (.readBytes _) fun modelId => .bind (.readBytes _) fun payload =>
    .bind .remaining fun left => .bind (.check _ _) fun _ => ?_
  simp only
  generalize validateV1Fields _ = valid
  cases valid with
  | error _ => exact .fail _
  | ok _ => exact .pure _

structure HeaderV2 where
  headerSize : UInt16
  flags : UInt32
  frameType : UInt8
  pixelFormat : UInt8
  bitDepth : UInt8
  reserved8 : UInt8
  width : UInt32
  height : UInt32
  qp : UInt32
  decodeOrderIndex : UInt64
  presentationOrderIndex : UInt64
  dependencyCount : UInt16
  sectionCount : UInt16
  codecIdSize : UInt16
  codecProfileIdSize : UInt16
  modelIdSize : UInt16
  reserved16 : UInt16
  totalSize : UInt64

def readHeaderV2 : CursorReader HeaderV2 :=
  (pure HeaderV2.mk : CursorReader _)
    |> (alongside · readU16) |> (alongside · readU32) |> (alongside · readU8)
    |> (alongside · readU8) |> (alongside · readU8) |> (alongside · readU8)
    |> (alongside · readU32) |> (alongside · readU32) |> (alongside · readU32)
    |> (alongside · readU64) |> (alongside · readU64) |> (alongside · readU16)
    |> (alongside · readU16) |> (alongside · readU16) |> (alongside · readU16)
    |> (alongside · readU16) |> (alongside · readU16) |> (alongside · readU64)

structure Identities where
  codecId : Bytes
  codecProfileId : Bytes
  modelId : Bytes

def readIdentities (header : HeaderV2) : CursorReader Identities :=
  (pure Identities.mk : CursorReader _)
    |> (alongside · (readBytes header.codecIdSize.toNat))
    |> (alongside · (readBytes header.codecProfileIdSize.toNat))
    |> (alongside · (readBytes header.modelIdSize.toNat))

def readDependencies : ℕ → CursorReader (List UInt64)
  | 0 => pure []
  | count + 1 => do
      let dependency ← readU64
      let rest ← readDependencies count
      pure (dependency :: rest)

def readSectionHeader : CursorReader SectionHeader :=
  (pure SectionHeader.mk : CursorReader _)
    |> (alongside · readU16) |> (alongside · readU16) |> (alongside · readU32)
    |> (alongside · readU64)

/-- The checks of one table entry against the sum of the sizes before it. -/
def checkSectionHeader (aggregate : UInt64) (header : SectionHeader) : CursorReader Unit := do
  check (header.size ≠ 0) (malformed "NVAU v2 section length is invalid")
  check (knownSectionType header.type ∨ header.flags &&& requiredSectionFlag = 0)
    (malformed "unknown required NVAU v2 section")
  check (aggregate.toNat ≤ 2 ^ 64 - 1 - header.size.toNat)
    (malformed "NVAU v2 aggregate section length overflow")

/-- The section table, with the 64-bit sum of the section sizes so far. -/
def readSectionHeaders : ℕ → UInt64 → CursorReader (List SectionHeader × UInt64)
  | 0, aggregate => pure ([], aggregate)
  | count + 1, aggregate => do
      let header ← readSectionHeader
      checkSectionHeader aggregate header
      let (headers, total) ← readSectionHeaders count (aggregate + header.size)
      pure (header :: headers, total)

def readSections : List SectionHeader → Option Bytes →
    CursorReader (List AccessUnitSection × Option Bytes)
  | [], codecPayload => pure ([], codecPayload)
  | header :: headers, codecPayload => do
      let payload ← readBytes header.size.toNat
      let codecPayload ← if header.type = codecPayloadSectionType then do
          check (codecPayload.isNone) (malformed "multiple NVAU v2 codec payload sections")
          pure (some payload)
        else pure codecPayload
      let (sections, found) ← readSections headers codecPayload
      pure (⟨header.type, header.version, header.flags, payload⟩ :: sections, found)

def deserializeV2 (size maximumAccessUnitBytes : ℕ) : CursorReader AccessUnit := do
  let header ← readHeaderV2
  check (header.headerSize = fixedHeaderBytesV2) (malformed "invalid NVAU v2 header size")
  check (header.totalSize.toNat = size ∧ header.totalSize.toNat ≤ maximumAccessUnitBytes) limitError
  check (header.flags &&& ~~~7 = 0 ∧ header.reserved8 = 0 ∧ header.reserved16 = 0)
    (malformed "unsupported NVAU v2 flags or reserved fields")
  check (header.frameType ≤ 1) (malformed "invalid access-unit frame type")
  check (header.pixelFormat = 1 ∧ header.bitDepth = 8) (malformed "unsupported NVAU v2 pixel format")
  check (header.dependencyCount.toNat ≤ maximumDependencies ∧ header.sectionCount ≠ 0 ∧
      header.sectionCount.toNat ≤ maximumSections)
    (malformed "NVAU v2 dependency or section count is out of range")
  check (header.codecIdSize ≠ 0 ∧ header.codecIdSize.toNat ≤ maximumCodecIdBytes ∧
      header.codecProfileIdSize ≠ 0 ∧
      header.codecProfileIdSize.toNat ≤ maximumCodecProfileIdBytes ∧
      header.modelIdSize ≠ 0 ∧ header.modelIdSize.toNat ≤ maximumModelIdBytes)
    (malformed "NVAU v2 identity length is out of range")
  let identities ← readIdentities header
  let dependencies ← readDependencies header.dependencyCount.toNat
  let (headers, aggregate) ← readSectionHeaders header.sectionCount.toNat 0
  let left ← remaining
  check (aggregate.toNat = left)
    (malformed "NVAU v2 section table and payload sizes are inconsistent")
  let (sections, codecPayload) ← readSections headers none
  let left ← remaining
  check (left = 0) (malformed "trailing NVAU v2 section payload data")
  match codecPayload with
  | none => Action.fail (malformed "NVAU v2 has no codec payload section")
  | some payload =>
      let output : AccessUnit :=
        { modelId := identities.modelId, width := header.width, height := header.height
          qp := header.qp, frameType := frameTypeOfByte header.frameType
          resetState := header.flags &&& 1 ≠ 0, payload, codecId := identities.codecId
          codecProfileId := identities.codecProfileId, bitDepth := header.bitDepth
          randomAccess := header.flags &&& 2 ≠ 0, discontinuity := header.flags &&& 4 ≠ 0
          decodeOrderIndex := header.decodeOrderIndex
          presentationOrderIndex := header.presentationOrderIndex, dependencies, sections }
      match validateV2Fields output with
      | .error e => Action.fail (malformed e.message)
      | .ok _ => pure output

theorem readHeaderV2_bind {α : Type} {f : HeaderV2 → CursorReader α}
    {g : UInt16 → UInt32 → UInt8 → UInt8 → UInt8 → UInt8 → UInt32 → UInt32 → UInt32 → UInt64 →
      UInt64 → UInt16 → UInt16 → UInt16 → UInt16 → UInt16 → UInt16 → UInt64 → ByteReader α}
    (hf : ∀ header, Refines (f header) (g header.headerSize header.flags header.frameType
      header.pixelFormat header.bitDepth header.reserved8 header.width header.height header.qp
      header.decodeOrderIndex header.presentationOrderIndex header.dependencyCount
      header.sectionCount header.codecIdSize header.codecProfileIdSize header.modelIdSize
      header.reserved16 header.totalSize)) :
    Refines (readHeaderV2 >>= f) (do
      let headerSize ← ByteReader.readU16
      let flags ← ByteReader.readU32
      let frameType ← ByteReader.readU8
      let pixelFormat ← ByteReader.readU8
      let bitDepth ← ByteReader.readU8
      let reserved8 ← ByteReader.readU8
      let width ← ByteReader.readU32
      let height ← ByteReader.readU32
      let qp ← ByteReader.readU32
      let decodeOrderIndex ← ByteReader.readU64
      let presentationOrderIndex ← ByteReader.readU64
      let dependencyCount ← ByteReader.readU16
      let sectionCount ← ByteReader.readU16
      let codecIdSize ← ByteReader.readU16
      let codecProfileIdSize ← ByteReader.readU16
      let modelIdSize ← ByteReader.readU16
      let reserved16 ← ByteReader.readU16
      let totalSize ← ByteReader.readU64
      g headerSize flags frameType pixelFormat bitDepth reserved8 width height qp decodeOrderIndex
        presentationOrderIndex dependencyCount sectionCount codecIdSize codecProfileIdSize
        modelIdSize reserved16 totalSize) := by
  have hread := ((((((((((((((((((Refines.pure HeaderV2.mk).alongside .readU16).alongside
    .readU32).alongside .readU8).alongside .readU8).alongside .readU8).alongside .readU8).alongside
    .readU32).alongside .readU32).alongside .readU32).alongside .readU64).alongside
    .readU64).alongside .readU16).alongside .readU16).alongside .readU16).alongside
    .readU16).alongside .readU16).alongside .readU16).alongside .readU64
  have hbind := hread.bind hf
  simp only [bind_assoc, pure_bind] at hbind
  exact hbind

theorem readIdentities_bind {α : Type} {header : HeaderV2} {f : Identities → CursorReader α}
    {g : Bytes → Bytes → Bytes → ByteReader α}
    (hf : ∀ identities, Refines (f identities)
      (g identities.codecId identities.codecProfileId identities.modelId)) :
    Refines (readIdentities header >>= f) (do
      let codecId ← ByteReader.readBytes header.codecIdSize.toNat
      let codecProfileId ← ByteReader.readBytes header.codecProfileIdSize.toNat
      let modelId ← ByteReader.readBytes header.modelIdSize.toNat
      g codecId codecProfileId modelId) := by
  have hread := (((Refines.pure Identities.mk).alongside
    (.readBytes header.codecIdSize.toNat)).alongside
    (.readBytes header.codecProfileIdSize.toNat)).alongside (.readBytes header.modelIdSize.toNat)
  have hbind := hread.bind hf
  simp only [bind_assoc, pure_bind] at hbind
  exact hbind

theorem readDependencies_refines (count : ℕ) :
    Refines (readDependencies count) (AccessUnitIo.readDependencies count) := by
  induction count with
  | zero => exact .pure []
  | succ count ih => exact .bind .readU64 fun dependency => .bind ih fun rest => .pure _

theorem readSectionHeader_bind {α : Type} {f : SectionHeader → CursorReader α}
    {g : UInt16 → UInt16 → UInt32 → UInt64 → ByteReader α}
    (hf : ∀ header, Refines (f header) (g header.type header.version header.flags header.size)) :
    Refines (readSectionHeader >>= f) (do
      let type ← ByteReader.readU16
      let version ← ByteReader.readU16
      let flags ← ByteReader.readU32
      let size ← ByteReader.readU64
      g type version flags size) := by
  have hread := ((((Refines.pure SectionHeader.mk).alongside .readU16).alongside
    .readU16).alongside .readU32).alongside .readU64
  have hbind := hread.bind hf
  simp only [bind_assoc, pure_bind] at hbind
  exact hbind

/-- The overflow check is exact, so the 64-bit sum is the sum of the sizes. -/
theorem toNat_add_of_checked {aggregate size : UInt64}
    (h : aggregate.toNat ≤ 2 ^ 64 - 1 - size.toNat) :
    (aggregate + size).toNat = aggregate.toNat + size.toNat := by
  have hsize := size.toNat_lt
  rw [UInt64.toNat_add, Nat.mod_eq_of_lt (by omega)]

theorem readSectionHeaders_refines (count : ℕ) (aggregate : UInt64) :
    Refines (do
      let result ← readSectionHeaders count aggregate
      pure (result.1, result.2.toNat)) (AccessUnitIo.readSectionHeaders count aggregate.toNat) := by
  induction count generalizing aggregate with
  | zero => exact .pure _
  | succ count ih =>
      rw [readSectionHeaders, AccessUnitIo.readSectionHeaders]
      simp only [checkSectionHeader, bind_assoc, pure_bind]
      refine readSectionHeader_bind fun header => .bind (.check _ _) fun _ =>
        .bind (.check _ _) fun _ => .check_bind Iff.rfl fun hchecked => ?_
      rw [← toNat_add_of_checked hchecked]
      exact .bind_view (ih _) fun result => .pure _

/-- A section table that is read to its end has the exact sum of its sizes. -/
theorem readSectionHeaders_sum {count : ℕ} {aggregate total : UInt64}
    {cursor cursor' : ByteCursor} {headers : List SectionHeader}
    (h : (readSectionHeaders count aggregate).run cursor = (.ok (headers, total), cursor')) :
    total.toNat = aggregate.toNat + (headers.map fun header => header.size.toNat).sum := by
  induction count generalizing aggregate cursor headers with
  | zero =>
      cases h
      rfl
  | succ count ih =>
      rw [readSectionHeaders] at h
      obtain ⟨header, _, -, h₁⟩ := Action.run_bind_eq_ok.mp h
      obtain ⟨_, _, hcheck, h₂⟩ := Action.run_bind_eq_ok.mp h₁
      obtain ⟨⟨later, sum⟩, _, hlater, hlast⟩ := Action.run_bind_eq_ok.mp h₂
      cases hlast
      obtain ⟨_, _, -, hcheck₁⟩ := Action.run_bind_eq_ok.mp hcheck
      obtain ⟨_, _, -, hcheck₂⟩ := Action.run_bind_eq_ok.mp hcheck₁
      have hroom := require_eq_ok.mp (congrArg Prod.fst hcheck₂)
      rw [ih hlater, toNat_add_of_checked hroom, List.map_cons, List.sum_cons, Nat.add_assoc]

theorem readSections_refines (headers : List SectionHeader) (codecPayload : Option Bytes) :
    Refines (readSections headers codecPayload)
      (AccessUnitIo.readSections headers codecPayload) := by
  induction headers generalizing codecPayload with
  | nil => exact .pure _
  | cons header headers ih =>
      rw [readSections, AccessUnitIo.readSections]
      refine .bind (.readBytes _) fun payload => ?_
      by_cases htype : header.type = codecPayloadSectionType
      · simp only [if_pos htype, pure_bind]
        exact .bind (.check _ _) fun _ => .bind (ih _) fun result => .pure _
      · simp only [if_neg htype, pure_bind]
        exact .bind (ih _) fun result => .pure _

theorem deserializeV2_refines (size maximumAccessUnitBytes : ℕ) :
    Refines (deserializeV2 size maximumAccessUnitBytes)
      (AccessUnitIo.deserializeV2 size maximumAccessUnitBytes) := by
  refine readHeaderV2_bind fun header => ?_
  refine .bind (.check _ _) fun _ => .bind (.check _ _) fun _ => .bind (.check _ _) fun _ =>
    .bind (.check _ _) fun _ => .bind (.check _ _) fun _ => .bind (.check _ _) fun _ =>
    .bind (.check _ _) fun _ => readIdentities_bind fun identities =>
    .bind (readDependencies_refines _) fun dependencies =>
    .bind_view (readSectionHeaders_refines _ 0) fun table => .bind .remaining fun left =>
    .bind (.check _ _) fun _ => .bind (readSections_refines _ _) fun found =>
    .bind .remaining fun left => .bind (.check _ _) fun _ => ?_
  obtain ⟨sections, codecPayload⟩ := found
  cases codecPayload with
  | none => exact .fail _
  | some payload =>
      simp only
      generalize validateV2Fields _ = valid
      cases valid with
      | error _ => exact .fail _
      | ok _ => exact .pure _

/-- Compare the first bytes with the magic, when there are enough of them. -/
def hasMagic : CursorReader Bool := fun cursor =>
  if magic.length ≤ cursor.data.length then
    (.ok (cursor.data.take magic.length = magic),
      { cursor with reads := cursor.reads ++ [(0, magic.length)] })
  else (.ok false, cursor)

def deserialize (maximumAccessUnitBytes : ℕ) : CursorReader AccessUnit := do
  let size ← Action.gets fun cursor => cursor.data.length
  check (size ≤ maximumAccessUnitBytes) limitError
  let found ← hasMagic
  check (found = true) (malformed "invalid access-unit magic")
  let _ ← readBytes magic.length
  let version ← readU16
  if version = formatVersion then deserializeV1 size maximumAccessUnitBytes
  else if version = sectionedFormatVersion then deserializeV2 size maximumAccessUnitBytes
  else Action.fail (malformed "unsupported access-unit version")

theorem hasMagic_run (bytes : Bytes) :
    ∃ reads, hasMagic.run { data := bytes } =
        (.ok (AccessUnitIo.hasMagic bytes), { data := bytes, reads := reads }) ∧
      ({ data := bytes, reads := reads } : ByteCursor).InBounds := by
  by_cases hlength : magic.length ≤ bytes.length
  · refine ⟨[(0, magic.length)], ?_, Nat.zero_le _, ?_⟩
    · simp only [hasMagic, Action.run, if_pos hlength, List.nil_append]
      rfl
    · intro range hrange
      rw [List.mem_singleton.mp hrange, Nat.zero_add]
      exact hlength
  · have hshort : AccessUnitIo.hasMagic bytes = false := by
      rw [AccessUnitIo.hasMagic, decide_eq_false_iff_not]
      intro htake
      apply hlength
      rw [← htake, List.length_take]
      exact Nat.min_le_right 4 bytes.length
    refine ⟨[], ?_, Nat.zero_le _, fun _ hmem => absurd hmem List.not_mem_nil⟩
    rw [hshort]
    simp only [hasMagic, Action.run, if_neg hlength]

/-- The parser over the remaining bytes behind the magic check, for a string of the given size. -/
def parser (size maximumAccessUnitBytes : ℕ) : ByteReader AccessUnit := do
  let _ ← ByteReader.readBytes 4
  let version ← ByteReader.readU16
  if version = formatVersion then AccessUnitIo.deserializeV1 size maximumAccessUnitBytes
  else if version = sectionedFormatVersion then
    AccessUnitIo.deserializeV2 size maximumAccessUnitBytes
  else throw (malformed "unsupported access-unit version")

/-- An accepted string was parsed to its end. -/
theorem parser_rest {size maximumAccessUnitBytes : ℕ} {bytes rest : Bytes} {unit : AccessUnit}
    (h : (parser size maximumAccessUnitBytes).run bytes = .ok (unit, rest)) : rest = [] := by
  obtain ⟨_, _, -, h₁⟩ := ByteReader.run_bind_eq_ok.mp h
  obtain ⟨version, _, -, h₂⟩ := ByteReader.run_bind_eq_ok.mp h₁
  clear h h₁
  split at h₂
  · exact (deserializeV1_eq_ok h₂).1
  · split at h₂
    · exact (deserializeV2_eq_ok h₂).1
    · cases h₂

/-- The parser answers as the one over the remaining bytes, reads nothing outside the string, and
has consumed all of an accepted string. -/
theorem deserialize_run (bytes : Bytes) (maximumAccessUnitBytes : ℕ) :
    let outcome := (deserialize maximumAccessUnitBytes).run { data := bytes }
    outcome.1 = AccessUnitIo.deserialize bytes maximumAccessUnitBytes ∧
      (∀ range ∈ outcome.2.reads, range.1 + range.2 ≤ bytes.length) ∧
      ∀ unit, outcome.1 = .ok unit → outcome.2.offset = bytes.length := by
  have hgets : (Action.gets fun cursor : ByteCursor => cursor.data.length : CursorReader ℕ).run
      { data := bytes } = (.ok bytes.length, { data := bytes }) := rfl
  obtain ⟨reads, hmagicRun, hbounds⟩ := hasMagic_run bytes
  rw [deserialize, Action.run_bind_of_ok hgets]
  by_cases hsize : bytes.length ≤ maximumAccessUnitBytes
  swap
  · rw [Action.run_bind_of_error (run_check_of_neg hsize _ _)]
    refine ⟨?_, fun _ hmem => absurd hmem List.not_mem_nil, fun _ hok => by cases hok⟩
    rw [AccessUnitIo.deserialize, require, if_neg hsize]
    rfl
  rw [Action.run_bind_of_ok (run_check_of_pos hsize _ _), Action.run_bind_of_ok hmagicRun]
  by_cases hmagic : AccessUnitIo.hasMagic bytes = true
  swap
  · rw [Action.run_bind_of_error (run_check_of_neg hmagic _ _)]
    refine ⟨?_, hbounds.reads_le, fun _ hok => by cases hok⟩
    rw [AccessUnitIo.deserialize, require, if_pos hsize, require, if_neg hmagic]
    rfl
  rw [Action.run_bind_of_ok (run_check_of_pos hmagic _ _)]
  have hrefines : Refines (do
      let _ ← readBytes magic.length
      let version ← readU16
      if version = formatVersion then deserializeV1 bytes.length maximumAccessUnitBytes
      else if version = sectionedFormatVersion then
        deserializeV2 bytes.length maximumAccessUnitBytes
      else Action.fail (malformed "unsupported access-unit version"))
      (parser bytes.length maximumAccessUnitBytes) := by
    refine .bind (.readBytes 4) fun _ => .bind .readU16 fun version => ?_
    split
    · exact deserializeV1_refines _ _
    · split
      · exact deserializeV2_refines _ _
      · exact .fail _
  have hlist : AccessUnitIo.deserialize bytes maximumAccessUnitBytes =
      (parser bytes.length maximumAccessUnitBytes).run' bytes := by
    rw [AccessUnitIo.deserialize, require, if_pos hsize, require, if_pos hmagic]
    rfl
  rw [hlist]
  exact hrefines.run_front hbounds rfl fun _ _ => parser_rest

end AccessUnitIo.AtCursor

namespace AccessUnitIo

/-- Version 1 is canonical: a written unit is read back with its fields, a string that is read as
version 1 is written again byte for byte, and no string is read outside its bounds or accepted
with bytes left over. -/
theorem version1_canonical (maximumAccessUnitBytes : ℕ) :
    (∀ unit bytes, serialize unit maximumAccessUnitBytes = .ok bytes →
      deserialize bytes maximumAccessUnitBytes = .ok (v1Fields unit)) ∧
    (∀ bytes unit, deserialize bytes maximumAccessUnitBytes = .ok unit →
      versionField bytes = formatVersion →
      serialize unit maximumAccessUnitBytes = .ok bytes) ∧
    ∀ bytes, let outcome := (AtCursor.deserialize maximumAccessUnitBytes).run { data := bytes }
      outcome.1 = deserialize bytes maximumAccessUnitBytes ∧
        (∀ range ∈ outcome.2.reads, range.1 + range.2 ≤ bytes.length) ∧
        ∀ unit, outcome.1 = .ok unit → outcome.2.offset = bytes.length := by
  refine ⟨fun unit bytes h => ?_, fun bytes unit h hversion => ?_, fun bytes => ?_⟩
  · exact deserialize_serialize h
  · exact serialize_deserialize h hversion
  · exact AtCursor.deserialize_run bytes maximumAccessUnitBytes

/-- Version 2 is canonical: a written unit is read back, with its normalized sections, exactly
when no section of an unknown type is marked as required; a string that is read as version 2 is
written again byte for byte; no string is read outside its bounds or accepted with bytes left
over; and the sum of the section sizes does not wrap. -/
theorem version2_canonical (maximumAccessUnitBytes : ℕ) :
    (∀ unit bytes, serializeSectioned unit maximumAccessUnitBytes = .ok bytes →
      ∃ sections, normalizedSections unit = .ok sections ∧
        ((∃ result, deserialize bytes maximumAccessUnitBytes = .ok result) ↔
          ¬ ∃ s ∈ sections, knownSectionType s.type = false ∧
            s.flags &&& requiredSectionFlag ≠ 0) ∧
        ∀ result, deserialize bytes maximumAccessUnitBytes = .ok result →
          result = withSections unit sections) ∧
    (∀ bytes unit, deserialize bytes maximumAccessUnitBytes = .ok unit →
      versionField bytes = sectionedFormatVersion →
      serializeSectioned unit maximumAccessUnitBytes = .ok bytes) ∧
    (∀ bytes, let outcome := (AtCursor.deserialize maximumAccessUnitBytes).run { data := bytes }
      outcome.1 = deserialize bytes maximumAccessUnitBytes ∧
        (∀ range ∈ outcome.2.reads, range.1 + range.2 ≤ bytes.length) ∧
        ∀ unit, outcome.1 = .ok unit → outcome.2.offset = bytes.length) ∧
    ∀ count cursor headers aggregate cursor',
      (AtCursor.readSectionHeaders count 0).run cursor = (.ok (headers, aggregate), cursor') →
      aggregate.toNat = (headers.map fun header => header.size.toNat).sum := by
  refine ⟨fun unit bytes h => ?_, fun bytes unit h hversion => ?_, fun bytes => ?_, ?_⟩
  · obtain ⟨sections, hsections, hread⟩ := deserialize_serializeSectioned h
    have hunderstood : (∀ s ∈ sections, Understood s.type s.flags) ↔
        ¬ ∃ s ∈ sections, knownSectionType s.type = false ∧
          s.flags &&& requiredSectionFlag ≠ 0 := by
      simp only [Understood, not_exists, not_and, ← Bool.not_eq_true, not_not, or_iff_not_imp_left]
    refine ⟨sections, hsections, ?_, fun result hresult => ?_⟩
    · rw [← hunderstood]
      constructor
      · rintro ⟨result, hresult⟩
        by_contra hunknown
        rw [hread, if_neg hunknown] at hresult
        cases hresult
      · intro hall
        exact ⟨_, hread.trans (if_pos hall)⟩
    · rw [hread] at hresult
      split at hresult
      · cases hresult
        rfl
      · cases hresult
  · exact serializeSectioned_deserialize h hversion
  · exact AtCursor.deserialize_run bytes maximumAccessUnitBytes
  · intro count cursor headers aggregate cursor' h
    simpa using AtCursor.readSectionHeaders_sum h

end AccessUnitIo

end Nvcr
