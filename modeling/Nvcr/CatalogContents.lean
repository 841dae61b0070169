import Nvcr.CatalogLoading

/-!
# The contents of catalogs

A document for every sound catalog, and the candidates that a loaded catalog gives the resolver.
-/

namespace Nvcr.Artifacts

open Json StatefulResults OrderedEntries
open Mlvc (textBytes)
open Provider (byteText)

section Objects

instance decidableIsByteText (text : String) : Decidable (IsByteText text) :=
  inferInstanceAs (Decidable (∀ c ∈ text.toList, c.toNat < 256))

theorem textBytes_inj {text other : String} (h : IsByteText text) (hother : IsByteText other) :
    textBytes text = textBytes other ↔ text = other := by
  refine ⟨fun heq => ?_, congrArg textBytes⟩
  rw [← byteText_textBytes h, heq, byteText_textBytes hother]

/-- The object with the given fields. -/
def objectOf (fields : List (String × Value UInt64)) : Value UInt64 :=
  .object (fields.map fun field => (textBytes field.1, field.2))

variable {fields : List (String × Value UInt64)} {object : Value UInt64}
  {key context text : String}

theorem member_objectOf (hfields : ∀ field ∈ fields, IsByteText field.1) (hkey : IsByteText key) :
    member (objectOf fields) key = fields.lookup key := by
  change (fields.map fun field => (textBytes field.1, field.2)).lookup (textBytes key) = _
  induction fields with
  | nil => rfl
  | cons field fields ih =>
      obtain ⟨hfield, hrest⟩ := List.forall_mem_cons.mp hfields
      have hsame : (textBytes key == textBytes field.1) = (key == field.1) := by
        rw [Bool.eq_iff_iff, beq_iff_eq, beq_iff_eq, textBytes_inj hkey hfield]
      obtain ⟨name, value⟩ := field
      rw [List.map_cons, List.lookup_cons, List.lookup_cons, hsame, ih hrest]

theorem requiredString_of_member (h : member object key = some (.string (textBytes text)))
    (htext : text ≠ "" ∧ IsByteText text) : requiredString object key context = .ok text := by
  rw [requiredString, h]
  simp only [if_neg (textBytes_ne_nil htext.1), byteText_textBytes htext.2]

theorem aliasedString_of_member {legacy : String}
    (h : member object key = some (.string (textBytes text))) (hlegacy : member object legacy = none)
    (htext : text ≠ "" ∧ IsByteText text) : aliasedString object context key legacy = .ok text := by
  have hone : ¬ ((member object key).isSome ∧ (member object legacy).isSome) := by
    rw [hlegacy]
    exact fun hboth => Bool.false_ne_true hboth.2
  have hkey : (member object key).isSome := by
    rw [h]
    rfl
  rw [aliasedString, require, if_pos hone, ok_bind, if_pos hkey]
  exact requiredString_of_member h htext

theorem requiredInteger_of_member {value : UInt64} (h : member object key = some (.number value)) :
    requiredInteger object key context = .ok value := by
  rw [requiredInteger, h]

theorem setInteger_of_member {value : UInt32}
    (h : member object key = some (.number value.toUInt64)) :
    setInteger object key context = .ok value := by
  have hrange : value.toUInt64.toNat < 2 ^ 32 := by
    rw [UInt32.toNat_toUInt64]
    exact value.toNat_lt
  rw [setInteger, requiredInteger_of_member h, ok_bind, require, if_pos hrange, ok_bind,
    UInt32.toUInt32_toUInt64]

end Objects

section Entries

def HardwareCompatibility.text : HardwareCompatibility → String
  | .exact => "exact"
  | .sameComputeCapability => "same_compute_capability"
  | .amperePlus => "ampere_plus"

/-- The fields of an entry in the order of their names. -/
def entryFields (entry : CatalogEntry) : List (String × Value UInt64) :=
  [("architecture", .string (textBytes entry.architecture)),
    ("codec_id", .string (textBytes entry.codecId)),
    ("compute_capability_major", .number entry.computeCapabilityMajor.toUInt64),
    ("compute_capability_minor", .number entry.computeCapabilityMinor.toUInt64),
    ("cuda_runtime_version", .number entry.cudaRuntimeVersion.toUInt64),
    ("device_name", .string (textBytes entry.deviceName)),
    ("engine_profile_id", .string (textBytes entry.engineProfileId)),
    ("filename", .string (textBytes entry.filename)),
    ("hardware_compatibility", .string (textBytes entry.hardwareCompatibility.text)),
    ("model_profile_id", .string (textBytes entry.modelProfileId)),
    ("multiprocessor_count", .number entry.multiprocessorCount.toUInt64),
    ("operating_system", .string (textBytes entry.operatingSystem)),
    ("precision", .string (textBytes entry.precision)),
    ("sha256", .string (textBytes entry.sha256)),
    ("size_bytes", .number entry.sizeBytes),
    ("target_profile_id", .string (textBytes entry.targetProfileId)),
    ("tensorrt_version_major", .number entry.tensorrtVersionMajor.toUInt64),
    ("tensorrt_version_minor", .number entry.tensorrtVersionMinor.toUInt64),
    ("tensorrt_version_patch", .number entry.tensorrtVersionPatch.toUInt64)]

def fieldNames : List String :=
  ["architecture", "codec_id", "compute_capability_major", "compute_capability_minor",
    "cuda_runtime_version", "device_name", "engine_profile_id", "filename",
    "hardware_compatibility", "model_profile_id", "multiprocessor_count", "operating_system",
    "precision", "sha256", "size_bytes", "target_profile_id", "tensorrt_version_major",
    "tensorrt_version_minor", "tensorrt_version_patch"]

def entryValue (entry : CatalogEntry) : Value UInt64 := objectOf (entryFields entry)

theorem fieldNames_isByteText : ∀ name ∈ fieldNames, IsByteText name := by decide

theorem fieldNames_isChain : (fieldNames.map textBytes).IsChain (· < ·) := by decide

theorem map_fst_entryFields (entry : CatalogEntry) :
    (entryFields entry).map Prod.fst = fieldNames := rfl

variable {entry : CatalogEntry} {key context : String}

theorem member_entryValue (hkey : IsByteText key) :
    member (entryValue entry) key = (entryFields entry).lookup key := by
  refine member_objectOf (fun field hfield => fieldNames_isByteText field.1 ?_) hkey
  rw [← map_fst_entryFields entry]
  exact List.mem_map_of_mem hfield

theorem parseCompatibility_entryValue :
    parseCompatibility (entryValue entry) context = .ok entry.hardwareCompatibility := by
  have hmember : member (entryValue entry) "hardware_compatibility" =
      some (.string (textBytes entry.hardwareCompatibility.text)) :=
    (member_entryValue (by decide)).trans rfl
  have hbytes : IsByteText entry.hardwareCompatibility.text := by
    cases entry.hardwareCompatibility <;> decide
  rw [parseCompatibility, hmember]
  simp only [byteText_textBytes hbytes]
  cases entry.hardwareCompatibility with
  | exact => rfl
  | sameComputeCapability => rfl
  | amperePlus => rfl

/-- The fields of a sound entry are read back. -/
theorem readEntry_entryValue (h : ∀ text ∈ entry.texts, text ≠ "" ∧ IsByteText text) :
    readEntry (entryValue entry) context = .ok entry := by
  simp only [CatalogEntry.texts, List.forall_mem_cons] at h
  obtain ⟨hcodec, hmodel, htarget, hprofile, hprecision, hsystem, harchitecture, hdevice,
    hfilename, hsha256, -⟩ := h
  have hmember {key : String} (hkey : IsByteText key) :
      member (entryValue entry) key = (entryFields entry).lookup key := member_entryValue hkey
  rw [readEntry,
    aliasedString_of_member ((hmember (by decide)).trans rfl) ((hmember (by decide)).trans rfl) hcodec,
    ok_bind, requiredString_of_member ((hmember (by decide)).trans rfl) hmodel,
    ok_bind, requiredString_of_member ((hmember (by decide)).trans rfl) htarget,
    ok_bind, aliasedString_of_member ((hmember (by decide)).trans rfl)
      ((hmember (by decide)).trans rfl) hprofile,
    ok_bind, requiredString_of_member ((hmember (by decide)).trans rfl) hprecision,
    ok_bind, requiredString_of_member ((hmember (by decide)).trans rfl) hsystem,
    ok_bind, requiredString_of_member ((hmember (by decide)).trans rfl) harchitecture,
    ok_bind, requiredString_of_member ((hmember (by decide)).trans rfl) hdevice,
    ok_bind, requiredString_of_member ((hmember (by decide)).trans rfl) hfilename,
    ok_bind, requiredString_of_member ((hmember (by decide)).trans rfl) hsha256,
    ok_bind, requiredInteger_of_member ((hmember (by decide)).trans rfl),
    ok_bind, setInteger_of_member ((hmember (by decide)).trans rfl),
    ok_bind, setInteger_of_member ((hmember (by decide)).trans rfl),
    ok_bind, setInteger_of_member ((hmember (by decide)).trans rfl),
    ok_bind, setInteger_of_member ((hmember (by decide)).trans rfl),
    ok_bind, setInteger_of_member ((hmember (by decide)).trans rfl),
    ok_bind, setInteger_of_member ((hmember (by decide)).trans rfl),
    ok_bind, setInteger_of_member ((hmember (by decide)).trans rfl),
    ok_bind, parseCompatibility_entryValue, ok_bind]

theorem parseEntry_entryValue (h : SoundEntry entry) (index : ℕ) :
    parseEntry (entryValue entry) index = .ok entry := by
  have hobject : isObject (entryValue entry) = true := rfl
  rw [parseEntry, require, if_pos hobject, ok_bind, readEntry_entryValue h.texts, ok_bind,
    (checkEntry_eq_ok h.texts).mpr h, ok_bind]

/-- Strings and numbers hold no other values. -/
def isLeaf : Value UInt64 → Bool
  | .string _ => true
  | .number _ => true
  | _ => false

theorem within_of_isLeaf {value : Value UInt64} (h : isLeaf value = true) :
    Within catalogGrammar 1 value := by
  cases value with
  | string value => exact trivial
  | number value => exact ⟨_, integerText_decimalDigits value⟩
  | null => cases h
  | boolean value => cases h
  | array elements => cases h
  | object members => cases h

theorem within_objectOf {fields : List (String × Value UInt64)} {levels : ℕ}
    (hnames : ((fields.map Prod.fst).map textBytes).IsChain (· < ·))
    (hfields : ∀ field ∈ fields, Within catalogGrammar levels field.2) :
    Within catalogGrammar (levels + 1) (objectOf fields) := by
  refine ⟨?_, fun member hmember => ?_⟩
  · have hpairwise := hnames.pairwise
    rw [List.map_map, List.pairwise_map] at hpairwise
    rw [InOrder, List.pairwise_map]
    exact hpairwise
  · obtain ⟨field, hfield, rfl⟩ := List.mem_map.mp hmember
    exact hfields field hfield

theorem within_entryValue (entry : CatalogEntry) : Within catalogGrammar 2 (entryValue entry) := by
  have hleaves : (entryFields entry).all (fun field => isLeaf field.2) = true := rfl
  exact within_objectOf fieldNames_isChain fun field hfield =>
    within_of_isLeaf (List.all_eq_true.mp hleaves field hfield)

end Entries

section Catalogs

variable {entries later : List CatalogEntry}

theorem SoundCatalog.left (h : SoundCatalog (entries ++ later)) : SoundCatalog entries where
  sound entry hentry := h.sound entry (List.mem_append_left later hentry)
  identities := (List.map_append ▸ h.identities).of_append_left
  filenames := (List.map_append ▸ h.filenames).of_append_left

/-- Entries that keep the catalog sound are all loaded. -/
theorem loadEntries_entryValue (h : SoundCatalog (entries ++ later)) (index : ℕ) :
    loadEntries (later.map entryValue) index entries = .ok (entries ++ later) := by
  induction later generalizing entries index with
  | nil => exact congrArg Except.ok (List.append_nil _).symm
  | cons entry later ih =>
      have hsplit : entries ++ entry :: later = entries ++ [entry] ++ later := by simp
      rw [hsplit] at h
      have hentry : SoundEntry entry :=
        h.left.sound entry (List.mem_append_right _ (List.mem_singleton_self entry))
      have hstore := (storeEntry_eq_ok h.left.left hentry).mpr ⟨rfl, h.left⟩
      rw [List.map_cons, loadEntries, parseEntry_entryValue hentry, ok_bind, hstore, ok_bind, ih h,
        hsplit]

/-- The root of a document with the entries. -/
def catalogValue (entries : List CatalogEntry) : Value UInt64 :=
  objectOf [("assets", .array (entries.map entryValue)),
    ("schema", .string (textBytes catalogSchema))]

theorem within_catalogValue (entries : List CatalogEntry) :
    Within catalogGrammar 4 (catalogValue entries) := by
  have hnames : (["assets", "schema"].map textBytes).IsChain (· < ·) := by decide
  refine within_objectOf hnames ?_
  simp only [List.forall_mem_cons]
  refine ⟨fun value hvalue => ?_, trivial, fun _ hnone => absurd hnone List.not_mem_nil⟩
  obtain ⟨entry, -, rfl⟩ := List.mem_map.mp hvalue
  exact within_entryValue entry

theorem member_catalogValue {key : String} (hkey : IsByteText key) :
    member (catalogValue entries) key = List.lookup key
      [("assets", .array (entries.map entryValue)),
        ("schema", .string (textBytes catalogSchema))] := by
  refine member_objectOf ?_ hkey
  simp only [List.forall_mem_cons]
  exact ⟨by decide, by decide, fun _ hnone => absurd hnone List.not_mem_nil⟩

theorem exists_fromJson_of_sound (h : SoundCatalog entries) :
    ∃ document, fromJson document = .ok entries := by
  obtain ⟨document, hdocument⟩ := exists_parseJson_eq_ok.mpr ⟨4, within_catalogValue entries⟩
  have hschema : requiredString (catalogValue entries) "schema" "catalog" = .ok catalogSchema :=
    requiredString_of_member ((member_catalogValue (by decide)).trans rfl) (by decide)
  have hassets : member (catalogValue entries) "assets" =
      some (.array (entries.map entryValue)) := (member_catalogValue (by decide)).trans rfl
  have hsound : SoundCatalog ([] ++ entries) := h
  refine ⟨document, ?_⟩
  rw [fromJson, hdocument, ok_bind, hschema, ok_bind, require, if_pos rfl, ok_bind, hassets]
  exact loadEntries_entryValue hsound 0

/-- The lists of entries that are loaded from documents are the sound ones. -/
theorem exists_fromJson_eq_ok :
    (∃ document, fromJson document = .ok entries) ↔ SoundCatalog entries :=
  ⟨fun h => h.elim fun _ hdocument => fromJson_sound hdocument, exists_fromJson_of_sound⟩

end Catalogs

section Candidates

theorem length_hexBytes {count : ℕ} {digits : List Char} (h : digits.length = 2 * count) :
    (hexBytes digits).length = count := by
  induction count generalizing digits with
  | zero =>
      rw [List.length_eq_zero_iff.mp h]
      rfl
  | succ count ih =>
      cases digits with
      | nil => exact absurd h (by simp)
      | cons high digits =>
          cases digits with
          | nil => exact absurd h (by simp; omega)
          | cons low rest =>
              have hrest : rest.length = 2 * count := by
                simp only [List.length_cons] at h
                omega
              rw [hexBytes, List.length_cons, ih hrest]

/-- The digest of a sound entry can be decoded, to 32 bytes. -/
theorem decodeDigest_of_sound {entry : CatalogEntry} (h : SoundEntry entry) :
    decodeDigest entry.sha256 = .ok (hexBytes entry.sha256.toList) ∧
      (hexBytes entry.sha256.toList).length = 32 := by
  have hdigest := h.digest
  refine ⟨by rw [decodeDigest, if_pos hdigest], length_hexBytes ?_⟩
  rw [validHexDigest, Bool.and_eq_true, beq_iff_eq] at hdigest
  exact hdigest.1

/-- The candidate of an entry whose digest can be decoded. -/
def entryCandidate (isRegularFile : String → Bool) (options : CatalogLoadOptions)
    (entry : CatalogEntry) : ArtifactCandidate :=
  candidateOf isRegularFile options entry (hexBytes entry.sha256.toList)

/-- A loaded catalog gives the resolver one candidate for each entry, in the order of the entries
and with digests of 32 bytes, behind the candidates that were there. -/
theorem appendCandidates_of_fromJson {document : Bytes} {entries : List CatalogEntry}
    (h : fromJson document = .ok entries) (isRegularFile : String → Bool)
    {options : CatalogLoadOptions} (hoptions : ¬ (options.codecId.isEmpty ∨
      options.providerId.isEmpty ∨ options.componentId.isEmpty)) (candidates : List ArtifactCandidate) :
    (appendCandidates isRegularFile options entries).run candidates =
        (.ok (), candidates ++ entries.map (entryCandidate isRegularFile options)) ∧
      ∀ entry ∈ entries, (entryCandidate isRegularFile options entry).digest.length = 32 := by
  have hsound := (fromJson_sound h).sound
  refine ⟨?_, fun entry hentry => (decodeDigest_of_sound (hsound entry hentry)).2⟩
  have hcheck : (Action.lift (require (¬ (options.codecId.isEmpty ∨ options.providerId.isEmpty ∨
      options.componentId.isEmpty)) (catalogError
        "catalog candidate conversion requires codec_id, provider_id, and component_id"))).run
      candidates = (.ok (), candidates) := by
    rw [require, if_pos hoptions, Action.run_lift]
  rw [appendCandidates, Action.run_bind_of_ok hcheck]
  clear h hcheck
  induction entries generalizing candidates with
  | nil =>
      rw [List.map_nil, List.append_nil]
      rfl
  | cons entry entries ih =>
      obtain ⟨hentry, hlater⟩ := List.forall_mem_cons.mp hsound
      have hstep : (do
          let digest ← Action.lift (decodeDigest entry.sha256)
          Action.update fun candidates =>
            candidates ++ [candidateOf isRegularFile options entry digest] :
          Action Error (List ArtifactCandidate) Unit).run candidates =
          (.ok (), candidates ++ [entryCandidate isRegularFile options entry]) := by
        rw [(decodeDigest_of_sound hentry).1]
        rfl
      refine (Action.run_bind_of_ok hstep).trans ((ih _ hlater).trans ?_)
      rw [List.map_cons, List.append_assoc, List.singleton_append]

section Sample

def sampleEntry : CatalogEntry where
  codecId := "dcvcrt"
  modelProfileId := "psnr"
  targetProfileId := "linux-amd64"
  engineProfileId := "cif"
  precision := "fp16"
  operatingSystem := "linux"
  architecture := "x86_64"
  deviceName := "gpu"
  filename := "nvcr-engines-linux-amd64-psnr-cif.tar.gz"
  sizeBytes := 1
  sha256 := String.ofList (List.replicate 64 '0')
  computeCapabilityMajor := 8
  computeCapabilityMinor := 0
  multiprocessorCount := 1
  cudaRuntimeVersion := 12000
  tensorrtVersionMajor := 10
  tensorrtVersionMinor := 0
  tensorrtVersionPatch := 0

theorem soundCatalog_sampleEntry : SoundCatalog [sampleEntry] where
  sound entry hentry := by
    have htexts : ∀ text ∈ sampleEntry.texts, text ≠ "" ∧ IsByteText text := by decide
    have hcheck : checkEntry 0 sampleEntry = .ok () := rfl
    rw [List.mem_singleton.mp hentry]
    exact (checkEntry_eq_ok htexts).mp hcheck
  identities := List.nodup_singleton _
  filenames := List.nodup_singleton _

theorem appendCandidates_sampleEntry :
    ∃ document, fromJson document = .ok [sampleEntry] ∧
      (appendCandidates (fun _ => true) { codecId := "dcvcrt" } [sampleEntry]).run [] =
        (.ok (), [entryCandidate (fun _ => true) { codecId := "dcvcrt" } sampleEntry]) := by
  obtain ⟨document, hdocument⟩ := exists_fromJson_of_sound soundCatalog_sampleEntry
  exact ⟨document, hdocument,
    (appendCandidates_of_fromJson hdocument (fun _ => true) (by decide) []).1⟩

end Sample

end Candidates

end Nvcr.Artifacts
