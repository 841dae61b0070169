import Nvcr.CatalogDocuments
import Nvcr.ContextCache
import Nvcr.MlvcCanvasAgreement

/-!
# Loading the engine catalog

What `from_json` makes of a document: its entries pass the checks one by one, and no two of them
have the same identity or the same file name. Every list of such entries is that of a document.
-/

namespace Nvcr.Artifacts

open Json StatefulResults
open Mlvc (textBytes)
open Provider (byteText)

section Texts

/-- A text of byte-sized characters. -/
def IsByteText (text : String) : Prop := ∀ c ∈ text.toList, c.toNat < 256

theorem isByteText_byteText (bytes : Bytes) : IsByteText (byteText bytes) := by
  intro c hc
  rw [byteText, String.toList_ofList] at hc
  obtain ⟨byte, -, rfl⟩ := List.mem_map.mp hc
  have hlt : byte.toNat < 256 := byte.toNat_lt
  have hvalid : byte.toNat.isValidChar := .inl (hlt.trans (by decide))
  rw [Char.ofNat, dif_pos hvalid]
  exact hlt

/-- A text of byte-sized characters can be read back from its bytes. -/
theorem byteText_textBytes {text : String} (h : IsByteText text) :
    byteText (textBytes text) = text := Mlvc.identityText_textBytes h

theorem byteText_ne_empty {bytes : Bytes} (h : bytes ≠ []) : byteText bytes ≠ "" := by
  intro hempty
  have hlist := congrArg String.toList hempty
  rw [byteText, String.toList_ofList] at hlist
  exact h (List.map_eq_nil_iff.mp hlist)

theorem textBytes_ne_nil {text : String} (h : text ≠ "") : textBytes text ≠ [] := by
  intro hnil
  exact h (String.toList_inj.mp (List.map_eq_nil_iff.mp hnil))

end Texts

section Fields

variable (object : Value UInt64) (key context : String)

def member : Option (Value UInt64) :=
  match object with
  | .object members => members.lookup (textBytes key)
  | _ => none

def requiredString : Result String :=
  match member object key with
  | some (.string value) =>
      if value = [] then
        .error (catalogError (context ++ " requires non-empty string '" ++ key ++ "'"))
      else .ok (byteText value)
  | _ => .error (catalogError (context ++ " requires non-empty string '" ++ key ++ "'"))

def requiredInteger : Result UInt64 :=
  match member object key with
  | some (.number value) => .ok value
  | _ => .error (catalogError (context ++ " requires integer '" ++ key ++ "'"))

/-- `set_aliased_string`: a field may have its name of before. -/
def aliasedString (canonical legacy : String) : Result String := do
  require (¬ ((member object canonical).isSome ∧ (member object legacy).isSome))
    (catalogError (context ++ " must not contain both '" ++ canonical ++ "' and '" ++ legacy ++ "'"))
  requiredString object (if (member object canonical).isSome then canonical else legacy) context

/-- `set_integer`: an integer of 32 bits. -/
def setInteger : Result UInt32 := do
  let value ← requiredInteger object key context
  require (value.toNat < 2 ^ 32)
    (catalogError (context ++ " integer is out of range: " ++ key))
  .ok value.toUInt32

def parseCompatibility : Result HardwareCompatibility :=
  match member object "hardware_compatibility" with
  | none => .ok .exact
  | some (.string value) =>
      if byteText value = "exact" then .ok .exact
      else if byteText value = "same_compute_capability" then .ok .sameComputeCapability
      else if byteText value = "ampere_plus" then .ok .amperePlus
      else .error (catalogError (context ++ " has invalid hardware_compatibility"))
  | some _ => .error (catalogError (context ++ " hardware_compatibility must be a string"))

end Fields

section Entries

def isObject : Value UInt64 → Bool
  | .object _ => true
  | _ => false

/-- The fields of an entry in the order in which they are read. -/
def readEntry (value : Value UInt64) (context : String) : Result CatalogEntry := do
  let codecId ← aliasedString value context "codec_id" "backend"
  let modelProfileId ← requiredString value "model_profile_id" context
  let targetProfileId ← requiredString value "target_profile_id" context
  let engineProfileId ← aliasedString value context "engine_profile_id" "profile"
  let precision ← requiredString value "precision" context
  let operatingSystem ← requiredString value "operating_system" context
  let architecture ← requiredString value "architecture" context
  let deviceName ← requiredString value "device_name" context
  let filename ← requiredString value "filename" context
  let sha256 ← requiredString value "sha256" context
  let sizeBytes ← requiredInteger value "size_bytes" context
  let computeCapabilityMajor ← setInteger value "compute_capability_major" context
  let computeCapabilityMinor ← setInteger value "compute_capability_minor" context
  let multiprocessorCount ← setInteger value "multiprocessor_count" context
  let cudaRuntimeVersion ← setInteger value "cuda_runtime_version" context
  let tensorrtVersionMajor ← setInteger value "tensorrt_version_major" context
  let tensorrtVersionMinor ← setInteger value "tensorrt_version_minor" context
  let tensorrtVersionPatch ← setInteger value "tensorrt_version_patch" context
  let hardwareCompatibility ← parseCompatibility value context
  .ok {
    codecId, modelProfileId, targetProfileId, engineProfileId, precision, operatingSystem,
    architecture, deviceName, filename, sizeBytes, sha256, computeCapabilityMajor,
    computeCapabilityMinor, multiprocessorCount, cudaRuntimeVersion, tensorrtVersionMajor,
    tensorrtVersionMinor, tensorrtVersionPatch, hardwareCompatibility }

def parseEntry (value : Value UInt64) (index : ℕ) : Result CatalogEntry := do
  let context := "catalog asset " ++ toString index
  require (isObject value) (catalogError (context ++ " must be an object"))
  let entry ← readEntry value context
  checkEntry index entry
  .ok entry

end Entries

section Catalogs

def catalogSchema : String := "nvcr.engine-catalog.v1"

def HardwareCompatibility.number : HardwareCompatibility → ℕ
  | .exact => 0
  | .sameComputeCapability => 1
  | .amperePlus => 2

/-- The text by which `from_json` tells entries apart. -/
def identityText (entry : CatalogEntry) : String :=
  entry.codecId ++ "\x1f" ++ entry.modelProfileId ++ "\x1f" ++ entry.targetProfileId ++ "\x1f" ++
    entry.engineProfileId ++ "\x1f" ++ toString entry.hardwareCompatibility.number

/-- Both sets of the loop have what was stored so far. -/
def storeEntry (entries : List CatalogEntry) (entry : CatalogEntry) :
    Result (List CatalogEntry) := do
  require (identityText entry ∉ entries.map identityText)
    (catalogError "catalog contains duplicate asset identity")
  require (entry.filename ∉ entries.map CatalogEntry.filename)
    (catalogError "catalog contains duplicate asset filename")
  .ok (entries ++ [entry])

def loadEntries : List (Value UInt64) → ℕ → List CatalogEntry → Result (List CatalogEntry)
  | [], _, entries => .ok entries
  | value :: values, index, entries => do
      let entry ← parseEntry value index
      let entries ← storeEntry entries entry
      loadEntries values (index + 1) entries

def fromJson (document : Bytes) : Result (List CatalogEntry) := do
  let root ← parseJson document
  let schema ← requiredString root "schema" "catalog"
  require (schema = catalogSchema)
    (catalogError ("catalog must use schema " ++ catalogSchema))
  match member root "assets" with
  | some (.array assets) => loadEntries assets 0 []
  | _ => .error (catalogError "catalog requires an assets array")

end Catalogs

section Soundness

/-- The texts of an entry. -/
def CatalogEntry.texts (entry : CatalogEntry) : List String :=
  [entry.codecId, entry.modelProfileId, entry.targetProfileId, entry.engineProfileId,
    entry.precision, entry.operatingSystem, entry.architecture, entry.deviceName, entry.filename,
    entry.sha256]

/-- What an entry of the catalog is known to satisfy. -/
structure SoundEntry (entry : CatalogEntry) : Prop where
  texts : ∀ text ∈ entry.texts, text ≠ "" ∧ IsByteText text
  identifiers : safeIdentifier entry.codecId ∧ safeIdentifier entry.modelProfileId ∧
    safeIdentifier entry.targetProfileId ∧ safeIdentifier entry.engineProfileId
  profile : entry.engineProfileId ∈ engineProfiles
  precision : entry.precision = "fp16"
  platform : entry.operatingSystem = "linux" ∧
    (entry.architecture = "x86_64" ∨ entry.architecture = "aarch64")
  exact_on_arm : entry.architecture = "aarch64" → entry.hardwareCompatibility = .exact
  positive : entry.sizeBytes ≠ 0 ∧ entry.computeCapabilityMajor ≠ 0 ∧
    entry.multiprocessorCount ≠ 0 ∧ entry.cudaRuntimeVersion ≠ 0 ∧ entry.tensorrtVersionMajor ≠ 0
  digest : validHexDigest entry.sha256
  filename : entry.filename = expectedFilename entry

/-- What tells two entries apart. -/
def CatalogEntry.identity (entry : CatalogEntry) :
    String × String × String × String × HardwareCompatibility :=
  (entry.codecId, entry.modelProfileId, entry.targetProfileId, entry.engineProfileId,
    entry.hardwareCompatibility)

/-- Sound entries, of which no two have one identity or one file name. -/
structure SoundCatalog (entries : List CatalogEntry) : Prop where
  sound : ∀ entry ∈ entries, SoundEntry entry
  identities : (entries.map CatalogEntry.identity).Nodup
  filenames : (entries.map CatalogEntry.filename).Nodup

variable {object value : Value UInt64} {key context text : String} {index : ℕ}
  {entry other : CatalogEntry} {entries final : List CatalogEntry}

theorem requiredString_eq_ok (h : requiredString object key context = .ok text) :
    text ≠ "" ∧ IsByteText text := by
  rw [requiredString] at h
  split at h
  · split at h
    · cases h
    · rename_i hne
      cases h
      exact ⟨byteText_ne_empty hne, isByteText_byteText _⟩
  · cases h

theorem aliasedString_eq_ok {canonical legacy : String}
    (h : aliasedString object context canonical legacy = .ok text) :
    text ≠ "" ∧ IsByteText text := by
  obtain ⟨_, _, h⟩ := bind_eq_ok.mp h
  exact requiredString_eq_ok h

theorem readEntry_eq_ok (h : readEntry value context = .ok entry) :
    ∀ text ∈ entry.texts, text ≠ "" ∧ IsByteText text := by
  obtain ⟨_, hcodec, h⟩ := bind_eq_ok.mp h
  obtain ⟨_, hmodel, h⟩ := bind_eq_ok.mp h
  obtain ⟨_, htarget, h⟩ := bind_eq_ok.mp h
  obtain ⟨_, hprofile, h⟩ := bind_eq_ok.mp h
  obtain ⟨_, hprecision, h⟩ := bind_eq_ok.mp h
  obtain ⟨_, hsystem, h⟩ := bind_eq_ok.mp h
  obtain ⟨_, harchitecture, h⟩ := bind_eq_ok.mp h
  obtain ⟨_, hdevice, h⟩ := bind_eq_ok.mp h
  obtain ⟨_, hfilename, h⟩ := bind_eq_ok.mp h
  obtain ⟨_, hsha256, h⟩ := bind_eq_ok.mp h
  obtain ⟨_, _, h⟩ := bind_eq_ok.mp h
  obtain ⟨_, _, h⟩ := bind_eq_ok.mp h
  obtain ⟨_, _, h⟩ := bind_eq_ok.mp h
  obtain ⟨_, _, h⟩ := bind_eq_ok.mp h
  obtain ⟨_, _, h⟩ := bind_eq_ok.mp h
  obtain ⟨_, _, h⟩ := bind_eq_ok.mp h
  obtain ⟨_, _, h⟩ := bind_eq_ok.mp h
  obtain ⟨_, _, h⟩ := bind_eq_ok.mp h
  obtain ⟨_, _, h⟩ := bind_eq_ok.mp h
  cases h
  simp only [CatalogEntry.texts, List.forall_mem_cons]
  exact ⟨aliasedString_eq_ok hcodec, requiredString_eq_ok hmodel, requiredString_eq_ok htarget,
    aliasedString_eq_ok hprofile, requiredString_eq_ok hprecision, requiredString_eq_ok hsystem,
    requiredString_eq_ok harchitecture, requiredString_eq_ok hdevice,
    requiredString_eq_ok hfilename, requiredString_eq_ok hsha256,
    fun _ hnone => absurd hnone List.not_mem_nil⟩

/-- The checks of an entry pass exactly where it is sound. -/
theorem checkEntry_eq_ok (htexts : ∀ text ∈ entry.texts, text ≠ "" ∧ IsByteText text) :
    checkEntry index entry = .ok () ↔ SoundEntry entry := by
  constructor
  · intro h
    obtain ⟨_, hidentifiers, h⟩ := bind_eq_ok.mp h
    obtain ⟨_, hprofile, h⟩ := bind_eq_ok.mp h
    obtain ⟨_, hprecision, h⟩ := bind_eq_ok.mp h
    obtain ⟨_, hplatform, h⟩ := bind_eq_ok.mp h
    obtain ⟨_, harm, h⟩ := bind_eq_ok.mp h
    obtain ⟨_, hpositive, h⟩ := bind_eq_ok.mp h
    have hvalues := require_eq_ok.mp hpositive
    simp only [not_or, not_not] at hvalues
    exact {
      texts := htexts
      identifiers := require_eq_ok.mp hidentifiers
      profile := require_eq_ok.mp hprofile
      precision := require_eq_ok.mp hprecision
      platform := require_eq_ok.mp hplatform
      exact_on_arm := fun hmachine =>
        by_contra fun hne => require_eq_ok.mp harm ⟨hmachine, hne⟩
      positive := ⟨hvalues.1, hvalues.2.1, hvalues.2.2.1, hvalues.2.2.2.1, hvalues.2.2.2.2.1⟩
      digest := hvalues.2.2.2.2.2
      filename := require_eq_ok.mp h }
  · intro h
    obtain ⟨hsize, hmajor, hcount, hcuda, htensorrt⟩ := h.positive
    have harm : ¬ (entry.architecture = "aarch64" ∧ entry.hardwareCompatibility ≠ .exact) :=
      fun hand => hand.2 (h.exact_on_arm hand.1)
    have hvalues : ¬ (entry.sizeBytes = 0 ∨ entry.computeCapabilityMajor = 0 ∨
        entry.multiprocessorCount = 0 ∨ entry.cudaRuntimeVersion = 0 ∨
        entry.tensorrtVersionMajor = 0 ∨ ¬ validHexDigest entry.sha256) := by
      simp only [not_or, not_not]
      exact ⟨hsize, hmajor, hcount, hcuda, htensorrt, h.digest⟩
    rw [checkEntry, require, if_pos h.identifiers, ok_bind, require, if_pos h.profile, ok_bind,
      require, if_pos h.precision, ok_bind, require, if_pos h.platform, ok_bind, require,
      if_pos harm, ok_bind, require, if_pos hvalues, ok_bind, require, if_pos h.filename]

theorem parseEntry_sound (h : parseEntry value index = .ok entry) : SoundEntry entry := by
  obtain ⟨_, _, h⟩ := bind_eq_ok.mp h
  obtain ⟨_, hread, h⟩ := bind_eq_ok.mp h
  obtain ⟨_, hcheck, h⟩ := bind_eq_ok.mp h
  cases h
  exact (checkEntry_eq_ok (readEntry_eq_ok hread)).mp hcheck

/-- Identifiers have no separator in them. -/
theorem separator_not_mem (h : safeIdentifier text = true) : '\x1f' ∉ text.toList := by
  intro hmem
  rw [safeIdentifier, Bool.and_eq_true] at h
  exact absurd (List.all_eq_true.mp h.2 _ hmem) (by decide)

theorem number_injective : Function.Injective HardwareCompatibility.number := by
  intro first second h
  cases first <;> cases second <;> first | rfl | cases h

/-- The texts of two entries are the same only for the same identity. -/
theorem identityText_inj (hentry : SoundEntry entry) (hother : SoundEntry other) :
    identityText entry = identityText other ↔ entry.identity = other.identity := by
  obtain ⟨hcodec, hmodel, htarget, hprofile⟩ := hentry.identifiers
  obtain ⟨hcodec', hmodel', htarget', hprofile'⟩ := hother.identifiers
  have htext (entry : CatalogEntry) : (identityText entry).toList =
      entry.codecId.toList ++ '\x1f' :: (entry.modelProfileId.toList ++ '\x1f' ::
        (entry.targetProfileId.toList ++ '\x1f' :: (entry.engineProfileId.toList ++ '\x1f' ::
          (toString entry.hardwareCompatibility.number).toList))) := by
    simp [identityText]
  rw [← String.toList_inj, htext, htext,
    DecimalTexts.append_separator_inj (separator_not_mem hcodec) (separator_not_mem hcodec'),
    DecimalTexts.append_separator_inj (separator_not_mem hmodel) (separator_not_mem hmodel'),
    DecimalTexts.append_separator_inj (separator_not_mem htarget) (separator_not_mem htarget'),
    DecimalTexts.append_separator_inj (separator_not_mem hprofile) (separator_not_mem hprofile'),
    String.toList_inj, String.toList_inj, String.toList_inj, String.toList_inj, String.toList_inj]
  simp only [CatalogEntry.identity, Prod.mk.injEq]
  have hnumber : toString entry.hardwareCompatibility.number =
      toString other.hardwareCompatibility.number ↔
        entry.hardwareCompatibility = other.hardwareCompatibility :=
    DecimalTexts.repr_inj.trans number_injective.eq_iff
  rw [hnumber]

/-- An entry is stored exactly when the catalog stays sound. -/
theorem storeEntry_eq_ok (hentries : SoundCatalog entries) (hentry : SoundEntry entry) :
    storeEntry entries entry = .ok final ↔
      final = entries ++ [entry] ∧ SoundCatalog (entries ++ [entry]) := by
  have hidentity : identityText entry ∉ entries.map identityText ↔
      entry.identity ∉ entries.map CatalogEntry.identity := by
    simp only [List.mem_map, not_exists, not_and]
    exact forall₂_congr fun other hother =>
      not_congr (identityText_inj (hentries.sound other hother) hentry)
  have hsound : SoundCatalog (entries ++ [entry]) ↔
      entry.identity ∉ entries.map CatalogEntry.identity ∧
        entry.filename ∉ entries.map CatalogEntry.filename := by
    constructor
    · intro h
      have hidentities := h.identities
      have hfilenames := h.filenames
      rw [List.map_append] at hidentities hfilenames
      refine ⟨fun hmem => ?_, fun hmem => ?_⟩
      · exact List.disjoint_of_nodup_append hidentities hmem (List.mem_singleton_self _)
      · exact List.disjoint_of_nodup_append hfilenames hmem (List.mem_singleton_self _)
    · rintro ⟨hfresh, hunused⟩
      refine ⟨fun other hother => ?_, ?_, ?_⟩
      · rcases List.mem_append.mp hother with hmem | hmem
        · exact hentries.sound other hmem
        · exact List.mem_singleton.mp hmem ▸ hentry
      · rw [List.map_append]
        exact hentries.identities.append (List.nodup_singleton _)
          (List.disjoint_singleton.mpr hfresh)
      · rw [List.map_append]
        exact hentries.filenames.append (List.nodup_singleton _)
          (List.disjoint_singleton.mpr hunused)
  rw [hsound, ← hidentity]
  constructor
  · intro h
    obtain ⟨_, hfresh, h⟩ := bind_eq_ok.mp h
    obtain ⟨_, hunused, h⟩ := bind_eq_ok.mp h
    cases h
    exact ⟨rfl, require_eq_ok.mp hfresh, require_eq_ok.mp hunused⟩
  · rintro ⟨rfl, hfresh, hunused⟩
    rw [storeEntry, require, if_pos hfresh, ok_bind, require, if_pos hunused, ok_bind]

/-- The loop keeps the catalog sound. -/
theorem loadEntries_sound {values : List (Value UInt64)} (hentries : SoundCatalog entries)
    (h : loadEntries values index entries = .ok final) : SoundCatalog final := by
  induction values generalizing index entries with
  | nil =>
      cases h
      exact hentries
  | cons value values ih =>
      obtain ⟨entry, hentry, h⟩ := bind_eq_ok.mp h
      obtain ⟨stored, hstored, h⟩ := bind_eq_ok.mp h
      obtain ⟨rfl, hsound⟩ := (storeEntry_eq_ok hentries (parseEntry_sound hentry)).mp hstored
      exact ih hsound h

theorem soundCatalog_nil : SoundCatalog [] :=
  ⟨fun _ hnone => absurd hnone List.not_mem_nil, List.nodup_nil, List.nodup_nil⟩

/-- Entries of a document are sound. -/
theorem fromJson_sound {document : Bytes} (h : fromJson document = .ok entries) :
    SoundCatalog entries := by
  obtain ⟨root, _, h⟩ := bind_eq_ok.mp h
  obtain ⟨schema, _, h⟩ := bind_eq_ok.mp h
  obtain ⟨_, _, h⟩ := bind_eq_ok.mp h
  split at h
  · exact loadEntries_sound soundCatalog_nil h
  · cases h

end Soundness

end Nvcr.Artifacts
