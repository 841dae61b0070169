import Nvcr.ArtifactResolver
import Nvcr.StatefulResults

/-!
# Catalog entries

Entries of the engine catalog, the checks that the installer and the runtime library make of one,
and the candidates that the library makes from them.
-/

namespace Nvcr.Artifacts

open StatefulResults

structure CatalogEntry where
  codecId : String
  modelProfileId : String
  targetProfileId : String
  engineProfileId : String
  precision : String
  operatingSystem : String
  architecture : String
  deviceName : String
  filename : String
  sizeBytes : UInt64
  sha256 : String
  computeCapabilityMajor : UInt32
  computeCapabilityMinor : UInt32
  multiprocessorCount : UInt32
  cudaRuntimeVersion : UInt32
  tensorrtVersionMajor : UInt32
  tensorrtVersionMinor : UInt32
  tensorrtVersionPatch : UInt32
  hardwareCompatibility : HardwareCompatibility := .exact
  deriving DecidableEq, Repr

/-- What the device detection reports about a host. -/
structure DeviceIdentity where
  operatingSystem : String := "linux"
  architecture : String
  deviceName : String
  computeCapabilityMajor : ℕ
  computeCapabilityMinor : ℕ
  multiprocessorCount : ℕ
  cudaRuntimeVersion : ℕ
  tensorrtVersionMajor : ℕ
  tensorrtVersionMinor : ℕ
  tensorrtVersionPatch : ℕ
  operatingSystem_eq : operatingSystem = "linux"
  architecture_mem : architecture = "x86_64" ∨ architecture = "aarch64"
  deriving DecidableEq

section Identifiers

/-- A letter, a digit, or one of `.`, `_` and `-`. -/
def identifierCharacter (c : Char) : Bool :=
  c.isAlphanum || c == '.' || c == '_' || c == '-'

def lowerHexDigit (c : Char) : Bool :=
  c.isDigit || ('a' ≤ c && c ≤ 'f')

/-- `SAFE_IDENTIFIER` of the installer. -/
def matchesSafeIdentifier (value : String) : Bool :=
  !value.isEmpty && value.toList.all identifierCharacter

/-- `safe_identifier` of the library, which also bounds the length. -/
def safeIdentifier (value : String) : Bool :=
  !value.isEmpty && value.toList.length ≤ 128 && value.toList.all identifierCharacter

def validHexDigest (value : String) : Bool :=
  value.toList.length == 64 && value.toList.all lowerHexDigit

end Identifiers

section Installer

def engineProfiles : List String := ["qcif", "cif", "360p", "540p", "720p", "1080p"]

def backendProfiles : List (String × List String) :=
  [("dcvcrt", engineProfiles), ("mlvc", ["s-perceptual", "perceptual", "psnr"])]

def profilesOf (backend : String) : List String := (backendProfiles.lookup backend).getD []

/-- The text without an ending `-fp16`. -/
def withoutPrecision (value : String) : String :=
  if "-fp16".toList.isSuffixOf value.toList then
    String.ofList (value.toList.take (value.toList.length - 5))
  else value

def canonicalProfileName (value backend : String) : Except String String :=
  let profile := withoutPrecision value
  if profile ∈ profilesOf backend then .ok profile
  else .error ("unsupported " ++ backend ++ " engine profile: " ++ value ++
    "; expected one of " ++ ", ".intercalate (profilesOf backend))

def publicArchitecture (architecture : String) : String :=
  if architecture == "x86_64" then "amd64"
  else if architecture == "aarch64" then "arm64"
  else architecture

def expectedAssetFilename (target model profile : String) (compatibility : HardwareCompatibility)
    (architecture : String) (major minor : ℕ) : String :=
  let target :=
    match compatibility with
    | .sameComputeCapability =>
        "linux-" ++ publicArchitecture architecture ++ "-sm" ++ toString major ++ toString minor
    | .amperePlus => "linux-" ++ publicArchitecture architecture ++ "-ampere-plus"
    | .exact => target
  "nvcr-engines-" ++ target ++ "-" ++ model ++ "-" ++ profile ++ ".tar.gz"

/-- The checks of `validate_catalog` on the fields of one entry. -/
def validateEntry (source : String) (index : ℕ) (entry : CatalogEntry) : Except String Unit := do
  let context := source ++ " asset " ++ toString index
  [("backend", entry.codecId), ("model_profile_id", entry.modelProfileId),
    ("target_profile_id", entry.targetProfileId), ("profile", entry.engineProfileId),
    ("precision", entry.precision), ("operating_system", entry.operatingSystem),
    ("architecture", entry.architecture), ("device_name", entry.deviceName),
    ("filename", entry.filename), ("sha256", entry.sha256)].forM fun field =>
      require (field.2 ≠ "") (context ++ " requires string " ++ field.1)
  require (¬ (entry.architecture = "aarch64" ∧ entry.hardwareCompatibility ≠ .exact))
    (context ++ " uses hardware compatibility on Jetson/AArch64")
  [("backend", entry.codecId), ("model_profile_id", entry.modelProfileId),
    ("target_profile_id", entry.targetProfileId)].forM fun field =>
      require (matchesSafeIdentifier field.2) (context ++ " has unsafe " ++ field.1)
  require (entry.codecId ∈ backendProfiles.map Prod.fst) (context ++ " has an unsupported backend")
  let profile ← canonicalProfileName entry.engineProfileId entry.codecId
  require (entry.engineProfileId = profile)
    (context ++ " must use canonical profile " ++ profile)
  require (entry.precision = "fp16") (context ++ " must use internal FP16 precision")
  require (entry.operatingSystem = "linux" ∧
      (entry.architecture = "x86_64" ∨ entry.architecture = "aarch64"))
    (context ++ " has an unsupported platform")
  let expectedName := expectedAssetFilename entry.targetProfileId entry.modelProfileId profile
    entry.hardwareCompatibility entry.architecture entry.computeCapabilityMajor.toNat
    entry.computeCapabilityMinor.toNat
  require (entry.filename = expectedName)
    (context ++ " filename does not match its identity; expected " ++ expectedName)
  require (validHexDigest entry.sha256 ∧ 0 < entry.sizeBytes ∧ 0 < entry.computeCapabilityMajor ∧
      0 < entry.multiprocessorCount ∧ 0 < entry.cudaRuntimeVersion ∧
      0 < entry.tensorrtVersionMajor)
    (context ++ " has invalid hash, size, or runtime data")

def cudaRuntimeMajor (version : ℕ) : ℕ := version / 1000

/-- `cuda_runtime_compatible` of the installer. -/
def engineRuntimeCompatible (entry : CatalogEntry) (identity : DeviceIdentity) : Bool :=
  if entry.architecture != "x86_64" then
    entry.cudaRuntimeVersion.toNat == identity.cudaRuntimeVersion
  else
    cudaRuntimeMajor entry.cudaRuntimeVersion.toNat ==
        cudaRuntimeMajor identity.cudaRuntimeVersion &&
      entry.cudaRuntimeVersion.toNat ≤ identity.cudaRuntimeVersion

def catalogEntryMatchRank (entry : CatalogEntry) (identity : DeviceIdentity) : Option ℕ :=
  if !(entry.operatingSystem == identity.operatingSystem &&
      entry.architecture == identity.architecture &&
      entry.tensorrtVersionMajor.toNat == identity.tensorrtVersionMajor &&
      entry.tensorrtVersionMinor.toNat == identity.tensorrtVersionMinor &&
      entry.tensorrtVersionPatch.toNat == identity.tensorrtVersionPatch) then none
  else if !engineRuntimeCompatible entry identity then none
  else if entry.hardwareCompatibility = .exact then
    if entry.deviceName == identity.deviceName &&
        entry.computeCapabilityMajor.toNat == identity.computeCapabilityMajor &&
        entry.computeCapabilityMinor.toNat == identity.computeCapabilityMinor &&
        entry.multiprocessorCount.toNat == identity.multiprocessorCount then some 0
    else none
  else if entry.architecture != "x86_64" then none
  else if entry.hardwareCompatibility = .sameComputeCapability then
    if entry.computeCapabilityMajor.toNat == identity.computeCapabilityMajor &&
        entry.computeCapabilityMinor.toNat == identity.computeCapabilityMinor then some 1
    else none
  else if 8 ≤ identity.computeCapabilityMajor then some 2
  else none

end Installer

section Library

def catalogError (message : String) : Error := ⟨.invalidArgument, message, "artifact-catalog"⟩

def expectedFilename (entry : CatalogEntry) : String :=
  let architecture := if entry.architecture == "x86_64" then "amd64" else "arm64"
  let target :=
    match entry.hardwareCompatibility with
    | .sameComputeCapability =>
        "linux-" ++ architecture ++ "-sm" ++ toString entry.computeCapabilityMajor.toNat ++
          toString entry.computeCapabilityMinor.toNat
    | .amperePlus => "linux-" ++ architecture ++ "-ampere-plus"
    | .exact => entry.targetProfileId
  "nvcr-engines-" ++ target ++ "-" ++ entry.modelProfileId ++ "-" ++ entry.engineProfileId ++
    ".tar.gz"

/-- The checks of `parse_entry` once the fields have been read. -/
def checkEntry (index : ℕ) (entry : CatalogEntry) : Result Unit := do
  let context := "catalog asset " ++ toString index
  require (safeIdentifier entry.codecId ∧ safeIdentifier entry.modelProfileId ∧
      safeIdentifier entry.targetProfileId ∧ safeIdentifier entry.engineProfileId)
    (catalogError (context ++ " has an unsafe identity field"))
  require (entry.engineProfileId ∈ engineProfiles)
    (catalogError (context ++ " has an unsupported profile"))
  require (entry.precision = "fp16") (catalogError (context ++ " precision must be fp16"))
  require (entry.operatingSystem = "linux" ∧
      (entry.architecture = "x86_64" ∨ entry.architecture = "aarch64"))
    (catalogError (context ++ " has an unsupported platform"))
  require (¬ (entry.architecture = "aarch64" ∧ entry.hardwareCompatibility ≠ .exact))
    (catalogError (context ++ " uses compatibility mode on AArch64"))
  require (¬ (entry.sizeBytes = 0 ∨ entry.computeCapabilityMajor = 0 ∨
      entry.multiprocessorCount = 0 ∨ entry.cudaRuntimeVersion = 0 ∨
      entry.tensorrtVersionMajor = 0 ∨ ¬ validHexDigest entry.sha256))
    (catalogError (context ++ " has invalid size, runtime, capability, or digest data"))
  require (entry.filename = expectedFilename entry)
    (catalogError (context ++ " filename does not match its identity"))

structure CatalogLoadOptions where
  codecId : String := ""
  providerId : String := "tensorrt"
  componentId : String := "engine-bundle"
  artifactRoot : String := ""
  markLicenseRestricted : Bool := true
  deriving DecidableEq, Repr

def hexValue (c : Char) : ℕ := if c.isDigit then c.toNat - '0'.toNat else c.toNat - 'a'.toNat + 10

def hexBytes : List Char → Bytes
  | high :: low :: rest => UInt8.ofNat (16 * hexValue high + hexValue low) :: hexBytes rest
  | _ => []

def decodeDigest (value : String) : Result Bytes :=
  if validHexDigest value then .ok (hexBytes value.toList)
  else .error (catalogError "catalog SHA-256 digest is invalid")

/-- A file name below a directory. -/
def joinPath (root name : String) : String :=
  if root.toList.getLast? == some '/' then root ++ name else root ++ "/" ++ name

def candidateOf (isRegularFile : String → Bool) (options : CatalogLoadOptions)
    (entry : CatalogEntry) (digest : Bytes) : ArtifactCandidate where
  artifact :=
    { codecId := options.codecId
      modelSetId := entry.modelProfileId
      componentId := options.componentId
      engineProfileId := entry.engineProfileId
      providerId := options.providerId
      precision := entry.precision
      expectedDigest := digest
      path := if options.artifactRoot.isEmpty then entry.filename
        else joinPath options.artifactRoot entry.filename }
  targetProfileId := entry.targetProfileId
  targetDevice := entry.deviceName
  computeCapability := toString entry.computeCapabilityMajor.toNat ++ "." ++
    toString entry.computeCapabilityMinor.toNat
  operatingSystem := entry.operatingSystem
  architecture := entry.architecture
  runtimeVersion := toString entry.tensorrtVersionMajor.toNat ++ "." ++
    toString entry.tensorrtVersionMinor.toNat ++ "." ++ toString entry.tensorrtVersionPatch.toNat
  cudaRuntimeVersion := entry.cudaRuntimeVersion.toNat
  hardwareCompatibility := entry.hardwareCompatibility
  digest := digest
  available := !options.artifactRoot.isEmpty &&
    isRegularFile (joinPath options.artifactRoot entry.filename)
  licenseRestricted := options.markLicenseRestricted

/-- The resolver's candidates are extended entry by entry. -/
def appendCandidates (isRegularFile : String → Bool) (options : CatalogLoadOptions)
    (entries : List CatalogEntry) : Action Error (List ArtifactCandidate) Unit := do
  Action.lift (require (¬ (options.codecId.isEmpty ∨ options.providerId.isEmpty ∨
      options.componentId.isEmpty))
    (catalogError "catalog candidate conversion requires codec_id, provider_id, and component_id"))
  entries.forM fun entry => do
    let digest ← Action.lift (decodeDigest entry.sha256)
    Action.update fun candidates =>
      candidates ++ [candidateOf isRegularFile options entry digest]

end Library

end Nvcr.Artifacts
