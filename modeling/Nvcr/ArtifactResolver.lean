import Nvcr.Frames
import Nvcr.BestCandidates
import Mathlib.Data.String.Basic
import Mathlib.Tactic

/-!
# Artifact resolution

Candidates, requests and the resolver: one pass filters the candidates and remembers why
the others were turned away, and the best of the remaining ones is returned.

A string is the sequence of its bytes, each read as one character.
-/

namespace Nvcr.Artifacts

structure CodecApiVersion where
  major : Nat
  deriving DecidableEq, Repr

structure ProviderApiVersion where
  major : Nat
  deriving DecidableEq, Repr

structure ModelSetVersion where
  major : Nat
  minor : Nat
  deriving DecidableEq, Repr

structure ManifestSchemaVersion where
  major : Nat
  minor : Nat
  deriving DecidableEq, Repr

inductive HardwareCompatibility where
  | exact
  | sameComputeCapability
  | amperePlus
  deriving DecidableEq, Repr

structure ArtifactDescriptor where
  codecId : String := ""
  modelSetId : String := ""
  componentId : String := ""
  engineProfileId : String := ""
  providerId : String := ""
  precision : String := ""
  path : String := ""
  expectedDigest : Bytes := []
  codecApiVersion : CodecApiVersion := ⟨1⟩
  providerApiVersion : ProviderApiVersion := ⟨1⟩
  modelSetVersion : ModelSetVersion := ⟨1, 0⟩
  manifestSchemaVersion : ManifestSchemaVersion := ⟨2, 0⟩
  deriving DecidableEq, Repr

structure ArtifactCandidate where
  artifact : ArtifactDescriptor := {}
  targetProfileId : String := ""
  targetDevice : String := ""
  computeCapability : String := ""
  operatingSystem : String := ""
  architecture : String := ""
  runtimeVersion : String := ""
  cudaRuntimeVersion : Nat := 0
  hardwareCompatibility : HardwareCompatibility := .exact
  digest : Bytes := []
  available : Bool := true
  licenseRestricted : Bool := false
  deriving DecidableEq, Repr

structure ArtifactRequest where
  codecId : String := ""
  modelSetId : String := ""
  componentId : String := ""
  engineProfileId : String := ""
  providerId : String := ""
  providerPreference : List String := []
  targetProfileId : String := ""
  targetDevice : String := ""
  computeCapability : String := ""
  operatingSystem : String := ""
  architecture : String := ""
  runtimeVersion : String := ""
  cudaRuntimeVersion : Nat := 0
  precision : String := ""
  codecApiVersion : CodecApiVersion := ⟨1⟩
  providerApiVersion : ProviderApiVersion := ⟨1⟩
  modelSetVersion : ModelSetVersion := ⟨1, 0⟩
  manifestSchemaVersion : ManifestSchemaVersion := ⟨2, 0⟩
  expectedDigest : Bytes := []
  allowLicenseRestricted : Bool := false
  deriving DecidableEq, Repr

structure ResolvedArtifact where
  candidate : ArtifactCandidate
  providerPreferenceRank : Nat
  targetMatchRank : Nat
  deriving DecidableEq, Repr

def resolutionError (code : ErrorCode) (message : String) : Error :=
  ⟨code, message, "artifact-resolver"⟩

section Compatibility

def CodecApiVersion.compatible (candidate requested : CodecApiVersion) : Bool :=
  candidate.major == requested.major

def ProviderApiVersion.compatible (candidate requested : ProviderApiVersion) : Bool :=
  candidate.major == requested.major

def ModelSetVersion.compatible (candidate requested : ModelSetVersion) : Bool :=
  candidate.major == requested.major && requested.minor ≤ candidate.minor

def ManifestSchemaVersion.compatible (candidate requested : ManifestSchemaVersion) : Bool :=
  candidate.major == requested.major && requested.minor ≤ candidate.minor

/-- The value of decimal digits, as `from_chars` reads a run of them. -/
def decimalValue (digits : List Char) : Nat :=
  digits.foldl (fun value digit => 10 * value + (digit.toNat - '0'.toNat)) 0

/-- `from_chars` into an `int`, where the whole text has to be a number in range. -/
def fromCharsInt (text : List Char) : Option Int :=
  let negative := text.head? == some '-'
  let digits := if negative then text.tail else text
  if digits.isEmpty || !digits.all Char.isDigit then none
  else if negative then
    if decimalValue digits ≤ 2 ^ 31 then some (-(decimalValue digits : Int)) else none
  else if decimalValue digits < 2 ^ 31 then some (decimalValue digits) else none

def computeMajor (value : String) : Int :=
  if value.isEmpty then -1
  else (fromCharsInt (value.toList.takeWhile (· != '.'))).getD (-1)

def cudaMajor (version : Nat) : Nat := version / 1000

def cudaRuntimeCompatible (candidate : ArtifactCandidate) (request : ArtifactRequest) : Bool :=
  if candidate.cudaRuntimeVersion == 0 || request.cudaRuntimeVersion == 0 then true
  else if candidate.architecture == "x86_64" || request.architecture == "x86_64" then
    cudaMajor candidate.cudaRuntimeVersion == cudaMajor request.cudaRuntimeVersion &&
      candidate.cudaRuntimeVersion ≤ request.cudaRuntimeVersion
  else candidate.cudaRuntimeVersion == request.cudaRuntimeVersion

/-- The place of the candidate's provider among the preferred ones, behind all of them
for a provider that is not listed. -/
def preferenceRank (candidate : ArtifactCandidate) (request : ArtifactRequest) : Nat :=
  request.providerPreference.findIdx (· == candidate.artifact.providerId)

/-- The largest value of the rank's type marks a candidate for another target. -/
def unmatchedRank : Nat := 255

def targetMatchRank (candidate : ArtifactCandidate) (request : ArtifactRequest) : Nat :=
  if !request.targetProfileId.isEmpty &&
      candidate.targetProfileId == request.targetProfileId then 0
  else
    match candidate.hardwareCompatibility with
    | .exact =>
        if !request.targetDevice.isEmpty && candidate.targetDevice == request.targetDevice &&
            (request.computeCapability.isEmpty ||
              candidate.computeCapability == request.computeCapability) then 0
        else unmatchedRank
    | .sameComputeCapability =>
        if !request.computeCapability.isEmpty &&
            candidate.computeCapability == request.computeCapability then 1
        else unmatchedRank
    | .amperePlus =>
        if 8 ≤ computeMajor candidate.computeCapability &&
            computeMajor candidate.computeCapability ≤ computeMajor request.computeCapability
        then 2
        else unmatchedRank

def sameIdentity (candidate : ArtifactCandidate) (request : ArtifactRequest) : Bool :=
  candidate.artifact.codecId == request.codecId &&
    candidate.artifact.modelSetId == request.modelSetId &&
    candidate.artifact.componentId == request.componentId &&
    candidate.artifact.engineProfileId == request.engineProfileId

def sameProvider (candidate : ArtifactCandidate) (request : ArtifactRequest) : Bool :=
  request.providerId.isEmpty || candidate.artifact.providerId == request.providerId

end Compatibility

section Selection

/-- What the pass does with one candidate. -/
inductive Verdict where
  | skipped
  | versionMismatch
  | precisionMismatch
  | targetMismatch
  | runtimeMismatch
  | licenseRestriction
  | digestMismatch
  | unavailable
  | matched (artifact : ResolvedArtifact)
  deriving DecidableEq, Repr

def verdict (request : ArtifactRequest) (candidate : ArtifactCandidate) : Verdict :=
  if !sameIdentity candidate request || !sameProvider candidate request then .skipped
  else if !candidate.artifact.codecApiVersion.compatible request.codecApiVersion ||
      !candidate.artifact.providerApiVersion.compatible request.providerApiVersion ||
      !candidate.artifact.modelSetVersion.compatible request.modelSetVersion ||
      !candidate.artifact.manifestSchemaVersion.compatible request.manifestSchemaVersion then
    .versionMismatch
  else if candidate.artifact.precision != request.precision then .precisionMismatch
  else if targetMatchRank candidate request == unmatchedRank then .targetMismatch
  else if (!request.operatingSystem.isEmpty &&
        candidate.operatingSystem != request.operatingSystem) ||
      (!request.architecture.isEmpty && candidate.architecture != request.architecture) then
    .targetMismatch
  else if (!request.runtimeVersion.isEmpty &&
        candidate.runtimeVersion != request.runtimeVersion) ||
      !cudaRuntimeCompatible candidate request then .runtimeMismatch
  else if candidate.licenseRestricted && !request.allowLicenseRestricted then
    .licenseRestriction
  else if !request.expectedDigest.isEmpty && candidate.digest != request.expectedDigest then
    .digestMismatch
  else if !candidate.available || candidate.artifact.path.isEmpty then .unavailable
  else .matched ⟨candidate, preferenceRank candidate request, targetMatchRank candidate request⟩

/-- What the pass has seen so far. -/
structure Scan where
  sawVersionMismatch : Bool := false
  sawPrecisionMismatch : Bool := false
  sawTargetMismatch : Bool := false
  sawRuntimeMismatch : Bool := false
  sawDigestMismatch : Bool := false
  sawLicenseRestriction : Bool := false
  sawUnavailable : Bool := false
  found : List ResolvedArtifact := []
  deriving DecidableEq, Repr

def Scan.record (scan : Scan) : Verdict → Scan
  | .skipped => scan
  | .versionMismatch => { scan with sawVersionMismatch := true }
  | .precisionMismatch => { scan with sawPrecisionMismatch := true }
  | .targetMismatch => { scan with sawTargetMismatch := true }
  | .runtimeMismatch => { scan with sawRuntimeMismatch := true }
  | .licenseRestriction => { scan with sawLicenseRestriction := true }
  | .digestMismatch => { scan with sawDigestMismatch := true }
  | .unavailable => { scan with sawUnavailable := true }
  | .matched artifact => { scan with found := scan.found ++ [artifact] }

def scanCandidates (request : ArtifactRequest) (candidates : List ArtifactCandidate) : Scan :=
  candidates.foldl (fun scan candidate => scan.record (verdict request candidate)) {}

/-- The comparison by which the best match is chosen. -/
def beats (lhs rhs : ResolvedArtifact) : Bool :=
  if lhs.targetMatchRank != rhs.targetMatchRank then lhs.targetMatchRank < rhs.targetMatchRank
  else if lhs.providerPreferenceRank != rhs.providerPreferenceRank then
    lhs.providerPreferenceRank < rhs.providerPreferenceRank
  else lhs.candidate.artifact.path < rhs.candidate.artifact.path

/-- The error of a pass without a match: the most informative rejection wins. -/
def rejection (request : ArtifactRequest) (scan : Scan) : Error :=
  if scan.sawLicenseRestriction then
    resolutionError .licenseRestricted "all compatible artifacts are license-restricted"
  else if scan.sawDigestMismatch then
    resolutionError .digestMismatch
      "compatible artifact digest does not match the requested digest"
  else if scan.sawTargetMismatch then
    resolutionError .incompatibleTarget "no artifact matches the requested target identity"
  else if scan.sawRuntimeMismatch then
    resolutionError .incompatibleVersion
      "no artifact matches the requested runtime or CUDA version"
  else if scan.sawPrecisionMismatch then
    resolutionError .incompatiblePrecision
      ("no artifact matches precision '" ++ request.precision ++ "'")
  else if scan.sawVersionMismatch then
    resolutionError .incompatibleVersion
      "no artifact matches the requested API, model, or manifest versions"
  else if scan.sawUnavailable then
    resolutionError .missingArtifact "compatible artifact is not available at its recorded path"
  else
    resolutionError .missingArtifact "no artifact candidate satisfies the resolution request"

def resolve (candidates : List ArtifactCandidate) (request : ArtifactRequest) :
    Result ResolvedArtifact :=
  if request.codecId.isEmpty || request.modelSetId.isEmpty || request.componentId.isEmpty ||
      request.precision.isEmpty then
    .error (resolutionError .invalidArgument
      "codec, model set, component, and precision are required")
  else if !candidates.any (fun candidate => candidate.artifact.codecId == request.codecId) then
    .error (resolutionError .missingCodec
      ("no artifact candidate is registered for codec '" ++ request.codecId ++ "'"))
  else if !candidates.any (fun candidate => candidate.artifact.codecId == request.codecId &&
      candidate.artifact.modelSetId == request.modelSetId) then
    .error (resolutionError .missingModelSet
      ("no artifact candidate is registered for model set '" ++ request.modelSetId ++ "'"))
  else if !candidates.any (sameIdentity · request) then
    .error (resolutionError .missingArtifact
      ("no artifact candidate is registered for component '" ++ request.componentId ++ "'"))
  else if !candidates.any (fun candidate =>
      sameIdentity candidate request && sameProvider candidate request) then
    .error (resolutionError .missingProvider
      ("no compatible provider is registered for component '" ++ request.componentId ++ "'"))
  else
    let scan := scanCandidates request candidates
    match BestCandidates.minElement beats scan.found with
    | some best => .ok best
    | none => .error (rejection request scan)

end Selection

section Compatible

/-- The candidate runs on the requested device. -/
def FitsTarget (request : ArtifactRequest) (candidate : ArtifactCandidate) : Prop :=
  (request.targetProfileId ≠ "" ∧ candidate.targetProfileId = request.targetProfileId) ∨
    match candidate.hardwareCompatibility with
    | .exact =>
        request.targetDevice ≠ "" ∧ candidate.targetDevice = request.targetDevice ∧
          (request.computeCapability = "" ∨
            candidate.computeCapability = request.computeCapability)
    | .sameComputeCapability =>
        request.computeCapability ≠ "" ∧
          candidate.computeCapability = request.computeCapability
    | .amperePlus =>
        8 ≤ computeMajor candidate.computeCapability ∧
          computeMajor candidate.computeCapability ≤ computeMajor request.computeCapability

/-- The candidate satisfies the identity, version, precision, target and runtime
constraints of the request. -/
structure MeetsConstraints (request : ArtifactRequest) (candidate : ArtifactCandidate) : Prop where
  codecId : candidate.artifact.codecId = request.codecId
  modelSetId : candidate.artifact.modelSetId = request.modelSetId
  componentId : candidate.artifact.componentId = request.componentId
  engineProfileId : candidate.artifact.engineProfileId = request.engineProfileId
  provider : request.providerId = "" ∨ candidate.artifact.providerId = request.providerId
  codecApi : candidate.artifact.codecApiVersion.compatible request.codecApiVersion
  providerApi : candidate.artifact.providerApiVersion.compatible request.providerApiVersion
  modelSet : candidate.artifact.modelSetVersion.compatible request.modelSetVersion
  manifestSchema :
    candidate.artifact.manifestSchemaVersion.compatible request.manifestSchemaVersion
  precision : candidate.artifact.precision = request.precision
  target : FitsTarget request candidate
  operatingSystem : request.operatingSystem = "" ∨
    candidate.operatingSystem = request.operatingSystem
  architecture : request.architecture = "" ∨ candidate.architecture = request.architecture
  runtimeVersion : request.runtimeVersion = "" ∨
    candidate.runtimeVersion = request.runtimeVersion
  cudaRuntime : cudaRuntimeCompatible candidate request

/-- The candidate meets the constraints and may be used: its license is not restricted or
the request allows that, its digest is the expected one, and it is there. -/
structure Compatible (request : ArtifactRequest) (candidate : ArtifactCandidate) : Prop
    extends MeetsConstraints request candidate where
  license : candidate.licenseRestricted → request.allowLicenseRestricted
  digest : request.expectedDigest = [] ∨ candidate.digest = request.expectedDigest
  available : candidate.available
  path : candidate.artifact.path ≠ ""

/-- A request names the codec, the model set, the component and the precision. -/
structure ArtifactRequest.Complete (request : ArtifactRequest) : Prop where
  codecId : request.codecId ≠ ""
  modelSetId : request.modelSetId ≠ ""
  componentId : request.componentId ≠ ""
  precision : request.precision ≠ ""

theorem targetMatchRank_ne_unmatched {candidate : ArtifactCandidate}
    {request : ArtifactRequest} :
    targetMatchRank candidate request ≠ unmatchedRank ↔ FitsTarget request candidate := by
  unfold targetMatchRank FitsTarget
  by_cases hnamed : request.targetProfileId ≠ "" ∧
      candidate.targetProfileId = request.targetProfileId
  · simp [hnamed, unmatchedRank]
  · have hfalse : (!request.targetProfileId.isEmpty &&
        candidate.targetProfileId == request.targetProfileId) = false := by
      simpa [Bool.and_eq_false_iff, imp_iff_not_or] using hnamed
    rw [if_neg (by simp [hfalse])]
    cases candidate.hardwareCompatibility with
    | exact => simp [hnamed, unmatchedRank, and_assoc, or_iff_not_imp_left]
    | sameComputeCapability => simp [hnamed, unmatchedRank]
    | amperePlus => simp [hnamed, unmatchedRank]

theorem sameIdentity_iff {candidate : ArtifactCandidate} {request : ArtifactRequest} :
    sameIdentity candidate request = true ↔
      candidate.artifact.codecId = request.codecId ∧
      candidate.artifact.modelSetId = request.modelSetId ∧
      candidate.artifact.componentId = request.componentId ∧
      candidate.artifact.engineProfileId = request.engineProfileId := by
  simp [sameIdentity, and_assoc]

theorem sameProvider_iff {candidate : ArtifactCandidate} {request : ArtifactRequest} :
    sameProvider candidate request = true ↔
      request.providerId = "" ∨ candidate.artifact.providerId = request.providerId := by
  simp [sameProvider]

/-- The pass keeps exactly the compatible candidates. -/
theorem verdict_eq_matched {request : ArtifactRequest} {candidate : ArtifactCandidate}
    {artifact : ResolvedArtifact} :
    verdict request candidate = .matched artifact ↔
      Compatible request candidate ∧
        artifact = ⟨candidate, preferenceRank candidate request,
          targetMatchRank candidate request⟩ := by
  constructor
  · intro h
    unfold verdict at h
    split_ifs at h with hidentity hversion hprecision htarget hplatform hruntime hlicense
      hdigest havailable
    simp only [Bool.or_eq_true, Bool.not_eq_true', not_or, Bool.not_eq_false,
      sameIdentity_iff, sameProvider_iff] at hidentity hversion
    obtain ⟨⟨hcodec, hmodel, hcomponent, hprofile⟩, hprovider⟩ := hidentity
    obtain ⟨⟨⟨hcodecApi, hproviderApi⟩, hmodelSet⟩, hmanifest⟩ := hversion
    refine ⟨⟨⟨hcodec, hmodel, hcomponent, hprofile, hprovider, hcodecApi, hproviderApi,
      hmodelSet, hmanifest, by simpa using hprecision,
      targetMatchRank_ne_unmatched.mp (by simpa using htarget), ?_, ?_, ?_, ?_⟩, ?_, ?_, ?_, ?_⟩,
      (Verdict.matched.inj h).symm⟩
    all_goals simp_all [or_iff_not_imp_left]
  · rintro ⟨h, rfl⟩
    have hidentity := sameIdentity_iff.mpr
      ⟨h.codecId, h.modelSetId, h.componentId, h.engineProfileId⟩
    have hprovider := sameProvider_iff.mpr h.provider
    have htarget := targetMatchRank_ne_unmatched.mpr h.target
    unfold verdict
    rw [if_neg (by simp [hidentity, hprovider]),
      if_neg (by simp [h.codecApi, h.providerApi, h.modelSet, h.manifestSchema]),
      if_neg (by simp [h.precision]), if_neg (by simpa using htarget),
      if_neg (by simpa [imp_iff_not_or] using ⟨h.operatingSystem, h.architecture⟩),
      if_neg (by simpa [imp_iff_not_or] using ⟨h.runtimeVersion, h.cudaRuntime⟩),
      if_neg (by simpa [imp_iff_not_or] using h.license),
      if_neg (by simpa [imp_iff_not_or] using h.digest),
      if_neg (by simp [h.available, h.path])]

end Compatible

section Scans

def Verdict.artifact? : Verdict → Option ResolvedArtifact
  | .matched artifact => some artifact
  | _ => none

theorem Verdict.artifact?_eq_some {verdict : Verdict} {artifact : ResolvedArtifact} :
    verdict.artifact? = some artifact ↔ verdict = .matched artifact := by
  cases verdict <;> simp [Verdict.artifact?]

/-- The flags tell which verdicts occurred, and the matches are kept in order. -/
theorem foldl_record (verdicts : List Verdict) (scan : Scan) :
    verdicts.foldl Scan.record scan =
      { sawVersionMismatch := scan.sawVersionMismatch || verdicts.contains .versionMismatch
        sawPrecisionMismatch :=
          scan.sawPrecisionMismatch || verdicts.contains .precisionMismatch
        sawTargetMismatch := scan.sawTargetMismatch || verdicts.contains .targetMismatch
        sawRuntimeMismatch := scan.sawRuntimeMismatch || verdicts.contains .runtimeMismatch
        sawDigestMismatch := scan.sawDigestMismatch || verdicts.contains .digestMismatch
        sawLicenseRestriction :=
          scan.sawLicenseRestriction || verdicts.contains .licenseRestriction
        sawUnavailable := scan.sawUnavailable || verdicts.contains .unavailable
        found := scan.found ++ verdicts.filterMap Verdict.artifact? } := by
  induction verdicts generalizing scan with
  | nil => simp
  | cons verdict verdicts ih =>
      rw [List.foldl_cons, ih]
      cases verdict <;> simp [Scan.record, Verdict.artifact?, List.filterMap_cons]

theorem scanCandidates_eq (request : ArtifactRequest) (candidates : List ArtifactCandidate) :
    scanCandidates request candidates =
      (candidates.map (verdict request)).foldl Scan.record {} := by
  rw [List.foldl_map]
  rfl

/-- The matches are the compatible candidates with their ranks. -/
theorem mem_found {request : ArtifactRequest} {candidates : List ArtifactCandidate}
    {artifact : ResolvedArtifact} :
    artifact ∈ (scanCandidates request candidates).found ↔
      ∃ candidate ∈ candidates, Compatible request candidate ∧
        artifact = ⟨candidate, preferenceRank candidate request,
          targetMatchRank candidate request⟩ := by
  rw [scanCandidates_eq, foldl_record]
  simp only [List.nil_append, List.filterMap_map, List.mem_filterMap, Function.comp_apply,
    Verdict.artifact?_eq_some, verdict_eq_matched]

/-- Reordering the candidates changes neither the rejections seen nor the matches found. -/
theorem scanCandidates_perm (request : ArtifactRequest)
    {candidates candidates' : List ArtifactCandidate} (hperm : candidates.Perm candidates') :
    ∃ found, (scanCandidates request candidates').found.Perm found ∧
      scanCandidates request candidates =
        { scanCandidates request candidates' with found := found } := by
  have hverdicts : (candidates.map (verdict request)).Perm
      (candidates'.map (verdict request)) := hperm.map _
  refine ⟨(scanCandidates request candidates).found, ?_, ?_⟩
  · simp only [scanCandidates_eq, foldl_record, List.nil_append]
    exact (hverdicts.filterMap _).symm
  · simp only [scanCandidates_eq, foldl_record, hverdicts.contains_eq]

end Scans

section Choice

/-- The order in which matches are preferred. -/
def ResolvedArtifact.order (artifact : ResolvedArtifact) : ℕ ×ₗ ℕ ×ₗ String :=
  toLex (artifact.targetMatchRank,
    toLex (artifact.providerPreferenceRank, artifact.candidate.artifact.path))

theorem beats_iff (lhs rhs : ResolvedArtifact) :
    beats lhs rhs = true ↔ lhs.order < rhs.order := by
  unfold beats ResolvedArtifact.order
  rw [Prod.Lex.toLex_lt_toLex, Prod.Lex.toLex_lt_toLex]
  by_cases htarget : lhs.targetMatchRank = rhs.targetMatchRank
  · by_cases hprovider : lhs.providerPreferenceRank = rhs.providerPreferenceRank
    · simp [htarget, hprovider]
    · simp [htarget, hprovider]
  · simp [htarget]

theorem order_eq_iff {lhs rhs : ResolvedArtifact} :
    lhs.order = rhs.order ↔ lhs.targetMatchRank = rhs.targetMatchRank ∧
      lhs.providerPreferenceRank = rhs.providerPreferenceRank ∧
      lhs.candidate.artifact.path = rhs.candidate.artifact.path := by
  simp [ResolvedArtifact.order]

/-- Past the checks of the request and of the registered identities, the scan decides. -/
theorem resolve_eq_ok {candidates : List ArtifactCandidate} {request : ArtifactRequest}
    {best : ResolvedArtifact} :
    resolve candidates request = .ok best ↔ request.Complete ∧
      BestCandidates.minElement beats (scanCandidates request candidates).found = some best := by
  constructor
  · intro h
    unfold resolve at h
    split_ifs at h with hcomplete hcodec hmodel hcomponent hprovider
    simp only [Bool.or_eq_true, String.isEmpty_iff, not_or] at hcomplete
    obtain ⟨⟨⟨hcodecId, hmodelSetId⟩, hcomponentId⟩, hprecision⟩ := hcomplete
    refine ⟨⟨hcodecId, hmodelSetId, hcomponentId, hprecision⟩, ?_⟩
    dsimp only at h
    cases hbest : BestCandidates.minElement beats (scanCandidates request candidates).found with
    | none => rw [hbest] at h; exact nomatch h
    | some artifact => rw [hbest] at h; cases h; rfl
  · rintro ⟨hcomplete, hbest⟩
    obtain ⟨candidate, hmem, hcompatible, rfl⟩ :=
      mem_found.mp (BestCandidates.minElement_mem ResolvedArtifact.order beats_iff hbest)
    have hidentity := sameIdentity_iff.mpr ⟨hcompatible.codecId, hcompatible.modelSetId,
      hcompatible.componentId, hcompatible.engineProfileId⟩
    have hprovider := sameProvider_iff.mpr hcompatible.provider
    have hany {p : ArtifactCandidate → Bool} (hp : p candidate = true) :
        (!candidates.any p) ≠ true := by
      simpa using ⟨candidate, hmem, hp⟩
    unfold resolve
    rw [if_neg (by simp [hcomplete.codecId, hcomplete.modelSetId, hcomplete.componentId,
        hcomplete.precision]),
      if_neg (hany (by simp [hcompatible.codecId])),
      if_neg (hany (by simp [hcompatible.codecId, hcompatible.modelSetId])),
      if_neg (hany hidentity), if_neg (hany (by simp [hidentity, hprovider]))]
    simp only [hbest]

/-- What a caller sees of a resolution that does not depend on ties. -/
def outcome (result : Result ResolvedArtifact) : Except ErrorCode (Nat × Nat × String) :=
  match result with
  | .ok artifact => .ok (artifact.targetMatchRank, artifact.providerPreferenceRank,
      artifact.candidate.artifact.path)
  | .error e => .error e.code

theorem outcome_resolve_perm {candidates candidates' : List ArtifactCandidate}
    {request : ArtifactRequest} (hperm : candidates.Perm candidates') :
    outcome (resolve candidates request) = outcome (resolve candidates' request) := by
  obtain ⟨found, hfound, hscan⟩ := scanCandidates_perm request hperm
  have hkey := BestCandidates.minElement_key_perm ResolvedArtifact.order beats_iff hfound
  unfold resolve
  simp only [hperm.any_eq, hscan]
  split_ifs
  any_goals rfl
  cases hbest : BestCandidates.minElement beats found with
  | none =>
      rw [hbest, Option.map_none, Option.map_eq_none_iff] at hkey
      simp only [hkey, outcome]
      rfl
  | some best =>
      rw [hbest, Option.map_some, Option.map_eq_some_iff] at hkey
      obtain ⟨best', hbest', horder⟩ := hkey
      obtain ⟨htarget, hprovider, hpath⟩ := order_eq_iff.mp horder
      simp only [hbest', outcome, htarget, hprovider, hpath]

/-- Resolution succeeds exactly when the request is complete and some candidate is
compatible with it, returns a compatible candidate that no other one beats, and does not
depend on the order in which the candidates were added. -/
theorem resolve_best_compatible (candidates : List ArtifactCandidate)
    (request : ArtifactRequest) :
    ((∃ best, resolve candidates request = .ok best) ↔
      request.Complete ∧ ∃ candidate ∈ candidates, Compatible request candidate) ∧
    (∀ best, resolve candidates request = .ok best →
      best.candidate ∈ candidates ∧ Compatible request best.candidate ∧
      best.targetMatchRank = targetMatchRank best.candidate request ∧
      best.providerPreferenceRank = preferenceRank best.candidate request ∧
      ∀ candidate ∈ candidates, Compatible request candidate →
        toLex (best.targetMatchRank,
          toLex (best.providerPreferenceRank, best.candidate.artifact.path)) ≤
        toLex (targetMatchRank candidate request,
          toLex (preferenceRank candidate request, candidate.artifact.path))) ∧
    ∀ candidates' : List ArtifactCandidate, candidates.Perm candidates' →
      outcome (resolve candidates request) = outcome (resolve candidates' request) := by
  refine ⟨⟨?_, ?_⟩, ?_, fun candidates' hperm => outcome_resolve_perm hperm⟩
  · rintro ⟨best, hbest⟩
    obtain ⟨hcomplete, hmin⟩ := resolve_eq_ok.mp hbest
    obtain ⟨candidate, hmem, hcompatible, -⟩ :=
      mem_found.mp (BestCandidates.minElement_mem ResolvedArtifact.order beats_iff hmin)
    exact ⟨hcomplete, candidate, hmem, hcompatible⟩
  · rintro ⟨hcomplete, candidate, hmem, hcompatible⟩
    cases hmin : BestCandidates.minElement beats (scanCandidates request candidates).found with
    | none =>
        have hfound := mem_found.mpr ⟨candidate, hmem, hcompatible, rfl⟩
        rw [(BestCandidates.minElement_eq_none ResolvedArtifact.order beats_iff).mp hmin] at hfound
        exact nomatch hfound
    | some best => exact ⟨best, resolve_eq_ok.mpr ⟨hcomplete, hmin⟩⟩
  · intro best hbest
    obtain ⟨-, hmin⟩ := resolve_eq_ok.mp hbest
    obtain ⟨chosen, hmem, hcompatible, rfl⟩ :=
      mem_found.mp (BestCandidates.minElement_mem ResolvedArtifact.order beats_iff hmin)
    refine ⟨hmem, hcompatible, rfl, rfl, fun candidate hcandidate hother => ?_⟩
    exact BestCandidates.key_le_of_minElement ResolvedArtifact.order beats_iff hmin
      (mem_found.mpr ⟨candidate, hcandidate, hother, rfl⟩)

def restrictedCandidate : ArtifactCandidate :=
  { artifact :=
      { codecId := "dcvc-rt", modelSetId := "dcvcrt-cvpr2025", componentId := "engine-bundle"
        engineProfileId := "720p", providerId := "tensorrt", precision := "fp16"
        path := "720p.tar.gz" }
    targetDevice := "Orin"
    licenseRestricted := true }

def orinRequest : ArtifactRequest :=
  { codecId := "dcvc-rt", modelSetId := "dcvcrt-cvpr2025", componentId := "engine-bundle"
    engineProfileId := "720p", targetDevice := "Orin", precision := "fp16" }

/-- Meeting the constraints is not enough: a restricted license is turned away. -/
theorem restricted_candidate_rejected :
    MeetsConstraints orinRequest restrictedCandidate ∧
      ¬ ∃ best, resolve [restrictedCandidate] orinRequest = .ok best := by
  refine ⟨⟨rfl, rfl, rfl, rfl, .inl rfl, rfl, rfl, rfl, rfl, rfl,
    .inr ⟨by decide, rfl, .inl rfl⟩, .inl rfl, .inl rfl, .inl rfl, rfl⟩, ?_⟩
  rintro ⟨best, hbest⟩
  obtain ⟨-, hmin⟩ := resolve_eq_ok.mp hbest
  obtain ⟨candidate, hmem, hcompatible, -⟩ :=
    mem_found.mp (BestCandidates.minElement_mem ResolvedArtifact.order beats_iff hmin)
  cases List.mem_singleton.mp hmem
  exact nomatch hcompatible.license rfl

end Choice

end Nvcr.Artifacts
