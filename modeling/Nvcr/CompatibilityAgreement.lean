import Nvcr.CatalogEntries
import Nvcr.DecimalTexts

/-!
# Installer and resolver on compatible engines

The installer compares the numbers of a catalog entry with those of the device, the resolver the
texts made from them. They agree on an entry exactly where three rules that only one of them has
make no difference.
-/

namespace Nvcr.Artifacts

open StatefulResults

section Texts

theorem toList_capability (major minor : ℕ) :
    (toString major ++ "." ++ toString minor).toList = DecimalTexts.joined '.' major [minor] := by
  simp [DecimalTexts.joined]

theorem capability_inj {major minor major' minor' : ℕ} :
    toString major ++ "." ++ toString minor = toString major' ++ "." ++ toString minor' ↔
      major = major' ∧ minor = minor' := by
  have hlength : [minor].length = [minor'].length := rfl
  rw [← String.toList_inj, toList_capability, toList_capability,
    DecimalTexts.joined_inj (by decide) hlength]
  simp

theorem runtimeVersion_inj {a b c a' b' c' : ℕ} :
    toString a ++ "." ++ toString b ++ "." ++ toString c =
        toString a' ++ "." ++ toString b' ++ "." ++ toString c' ↔
      a = a' ∧ b = b' ∧ c = c' := by
  have htext (a b c : ℕ) : (toString a ++ "." ++ toString b ++ "." ++ toString c).toList =
      DecimalTexts.joined '.' a [b, c] := by
    simp [DecimalTexts.joined]
  have hlength : [b, c].length = [b', c'].length := rfl
  rw [← String.toList_inj, htext, htext, DecimalTexts.joined_inj (by decide) hlength]
  simp

theorem capability_ne_empty (major minor : ℕ) :
    toString major ++ "." ++ toString minor ≠ "" := by
  intro h
  have htext := toList_capability major minor
  rw [h] at htext
  exact Nat.toDigits_ne_nil (List.append_eq_nil_iff.mp htext.symm).1

/-- A number read back from its decimal text, if it is in range. -/
theorem fromCharsInt_toDigits (n : ℕ) :
    fromCharsInt (Nat.toDigits 10 n) = if n < 2 ^ 31 then some (n : Int) else none := by
  have hvalue : decimalValue (Nat.toDigits 10 n) = n := Nat.ofDigitChars_ten_toDigits
  have hsign : (Nat.toDigits 10 n).head? ≠ some '-' := fun h =>
    DecimalTexts.notMem_toDigits (by decide) n (List.mem_of_head? h)
  have hdigits : (Nat.toDigits 10 n).all Char.isDigit = true :=
    List.all_eq_true.mpr fun c hc => Nat.isDigit_of_mem_toDigits (by decide) (by decide) hc
  simp [fromCharsInt, hsign, hdigits, hvalue, Nat.toDigits_ne_nil]

/-- The major number of a capability text, which has to fit the `int` it is read into. -/
theorem computeMajor_capability (major minor : ℕ) :
    computeMajor (toString major ++ "." ++ toString minor) =
      if major < 2 ^ 31 then (major : Int) else -1 := by
  have hempty : ¬ (toString major ++ "." ++ toString minor).isEmpty = true := by
    rw [String.isEmpty_iff]
    exact capability_ne_empty major minor
  rw [computeMajor, if_neg hempty, toList_capability, DecimalTexts.takeWhile_joined (by decide),
    fromCharsInt_toDigits]
  split_ifs
  · rfl
  · rfl

end Texts

section Identity

def DeviceIdentity.computeCapability (identity : DeviceIdentity) : String :=
  toString identity.computeCapabilityMajor ++ "." ++ toString identity.computeCapabilityMinor

def DeviceIdentity.runtimeVersion (identity : DeviceIdentity) : String :=
  toString identity.tensorrtVersionMajor ++ "." ++ toString identity.tensorrtVersionMinor ++ "." ++
    toString identity.tensorrtVersionPatch

/-- The request names the device of the identity and no target profile. -/
structure Carries (request : ArtifactRequest) (identity : DeviceIdentity) : Prop where
  targetProfileId : request.targetProfileId = ""
  targetDevice : request.targetDevice = identity.deviceName
  computeCapability : request.computeCapability = identity.computeCapability
  operatingSystem : request.operatingSystem = identity.operatingSystem
  architecture : request.architecture = identity.architecture
  runtimeVersion : request.runtimeVersion = identity.runtimeVersion
  cudaRuntimeVersion : request.cudaRuntimeVersion = identity.cudaRuntimeVersion

/-- The candidate is available and meets whatever the request asks for besides the device. -/
structure MatchesOtherwise (request : ArtifactRequest) (candidate : ArtifactCandidate) :
    Prop where
  codecId : candidate.artifact.codecId = request.codecId
  modelSetId : candidate.artifact.modelSetId = request.modelSetId
  componentId : candidate.artifact.componentId = request.componentId
  engineProfileId : candidate.artifact.engineProfileId = request.engineProfileId
  provider : request.providerId = "" ∨ candidate.artifact.providerId = request.providerId
  codecApi : candidate.artifact.codecApiVersion.compatible request.codecApiVersion
  providerApi : candidate.artifact.providerApiVersion.compatible request.providerApiVersion
  modelSet : candidate.artifact.modelSetVersion.compatible request.modelSetVersion
  manifestSchema :
    candidate.artifact.manifestSchemaVersion.compatible request.manifestSchemaVersion
  precision : candidate.artifact.precision = request.precision
  license : candidate.licenseRestricted → request.allowLicenseRestricted
  digest : request.expectedDigest = [] ∨ candidate.digest = request.expectedDigest
  available : candidate.available

variable (entry : CatalogEntry) (identity : DeviceIdentity)

/-- Architecture and TensorRT version agree. -/
def SamePlatform : Prop :=
  entry.architecture = identity.architecture ∧
    entry.tensorrtVersionMajor.toNat = identity.tensorrtVersionMajor ∧
    entry.tensorrtVersionMinor.toNat = identity.tensorrtVersionMinor ∧
    entry.tensorrtVersionPatch.toNat = identity.tensorrtVersionPatch

def SameCapability : Prop :=
  entry.computeCapabilityMajor.toNat = identity.computeCapabilityMajor ∧
    entry.computeCapabilityMinor.toNat = identity.computeCapabilityMinor

/-- The device as the resolver judges it. -/
def ResolverFits : Prop :=
  match entry.hardwareCompatibility with
  | .exact => entry.deviceName = identity.deviceName ∧ SameCapability entry identity
  | .sameComputeCapability => SameCapability entry identity
  | .amperePlus => 8 ≤ entry.computeCapabilityMajor.toNat ∧
      entry.computeCapabilityMajor.toNat ≤ identity.computeCapabilityMajor ∧
      identity.computeCapabilityMajor < 2 ^ 31

/-- The device as the installer judges it. -/
def InstallerFits : Prop :=
  match entry.hardwareCompatibility with
  | .exact => entry.deviceName = identity.deviceName ∧ SameCapability entry identity ∧
      entry.multiprocessorCount.toNat = identity.multiprocessorCount
  | .sameComputeCapability => SameCapability entry identity
  | .amperePlus => 8 ≤ identity.computeCapabilityMajor

def compatibilityRank : HardwareCompatibility → ℕ
  | .exact => 0
  | .sameComputeCapability => 1
  | .amperePlus => 2

end Identity

section Installer

variable {entry : CatalogEntry} {identity : DeviceIdentity}

/-- What an accepted entry satisfies. -/
structure AcceptedEntry (entry : CatalogEntry) : Prop where
  modelProfileId : entry.modelProfileId ≠ ""
  deviceName : entry.deviceName ≠ ""
  precision : entry.precision = "fp16"
  operatingSystem : entry.operatingSystem = "linux"
  architecture : entry.architecture = "x86_64" ∨ entry.architecture = "aarch64"
  exact : entry.architecture = "aarch64" → entry.hardwareCompatibility = .exact
  cudaRuntimeVersion : 0 < entry.cudaRuntimeVersion.toNat
  filename : entry.filename ≠ ""

theorem acceptedEntry_of_validateEntry {source : String} {index : ℕ}
    (h : validateEntry source index entry = .ok ()) : AcceptedEntry entry := by
  unfold validateEntry at h
  obtain ⟨_, hstrings, h⟩ := bind_eq_ok.mp h
  obtain ⟨_, hexact, h⟩ := bind_eq_ok.mp h
  obtain ⟨_, -, h⟩ := bind_eq_ok.mp h
  obtain ⟨_, -, h⟩ := bind_eq_ok.mp h
  obtain ⟨profile, -, h⟩ := bind_eq_ok.mp h
  obtain ⟨_, -, h⟩ := bind_eq_ok.mp h
  obtain ⟨_, hprecision, h⟩ := bind_eq_ok.mp h
  obtain ⟨_, hplatform, h⟩ := bind_eq_ok.mp h
  obtain ⟨_, -, h⟩ := bind_eq_ok.mp h
  rw [require_eq_ok] at hexact hprecision hplatform h
  have hnonempty := forM_eq_ok hstrings
  simp only [List.forall_mem_cons, require_eq_ok] at hnonempty
  obtain ⟨-, hmodel, -, -, -, -, -, hdevice, hfilename, -⟩ := hnonempty
  refine ⟨hmodel, hdevice, hprecision, hplatform.1, hplatform.2, fun haarch64 => ?_, ?_,
    hfilename⟩
  · by_contra hother
    exact hexact ⟨haarch64, hother⟩
  · exact UInt32.lt_iff_toNat_lt.mp h.2.2.2.2.1

/-- The installer's rank by cases. -/
theorem catalogEntryMatchRank_eq (h : AcceptedEntry entry) :
    catalogEntryMatchRank entry identity =
      open Classical in
      if SamePlatform entry identity ∧ engineRuntimeCompatible entry identity = true ∧
          InstallerFits entry identity then some (compatibilityRank entry.hardwareCompatibility)
      else none := by
  have hsystem : entry.operatingSystem = identity.operatingSystem :=
    h.operatingSystem.trans identity.operatingSystem_eq.symm
  unfold catalogEntryMatchRank
  by_cases hplatform : SamePlatform entry identity
  · obtain ⟨harchitecture, hmajor, hminor, hpatch⟩ := hplatform
    rw [if_neg (by simp [hsystem, harchitecture, hmajor, hminor, hpatch])]
    cases hruntime : engineRuntimeCompatible entry identity with
    | false => simp
    | true =>
        have hx86 (hother : entry.hardwareCompatibility ≠ .exact) :
            entry.architecture = "x86_64" :=
          h.architecture.resolve_right fun haarch64 => hother (h.exact haarch64)
        cases hcompatibility : entry.hardwareCompatibility with
        | exact =>
            simp [SamePlatform, harchitecture, hmajor, hminor, hpatch, InstallerFits,
              hcompatibility, SameCapability, compatibilityRank, and_assoc]
        | sameComputeCapability =>
            have harch : identity.architecture = "x86_64" := by
              rw [← harchitecture]
              exact hx86 (by rw [hcompatibility]; decide)
            simp [SamePlatform, harchitecture, hmajor, hminor, hpatch, InstallerFits,
              hcompatibility, SameCapability, compatibilityRank, harch]
        | amperePlus =>
            have harch : identity.architecture = "x86_64" := by
              rw [← harchitecture]
              exact hx86 (by rw [hcompatibility]; decide)
            simp [SamePlatform, harchitecture, hmajor, hminor, hpatch, InstallerFits,
              hcompatibility, compatibilityRank, harch]
  · rw [if_pos (by simpa [SamePlatform, hsystem, imp_iff_not_or, or_assoc] using hplatform),
      if_neg fun hall => hplatform hall.1]

end Installer

section Resolver

variable {entry : CatalogEntry} {identity : DeviceIdentity} {request : ArtifactRequest}
  {isRegularFile : String → Bool} {options : CatalogLoadOptions} {digest : Bytes}

/-- A resolver with one candidate returns it, with its ranks, if it is compatible. -/
theorem resolve_singleton {candidate : ArtifactCandidate} (hcomplete : request.Complete) :
    (resolve [candidate] request).toOption.map ResolvedArtifact.targetMatchRank =
      open Classical in
      if Compatible request candidate then some (targetMatchRank candidate request) else none := by
  by_cases hcompatible : Compatible request candidate
  · have hverdict := verdict_eq_matched.mpr ⟨hcompatible, rfl⟩
    have hfound : BestCandidates.minElement beats
        (scanCandidates request [candidate]).found =
        some ⟨candidate, preferenceRank candidate request, targetMatchRank candidate request⟩ := by
      simp [scanCandidates, hverdict, Scan.record, BestCandidates.minElement]
    rw [resolve_eq_ok.mpr ⟨hcomplete, hfound⟩, if_pos hcompatible]
    rfl
  · rw [if_neg hcompatible]
    rcases hresolve : resolve [candidate] request with e | best
    · rfl
    · obtain ⟨-, hbest⟩ := resolve_eq_ok.mp hresolve
      obtain ⟨found, hmem, hfound, -⟩ :=
        mem_found.mp (BestCandidates.minElement_mem ResolvedArtifact.order beats_iff hbest)
      rw [List.mem_singleton.mp hmem] at hfound
      exact absurd hfound hcompatible

theorem fitsTarget_iff (hcarries : Carries request identity) (haccepted : AcceptedEntry entry) :
    FitsTarget request (candidateOf isRegularFile options entry digest) ↔
      ResolverFits entry identity := by
  have hcapability : (candidateOf isRegularFile options entry digest).computeCapability =
      request.computeCapability ↔ SameCapability entry identity := by
    rw [hcarries.computeCapability]
    exact capability_inj
  have hnonempty : request.computeCapability ≠ "" := by
    rw [hcarries.computeCapability]
    exact capability_ne_empty _ _
  unfold FitsTarget ResolverFits
  cases hcompatibility : entry.hardwareCompatibility with
  | exact =>
      have hdevice : entry.deviceName = identity.deviceName → identity.deviceName ≠ "" :=
        fun h => h ▸ haccepted.deviceName
      simp only [candidateOf, hcompatibility, hcarries.targetProfileId, hcarries.targetDevice]
        at hcapability ⊢
      simp only [ne_eq, not_true_eq_false, false_and, false_or, hnonempty, hcapability]
      exact ⟨And.right, fun h => ⟨hdevice h.1, h⟩⟩
  | sameComputeCapability =>
      simp only [candidateOf, hcompatibility, hcarries.targetProfileId] at hcapability ⊢
      simpa [hnonempty] using hcapability
  | amperePlus =>
      simp only [candidateOf, hcompatibility, hcarries.targetProfileId,
        hcarries.computeCapability, DeviceIdentity.computeCapability, computeMajor_capability]
      have hmajor : entry.computeCapabilityMajor.toNat < 2 ^ 32 :=
        entry.computeCapabilityMajor.toNat_lt
      simp only [ne_eq, not_true_eq_false, false_and, false_or]
      split_ifs <;> omega

theorem targetMatchRank_eq (hcarries : Carries request identity)
    (hfits : FitsTarget request (candidateOf isRegularFile options entry digest)) :
    targetMatchRank (candidateOf isRegularFile options entry digest) request =
      compatibilityRank entry.hardwareCompatibility := by
  have hmatched := targetMatchRank_ne_unmatched.mpr hfits
  unfold targetMatchRank at hmatched ⊢
  rw [if_neg (by simp [hcarries.targetProfileId])] at hmatched ⊢
  cases hcompatibility : entry.hardwareCompatibility with
  | exact =>
      simp only [candidateOf, hcompatibility] at hmatched ⊢
      split_ifs at hmatched ⊢ with hdevice
      · rfl
      · exact absurd rfl hmatched
  | sameComputeCapability =>
      simp only [candidateOf, hcompatibility] at hmatched ⊢
      split_ifs at hmatched ⊢ with hcapability
      · rfl
      · exact absurd rfl hmatched
  | amperePlus =>
      simp only [candidateOf, hcompatibility] at hmatched ⊢
      split_ifs at hmatched ⊢ with hmajor
      · rfl
      · exact absurd rfl hmatched

theorem joinPath_ne_empty {root name : String} (h : name ≠ "") : joinPath root name ≠ "" := by
  unfold joinPath
  split_ifs
  · simp [h]
  · simp

/-- The runtime check of the resolver, which lets an unknown CUDA version pass. -/
theorem cudaRuntimeCompatible_iff (hcarries : Carries request identity)
    (haccepted : AcceptedEntry entry) (hplatform : SamePlatform entry identity) :
    cudaRuntimeCompatible (candidateOf isRegularFile options entry digest) request = true ↔
      identity.cudaRuntimeVersion = 0 ∨ engineRuntimeCompatible entry identity = true := by
  have hentry : entry.cudaRuntimeVersion.toNat ≠ 0 := haccepted.cudaRuntimeVersion.ne'
  simp only [cudaRuntimeCompatible, candidateOf, hcarries.cudaRuntimeVersion,
    hcarries.architecture, engineRuntimeCompatible, cudaMajor, cudaRuntimeMajor, ← hplatform.1]
  by_cases hzero : identity.cudaRuntimeVersion = 0
  · simp [hzero]
  · by_cases hx86 : entry.architecture = "x86_64"
    · simp [hzero, hentry, hx86]
    · simp [hzero, hentry, hx86]

/-- The candidate is compatible where platform, device and runtime pass. -/
theorem compatible_candidateOf_iff (hcarries : Carries request identity)
    (haccepted : AcceptedEntry entry)
    (hmatches : MatchesOtherwise request (candidateOf isRegularFile options entry digest)) :
    Compatible request (candidateOf isRegularFile options entry digest) ↔
      SamePlatform entry identity ∧ ResolverFits entry identity ∧
        (identity.cudaRuntimeVersion = 0 ∨ engineRuntimeCompatible entry identity = true) := by
  have hsystem : entry.operatingSystem = request.operatingSystem := by
    rw [hcarries.operatingSystem, haccepted.operatingSystem, identity.operatingSystem_eq]
  have harchitecture : request.architecture ≠ "" := by
    rw [hcarries.architecture]
    rcases identity.architecture_mem with h | h <;> rw [h] <;> decide
  have hruntime : (candidateOf isRegularFile options entry digest).runtimeVersion =
      request.runtimeVersion ↔ entry.tensorrtVersionMajor.toNat = identity.tensorrtVersionMajor ∧
        entry.tensorrtVersionMinor.toNat = identity.tensorrtVersionMinor ∧
        entry.tensorrtVersionPatch.toNat = identity.tensorrtVersionPatch := by
    rw [hcarries.runtimeVersion]
    exact runtimeVersion_inj
  have hversion : request.runtimeVersion ≠ "" := by
    rw [hcarries.runtimeVersion, DeviceIdentity.runtimeVersion]
    simp
  constructor
  · intro h
    have hplatform : SamePlatform entry identity :=
      ⟨(h.architecture.resolve_left harchitecture).trans hcarries.architecture,
        hruntime.mp (h.runtimeVersion.resolve_left hversion)⟩
    exact ⟨hplatform, (fitsTarget_iff hcarries haccepted).mp h.target,
      (cudaRuntimeCompatible_iff hcarries haccepted hplatform).mp h.cudaRuntime⟩
  · rintro ⟨hplatform, hfits, hcuda⟩
    refine ⟨⟨hmatches.codecId, hmatches.modelSetId, hmatches.componentId,
      hmatches.engineProfileId, hmatches.provider, hmatches.codecApi, hmatches.providerApi,
      hmatches.modelSet, hmatches.manifestSchema, hmatches.precision,
      (fitsTarget_iff hcarries haccepted).mpr hfits, .inr hsystem,
      .inr (hplatform.1.trans hcarries.architecture.symm), .inr (hruntime.mpr hplatform.2),
      (cudaRuntimeCompatible_iff hcarries haccepted hplatform).mpr hcuda⟩, hmatches.license,
      hmatches.digest, hmatches.available, ?_⟩
    simp only [candidateOf]
    split_ifs
    · exact haccepted.filename
    · exact joinPath_ne_empty haccepted.filename

end Resolver

section Agreement

variable (entry : CatalogEntry) (identity : DeviceIdentity)

/-- The rules of the installer and the resolver make no difference on the entry and the device. -/
structure RulesAgree : Prop where
  /-- Only the installer compares the multiprocessors of an exact engine. -/
  exact : entry.hardwareCompatibility = .exact → SamePlatform entry identity →
    engineRuntimeCompatible entry identity = true → entry.deviceName = identity.deviceName →
      SameCapability entry identity →
        entry.multiprocessorCount.toNat = identity.multiprocessorCount
  /-- Only the resolver asks an Ampere engine's own capability, and reads it as an `int`. -/
  amperePlus : entry.hardwareCompatibility = .amperePlus → SamePlatform entry identity →
    engineRuntimeCompatible entry identity = true → 8 ≤ identity.computeCapabilityMajor →
      8 ≤ entry.computeCapabilityMajor.toNat ∧
        entry.computeCapabilityMajor.toNat ≤ identity.computeCapabilityMajor ∧
        identity.computeCapabilityMajor < 2 ^ 31
  /-- Only the resolver takes an unknown CUDA version for compatible. -/
  runtime : identity.cudaRuntimeVersion = 0 → SamePlatform entry identity →
    ¬ ResolverFits entry identity

variable {entry identity}

theorem engineRuntimeCompatible_of_zero (haccepted : AcceptedEntry entry)
    (hzero : identity.cudaRuntimeVersion = 0) : engineRuntimeCompatible entry identity = false := by
  have hentry : entry.cudaRuntimeVersion.toNat ≠ 0 := haccepted.cudaRuntimeVersion.ne'
  unfold engineRuntimeCompatible
  split_ifs
  · simpa [hzero] using hentry
  · simp [hzero, hentry]

/-- Where the runtime passes for both, the rules agree when both judge the device alike. -/
theorem fits_iff_iff (entry : CatalogEntry) (identity : DeviceIdentity) :
    (ResolverFits entry identity ↔ InstallerFits entry identity) ↔
      (entry.hardwareCompatibility = .exact → entry.deviceName = identity.deviceName →
        SameCapability entry identity →
          entry.multiprocessorCount.toNat = identity.multiprocessorCount) ∧
      (entry.hardwareCompatibility = .amperePlus → 8 ≤ identity.computeCapabilityMajor →
        8 ≤ entry.computeCapabilityMajor.toNat ∧
          entry.computeCapabilityMajor.toNat ≤ identity.computeCapabilityMajor ∧
          identity.computeCapabilityMajor < 2 ^ 31) := by
  unfold ResolverFits InstallerFits
  cases hcompatibility : entry.hardwareCompatibility with
  | exact =>
      simp only [forall_true_left, reduceCtorEq, false_implies, and_true]
      exact ⟨fun h hdevice hcapability => (h.mp ⟨hdevice, hcapability⟩).2.2, fun h =>
        ⟨fun ⟨hdevice, hcapability⟩ => ⟨hdevice, hcapability, h hdevice hcapability⟩,
          fun ⟨hdevice, hcapability, _⟩ => ⟨hdevice, hcapability⟩⟩⟩
  | sameComputeCapability => simp
  | amperePlus =>
      simp only [reduceCtorEq, false_implies, forall_true_left, true_and]
      exact ⟨fun h => h.mpr, fun h => ⟨fun hfits => hfits.1.trans hfits.2.1, h⟩⟩

theorem rulesAgree_iff (haccepted : AcceptedEntry entry) :
    RulesAgree entry identity ↔
      ((SamePlatform entry identity ∧ ResolverFits entry identity ∧
          (identity.cudaRuntimeVersion = 0 ∨ engineRuntimeCompatible entry identity = true)) ↔
        (SamePlatform entry identity ∧ engineRuntimeCompatible entry identity = true ∧
          InstallerFits entry identity)) := by
  by_cases hplatform : SamePlatform entry identity
  · by_cases hzero : identity.cudaRuntimeVersion = 0
    · have hruntime := engineRuntimeCompatible_of_zero haccepted hzero
      constructor
      · intro h
        simp [hplatform, hzero, hruntime, h.runtime hzero hplatform]
      · intro h
        simp only [hplatform, hzero, hruntime, true_and, true_or, and_true, reduceCtorEq,
          false_and, iff_false] at h
        exact ⟨by simp [hruntime], by simp [hruntime], fun _ _ => h⟩
    · cases hruntime : engineRuntimeCompatible entry identity with
      | false =>
          refine iff_of_true ⟨by simp [hruntime], by simp [hruntime], by simp [hzero]⟩ ?_
          simp [hzero]
      | true =>
          simp only [hplatform, true_and, or_true, and_true, fits_iff_iff]
          exact ⟨fun h => ⟨fun hexact => h.exact hexact hplatform hruntime,
            fun hampere => h.amperePlus hampere hplatform hruntime⟩,
            fun h => ⟨fun hexact _ _ => h.1 hexact, fun hampere _ _ => h.2 hampere,
              fun hzero' => absurd hzero' hzero⟩⟩
  · exact iff_of_true
      ⟨fun _ h => absurd h hplatform, fun _ h => absurd h hplatform, fun _ h => absurd h hplatform⟩
      (by simp [hplatform])

/-- What is made from one entry. -/
theorem appendCandidates_singleton {isRegularFile : String → Bool} {options : CatalogLoadOptions}
    {candidates : List ArtifactCandidate}
    (h : (appendCandidates isRegularFile options [entry]).run [] = (.ok (), candidates)) :
    (options.codecId ≠ "" ∧ options.componentId ≠ "") ∧
      ∃ digest, candidates = [candidateOf isRegularFile options entry digest] := by
  obtain ⟨_, _, hoptions, hentries⟩ := Action.run_bind_eq_ok.mp h
  rw [Action.run_lift, Prod.mk.injEq, require_eq_ok] at hoptions
  obtain ⟨hoptions, rfl⟩ := hoptions
  simp only [String.isEmpty_iff, not_or] at hoptions
  obtain ⟨_, s, hentry, hnil⟩ := Action.run_bind_eq_ok.mp hentries
  cases hnil
  obtain ⟨digest, _, hdigest, hupdate⟩ := Action.run_bind_eq_ok.mp hentry
  rw [Action.run_lift, Prod.mk.injEq] at hdigest
  obtain ⟨-, rfl⟩ := hdigest
  cases hupdate
  exact ⟨⟨hoptions.1, hoptions.2.2⟩, digest, rfl⟩

/-- The resolver accepts the candidate of an entry with the installer's rank exactly where the
rules agree. -/
theorem resolver_agrees_iff {source : String} {index : ℕ} {isRegularFile : String → Bool}
    {options : CatalogLoadOptions} {request : ArtifactRequest}
    {candidates : List ArtifactCandidate} (hinstaller : validateEntry source index entry = .ok ())
    (hcandidates : (appendCandidates isRegularFile options [entry]).run [] = (.ok (), candidates))
    (hcarries : Carries request identity)
    (hmatches : ∀ candidate ∈ candidates, MatchesOtherwise request candidate) :
    (resolve candidates request).toOption.map ResolvedArtifact.targetMatchRank =
        catalogEntryMatchRank entry identity ↔ RulesAgree entry identity := by
  classical
  have haccepted := acceptedEntry_of_validateEntry hinstaller
  obtain ⟨hoptions, digest, rfl⟩ := appendCandidates_singleton hcandidates
  have hmatches := hmatches _ (List.mem_singleton_self _)
  have hprecision : (candidateOf isRegularFile options entry digest).artifact.precision = "fp16" :=
    haccepted.precision
  have hcomplete : request.Complete :=
    ⟨hmatches.codecId ▸ hoptions.1, hmatches.modelSetId ▸ haccepted.modelProfileId,
      hmatches.componentId ▸ hoptions.2, by
        rw [← hmatches.precision, hprecision]
        decide⟩
  rw [rulesAgree_iff haccepted, ← compatible_candidateOf_iff hcarries haccepted hmatches,
    catalogEntryMatchRank_eq haccepted, resolve_singleton hcomplete]
  by_cases hcompatible :
      Compatible request (candidateOf isRegularFile options entry digest)
  · rw [if_pos hcompatible, targetMatchRank_eq hcarries hcompatible.target]
    split_ifs with hinstalled
    · exact iff_of_true rfl ⟨fun _ => hinstalled, fun _ => hcompatible⟩
    · exact iff_of_false (by simp) fun h => hinstalled (h.mp hcompatible)
  · rw [if_neg hcompatible]
    split_ifs with hinstalled
    · exact iff_of_false (by simp) fun h => hcompatible (h.mpr hinstalled)
    · exact iff_of_true rfl ⟨fun h => absurd h hcompatible, fun h => absurd h hinstalled⟩

/-- An entry for one GPU, with a digest of zeros. -/
def catalogEntryFor (compatibility : HardwareCompatibility) (filename : String)
    (major minor multiprocessorCount : UInt32) : CatalogEntry where
  codecId := "dcvcrt"
  modelProfileId := "dcvcrt-cvpr2025"
  targetProfileId := "ada"
  engineProfileId := "720p"
  precision := "fp16"
  operatingSystem := "linux"
  architecture := "x86_64"
  deviceName := "NVIDIA Ada"
  filename := filename
  sizeBytes := 1
  sha256 := String.ofList (List.replicate 64 '0')
  computeCapabilityMajor := major
  computeCapabilityMinor := minor
  multiprocessorCount := multiprocessorCount
  cudaRuntimeVersion := 12060
  tensorrtVersionMajor := 10
  tensorrtVersionMinor := 3
  tensorrtVersionPatch := 0
  hardwareCompatibility := compatibility

def exactEntry : CatalogEntry :=
  catalogEntryFor .exact "nvcr-engines-ada-dcvcrt-cvpr2025-720p.tar.gz" 8 9 128

def adaIdentity (multiprocessorCount : ℕ) : DeviceIdentity where
  architecture := "x86_64"
  deviceName := "NVIDIA Ada"
  computeCapabilityMajor := 8
  computeCapabilityMinor := 9
  multiprocessorCount := multiprocessorCount
  cudaRuntimeVersion := 12060
  tensorrtVersionMajor := 10
  tensorrtVersionMinor := 3
  tensorrtVersionPatch := 0
  operatingSystem_eq := rfl
  architecture_mem := .inl rfl

def adaRequest : ArtifactRequest where
  codecId := "dcvcrt"
  modelSetId := "dcvcrt-cvpr2025"
  componentId := "engine-bundle"
  engineProfileId := "720p"
  targetDevice := "NVIDIA Ada"
  computeCapability := "8.9"
  operatingSystem := "linux"
  architecture := "x86_64"
  runtimeVersion := "10.3.0"
  cudaRuntimeVersion := 12060
  precision := "fp16"
  allowLicenseRestricted := true

def adaOptions : CatalogLoadOptions where
  codecId := "dcvcrt"
  artifactRoot := "/engines"

def exactCandidate : ArtifactCandidate :=
  candidateOf (fun _ => true) adaOptions exactEntry (hexBytes exactEntry.sha256.toList)

theorem resolver_agrees_on_exact :
    (resolve [exactCandidate] adaRequest).toOption.map ResolvedArtifact.targetMatchRank =
        catalogEntryMatchRank exactEntry (adaIdentity 128) ↔
      RulesAgree exactEntry (adaIdentity 128) := by
  have hvalid : validateEntry "catalog" 0 exactEntry = .ok () := by decide +kernel
  have hcandidates : (appendCandidates (fun _ => true) adaOptions [exactEntry]).run [] =
      (.ok (), [exactCandidate]) := by
    decide +kernel
  have hcarries : Carries adaRequest (adaIdentity 128) :=
    ⟨rfl, rfl, by decide +kernel, rfl, rfl, by decide +kernel, rfl⟩
  have hmatches : ∀ candidate ∈ [exactCandidate], MatchesOtherwise adaRequest candidate := by
    rintro candidate hmem
    cases List.mem_singleton.mp hmem
    exact ⟨rfl, rfl, rfl, rfl, .inl rfl, by decide, by decide, by decide, by decide, rfl,
      fun _ => rfl, .inl rfl, by decide +kernel⟩
  exact resolver_agrees_iff hvalid hcandidates hcarries hmatches

/-- An exact engine built for another number of multiprocessors passes both validators and the
resolver, but not the installer. -/
theorem resolver_ignores_multiprocessors :
    validateEntry "catalog" 0 exactEntry = .ok () ∧ checkEntry 0 exactEntry = .ok () ∧
      (appendCandidates (fun _ => true) adaOptions [exactEntry]).run [] =
        (.ok (), [exactCandidate]) ∧
      (resolve [exactCandidate] adaRequest).toOption.map ResolvedArtifact.targetMatchRank =
        some 0 ∧
      catalogEntryMatchRank exactEntry (adaIdentity 76) = none := by
  decide +kernel

end Agreement

end Nvcr.Artifacts
