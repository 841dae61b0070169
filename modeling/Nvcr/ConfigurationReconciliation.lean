import Nvcr.Configuration

/-!
# What reconciling keeps

The scoped fields are named by an enumeration, so that the laws of the merge are statements
about all of them. Loading a file reconciles the configuration; a later assignment of a default
then loses against the copy of the loaded value.
-/

namespace Nvcr.Configuration

open StatefulResults PairedSettings RuntimeConfiguration

inductive ScopedField where
  | memoryPoolBytes
  | maxPacketBytes
  | logLevel
  | codecId
  | intraQp
  | gopSize
  | verifyEncoderReconstruction
  | providerId
  | deviceId
  | deviceArenaBytes
  | tensorrtExecutionMode
  | enableProfiling
  | intraEnginePath
  | predictedEnginePath
  | entropyModelPath
  | modelId
  | codecApiVersion
  | providerApiVersion
  | modelSetVersion
  | manifestSchemaVersion
  | bitstreamModelId
  | streamFormatVersion
  | payloadSyntaxVersion
  | allowLegacyAccessUnits
  deriving DecidableEq, Repr

namespace ScopedField

abbrev Value : ScopedField → Type
  | memoryPoolBytes | maxPacketBytes | deviceArenaBytes => UInt64
  | logLevel => LogLevel
  | codecId | providerId | intraEnginePath | predictedEnginePath | entropyModelPath | modelId
  | bitstreamModelId => String
  | intraQp | gopSize => UInt32
  | verifyEncoderReconstruction | enableProfiling | allowLegacyAccessUnits => Bool
  | deviceId => Int32
  | tensorrtExecutionMode => TensorRtExecutionMode
  | codecApiVersion => Artifacts.CodecApiVersion
  | providerApiVersion => Artifacts.ProviderApiVersion
  | modelSetVersion => Artifacts.ModelSetVersion
  | manifestSchemaVersion => Artifacts.ManifestSchemaVersion
  | streamFormatVersion => StreamFormatVersion
  | payloadSyntaxVersion => PayloadSyntaxVersion

/-- The value of a scoped field. -/
def get (c : RuntimeConfiguration) : (field : ScopedField) → field.Value
  | memoryPoolBytes => c.runtime.memoryPoolBytes
  | maxPacketBytes => c.runtime.maxPacketBytes
  | logLevel => c.runtime.logLevel
  | codecId => c.codec.id
  | intraQp => c.codec.intraQp
  | gopSize => c.codec.gopSize
  | verifyEncoderReconstruction => c.codec.verifyEncoderReconstruction
  | providerId => c.provider.id
  | deviceId => c.provider.deviceId
  | deviceArenaBytes => c.provider.deviceArenaBytes
  | tensorrtExecutionMode => c.provider.tensorrtExecutionMode
  | enableProfiling => c.provider.enableProfiling
  | intraEnginePath => c.artifacts.intraEnginePath
  | predictedEnginePath => c.artifacts.predictedEnginePath
  | entropyModelPath => c.artifacts.entropyModelPath
  | modelId => c.artifacts.modelId
  | codecApiVersion => c.artifacts.codecApiVersion
  | providerApiVersion => c.artifacts.providerApiVersion
  | modelSetVersion => c.artifacts.modelSetVersion
  | manifestSchemaVersion => c.artifacts.manifestSchemaVersion
  | bitstreamModelId => c.stream.bitstreamModelId
  | streamFormatVersion => c.stream.streamFormatVersion
  | payloadSyntaxVersion => c.stream.payloadSyntaxVersion
  | allowLegacyAccessUnits => c.stream.allowLegacyAccessUnits

/-- The legacy counterpart of a scoped field; the codec id has none. -/
def legacy (c : RuntimeConfiguration) : (field : ScopedField) → Option field.Value
  | memoryPoolBytes => some c.memoryPoolBytes
  | maxPacketBytes => some c.maxPacketBytes
  | logLevel => some c.logLevel
  | codecId => none
  | intraQp => some c.intraQp
  | gopSize => some c.gopSize
  | verifyEncoderReconstruction => some c.verifyEncoderReconstruction
  | providerId => some c.providerId
  | deviceId => some c.deviceId
  | deviceArenaBytes => some c.deviceArenaBytes
  | tensorrtExecutionMode => some c.tensorrtExecutionMode
  | enableProfiling => some c.enableProfiling
  | intraEnginePath => some c.intraEnginePath
  | predictedEnginePath => some c.predictedEnginePath
  | entropyModelPath => some c.entropyModelPath
  | modelId => some c.modelId
  | codecApiVersion => some c.codecApiVersion
  | providerApiVersion => some c.providerApiVersion
  | modelSetVersion => some c.modelSetVersion
  | manifestSchemaVersion => some c.manifestSchemaVersion
  | bitstreamModelId => some c.bitstreamModelId
  | streamFormatVersion => some c.streamFormatVersion
  | payloadSyntaxVersion => some c.payloadSyntaxVersion
  | allowLegacyAccessUnits => some c.allowLegacyAccessUnits

/-- Assign a scoped field. -/
def assign (c : RuntimeConfiguration) :
    (field : ScopedField) → field.Value → RuntimeConfiguration
  | memoryPoolBytes, value => { c with runtime.memoryPoolBytes := value }
  | maxPacketBytes, value => { c with runtime.maxPacketBytes := value }
  | logLevel, value => { c with runtime.logLevel := value }
  | codecId, value => { c with codec.id := value }
  | intraQp, value => { c with codec.intraQp := value }
  | gopSize, value => { c with codec.gopSize := value }
  | verifyEncoderReconstruction, value => { c with codec.verifyEncoderReconstruction := value }
  | providerId, value => { c with provider.id := value }
  | deviceId, value => { c with provider.deviceId := value }
  | deviceArenaBytes, value => { c with provider.deviceArenaBytes := value }
  | tensorrtExecutionMode, value => { c with provider.tensorrtExecutionMode := value }
  | enableProfiling, value => { c with provider.enableProfiling := value }
  | intraEnginePath, value => { c with artifacts.intraEnginePath := value }
  | predictedEnginePath, value => { c with artifacts.predictedEnginePath := value }
  | entropyModelPath, value => { c with artifacts.entropyModelPath := value }
  | modelId, value => { c with artifacts.modelId := value }
  | codecApiVersion, value => { c with artifacts.codecApiVersion := value }
  | providerApiVersion, value => { c with artifacts.providerApiVersion := value }
  | modelSetVersion, value => { c with artifacts.modelSetVersion := value }
  | manifestSchemaVersion, value => { c with artifacts.manifestSchemaVersion := value }
  | bitstreamModelId, value => { c with stream.bitstreamModelId := value }
  | streamFormatVersion, value => { c with stream.streamFormatVersion := value }
  | payloadSyntaxVersion, value => { c with stream.payloadSyntaxVersion := value }
  | allowLegacyAccessUnits, value => { c with stream.allowLegacyAccessUnits := value }

instance (field : ScopedField) : DecidableEq field.Value := by
  cases field <;> exact inferInstance

/-- The default of a field. -/
def default (field : ScopedField) : field.Value := get defaults field

variable (c : RuntimeConfiguration) (field : ScopedField)

@[simp] theorem get_assign (value : field.Value) : get (assign c field value) field = value := by
  cases field <;> rfl

@[simp] theorem legacy_assign (value : field.Value) :
    legacy (assign c field value) field = legacy c field := by
  cases field <;> rfl

/-- Reconciling merges each field with its legacy counterpart. -/
theorem get_reconcile : get c.reconcileLegacyFields field =
    match legacy c field with
    | some old => merged (default field) (get c field) old
    | none => get c field := by
  cases field <;> rfl

theorem legacy_reconcile : legacy c.reconcileLegacyFields field =
    (legacy c field).map fun _ => get c.reconcileLegacyFields field := by
  cases field <;> rfl

end ScopedField

section Idempotence

variable (runtime : RuntimeOptions) (codec : CodecConfiguration) (provider : ProviderConfiguration)
  (artifacts : ArtifactSelection) (stream : StreamPolicy)

theorem mergedRuntime_withScoped :
    (withScoped runtime codec provider artifacts stream).mergedRuntime = runtime := by
  simp only [mergedRuntime, withScoped, merged_self]

theorem mergedCodec_withScoped :
    (withScoped runtime codec provider artifacts stream).mergedCodec = codec := by
  simp only [mergedCodec, withScoped, merged_self]

theorem mergedProvider_withScoped :
    (withScoped runtime codec provider artifacts stream).mergedProvider = provider := by
  simp only [mergedProvider, withScoped, merged_self]

theorem mergedArtifacts_withScoped :
    (withScoped runtime codec provider artifacts stream).mergedArtifacts = artifacts := by
  simp only [mergedArtifacts, withScoped, merged_self]

theorem mergedStream_withScoped :
    (withScoped runtime codec provider artifacts stream).mergedStream = stream := by
  simp only [mergedStream, withScoped, merged_self]

theorem reconcile_reconcile (c : RuntimeConfiguration) :
    c.reconcileLegacyFields.reconcileLegacyFields = c.reconcileLegacyFields := by
  conv_lhs => rw [reconcileLegacyFields]
  rw [reconcileLegacyFields, mergedRuntime_withScoped, mergedCodec_withScoped,
    mergedProvider_withScoped, mergedArtifacts_withScoped, mergedStream_withScoped]

end Idempotence

section Loading

variable {files : String → InputText} {path : String} {c : RuntimeConfiguration}

/-- A loaded configuration has been reconciled. -/
theorem reconcile_of_fromFile (h : fromFile files path = .ok c) : c.reconcileLegacyFields = c := by
  obtain ⟨_, -, hopened⟩ := bind_eq_ok.mp h
  obtain ⟨configuration, -, happlied⟩ := bind_eq_ok.mp hopened
  obtain ⟨_, -, hread⟩ := bind_eq_ok.mp happlied
  obtain ⟨_, -, hvalid⟩ := bind_eq_ok.mp hread
  cases hvalid
  exact reconcile_reconcile configuration

/-- An assignment to a reconciled configuration survives the next merge unless it restores the
default of a field that had another value. -/
theorem get_reconcile_assign (hreconciled : c.reconcileLegacyFields = c) (field : ScopedField)
    (value : field.Value) :
    field.get (field.assign c value).reconcileLegacyFields = value ↔
      field = .codecId ∨ value ≠ field.default ∨ field.get c = field.default := by
  have hlegacy : field.legacy c = (field.legacy c).map fun _ => field.get c := by
    conv_lhs => rw [← hreconciled, ScopedField.legacy_reconcile, hreconciled]
  rw [ScopedField.get_reconcile, ScopedField.legacy_assign, ScopedField.get_assign]
  cases hold : field.legacy c with
  | none =>
      have hcodec : field = .codecId := by
        cases field <;> first | rfl | cases hold
      simp [hcodec]
  | some old =>
      rw [hold, Option.map_some, Option.some.injEq] at hlegacy
      have hcodec : field ≠ .codecId := by
        rintro rfl
        cases hold
      simp only [merged_eq_newer_iff, hlegacy, hcodec, false_or]

end Loading

/-- The laws of the merge: it is idempotent, makes the two copies of every setting equal, lets a
scoped value that is not the default win, and carries a legacy value over a scoped default. An
assignment after loading a file is kept exactly if it does not restore a default that the file
had changed. -/
theorem reconcile_laws (c : RuntimeConfiguration) :
    c.reconcileLegacyFields.reconcileLegacyFields = c.reconcileLegacyFields ∧
      (∀ (field : ScopedField) (old : field.Value),
        field.legacy c.reconcileLegacyFields = some old →
          field.get c.reconcileLegacyFields = old) ∧
      (∀ field : ScopedField, field.get c ≠ field.default →
        field.get c.reconcileLegacyFields = field.get c) ∧
      (∀ (field : ScopedField) (old : field.Value), field.legacy c = some old →
        field.get c = field.default → old ≠ field.default →
          field.get c.reconcileLegacyFields = old) ∧
      ∀ (files : String → InputText) (path : String), fromFile files path = .ok c →
        ∀ (field : ScopedField) (value : field.Value),
          field.get (field.assign c value).reconcileLegacyFields = value ↔
            field = .codecId ∨ value ≠ field.default ∨ field.get c = field.default := by
  refine ⟨reconcile_reconcile c, ?_, ?_, ?_, ?_⟩
  · intro field old hold
    rw [ScopedField.legacy_reconcile, Option.map_eq_some_iff] at hold
    obtain ⟨_, -, hvalue⟩ := hold
    exact hvalue
  · intro field hscoped
    rw [ScopedField.get_reconcile]
    cases field.legacy c with
    | none => rfl
    | some old => exact merged_of_newer hscoped
  · intro field old hold hscoped hlegacy
    rw [ScopedField.get_reconcile, hold]
    exact merged_of_older hscoped hlegacy
  · intro files path hloaded
    exact get_reconcile_assign (reconcile_of_fromFile hloaded)

/-- A file with the given lines. -/
def linesFile (lines : List String) (_path : String) : InputText :=
  ⟨true, lines.map String.toList, false⟩

/-- A quality of 32 assigned over a file's 40 is lost. -/
theorem assigned_default_lost :
    ∃ c, fromFile (linesFile ["intra_qp = 40"]) "nvcr.conf" = .ok c ∧
      (ScopedField.assign c .intraQp 32).reconcileLegacyFields.codec.intraQp = 40 := by
  refine ⟨RuntimeConfiguration.reconcileLegacyFields { codec.intraQp := 40 }, ?_, rfl⟩
  decide +kernel

end Nvcr.Configuration
