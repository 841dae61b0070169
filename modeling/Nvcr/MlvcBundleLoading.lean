import Nvcr.CatalogEntries
import Nvcr.MlvcEntropy

/-!
# Loading an MLVC bundle

The bundle manifest, the metadata of each canvas, its tables and its two ONNX parts. The file
system is an environment: whether a path is a regular file, and the JSON document read from it.
A loaded bundle carries the order of its models and how they are named.
-/

namespace Nvcr.Mlvc

open StatefulResults Artifacts

section Documents

/-- Insertion into a map that is ordered by its keys; a key that is present is kept. -/
def emplace (entry : String × Value) : List (String × Value) → List (String × Value)
  | [] => [entry]
  | first :: rest =>
      if entry.1 < first.1 then entry :: first :: rest
      else if entry.1 = first.1 then first :: rest
      else first :: emplace entry rest

/-- The members of an object in the order of the map that holds them. -/
def mapEntries (members : List (String × Value)) : List (String × Value) :=
  members.foldl (fun entries entry => emplace entry entries) []

namespace Value

/-- The members of an object; other values have none. -/
def entries : Value → List (String × Value)
  | .object members => mapEntries members
  | _ => []

def isObject : Value → Bool
  | .object _ => true
  | _ => false

/-- A member that is absent or null. -/
def isAbsent (object : Value) (key : String) : Bool :=
  match object.find key with
  | none | some .null => true
  | some _ => false

end Value

def objectMember (object : Value) (key whereName : String) : Result Value := do
  let value ← member object key whereName
  require value.isObject (bundleError (whereName ++ "." ++ key ++ " must be an object"))
  pure value

/-- The files of a bundle directory as the loader meets them. -/
structure BundleFiles where
  isRegularFile : String → Bool
  parseFile : String → Result Value

def PlainFileName (name : String) : Prop :=
  name ≠ "" ∧ '/' ∉ name.toList ∧ '\\' ∉ name.toList ∧ name ≠ "." ∧ name ≠ ".."

instance (name : String) : Decidable (PlainFileName name) := by
  unfold PlainFileName
  infer_instance

/-- The path of a plain file name in the bundle root. -/
def bundleFile (files : BundleFiles) (root name : String) : Result String := do
  require (PlainFileName name)
    (bundleError ("bundle file name is not a plain file name: " ++ name))
  let path := joinPath root name
  require (files.isRegularFile path)
    ⟨.missingArtifact, "bundle file is missing: " ++ path, "mlvc.bundle"⟩
  pure path

end Documents

section ConversionMetadata

inductive Precision where
  | fp16
  | fp32
  deriving DecidableEq, Repr

def interfaceType : String := "fp16_scale_sending_no_reset_1p"

def splitType : String := "dmc61sbr_e1d1"

def encoderPart : String := "MLVCEncoder"

def decoderPart : String := "MLVCDecoder"

def encoderInputs : List String := ["x", "ref_feature", "q_index_shifted"]

def encoderOutputs : List String := ["feature", "z_raw", "y_raw_0", "y_raw_1"]

def decoderInputs : List String := ["z_raw", "y_raw_0", "y_raw_1", "ref_feature", "q_index_shifted"]

def decoderOutputs : List String := ["x_hat", "feature"]

def notImplemented (message : String) : Error := ⟨.notImplemented, message, "mlvc.bundle"⟩

/-- Older bundles list fields as strings, later ones as objects with a name and a layout. -/
def fieldName (name : String) (field : Value) : Result String :=
  match field with
  | .string value => .ok value
  | _ => do
      let fieldName ← stringMember field "name" name
      match field.find "layout" with
      | none | some .null | some (.string "nchw") => .ok fieldName
      | some _ => .error (notImplemented (name ++ " field " ++ fieldName ++ " is not NCHW"))

def checkFields (part : Value) (key : String) (expected : List String) (whereName : String) :
    Result Unit := do
  let fields ← member part key whereName
  let name := whereName ++ "." ++ key
  match fields with
  | .array elements => do
      let names ← elements.mapM (fieldName name)
      require (names.dedup.length = expected.length ∧ ∀ field ∈ expected, field ∈ names)
        (bundleError (name ++ " does not match the MLVC split interface"))
  | _ => .error (bundleError (name ++ " must be an array"))

/-- One model part: its precision, which must be that of the part before it, and its fields. -/
def checkPartMetadata (parts : Value) (whereName partName : String) (inputs outputs : List String)
    (previous : Option String) : Result String := do
  let partWhere := whereName ++ "." ++ partName
  let part ← objectMember parts partName whereName
  let precision ← stringMember part "precision" partWhere
  require (∀ other ∈ previous, other = precision)
    (bundleError (whereName ++ " parts use different precisions"))
  checkFields part "input_fields" inputs partWhere
  checkFields part "output_fields" outputs partWhere
  pure precision

def precisionOf (whereName precision : String) : Result Precision :=
  if precision = "fp16" then .ok .fp16
  else if precision = "fp32" then .ok .fp32
  else .error ⟨.incompatiblePrecision, whereName ++ " uses unsupported precision " ++ precision,
    "mlvc.bundle"⟩

/-- The metadata of a conversion; `whereName` is the name of its file. -/
def checkConversionMetadata (document : Value) (whereName : String)
    (parameters : ModelParameters) : Result Precision := do
  let params ← objectMember document "params" whereName
  let split ← objectMember params "split_model_params" (whereName ++ ".params")
  let splitName ← stringMember split "split_type" whereName
  require (splitName = splitType)
    (notImplemented (whereName ++ " uses unsupported split " ++ splitName))
  let width ← uintMember split "model_width" whereName
  let height ← uintMember split "model_height" whereName
  require (width = parameters.width ∧ height = parameters.height)
    (bundleError (whereName ++ " canvas does not match the bundle manifest"))
  let parts ← objectMember document "model_parts_metadata" whereName
  require (parts.entries.length = 2)
    (bundleError (whereName ++ " must describe exactly the encoder and decoder"))
  let first ← checkPartMetadata parts whereName encoderPart encoderInputs encoderOutputs none
  let precision ← checkPartMetadata parts whereName decoderPart decoderInputs decoderOutputs
    (some first)
  precisionOf whereName precision

end ConversionMetadata

section Parts

/-- A file name up to its last dot, and from there on. A name without a dot, or with only a
leading one, has no extension. -/
def splitExtension (name : List Char) : List Char × List Char :=
  let tail := (name.reverse.takeWhile (· != '.')).reverse
  let stem := name.take (name.length - tail.length - 1)
  if '.' ∉ name ∨ stem = [] then (name, []) else (stem, '.' :: tail)

def hexDigest (value : String) : Bool :=
  value.toList.length = 64 && value.toList.all fun c =>
    ('0' ≤ c && c ≤ '9') || ('a' ≤ c && c ≤ 'f')

def simpleIdCharacter (c : Char) : Bool :=
  ('a' ≤ c && c ≤ 'z') || ('A' ≤ c && c ≤ 'Z') || ('0' ≤ c && c ≤ '9') || c = '_'

structure ModelPart where
  componentId : String
  modelPath : String
  weightsPath : String
  sha256 : String
  deriving DecidableEq, Repr

def parsePart (files : BundleFiles) (root : String) (manifest modelParts : Value)
    (partName whereName : String) : Result ModelPart := do
  let part ← objectMember modelParts partName whereName
  require (part.isAbsent "function_name")
    (bundleError (whereName ++ " ONNX parts cannot name a function"))
  let registryId ← stringMember part "registry_id" whereName
  let registry ← objectMember manifest "model_registry" "bundle_manifest.json"
  let entry ← objectMember registry registryId "model_registry"
  let modelName ← stringMember entry "model_path" registryId
  let weightsName ← stringMember entry "weights_path" registryId
  let digest ← stringMember entry "sha256" registryId
  require (hexDigest digest) (bundleError (registryId ++ " has an invalid sha256"))
  let modelPath ← bundleFile files root modelName
  let weightsPath ← bundleFile files root weightsName
  let (stem, extension) := splitExtension modelName.toList
  require (extension = ".onnx".toList) (notImplemented (registryId ++ " is not an ONNX part"))
  require (stem ≠ [] ∧ stem.all simpleIdCharacter)
    (bundleError ("ONNX part name is not an identifier: " ++ modelName))
  pure ⟨String.ofList stem, modelPath, weightsPath, digest⟩

end Parts

section Models

/-- The bytes of a text; a text of the source is the string of its bytes. -/
def textBytes (text : String) : Bytes := text.toList.map fun c => UInt8.ofNat c.toNat

/-- The canvas of a model as its identifier in the bundle. -/
def canvasIdOf (width height : ℕ) : String := toString width ++ "x" ++ toString height

theorem matchTables_parameters {parameters : ModelParameters} {gaussian : GaussianPmf}
    {bitEstimator : BitEstimatorPmf} {whereName : String} {model : EntropyModel}
    (h : matchTables parameters gaussian bitEstimator whereName = .ok model) :
    model.parameters = parameters := by
  unfold matchTables at h
  split at h
  · cases h
  · cases h
    rfl

/-- One canvas of a bundle with all that was loaded for it. -/
structure LoadedModel where
  canvasId : String
  streamIdentity : Bytes
  precision : Precision
  encoder : ModelPart
  decoder : ModelPart
  entropy : EntropyModel
  canvas_id_eq : canvasId = canvasIdOf entropy.parameters.width entropy.parameters.height

namespace LoadedModel

def parameters (model : LoadedModel) : ModelParameters := model.entropy.parameters

/-- The part of a model that the sessions use to choose a canvas. -/
def bundleModel (model : LoadedModel) : BundleModel :=
  ⟨model.canvasId, model.streamIdentity, model.parameters⟩

def area (model : LoadedModel) : ℕ := model.parameters.width * model.parameters.height

/-- The order of the models of a bundle. -/
def precedes (left right : LoadedModel) : Prop :=
  if left.area ≠ right.area then left.area < right.area else left.canvasId < right.canvasId

instance (left right : LoadedModel) : Decidable (left.precedes right) := by
  unfold precedes
  infer_instance

end LoadedModel

def checkInterface (manifest : Value) (modelWhere key : String) : Result Unit := do
  let type ← stringMember manifest key modelWhere
  require (type = interfaceType)
    (notImplemented (modelWhere ++ " uses unsupported interface " ++ type))

/-- The tables of a model, whose documents are named by its manifest. -/
def loadTables (files : BundleFiles) (root : String) (manifest : Value) (modelWhere : String) :
    Result (GaussianPmf × BitEstimatorPmf) := do
  let gaussianName ← stringMember manifest "gaussian_pmf_path" modelWhere
  let gaussianPath ← bundleFile files root gaussianName
  let gaussianDocument ← files.parseFile gaussianPath
  let gaussian ← loadGaussian gaussianDocument gaussianName
  let bitName ← stringMember manifest "bit_estimator_pmf_path" modelWhere
  let bitPath ← bundleFile files root bitName
  let bitDocument ← files.parseFile bitPath
  let bitEstimator ← loadBitEstimator bitDocument bitName
  pure (gaussian, bitEstimator)

/-- The encoder and the decoder part of a model. -/
def loadParts (files : BundleFiles) (root : String) (document manifest : Value)
    (modelWhere : String) : Result (ModelPart × ModelPart) := do
  let parts ← objectMember manifest "model_parts" modelWhere
  require (parts.entries.length = 2)
    (bundleError (modelWhere ++ " must have exactly an encoder and a decoder"))
  let encoder ← parsePart files root document parts encoderPart modelWhere
  let decoder ← parsePart files root document parts decoderPart modelWhere
  pure (encoder, decoder)

/-- The checks on a model manifest before its parameters are read. -/
def checkModelManifest (manifest : Value) (modelWhere : String) : Result Unit := do
  require manifest.isObject (bundleError (modelWhere ++ " must be an object"))
  checkInterface manifest modelWhere "encoder_interface_type"
  checkInterface manifest modelWhere "decoder_interface_type"
  require (manifest.isAbsent "scale_decoder_model_path")
    (notImplemented (modelWhere ++ " requires a scale decoder model"))

/-- One turn of the loop over the models of the manifest. -/
def loadModel (files : BundleFiles) (root : String) (document metadata : Value)
    (bundleName : String) (entry : String × Value) : Result LoadedModel := do
  let canvasId := entry.1
  let manifest := entry.2
  let modelWhere := "model_manifests." ++ canvasId
  checkModelManifest manifest modelWhere
  let modelMetadata ← objectMember metadata canvasId "model_metadata"
  let parameters ← parseParameters modelMetadata ("model_metadata." ++ canvasId)
  if hid : canvasId ≠ canvasIdOf parameters.width parameters.height then
    .error (bundleError (modelWhere ++ " id does not match its canvas"))
  else do
    let metadataName ← stringMember manifest "metadata_path" modelWhere
    let metadataPath ← bundleFile files root metadataName
    let conversion ← files.parseFile metadataPath
    let precision ← checkConversionMetadata conversion metadataName parameters
    let (gaussian, bitEstimator) ← loadTables files root manifest modelWhere
    match hentropy : matchTables parameters gaussian bitEstimator modelWhere with
    | .error e => .error e
    | .ok entropy => do
        let (encoder, decoder) ← loadParts files root document manifest modelWhere
        pure
          { canvasId, precision, encoder, decoder, entropy
            streamIdentity := textBytes (bundleName ++ "-" ++ canvasId)
            canvas_id_eq := by
              rw [matchTables_parameters hentropy]
              exact not_not.mp hid }

theorem loadModel_eq_ok {files : BundleFiles} {root : String} {document metadata : Value}
    {bundleName : String} {entry : String × Value} {model : LoadedModel}
    (h : loadModel files root document metadata bundleName entry = .ok model) :
    model.canvasId = entry.1 ∧
    model.streamIdentity = textBytes (bundleName ++ "-" ++ entry.1) ∧
    ∃ modelMetadata,
      parseParameters modelMetadata ("model_metadata." ++ entry.1) = .ok model.parameters := by
  simp only [loadModel, bind_eq_ok] at h
  obtain ⟨_, -, modelMetadata, -, parameters, hparameters, h⟩ := h
  split at h
  · cases h
  simp only [bind_eq_ok] at h
  obtain ⟨_, -, _, -, _, -, precision, -, ⟨gaussian, bitEstimator⟩, -, h⟩ := h
  split at h
  · cases h
  rename_i entropy hentropy
  simp only [bind_eq_ok] at h
  obtain ⟨⟨encoder, decoder⟩, -, h⟩ := h
  cases h
  refine ⟨rfl, rfl, modelMetadata, ?_⟩
  rw [hparameters]
  exact congrArg _ (matchTables_parameters hentropy).symm

end Models

section Bundles

theorem emplace_keys {entry : String × Value} {entries : List (String × Value)}
    {key : String} (h : key ∈ (emplace entry entries).map Prod.fst) :
    key = entry.1 ∨ key ∈ entries.map Prod.fst := by
  induction entries with
  | nil => simpa [emplace] using h
  | cons first rest ih =>
      rw [emplace] at h
      split at h
      · simpa using h
      split at h
      · exact .inr h
      · rcases List.mem_cons.mp h with rfl | hrest
        · exact .inr List.mem_cons_self
        · exact (ih hrest).imp_right (List.mem_cons_of_mem _)

theorem emplace_ordered (entry : String × Value) {entries : List (String × Value)}
    (h : (entries.map Prod.fst).Pairwise (· < ·)) :
    ((emplace entry entries).map Prod.fst).Pairwise (· < ·) := by
  induction entries with
  | nil => simp [emplace]
  | cons first rest ih =>
      obtain ⟨hfirst, hrest⟩ := List.pairwise_cons.mp h
      rw [emplace]
      split
      · rename_i hlt
        refine List.pairwise_cons.mpr ⟨?_, h⟩
        intro key hkey
        rcases List.mem_cons.mp hkey with rfl | hkey
        · exact hlt
        · exact hlt.trans (hfirst key hkey)
      · rename_i hlt
        split
        · exact h
        · rename_i hne
          refine List.pairwise_cons.mpr ⟨?_, ih hrest⟩
          intro key hkey
          rcases emplace_keys hkey with rfl | hkey
          · exact lt_of_le_of_ne (not_lt.mp hlt) (Ne.symm hne)
          · exact hfirst key hkey

/-- A map holds each key once. -/
theorem mapEntries_ordered (members : List (String × Value)) :
    ((mapEntries members).map Prod.fst).Pairwise (· < ·) := by
  suffices h : ∀ entries : List (String × Value), (entries.map Prod.fst).Pairwise (· < ·) →
      ((members.foldl (fun entries entry => emplace entry entries) entries).map
        Prod.fst).Pairwise (· < ·) from h [] .nil
  induction members with
  | nil => exact fun _ h => h
  | cons entry members ih => exact fun entries h => ih _ (emplace_ordered entry h)

theorem Value.entries_nodup (object : Value) : (object.entries.map Prod.fst).Nodup := by
  cases object with
  | object members => exact (mapEntries_ordered members).imp ne_of_lt
  | _ => exact .nil

variable {files : BundleFiles} {root : String} {document metadata : Value} {bundleName : String}

theorem loadModels_eq_ok {entries : List (String × Value)} {models : List LoadedModel}
    (h : entries.mapM (loadModel files root document metadata bundleName) = .ok models) :
    models.map LoadedModel.canvasId = entries.map Prod.fst ∧
    ∀ model ∈ models,
      model.streamIdentity = textBytes (bundleName ++ "-" ++ model.canvasId) ∧
      ∃ modelMetadata,
        parseParameters modelMetadata ("model_metadata." ++ model.canvasId) =
          .ok model.parameters := by
  induction entries generalizing models with
  | nil =>
      cases h
      exact ⟨rfl, fun _ hmodel => (nomatch hmodel)⟩
  | cons entry entries ih =>
      simp only [List.mapM_cons, bind_eq_ok] at h
      obtain ⟨model, hmodel, rest, hrest, h⟩ := h
      cases h
      obtain ⟨hid, hidentity, hparameters⟩ := loadModel_eq_ok hmodel
      obtain ⟨hids, hall⟩ := ih hrest
      refine ⟨by simp [hid, hids], List.forall_mem_cons.mpr ⟨?_, hall⟩⟩
      rw [hid]
      exact ⟨hidentity, hparameters⟩

/-- The key that orders the models of a bundle. -/
def LoadedModel.rank (model : LoadedModel) : ℕ ×ₗ String := toLex (model.area, model.canvasId)

theorem LoadedModel.precedes_iff {left right : LoadedModel} :
    left.precedes right ↔ left.rank < right.rank := by
  rw [rank, rank, Prod.Lex.toLex_lt_toLex, precedes]
  by_cases harea : left.area = right.area
  · simp [harea]
  · simp [harea]

/-- Whether a model may stand before another one. -/
def LoadedModel.InOrder (left right : LoadedModel) : Prop := ¬ right.precedes left

instance : DecidableRel LoadedModel.InOrder := fun left right =>
  inferInstanceAs (Decidable (¬ right.precedes left))

theorem LoadedModel.inOrder_iff {left right : LoadedModel} :
    left.InOrder right ↔ left.rank ≤ right.rank := by
  rw [InOrder, precedes_iff, not_lt]

instance : Std.Total LoadedModel.InOrder where
  total left right := by
    rw [LoadedModel.inOrder_iff, LoadedModel.inOrder_iff]
    exact le_total _ _

instance : IsTrans LoadedModel LoadedModel.InOrder where
  trans _ _ _ h h' :=
    LoadedModel.inOrder_iff.mpr
      ((LoadedModel.inOrder_iff.mp h).trans (LoadedModel.inOrder_iff.mp h'))

/-- The models in ascending order of their canvas areas. -/
def sortModels (models : List LoadedModel) : List LoadedModel :=
  models.insertionSort LoadedModel.InOrder

theorem sortModels_perm (models : List LoadedModel) : (sortModels models).Perm models :=
  List.perm_insertionSort LoadedModel.InOrder models

theorem sortModels_eq_nil {models : List LoadedModel} : sortModels models = [] ↔ models = [] := by
  rw [← List.length_eq_zero_iff, (sortModels_perm models).length_eq, List.length_eq_zero_iff]

theorem sortModels_ordered {models : List LoadedModel}
    (h : (models.map LoadedModel.canvasId).Nodup) :
    (sortModels models).Pairwise LoadedModel.precedes := by
  have hdistinct : (sortModels models).Pairwise fun left right => left.canvasId ≠ right.canvasId :=
    List.pairwise_map.mp (((sortModels_perm models).map LoadedModel.canvasId).nodup_iff.mpr h)
  have hsorted : (sortModels models).Pairwise LoadedModel.InOrder :=
    List.pairwise_insertionSort LoadedModel.InOrder models
  refine hsorted.imp₂ ?_ hdistinct
  intro left right horder hne
  rw [LoadedModel.precedes_iff]
  refine lt_of_le_of_ne (LoadedModel.inOrder_iff.mp horder) fun hrank => hne ?_
  exact congrArg (fun rank => (ofLex rank).2) hrank

/-- A loaded bundle: its models are in strict order, and a model's identity in a stream is made
from the names of the bundle and of the canvas. -/
structure Bundle where
  root : String
  name : String
  targetDevice : String
  models : List LoadedModel
  models_ne : models ≠ []
  identity_eq : ∀ model ∈ models,
    model.streamIdentity = textBytes (name ++ "-" ++ model.canvasId)
  ordered : models.Pairwise LoadedModel.precedes

/-- The models as the sessions see them. -/
def Bundle.bundleModels (bundle : Bundle) : List BundleModel :=
  bundle.models.map LoadedModel.bundleModel

/-- The bundle of the models that the manifest lists. -/
def assembleBundle (files : BundleFiles) (root name targetDevice : String)
    (document manifests metadata : Value) : Result Bundle :=
  match hmodels : manifests.entries.mapM (loadModel files root document metadata name) with
  | .error e => .error e
  | .ok models =>
      if hne : models = [] then
        .error (bundleError "bundle has no models")
      else
        .ok
          { root, name, targetDevice
            models := sortModels models
            models_ne := fun h => hne (sortModels_eq_nil.mp h)
            identity_eq := fun model hmodel =>
              ((loadModels_eq_ok hmodels).2 model ((sortModels_perm models).mem_iff.mp hmodel)).1
            ordered := sortModels_ordered
              ((loadModels_eq_ok hmodels).1 ▸ manifests.entries_nodup) }

def loadBundle (files : BundleFiles) (root : String) : Result Bundle := do
  let whereName := "bundle_manifest.json"
  let manifestPath ← bundleFile files root whereName
  let document ← files.parseFile manifestPath
  let name ← stringMember document "bundle_name" whereName
  let modelType ← stringMember document "model_type" whereName
  let target ← stringMember document "target_device" whereName
  require (modelType = "onnx")
    ⟨.incompatibleTarget, "NVCR runs ONNX MLVC bundles; this bundle is " ++ modelType,
      "mlvc.bundle"⟩
  let manifests ← objectMember document "model_manifests" whereName
  let metadata ← objectMember document "model_metadata" whereName
  assembleBundle files root name target document manifests metadata

/-- The parameters of every model of a loaded bundle were accepted by the reader. -/
theorem loadBundle_parameters {bundle : Bundle} (h : loadBundle files root = .ok bundle) :
    ∀ model ∈ bundle.models, ∃ modelMetadata,
      parseParameters modelMetadata ("model_metadata." ++ model.canvasId) =
        .ok model.parameters := by
  simp only [loadBundle, bind_eq_ok] at h
  obtain ⟨_, -, _, -, name, -, _, -, _, -, _, -, manifests, -, metadata, -, h⟩ := h
  unfold assembleBundle at h
  split at h
  · cases h
  rename_i models hmodels
  split at h
  · cases h
  cases h
  exact fun model hmodel =>
    ((loadModels_eq_ok hmodels).2 model ((sortModels_perm models).mem_iff.mp hmodel)).2

end Bundles

section Example

def naturalNumber (n : ℕ) : Value := .number n (some n)

def naturalNumbers (values : List ℕ) : Value := .array (values.map naturalNumber)

def texts (values : List String) : Value := .array (values.map .string)

/-- Metadata of a canvas with two quality shifts and the given strides. -/
def exampleStrides (width height downsampleLatent downsampleHyperprior : ℕ) : Value := .object
  [("model_width", naturalNumber width), ("model_height", naturalNumber height),
    ("qp_num", naturalNumber 4), ("total_qp_num", naturalNumber 8),
    ("feature_channels", naturalNumber 1), ("latent_channels", naturalNumber 2),
    ("hyperprior_channels", naturalNumber 2), ("downsample_feature", naturalNumber 8),
    ("downsample_latent", naturalNumber downsampleLatent),
    ("downsample_hyperprior", naturalNumber downsampleHyperprior),
    ("y_scale_repeat", naturalNumber 1), ("ltr_start_idx", naturalNumber 0),
    ("frame_index_map", naturalNumbers [0, 1]), ("qp_shift", naturalNumbers [0, 3]),
    ("scale_decoder_type", .string "upsample"), ("pixel_range", naturalNumber 1)]

def exampleMetadata (width height : ℕ) : Value := exampleStrides width height 16 4

def exampleConversion (width height : ℕ) : Value := .object
  [("params", .object [("split_model_params", .object
      [("split_type", .string splitType), ("model_width", naturalNumber width),
        ("model_height", naturalNumber height)])]),
    ("model_parts_metadata", .object
      [(encoderPart, .object [("precision", .string "fp16"),
          ("input_fields", texts encoderInputs), ("output_fields", texts encoderOutputs)]),
        (decoderPart, .object [("precision", .string "fp16"),
          ("input_fields", texts decoderInputs), ("output_fields", texts decoderOutputs)])])]

/-- One table with the same two symbols for every distribution. -/
def examplePmf (count : ℕ) : List (String × Value) :=
  [("pmf_lengths", naturalNumbers (List.replicate count 2)),
    ("pmf_offsets", naturalNumbers (List.replicate count 0)),
    ("pmf_table", naturalNumbers (List.replicate (2 * count) 32768))]

def exampleGaussian : Value := .object
  (examplePmf 1 ++ [("scale_levels", naturalNumber 1), ("index_space", .boolean true)])

def exampleBitEstimator : Value := .object
  (examplePmf 8 ++ [("qp_num", naturalNumber 4), ("channels", naturalNumber 2)])

def exampleModelManifest (canvasId : String) : Value := .object
  [("encoder_interface_type", .string interfaceType),
    ("decoder_interface_type", .string interfaceType),
    ("metadata_path", .string ("metadata_" ++ canvasId ++ ".json")),
    ("gaussian_pmf_path", .string "gaussian.json"),
    ("bit_estimator_pmf_path", .string "bits.json"),
    ("model_parts", .object
      [(encoderPart, .object [("registry_id", .string "e")]),
        (decoderPart, .object [("registry_id", .string "d")])])]

def exampleRegistryEntry (stem : String) : Value := .object
  [("model_path", .string (stem ++ ".onnx")), ("weights_path", .string "weights.bin"),
    ("sha256", .string (String.ofList (List.replicate 64 '0')))]

def exampleManifest (bundleName : String) (canvases : List (ℕ × ℕ)) : Value := .object
  [("bundle_name", .string bundleName), ("model_type", .string "onnx"),
    ("target_device", .string "cpu"),
    ("model_manifests", .object (canvases.map fun canvas =>
      (canvasIdOf canvas.1 canvas.2, exampleModelManifest (canvasIdOf canvas.1 canvas.2)))),
    ("model_metadata", .object (canvases.map fun canvas =>
      (canvasIdOf canvas.1 canvas.2, exampleMetadata canvas.1 canvas.2))),
    ("model_registry", .object
      [("e", exampleRegistryEntry "encoder"), ("d", exampleRegistryEntry "decoder")])]

/-- The files of a bundle with the given name and canvases. -/
def exampleFiles (bundleName : String) (canvases : List (ℕ × ℕ)) : BundleFiles where
  isRegularFile _ := true
  parseFile path :=
    if path = "b/bundle_manifest.json" then .ok (exampleManifest bundleName canvases)
    else if path = "b/gaussian.json" then .ok exampleGaussian
    else if path = "b/bits.json" then .ok exampleBitEstimator
    else
      match canvases.find? fun canvas =>
          path = "b/metadata_" ++ canvasIdOf canvas.1 canvas.2 ++ ".json" with
      | some canvas => .ok (exampleConversion canvas.1 canvas.2)
      | none => .error ⟨.missingArtifact, "cannot open " ++ path, "mlvc.bundle"⟩

example : (loadBundle (exampleFiles "demo" [(64, 32), (32, 64), (32, 32)]) "b").map
    (fun bundle => bundle.models.map LoadedModel.canvasId) =
      .ok ["32x32", "32x64", "64x32"] := by decide +kernel

end Example

end Nvcr.Mlvc
