import Nvcr.Frames
import Nvcr.StatefulResults

/-!
# MLVC model parameters

The parameters of one canvas as read from the bundle metadata. A parameter record carries
what the reader has checked about its Q schedule and its periods.
-/

namespace Nvcr.Mlvc

open StatefulResults

/-- A JSON document. A number keeps its value and, when the token is an integer that fits 64
bits, the exact integer. -/
inductive Value where
  | null
  | boolean (value : Bool)
  | number (value : ℚ) (integer : Option ℤ)
  | string (value : String)
  | array (elements : List Value)
  | object (members : List (String × Value))

namespace Value

def find (object : Value) (key : String) : Option Value :=
  match object with
  | .object members => members.lookup key
  | _ => none

end Value

def bundleError (message : String) : Error := ⟨.invalidArgument, message, "mlvc.bundle"⟩

def member (object : Value) (key whereName : String) : Result Value :=
  match object.find key with
  | none => .error (bundleError (whereName ++ " is missing '" ++ key ++ "'"))
  | some value => .ok value

def stringMember (object : Value) (key whereName : String) : Result String := do
  match ← member object key whereName with
  | .string value => .ok value
  | _ => .error (bundleError (whereName ++ "." ++ key ++ " must be a string"))

def asUint (value : Value) (whereName : String) : Result ℕ :=
  match value with
  | .number _ (some integer) =>
      if integer < 0 ∨ integer > 4294967295 then
        .error (bundleError (whereName ++ " must be a non-negative integer"))
      else
        .ok integer.toNat
  | _ => .error (bundleError (whereName ++ " must be a non-negative integer"))

def uintMember (object : Value) (key whereName : String) : Result ℕ := do
  asUint (← member object key whereName) (whereName ++ "." ++ key)

def optionalUintMember (object : Value) (key whereName : String) : Result (Option ℕ) :=
  match object.find key with
  | none => .ok none
  | some .null => .ok none
  | some value => do
      let parsed ← asUint value (whereName ++ "." ++ key)
      .ok (some parsed)

/-- The elements of an array of unsigned 32-bit integers, in order. -/
def intArray (name : String) : List Value → Result (List ℕ)
  | [] => .ok []
  | .number _ (some integer) :: rest =>
      if integer < 0 ∨ integer > 4294967295 then
        .error (bundleError (name ++ " must contain integers in range"))
      else do
        let tail ← intArray name rest
        .ok (integer.toNat :: tail)
  | _ :: _ => .error (bundleError (name ++ " must contain integers in range"))

def intArrayMember (object : Value) (key whereName : String) : Result (List ℕ) := do
  let value ← member object key whereName
  let name := whereName ++ "." ++ key
  match value with
  | .array elements => intArray name elements
  | _ => .error (bundleError (name ++ " must be an array"))

/-- The parameters of one canvas, before any consistency check. -/
structure RawParameters where
  width : ℕ
  height : ℕ
  qpNum : ℕ
  totalQpNum : ℕ
  frameIndexMap : List ℕ
  qpShift : List ℕ
  featureChannels : ℕ
  latentChannels : ℕ
  hyperpriorChannels : ℕ
  downsampleFeature : ℕ
  downsampleLatent : ℕ
  downsampleHyperprior : ℕ
  yScaleRepeat : ℕ
  iframePeriod : Option ℕ
  resetPeriod : Option ℕ
  ltrStartIdx : ℕ
  ltrPeriod : Option ℕ
  deriving DecidableEq, Repr

namespace RawParameters

def ShapesValid (p : RawParameters) : Prop :=
  p.width > 0 ∧ p.height > 0 ∧ p.downsampleLatent > 0 ∧
  p.downsampleFeature > 0 ∧ p.downsampleHyperprior > 0 ∧
  p.width % p.downsampleLatent = 0 ∧ p.height % p.downsampleLatent = 0 ∧
  p.width % p.downsampleFeature = 0 ∧ p.height % p.downsampleFeature = 0 ∧
  p.featureChannels > 0 ∧ p.latentChannels > 0 ∧ p.latentChannels % 2 = 0 ∧
  p.yScaleRepeat > 0 ∧ p.latentChannels % p.yScaleRepeat = 0 ∧
  p.latentChannels / p.yScaleRepeat ≤ p.hyperpriorChannels

instance (p : RawParameters) : Decidable p.ShapesValid := by
  unfold ShapesValid
  infer_instance

/-- The largest shift reached through the frame index map. -/
def maximumShift (p : RawParameters) : ℕ :=
  p.frameIndexMap.foldl (fun shift index => max shift (p.qpShift.getD index 0)) 0

def NonzeroPeriod (period : Option ℕ) : Prop := ∀ n ∈ period, 0 < n

instance (period : Option ℕ) : Decidable (NonzeroPeriod period) := by
  unfold NonzeroPeriod
  infer_instance

end RawParameters

open RawParameters in
/-- The parameters of one canvas as the bundle reader accepts them. -/
structure ModelParameters extends RawParameters where
  shapes_valid : toRawParameters.ShapesValid
  qp_num_ne : qpNum ≠ 0
  frame_index_map_ne : frameIndexMap ≠ []
  frame_index_map_lt : ∀ index ∈ frameIndexMap, index < qpShift.length
  shifted_lt : qpNum - 1 + toRawParameters.maximumShift < totalQpNum
  iframe_period_ne : NonzeroPeriod iframePeriod
  reset_period_ne : NonzeroPeriod resetPeriod
  ltr_period_ne : NonzeroPeriod ltrPeriod

/-- Read the fields of the metadata, in the order of the source. -/
def readParameters (metadata : Value) (whereName : String) : Result RawParameters := do
  let width ← uintMember metadata "model_width" whereName
  let height ← uintMember metadata "model_height" whereName
  let qpNum ← uintMember metadata "qp_num" whereName
  let totalQpNum ← uintMember metadata "total_qp_num" whereName
  let featureChannels ← uintMember metadata "feature_channels" whereName
  let latentChannels ← uintMember metadata "latent_channels" whereName
  let hyperpriorChannels ← uintMember metadata "hyperprior_channels" whereName
  let downsampleFeature ← uintMember metadata "downsample_feature" whereName
  let downsampleLatent ← uintMember metadata "downsample_latent" whereName
  let downsampleHyperprior ← uintMember metadata "downsample_hyperprior" whereName
  let yScaleRepeat ← uintMember metadata "y_scale_repeat" whereName
  let ltrStartIdx ← uintMember metadata "ltr_start_idx" whereName
  let frameIndexMap ← intArrayMember metadata "frame_index_map" whereName
  let qpShift ← intArrayMember metadata "qp_shift" whereName
  let iframePeriod ← optionalUintMember metadata "iframe_period" whereName
  let resetPeriod ← optionalUintMember metadata "reset_period" whereName
  let ltrPeriod ← optionalUintMember metadata "ltr_period" whereName
  .ok { width, height, qpNum, totalQpNum, frameIndexMap, qpShift, featureChannels,
        latentChannels, hyperpriorChannels, downsampleFeature, downsampleLatent,
        downsampleHyperprior, yScaleRepeat, iframePeriod, resetPeriod, ltrStartIdx, ltrPeriod }

/-- A layout member may be absent; when present it is the string "nchw". -/
def checkLayout (metadata : Value) (whereName key : String) : Result Unit :=
  match metadata.find key with
  | none => .ok ()
  | some (.string "nchw") => .ok ()
  | some _ => .error ⟨.notImplemented, whereName ++ " uses a non-NCHW " ++ key, "mlvc.bundle"⟩

def checkConventions (metadata : Value) (whereName : String) : Result Unit := do
  let scaleDecoder ← stringMember metadata "scale_decoder_type" whereName
  if scaleDecoder ≠ "upsample" then
    .error ⟨.notImplemented,
      whereName ++ " uses unsupported scale decoder " ++ scaleDecoder, "mlvc.bundle"⟩
  else
    match metadata.find "pixel_range" with
    | some (.number value _) =>
        if value ≠ 1 then
          .error ⟨.notImplemented, whereName ++ " must use pixel_range 1.0", "mlvc.bundle"⟩
        else do
          checkLayout metadata whereName "image_layout"
          checkLayout metadata whereName "feature_layout"
    | _ => .error ⟨.notImplemented, whereName ++ " must use pixel_range 1.0", "mlvc.bundle"⟩

open RawParameters in
/-- The consistency checks; success builds the checked record. -/
def acceptParameters (p : RawParameters) (whereName : String) : Result ModelParameters :=
  if hshapes : ¬ p.ShapesValid then
    .error (bundleError (whereName ++ " has inconsistent dimensions"))
  else if hempty : p.qpNum = 0 ∨ p.frameIndexMap = [] ∨ p.qpShift = [] then
    .error (bundleError (whereName ++ " has an empty Q schedule"))
  else if hmap : ¬ ∀ index ∈ p.frameIndexMap, index < p.qpShift.length then
    .error (bundleError (whereName ++ " frame_index_map exceeds qp_shift"))
  else if hshift : p.qpNum - 1 + p.maximumShift ≥ p.totalQpNum then
    .error (bundleError (whereName ++ " shifted Q exceeds total_qp_num"))
  else if hperiod : ¬ (NonzeroPeriod p.iframePeriod ∧ NonzeroPeriod p.resetPeriod ∧
      NonzeroPeriod p.ltrPeriod) then
    .error (bundleError (whereName ++ " has a zero period"))
  else
    .ok
      { toRawParameters := p
        shapes_valid := not_not.mp hshapes
        qp_num_ne := fun h => hempty (.inl h)
        frame_index_map_ne := fun h => hempty (.inr (.inl h))
        frame_index_map_lt := not_not.mp hmap
        shifted_lt := not_le.mp hshift
        iframe_period_ne := (not_not.mp hperiod).1
        reset_period_ne := (not_not.mp hperiod).2.1
        ltr_period_ne := (not_not.mp hperiod).2.2 }

def parseParameters (metadata : Value) (whereName : String) : Result ModelParameters := do
  let parameters ← readParameters metadata whereName
  checkConventions metadata whereName
  acceptParameters parameters whereName

namespace ModelParameters

variable (model : ModelParameters)

theorem foldl_max_le_of_mem (shift : ℕ → ℕ) (indices : List ℕ) (start : ℕ) :
    start ≤ indices.foldl (fun m index => max m (shift index)) start ∧
    ∀ index ∈ indices, shift index ≤ indices.foldl (fun m index => max m (shift index)) start := by
  induction indices generalizing start with
  | nil => simp
  | cons i is ih =>
      obtain ⟨hstart, hmem⟩ := ih (max start (shift i))
      refine ⟨(le_max_left _ _).trans hstart, ?_⟩
      intro index hindex
      rcases List.mem_cons.mp hindex with rfl | h
      · exact (le_max_right _ _).trans hstart
      · exact hmem index h

/-- Every shift the schedule can select keeps a valid Q index below the total. -/
theorem shifted_index_lt {index q : ℕ} (hi : index ∈ model.frameIndexMap) (hq : q < model.qpNum) :
    q + model.qpShift.getD index 0 < model.totalQpNum := by
  have hshift := (foldl_max_le_of_mem (fun i => model.qpShift.getD i 0)
    model.frameIndexMap 0).2 index hi
  have hmax : model.qpNum - 1 + model.maximumShift < model.totalQpNum := model.shifted_lt
  simp only [RawParameters.maximumShift] at hmax
  omega

end ModelParameters

end Nvcr.Mlvc
