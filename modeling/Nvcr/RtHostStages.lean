import Nvcr.RtOrchestration

/-!
# DCVC-RT frame stages on the host

A frame is coded by alternating provider stages with host transforms. What the provider does
during a call is a parameter of the call: which of its requests fail, and what the stages
compute. The actions below are the parts of the frame functions that talk to the provider
only; where a function fills several host vectors, one request stands for their allocation.
-/

namespace Nvcr.Rt

open StatefulResults Codec HostOps

/-- A request that does not succeed returns an error or throws. -/
inductive Fault where
  | error (error : Error)
  | exception (what : String)
  deriving DecidableEq, Repr

structure Tensor (A : HostArithmetic) where
  shape : Shape4D
  values : List A.Half

structure Binding (A : HostArithmetic) where
  name : String
  tensor : Tensor A

/-- The behaviour of the provider during one call: the outcome of its `n`-th request
(an allocation, a submission, a wait), the values a stage writes to each of its outputs, the
shape of that output where the provider chooses it, and the answer to a reset. -/
structure Provider (A : HostArithmetic) where
  fault : ℕ → Option Fault
  value : Stage → List (Binding A) → String → ℕ → A.Half
  shape : Stage → List (Binding A) → String → Shape4D
  reset : Result Unit

structure Submission (A : HostArithmetic) where
  stage : Stage
  inputs : List (Binding A)

/-- What one call has asked of the provider and handed to or received from the entropy coder. -/
structure Activity (A : HostArithmetic) where
  requests : ℕ := 0
  submissions : List (Submission A) := []
  encoded : List (List Int8) := []
  decoded : List (List Int8) := []

abbrev Work (A : HostArithmetic) (α : Type) := Action Fault (Activity A) α

def backendError (message : String) : Error := ⟨.backendError, message, "dcvcrt.host"⟩

def opError (operation : String) : Error := backendError (operation ++ " rejected its tensor shapes")

def roundUp (value multiple : ℕ) : ℕ := (value + multiple - 1) / multiple * multiple

def shape4d (channels height width : ℕ) : Shape4D := ⟨1, channels, height, width⟩

def Shape4D.count (shape : Shape4D) : ℕ :=
  shape.batch.toNat * shape.channels.toNat * shape.height.toNat * shape.width.toNat

/-- The tensor sizes that follow from the size of a frame. -/
structure Geometry where
  width : ℕ
  height : ℕ
  deriving DecidableEq, Repr

namespace Geometry

variable (g : Geometry)

def paddedHeight : ℕ := roundUp g.height 16

def paddedWidth : ℕ := roundUp g.width 16

def yHeight : ℕ := g.paddedHeight / 16

def yWidth : ℕ := g.paddedWidth / 16

def yHeight4 : ℕ := roundUp g.yHeight 4

def yWidth4 : ℕ := roundUp g.yWidth 4

def zHeight : ℕ := g.yHeight4 / 4

def zWidth : ℕ := g.yWidth4 / 4

def spatialCount : ℕ := g.yHeight * g.yWidth

def perChannel : ℕ := g.zHeight * g.zWidth

/-- The latent and the tensors derived from it have the latent's height and width. -/
def yShape (channels : ℕ) : Shape4D := shape4d channels g.yHeight g.yWidth

def zShape : Shape4D := shape4d 128 g.zHeight g.zWidth

def frameShape : Shape4D := shape4d 3 g.paddedHeight g.paddedWidth

def featureShape : Shape4D := shape4d 256 (g.paddedHeight / 8) (g.paddedWidth / 8)

/-- Two sub-coders are used from 1280x720 pixels on. -/
def twoCoders : Bool := 1280 * 720 ≤ g.width * g.height

/-- The geometry of a frame or payload of the given size. -/
def ofSize (width height : UInt32) : Geometry := ⟨width.toNat, height.toNat⟩

end Geometry

namespace Work

variable {A : HostArithmetic} (p : Provider A)

/-- One request to the provider, or one host allocation. -/
def request : Work A Unit := do
  let number ← Action.gets Activity.requests
  Action.update fun activity => { activity with requests := number + 1 }
  match p.fault number with
  | none => pure ()
  | some fault => Action.fail fault

/-- Buffers are overwritten before they are read, so their first contents do not matter. -/
def allocateTensor (shape : Shape4D) : Work A (Tensor A) := do
  request p
  pure ⟨shape, List.replicate shape.count 0⟩

/-- Run a stage; the answer writes a named output into its buffer. -/
def runStage (stage : Stage) (inputs : List (Binding A)) :
    Work A (String → Tensor A → Tensor A) := do
  Action.update fun activity =>
    { activity with submissions := activity.submissions ++ [⟨stage, inputs⟩] }
  request p
  request p
  pure fun name buffer =>
    { buffer with
      values := (List.range buffer.values.length).map (p.value stage inputs name) }

/-- A host transform that answered `none` rejected its shapes. -/
def hostOp {α : Type} (operation : String) (result : Option α) : Work A α :=
  match result with
  | none => Action.fail (.error (opError operation))
  | some value => pure value

def quantTensor (table : List A.Float) (qp channels : ℕ) : Work A (Tensor A) := do
  let first := qp * channels
  if table.length < first + channels then
    Action.fail (.error (backendError s!"quantization table has no entry for QP {qp}"))
  else do
    let tensor ← allocateTensor p (shape4d channels 1 1)
    pure { tensor with
      values := (List.range channels).map fun index => A.toHalf (table.getD (first + index) 0) }

def inputFrameTensor (frame : Frame) : Work A (Tensor A) := do
  let g := Geometry.ofSize frame.width frame.height
  let tensor ← allocateTensor p g.frameShape
  let converted :=
    if frame.pixelFormat = .yuv420p8 then
      yuv420p8ToYcbcrPadded frame.data g.width g.height tensor.values.length
        g.paddedHeight g.paddedWidth
    else
      rgb24ToYcbcrPadded frame.data g.width g.height tensor.values.length
        g.paddedHeight g.paddedWidth
  let values ← hostOp "input color conversion" converted
  pure { tensor with values := values }

end Work

section Frames

variable {A : HostArithmetic}

/-- The visible picture of a reconstructed frame tensor. -/
def toYuv420p8 (frameHat : Tensor A) (width height : UInt32) (timestamp : Timestamp) :
    Except Fault Frame :=
  let ySize := width.toNat * height.toNat
  match ycbcrPaddedToYuv420p8 frameHat.values ⟨1, 3, frameHat.shape.height, frameHat.shape.width⟩
      width.toNat height.toNat (ySize + ySize / 2) with
  | none => .error (.error (opError "YUV420P8 reconstruction"))
  | some bytes => (Frame.copyFrom width height .yuv420p8 bytes timestamp).mapError .error

theorem toYuv420p8_eq_ok {tensor : Tensor A} {width height : UInt32} {timestamp : Timestamp}
    {frame : Frame} (h : toYuv420p8 tensor width height timestamp = .ok frame) :
    frame.width = width ∧ frame.height = height ∧ frame.timestamp = timestamp ∧
      Frame.frameSizeBytes frame.width frame.height frame.pixelFormat = .ok frame.data.length := by
  simp only [toYuv420p8] at h
  split at h
  · cases h
  · rename_i bytes _
    cases hcopy : Frame.copyFrom width height .yuv420p8 bytes timestamp with
    | error e =>
        rw [hcopy] at h
        cases h
    | ok copied =>
        rw [hcopy] at h
        cases h
        exact Frame.copyFrom_eq_ok hcopy

/-- The NVD1 record of a decoded intra frame. -/
def serializeDpb (frame : Tensor A) : Bytes :=
  [0x4e, 0x56, 0x44, 0x31] ++ ByteWriter.writeU32 (UInt32.ofInt frame.shape.height) ++
    ByteWriter.writeU32 (UInt32.ofInt frame.shape.width) ++ ByteWriter.writeU32 0 ++
    ByteWriter.writeU32 0 ++ frame.values.flatMap A.halfBytes

end Frames

namespace Work

variable {A : HostArithmetic} (p : Provider A)

def reconstruct (frameHat : Tensor A) (width height : UInt32) (timestamp : Timestamp) :
    Work A Frame := do
  request p
  Action.lift (toYuv420p8 frameHat width height timestamp)

theorem reconstruct_eq_ok {tensor : Tensor A} {width height : UInt32}
    {timestamp : Timestamp} {activity activity' : Activity A} {frame : Frame}
    (h : (reconstruct p tensor width height timestamp).run activity =
      (.ok frame, activity')) :
    toYuv420p8 tensor width height timestamp = .ok frame := by
  obtain ⟨_, _, -, h⟩ := Action.run_bind_eq_ok.mp h
  exact congrArg Prod.fst h

def spatialContext (yHat conditioning : List A.Half) (g : Geometry) : Work A (Tensor A) := do
  let context ← allocateTensor p (g.yShape 512)
  if yHat.length + conditioning.length ≠ context.values.length then
    Action.fail (.error (opError "spatial context assembly"))
  else pure { context with values := yHat ++ conditioning }

section Intra

variable (assets : IntraAssets A) (g : Geometry)

/-- The cropped parameters and conditioning that the hyper synthesis derives from z. -/
def hyperSynthesis (z : Tensor A) : Work A (List A.Half × List A.Half) := do
  let paramsPadded ← allocateTensor p (shape4d 514 g.yHeight4 g.yWidth4)
  let commonPadded ← allocateTensor p (shape4d 256 g.yHeight4 g.yWidth4)
  let written ← runStage p (.intra .hyperSynthesis) [⟨"z_hat", z⟩]
  request p
  let params ← hostOp "crop_spatial"
    (cropSpatial (written "params_padded" paramsPadded).values (514 * g.spatialCount)
      (shape4d 514 g.yHeight4 g.yWidth4) g.yHeight g.yWidth)
  let common ← hostOp "crop_spatial"
    (cropSpatial (written "common_padded" commonPadded).values (256 * g.spatialCount)
      (shape4d 256 g.yHeight4 g.yWidth4) g.yHeight g.yWidth)
  pure (params, common)

/-- The latent reconstructed so far, and the scales and means of the next stage. -/
structure Latent (A : HostArithmetic) where
  yHat : List A.Half
  scales : List A.Half
  means : List A.Half

/-- The state before the first of the four stages, read from the parameters. -/
def intraLatent (params : List A.Half) : Latent A where
  yHat := []
  scales := (params.drop (2 * g.spatialCount)).take (256 * g.spatialCount)
  means := (params.drop ((2 + 256) * g.spatialCount)).take (256 * g.spatialCount)

/-- The decoder quantization plane of the parameters. -/
def qDecValues (params : List A.Half) : List A.Half :=
  (params.drop g.spatialCount).take g.spatialCount

def spatialStage : ℕ → IntraStage
  | 0 => .spatialPrior1
  | 1 => .spatialPrior2
  | _ => .spatialPrior3

/-- The first stage's reconstruction becomes the latent; later stages add to it. -/
def accumulate (stage : ℕ) (yHat reconstructed : List A.Half) : Work A (List A.Half) :=
  if stage = 0 then pure reconstructed
  else hostOp "add_in_place" (addInPlace yHat reconstructed)

/-- After each stage but the last, a spatial prior gives the next scales and means. -/
def nextLatent (common : List A.Half) (stage : ℕ) (latent : Latent A) (yHat : List A.Half) :
    Work A (Latent A) :=
  if stage < 3 then do
    let context ← spatialContext p yHat common g
    let output ← allocateTensor p (g.yShape 512)
    let written ← runStage p (.intra (spatialStage stage)) [⟨"context", context⟩]
    let values := (written "scales_means" output).values
    pure {
      yHat := yHat
      scales := values.take (256 * g.spatialCount)
      means := (values.drop (256 * g.spatialCount)).take (256 * g.spatialCount) }
  else pure { latent with yHat := yHat }

def encodeIntraStage (y common : List A.Half) (stage : ℕ) (latent : Latent A) :
    Work A (List Int16 × Latent A) := do
  let priorCount := 256 * g.spatialCount
  let reducedCount := priorCount / 4
  let mask ← hostOp "I-frame mask processing" (makeFourWayMask priorCount (g.yShape 256) stage)
  let processed ← hostOp "I-frame mask processing"
    (processWithMask y latent.scales latent.means mask 0 priorCount priorCount priorCount 0)
  let symbols ← hostOp "I-frame mask processing"
    (reduceChannelQuarters processed.symbols reducedCount (g.yShape 256))
  let scales ← hostOp "I-frame mask processing"
    (reduceChannelQuarters processed.maskedScales reducedCount (g.yShape 256))
  let indexes ← hostOp "build_encode_indexes" (buildEncodeIndexes symbols scales reducedCount 0)
  let yHat ← accumulate stage latent.yHat processed.reconstructed
  let latent ← nextLatent p g common stage latent yHat
  pure (indexes, latent)

def encodeIntraStages (y common : List A.Half) :
    List ℕ → Latent A → Work A (List (List Int16) × Latent A)
  | [], latent => pure ([], latent)
  | stage :: stages, latent => do
      let (indexes, latent) ← encodeIntraStage p g y common stage latent
      let (later, latent) ← encodeIntraStages y common stages latent
      pure (indexes :: later, latent)

def synthesizeIntra (yHat qDec : List A.Half) (qp : ℕ) : Work A (Tensor A) := do
  let yHat ← hostOp "multiply_broadcast_in_place"
    (multiplyBroadcastInPlace yHat qDec g.spatialCount 256)
  let q ← quantTensor p assets.qDecoder qp 368
  let frameHat ← allocateTensor p g.frameShape
  let written ← runStage p (.intra .synthesis) [⟨"y_hat", g.yShape 256, yHat⟩, ⟨"q_dec", q⟩]
  pure (written "frame_hat" frameHat)

/-- What the stages of an intra frame give to the entropy coder and to the reference. -/
structure IntraAnalysis (A : HostArithmetic) where
  zSymbols : List Int8
  indexes : List (List Int16)
  frameHat : Tensor A

def analyzeIntra (frame : Frame) (qp : ℕ) : Work A (IntraAnalysis A) := do
  let input ← inputFrameTensor p frame
  let qEnc ← quantTensor p assets.qEncoder qp 368
  let y ← allocateTensor p (g.yShape 256)
  let written ← runStage p (.intra .analysis) [⟨"frame", input⟩, ⟨"q_enc", qEnc⟩]
  let y := written "y" y
  let yPadded ← allocateTensor p (shape4d 256 g.yHeight4 g.yWidth4)
  let paddedValues ← hostOp "replicate_pad"
    (replicatePad y.values yPadded.values.length (g.yShape 256) g.yHeight4 g.yWidth4)
  let z ← allocateTensor p g.zShape
  let written ← runStage p (.intra .hyperAnalysis)
    [⟨"y_padded", { yPadded with values := paddedValues }⟩]
  let z := written "z" z
  let (zValues, zSymbols) ← hostOp "round_to_int8" (roundToInt8 z.values z.values.length)
  let (params, common) ← hyperSynthesis p g { z with values := zValues }
  let (params, yValues) ← hostOp "apply_image_prior_and_quantize"
    (applyImagePriorAndQuantize params y.values g.spatialCount)
  request p
  let (indexes, latent) ← encodeIntraStages p g yValues common [0, 1, 2, 3] (intraLatent g params)
  let frameHat ← synthesizeIntra p assets g latent.yHat (qDecValues g params) qp
  pure ⟨zSymbols, indexes, frameHat⟩

end Intra

section Predicted

variable (assets : PredictedAssets A) (g : Geometry)

/-- The context and the temporal context computed from the chosen reference. -/
def referenceContexts (reference : Binding A) (useFrameReference : Bool) (qp : ℕ) :
    Work A (Tensor A × Tensor A) := do
  let qFeature ← quantTensor p assets.qFeature qp 256
  let context ← allocateTensor p g.featureShape
  let temporalContext ← allocateTensor p g.featureShape
  let stage := if useFrameReference then .referenceFrame else .referenceFeature
  let written ← runStage p (.predicted stage) [reference, ⟨"q_feature", qFeature⟩]
  pure (written "context" context, written "temporal_context" temporalContext)

def predictedPrior (z temporalContext : Tensor A) : Work A (List A.Half) := do
  let params ← allocateTensor p (g.yShape 384)
  let written ← runStage p (.predicted .prior)
    [⟨"z_hat", z⟩, ⟨"temporal_context", temporalContext⟩]
  pure (written "params" params).values

/-- The part of the parameters that starts at a multiple of the latent size. -/
def priorPart (params : List A.Half) (part : ℕ) : List A.Half :=
  (params.drop (part * (128 * g.spatialCount))).take (128 * g.spatialCount)

/-- The scales and means of the second stage, from the first reconstruction and the
parameters. -/
def predictedSpatialPrior (yHat params : List A.Half) : Work A (List A.Half) := do
  let context ← spatialContext p yHat params g
  let spatialParams ← allocateTensor p (g.yShape 256)
  let written ← runStage p (.predicted .spatialPrior) [⟨"context", context⟩]
  pure (written "scales_means" spatialParams).values

def encodePredictedStage (operation : String) (y scales means : List A.Half) (stage : ℕ) :
    Work A (List Int16 × List A.Half) := do
  let priorCount := 128 * g.spatialCount
  let reducedCount := priorCount / 2
  let mask ← hostOp operation (makeTwoWayMask priorCount (g.yShape 128) stage)
  let processed ← hostOp operation
    (processWithMask y scales means mask 0 priorCount priorCount priorCount 0)
  let symbols ← hostOp operation
    (reduceChannelHalves processed.symbols reducedCount (g.yShape 128))
  let reducedScales ← hostOp operation
    (reduceChannelHalves processed.maskedScales reducedCount (g.yShape 128))
  let indexes ← hostOp operation (buildEncodeIndexes symbols reducedScales reducedCount 0)
  pure (indexes, processed.reconstructed)

/-- The reconstructed frame and the feature behind it. -/
def synthesizePredicted (yHat : List A.Half) (context : Tensor A) (qp : ℕ) :
    Work A (Tensor A × Tensor A) := do
  let qDecoder ← quantTensor p assets.qDecoder qp 256
  let qRecon ← quantTensor p assets.qReconstruction qp 320
  let frameHat ← allocateTensor p g.frameShape
  let feature ← allocateTensor p g.featureShape
  let written ← runStage p (.predicted .synthesis)
    [⟨"y_hat", g.yShape 128, yHat⟩, ⟨"context", context⟩, ⟨"q_decoder", qDecoder⟩,
      ⟨"q_recon", qRecon⟩]
  pure (written "frame_hat" frameHat, written "feature" feature)

/-- What the stages of a predicted frame give to the entropy coder and to the reference. -/
structure PredictedAnalysis (A : HostArithmetic) where
  zSymbols : List Int8
  indexes : List (List Int16)
  frameHat : Tensor A
  feature : Tensor A

def analyzePredicted (frame : Frame) (reference : Binding A) (useFrameReference : Bool)
    (qp : ℕ) : Work A (PredictedAnalysis A) := do
  let input ← inputFrameTensor p frame
  let (context, temporalContext) ←
    referenceContexts p assets g reference useFrameReference qp
  let qEncoder ← quantTensor p assets.qEncoder qp 256
  let y ← allocateTensor p (g.yShape 128)
  let written ← runStage p (.predicted .analysis)
    [⟨"frame", input⟩, ⟨"context", context⟩, ⟨"q_encoder", qEncoder⟩]
  let y := written "y" y
  let yPadded ← allocateTensor p (shape4d 128 g.yHeight4 g.yWidth4)
  let paddedValues ← hostOp "replicate_pad"
    (replicatePad y.values yPadded.values.length (g.yShape 128) g.yHeight4 g.yWidth4)
  let z ← allocateTensor p g.zShape
  let written ← runStage p (.predicted .hyperAnalysis)
    [⟨"y_padded", { yPadded with values := paddedValues }⟩]
  let z := written "z" z
  let (zValues, zSymbols) ← hostOp "round_to_int8" (roundToInt8 z.values z.values.length)
  let params ← predictedPrior p g { z with values := zValues } temporalContext
  let (qDec, yValues) ← hostOp "clamp_reciprocal_with_quant"
    (clampReciprocalWithQuant (priorPart g params 0) y.values)
  -- The clamped steps are written back to the front of the parameters.
  let params := qDec ++ params.drop qDec.length
  request p
  let (indexes0, yHat) ← encodePredictedStage g "P-frame first mask processing" yValues
    (priorPart g params 1) (priorPart g params 2) 0
  let spatial ← predictedSpatialPrior p g yHat params
  let (indexes1, reconstructed) ← encodePredictedStage g "P-frame second mask processing" yValues
    (priorPart g spatial 0) (priorPart g spatial 1) 1
  let yHat ← hostOp "P-frame second mask processing" (addAndMultiply yHat reconstructed qDec)
  let (frameHat, feature) ← synthesizePredicted p assets g yHat context qp
  pure ⟨zSymbols, [indexes0, indexes1], frameHat, feature⟩

end Predicted

end Work

end Nvcr.Rt
