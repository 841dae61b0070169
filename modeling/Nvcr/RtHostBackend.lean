import Nvcr.RtHostStages

/-!
# The DCVC-RT host backend

The frame functions join the stage work to an entropy session and end with the update of the
decoded picture buffer, so a failure before that leaves the buffer as it was. Intra and
predicted frames have an entropy session each, shared by the two directions.
-/

namespace Nvcr.Rt

open StatefulResults Codec HostOps

structure PipelineState (A : HostArithmetic) (R : RansCoder) where
  activity : Activity A
  rans : RansCodec R

abbrev Pipeline (A : HostArithmetic) (R : RansCoder) (α : Type) :=
  Action Fault (PipelineState A R) α

namespace Pipeline

variable {A : HostArithmetic} {R : RansCoder} {α : Type} (p : Provider A)

def work (x : Work A α) : Pipeline A R α :=
  x.zoom PipelineState.activity fun state activity => { state with activity := activity }

/-- A call into the entropy session, which may also run out of memory. -/
def entropy (step : RansCodec R → Result (α × RansCodec R)) : Pipeline A R α := do
  work (Work.request p)
  let rans ← Action.gets PipelineState.rans
  match step rans with
  | .error e => Action.fail (.error e)
  | .ok (value, rans) => do
      Action.update fun state => { state with rans := rans }
      pure value

def recordEncoded (symbols : List Int8) : Pipeline A R Unit :=
  Action.update fun state =>
    { state with activity :=
        { state.activity with encoded := state.activity.encoded ++ [symbols] } }

def recordDecoded (symbols : List Int8) : Pipeline A R Unit :=
  Action.update fun state =>
    { state with activity :=
        { state.activity with decoded := state.activity.decoded ++ [symbols] } }

def beginEncode (twoCoders : Bool) : Pipeline A R Unit :=
  entropy p fun rans => (Prod.mk ()) <$> rans.resetEncoder.setUseTwoCoders twoCoders

def encodeZ (symbols : List Int8) (group qp perChannelSize : ℕ) : Pipeline A R Unit := do
  entropy p fun rans => (Prod.mk ()) <$> rans.encodeZ symbols group (qp * 128) perChannelSize
  recordEncoded symbols

def encodeY (combined : List Int16) (group : ℕ) : Pipeline A R Unit := do
  entropy p fun rans => (Prod.mk ()) <$> rans.encodeY combined group
  recordEncoded (combined.map RansCodec.combinedSymbol)

def encodeYs (group : ℕ) : List (List Int16) → Pipeline A R Unit
  | [] => pure ()
  | combined :: later => do
      encodeY p combined group
      encodeYs group later

def finishEncode : Pipeline A R Bytes := entropy p RansCodec.finishEncode

def beginDecode (twoCoders : Bool) (stream : Bytes) : Pipeline A R Unit :=
  entropy p fun rans => do
    let rans ← rans.resetEncoder.setUseTwoCoders twoCoders
    let rans ← rans.setStream stream
    pure ((), rans)

def decodeZ (symbolCount group qp perChannelSize : ℕ) : Pipeline A R (List Int8) := do
  let symbols ← entropy p fun rans => rans.decodeZ symbolCount group (qp * 128) perChannelSize
  recordDecoded symbols
  pure symbols

def decodeY (indexes : List UInt8) (group : ℕ) : Pipeline A R (List Int8) := do
  let symbols ← entropy p fun rans => rans.decodeY indexes group
  recordDecoded symbols
  pure symbols

/-- The entropy coding of a frame: z first, then the y stages in order. -/
def encodeSymbols (zGroup yGroup qp : ℕ) (g : Geometry) (zSymbols : List Int8)
    (indexes : List (List Int16)) : Pipeline A R Bytes := do
  beginEncode p g.twoCoders
  encodeZ p zSymbols zGroup qp g.perChannel
  encodeYs p yGroup indexes
  finishEncode p

/-- The z tensor of a payload; its symbols come first in the stream. -/
def decodeHyper (operation : String) (zGroup qp : ℕ) (g : Geometry) : Pipeline A R (Tensor A) := do
  let zValues ← decodeZ p (128 * g.perChannel) zGroup qp g.perChannel
  let z ← work (Work.allocateTensor p g.zShape)
  if zValues.length ≠ z.values.length then Action.fail (.error (opError operation))
  else do
    let values ← work (Work.hostOp operation (int8ToHalf zValues z.values.length))
    pure { z with values := values }

section Intra

variable (assets : IntraAssets A) (g : Geometry)

def decodeIntraStage (common : List A.Half) (stage : ℕ) (latent : Work.Latent A) :
    Pipeline A R (Work.Latent A) := do
  let priorCount := 256 * g.spatialCount
  let reducedCount := priorCount / 4
  let mask ← work (Work.hostOp "I-frame decode index preparation"
    (makeFourWayMask priorCount (g.yShape 256) stage))
  let scales ← work (Work.hostOp "I-frame decode index preparation"
    (reduceMaskedQuarters latent.scales mask reducedCount (g.yShape 256)))
  let indexes ← work (Work.hostOp "I-frame decode index preparation"
    (buildDecodeIndexes scales reducedCount 0))
  let decoded ← decodeY p indexes assets.gaussianYGroup
  if decoded.length ≠ reducedCount then
    Action.fail (.error (opError "I-frame symbol restoration"))
  else do
    let symbols ← work (Work.hostOp "I-frame symbol restoration"
      (int8ToHalf decoded reducedCount))
    let reconstructed ← work (Work.hostOp "I-frame symbol restoration"
      (restoreFourWay symbols latent.means mask priorCount (g.yShape 256)))
    let yHat ← work (Work.accumulate stage latent.yHat reconstructed)
    work (Work.nextLatent p g common stage latent yHat)

def decodeIntraStages (common : List A.Half) :
    List ℕ → Work.Latent A → Pipeline A R (Work.Latent A)
  | [], latent => pure latent
  | stage :: stages, latent => do
      let latent ← decodeIntraStage p assets g common stage latent
      decodeIntraStages common stages latent

/-- The reconstructed tensor of a parsed intra payload. -/
def decodeIntraTensor (info : IntraPayload) : Pipeline A R (Tensor A) := do
  beginDecode p info.twoCoders info.rans
  let z ← decodeHyper p "I-frame z symbol upload" assets.imageZGroup info.qp.toNat g
  let (params, common) ← work (Work.hyperSynthesis p g z)
  let params ← work (Work.hostOp "apply_image_prior" (applyImagePrior params g.spatialCount))
  work (Work.request p)
  let latent ← decodeIntraStages p assets g common [0, 1, 2, 3] (Work.intraLatent g params)
  work (Work.synthesizeIntra p assets g latent.yHat (Work.qDecValues g params) info.qp.toNat)

end Intra

section Predicted

variable (assets : PredictedAssets A) (g : Geometry)

def decodePredictedStage (preparation restoration : String) (scales means : List A.Half)
    (stage : ℕ) : Pipeline A R (List A.Half) := do
  let priorCount := 128 * g.spatialCount
  let reducedCount := priorCount / 2
  let mask ← work (Work.hostOp preparation (makeTwoWayMask priorCount (g.yShape 128) stage))
  let reducedScales ← work (Work.hostOp preparation
    (reduceMaskedHalves scales mask reducedCount (g.yShape 128)))
  let indexes ← work (Work.hostOp preparation (buildDecodeIndexes reducedScales reducedCount 0))
  let decoded ← decodeY p indexes assets.gaussianYGroup
  if decoded.length ≠ reducedCount then Action.fail (.error (opError restoration))
  else do
    let symbols ← work (Work.hostOp restoration (int8ToHalf decoded reducedCount))
    work (Work.hostOp restoration
      (restoreTwoWay symbols means mask priorCount (g.yShape 128)))

/-- The reconstructed frame and feature tensors of a parsed predicted payload. -/
def decodePredictedTensors (info : PredictedPayload) (reference : Binding A) :
    Pipeline A R (Tensor A × Tensor A) := do
  let (context, temporalContext) ← work (Work.referenceContexts p assets g reference
    info.useFrameReference info.qp.toNat)
  beginDecode p info.twoCoders info.rans
  let z ← decodeHyper p "P-frame z symbol upload" assets.videoZGroup info.qp.toNat g
  let params ← work (Work.predictedPrior p g z temporalContext)
  let qDec ← work (Work.hostOp "clamp_min"
    (clampMin (Work.priorPart g params 0) (A.ofRat (1 / 2))))
  let params := qDec ++ params.drop qDec.length
  work (Work.request p)
  let yHat ← decodePredictedStage p assets g "P-frame first decode index preparation"
    "P-frame first symbol restoration" (Work.priorPart g params 1) (Work.priorPart g params 2) 0
  let spatial ← work (Work.predictedSpatialPrior p g yHat params)
  let reconstructed ← decodePredictedStage p assets g "P-frame second decode index preparation"
    "P-frame second symbol restoration" (Work.priorPart g spatial 0) (Work.priorPart g spatial 1) 1
  let yHat ← work (Work.hostOp "P-frame second symbol restoration"
    (addAndMultiply yHat reconstructed qDec))
  work (Work.synthesizePredicted p assets g yHat context info.qp.toNat)

end Predicted

end Pipeline

/-- The decoded picture buffer of one direction. -/
structure HostDpb (A : HostArithmetic) where
  frame : Option (Tensor A) := none
  feature : Option (Tensor A) := none
  semantics : ReferenceState := {}

structure FrameState (A : HostArithmetic) (R : RansCoder) where
  pipeline : PipelineState A R
  dpb : HostDpb A

abbrev FrameWork (A : HostArithmetic) (R : RansCoder) (α : Type) := Action Fault (FrameState A R) α

namespace FrameWork

variable {A : HostArithmetic} {R : RansCoder} {α : Type} (p : Provider A)

def pipeline (x : Pipeline A R α) : FrameWork A R α :=
  x.zoom FrameState.pipeline fun state pipeline => { state with pipeline := pipeline }

def storeDpb (dpb : HostDpb A) : FrameWork A R Unit :=
  Action.update fun state => { state with dpb := dpb }

def fail (code : ErrorCode) (message : String) : FrameWork A R α :=
  Action.fail (.error ⟨code, message, "dcvcrt.host"⟩)

/-- The formats and sizes that both kinds of frames accept, with the messages of the kind. -/
def checkFrame (frame : Frame) (formatMessage sizeMessage : String) : FrameWork A R Unit :=
  if frame.pixelFormat ≠ .rgb24 ∧ frame.pixelFormat ≠ .yuv420p8 then
    fail .invalidArgument formatMessage
  else if ¬ Payload.SupportedDimensions frame.width frame.height then
    fail .invalidArgument sizeMessage
  else pure ()

section Intra

variable (assets : IntraAssets A)

/-- An intra reconstruction replaces the whole buffer. -/
def intraDpb (frameHat : Tensor A) (state : SequenceStateView) : HostDpb A where
  frame := some frameHat
  semantics := ReferenceState.commit state false

def decodeIntra (payload : Bytes) (timestamp : Timestamp) (state : SequenceStateView) :
    FrameWork A R CodecDecodeResult := do
  let info ← Action.lift ((parseIntraPayload payload).mapError Fault.error)
  let frameHat ← pipeline
    (Pipeline.decodeIntraTensor p assets (Geometry.ofSize info.width info.height) info)
  let frame ← pipeline (Pipeline.work (Work.reconstruct p frameHat info.width info.height timestamp))
  pipeline (Pipeline.work (Work.request p))
  storeDpb (intraDpb frameHat state)
  pure ⟨frame, serializeDpb frameHat⟩

def encodeIntra (verifyReconstruction : Bool) (frame : Frame) (qp : UInt32)
    (state : SequenceStateView) : FrameWork A R CodecEncodeResult := do
  checkFrame frame "native I-frame encoding requires RGB24 or YUV420P8"
    "native I-frame dimensions must be within 64x64 and 1920x1080"
  let g := Geometry.ofSize frame.width frame.height
  let analysis ← pipeline (Pipeline.work (Work.analyzeIntra p assets g frame qp.toNat))
  let stream ← pipeline (Pipeline.encodeSymbols p assets.imageZGroup assets.gaussianYGroup
    qp.toNat g analysis.zSymbols analysis.indexes)
  let payload := makeIntraPayload ⟨frame.width, frame.height, qp, g.twoCoders, stream⟩
  let reconstructedFrame ← pipeline (Pipeline.work
    (Work.reconstruct p analysis.frameHat frame.width frame.height frame.timestamp))
  storeDpb (intraDpb analysis.frameHat state)
  if verifyReconstruction then do
    let conformant ← decodeIntra p assets payload frame.timestamp state
    pure ⟨payload, conformant.frame, conformant.latentState, qp⟩
  else pure ⟨payload, reconstructedFrame, [], qp⟩

end Intra

section Predicted

variable (assets : PredictedAssets A)

/-- The reference a predicted frame is coded from. -/
def chosenReference (dpb : HostDpb A) (useFrameReference : Bool) : Option (Binding A) :=
  if useFrameReference then (Binding.mk "reference_frame") <$> dpb.frame
  else (Binding.mk "reference_feature") <$> dpb.feature

def predictedDpb (frameHat feature : Tensor A) (state : SequenceStateView) : HostDpb A where
  frame := some frameHat
  feature := some feature
  semantics := ReferenceState.commit state true

def encodePredicted (verifyReconstruction : Bool) (frame : Frame) (baseQp : UInt32)
    (state : SequenceStateView) : FrameWork A R CodecEncodeResult := do
  checkFrame frame "native P-frame encoding requires RGB24 or YUV420P8"
    "native P-frame dimensions must be even and within 64x64 and 1920x1080"
  let dpb ← Action.gets FrameState.dpb
  if dpb.frame.isNone then fail .invalidState "encoder DPB is unavailable"
  else do
    let decision ← Action.lift ((selectFrame baseQp state dpb.semantics).mapError Fault.error)
    match chosenReference dpb decision.useFrameReference with
    | none => fail .invalidState "P-frame feature storage is unavailable"
    | some reference => do
        let g := Geometry.ofSize frame.width frame.height
        let qp := decision.qp
        let analysis ← pipeline (Pipeline.work (Work.analyzePredicted p assets g frame reference
          decision.useFrameReference qp.toNat))
        let stream ← pipeline (Pipeline.encodeSymbols p assets.videoZGroup assets.gaussianYGroup
          qp.toNat g analysis.zSymbols analysis.indexes)
        let payload := makePredictedPayload
          ⟨frame.width, frame.height, qp, g.twoCoders, decision.useFrameReference, stream⟩
        let reconstructedFrame ←
          if verifyReconstruction then
            pipeline (Pipeline.work (Work.reconstruct p analysis.frameHat frame.width frame.height
              frame.timestamp))
          else pure Frame.empty
        storeDpb (predictedDpb analysis.frameHat analysis.feature state)
        pure ⟨payload, reconstructedFrame, [], qp⟩

def decodePredicted (payload : Bytes) (timestamp : Timestamp) (state : SequenceStateView) :
    FrameWork A R CodecDecodeResult := do
  let info ← Action.lift ((parsePredictedPayload payload).mapError Fault.error)
  let dpb ← Action.gets FrameState.dpb
  if dpb.frame.isNone then fail .invalidState "decoder DPB is unavailable"
  else do
    Action.lift
      ((validateDecodeReference info.useFrameReference state dpb.semantics).mapError Fault.error)
    match chosenReference dpb info.useFrameReference with
    | none => fail .invalidState "P-frame feature storage is unavailable"
    | some reference => do
        let (frameHat, feature) ← pipeline (Pipeline.decodePredictedTensors p assets
          (Geometry.ofSize info.width info.height) info reference)
        let frame ← pipeline
          (Pipeline.work (Work.reconstruct p frameHat info.width info.height timestamp))
        storeDpb (predictedDpb frameHat feature state)
        pure ⟨frame, []⟩

end Predicted

end FrameWork

/-- What a backend is given when it is initialized. -/
structure BackendSetup (A : HostArithmetic) where
  intra : IntraAssets A
  predicted : PredictedAssets A
  intraQp : UInt32
  verifyEncoderReconstruction : Bool

/-- The activity is that of the last frame call. -/
structure HostBackend (A : HostArithmetic) (R : RansCoder) where
  intraRans : RansCodec R
  predictedRans : RansCodec R
  encoderDpb : HostDpb A := {}
  decoderDpb : HostDpb A := {}
  activity : Activity A := {}

namespace HostBackend

variable {A : HostArithmetic} {R : RansCoder} {α : Type}

/-- The backend right after initialization. -/
def initial (setup : BackendSetup A) : HostBackend A R where
  intraRans := { tables := setup.intra.tables }
  predictedRans := { tables := setup.predicted.tables }

/-- Errors are returned as they are; exceptions are reported under the operation's name. -/
def caught (operation : String) : Fault → Error
  | .error e => e
  | .exception what => backendError (operation ++ ": " ++ what)

def runIntra (operation : String) (dpb : HostBackend A R → HostDpb A)
    (store : HostBackend A R → HostDpb A → HostBackend A R) (x : FrameWork A R α) :
    Action Error (HostBackend A R) α := fun backend =>
  let (result, state) := x.run ⟨⟨{}, backend.intraRans⟩, dpb backend⟩
  (result.mapError (caught operation),
    store { backend with activity := state.pipeline.activity, intraRans := state.pipeline.rans }
      state.dpb)

def runPredicted (operation : String) (dpb : HostBackend A R → HostDpb A)
    (store : HostBackend A R → HostDpb A → HostBackend A R) (x : FrameWork A R α) :
    Action Error (HostBackend A R) α := fun backend =>
  let (result, state) := x.run ⟨⟨{}, backend.predictedRans⟩, dpb backend⟩
  (result.mapError (caught operation),
    store { backend with activity := state.pipeline.activity, predictedRans := state.pipeline.rans }
      state.dpb)

theorem runIntra_run {operation : String} {dpb : HostBackend A R → HostDpb A}
    {store : HostBackend A R → HostDpb A → HostBackend A R} {x : FrameWork A R α}
    {backend : HostBackend A R} {result : Except Fault α} {state : FrameState A R}
    (h : x.run ⟨⟨{}, backend.intraRans⟩, dpb backend⟩ = (result, state)) :
    (runIntra operation dpb store x).run backend = (result.mapError (caught operation),
      store { backend with activity := state.pipeline.activity, intraRans := state.pipeline.rans }
        state.dpb) := by
  simp only [runIntra, Action.run] at h ⊢
  rw [h]

theorem runPredicted_run {operation : String} {dpb : HostBackend A R → HostDpb A}
    {store : HostBackend A R → HostDpb A → HostBackend A R} {x : FrameWork A R α}
    {backend : HostBackend A R} {result : Except Fault α} {state : FrameState A R}
    (h : x.run ⟨⟨{}, backend.predictedRans⟩, dpb backend⟩ = (result, state)) :
    (runPredicted operation dpb store x).run backend = (result.mapError (caught operation),
      store { backend with
        activity := state.pipeline.activity
        predictedRans := state.pipeline.rans } state.dpb) := by
  simp only [runPredicted, Action.run] at h ⊢
  rw [h]

def storeEncoder (backend : HostBackend A R) (dpb : HostDpb A) : HostBackend A R :=
  { backend with encoderDpb := dpb }

def storeDecoder (backend : HostBackend A R) (dpb : HostDpb A) : HostBackend A R :=
  { backend with decoderDpb := dpb }

variable (setup : BackendSetup A) (p : Provider A)

def encode (frame : Frame) (frameType : FrameType) (state : SequenceStateView) :
    Action Error (HostBackend A R) CodecEncodeResult :=
  match frameType with
  | .intra =>
      runIntra "native frame encoding failed" encoderDpb storeEncoder
        (FrameWork.encodeIntra p setup.intra setup.verifyEncoderReconstruction frame setup.intraQp
          state)
  | .predicted =>
      runPredicted "native frame encoding failed" encoderDpb storeEncoder
        (FrameWork.encodePredicted p setup.predicted setup.verifyEncoderReconstruction frame
          setup.intraQp state)

def decode (payload : Bytes) (frameType : FrameType) (timestamp : Timestamp)
    (state : SequenceStateView) : Action Error (HostBackend A R) CodecDecodeResult :=
  match frameType with
  | .intra =>
      runIntra "native frame decoding failed" decoderDpb storeDecoder
        (FrameWork.decodeIntra p setup.intra payload timestamp state)
  | .predicted =>
      runPredicted "native frame decoding failed" decoderDpb storeDecoder
        (FrameWork.decodePredicted p setup.predicted payload timestamp state)

/-- Flushing resets the provider session. -/
def flush : Action Error (HostBackend A R) Unit := Action.lift p.reset

def resetEncoder (backend : HostBackend A R) : HostBackend A R := { backend with encoderDpb := {} }

def resetDecoder (backend : HostBackend A R) : HostBackend A R := { backend with decoderDpb := {} }

end HostBackend

/-- The host backend behind the codec interface. -/
def hostBackend (A : HostArithmetic) (R : RansCoder) (setup : BackendSetup A) :
    CodecBackend (Provider A) (HostBackend A R) where
  encode := HostBackend.encode setup
  decode := HostBackend.decode setup
  flush := HostBackend.flush
  resetEncoder := HostBackend.resetEncoder
  resetDecoder := HostBackend.resetDecoder

end Nvcr.Rt
