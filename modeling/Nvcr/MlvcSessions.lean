import Nvcr.AccessUnits
import Nvcr.MlvcSequence

/-!
# MLVC sessions

The encoder and decoder sessions over one bundle. Everything outside the session (loading a
canvas, allocating tensors, running the encoder and decoder networks, the entropy coder) is an
environment that may answer each call differently. A session's canvas, placement and scheduler
are set together, so they form one selection.
-/

namespace Nvcr.Mlvc

open LittleEndian StatefulResults StatefulResults.Action

def mlvcError (code : ErrorCode) (message : String) : Error := ⟨code, message, "mlvc"⟩

section Records

def recordError (code : ErrorCode) (message : String) : Error := ⟨code, message, "mlvc.record"⟩

/-- The Q index of a dropped frame. -/
def droppedFrameQIndex : ℤ := -1

structure FrameRecord where
  qIndex : ℤ
  payload : Bytes
  deriving DecidableEq, Repr

/-- A signed 32-bit Q index, the payload length, and the payload. -/
def serializeRecord (qIndex : ℤ) (payload : Bytes) : Result Bytes := do
  require (payload.length ≤ 2 ^ 32 - 1)
    (recordError .resourceExhausted "MLVC record payload is too large")
  require (¬ (qIndex = droppedFrameQIndex ∧ payload ≠ []))
    (recordError .invalidArgument "a dropped MLVC frame has no payload")
  pure (leBytes 4 (qIndex % 2 ^ 32).toNat ++ leBytes 4 payload.length ++ payload)

def parseRecord (bytes : Bytes) : Result FrameRecord := do
  require (8 ≤ bytes.length)
    (recordError .malformedBitstream "MLVC record header is truncated")
  let qIndex := Int.bmod (leValue (bytes.take 4)) (2 ^ 32)
  let length := leValue ((bytes.drop 4).take 4)
  require (length = bytes.length - 8)
    (recordError .malformedBitstream "MLVC record length does not match the access unit")
  require (¬ (qIndex < droppedFrameQIndex ∨ (qIndex = droppedFrameQIndex ∧ length ≠ 0)))
    (recordError .malformedBitstream "MLVC record has an invalid Q index")
  pure ⟨qIndex, bytes.drop 8⟩

end Records

section Placements

/-- Where a frame sits on the model canvas. -/
structure Placement where
  frameWidth : ℕ
  frameHeight : ℕ
  canvasWidth : ℕ
  canvasHeight : ℕ
  transposed : Bool
  deriving DecidableEq, Repr

def place (frameWidth frameHeight : ℕ) (model : ModelParameters) : Result Placement :=
  if frameWidth = 0 ∨ frameHeight = 0 ∨ frameWidth % 2 ≠ 0 ∨ frameHeight % 2 ≠ 0 then
    .error ⟨.invalidArgument, "MLVC requires positive, even I420 frame dimensions",
      "mlvc.host"⟩
  else if frameWidth ≤ model.width ∧ frameHeight ≤ model.height then
    .ok ⟨frameWidth, frameHeight, model.width, model.height, false⟩
  else if frameHeight ≤ model.width ∧ frameWidth ≤ model.height then
    .ok ⟨frameWidth, frameHeight, model.width, model.height, true⟩
  else
    .error ⟨.invalidArgument, "frame " ++ toString frameWidth ++ "x" ++ toString frameHeight ++
      " is larger than the MLVC canvas " ++ toString model.width ++ "x" ++
      toString model.height, "mlvc.host"⟩

structure BundleModel where
  canvasId : String
  streamIdentity : Bytes
  parameters : ModelParameters

def fits (frameWidth frameHeight : ℕ) (rotated : Bool) (model : BundleModel) : Bool :=
  let width := if rotated then frameHeight else frameWidth
  let height := if rotated then frameWidth else frameHeight
  width ≤ model.parameters.width && height ≤ model.parameters.height

/-- The first model that fits natively, else the first that fits rotated. -/
def selectModel (models : List BundleModel) (frameWidth frameHeight : ℕ) : Result BundleModel :=
  match (models.find? (fits frameWidth frameHeight false)).or
      (models.find? (fits frameWidth frameHeight true)) with
  | some model => .ok model
  | none =>
      .error (bundleError (toString frameWidth ++ "x" ++ toString frameHeight ++
        " is larger than every MLVC canvas in the bundle; MLVC does not scale"))

end Placements

structure LatentSymbols where
  z : List ℤ
  y0 : List ℤ
  y1 : List ℤ
  deriving DecidableEq, Repr

/-- Truncation of model outputs to 32-bit integers; `none` is a value that is not finite. The
lower limit of the source is the float nearest to -2147483649. -/
def toSymbols : List (Option ℚ) → Result (List ℤ)
  | [] => .ok []
  | value :: rest =>
      match value with
      | none => .error (mlvcError .backendError
          "MLVC encoder produced a non-integer-representable latent")
      | some v =>
          if v ≤ -2147483648 ∨ v ≥ 2147483648 then
            .error (mlvcError .backendError
              "MLVC encoder produced a non-integer-representable latent")
          else do
            let symbols ← toSymbols rest
            .ok ((if 0 ≤ v then ⌊v⌋ else ⌈v⌉) :: symbols)

/-- The outputs of the encoder network. -/
structure EncoderOutputs (Feature : Type) where
  feature : Feature
  zRaw : List (Option ℚ)
  yRaw0 : List (Option ℚ)
  yRaw1 : List (Option ℚ)

/-- What surrounds a session during one call. `allocate` names the tensor or object that is
allocated; the networks include the conversion of their inputs to the model precision. -/
structure Environment (Image Feature : Type) where
  loadCanvas : BundleModel → Result Unit
  allocate : String → Result Unit
  zeroFeature : BundleModel → Feature
  prepareInput : Bytes → Placement → Image
  encoder : BundleModel → Image → Feature → ℕ → Result (EncoderOutputs Feature)
  entropyEncode : BundleModel → LatentSymbols → ℕ → Result Bytes
  entropyDecode : BundleModel → Bytes → ℕ → Result LatentSymbols
  decoder : BundleModel → LatentSymbols → Feature → ℕ → Result (Image × Feature)
  finishOutput : Image → Placement → ℕ → UInt8

structure Configuration where
  models : List BundleModel
  intraQp : ℕ
  gopSize : ℕ
  maxPacketBytes : ℕ
  gop_size_ne : gopSize ≠ 0

theorem groupsOfTwo_ne : (2 : ℕ) ≠ 0 := by decide

/-- A loaded canvas with the placement of the current frames and the scheduler. -/
structure Selection where
  model : BundleModel
  placement : Placement
  scheduler : FrameScheduler

section Encoder

variable {Image Feature : Type}

structure EncoderSession (Feature : Type) where
  selected : Option Selection
  references : ReferenceStore Feature
  outputs : List Packet
  flushed : Bool

namespace EncoderSession

def new : EncoderSession Feature := ⟨none, .clear, [], false⟩

/-- The coded index of the next frame; a session without a canvas has coded nothing. -/
def codedIndex (session : EncoderSession Feature) : ℕ :=
  (session.selected.map fun selection => selection.scheduler.codedIndex).getD 0

def started (session : EncoderSession Feature) : Bool :=
  (session.selected.map fun selection => selection.scheduler.started).getD false

variable (environment : Environment Image Feature) (configuration : Configuration)

/-- Load the canvas for a frame size and set up its scheduler and scratch tensors. -/
def chooseCanvas (width height : ℕ) : Result Selection := do
  let model ← selectModel configuration.models width height
  environment.loadCanvas model
  let placement ← place width height model.parameters
  require (configuration.intraQp < model.parameters.qpNum)
    (mlvcError .invalidArgument
      ("MLVC Q index must be below " ++ toString model.parameters.qpNum))
  let loop := (LoopParameters.fromModel model.parameters).withGopSize configuration.gopSize
    configuration.gop_size_ne
  environment.allocate "x"
  environment.allocate "q"
  environment.allocate "z"
  environment.allocate "y_0"
  environment.allocate "y_1"
  pure ⟨model, placement, .new loop⟩

/-- The canvas in use when the frame has its size; a started sequence cannot change it. -/
def keepsCanvas (session : EncoderSession Feature) (width height : ℕ) : Option Selection :=
  session.selected.filter fun selection =>
    width = selection.placement.frameWidth && height = selection.placement.frameHeight

def selectCanvas (width height : ℕ) : Action Error (EncoderSession Feature) Selection := do
  let session ← gets id
  match session.keepsCanvas width height with
  | some selection => pure selection
  | none => do
      if session.started then
        fail (mlvcError .invalidArgument
          "MLVC frame dimensions changed; reset the encoder first")
      else do
        let selection ← lift (chooseCanvas environment configuration width height)
        update fun session =>
          { session with selected := some selection, references := .clear }
        pure selection

/-- The feature a plan refers to: none for an intra frame or a feature reset. -/
def referenceFeature (model : BundleModel) (plan : FramePlan)
    (references : ReferenceStore Feature) : Result Feature :=
  match plan.reference, plan.featureReset with
  | some index, false =>
      match references.find index with
      | some feature => .ok feature
      | none => .error (mlvcError .internalError "MLVC encoder reference is missing")
  | _, _ => .ok (environment.zeroFeature model)

/-- Run the encoder network on a frame and code its latents to a record. -/
def codeFrame (selection : Selection) (plan : FramePlan) (references : ReferenceStore Feature)
    (frame : Frame) : Result (Feature × Bytes) := do
  let model := selection.model
  let reference ← referenceFeature environment model plan references
  let x := environment.prepareInput frame.data selection.placement
  let q := shiftedQIndex model.parameters configuration.intraQp plan.codedIndex
  environment.allocate "feature"
  let outputs ← environment.encoder model x reference q
  let z ← toSymbols outputs.zRaw
  let y0 ← toSymbols outputs.yRaw0
  let y1 ← toSymbols outputs.yRaw1
  let payload ← environment.entropyEncode model ⟨z, y0, y1⟩ configuration.intraQp
  let record ← serializeRecord configuration.intraQp payload
  pure (outputs.feature, record)

def frameTypeOf (plan : FramePlan) : FrameType :=
  if plan.frameClass = .intra then .intra else .predicted

/-- Wrap a record into an access unit. -/
def makeUnit (selection : Selection) (plan : FramePlan) (frame : Frame) (record : Bytes) :
    Result Bytes := do
  let type := frameTypeOf plan
  environment.allocate "access_unit"
  AccessUnitIo.serialize
    { modelId := selection.model.streamIdentity, width := frame.width, height := frame.height
      qp := UInt32.ofNat configuration.intraQp, frameType := type
      resetState := type = .intra, payload := record }
    configuration.maxPacketBytes

/-- Save the feature of a coded frame and advance the scheduler. -/
def commitFrame (session : EncoderSession Feature) (plan : FramePlan) (feature : Feature) :
    EncoderSession Feature :=
  { session with
    references := session.references.save plan.codedIndex feature plan.markAsLtr
    selected := session.selected.map fun selection =>
      { selection with scheduler := selection.scheduler.commit plan } }

def encode (frame : Frame) : Action Error (EncoderSession Feature) Packet := do
  let selection ← selectCanvas environment configuration frame.width.toNat frame.height.toNat
  let plan := selection.scheduler.plan none
  update fun session =>
    { session with
      references := if plan.frameClass = .intra then .clear else session.references }
  let references ← gets EncoderSession.references
  let (feature, record) ← lift (codeFrame environment configuration selection plan references frame)
  -- The encoder references its own feature output, not a decoded one.
  update fun session => session.commitFrame plan feature
  let serialized ← lift (makeUnit environment configuration selection plan frame record)
  pure ⟨serialized, frame.timestamp, frameTypeOf plan⟩

def sendFrame (frame : Frame) : Action Error (EncoderSession Feature) Unit := do
  let session ← gets id
  if session.flushed then
    fail (mlvcError .invalidState "encoder is flushed")
  else if frame.pixelFormat ≠ .yuv420p8 then
    fail (mlvcError .invalidArgument "MLVC encodes 8-bit I420 frames")
  else do
    let packet ← encode environment configuration frame
    update fun session => { session with outputs := session.outputs ++ [packet] }

def receiveAccessUnit : Action Error (EncoderSession Feature) Packet := do
  let session ← gets id
  match session.outputs with
  | packet :: rest => do
      update fun session => { session with outputs := rest }
      pure packet
  | [] =>
      if session.flushed then
        fail (mlvcError .endOfStream "encoder is drained")
      else
        fail (mlvcError .tryAgain "no encoded output available")

def flush : Action Error (EncoderSession Feature) Unit :=
  update fun session => { session with flushed := true }

def reset : Action Error (EncoderSession Feature) Unit :=
  update fun session =>
    { session with
      outputs := []
      references := .clear
      selected := session.selected.map fun selection =>
        { selection with scheduler := selection.scheduler.reset }
      flushed := false }

end EncoderSession

end Encoder

section Decoder

variable {Image Feature : Type}

structure DecoderSession (Feature : Type) where
  selected : Option Selection
  references : ReferenceStore Feature
  lastOutput : Option Frame
  outputs : List Frame
  flushed : Bool

namespace DecoderSession

def new : DecoderSession Feature := ⟨none, .clear, none, [], false⟩

def started (session : DecoderSession Feature) : Bool :=
  (session.selected.map fun selection => selection.scheduler.started).getD false

variable (environment : Environment Image Feature) (configuration : Configuration)

/-- The access unit that a packet carries. -/
def parseUnit (packet : Packet) : Result AccessUnit := do
  require (packet.data.length ≤ configuration.maxPacketBytes)
    (mlvcError .resourceExhausted "packet exceeds configured limit")
  require (AccessUnitIo.hasMagic packet.data)
    (mlvcError .malformedBitstream "MLVC packets must be NVAU access units")
  let unit ← AccessUnitIo.deserialize packet.data configuration.maxPacketBytes
  require (unit.frameType = packet.frameType ∧
      unit.resetState = decide (unit.frameType = .intra))
    (mlvcError .malformedBitstream "packet frame type and access-unit flags disagree")
  pure unit

/-- The access unit and the record that a packet carries. -/
def parsePacket (packet : Packet) : Result (AccessUnit × FrameRecord) := do
  let unit ← parseUnit configuration packet
  let record ← parseRecord unit.payload
  pure (unit, record)

/-- The last model of the bundle with the stream identity. -/
def modelFor (modelId : Bytes) : Option BundleModel :=
  (configuration.models.filter fun model => model.streamIdentity = modelId).getLast?

/-- A validated identity as text. -/
def identityText (modelId : Bytes) : String :=
  String.ofList (modelId.map fun byte => Char.ofNat byte.toNat)

/-- An intra access unit names its canvas through the stream identity. The canvas in use and its
scheduler are kept when the model is the same; the canvas identifiers of a bundle are distinct. -/
def intraSelection (session : DecoderSession Feature) (unit : AccessUnit) : Result Selection :=
  match modelFor configuration unit.modelId with
  | none => .error (mlvcError .malformedBitstream
      ("access-unit model " ++ identityText unit.modelId ++
        " is not in the configured MLVC bundle"))
  | some model =>
      match place unit.width.toNat unit.height.toNat model.parameters with
      | .error e => .error (mlvcError .malformedBitstream e.message)
      | .ok placement =>
          match session.selected.filter fun selection =>
              selection.model.canvasId = model.canvasId with
          | some selection => .ok { selection with placement }
          | none => do
              environment.loadCanvas model
              environment.allocate "z"
              environment.allocate "y_0"
              environment.allocate "y_1"
              environment.allocate "q"
              environment.allocate "x_hat"
              pure ⟨model, placement, .new (LoopParameters.fromModel model.parameters)⟩

/-- A predicted access unit must continue the current sequence unchanged. -/
def predictedSelection (session : DecoderSession Feature) (unit : AccessUnit) :
    Result Selection :=
  match session.selected.filter fun selection => selection.scheduler.started with
  | none => .error (mlvcError .malformedBitstream
      "MLVC stream must start with an intra access unit")
  | some selection =>
      if unit.modelId ≠ selection.model.streamIdentity ∨
          unit.width.toNat ≠ selection.placement.frameWidth ∨
          unit.height.toNat ≠ selection.placement.frameHeight then
        .error (mlvcError .malformedBitstream
          "MLVC predicted access unit changes model or dimensions")
      else
        .ok selection

def selectionFor (session : DecoderSession Feature) (unit : AccessUnit) : Result Selection :=
  if unit.frameType = .intra then
    intraSelection environment configuration session unit
  else
    session.predictedSelection unit

/-- A failed selection changes nothing; a successful one is stored at once. -/
def selectCanvas (unit : AccessUnit) : Action Error (DecoderSession Feature) Selection := do
  let session ← gets id
  let selection ← lift (selectionFor environment configuration session unit)
  update fun session => { session with selected := some selection }
  pure selection

def repeatLastOutput (session : DecoderSession Feature) (plan : FramePlan)
    (timestamp : Timestamp) : Result Frame :=
  match session.lastOutput with
  | some last =>
      if plan.droppable then do
        environment.allocate "repeated_frame"
        Frame.copyFrom last.width last.height .yuv420p8 last.data timestamp
      else
        .error (mlvcError .malformedBitstream "MLVC frame cannot be dropped at this position")
  | none =>
      .error (mlvcError .malformedBitstream "MLVC frame cannot be dropped at this position")

def decodeSymbols (model : BundleModel) (unit : AccessUnit) (record : FrameRecord) :
    Result LatentSymbols := do
  require (record.qIndex < model.parameters.qpNum ∧ (unit.qp.toNat : ℤ) = record.qIndex)
    (mlvcError .malformedBitstream "MLVC record has an invalid Q index")
  environment.entropyDecode model record.payload record.qIndex.toNat

def referenceFeature (model : BundleModel) (plan : FramePlan)
    (references : ReferenceStore Feature) : Result Feature :=
  match plan.reference, plan.featureReset with
  | some index, false =>
      match references.find index with
      | some feature => .ok feature
      | none => .error (mlvcError .malformedBitstream "MLVC reference feature is not available")
  | _, _ => .ok (environment.zeroFeature model)

/-- Run the decoder network and build the output frame. -/
def decodeFrame (selection : Selection) (plan : FramePlan) (references : ReferenceStore Feature)
    (symbols : LatentSymbols) (record : FrameRecord) (timestamp : Timestamp) :
    Result (Feature × Frame) := do
  let model := selection.model
  let reference ← referenceFeature environment model plan references
  let q := shiftedQIndex model.parameters record.qIndex.toNat plan.codedIndex
  environment.allocate "feature"
  let (image, feature) ← environment.decoder model symbols reference q
  environment.allocate "frame"
  let frame ← Frame.create (UInt32.ofNat selection.placement.frameWidth)
    (UInt32.ofNat selection.placement.frameHeight) .yuv420p8 timestamp
  pure (feature, frame.fill (environment.finishOutput image selection.placement))

def commitFrame (session : DecoderSession Feature) (plan : FramePlan) (feature : Feature) :
    DecoderSession Feature :=
  { session with
    references := session.references.save plan.codedIndex feature plan.markAsLtr
    selected := session.selected.map fun selection =>
      { selection with scheduler := selection.scheduler.commit plan } }

def decode (packet : Packet) : Action Error (DecoderSession Feature) Frame := do
  let (unit, record) ← lift (parsePacket configuration packet)
  let selection ← selectCanvas environment configuration unit
  let plan := selection.scheduler.plan (some (unit.frameType = .intra))
  if record.qIndex = droppedFrameQIndex then do
    -- A dropped frame repeats the last presentation without touching reference state.
    let session ← gets id
    lift (repeatLastOutput environment session plan packet.timestamp)
  else do
    let symbols ← lift (decodeSymbols environment selection.model unit record)
    update fun session =>
      { session with
        references := if unit.frameType = .intra then .clear else session.references }
    let references ← gets DecoderSession.references
    let (feature, frame) ← lift (decodeFrame environment selection plan references symbols record
      packet.timestamp)
    update fun session => session.commitFrame plan feature
    lift (environment.allocate "retained_frame")
    update fun session => { session with lastOutput := some frame }
    pure frame

def sendAccessUnit (packet : Packet) : Action Error (DecoderSession Feature) Unit := do
  let session ← gets id
  if session.flushed then
    fail (mlvcError .invalidState "decoder is flushed")
  else do
    let frame ← decode environment configuration packet
    update fun session => { session with outputs := session.outputs ++ [frame] }

def receiveFrame : Action Error (DecoderSession Feature) Frame := do
  let session ← gets id
  match session.outputs with
  | frame :: rest => do
      update fun session => { session with outputs := rest }
      pure frame
  | [] =>
      if session.flushed then
        fail (mlvcError .endOfStream "decoder is drained")
      else
        fail (mlvcError .tryAgain "no decoded output available")

def flush : Action Error (DecoderSession Feature) Unit :=
  update fun session => { session with flushed := true }

def reset : Action Error (DecoderSession Feature) Unit :=
  update fun session =>
    { session with
      outputs := []
      references := .clear
      selected := session.selected.map fun selection =>
        { selection with scheduler := selection.scheduler.reset }
      lastOutput := none
      flushed := false }

end DecoderSession

end Decoder

end Nvcr.Mlvc
