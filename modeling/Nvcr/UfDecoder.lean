import Nvcr.TransitionRuns
import Nvcr.UfEncoder

/-!
# DCVC-UF decoder session

The decoder hands access units to an execution session, which keeps the reference of the
predicted groups. There are two: one runs on TensorRT stages, one on the fused upstream models.
What a call computes, and at which point it fails, is an environment; what it does to the reference
is not.
-/

namespace Nvcr.Uf

open StatefulResults

structure IntraRequest where
  bitstream : Bytes
  entropyParallel : UInt8
  qp : UInt32
  width : UInt32
  height : UInt32
  timestamp : Timestamp
  deriving DecidableEq, Repr

structure GroupRequest where
  bitstream : Bytes
  entropyParallel : UInt8
  qp : UInt32
  width : UInt32
  height : UInt32
  timestamps : List Timestamp
  resetFeatureMemory : Bool
  deriving DecidableEq, Repr

/-- The decoding half of an execution session. `Work` is what happens inside one call. -/
structure ExecutionSession where
  State : Type
  Work : Type
  initial : State
  resetDecoderState : Action Error State Unit
  decodeIntra : Work → IntraRequest → Action Error State Frame
  decodePredicted : Work → GroupRequest → Action Error State (List Frame)

/-- The feature memory and context of one direction. -/
structure Reference (τ : Type) where
  featureI : Option τ := none
  featureP : Option τ := none
  memory : Option τ := none
  context : Option τ := none
  memoryHasValue : Bool := false
  deriving DecidableEq

namespace TensorRt

def failure (code : ErrorCode) (message : String) : Error := ⟨code, message, "dcvcuf-tensorrt"⟩

def maxEntropyParallel : UInt8 := 8

/-- The state of the session that decoding reads and writes. -/
structure State (τ : Type) where
  decoder : Reference τ := {}
  width : UInt32 := 0
  height : UInt32 := 0

/-- The work of a call, cut where a call changes the session: what each piece answers. -/
structure Work (τ : Type) where
  prepared : Result Unit
  intraFrame : Result τ
  intraFeature : Result τ
  downloaded : Result Frame
  adapted : Result τ
  latents : Result Unit
  extracted : Result τ
  decodedFeature : Result τ
  heads : Result Unit
  resetFeature : Result τ
  frames : Result (List Frame)
  synchronized : Result Unit

variable {τ : Type}

/-- The size is taken over before the buffers for it are there. -/
def prepare (work : Work τ) (width height : UInt32) : Action Error (State τ) Unit := do
  let state ← Action.gets id
  if width = state.width ∧ height = state.height then pure ()
  else do
    Action.update fun state => { state with width := width, height := height }
    Action.lift work.prepared

/-- The reference of a reconstructed intra frame; the decoder adapts it at the next group. -/
def referenceFromFrame (work : Work τ) : Action Error (State τ) Unit := do
  let feature ← Action.lift work.intraFeature
  Action.update fun state =>
    { state with decoder :=
        { state.decoder with featureI := some feature, memoryHasValue := false } }

def decodeI (work : Work τ) (request : IntraRequest) : Action Error (State τ) Frame := do
  Action.lift (require (¬ (request.entropyParallel = 0 ∨
      request.entropyParallel > maxEntropyParallel))
    (failure .malformedBitstream "invalid DCVC-UF entropy parallelism"))
  prepare work request.width request.height
  let _ ← Action.lift work.intraFrame
  referenceFromFrame work
  Action.lift work.downloaded

/-- The memory for the next group, from the last group or from the last intra or reset feature. -/
def adapt (work : Work τ) : Action Error (State τ) Unit := do
  let memory ← Action.lift work.adapted
  Action.update fun state => { state with decoder := { state.decoder with memory := some memory } }

def extract (work : Work τ) : Action Error (State τ) Unit := do
  let context ← Action.lift work.extracted
  Action.update fun state =>
    { state with decoder := { state.decoder with context := some context } }

def decodeP (work : Work τ) (request : GroupRequest) : Action Error (State τ) (List Frame) := do
  let state ← Action.gets id
  Action.lift (require state.decoder.featureI.isSome
    (failure .malformedBitstream "HT-S group before an intra frame"))
  Action.lift (require (¬ (request.entropyParallel = 0 ∨
      request.entropyParallel > maxEntropyParallel))
    (failure .malformedBitstream "invalid DCVC-UF entropy parallelism"))
  Action.lift (require (request.width = state.width ∧ request.height = state.height)
    (failure .malformedBitstream "HT-S group changes the frame size"))
  adapt work
  Action.lift work.latents
  extract work
  let feature ← Action.lift work.decodedFeature
  Action.update fun state =>
    { state with decoder := { state.decoder with featureP := some feature } }
  Action.lift work.heads
  let resetFeature ← Action.lift work.resetFeature
  Action.update fun state =>
    { state with decoder :=
        { state.decoder with
          featureI := some resetFeature
          memoryHasValue := !request.resetFeatureMemory } }
  Action.lift work.frames

/-- A call ends with a wait for the stream. -/
def guarded {α : Type} (work : Work τ) (call : Action Error (State τ) α) :
    Action Error (State τ) α := do
  let output ← call
  Action.lift work.synchronized
  pure output

def decodeIntra (work : Work τ) (request : IntraRequest) : Action Error (State τ) Frame :=
  guarded work (decodeI work request)

def decodePredicted (work : Work τ) (request : GroupRequest) :
    Action Error (State τ) (List Frame) := do
  Action.lift (require (¬ (request.timestamps = [] ∨ request.timestamps.length > 8))
    (failure .invalidArgument "HT-S timestamp count must be in [1, 8]"))
  guarded work (decodeP work request)

def session (τ : Type) : ExecutionSession where
  State := State τ
  Work := Work τ
  initial := {}
  resetDecoderState := pure ()
  decodeIntra := decodeIntra
  decodePredicted := decodePredicted

end TensorRt

namespace Native

def failure (code : ErrorCode) (message : String) : Error := ⟨code, message, "dcvcuf-upstream-cuda"⟩

/-- The upstream models behind the native session: the video decoder keeps the reference. Every
call gets what its environment does and may throw. -/
structure Upstream where
  Tensor : Type
  Video : Type
  Environment : Type
  fresh : Video
  decompressImage : Environment → IntraRequest → Result Tensor
  addRefFeatureFromFrame : Environment → Tensor → Action Error Video Unit
  decompress : Environment → GroupRequest → Action Error Video (List Tensor)
  tensorsToFrames : Environment → List Tensor → List Timestamp → Result (List Frame)
  synchronize : Environment → Result Unit

variable (U : Upstream)

def decodeIntra (env : U.Environment) (request : IntraRequest) : Action Error U.Video Frame := do
  let reconstruction ← Action.lift (U.decompressImage env request)
  U.addRefFeatureFromFrame env reconstruction
  let frames ← Action.lift (U.tensorsToFrames env [reconstruction] [request.timestamp])
  Action.lift (U.synchronize env)
  pure (frames.headD default)

def decodePredicted (env : U.Environment) (request : GroupRequest) :
    Action Error U.Video (List Frame) := do
  Action.lift (require (¬ (request.timestamps = [] ∨ request.timestamps.length > 8))
    (failure .invalidArgument "DCVC-UF predicted timestamp count must be in [1, 8]"))
  let decoded ← U.decompress env request
  Action.lift (require (decoded.length = 8)
    (failure .backendError "DCVC-UF HT-S decoder did not return eight frames"))
  let frames ← Action.lift (U.tensorsToFrames env decoded request.timestamps)
  Action.lift (U.synchronize env)
  pure frames

def session : ExecutionSession where
  State := U.Video
  Work := U.Environment
  initial := U.fresh
  resetDecoderState := pure ()
  decodeIntra := decodeIntra U
  decodePredicted := decodePredicted U

end Native

structure DecoderConfiguration where
  bitstreamModelId : Bytes
  maxPacketBytes : ℕ
  deriving DecidableEq, Repr

structure Decoder (S : ExecutionSession) where
  provider : S.State
  outputs : List Frame := []
  flushed : Bool := false

namespace Decoder

variable {S : ExecutionSession}

def maxQp : UInt32 := 63

def new (S : ExecutionSession) : Decoder S := ⟨S.initial, [], false⟩

/-- A call of the execution session behind the decoder. -/
def withProvider {α : Type} (call : Action Error S.State α) : Action Error (Decoder S) α :=
  call.zoom Decoder.provider fun decoder provider => { decoder with provider := provider }

/-- An access unit that belongs to the stream, with its parsed payload. -/
def parseUnit (configuration : DecoderConfiguration) (packet : Packet) :
    Result (AccessUnit × CodecPayload) := do
  require (packet.data.length ≤ configuration.maxPacketBytes)
    (codecError .resourceExhausted "DCVC-UF packet exceeds configured limit")
  let unit ← AccessUnitIo.deserialize packet.data configuration.maxPacketBytes
  require (¬ (unit.modelId ≠ configuration.bitstreamModelId ∨ unit.frameType ≠ packet.frameType))
    (codecError .malformedBitstream "DCVC-UF access-unit identity or frame type mismatch")
  require (unit.qp ≤ maxQp) (codecError .malformedBitstream "DCVC-UF QP exceeds 63")
  let payload ← parsePayload unit.frameType unit.payload
  pure (unit, payload)

def intraRequest (unit : AccessUnit) (payload : CodecPayload) : IntraRequest where
  bitstream := payload.bitstream
  entropyParallel := payload.entropyParallel
  qp := unit.qp
  width := unit.width
  height := unit.height
  timestamp := payload.timestamps.headD 0

def groupRequest (unit : AccessUnit) (payload : CodecPayload) : GroupRequest where
  bitstream := payload.bitstream
  entropyParallel := payload.entropyParallel
  qp := unit.qp
  width := unit.width
  height := unit.height
  timestamps := payload.timestamps
  resetFeatureMemory := payload.resetFeatureMemory

def decodeUnit (work : S.Work) (unit : AccessUnit) (payload : CodecPayload) :
    Action Error (Decoder S) Unit :=
  match unit.frameType with
  | .intra => do
      withProvider S.resetDecoderState
      let frame ← withProvider (S.decodeIntra work (intraRequest unit payload))
      Action.update fun decoder => { decoder with outputs := decoder.outputs ++ [frame] }
  | .predicted => do
      let frames ← withProvider (S.decodePredicted work (groupRequest unit payload))
      Action.update fun decoder => { decoder with outputs := decoder.outputs ++ frames }

def sendAccessUnit (configuration : DecoderConfiguration) (work : S.Work) (packet : Packet) :
    Action Error (Decoder S) Unit := do
  let decoder ← Action.gets id
  Action.lift (require (¬ decoder.flushed) (codecError .invalidState "decoder is flushed"))
  let parsed ← Action.lift (parseUnit configuration packet)
  decodeUnit work parsed.1 parsed.2

def receiveFrame (decoder : Decoder S) : Result Frame × Decoder S :=
  match decoder.outputs with
  | frame :: rest => (.ok frame, { decoder with outputs := rest })
  | [] =>
      if decoder.flushed then (.error (codecError .endOfStream "decoder is drained"), decoder)
      else (.error (codecError .tryAgain "decoder needs more input"), decoder)

def flush (decoder : Decoder S) : Decoder S := { decoder with flushed := true }

def reset : Action Error (Decoder S) Unit := do
  Action.update fun decoder => { decoder with outputs := [], flushed := false }
  withProvider S.resetDecoderState

end Decoder

end Nvcr.Uf
