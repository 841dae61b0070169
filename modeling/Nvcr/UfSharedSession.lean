import Nvcr.UfDecoder
import Nvcr.UfPreparation

/-!
# One DCVC-UF TensorRT session for both directions

The encoder and the decoder of a stream call one session. It keeps a reference for each
direction, and one prepared size for both. The stages and kernels between the changes of the
session are deterministic functions; each call may in addition be stopped by its environment
at any point.
-/

namespace Nvcr.Uf.TensorRt

open StatefulResults

inductive Direction where
  | encoder
  | decoder
  deriving DecidableEq, Repr

structure Session (τ : Type) where
  preparation : Preparation := {}
  encoder : Reference τ := {}
  decoder : Reference τ := {}

/-- The points at which a call may be stopped. -/
inductive Point where
  | latents
  | reconstructed
  | feature
  | adapted
  | extracted
  | decoded
  | heads
  | reset
  | frames
  | synchronized
  deriving DecidableEq, Repr

/-- What stops a call at which point. -/
abbrev Faults := Point → Option Error

structure CallEnvironment where
  preparation : Environment
  faults : Faults

/-- What the stages and kernels compute. `τ` are device tensors, `γ` is what a group's bitstream
has given before the context is extracted. An empty reference part is passed on as it is. -/
structure Stages (τ γ : Type) where
  /-- Analysis and entropy coding of an intra frame: the bitstream and the latent. -/
  encodeIntra : Preparation → Frame → UInt32 → Result (Encoded × τ)
  decodeIntra : Preparation → IntraRequest → Result τ
  /-- `decode_i_frame`. -/
  intraFrame : Preparation → UInt32 → τ → Result τ
  download : Preparation → IntraRequest → τ → Result Frame
  unshuffle : Preparation → τ → Result τ
  adaptorM : Option τ → Option τ → Result τ
  adaptorI : Option τ → Result τ
  extractor : Option τ → Result τ
  encodeGroup : Preparation → List Frame → UInt32 → Option τ → Option τ → Result (Encoded × τ)
  decodeGroup : Preparation → GroupRequest → Option τ → Result γ
  groupLatent : Preparation → GroupRequest → γ → Result τ
  /-- `p_decoder`, on a latent and a context. -/
  decoder : UInt32 → τ → Option τ → Result τ
  heads : τ → Result (List τ)
  reset : τ → Result τ
  frames : Preparation → GroupRequest → List τ → Result (List Frame)

namespace Session

variable {τ γ α : Type}

def reference (direction : Direction) (session : Session τ) : Reference τ :=
  match direction with
  | .encoder => session.encoder
  | .decoder => session.decoder

def setReference (direction : Direction) (reference : Reference τ) (session : Session τ) :
    Session τ :=
  match direction with
  | .encoder => { session with encoder := reference }
  | .decoder => { session with decoder := reference }

def updateReference (direction : Direction) (f : Reference τ → Reference τ) :
    Action Error (Session τ) Unit :=
  Action.update fun session => session.setReference direction (f (session.reference direction))

/-- Compute from the session, unless the environment stops the call here. -/
def compute (faults : Faults) (point : Point) (f : Session τ → Result α) :
    Action Error (Session τ) α := do
  match faults point with
  | some e => Action.fail e
  | none =>
      let session ← Action.gets id
      Action.lift (f session)

/-- `static_cast<int>` of a frame's size. -/
def castInt (value : UInt32) : ℤ := value.toBitVec.toInt

def prepare (environment : CallEnvironment) (width height : UInt32) :
    Action Error (Session τ) Unit :=
  Action.zoom preparation (fun session preparation => { session with preparation })
    (prepareBuffers environment.preparation (castInt width) (castInt height))

variable (stages : Stages τ γ)

/-- The memory from the last group, or from the last intra or reset feature. -/
def adapt (faults : Faults) (direction : Direction) : Action Error (Session τ) Unit := do
  let memory ← compute faults .adapted fun session =>
    let reference := session.reference direction
    if reference.memoryHasValue then stages.adaptorM reference.memory reference.featureP
    else stages.adaptorI reference.featureI
  updateReference direction fun reference => { reference with memory := some memory }

def extract (faults : Faults) (direction : Direction) : Action Error (Session τ) Unit := do
  let context ← compute faults .extracted fun session =>
    stages.extractor (session.reference direction).memory
  updateReference direction fun reference => { reference with context := some context }

/-- The reference of a reconstructed intra frame. -/
def referenceFromFrame (faults : Faults) (direction : Direction) (frame : τ)
    (applyAdaptor : Bool) : Action Error (Session τ) Unit := do
  let feature ← compute faults .feature fun session => stages.unshuffle session.preparation frame
  updateReference direction fun reference =>
    { reference with featureI := some feature, memoryHasValue := false }
  if applyAdaptor then do
    adapt stages faults direction
    extract stages faults direction
  else pure ()

def encodeI (environment : CallEnvironment) (frame : Frame) (qp : UInt32) :
    Action Error (Session τ) Encoded := do
  prepare environment frame.width frame.height
  let (output, latent) ← compute environment.faults .latents fun session =>
    stages.encodeIntra session.preparation frame qp
  let reconstructed ← compute environment.faults .reconstructed fun session =>
    stages.intraFrame session.preparation qp latent
  referenceFromFrame stages environment.faults .encoder reconstructed true
  pure output

def decodeI (environment : CallEnvironment) (request : IntraRequest) :
    Action Error (Session τ) Frame := do
  Action.lift (require (¬ (request.entropyParallel = 0 ∨
      request.entropyParallel > maxEntropyParallel))
    (failure .malformedBitstream "invalid DCVC-UF entropy parallelism"))
  prepare environment request.width request.height
  let latent ← compute environment.faults .latents fun session =>
    stages.decodeIntra session.preparation request
  let frame ← compute environment.faults .reconstructed fun session =>
    stages.intraFrame session.preparation request.qp latent
  referenceFromFrame stages environment.faults .decoder frame false
  compute environment.faults .frames fun session =>
    stages.download session.preparation request frame

/-- Every frame of the group has the prepared size. -/
def SharesSize (session : Session τ) (frames : List Frame) : Prop :=
  ∀ frame ∈ frames, castInt frame.width = session.preparation.width ∧
    castInt frame.height = session.preparation.height

instance (session : Session τ) (frames : List Frame) : Decidable (SharesSize session frames) := by
  unfold SharesSize
  infer_instance

def encodeP (environment : CallEnvironment) (frames : List Frame) (qp : UInt32)
    (resetMemory : Bool) : Action Error (Session τ) Encoded := do
  let session ← Action.gets id
  Action.lift (require session.encoder.context.isSome
    (failure .invalidState "HT-S group before an intra frame"))
  Action.lift (require (session.SharesSize frames)
    (failure .resourceExhausted "DCVC-UF HT-S inputs"))
  let (output, latent) ← compute environment.faults .latents fun session =>
    stages.encodeGroup session.preparation frames qp session.encoder.memory
      session.encoder.context
  let feature ← compute environment.faults .decoded fun session =>
    stages.decoder qp latent session.encoder.context
  updateReference .encoder fun reference => { reference with featureP := some feature }
  if resetMemory then do
    let resetFeature ← compute environment.faults .reset fun _ => stages.reset feature
    updateReference .encoder fun reference =>
      { reference with featureI := some resetFeature, memoryHasValue := false }
  else
    updateReference .encoder fun reference => { reference with memoryHasValue := true }
  adapt stages environment.faults .encoder
  extract stages environment.faults .encoder
  pure output

def decodeP (environment : CallEnvironment) (request : GroupRequest) :
    Action Error (Session τ) (List Frame) := do
  let session ← Action.gets id
  Action.lift (require session.decoder.featureI.isSome
    (failure .malformedBitstream "HT-S group before an intra frame"))
  Action.lift (require (¬ (request.entropyParallel = 0 ∨
      request.entropyParallel > maxEntropyParallel))
    (failure .malformedBitstream "invalid DCVC-UF entropy parallelism"))
  Action.lift (require (castInt request.width = session.preparation.width ∧
      castInt request.height = session.preparation.height)
    (failure .malformedBitstream "HT-S group changes the frame size"))
  adapt stages environment.faults .decoder
  let symbols ← compute environment.faults .latents fun session =>
    stages.decodeGroup session.preparation request session.decoder.memory
  extract stages environment.faults .decoder
  let feature ← compute environment.faults .decoded fun session => do
    let latent ← stages.groupLatent session.preparation request symbols
    stages.decoder request.qp latent session.decoder.context
  updateReference .decoder fun reference => { reference with featureP := some feature }
  let heads ← compute environment.faults .heads fun _ => stages.heads feature
  let resetFeature ← compute environment.faults .reset fun _ => stages.reset feature
  updateReference .decoder fun reference =>
    { reference with
      featureI := some resetFeature
      memoryHasValue := !request.resetFeatureMemory }
  compute environment.faults .frames fun session =>
    stages.frames session.preparation request heads

/-- A call ends with a wait for the stream. -/
def guarded (faults : Faults) (call : Action Error (Session τ) α) :
    Action Error (Session τ) α := do
  let output ← call
  compute faults .synchronized fun _ => .ok output

def encodeIntra (environment : CallEnvironment) (frame : Frame) (qp : UInt32) :
    Action Error (Session τ) Encoded :=
  guarded environment.faults (encodeI stages environment frame qp)

def decodeIntra (environment : CallEnvironment) (request : IntraRequest) :
    Action Error (Session τ) Frame :=
  guarded environment.faults (decodeI stages environment request)

def encodePredicted (environment : CallEnvironment) (frames : List Frame) (qp : UInt32)
    (resetMemory : Bool) : Action Error (Session τ) Encoded := do
  Action.lift (require (frames.length = 8)
    (failure .invalidArgument "HT-S encoding requires eight frames"))
  guarded environment.faults (encodeP stages environment frames qp resetMemory)

def decodePredicted (environment : CallEnvironment) (request : GroupRequest) :
    Action Error (Session τ) (List Frame) := do
  Action.lift (require (¬ (request.timestamps = [] ∨ request.timestamps.length > 8))
    (failure .invalidArgument "HT-S timestamp count must be in [1, 8]"))
  guarded environment.faults (decodeP stages environment request)

end Session

end Nvcr.Uf.TensorRt
