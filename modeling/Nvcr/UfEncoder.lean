import Nvcr.AccessUnits

/-!
# DCVC-UF encoder session

Frames are coded one by one as intra frames or buffered to groups of eight. The execution
session behind the encoder is an environment: every call carries what it answers.
-/

namespace Nvcr.Uf

open LittleEndian StatefulResults

def groupFrames : ℕ := 8

def resetInterval : ℕ := 32

def codecError (code : ErrorCode) (message : String) : Error := ⟨code, message, "dcvcuf"⟩

/-- The bytes of "UFI1" and "UFP1". -/
def payloadMagic : FrameType → Bytes
  | .intra => [85, 70, 73, 49]
  | .predicted => [85, 70, 80, 49]

def resetFeatureMemoryFlag : UInt8 := 1

structure Encoded where
  bitstream : Bytes
  entropyParallel : UInt8
  deriving DecidableEq, Repr

structure CodecPayload where
  entropyParallel : UInt8
  resetFeatureMemory : Bool
  timestamps : List Timestamp
  bitstream : Bytes
  deriving DecidableEq, Repr

def appendU64 (timestamp : Timestamp) : Bytes := leBytes 8 timestamp.toUInt64.toNat

def makePayload (type : FrameType) (encoded : Encoded) (timestamps : List Timestamp)
    (resetFeatureMemory : Bool) : Bytes :=
  payloadMagic type ++ (UInt8.ofNat timestamps.length :: encoded.entropyParallel ::
    (if resetFeatureMemory then resetFeatureMemoryFlag else 0) :: 0 ::
    (timestamps.flatMap appendU64 ++ encoded.bitstream))

def readU64 (bytes : Bytes) (offset : ℕ) : Timestamp :=
  Int64.ofUInt64 (UInt64.ofNat (leValue ((bytes.drop offset).take 8)))

/-- The number of timestamps a payload declares. -/
def declaredCount (payload : Bytes) : ℕ := (payload.getD 4 0).toNat

/-- The timestamps a payload declares valid. -/
def declaredTimestamps (payload : Bytes) : List Timestamp :=
  (List.range (declaredCount payload)).map fun index => readU64 payload (8 + index * 8)

def declaredReset (payload : Bytes) : Bool :=
  payload.getD 6 0 &&& resetFeatureMemoryFlag ≠ 0

def parsePayload (type : FrameType) (payload : Bytes) : Result CodecPayload := do
  require (17 ≤ payload.length ∧ payload.take 4 = payloadMagic type)
    (codecError .malformedBitstream "invalid DCVC-UF codec payload header")
  let count := declaredCount payload
  let entropyParallel := payload.getD 5 0
  let flags := payload.getD 6 0
  let allowedFlags := if type = .intra then 0 else resetFeatureMemoryFlag
  require (flags &&& ~~~allowedFlags = 0 ∧ payload.getD 7 0 = 0 ∧ entropyParallel ≠ 0 ∧
      count ≠ 0 ∧ count ≤ 8 ∧ (type = .intra → count = 1))
    (codecError .malformedBitstream "invalid DCVC-UF payload fields")
  let header := 8 + count * 8
  require (header < payload.length)
    (codecError .malformedBitstream "DCVC-UF payload has no entropy stream")
  let bitstream := payload.drop header
  require (bitstream.length ≤ 2 ^ 31 - 1)
    (codecError .resourceExhausted "DCVC-UF entropy stream is too large")
  pure ⟨entropyParallel, declaredReset payload, declaredTimestamps payload, bitstream⟩

structure Configuration where
  bitstreamModelId : Bytes
  intraQp : UInt32
  gopSize : ℕ
  maxPacketBytes : ℕ
  deriving DecidableEq, Repr

/-- The check of the adapter before it creates its sessions. -/
def AcceptsGopSize (gopSize : ℕ) : Prop := ¬ (gopSize ≠ 1 ∧ gopSize % 8 ≠ 0)

/-- What the environment does during one call: the answer of the execution session, and
possibly an allocation failure while the access unit is created. -/
structure Outcome where
  encoded : Result Encoded
  unitFailure : Option Error := none

def wrapAccessUnit (configuration : Configuration) (unitFailure : Option Error)
    (type : FrameType) (width height : UInt32) (timestamp : Timestamp) (payload : Bytes) :
    Result Packet := do
  let unit : AccessUnit :=
    { modelId := configuration.bitstreamModelId, width, height, qp := configuration.intraQp
      frameType := type, resetState := type = .intra, payload }
  match unitFailure with
  | some failure => .error failure
  | none =>
      let serialized ← AccessUnitIo.serialize unit configuration.maxPacketBytes
      pure ⟨serialized, timestamp, type⟩

structure Encoder where
  pending : List Frame
  outputs : List Packet
  frameIndex : ℕ
  stepIndex : ℕ
  width : UInt32
  height : UInt32
  flushed : Bool

namespace Encoder

def new : Encoder := ⟨[], [], 0, 0, 0, 0, false⟩

def AcceptableFrame (frame : Frame) : Prop :=
  frame.pixelFormat = .yuv420p8 ∧ frame.width ≠ 0 ∧ frame.height ≠ 0 ∧
  frame.width.toNat % 2 = 0 ∧ frame.height.toNat % 2 = 0

instance (frame : Frame) : Decidable (AcceptableFrame frame) := by
  unfold AcceptableFrame
  infer_instance

/-- The first frame of a sequence fixes the dimensions. -/
def validateFrame (encoder : Encoder) (frame : Frame) : Result Encoder :=
  if ¬ AcceptableFrame frame then
    .error (codecError .invalidArgument
      "DCVC-UF requires nonempty even-dimension YUV420P8 frames")
  else if encoder.frameIndex ≠ 0 ∧
      (frame.width ≠ encoder.width ∨ frame.height ≠ encoder.height) then
    .error (codecError .invalidArgument
      "DCVC-UF does not support resolution changes within a sequence")
  else if encoder.frameIndex = 0 then
    .ok { encoder with width := frame.width, height := frame.height }
  else
    .ok encoder

/-- Whether the step at an index starts an intra frame. -/
def intraStep (period stepIndex : ℕ) : Bool :=
  stepIndex = 0 || period = 1 || (period > 1 && stepIndex ≠ 1 && stepIndex % period = 1)

theorem intraStep_eq_true {period stepIndex : ℕ} :
    intraStep period stepIndex = true ↔
      stepIndex = 0 ∨ period = 1 ∨ (1 < period ∧ stepIndex ≠ 1 ∧ stepIndex % period = 1) := by
  simp [intraStep, or_assoc, and_assoc]

theorem intraStep_eq_false {period stepIndex : ℕ} :
    intraStep period stepIndex = false ↔
      ¬ (stepIndex = 0 ∨ period = 1 ∨ (1 < period ∧ stepIndex ≠ 1 ∧ stepIndex % period = 1)) := by
  rw [← intraStep_eq_true, Bool.not_eq_true]

def resetsFeatureMemory (stepIndex : ℕ) : Bool := (stepIndex + groupFrames) % resetInterval = 1

/-- The access unit of the pending group, of whose frames the first `validCount` are valid. -/
def groupUnit (configuration : Configuration) (encoder : Encoder) (validCount : ℕ)
    (outcome : Outcome) : Result Packet := do
  let encoded ← outcome.encoded
  let timestamps := (encoder.pending.take validCount).map Frame.timestamp
  wrapAccessUnit configuration outcome.unitFailure .predicted encoder.width encoder.height
    (timestamps.headD 0)
    (makePayload .predicted encoded timestamps (resetsFeatureMemory encoder.stepIndex))

def emitPredicted (configuration : Configuration) (encoder : Encoder) (validCount : ℕ)
    (outcome : Outcome) : Result Unit × Encoder :=
  match groupUnit configuration encoder validCount outcome with
  | .error e => (.error e, encoder)
  | .ok packet =>
      (.ok (), { encoder with
        outputs := encoder.outputs ++ [packet]
        pending := []
        stepIndex := encoder.stepIndex + validCount })

/-- The access unit of an intra frame. -/
def intraUnit (configuration : Configuration) (frame : Frame) (outcome : Outcome) :
    Result Packet := do
  let encoded ← outcome.encoded
  wrapAccessUnit configuration outcome.unitFailure .intra frame.width frame.height
    frame.timestamp (makePayload .intra encoded [frame.timestamp] false)

def sendFrame (configuration : Configuration) (encoder : Encoder) (frame : Frame)
    (outcome : Outcome) : Result Unit × Encoder :=
  if encoder.flushed then
    (.error (codecError .invalidState "encoder is flushed"), encoder)
  else
    match encoder.validateFrame frame with
    | .error e => (.error e, encoder)
    | .ok encoder =>
        -- Only the first frame of a step can start an intra frame; frames inside an open
        -- group always join that group.
        if encoder.pending.isEmpty && intraStep configuration.gopSize encoder.stepIndex then
          match intraUnit configuration frame outcome with
          | .error e => (.error e, encoder)
          | .ok packet =>
              (.ok (), { encoder with
                outputs := encoder.outputs ++ [packet]
                stepIndex := encoder.stepIndex + 1
                frameIndex := encoder.frameIndex + 1 })
        else
          let encoder := { encoder with pending := encoder.pending ++ [frame] }
          if encoder.pending.length = groupFrames then
            match encoder.emitPredicted configuration groupFrames outcome with
            | (.error e, encoder) => (.error e, encoder)
            | (.ok (), encoder) =>
                (.ok (), { encoder with frameIndex := encoder.frameIndex + 1 })
          else
            (.ok (), { encoder with frameIndex := encoder.frameIndex + 1 })

def receiveAccessUnit (encoder : Encoder) : Result Packet × Encoder :=
  match encoder.outputs with
  | packet :: rest => (.ok packet, { encoder with outputs := rest })
  | [] =>
      if encoder.flushed then
        (.error (codecError .endOfStream "encoder is drained"), encoder)
      else
        (.error (codecError .tryAgain "encoder needs more input"), encoder)

/-- Copies of the last pending frame up to the group size. -/
def padPending (encoder : Encoder) : Encoder :=
  { encoder with
    pending := encoder.pending ++
      List.replicate (groupFrames - encoder.pending.length) (encoder.pending.getLastD default) }

def flush (configuration : Configuration) (encoder : Encoder) (outcome : Outcome) :
    Result Unit × Encoder :=
  if encoder.flushed then
    (.ok (), encoder)
  else if encoder.pending.isEmpty then
    (.ok (), { encoder with flushed := true })
  else
    match encoder.padPending.emitPredicted configuration encoder.pending.length outcome with
    | (.error e, encoder) => (.error e, encoder)
    | (.ok (), encoder) => (.ok (), { encoder with flushed := true })

/-- The state is cleared whatever the execution session answers. -/
def reset (encoder : Encoder) (answer : Result Unit) : Result Unit × Encoder :=
  (answer, { encoder with
    pending := [], outputs := [], frameIndex := 0, stepIndex := 0, flushed := false })

/-- Validation changes the dimensions only. -/
theorem validateFrame_eq_ok {encoder validated : Encoder} {frame : Frame}
    (h : encoder.validateFrame frame = .ok validated) :
    ∃ width height, validated = { encoder with width := width, height := height } := by
  unfold validateFrame at h
  split at h
  · cases h
  · split at h
    · cases h
    · split at h
      · cases h
        exact ⟨frame.width, frame.height, rfl⟩
      · cases h
        exact ⟨encoder.width, encoder.height, rfl⟩

/-- Everything a call of `sendFrame` can do. -/
inductive SendCase (configuration : Configuration) (encoder : Encoder) (frame : Frame)
    (outcome : Outcome) : Result Unit × Encoder → Prop
  | rejected (e : Error) : SendCase configuration encoder frame outcome (.error e, encoder)
  | intraFailed (validated : Encoder) (e : Error)
      (hv : encoder.validateFrame frame = .ok validated) :
      SendCase configuration encoder frame outcome (.error e, validated)
  | intra (validated : Encoder) (packet : Packet) (hf : encoder.flushed = false)
      (hv : encoder.validateFrame frame = .ok validated)
      (hp : encoder.pending = [])
      (hs : intraStep configuration.gopSize encoder.stepIndex = true)
      (hu : intraUnit configuration frame outcome = .ok packet) :
      SendCase configuration encoder frame outcome (.ok (),
        { validated with
          outputs := encoder.outputs ++ [packet]
          stepIndex := encoder.stepIndex + 1
          frameIndex := encoder.frameIndex + 1 })
  | joined (validated : Encoder) (hf : encoder.flushed = false)
      (hv : encoder.validateFrame frame = .ok validated)
      (hs : encoder.pending = [] → intraStep configuration.gopSize encoder.stepIndex = false)
      (hl : encoder.pending.length + 1 ≠ groupFrames) :
      SendCase configuration encoder frame outcome (.ok (),
        { validated with
          pending := encoder.pending ++ [frame]
          frameIndex := encoder.frameIndex + 1 })
  | groupFailed (validated : Encoder) (e : Error) (hf : encoder.flushed = false)
      (hv : encoder.validateFrame frame = .ok validated)
      (hl : encoder.pending.length + 1 = groupFrames)
      (hu : groupUnit configuration { validated with pending := encoder.pending ++ [frame] }
        groupFrames outcome = .error e) :
      SendCase configuration encoder frame outcome
        (.error e, { validated with pending := encoder.pending ++ [frame] })
  | group (validated : Encoder) (packet : Packet) (hf : encoder.flushed = false)
      (hv : encoder.validateFrame frame = .ok validated)
      (hl : encoder.pending.length + 1 = groupFrames)
      (hu : groupUnit configuration { validated with pending := encoder.pending ++ [frame] }
        groupFrames outcome = .ok packet) :
      SendCase configuration encoder frame outcome (.ok (),
        { validated with
          outputs := encoder.outputs ++ [packet]
          pending := []
          stepIndex := encoder.stepIndex + groupFrames
          frameIndex := encoder.frameIndex + 1 })

theorem sendFrame_cases (configuration : Configuration) (encoder : Encoder) (frame : Frame)
    (outcome : Outcome) :
    SendCase configuration encoder frame outcome
      (encoder.sendFrame configuration frame outcome) := by
  unfold sendFrame
  split
  · exact .rejected _
  rename_i hflushed
  have hf : encoder.flushed = false := by simpa using hflushed
  split
  · exact .rejected _
  rename_i validated hv
  obtain ⟨w, h, rfl⟩ := validateFrame_eq_ok hv
  split
  · rename_i hintra
    simp only [Bool.and_eq_true, List.isEmpty_iff] at hintra
    split
    · exact .intraFailed { encoder with width := w, height := h } _ hv
    · rename_i packet hu
      exact .intra { encoder with width := w, height := h } packet hf hv hintra.1 hintra.2 hu
  · rename_i hintra
    have hs : encoder.pending = [] → intraStep configuration.gopSize encoder.stepIndex = false := by
      intro hnil
      simpa [hnil] using hintra
    simp only [List.length_append, List.length_cons, List.length_nil, Nat.zero_add]
    split
    · rename_i hl
      simp only [emitPredicted]
      cases hu : groupUnit configuration
          { encoder with width := w, height := h, pending := encoder.pending ++ [frame] }
          groupFrames outcome with
      | error e => exact .groupFailed { encoder with width := w, height := h } e hf hv hl hu
      | ok packet => exact .group { encoder with width := w, height := h } packet hf hv hl hu
    · rename_i hl
      exact .joined { encoder with width := w, height := h } hf hv hs hl

end Encoder

end Nvcr.Uf
