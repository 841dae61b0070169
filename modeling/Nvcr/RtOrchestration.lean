import Nvcr.RtHostOps
import Nvcr.RtPayloads
import Nvcr.RtRansCodec
import Nvcr.CodecInterface

/-!
# DCVC-RT orchestration

The stages of a frame, the assets an orchestration holds once it is initialized, the backend's
own record of what its reference belongs to, and the decisions taken from it.
-/

namespace Nvcr.Rt

open StatefulResults Codec

inductive IntraStage where
  | analysis
  | hyperAnalysis
  | hyperSynthesis
  | spatialPrior1
  | spatialPrior2
  | spatialPrior3
  | synthesis
  deriving DecidableEq, Repr

inductive PredictedStage where
  | referenceFrame
  | referenceFeature
  | analysis
  | hyperAnalysis
  | prior
  | spatialPrior
  | synthesis
  deriving DecidableEq, Repr

inductive Stage where
  | intra (stage : IntraStage)
  | predicted (stage : PredictedStage)
  deriving DecidableEq, Repr

/-- The reference a backend holds, identified by the frame it is to be used for. -/
structure ReferenceState where
  hasFrame : Bool := false
  hasFeature : Bool := false
  nextFrameIndex : UInt64 := 0
  generation : UInt64 := 0
  deriving DecidableEq, Repr

namespace ReferenceState

def Matches (reference : ReferenceState) (state : SequenceStateView) : Prop :=
  reference.hasFrame = true ∧ reference.nextFrameIndex = state.frameIndex ∧
    reference.generation = state.generation

instance (reference : ReferenceState) (state : SequenceStateView) :
    Decidable (reference.Matches state) :=
  inferInstanceAs (Decidable (_ ∧ _))

/-- The record after a frame was reconstructed at a state of its sequence. -/
def commit (state : SequenceStateView) (hasFeature : Bool) : ReferenceState where
  hasFrame := true
  hasFeature := hasFeature
  nextFrameIndex := state.frameIndex + 1
  generation := state.generation

end ReferenceState

/-- What `initialize` loads for intra frames, with what it has checked. -/
structure IntraAssets (A : HostArithmetic) where
  tables : List RansCdfTable
  imageZGroup : ℕ
  gaussianYGroup : ℕ
  qEncoder : List A.Float
  qDecoder : List A.Float
  tables_ok : ∀ table ∈ tables, table.validateCdf = .ok ()
  imageZGroup_lt : imageZGroup < tables.length
  gaussianYGroup_lt : gaussianYGroup < tables.length
  qEncoder_length : qEncoder.length = 64 * 368
  qDecoder_length : qDecoder.length = 64 * 368

/-- What `initialize` loads for predicted frames, with what it has checked. -/
structure PredictedAssets (A : HostArithmetic) where
  tables : List RansCdfTable
  videoZGroup : ℕ
  gaussianYGroup : ℕ
  qEncoder : List A.Float
  qDecoder : List A.Float
  qFeature : List A.Float
  qReconstruction : List A.Float
  tables_ok : ∀ table ∈ tables, table.validateCdf = .ok ()
  videoZGroup_lt : videoZGroup < tables.length
  gaussianYGroup_lt : gaussianYGroup < tables.length
  qEncoder_length : qEncoder.length = 72 * 256
  qDecoder_length : qDecoder.length = 72 * 256
  qFeature_length : qFeature.length = 72 * 256
  qReconstruction_length : qReconstruction.length = 72 * 320

structure PredictedFrameDecision where
  qp : UInt32
  useFrameReference : Bool
  deriving DecidableEq, Repr

def orchestrationError (message : String) : Error := ⟨.backendError, message, "dcvcrt.orchestration"⟩

def orchestrationStateError (message : String) : Error :=
  ⟨.invalidState, message, "dcvcrt.orchestration"⟩

/-- The quantization shift of a predicted frame by its position in a period of eight. -/
def qpShift (frameIndex : UInt64) : UInt32 :=
  let indexMap : List ℕ := [0, 1, 0, 2, 0, 2, 0, 2]
  let shifts : List UInt32 := [0, 8, 4]
  shifts.getD (indexMap.getD (frameIndex % 8).toNat 0) 0

def selectFrame (baseQp : UInt32) (state : SequenceStateView) (reference : ReferenceState) :
    Result PredictedFrameDecision := do
  require (reference.Matches state) (orchestrationStateError "encoder device DPB is unavailable")
  require (baseQp < 64) (orchestrationError "base P-frame QP must be in [0, 63]")
  let qp := baseQp + qpShift state.frameIndex
  require (qp < 72) (orchestrationError "effective P-frame QP exceeds the 72-entry model table")
  pure ⟨qp, ¬ reference.hasFeature ∨ state.frameIndex % 64 = 1⟩

def validateDecodeReference (useFrameReference : Bool) (state : SequenceStateView)
    (reference : ReferenceState) : Result Unit := do
  require (reference.Matches state) (orchestrationStateError "decoder device DPB is unavailable")
  require (useFrameReference ∨ reference.hasFeature)
    (orchestrationStateError "P-frame feature reference is unavailable")

/-- The encoder's choice needs a matching reference and names a feature only where there is one. -/
theorem selectFrame_eq_ok {baseQp : UInt32} {state : SequenceStateView}
    {reference : ReferenceState} {decision : PredictedFrameDecision}
    (h : selectFrame baseQp state reference = .ok decision) :
    reference.Matches state ∧ decision.qp < 72 ∧
      (decision.useFrameReference = false → reference.hasFeature = true) := by
  simp only [selectFrame, bind_eq_ok, require_eq_ok] at h
  obtain ⟨-, hmatches, -, -, -, hqp, hdecision⟩ := h
  cases hdecision
  refine ⟨hmatches, hqp, fun huse => ?_⟩
  simp only [decide_eq_false_iff_not, not_or, not_not] at huse
  exact huse.1

theorem validateDecodeReference_eq_ok {useFrameReference : Bool} {state : SequenceStateView}
    {reference : ReferenceState} {u : Unit} :
    validateDecodeReference useFrameReference state reference = .ok u ↔
      reference.Matches state ∧ (useFrameReference = true ∨ reference.hasFeature = true) := by
  simp only [validateDecodeReference, bind_eq_ok, require_eq_ok]
  constructor
  · rintro ⟨-, hmatches, hfeature⟩
    exact ⟨hmatches, hfeature⟩
  · rintro ⟨hmatches, hfeature⟩
    exact ⟨(), hmatches, hfeature⟩

end Nvcr.Rt
