import Nvcr.Frames
import Nvcr.StatefulResults

/-!
# The codec interface

The sequence state that a session keeps for each direction, the view of it that it passes to
its backend, and what a backend offers.
-/

namespace Nvcr

open StatefulResults

namespace Frame

theorem copyFrom_eq_ok {width height : UInt32} {format : PixelFormat} {bytes : Bytes}
    {timestamp : Timestamp} {frame : Frame}
    (h : copyFrom width height format bytes timestamp = .ok frame) :
    frame.width = width ∧ frame.height = height ∧ frame.timestamp = timestamp ∧
      frameSizeBytes frame.width frame.height frame.pixelFormat = .ok frame.data.length := by
  unfold copyFrom at h
  split at h
  · cases h
  · rename_i size hsize
    split at h
    · rename_i hlength
      cases h
      exact ⟨rfl, rfl, rfl, hsize.trans (congrArg Except.ok hlength.symm)⟩
    · cases h

theorem exists_copyFrom {width height : UInt32} {format : PixelFormat} {bytes : Bytes}
    (h : frameSizeBytes width height format = .ok bytes.length) (timestamp : Timestamp) :
    ∃ frame, copyFrom width height format bytes timestamp = .ok frame := by
  unfold copyFrom
  split
  · rename_i e he
    rw [he] at h
    cases h
  · rename_i size hsize
    rw [hsize] at h
    cases h
    rw [dif_pos rfl]
    exact ⟨_, rfl⟩

/-- Only sizes without pixels need no bytes. -/
theorem frameSizeBytes_pos {width height : UInt32} {format : PixelFormat} {size : ℕ}
    (h : frameSizeBytes width height format = .ok size) : 0 < size := by
  obtain ⟨count, hcount, hsize⟩ := bind_eq_ok.mp h
  have hpos : 0 < count := by
    unfold checkedPixels at hcount
    split at hcount
    · cases hcount
    · rename_i hnonzero
      cases hcount
      rw [not_or] at hnonzero
      have hwidth : 0 < width.toNat := UInt32.lt_iff_toNat_lt.mp (UInt32.pos_iff_ne_zero.mpr hnonzero.1)
      have hheight : 0 < height.toNat := UInt32.lt_iff_toNat_lt.mp (UInt32.pos_iff_ne_zero.mpr hnonzero.2)
      exact Nat.mul_pos hwidth hheight
  clear h hcount
  cases format with
  | yuv420p8 =>
      simp only [] at hsize
      split at hsize
      · cases hsize
      · cases hsize
        omega
  | rgb24 | rgba32 | gray8 =>
      cases hsize
      omega

/-- Copying a frame gives the same frame, and only frames with pixels can be copied. -/
theorem copyFrom_self {frame copied : Frame} (h : copyFrom frame.width frame.height
    frame.pixelFormat frame.data frame.timestamp = .ok copied) :
    copied = frame ∧ frame.data.length ≠ 0 := by
  unfold copyFrom at h
  split at h
  · cases h
  · rename_i size hsize
    split at h
    · rename_i hlength
      cases h
      refine ⟨rfl, ?_⟩
      rw [hlength]
      exact Nat.pos_iff_ne_zero.mp (frameSizeBytes_pos hsize)
    · cases h

end Frame

namespace Codec

structure SequenceStateView where
  referenceFrame : Option Frame
  latentState : Bytes
  frameIndex : UInt64
  gopPosition : UInt32
  generation : UInt64
  deriving DecidableEq

structure SequenceState where
  gopSize : UInt32
  referenceFrame : Option Frame := none
  latentState : Bytes := []
  frameIndex : UInt64 := 0
  generation : UInt64 := 0
  hasReference : Bool := false
  deriving DecidableEq

namespace SequenceState

def stateError (message : String) : Error := ⟨.invalidState, message, "codec.state"⟩

def nextFrameType (state : SequenceState) : Result FrameType :=
  if state.gopSize = 0 then .error (stateError "GOP size is zero")
  else if ¬ state.hasReference ∨ state.frameIndex % state.gopSize.toUInt64 = 0 then .ok .intra
  else .ok .predicted

def validatePacket (state : SequenceState) (frameType : FrameType) : Result Unit :=
  require (¬ (frameType = .predicted ∧ ¬ state.hasReference))
    (stateError "predicted frame received without a reference frame")

def view (state : SequenceState) : SequenceStateView where
  referenceFrame := state.referenceFrame
  latentState := state.latentState
  frameIndex := state.frameIndex
  gopPosition :=
    if state.gopSize = 0 then 0 else (state.frameIndex % state.gopSize.toUInt64).toUInt32
  generation := state.generation

/-- The state after a frame was accepted; a predicted frame may come without a new picture. -/
def committed (state : SequenceState) (reconstructedFrame : Frame) (latentState : Bytes) :
    SequenceState :=
  { state with
    referenceFrame :=
      if reconstructedFrame.data.length ≠ 0 then some reconstructedFrame else state.referenceFrame
    latentState := latentState
    hasReference := true
    frameIndex := state.frameIndex + 1 }

def commit (state : SequenceState) (reconstructedFrame : Frame) (latentState : Bytes)
    (frameType : FrameType) : Result SequenceState := do
  require (¬ (reconstructedFrame.data.length = 0 ∧ frameType = .intra))
    ⟨.backendError, "backend returned an empty reference frame", "codec.state"⟩
  require (¬ (frameType = .predicted ∧ ¬ state.hasReference))
    (stateError "cannot commit a predicted frame without a reference")
  pure (state.committed reconstructedFrame latentState)

def reset (state : SequenceState) : SequenceState where
  gopSize := state.gopSize
  generation := state.generation + 1

theorem commit_eq_ok {state state' : SequenceState} {reconstructedFrame : Frame}
    {latentState : Bytes} {frameType : FrameType} :
    state.commit reconstructedFrame latentState frameType = .ok state' ↔
      (frameType = .intra → reconstructedFrame.data.length ≠ 0) ∧
      (frameType = .predicted → state.hasReference = true) ∧
      state' = state.committed reconstructedFrame latentState := by
  simp only [commit, bind_eq_ok, require_eq_ok]
  constructor
  · rintro ⟨-, hframe, -, href, hstate⟩
    cases hstate
    refine ⟨fun htype hempty => hframe ⟨hempty, htype⟩, fun htype => ?_, rfl⟩
    by_contra hnone
    exact href ⟨htype, hnone⟩
  · rintro ⟨hframe, href, rfl⟩
    exact ⟨(), fun hbad => hframe hbad.2 hbad.1, (), fun hbad => hbad.2 (href hbad.1), rfl⟩

theorem validatePacket_eq_ok {state : SequenceState} {frameType : FrameType} {u : Unit} :
    state.validatePacket frameType = .ok u ↔
      (frameType = .predicted → state.hasReference = true) := by
  simp [validatePacket]

/-- A predicted frame is scheduled only behind a reference. -/
theorem hasReference_of_nextFrameType {state : SequenceState}
    (h : state.nextFrameType = .ok .predicted) : state.hasReference = true := by
  unfold nextFrameType at h
  split at h
  · cases h
  · split at h
    · cases h
    · rename_i hnot
      by_contra hnone
      exact hnot (.inl hnone)

end SequenceState

structure CodecEncodeResult where
  payload : Bytes
  reconstructedFrame : Frame
  latentState : Bytes
  effectiveQp : UInt32

structure CodecDecodeResult where
  frame : Frame
  latentState : Bytes

/-- A backend with state `σ`; `π` is what its provider does during a call. -/
structure CodecBackend (π σ : Type) where
  encode : π → Frame → FrameType → SequenceStateView → Action Error σ CodecEncodeResult
  decode : π → Bytes → FrameType → Timestamp → SequenceStateView →
    Action Error σ CodecDecodeResult
  flush : π → Action Error σ Unit
  resetEncoder : σ → σ
  resetDecoder : σ → σ

end Codec

end Nvcr
