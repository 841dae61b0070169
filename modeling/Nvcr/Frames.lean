import Mathlib.Tactic

/-! Errors, video frames, and packets shared by all codecs of the runtime. -/

namespace Nvcr

inductive ErrorCode where
  | invalidArgument
  | invalidState
  | ioError
  | malformedBitstream
  | resourceExhausted
  | dependencyUnavailable
  | backendError
  | notImplemented
  | internalError
  | tryAgain
  | endOfStream
  | missingArtifact
  | missingCodec
  | missingProvider
  | missingModelSet
  | incompatibleTarget
  | incompatiblePrecision
  | incompatibleVersion
  | digestMismatch
  | licenseRestricted
  deriving DecidableEq, Repr

structure Error where
  code : ErrorCode
  message : String
  subsystem : String
  deriving DecidableEq, Repr

abbrev Result := Except Error

abbrev Bytes := List UInt8

inductive PixelFormat where
  | yuv420p8
  | rgb24
  | rgba32
  | gray8
  deriving DecidableEq, Repr

inductive FrameType where
  | intra
  | predicted
  deriving DecidableEq, Repr

/-- Presentation times are signed 64-bit microseconds. -/
abbrev Timestamp := Int64

namespace Frame

/-- The product of two 32-bit dimensions never overflows the 64-bit size type, so the
overflow errors of the source are unreachable and have no counterpart. -/
def checkedPixels (width height : UInt32) : Result ℕ :=
  if width = 0 ∨ height = 0 then
    .error ⟨.invalidArgument, "frame dimensions must be non-zero", "frame"⟩
  else
    .ok (width.toNat * height.toNat)

def frameSizeBytes (width height : UInt32) (format : PixelFormat) : Result ℕ := do
  let count ← checkedPixels width height
  match format with
  | .yuv420p8 =>
      if width.toNat % 2 ≠ 0 ∨ height.toNat % 2 ≠ 0 then
        .error ⟨.invalidArgument, "YUV420 dimensions must both be even", "frame"⟩
      else
        .ok (count + count / 2)
  | .rgb24 => .ok (count * 3)
  | .rgba32 => .ok (count * 4)
  | .gray8 => .ok count

end Frame

/-- A frame is either the default empty one or has exactly the bytes its format needs. -/
structure Frame where
  width : UInt32
  height : UInt32
  pixelFormat : PixelFormat
  timestamp : Timestamp
  data : Bytes
  size_ok : Frame.frameSizeBytes width height pixelFormat = .ok data.length ∨
    (width = 0 ∧ height = 0 ∧ data = [])
  deriving DecidableEq

namespace Frame

/-- The smallest planar frame has six bytes. -/
theorem smallest_size_ok :
    frameSizeBytes 2 2 .yuv420p8 = .ok [0, 0, 0, 0, 0, 0].length ∨
      ((2 : UInt32) = 0 ∧ (2 : UInt32) = 0 ∧ ([0, 0, 0, 0, 0, 0] : Bytes) = []) :=
  .inl rfl

/-- A zero-filled frame. -/
def create (width height : UInt32) (format : PixelFormat) (timestamp : Timestamp) :
    Result Frame :=
  match h : frameSizeBytes width height format with
  | .error e => .error e
  | .ok size => .ok ⟨width, height, format, timestamp, List.replicate size 0, by simp [h]⟩

def copyFrom (width height : UInt32) (format : PixelFormat) (bytes : Bytes)
    (timestamp : Timestamp) : Result Frame :=
  match h : frameSizeBytes width height format with
  | .error e => .error e
  | .ok size =>
      if hs : bytes.length = size then
        .ok ⟨width, height, format, timestamp, bytes, by simp [h, hs]⟩
      else
        .error ⟨.invalidArgument, "input buffer has the wrong size", "frame"⟩

/-- Overwrite every byte of a frame. -/
def fill (frame : Frame) (byte : ℕ → UInt8) : Frame where
  width := frame.width
  height := frame.height
  pixelFormat := frame.pixelFormat
  timestamp := frame.timestamp
  data := (List.range frame.data.length).map byte
  size_ok := by
    rcases frame.size_ok with h | ⟨hw, hh, hd⟩
    · exact .inl (by simpa using h)
    · exact .inr ⟨hw, hh, by simp [hd]⟩

/-- The default frame, which has no pixels. -/
def empty : Frame where
  width := 0
  height := 0
  pixelFormat := .yuv420p8
  timestamp := 0
  data := []
  size_ok := .inr ⟨rfl, rfl, rfl⟩

instance : Inhabited Frame := ⟨empty⟩

end Frame

/-- One encoded access unit as the sessions exchange it; per-packet metadata is not read by
any modelled function. -/
structure Packet where
  data : Bytes
  timestamp : Timestamp
  frameType : FrameType
  deriving DecidableEq, Repr

end Nvcr
