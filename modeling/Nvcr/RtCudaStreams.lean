import Nvcr.RtCudaFrames
import Nvcr.RtExactSessions

/-!
# Streams of device transforms

The calls queued on a stream against the same calls on the host. Between two grids of a stream
there is a barrier; within a grid the threads run in any order, access by access.
-/

namespace Nvcr.Rt.CudaOps

open KernelThreads

variable {A : HostArithmetic} {m : DeviceMemory A}

/-- One call. -/
theorem agrees {op : Operation A} (h : Operation.Fits m op) : Agrees m op := by
  cases op with
  | roundToInt8 => exact agrees_roundToInt8 h
  | int8ToHalf => exact agrees_int8ToHalf h
  | replicatePad => exact agrees_replicatePad h
  | cropSpatial => exact agrees_cropSpatial h
  | applyImagePrior => exact agrees_applyImagePrior h
  | applyImagePriorAndQuantize => exact agrees_applyImagePriorAndQuantize h
  | rgb24ToYcbcrPadded => exact agrees_rgb24ToYcbcrPadded h
  | yuv420p8ToYcbcrPadded => exact agrees_yuv420p8ToYcbcrPadded h
  | ycbcrPaddedToYuv420p8 => exact agrees_ycbcrPaddedToYuv420p8 h
  | makeFourWayMask => exact agrees_makeFourWayMask h
  | makeTwoWayMask => exact agrees_makeTwoWayMask h
  | processWithMask => exact agrees_processWithMask h
  | reduceChannelQuarters => exact agrees_reduceChannelQuarters h
  | reduceMaskedQuarters => exact agrees_reduceMaskedQuarters h
  | restoreFourWay => exact agrees_restoreFourWay h
  | reduceChannelHalves => exact agrees_reduceChannelHalves h
  | reduceMaskedHalves => exact agrees_reduceMaskedHalves h
  | restoreTwoWay => exact agrees_restoreTwoWay h
  | clampMin => exact agrees_clampMin h
  | clampReciprocalWithQuant => exact agrees_clampReciprocalWithQuant h
  | addInPlace => exact agrees_addInPlace h
  | multiplyBroadcastInPlace => exact agrees_multiplyBroadcastInPlace h
  | addAndMultiply => exact agrees_addAndMultiply h
  | buildEncodeIndexes => exact agrees_buildEncodeIndexes h
  | buildDecodeIndexes => exact agrees_buildDecodeIndexes h

/-- The grids of all calls in the order of the calls, or the error of the first refused one. -/
def stream : List (Operation A) → Launched A
  | [] => .ok []
  | op :: rest => do
      let grids ← op.device
      let others ← stream rest
      return grids ++ others

end Nvcr.Rt.CudaOps
