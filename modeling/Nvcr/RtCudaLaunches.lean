import Nvcr.KernelOwnership
import Nvcr.RtCudaKernels

/-!
# Launches of the device transforms

A launch is refused or names the grids of threads that run one after another. An operation is a
call of a transform with its pointers; it can be carried out on the device or, on spans with the
contents of the same buffers, by the transform of the host.
-/

namespace Nvcr.Rt.CudaOps

open KernelThreads
open HostOps (wrapSize)

variable {A : HostArithmetic}

inductive CudaError where
  | invalidValue
  | invalidConfiguration
  deriving DecidableEq, Repr

abbrev Grid (A : HostArithmetic) := List (DeviceThread A Unit)

abbrev Launched (A : HostArithmetic) := Except CudaError (List (Grid A))

def threadsPerBlock : ℕ := 256

def volume (shape : Shape4D) : ℕ :=
  wrapSize (shape.batch.toNat * shape.channels.toNat * shape.height.toNat * shape.width.toNat)

def blocks (count : ℕ) : ℕ := wrapSize (count + threadsPerBlock - 1) / threadsPerBlock

def InvalidShape (shape : Shape4D) : Prop :=
  shape.batch ≤ 0 ∨ shape.channels ≤ 0 ∨ shape.height ≤ 0 ∨ shape.width ≤ 0

instance (shape : Shape4D) : Decidable (InvalidShape shape) :=
  inferInstanceAs (Decidable (_ ∨ _))

/-- The size of a grid is a 32-bit value below a limit of the device, and not zero. -/
def launch (count : ℕ) (kernel : ℕ → DeviceThread A Unit) : Except CudaError (Grid A) :=
  let gridSize := blocks count % 2 ^ 32
  if gridSize = 0 ∨ 2 ^ 31 ≤ gridSize then .error .invalidConfiguration
  else
    .ok ((List.range gridSize).flatMap fun block =>
      (List.range threadsPerBlock).map fun thread => kernel (block * threadsPerBlock + thread))

def roundToInt8 (values quantized count : ℕ) : Launched A :=
  if count = 0 then .error .invalidValue
  else do return [← launch count (roundToInt8Kernel values quantized count)]

def int8ToHalf (values output count : ℕ) : Launched A :=
  if count = 0 then .error .invalidValue
  else do return [← launch count (int8ToHalfKernel values output count)]

def replicatePad (input output : ℕ) (inputShape : Shape4D) (paddedHeight paddedWidth : ℤ) :
    Launched A :=
  if InvalidShape inputShape ∨ paddedHeight < inputShape.height ∨
      paddedWidth < inputShape.width then .error .invalidValue
  else
    let count := wrapSize (inputShape.batch.toNat * inputShape.channels.toNat *
      paddedHeight.toNat * paddedWidth.toNat)
    do return [← launch count
      (replicatePadKernel input output inputShape paddedHeight paddedWidth count)]

def makeFourWayMask (mask : ℕ) (shape : Shape4D) (stage : ℤ) : Launched A :=
  if InvalidShape shape ∨ shape.channels % 4 ≠ 0 ∨ stage < 0 ∨ 3 < stage then .error .invalidValue
  else
    let count := volume shape
    do return [← launch count (makeFourWayMaskKernel mask shape stage count)]

def cropSpatial (input output : ℕ) (inputShape : Shape4D) (outputHeight outputWidth : ℤ) :
    Launched A :=
  if InvalidShape inputShape ∨ outputHeight ≤ 0 ∨ outputWidth ≤ 0 ∨
      inputShape.height < outputHeight ∨ inputShape.width < outputWidth then .error .invalidValue
  else
    let count := wrapSize (inputShape.batch.toNat * inputShape.channels.toNat *
      outputHeight.toNat * outputWidth.toNat)
    do return [← launch count
      (cropSpatialKernel input output inputShape outputHeight outputWidth count)]

def applyImagePrior (params spatialCount : ℕ) : Launched A :=
  if spatialCount = 0 then .error .invalidValue
  else do return [← launch spatialCount (imagePriorKernel params spatialCount)]

def applyImagePriorAndQuantize (params values spatialCount : ℕ) : Launched A :=
  if spatialCount = 0 then .error .invalidValue
  else do return [← launch spatialCount (imagePriorQuantKernel params values spatialCount)]

def rgb24ToYcbcrPadded (input : ℕ) (sourceWidth sourceHeight : ℤ) (output : ℕ)
    (paddedHeight paddedWidth : ℤ) : Launched A :=
  if sourceWidth ≤ 0 ∨ sourceHeight ≤ 0 ∨ paddedHeight < sourceHeight ∨
      paddedWidth < sourceWidth then .error .invalidValue
  else
    let count := wrapSize (paddedHeight.toNat * paddedWidth.toNat)
    do return [← launch count (rgb24ToYcbcrPaddedKernel input sourceWidth sourceHeight output
      paddedHeight paddedWidth count)]

def yuv420p8ToYcbcrPadded (input : ℕ) (sourceWidth sourceHeight : ℤ) (output : ℕ)
    (paddedHeight paddedWidth : ℤ) : Launched A :=
  if sourceWidth ≤ 0 ∨ sourceHeight ≤ 0 ∨ sourceWidth % 2 ≠ 0 ∨ sourceHeight % 2 ≠ 0 ∨
      paddedHeight < sourceHeight ∨ paddedWidth < sourceWidth then .error .invalidValue
  else
    let count := wrapSize (paddedHeight.toNat * paddedWidth.toNat)
    do return [← launch count (yuv420p8ToYcbcrPaddedKernel input sourceWidth sourceHeight output
      paddedHeight paddedWidth count)]

/-- The luma plane and the two chroma planes are filled by two grids. -/
def ycbcrPaddedToYuv420p8 (input : ℕ) (inputShape : Shape4D) (visibleWidth visibleHeight : ℤ)
    (output : ℕ) : Launched A :=
  if InvalidShape inputShape ∨ inputShape.batch ≠ 1 ∨ inputShape.channels ≠ 3 ∨
      visibleWidth ≤ 0 ∨ visibleHeight ≤ 0 ∨ visibleWidth % 2 ≠ 0 ∨ visibleHeight % 2 ≠ 0 ∨
      inputShape.width < visibleWidth ∨ inputShape.height < visibleHeight then
    .error .invalidValue
  else
    let yCount := wrapSize (visibleWidth.toNat * visibleHeight.toNat)
    let uvCount := yCount / 4
    do
      let luma ← launch yCount
        (ycbcrLumaToYuv420p8Kernel input inputShape visibleWidth output yCount)
      let chroma ← launch uvCount
        (ycbcrChromaToYuv420p8Kernel input inputShape visibleWidth visibleHeight output uvCount)
      return [luma, chroma]

def processWithMask (values scales means mask : ℕ) (residual : Option ℕ)
    (symbols reconstructed maskedScales count : ℕ) (forceZeroThreshold : A.Float) : Launched A :=
  if count = 0 then .error .invalidValue
  else do return [← launch count (processWithMaskKernel values scales means mask residual symbols
    reconstructed maskedScales count forceZeroThreshold)]

def reduceChannelQuarters (input output : ℕ) (inputShape : Shape4D) : Launched A :=
  if InvalidShape inputShape ∨ inputShape.channels % 4 ≠ 0 then .error .invalidValue
  else
    let quarterSize := volume inputShape / 4
    do return [← launch quarterSize (reduceChannelQuartersKernel input output quarterSize)]

def reduceMaskedQuarters (input mask output : ℕ) (inputShape : Shape4D) : Launched A :=
  if InvalidShape inputShape ∨ inputShape.channels % 4 ≠ 0 then .error .invalidValue
  else
    let quarterSize := volume inputShape / 4
    do return [← launch quarterSize (reduceMaskedQuartersKernel input mask output quarterSize)]

def restoreFourWay (symbols means mask output : ℕ) (outputShape : Shape4D) : Launched A :=
  if InvalidShape outputShape ∨ outputShape.channels % 4 ≠ 0 then .error .invalidValue
  else
    let quarterSize := volume outputShape / 4
    do return [← launch quarterSize (restoreFourWayKernel symbols means mask output quarterSize)]

def makeTwoWayMask (mask : ℕ) (shape : Shape4D) (stage : ℤ) : Launched A :=
  if InvalidShape shape ∨ shape.channels % 2 ≠ 0 ∨ stage < 0 ∨ 1 < stage then .error .invalidValue
  else
    let count := volume shape
    do return [← launch count (makeTwoWayMaskKernel mask shape stage count)]

def clampMin (values count : ℕ) (minimum : A.Float) : Launched A :=
  if count = 0 then .error .invalidValue
  else do return [← launch count (clampMinKernel values count minimum)]

def clampReciprocalWithQuant (quantStep values count : ℕ) : Launched A :=
  if count = 0 then .error .invalidValue
  else do return [← launch count (clampReciprocalWithQuantKernel quantStep values count)]

def reduceChannelHalves (input output : ℕ) (inputShape : Shape4D) : Launched A :=
  if InvalidShape inputShape ∨ inputShape.channels % 2 ≠ 0 then .error .invalidValue
  else
    let halfSize := volume inputShape / 2
    do return [← launch halfSize (reduceChannelHalvesKernel input output halfSize)]

def reduceMaskedHalves (input mask output : ℕ) (inputShape : Shape4D) : Launched A :=
  if InvalidShape inputShape ∨ inputShape.channels % 2 ≠ 0 then .error .invalidValue
  else
    let halfSize := volume inputShape / 2
    do return [← launch halfSize (reduceMaskedHalvesKernel input mask output halfSize)]

def restoreTwoWay (symbols means mask output : ℕ) (outputShape : Shape4D) : Launched A :=
  if InvalidShape outputShape ∨ outputShape.channels % 2 ≠ 0 then .error .invalidValue
  else
    let halfSize := volume outputShape / 2
    do return [← launch halfSize (restoreTwoWayKernel symbols means mask output halfSize)]

def addInPlace (first second count : ℕ) : Launched A :=
  if count = 0 then .error .invalidValue
  else do return [← launch count (addInPlaceKernel first second count)]

def multiplyBroadcastInPlace (values factors spatialCount : ℕ) (channels : ℤ) : Launched A :=
  if spatialCount = 0 ∨ channels ≤ 0 then .error .invalidValue
  else
    let count := wrapSize (spatialCount * channels.toNat)
    do return [← launch count (multiplyBroadcastKernel values factors spatialCount channels count)]

def addAndMultiply (first second quantStep count : ℕ) : Launched A :=
  if count = 0 then .error .invalidValue
  else do return [← launch count (addAndMultiplyKernel first second quantStep count)]

def buildEncodeIndexes (symbols scales output count : ℕ) (forceZeroThreshold : A.Float) :
    Launched A :=
  if count = 0 then .error .invalidValue
  else do return [← launch count
    (buildEncodeIndexesKernel symbols scales output count forceZeroThreshold)]

def buildDecodeIndexes (scales output count : ℕ) (forceZeroThreshold : A.Float) : Launched A :=
  if count = 0 then .error .invalidValue
  else do return [← launch count (buildDecodeIndexesKernel scales output count forceZeroThreshold)]

def halves (m : DeviceMemory A) (address : ℕ) : List A.Half := m (half address)

def bytes (m : DeviceMemory A) (address : ℕ) : Bytes := m (byte address)

def int8s (m : DeviceMemory A) (address : ℕ) : List Int8 := m (int8 address)

def int16s (m : DeviceMemory A) (address : ℕ) : List Int16 := m (int16 address)

def fillHalf (m : DeviceMemory A) (address : ℕ) (new : List A.Half) : DeviceMemory A :=
  fill m (half address) new

def fillByte (m : DeviceMemory A) (address : ℕ) (new : Bytes) : DeviceMemory A :=
  fill m (byte address) new

def fillInt8 (m : DeviceMemory A) (address : ℕ) (new : List Int8) : DeviceMemory A :=
  fill m (int8 address) new

def fillInt16 (m : DeviceMemory A) (address : ℕ) (new : List Int16) : DeviceMemory A :=
  fill m (int16 address) new

def planes (shape : Shape4D) : ℕ := shape.batch.toNat * shape.channels.toNat

/-- The number of elements of a shape, whatever its size. -/
def elements (shape : Shape4D) : ℕ := planes shape * (shape.height.toNat * shape.width.toNat)

/-- A call of a transform with its pointers and parameters. -/
inductive Operation (A : HostArithmetic) where
  | roundToInt8 (values quantized count : ℕ)
  | int8ToHalf (values output count : ℕ)
  | replicatePad (input output : ℕ) (inputShape : Shape4D) (paddedHeight paddedWidth : ℤ)
  | cropSpatial (input output : ℕ) (inputShape : Shape4D) (outputHeight outputWidth : ℤ)
  | applyImagePrior (params spatialCount : ℕ)
  | applyImagePriorAndQuantize (params values spatialCount : ℕ)
  | rgb24ToYcbcrPadded (input : ℕ) (sourceWidth sourceHeight : ℤ) (output : ℕ)
      (paddedHeight paddedWidth : ℤ)
  | yuv420p8ToYcbcrPadded (input : ℕ) (sourceWidth sourceHeight : ℤ) (output : ℕ)
      (paddedHeight paddedWidth : ℤ)
  | ycbcrPaddedToYuv420p8 (input : ℕ) (inputShape : Shape4D) (visibleWidth visibleHeight : ℤ)
      (output : ℕ)
  | makeFourWayMask (mask : ℕ) (shape : Shape4D) (stage : ℤ)
  | makeTwoWayMask (mask : ℕ) (shape : Shape4D) (stage : ℤ)
  | processWithMask (values scales means mask : ℕ) (residual : Option ℕ)
      (symbols reconstructed maskedScales count : ℕ) (forceZeroThreshold : A.Float)
  | reduceChannelQuarters (input output : ℕ) (inputShape : Shape4D)
  | reduceMaskedQuarters (input mask output : ℕ) (inputShape : Shape4D)
  | restoreFourWay (symbols means mask output : ℕ) (outputShape : Shape4D)
  | reduceChannelHalves (input output : ℕ) (inputShape : Shape4D)
  | reduceMaskedHalves (input mask output : ℕ) (inputShape : Shape4D)
  | restoreTwoWay (symbols means mask output : ℕ) (outputShape : Shape4D)
  | clampMin (values count : ℕ) (minimum : A.Float)
  | clampReciprocalWithQuant (quantStep values count : ℕ)
  | addInPlace (first second count : ℕ)
  | multiplyBroadcastInPlace (values factors spatialCount : ℕ) (channels : ℤ)
  | addAndMultiply (first second quantStep count : ℕ)
  | buildEncodeIndexes (symbols scales output count : ℕ) (forceZeroThreshold : A.Float)
  | buildDecodeIndexes (scales output count : ℕ) (forceZeroThreshold : A.Float)

namespace Operation

def device : Operation A → Launched A
  | .roundToInt8 values quantized count => CudaOps.roundToInt8 values quantized count
  | .int8ToHalf values output count => CudaOps.int8ToHalf values output count
  | .replicatePad input output inputShape paddedHeight paddedWidth =>
      CudaOps.replicatePad input output inputShape paddedHeight paddedWidth
  | .cropSpatial input output inputShape outputHeight outputWidth =>
      CudaOps.cropSpatial input output inputShape outputHeight outputWidth
  | .applyImagePrior params spatialCount => CudaOps.applyImagePrior params spatialCount
  | .applyImagePriorAndQuantize params values spatialCount =>
      CudaOps.applyImagePriorAndQuantize params values spatialCount
  | .rgb24ToYcbcrPadded input sourceWidth sourceHeight output paddedHeight paddedWidth =>
      CudaOps.rgb24ToYcbcrPadded input sourceWidth sourceHeight output paddedHeight paddedWidth
  | .yuv420p8ToYcbcrPadded input sourceWidth sourceHeight output paddedHeight paddedWidth =>
      CudaOps.yuv420p8ToYcbcrPadded input sourceWidth sourceHeight output paddedHeight paddedWidth
  | .ycbcrPaddedToYuv420p8 input inputShape visibleWidth visibleHeight output =>
      CudaOps.ycbcrPaddedToYuv420p8 input inputShape visibleWidth visibleHeight output
  | .makeFourWayMask mask shape stage => CudaOps.makeFourWayMask mask shape stage
  | .makeTwoWayMask mask shape stage => CudaOps.makeTwoWayMask mask shape stage
  | .processWithMask values scales means mask residual symbols reconstructed maskedScales count
      forceZeroThreshold =>
      CudaOps.processWithMask values scales means mask residual symbols reconstructed maskedScales
        count forceZeroThreshold
  | .reduceChannelQuarters input output inputShape =>
      CudaOps.reduceChannelQuarters input output inputShape
  | .reduceMaskedQuarters input mask output inputShape =>
      CudaOps.reduceMaskedQuarters input mask output inputShape
  | .restoreFourWay symbols means mask output outputShape =>
      CudaOps.restoreFourWay symbols means mask output outputShape
  | .reduceChannelHalves input output inputShape =>
      CudaOps.reduceChannelHalves input output inputShape
  | .reduceMaskedHalves input mask output inputShape =>
      CudaOps.reduceMaskedHalves input mask output inputShape
  | .restoreTwoWay symbols means mask output outputShape =>
      CudaOps.restoreTwoWay symbols means mask output outputShape
  | .clampMin values count minimum => CudaOps.clampMin values count minimum
  | .clampReciprocalWithQuant quantStep values count =>
      CudaOps.clampReciprocalWithQuant quantStep values count
  | .addInPlace first second count => CudaOps.addInPlace first second count
  | .multiplyBroadcastInPlace values factors spatialCount channels =>
      CudaOps.multiplyBroadcastInPlace values factors spatialCount channels
  | .addAndMultiply first second quantStep count =>
      CudaOps.addAndMultiply first second quantStep count
  | .buildEncodeIndexes symbols scales output count forceZeroThreshold =>
      CudaOps.buildEncodeIndexes symbols scales output count forceZeroThreshold
  | .buildDecodeIndexes scales output count forceZeroThreshold =>
      CudaOps.buildDecodeIndexes scales output count forceZeroThreshold

/-- The spans of the host hold what the buffers hold. A span that gives the number of elements is
cut to the count of the call; what the host stores goes to the front of the buffers. -/
def host (m : DeviceMemory A) : Operation A → Option (DeviceMemory A)
  | .roundToInt8 values quantized count =>
      (HostOps.roundToInt8 ((halves m values).take count) (int8s m quantized).length).map
        fun stored => fillInt8 (fillHalf m values stored.1) quantized stored.2
  | .int8ToHalf values output count =>
      (HostOps.int8ToHalf ((int8s m values).take count) (halves m output).length).map
        fun stored => fillHalf m output stored
  | .replicatePad input output inputShape paddedHeight paddedWidth =>
      (HostOps.replicatePad (halves m input) (halves m output).length inputShape paddedHeight
        paddedWidth).map fun stored => fillHalf m output stored
  | .cropSpatial input output inputShape outputHeight outputWidth =>
      (HostOps.cropSpatial (halves m input) (halves m output).length inputShape outputHeight
        outputWidth).map fun stored => fillHalf m output stored
  | .applyImagePrior params spatialCount =>
      (HostOps.applyImagePrior (halves m params) spatialCount).map
        fun stored => fillHalf m params stored
  | .applyImagePriorAndQuantize params values spatialCount =>
      (HostOps.applyImagePriorAndQuantize (halves m params) (halves m values) spatialCount).map
        fun stored => fillHalf (fillHalf m params stored.1) values stored.2
  | .rgb24ToYcbcrPadded input sourceWidth sourceHeight output paddedHeight paddedWidth =>
      (HostOps.rgb24ToYcbcrPadded (bytes m input) sourceWidth sourceHeight
        (halves m output).length paddedHeight paddedWidth).map
        fun stored => fillHalf m output stored
  | .yuv420p8ToYcbcrPadded input sourceWidth sourceHeight output paddedHeight paddedWidth =>
      (HostOps.yuv420p8ToYcbcrPadded (bytes m input) sourceWidth sourceHeight
        (halves m output).length paddedHeight paddedWidth).map
        fun stored => fillHalf m output stored
  | .ycbcrPaddedToYuv420p8 input inputShape visibleWidth visibleHeight output =>
      (HostOps.ycbcrPaddedToYuv420p8 (halves m input) inputShape visibleWidth visibleHeight
        (bytes m output).length).map fun stored => fillByte m output stored
  | .makeFourWayMask mask shape stage =>
      (HostOps.makeFourWayMask (halves m mask).length shape stage).map
        fun stored => fillHalf m mask stored
  | .makeTwoWayMask mask shape stage =>
      (HostOps.makeTwoWayMask (halves m mask).length shape stage).map
        fun stored => fillHalf m mask stored
  | .processWithMask values scales means mask residual symbols reconstructed maskedScales count
      forceZeroThreshold =>
      (HostOps.processWithMask ((halves m values).take count) (halves m scales) (halves m means)
        (halves m mask) (residual.elim 0 fun residual => (halves m residual).length)
        (halves m symbols).length (halves m reconstructed).length (halves m maskedScales).length
        forceZeroThreshold).map fun stored =>
          let m := residual.elim m fun residual => fillHalf m residual stored.residual
          fillHalf (fillHalf (fillHalf m symbols stored.symbols) reconstructed
            stored.reconstructed) maskedScales stored.maskedScales
  | .reduceChannelQuarters input output inputShape =>
      (HostOps.reduceChannelQuarters (halves m input) (halves m output).length inputShape).map
        fun stored => fillHalf m output stored
  | .reduceMaskedQuarters input mask output inputShape =>
      (HostOps.reduceMaskedQuarters (halves m input) (halves m mask) (halves m output).length
        inputShape).map fun stored => fillHalf m output stored
  | .restoreFourWay symbols means mask output outputShape =>
      (HostOps.restoreFourWay (halves m symbols) (halves m means) (halves m mask)
        (halves m output).length outputShape).map fun stored => fillHalf m output stored
  | .reduceChannelHalves input output inputShape =>
      (HostOps.reduceChannelHalves (halves m input) (halves m output).length inputShape).map
        fun stored => fillHalf m output stored
  | .reduceMaskedHalves input mask output inputShape =>
      (HostOps.reduceMaskedHalves (halves m input) (halves m mask) (halves m output).length
        inputShape).map fun stored => fillHalf m output stored
  | .restoreTwoWay symbols means mask output outputShape =>
      (HostOps.restoreTwoWay (halves m symbols) (halves m means) (halves m mask)
        (halves m output).length outputShape).map fun stored => fillHalf m output stored
  | .clampMin values count minimum =>
      (HostOps.clampMin ((halves m values).take count) minimum).map
        fun stored => fillHalf m values stored
  | .clampReciprocalWithQuant quantStep values count =>
      (HostOps.clampReciprocalWithQuant (halves m quantStep) ((halves m values).take count)).map
        fun stored => fillHalf (fillHalf m quantStep stored.1) values stored.2
  | .addInPlace first second count =>
      (HostOps.addInPlace ((halves m first).take count) (halves m second)).map
        fun stored => fillHalf m first stored
  | .multiplyBroadcastInPlace values factors spatialCount channels =>
      (HostOps.multiplyBroadcastInPlace (halves m values) (halves m factors) spatialCount
        channels).map fun stored => fillHalf m values stored
  | .addAndMultiply first second quantStep count =>
      (HostOps.addAndMultiply ((halves m first).take count) (halves m second)
        (halves m quantStep)).map fun stored => fillHalf m first stored
  | .buildEncodeIndexes symbols scales output count forceZeroThreshold =>
      (HostOps.buildEncodeIndexes (halves m symbols) (halves m scales)
        ((int16s m output).take count).length forceZeroThreshold).map
        fun stored => fillInt16 m output stored
  | .buildDecodeIndexes scales output count forceZeroThreshold =>
      (HostOps.buildDecodeIndexes (halves m scales) ((bytes m output).take count).length
        forceZeroThreshold).map fun stored => fillByte m output stored

/-- No count of the call exceeds 2^31, the buffers have the sizes that the call needs, and no
buffer that it stores to is passed to it a second time. -/
def Fits (m : DeviceMemory A) : Operation A → Prop
  | .roundToInt8 values quantized count =>
      count ≤ 2 ^ 31 ∧ count ≤ (halves m values).length ∧ count ≤ (int8s m quantized).length
  | .int8ToHalf values output count =>
      count ≤ 2 ^ 31 ∧ count ≤ (int8s m values).length ∧ count ≤ (halves m output).length
  | .replicatePad input output inputShape paddedHeight paddedWidth =>
      input ≠ output ∧ elements inputShape ≤ (halves m input).length ∧
        planes inputShape * (paddedHeight.toNat * paddedWidth.toNat) ≤ 2 ^ 31 ∧
        planes inputShape * (paddedHeight.toNat * paddedWidth.toNat) ≤ (halves m output).length
  | .cropSpatial input output inputShape outputHeight outputWidth =>
      input ≠ output ∧ elements inputShape ≤ 2 ^ 31 ∧
        elements inputShape ≤ (halves m input).length ∧
        planes inputShape * (outputHeight.toNat * outputWidth.toNat) ≤ (halves m output).length
  | .applyImagePrior params spatialCount =>
      2 * spatialCount ≤ 2 ^ 31 ∧ 2 * spatialCount ≤ (halves m params).length
  | .applyImagePriorAndQuantize params values spatialCount =>
      params ≠ values ∧ 256 * spatialCount ≤ 2 ^ 31 ∧
        2 * spatialCount ≤ (halves m params).length ∧
        256 * spatialCount ≤ (halves m values).length
  | .rgb24ToYcbcrPadded input sourceWidth sourceHeight output paddedHeight paddedWidth =>
      sourceWidth.toNat * sourceHeight.toNat * 3 ≤ (bytes m input).length ∧
        3 * (paddedHeight.toNat * paddedWidth.toNat) ≤ 2 ^ 31 ∧
        3 * (paddedHeight.toNat * paddedWidth.toNat) ≤ (halves m output).length
  | .yuv420p8ToYcbcrPadded input sourceWidth sourceHeight output paddedHeight paddedWidth =>
      sourceWidth.toNat * sourceHeight.toNat +
          2 * (sourceWidth.toNat / 2 * (sourceHeight.toNat / 2)) ≤ (bytes m input).length ∧
        3 * (paddedHeight.toNat * paddedWidth.toNat) ≤ 2 ^ 31 ∧
        3 * (paddedHeight.toNat * paddedWidth.toNat) ≤ (halves m output).length
  | .ycbcrPaddedToYuv420p8 input inputShape visibleWidth visibleHeight output =>
      elements inputShape ≤ 2 ^ 31 ∧ elements inputShape ≤ (halves m input).length ∧
        visibleWidth.toNat * visibleHeight.toNat +
          2 * (visibleWidth.toNat * visibleHeight.toNat / 4) ≤ (bytes m output).length
  | .makeFourWayMask mask shape _ =>
      elements shape ≤ 2 ^ 31 ∧ elements shape ≤ (halves m mask).length
  | .makeTwoWayMask mask shape _ =>
      elements shape ≤ 2 ^ 31 ∧ elements shape ≤ (halves m mask).length
  | .processWithMask values scales means mask residual symbols reconstructed maskedScales count _ =>
      count ≤ 2 ^ 31 ∧
        (∀ input ∈ [values, scales, means, mask], count ≤ (halves m input).length) ∧
        (∀ output ∈ residual.toList ++ [symbols, reconstructed, maskedScales],
          count ≤ (halves m output).length ∧ output ∉ [values, scales, means, mask]) ∧
        (residual.toList ++ [symbols, reconstructed, maskedScales]).Nodup
  | .reduceChannelQuarters input output inputShape =>
      input ≠ output ∧ elements inputShape ≤ 2 ^ 31 ∧
        elements inputShape ≤ (halves m input).length ∧
        elements inputShape / 4 ≤ (halves m output).length
  | .reduceMaskedQuarters input mask output inputShape =>
      input ≠ output ∧ mask ≠ output ∧ elements inputShape ≤ 2 ^ 31 ∧
        elements inputShape ≤ (halves m input).length ∧
        elements inputShape ≤ (halves m mask).length ∧
        elements inputShape / 4 ≤ (halves m output).length
  | .restoreFourWay symbols means mask output outputShape =>
      symbols ≠ output ∧ means ≠ output ∧ mask ≠ output ∧ elements outputShape ≤ 2 ^ 31 ∧
        elements outputShape / 4 ≤ (halves m symbols).length ∧
        elements outputShape ≤ (halves m means).length ∧
        elements outputShape ≤ (halves m mask).length ∧
        elements outputShape ≤ (halves m output).length
  | .reduceChannelHalves input output inputShape =>
      input ≠ output ∧ elements inputShape ≤ 2 ^ 31 ∧
        elements inputShape ≤ (halves m input).length ∧
        elements inputShape / 2 ≤ (halves m output).length
  | .reduceMaskedHalves input mask output inputShape =>
      input ≠ output ∧ mask ≠ output ∧ elements inputShape ≤ 2 ^ 31 ∧
        elements inputShape ≤ (halves m input).length ∧
        elements inputShape ≤ (halves m mask).length ∧
        elements inputShape / 2 ≤ (halves m output).length
  | .restoreTwoWay symbols means mask output outputShape =>
      symbols ≠ output ∧ means ≠ output ∧ mask ≠ output ∧ elements outputShape ≤ 2 ^ 31 ∧
        elements outputShape / 2 ≤ (halves m symbols).length ∧
        elements outputShape ≤ (halves m means).length ∧
        elements outputShape ≤ (halves m mask).length ∧
        elements outputShape ≤ (halves m output).length
  | .clampMin values count _ => count ≤ 2 ^ 31 ∧ count ≤ (halves m values).length
  | .clampReciprocalWithQuant quantStep values count =>
      quantStep ≠ values ∧ count ≤ 2 ^ 31 ∧ count ≤ (halves m quantStep).length ∧
        count ≤ (halves m values).length
  | .addInPlace first second count =>
      first ≠ second ∧ count ≤ 2 ^ 31 ∧ count ≤ (halves m first).length ∧
        count ≤ (halves m second).length
  | .multiplyBroadcastInPlace values factors spatialCount channels =>
      values ≠ factors ∧ spatialCount * channels.toNat ≤ 2 ^ 31 ∧
        spatialCount * channels.toNat ≤ (halves m values).length ∧
        spatialCount ≤ (halves m factors).length
  | .addAndMultiply first second quantStep count =>
      first ≠ second ∧ first ≠ quantStep ∧ count ≤ 2 ^ 31 ∧ count ≤ (halves m first).length ∧
        count ≤ (halves m second).length ∧ count ≤ (halves m quantStep).length
  | .buildEncodeIndexes symbols scales output count _ =>
      count ≤ 2 ^ 31 ∧ count ≤ (halves m symbols).length ∧ count ≤ (halves m scales).length ∧
        count ≤ (int16s m output).length
  | .buildDecodeIndexes scales output count _ =>
      count ≤ 2 ^ 31 ∧ count ≤ (halves m scales).length ∧ count ≤ (bytes m output).length

end Operation

end Nvcr.Rt.CudaOps
