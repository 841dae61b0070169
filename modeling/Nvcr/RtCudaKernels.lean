import Nvcr.KernelThreads
import Nvcr.RtHostOps

/-!
# DCVC-RT inter-stage transforms on the device

The kernels and the functions that launch them. Device memory is a set of typed buffers and a
pointer is the address of one. Scalar functions are those of the host. Sizes wrap where a launch
computes its count; an index below the count of a launch does not.
-/

namespace Nvcr.Rt.CudaOps

open KernelThreads
open HostOps (wrapSize)

inductive Element where
  | half
  | byte
  | int8
  | int16
  deriving DecidableEq, Repr

structure Buffer where
  element : Element
  address : ℕ
  deriving DecidableEq, Repr

abbrev Element.Value (A : HostArithmetic) : Element → Type
  | .half => A.Half
  | .byte => UInt8
  | .int8 => Int8
  | .int16 => Int16

abbrev Cell (A : HostArithmetic) (b : Buffer) : Type := b.element.Value A

abbrev DeviceMemory (A : HostArithmetic) := Memory (Cell A)

abbrev DeviceThread (A : HostArithmetic) (α : Type) := Thread (Cell A) α

abbrev half (address : ℕ) : Buffer := ⟨.half, address⟩
abbrev byte (address : ℕ) : Buffer := ⟨.byte, address⟩
abbrev int8 (address : ℕ) : Buffer := ⟨.int8, address⟩
abbrev int16 (address : ℕ) : Buffer := ⟨.int16, address⟩

variable {A : HostArithmetic}

def readHalf (values index : ℕ) : DeviceThread A A.Half := Thread.read (T := Cell A) (half values) index

def writeHalf (values index : ℕ) (value : A.Half) : DeviceThread A Unit :=
  Thread.write (T := Cell A) (half values) index value

def readByte (values index : ℕ) : DeviceThread A UInt8 := Thread.read (T := Cell A) (byte values) index

def writeByte (values index : ℕ) (value : UInt8) : DeviceThread A Unit :=
  Thread.write (T := Cell A) (byte values) index value

def readInt8 (values index : ℕ) : DeviceThread A Int8 := Thread.read (T := Cell A) (int8 values) index

def writeInt8 (values index : ℕ) (value : Int8) : DeviceThread A Unit :=
  Thread.write (T := Cell A) (int8 values) index value

def writeInt16 (values index : ℕ) (value : Int16) : DeviceThread A Unit :=
  Thread.write (T := Cell A) (int16 values) index value

def loadHalf (values index : ℕ) : DeviceThread A A.Float := do
  return A.toFloat (← readHalf values index)

def storeHalf (values index : ℕ) (value : A.Float) : DeviceThread A Unit :=
  writeHalf values index (A.toHalf value)

/-- The threads of a grid past the count return at once. -/
def guarded (count : ℕ) (kernel : ℕ → DeviceThread A Unit) (index : ℕ) : DeviceThread A Unit :=
  if count ≤ index then pure () else kernel index

def scaleMin : A.Float := A.ofRat (11 / 100)

def scaleMax : A.Float := A.ofRat 16

def logScaleMin : A.Float := A.ofRat (-22072749131897207 / 10000000000000000)

def logStepRecip : A.Float := A.ofRat (25516414672012925 / 1000000000000000)

def roundToInt8Kernel (values quantized count : ℕ) : ℕ → DeviceThread A Unit :=
  guarded count fun index => do
    let value := A.round (← loadHalf values index)
    let value := A.fmin (A.ofRat 127) (A.fmax (A.ofRat (-128)) value)
    storeHalf values index value
    writeInt8 quantized index (Int8.ofInt (A.truncate value))

def int8ToHalfKernel (values output count : ℕ) : ℕ → DeviceThread A Unit :=
  guarded count fun index => do
    writeHalf output index (A.toHalf (A.ofRat (← readInt8 values index).toInt))

def replicatePadKernel (input output : ℕ) (shape : Shape4D) (paddedHeight paddedWidth : ℤ)
    (count : ℕ) : ℕ → DeviceThread A Unit :=
  guarded count fun index => do
    let x := index % paddedWidth.toNat
    let row := index / paddedWidth.toNat
    let y := row % paddedHeight.toNat
    let channelBatch := row / paddedHeight.toNat
    let sourceX := min x (shape.width - 1).toNat
    let sourceY := min y (shape.height - 1).toNat
    let source := (channelBatch * shape.height.toNat + sourceY) * shape.width.toNat + sourceX
    writeHalf output index (← readHalf input source)

def cropSpatialKernel (input output : ℕ) (inputShape : Shape4D) (outputHeight outputWidth : ℤ)
    (count : ℕ) : ℕ → DeviceThread A Unit :=
  guarded count fun index => do
    let x := index % outputWidth.toNat
    let row := index / outputWidth.toNat
    let y := row % outputHeight.toNat
    let channelBatch := row / outputHeight.toNat
    let source := (channelBatch * inputShape.height.toNat + y) * inputShape.width.toNat + x
    writeHalf output index (← readHalf input source)

def imagePriorKernel (params spatialCount : ℕ) : ℕ → DeviceThread A Unit :=
  guarded spatialCount fun index => do
    let qEncSigmoid := 1 / (1 + A.exp (-(← loadHalf params index)))
    let qDecSigmoid := 1 / (1 + A.exp (-(← loadHalf params (spatialCount + index))))
    storeHalf params index (qEncSigmoid * A.ofRat (3 / 2) + A.ofRat (1 / 2))
    storeHalf params (spatialCount + index) (qDecSigmoid * A.ofRat (3 / 2) + A.ofRat (1 / 2))

def imagePriorQuantKernel (params values spatialCount : ℕ) : ℕ → DeviceThread A Unit :=
  guarded spatialCount fun index => do
    let qEncSigmoid := 1 / (1 + A.exp (-(← loadHalf params index)))
    let qDecSigmoid := 1 / (1 + A.exp (-(← loadHalf params (spatialCount + index))))
    let qEnc := qEncSigmoid * A.ofRat (3 / 2) + A.ofRat (1 / 2)
    let qDec := qDecSigmoid * A.ofRat (3 / 2) + A.ofRat (1 / 2)
    storeHalf params index qEnc
    storeHalf params (spatialCount + index) qDec
    (List.range 256).forM fun channel => do
      let offset := channel * spatialCount + index
      storeHalf values offset ((← loadHalf values offset) * qEnc)

def rgb24ToYcbcrPaddedKernel (input : ℕ) (sourceWidth sourceHeight : ℤ) (output : ℕ)
    (paddedHeight paddedWidth : ℤ) (count : ℕ) : ℕ → DeviceThread A Unit :=
  guarded count fun index => do
    let x := index % paddedWidth.toNat
    let y := index / paddedWidth.toNat
    let sourceX := if x < sourceWidth.toNat then x else sourceWidth.toNat - 1
    let sourceY := if y < sourceHeight.toNat then y else sourceHeight.toNat - 1
    let source := (sourceY * sourceWidth.toNat + sourceX) * 3
    let kr := A.ofRat (2126 / 10000)
    let kg := A.ofRat (7152 / 10000)
    let kb := A.ofRat (722 / 10000)
    let r := A.ofRat (← readByte input source).toNat / A.ofRat 255
    let g := A.ofRat (← readByte input (source + 1)).toNat / A.ofRat 255
    let b := A.ofRat (← readByte input (source + 2)).toNat / A.ofRat 255
    let luma := kr * r + kg * g + kb * b
    let cb := A.ofRat (1 / 2) * (b - luma) / (A.ofRat 1 - kb) + A.ofRat (1 / 2)
    let cr := A.ofRat (1 / 2) * (r - luma) / (A.ofRat 1 - kr) + A.ofRat (1 / 2)
    let plane := paddedHeight.toNat * paddedWidth.toNat
    let offset := y * paddedWidth.toNat + x
    storeHalf output offset luma
    storeHalf output (plane + offset) cb
    storeHalf output (2 * plane + offset) cr

def yuv420p8ToYcbcrPaddedKernel (input : ℕ) (sourceWidth sourceHeight : ℤ) (output : ℕ)
    (paddedHeight paddedWidth : ℤ) (count : ℕ) : ℕ → DeviceThread A Unit :=
  guarded count fun index => do
    let x := index % paddedWidth.toNat
    let y := index / paddedWidth.toNat
    let sourceX := if x < sourceWidth.toNat then x else sourceWidth.toNat - 1
    let sourceY := if y < sourceHeight.toNat then y else sourceHeight.toNat - 1
    let ySize := sourceWidth.toNat * sourceHeight.toNat
    let uvWidth := sourceWidth.toNat / 2
    let uvSize := uvWidth * (sourceHeight.toNat / 2)
    let yIndex := sourceY * sourceWidth.toNat + sourceX
    let uvIndex := sourceY / 2 * uvWidth + sourceX / 2
    let luma := A.ofRat (← readByte input yIndex).toNat / A.ofRat 255
    let cb := A.ofRat (← readByte input (ySize + uvIndex)).toNat / A.ofRat 255
    let cr := A.ofRat (← readByte input (ySize + uvSize + uvIndex)).toNat / A.ofRat 255
    let plane := paddedHeight.toNat * paddedWidth.toNat
    let offset := y * paddedWidth.toNat + x
    storeHalf output offset luma
    storeHalf output (plane + offset) cb
    storeHalf output (2 * plane + offset) cr

def quantizeLuma (value : A.Float) : UInt8 :=
  UInt8.ofInt (A.truncate (A.round (A.fmin (A.ofRat 1) (A.fmax (A.ofRat 0) value) * A.ofRat 255)))

def quantizeChroma (value : A.Float) : UInt8 :=
  UInt8.ofInt (A.truncate (A.fmin (A.ofRat 255) (A.fmax (A.ofRat 0) (value * A.ofRat 255))))

def ycbcrLumaToYuv420p8Kernel (input : ℕ) (inputShape : Shape4D) (visibleWidth : ℤ)
    (output count : ℕ) : ℕ → DeviceThread A Unit :=
  guarded count fun index => do
    let x := index % visibleWidth.toNat
    let y := index / visibleWidth.toNat
    let source := y * inputShape.width.toNat + x
    writeByte output index (quantizeLuma (← loadHalf input source))

/-- One thread averages a two by two block of each chroma plane. -/
def ycbcrChromaToYuv420p8Kernel (input : ℕ) (inputShape : Shape4D)
    (visibleWidth visibleHeight : ℤ) (output count : ℕ) : ℕ → DeviceThread A Unit :=
  guarded count fun index => do
    let uvWidth := visibleWidth.toNat / 2
    let uvX := index % uvWidth
    let uvY := index / uvWidth
    let sourceX := uvX * 2
    let sourceY := uvY * 2
    let plane := inputShape.height.toNat * inputShape.width.toNat
    let sums ← (List.range 2).foldlM (fun sums dy =>
      (List.range 2).foldlM (fun (sums : A.Float × A.Float) dx => do
        let spatial := (sourceY + dy) * inputShape.width.toNat + sourceX + dx
        let cb ← loadHalf input (plane + spatial)
        let cr ← loadHalf input (2 * plane + spatial)
        return (sums.1 + cb, sums.2 + cr)) sums) (A.ofRat 0, A.ofRat 0)
    let ySize := visibleWidth.toNat * visibleHeight.toNat
    writeByte output (ySize + index) (quantizeChroma (sums.1 * A.ofRat (1 / 4)))
    writeByte output (ySize + count + index) (quantizeChroma (sums.2 * A.ofRat (1 / 4)))

def patterns : List (List ℕ) := [[0, 1, 2, 3], [3, 2, 1, 0], [2, 3, 0, 1], [1, 0, 3, 2]]

def makeFourWayMaskKernel (mask : ℕ) (shape : Shape4D) (stage : ℤ) (count : ℕ) :
    ℕ → DeviceThread A Unit :=
  guarded count fun index => do
    let x := index % shape.width.toNat
    let row := index / shape.width.toNat
    let y := row % shape.height.toNat
    let channel := row / shape.height.toNat % shape.channels.toNat
    let quarter := channel / (shape.channels.toNat / 4)
    let parity := y % 2 * 2 + x % 2
    let pattern := (patterns.getD stage.toNat []).getD quarter 0
    writeHalf mask index (A.toHalf (if pattern = parity then A.ofRat 1 else A.ofRat 0))

def processWithMaskKernel (values scales means mask : ℕ) (residual : Option ℕ)
    (symbols reconstructed maskedScales count : ℕ) (forceZeroThreshold : A.Float) :
    ℕ → DeviceThread A Unit :=
  guarded count fun index => do
    let maskValue ← loadHalf mask index
    let scale := (← loadHalf scales index) * maskValue
    let mean := (← loadHalf means index) * maskValue
    let valueResidual := ((← loadHalf values index) - mean) * maskValue
    let symbol := A.round valueResidual
    let symbol := if A.less (A.ofRat 0) forceZeroThreshold && A.lessEq scale forceZeroThreshold
      then A.ofRat 0 else symbol
    let symbol := A.fmin (A.ofRat 127) (A.fmax (A.ofRat (-128)) symbol)
    match residual with
    | none => pure ()
    | some residual => storeHalf residual index valueResidual
    storeHalf symbols index symbol
    storeHalf reconstructed index (symbol + mean)
    storeHalf maskedScales index scale

def reduceChannelQuartersKernel (input output quarterSize : ℕ) : ℕ → DeviceThread A Unit :=
  guarded quarterSize fun index => do
    let value ← (List.range 4).foldlM (fun (value : A.Float) quarter => do
      return value + (← loadHalf input (index + quarter * quarterSize))) (A.ofRat 0)
    storeHalf output index value

def reduceMaskedQuartersKernel (input mask output quarterSize : ℕ) : ℕ → DeviceThread A Unit :=
  guarded quarterSize fun index => do
    let value ← (List.range 4).foldlM (fun (value : A.Float) quarter => do
      let source := index + quarter * quarterSize
      return value + (← loadHalf input source) * (← loadHalf mask source)) (A.ofRat 0)
    storeHalf output index value

def restoreFourWayKernel (symbols means mask output quarterSize : ℕ) : ℕ → DeviceThread A Unit :=
  guarded quarterSize fun index => do
    let symbol ← loadHalf symbols index
    (List.range 4).forM fun quarter => do
      let destination := index + quarter * quarterSize
      let value := (symbol + (← loadHalf means destination)) * (← loadHalf mask destination)
      storeHalf output destination value

def makeTwoWayMaskKernel (mask : ℕ) (shape : Shape4D) (stage : ℤ) (count : ℕ) :
    ℕ → DeviceThread A Unit :=
  guarded count fun index => do
    let x := index % shape.width.toNat
    let row := index / shape.width.toNat
    let y := row % shape.height.toNat
    let channel := row / shape.height.toNat % shape.channels.toNat
    let firstHalf : Bool := channel < shape.channels.toNat / 2
    let diagonal : Bool := y % 2 = x % 2
    let selected := if stage = 0 then firstHalf == diagonal else firstHalf != diagonal
    writeHalf mask index (A.toHalf (if selected then A.ofRat 1 else A.ofRat 0))

def clampMinKernel (values count : ℕ) (minimum : A.Float) : ℕ → DeviceThread A Unit :=
  guarded count fun index => do
    storeHalf values index (A.fmax (← loadHalf values index) minimum)

def clampReciprocalWithQuantKernel (quantStep values count : ℕ) : ℕ → DeviceThread A Unit :=
  guarded count fun index => do
    let quant := A.toHalf (A.fmax (← loadHalf quantStep index) (A.ofRat (1 / 2)))
    writeHalf quantStep index quant
    let reciprocal := A.toHalf (1 / A.toFloat quant)
    storeHalf values index ((← loadHalf values index) * A.toFloat reciprocal)

def reduceChannelHalvesKernel (input output halfSize : ℕ) : ℕ → DeviceThread A Unit :=
  guarded halfSize fun index => do
    storeHalf output index ((← loadHalf input index) + (← loadHalf input (index + halfSize)))

def reduceMaskedHalvesKernel (input mask output halfSize : ℕ) : ℕ → DeviceThread A Unit :=
  guarded halfSize fun index => do
    let first := (← loadHalf input index) * (← loadHalf mask index)
    let second := (← loadHalf input (index + halfSize)) * (← loadHalf mask (index + halfSize))
    storeHalf output index (first + second)

def restoreTwoWayKernel (symbols means mask output halfSize : ℕ) : ℕ → DeviceThread A Unit :=
  guarded halfSize fun index => do
    let symbol ← loadHalf symbols index
    (List.range 2).forM fun part => do
      let destination := index + part * halfSize
      storeHalf output destination
        ((symbol + (← loadHalf means destination)) * (← loadHalf mask destination))

def addInPlaceKernel (first second count : ℕ) : ℕ → DeviceThread A Unit :=
  guarded count fun index => do
    storeHalf first index ((← loadHalf first index) + (← loadHalf second index))

def multiplyBroadcastKernel (values factors spatialCount : ℕ) (channels : ℤ) (count : ℕ) :
    ℕ → DeviceThread A Unit :=
  guarded count fun index => do
    let spatial := index % spatialCount
    let channel := index / spatialCount
    if channels.toNat ≤ channel then pure ()
    else storeHalf values index ((← loadHalf values index) * (← loadHalf factors spatial))

def addAndMultiplyKernel (first second quantStep count : ℕ) : ℕ → DeviceThread A Unit :=
  guarded count fun index => do
    let sum := A.toHalf ((← loadHalf first index) + (← loadHalf second index))
    storeHalf first index (A.toFloat sum * (← loadHalf quantStep index))

def scaleIndex (scale : A.Float) : UInt8 :=
  let scale := A.fmin scaleMax (A.fmax scaleMin scale)
  let index := (A.log scale - logScaleMin) * logStepRecip
  UInt8.ofInt (A.truncate index)

/-- The bits of the symbol above those of the index. -/
def encodeIndex (symbol : Int16) (index : UInt8) : Int16 :=
  Int16.ofNat (symbol.toUInt16.toNat <<< 8 ||| index.toNat)

def buildEncodeIndexesKernel (symbols scales output count : ℕ) (forceZeroThreshold : A.Float) :
    ℕ → DeviceThread A Unit :=
  guarded count fun index => do
    let scale ← loadHalf scales index
    if A.less (A.ofRat 0) forceZeroThreshold && A.lessEq scale forceZeroThreshold then
      writeInt16 output index 0
    else
      let symbol := Int16.ofInt (A.truncate (← loadHalf symbols index))
      writeInt16 output index (encodeIndex symbol (scaleIndex scale))

def buildDecodeIndexesKernel (scales output count : ℕ) (forceZeroThreshold : A.Float) :
    ℕ → DeviceThread A Unit :=
  guarded count fun index => do
    let scale ← loadHalf scales index
    writeByte output index
      (if A.less (A.ofRat 0) forceZeroThreshold && A.lessEq scale forceZeroThreshold then 0
        else scaleIndex scale)

end Nvcr.Rt.CudaOps
