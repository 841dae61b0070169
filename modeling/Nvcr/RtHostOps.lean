import Nvcr.Frames
import Nvcr.NestedLoops

/-!
# DCVC-RT inter-stage transforms on the host

The scalar operations are a parameter, so that the transforms can be read over binary16 and
binary32 as well as over exact numbers. A transform answers `none` where the source returns
false. It takes the size of each span that it only writes and returns the values it stores
there, from the front; a span that it updates in place is taken and returned whole.
-/

namespace Nvcr.Rt

/-- The scalar types and operations of the host: half-precision storage, single-precision
computation, and the conversions between them. -/
structure HostArithmetic where
  Half : Type
  Float : Type
  toHalf : Float → Half
  toFloat : Half → Float
  ofRat : ℚ → Float
  /-- Conversion to an integer type, toward zero. -/
  truncate : Float → ℤ
  add : Float → Float → Float
  sub : Float → Float → Float
  mul : Float → Float → Float
  div : Float → Float → Float
  neg : Float → Float
  exp : Float → Float
  log : Float → Float
  /-- Nearest integer, halves away from zero. -/
  round : Float → Float
  fmin : Float → Float → Float
  fmax : Float → Float → Float
  less : Float → Float → Bool
  lessEq : Float → Float → Bool
  halfBytes : Half → Bytes

namespace HostArithmetic

variable (A : HostArithmetic)

instance : Add A.Float := ⟨A.add⟩
instance : Sub A.Float := ⟨A.sub⟩
instance : Mul A.Float := ⟨A.mul⟩
instance : Div A.Float := ⟨A.div⟩
instance : Neg A.Float := ⟨A.neg⟩
instance : Zero A.Float := ⟨A.ofRat 0⟩
instance : One A.Float := ⟨A.ofRat 1⟩
instance : Zero A.Half := ⟨A.toHalf 0⟩

end HostArithmetic

/-- Tensor dimensions are signed 32-bit values in the source. -/
structure Shape4D where
  batch : ℤ
  channels : ℤ
  height : ℤ
  width : ℤ
  deriving DecidableEq, Repr

namespace HostOps

variable {A : HostArithmetic}

/-- Arithmetic of the 64-bit size type. -/
def wrapSize (value : ℕ) : ℕ := value % 2 ^ 64

def InvalidShape (shape : Shape4D) : Prop :=
  shape.batch ≤ 0 ∨ shape.channels ≤ 0 ∨ shape.height ≤ 0 ∨ shape.width ≤ 0

instance (shape : Shape4D) : Decidable (InvalidShape shape) :=
  inferInstanceAs (Decidable (_ ∨ _))

def volume (shape : Shape4D) : ℕ :=
  wrapSize (shape.batch.toNat * shape.channels.toNat * shape.height.toNat * shape.width.toNat)

def load (values : List A.Half) (index : ℕ) : A.Float := A.toFloat (values.getD index 0)

def scaleMin : A.Float := A.ofRat (11 / 100)

def scaleMax : A.Float := A.ofRat 16

def logScaleMin : A.Float := A.ofRat (-22072749131897207 / 10000000000000000)

def logStepRecip : A.Float := A.ofRat (25516414672012925 / 1000000000000000)

def quantizeLuma (value : A.Float) : UInt8 :=
  UInt8.ofInt (A.truncate (A.round (A.fmin (A.ofRat 1) (A.fmax (A.ofRat 0) value) * A.ofRat 255)))

def quantizeChroma (value : A.Float) : UInt8 :=
  UInt8.ofInt (A.truncate (A.fmin (A.ofRat 255) (A.fmax (A.ofRat 0) (value * A.ofRat 255))))

def scaleIndex (scale : A.Float) : UInt8 :=
  let scale := A.fmin scaleMax (A.fmax scaleMin scale)
  UInt8.ofInt (A.truncate ((A.log scale - logScaleMin) * logStepRecip))

def sigmoidQuant (value : A.Float) : A.Float :=
  (1 / (1 + A.exp (-value))) * A.ofRat (3 / 2) + A.ofRat (1 / 2)

/-- Symbols are clamped to the range of a signed byte. -/
def clampSymbol (value : A.Float) : A.Float := A.fmin (A.ofRat 127) (A.fmax (A.ofRat (-128)) value)

def roundToInt8 (values : List A.Half) (quantizedSize : ℕ) :
    Option (List A.Half × List Int8) :=
  if values.isEmpty ∨ quantizedSize < values.length then none
  else
    let rounded := values.map fun value => clampSymbol (A.round (A.toFloat value))
    some (rounded.map A.toHalf, rounded.map fun value => Int8.ofInt (A.truncate value))

def halfOfInt8 (value : Int8) : A.Half := A.toHalf (A.ofRat value.toInt)

def int8ToHalf (values : List Int8) (outputSize : ℕ) : Option (List A.Half) :=
  if values.isEmpty ∨ outputSize < values.length then none
  else some (values.map halfOfInt8)

/-- The values replicate padding stores, plane by plane and row by row. -/
def padded (input : List A.Half) (planes height width outHeight outWidth : ℕ) : List A.Half :=
  (List.range planes).flatMap fun plane =>
    (List.range outHeight).flatMap fun y =>
      (List.range outWidth).map fun x =>
        input.getD ((plane * height + min y (height - 1)) * width + min x (width - 1)) 0

def replicatePad (input : List A.Half) (outputSize : ℕ) (inputShape : Shape4D)
    (paddedHeight paddedWidth : ℤ) : Option (List A.Half) :=
  if InvalidShape inputShape ∨ paddedHeight < inputShape.height ∨
      paddedWidth < inputShape.width then none
  else
    let planes := inputShape.batch.toNat * inputShape.channels.toNat
    let outHeight := paddedHeight.toNat
    let outWidth := paddedWidth.toNat
    if input.length < volume inputShape ∨
        outputSize < wrapSize (planes * outHeight * outWidth) then none
    else
      some (padded input planes inputShape.height.toNat inputShape.width.toNat outHeight outWidth)

/-- The values a spatial crop stores, plane by plane and row by row. -/
def cropped (input : List A.Half) (planes height width outHeight outWidth : ℕ) : List A.Half :=
  (List.range planes).flatMap fun plane =>
    (List.range outHeight).flatMap fun y =>
      (List.range outWidth).map fun x => input.getD ((plane * height + y) * width + x) 0

def cropSpatial (input : List A.Half) (outputSize : ℕ) (inputShape : Shape4D)
    (outputHeight outputWidth : ℤ) : Option (List A.Half) :=
  if InvalidShape inputShape ∨ outputHeight ≤ 0 ∨ outputWidth ≤ 0 ∨
      inputShape.height < outputHeight ∨ inputShape.width < outputWidth then none
  else
    let planes := inputShape.batch.toNat * inputShape.channels.toNat
    let outHeight := outputHeight.toNat
    let outWidth := outputWidth.toNat
    if input.length < volume inputShape ∨
        outputSize < wrapSize (planes * outHeight * outWidth) then none
    else
      some (cropped input planes inputShape.height.toNat inputShape.width.toNat outHeight outWidth)

/-- The two quantization planes at the front of the parameters, mapped through the sigmoid. -/
def quantPlanes (params : List A.Half) (spatialCount : ℕ) : List A.Half :=
  (params.take (2 * spatialCount)).map (fun value => A.toHalf (sigmoidQuant (A.toFloat value))) ++
    params.drop (2 * spatialCount)

def applyImagePrior (params : List A.Half) (spatialCount : ℕ) : Option (List A.Half) :=
  if spatialCount = 0 ∨ params.length < wrapSize (2 * spatialCount) then none
  else some (quantPlanes params spatialCount)

/-- Besides the planes, the latent is scaled by the unrounded encoder quantization. -/
def applyImagePriorAndQuantize (params values : List A.Half) (spatialCount : ℕ) :
    Option (List A.Half × List A.Half) :=
  if spatialCount = 0 ∨ params.length < wrapSize (2 * spatialCount) ∨
      values.length < wrapSize (256 * spatialCount) then none
  else
    let scaled := (List.range (256 * spatialCount)).map fun offset =>
      A.toHalf (load values offset * sigmoidQuant (load params (offset % spatialCount)))
    some (quantPlanes params spatialCount, scaled ++ values.drop (256 * spatialCount))

/-- One plane of a padded frame whose source pixel is given by a function of the clamped
coordinates. -/
def paddedPlane (width height outWidth outHeight : ℕ) (pixel : ℕ → ℕ → A.Half) : List A.Half :=
  (List.range outHeight).flatMap fun y =>
    (List.range outWidth).map fun x => pixel (min y (height - 1)) (min x (width - 1))

def byteOverMax (input : Bytes) (index : ℕ) : A.Float :=
  A.ofRat (input.getD index 0).toNat / A.ofRat 255

def rgb24ToYcbcrPadded (input : Bytes) (sourceWidth sourceHeight : ℤ) (outputSize : ℕ)
    (paddedHeight paddedWidth : ℤ) : Option (List A.Half) :=
  if sourceWidth ≤ 0 ∨ sourceHeight ≤ 0 ∨ paddedHeight < sourceHeight ∨
      paddedWidth < sourceWidth then none
  else
    let width := sourceWidth.toNat
    let height := sourceHeight.toNat
    let outWidth := paddedWidth.toNat
    let outHeight := paddedHeight.toNat
    if input.length < wrapSize (width * height * 3) ∨
        outputSize < wrapSize (3 * (outHeight * outWidth)) then none
    else
      let kr := A.ofRat (2126 / 10000)
      let kg := A.ofRat (7152 / 10000)
      let kb := A.ofRat (722 / 10000)
      let red := fun y x => byteOverMax (A := A) input ((y * width + x) * 3)
      let green := fun y x => byteOverMax (A := A) input ((y * width + x) * 3 + 1)
      let blue := fun y x => byteOverMax (A := A) input ((y * width + x) * 3 + 2)
      let luma := fun y x => kr * red y x + kg * green y x + kb * blue y x
      let cb := fun y x =>
        A.ofRat (1 / 2) * (blue y x - luma y x) / (A.ofRat 1 - kb) + A.ofRat (1 / 2)
      let cr := fun y x =>
        A.ofRat (1 / 2) * (red y x - luma y x) / (A.ofRat 1 - kr) + A.ofRat (1 / 2)
      some (paddedPlane width height outWidth outHeight (fun y x => A.toHalf (luma y x)) ++
        paddedPlane width height outWidth outHeight (fun y x => A.toHalf (cb y x)) ++
        paddedPlane width height outWidth outHeight (fun y x => A.toHalf (cr y x)))

def yuv420p8ToYcbcrPadded (input : Bytes) (sourceWidth sourceHeight : ℤ) (outputSize : ℕ)
    (paddedHeight paddedWidth : ℤ) : Option (List A.Half) :=
  if sourceWidth ≤ 0 ∨ sourceHeight ≤ 0 ∨ sourceWidth % 2 ≠ 0 ∨ sourceHeight % 2 ≠ 0 ∨
      paddedHeight < sourceHeight ∨ paddedWidth < sourceWidth then none
  else
    let width := sourceWidth.toNat
    let height := sourceHeight.toNat
    let outWidth := paddedWidth.toNat
    let outHeight := paddedHeight.toNat
    let ySize := width * height
    let uvWidth := width / 2
    let uvSize := uvWidth * (height / 2)
    if input.length < wrapSize (ySize + 2 * uvSize) ∨
        outputSize < wrapSize (3 * (outHeight * outWidth)) then none
    else
      let luma := fun y x => A.toHalf (byteOverMax input (y * width + x))
      let cb := fun y x => A.toHalf (byteOverMax input (ySize + (y / 2 * uvWidth + x / 2)))
      let cr := fun y x => A.toHalf (byteOverMax input (ySize + uvSize + (y / 2 * uvWidth + x / 2)))
      some (paddedPlane width height outWidth outHeight luma ++
        paddedPlane width height outWidth outHeight cb ++
        paddedPlane width height outWidth outHeight cr)

/-- The sum of a two by two block, in the order the loops add it. -/
def blockSum (entry : ℕ → ℕ → A.Float) (y x : ℕ) : A.Float :=
  A.ofRat 0 + entry y x + entry y (x + 1) + entry (y + 1) x + entry (y + 1) (x + 1)

def ycbcrPaddedToYuv420p8 (input : List A.Half) (inputShape : Shape4D)
    (visibleWidth visibleHeight : ℤ) (outputSize : ℕ) : Option Bytes :=
  if InvalidShape inputShape ∨ inputShape.batch ≠ 1 ∨ inputShape.channels ≠ 3 ∨
      visibleWidth ≤ 0 ∨ visibleHeight ≤ 0 ∨ visibleWidth % 2 ≠ 0 ∨ visibleHeight % 2 ≠ 0 ∨
      inputShape.width < visibleWidth ∨ inputShape.height < visibleHeight then none
  else
    let width := visibleWidth.toNat
    let height := visibleHeight.toNat
    let stride := inputShape.width.toNat
    let ySize := width * height
    let uvSize := ySize / 4
    if input.length < volume inputShape ∨ outputSize < wrapSize (ySize + 2 * uvSize) then none
    else
      let plane := inputShape.height.toNat * stride
      let luma := (List.range height).flatMap fun y => (List.range width).map fun x =>
        quantizeLuma (load input (y * stride + x))
      let chroma := fun (offset : ℕ) => (List.range (height / 2)).flatMap fun uvY =>
        (List.range (width / 2)).map fun uvX =>
          quantizeChroma
            (blockSum (fun y x => load input (offset + (y * stride + x))) (uvY * 2) (uvX * 2) *
              A.ofRat (1 / 4))
      some (luma ++ chroma plane ++ chroma (2 * plane))

/-- Mask values select or suppress a position. -/
def maskValue (selected : Bool) : A.Half := A.toHalf (if selected then A.ofRat 1 else A.ofRat 0)

/-- The position parity that each quarter of the channels codes in a stage. -/
def fourWayPattern : ℕ → ℕ → ℕ
  | 0, quarter => [0, 1, 2, 3].getD quarter 0
  | 1, quarter => [3, 2, 1, 0].getD quarter 0
  | 2, quarter => [2, 3, 0, 1].getD quarter 0
  | _, quarter => [1, 0, 3, 2].getD quarter 0

/-- A mask is filled batch by batch, channel by channel and row by row. -/
def maskLoop (shape : Shape4D) (selected : ℕ → ℕ → ℕ → Bool) : List A.Half :=
  (List.range shape.batch.toNat).flatMap fun _ =>
    (List.range shape.channels.toNat).flatMap fun channel =>
      (List.range shape.height.toNat).flatMap fun y =>
        (List.range shape.width.toNat).map fun x => maskValue (selected channel y x)

def fourWaySelected (channels stage channel y x : ℕ) : Bool :=
  fourWayPattern stage (channel / (channels / 4)) == y % 2 * 2 + x % 2

def makeFourWayMask (maskSize : ℕ) (shape : Shape4D) (stage : ℤ) : Option (List A.Half) :=
  if InvalidShape shape ∨ shape.channels % 4 ≠ 0 ∨ stage < 0 ∨ 3 < stage ∨
      maskSize < volume shape then none
  else some (maskLoop shape (fourWaySelected shape.channels.toNat stage.toNat))

def twoWaySelected (channels stage channel y x : ℕ) : Bool :=
  let firstHalf : Bool := channel < channels / 2
  let diagonal : Bool := y % 2 = x % 2
  if stage = 0 then firstHalf == diagonal else firstHalf != diagonal

def makeTwoWayMask (maskSize : ℕ) (shape : Shape4D) (stage : ℤ) : Option (List A.Half) :=
  if InvalidShape shape ∨ shape.channels % 2 ≠ 0 ∨ stage < 0 ∨ 1 < stage ∨
      maskSize < volume shape then none
  else some (maskLoop shape (twoWaySelected shape.channels.toNat stage.toNat))

/-- What masked processing computes at one position. -/
structure MaskedElement (A : HostArithmetic) where
  scale : A.Float
  mean : A.Float
  residual : A.Float
  symbol : A.Float

/-- A threshold applies only where it is positive. -/
def forcedToZero (threshold scale : A.Float) : Bool :=
  A.less (A.ofRat 0) threshold && A.lessEq scale threshold

def processElement (value scale mean mask threshold : A.Float) : MaskedElement A :=
  let scale := scale * mask
  let mean := mean * mask
  let residual := (value - mean) * mask
  let symbol := if forcedToZero threshold scale then A.ofRat 0 else A.round residual
  ⟨scale, mean, residual, clampSymbol symbol⟩

structure ProcessedWithMask (A : HostArithmetic) where
  residual : List A.Half
  symbols : List A.Half
  reconstructed : List A.Half
  maskedScales : List A.Half

def processWithMask (values scales means mask : List A.Half)
    (residualSize symbolsSize reconstructedSize maskedScalesSize : ℕ) (threshold : A.Float) :
    Option (ProcessedWithMask A) :=
  let count := values.length
  if count = 0 ∨ scales.length < count ∨ means.length < count ∨ mask.length < count ∨
      symbolsSize < count ∨ reconstructedSize < count ∨ maskedScalesSize < count ∨
      (residualSize ≠ 0 ∧ residualSize < count) then none
  else
    let element := fun index =>
      processElement (load values index) (load scales index) (load means index) (load mask index)
        threshold
    some {
      residual :=
        if residualSize = 0 then []
        else (List.range count).map fun index => A.toHalf (element index).residual
      symbols := (List.range count).map fun index => A.toHalf (element index).symbol
      reconstructed := (List.range count).map fun index =>
        A.toHalf ((element index).symbol + (element index).mean)
      maskedScales := (List.range count).map fun index => A.toHalf (element index).scale }

/-- The sum over the four channel quarters, in the order the loop adds it. -/
def quarterSum (quarterSize : ℕ) (entry : ℕ → A.Float) (index : ℕ) : A.Float :=
  A.ofRat 0 + entry (index + 0 * quarterSize) + entry (index + 1 * quarterSize) +
    entry (index + 2 * quarterSize) + entry (index + 3 * quarterSize)

def reduceChannelQuarters (input : List A.Half) (outputSize : ℕ) (inputShape : Shape4D) :
    Option (List A.Half) :=
  if InvalidShape inputShape ∨ inputShape.channels % 4 ≠ 0 then none
  else
    let quarterSize := volume inputShape / 4
    if input.length < 4 * quarterSize ∨ outputSize < quarterSize then none
    else
      some ((List.range quarterSize).map fun index =>
        A.toHalf (quarterSum quarterSize (load input) index))

def reduceMaskedQuarters (input mask : List A.Half) (outputSize : ℕ) (inputShape : Shape4D) :
    Option (List A.Half) :=
  if InvalidShape inputShape ∨ inputShape.channels % 4 ≠ 0 then none
  else
    let quarterSize := volume inputShape / 4
    if input.length < 4 * quarterSize ∨ mask.length < 4 * quarterSize ∨
        outputSize < quarterSize then none
    else
      some ((List.range quarterSize).map fun index =>
        A.toHalf (quarterSum quarterSize (fun source => load input source * load mask source) index))

/-- The value restored at one position of the latent. -/
def restoreElement (symbol mean mask : A.Float) : A.Half := A.toHalf ((symbol + mean) * mask)

/-- Every part of the channels is restored from the one reduced symbol tensor; the parts are
stored one after another. -/
def restored (symbols means mask : List A.Half) (parts partSize : ℕ) : List A.Half :=
  (List.range parts).flatMap fun part => (List.range partSize).map fun index =>
    restoreElement (load symbols index) (load means (index + part * partSize))
      (load mask (index + part * partSize))

def restoreFourWay (symbols means mask : List A.Half) (outputSize : ℕ) (outputShape : Shape4D) :
    Option (List A.Half) :=
  if InvalidShape outputShape ∨ outputShape.channels % 4 ≠ 0 then none
  else
    let quarterSize := volume outputShape / 4
    if symbols.length < quarterSize ∨ means.length < 4 * quarterSize ∨
        mask.length < 4 * quarterSize ∨ outputSize < 4 * quarterSize then none
    else some (restored symbols means mask 4 quarterSize)

def reduceChannelHalves (input : List A.Half) (outputSize : ℕ) (inputShape : Shape4D) :
    Option (List A.Half) :=
  if InvalidShape inputShape ∨ inputShape.channels % 2 ≠ 0 then none
  else
    let halfSize := volume inputShape / 2
    if input.length < 2 * halfSize ∨ outputSize < halfSize then none
    else
      some ((List.range halfSize).map fun index =>
        A.toHalf (load input index + load input (index + halfSize)))

def reduceMaskedHalves (input mask : List A.Half) (outputSize : ℕ) (inputShape : Shape4D) :
    Option (List A.Half) :=
  if InvalidShape inputShape ∨ inputShape.channels % 2 ≠ 0 then none
  else
    let halfSize := volume inputShape / 2
    if input.length < 2 * halfSize ∨ mask.length < 2 * halfSize ∨ outputSize < halfSize then none
    else
      some ((List.range halfSize).map fun index =>
        A.toHalf (load input index * load mask index +
          load input (index + halfSize) * load mask (index + halfSize)))

def restoreTwoWay (symbols means mask : List A.Half) (outputSize : ℕ) (outputShape : Shape4D) :
    Option (List A.Half) :=
  if InvalidShape outputShape ∨ outputShape.channels % 2 ≠ 0 then none
  else
    let halfSize := volume outputShape / 2
    if symbols.length < halfSize ∨ means.length < 2 * halfSize ∨
        mask.length < 2 * halfSize ∨ outputSize < 2 * halfSize then none
    else some (restored symbols means mask 2 halfSize)

def clampStep (minimum : A.Float) (value : A.Half) : A.Half :=
  A.toHalf (A.fmax (A.toFloat value) minimum)

def clampMin (values : List A.Half) (minimum : A.Float) : Option (List A.Half) :=
  if values.isEmpty then none else some (values.map (clampStep minimum))

/-- The clamped steps and the latent divided by them. -/
def clampReciprocalWithQuant (quantStep values : List A.Half) :
    Option (List A.Half × List A.Half) :=
  if values.isEmpty ∨ quantStep.length < values.length then none
  else
    let quant := fun index => clampStep (A.ofRat (1 / 2)) (quantStep.getD index 0)
    let reciprocal := fun index => A.toHalf (1 / A.toFloat (quant index))
    some ((List.range values.length).map quant ++ quantStep.drop values.length,
      (List.range values.length).map fun index =>
        A.toHalf (load values index * A.toFloat (reciprocal index)))

def addInPlace (first second : List A.Half) : Option (List A.Half) :=
  if first.isEmpty ∨ second.length < first.length then none
  else
    some ((List.range first.length).map fun index => A.toHalf (load first index + load second index))

def multiplyBroadcastInPlace (values factors : List A.Half) (spatialCount : ℕ) (channels : ℤ) :
    Option (List A.Half) :=
  if spatialCount = 0 ∨ channels ≤ 0 ∨ factors.length < spatialCount then none
  else
    let count := wrapSize (spatialCount * channels.toNat)
    if values.length < count then none
    else
      some ((List.range count).map (fun index =>
        A.toHalf (load values index * load factors (index % spatialCount))) ++ values.drop count)

def addAndMultiply (first second quantStep : List A.Half) : Option (List A.Half) :=
  if first.isEmpty ∨ second.length < first.length ∨ quantStep.length < first.length then none
  else
    some ((List.range first.length).map fun index =>
      A.toHalf (A.toFloat (A.toHalf (load first index + load second index)) * load quantStep index))

/-- The symbol shifted left by eight bits with the scale index in the low byte. -/
def combineIndex (symbol : Int16) (index : UInt8) : Int16 :=
  Int16.ofInt (symbol.toInt * 256 + index.toNat)

def buildEncodeIndexes (symbols scales : List A.Half) (outputSize : ℕ) (threshold : A.Float) :
    Option (List Int16) :=
  if outputSize = 0 ∨ symbols.length < outputSize ∨ scales.length < outputSize then none
  else
    some ((List.range outputSize).map fun index =>
      let scale := load scales index
      if forcedToZero threshold scale then 0
      else combineIndex (Int16.ofInt (A.truncate (load symbols index))) (scaleIndex scale))

def buildDecodeIndexes (scales : List A.Half) (outputSize : ℕ) (threshold : A.Float) :
    Option (List UInt8) :=
  if outputSize = 0 ∨ scales.length < outputSize then none
  else
    some ((List.range outputSize).map fun index =>
      let scale := load scales index
      if forcedToZero threshold scale then 0 else scaleIndex scale)

end HostOps

end Nvcr.Rt
