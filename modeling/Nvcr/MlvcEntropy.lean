import Nvcr.MlvcSessions

/-!
# The MLVC entropy coder

The tables of a bundle, the latent shape and the scale indexes, and the coder over them. The
vendored range coder is a parameter: it is a stack of symbols, each pushed and popped with the
distribution that it is coded with. Integers of the source keep their 32-bit wraps, and integers
that pass through a float are rounded to its 24-bit significand.
-/

namespace Nvcr.Mlvc

open StatefulResults

section Tables

/-- The elements of an array of signed 32-bit integers, in order. -/
def int32Array (name : String) : List Value → Result (List Int32)
  | [] => .ok []
  | .number _ (some integer) :: rest =>
      if integer < -2147483648 ∨ integer > 2147483647 then
        .error (bundleError (name ++ " must contain integers in range"))
      else do
        let tail ← int32Array name rest
        .ok (Int32.ofInt integer :: tail)
  | _ :: _ => .error (bundleError (name ++ " must contain integers in range"))

def int32ArrayMember (object : Value) (key whereName : String) : Result (List Int32) := do
  let value ← member object key whereName
  let name := whereName ++ "." ++ key
  match value with
  | .array elements => int32Array name elements
  | _ => .error (bundleError (name ++ " must be an array"))

/-- Probability mass functions of 16 bits in one table, as the bundle reader accepts them. -/
structure PmfTable where
  lengths : List Int32
  offsets : List Int32
  table : List Int32
  lengths_ge : ∀ length ∈ lengths, 2 ≤ length.toInt
  lengths_ne : lengths ≠ []
  offsets_length : lengths.length = offsets.length
  table_length : (lengths.map Int32.toInt).sum = table.length

namespace PmfTable

/-- The number of distributions. -/
def count (pmf : PmfTable) : ℕ := pmf.lengths.length

/-- The frequencies of one distribution, from a start value up to 16 bits. -/
def FrequenciesFit : ℤ → List Int32 → Prop
  | _, [] => True
  | start, frequency :: rest =>
      (0 < frequency.toInt ∧ frequency.toInt ≤ 65536 - start) ∧
        FrequenciesFit (start + frequency.toInt) rest

instance FrequenciesFit.decidable : ∀ start frequencies, Decidable (FrequenciesFit start frequencies)
  | _, [] => .isTrue trivial
  | start, frequency :: rest =>
      have := FrequenciesFit.decidable (start + frequency.toInt) rest
      inferInstanceAs (Decidable ((0 < frequency.toInt ∧ frequency.toInt ≤ 65536 - start) ∧
        FrequenciesFit (start + frequency.toInt) rest))

/-- Every distribution of the table has frequencies that fit. -/
def AllFit : List Int32 → List Int32 → Prop
  | [], _ => True
  | length :: lengths, table =>
      FrequenciesFit 0 (table.take length.toInt.toNat) ∧
        AllFit lengths (table.drop length.toInt.toNat)

instance AllFit.decidable : ∀ lengths table, Decidable (AllFit lengths table)
  | [], _ => .isTrue trivial
  | length :: lengths, table =>
      have := AllFit.decidable lengths (table.drop length.toInt.toNat)
      inferInstanceAs (Decidable (FrequenciesFit 0 (table.take length.toInt.toNat) ∧
        AllFit lengths (table.drop length.toInt.toNat)))

/-- What the vendored coder checks when it is initialized with a table. -/
def Initializable (pmf : PmfTable) : Prop := AllFit pmf.lengths pmf.table

instance (pmf : PmfTable) : Decidable pmf.Initializable :=
  inferInstanceAs (Decidable (AllFit _ _))

end PmfTable

def parsePmf (document : Value) (whereName : String) : Result PmfTable := do
  let lengths ← int32ArrayMember document "pmf_lengths" whereName
  let offsets ← int32ArrayMember document "pmf_offsets" whereName
  let table ← int32ArrayMember document "pmf_table" whereName
  if hshort : ¬ ∀ length ∈ lengths, 2 ≤ length.toInt then
    .error (bundleError (whereName ++ " has a PMF shorter than two"))
  else if hsizes : lengths = [] ∨ lengths.length ≠ offsets.length ∨
      (lengths.map Int32.toInt).sum ≠ table.length then
    .error (bundleError (whereName ++ " PMF table sizes are inconsistent"))
  else
    .ok
      { lengths, offsets, table
        lengths_ge := not_not.mp hshort
        lengths_ne := fun h => hsizes (.inl h)
        offsets_length := not_not.mp fun h => hsizes (.inr (.inl h))
        table_length := not_not.mp fun h => hsizes (.inr (.inr h)) }

structure GaussianPmf where
  pmf : PmfTable
  scaleLevels : ℕ
  scale_levels_ne : scaleLevels ≠ 0
  count_eq : pmf.count = scaleLevels

def loadGaussian (document : Value) (whereName : String) : Result GaussianPmf := do
  let pmf ← parsePmf document whereName
  let levels ← uintMember document "scale_levels" whereName
  match document.find "index_space" with
  | some (.boolean true) =>
      if h : levels = 0 ∨ pmf.count ≠ levels then
        .error (bundleError (whereName ++ " has one PMF per scale level"))
      else
        .ok
          { pmf, scaleLevels := levels
            scale_levels_ne := fun hzero => h (.inl hzero)
            count_eq := not_not.mp fun hcount => h (.inr hcount) }
  | _ => .error (bundleError (whereName ++ " must use index_space"))

structure BitEstimatorPmf where
  pmf : PmfTable
  qpNum : ℕ
  channels : ℕ
  count_eq : qpNum * channels = pmf.count

def loadBitEstimator (document : Value) (whereName : String) : Result BitEstimatorPmf := do
  let pmf ← parsePmf document whereName
  let qpNum ← uintMember document "qp_num" whereName
  let channels ← uintMember document "channels" whereName
  if h : qpNum * channels ≠ pmf.count then
    .error (bundleError (whereName ++ " PMF count is not qp_num * channels"))
  else
    .ok { pmf, qpNum, channels, count_eq := not_not.mp h }

/-- The tables of one canvas with its parameters. -/
structure EntropyModel where
  parameters : ModelParameters
  gaussian : GaussianPmf
  bitEstimator : BitEstimatorPmf
  channels_eq : bitEstimator.channels = parameters.hyperpriorChannels
  qp_num_le : parameters.qpNum ≤ bitEstimator.qpNum

def matchTables (parameters : ModelParameters) (gaussian : GaussianPmf)
    (bitEstimator : BitEstimatorPmf) (whereName : String) : Result EntropyModel :=
  if h : bitEstimator.channels ≠ parameters.hyperpriorChannels ∨
      bitEstimator.qpNum < parameters.qpNum then
    .error (bundleError (whereName ++ " bit-estimator PMFs do not match the model"))
  else
    .ok
      { parameters, gaussian, bitEstimator
        channels_eq := not_not.mp fun hchannels => h (.inl hchannels)
        qp_num_le := not_lt.mp fun hqp => h (.inr hqp) }

end Tables

section Shapes

structure LatentShape where
  yChannels : ℕ
  yHeight : ℕ
  yWidth : ℕ
  zChannels : ℕ
  zHeight : ℕ
  zWidth : ℕ
  deriving DecidableEq, Repr

def LatentShape.yElements (shape : LatentShape) : ℕ :=
  shape.yChannels * shape.yHeight * shape.yWidth

def LatentShape.zElements (shape : LatentShape) : ℕ :=
  shape.zChannels * shape.zHeight * shape.zWidth

/-- The stride of the hyperprior latent, a 32-bit product. -/
def zStride (model : ModelParameters) : ℕ :=
  model.downsampleLatent * model.downsampleHyperprior % 2 ^ 32

/-- Division rounded up in 32-bit arithmetic. -/
def ceilDiv32 (value stride : ℕ) : ℕ := ((value + stride + 2 ^ 32 - 1) % 2 ^ 32) / stride

def latentShape (model : ModelParameters) : LatentShape where
  yChannels := model.latentChannels / 2
  yHeight := model.height / model.downsampleLatent
  yWidth := model.width / model.downsampleLatent
  zChannels := model.hyperpriorChannels
  zHeight := ceilDiv32 model.height (zStride model)
  zWidth := ceilDiv32 model.width (zStride model)

/-- A natural number below 2 ^ 32 as a float: 24 significant bits, ties to even. -/
def roundFloat (n : ℕ) : ℕ :=
  if n < 2 ^ 24 then n
  else
    let unit := 2 ^ (n.log2 - 23)
    let quotient := n / unit
    let remainder := n % unit
    if 2 * remainder > unit ∨ (2 * remainder = unit ∧ quotient % 2 = 1) then (quotient + 1) * unit
    else quotient * unit

/-- Truncation of a float to a 32-bit integer; a value out of range gives the integer indefinite
of the hardware. -/
def truncateFloat (value : ℕ) : ℤ := if value < 2 ^ 31 then value else -2 ^ 31

/-- The position in z that a scale is read from. -/
def scaleSource (model : ModelParameters) (channel y x : ℕ) : ℕ :=
  ((channel / model.yScaleRepeat) * (latentShape model).zHeight + y / model.downsampleHyperprior) *
    (latentShape model).zWidth + x / model.downsampleHyperprior

/-- The magnitude of a z value, clamped to the last scale level. -/
def scaleLevel (scaleLevels : ℕ) (value : ℤ) : ℤ :=
  truncateFloat (min (roundFloat value.natAbs) (roundFloat (scaleLevels - 1)))

structure ScaleIndices where
  scales0 : List ℤ
  scales1 : List ℤ

/-- The channel that a position of one half takes its scale from: the two halves of the
checkerboard swap the two halves of the channels. -/
def scaleChannel (model : ModelParameters) (second : Bool) (channel y x : ℕ) : ℕ :=
  if decide ((y + x) % 2 = 0) = second then channel + (latentShape model).yChannels else channel

/-- One entry for each position of y, in memory order. -/
def overPositions {α : Type} (shape : LatentShape) (f : ℕ → ℕ → ℕ → α) : List α :=
  (List.range shape.yChannels).flatMap fun channel =>
    (List.range shape.yHeight).flatMap fun y => (List.range shape.yWidth).map fun x => f channel y x

def scalesOf (z : List ℤ) (model : ModelParameters) (scaleLevels : ℕ) (second : Bool) : List ℤ :=
  overPositions (latentShape model) fun channel y x =>
    scaleLevel scaleLevels
      (z.getD (scaleSource model (scaleChannel model second channel y x) y x) 0)

def extractScales (z : List ℤ) (model : ModelParameters) (scaleLevels : ℕ) : ScaleIndices where
  scales0 := scalesOf z model scaleLevels false
  scales1 := scalesOf z model scaleLevels true

/-- A 32-bit unsigned number as a signed one. -/
def toInt32 (value : ℕ) : ℤ := Int.bmod (value % 2 ^ 32 : ℕ) (2 ^ 32)

def zIndices (model : EntropyModel) (qIndex : ℕ) : List ℤ :=
  let shape := latentShape model.parameters
  (List.range shape.zChannels).flatMap fun channel =>
    List.replicate (shape.zHeight * shape.zWidth) (toInt32 (qIndex * shape.zChannels + channel))

end Shapes

/-- A symbol on the stack of the vendored coder, with the distribution it was pushed with. -/
structure PushedSymbol where
  pmf : PmfTable
  index : ℕ
  value : ℤ

/-- The vendored coder: `flush` turns the pushed symbols into bytes, `openStream` starts to read
them, `pop` takes a symbol with a distribution, and `checkEof` tells whether all were taken. -/
structure StackCoder where
  Stream : Type
  flush : List PushedSymbol → Bytes
  openStream : Bytes → Option Stream
  pop : Stream → PmfTable → ℕ → Option (ℤ × Stream)
  checkEof : Stream → Bool

/-- The last distribution stands for indexes beyond it. -/
def clampIndex (pmf : PmfTable) (index : ℤ) : ℕ := min index.toNat (pmf.count - 1)

/-- The symbols of one encode call in push order: last element first, and none for a negative
index. -/
def pushesOf (pmf : PmfTable) (indices values : List ℤ) : List PushedSymbol :=
  ((indices.zip values).reverse.filter fun pair => 0 ≤ pair.1).map fun pair =>
    ⟨pmf, clampIndex pmf pair.1, pair.2⟩

namespace EntropyCoder

def entropyError (code : ErrorCode) (message : String) : Error := ⟨code, message, "mlvc.entropy"⟩

def invalidStream (what : String) : Error :=
  entropyError .malformedBitstream (what ++ ": invalid stream")

variable (C : StackCoder)

/-- One decode call: a symbol for each index, zero for a negative one. -/
def popAll (what : String) (pmf : PmfTable) : C.Stream → List ℤ → Result (List ℤ × C.Stream)
  | stream, [] => .ok ([], stream)
  | stream, index :: indices =>
      if index < 0 then do
        let rest ← popAll what pmf stream indices
        .ok (0 :: rest.1, rest.2)
      else
        match C.pop stream pmf (clampIndex pmf index) with
        | none => .error (invalidStream what)
        | some (value, next) => do
            let rest ← popAll what pmf next indices
            .ok (value :: rest.1, rest.2)

variable (model : EntropyModel)

/-- The scale indexes that both sides derive from z. -/
def scalesFor (z : List ℤ) : ScaleIndices :=
  extractScales z model.parameters model.gaussian.scaleLevels

/-- The symbols of an access unit in push order. -/
def pushedSymbols (symbols : LatentSymbols) (qIndex : ℕ) : List PushedSymbol :=
  pushesOf model.gaussian.pmf (scalesFor model symbols.z).scales1 symbols.y1 ++
    pushesOf model.gaussian.pmf (scalesFor model symbols.z).scales0 symbols.y0 ++
    pushesOf model.bitEstimator.pmf (zIndices model qIndex) symbols.z

def encode (symbols : LatentSymbols) (qIndex : ℕ) : Result Bytes := do
  let shape := latentShape model.parameters
  require (¬ (qIndex ≥ model.bitEstimator.qpNum ∨ symbols.z.length ≠ shape.zElements ∨
      symbols.y0.length ≠ shape.yElements ∨ symbols.y1.length ≠ shape.yElements))
    (entropyError .invalidArgument "MLVC latent symbols do not match the model")
  pure (C.flush (pushedSymbols model symbols qIndex))

def decode (payload : Bytes) (qIndex : ℕ) : Result LatentSymbols := do
  require (qIndex < model.bitEstimator.qpNum)
    (entropyError .malformedBitstream "MLVC Q index is outside the PMF table")
  match C.openStream payload with
  | none => .error (invalidStream "MLVC payload")
  | some stream => do
      let (z, stream) ← popAll C "z_raw" model.bitEstimator.pmf stream (zIndices model qIndex)
      let (y0, stream) ← popAll C "y_raw_0" model.gaussian.pmf stream (scalesFor model z).scales0
      let (y1, stream) ← popAll C "y_raw_1" model.gaussian.pmf stream (scalesFor model z).scales1
      require (C.checkEof stream)
        (entropyError .malformedBitstream "MLVC payload has data after the last symbol")
      pure ⟨z, y0, y1⟩

/-- The coder of a canvas, unless the vendored coder rejects one of its tables. -/
def create : Result Unit := do
  require model.gaussian.pmf.Initializable
    (entropyError .invalidArgument "Gaussian encoder: invalid PMF data")
  require model.bitEstimator.pmf.Initializable
    (entropyError .invalidArgument "bit-estimator encoder: invalid PMF data")

end EntropyCoder

end Nvcr.Mlvc
