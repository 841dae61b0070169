import Nvcr.Frames
import Nvcr.StatefulResults

/-!
# The DCVC-RT entropy session

The vendored range coder is a parameter: it turns the pending symbols of one sub-coder into
bytes and reads symbols back one at a time. `RansCodec` adds the validation, the split of every
call over two sub-coders, and the merging of their two streams into one.
-/

namespace Nvcr.Rt

open StatefulResults

structure RansCdfTable where
  values : List (List ℤ)
  sizes : List ℤ
  offsets : List ℤ
  deriving DecidableEq, Repr

/-- A symbol with the CDF group and row it is coded with. -/
structure CodedSymbol where
  group : ℕ
  row : ℕ
  symbol : Int8
  deriving DecidableEq, Repr

/-- The vendored coder. `flush` codes the pending symbols of an encoder, `setStream` starts a
decoder, and `decodeSymbol` reads the next symbol with a given group and row. -/
structure RansCoder where
  Decoder : Type
  idle : Decoder
  flush : List RansCdfTable → List CodedSymbol → Bytes
  setStream : Bytes → Decoder
  decodeSymbol : List RansCdfTable → Decoder → ℕ → ℕ → Int8 × Decoder

namespace RansCdfTable

def cdfTotal : ℤ := 2 ^ 16

def invalid (message : String) : Error := ⟨.invalidArgument, message, "dcvcrt.rans"⟩

def validateRow (rowIndex : ℕ) (row : List ℤ) (declaredSize : ℤ) : Result Unit := do
  require (2 ≤ declaredSize ∧ declaredSize ≤ row.length)
    (invalid s!"CDF row {rowIndex} has an invalid size")
  require (row.getD 0 0 = 0 ∧ row.getD (declaredSize - 1).toNat 0 = cdfTotal)
    (invalid s!"CDF row {rowIndex} must span [0, 65536]")
  require (∀ index ∈ List.range (declaredSize - 1).toNat,
      row.getD index 0 < row.getD (index + 1) 0)
    (invalid s!"CDF row {rowIndex} is not increasing")

def validateCdf (table : RansCdfTable) : Result Unit := do
  require (table.values ≠ []) (invalid "CDF table cannot be empty")
  require (table.values.length = table.sizes.length ∧ table.values.length = table.offsets.length)
    (invalid "CDF values, sizes, and offsets must have the same row count")
  (List.range table.values.length).forM fun rowIndex =>
    validateRow rowIndex (table.values.getD rowIndex []) (table.sizes.getD rowIndex 0)

def rows (table : RansCdfTable) : ℕ := table.values.length

end RansCdfTable

open RansCdfTable (invalid)

namespace RansCoder

variable (R : RansCoder)

/-- Read one symbol for each group and row. -/
def decodeMany (tables : List RansCdfTable) (decoder : R.Decoder) :
    List (ℕ × ℕ) → List Int8 × R.Decoder
  | [] => ([], decoder)
  | (group, row) :: addresses =>
      let first := R.decodeSymbol tables decoder group row
      let rest := decodeMany tables first.2 addresses
      (first.1 :: rest.1, rest.2)

end RansCoder

/-- The state of one entropy session: the registered tables, the symbols pending in each
sub-encoder, the two sub-decoders, and the mode and progress flags. -/
structure RansCodec (R : RansCoder) where
  tables : List RansCdfTable := []
  encoder0 : List CodedSymbol := []
  encoder1 : List CodedSymbol := []
  decoder0 : R.Decoder := R.idle
  decoder1 : R.Decoder := R.idle
  useTwoCoders : Bool := false
  encoderHasSymbols : Bool := false
  encoderFinished : Bool := false
  streamSet : Bool := false

namespace RansCodec

variable {R : RansCoder}

def stateError (message : String) : Error := ⟨.invalidState, message, "dcvcrt.rans"⟩

def setUseTwoCoders (codec : RansCodec R) (enabled : Bool) : Result (RansCodec R) := do
  require (¬ (codec.encoderHasSymbols ∨ codec.encoderFinished))
    (stateError "coder mode cannot change during an encode session")
  pure { codec with useTwoCoders := enabled }

/-- The four vendored coders number the groups alike, so one list of tables stands for all. -/
def addCdf (codec : RansCodec R) (table : RansCdfTable) : Result (ℕ × RansCodec R) := do
  table.validateCdf
  pure (codec.tables.length, { codec with tables := codec.tables ++ [table] })

def resetEncoder (codec : RansCodec R) : RansCodec R :=
  { codec with
    encoder0 := []
    encoder1 := []
    encoderHasSymbols := false
    encoderFinished := false }

def clearCdfs (codec : RansCodec R) : RansCodec R :=
  { codec.resetEncoder with tables := [], streamSet := false }

/-- The registered row count of a group. -/
def groupRows (codec : RansCodec R) (group : ℕ) : Result ℕ :=
  match codec.tables[group]? with
  | none => .error (invalid "unknown CDF group")
  | some table => .ok table.rows

/-- Append symbols to a sub-encoder, or to both halves of a two-coder session. -/
def pushed (codec : RansCodec R) (first second : List CodedSymbol) : RansCodec R :=
  { codec with
    encoder0 := codec.encoder0 ++ first
    encoder1 := if codec.useTwoCoders then codec.encoder1 ++ second else codec.encoder1
    encoderHasSymbols := true }

/-- The CDF row in the low byte of a combined symbol. -/
def combinedRow (combined : Int16) : ℕ := (combined.toInt % 256).toNat

/-- The signed symbol in the high byte of a combined symbol. -/
def combinedSymbol (combined : Int16) : Int8 := Int8.ofInt (combined.toInt / 256)

def codedY (group : ℕ) (combined : List Int16) : List CodedSymbol :=
  combined.map fun value => ⟨group, combinedRow value, combinedSymbol value⟩

def codedZ (group startOffset perChannelSize : ℕ) (symbols : List Int8) : List CodedSymbol :=
  symbols.mapIdx fun index symbol => ⟨group, index / perChannelSize + startOffset, symbol⟩

def encodeY (codec : RansCodec R) (combined : List Int16) (group : ℕ) : Result (RansCodec R) := do
  let rows ← codec.groupRows group
  require (¬ codec.encoderFinished) (stateError "reset encoder before reuse")
  require (∀ value ∈ combined, combinedRow value < rows) (invalid "y symbol has invalid CDF index")
  if combined.isEmpty then pure codec
  else do
    require (¬ (codec.useTwoCoders ∧ combined.length < 2))
      (invalid "two-coder y input must contain at least two symbols")
    let half := combined.length / 2
    pure (codec.pushed
      (codedY group (combined.take (if codec.useTwoCoders then half else combined.length)))
      (codedY group (combined.drop half)))

def encodeZ (codec : RansCodec R) (symbols : List Int8) (group startOffset perChannelSize : ℕ) :
    Result (RansCodec R) := do
  let rows ← codec.groupRows group
  require (¬ codec.encoderFinished) (stateError "reset encoder before reuse")
  require (perChannelSize ≠ 0 ∧ symbols.length % perChannelSize = 0)
    (invalid "z symbols must contain complete non-empty channels")
  let channelCount := symbols.length / perChannelSize
  require (startOffset ≤ rows ∧ channelCount ≤ rows - startOffset)
    (invalid "z symbols exceed CDF rows")
  if symbols.isEmpty then pure codec
  else do
    let half := symbols.length / 2
    require (¬ (codec.useTwoCoders ∧ (half = 0 ∨ half % perChannelSize ≠ 0)))
      (invalid "two-coder z input must split on a channel boundary")
    let channelHalf := half / perChannelSize
    pure (codec.pushed
      (codedZ group startOffset perChannelSize
        (symbols.take (if codec.useTwoCoders then half else symbols.length)))
      (codedZ group (startOffset + channelHalf) perChannelSize (symbols.drop half)))

/-- The number of trailing bytes the two streams share in the merged stream: up to eight zero
bytes, or one equal byte. -/
def identicalTail (stream0 stream1 : Bytes) : ℕ :=
  let zeros := (((stream0.reverse.zip stream1.reverse).take 8).takeWhile
    fun pair => pair.1 = 0 ∧ pair.2 = 0).length
  if zeros = 0 ∧ stream0.getLast? = stream1.getLast? then 1 else zeros

/-- The second stream is stored backwards behind the first, without the shared bytes. -/
def mergeStreams (stream0 stream1 : Bytes) : Bytes :=
  stream0 ++ (stream1.take (stream1.length - identicalTail stream0 stream1)).reverse

def finishEncode (codec : RansCodec R) : Result (Bytes × RansCodec R) := do
  require (¬ codec.encoderFinished) (stateError "encode session is already finished")
  if ¬ codec.encoderHasSymbols then pure ([], { codec with encoderFinished := true })
  else
    let stream0 := R.flush codec.tables codec.encoder0
    if ¬ codec.useTwoCoders then pure (stream0, { codec with encoderFinished := true })
    else do
      let stream1 := R.flush codec.tables codec.encoder1
      require (¬ (stream0.isEmpty ∨ stream1.isEmpty))
        ⟨.internalError, "empty split rANS stream", "dcvcrt.rans"⟩
      pure (mergeStreams stream0 stream1, { codec with encoderFinished := true })

def setStream (codec : RansCodec R) (bitstream : Bytes) : Result (RansCodec R) := do
  require (4 ≤ bitstream.length)
    ⟨.malformedBitstream, "rANS stream is shorter than its state", "dcvcrt.rans"⟩
  pure { codec with
    decoder0 := R.setStream bitstream
    decoder1 := if codec.useTwoCoders then R.setStream bitstream.reverse else codec.decoder1
    streamSet := true }

/-- Read symbols from a sub-decoder, or from both halves of a two-coder session. -/
def pulled (codec : RansCodec R) (first second : List (ℕ × ℕ)) : List Int8 × RansCodec R :=
  let result0 := R.decodeMany codec.tables codec.decoder0 first
  let result1 := R.decodeMany codec.tables codec.decoder1 second
  if codec.useTwoCoders then
    (result0.1 ++ result1.1, { codec with decoder0 := result0.2, decoder1 := result1.2 })
  else (result0.1, { codec with decoder0 := result0.2 })

def addressesZ (group startOffset perChannelSize count : ℕ) : List (ℕ × ℕ) :=
  (List.range count).map fun index => (group, index / perChannelSize + startOffset)

def decodeY (codec : RansCodec R) (indexes : List UInt8) (group : ℕ) :
    Result (List Int8 × RansCodec R) := do
  require codec.streamSet (stateError "set rANS stream before decoding")
  let rows ← codec.groupRows group
  require (∀ row ∈ indexes, row.toNat < rows) (invalid "y decode index exceeds CDF rows")
  if indexes.isEmpty then pure ([], codec)
  else do
    require (¬ (codec.useTwoCoders ∧ indexes.length < 2))
      (invalid "two-coder y indexes must contain at least two entries")
    let half := indexes.length / 2
    let addresses := fun (rows : List UInt8) => rows.map fun row => (group, row.toNat)
    pure (codec.pulled
      (addresses (indexes.take (if codec.useTwoCoders then half else indexes.length)))
      (addresses (indexes.drop half)))

def decodeZ (codec : RansCodec R) (symbolCount group startOffset perChannelSize : ℕ) :
    Result (List Int8 × RansCodec R) := do
  require codec.streamSet (stateError "set rANS stream before decoding")
  let rows ← codec.groupRows group
  require (perChannelSize ≠ 0 ∧ symbolCount % perChannelSize = 0)
    (invalid "z decode count must contain complete non-empty channels")
  let channelCount := symbolCount / perChannelSize
  require (startOffset ≤ rows ∧ channelCount ≤ rows - startOffset)
    (invalid "z decode count exceeds CDF rows")
  if symbolCount = 0 then pure ([], codec)
  else do
    let half := symbolCount / 2
    require (¬ (codec.useTwoCoders ∧ (half = 0 ∨ half % perChannelSize ≠ 0)))
      (invalid "two-coder z decode must split on a channel boundary")
    let channelHalf := half / perChannelSize
    pure (codec.pulled
      (addressesZ group startOffset perChannelSize
        (if codec.useTwoCoders then half else symbolCount))
      (addressesZ group (startOffset + channelHalf) perChannelSize (symbolCount - half)))

end RansCodec

end Nvcr.Rt
