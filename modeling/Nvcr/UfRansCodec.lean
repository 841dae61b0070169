import Nvcr.Frames
import Nvcr.LittleEndian
import Nvcr.StatefulResults

/-!
# The DCVC-UF entropy session

The vendored range coder is a parameter: one sub-encoder is a stack of symbols that it turns into
bytes, one sub-decoder pops them again. `UfRansCodec` adds the validation, the split of every call
over up to eight sub-coders, the pairwise merging of their streams and the header with the lengths
of the merged groups.
-/

namespace Nvcr.Uf

open LittleEndian StatefulResults

structure UfRansCdfTable where
  values : List (List ℤ)
  sizes : List ℤ
  deriving DecidableEq, Repr

/-- The start and the range of a symbol as the vendored encoder gets them, in 16 bits. -/
structure RansSymbol where
  start : ℕ
  range : ℕ
  deriving DecidableEq, Repr

namespace UfRansCdfTable

def cdfTotal : ℤ := 2 ^ 16

def invalid (message : String) : Error := ⟨.invalidArgument, message, "dcvcuf.rans"⟩

/-- The first entries of a row increase strictly. -/
def Increasing (values : List ℤ) (count : ℕ) : Prop :=
  ∀ index ∈ List.range count, values.getD index 0 < values.getD (index + 1) 0

instance (values : List ℤ) (count : ℕ) : Decidable (Increasing values count) :=
  inferInstanceAs (Decidable (∀ index ∈ List.range count,
    values.getD index 0 < values.getD (index + 1) 0))

def validateRow (width : ℕ) (values : List ℤ) (size : ℤ) : Result Unit := do
  require (values.length = width) (invalid "UF CDF storage must be rectangular")
  require (2 ≤ size ∧ size ≤ width ∧ size - 2 ≤ 127 ∧ values.getD 0 0 = 0 ∧
      values.getD (size - 1).toNat 0 = cdfTotal)
    (invalid "CDF row is malformed")
  require (Increasing values (size - 1).toNat)
    (invalid "CDF row is not strictly increasing")

def validateCdf (table : UfRansCdfTable) : Result Unit := do
  require (table.values ≠ [] ∧ table.values.length = table.sizes.length)
    (invalid "CDF rows and sizes must have equal nonzero length")
  let width := (table.values.headD []).length
  require (2 ≤ width) (invalid "CDF rows must have at least two entries")
  (List.range table.values.length).forM fun row =>
    validateRow width (table.values.getD row []) (table.sizes.getD row 0)

def rows (table : UfRansCdfTable) : ℕ := table.values.length

/-- The symbols of a row for the vendored encoder; the last one is never used. -/
def rowSymbols (values : List ℤ) : List RansSymbol :=
  (List.range (values.length - 1)).map (fun index =>
    ⟨(values.getD index 0 % 2 ^ 16).toNat,
      ((values.getD (index + 1) 0 - values.getD index 0) % 2 ^ 16).toNat⟩) ++ [⟨0, 0⟩]

def makeSymbols (table : UfRansCdfTable) : List (List RansSymbol) := table.values.map rowSymbols

def makeMaxValues (table : UfRansCdfTable) : List ℤ := table.sizes.map fun size => size - 2

end UfRansCdfTable

open UfRansCdfTable (invalid)

/-- A symbol with the CDF group and row it is coded with. -/
structure UfCodedSymbol where
  group : ℕ
  row : ℕ
  symbol : Int8
  deriving DecidableEq, Repr

/-- The tables of one group as the vendored encoder and decoder get them. -/
structure UfGroup where
  symbols : List (List RansSymbol)
  cdfs : List (List ℤ)
  maxValues : List ℤ
  deriving DecidableEq, Repr

/-- A registered table as the vendored coders get it; all of them get the same. -/
def UfRansCdfTable.group (table : UfRansCdfTable) : UfGroup :=
  ⟨table.makeSymbols, table.values, table.makeMaxValues⟩

/-- The vendored coder. `flush` codes the symbols pushed to an encoder, `setStream` starts a
decoder, `decodeSymbol` pops a symbol with a group and row, and `overrun` tells whether a decoder
ran past the end of its stream. -/
structure UfRansCoder where
  Decoder : Type
  idle : Decoder
  flush : List UfGroup → List UfCodedSymbol → Bytes
  setStream : Bytes → Decoder
  decodeSymbol : List UfGroup → Decoder → ℕ → ℕ → Int8 × Decoder
  overrun : Decoder → Bool

namespace UfRansCoder

variable (R : UfRansCoder)

/-- Pop one symbol for each group and row, until the stream is overrun. -/
def decodeMany (groups : List UfGroup) (decoder : R.Decoder) :
    List (ℕ × ℕ) → List Int8 × R.Decoder
  | [] => ([], decoder)
  | (group, row) :: addresses =>
      if R.overrun decoder then (List.replicate (addresses.length + 1) 0, decoder)
      else
        let first := R.decodeSymbol groups decoder group row
        let rest := decodeMany groups first.2 addresses
        (first.1 :: rest.1, rest.2)

end UfRansCoder

def maxParallel : ℕ := 8

def zCdfGroup : ℕ := 0

def yCdfGroup : ℕ := 1

/-- The state of one entropy session: the tables in z, y order, the symbols pushed to each
sub-encoder, the sub-decoders, and the progress flags. -/
structure UfRansCodec (R : UfRansCoder) where
  parallel : ℕ := 1
  tables : List UfRansCdfTable := []
  encoders : List (List UfCodedSymbol) := [[]]
  decoders : List R.Decoder := [R.idle]
  encoderHasSymbols : Bool := false
  encoderFinished : Bool := false
  streamSet : Bool := false

namespace UfRansCodec

variable {R : UfRansCoder}

def stateError (message : String) : Error := ⟨.invalidState, message, "dcvcuf.rans"⟩

def malformed (message : String) : Error := ⟨.malformedBitstream, message, "dcvcuf.rans"⟩

def makeCoders (codec : UfRansCodec R) : UfRansCodec R :=
  { codec with
    encoders := List.replicate codec.parallel []
    decoders := List.replicate codec.parallel R.idle }

def setEntropyCoderParallel (codec : UfRansCodec R) (count : ℕ) : Result (UfRansCodec R) := do
  require (¬ (count = 0 ∨ count > maxParallel)) (invalid "UF entropy parallelism must be 1..8")
  require (¬ (codec.encoderHasSymbols ∨ codec.encoderFinished ∨ codec.tables ≠ [] ∨
      codec.streamSet))
    (stateError "clear the UF entropy session before changing parallelism")
  pure (makeCoders { codec with parallel := count })

def groups (codec : UfRansCodec R) : List UfGroup := codec.tables.map UfRansCdfTable.group

def addCdf (codec : UfRansCodec R) (table : UfRansCdfTable) : Result (ℕ × UfRansCodec R) := do
  table.validateCdf
  require (codec.tables.length ≤ yCdfGroup)
    (invalid "UF accepts exactly two CDF groups in z, y order")
  pure (codec.tables.length, { codec with tables := codec.tables ++ [table] })

def clearCdfs (codec : UfRansCodec R) : UfRansCodec R :=
  makeCoders { codec with
    tables := []
    encoderHasSymbols := false
    encoderFinished := false
    streamSet := false }

/-- The registered row count of a group. -/
def cdfRows (codec : UfRansCodec R) (group : ℕ) : ℕ :=
  (codec.tables[group]?.map UfRansCdfTable.rows).getD 0

/-- Counts go to the vendored coder as a signed 32-bit number. -/
def checkedInt (value : ℕ) (name : String) : Result ℕ := do
  require (value ≤ 2 ^ 31 - 1) (invalid (name ++ " exceeds the UF entropy ABI"))
  pure value

/-- The part of a call that a sub-coder gets; the last one gets the remainder too. -/
def part {α : Type} (parallel : ℕ) (batch : List α) (index : ℕ) : List α :=
  let base := batch.length / parallel
  if index + 1 < parallel then (batch.drop (base * index)).take base
  else batch.drop (base * index)

/-- Push each part of a call to its sub-encoder, last symbol first. -/
def pushed (codec : UfRansCodec R) (batch : List UfCodedSymbol) : UfRansCodec R :=
  { codec with
    encoders := codec.encoders.mapIdx fun index pending =>
      pending ++ (part codec.parallel batch index).reverse
    encoderHasSymbols := true }

/-- The CDF row in the low byte of a packed symbol. -/
def packedRow (packed : Int16) : ℕ := (packed.toInt % 256).toNat

/-- The signed symbol in the high byte of a packed symbol. -/
def packedSymbol (packed : Int16) : Int8 := Int8.ofInt (packed.toInt / 256)

def codedY (symbols : List Int16) : List UfCodedSymbol :=
  symbols.map fun packed => ⟨yCdfGroup, packedRow packed, packedSymbol packed⟩

def codedZ (cdfOffset channelCount : ℕ) (symbols : List Int8) : List UfCodedSymbol :=
  symbols.mapIdx fun index symbol => ⟨zCdfGroup, index % channelCount + cdfOffset, symbol⟩

def encodeY (codec : UfRansCodec R) (symbols : List Int16) (cdfGroup : ℕ) :
    Result (UfRansCodec R) := do
  require (¬ (cdfGroup ≠ yCdfGroup ∨ codec.tables.length ≤ yCdfGroup))
    (invalid "UF y entropy requires CDF group 1")
  require (¬ codec.encoderFinished) (stateError "reset encoder before reuse")
  require (∀ packed ∈ symbols, packedRow packed < codec.cdfRows yCdfGroup)
    (invalid "UF y symbol has invalid CDF row")
  if symbols.isEmpty then pure codec
  else do
    let _ ← checkedInt symbols.length "y symbol count"
    pure (codec.pushed (codedY symbols))

/-- The checks that the z calls of both directions share. -/
def checkZRange (codec : UfRansCodec R) (cdfGroup cdfOffset channelCount : ℕ) : Result Unit := do
  require (¬ (cdfGroup ≠ zCdfGroup ∨ codec.tables = []))
    (invalid "UF z entropy requires CDF group 0")
  require (¬ (channelCount = 0 ∨ cdfOffset > codec.cdfRows zCdfGroup ∨
      channelCount > codec.cdfRows zCdfGroup - cdfOffset))
    (invalid "UF z CDF range is invalid")

def encodeZ (codec : UfRansCodec R) (symbols : List Int8) (cdfGroup cdfOffset channelCount : ℕ) :
    Result (UfRansCodec R) := do
  codec.checkZRange cdfGroup cdfOffset channelCount
  require (¬ codec.encoderFinished) (stateError "reset encoder before reuse")
  if symbols.isEmpty then pure codec
  else do
    let _ ← checkedInt symbols.length "z symbol count"
    let _ ← checkedInt cdfOffset "z CDF offset"
    let _ ← checkedInt channelCount "z channel count"
    pure (codec.pushed (codedZ cdfOffset channelCount symbols))

/-- The number of trailing bytes that two streams share when they are merged: up to eight zero
bytes, or one equal byte. -/
def identicalTail (first second : Bytes) : ℕ :=
  let zeros := (((first.reverse.zip second.reverse).take 8).takeWhile
    fun pair => pair.1 = 0 ∧ pair.2 = 0).length
  if zeros = 0 ∧ first ≠ [] ∧ second ≠ [] ∧ first.getLast? = second.getLast? then 1 else zeros

/-- The second stream of a pair is stored backwards behind the first, without the shared bytes. -/
def mergePair (forward reverse : Bytes) : Bytes :=
  forward ++ (reverse.take (reverse.length - identicalTail forward reverse)).reverse

def pairs (parallel : ℕ) : ℕ := parallel / 2

def hasTail (parallel : ℕ) : Bool := parallel % 2 ≠ 0

def offsetCount (parallel : ℕ) : ℕ := pairs parallel - 1 + if hasTail parallel then 1 else 0

def mergedGroups (parallel : ℕ) (streams : List Bytes) : List Bytes :=
  (List.range (pairs parallel)).map fun pair =>
    mergePair (streams.getD (2 * pair) []) (streams.getD (2 * pair + 1) [])

def tailStream (parallel : ℕ) (streams : List Bytes) : Bytes :=
  if hasTail parallel then streams.getLastD [] else []

/-- The bytes of the first groups. -/
def groupsEnd (merged : List Bytes) (count : ℕ) : ℕ := ((merged.take count).map List.length).sum

/-- The ends of the groups that the header announces. -/
def headerBytes (parallel : ℕ) (merged : List Bytes) : Bytes :=
  (List.range (offsetCount parallel)).flatMap fun index =>
    leBytes 4 (groupsEnd merged (index + 1))

def finishEncode (codec : UfRansCodec R) : Result (Bytes × UfRansCodec R) := do
  require (¬ codec.encoderFinished) (stateError "encode session is already finished")
  if ¬ codec.encoderHasSymbols then pure ([], { codec with encoderFinished := true })
  else
    let streams := codec.encoders.map (R.flush codec.groups)
    if codec.parallel = 1 then pure (streams.headD [], { codec with encoderFinished := true })
    else do
      let merged := mergedGroups codec.parallel streams
      let output := headerBytes codec.parallel merged ++
        (merged.flatten ++ tailStream codec.parallel streams)
      require (output.length ≤ 2 ^ 31 - 1)
        ⟨.resourceExhausted, "UF entropy stream is too large", "dcvcuf.rans"⟩
      pure (output, { codec with encoderFinished := true })

def resetEncoder (codec : UfRansCodec R) : UfRansCodec R :=
  { codec with
    encoders := codec.encoders.map fun _ => []
    encoderHasSymbols := false
    encoderFinished := false }

/-- The offsets of the header, unless one of them is negative. -/
def readOffsets : ℕ → Bytes → Result (List ℕ)
  | 0, _ => .ok []
  | count + 1, bytes => do
      let value := Int.bmod (leValue (bytes.take 4)) (2 ^ 32)
      require (0 ≤ value) (malformed "UF entropy offset is negative")
      let offsets ← readOffsets count (bytes.drop 4)
      .ok (value.toNat :: offsets)

/-- Where a group starts and ends in the payload. -/
def groupBegin (offsets : List ℕ) (pair : ℕ) : ℕ := if pair = 0 then 0 else offsets.getD (pair - 1) 0

def groupEnd (parallel : ℕ) (offsets : List ℕ) (payloadSize pair : ℕ) : ℕ :=
  if pair + 1 < pairs parallel then offsets.getD pair 0
  else if hasTail parallel then offsets.getLastD 0
  else payloadSize

/-- The groups of a payload, unless one is too short or leaves it. -/
def readGroups (parallel : ℕ) (offsets : List ℕ) (payload : Bytes) :
    List ℕ → Result (List Bytes)
  | [] => .ok []
  | pair :: later => do
      let start := groupBegin offsets pair
      let stop := groupEnd parallel offsets payload.length pair
      require (¬ (stop - start < 4 ∨ stop > payload.length))
        (malformed "UF entropy group is invalid")
      let rest ← readGroups parallel offsets payload later
      .ok ((payload.drop start).take (stop - start) :: rest)

def pairDecoders (R : UfRansCoder) (group : Bytes) : List R.Decoder :=
  [R.setStream group, R.setStream group.reverse]

def setStream (codec : UfRansCodec R) (stream : Bytes) : Result (UfRansCodec R) := do
  require (4 ≤ stream.length) (malformed "UF entropy stream is truncated")
  if codec.parallel = 1 then
    pure { codec with decoders := [R.setStream stream], streamSet := true }
  else if codec.parallel = 2 then
    pure { codec with decoders := pairDecoders R stream, streamSet := true }
  else do
    let headerSize := 4 * offsetCount codec.parallel
    require (headerSize ≤ stream.length) (malformed "UF entropy header is truncated")
    let offsets ← readOffsets (offsetCount codec.parallel) stream
    let payload := stream.drop headerSize
    require (¬ (offsets = [] ∨ offsets.headD 0 < 4 ∨ offsets.getLastD 0 > payload.length ∨
        ¬ offsets.SortedLE))
      (malformed "UF entropy offsets are invalid")
    let merged ← readGroups codec.parallel offsets payload (List.range (pairs codec.parallel))
    let decoders := merged.flatMap (pairDecoders R)
    if hasTail codec.parallel then do
      let tail := payload.drop (offsets.getLastD 0)
      require (4 ≤ tail.length) (malformed "UF entropy tail is truncated")
      pure { codec with decoders := decoders ++ [R.setStream tail], streamSet := true }
    else pure { codec with decoders := decoders, streamSet := true }

/-- Pop each part of a call from its sub-decoder; no stream may end early. -/
def pulled (codec : UfRansCodec R) (addresses : List (ℕ × ℕ)) :
    Result (List Int8 × UfRansCodec R) := do
  let results := codec.decoders.mapIdx fun index decoder =>
    R.decodeMany codec.groups decoder (part codec.parallel addresses index)
  require (∀ result ∈ results, R.overrun result.2 = false)
    (malformed "UF entropy stream ended early")
  pure (results.flatMap Prod.fst, { codec with decoders := results.map Prod.snd })

def addressesZ (cdfOffset channelCount count : ℕ) : List (ℕ × ℕ) :=
  (List.range count).map fun index => (zCdfGroup, index % channelCount + cdfOffset)

def decodeY (codec : UfRansCodec R) (indexes : List UInt8) (cdfGroup : ℕ) :
    Result (List Int8 × UfRansCodec R) := do
  require codec.streamSet (stateError "set UF stream before decoding")
  require (¬ (cdfGroup ≠ yCdfGroup ∨ codec.tables.length ≤ yCdfGroup))
    (invalid "UF y entropy requires CDF group 1")
  require (∀ row ∈ indexes, row.toNat < codec.cdfRows yCdfGroup)
    (invalid "UF y index exceeds CDF rows")
  if indexes.isEmpty then pure ([], codec)
  else do
    let _ ← checkedInt indexes.length "y index count"
    codec.pulled (indexes.map fun row => (yCdfGroup, row.toNat))

def decodeZ (codec : UfRansCodec R) (symbolCount cdfGroup cdfOffset channelCount : ℕ) :
    Result (List Int8 × UfRansCodec R) := do
  require codec.streamSet (stateError "set UF stream before decoding")
  codec.checkZRange cdfGroup cdfOffset channelCount
  if symbolCount = 0 then pure ([], codec)
  else do
    let _ ← checkedInt symbolCount "z symbol count"
    let _ ← checkedInt cdfOffset "z CDF offset"
    let _ ← checkedInt channelCount "z channel count"
    codec.pulled (addressesZ cdfOffset channelCount symbolCount)

end UfRansCodec

end Nvcr.Uf
