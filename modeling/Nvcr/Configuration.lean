import Nvcr.ArtifactResolver
import Nvcr.PairedSettings
import Nvcr.StatefulResults

/-!
# Runtime configuration

Every setting but the codec id exists twice: as a field of its own, kept for older callers, and
in one of the scoped groups. Reconciling merges the two copies. A text read byte by byte is a
string with one character for each byte.
-/

namespace Nvcr.Configuration

open StatefulResults PairedSettings
open Artifacts (CodecApiVersion ProviderApiVersion ModelSetVersion ManifestSchemaVersion
  decimalValue)

inductive LogLevel where
  | trace
  | debug
  | info
  | warning
  | error
  | off
  deriving DecidableEq, Repr

inductive TensorRtExecutionMode where
  | automatic
  | lowMemory
  | performance
  deriving DecidableEq, Repr

structure StreamFormatVersion where
  major : ℕ
  minor : ℕ
  deriving DecidableEq, Repr

structure PayloadSyntaxVersion where
  major : ℕ
  deriving DecidableEq, Repr

structure RuntimeOptions where
  memoryPoolBytes : UInt64 := 256 * 1024 * 1024
  maxPacketBytes : UInt64 := 64 * 1024 * 1024
  logLevel : LogLevel := .info
  deriving DecidableEq, Repr

structure CodecConfiguration where
  id : String := "dcvc-rt"
  intraQp : UInt32 := 32
  gopSize : UInt32 := 32
  verifyEncoderReconstruction : Bool := false
  deriving DecidableEq, Repr

structure ProviderConfiguration where
  id : String := "tensorrt"
  deviceId : Int32 := 0
  deviceArenaBytes : UInt64 := 512 * 1024 * 1024
  tensorrtExecutionMode : TensorRtExecutionMode := .automatic
  enableProfiling : Bool := false
  deriving DecidableEq, Repr

structure ArtifactSelection where
  intraEnginePath : String := ""
  predictedEnginePath : String := ""
  entropyModelPath : String := ""
  modelId : String := "dcvcrt-cvpr2025"
  codecApiVersion : CodecApiVersion := ⟨1⟩
  providerApiVersion : ProviderApiVersion := ⟨1⟩
  modelSetVersion : ModelSetVersion := ⟨1, 0⟩
  manifestSchemaVersion : ManifestSchemaVersion := ⟨2, 0⟩
  deriving DecidableEq, Repr

structure StreamPolicy where
  bitstreamModelId : String := "dcvcrt"
  streamFormatVersion : StreamFormatVersion := ⟨1, 0⟩
  payloadSyntaxVersion : PayloadSyntaxVersion := ⟨1⟩
  allowLegacyAccessUnits : Bool := true
  deriving DecidableEq, Repr

structure RuntimeConfiguration where
  intraEnginePath : String := ""
  predictedEnginePath : String := ""
  entropyModelPath : String := ""
  modelId : String := "dcvcrt-cvpr2025"
  bitstreamModelId : String := "dcvcrt"
  providerId : String := "tensorrt"
  codecApiVersion : CodecApiVersion := ⟨1⟩
  providerApiVersion : ProviderApiVersion := ⟨1⟩
  streamFormatVersion : StreamFormatVersion := ⟨1, 0⟩
  payloadSyntaxVersion : PayloadSyntaxVersion := ⟨1⟩
  modelSetVersion : ModelSetVersion := ⟨1, 0⟩
  manifestSchemaVersion : ManifestSchemaVersion := ⟨2, 0⟩
  deviceId : Int32 := 0
  intraQp : UInt32 := 32
  gopSize : UInt32 := 32
  memoryPoolBytes : UInt64 := 256 * 1024 * 1024
  deviceArenaBytes : UInt64 := 512 * 1024 * 1024
  maxPacketBytes : UInt64 := 64 * 1024 * 1024
  logLevel : LogLevel := .info
  tensorrtExecutionMode : TensorRtExecutionMode := .automatic
  allowLegacyAccessUnits : Bool := true
  verifyEncoderReconstruction : Bool := false
  enableProfiling : Bool := false
  runtime : RuntimeOptions := {}
  codec : CodecConfiguration := {}
  provider : ProviderConfiguration := {}
  artifacts : ArtifactSelection := {}
  stream : StreamPolicy := {}
  deriving DecidableEq, Repr

namespace RuntimeConfiguration

def defaults : RuntimeConfiguration := {}

/-- The scoped groups after the merge. -/
def mergedRuntime (c : RuntimeConfiguration) : RuntimeOptions where
  memoryPoolBytes :=
    merged defaults.runtime.memoryPoolBytes c.runtime.memoryPoolBytes c.memoryPoolBytes
  maxPacketBytes :=
    merged defaults.runtime.maxPacketBytes c.runtime.maxPacketBytes c.maxPacketBytes
  logLevel := merged defaults.runtime.logLevel c.runtime.logLevel c.logLevel

def mergedCodec (c : RuntimeConfiguration) : CodecConfiguration where
  id := c.codec.id
  intraQp := merged defaults.codec.intraQp c.codec.intraQp c.intraQp
  gopSize := merged defaults.codec.gopSize c.codec.gopSize c.gopSize
  verifyEncoderReconstruction := merged defaults.codec.verifyEncoderReconstruction
    c.codec.verifyEncoderReconstruction c.verifyEncoderReconstruction

def mergedProvider (c : RuntimeConfiguration) : ProviderConfiguration where
  id := merged defaults.provider.id c.provider.id c.providerId
  deviceId := merged defaults.provider.deviceId c.provider.deviceId c.deviceId
  deviceArenaBytes :=
    merged defaults.provider.deviceArenaBytes c.provider.deviceArenaBytes c.deviceArenaBytes
  tensorrtExecutionMode := merged defaults.provider.tensorrtExecutionMode
    c.provider.tensorrtExecutionMode c.tensorrtExecutionMode
  enableProfiling :=
    merged defaults.provider.enableProfiling c.provider.enableProfiling c.enableProfiling

/-- The versions are compared field by field in the source, which is equality. -/
def mergedArtifacts (c : RuntimeConfiguration) : ArtifactSelection where
  intraEnginePath :=
    merged defaults.artifacts.intraEnginePath c.artifacts.intraEnginePath c.intraEnginePath
  predictedEnginePath := merged defaults.artifacts.predictedEnginePath
    c.artifacts.predictedEnginePath c.predictedEnginePath
  entropyModelPath :=
    merged defaults.artifacts.entropyModelPath c.artifacts.entropyModelPath c.entropyModelPath
  modelId := merged defaults.artifacts.modelId c.artifacts.modelId c.modelId
  codecApiVersion :=
    merged defaults.artifacts.codecApiVersion c.artifacts.codecApiVersion c.codecApiVersion
  providerApiVersion := merged defaults.artifacts.providerApiVersion
    c.artifacts.providerApiVersion c.providerApiVersion
  modelSetVersion :=
    merged defaults.artifacts.modelSetVersion c.artifacts.modelSetVersion c.modelSetVersion
  manifestSchemaVersion := merged defaults.artifacts.manifestSchemaVersion
    c.artifacts.manifestSchemaVersion c.manifestSchemaVersion

def mergedStream (c : RuntimeConfiguration) : StreamPolicy where
  bitstreamModelId :=
    merged defaults.stream.bitstreamModelId c.stream.bitstreamModelId c.bitstreamModelId
  streamFormatVersion := merged defaults.stream.streamFormatVersion
    c.stream.streamFormatVersion c.streamFormatVersion
  payloadSyntaxVersion := merged defaults.stream.payloadSyntaxVersion
    c.stream.payloadSyntaxVersion c.payloadSyntaxVersion
  allowLegacyAccessUnits := merged defaults.stream.allowLegacyAccessUnits
    c.stream.allowLegacyAccessUnits c.allowLegacyAccessUnits

/-- Every legacy field takes the value of its scoped counterpart. -/
def withScoped (runtime : RuntimeOptions) (codec : CodecConfiguration)
    (provider : ProviderConfiguration) (artifacts : ArtifactSelection) (stream : StreamPolicy) :
    RuntimeConfiguration where
  intraEnginePath := artifacts.intraEnginePath
  predictedEnginePath := artifacts.predictedEnginePath
  entropyModelPath := artifacts.entropyModelPath
  modelId := artifacts.modelId
  bitstreamModelId := stream.bitstreamModelId
  providerId := provider.id
  codecApiVersion := artifacts.codecApiVersion
  providerApiVersion := artifacts.providerApiVersion
  streamFormatVersion := stream.streamFormatVersion
  payloadSyntaxVersion := stream.payloadSyntaxVersion
  modelSetVersion := artifacts.modelSetVersion
  manifestSchemaVersion := artifacts.manifestSchemaVersion
  deviceId := provider.deviceId
  intraQp := codec.intraQp
  gopSize := codec.gopSize
  memoryPoolBytes := runtime.memoryPoolBytes
  deviceArenaBytes := provider.deviceArenaBytes
  maxPacketBytes := runtime.maxPacketBytes
  logLevel := runtime.logLevel
  tensorrtExecutionMode := provider.tensorrtExecutionMode
  allowLegacyAccessUnits := stream.allowLegacyAccessUnits
  verifyEncoderReconstruction := codec.verifyEncoderReconstruction
  enableProfiling := provider.enableProfiling
  runtime := runtime
  codec := codec
  provider := provider
  artifacts := artifacts
  stream := stream

def reconcileLegacyFields (c : RuntimeConfiguration) : RuntimeConfiguration :=
  withScoped c.mergedRuntime c.mergedCodec c.mergedProvider c.mergedArtifacts c.mergedStream

end RuntimeConfiguration

open RuntimeConfiguration

section Loading

def configurationError (message : String) : Error := ⟨.invalidArgument, message, "configuration"⟩

/-- `std::isspace` in the C locale. -/
def isSpace (c : Char) : Bool := c = ' ' ∨ ('\t' ≤ c ∧ c ≤ '\r')

def trim (value : List Char) : List Char :=
  ((value.dropWhile isSpace).reverse.dropWhile isSpace).reverse

/-- `from_chars` over a whole text: digits, for a signed type with an optional minus sign, and
the value in range. -/
def parseInteger (signed : Bool) (low high : ℤ) (value : List Char) (key : String) : Result ℤ :=
  let negative := signed && value.head? = some '-'
  let digits := if negative then value.tail else value
  let number : ℤ := if negative then -(decimalValue digits) else decimalValue digits
  if digits = [] ∨ ¬ digits.all Char.isDigit ∨ number < low ∨ high < number then
    .error (configurationError ("invalid integer for key '" ++ key ++ "'"))
  else .ok number

def parseInt32 (value : List Char) (key : String) : Result Int32 := do
  let number ← parseInteger true (-2 ^ 31) (2 ^ 31 - 1) value key
  .ok (Int32.ofInt number)

def parseUInt32 (value : List Char) (key : String) : Result UInt32 := do
  let number ← parseInteger false 0 (2 ^ 32 - 1) value key
  .ok (UInt32.ofNat number.toNat)

def parseSize (value : List Char) (key : String) : Result UInt64 := do
  let number ← parseInteger false 0 (2 ^ 64 - 1) value key
  .ok (UInt64.ofNat number.toNat)

def parseBool (value : String) (key : String) : Result Bool :=
  if value = "true" ∨ value = "1" then .ok true
  else if value = "false" ∨ value = "0" then .ok false
  else .error (configurationError ("invalid boolean for key '" ++ key ++ "'"))

def parseLogLevel (value : String) : Result LogLevel :=
  if value = "trace" then .ok .trace
  else if value = "debug" then .ok .debug
  else if value = "info" then .ok .info
  else if value = "warning" ∨ value = "warn" then .ok .warning
  else if value = "error" then .ok .error
  else if value = "off" then .ok .off
  else .error (configurationError "invalid log_level")

def parseExecutionMode (value : String) : Result TensorRtExecutionMode :=
  if value = "automatic" ∨ value = "auto" then .ok .automatic
  else if value = "low-memory" ∨ value = "low_memory" then .ok .lowMemory
  else if value = "performance" then .ok .performance
  else .error (configurationError "invalid tensorrt_execution_mode")

/-- Settings of a file go to the scoped fields. -/
def applySetting (c : RuntimeConfiguration) (key : String) (text : List Char) :
    Result RuntimeConfiguration :=
  let value := String.ofList text
  if key = "intra_engine_path" then
    .ok { c with artifacts.intraEnginePath := value }
  else if key = "predicted_engine_path" then
    .ok { c with artifacts.predictedEnginePath := value }
  else if key = "entropy_model_path" then
    .ok { c with artifacts.entropyModelPath := value }
  else if key = "codec_id" then
    .ok { c with codec.id := value }
  else if key = "model_id" then
    .ok { c with artifacts.modelId := value }
  else if key = "bitstream_model_id" then
    .ok { c with stream.bitstreamModelId := value }
  else if key = "provider_id" then
    .ok { c with provider.id := value }
  else if key = "device_id" then do
    let parsed ← parseInt32 text key
    .ok { c with provider.deviceId := parsed }
  else if key = "intra_qp" then do
    let parsed ← parseUInt32 text key
    .ok { c with codec.intraQp := parsed }
  else if key = "gop_size" then do
    let parsed ← parseUInt32 text key
    .ok { c with codec.gopSize := parsed }
  else if key = "memory_pool_bytes" then do
    let parsed ← parseSize text key
    .ok { c with runtime.memoryPoolBytes := parsed }
  else if key = "device_arena_bytes" then do
    let parsed ← parseSize text key
    .ok { c with provider.deviceArenaBytes := parsed }
  else if key = "max_packet_bytes" then do
    let parsed ← parseSize text key
    .ok { c with runtime.maxPacketBytes := parsed }
  else if key = "enable_profiling" then do
    let parsed ← parseBool value key
    .ok { c with provider.enableProfiling := parsed }
  else if key = "allow_legacy_access_units" then do
    let parsed ← parseBool value key
    .ok { c with stream.allowLegacyAccessUnits := parsed }
  else if key = "verify_encoder_reconstruction" then do
    let parsed ← parseBool value key
    .ok { c with codec.verifyEncoderReconstruction := parsed }
  else if key = "tensorrt_execution_mode" then do
    let parsed ← parseExecutionMode value
    .ok { c with provider.tensorrtExecutionMode := parsed }
  else if key = "log_level" then do
    let parsed ← parseLogLevel value
    .ok { c with runtime.logLevel := parsed }
  else .error (configurationError ("unknown setting '" ++ key ++ "'"))

/-- One line of a file: blank lines and comments are skipped. -/
def applyLine (c : RuntimeConfiguration) (lineNumber : ℕ) (line : List Char) :
    Result RuntimeConfiguration :=
  let line := trim line
  if line = [] ∨ line.head? = some '#' then .ok c
  else if '=' ∉ line then
    .error (configurationError ("expected key=value at line " ++ toString lineNumber))
  else
    applySetting c (String.ofList (trim (line.takeWhile (· ≠ '='))))
      (trim (line.dropWhile (· ≠ '=')).tail)

def applyLines (c : RuntimeConfiguration) (lineNumber : ℕ) : List (List Char) →
    Result RuntimeConfiguration
  | [] => .ok c
  | line :: lines => do
      let next ← applyLine c lineNumber line
      applyLines next (lineNumber + 1) lines

def validIdentifier (value : String) : Bool :=
  value.length ≠ 0 && value.length ≤ 128 &&
    value.toList.all fun c => c.isAlphanum || c = '.' || c = '_' || c = '-'

def validate (c : RuntimeConfiguration) : Result Unit := do
  let normalized := c.reconcileLegacyFields
  require (validIdentifier normalized.codec.id) (configurationError "invalid codec_id")
  require (validIdentifier normalized.artifacts.modelId) (configurationError "invalid model_id")
  require (validIdentifier normalized.stream.bitstreamModelId)
    (configurationError "invalid bitstream_model_id")
  require (validIdentifier normalized.provider.id) (configurationError "invalid provider_id")
  require (0 ≤ normalized.provider.deviceId) (configurationError "device_id cannot be negative")
  require (normalized.codec.gopSize ≠ 0) (configurationError "gop_size must be greater than zero")
  require (normalized.codec.intraQp < 64) (configurationError "intra_qp must be in [0, 63]")
  require (¬ (normalized.runtime.memoryPoolBytes = 0 ∨ normalized.provider.deviceArenaBytes = 0 ∨
      normalized.runtime.maxPacketBytes = 0))
    (configurationError "memory and packet limits must be greater than zero")

/-- What opening and reading a path yields: its lines, and whether reading broke off. -/
structure InputText where
  opens : Bool
  lines : List (List Char)
  bad : Bool

def fromFile (files : String → InputText) (path : String) : Result RuntimeConfiguration := do
  let input := files path
  require input.opens
    ⟨.ioError, "cannot open configuration file: " ++ path, "configuration"⟩
  let configuration ← applyLines {} 1 input.lines
  require (¬ input.bad) ⟨.ioError, "failed while reading configuration", "configuration"⟩
  let reconciled := configuration.reconcileLegacyFields
  validate reconciled
  .ok reconciled

end Loading

end Nvcr.Configuration
