import Nvcr.Frames
import Nvcr.StatefulResults
import Mathlib.Tactic

/-!
# Submissions to a provider session

Tensor views as a codec submits them, and what the TensorRT and the ONNX Runtime session check
before they hand them to the engine. Sizes and offsets are 64-bit values, and what the vendor
libraries answer is the environment of a call.
-/

namespace Nvcr.Provider

open StatefulResults

inductive MemoryDomain where
  | host
  | pinnedHost
  | providerDevice
  deriving DecidableEq, Repr

inductive TensorDataType where
  | uint8
  | int8
  | int32
  | float16
  | float32
  deriving DecidableEq, Repr

inductive TensorAccess where
  | read
  | write
  | readWrite
  deriving DecidableEq, Repr

structure DimensionBounds where
  minimum : Int64
  maximum : Int64
  deriving DecidableEq, Repr

/-- `tensorRt` tells whether the handle is one of the TensorRT session's own kind. -/
structure ProviderBuffer where
  sizeBytes : UInt64
  domain : MemoryDomain
  ownerId : String
  tensorRt : Bool := false
  deriving DecidableEq, Repr

structure BufferSlice where
  buffer : Option ProviderBuffer
  offsetBytes : UInt64
  sizeBytes : UInt64
  deriving DecidableEq, Repr

structure TensorView where
  name : String
  dataType : TensorDataType
  shape : List Int64
  access : TensorAccess
  storage : BufferSlice
  deriving DecidableEq, Repr

/-- A completion handle of some session and what waiting for it gives. -/
structure Completion where
  ownerId : String
  tensorRt : Bool
  waited : Result Unit

structure ExecutionDependency where
  completion : Option Completion

namespace TensorRt

def subsystem : String := "tensorrt"

def failure (code : ErrorCode) (message : String) : Error := ⟨code, message, subsystem⟩

inductive TensorIOMode where
  | input
  | output
  deriving DecidableEq, Repr

/-- One tensor of a loaded stage: its specification and the bounds of its contract. -/
structure TensorSpec where
  name : String
  mode : TensorIOMode
  dataType : TensorDataType
  dimensions : List DimensionBounds
  deriving DecidableEq, Repr

def TensorSpec.rank (tensor : TensorSpec) : ℕ := tensor.dimensions.length

def TensorSpec.access (tensor : TensorSpec) : TensorAccess :=
  match tensor.mode with
  | .input => .read
  | .output => .write

structure Stage where
  filename : String
  tensors : List TensorSpec
  deriving DecidableEq, Repr

structure StageHandle where
  engineIndex : ℕ
  stage : Stage
  deriving DecidableEq, Repr

structure Session where
  ownerId : String
  initialized : Bool
  stages : List Stage
  deriving DecidableEq, Repr

/-- What the CUDA and TensorRT calls of a submission answer. -/
structure Environment where
  acquireContext : Result Unit
  setInputShape : TensorSpec → List Int64 → Bool
  setTensorAddress : TensorSpec → BufferSlice → Bool
  /-- The shape that the context resolves for an output. -/
  outputShape : TensorSpec → List Int64
  createProfileEvents : Result Unit

def elementBytes : TensorDataType → UInt64
  | .float16 => 2
  | .int32 => 4
  | .float32 => 4
  | _ => 0

/-- The number of elements, unless a dimension or the product is out of range. -/
def countElements : List (Int64 × DimensionBounds) → UInt64 → Option UInt64
  | [], elements => some elements
  | (value, bounds) :: rest, elements =>
      if value ≤ 0 ∨ value > 2147483647 ∨ value < bounds.minimum ∨ value > bounds.maximum ∨
          elements > (-1) / value.toUInt64 then none
      else countElements rest (elements * value.toUInt64)

/-- The only view of a name. -/
def findTensor (views : List TensorView) (name : String) : Option TensorView :=
  match views.filter fun view => view.name == name with
  | [view] => some view
  | _ => none

variable (session : Session) (environment : Environment)

def checkDependency (dependency : ExecutionDependency) : Result Unit :=
  match dependency.completion with
  | none => .error (failure .invalidArgument
      "TensorRT dependency belongs to another provider session")
  | some completion =>
      if completion.ownerId ≠ session.ownerId then
        .error (failure .invalidArgument "TensorRT dependency belongs to another provider session")
      else if !completion.tensorRt then
        .error (failure .invalidArgument
          "TensorRT dependency has an incompatible completion handle")
      else completion.waited

/-- The buffer of a view, which this session has to own. -/
def ownedBuffer (view : TensorView) : Option ProviderBuffer :=
  view.storage.buffer.filter fun buffer => buffer.ownerId == session.ownerId &&
    (buffer.domain == .providerDevice || buffer.domain == .pinnedHost)

def checkTensor (filename : String) (views : List TensorView) (tensor : TensorSpec) :
    Result Unit :=
  match findTensor views tensor.name with
  | none => .error (failure .invalidArgument
      (filename ++ " missing or duplicate tensor " ++ tensor.name))
  | some view =>
      if view.dataType ≠ tensor.dataType ∨ view.access ≠ tensor.access ∨
          view.shape.length ≠ tensor.rank then
        .error (failure .invalidArgument
          (filename ++ " tensor contract mismatch for " ++ tensor.name))
      else match ownedBuffer session view with
      | none => .error (failure .invalidArgument (filename ++
          " requires a device or pinned buffer owned by this session for " ++ tensor.name))
      | some buffer =>
          if view.storage.offsetBytes > buffer.sizeBytes ∨
              view.storage.sizeBytes > buffer.sizeBytes - view.storage.offsetBytes then
            .error (failure .invalidArgument
              (filename ++ " buffer slice is out of bounds for " ++ tensor.name))
          else match countElements (view.shape.zip tensor.dimensions) 1 with
          | none => .error (failure .invalidArgument
              (filename ++ " invalid tensor shape for " ++ tensor.name))
          | some elements =>
              if elementBytes view.dataType = 0 ∨ elements > (-1) / elementBytes view.dataType ∨
                  view.storage.sizeBytes < elements * elementBytes view.dataType then
                .error (failure .invalidArgument
                  (filename ++ " buffer is too small for " ++ tensor.name))
              else if tensor.mode = .input ∧ !environment.setInputShape tensor view.shape then
                .error (failure .backendError
                  (filename ++ " rejected input shape for " ++ tensor.name))
              else .ok ()

/-- The views are bound to the engine, and its output shapes compared. -/
def bindTensor (filename : String) (views : List TensorView) (tensor : TensorSpec) :
    Result Unit :=
  match findTensor views tensor.name with
  | none => .ok ()
  | some view =>
      if !(view.storage.buffer.map ProviderBuffer.tensorRt).getD false then
        .error (failure .invalidArgument "TensorRT session received an incompatible buffer handle")
      else if !environment.setTensorAddress tensor view.storage then
        .error (failure .backendError
          (filename ++ " rejected device address for " ++ tensor.name))
      else if tensor.mode = .output then
        if (environment.outputShape tensor).length ≠ view.shape.length then
          .error (failure .backendError
            (filename ++ " produced invalid shape for " ++ tensor.name))
        else if environment.outputShape tensor ≠ view.shape then
          .error (failure .backendError
            (filename ++ " output shape changed for " ++ tensor.name))
        else .ok ()
      else .ok ()

/-- What a submission does up to the enqueue, which it reaches if this succeeds. -/
def submitImpl (handle : StageHandle) (views : List TensorView)
    (dependencies : List ExecutionDependency) : Result Unit := do
  require (session.initialized ∧ session.stages[handle.engineIndex]? = some handle.stage)
    (failure .invalidState "TensorRT session stage is not loaded")
  require (views.length = handle.stage.tensors.length)
    (failure .invalidArgument (handle.stage.filename ++ " tensor count mismatch"))
  dependencies.forM (checkDependency session)
  environment.acquireContext
  handle.stage.tensors.forM (checkTensor session environment handle.stage.filename views)
  handle.stage.tensors.forM (bindTensor environment handle.stage.filename views)
  environment.createProfileEvents

end TensorRt

namespace OnnxRuntime

def subsystem : String := "provider.onnxruntime"

def sessionError (code : ErrorCode) (message : String) : Error := ⟨code, message, subsystem⟩

/-- The element types of ONNX tensors that the session knows, and any other one. -/
inductive ElementType where
  | uint8
  | int8
  | int32
  | float16
  | float
  | other (code : ℕ)
  deriving DecidableEq, Repr

def onnxType : TensorDataType → ElementType
  | .uint8 => .uint8
  | .int8 => .int8
  | .int32 => .int32
  | .float16 => .float16
  | .float32 => .float

def elementBytes : TensorDataType → UInt64
  | .uint8 => 1
  | .int8 => 1
  | .float16 => 2
  | .int32 => 4
  | .float32 => 4

/-- The inputs and outputs of a loaded model. -/
structure Stage where
  ownerId : String
  inputs : List (String × ElementType)
  outputs : List (String × ElementType)
  deriving DecidableEq, Repr

def Stage.tensors (stage : Stage) (writable : Bool) : List (String × ElementType) :=
  if writable then stage.outputs else stage.inputs

def Stage.typeOf (stage : Stage) (name : String) (writable : Bool) : Option ElementType :=
  ((stage.tensors writable).find? fun tensor => tensor.1 == name).map Prod.snd

/-- The product of the dimensions as the session computes it. -/
def countElements : List Int64 → UInt64 → Option UInt64
  | [], elements => some elements
  | dimension :: rest, elements =>
      if dimension ≤ 0 then none else countElements rest (elements * dimension.toUInt64)

/-- What `CreateTensor` answers for a slice, a shape and an element type. -/
abbrev CreateTensor := BufferSlice → List Int64 → ElementType → Result Unit

variable (ownerId : String)

def validate (view : TensorView) (writable : Bool) (modelType : Option ElementType) :
    Result Unit :=
  let accessOk := if writable then decide (view.access ≠ .read) else decide (view.access ≠ .write)
  if !accessOk || decide (modelType ≠ some (onnxType view.dataType)) then
    .error (sessionError .invalidArgument
      ("tensor " ++ view.name ++ " has the wrong access or data type"))
  else match view.storage.buffer.filter fun buffer => buffer.ownerId == ownerId with
  | none => .error (sessionError .invalidArgument
      ("tensor " ++ view.name ++ " uses another session's buffer"))
  | some buffer =>
      match countElements view.shape 1 with
      | none => .error (sessionError .invalidArgument
          ("tensor " ++ view.name ++ " has a non-positive dimension"))
      | some elements =>
          let finish := view.storage.offsetBytes + view.storage.sizeBytes
          if view.storage.sizeBytes ≠ elements * elementBytes view.dataType ∨
              finish < view.storage.offsetBytes ∨ finish > buffer.sizeBytes then
            .error (sessionError .invalidArgument
              ("tensor " ++ view.name ++ " does not fit its buffer slice"))
          else .ok ()

def checkDependency (dependency : ExecutionDependency) : Result Unit :=
  match dependency.completion with
  | none => .error (sessionError .invalidArgument "dependency belongs to another provider session")
  | some completion =>
      if completion.ownerId ≠ ownerId then
        .error (sessionError .invalidArgument "dependency belongs to another provider session")
      else completion.waited

/-- The view of one input or output is validated and made a tensor. -/
def bindTensor (createTensor : CreateTensor) (stage : Stage) (views : List TensorView)
    (writable : Bool) (name : String) : Result Unit :=
  match views.find? fun view => view.name == name with
  | none => .error (sessionError .invalidArgument ("missing stage tensor " ++ name))
  | some view => do
      let expected := stage.typeOf name writable
      validate ownerId view writable expected
      match expected with
      | some type => createTensor view.storage view.shape type
      | none => .ok ()

/-- What a submission does up to `Run`, which it reaches if this succeeds. -/
def submit (createTensor : CreateTensor) (stage : Stage) (views : List TensorView)
    (dependencies : List ExecutionDependency) : Result Unit := do
  require (stage.ownerId = ownerId)
    (sessionError .invalidArgument "stage belongs to another provider session")
  dependencies.forM (checkDependency ownerId)
  (stage.inputs.map Prod.fst).forM (bindTensor ownerId createTensor stage views false)
  (stage.outputs.map Prod.fst).forM (bindTensor ownerId createTensor stage views true)
  require (stage.inputs.length + stage.outputs.length = views.length)
    (sessionError .invalidArgument "submission names tensors the stage does not use")

end OnnxRuntime

end Nvcr.Provider
