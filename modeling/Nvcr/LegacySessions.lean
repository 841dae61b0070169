import Nvcr.RtSessions

/-!
# Legacy sessions

The sessions that wrap a codec backend without sessions of its own. Both directions share one
state object: a runtime with one sequence state for each direction, one output slot for each
direction, and two flags.
-/

namespace Nvcr.Legacy

open StatefulResults Codec Rt

/-- A backend with the reset of both directions that the legacy runtime calls. -/
structure Backend (π σ : Type) extends CodecBackend π σ where
  reset : σ → σ

/-- The runtime encodes and decodes as the core of the DCVC-RT sessions does; what differs is
that flushing and resetting are not split by direction. -/
abbrev Runtime := SessionCore

namespace Runtime

variable {π σ : Type} (B : Backend π σ)

def reset (runtime : Runtime σ) : Runtime σ where
  encoderState := runtime.encoderState.reset
  decoderState := runtime.decoderState.reset
  backend := B.reset runtime.backend

def flush (p : π) : Action Error (Runtime σ) Unit := do
  SessionCore.onBackend (B.flush p)
  Action.update (reset B)

end Runtime

structure SessionState (σ : Type) where
  runtime : Runtime σ
  pendingPacket : Option Packet := none
  pendingFrame : Option Frame := none
  encoderFlushed : Bool := false
  decoderFlushed : Bool := false

namespace SessionState

variable {π σ α : Type}

def codecError (code : ErrorCode) (message : String) : Error := ⟨code, message, "codec"⟩

/-- The pair of sessions right after it was made over an initialized backend. -/
def initial (configuration : SessionConfiguration) (backend : σ) : SessionState σ where
  runtime := ⟨backend, { gopSize := configuration.gopSize }, { gopSize := configuration.gopSize }⟩

def onRuntime (x : Action Error (Runtime σ) α) : Action Error (SessionState σ) α :=
  x.zoom SessionState.runtime fun state runtime => { state with runtime := runtime }

variable (B : Backend π σ) (configuration : SessionConfiguration)

def sendFrame (p : π) (frame : Frame) : Action Error (SessionState σ) Unit := do
  let packet ← onRuntime (SessionCore.encode B.toCodecBackend configuration p frame)
  Action.update fun state => { state with pendingPacket := some packet, encoderFlushed := false }

def receiveAccessUnit : Action Error (SessionState σ) Packet := fun state =>
  match state.pendingPacket with
  | some packet => (.ok packet, { state with pendingPacket := none })
  | none =>
      if state.encoderFlushed then
        (.error (codecError .endOfStream "encoder has been flushed"), state)
      else (.error (codecError .tryAgain "no encoded output available yet"), state)

def sendAccessUnit (p : π) (packet : Packet) : Action Error (SessionState σ) Unit := do
  let frame ← onRuntime (SessionCore.decode B.toCodecBackend configuration p packet)
  Action.update fun state => { state with pendingFrame := some frame, decoderFlushed := false }

def receiveFrame : Action Error (SessionState σ) Frame := fun state =>
  match state.pendingFrame with
  | some frame => (.ok frame, { state with pendingFrame := none })
  | none =>
      if state.decoderFlushed then
        (.error (codecError .endOfStream "decoder has been flushed"), state)
      else (.error (codecError .tryAgain "no decoded output available yet"), state)

/-- Both sessions have this body: the slots and flags of both directions change. -/
def flush (p : π) : Action Error (SessionState σ) Unit := do
  onRuntime (Runtime.flush B p)
  Action.update fun state =>
    { state with
      pendingPacket := none
      pendingFrame := none
      encoderFlushed := true
      decoderFlushed := true }

/-- Both sessions have this body too. -/
def reset : Action Error (SessionState σ) Unit :=
  Action.update fun state =>
    { runtime := Runtime.reset B state.runtime
      pendingPacket := none
      pendingFrame := none
      encoderFlushed := false
      decoderFlushed := false }

/-- Answer a call. -/
def step (state : SessionState σ) : Call π → Reply × SessionState σ
  | .sendFrame p frame => ((sendFrame B configuration p frame).run state).map .status id
  | .receiveAccessUnit => (receiveAccessUnit.run state).map .packet id
  | .flushEncoder p => ((flush B p).run state).map .status id
  | .resetEncoder => ((reset B).run state).map .status id
  | .sendAccessUnit p packet =>
      ((sendAccessUnit B configuration p packet).run state).map .status id
  | .receiveFrame => (receiveFrame.run state).map .frame id
  | .flushDecoder p => ((flush B p).run state).map .status id
  | .resetDecoder => ((reset B).run state).map .status id

theorem sendFrame_run (p : π) (frame : Frame) (state : SessionState σ) :
    (sendFrame B configuration p frame).run state =
      match (SessionCore.encode B.toCodecBackend configuration p frame).run state.runtime with
      | (.error e, runtime) => (.error e, { state with runtime := runtime })
      | (.ok packet, runtime) =>
          (.ok (), { state with
            runtime := runtime
            pendingPacket := some packet
            encoderFlushed := false }) := by
  simp only [sendFrame, onRuntime, Action.run_bind, Action.run_zoom]
  rcases (SessionCore.encode B.toCodecBackend configuration p frame).run state.runtime
    with ⟨e | packet, runtime⟩
  · rfl
  · rfl

theorem sendAccessUnit_run (p : π) (packet : Packet) (state : SessionState σ) :
    (sendAccessUnit B configuration p packet).run state =
      match (SessionCore.decode B.toCodecBackend configuration p packet).run state.runtime with
      | (.error e, runtime) => (.error e, { state with runtime := runtime })
      | (.ok frame, runtime) =>
          (.ok (), { state with
            runtime := runtime
            pendingFrame := some frame
            decoderFlushed := false }) := by
  simp only [sendAccessUnit, onRuntime, Action.run_bind, Action.run_zoom]
  rcases (SessionCore.decode B.toCodecBackend configuration p packet).run state.runtime
    with ⟨e | frame, runtime⟩
  · rfl
  · rfl

/-- A flush that the backend refuses changes nothing but the backend. -/
theorem flush_run (p : π) (state : SessionState σ) :
    (flush B p).run state =
      match (B.flush p).run state.runtime.backend with
      | (.error e, backend) =>
          (.error e, { state with runtime := { state.runtime with backend := backend } })
      | (.ok (), backend) =>
          (.ok (), {
            runtime := Runtime.reset B { state.runtime with backend := backend }
            encoderFlushed := true
            decoderFlushed := true }) := by
  simp only [flush, Runtime.flush, onRuntime, SessionCore.onBackend, Action.run_bind,
    Action.run_zoom]
  rcases (B.flush p).run state.runtime.backend with ⟨e | u, backend⟩
  · rfl
  · rfl

end SessionState

end Nvcr.Legacy
