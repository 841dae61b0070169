import Nvcr.AccessUnits
import Nvcr.CodecInterface
import Nvcr.TransitionRuns

/-!
# DCVC-RT sessions

An encoder and a decoder session share one core with one backend. Every call is a step of one
machine, so runs may interleave the two sessions in any way.
-/

namespace Nvcr.Rt

open StatefulResults Codec

structure SessionConfiguration where
  gopSize : UInt32
  bitstreamModelId : Bytes
  maxPacketBytes : ℕ
  allowLegacyAccessUnits : Bool

/-- The core that the two sessions share. -/
structure SessionCore (σ : Type) where
  backend : σ
  encoderState : SequenceState
  decoderState : SequenceState

namespace SessionCore

variable {π σ α : Type}

def sessionError (code : ErrorCode) (message : String) : Error := ⟨code, message, "dcvcrt"⟩

def onBackend (x : Action Error σ α) : Action Error (SessionCore σ) α :=
  x.zoom SessionCore.backend fun core backend => { core with backend := backend }

def accessUnit (configuration : SessionConfiguration) (frame : Frame) (frameType : FrameType)
    (encoded : CodecEncodeResult) : AccessUnit where
  modelId := configuration.bitstreamModelId
  width := frame.width
  height := frame.height
  qp := encoded.effectiveQp
  frameType := frameType
  resetState := frameType = .intra
  payload := encoded.payload

variable (B : CodecBackend π σ) (configuration : SessionConfiguration) (p : π)

def encode (frame : Frame) : Action Error (SessionCore σ) Packet :=
  if frame.data.length = 0 then
    Action.fail (sessionError .invalidArgument "cannot encode an empty frame")
  else do
    let state ← Action.gets SessionCore.encoderState
    let frameType ← Action.lift state.nextFrameType
    let encoded ← onBackend (B.encode p frame frameType state.view)
    let serialized ← Action.lift (AccessUnitIo.serialize
      (accessUnit configuration frame frameType encoded) configuration.maxPacketBytes)
    let committed ← Action.lift
      (state.commit encoded.reconstructedFrame encoded.latentState frameType)
    Action.update fun core => { core with encoderState := committed }
    pure ⟨serialized, frame.timestamp, frameType⟩

/-- The access unit of a packet, unless it is a legacy payload that the configuration allows. -/
def packetAccessUnit (packet : Packet) : Result (Option AccessUnit) := do
  require (packet.data.length ≤ configuration.maxPacketBytes)
    (sessionError .resourceExhausted "packet exceeds configured limit")
  if AccessUnitIo.hasMagic packet.data then do
    let unit ← AccessUnitIo.deserialize packet.data configuration.maxPacketBytes
    require (unit.modelId = configuration.bitstreamModelId)
      (sessionError .malformedBitstream
        "access-unit model identity does not match the configured bundle")
    require (unit.frameType = packet.frameType)
      (sessionError .malformedBitstream "packet and access-unit frame types disagree")
    pure (some unit)
  else do
    require configuration.allowLegacyAccessUnits
      (sessionError .malformedBitstream "legacy codec payload rejected by configuration")
    pure none

/-- A frame must have the size that its access unit announced. -/
def checkSize (unit : Option AccessUnit) (frame : Frame) : Result Unit :=
  require (∀ announced ∈ unit, frame.width = announced.width ∧ frame.height = announced.height)
    (sessionError .malformedBitstream "decoded dimensions do not match the access unit")

/-- An access unit that asks for it resets the sequence state before it is decoded. -/
def prepared (unit : Option AccessUnit) (core : SessionCore σ) : SessionCore σ :=
  if unit.any AccessUnit.resetState then { core with decoderState := core.decoderState.reset }
  else core

def decode (packet : Packet) : Action Error (SessionCore σ) Frame := do
  let unit ← Action.lift (packetAccessUnit configuration packet)
  Action.update (prepared unit)
  let state ← Action.gets SessionCore.decoderState
  Action.lift (state.validatePacket packet.frameType)
  let payload := (unit.map AccessUnit.payload).getD packet.data
  let decoded ← onBackend
    (B.decode p payload packet.frameType packet.timestamp state.view)
  let output := decoded.frame
  Action.lift (checkSize unit output)
  let reference ← Action.lift (Frame.copyFrom output.width output.height output.pixelFormat
    output.data output.timestamp)
  let committed ← Action.lift (state.commit reference decoded.latentState packet.frameType)
  Action.update fun core => { core with decoderState := committed }
  pure output

def resetEncoder (core : SessionCore σ) : SessionCore σ :=
  { core with encoderState := core.encoderState.reset, backend := B.resetEncoder core.backend }

def resetDecoder (core : SessionCore σ) : SessionCore σ :=
  { core with decoderState := core.decoderState.reset, backend := B.resetDecoder core.backend }

def flushEncoder : Action Error (SessionCore σ) Unit := do
  onBackend (B.flush p)
  Action.update (resetEncoder B)

def flushDecoder : Action Error (SessionCore σ) Unit := do
  onBackend (B.flush p)
  Action.update (resetDecoder B)

/-- The sequence state after a decoded frame, unless the session rejects the frame. -/
def accepted (unit : Option AccessUnit) (state : SequenceState) (decoded : CodecDecodeResult)
    (frameType : FrameType) : Result SequenceState := do
  checkSize unit decoded.frame
  let reference ← Frame.copyFrom decoded.frame.width decoded.frame.height
    decoded.frame.pixelFormat decoded.frame.data decoded.frame.timestamp
  state.commit reference decoded.latentState frameType

theorem decode_run (packet : Packet) (core : SessionCore σ) :
    (decode B configuration p packet).run core =
      match packetAccessUnit configuration packet with
      | .error e => (.error e, core)
      | .ok unit =>
          let core := prepared unit core
          match core.decoderState.validatePacket packet.frameType with
          | .error e => (.error e, core)
          | .ok () =>
              let payload := (unit.map AccessUnit.payload).getD packet.data
              match (B.decode p payload packet.frameType packet.timestamp
                  core.decoderState.view).run core.backend with
              | (.error e, backend) => (.error e, { core with backend := backend })
              | (.ok decoded, backend) =>
                  match accepted unit core.decoderState decoded packet.frameType with
                  | .error e => (.error e, { core with backend := backend })
                  | .ok state =>
                      (.ok decoded.frame, { core with backend := backend, decoderState := state }) := by
  cases hunit : packetAccessUnit configuration packet with
  | error e => simp only [decode, hunit, Action.run_bind, Action.run_lift]
  | ok unit =>
      simp only [decode, hunit, Action.run_bind, Action.run_lift, Action.run_update, Action.run_gets]
      generalize prepared unit core = core
      cases hvalid : core.decoderState.validatePacket packet.frameType with
      | error e => rfl
      | ok u =>
          simp only [onBackend, Action.run_zoom]
          rcases (B.decode p _ packet.frameType packet.timestamp core.decoderState.view).run
            core.backend with ⟨e | decoded, backend⟩
          · rfl
          · simp only [accepted]
            cases hsize : checkSize unit decoded.frame with
            | error e => rfl
            | ok u =>
                cases hcopy : Frame.copyFrom decoded.frame.width decoded.frame.height
                    decoded.frame.pixelFormat decoded.frame.data decoded.frame.timestamp with
                | error e => rfl
                | ok reference =>
                    simp only [ok_bind]
                    cases hcommit : core.decoderState.commit reference decoded.latentState packet.frameType <;> rfl

/-- A packet that passes every check is decoded. -/
theorem decode_of_accepted {packet : Packet} {core : SessionCore σ} {unit : Option AccessUnit}
    {decoded : CodecDecodeResult} {backend : σ} {state : SequenceState}
    (hunit : packetAccessUnit configuration packet = .ok unit)
    (hvalid : (prepared unit core).decoderState.validatePacket packet.frameType = .ok ())
    (hdecode : (B.decode p ((unit.map AccessUnit.payload).getD packet.data) packet.frameType
      packet.timestamp (prepared unit core).decoderState.view).run (prepared unit core).backend =
        (.ok decoded, backend))
    (haccepted : accepted unit (prepared unit core).decoderState decoded packet.frameType =
      .ok state) :
    (decode B configuration p packet).run core =
      (.ok decoded.frame, { prepared unit core with backend := backend, decoderState := state }) := by
  rw [decode_run]
  simp only [hunit, hvalid, hdecode, haccepted]

/-- The access unit of an encoded frame with the sequence state it leads to. -/
def finished (frame : Frame) (frameType : FrameType) (state : SequenceState)
    (encoded : CodecEncodeResult) : Result (Bytes × SequenceState) := do
  let serialized ← AccessUnitIo.serialize (accessUnit configuration frame frameType encoded)
    configuration.maxPacketBytes
  let committed ← state.commit encoded.reconstructedFrame encoded.latentState frameType
  pure (serialized, committed)

theorem encode_run (frame : Frame) (core : SessionCore σ) (hframe : frame.data.length ≠ 0) :
    (encode B configuration p frame).run core =
      match core.encoderState.nextFrameType with
      | .error e => (.error e, core)
      | .ok frameType =>
          match (B.encode p frame frameType core.encoderState.view).run core.backend with
          | (.error e, backend) => (.error e, { core with backend := backend })
          | (.ok encoded, backend) =>
              match finished configuration frame frameType core.encoderState encoded with
              | .error e => (.error e, { core with backend := backend })
              | .ok (serialized, state) =>
                  (.ok ⟨serialized, frame.timestamp, frameType⟩,
                    { core with backend := backend, encoderState := state }) := by
  simp only [encode, if_neg hframe, Action.run_bind, Action.run_gets, Action.run_lift]
  cases htype : core.encoderState.nextFrameType with
  | error e => rfl
  | ok frameType =>
      simp only [onBackend, Action.run_zoom]
      rcases (B.encode p frame frameType core.encoderState.view).run core.backend
        with ⟨e | encoded, backend⟩
      · rfl
      · simp only [finished]
        cases hserialize : AccessUnitIo.serialize
            (accessUnit configuration frame frameType encoded) configuration.maxPacketBytes with
        | error e => rfl
        | ok serialized =>
            simp only [ok_bind]
            cases hcommit : core.encoderState.commit encoded.reconstructedFrame
              encoded.latentState frameType <;> rfl

/-- Encoding leaves the decoder's sequence state, and the encoder's as it was or committed. -/
theorem encode_states (good : SequenceState → Prop)
    (hcommitted : ∀ state frame latentState, good state → good (state.committed frame latentState))
    (frame : Frame) (core : SessionCore σ) (h : good core.encoderState) :
    good ((encode B configuration p frame).run core).2.encoderState ∧
      ((encode B configuration p frame).run core).2.decoderState = core.decoderState := by
  by_cases hframe : frame.data.length = 0
  · simp only [encode, if_pos hframe, Action.run_fail]
    exact ⟨h, trivial⟩
  rw [encode_run B configuration p frame core hframe]
  cases core.encoderState.nextFrameType with
  | error e => exact ⟨h, rfl⟩
  | ok frameType =>
      simp only []
      rcases (B.encode p frame frameType core.encoderState.view).run core.backend with
        ⟨e | encoded, backend⟩
      · exact ⟨h, rfl⟩
      · simp only []
        cases hfinished : finished configuration frame frameType core.encoderState encoded with
        | error e => exact ⟨h, rfl⟩
        | ok result =>
            obtain ⟨_, -, hfinish⟩ := bind_eq_ok.mp hfinished
            obtain ⟨committed, hcommit, hresult⟩ := bind_eq_ok.mp hfinish
            obtain ⟨-, -, rfl⟩ := SequenceState.commit_eq_ok.mp hcommit
            cases hresult
            exact ⟨hcommitted _ _ _ h, rfl⟩

/-- Decoding leaves the encoder's sequence state, and resets or commits the decoder's. -/
theorem decode_states (good : SequenceState → Prop)
    (hreset : ∀ state, good state → good state.reset)
    (hcommitted : ∀ state frame latentState, good state → good (state.committed frame latentState))
    (packet : Packet) (core : SessionCore σ) (h : good core.decoderState) :
    good ((decode B configuration p packet).run core).2.decoderState ∧
      ((decode B configuration p packet).run core).2.encoderState = core.encoderState := by
  rw [decode_run]
  cases packetAccessUnit configuration packet with
  | error e => exact ⟨h, rfl⟩
  | ok unit =>
      have hprepared : good (prepared unit core).decoderState ∧
          (prepared unit core).encoderState = core.encoderState := by
        unfold prepared
        split
        · exact ⟨hreset _ h, rfl⟩
        · exact ⟨h, rfl⟩
      simp only []
      generalize prepared unit core = core at hprepared ⊢
      cases core.decoderState.validatePacket packet.frameType with
      | error e => exact hprepared
      | ok u =>
          simp only []
          rcases (B.decode p ((unit.map AccessUnit.payload).getD packet.data) packet.frameType
            packet.timestamp core.decoderState.view).run core.backend with ⟨e | decoded, backend⟩
          · exact hprepared
          · simp only []
            cases haccepted : accepted unit core.decoderState decoded packet.frameType with
            | error e => exact hprepared
            | ok state =>
                obtain ⟨_, -, hcopied⟩ := bind_eq_ok.mp haccepted
                obtain ⟨_, -, hcommit⟩ := bind_eq_ok.mp hcopied
                obtain ⟨-, -, rfl⟩ := SequenceState.commit_eq_ok.mp hcommit
                exact ⟨hcommitted _ _ _ hprepared.1, hprepared.2⟩

end SessionCore

/-- The two sessions with their output queues. -/
structure Sessions (σ : Type) where
  core : SessionCore σ
  encoderOutputs : List Packet := []
  encoderFlushed : Bool := false
  decoderOutputs : List Frame := []
  decoderFlushed : Bool := false

/-- A call to one of the sessions, with what the provider does during it. -/
inductive Call (π : Type) where
  | sendFrame (p : π) (frame : Frame)
  | receiveAccessUnit
  | flushEncoder (p : π)
  | resetEncoder
  | sendAccessUnit (p : π) (packet : Packet)
  | receiveFrame
  | flushDecoder (p : π)
  | resetDecoder

inductive Reply where
  | status (result : Result Unit)
  | packet (result : Result Packet)
  | frame (result : Result Frame)
  deriving DecidableEq

namespace Sessions

open SessionCore (sessionError)

variable {π σ α : Type}

/-- The sessions right after they were made over an initialized backend. -/
def initial (configuration : SessionConfiguration) (backend : σ) : Sessions σ where
  core := ⟨backend, { gopSize := configuration.gopSize }, { gopSize := configuration.gopSize }⟩

def onCore (x : Action Error (SessionCore σ) α) : Action Error (Sessions σ) α :=
  x.zoom Sessions.core fun sessions core => { sessions with core := core }

variable (B : CodecBackend π σ) (configuration : SessionConfiguration)

def sendFrame (p : π) (frame : Frame) : Action Error (Sessions σ) Unit := do
  let flushed ← Action.gets Sessions.encoderFlushed
  if flushed then Action.fail (sessionError .invalidState "encoder is flushed")
  else do
    let packet ← onCore (SessionCore.encode B configuration p frame)
    Action.update fun sessions =>
      { sessions with encoderOutputs := sessions.encoderOutputs ++ [packet] }

def receiveAccessUnit : Action Error (Sessions σ) Packet := fun sessions =>
  match sessions.encoderOutputs with
  | output :: outputs => (.ok output, { sessions with encoderOutputs := outputs })
  | [] =>
      if sessions.encoderFlushed then
        (.error (sessionError .endOfStream "encoder is drained"), sessions)
      else (.error (sessionError .tryAgain "no encoded output available"), sessions)

def flushEncoder (p : π) : Action Error (Sessions σ) Unit := do
  let flushed ← Action.gets Sessions.encoderFlushed
  if flushed then pure ()
  else do
    onCore (SessionCore.flushEncoder B p)
    Action.update fun sessions => { sessions with encoderFlushed := true }

def resetEncoder : Action Error (Sessions σ) Unit :=
  Action.update fun sessions =>
    { sessions with
      encoderOutputs := []
      core := SessionCore.resetEncoder B sessions.core
      encoderFlushed := false }

def sendAccessUnit (p : π) (packet : Packet) : Action Error (Sessions σ) Unit := do
  let flushed ← Action.gets Sessions.decoderFlushed
  if flushed then Action.fail (sessionError .invalidState "decoder is flushed")
  else do
    let frame ← onCore (SessionCore.decode B configuration p packet)
    Action.update fun sessions =>
      { sessions with decoderOutputs := sessions.decoderOutputs ++ [frame] }

def receiveFrame : Action Error (Sessions σ) Frame := fun sessions =>
  match sessions.decoderOutputs with
  | output :: outputs => (.ok output, { sessions with decoderOutputs := outputs })
  | [] =>
      if sessions.decoderFlushed then
        (.error (sessionError .endOfStream "decoder is drained"), sessions)
      else (.error (sessionError .tryAgain "no decoded output available"), sessions)

def flushDecoder (p : π) : Action Error (Sessions σ) Unit := do
  let flushed ← Action.gets Sessions.decoderFlushed
  if flushed then pure ()
  else do
    onCore (SessionCore.flushDecoder B p)
    Action.update fun sessions => { sessions with decoderFlushed := true }

def resetDecoder : Action Error (Sessions σ) Unit :=
  Action.update fun sessions =>
    { sessions with
      decoderOutputs := []
      core := SessionCore.resetDecoder B sessions.core
      decoderFlushed := false }

/-- Answer a call. -/
def step (sessions : Sessions σ) : Call π → Reply × Sessions σ
  | .sendFrame p frame =>
      ((sendFrame B configuration p frame).run sessions).map .status id
  | .receiveAccessUnit => (receiveAccessUnit.run sessions).map .packet id
  | .flushEncoder p => ((flushEncoder B p).run sessions).map .status id
  | .resetEncoder => ((resetEncoder B).run sessions).map .status id
  | .sendAccessUnit p packet =>
      ((sendAccessUnit B configuration p packet).run sessions).map .status id
  | .receiveFrame => (receiveFrame.run sessions).map .frame id
  | .flushDecoder p => ((flushDecoder B p).run sessions).map .status id
  | .resetDecoder => ((resetDecoder B).run sessions).map .status id

end Sessions

end Nvcr.Rt
