import Nvcr.CodecLaws
import Nvcr.SessionQueues

/-!
# Encoder and decoder sessions over one core

The two sessions share a backend. If its directions are separate, the calls of one session cannot
be noticed in the answers of the other, and a session that was reset answers as a new one.
-/

namespace Nvcr.Rt

open StatefulResults Codec TransitionRuns

namespace Call

variable {π : Type}

/-- The call belongs to the encoder session. -/
def onEncoder : Call π → Bool
  | .sendFrame _ _ | .receiveAccessUnit | .flushEncoder _ | .resetEncoder => true
  | .sendAccessUnit _ _ | .receiveFrame | .flushDecoder _ | .resetDecoder => false

/-- The call belongs to the decoder session. -/
def onDecoder (call : Call π) : Bool := !call.onEncoder

end Call

namespace SessionCore

variable {π σ : Type} {B : CodecBackend π σ} (configuration : SessionConfiguration)

theorem flushEncoder_run (laws : B.Laws) (p : π) (core : SessionCore σ) :
    (flushEncoder B p).run core =
      match laws.flushAnswer p with
      | .ok () => (.ok (), resetEncoder B core)
      | .error e => (.error e, core) := by
  simp only [flushEncoder, onBackend, Action.run_bind, Action.run_zoom, laws.flush]
  cases laws.flushAnswer p <;> rfl

theorem flushDecoder_run (laws : B.Laws) (p : π) (core : SessionCore σ) :
    (flushDecoder B p).run core =
      match laws.flushAnswer p with
      | .ok () => (.ok (), resetDecoder B core)
      | .error e => (.error e, core) := by
  simp only [flushDecoder, onBackend, Action.run_bind, Action.run_zoom, laws.flush]
  cases laws.flushAnswer p <;> rfl

/-- The backend stays kin to what it was kin to. -/
theorem encode_kin (laws : B.SeparateLaws) {core : SessionCore σ} {backend : σ}
    (h : laws.Kin core.backend backend) (p : π) (frame : Frame) :
    laws.Kin ((encode B configuration p frame).run core).2.backend backend := by
  by_cases hframe : frame.data.length = 0
  · simp only [SessionCore.encode, if_pos hframe, Action.run_fail]
    exact h
  rw [encode_run B configuration p frame core hframe]
  cases core.encoderState.nextFrameType with
  | error e => exact h
  | ok frameType =>
      have hkin := laws.encode_kin p frame frameType core.encoderState.view h
      simp only []
      rcases hrun : (B.encode p frame frameType core.encoderState.view).run core.backend with
        ⟨e | encoded, later⟩
      · rw [hrun] at hkin
        exact hkin
      · rw [hrun] at hkin
        simp only []
        cases finished configuration frame frameType core.encoderState encoded <;> exact hkin

theorem decode_kin (laws : B.SeparateLaws) {core : SessionCore σ} {backend : σ}
    (h : laws.Kin core.backend backend) (p : π) (packet : Packet) :
    laws.Kin ((decode B configuration p packet).run core).2.backend backend := by
  rw [decode_run]
  cases packetAccessUnit configuration packet with
  | error e => exact h
  | ok unit =>
      have hprepared : laws.Kin (prepared unit core).backend backend := by
        unfold prepared
        split <;> exact h
      simp only []
      generalize prepared unit core = core at hprepared ⊢
      cases core.decoderState.validatePacket packet.frameType with
      | error e => exact hprepared
      | ok u =>
          have hkin := laws.decode_kin p ((unit.map AccessUnit.payload).getD packet.data)
            packet.frameType packet.timestamp core.decoderState.view hprepared
          simp only []
          rcases hrun : (B.decode p ((unit.map AccessUnit.payload).getD packet.data)
            packet.frameType packet.timestamp core.decoderState.view).run core.backend with
            ⟨e | decoded, later⟩
          · rw [hrun] at hkin
            exact hkin
          · rw [hrun] at hkin
            simp only []
            cases accepted unit core.decoderState decoded packet.frameType <;> exact hkin

/-- Decoding leaves the encoder half as it was. -/
theorem EncoderAlike.decode {laws : B.SeparateLaws} {d : UInt64} {core core' : SessionCore σ}
    (h : EncoderAlike laws.toLaws d core core') (p : π) (packet : Packet) :
    EncoderAlike laws.toLaws d ((decode B configuration p packet).run core).2 core' := by
  rw [decode_run]
  cases hunit : packetAccessUnit configuration packet with
  | error e => exact h
  | ok unit =>
      have hprepared : EncoderAlike laws.toLaws d (prepared unit core) core' := by
        unfold prepared
        split
        · exact ⟨h.state, h.kin, h.same⟩
        · exact h
      simp only []
      generalize prepared unit core = core at hprepared ⊢
      cases hvalid : core.decoderState.validatePacket packet.frameType with
      | error e => exact hprepared
      | ok u =>
          have hkin := laws.decode_kin p ((unit.map AccessUnit.payload).getD packet.data)
            packet.frameType packet.timestamp core.decoderState.view hprepared.kin
          have hsame := fun hreference => laws.decode_encoder p
            ((unit.map AccessUnit.payload).getD packet.data) packet.frameType packet.timestamp
            core.decoderState.view (hprepared.same hreference)
          simp only []
          rcases hrun : (B.decode p ((unit.map AccessUnit.payload).getD packet.data)
            packet.frameType packet.timestamp core.decoderState.view).run core.backend with
            ⟨e | decoded, backend⟩
          · rw [hrun] at hkin hsame
            exact ⟨hprepared.state, hkin, hsame⟩
          · rw [hrun] at hkin hsame
            simp only []
            cases accepted unit core.decoderState decoded packet.frameType with
            | error e => exact ⟨hprepared.state, hkin, hsame⟩
            | ok state => exact ⟨hprepared.state, hkin, hsame⟩

/-- Encoding leaves the decoder half as it was. -/
theorem DecoderAlike.encode {laws : B.SeparateLaws} {d : UInt64} {core core' : SessionCore σ}
    (h : DecoderAlike laws.toLaws d core core') (p : π) (frame : Frame) :
    DecoderAlike laws.toLaws d ((encode B configuration p frame).run core).2 core' := by
  by_cases hframe : frame.data.length = 0
  · simp only [SessionCore.encode, if_pos hframe, Action.run_fail]
    exact h
  rw [encode_run B configuration p frame core hframe]
  cases htype : core.encoderState.nextFrameType with
  | error e => exact h
  | ok frameType =>
      have hkin := laws.encode_kin p frame frameType core.encoderState.view h.kin
      have hsame := fun hreference => laws.encode_decoder p frame frameType core.encoderState.view
        (h.same hreference)
      simp only []
      rcases hrun : (B.encode p frame frameType core.encoderState.view).run core.backend with
        ⟨e | encoded, backend⟩
      · rw [hrun] at hkin hsame
        exact ⟨h.state, hkin, hsame⟩
      · rw [hrun] at hkin hsame
        simp only []
        cases finished configuration frame frameType core.encoderState encoded with
        | error e => exact ⟨h.state, hkin, hsame⟩
        | ok result => exact ⟨h.state, hkin, hsame⟩

/-- Resetting both encoder halves keeps them alike, whatever their references were. -/
theorem EncoderAlike.resetEncoder {laws : B.SeparateLaws} {d : UInt64} {core core' : SessionCore σ}
    (h : EncoderAlike laws.toLaws d core core') :
    EncoderAlike laws.toLaws d (resetEncoder B core) (resetEncoder B core') where
  state := by
    simp only [SessionCore.resetEncoder, h.state, SequenceState.reset_shifted]
  kin := laws.kin_symm (laws.resetEncoder_kin (laws.kin_symm (laws.resetEncoder_kin h.kin)))
  same hnever := by cases hnever

theorem DecoderAlike.resetDecoder {laws : B.SeparateLaws} {d : UInt64} {core core' : SessionCore σ}
    (h : DecoderAlike laws.toLaws d core core') :
    DecoderAlike laws.toLaws d (resetDecoder B core) (resetDecoder B core') where
  state := by
    simp only [SessionCore.resetDecoder, h.state, SequenceState.reset_shifted]
  kin := laws.kin_symm (laws.resetDecoder_kin (laws.kin_symm (laws.resetDecoder_kin h.kin)))
  same hnever := by cases hnever

end SessionCore

namespace Sessions

variable {π σ : Type} {B : CodecBackend π σ} {configuration : SessionConfiguration}

/-- The encoder sessions of two pairs cannot be told apart. -/
structure EncoderAlike (laws : B.Laws) (d : UInt64) (sessions sessions' : Sessions σ) : Prop where
  core : SessionCore.EncoderAlike laws d sessions.core sessions'.core
  outputs : sessions.encoderOutputs = sessions'.encoderOutputs
  flushed : sessions.encoderFlushed = sessions'.encoderFlushed

/-- The decoder sessions of two pairs cannot be told apart. -/
structure DecoderAlike (laws : B.Laws) (d : UInt64) (sessions sessions' : Sessions σ) : Prop where
  core : SessionCore.DecoderAlike laws d sessions.core sessions'.core
  outputs : sessions.decoderOutputs = sessions'.decoderOutputs
  flushed : sessions.decoderFlushed = sessions'.decoderFlushed

/-- An encoder call is answered alike and keeps the encoder sessions alike. -/
theorem EncoderAlike.step {laws : B.SeparateLaws} {d : UInt64} {sessions sessions' : Sessions σ}
    (h : EncoderAlike laws.toLaws d sessions sessions') {call : Call π}
    (hcall : call.onEncoder = true) :
    (step B configuration sessions call).1 = (step B configuration sessions' call).1 ∧
      EncoderAlike laws.toLaws d (step B configuration sessions call).2
        (step B configuration sessions' call).2 := by
  cases call with
  | sendFrame p frame =>
      obtain ⟨hresult, hcore⟩ := SessionCore.encode_alike configuration h.core p frame
      simp only [Sessions.step, sendFrame_run, h.flushed]
      split
      · exact ⟨rfl, h⟩
      · rcases hrun : (SessionCore.encode B configuration p frame).run sessions.core with
          ⟨result, core⟩
        rcases hrun' : (SessionCore.encode B configuration p frame).run sessions'.core with
          ⟨result', core'⟩
        rw [hrun, hrun'] at hresult hcore
        cases hresult
        cases result with
        | error e => exact ⟨rfl, hcore, h.outputs, rfl⟩
        | ok packet => exact ⟨rfl, hcore, congrArg (· ++ [packet]) h.outputs, rfl⟩
  | receiveAccessUnit =>
      simp only [Sessions.step, receiveAccessUnit, Action.run, h.outputs, h.flushed]
      cases houtputs : sessions'.encoderOutputs with
      | nil =>
          cases hflushed : sessions'.encoderFlushed with
          | true => exact ⟨rfl, h⟩
          | false => exact ⟨rfl, h⟩
      | cons packet packets => exact ⟨rfl, h.core, rfl, rfl⟩
  | flushEncoder p =>
      simp only [Sessions.step, flushEncoder_run, h.flushed,
        SessionCore.flushEncoder_run laws.toLaws]
      split
      · exact ⟨rfl, h⟩
      · cases laws.flushAnswer p with
        | error e => exact ⟨rfl, h.core, h.outputs, rfl⟩
        | ok u => exact ⟨rfl, h.core.resetEncoder, h.outputs, rfl⟩
  | resetEncoder => exact ⟨rfl, h.core.resetEncoder, rfl, rfl⟩
  | sendAccessUnit | receiveFrame | flushDecoder | resetDecoder => cases hcall

/-- A decoder call leaves the encoder session as it was. -/
theorem EncoderAlike.other {laws : B.SeparateLaws} {d : UInt64} {sessions sessions' : Sessions σ}
    (h : EncoderAlike laws.toLaws d sessions sessions') {call : Call π}
    (hcall : call.onEncoder = false) :
    EncoderAlike laws.toLaws d (Sessions.step B configuration sessions call).2 sessions' := by
  cases call with
  | sendAccessUnit p packet =>
      have hcore := h.core.decode configuration p packet
      simp only [Sessions.step, sendAccessUnit_run]
      split
      · exact h
      · rcases hrun : (SessionCore.decode B configuration p packet).run sessions.core with
          ⟨e | frame, core⟩
        · rw [hrun] at hcore
          exact ⟨hcore, h.outputs, h.flushed⟩
        · rw [hrun] at hcore
          exact ⟨hcore, h.outputs, h.flushed⟩
  | receiveFrame =>
      simp only [Sessions.step, receiveFrame, Action.run]
      cases sessions.decoderOutputs with
      | nil =>
          cases sessions.decoderFlushed with
          | true => exact h
          | false => exact h
      | cons frame frames => exact ⟨h.core, h.outputs, h.flushed⟩
  | flushDecoder p =>
      simp only [Sessions.step, flushDecoder_run, SessionCore.flushDecoder_run laws.toLaws]
      split
      · exact h
      · cases laws.flushAnswer p with
        | error e => exact h
        | ok u =>
            exact ⟨⟨h.core.state, laws.resetDecoder_kin h.core.kin,
              fun href => laws.resetDecoder_encoder (h.core.same href)⟩, h.outputs, h.flushed⟩
  | resetDecoder =>
      exact ⟨⟨h.core.state, laws.resetDecoder_kin h.core.kin,
        fun href => laws.resetDecoder_encoder (h.core.same href)⟩, h.outputs, h.flushed⟩
  | sendFrame | receiveAccessUnit | flushEncoder | resetEncoder => cases hcall

/-- A decoder call is answered alike and keeps the decoder sessions alike. -/
theorem DecoderAlike.step {laws : B.SeparateLaws} {d : UInt64} {sessions sessions' : Sessions σ}
    (h : DecoderAlike laws.toLaws d sessions sessions') {call : Call π}
    (hcall : call.onDecoder = true) :
    (step B configuration sessions call).1 = (step B configuration sessions' call).1 ∧
      DecoderAlike laws.toLaws d (step B configuration sessions call).2
        (step B configuration sessions' call).2 := by
  cases call with
  | sendAccessUnit p packet =>
      obtain ⟨hresult, hcore⟩ := SessionCore.decode_alike configuration h.core p packet
      simp only [Sessions.step, sendAccessUnit_run, h.flushed]
      split
      · exact ⟨rfl, h⟩
      · rcases hrun : (SessionCore.decode B configuration p packet).run sessions.core with
          ⟨result, core⟩
        rcases hrun' : (SessionCore.decode B configuration p packet).run sessions'.core with
          ⟨result', core'⟩
        rw [hrun, hrun'] at hresult hcore
        cases hresult
        cases result with
        | error e => exact ⟨rfl, hcore, h.outputs, rfl⟩
        | ok frame => exact ⟨rfl, hcore, congrArg (· ++ [frame]) h.outputs, rfl⟩
  | receiveFrame =>
      simp only [Sessions.step, receiveFrame, Action.run, h.outputs, h.flushed]
      cases houtputs : sessions'.decoderOutputs with
      | nil =>
          cases hflushed : sessions'.decoderFlushed with
          | true => exact ⟨rfl, h⟩
          | false => exact ⟨rfl, h⟩
      | cons frame frames => exact ⟨rfl, h.core, rfl, rfl⟩
  | flushDecoder p =>
      simp only [Sessions.step, flushDecoder_run, h.flushed,
        SessionCore.flushDecoder_run laws.toLaws]
      split
      · exact ⟨rfl, h⟩
      · cases laws.flushAnswer p with
        | error e => exact ⟨rfl, h.core, h.outputs, rfl⟩
        | ok u => exact ⟨rfl, h.core.resetDecoder, h.outputs, rfl⟩
  | resetDecoder => exact ⟨rfl, h.core.resetDecoder, rfl, rfl⟩
  | sendFrame | receiveAccessUnit | flushEncoder | resetEncoder => cases hcall

/-- An encoder call leaves the decoder session as it was. -/
theorem DecoderAlike.other {laws : B.SeparateLaws} {d : UInt64} {sessions sessions' : Sessions σ}
    (h : DecoderAlike laws.toLaws d sessions sessions') {call : Call π}
    (hcall : call.onDecoder = false) :
    DecoderAlike laws.toLaws d (Sessions.step B configuration sessions call).2 sessions' := by
  cases call with
  | sendFrame p frame =>
      have hcore := h.core.encode configuration p frame
      simp only [Sessions.step, sendFrame_run]
      split
      · exact h
      · rcases hrun : (SessionCore.encode B configuration p frame).run sessions.core with
          ⟨e | packet, core⟩
        · rw [hrun] at hcore
          exact ⟨hcore, h.outputs, h.flushed⟩
        · rw [hrun] at hcore
          exact ⟨hcore, h.outputs, h.flushed⟩
  | receiveAccessUnit =>
      simp only [Sessions.step, receiveAccessUnit, Action.run]
      cases sessions.encoderOutputs with
      | nil =>
          cases sessions.encoderFlushed with
          | true => exact h
          | false => exact h
      | cons packet packets => exact ⟨h.core, h.outputs, h.flushed⟩
  | flushEncoder p =>
      simp only [Sessions.step, flushEncoder_run, SessionCore.flushEncoder_run laws.toLaws]
      split
      · exact h
      · cases laws.flushAnswer p with
        | error e => exact h
        | ok u =>
            exact ⟨⟨h.core.state, laws.resetEncoder_kin h.core.kin,
              fun href => laws.resetEncoder_decoder (h.core.same href)⟩, h.outputs, h.flushed⟩
  | resetEncoder =>
      exact ⟨⟨h.core.state, laws.resetEncoder_kin h.core.kin,
        fun href => laws.resetEncoder_decoder (h.core.same href)⟩, h.outputs, h.flushed⟩
  | sendAccessUnit | receiveFrame | flushDecoder | resetDecoder => cases hcall

/-- Every pair of sessions is alike to itself in both directions. -/
theorem alike_refl (laws : B.SeparateLaws) (sessions : Sessions σ) :
    EncoderAlike laws.toLaws 0 sessions sessions ∧
      DecoderAlike laws.toLaws 0 sessions sessions := by
  have hshift : ∀ state : SequenceState, state = state.shifted 0 := by
    intro state
    rw [SequenceState.shifted, UInt64.add_zero]
  exact ⟨⟨⟨hshift _, laws.kin_refl _, fun _ => laws.encoder_refl _⟩, rfl, rfl⟩,
    ⟨⟨hshift _, laws.kin_refl _, fun _ => laws.decoder_refl _⟩, rfl, rfl⟩⟩

/-- In every run, the answers of one session are those of the run without the calls of the
other. -/
theorem answers_independent (laws : B.SeparateLaws) (sessions : Sessions σ)
    (calls : List (Call π)) :
    answersTo Call.onEncoder (Sessions.step B configuration) sessions calls =
        trace (Sessions.step B configuration) sessions (calls.filter Call.onEncoder) ∧
      answersTo Call.onDecoder (Sessions.step B configuration) sessions calls =
        trace (Sessions.step B configuration) sessions (calls.filter Call.onDecoder) := by
  obtain ⟨hencoder, hdecoder⟩ := alike_refl laws sessions
  constructor
  · refine answersTo_eq_trace_filter ?_ ?_ hencoder calls
    · intro s t call hcall h
      exact h.step hcall
    · intro s t call hcall h
      exact h.other hcall
  · refine answersTo_eq_trace_filter ?_ ?_ hdecoder calls
    · intro s t call hcall h
      exact h.step hcall
    · intro s t call hcall h
      exact h.other hcall

/-- What a pair of sessions keeps of its beginning: the assets of the backend and the GOP size. -/
structure Descends (laws : B.Laws) (configuration : SessionConfiguration) (backend : σ)
    (core : SessionCore σ) : Prop where
  kin : laws.Kin core.backend backend
  encoder_gopSize : core.encoderState.gopSize = configuration.gopSize
  decoder_gopSize : core.decoderState.gopSize = configuration.gopSize

theorem Descends.encode {laws : B.SeparateLaws} {backend : σ} {core : SessionCore σ}
    (h : Descends laws.toLaws configuration backend core) (p : π) (frame : Frame) :
    Descends laws.toLaws configuration backend
      ((SessionCore.encode B configuration p frame).run core).2 := by
  have hkin := SessionCore.encode_kin configuration laws h.kin p frame
  obtain ⟨hencoder, hdecoder⟩ := SessionCore.encode_states B configuration p
    (fun state => state.gopSize = configuration.gopSize) (fun _ _ _ hsize => hsize) frame core h.encoder_gopSize
  exact ⟨hkin, hencoder, hdecoder ▸ h.decoder_gopSize⟩

theorem Descends.decode {laws : B.SeparateLaws} {backend : σ} {core : SessionCore σ}
    (h : Descends laws.toLaws configuration backend core) (p : π) (packet : Packet) :
    Descends laws.toLaws configuration backend
      ((SessionCore.decode B configuration p packet).run core).2 := by
  have hkin := SessionCore.decode_kin configuration laws h.kin p packet
  obtain ⟨hdecoder, hencoder⟩ := SessionCore.decode_states B configuration p
    (fun state => state.gopSize = configuration.gopSize) (fun _ hsize => hsize)
    (fun _ _ _ hsize => hsize) packet core h.decoder_gopSize
  exact ⟨hkin, hencoder ▸ h.encoder_gopSize, hdecoder⟩

theorem Descends.step {laws : B.SeparateLaws} {backend : σ} (sessions : Sessions σ)
    (call : Call π) (h : Descends laws.toLaws configuration backend sessions.core) :
    Descends laws.toLaws configuration backend (step B configuration sessions call).2.core := by
  have hencoder : Descends laws.toLaws configuration backend
      (SessionCore.resetEncoder B sessions.core) :=
    ⟨laws.resetEncoder_kin h.kin, h.encoder_gopSize, h.decoder_gopSize⟩
  have hdecoder : Descends laws.toLaws configuration backend
      (SessionCore.resetDecoder B sessions.core) :=
    ⟨laws.resetDecoder_kin h.kin, h.encoder_gopSize, h.decoder_gopSize⟩
  cases call with
  | sendFrame p frame =>
      have hcore := h.encode p frame
      simp only [Sessions.step, sendFrame_run]
      split
      · exact h
      · rcases hrun : (SessionCore.encode B configuration p frame).run sessions.core with
          ⟨e | packet, core⟩
        · rw [hrun] at hcore
          exact hcore
        · rw [hrun] at hcore
          exact hcore
  | sendAccessUnit p packet =>
      have hcore := h.decode p packet
      simp only [Sessions.step, sendAccessUnit_run]
      split
      · exact h
      · rcases hrun : (SessionCore.decode B configuration p packet).run sessions.core with
          ⟨e | frame, core⟩
        · rw [hrun] at hcore
          exact hcore
        · rw [hrun] at hcore
          exact hcore
  | receiveAccessUnit =>
      simp only [Sessions.step, receiveAccessUnit, Action.run]
      cases sessions.encoderOutputs with
      | nil => cases sessions.encoderFlushed <;> exact h
      | cons packet packets => exact h
  | receiveFrame =>
      simp only [Sessions.step, receiveFrame, Action.run]
      cases sessions.decoderOutputs with
      | nil => cases sessions.decoderFlushed <;> exact h
      | cons frame frames => exact h
  | flushEncoder p =>
      simp only [Sessions.step, flushEncoder_run, SessionCore.flushEncoder_run laws.toLaws]
      split
      · exact h
      · cases laws.flushAnswer p with
        | error e => exact h
        | ok u => exact hencoder
  | flushDecoder p =>
      simp only [Sessions.step, flushDecoder_run, SessionCore.flushDecoder_run laws.toLaws]
      split
      · exact h
      · cases laws.flushAnswer p with
        | error e => exact h
        | ok u => exact hdecoder
  | resetEncoder => exact hencoder
  | resetDecoder => exact hdecoder

/-- A session that was reset after any history answers as a new one. -/
theorem reset_answers_as_new (laws : B.SeparateLaws) (configuration : SessionConfiguration)
    (backend : σ) (history later : List (Call π)) :
    ((∀ call ∈ later, call.onEncoder = true) →
      trace (Sessions.step B configuration) (Sessions.step B configuration
          (final (Sessions.step B configuration) (initial configuration backend) history)
          .resetEncoder).2 later =
        trace (Sessions.step B configuration) (initial configuration backend) later) ∧
    ((∀ call ∈ later, call.onDecoder = true) →
      trace (Sessions.step B configuration) (Sessions.step B configuration
          (final (Sessions.step B configuration) (initial configuration backend) history)
          .resetDecoder).2 later =
        trace (Sessions.step B configuration) (initial configuration backend) later) := by
  have hinitial : Descends laws.toLaws configuration backend (initial configuration backend).core :=
    ⟨laws.kin_refl _, rfl, rfl⟩
  have hdescends := invariant_of_step Descends.step hinitial history
  generalize final (Sessions.step B configuration) (initial configuration backend) history =
    sessions at hdescends
  constructor
  · intro hlater
    have halike : EncoderAlike laws.toLaws (sessions.core.encoderState.generation + 1)
        (initial configuration backend)
        (Sessions.step B configuration sessions .resetEncoder).2 := by
      refine ⟨⟨?_, laws.kin_symm (laws.resetEncoder_kin hdescends.kin), fun hnever => ?_⟩, rfl, rfl⟩
      · exact SequenceState.reset_eq_shifted hdescends.encoder_gopSize
      · cases hnever
    refine (trace_eq_of_kind ?_ halike hlater).symm
    intro s t call hcall h
    exact h.step hcall
  · intro hlater
    have halike : DecoderAlike laws.toLaws (sessions.core.decoderState.generation + 1)
        (initial configuration backend)
        (Sessions.step B configuration sessions .resetDecoder).2 := by
      refine ⟨⟨?_, laws.kin_symm (laws.resetDecoder_kin hdescends.kin), fun hnever => ?_⟩, rfl, rfl⟩
      · exact SequenceState.reset_eq_shifted hdescends.decoder_gopSize
      · cases hnever
    refine (trace_eq_of_kind ?_ halike hlater).symm
    intro s t call hcall h
    exact h.step hcall

end Sessions

end Nvcr.Rt
