import Nvcr.RelatedRuns
import Nvcr.RtSessions

/-!
# What sessions may rely on in a backend

A backend numbers its references by the generation and the frame index of a sequence. The laws
below say that the generation only tells sequences apart, that an intra frame needs nothing of
what was coded before, and that the two directions do not touch each other's references.
-/

namespace Nvcr.Codec

open StatefulResults

namespace SequenceStateView

/-- The same view, with generations counted from elsewhere. -/
def shifted (d : UInt64) (view : SequenceStateView) : SequenceStateView :=
  { view with generation := view.generation + d }

end SequenceStateView

namespace SequenceState

/-- The same state, with generations counted from elsewhere. -/
def shifted (d : UInt64) (state : SequenceState) : SequenceState :=
  { state with generation := state.generation + d }

variable (d : UInt64) (state : SequenceState)

@[simp] theorem shifted_hasReference : (state.shifted d).hasReference = state.hasReference := rfl

@[simp] theorem nextFrameType_shifted : (state.shifted d).nextFrameType = state.nextFrameType := rfl

@[simp] theorem validatePacket_shifted (frameType : FrameType) :
    (state.shifted d).validatePacket frameType = state.validatePacket frameType := rfl

@[simp] theorem view_shifted : (state.shifted d).view = state.view.shifted d := rfl

@[simp] theorem committed_shifted (frame : Frame) (latentState : Bytes) :
    (state.shifted d).committed frame latentState =
      (state.committed frame latentState).shifted d := rfl

theorem reset_shifted : (state.shifted d).reset = state.reset.shifted d := by
  have hgeneration : state.generation + d + 1 = state.generation + 1 + d := by
    rw [UInt64.add_assoc, UInt64.add_comm d 1, ← UInt64.add_assoc]
  simp only [reset, shifted, hgeneration]

/-- A state that was reset is a new one with another generation. -/
theorem reset_eq_shifted {state : SequenceState} {gopSize : UInt32} (h : state.gopSize = gopSize) :
    state.reset = ({ gopSize := gopSize } : SequenceState).shifted (state.generation + 1) := by
  simp only [reset, shifted, h, UInt64.zero_add]

theorem commit_shifted (frame : Frame) (latentState : Bytes) (frameType : FrameType) :
    (state.shifted d).commit frame latentState frameType =
      (state.commit frame latentState frameType).map (shifted d) := by
  by_cases hframe : ¬ (frame.data.length = 0 ∧ frameType = .intra)
  · by_cases hreference : ¬ (frameType = .predicted ∧ ¬ state.hasReference)
    · have hshifted : ¬ (frameType = .predicted ∧ ¬ (state.shifted d).hasReference) := hreference
      simp only [commit, require, if_pos hframe, if_pos hreference, if_pos hshifted]
      rfl
    · have hshifted : ¬ ¬ (frameType = .predicted ∧ ¬ (state.shifted d).hasReference) := hreference
      simp only [commit, require, if_pos hframe, if_neg hreference, if_neg hshifted]
      rfl
  · simp only [commit, require, if_neg hframe]
    rfl

/-- Where a frame was committed, there is a reference. -/
theorem hasReference_of_commit {state committed : SequenceState} {frame : Frame}
    {latentState : Bytes} {frameType : FrameType}
    (h : state.commit frame latentState frameType = .ok committed) :
    committed.hasReference = true := by
  obtain ⟨-, -, rfl⟩ := commit_eq_ok.mp h
  rfl

end SequenceState

variable {π σ ι ο : Type}

/-- The laws of one direction. `Kin` holds between states of one backend, `Same d` between those
of them whose references in this direction agree up to a shift of the generations. -/
structure SequenceLaws (op : π → ι → FrameType → SequenceStateView → Action Error σ ο)
    (Kin : σ → σ → Prop) (Same : UInt64 → σ → σ → Prop) : Prop where
  kin : ∀ {d b b'}, Same d b b' → Kin b b'
  intra : ∀ p input d view, Action.Relates Kin (Same d) Kin
    (op p input .intra view) (op p input .intra (view.shifted d))
  same : ∀ p input type d view, Action.Relates (Same d) (Same d) (Same d)
    (op p input type view) (op p input type (view.shifted d))

/-- A call for a frame that the sequence state admits: predicted frames need a reference. -/
theorem SequenceLaws.related {op : π → ι → FrameType → SequenceStateView → Action Error σ ο}
    {Kin : σ → σ → Prop} {Same : UInt64 → σ → σ → Prop} (laws : SequenceLaws op Kin Same)
    {d : UInt64} {b b' : σ} (hkin : Kin b b') {hasReference : Bool}
    (hsame : hasReference = true → Same d b b') {type : FrameType}
    (htype : type = .predicted → hasReference = true) (p : π) (input : ι)
    (view : SequenceStateView) :
    (∃ output c c', (op p input type view).run b = (.ok output, c) ∧
        (op p input type (view.shifted d)).run b' = (.ok output, c') ∧ Same d c c') ∨
      ∃ e c c', (op p input type view).run b = (.error e, c) ∧
        (op p input type (view.shifted d)).run b' = (.error e, c') ∧
        Kin c c' ∧ (hasReference = true → Same d c c') := by
  cases hreference : hasReference with
  | true =>
      rcases laws.same p input type d view b b' (hsame hreference) with
        hok | ⟨e, c, c', hrun, hrun', hlater⟩
      · exact .inl hok
      · exact .inr ⟨e, c, c', hrun, hrun', laws.kin hlater, fun _ => hlater⟩
  | false =>
      cases type with
      | predicted =>
          rw [hreference] at htype
          cases htype rfl
      | intra =>
          rcases laws.intra p input d view b b' hkin with hok | ⟨e, c, c', hrun, hrun', hlater⟩
          · exact .inl hok
          · exact .inr ⟨e, c, c', hrun, hrun', hlater, fun hnever => by cases hnever⟩

/-- The laws of a backend. -/
structure CodecBackend.Laws (B : CodecBackend π σ) where
  Kin : σ → σ → Prop
  EncoderSame : UInt64 → σ → σ → Prop
  DecoderSame : UInt64 → σ → σ → Prop
  encode : SequenceLaws (fun p frame type view => B.encode p frame type view) Kin EncoderSame
  decode : SequenceLaws (fun p (input : Bytes × Timestamp) type view =>
    B.decode p input.1 type input.2 view) Kin DecoderSame
  flushAnswer : π → Result Unit
  flush : ∀ p b, (B.flush p).run b = (flushAnswer p, b)

/-- The laws of a backend whose directions do not touch each other's references. -/
structure CodecBackend.SeparateLaws (B : CodecBackend π σ) extends CodecBackend.Laws B where
  kin_refl : ∀ b, Kin b b
  kin_symm : ∀ {b b'}, Kin b b' → Kin b' b
  encoder_refl : ∀ b, EncoderSame 0 b b
  decoder_refl : ∀ b, DecoderSame 0 b b
  encode_kin : ∀ p frame type view {b b'}, Kin b b' →
    Kin ((B.encode p frame type view).run b).2 b'
  encode_decoder : ∀ p frame type view {d b b'}, DecoderSame d b b' →
    DecoderSame d ((B.encode p frame type view).run b).2 b'
  decode_kin : ∀ p payload type timestamp view {b b'}, Kin b b' →
    Kin ((B.decode p payload type timestamp view).run b).2 b'
  decode_encoder : ∀ p payload type timestamp view {d b b'}, EncoderSame d b b' →
    EncoderSame d ((B.decode p payload type timestamp view).run b).2 b'
  resetEncoder_kin : ∀ {b b'}, Kin b b' → Kin (B.resetEncoder b) b'
  resetEncoder_decoder : ∀ {d b b'}, DecoderSame d b b' → DecoderSame d (B.resetEncoder b) b'
  resetDecoder_kin : ∀ {b b'}, Kin b b' → Kin (B.resetDecoder b) b'
  resetDecoder_encoder : ∀ {d b b'}, EncoderSame d b b' → EncoderSame d (B.resetDecoder b) b'

end Nvcr.Codec

namespace Nvcr.Rt.SessionCore

open StatefulResults Codec

variable {π σ : Type} {B : CodecBackend π σ}

/-- The encoder halves of two cores cannot be told apart. -/
structure EncoderAlike (laws : B.Laws) (d : UInt64) (core core' : SessionCore σ) : Prop where
  state : core'.encoderState = core.encoderState.shifted d
  kin : laws.Kin core.backend core'.backend
  same : core.encoderState.hasReference = true → laws.EncoderSame d core.backend core'.backend

/-- The decoder halves of two cores cannot be told apart. -/
structure DecoderAlike (laws : B.Laws) (d : UInt64) (core core' : SessionCore σ) : Prop where
  state : core'.decoderState = core.decoderState.shifted d
  kin : laws.Kin core.backend core'.backend
  same : core.decoderState.hasReference = true → laws.DecoderSame d core.backend core'.backend

variable (configuration : SessionConfiguration)

theorem finished_shifted (d : UInt64) (frame : Frame) (frameType : FrameType)
    (state : SequenceState) (encoded : CodecEncodeResult) :
    finished configuration frame frameType (state.shifted d) encoded =
      (finished configuration frame frameType state encoded).map
        (Prod.map id (SequenceState.shifted d)) := by
  simp only [finished, SequenceState.commit_shifted]
  cases AccessUnitIo.serialize (accessUnit configuration frame frameType encoded)
      configuration.maxPacketBytes with
  | error e => rfl
  | ok serialized =>
      simp only [ok_bind]
      cases state.commit encoded.reconstructedFrame encoded.latentState frameType <;> rfl

/-- Two cores whose encoder halves are alike encode a frame alike and stay so. -/
theorem encode_alike {laws : B.Laws} {d : UInt64} {core core' : SessionCore σ}
    (h : EncoderAlike laws d core core') (p : π) (frame : Frame) :
    ((encode B configuration p frame).run core).1 =
        ((encode B configuration p frame).run core').1 ∧
      EncoderAlike laws d ((encode B configuration p frame).run core).2
        ((encode B configuration p frame).run core').2 := by
  by_cases hframe : frame.data.length = 0
  · simp only [encode, if_pos hframe, Action.run_fail, true_and]
    exact h
  rw [encode_run B configuration p frame core hframe, encode_run B configuration p frame core' hframe,
    h.state, SequenceState.nextFrameType_shifted, SequenceState.view_shifted]
  cases htype : core.encoderState.nextFrameType with
  | error e => exact ⟨rfl, h⟩
  | ok frameType =>
      have hpredicted : frameType = .predicted → core.encoderState.hasReference = true := by
        rintro rfl
        exact SequenceState.hasReference_of_nextFrameType htype
      simp only []
      rcases laws.encode.related h.kin h.same hpredicted p frame core.encoderState.view with
        ⟨encoded, backend, backend', hrun, hrun', hsame⟩ |
        ⟨e, backend, backend', hrun, hrun', hkin, hsame⟩
      · simp only [hrun, hrun', finished_shifted]
        cases hfinished : finished configuration frame frameType core.encoderState encoded with
        | error e => exact ⟨rfl, ⟨rfl, laws.encode.kin hsame, fun _ => hsame⟩⟩
        | ok result => exact ⟨rfl, ⟨rfl, laws.encode.kin hsame, fun _ => hsame⟩⟩
      · simp only [hrun, hrun']
        exact ⟨trivial, ⟨rfl, hkin, hsame⟩⟩

theorem accepted_shifted (d : UInt64) (unit : Option AccessUnit) (state : SequenceState)
    (decoded : CodecDecodeResult) (frameType : FrameType) :
    accepted unit (state.shifted d) decoded frameType =
      (accepted unit state decoded frameType).map (SequenceState.shifted d) := by
  simp only [accepted, SequenceState.commit_shifted]
  cases checkSize unit decoded.frame with
  | error e => rfl
  | ok u =>
      simp only [ok_bind]
      cases Frame.copyFrom decoded.frame.width decoded.frame.height decoded.frame.pixelFormat
          decoded.frame.data decoded.frame.timestamp with
      | error e => rfl
      | ok reference => rfl

/-- Resetting the sequence states of alike cores keeps them alike. -/
theorem DecoderAlike.prepared {laws : B.Laws} {d : UInt64} {core core' : SessionCore σ}
    (h : DecoderAlike laws d core core') (unit : Option AccessUnit) :
    DecoderAlike laws d (prepared unit core) (prepared unit core') := by
  simp only [SessionCore.prepared]
  split
  · refine ⟨?_, h.kin, fun hnever => by cases hnever⟩
    simp only [h.state, SequenceState.reset_shifted]
  · exact h

/-- Two cores whose decoder halves are alike decode a packet alike and stay so. -/
theorem decode_alike {laws : B.Laws} {d : UInt64} {core core' : SessionCore σ}
    (h : DecoderAlike laws d core core') (p : π) (packet : Packet) :
    ((decode B configuration p packet).run core).1 =
        ((decode B configuration p packet).run core').1 ∧
      DecoderAlike laws d ((decode B configuration p packet).run core).2
        ((decode B configuration p packet).run core').2 := by
  rw [decode_run, decode_run]
  cases hunit : packetAccessUnit configuration packet with
  | error e => exact ⟨rfl, h⟩
  | ok unit =>
      have hprepared := h.prepared unit
      simp only [] at hprepared ⊢
      generalize SessionCore.prepared unit core = core at hprepared ⊢
      generalize SessionCore.prepared unit core' = core' at hprepared ⊢
      rw [hprepared.state, SequenceState.validatePacket_shifted, SequenceState.view_shifted]
      cases hvalid : core.decoderState.validatePacket packet.frameType with
      | error e => exact ⟨rfl, hprepared⟩
      | ok u =>
          have hpredicted := SequenceState.validatePacket_eq_ok.mp hvalid
          simp only []
          rcases laws.decode.related hprepared.kin hprepared.same hpredicted p
              ((unit.map AccessUnit.payload).getD packet.data, packet.timestamp)
              core.decoderState.view with
            ⟨decoded, backend, backend', hrun, hrun', hsame⟩ |
            ⟨e, backend, backend', hrun, hrun', hkin, hsame⟩
          · simp only [hrun, hrun', accepted_shifted]
            cases haccepted : accepted unit core.decoderState decoded packet.frameType with
            | error e => exact ⟨rfl, ⟨rfl, laws.decode.kin hsame, fun _ => hsame⟩⟩
            | ok state => exact ⟨rfl, ⟨rfl, laws.decode.kin hsame, fun _ => hsame⟩⟩
          · simp only [hrun, hrun']
            exact ⟨trivial, ⟨rfl, hkin, hsame⟩⟩

end Nvcr.Rt.SessionCore
