import Nvcr.RtExactSessions
import Nvcr.RtHostLaws
import Nvcr.RtResolutionChanges

/-!
# Failures of the DCVC-RT encoder

The backend stores its reference before the session has put the frame into an access unit. A
failure behind that point leaves the backend one frame ahead. An intra frame does not read the
reference, so this is noticed exactly when the frame was a predicted one.
-/

namespace Nvcr.Rt

open StatefulResults Codec HostOps TransitionRuns

theorem SequenceStateView.shifted_zero (view : SequenceStateView) : view.shifted 0 = view := by
  rw [SequenceStateView.shifted, UInt64.add_zero]

namespace SessionCore

variable {π σ : Type} {B : CodecBackend π σ} (configuration : SessionConfiguration)

/-- Two cores whose encoder halves differ at most in a reference that the next frame does not
read. -/
structure EncoderSpare (laws : B.Laws) (core core' : SessionCore σ) : Prop where
  state : core'.encoderState = core.encoderState
  kin : laws.Kin core.backend core'.backend
  same : core.encoderState.nextFrameType = .ok .predicted →
    laws.EncoderSame 0 core.backend core'.backend

/-- Such cores encode a frame alike and stay so. -/
theorem encode_spare {laws : B.Laws} {core core' : SessionCore σ}
    (h : EncoderSpare laws core core') (p : π) (frame : Frame) :
    ((encode B configuration p frame).run core).1 =
        ((encode B configuration p frame).run core').1 ∧
      EncoderSpare laws ((encode B configuration p frame).run core).2
        ((encode B configuration p frame).run core').2 := by
  by_cases hframe : frame.data.length = 0
  · simp only [encode, if_pos hframe, Action.run_fail, true_and]
    exact h
  rw [encode_run B configuration p frame core hframe, encode_run B configuration p frame core' hframe,
    h.state]
  cases htype : core.encoderState.nextFrameType with
  | error e => exact ⟨rfl, h⟩
  | ok frameType =>
      simp only []
      cases frameType with
      | intra =>
          have hunread : core.encoderState.nextFrameType ≠ .ok .predicted := by
            rw [htype]
            exact fun heq => by cases heq
          have hrelated := laws.encode.intra p frame 0 core.encoderState.view core.backend
            core'.backend h.kin
          rw [SequenceStateView.shifted_zero] at hrelated
          rcases hrelated with ⟨encoded, backend, backend', hrun, hrun', hsame⟩ |
            ⟨e, backend, backend', hrun, hrun', hkin⟩
          · simp only [hrun, hrun']
            cases finished configuration frame .intra core.encoderState encoded with
            | error e => exact ⟨rfl, rfl, laws.encode.kin hsame, fun _ => hsame⟩
            | ok result => exact ⟨rfl, rfl, laws.encode.kin hsame, fun _ => hsame⟩
          · simp only [hrun, hrun']
            exact ⟨trivial, rfl, hkin, fun hread => absurd hread hunread⟩
      | predicted =>
          have hrelated := laws.encode.same p frame .predicted 0 core.encoderState.view core.backend
            core'.backend (h.same htype)
          rw [SequenceStateView.shifted_zero] at hrelated
          rcases hrelated with ⟨encoded, backend, backend', hrun, hrun', hsame⟩ |
            ⟨e, backend, backend', hrun, hrun', hsame⟩
          · simp only [hrun, hrun']
            cases finished configuration frame .predicted core.encoderState encoded with
            | error e => exact ⟨rfl, rfl, laws.encode.kin hsame, fun _ => hsame⟩
            | ok result => exact ⟨rfl, rfl, laws.encode.kin hsame, fun _ => hsame⟩
          · simp only [hrun, hrun']
            exact ⟨trivial, rfl, laws.encode.kin hsame, fun _ => hsame⟩

/-- A reset drops the reference, so nothing reads it. -/
theorem EncoderSpare.resetEncoder {laws : B.SeparateLaws} {core core' : SessionCore σ}
    (h : EncoderSpare laws.toLaws core core') :
    EncoderSpare laws.toLaws (resetEncoder B core) (resetEncoder B core') where
  state := congrArg SequenceState.reset h.state
  kin := laws.kin_symm (laws.resetEncoder_kin (laws.kin_symm (laws.resetEncoder_kin h.kin)))
  same hread := nomatch SequenceState.hasReference_of_nextFrameType hread

end SessionCore

namespace Sessions

variable {π σ : Type} {B : CodecBackend π σ} {configuration : SessionConfiguration}

/-- Two pairs of sessions whose encoder sessions differ at most in a reference that the next frame
does not read. -/
structure EncoderSpare (laws : B.Laws) (sessions sessions' : Sessions σ) : Prop where
  core : SessionCore.EncoderSpare laws sessions.core sessions'.core
  outputs : sessions.encoderOutputs = sessions'.encoderOutputs
  flushed : sessions.encoderFlushed = sessions'.encoderFlushed

/-- Such sessions answer an encoder call alike and stay so. -/
theorem EncoderSpare.step {laws : B.SeparateLaws} {sessions sessions' : Sessions σ}
    (h : EncoderSpare laws.toLaws sessions sessions') {call : Call π}
    (hcall : call.onEncoder = true) :
    (step B configuration sessions call).1 = (step B configuration sessions' call).1 ∧
      EncoderSpare laws.toLaws (step B configuration sessions call).2
        (step B configuration sessions' call).2 := by
  cases call with
  | sendFrame p frame =>
      obtain ⟨hresult, hcore⟩ := SessionCore.encode_spare configuration h.core p frame
      simp only [Sessions.step, sendFrame_run, h.flushed]
      split
      · exact ⟨rfl, h⟩
      · rcases hrun : (SessionCore.encode B configuration p frame).run sessions.core with
          ⟨result, core⟩
        rcases hrun' : (SessionCore.encode B configuration p frame).run sessions'.core with
          ⟨result', core'⟩
        rw [hrun, hrun'] at hresult hcore
        cases hresult
        cases result with
        | error e => exact ⟨rfl, hcore, h.outputs, rfl⟩
        | ok packet => exact ⟨rfl, hcore, congrArg (· ++ [packet]) h.outputs, rfl⟩
  | receiveAccessUnit =>
      simp only [Sessions.step, receiveAccessUnit, Action.run, h.outputs, h.flushed]
      cases houtputs : sessions'.encoderOutputs with
      | nil =>
          cases hflushed : sessions'.encoderFlushed with
          | true => exact ⟨rfl, h⟩
          | false => exact ⟨rfl, h⟩
      | cons packet packets => exact ⟨rfl, h.core, rfl, rfl⟩
  | flushEncoder p =>
      simp only [Sessions.step, flushEncoder_run, h.flushed,
        SessionCore.flushEncoder_run laws.toLaws]
      split
      · exact ⟨rfl, h⟩
      · cases laws.flushAnswer p with
        | error e => exact ⟨rfl, h.core, h.outputs, rfl⟩
        | ok u => exact ⟨rfl, h.core.resetEncoder, h.outputs, rfl⟩
  | resetEncoder => exact ⟨rfl, h.core.resetEncoder, rfl, rfl⟩
  | sendAccessUnit | receiveFrame | flushDecoder | resetDecoder => cases hcall

/-- The encoder sessions cannot be told apart, also not by runs that use the decoder session in
between. -/
theorem EncoderSpare.answers {laws : B.SeparateLaws} {sessions sessions' : Sessions σ}
    (h : EncoderSpare laws.toLaws sessions sessions') (calls : List (Call π)) :
    answersTo Call.onEncoder (Sessions.step B configuration) sessions calls =
      answersTo Call.onEncoder (Sessions.step B configuration) sessions' calls := by
  rw [(answers_independent laws sessions calls).1, (answers_independent laws sessions' calls).1]
  refine trace_eq_of_kind (fun s t call hcall hst => ?_) h fun call hmem =>
    (List.mem_filter.mp hmem).2
  exact hst.step hcall

end Sessions

section HostBackend

variable {A : HostArithmetic} {R : RansCoder} {p : Provider A} {setup : BackendSetup A}
  {frame : Frame} {view : SequenceStateView}

namespace FrameWork

end FrameWork

namespace HostBackend

variable {backend backend' : HostBackend A R}

end HostBackend

namespace Sessions

variable {configuration : SessionConfiguration} {sessions : Sessions (HostBackend A R)}

end Sessions

end HostBackend

namespace Sessions

open RansCoder

end Sessions

end Nvcr.Rt
