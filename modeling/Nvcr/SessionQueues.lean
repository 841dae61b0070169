import Nvcr.MlvcDecoderReferences
import Nvcr.MlvcEncoderAtomicity
import Nvcr.OutputQueues
import Nvcr.RtSessions

/-!
# Output queues of the sessions

The DCVC-RT and MLVC encoder and decoder sessions share one contract: what is received is what
the successful sends produced since the last reset, in order.
-/

namespace Nvcr

open StatefulResults StatefulResults.Action OutputQueues TransitionRuns

/-- What a receive call reports; every other failure reports nothing of the contract. -/
def receipt {α : Type} : Result α → Option (Receipt α)
  | .ok output => some (.output output)
  | .error e =>
      if e.code = .tryAgain then some .needMoreInput
      else if e.code = .endOfStream then some .endOfStream
      else none

/-- In every run, what was received are the first outputs of the successful sends since the last
reset, and the next receive call reports what is due: the next such output, need-more-input when
there is none and the session is not flushed, and end-of-stream when it is flushed. -/
def QueueContract {σ ι ο α : Type} (step : σ → ι → ο × σ) (event : σ → ι → Event α)
    (receive : σ → Result α) (s : σ) : Prop :=
  ∀ calls, (ledger step event s calls).received <+: (ledger step event s calls).produced ∧
    receipt (receive (final step s calls)) = some (ledger step event s calls).expected

theorem queueContract_of_implements {σ ι ο α : Type} {step : σ → ι → ο × σ}
    {event : σ → ι → Event α} {view : σ → List α × Bool} {receive : σ → Result α} {s : σ}
    (h : Implements step event view) (hs : view s = ([], false))
    (hreceive : ∀ s, receipt (receive s) = some (front (view s))) :
    QueueContract step event receive s := by
  intro calls
  refine ⟨h.in_order hs calls, ?_⟩
  rw [hreceive, h.front_eq hs calls]

namespace Rt.Sessions

variable {π σ : Type} (B : Codec.CodecBackend π σ) (configuration : SessionConfiguration)

def encoderQueue (sessions : Sessions σ) : List Packet × Bool :=
  (sessions.encoderOutputs, sessions.encoderFlushed)

def decoderQueue (sessions : Sessions σ) : List Frame × Bool :=
  (sessions.decoderOutputs, sessions.decoderFlushed)

/-- What a call means for the outputs of the encoder session. -/
def encoderEvent (sessions : Sessions σ) (call : Call π) : Event Packet :=
  match call, (step B configuration sessions call).1 with
  | .sendFrame p frame, .status (.ok ()) =>
      match ((SessionCore.encode B configuration p frame).run sessions.core).1 with
      | .ok packet => .produced packet
      | .error _ => .other
  | .receiveAccessUnit, .packet (.ok packet) => .received packet
  | .flushEncoder _, .status (.ok ()) => .flushed
  | .resetEncoder, .status (.ok ()) => .reset
  | _, _ => .other

/-- What a call means for the outputs of the decoder session. -/
def decoderEvent (sessions : Sessions σ) (call : Call π) : Event Frame :=
  match call, (step B configuration sessions call).1 with
  | .sendAccessUnit p packet, .status (.ok ()) =>
      match ((SessionCore.decode B configuration p packet).run sessions.core).1 with
      | .ok frame => .produced frame
      | .error _ => .other
  | .receiveFrame, .frame (.ok frame) => .received frame
  | .flushDecoder _, .status (.ok ()) => .flushed
  | .resetDecoder, .status (.ok ()) => .reset
  | _, _ => .other

variable {B configuration}

theorem sendFrame_run (p : π) (frame : Frame) (sessions : Sessions σ) :
    (sendFrame B configuration p frame).run sessions =
      if sessions.encoderFlushed then
        (.error (SessionCore.sessionError .invalidState "encoder is flushed"), sessions)
      else
        match (SessionCore.encode B configuration p frame).run sessions.core with
        | (.ok packet, core) =>
            (.ok (), { sessions with
              core := core, encoderOutputs := sessions.encoderOutputs ++ [packet] })
        | (.error e, core) => (.error e, { sessions with core := core }) := by
  rw [sendFrame, run_bind, run_gets]
  by_cases hflushed : sessions.encoderFlushed
  · simp only [hflushed, if_true, run_fail]
  · simp only [hflushed, Bool.false_eq_true, if_false, run_bind, onCore, run_zoom]
    rcases (SessionCore.encode B configuration p frame).run sessions.core with ⟨e | packet, core⟩
      <;> rfl

theorem sendAccessUnit_run (p : π) (packet : Packet) (sessions : Sessions σ) :
    (sendAccessUnit B configuration p packet).run sessions =
      if sessions.decoderFlushed then
        (.error (SessionCore.sessionError .invalidState "decoder is flushed"), sessions)
      else
        match (SessionCore.decode B configuration p packet).run sessions.core with
        | (.ok frame, core) =>
            (.ok (), { sessions with
              core := core, decoderOutputs := sessions.decoderOutputs ++ [frame] })
        | (.error e, core) => (.error e, { sessions with core := core }) := by
  rw [sendAccessUnit, run_bind, run_gets]
  by_cases hflushed : sessions.decoderFlushed
  · simp only [hflushed, if_true, run_fail]
  · simp only [hflushed, Bool.false_eq_true, if_false, run_bind, onCore, run_zoom]
    rcases (SessionCore.decode B configuration p packet).run sessions.core with ⟨e | frame, core⟩
      <;> rfl

theorem flushEncoder_run (p : π) (sessions : Sessions σ) :
    (flushEncoder B p).run sessions =
      if sessions.encoderFlushed then (.ok (), sessions)
      else
        match (SessionCore.flushEncoder B p).run sessions.core with
        | (.ok _, core) => (.ok (), { sessions with core := core, encoderFlushed := true })
        | (.error e, core) => (.error e, { sessions with core := core }) := by
  rw [flushEncoder, run_bind, run_gets]
  by_cases hflushed : sessions.encoderFlushed
  · simp only [hflushed, if_true, run_pure]
  · simp only [hflushed, Bool.false_eq_true, if_false, run_bind, onCore, run_zoom]
    rcases (SessionCore.flushEncoder B p).run sessions.core with ⟨e | _, core⟩ <;> rfl

theorem flushDecoder_run (p : π) (sessions : Sessions σ) :
    (flushDecoder B p).run sessions =
      if sessions.decoderFlushed then (.ok (), sessions)
      else
        match (SessionCore.flushDecoder B p).run sessions.core with
        | (.ok _, core) => (.ok (), { sessions with core := core, decoderFlushed := true })
        | (.error e, core) => (.error e, { sessions with core := core }) := by
  rw [flushDecoder, run_bind, run_gets]
  by_cases hflushed : sessions.decoderFlushed
  · simp only [hflushed, if_true, run_pure]
  · simp only [hflushed, Bool.false_eq_true, if_false, run_bind, onCore, run_zoom]
    rcases (SessionCore.flushDecoder B p).run sessions.core with ⟨e | _, core⟩ <;> rfl

theorem encoder_receipt (sessions : Sessions σ) :
    receipt (receiveAccessUnit.run sessions).1 = some (front sessions.encoderQueue) := by
  obtain ⟨core, packets, flushed, frames, drained⟩ := sessions
  cases packets with
  | nil => cases flushed <;> rfl
  | cons packet packets => rfl

theorem decoder_receipt (sessions : Sessions σ) :
    receipt (receiveFrame.run sessions).1 = some (front sessions.decoderQueue) := by
  obtain ⟨core, packets, flushed, frames, drained⟩ := sessions
  cases frames with
  | nil => cases drained <;> rfl
  | cons frame frames => rfl

/-- Each call does to the two queues what it means for them. -/
theorem step_queues (sessions : Sessions σ) (call : Call π) :
    encoderQueue (step B configuration sessions call).2 =
        applyEvent sessions.encoderQueue (encoderEvent B configuration sessions call) ∧
      decoderQueue (step B configuration sessions call).2 =
        applyEvent sessions.decoderQueue (decoderEvent B configuration sessions call) := by
  obtain ⟨core, packets, flushed, frames, drained⟩ := sessions
  simp only [encoderEvent, decoderEvent]
  cases call with
  | sendFrame p frame =>
      simp only [step, sendFrame_run]
      cases flushed with
      | true => exact ⟨rfl, rfl⟩
      | false =>
          rcases hrun : (SessionCore.encode B configuration p frame).run core
            with ⟨e | packet, core'⟩
          · exact ⟨rfl, rfl⟩
          · refine ⟨?_, rfl⟩
            change _ = applyEvent (packets, false)
              (match ((SessionCore.encode B configuration p frame).run core).1 with
              | .ok packet => .produced packet
              | .error _ => .other)
            rw [hrun]
            rfl
  | receiveAccessUnit =>
      cases packets with
      | nil => cases flushed <;> exact ⟨rfl, rfl⟩
      | cons packet packets => exact ⟨rfl, rfl⟩
  | flushEncoder p =>
      simp only [step, flushEncoder_run]
      cases flushed with
      | true => exact ⟨rfl, rfl⟩
      | false =>
          rcases (SessionCore.flushEncoder B p).run core with ⟨e | _, core'⟩ <;> exact ⟨rfl, rfl⟩
  | resetEncoder => exact ⟨rfl, rfl⟩
  | sendAccessUnit p packet =>
      simp only [step, sendAccessUnit_run]
      cases drained with
      | true => exact ⟨rfl, rfl⟩
      | false =>
          rcases hrun : (SessionCore.decode B configuration p packet).run core
            with ⟨e | frame, core'⟩
          · exact ⟨rfl, rfl⟩
          · refine ⟨rfl, ?_⟩
            change _ = applyEvent (frames, false)
              (match ((SessionCore.decode B configuration p packet).run core).1 with
              | .ok frame => .produced frame
              | .error _ => .other)
            rw [hrun]
            rfl
  | receiveFrame =>
      cases frames with
      | nil => cases drained <;> exact ⟨rfl, rfl⟩
      | cons frame frames => exact ⟨rfl, rfl⟩
  | flushDecoder p =>
      simp only [step, flushDecoder_run]
      cases drained with
      | true => exact ⟨rfl, rfl⟩
      | false =>
          rcases (SessionCore.flushDecoder B p).run core with ⟨e | _, core'⟩ <;> exact ⟨rfl, rfl⟩
  | resetDecoder => exact ⟨rfl, rfl⟩

theorem encoder_implements :
    Implements (step B configuration) (encoderEvent B configuration) encoderQueue where
  step_view sessions call := (step_queues sessions call).1
  head_of_received := by
    intro sessions call output h
    obtain ⟨core, packets, flushed, frames, drained⟩ := sessions
    unfold encoderEvent at h
    split at h
    · split at h <;> cases h
    · rename_i packet hreply
      cases h
      cases packets with
      | nil => cases flushed <;> cases hreply
      | cons first packets =>
          cases hreply
          rfl
    · cases h
    · cases h
    · cases h

theorem decoder_implements :
    Implements (step B configuration) (decoderEvent B configuration) decoderQueue where
  step_view sessions call := (step_queues sessions call).2
  head_of_received := by
    intro sessions call output h
    obtain ⟨core, packets, flushed, frames, drained⟩ := sessions
    unfold decoderEvent at h
    split at h
    · split at h <;> cases h
    · rename_i frame hreply
      cases h
      cases frames with
      | nil => cases drained <;> cases hreply
      | cons first frames =>
          cases hreply
          rfl
    · cases h
    · cases h
    · cases h

end Rt.Sessions

namespace Mlvc

variable {Image Feature : Type} (configuration : Configuration)

namespace EncoderSession

def queue (session : EncoderSession Feature) : List Packet × Bool :=
  (session.outputs, session.flushed)

/-- What a call means for the outputs of the session. -/
def event (session : EncoderSession Feature) : Call Image Feature → Event Packet
  | .sendFrame environment frame =>
      match (run (sendFrame environment configuration frame) session).1,
          (run (encode environment configuration frame) session).1 with
      | .ok (), .ok packet => .produced packet
      | _, _ => .other
  | .receive =>
      match (run receiveAccessUnit session).1 with
      | .ok packet => .received packet
      | .error _ => .other
  | .flush => .flushed
  | .reset => .reset

variable {configuration}

theorem selectCanvas_keeps_queue (environment : Environment Image Feature) (width height : ℕ) :
    Keeps queue (selectCanvas environment configuration width height) := by
  refine .bind (.gets _) fun session => ?_
  cases session.keepsCanvas width height with
  | some selection => exact .pure _
  | none =>
      simp only []
      split
      · exact .fail _
      · exact .bind (.lift _) fun selection => .bind (.update fun _ => rfl) fun _ => .pure _

/-- Encoding a frame leaves the outputs alone. -/
theorem encode_keeps_queue (environment : Environment Image Feature) (frame : Frame) :
    Keeps queue (encode environment configuration frame) :=
  .bind (selectCanvas_keeps_queue environment _ _) fun _ => .bind (.update fun _ => rfl) fun _ =>
    .bind (.gets _) fun _ => .bind (.lift _) fun _ => .bind (.update fun _ => rfl) fun _ =>
    .bind (.lift _) fun _ => .pure _

theorem receive_receipt (session : EncoderSession Feature) :
    receipt (run receiveAccessUnit session).1 = some (front session.queue) := by
  obtain ⟨selected, references, outputs, flushed⟩ := session
  cases outputs with
  | nil => cases flushed <;> rfl
  | cons packet outputs => rfl

theorem sendFrame_queue (environment : Environment Image Feature) (frame : Frame)
    (session : EncoderSession Feature) :
    queue (run (sendFrame environment configuration frame) session).2 =
      applyEvent session.queue (event configuration session (.sendFrame environment frame)) := by
  simp only [event, run_sendFrame]
  by_cases hflushed : session.flushed = true
  · rw [if_pos hflushed]
    rfl
  rw [if_neg hflushed]
  by_cases hformat : frame.pixelFormat ≠ .yuv420p8
  · rw [if_pos hformat]
    rfl
  rw [if_neg hformat]
  have hkeeps : queue (run (encode environment configuration frame) session).2 = session.queue :=
    encode_keeps_queue environment frame session
  rcases hrun : run (encode environment configuration frame) session with ⟨e | packet, next⟩
  · rw [hrun] at hkeeps
    exact hkeeps
  · rw [hrun] at hkeeps
    have houtputs : next.outputs = session.outputs := congrArg Prod.fst hkeeps
    have hnext : next.flushed = session.flushed := congrArg Prod.snd hkeeps
    change (next.outputs ++ [packet], next.flushed) = (session.outputs ++ [packet], session.flushed)
    rw [houtputs, hnext]

theorem implements_queue : Implements (step configuration)
    (fun session (call : Call Image Feature) => event configuration session call) queue where
  step_view session call := by
    cases call with
    | sendFrame environment frame => exact sendFrame_queue environment frame session
    | receive =>
        obtain ⟨selected, references, outputs, flushed⟩ := session
        cases outputs with
        | nil => cases flushed <;> rfl
        | cons packet outputs => rfl
    | flush => rfl
    | reset => rfl
  head_of_received session call output h := by
    cases call with
    | sendFrame environment frame =>
        simp only [event] at h
        split at h <;> cases h
    | receive =>
        obtain ⟨selected, references, outputs, flushed⟩ := session
        cases outputs with
        | nil => cases flushed <;> cases h
        | cons packet outputs =>
            cases h
            rfl
    | flush => cases h
    | reset => cases h

end EncoderSession

namespace DecoderSession

def queue (session : DecoderSession Feature) : List Frame × Bool :=
  (session.outputs, session.flushed)

/-- What a call means for the outputs of the session. -/
def event (session : DecoderSession Feature) : Call Image Feature → Event Frame
  | .sendAccessUnit environment packet =>
      match (run (sendAccessUnit environment configuration packet) session).1,
          (run (decode environment configuration packet) session).1 with
      | .ok (), .ok frame => .produced frame
      | _, _ => .other
  | .receive =>
      match (run receiveFrame session).1 with
      | .ok frame => .received frame
      | .error _ => .other
  | .flush => .flushed
  | .reset => .reset

variable {configuration}

/-- Decoding a packet leaves the outputs alone. -/
theorem decode_keeps_queue (environment : Environment Image Feature) (packet : Packet) :
    Keeps queue (decode environment configuration packet) := by
  refine .bind (.lift _) fun parsed => .bind ?_ fun selection => ?_
  · exact .bind (.gets _) fun _ => .bind (.lift _) fun _ => .bind (.update fun _ => rfl) fun _ =>
      .pure _
  · simp only []
    split
    · exact .bind (.gets _) fun _ => .lift _
    · exact .bind (.lift _) fun _ => .bind (.update fun _ => rfl) fun _ => .bind (.gets _) fun _ =>
        .bind (.lift _) fun _ => .bind (.update fun _ => rfl) fun _ => .bind (.lift _) fun _ =>
        .bind (.update fun _ => rfl) fun _ => .pure _

theorem receive_receipt (session : DecoderSession Feature) :
    receipt (run receiveFrame session).1 = some (front session.queue) := by
  obtain ⟨selected, references, lastOutput, outputs, flushed⟩ := session
  cases outputs with
  | nil => cases flushed <;> rfl
  | cons frame outputs => rfl

theorem sendAccessUnit_queue (environment : Environment Image Feature) (packet : Packet)
    (session : DecoderSession Feature) :
    queue (run (sendAccessUnit environment configuration packet) session).2 =
      applyEvent session.queue
        (event configuration session (.sendAccessUnit environment packet)) := by
  simp only [event, Tracked.run_sendAccessUnit]
  by_cases hflushed : session.flushed = true
  · rw [if_pos hflushed]
    rfl
  rw [if_neg hflushed]
  have hkeeps : queue (run (decode environment configuration packet) session).2 = session.queue :=
    decode_keeps_queue environment packet session
  rcases hrun : run (decode environment configuration packet) session with ⟨e | frame, next⟩
  · rw [hrun] at hkeeps
    exact hkeeps
  · rw [hrun] at hkeeps
    have houtputs : next.outputs = session.outputs := congrArg Prod.fst hkeeps
    have hnext : next.flushed = session.flushed := congrArg Prod.snd hkeeps
    change (next.outputs ++ [frame], next.flushed) = (session.outputs ++ [frame], session.flushed)
    rw [houtputs, hnext]

theorem implements_queue : Implements (Tracked.step configuration)
    (fun tracked (call : Call Image Feature) => event configuration tracked.session call)
    (fun tracked => tracked.session.queue) where
  step_view tracked call := by
    obtain ⟨session, sequenceOpen⟩ := tracked
    cases call with
    | sendAccessUnit environment packet => exact sendAccessUnit_queue environment packet session
    | receive =>
        obtain ⟨selected, references, lastOutput, outputs, flushed⟩ := session
        cases outputs with
        | nil => cases flushed <;> rfl
        | cons frame outputs => rfl
    | flush => rfl
    | reset => rfl
  head_of_received tracked call output h := by
    obtain ⟨session, sequenceOpen⟩ := tracked
    cases call with
    | sendAccessUnit environment packet =>
        simp only [event] at h
        split at h <;> cases h
    | receive =>
        obtain ⟨selected, references, lastOutput, outputs, flushed⟩ := session
        cases outputs with
        | nil => cases flushed <;> cases h
        | cons frame outputs =>
            cases h
            rfl
    | flush => cases h
    | reset => cases h

end DecoderSession

end Mlvc

/-- All four session classes keep the queue contract, whatever the backend and the environment
do, and for DCVC-RT also when the calls of the two sessions interleave. -/
theorem session_queues_keep_contract {π σ Image Feature : Type}
    (B : Codec.CodecBackend π σ) (rtConfiguration : Rt.SessionConfiguration) (backend : σ)
    (configuration : Mlvc.Configuration) :
    QueueContract (Rt.Sessions.step B rtConfiguration) (Rt.Sessions.encoderEvent B rtConfiguration)
        (fun sessions => (Rt.Sessions.receiveAccessUnit.run sessions).1)
        (Rt.Sessions.initial rtConfiguration backend) ∧
      QueueContract (Rt.Sessions.step B rtConfiguration)
        (Rt.Sessions.decoderEvent B rtConfiguration)
        (fun sessions => (Rt.Sessions.receiveFrame.run sessions).1)
        (Rt.Sessions.initial rtConfiguration backend) ∧
      QueueContract (Mlvc.EncoderSession.step configuration)
        (fun session (call : Mlvc.EncoderSession.Call Image Feature) =>
          Mlvc.EncoderSession.event configuration session call)
        (fun session => (Mlvc.EncoderSession.receiveAccessUnit.run session).1)
        Mlvc.EncoderSession.new ∧
      QueueContract (Mlvc.DecoderSession.Tracked.step configuration)
        (fun tracked (call : Mlvc.DecoderSession.Call Image Feature) =>
          Mlvc.DecoderSession.event configuration tracked.session call)
        (fun tracked => (Mlvc.DecoderSession.receiveFrame.run tracked.session).1)
        Mlvc.DecoderSession.Tracked.new :=
  ⟨queueContract_of_implements Rt.Sessions.encoder_implements rfl Rt.Sessions.encoder_receipt,
    queueContract_of_implements Rt.Sessions.decoder_implements rfl Rt.Sessions.decoder_receipt,
    queueContract_of_implements Mlvc.EncoderSession.implements_queue rfl
      Mlvc.EncoderSession.receive_receipt,
    queueContract_of_implements Mlvc.DecoderSession.implements_queue rfl
      fun tracked => Mlvc.DecoderSession.receive_receipt tracked.session⟩

end Nvcr
