import Nvcr.RtExactSessions
import Nvcr.RtResolutionChanges
import Nvcr.SessionQueues

/-!
# The size of the reference in DCVC-RT sessions

The buffer of each direction that belongs to the next frame has the size of the frame that this
direction accepted last. So the predicted stages of a call are given tensors of one size exactly
when the frame has the padded size of that last frame: nothing on the way compares the two.
-/

namespace Nvcr.Rt

open StatefulResults Codec HostOps TransitionRuns
open FrameWork (EncodesFrom DecodesFrom AcceptedFrame chosenReference)

variable {A : HostArithmetic} {R : RansCoder} {p : Provider A} {g : Geometry}

namespace Geometry

/-- Frames of the two sizes are padded to the same dimensions. -/
def SamePadded (g g' : Geometry) : Prop :=
  g.paddedHeight = g'.paddedHeight ∧ g.paddedWidth = g'.paddedWidth

theorem shape4d_inj {channels height width height' width' : ℕ} :
    shape4d channels height width = shape4d channels height' width' ↔
      height = height' ∧ width = width' := by
  simp [shape4d]

theorem frameShape_eq_iff {g g' : Geometry} : g.frameShape = g'.frameShape ↔ g.SamePadded g' :=
  shape4d_inj

theorem SamePadded.featureShape_eq {g g' : Geometry} (h : g.SamePadded g') :
    g.featureShape = g'.featureShape := by
  rw [featureShape, featureShape, h.1, h.2]

end Geometry

/-- A buffer has the shapes of every frame of the same padded size, and of no other. -/
theorem HostDpb.Fits.iff_samePadded {dpb : HostDpb A} {last : Geometry} (h : dpb.Fits last) :
    dpb.Fits g ↔ last.SamePadded g := by
  obtain ⟨⟨tensor, htensor, hshape⟩, hfeature⟩ := h
  constructor
  · rintro ⟨⟨other, hother, hother'⟩, -⟩
    obtain rfl : other = tensor := Option.some.inj (hother.symm.trans htensor)
    exact Geometry.frameShape_eq_iff.mp (hshape.symm.trans hother')
  · intro hsame
    refine ⟨⟨tensor, htensor, hshape.trans (Geometry.frameShape_eq_iff.mpr hsame)⟩, ?_⟩
    exact fun feature hmem => (hfeature feature hmem).trans hsame.featureShape_eq

theorem HostDpb.Fits.reference {dpb : HostDpb A} {useFrameReference : Bool} {reference : Binding A}
    (h : dpb.Fits g) (hchosen : chosenReference dpb useFrameReference = some reference) :
    reference.FitsReference g useFrameReference := by
  obtain ⟨⟨tensor, htensor, hshape⟩, hfeature⟩ := h
  cases useFrameReference with
  | true =>
      simp only [chosenReference, if_true, htensor] at hchosen
      cases hchosen
      exact congrArg (Prod.mk "reference_frame") hshape
  | false =>
      cases hstored : dpb.feature with
      | none => simp [chosenReference, hstored] at hchosen
      | some feature =>
          simp only [chosenReference, Bool.false_eq_true, if_false, hstored] at hchosen
          cases hchosen
          exact congrArg (Prod.mk "reference_feature") (hfeature feature hstored)

/-- The effect of a call on a direction's reference, with the size of the frame it accepts. -/
inductive SizeEffect (before after : SequenceState × HostDpb A) : Option Geometry → Prop where
  | kept : after = before → SizeEffect before after none
  | dropped : after.1.hasReference = false → SizeEffect before after none
  | ahead (g : Geometry) : after.1 = before.1 → after.2.Stored g before.1.view →
      SizeEffect before after none
  | committed (g : Geometry) (state : SequenceState) (frame : Frame) (latentState : Bytes) :
      after.2.Stored g state.view → after.1 = state.committed frame latentState →
      SizeEffect before after (some g)

/-- A buffer that belongs to the next frame of the sequence has the size of the last one, and
holds what its record says. -/
def Sized (last : Option Geometry) (reference : SequenceState × HostDpb A) : Prop :=
  reference.1.hasReference = true → reference.2.semantics.Matches reference.1.view →
    ∃ g ∈ last, reference.2.Fits g ∧
      (reference.2.semantics.hasFeature = true → reference.2.feature.isSome = true)

theorem SizeEffect.sized {before after : SequenceState × HostDpb A} {last size : Option Geometry}
    (h : SizeEffect before after size) (hbefore : Sized last before) :
    Sized (size.or last) after := by
  cases h with
  | kept hsame =>
      rw [hsame]
      exact hbefore
  | dropped hdropped =>
      intro hreference
      rw [hdropped] at hreference
      cases hreference
  | ahead g hstate hstored =>
      -- A buffer that is one frame ahead does not belong to the next frame.
      intro _ hmatches
      obtain ⟨hasFeature, hsemantics⟩ := hstored.semantics
      have hindex := hmatches.2.1
      rw [hsemantics, hstate] at hindex
      exact absurd hindex.symm (Sessions.frameIndex_ne_add_one _)
  | committed g state frame latentState hstored hcommitted =>
      exact fun _ _ => ⟨g, rfl, hstored.fits, hstored.feature⟩

namespace SessionCore

variable {setup : BackendSetup A} {configuration : SessionConfiguration}
  {core core' : SessionCore (HostBackend A R)}

/-- What the encoder session and its backend know about the reference. -/
def encoderReference (core : SessionCore (HostBackend A R)) : SequenceState × HostDpb A :=
  (core.encoderState, core.backend.encoderDpb)

/-- The payload of a packet. -/
def packetPayload (unit : Option AccessUnit) (packet : Packet) : Bytes :=
  (unit.map AccessUnit.payload).getD packet.data

/-- The size that the payload of a packet announces. -/
def packetGeometry (configuration : SessionConfiguration) (packet : Packet) : Option Geometry :=
  (packetAccessUnit configuration packet).toOption.bind fun unit =>
    payloadGeometry (packetPayload unit packet) packet.frameType

theorem encode_sizeEffect {frame : Frame} {result : Result Packet}
    (h : (encode (hostBackend A R setup) configuration p frame).run core = (result, core')) :
    SizeEffect core.encoderReference core'.encoderReference
      (result.toOption.map fun _ => Geometry.ofSize frame.width frame.height) := by
  by_cases hpixels : frame.data.length = 0
  · rw [encode, if_pos hpixels] at h
    cases h
    exact .kept rfl
  rw [encode_run _ _ _ _ _ hpixels] at h
  cases htype : core.encoderState.nextFrameType with
  | error e =>
      rw [htype] at h
      cases h
      exact .kept rfl
  | ok frameType =>
      simp only [htype] at h
      rcases hrun : ((hostBackend A R setup).encode p frame frameType
        core.encoderState.view).run core.backend with ⟨encodeResult, backend⟩
      rw [hrun] at h
      have hbuffer := HostBackend.encode_buffer hrun
      cases encodeResult with
      | error e =>
          cases h
          rcases hbuffer with ⟨hsame, -⟩ | hstored
          · exact .kept (Prod.ext rfl hsame)
          · exact .ahead _ rfl hstored
      | ok encoded =>
          have hstored : backend.encoderDpb.Stored (Geometry.ofSize frame.width frame.height)
              core.encoderState.view := by
            rcases hbuffer with ⟨-, e, hfailed⟩ | hstored
            · cases hfailed
            · exact hstored
          simp only [] at h
          cases hfinished : finished configuration frame frameType core.encoderState encoded with
          | error e =>
              rw [hfinished] at h
              cases h
              exact .ahead _ rfl hstored
          | ok outcome =>
              rw [hfinished] at h
              cases h
              obtain ⟨_, -, hfinish⟩ := bind_eq_ok.mp hfinished
              obtain ⟨committed, hcommit, houtcome⟩ := bind_eq_ok.mp hfinish
              obtain ⟨-, -, rfl⟩ := SequenceState.commit_eq_ok.mp hcommit
              cases houtcome
              exact .committed _ core.encoderState _ _ hstored rfl

theorem decode_sizeEffect {packet : Packet} {result : Result Frame}
    (h : (decode (hostBackend A R setup) configuration p packet).run core = (result, core')) :
    SizeEffect core.decoderReference core'.decoderReference
      (result.toOption.bind fun _ => packetGeometry configuration packet) := by
  rw [decode_run] at h
  cases hunit : packetAccessUnit configuration packet with
  | error e =>
      rw [hunit] at h
      cases h
      exact .kept rfl
  | ok unit =>
      simp only [hunit] at h
      obtain ⟨hbackend, hstate⟩ := prepared_effect core unit
      generalize prepared unit core = core₁ at h hbackend hstate
      -- Up to here only the session's record may have changed.
      have hprepared : ∀ backend : HostBackend A R,
          backend.decoderDpb = core.backend.decoderDpb →
          SizeEffect core.decoderReference (core₁.decoderState, backend.decoderDpb) none := by
        intro backend hdpb
        rcases hstate with hsame | hnone
        · exact .kept (Prod.ext hsame hdpb)
        · exact .dropped hnone
      have hrejected : ∀ (g : Geometry) (backend : HostBackend A R),
          backend.decoderDpb.Stored g core₁.decoderState.view →
          SizeEffect core.decoderReference (core₁.decoderState, backend.decoderDpb) none := by
        intro g backend hstored
        rcases hstate with hsame | hnone
        · exact .ahead g hsame (hsame ▸ hstored)
        · exact .dropped hnone
      cases hvalid : core₁.decoderState.validatePacket packet.frameType with
      | error e =>
          rw [hvalid] at h
          cases h
          exact hprepared _ (by rw [hbackend])
      | ok u =>
          simp only [hvalid] at h
          rcases hrun : ((hostBackend A R setup).decode p
              ((unit.map AccessUnit.payload).getD packet.data) packet.frameType packet.timestamp
              core₁.decoderState.view).run core₁.backend with ⟨decodeResult, backend⟩
          rw [hrun] at h
          have hbuffer := HostBackend.decode_buffer hrun
          cases decodeResult with
          | error e =>
              cases h
              rcases hbuffer with ⟨hsame, -⟩ | ⟨g, -, hstored⟩
              · exact hprepared backend (by rw [hsame, hbackend])
              · exact hrejected g backend hstored
          | ok decoded =>
              obtain ⟨g, hg, hstored⟩ : ∃ g, payloadGeometry
                  ((unit.map AccessUnit.payload).getD packet.data) packet.frameType = some g ∧
                  backend.decoderDpb.Stored g core₁.decoderState.view := by
                rcases hbuffer with ⟨-, e, hfailed⟩ | hstored
                · cases hfailed
                · exact hstored
              simp only [] at h
              cases haccepted : accepted unit core₁.decoderState decoded packet.frameType with
              | error e =>
                  rw [haccepted] at h
                  cases h
                  exact hrejected g backend hstored
              | ok state =>
                  rw [haccepted] at h
                  cases h
                  have hpacket : packetGeometry configuration packet = some g := by
                    rw [packetGeometry, hunit]
                    exact hg
                  rw [show (Except.ok decoded.frame : Result Frame).toOption.bind
                    (fun _ => packetGeometry configuration packet) = some g from hpacket]
                  exact .committed g core₁.decoderState _ _ hstored (accepted_eq_ok haccepted).1

/-- Decoding a packet does not touch the encoder. -/
theorem decode_keepsEncoder (packet : Packet) : Action.Keeps encoderReference
    (decode (hostBackend A R setup) configuration p packet) := by
  refine .bind (.lift _) fun unit => .bind (.update fun core => ?_) fun _ => .bind (.gets _)
    fun state => .bind (.lift _) fun _ => .bind ?_ fun decoded => .bind (.lift _) fun _ =>
    .bind (.lift _) fun reference => .bind (.lift _) fun committed =>
    .bind (.update fun _ => rfl) fun _ => .pure _
  · unfold prepared
    split
    · rfl
    · rfl
  · refine .zoom fun core => Prod.ext rfl ?_
    cases packet.frameType <;> rfl

/-- The backend after an encode that scheduled a frame type. -/
theorem encode_backend {frame : Frame} {frameType : FrameType} (hpixels : frame.data.length ≠ 0)
    (htype : core.encoderState.nextFrameType = .ok frameType) :
    ((encode (hostBackend A R setup) configuration p frame).run core).2.backend =
      ((HostBackend.encode setup p frame frameType core.encoderState.view).run core.backend).2 := by
  rw [encode_run _ _ _ _ _ hpixels]
  simp only [htype]
  rcases hrun : ((hostBackend A R setup).encode p frame frameType
    core.encoderState.view).run core.backend with ⟨encodeResult, backend⟩
  have hbackend : ((HostBackend.encode setup p frame frameType core.encoderState.view).run
      core.backend).2 = backend := congrArg Prod.snd hrun
  rw [hbackend]
  cases encodeResult with
  | error e => rfl
  | ok encoded =>
      cases hfinished : finished configuration frame frameType core.encoderState encoded <;>
        simp only [hfinished]

/-- The backend after a decode that passed the checks of the session. -/
theorem decode_backend {packet : Packet} {unit : Option AccessUnit}
    (hunit : packetAccessUnit configuration packet = .ok unit)
    (hvalid : (prepared unit core).decoderState.validatePacket packet.frameType = .ok ()) :
    ((decode (hostBackend A R setup) configuration p packet).run core).2.backend =
      ((HostBackend.decode setup p (packetPayload unit packet) packet.frameType packet.timestamp
        (prepared unit core).decoderState.view).run core.backend).2 := by
  rw [decode_run, ← (prepared_effect core unit).1]
  simp only [hunit, hvalid]
  rcases hrun : ((hostBackend A R setup).decode p ((unit.map AccessUnit.payload).getD packet.data)
    packet.frameType packet.timestamp (prepared unit core).decoderState.view).run
    (prepared unit core).backend with ⟨decodeResult, backend⟩
  have hbackend : ((HostBackend.decode setup p (packetPayload unit packet) packet.frameType
      packet.timestamp (prepared unit core).decoderState.view).run
      (prepared unit core).backend).2 = backend := congrArg Prod.snd hrun
  rw [hbackend]
  cases decodeResult with
  | error e => rfl
  | ok decoded =>
      cases haccepted : accepted unit (prepared unit core).decoderState decoded
        packet.frameType <;> simp only [haccepted]

/-- A packet that fails the checks of the session leaves the backend. -/
theorem decode_keeps_backend {packet : Packet}
    (h : ∀ unit, packetAccessUnit configuration packet = .ok unit →
      (prepared unit core).decoderState.validatePacket packet.frameType ≠ .ok ()) :
    ((decode (hostBackend A R setup) configuration p packet).run core).2.backend =
      core.backend := by
  rw [decode_run]
  cases hunit : packetAccessUnit configuration packet with
  | error e => rfl
  | ok unit =>
      simp only []
      cases hvalid : (prepared unit core).decoderState.validatePacket packet.frameType with
      | error e => exact (prepared_effect core unit).1
      | ok u => exact absurd hvalid (h unit hunit)

end SessionCore

open SessionCore (packetAccessUnit packetPayload packetGeometry prepared)

/-- One of the two directions of the sessions. -/
inductive Direction where
  | encoding
  | decoding

namespace Direction

variable (configuration : SessionConfiguration)

/-- What the session of a direction and its backend know about the reference. -/
def reference (sessions : Sessions (HostBackend A R)) :
    Direction → SequenceState × HostDpb A
  | encoding => sessions.core.encoderReference
  | decoding => sessions.core.decoderReference

/-- The size of the frame that a call passes to a direction. -/
def size : Direction → Call (Provider A) → Option Geometry
  | encoding, .sendFrame _ frame => some (Geometry.ofSize frame.width frame.height)
  | decoding, .sendAccessUnit _ packet => packetGeometry configuration packet
  | _, _ => none

/-- The size of the frame that a direction accepts in a call with the given reply. -/
def acceptedSize (direction : Direction) (call : Call (Provider A)) (reply : Reply) :
    Option Geometry :=
  if reply = .status (.ok ()) then direction.size configuration call else none

variable {setup : BackendSetup A} {configuration}

/-- Calls that pass no frame accept none. -/
theorem acceptedSize_eq_none {direction : Direction} {call : Call (Provider A)}
    (h : direction.size configuration call = none) (reply : Reply) :
    direction.acceptedSize configuration call reply = none := by
  rw [acceptedSize, h]
  exact ite_self none

/-- A flush drops the reference of its direction, unless it fails. -/
theorem flushEncoder_sizeEffect (sessions : Sessions (HostBackend A R)) (p : Provider A) :
    SizeEffect (encoding.reference sessions)
      (encoding.reference
        ((Sessions.flushEncoder (hostBackend A R setup) p).run sessions).2) none := by
  rw [Sessions.flushEncoder_run]
  split
  · exact .kept rfl
  · simp only [SessionCore.flushEncoder, SessionCore.onBackend, hostBackend, HostBackend.flush,
      Action.run_bind, Action.run_zoom, Action.run_lift]
    cases p.reset with
    | error e => exact .kept rfl
    | ok u => exact .dropped rfl

theorem flushDecoder_sizeEffect (sessions : Sessions (HostBackend A R)) (p : Provider A) :
    SizeEffect (decoding.reference sessions)
      (decoding.reference
        ((Sessions.flushDecoder (hostBackend A R setup) p).run sessions).2) none := by
  rw [Sessions.flushDecoder_run]
  split
  · exact .kept rfl
  · simp only [SessionCore.flushDecoder, SessionCore.onBackend, hostBackend, HostBackend.flush,
      Action.run_bind, Action.run_zoom, Action.run_lift]
    cases p.reset with
    | error e => exact .kept rfl
    | ok u => exact .dropped rfl

theorem flushDecoder_keepsEncoder (sessions : Sessions (HostBackend A R)) (p : Provider A) :
    encoding.reference ((Sessions.flushDecoder (hostBackend A R setup) p).run sessions).2 =
      encoding.reference sessions := by
  rw [Sessions.flushDecoder_run]
  split
  · rfl
  · simp only [SessionCore.flushDecoder, SessionCore.onBackend, hostBackend, HostBackend.flush,
      Action.run_bind, Action.run_zoom, Action.run_lift]
    cases p.reset <;> rfl

/-- A frame is accepted by the encoder with the size it has. -/
theorem sendFrame_sizeEffect (sessions : Sessions (HostBackend A R)) (p : Provider A)
    (frame : Frame) :
    SizeEffect (encoding.reference sessions)
      (encoding.reference (Sessions.step (hostBackend A R setup) configuration sessions
        (.sendFrame p frame)).2)
      (encoding.acceptedSize configuration (.sendFrame p frame)
        (Sessions.step (hostBackend A R setup) configuration sessions (.sendFrame p frame)).1) := by
  simp only [Sessions.step, Sessions.sendFrame_run]
  cases sessions.encoderFlushed with
  | true => exact .kept rfl
  | false =>
      rcases hrun : (SessionCore.encode (hostBackend A R setup) configuration p frame).run
        sessions.core with ⟨e | packet, core⟩
      · exact SessionCore.encode_sizeEffect hrun
      · exact SessionCore.encode_sizeEffect hrun

/-- A packet is accepted by the decoder with the size its payload announces. -/
theorem sendAccessUnit_sizeEffect (sessions : Sessions (HostBackend A R)) (p : Provider A)
    (packet : Packet) :
    SizeEffect (decoding.reference sessions)
      (decoding.reference (Sessions.step (hostBackend A R setup) configuration sessions
        (.sendAccessUnit p packet)).2)
      (decoding.acceptedSize configuration (.sendAccessUnit p packet)
        (Sessions.step (hostBackend A R setup) configuration sessions
          (.sendAccessUnit p packet)).1) := by
  simp only [Sessions.step, Sessions.sendAccessUnit_run]
  cases sessions.decoderFlushed with
  | true => exact .kept rfl
  | false =>
      rcases hrun : (SessionCore.decode (hostBackend A R setup) configuration p packet).run
        sessions.core with ⟨e | frame, core⟩
      · exact SessionCore.decode_sizeEffect hrun
      · exact SessionCore.decode_sizeEffect hrun

theorem sendAccessUnit_keepsEncoder (sessions : Sessions (HostBackend A R)) (p : Provider A)
    (packet : Packet) :
    encoding.reference (Sessions.step (hostBackend A R setup) configuration sessions
      (.sendAccessUnit p packet)).2 = encoding.reference sessions := by
  simp only [Sessions.step, Sessions.sendAccessUnit_run]
  cases sessions.decoderFlushed with
  | true => rfl
  | false =>
      have hkeeps : ((SessionCore.decode (hostBackend A R setup) configuration p packet).run
          sessions.core).2.encoderReference = sessions.core.encoderReference :=
        SessionCore.decode_keepsEncoder packet sessions.core
      rcases hrun : (SessionCore.decode (hostBackend A R setup) configuration p packet).run
        sessions.core with ⟨e | frame, core⟩
      · rw [hrun] at hkeeps
        exact hkeeps
      · rw [hrun] at hkeeps
        exact hkeeps

/-- What each call does to the reference of each direction. -/
theorem step_sizeEffect (direction : Direction) (sessions : Sessions (HostBackend A R))
    (call : Call (Provider A)) :
    SizeEffect (direction.reference sessions)
      (direction.reference (Sessions.step (hostBackend A R setup) configuration sessions call).2)
      (direction.acceptedSize configuration call
        (Sessions.step (hostBackend A R setup) configuration sessions call).1) := by
  obtain ⟨core, packets, flushed, frames, drained⟩ := sessions
  cases direction with
  | encoding =>
      cases call with
      | sendFrame p frame => exact sendFrame_sizeEffect _ p frame
      | receiveAccessUnit =>
          rw [acceptedSize_eq_none rfl]
          cases packets with
          | nil => cases flushed <;> exact .kept rfl
          | cons packet packets => exact .kept rfl
      | flushEncoder p =>
          rw [acceptedSize_eq_none rfl]
          exact flushEncoder_sizeEffect _ p
      | resetEncoder => exact .dropped rfl
      | sendAccessUnit p packet =>
          rw [acceptedSize_eq_none rfl]
          exact .kept (sendAccessUnit_keepsEncoder _ p packet)
      | receiveFrame =>
          rw [acceptedSize_eq_none rfl]
          cases frames with
          | nil => cases drained <;> exact .kept rfl
          | cons frame frames => exact .kept rfl
      | flushDecoder p =>
          rw [acceptedSize_eq_none rfl]
          exact .kept (flushDecoder_keepsEncoder _ p)
      | resetDecoder => exact .kept rfl
  | decoding =>
      cases call with
      | sendFrame p frame =>
          rw [acceptedSize_eq_none rfl]
          exact .kept (Sessions.sendFrame_keeps p frame _)
      | receiveAccessUnit =>
          rw [acceptedSize_eq_none rfl]
          cases packets with
          | nil => cases flushed <;> exact .kept rfl
          | cons packet packets => exact .kept rfl
      | flushEncoder p =>
          rw [acceptedSize_eq_none rfl]
          exact .kept (Sessions.flushEncoder_keeps p _)
      | resetEncoder => exact .kept rfl
      | sendAccessUnit p packet => exact sendAccessUnit_sizeEffect _ p packet
      | receiveFrame =>
          rw [acceptedSize_eq_none rfl]
          cases frames with
          | nil => cases drained <;> exact .kept rfl
          | cons frame frames => exact .kept rfl
      | flushDecoder p =>
          rw [acceptedSize_eq_none rfl]
          exact flushDecoder_sizeEffect _ p
      | resetDecoder => exact .dropped rfl

/-- A frame passes every check of the session and the backend, and the provider grants the
requests before the first stage: the encoder codes it from its buffer. -/
structure EncodesPredicted (setup : BackendSetup A) (sessions : Sessions (HostBackend A R))
    (p : Provider A) (frame : Frame) : Prop where
  opened : sessions.encoderFlushed = false
  scheduled : sessions.core.encoderState.nextFrameType = .ok .predicted
  accepted : AcceptedFrame frame
  selected : ∃ decision, selectFrame setup.intraQp sessions.core.encoderState.view
    sessions.core.backend.encoderDpb.semantics = .ok decision
  granted : p.Grants 0 4

/-- A packet passes every check of the session and the backend, and the provider grants the
requests before the first stage: the decoder decodes it from its buffer. -/
structure DecodesPredicted (configuration : SessionConfiguration)
    (sessions : Sessions (HostBackend A R)) (p : Provider A) (packet : Packet)
    (unit : Option AccessUnit) (info : PredictedPayload) : Prop where
  opened : sessions.decoderFlushed = false
  predicted : packet.frameType = .predicted
  checked : packetAccessUnit configuration packet = .ok unit
  available : (prepared unit sessions.core).decoderState.hasReference = true
  parsed : parsePredictedPayload (packetPayload unit packet) = .ok info
  valid : validateDecodeReference info.useFrameReference sessions.core.decoderState.view
    sessions.core.backend.decoderDpb.semantics = .ok ()
  granted : p.Grants 0 3

/-- A call codes a predicted frame from the buffer of its direction. -/
def Predicts (setup : BackendSetup A) (configuration : SessionConfiguration)
    (sessions : Sessions (HostBackend A R)) : Direction → Call (Provider A) → Prop
  | encoding, .sendFrame p frame => EncodesPredicted setup sessions p frame
  | decoding, .sendAccessUnit p packet =>
      ∃ unit info, DecodesPredicted configuration sessions p packet unit info
  | _, _ => False

/-- A prepared decoder that has a reference has not been reset. -/
theorem prepared_of_available {core : SessionCore (HostBackend A R)} {unit : Option AccessUnit}
    (h : (prepared unit core).decoderState.hasReference = true) :
    (prepared unit core).decoderState = core.decoderState := by
  rcases (SessionCore.prepared_effect core unit).2 with hsame | hnone
  · exact hsame
  · rw [h] at hnone
    cases hnone

theorem Predicts.matches {direction : Direction} {sessions : Sessions (HostBackend A R)}
    {call : Call (Provider A)} (h : direction.Predicts setup configuration sessions call) :
    (direction.reference sessions).1.hasReference = true ∧
      (direction.reference sessions).2.semantics.Matches (direction.reference sessions).1.view := by
  unfold Predicts at h
  split at h
  · obtain ⟨decision, hselect⟩ := h.selected
    exact ⟨SequenceState.hasReference_of_nextFrameType h.scheduled, (selectFrame_eq_ok hselect).1⟩
  · obtain ⟨unit, info, hdecodes⟩ := h
    have havailable := hdecodes.available
    rw [prepared_of_available havailable] at havailable
    exact ⟨havailable, (validateDecodeReference_eq_ok.mp hdecodes.valid).1⟩
  · exact h.elim

end Direction

namespace Sessions

variable {setup : BackendSetup A} {configuration : SessionConfiguration}
  {sessions : Sessions (HostBackend A R)} {submission : Submission A} {stage : PredictedStage}

/-- The submissions of a call. -/
def submissions (setup : BackendSetup A) (configuration : SessionConfiguration)
    (sessions : Sessions (HostBackend A R)) (call : Call (Provider A)) : List (Submission A) :=
  (step (hostBackend A R setup) configuration sessions.withoutActivity
    call).2.core.backend.activity.submissions

theorem sendFrame_submissions {frame : Frame} {frameType : FrameType}
    (hopen : sessions.encoderFlushed = false) (hpixels : frame.data.length ≠ 0)
    (htype : sessions.core.encoderState.nextFrameType = .ok frameType) :
    submissions setup configuration sessions (.sendFrame p frame) =
      ((HostBackend.encode setup p frame frameType sessions.core.encoderState.view).run
        sessions.withoutActivity.core.backend).2.activity.submissions := by
  have hopen' : sessions.withoutActivity.encoderFlushed = false := hopen
  have htype' : sessions.withoutActivity.core.encoderState.nextFrameType = .ok frameType := htype
  have hbackend : ((SessionCore.encode (hostBackend A R setup) configuration p frame).run
      sessions.withoutActivity.core).2.backend = _ := SessionCore.encode_backend hpixels htype'
  simp only [submissions, step, sendFrame_run, hopen', Bool.false_eq_true, if_false]
  rw [show sessions.core.encoderState.view = sessions.withoutActivity.core.encoderState.view
    from rfl, ← hbackend]
  rcases (SessionCore.encode (hostBackend A R setup) configuration p frame).run
    sessions.withoutActivity.core with ⟨e | packet, core⟩ <;> rfl

theorem sendAccessUnit_submissions {packet : Packet} {unit : Option AccessUnit}
    (hopen : sessions.decoderFlushed = false)
    (hunit : packetAccessUnit configuration packet = .ok unit)
    (hvalid : (prepared unit sessions.core).decoderState.validatePacket packet.frameType = .ok ()) :
    submissions setup configuration sessions (.sendAccessUnit p packet) =
      ((HostBackend.decode setup p (packetPayload unit packet) packet.frameType packet.timestamp
        (prepared unit sessions.core).decoderState.view).run
        sessions.withoutActivity.core.backend).2.activity.submissions := by
  have hopen' : sessions.withoutActivity.decoderFlushed = false := hopen
  have hstate : (prepared unit sessions.withoutActivity.core).decoderState =
      (prepared unit sessions.core).decoderState := by
    unfold prepared
    split <;> rfl
  have hvalid' : (prepared unit sessions.withoutActivity.core).decoderState.validatePacket
      packet.frameType = .ok () := by
    rw [hstate]
    exact hvalid
  have hbackend : ((SessionCore.decode (hostBackend A R setup) configuration p packet).run
      sessions.withoutActivity.core).2.backend = _ := SessionCore.decode_backend hunit hvalid'
  simp only [submissions, step, sendAccessUnit_run, hopen', Bool.false_eq_true, if_false]
  rw [← hstate, ← hbackend]
  rcases (SessionCore.decode (hostBackend A R setup) configuration p packet).run
    sessions.withoutActivity.core with ⟨e | frame, core⟩ <;> rfl

theorem sendFrame_submits {frame : Frame}
    (hmem : submission ∈ submissions setup configuration sessions (.sendFrame p frame)) :
    sessions.encoderFlushed = false ∧ frame.data.length ≠ 0 ∧
      ∃ frameType, sessions.core.encoderState.nextFrameType = .ok frameType := by
  obtain ⟨core, packets, flushed, frames, drained⟩ := sessions
  simp only [submissions, step, sendFrame_run] at hmem
  cases flushed with
  | true => cases hmem
  | false =>
      refine ⟨rfl, ?_⟩
      have hidle : submission ∉ (withoutActivity ⟨core, packets, false, frames,
          drained⟩).core.backend.activity.submissions := List.not_mem_nil
      have hencode : submission ∈ ((SessionCore.encode (hostBackend A R setup) configuration p
          frame).run (withoutActivity ⟨core, packets, false, frames,
            drained⟩).core).2.backend.activity.submissions := by
        rcases hrun : (SessionCore.encode (hostBackend A R setup) configuration p frame).run
          (withoutActivity ⟨core, packets, false, frames, drained⟩).core with ⟨e | packet, core'⟩
        · simp only [withoutActivity] at hrun hmem
          rw [hrun] at hmem
          exact hmem
        · simp only [withoutActivity] at hrun hmem
          rw [hrun] at hmem
          exact hmem
      by_cases hpixels : frame.data.length = 0
      · rw [SessionCore.encode, if_pos hpixels] at hencode
        exact absurd hencode hidle
      · refine ⟨hpixels, ?_⟩
        cases htype : core.encoderState.nextFrameType with
        | error e =>
            rw [SessionCore.encode_run _ _ _ _ _ hpixels] at hencode
            simp only [withoutActivity, htype] at hencode
            exact absurd hencode hidle
        | ok frameType => exact ⟨frameType, rfl⟩

theorem sendAccessUnit_submits {packet : Packet}
    (hmem : submission ∈ submissions setup configuration sessions (.sendAccessUnit p packet)) :
    sessions.decoderFlushed = false ∧ ∃ unit,
      packetAccessUnit configuration packet = .ok unit ∧
      (prepared unit sessions.core).decoderState.validatePacket packet.frameType = .ok () := by
  obtain ⟨core, packets, flushed, frames, drained⟩ := sessions
  simp only [submissions, step, sendAccessUnit_run] at hmem
  cases drained with
  | true => cases hmem
  | false =>
      refine ⟨rfl, ?_⟩
      by_contra hnot
      have hkeeps : ((SessionCore.decode (hostBackend A R setup) configuration p packet).run
          (withoutActivity ⟨core, packets, flushed, frames, false⟩).core).2.backend =
          (withoutActivity ⟨core, packets, flushed, frames, false⟩).core.backend := by
        refine SessionCore.decode_keeps_backend fun unit hunit hvalid => hnot ⟨unit, hunit, ?_⟩
        have hstate : (prepared unit (withoutActivity ⟨core, packets, flushed, frames,
            false⟩).core).decoderState = (prepared unit core).decoderState := by
          unfold prepared
          split <;> rfl
        rw [← hstate]
        exact hvalid
      rcases hrun : (SessionCore.decode (hostBackend A R setup) configuration p packet).run
        (withoutActivity ⟨core, packets, flushed, frames, false⟩).core with ⟨e | frame, core'⟩
      · rw [hrun] at hkeeps
        simp only [withoutActivity] at hrun hmem
        rw [hrun] at hmem
        have hmem' : submission ∈ core'.backend.activity.submissions := hmem
        rw [hkeeps] at hmem'
        cases hmem'
      · rw [hrun] at hkeeps
        simp only [withoutActivity] at hrun hmem
        rw [hrun] at hmem
        have hmem' : submission ∈ core'.backend.activity.submissions := hmem
        rw [hkeeps] at hmem'
        cases hmem'

theorem receive_submissions : submissions setup configuration sessions .receiveAccessUnit = [] ∧
    submissions setup configuration sessions .receiveFrame = [] := by
  obtain ⟨core, packets, flushed, frames, drained⟩ := sessions
  constructor
  · cases packets with
    | nil => cases flushed <;> rfl
    | cons packet packets => rfl
  · cases frames with
    | nil => cases drained <;> rfl
    | cons frame frames => rfl

theorem flush_submissions : submissions setup configuration sessions (.flushEncoder p) = [] ∧
    submissions setup configuration sessions (.flushDecoder p) = [] := by
  obtain ⟨core, packets, flushed, frames, drained⟩ := sessions
  have hreset : p.reset = .ok () ∨ ∃ e, p.reset = .error e := by
    cases p.reset with
    | error e => exact .inr ⟨e, rfl⟩
    | ok u => exact .inl rfl
  constructor
  · simp only [submissions, step, flushEncoder_run, SessionCore.flushEncoder,
      SessionCore.onBackend, hostBackend, HostBackend.flush, Action.run_bind, Action.run_zoom,
      Action.run_lift]
    cases flushed <;> rcases hreset with hreset | ⟨e, hreset⟩ <;> rw [hreset] <;> rfl
  · simp only [submissions, step, flushDecoder_run, SessionCore.flushDecoder,
      SessionCore.onBackend, hostBackend, HostBackend.flush, Action.run_bind, Action.run_zoom,
      Action.run_lift]
    cases drained <;> rcases hreset with hreset | ⟨e, hreset⟩ <;> rw [hreset] <;> rfl

/-- A predicted stage of a call comes from a frame that is coded from the buffer of its direction,
and has the shapes of that frame if the reference has. -/
theorem predicted_submission {call : Call (Provider A)}
    (hmem : submission ∈ submissions setup configuration sessions call)
    (hstage : submission.stage = .predicted stage) :
    ∃ direction g useFrameReference reference,
      Direction.size configuration direction call = some g ∧
      direction.Predicts setup configuration sessions call ∧
      chosenReference (direction.reference sessions).2 useFrameReference = some reference ∧
      Work.FitsWith g useFrameReference reference submission := by
  cases call with
  | sendFrame p frame =>
      obtain ⟨hopen, hpixels, frameType, htype⟩ := sendFrame_submits hmem
      rw [sendFrame_submissions hopen hpixels htype] at hmem
      obtain ⟨rfl, hgrants, decision, reference, hfrom, hfits⟩ :=
        HostBackend.encode_submissions hmem hstage
      exact ⟨.encoding, _, _, reference, rfl,
        ⟨hopen, htype, hfrom.accepted, ⟨decision, hfrom.selected⟩, hgrants⟩, hfrom.chosen, hfits⟩
  | sendAccessUnit p packet =>
      obtain ⟨hopen, unit, hunit, hvalid⟩ := sendAccessUnit_submits hmem
      rw [sendAccessUnit_submissions hopen hunit hvalid] at hmem
      obtain ⟨hpredicted, hgrants, info, reference, hfrom, hfits⟩ :=
        HostBackend.decode_submissions hmem hstage
      have havailable := SequenceState.validatePacket_eq_ok.mp hvalid hpredicted
      have hsize : packetGeometry configuration packet =
          some (Geometry.ofSize info.width info.height) := by
        rw [packetGeometry, hunit, hpredicted]
        simp [Except.toOption, payloadGeometry, hfrom.parsed]
      have hview := hfrom.valid
      rw [Direction.prepared_of_available havailable] at hview
      exact ⟨.decoding, _, _, reference, hsize,
        ⟨unit, info, hopen, hpredicted, hunit, havailable, hfrom.parsed, hview, hgrants⟩,
        hfrom.chosen, hfits⟩
  | receiveAccessUnit =>
      rw [receive_submissions.1] at hmem
      cases hmem
  | flushEncoder p =>
      rw [flush_submissions.1] at hmem
      cases hmem
  | resetEncoder => cases hmem
  | receiveFrame =>
      rw [receive_submissions.2] at hmem
      cases hmem
  | flushDecoder p =>
      rw [flush_submissions.2] at hmem
      cases hmem
  | resetDecoder => cases hmem

/-- What a buffer holds of the reference that its record promises. -/
theorem exists_chosenReference {dpb : HostDpb A} {useFrameReference : Bool} (hfits : dpb.Fits g)
    (hfeature : dpb.semantics.hasFeature = true → dpb.feature.isSome = true)
    (huse : useFrameReference = false → dpb.semantics.hasFeature = true) :
    dpb.frame.isNone = false ∧
      ∃ reference, chosenReference dpb useFrameReference = some reference := by
  obtain ⟨⟨tensor, htensor, -⟩, -⟩ := hfits
  refine ⟨by rw [htensor]; rfl, ?_⟩
  cases useFrameReference with
  | true => exact ⟨_, by simp only [chosenReference, if_true, htensor]; rfl⟩
  | false =>
      obtain ⟨feature, hstored⟩ := Option.isSome_iff_exists.mp (hfeature (huse rfl))
      exact ⟨_, by simp only [chosenReference, Bool.false_eq_true, if_false, hstored]; rfl⟩

/-- A frame that is coded from a buffer which keeps what its record promises reaches the stage
that reads the reference. -/
theorem exists_predicted_submission {direction : Direction} {call : Call (Provider A)}
    (hpredicts : direction.Predicts setup configuration sessions call)
    (hfits : (direction.reference sessions).2.Fits g)
    (hfeature : (direction.reference sessions).2.semantics.hasFeature = true →
      (direction.reference sessions).2.feature.isSome = true) :
    ∃ submission ∈ submissions setup configuration sessions call, ∃ stage,
      submission.stage = .predicted stage := by
  unfold Direction.Predicts at hpredicts
  split at hpredicts
  · rename_i p frame
    obtain ⟨decision, hselect⟩ := hpredicts.selected
    obtain ⟨hstored, reference, hchosen⟩ := exists_chosenReference hfits hfeature
      (selectFrame_eq_ok hselect).2.2
    rw [sendFrame_submissions hpredicts.opened (acceptedFrame_carried hpredicts.accepted).1
      hpredicts.scheduled]
    exact HostBackend.encode_reaches ⟨hpredicts.accepted, hstored, hselect, hchosen⟩
      hpredicts.granted
  · rename_i p packet
    obtain ⟨unit, info, hdecodes⟩ := hpredicts
    have hvalid : (prepared unit sessions.core).decoderState.validatePacket packet.frameType =
        .ok () := SequenceState.validatePacket_eq_ok.mpr fun _ => hdecodes.available
    have huse : info.useFrameReference = false →
        sessions.core.backend.decoderDpb.semantics.hasFeature = true := by
      intro huse
      have hreference := (validateDecodeReference_eq_ok.mp hdecodes.valid).2
      rw [huse] at hreference
      simpa using hreference
    obtain ⟨hstored, reference, hchosen⟩ := exists_chosenReference hfits hfeature huse
    rw [sendAccessUnit_submissions hdecodes.opened hdecodes.checked hvalid, hdecodes.predicted,
      Direction.prepared_of_available hdecodes.available]
    exact HostBackend.decode_reaches ⟨hdecodes.parsed, hstored, hdecodes.valid, hchosen⟩
      hdecodes.granted
  · exact hpredicts.elim

variable (setup configuration)

/-- The size of the last frame that a direction accepted in a run. -/
def lastSize (R : RansCoder) (direction : Direction) (calls : List (Call (Provider A))) :
    Option Geometry :=
  ((calls.zip (trace (step (hostBackend A R setup) configuration)
    (initial configuration (HostBackend.initial setup)) calls)).filterMap fun entry =>
      direction.acceptedSize configuration entry.1 entry.2).getLast?

/-- The predicted stages of a call are given tensors of the size of the frame that it codes, and
the buffer they read has this size. -/
def StagesAgree (sessions : Sessions (HostBackend A R)) (call : Call (Provider A)) : Prop :=
  ∀ submission ∈ submissions setup configuration sessions call, ∀ stage,
    submission.stage = .predicted stage → ∃ direction g,
      Direction.size configuration direction call = some g ∧
      (direction.reference sessions).2.Fits g ∧ submission.Fits g

/-- If a call codes a predicted frame from its buffer, then this frame has the padded size of the
frame that the direction accepted last. -/
def KeepsSize (R : RansCoder) (calls : List (Call (Provider A))) (call : Call (Provider A)) : Prop :=
  ∀ direction : Direction,
    direction.Predicts setup configuration
      (after setup configuration calls : Sessions (HostBackend A R)) call →
    ∀ g ∈ direction.size configuration call, ∀ last ∈ lastSize setup configuration R direction calls,
      last.SamePadded g

variable {setup configuration} {calls : List (Call (Provider A))} {call : Call (Provider A)}

theorem lastSize_append_singleton (direction : Direction) :
    lastSize setup configuration R direction (calls ++ [call]) =
      (direction.acceptedSize configuration call
        (step (hostBackend A R setup) configuration
          (after setup configuration calls : Sessions (HostBackend A R)) call).1).or
        (lastSize setup configuration R direction calls) := by
  have hlength : calls.length = (trace (step (hostBackend A R setup) configuration)
      (initial configuration (HostBackend.initial setup)) calls).length :=
    (trace_length calls).symm
  rw [lastSize, trace_append, List.zip_append hlength, List.filterMap_append, List.getLast?_append]
  congr 1
  change ([(call, (step (hostBackend A R setup) configuration
    (after setup configuration calls) call).1)].filterMap _).getLast? = _
  rw [List.filterMap_cons, List.filterMap_nil]
  split
  · rename_i hnone
    exact hnone.symm
  · rename_i hsome
    exact hsome.symm

/-- In every run the buffers that belong to the next frame have the size of the last one. -/
theorem sized_after (direction : Direction) (calls : List (Call (Provider A))) :
    Sized (lastSize setup configuration R direction calls)
      (direction.reference (after setup configuration calls : Sessions (HostBackend A R))) := by
  induction calls using List.reverseRecOn with
  | nil =>
      intro hreference
      cases direction <;> cases hreference
  | append_singleton calls call ih =>
      rw [lastSize_append_singleton, after_append_singleton]
      exact (direction.step_sizeEffect _ call).sized ih

/-- The size of a call belongs to one direction. -/
theorem direction_unique {direction direction' : Direction} {g g' : Geometry}
    (h : Direction.size configuration direction call = some g)
    (h' : Direction.size configuration direction' call = some g') : direction = direction' := by
  cases direction with
  | encoding =>
      cases direction' with
      | encoding => rfl
      | decoding => cases call <;> simp [Direction.size] at h h'
  | decoding =>
      cases direction' with
      | encoding => cases call <;> simp [Direction.size] at h h'
      | decoding => rfl

/-- Tensors that agree come from frames of the padded size of the last one. -/
theorem StagesAgree.keepsSize (h : StagesAgree setup configuration
    (after setup configuration calls : Sessions (HostBackend A R)) call) :
    KeepsSize setup configuration R calls call := by
  intro direction hpredicts g hg last hlast
  obtain ⟨hreference, hmatches⟩ := hpredicts.matches
  obtain ⟨stored, hstored, hfits, hfeature⟩ := sized_after direction calls hreference hmatches
  obtain rfl : stored = last := Option.some.inj (hstored.symm.trans hlast)
  obtain ⟨submission, hmem, stage, hstage⟩ := exists_predicted_submission hpredicts hfits hfeature
  obtain ⟨direction', g', hsize, hfits', -⟩ := h submission hmem stage hstage
  obtain rfl := direction_unique hg hsize
  obtain rfl : g = g' := Option.some.inj (hg.symm.trans hsize)
  exact hfits.iff_samePadded.mp hfits'

/-- Frames of the padded size of the last one are coded with tensors that agree. -/
theorem KeepsSize.stagesAgree (h : KeepsSize setup configuration R calls call) :
    StagesAgree setup configuration
      (after setup configuration calls : Sessions (HostBackend A R)) call := by
  intro submission hmem stage hstage
  obtain ⟨direction, g, useFrameReference, reference, hsize, hpredicts, hchosen, hwith⟩ :=
    predicted_submission hmem hstage
  obtain ⟨hreference, hmatches⟩ := hpredicts.matches
  obtain ⟨last, hlast, hfits, -⟩ := sized_after direction calls hreference hmatches
  have hfits' := hfits.iff_samePadded.mpr (h direction hpredicts g hsize last hlast)
  exact ⟨direction, g, hsize, hfits', hwith (hfits'.reference hchosen)⟩

/-- In every state that a run reaches, the predicted stages of every call are given tensors of one
size exactly when a predicted frame has the padded size of the frame accepted before it. -/
theorem predicted_stages_agree_iff (calls : List (Call (Provider A))) (call : Call (Provider A)) :
    StagesAgree setup configuration
        (after setup configuration calls : Sessions (HostBackend A R)) call ↔
      KeepsSize setup configuration R calls call :=
  ⟨StagesAgree.keepsSize, KeepsSize.stagesAgree⟩

/-- A predicted frame of 80x64 pixels behind an intra frame of 64x64 pixels reaches the stage that
reads the reference. -/
theorem wider_frame_reads_small_reference :
    ¬ StagesAgree (uniformSetup realArithmetic false) pairConfiguration
      (after (uniformSetup realArithmetic false) pairConfiguration
        [Call.sendFrame (zeroProvider realArithmetic) smallFrame] :
        Sessions (HostBackend realArithmetic (RansCoder.paddedCoder fun _ => 0)))
      (Call.sendFrame (zeroProvider realArithmetic) wideFrame) := by
  intro hagree
  obtain ⟨hencodes, hreply, htype⟩ := first_accepted
    (RansCoder.paddedCoder_fifoInverse fun _ => 0) false
    (paddedCoder_spendsAtMost _ fun _ => Nat.le_refl 1)
  obtain ⟨decision, hselect, -⟩ := FrameWork.selectFrame_succeeds
    (uniformSetup_complete realArithmetic false).qp_lt
    (hencodes.serves (SequenceState.hasReference_of_nextFrameType htype)).current
  have hlast : lastSize (uniformSetup realArithmetic false) pairConfiguration
      (RansCoder.paddedCoder fun _ => 0) .encoding
      [Call.sendFrame (zeroProvider realArithmetic) smallFrame] = some (Geometry.ofSize 64 64) := by
    rw [lastSize, trace_cons, trace_nil, hreply]
    rfl
  have hsame := hagree.keepsSize .encoding
    ⟨hencodes.opened, htype, wideFrame_accepted, ⟨decision, hselect⟩, fun _ _ => rfl⟩
    (Geometry.ofSize 80 64) rfl _ hlast
  exact absurd hsame.2 (by decide)

end Sessions

end Nvcr.Rt
