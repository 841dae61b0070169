import Nvcr.RtHostBackend
import Nvcr.RtSessions

/-!
# Reference safety of the DCVC-RT decoder

The session and the backend each record what the current reference is. In every run the two
records agree, or the backend is one frame ahead because the session rejected what it decoded;
a predicted access unit passes the backend's check only in the first case.
-/

namespace Nvcr.Rt

open StatefulResults Codec HostOps TransitionRuns

variable {A : HostArithmetic} {R : RansCoder}

/-- The tensor in the buffer is the one a frame was reconstructed from. -/
def HostDpb.Reconstructs (dpb : HostDpb A) (frame : Frame) : Prop :=
  ∃ tensor, dpb.frame = some tensor ∧
    toYuv420p8 tensor frame.width frame.height frame.timestamp = .ok frame

namespace FrameWork

theorem pipeline_keeps {α : Type} (x : Pipeline A R α) : Action.Keeps FrameState.dpb (pipeline x) :=
  fun _ => rfl

/-- What a successful decode leaves in the buffer. -/
def Stores (dpb : HostDpb A) (state : SequenceStateView) (frame : Frame) : Prop :=
  dpb.Reconstructs frame ∧ ∃ hasFeature, dpb.semantics = ReferenceState.commit state hasFeature

section Decoding

variable {p : Provider A} {payload : Bytes} {timestamp : Timestamp} {state : SequenceStateView}
  {s t : FrameState A R} {decoded : CodecDecodeResult}

theorem pipeline_reconstruct_eq_ok {tensor : Tensor A} {width height : UInt32} {frame : Frame}
    (h : (pipeline (Pipeline.work
      (Work.reconstruct p tensor width height timestamp))).run s = (.ok frame, t)) :
    toYuv420p8 tensor width height timestamp = .ok frame := by
  have hresult : ((Work.reconstruct p tensor width height timestamp).run s.pipeline.activity).1 =
      .ok frame := congrArg Prod.fst h
  exact Work.reconstruct_eq_ok p (Prod.ext hresult rfl)

theorem reconstructs_of_toYuv420p8 {dpb : HostDpb A} {tensor : Tensor A} {width height : UInt32}
    {frame : Frame} (htensor : dpb.frame = some tensor)
    (h : toYuv420p8 tensor width height timestamp = .ok frame) : dpb.Reconstructs frame := by
  obtain ⟨hwidth, hheight, htime, -⟩ := toYuv420p8_eq_ok h
  exact ⟨tensor, htensor, by rw [hwidth, hheight, htime, h]⟩

theorem decodeIntra_keepsOnError (assets : IntraAssets A) :
    Action.KeepsOnError FrameState.dpb
      (decodeIntra (R := R) p assets payload timestamp state) := by
  refine .bind (.lift _) fun info => .bind (pipeline_keeps _) fun frameHat =>
    .bind (pipeline_keeps _) fun frame => .bind (pipeline_keeps _) fun _ => ?_
  exact .update _ _

theorem decodeIntra_stores {assets : IntraAssets A}
    (h : (decodeIntra p assets payload timestamp state).run s = (.ok decoded, t)) :
    Stores t.dpb state decoded.frame := by
  obtain ⟨info, s₁, -, h₁⟩ := Action.run_bind_eq_ok.mp h
  obtain ⟨frameHat, s₂, -, h₂⟩ := Action.run_bind_eq_ok.mp h₁
  obtain ⟨frame, s₃, hframe, h₃⟩ := Action.run_bind_eq_ok.mp h₂
  obtain ⟨_, s₄, -, h₄⟩ := Action.run_bind_eq_ok.mp h₃
  cases h₄
  exact ⟨reconstructs_of_toYuv420p8 rfl (pipeline_reconstruct_eq_ok hframe), false, rfl⟩

theorem decodePredicted_keepsOnError (assets : PredictedAssets A) :
    Action.KeepsOnError FrameState.dpb
      (decodePredicted (R := R) p assets payload timestamp state) := by
  refine .bind (.lift _) fun info => .bind (.gets _) fun dpb => ?_
  split
  · exact Action.Keeps.onError (.fail _)
  · refine .bind (.lift _) fun _ => ?_
    split
    · exact Action.Keeps.onError (.fail _)
    · refine .bind (pipeline_keeps _) fun tensors => .bind (pipeline_keeps _) fun frame => ?_
      exact .update _ _

theorem decodePredicted_stores {assets : PredictedAssets A}
    (h : (decodePredicted p assets payload timestamp state).run s = (.ok decoded, t)) :
    Stores t.dpb state decoded.frame := by
  obtain ⟨info, s₁, -, h₁⟩ := Action.run_bind_eq_ok.mp h
  obtain ⟨dpb, s₂, -, h₂⟩ := Action.run_bind_eq_ok.mp h₁
  clear h h₁
  split at h₂
  · cases h₂
  · obtain ⟨_, s₃, -, h₃⟩ := Action.run_bind_eq_ok.mp h₂
    clear h₂
    split at h₃
    · cases h₃
    · obtain ⟨tensors, s₄, -, h₄⟩ := Action.run_bind_eq_ok.mp h₃
      obtain ⟨frame, s₅, hframe, h₅⟩ := Action.run_bind_eq_ok.mp h₄
      cases h₅
      exact ⟨reconstructs_of_toYuv420p8 rfl (pipeline_reconstruct_eq_ok hframe), true, rfl⟩

/-- Nothing is asked of the provider before the buffer was found to fit the session. -/
theorem decodePredicted_matches {assets : PredictedAssets A}
    (h : ((decodePredicted p assets payload timestamp state).run s).2.pipeline.activity ≠
      s.pipeline.activity) : s.dpb.semantics.Matches state := by
  by_contra hnot
  apply h
  cases hparse : parsePredictedPayload payload with
  | error e => simp only [decodePredicted, hparse, Action.run_bind]; rfl
  | ok info =>
      cases hvalid : validateDecodeReference info.useFrameReference state s.dpb.semantics with
      | ok u => exact absurd (validateDecodeReference_eq_ok.mp hvalid).1 hnot
      | error e =>
          simp only [decodePredicted, hparse, Action.run_bind]
          cases hnone : s.dpb.frame.isNone <;> simp [hnone, hvalid, Except.mapError, Action.run_bind, fail]

end Decoding

end FrameWork

open FrameWork (Stores)

namespace HostBackend

variable {setup : BackendSetup A} {p : Provider A} {payload : Bytes} {frameType : FrameType}
  {timestamp : Timestamp} {state : SequenceStateView} {backend backend' : HostBackend A R}

/-- The decoder buffer after a decode: kept on failure, replaced on success. -/
theorem decode_cases {result : Result CodecDecodeResult}
    (h : (decode setup p payload frameType timestamp state).run backend = (result, backend')) :
    (∃ e, result = .error e ∧ backend'.decoderDpb = backend.decoderDpb) ∨
      ∃ decoded, result = .ok decoded ∧ Stores backend'.decoderDpb state decoded.frame := by
  cases frameType with
  | intra =>
      cases hrun : (FrameWork.decodeIntra p setup.intra payload timestamp state).run
          ⟨⟨{}, backend.intraRans⟩, backend.decoderDpb⟩ with
      | mk outcome t =>
          rw [decode, runIntra_run hrun] at h
          cases h
          cases outcome with
          | error fault =>
              exact .inl ⟨_, rfl, FrameWork.decodeIntra_keepsOnError _ _ _ _ hrun⟩
          | ok decoded => exact .inr ⟨decoded, rfl, FrameWork.decodeIntra_stores hrun⟩
  | predicted =>
      cases hrun : (FrameWork.decodePredicted p setup.predicted payload timestamp state).run
          ⟨⟨{}, backend.predictedRans⟩, backend.decoderDpb⟩ with
      | mk outcome t =>
          rw [decode, runPredicted_run hrun] at h
          cases h
          cases outcome with
          | error fault =>
              exact .inl ⟨_, rfl, FrameWork.decodePredicted_keepsOnError _ _ _ _ hrun⟩
          | ok decoded => exact .inr ⟨decoded, rfl, FrameWork.decodePredicted_stores hrun⟩

/-- A predicted decode submits stages only with a buffer that fits the session. -/
theorem decode_matches
    (h : ((decode setup p payload .predicted timestamp state).run backend).2.activity.submissions ≠
      []) : backend.decoderDpb.semantics.Matches state := by
  have hchanged : ((FrameWork.decodePredicted p setup.predicted payload timestamp state).run
      ⟨⟨{}, backend.predictedRans⟩, backend.decoderDpb⟩).2.pipeline.activity ≠ {} :=
    fun hsame => h (congrArg Activity.submissions hsame)
  exact FrameWork.decodePredicted_matches hchanged

@[simp] theorem encode_decoderDpb (frame : Frame) :
    ((encode setup p frame frameType state).run backend).2.decoderDpb = backend.decoderDpb := by
  cases frameType <;> rfl

end HostBackend

/-- What the decoder session and its backend know about the reference. -/
def SessionCore.decoderReference (core : SessionCore (HostBackend A R)) :
    SequenceState × HostDpb A :=
  (core.decoderState, core.backend.decoderDpb)

/-- The effect of a call on the decoder's reference. -/
inductive ReferenceEffect (before after : SequenceState × HostDpb A) : Option Frame → Prop where
  | kept : after = before → ReferenceEffect before after none
  | dropped : after.1.hasReference = false → ReferenceEffect before after none
  | ahead (frame : Frame) : after.1 = before.1 → Stores after.2 before.1.view frame →
      ReferenceEffect before after none
  | committed (state : SequenceState) (frame : Frame) (latentState : Bytes) :
      Stores after.2 state.view frame → after.1 = state.committed frame latentState →
      frame.data.length ≠ 0 → ReferenceEffect before after (some frame)

namespace SessionCore

variable {setup : BackendSetup A} {configuration : SessionConfiguration} {p : Provider A}
  {core core' : SessionCore (HostBackend A R)}

theorem accepted_eq_ok {unit : Option AccessUnit} {state state' : SequenceState}
    {decoded : CodecDecodeResult} {frameType : FrameType}
    (h : accepted unit state decoded frameType = .ok state') :
    state' = state.committed decoded.frame decoded.latentState ∧
      decoded.frame.data.length ≠ 0 := by
  obtain ⟨_, -, h₁⟩ := bind_eq_ok.mp h
  obtain ⟨reference, hcopy, hcommit⟩ := bind_eq_ok.mp h₁
  obtain ⟨rfl, hpixels⟩ := Frame.copyFrom_self hcopy
  exact ⟨(SequenceState.commit_eq_ok.mp hcommit).2.2, hpixels⟩

/-- A reset keeps the buffer but forgets that there is a reference. -/
theorem prepared_effect (core : SessionCore (HostBackend A R)) (unit : Option AccessUnit) :
    (prepared unit core).backend = core.backend ∧
      ((prepared unit core).decoderState = core.decoderState ∨
        (prepared unit core).decoderState.hasReference = false) := by
  unfold prepared
  split
  · exact ⟨rfl, .inr rfl⟩
  · exact ⟨rfl, .inl rfl⟩

theorem decode_effect {packet : Packet} {result : Result Frame}
    (h : (decode (hostBackend A R setup) configuration p packet).run core = (result, core')) :
    ReferenceEffect core.decoderReference core'.decoderReference result.toOption := by
  rw [decode_run] at h
  cases hunit : packetAccessUnit configuration packet with
  | error e =>
      rw [hunit] at h
      cases h
      exact .kept rfl
  | ok unit =>
      simp only [hunit] at h
      obtain ⟨hbackend, hstate⟩ := prepared_effect core unit
      generalize prepared unit core = core₁ at h hbackend hstate
      -- Up to here only the session's record may have changed.
      have hprepared : ∀ backend : HostBackend A R,
          backend.decoderDpb = core.backend.decoderDpb →
          ReferenceEffect core.decoderReference (core₁.decoderState, backend.decoderDpb) none := by
        intro backend hdpb
        rcases hstate with hsame | hnone
        · exact .kept (Prod.ext hsame hdpb)
        · exact .dropped hnone
      cases hvalid : core₁.decoderState.validatePacket packet.frameType with
      | error e =>
          rw [hvalid] at h
          cases h
          exact hprepared _ (by rw [hbackend])
      | ok u =>
          simp only [hvalid] at h
          rcases hrun : ((hostBackend A R setup).decode p
              ((unit.map AccessUnit.payload).getD packet.data) packet.frameType packet.timestamp
              core₁.decoderState.view).run core₁.backend with ⟨decodeResult, backend⟩
          rw [hrun] at h
          rcases HostBackend.decode_cases hrun with ⟨e, rfl, hdpb⟩ | ⟨decoded, rfl, hstores⟩
          · cases h
            exact hprepared backend (by rw [hdpb, hbackend])
          · simp only [] at h
            cases haccepted : accepted unit core₁.decoderState decoded packet.frameType with
            | error e =>
                rw [haccepted] at h
                cases h
                rcases hstate with hsame | hnone
                · refine .ahead decoded.frame hsame ?_
                  rwa [hsame] at hstores
                · exact .dropped hnone
            | ok state =>
                rw [haccepted] at h
                cases h
                obtain ⟨hcommitted, hpixels⟩ := accepted_eq_ok haccepted
                exact .committed core₁.decoderState decoded.frame decoded.latentState hstores
                  hcommitted hpixels

/-- A predicted access unit that reaches the stages found a reference in the session and a
buffer that matches it. -/
theorem decode_reaches {packet : Packet} (hidle : core.backend.activity.submissions = [])
    (hpredicted : packet.frameType = .predicted)
    (h : ((decode (hostBackend A R setup) configuration p packet).run
      core).2.backend.activity.submissions ≠ []) :
    core.decoderState.hasReference = true ∧
      core.backend.decoderDpb.semantics.Matches core.decoderState.view := by
  rw [decode_run] at h
  cases hunit : packetAccessUnit configuration packet with
  | error e =>
      rw [hunit] at h
      exact absurd hidle h
  | ok unit =>
      simp only [hunit] at h
      obtain ⟨hbackend, hstate⟩ := prepared_effect core unit
      generalize prepared unit core = core₁ at h hbackend hstate
      cases hvalid : core₁.decoderState.validatePacket packet.frameType with
      | error e =>
          rw [hvalid] at h
          rw [← hbackend] at hidle
          exact absurd hidle h
      | ok u =>
          have hreference := SequenceState.validatePacket_eq_ok.mp hvalid hpredicted
          rcases hstate with hsame | hnone
          · refine ⟨hsame ▸ hreference, ?_⟩
            rw [← hsame, ← hbackend]
            rw [hpredicted] at hvalid
            simp only [hpredicted, hvalid] at h
            rcases hrun : ((hostBackend A R setup).decode p
                ((unit.map AccessUnit.payload).getD packet.data) .predicted packet.timestamp
                core₁.decoderState.view).run core₁.backend with ⟨result, backend⟩
            have hsubmitted : backend.activity.submissions ≠ [] := by
              rw [hrun] at h
              cases result with
              | error e => exact h
              | ok decoded =>
                  cases haccepted : accepted unit core₁.decoderState decoded .predicted with
                  | error e => simpa only [haccepted] using h
                  | ok state => simpa only [haccepted] using h
            have hrunBackend : ((HostBackend.decode setup p
                ((unit.map AccessUnit.payload).getD packet.data) .predicted packet.timestamp
                core₁.decoderState.view).run core₁.backend).2 = backend := congrArg Prod.snd hrun
            rw [← hrunBackend] at hsubmitted
            exact HostBackend.decode_matches hsubmitted
          · exact absurd (hnone.symm.trans hreference) (by decide)

/-- Encoding a frame does not touch the decoder. -/
theorem encode_keeps (frame : Frame) : Action.Keeps decoderReference
    (encode (hostBackend A R setup) configuration p frame) := by
  unfold encode
  split
  · exact .fail _
  · refine .bind (.gets _) fun state => .bind (.lift _) fun frameType => .bind ?_ fun encoded =>
      .bind (.lift _) fun serialized => .bind (.lift _) fun committed =>
      .bind (.update fun _ => rfl) fun _ => .pure _
    refine .zoom fun core => Prod.ext rfl ?_
    exact HostBackend.encode_decoderDpb frame

theorem flushEncoder_keeps : Action.Keeps decoderReference
    (flushEncoder (hostBackend A R setup) p) :=
  .bind (.zoom fun _ => rfl) fun _ => .update fun _ => rfl

end SessionCore

namespace Sessions

variable {setup : BackendSetup A} {configuration : SessionConfiguration}

def decoderReference (sessions : Sessions (HostBackend A R)) : SequenceState × HostDpb A :=
  sessions.core.decoderReference

variable (sessions : Sessions (HostBackend A R))

theorem sendFrame_keeps (p : Provider A) (frame : Frame) : Action.Keeps decoderReference
    (sendFrame (hostBackend A R setup) configuration p frame) := by
  refine .bind (.gets _) fun flushed => ?_
  split
  · exact .fail _
  · exact .bind (.zoom fun sessions => SessionCore.encode_keeps frame sessions.core) fun _ =>
      .update fun _ => rfl

theorem flushEncoder_keeps (p : Provider A) : Action.Keeps decoderReference
    (flushEncoder (hostBackend A R setup) p) := by
  refine .bind (.gets _) fun flushed => ?_
  split
  · exact .pure _
  · exact .bind (.zoom fun sessions => SessionCore.flushEncoder_keeps sessions.core) fun _ =>
      .update fun _ => rfl

/-- A decoder flush that does not fail drops the reference. -/
theorem flushDecoder_effect (p : Provider A) :
    ReferenceEffect sessions.decoderReference
      ((flushDecoder (hostBackend A R setup) p).run sessions).2.decoderReference none := by
  unfold flushDecoder
  cases hflushed : sessions.decoderFlushed with
  | true => exact .kept (by simp [Action.run_bind, hflushed])
  | false =>
      cases hreset : p.reset with
      | error e =>
          exact .kept (by
            simp [Action.run_bind, hflushed, onCore, SessionCore.flushDecoder,
              SessionCore.onBackend, hostBackend, HostBackend.flush, hreset, decoderReference,
              SessionCore.decoderReference])
      | ok u =>
          apply ReferenceEffect.dropped
          simp [Action.run_bind, hflushed, onCore, SessionCore.flushDecoder,
            SessionCore.onBackend, hostBackend, HostBackend.flush, hreset, decoderReference,
            SessionCore.decoderReference, SessionCore.resetDecoder, SequenceState.reset]

variable (setup configuration)

/-- What a call can do to the decoder's reference; a frame is committed by the access unit whose
call delivers it. -/
theorem step_effect (call : Call (Provider A)) :
    ∃ committed : Option Frame,
      ReferenceEffect sessions.decoderReference
        (step (hostBackend A R setup) configuration sessions call).2.decoderReference committed ∧
      ∀ frame ∈ committed, (∃ p packet, call = .sendAccessUnit p packet) ∧
        (step (hostBackend A R setup) configuration sessions call).1 = .status (.ok ()) ∧
        (step (hostBackend A R setup) configuration sessions call).2.decoderOutputs =
          sessions.decoderOutputs ++ [frame] := by
  cases call with
  | sendFrame p frame => exact ⟨none, .kept (sendFrame_keeps p frame sessions), by simp⟩
  | receiveAccessUnit =>
      refine ⟨none, .kept ?_, by simp⟩
      simp only [step, receiveAccessUnit, Action.run]
      split
      · rfl
      · split <;> rfl
  | flushEncoder p => exact ⟨none, .kept (flushEncoder_keeps p sessions), by simp⟩
  | resetEncoder => exact ⟨none, .kept rfl, by simp⟩
  | sendAccessUnit p packet =>
      simp only [step, sendAccessUnit, Action.run_bind, Action.run_gets]
      cases hflushed : sessions.decoderFlushed with
      | true => exact ⟨none, .kept rfl, by simp⟩
      | false =>
          rcases hrun : (SessionCore.decode (hostBackend A R setup) configuration p packet).run
            sessions.core with ⟨result, core⟩
          have heffect := SessionCore.decode_effect hrun
          simp only [onCore, Action.run_bind, Action.run_zoom, hrun, Bool.false_eq_true, if_false]
          cases result with
          | error e => exact ⟨none, heffect, by simp⟩
          | ok frame => exact ⟨some frame, heffect, by simp⟩
  | receiveFrame =>
      refine ⟨none, .kept ?_, by simp⟩
      simp only [step, receiveFrame, Action.run]
      split
      · rfl
      · split <;> rfl
  | flushDecoder p => exact ⟨none, flushDecoder_effect sessions p, by simp⟩
  | resetDecoder => exact ⟨none, .dropped rfl, by simp⟩

/-- The sessions after a list of calls. -/
def after (calls : List (Call (Provider A))) : Sessions (HostBackend A R) :=
  final (step (hostBackend A R setup) configuration)
    (initial configuration (HostBackend.initial setup)) calls

/-- The decoder's reference is that of the last committed frame: some access unit of the run was
accepted and delivered a frame, the buffer then held the reconstruction of this frame under the
session's index and generation, and no call since then has changed the session's record or the
buffer. -/
def HoldsCommittedFrame (calls : List (Call (Provider A))) : Prop :=
  ∃ earlier p packet later frame, calls = earlier ++ Call.sendAccessUnit p packet :: later ∧
    let before : Sessions (HostBackend A R) := after setup configuration earlier
    let committing := step (hostBackend A R setup) configuration before (.sendAccessUnit p packet)
    committing.1 = .status (.ok ()) ∧
    committing.2.decoderOutputs = before.decoderOutputs ++ [frame] ∧
    committing.2.core.decoderState.referenceFrame = some frame ∧
    committing.2.core.backend.decoderDpb.Reconstructs frame ∧
    committing.2.core.backend.decoderDpb.semantics.Matches committing.2.core.decoderState.view ∧
    ∀ done rest, later = done ++ rest →
      (final (step (hostBackend A R setup) configuration) committing.2 done).decoderReference =
        committing.2.decoderReference

/-- The two records of the reference after a run: while the session has a reference, the buffer
is one frame ahead or holds the last committed frame. -/
def ReferenceInvariant (calls : List (Call (Provider A))) : Prop :=
  let sessions : Sessions (HostBackend A R) := after setup configuration calls
  sessions.core.decoderState.hasReference = true →
    sessions.core.backend.decoderDpb.semantics.nextFrameIndex =
        sessions.core.decoderState.frameIndex + 1 ∨
      HoldsCommittedFrame (R := R) setup configuration calls

variable {setup configuration} {calls : List (Call (Provider A))} {call : Call (Provider A)}

theorem after_append_singleton :
    (after setup configuration (calls ++ [call]) : Sessions (HostBackend A R)) =
      (step (hostBackend A R setup) configuration (after setup configuration calls) call).2 :=
  final_append calls [call]

theorem after_singleton :
    (after setup configuration [call] : Sessions (HostBackend A R)) =
      (step (hostBackend A R setup) configuration
        (initial configuration (HostBackend.initial setup)) call).2 := rfl

/-- A call that keeps the reference extends the calls since the commit. -/
theorem HoldsCommittedFrame.extend (h : HoldsCommittedFrame (R := R) setup configuration calls)
    (hkept : (after setup configuration (calls ++ [call]) :
        Sessions (HostBackend A R)).decoderReference =
      (after setup configuration calls : Sessions (HostBackend A R)).decoderReference) :
    HoldsCommittedFrame (R := R) setup configuration (calls ++ [call]) := by
  obtain ⟨earlier, p, packet, later, frame, rfl, hreply, houtput, hframe, hdpb, hmatches, hlater⟩ := h
  refine ⟨earlier, p, packet, later ++ [call], frame, by simp, hreply, houtput, hframe, hdpb,
    hmatches, ?_⟩
  intro done rest hsplit
  rcases List.eq_nil_or_concat rest with rfl | ⟨rest, last, rfl⟩
  · have hall := hlater later [] (by simp)
    have hrun : ∀ more, (after setup configuration
        (earlier ++ Call.sendAccessUnit p packet :: more) : Sessions (HostBackend A R)) =
        final (step (hostBackend A R setup) configuration)
          (step (hostBackend A R setup) configuration (after setup configuration earlier)
            (.sendAccessUnit p packet)).2 more :=
      fun more => final_append earlier _
    rw [List.append_assoc, List.cons_append, hrun, hrun, hall] at hkept
    rw [List.append_nil] at hsplit
    rw [← hsplit]
    exact hkept
  · rw [List.concat_eq_append, ← List.append_assoc] at hsplit
    exact hlater done rest (List.append_inj' hsplit rfl).1

/-- The call that commits a frame leaves it as the reference. -/
theorem HoldsCommittedFrame.of_commit {state : SequenceState} {frame : Frame} {latentState : Bytes}
    (hcall : ∃ p packet, call = .sendAccessUnit p packet)
    (hreply : (step (hostBackend A R setup) configuration (after setup configuration calls)
      call).1 = .status (.ok ()))
    (houtput : (after setup configuration (calls ++ [call]) :
        Sessions (HostBackend A R)).decoderOutputs =
      (after setup configuration calls : Sessions (HostBackend A R)).decoderOutputs ++ [frame])
    (hstores : Stores (after setup configuration (calls ++ [call]) :
      Sessions (HostBackend A R)).core.backend.decoderDpb state.view frame)
    (hcommitted : (after setup configuration (calls ++ [call]) :
      Sessions (HostBackend A R)).core.decoderState = state.committed frame latentState)
    (hpixels : frame.data.length ≠ 0) :
    HoldsCommittedFrame (R := R) setup configuration (calls ++ [call]) := by
  obtain ⟨p, packet, rfl⟩ := hcall
  obtain ⟨hreconstructs, hasFeature, hsemantics⟩ := hstores
  rw [after_append_singleton] at houtput hreconstructs hsemantics hcommitted
  refine ⟨calls, p, packet, [], frame, rfl, hreply, houtput, ?_, hreconstructs, ?_, ?_⟩
  · simp [hcommitted, SequenceState.committed, hpixels]
  · rw [hsemantics, hcommitted]
    exact ⟨rfl, rfl, rfl⟩
  · intro done rest hsplit
    obtain ⟨rfl, rfl⟩ := List.append_eq_nil_iff.mp hsplit.symm
    rfl

theorem referenceInvariant (calls : List (Call (Provider A))) :
    ReferenceInvariant (R := R) setup configuration calls := by
  induction calls using List.reverseRecOn with
  | nil => exact fun h => (nomatch h)
  | append_singleton calls call ih =>
      intro hreference
      obtain ⟨committed, heffect, hcommit⟩ := step_effect setup configuration
        (after setup configuration calls : Sessions (HostBackend A R)) call
      rw [← after_append_singleton] at heffect
      cases heffect with
      | kept hkept =>
          have hstate := congrArg Prod.fst hkept
          have hdpb := congrArg Prod.snd hkept
          simp only [decoderReference, SessionCore.decoderReference] at hstate hdpb
          rw [hstate] at hreference ⊢
          rw [hdpb]
          exact (ih hreference).imp_right fun h => h.extend hkept
      | dropped hdropped => exact absurd (hdropped.symm.trans hreference) (by decide)
      | ahead frame hstate hstores =>
          obtain ⟨-, hasFeature, hsemantics⟩ := hstores
          simp only [decoderReference, SessionCore.decoderReference] at hstate hsemantics
          left
          rw [hsemantics, hstate]
          rfl
      | committed state frame latentState hstores hcommitted hpixels =>
          obtain ⟨hcall, hreply, houtput⟩ := hcommit frame rfl
          rw [← after_append_singleton] at houtput
          exact .inr (.of_commit hcall hreply houtput hstores hcommitted hpixels)

theorem frameIndex_ne_add_one (frameIndex : UInt64) : frameIndex ≠ frameIndex + 1 := by
  intro h
  have hnat := congrArg UInt64.toNat h
  simp only [UInt64.toNat_add, UInt64.toNat_one] at hnat
  omega

/-- The sessions with the record of earlier activity cleared. -/
def withoutActivity (sessions : Sessions (HostBackend A R)) : Sessions (HostBackend A R) :=
  { sessions with
    core := { sessions.core with backend := { sessions.core.backend with activity := {} } } }

variable (setup configuration)

/-- Sending an access unit submits a stage to the provider. -/
def ReachesStages (sessions : Sessions (HostBackend A R)) (p : Provider A) (packet : Packet) : Prop :=
  (step (hostBackend A R setup) configuration sessions.withoutActivity
    (.sendAccessUnit p packet)).2.core.backend.activity.submissions ≠ []

variable {setup configuration}

/-- A predicted access unit that reaches the stages found a reference in the session and a
buffer that matches it. -/
theorem ReachesStages.matches {sessions : Sessions (HostBackend A R)} {p : Provider A}
    {packet : Packet} (hpredicted : packet.frameType = .predicted)
    (h : ReachesStages setup configuration sessions p packet) :
    sessions.core.decoderState.hasReference = true ∧
      sessions.core.backend.decoderDpb.semantics.Matches sessions.core.decoderState.view := by
  simp only [ReachesStages, step, sendAccessUnit, Action.run_bind, Action.run_gets] at h
  cases hflushed : sessions.decoderFlushed with
  | true => simp [withoutActivity, hflushed] at h
  | false =>
      have hreaches : ((SessionCore.decode (hostBackend A R setup) configuration p packet).run
          sessions.withoutActivity.core).2.backend.activity.submissions ≠ [] := by
        have hopen : sessions.withoutActivity.decoderFlushed = false := hflushed
        rcases hrun : (SessionCore.decode (hostBackend A R setup) configuration p packet).run
          sessions.withoutActivity.core with ⟨result, core⟩
        simp only [hopen, Bool.false_eq_true, if_false, onCore, Action.run_bind,
          Action.run_zoom, hrun] at h
        cases result with
        | error e => exact h
        | ok frame => exact h
      have hcore : sessions.withoutActivity.core.backend.activity.submissions = [] := rfl
      have hmatches := SessionCore.decode_reaches hcore hpredicted hreaches
      exact hmatches

end Sessions

end Nvcr.Rt
