import Nvcr.RtDriftFreedom
import Nvcr.RtFirstStages

/-!
# Changes of resolution in DCVC-RT sessions

The backend keeps its reference as tensors and checks that they belong to the right frame of the
right sequence, but never that they have the size of the frame it codes. The tensors of a buffer
that belongs to the next frame have the size of the frame that was accepted last, so predicted
stages see matching shapes exactly while the size stays the same.
-/

namespace Nvcr.Rt

open StatefulResults Codec HostOps TransitionRuns

variable {A : HostArithmetic} {R : RansCoder} {p : Provider A} {g : Geometry}

/-- The tensors of a buffer have the shapes of a frame of the given size. -/
structure HostDpb.Fits (g : Geometry) (dpb : HostDpb A) : Prop where
  frame : ∃ tensor, dpb.frame = some tensor ∧ tensor.shape = g.frameShape
  feature : ∀ tensor ∈ dpb.feature, tensor.shape = g.featureShape

/-- What coding a frame of the given size leaves in a buffer. -/
structure HostDpb.Stored (g : Geometry) (view : SequenceStateView) (dpb : HostDpb A) : Prop where
  fits : dpb.Fits g
  semantics : ∃ hasFeature, dpb.semantics = ReferenceState.commit view hasFeature
  feature : dpb.semantics.hasFeature = true → dpb.feature.isSome = true

/-- Submissions of intra stages only. -/
def Submission.Intra (submission : Submission A) : Prop :=
  ∃ stage, submission.stage = .intra stage

theorem Submission.not_predicted {log before : List (Submission A)} {submission : Submission A}
    (h : ∃ entries, log = before ++ entries ∧ ∀ entry ∈ entries, Submission.Intra entry)
    (hidle : before = []) (hmem : submission ∈ log) (stage : PredictedStage) :
    submission.stage ≠ .predicted stage := by
  obtain ⟨entries, hlog, hentries⟩ := h
  rw [hlog, hidle, List.nil_append] at hmem
  obtain ⟨intra, hintra⟩ := hentries submission hmem
  rw [hintra]
  exact fun heq => nomatch heq

namespace FrameWork

/-- Frame work that submits only good stages. -/
abbrev Submits {α : Type} (good : Submission A → Prop) (x : FrameWork A R α) (post : α → Prop) :
    Prop :=
  Action.Emits (fun state : FrameState A R => state.pipeline.activity.submissions) good x post

section Rules

variable {α : Type} {good : Submission A → Prop}

theorem pipeline_submits {x : Pipeline A R α} {post : α → Prop}
    (h : Pipeline.Submits good x post) : FrameWork.Submits good (pipeline x) post :=
  h.zoom (fun _ => rfl) fun _ _ => rfl

theorem storeDpb_submits (dpb : HostDpb A) :
    FrameWork.Submits (R := R) good (storeDpb dpb) fun _ => True :=
  .of_keeps fun _ => rfl

theorem reconstruct_submits {tensor : Tensor A} {width height : UInt32} {timestamp : Timestamp} :
    FrameWork.Submits (R := R) good
      (pipeline (Pipeline.work (Work.reconstruct p tensor width height timestamp))) fun _ => True :=
  pipeline_submits (Pipeline.work_submits Work.reconstruct_submits)

theorem checkFrame_submits (frame : Frame) (formatMessage sizeMessage : String) :
    FrameWork.Submits (A := A) (R := R) good (checkFrame frame formatMessage sizeMessage)
      fun _ => True := by
  unfold checkFrame
  split
  · exact .fail
  · split
    · exact .fail
    · exact .pure trivial

end Rules

section Intra

variable {assets : IntraAssets A} {payload : Bytes} {timestamp : Timestamp} {frame : Frame}
  {view : SequenceStateView} {s t : FrameState A R}

theorem decodeIntra_submits :
    FrameWork.Submits (R := R) Submission.Intra (decodeIntra p assets payload timestamp view)
      fun _ => True :=
  .bind (.lift fun _ _ => trivial) fun info _ =>
    .bind (pipeline_submits (Pipeline.decodeIntraTensor_submits
      (fun stage _ => ⟨stage, rfl⟩) info)) fun _ _ =>
    .bind reconstruct_submits fun _ _ =>
    .bind (pipeline_submits (Pipeline.work_submits Work.request_submits)) fun _ _ =>
    .bind (storeDpb_submits _) fun _ _ => .pure trivial

theorem encodeIntra_submits {verify : Bool} {qp : UInt32} :
    FrameWork.Submits (R := R) Submission.Intra (encodeIntra p assets verify frame qp view)
      fun _ => True := by
  refine .bind (checkFrame_submits _ _ _) fun _ _ =>
    .bind (pipeline_submits (Pipeline.work_submits
      (Work.analyzeIntra_submits (fun stage _ => ⟨stage, rfl⟩) frame qp.toNat))) fun _ _ =>
    .bind (pipeline_submits (Pipeline.encodeSymbols_submits _ _ _ _ _)) fun _ _ =>
    .bind reconstruct_submits fun _ _ => .bind (storeDpb_submits _) fun _ _ => ?_
  cases verify with
  | true => exact .bind decodeIntra_submits fun _ _ => .pure trivial
  | false => exact .pure trivial

theorem intraDpb_stored {tensor : Tensor A} (hshape : tensor.shape = g.frameShape)
    (view : SequenceStateView) : (intraDpb tensor view).Stored g view where
  fits := ⟨⟨tensor, rfl, hshape⟩, fun _ h => nomatch h⟩
  semantics := ⟨false, rfl⟩
  feature := fun h => nomatch h

/-- A decoded intra frame replaces the buffer by one of its size; a failure keeps it. -/
theorem decodeIntra_buffer {result : Except Fault CodecDecodeResult}
    (h : (decodeIntra p assets payload timestamp view).run s = (result, t)) :
    (t.dpb = s.dpb ∧ ∃ fault, result = .error fault) ∨ ∃ info,
      parseIntraPayload payload = .ok info ∧
        t.dpb.Stored (Geometry.ofSize info.width info.height) view := by
  have hlift : Action.Keeps FrameState.dpb (Action.lift ((parseIntraPayload payload).mapError
    Fault.error) : FrameWork A R IntraPayload) := .lift _
  rcases hlift.bind_cases h with ⟨hsame, e, -, herror⟩ | ⟨info, s₁, hinfo, hdpb₁, h₁⟩
  · exact .inl ⟨hsame, e, herror⟩
  rcases (pipeline_keeps _).bind_cases h₁ with ⟨hsame, e, -, herror⟩ | ⟨frameHat, s₂, hrun, hdpb₂, h₂⟩
  · exact .inl ⟨hsame.trans hdpb₁, e, herror⟩
  rcases (pipeline_keeps _).bind_cases h₂ with ⟨hsame, e, -, herror⟩ | ⟨output, s₃, -, hdpb₃, h₃⟩
  · exact .inl ⟨(hsame.trans hdpb₂).trans hdpb₁, e, herror⟩
  rcases (pipeline_keeps _).bind_cases h₃ with ⟨hsame, e, -, herror⟩ | ⟨_, s₄, -, -, h₄⟩
  · exact .inl ⟨((hsame.trans hdpb₃).trans hdpb₂).trans hdpb₁, e, herror⟩
  cases h₄
  refine .inr ⟨info, ?_, ?_⟩
  · cases hparse : parseIntraPayload payload with
    | error e =>
        rw [hparse] at hinfo
        cases hinfo
    | ok parsed =>
        rw [hparse] at hinfo
        cases hinfo
        rfl
  · have hsubmits : Pipeline.Submits (R := R) Submission.Intra
        (Pipeline.decodeIntraTensor p assets (Geometry.ofSize info.width info.height) info)
        fun tensor => tensor.shape = (Geometry.ofSize info.width info.height).frameShape :=
      Pipeline.decodeIntraTensor_submits (fun stage _ => ⟨stage, rfl⟩) info
    exact intraDpb_stored ((pipeline_submits hsubmits s₁).2 frameHat (by rw [hrun])) view

/-- An encoded intra frame replaces the buffer by one of its size, also if its verification
fails. -/
theorem encodeIntra_buffer {verify : Bool} {qp : UInt32} {result : Except Fault CodecEncodeResult}
    (h : (encodeIntra p assets verify frame qp view).run s = (result, t)) :
    (t.dpb = s.dpb ∧ ∃ fault, result = .error fault) ∨
      t.dpb.Stored (Geometry.ofSize frame.width frame.height) view := by
  have hcheck : Action.Keeps FrameState.dpb (checkFrame (A := A) (R := R) frame
      "native I-frame encoding requires RGB24 or YUV420P8"
      "native I-frame dimensions must be within 64x64 and 1920x1080") := by
    unfold checkFrame
    split
    · exact .fail _
    · split
      · exact .fail _
      · exact .pure _
  rcases hcheck.bind_cases h with ⟨hsame, e, -, herror⟩ | ⟨_, s₁, -, hdpb₁, h₁⟩
  · exact .inl ⟨hsame, e, herror⟩
  rcases (pipeline_keeps _).bind_cases h₁ with ⟨hsame, e, -, herror⟩ | ⟨analysis, s₂, hrun, hdpb₂, h₂⟩
  · exact .inl ⟨hsame.trans hdpb₁, e, herror⟩
  rcases (pipeline_keeps _).bind_cases h₂ with ⟨hsame, e, -, herror⟩ | ⟨stream, s₃, -, hdpb₃, h₃⟩
  · exact .inl ⟨(hsame.trans hdpb₂).trans hdpb₁, e, herror⟩
  rcases (pipeline_keeps _).bind_cases h₃ with ⟨hsame, e, -, herror⟩ | ⟨output, s₄, -, -, h₄⟩
  · exact .inl ⟨((hsame.trans hdpb₃).trans hdpb₂).trans hdpb₁, e, herror⟩
  have hsubmits : Work.Submits Submission.Intra
      (Work.analyzeIntra p assets (Geometry.ofSize frame.width frame.height) frame qp.toNat)
      fun analysis =>
        analysis.frameHat.shape = (Geometry.ofSize frame.width frame.height).frameShape :=
    Work.analyzeIntra_submits (fun stage _ => ⟨stage, rfl⟩) frame qp.toNat
  have hstored : (intraDpb analysis.frameHat view).Stored
      (Geometry.ofSize frame.width frame.height) view :=
    intraDpb_stored ((pipeline_submits (Pipeline.work_submits hsubmits) s₁).2 analysis
      (by rw [hrun])) view
  right
  cases verify with
  | false =>
      cases h₄
      exact hstored
  | true =>
      -- The verification decodes the payload just made, so it stores a buffer of the same size.
      let info : IntraPayload := ⟨frame.width, frame.height, qp,
        (Geometry.ofSize frame.width frame.height).twoCoders, stream⟩
      rcases hdecode : (decodeIntra p assets (makeIntraPayload info) frame.timestamp view).run
          { s₄ with dpb := intraDpb analysis.frameHat view } with ⟨decoded, s₅⟩
      have hlast : t = s₅ := by
        have hbind : (decodeIntra p assets (makeIntraPayload info) frame.timestamp view >>=
            fun conformant => pure
              ⟨makeIntraPayload info, conformant.frame, conformant.latentState, qp⟩).run
            { s₄ with dpb := intraDpb analysis.frameHat view } = (result, t) := h₄
        rw [Action.run_bind, hdecode] at hbind
        cases decoded with
        | error e => exact (congrArg Prod.snd hbind).symm
        | ok conformant => exact (congrArg Prod.snd hbind).symm
      rw [hlast]
      rcases decodeIntra_buffer hdecode with ⟨hsame, -⟩ | ⟨parsed, hparse, hparsed⟩
      · rw [hsame]
        exact hstored
      · obtain ⟨hwidth, hheight⟩ := parseIntraPayload_make_eq_ok hparse
        rwa [hwidth, hheight] at hparsed

end Intra

section Predicted

variable {assets : PredictedAssets A} {payload : Bytes} {timestamp : Timestamp} {frame : Frame}
  {view : SequenceStateView} {s t : FrameState A R}

/-- A predicted frame passes the checks before its stages with a reference from the buffer. -/
structure EncodesFrom (frame : Frame) (baseQp : UInt32) (view : SequenceStateView)
    (dpb : HostDpb A) (decision : PredictedFrameDecision) (reference : Binding A) : Prop where
  accepted : AcceptedFrame frame
  stored : dpb.frame.isNone = false
  selected : selectFrame baseQp view dpb.semantics = .ok decision
  chosen : chosenReference dpb decision.useFrameReference = some reference

/-- A predicted payload passes the checks before its stages with a reference from the buffer. -/
structure DecodesFrom (payload : Bytes) (view : SequenceStateView) (dpb : HostDpb A)
    (info : PredictedPayload) (reference : Binding A) : Prop where
  parsed : parsePredictedPayload payload = .ok info
  stored : dpb.frame.isNone = false
  valid : validateDecodeReference info.useFrameReference view dpb.semantics = .ok ()
  chosen : chosenReference dpb info.useFrameReference = some reference

/-- What follows the checks: the reference stage comes first, unless the provider refuses a request
before it, and what is stored has the size of the frame. -/
structure Coded (g : Geometry) (useFrameReference : Bool) (reference : Binding A)
    (view : SequenceStateView) (granted failed : Prop) (s t : FrameState A R) : Prop where
  fits : ∀ submission ∈ t.pipeline.activity.submissions,
    Work.FitsWith g useFrameReference reference submission
  reached : granted → ∃ submission ∈ t.pipeline.activity.submissions,
    submission.stage = .predicted (referenceStage useFrameReference)
  refused : ¬ granted → t.pipeline.activity.submissions = []
  buffer : t.dpb = s.dpb ∧ failed ∨ t.dpb.Stored g view

theorem predictedDpb_stored {frameHat feature : Tensor A}
    (h : Work.Reconstructed g frameHat feature) (view : SequenceStateView) :
    (predictedDpb frameHat feature view).Stored g view where
  fits := by
    refine ⟨⟨frameHat, rfl, h.1⟩, fun tensor htensor => ?_⟩
    cases htensor
    exact h.2
  semantics := ⟨true, rfl⟩
  feature := fun _ => rfl

theorem checkFrame_cases (frame : Frame) (formatMessage sizeMessage : String)
    (s : FrameState A R) :
    AcceptedFrame frame ∧ (checkFrame frame formatMessage sizeMessage).run s = (.ok (), s) ∨
      ¬ AcceptedFrame frame ∧ ∃ fault,
        (checkFrame frame formatMessage sizeMessage).run s = (.error fault, s) := by
  by_cases hframe : AcceptedFrame frame
  · exact .inl ⟨hframe, checkFrame_eq_ok.mpr ⟨hframe, rfl⟩⟩
  · refine .inr ⟨hframe, ?_⟩
    unfold checkFrame
    split
    · exact ⟨_, rfl⟩
    · rename_i hformat
      rw [not_and_or, not_not, not_not] at hformat
      rw [if_pos fun hsize => hframe ⟨hformat, hsize⟩]
      exact ⟨_, rfl⟩

/-- The first stage is submitted if the provider grants the requests before it; otherwise nothing
is submitted and the work fails. -/
def OpensFrom {α : Type} (p : Provider A) (count : ℕ) (x : Pipeline A R α) (stage : Stage)
    (state : PipelineState A R) : Prop :=
  (p.Grants 0 count → ∃ submission ∈ (x.run state).2.activity.submissions,
    submission.stage = stage) ∧
  (¬ p.Grants 0 count → (x.run state).2.activity.submissions = [] ∧
    ∀ value, (x.run state).1 ≠ .ok value)

section Opening

variable {α β : Type} {count : ℕ} {stage : Stage} {state : PipelineState A R}

theorem opensFrom_work {x : Work A α} (hopens : Work.Opens p count x stage)
    (hidle : state.activity = {}) : OpensFrom p count (Pipeline.work x) stage state := by
  have h := hopens state.activity
  rw [hidle] at h
  simp only [OpensFrom, Pipeline.work, Action.run_zoom, hidle]
  exact h

theorem OpensFrom.bind {x : Pipeline A R α} {f : α → Pipeline A R β}
    (hx : OpensFrom p count x stage state)
    (hlater : ∀ a, Pipeline.Submits (fun _ => True) (f a) fun _ => True) :
    OpensFrom p count (x >>= f) stage state := by
  obtain ⟨hreached, hrefused⟩ := hx
  unfold OpensFrom
  rw [Action.run_bind]
  rcases hrun : x.run state with ⟨fault | a, middle⟩
  · rw [hrun] at hreached hrefused
    exact ⟨hreached, fun hnot => ⟨(hrefused hnot).1, fun _ hvalue => nomatch hvalue⟩⟩
  · rw [hrun] at hreached hrefused
    obtain ⟨⟨entries, hlog, -⟩, -⟩ := hlater a middle
    refine ⟨fun hgranted => ?_, fun hnot => absurd rfl ((hrefused hnot).2 a)⟩
    obtain ⟨submission, hmem, hstage⟩ := hreached hgranted
    refine ⟨submission, ?_, hstage⟩
    have hlast : ((f a).run middle).2.activity.submissions =
        middle.activity.submissions ++ entries := hlog
    simp only [hlast]
    exact List.mem_append_left _ hmem

end Opening

/-- The stages of a predicted frame that passed its checks. -/
theorem coded_of_stages {α β : Type} {count : ℕ} {useFrameReference : Bool}
    {reference : Binding A} {x : Pipeline A R α} {f : α → FrameWork A R β}
    {result : Except Fault β} (frameOf featureOf : α → Tensor A) (hidle : s.pipeline.activity = {})
    (hsubmits : Pipeline.Submits (Work.FitsWith g useFrameReference reference) x fun a =>
      Work.Reconstructed g (frameOf a) (featureOf a))
    (hopens : OpensFrom p count x (.predicted (referenceStage useFrameReference)) s.pipeline)
    (hlater : ∀ a, FrameWork.Submits (Work.FitsWith g useFrameReference reference) (f a)
      fun _ => True)
    (hbuffer : ∀ a s₁ t result, (f a).run s₁ = (result, t) →
      (t.dpb = s₁.dpb ∧ ∃ fault, result = .error fault) ∨
        t.dpb = predictedDpb (frameOf a) (featureOf a) view)
    (h : (pipeline x >>= f).run s = (result, t)) :
    Coded g useFrameReference reference view (p.Grants 0 count) (∃ fault, result = .error fault)
      s t := by
  obtain ⟨hreached, hrefused⟩ := hopens
  obtain ⟨⟨entries, hlog, hentries⟩, -⟩ :=
    ((pipeline_submits hsubmits).bind fun a _ => hlater a).of_run h
  have hfits : ∀ submission ∈ t.pipeline.activity.submissions,
      Work.FitsWith g useFrameReference reference submission := by
    rw [hlog, hidle]
    exact hentries
  rcases (pipeline_keeps x).bind_cases h with ⟨hsame, e, hrun, rfl⟩ | ⟨a, s₁, hrun, hdpb, h₁⟩
  · have hx : (x.run s.pipeline).2 = t.pipeline :=
      congrArg (fun outcome => FrameState.pipeline (Prod.snd outcome)) hrun
    rw [hx] at hreached hrefused
    exact ⟨hfits, hreached, fun hnot => (hrefused hnot).1, .inl ⟨hsame, e, rfl⟩⟩
  · have hx : (x.run s.pipeline).2 = s₁.pipeline :=
      congrArg (fun outcome => FrameState.pipeline (Prod.snd outcome)) hrun
    have hvalue : (x.run s.pipeline).1 = .ok a := congrArg Prod.fst hrun
    obtain ⟨⟨more, hmore, -⟩, -⟩ := (hlater a).of_run h₁
    have hstored := predictedDpb_stored ((hsubmits s.pipeline).2 a hvalue) view
    rw [hx] at hreached
    refine ⟨hfits, fun hgranted => ?_, fun hnot => absurd hvalue ((hrefused hnot).2 a), ?_⟩
    · obtain ⟨submission, hmem, hstage⟩ := hreached hgranted
      refine ⟨submission, ?_, hstage⟩
      rw [hmore]
      exact List.mem_append_left _ hmem
    · rcases hbuffer a s₁ t result h₁ with ⟨hsame, hfailed⟩ | hdpb'
      · exact .inl ⟨hsame.trans hdpb, hfailed⟩
      · rw [hdpb']
        exact .inr hstored

theorem analyzePredicted_opensFrom {decision : PredictedFrameDecision} {reference : Binding A}
    (hframe : AcceptedFrame frame) (hqp : decision.qp.toNat < 72) {state : PipelineState A R}
    (hidle : state.activity = {}) :
    OpensFrom p 4 (Pipeline.work (Work.analyzePredicted p assets
      (Geometry.ofSize frame.width frame.height) frame reference decision.useFrameReference
      decision.qp.toNat)) (.predicted (referenceStage decision.useFrameReference)) state :=
  opensFrom_work (Work.analyzePredicted_opens hqp hframe.1 hframe.2) hidle

theorem decodePredictedTensors_opensFrom {info : PredictedPayload} {reference : Binding A}
    (hqp : info.qp.toNat < 72) {state : PipelineState A R} (hidle : state.activity = {}) :
    OpensFrom p 3 (Pipeline.decodePredictedTensors p assets g info reference)
      (.predicted (referenceStage info.useFrameReference)) state := by
  refine (opensFrom_work (Work.referenceContexts_opens hqp) hidle).bind fun contexts => ?_
  exact .bind (Pipeline.entropy_submits _) fun _ _ =>
    .bind (Pipeline.decodeHyper_submits _ _ _) fun _ _ =>
    .bind (Pipeline.work_submits (Work.predictedPrior_submits trivial)) fun _ _ =>
    .bind (Pipeline.work_submits Work.hostOp_submits) fun _ _ =>
    .bind (Pipeline.work_submits Work.request_submits) fun _ _ =>
    .bind (Pipeline.decodePredictedStage_submits _ _ _ _ _) fun _ _ =>
    .bind (Pipeline.work_submits (Work.predictedSpatialPrior_submits fun _ _ => trivial))
      fun _ _ =>
    .bind (Pipeline.decodePredictedStage_submits _ _ _ _ _) fun _ _ =>
    .bind (Pipeline.work_submits Work.hostOp_submits) fun _ _ =>
    (Pipeline.work_submits (Work.synthesizePredicted_submits _ fun _ _ _ _ => trivial)).weaken
      fun _ _ => trivial

/-- A predicted frame fails its checks, or is coded with a reference from the buffer. -/
theorem encodePredicted_cases {verify : Bool} {baseQp : UInt32}
    {result : Except Fault CodecEncodeResult} (hidle : s.pipeline.activity = {})
    (h : (encodePredicted p assets verify frame baseQp view).run s = (result, t)) :
    ((∀ decision reference, ¬ EncodesFrom frame baseQp view s.dpb decision reference) ∧
      t.pipeline.activity = {} ∧ t.dpb = s.dpb ∧ ∃ fault, result = .error fault) ∨
    ∃ decision reference, EncodesFrom frame baseQp view s.dpb decision reference ∧
      Coded (Geometry.ofSize frame.width frame.height) decision.useFrameReference reference view
        (p.Grants 0 4) (∃ fault, result = .error fault) s t := by
  rcases checkFrame_cases frame "native P-frame encoding requires RGB24 or YUV420P8"
    "native P-frame dimensions must be even and within 64x64 and 1920x1080" s with
    ⟨hframe, hcheck⟩ | ⟨hframe, fault, hcheck⟩
  swap
  · rw [encodePredicted, Action.run_bind_of_error hcheck] at h
    cases h
    exact .inl ⟨fun _ _ hfrom => hframe hfrom.accepted, hidle, rfl, fault, rfl⟩
  have hgets : (Action.gets FrameState.dpb : FrameWork A R (HostDpb A)).run s = (.ok s.dpb, s) :=
    rfl
  rw [encodePredicted, Action.run_bind_of_ok hcheck, Action.run_bind_of_ok hgets] at h
  cases hstored : s.dpb.frame.isNone with
  | true =>
      rw [if_pos hstored] at h
      cases h
      refine .inl ⟨fun _ _ hfrom => ?_, hidle, rfl, _, rfl⟩
      rw [hfrom.stored] at hstored
      cases hstored
  | false =>
      rw [if_neg (by simp [hstored])] at h
      cases hselect : selectFrame baseQp view s.dpb.semantics with
      | error e =>
          rw [hselect] at h
          cases h
          refine .inl ⟨fun _ _ hfrom => ?_, hidle, rfl, _, rfl⟩
          rw [hfrom.selected] at hselect
          cases hselect
      | ok decision =>
          have hlift : (Action.lift ((selectFrame baseQp view s.dpb.semantics).mapError
              Fault.error) : FrameWork A R PredictedFrameDecision).run s = (.ok decision, s) := by
            rw [hselect]
            rfl
          rw [Action.run_bind_of_ok hlift] at h
          cases hchosen : chosenReference s.dpb decision.useFrameReference with
          | none =>
              simp only [hchosen] at h
              cases h
              refine .inl ⟨fun other reference hfrom => ?_, hidle, rfl, _, rfl⟩
              obtain rfl : other = decision := Except.ok.inj (hfrom.selected.symm.trans hselect)
              exact absurd (hchosen.symm.trans hfrom.chosen) (by simp)
          | some reference =>
              simp only [hchosen] at h
              refine .inr ⟨decision, reference, ⟨hframe, hstored, hselect, hchosen⟩, ?_⟩
              refine coded_of_stages Work.PredictedAnalysis.frameHat
                Work.PredictedAnalysis.feature hidle (Pipeline.work_submits
                (Work.analyzePredicted_submits rfl decision.qp.toNat))
                (analyzePredicted_opensFrom hframe (selectFrame_eq_ok hselect).2.1 hidle)
                (fun analysis => ?_) (fun analysis s₁ t result hrun => ?_) h
              · refine .bind (pipeline_submits (Pipeline.encodeSymbols_submits _ _ _ _ _))
                  fun _ _ => ?_
                cases verify with
                | true =>
                    exact .bind reconstruct_submits fun _ _ => .bind (storeDpb_submits _)
                      fun _ _ => .pure trivial
                | false =>
                    exact .bind (.of_keeps (.pure _)) fun _ _ => .bind (storeDpb_submits _)
                      fun _ _ => .pure trivial
              · rcases (pipeline_keeps _).bind_cases hrun with
                  ⟨hsame, e, -, hfailed⟩ | ⟨stream, s₂, -, hdpb₂, h₂⟩
                · exact .inl ⟨hsame, e, hfailed⟩
                cases verify with
                | true =>
                    rcases (pipeline_keeps _).bind_cases h₂ with
                      ⟨hsame, e, -, hfailed⟩ | ⟨output, s₃, -, -, h₃⟩
                    · exact .inl ⟨hsame.trans hdpb₂, e, hfailed⟩
                    cases h₃
                    exact .inr rfl
                | false =>
                    cases h₂
                    exact .inr rfl

/-- A predicted payload fails its checks, or is decoded with a reference from the buffer. -/
theorem decodePredicted_cases {result : Except Fault CodecDecodeResult}
    (hidle : s.pipeline.activity = {})
    (h : (decodePredicted p assets payload timestamp view).run s = (result, t)) :
    ((∀ info reference, ¬ DecodesFrom payload view s.dpb info reference) ∧
      t.pipeline.activity = {} ∧ t.dpb = s.dpb ∧ ∃ fault, result = .error fault) ∨
    ∃ info reference, DecodesFrom payload view s.dpb info reference ∧
      Coded (Geometry.ofSize info.width info.height) info.useFrameReference reference view
        (p.Grants 0 3) (∃ fault, result = .error fault) s t := by
  cases hparse : parsePredictedPayload payload with
  | error e =>
      rw [decodePredicted, hparse] at h
      cases h
      refine .inl ⟨fun _ _ hfrom => ?_, hidle, rfl, _, rfl⟩
      rw [hfrom.parsed] at hparse
      cases hparse
  | ok info =>
      have hgets : (Action.gets FrameState.dpb : FrameWork A R (HostDpb A)).run s =
          (.ok s.dpb, s) := rfl
      have hlift : (Action.lift ((parsePredictedPayload payload).mapError Fault.error) :
          FrameWork A R PredictedPayload).run s = (.ok info, s) := by
        rw [hparse]
        rfl
      rw [decodePredicted, Action.run_bind_of_ok hlift, Action.run_bind_of_ok hgets] at h
      have hinfo : ∀ other, parsePredictedPayload payload = .ok other → other = info :=
        fun other hother => Except.ok.inj (hother.symm.trans hparse)
      cases hstored : s.dpb.frame.isNone with
      | true =>
          rw [if_pos hstored] at h
          cases h
          refine .inl ⟨fun _ _ hfrom => ?_, hidle, rfl, _, rfl⟩
          rw [hfrom.stored] at hstored
          cases hstored
      | false =>
          rw [if_neg (by simp [hstored])] at h
          cases hvalid : validateDecodeReference info.useFrameReference view s.dpb.semantics with
          | error e =>
              rw [hvalid] at h
              cases h
              refine .inl ⟨fun other _ hfrom => ?_, hidle, rfl, _, rfl⟩
              obtain rfl := hinfo other hfrom.parsed
              rw [hfrom.valid] at hvalid
              cases hvalid
          | ok u =>
              have hpass : (Action.lift ((validateDecodeReference info.useFrameReference view
                  s.dpb.semantics).mapError Fault.error) : FrameWork A R Unit).run s =
                  (.ok u, s) := by
                rw [hvalid]
                rfl
              rw [Action.run_bind_of_ok hpass] at h
              cases hchosen : chosenReference s.dpb info.useFrameReference with
              | none =>
                  simp only [hchosen] at h
                  cases h
                  refine .inl ⟨fun other reference hfrom => ?_, hidle, rfl, _, rfl⟩
                  obtain rfl := hinfo other hfrom.parsed
                  exact absurd (hchosen.symm.trans hfrom.chosen) (by simp)
              | some reference =>
                  simp only [hchosen] at h
                  refine .inr ⟨info, reference, ⟨hparse, hstored, hvalid, hchosen⟩, ?_⟩
                  refine coded_of_stages Prod.fst Prod.snd hidle
                    (Pipeline.decodePredictedTensors_submits info)
                    (decodePredictedTensors_opensFrom (parsePredictedPayload_eq_ok hparse).2 hidle)
                    (fun tensors => ?_) (fun tensors s₁ t result hrun => ?_) h
                  · exact .bind reconstruct_submits fun _ _ => .bind (storeDpb_submits _)
                      fun _ _ => .pure trivial
                  · rcases (pipeline_keeps _).bind_cases hrun with
                      ⟨hsame, e, -, hfailed⟩ | ⟨output, s₂, -, -, h₂⟩
                    · exact .inl ⟨hsame, e, hfailed⟩
                    cases h₂
                    exact .inr rfl

end Predicted

end FrameWork

open FrameWork (EncodesFrom DecodesFrom AcceptedFrame)

/-- The size that a payload announces. -/
def payloadGeometry (payload : Bytes) : FrameType → Option Geometry
  | .intra => (parseIntraPayload payload).toOption.map fun info =>
      Geometry.ofSize info.width info.height
  | .predicted => (parsePredictedPayload payload).toOption.map fun info =>
      Geometry.ofSize info.width info.height

namespace HostBackend

variable {setup : BackendSetup A} {frame : Frame} {frameType : FrameType} {payload : Bytes}
  {timestamp : Timestamp} {view : SequenceStateView} {backend backend' : HostBackend A R}

/-- The buffer after an encode: kept by a failure, or of the size of the frame. -/
theorem encode_buffer {result : Result CodecEncodeResult}
    (h : (encode setup p frame frameType view).run backend = (result, backend')) :
    (backend'.encoderDpb = backend.encoderDpb ∧ ∃ e, result = .error e) ∨
      backend'.encoderDpb.Stored (Geometry.ofSize frame.width frame.height) view := by
  cases frameType with
  | intra =>
      rcases hrun : (FrameWork.encodeIntra p setup.intra setup.verifyEncoderReconstruction frame
          setup.intraQp view).run ⟨⟨{}, backend.intraRans⟩, backend.encoderDpb⟩ with ⟨outcome, t⟩
      rw [encode, runIntra_run hrun] at h
      cases h
      rcases FrameWork.encodeIntra_buffer hrun with ⟨hsame, fault, rfl⟩ | hstored
      · exact .inl ⟨hsame, _, rfl⟩
      · exact .inr hstored
  | predicted =>
      rcases hrun : (FrameWork.encodePredicted p setup.predicted setup.verifyEncoderReconstruction
          frame setup.intraQp view).run ⟨⟨{}, backend.predictedRans⟩, backend.encoderDpb⟩
        with ⟨outcome, t⟩
      rw [encode, runPredicted_run hrun] at h
      cases h
      rcases FrameWork.encodePredicted_cases rfl hrun with
        ⟨-, -, hsame, fault, rfl⟩ | ⟨decision, reference, -, hcoded⟩
      · exact .inl ⟨hsame, _, rfl⟩
      · rcases hcoded.buffer with ⟨hsame, fault, rfl⟩ | hstored
        · exact .inl ⟨hsame, _, rfl⟩
        · exact .inr hstored

/-- The buffer after a decode: kept by a failure, or of the size of the payload. -/
theorem decode_buffer {result : Result CodecDecodeResult}
    (h : (decode setup p payload frameType timestamp view).run backend = (result, backend')) :
    (backend'.decoderDpb = backend.decoderDpb ∧ ∃ e, result = .error e) ∨
      ∃ g, payloadGeometry payload frameType = some g ∧ backend'.decoderDpb.Stored g view := by
  cases frameType with
  | intra =>
      rcases hrun : (FrameWork.decodeIntra p setup.intra payload timestamp view).run
          ⟨⟨{}, backend.intraRans⟩, backend.decoderDpb⟩ with ⟨outcome, t⟩
      rw [decode, runIntra_run hrun] at h
      cases h
      rcases FrameWork.decodeIntra_buffer hrun with ⟨hsame, fault, rfl⟩ | ⟨info, hparse, hstored⟩
      · exact .inl ⟨hsame, _, rfl⟩
      · exact .inr ⟨_, by simp [payloadGeometry, hparse, Except.toOption], hstored⟩
  | predicted =>
      rcases hrun : (FrameWork.decodePredicted p setup.predicted payload timestamp view).run
          ⟨⟨{}, backend.predictedRans⟩, backend.decoderDpb⟩ with ⟨outcome, t⟩
      rw [decode, runPredicted_run hrun] at h
      cases h
      rcases FrameWork.decodePredicted_cases rfl hrun with
        ⟨-, -, hsame, fault, rfl⟩ | ⟨info, reference, hfrom, hcoded⟩
      · exact .inl ⟨hsame, _, rfl⟩
      · rcases hcoded.buffer with ⟨hsame, fault, rfl⟩ | hstored
        · exact .inl ⟨hsame, _, rfl⟩
        · exact .inr ⟨_, by simp [payloadGeometry, hfrom.parsed, Except.toOption], hstored⟩

/-- A predicted stage of an encode comes from a predicted frame that passed its checks, and has the
shapes of that frame if the reference has. -/
theorem encode_submissions {submission : Submission A} {stage : PredictedStage}
    (hmem : submission ∈
      ((encode setup p frame frameType view).run backend).2.activity.submissions)
    (hstage : submission.stage = .predicted stage) :
    frameType = .predicted ∧ p.Grants 0 4 ∧ ∃ decision reference,
      EncodesFrom frame setup.intraQp view backend.encoderDpb decision reference ∧
      Work.FitsWith (Geometry.ofSize frame.width frame.height) decision.useFrameReference reference
        submission := by
  cases frameType with
  | intra =>
      rcases hrun : (FrameWork.encodeIntra p setup.intra setup.verifyEncoderReconstruction frame
          setup.intraQp view).run ⟨⟨{}, backend.intraRans⟩, backend.encoderDpb⟩ with ⟨outcome, t⟩
      rw [encode, runIntra_run hrun] at hmem
      exact absurd hstage
        (Submission.not_predicted (FrameWork.encodeIntra_submits.of_run hrun).1 rfl hmem stage)
  | predicted =>
      rcases hrun : (FrameWork.encodePredicted p setup.predicted setup.verifyEncoderReconstruction
          frame setup.intraQp view).run ⟨⟨{}, backend.predictedRans⟩, backend.encoderDpb⟩
        with ⟨outcome, t⟩
      rw [encode, runPredicted_run hrun] at hmem
      have hmem' : submission ∈ t.pipeline.activity.submissions := hmem
      rcases FrameWork.encodePredicted_cases rfl hrun with
        ⟨-, hidle, -, -⟩ | ⟨decision, reference, hfrom, hcoded⟩
      · rw [hidle] at hmem'
        cases hmem'
      · refine ⟨rfl, ?_, decision, reference, hfrom, hcoded.fits submission hmem'⟩
        by_contra hnot
        rw [hcoded.refused hnot] at hmem'
        cases hmem'

theorem encode_reaches {decision : PredictedFrameDecision} {reference : Binding A}
    (hfrom : EncodesFrom frame setup.intraQp view backend.encoderDpb decision reference)
    (hgrants : p.Grants 0 4) :
    ∃ submission ∈ ((encode setup p frame .predicted view).run backend).2.activity.submissions,
      ∃ stage, submission.stage = .predicted stage := by
  rcases hrun : (FrameWork.encodePredicted p setup.predicted setup.verifyEncoderReconstruction
      frame setup.intraQp view).run ⟨⟨{}, backend.predictedRans⟩, backend.encoderDpb⟩
    with ⟨outcome, t⟩
  rw [encode, runPredicted_run hrun]
  rcases FrameWork.encodePredicted_cases rfl hrun with
    ⟨hnot, -, -, -⟩ | ⟨decision, reference, -, hcoded⟩
  · exact absurd hfrom (hnot _ _)
  · obtain ⟨submission, hmem, hstage⟩ := hcoded.reached hgrants
    exact ⟨submission, hmem, _, hstage⟩

/-- A predicted stage of a decode comes from a predicted payload that passed its checks, and has
the shapes of that payload if the reference has. -/
theorem decode_submissions {submission : Submission A} {stage : PredictedStage}
    (hmem : submission ∈
      ((decode setup p payload frameType timestamp view).run backend).2.activity.submissions)
    (hstage : submission.stage = .predicted stage) :
    frameType = .predicted ∧ p.Grants 0 3 ∧ ∃ info reference,
      DecodesFrom payload view backend.decoderDpb info reference ∧
      Work.FitsWith (Geometry.ofSize info.width info.height) info.useFrameReference reference
        submission := by
  cases frameType with
  | intra =>
      rcases hrun : (FrameWork.decodeIntra p setup.intra payload timestamp view).run
          ⟨⟨{}, backend.intraRans⟩, backend.decoderDpb⟩ with ⟨outcome, t⟩
      rw [decode, runIntra_run hrun] at hmem
      exact absurd hstage
        (Submission.not_predicted (FrameWork.decodeIntra_submits.of_run hrun).1 rfl hmem stage)
  | predicted =>
      rcases hrun : (FrameWork.decodePredicted p setup.predicted payload timestamp view).run
          ⟨⟨{}, backend.predictedRans⟩, backend.decoderDpb⟩ with ⟨outcome, t⟩
      rw [decode, runPredicted_run hrun] at hmem
      have hmem' : submission ∈ t.pipeline.activity.submissions := hmem
      rcases FrameWork.decodePredicted_cases rfl hrun with
        ⟨-, hidle, -, -⟩ | ⟨info, reference, hfrom, hcoded⟩
      · rw [hidle] at hmem'
        cases hmem'
      · refine ⟨rfl, ?_, info, reference, hfrom, hcoded.fits submission hmem'⟩
        by_contra hnot
        rw [hcoded.refused hnot] at hmem'
        cases hmem'

theorem decode_reaches {info : PredictedPayload} {reference : Binding A}
    (hfrom : DecodesFrom payload view backend.decoderDpb info reference)
    (hgrants : p.Grants 0 3) :
    ∃ submission ∈
        ((decode setup p payload .predicted timestamp view).run backend).2.activity.submissions,
      ∃ stage, submission.stage = .predicted stage := by
  rcases hrun : (FrameWork.decodePredicted p setup.predicted payload timestamp view).run
      ⟨⟨{}, backend.predictedRans⟩, backend.decoderDpb⟩ with ⟨outcome, t⟩
  rw [decode, runPredicted_run hrun]
  rcases FrameWork.decodePredicted_cases rfl hrun with
    ⟨hnot, -, -, -⟩ | ⟨info, reference, -, hcoded⟩
  · exact absurd hfrom (hnot _ _)
  · obtain ⟨submission, hmem, hstage⟩ := hcoded.reached hgrants
    exact ⟨submission, hmem, _, hstage⟩

end HostBackend

end Nvcr.Rt
