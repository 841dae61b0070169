import Nvcr.RtHostBackend

/-!
# The shapes of the tensors that DCVC-RT stages are given

Every tensor of a predicted frame gets its shape from the size of the frame, except the reference,
which keeps the shape it was stored with. The lemmas follow the actions in the order of their
definitions: each submits only stages whose inputs have the shapes of the frame, provided that the
reference has them, and returns tensors of these shapes in any case.
-/

namespace Nvcr.Rt

open StatefulResults HostOps

variable {A : HostArithmetic} {R : RansCoder} {p : Provider A} {g : Geometry}

/-- The names and shapes of the inputs of a predicted stage for a frame of the given size. -/
def Geometry.stageInputs (g : Geometry) : PredictedStage → List (String × Shape4D)
  | .referenceFrame => [("reference_frame", g.frameShape), ("q_feature", shape4d 256 1 1)]
  | .referenceFeature => [("reference_feature", g.featureShape), ("q_feature", shape4d 256 1 1)]
  | .analysis =>
      [("frame", g.frameShape), ("context", g.featureShape), ("q_encoder", shape4d 256 1 1)]
  | .hyperAnalysis => [("y_padded", shape4d 128 g.yHeight4 g.yWidth4)]
  | .prior => [("z_hat", g.zShape), ("temporal_context", g.featureShape)]
  | .spatialPrior => [("context", g.yShape 512)]
  | .synthesis =>
      [("y_hat", g.yShape 128), ("context", g.featureShape), ("q_decoder", shape4d 256 1 1),
        ("q_recon", shape4d 320 1 1)]

def Binding.named (binding : Binding A) : String × Shape4D := (binding.name, binding.tensor.shape)

/-- The inputs of a predicted stage have the shapes of a frame of the given size. -/
def Submission.Fits (g : Geometry) (submission : Submission A) : Prop :=
  ∀ stage, submission.stage = .predicted stage →
    submission.inputs.map Binding.named = g.stageInputs stage

/-- The stage that reads the reference. -/
def referenceStage (useFrameReference : Bool) : PredictedStage :=
  if useFrameReference then .referenceFrame else .referenceFeature

/-- The reference has the name and the shape that its stage expects. -/
def Binding.FitsReference (g : Geometry) (useFrameReference : Bool) (reference : Binding A) : Prop :=
  reference.named =
    if useFrameReference then ("reference_frame", g.frameShape)
    else ("reference_feature", g.featureShape)

theorem Binding.FitsReference.submission {useFrameReference : Bool} {reference q : Binding A}
    (h : reference.FitsReference g useFrameReference)
    (hq : q.named = ("q_feature", shape4d 256 1 1)) :
    Submission.Fits g ⟨.predicted (referenceStage useFrameReference), [reference, q]⟩ := by
  intro stage hstage
  cases hstage
  rw [List.map_cons, List.map_cons, List.map_nil, hq, h]
  cases useFrameReference <;> rfl

theorem Submission.fits_predicted {stage : PredictedStage} {inputs : List (Binding A)}
    (h : inputs.map Binding.named = g.stageInputs stage) :
    Submission.Fits g ⟨.predicted stage, inputs⟩ := by
  intro other hother
  cases hother
  exact h

namespace Work

/-- An action that submits only good stages. -/
abbrev Submits {α : Type} (good : Submission A → Prop) (x : Work A α) (post : α → Prop) : Prop :=
  Action.Emits Activity.submissions good x post

section Requests

variable {good : Submission A → Prop}

theorem request_submits : Submits good (request p) fun _ => True := by
  refine Action.Emits.of_keeps ?_
  refine .bind (.gets _) fun number => .bind (.update fun _ => rfl) fun _ => ?_
  split
  · exact .pure _
  · exact .fail _

theorem allocateTensor_submits (shape : Shape4D) :
    Submits good (allocateTensor p shape) fun tensor => tensor.shape = shape :=
  .bind request_submits fun _ _ => .pure rfl

/-- A stage keeps the shape of the buffer it writes to. -/
theorem runStage_submits {stage : Stage} {inputs : List (Binding A)} (h : good ⟨stage, inputs⟩) :
    Submits good (runStage p stage inputs) fun written =>
      ∀ name buffer, (written name buffer).shape = buffer.shape :=
  .bind (.update_append (fun _ => rfl) h) fun _ _ => .bind request_submits fun _ _ =>
    .bind request_submits fun _ _ => .pure fun _ _ => rfl

theorem hostOp_submits {α : Type} {operation : String} {result : Option α} :
    Submits good (hostOp operation result) fun _ => True := by
  unfold hostOp
  split
  · exact .fail
  · exact .pure trivial

theorem quantTensor_submits (table : List A.Float) (qp channels : ℕ) :
    Submits good (quantTensor p table qp channels) fun tensor =>
      tensor.shape = shape4d channels 1 1 := by
  simp only [quantTensor]
  split
  · exact .fail
  · exact .bind (allocateTensor_submits _) fun _ htensor => .pure htensor

theorem inputFrameTensor_submits (frame : Frame) :
    Submits good (inputFrameTensor p frame) fun tensor =>
      tensor.shape = (Geometry.ofSize frame.width frame.height).frameShape :=
  .bind (allocateTensor_submits _) fun _ htensor => .bind hostOp_submits fun _ _ =>
    .pure htensor

theorem reconstruct_submits {tensor : Tensor A} {width height : UInt32} {timestamp : Timestamp} :
    Submits good (reconstruct p tensor width height timestamp) fun _ => True :=
  .bind request_submits fun _ _ => .lift fun _ _ => trivial

theorem spatialContext_submits (yHat conditioning : List A.Half) :
    Submits good (spatialContext p yHat conditioning g) fun tensor =>
      tensor.shape = g.yShape 512 := by
  refine .bind (allocateTensor_submits _) fun context hcontext => ?_
  split
  · exact .fail
  · exact .pure hcontext

end Requests

section Intra

variable {assets : IntraAssets A} {good : Submission A → Prop}
  (hgood : ∀ stage inputs, good ⟨.intra stage, inputs⟩)

include hgood

theorem runIntraStage_submits (stage : IntraStage) (inputs : List (Binding A)) :
    Submits good (runStage p (.intra stage) inputs) fun written =>
      ∀ name buffer, (written name buffer).shape = buffer.shape :=
  runStage_submits (hgood stage inputs)

theorem hyperSynthesis_submits (z : Tensor A) :
    Submits good (hyperSynthesis p g z) fun _ => True :=
  .bind (allocateTensor_submits _) fun _ _ => .bind (allocateTensor_submits _) fun _ _ =>
    .bind (runIntraStage_submits hgood _ _) fun _ _ => .bind request_submits fun _ _ =>
    .bind hostOp_submits fun _ _ => .bind hostOp_submits fun _ _ => .pure trivial

omit hgood in
theorem accumulate_submits (stage : ℕ) (yHat reconstructed : List A.Half) :
    Submits good (accumulate stage yHat reconstructed) fun _ => True := by
  unfold accumulate
  split
  · exact .pure trivial
  · exact hostOp_submits

theorem nextLatent_submits (common : List A.Half) (stage : ℕ) (latent : Latent A)
    (yHat : List A.Half) :
    Submits good (nextLatent p g common stage latent yHat) fun _ => True := by
  unfold nextLatent
  split
  · exact .bind (spatialContext_submits _ _) fun _ _ => .bind (allocateTensor_submits _) fun _ _ =>
      .bind (runIntraStage_submits hgood _ _) fun _ _ => .pure trivial
  · exact .pure trivial

theorem encodeIntraStage_submits (y common : List A.Half) (stage : ℕ) (latent : Latent A) :
    Submits good (encodeIntraStage p g y common stage latent) fun _ => True :=
  .bind hostOp_submits fun _ _ => .bind hostOp_submits fun _ _ => .bind hostOp_submits fun _ _ =>
    .bind hostOp_submits fun _ _ => .bind hostOp_submits fun _ _ =>
    .bind (accumulate_submits _ _ _) fun _ _ => .bind (nextLatent_submits hgood _ _ _ _) fun _ _ =>
    .pure trivial

theorem encodeIntraStages_submits (y common : List A.Half) (stages : List ℕ) (latent : Latent A) :
    Submits good (encodeIntraStages p g y common stages latent) fun _ => True := by
  induction stages generalizing latent with
  | nil => exact .pure trivial
  | cons stage stages ih =>
      exact .bind (encodeIntraStage_submits hgood _ _ _ _) fun coded _ =>
        .bind (ih coded.2) fun _ _ => .pure trivial

theorem synthesizeIntra_submits (yHat qDec : List A.Half) (qp : ℕ) :
    Submits good (synthesizeIntra p assets g yHat qDec qp) fun frameHat =>
      frameHat.shape = g.frameShape :=
  .bind hostOp_submits fun _ _ => .bind (quantTensor_submits _ _ _) fun _ _ =>
    .bind (allocateTensor_submits _) fun _ hframe =>
    .bind (runIntraStage_submits hgood _ _) fun _ hwritten => .pure ((hwritten _ _).trans hframe)

theorem analyzeIntra_submits (frame : Frame) (qp : ℕ) :
    Submits good (analyzeIntra p assets g frame qp) fun analysis =>
      analysis.frameHat.shape = g.frameShape :=
  .bind (inputFrameTensor_submits _) fun _ _ => .bind (quantTensor_submits _ _ _) fun _ _ =>
    .bind (allocateTensor_submits _) fun _ _ => .bind (runIntraStage_submits hgood _ _) fun _ _ =>
    .bind (allocateTensor_submits _) fun _ _ => .bind hostOp_submits fun _ _ =>
    .bind (allocateTensor_submits _) fun _ _ => .bind (runIntraStage_submits hgood _ _) fun _ _ =>
    .bind hostOp_submits fun _ _ => .bind (hyperSynthesis_submits hgood _) fun _ _ =>
    .bind hostOp_submits fun _ _ => .bind request_submits fun _ _ =>
    .bind (encodeIntraStages_submits hgood _ _ _ _) fun _ _ =>
    .bind (synthesizeIntra_submits hgood _ _ _) fun _ hframe => .pure hframe

end Intra

section Predicted

variable {assets : PredictedAssets A} {reference : Binding A} {useFrameReference : Bool}

/-- Submissions that have the shapes of the frame if the reference has. -/
def FitsWith (g : Geometry) (useFrameReference : Bool) (reference : Binding A)
    (submission : Submission A) : Prop :=
  reference.FitsReference g useFrameReference → submission.Fits g

theorem runPredictedStage_submits {stage : PredictedStage} {inputs : List (Binding A)}
    (h : inputs.map Binding.named = g.stageInputs stage) :
    Submits (FitsWith g useFrameReference reference) (runStage p (.predicted stage) inputs)
      fun written => ∀ name buffer, (written name buffer).shape = buffer.shape :=
  runStage_submits fun _ => Submission.fits_predicted h

/-- The reference stage is the only one whose inputs depend on an earlier frame. -/
theorem referenceContexts_submits (qp : ℕ) :
    Submits (FitsWith g useFrameReference reference)
      (referenceContexts p assets g reference useFrameReference qp) fun contexts =>
      contexts.1.shape = g.featureShape ∧ contexts.2.shape = g.featureShape :=
  .bind (quantTensor_submits _ _ _) fun _ hq => .bind (allocateTensor_submits _)
    fun _ hcontext => .bind (allocateTensor_submits _) fun _ htemporal =>
    .bind (runStage_submits fun hfits => hfits.submission (congrArg (Prod.mk "q_feature") hq))
      fun _ hwritten =>
    .pure ⟨(hwritten _ _).trans hcontext, (hwritten _ _).trans htemporal⟩

theorem predictedPrior_submits {good : Submission A → Prop} {z temporalContext : Tensor A}
    (h : good ⟨.predicted .prior, [⟨"z_hat", z⟩, ⟨"temporal_context", temporalContext⟩]⟩) :
    Submits good (predictedPrior p g z temporalContext) fun _ => True :=
  .bind (allocateTensor_submits _) fun _ _ => .bind (runStage_submits h) fun _ _ => .pure trivial

theorem predictedSpatialPrior_submits {good : Submission A → Prop} {yHat params : List A.Half}
    (h : ∀ context, context.shape = g.yShape 512 →
      good ⟨.predicted .spatialPrior, [⟨"context", context⟩]⟩) :
    Submits good (predictedSpatialPrior p g yHat params) fun _ => True :=
  .bind (spatialContext_submits _ _) fun context hcontext => .bind (allocateTensor_submits _)
    fun _ _ => .bind (runStage_submits (h context hcontext)) fun _ _ => .pure trivial

theorem encodePredictedStage_submits {good : Submission A → Prop} (operation : String)
    (y scales means : List A.Half) (stage : ℕ) :
    Submits good (encodePredictedStage g operation y scales means stage) fun _ => True :=
  .bind hostOp_submits fun _ _ => .bind hostOp_submits fun _ _ => .bind hostOp_submits fun _ _ =>
    .bind hostOp_submits fun _ _ => .bind hostOp_submits fun _ _ => .pure trivial

/-- The shapes that a predicted frame leaves in the buffer. -/
def Reconstructed (g : Geometry) (frameHat feature : Tensor A) : Prop :=
  frameHat.shape = g.frameShape ∧ feature.shape = g.featureShape

theorem synthesizePredicted_submits {good : Submission A → Prop} {yHat : List A.Half}
    {context : Tensor A} (qp : ℕ)
    (h : ∀ qDecoder qRecon : Tensor A, qDecoder.shape = shape4d 256 1 1 →
      qRecon.shape = shape4d 320 1 1 → good ⟨.predicted .synthesis,
        [⟨"y_hat", g.yShape 128, yHat⟩, ⟨"context", context⟩, ⟨"q_decoder", qDecoder⟩,
          ⟨"q_recon", qRecon⟩]⟩) :
    Submits good (synthesizePredicted p assets g yHat context qp) fun tensors =>
      Reconstructed g tensors.1 tensors.2 :=
  .bind (quantTensor_submits _ _ _) fun _ hdecoder => .bind (quantTensor_submits _ _ _)
    fun _ hrecon => .bind (allocateTensor_submits _) fun _ hframe =>
    .bind (allocateTensor_submits _) fun _ hfeature =>
    .bind (runStage_submits (h _ _ hdecoder hrecon)) fun _ hwritten =>
    .pure ⟨(hwritten _ _).trans hframe, (hwritten _ _).trans hfeature⟩

/-- The stages behind the reference stage of a frame whose contexts have its shape. -/
theorem fits_prior {z temporalContext : Tensor A} (hz : z.shape = g.zShape)
    (htemporal : temporalContext.shape = g.featureShape) :
    Submission.Fits g
      ⟨.predicted .prior, [⟨"z_hat", z⟩, ⟨"temporal_context", temporalContext⟩]⟩ :=
  Submission.fits_predicted (by simp [Binding.named, Geometry.stageInputs, hz, htemporal])

theorem fits_spatialPrior {context : Tensor A} (hcontext : context.shape = g.yShape 512) :
    Submission.Fits g ⟨.predicted .spatialPrior, [⟨"context", context⟩]⟩ :=
  Submission.fits_predicted (by simp [Binding.named, Geometry.stageInputs, hcontext])

theorem fits_synthesis {yHat : List A.Half} {context qDecoder qRecon : Tensor A}
    (hcontext : context.shape = g.featureShape) (hdecoder : qDecoder.shape = shape4d 256 1 1)
    (hrecon : qRecon.shape = shape4d 320 1 1) :
    Submission.Fits g ⟨.predicted .synthesis,
      [⟨"y_hat", g.yShape 128, yHat⟩, ⟨"context", context⟩, ⟨"q_decoder", qDecoder⟩,
        ⟨"q_recon", qRecon⟩]⟩ :=
  Submission.fits_predicted (by
    simp [Binding.named, Geometry.stageInputs, hcontext, hdecoder, hrecon])

theorem analyzePredicted_submits {frame : Frame}
    (hframe : g = Geometry.ofSize frame.width frame.height) (qp : ℕ) :
    Submits (FitsWith g useFrameReference reference)
      (analyzePredicted p assets g frame reference useFrameReference qp) fun analysis =>
      Reconstructed g analysis.frameHat analysis.feature := by
  refine .bind (inputFrameTensor_submits frame) fun input hinput =>
    .bind (referenceContexts_submits qp) fun contexts hcontexts => ?_
  obtain ⟨hcontext, htemporal⟩ := hcontexts
  rw [← hframe] at hinput
  refine .bind (quantTensor_submits _ _ _) fun _ hquant => .bind (allocateTensor_submits _)
    fun _ _ => .bind (runPredictedStage_submits ?_) fun _ _ =>
    .bind (allocateTensor_submits _) fun _ hpadded => .bind hostOp_submits fun _ _ =>
    .bind (allocateTensor_submits _) fun _ hz => .bind (runPredictedStage_submits ?_)
      fun _ hwritten => .bind hostOp_submits fun _ _ =>
    .bind (predictedPrior_submits fun _ => fits_prior ((hwritten _ _).trans hz) htemporal)
      fun _ _ =>
    .bind hostOp_submits fun _ _ => .bind request_submits fun _ _ =>
    .bind (encodePredictedStage_submits _ _ _ _ _) fun _ _ =>
    .bind (predictedSpatialPrior_submits fun _ hshape _ => fits_spatialPrior hshape) fun _ _ =>
    .bind (encodePredictedStage_submits _ _ _ _ _) fun _ _ => .bind hostOp_submits fun _ _ =>
    .bind (synthesizePredicted_submits qp fun _ _ hdecoder hrecon _ =>
      fits_synthesis hcontext hdecoder hrecon) fun _ htensors => .pure htensors
  · simp [Binding.named, Geometry.stageInputs, hinput, hcontext, hquant]
  · simp [Binding.named, Geometry.stageInputs, hpadded]

end Predicted

end Work

namespace Pipeline

/-- A part of a frame that submits only good stages. -/
abbrev Submits {α : Type} (good : Submission A → Prop) (x : Pipeline A R α) (post : α → Prop) :
    Prop :=
  Action.Emits (fun state : PipelineState A R => state.activity.submissions) good x post

variable {good : Submission A → Prop} {α : Type}

theorem work_submits {x : Work A α} {post : α → Prop} (h : Work.Submits good x post) :
    Submits (R := R) good (work x) post :=
  h.zoom (fun _ => rfl) fun _ _ => rfl

theorem entropy_submits (step : RansCodec R → Result (α × RansCodec R)) :
    Submits good (entropy p step) fun _ => True := by
  refine .bind (work_submits Work.request_submits) fun _ _ => .bind (.of_keeps (.gets _))
    fun rans _ => ?_
  split
  · exact .fail
  · exact .bind (.of_keeps (.update fun _ => rfl)) fun _ _ => .pure trivial

theorem record_submits {f : PipelineState A R → PipelineState A R}
    (h : ∀ state, (f state).activity.submissions = state.activity.submissions) :
    Submits good (Action.update f : Pipeline A R Unit) fun _ => True :=
  .of_keeps (.update h)

theorem encodeY_submits (combined : List Int16) (group : ℕ) :
    Submits (R := R) good (encodeY p combined group) fun _ => True :=
  .bind (entropy_submits _) fun _ _ => record_submits fun _ => rfl

theorem encodeYs_submits (group : ℕ) (indexes : List (List Int16)) :
    Submits (R := R) good (encodeYs p group indexes) fun _ => True := by
  induction indexes with
  | nil => exact .pure trivial
  | cons combined indexes ih => exact .bind (encodeY_submits _ _) fun _ _ => ih

theorem encodeSymbols_submits (zGroup yGroup qp : ℕ) (zSymbols : List Int8)
    (indexes : List (List Int16)) :
    Submits (R := R) good (encodeSymbols p zGroup yGroup qp g zSymbols indexes) fun _ => True :=
  .bind (entropy_submits _) fun _ _ =>
    .bind (.bind (entropy_submits _) fun _ _ => record_submits fun _ => rfl) fun _ _ =>
    .bind (encodeYs_submits _ _) fun _ _ => entropy_submits _

theorem decodeY_submits (indexes : List UInt8) (group : ℕ) :
    Submits (R := R) good (decodeY p indexes group) fun _ => True :=
  .bind (entropy_submits _) fun _ _ => .bind (record_submits fun _ => rfl) fun _ _ =>
    .pure trivial

theorem decodeHyper_submits (operation : String) (zGroup qp : ℕ) :
    Submits (R := R) good (decodeHyper p operation zGroup qp g) fun z => z.shape = g.zShape := by
  refine .bind (.bind (entropy_submits _) fun _ _ => .bind (record_submits fun _ => rfl)
    fun _ _ => .pure trivial) fun zValues _ =>
    .bind (work_submits (Work.allocateTensor_submits _)) fun z hz => ?_
  split
  · exact .fail
  · exact .bind (work_submits Work.hostOp_submits) fun _ _ => .pure hz

section Intra

variable {assets : IntraAssets A} (hgood : ∀ stage inputs, good ⟨.intra stage, inputs⟩)

include hgood

theorem decodeIntraStage_submits (common : List A.Half) (stage : ℕ) (latent : Work.Latent A) :
    Submits (R := R) good (decodeIntraStage p assets g common stage latent) fun _ => True := by
  refine .bind (work_submits Work.hostOp_submits) fun _ _ =>
    .bind (work_submits Work.hostOp_submits) fun _ _ =>
    .bind (work_submits Work.hostOp_submits) fun _ _ => .bind (decodeY_submits _ _)
      fun decoded _ => ?_
  split
  · exact .fail
  · exact .bind (work_submits Work.hostOp_submits) fun _ _ =>
      .bind (work_submits Work.hostOp_submits) fun _ _ =>
      .bind (work_submits (Work.accumulate_submits _ _ _)) fun _ _ =>
      work_submits (Work.nextLatent_submits hgood _ _ _ _)

theorem decodeIntraStages_submits (common : List A.Half) (stages : List ℕ)
    (latent : Work.Latent A) :
    Submits (R := R) good (decodeIntraStages p assets g common stages latent) fun _ => True := by
  induction stages generalizing latent with
  | nil => exact .pure trivial
  | cons stage stages ih =>
      exact .bind (decodeIntraStage_submits hgood _ _ _) fun latent _ => ih latent

theorem decodeIntraTensor_submits (info : IntraPayload) :
    Submits (R := R) good (decodeIntraTensor p assets g info) fun frameHat =>
      frameHat.shape = g.frameShape :=
  .bind (entropy_submits _) fun _ _ => .bind (decodeHyper_submits _ _ _) fun _ _ =>
    .bind (work_submits (Work.hyperSynthesis_submits hgood _)) fun _ _ =>
    .bind (work_submits Work.hostOp_submits) fun _ _ =>
    .bind (work_submits Work.request_submits) fun _ _ =>
    .bind (decodeIntraStages_submits hgood _ _ _) fun _ _ =>
    work_submits (Work.synthesizeIntra_submits hgood _ _ _)

end Intra

section Predicted

variable {assets : PredictedAssets A} {reference : Binding A}

theorem decodePredictedStage_submits (preparation restoration : String)
    (scales means : List A.Half) (stage : ℕ) :
    Submits (R := R) good
      (decodePredictedStage p assets g preparation restoration scales means stage)
      fun _ => True := by
  refine .bind (work_submits Work.hostOp_submits) fun _ _ =>
    .bind (work_submits Work.hostOp_submits) fun _ _ =>
    .bind (work_submits Work.hostOp_submits) fun _ _ => .bind (decodeY_submits _ _)
      fun decoded _ => ?_
  split
  · exact .fail
  · exact .bind (work_submits Work.hostOp_submits) fun _ _ => work_submits Work.hostOp_submits

theorem decodePredictedTensors_submits (info : PredictedPayload) :
    Submits (R := R) (Work.FitsWith g info.useFrameReference reference)
      (decodePredictedTensors p assets g info reference) fun tensors =>
      Work.Reconstructed g tensors.1 tensors.2 := by
  refine .bind (work_submits (Work.referenceContexts_submits _)) fun contexts hcontexts => ?_
  obtain ⟨hcontext, htemporal⟩ := hcontexts
  exact .bind (entropy_submits _) fun _ _ => .bind (decodeHyper_submits _ _ _) fun _ hz =>
    .bind (work_submits (Work.predictedPrior_submits fun _ => Work.fits_prior hz htemporal))
      fun _ _ =>
    .bind (work_submits Work.hostOp_submits) fun _ _ =>
    .bind (work_submits Work.request_submits) fun _ _ =>
    .bind (decodePredictedStage_submits _ _ _ _ _) fun _ _ =>
    .bind (work_submits (Work.predictedSpatialPrior_submits fun _ hshape _ =>
      Work.fits_spatialPrior hshape)) fun _ _ =>
    .bind (decodePredictedStage_submits _ _ _ _ _) fun _ _ =>
    .bind (work_submits Work.hostOp_submits) fun _ _ =>
    work_submits (Work.synthesizePredicted_submits _ fun _ _ hdecoder hrecon _ =>
      Work.fits_synthesis hcontext hdecoder hrecon)

end Predicted

end Pipeline

end Nvcr.Rt
