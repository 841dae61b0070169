import Nvcr.RtDirections
import Nvcr.RtEntropyRestarts
import Nvcr.RtHostBackend

/-!
# The host backend keeps its directions apart

The two directions share the entropy sessions, of which only the tables are carried from frame to
frame. The generation of a sequence is compared and never computed with.
-/

namespace Nvcr.Rt

open StatefulResults StatefulResults.Action Codec HostOps RansCodec

section Pipelines

variable {A : HostArithmetic} {R : RansCoder} {α : Type} (p : Provider A)
  (tables : List RansCdfTable)

/-- Two pipelines that did the same work, with related entropy sessions. -/
def PipelineAlike (r : RansCodec R → RansCodec R → Prop) (state state' : PipelineState A R) :
    Prop :=
  state.activity = state'.activity ∧ r state.rans state'.rans

/-- A pipeline that gives the same result on both sides. Errors leave at least the tables. -/
def Repeats (r q : RansCodec R → RansCodec R → Prop) (x : Pipeline A R α) : Prop :=
  Relates (PipelineAlike r) (PipelineAlike q) (PipelineAlike (SameTables tables)) x x

variable {tables} {r q : RansCodec R → RansCodec R → Prop}

theorem Repeats.bind {β : Type} {t : RansCodec R → RansCodec R → Prop} {x : Pipeline A R α}
    {f : α → Pipeline A R β} (hx : Repeats tables r q x) (hf : ∀ a, Repeats tables q t (f a)) :
    Repeats tables r t (x >>= f) := Relates.bind hx hf

theorem Repeats.pure (a : α) : Repeats (A := A) (R := R) tables r r (pure a) :=
  Relates.pure (fun _ _ h => h) a

theorem Repeats.fail (hr : ∀ a b, r a b → SameTables tables a b) (e : Fault) :
    Repeats (A := A) (R := R) tables r r (Action.fail e : Pipeline A R α) :=
  Relates.fail (fun _ _ h => ⟨h.1, hr _ _ h.2⟩) e

theorem repeats_work (hr : ∀ a b, r a b → SameTables tables a b) (x : Work A α) :
    Repeats (R := R) tables r r (Pipeline.work x) := by
  rintro ⟨activity, rans⟩ ⟨activity', rans'⟩ ⟨hactivity, hrans⟩
  cases hactivity
  rcases hrun : x.run activity with ⟨e | value, later⟩
  · refine .inr ⟨e, ⟨later, rans⟩, ⟨later, rans'⟩, ?_, ?_, rfl, hr _ _ hrans⟩
    · simp only [Pipeline.work, run_zoom, hrun]
    · simp only [Pipeline.work, run_zoom, hrun]
  · refine .inl ⟨value, ⟨later, rans⟩, ⟨later, rans'⟩, ?_, ?_, rfl, hrans⟩
    · simp only [Pipeline.work, run_zoom, hrun]
    · simp only [Pipeline.work, run_zoom, hrun]

theorem repeats_entropy (hr : ∀ a b, r a b → SameTables tables a b)
    {step : RansCodec R → Result (α × RansCodec R)} (hstep : StepRelates r q step) :
    Repeats tables r q (Pipeline.entropy p step) := by
  refine (repeats_work hr _).bind fun _ => ?_
  refine Relates.gets_bind (fun _ _ h => h.2) fun rans rans' hrans => ?_
  rcases hstep rans rans' hrans with ⟨value, later, later', hok, hok', hlater⟩ | ⟨e, he, he'⟩
  · simp only [hok, hok']
    have hstore : Relates (PipelineAlike r) (PipelineAlike q) (PipelineAlike (SameTables tables))
        (Action.update fun state => { state with rans := later })
        (Action.update fun state => { state with rans := later' } : Pipeline A R Unit) :=
      Relates.update fun _ _ h => ⟨h.1, hlater⟩
    exact hstore.bind fun _ => Repeats.pure value
  · simp only [he, he']
    exact Relates.fail (fun _ _ h => ⟨h.1, hr _ _ h.2⟩) _

theorem repeats_recordEncoded (symbols : List Int8) :
    Repeats (A := A) (R := R) tables r r (Pipeline.recordEncoded symbols) := by
  refine Relates.update fun state state' h => ?_
  obtain ⟨hactivity, hrans⟩ := h
  exact ⟨by rw [hactivity], hrans⟩

theorem repeats_recordDecoded (symbols : List Int8) :
    Repeats (A := A) (R := R) tables r r (Pipeline.recordDecoded symbols) := by
  refine Relates.update fun state state' h => ?_
  obtain ⟨hactivity, hrans⟩ := h
  exact ⟨by rw [hactivity], hrans⟩

section Encoding

private theorem encoderTables (a b : RansCodec R) (h : SameEncoder tables a b) :
    SameTables tables a b := h.sameTables

theorem repeats_encodeYs (group : ℕ) (batches : List (List Int16)) :
    Repeats (R := R) tables (SameEncoder tables) (SameEncoder tables)
      (Pipeline.encodeYs p group batches) := by
  induction batches with
  | nil => exact Repeats.pure ()
  | cons combined later ih =>
      refine Repeats.bind ?_ fun _ => ih
      refine (repeats_entropy p encoderTables (stepRelates_encodeY tables combined group)).bind ?_
      exact fun _ => repeats_recordEncoded _

/-- The entropy coding of a frame depends on the tables alone. -/
theorem repeats_encodeSymbols (zGroup yGroup qp : ℕ) (g : Geometry) (zSymbols : List Int8)
    (indexes : List (List Int16)) :
    Repeats (R := R) tables (SameTables tables) (SameTables tables)
      (Pipeline.encodeSymbols p zGroup yGroup qp g zSymbols indexes) := by
  have hfinish : Repeats (R := R) tables (SameEncoder tables) (SameTables tables)
      (Pipeline.finishEncode p) :=
    (repeats_entropy p encoderTables (stepRelates_finishEncode tables)).mono (fun _ _ h => h)
      (fun _ _ h => ⟨h.1, h.2.sameTables⟩) (fun _ _ h => h)
  refine (repeats_entropy p (fun _ _ h => h)
    (stepRelates_beginEncode tables g.twoCoders)).bind fun _ => ?_
  refine Repeats.bind ?_ fun _ => (repeats_encodeYs p yGroup indexes).bind fun _ => hfinish
  refine (repeats_entropy p encoderTables
    (stepRelates_encodeZ tables zSymbols zGroup (qp * 128) g.perChannel)).bind ?_
  exact fun _ => repeats_recordEncoded _

end Encoding

section Decoding

private theorem decoderTables (a b : RansCodec R) (h : SameDecoder tables a b) :
    SameTables tables a b := h.sameTables

theorem repeats_beginDecode (twoCoders : Bool) (stream : Bytes) :
    Repeats (R := R) tables (SameTables tables) (SameDecoder tables)
      (Pipeline.beginDecode p twoCoders stream) :=
  repeats_entropy p (fun _ _ h => h) (stepRelates_beginDecode tables twoCoders stream)

theorem repeats_decodeY (indexes : List UInt8) (group : ℕ) :
    Repeats (R := R) tables (SameDecoder tables) (SameDecoder tables)
      (Pipeline.decodeY p indexes group) := by
  refine (repeats_entropy p decoderTables (stepRelates_decodeY tables indexes group)).bind ?_
  intro symbols
  exact (repeats_recordDecoded symbols).bind fun _ => Repeats.pure symbols

theorem repeats_decodeHyper (operation : String) (zGroup qp : ℕ) (g : Geometry) :
    Repeats (R := R) tables (SameDecoder tables) (SameDecoder tables)
      (Pipeline.decodeHyper p operation zGroup qp g) := by
  have hdecode : Repeats (R := R) tables (SameDecoder tables) (SameDecoder tables)
      (Pipeline.decodeZ p (128 * g.perChannel) zGroup qp g.perChannel) := by
    refine (repeats_entropy p decoderTables (stepRelates_decodeZ tables _ _ _ _)).bind ?_
    intro symbols
    exact (repeats_recordDecoded symbols).bind fun _ => Repeats.pure symbols
  refine hdecode.bind fun symbols => (repeats_work decoderTables _).bind fun z => ?_
  split
  · exact Repeats.fail decoderTables _
  · exact (repeats_work decoderTables _).bind fun values => Repeats.pure _

theorem repeats_decodeIntraStage (assets : IntraAssets A) (g : Geometry) (common : List A.Half)
    (stage : ℕ) (latent : Work.Latent A) :
    Repeats (R := R) tables (SameDecoder tables) (SameDecoder tables)
      (Pipeline.decodeIntraStage p assets g common stage latent) := by
  refine (repeats_work decoderTables _).bind fun mask => ?_
  refine (repeats_work decoderTables _).bind fun scales => ?_
  refine (repeats_work decoderTables _).bind fun indexes => ?_
  refine (repeats_decodeY p indexes _).bind fun decoded => ?_
  split
  · exact Repeats.fail decoderTables _
  · refine (repeats_work decoderTables _).bind fun symbols => ?_
    refine (repeats_work decoderTables _).bind fun reconstructed => ?_
    refine (repeats_work decoderTables _).bind fun yHat => ?_
    exact repeats_work decoderTables _

theorem repeats_decodeIntraStages (assets : IntraAssets A) (g : Geometry) (common : List A.Half)
    (stages : List ℕ) (latent : Work.Latent A) :
    Repeats (R := R) tables (SameDecoder tables) (SameDecoder tables)
      (Pipeline.decodeIntraStages p assets g common stages latent) := by
  induction stages generalizing latent with
  | nil => exact Repeats.pure latent
  | cons stage stages ih =>
      exact (repeats_decodeIntraStage p assets g common stage latent).bind fun latent => ih latent

/-- Decoding a frame leaves the tables, whatever it does to the decoders. -/
theorem repeats_endDecode {x : Pipeline A R α}
    (h : Repeats tables (SameTables tables) (SameDecoder tables) x) :
    Repeats tables (SameTables tables) (SameTables tables) x :=
  h.mono (fun _ _ h => h) (fun _ _ h => ⟨h.1, h.2.sameTables⟩) (fun _ _ h => h)

theorem repeats_decodeIntraTensor (assets : IntraAssets A) (g : Geometry) (info : IntraPayload) :
    Repeats (R := R) tables (SameTables tables) (SameTables tables)
      (Pipeline.decodeIntraTensor p assets g info) := by
  refine repeats_endDecode ((repeats_beginDecode p info.twoCoders info.rans).bind fun _ => ?_)
  refine (repeats_decodeHyper p _ _ _ g).bind fun z => ?_
  refine (repeats_work decoderTables _).bind fun synthesis => ?_
  refine (repeats_work decoderTables _).bind fun params => ?_
  refine (repeats_work decoderTables _).bind fun _ => ?_
  refine (repeats_decodeIntraStages p assets g synthesis.2 [0, 1, 2, 3] _).bind fun latent => ?_
  exact repeats_work decoderTables _

theorem repeats_decodePredictedStage (assets : PredictedAssets A) (g : Geometry)
    (preparation restoration : String) (scales means : List A.Half) (stage : ℕ) :
    Repeats (R := R) tables (SameDecoder tables) (SameDecoder tables)
      (Pipeline.decodePredictedStage p assets g preparation restoration scales means stage) := by
  refine (repeats_work decoderTables _).bind fun mask => ?_
  refine (repeats_work decoderTables _).bind fun reduced => ?_
  refine (repeats_work decoderTables _).bind fun indexes => ?_
  refine (repeats_decodeY p indexes _).bind fun decoded => ?_
  split
  · exact Repeats.fail decoderTables _
  · exact (repeats_work decoderTables _).bind fun symbols => repeats_work decoderTables _

theorem repeats_decodePredictedTensors (assets : PredictedAssets A) (g : Geometry)
    (info : PredictedPayload) (reference : Binding A) :
    Repeats (R := R) tables (SameTables tables) (SameTables tables)
      (Pipeline.decodePredictedTensors p assets g info reference) := by
  refine (repeats_work (fun _ _ h => h) _).bind fun contexts => ?_
  refine repeats_endDecode ((repeats_beginDecode p info.twoCoders info.rans).bind fun _ => ?_)
  refine (repeats_decodeHyper p _ _ _ g).bind fun z => ?_
  refine (repeats_work decoderTables _).bind fun params => ?_
  refine (repeats_work decoderTables _).bind fun qDec => ?_
  refine (repeats_work decoderTables _).bind fun _ => ?_
  refine (repeats_decodePredictedStage p assets g _ _ _ _ 0).bind fun yHat => ?_
  refine (repeats_work decoderTables _).bind fun spatial => ?_
  refine (repeats_decodePredictedStage p assets g _ _ _ _ 1).bind fun reconstructed => ?_
  refine (repeats_work decoderTables _).bind fun yHat => ?_
  exact repeats_work decoderTables _

end Decoding

end Pipelines

namespace ReferenceState

/-- The same record, with generations counted from elsewhere. -/
structure Alike (d : UInt64) (reference reference' : ReferenceState) : Prop where
  hasFrame : reference'.hasFrame = reference.hasFrame
  hasFeature : reference'.hasFeature = reference.hasFeature
  nextFrameIndex : reference'.nextFrameIndex = reference.nextFrameIndex
  generation : reference.hasFrame = true → reference'.generation = reference.generation + d

variable {d : UInt64} {reference reference' : ReferenceState}

theorem Alike.matches_iff (h : Alike d reference reference') (view : SequenceStateView) :
    reference'.Matches (view.shifted d) ↔ reference.Matches view := by
  simp only [Matches, SequenceStateView.shifted, h.hasFrame, h.nextFrameIndex]
  refine and_congr_right fun hframe => and_congr_right fun _ => ?_
  rw [h.generation hframe]
  exact UInt64.add_left_inj d

theorem alike_commit (view : SequenceStateView) (hasFeature : Bool) :
    Alike d (commit view hasFeature) (commit (view.shifted d) hasFeature) :=
  ⟨rfl, rfl, rfl, fun _ => rfl⟩

theorem Alike.selectFrame_eq (h : Alike d reference reference') (baseQp : UInt32)
    (view : SequenceStateView) :
    selectFrame baseQp (view.shifted d) reference' = selectFrame baseQp view reference := by
  by_cases hmatches : reference.Matches view
  · have hmatches' := (h.matches_iff view).mpr hmatches
    simp only [selectFrame, require, if_pos hmatches, if_pos hmatches', h.hasFeature]
    rfl
  · have hmatches' := mt (h.matches_iff view).mp hmatches
    simp only [selectFrame, require, if_neg hmatches, if_neg hmatches']
    rfl

theorem Alike.validateDecodeReference_eq (h : Alike d reference reference')
    (useFrameReference : Bool) (view : SequenceStateView) :
    validateDecodeReference useFrameReference (view.shifted d) reference' =
      validateDecodeReference useFrameReference view reference := by
  by_cases hmatches : reference.Matches view
  · have hmatches' := (h.matches_iff view).mpr hmatches
    simp only [validateDecodeReference, require, if_pos hmatches, if_pos hmatches', h.hasFeature]
  · have hmatches' := mt (h.matches_iff view).mp hmatches
    simp only [validateDecodeReference, require, if_neg hmatches, if_neg hmatches']
    rfl

end ReferenceState

/-- The same decoded picture buffer, with generations counted from elsewhere. -/
structure HostDpb.Alike {A : HostArithmetic} (d : UInt64) (dpb dpb' : HostDpb A) : Prop where
  frame : dpb'.frame = dpb.frame
  feature : dpb'.feature = dpb.feature
  semantics : dpb.semantics.Alike d dpb'.semantics

section Frames

variable {A : HostArithmetic} {R : RansCoder} {α : Type} (p : Provider A)
  {tables : List RansCdfTable} {d : UInt64}

/-- Two states of a frame call that did the same work, with related picture buffers. -/
def FrameAlike (tables : List RansCdfTable) (D : HostDpb A → HostDpb A → Prop)
    (state state' : FrameState A R) : Prop :=
  PipelineAlike (SameTables tables) state.pipeline state'.pipeline ∧ D state.dpb state'.dpb

theorem relates_pipeline {D : HostDpb A → HostDpb A → Prop} {x : Pipeline A R α}
    (h : Repeats tables (SameTables tables) (SameTables tables) x) :
    Relates (FrameAlike tables D) (FrameAlike tables D) (FrameAlike tables D)
      (FrameWork.pipeline x) (FrameWork.pipeline x) := by
  rintro ⟨pipeline, dpb⟩ ⟨pipeline', dpb'⟩ ⟨hpipeline, hdpb⟩
  rcases h pipeline pipeline' hpipeline with
    ⟨value, later, later', hrun, hrun', hlater⟩ | ⟨e, later, later', hrun, hrun', hlater⟩
  · refine .inl ⟨value, ⟨later, dpb⟩, ⟨later', dpb'⟩, ?_, ?_, hlater, hdpb⟩
    · simp only [FrameWork.pipeline, run_zoom, hrun]
    · simp only [FrameWork.pipeline, run_zoom, hrun']
  · refine .inr ⟨e, ⟨later, dpb⟩, ⟨later', dpb'⟩, ?_, ?_, hlater, hdpb⟩
    · simp only [FrameWork.pipeline, run_zoom, hrun]
    · simp only [FrameWork.pipeline, run_zoom, hrun']

theorem relates_work {D : HostDpb A → HostDpb A → Prop} (x : Work A α) :
    Relates (FrameAlike (R := R) tables D) (FrameAlike tables D) (FrameAlike tables D)
      (FrameWork.pipeline (Pipeline.work x)) (FrameWork.pipeline (Pipeline.work x)) :=
  relates_pipeline (repeats_work (fun _ _ h => h) x)

theorem relates_storeDpb {D Q E : HostDpb A → HostDpb A → Prop} {dpb dpb' : HostDpb A}
    (h : Q dpb dpb') :
    Relates (FrameAlike (R := R) tables D) (FrameAlike tables Q) (FrameAlike tables E)
      (FrameWork.storeDpb dpb) (FrameWork.storeDpb dpb') :=
  Relates.update fun _ _ hstate => ⟨hstate.1, h⟩

theorem alike_intraDpb (frameHat : Tensor A) (view : SequenceStateView) :
    (FrameWork.intraDpb frameHat view).Alike d
      (FrameWork.intraDpb frameHat (view.shifted d)) :=
  ⟨rfl, rfl, ReferenceState.alike_commit view false⟩

theorem alike_predictedDpb (frameHat feature : Tensor A) (view : SequenceStateView) :
    (FrameWork.predictedDpb frameHat feature view).Alike d
      (FrameWork.predictedDpb frameHat feature (view.shifted d)) :=
  ⟨rfl, rfl, ReferenceState.alike_commit view true⟩

theorem relates_checkFrame {D : HostDpb A → HostDpb A → Prop} (frame : Frame)
    (formatMessage sizeMessage : String) :
    Relates (FrameAlike (R := R) tables D) (FrameAlike tables D) (FrameAlike tables D)
      (FrameWork.checkFrame frame formatMessage sizeMessage)
      (FrameWork.checkFrame frame formatMessage sizeMessage) := by
  unfold FrameWork.checkFrame
  split
  · exact Relates.fail (fun _ _ h => h) _
  · split
    · exact Relates.fail (fun _ _ h => h) _
    · exact Relates.pure (fun _ _ h => h) ()

/-- An intra payload is decoded alike over any two buffers, and leaves alike ones. -/
theorem relates_decodeIntra {D : HostDpb A → HostDpb A → Prop} (assets : IntraAssets A)
    (payload : Bytes) (timestamp : Timestamp) (view : SequenceStateView) :
    Relates (FrameAlike (R := R) tables D) (FrameAlike tables (HostDpb.Alike d))
      (FrameAlike tables D) (FrameWork.decodeIntra p assets payload timestamp view)
      (FrameWork.decodeIntra p assets payload timestamp (view.shifted d)) := by
  refine (Relates.lift (fun _ _ h => h) (fun _ _ h => h) _).bind fun info => ?_
  refine (relates_pipeline (repeats_decodeIntraTensor p assets _ info)).bind fun frameHat => ?_
  refine (relates_work _).bind fun frame => (relates_work _).bind fun _ => ?_
  refine (relates_storeDpb (alike_intraDpb frameHat view)).bind fun _ => ?_
  exact Relates.pure (fun _ _ h => h) _

/-- An intra frame is encoded alike over any two buffers, and leaves alike ones. A failed
verification leaves alike ones too. -/
theorem relates_encodeIntra {D : HostDpb A → HostDpb A → Prop}
    (hD : ∀ dpb dpb', HostDpb.Alike d dpb dpb' → D dpb dpb') (assets : IntraAssets A)
    (verifyReconstruction : Bool) (frame : Frame) (qp : UInt32) (view : SequenceStateView) :
    Relates (FrameAlike (R := R) tables D) (FrameAlike tables (HostDpb.Alike d))
      (FrameAlike tables D)
      (FrameWork.encodeIntra p assets verifyReconstruction frame qp view)
      (FrameWork.encodeIntra p assets verifyReconstruction frame qp (view.shifted d)) := by
  refine (relates_checkFrame frame _ _).bind fun _ => ?_
  refine (relates_work _).bind fun analysis => ?_
  refine (relates_pipeline (repeats_encodeSymbols p _ _ _ _ _ _)).bind fun stream => ?_
  refine (relates_work _).bind fun reconstructedFrame => ?_
  refine (relates_storeDpb (alike_intraDpb analysis.frameHat view)).bind fun _ => ?_
  cases verifyReconstruction with
  | false => exact Relates.pure (fun _ _ h => h) _
  | true =>
      have hdecode (payload : Bytes) : Relates (FrameAlike tables (HostDpb.Alike d))
          (FrameAlike (R := R) tables (HostDpb.Alike d)) (FrameAlike tables D)
          (FrameWork.decodeIntra p assets payload frame.timestamp view)
          (FrameWork.decodeIntra p assets payload frame.timestamp (view.shifted d)) :=
        (relates_decodeIntra p assets payload frame.timestamp view).mono
          (fun _ _ h => h) (fun _ _ h => h) (fun _ _ h => ⟨h.1, hD _ _ h.2⟩)
      exact (hdecode _).bind fun conformant => Relates.pure (fun _ _ h => h) _

theorem chosenReference_eq {dpb dpb' : HostDpb A} (h : dpb.Alike d dpb')
    (useFrameReference : Bool) :
    FrameWork.chosenReference dpb' useFrameReference =
      FrameWork.chosenReference dpb useFrameReference := by
  simp only [FrameWork.chosenReference, h.frame, h.feature]

/-- A predicted frame is encoded alike over alike buffers. -/
theorem relates_encodePredicted (assets : PredictedAssets A) (verifyReconstruction : Bool)
    (frame : Frame) (baseQp : UInt32) (view : SequenceStateView) :
    Relates (FrameAlike (R := R) tables (HostDpb.Alike d)) (FrameAlike tables (HostDpb.Alike d))
      (FrameAlike tables (HostDpb.Alike d))
      (FrameWork.encodePredicted p assets verifyReconstruction frame baseQp view)
      (FrameWork.encodePredicted p assets verifyReconstruction frame baseQp (view.shifted d)) := by
  refine (relates_checkFrame frame _ _).bind fun _ => ?_
  refine Relates.gets_bind (fun _ _ h => h.2) fun dpb dpb' hdpb => ?_
  simp only [hdpb.frame, hdpb.semantics.selectFrame_eq, chosenReference_eq hdpb]
  split
  · exact Relates.fail (fun _ _ h => h) _
  · refine (Relates.lift (fun _ _ h => h) (fun _ _ h => h) _).bind fun decision => ?_
    split
    · exact Relates.fail (fun _ _ h => h) _
    · refine (relates_work _).bind fun analysis => ?_
      refine (relates_pipeline (repeats_encodeSymbols p _ _ _ _ _ _)).bind fun stream => ?_
      have hstore (result : CodecEncodeResult) :
          Relates (FrameAlike (R := R) tables (HostDpb.Alike d))
            (FrameAlike tables (HostDpb.Alike d)) (FrameAlike tables (HostDpb.Alike d))
            (FrameWork.storeDpb
                (FrameWork.predictedDpb analysis.frameHat analysis.feature view) >>=
              fun _ => pure result)
            (FrameWork.storeDpb (FrameWork.predictedDpb analysis.frameHat analysis.feature
                (view.shifted d)) >>= fun _ => pure result) :=
        (relates_storeDpb (alike_predictedDpb analysis.frameHat analysis.feature view)).bind
          fun _ => Relates.pure (fun _ _ h => h) _
      split
      · exact (relates_work _).bind fun reconstructedFrame => hstore _
      · exact hstore _

/-- A predicted payload is decoded alike over alike buffers. -/
theorem relates_decodePredicted (assets : PredictedAssets A) (payload : Bytes)
    (timestamp : Timestamp) (view : SequenceStateView) :
    Relates (FrameAlike (R := R) tables (HostDpb.Alike d)) (FrameAlike tables (HostDpb.Alike d))
      (FrameAlike tables (HostDpb.Alike d))
      (FrameWork.decodePredicted p assets payload timestamp view)
      (FrameWork.decodePredicted p assets payload timestamp (view.shifted d)) := by
  refine (Relates.lift (fun _ _ h => h) (fun _ _ h => h) _).bind fun info => ?_
  refine Relates.gets_bind (fun _ _ h => h.2) fun dpb dpb' hdpb => ?_
  simp only [hdpb.frame, hdpb.semantics.validateDecodeReference_eq, chosenReference_eq hdpb]
  split
  · exact Relates.fail (fun _ _ h => h) _
  · refine (Relates.lift (fun _ _ h => h) (fun _ _ h => h) _).bind fun _ => ?_
    split
    · exact Relates.fail (fun _ _ h => h) _
    · refine (relates_pipeline (repeats_decodePredictedTensors p assets _ info _)).bind ?_
      intro tensors
      refine (relates_work _).bind fun frame => ?_
      refine (relates_storeDpb (alike_predictedDpb tensors.1 tensors.2 view)).bind fun _ => ?_
      exact Relates.pure (fun _ _ h => h) _

end Frames

theorem HostDpb.alike_refl {A : HostArithmetic} (dpb : HostDpb A) : dpb.Alike 0 dpb :=
  ⟨rfl, rfl, rfl, rfl, rfl, fun _ => (UInt64.add_zero _).symm⟩

namespace HostBackend

variable {A : HostArithmetic} {R : RansCoder} {α : Type} {d : UInt64}

/-- Two states of a backend: the entropy sessions have the same tables. -/
def Kin (backend backend' : HostBackend A R) : Prop :=
  backend.intraRans.tables = backend'.intraRans.tables ∧
    backend.predictedRans.tables = backend'.predictedRans.tables

/-- The picture buffer of one direction, as it is read and stored. -/
structure IsBuffer (dpb : HostBackend A R → HostDpb A)
    (store : HostBackend A R → HostDpb A → HostBackend A R) : Prop where
  dpb_store : ∀ backend value, dpb (store backend value) = value
  store_intraRans : ∀ backend value, (store backend value).intraRans = backend.intraRans
  store_predictedRans : ∀ backend value,
    (store backend value).predictedRans = backend.predictedRans

theorem isBuffer_encoder : IsBuffer (R := R) (A := A) encoderDpb storeEncoder :=
  ⟨fun _ _ => rfl, fun _ _ => rfl, fun _ _ => rfl⟩

theorem isBuffer_decoder : IsBuffer (R := R) (A := A) decoderDpb storeDecoder :=
  ⟨fun _ _ => rfl, fun _ _ => rfl, fun _ _ => rfl⟩

section Calls

variable {dpb : HostBackend A R → HostDpb A}
  {store : HostBackend A R → HostDpb A → HostBackend A R} {D Q : HostDpb A → HostDpb A → Prop}
  {x y : FrameWork A R α}

theorem relates_runIntra (hbuffer : IsBuffer dpb store) (operation : String)
    (h : ∀ tables, Relates (FrameAlike tables D) (FrameAlike tables Q) (FrameAlike tables D) x y) :
    Relates (fun b b' => Kin b b' ∧ D (dpb b) (dpb b')) (fun b b' => Kin b b' ∧ Q (dpb b) (dpb b'))
      (fun b b' => Kin b b' ∧ D (dpb b) (dpb b'))
      (runIntra operation dpb store x) (runIntra operation dpb store y) := by
  rintro b b' ⟨⟨hintra, hpredicted⟩, hdpb⟩
  rcases h b'.intraRans.tables ⟨⟨{}, b.intraRans⟩, dpb b⟩ ⟨⟨{}, b'.intraRans⟩, dpb b'⟩
      ⟨⟨rfl, hintra, rfl⟩, hdpb⟩ with
    ⟨value, later, later', hrun, hrun', ⟨-, htables, htables'⟩, hlater⟩ |
    ⟨fault, later, later', hrun, hrun', ⟨-, htables, htables'⟩, hlater⟩
  · refine .inl ⟨value, _, _, runIntra_run hrun, runIntra_run hrun', ⟨?_, ?_⟩, ?_⟩
    · rw [hbuffer.store_intraRans, hbuffer.store_intraRans, htables, htables']
    · rw [hbuffer.store_predictedRans, hbuffer.store_predictedRans]
      exact hpredicted
    · rw [hbuffer.dpb_store, hbuffer.dpb_store]
      exact hlater
  · refine .inr ⟨caught operation fault, _, _, runIntra_run hrun, runIntra_run hrun', ⟨?_, ?_⟩, ?_⟩
    · rw [hbuffer.store_intraRans, hbuffer.store_intraRans, htables, htables']
    · rw [hbuffer.store_predictedRans, hbuffer.store_predictedRans]
      exact hpredicted
    · rw [hbuffer.dpb_store, hbuffer.dpb_store]
      exact hlater

theorem relates_runPredicted (hbuffer : IsBuffer dpb store) (operation : String)
    (h : ∀ tables, Relates (FrameAlike tables D) (FrameAlike tables Q) (FrameAlike tables D) x y) :
    Relates (fun b b' => Kin b b' ∧ D (dpb b) (dpb b')) (fun b b' => Kin b b' ∧ Q (dpb b) (dpb b'))
      (fun b b' => Kin b b' ∧ D (dpb b) (dpb b'))
      (runPredicted operation dpb store x) (runPredicted operation dpb store y) := by
  rintro b b' ⟨⟨hintra, hpredicted⟩, hdpb⟩
  rcases h b'.predictedRans.tables ⟨⟨{}, b.predictedRans⟩, dpb b⟩
      ⟨⟨{}, b'.predictedRans⟩, dpb b'⟩ ⟨⟨rfl, hpredicted, rfl⟩, hdpb⟩ with
    ⟨value, later, later', hrun, hrun', ⟨-, htables, htables'⟩, hlater⟩ |
    ⟨fault, later, later', hrun, hrun', ⟨-, htables, htables'⟩, hlater⟩
  · refine .inl ⟨value, _, _, runPredicted_run hrun, runPredicted_run hrun', ⟨?_, ?_⟩, ?_⟩
    · rw [hbuffer.store_intraRans, hbuffer.store_intraRans]
      exact hintra
    · rw [hbuffer.store_predictedRans, hbuffer.store_predictedRans, htables, htables']
    · rw [hbuffer.dpb_store, hbuffer.dpb_store]
      exact hlater
  · refine .inr ⟨caught operation fault, _, _, runPredicted_run hrun, runPredicted_run hrun',
      ⟨?_, ?_⟩, ?_⟩
    · rw [hbuffer.store_intraRans, hbuffer.store_intraRans]
      exact hintra
    · rw [hbuffer.store_predictedRans, hbuffer.store_predictedRans, htables, htables']
    · rw [hbuffer.dpb_store, hbuffer.dpb_store]
      exact hlater

/-- A frame call leaves the tables of the session it uses. -/
theorem runIntra_kin (hbuffer : IsBuffer dpb store) (operation : String)
    (h : ∀ tables, Relates (FrameAlike tables D) (FrameAlike tables Q) (FrameAlike tables D) x y)
    {backend : HostBackend A R} (hdpb : D (dpb backend) (dpb backend)) :
    Kin ((runIntra operation dpb store x).run backend).2 backend := by
  rcases h backend.intraRans.tables ⟨⟨{}, backend.intraRans⟩, dpb backend⟩ _
      ⟨⟨rfl, rfl, rfl⟩, hdpb⟩ with
    ⟨value, later, -, hrun, -, ⟨-, htables, -⟩, -⟩ | ⟨fault, later, -, hrun, -, ⟨-, htables, -⟩, -⟩
  · rw [runIntra_run hrun, Kin, hbuffer.store_intraRans, hbuffer.store_predictedRans]
    exact ⟨htables, rfl⟩
  · rw [runIntra_run hrun, Kin, hbuffer.store_intraRans, hbuffer.store_predictedRans]
    exact ⟨htables, rfl⟩

theorem runPredicted_kin (hbuffer : IsBuffer dpb store) (operation : String)
    (h : ∀ tables, Relates (FrameAlike tables D) (FrameAlike tables Q) (FrameAlike tables D) x y)
    {backend : HostBackend A R} (hdpb : D (dpb backend) (dpb backend)) :
    Kin ((runPredicted operation dpb store x).run backend).2 backend := by
  rcases h backend.predictedRans.tables ⟨⟨{}, backend.predictedRans⟩, dpb backend⟩ _
      ⟨⟨rfl, rfl, rfl⟩, hdpb⟩ with
    ⟨value, later, -, hrun, -, ⟨-, htables, -⟩, -⟩ | ⟨fault, later, -, hrun, -, ⟨-, htables, -⟩, -⟩
  · rw [runPredicted_run hrun, Kin, hbuffer.store_intraRans, hbuffer.store_predictedRans]
    exact ⟨rfl, htables⟩
  · rw [runPredicted_run hrun, Kin, hbuffer.store_intraRans, hbuffer.store_predictedRans]
    exact ⟨rfl, htables⟩

end Calls

variable (setup : BackendSetup A)

/-- The encoder references agree up to a shift of the generations. -/
def EncoderSame (d : UInt64) (backend backend' : HostBackend A R) : Prop :=
  Kin backend backend' ∧ backend.encoderDpb.Alike d backend'.encoderDpb

/-- The decoder references agree up to a shift of the generations. -/
def DecoderSame (d : UInt64) (backend backend' : HostBackend A R) : Prop :=
  Kin backend backend' ∧ backend.decoderDpb.Alike d backend'.decoderDpb

theorem encode_laws : SequenceLaws
    (fun p frame type view => (hostBackend A R setup).encode p frame type view) Kin
    EncoderSame where
  kin h := h.1
  intra p frame d view := by
    have hframe := relates_runIntra (D := fun _ _ => True) (R := R) isBuffer_encoder
      "native frame encoding failed" fun tables => relates_encodeIntra (d := d) p (fun _ _ _ => trivial)
        setup.intra setup.verifyEncoderReconstruction frame setup.intraQp view
    exact hframe.mono (fun _ _ h => ⟨h, trivial⟩) (fun _ _ h => h) (fun _ _ h => h.1)
  same p frame type d view := by
    cases type with
    | intra =>
        exact relates_runIntra isBuffer_encoder "native frame encoding failed" fun tables =>
          relates_encodeIntra p (fun _ _ h => h) setup.intra setup.verifyEncoderReconstruction frame
            setup.intraQp view
    | predicted =>
        exact relates_runPredicted isBuffer_encoder "native frame encoding failed" fun tables =>
          relates_encodePredicted p setup.predicted setup.verifyEncoderReconstruction frame
            setup.intraQp view

theorem decode_laws : SequenceLaws
    (fun p (input : Bytes × Timestamp) type view =>
      (hostBackend A R setup).decode p input.1 type input.2 view) Kin DecoderSame where
  kin h := h.1
  intra p input d view := by
    have hframe := relates_runIntra (D := fun _ _ => True) (R := R) isBuffer_decoder
      "native frame decoding failed" fun tables => relates_decodeIntra (d := d) p setup.intra
        input.1 input.2 view
    exact hframe.mono (fun _ _ h => ⟨h, trivial⟩) (fun _ _ h => h) (fun _ _ h => h.1)
  same p input type d view := by
    cases type with
    | intra =>
        exact relates_runIntra isBuffer_decoder "native frame decoding failed" fun tables =>
          relates_decodeIntra p setup.intra input.1 input.2 view
    | predicted =>
        exact relates_runPredicted isBuffer_decoder "native frame decoding failed" fun tables =>
          relates_decodePredicted p setup.predicted input.1 input.2 view

theorem kin_symm {backend backend' : HostBackend A R} (h : Kin backend backend') :
    Kin backend' backend := ⟨h.1.symm, h.2.symm⟩

theorem kin_trans {backend backend' backend'' : HostBackend A R} (h : Kin backend backend')
    (h' : Kin backend' backend'') : Kin backend backend'' :=
  ⟨h.1.trans h'.1, h.2.trans h'.2⟩

/-- Encoding leaves the tables and the decoder's buffer. -/
theorem encode_keeps (p : Provider A) (frame : Frame) (type : FrameType)
    (view : SequenceStateView) (backend : HostBackend A R) :
    Kin ((encode setup p frame type view).run backend).2 backend ∧
      ((encode setup p frame type view).run backend).2.decoderDpb = backend.decoderDpb := by
  cases type with
  | intra =>
      refine ⟨runIntra_kin isBuffer_encoder _ (fun tables => relates_encodeIntra (d := 0) p
        (fun _ _ h => h) setup.intra setup.verifyEncoderReconstruction frame setup.intraQp view)
        (HostDpb.alike_refl _), rfl⟩
  | predicted =>
      refine ⟨runPredicted_kin isBuffer_encoder _ (fun tables => relates_encodePredicted (d := 0) p
        setup.predicted setup.verifyEncoderReconstruction frame setup.intraQp view)
        (HostDpb.alike_refl _), rfl⟩

/-- Decoding leaves the tables and the encoder's buffer. -/
theorem decode_keeps (p : Provider A) (payload : Bytes) (type : FrameType) (timestamp : Timestamp)
    (view : SequenceStateView) (backend : HostBackend A R) :
    Kin ((decode setup p payload type timestamp view).run backend).2 backend ∧
      ((decode setup p payload type timestamp view).run backend).2.encoderDpb =
        backend.encoderDpb := by
  cases type with
  | intra =>
      have hframe (tables : List RansCdfTable) :
          Relates (FrameAlike (R := R) tables (HostDpb.Alike 0))
            (FrameAlike tables (HostDpb.Alike 0)) (FrameAlike tables (HostDpb.Alike 0))
            (FrameWork.decodeIntra p setup.intra payload timestamp view)
            (FrameWork.decodeIntra p setup.intra payload timestamp (view.shifted 0)) :=
        relates_decodeIntra p setup.intra payload timestamp view
      exact ⟨runIntra_kin isBuffer_decoder _ hframe (HostDpb.alike_refl _), rfl⟩
  | predicted =>
      refine ⟨runPredicted_kin isBuffer_decoder _ (fun tables => relates_decodePredicted (d := 0) p
        setup.predicted payload timestamp view) (HostDpb.alike_refl _), rfl⟩

/-- The host backend meets the laws of separate directions. -/
def laws : (hostBackend A R setup).SeparateLaws where
  Kin := Kin
  EncoderSame := EncoderSame
  DecoderSame := DecoderSame
  encode := encode_laws setup
  decode := decode_laws setup
  flushAnswer p := p.reset
  flush _ _ := rfl
  kin_refl _ := ⟨rfl, rfl⟩
  kin_symm := kin_symm
  encoder_refl _ := ⟨⟨rfl, rfl⟩, HostDpb.alike_refl _⟩
  decoder_refl _ := ⟨⟨rfl, rfl⟩, HostDpb.alike_refl _⟩
  encode_kin p frame type view _ _ h := kin_trans (encode_keeps setup p frame type view _).1 h
  encode_decoder p frame type view d b b' h := by
    obtain ⟨hkin, hdpb⟩ := encode_keeps setup p frame type view b
    exact ⟨kin_trans hkin h.1, hdpb.symm ▸ h.2⟩
  decode_kin p payload type timestamp view _ _ h :=
    kin_trans (decode_keeps setup p payload type timestamp view _).1 h
  decode_encoder p payload type timestamp view d b b' h := by
    obtain ⟨hkin, hdpb⟩ := decode_keeps setup p payload type timestamp view b
    exact ⟨kin_trans hkin h.1, hdpb.symm ▸ h.2⟩
  resetEncoder_kin h := h
  resetEncoder_decoder h := h
  resetDecoder_kin h := h
  resetDecoder_encoder h := h

end HostBackend

/-- For every interleaving of calls of the two sessions over a host backend, the answers to the
encoder calls are those of the run without the decoder calls, and the other way round. -/
theorem Sessions.directions_independent {A : HostArithmetic} {R : RansCoder}
    (setup : BackendSetup A) (configuration : SessionConfiguration)
    (calls : List (Call (Provider A))) :
    TransitionRuns.answersTo Call.onEncoder (step (hostBackend A R setup) configuration)
        (initial configuration (HostBackend.initial setup)) calls =
      TransitionRuns.trace (step (hostBackend A R setup) configuration)
        (initial configuration (HostBackend.initial setup)) (calls.filter Call.onEncoder) ∧
    TransitionRuns.answersTo Call.onDecoder (step (hostBackend A R setup) configuration)
        (initial configuration (HostBackend.initial setup)) calls =
      TransitionRuns.trace (step (hostBackend A R setup) configuration)
        (initial configuration (HostBackend.initial setup)) (calls.filter Call.onDecoder) :=
  answers_independent (HostBackend.laws setup) _ calls

end Nvcr.Rt
