import Nvcr.RtFrameAgreement
import Nvcr.RtDecoderReferences

/-!
# Drift freedom of DCVC-RT

An encoder session and a decoder session that is fed its access units run in lockstep: every
access unit is accepted, its symbols are those that were encoded, and afterwards the two decoded
picture buffers hold the same tensors. The two sessions number their frames differently, since an
intra access unit restarts the decoder's sequence, so the relation compares the buffers and not
the records of what they belong to.
-/

namespace Nvcr.Rt

open StatefulResults Codec HostOps TransitionRuns RansCodec

variable {A : HostArithmetic} {R : RansCoder} {p : Provider A}

/-- The symbols of a frame in coding order. -/
def frameSymbols (zSymbols : List Int8) (indexes : List (List Int16)) : List (List Int8) :=
  zSymbols :: indexes.map (List.map combinedSymbol)

theorem frameBatches_symbols (zGroup yGroup qp : ℕ) (g : Geometry) (zSymbols : List Int8)
    (indexes : List (List Int16)) :
    (Pipeline.frameBatches zGroup yGroup qp g zSymbols indexes).map (List.map CodedSymbol.symbol) =
      frameSymbols zSymbols indexes := by
  rw [Pipeline.frameBatches, List.map_cons, codedZ_map_symbol, List.map_map, frameSymbols]
  congr 1
  apply List.map_congr_left
  intro combined _
  simp [codedY]

namespace FrameWork

theorem pipeline_run {α : Type} {x : Pipeline A R α} {state : FrameState A R}
    {result : Except Fault α} {pipelineState : PipelineState A R}
    (h : x.run state.pipeline = (result, pipelineState)) :
    (pipeline x).run state = (result, { state with pipeline := pipelineState }) := by
  rw [pipeline, Action.run_zoom, h]

theorem pipeline_work_run {α : Type} {x : Work A α} {value : α} (h : Work.Yields x value)
    (state : FrameState A R) :
    ∃ activity, (pipeline (Pipeline.work x)).run state =
        (.ok value, { state with pipeline := { state.pipeline with activity := activity } }) ∧
      activity.encoded = state.pipeline.activity.encoded ∧
      activity.decoded = state.pipeline.activity.decoded := by
  obtain ⟨activity, hrun, hsymbols⟩ := h state.pipeline.activity
  refine ⟨activity, pipeline_run ?_, congrArg Prod.fst hsymbols, congrArg Prod.snd hsymbols⟩
  rw [Pipeline.work, Action.run_zoom, hrun]

theorem pipeline_eq_ok {α : Type} {x : Pipeline A R α} {state state' : FrameState A R} {value : α}
    (h : (pipeline x).run state = (.ok value, state')) :
    x.run state.pipeline = (.ok value, state'.pipeline) ∧ state'.dpb = state.dpb := by
  rw [pipeline, Action.run_zoom] at h
  rw [Prod.mk.injEq] at h
  obtain ⟨hresult, rfl⟩ := h
  exact ⟨Prod.ext hresult rfl, rfl⟩

theorem pipeline_work_eq_ok {α : Type} {x : Work A α} {state state' : FrameState A R} {value : α}
    (h : (pipeline (Pipeline.work x)).run state = (.ok value, state')) :
    x.run state.pipeline.activity = (.ok value, state'.pipeline.activity) ∧
      state'.pipeline.rans = state.pipeline.rans ∧ state'.dpb = state.dpb := by
  obtain ⟨hrun, hdpb⟩ := pipeline_eq_ok h
  rw [Pipeline.work, Action.run_zoom, Prod.mk.injEq] at hrun
  obtain ⟨hresult, hstate⟩ := hrun
  rw [← hstate]
  exact ⟨Prod.ext hresult rfl, rfl, hdpb⟩

/-- The frames that pass the checks of both kinds. -/
def AcceptedFrame (frame : Frame) : Prop :=
  (frame.pixelFormat = .rgb24 ∨ frame.pixelFormat = .yuv420p8) ∧
    Payload.SupportedDimensions frame.width frame.height

theorem checkFrame_eq_ok {frame : Frame} {formatMessage sizeMessage : String}
    {state state' : FrameState A R} {u : Unit} :
    (checkFrame frame formatMessage sizeMessage).run state = (.ok u, state') ↔
      AcceptedFrame frame ∧ state' = state := by
  unfold checkFrame AcceptedFrame
  by_cases hformat : frame.pixelFormat ≠ .rgb24 ∧ frame.pixelFormat ≠ .yuv420p8
  · rw [if_pos hformat]
    constructor
    · intro h
      cases h
    · rintro ⟨⟨hrgb | hyuv, -⟩, -⟩
      · exact absurd hrgb hformat.1
      · exact absurd hyuv hformat.2
  · rw [if_neg hformat]
    have haccepted : frame.pixelFormat = .rgb24 ∨ frame.pixelFormat = .yuv420p8 := by
      rwa [not_and_or, not_not, not_not] at hformat
    by_cases hsize : Payload.SupportedDimensions frame.width frame.height
    · rw [if_neg (not_not.mpr hsize)]
      constructor
      · intro h
        cases h
        exact ⟨⟨haccepted, hsize⟩, rfl⟩
      · rintro ⟨-, rfl⟩
        rfl
    · rw [if_pos hsize]
      constructor
      · intro h
        cases h
      · exact fun h => absurd h.1.2 hsize

theorem quantTensor_eq_ok {table : List A.Float} {qp channels : ℕ} {activity activity' : Activity A}
    {tensor : Tensor A}
    (h : (Work.quantTensor p table qp channels).run activity = (.ok tensor, activity')) :
    qp * channels + channels ≤ table.length := by
  by_contra hshort
  simp only [Work.quantTensor, if_pos (Nat.lt_of_not_le hshort)] at h
  cases h

/-- A reconstructed picture has pixels. -/
theorem toYuv420p8_nonempty {tensor : Tensor A} {width height : UInt32} {timestamp : Timestamp}
    {frame : Frame} (h : toYuv420p8 tensor width height timestamp = .ok frame) :
    frame.data.length ≠ 0 := by
  obtain ⟨-, -, -, hbytes⟩ := toYuv420p8_eq_ok h
  exact Nat.pos_iff_ne_zero.mp (Frame.frameSizeBytes_pos hbytes)

section Intra

variable {assets : IntraAssets A}

/-- A payload from which every decoder with the assets rebuilds a frame tensor. -/
structure IntraCoded (R : RansCoder) (p : Provider A) (assets : IntraAssets A) (payload : Bytes)
    (width height : UInt32) (frameHat : Tensor A) (symbols : List (List Int8)) : Prop where
  decodes : ∀ (state : FrameState A R) (timestamp : Timestamp) (view : SequenceStateView),
    state.pipeline.rans.tables = assets.tables →
    ∃ frame state', (decodeIntra p assets payload timestamp view).run state =
        (.ok ⟨frame, serializeDpb frameHat⟩, state') ∧
      toYuv420p8 frameHat width height timestamp = .ok frame ∧
      state'.dpb = intraDpb frameHat view ∧ state'.pipeline.rans.tables = assets.tables ∧
      state'.pipeline.activity.encoded = state.pipeline.activity.encoded ∧
      state'.pipeline.activity.decoded = state.pipeline.activity.decoded ++ symbols

theorem intraCoded_of_agrees (hp : p.NoFaults) (info : IntraPayload)
    {analysis : Work.IntraAnalysis A} (hsize : Payload.SupportedDimensions info.width info.height)
    (hqp : info.qp.toNat < 64) (hrans : 4 ≤ info.rans.length)
    (hagrees : Work.IntraAgrees R p assets (Geometry.ofSize info.width info.height) info.qp.toNat
      analysis)
    (haccepts : Pipeline.AcceptsSymbols assets.tables info.twoCoders assets.imageZGroup
      assets.gaussianYGroup info.qp.toNat (Geometry.ofSize info.width info.height)
      analysis.zSymbols analysis.indexes)
    (hcarries : Pipeline.Carries R assets.tables info.twoCoders info.rans
      (Pipeline.frameBatches assets.imageZGroup assets.gaussianYGroup info.qp.toNat
        (Geometry.ofSize info.width info.height) analysis.zSymbols analysis.indexes)) :
    IntraCoded R p assets (makeIntraPayload info) info.width info.height analysis.frameHat
      (frameSymbols analysis.zSymbols analysis.indexes) := by
  refine ⟨fun state timestamp view htables => ?_⟩
  obtain ⟨pipelineState, hrun, htables', hencoded, hdecoded⟩ :=
    hagrees.decodes assets.tables info rfl haccepts hcarries state.pipeline htables
  obtain ⟨frame, hframe, hreconstruct⟩ := Work.reconstruct_yields hp hsize
    hagrees.frameHat_shape hagrees.frameHat_length timestamp
  obtain ⟨activity₁, hrun₁, hencoded₁, hdecoded₁⟩ :=
    pipeline_work_run hreconstruct { state with pipeline := pipelineState }
  obtain ⟨activity₂, hrun₂, hencoded₂, hdecoded₂⟩ :=
    pipeline_work_run (Work.request_yields hp)
      { state with pipeline := { pipelineState with activity := activity₁ } }
  have hparse : (Action.lift ((parseIntraPayload (makeIntraPayload info)).mapError Fault.error) :
      FrameWork A R IntraPayload).run state = (.ok info, state) := by
    rw [parseIntraPayload_make hsize hqp hrans]
    rfl
  refine ⟨frame, ⟨{ pipelineState with activity := activity₂ }, intraDpb analysis.frameHat view⟩,
    ?_, hframe, rfl, htables', ?_, ?_⟩
  · rw [decodeIntra, Action.run_bind_of_ok hparse, Action.run_bind_of_ok (pipeline_run hrun),
      Action.run_bind_of_ok hrun₁, Action.run_bind_of_ok hrun₂]
    rfl
  · exact hencoded₂.trans (hencoded₁.trans hencoded)
  · rw [frameBatches_symbols] at hdecoded
    exact hdecoded₂.trans (hdecoded₁.trans hdecoded)

/-- The payload of an analyzed intra frame. -/
def intraPayload (R : RansCoder) (assets : IntraAssets A) (frame : Frame) (qp : UInt32)
    (analysis : Work.IntraAnalysis A) : IntraPayload :=
  let g := Geometry.ofSize frame.width frame.height
  ⟨frame.width, frame.height, qp, g.twoCoders, Pipeline.frameStream R assets.tables
    assets.imageZGroup assets.gaussianYGroup qp.toNat g analysis.zSymbols analysis.indexes⟩

/-- An intra frame whose symbols the tables accept is encoded, with or without verification. -/
theorem encodeIntra_run (hp : p.NoFaults) (hR : R.FifoInverse) {frame : Frame} {qp : UInt32}
    {analysis : Work.IntraAnalysis A} {state : FrameState A R} (verify : Bool)
    (view : SequenceStateView) (hframe : AcceptedFrame frame) (hqp : qp.toNat < 64)
    (hanalysis : Work.Yields (Work.analyzeIntra p assets
      (Geometry.ofSize frame.width frame.height) frame qp.toNat) analysis)
    (hagrees : Work.IntraAgrees R p assets (Geometry.ofSize frame.width frame.height) qp.toNat
      analysis)
    (htables : state.pipeline.rans.tables = assets.tables)
    (haccepts : Pipeline.AcceptsSymbols assets.tables
      (Geometry.ofSize frame.width frame.height).twoCoders assets.imageZGroup
      assets.gaussianYGroup qp.toNat (Geometry.ofSize frame.width frame.height)
      analysis.zSymbols analysis.indexes) :
    ∃ encoded state', (encodeIntra p assets verify frame qp view).run state =
        (.ok encoded, state') ∧
      (encoded.payload = makeIntraPayload (intraPayload R assets frame qp analysis) ∧
        encoded.effectiveQp = qp ∧ encoded.reconstructedFrame.data.length ≠ 0) ∧
      IntraCoded R p assets encoded.payload frame.width frame.height analysis.frameHat
        (frameSymbols analysis.zSymbols analysis.indexes) ∧
      state'.dpb = intraDpb analysis.frameHat view ∧
      state'.pipeline.rans.tables = assets.tables ∧
      state'.pipeline.activity.encoded =
        state.pipeline.activity.encoded ++ frameSymbols analysis.zSymbols analysis.indexes := by
  have hg := Geometry.supported_ofSize hframe.2
  have hcheck : (checkFrame frame "native I-frame encoding requires RGB24 or YUV420P8"
      "native I-frame dimensions must be within 64x64 and 1920x1080").run state = (.ok (), state) :=
    checkFrame_eq_ok.mpr ⟨hframe, rfl⟩
  obtain ⟨activity₁, hrun₁, hencoded₁, -⟩ := pipeline_work_run hanalysis state
  let state₁ : FrameState A R :=
    { state with pipeline := { state.pipeline with activity := activity₁ } }
  have hne : analysis.zSymbols ≠ [] := by
    have hpos := hg.perChannel_pos
    intro hnil
    have hlength := hagrees.zSymbols_length
    rw [hnil, List.length_nil] at hlength
    omega
  have hvalid : ∀ table ∈ state₁.pipeline.rans.tables, table.validateCdf = .ok () := by
    intro table htable
    exact assets.tables_ok table (htables ▸ htable)
  have haccepts₁ := haccepts
  rw [← htables] at haccepts₁
  obtain ⟨pipeline₂, hrun₂, hlength, hcarries, htables₂, hencoded₂, -⟩ :=
    Pipeline.encodeSymbols_run hp hR state₁.pipeline hvalid hne haccepts₁
  rw [htables] at hrun₂ hlength hcarries htables₂
  let info : IntraPayload := intraPayload R assets frame qp analysis
  have hcoded : IntraCoded R p assets (makeIntraPayload info) frame.width frame.height
      analysis.frameHat (frameSymbols analysis.zSymbols analysis.indexes) :=
    intraCoded_of_agrees hp info hframe.2 hqp hlength hagrees haccepts hcarries
  obtain ⟨reconstructed, hreconstructed, hreconstruct⟩ := Work.reconstruct_yields hp hframe.2
    hagrees.frameHat_shape hagrees.frameHat_length frame.timestamp
  obtain ⟨activity₃, hrun₃, hencoded₃, -⟩ :=
    pipeline_work_run hreconstruct { state₁ with pipeline := pipeline₂ }
  let state₃ : FrameState A R :=
    ⟨{ pipeline₂ with activity := activity₃ }, intraDpb analysis.frameHat view⟩
  have hsymbols : state₃.pipeline.activity.encoded = state.pipeline.activity.encoded ++
      frameSymbols analysis.zSymbols analysis.indexes :=
    hencoded₃.trans (hencoded₂.trans (congrArg (· ++ _) hencoded₁))
  have hanalyzed : (encodeIntra p assets verify frame qp view).run state =
      (if verify then do
        let conformant ← decodeIntra p assets (makeIntraPayload info) frame.timestamp view
        pure ⟨makeIntraPayload info, conformant.frame, conformant.latentState, qp⟩
      else pure ⟨makeIntraPayload info, reconstructed, [], qp⟩ :
        FrameWork A R CodecEncodeResult).run state₃ := by
    rw [encodeIntra, Action.run_bind_of_ok hcheck, Action.run_bind_of_ok hrun₁,
      Action.run_bind_of_ok (pipeline_run hrun₂), Action.run_bind_of_ok hrun₃]
    rfl
  cases verify with
  | false =>
      exact ⟨_, state₃, hanalyzed, ⟨rfl, rfl, toYuv420p8_nonempty hreconstructed⟩, hcoded, rfl,
        htables₂, hsymbols⟩
  | true =>
      obtain ⟨conformant, state₄, hdecode, hconformant, hdpb, htables₄, hencoded₄, -⟩ :=
        hcoded.decodes state₃ frame.timestamp view htables₂
      refine ⟨⟨makeIntraPayload info, conformant, serializeDpb analysis.frameHat, qp⟩, state₄, ?_,
        ⟨rfl, rfl, toYuv420p8_nonempty hconformant⟩, hcoded, hdpb, htables₄,
        hencoded₄.trans hsymbols⟩
      rw [hanalyzed, if_pos rfl, Action.run_bind_of_ok hdecode]
      rfl

/-- Every encoded intra frame can be decoded. -/
theorem encodeIntra_coded (hp : p.NoFaults) (hA : A.Exact) (hR : R.FifoInverse) {frame : Frame}
    {qp : UInt32} {verify : Bool} {view : SequenceStateView} {state state' : FrameState A R}
    {encoded : CodecEncodeResult} (htables : state.pipeline.rans.tables = assets.tables)
    (h : (encodeIntra p assets verify frame qp view).run state = (.ok encoded, state')) :
    ∃ frameHat symbols,
      IntraCoded R p assets encoded.payload frame.width frame.height frameHat symbols ∧
      state'.dpb = intraDpb frameHat view ∧ state'.pipeline.rans.tables = assets.tables ∧
      state'.pipeline.activity.encoded = state.pipeline.activity.encoded ++ symbols := by
  obtain ⟨_, state₁, hcheck, h₁⟩ := Action.run_bind_eq_ok.mp h
  obtain ⟨hframe, rfl⟩ := checkFrame_eq_ok.mp hcheck
  obtain ⟨analysis', state₂, hanalyze, h₂⟩ := Action.run_bind_eq_ok.mp h₁
  obtain ⟨stream, state₃, hstream, -⟩ := Action.run_bind_eq_ok.mp h₂
  obtain ⟨hanalyzed, hrans, -⟩ := pipeline_work_eq_ok hanalyze
  have hqp : qp.toNat < 64 := by
    obtain ⟨_, _, -, hrest⟩ := Action.run_bind_eq_ok.mp hanalyzed
    obtain ⟨_, _, hquant, -⟩ := Action.run_bind_eq_ok.mp hrest
    have hentry := quantTensor_eq_ok hquant
    rw [assets.qEncoder_length] at hentry
    omega
  obtain ⟨analysis, hyields, hagrees⟩ :=
    Work.exists_analyzeIntra (R := R) hp hA assets hqp hframe.1 hframe.2
  obtain rfl : analysis' = analysis := Except.ok.inj (hyields.unique hanalyzed).1
  have haccepts := Pipeline.encodeSymbols_eq_ok (pipeline_eq_ok hstream).1
  rw [hrans, htables] at haccepts
  obtain ⟨encoded', state'', hrun, -, hcoded, hdpb, htables', hencoded⟩ :=
    encodeIntra_run hp hR verify view hframe hqp hyields hagrees htables haccepts
  rw [hrun] at h
  cases h
  exact ⟨_, _, hcoded, hdpb, htables', hencoded⟩

end Intra

section Predicted

variable {assets : PredictedAssets A}

/-- The tensors of two buffers are the same, whatever frames they belong to. -/
structure SameReference (dpb dpb' : HostDpb A) : Prop where
  frame : dpb'.frame = dpb.frame
  feature : dpb'.feature = dpb.feature
  hasFeature : dpb'.semantics.hasFeature = dpb.semantics.hasFeature

/-- A payload from which every decoder with the assets and the reference rebuilds a frame and a
feature tensor. -/
structure PredictedCoded (R : RansCoder) (p : Provider A) (assets : PredictedAssets A)
    (payload : Bytes) (width height : UInt32) (dpb : HostDpb A) (frameHat feature : Tensor A)
    (symbols : List (List Int8)) : Prop where
  decodes : ∀ (state : FrameState A R) (timestamp : Timestamp) (view : SequenceStateView),
    state.pipeline.rans.tables = assets.tables → SameReference dpb state.dpb →
    state.dpb.semantics.Matches view →
    ∃ frame state', (decodePredicted p assets payload timestamp view).run state =
        (.ok ⟨frame, []⟩, state') ∧
      toYuv420p8 frameHat width height timestamp = .ok frame ∧
      state'.dpb = predictedDpb frameHat feature view ∧
      state'.pipeline.rans.tables = assets.tables ∧
      state'.pipeline.activity.encoded = state.pipeline.activity.encoded ∧
      state'.pipeline.activity.decoded = state.pipeline.activity.decoded ++ symbols

theorem predictedCoded_of_agrees (hp : p.NoFaults) (info : PredictedPayload) {dpb : HostDpb A}
    {reference : Binding A} {analysis : Work.PredictedAnalysis A}
    (hsize : Payload.SupportedDimensions info.width info.height) (hqp : info.qp.toNat < 72)
    (hrans : 4 ≤ info.rans.length) (hstored : dpb.frame.isNone = false)
    (hreference : chosenReference dpb info.useFrameReference = some reference)
    (hfeature : info.useFrameReference = false → dpb.semantics.hasFeature = true)
    (hagrees : Work.PredictedAgrees R p assets (Geometry.ofSize info.width info.height) reference
      info.useFrameReference info.qp.toNat analysis)
    (haccepts : Pipeline.AcceptsSymbols assets.tables info.twoCoders assets.videoZGroup
      assets.gaussianYGroup info.qp.toNat (Geometry.ofSize info.width info.height)
      analysis.zSymbols analysis.indexes)
    (hcarries : Pipeline.Carries R assets.tables info.twoCoders info.rans
      (Pipeline.frameBatches assets.videoZGroup assets.gaussianYGroup info.qp.toNat
        (Geometry.ofSize info.width info.height) analysis.zSymbols analysis.indexes)) :
    PredictedCoded R p assets (makePredictedPayload info) info.width info.height dpb
      analysis.frameHat analysis.feature (frameSymbols analysis.zSymbols analysis.indexes) := by
  refine ⟨fun state timestamp view htables hsame hmatches => ?_⟩
  obtain ⟨pipelineState, hrun, htables', hencoded, hdecoded⟩ :=
    hagrees.decodes assets.tables info rfl rfl haccepts hcarries state.pipeline htables
  obtain ⟨frame, hframe, hreconstruct⟩ := Work.reconstruct_yields hp hsize
    hagrees.frameHat_shape hagrees.frameHat_length timestamp
  obtain ⟨activity₁, hrun₁, hencoded₁, hdecoded₁⟩ :=
    pipeline_work_run hreconstruct { state with pipeline := pipelineState }
  have hparse : (Action.lift ((parsePredictedPayload (makePredictedPayload info)).mapError
      Fault.error) : FrameWork A R PredictedPayload).run state = (.ok info, state) := by
    rw [parsePredictedPayload_make hsize hqp hrans]
    rfl
  have hvalid : (Action.lift ((validateDecodeReference info.useFrameReference view
      state.dpb.semantics).mapError Fault.error) : FrameWork A R Unit).run state =
      (.ok (), state) := by
    have huse : info.useFrameReference = true ∨ state.dpb.semantics.hasFeature = true := by
      cases huse : info.useFrameReference with
      | true => exact .inl rfl
      | false => exact .inr (hsame.hasFeature.trans (hfeature huse))
    rw [validateDecodeReference_eq_ok.mpr ⟨hmatches, huse⟩]
    rfl
  have hgets : (Action.gets FrameState.dpb : FrameWork A R (HostDpb A)).run state =
      (.ok state.dpb, state) := rfl
  have hstored' : ¬ state.dpb.frame.isNone = true := by simp [hsame.frame, hstored]
  have hchosen : chosenReference state.dpb info.useFrameReference = some reference := by
    rw [← hreference, chosenReference, chosenReference, hsame.frame, hsame.feature]
  refine ⟨frame, ⟨{ pipelineState with activity := activity₁ },
    predictedDpb analysis.frameHat analysis.feature view⟩, ?_, hframe, rfl, htables', ?_, ?_⟩
  · rw [decodePredicted, Action.run_bind_of_ok hparse, Action.run_bind_of_ok hgets,
      if_neg hstored', Action.run_bind_of_ok hvalid]
    simp only [hchosen]
    rw [Action.run_bind_of_ok (pipeline_run hrun), Action.run_bind_of_ok hrun₁]
    rfl
  · exact hencoded₁.trans hencoded
  · rw [frameBatches_symbols] at hdecoded
    exact hdecoded₁.trans hdecoded

/-- The payload of an analyzed predicted frame. -/
def predictedPayload (R : RansCoder) (assets : PredictedAssets A) (frame : Frame)
    (decision : PredictedFrameDecision) (analysis : Work.PredictedAnalysis A) : PredictedPayload :=
  let g := Geometry.ofSize frame.width frame.height
  ⟨frame.width, frame.height, decision.qp, g.twoCoders, decision.useFrameReference,
    Pipeline.frameStream R assets.tables assets.videoZGroup assets.gaussianYGroup
      decision.qp.toNat g analysis.zSymbols analysis.indexes⟩

/-- A predicted frame whose symbols the tables accept is encoded, with or without a
reconstruction. -/
theorem encodePredicted_run (hp : p.NoFaults) (hR : R.FifoInverse) {frame : Frame}
    {baseQp : UInt32} {decision : PredictedFrameDecision} {reference : Binding A}
    {analysis : Work.PredictedAnalysis A} {state : FrameState A R} (verify : Bool)
    {view : SequenceStateView} (hframe : AcceptedFrame frame)
    (hstored : state.dpb.frame.isNone = false)
    (hdecision : selectFrame baseQp view state.dpb.semantics = .ok decision)
    (hreference : chosenReference state.dpb decision.useFrameReference = some reference)
    (hanalysis : Work.Yields (Work.analyzePredicted p assets
      (Geometry.ofSize frame.width frame.height) frame reference decision.useFrameReference
      decision.qp.toNat) analysis)
    (hagrees : Work.PredictedAgrees R p assets (Geometry.ofSize frame.width frame.height) reference
      decision.useFrameReference decision.qp.toNat analysis)
    (htables : state.pipeline.rans.tables = assets.tables)
    (haccepts : Pipeline.AcceptsSymbols assets.tables
      (Geometry.ofSize frame.width frame.height).twoCoders assets.videoZGroup
      assets.gaussianYGroup decision.qp.toNat (Geometry.ofSize frame.width frame.height)
      analysis.zSymbols analysis.indexes) :
    ∃ encoded state', (encodePredicted p assets verify frame baseQp view).run state =
        (.ok encoded, state') ∧
      (encoded.payload = makePredictedPayload (predictedPayload R assets frame decision analysis) ∧
        encoded.effectiveQp = decision.qp) ∧
      PredictedCoded R p assets encoded.payload frame.width frame.height state.dpb
        analysis.frameHat analysis.feature (frameSymbols analysis.zSymbols analysis.indexes) ∧
      state'.dpb = predictedDpb analysis.frameHat analysis.feature view ∧
      state'.pipeline.rans.tables = assets.tables ∧
      state'.pipeline.activity.encoded =
        state.pipeline.activity.encoded ++ frameSymbols analysis.zSymbols analysis.indexes := by
  have hg := Geometry.supported_ofSize hframe.2
  obtain ⟨hmatches, hqp, hfeature⟩ := selectFrame_eq_ok hdecision
  have hcheck : (checkFrame frame "native P-frame encoding requires RGB24 or YUV420P8"
      "native P-frame dimensions must be even and within 64x64 and 1920x1080").run state =
      (.ok (), state) := checkFrame_eq_ok.mpr ⟨hframe, rfl⟩
  have hgets : (Action.gets FrameState.dpb : FrameWork A R (HostDpb A)).run state =
      (.ok state.dpb, state) := rfl
  have hselect : (Action.lift ((selectFrame baseQp view state.dpb.semantics).mapError Fault.error) :
      FrameWork A R PredictedFrameDecision).run state = (.ok decision, state) := by
    rw [hdecision]
    rfl
  obtain ⟨activity₁, hrun₁, hencoded₁, -⟩ := pipeline_work_run hanalysis state
  let state₁ : FrameState A R :=
    { state with pipeline := { state.pipeline with activity := activity₁ } }
  have hne : analysis.zSymbols ≠ [] := by
    have hpos := hg.perChannel_pos
    intro hnil
    have hlength := hagrees.zSymbols_length
    rw [hnil, List.length_nil] at hlength
    omega
  have hvalid : ∀ table ∈ state₁.pipeline.rans.tables, table.validateCdf = .ok () := by
    intro table htable
    exact assets.tables_ok table (htables ▸ htable)
  have haccepts₁ := haccepts
  rw [← htables] at haccepts₁
  obtain ⟨pipeline₂, hrun₂, hlength, hcarries, htables₂, hencoded₂, -⟩ :=
    Pipeline.encodeSymbols_run hp hR state₁.pipeline hvalid hne haccepts₁
  rw [htables] at hrun₂ hlength hcarries htables₂
  let info : PredictedPayload := predictedPayload R assets frame decision analysis
  have hcoded : PredictedCoded R p assets (makePredictedPayload info) frame.width frame.height
      state.dpb analysis.frameHat analysis.feature
      (frameSymbols analysis.zSymbols analysis.indexes) :=
    predictedCoded_of_agrees hp info hframe.2 hqp hlength hstored hreference hfeature hagrees
      haccepts hcarries
  obtain ⟨reconstructed, -, hreconstruct⟩ := Work.reconstruct_yields hp hframe.2
    hagrees.frameHat_shape hagrees.frameHat_length frame.timestamp
  obtain ⟨activity₃, hrun₃, hencoded₃, -⟩ :=
    pipeline_work_run hreconstruct { state₁ with pipeline := pipeline₂ }
  have hanalyzed : (encodePredicted p assets verify frame baseQp view).run state =
      (do
        let reconstructedFrame ←
          if verify then
            pipeline (Pipeline.work (Work.reconstruct p analysis.frameHat frame.width frame.height
              frame.timestamp))
          else pure Frame.empty
        storeDpb (predictedDpb analysis.frameHat analysis.feature view)
        pure ⟨makePredictedPayload info, reconstructedFrame, [], decision.qp⟩ :
        FrameWork A R CodecEncodeResult).run { state₁ with pipeline := pipeline₂ } := by
    rw [encodePredicted, Action.run_bind_of_ok hcheck, Action.run_bind_of_ok hgets,
      if_neg (by simp [hstored]), Action.run_bind_of_ok hselect]
    simp only [hreference]
    rw [Action.run_bind_of_ok hrun₁, Action.run_bind_of_ok (pipeline_run hrun₂)]
    rfl
  cases verify with
  | false =>
      refine ⟨_, ⟨pipeline₂, predictedDpb analysis.frameHat analysis.feature view⟩, hanalyzed,
        ⟨rfl, rfl⟩, hcoded, rfl, htables₂, ?_⟩
      exact hencoded₂.trans (congrArg (· ++ _) hencoded₁)
  | true =>
      refine ⟨⟨makePredictedPayload info, reconstructed, [], decision.qp⟩,
        ⟨{ pipeline₂ with activity := activity₃ },
          predictedDpb analysis.frameHat analysis.feature view⟩, ?_, ⟨rfl, rfl⟩, hcoded, rfl,
        htables₂, ?_⟩
      · rw [hanalyzed, if_pos rfl, Action.run_bind_of_ok hrun₃]
        rfl
      · exact hencoded₃.trans (hencoded₂.trans (congrArg (· ++ _) hencoded₁))

/-- Every encoded predicted frame can be decoded from the same reference. -/
theorem encodePredicted_coded (hp : p.NoFaults) (hA : A.Exact) (hR : R.FifoInverse) {frame : Frame}
    {baseQp : UInt32} {verify : Bool} {view : SequenceStateView} {state state' : FrameState A R}
    {encoded : CodecEncodeResult} (htables : state.pipeline.rans.tables = assets.tables)
    (h : (encodePredicted p assets verify frame baseQp view).run state = (.ok encoded, state')) :
    ∃ frameHat feature symbols,
      PredictedCoded R p assets encoded.payload frame.width frame.height state.dpb frameHat feature
        symbols ∧
      state'.dpb = predictedDpb frameHat feature view ∧
      state'.pipeline.rans.tables = assets.tables ∧
      state'.pipeline.activity.encoded = state.pipeline.activity.encoded ++ symbols := by
  obtain ⟨_, state₁, hcheck, h₁⟩ := Action.run_bind_eq_ok.mp h
  obtain ⟨hframe, rfl⟩ := checkFrame_eq_ok.mp hcheck
  obtain ⟨dpb, state₂, hgets, h₂⟩ := Action.run_bind_eq_ok.mp h₁
  cases hgets
  clear h₁ hcheck
  split at h₂
  · cases h₂
  rename_i hstored
  obtain ⟨decision, state₃, hselect, h₃⟩ := Action.run_bind_eq_ok.mp h₂
  clear h₂
  have hdecision : selectFrame baseQp view state₁.dpb.semantics = .ok decision ∧
      state₃ = state₁ := by
    cases hcase : selectFrame baseQp view state₁.dpb.semantics with
    | error e =>
        rw [hcase] at hselect
        cases hselect
    | ok selected =>
        rw [hcase] at hselect
        cases hselect
        exact ⟨rfl, rfl⟩
  obtain ⟨hdecision, rfl⟩ := hdecision
  split at h₃
  · cases h₃
  rename_i reference hreference
  obtain ⟨analysis', state₄, hanalyze, h₄⟩ := Action.run_bind_eq_ok.mp h₃
  obtain ⟨stream, state₅, hstream, -⟩ := Action.run_bind_eq_ok.mp h₄
  obtain ⟨hanalyzed, hrans, -⟩ := pipeline_work_eq_ok hanalyze
  obtain ⟨-, hqp, -⟩ := selectFrame_eq_ok hdecision
  obtain ⟨analysis, hyields, hagrees⟩ := Work.exists_analyzePredicted (R := R) hp hA assets
    reference decision.useFrameReference hqp hframe.1 hframe.2
  obtain rfl : analysis' = analysis := Except.ok.inj (hyields.unique hanalyzed).1
  have haccepts := Pipeline.encodeSymbols_eq_ok (pipeline_eq_ok hstream).1
  rw [hrans, htables] at haccepts
  obtain ⟨encoded', state'', hrun, -, hcoded, hdpb, htables', hencoded⟩ :=
    encodePredicted_run hp hR verify hframe (Bool.eq_false_of_not_eq_true hstored) hdecision hreference hyields
      hagrees htables haccepts
  rw [hrun] at h
  cases h
  exact ⟨_, _, _, hcoded, hdpb, htables', hencoded⟩

end Predicted

end FrameWork

open FrameWork (SameReference)

/-- The entropy sessions hold the tables of the assets. -/
structure HostBackend.Tabled (setup : BackendSetup A) (backend : HostBackend A R) : Prop where
  intra : backend.intraRans.tables = setup.intra.tables
  predicted : backend.predictedRans.tables = setup.predicted.tables

namespace HostBackend

variable {setup : BackendSetup A} {backend backend' : HostBackend A R} {frame : Frame}
  {frameType : FrameType} {view : SequenceStateView} {encoded : CodecEncodeResult}

/-- A payload that every backend with the setup and the reference decodes, what it then holds, and
the symbols it reads. -/
def Decodable (R : RansCoder) (setup : BackendSetup A) (p : Provider A) (payload : Bytes)
    (frameType : FrameType) (width height : UInt32) (dpb : HostDpb A) (stored : HostDpb A)
    (symbols : List (List Int8)) : Prop :=
  ∀ (backend : HostBackend A R) (timestamp : Timestamp) (view : SequenceStateView),
    backend.Tabled setup →
    (frameType = .predicted → SameReference dpb backend.decoderDpb ∧
      backend.decoderDpb.semantics.Matches view) →
    ∃ frame latentState backend', (decode setup p payload frameType timestamp view).run backend =
        (.ok ⟨frame, latentState⟩, backend') ∧
      frame.width = width ∧ frame.height = height ∧
      Frame.frameSizeBytes frame.width frame.height frame.pixelFormat = .ok frame.data.length ∧
      SameReference stored backend'.decoderDpb ∧
      backend'.decoderDpb.semantics = ReferenceState.commit view stored.semantics.hasFeature ∧
      backend'.Tabled setup ∧ backend'.activity.decoded = symbols

/-- Every encoded frame can be decoded, to the buffer the encoder holds afterwards. -/
theorem encode_decodable (hp : p.NoFaults) (hA : A.Exact) (hR : R.FifoInverse)
    (htabled : backend.Tabled setup)
    (h : (encode setup p frame frameType view).run backend = (.ok encoded, backend')) :
    Decodable R setup p encoded.payload frameType frame.width frame.height backend.encoderDpb
        backend'.encoderDpb backend'.activity.encoded ∧
      backend'.Tabled setup := by
  cases frameType with
  | intra =>
      rcases hrun : (FrameWork.encodeIntra p setup.intra setup.verifyEncoderReconstruction frame
          setup.intraQp view).run ⟨⟨{}, backend.intraRans⟩, backend.encoderDpb⟩
        with ⟨fault | result, state⟩
      · rw [encode, runIntra_run hrun] at h
        cases h
      rw [encode, runIntra_run hrun] at h
      cases h
      obtain ⟨frameHat, symbols, hcoded, hdpb, htables, hencoded⟩ :=
        FrameWork.encodeIntra_coded hp hA hR htabled.intra hrun
      have hsymbols : state.pipeline.activity.encoded = symbols := by simpa using hencoded
      refine ⟨fun reader timestamp readerView hreader _ => ?_, htables, htabled.predicted⟩
      obtain ⟨decoded, state', hdecode, hyuv, hdpb', htables', -, hdecoded⟩ :=
        hcoded.decodes ⟨⟨{}, reader.intraRans⟩, reader.decoderDpb⟩ timestamp readerView hreader.intra
      obtain ⟨hwidth, hheight, -, hbytes⟩ := toYuv420p8_eq_ok hyuv
      refine ⟨decoded, _, _, runIntra_run hdecode, hwidth, hheight, hbytes, ?_, ?_,
        ⟨htables', hreader.predicted⟩, ?_⟩
      · simp only [storeDecoder, storeEncoder, hdpb, hdpb']
        exact ⟨rfl, rfl, rfl⟩
      · simp only [storeDecoder, storeEncoder, hdpb, hdpb']
        rfl
      · exact (by simpa using hdecoded : state'.pipeline.activity.decoded = symbols).trans
          hsymbols.symm
  | predicted =>
      rcases hrun : (FrameWork.encodePredicted p setup.predicted setup.verifyEncoderReconstruction
          frame setup.intraQp view).run ⟨⟨{}, backend.predictedRans⟩, backend.encoderDpb⟩
        with ⟨fault | result, state⟩
      · rw [encode, runPredicted_run hrun] at h
        cases h
      rw [encode, runPredicted_run hrun] at h
      cases h
      obtain ⟨frameHat, feature, symbols, hcoded, hdpb, htables, hencoded⟩ :=
        FrameWork.encodePredicted_coded hp hA hR htabled.predicted hrun
      have hsymbols : state.pipeline.activity.encoded = symbols := by simpa using hencoded
      refine ⟨fun reader timestamp readerView hreader hreference => ?_, htabled.intra, htables⟩
      obtain ⟨hsame, hmatches⟩ := hreference rfl
      obtain ⟨decoded, state', hdecode, hyuv, hdpb', htables', -, hdecoded⟩ :=
        hcoded.decodes ⟨⟨{}, reader.predictedRans⟩, reader.decoderDpb⟩ timestamp readerView
          hreader.predicted hsame hmatches
      obtain ⟨hwidth, hheight, -, hbytes⟩ := toYuv420p8_eq_ok hyuv
      refine ⟨decoded, _, _, runPredicted_run hdecode, hwidth, hheight, hbytes, ?_, ?_,
        ⟨hreader.intra, htables'⟩, ?_⟩
      · simp only [storeDecoder, storeEncoder, hdpb, hdpb']
        exact ⟨rfl, rfl, rfl⟩
      · simp only [storeDecoder, storeEncoder, hdpb, hdpb']
        rfl
      · exact (by simpa using hdecoded : state'.pipeline.activity.decoded = symbols).trans
          hsymbols.symm

end HostBackend

namespace SessionCore

variable {configuration : SessionConfiguration}

/-- The parts of a successful encode. -/
theorem encode_eq_ok {π σ : Type} {B : CodecBackend π σ} {p : π} {frame : Frame} {packet : Packet}
    {core core' : SessionCore σ}
    (h : (encode B configuration p frame).run core = (.ok packet, core')) :
    ∃ frameType encoded backend bytes state,
      core.encoderState.nextFrameType = .ok frameType ∧
      (B.encode p frame frameType core.encoderState.view).run core.backend =
        (.ok encoded, backend) ∧
      AccessUnitIo.serialize (accessUnit configuration frame frameType encoded)
        configuration.maxPacketBytes = .ok bytes ∧
      core.encoderState.commit encoded.reconstructedFrame encoded.latentState frameType =
        .ok state ∧
      packet = ⟨bytes, frame.timestamp, frameType⟩ ∧
      core' = { core with backend := backend, encoderState := state } := by
  by_cases hframe : frame.data.length = 0
  · simp only [encode, if_pos hframe] at h
    cases h
  rw [encode_run B configuration p frame core hframe] at h
  cases htype : core.encoderState.nextFrameType with
  | error e =>
      rw [htype] at h
      cases h
  | ok frameType =>
      simp only [htype] at h
      rcases hrun : (B.encode p frame frameType core.encoderState.view).run core.backend
        with ⟨e | encoded, backend⟩
      · rw [hrun] at h
        cases h
      · simp only [hrun] at h
        cases hfinished : finished configuration frame frameType core.encoderState encoded with
        | error e =>
            rw [hfinished] at h
            cases h
        | ok result =>
            obtain ⟨bytes, state⟩ := result
            rw [hfinished] at h
            cases h
            obtain ⟨serialized, hserialize, hrest⟩ := bind_eq_ok.mp hfinished
            obtain ⟨committed, hcommit, hpair⟩ := bind_eq_ok.mp hrest
            cases hpair
            exact ⟨frameType, encoded, backend, bytes, state, rfl, hrun, hserialize, hcommit, rfl,
              rfl⟩

/-- The decoder session reads back the access unit of an encoded frame. -/
theorem packetAccessUnit_serialized {frame : Frame} {frameType : FrameType}
    {encoded : CodecEncodeResult} {bytes : Bytes} (timestamp : Timestamp)
    (h : AccessUnitIo.serialize (accessUnit configuration frame frameType encoded)
      configuration.maxPacketBytes = .ok bytes) :
    packetAccessUnit configuration ⟨bytes, timestamp, frameType⟩ =
      .ok (some (AccessUnitIo.v1Fields (accessUnit configuration frame frameType encoded))) := by
  have hparse := AccessUnitIo.deserialize_serialize h
  obtain ⟨-, ⟨-, -, hlimit⟩, hbytes⟩ := AccessUnitIo.serialize_eq_ok.mp h
  have hlength : bytes.length ≤ configuration.maxPacketBytes := by
    rw [hbytes, AccessUnitIo.bytesV1_length]
    exact hlimit
  have hmagic : AccessUnitIo.hasMagic bytes = true := by
    rw [hbytes]
    simp [AccessUnitIo.hasMagic, AccessUnitIo.bytesV1, AccessUnitIo.magic]
  simp only [packetAccessUnit, require, if_pos hlength, ok_bind, if_pos hmagic, hparse,
    AccessUnitIo.v1Fields, accessUnit, if_true]
  rfl

end SessionCore

namespace Sessions

variable {setup : BackendSetup A} {configuration : SessionConfiguration}

/-- The two sessions hold the same reference tensors, and the decoder has a reference for its next
frame whenever the encoder has one. -/
structure Lockstep (setup : BackendSetup A) (encoder decoder : Sessions (HostBackend A R)) : Prop
    where
  encoderTabled : encoder.core.backend.Tabled setup
  decoderTabled : decoder.core.backend.Tabled setup
  reference : SameReference encoder.core.backend.encoderDpb decoder.core.backend.decoderDpb
  available : encoder.core.encoderState.hasReference = true →
    decoder.core.decoderState.hasReference = true ∧
      decoder.core.backend.decoderDpb.semantics.Matches decoder.core.decoderState.view
  decoderOpen : decoder.decoderFlushed = false

theorem lockstep_initial (setup : BackendSetup A) (configuration : SessionConfiguration) :
    Lockstep setup (initial configuration (HostBackend.initial setup) : Sessions (HostBackend A R))
      (initial configuration (HostBackend.initial setup)) where
  encoderTabled := ⟨rfl, rfl⟩
  decoderTabled := ⟨rfl, rfl⟩
  reference := ⟨rfl, rfl, rfl⟩
  available := fun h => nomatch h
  decoderOpen := rfl

/-- The parts of a successful send. -/
theorem sendFrame_eq_ok {π σ : Type} {B : CodecBackend π σ} {p : π} {frame : Frame}
    {sessions : Sessions σ}
    (h : (step B configuration sessions (.sendFrame p frame)).1 = .status (.ok ())) :
    ∃ packet core, (SessionCore.encode B configuration p frame).run sessions.core =
        (.ok packet, core) ∧
      (step B configuration sessions (.sendFrame p frame)).2 =
        { sessions with core := core, encoderOutputs := sessions.encoderOutputs ++ [packet] } := by
  simp only [step, sendFrame, Action.run_bind, Action.run_gets] at h ⊢
  cases hflushed : sessions.encoderFlushed with
  | true =>
      rw [hflushed] at h
      cases h
  | false =>
      rw [hflushed] at h
      rcases hrun : (SessionCore.encode B configuration p frame).run sessions.core
        with ⟨e | packet, core⟩
      · simp only [onCore, Action.run_bind, Action.run_zoom, hrun, Bool.false_eq_true,
          if_false] at h
        cases h
      · refine ⟨packet, core, rfl, ?_⟩
        simp [onCore, Action.run_bind, hrun, hflushed]

/-- The decoder session accepts the access unit of a frame that its backend can decode. -/
theorem sendAccessUnit_coded {frame : Frame} {frameType : FrameType} {encoded : CodecEncodeResult}
    {bytes : Bytes} {dpb stored : HostDpb A} {symbols : List (List Int8)}
    (decoder : Sessions (HostBackend A R))
    (hserialize : AccessUnitIo.serialize
      (SessionCore.accessUnit configuration frame frameType encoded)
      configuration.maxPacketBytes = .ok bytes)
    (hdecodable : HostBackend.Decodable R setup p encoded.payload frameType frame.width frame.height
      dpb stored symbols)
    (htabled : decoder.core.backend.Tabled setup) (hopen : decoder.decoderFlushed = false)
    (hreference : frameType = .predicted → decoder.core.decoderState.hasReference = true ∧
      SameReference dpb decoder.core.backend.decoderDpb ∧
      decoder.core.backend.decoderDpb.semantics.Matches decoder.core.decoderState.view) :
    ∃ decoder', step (hostBackend A R setup) configuration decoder
        (.sendAccessUnit p ⟨bytes, frame.timestamp, frameType⟩) = (.status (.ok ()), decoder') ∧
      decoder'.core.backend.Tabled setup ∧
      SameReference stored decoder'.core.backend.decoderDpb ∧
      decoder'.core.decoderState.hasReference = true ∧
      decoder'.core.backend.decoderDpb.semantics.Matches decoder'.core.decoderState.view ∧
      decoder'.decoderFlushed = false ∧ decoder'.core.backend.activity.decoded = symbols := by
  let unit := AccessUnitIo.v1Fields (SessionCore.accessUnit configuration frame frameType encoded)
  let core := SessionCore.prepared (some unit) decoder.core
  have hunit := SessionCore.packetAccessUnit_serialized frame.timestamp hserialize
  have hbackend : core.backend = decoder.core.backend :=
    (SessionCore.prepared_effect decoder.core (some unit)).1
  have hpredicted : frameType = .predicted → core = decoder.core := by
    rintro rfl
    rfl
  have hvalid : core.decoderState.validatePacket frameType = .ok () := by
    apply SequenceState.validatePacket_eq_ok.mpr
    intro htype
    rw [hpredicted htype]
    exact (hreference htype).1
  obtain ⟨output, latentState, backend, hdecode, hwidth, hheight, hbytes, hsame, hsemantics,
    htabled', hsymbols⟩ := hdecodable core.backend frame.timestamp core.decoderState.view
      (by rwa [hbackend]) (by
        intro htype
        rw [hpredicted htype]
        exact (hreference htype).2)
  obtain ⟨copied, hcopy⟩ := Frame.exists_copyFrom hbytes output.timestamp
  obtain ⟨rfl, hpixels⟩ := Frame.copyFrom_self hcopy
  have hsize : SessionCore.checkSize (some unit) copied = .ok () := by
    apply require_eq_ok.mpr
    intro announced hannounced
    cases hannounced
    exact ⟨hwidth, hheight⟩
  have hcommit : core.decoderState.commit copied latentState frameType =
      .ok (core.decoderState.committed copied latentState) := by
    refine SequenceState.commit_eq_ok.mpr ⟨fun _ => hpixels, fun htype => ?_, rfl⟩
    rw [hpredicted htype]
    exact (hreference htype).1
  have haccepted : SessionCore.accepted (some unit) core.decoderState ⟨copied, latentState⟩
      frameType = .ok (core.decoderState.committed copied latentState) := by
    rw [SessionCore.accepted, hsize, ok_bind, hcopy, ok_bind, hcommit]
  have hrun := SessionCore.decode_of_accepted (hostBackend A R setup) configuration p hunit hvalid
    hdecode haccepted
  refine ⟨{ decoder with
    core := { core with
      backend := backend
      decoderState := core.decoderState.committed copied latentState }
    decoderOutputs := decoder.decoderOutputs ++ [copied] }, ?_, htabled', hsame, rfl, ?_, hopen,
    hsymbols⟩
  · simp [step, sendAccessUnit, Action.run_bind, hopen, onCore, hrun, core, unit]
  · rw [hsemantics]
    exact ⟨rfl, rfl, rfl⟩

/-- One frame keeps the sessions in lockstep. -/
theorem Lockstep.sendFrame (hp : p.NoFaults) (hA : A.Exact) (hR : R.FifoInverse)
    {encoder decoder : Sessions (HostBackend A R)} (h : Lockstep setup encoder decoder)
    {frame : Frame}
    (hsend : (step (hostBackend A R setup) configuration encoder (.sendFrame p frame)).1 =
      .status (.ok ())) :
    ∃ packet decoder',
      (step (hostBackend A R setup) configuration encoder (.sendFrame p frame)).2.encoderOutputs =
        encoder.encoderOutputs ++ [packet] ∧
      step (hostBackend A R setup) configuration decoder (.sendAccessUnit p packet) =
        (.status (.ok ()), decoder') ∧
      Lockstep setup (step (hostBackend A R setup) configuration encoder (.sendFrame p frame)).2
        decoder' ∧
      decoder'.core.backend.activity.decoded = (step (hostBackend A R setup) configuration encoder
        (.sendFrame p frame)).2.core.backend.activity.encoded := by
  obtain ⟨packet, core, hencode, hnext⟩ := sendFrame_eq_ok hsend
  obtain ⟨frameType, encoded, backend, bytes, state, htype, hbackend, hserialize, hcommit, rfl,
    rfl⟩ := SessionCore.encode_eq_ok hencode
  obtain ⟨hdecodable, htabled⟩ := HostBackend.encode_decodable hp hA hR h.encoderTabled hbackend
  obtain ⟨-, -, rfl⟩ := SequenceState.commit_eq_ok.mp hcommit
  obtain ⟨decoder', hstep, htabled', hsame, hreference, hmatches, hopen, hsymbols⟩ :=
    sendAccessUnit_coded decoder hserialize hdecodable h.decoderTabled h.decoderOpen
      (by
        rintro rfl
        obtain ⟨hreference, hmatches⟩ :=
          h.available (SequenceState.hasReference_of_nextFrameType htype)
        exact ⟨hreference, h.reference, hmatches⟩)
  refine ⟨_, decoder', ?_, hstep, ?_, ?_⟩
  · rw [hnext]
  · rw [hnext]
    exact ⟨htabled, htabled', hsame, fun _ => ⟨hreference, hmatches⟩, hopen⟩
  · rw [hnext]
    exact hsymbols

section Runs

variable (setup configuration) (p)

/-- The encoder after it was sent a list of frames. -/
def encoderAfter (frames : List Frame) : Sessions (HostBackend A R) :=
  after setup configuration (frames.map (Call.sendFrame p))

/-- The decoder after it was sent a list of packets. -/
def decoderAfter (packets : List Packet) : Sessions (HostBackend A R) :=
  after setup configuration (packets.map (Call.sendAccessUnit p))

/-- Every one of the calls succeeds. -/
def AllAccepted (R : RansCoder) (calls : List (Call (Provider A))) : Prop :=
  ∀ reply ∈ trace (step (hostBackend A R setup) configuration)
    (initial configuration (HostBackend.initial setup)) calls, reply = .status (.ok ())

variable {setup configuration p}

theorem encoderAfter_append_singleton (frames : List Frame) (frame : Frame) :
    (encoderAfter p setup configuration (frames ++ [frame]) : Sessions (HostBackend A R)) =
      (step (hostBackend A R setup) configuration
        (encoderAfter p setup configuration frames) (.sendFrame p frame)).2 := by
  rw [encoderAfter, List.map_append]
  exact after_append_singleton

theorem allAccepted_append {earlier later : List (Call (Provider A))} :
    AllAccepted setup configuration R (earlier ++ later) ↔
      AllAccepted setup configuration R earlier ∧
      ∀ reply ∈ trace (step (hostBackend A R setup) configuration)
        (after setup configuration earlier) later, reply = .status (.ok ()) := by
  simp only [AllAccepted, trace_append, List.mem_append, or_imp, forall_and]
  rfl

/-- The runs of the two sessions stay in lockstep. -/
theorem run_lockstep (hp : p.NoFaults) (hA : A.Exact) (hR : R.FifoInverse) (frames : List Frame)
    (h : AllAccepted setup configuration R (frames.map (Call.sendFrame p))) :
    let encoder : Sessions (HostBackend A R) := encoderAfter p setup configuration frames
    let decoder : Sessions (HostBackend A R) :=
      decoderAfter p setup configuration encoder.encoderOutputs
    encoder.encoderOutputs.length = frames.length ∧
      AllAccepted setup configuration R (encoder.encoderOutputs.map (Call.sendAccessUnit p)) ∧
      Lockstep setup encoder decoder ∧
      decoder.core.backend.activity.decoded = encoder.core.backend.activity.encoded := by
  induction frames using List.reverseRecOn with
  | nil => exact ⟨rfl, fun _ hmem => (nomatch hmem), lockstep_initial setup configuration, rfl⟩
  | append_singleton frames frame ih =>
      rw [List.map_append, allAccepted_append] at h
      obtain ⟨hframes, hframe⟩ := h
      obtain ⟨hlength, haccepted, hlockstep, -⟩ := ih hframes
      have hsend := hframe _ List.mem_cons_self
      obtain ⟨packet, decoder', houtputs, hstep, hnext, hsymbols⟩ :=
        hlockstep.sendFrame hp hA hR hsend
      have hdecoder : (decoderAfter p setup configuration
          ((encoderAfter p setup configuration frames :
            Sessions (HostBackend A R)).encoderOutputs ++ [packet]) :
          Sessions (HostBackend A R)) = decoder' := by
        rw [decoderAfter, List.map_append]
        exact after_append_singleton.trans (congrArg Prod.snd hstep)
      simp only [encoderAfter_append_singleton, houtputs, hdecoder]
      refine ⟨by simp [hlength], ?_, hnext, hsymbols⟩
      rw [List.map_append, allAccepted_append]
      refine ⟨haccepted, fun reply hreply => ?_⟩
      rw [List.map_singleton, trace_cons, trace_nil, List.mem_singleton] at hreply
      rw [hreply]
      exact congrArg Prod.fst hstep

/-- Sent frames only add packets. -/
theorem encoderOutputs_append {B : CodecBackend (Provider A) (HostBackend A R)}
    {sessions : Sessions (HostBackend A R)} (frames : List Frame)
    (h : ∀ reply ∈ trace (step B configuration) sessions (frames.map (Call.sendFrame p)),
      reply = .status (.ok ())) :
    ∃ packets, (final (step B configuration) sessions
      (frames.map (Call.sendFrame p))).encoderOutputs = sessions.encoderOutputs ++ packets := by
  induction frames generalizing sessions with
  | nil => exact ⟨[], by simp⟩
  | cons frame frames ih =>
      obtain ⟨packet, core, -, hnext⟩ := sendFrame_eq_ok (h _ List.mem_cons_self)
      obtain ⟨packets, hpackets⟩ := ih fun reply hreply => h reply (List.mem_cons_of_mem _ hreply)
      refine ⟨packet :: packets, ?_⟩
      rw [List.map_cons, final_cons, hpackets, hnext]
      simp

end Runs

end Sessions

end Nvcr.Rt
