import Nvcr.RtDriftFreedom

/-!
# Progress of the DCVC-RT encoder

Without provider faults and with tables that have a row for every index, an encoder session
accepts every frame of a supported size whose access unit fits into a packet. A coder that
spends a bounded number of bytes on a symbol gives a bound on that access unit.
-/

namespace Nvcr.Rt

open StatefulResults Codec HostOps TransitionRuns RansCodec

variable {A : HostArithmetic} {R : RansCoder} {p : Provider A}

/-- With the given tables the coder spends its state and a number of bytes on every symbol. -/
def RansCoder.SpendsAtMost (R : RansCoder) (tables : List RansCdfTable) (cost : ℕ) : Prop :=
  ∀ pending, (R.flush tables pending).length ≤ 4 + cost * pending.length

namespace RansCodec

theorem mergeStreams_length_le (stream0 stream1 : Bytes) :
    (mergeStreams stream0 stream1).length ≤ stream0.length + stream1.length := by
  simp only [mergeStreams, List.length_append, List.length_reverse, List.length_take]
  omega

/-- The two sub-coders share the symbols of a batch. -/
theorem parts_length (batches : List (List CodedSymbol)) :
    (batches.flatMap (firstPart true)).length + (batches.flatMap secondPart).length =
      batches.flatten.length := by
  induction batches with
  | nil => rfl
  | cons batch batches ih =>
      simp only [List.flatMap_cons, List.flatten_cons, List.length_append, firstPart, secondPart,
        if_true, List.length_take, List.length_drop] at ih ⊢
      omega

theorem codedStream_length_le {tables : List RansCdfTable} {cost : ℕ}
    (hcost : R.SpendsAtMost tables cost) (two : Bool) (batches : List (List CodedSymbol)) :
    (codedStream R tables two batches).length ≤ 8 + cost * batches.flatten.length := by
  have hfirst := hcost (batches.flatMap (firstPart two))
  cases two with
  | false =>
      have hwhole : batches.flatMap (firstPart false) = batches.flatten := by
        rw [← List.flatMap_id]
        rfl
      simp only [codedStream, Bool.false_eq_true, if_false]
      rw [hwhole] at hfirst ⊢
      omega
  | true =>
      have hsecond := hcost (batches.flatMap secondPart)
      have hmerged := mergeStreams_length_le
        (R.flush tables (batches.flatMap (firstPart true)))
        (R.flush tables (batches.flatMap secondPart))
      simp only [codedStream, if_true]
      rw [← parts_length batches, Nat.mul_add]
      omega

end RansCodec

namespace Pipeline

variable {g : Geometry} {zGroup yGroup qp : ℕ} {zSymbols : List Int8} {indexes : List (List Int16)}

theorem frameBatches_length {count : ℕ} (hindexes : ∀ combined ∈ indexes, combined.length = count) :
    (frameBatches zGroup yGroup qp g zSymbols indexes).flatten.length =
      zSymbols.length + indexes.length * count := by
  have hys : ((indexes.map (codedY yGroup)).flatten).length = indexes.length * count := by
    induction indexes with
    | nil => simp
    | cons combined indexes ih =>
        rw [List.map_cons, List.flatten_cons, List.length_append, codedY_length,
          hindexes combined List.mem_cons_self,
          ih fun other hother => hindexes other (List.mem_cons_of_mem combined hother),
          List.length_cons, Nat.succ_mul, Nat.add_comm]
  rw [frameBatches, List.flatten_cons, List.length_append, codedZ_length, hys]

/-- A table with a row for every index byte accepts every batch of y symbols. -/
theorem acceptsY_of_rows {tables : List RansCdfTable} {two : Bool} {table : RansCdfTable}
    (htable : tables[yGroup]? = some table) (hrows : 256 ≤ table.rows) {combined : List Int16}
    (hlength : 2 ≤ combined.length) : AcceptsY tables two yGroup (combined.map combinedRow) := by
  refine ⟨table, htable, fun row hrow => ?_, fun _ _ => by simpa using hlength⟩
  obtain ⟨value, -, rfl⟩ := List.mem_map.mp hrow
  have hbyte : combinedRow value < 256 := by
    unfold combinedRow
    omega
  omega

/-- A table with a row for every channel of the frame's QP accepts the z symbols. -/
theorem acceptsZ_of_rows {tables : List RansCdfTable} {two : Bool} {table : RansCdfTable}
    (htable : tables[zGroup]? = some table) (hrows : (qp + 1) * 128 ≤ table.rows)
    (hg : g.Supported) (hlength : zSymbols.length = 128 * g.perChannel) :
    AcceptsZ tables two zGroup (qp * 128) g.perChannel zSymbols.length := by
  have hpos := hg.perChannel_pos
  have hhalf : 128 * g.perChannel / 2 = 64 * g.perChannel := by omega
  rw [hlength]
  refine ⟨table, htable, ⟨by omega, Nat.mul_mod_left _ _⟩, ⟨by omega, ?_⟩, fun _ _ => ?_⟩
  · rw [Nat.mul_div_cancel _ hpos]
    omega
  · rw [hhalf]
    exact ⟨by omega, Nat.mul_mod_left _ _⟩

theorem acceptsSymbols_of_rows {tables : List RansCdfTable} {two : Bool}
    {zTable yTable : RansCdfTable} (hzTable : tables[zGroup]? = some zTable)
    (hzRows : (qp + 1) * 128 ≤ zTable.rows) (hyTable : tables[yGroup]? = some yTable)
    (hyRows : 256 ≤ yTable.rows) (hg : g.Supported) {count : ℕ} (hcount : 2 ≤ count)
    (hz : zSymbols.length = 128 * g.perChannel)
    (hindexes : ∀ combined ∈ indexes, combined.length = count) :
    AcceptsSymbols tables two zGroup yGroup qp g zSymbols indexes :=
  ⟨acceptsZ_of_rows hzTable hzRows hg hz, fun combined hcombined =>
    acceptsY_of_rows hyTable hyRows (by rw [hindexes combined hcombined]; exact hcount)⟩

end Pipeline

/-- The tables have a row for every channel of every QP and for every index byte. -/
structure BackendSetup.Complete (setup : BackendSetup A) : Prop where
  qp_lt : setup.intraQp.toNat < 64
  imageZ : ∃ table, setup.intra.tables[setup.intra.imageZGroup]? = some table ∧
    64 * 128 ≤ table.rows
  intraY : ∃ table, setup.intra.tables[setup.intra.gaussianYGroup]? = some table ∧
    256 ≤ table.rows
  videoZ : ∃ table, setup.predicted.tables[setup.predicted.videoZGroup]? = some table ∧
    72 * 128 ≤ table.rows
  predictedY : ∃ table, setup.predicted.tables[setup.predicted.gaussianYGroup]? = some table ∧
    256 ≤ table.rows

/-- The tables that frames of a type are coded with. -/
def BackendSetup.tables (setup : BackendSetup A) : FrameType → List RansCdfTable
  | .intra => setup.intra.tables
  | .predicted => setup.predicted.tables

/-- The symbols of an intra frame; predicted frames have fewer. -/
def Geometry.symbolCount (g : Geometry) : ℕ := 128 * g.perChannel + 256 * g.spatialCount

/-- The buffer can serve the predicted frame that a sequence expects. -/
structure HostDpb.Serves (dpb : HostDpb A) (view : SequenceStateView) : Prop where
  stored : dpb.frame.isNone = false
  current : dpb.semantics.Matches view
  feature : dpb.semantics.hasFeature = true → dpb.feature.isSome = true

/-- The buffer behind a coded frame serves the next one. -/
theorem HostDpb.serves_committed {dpb : HostDpb A} {state : SequenceState}
    {reconstructed : Frame} {latentState : Bytes} (hstored : dpb.frame.isNone = false)
    (hsemantics : ∃ hasFeature, dpb.semantics = ReferenceState.commit state.view hasFeature)
    (hfeature : dpb.semantics.hasFeature = true → dpb.feature.isSome = true) :
    dpb.Serves (state.committed reconstructed latentState).view := by
  obtain ⟨hasFeature, hsemantics⟩ := hsemantics
  refine ⟨hstored, ?_, hfeature⟩
  rw [hsemantics]
  exact ⟨rfl, rfl, rfl⟩

namespace FrameWork

variable {setup : BackendSetup A} {frame : Frame} {state : FrameState A R}
  {view : SequenceStateView} {cost : ℕ}

variable (state view) in
/-- Fault-free intra frames are encoded. -/
theorem encodeIntra_succeeds (hp : p.NoFaults) (hA : A.Exact) (hR : R.FifoInverse)
    (hcost : R.SpendsAtMost setup.intra.tables cost) (hcomplete : setup.Complete) (verify : Bool)
    (hframe : AcceptedFrame frame) (htables : state.pipeline.rans.tables = setup.intra.tables) :
    ∃ encoded state', (encodeIntra p setup.intra verify frame setup.intraQp view).run state =
        (.ok encoded, state') ∧
      encoded.effectiveQp.toNat < 64 ∧ encoded.reconstructedFrame.data.length ≠ 0 ∧
      encoded.payload ≠ [] ∧
      encoded.payload.length ≤
        28 + cost * (Geometry.ofSize frame.width frame.height).symbolCount ∧
      state'.pipeline.rans.tables = setup.intra.tables ∧
      ∃ tensor, state'.dpb = intraDpb tensor view := by
  have hg := Geometry.supported_ofSize hframe.2
  have hpos := hg.spatialCount_pos
  obtain ⟨analysis, hanalysis, hagrees⟩ := Work.exists_analyzeIntra (R := R) hp hA setup.intra
    hcomplete.qp_lt hframe.1 hframe.2
  obtain ⟨zTable, hzTable, hzRows⟩ := hcomplete.imageZ
  obtain ⟨yTable, hyTable, hyRows⟩ := hcomplete.intraY
  have hqp := hcomplete.qp_lt
  obtain ⟨encoded, state', hrun, ⟨hpayload, heffective, hpixels⟩, -, hdpb, htables', -⟩ :=
    encodeIntra_run hp hR verify view hframe hqp hanalysis hagrees htables
      (Pipeline.acceptsSymbols_of_rows hzTable (by omega) hyTable hyRows hg
        (by omega) hagrees.zSymbols_length hagrees.indexes_length)
  have hstream := codedStream_length_le hcost
    (Geometry.ofSize frame.width frame.height).twoCoders
    (Pipeline.frameBatches setup.intra.imageZGroup setup.intra.gaussianYGroup setup.intraQp.toNat
      (Geometry.ofSize frame.width frame.height) analysis.zSymbols analysis.indexes)
  rw [Pipeline.frameBatches_length hagrees.indexes_length, hagrees.zSymbols_length,
    hagrees.indexes_count] at hstream
  have hquarter : 4 * (256 * (Geometry.ofSize frame.width frame.height).spatialCount / 4) =
      256 * (Geometry.ofSize frame.width frame.height).spatialCount := by omega
  have hlength : encoded.payload.length = 20 + (Pipeline.frameStream R setup.intra.tables
      setup.intra.imageZGroup setup.intra.gaussianYGroup setup.intraQp.toNat
      (Geometry.ofSize frame.width frame.height) analysis.zSymbols analysis.indexes).length := by
    rw [hpayload]
    exact Payload.make_length _ _
  rw [hquarter] at hstream
  refine ⟨encoded, state', hrun, by rw [heffective]; exact hqp, hpixels, ?_, ?_, htables', _, hdpb⟩
  · intro hempty
    rw [hempty, List.length_nil] at hlength
    omega
  · rw [hlength, Geometry.symbolCount, Pipeline.frameStream]
    omega

theorem qpShift_le (frameIndex : UInt64) : (qpShift frameIndex).toNat ≤ 8 := by
  have hindex : (frameIndex % 8).toNat < 8 := by
    rw [UInt64.toNat_mod]
    exact Nat.mod_lt _ (by decide)
  unfold qpShift
  generalize (frameIndex % 8).toNat = position at hindex
  interval_cases position <;> decide

/-- A reference that belongs to the frame is selected with any QP of the configuration. -/
theorem selectFrame_succeeds {baseQp : UInt32} {reference : ReferenceState}
    (hqp : baseQp.toNat < 64) (hmatches : reference.Matches view) :
    ∃ decision, selectFrame baseQp view reference = .ok decision ∧ decision.qp.toNat < 72 ∧
      (decision.useFrameReference = false → reference.hasFeature = true) := by
  have hshift := qpShift_le view.frameIndex
  have hbase : baseQp < 64 := hqp
  have heffective : (baseQp + qpShift view.frameIndex).toNat =
      baseQp.toNat + (qpShift view.frameIndex).toNat := by
    rw [UInt32.toNat_add]
    omega
  have hbound : baseQp + qpShift view.frameIndex < 72 := by
    rw [UInt32.lt_iff_toNat_lt, heffective]
    exact Nat.lt_of_le_of_lt (Nat.add_le_add_left hshift _) (Nat.add_lt_add_right hqp 8)
  have hselect : selectFrame baseQp view reference = .ok ⟨baseQp + qpShift view.frameIndex,
      ¬ reference.hasFeature ∨ view.frameIndex % 64 = 1⟩ := by
    simp only [selectFrame, require, if_pos hmatches, if_pos hbase, if_pos hbound, ok_bind]
    rfl
  exact ⟨_, hselect, (selectFrame_eq_ok hselect).2⟩

theorem exists_chosenReference {dpb : HostDpb A} {useFrameReference : Bool}
    (hserves : dpb.Serves view)
    (huse : useFrameReference = false → dpb.semantics.hasFeature = true) :
    ∃ reference, chosenReference dpb useFrameReference = some reference := by
  cases useFrameReference with
  | true =>
      obtain ⟨tensor, htensor⟩ := Option.isSome_iff_exists.mp
        (Option.isNone_eq_false_iff.mp hserves.stored)
      exact ⟨⟨"reference_frame", tensor⟩, by simp [chosenReference, htensor]⟩
  | false =>
      obtain ⟨tensor, htensor⟩ := Option.isSome_iff_exists.mp (hserves.feature (huse rfl))
      exact ⟨⟨"reference_feature", tensor⟩, by simp [chosenReference, htensor]⟩

variable (state) in
/-- Fault-free predicted frames are encoded from a buffer that can serve them. -/
theorem encodePredicted_succeeds (hp : p.NoFaults) (hA : A.Exact) (hR : R.FifoInverse)
    (hcost : R.SpendsAtMost setup.predicted.tables cost) (hcomplete : setup.Complete) (verify : Bool)
    (hframe : AcceptedFrame frame) (htables : state.pipeline.rans.tables = setup.predicted.tables)
    (hserves : state.dpb.Serves view) :
    ∃ encoded state', (encodePredicted p setup.predicted verify frame setup.intraQp view).run state =
        (.ok encoded, state') ∧
      encoded.effectiveQp.toNat < 72 ∧ encoded.payload ≠ [] ∧
      encoded.payload.length ≤
        28 + cost * (Geometry.ofSize frame.width frame.height).symbolCount ∧
      state'.pipeline.rans.tables = setup.predicted.tables ∧
      (∃ tensor feature, state'.dpb = predictedDpb tensor feature view) ∧
      ∃ batches, batches.flatten ≠ [] ∧ encoded.payload.length =
        20 + (codedStream R setup.predicted.tables
          (Geometry.ofSize frame.width frame.height).twoCoders batches).length := by
  have hg := Geometry.supported_ofSize hframe.2
  have hpos := hg.spatialCount_pos
  obtain ⟨decision, hselect, hqp, huse⟩ := selectFrame_succeeds hcomplete.qp_lt hserves.current
  obtain ⟨reference, hreference⟩ := exists_chosenReference hserves huse
  obtain ⟨analysis, hanalysis, hagrees⟩ := Work.exists_analyzePredicted (R := R) hp hA
    setup.predicted reference decision.useFrameReference hqp hframe.1 hframe.2
  obtain ⟨zTable, hzTable, hzRows⟩ := hcomplete.videoZ
  obtain ⟨yTable, hyTable, hyRows⟩ := hcomplete.predictedY
  obtain ⟨encoded, state', hrun, ⟨hpayload, heffective⟩, -, hdpb, htables', -⟩ :=
    encodePredicted_run hp hR verify hframe hserves.stored hselect hreference hanalysis hagrees
      htables (Pipeline.acceptsSymbols_of_rows hzTable (by omega) hyTable hyRows hg
        (by omega) hagrees.zSymbols_length hagrees.indexes_length)
  have hstream := codedStream_length_le hcost
    (Geometry.ofSize frame.width frame.height).twoCoders
    (Pipeline.frameBatches setup.predicted.videoZGroup setup.predicted.gaussianYGroup
      decision.qp.toNat (Geometry.ofSize frame.width frame.height) analysis.zSymbols
      analysis.indexes)
  rw [Pipeline.frameBatches_length hagrees.indexes_length, hagrees.zSymbols_length,
    hagrees.indexes_count] at hstream
  have hcount : 128 * (Geometry.ofSize frame.width frame.height).perChannel +
      2 * (128 * (Geometry.ofSize frame.width frame.height).spatialCount / 2) ≤
      (Geometry.ofSize frame.width frame.height).symbolCount := by
    rw [Geometry.symbolCount]
    omega
  have hbytes := Nat.mul_le_mul_left cost hcount
  have hlength : encoded.payload.length = 20 + (Pipeline.frameStream R setup.predicted.tables
      setup.predicted.videoZGroup setup.predicted.gaussianYGroup decision.qp.toNat
      (Geometry.ofSize frame.width frame.height) analysis.zSymbols analysis.indexes).length := by
    rw [hpayload]
    exact Payload.make_length _ _
  refine ⟨encoded, state', hrun, by rw [heffective]; exact hqp, ?_, ?_, htables', ⟨_, _, hdpb⟩,
    _, ?_, hlength⟩
  · intro hempty
    rw [hempty, List.length_nil] at hlength
    omega
  · rw [hlength, Pipeline.frameStream]
    omega
  · rw [← List.length_pos_iff, Pipeline.frameBatches_length hagrees.indexes_length,
      hagrees.zSymbols_length]
    have hper := hg.perChannel_pos
    omega

end FrameWork

open FrameWork (AcceptedFrame)

namespace HostBackend

variable {setup : BackendSetup A} {frame : Frame} {backend : HostBackend A R}
  {state : SequenceState} {cost : ℕ}

/-- What encoding a frame of a complete fault-free session gives: a result that the session can
put into an access unit, and a buffer that serves the frame after it. -/
structure Progresses (setup : BackendSetup A) (cost : ℕ) (frame : Frame) (frameType : FrameType)
    (state : SequenceState) (encoded : CodecEncodeResult) (backend' : HostBackend A R) : Prop where
  qp_le : encoded.effectiveQp.toNat ≤ AccessUnitIo.maximumQp frameType
  pixels : frameType = .intra → encoded.reconstructedFrame.data.length ≠ 0
  payload_ne_nil : encoded.payload ≠ []
  payload_length : encoded.payload.length ≤
    28 + cost * (Geometry.ofSize frame.width frame.height).symbolCount
  tabled : backend'.Tabled setup
  serves : backend'.encoderDpb.Serves
    (state.committed encoded.reconstructedFrame encoded.latentState).view

theorem encode_progresses {frameType : FrameType} (hp : p.NoFaults) (hA : A.Exact)
    (hR : R.FifoInverse) (hcost : R.SpendsAtMost (setup.tables frameType) cost)
    (hcomplete : setup.Complete) (hframe : AcceptedFrame frame) (htabled : backend.Tabled setup)
    (hserves : frameType = .predicted → backend.encoderDpb.Serves state.view) :
    ∃ encoded backend', (encode setup p frame frameType state.view).run backend =
        (.ok encoded, backend') ∧
      Progresses setup cost frame frameType state encoded backend' := by
  cases frameType with
  | intra =>
      obtain ⟨encoded, last, hrun, hqp, hpixels, hpayload, hlength, htables, tensor, hdpb⟩ :=
        FrameWork.encodeIntra_succeeds ⟨⟨{}, backend.intraRans⟩, backend.encoderDpb⟩ state.view hp hA hR hcost hcomplete setup.verifyEncoderReconstruction hframe
          htabled.intra
      refine ⟨encoded, _, runIntra_run hrun, ?_, fun _ => hpixels, hpayload, hlength,
        ⟨htables, htabled.predicted⟩, ?_⟩
      · exact Nat.le_of_lt_succ hqp
      · simp only [storeEncoder, hdpb]
        exact HostDpb.serves_committed rfl ⟨false, rfl⟩ (fun h => by cases h)
  | predicted =>
      obtain ⟨encoded, last, hrun, hqp, hpayload, hlength, htables, ⟨tensor, feature, hdpb⟩, -⟩ :=
        FrameWork.encodePredicted_succeeds
          ⟨⟨{}, backend.predictedRans⟩, backend.encoderDpb⟩ hp hA hR hcost hcomplete setup.verifyEncoderReconstruction hframe
          htabled.predicted (hserves rfl)
      refine ⟨encoded, _, runPredicted_run hrun, ?_, (fun h => by cases h), hpayload, hlength,
        ⟨htabled.intra, htables⟩, ?_⟩
      · exact Nat.le_of_lt_succ hqp
      · simp only [storeEncoder, hdpb]
        exact HostDpb.serves_committed rfl ⟨true, rfl⟩ (fun _ => rfl)

end HostBackend

namespace Sessions

variable {setup : BackendSetup A} {configuration : SessionConfiguration} {cost : ℕ} {frame : Frame}

/-- Frames whose access unit fits into a packet at the given cost of a symbol. -/
def Fits (configuration : SessionConfiguration) (cost : ℕ) (frame : Frame) : Prop :=
  AccessUnitIo.fixedHeaderBytesV1 + configuration.bitstreamModelId.length + 28 +
    cost * (Geometry.ofSize frame.width frame.height).symbolCount ≤
    min configuration.maxPacketBytes (2 ^ 64 - 1)

/-- An open encoder session whose buffer serves the frame that comes next. -/
structure Encodes (setup : BackendSetup A) (sessions : Sessions (HostBackend A R)) : Prop where
  opened : sessions.encoderFlushed = false
  gopSize : sessions.core.encoderState.gopSize ≠ 0
  tabled : sessions.core.backend.Tabled setup
  serves : sessions.core.encoderState.hasReference = true →
    sessions.core.backend.encoderDpb.Serves sessions.core.encoderState.view

theorem encodes_initial (hgop : configuration.gopSize ≠ 0) :
    Encodes setup (initial configuration (HostBackend.initial setup) :
      Sessions (HostBackend A R)) where
  opened := rfl
  gopSize := hgop
  tabled := ⟨rfl, rfl⟩
  serves := fun h => nomatch h

/-- An accepted frame has pixels and dimensions that an access unit can carry. -/
theorem acceptedFrame_carried (hframe : AcceptedFrame frame) : frame.data.length ≠ 0 ∧
    AccessUnitIo.DimensionsInRange frame.width frame.height := by
  have hpositive := Work.supported_nonzero hframe.2
  have hbytes : frame.data.length ≠ 0 := by
    rcases frame.size_ok with hsize | ⟨hzero, -, -⟩
    · exact Nat.pos_iff_ne_zero.mp (Frame.frameSizeBytes_pos hsize)
    · exact absurd (.inl hzero) hpositive
  rw [not_or] at hpositive
  obtain ⟨-, -, hwidth, hheight, hevenWidth, hevenHeight⟩ := hframe.2
  have hpixels : frame.width.toNat * frame.height.toNat ≤ 1920 * 1080 :=
    Nat.mul_le_mul hwidth hheight
  refine ⟨hbytes, hpositive.1, hpositive.2, ?_, ?_, hevenWidth, hevenHeight, ?_⟩
  · exact hwidth.trans (by decide)
  · exact hheight.trans (by decide)
  · exact hpixels.trans (by decide)

theorem nextFrameType_succeeds {state : SequenceState} (hgop : state.gopSize ≠ 0) :
    ∃ frameType, state.nextFrameType = .ok frameType := by
  unfold SequenceState.nextFrameType
  rw [if_neg hgop]
  split
  · exact ⟨_, rfl⟩
  · exact ⟨_, rfl⟩

/-- What the backend returned becomes an access unit and a committed state. -/
theorem finished_succeeds {state : SequenceState} {encoded : CodecEncodeResult}
    {frameType : FrameType} {backend : HostBackend A R}
    (hmodel : AccessUnitIo.validModelId configuration.bitstreamModelId = true)
    (hframe : AcceptedFrame frame) (hfits : Fits configuration cost frame)
    (hreference : frameType = .predicted → state.hasReference = true)
    (h : HostBackend.Progresses setup cost frame frameType state encoded backend) :
    ∃ bytes, SessionCore.finished configuration frame frameType state encoded =
      .ok (bytes, state.committed encoded.reconstructedFrame encoded.latentState) := by
  have hidentifier : configuration.bitstreamModelId.length ≤ 128 := by
    simp only [AccessUnitIo.validModelId, AccessUnitIo.validIdentifier, Bool.and_eq_true,
      decide_eq_true_eq] at hmodel
    exact hmodel.1.2
  have hlength := h.payload_length
  obtain ⟨hpacket, hrange⟩ := Nat.le_min.mp hfits
  have hvalid : AccessUnitIo.ValidV1
      (SessionCore.accessUnit configuration frame frameType encoded) := by
    refine ⟨hmodel, (acceptedFrame_carried hframe).2, h.qp_le, rfl, h.payload_ne_nil⟩
  have hserialize : AccessUnitIo.serialize
      (SessionCore.accessUnit configuration frame frameType encoded) configuration.maxPacketBytes =
      .ok (AccessUnitIo.bytesV1
        (SessionCore.accessUnit configuration frame frameType encoded)) := by
    refine AccessUnitIo.serialize_eq_ok.mpr
      ⟨AccessUnitIo.validateV1Fields_eq_ok.mpr hvalid, ⟨?_, ?_, ?_⟩, rfl⟩
    · exact hidentifier.trans (by decide)
    · exact hlength.trans (by omega)
    · simp only [SessionCore.accessUnit]
      omega
  have hcommit : state.commit encoded.reconstructedFrame encoded.latentState frameType =
      .ok (state.committed encoded.reconstructedFrame encoded.latentState) :=
    SequenceState.commit_eq_ok.mpr ⟨h.pixels, hreference, rfl⟩
  refine ⟨AccessUnitIo.bytesV1 (SessionCore.accessUnit configuration frame frameType encoded), ?_⟩
  rw [SessionCore.finished, hserialize, ok_bind, hcommit, ok_bind]
  rfl

/-- A fault-free encoder session accepts every frame that fits, and stays ready for the next. -/
theorem Encodes.sendFrame (hp : p.NoFaults) (hA : A.Exact) (hR : R.FifoInverse)
    {sessions : Sessions (HostBackend A R)} (hcost : ∀ frameType,
      sessions.core.encoderState.nextFrameType = .ok frameType →
        R.SpendsAtMost (setup.tables frameType) cost) (hcomplete : setup.Complete)
    (hmodel : AccessUnitIo.validModelId configuration.bitstreamModelId = true)
    (h : Encodes setup sessions)
    (hframe : AcceptedFrame frame) (hfits : Fits configuration cost frame) :
    (step (hostBackend A R setup) configuration sessions (.sendFrame p frame)).1 =
        .status (.ok ()) ∧
      Encodes setup
        (step (hostBackend A R setup) configuration sessions (.sendFrame p frame)).2 := by
  obtain ⟨frameType, htype⟩ := nextFrameType_succeeds h.gopSize
  have hreference : frameType = .predicted → sessions.core.encoderState.hasReference = true := by
    rintro rfl
    exact SequenceState.hasReference_of_nextFrameType htype
  obtain ⟨encoded, backend, hencode, hprogress⟩ := HostBackend.encode_progresses hp hA hR
    (hcost frameType htype) hcomplete hframe h.tabled fun hpredicted => h.serves (hreference hpredicted)
  obtain ⟨bytes, hfinished⟩ := finished_succeeds hmodel hframe hfits hreference hprogress
  have hrun := SessionCore.encode_run (hostBackend A R setup) configuration p frame sessions.core
    (acceptedFrame_carried hframe).1
  have hbackend : ((hostBackend A R setup).encode p frame frameType
      sessions.core.encoderState.view).run sessions.core.backend = (.ok encoded, backend) := hencode
  simp only [htype, hbackend, hfinished] at hrun
  have hopened := h.opened
  simp only [step, Sessions.sendFrame, Action.run_bind, Action.run_gets, hopened, onCore,
    Action.run_zoom, hrun, Bool.false_eq_true, if_false]
  exact ⟨rfl, rfl, h.gopSize, hprogress.tabled, fun _ => hprogress.serves⟩

/-- Every fault-free run that sends frames which fit is accepted. -/
theorem allAccepted_of_fits (hp : p.NoFaults) (hA : A.Exact) (hR : R.FifoInverse)
    (hcost : ∀ frameType, R.SpendsAtMost (setup.tables frameType) cost)
    (hcomplete : setup.Complete)
    (hmodel : AccessUnitIo.validModelId configuration.bitstreamModelId = true)
    (hgop : configuration.gopSize ≠ 0) (frames : List Frame)
    (hframes : ∀ frame ∈ frames, AcceptedFrame frame ∧ Fits configuration cost frame) :
    AllAccepted setup configuration R (frames.map (Call.sendFrame p)) ∧
      Encodes setup (encoderAfter p setup configuration frames : Sessions (HostBackend A R)) := by
  induction frames using List.reverseRecOn with
  | nil => exact ⟨fun _ hmem => (nomatch hmem), encodes_initial hgop⟩
  | append_singleton frames frame ih =>
      obtain ⟨hearlier, hencodes⟩ := ih fun other hother =>
        hframes other (List.mem_append_left _ hother)
      obtain ⟨hframe, hfits⟩ := hframes frame (by simp)
      obtain ⟨hreply, hnext⟩ := hencodes.sendFrame hp hA hR (fun frameType _ => hcost frameType)
        hcomplete hmodel hframe hfits
      rw [encoderAfter, List.map_append, List.map_singleton, after_append_singleton,
        allAccepted_append]
      refine ⟨⟨hearlier, fun reply hmem => ?_⟩, hnext⟩
      rw [trace_cons, trace_nil, List.mem_singleton] at hmem
      rw [hmem]
      exact hreply

end Sessions

end Nvcr.Rt
