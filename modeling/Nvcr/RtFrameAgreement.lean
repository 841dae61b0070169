import Nvcr.RtFaultFree

/-!
# The decoder rebuilds what the encoder analyzed

For every frame the stages of the encoder give symbols and a reconstruction, and the decoder
that reads these symbols computes the same reconstruction. The statements pair the two sides of
each part of a frame.
-/

namespace Nvcr.Rt

open StatefulResults HostOps NestedLoops RansCodec

variable {A : HostArithmetic} {R : RansCoder} {p : Provider A} {g : Geometry} {α β : Type}

namespace Pipeline

section Rules

variable {tables : List RansCdfTable} {two : Bool} {batches : List (List CodedSymbol)}

theorem ReadsBatches.work_bind {x : Work A α} {f : α → Pipeline A R β} {a : α} {b : β}
    (hx : Work.Yields x a) (hf : ReadsBatches tables two (f a) batches b) :
    ReadsBatches tables two (Pipeline.work x >>= f) batches b :=
  ReadsBatches.bind (.work hx) hf

theorem ReadsBatches.cons {x : Pipeline A R α} {f : α → Pipeline A R β}
    {batch : List CodedSymbol} {a : α} {b : β} (hx : ReadsBatches tables two x [batch] a)
    (hf : ReadsBatches tables two (f a) batches b) :
    ReadsBatches tables two (x >>= f) (batch :: batches) b :=
  ReadsBatches.bind hx hf

theorem ReadsBatches.bind_work {x : Pipeline A R α} {f : α → Work A β} {a : α} {b : β}
    (hx : ReadsBatches tables two x batches a) (hf : Work.Yields (f a) b) :
    ReadsBatches tables two (x >>= fun a => Pipeline.work (f a)) batches b := by
  have h := ReadsBatches.bind (f := fun a => Pipeline.work (f a)) hx (.work hf)
  rwa [List.append_nil] at h

/-- A stream from which every session with the given tables and mode delivers the batches. -/
def Carries (R : RansCoder) (tables : List RansCdfTable) (two : Bool) (stream : Bytes)
    (batches : List (List CodedSymbol)) : Prop :=
  ∀ reader : RansCodec R, reader.tables = tables → reader.useTwoCoders = two →
    ∃ reader', reader.setStream stream = .ok reader' ∧ reader'.Delivers batches ∧
      reader'.tables = tables ∧ reader'.useTwoCoders = two

/-- A fault-free action that decodes the given batches from its own stream. -/
def Decodes (tables : List RansCdfTable) (x : Pipeline A R α) (batches : List (List CodedSymbol))
    (value : α) : Prop :=
  ∀ state, state.rans.tables = tables → ∃ state', x.run state = (.ok value, state') ∧
    state'.rans.tables = tables ∧ state'.activity.encoded = state.activity.encoded ∧
    state'.activity.decoded = state.activity.decoded ++ batches.map (List.map CodedSymbol.symbol)

theorem Decodes.work_bind {x : Work A α} {f : α → Pipeline A R β} {a : α} {b : β}
    (hx : Work.Yields x a) (hf : Decodes tables (f a) batches b) :
    Decodes tables (Pipeline.work x >>= f) batches b := by
  intro state htables
  obtain ⟨activity, hrun, hsymbols⟩ := hx state.activity
  have hwork : (Pipeline.work (R := R) x).run state = (.ok a, { state with activity := activity }) := by
    rw [Pipeline.work, Action.run_zoom, hrun]
  obtain ⟨state', hrest, htables', hencoded, hdecoded⟩ :=
    hf { state with activity := activity } htables
  refine ⟨state', ?_, htables', hencoded.trans (congrArg Prod.fst hsymbols), ?_⟩
  · rw [Action.run_bind_of_ok hwork, hrest]
  · have hsame : activity.decoded = state.activity.decoded := congrArg Prod.snd hsymbols
    rw [hdecoded, hsame]

/-- After the stream was set, the batches are read. -/
theorem Decodes.begin_bind (hp : p.NoFaults) {stream : Bytes} {f : Unit → Pipeline A R β} {b : β}
    (hcarries : Carries R tables two stream batches)
    (hf : ReadsBatches tables two (f ()) batches b) :
    Decodes tables (beginDecode p two stream >>= f) batches b := by
  intro state htables
  obtain ⟨fresh, hfresh, -, hfreshTables, hfreshTwo⟩ :=
    setUseTwoCoders_resetEncoder state.rans two
  obtain ⟨reader, hset, hdelivers, hreaderTables, hreaderTwo⟩ :=
    hcarries fresh (hfreshTables.trans htables) hfreshTwo
  have hbegin : (do
      let rans ← state.rans.resetEncoder.setUseTwoCoders two
      let rans ← rans.setStream stream
      pure ((), rans) : Result (Unit × RansCodec R)) = .ok ((), reader) := by
    rw [hfresh, ok_bind, hset, ok_bind]
    rfl
  rw [← List.append_nil batches] at hdelivers
  obtain ⟨state', hrun, htables', -, -, hencoded, hdecoded⟩ :=
    hf ⟨{ state.activity with requests := state.activity.requests + 1 }, reader⟩ [] hreaderTables
      hreaderTwo hdelivers
  refine ⟨state', ?_, htables', hencoded, hdecoded⟩
  rw [beginDecode, Action.run_bind_of_ok (entropy_run hp hbegin), hrun]

end Rules

section Encoding

/-- A successful call into the entropy session is a successful step of its codec. -/
theorem entropy_eq_ok {step : RansCodec R → Result (α × RansCodec R)}
    {state state' : PipelineState A R} {value : α}
    (h : (entropy p step).run state = (.ok value, state')) :
    step state.rans = .ok (value, state'.rans) := by
  obtain ⟨_, state₁, hwork, h₁⟩ := Action.run_bind_eq_ok.mp h
  have hrans : state₁.rans = state.rans := by
    have hsecond := congrArg (fun result => PipelineState.rans (Prod.snd result)) hwork
    exact hsecond.symm
  obtain ⟨rans, state₂, hgets, h₂⟩ := Action.run_bind_eq_ok.mp h₁
  cases hgets
  rw [hrans] at h₂
  cases hstep : step state.rans with
  | error e =>
      rw [hstep] at h₂
      cases h₂
  | ok result =>
      obtain ⟨result, rans⟩ := result
      rw [hstep] at h₂
      cases h₂
      rfl

/-- The same for a call that only changes the session. -/
theorem entropy_unit_eq_ok {step : RansCodec R → Result (RansCodec R)}
    {state state' : PipelineState A R} {u : Unit}
    (h : (entropy p fun rans => (Prod.mk ()) <$> step rans).run state = (.ok u, state')) :
    step state.rans = .ok state'.rans := by
  have hstep := entropy_eq_ok h
  cases hcode : step state.rans with
  | error e =>
      rw [hcode] at hstep
      cases hstep
  | ok rans =>
      rw [hcode] at hstep
      exact congrArg (Except.map Prod.snd) hstep

theorem encodeY_eq_ok {group : ℕ} {combined : List Int16} {state state' : PipelineState A R}
    {u : Unit} (h : (encodeY p combined group).run state = (.ok u, state')) :
    AcceptsY state.rans.tables state.rans.useTwoCoders group (combined.map combinedRow) ∧
      SameSetup state.rans state'.rans := by
  obtain ⟨_, state₁, hentropy, hrecord⟩ := Action.run_bind_eq_ok.mp h
  cases hrecord
  obtain ⟨-, haccepts, hrans⟩ := RansCodec.encodeY_eq_ok.mp (entropy_unit_eq_ok hentropy)
  refine ⟨haccepts, ?_⟩
  rw [hrans]
  split
  · exact ⟨rfl, rfl⟩
  · exact ⟨rfl, rfl⟩

theorem encodeZ_eq_ok {group qp perChannelSize : ℕ} {symbols : List Int8}
    {state state' : PipelineState A R} {u : Unit}
    (h : (encodeZ p symbols group qp perChannelSize).run state = (.ok u, state')) :
    AcceptsZ state.rans.tables state.rans.useTwoCoders group (qp * 128) perChannelSize
        symbols.length ∧
      SameSetup state.rans state'.rans := by
  obtain ⟨_, state₁, hentropy, hrecord⟩ := Action.run_bind_eq_ok.mp h
  cases hrecord
  obtain ⟨-, haccepts, hrans⟩ := RansCodec.encodeZ_eq_ok.mp (entropy_unit_eq_ok hentropy)
  refine ⟨haccepts, ?_⟩
  rw [hrans]
  split
  · exact ⟨rfl, rfl⟩
  · exact ⟨rfl, rfl⟩

theorem encodeYs_eq_ok {group : ℕ} {indexes : List (List Int16)} {state state' : PipelineState A R}
    {u : Unit} (h : (encodeYs p group indexes).run state = (.ok u, state')) :
    ∀ combined ∈ indexes,
      AcceptsY state.rans.tables state.rans.useTwoCoders group (combined.map combinedRow) := by
  induction indexes generalizing state with
  | nil => exact fun _ hmem => (nomatch hmem)
  | cons first later ih =>
      obtain ⟨_, state₁, hfirst, hlater⟩ := Action.run_bind_eq_ok.mp h
      obtain ⟨haccepts, htables, htwo⟩ := encodeY_eq_ok hfirst
      intro combined hcombined
      rcases List.mem_cons.mp hcombined with rfl | hmem
      · exact haccepts
      · have hrest := ih hlater combined hmem
        rwa [htables, htwo] at hrest

variable (hp : p.NoFaults)

include hp

theorem encodeY_run {group : ℕ} {combined : List Int16} {state : PipelineState A R}
    {batches : List (List CodedSymbol)} (hholds : state.rans.Holds batches)
    (haccepts : AcceptsY state.rans.tables state.rans.useTwoCoders group
      (combined.map combinedRow)) :
    ∃ state', (encodeY p combined group).run state = (.ok (), state') ∧
      state'.rans.Holds (batches ++ [codedY group combined]) ∧ SameSetup state.rans state'.rans ∧
      state'.activity.encoded = state.activity.encoded ++ [combined.map combinedSymbol] ∧
      state'.activity.decoded = state.activity.decoded := by
  obtain ⟨rans, hcode⟩ : ∃ rans, state.rans.encodeY combined group = .ok rans :=
    ⟨_, RansCodec.encodeY_eq_ok.mpr ⟨hholds.notFinished, haccepts, rfl⟩⟩
  obtain ⟨hholds', hsetup⟩ := encodeY_holds hholds hcode
  have hstep : (Prod.mk ()) <$> state.rans.encodeY combined group = .ok ((), rans) := by
    rw [hcode]
    rfl
  refine ⟨⟨{ state.activity with
    requests := state.activity.requests + 1
    encoded := state.activity.encoded ++ [combined.map combinedSymbol] }, rans⟩, ?_, hholds',
    hsetup, rfl, rfl⟩
  rw [encodeY, Action.run_bind_of_ok (entropy_run hp hstep)]
  rfl

theorem encodeYs_run {group : ℕ} {indexes : List (List Int16)} {state : PipelineState A R}
    {batches : List (List CodedSymbol)} (hholds : state.rans.Holds batches)
    (haccepts : ∀ combined ∈ indexes, AcceptsY state.rans.tables state.rans.useTwoCoders group
      (combined.map combinedRow)) :
    ∃ state', (encodeYs p group indexes).run state = (.ok (), state') ∧
      state'.rans.Holds (batches ++ indexes.map (codedY group)) ∧
      SameSetup state.rans state'.rans ∧
      state'.activity.encoded =
        state.activity.encoded ++ indexes.map (List.map combinedSymbol) ∧
      state'.activity.decoded = state.activity.decoded := by
  induction indexes generalizing state batches with
  | nil => exact ⟨state, rfl, by simpa using hholds, ⟨rfl, rfl⟩, by simp, rfl⟩
  | cons combined indexes ih =>
      obtain ⟨state₁, hrun₁, hholds₁, ⟨htables, htwo⟩, hencoded₁, hdecoded₁⟩ :=
        encodeY_run hp hholds (haccepts combined List.mem_cons_self)
      obtain ⟨state₂, hrun₂, hholds₂, hsetup₂, hencoded₂, hdecoded₂⟩ := ih hholds₁
        (fun other hother => by
          rw [htables, htwo]
          exact haccepts other (List.mem_cons_of_mem combined hother))
      refine ⟨state₂, ?_, ?_, ⟨hsetup₂.1.trans htables, hsetup₂.2.trans htwo⟩, ?_,
        hdecoded₂.trans hdecoded₁⟩
      · rw [encodeYs, Action.run_bind_of_ok hrun₁, hrun₂]
      · simpa using hholds₂
      · rw [hencoded₂, hencoded₁]
        simp

/-- What entropy coding needs of the tables and the mode. -/
def AcceptsSymbols (tables : List RansCdfTable) (two : Bool) (zGroup yGroup qp : ℕ) (g : Geometry)
    (zSymbols : List Int8) (indexes : List (List Int16)) : Prop :=
  AcceptsZ tables two zGroup (qp * 128) g.perChannel zSymbols.length ∧
    ∀ combined ∈ indexes, AcceptsY tables two yGroup (combined.map combinedRow)

/-- The batches of a frame in coding order. -/
def frameBatches (zGroup yGroup qp : ℕ) (g : Geometry) (zSymbols : List Int8)
    (indexes : List (List Int16)) : List (List CodedSymbol) :=
  codedZ zGroup (qp * 128) g.perChannel zSymbols :: indexes.map (codedY yGroup)

omit hp in
theorem encodeSymbols_eq_ok {zGroup yGroup qp : ℕ} {zSymbols : List Int8}
    {indexes : List (List Int16)} {state state' : PipelineState A R} {stream : Bytes}
    (h : (encodeSymbols p zGroup yGroup qp g zSymbols indexes).run state = (.ok stream, state')) :
    AcceptsSymbols state.rans.tables g.twoCoders zGroup yGroup qp g zSymbols indexes := by
  obtain ⟨_, state₁, hbegin, h₁⟩ := Action.run_bind_eq_ok.mp h
  obtain ⟨_, state₂, hz, h₂⟩ := Action.run_bind_eq_ok.mp h₁
  obtain ⟨_, state₃, hys, -⟩ := Action.run_bind_eq_ok.mp h₂
  obtain ⟨fresh, hfresh, -, htables, htwo⟩ :=
    setUseTwoCoders_resetEncoder state.rans g.twoCoders
  have hrans : fresh = state₁.rans := Except.ok.inj (hfresh.symm.trans (entropy_unit_eq_ok hbegin))
  rw [hrans] at htables htwo
  obtain ⟨hacceptsZ, hsetup⟩ := encodeZ_eq_ok hz
  have hacceptsY := encodeYs_eq_ok hys
  rw [htables, htwo] at hacceptsZ
  rw [hsetup.1, hsetup.2, htables, htwo] at hacceptsY
  exact ⟨hacceptsZ, hacceptsY⟩

theorem encodeZ_run {group qp perChannelSize : ℕ} {symbols : List Int8}
    {state : PipelineState A R} {batches : List (List CodedSymbol)}
    (hholds : state.rans.Holds batches)
    (haccepts : AcceptsZ state.rans.tables state.rans.useTwoCoders group (qp * 128) perChannelSize
      symbols.length) :
    ∃ state', (encodeZ p symbols group qp perChannelSize).run state = (.ok (), state') ∧
      state'.rans.Holds (batches ++ [codedZ group (qp * 128) perChannelSize symbols]) ∧
      SameSetup state.rans state'.rans ∧
      state'.activity.encoded = state.activity.encoded ++ [symbols] ∧
      state'.activity.decoded = state.activity.decoded := by
  obtain ⟨rans, hcode⟩ :
      ∃ rans, state.rans.encodeZ symbols group (qp * 128) perChannelSize = .ok rans :=
    ⟨_, RansCodec.encodeZ_eq_ok.mpr ⟨hholds.notFinished, haccepts, rfl⟩⟩
  obtain ⟨hholds', hsetup⟩ := encodeZ_holds hholds hcode
  have hstep : (Prod.mk ()) <$> state.rans.encodeZ symbols group (qp * 128) perChannelSize =
      .ok ((), rans) := by
    rw [hcode]
    rfl
  refine ⟨⟨{ state.activity with
    requests := state.activity.requests + 1
    encoded := state.activity.encoded ++ [symbols] }, rans⟩, ?_, hholds', hsetup, rfl, rfl⟩
  rw [encodeZ, Action.run_bind_of_ok (entropy_run hp hstep)]
  rfl

theorem beginEncode_run (two : Bool) (state : PipelineState A R) :
    ∃ state', (beginEncode p two).run state = (.ok (), state') ∧ state'.rans.Holds [] ∧
      state'.rans.tables = state.rans.tables ∧ state'.rans.useTwoCoders = two ∧
      state'.activity.encoded = state.activity.encoded ∧
      state'.activity.decoded = state.activity.decoded := by
  obtain ⟨fresh, hfresh, hholds, htables, htwo⟩ := setUseTwoCoders_resetEncoder state.rans two
  have hstep : (Prod.mk ()) <$> state.rans.resetEncoder.setUseTwoCoders two = .ok ((), fresh) := by
    rw [hfresh]
    rfl
  exact ⟨_, entropy_run hp hstep, hholds, htables, htwo, rfl, rfl⟩

/-- The stream of a frame's symbols. -/
def frameStream (R : RansCoder) (tables : List RansCdfTable) (zGroup yGroup qp : ℕ) (g : Geometry)
    (zSymbols : List Int8) (indexes : List (List Int16)) : Bytes :=
  codedStream R tables g.twoCoders (frameBatches zGroup yGroup qp g zSymbols indexes)

/-- Accepted symbols become a stream that carries them. -/
theorem encodeSymbols_run (hR : R.FifoInverse) {zGroup yGroup qp : ℕ} {zSymbols : List Int8}
    {indexes : List (List Int16)} (state : PipelineState A R)
    (htables : ∀ table ∈ state.rans.tables, table.validateCdf = .ok ()) (hne : zSymbols ≠ [])
    (haccepts : AcceptsSymbols state.rans.tables g.twoCoders zGroup yGroup qp g zSymbols indexes) :
    let stream := frameStream R state.rans.tables zGroup yGroup qp g zSymbols indexes
    ∃ state', (encodeSymbols p zGroup yGroup qp g zSymbols indexes).run state =
        (.ok stream, state') ∧
      4 ≤ stream.length ∧
      Carries R state.rans.tables g.twoCoders stream
        (frameBatches zGroup yGroup qp g zSymbols indexes) ∧
      state'.rans.tables = state.rans.tables ∧
      state'.activity.encoded = state.activity.encoded ++
        zSymbols :: indexes.map (List.map combinedSymbol) ∧
      state'.activity.decoded = state.activity.decoded := by
  obtain ⟨state₁, hrun₁, hholds₁, htables₁, htwo₁, hencoded₁, hdecoded₁⟩ :=
    beginEncode_run (R := R) hp g.twoCoders state
  obtain ⟨hacceptsZ, hacceptsY⟩ := haccepts
  rw [← htables₁, ← htwo₁] at hacceptsZ
  obtain ⟨state₂, hrun₂, hholds₂, ⟨htables₂, htwo₂⟩, hencoded₂, hdecoded₂⟩ :=
    encodeZ_run hp hholds₁ hacceptsZ
  rw [← htables₁, ← htwo₁, ← htables₂, ← htwo₂] at hacceptsY
  obtain ⟨state₃, hrun₃, hholds₃, ⟨htables₃, htwo₃⟩, hencoded₃, hdecoded₃⟩ :=
    encodeYs_run hp hholds₂ hacceptsY
  have htables' : state₃.rans.tables = state.rans.tables := by rw [htables₃, htables₂, htables₁]
  have htwo' : state₃.rans.useTwoCoders = g.twoCoders := by rw [htwo₃, htwo₂, htwo₁]
  have hbatches : [] ++ [codedZ zGroup (qp * 128) g.perChannel zSymbols] ++
      indexes.map (codedY yGroup) = frameBatches zGroup yGroup qp g zSymbols indexes := rfl
  rw [hbatches] at hholds₃
  have hflatten : (frameBatches zGroup yGroup qp g zSymbols indexes).flatten ≠ [] := by
    intro hnil
    apply hne
    have hfirst := List.flatten_eq_nil_iff.mp hnil _ List.mem_cons_self
    apply List.length_eq_zero_iff.mp
    simpa using congrArg List.length hfirst
  obtain ⟨hfinish, hlength, hcarries⟩ :=
    finishEncode_delivers hR hholds₃ (by rwa [htables']) hflatten
  rw [htables', htwo'] at hfinish hlength hcarries
  refine ⟨_, (Action.run_bind_of_ok hrun₁).trans ((Action.run_bind_of_ok hrun₂).trans
    ((Action.run_bind_of_ok hrun₃).trans (entropy_run hp hfinish))), hlength, ?_, rfl, ?_, ?_⟩
  · intro reader hreaderTables hreaderTwo
    obtain ⟨reader', hset, hdelivers, hsetup⟩ :=
      hcarries reader ⟨hreaderTables.trans htables'.symm, hreaderTwo.trans htwo'.symm⟩
    exact ⟨reader', hset, hdelivers, hsetup.1.trans htables', hsetup.2.trans htwo'⟩
  · simp [hencoded₃, hencoded₂, hencoded₁]
  · simp [hdecoded₃, hdecoded₂, hdecoded₁]

end Encoding

section Intra

variable {assets : IntraAssets A} {common y : List A.Half} {tables : List RansCdfTable} {two : Bool}

theorem decodeIntraStage_reads (hp : p.NoFaults) {yHat : List A.Half} {stage : ℕ}
    {latent next : Work.Latent A} {coding : StageCoding A}
    (hmask : makeFourWayMask (256 * g.spatialCount) (g.yShape 256) stage = some coding.mask)
    (hagrees : StageAgrees (fourWay g) (256 * g.spatialCount) (256 * g.spatialCount / 4) y
      latent.scales latent.means coding)
    (haccumulate : Work.Yields
      (Work.accumulate stage latent.yHat coding.processed.reconstructed) yHat)
    (hnext : Work.Yields (Work.nextLatent p g common stage latent yHat) next)
    (haccepts : AcceptsY tables two assets.gaussianYGroup (coding.indexes.map combinedRow)) :
    ReadsBatches (R := R) tables two (decodeIntraStage p assets g common stage latent)
      [codedY assets.gaussianYGroup coding.indexes] next := by
  refine .work_bind (Work.hostOp_yields hmask) (.work_bind (Work.hostOp_yields hagrees.maskedScales)
    (.work_bind (Work.hostOp_yields hagrees.rows) (.cons
      (decodeY_reads hp hagrees.rows_eq haccepts) ?_)))
  rw [if_neg (by simp [hagrees.indexes_length])]
  exact .work_bind (Work.hostOp_yields hagrees.restoredSymbols)
    (.work_bind (Work.hostOp_yields hagrees.reconstructed) (.work_bind haccumulate (.work hnext)))

/-- The four stages on both sides, from any state that a stage can start from. -/
theorem exists_intraStages (hp : p.NoFaults) (hA : A.Exact) (hg : g.Supported)
    (hy : y.length = 256 * g.spatialCount) (hcommon : common.length = 256 * g.spatialCount)
    (stages : List ℕ) (hstages : ∀ stage ∈ stages, stage ≤ 3) (latent : Work.Latent A)
    (hyHat : ∀ stage ∈ stages.head?, stage = 0 ∨ latent.yHat.length = 256 * g.spatialCount)
    (hlatent : latent.Sized g) :
    ∃ indexes last, Work.Yields (Work.encodeIntraStages p g y common stages latent)
        (indexes, last) ∧
      (stages ≠ [] ∨ latent.yHat.length = 256 * g.spatialCount →
        last.yHat.length = 256 * g.spatialCount) ∧
      (indexes.length = stages.length ∧
        ∀ combined ∈ indexes, combined.length = 256 * g.spatialCount / 4) ∧
      ∀ assets : IntraAssets A, ∀ tables two, (∀ combined ∈ indexes,
        AcceptsY tables two assets.gaussianYGroup (combined.map combinedRow)) →
        ReadsBatches (R := R) tables two (decodeIntraStages p assets g common stages latent)
          (indexes.map (codedY assets.gaussianYGroup)) last := by
  induction stages generalizing latent with
  | nil =>
      exact ⟨[], latent, .pure _, fun h => h.resolve_left fun hne => hne rfl, by simp,
        fun _ _ _ _ => .pure latent⟩
  | cons stage stages ih =>
      obtain ⟨coding, yHat, next, hmask, hagrees, haccumulate, hnext, hnextHat, hsized⟩ :=
        Work.exists_intraStage hp hA hg (hstages stage List.mem_cons_self) hy hcommon
          (hyHat stage rfl) hlatent
      obtain ⟨indexes, last, hencode, hlast, ⟨hcount, hlengths⟩, hdecode⟩ :=
        ih (fun other hother => hstages other (List.mem_cons_of_mem stage hother)) next
          (fun _ _ => .inr hnextHat) hsized
      refine ⟨coding.indexes :: indexes, last, ?_, fun _ => hlast (.inr hnextHat),
        ⟨congrArg Nat.succ hcount, ?_⟩, ?_⟩
      · exact .bind (Work.encodeIntraStage_yields hmask hagrees haccumulate hnext)
          (.bind hencode (.pure _))
      · intro combined hcombined
        rcases List.mem_cons.mp hcombined with rfl | hmem
        · exact hagrees.indexes_length
        · exact hlengths combined hmem
      · intro assets tables two haccepts
        exact .cons (decodeIntraStage_reads hp hmask hagrees haccumulate hnext
            (haccepts _ List.mem_cons_self))
          (hdecode assets tables two fun combined hcombined =>
            haccepts combined (List.mem_cons_of_mem _ hcombined))

end Intra

section Hyper

/-- Rounded hyper latents are restored from their symbols. -/
theorem roundToInt8_agrees (hA : A.Exact) {values : List A.Half} {count : ℕ} (hcount : 0 < count)
    (hvalues : values.length = count) :
    ∃ rounded symbols, roundToInt8 values count = some (rounded, symbols) ∧
      symbols.length = count ∧ rounded.length = count ∧
      int8ToHalf symbols count = some rounded := by
  have hguard : ¬ (values.isEmpty = true ∨ count < values.length) := by
    rw [List.isEmpty_iff_length_eq_zero]
    omega
  refine ⟨_, _, if_neg hguard, by simpa using hvalues, by simpa using hvalues, ?_⟩
  have hguard' : ¬ ((values.map fun value => clampSymbol (A.round (A.toFloat value))).map
      (fun value => Int8.ofInt (A.truncate value))).isEmpty = true ∧
      ¬ count < ((values.map fun value => clampSymbol (A.round (A.toFloat value))).map
        fun value => Int8.ofInt (A.truncate value)).length := by
    rw [List.isEmpty_iff_length_eq_zero]
    simp only [List.length_map]
    omega
  rw [int8ToHalf, if_neg (not_or.mpr hguard'), List.map_map, List.map_map, List.map_map]
  congr 1
  apply List.map_congr_left
  intro value _
  obtain ⟨n, hlow, hhigh, hn⟩ := clampSymbol_round hA (A.toFloat value)
  have hbyte : (Int8.ofInt n).toInt = n := Int8.toInt_ofInt_of_le (by omega) (by omega)
  simp only [Function.comp_apply, halfOfInt8, hn, hA.truncate_integer, hbyte]

theorem decodeHyper_reads (hp : p.NoFaults) {operation : String} {group qp : ℕ}
    {tables : List RansCdfTable} {two : Bool} {symbols : List Int8} {rounded : List A.Half}
    (hsymbols : symbols.length = 128 * g.perChannel)
    (hrestored : int8ToHalf symbols (128 * g.perChannel) = some rounded)
    (haccepts : AcceptsZ tables two group (qp * 128) g.perChannel symbols.length) :
    ReadsBatches (R := R) tables two (decodeHyper p operation group qp g)
      [codedZ group (qp * 128) g.perChannel symbols] ⟨g.zShape, rounded⟩ := by
  have hcount : (List.replicate g.zShape.count (0 : A.Half)).length = 128 * g.perChannel := by
    rw [List.length_replicate, Geometry.zShape, count_shape4d, Geometry.perChannel, Nat.mul_assoc]
  have hreads := decodeZ_reads (R := R) hp haccepts
  rw [hsymbols] at hreads
  refine .cons hreads (.work_bind (Work.allocateTensor_yields hp _) ?_)
  simp only [hcount, hsymbols, ne_eq, not_true_eq_false, if_false]
  exact .work_bind (Work.hostOp_yields hrestored) (.pure _)

end Hyper

end Pipeline

namespace Work

theorem multiplyBroadcastInPlace_eq (hg : g.Supported) {values factors : List A.Half}
    (hvalues : values.length = 256 * g.spatialCount) (hfactors : factors.length = g.spatialCount) :
    ∃ product, multiplyBroadcastInPlace values factors g.spatialCount 256 = some product := by
  have hpos := hg.spatialCount_pos
  have hcount : wrapSize (g.spatialCount * (256 : ℤ).toNat) ≤ g.spatialCount * 256 :=
    wrapSize_le (g.spatialCount * 256)
  simp only [multiplyBroadcastInPlace]
  rw [if_neg (by omega), if_neg (by omega)]
  exact ⟨_, rfl⟩

theorem synthesizeIntra_yields (hp : p.NoFaults) (hg : g.Supported) (assets : IntraAssets A)
    {yHat qDec : List A.Half} {qp : ℕ} (hqp : qp < 64)
    (hyHat : yHat.length = 256 * g.spatialCount) (hqDec : qDec.length = g.spatialCount) :
    ∃ frameHat, Yields (synthesizeIntra p assets g yHat qDec qp) frameHat ∧
      frameHat.shape = g.frameShape ∧ frameHat.values.length = g.frameShape.count := by
  obtain ⟨product, hproduct⟩ := multiplyBroadcastInPlace_eq hg hyHat hqDec
  obtain ⟨q, hq⟩ := quantTensor_yields hp assets.qDecoder qp 368
    (by rw [assets.qDecoder_length]; omega)
  exact ⟨_, .bind (hostOp_yields hproduct) (.bind hq (.bind (allocateTensor_yields hp _)
    (.bind (runStage_yields hp _ _) (.pure _)))), rfl, by simp [written]⟩

/-- What the analysis of a frame promises to its decoder: the symbols come with a reconstruction
that every session rebuilds from a stream carrying them. -/
structure IntraAgrees (R : RansCoder) (p : Provider A) (assets : IntraAssets A) (g : Geometry)
    (qp : ℕ) (analysis : IntraAnalysis A) : Prop where
  zSymbols_length : analysis.zSymbols.length = 128 * g.perChannel
  indexes_count : analysis.indexes.length = 4
  indexes_length : ∀ combined ∈ analysis.indexes, combined.length = 256 * g.spatialCount / 4
  frameHat_shape : analysis.frameHat.shape = g.frameShape
  frameHat_length : analysis.frameHat.values.length = g.frameShape.count
  decodes : ∀ tables (info : IntraPayload), info.qp.toNat = qp →
    Pipeline.AcceptsSymbols tables info.twoCoders assets.imageZGroup assets.gaussianYGroup qp g
      analysis.zSymbols analysis.indexes →
    Pipeline.Carries R tables info.twoCoders info.rans (Pipeline.frameBatches assets.imageZGroup
      assets.gaussianYGroup qp g analysis.zSymbols analysis.indexes) →
    Pipeline.Decodes (R := R) tables (Pipeline.decodeIntraTensor p assets g info)
      (Pipeline.frameBatches assets.imageZGroup assets.gaussianYGroup qp g analysis.zSymbols
        analysis.indexes) analysis.frameHat

theorem applyImagePrior_agrees (hg : g.Supported) {params y : List A.Half}
    (hparams : params.length = 514 * g.spatialCount) (hy : y.length = 256 * g.spatialCount) :
    ∃ scaled, applyImagePriorAndQuantize params y g.spatialCount =
        some (quantPlanes params g.spatialCount, scaled) ∧
      applyImagePrior params g.spatialCount = some (quantPlanes params g.spatialCount) ∧
      scaled.length = 256 * g.spatialCount ∧
      (quantPlanes params g.spatialCount).length = 514 * g.spatialCount := by
  have hpos := hg.spatialCount_pos
  have hplanes := wrapSize_le (2 * g.spatialCount)
  have hvalues := wrapSize_le (256 * g.spatialCount)
  have hencode : ¬ (g.spatialCount = 0 ∨ params.length < wrapSize (2 * g.spatialCount) ∨
      y.length < wrapSize (256 * g.spatialCount)) := by omega
  have hdecode : ¬ (g.spatialCount = 0 ∨ params.length < wrapSize (2 * g.spatialCount)) := by omega
  refine ⟨_, if_neg hencode, if_neg hdecode, ?_, ?_⟩
  · simp [hy]
  · simp only [quantPlanes, List.length_append, List.length_map, List.length_take, List.length_drop,
      hparams]
    omega

theorem exists_analyzeIntra (hp : p.NoFaults) (hA : A.Exact) (assets : IntraAssets A) {frame : Frame}
    {qp : ℕ} (hqp : qp < 64)
    (hformat : frame.pixelFormat = .rgb24 ∨ frame.pixelFormat = .yuv420p8)
    (hsize : Payload.SupportedDimensions frame.width frame.height) :
    ∃ analysis, Yields
        (analyzeIntra p assets (Geometry.ofSize frame.width frame.height) frame qp) analysis ∧
      IntraAgrees R p assets (Geometry.ofSize frame.width frame.height) qp analysis := by
  have hg := Geometry.supported_ofSize hsize
  generalize Geometry.ofSize frame.width frame.height = g at hg ⊢
  have hpos := hg.spatialCount_pos
  obtain ⟨input, hinput⟩ := inputFrameTensor_yields hp hformat hsize
  obtain ⟨qEnc, hqEnc⟩ := quantTensor_yields hp assets.qEncoder qp 368
    (by rw [assets.qEncoder_length]; omega)
  let y := written p (.intra .analysis) [⟨"frame", input⟩, ⟨"q_enc", qEnc⟩] "y"
    ⟨g.yShape 256, List.replicate (g.yShape 256).count 0⟩
  have hy : y.values.length = 256 * g.spatialCount := by
    simp [y, written, Geometry.yShape, count_shape4d, Geometry.spatialCount, Nat.mul_assoc]
  let yPadded : Tensor A := ⟨shape4d 256 g.yHeight4 g.yWidth4,
    padded y.values 256 g.yHeight g.yWidth g.yHeight4 g.yWidth4⟩
  let z := written p (.intra .hyperAnalysis) [⟨"y_padded", yPadded⟩] "z"
    ⟨g.zShape, List.replicate g.zShape.count 0⟩
  have hz : z.values.length = 128 * g.perChannel := by
    simp [z, written, Geometry.zShape, count_shape4d, Geometry.perChannel, Nat.mul_assoc]
  have hperChannel := hg.perChannel_pos
  obtain ⟨rounded, symbols, hround, hsymbols, -, hrestored⟩ :=
    Pipeline.roundToInt8_agrees hA (by omega) hz
  obtain ⟨params, common, hhyper, hparams, hcommon⟩ :=
    hyperSynthesis_yields hp hg ⟨g.zShape, rounded⟩
  obtain ⟨scaled, hquantize, hprior, hscaled, hplanes⟩ := applyImagePrior_agrees hg hparams hy
  have hlatent : (intraLatent g (quantPlanes params g.spatialCount)).Sized g := by
    constructor
    · simp only [intraLatent, List.length_take, List.length_drop, hplanes]
      omega
    · simp only [intraLatent, List.length_take, List.length_drop, hplanes]
      omega
  obtain ⟨indexes, last, hencode, hlast, ⟨hcount, hlengths⟩, hdecode⟩ :=
    Pipeline.exists_intraStages (R := R) hp hA hg hscaled hcommon [0, 1, 2, 3] (by decide)
      (intraLatent g (quantPlanes params g.spatialCount)) (by simp) hlatent
  have hqDec : (qDecValues g (quantPlanes params g.spatialCount)).length = g.spatialCount := by
    simp only [qDecValues, List.length_take, List.length_drop, hplanes]
    omega
  obtain ⟨frameHat, hframeHat, hshape, hlength⟩ :=
    synthesizeIntra_yields hp hg assets hqp (hlast (.inl (by simp))) hqDec
  refine ⟨⟨symbols, indexes, frameHat⟩, ?_, hsymbols, hcount, hlengths, hshape, hlength, ?_⟩
  · have hpadded : replicatePad y.values (List.replicate (shape4d 256 g.yHeight4 g.yWidth4).count
        (0 : A.Half)).length (g.yShape 256) g.yHeight4 g.yWidth4 = some yPadded.values := by
      rw [List.length_replicate, count_shape4d]
      exact replicatePad_eq hg (by omega) (by omega) hy
    rw [← hz] at hround
    exact .bind hinput (.bind hqEnc (.bind (allocateTensor_yields hp _)
      (.bind (runStage_yields hp _ _) (.bind (allocateTensor_yields hp _)
      (.bind (hostOp_yields hpadded) (.bind (allocateTensor_yields hp _)
      (.bind (runStage_yields hp _ _) (.bind (hostOp_yields hround) (.bind hhyper
      (.bind (hostOp_yields hquantize) (.bind (request_yields hp) (.bind hencode
      (.bind hframeHat (.pure _))))))))))))))
  · rintro tables info rfl ⟨hacceptsZ, hacceptsY⟩ hcarries
    exact .begin_bind hp hcarries (.cons (Pipeline.decodeHyper_reads hp hsymbols hrestored hacceptsZ)
      (.work_bind hhyper (.work_bind (hostOp_yields hprior) (.work_bind (request_yields hp)
      (.bind_work (hdecode assets tables info.twoCoders hacceptsY) hframeHat)))))

end Work

section Predicted

variable {assets : PredictedAssets A} {y scales means : List A.Half} {stage : ℕ}
  {coding : StageCoding A}

theorem Work.encodePredictedStage_yields {operation : String}
    (hmask : makeTwoWayMask (128 * g.spatialCount) (g.yShape 128) stage = some coding.mask)
    (hagrees : StageAgrees (twoWay g) (128 * g.spatialCount) (128 * g.spatialCount / 2) y scales
      means coding) :
    Work.Yields (Work.encodePredictedStage g operation y scales means stage)
      (coding.indexes, coding.processed.reconstructed) :=
  .bind (Work.hostOp_yields hmask) (.bind (Work.hostOp_yields hagrees.processed)
    (.bind (Work.hostOp_yields hagrees.symbols) (.bind (Work.hostOp_yields hagrees.reducedScales)
      (.bind (Work.hostOp_yields hagrees.indexes) (.pure _)))))

theorem Pipeline.decodePredictedStage_reads (hp : p.NoFaults) {preparation restoration : String}
    {tables : List RansCdfTable} {two : Bool}
    (hmask : makeTwoWayMask (128 * g.spatialCount) (g.yShape 128) stage = some coding.mask)
    (hagrees : StageAgrees (twoWay g) (128 * g.spatialCount) (128 * g.spatialCount / 2) y scales
      means coding)
    (haccepts : AcceptsY tables two assets.gaussianYGroup (coding.indexes.map combinedRow)) :
    ReadsBatches (R := R) tables two
      (decodePredictedStage p assets g preparation restoration scales means stage)
      [codedY assets.gaussianYGroup coding.indexes] coding.processed.reconstructed := by
  refine .work_bind (Work.hostOp_yields hmask) (.work_bind (Work.hostOp_yields hagrees.maskedScales)
    (.work_bind (Work.hostOp_yields hagrees.rows) (.cons
      (decodeY_reads hp hagrees.rows_eq haccepts) ?_)))
  rw [if_neg (by simp [hagrees.indexes_length])]
  exact .work_bind (Work.hostOp_yields hagrees.restoredSymbols)
    (.work (Work.hostOp_yields hagrees.reconstructed))

namespace Work

theorem referenceContexts_yields (hp : p.NoFaults) (assets : PredictedAssets A)
    (reference : Binding A) (useFrameReference : Bool) {qp : ℕ} (hqp : qp < 72) :
    ∃ contexts, Yields (referenceContexts p assets g reference useFrameReference qp) contexts := by
  obtain ⟨q, hq⟩ := quantTensor_yields hp assets.qFeature qp 256
    (by rw [assets.qFeature_length]; omega)
  exact ⟨_, .bind hq (.bind (allocateTensor_yields hp _) (.bind (allocateTensor_yields hp _)
    (.bind (runStage_yields hp _ _) (.pure _))))⟩

theorem predictedPrior_yields (hp : p.NoFaults) (z temporalContext : Tensor A) :
    ∃ params, Yields (predictedPrior p g z temporalContext) params ∧
      params.length = 384 * g.spatialCount := by
  refine ⟨_, .bind (allocateTensor_yields hp _) (.bind (runStage_yields hp _ _) (.pure _)), ?_⟩
  simp [written, Geometry.yShape, count_shape4d, Geometry.spatialCount, Nat.mul_assoc]

theorem predictedSpatialPrior_yields (hp : p.NoFaults) {yHat params : List A.Half}
    (hyHat : yHat.length = 128 * g.spatialCount) (hparams : params.length = 384 * g.spatialCount) :
    ∃ spatial, Yields (predictedSpatialPrior p g yHat params) spatial ∧
      spatial.length = 256 * g.spatialCount := by
  refine ⟨_, .bind (spatialContext_yields hp (by omega)) (.bind (allocateTensor_yields hp _)
    (.bind (runStage_yields hp _ _) (.pure _))), ?_⟩
  simp [written, Geometry.yShape, count_shape4d, Geometry.spatialCount, Nat.mul_assoc]

theorem synthesizePredicted_yields (hp : p.NoFaults) (assets : PredictedAssets A)
    (yHat : List A.Half) (context : Tensor A) {qp : ℕ} (hqp : qp < 72) :
    ∃ frameHat feature, Yields (synthesizePredicted p assets g yHat context qp)
        (frameHat, feature) ∧
      frameHat.shape = g.frameShape ∧ frameHat.values.length = g.frameShape.count := by
  obtain ⟨q, hq⟩ := quantTensor_yields hp assets.qDecoder qp 256
    (by rw [assets.qDecoder_length]; omega)
  obtain ⟨r, hr⟩ := quantTensor_yields hp assets.qReconstruction qp 320
    (by rw [assets.qReconstruction_length]; omega)
  exact ⟨_, _, .bind hq (.bind hr (.bind (allocateTensor_yields hp _)
    (.bind (allocateTensor_yields hp _) (.bind (runStage_yields hp _ _) (.pure _))))), rfl,
    by simp [written]⟩

theorem priorPart_length {params : List A.Half} {parts : ℕ} (part : ℕ)
    (hparams : params.length = parts * (128 * g.spatialCount)) (hpart : part < parts) :
    (priorPart g params part).length = 128 * g.spatialCount := by
  have hle : (part + 1) * (128 * g.spatialCount) ≤ parts * (128 * g.spatialCount) :=
    Nat.mul_le_mul_right _ hpart
  rw [Nat.succ_mul] at hle
  simp only [priorPart, List.length_take, List.length_drop, hparams]
  omega

/-- Both sides clamp the steps alike. -/
theorem clampSteps_agree {quantStep y : List A.Half} {count : ℕ} (hcount : 0 < count)
    (hstep : quantStep.length = count) (hy : y.length = count) :
    ∃ qDec scaled, clampReciprocalWithQuant quantStep y = some (qDec, scaled) ∧
      clampMin quantStep (A.ofRat (1 / 2)) = some qDec ∧ qDec.length = count ∧
      scaled.length = count := by
  have hencode : ¬ (y.isEmpty = true ∨ quantStep.length < y.length) := by
    rw [List.isEmpty_iff_length_eq_zero]
    omega
  have hdecode : ¬ quantStep.isEmpty = true := by
    rw [List.isEmpty_iff_length_eq_zero]
    omega
  have hclamped : (List.range y.length).map (fun index =>
      clampStep (A.ofRat (1 / 2)) (quantStep.getD index 0)) ++ quantStep.drop y.length =
      quantStep.map (clampStep (A.ofRat (1 / 2))) := by
    rw [List.drop_of_length_le (by omega), List.append_nil, hy]
    conv_rhs => rw [eq_map_range (0 : A.Half) hstep]
    rw [List.map_map]
    rfl
  have hvalue : clampReciprocalWithQuant quantStep y = _ := if_neg hencode
  simp only [hclamped] at hvalue
  exact ⟨_, _, hvalue, if_neg hdecode, by simpa using hstep, by simp [hy]⟩

theorem addAndMultiply_eq {first second quantStep : List A.Half} {count : ℕ} (hcount : 0 < count)
    (hfirst : first.length = count) (hsecond : second.length = count)
    (hstep : quantStep.length = count) :
    ∃ product, addAndMultiply first second quantStep = some product := by
  have hguard : ¬ (first.isEmpty = true ∨ second.length < first.length ∨
      quantStep.length < first.length) := by
    rw [List.isEmpty_iff_length_eq_zero]
    omega
  exact ⟨_, if_neg hguard⟩

/-- What the analysis of a predicted frame promises to a decoder with the same reference. -/
structure PredictedAgrees (R : RansCoder) (p : Provider A) (assets : PredictedAssets A)
    (g : Geometry) (reference : Binding A) (useFrameReference : Bool) (qp : ℕ)
    (analysis : PredictedAnalysis A) : Prop where
  zSymbols_length : analysis.zSymbols.length = 128 * g.perChannel
  indexes_count : analysis.indexes.length = 2
  indexes_length : ∀ combined ∈ analysis.indexes, combined.length = 128 * g.spatialCount / 2
  frameHat_shape : analysis.frameHat.shape = g.frameShape
  frameHat_length : analysis.frameHat.values.length = g.frameShape.count
  decodes : ∀ tables (info : PredictedPayload), info.qp.toNat = qp →
    info.useFrameReference = useFrameReference →
    Pipeline.AcceptsSymbols tables info.twoCoders assets.videoZGroup assets.gaussianYGroup qp g
      analysis.zSymbols analysis.indexes →
    Pipeline.Carries R tables info.twoCoders info.rans (Pipeline.frameBatches assets.videoZGroup
      assets.gaussianYGroup qp g analysis.zSymbols analysis.indexes) →
    Pipeline.Decodes (R := R) tables (Pipeline.decodePredictedTensors p assets g info reference)
      (Pipeline.frameBatches assets.videoZGroup assets.gaussianYGroup qp g analysis.zSymbols
        analysis.indexes) (analysis.frameHat, analysis.feature)

theorem exists_analyzePredicted (hp : p.NoFaults) (hA : A.Exact) (assets : PredictedAssets A)
    {frame : Frame} (reference : Binding A) (useFrameReference : Bool) {qp : ℕ} (hqp : qp < 72)
    (hformat : frame.pixelFormat = .rgb24 ∨ frame.pixelFormat = .yuv420p8)
    (hsize : Payload.SupportedDimensions frame.width frame.height) :
    ∃ analysis, Yields (analyzePredicted p assets (Geometry.ofSize frame.width frame.height) frame
        reference useFrameReference qp) analysis ∧
      PredictedAgrees R p assets (Geometry.ofSize frame.width frame.height) reference
        useFrameReference qp analysis := by
  have hg := Geometry.supported_ofSize hsize
  generalize Geometry.ofSize frame.width frame.height = g at hg ⊢
  have hpos := hg.spatialCount_pos
  obtain ⟨input, hinput⟩ := inputFrameTensor_yields hp hformat hsize
  obtain ⟨⟨context, temporalContext⟩, hcontexts⟩ :=
    referenceContexts_yields (g := g) hp assets reference useFrameReference hqp
  obtain ⟨qEnc, hqEnc⟩ := quantTensor_yields hp assets.qEncoder qp 256
    (by rw [assets.qEncoder_length]; omega)
  let y := written p (.predicted .analysis)
    [⟨"frame", input⟩, ⟨"context", context⟩, ⟨"q_encoder", qEnc⟩] "y"
    ⟨g.yShape 128, List.replicate (g.yShape 128).count 0⟩
  have hy : y.values.length = 128 * g.spatialCount := by
    simp [y, written, Geometry.yShape, count_shape4d, Geometry.spatialCount, Nat.mul_assoc]
  let yPadded : Tensor A := ⟨shape4d 128 g.yHeight4 g.yWidth4,
    padded y.values 128 g.yHeight g.yWidth g.yHeight4 g.yWidth4⟩
  let z := written p (.predicted .hyperAnalysis) [⟨"y_padded", yPadded⟩] "z"
    ⟨g.zShape, List.replicate g.zShape.count 0⟩
  have hz : z.values.length = 128 * g.perChannel := by
    simp [z, written, Geometry.zShape, count_shape4d, Geometry.perChannel, Nat.mul_assoc]
  have hperChannel := hg.perChannel_pos
  obtain ⟨rounded, symbols, hround, hsymbols, -, hrestored⟩ :=
    Pipeline.roundToInt8_agrees hA (by omega) hz
  obtain ⟨params, hprior, hparams⟩ := predictedPrior_yields (g := g) hp ⟨g.zShape, rounded⟩
    temporalContext
  have hparts : params.length = 3 * (128 * g.spatialCount) := by omega
  obtain ⟨qDec, scaled, hreciprocal, hclamp, hqDec, hscaled⟩ := clampSteps_agree (by omega)
    (priorPart_length 0 hparts (by omega)) hy
  let written := qDec ++ params.drop qDec.length
  have hwritten : written.length = 3 * (128 * g.spatialCount) := by
    simp only [written, List.length_append, List.length_drop, hqDec, hparams]
    omega
  obtain ⟨coding0, hmask0, hagrees0⟩ := exists_twoWayStage hA hg 0 (by omega) hscaled
    (priorPart_length 1 hwritten (by omega)) (priorPart_length 2 hwritten (by omega))
  have hconditioning : written.length = 384 * g.spatialCount := by omega
  obtain ⟨spatial, hspatial, hspatialLength⟩ :=
    predictedSpatialPrior_yields hp hagrees0.reconstructed_length hconditioning
  have hspatialParts : spatial.length = 2 * (128 * g.spatialCount) := by omega
  obtain ⟨coding1, hmask1, hagrees1⟩ := exists_twoWayStage hA hg 1 (by omega) hscaled
    (priorPart_length 0 hspatialParts (by omega)) (priorPart_length 1 hspatialParts (by omega))
  obtain ⟨product, hproduct⟩ := addAndMultiply_eq (by omega) hagrees0.reconstructed_length
    hagrees1.reconstructed_length hqDec
  obtain ⟨frameHat, feature, hsynthesis, hshape, hlength⟩ :=
    synthesizePredicted_yields (g := g) hp assets product context hqp
  refine ⟨⟨symbols, [coding0.indexes, coding1.indexes], frameHat, feature⟩, ?_, hsymbols, rfl, ?_,
    hshape, hlength, ?_⟩
  · have hpadded : replicatePad y.values (List.replicate (shape4d 128 g.yHeight4 g.yWidth4).count
        (0 : A.Half)).length (g.yShape 128) g.yHeight4 g.yWidth4 = some yPadded.values := by
      rw [List.length_replicate, count_shape4d]
      exact replicatePad_eq hg (by omega) (by omega) hy
    rw [← hz] at hround
    exact .bind hinput (.bind hcontexts (.bind hqEnc (.bind (allocateTensor_yields hp _)
      (.bind (runStage_yields hp _ _) (.bind (allocateTensor_yields hp _)
      (.bind (hostOp_yields hpadded) (.bind (allocateTensor_yields hp _)
      (.bind (runStage_yields hp _ _) (.bind (hostOp_yields hround) (.bind hprior
      (.bind (hostOp_yields hreciprocal) (.bind (request_yields hp)
      (.bind (encodePredictedStage_yields hmask0 hagrees0) (.bind hspatial
      (.bind (encodePredictedStage_yields hmask1 hagrees1) (.bind (hostOp_yields hproduct)
      (.bind hsynthesis (.pure _))))))))))))))))))
  · intro combined hcombined
    simp only [List.mem_cons, List.not_mem_nil, or_false] at hcombined
    rcases hcombined with rfl | rfl
    · exact hagrees0.indexes_length
    · exact hagrees1.indexes_length
  · rintro tables info rfl rfl ⟨hacceptsZ, hacceptsY⟩ hcarries
    exact .work_bind hcontexts (.begin_bind hp hcarries
      (.cons (Pipeline.decodeHyper_reads hp hsymbols hrestored hacceptsZ)
      (.work_bind hprior (.work_bind (hostOp_yields hclamp) (.work_bind (request_yields hp)
      (.cons (Pipeline.decodePredictedStage_reads hp hmask0 hagrees0
        (hacceptsY _ List.mem_cons_self)) (.work_bind hspatial
      (.cons (Pipeline.decodePredictedStage_reads hp hmask1 hagrees1
        (hacceptsY _ (List.mem_cons_of_mem _ List.mem_cons_self)))
      (.work_bind (hostOp_yields hproduct) (.work hsynthesis))))))))))

end Work

end Predicted

end Nvcr.Rt
