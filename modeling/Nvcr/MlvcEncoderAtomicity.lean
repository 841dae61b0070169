import Nvcr.MlvcSessions
import Nvcr.TransitionRuns

/-!
# Failed frames of the MLVC encoder

The encoder clears its references before an intra frame is coded and commits a frame before its
access unit is serialized. A failed call therefore leaves the coded index and the reference
store unchanged exactly when neither of these two windows is hit.
-/

namespace Nvcr.Mlvc

open StatefulResults StatefulResults.Action TransitionRuns

namespace EncoderSession

variable {Image Feature : Type}

section Run

variable (environment : Environment Image Feature) (configuration : Configuration)

/-- The selection that a frame of a given size is coded with. -/
def canvasFor (session : EncoderSession Feature) (width height : ℕ) : Result Selection :=
  match session.keepsCanvas width height with
  | some selection => .ok selection
  | none =>
      if session.started then
        .error (mlvcError .invalidArgument
          "MLVC frame dimensions changed; reset the encoder first")
      else
        chooseCanvas environment configuration width height

/-- A session that has not started holds no references. -/
def Fresh (session : EncoderSession Feature) : Prop :=
  session.started = false → session.references = .clear ∧ session.codedIndex = 0

variable {environment configuration} {session : EncoderSession Feature} {width height : ℕ}

theorem keepsCanvas_eq_some {selection : Selection}
    (h : session.keepsCanvas width height = some selection) :
    session.selected = some selection := by
  exact (Option.filter_eq_some_iff.mp h).1

theorem chooseCanvas_scheduler {selection : Selection}
    (h : chooseCanvas environment configuration width height = .ok selection) :
    ∃ loop, selection.scheduler = .new loop := by
  simp only [chooseCanvas, bind_eq_ok] at h
  obtain ⟨model, -, _, -, placement, -, _, -, _, -, _, -, _, -, _, -, _, -, h⟩ := h
  cases h
  exact ⟨_, rfl⟩

/-- Selecting a canvas changes neither the references nor the coded index. -/
theorem run_selectCanvas (hfresh : session.Fresh) :
    run (selectCanvas environment configuration width height) session =
      match canvasFor environment configuration session width height with
      | .error e => (.error e, session)
      | .ok selection => (.ok selection, { session with selected := some selection }) := by
  unfold canvasFor
  cases hk : session.keepsCanvas width height with
  | some selection =>
      have hselected := keepsCanvas_eq_some hk
      simp only [selectCanvas, run_bind, run_gets, id, hk, run_pure]
      rw [← hselected]
  | none =>
      simp only [selectCanvas, run_bind, run_gets, id, hk]
      by_cases hs : session.started = true
      · simp [hs]
      · have hclear := (hfresh (by simpa using hs)).1
        simp only [hs, Bool.false_eq_true, if_false, run_bind, run_lift]
        cases chooseCanvas environment configuration width height with
        | error e => rfl
        | ok selection => simp [hclear]

theorem codedIndex_canvasFor (hfresh : session.Fresh) {selection : Selection}
    (h : canvasFor environment configuration session width height = .ok selection) :
    selection.scheduler.codedIndex = session.codedIndex ∧
    selection.scheduler.started = session.started := by
  unfold canvasFor at h
  cases hk : session.keepsCanvas width height with
  | some kept =>
      simp only [hk] at h
      cases h
      have hselected := keepsCanvas_eq_some hk
      simp [codedIndex, started, hselected]
  | none =>
      simp only [hk] at h
      split at h
      · cases h
      · rename_i hs
        have hs : session.started = false := by simpa using hs
        obtain ⟨loop, hnew⟩ := chooseCanvas_scheduler h
        rw [hnew, hs, (hfresh hs).2]
        exact ⟨rfl, rfl⟩

/-- The references that a plan may use: an intra frame starts from an empty store. -/
def referencesFor (session : EncoderSession Feature) (plan : FramePlan) : ReferenceStore Feature :=
  if plan.frameClass = .intra then .clear else session.references

/-- The session while a frame is being coded. -/
def preparedFor (session : EncoderSession Feature) (selection : Selection) (plan : FramePlan) :
    EncoderSession Feature :=
  { session with selected := some selection, references := session.referencesFor plan }

variable {frame : Frame}

/-- Everything a call of `encode` can do: the canvas, the coding and the access unit may fail,
with the session as it stands at that point. -/
theorem run_encode (hfresh : session.Fresh) :
    run (encode environment configuration frame) session =
      match canvasFor environment configuration session frame.width.toNat frame.height.toNat with
      | .error e => (.error e, session)
      | .ok selection =>
          let plan := selection.scheduler.plan none
          let prepared := session.preparedFor selection plan
          match codeFrame environment configuration selection plan (session.referencesFor plan)
              frame with
          | .error e => (.error e, prepared)
          | .ok (feature, record) =>
              match makeUnit environment configuration selection plan frame record with
              | .error e => (.error e, prepared.commitFrame plan feature)
              | .ok serialized =>
                  (.ok ⟨serialized, frame.timestamp, frameTypeOf plan⟩,
                    prepared.commitFrame plan feature) := by
  rw [encode, run_bind, run_selectCanvas hfresh]
  cases canvasFor environment configuration session frame.width.toNat frame.height.toNat with
  | error e => rfl
  | ok selection =>
      simp only [run_bind, run_update, run_gets, run_lift, preparedFor, referencesFor]
      cases codeFrame environment configuration selection (selection.scheduler.plan none)
          (if (selection.scheduler.plan none).frameClass = .intra then .clear
            else session.references) frame with
      | error e => rfl
      | ok coded =>
          simp only []
          cases makeUnit environment configuration selection (selection.scheduler.plan none)
              frame coded.2 with
          | error e => rfl
          | ok serialized => rfl

theorem run_sendFrame (session : EncoderSession Feature) :
    run (sendFrame environment configuration frame) session =
      if session.flushed then
        (.error (mlvcError .invalidState "encoder is flushed"), session)
      else if frame.pixelFormat ≠ .yuv420p8 then
        (.error (mlvcError .invalidArgument "MLVC encodes 8-bit I420 frames"), session)
      else
        match run (encode environment configuration frame) session with
        | (.ok packet, next) => (.ok (), { next with outputs := next.outputs ++ [packet] })
        | (.error e, next) => (.error e, next) := by
  simp only [sendFrame, run_bind, run_gets, id]
  split
  · rfl
  · split
    · rfl
    · rw [run_bind]
      rcases run (encode environment configuration frame) session with ⟨_ | packet, next⟩ <;> rfl

/-- The coded index and the reference store of two sessions agree. -/
def Unchanged (session next : EncoderSession Feature) : Prop :=
  next.codedIndex = session.codedIndex ∧ next.references = session.references

section Condition

variable (environment configuration)

/-- When the outcome of a frame does no harm: the coding of an intra frame fails only while the
store is empty, and a coded frame gets its access unit. With an I period of one, a frame that
codes to the feature already stored is harmless as well. -/
def CodedSafely (session : EncoderSession Feature) (frame : Frame) (selection : Selection) :
    Prop :=
  let plan := selection.scheduler.plan none
  match codeFrame environment configuration selection plan (session.referencesFor plan) frame with
  | .error _ => plan.frameClass = .intra → session.references = .clear
  | .ok (feature, record) =>
      (makeUnit environment configuration selection plan frame record).isOk = true ∨
      (plan.frameClass = .intra ∧ session.codedIndex = 1 ∧
        session.references.entries = [(0, ⟨feature, plan.markAsLtr⟩)])

def FailsSafely (session : EncoderSession Feature) (frame : Frame) : Prop :=
  session.flushed = false → frame.pixelFormat = .yuv420p8 →
    ∀ selection, canvasFor environment configuration session frame.width.toNat
        frame.height.toNat = .ok selection →
      CodedSafely environment configuration session frame selection

/-- If the call fails, the coded index and the store are unchanged. -/
def Atomic (session : EncoderSession Feature) (frame : Frame) : Prop :=
  ∀ e, (run (sendFrame environment configuration frame) session).1 = .error e →
    Unchanged session (run (sendFrame environment configuration frame) session).2

end Condition

theorem save_clear_entries (n : ℕ) (feature : Feature) (longTerm : Bool) :
    ((ReferenceStore.clear : ReferenceStore Feature).save n feature longTerm).entries =
      [(n, ⟨feature, longTerm⟩)] := by
  cases longTerm <;> rfl

theorem commitFrame_codedIndex {p : EncoderSession Feature} {selection : Selection}
    (h : p.selected = some selection) (plan : FramePlan) (feature : Feature) :
    (p.commitFrame plan feature).codedIndex = plan.codedIndex + 1 := by
  simp [commitFrame, codedIndex, h]

/-- A committed frame leaves the session unchanged only if it repeats the intra frame that the
store already holds. -/
theorem unchanged_commit_iff (hfresh : session.Fresh) {selection : Selection}
    (h : canvasFor environment configuration session width height = .ok selection)
    (feature : Feature) :
    Unchanged session ((session.preparedFor selection (selection.scheduler.plan none)).commitFrame
        (selection.scheduler.plan none) feature) ↔
      (selection.scheduler.plan none).frameClass = .intra ∧ session.codedIndex = 1 ∧
      session.references.entries = [(0, ⟨feature, (selection.scheduler.plan none).markAsLtr⟩)] := by
  have hindex := (codedIndex_canvasFor hfresh h).1
  have hcommit := commitFrame_codedIndex (p := session.preparedFor selection
    (selection.scheduler.plan none)) rfl (selection.scheduler.plan none) feature
  rw [Unchanged, hcommit]
  by_cases hintra : (selection.scheduler.plan none).frameClass = .intra
  · have hzero : (selection.scheduler.plan none).codedIndex = 0 := by
      rw [FrameScheduler.plan_of_intra (FrameScheduler.intraNext_eq_true hintra)]
      exact FrameScheduler.planAt_codedIndex _ _ _ _
    have hstore : ((session.preparedFor selection (selection.scheduler.plan none)).commitFrame
        (selection.scheduler.plan none) feature).references.entries =
        [(0, ⟨feature, (selection.scheduler.plan none).markAsLtr⟩)] := by
      simp only [commitFrame, preparedFor, referencesFor, hintra, if_true, hzero]
      exact save_clear_entries 0 feature _
    rw [hzero, ReferenceStore.ext_iff, hstore]
    constructor
    · rintro ⟨hone, hentries⟩
      exact ⟨hintra, hone.symm, hentries.symm⟩
    · rintro ⟨-, hone, hentries⟩
      exact ⟨hone.symm, hentries.symm⟩
  · have hnext := FrameScheduler.plan_codedIndex_of_not_intra hintra
    constructor
    · rintro ⟨hsame, -⟩
      omega
    · rintro ⟨h, -⟩
      exact absurd h hintra

theorem unchanged_prepared_iff (hfresh : session.Fresh) {selection : Selection}
    (h : canvasFor environment configuration session width height = .ok selection)
    (plan : FramePlan) :
    Unchanged session (session.preparedFor selection plan) ↔
      (plan.frameClass = .intra → session.references = .clear) := by
  have hindex : (session.preparedFor selection plan).codedIndex = session.codedIndex :=
    (codedIndex_canvasFor hfresh h).1
  rw [Unchanged, hindex]
  by_cases hintra : plan.frameClass = .intra
  · simp [preparedFor, referencesFor, hintra, eq_comm]
  · simp [preparedFor, referencesFor, hintra]

/-- From a fresh or started session, a call is atomic exactly when it fails safely. -/
theorem atomic_iff_failsSafely (hfresh : session.Fresh) :
    Atomic environment configuration session frame ↔
      FailsSafely environment configuration session frame := by
  unfold Atomic FailsSafely
  rw [run_sendFrame]
  by_cases hflushed : session.flushed = true
  · simp [hflushed, Unchanged]
  by_cases hformat : frame.pixelFormat = .yuv420p8
  · rw [if_neg hflushed, if_neg (not_not.mpr hformat), run_encode hfresh]
    cases hc : canvasFor environment configuration session frame.width.toNat
        frame.height.toNat with
    | error e => simp [Unchanged]
    | ok selection =>
        simp only [Bool.not_eq_true] at hflushed
        simp only [hflushed, hformat, forall_const, Except.ok.injEq, forall_eq']
        unfold CodedSafely
        cases hcode : codeFrame environment configuration selection (selection.scheduler.plan none)
            (session.referencesFor (selection.scheduler.plan none)) frame with
        | error e =>
            have hiff := unchanged_prepared_iff hfresh hc (selection.scheduler.plan none)
            simpa [hcode] using hiff
        | ok coded =>
            have hiff := unchanged_commit_iff hfresh hc coded.1
            cases hunit : makeUnit environment configuration selection
                (selection.scheduler.plan none) frame coded.2 with
            | error e => simpa [hcode, Except.isOk, Except.toBool, hunit] using hiff
            | ok serialized => simp [hcode, Except.isOk, Except.toBool, hunit]
  · simp [hflushed, hformat, Unchanged]

end Run

/-- The calls of the encoder interface, each frame with the environment it meets. -/
inductive Call (Image Feature : Type) where
  | sendFrame (environment : Environment Image Feature) (frame : Frame)
  | receive
  | flush
  | reset

def step (configuration : Configuration) (session : EncoderSession Feature) :
    Call Image Feature → Result Unit × EncoderSession Feature
  | .sendFrame environment frame => run (sendFrame environment configuration frame) session
  | .receive =>
      let (answer, next) := run receiveAccessUnit session
      (answer.map fun _ => (), next)
  | .flush => run flush session
  | .reset => run reset session

theorem fresh_prepared {environment : Environment Image Feature} {configuration : Configuration}
    {session : EncoderSession Feature} {width height : ℕ} (hfresh : session.Fresh)
    {selection : Selection}
    (h : canvasFor environment configuration session width height = .ok selection)
    (plan : FramePlan) : (session.preparedFor selection plan).Fresh := by
  obtain ⟨hindex, hstarted⟩ := codedIndex_canvasFor hfresh h
  intro hs
  have hold : session.started = false := by
    rw [← hstarted]
    exact hs
  obtain ⟨hclear, hzero⟩ := hfresh hold
  refine ⟨?_, hindex.trans hzero⟩
  simp [preparedFor, referencesFor, hclear]

theorem fresh_commitFrame {p : EncoderSession Feature} {selection : Selection}
    (h : p.selected = some selection) (plan : FramePlan) (feature : Feature) :
    (p.commitFrame plan feature).Fresh := by
  intro hs
  simp [started, commitFrame, h] at hs

theorem fresh_sendFrame {configuration : Configuration} {session : EncoderSession Feature}
    (hfresh : session.Fresh) (environment : Environment Image Feature) (frame : Frame) :
    (run (sendFrame environment configuration frame) session).2.Fresh := by
  rw [run_sendFrame]
  split
  · exact hfresh
  split
  · exact hfresh
  rw [run_encode hfresh]
  cases hc : canvasFor environment configuration session frame.width.toNat frame.height.toNat with
  | error e => exact hfresh
  | ok selection =>
      simp only []
      cases codeFrame environment configuration selection (selection.scheduler.plan none)
          (session.referencesFor (selection.scheduler.plan none)) frame with
      | error e => exact fresh_prepared hfresh hc _
      | ok coded =>
          simp only []
          have hcommit := fresh_commitFrame (p := session.preparedFor selection
            (selection.scheduler.plan none)) rfl (selection.scheduler.plan none) coded.1
          cases makeUnit environment configuration selection (selection.scheduler.plan none)
              frame coded.2 with
          | error e => exact hcommit
          | ok serialized => exact hcommit

theorem fresh_step (configuration : Configuration) (session : EncoderSession Feature)
    (call : Call Image Feature) (hfresh : session.Fresh) :
    (step configuration session call).2.Fresh := by
  cases call with
  | sendFrame environment frame => exact fresh_sendFrame hfresh environment frame
  | receive =>
      simp only [step, receiveAccessUnit, run_bind, run_gets, id]
      split
      · exact hfresh
      · split <;> exact hfresh
  | flush => exact hfresh
  | reset =>
      intro _
      refine ⟨rfl, ?_⟩
      simp only [step, reset, run_update, codedIndex]
      cases session.selected <;> rfl

/-- In every reachable state, a frame whose sending fails leaves the coded index and the
reference store unchanged exactly when it fails safely. -/
theorem failed_frame_atomic_iff (configuration : Configuration)
    (calls : List (Call Image Feature)) (environment : Environment Image Feature)
    (frame : Frame) :
    Atomic environment configuration (final (step configuration) new calls) frame ↔
      FailsSafely environment configuration (final (step configuration) new calls) frame := by
  apply atomic_iff_failsSafely
  apply invariant_of_step (fresh_step configuration)
  intro _
  exact ⟨rfl, rfl⟩

/-- One canvas, and packets of at most 48 bytes. -/
def smallConfiguration : Configuration where
  models := [⟨"32x32", [109], smallModel⟩]
  intraQp := 1
  gopSize := 2
  maxPacketBytes := 48
  gop_size_ne := groupsOfTwo_ne

def smallFrame : Frame where
  width := 2
  height := 2
  pixelFormat := .yuv420p8
  timestamp := 0
  data := [0, 0, 0, 0, 0, 0]
  size_ok := Frame.smallest_size_ok

/-- An environment in which everything succeeds; features count the frames and the entropy
coder gives `n` bytes. -/
def smallEnvironment (n : ℕ) : Environment Unit ℕ where
  loadCanvas _ := .ok ()
  allocate _ := .ok ()
  zeroFeature _ := 0
  prepareInput _ _ := ()
  encoder _ _ reference _ := .ok ⟨reference + 1, [], [], []⟩
  entropyEncode _ _ _ := .ok (List.replicate n 7)
  entropyDecode _ _ _ := .ok ⟨[], [], []⟩
  decoder _ _ reference _ := .ok ((), reference + 1)
  finishOutput _ _ _ := 0

/-- The second frame is predicted and its payload exceeds the packet limit: the call fails after
the frame was saved and the coded index advanced. -/
theorem oversized_frame_not_atomic :
    ¬ Atomic (smallEnvironment 20) smallConfiguration
      (final (step smallConfiguration) new [.sendFrame (smallEnvironment 1) smallFrame])
      smallFrame := by
  intro h
  have hunchanged := h AccessUnitIo.limitError (by decide)
  exact absurd hunchanged.1 (by decide)

/-- An environment without memory. -/
def exhausted : Environment Unit ℕ :=
  { smallEnvironment 1 with
    allocate := fun _ => .error (mlvcError .resourceExhausted "no memory") }

/-- The third frame starts a new sequence and its coding fails: the references of the sequence
that goes on are gone. -/
example :
    (run (sendFrame exhausted smallConfiguration smallFrame) (final (step smallConfiguration) new
      [.sendFrame (smallEnvironment 1) smallFrame,
        .sendFrame (smallEnvironment 1) smallFrame])).2.references.entries = [] := by
  decide

end EncoderSession

end Nvcr.Mlvc
