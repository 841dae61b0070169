import Nvcr.RtFaultFree
import Nvcr.RtStageShapes

/-!
# The first stage of a predicted frame

The first stage that a predicted frame submits is the one that reads its reference. It is
submitted exactly when a few requests to the provider succeed; a failure before it leaves the
record of submissions as it was.
-/

namespace Nvcr.Rt

open StatefulResults Codec HostOps

variable {A : HostArithmetic} {R : RansCoder} {p : Provider A} {g : Geometry} {α β : Type}

/-- The next requests succeed. -/
def Provider.Grants (p : Provider A) (first count : ℕ) : Prop :=
  ∀ number, number < count → p.fault (first + number) = none

theorem Provider.grants_add {first m n : ℕ} :
    p.Grants first (m + n) ↔ p.Grants first m ∧ p.Grants (first + m) n := by
  constructor
  · intro h
    refine ⟨fun number hnumber => h number (by omega), fun number hnumber => ?_⟩
    rw [Nat.add_assoc]
    exact h (m + number) (by omega)
  · rintro ⟨hm, hn⟩ number hnumber
    by_cases hlt : number < m
    · exact hm number hlt
    · have hlater := hn (number - m) (by omega)
      rwa [show first + m + (number - m) = first + number by omega] at hlater

namespace Work

/-- The action makes a number of requests and submits nothing; it succeeds, with a value that meets
`post`, if all of them do, and fails otherwise. -/
def Prepares (p : Provider A) (count : ℕ) (x : Work A α) (post : α → Prop) : Prop :=
  ∀ activity : Activity A,
    (p.Grants activity.requests count → ∃ value activity', x.run activity = (.ok value, activity') ∧
      post value ∧ activity'.requests = activity.requests + count ∧
      activity'.submissions = activity.submissions) ∧
    (¬ p.Grants activity.requests count → ∃ fault activity',
      x.run activity = (.error fault, activity') ∧ activity'.submissions = activity.submissions)

/-- After a number of requests the action submits a given stage. -/
def Opens (p : Provider A) (count : ℕ) (x : Work A α) (stage : Stage) : Prop :=
  ∀ activity : Activity A,
    (p.Grants activity.requests count →
      ∃ submission ∈ (x.run activity).2.submissions, submission.stage = stage) ∧
    (¬ p.Grants activity.requests count →
      (x.run activity).2.submissions = activity.submissions ∧
      ∀ value, (x.run activity).1 ≠ .ok value)

section Rules

variable {count more : ℕ} {x : Work A α} {f : α → Work A β} {mid : α → Prop} {post : β → Prop}
  {stage : Stage}

/-- An action that submits stages or none, of whatever shapes. -/
abbrev Grows (x : Work A α) : Prop := Submits (fun _ => True) x fun _ => True

theorem Prepares.pure {value : α} {post : α → Prop} (h : post value) :
    Prepares p 0 (pure value : Work A α) post :=
  fun activity => ⟨fun _ => ⟨value, activity, rfl, h, rfl, rfl⟩,
    fun hnot => absurd (fun _ hlt => absurd hlt (Nat.not_lt_zero _)) hnot⟩

theorem Prepares.bind (hx : Prepares p count x mid)
    (hf : ∀ a, mid a → Prepares p more (f a) post) : Prepares p (count + more) (x >>= f) post := by
  intro activity
  rw [Provider.grants_add]
  obtain ⟨hgranted, hrefused⟩ := hx activity
  by_cases hfirst : p.Grants activity.requests count
  · obtain ⟨a, middle, hrun, hmid, hrequests, hsubmissions⟩ := hgranted hfirst
    obtain ⟨hlater, hfailed⟩ := hf a hmid middle
    rw [hrequests, hsubmissions] at hlater hfailed
    rw [Action.run_bind_of_ok hrun]
    constructor
    · rintro ⟨-, hmore⟩
      obtain ⟨b, last, hlast, hpost, hcount, hsame⟩ := hlater hmore
      exact ⟨b, last, hlast, hpost, by rw [hcount, Nat.add_assoc], hsame⟩
    · exact fun hnot => hfailed fun hmore => hnot ⟨hfirst, hmore⟩
  · obtain ⟨fault, last, hrun, hsame⟩ := hrefused hfirst
    exact ⟨fun h => absurd h.1 hfirst,
      fun _ => ⟨fault, last, Action.run_bind_of_error hrun, hsame⟩⟩

theorem Prepares.bind_done (hx : Prepares p count x mid)
    (hf : ∀ a, mid a → Prepares p 0 (f a) post) : Prepares p count (x >>= f) post :=
  hx.bind hf

theorem Opens.of_prepares (hx : Prepares p count x mid)
    (hf : ∀ a, mid a → Opens p more (f a) stage) : Opens p (count + more) (x >>= f) stage := by
  intro activity
  rw [Provider.grants_add]
  obtain ⟨hgranted, hrefused⟩ := hx activity
  by_cases hfirst : p.Grants activity.requests count
  · obtain ⟨a, middle, hrun, hmid, hrequests, hsubmissions⟩ := hgranted hfirst
    obtain ⟨hlater, hfailed⟩ := hf a hmid middle
    rw [hrequests] at hlater hfailed
    rw [hsubmissions] at hfailed
    rw [Action.run_bind_of_ok hrun]
    exact ⟨fun h => hlater h.2, fun hnot => hfailed fun hmore => hnot ⟨hfirst, hmore⟩⟩
  · obtain ⟨fault, last, hrun, hsame⟩ := hrefused hfirst
    rw [Action.run_bind_of_error hrun]
    exact ⟨fun h => absurd h.1 hfirst, fun _ => ⟨hsame, fun _ hvalue => nomatch hvalue⟩⟩

/-- Later work keeps what was submitted. -/
theorem Opens.bind (hx : Opens p count x stage) (hf : ∀ a, Grows (f a)) :
    Opens p count (x >>= f) stage := by
  intro activity
  obtain ⟨hgranted, hrefused⟩ := hx activity
  constructor
  · intro hall
    obtain ⟨submission, hmem, hstage⟩ := hgranted hall
    rw [Action.run_bind]
    rcases hrun : x.run activity with ⟨fault | a, middle⟩
    · rw [hrun] at hmem
      exact ⟨submission, hmem, hstage⟩
    · rw [hrun] at hmem
      obtain ⟨⟨entries, hlog, -⟩, -⟩ := hf a middle
      refine ⟨submission, ?_, hstage⟩
      rw [hlog]
      exact List.mem_append_left _ hmem
  · intro hnot
    obtain ⟨hsame, hfails⟩ := hrefused hnot
    rw [Action.run_bind]
    rcases hrun : x.run activity with ⟨fault | a, middle⟩
    · rw [hrun] at hsame
      exact ⟨hsame, fun _ hvalue => nomatch hvalue⟩
    · exact absurd (congrArg Prod.fst hrun) (hfails a)

end Rules

theorem request_prepares : Prepares p 1 (request p) fun _ => True := by
  intro activity
  have hgrants : p.Grants activity.requests 1 ↔ p.fault activity.requests = none :=
    ⟨fun h => h 0 Nat.zero_lt_one, fun h number hlt => by rwa [Nat.lt_one_iff.mp hlt]⟩
  rw [hgrants]
  cases hfault : p.fault activity.requests with
  | none =>
      refine ⟨fun _ => ⟨(), { activity with requests := activity.requests + 1 }, ?_, trivial, rfl,
        rfl⟩, fun hnot => absurd rfl hnot⟩
      simp [request, Action.run_bind, hfault]
  | some fault =>
      refine ⟨(fun hnone => by cases hnone), fun _ =>
        ⟨fault, { activity with requests := activity.requests + 1 }, ?_, rfl⟩⟩
      simp [request, Action.run_bind, hfault]

theorem allocateTensor_prepares (shape : Shape4D) :
    Prepares p 1 (allocateTensor p shape) fun tensor =>
      tensor = ⟨shape, List.replicate shape.count 0⟩ :=
  request_prepares.bind_done fun _ _ => .pure rfl

theorem quantTensor_prepares {table : List A.Float} {qp channels : ℕ}
    (h : (qp + 1) * channels ≤ table.length) :
    Prepares p 1 (quantTensor p table qp channels) fun _ => True := by
  have hentry : ¬ table.length < qp * channels + channels := by
    rw [Nat.succ_mul] at h
    omega
  simp only [quantTensor, if_neg hentry]
  exact (allocateTensor_prepares _).bind_done fun _ _ => .pure trivial

theorem inputFrameTensor_prepares {frame : Frame}
    (hformat : frame.pixelFormat = .rgb24 ∨ frame.pixelFormat = .yuv420p8)
    (hsize : Payload.SupportedDimensions frame.width frame.height) :
    Prepares p 1 (inputFrameTensor p frame) fun _ => True := by
  obtain ⟨values, hvalues⟩ := exists_convertedInput (A := A) hformat hsize
  refine (allocateTensor_prepares _).bind_done fun tensor htensor => ?_
  subst htensor
  simp only [List.length_replicate, hvalues, hostOp]
  exact .pure trivial

theorem runStage_opens (stage : Stage) (inputs : List (Binding A)) :
    Opens p 0 (runStage p stage inputs) stage := by
  intro activity
  refine ⟨fun _ => ⟨⟨stage, inputs⟩, ?_, rfl⟩,
    fun hnot => absurd (fun _ hlt => absurd hlt (Nat.not_lt_zero _)) hnot⟩
  have hlater : Grows (A := A)
      (do
        request p
        request p
        pure fun (name : String) (buffer : Tensor A) =>
          { buffer with
            values := (List.range buffer.values.length).map (p.value stage inputs name) }) :=
    .bind request_submits fun _ _ => .bind request_submits fun _ _ => .pure trivial
  obtain ⟨⟨entries, hlog, -⟩, -⟩ :=
    hlater { activity with submissions := activity.submissions ++ [⟨stage, inputs⟩] }
  have hrun : ((runStage p stage inputs).run activity).2.submissions =
      (activity.submissions ++ [⟨stage, inputs⟩]) ++ entries := hlog
  rw [hrun]
  simp

variable {assets : PredictedAssets A} {reference : Binding A} {useFrameReference : Bool} {qp : ℕ}

theorem referenceContexts_opens (hqp : qp < 72) :
    Opens p 3 (referenceContexts p assets g reference useFrameReference qp)
      (.predicted (referenceStage useFrameReference)) := by
  have hentry : (qp + 1) * 256 ≤ assets.qFeature.length := by
    rw [assets.qFeature_length]
    omega
  change Opens p (1 + (1 + (1 + 0))) _ _
  exact .of_prepares (quantTensor_prepares hentry) fun _ _ =>
    .of_prepares (allocateTensor_prepares _) fun _ _ =>
    .of_prepares (allocateTensor_prepares _) fun _ _ =>
    .bind (runStage_opens _ _) fun _ => .pure trivial

theorem analyzePredicted_opens {frame : Frame} (hqp : qp < 72)
    (hformat : frame.pixelFormat = .rgb24 ∨ frame.pixelFormat = .yuv420p8)
    (hsize : Payload.SupportedDimensions frame.width frame.height) :
    Opens p 4 (analyzePredicted p assets (Geometry.ofSize frame.width frame.height) frame reference
      useFrameReference qp) (.predicted (referenceStage useFrameReference)) := by
  have hcontexts : Opens p 3 (referenceContexts p assets (Geometry.ofSize frame.width frame.height)
      reference useFrameReference qp) (.predicted (referenceStage useFrameReference)) :=
    referenceContexts_opens hqp
  refine .of_prepares (inputFrameTensor_prepares hformat hsize) fun input _ =>
    .bind hcontexts fun contexts => ?_
  exact .bind (quantTensor_submits _ _ _) fun _ _ => .bind (allocateTensor_submits _) fun _ _ =>
    .bind (runStage_submits trivial) fun _ _ => .bind (allocateTensor_submits _) fun _ _ =>
    .bind hostOp_submits fun _ _ => .bind (allocateTensor_submits _) fun _ _ =>
    .bind (runStage_submits trivial) fun _ _ => .bind hostOp_submits fun _ _ =>
    .bind (predictedPrior_submits trivial) fun _ _ => .bind hostOp_submits fun _ _ =>
    .bind request_submits fun _ _ => .bind (encodePredictedStage_submits _ _ _ _ _) fun _ _ =>
    .bind (predictedSpatialPrior_submits fun _ _ => trivial) fun _ _ =>
    .bind (encodePredictedStage_submits _ _ _ _ _) fun _ _ => .bind hostOp_submits fun _ _ =>
    .bind (synthesizePredicted_submits qp fun _ _ _ _ => trivial) fun _ _ => .pure trivial

end Work

end Nvcr.Rt
