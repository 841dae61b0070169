import Nvcr.MlvcSequence
import Nvcr.TransitionRuns

/-!
# Agreement of the MLVC encoder and decoder schedulers

The encoder decides intra frames by its own period, and the decoder sees only the flags of
the delivered access units. Units wait in the encoder's output queue, which a reset of the
encoder discards.
-/

namespace Nvcr.Mlvc

open TransitionRuns

/-- An emitted access unit: the decoder reads its intra flag and Q index, the plan and the
effective Q index are those the encoder used. -/
structure SentUnit where
  plan : FramePlan
  qIndex : ℕ
  effectiveQ : ℕ
  deriving DecidableEq, Repr

/-- What the decoder computes for a delivered unit, beside what the encoder computed. -/
structure Delivery where
  sent : SentUnit
  decoded : Option (FramePlan × ℕ)
  deriving DecidableEq, Repr

section Link

variable (model : ModelParameters) (qIndex : ℕ)

/-- A predicted unit is planned only after the first intra unit. -/
def decoderPlan (decoder : FrameScheduler) (intra : Bool) : Option FramePlan :=
  if !intra && !decoder.started then none else some (decoder.plan (some intra))

end Link

/-- Equal parameters up to the I period, which only the encoder reads. -/
structure LoopParameters.SameReferences (p q : LoopParameters) : Prop where
  resetPeriod : p.resetPeriod = q.resetPeriod
  ltrStartIdx : p.ltrStartIdx = q.ltrStartIdx
  ltrPeriod : p.ltrPeriod = q.ltrPeriod
  proactive : p.proactiveLtrRecovery = q.proactiveLtrRecovery

namespace FrameScheduler

theorem planAt_congr {p q : LoopParameters} (h : p.SameReferences q) (intra : Bool) (index : ℕ)
    (latestLtr : Option ℕ) : planAt p intra index latestLtr = planAt q intra index latestLtr := by
  have hmark : marksAsLtr p index = marksAsLtr q index := by
    simp only [marksAsLtr, h.ltrStartIdx, h.ltrPeriod]
  simp only [planAt, hmark, h.resetPeriod, h.proactive]

/-- The decoder-side state of a sequence follows the encoder's. -/
structure Synced (encoder decoder : FrameScheduler) : Prop where
  encoder_started : encoder.started = true
  decoder_started : decoder.started = true
  codedIndex : encoder.codedIndex = decoder.codedIndex
  latestLtr : encoder.latestLtr = decoder.latestLtr

/-- Planning by the stream's flag gives the plan that chose the flag: an intra plan depends on
no counter, and a predicted one only on counters that agree. -/
theorem plan_of_flag {encoder decoder : FrameScheduler}
    (hp : encoder.parameters.SameReferences decoder.parameters)
    (hs : (encoder.plan none).isIntra = false → Synced encoder decoder) :
    decoder.plan (some (encoder.plan none).isIntra) = encoder.plan none := by
  have hflag := encoder.plan_isIntra none
  rw [hflag]
  cases hintra : encoder.intraNext none with
  | true =>
      rw [plan_of_intra hintra, plan_of_intra (intraNext_some decoder true)]
      exact (planAt_congr hp _ _ _).symm
  | false =>
      have hsync := hs (hflag.trans hintra)
      rw [plan_of_not_intra hintra, plan_of_not_intra (intraNext_some decoder false),
        hsync.codedIndex, hsync.latestLtr]
      exact (planAt_congr hp _ _ _).symm

/-- Committing one plan on both sides synchronises them. -/
theorem Synced.commit {encoder decoder : FrameScheduler} (plan : FramePlan)
    (hs : plan.isIntra = false → Synced encoder decoder) :
    Synced (encoder.commit plan) (decoder.commit plan) := by
  refine ⟨rfl, rfl, rfl, ?_⟩
  simp only [FrameScheduler.commit]
  by_cases hmark : plan.markAsLtr = true
  · simp [hmark]
  · by_cases hintra : plan.frameClass = .intra
    · simp [hintra]
    · simp [hmark, hintra, (hs (by simp [FramePlan.isIntra, hintra])).latestLtr]

end FrameScheduler

open FrameScheduler

/-- The decoder, once it has processed the queued units, has computed the encoder's plans and
agrees with the encoder. -/
def Follows (model : ModelParameters) : FrameScheduler → List SentUnit → FrameScheduler → Prop
  | encoder, [], decoder => Synced encoder decoder
  | encoder, unit :: rest, decoder =>
      unit.effectiveQ = shiftedQIndex model unit.qIndex unit.plan.codedIndex ∧
      decoderPlan decoder unit.plan.isIntra = some unit.plan ∧
      Follows model encoder rest (decoder.commit unit.plan)

theorem Follows.started {model : ModelParameters} {encoder decoder : FrameScheduler}
    {outputs : List SentUnit} (h : Follows model encoder outputs decoder) :
    encoder.started = true := by
  induction outputs generalizing decoder with
  | nil => exact h.encoder_started
  | cons unit rest ih => exact ih h.2.2

theorem decoderPlan_of_flag {encoder decoder : FrameScheduler}
    (hp : encoder.parameters.SameReferences decoder.parameters)
    (hs : (encoder.plan none).isIntra = false → Synced encoder decoder) :
    decoderPlan decoder (encoder.plan none).isIntra = some (encoder.plan none) := by
  have hplan := plan_of_flag hp hs
  unfold decoderPlan
  rw [hplan]
  cases hflag : (encoder.plan none).isIntra with
  | true => rfl
  | false => simp [(hs hflag).decoder_started]

/-- The frame just coded extends the queue that the decoder follows. -/
theorem Follows.frame {model : ModelParameters} {encoder decoder : FrameScheduler}
    {outputs : List SentUnit} (q : ℕ)
    (hp : encoder.parameters.SameReferences decoder.parameters)
    (h : Follows model encoder outputs decoder) :
    let plan := encoder.plan none
    Follows model (encoder.commit plan)
      (outputs ++ [⟨plan, q, shiftedQIndex model q plan.codedIndex⟩]) decoder := by
  induction outputs generalizing decoder with
  | nil =>
      exact ⟨rfl, decoderPlan_of_flag hp fun _ => h, Synced.commit _ fun _ => h⟩
  | cons unit rest ih =>
      refine ⟨h.1, h.2.1, ih ?_ h.2.2⟩
      exact hp

/-- A delivery is faithful when the decoder has the encoder's plan and effective Q index. -/
def Delivery.Agrees (delivery : Delivery) : Prop :=
  delivery.decoded = some (delivery.sent.plan, delivery.sent.effectiveQ)

end Nvcr.Mlvc
