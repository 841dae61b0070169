import Nvcr.RelatedRuns
import Nvcr.UfSharedSession

/-!
# Failed predicted groups of a DCVC-UF TensorRT session

A group call changes the reference piece by piece. Where it is stopped decides whether the
next group can tell that it was made.
-/

namespace Nvcr.Uf.TensorRt.Session

open StatefulResults

variable {τ γ α : Type}

section Computing

theorem compute_keeps {δ : Type} (p : Session τ → δ) (faults : Faults) (point : Point)
    (f : Session τ → Result α) : Action.Keeps p (compute faults point f) := by
  unfold compute
  cases faults point with
  | some e => exact Action.Keeps.fail e
  | none => exact Action.Keeps.bind (Action.Keeps.gets id) fun session => Action.Keeps.lift _

theorem compute_fails {faults : Faults} {point : Point} (h : (faults point).isSome)
    (f : Session τ → Result α) : Action.Fails (compute faults point f) := by
  obtain ⟨e, he⟩ := Option.isSome_iff_exists.mp h
  simp only [compute, he]
  exact Action.Fails.fail e

theorem compute_run {faults : Faults} {point : Point} (h : faults point = none)
    (f : Session τ → Result α) (session : Session τ) :
    (compute faults point f).run session = (f session, session) := by
  simp [compute, h, Action.run_bind]

theorem compute_relates {R E : Session τ → Session τ → Prop} {faults : Faults} {point : Point}
    {f : Session τ → Result α} (hE : ∀ s t, R s t → E s t) (h : ∀ s t, R s t → f s = f t) :
    Action.Relates R R E (compute faults point f) (compute faults point f) := by
  unfold compute
  cases faults point with
  | some e => exact Action.Relates.fail hE e
  | none =>
      refine Action.Relates.gets_bind (P := fun s t => f s = f t) h fun s t hst => ?_
      rw [hst]
      exact Action.Relates.lift (fun _ _ hR => hR) hE (f t)

end Computing

section Decoding

variable (stages : Stages τ γ) (environment : CallEnvironment) (request : GroupRequest)

/-- The checks before a group is decoded. -/
structure AcceptsGroup (session : Session τ) (request : GroupRequest) : Prop where
  referenced : session.decoder.featureI.isSome
  parallel : ¬ (request.entropyParallel = 0 ∨ request.entropyParallel > maxEntropyParallel)
  size : castInt request.width = session.preparation.width ∧
    castInt request.height = session.preparation.height

/-- Decoding a group up to its feature, its frames and its reset feature. -/
def groupFeatures : Action Error (Session τ) (List τ × τ) := do
  let symbols ← compute environment.faults .latents fun session =>
    stages.decodeGroup session.preparation request session.decoder.memory
  extract stages environment.faults .decoder
  let feature ← compute environment.faults .decoded fun session => do
    let latent ← stages.groupLatent session.preparation request symbols
    stages.decoder request.qp latent session.decoder.context
  updateReference .decoder fun reference => { reference with featureP := some feature }
  let heads ← compute environment.faults .heads fun _ => stages.heads feature
  let resetFeature ← compute environment.faults .reset fun _ => stages.reset feature
  pure (heads, resetFeature)

/-- The last part of decoding a group: the reference turns to it and the frames are fetched. -/
def finishGroup (decoded : List τ × τ) : Action Error (Session τ) (List Frame) := do
  updateReference .decoder fun reference =>
    { reference with
      featureI := some decoded.2
      memoryHasValue := !request.resetFeatureMemory }
  compute environment.faults .frames fun session =>
    stages.frames session.preparation request decoded.1

theorem decodeP_eq : decodeP stages environment request = (do
    let session ← Action.gets id
    Action.lift (require session.decoder.featureI.isSome
      (failure .malformedBitstream "HT-S group before an intra frame"))
    Action.lift (require (¬ (request.entropyParallel = 0 ∨
        request.entropyParallel > maxEntropyParallel))
      (failure .malformedBitstream "invalid DCVC-UF entropy parallelism"))
    Action.lift (require (castInt request.width = session.preparation.width ∧
        castInt request.height = session.preparation.height)
      (failure .malformedBitstream "HT-S group changes the frame size"))
    adapt stages environment.faults .decoder
    groupFeatures stages environment request >>= finishGroup stages environment request) := by
  simp only [decodeP, groupFeatures, finishGroup, bind_assoc, pure_bind]

theorem decodeP_accepted {session : Session τ} (h : AcceptsGroup session request) :
    (decodeP stages environment request).run session =
      Action.run (adapt stages environment.faults .decoder >>= fun _ =>
        groupFeatures stages environment request >>=
          finishGroup stages environment request) session := by
  simp only [decodeP_eq, require, Action.run_bind, Action.run_gets, Action.run_lift, id,
    if_pos h.referenced, if_pos h.parallel, if_pos h.size]

/-- Why a group is refused. -/
def groupRefusal (session : Session τ) (request : GroupRequest) : Error :=
  if session.decoder.featureI.isSome then
    if request.entropyParallel = 0 ∨ request.entropyParallel > maxEntropyParallel then
      failure .malformedBitstream "invalid DCVC-UF entropy parallelism"
    else failure .malformedBitstream "HT-S group changes the frame size"
  else failure .malformedBitstream "HT-S group before an intra frame"

theorem decodeP_refused {session : Session τ} (h : ¬ AcceptsGroup session request) :
    (decodeP stages environment request).run session =
      (.error (groupRefusal session request), session) := by
  unfold groupRefusal
  simp only [decodeP, Action.run_bind, Action.run_gets, Action.run_lift, id, require]
  by_cases hreferenced : session.decoder.featureI.isSome = true
  · by_cases hparallel :
        ¬ (request.entropyParallel = 0 ∨ request.entropyParallel > maxEntropyParallel)
    · by_cases hsize : castInt request.width = session.preparation.width ∧
          castInt request.height = session.preparation.height
      · exact absurd ⟨hreferenced, hparallel, hsize⟩ h
      · rw [if_pos hreferenced, if_pos hparallel, if_neg hsize, if_pos hreferenced,
          if_neg hparallel]
    · rw [if_pos hreferenced, if_neg hparallel, if_pos hreferenced, if_pos (not_not.mp hparallel)]
  · rw [if_neg hreferenced, if_neg hreferenced]

end Decoding

section Unnoticed

variable (stages : Stages τ γ)

/-- The next group cannot tell the two sessions apart. -/
structure SameForGroups (session session' : Session τ) : Prop where
  preparation : session.preparation = session'.preparation
  featureI : session.decoder.featureI = session'.decoder.featureI
  memoryHasValue : session.decoder.memoryHasValue = session'.decoder.memoryHasValue
  remembered : session.decoder.memoryHasValue = true →
    session.decoder.memory = session'.decoder.memory ∧
      session.decoder.featureP = session'.decoder.featureP

/-- After the adaptation the rest of a group reads the prepared buffers and the memory. -/
def SameMemory (session session' : Session τ) : Prop :=
  session.preparation = session'.preparation ∧ session.decoder.memory = session'.decoder.memory

def SameContext (session session' : Session τ) : Prop :=
  SameMemory session session' ∧ session.decoder.context = session'.decoder.context

theorem adapt_relates (faults : Faults) :
    Action.Relates SameForGroups SameMemory (fun _ _ => True)
      (adapt stages faults .decoder) (adapt stages faults .decoder) := by
  refine (compute_relates (fun _ _ _ => trivial) ?_).bind fun memory => Action.Relates.update ?_
  · intro s t h
    by_cases hmemory : t.decoder.memoryHasValue = true
    · obtain ⟨hm, hp⟩ := h.remembered (h.memoryHasValue.trans hmemory)
      simp [reference, h.memoryHasValue, hmemory, hm, hp]
    · simp [reference, h.memoryHasValue, hmemory, h.featureI]
  · exact fun s t h => ⟨h.preparation, rfl⟩

theorem groupFeatures_relates (environment : CallEnvironment) (request : GroupRequest) :
    Action.Relates SameMemory SameMemory (fun _ _ => True)
      (groupFeatures stages environment request) (groupFeatures stages environment request) := by
  refine (compute_relates (fun _ _ _ => trivial) ?_).bind fun symbols => ?_
  · rintro s t ⟨hpreparation, hmemory⟩
    rw [hpreparation, hmemory]
  refine Action.Relates.bind (Q := SameContext) ?_ fun _ => ?_
  · refine (compute_relates (fun _ _ _ => trivial) ?_).bind fun context => Action.Relates.update ?_
    · rintro s t ⟨-, hmemory⟩
      exact congrArg stages.extractor hmemory
    · exact fun s t h => ⟨h, rfl⟩
  refine (compute_relates (fun _ _ _ => trivial) ?_).bind fun feature => ?_
  · rintro s t ⟨⟨hpreparation, -⟩, hcontext⟩
    rw [hpreparation, hcontext]
  refine Action.Relates.bind (Q := SameMemory) (Action.Relates.update ?_) fun _ => ?_
  · exact fun s t h => h.1
  refine (compute_relates (fun _ _ _ => trivial) fun s t _ => rfl).bind fun heads => ?_
  exact (compute_relates (fun _ _ _ => trivial) fun s t _ => rfl).bind fun resetFeature =>
    Action.Relates.pure (fun s t h => h) _

theorem finishGroup_relates (environment : CallEnvironment) (request : GroupRequest)
    (decoded : List τ × τ) :
    Action.Relates SameMemory SameMemory (fun _ _ => True)
      (finishGroup stages environment request decoded)
      (finishGroup stages environment request decoded) := by
  refine Action.Relates.bind (Q := SameMemory) (Action.Relates.update fun s t h => h) fun _ => ?_
  refine compute_relates (fun _ _ _ => trivial) fun s t h => ?_
  rw [h.1]

/-- Sessions that are the same for groups answer every group alike. -/
theorem SameForGroups.decodeP {session session' : Session τ}
    (h : SameForGroups session session') (environment : CallEnvironment)
    (request : GroupRequest) :
    ((decodeP stages environment request).run session).1 =
      ((Session.decodeP stages environment request).run session').1 := by
  have hrelates : Action.Relates SameForGroups SameMemory (fun _ _ => True)
      (Session.decodeP stages environment request)
      (Session.decodeP stages environment request) := by
    rw [decodeP_eq]
    refine Action.Relates.gets_bind (P := SameForGroups) (fun s t hst => hst) fun s t hst => ?_
    rw [hst.featureI, hst.preparation]
    have hcheck (x : Result Unit) := Action.Relates.lift (R := SameForGroups (τ := τ))
      (fun _ _ hR => hR) (fun _ _ _ => trivial) x
    exact (hcheck _).bind fun _ => (hcheck _).bind fun _ => (hcheck _).bind fun _ =>
      (adapt_relates stages environment.faults).bind fun _ =>
        (groupFeatures_relates stages environment request).bind
          (finishGroup_relates stages environment request)
  rcases hrelates session session' h with ⟨frames, s, t, hs, ht, -⟩ | ⟨e, s, t, hs, ht, -⟩
  · rw [hs, ht]
  · rw [hs, ht]

/-- The environment stops the call at one of the points. -/
def Stops (faults : Faults) (points : List Point) : Prop := ∃ point ∈ points, (faults point).isSome

/-- The points between the adaptation of the memory and the turn of the reference. -/
def groupPoints : List Point := [.latents, .extracted, .decoded, .heads, .reset]

theorem groupFeatures_fails {environment : CallEnvironment}
    (h : Stops environment.faults groupPoints) (request : GroupRequest) :
    Action.Fails (groupFeatures stages environment request) := by
  obtain ⟨point, hpoint, hfault⟩ := h
  simp only [groupPoints, List.mem_cons, List.not_mem_nil, or_false] at hpoint
  unfold groupFeatures
  rcases hpoint with rfl | rfl | rfl | rfl | rfl
  · exact (compute_fails hfault _).bind _
  · refine Action.Fails.bind_right _ fun symbols => Action.Fails.bind ?_ _
    exact (compute_fails hfault _).bind _
  · refine Action.Fails.bind_right _ fun symbols => Action.Fails.bind_right _ fun _ => ?_
    exact (compute_fails hfault _).bind _
  · refine Action.Fails.bind_right _ fun symbols => Action.Fails.bind_right _ fun _ =>
      Action.Fails.bind_right _ fun feature => Action.Fails.bind_right _ fun _ => ?_
    exact (compute_fails hfault _).bind _
  · refine Action.Fails.bind_right _ fun symbols => Action.Fails.bind_right _ fun _ =>
      Action.Fails.bind_right _ fun feature => Action.Fails.bind_right _ fun _ =>
      Action.Fails.bind_right _ fun heads => ?_
    exact (compute_fails hfault _).bind _

/-- What a group keeps until its reference turns. -/
def turn (session : Session τ) : Preparation × Option τ × Bool :=
  (session.preparation, session.decoder.featureI, session.decoder.memoryHasValue)

/-- What the decoding of an adapted group keeps. -/
def held (session : Session τ) : (Preparation × Option τ × Bool) × Option τ :=
  (session.turn, session.decoder.memory)

theorem adapt_keeps (faults : Faults) : Action.Keeps turn (adapt stages faults .decoder) :=
  (compute_keeps turn faults _ _).bind fun _ => Action.Keeps.update fun _ => rfl

theorem groupFeatures_keeps (environment : CallEnvironment) (request : GroupRequest) :
    Action.Keeps held (groupFeatures stages environment request) := by
  have hextract : Action.Keeps held (extract stages environment.faults .decoder) :=
    (compute_keeps held environment.faults _ _).bind fun _ => Action.Keeps.update fun _ => rfl
  have hfeature (feature : τ) : Action.Keeps held (updateReference .decoder fun reference =>
      { reference with featureP := some feature }) :=
    Action.Keeps.update fun _ => rfl
  refine (compute_keeps held _ _ _).bind fun _ => hextract.bind fun _ =>
    (compute_keeps held _ _ _).bind fun feature => (hfeature feature).bind fun _ => ?_
  exact (compute_keeps held _ _ _).bind fun _ => (compute_keeps held _ _ _).bind
    fun _ => Action.Keeps.pure _

theorem groupFeatures_fails_of_malformed {request : GroupRequest}
    (h : ∀ preparation memory, ∃ e, stages.decodeGroup preparation request memory = .error e)
    (environment : CallEnvironment) :
    Action.Fails (groupFeatures stages environment request) := by
  refine Action.Fails.bind (fun session => ?_) _
  obtain ⟨e, he⟩ := h session.preparation session.decoder.memory
  rcases hfault : environment.faults .latents with _ | e'
  · exact ⟨e, session, by rw [compute_run hfault, he]⟩
  · exact ⟨e', session, by simp [compute, hfault]⟩

/-- A group that fails before the memory is adapted, or without a memory value before the
reference turns, is not noticed. -/
theorem unnoticed_of_fails {session : Session τ} {environment : CallEnvironment}
    {request : GroupRequest}
    (h : ¬ AcceptsGroup session request ∨ (environment.faults .adapted).isSome ∨
      (session.decoder.memoryHasValue = false ∧
        Action.Fails (groupFeatures stages environment request))) :
    SameForGroups ((decodeP stages environment request).run session).2 session := by
  have hrefl : SameForGroups session session := ⟨rfl, rfl, rfl, fun _ => ⟨rfl, rfl⟩⟩
  by_cases haccepts : AcceptsGroup session request
  · rw [decodeP_accepted stages environment request haccepts]
    rcases h with h | h | ⟨hmemory, hgroup⟩
    · exact absurd haccepts h
    · obtain ⟨e, he⟩ := Option.isSome_iff_exists.mp h
      have hstopped : (adapt stages environment.faults .decoder).run session =
          (.error e, session) := by
        simp [adapt, compute, he, Action.run_bind]
      rw [Action.run_bind_of_error hstopped]
      exact hrefl
    · have hkeeps : Action.Keeps turn (adapt stages environment.faults .decoder >>= fun _ =>
          groupFeatures stages environment request) :=
        (adapt_keeps stages environment.faults).bind fun _ later =>
          congrArg Prod.fst (groupFeatures_keeps stages environment request later)
      have hfails : Action.Fails (adapt stages environment.faults .decoder >>= fun _ =>
          groupFeatures stages environment request) :=
        Action.Fails.bind_right _ fun _ => hgroup
      obtain ⟨e, later, hrun⟩ := hfails session
      have hturn := hkeeps session
      rw [← bind_assoc, Action.run_bind_of_error hrun]
      rw [hrun] at hturn
      simp only [turn, Prod.mk.injEq] at hturn
      obtain ⟨hpreparation, hfeature, hvalue⟩ := hturn
      refine ⟨hpreparation, hfeature, hvalue, fun hsome => ?_⟩
      rw [hvalue, hmemory] at hsome
      exact nomatch hsome
  · rw [decodeP_refused stages environment request haccepts]
    exact hrefl

end Unnoticed

section Completing

/-- Every stage answers, but the coder refuses the malformed groups. -/
structure RefusesOnly (stages : Stages τ γ) (malformed : Bytes → Prop) : Prop where
  adaptorM : ∀ memory feature, ∃ a, stages.adaptorM memory feature = .ok a
  adaptorI : ∀ feature, ∃ a, stages.adaptorI feature = .ok a
  extractor : ∀ memory, ∃ a, stages.extractor memory = .ok a
  encodeGroup : ∀ preparation frames qp memory context,
    ∃ a, stages.encodeGroup preparation frames qp memory context = .ok a
  refused : ∀ preparation request memory, malformed request.bitstream →
    ∃ e, stages.decodeGroup preparation request memory = .error e
  decoded : ∀ preparation request memory, ¬ malformed request.bitstream →
    ∃ a, stages.decodeGroup preparation request memory = .ok a
  groupLatent : ∀ preparation request symbols,
    ∃ a, stages.groupLatent preparation request symbols = .ok a
  decoder : ∀ qp latent context, ∃ a, stages.decoder qp latent context = .ok a
  heads : ∀ feature, ∃ a, stages.heads feature = .ok a
  reset : ∀ feature, ∃ a, stages.reset feature = .ok a
  frames : ∀ preparation request heads, ∃ a, stages.frames preparation request heads = .ok a

theorem compute_completes {faults : Faults} {point : Point} (h : faults point = none)
    {f : Session τ → Result α} (hf : ∀ session, ∃ a, f session = .ok a) :
    Action.Completes (compute faults point f) := by
  intro session
  obtain ⟨a, ha⟩ := hf session
  exact ⟨a, session, by rw [compute_run h, ha]⟩

variable {stages : Stages τ γ} {malformed : Bytes → Prop} {environment : CallEnvironment}

theorem RefusesOnly.adapt (h : RefusesOnly stages malformed)
    (hfault : environment.faults .adapted = none) (direction : Direction) :
    Action.Completes (Session.adapt stages environment.faults direction) := by
  refine (compute_completes hfault fun session => ?_).bind fun _ => Action.Completes.update _
  by_cases hmemory : (session.reference direction).memoryHasValue = true
  · simpa only [hmemory, if_true] using h.adaptorM _ _
  · simpa only [if_neg hmemory] using h.adaptorI _

theorem RefusesOnly.extract (h : RefusesOnly stages malformed)
    (hfault : environment.faults .extracted = none) (direction : Direction) :
    Action.Completes (Session.extract stages environment.faults direction) :=
  (compute_completes hfault fun _ => h.extractor _).bind fun _ => Action.Completes.update _

theorem RefusesOnly.groupFeatures (h : RefusesOnly stages malformed)
    (hfaults : ∀ point ∈ groupPoints, environment.faults point = none) {request : GroupRequest}
    (hrequest : ¬ malformed request.bitstream) :
    Action.Completes (Session.groupFeatures stages environment request) := by
  refine (compute_completes (hfaults .latents (by decide)) fun _ =>
    h.decoded _ _ _ hrequest).bind fun symbols => ?_
  refine (h.extract (hfaults .extracted (by decide)) .decoder).bind fun _ => ?_
  refine (compute_completes (hfaults .decoded (by decide)) fun session => ?_).bind fun feature =>
    (Action.Completes.update _).bind fun _ => ?_
  · obtain ⟨latent, hlatent⟩ := h.groupLatent session.preparation request symbols
    simpa only [hlatent, ok_bind] using h.decoder _ _ _
  exact (compute_completes (hfaults .heads (by decide)) fun _ => h.heads _).bind fun _ =>
    (compute_completes (hfaults .reset (by decide)) fun _ => h.reset _).bind fun _ =>
      Action.Completes.pure _

theorem RefusesOnly.finishGroup (h : RefusesOnly stages malformed)
    (hfault : environment.faults .frames = none) (request : GroupRequest)
    (decoded : List τ × τ) :
    Action.Completes (Session.finishGroup stages environment request decoded) :=
  (Action.Completes.update _).bind fun _ => compute_completes hfault fun _ => h.frames _ _ _

end Completing

end Nvcr.Uf.TensorRt.Session
