import Nvcr.UfGroupEffects

/-!
# The two directions of one DCVC-UF TensorRT session

Encoder and decoder calls of one session share the prepared size. As long as each group finds the
size that its own direction prepared, neither direction can tell whether the other one is there.
-/

namespace Nvcr.Uf.TensorRt

open StatefulResults TransitionRuns

variable {τ γ α : Type}

/-- One call of the session, with what its environment does. -/
inductive Call where
  | encodeIntra (environment : CallEnvironment) (frame : Frame) (qp : UInt32)
  | decodeIntra (environment : CallEnvironment) (request : IntraRequest)
  | encodePredicted (environment : CallEnvironment) (frames : List Frame) (qp : UInt32)
      (resetMemory : Bool)
  | decodePredicted (environment : CallEnvironment) (request : GroupRequest)

inductive Answer where
  | encoded (result : Result Encoded)
  | frame (result : Result Frame)
  | frames (result : Result (List Frame))

namespace Call

def direction : Call → Direction
  | .encodeIntra .. => .encoder
  | .decodeIntra .. => .decoder
  | .encodePredicted .. => .encoder
  | .decodePredicted .. => .decoder

/-- The size a call prepares. -/
def preparedSize : Call → Option (ℤ × ℤ)
  | .encodeIntra _ frame _ => some (Session.castInt frame.width, Session.castInt frame.height)
  | .decodeIntra _ request =>
      if request.entropyParallel = 0 ∨ request.entropyParallel > maxEntropyParallel then none
      else some (Session.castInt request.width, Session.castInt request.height)
  | _ => none

def environment : Call → CallEnvironment
  | .encodeIntra environment .. => environment
  | .decodeIntra environment .. => environment
  | .encodePredicted environment .. => environment
  | .decodePredicted environment .. => environment

end Call

namespace Session

def step (stages : Stages τ γ) (session : Session τ) : Call → Answer × Session τ
  | .encodeIntra environment frame qp =>
      let result := (encodeIntra stages environment frame qp).run session
      (.encoded result.1, result.2)
  | .decodeIntra environment request =>
      let result := (decodeIntra stages environment request).run session
      (.frame result.1, result.2)
  | .encodePredicted environment frames qp resetMemory =>
      let result := (encodePredicted stages environment frames qp resetMemory).run session
      (.encoded result.1, result.2)
  | .decodePredicted environment request =>
      let result := (decodePredicted stages environment request).run session
      (.frames result.1, result.2)

section Preparing

/-- What a complete preparation leaves. -/
def preparedFor (size : ℤ × ℤ) : Preparation where
  width := size.1
  height := size.2
  h16 := (ceilTo size.2 16).tdiv 16
  w16 := (ceilTo size.1 16).tdiv 16
  masks := fun step => some
    (maskTensor ((ceilTo size.2 16).tdiv 16) ((ceilTo size.1 16).tdiv 16) step)
  scratch := some scratchTensor
  ones := some onesRow

/-- Nothing has been prepared, or a size has been prepared completely. -/
def Prepared (preparation : Preparation) : Prop :=
  preparation = {} ∨ ∃ size ≠ (0, 0), preparation = preparedFor size

/-- Preparations of one size are the same. -/
theorem Prepared.unique {p q : Preparation} (hp : Prepared p) (hq : Prepared q)
    (hwidth : p.width = q.width) (hheight : p.height = q.height) : p = q := by
  rcases hp with rfl | ⟨size, hsize, rfl⟩
  · rcases hq with rfl | ⟨size', hsize', rfl⟩
    · rfl
    · exact absurd (Prod.ext hwidth.symm hheight.symm) hsize'
  · rcases hq with rfl | ⟨size', hsize', rfl⟩
    · exact absurd (Prod.ext hwidth hheight) hsize
    · have hsame : size = size' := Prod.ext hwidth hheight
      rw [hsame]

/-- A preparation in which nothing fails. -/
def Calm (environment : CallEnvironment) : Prop :=
  ∀ operation, environment.preparation operation = .ok ()

theorem prepareBuffers_run {environment : CallEnvironment} (hcalm : Calm environment)
    {preparation : Preparation} (h : Prepared preparation) {width height : ℤ}
    (hsize : (width, height) ≠ (0, 0)) :
    (prepareBuffers environment.preparation width height).run preparation =
      (.ok (), preparedFor (width, height)) := by
  set call : PrepareCall := ⟨width, height, environment.preparation⟩ with hcall
  have hok (operation : Operation) : environment.preparation.ok operation = true :=
    ok_eq_true.mpr (hcalm operation)
  by_cases hsame : width = preparation.width ∧ height = preparation.height
  · have hrun : prepareStep preparation call = (.ok (), preparation) := prepareStep_same hsame
    rcases h with rfl | ⟨size, -, rfl⟩
    · exact absurd (Prod.ext hsame.1 hsame.2) hsize
    · have hprepared : size = (width, height) := Prod.ext hsame.1.symm hsame.2.symm
      rw [hprepared] at hrun ⊢
      exact hrun
  · obtain ⟨hstate, hresult⟩ : (prepareStep preparation call).2 = preparation.advanced call ∧
        (prepareStep preparation call).1.isOk = call.environment.storesOnes :=
      prepareStep_other hsame
    have hmask (step : Fin 4) : environment.preparation.storesMask step = true := by
      simp [Environment.storesMask, Environment.okMask, hok]
    have hscratch : environment.preparation.storesScratch = true := by
      simp [Environment.storesScratch, hmask, hok]
    have hones : environment.preparation.storesOnes = true := by
      simp [Environment.storesOnes, hscratch, hok]
    have hadvanced : preparation.advanced call = preparedFor (width, height) := by
      simp [Preparation.advanced, hcall, hmask, hscratch, hones, Preparation.withMasks,
        Preparation.resized, preparedFor]
    rw [hones] at hresult
    obtain ⟨u, hu⟩ : ∃ u, (prepareStep preparation call).1 = .ok u := by
      rcases hleft : (prepareStep preparation call).1 with e | u
      · rw [hleft] at hresult
        cases hresult
      · exact ⟨u, rfl⟩
    exact Prod.ext hu (hstate.trans hadvanced)

theorem prepare_run {environment : CallEnvironment} (hcalm : Calm environment)
    {session : Session τ} (h : Prepared session.preparation) {width height : UInt32}
    (hsize : (castInt width, castInt height) ≠ (0, 0)) :
    (prepare environment width height).run session =
      (.ok (), { session with preparation := preparedFor (castInt width, castInt height) }) := by
  rw [prepare, Action.run_zoom, prepareBuffers_run hcalm h hsize]

end Preparing

section Locality

/-- Sessions that a direction cannot tell apart. -/
structure SameFor (direction : Direction) (s t : Session τ) : Prop where
  preparation : s.preparation = t.preparation
  reference : s.reference direction = t.reference direction

/-- An action that reads the preparation and one reference, and changes only that reference. -/
structure Confined (direction : Direction) (x : Action Error (Session τ) α) : Prop where
  same : Action.Relates (SameFor direction) (SameFor direction) (SameFor direction) x x
  preparation : Action.Keeps Session.preparation x
  other : ∀ other ≠ direction, Action.Keeps (reference other) x

variable {direction : Direction}

theorem Confined.bind {β : Type} {x : Action Error (Session τ) α}
    {f : α → Action Error (Session τ) β} (hx : Confined direction x)
    (hf : ∀ a, Confined direction (f a)) : Confined direction (x >>= f) where
  same := hx.same.bind fun a => (hf a).same
  preparation := hx.preparation.bind fun a => (hf a).preparation
  other other hother := (hx.other other hother).bind fun a => (hf a).other other hother

theorem Confined.pure (a : α) : Confined direction (pure a : Action Error (Session τ) α) where
  same := Action.Relates.pure (fun _ _ h => h) a
  preparation := Action.Keeps.pure a
  other _ _ := Action.Keeps.pure a

/-- What the session computes from its preparation and the reference. -/
theorem Confined.compute {faults : Faults} {point : Point}
    (f : Preparation → Reference τ → Result α) :
    Confined direction (compute faults point fun session =>
      f session.preparation (session.reference direction)) where
  same := compute_relates (fun _ _ h => h) fun s t h => by rw [h.preparation, h.reference]
  preparation := compute_keeps _ _ _ _
  other _ _ := compute_keeps _ _ _ _

theorem Confined.guarded {faults : Faults} {x : Action Error (Session τ) α}
    (hx : Confined direction x) : Confined direction (guarded faults x) :=
  hx.bind fun output => Confined.compute fun _ _ => .ok output

@[simp] theorem reference_setReference (reference : Reference τ) (session : Session τ) :
    (session.setReference direction reference).reference direction = reference := by
  cases direction with
  | encoder => rfl
  | decoder => rfl

@[simp] theorem preparation_setReference (reference : Reference τ) (session : Session τ) :
    (session.setReference direction reference).preparation = session.preparation := by
  cases direction with
  | encoder => rfl
  | decoder => rfl

theorem reference_setReference_of_ne {other : Direction} (h : other ≠ direction)
    (reference : Reference τ) (session : Session τ) :
    (session.setReference direction reference).reference other = session.reference other := by
  cases direction with
  | encoder =>
      cases other with
      | encoder => exact absurd rfl h
      | decoder => rfl
  | decoder =>
      cases other with
      | encoder => rfl
      | decoder => exact absurd rfl h

theorem Confined.updateReference (f : Reference τ → Reference τ) :
    Confined direction (updateReference direction f) where
  same := Action.Relates.update fun s t h =>
    ⟨by simpa using h.preparation, by simp [h.reference]⟩
  preparation := Action.Keeps.update fun session => preparation_setReference _ session
  other _ hother := Action.Keeps.update fun session => reference_setReference_of_ne hother _ session

/-- Sessions that look the same to the direction are answered alike and stay so. -/
theorem Confined.run {x : Action Error (Session τ) α} (hx : Confined direction x)
    {s t : Session τ} (h : SameFor direction s t) :
    (x.run s).1 = (x.run t).1 ∧ SameFor direction (x.run s).2 (x.run t).2 := by
  rcases hx.same s t h with ⟨a, s', t', hs, ht, hsame⟩ | ⟨e, s', t', hs, ht, hsame⟩
  · rw [hs, ht]
    exact ⟨rfl, hsame⟩
  · rw [hs, ht]
    exact ⟨rfl, hsame⟩

variable (stages : Stages τ γ) (environment : CallEnvironment)

theorem adapt_confined (direction : Direction) :
    Confined direction (adapt stages environment.faults direction) :=
  (Confined.compute fun _ reference =>
    if reference.memoryHasValue then stages.adaptorM reference.memory reference.featureP
    else stages.adaptorI reference.featureI).bind fun _ => Confined.updateReference _

theorem extract_confined (direction : Direction) :
    Confined direction (extract stages environment.faults direction) :=
  (Confined.compute fun _ reference => stages.extractor reference.memory).bind fun _ =>
    Confined.updateReference _

theorem referenceFromFrame_confined (direction : Direction) (frame : τ) (applyAdaptor : Bool) :
    Confined direction
      (referenceFromFrame stages environment.faults direction frame applyAdaptor) := by
  refine (Confined.compute fun preparation _ => stages.unshuffle preparation frame).bind
    fun _ => (Confined.updateReference _).bind fun _ => ?_
  cases applyAdaptor with
  | true => exact (adapt_confined stages environment direction).bind fun _ =>
      extract_confined stages environment direction
  | false => exact Confined.pure ()

/-- Encoding an intra frame after the preparation. -/
def encodePrepared (frame : Frame) (qp : UInt32) : Action Error (Session τ) Encoded := do
  let encoded ← compute environment.faults .latents fun session =>
    stages.encodeIntra session.preparation frame qp
  let reconstructed ← compute environment.faults .reconstructed fun session =>
    stages.intraFrame session.preparation qp encoded.2
  referenceFromFrame stages environment.faults .encoder reconstructed true
  pure encoded.1

/-- Decoding an intra frame after the preparation. -/
def decodePrepared (request : IntraRequest) : Action Error (Session τ) Frame := do
  let latent ← compute environment.faults .latents fun session =>
    stages.decodeIntra session.preparation request
  let frame ← compute environment.faults .reconstructed fun session =>
    stages.intraFrame session.preparation request.qp latent
  referenceFromFrame stages environment.faults .decoder frame false
  compute environment.faults .frames fun session =>
    stages.download session.preparation request frame

theorem encodePrepared_confined (frame : Frame) (qp : UInt32) :
    Confined .encoder (encodePrepared stages environment frame qp) :=
  (Confined.compute fun preparation _ => stages.encodeIntra preparation frame qp).bind
    fun encoded => (Confined.compute fun preparation _ =>
      stages.intraFrame preparation qp encoded.2).bind fun reconstructed =>
        (referenceFromFrame_confined stages environment .encoder reconstructed true).bind
          fun _ => Confined.pure _

theorem decodePrepared_confined (request : IntraRequest) :
    Confined .decoder (decodePrepared stages environment request) :=
  (Confined.compute fun preparation _ => stages.decodeIntra preparation request).bind
    fun latent => (Confined.compute fun preparation _ =>
      stages.intraFrame preparation request.qp latent).bind fun frame =>
        (referenceFromFrame_confined stages environment .decoder frame false).bind
          fun _ => Confined.compute fun preparation _ => stages.download preparation request frame

theorem groupFeatures_confined (request : GroupRequest) :
    Confined .decoder (groupFeatures stages environment request) := by
  refine (Confined.compute fun preparation reference =>
    stages.decodeGroup preparation request reference.memory).bind fun symbols => ?_
  refine (extract_confined stages environment .decoder).bind fun _ => ?_
  refine (Confined.compute fun preparation reference => do
    let latent ← stages.groupLatent preparation request symbols
    stages.decoder request.qp latent reference.context).bind fun feature => ?_
  exact (Confined.updateReference _).bind fun _ =>
    (Confined.compute fun _ _ => stages.heads feature).bind fun _ =>
      (Confined.compute fun _ _ => stages.reset feature).bind fun _ => Confined.pure _

theorem finishGroup_confined (request : GroupRequest) (decoded : List τ × τ) :
    Confined .decoder (finishGroup stages environment request decoded) :=
  (Confined.updateReference _).bind fun _ =>
    Confined.compute fun preparation _ => stages.frames preparation request decoded.1

theorem encodedFeature_confined (frames : List Frame) (qp : UInt32) :
    Confined .encoder (encodedFeature stages environment frames qp) :=
  (Confined.compute fun preparation reference =>
    stages.encodeGroup preparation frames qp reference.memory reference.context).bind
    fun encoded => (Confined.compute fun _ reference =>
      stages.decoder qp encoded.2 reference.context).bind fun _ => Confined.pure _

theorem turnEncoder_confined (resetMemory : Bool) (encoded : Encoded × τ) :
    Confined .encoder (turnEncoder stages environment resetMemory encoded) := by
  have hstore : Confined .encoder (storeFeature stages environment resetMemory encoded.2) := by
    cases resetMemory with
    | true => exact (Confined.compute fun _ _ => stages.reset encoded.2).bind fun _ =>
        Confined.updateReference _
    | false =>
        exact Confined.updateReference fun reference => { reference with memoryHasValue := true }
  exact (Confined.updateReference _).bind fun _ => hstore.bind fun _ =>
    (adapt_confined stages environment .encoder).bind fun _ =>
      (extract_confined stages environment .encoder).bind fun _ => Confined.pure _

end Locality

section Calls

variable (stages : Stages τ γ) (environment : CallEnvironment)

theorem guarded_run_of_error {faults : Faults} {x : Action Error (Session τ) α}
    {s t : Session τ} {e : Error} (h : x.run s = (.error e, t)) :
    (guarded faults x).run s = (.error e, t) :=
  Action.run_bind_of_error h

theorem guarded_run_congr {faults : Faults} {x y : Action Error (Session τ) α}
    {s t : Session τ} (h : x.run s = y.run t) :
    (guarded faults x).run s = (guarded faults y).run t := by
  rw [guarded, guarded, Action.run_bind, Action.run_bind, h]

theorem encodeIntra_run (hcalm : Calm environment) {session : Session τ}
    (h : Prepared session.preparation) {frame : Frame}
    (hsize : (castInt frame.width, castInt frame.height) ≠ (0, 0)) (qp : UInt32) :
    (encodeIntra stages environment frame qp).run session =
      (guarded environment.faults (encodePrepared stages environment frame qp)).run
        { session with preparation := preparedFor (castInt frame.width, castInt frame.height) } :=
  guarded_run_congr (Action.run_bind_of_ok (prepare_run hcalm h hsize))

/-- The checks of the parallelism before anything is prepared. -/
theorem decodeIntra_refused {request : IntraRequest}
    (hparallel : request.entropyParallel = 0 ∨ request.entropyParallel > maxEntropyParallel)
    (session : Session τ) :
    (decodeIntra stages environment request).run session =
      (.error (failure .malformedBitstream "invalid DCVC-UF entropy parallelism"), session) := by
  refine guarded_run_of_error (Action.run_bind_of_error ?_)
  rw [Action.run_lift, require, if_neg (not_not.mpr hparallel)]

theorem decodeIntra_run (hcalm : Calm environment) {session : Session τ}
    (h : Prepared session.preparation) {request : IntraRequest}
    (hparallel : ¬ (request.entropyParallel = 0 ∨ request.entropyParallel > maxEntropyParallel))
    (hsize : (castInt request.width, castInt request.height) ≠ (0, 0)) :
    (decodeIntra stages environment request).run session =
      (guarded environment.faults (decodePrepared stages environment request)).run
        { session with
          preparation := preparedFor (castInt request.width, castInt request.height) } := by
  refine guarded_run_congr ?_
  rw [decodeI, Action.run_bind, Action.run_lift, require, if_pos hparallel]
  exact Action.run_bind_of_ok (prepare_run hcalm h hsize)

theorem encodePredicted_short {frames : List Frame} (h : frames.length ≠ 8) (qp : UInt32)
    (resetMemory : Bool) (session : Session τ) :
    (encodePredicted stages environment frames qp resetMemory).run session =
      (.error (failure .invalidArgument "HT-S encoding requires eight frames"), session) := by
  refine Action.run_bind_of_error ?_
  rw [Action.run_lift, require, if_neg h]

theorem encodePredicted_run {frames : List Frame} (h : frames.length = 8) (qp : UInt32)
    (resetMemory : Bool) (session : Session τ) :
    (encodePredicted stages environment frames qp resetMemory).run session =
      (guarded environment.faults (encodeP stages environment frames qp resetMemory)).run
        session := by
  rw [encodePredicted, Action.run_bind, Action.run_lift, require, if_pos h]

theorem decodePredicted_untimed {request : GroupRequest}
    (h : request.timestamps = [] ∨ request.timestamps.length > 8) (session : Session τ) :
    (decodePredicted stages environment request).run session =
      (.error (failure .invalidArgument "HT-S timestamp count must be in [1, 8]"), session) := by
  refine Action.run_bind_of_error ?_
  rw [Action.run_lift, require, if_neg (not_not.mpr h)]

theorem decodePredicted_run {request : GroupRequest}
    (h : ¬ (request.timestamps = [] ∨ request.timestamps.length > 8)) (session : Session τ) :
    (decodePredicted stages environment request).run session =
      (guarded environment.faults (decodeP stages environment request)).run session := by
  rw [decodePredicted, Action.run_bind, Action.run_lift, require, if_pos h]

end Calls

section Runs

/-- A session together with the size that each direction prepared last. -/
structure Tracked (τ : Type) where
  session : Session τ := {}
  ownSize : Direction → ℤ × ℤ := fun _ => (0, 0)

def Tracked.step (stages : Stages τ γ) (tracked : Tracked τ) (call : Call) :
    Answer × Tracked τ :=
  let result := Session.step stages tracked.session call
  (result.1, {
    session := result.2
    ownSize := match call.preparedSize with
      | some size => Function.update tracked.ownSize call.direction size
      | none => tracked.ownSize })

/-- Preparations succeed and are made for some size, and a group for which there is a reference
passes the check of its size as it would with the size that its own direction prepared. -/
def Undisturbed (tracked : Tracked τ) (call : Call) : Prop :=
  (∀ size, call.preparedSize = some size → Calm call.environment ∧ size ≠ (0, 0)) ∧
    match call with
    | .encodePredicted _ frames _ _ => tracked.session.encoder.context.isSome →
        (tracked.session.SharesSize frames ↔ ∀ frame ∈ frames,
          (castInt frame.width, castInt frame.height) = tracked.ownSize .encoder)
    | .decodePredicted _ request => tracked.session.decoder.featureI.isSome →
        ((castInt request.width = tracked.session.preparation.width ∧
            castInt request.height = tracked.session.preparation.height) ↔
          (castInt request.width, castInt request.height) = tracked.ownSize .decoder)
    | _ => True

/-- The session seen by one direction, and a session that this direction has for itself. -/
structure Alike (direction : Direction) (tracked : Tracked τ) (alone : Session τ) : Prop where
  reference : tracked.session.reference direction = alone.reference direction
  prepared : Prepared tracked.session.preparation
  aloneFor : Prepared alone.preparation
  ownSize : (alone.preparation.width, alone.preparation.height) = tracked.ownSize direction

variable {stages : Stages τ γ} {direction : Direction} {tracked : Tracked τ} {alone : Session τ}

theorem Alike.initial (direction : Direction) : Alike direction ({} : Tracked τ) {} where
  reference := rfl
  prepared := .inl rfl
  aloneFor := .inl rfl
  ownSize := rfl

/-- A confined call of the direction itself. -/
theorem Alike.of_same {x : Action Error (Session τ) α} (hx : Confined direction x)
    {s t : Session τ} (hsame : SameFor direction s t) (hprepared : Prepared t.preparation)
    {ownSize : Direction → ℤ × ℤ}
    (hown : (t.preparation.width, t.preparation.height) = ownSize direction) :
    (x.run s).1 = (x.run t).1 ∧ Alike direction ⟨(x.run s).2, ownSize⟩ (x.run t).2 := by
  obtain ⟨hanswer, hafter⟩ := hx.run hsame
  have hkept : (x.run t).2.preparation = t.preparation := hx.preparation t
  refine ⟨hanswer, hafter.reference, ?_, ?_, ?_⟩
  · rw [hafter.preparation, hkept]
    exact hprepared
  · rw [hkept]
    exact hprepared
  · rw [hkept]
    exact hown

/-- A confined call of the other direction. -/
theorem Alike.of_other {other : Direction} {x : Action Error (Session τ) α}
    (hx : Confined other x) (hother : direction ≠ other) (h : Alike direction tracked alone)
    {s : Session τ} (hreference : s.reference direction = tracked.session.reference direction)
    (hprepared : Prepared s.preparation) {ownSize : Direction → ℤ × ℤ}
    (hown : ownSize direction = tracked.ownSize direction) :
    Alike direction ⟨(x.run s).2, ownSize⟩ alone where
  reference := ((hx.other direction hother s).trans hreference).trans h.reference
  prepared := by
    have hkept : (x.run s).2.preparation = s.preparation := hx.preparation s
    rw [hkept]
    exact hprepared
  aloneFor := h.aloneFor
  ownSize := h.ownSize.trans hown.symm

theorem prepared_preparedFor {size : ℤ × ℤ} (h : size ≠ (0, 0)) : Prepared (preparedFor size) :=
  .inr ⟨size, h, rfl⟩

theorem group_confined (environment : CallEnvironment) (request : GroupRequest) :
    Confined .decoder (guarded environment.faults (adapt stages environment.faults .decoder >>=
      fun _ => groupFeatures stages environment request >>=
        finishGroup stages environment request)) :=
  ((adapt_confined stages environment .decoder).bind fun _ =>
    (groupFeatures_confined stages environment request).bind
      (finishGroup_confined stages environment request)).guarded

theorem encodedGroup_confined (environment : CallEnvironment) (frames : List Frame) (qp : UInt32)
    (resetMemory : Bool) :
    Confined .encoder (guarded environment.faults (encodedFeature stages environment frames qp >>=
      turnEncoder stages environment resetMemory)) :=
  ((encodedFeature_confined stages environment frames qp).bind
    (turnEncoder_confined stages environment resetMemory)).guarded

/-- The group call is refused, or it decodes with the stored preparation. -/
theorem decodePredicted_cases (environment : CallEnvironment) (request : GroupRequest)
    (session : Session τ) :
    (∃ e, (decodePredicted stages environment request).run session = (.error e, session)) ∨
      (AcceptsGroup session request ∧ (decodePredicted stages environment request).run session =
        (guarded environment.faults (adapt stages environment.faults .decoder >>=
          fun _ => groupFeatures stages environment request >>=
            finishGroup stages environment request)).run session) := by
  by_cases htimed : request.timestamps = [] ∨ request.timestamps.length > 8
  · exact .inl ⟨_, decodePredicted_untimed stages environment htimed session⟩
  · rw [decodePredicted_run stages environment htimed]
    by_cases haccepts : AcceptsGroup session request
    · exact .inr ⟨haccepts, guarded_run_congr (decodeP_accepted _ _ _ haccepts)⟩
    · exact .inl ⟨_, guarded_run_of_error (decodeP_refused _ _ _ haccepts)⟩

theorem encodePredicted_cases (environment : CallEnvironment) (frames : List Frame) (qp : UInt32)
    (resetMemory : Bool) (session : Session τ) :
    (∃ e, (encodePredicted stages environment frames qp resetMemory).run session =
        (.error e, session)) ∨
      (frames.length = 8 ∧ EncodesGroup session frames ∧
        (encodePredicted stages environment frames qp resetMemory).run session =
          (guarded environment.faults (encodedFeature stages environment frames qp >>=
            turnEncoder stages environment resetMemory)).run session) := by
  by_cases hlength : frames.length = 8
  · rw [encodePredicted_run stages environment hlength]
    by_cases hencodes : EncodesGroup session frames
    · exact .inr ⟨hlength, hencodes, guarded_run_congr (encodeP_accepted _ _ _ _ _ hencodes)⟩
    · exact .inl ⟨_, guarded_run_of_error (encodeP_refused _ _ _ _ _ hencodes)⟩
  · exact .inl ⟨_, encodePredicted_short stages environment hlength qp resetMemory session⟩

/-- The other direction leaves no trace. -/
theorem Alike.skip (h : Alike direction tracked alone) {call : Call}
    (hcall : Undisturbed tracked call) (hother : call.direction ≠ direction) :
    Alike direction (tracked.step stages call).2 alone := by
  have hupdate (size : ℤ × ℤ) :
      Function.update tracked.ownSize call.direction size direction = tracked.ownSize direction :=
    Function.update_of_ne hother.symm size tracked.ownSize
  cases call with
  | encodeIntra environment frame qp =>
      obtain ⟨hcalm, hsize⟩ := hcall.1 _ rfl
      have hrun := encodeIntra_run stages environment hcalm h.prepared hsize qp
      simp only [Tracked.step, Session.step, Call.preparedSize]
      rw [hrun]
      refine h.of_other (encodePrepared_confined stages environment frame qp).guarded hother.symm
        ?_ (prepared_preparedFor hsize) (hupdate _)
      cases direction <;> rfl
  | decodeIntra environment request =>
      simp only [Tracked.step, Session.step, Call.preparedSize]
      by_cases hparallel : request.entropyParallel = 0 ∨
          request.entropyParallel > maxEntropyParallel
      · rw [decodeIntra_refused stages environment hparallel, if_pos hparallel]
        exact h
      · obtain ⟨hcalm, hsize⟩ := hcall.1 _ (if_neg hparallel)
        rw [decodeIntra_run stages environment hcalm h.prepared hparallel hsize,
          if_neg hparallel]
        refine h.of_other (decodePrepared_confined stages environment request).guarded
          hother.symm ?_ (prepared_preparedFor hsize) (hupdate _)
        cases direction <;> rfl
  | encodePredicted environment frames qp resetMemory =>
      simp only [Tracked.step, Session.step, Call.preparedSize]
      rcases encodePredicted_cases environment frames qp resetMemory tracked.session with
        ⟨e, hrun⟩ | ⟨-, -, hrun⟩
      · rw [hrun]
        exact h
      · rw [hrun]
        exact h.of_other (encodedGroup_confined environment frames qp resetMemory) hother.symm rfl
          h.prepared rfl
  | decodePredicted environment request =>
      simp only [Tracked.step, Session.step, Call.preparedSize]
      rcases decodePredicted_cases environment request tracked.session with
        ⟨e, hrun⟩ | ⟨-, hrun⟩
      · rw [hrun]
        exact h
      · rw [hrun]
        exact h.of_other (group_confined environment request) hother.symm rfl h.prepared rfl

theorem Alike.acceptsGroup_iff (h : Alike .decoder tracked alone) {environment : CallEnvironment}
    {request : GroupRequest} (hcall : Undisturbed tracked (.decodePredicted environment request)) :
    AcceptsGroup tracked.session request ↔ AcceptsGroup alone request := by
  have hreference : tracked.session.decoder = alone.decoder := h.reference
  constructor
  · intro haccepts
    have hsize := (hcall.2 haccepts.referenced).mp haccepts.size
    rw [← h.ownSize] at hsize
    exact ⟨hreference ▸ haccepts.referenced, haccepts.parallel, Prod.mk.inj hsize⟩
  · intro haccepts
    have hreferenced : tracked.session.decoder.featureI.isSome := hreference ▸ haccepts.referenced
    refine ⟨hreferenced, haccepts.parallel, (hcall.2 hreferenced).mpr ?_⟩
    rw [← h.ownSize, haccepts.size.1, haccepts.size.2]

theorem Alike.encodesGroup_iff (h : Alike .encoder tracked alone) {environment : CallEnvironment}
    {frames : List Frame} {qp : UInt32} {resetMemory : Bool}
    (hcall : Undisturbed tracked (.encodePredicted environment frames qp resetMemory)) :
    EncodesGroup tracked.session frames ↔ EncodesGroup alone frames := by
  have hreference : tracked.session.encoder = alone.encoder := h.reference
  constructor
  · intro hencodes
    have hsize := (hcall.2 hencodes.referenced).mp hencodes.size
    simp only [← h.ownSize, Prod.mk.injEq] at hsize
    exact ⟨hreference ▸ hencodes.referenced, hsize⟩
  · intro hencodes
    have hreferenced : tracked.session.encoder.context.isSome := hreference ▸ hencodes.referenced
    refine ⟨hreferenced, (hcall.2 hreferenced).mpr ?_⟩
    simp only [← h.ownSize, Prod.mk.injEq]
    exact hencodes.size

/-- Sessions that take the same group have the same preparation. -/
theorem Alike.sameFor (h : Alike direction tracked alone)
    (hwidth : tracked.session.preparation.width = alone.preparation.width)
    (hheight : tracked.session.preparation.height = alone.preparation.height) :
    SameFor direction tracked.session alone :=
  ⟨h.prepared.unique h.aloneFor hwidth hheight, h.reference⟩

theorem Alike.reference_prepared (h : Alike direction tracked alone) (preparation : Preparation) :
    SameFor direction { tracked.session with preparation } { alone with preparation } where
  preparation := rfl
  reference := by
    have hreference := h.reference
    cases direction with
    | encoder => exact hreference
    | decoder => exact hreference

/-- A call of the direction itself is answered as if the other direction were not there. -/
theorem Alike.take (h : Alike direction tracked alone) {call : Call}
    (hcall : Undisturbed tracked call) (hown : call.direction = direction) :
    (tracked.step stages call).1 = (Session.step stages alone call).1 ∧
      Alike direction (tracked.step stages call).2 (Session.step stages alone call).2 := by
  subst hown
  cases call with
  | encodeIntra environment frame qp =>
      obtain ⟨hcalm, hsize⟩ := hcall.1 _ rfl
      simp only [Tracked.step, Session.step, Call.preparedSize]
      rw [encodeIntra_run stages environment hcalm h.prepared hsize qp,
        encodeIntra_run stages environment hcalm h.aloneFor hsize qp]
      obtain ⟨hanswer, hafter⟩ := Alike.of_same
        (encodePrepared_confined stages environment frame qp).guarded
        (h.reference_prepared _) (prepared_preparedFor hsize)
        (Function.update_self Direction.encoder _ tracked.ownSize).symm
      exact ⟨congrArg Answer.encoded hanswer, hafter⟩
  | decodeIntra environment request =>
      simp only [Tracked.step, Session.step, Call.preparedSize]
      by_cases hparallel : request.entropyParallel = 0 ∨
          request.entropyParallel > maxEntropyParallel
      · rw [decodeIntra_refused stages environment hparallel,
          decodeIntra_refused stages environment hparallel, if_pos hparallel]
        exact ⟨rfl, h⟩
      · obtain ⟨hcalm, hsize⟩ := hcall.1 _ (if_neg hparallel)
        rw [decodeIntra_run stages environment hcalm h.prepared hparallel hsize,
          decodeIntra_run stages environment hcalm h.aloneFor hparallel hsize, if_neg hparallel]
        obtain ⟨hanswer, hafter⟩ := Alike.of_same
          (decodePrepared_confined stages environment request).guarded
          (h.reference_prepared _) (prepared_preparedFor hsize)
          (Function.update_self Direction.decoder _ tracked.ownSize).symm
        exact ⟨congrArg Answer.frame hanswer, hafter⟩
  | encodePredicted environment frames qp resetMemory =>
      simp only [Tracked.step, Session.step, Call.preparedSize]
      by_cases hlength : frames.length = 8
      · rw [encodePredicted_run stages environment hlength,
          encodePredicted_run stages environment hlength]
        by_cases hencodes : EncodesGroup tracked.session frames
        · have hencodes' := (h.encodesGroup_iff hcall).mp hencodes
          obtain ⟨frame, hframe⟩ := List.exists_mem_of_length_pos (hlength ▸ (by decide : 0 < 8))
          obtain ⟨hwidth, hheight⟩ := hencodes.size frame hframe
          obtain ⟨hwidth', hheight'⟩ := hencodes'.size frame hframe
          rw [guarded_run_congr (encodeP_accepted _ _ _ _ _ hencodes),
            guarded_run_congr (encodeP_accepted _ _ _ _ _ hencodes')]
          obtain ⟨hanswer, hafter⟩ := Alike.of_same
            (encodedGroup_confined environment frames qp resetMemory)
            (h.sameFor (hwidth.symm.trans hwidth') (hheight.symm.trans hheight')) h.aloneFor
            h.ownSize
          exact ⟨congrArg Answer.encoded hanswer, hafter⟩
        · have hencodes' := mt (h.encodesGroup_iff hcall).mpr hencodes
          have hreference : tracked.session.encoder = alone.encoder := h.reference
          rw [guarded_run_of_error (encodeP_refused _ _ _ _ _ hencodes),
            guarded_run_of_error (encodeP_refused _ _ _ _ _ hencodes')]
          exact ⟨by rw [encodingRefusal, encodingRefusal, hreference], h⟩
      · rw [encodePredicted_short stages environment hlength,
          encodePredicted_short stages environment hlength]
        exact ⟨rfl, h⟩
  | decodePredicted environment request =>
      simp only [Tracked.step, Session.step, Call.preparedSize]
      by_cases htimed : request.timestamps = [] ∨ request.timestamps.length > 8
      · rw [decodePredicted_untimed stages environment htimed,
          decodePredicted_untimed stages environment htimed]
        exact ⟨rfl, h⟩
      · rw [decodePredicted_run stages environment htimed,
          decodePredicted_run stages environment htimed]
        by_cases haccepts : AcceptsGroup tracked.session request
        · have haccepts' := (h.acceptsGroup_iff hcall).mp haccepts
          rw [guarded_run_congr (decodeP_accepted _ _ _ haccepts),
            guarded_run_congr (decodeP_accepted _ _ _ haccepts')]
          obtain ⟨hanswer, hafter⟩ := Alike.of_same
            (group_confined environment request)
            (h.sameFor (haccepts.size.1.symm.trans haccepts'.size.1)
              (haccepts.size.2.symm.trans haccepts'.size.2)) h.aloneFor h.ownSize
          exact ⟨congrArg Answer.frames hanswer, hafter⟩
        · have haccepts' := mt (h.acceptsGroup_iff hcall).mpr haccepts
          have hreference : tracked.session.decoder = alone.decoder := h.reference
          rw [guarded_run_of_error (decodeP_refused _ _ _ haccepts),
            guarded_run_of_error (decodeP_refused _ _ _ haccepts')]
          exact ⟨by rw [groupRefusal, groupRefusal, hreference], h⟩

/-- A session gives the same answers with and without its sizes tracked. -/
theorem answersTo_tracked (kind : Call → Bool) (calls : List Call) :
    answersTo kind (Tracked.step stages) {} calls = answersTo kind (Session.step stages) {} calls := by
  have hsame : ∀ (tracked : Tracked τ) (session : Session τ), tracked.session = session →
      answersTo kind (Tracked.step stages) tracked calls =
        answersTo kind (Session.step stages) session (calls.filter fun _ => true) := by
    intro tracked session h
    refine @answersTo_eq_filter _ _ _ _ _ _ (fun tracked session => tracked.session = session) _ _
      ?_ ?_ ?_ _ _ h calls
    · rintro tracked session call - rfl
      exact ⟨fun _ => rfl, rfl⟩
    · exact fun _ _ _ hfalse => nomatch hfalse
    · exact fun _ _ => rfl
  rw [hsame {} {} rfl, List.filter_true]

/-- In a run in which every group finds the size of its own direction, each direction is answered
as if the other one's calls had not been made. -/
theorem directions_independent_of_undisturbed (stages : Stages τ γ) (calls : List Call)
    (hcalls : Along Undisturbed (Tracked.step stages) {} calls) (direction : Direction) :
    answersTo (fun call => decide (call.direction = direction)) (Session.step stages) {} calls =
      trace (Session.step stages) {}
        (calls.filter fun call => decide (call.direction = direction)) := by
  rw [← answersTo_tracked]
  refine answersTo_eq_trace_filter_of_along ?_ ?_ (Alike.initial direction) hcalls
  · exact fun tracked alone call hcall hown h => h.take hcall (of_decide_eq_true hown)
  · exact fun tracked alone call hcall hother h => h.skip hcall (of_decide_eq_false hother)

/-- A frame of equal samples. -/
def grayFrame (width height : UInt32) (size_ok : Frame.frameSizeBytes width height .gray8 =
    .ok (width.toNat * height.toNat)) : Frame :=
  ⟨width, height, .gray8, 0, List.replicate (width.toNat * height.toNat) 0,
    .inl (by rw [List.length_replicate]; exact size_ok)⟩

def intraOf (width height : UInt32) : IntraRequest := ⟨[0], 1, 0, width, height, 0⟩

def singleGroupOf (width height : UInt32) : GroupRequest := ⟨[0], 1, 0, width, height, [0], false⟩

/-- Decoding an intra frame and a group of one size, with an intra frame encoded in between. -/
def interleaved (frame : Frame) : List Call :=
  [.decodeIntra (stoppingAt none) (intraOf 4 4), .encodeIntra (stoppingAt none) frame 0,
    .decodePredicted (stoppingAt none) (singleGroupOf 4 4)]

theorem directions_independent_of_undisturbed_same_size :
    answersTo (fun call => decide (call.direction = .decoder)) (Session.step counting) {}
        (interleaved (grayFrame 4 4 rfl)) =
      trace (Session.step counting) {} ((interleaved (grayFrame 4 4 rfl)).filter fun call =>
        decide (call.direction = .decoder)) := by
  refine directions_independent_of_undisturbed counting (interleaved (grayFrame 4 4 rfl)) ?_
    .decoder
  refine ⟨⟨?_, trivial⟩, ⟨?_, trivial⟩, ⟨fun size hsize => (nomatch hsize), fun _ => ?_⟩, trivial⟩
  · rintro size hsize
    cases hsize
    exact ⟨fun _ => rfl, by decide⟩
  · rintro size hsize
    cases hsize
    exact ⟨fun _ => rfl, by decide⟩
  · exact iff_of_true (by decide) rfl

/-- An intra frame of another size encoded between a decoded intra frame and its group makes the
group fail. -/
theorem encoder_disturbs_decoder :
    answersTo (fun call => decide (call.direction = .decoder)) (Session.step counting) {}
        (interleaved (grayFrame 2 2 rfl)) =
      [.frame (.ok Frame.empty), .frames (.error
        (failure .malformedBitstream "HT-S group changes the frame size"))] ∧
      trace (Session.step counting) {} ((interleaved (grayFrame 2 2 rfl)).filter fun call =>
          decide (call.direction = .decoder)) =
        [.frame (.ok Frame.empty), .frames (.ok [])] :=
  ⟨rfl, rfl⟩

end Runs

end Session

end Nvcr.Uf.TensorRt
