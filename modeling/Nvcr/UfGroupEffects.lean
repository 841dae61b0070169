import Nvcr.UfGroupAtomicity

/-!
# What a failed group of a DCVC-UF TensorRT session leaves

Stages that show the memory of a group in its frames tell a session with a half made group from
one without it. With them the condition for a failed call to be without effect is exact.
-/

namespace Nvcr.Uf.TensorRt.Session

open StatefulResults

variable {τ γ α : Type}

section Revealing

/-- Stages that show the memory of a group in the number of decoded frames. -/
def revealing [DecidableEq τ] (malformed : Bytes → Prop) [DecidablePred malformed] (shown : τ)
    (symbols : γ) (adaptorM adaptorI : Option τ → τ) (resetFeature : τ) : Stages τ γ where
  encodeIntra _ _ _ := .ok (⟨[], 0⟩, shown)
  decodeIntra _ _ := .ok shown
  intraFrame _ _ latent := .ok latent
  download _ _ _ := .ok Frame.empty
  unshuffle _ frame := .ok frame
  adaptorM memory _ := .ok (adaptorM memory)
  adaptorI feature := .ok (adaptorI feature)
  extractor memory := .ok (memory.getD shown)
  encodeGroup _ _ _ _ _ := .ok (⟨[], 0⟩, shown)
  decodeGroup _ request _ :=
    if malformed request.bitstream then .error (failure .malformedBitstream "rans")
    else .ok symbols
  groupLatent _ _ _ := .ok shown
  decoder _ _ context := .ok (context.getD shown)
  heads feature := .ok [feature]
  reset _ := .ok resetFeature
  frames _ _ heads := .ok (if heads = [shown] then [] else [Frame.empty])

variable [DecidableEq τ] {malformed : Bytes → Prop} [DecidablePred malformed] {shown : τ}
  {symbols : γ} {adaptorM adaptorI : Option τ → τ} {resetFeature : τ}

theorem revealing_refusesOnly :
    RefusesOnly (revealing malformed shown symbols adaptorM adaptorI resetFeature) malformed where
  adaptorM _ _ := ⟨_, rfl⟩
  adaptorI _ := ⟨_, rfl⟩
  extractor _ := ⟨_, rfl⟩
  encodeGroup _ _ _ _ _ := ⟨_, rfl⟩
  refused _ _ _ h := ⟨_, if_pos h⟩
  decoded _ _ _ h := ⟨_, if_neg h⟩
  groupLatent _ _ _ := ⟨_, rfl⟩
  decoder _ _ _ := ⟨_, rfl⟩
  heads _ := ⟨_, rfl⟩
  reset _ := ⟨_, rfl⟩
  frames _ _ _ := ⟨_, rfl⟩

/-- The memory a group is decoded from. -/
def adapted (adaptorM adaptorI : Option τ → τ) (reference : Reference τ) : τ :=
  if reference.memoryHasValue then adaptorM reference.memory else adaptorI reference.featureI

theorem revealing_adapt {faults : Faults} (hfault : faults .adapted = none)
    (session : Session τ) :
    (adapt (revealing malformed shown symbols adaptorM adaptorI resetFeature) faults
      .decoder).run session =
      (.ok (), session.setReference .decoder { session.decoder with
        memory := some (adapted adaptorM adaptorI session.decoder) }) := by
  rw [adapt, Action.run_bind, compute_run hfault]
  by_cases hmemory : session.decoder.memoryHasValue = true
  · simp [revealing, reference, adapted, hmemory, updateReference]
  · simp [revealing, reference, adapted, hmemory, updateReference]

theorem revealing_groupFeatures {environment : CallEnvironment}
    (hfaults : ∀ point ∈ groupPoints, environment.faults point = none) {request : GroupRequest}
    (hrequest : ¬ malformed request.bitstream) {session : Session τ} {memory : τ}
    (hmemory : session.decoder.memory = some memory) :
    (groupFeatures (revealing malformed shown symbols adaptorM adaptorI resetFeature) environment
      request).run session =
      (.ok ([memory], resetFeature), session.setReference .decoder { session.decoder with
        context := some memory
        featureP := some memory }) := by
  simp only [groupFeatures, extract, Action.run_bind, compute_run (hfaults .latents (by decide)),
    compute_run (hfaults .extracted (by decide)), compute_run (hfaults .decoded (by decide)),
    compute_run (hfaults .heads (by decide)), compute_run (hfaults .reset (by decide))]
  simp [revealing, updateReference, reference, setReference, hmemory, hrequest]

/-- Without faults the frames tell whether the group was decoded from `shown`. -/
theorem revealing_decodeP {environment : CallEnvironment}
    (hfaults : ∀ point, environment.faults point = none) {request : GroupRequest}
    (hrequest : ¬ malformed request.bitstream) {session : Session τ}
    (haccepts : AcceptsGroup session request) :
    ((decodeP (revealing malformed shown symbols adaptorM adaptorI resetFeature) environment
      request).run session).1 =
      .ok (if adapted adaptorM adaptorI session.decoder = shown then [] else [Frame.empty]) := by
  rw [decodeP_accepted _ _ _ haccepts, Action.run_bind_of_ok (revealing_adapt (hfaults _) session),
    Action.run_bind_of_ok (revealing_groupFeatures (fun point _ => hfaults point) hrequest rfl)]
  simp [finishGroup, Action.run_bind, compute_run (hfaults .frames), updateReference, revealing]

/-- A group that stops after the adaptation leaves the adapted memory behind. -/
theorem revealing_stopped {environment : CallEnvironment}
    (hadapted : environment.faults .adapted = none) {request : GroupRequest}
    (hgroup : Action.Fails (groupFeatures
      (revealing malformed shown symbols adaptorM adaptorI resetFeature) environment request))
    {session : Session τ} (haccepts : AcceptsGroup session request) :
    ∃ e t, (decodeP (revealing malformed shown symbols adaptorM adaptorI resetFeature)
        environment request).run session = (.error e, t) ∧
      t.held = (session.turn, some (adapted adaptorM adaptorI session.decoder)) := by
  set stages := revealing malformed shown symbols adaptorM adaptorI resetFeature with hstages
  set adaptedSession := session.setReference .decoder { session.decoder with
    memory := some (adapted adaptorM adaptorI session.decoder) } with hadaptedSession
  obtain ⟨e, t, hrun⟩ := hgroup adaptedSession
  refine ⟨e, t, ?_, ?_⟩
  · rw [decodeP_accepted _ _ _ haccepts, Action.run_bind_of_ok (revealing_adapt hadapted session),
      Action.run_bind_of_error hrun]
  · have hheld := groupFeatures_keeps stages environment request adaptedSession
    rw [hrun] at hheld
    rw [hheld]
    rfl

/-- A group whose frames cannot be fetched has turned the reference. -/
theorem revealing_unfetched {environment : CallEnvironment}
    (hadapted : environment.faults .adapted = none)
    (hfaults : ∀ point ∈ groupPoints, environment.faults point = none)
    (hframes : (environment.faults .frames).isSome) {request : GroupRequest}
    (hrequest : ¬ malformed request.bitstream)
    {session : Session τ} (haccepts : AcceptsGroup session request) :
    ∃ e t, (decodeP (revealing malformed shown symbols adaptorM adaptorI resetFeature)
        environment request).run session = (.error e, t) ∧
      t.held = ((session.preparation, some resetFeature, !request.resetFeatureMemory),
        some (adapted adaptorM adaptorI session.decoder)) := by
  obtain ⟨e, he⟩ := Option.isSome_iff_exists.mp hframes
  set memory := adapted adaptorM adaptorI session.decoder with hmemory
  refine ⟨e, session.setReference .decoder
    ⟨some resetFeature, some memory, some memory, some memory, !request.resetFeatureMemory⟩, ?_,
    rfl⟩
  · rw [decodeP_accepted _ _ _ haccepts, Action.run_bind_of_ok (revealing_adapt hadapted session),
      Action.run_bind_of_ok (revealing_groupFeatures hfaults hrequest rfl)]
    simp only [finishGroup, Action.run_bind, updateReference, Action.run_update, compute, he,
      Action.run_fail]
    rfl

/-- Sessions that decode the next group from different memories are told apart by it. -/
theorem revealing_noticed {session t : Session τ} {request : GroupRequest}
    (haccepts : AcceptsGroup session request) (hpreparation : t.preparation = session.preparation)
    (hreferenced : t.decoder.featureI.isSome) (hwell : ∃ bitstream, ¬ malformed bitstream)
    (hmemory : ¬ (adapted adaptorM adaptorI t.decoder = shown ↔
      adapted adaptorM adaptorI session.decoder = shown)) :
    ∃ environment' request',
      ((decodeP (revealing malformed shown symbols adaptorM adaptorI resetFeature) environment'
          request').run t).1 ≠
        ((decodeP (revealing malformed shown symbols adaptorM adaptorI resetFeature) environment'
          request').run session).1 := by
  obtain ⟨bitstream, hbitstream⟩ := hwell
  have hlater : AcceptsGroup t { request with bitstream } :=
    ⟨hreferenced, haccepts.parallel, by rw [hpreparation]; exact haccepts.size⟩
  have hnow : AcceptsGroup session { request with bitstream } :=
    ⟨haccepts.referenced, haccepts.parallel, haccepts.size⟩
  refine ⟨⟨fun _ => .ok (), fun _ => none⟩, { request with bitstream }, ?_⟩
  rw [revealing_decodeP (fun _ => rfl) hbitstream hlater,
    revealing_decodeP (fun _ => rfl) hbitstream hnow]
  by_cases hfirst : adapted adaptorM adaptorI t.decoder = shown
  · have hsecond := fun h => hmemory (iff_of_true hfirst h)
    simpa [hfirst] using hsecond
  · have hsecond := not_not.mp fun h => hmemory (iff_of_false hfirst h)
    simp [hfirst, hsecond]

end Revealing

section Atomicity

/-- A group stops while it is decoded: at the coder, a stage or an allocation. -/
def GroupStops (malformed : Bytes → Prop) (faults : Faults) (request : GroupRequest) : Prop :=
  Stops faults groupPoints ∨ malformed request.bitstream

/-- A failed group call is as if it had not been made, whatever the stages compute. -/
def GroupUnnoticed (γ : Type) (malformed : Bytes → Prop) (session : Session τ)
    (environment : CallEnvironment) (request : GroupRequest) : Prop :=
  ∀ stages : Stages τ γ, RefusesOnly stages malformed →
    ∀ e t, (decodeP stages environment request).run session = (.error e, t) →
      ∀ environment' request', ((decodeP stages environment' request').run t).1 =
        ((decodeP stages environment' request').run session).1

theorem groupFeatures_fails_of_stops {stages : Stages τ γ} {malformed : Bytes → Prop}
    (hstages : RefusesOnly stages malformed) {environment : CallEnvironment}
    {request : GroupRequest} (h : GroupStops malformed environment.faults request) :
    Action.Fails (groupFeatures stages environment request) := by
  rcases h with h | h
  · exact groupFeatures_fails stages h request
  · exact groupFeatures_fails_of_malformed stages
      (fun preparation memory => hstages.refused preparation request memory h) environment

/-- Where nothing stops a group it succeeds. -/
theorem decodeP_completes {stages : Stages τ γ} {malformed : Bytes → Prop}
    (hstages : RefusesOnly stages malformed) {environment : CallEnvironment}
    {request : GroupRequest} (hadapted : environment.faults .adapted = none)
    (hgroup : ¬ GroupStops malformed environment.faults request)
    (hframes : environment.faults .frames = none) {session : Session τ}
    (haccepts : AcceptsGroup session request) :
    ∃ frames t, (decodeP stages environment request).run session = (.ok frames, t) := by
  obtain ⟨hpoints, hrequest⟩ := not_or.mp hgroup
  have hfaults (point : Point) (hpoint : point ∈ groupPoints) :
      environment.faults point = none :=
    Option.not_isSome_iff_eq_none.mp fun hsome => hpoints ⟨point, hpoint, hsome⟩
  rw [decodeP_accepted _ _ _ haccepts]
  exact ((hstages.adapt hadapted .decoder).bind fun _ =>
    (hstages.groupFeatures hfaults hrequest).bind (hstages.finishGroup hframes request)) session

theorem groupUnnoticed_of {malformed : Bytes → Prop} {session : Session τ}
    {environment : CallEnvironment} {request : GroupRequest}
    (h : ¬ AcceptsGroup session request ∨ (environment.faults .adapted).isSome ∨
      (session.decoder.memoryHasValue = false ∧
        GroupStops malformed environment.faults request) ∨
      ¬ (GroupStops malformed environment.faults request ∨ (environment.faults .frames).isSome)) :
    GroupUnnoticed γ malformed session environment request := by
  intro stages hstages e t hrun environment' request'
  have hleft : t = ((decodeP stages environment request).run session).2 := by rw [hrun]
  by_cases hearly : ¬ AcceptsGroup session request ∨ (environment.faults .adapted).isSome ∨
      (session.decoder.memoryHasValue = false ∧
        GroupStops malformed environment.faults request)
  · rw [hleft]
    refine SameForGroups.decodeP stages (unnoticed_of_fails stages ?_) environment' request'
    exact hearly.imp_right fun h => h.imp_right fun ⟨hmemory, hgroup⟩ =>
      ⟨hmemory, groupFeatures_fails_of_stops hstages hgroup⟩
  · obtain ⟨haccepts, hadapted, hmemory⟩ :
        AcceptsGroup session request ∧ ¬ (environment.faults .adapted).isSome ∧
          ¬ (session.decoder.memoryHasValue = false ∧
            GroupStops malformed environment.faults request) := by
      simpa only [not_or, not_not] using hearly
    obtain ⟨hgroup, hframes⟩ : ¬ GroupStops malformed environment.faults request ∧
        ¬ (environment.faults .frames).isSome := by
      rcases h with h | h | h | h
      · exact absurd haccepts h
      · exact absurd h hadapted
      · exact absurd h hmemory
      · exact not_or.mp h
    obtain ⟨frames, later, hok⟩ := decodeP_completes hstages
      (Option.not_isSome_iff_eq_none.mp hadapted) hgroup
      (Option.not_isSome_iff_eq_none.mp hframes) haccepts
    rw [hok] at hrun
    exact nomatch hrun

/-- A group that stops between the adaptation of a remembered memory and its end, or after the
reference has turned, is noticed by a later group. -/
theorem not_groupUnnoticed [DecidableEq τ] [Nontrivial τ] [Nonempty γ] {malformed : Bytes → Prop}
    [DecidablePred malformed] (hwell : ∃ bitstream, ¬ malformed bitstream) {session : Session τ}
    {environment : CallEnvironment} {request : GroupRequest}
    (haccepts : AcceptsGroup session request) (hadapted : environment.faults .adapted = none)
    (hmemory : session.decoder.memoryHasValue = true ∨
      ¬ GroupStops malformed environment.faults request)
    (hstops : GroupStops malformed environment.faults request ∨
      (environment.faults .frames).isSome) :
    ¬ GroupUnnoticed γ malformed session environment request := by
  obtain ⟨symbols⟩ := ‹Nonempty γ›
  by_cases hvalue : session.decoder.memoryHasValue = true
  · obtain ⟨a, b, hab⟩ := exists_pair_ne τ
    -- Adapting twice never gives the memory that adapting once gives.
    set flip : Option τ → τ := fun memory => if memory = some a then b else a with hflip
    have htwice (memory : Option τ) : ¬ (flip (some (flip memory)) = a ↔ flip memory = a) := by
      by_cases h : memory = some a
      · simp [hflip, h, hab.symm]
      · simp [hflip, h, hab.symm]
    intro hunnoticed
    set adaptorI : Option τ → τ := fun _ => flip (some (flip session.decoder.memory))
    have honce : adapted flip adaptorI session.decoder = flip session.decoder.memory := by
      rw [adapted, if_pos hvalue]
    obtain ⟨e, t, hrun, hheld, hreferenced⟩ : ∃ e t,
        (decodeP (revealing malformed a symbols flip adaptorI a) environment request).run session =
            (.error e, t) ∧
          (t.preparation = session.preparation ∧ t.decoder.memory =
            some (flip session.decoder.memory)) ∧ t.decoder.featureI.isSome := by
      by_cases hgroup : GroupStops malformed environment.faults request
      · obtain ⟨e, t, hrun, hheld⟩ := revealing_stopped hadapted
          (groupFeatures_fails_of_stops revealing_refusesOnly hgroup) haccepts
        simp only [held, turn, Prod.mk.injEq] at hheld
        obtain ⟨⟨hpreparation, hfeature, -⟩, hleft⟩ := hheld
        exact ⟨e, t, hrun, ⟨hpreparation, by rw [hleft, honce]⟩, by
          rw [hfeature]; exact haccepts.referenced⟩
      · obtain ⟨hpoints, hrequest⟩ := not_or.mp hgroup
        obtain ⟨e, t, hrun, hheld⟩ := revealing_unfetched hadapted
          (fun point hpoint => Option.not_isSome_iff_eq_none.mp fun hsome =>
            hpoints ⟨point, hpoint, hsome⟩) (hstops.resolve_left hgroup) hrequest haccepts
        simp only [held, turn, Prod.mk.injEq] at hheld
        obtain ⟨⟨hpreparation, hfeature, -⟩, hleft⟩ := hheld
        exact ⟨e, t, hrun, ⟨hpreparation, by rw [hleft, honce]⟩, by rw [hfeature]; rfl⟩
    have hagain : adapted flip adaptorI t.decoder = flip (some (flip session.decoder.memory)) := by
      rw [adapted, hheld.2]
      exact ite_self _
    obtain ⟨environment', request', hdiffers⟩ := revealing_noticed haccepts hheld.1 hreferenced
      hwell (by rw [hagain, honce]; exact htwice session.decoder.memory)
    exact hdiffers (hunnoticed _ revealing_refusesOnly e t hrun environment' request')
  · have hgroup := hmemory.resolve_left hvalue
    obtain ⟨hpoints, hrequest⟩ := not_or.mp hgroup
    obtain ⟨feature, hfeature⟩ := Option.isSome_iff_exists.mp haccepts.referenced
    obtain ⟨other, hother⟩ := exists_ne feature
    intro hunnoticed
    set adaptorI : Option τ → τ := fun featureI => if featureI = some feature then feature else other
    obtain ⟨e, t, hrun, hheld⟩ : ∃ e t,
        (decodeP (revealing malformed feature symbols (fun _ => other) adaptorI other) environment
          request).run session = (.error e, t) ∧
        t.held = ((session.preparation, some other, !request.resetFeatureMemory),
          some (adapted (fun _ => other) adaptorI session.decoder)) :=
      revealing_unfetched hadapted
        (fun point hpoint => Option.not_isSome_iff_eq_none.mp fun hsome =>
          hpoints ⟨point, hpoint, hsome⟩) (hstops.resolve_left hgroup) hrequest haccepts
    simp only [held, turn, Prod.mk.injEq] at hheld
    obtain ⟨⟨hpreparation, hturned, -⟩, -⟩ := hheld
    have hnow : adapted (fun _ => other) adaptorI session.decoder = feature := by
      rw [adapted, if_neg hvalue, hfeature]
      exact if_pos rfl
    have hlater : adapted (fun _ => other) adaptorI t.decoder = other := by
      have hturnedI : adaptorI t.decoder.featureI = other := by
        rw [hturned]
        exact if_neg fun h => hother (Option.some.inj h)
      rw [adapted, hturnedI]
      exact ite_self _
    have hmemory : ¬ (adapted (fun _ => other) adaptorI t.decoder = feature ↔
        adapted (fun _ => other) adaptorI session.decoder = feature) := by
      rw [hlater, hnow]
      exact fun h => hother (h.mpr rfl)
    obtain ⟨environment', request', hdiffers⟩ := revealing_noticed haccepts hpreparation
      (by rw [hturned]; rfl) hwell hmemory
    exact hdiffers (hunnoticed _ revealing_refusesOnly e t hrun environment' request')

end Atomicity

section Encoding

variable (stages : Stages τ γ) (environment : CallEnvironment) (frames : List Frame) (qp : UInt32)
  (resetMemory : Bool)

/-- The checks before a group is encoded. -/
structure EncodesGroup (session : Session τ) (frames : List Frame) : Prop where
  referenced : session.encoder.context.isSome
  size : session.SharesSize frames

/-- Encoding a group up to its feature. -/
def encodedFeature : Action Error (Session τ) (Encoded × τ) := do
  let encoded ← compute environment.faults .latents fun session =>
    stages.encodeGroup session.preparation frames qp session.encoder.memory
      session.encoder.context
  let feature ← compute environment.faults .decoded fun session =>
    stages.decoder qp encoded.2 session.encoder.context
  pure (encoded.1, feature)

/-- The features from which the next memory of the encoder is adapted. -/
def storeFeature (feature : τ) : Action Error (Session τ) Unit :=
  if resetMemory then
    compute environment.faults .reset (fun _ => stages.reset feature) >>= fun resetFeature =>
      updateReference .encoder fun reference =>
        { reference with featureI := some resetFeature, memoryHasValue := false }
  else
    updateReference .encoder fun reference => { reference with memoryHasValue := true }

def renewEncoder (output : Encoded) : Action Error (Session τ) Encoded := do
  adapt stages environment.faults .encoder
  extract stages environment.faults .encoder
  pure output

/-- The reference of the encoder turns to a group's feature. -/
def turnEncoder (encoded : Encoded × τ) : Action Error (Session τ) Encoded := do
  updateReference .encoder fun reference => { reference with featureP := some encoded.2 }
  storeFeature stages environment resetMemory encoded.2
  renewEncoder stages environment encoded.1

theorem encodeP_accepted {session : Session τ} (h : EncodesGroup session frames) :
    (encodeP stages environment frames qp resetMemory).run session =
      Action.run (encodedFeature stages environment frames qp >>=
        turnEncoder stages environment resetMemory) session := by
  cases resetMemory with
  | true =>
      simp only [encodeP, encodedFeature, turnEncoder, storeFeature, renewEncoder, bind_assoc,
        pure_bind, if_true]
      simp only [require, Action.run_bind, Action.run_gets, Action.run_lift, id,
        if_pos h.referenced, if_pos h.size]
  | false =>
      simp only [encodeP, encodedFeature, turnEncoder, storeFeature, renewEncoder, bind_assoc,
        pure_bind]
      simp only [require, Action.run_bind, Action.run_gets, Action.run_lift, id,
        if_pos h.referenced, if_pos h.size]
      rfl

/-- Why a group is not encoded. -/
def encodingRefusal (session : Session τ) : Error :=
  if session.encoder.context.isSome then failure .resourceExhausted "DCVC-UF HT-S inputs"
  else failure .invalidState "HT-S group before an intra frame"

theorem encodeP_refused {session : Session τ} (h : ¬ EncodesGroup session frames) :
    (encodeP stages environment frames qp resetMemory).run session =
      (.error (encodingRefusal session), session) := by
  unfold encodingRefusal
  simp only [encodeP, Action.run_bind, Action.run_gets, Action.run_lift, id, require]
  by_cases hreferenced : session.encoder.context.isSome = true
  · by_cases hsize : session.SharesSize frames
    · exact absurd ⟨hreferenced, hsize⟩ h
    · rw [if_pos hreferenced, if_neg hsize, if_pos hreferenced]
  · rw [if_neg hreferenced, if_neg hreferenced]

theorem encodedFeature_keeps {δ : Type} (p : Session τ → δ) :
    Action.Keeps p (encodedFeature stages environment frames qp) :=
  (compute_keeps p _ _ _).bind fun _ => (compute_keeps p _ _ _).bind fun _ => Action.Keeps.pure _

theorem encodedFeature_fails (h : Stops environment.faults [.latents, .decoded]) :
    Action.Fails (encodedFeature stages environment frames qp) := by
  obtain ⟨point, hpoint, hfault⟩ := h
  simp only [List.mem_cons, List.not_mem_nil, or_false] at hpoint
  rcases hpoint with rfl | rfl
  · exact (compute_fails hfault _).bind _
  · exact Action.Fails.bind_right _ fun _ => (compute_fails hfault _).bind _

/-- The points at which the reference of the encoder is half turned. -/
def turnPoints (resetMemory : Bool) : List Point :=
  if resetMemory then [.reset, .adapted, .extracted] else [.adapted, .extracted]

theorem renewEncoder_fails (h : Stops environment.faults [.adapted, .extracted])
    (output : Encoded) : Action.Fails (renewEncoder stages environment output) := by
  obtain ⟨point, hpoint, hfault⟩ := h
  simp only [List.mem_cons, List.not_mem_nil, or_false] at hpoint
  rcases hpoint with rfl | rfl
  · exact Action.Fails.bind ((compute_fails hfault _).bind _) _
  · exact Action.Fails.bind_right _ fun _ => Action.Fails.bind ((compute_fails hfault _).bind _) _

theorem store_renew_fails (h : Stops environment.faults (turnPoints resetMemory))
    (encoded : Encoded × τ) :
    Action.Fails (storeFeature stages environment resetMemory encoded.2 >>= fun _ =>
      renewEncoder stages environment encoded.1) := by
  cases hreset : resetMemory with
  | true =>
      simp only [turnPoints, hreset, if_true] at h
      obtain ⟨point, hpoint, hfault⟩ := h
      rcases List.mem_cons.mp hpoint with rfl | hpoint
      · exact Action.Fails.bind ((compute_fails hfault _).bind _) _
      · exact Action.Fails.bind_right _ fun _ =>
          renewEncoder_fails stages environment ⟨point, hpoint, hfault⟩ encoded.1
  | false =>
      simp only [turnPoints, hreset] at h
      exact Action.Fails.bind_right _ fun _ => renewEncoder_fails stages environment h encoded.1

theorem store_renew_keeps (encoded : Encoded × τ) :
    Action.Keeps (fun session : Session τ => session.encoder.featureP)
      (storeFeature stages environment resetMemory encoded.2 >>= fun _ =>
        renewEncoder stages environment encoded.1) := by
  have hstore : Action.Keeps (fun session : Session τ => session.encoder.featureP)
      (storeFeature stages environment resetMemory encoded.2) := by
    cases resetMemory with
    | true => exact (compute_keeps _ _ _ _).bind fun _ => Action.Keeps.update fun _ => rfl
    | false => exact Action.Keeps.update fun _ => rfl
  have hadapt : Action.Keeps (fun session : Session τ => session.encoder.featureP)
      (adapt stages environment.faults .encoder) :=
    (compute_keeps _ _ _ _).bind fun _ => Action.Keeps.update fun _ => rfl
  have hextract : Action.Keeps (fun session : Session τ => session.encoder.featureP)
      (extract stages environment.faults .encoder) :=
    (compute_keeps _ _ _ _).bind fun _ => Action.Keeps.update fun _ => rfl
  exact hstore.bind fun _ => hadapt.bind fun _ => hextract.bind fun _ => Action.Keeps.pure _

/-- A half turned reference holds the new feature already. -/
theorem turnEncoder_fails (h : Stops environment.faults (turnPoints resetMemory))
    (encoded : Encoded × τ) (session : Session τ) :
    ∃ e t, (turnEncoder stages environment resetMemory encoded).run session = (.error e, t) ∧
      t.encoder.featureP = some encoded.2 := by
  set turned := session.setReference .encoder
    { session.encoder with featureP := some encoded.2 } with hturned
  obtain ⟨e, t, hrun⟩ := store_renew_fails stages environment resetMemory h encoded turned
  have hkept := store_renew_keeps stages environment resetMemory encoded turned
  rw [hrun] at hkept
  exact ⟨e, t, hrun, hkept⟩

variable {stages environment}

theorem RefusesOnly.turnEncoder {malformed : Bytes → Prop} (h : RefusesOnly stages malformed)
    (hfaults : ∀ point ∈ turnPoints resetMemory, environment.faults point = none)
    (encoded : Encoded × τ) :
    Action.Completes (Session.turnEncoder stages environment resetMemory encoded) := by
  have hrenewal (hadapted : environment.faults .adapted = none)
      (hextracted : environment.faults .extracted = none) :
      Action.Completes (renewEncoder stages environment encoded.1) :=
    (h.adapt hadapted .encoder).bind fun _ => (h.extract hextracted .encoder).bind fun _ =>
      Action.Completes.pure encoded.1
  cases resetMemory with
  | true =>
      have hstore : Action.Completes (storeFeature stages environment true encoded.2) :=
        (compute_completes (hfaults .reset (by decide)) fun _ => h.reset _).bind fun _ =>
          Action.Completes.update _
      exact (Action.Completes.update _).bind fun _ => hstore.bind fun _ =>
        hrenewal (hfaults .adapted (by decide)) (hfaults .extracted (by decide))
  | false =>
      have hstore : Action.Completes (storeFeature stages environment false encoded.2) :=
        Action.Completes.update _
      exact (Action.Completes.update _).bind fun _ => hstore.bind fun _ =>
        hrenewal (hfaults .adapted (by decide)) (hfaults .extracted (by decide))

/-- A failed group call leaves the reference of the encoder, whatever the stages compute. -/
def EncoderKept (γ : Type) (malformed : Bytes → Prop) (session : Session τ)
    (environment : CallEnvironment) (frames : List Frame) (qp : UInt32) (resetMemory : Bool) :
    Prop :=
  ∀ stages : Stages τ γ, RefusesOnly stages malformed →
    ∀ e t, (encodeP stages environment frames qp resetMemory).run session = (.error e, t) →
      t.encoder = session.encoder

theorem encoderKept_of {malformed : Bytes → Prop} {session : Session τ}
    (h : ¬ EncodesGroup session frames ∨ Stops environment.faults [.latents, .decoded] ∨
      ¬ Stops environment.faults (turnPoints resetMemory)) :
    EncoderKept γ malformed session environment frames qp resetMemory := by
  intro stages hstages e t hrun
  by_cases hencodes : EncodesGroup session frames
  · rw [encodeP_accepted _ _ _ _ _ hencodes] at hrun
    have hkeeps := encodedFeature_keeps stages environment frames qp Session.encoder
    rcases hkeeps.bind_cases hrun with ⟨hkept, -⟩ | ⟨encoded, s, hfirst, -, hlater⟩
    · exact hkept
    · have hnot : ¬ Stops environment.faults [.latents, .decoded] := by
        intro hstops
        obtain ⟨e', t', hfails⟩ := encodedFeature_fails stages environment frames qp hstops session
        rw [hfails] at hfirst
        exact nomatch hfirst
      have hturn := (h.resolve_left (not_not.mpr hencodes)).resolve_left hnot
      refine absurd hlater (hstages.turnEncoder resetMemory (fun point hpoint => ?_) encoded).ne_error
      exact Option.not_isSome_iff_eq_none.mp fun hsome => hturn ⟨point, hpoint, hsome⟩
  · rw [encodeP_refused stages environment frames qp resetMemory hencodes] at hrun
    cases hrun
    rfl

theorem not_encoderKept [DecidableEq τ] [Nontrivial τ] [Nonempty γ] {malformed : Bytes → Prop}
    [DecidablePred malformed] {session : Session τ} (hencodes : EncodesGroup session frames)
    (hfirst : ¬ Stops environment.faults [.latents, .decoded])
    (hturn : Stops environment.faults (turnPoints resetMemory)) :
    ¬ EncoderKept γ malformed session environment frames qp resetMemory := by
  obtain ⟨symbols⟩ := ‹Nonempty γ›
  obtain ⟨feature, hfeature⟩ : ∃ feature, session.encoder.featureP ≠ some feature := by
    cases hold : session.encoder.featureP with
    | none =>
        obtain ⟨a, -, -⟩ := exists_pair_ne τ
        exact ⟨a, fun h => nomatch h⟩
    | some old =>
        obtain ⟨other, hother⟩ := exists_ne old
        exact ⟨other, fun h => hother (Option.some.inj h).symm⟩
  set stages : Stages τ γ := { revealing malformed feature symbols (fun _ => feature)
    (fun _ => feature) feature with decoder := fun _ _ _ => .ok feature } with hstages
  have hrefuses : RefusesOnly stages malformed :=
    { revealing_refusesOnly with decoder := fun _ _ _ => ⟨_, rfl⟩ }
  have hfaults (point : Point) (hpoint : point ∈ [Point.latents, .decoded]) :
      environment.faults point = none :=
    Option.not_isSome_iff_eq_none.mp fun hsome => hfirst ⟨point, hpoint, hsome⟩
  have hrun : (encodedFeature stages environment frames qp).run session =
      (.ok (⟨[], 0⟩, feature), session) := by
    simp only [encodedFeature, Action.run_bind, compute_run (hfaults .latents (by decide)),
      compute_run (hfaults .decoded (by decide))]
    rfl
  obtain ⟨e, t, hfails, hleft⟩ := turnEncoder_fails stages environment resetMemory hturn
    (⟨[], 0⟩, feature) session
  intro hkept
  have hsame := hkept stages hrefuses e t (by
    rw [encodeP_accepted _ _ _ _ _ hencodes, Action.run_bind_of_ok hrun, hfails])
  rw [hsame] at hleft
  exact hfeature hleft

end Encoding

section Claims

/-- A failed group is without effect exactly when it is refused or stopped before the memory is
adapted, without a remembered memory before the reference turns, or not stopped at all; a failed
encoding when it stops before the feature is stored. -/
theorem failed_groups_without_effect_iff [DecidableEq τ] [Nontrivial τ] [Nonempty γ]
    (malformed : Bytes → Prop) [DecidablePred malformed]
    (hwell : ∃ bitstream, ¬ malformed bitstream) (session : Session τ)
    (environment : CallEnvironment) (request : GroupRequest) (frames : List Frame) (qp : UInt32)
    (resetMemory : Bool) :
    (GroupUnnoticed γ malformed session environment request ↔
      ¬ AcceptsGroup session request ∨ (environment.faults .adapted).isSome ∨
        (session.decoder.memoryHasValue = false ∧
          GroupStops malformed environment.faults request) ∨
        ¬ (GroupStops malformed environment.faults request ∨
          (environment.faults .frames).isSome)) ∧
      (EncoderKept γ malformed session environment frames qp resetMemory ↔
        ¬ EncodesGroup session frames ∨ Stops environment.faults [.latents, .decoded] ∨
          ¬ Stops environment.faults (turnPoints resetMemory)) := by
  refine ⟨⟨fun hunnoticed => ?_, groupUnnoticed_of⟩,
    ⟨fun hkept => ?_, encoderKept_of frames qp resetMemory⟩⟩
  · by_contra hnot
    simp only [not_or, not_not, not_and] at hnot
    obtain ⟨haccepts, hadapted, hmemory, hstops⟩ := hnot
    refine not_groupUnnoticed hwell haccepts (Option.not_isSome_iff_eq_none.mp hadapted) ?_
      (or_iff_not_imp_left.mpr hstops) hunnoticed
    by_cases hvalue : session.decoder.memoryHasValue = true
    · exact .inl hvalue
    · exact .inr (hmemory (Bool.eq_false_of_not_eq_true hvalue))
  · by_contra hnot
    simp only [not_or, not_not] at hnot
    exact not_encoderKept frames qp resetMemory hnot.1 hnot.2.1 hnot.2.2 hkept

/-- Stages over counters: each adaptation counts one up, and a group decodes to that many
frames. -/
def counting : Stages ℕ Unit where
  encodeIntra _ _ _ := .ok (⟨[], 1⟩, 0)
  decodeIntra _ _ := .ok 0
  intraFrame _ _ latent := .ok latent
  download _ _ _ := .ok Frame.empty
  unshuffle _ frame := .ok frame
  adaptorM memory _ := .ok (memory.getD 0 + 1)
  adaptorI _ := .ok 0
  extractor memory := .ok (memory.getD 0)
  encodeGroup _ _ _ _ _ := .ok (⟨[], 1⟩, 0)
  decodeGroup _ request _ :=
    if request.bitstream = [] then .error (failure .malformedBitstream "rans") else .ok ()
  groupLatent _ _ _ := .ok 0
  decoder _ _ context := .ok (context.getD 0)
  heads feature := .ok [feature]
  reset _ := .ok 0
  frames _ _ heads := .ok (List.replicate heads.sum Frame.empty)

/-- The session after an intra frame and a group in both directions. -/
def remembering : Session ℕ where
  encoder := ⟨some 0, some 0, some 0, some 0, true⟩
  decoder := ⟨some 0, some 0, some 0, some 0, true⟩

/-- An environment that stops a call at one point at most. -/
def stoppingAt (point : Option Point) : CallEnvironment where
  preparation _ := .ok ()
  faults p := if some p = point then some (failure .backendError "stream") else none

def groupOf (bitstream : Bytes) : GroupRequest := ⟨bitstream, 1, 0, 0, 0, [], false⟩

/-- A malformed group changes what the next group decodes to, and a failed extraction changes the
reference of the encoder. -/
theorem malformed_group_noticed :
    let damaged := (decodeP counting (stoppingAt none) (groupOf [])).run remembering
    let failed := (encodeP counting (stoppingAt (some .extracted)) [] 0 false).run remembering
    damaged.1 = .error (failure .malformedBitstream "rans") ∧
      ((decodeP counting (stoppingAt none) (groupOf [0])).run remembering).1 =
        .ok [Frame.empty] ∧
      ((decodeP counting (stoppingAt none) (groupOf [0])).run damaged.2).1 =
        .ok [Frame.empty, Frame.empty] ∧
      failed.1 = .error (failure .backendError "stream") ∧
      failed.2.encoder ≠ remembering.encoder := by
  refine ⟨rfl, rfl, rfl, rfl, by decide⟩

theorem malformed_group_noticed_of_iff :
    ¬ GroupUnnoticed Unit (· = []) remembering (stoppingAt none) (groupOf []) := by
  refine fun h => absurd ((failed_groups_without_effect_iff (· = []) ⟨[0], by decide⟩ remembering
    (stoppingAt none) (groupOf []) [] 0 false).1.mp h) ?_
  have haccepts : AcceptsGroup remembering (groupOf []) := ⟨rfl, by decide, by decide⟩
  rintro (h | h | h | h)
  · exact h haccepts
  · exact nomatch h
  · exact nomatch h.1
  · exact h (.inl (.inr rfl))

end Claims

end Nvcr.Uf.TensorRt.Session
