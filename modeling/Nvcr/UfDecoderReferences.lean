import Nvcr.UfDecoder

/-!
# When a DCVC-UF decoder refuses a predicted group

Neither execution session forgets its reference, so a decoder waits for an intra frame only if its
session never had one. A run tracks whether a reset or a failed intra access unit was the last
to open a sequence.
-/

namespace Nvcr.Uf

open StatefulResults TransitionRuns

/-- A session that refuses groups until it has a reference. `Stores` tells whether an intra call
gets as far as storing one. -/
structure ReferenceGuard (S : ExecutionSession) where
  Referenced : S.State → Prop
  Stores : S.Work → IntraRequest → S.State → Prop
  initial : ¬ Referenced S.initial
  reset_run : ∀ s, S.resetDecoderState.run s = (.ok (), s)
  intra_keeps : ∀ work request s, ¬ Referenced s → ¬ Stores work request s →
    ¬ Referenced ((S.decodeIntra work request).run s).2
  group_refused : ∀ work request s, ¬ Referenced s → ∃ e s',
    (S.decodePredicted work request).run s = (.error e, s') ∧ ¬ Referenced s'

namespace TensorRt

variable {τ : Type}

/-- The intra feature of the decoder. -/
def featureI (state : State τ) : Option τ := state.decoder.featureI

/-- Every piece of an intra call up to the stored feature succeeds. -/
structure Stores (work : Work τ) (request : IntraRequest) (state : State τ) : Prop where
  parallel : ¬ (request.entropyParallel = 0 ∨ request.entropyParallel > maxEntropyParallel)
  prepared : (request.width = state.width ∧ request.height = state.height) ∨ work.prepared = .ok ()
  frame : ∃ frame, work.intraFrame = .ok frame
  feature : ∃ feature, work.intraFeature = .ok feature

theorem prepare_keeps (work : Work τ) (width height : UInt32) :
    Action.Keeps featureI (prepare work width height) := by
  refine Action.Keeps.bind (Action.Keeps.gets id) fun state => ?_
  split
  · exact Action.Keeps.pure ()
  · exact Action.Keeps.bind (Action.Keeps.update fun _ => rfl) fun _ => Action.Keeps.lift _

theorem prepare_eq_ok {work : Work τ} {width height : UInt32} {state prepared : State τ}
    (h : (prepare work width height).run state = (.ok (), prepared)) :
    (width = state.width ∧ height = state.height) ∨ work.prepared = .ok () := by
  obtain ⟨_, _, hgets, hrest⟩ := Action.run_bind_eq_ok.mp h
  cases hgets
  split at hrest
  · rename_i hsame
    exact .inl hsame
  · obtain ⟨_, _, _, hlift⟩ := Action.run_bind_eq_ok.mp hrest
    rw [Action.run_lift, Prod.mk.injEq] at hlift
    exact .inr hlift.1

/-- An intra call that does not get as far as the reference keeps the one that is there. -/
theorem decodeI_keeps {work : Work τ} {request : IntraRequest} {state : State τ}
    (h : ¬ Stores work request state) :
    featureI ((decodeI work request).run state).2 = featureI state := by
  by_cases hparallel :
      ¬ (request.entropyParallel = 0 ∨ request.entropyParallel > maxEntropyParallel)
  · have hprepare := prepare_keeps work request.width request.height state
    simp only [decodeI, require, if_pos hparallel, Action.run_bind, Action.run_lift]
    rcases hrun : (prepare work request.width request.height).run state with ⟨_ | _, prepared⟩
    · rw [hrun] at hprepare
      exact hprepare
    · rw [hrun] at hprepare
      cases hframe : work.intraFrame with
      | error e => exact hprepare
      | ok frame =>
          cases hfeature : work.intraFeature with
          | error e =>
              simp only [referenceFromFrame, hfeature, Action.run_bind, Action.run_lift]
              exact hprepare
          | ok feature =>
              exact absurd ⟨hparallel, prepare_eq_ok hrun, ⟨frame, hframe⟩, feature, hfeature⟩ h
  · simp only [decodeI, require, if_neg hparallel, Action.run_bind, Action.run_lift]

theorem guarded_snd {α : Type} (work : Work τ) (call : Action Error (State τ) α) (state : State τ) :
    ((guarded work call).run state).2 = (call.run state).2 := by
  simp only [guarded, Action.run_bind, Action.run_lift]
  rcases call.run state with ⟨_ | output, later⟩
  · rfl
  · cases work.synchronized <;> rfl

/-- A group is refused where there is no intra feature, and stores none. -/
theorem decodePredicted_refused (work : Work τ) (request : GroupRequest) {state : State τ}
    (h : featureI state = none) : ∃ e, (decodePredicted work request).run state = (.error e, state) := by
  have hfeature : state.decoder.featureI = none := h
  by_cases hcount : ¬ (request.timestamps = [] ∨ request.timestamps.length > 8)
  · refine ⟨failure .malformedBitstream "HT-S group before an intra frame", ?_⟩
    simp only [decodePredicted, guarded, decodeP, require, if_pos hcount, Action.run_bind,
      Action.run_gets, Action.run_lift, id_eq, hfeature, Option.isSome_none, Bool.false_eq_true,
      if_false]
  · refine ⟨failure .invalidArgument "HT-S timestamp count must be in [1, 8]", ?_⟩
    simp only [decodePredicted, require, if_neg hcount, Action.run_bind, Action.run_lift]

/-- The session checks for its intra feature, and only intra calls store one where there was
none. -/
def referenceGuard (τ : Type) : ReferenceGuard (session τ) where
  Referenced state := featureI state ≠ none
  Stores := Stores
  initial := by simp [session, featureI]
  reset_run _ := rfl
  intra_keeps := by
    intro work request state hnone hstores
    have hkept : featureI ((decodeIntra work request).run state).2 = featureI state :=
      (congrArg featureI (guarded_snd work _ state)).trans (decodeI_keeps hstores)
    exact fun hsome => hnone (hkept ▸ hsome)
  group_refused := by
    intro work request state hnone
    obtain ⟨e, hrefused⟩ := decodePredicted_refused work request (not_not.mp hnone)
    exact ⟨e, state, hrefused, hnone⟩

end TensorRt

namespace Native

/-- What the native session relies on: the upstream video decoder has no reference before the first
one is added, throws without one, and does not get one from a group that it refused. -/
structure RequiresReference (U : Upstream) where
  Referenced : U.Video → Prop
  fresh : ¬ Referenced U.fresh
  refuses : ∀ env request video, ¬ Referenced video → ∃ e video',
    (U.decompress env request).run video = (.error e, video') ∧ ¬ Referenced video'

variable {U : Upstream}

/-- The image is decompressed, so that its reference is added. -/
def Stores (env : U.Environment) (request : IntraRequest) : Prop :=
  ∃ reconstruction, U.decompressImage env request = .ok reconstruction

theorem decodeIntra_keeps {env : U.Environment} {request : IntraRequest}
    (h : ¬ Stores env request) (video : U.Video) :
    ((decodeIntra U env request).run video).2 = video := by
  cases himage : U.decompressImage env request with
  | error e => simp only [decodeIntra, himage, Action.run_bind, Action.run_lift]
  | ok reconstruction => exact absurd ⟨reconstruction, himage⟩ h

theorem decodePredicted_refused (h : RequiresReference U) (env : U.Environment)
    (request : GroupRequest) {video : U.Video} (hnone : ¬ h.Referenced video) :
    ∃ e video', (decodePredicted U env request).run video = (.error e, video') ∧
      ¬ h.Referenced video' := by
  by_cases hcount : ¬ (request.timestamps = [] ∨ request.timestamps.length > 8)
  · obtain ⟨e, video', hrun, hnone'⟩ := h.refuses env request video hnone
    refine ⟨e, video', ?_, hnone'⟩
    simp only [decodePredicted, require, if_pos hcount, Action.run_bind, Action.run_lift, hrun]
  · refine ⟨failure .invalidArgument "DCVC-UF predicted timestamp count must be in [1, 8]", video,
      ?_, hnone⟩
    simp only [decodePredicted, require, if_neg hcount, Action.run_bind, Action.run_lift]

/-- The native session has no check of its own. -/
def referenceGuard (h : RequiresReference U) : ReferenceGuard (session U) where
  Referenced := h.Referenced
  Stores env request _ := Stores env request
  initial := h.fresh
  reset_run _ := rfl
  intra_keeps := by
    intro env request video hnone hstores
    have hkept : ((decodeIntra U env request).run video).2 = video := decodeIntra_keeps hstores video
    exact fun hsome => hnone (hkept ▸ hsome)
  group_refused _ request _ hnone := decodePredicted_refused h _ request hnone

end Native

/-- The two execution sessions, the native one with the upstream models behind it. -/
inductive Backend where
  | tensorRt (τ : Type)
  | native (U : Native.Upstream) (contract : Native.RequiresReference U)

namespace Backend

def session : Backend → ExecutionSession
  | .tensorRt τ => TensorRt.session τ
  | .native U _ => Native.session U

def referenceGuard : (backend : Backend) → ReferenceGuard backend.session
  | .tensorRt τ => TensorRt.referenceGuard τ
  | .native _ contract => Native.referenceGuard contract

end Backend

namespace Decoder

variable {S : ExecutionSession}

inductive Call (S : ExecutionSession) where
  | sendAccessUnit (packet : Packet) (work : S.Work)
  | receiveFrame
  | flush
  | reset

variable {configuration : DecoderConfiguration} {guard : ReferenceGuard S}

theorem frameType_of_parseUnit {packet : Packet} {unit : AccessUnit} {payload : CodecPayload}
    (h : parseUnit configuration packet = .ok (unit, payload)) :
    unit.frameType = packet.frameType := by
  obtain ⟨_, _, hdeserialized⟩ := bind_eq_ok.mp h
  obtain ⟨_, _, hidentity⟩ := bind_eq_ok.mp hdeserialized
  obtain ⟨_, hsame, hqp⟩ := bind_eq_ok.mp hidentity
  obtain ⟨_, _, hpayload⟩ := bind_eq_ok.mp hqp
  obtain ⟨_, _, hparsed⟩ := bind_eq_ok.mp hpayload
  cases hparsed
  have hmatch := require_eq_ok.mp hsame
  by_contra hother
  exact hmatch (.inr hother)

/-- An access unit is refused before the session, or it is parsed and decoded. -/
theorem sendAccessUnit_cases (configuration : DecoderConfiguration) (work : S.Work) (packet : Packet)
    (decoder : Decoder S) :
    (∃ e, (sendAccessUnit configuration work packet).run decoder = (.error e, decoder)) ∨
      ∃ unit payload, decoder.flushed = false ∧
        parseUnit configuration packet = .ok (unit, payload) ∧
        (sendAccessUnit configuration work packet).run decoder =
          (decodeUnit work unit payload).run decoder := by
  simp only [sendAccessUnit, require, Action.run_bind, Action.run_gets, Action.run_lift, id_eq]
  cases hflushed : decoder.flushed with
  | true => exact .inl ⟨_, rfl⟩
  | false =>
      cases hparsed : parseUnit configuration packet with
      | error e => exact .inl ⟨e, rfl⟩
      | ok parsed => exact .inr ⟨parsed.1, parsed.2, rfl, rfl, rfl⟩

/-- Without a reference every predicted access unit is rejected, and none is stored. -/
theorem sendAccessUnit_predicted (configuration : DecoderConfiguration)
    (guard : ReferenceGuard S) (work : S.Work) {packet : Packet} (hpredicted : packet.frameType = .predicted) {decoder : Decoder S}
    (hnone : ¬ guard.Referenced decoder.provider) :
    ∃ e later, (sendAccessUnit configuration work packet).run decoder = (.error e, later) ∧
      ¬ guard.Referenced later.provider := by
  rcases sendAccessUnit_cases configuration work packet decoder with
    ⟨e, hrefused⟩ | ⟨unit, payload, -, hparsed, hdecoded⟩
  · exact ⟨e, decoder, hrefused, hnone⟩
  · have htype : unit.frameType = .predicted := (frameType_of_parseUnit hparsed).trans hpredicted
    obtain ⟨e, provider, hrun, hnone'⟩ :=
      guard.group_refused work (groupRequest unit payload) decoder.provider hnone
    refine ⟨e, { decoder with provider := provider }, ?_, hnone'⟩
    rw [hdecoded]
    simp only [decodeUnit, htype, withProvider, Action.run_bind, Action.run_zoom, hrun]

/-- A failed intra access unit that did not get as far as its reference leaves none. -/
theorem sendAccessUnit_intra_failed (guard : ReferenceGuard S) {work : S.Work} {packet : Packet}
    (hintra : packet.frameType = .intra) {decoder : Decoder S}
    (hnone : ¬ guard.Referenced decoder.provider)
    (hstores : decoder.flushed = false → ∀ unit payload,
      parseUnit configuration packet = .ok (unit, payload) →
      ¬ guard.Stores work (intraRequest unit payload) decoder.provider) :
    ¬ guard.Referenced ((sendAccessUnit configuration work packet).run decoder).2.provider := by
  rcases sendAccessUnit_cases configuration work packet decoder with
    ⟨e, hrefused⟩ | ⟨unit, payload, hopen, hparsed, hdecoded⟩
  · rw [hrefused]
    exact hnone
  · have htype : unit.frameType = .intra := (frameType_of_parseUnit hparsed).trans hintra
    have hkept := guard.intra_keeps work (intraRequest unit payload) decoder.provider hnone
      (hstores hopen unit payload hparsed)
    rw [hdecoded]
    simp only [decodeUnit, htype, withProvider, Action.run_bind, Action.run_zoom, guard.reset_run]
    rcases hrun : (S.decodeIntra work (intraRequest unit payload)).run decoder.provider with
      ⟨_ | frame, provider⟩
    · rw [hrun] at hkept
      exact hkept
    · rw [hrun] at hkept
      exact hkept

/-- A decoder, and whether a reset or a failed intra access unit was the last event that opened or
closed a sequence. -/
structure Tracked (S : ExecutionSession) where
  decoder : Decoder S
  awaitsIntra : Bool

namespace Tracked

def new (S : ExecutionSession) : Tracked S := ⟨Decoder.new S, false⟩

variable (configuration : DecoderConfiguration)

/-- Whether an intra frame is awaited after an access unit was sent. -/
def awaitsAfter (awaited : Bool) (packet : Packet) (answer : Result Unit) : Bool :=
  match packet.frameType, answer with
  | .intra, .ok () => false
  | .intra, .error _ => true
  | .predicted, _ => awaited

/-- One call; the answer tells whether it was accepted, and a received frame. -/
def step (tracked : Tracked S) : Call S → Result (Option Frame) × Tracked S
  | .sendAccessUnit packet work =>
      let sent := (Decoder.sendAccessUnit configuration work packet).run tracked.decoder
      ((fun _ => none) <$> sent.1, ⟨sent.2, awaitsAfter tracked.awaitsIntra packet sent.1⟩)
  | .receiveFrame =>
      let received := tracked.decoder.receiveFrame
      (some <$> received.1, { tracked with decoder := received.2 })
  | .flush => (.ok none, { tracked with decoder := tracked.decoder.flush })
  | .reset =>
      let restarted := Decoder.reset.run tracked.decoder
      ((fun _ => none) <$> restarted.1, ⟨restarted.2, true⟩)

/-- A predicted access unit is rejected while an intra frame is awaited. -/
def RejectsPredicted (tracked : Tracked S) : Call S → Prop
  | .sendAccessUnit packet work => packet.frameType = .predicted → tracked.awaitsIntra = true →
      ∃ e, (tracked.step configuration (.sendAccessUnit packet work)).1 = .error e
  | _ => True

/-- The condition on a step: when the decoder is reset or an intra access unit fails, the session
has no reference, and the access unit did not fail behind the point where its own is stored. -/
def WithoutReference (guard : ReferenceGuard S) (tracked : Tracked S) : Call S → Prop
  | .sendAccessUnit packet work => packet.frameType = .intra →
      (∃ e, (tracked.step configuration (.sendAccessUnit packet work)).1 = .error e) →
      ¬ guard.Referenced tracked.decoder.provider ∧
        (tracked.decoder.flushed = false → ∀ unit payload,
          parseUnit configuration packet = .ok (unit, payload) →
          ¬ guard.Stores work (intraRequest unit payload) tracked.decoder.provider)
  | .reset => ¬ guard.Referenced tracked.decoder.provider
  | _ => True

/-- While an intra frame is awaited, the session has no reference. -/
def Unreferenced (guard : ReferenceGuard S) (tracked : Tracked S) : Prop :=
  tracked.awaitsIntra = true → ¬ guard.Referenced tracked.decoder.provider

theorem rejectsPredicted_of_unreferenced (guard : ReferenceGuard S) (tracked : Tracked S)
    (call : Call S) (h : tracked.Unreferenced guard) : tracked.RejectsPredicted configuration call := by
  cases call with
  | sendAccessUnit packet work =>
      intro hpredicted hawaits
      obtain ⟨e, later, hrun, -⟩ := sendAccessUnit_predicted configuration guard work hpredicted
        (h hawaits)
      exact ⟨e, by simp only [step, hrun]; rfl⟩
  | receiveFrame | flush | reset => trivial

/-- A step that meets the condition leaves no reference where an intra frame is awaited. -/
theorem step_unreferenced (guard : ReferenceGuard S) (tracked : Tracked S) (call : Call S)
    (h : tracked.Unreferenced guard)
    (hcondition : tracked.WithoutReference configuration guard call) :
    (tracked.step configuration call).2.Unreferenced guard := by
  cases call with
  | sendAccessUnit packet work =>
      cases htype : packet.frameType with
      | predicted =>
          intro hawaits
          have hbefore : tracked.awaitsIntra = true := by
            simpa only [step, awaitsAfter, htype] using hawaits
          obtain ⟨e, later, hrun, hnone⟩ := sendAccessUnit_predicted configuration guard work
            htype (h hbefore)
          simpa only [step, hrun] using hnone
      | intra =>
          rcases hrun : (Decoder.sendAccessUnit configuration work packet).run tracked.decoder with
            ⟨e | u, later⟩
          · intro _
            obtain ⟨hnone, hstores⟩ := hcondition htype ⟨e, by simp only [step, hrun]; rfl⟩
            exact sendAccessUnit_intra_failed guard htype hnone hstores
          · intro hawaits
            simp only [step, hrun, awaitsAfter, htype] at hawaits
            cases hawaits
  | receiveFrame =>
      intro hawaits
      have hprovider : tracked.decoder.receiveFrame.2.provider = tracked.decoder.provider := by
        unfold receiveFrame
        split
        · rfl
        · split <;> rfl
      simpa only [step, hprovider] using h hawaits
  | flush => exact h
  | reset =>
      intro _
      have hnone : ¬ guard.Referenced tracked.decoder.provider := hcondition
      simpa only [step, Decoder.reset, withProvider, Action.run_bind, Action.run_update,
        Action.run_zoom, guard.reset_run] using hnone

end Tracked

end Decoder

/-- In every run in which the decoder is reset, and intra access units fail, only while the session
has no reference, a predicted access unit is rejected whenever a reset or a failed intra access
unit came after the last decoded intra frame. -/
theorem Backend.decoder_waits_for_intra (backend : Backend) (configuration : DecoderConfiguration)
    (calls : List (Decoder.Call backend.session))
    (h : Along (Decoder.Tracked.WithoutReference configuration backend.referenceGuard)
      (Decoder.Tracked.step configuration) (Decoder.Tracked.new backend.session) calls) :
    Along (Decoder.Tracked.RejectsPredicted configuration) (Decoder.Tracked.step configuration)
      (Decoder.Tracked.new backend.session) calls := by
  have hinitial : (Decoder.Tracked.new backend.session).Unreferenced backend.referenceGuard := by
    intro hawaits
    cases hawaits
  refine Along.of_invariant ?_ ?_ hinitial h
  · intro tracked call hunreferenced hcondition
    exact tracked.step_unreferenced configuration _ call hunreferenced hcondition
  · intro tracked call hunreferenced _
    exact tracked.rejectsPredicted_of_unreferenced configuration _ call hunreferenced

namespace Backend

/-- A 16×16 access unit of one frame with an entropy stream of one byte. -/
def smallUnit (type : FrameType) : AccessUnit where
  modelId := [109]
  width := 16
  height := 16
  qp := 0
  frameType := type
  resetState := type = .intra
  payload := makePayload type ⟨[0], 1⟩ [0] false

def smallPacket (type : FrameType) : Packet := ⟨AccessUnitIo.bytesV1 (smallUnit type), 0, type⟩

def smallConfiguration : DecoderConfiguration := ⟨[109], 1000⟩

/-- The work of a call in which only the stage that makes the intra feature may fail. -/
def smallWork (intraFeature : Result Unit) : TensorRt.Work Unit where
  prepared := .ok ()
  intraFrame := .ok ()
  intraFeature := intraFeature
  downloaded := .ok default
  adapted := .ok ()
  latents := .ok ()
  extracted := .ok ()
  decodedFeature := .ok ()
  heads := .ok ()
  resetFeature := .ok ()
  frames := .ok [default]
  synchronized := .ok ()

def sendSmall (type : FrameType) (intraFeature : Result Unit) :
    Decoder.Call (session (.tensorRt Unit)) :=
  .sendAccessUnit (smallPacket type) (smallWork intraFeature)

def stageFailure : Error := TensorRt.failure .backendError "TensorRT stage execution failed"

/-- A run that restarts before anything was stored, loses an intra frame, and recovers. -/
theorem decoder_waits_for_intra_after_stage_failure :
    Along (Decoder.Tracked.RejectsPredicted smallConfiguration)
      (Decoder.Tracked.step smallConfiguration)
      (Decoder.Tracked.new (session (.tensorRt Unit)))
      [.reset, sendSmall .predicted (.ok ()), sendSmall .intra (.error stageFailure),
        sendSmall .predicted (.ok ()), sendSmall .intra (.ok ()), sendSmall .predicted (.ok ())] := by
  refine decoder_waits_for_intra (.tensorRt Unit) smallConfiguration _ ⟨?_, ?_, ?_, ?_, ?_, ?_, trivial⟩
  · exact fun h => h rfl
  · intro h
    cases h
  · intro _ _
    refine ⟨fun h => h rfl, ?_⟩
    rintro - unit payload - ⟨-, -, -, feature, hfeature⟩
    cases hfeature
  · intro h
    cases h
  · rintro - ⟨e, he⟩
    cases he
  · intro h
    cases h

/-- The group that follows a reset is decoded against the frame from before it. -/
theorem decoder_keeps_reference_over_reset :
    ¬ ∀ (backend : Backend) (configuration : DecoderConfiguration)
        (calls : List (Decoder.Call backend.session)),
      Along (Decoder.Tracked.RejectsPredicted configuration) (Decoder.Tracked.step configuration)
        (Decoder.Tracked.new backend.session) calls := by
  intro h
  obtain ⟨-, -, hrejects, -⟩ := h (.tensorRt Unit) smallConfiguration
    [sendSmall .intra (.ok ()), .reset, sendSmall .predicted (.ok ())]
  obtain ⟨e, he⟩ := hrejects rfl rfl
  cases he

end Backend

end Nvcr.Uf
