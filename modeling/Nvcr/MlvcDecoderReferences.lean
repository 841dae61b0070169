import Nvcr.MlvcSessions
import Nvcr.TransitionRuns

/-!
# Reference safety of the MLVC decoder

A predicted access unit is accepted only in a sequence whose intra access unit was decoded, as
long as no intra access unit fails while an earlier sequence is still open: the decoder leaves
the scheduler of the earlier sequence in place when it fails.
-/

namespace Nvcr.Mlvc

open StatefulResults StatefulResults.Action TransitionRuns

namespace DecoderSession

variable {Image Feature : Type}

section Run

variable {environment : Environment Image Feature} {configuration : Configuration}
  {packet : Packet}

/-- The session after a successful canvas selection. -/
def withSelection (session : DecoderSession Feature) (selection : Selection) :
    DecoderSession Feature :=
  { session with selected := some selection }

/-- The references that an access unit may use: an intra one starts from an empty store. -/
def referencesFor (session : DecoderSession Feature) (unit : AccessUnit) :
    ReferenceStore Feature :=
  if unit.frameType = .intra then .clear else session.references

def withReferences (session : DecoderSession Feature) (references : ReferenceStore Feature) :
    DecoderSession Feature :=
  { session with references }

def planFor (selection : Selection) (unit : AccessUnit) : FramePlan :=
  selection.scheduler.plan (some (unit.frameType = .intra))

/-- Everything a call of `decode` can do, with the session as each failure leaves it. -/
theorem run_decode (session : DecoderSession Feature) :
    run (decode environment configuration packet) session =
      match parsePacket configuration packet with
      | .error e => (.error e, session)
      | .ok (unit, record) =>
          match selectionFor environment configuration session unit with
          | .error e => (.error e, session)
          | .ok selection =>
              let chosen := session.withSelection selection
              let cleared := chosen.withReferences (session.referencesFor unit)
              let plan := planFor selection unit
              if record.qIndex = droppedFrameQIndex then
                (repeatLastOutput environment chosen plan packet.timestamp, chosen)
              else
                match decodeSymbols environment selection.model unit record with
                | .error e => (.error e, chosen)
                | .ok symbols =>
                    match decodeFrame environment selection plan (session.referencesFor unit)
                        symbols record packet.timestamp with
                    | .error e => (.error e, cleared)
                    | .ok (feature, frame) =>
                        match environment.allocate "retained_frame" with
                        | .error e => (.error e, cleared.commitFrame plan feature)
                        | .ok () =>
                            (.ok frame, { cleared.commitFrame plan feature with
                              lastOutput := some frame }) := by
  simp only [decode, selectCanvas, run_bind, run_lift, run_gets, id]
  cases parsePacket configuration packet with
  | error e => rfl
  | ok parsed =>
      obtain ⟨unit, record⟩ := parsed
      simp only []
      cases selectionFor environment configuration session unit with
      | error e => rfl
      | ok selection =>
          simp only [run_update, run_pure]
          by_cases hdrop : record.qIndex = droppedFrameQIndex
          · simp only [hdrop, if_true, run_bind, run_gets, run_lift, id]
            rfl
          · simp only [hdrop, if_false, run_bind, run_lift, run_update, run_gets]
            cases decodeSymbols environment selection.model unit record with
            | error e => rfl
            | ok symbols =>
                simp only [referencesFor, planFor]
                cases decodeFrame environment selection
                    (selection.scheduler.plan (some (unit.frameType = .intra)))
                    (if unit.frameType = .intra then .clear else session.references)
                    symbols record packet.timestamp with
                | error e => rfl
                | ok decoded =>
                    simp only []
                    cases environment.allocate "retained_frame" with
                    | error e => rfl
                    | ok _ => rfl

theorem parsePacket_eq_ok {unit : AccessUnit} {record : FrameRecord}
    (h : parsePacket configuration packet = .ok (unit, record)) :
    parseUnit configuration packet = .ok unit := by
  simp only [parsePacket, bind_eq_ok] at h
  obtain ⟨unit', hunit, record', -, hpair⟩ := h
  cases hpair
  exact hunit

theorem predictedSelection_eq_ok {session : DecoderSession Feature} {unit : AccessUnit}
    {selection : Selection} (h : session.predictedSelection unit = .ok selection) :
    session.selected = some selection ∧ selection.scheduler.started = true := by
  unfold predictedSelection at h
  cases hs : session.selected.filter fun selection => selection.scheduler.started with
  | none => simp [hs] at h
  | some kept =>
      simp only [hs] at h
      split at h
      · cases h
      · cases h
        exact Option.filter_eq_some_iff.mp hs

/-- A canvas selected for an intra access unit keeps the scheduler or starts a new one. -/
theorem intraSelection_started {session : DecoderSession Feature} {unit : AccessUnit}
    {selection : Selection}
    (h : intraSelection environment configuration session unit = .ok selection)
    (hs : session.started = false) : selection.scheduler.started = false := by
  unfold intraSelection at h
  cases hm : modelFor configuration unit.modelId with
  | none => simp [hm] at h
  | some model =>
      cases hp : place unit.width.toNat unit.height.toNat model.parameters with
      | error e => simp [hm, hp] at h
      | ok placement =>
          cases hk : session.selected.filter fun selection =>
              selection.model.canvasId = model.canvasId with
          | some kept =>
              simp only [hm, hp, hk] at h
              cases h
              have hselected := (Option.filter_eq_some_iff.mp hk).1
              simpa [started, hselected] using hs
          | none =>
              simp only [hm, hp, hk, bind_eq_ok] at h
              obtain ⟨_, -, _, -, _, -, _, -, _, -, _, -, h⟩ := h
              cases h
              rfl

/-- A predicted access unit is accepted, and changes the state, only in a started sequence. -/
theorem run_decode_predicted {session : DecoderSession Feature} {unit : AccessUnit}
    (hunit : parseUnit configuration packet = .ok unit) (hp : unit.frameType ≠ .intra)
    (hs : session.started = false) :
    ∃ e, run (decode environment configuration packet) session = (.error e, session) := by
  rw [run_decode]
  cases hparse : parsePacket configuration packet with
  | error e => exact ⟨e, rfl⟩
  | ok parsed =>
      obtain ⟨unit', record⟩ := parsed
      have hsame : unit' = unit := by
        have h := parsePacket_eq_ok hparse
        rw [hunit] at h
        exact (Except.ok.inj h).symm
      subst hsame
      cases hsel : selectionFor environment configuration session unit' with
      | error e => exact ⟨e, by simp [hsel]⟩
      | ok selection =>
          simp only [selectionFor, hp, if_false] at hsel
          obtain ⟨hselected, hstarted⟩ := predictedSelection_eq_ok hsel
          simp [started, hselected, hstarted] at hs

section Condition

variable (environment configuration)

def isIntraUnit (packet : Packet) : Bool :=
  match parseUnit configuration packet with
  | .ok unit => unit.frameType = .intra
  | .error _ => false

/-- Every part of the decoding of an intra access unit succeeds: its record is well formed and
not a dropped frame, its canvas is available, its symbols and its frame can be decoded. -/
def intraDecodable (session : DecoderSession Feature) (packet : Packet) : Bool :=
  match parsePacket configuration packet with
  | .error _ => false
  | .ok (unit, record) =>
      match selectionFor environment configuration session unit with
      | .error _ => false
      | .ok selection =>
          record.qIndex ≠ droppedFrameQIndex &&
          match decodeSymbols environment selection.model unit record with
          | .error _ => false
          | .ok symbols =>
              (decodeFrame environment selection (planFor selection unit)
                (session.referencesFor unit) symbols record packet.timestamp).isOk

/-- An intra access unit fails only while no sequence is open, and its frame can be retained. -/
def IntraSafe (session : DecoderSession Feature) (packet : Packet) : Prop :=
  isIntraUnit configuration packet = true →
    (session.started = true → intraDecodable environment configuration session packet = true) ∧
    environment.allocate "retained_frame" = .ok ()

instance (session : DecoderSession Feature) (packet : Packet) :
    Decidable (IntraSafe environment configuration session packet) := by
  unfold IntraSafe
  infer_instance

end Condition

theorem run_decode_of_decodable {session : DecoderSession Feature}
    (h : intraDecodable environment configuration session packet = true)
    (hr : environment.allocate "retained_frame" = .ok ()) :
    ∃ frame, (run (decode environment configuration packet) session).1 = .ok frame := by
  rw [run_decode]
  unfold intraDecodable at h
  cases hparse : parsePacket configuration packet with
  | error e => simp [hparse] at h
  | ok parsed =>
      obtain ⟨unit, record⟩ := parsed
      simp only [hparse] at h ⊢
      cases hsel : selectionFor environment configuration session unit with
      | error e => simp [hsel] at h
      | ok selection =>
          simp only [hsel, Bool.and_eq_true, decide_eq_true_eq] at h ⊢
          obtain ⟨hdrop, h⟩ := h
          simp only [hdrop, if_false]
          cases hsymbols : decodeSymbols environment selection.model unit record with
          | error e => simp [hsymbols] at h
          | ok symbols =>
              simp only [hsymbols] at h ⊢
              cases hdecoded : decodeFrame environment selection (planFor selection unit)
                  (session.referencesFor unit) symbols record packet.timestamp with
              | error e => simp [hdecoded, Except.isOk, Except.toBool] at h
              | ok decoded => exact ⟨decoded.2, by simp [hr]⟩

/-- A failed intra access unit whose frame could have been retained leaves a session without an
open sequence as it was in that respect. -/
theorem run_decode_intra_failed {session : DecoderSession Feature} {unit : AccessUnit}
    (hunit : parseUnit configuration packet = .ok unit) (hi : unit.frameType = .intra)
    (hs : session.started = false) (hr : environment.allocate "retained_frame" = .ok ())
    {e : Error} (he : (run (decode environment configuration packet) session).1 = .error e) :
    (run (decode environment configuration packet) session).2.started = false := by
  rw [run_decode] at he ⊢
  cases hparse : parsePacket configuration packet with
  | error e => exact hs
  | ok parsed =>
      obtain ⟨unit', record⟩ := parsed
      have hsame : unit' = unit := by
        have h := parsePacket_eq_ok hparse
        rw [hunit] at h
        exact (Except.ok.inj h).symm
      subst hsame
      cases hsel : selectionFor environment configuration session unit' with
      | error e => simpa [hsel] using hs
      | ok selection =>
          have hstarted : selection.scheduler.started = false := by
            simp only [selectionFor, hi, if_true] at hsel
            exact intraSelection_started hsel hs
          simp only [hparse, hsel, hr] at he ⊢
          split
          · exact hstarted
          rename_i hdrop
          simp only [hdrop, if_false] at he
          cases hsymbols : decodeSymbols environment selection.model unit' record with
          | error e => exact hstarted
          | ok symbols =>
              simp only [hsymbols] at he ⊢
              cases hdecoded : decodeFrame environment selection (planFor selection unit')
                  (session.referencesFor unit') symbols record packet.timestamp with
              | error e => exact hstarted
              | ok decoded => simp [hdecoded] at he

end Run

/-- The calls of the decoder interface, each packet with the environment it meets. -/
inductive Call (Image Feature : Type) where
  | sendAccessUnit (environment : Environment Image Feature) (packet : Packet)
  | receive
  | flush
  | reset

/-- A session, and whether the intra access unit submitted last was decoded, with no reset
since. -/
structure Tracked (Feature : Type) where
  session : DecoderSession Feature
  sequenceOpen : Bool

namespace Tracked

def new : Tracked Feature := ⟨.new, false⟩

variable (configuration : Configuration)

def step (tracked : Tracked Feature) : Call Image Feature → Result Unit × Tracked Feature
  | .sendAccessUnit environment packet =>
      let (answer, session) := run (sendAccessUnit environment configuration packet) tracked.session
      (answer,
        { session
          sequenceOpen := if isIntraUnit configuration packet then answer.isOk
            else tracked.sequenceOpen })
  | .receive =>
      let (answer, session) := run receiveFrame tracked.session
      (answer.map fun _ => (), { tracked with session })
  | .flush =>
      let (answer, session) := run flush tracked.session
      (answer, { tracked with session })
  | .reset =>
      let (answer, session) := run reset tracked.session
      (answer, ⟨session, false⟩)

/-- The condition on each call of a run. -/
def IntraFailsSafely (tracked : Tracked Feature) : Call Image Feature → Prop
  | .sendAccessUnit environment packet =>
      tracked.session.flushed = false →
        IntraSafe environment configuration tracked.session packet
  | _ => True

instance (tracked : Tracked Feature) : (call : Call Image Feature) →
    Decidable (IntraFailsSafely configuration tracked call)
  | .sendAccessUnit environment packet =>
      inferInstanceAs (Decidable (tracked.session.flushed = false →
        IntraSafe environment configuration tracked.session packet))
  | .receive | .flush | .reset => inferInstanceAs (Decidable True)

variable {configuration} {tracked : Tracked Feature}

theorem run_sendAccessUnit (environment : Environment Image Feature) (packet : Packet)
    (session : DecoderSession Feature) :
    run (sendAccessUnit environment configuration packet) session =
      if session.flushed then
        (.error (mlvcError .invalidState "decoder is flushed"), session)
      else
        match run (decode environment configuration packet) session with
        | (.ok frame, next) => (.ok (), { next with outputs := next.outputs ++ [frame] })
        | (.error e, next) => (.error e, next) := by
  simp only [sendAccessUnit, run_bind, run_gets, id]
  split
  · rfl
  · rw [run_bind]
    rcases run (decode environment configuration packet) session with ⟨_ | frame, next⟩ <;> rfl

theorem isIntraUnit_eq_true {packet : Packet} (h : isIntraUnit configuration packet = true) :
    ∃ unit, parseUnit configuration packet = .ok unit ∧ unit.frameType = .intra := by
  unfold isIntraUnit at h
  cases hu : parseUnit configuration packet with
  | error e => simp [hu] at h
  | ok unit => exact ⟨unit, rfl, by simpa [hu] using h⟩

/-- A packet that is not an intra access unit is rejected before the first sequence. -/
theorem run_decode_not_intra (environment : Environment Image Feature) {packet : Packet}
    {session : DecoderSession Feature} (h : isIntraUnit configuration packet = false)
    (hs : session.started = false) :
    ∃ e, run (decode environment configuration packet) session = (.error e, session) := by
  cases hu : parseUnit configuration packet with
  | error e =>
      refine ⟨e, ?_⟩
      have hparse : parsePacket configuration packet = .error e := by
        rw [parsePacket, hu, error_bind]
      rw [run_decode, hparse]
  | ok unit =>
      have hp : unit.frameType ≠ .intra := by simpa [isIntraUnit, hu] using h
      exact run_decode_predicted hu hp hs

/-- A packet of one access unit of the small bundle, with one byte of entropy-coded data. -/
def smallPacket (type : FrameType) (size : UInt32) : Packet where
  data := AccessUnitIo.bytesV1
    { modelId := [109], width := size, height := size, qp := 1, frameType := type
      resetState := type = .intra, payload := [1, 0, 0, 0, 1, 0, 0, 0, 7] }
  timestamp := 0
  frameType := type

def smallConfiguration : Configuration where
  models := [⟨"32x32", [109], smallModel⟩]
  intraQp := 1
  gopSize := 2
  maxPacketBytes := 64
  gop_size_ne := groupsOfTwo_ne

/-- An environment in which everything succeeds. -/
def smallEnvironment : Environment Unit ℕ where
  loadCanvas _ := .ok ()
  allocate _ := .ok ()
  zeroFeature _ := 0
  prepareInput _ _ := ()
  encoder _ _ reference _ := .ok ⟨reference + 1, [], [], []⟩
  entropyEncode _ _ _ := .ok [7]
  entropyDecode _ _ _ := .ok ⟨[], [], []⟩
  decoder _ _ reference _ := .ok ((), reference + 1)
  finishOutput _ _ _ := 0

/-- An environment in which the entropy decoder reports a malformed stream. -/
def malformedEnvironment : Environment Unit ℕ :=
  { smallEnvironment with
    entropyDecode := fun _ _ _ =>
      .error ⟨.malformedBitstream, "MLVC payload has data after the last symbol", "mlvc.entropy"⟩ }

end Tracked

end DecoderSession

end Nvcr.Mlvc
