import Nvcr.MlvcDecoderReferences
import Nvcr.SessionRestarts

/-!
# Frames that the MLVC decoder presents

A decoded frame has the size of its access unit. A dropped frame repeats the retained output,
which has the size of the access unit unless an intra access unit of another size failed in
between: such a failure leaves the placement of the new size beside the output and the scheduler
of the old one.
-/

namespace Nvcr.Mlvc

open StatefulResults StatefulResults.Action TransitionRuns

/-- The frames show the same pixels; their timestamps may differ. -/
structure SamePicture (frame last : Frame) : Prop where
  width : frame.width = last.width
  height : frame.height = last.height
  pixelFormat : frame.pixelFormat = last.pixelFormat
  data : frame.data = last.data

theorem SamePicture.trans {a b c : Frame} (h : SamePicture a b) (h' : SamePicture b c) :
    SamePicture a c :=
  ⟨h.width.trans h'.width, h.height.trans h'.height, h.pixelFormat.trans h'.pixelFormat,
    h.data.trans h'.data⟩

theorem SamePicture.symm {a b : Frame} (h : SamePicture a b) : SamePicture b a :=
  ⟨h.width.symm, h.height.symm, h.pixelFormat.symm, h.data.symm⟩

theorem samePicture_of_copyFrom {last frame : Frame} {timestamp : Timestamp}
    (hformat : last.pixelFormat = .yuv420p8)
    (h : Frame.copyFrom last.width last.height .yuv420p8 last.data timestamp = .ok frame) :
    SamePicture frame last ∧ frame.timestamp = timestamp := by
  unfold Frame.copyFrom at h
  split at h
  · cases h
  · split at h
    · cases h
      exact ⟨⟨rfl, rfl, hformat.symm, rfl⟩, rfl⟩
    · cases h

theorem create_eq_ok {width height : UInt32} {format : PixelFormat} {timestamp : Timestamp}
    {frame : Frame} (h : Frame.create width height format timestamp = .ok frame) :
    frame.width = width ∧ frame.height = height ∧ frame.pixelFormat = format := by
  unfold Frame.create at h
  split at h
  · cases h
  · cases h
    exact ⟨rfl, rfl, rfl⟩

namespace DecoderSession

variable {Image Feature : Type} {environment : Environment Image Feature}
  {configuration : Configuration} {packet : Packet} {session : DecoderSession Feature}

/-- A selection is placed for the size of the access unit it was made for. -/
theorem selectionFor_size {unit : AccessUnit} {selection : Selection}
    (h : selectionFor environment configuration session unit = .ok selection) :
    selection.placement.frameWidth = unit.width.toNat ∧
      selection.placement.frameHeight = unit.height.toNat := by
  unfold selectionFor at h
  split at h
  · unfold intraSelection at h
    cases hmodel : modelFor configuration unit.modelId with
    | none => simp [hmodel] at h
    | some model =>
        cases hplace : place unit.width.toNat unit.height.toNat model.parameters with
        | error e => simp [hmodel, hplace] at h
        | ok placement =>
            have hsize := place_size hplace
            simp only [hmodel, hplace] at h
            cases hkept : session.selected.filter fun selection =>
                selection.model.canvasId = model.canvasId with
            | some kept =>
                simp only [hkept] at h
                cases h
                exact hsize
            | none =>
                simp only [hkept, bind_eq_ok] at h
                obtain ⟨_, -, _, -, _, -, _, -, _, -, _, -, h⟩ := h
                cases h
                exact hsize
  · unfold predictedSelection at h
    cases hstarted : session.selected.filter fun selection => selection.scheduler.started with
    | none => simp [hstarted] at h
    | some kept =>
        simp only [hstarted] at h
        split at h
        · cases h
        · rename_i hsame
          cases h
          rw [not_or, not_or, not_not, not_not, not_not] at hsame
          exact ⟨hsame.2.1.symm, hsame.2.2.symm⟩

/-- An intra frame is never droppable. -/
theorem droppable_planFor {selection : Selection} {unit : AccessUnit}
    (h : (planFor selection unit).droppable = true) : unit.frameType ≠ .intra := by
  intro hintra
  have hclass : (planFor selection unit).isIntra = true := by
    simp [planFor, FrameScheduler.plan_isIntra, hintra]
  simp only [FramePlan.isIntra, decide_eq_true_eq] at hclass
  simp [FramePlan.droppable, hclass] at h

/-- What an accepted packet does: a dropped frame repeats the retained output and changes nothing
but the selection; any other frame has the size of the placement and is retained. -/
inductive Presents (session : DecoderSession Feature) (unit : AccessUnit) (selection : Selection)
    (timestamp : Timestamp) (frame : Frame) : Bool → DecoderSession Feature → Prop
  | repeated {last : Frame} (hpredicted : unit.frameType ≠ .intra)
      (hlast : session.lastOutput = some last)
      (hcopy : Frame.copyFrom last.width last.height .yuv420p8 last.data timestamp = .ok frame) :
      Presents session unit selection timestamp frame true (session.withSelection selection)
  | decoded {plan : FramePlan} {feature : Feature}
      (hwidth : frame.width = UInt32.ofNat selection.placement.frameWidth)
      (hheight : frame.height = UInt32.ofNat selection.placement.frameHeight)
      (hformat : frame.pixelFormat = .yuv420p8) :
      Presents session unit selection timestamp frame false
        { ((session.withSelection selection).withReferences
            (session.referencesFor unit)).commitFrame plan feature with lastOutput := some frame }

theorem Presents.outputs {session next : DecoderSession Feature} {unit : AccessUnit}
    {selection : Selection} {timestamp : Timestamp} {frame : Frame} {dropped : Bool}
    (h : Presents session unit selection timestamp frame dropped next) :
    next.outputs = session.outputs := by
  cases h <;> rfl

theorem presents_of_decode {frame : Frame} {next : DecoderSession Feature}
    (h : run (decode environment configuration packet) session = (.ok frame, next)) :
    ∃ unit record selection, parsePacket configuration packet = .ok (unit, record) ∧
      selectionFor environment configuration session unit = .ok selection ∧
      Presents session unit selection packet.timestamp frame
        (record.qIndex = droppedFrameQIndex) next := by
  rw [run_decode] at h
  cases hparse : parsePacket configuration packet with
  | error e => simp [hparse] at h
  | ok parsed =>
      obtain ⟨unit, record⟩ := parsed
      cases hselection : selectionFor environment configuration session unit with
      | error e => simp [hparse, hselection] at h
      | ok selection =>
          refine ⟨unit, record, selection, rfl, hselection, ?_⟩
          simp only [hparse, hselection] at h
          by_cases hdrop : record.qIndex = droppedFrameQIndex
          · simp only [hdrop, if_true, Prod.mk.injEq] at h
            obtain ⟨hrepeat, rfl⟩ := h
            simp only [hdrop, decide_true]
            unfold repeatLastOutput at hrepeat
            cases hlast : session.lastOutput with
            | none => simp [withSelection, hlast] at hrepeat
            | some last =>
                simp only [withSelection, hlast] at hrepeat
                split at hrepeat
                · rename_i hplan
                  obtain ⟨_, -, hcopy⟩ := bind_eq_ok.mp hrepeat
                  exact .repeated (droppable_planFor hplan) hlast hcopy
                · cases hrepeat
          · simp only [hdrop, if_false] at h
            simp only [hdrop, decide_false]
            cases hsymbols : decodeSymbols environment selection.model unit record with
            | error e => simp [hsymbols] at h
            | ok symbols =>
                simp only [hsymbols] at h
                cases hframe : decodeFrame environment selection (planFor selection unit)
                    (session.referencesFor unit) symbols record packet.timestamp with
                | error e => simp [hframe] at h
                | ok decoded =>
                    obtain ⟨feature, shown⟩ := decoded
                    simp only [hframe] at h
                    cases hretained : environment.allocate "retained_frame" with
                    | error e => simp [hretained] at h
                    | ok u =>
                        simp only [hretained, Prod.mk.injEq, Except.ok.injEq] at h
                        obtain ⟨rfl, rfl⟩ := h
                        simp only [decodeFrame, bind_eq_ok] at hframe
                        obtain ⟨_, -, _, -, ⟨image, output⟩, -, _, -, blank, hblank, hpair⟩ := hframe
                        cases hpair
                        obtain ⟨hwidth, hheight, hformat⟩ := create_eq_ok hblank
                        exact .decoded hwidth hheight hformat

/-- A failed packet leaves the retained output. It leaves the selection too, or stores the one for
its access unit. -/
theorem decode_error_keeps {e : Error} {next : DecoderSession Feature}
    (h : run (decode environment configuration packet) session = (.error e, next)) :
    next.lastOutput = session.lastOutput ∧ (next.selected = session.selected ∨
      ∃ unit selection scheduler, parseUnit configuration packet = .ok unit ∧
        selectionFor environment configuration session unit = .ok selection ∧
        next.selected = some { selection with scheduler := scheduler }) := by
  rw [run_decode] at h
  cases hparse : parsePacket configuration packet with
  | error e =>
      simp only [hparse, Prod.mk.injEq] at h
      obtain ⟨-, rfl⟩ := h
      exact ⟨rfl, .inl rfl⟩
  | ok parsed =>
      obtain ⟨unit, record⟩ := parsed
      cases hselection : selectionFor environment configuration session unit with
      | error e =>
          simp only [hparse, hselection, Prod.mk.injEq] at h
          obtain ⟨-, rfl⟩ := h
          exact ⟨rfl, .inl rfl⟩
      | ok selection =>
          have hunit := parsePacket_eq_ok hparse
          simp only [hparse, hselection] at h
          by_cases hdrop : record.qIndex = droppedFrameQIndex
          · simp only [hdrop, if_true, Prod.mk.injEq] at h
            obtain ⟨-, rfl⟩ := h
            exact ⟨rfl, .inr ⟨unit, selection, _, hunit, hselection, rfl⟩⟩
          · simp only [hdrop, if_false] at h
            cases hsymbols : decodeSymbols environment selection.model unit record with
            | error e =>
                simp only [hsymbols, Prod.mk.injEq] at h
                obtain ⟨-, rfl⟩ := h
                exact ⟨rfl, .inr ⟨unit, selection, _, hunit, hselection, rfl⟩⟩
            | ok symbols =>
                simp only [hsymbols] at h
                cases hframe : decodeFrame environment selection (planFor selection unit)
                    (session.referencesFor unit) symbols record packet.timestamp with
                | error e =>
                    simp only [hframe, Prod.mk.injEq] at h
                    obtain ⟨-, rfl⟩ := h
                    exact ⟨rfl, .inr ⟨unit, selection, _, hunit, hselection, rfl⟩⟩
                | ok decoded =>
                    simp only [hframe] at h
                    cases hretained : environment.allocate "retained_frame" with
                    | error e =>
                        simp only [hretained, Prod.mk.injEq] at h
                        obtain ⟨-, rfl⟩ := h
                        exact ⟨rfl, .inr ⟨unit, selection, _, hunit, hselection, rfl⟩⟩
                    | ok u => simp [hretained] at h

/-- The retained output is an I420 frame and, in an open sequence, has the size of the placement. -/
structure Sized (session : DecoderSession Feature) : Prop where
  pixelFormat : ∀ last ∈ session.lastOutput, last.pixelFormat = .yuv420p8
  size : ∀ selection ∈ session.selected, selection.scheduler.started = true →
    ∀ last ∈ session.lastOutput, last.width = UInt32.ofNat selection.placement.frameWidth ∧
      last.height = UInt32.ofNat selection.placement.frameHeight

section Condition

variable (environment configuration)

/-- An intra access unit of another size than the retained output fails only while no sequence is
open, and its frame can be retained. -/
def ResizeSafe (session : DecoderSession Feature) (packet : Packet) : Prop :=
  ∀ unit last, parseUnit configuration packet = .ok unit → session.lastOutput = some last →
    ¬ (last.width = unit.width ∧ last.height = unit.height) →
    IntraSafe environment configuration session packet

end Condition

/-- An intra access unit that may fail safely and fails leaves no sequence open. -/
theorem not_started_of_intra_error (hsafe : IntraSafe environment configuration session packet)
    (hintra : isIntraUnit configuration packet = true) {e : Error} {next : DecoderSession Feature}
    (hrun : run (decode environment configuration packet) session = (.error e, next)) :
    next.started = false := by
  obtain ⟨hdecodable, hretained⟩ := hsafe hintra
  obtain ⟨unit, hunit, htype⟩ := Tracked.isIntraUnit_eq_true hintra
  cases hstarted : session.started with
  | true =>
      obtain ⟨frame, hframe⟩ := run_decode_of_decodable (hdecodable hstarted) hretained
      rw [hrun] at hframe
      cases hframe
  | false =>
      have hnext := run_decode_intra_failed hunit htype hstarted hretained
        (congrArg Prod.fst hrun)
      rw [hrun] at hnext
      exact hnext

theorem ofNat_selectionFor {unit : AccessUnit} {selection : Selection}
    (h : selectionFor environment configuration session unit = .ok selection) :
    UInt32.ofNat selection.placement.frameWidth = unit.width ∧
      UInt32.ofNat selection.placement.frameHeight = unit.height := by
  obtain ⟨hwidth, hheight⟩ := selectionFor_size h
  rw [hwidth, hheight]
  exact ⟨UInt32.ofNat_toNat, UInt32.ofNat_toNat⟩

/-- A packet that is not decoded leaves the retained output sized. -/
theorem Sized.decode_error (h : session.Sized)
    (hsafe : ResizeSafe environment configuration session packet) {e : Error}
    {next : DecoderSession Feature}
    (hrun : run (decode environment configuration packet) session = (.error e, next)) :
    next.Sized := by
  obtain ⟨hlast, hselected⟩ := decode_error_keeps hrun
  refine ⟨by rw [hlast]; exact h.pixelFormat, ?_⟩
  rw [hlast]
  intro selection hselection hstarted last hmem
  obtain hsame | ⟨unit, chosen, scheduler, hunit, hchosen, hnext⟩ := hselected
  · rw [hsame] at hselection
    exact h.size selection hselection hstarted last hmem
  have hplacement : selection.placement = chosen.placement := by
    rw [hnext] at hselection
    cases hselection
    rfl
  rw [hplacement]
  by_cases htype : unit.frameType = .intra
  · by_cases hsize : last.width = unit.width ∧ last.height = unit.height
    · obtain ⟨hwidth, hheight⟩ := ofNat_selectionFor hchosen
      exact ⟨hsize.1.trans hwidth.symm, hsize.2.trans hheight.symm⟩
    · have hintra : isIntraUnit configuration packet = true := by
        simp [isIntraUnit, hunit, htype]
      have hclosed := not_started_of_intra_error (hsafe unit last hunit hmem hsize) hintra hrun
      have hselection : next.selected = some selection := hselection
      simp [started, hselection, hstarted] at hclosed
  · simp only [selectionFor, htype, if_false] at hchosen
    obtain ⟨hkept, hopen⟩ := predictedSelection_eq_ok hchosen
    exact h.size chosen hkept hopen last hmem

/-- A decoded packet leaves the retained output sized. -/
theorem Sized.presents (h : session.Sized) {unit : AccessUnit} {selection : Selection}
    (hselection : selectionFor environment configuration session unit = .ok selection)
    {timestamp : Timestamp} {frame : Frame} {dropped : Bool} {next : DecoderSession Feature}
    (hpresents : Presents session unit selection timestamp frame dropped next) : next.Sized := by
  cases hpresents with
  | repeated hpredicted hlast hcopy =>
      simp only [selectionFor, hpredicted, if_false] at hselection
      obtain ⟨hkept, -⟩ := predictedSelection_eq_ok hselection
      have hsame : session.withSelection selection = session := by
        rw [withSelection, ← hkept]
      rw [hsame]
      exact h
  | decoded hwidth hheight hformat =>
      refine ⟨?_, ?_⟩
      · rintro _ ⟨⟩
        exact hformat
      · rintro _ ⟨⟩ - _ ⟨⟩
        exact ⟨hwidth, hheight⟩

/-- The frame of a decoded packet has the size of its access unit. -/
theorem Sized.frame_size (h : session.Sized) {unit : AccessUnit} {selection : Selection}
    (hselection : selectionFor environment configuration session unit = .ok selection)
    {timestamp : Timestamp} {frame : Frame} {dropped : Bool} {next : DecoderSession Feature}
    (hpresents : Presents session unit selection timestamp frame dropped next) :
    frame.width = unit.width ∧ frame.height = unit.height := by
  obtain ⟨hunitWidth, hunitHeight⟩ := ofNat_selectionFor hselection
  cases hpresents with
  | @repeated last hpredicted hlast hcopy =>
      simp only [selectionFor, hpredicted, if_false] at hselection
      obtain ⟨hkept, hopen⟩ := predictedSelection_eq_ok hselection
      obtain ⟨hwidth, hheight⟩ := h.size selection hkept hopen last hlast
      obtain ⟨hpicture, -⟩ := samePicture_of_copyFrom (h.pixelFormat last hlast) hcopy
      exact ⟨hpicture.width.trans (hwidth.trans hunitWidth),
        hpicture.height.trans (hheight.trans hunitHeight)⟩
  | decoded hwidth hheight hformat =>
      exact ⟨hwidth.trans hunitWidth, hheight.trans hunitHeight⟩

/-- A session, and the last frame it put out since the intra access unit submitted last or the
last reset. -/
structure Presented (Feature : Type) where
  session : DecoderSession Feature
  shown : Option Frame

namespace Presented

def new : Presented Feature := ⟨.new, none⟩

variable (configuration)

def step (presented : Presented Feature) : Call Image Feature → Result Unit × Presented Feature
  | .sendAccessUnit environment packet =>
      let (answer, session) :=
        run (sendAccessUnit environment configuration packet) presented.session
      (answer,
        { session
          shown := if answer.isOk then session.outputs.getLast?
            else if isIntraUnit configuration packet then none else presented.shown })
  | .receive =>
      let (answer, session) := run receiveFrame presented.session
      (answer.map fun _ => (), { presented with session })
  | .flush =>
      let (answer, session) := run flush presented.session
      (answer, { presented with session })
  | .reset =>
      let (answer, session) := run reset presented.session
      (answer, ⟨session, none⟩)

/-- The frame put out for an accepted access unit has the size of that access unit. -/
def HasUnitSize (presented : Presented Feature) : Call Image Feature → Prop
  | .sendAccessUnit environment packet => ∀ unit record,
      parsePacket configuration packet = .ok (unit, record) →
      (run (sendAccessUnit environment configuration packet) presented.session).1 = .ok () →
      ∃ frame, (run (sendAccessUnit environment configuration packet) presented.session).2.outputs =
          presented.session.outputs ++ [frame] ∧
        frame.width = unit.width ∧ frame.height = unit.height
  | .receive | .flush | .reset => True

/-- An accepted dropped frame puts out a copy of the last frame of its sequence, and leaves the
scheduler, the references and the retained output. -/
def RepeatsShown (presented : Presented Feature) : Call Image Feature → Prop
  | .sendAccessUnit environment packet => ∀ unit record,
      parsePacket configuration packet = .ok (unit, record) →
      record.qIndex = droppedFrameQIndex →
      (run (sendAccessUnit environment configuration packet) presented.session).1 = .ok () →
      let next := (run (sendAccessUnit environment configuration packet) presented.session).2
      (∃ frame last, next.outputs = presented.session.outputs ++ [frame] ∧
        presented.shown = some last ∧ SamePicture frame last ∧
        frame.timestamp = packet.timestamp) ∧
      next.selected = presented.session.selected ∧
      next.references = presented.session.references ∧
      next.lastOutput = presented.session.lastOutput
  | .receive | .flush | .reset => True

/-- No intra access unit fails while a sequence is open, and its frame can be retained. -/
def IntraFailsSafely (presented : Presented Feature) : Call Image Feature → Prop
  | .sendAccessUnit environment packet => presented.session.flushed = false →
      IntraSafe environment configuration presented.session packet
  | .receive | .flush | .reset => True

/-- The same for the intra access units that change the size of the output. -/
def ResizeFailsSafely (presented : Presented Feature) : Call Image Feature → Prop
  | .sendAccessUnit environment packet => presented.session.flushed = false →
      ResizeSafe environment configuration presented.session packet
  | .receive | .flush | .reset => True

variable {configuration} {presented : Presented Feature}

/-- The retained output of an open sequence shows the last frame that was put out. -/
def Retained (presented : Presented Feature) : Prop :=
  presented.session.flushed = false → presented.session.started = true →
    ∃ last shown, presented.session.lastOutput = some last ∧ presented.shown = some shown ∧
      SamePicture last shown

/-- An accepted packet was decoded, and its frame is the last output. -/
theorem sendAccessUnit_ok (environment : Environment Image Feature) {packet : Packet}
    (h : (run (sendAccessUnit environment configuration packet) session).1 = .ok ()) :
    session.flushed = false ∧ ∃ frame next,
      run (decode environment configuration packet) session = (.ok frame, next) ∧
      (run (sendAccessUnit environment configuration packet) session).2 =
        { next with outputs := next.outputs ++ [frame] } := by
  rw [Tracked.run_sendAccessUnit] at h ⊢
  cases hflushed : session.flushed with
  | true => simp [hflushed] at h
  | false =>
      simp only [hflushed, Bool.false_eq_true, if_false] at h ⊢
      rcases hrun : run (decode environment configuration packet) session with ⟨e | frame, next⟩
      · simp [hrun] at h
      · exact ⟨trivial, frame, next, rfl, rfl⟩

theorem hasUnitSize_of_sized (h : presented.session.Sized) (call : Call Image Feature) :
    HasUnitSize configuration presented call := by
  cases call with
  | receive | flush | reset => trivial
  | sendAccessUnit environment packet =>
      intro unit record hparse haccepted
      obtain ⟨-, frame, next, hrun, hnext⟩ := sendAccessUnit_ok environment haccepted
      obtain ⟨unit', record', selection, hparse', hselection, hpresents⟩ := presents_of_decode hrun
      rw [hparse] at hparse'
      cases hparse'
      refine ⟨frame, ?_, h.frame_size hselection hpresents⟩
      rw [hnext, hpresents.outputs]

theorem sized_step (presented : Presented Feature) (call : Call Image Feature)
    (h : presented.session.Sized) (hsafe : ResizeFailsSafely configuration presented call) :
    (step configuration presented call).2.session.Sized := by
  cases call with
  | sendAccessUnit environment packet =>
      simp only [step, Tracked.run_sendAccessUnit]
      cases hflushed : presented.session.flushed with
      | true => exact h
      | false =>
          simp only [Bool.false_eq_true, if_false]
          rcases hrun : run (decode environment configuration packet) presented.session with
            ⟨e | frame, next⟩
          · exact h.decode_error (hsafe hflushed) hrun
          · obtain ⟨unit, record, selection, -, hselection, hpresents⟩ := presents_of_decode hrun
            have hnext := h.presents hselection hpresents
            exact ⟨hnext.pixelFormat, hnext.size⟩
  | receive =>
      simp only [step, receiveFrame, run_bind, run_gets, id]
      split
      · exact ⟨h.pixelFormat, h.size⟩
      · split <;> exact h
  | flush => exact ⟨h.pixelFormat, h.size⟩
  | reset =>
      refine ⟨?_, ?_⟩
      · rintro _ ⟨⟩
      · rintro _ - - _ ⟨⟩

theorem repeatsShown_of_retained (hsized : presented.session.Sized) (h : presented.Retained)
    (call : Call Image Feature) : RepeatsShown configuration presented call := by
  cases call with
  | receive | flush | reset => trivial
  | sendAccessUnit environment packet =>
      intro unit record hparse hdropped haccepted
      obtain ⟨hflushed, frame, next, hrun, hnext⟩ := sendAccessUnit_ok environment haccepted
      obtain ⟨unit', record', selection, hparse', hselection, hpresents⟩ := presents_of_decode hrun
      rw [hparse] at hparse'
      cases hparse'
      simp only [hdropped, decide_true] at hpresents
      cases hpresents with
      | @repeated last hpredicted hlast hcopy =>
          simp only [selectionFor, hpredicted, if_false] at hselection
          obtain ⟨hkept, hopen⟩ := predictedSelection_eq_ok hselection
          have hstarted : presented.session.started = true := by simp [started, hkept, hopen]
          obtain ⟨last', shown, hlast', hshown, hpicture⟩ := h hflushed hstarted
          rw [hlast] at hlast'
          cases hlast'
          obtain ⟨hcopied, htimestamp⟩ :=
            samePicture_of_copyFrom (hsized.pixelFormat last hlast) hcopy
          simp only [hnext]
          exact ⟨⟨frame, shown, rfl, hshown, hcopied.trans hpicture, htimestamp⟩, hkept.symm, rfl,
            rfl⟩

theorem retained_step (presented : Presented Feature) (call : Call Image Feature)
    (h : presented.session.Sized ∧ presented.Retained)
    (hsafe : IntraFailsSafely configuration presented call) :
    (step configuration presented call).2.session.Sized ∧
      (step configuration presented call).2.Retained := by
  refine ⟨sized_step presented call h.1 ?_, ?_⟩
  · cases call with
    | sendAccessUnit environment packet => exact fun hflushed _ _ _ _ _ => hsafe hflushed
    | receive | flush | reset => trivial
  obtain ⟨hsized, h⟩ := h
  cases call with
  | sendAccessUnit environment packet =>
      simp only [step, Tracked.run_sendAccessUnit]
      cases hflushed : presented.session.flushed with
      | true => exact fun hnever => by simp [hflushed] at hnever
      | false =>
          simp only [Bool.false_eq_true, if_false]
          rcases hrun : run (decode environment configuration packet) presented.session with
            ⟨e | frame, next⟩
          · intro _ hstarted
            simp only at hstarted
            cases hintra : isIntraUnit configuration packet with
            | true =>
                have hclosed := not_started_of_intra_error (hsafe hflushed) hintra hrun
                rw [hclosed] at hstarted
                cases hstarted
            | false =>
                have hopen : presented.session.started = true := by
                  by_contra hclosed
                  obtain ⟨e', herror⟩ := Tracked.run_decode_not_intra environment hintra
                    (by simpa using hclosed)
                  rw [hrun] at herror
                  cases herror
                  exact hclosed hstarted
                obtain ⟨last, shown, hlast, hshown, hpicture⟩ := h hflushed hopen
                exact ⟨last, shown, (decode_error_keeps hrun).1.trans hlast, hshown, hpicture⟩
          · obtain ⟨unit, record, selection, -, -, hpresents⟩ := presents_of_decode hrun
            have hshown : (next.outputs ++ [frame]).getLast? = some frame := List.getLast?_concat
            intro _ _
            generalize decide (record.qIndex = droppedFrameQIndex) = dropped at hpresents
            cases hpresents with
            | @repeated last hpredicted hlast hcopy =>
                obtain ⟨hcopied, -⟩ :=
                  samePicture_of_copyFrom (hsized.pixelFormat last hlast) hcopy
                exact ⟨last, frame, hlast, hshown, hcopied.symm⟩
            | decoded hwidth hheight hformat =>
                exact ⟨frame, frame, rfl, hshown, ⟨rfl, rfl, rfl, rfl⟩⟩
  | receive =>
      simp only [step, receiveFrame, run_bind, run_gets, id]
      split
      · exact h
      · split <;> exact h
  | flush =>
      intro hnever
      cases hnever
  | reset =>
      intro _ hstarted
      simp only [step, reset, run_update, started] at hstarted
      cases hselected : presented.session.selected with
      | none => simp [hselected] at hstarted
      | some selection => simp [hselected, FrameScheduler.reset] at hstarted

/-- In every run in which no intra access unit that changes the size fails while a sequence is
open, every frame that is put out has the size of its access unit. If no intra access unit fails
so at all, every accepted dropped frame repeats the last frame of its sequence and leaves the
scheduler, the references and the retained output. -/
theorem outputs_follow_units (configuration : Configuration) (calls : List (Call Image Feature)) :
    (Along (ResizeFailsSafely configuration) (step configuration) (new : Presented Feature) calls →
      Along (HasUnitSize configuration) (step configuration) (new : Presented Feature) calls) ∧
    (Along (IntraFailsSafely configuration) (step configuration) (new : Presented Feature) calls →
      Along (RepeatsShown configuration) (step configuration) (new : Presented Feature) calls) := by
  have hsized : (new : Presented Feature).session.Sized := by
    refine ⟨?_, ?_⟩
    · rintro _ ⟨⟩
    · rintro _ ⟨⟩
  constructor
  · intro h
    refine Along.of_invariant sized_step ?_ hsized h
    intro presented call hpresented _
    exact hasUnitSize_of_sized hpresented call
  · intro h
    have hnew : (new : Presented Feature).session.Sized ∧ (new : Presented Feature).Retained := by
      refine ⟨hsized, ?_⟩
      intro _ hnever
      cases hnever
    refine Along.of_invariant retained_step ?_ hnew h
    intro presented call hpresented _
    exact repeatsShown_of_retained hpresented.1 hpresented.2 call

/-- A dropped frame of the small bundle. -/
def droppedUnit (size : UInt32) : AccessUnit where
  modelId := [109]
  width := size
  height := size
  qp := 1
  frameType := .predicted
  resetState := false
  payload := [255, 255, 255, 255, 0, 0, 0, 0]

def droppedPacket (size : UInt32) : Packet :=
  ⟨AccessUnitIo.bytesV1 (droppedUnit size), 0, .predicted⟩

/-- A sequence with a dropped frame, and its refresh in another size. -/
theorem outputs_follow_small_units :
    Along (HasUnitSize Tracked.smallConfiguration) (step Tracked.smallConfiguration) new
      [.sendAccessUnit Tracked.smallEnvironment (Tracked.smallPacket .intra 4),
        .sendAccessUnit Tracked.smallEnvironment (droppedPacket 4),
        .sendAccessUnit Tracked.smallEnvironment (Tracked.smallPacket .intra 2)] ∧
    Along (RepeatsShown Tracked.smallConfiguration) (step Tracked.smallConfiguration) new
      [.sendAccessUnit Tracked.smallEnvironment (Tracked.smallPacket .intra 4),
        .sendAccessUnit Tracked.smallEnvironment (droppedPacket 4),
        .sendAccessUnit Tracked.smallEnvironment (Tracked.smallPacket .intra 2)] := by
  refine ⟨(outputs_follow_units Tracked.smallConfiguration _).1 ?_,
    (outputs_follow_units Tracked.smallConfiguration _).2 ?_⟩
  · refine ⟨?_, ?_, ?_, trivial⟩
    · exact fun _ _ _ _ _ _ => by decide
    · exact fun _ _ _ _ _ _ => by decide
    · exact fun _ _ _ _ _ _ => by decide
  · refine ⟨?_, ?_, ?_, trivial⟩
    · exact fun _ => by decide
    · exact fun _ => by decide
    · exact fun _ => by decide

/-- An intra access unit of another size fails in the entropy decoder; a dropped frame of its size
is then answered with the frame of the sequence before. -/
theorem dropped_frame_keeps_old_size :
    ¬ Along (HasUnitSize Tracked.smallConfiguration) (step Tracked.smallConfiguration) new
      [.sendAccessUnit Tracked.smallEnvironment (Tracked.smallPacket .intra 4),
        .sendAccessUnit Tracked.malformedEnvironment (Tracked.smallPacket .intra 2),
        .sendAccessUnit Tracked.smallEnvironment (droppedPacket 2)] := by
  intro h
  obtain ⟨frame, houtputs, hwidth, -⟩ :=
    h.2.2.1 (droppedUnit 2) ⟨-1, []⟩ (by decide +kernel) (by decide)
  have hlast := congrArg (fun outputs : List Frame => outputs.getLast?.map Frame.width) houtputs
  simp only [List.getLast?_concat, Option.map_some, hwidth] at hlast
  exact absurd hlast (by decide)

end Presented

end DecoderSession

end Nvcr.Mlvc
