import Nvcr.MlvcDecoderReferences
import Nvcr.MlvcEncoderAtomicity
import Nvcr.RtHostLaws

/-!
# Sessions that were reset

An MLVC session keeps its canvas over a reset. A new session has none, but it would choose the
same one for the same frames, so the two cannot be told apart while canvases can be loaded.
Together with the sessions of the host backend, a reset session of either kind answers as a new
one.
-/

namespace Nvcr.Mlvc

open StatefulResults StatefulResults.Action TransitionRuns

variable {Image Feature : Type}

/-- Every canvas can be loaded and every allocation succeeds. -/
structure Environment.Provides (environment : Environment Image Feature) : Prop where
  loadCanvas : ∀ model, environment.loadCanvas model = .ok ()
  allocate : ∀ object, environment.allocate object = .ok ()

/-- A selection with its scheduler at the beginning. -/
def Selection.restarted (selection : Selection) : Selection :=
  { selection with scheduler := selection.scheduler.reset }

theorem place_size {width height : ℕ} {model : ModelParameters} {placement : Placement}
    (h : place width height model = .ok placement) :
    placement.frameWidth = width ∧ placement.frameHeight = height := by
  unfold place at h
  split_ifs at h
  · cases h
    exact ⟨rfl, rfl⟩
  · cases h
    exact ⟨rfl, rfl⟩

namespace EncoderSession

/-- What a call of the encoder interface gives to its caller. -/
def serve (configuration : Configuration) (session : EncoderSession Feature) :
    Call Image Feature → Rt.Reply × EncoderSession Feature
  | .sendFrame environment frame =>
      let (answer, next) := run (sendFrame environment configuration frame) session
      (.status answer, next)
  | .receive =>
      let (answer, next) := run receiveAccessUnit session
      (.packet answer, next)
  | .flush =>
      let (answer, next) := run flush session
      (.status answer, next)
  | .reset =>
      let (answer, next) := run reset session
      (.status answer, next)

theorem serve_snd (configuration : Configuration) (session : EncoderSession Feature)
    (call : Call Image Feature) :
    (serve configuration session call).2 = (step configuration session call).2 := by
  cases call <;> rfl

/-- Canvases and memory are available to the call. -/
def Call.Provided : Call Image Feature → Prop
  | .sendFrame environment _ => environment.Provides
  | .receive | .flush | .reset => True

variable {environment : Environment Image Feature} {configuration : Configuration}
  {width height : ℕ}

section Canvas

variable (configuration)

/-- The selection for a frame size when everything can be loaded. -/
def canvasChoice (width height : ℕ) : Result Selection := do
  let model ← selectModel configuration.models width height
  let placement ← place width height model.parameters
  require (configuration.intraQp < model.parameters.qpNum)
    (mlvcError .invalidArgument
      ("MLVC Q index must be below " ++ toString model.parameters.qpNum))
  pure ⟨model, placement, .new ((LoopParameters.fromModel model.parameters).withGopSize
    configuration.gopSize configuration.gop_size_ne)⟩

end Canvas

theorem chooseCanvas_of_provides (h : environment.Provides) (width height : ℕ) :
    chooseCanvas environment configuration width height =
      canvasChoice configuration width height := by
  simp only [chooseCanvas, canvasChoice, h.loadCanvas, h.allocate, ok_bind]

/-- Whatever the environment, a canvas that was chosen is the choice for its frame size. -/
theorem canvasChoice_of_chooseCanvas {selection : Selection}
    (h : chooseCanvas environment configuration width height = .ok selection) :
    canvasChoice configuration selection.placement.frameWidth selection.placement.frameHeight =
      .ok selection.restarted := by
  simp only [chooseCanvas, bind_eq_ok] at h
  obtain ⟨model, hmodel, _, -, placement, hplace, u, hqp, _, -, _, -, _, -, _, -, _, -, h⟩ := h
  cases h
  obtain ⟨hwidth, hheight⟩ := place_size hplace
  simp only [canvasChoice, hwidth, hheight, hmodel, hplace, hqp, ok_bind]
  rfl

/-- A canvas in use is the choice for the size of its frames. -/
def Chosen (configuration : Configuration) (session : EncoderSession Feature) : Prop :=
  ∀ selection ∈ session.selected,
    canvasChoice configuration selection.placement.frameWidth selection.placement.frameHeight =
      .ok selection.restarted

theorem chosen_canvasFor {session : EncoderSession Feature} (h : Chosen configuration session)
    {selection : Selection}
    (hcanvas : canvasFor environment configuration session width height = .ok selection) :
    canvasChoice configuration selection.placement.frameWidth selection.placement.frameHeight =
      .ok selection.restarted := by
  unfold canvasFor at hcanvas
  cases hkept : session.keepsCanvas width height with
  | some kept =>
      simp only [hkept] at hcanvas
      cases hcanvas
      exact h _ (keepsCanvas_eq_some hkept)
  | none =>
      simp only [hkept] at hcanvas
      split at hcanvas
      · cases hcanvas
      · exact canvasChoice_of_chooseCanvas hcanvas

theorem chosen_sendFrame {session : EncoderSession Feature} (hfresh : session.Fresh)
    (h : Chosen configuration session) (environment : Environment Image Feature) (frame : Frame) :
    Chosen configuration (run (sendFrame environment configuration frame) session).2 := by
  rw [run_sendFrame]
  split
  · exact h
  split
  · exact h
  rw [run_encode hfresh]
  cases hcanvas : canvasFor environment configuration session frame.width.toNat
      frame.height.toNat with
  | error e => exact h
  | ok selection =>
      have hchoice := chosen_canvasFor h hcanvas
      simp only []
      cases codeFrame environment configuration selection (selection.scheduler.plan none)
          (session.referencesFor (selection.scheduler.plan none)) frame with
      | error e =>
          rintro _ ⟨⟩
          exact hchoice
      | ok coded =>
          simp only []
          cases makeUnit environment configuration selection (selection.scheduler.plan none)
              frame coded.2 with
          | error e =>
              rintro _ ⟨⟩
              exact hchoice
          | ok serialized =>
              rintro _ ⟨⟩
              exact hchoice

theorem chosen_serve (configuration : Configuration) (session : EncoderSession Feature)
    (call : Call Image Feature) (h : session.Fresh ∧ Chosen configuration session) :
    (serve configuration session call).2.Fresh ∧
      Chosen configuration (serve configuration session call).2 := by
  refine ⟨?_, ?_⟩
  · rw [serve_snd]
    exact fresh_step configuration session call h.1
  cases call with
  | sendFrame environment frame => exact chosen_sendFrame h.1 h.2 environment frame
  | receive =>
      simp only [serve, receiveAccessUnit, run_bind, run_gets, id]
      split
      · exact h.2
      · split <;> exact h.2
  | flush => exact h.2
  | reset =>
      rintro selection hselection
      obtain ⟨kept, hkept, rfl⟩ := Option.mem_map.mp hselection
      exact h.2 kept hkept

theorem canvasChoice_scheduler {selection : Selection}
    (h : canvasChoice configuration width height = .ok selection) :
    ∃ loop, selection.scheduler = .new loop := by
  simp only [canvasChoice, bind_eq_ok] at h
  obtain ⟨model, -, placement, -, _, -, h⟩ := h
  cases h
  exact ⟨_, rfl⟩

/-- A session that may keep an unused canvas, and one that has none and is the same otherwise. -/
structure Spare (configuration : Configuration) (session fresh : EncoderSession Feature) :
    Prop where
  fresh_eq : fresh = { session with selected := none }
  references : session.references = .clear
  choice : ∀ selection ∈ session.selected,
    canvasChoice configuration selection.placement.frameWidth selection.placement.frameHeight =
      .ok selection

/-- Until a canvas is chosen, a restarted session may differ from a new one in the canvas it
keeps. -/
def Restarts (configuration : Configuration) (session fresh : EncoderSession Feature) : Prop :=
  (session.Fresh ∧ fresh = session) ∨ Spare configuration session fresh

section Spare

variable {session fresh : EncoderSession Feature}

theorem Spare.unused (h : Spare configuration session fresh) :
    session.started = false ∧ session.codedIndex = 0 := by
  cases hselected : session.selected with
  | none => simp [started, codedIndex, hselected]
  | some selection =>
      obtain ⟨loop, hloop⟩ := canvasChoice_scheduler (h.choice selection hselected)
      simp [started, codedIndex, hselected, hloop, FrameScheduler.new]

theorem Spare.both_fresh (h : Spare configuration session fresh) :
    session.Fresh ∧ fresh.Fresh := by
  refine ⟨fun _ => ⟨h.references, h.unused.2⟩, fun _ => ?_⟩
  rw [h.fresh_eq]
  exact ⟨h.references, rfl⟩

/-- The kept canvas is the one that the new session chooses. -/
theorem Spare.canvasFor (h : Spare configuration session fresh) (hprovides : environment.Provides)
    (width height : ℕ) :
    canvasFor environment configuration fresh width height =
      canvasFor environment configuration session width height := by
  have hnone : fresh.keepsCanvas width height = none := by
    rw [h.fresh_eq]
    rfl
  have hfresh : fresh.started = false := by
    rw [h.fresh_eq]
    rfl
  simp only [EncoderSession.canvasFor, hnone, hfresh, h.unused.1, Bool.false_eq_true, if_false,
    chooseCanvas_of_provides hprovides]
  cases hkept : session.keepsCanvas width height with
  | none => rfl
  | some selection =>
      obtain ⟨hselected, hsize⟩ := Option.filter_eq_some_iff.mp hkept
      obtain ⟨hwidth, hheight⟩ : width = selection.placement.frameWidth ∧
          height = selection.placement.frameHeight := by simpa using hsize
      have hchoice := h.choice selection hselected
      rw [← hwidth, ← hheight] at hchoice
      exact hchoice

/-- A frame is answered alike; once its canvas is chosen the sessions are the same. -/
theorem Spare.sendFrame (h : Spare configuration session fresh)
    (hprovides : environment.Provides) (frame : Frame) :
    (run (sendFrame environment configuration frame) session).1 =
        (run (sendFrame environment configuration frame) fresh).1 ∧
      Restarts configuration (run (sendFrame environment configuration frame) session).2
        (run (sendFrame environment configuration frame) fresh).2 := by
  have hflushed : fresh.flushed = session.flushed := by rw [h.fresh_eq]
  have hnext : (run (EncoderSession.sendFrame environment configuration frame) session).2.Fresh :=
    fresh_sendFrame h.both_fresh.1 environment frame
  revert hnext
  rw [run_sendFrame, run_sendFrame, hflushed]
  split
  · exact fun _ => ⟨rfl, .inr h⟩
  split
  · exact fun _ => ⟨rfl, .inr h⟩
  rw [run_encode h.both_fresh.1, run_encode h.both_fresh.2, h.canvasFor hprovides]
  cases EncoderSession.canvasFor environment configuration session frame.width.toNat
      frame.height.toNat with
  | error e => exact fun _ => ⟨rfl, .inr h⟩
  | ok selection =>
      intro hnext
      have hprepared : fresh.preparedFor selection (selection.scheduler.plan none) =
          session.preparedFor selection (selection.scheduler.plan none) := by
        rw [h.fresh_eq]
        rfl
      have hreferences : fresh.referencesFor (selection.scheduler.plan none) =
          session.referencesFor (selection.scheduler.plan none) := by
        rw [h.fresh_eq]
        rfl
      simp only [hprepared, hreferences]
      exact ⟨trivial, .inl ⟨hnext, rfl⟩⟩

theorem Restarts.serve (h : Restarts configuration session fresh) {call : Call Image Feature}
    (hprovided : call.Provided) :
    (serve configuration session call).1 = (serve configuration fresh call).1 ∧
      Restarts configuration (serve configuration session call).2
        (serve configuration fresh call).2 := by
  obtain ⟨hfresh, rfl⟩ | h := h
  · refine ⟨rfl, .inl ⟨?_, rfl⟩⟩
    rw [serve_snd]
    exact fresh_step configuration fresh call hfresh
  cases call with
  | sendFrame environment frame =>
      obtain ⟨hanswer, hnext⟩ := h.sendFrame hprovided frame
      exact ⟨congrArg Rt.Reply.status hanswer, hnext⟩
  | receive =>
      have hoff : ∀ outputs, Spare configuration { session with outputs := outputs }
          { fresh with outputs := outputs } := by
        intro outputs
        exact ⟨by rw [h.fresh_eq], h.references, h.choice⟩
      have houtputs : fresh.outputs = session.outputs := by rw [h.fresh_eq]
      have hflushed : fresh.flushed = session.flushed := by rw [h.fresh_eq]
      simp only [EncoderSession.serve, receiveAccessUnit, run_bind, run_gets, id, houtputs,
        hflushed]
      cases session.outputs with
      | cons packet rest => exact ⟨rfl, .inr (hoff rest)⟩
      | nil => cases session.flushed <;> exact ⟨rfl, .inr h⟩
  | flush =>
      refine ⟨rfl, .inr ⟨?_, h.references, h.choice⟩⟩
      rw [h.fresh_eq]
      rfl
  | reset =>
      refine ⟨rfl, .inr ⟨?_, rfl, ?_⟩⟩
      · rw [h.fresh_eq]
        rfl
      · intro selection hselection
        obtain ⟨kept, hkept, rfl⟩ := Option.mem_map.mp hselection
        obtain ⟨loop, hloop⟩ := canvasChoice_scheduler (h.choice kept hkept)
        have hreset : kept.restarted = kept := by
          cases kept
          simp only at hloop
          rw [Selection.restarted, hloop]
          rfl
        have hchoice := h.choice kept hkept
        rw [← hreset] at hchoice
        exact hchoice

end Spare

/-- An encoder session that was reset after any history answers as a new one. -/
theorem reset_serves_as_new (configuration : Configuration)
    (history later : List (Call Image Feature)) (hlater : ∀ call ∈ later, call.Provided) :
    trace (serve configuration) (final (serve configuration) new (history ++ [.reset])) later =
      trace (serve configuration) new later := by
  have hnew : (new : EncoderSession Feature).Fresh ∧
      Chosen configuration (new : EncoderSession Feature) := by
    refine ⟨fun _ => ⟨rfl, rfl⟩, ?_⟩
    rintro _ ⟨⟩
  have hhistory := invariant_of_step (chosen_serve configuration) hnew history
  rw [final_append]
  generalize final (serve configuration) new history = session at hhistory
  have hspare : Spare configuration
      (final (serve configuration) session [(.reset : Call Image Feature)]) new := by
    refine ⟨rfl, rfl, ?_⟩
    intro selection hselection
    obtain ⟨kept, hkept, rfl⟩ := Option.mem_map.mp hselection
    exact hhistory.2 kept hkept
  have hrestarts : Restarts configuration
      (final (serve configuration) session [(.reset : Call Image Feature)]) new := .inr hspare
  refine trace_eq_of_kind ?_ hrestarts hlater
  intro session fresh call hprovided h
  exact Restarts.serve h hprovided

end EncoderSession

namespace DecoderSession

/-- What a call of the decoder interface gives to its caller. -/
def serve (configuration : Configuration) (session : DecoderSession Feature) :
    Call Image Feature → Rt.Reply × DecoderSession Feature
  | .sendAccessUnit environment packet =>
      let (answer, next) := run (sendAccessUnit environment configuration packet) session
      (.status answer, next)
  | .receive =>
      let (answer, next) := run receiveFrame session
      (.frame answer, next)
  | .flush =>
      let (answer, next) := run flush session
      (.status answer, next)
  | .reset =>
      let (answer, next) := run reset session
      (.status answer, next)

/-- Canvases and memory are available to the call. -/
def Call.Provided : Call Image Feature → Prop
  | .sendAccessUnit environment _ => environment.Provides
  | .receive | .flush | .reset => True

variable {environment : Environment Image Feature} {configuration : Configuration}

/-- The selection comes from the bundle and its scheduler follows the model. -/
def Supported (configuration : Configuration) (selection : Selection) : Prop :=
  selection.model ∈ configuration.models ∧
    selection.scheduler.parameters = LoopParameters.fromModel selection.model.parameters

theorem modelFor_mem {modelId : Bytes} {model : BundleModel}
    (h : modelFor configuration modelId = some model) : model ∈ configuration.models :=
  List.mem_of_mem_filter (List.mem_of_getLast? h)

theorem supported_selectionFor {session : DecoderSession Feature}
    (h : ∀ selection ∈ session.selected, Supported configuration selection) {unit : AccessUnit}
    {selection : Selection}
    (hselection : selectionFor environment configuration session unit = .ok selection) :
    Supported configuration selection := by
  unfold selectionFor at hselection
  split at hselection
  · unfold intraSelection at hselection
    cases hmodel : modelFor configuration unit.modelId with
    | none => simp [hmodel] at hselection
    | some model =>
        cases hplace : place unit.width.toNat unit.height.toNat model.parameters with
        | error e => simp [hmodel, hplace] at hselection
        | ok placement =>
            simp only [hmodel, hplace] at hselection
            cases hkept : session.selected.filter fun selection =>
                selection.model.canvasId = model.canvasId with
            | some kept =>
                simp only [hkept] at hselection
                cases hselection
                exact h kept (Option.filter_eq_some_iff.mp hkept).1
            | none =>
                simp only [hkept, bind_eq_ok] at hselection
                obtain ⟨_, -, _, -, _, -, _, -, _, -, _, -, hselection⟩ := hselection
                cases hselection
                exact ⟨modelFor_mem hmodel, rfl⟩
  · exact h selection (predictedSelection_eq_ok hselection).1

/-- A property of selections that choosing a canvas establishes and schedulers do not read. -/
structure KeptBySelection (Image Feature : Type) (configuration : Configuration)
    (property : Selection → Prop) : Prop where
  selectionFor : ∀ (environment : Environment Image Feature) (session : DecoderSession Feature)
    (unit : AccessUnit) (selection : Selection), (∀ kept ∈ session.selected, property kept) →
    selectionFor environment configuration session unit = .ok selection → property selection
  commit : ∀ (selection : Selection) (plan : FramePlan), property selection →
    property { selection with scheduler := selection.scheduler.commit plan }
  reset : ∀ selection : Selection, property selection → property selection.restarted

section KeptBySelection

variable {property : Selection → Prop}

theorem KeptBySelection.decode (hkept : KeptBySelection Image Feature configuration property)
    {session : DecoderSession Feature} (h : ∀ selection ∈ session.selected, property selection)
    (environment : Environment Image Feature) (packet : Packet) :
    ∀ selection ∈ (run (decode environment configuration packet) session).2.selected,
      property selection := by
  rw [run_decode]
  cases parsePacket configuration packet with
  | error e => exact h
  | ok parsed =>
      obtain ⟨unit, record⟩ := parsed
      simp only []
      cases hselection : DecoderSession.selectionFor environment configuration session unit with
      | error e => exact h
      | ok selection =>
          have hselected := hkept.selectionFor environment session unit selection h hselection
          simp only []
          split
          · rintro _ ⟨⟩
            exact hselected
          cases decodeSymbols environment selection.model unit record with
          | error e =>
              rintro _ ⟨⟩
              exact hselected
          | ok symbols =>
              simp only []
              cases decodeFrame environment selection (planFor selection unit)
                  (session.referencesFor unit) symbols record packet.timestamp with
              | error e =>
                  rintro _ ⟨⟩
                  exact hselected
              | ok decoded =>
                  simp only []
                  cases environment.allocate "retained_frame" with
                  | error e =>
                      rintro _ ⟨⟩
                      exact hkept.commit selection _ hselected
                  | ok u =>
                      rintro _ ⟨⟩
                      exact hkept.commit selection _ hselected

theorem KeptBySelection.serve (hkept : KeptBySelection Image Feature configuration property)
    (session : DecoderSession Feature) (call : Call Image Feature)
    (h : ∀ selection ∈ session.selected, property selection) :
    ∀ selection ∈ (serve configuration session call).2.selected, property selection := by
  cases call with
  | sendAccessUnit environment packet =>
      have hdecode := hkept.decode h environment packet
      simp only [DecoderSession.serve, Tracked.run_sendAccessUnit]
      split
      · exact h
      · rcases hrun : run (DecoderSession.decode environment configuration packet) session with
          ⟨_ | frame, next⟩
        · rw [hrun] at hdecode
          exact hdecode
        · rw [hrun] at hdecode
          exact hdecode
  | receive =>
      simp only [DecoderSession.serve, receiveFrame, run_bind, run_gets, id]
      split
      · exact h
      · split <;> exact h
  | flush => exact h
  | reset =>
      intro selection hselection
      obtain ⟨kept, hmem, rfl⟩ := Option.mem_map.mp hselection
      exact hkept.reset kept (h kept hmem)

end KeptBySelection

theorem supported_kept (configuration : Configuration) :
    KeptBySelection Image Feature configuration (Supported configuration) where
  selectionFor _ _ _ _ h hselection := supported_selectionFor h hselection
  commit _ _ h := h
  reset _ h := h

/-- A session that may keep an unused canvas, and one that has none and is the same otherwise. -/
structure Spare (configuration : Configuration) (session fresh : DecoderSession Feature) :
    Prop where
  fresh_eq : fresh = { session with selected := none }
  supported : ∀ selection ∈ session.selected, Supported configuration selection
  unused : ∀ selection ∈ session.selected, selection.restarted = selection

/-- Until a canvas is chosen, a restarted session may differ from a new one in the canvas it
keeps. -/
def Restarts (configuration : Configuration) (session fresh : DecoderSession Feature) : Prop :=
  fresh = session ∨ Spare configuration session fresh

section Spare

variable {session fresh : DecoderSession Feature}

/-- With distinct canvas identifiers, the kept canvas is the one that the new session loads. -/
theorem Spare.selectionFor (h : Spare configuration session fresh)
    (hdistinct : (configuration.models.map BundleModel.canvasId).Nodup)
    (hprovides : environment.Provides) (unit : AccessUnit) :
    selectionFor environment configuration fresh unit =
      selectionFor environment configuration session unit := by
  have hnone : fresh.selected = none := by rw [h.fresh_eq]
  unfold DecoderSession.selectionFor
  split
  · unfold intraSelection
    cases hmodel : modelFor configuration unit.modelId with
    | none => rfl
    | some model =>
        simp only []
        cases place unit.width.toNat unit.height.toNat model.parameters with
        | error e => rfl
        | ok placement =>
            simp only [hnone, Option.filter_none, hprovides.loadCanvas, hprovides.allocate,
              ok_bind]
            cases hkept : session.selected.filter fun selection =>
                selection.model.canvasId = model.canvasId with
            | none => rfl
            | some kept =>
                obtain ⟨hselected, hcanvas⟩ := Option.filter_eq_some_iff.mp hkept
                obtain ⟨hmem, hparameters⟩ := h.supported kept hselected
                have hsame : kept.model = model :=
                  List.inj_on_of_nodup_map hdistinct hmem (modelFor_mem hmodel)
                    (by simpa using hcanvas)
                have hscheduler : kept.scheduler = .new (.fromModel model.parameters) := by
                  rw [← hsame, ← hparameters]
                  exact (congrArg Selection.scheduler (h.unused kept hselected)).symm
                subst hsame
                rw [← hscheduler]
                rfl
  · have hunstarted : (session.selected.filter fun selection =>
        selection.scheduler.started) = none := by
      cases hselected : session.selected with
      | none => rfl
      | some selection =>
          have hstarted : selection.scheduler.started = false := by
            rw [← h.unused selection hselected]
            rfl
          simp [Option.filter, hstarted]
    rw [predictedSelection, predictedSelection, hunstarted, hnone]
    rfl

/-- A packet is answered alike; once its canvas is chosen the sessions are the same. -/
theorem Spare.decode (h : Spare configuration session fresh)
    (hdistinct : (configuration.models.map BundleModel.canvasId).Nodup)
    (hprovides : environment.Provides) (packet : Packet) :
    (run (decode environment configuration packet) session).1 =
        (run (decode environment configuration packet) fresh).1 ∧
      Restarts configuration (run (decode environment configuration packet) session).2
        (run (decode environment configuration packet) fresh).2 := by
  rw [run_decode, run_decode]
  cases parsePacket configuration packet with
  | error e => exact ⟨rfl, .inr h⟩
  | ok parsed =>
      obtain ⟨unit, record⟩ := parsed
      simp only [h.selectionFor hdistinct hprovides]
      cases DecoderSession.selectionFor environment configuration session unit with
      | error e => exact ⟨rfl, .inr h⟩
      | ok selection =>
          have hchosen : fresh.withSelection selection = session.withSelection selection := by
            rw [h.fresh_eq]
            rfl
          have hreferences : fresh.referencesFor unit = session.referencesFor unit := by
            rw [h.fresh_eq]
            rfl
          simp only [hchosen, hreferences]
          exact ⟨trivial, .inl rfl⟩

theorem Restarts.serve (h : Restarts configuration session fresh)
    (hdistinct : (configuration.models.map BundleModel.canvasId).Nodup)
    {call : Call Image Feature} (hprovided : call.Provided) :
    (serve configuration session call).1 = (serve configuration fresh call).1 ∧
      Restarts configuration (serve configuration session call).2
        (serve configuration fresh call).2 := by
  obtain rfl | h := h
  · exact ⟨rfl, .inl rfl⟩
  have houtputs : fresh.outputs = session.outputs := by rw [h.fresh_eq]
  have hflushed : fresh.flushed = session.flushed := by rw [h.fresh_eq]
  cases call with
  | sendAccessUnit environment packet =>
      obtain ⟨hanswer, hnext⟩ := h.decode hdistinct hprovided packet
      simp only [DecoderSession.serve, Tracked.run_sendAccessUnit, hflushed]
      split
      · exact ⟨rfl, .inr h⟩
      rcases hrun : run (DecoderSession.decode environment configuration packet) session with
        ⟨answer, next⟩
      rcases hrun' : run (DecoderSession.decode environment configuration packet) fresh with
        ⟨answer', next'⟩
      rw [hrun, hrun'] at hanswer hnext
      cases hanswer
      cases answer with
      | error e => exact ⟨rfl, hnext⟩
      | ok frame =>
          refine ⟨rfl, ?_⟩
          obtain hsame | hspare := hnext
          · left
            exact congrArg (fun s : DecoderSession Feature =>
              { s with outputs := s.outputs ++ [frame] }) hsame
          · right
            have hfresh : next' = { next with selected := none } := hspare.fresh_eq
            refine ⟨?_, hspare.supported, hspare.unused⟩
            rw [hfresh]
  | receive =>
      have hoff : ∀ outputs, Spare configuration { session with outputs := outputs }
          { fresh with outputs := outputs } := by
        intro outputs
        exact ⟨by rw [h.fresh_eq], h.supported, h.unused⟩
      simp only [DecoderSession.serve, receiveFrame, run_bind, run_gets, id, houtputs, hflushed]
      cases session.outputs with
      | cons frame rest => exact ⟨rfl, .inr (hoff rest)⟩
      | nil => cases session.flushed <;> exact ⟨rfl, .inr h⟩
  | flush =>
      refine ⟨rfl, .inr ⟨?_, h.supported, h.unused⟩⟩
      rw [h.fresh_eq]
      rfl
  | reset =>
      refine ⟨rfl, .inr ⟨?_, ?_, ?_⟩⟩
      · rw [h.fresh_eq]
        rfl
      · exact (supported_kept configuration).serve session (.reset : Call Image Feature) h.supported
      · intro selection hselection
        obtain ⟨kept, hkept, rfl⟩ := Option.mem_map.mp hselection
        rfl

end Spare

/-- A decoder session that was reset after any history answers as a new one. -/
theorem reset_serves_as_new (configuration : Configuration)
    (hdistinct : (configuration.models.map BundleModel.canvasId).Nodup)
    (history later : List (Call Image Feature)) (hlater : ∀ call ∈ later, call.Provided) :
    trace (serve configuration) (final (serve configuration) new (history ++ [.reset])) later =
      trace (serve configuration) new later := by
  have hnew : ∀ selection ∈ (new : DecoderSession Feature).selected,
      Supported configuration selection := by
    rintro _ ⟨⟩
  have hhistory := invariant_of_step (supported_kept configuration).serve hnew history
  rw [final_append]
  generalize final (serve configuration) new history = session at hhistory
  have hspare : Spare configuration
      (final (serve configuration) session [(.reset : Call Image Feature)]) new := by
    refine ⟨rfl, (supported_kept configuration).serve session (.reset : Call Image Feature) hhistory, ?_⟩
    intro selection hselection
    obtain ⟨kept, hkept, rfl⟩ := Option.mem_map.mp hselection
    rfl
  have hrestarts : Restarts configuration
      (final (serve configuration) session [(.reset : Call Image Feature)]) new := .inr hspare
  refine trace_eq_of_kind ?_ hrestarts hlater
  intro session fresh call hprovided h
  exact Restarts.serve h hdistinct hprovided

end DecoderSession

end Nvcr.Mlvc

namespace Nvcr

open TransitionRuns Mlvc

/-- After any history and a reset, an encoder or decoder session of either codec answers every
later call as a new session does. The two sessions of the host backend may be used in turns: the
answers of the one that was reset are those of a new one used alone. -/
theorem reset_session_answers_as_new {Image Feature : Type} (configuration : Configuration)
    (hdistinct : (configuration.models.map BundleModel.canvasId).Nodup)
    (encoded encodedLater : List (EncoderSession.Call Image Feature))
    (hencoded : ∀ call ∈ encodedLater, call.Provided)
    (decoded decodedLater : List (DecoderSession.Call Image Feature))
    (hdecoded : ∀ call ∈ decodedLater, call.Provided) :
    (∀ (A : Rt.HostArithmetic) (R : Rt.RansCoder) (setup : Rt.BackendSetup A)
        (settings : Rt.SessionConfiguration) (history later : List (Rt.Call (Rt.Provider A))),
      answersTo Rt.Call.onEncoder (Rt.Sessions.step (Rt.hostBackend A R setup) settings)
          (final (Rt.Sessions.step (Rt.hostBackend A R setup) settings)
            (Rt.Sessions.initial settings (Rt.HostBackend.initial setup))
            (history ++ [.resetEncoder])) later =
        trace (Rt.Sessions.step (Rt.hostBackend A R setup) settings)
          (Rt.Sessions.initial settings (Rt.HostBackend.initial setup))
          (later.filter Rt.Call.onEncoder) ∧
      answersTo Rt.Call.onDecoder (Rt.Sessions.step (Rt.hostBackend A R setup) settings)
          (final (Rt.Sessions.step (Rt.hostBackend A R setup) settings)
            (Rt.Sessions.initial settings (Rt.HostBackend.initial setup))
            (history ++ [.resetDecoder])) later =
        trace (Rt.Sessions.step (Rt.hostBackend A R setup) settings)
          (Rt.Sessions.initial settings (Rt.HostBackend.initial setup))
          (later.filter Rt.Call.onDecoder)) ∧
    trace (EncoderSession.serve configuration)
        (final (EncoderSession.serve configuration) .new (encoded ++ [.reset])) encodedLater =
      trace (EncoderSession.serve configuration) .new encodedLater ∧
    trace (DecoderSession.serve configuration)
        (final (DecoderSession.serve configuration) .new (decoded ++ [.reset])) decodedLater =
      trace (DecoderSession.serve configuration) .new decodedLater := by
  refine ⟨?_, EncoderSession.reset_serves_as_new configuration encoded encodedLater hencoded,
    DecoderSession.reset_serves_as_new configuration hdistinct decoded decodedLater hdecoded⟩
  intro A R setup settings history later
  have hkind : ∀ kind : Rt.Call (Rt.Provider A) → Bool, ∀ call ∈ later.filter kind,
      kind call = true := fun kind call hcall => (List.mem_filter.mp hcall).2
  constructor
  · rw [(Rt.Sessions.answers_independent (Rt.HostBackend.laws setup) _ later).1, final_append]
    exact (Rt.Sessions.reset_answers_as_new (Rt.HostBackend.laws setup) settings
      (Rt.HostBackend.initial setup) history _).1 (hkind Rt.Call.onEncoder)
  · rw [(Rt.Sessions.answers_independent (Rt.HostBackend.laws setup) _ later).2, final_append]
    exact (Rt.Sessions.reset_answers_as_new (Rt.HostBackend.laws setup) settings
      (Rt.HostBackend.initial setup) history _).2 (hkind Rt.Call.onDecoder)

/-- An encoder and a decoder of the small bundle are warmed up with a frame, reset, and used. -/
theorem warmed_up_session_answers_as_new :
    trace (EncoderSession.serve EncoderSession.smallConfiguration)
        (final (EncoderSession.serve EncoderSession.smallConfiguration) .new
          ([.sendFrame (EncoderSession.smallEnvironment 1) EncoderSession.smallFrame] ++ [.reset]))
        [.sendFrame (EncoderSession.smallEnvironment 1) EncoderSession.smallFrame, .receive] =
      trace (EncoderSession.serve EncoderSession.smallConfiguration) .new
        [.sendFrame (EncoderSession.smallEnvironment 1) EncoderSession.smallFrame, .receive] ∧
    trace (DecoderSession.serve EncoderSession.smallConfiguration)
        (final (DecoderSession.serve EncoderSession.smallConfiguration) .new
          ([.sendAccessUnit DecoderSession.Tracked.smallEnvironment
            (DecoderSession.Tracked.smallPacket .intra 4)] ++ [.reset]))
        [.sendAccessUnit DecoderSession.Tracked.smallEnvironment
          (DecoderSession.Tracked.smallPacket .intra 2), .receive] =
      trace (DecoderSession.serve EncoderSession.smallConfiguration) .new
        [.sendAccessUnit DecoderSession.Tracked.smallEnvironment
          (DecoderSession.Tracked.smallPacket .intra 2), .receive] := by
  refine (reset_session_answers_as_new EncoderSession.smallConfiguration (by decide) _ _ ?_ _ _
    ?_).2
  · intro call hcall
    fin_cases hcall
    · exact ⟨fun _ => rfl, fun _ => rfl⟩
    · trivial
  · intro call hcall
    fin_cases hcall
    · exact ⟨fun _ => rfl, fun _ => rfl⟩
    · trivial

end Nvcr
