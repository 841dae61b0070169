import Nvcr.TransitionRuns
import Nvcr.UfEncoder

/-!
# Preparation of the DCVC-UF TensorRT session

The buffers that depend only on the frame size are made when a call brings another size
than the stored one. Every allocation, upload and host computation may fail; an environment
says which.
-/

namespace Nvcr.Uf.TensorRt

open StatefulResults

def chY : ℕ := 256

/-- The next multiple; the division of the source rounds towards zero. -/
def ceilTo (value multiple : ℤ) : ℤ := (value + multiple - 1).tdiv multiple * multiple

/-- The phase that each quarter of the channels takes at a step. -/
def maskOrder : Fin 4 → List ℕ
  | 0 => [0, 1, 2, 3]
  | 1 => [3, 2, 1, 0]
  | 2 => [2, 3, 0, 1]
  | 3 => [1, 0, 3, 2]

/-- One entry of the mask of a step, at row `y`, column `x` and channel `c`. -/
def maskEntry (step : Fin 4) (y x c : ℕ) : Bool :=
  (maskOrder step).getD (c / (chY / 4)) 0 == y % 2 * 2 + x % 2

/-- Four groups of channels, each one 2x2 phase, channels innermost. -/
def maskValues (height width : ℕ) (step : Fin 4) : List Bool :=
  (List.range height).flatMap fun y => (List.range width).flatMap fun x =>
    (List.range chY).map fun c => maskEntry step y x c

structure MaskTensor where
  height : ℤ
  width : ℤ
  values : List Bool
  deriving DecidableEq

def maskTensor (height width : ℤ) (step : Fin 4) : MaskTensor :=
  ⟨height, width, maskValues height.toNat width.toNat step⟩

def conditionalScratchInts : ℕ := 1024 * 1024

/-- A device tensor whose contents each use writes before it reads them. -/
structure ScratchTensor where
  ints : ℕ
  deriving DecidableEq

def scratchTensor : ScratchTensor := ⟨conditionalScratchInts * 2⟩

/-- The number one as a half. -/
def halfOne : UInt16 := 0x3c00

def onesRow : List UInt16 := List.replicate chY halfOne

/-- What preparation keeps in the session. -/
structure Preparation where
  width : ℤ := 0
  height : ℤ := 0
  h16 : ℤ := 0
  w16 : ℤ := 0
  masks : Fin 4 → Option MaskTensor := fun _ => none
  scratch : Option ScratchTensor := none
  ones : Option (List UInt16) := none

/-- The steps of a preparation that may fail. -/
inductive Operation where
  | hostMasks
  | allocateMask (step : Fin 4)
  | uploadMask (step : Fin 4)
  | allocateScratch
  | hostOnes
  | allocateOnes
  | uploadOnes
  deriving DecidableEq, Repr

/-- What the steps of one preparation answer. -/
abbrev Environment := Operation → Result Unit

variable (environment : Environment)

def storeMask (step : Fin 4) : Action Error Preparation Unit := do
  Action.lift (environment (.allocateMask step))
  Action.lift (environment (.uploadMask step))
  Action.update fun state =>
    { state with masks :=
        Function.update state.masks step (some (maskTensor state.h16 state.w16 step)) }

def storeScratch : Action Error Preparation Unit := do
  Action.lift (environment .allocateScratch)
  Action.update fun state => { state with scratch := some scratchTensor }

def storeOnes : Action Error Preparation Unit := do
  Action.lift (environment .hostOnes)
  Action.lift (environment .allocateOnes)
  Action.lift (environment .uploadOnes)
  Action.update fun state => { state with ones := some onesRow }

/-- `prepare`: the size is taken over before the buffers for it are there. -/
def prepareBuffers (width height : ℤ) : Action Error Preparation Unit := do
  let state ← Action.gets id
  if width = state.width ∧ height = state.height then pure ()
  else do
    Action.update fun state =>
      { state with
        width, height
        h16 := (ceilTo height 16).tdiv 16
        w16 := (ceilTo width 16).tdiv 16 }
    Action.lift (environment .hostMasks)
    [0, 1, 2, 3].forM (storeMask environment)
    storeScratch environment
    storeOnes environment

/-- The buffers are there, made for exactly this size. -/
structure PopulatedFor (state : Preparation) (width height : ℤ) : Prop where
  masks : ∀ step, state.masks step =
    some (maskTensor ((ceilTo height 16).tdiv 16) ((ceilTo width 16).tdiv 16) step)
  scratch : state.scratch = some scratchTensor
  ones : state.ones = some onesRow

/-- One call of a history. -/
structure PrepareCall where
  width : ℤ
  height : ℤ
  environment : Environment

def prepareStep (state : Preparation) (call : PrepareCall) : Result Unit × Preparation :=
  (prepareBuffers call.environment call.width call.height).run state

section Progress

def Environment.ok (environment : Environment) (operation : Operation) : Bool :=
  (environment operation).isOk

def Environment.okMask (environment : Environment) (step : Fin 4) : Bool :=
  environment.ok (.allocateMask step) && environment.ok (.uploadMask step)

/-- Nothing fails until the mask of the step is stored. -/
def Environment.storesMask (environment : Environment) (step : Fin 4) : Bool :=
  environment.ok .hostMasks &&
    [0, 1, 2, 3].all fun earlier => decide (step < earlier) || environment.okMask earlier

def Environment.storesScratch (environment : Environment) : Bool :=
  environment.storesMask 3 && environment.ok .allocateScratch

def Environment.storesOnes (environment : Environment) : Bool :=
  environment.storesScratch && environment.ok .hostOnes && environment.ok .allocateOnes &&
    environment.ok .uploadOnes

variable {environment : Environment}

theorem ok_eq_true {operation : Operation} :
    environment.ok operation = true ↔ environment operation = .ok () := by
  unfold Environment.ok
  rcases environment operation with e | ⟨⟩ <;> simp [Except.isOk, Except.toBool]

theorem ok_eq_false {operation : Operation} :
    environment.ok operation = false ↔ ∃ e, environment operation = .error e := by
  unfold Environment.ok
  rcases environment operation with e | ⟨⟩ <;> simp [Except.isOk, Except.toBool]

/-- What the state looks like when the masks of some steps have been stored. -/
def Preparation.withMasks (state : Preparation) (stored : Fin 4 → Bool) : Preparation :=
  { state with masks := fun step =>
      if stored step then some (maskTensor state.h16 state.w16 step) else state.masks step }

variable (environment) in
theorem storeMask_run (state : Preparation) (step : Fin 4) :
    ∃ result, (storeMask environment step).run state =
        (result, state.withMasks fun other => other = step && environment.okMask step) ∧
      result.isOk = environment.okMask step := by
  cases hallocate : environment (.allocateMask step) with
  | error e =>
      have hok : environment.okMask step = false := by
        simp [Environment.okMask, Environment.ok, hallocate, Except.isOk, Except.toBool]
      refine ⟨.error e, ?_, by rw [hok]; rfl⟩
      simp [storeMask, Action.run_bind, hallocate, hok, Preparation.withMasks]
  | ok _ =>
      cases hupload : environment (.uploadMask step) with
      | error e =>
          have hok : environment.okMask step = false := by
            simp [Environment.okMask, Environment.ok, hallocate, hupload, Except.isOk,
              Except.toBool]
          refine ⟨.error e, ?_, by rw [hok]; rfl⟩
          simp [storeMask, Action.run_bind, hallocate, hupload, hok, Preparation.withMasks]
      | ok _ =>
          have hok : environment.okMask step = true := by
            simp [Environment.okMask, Environment.ok, hallocate, hupload, Except.isOk,
              Except.toBool]
          refine ⟨.ok (), ?_, by rw [hok]; rfl⟩
          simp only [storeMask, Action.run_bind, Action.run_lift, hallocate, hupload, hok,
            Action.run_update, Preparation.withMasks, Bool.and_true, decide_eq_true_eq]
          congr 2
          funext other
          by_cases hother : other = step
          · simp [hother]
          · simp [hother]

theorem withMasks_withMasks (state : Preparation) (stored stored' : Fin 4 → Bool) :
    (state.withMasks stored).withMasks stored' =
      state.withMasks fun step => stored step || stored' step := by
  simp only [Preparation.withMasks]
  congr 1
  funext step
  by_cases hstored : stored step = true <;> by_cases hstored' : stored' step = true <;>
    simp [hstored, hstored']

variable (environment) in
/-- The loop stores masks until one of them fails. -/
theorem storeMasks_run (steps : List (Fin 4)) (state : Preparation) :
    ∃ result, (steps.forM (storeMask environment)).run state =
        (result, state.withMasks fun step =>
          (steps.takeWhile environment.okMask).contains step) ∧
      result.isOk = steps.all environment.okMask := by
  induction steps generalizing state with
  | nil => exact ⟨.ok (), by simp [Preparation.withMasks], rfl⟩
  | cons step steps ih =>
      obtain ⟨result, hrun, hresult⟩ := storeMask_run environment state step
      cases hok : environment.okMask step with
      | false =>
          cases result with
          | ok _ => simp [hok, Except.isOk, Except.toBool] at hresult
          | error e =>
              refine ⟨.error e, ?_, ?_⟩
              · change (storeMask environment step >>= fun _ =>
                  steps.forM (storeMask environment)).run state = _
                rw [Action.run_bind_of_error hrun]
                simp [hok]
              · rw [List.all_cons, hok]
                rfl
      | true =>
          cases result with
          | error e => simp [hok, Except.isOk, Except.toBool] at hresult
          | ok _ =>
              obtain ⟨later, hlater, hall⟩ :=
                ih (state.withMasks fun other => other = step && environment.okMask step)
              refine ⟨later, ?_, ?_⟩
              · change (storeMask environment step >>= fun _ =>
                  steps.forM (storeMask environment)).run state = _
                rw [Action.run_bind_of_ok hrun, hlater, withMasks_withMasks]
                simp [hok]
              · rw [List.all_cons, hok, hall, Bool.true_and]

theorem contains_takeWhile : ∀ (passes : Fin 4 → Bool) (step : Fin 4),
    ([0, 1, 2, 3].takeWhile passes).contains step =
      [0, 1, 2, 3].all fun earlier => decide (step < earlier) || passes earlier := by
  decide

theorem all_eq_of_last (passes : Fin 4 → Bool) :
    ([0, 1, 2, 3].all fun earlier => decide ((3 : Fin 4) < earlier) || passes earlier) =
      [0, 1, 2, 3].all passes := by
  revert passes
  decide

/-- The state taken over before anything is made. -/
def Preparation.resized (state : Preparation) (width height : ℤ) : Preparation :=
  { state with
    width, height
    h16 := (ceilTo height 16).tdiv 16
    w16 := (ceilTo width 16).tdiv 16 }

/-- What a preparation for another size leaves. -/
def Preparation.advanced (state : Preparation) (call : PrepareCall) : Preparation :=
  { (state.resized call.width call.height).withMasks call.environment.storesMask with
    scratch := if call.environment.storesScratch then some scratchTensor else state.scratch
    ones := if call.environment.storesOnes then some onesRow else state.ones }

variable (environment) in
theorem storeScratch_run (state : Preparation) :
    ∃ result, (storeScratch environment).run state = (result, { state with
        scratch := if environment.ok .allocateScratch then some scratchTensor
          else state.scratch }) ∧ result.isOk = environment.ok .allocateScratch := by
  cases hallocate : environment.ok .allocateScratch with
  | true =>
      have h := ok_eq_true.mp hallocate
      exact ⟨.ok (), by simp [storeScratch, Action.run_bind, h], rfl⟩
  | false =>
      obtain ⟨e, h⟩ := ok_eq_false.mp hallocate
      exact ⟨.error e, by simp [storeScratch, Action.run_bind, h], rfl⟩

variable (environment) in
theorem storeOnes_run (state : Preparation) :
    ∃ result, (storeOnes environment).run state = (result, { state with
        ones := if environment.ok .hostOnes && environment.ok .allocateOnes &&
          environment.ok .uploadOnes then some onesRow else state.ones }) ∧
      result.isOk = (environment.ok .hostOnes && environment.ok .allocateOnes &&
        environment.ok .uploadOnes) := by
  cases hhost : environment.ok .hostOnes with
  | false =>
      obtain ⟨e, h⟩ := ok_eq_false.mp hhost
      exact ⟨.error e, by simp [storeOnes, Action.run_bind, h], rfl⟩
  | true =>
      have h := ok_eq_true.mp hhost
      cases hallocate : environment.ok .allocateOnes with
      | false =>
          obtain ⟨e, h'⟩ := ok_eq_false.mp hallocate
          exact ⟨.error e, by simp [storeOnes, Action.run_bind, h, h'], rfl⟩
      | true =>
          have h' := ok_eq_true.mp hallocate
          cases hupload : environment.ok .uploadOnes with
          | false =>
              obtain ⟨e, h''⟩ := ok_eq_false.mp hupload
              exact ⟨.error e, by simp [storeOnes, Action.run_bind, h, h', h''], rfl⟩
          | true =>
              have h'' := ok_eq_true.mp hupload
              exact ⟨.ok (), by simp [storeOnes, Action.run_bind, h, h', h''], rfl⟩

/-- A call with the stored size changes nothing and succeeds. -/
theorem prepareStep_same {state : Preparation} {call : PrepareCall}
    (h : call.width = state.width ∧ call.height = state.height) :
    prepareStep state call = (.ok (), state) := by
  unfold prepareStep prepareBuffers
  simp only [Action.run_bind, Action.run_gets, id]
  rw [if_pos h]
  rfl

/-- A call with another size stores what comes before its first failure. -/
theorem prepareStep_other {state : Preparation} {call : PrepareCall}
    (h : ¬ (call.width = state.width ∧ call.height = state.height)) :
    (prepareStep state call).2 = state.advanced call ∧
      (prepareStep state call).1.isOk = call.environment.storesOnes := by
  obtain ⟨width, height, environment⟩ := call
  have hstart : prepareStep state ⟨width, height, environment⟩ =
      Action.run (Action.lift (environment .hostMasks) >>= fun _ =>
        [0, 1, 2, 3].forM (storeMask environment) >>= fun _ =>
        storeScratch environment >>= fun _ => storeOnes environment)
        (state.resized width height) := by
    unfold prepareStep prepareBuffers
    simp only [Action.run_bind, Action.run_gets, id]
    rw [if_neg h]
    rfl
  rw [hstart]
  have hmask : environment.storesMask = fun step => environment.ok .hostMasks &&
      ([0, 1, 2, 3].takeWhile environment.okMask).contains step := by
    funext step
    rw [contains_takeWhile]
    rfl
  have hlast : environment.storesMask 3 =
      (environment.ok .hostMasks && [0, 1, 2, 3].all environment.okMask) := by
    rw [Environment.storesMask, all_eq_of_last]
  cases hhost : environment.ok .hostMasks with
  | false =>
      obtain ⟨e, he⟩ := ok_eq_false.mp hhost
      rw [Action.run_bind_of_error (by rw [Action.run_lift, he])]
      simp [Preparation.advanced, Preparation.withMasks, Preparation.resized, Environment.storesOnes,
        Environment.storesScratch, Environment.storesMask, hhost, Except.isOk, Except.toBool]
  | true =>
      rw [Action.run_bind_of_ok (by rw [Action.run_lift, ok_eq_true.mp hhost])]
      obtain ⟨masks, hmasks, hmasksOk⟩ := storeMasks_run environment [0, 1, 2, 3]
        (state.resized width height)
      rw [hhost, Bool.true_and] at hlast
      simp only [hhost, Bool.true_and] at hmask
      rw [← hmask] at hmasks
      rcases masks with e | _
      · rw [Action.run_bind_of_error hmasks]
        have hfails : environment.storesMask 3 = false := by rw [hlast, ← hmasksOk]; rfl
        simp [Preparation.advanced, Preparation.withMasks, Preparation.resized, Environment.storesOnes,
          Environment.storesScratch, hfails, Except.isOk, Except.toBool]
      · rw [Action.run_bind_of_ok hmasks]
        have hlast : environment.storesMask 3 = true := by rw [hlast, ← hmasksOk]; rfl
        obtain ⟨scratch, hscratch, hscratchOk⟩ := storeScratch_run environment
          ((state.resized width height).withMasks environment.storesMask)
        have hscratchStores : environment.storesScratch = environment.ok .allocateScratch := by
          rw [Environment.storesScratch, hlast, Bool.true_and]
        rw [← hscratchStores] at hscratch hscratchOk
        rcases scratch with e | _
        · rw [Action.run_bind_of_error hscratch]
          have hfails : environment.storesScratch = false := by rw [← hscratchOk]; rfl
          simp [Preparation.advanced, Environment.storesOnes, hfails, Except.isOk, Except.toBool,
            Preparation.withMasks, Preparation.resized]
        · rw [Action.run_bind_of_ok hscratch]
          have hstores : environment.storesScratch = true := by rw [← hscratchOk]; rfl
          obtain ⟨ones, hones, honesOk⟩ := storeOnes_run environment
            { (state.resized width height).withMasks environment.storesMask with
              scratch := if environment.storesScratch then some scratchTensor
                else ((state.resized width height).withMasks environment.storesMask).scratch }
          have honesStores : environment.storesOnes = (environment.ok .hostOnes &&
              environment.ok .allocateOnes && environment.ok .uploadOnes) := by
            rw [Environment.storesOnes, hstores, Bool.true_and]
          rw [← honesStores] at hones honesOk
          rw [hones]
          exact ⟨rfl, honesOk⟩

end Progress

section Histories

/-- The number of 16-sample rows and columns of a size. -/
def sixteenths (width height : ℤ) : ℤ × ℤ :=
  ((ceilTo height 16).tdiv 16, (ceilTo width 16).tdiv 16)

/-- Which sizes the calls of a history brought and how far each preparation got. -/
structure Progress where
  size : ℤ × ℤ := (0, 0)
  maskFor : Fin 4 → Option (ℤ × ℤ) := fun _ => none
  scratchStored : Bool := false
  onesStored : Bool := false

/-- A call of the size of the call before is no preparation. -/
def Progress.next (progress : Progress) (call : PrepareCall) : Progress :=
  if (call.width, call.height) = progress.size then progress
  else
    { size := (call.width, call.height)
      maskFor := fun step =>
        if call.environment.storesMask step then some (sixteenths call.width call.height)
        else progress.maskFor step
      scratchStored := call.environment.storesScratch || progress.scratchStored
      onesStored := call.environment.storesOnes || progress.onesStored }

def progressOf (history : List PrepareCall) : Progress :=
  history.foldl Progress.next {}

/-- A call of the size of the call before comes after preparations that stored every mask last
for as many rows and columns as it needs, and the scratch tensor and the constant tensor. -/
def Supported (progress : Progress) (call : PrepareCall) : Prop :=
  (call.width, call.height) = progress.size →
    (∀ step, progress.maskFor step = some (sixteenths call.width call.height)) ∧
      progress.scratchStored = true ∧ progress.onesStored = true

/-- The state holds what the preparations have stored. -/
structure Tracks (state : Preparation) (progress : Progress) : Prop where
  size : (state.width, state.height) = progress.size
  masks : ∀ step, state.masks step =
    (progress.maskFor step).map fun rowsColumns =>
      maskTensor rowsColumns.1 rowsColumns.2 step
  scratch : state.scratch = if progress.scratchStored then some scratchTensor else none
  ones : state.ones = if progress.onesStored then some onesRow else none

theorem Tracks.initial : Tracks {} {} := ⟨rfl, fun _ => rfl, rfl, rfl⟩

theorem Tracks.step {state : Preparation} {progress : Progress} (h : Tracks state progress)
    (call : PrepareCall) : Tracks (prepareStep state call).2 (progress.next call) := by
  unfold Progress.next
  by_cases hsame : (call.width, call.height) = progress.size
  · rw [if_pos hsame]
    rw [prepareStep_same (Prod.mk.injEq .. ▸ hsame.trans h.size.symm)]
    exact h
  · have hother : ¬ (call.width = state.width ∧ call.height = state.height) := by
      rw [← h.size, Prod.mk.injEq] at hsame
      exact hsame
    rw [if_neg hsame, (prepareStep_other hother).1]
    refine ⟨rfl, fun step => ?_, ?_, ?_⟩
    · change (if call.environment.storesMask step then _ else state.masks step) = _
      rw [h.masks step]
      dsimp only
      split_ifs
      · rfl
      · rfl
    · change (if call.environment.storesScratch then _ else state.scratch) = _
      rw [h.scratch]
      cases call.environment.storesScratch <;> simp
    · change (if call.environment.storesOnes then _ else state.ones) = _
      rw [h.ones]
      cases call.environment.storesOnes <;> simp

theorem tracks_of_run (history : List PrepareCall) :
    Tracks (TransitionRuns.final prepareStep {} history) (progressOf history) := by
  have hrun : ∀ (state : Preparation) (progress : Progress), Tracks state progress →
      Tracks (TransitionRuns.final prepareStep state history)
        (history.foldl Progress.next progress) := by
    induction history with
    | nil => exact fun _ _ h => h
    | cons call history ih => exact fun state progress h => ih _ _ (h.step call)
  exact hrun {} {} Tracks.initial

theorem maskTensor_injective {rows columns rows' columns' : ℤ} {step : Fin 4}
    (h : maskTensor rows columns step = maskTensor rows' columns' step) :
    (rows, columns) = (rows', columns') :=
  congrArg (fun mask => (mask.height, mask.width)) h

theorem Tracks.populated_iff {state : Preparation} {progress : Progress}
    (h : Tracks state progress) (width height : ℤ) :
    PopulatedFor state width height ↔
      (∀ step, progress.maskFor step = some (sixteenths width height)) ∧
        progress.scratchStored = true ∧ progress.onesStored = true := by
  constructor
  · rintro ⟨hmasks, hscratch, hones⟩
    refine ⟨fun step => ?_, ?_, ?_⟩
    · have hmask := hmasks step
      rw [h.masks step] at hmask
      obtain ⟨rowsColumns, hsome, htensor⟩ := Option.map_eq_some_iff.mp hmask
      rw [hsome, sixteenths, ← maskTensor_injective htensor]
    · rw [h.scratch] at hscratch
      by_contra hstored
      rw [if_neg hstored] at hscratch
      exact nomatch hscratch
    · rw [h.ones] at hones
      by_contra hstored
      rw [if_neg hstored] at hones
      exact nomatch hones
  · rintro ⟨hmasks, hscratch, hones⟩
    exact ⟨fun step => by rw [h.masks step, hmasks step]; rfl, by rw [h.scratch, if_pos hscratch],
      by rw [h.ones, if_pos hones]⟩

/-- A preparation that succeeds has stored everything. -/
theorem advanced_populated {state : Preparation} {call : PrepareCall}
    (h : call.environment.storesOnes = true) :
    PopulatedFor (state.advanced call) call.width call.height := by
  have hscratch : call.environment.storesScratch = true := by
    simp only [Environment.storesOnes, Bool.and_eq_true] at h
    exact h.1.1.1
  have hmask (step : Fin 4) : call.environment.storesMask step = true := by
    simp only [Environment.storesScratch, Environment.storesMask, all_eq_of_last,
      Bool.and_eq_true, List.all_eq_true] at hscratch ⊢
    exact ⟨hscratch.1.1, fun earlier hearlier => by simp [hscratch.1.2 earlier hearlier]⟩
  refine ⟨fun step => ?_, ?_, ?_⟩
  · change (if call.environment.storesMask step then _ else _) = _
    rw [if_pos (hmask step)]
    rfl
  · change (if call.environment.storesScratch then _ else _) = _
    rw [if_pos hscratch]
  · change (if call.environment.storesOnes then _ else _) = _
    rw [if_pos h]

/-- After every history of calls with arbitrary sizes and failures, a call that succeeds
leaves all buffers populated for its size exactly when it is supported. -/
theorem prepare_populates_iff (history : List PrepareCall) (call : PrepareCall) :
    ((prepareStep (TransitionRuns.final prepareStep {} history) call).1 = .ok () →
      PopulatedFor (prepareStep (TransitionRuns.final prepareStep {} history) call).2
        call.width call.height) ↔ Supported (progressOf history) call := by
  have htracks := tracks_of_run history
  unfold Supported
  by_cases hsame : (call.width, call.height) = (progressOf history).size
  · rw [prepareStep_same (Prod.mk.injEq .. ▸ hsame.trans htracks.size.symm)]
    rw [htracks.populated_iff]
    exact ⟨fun h _ => h rfl, fun h _ => h hsame⟩
  · have hother : ¬ (call.width = (TransitionRuns.final prepareStep {} history).width ∧
        call.height = (TransitionRuns.final prepareStep {} history).height) := by
      rw [← htracks.size, Prod.mk.injEq] at hsame
      exact hsame
    obtain ⟨hstate, hresult⟩ := prepareStep_other hother
    rw [hstate]
    refine ⟨fun _ h => absurd h hsame, fun _ hok => advanced_populated ?_⟩
    rw [← hresult, hok]
    rfl

/-- An environment in which the first allocation fails. -/
def outOfMemory : Environment
  | .allocateMask 0 => .error ⟨.resourceExhausted, "mask", "tensorrt"⟩
  | _ => .ok ()

/-- After a preparation that failed at once, a call of the same size succeeds with no mask. -/
theorem failed_preparation_remembered :
    let history : List PrepareCall := [⟨64, 64, outOfMemory⟩]
    let call : PrepareCall := ⟨64, 64, fun _ => .ok ()⟩
    (prepareStep (TransitionRuns.final prepareStep {} history) call).1 = .ok () ∧
      ¬ PopulatedFor (prepareStep (TransitionRuns.final prepareStep {} history) call).2 64 64 := by
  refine ⟨rfl, fun h => ?_⟩
  exact nomatch h.masks 0

end Histories

end Nvcr.Uf.TensorRt
