import Nvcr.MlvcBundle

/-!
# MLVC frame scheduling and reference store

Coded indices are natural numbers: the 64-bit counter of the source restarts at every intra
frame and is never exhausted by a sequence.
-/

namespace Nvcr.Mlvc

open RawParameters

inductive FrameClass where
  | intra
  | predicted
  | ltrRecovery
  deriving DecidableEq, Repr

structure LoopParameters where
  iframePeriod : Option ℕ
  resetPeriod : Option ℕ
  ltrStartIdx : ℕ
  ltrPeriod : Option ℕ
  proactiveLtrRecovery : Bool
  iframe_period_ne : NonzeroPeriod iframePeriod
  reset_period_ne : NonzeroPeriod resetPeriod
  ltr_period_ne : NonzeroPeriod ltrPeriod

def LoopParameters.fromModel (model : ModelParameters) : LoopParameters where
  iframePeriod := model.iframePeriod
  resetPeriod := model.resetPeriod
  ltrStartIdx := model.ltrStartIdx
  ltrPeriod := model.ltrPeriod
  proactiveLtrRecovery := true
  iframe_period_ne := model.iframe_period_ne
  reset_period_ne := model.reset_period_ne
  ltr_period_ne := model.ltr_period_ne

/-- The GOP size that leaves the I period to the model. -/
def useModelIframePeriod : ℕ := 4294967295

/-- The encoder's loop: a GOP size other than the marker replaces the model's I period. The
configuration rejects a zero GOP size. -/
def LoopParameters.withGopSize (loop : LoopParameters) (gopSize : ℕ) (h : gopSize ≠ 0) :
    LoopParameters :=
  if gopSize ≠ useModelIframePeriod then
    { loop with
      iframePeriod := some gopSize
      iframe_period_ne := by
        intro n hn
        cases hn
        exact Nat.pos_of_ne_zero h }
  else
    loop

structure FramePlan where
  frameClass : FrameClass
  codedIndex : ℕ
  reference : Option ℕ
  markAsLtr : Bool
  featureReset : Bool
  deriving DecidableEq, Repr

namespace FramePlan

/-- Only a plain P frame that changes no reference state may be dropped. -/
def droppable (plan : FramePlan) : Bool :=
  plan.frameClass = .predicted && !plan.markAsLtr && !plan.featureReset

/-- The intra flag that the access unit of the frame carries. -/
def isIntra (plan : FramePlan) : Bool := plan.frameClass = .intra

end FramePlan

structure FrameScheduler where
  parameters : LoopParameters
  started : Bool
  codedIndex : ℕ
  latestLtr : Option ℕ

namespace FrameScheduler

/-- A scheduler that has coded nothing. -/
def new (parameters : LoopParameters) : FrameScheduler := ⟨parameters, false, 0, none⟩

def divides (period : Option ℕ) (index : ℕ) : Bool :=
  match period with
  | none => false
  | some n => index % n = 0

def marksAsLtr (parameters : LoopParameters) (index : ℕ) : Bool :=
  match parameters.ltrPeriod with
  | none => false
  | some n =>
      n > 0 && (index = parameters.ltrStartIdx || (index > parameters.ltrStartIdx && index % n = 0))

/-- Whether the next frame is intra: the encoder lets the I period decide, the decoder passes
the flag of the stream. -/
def intraNext (scheduler : FrameScheduler) (streamIntra : Option Bool) : Bool :=
  streamIntra.getD
    (!scheduler.started || divides scheduler.parameters.iframePeriod scheduler.codedIndex)

/-- The plan of a frame once its kind, coded index and latest long-term reference are known. -/
def planAt (parameters : LoopParameters) (intra : Bool) (index : ℕ) (latestLtr : Option ℕ) :
    FramePlan :=
  let featureReset := divides parameters.resetPeriod (index + 1)
  let markAsLtr := marksAsLtr parameters index
  if intra then
    ⟨.intra, index, none, markAsLtr, featureReset⟩
  else if parameters.proactiveLtrRecovery && markAsLtr && latestLtr.isSome then
    ⟨.ltrRecovery, index, latestLtr, markAsLtr, featureReset⟩
  else
    -- The sessions never plan a predicted frame before the first intra frame, so the index is
    -- positive here.
    ⟨.predicted, index, some (index - 1), markAsLtr, featureReset⟩

def plan (scheduler : FrameScheduler) (streamIntra : Option Bool) : FramePlan :=
  if scheduler.intraNext streamIntra then
    planAt scheduler.parameters true 0 none
  else
    planAt scheduler.parameters false scheduler.codedIndex scheduler.latestLtr

/-- Record a coded frame. -/
def commit (scheduler : FrameScheduler) (plan : FramePlan) : FrameScheduler :=
  let latestLtr := if plan.frameClass = .intra then none else scheduler.latestLtr
  { scheduler with
    started := true
    latestLtr := if plan.markAsLtr then some plan.codedIndex else latestLtr
    codedIndex := plan.codedIndex + 1 }

def reset (scheduler : FrameScheduler) : FrameScheduler :=
  { scheduler with started := false, codedIndex := 0, latestLtr := none }

theorem planAt_isIntra (p : LoopParameters) (intra : Bool) (index : ℕ) (latestLtr : Option ℕ) :
    (planAt p intra index latestLtr).isIntra = intra := by
  cases intra with
  | true => rfl
  | false =>
      simp only [planAt, FramePlan.isIntra]
      split
      · contradiction
      · split <;> rfl

@[simp] theorem planAt_codedIndex (p : LoopParameters) (intra : Bool) (index : ℕ)
    (latestLtr : Option ℕ) : (planAt p intra index latestLtr).codedIndex = index := by
  simp only [planAt]
  split
  · rfl
  · split <;> rfl

@[simp] theorem planAt_markAsLtr (p : LoopParameters) (intra : Bool) (index : ℕ)
    (latestLtr : Option ℕ) :
    (planAt p intra index latestLtr).markAsLtr = marksAsLtr p index := by
  simp only [planAt]
  split
  · rfl
  · split <;> rfl

@[simp] theorem intraNext_some (scheduler : FrameScheduler) (intra : Bool) :
    scheduler.intraNext (some intra) = intra := rfl

theorem plan_of_intra {scheduler : FrameScheduler} {streamIntra : Option Bool}
    (h : scheduler.intraNext streamIntra = true) :
    scheduler.plan streamIntra = planAt scheduler.parameters true 0 none := by
  rw [plan, if_pos h]

theorem plan_of_not_intra {scheduler : FrameScheduler} {streamIntra : Option Bool}
    (h : scheduler.intraNext streamIntra = false) :
    scheduler.plan streamIntra =
      planAt scheduler.parameters false scheduler.codedIndex scheduler.latestLtr := by
  rw [plan, if_neg (by simp [h])]

theorem plan_isIntra (scheduler : FrameScheduler) (streamIntra : Option Bool) :
    (scheduler.plan streamIntra).isIntra = scheduler.intraNext streamIntra := by
  cases h : scheduler.intraNext streamIntra with
  | true => rw [plan_of_intra h, planAt_isIntra]
  | false => rw [plan_of_not_intra h, planAt_isIntra]

theorem intraNext_eq_false {scheduler : FrameScheduler} {streamIntra : Option Bool}
    (h : (scheduler.plan streamIntra).frameClass ≠ .intra) :
    scheduler.intraNext streamIntra = false := by
  rw [← plan_isIntra]
  simpa [FramePlan.isIntra] using h

theorem intraNext_eq_true {scheduler : FrameScheduler} {streamIntra : Option Bool}
    (h : (scheduler.plan streamIntra).frameClass = .intra) :
    scheduler.intraNext streamIntra = true := by
  rw [← plan_isIntra]
  simpa [FramePlan.isIntra] using h

theorem plan_codedIndex_of_not_intra {scheduler : FrameScheduler} {streamIntra : Option Bool}
    (h : (scheduler.plan streamIntra).frameClass ≠ .intra) :
    (scheduler.plan streamIntra).codedIndex = scheduler.codedIndex := by
  rw [plan_of_not_intra (intraNext_eq_false h), planAt_codedIndex]

theorem plan_reference_of_intra {scheduler : FrameScheduler} {streamIntra : Option Bool}
    (h : (scheduler.plan streamIntra).frameClass = .intra) :
    (scheduler.plan streamIntra).reference = none := by
  rw [plan_of_intra (intraNext_eq_true h)]
  rfl

/-- A predicted frame refers to the previous frame or to the latest long-term reference. -/
theorem plan_reference {scheduler : FrameScheduler} {streamIntra : Option Bool}
    (h : (scheduler.plan streamIntra).frameClass ≠ .intra) :
    (scheduler.plan streamIntra).reference = some (scheduler.codedIndex - 1) ∨
    ∃ l ∈ scheduler.latestLtr, (scheduler.plan streamIntra).reference = some l := by
  rw [plan_of_not_intra (intraNext_eq_false h)]
  simp only [planAt, Bool.false_eq_true, if_false]
  split
  · rename_i hltr
    obtain ⟨l, hl⟩ := Option.isSome_iff_exists.mp (Bool.and_eq_true_iff.mp hltr).2
    exact .inr ⟨l, hl, hl⟩
  · exact .inl rfl

/-- A frame planned as predicted, past the decoder's guard, continues a started sequence. -/
theorem started_of_not_intra {scheduler : FrameScheduler} {streamIntra : Option Bool}
    (h : (scheduler.plan streamIntra).frameClass ≠ .intra)
    (hguard : ¬ (streamIntra = some false ∧ scheduler.started = false)) :
    scheduler.started = true := by
  have hnext := intraNext_eq_false h
  cases streamIntra with
  | none => simp_all [intraNext]
  | some intra => simp_all [intraNext]

@[simp] theorem commit_parameters (scheduler : FrameScheduler) (plan : FramePlan) :
    (scheduler.commit plan).parameters = scheduler.parameters := rfl

@[simp] theorem commit_started (scheduler : FrameScheduler) (plan : FramePlan) :
    (scheduler.commit plan).started = true := rfl

@[simp] theorem commit_codedIndex (scheduler : FrameScheduler) (plan : FramePlan) :
    (scheduler.commit plan).codedIndex = plan.codedIndex + 1 := rfl

end FrameScheduler

structure Entry (Feature : Type*) where
  feature : Feature
  longTerm : Bool
  deriving DecidableEq, Repr

/-- The entries in order of their coded index. -/
@[ext]
structure ReferenceStore (Feature : Type*) where
  entries : List (ℕ × Entry Feature)
  sorted : (entries.map Prod.fst).Pairwise (· < ·)

namespace ReferenceStore

variable {Feature : Type*}

def shortTermCapacity : ℕ := 1

def longTermCapacity : ℕ := 3

def clear : ReferenceStore Feature := ⟨[], .nil⟩

instance : Inhabited (ReferenceStore Feature) := ⟨clear⟩

/-- Insertion into the ordered map, replacing an entry of the same index. -/
def insertOrAssign (index : ℕ) (entry : Entry Feature) :
    List (ℕ × Entry Feature) → List (ℕ × Entry Feature)
  | [] => [(index, entry)]
  | (k, e) :: rest =>
      if index < k then
        (index, entry) :: (k, e) :: rest
      else if index = k then
        (index, entry) :: rest
      else
        (k, e) :: insertOrAssign index entry rest

/-- The indices of one kind, oldest first. -/
def matching (longTerm : Bool) (entries : List (ℕ × Entry Feature)) : List ℕ :=
  (entries.filter fun e => e.2.longTerm = longTerm).map Prod.fst

/-- Drop the oldest entries of one kind beyond the capacity. -/
def pruneEntries (longTerm : Bool) (capacity : ℕ) (entries : List (ℕ × Entry Feature)) :
    List (ℕ × Entry Feature) :=
  let indices := matching longTerm entries
  if indices.length ≤ capacity then
    entries
  else
    entries.filter fun e => e.1 ∉ indices.take (indices.length - capacity)

theorem insertOrAssign_keys_mem (index : ℕ) (entry : Entry Feature) {k : ℕ}
    {entries : List (ℕ × Entry Feature)} (h : k ∈ (insertOrAssign index entry entries).map Prod.fst) :
    k = index ∨ k ∈ entries.map Prod.fst := by
  induction entries with
  | nil => simpa [insertOrAssign] using h
  | cons e rest ih =>
      obtain ⟨j, e⟩ := e
      unfold insertOrAssign at h
      split at h
      · simpa using h
      · split at h
        · simp only [List.map_cons, List.mem_cons] at h ⊢
          tauto
        · simp only [List.map_cons, List.mem_cons] at h ⊢
          rcases h with h | h
          · exact .inr (.inl h)
          · rcases ih h with h | h
            · exact .inl h
            · exact .inr (.inr h)

theorem insertOrAssign_sorted (index : ℕ) (entry : Entry Feature)
    {entries : List (ℕ × Entry Feature)} (hs : (entries.map Prod.fst).Pairwise (· < ·)) :
    ((insertOrAssign index entry entries).map Prod.fst).Pairwise (· < ·) := by
  induction entries with
  | nil => simp [insertOrAssign]
  | cons e rest ih =>
      obtain ⟨j, e⟩ := e
      simp only [List.map_cons, List.pairwise_cons] at hs
      unfold insertOrAssign
      split
      · rename_i hlt
        simp only [List.map_cons, List.pairwise_cons, List.mem_cons, forall_eq_or_imp]
        exact ⟨⟨hlt, fun k hk => hlt.trans (hs.1 k hk)⟩, hs⟩
      · split
        · rename_i heq
          simp only [List.map_cons, List.pairwise_cons, heq]
          exact hs
        · simp only [List.map_cons, List.pairwise_cons]
          refine ⟨fun k hk => ?_, ih hs.2⟩
          rcases insertOrAssign_keys_mem index entry hk with rfl | hk
          · omega
          · exact hs.1 k hk

theorem pruneEntries_sublist (longTerm : Bool) (capacity : ℕ)
    (entries : List (ℕ × Entry Feature)) :
    (pruneEntries longTerm capacity entries).Sublist entries := by
  simp only [pruneEntries]
  split
  · exact List.Sublist.refl entries
  · exact List.filter_sublist

def prune (store : ReferenceStore Feature) (longTerm : Bool) (capacity : ℕ) :
    ReferenceStore Feature where
  entries := pruneEntries longTerm capacity store.entries
  sorted := store.sorted.sublist ((pruneEntries_sublist longTerm capacity store.entries).map _)

def insert (store : ReferenceStore Feature) (index : ℕ) (entry : Entry Feature) :
    ReferenceStore Feature where
  entries := insertOrAssign index entry store.entries
  sorted := insertOrAssign_sorted index entry store.sorted

def save (store : ReferenceStore Feature) (codedIndex : ℕ) (feature : Feature)
    (longTerm : Bool) : ReferenceStore Feature :=
  ((store.insert codedIndex ⟨feature, longTerm⟩).prune false shortTermCapacity).prune true
    longTermCapacity

def find (store : ReferenceStore Feature) (codedIndex : ℕ) : Option Feature :=
  (store.entries.lookup codedIndex).map Entry.feature

def size (store : ReferenceStore Feature) : ℕ := store.entries.length

end ReferenceStore

/-- The Q index after the shift of the frame's position, in 32-bit arithmetic. -/
def shiftedQIndex (model : ModelParameters) (qIndex codedIndex : ℕ) : ℕ :=
  (qIndex + model.qpShift.getD
    (model.frameIndexMap.getD ((codedIndex + 1) % model.frameIndexMap.length) 0) 0) % 2 ^ 32

/-- A small canvas with an I period of 6, a feature reset every 4 frames, long-term references
every 2 frames, and a two-step Q cycle. -/
def smallModel : ModelParameters where
  width := 32
  height := 32
  qpNum := 4
  totalQpNum := 8
  frameIndexMap := [0, 1]
  qpShift := [0, 3]
  featureChannels := 1
  latentChannels := 2
  hyperpriorChannels := 2
  downsampleFeature := 8
  downsampleLatent := 16
  downsampleHyperprior := 4
  yScaleRepeat := 1
  iframePeriod := some 6
  resetPeriod := some 4
  ltrStartIdx := 0
  ltrPeriod := some 2
  shapes_valid := by decide
  qp_num_ne := by decide
  frame_index_map_ne := by decide
  frame_index_map_lt := by decide
  shifted_lt := by decide
  iframe_period_ne := by decide
  reset_period_ne := by decide
  ltr_period_ne := by decide

end Nvcr.Mlvc
