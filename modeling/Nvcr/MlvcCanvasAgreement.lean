import Nvcr.DecimalTexts
import Nvcr.MlvcBundleLoading
import Nvcr.SessionRestarts

/-!
# The canvas of a frame

The models of a bundle stand in ascending order of their areas, so the first one that fits is the
smallest one. The placement repeats the decision between the two orientations, and the decoder
finds the model of the encoder through the identity in the stream.
-/

namespace Nvcr.Mlvc

open StatefulResults StatefulResults.Action TransitionRuns

section Selection

/-- The first match of an ordered list is a least one. -/
theorem find?_least {α β : Type} [Preorder β] {key : α → β} {matched : α → Bool} {l : List α}
    (hl : l.Pairwise fun a b => key a ≤ key b) {a : α} (h : l.find? matched = some a) :
    a ∈ l ∧ matched a = true ∧ ∀ b ∈ l, matched b = true → key a ≤ key b := by
  obtain ⟨hmatched, before, after, rfl, hbefore⟩ := List.find?_eq_some_iff_append.mp h
  refine ⟨List.mem_append_right _ List.mem_cons_self, hmatched, ?_⟩
  intro b hb hbmatched
  rcases List.mem_append.mp hb with hb | hb
  · have hnot := hbefore b hb
    simp [hbmatched] at hnot
  · rcases List.mem_cons.mp hb with rfl | hb
    · exact le_rfl
    · exact (List.pairwise_cons.mp (List.pairwise_append.mp hl).2.1).1 b hb

def BundleModel.area (model : BundleModel) : ℕ := model.parameters.width * model.parameters.height

/-- The canvas for a frame size: a smallest one of those that fit in its orientation, and one
that fits transposed only where none fits natively. -/
structure CanvasChoice (models : List BundleModel) (width height : ℕ) (model : BundleModel)
    (transposed : Bool) : Prop where
  mem : model ∈ models
  fits : fits width height transposed model = true
  least : ∀ other ∈ models, Mlvc.fits width height transposed other = true →
    model.area ≤ other.area
  native_first : transposed = true → ∀ other ∈ models, Mlvc.fits width height false other = false

theorem Bundle.bundleModels_ordered (bundle : Bundle) :
    bundle.bundleModels.Pairwise fun left right => left.area ≤ right.area := by
  refine List.pairwise_map.mpr (bundle.ordered.imp ?_)
  intro left right hprecedes
  unfold LoadedModel.precedes at hprecedes
  split at hprecedes
  · exact hprecedes.le
  · rename_i harea
    exact (not_not.mp harea).le

variable {models : List BundleModel} {width height : ℕ} {model : BundleModel}

theorem fits_iff {rotated : Bool} :
    fits width height rotated model = true ↔
      (if rotated then height else width) ≤ model.parameters.width ∧
      (if rotated then width else height) ≤ model.parameters.height := by
  simp [fits]

/-- A canvas that fits a frame of positive, even size takes it, natively where it can. -/
theorem place_of_fits (hw : width ≠ 0) (hh : height ≠ 0) (hweven : width % 2 = 0)
    (hheven : height % 2 = 0) {transposed : Bool} (hfits : fits width height transposed model = true)
    (hnative : transposed = true → fits width height false model = false) :
    place width height model.parameters =
      .ok ⟨width, height, model.parameters.width, model.parameters.height, transposed⟩ := by
  have hsize : ¬ (width = 0 ∨ height = 0 ∨ width % 2 ≠ 0 ∨ height % 2 ≠ 0) := by
    rintro (h | h | h | h)
    · exact hw h
    · exact hh h
    · exact h hweven
    · exact h hheven
  cases transposed with
  | false =>
      have hfit : width ≤ model.parameters.width ∧ height ≤ model.parameters.height := by
        simpa [fits] using hfits
      rw [place, if_neg hsize, if_pos hfit]
  | true =>
      have hfit : height ≤ model.parameters.width ∧ width ≤ model.parameters.height := by
        simpa [fits] using hfits
      have hnot : ¬ (width ≤ model.parameters.width ∧ height ≤ model.parameters.height) := by
        simpa [fits] using hnative rfl
      rw [place, if_neg hsize, if_neg hnot, if_pos hfit]

/-- A frame is placed only if its size is positive and even and the canvas fits it. -/
theorem place_eq_ok {placement : Placement}
    (h : place width height model.parameters = .ok placement) :
    (width ≠ 0 ∧ height ≠ 0 ∧ width % 2 = 0 ∧ height % 2 = 0) ∧
    placement = ⟨width, height, model.parameters.width, model.parameters.height,
      placement.transposed⟩ ∧
    fits width height placement.transposed model = true := by
  unfold place at h
  split_ifs at h with hsize hnative hrotated
  · cases h
    exact ⟨by omega, rfl, by simpa [fits] using hnative⟩
  · cases h
    exact ⟨by omega, rfl, by simpa [fits] using hrotated⟩

theorem selectModel_choice (hordered : models.Pairwise fun left right => left.area ≤ right.area)
    (h : selectModel models width height = .ok model) :
    ∃ transposed, CanvasChoice models width height model transposed := by
  unfold selectModel at h
  cases hnative : models.find? (fits width height false) with
  | some native =>
      simp only [hnative, Option.some_or] at h
      cases h
      obtain ⟨hmem, hfits, hleast⟩ := find?_least hordered hnative
      exact ⟨false, hmem, hfits, hleast, fun h => (nomatch h)⟩
  | none =>
      simp only [hnative, Option.none_or] at h
      cases hrotated : models.find? (fits width height true) with
      | none => simp [hrotated] at h
      | some rotated =>
          simp only [hrotated] at h
          cases h
          obtain ⟨hmem, hfits, hleast⟩ := find?_least hordered hrotated
          refine ⟨true, hmem, hfits, hleast, fun _ other hother => ?_⟩
          simpa using List.find?_eq_none.mp hnative other hother

theorem selectModel_of_fits {rotated : Bool} (hmem : model ∈ models)
    (hfits : fits width height rotated model = true) :
    ∃ selected, selectModel models width height = .ok selected := by
  unfold selectModel
  cases hnative : models.find? (fits width height false) with
  | some native => exact ⟨native, rfl⟩
  | none =>
      cases hrotated : models.find? (fits width height true) with
      | some rotated => exact ⟨rotated, rfl⟩
      | none =>
          exfalso
          cases rotated with
          | false => exact List.find?_eq_none.mp hnative model hmem hfits
          | true => exact List.find?_eq_none.mp hrotated model hmem hfits

/-- A frame that some canvas can take is given the preferred canvas, and is placed on it in the
orientation it was chosen for. -/
theorem selectModel_places (hordered : models.Pairwise fun left right => left.area ≤ right.area)
    (h : ∃ model ∈ models, ∃ placement, place width height model.parameters = .ok placement) :
    ∃ model placement, selectModel models width height = .ok model ∧
      place width height model.parameters = .ok placement ∧
      CanvasChoice models width height model placement.transposed := by
  obtain ⟨candidate, hmem, placement, hplace⟩ := h
  obtain ⟨⟨hw, hh, hweven, hheven⟩, -, hfits⟩ := place_eq_ok hplace
  obtain ⟨model, hselected⟩ := selectModel_of_fits hmem hfits
  obtain ⟨transposed, hchoice⟩ := selectModel_choice hordered hselected
  exact ⟨model, _, hselected, place_of_fits hw hh hweven hheven hchoice.fits fun ht =>
    hchoice.native_first ht model hchoice.mem, hchoice⟩

end Selection

section Identities

@[simp] theorem textBytes_append (a b : String) :
    textBytes (a ++ b) = textBytes a ++ textBytes b := by
  simp [textBytes]

/-- A text of byte-sized characters can be read back from its bytes. -/
theorem identityText_textBytes {text : String} (h : ∀ c ∈ text.toList, c.toNat < 256) :
    DecoderSession.identityText (textBytes text) = text := by
  apply String.toList_inj.mp
  rw [DecoderSession.identityText, textBytes, String.toList_ofList, List.map_map]
  refine (List.map_congr_left ?_).trans (List.map_id _)
  intro c hc
  have hbyte : (UInt8.ofNat c.toNat).toNat = c.toNat := by
    rw [UInt8.toNat_ofNat']
    exact Nat.mod_eq_of_lt (h c hc)
  simp [hbyte]

theorem canvasIdOf_toList (width height : ℕ) :
    (canvasIdOf width height).toList =
      Nat.toDigits 10 width ++ 'x' :: Nat.toDigits 10 height := by
  simp [canvasIdOf, toString, Nat.toList_repr]

theorem toNat_lt_of_isDigit {c : Char} (h : c.isDigit = true) : c.toNat < 256 := by
  simp only [Char.isDigit, Bool.and_eq_true, decide_eq_true_eq] at h
  have hle : c.val.toNat ≤ 57 := UInt32.le_iff_toNat_le.mp h.2
  exact hle.trans_lt (by decide)

theorem canvasIdOf_bytes (width height : ℕ) :
    ∀ c ∈ (canvasIdOf width height).toList, c.toNat < 256 := by
  intro c hc
  rw [canvasIdOf_toList, List.mem_append, List.mem_cons] at hc
  have hdigit : ∀ n, c ∈ Nat.toDigits 10 n → c.toNat < 256 := fun n h =>
    toNat_lt_of_isDigit (Nat.isDigit_of_mem_toDigits (by decide) (by decide) h)
  rcases hc with hc | rfl | hc
  · exact hdigit width hc
  · decide
  · exact hdigit height hc

variable {bundle : Bundle}

/-- Two models of a bundle with one canvas identifier are the same. -/
theorem Bundle.eq_of_canvasId {left right : LoadedModel} (hl : left ∈ bundle.models)
    (hr : right ∈ bundle.models) (h : left.canvasId = right.canvasId) : left = right := by
  have hnodup : (bundle.models.map LoadedModel.rank).Nodup :=
    List.pairwise_map.mpr (bundle.ordered.imp fun h => (LoadedModel.precedes_iff.mp h).ne)
  have hids := left.canvas_id_eq.symm.trans (h.trans right.canvas_id_eq)
  have hlists := congrArg String.toList hids
  rw [canvasIdOf_toList, canvasIdOf_toList, DecimalTexts.append_separator_inj
    (DecimalTexts.notMem_toDigits (by decide) _) (DecimalTexts.notMem_toDigits (by decide) _)]
    at hlists
  have hwidth : left.parameters.width = right.parameters.width :=
    DecimalTexts.toDigits_injective hlists.1
  have hheight : left.parameters.height = right.parameters.height :=
    DecimalTexts.toDigits_injective hlists.2
  refine List.inj_on_of_nodup_map hnodup hl hr ?_
  rw [LoadedModel.rank, LoadedModel.rank, LoadedModel.area, LoadedModel.area, h, hwidth, hheight]

/-- Two models of a bundle with one identity in the stream are the same. -/
theorem Bundle.eq_of_streamIdentity {left right : LoadedModel} (hl : left ∈ bundle.models)
    (hr : right ∈ bundle.models) (h : left.streamIdentity = right.streamIdentity) :
    left = right := by
  rw [bundle.identity_eq left hl, bundle.identity_eq right hr, textBytes_append,
    textBytes_append (bundle.name ++ "-")] at h
  have hids : textBytes left.canvasId = textBytes right.canvasId := List.append_cancel_left h
  refine bundle.eq_of_canvasId hl hr ?_
  have hleft : ∀ c ∈ left.canvasId.toList, c.toNat < 256 :=
    left.canvas_id_eq ▸ canvasIdOf_bytes _ _
  have hright : ∀ c ∈ right.canvasId.toList, c.toNat < 256 :=
    right.canvas_id_eq ▸ canvasIdOf_bytes _ _
  rw [← identityText_textBytes hleft, hids, identityText_textBytes hright]

theorem Bundle.bundleModel_eq {left right : BundleModel} (hl : left ∈ bundle.bundleModels)
    (hr : right ∈ bundle.bundleModels)
    (h : left.canvasId = right.canvasId ∨ left.streamIdentity = right.streamIdentity) :
    left = right := by
  obtain ⟨l, hlmem, rfl⟩ := List.mem_map.mp hl
  obtain ⟨r, hrmem, rfl⟩ := List.mem_map.mp hr
  rcases h with h | h
  · rw [bundle.eq_of_canvasId hlmem hrmem h]
  · rw [bundle.eq_of_streamIdentity hlmem hrmem h]

/-- The identity of a model of the bundle leads back to it. -/
theorem modelFor_streamIdentity {configuration : Configuration}
    (hmodels : configuration.models = bundle.bundleModels) {model : BundleModel}
    (hmem : model ∈ bundle.bundleModels) :
    DecoderSession.modelFor configuration model.streamIdentity = some model := by
  unfold DecoderSession.modelFor
  cases hlast : (configuration.models.filter fun other =>
      other.streamIdentity = model.streamIdentity).getLast? with
  | none =>
      have hempty := List.getLast?_eq_none_iff.mp hlast
      rw [List.filter_eq_nil_iff] at hempty
      have hnot := hempty model (hmodels ▸ hmem)
      simp at hnot
  | some other =>
      obtain ⟨hother, hidentity⟩ := List.mem_filter.mp (List.mem_of_getLast? hlast)
      exact congrArg some
        (bundle.bundleModel_eq (hmodels ▸ hother) hmem (.inr (of_decide_eq_true hidentity)))

end Identities

section Sessions

variable {Image Feature : Type} {bundle : Bundle} {configuration : Configuration}

/-- A selection has a model of the bundle and its placement of the frames. -/
def Fitted (configuration : Configuration) (selection : Selection) : Prop :=
  selection.model ∈ configuration.models ∧
  place selection.placement.frameWidth selection.placement.frameHeight
    selection.model.parameters = .ok selection.placement

namespace EncoderSession

variable {environment : Environment Image Feature} {width height : ℕ}

theorem chosen_new :
    (new : EncoderSession Feature).Fresh ∧
      Chosen configuration (new : EncoderSession Feature) :=
  ⟨fun _ => ⟨rfl, rfl⟩, fun _ hselection => (nomatch hselection)⟩

/-- In a reachable session the canvas in use is the selection for the size of its frames. -/
theorem canvasFor_spec (calls : List (Call Image Feature)) {selection : Selection}
    (h : canvasFor environment configuration (final (serve configuration) .new calls)
      width height = .ok selection) :
    selectModel configuration.models width height = .ok selection.model ∧
    place width height selection.model.parameters = .ok selection.placement ∧
    configuration.intraQp < selection.model.parameters.qpNum := by
  have hreached := invariant_of_step (chosen_serve configuration) chosen_new calls
  have hchoice := chosen_canvasFor hreached.2 h
  have hsize : selection.placement.frameWidth = width ∧
      selection.placement.frameHeight = height := by
    unfold canvasFor at h
    split at h
    · rename_i kept hkept
      cases h
      have hkeeps := (Option.filter_eq_some_iff.mp hkept).2
      simp only [Bool.and_eq_true, decide_eq_true_eq] at hkeeps
      exact ⟨hkeeps.1.symm, hkeeps.2.symm⟩
    · split at h
      · cases h
      · simp only [chooseCanvas, bind_eq_ok] at h
        obtain ⟨_, -, _, -, placement, hplace, _, -, _, -, _, -, _, -, _, -, _, -, h⟩ := h
        cases h
        exact place_size hplace
  rw [hsize.1, hsize.2] at hchoice
  simp only [canvasChoice, bind_eq_ok] at hchoice
  obtain ⟨model, hmodel, placement, hplace, _, hqp, hpure⟩ := hchoice
  have hrestarted := Except.ok.inj hpure
  have hsame : model = selection.model := congrArg Selection.model hrestarted
  have hplaced : placement = selection.placement := congrArg Selection.placement hrestarted
  subst hsame hplaced
  exact ⟨hmodel, hplace, require_eq_ok.mp hqp⟩

theorem canvasFor_of_selectCanvas (calls : List (Call Image Feature)) {selection : Selection}
    (h : (run (selectCanvas environment configuration width height)
      (final (serve configuration) .new calls)).1 = .ok selection) :
    canvasFor environment configuration (final (serve configuration) .new calls) width height =
      .ok selection := by
  have hfresh := (invariant_of_step (chosen_serve configuration) chosen_new calls).1
  rw [run_selectCanvas hfresh] at h
  cases hcanvas : canvasFor environment configuration (final (serve configuration) .new calls)
      width height with
  | error e => simp [hcanvas] at h
  | ok chosen => simpa [hcanvas] using h

end EncoderSession

namespace DecoderSession

variable {environment : Environment Image Feature}

/-- Every way of selecting a canvas places the frames of the access unit on a model of the
bundle. -/
theorem fitted_selectionFor (hmodels : configuration.models = bundle.bundleModels)
    {session : DecoderSession Feature} {unit : AccessUnit} {selection : Selection}
    (h : ∀ kept ∈ session.selected, Fitted configuration kept)
    (hselection : selectionFor environment configuration session unit = .ok selection) :
    Fitted configuration selection ∧ selection.model.streamIdentity = unit.modelId ∧
    selection.placement.frameWidth = unit.width.toNat ∧
    selection.placement.frameHeight = unit.height.toNat := by
  unfold selectionFor at hselection
  split at hselection
  · unfold intraSelection at hselection
    cases hmodel : modelFor configuration unit.modelId with
    | none => simp [hmodel] at hselection
    | some model =>
        have hmem := modelFor_mem hmodel
        have hidentity : model.streamIdentity = unit.modelId := by
          obtain ⟨-, h⟩ := List.mem_filter.mp (List.mem_of_getLast? hmodel)
          exact of_decide_eq_true h
        cases hplace : place unit.width.toNat unit.height.toNat model.parameters with
        | error e => simp [hmodel, hplace] at hselection
        | ok placement =>
            obtain ⟨hwidth, hheight⟩ := place_size hplace
            simp only [hmodel, hplace] at hselection
            cases hkept : session.selected.filter fun selection =>
                selection.model.canvasId = model.canvasId with
            | some kept =>
                obtain ⟨hselected, hid⟩ := Option.filter_eq_some_iff.mp hkept
                have hsame : kept.model = model :=
                  bundle.bundleModel_eq (hmodels ▸ (h kept hselected).1) (hmodels ▸ hmem)
                    (.inl (of_decide_eq_true hid))
                simp only [hkept] at hselection
                cases hselection
                subst hsame
                refine ⟨⟨hmem, ?_⟩, hidentity, hwidth, hheight⟩
                rw [hwidth, hheight]
                exact hplace
            | none =>
                simp only [hkept, bind_eq_ok] at hselection
                obtain ⟨_, -, _, -, _, -, _, -, _, -, _, -, hselection⟩ := hselection
                cases hselection
                refine ⟨⟨hmem, ?_⟩, hidentity, hwidth, hheight⟩
                rw [hwidth, hheight]
                exact hplace
  · obtain ⟨hselected, -⟩ := predictedSelection_eq_ok hselection
    refine ⟨h selection hselected, ?_⟩
    unfold predictedSelection at hselection
    cases hs : session.selected.filter fun selection => selection.scheduler.started with
    | none => simp [hs] at hselection
    | some kept =>
        simp only [hs] at hselection
        split at hselection
        · cases hselection
        · rename_i hsame
          cases hselection
          simp only [ne_eq, not_or, not_not] at hsame
          exact ⟨hsame.1.symm, hsame.2.1.symm, hsame.2.2.symm⟩

theorem fitted_kept (hmodels : configuration.models = bundle.bundleModels) :
    KeptBySelection Image Feature configuration (Fitted configuration) where
  selectionFor _ _ _ _ h hselection := (fitted_selectionFor hmodels h hselection).1
  commit _ _ h := h
  reset _ h := h

/-- In a reachable session the selection for an access unit has the model of its identity and
places frames of its size. -/
theorem selectionFor_spec (hmodels : configuration.models = bundle.bundleModels)
    (calls : List (Call Image Feature)) {unit : AccessUnit} {selection : Selection}
    (h : selectionFor environment configuration (final (serve configuration) .new calls) unit =
      .ok selection) :
    selection.model ∈ bundle.bundleModels ∧ selection.model.streamIdentity = unit.modelId ∧
    place unit.width.toNat unit.height.toNat selection.model.parameters =
      .ok selection.placement := by
  have hnew : ∀ kept ∈ (new : DecoderSession Feature).selected, Fitted configuration kept :=
    fun _ hkept => (nomatch hkept)
  have hreached := invariant_of_step (fitted_kept hmodels).serve hnew calls
  obtain ⟨⟨hmem, hplace⟩, hidentity, hwidth, hheight⟩ := fitted_selectionFor hmodels hreached h
  rw [hwidth, hheight] at hplace
  exact ⟨hmodels ▸ hmem, hidentity, hplace⟩

end DecoderSession

/-- An encoder selection, and the selections of decoders for access units that name its model and
have its frame size. -/
structure SharedCanvas (Image Feature : Type) (bundle : Bundle) (decoding : Configuration)
    (width height : ℕ) (selection : Selection) : Prop where
  model : selectModel bundle.bundleModels width height = .ok selection.model
  placement : place width height selection.model.parameters = .ok selection.placement
  same : ∀ (environment : Environment Image Feature)
    (calls : List (DecoderSession.Call Image Feature)) (unit : AccessUnit) (decoded : Selection),
    unit.modelId = selection.model.streamIdentity → unit.width.toNat = width →
    unit.height.toNat = height →
    (run (DecoderSession.selectCanvas environment decoding unit)
      (final (DecoderSession.serve decoding) .new calls)).1 = .ok decoded →
    decoded.model = selection.model ∧ decoded.placement = selection.placement
  available : ∀ (environment : Environment Image Feature)
    (calls : List (DecoderSession.Call Image Feature)) (unit : AccessUnit),
    unit.modelId = selection.model.streamIdentity → unit.width.toNat = width →
    unit.height.toNat = height → unit.frameType = .intra → environment.Provides →
    ∃ decoded, (run (DecoderSession.selectCanvas environment decoding unit)
      (final (DecoderSession.serve decoding) .new calls)).1 = .ok decoded

theorem DecoderSession.run_selectCanvas_fst {environment : Environment Image Feature}
    {unit : AccessUnit} {session : DecoderSession Feature} :
    (run (DecoderSession.selectCanvas environment configuration unit) session).1 =
      DecoderSession.selectionFor environment configuration session unit := by
  simp only [DecoderSession.selectCanvas, run_bind, run_gets, run_lift, id]
  cases DecoderSession.selectionFor environment configuration session unit <;> rfl

/-- An intra access unit whose model is known and takes its frames is refused only by the
environment. -/
theorem DecoderSession.intraSelection_of_provides {environment : Environment Image Feature}
    {unit : AccessUnit} {session : DecoderSession Feature} {model : BundleModel}
    {placement : Placement} (hmodel : DecoderSession.modelFor configuration unit.modelId = some model)
    (hplace : place unit.width.toNat unit.height.toNat model.parameters = .ok placement)
    (hprovides : environment.Provides) :
    ∃ selection,
      DecoderSession.intraSelection environment configuration session unit = .ok selection := by
  unfold DecoderSession.intraSelection
  simp only [hmodel, hplace]
  cases session.selected.filter fun selection => selection.model.canvasId = model.canvasId with
  | some kept => exact ⟨_, rfl⟩
  | none =>
      refine ⟨⟨model, placement, .new (LoopParameters.fromModel model.parameters)⟩, ?_⟩
      simp only [hprovides.loadCanvas, hprovides.allocate, ok_bind]
      rfl

/-- Over one bundle, a frame is given the preferred canvas that takes it, and whatever was coded
before, the two sides of a stream use the same model and the same placement. -/
theorem canvas_selection_agrees {Image Feature Image' Feature' : Type} (bundle : Bundle)
    (encoding decoding : Configuration) (hencoding : encoding.models = bundle.bundleModels)
    (hdecoding : decoding.models = bundle.bundleModels) (width height : ℕ) :
    ((∃ model ∈ bundle.bundleModels, ∃ placement,
        place width height model.parameters = .ok placement) →
      ∃ model placement, selectModel bundle.bundleModels width height = .ok model ∧
        place width height model.parameters = .ok placement ∧
        CanvasChoice bundle.bundleModels width height model placement.transposed) ∧
    ∀ (environment : Environment Image Feature) (calls : List (EncoderSession.Call Image Feature))
      (selection : Selection),
      (run (EncoderSession.selectCanvas environment encoding width height)
        (final (EncoderSession.serve encoding) .new calls)).1 = .ok selection →
      SharedCanvas Image' Feature' bundle decoding width height selection := by
  refine ⟨selectModel_places bundle.bundleModels_ordered, ?_⟩
  intro environment calls selection hselection
  have hcanvas := EncoderSession.canvasFor_of_selectCanvas calls hselection
  obtain ⟨hmodel, hplace, -⟩ := EncoderSession.canvasFor_spec calls hcanvas
  rw [hencoding] at hmodel
  obtain ⟨transposed, hchoice⟩ := selectModel_choice bundle.bundleModels_ordered hmodel
  refine ⟨hmodel, hplace, ?_, ?_⟩
  · intro environment' calls' unit decoded hidentity hwidth hheight hdecoded
    rw [DecoderSession.run_selectCanvas_fst] at hdecoded
    obtain ⟨hmem, hnamed, hplaced⟩ := DecoderSession.selectionFor_spec hdecoding calls' hdecoded
    have hsame : decoded.model = selection.model :=
      bundle.bundleModel_eq hmem hchoice.mem (.inr (hnamed.trans hidentity))
    rw [hwidth, hheight, hsame, hplace] at hplaced
    exact ⟨hsame, (Except.ok.inj hplaced).symm⟩
  · intro environment' calls' unit hidentity hwidth hheight hintra hprovides
    rw [DecoderSession.run_selectCanvas_fst, DecoderSession.selectionFor, if_pos hintra]
    have hfound : DecoderSession.modelFor decoding unit.modelId = some selection.model := by
      rw [hidentity]
      exact modelFor_streamIdentity hdecoding hchoice.mem
    have hplaced : place unit.width.toNat unit.height.toNat selection.model.parameters =
        .ok selection.placement := by
      rw [hwidth, hheight]
      exact hplace
    exact DecoderSession.intraSelection_of_provides hfound hplaced hprovides

/-- A bundle with canvases of both orientations. -/
def exampleBundle : Bundle :=
  ((loadBundle (exampleFiles "demo" [(64, 32), (32, 64)]) "b").toOption).get (by decide +kernel)

/-- Settings for the models of a bundle. -/
def exampleSettings (bundle : Bundle) : Configuration where
  models := bundle.bundleModels
  intraQp := 1
  gopSize := 2
  maxPacketBytes := 64
  gop_size_ne := groupsOfTwo_ne

/-- A frame that one canvas takes natively and the one before it only transposed. -/
theorem example_canvas_agrees :
    ((∃ model ∈ exampleBundle.bundleModels, ∃ placement,
        place 48 32 model.parameters = .ok placement) →
      ∃ model placement, selectModel exampleBundle.bundleModels 48 32 = .ok model ∧
        place 48 32 model.parameters = .ok placement ∧
        CanvasChoice exampleBundle.bundleModels 48 32 model placement.transposed) ∧
    ∀ (environment : Environment Unit ℕ) (calls : List (EncoderSession.Call Unit ℕ))
      (selection : Selection),
      (run (EncoderSession.selectCanvas environment (exampleSettings exampleBundle) 48 32)
        (final (EncoderSession.serve (exampleSettings exampleBundle)) .new calls)).1 = .ok selection →
      SharedCanvas Unit ℕ exampleBundle (exampleSettings exampleBundle) 48 32 selection :=
  canvas_selection_agrees exampleBundle (exampleSettings exampleBundle)
    (exampleSettings exampleBundle) rfl rfl 48 32

example : (selectModel exampleBundle.bundleModels 48 32).map BundleModel.canvasId =
    .ok "64x32" := by decide +kernel

end Sessions

end Nvcr.Mlvc
