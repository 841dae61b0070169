import Nvcr.MlvcBundleLoading
import Nvcr.RowMajorIndices

/-!
# What accepted MLVC metadata guarantees

The reader of the metadata checks the Q schedule in 64-bit arithmetic, so every later use of it is
in range. The shape of the latents is computed in 32-bit arithmetic from fields that are not
bounded, so it is right exactly below the limits stated here.
-/

namespace Nvcr.Mlvc

open StatefulResults RowMajorIndices

section Reader

theorem asUint_lt {value : Value} {whereName : String} {n : ℕ}
    (h : asUint value whereName = .ok n) : n < 2 ^ 32 := by
  unfold asUint at h
  split at h
  · split at h
    · cases h
    · rename_i hrange
      cases h
      omega
  · cases h

theorem uintMember_lt {object : Value} {key whereName : String} {n : ℕ}
    (h : uintMember object key whereName = .ok n) : n < 2 ^ 32 := by
  obtain ⟨value, -, h⟩ := bind_eq_ok.mp h
  exact asUint_lt h

theorem readParameters_totalQpNum_lt {metadata : Value} {whereName : String} {p : RawParameters}
    (h : readParameters metadata whereName = .ok p) : p.totalQpNum < 2 ^ 32 := by
  simp only [readParameters, bind_eq_ok] at h
  obtain ⟨_, -, _, -, _, -, totalQpNum, htotal, _, -, _, -, _, -, _, -, _, -, _, -, _, -, _, -, _, -,
    _, -, _, -, _, -, _, -, h⟩ := h
  cases h
  exact uintMember_lt htotal

theorem acceptParameters_eq_ok {p : RawParameters} {whereName : String} {model : ModelParameters}
    (h : acceptParameters p whereName = .ok model) : model.toRawParameters = p := by
  unfold acceptParameters at h
  split_ifs at h
  cases h
  rfl

theorem parseParameters_totalQpNum_lt {metadata : Value} {whereName : String}
    {model : ModelParameters} (h : parseParameters metadata whereName = .ok model) :
    model.totalQpNum < 2 ^ 32 := by
  simp only [parseParameters, bind_eq_ok] at h
  obtain ⟨p, hread, _, -, haccept⟩ := h
  rw [acceptParameters_eq_ok haccept]
  exact readParameters_totalQpNum_lt hread

end Reader

section Uses

/-- The dividend of a 32-bit division rounded up. -/
def roundedUp32 (value stride : ℕ) : ℕ := (value + stride + 2 ^ 32 - 1) % 2 ^ 32

variable (model : ModelParameters)

/-- The shape of the latents is computed without a division by zero and without a wrap. -/
structure SafeShape : Prop where
  stride_ne : zStride model ≠ 0
  stride_exact : zStride model = model.downsampleLatent * model.downsampleHyperprior
  height_exact : roundedUp32 model.height (zStride model) = model.height + zStride model - 1
  width_exact : roundedUp32 model.width (zStride model) = model.width + zStride model - 1

/-- The 64-bit indices of the scale extraction are inside the stage output that it reads and the
scale output that it writes, whose sizes are 64-bit products. -/
structure SafeIndexes : Prop where
  sources : ∀ channel < (latentShape model).yChannels + (latentShape model).yChannels,
    ∀ y < (latentShape model).yHeight, ∀ x < (latentShape model).yWidth,
      scaleSource model channel y x % 2 ^ 64 < (latentShape model).zElements % 2 ^ 64
  outputs : ∀ channel < (latentShape model).yChannels,
    ∀ y < (latentShape model).yHeight, ∀ x < (latentShape model).yWidth,
      rowMajor (latentShape model).yHeight (latentShape model).yWidth channel y x % 2 ^ 64 <
        (latentShape model).yElements % 2 ^ 64

/-- The position of the frame index map that a coded index selects. -/
def frameSlot (codedIndex : ℕ) : ℕ := (codedIndex + 1) % model.frameIndexMap.length

/-- The Q schedule is indexed in range, and a shifted Q index is exact and below the total. -/
structure SafeSchedule : Prop where
  slot : ∀ codedIndex, frameSlot model codedIndex < model.frameIndexMap.length
  shift : ∀ codedIndex,
    model.frameIndexMap.getD (frameSlot model codedIndex) 0 < model.qpShift.length
  exact : ∀ codedIndex, ∀ q < model.qpNum, shiftedQIndex model q codedIndex =
    q + model.qpShift.getD (model.frameIndexMap.getD (frameSlot model codedIndex) 0) 0
  below : ∀ codedIndex, ∀ q < model.qpNum, shiftedQIndex model q codedIndex < model.totalQpNum

structure SafeMetadata : Prop where
  shape : SafeShape model
  indexes : SafeIndexes model
  schedule : SafeSchedule model

/-- The stride of the hyperprior latent as an integer. -/
def strideOf : ℕ := model.downsampleLatent * model.downsampleHyperprior

/-- The sizes for which the arithmetic on the shapes is exact. -/
structure Bounded : Prop where
  stride : strideOf model < 2 ^ 32
  height : model.height + strideOf model ≤ 2 ^ 32
  width : model.width + strideOf model ≤ 2 ^ 32
  outputs : model.latentChannels / 2 * (model.height / model.downsampleLatent) *
    (model.width / model.downsampleLatent) < 2 ^ 64
  sources : model.latentChannels / model.yScaleRepeat * (model.height ⌈/⌉ strideOf model) *
      (model.width ⌈/⌉ strideOf model) ≤
    (model.hyperpriorChannels * (model.height ⌈/⌉ strideOf model) *
      (model.width ⌈/⌉ strideOf model)) % 2 ^ 64

end Uses

section Schedule

variable {model : ModelParameters}

theorem safeSchedule (htotal : model.totalQpNum < 2 ^ 32) : SafeSchedule model := by
  have hslot : ∀ codedIndex, frameSlot model codedIndex < model.frameIndexMap.length :=
    fun codedIndex => Nat.mod_lt _ (List.length_pos_of_ne_nil model.frame_index_map_ne)
  have hmem : ∀ codedIndex,
      model.frameIndexMap.getD (frameSlot model codedIndex) 0 ∈ model.frameIndexMap := by
    intro codedIndex
    rw [List.getD, List.getElem?_eq_getElem (hslot codedIndex)]
    exact List.getElem_mem _
  have hlt : ∀ codedIndex, ∀ q < model.qpNum,
      q + model.qpShift.getD (model.frameIndexMap.getD (frameSlot model codedIndex) 0) 0 <
        model.totalQpNum :=
    fun codedIndex q hq => model.shifted_index_lt (hmem codedIndex) hq
  have hexact : ∀ codedIndex, ∀ q < model.qpNum, shiftedQIndex model q codedIndex =
      q + model.qpShift.getD (model.frameIndexMap.getD (frameSlot model codedIndex) 0) 0 :=
    fun codedIndex q hq => Nat.mod_eq_of_lt ((hlt codedIndex q hq).trans htotal)
  refine ⟨hslot, fun codedIndex => model.frame_index_map_lt _ (hmem codedIndex), hexact, ?_⟩
  intro codedIndex q hq
  rw [hexact codedIndex q hq]
  exact hlt codedIndex q hq

end Schedule

section Shape

variable {model : ModelParameters}

theorem roundedUp32_exact_iff {value stride : ℕ} (hvalue : 0 < value) :
    roundedUp32 value stride = value + stride - 1 ↔ value + stride ≤ 2 ^ 32 := by
  unfold roundedUp32
  omega

theorem strideOf_pos : 0 < strideOf model := by
  obtain ⟨-, -, hlatent, -, hhyperprior, -⟩ := model.shapes_valid
  exact Nat.mul_pos hlatent hhyperprior

theorem safeShape_iff : SafeShape model ↔
    strideOf model < 2 ^ 32 ∧ model.height + strideOf model ≤ 2 ^ 32 ∧
      model.width + strideOf model ≤ 2 ^ 32 := by
  obtain ⟨hwidth, hheight, -⟩ := model.shapes_valid
  constructor
  · rintro ⟨-, hstride, hh, hw⟩
    rw [hstride] at hh hw
    refine ⟨?_, (roundedUp32_exact_iff hheight).mp hh, (roundedUp32_exact_iff hwidth).mp hw⟩
    rw [strideOf, ← hstride]
    exact Nat.mod_lt _ (by decide)
  · rintro ⟨hstride, hh, hw⟩
    have hexact : zStride model = strideOf model := Nat.mod_eq_of_lt hstride
    refine ⟨?_, hexact, ?_, ?_⟩
    · rw [hexact]
      exact strideOf_pos.ne'
    · rw [hexact]
      exact (roundedUp32_exact_iff hheight).mpr hh
    · rw [hexact]
      exact (roundedUp32_exact_iff hwidth).mpr hw

/-- The shape of a safe model is the exact one. -/
theorem SafeShape.latent (h : SafeShape model) :
    (latentShape model).zHeight = model.height ⌈/⌉ strideOf model ∧
    (latentShape model).zWidth = model.width ⌈/⌉ strideOf model := by
  refine ⟨?_, ?_⟩
  · change roundedUp32 model.height (zStride model) / zStride model = _
    rw [h.height_exact, h.stride_exact]
    rfl
  · change roundedUp32 model.width (zStride model) / zStride model = _
    rw [h.width_exact, h.stride_exact]
    rfl

end Shape

section Indexes

variable {model : ModelParameters}

/-- The sources of the scales are the first part of the stage output, one channel for each group
of latent channels. -/
theorem exists_scaleSource_iff (h : SafeShape model) {n : ℕ} :
    (∃ channel < (latentShape model).yChannels + (latentShape model).yChannels,
      ∃ y < (latentShape model).yHeight, ∃ x < (latentShape model).yWidth,
        scaleSource model channel y x = n) ↔
      n < model.latentChannels / model.yScaleRepeat * (latentShape model).zHeight *
        (latentShape model).zWidth := by
  obtain ⟨-, -, hlatent, -, hhyperprior, hdivWidth, hdivHeight, -, -, -, -, heven, hrepeat,
    hdivChannels, -⟩ := model.shapes_valid
  have hchannels : (latentShape model).yChannels + (latentShape model).yChannels =
      model.latentChannels := by
    change model.latentChannels / 2 + model.latentChannels / 2 = _
    omega
  have hchannel : ∀ k, (∃ channel < model.latentChannels, channel / model.yScaleRepeat = k) ↔
      k < model.latentChannels / model.yScaleRepeat := by
    intro k
    rw [exists_div_eq_iff hrepeat, Nat.lt_div_iff_mul_lt' (Nat.dvd_of_mod_eq_zero hdivChannels)]
  have hy : ∀ k, (∃ y < (latentShape model).yHeight, y / model.downsampleHyperprior = k) ↔
      k < (latentShape model).zHeight := by
    intro k
    rw [h.latent.1, strideOf, ceilDiv_mul hlatent hhyperprior (Nat.dvd_of_mod_eq_zero hdivHeight),
      lt_ceilDiv_iff hhyperprior, exists_div_eq_iff hhyperprior]
    rfl
  have hx : ∀ k, (∃ x < (latentShape model).yWidth, x / model.downsampleHyperprior = k) ↔
      k < (latentShape model).zWidth := by
    intro k
    rw [h.latent.2, strideOf, ceilDiv_mul hlatent hhyperprior (Nat.dvd_of_mod_eq_zero hdivWidth),
      lt_ceilDiv_iff hhyperprior, exists_div_eq_iff hhyperprior]
    rfl
  rw [hchannels]
  constructor
  · rintro ⟨channel, hc, y, hyy, x, hxx, rfl⟩
    exact rowMajor_lt ((hchannel _).mp ⟨channel, hc, rfl⟩) ((hy _).mp ⟨y, hyy, rfl⟩)
      ((hx _).mp ⟨x, hxx, rfl⟩)
  · intro hn
    obtain ⟨k, hk, j, hj, i, hi, rfl⟩ := exists_rowMajor hn
    obtain ⟨channel, hc, rfl⟩ := (hchannel k).mpr hk
    obtain ⟨y, hyy, rfl⟩ := (hy j).mpr hj
    obtain ⟨x, hxx, rfl⟩ := (hx i).mpr hi
    exact ⟨channel, hc, y, hyy, x, hxx, rfl⟩

theorem safeSources_iff (h : SafeShape model) :
    (∀ channel < (latentShape model).yChannels + (latentShape model).yChannels,
      ∀ y < (latentShape model).yHeight, ∀ x < (latentShape model).yWidth,
        scaleSource model channel y x % 2 ^ 64 < (latentShape model).zElements % 2 ^ 64) ↔
      model.latentChannels / model.yScaleRepeat * (latentShape model).zHeight *
          (latentShape model).zWidth ≤ (latentShape model).zElements % 2 ^ 64 := by
  rw [← forall_mod_lt_iff]
  constructor
  · intro hsources n hn
    obtain ⟨channel, hc, y, hy, x, hx, rfl⟩ := (exists_scaleSource_iff h).mpr hn
    exact hsources channel hc y hy x hx
  · intro hcount channel hc y hy x hx
    exact hcount _ ((exists_scaleSource_iff h).mp ⟨channel, hc, y, hy, x, hx, rfl⟩)

theorem safeOutputs_iff :
    (∀ channel < (latentShape model).yChannels,
      ∀ y < (latentShape model).yHeight, ∀ x < (latentShape model).yWidth,
        rowMajor (latentShape model).yHeight (latentShape model).yWidth channel y x % 2 ^ 64 <
          (latentShape model).yElements % 2 ^ 64) ↔ (latentShape model).yElements < 2 ^ 64 := by
  have hwrapped : (latentShape model).yElements < 2 ^ 64 ↔
      (latentShape model).yElements ≤ (latentShape model).yElements % 2 ^ 64 := by
    constructor
    · intro h
      exact (Nat.mod_eq_of_lt h).ge
    · intro h
      exact h.trans_lt (Nat.mod_lt _ (by decide))
  rw [hwrapped, ← forall_mod_lt_iff]
  constructor
  · intro houtputs n hn
    obtain ⟨channel, hc, y, hy, x, hx, rfl⟩ := exists_rowMajor hn
    exact houtputs channel hc y hy x hx
  · intro hcount channel hc y hy x hx
    exact hcount _ (rowMajor_lt hc hy hx)

end Indexes

/-- The uses of accepted metadata are safe exactly when its sizes are bounded. -/
theorem accepted_metadata_safe_iff {metadata : Value} {whereName : String}
    {model : ModelParameters} (h : parseParameters metadata whereName = .ok model) :
    SafeMetadata model ↔ Bounded model := by
  have hschedule := safeSchedule (parseParameters_totalQpNum_lt h)
  constructor
  · rintro ⟨hshape, ⟨hsources, houtputs⟩, -⟩
    obtain ⟨hstride, hheight, hwidth⟩ := safeShape_iff.mp hshape
    refine ⟨hstride, hheight, hwidth, safeOutputs_iff.mp houtputs, ?_⟩
    have hcount := (safeSources_iff hshape).mp hsources
    rw [LatentShape.zElements, hshape.latent.1, hshape.latent.2] at hcount
    exact hcount
  · rintro ⟨hstride, hheight, hwidth, houtputs, hsources⟩
    have hshape := safeShape_iff.mpr ⟨hstride, hheight, hwidth⟩
    refine ⟨hshape, ⟨(safeSources_iff hshape).mpr ?_, safeOutputs_iff.mpr houtputs⟩, hschedule⟩
    rw [LatentShape.zElements, hshape.latent.1, hshape.latent.2]
    exact hsources

/-- The metadata of a small canvas is accepted and bounded. -/
theorem example_metadata_safe :
    ∃ model, parseParameters (exampleMetadata 64 32) "model_metadata.64x32" = .ok model ∧
      (SafeMetadata model ↔ Bounded model) := by
  obtain ⟨model, hmodel⟩ := isOk_iff.mp (show (parseParameters (exampleMetadata 64 32)
    "model_metadata.64x32").isOk = true by decide +kernel)
  exact ⟨model, hmodel, accepted_metadata_safe_iff hmodel⟩

/-- Two strides of 2 ^ 16 are accepted for a canvas of that size, and their product is zero in 32
bits. -/
theorem accepted_stride_zero :
    ∃ model, parseParameters (exampleStrides 65536 65536 65536 65536)
        "model_metadata.65536x65536" = .ok model ∧
      zStride model = 0 ∧ ¬ SafeMetadata model := by
  have hstride : (parseParameters (exampleStrides 65536 65536 65536 65536)
      "model_metadata.65536x65536").map zStride = .ok 0 := by decide +kernel
  cases hmodel : parseParameters (exampleStrides 65536 65536 65536 65536)
      "model_metadata.65536x65536" with
  | error e => simp [hmodel, Except.map] at hstride
  | ok model =>
      rw [hmodel] at hstride
      have hzero : zStride model = 0 := Except.ok.inj hstride
      exact ⟨model, rfl, hzero, fun h => h.shape.stride_ne hzero⟩

end Nvcr.Mlvc
