import Nvcr.RtExactSessions
import Nvcr.RtStageAgreement

/-!
# The masks partition the latent

Every position is selected in exactly one stage, and in every stage each reduced position has
exactly one selected part. Masked values reduce alike before and after they are stored, and the
restored stages add up to the latent.
-/

namespace Nvcr.Rt

open NestedLoops HostOps HostArithmetic

/-- What the transforms use of the floating-point operations: the classes of values and how
products with a mask value, sums and storage treat them. Zeros have two signs. -/
structure HostArithmetic.Masking (A : HostArithmetic) where
  number : A.Float → Prop
  finite : A.Float → Prop
  zero : A.Float → Prop
  number_of_finite : ∀ {x}, finite x → number x
  number_of_zero : ∀ {x}, zero x → number x
  load_mask : ∀ selected, A.toFloat (maskValue selected) = if selected then A.ofRat 1 else A.ofRat 0
  mul_one : ∀ {x}, number x → x * A.ofRat 1 = x
  mul_zero : ∀ {x}, finite x → zero (x * A.ofRat 0)
  infinite_mul_zero : ∀ {x}, number x → ¬ finite x → ¬ number (x * A.ofRat 0)
  nan_mul : ∀ {x} y, ¬ number x → ¬ number (x * y)
  nan_add : ∀ {x} y, ¬ number x → ¬ number (x + y)
  add_nan : ∀ x {y}, ¬ number y → ¬ number (x + y)
  finite_add : ∀ {a b}, finite (A.toFloat a) → finite (A.toFloat b) →
    finite (A.toFloat a + A.toFloat b)
  add_zero : ∀ {x z}, number x → zero z → x + z = x ∨ zero x ∧ zero (x + z)
  zero_add : ∀ {x z}, number x → zero z → z + x = x ∨ zero x ∧ zero (z + x)
  number_stored : ∀ {x}, number x ↔ number (A.toFloat (A.toHalf x))
  zero_stored : ∀ {x}, zero x → A.toFloat (A.toHalf x) = x
  toHalf_toFloat : ∀ {h}, number (A.toFloat h) → A.toHalf (A.toFloat h) = h

/-- The transforms that divide the channels into a number of parts. -/
structure MaskOps (A : HostArithmetic) where
  parts : ℕ
  makeMask : ℕ → Shape4D → ℤ → Option (List A.Half)
  reduceChannel : List A.Half → ℕ → Shape4D → Option (List A.Half)
  reduceMasked : List A.Half → List A.Half → ℕ → Shape4D → Option (List A.Half)
  restore : List A.Half → List A.Half → List A.Half → ℕ → Shape4D → Option (List A.Half)

variable {A : HostArithmetic}

def fourWayOps (A : HostArithmetic) : MaskOps A where
  parts := 4
  makeMask := makeFourWayMask
  reduceChannel := reduceChannelQuarters
  reduceMasked := reduceMaskedQuarters
  restore := restoreFourWay

def twoWayOps (A : HostArithmetic) : MaskOps A where
  parts := 2
  makeMask := makeTwoWayMask
  reduceChannel := reduceChannelHalves
  reduceMasked := reduceMaskedHalves
  restore := restoreTwoWay

/-- The number of positions of a latent of batch one. -/
def positions (shape : Shape4D) : ℕ :=
  shape.channels.toNat * shape.height.toNat * shape.width.toNat

/-- The stages added up: the first one is taken, the later ones are added in place. -/
def stageSum (stages : ℕ → List A.Half) : ℕ → Option (List A.Half)
  | 0 => some (stages 0)
  | last + 1 => (stageSum stages last).bind fun total => addInPlace total (stages (last + 1))

namespace HostArithmetic.Masking

variable (laws : A.Masking)

/-- The same number, or no number on both sides. -/
def SameFloat (x y : A.Float) : Prop := x = y ∨ ¬ laws.number x ∧ ¬ laws.number y

def SameHalf (h h' : A.Half) : Prop :=
  h = h' ∨ ¬ laws.number (A.toFloat h) ∧ ¬ laws.number (A.toFloat h')

/-- The same value up to the sign of a zero. -/
def SameValue (h h' : A.Half) : Prop :=
  h = h' ∨ laws.zero (A.toFloat h) ∧ laws.zero (A.toFloat h')

variable {laws}

theorem SameFloat.add {x x' y y' : A.Float} (hx : laws.SameFloat x x') (hy : laws.SameFloat y y') :
    laws.SameFloat (x + y) (x' + y') := by
  rcases hx with rfl | ⟨hx, hx'⟩
  · rcases hy with rfl | ⟨hy, hy'⟩
    · exact .inl rfl
    · exact .inr ⟨laws.add_nan _ hy, laws.add_nan _ hy'⟩
  · exact .inr ⟨laws.nan_add _ hx, laws.nan_add _ hx'⟩

theorem SameFloat.stored {x x' : A.Float} (h : laws.SameFloat x x') :
    laws.SameHalf (A.toHalf x) (A.toHalf x') := by
  rcases h with rfl | ⟨hx, hx'⟩
  · exact .inl rfl
  · exact .inr ⟨mt laws.number_stored.mpr hx, mt laws.number_stored.mpr hx'⟩

/-- Storing a value that was multiplied by a mask value does not change it. -/
theorem stored_masked (laws : A.Masking) (h : A.Half) (selected : Bool) :
    laws.SameFloat
      (A.toFloat (A.toHalf (A.toFloat h * A.toFloat (maskValue selected))))
      (A.toFloat h * A.toFloat (maskValue selected)) := by
  rw [laws.load_mask]
  by_cases hnumber : laws.number (A.toFloat h)
  · cases selected with
    | true =>
        left
        simp only [if_true]
        rw [laws.mul_one hnumber, laws.toHalf_toFloat hnumber]
    | false =>
        simp only [Bool.false_eq_true, if_false]
        by_cases hfinite : laws.finite (A.toFloat h)
        · exact .inl (laws.zero_stored (laws.mul_zero hfinite))
        · have hnan := laws.infinite_mul_zero hnumber hfinite
          exact .inr ⟨mt laws.number_stored.mpr hnan, hnan⟩
  · have hnan := laws.nan_mul (if selected then A.ofRat 1 else A.ofRat 0) hnumber
    exact .inr ⟨mt laws.number_stored.mpr hnan, hnan⟩

/-- A zero does not change the value it is added to. -/
theorem sameValue_add_zero {value total z : A.Half} (hvalue : laws.number (A.toFloat value))
    (htotal : laws.SameValue total value) (hz : laws.zero (A.toFloat z)) :
    laws.SameValue (A.toHalf (A.toFloat total + A.toFloat z)) value := by
  have hnumber : laws.number (A.toFloat total) := by
    rcases htotal with rfl | ⟨h, -⟩
    · exact hvalue
    · exact laws.number_of_zero h
  rcases laws.add_zero hnumber hz with hsum | ⟨hzero, hsum⟩
  · rwa [hsum, laws.toHalf_toFloat hnumber]
  · have hboth : laws.zero (A.toFloat value) := by
      rcases htotal with rfl | ⟨-, h⟩
      · exact hzero
      · exact h
    exact .inr ⟨by rwa [laws.zero_stored hsum], hboth⟩

theorem sameValue_zero_add {value z : A.Half} (hvalue : laws.number (A.toFloat value))
    (hz : laws.zero (A.toFloat z)) :
    laws.SameValue (A.toHalf (A.toFloat z + A.toFloat value)) value := by
  rcases laws.zero_add hvalue hz with hsum | ⟨hzero, hsum⟩
  · rw [hsum, laws.toHalf_toFloat hvalue]
    exact .inl rfl
  · exact .inr ⟨by rwa [laws.zero_stored hsum], hzero⟩

theorem zero_stored_add {z z' : A.Half} (hz : laws.zero (A.toFloat z))
    (hz' : laws.zero (A.toFloat z')) :
    laws.zero (A.toFloat (A.toHalf (A.toFloat z + A.toFloat z'))) := by
  rcases laws.add_zero (laws.number_of_zero hz) hz' with hsum | ⟨-, hsum⟩
  · rw [hsum, laws.toHalf_toFloat (laws.number_of_zero hz)]
    exact hz
  · rwa [laws.zero_stored hsum]

end HostArithmetic.Masking

section Masks

/-- Masks of a tensor: which positions each stage selects. -/
structure MasksFor (ops : MaskOps A) (shape : Shape4D) (selected : ℕ → ℕ → Bool) : Prop where
  masks : ∀ stage < ops.parts, ∀ size, volume shape ≤ size →
    ops.makeMask size shape stage = some (maskOf (positions shape) (selected stage))
  oneStage : ∀ index < positions shape, ∃! stage, stage < ops.parts ∧ selected stage index = true
  onePart : ∀ stage < ops.parts, ∀ index < positions shape / ops.parts, ∃! part,
    part < ops.parts ∧ selected stage (index + part * (positions shape / ops.parts)) = true

theorem exists_unique_part {parts partSize : ℕ} {selected : ℕ → Bool} {part : ℕ → ℕ}
    (h : Selects parts partSize selected part) {index : ℕ} (hindex : index < partSize) :
    ∃! other, other < parts ∧ selected (index + other * partSize) = true := by
  obtain ⟨hpart, hselected⟩ := h index hindex
  refine ⟨part index, ⟨hpart, by rw [hselected _ hpart, decide_eq_true_eq]⟩, ?_⟩
  rintro other ⟨hother, htrue⟩
  rwa [hselected other hother, decide_eq_true_eq] at htrue

theorem exists_unique_pattern : ∀ quarter < 4, ∀ position < 4, ∃ stage < 4,
    fourWayPattern stage quarter = position ∧
      ∀ other < 4, fourWayPattern other quarter = position → other = stage := by
  decide

variable {channels height width : ℕ}

theorem fourWay_oneStage {index : ℕ}
    (hindex : index < 4 * channels * height * width) :
    ∃! stage, stage < 4 ∧
      flatSelected height width (fourWaySelected (4 * channels) stage) index = true := by
  have hchannel : index / width / height < 4 * channels := channel_lt hindex
  have hquarter : index / width / height / (4 * channels / 4) < 4 := by
    rw [Nat.mul_div_cancel_left _ (by decide)]
    exact Nat.div_lt_of_lt_mul (by rwa [Nat.mul_comm] at hchannel)
  have hposition : index / width % height % 2 * 2 + index % width % 2 < 4 := by omega
  obtain ⟨stage, hstage, hpattern, hunique⟩ :=
    exists_unique_pattern _ hquarter _ hposition
  refine ⟨stage, ⟨hstage, ?_⟩, fun other hother => ?_⟩
  · simp only [flatSelected, fourWaySelected, hpattern, beq_self_eq_true]
  · refine hunique other hother.1 ?_
    simpa only [flatSelected, fourWaySelected, beq_iff_eq] using hother.2

theorem twoWay_oneStage (channels height width index : ℕ) :
    ∃! stage, stage < 2 ∧
      flatSelected height width (twoWaySelected channels stage) index = true := by
  have hfirst : flatSelected height width (twoWaySelected channels 0) index =
      !flatSelected height width (twoWaySelected channels 1) index := by
    simp only [flatSelected, twoWaySelected, if_true, one_ne_zero, if_false, bne, Bool.not_not]
  cases hsecond : flatSelected height width (twoWaySelected channels 1) index with
  | true =>
      rw [hsecond, Bool.not_true] at hfirst
      refine ⟨1, ⟨by decide, hsecond⟩, fun other hother => ?_⟩
      obtain ⟨hlt, hselected⟩ := hother
      interval_cases other
      · exact absurd (hfirst.symm.trans hselected) (by decide)
      · rfl
  | false =>
      rw [hsecond, Bool.not_false] at hfirst
      refine ⟨0, ⟨by decide, hfirst⟩, fun other hother => ?_⟩
      obtain ⟨hlt, hselected⟩ := hother
      interval_cases other
      · rfl
      · exact absurd (hsecond.symm.trans hselected) (by decide)

/-- A shape of batch one with channels that divide, in natural numbers. -/
theorem exists_naturals {shape : Shape4D} {parts : ℕ} (hbatch : shape.batch = 1)
    (hvalid : ¬ InvalidShape shape) (hchannels : shape.channels % parts = 0) :
    ∃ c h w : ℕ, 0 < c ∧ 0 < h ∧ 0 < w ∧ shape = ⟨1, (parts * c : ℕ), h, w⟩ := by
  obtain ⟨batch, channels, height, width⟩ := shape
  simp only [InvalidShape, not_or, not_le] at hvalid hbatch hchannels
  obtain ⟨-, hc, hh, hw⟩ := hvalid
  obtain ⟨c, rfl⟩ := Int.dvd_of_emod_eq_zero hchannels
  have hcpos : 0 < c := pos_of_mul_pos_right hc (Int.natCast_nonneg parts)
  refine ⟨c.toNat, height.toNat, width.toNat, by omega, by omega, by omega, ?_⟩
  rw [Shape4D.mk.injEq]
  refine ⟨hbatch, ?_, by omega, by omega⟩
  rw [Nat.cast_mul, Int.toNat_of_nonneg hcpos.le]

/-- The number of positions is positive and divides like the channels. -/
theorem positions_divide {shape : Shape4D} {parts : ℕ} (hbatch : shape.batch = 1)
    (hvalid : ¬ InvalidShape shape) (hchannels : shape.channels % parts = 0) (hparts : 0 < parts) :
    0 < positions shape ∧ positions shape = parts * (positions shape / parts) := by
  obtain ⟨c, h, w, hc, hh, hw, rfl⟩ := exists_naturals hbatch hvalid hchannels
  have hpositions : positions ⟨1, (parts * c : ℕ), h, w⟩ = parts * (c * h * w) := by
    simp only [positions, Int.toNat_natCast, Nat.mul_assoc]
  rw [hpositions, Nat.mul_div_cancel_left _ hparts]
  exact ⟨by positivity, rfl⟩

/-- Masks that loop over channels, rows and columns partition the latent if each selection does. -/
theorem exists_masks {ops : MaskOps A} {shape : Shape4D} (hparts : 0 < ops.parts)
    (hbatch : shape.batch = 1) (hvalid : ¬ InvalidShape shape)
    (hchannels : shape.channels % ops.parts = 0) (pick : ℕ → ℕ → ℕ → ℕ → ℕ → Bool)
    (hmake : ∀ (stage size : ℕ), stage < ops.parts → volume shape ≤ size →
      ops.makeMask size shape stage = some (maskLoop shape (pick shape.channels.toNat stage)))
    (hstage : ∀ c h w index, index < ops.parts * c * h * w →
      ∃! stage, stage < ops.parts ∧ flatSelected h w (pick (ops.parts * c) stage) index = true)
    (hpart : ∀ c h w stage, 0 < c → 0 < h → 0 < w →
      ∃ part, Selects ops.parts (c * h * w) (flatSelected h w (pick (ops.parts * c) stage)) part) :
    ∃ selected, MasksFor ops shape selected := by
  obtain ⟨c, h, w, hc, hh, hw, rfl⟩ := exists_naturals hbatch hvalid hchannels
  have hpositions : positions ⟨1, (ops.parts * c : ℕ), h, w⟩ = ops.parts * c * h * w := by
    simp only [positions, Int.toNat_natCast]
  have hsize : positions ⟨1, (ops.parts * c : ℕ), h, w⟩ / ops.parts = c * h * w := by
    rw [hpositions, Nat.mul_assoc, Nat.mul_assoc, Nat.mul_div_cancel_left _ hparts, Nat.mul_assoc]
  refine ⟨fun stage => flatSelected h w (pick (ops.parts * c) stage), ?_, ?_, ?_⟩
  · intro stage hlt size hvolume
    rw [hpositions, ← maskLoop_eq]
    exact hmake stage size hlt hvolume
  · rw [hpositions]
    exact hstage c h w
  · intro stage _
    rw [hsize]
    obtain ⟨part, hselects⟩ := hpart c h w stage hc hh hw
    exact fun index hindex => exists_unique_part hselects hindex

theorem fourWay_masks {shape : Shape4D} (hbatch : shape.batch = 1) (hvalid : ¬ InvalidShape shape)
    (hchannels : shape.channels % 4 = 0) :
    ∃ selected, MasksFor (fourWayOps A) shape selected := by
  refine exists_masks (show 0 < 4 by decide) hbatch hvalid hchannels fourWaySelected ?_
    (fun _ _ _ _ => fourWay_oneStage) fun c h w stage hc hh hw => ⟨_, fourWay_selects c stage hc hh hw⟩
  intro stage size hstage hsize
  have hlt : stage < 4 := hstage
  have hguard : ¬ (InvalidShape shape ∨ shape.channels % 4 ≠ 0 ∨ (stage : ℤ) < 0 ∨
      3 < (stage : ℤ) ∨ size < volume shape) :=
    not_or.mpr ⟨hvalid, by omega⟩
  change makeFourWayMask size shape stage = _
  rw [makeFourWayMask, if_neg hguard]
  rfl

theorem twoWay_masks {shape : Shape4D} (hbatch : shape.batch = 1) (hvalid : ¬ InvalidShape shape)
    (hchannels : shape.channels % 2 = 0) :
    ∃ selected, MasksFor (twoWayOps A) shape selected := by
  refine exists_masks (show 0 < 2 by decide) hbatch hvalid hchannels twoWaySelected ?_
    (fun _ _ _ _ _ => twoWay_oneStage _ _ _ _)
    fun c h w stage _ hh hw => ⟨_, twoWay_selects c stage hh hw⟩
  intro stage size hstage hsize
  have hlt : stage < 2 := hstage
  have hguard : ¬ (InvalidShape shape ∨ shape.channels % 2 ≠ 0 ∨ (stage : ℤ) < 0 ∨
      1 < (stage : ℤ) ∨ size < volume shape) :=
    not_or.mpr ⟨hvalid, by omega⟩
  change makeTwoWayMask size shape stage = _
  rw [makeTwoWayMask, if_neg hguard]
  rfl

end Masks

section Reducing

variable (laws : A.Masking)

/-- The values multiplied by the mask and stored. -/
def maskedValues (values mask : List A.Half) : List A.Half :=
  (List.range values.length).map fun index => A.toHalf (load values index * load mask index)

theorem processWithMask_maskedScales {values scales means mask : List A.Half}
    {residualSize symbolsSize reconstructedSize maskedScalesSize : ℕ} {threshold : A.Float}
    {out : ProcessedWithMask A} (hscales : scales.length = values.length)
    (h : processWithMask values scales means mask residualSize symbolsSize reconstructedSize
      maskedScalesSize threshold = some out) :
    out.maskedScales = maskedValues scales mask := by
  unfold processWithMask at h
  simp only at h
  split at h
  · exact nomatch h
  · cases h
    rw [maskedValues, hscales]
    rfl

/-- The stored products are the products. -/
theorem sameFloat_maskedValues {values : List A.Half} {selected : ℕ → Bool} {index : ℕ}
    (h : index < values.length) :
    laws.SameFloat (load (maskedValues values (maskOf values.length selected)) index)
      (load values index * load (maskOf values.length selected) index) := by
  have hmask : load (maskOf (A := A) values.length selected) index =
      A.toFloat (maskValue (selected index)) := by
    rw [load, maskOf, getD_map_range h]
  rw [load, maskedValues, getD_map_range h, hmask]
  exact laws.stored_masked _ _

/-- Results of two transforms that succeed with the same halves. -/
def SameHalves (x y : Option (List A.Half)) : Prop :=
  ∃ values values', x = some values ∧ y = some values' ∧ List.Forall₂ laws.SameHalf values values'

theorem sameHalves_map_range (size : ℕ) (f g : ℕ → A.Float) {x y : Option (List A.Half)}
    (hx : x = some ((List.range size).map fun index => A.toHalf (f index)))
    (hy : y = some ((List.range size).map fun index => A.toHalf (g index)))
    (h : ∀ index < size, laws.SameFloat (f index) (g index)) : SameHalves laws x y := by
  refine ⟨_, _, hx, hy, ?_⟩
  rw [List.forall₂_map_left_iff, List.forall₂_map_right_iff, List.forall₂_same]
  exact fun index hindex => (h index (List.mem_range.mp hindex)).stored

/-- Values that are multiplied by the mask and stored reduce as with the mask. The length of a
span is a 64-bit number. -/
def StoredReducesAlike (ops : MaskOps A) (shape : Shape4D) (selected : ℕ → Bool) : Prop :=
  ∀ values : List A.Half, values.length = positions shape → values.length < 2 ^ 64 →
    ∀ size, volume shape / ops.parts ≤ size → SameHalves laws
      (ops.reduceChannel (maskedValues values (maskOf values.length selected)) size shape)
      (ops.reduceMasked values (maskOf values.length selected) size shape)

/-- The scales that masked processing stores reduce as the scales with the mask. -/
def ProcessedReducesAlike (ops : MaskOps A) (shape : Shape4D) (selected : ℕ → Bool) : Prop :=
  ∀ (values scales means : List A.Half) (residualSize symbolsSize reconstructedSize
      maskedScalesSize : ℕ) (threshold : A.Float) (out : ProcessedWithMask A),
    values.length = positions shape → scales.length = positions shape → scales.length < 2 ^ 64 →
    processWithMask values scales means (maskOf scales.length selected) residualSize symbolsSize
      reconstructedSize maskedScalesSize threshold = some out →
    ∀ size, volume shape / ops.parts ≤ size → SameHalves laws
      (ops.reduceChannel out.maskedScales size shape)
      (ops.reduceMasked scales (maskOf scales.length selected) size shape)

/-- Masked data reduces as the data with the mask. -/
def ReducesAlike (ops : MaskOps A) (shape : Shape4D) (selected : ℕ → Bool) : Prop :=
  StoredReducesAlike laws ops shape selected ∧ ProcessedReducesAlike laws ops shape selected

variable {laws} in
theorem StoredReducesAlike.reducesAlike {ops : MaskOps A} {shape : Shape4D} {selected : ℕ → Bool}
    (h : StoredReducesAlike laws ops shape selected) : ReducesAlike laws ops shape selected := by
  refine ⟨h, ?_⟩
  intro values scales means _ _ _ _ threshold out hvalues hscales hfits hprocessed size hsize
  rw [processWithMask_maskedScales (hscales.trans hvalues.symm) hprocessed]
  exact h scales hscales hfits size hsize

/-- The exact number of positions is not wrapped. -/
theorem volume_eq_positions {shape : Shape4D} (hbatch : shape.batch = 1)
    (hfits : positions shape < 2 ^ 64) : volume shape = positions shape := by
  rw [volume, hbatch, Int.toNat_one, Nat.one_mul]
  exact Nat.mod_eq_of_lt hfits

variable {shape : Shape4D} {selected : ℕ → Bool}

theorem quarters_reduceAlike (hbatch : shape.batch = 1) (hvalid : ¬ InvalidShape shape)
    (hchannels : shape.channels % 4 = 0) : StoredReducesAlike laws (fourWayOps A) shape selected := by
  intro values hvalues hfits size hsize
  have hvolume := volume_eq_positions hbatch (hvalues ▸ hfits)
  have hsize' : volume shape / 4 ≤ size := hsize
  have hguard : ¬ (InvalidShape shape ∨ shape.channels % 4 ≠ 0) :=
    not_or.mpr ⟨hvalid, not_not.mpr hchannels⟩
  have hmasked : (maskedValues values (maskOf values.length selected)).length = values.length := by
    simp [maskedValues]
  have hmask : (maskOf (A := A) values.length selected).length = values.length := by simp [maskOf]
  refine sameHalves_map_range laws (volume shape / 4)
    (quarterSum (volume shape / 4) (load (maskedValues values (maskOf values.length selected))))
    (quarterSum (volume shape / 4) fun source =>
      load values source * load (maskOf values.length selected) source) ?_ ?_ ?_
  · change reduceChannelQuarters _ size shape = _
    rw [reduceChannelQuarters, if_neg hguard]
    simp only [hmasked]
    rw [if_neg (by omega)]
  · change reduceMaskedQuarters values _ size shape = _
    rw [reduceMaskedQuarters, if_neg hguard]
    simp only [hmask]
    rw [if_neg (by omega)]
  · intro index hindex
    have hentry (part : ℕ) (hpart : part < 4) : laws.SameFloat
        (load (maskedValues values (maskOf values.length selected))
          (index + part * (volume shape / 4)))
        (load values (index + part * (volume shape / 4)) *
          load (maskOf values.length selected) (index + part * (volume shape / 4))) := by
      refine sameFloat_maskedValues laws ?_
      have hmul : part * (volume shape / 4) ≤ 3 * (volume shape / 4) :=
        Nat.mul_le_mul_right _ (by omega)
      omega
    unfold quarterSum
    refine (((Masking.SameFloat.add (.inl rfl) ?_).add ?_).add ?_).add ?_
    · exact hentry 0 (by decide)
    · exact hentry 1 (by decide)
    · exact hentry 2 (by decide)
    · exact hentry 3 (by decide)

theorem halves_reduceAlike (hbatch : shape.batch = 1) (hvalid : ¬ InvalidShape shape)
    (hchannels : shape.channels % 2 = 0) : StoredReducesAlike laws (twoWayOps A) shape selected := by
  intro values hvalues hfits size hsize
  have hvolume := volume_eq_positions hbatch (hvalues ▸ hfits)
  have hsize' : volume shape / 2 ≤ size := hsize
  have hguard : ¬ (InvalidShape shape ∨ shape.channels % 2 ≠ 0) :=
    not_or.mpr ⟨hvalid, not_not.mpr hchannels⟩
  have hmasked : (maskedValues values (maskOf values.length selected)).length = values.length := by
    simp [maskedValues]
  have hmask : (maskOf (A := A) values.length selected).length = values.length := by simp [maskOf]
  let products : ℕ → A.Float := fun source =>
    load values source * load (maskOf values.length selected) source
  let stored : ℕ → A.Float := load (maskedValues values (maskOf values.length selected))
  refine sameHalves_map_range laws (volume shape / 2)
    (fun index => stored index + stored (index + volume shape / 2))
    (fun index => products index + products (index + volume shape / 2)) ?_ ?_ ?_
  · change reduceChannelHalves _ size shape = _
    rw [reduceChannelHalves, if_neg hguard]
    simp only [hmasked]
    rw [if_neg (by omega)]
  · change reduceMaskedHalves values _ size shape = _
    rw [reduceMaskedHalves, if_neg hguard]
    simp only [hmask]
    rw [if_neg (by omega)]
  · intro index hindex
    exact (sameFloat_maskedValues laws (by omega)).add (sameFloat_maskedValues laws (by omega))

end Reducing

section Restoring

variable (laws : A.Masking)

theorem restored_getD {symbols means mask : List A.Half} {parts partSize index : ℕ}
    (h : index < parts * partSize) :
    (restored symbols means mask parts partSize).getD index 0 =
      restoreElement (load symbols (index % partSize)) (load means index) (load mask index) := by
  have hindex : index % partSize + index / partSize * partSize = index := Nat.mod_add_div' index partSize
  rw [restored, flatMap_range_map_range, getD_map_range h, hindex]

theorem restored_length (symbols means mask : List A.Half) (parts partSize : ℕ) :
    (restored symbols means mask parts partSize).length = parts * partSize := by
  rw [restored, flatMap_range_map_range, List.length_map, List.length_range]

theorem load_finite {values : List A.Half} (h : ∀ value ∈ values, laws.finite (A.toFloat value))
    {index : ℕ} (hindex : index < values.length) : laws.finite (load values index) := by
  rw [load, List.getD_eq_getElem?_getD, List.getElem?_eq_getElem hindex, Option.getD_some]
  exact h _ (List.getElem_mem hindex)

/-- A selected position of a restored stage has its symbol and mean; the others are zeros. -/
theorem restored_position {symbols means : List A.Half} {parts partSize index : ℕ}
    (selected : ℕ → Bool) (hsymbols : symbols.length = partSize)
    (hmeans : means.length = parts * partSize)
    (hsymbolsFinite : ∀ value ∈ symbols, laws.finite (A.toFloat value))
    (hmeansFinite : ∀ value ∈ means, laws.finite (A.toFloat value))
    (hindex : index < parts * partSize) (stored : A.Half)
    (hstored : stored = (restored symbols means (maskOf (parts * partSize) selected) parts
      partSize).getD index 0) :
    (selected index = true → laws.number (A.toFloat stored) ∧
      stored = A.toHalf (load symbols (index % partSize) + load means index)) ∧
    (selected index = false → laws.zero (A.toFloat stored)) := by
  have hpart : 0 < partSize := Nat.pos_of_mul_pos_left (Nat.zero_lt_of_lt hindex)
  have hsymbol := load_finite laws hsymbolsFinite
    (by rw [hsymbols]; exact Nat.mod_lt index hpart : index % partSize < symbols.length)
  have hmean := load_finite laws hmeansFinite (by rwa [hmeans] : index < means.length)
  have hsum : laws.finite (load symbols (index % partSize) + load means index) :=
    laws.finite_add hsymbol hmean
  have hmask : load (maskOf (A := A) (parts * partSize) selected) index =
      if selected index then A.ofRat 1 else A.ofRat 0 := by
    rw [load, maskOf, getD_map_range hindex, laws.load_mask]
  rw [restored_getD hindex, hmask, restoreElement] at hstored
  constructor
  · intro hselected
    rw [if_pos hselected, laws.mul_one (laws.number_of_finite hsum)] at hstored
    exact ⟨hstored ▸ laws.number_stored.mp (laws.number_of_finite hsum), hstored⟩
  · intro hselected
    rw [if_neg (by rw [hselected]; exact Bool.false_ne_true)] at hstored
    rw [hstored, laws.zero_stored (laws.mul_zero hsum)]
    exact laws.mul_zero hsum

theorem addInPlace_getD {first second : List A.Half} (hpos : 0 < first.length)
    (hlength : second.length = first.length) :
    ∃ total, addInPlace first second = some total ∧ total.length = first.length ∧
      ∀ index < first.length,
        total.getD index 0 = A.toHalf (load first index + load second index) := by
  have hguard : ¬ (first.isEmpty ∨ second.length < first.length) := by
    simp only [List.isEmpty_iff, ← List.length_eq_zero_iff]
    omega
  refine ⟨_, by rw [addInPlace, if_neg hguard], by simp, fun index hindex => ?_⟩
  rw [getD_map_range hindex]

/-- After the stages up to `last`, a position has the value of its stage if that is among them,
and is zero before. -/
theorem stageSum_position (stages : ℕ → List A.Half) {count : ℕ} (last : ℕ) (hcount : 0 < count)
    (hlength : ∀ stage ≤ last, (stages stage).length = count) :
    ∃ total, stageSum stages last = some total ∧ total.length = count ∧
      ∀ index < count, ∀ own, laws.number (load (stages own) index) →
        (∀ stage ≤ last, stage ≠ own → laws.zero (load (stages stage) index)) →
        if own ≤ last then laws.SameValue (total.getD index 0) ((stages own).getD index 0)
        else laws.zero (load total index) := by
  induction last with
  | zero =>
      refine ⟨stages 0, rfl, hlength 0 le_rfl, fun index _ own _ hzero => ?_⟩
      split
      · rename_i hown
        rw [Nat.le_zero.mp hown]
        exact .inl rfl
      · rename_i hown
        exact hzero 0 le_rfl (by omega)
  | succ last ih =>
      obtain ⟨before, hbefore, hsize, hpositions⟩ :=
        ih fun stage hstage => hlength stage (by omega)
      obtain ⟨total, htotal, htotalSize, hvalues⟩ := addInPlace_getD
        (by omega : 0 < before.length)
        (by rw [hsize, hlength (last + 1) le_rfl] : (stages (last + 1)).length = before.length)
      refine ⟨total, by rw [stageSum, hbefore]; exact htotal, htotalSize.trans hsize, ?_⟩
      intro index hindex own hnumber hzero
      have hearlier := hpositions index hindex own hnumber fun stage hstage =>
        hzero stage (by omega)
      have hvalue := hvalues index (by omega)
      by_cases hown : own ≤ last
      · rw [if_pos hown] at hearlier
        rw [if_pos (by omega), hvalue]
        exact Masking.sameValue_add_zero hnumber hearlier (hzero (last + 1) le_rfl (by omega))
      · rw [if_neg hown] at hearlier
        by_cases hnext : own = last + 1
        · subst hnext
          rw [if_pos le_rfl, hvalue]
          exact Masking.sameValue_zero_add hnumber hearlier
        · rw [if_neg (by omega), load, hvalue]
          exact Masking.zero_stored_add hearlier (hzero (last + 1) le_rfl (by omega))

/-- Restoring each stage and adding the stages gives every position the symbol and the mean of
its one stage. -/
def RestoresOnce (ops : MaskOps A) (shape : Shape4D) (selected : ℕ → ℕ → Bool) : Prop :=
  ∀ symbols means : ℕ → List A.Half,
    (∀ stage < ops.parts, (symbols stage).length = positions shape / ops.parts ∧
      (means stage).length = positions shape ∧ (means stage).length < 2 ^ 64 ∧
      (∀ value ∈ symbols stage, laws.finite (A.toFloat value)) ∧
      ∀ value ∈ means stage, laws.finite (A.toFloat value)) →
    ∃ stages total,
      (∀ stage < ops.parts, ops.restore (symbols stage) (means stage)
        (maskOf (positions shape) (selected stage)) (positions shape) shape =
          some (stages stage)) ∧
      stageSum stages (ops.parts - 1) = some total ∧ total.length = positions shape ∧
      ∀ index < positions shape, ∀ stage < ops.parts, selected stage index = true →
        laws.SameValue (total.getD index 0)
          (A.toHalf (load (symbols stage) (index % (positions shape / ops.parts)) +
            load (means stage) index))

theorem restoresOnce {ops : MaskOps A} {shape : Shape4D} {selected : ℕ → ℕ → Bool}
    (hmasks : MasksFor ops shape selected) (hpositive : 0 < positions shape)
    (hdivides : positions shape = ops.parts * (positions shape / ops.parts))
    (hrestore : ∀ symbols means mask, symbols.length = positions shape / ops.parts →
      means.length = positions shape → means.length < 2 ^ 64 → mask.length = positions shape →
      ops.restore symbols means mask (positions shape) shape =
        some (restored symbols means mask ops.parts (positions shape / ops.parts))) :
    RestoresOnce laws ops shape selected := by
  intro symbols means htensors
  let partSize := positions shape / ops.parts
  let stages : ℕ → List A.Half := fun stage => restored (symbols stage) (means stage)
    (maskOf (positions shape) (selected stage)) ops.parts partSize
  have hparts : 0 < ops.parts := Nat.pos_of_mul_pos_right (hdivides ▸ hpositive)
  have hpart : 0 < partSize := Nat.pos_of_mul_pos_left (hdivides ▸ hpositive)
  have hlength (stage : ℕ) : (stages stage).length = positions shape := by
    rw [restored_length, ← hdivides]
  obtain ⟨total, htotal, hsize, hvalues⟩ := stageSum_position laws stages (ops.parts - 1) hpositive
    fun stage _ => hlength stage
  refine ⟨stages, total, ?_, htotal, hsize, ?_⟩
  · intro stage hstage
    obtain ⟨hsymbols, hmeans, hfits, -, -⟩ := htensors stage hstage
    exact hrestore _ _ _ hsymbols hmeans hfits (by simp [maskOf])
  · intro index hindex own hown hselected
    have hposition (stage : ℕ) (hstage : stage < ops.parts) := by
      obtain ⟨hsymbols, hmeans, -, hsymbolsFinite, hmeansFinite⟩ := htensors stage hstage
      exact restored_position laws (selected stage) hsymbols (hmeans.trans hdivides) hsymbolsFinite
        hmeansFinite (hindex.trans_eq hdivides) _ rfl
    rw [← hdivides] at hposition
    obtain ⟨hnumber, hvalue⟩ := (hposition own hown).1 hselected
    have hothers : ∀ stage ≤ ops.parts - 1, stage ≠ own → laws.zero (load (stages stage) index) := by
      intro stage hstage hne
      have hlt : stage < ops.parts := by omega
      refine (hposition stage hlt).2 (Bool.eq_false_iff.mpr fun htrue => hne ?_)
      exact (hmasks.oneStage index hindex).unique ⟨hlt, htrue⟩ ⟨hown, hselected⟩
    have hsum := hvalues index hindex own hnumber hothers
    rw [if_pos (by omega)] at hsum
    rwa [← hvalue]

/-- For every shape of batch one with channels that divide, the masks partition the positions;
reducing masked values and reducing with the mask agree, and the restored stages add up to every
position once. -/
theorem mask_partition (laws : A.Masking) {ops : MaskOps A}
    (hops : ops = fourWayOps A ∨ ops = twoWayOps A) {shape : Shape4D} (hbatch : shape.batch = 1)
    (hvalid : ¬ InvalidShape shape) (hchannels : shape.channels % ops.parts = 0) :
    ∃ selected, MasksFor ops shape selected ∧
      (∀ stage < ops.parts, ReducesAlike laws ops shape (selected stage)) ∧
      RestoresOnce laws ops shape selected := by
  rcases hops with rfl | rfl
  · obtain ⟨selected, hmasks⟩ := fourWay_masks (A := A) hbatch hvalid hchannels
    obtain ⟨hpositive, hdivides⟩ := positions_divide hbatch hvalid hchannels (show 0 < 4 by decide)
    refine ⟨selected, hmasks, fun stage _ => (quarters_reduceAlike laws hbatch hvalid hchannels).reducesAlike,
      restoresOnce laws hmasks hpositive hdivides ?_⟩
    intro symbols means mask hsymbols hmeans hfits hmask
    have hshape : Divides shape 4 (positions shape / 4) :=
      ⟨hvalid, hchannels, (volume_eq_positions hbatch (hmeans ▸ hfits)).trans hdivides⟩
    have hrestored := restoreFourWay_eq hshape hsymbols (hmeans.trans hdivides)
      (hmask.trans hdivides)
    have hwhole : positions shape = 4 * (positions shape / 4) := hdivides
    rwa [← hwhole] at hrestored
  · obtain ⟨selected, hmasks⟩ := twoWay_masks (A := A) hbatch hvalid hchannels
    obtain ⟨hpositive, hdivides⟩ := positions_divide hbatch hvalid hchannels (show 0 < 2 by decide)
    refine ⟨selected, hmasks, fun stage _ => (halves_reduceAlike laws hbatch hvalid hchannels).reducesAlike,
      restoresOnce laws hmasks hpositive hdivides ?_⟩
    intro symbols means mask hsymbols hmeans hfits hmask
    have hshape : Divides shape 2 (positions shape / 2) :=
      ⟨hvalid, hchannels, (volume_eq_positions hbatch (hmeans ▸ hfits)).trans hdivides⟩
    have hrestored := restoreTwoWay_eq hshape hsymbols (hmeans.trans hdivides)
      (hmask.trans hdivides)
    have hwhole : positions shape = 2 * (positions shape / 2) := hdivides
    rwa [← hwhole] at hrestored

theorem real_add_zero {x z : ℝ} (hz : z = 0) : x + z = x ∧ z + x = x := by
  rw [hz, add_zero, zero_add]
  exact ⟨rfl, rfl⟩

/-- The classes of the real numbers: every value is finite, and there is one zero. -/
noncomputable def realMasking : realArithmetic.Masking where
  number _ := True
  finite _ := True
  zero (x : ℝ) := x = 0
  number_of_finite _ := trivial
  number_of_zero _ := trivial
  load_mask selected := by cases selected <;> rfl
  mul_one {x} _ := realArithmetic_exact.mul_one x
  mul_zero {x} _ := show x * realArithmetic.ofRat 0 = (0 : ℝ) by
    rw [realArithmetic_exact.mul_zero]
    exact (Rat.cast_zero : ((0 : ℚ) : ℝ) = 0)
  infinite_mul_zero _ h := absurd trivial h
  nan_mul _ h := absurd trivial h
  nan_add _ h := absurd trivial h
  add_nan _ _ h := absurd trivial h
  finite_add _ _ := trivial
  add_zero _ hz := .inl (real_add_zero hz).1
  zero_add _ hz := .inl (real_add_zero hz).2
  number_stored := Iff.rfl
  zero_stored _ := rfl
  toHalf_toFloat _ := rfl

theorem example_mask_partition :
    ∃ selected, MasksFor (fourWayOps realArithmetic) ⟨1, 8, 3, 5⟩ selected ∧
      (∀ stage < 4, ReducesAlike realMasking (fourWayOps realArithmetic) ⟨1, 8, 3, 5⟩
        (selected stage)) ∧
      RestoresOnce realMasking (fourWayOps realArithmetic) ⟨1, 8, 3, 5⟩ selected :=
  mask_partition realMasking (.inl rfl) rfl (by decide) (by decide)

end Restoring

end Nvcr.Rt
