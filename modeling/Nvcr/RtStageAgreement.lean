import Nvcr.RtHostOps
import Nvcr.RtRansRoundTrip

/-!
# Masked stages on the two sides

The encoder suppresses the positions outside a mask and sums the parts of the channels; the
decoder selects the reduced scales with the mask and spreads the decoded symbols over the
parts. Where the mask selects exactly one part at every reduced position, both sides use the
same coding rows and rebuild the same latent.
-/

namespace Nvcr.Rt

open NestedLoops

/-- Exact host arithmetic: the units, the absorbing zero, half-precision storage that keeps
stored values and small integers, and rounding and clamping that stay on the integers. -/
structure HostArithmetic.Exact (A : HostArithmetic) : Prop where
  mul_one : ∀ x : A.Float, x * A.ofRat 1 = x
  mul_zero : ∀ x : A.Float, x * A.ofRat 0 = A.ofRat 0
  add_zero : ∀ x : A.Float, x + A.ofRat 0 = x
  zero_add : ∀ x : A.Float, A.ofRat 0 + x = x
  toHalf_toFloat : ∀ x : A.Half, A.toHalf (A.toFloat x) = x
  toFloat_toHalf : ∀ n : ℤ, -128 ≤ n → n ≤ 127 → A.toFloat (A.toHalf (A.ofRat n)) = A.ofRat n
  round_integer : ∀ x : A.Float, ∃ n : ℤ, A.round x = A.ofRat n
  round_zero : A.round (A.ofRat 0) = A.ofRat 0
  fmin_ofRat : ∀ a b : ℚ, A.fmin (A.ofRat a) (A.ofRat b) = A.ofRat (min a b)
  fmax_ofRat : ∀ a b : ℚ, A.fmax (A.ofRat a) (A.ofRat b) = A.ofRat (max a b)
  truncate_integer : ∀ n : ℤ, A.truncate (A.ofRat n) = n
  less_irrefl : ∀ x : A.Float, A.less x x = false

namespace HostOps

variable {A : HostArithmetic} (hA : A.Exact)

include hA

theorem toFloat_zero : A.toFloat (0 : A.Half) = A.ofRat 0 := by
  have h := hA.toFloat_toHalf 0 (by decide) (by decide)
  rwa [Int.cast_zero] at h

theorem toFloat_maskValue (selected : Bool) :
    A.toFloat (maskValue selected) = if selected then A.ofRat 1 else A.ofRat 0 := by
  cases selected with
  | false => exact toFloat_zero hA
  | true =>
      have h := hA.toFloat_toHalf 1 (by decide) (by decide)
      rwa [Int.cast_one] at h

theorem clampSymbol_integer (n : ℤ) :
    clampSymbol (A.ofRat n) = A.ofRat ((min 127 (max (-128) n) : ℤ) : ℚ) := by
  rw [clampSymbol, hA.fmax_ofRat, hA.fmin_ofRat]
  push_cast
  rfl

theorem clampSymbol_zero : clampSymbol (A.ofRat 0) = A.ofRat 0 := by
  have h := clampSymbol_integer hA 0
  simpa using h

/-- A rounded and clamped value is a small integer. -/
theorem clampSymbol_round (x : A.Float) :
    ∃ n : ℤ, -128 ≤ n ∧ n ≤ 127 ∧ clampSymbol (A.round x) = A.ofRat n := by
  obtain ⟨n, hn⟩ := hA.round_integer x
  refine ⟨min 127 (max (-128) n), by omega, by omega, ?_⟩
  rw [hn, clampSymbol_integer hA]

theorem forcedToZero_zero (scale : A.Float) : forcedToZero (A.ofRat 0) scale = false := by
  simp [forcedToZero, hA.less_irrefl]

/-- At a selected position the values are used as they are. -/
theorem processElement_selected (value scale mean : A.Float) :
    processElement value scale mean (A.ofRat 1) (A.ofRat 0) =
      ⟨scale, mean, value - mean, clampSymbol (A.round (value - mean))⟩ := by
  simp [processElement, hA.mul_one, forcedToZero_zero hA]

/-- At a suppressed position everything is zero. -/
theorem processElement_suppressed (value scale mean : A.Float) :
    processElement value scale mean (A.ofRat 0) (A.ofRat 0) =
      ⟨A.ofRat 0, A.ofRat 0, A.ofRat 0, A.ofRat 0⟩ := by
  simp [processElement, hA.mul_zero, forcedToZero_zero hA, hA.round_zero, clampSymbol_zero hA]

/-- A sum over the quarters with one nonzero entry is that entry. -/
theorem quarterSum_single {quarterSize index part : ℕ} (entry : ℕ → A.Float) (hpart : part < 4)
    (h : ∀ other < 4, other ≠ part → entry (index + other * quarterSize) = A.ofRat 0) :
    quarterSum quarterSize entry index = entry (index + part * quarterSize) := by
  interval_cases part
  · rw [quarterSum, h 1 (by omega) (by omega), h 2 (by omega) (by omega),
      h 3 (by omega) (by omega), hA.add_zero, hA.add_zero, hA.add_zero, hA.zero_add]
  · rw [quarterSum, h 0 (by omega) (by omega), h 2 (by omega) (by omega),
      h 3 (by omega) (by omega), hA.add_zero, hA.add_zero, hA.add_zero, hA.zero_add]
  · rw [quarterSum, h 0 (by omega) (by omega), h 1 (by omega) (by omega),
      h 3 (by omega) (by omega), hA.add_zero, hA.add_zero, hA.add_zero, hA.zero_add]
  · rw [quarterSum, h 0 (by omega) (by omega), h 1 (by omega) (by omega),
      h 2 (by omega) (by omega), hA.add_zero, hA.add_zero, hA.add_zero, hA.zero_add]

/-- A sum over the halves with one nonzero entry is that entry. -/
theorem halfSum_single {halfSize index part : ℕ} (entry : ℕ → A.Float) (hpart : part < 2)
    (h : ∀ other < 2, other ≠ part → entry (index + other * halfSize) = A.ofRat 0) :
    entry index + entry (index + halfSize) = entry (index + part * halfSize) := by
  have hfirst := h 0 (by omega)
  have hsecond := h 1 (by omega)
  simp only [Nat.zero_mul, Nat.add_zero, Nat.one_mul] at hfirst hsecond
  interval_cases part
  · rw [hsecond (by omega), hA.add_zero, Nat.zero_mul, Nat.add_zero]
  · rw [hfirst (by omega), hA.zero_add, Nat.one_mul]

omit hA in
/-- A combined symbol holds its scale index and its symbol unchanged. -/
theorem combineIndex_parts {n : ℤ} (hlow : -128 ≤ n) (hhigh : n ≤ 127) (index : UInt8) :
    RansCodec.combinedRow (combineIndex (Int16.ofInt n) index) = index.toNat ∧
      RansCodec.combinedSymbol (combineIndex (Int16.ofInt n) index) = Int8.ofInt n := by
  have hindex : index.toNat < 256 := index.toNat_lt
  have hsymbol : (Int16.ofInt n).toInt = n := Int16.toInt_ofInt_of_le (by omega) (by omega)
  have hvalue : (combineIndex (Int16.ofInt n) index).toInt = n * 256 + index.toNat := by
    rw [combineIndex, hsymbol]
    exact Int16.toInt_ofInt_of_le (by omega) (by omega)
  constructor
  · rw [RansCodec.combinedRow, hvalue]
    omega
  · rw [RansCodec.combinedSymbol, hvalue]
    congr 1
    omega

/-- The encoder's rows are the decoder's, and the coded symbols restore the values they were
taken from. -/
theorem indexes_agree {symbols scales : List A.Half} {count : ℕ} (hcount : 0 < count)
    (hsymbols : symbols.length = count) (hscales : scales.length = count)
    (hinteger : ∀ index < count, ∃ n : ℤ, -128 ≤ n ∧ n ≤ 127 ∧
      symbols.getD index 0 = A.toHalf (A.ofRat n)) :
    ∃ indexes rows, buildEncodeIndexes symbols scales count (A.ofRat 0) = some indexes ∧
      buildDecodeIndexes scales count (A.ofRat 0) = some rows ∧
      rows.map UInt8.toNat = indexes.map RansCodec.combinedRow ∧
      int8ToHalf (indexes.map RansCodec.combinedSymbol) count = some symbols ∧
      indexes.length = count := by
  have hencode : ¬ (count = 0 ∨ symbols.length < count ∨ scales.length < count) := by omega
  have hdecode : ¬ (count = 0 ∨ scales.length < count) := by omega
  have hparts : ∀ index < count,
      RansCodec.combinedRow (combineIndex (Int16.ofInt (A.truncate (load symbols index)))
        (scaleIndex (load scales index))) = (scaleIndex (load scales index)).toNat ∧
      halfOfInt8 (RansCodec.combinedSymbol (combineIndex
        (Int16.ofInt (A.truncate (load symbols index))) (scaleIndex (load scales index)))) =
        symbols.getD index 0 := by
    intro index hindex
    obtain ⟨n, hlow, hhigh, hn⟩ := hinteger index hindex
    have htruncate : A.truncate (load symbols index) = n := by
      rw [load, hn, hA.toFloat_toHalf n hlow hhigh, hA.truncate_integer]
    obtain ⟨hrow, hsymbol⟩ := combineIndex_parts hlow hhigh (scaleIndex (load scales index))
    have hbyte : (Int8.ofInt n).toInt = n := Int8.toInt_ofInt_of_le (by omega) (by omega)
    rw [htruncate, hrow, hsymbol, halfOfInt8, hbyte, hn]
    exact ⟨rfl, rfl⟩
  let combined : ℕ → Int16 := fun index =>
    combineIndex (Int16.ofInt (A.truncate (load symbols index))) (scaleIndex (load scales index))
  refine ⟨(List.range count).map combined,
    (List.range count).map fun index => scaleIndex (load scales index), ?_, ?_, ?_, ?_, by simp⟩
  · simp only [buildEncodeIndexes, if_neg hencode, forcedToZero_zero hA, Bool.false_eq_true,
      if_false]
    rfl
  · simp only [buildDecodeIndexes, if_neg hdecode, forcedToZero_zero hA, Bool.false_eq_true,
      if_false]
  · rw [List.map_map, List.map_map]
    apply List.map_congr_left
    intro index hindex
    exact (hparts index (List.mem_range.mp hindex)).1.symm
  · have hvalues : ((List.range count).map combined).map
        (fun value => halfOfInt8 (A := A) (RansCodec.combinedSymbol value)) = symbols := by
      rw [List.map_map]
      conv_rhs => rw [eq_map_range 0 hsymbols]
      apply List.map_congr_left
      intro index hindex
      exact (hparts index (List.mem_range.mp hindex)).2
    rw [int8ToHalf, if_neg (by simp; omega), List.map_map]
    exact congrArg some hvalues

omit hA

/-- At every reduced position the selection takes exactly one of the parts. -/
def Selects (parts partSize : ℕ) (selected : ℕ → Bool) (part : ℕ → ℕ) : Prop :=
  ∀ index < partSize, part index < parts ∧
    ∀ other < parts, selected (index + other * partSize) = decide (other = part index)

def maskOf (count : ℕ) (selected : ℕ → Bool) : List A.Half :=
  (List.range count).map fun index => maskValue (selected index)

/-- The values at the selected positions, and zero elsewhere. -/
def keepSelected (count : ℕ) (selected : ℕ → Bool) (value : ℕ → A.Half) : List A.Half :=
  (List.range count).map fun index => if selected index then value index else 0

/-- The values that the selection takes at the reduced positions. -/
def takeSelected (partSize : ℕ) (part : ℕ → ℕ) (value : ℕ → A.Half) : List A.Half :=
  (List.range partSize).map fun index => value (index + part index * partSize)

/-- The symbol of a position as a float. -/
def quantized (y means : List A.Half) (index : ℕ) : A.Float :=
  clampSymbol (A.round (load y index - load means index))

theorem load_maskOf (hA : A.Exact) {count index : ℕ} (h : index < count) (selected : ℕ → Bool) :
    load (maskOf (A := A) count selected) index =
      if selected index then A.ofRat 1 else A.ofRat 0 := by
  rw [load, maskOf, getD_map_range h, toFloat_maskValue hA]

theorem load_keepSelected (hA : A.Exact) {count index : ℕ} (h : index < count)
    (selected : ℕ → Bool) (value : ℕ → A.Half) :
    load (keepSelected count selected value) index =
      if selected index then A.toFloat (value index) else A.ofRat 0 := by
  rw [load, keepSelected, getD_map_range h]
  split
  · rfl
  · exact toFloat_zero hA

/-- Masked processing keeps the selected symbols, scales and reconstructed values. -/
theorem processWithMask_eq (hA : A.Exact) {count : ℕ} (selected : ℕ → Bool)
    {y scales means : List A.Half} (hcount : 0 < count) (hy : y.length = count)
    (hscales : scales.length = count) (hmeans : means.length = count) :
    processWithMask y scales means (maskOf count selected) 0 count count count (A.ofRat 0) =
      some {
        residual := []
        symbols := keepSelected count selected fun index => A.toHalf (quantized y means index)
        reconstructed := keepSelected count selected fun index =>
          A.toHalf (quantized y means index + load means index)
        maskedScales := keepSelected count selected fun index => scales.getD index 0 } := by
  have hmask : (maskOf (A := A) count selected).length = count := by simp [maskOf]
  have hguard : ¬ (count = 0 ∨ scales.length < count ∨ means.length < count ∨
      (maskOf (A := A) count selected).length < count ∨ count < count ∨ count < count ∨
      count < count ∨ ((0 : ℕ) ≠ 0 ∧ 0 < count)) := by omega
  have helement : ∀ index < count, processElement (load y index) (load scales index)
      (load means index) (load (maskOf count selected) index) (A.ofRat 0) =
      if selected index then
        ⟨load scales index, load means index, load y index - load means index,
          quantized y means index⟩
      else ⟨A.ofRat 0, A.ofRat 0, A.ofRat 0, A.ofRat 0⟩ := by
    intro index hindex
    rw [load_maskOf hA hindex]
    cases selected index with
    | true => exact processElement_selected hA _ _ _
    | false => exact processElement_suppressed hA _ _ _
  rw [processWithMask]
  simp only [hy, if_neg hguard, if_true, keepSelected]
  congr 2
  · apply List.map_congr_left
    intro index hindex
    rw [helement index (List.mem_range.mp hindex)]
    cases selected index <;> rfl
  · apply List.map_congr_left
    intro index hindex
    rw [helement index (List.mem_range.mp hindex)]
    cases selected index with
    | true => rfl
    | false =>
        simp only [Bool.false_eq_true, if_false, hA.add_zero]
        rfl
  · apply List.map_congr_left
    intro index hindex
    rw [helement index (List.mem_range.mp hindex)]
    cases selected index with
    | true => exact hA.toHalf_toFloat _
    | false => rfl

/-- The rebuilt latent is the encoder's: selected positions take their symbol, the others are
zero. -/
theorem restored_takeSelected (hA : A.Exact) {parts partSize : ℕ} {selected : ℕ → Bool}
    {part : ℕ → ℕ} {y means : List A.Half} (hselects : Selects parts partSize selected part) :
    restored (takeSelected partSize part fun index => A.toHalf (quantized y means index)) means
        (maskOf (parts * partSize) selected) parts partSize =
      keepSelected (parts * partSize) selected fun index =>
        A.toHalf (quantized y means index + load means index) := by
  rw [restored, flatMap_range_map_range, keepSelected]
  apply List.map_congr_left
  intro index hindex
  have hlt : index < parts * partSize := List.mem_range.mp hindex
  have hpos : 0 < partSize := Nat.pos_of_mul_pos_left (by omega : 0 < parts * partSize)
  have hmod : index % partSize < partSize := Nat.mod_lt index hpos
  have hdiv : index / partSize < parts := Nat.div_lt_of_lt_mul (by rwa [Nat.mul_comm] at hlt)
  have hindex' : index % partSize + index / partSize * partSize = index := by
    rw [Nat.mul_comm]
    exact Nat.mod_add_div index partSize
  have hselected := (hselects _ hmod).2 _ hdiv
  rw [hindex'] at hselected ⊢
  rw [load_maskOf hA hlt, restoreElement, load, takeSelected, getD_map_range hmod]
  obtain ⟨n, hlow, hhigh, hn⟩ := clampSymbol_round hA
    (load y (index % partSize + part (index % partSize) * partSize) -
      load means (index % partSize + part (index % partSize) * partSize))
  cases hcase : selected index with
  | false =>
      simp only [Bool.false_eq_true, if_false, hA.mul_zero]
      rfl
  | true =>
      rw [hcase] at hselected
      have hpart : index / partSize = part (index % partSize) := by simpa using hselected
      rw [← hpart, hindex'] at hn ⊢
      simp only [if_true, hA.mul_one, quantized, hn, hA.toFloat_toHalf n hlow hhigh]

/-- Reading at a position of a part. -/
theorem part_lt {parts partSize index other : ℕ} (hindex : index < partSize)
    (hother : other < parts) : index + other * partSize < parts * partSize := by
  calc index + other * partSize < partSize + other * partSize := by omega
    _ = (other + 1) * partSize := by rw [Nat.succ_mul, Nat.add_comm]
    _ ≤ parts * partSize := Nat.mul_le_mul_right partSize hother

section Reducing

variable {parts partSize index : ℕ} {selected : ℕ → Bool} {part : ℕ → ℕ}

/-- Of the kept values only the selected part's is not zero. -/
theorem keepSelected_part (hA : A.Exact) (hselects : Selects parts partSize selected part)
    (hindex : index < partSize) (value : ℕ → A.Half) :
    (∀ other < parts, other ≠ part index →
      load (keepSelected (parts * partSize) selected value) (index + other * partSize) =
        A.ofRat 0) ∧
    A.toHalf (load (keepSelected (parts * partSize) selected value)
      (index + part index * partSize)) = value (index + part index * partSize) := by
  obtain ⟨hpart, hselected⟩ := hselects index hindex
  constructor
  · intro other hother hne
    rw [load_keepSelected hA (part_lt hindex hother), hselected other hother]
    simp [hne]
  · rw [load_keepSelected hA (part_lt hindex hpart), hselected _ hpart]
    simp [hA.toHalf_toFloat]

/-- Of the masked values only the selected part's is not zero. -/
theorem masked_part (hA : A.Exact) (hselects : Selects parts partSize selected part)
    (hindex : index < partSize) (values : List A.Half) :
    (∀ other < parts, other ≠ part index →
      load values (index + other * partSize) *
        load (maskOf (parts * partSize) selected) (index + other * partSize) = A.ofRat 0) ∧
    A.toHalf (load values (index + part index * partSize) *
      load (maskOf (parts * partSize) selected) (index + part index * partSize)) =
      values.getD (index + part index * partSize) 0 := by
  obtain ⟨hpart, hselected⟩ := hselects index hindex
  constructor
  · intro other hother hne
    rw [load_maskOf hA (part_lt hindex hother), hselected other hother]
    simp [hne, hA.mul_zero]
  · rw [load_maskOf hA (part_lt hindex hpart), hselected _ hpart]
    simp only [decide_true, if_true, hA.mul_one, load, hA.toHalf_toFloat]

end Reducing

/-- A valid shape whose channels divide into parts of a given size. -/
structure Divides (shape : Shape4D) (parts partSize : ℕ) : Prop where
  valid : ¬ InvalidShape shape
  channels : shape.channels % parts = 0
  volume_eq : volume shape = parts * partSize

theorem Divides.guard {shape : Shape4D} {parts partSize : ℕ} (h : Divides shape parts partSize) :
    ¬ (InvalidShape shape ∨ shape.channels % parts ≠ 0) :=
  not_or.mpr ⟨h.valid, not_not.mpr h.channels⟩

section FourWay

variable {shape : Shape4D} {partSize : ℕ} {selected : ℕ → Bool} {part : ℕ → ℕ}

theorem reduceChannelQuarters_keepSelected (hA : A.Exact) (hshape : Divides shape 4 partSize)
    (hselects : Selects 4 partSize selected part) (value : ℕ → A.Half) :
    reduceChannelQuarters (keepSelected (4 * partSize) selected value) partSize shape =
      some (takeSelected partSize part value) := by
  have hsize : volume shape / 4 = partSize := by
    rw [hshape.volume_eq]
    omega
  have hlength : (keepSelected (4 * partSize) selected value).length = 4 * partSize := by
    simp [keepSelected]
  have hguard : ¬ (InvalidShape shape ∨ shape.channels % 4 ≠ 0) := hshape.guard
  rw [reduceChannelQuarters, if_neg hguard]
  simp only [hsize]
  rw [if_neg (by omega), takeSelected]
  congr 1
  apply List.map_congr_left
  intro index hindex
  have hlt := List.mem_range.mp hindex
  obtain ⟨hothers, hvalue⟩ := keepSelected_part hA hselects hlt value
  rw [quarterSum_single hA _ (hselects index hlt).1 hothers, hvalue]

theorem reduceMaskedQuarters_takeSelected (hA : A.Exact) (hshape : Divides shape 4 partSize)
    (hselects : Selects 4 partSize selected part) {values : List A.Half}
    (hvalues : values.length = 4 * partSize) :
    reduceMaskedQuarters values (maskOf (4 * partSize) selected) partSize shape =
      some (takeSelected partSize part fun index => values.getD index 0) := by
  have hsize : volume shape / 4 = partSize := by
    rw [hshape.volume_eq]
    omega
  have hlength : (maskOf (A := A) (4 * partSize) selected).length = 4 * partSize := by
    simp [maskOf]
  have hguard : ¬ (InvalidShape shape ∨ shape.channels % 4 ≠ 0) := hshape.guard
  rw [reduceMaskedQuarters, if_neg hguard]
  simp only [hsize]
  rw [if_neg (by omega), takeSelected]
  congr 1
  apply List.map_congr_left
  intro index hindex
  have hlt := List.mem_range.mp hindex
  obtain ⟨hothers, hvalue⟩ := masked_part hA hselects hlt values
  rw [quarterSum_single hA (fun source =>
    load values source * load (maskOf (4 * partSize) selected) source) (hselects index hlt).1
    hothers, hvalue]

theorem restoreFourWay_eq (hshape : Divides shape 4 partSize) {symbols means mask : List A.Half}
    (hsymbols : symbols.length = partSize) (hmeans : means.length = 4 * partSize)
    (hmask : mask.length = 4 * partSize) :
    restoreFourWay symbols means mask (4 * partSize) shape =
      some (restored symbols means mask 4 partSize) := by
  have hsize : volume shape / 4 = partSize := by
    rw [hshape.volume_eq]
    omega
  have hguard : ¬ (InvalidShape shape ∨ shape.channels % 4 ≠ 0) := hshape.guard
  rw [restoreFourWay, if_neg hguard]
  simp only [hsize]
  rw [if_neg (by omega)]

end FourWay

section TwoWay

variable {shape : Shape4D} {partSize : ℕ} {selected : ℕ → Bool} {part : ℕ → ℕ}

theorem reduceChannelHalves_keepSelected (hA : A.Exact) (hshape : Divides shape 2 partSize)
    (hselects : Selects 2 partSize selected part) (value : ℕ → A.Half) :
    reduceChannelHalves (keepSelected (2 * partSize) selected value) partSize shape =
      some (takeSelected partSize part value) := by
  have hsize : volume shape / 2 = partSize := by
    rw [hshape.volume_eq]
    omega
  have hlength : (keepSelected (2 * partSize) selected value).length = 2 * partSize := by
    simp [keepSelected]
  have hguard : ¬ (InvalidShape shape ∨ shape.channels % 2 ≠ 0) := hshape.guard
  rw [reduceChannelHalves, if_neg hguard]
  simp only [hsize]
  rw [if_neg (by omega), takeSelected]
  congr 1
  apply List.map_congr_left
  intro index hindex
  have hlt := List.mem_range.mp hindex
  obtain ⟨hothers, hvalue⟩ := keepSelected_part hA hselects hlt value
  rw [halfSum_single hA (load _) (hselects index hlt).1 hothers, hvalue]

theorem reduceMaskedHalves_takeSelected (hA : A.Exact) (hshape : Divides shape 2 partSize)
    (hselects : Selects 2 partSize selected part) {values : List A.Half}
    (hvalues : values.length = 2 * partSize) :
    reduceMaskedHalves values (maskOf (2 * partSize) selected) partSize shape =
      some (takeSelected partSize part fun index => values.getD index 0) := by
  have hsize : volume shape / 2 = partSize := by
    rw [hshape.volume_eq]
    omega
  have hlength : (maskOf (A := A) (2 * partSize) selected).length = 2 * partSize := by
    simp [maskOf]
  have hguard : ¬ (InvalidShape shape ∨ shape.channels % 2 ≠ 0) := hshape.guard
  rw [reduceMaskedHalves, if_neg hguard]
  simp only [hsize]
  rw [if_neg (by omega), takeSelected]
  congr 1
  apply List.map_congr_left
  intro index hindex
  have hlt := List.mem_range.mp hindex
  obtain ⟨hothers, hvalue⟩ := masked_part hA hselects hlt values
  rw [halfSum_single hA (fun source =>
    load values source * load (maskOf (2 * partSize) selected) source) (hselects index hlt).1
    hothers, hvalue]

theorem restoreTwoWay_eq (hshape : Divides shape 2 partSize) {symbols means mask : List A.Half}
    (hsymbols : symbols.length = partSize) (hmeans : means.length = 2 * partSize)
    (hmask : mask.length = 2 * partSize) :
    restoreTwoWay symbols means mask (2 * partSize) shape =
      some (restored symbols means mask 2 partSize) := by
  have hsize : volume shape / 2 = partSize := by
    rw [hshape.volume_eq]
    omega
  have hguard : ¬ (InvalidShape shape ∨ shape.channels % 2 ≠ 0) := hshape.guard
  rw [restoreTwoWay, if_neg hguard]
  simp only [hsize]
  rw [if_neg (by omega)]

end TwoWay

section Masks

variable {channels height width : ℕ}

/-- A selection by channel, row and column read at a flat index. -/
def flatSelected (height width : ℕ) (selected : ℕ → ℕ → ℕ → Bool) (index : ℕ) : Bool :=
  selected (index / width / height) (index / width % height) (index % width)

theorem maskLoop_eq (selected : ℕ → ℕ → ℕ → Bool) :
    maskLoop (A := A) ⟨1, channels, height, width⟩ selected =
      maskOf (channels * height * width) (flatSelected height width selected) := by
  simp only [maskLoop, Int.toNat_one, Int.toNat_natCast, List.range_one, List.flatMap_singleton]
  rw [flatMap_range_flatMap_range, flatMap_range_map_range]
  rfl

/-- The counters of a position inside a part: the part moves the channel only. -/
theorem flatSelected_part {partChannels index other : ℕ} (hheight : 0 < height) (hwidth : 0 < width)
    (selected : ℕ → ℕ → ℕ → Bool) :
    flatSelected height width selected (index + other * (partChannels * height * width)) =
      selected (index / width / height + other * partChannels) (index / width % height)
        (index % width) := by
  have hrow : (index + other * (partChannels * height * width)) / width =
      index / width + other * partChannels * height := by
    rw [show other * (partChannels * height * width) = width * (other * partChannels * height) by ring,
      Nat.add_mul_div_left _ _ hwidth]
  have hcolumn : (index + other * (partChannels * height * width)) % width = index % width := by
    rw [show other * (partChannels * height * width) = width * (other * partChannels * height) by ring,
      Nat.add_mul_mod_self_left]
  rw [flatSelected, hrow, hcolumn, Nat.add_mul_div_right _ _ hheight, Nat.add_mul_mod_self_right]

/-- The channel of a position inside the first part. -/
theorem channel_lt {partChannels index : ℕ} (h : index < partChannels * height * width) :
    index / width / height < partChannels := by
  rw [Nat.div_div_eq_div_mul]
  apply Nat.div_lt_of_lt_mul
  calc index < partChannels * height * width := h
    _ = width * height * partChannels := by ring

/-- Each pattern is its own inverse. -/
theorem fourWayPattern_eq_iff (stage : ℕ) {quarter position : ℕ} (hquarter : quarter < 4)
    (hposition : position < 4) :
    fourWayPattern stage quarter = position ↔ quarter = fourWayPattern stage position := by
  match stage with
  | 0 | 1 | 2 | _ + 3 =>
    interval_cases quarter <;> interval_cases position <;> simp [fourWayPattern]

theorem fourWayPattern_lt (stage : ℕ) {position : ℕ} (hposition : position < 4) :
    fourWayPattern stage position < 4 := by
  match stage with
  | 0 | 1 | 2 | _ + 3 => interval_cases position <;> simp [fourWayPattern]

/-- The parity code of a position. -/
def parity (height width index : ℕ) : ℕ := index / width % height % 2 * 2 + index % width % 2

theorem fourWay_selects (partChannels stage : ℕ) (hchannels : 0 < partChannels)
    (hheight : 0 < height) (hwidth : 0 < width) :
    Selects 4 (partChannels * height * width)
      (flatSelected height width (fourWaySelected (4 * partChannels) stage))
      (fun index => fourWayPattern stage (parity height width index)) := by
  intro index hindex
  have hparity : parity height width index < 4 := by
    unfold parity
    omega
  refine ⟨fourWayPattern_lt stage hparity, fun other hother => ?_⟩
  have hquarter : (index / width / height + other * partChannels) / (4 * partChannels / 4) = other := by
    rw [Nat.mul_div_cancel_left _ (by omega), Nat.add_mul_div_right _ _ hchannels,
      Nat.div_eq_of_lt (channel_lt hindex), Nat.zero_add]
  rw [flatSelected_part hheight hwidth, fourWaySelected, hquarter]
  have hiff := fourWayPattern_eq_iff stage hother hparity
  rw [Bool.eq_iff_iff, beq_iff_eq, decide_eq_true_eq]
  exact hiff

theorem twoWay_selects (partChannels stage : ℕ) (hheight : 0 < height) (hwidth : 0 < width) :
    Selects 2 (partChannels * height * width)
      (flatSelected height width (twoWaySelected (2 * partChannels) stage))
      (fun index => if (stage = 0) ↔ (index / width % height % 2 = index % width % 2) then 0
        else 1) := by
  intro index hindex
  refine ⟨by dsimp only; split <;> omega, fun other hother => ?_⟩
  have hchannel := channel_lt hindex
  rw [flatSelected_part hheight hwidth, twoWaySelected]
  have hhalf : decide (index / width / height + other * partChannels < 2 * partChannels / 2) =
      decide (other = 0) := by
    rw [Nat.mul_div_cancel_left _ (by omega)]
    interval_cases other
    · simpa using hchannel
    · simp
  simp only [hhalf]
  by_cases hstage : stage = 0 <;>
    by_cases hdiagonal : index / width % height % 2 = index % width % 2 <;>
    interval_cases other <;> simp [hstage, hdiagonal]

end Masks

/-- What the two sides compute in one masked stage. -/
structure StageCoding (A : HostArithmetic) where
  mask : List A.Half
  processed : ProcessedWithMask A
  symbols : List A.Half
  scales : List A.Half
  indexes : List Int16
  rows : List UInt8

/-- The reducing and restoring transforms of a way to divide the channels. -/
structure Division (A : HostArithmetic) where
  reduce : List A.Half → Option (List A.Half)
  reduceMasked : List A.Half → List A.Half → Option (List A.Half)
  restore : List A.Half → List A.Half → List A.Half → Option (List A.Half)

/-- Every transform of the stage succeeds on both sides, with the same coding rows and the same
rebuilt latent. -/
structure StageAgrees (division : Division A) (count partSize : ℕ)
    (y scales means : List A.Half) (coding : StageCoding A) : Prop where
  processed : processWithMask y scales means coding.mask 0 count count count (A.ofRat 0) =
    some coding.processed
  symbols : division.reduce coding.processed.symbols = some coding.symbols
  reducedScales : division.reduce coding.processed.maskedScales = some coding.scales
  indexes : buildEncodeIndexes coding.symbols coding.scales partSize (A.ofRat 0) =
    some coding.indexes
  maskedScales : division.reduceMasked scales coding.mask = some coding.scales
  rows : buildDecodeIndexes coding.scales partSize (A.ofRat 0) = some coding.rows
  rows_eq : coding.rows.map UInt8.toNat = coding.indexes.map RansCodec.combinedRow
  restoredSymbols : int8ToHalf (coding.indexes.map RansCodec.combinedSymbol) partSize =
    some coding.symbols
  reconstructed : division.restore coding.symbols means coding.mask =
    some coding.processed.reconstructed
  indexes_length : coding.indexes.length = partSize
  reconstructed_length : coding.processed.reconstructed.length = count

/-- A division whose selection takes one part everywhere agrees on the two sides. -/
theorem exists_stageAgrees (hA : A.Exact) (division : Division A) {parts partSize : ℕ}
    {selected : ℕ → Bool} {part : ℕ → ℕ} {y scales means : List A.Half}
    (hparts : 0 < parts) (hsize : 0 < partSize) (hselects : Selects parts partSize selected part)
    (hreduce : ∀ value, division.reduce (keepSelected (parts * partSize) selected value) =
      some (takeSelected partSize part value))
    (hreduceMasked : division.reduceMasked scales (maskOf (parts * partSize) selected) =
      some (takeSelected partSize part fun index => scales.getD index 0))
    (hrestore : ∀ symbols, symbols.length = partSize →
      division.restore symbols means (maskOf (parts * partSize) selected) =
        some (restored symbols means (maskOf (parts * partSize) selected) parts partSize))
    (hy : y.length = parts * partSize) (hscales : scales.length = parts * partSize)
    (hmeans : means.length = parts * partSize) :
    ∃ coding, coding.mask = maskOf (parts * partSize) selected ∧
      StageAgrees division (parts * partSize) partSize y scales means coding := by
  have hprocessed := processWithMask_eq hA selected (Nat.mul_pos hparts hsize) hy hscales hmeans
  have hinteger : ∀ index < partSize, ∃ n : ℤ, -128 ≤ n ∧ n ≤ 127 ∧
      (takeSelected partSize part fun index => A.toHalf (quantized y means index)).getD index 0 =
        A.toHalf (A.ofRat n) := by
    intro index hindex
    obtain ⟨n, hlow, hhigh, hn⟩ := clampSymbol_round hA
      (load y (index + part index * partSize) - load means (index + part index * partSize))
    refine ⟨n, hlow, hhigh, ?_⟩
    rw [takeSelected, getD_map_range hindex, quantized, hn]
  have htaken : (takeSelected partSize part fun index => scales.getD index 0).length = partSize := by
    simp [takeSelected]
  obtain ⟨indexes, rows, hindexes, hrows, hrowsEq, hrestored, hlength⟩ :=
    indexes_agree hA hsize (by simp [takeSelected]) htaken hinteger
  have hrebuilt := (hrestore (takeSelected partSize part fun index =>
    A.toHalf (quantized y means index)) (by simp [takeSelected])).trans
      (congrArg some (restored_takeSelected hA hselects))
  refine ⟨⟨maskOf (parts * partSize) selected, _, _, _, indexes, rows⟩, rfl,
    { processed := hprocessed
      symbols := hreduce _
      reducedScales := hreduce _
      indexes := hindexes
      maskedScales := hreduceMasked
      rows := hrows
      rows_eq := hrowsEq
      restoredSymbols := hrestored
      reconstructed := hrebuilt
      indexes_length := hlength
      reconstructed_length := by simp [keepSelected] }⟩

end HostOps

end Nvcr.Rt
