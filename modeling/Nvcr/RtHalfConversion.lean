import Nvcr.BinaryFormats

/-!
# Conversion between float and half

Patterns of binary32 and binary16 are unsigned numbers. The two operations on floats that the
conversions use act on positive numbers: they take the exact result to the nearest pattern.
-/

namespace Nvcr.Rt.HalfConversion

open BinaryFormats

def binary16 : Format := ⟨10, 5, by decide, by decide⟩

def binary32 : Format := ⟨23, 8, by decide, by decide⟩

section Source

/-- The float of a rounded pattern; beyond the largest number it is infinity. -/
def floatOf (pattern : ℕ) : UInt32 := UInt32.ofNat (min pattern binary32.infinity)

/-- The sum of two positive floats. -/
def addFloat (a b : UInt32) : UInt32 :=
  floatOf (binary32.roundNearest 0 (binary32.magnitude a.toNat + binary32.magnitude b.toNat))

/-- The product of two positive floats; the units of both are 2 ^ -149. -/
def mulFloat (a b : UInt32) : UInt32 :=
  floatOf (binary32.roundNearest 149 (binary32.magnitude a.toNat * binary32.magnitude b.toNat))

/-- The float of an unsigned integer. -/
def floatOfInteger (n : UInt32) : UInt32 := floatOf (binary32.roundNearest 0 (n.toNat * 2 ^ 149))

def f32Infinity : UInt32 := (255 : UInt32) <<< 23

def f16Overflow : UInt32 := (127 + 16 : UInt32) <<< 23

def denormalMagic : UInt32 := ((127 - 15) + (23 - 10) + 1 : UInt32) <<< 23

def toHalf (value : UInt32) : UInt16 :=
  let sign := value &&& 0x80000000
  let bits := value ^^^ sign
  let output :=
    if bits ≥ f16Overflow then
      if bits > f32Infinity then 0x7e00 else 0x7c00
    else if bits < (113 : UInt32) <<< 23 then
      addFloat bits denormalMagic - denormalMagic
    else
      let mantissaOdd := (bits >>> (13 : UInt32)) &&& 1
      let bits := bits + ((15 - 127 : UInt32) <<< (23 : UInt32) + 0xfff)
      let bits := bits + mantissaOdd
      bits >>> 13
  (output ||| sign >>> 16).toUInt16

def toFloat (value : UInt16) : UInt32 :=
  let sign := (value &&& 0x8000).toUInt32 <<< 16
  let exponent := (value >>> 10).toUInt32 &&& 0x1f
  let mantissa := value.toUInt32 &&& 0x3ff
  if exponent = 0 then
    -- the factor is 2 ^ -24
    mulFloat (floatOfInteger mantissa) ((103 : UInt32) <<< 23) ||| sign
  else if exponent = 31 then sign ||| (0x7f800000 : UInt32) ||| mantissa <<< (13 : UInt32)
  else sign ||| (exponent + 112) <<< (23 : UInt32) ||| mantissa <<< (13 : UInt32)

end Source

section Bits

theorem and_top (n i : ℕ) (h : n < 2 ^ (i + 1)) : n &&& 2 ^ i = n / 2 ^ i * 2 ^ i := by
  have hhigh : n / 2 ^ i < 2 := Nat.div_lt_of_lt_mul (by rwa [← Nat.pow_succ])
  apply Nat.eq_of_testBit_eq
  intro k
  rw [Nat.testBit_and, Nat.testBit_two_pow, Nat.testBit_mul_two_pow, Nat.testBit_div_two_pow]
  rcases lt_trichotomy k i with hlt | rfl | hgt
  · simp [hlt.ne', hlt.not_ge]
  · simp
  · have hbit : n.testBit k = false :=
      Nat.testBit_lt_two_pow (h.trans_le (Nat.pow_le_pow_right (by decide) hgt))
    simp [hbit, hgt.le]

theorem xor_top (n i : ℕ) (h : n < 2 ^ (i + 1)) : n ^^^ (n &&& 2 ^ i) = n % 2 ^ i := by
  apply Nat.eq_of_testBit_eq
  intro k
  rw [Nat.testBit_xor, Nat.testBit_and, Nat.testBit_two_pow, Nat.testBit_mod_two_pow]
  rcases lt_trichotomy k i with hlt | rfl | hgt
  · simp [hlt, hlt.ne']
  · simp
  · have hbit : n.testBit k = false :=
      Nat.testBit_lt_two_pow (h.trans_le (Nat.pow_le_pow_right (by decide) hgt))
    simp [hbit, hgt.not_gt]

variable (value : UInt32)

theorem sign_toNat : (value &&& 0x80000000).toNat = value.toNat / 2 ^ 31 * 2 ^ 31 := by
  rw [UInt32.toNat_and]
  exact and_top _ 31 value.toNat_lt

theorem bits_toNat : (value ^^^ (value &&& 0x80000000)).toNat = value.toNat % 2 ^ 31 := by
  rw [UInt32.toNat_xor, UInt32.toNat_and]
  exact xor_top _ 31 value.toNat_lt

end Bits

section ToHalf

/-- The conversion without the sign, in natural numbers. -/
def halfMagnitude (n : ℕ) : ℕ :=
  if 143 * 2 ^ 23 ≤ n then
    if 255 * 2 ^ 23 < n then 0x7e00 else 0x7c00
  else if n < 113 * 2 ^ 23 then
    binary32.roundNearest 0 (binary32.magnitude n + 2 ^ 148) - 126 * 2 ^ 23
  else (n - 112 * 2 ^ 23 + 0xfff + n / 2 ^ 13 % 2) / 2 ^ 13

/-- The value of a float in units of the smallest half. -/
theorem value_eq_half_units (n : ℕ) :
    binary32.value n = binary32.magnitude n * binary16.unit / 2 ^ 125 := by
  have hunit : binary32.unit = binary16.unit / 2 ^ 125 := by
    norm_num [Format.unit, binary16, binary32]
  rw [Format.value, hunit, mul_div_assoc]

theorem infinity16 : binary16.infinity = 0x7c00 := by decide

theorem infinity32 : binary32.infinity = 255 * 2 ^ 23 := by decide

/-- Below the smallest normal half the float addition rounds to the last place of a half. -/
theorem subnormal_eq {n : ℕ} (h : n < 113 * 2 ^ 23) :
    binary32.roundNearest 0 (binary32.magnitude n + 2 ^ 148) = 126 * 2 ^ 23 +
      (if 2 ^ 125 < 2 * (binary32.magnitude n % 2 ^ 125) ∨
          2 * (binary32.magnitude n % 2 ^ 125) = 2 ^ 125 ∧ binary32.magnitude n / 2 ^ 125 % 2 = 1
        then binary32.magnitude n / 2 ^ 125 + 1 else binary32.magnitude n / 2 ^ 125) ∧
      binary32.magnitude n / 2 ^ 125 < 2 ^ 10 := by
  have hbound : binary32.magnitude n < 2 ^ 135 := by
    have hlt : binary32.magnitude n < binary32.magnitude (113 * 2 ^ 23) :=
      Format.magnitude_strictMono h
    exact hlt.trans_eq (by decide)
  generalize binary32.magnitude n = units at hbound
  have hlog : (units + 2 ^ 148).log2 = 148 := by
    rw [Nat.log2_eq_iff (by positivity)]
    omega
  have hquotient : (units + 2 ^ 148) / 2 ^ 125 = units / 2 ^ 125 + 2 ^ 23 := by omega
  have hremainder : (units + 2 ^ 148) % 2 ^ 125 = units % 2 ^ 125 := by omega
  have hsmall : units / 2 ^ 125 < 2 ^ 10 := by omega
  refine ⟨?_, hsmall⟩
  have hfraction : binary32.fraction = 23 := rfl
  simp only [Format.roundNearest, hlog, hfraction, Nat.reduceSub, Nat.zero_add, hquotient,
    hremainder]
  have hparity : (units / 2 ^ 125 + 2 ^ 23) % 2 = units / 2 ^ 125 % 2 := by omega
  rw [hparity]
  split <;> omega

/-- A normal float has the exponent and the significand of a half and a remainder. -/
theorem normal_eq {n : ℕ} (hlow : 113 * 2 ^ 23 ≤ n) (hhigh : n < 143 * 2 ^ 23) :
    ∃ j q r, j < 30 ∧ q < 2 ^ 11 ∧ 2 ^ 10 ≤ q ∧ r < 2 ^ (125 + j) ∧
      binary32.magnitude n = q * 2 ^ (125 + j) + r ∧
      (n - 112 * 2 ^ 23 + 0xfff + n / 2 ^ 13 % 2) / 2 ^ 13 =
        if 2 ^ (125 + j) < 2 * r ∨ 2 * r = 2 ^ (125 + j) ∧ q % 2 = 1 then j * 2 ^ 10 + q + 1
        else j * 2 ^ 10 + q := by
  obtain ⟨j, hj⟩ : ∃ j, n / 2 ^ 23 = j + 113 := ⟨n / 2 ^ 23 - 113, by omega⟩
  have hpow : 2 ^ (125 + j) = 2 ^ 13 * 2 ^ (112 + j) := by
    rw [← Nat.pow_add]
    congr 1
    omega
  have hpos : 0 < 2 ^ (112 + j) := Nat.two_pow_pos _
  have hmagnitude : binary32.magnitude n = (2 ^ 23 + n % 2 ^ 23) * 2 ^ (112 + j) := by
    have hlarge : ¬ n < 2 ^ 23 := by omega
    have hshift : j + 113 - 1 = 112 + j := by omega
    change (if n < 2 ^ 23 then n else (2 ^ 23 + n % 2 ^ 23) * 2 ^ (n / 2 ^ 23 - 1)) = _
    rw [if_neg hlarge, hj, hshift]
  refine ⟨j, 2 ^ 10 + n % 2 ^ 23 / 2 ^ 13, n % 2 ^ 13 * 2 ^ (112 + j), by omega, by omega, by omega,
    ?_, ?_, ?_⟩
  · rw [hpow]
    exact Nat.mul_lt_mul_of_pos_right (Nat.mod_lt n (by decide)) hpos
  · rw [hmagnitude, hpow, ← Nat.mul_assoc, ← Nat.add_mul]
    congr 1
    omega
  · have hless : 2 ^ (125 + j) < 2 * (n % 2 ^ 13 * 2 ^ (112 + j)) ↔ 2 ^ 13 < 2 * (n % 2 ^ 13) := by
      rw [hpow, ← Nat.mul_assoc, Nat.mul_lt_mul_right hpos]
    have htie : 2 * (n % 2 ^ 13 * 2 ^ (112 + j)) = 2 ^ (125 + j) ↔ 2 * (n % 2 ^ 13) = 2 ^ 13 := by
      rw [hpow, ← Nat.mul_assoc, Nat.mul_left_inj hpos.ne']
    simp only [hless, htie]
    split <;> omega

/-- Up to the largest half the result is nearest, with ties to even. -/
theorem halfMagnitude_nearest {n : ℕ} (h : n < 143 * 2 ^ 23) :
    NearestEven binary16.value (binary32.value n) (halfMagnitude n) ∧
      halfMagnitude n ≤ binary16.infinity := by
  rw [infinity16]
  have hhalf : ¬ 143 * 2 ^ 23 ≤ n := not_le.mpr h
  by_cases hsmall : n < 113 * 2 ^ 23
  · obtain ⟨hresult, hquotient⟩ := subnormal_eq hsmall
    have hvalue : halfMagnitude n =
        binary32.roundNearest 0 (binary32.magnitude n + 2 ^ 148) - 126 * 2 ^ 23 := by
      rw [halfMagnitude, if_neg hhalf, if_pos hsmall]
    rw [hresult, Nat.add_sub_cancel_left] at hvalue
    constructor
    · have hnearest := Format.nearestEven_of_division (f := binary16) (j := 0) (t := 125)
        (k := halfMagnitude n) (hquotient.trans (by decide)) (.inl rfl)
        (Nat.mod_lt (binary32.magnitude n) (by decide))
        (by rw [hvalue, Nat.zero_mul, Nat.zero_add, Nat.add_zero])
      rw [Nat.add_zero, Nat.div_add_mod'] at hnearest
      rwa [value_eq_half_units]
    · rw [hvalue]
      split <;> omega
  · obtain ⟨j, q, r, hj, hq, hqlow, hr, hunits, hresult⟩ := normal_eq (not_lt.mp hsmall) h
    have hvalue : halfMagnitude n = (n - 112 * 2 ^ 23 + 0xfff + n / 2 ^ 13 % 2) / 2 ^ 13 := by
      rw [halfMagnitude, if_neg hhalf, if_neg hsmall]
    rw [hresult] at hvalue
    constructor
    · have hnearest := Format.nearestEven_of_division (f := binary16) hq (.inr hqlow) hr hvalue
      rwa [value_eq_half_units, hunits]
    · rw [hvalue]
      split <;> omega

/-- The largest results are those of infinity and of the numbers that are none. -/
theorem halfMagnitude_lt (n : ℕ) : halfMagnitude n < 2 ^ 15 := by
  by_cases hlarge : 143 * 2 ^ 23 ≤ n
  · rw [halfMagnitude, if_pos hlarge]
    split <;> decide
  · exact (halfMagnitude_nearest (not_le.mp hlarge)).2.trans_lt (by decide)

theorem floatOf_toNat (pattern : ℕ) : (floatOf pattern).toNat = min pattern binary32.infinity := by
  rw [floatOf, UInt32.toNat_ofNat']
  refine Nat.mod_eq_of_lt ((min_le_right _ _).trans_lt ?_)
  rw [infinity32]
  decide

theorem addFloat_magic {bits : UInt32} (h : bits.toNat < 113 * 2 ^ 23) :
    (addFloat bits denormalMagic - denormalMagic).toNat = halfMagnitude bits.toNat := by
  have hmagic : denormalMagic.toNat = 126 * 2 ^ 23 := by decide
  have hunits : binary32.magnitude (126 * 2 ^ 23) = 2 ^ 148 := by decide
  obtain ⟨hsum, hquotient⟩ := subnormal_eq h
  have hsmall : binary32.roundNearest 0 (binary32.magnitude bits.toNat + 2 ^ 148) - 126 * 2 ^ 23 ≤
      2 ^ 10 := by
    rw [hsum, Nat.add_sub_cancel_left]
    split <;> omega
  have hlow : 126 * 2 ^ 23 ≤ binary32.roundNearest 0 (binary32.magnitude bits.toNat + 2 ^ 148) := by
    rw [hsum]
    exact Nat.le_add_right _ _
  have hfloat : (addFloat bits denormalMagic).toNat =
      binary32.roundNearest 0 (binary32.magnitude bits.toNat + 2 ^ 148) := by
    rw [addFloat, floatOf_toNat, hmagic, hunits, infinity32]
    omega
  have hle : denormalMagic ≤ addFloat bits denormalMagic := by
    rw [UInt32.le_iff_toNat_le, hfloat, hmagic]
    exact hlow
  rw [UInt32.toNat_sub_of_le _ _ hle, hfloat, hmagic, halfMagnitude, if_neg (by omega), if_pos h]

theorem rebias {bits : UInt32} (hlow : 113 * 2 ^ 23 ≤ bits.toNat) (hhigh : bits.toNat < 143 * 2 ^ 23) :
    ((bits + ((15 - 127 : UInt32) <<< (23 : UInt32) + 0xfff) + ((bits >>> (13 : UInt32)) &&& 1)) >>> (13 : UInt32)).toNat =
      halfMagnitude bits.toNat := by
  have hconstant : ((15 - 127 : UInt32) <<< (23 : UInt32) + 0xfff).toNat = 2 ^ 32 - 112 * 2 ^ 23 + 0xfff := by
    decide
  have hodd : ((bits >>> (13 : UInt32)) &&& 1).toNat = bits.toNat / 2 ^ 13 % 2 := by
    rw [UInt32.toNat_and, UInt32.toNat_shiftRight]
    change (bits.toNat >>> 13) &&& 1 = _
    rw [Nat.and_one_is_mod, Nat.shiftRight_eq_div_pow]
  rw [UInt32.toNat_shiftRight, UInt32.toNat_add, UInt32.toNat_add, hconstant, hodd]
  change (_ % 2 ^ 32) >>> 13 = _
  rw [Nat.shiftRight_eq_div_pow, halfMagnitude, if_neg (by omega), if_neg (by omega)]
  omega

theorem toHalf_toNat (value : UInt32) :
    (toHalf value).toNat = halfMagnitude (value.toNat % 2 ^ 31) + value.toNat / 2 ^ 31 * 2 ^ 15 := by
  have hsign := sign_toNat value
  have hbits := bits_toNat value
  simp only [toHalf]
  generalize value ^^^ (value &&& 0x80000000) = bits at hbits ⊢
  generalize value &&& 0x80000000 = sign at hsign ⊢
  rw [← hbits]
  have hoverflow : f16Overflow.toNat = 143 * 2 ^ 23 := by decide
  have hinfinity : f32Infinity.toNat = 255 * 2 ^ 23 := by decide
  have hsubnormal : ((113 : UInt32) <<< 23).toNat = 113 * 2 ^ 23 := by decide
  have houtput : (if bits ≥ f16Overflow then if bits > f32Infinity then (0x7e00 : UInt32) else 0x7c00
      else if bits < (113 : UInt32) <<< 23 then addFloat bits denormalMagic - denormalMagic
      else (bits + ((15 - 127 : UInt32) <<< (23 : UInt32) + 0xfff) + ((bits >>> (13 : UInt32)) &&& 1)) >>> (13 : UInt32)).toNat =
        halfMagnitude bits.toNat := by
    simp only [ge_iff_le, gt_iff_lt, UInt32.le_iff_toNat_le, UInt32.lt_iff_toNat_lt, hoverflow,
      hinfinity, hsubnormal]
    by_cases hlarge : 143 * 2 ^ 23 ≤ bits.toNat
    · rw [if_pos hlarge, halfMagnitude, if_pos hlarge]
      split <;> rfl
    · rw [if_neg hlarge]
      by_cases hsmall : bits.toNat < 113 * 2 ^ 23
      · rw [if_pos hsmall]
        exact addFloat_magic hsmall
      · rw [if_neg hsmall]
        exact rebias (not_lt.mp hsmall) (not_le.mp hlarge)
  rw [UInt32.toNat_toUInt16, UInt32.toNat_or, houtput, UInt32.toNat_shiftRight, hsign]
  change (halfMagnitude bits.toNat ||| (value.toNat / 2 ^ 31 * 2 ^ 31) >>> 16) % 2 ^ 16 = _
  have hvalue := value.toNat_lt
  have hlt := halfMagnitude_lt bits.toNat
  have hshift : (value.toNat / 2 ^ 31 * 2 ^ 31) >>> 16 = 2 ^ 15 * (value.toNat / 2 ^ 31) := by
    rw [Nat.shiftRight_eq_div_pow]
    omega
  rw [hshift, Nat.or_comm, ← Nat.two_pow_add_eq_or_of_lt hlt]
  omega

end ToHalf

section Values

/-- The pattern without its sign, and whether the sign is negative. -/
def floatMagnitude (value : UInt32) : ℕ := value.toNat % 2 ^ 31

def floatNegative (value : UInt32) : Bool := value.toNat / 2 ^ 31 = 1

def halfPattern (half : UInt16) : ℕ := half.toNat % 2 ^ 15

def halfNegative (half : UInt16) : Bool := half.toNat / 2 ^ 15 = 1

def signed (negative : Bool) (value : ℚ) : ℚ := if negative then -value else value

/-- The value of a pattern; it has one if it is below infinity. -/
def floatValue (value : UInt32) : ℚ :=
  signed (floatNegative value) (binary32.value (floatMagnitude value))

def halfValue (half : UInt16) : ℚ :=
  signed (halfNegative half) (binary16.value (halfPattern half))

/-- A half is nearest to a number with a sign: infinite from 65520 on, else at most as far as
every finite half, and even where another value is equally far. -/
structure NearestHalf (x : ℚ) (negative : Bool) (half : UInt16) : Prop where
  sign : halfNegative half = negative
  overflow : 65520 ≤ |x| → halfPattern half = binary16.infinity
  finite : |x| < 65520 → halfPattern half < binary16.infinity
  nearest : |x| < 65520 → ∀ other, halfPattern other < binary16.infinity →
    |x - halfValue half| ≤ |x - halfValue other|
  even : |x| < 65520 → ∀ other, halfPattern other < binary16.infinity →
    halfValue other ≠ halfValue half → |x - halfValue other| = |x - halfValue half| →
      halfPattern half % 2 = 0

theorem abs_signed (negative : Bool) {value : ℚ} (h : 0 ≤ value) : |signed negative value| = value := by
  cases negative with
  | false => exact abs_of_nonneg h
  | true => exact (abs_neg value).trans (abs_of_nonneg h)

theorem abs_signed_sub (negative : Bool) (x y : ℚ) :
    |signed negative x - signed negative y| = |x - y| := by
  cases negative with
  | false => rfl
  | true =>
      change |-x - -y| = |x - y|
      rw [neg_sub_neg, abs_sub_comm]

/-- A value of the other sign is not nearer than the one of the same sign. -/
theorem abs_sub_le_opposite (negative : Bool) {x y : ℚ} (hx : 0 ≤ x) (hy : 0 ≤ y) :
    |signed negative x - signed (!negative) y| = x + y := by
  cases negative with
  | false =>
      change |x - -y| = x + y
      rw [sub_neg_eq_add, abs_of_nonneg (add_nonneg hx hy)]
  | true =>
      change |-x - y| = x + y
      rw [abs_of_nonpos (by linarith)]
      ring

theorem threshold16 : binary16.threshold = 65520 := by
  have hlast : binary16.magnitude 31743 = 65504 * 2 ^ 24 := by decide
  have hnext : binary16.magnitude 31744 = 65536 * 2 ^ 24 := by decide
  have hunit : binary16.unit = 1 / 2 ^ 24 := by norm_num [Format.unit, binary16]
  rw [Format.threshold, infinity16]
  change (binary16.value 31743 + binary16.value 31744) / 2 = 65520
  rw [Format.value, Format.value, hlast, hnext, hunit]
  norm_num

/-- Rounding the number without its sign rounds the number with it. -/
theorem nearestHalf_of_rounded {x : ℚ} (hx : 0 ≤ x) {half : UInt16}
    (h : Format.Rounded binary16 x (halfPattern half)) :
    NearestHalf (signed (halfNegative half) x) (halfNegative half) half := by
  have habs : |signed (halfNegative half) x| = x := abs_signed _ hx
  have hown : |signed (halfNegative half) x - halfValue half| =
      |x - binary16.value (halfPattern half)| := abs_signed_sub _ _ _
  have hother (other : UInt16) :
      |signed (halfNegative half) x - halfValue other| =
          |x - binary16.value (halfPattern other)| ∧ halfNegative other = halfNegative half ∨
        |signed (halfNegative half) x - halfValue other| =
          x + binary16.value (halfPattern other) ∧ halfNegative other = !halfNegative half := by
    rw [halfValue]
    by_cases hsign : halfNegative other = halfNegative half
    · rw [hsign]
      exact .inl ⟨abs_signed_sub _ _ _, rfl⟩
    · have hopposite : halfNegative other = !halfNegative half := Bool.eq_not_of_ne hsign
      rw [hopposite]
      exact .inr ⟨abs_sub_le_opposite _ hx (Format.value_nonneg _), rfl⟩
  have hopposite_le (j : ℕ) : |x - binary16.value j| ≤ x + binary16.value j := by
    have hvalue : 0 ≤ binary16.value j := Format.value_nonneg j
    rw [abs_le]
    constructor <;> linarith
  refine ⟨rfl, ?_, ?_, ?_, ?_⟩
  · rw [habs, ← threshold16]
    exact h.overflow
  · rw [habs, ← threshold16]
    exact h.finite
  · rw [habs, ← threshold16]
    intro hlt other hfinite
    rw [hown]
    rcases hother other with ⟨heq, -⟩ | ⟨heq, -⟩
    · rw [heq]
      exact h.nearest hlt _ hfinite
    · rw [heq]
      exact (h.nearest hlt _ hfinite).trans (hopposite_le _)
  · rw [habs, ← threshold16]
    intro hlt other hfinite hne htie
    rw [hown] at htie
    rcases hother other with ⟨heq, hsign⟩ | ⟨heq, -⟩
    · rw [heq] at htie
      refine h.even hlt _ hfinite (fun hpattern => hne ?_) htie
      rw [halfValue, halfValue, hpattern, hsign]
    · rw [heq] at htie
      have hbound := h.nearest hlt _ hfinite
      refine h.even hlt _ hfinite (fun hpattern => hne ?_)
        (le_antisymm ((hopposite_le _).trans htie.le) hbound)
      -- only a zero is as far with the other sign
      have hzero := h.nearest hlt 0 (by decide)
      rw [Format.value_zero, sub_zero, abs_of_nonneg hx, ← htie] at hzero
      have hvalue : binary16.value (halfPattern other) = 0 :=
        le_antisymm (by linarith) (Format.value_nonneg _)
      rw [halfValue, halfValue, ← hpattern, hvalue]
      simp [signed]

/-- The pattern and the sign of a converted half. -/
theorem toHalf_parts (value : UInt32) :
    halfPattern (toHalf value) = halfMagnitude (floatMagnitude value) ∧
      halfNegative (toHalf value) = floatNegative value := by
  have hvalue := value.toNat_lt
  have hlt := halfMagnitude_lt (floatMagnitude value)
  rw [halfPattern, halfNegative, floatNegative, toHalf_toNat]
  rw [floatMagnitude] at hlt ⊢
  constructor
  · omega
  · rw [decide_eq_decide]
    omega

/-- From 2 ^ 16 on the result is infinity. -/
theorem rounded_toHalf {n : ℕ} (h : n ≤ binary32.infinity) :
    Format.Rounded binary16 (binary32.value n) (halfMagnitude n) := by
  by_cases hlarge : 143 * 2 ^ 23 ≤ n
  · have hpattern : halfMagnitude n = binary16.infinity := by
      rw [infinity32] at h
      rw [halfMagnitude, if_pos hlarge, if_neg (not_lt.mpr h), infinity16]
    have hvalue : binary16.threshold ≤ binary32.value n := by
      have hfirst : binary32.magnitude (143 * 2 ^ 23) = 2 ^ 165 := by decide
      have hunit : binary32.unit = 1 / 2 ^ 149 := by norm_num [Format.unit, binary32]
      have hmono : binary32.value (143 * 2 ^ 23) ≤ binary32.value n :=
        Format.value_strictMono.monotone hlarge
      refine le_trans ?_ hmono
      rw [threshold16, Format.value, hfirst, hunit]
      norm_num
    exact ⟨fun _ => hpattern, fun hlt => absurd hvalue (not_le.mpr hlt),
      fun hlt => absurd hvalue (not_le.mpr hlt), fun hlt => absurd hvalue (not_le.mpr hlt)⟩
  · obtain ⟨hnearest, hle⟩ := halfMagnitude_nearest (not_le.mp hlarge)
    exact Format.rounded_of_nearestEven hnearest hle

end Values

section ToFloat

/-- A float that is computed exactly. -/
theorem magnitude_floatOf {t number units : ℕ} (hnumber : number = units * 2 ^ t)
    (hpattern : ∃ k, binary32.magnitude k = units) (hsmall : units < 2 ^ 277) :
    binary32.magnitude (floatOf (binary32.roundNearest t number)).toNat = units ∧
      (floatOf (binary32.roundNearest t number)).toNat < binary32.infinity := by
  obtain ⟨k, rfl⟩ := hpattern
  have hlt : k < binary32.infinity := by
    refine Format.magnitude_strictMono.lt_iff_lt.mp (hsmall.trans_eq ?_)
    decide +kernel
  rw [floatOf_toNat, Format.roundNearest_exact hnumber, min_eq_left hlt.le]
  exact ⟨rfl, hlt⟩

/-- A subnormal half is its integer times the smallest positive half. -/
theorem subnormal_toFloat {mantissa : UInt32} (h : mantissa.toNat < 2 ^ 10) :
    binary32.magnitude (mulFloat (floatOfInteger mantissa) ((103 : UInt32) <<< 23)).toNat =
        mantissa.toNat * 2 ^ 125 ∧
      (mulFloat (floatOfInteger mantissa) ((103 : UInt32) <<< 23)).toNat < 113 * 2 ^ 23 := by
  have hsignificand : mantissa.toNat < 2 ^ (binary32.fraction + 1) := h.trans (by decide)
  obtain ⟨hinteger, -⟩ := magnitude_floatOf (t := 0) (Nat.mul_one _).symm
    (Format.exists_magnitude hsignificand 149) (by omega : mantissa.toNat * 2 ^ 149 < 2 ^ 277)
  have hfactor : binary32.magnitude ((103 : UInt32) <<< 23).toNat = 2 ^ 125 := by decide
  have hproduct : binary32.magnitude (floatOfInteger mantissa).toNat *
      binary32.magnitude ((103 : UInt32) <<< 23).toNat = mantissa.toNat * 2 ^ 125 * 2 ^ 149 := by
    rw [hfactor]
    change binary32.magnitude (floatOf (binary32.roundNearest 0 (mantissa.toNat * 2 ^ 149))).toNat *
      2 ^ 125 = _
    rw [hinteger]
    ring
  obtain ⟨hunits, -⟩ := magnitude_floatOf hproduct
    (Format.exists_magnitude hsignificand 125) (by omega : mantissa.toNat * 2 ^ 125 < 2 ^ 277)
  refine ⟨hunits, ?_⟩
  refine Format.magnitude_strictMono.lt_iff_lt.mp (hunits.trans_lt ?_)
  have hnormal : binary32.magnitude (113 * 2 ^ 23) = 2 ^ 135 := by decide
  rw [hnormal]
  omega

theorem and_low (n i : ℕ) : n &&& (2 ^ i - 1) = n % 2 ^ i := Nat.and_two_pow_sub_one_eq_mod n i

theorem or_sign {n s : ℕ} (h : n < 2 ^ 31) : s * 2 ^ 31 ||| n = s * 2 ^ 31 + n := by
  rw [Nat.mul_comm, ← Nat.two_pow_add_eq_or_of_lt h]

variable (half : UInt16)

theorem floatSign_toNat : ((half &&& 0x8000).toUInt32 <<< (16 : UInt32)).toNat =
    half.toNat / 2 ^ 15 * 2 ^ 31 := by
  have hhalf := half.toNat_lt
  rw [UInt32.toNat_shiftLeft, UInt16.toNat_toUInt32, UInt16.toNat_and]
  change (half.toNat &&& 2 ^ 15) <<< 16 % 2 ^ 32 = _
  rw [and_top _ 15 hhalf, Nat.shiftLeft_eq]
  omega

theorem exponent_toNat : ((half >>> 10).toUInt32 &&& 0x1f).toNat = halfPattern half / 2 ^ 10 := by
  have hhalf := half.toNat_lt
  rw [UInt32.toNat_and, UInt16.toNat_toUInt32, UInt16.toNat_shiftRight]
  change (half.toNat >>> 10) &&& (2 ^ 5 - 1) = _
  rw [and_low, Nat.shiftRight_eq_div_pow, halfPattern]
  omega

theorem mantissa_toNat : (half.toUInt32 &&& 0x3ff).toNat = halfPattern half % 2 ^ 10 := by
  rw [UInt32.toNat_and, UInt16.toNat_toUInt32]
  change half.toNat &&& (2 ^ 10 - 1) = _
  rw [and_low, halfPattern]
  omega

/-- A part below the sign, with the sign in front or behind. -/
theorem float_parts {value : UInt32} {n s : ℕ} (hvalue : value.toNat = s * 2 ^ 31 + n)
    (hn : n < 2 ^ 31) (hs : s < 2) :
    floatMagnitude value = n ∧ floatNegative value = decide (s = 1) := by
  rw [floatMagnitude, floatNegative, hvalue]
  constructor
  · omega
  · rw [decide_eq_decide]
    omega

theorem or_fraction {n s : ℕ} (h : n < 2 ^ 23) : s * 2 ^ 23 ||| n = s * 2 ^ 23 + n := by
  rw [Nat.mul_comm, ← Nat.two_pow_add_eq_or_of_lt h]

/-- A normal half keeps its significand, and its exponent moves to the bias of the float. -/
theorem normal_units {k : ℕ} (h : 2 ^ 10 ≤ k) :
    binary32.magnitude ((k / 2 ^ 10 + 112) * 2 ^ 23 + k % 2 ^ 10 * 2 ^ 13) =
      binary16.magnitude k * 2 ^ 125 := by
  obtain ⟨j, hj⟩ : ∃ j, k / 2 ^ 10 = j + 1 := ⟨k / 2 ^ 10 - 1, by omega⟩
  have hfloat : (k / 2 ^ 10 + 112) * 2 ^ 23 + k % 2 ^ 10 * 2 ^ 13 =
      (j + 112) * 2 ^ binary32.fraction + (2 ^ 10 + k % 2 ^ 10) * 2 ^ 13 := by
    change _ = (j + 112) * 2 ^ 23 + _
    rw [hj]
    ring
  have hhalf : k = j * 2 ^ binary16.fraction + (2 ^ 10 + k % 2 ^ 10) := by
    change k = j * 2 ^ 10 + _
    omega
  have hsignificand : (2 ^ 10 + k % 2 ^ 10) * 2 ^ 13 ≤ 2 ^ (binary32.fraction + 1) := by
    change _ ≤ 2 ^ 24
    omega
  have hnormal : 2 ^ binary32.fraction ≤ (2 ^ 10 + k % 2 ^ 10) * 2 ^ 13 := by
    change 2 ^ 23 ≤ _
    omega
  have hsmall : 2 ^ 10 + k % 2 ^ 10 ≤ 2 ^ (binary16.fraction + 1) := by
    change _ ≤ 2 ^ 11
    omega
  have hsmallNormal : 2 ^ binary16.fraction ≤ 2 ^ 10 + k % 2 ^ 10 := Nat.le_add_right _ _
  have hunits : binary16.magnitude k = (2 ^ 10 + k % 2 ^ 10) * 2 ^ j := by
    rw [hhalf, Format.magnitude_mul hsmall (.inr hsmallNormal), ← hhalf]
  rw [hfloat, Format.magnitude_mul hsignificand (.inr hnormal), hunits]
  ring

/-- The pattern of a converted half: the value of a finite one, or the same class. -/
theorem toFloat_parts :
    floatNegative (toFloat half) = halfNegative half ∧
    (halfPattern half < binary16.infinity →
      floatMagnitude (toFloat half) < 143 * 2 ^ 23 ∧
        binary32.magnitude (floatMagnitude (toFloat half)) =
          binary16.magnitude (halfPattern half) * 2 ^ 125) ∧
    (binary16.infinity ≤ halfPattern half →
      floatMagnitude (toFloat half) =
        binary32.infinity + (halfPattern half - binary16.infinity) * 2 ^ 13) := by
  have hhalf := half.toNat_lt
  have hpattern : halfPattern half < 2 ^ 15 := Nat.mod_lt _ (by decide)
  have hsign : half.toNat / 2 ^ 15 < 2 := by omega
  have hsignNat := floatSign_toNat half
  have hexponentNat := exponent_toNat half
  have hmantissaNat := mantissa_toNat half
  rw [infinity16, infinity32]
  simp only [toFloat]
  generalize (half &&& 0x8000).toUInt32 <<< (16 : UInt32) = sign at hsignNat ⊢
  generalize (half >>> 10).toUInt32 &&& 0x1f = exponent at hexponentNat ⊢
  generalize half.toUInt32 &&& 0x3ff = mantissa at hmantissaNat ⊢
  have hmantissaLt : mantissa.toNat < 2 ^ 10 := by omega
  have hshift : (mantissa <<< (13 : UInt32)).toNat = mantissa.toNat * 2 ^ 13 := by
    rw [UInt32.toNat_shiftLeft]
    change mantissa.toNat <<< 13 % 2 ^ 32 = _
    rw [Nat.shiftLeft_eq]
    omega
  have hzero : exponent = 0 ↔ halfPattern half < 2 ^ 10 := by
    rw [← UInt32.toNat_inj, hexponentNat]
    change halfPattern half / 2 ^ 10 = 0 ↔ _
    omega
  have hlast : exponent = 31 ↔ 0x7c00 ≤ halfPattern half := by
    rw [← UInt32.toNat_inj, hexponentNat]
    change halfPattern half / 2 ^ 10 = 31 ↔ _
    omega
  by_cases hsubnormal : halfPattern half < 2 ^ 10
  · rw [if_pos (hzero.mpr hsubnormal)]
    obtain ⟨hunits, hlt⟩ := subnormal_toFloat hmantissaLt
    have hvalue : (mulFloat (floatOfInteger mantissa) ((103 : UInt32) <<< 23) ||| sign).toNat =
        half.toNat / 2 ^ 15 * 2 ^ 31 +
          (mulFloat (floatOfInteger mantissa) ((103 : UInt32) <<< 23)).toNat := by
      rw [UInt32.toNat_or, hsignNat, Nat.or_comm, or_sign (by omega)]
    obtain ⟨hmagnitude, hnegative⟩ := float_parts hvalue (by omega) hsign
    refine ⟨hnegative, fun _ => ⟨by rw [hmagnitude]; omega, ?_⟩, fun hinfinite => by omega⟩
    have hinteger : binary16.magnitude (halfPattern half) = halfPattern half := if_pos hsubnormal
    rw [hmagnitude, hunits, hmantissaNat, hinteger, Nat.mod_eq_of_lt hsubnormal]
  · rw [if_neg (mt hzero.mp hsubnormal)]
    by_cases hinfinite : 0x7c00 ≤ halfPattern half
    · rw [if_pos (hlast.mpr hinfinite)]
      have hvalue : (sign ||| (0x7f800000 : UInt32) ||| mantissa <<< (13 : UInt32)).toNat =
          half.toNat / 2 ^ 15 * 2 ^ 31 + (255 * 2 ^ 23 + mantissa.toNat * 2 ^ 13) := by
        rw [UInt32.toNat_or, UInt32.toNat_or, hsignNat, hshift]
        change (_ ||| 255 * 2 ^ 23) ||| _ = _
        rw [Nat.or_assoc, or_fraction (by omega), or_sign (by omega)]
      obtain ⟨hmagnitude, hnegative⟩ := float_parts hvalue (by omega) hsign
      refine ⟨hnegative, fun hfinite => by omega, fun _ => ?_⟩
      rw [hmagnitude, hmantissaNat]
      omega
    · rw [if_neg (mt hlast.mp hinfinite)]
      have hexponent : ((exponent + 112) <<< (23 : UInt32)).toNat =
          (halfPattern half / 2 ^ 10 + 112) * 2 ^ 23 := by
        rw [UInt32.toNat_shiftLeft, UInt32.toNat_add, hexponentNat]
        change ((halfPattern half / 2 ^ 10 + 112) % 2 ^ 32) <<< 23 % 2 ^ 32 = _
        rw [Nat.shiftLeft_eq]
        omega
      have hvalue :
          (sign ||| (exponent + 112) <<< (23 : UInt32) ||| mantissa <<< (13 : UInt32)).toNat =
          half.toNat / 2 ^ 15 * 2 ^ 31 +
            ((halfPattern half / 2 ^ 10 + 112) * 2 ^ 23 + mantissa.toNat * 2 ^ 13) := by
        rw [UInt32.toNat_or, UInt32.toNat_or, hsignNat, hshift, hexponent, Nat.or_assoc,
          or_fraction (by omega), or_sign (by omega)]
      obtain ⟨hmagnitude, hnegative⟩ := float_parts hvalue (by omega) hsign
      refine ⟨hnegative, fun _ => ⟨by rw [hmagnitude]; omega, ?_⟩, fun h => absurd h hinfinite⟩
      rw [hmagnitude, hmantissaNat]
      exact normal_units (not_lt.mp hsubnormal)

/-- The value of a finite half is that of its float. -/
theorem toFloat_value (h : halfPattern half < binary16.infinity) :
    binary32.value (floatMagnitude (toFloat half)) = binary16.value (halfPattern half) := by
  obtain ⟨-, hunits⟩ := (toFloat_parts half).2.1 h
  rw [value_eq_half_units, hunits, Format.value, div_eq_iff (by positivity)]
  push_cast
  ring

theorem half_ext {half half' : UInt16} (hpattern : halfPattern half = halfPattern half')
    (hnegative : halfNegative half = halfNegative half') : half = half' := by
  have hhalf := half.toNat_lt
  have hhalf' := half'.toNat_lt
  rw [← UInt16.toNat_inj]
  rw [halfPattern, halfPattern] at hpattern
  rw [halfNegative, halfNegative, decide_eq_decide] at hnegative
  omega

theorem toHalf_toFloat (h : halfPattern half ≤ binary16.infinity) :
    toHalf (toFloat half) = half := by
  obtain ⟨hnegative, hfinite, hinfinite⟩ := toFloat_parts half
  obtain ⟨hpattern, hsign⟩ := toHalf_parts (toFloat half)
  refine half_ext (hpattern.trans ?_) (hsign.trans hnegative)
  rcases h.lt_or_eq with hlt | heq
  · have hnearest := (halfMagnitude_nearest (hfinite hlt).1).1
    rw [toFloat_value half hlt] at hnearest
    exact hnearest.eq_of_value Format.value_strictMono
  · rw [hinfinite heq.ge, heq, Nat.sub_self, Nat.zero_mul, Nat.add_zero]
    decide

end ToFloat

/-- A float that is a number converts to the nearest half with ties to even, and infinity and the
sign are kept; every half converts to the float of its value; and converting back gives the
half. -/
theorem half_conversions :
    (∀ value, floatMagnitude value < binary32.infinity →
      NearestHalf (floatValue value) (floatNegative value) (toHalf value)) ∧
    (∀ value, floatMagnitude value = binary32.infinity →
      halfPattern (toHalf value) = binary16.infinity ∧
        halfNegative (toHalf value) = floatNegative value) ∧
    (∀ half, floatNegative (toFloat half) = halfNegative half ∧
      (halfPattern half < binary16.infinity → floatMagnitude (toFloat half) < binary32.infinity ∧
        floatValue (toFloat half) = halfValue half) ∧
      (halfPattern half = binary16.infinity → floatMagnitude (toFloat half) = binary32.infinity) ∧
      (binary16.infinity < halfPattern half →
        binary32.infinity < floatMagnitude (toFloat half))) ∧
    ∀ half, halfPattern half ≤ binary16.infinity → toHalf (toFloat half) = half := by
  refine ⟨fun value hfinite => ?_, fun value hinfinite => ?_, fun half => ?_, toHalf_toFloat⟩
  · obtain ⟨hpattern, hsign⟩ := toHalf_parts value
    have hrounded := rounded_toHalf hfinite.le
    rw [← hpattern] at hrounded
    have hnearest := nearestHalf_of_rounded (Format.value_nonneg _) hrounded
    rwa [hsign] at hnearest
  · obtain ⟨hpattern, hsign⟩ := toHalf_parts value
    refine ⟨hpattern.trans ?_, hsign⟩
    rw [hinfinite]
    decide +kernel
  · obtain ⟨hnegative, hfinite, hother⟩ := toFloat_parts half
    refine ⟨hnegative, fun hlt => ⟨?_, ?_⟩, fun heq => ?_, fun hlt => ?_⟩
    · exact (hfinite hlt).1.trans_le (by decide)
    · rw [floatValue, halfValue, hnegative, toFloat_value half hlt]
    · rw [hother heq.ge, heq, Nat.sub_self, Nat.zero_mul, Nat.add_zero]
    · rw [hother hlt.le]
      omega

end Nvcr.Rt.HalfConversion
