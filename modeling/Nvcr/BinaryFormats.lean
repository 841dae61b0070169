import Mathlib.Algebra.Order.Field.Rat
import Mathlib.Data.Nat.Log
import Mathlib.Order.Monotone.Basic
import Mathlib.Tactic

/-!
# Binary interchange formats

The patterns of a binary format without their sign count up through the subnormal and the normal
numbers. Neighbouring patterns differ by one unit in the last place, so rounding to nearest
compares a remainder with half a unit, and ties go to the even pattern.
-/

namespace Nvcr.BinaryFormats

section Nearest

/-- The nearest value of a sequence, the one at an even index where two are equally near. -/
structure NearestEven (value : ℕ → ℚ) (x : ℚ) (k : ℕ) : Prop where
  nearest : ∀ j, |x - value k| ≤ |x - value j|
  even : ∀ j, j ≠ k → |x - value j| = |x - value k| → k % 2 = 0

variable {value : ℕ → ℚ} {x : ℚ} {q k : ℕ}

theorem distance_below (hmono : StrictMono value) (hlow : value q ≤ x) {j : ℕ} (hj : j < q) :
    |x - value q| < |x - value j| := by
  have hlt := hmono hj
  rw [abs_of_nonneg (by linarith), abs_of_nonneg (by linarith)]
  linarith

theorem distance_above (hmono : StrictMono value) (hhigh : x ≤ value q) {j : ℕ} (hj : q < j) :
    |x - value q| < |x - value j| := by
  have hlt := hmono hj
  rw [abs_of_nonpos (by linarith), abs_of_nonpos (by linarith)]
  linarith

/-- Between two neighbours the nearer one is nearest, and the even one at their midpoint. -/
theorem nearestEven_of_between (hmono : StrictMono value) (hlow : value q ≤ x)
    (hhigh : x < value (q + 1))
    (h : k = q ∧ (2 * x < value q + value (q + 1) ∨
          2 * x = value q + value (q + 1) ∧ q % 2 = 0) ∨
      k = q + 1 ∧ (value q + value (q + 1) < 2 * x ∨
          2 * x = value q + value (q + 1) ∧ q % 2 = 1)) : NearestEven value x k := by
  have hq : |x - value q| = x - value q := abs_of_nonneg (by linarith)
  have hnext : |x - value (q + 1)| = value (q + 1) - x := by
    rw [abs_of_neg (by linarith)]
    ring
  have hbelow (j : ℕ) (hj : j < q) := distance_below hmono hlow hj
  have habove (j : ℕ) (hj : q + 1 < j) := distance_above hmono hhigh.le hj
  have hcases (j : ℕ) : j < q ∨ j = q ∨ j = q + 1 ∨ q + 1 < j := by omega
  rcases h with ⟨rfl, h⟩ | ⟨rfl, h⟩
  · have hle : |x - value k| ≤ |x - value (k + 1)| := by
      rw [hq, hnext]
      rcases h with h | h <;> linarith
    constructor
    · intro j
      rcases hcases j with hj | rfl | rfl | hj
      · exact (hbelow j hj).le
      · exact le_rfl
      · exact hle
      · exact hle.trans (habove j hj).le
    · intro j hne htie
      rcases hcases j with hj | rfl | rfl | hj
      · exact absurd htie (hbelow j hj).ne'
      · exact absurd rfl hne
      · rw [hq, hnext] at htie
        rcases h with h | h
        · linarith
        · exact h.2
      · exact absurd htie (hle.trans_lt (habove j hj)).ne'
  · have hle : |x - value (q + 1)| ≤ |x - value q| := by
      rw [hq, hnext]
      rcases h with h | h <;> linarith
    constructor
    · intro j
      rcases hcases j with hj | rfl | rfl | hj
      · exact hle.trans (hbelow j hj).le
      · exact hle
      · exact le_rfl
      · exact (habove j hj).le
    · intro j hne htie
      rcases hcases j with hj | rfl | rfl | hj
      · exact absurd htie (hle.trans_lt (hbelow j hj)).ne'
      · rw [hq, hnext] at htie
        rcases h with h | h
        · linarith
        · omega
      · exact absurd rfl hne
      · exact absurd htie (habove j hj).ne'

/-- A value of the sequence is nearest to itself only. -/
theorem NearestEven.eq_of_value (hmono : StrictMono value) {n : ℕ}
    (h : NearestEven value (value n) k) : k = n := by
  have hzero := h.nearest n
  rw [sub_self, abs_zero] at hzero
  exact (hmono.injective (sub_eq_zero.mp (abs_eq_zero.mp (le_antisymm hzero (abs_nonneg _))))).symm

end Nearest

/-- A format with the numbers of bits of its fraction and of its exponent. -/
structure Format where
  fraction : ℕ
  exponent : ℕ
  fraction_pos : 0 < fraction
  exponent_pos : 0 < exponent

namespace Format

variable (f : Format)

/-- What a pattern stands for, in units of the smallest positive number. -/
def magnitude (k : ℕ) : ℕ :=
  if k < 2 ^ f.fraction then k
  else (2 ^ f.fraction + k % 2 ^ f.fraction) * 2 ^ (k / 2 ^ f.fraction - 1)

/-- The pattern of infinity; those of the numbers are below it. -/
def infinity : ℕ := (2 ^ f.exponent - 1) * 2 ^ f.fraction

/-- The smallest positive number. -/
def unit : ℚ := (1 / 2) ^ (2 ^ (f.exponent - 1) - 2 + f.fraction)

def value (k : ℕ) : ℚ := f.magnitude k * f.unit

/-- From the midpoint of the largest number and the next power of two on, numbers round to
infinity. -/
def threshold : ℚ := (f.value (f.infinity - 1) + f.value f.infinity) / 2

theorem unit_pos : 0 < f.unit := by
  unfold unit
  positivity

variable {f}

/-- A pattern is an exponent and a significand; the significand may round up to the next one. -/
theorem magnitude_mul {j q : ℕ} (hq : q ≤ 2 ^ (f.fraction + 1)) (h : j = 0 ∨ 2 ^ f.fraction ≤ q) :
    f.magnitude (j * 2 ^ f.fraction + q) = q * 2 ^ j := by
  have hpos : 0 < 2 ^ f.fraction := Nat.two_pow_pos _
  by_cases hsmall : q < 2 ^ f.fraction
  · obtain rfl : j = 0 := h.resolve_right (by omega)
    rw [Nat.zero_mul, Nat.zero_add, magnitude, if_pos hsmall, pow_zero, Nat.mul_one]
  · have hlarge : ¬ j * 2 ^ f.fraction + q < 2 ^ f.fraction := by omega
    rw [magnitude, if_neg hlarge]
    rw [Nat.pow_succ] at hq
    by_cases htop : q = 2 ^ f.fraction * 2
    · have hk : j * 2 ^ f.fraction + q = 2 ^ f.fraction * (j + 2) := by
        rw [htop]
        ring
      rw [hk, Nat.mul_mod_right, Nat.mul_div_cancel_left _ hpos, htop]
      change (2 ^ f.fraction + 0) * 2 ^ (j + 1) = _
      ring
    · have hk : j * 2 ^ f.fraction + q = q - 2 ^ f.fraction + 2 ^ f.fraction * (j + 1) := by
        rw [Nat.mul_succ, Nat.mul_comm]
        omega
      have hlt : q - 2 ^ f.fraction < 2 ^ f.fraction := by omega
      rw [hk, Nat.add_mul_mod_self_left, Nat.mod_eq_of_lt hlt, Nat.add_mul_div_left _ _ hpos,
        Nat.div_eq_of_lt hlt, Nat.zero_add, Nat.add_sub_cancel]
      congr 1
      omega

theorem exists_significand (k : ℕ) :
    ∃ j q, k = j * 2 ^ f.fraction + q ∧ q < 2 ^ (f.fraction + 1) ∧ (j = 0 ∨ 2 ^ f.fraction ≤ q) := by
  have hpos : 0 < 2 ^ f.fraction := Nat.two_pow_pos _
  have hmod : k % 2 ^ f.fraction < 2 ^ f.fraction := Nat.mod_lt k hpos
  by_cases hsmall : k < 2 ^ f.fraction
  · exact ⟨0, k, by omega, by rw [Nat.pow_succ]; omega, .inl rfl⟩
  · have hdiv : 0 < k / 2 ^ f.fraction := Nat.div_pos (not_lt.mp hsmall) hpos
    refine ⟨k / 2 ^ f.fraction - 1, 2 ^ f.fraction + k % 2 ^ f.fraction, ?_,
      by rw [Nat.pow_succ]; omega, .inr (Nat.le_add_right _ _)⟩
    calc k = k / 2 ^ f.fraction * 2 ^ f.fraction + k % 2 ^ f.fraction := (Nat.div_add_mod' k _).symm
      _ = (k / 2 ^ f.fraction - 1 + 1) * 2 ^ f.fraction + k % 2 ^ f.fraction := by
          rw [Nat.sub_add_cancel hdiv]
      _ = _ := by ring

theorem magnitude_succ {j q : ℕ} (hq : q < 2 ^ (f.fraction + 1))
    (h : j = 0 ∨ 2 ^ f.fraction ≤ q) :
    f.magnitude (j * 2 ^ f.fraction + q + 1) = (q + 1) * 2 ^ j := by
  rw [Nat.add_assoc]
  exact magnitude_mul hq (h.imp_right fun h => h.trans (Nat.le_succ q))

theorem magnitude_strictMono : StrictMono f.magnitude := by
  refine strictMono_nat_of_lt_succ fun k => ?_
  obtain ⟨j, q, rfl, hq, h⟩ := exists_significand (f := f) k
  rw [magnitude_mul hq.le h, magnitude_succ hq h]
  exact Nat.mul_lt_mul_of_pos_right (Nat.lt_succ_self q) (Nat.two_pow_pos j)

theorem value_strictMono : StrictMono f.value := fun _ _ h =>
  mul_lt_mul_of_pos_right (Nat.cast_lt.mpr (magnitude_strictMono h)) f.unit_pos

theorem value_nonneg (k : ℕ) : 0 ≤ f.value k := mul_nonneg (Nat.cast_nonneg _) f.unit_pos.le

theorem value_zero : f.value 0 = 0 := by
  have hzero : f.magnitude 0 = 0 := by
    rw [magnitude, if_pos (Nat.two_pow_pos _)]
  rw [value, hzero, Nat.cast_zero, zero_mul]

/-- Twice a number has a pattern. -/
theorem exists_double (k : ℕ) : ∃ k', f.magnitude k' = 2 * f.magnitude k := by
  obtain ⟨j, q, rfl, hq, h⟩ := exists_significand (f := f) k
  rw [magnitude_mul hq.le h]
  by_cases hnormal : 2 ^ f.fraction ≤ q
  · refine ⟨(j + 1) * 2 ^ f.fraction + q, ?_⟩
    rw [magnitude_mul hq.le (.inr hnormal)]
    ring
  · obtain rfl : j = 0 := h.resolve_right hnormal
    refine ⟨0 * 2 ^ f.fraction + 2 * q, ?_⟩
    rw [magnitude_mul (by rw [Nat.pow_succ]; omega) (.inl rfl)]
    ring

/-- A significand times a power of two has a pattern. -/
theorem exists_magnitude {q : ℕ} (hq : q < 2 ^ (f.fraction + 1)) (n : ℕ) :
    ∃ k, f.magnitude k = q * 2 ^ n := by
  induction n with
  | zero =>
      refine ⟨0 * 2 ^ f.fraction + q, ?_⟩
      rw [magnitude_mul hq.le (.inl rfl)]
  | succ n ih =>
      obtain ⟨k, hk⟩ := ih
      obtain ⟨k', hk'⟩ := exists_double (f := f) k
      exact ⟨k', by rw [hk', hk]; ring⟩

section Rounding

/-- A number of units over a power of two, split at the last place of its pattern: the remainder
is compared with half a unit of that place. -/
theorem nearestEven_of_division {j q r t : ℕ} (hq : q < 2 ^ (f.fraction + 1))
    (h : j = 0 ∨ 2 ^ f.fraction ≤ q) (hr : r < 2 ^ (t + j)) {k : ℕ}
    (hk : k = if 2 ^ (t + j) < 2 * r ∨ 2 * r = 2 ^ (t + j) ∧ q % 2 = 1
      then j * 2 ^ f.fraction + q + 1 else j * 2 ^ f.fraction + q) :
    NearestEven f.value ((q * 2 ^ (t + j) + r : ℕ) * f.unit / 2 ^ t) k := by
  have hunit := f.unit_pos
  have hpow : (0 : ℚ) < 2 ^ t := by positivity
  let low : ℕ := j * 2 ^ f.fraction + q
  have hparity : low % 2 = q % 2 := by
    obtain ⟨half, hhalf⟩ := (dvd_pow_self 2 f.fraction_pos.ne' : 2 ∣ 2 ^ f.fraction)
    have heven : j * 2 ^ f.fraction = 2 * (j * half) := by
      rw [hhalf]
      ring
    omega
  have hvalue : f.value low = (q * 2 ^ (t + j) : ℕ) * f.unit / 2 ^ t := by
    rw [Format.value, magnitude_mul hq.le h, eq_div_iff hpow.ne']
    push_cast
    ring
  have hnext : f.value (low + 1) = ((q + 1) * 2 ^ (t + j) : ℕ) * f.unit / 2 ^ t := by
    rw [Format.value, magnitude_succ hq h, eq_div_iff hpow.ne']
    push_cast
    ring
  -- the position of the number between its neighbours, in units over the power of two
  have hoffset : ((q * 2 ^ (t + j) + r : ℕ) : ℚ) * f.unit / 2 ^ t =
      f.value low + r * (f.unit / 2 ^ t) := by
    rw [hvalue]
    push_cast
    ring
  have hgap : f.value (low + 1) = f.value low + (2 ^ (t + j) : ℕ) * (f.unit / 2 ^ t) := by
    rw [hnext, hvalue]
    push_cast
    ring
  have hstep : 0 < f.unit / 2 ^ t := div_pos hunit hpow
  have hlt : (r : ℚ) * (f.unit / 2 ^ t) < (2 ^ (t + j) : ℕ) * (f.unit / 2 ^ t) :=
    mul_lt_mul_of_pos_right (Nat.cast_lt.mpr hr) hstep
  rw [hoffset]
  refine nearestEven_of_between (q := low) value_strictMono
    (le_add_of_nonneg_right (mul_nonneg (Nat.cast_nonneg r) hstep.le)) (by rw [hgap]; linarith) ?_
  rw [hgap]
  have hcompare {a b : ℕ} (hab : a < b) :
      (a : ℚ) * (f.unit / 2 ^ t) < b * (f.unit / 2 ^ t) :=
    mul_lt_mul_of_pos_right (Nat.cast_lt.mpr hab) hstep
  have hdouble : ((2 * r : ℕ) : ℚ) * (f.unit / 2 ^ t) = 2 * (r * (f.unit / 2 ^ t)) := by
    push_cast
    ring
  rcases lt_trichotomy (2 * r) (2 ^ (t + j)) with hless | htie | hmore
  · refine .inl ⟨by rw [hk, if_neg (by omega)], .inl ?_⟩
    have := hcompare hless
    linarith
  · have hmiddle : 2 * (r * (f.unit / 2 ^ t)) = (2 ^ (t + j) : ℕ) * (f.unit / 2 ^ t) := by
      rw [← hdouble, htie]
    by_cases hodd : q % 2 = 1
    · exact .inr ⟨by rw [hk, if_pos (.inr ⟨htie, hodd⟩)], .inr ⟨by linarith, by omega⟩⟩
    · exact .inl ⟨by rw [hk, if_neg (by omega)], .inr ⟨by linarith, by omega⟩⟩
  · refine .inr ⟨by rw [hk, if_pos (.inl hmore)], .inl ?_⟩
    have := hcompare hmore
    linarith

variable (f) in
/-- The pattern nearest to a number of units over a power of two. -/
def roundNearest (t number : ℕ) : ℕ :=
  let j := number.log2 - f.fraction - t
  let q := number / 2 ^ (t + j)
  let r := number % 2 ^ (t + j)
  if 2 ^ (t + j) < 2 * r ∨ 2 * r = 2 ^ (t + j) ∧ q % 2 = 1 then j * 2 ^ f.fraction + q + 1
  else j * 2 ^ f.fraction + q

theorem roundNearest_nearest (t number : ℕ) :
    NearestEven f.value (number * f.unit / 2 ^ t) (roundNearest f t number) := by
  let j := number.log2 - f.fraction - t
  have hdiv : number / 2 ^ (t + j) * 2 ^ (t + j) + number % 2 ^ (t + j) = number :=
    Nat.div_add_mod' number _
  have hq : number / 2 ^ (t + j) < 2 ^ (f.fraction + 1) := by
    rw [Nat.div_lt_iff_lt_mul (Nat.two_pow_pos _), ← Nat.pow_add]
    exact Nat.lt_log2_self.trans_le (Nat.pow_le_pow_right (by decide) (by omega))
  have hsignificand : j = 0 ∨ 2 ^ f.fraction ≤ number / 2 ^ (t + j) := by
    by_cases hzero : j = 0
    · exact .inl hzero
    · right
      have hne : number ≠ 0 := by
        rintro rfl
        simp [j] at hzero
      rw [Nat.le_div_iff_mul_le (Nat.two_pow_pos _), ← Nat.pow_add]
      exact (Nat.pow_le_pow_right (by decide) (by omega)).trans (Nat.log2_self_le hne)
  have h := nearestEven_of_division (f := f) hq hsignificand
    (Nat.mod_lt number (Nat.two_pow_pos (t + j))) rfl
  rwa [hdiv] at h

/-- A number that has a pattern rounds to it. -/
theorem roundNearest_exact {t number k : ℕ} (h : number = f.magnitude k * 2 ^ t) :
    roundNearest f t number = k := by
  have hvalue : (number : ℚ) * f.unit / 2 ^ t = f.value k := by
    rw [h, Format.value, div_eq_iff (by positivity)]
    push_cast
    ring
  exact (hvalue ▸ roundNearest_nearest t number).eq_of_value value_strictMono

/-- Rounding of a number without sign to nearest, ties to even, with infinity above the range. -/
structure Rounded (f : Format) (x : ℚ) (k : ℕ) : Prop where
  overflow : f.threshold ≤ x → k = f.infinity
  finite : x < f.threshold → k < f.infinity
  nearest : x < f.threshold → ∀ j < f.infinity, |x - f.value k| ≤ |x - f.value j|
  even : x < f.threshold → ∀ j < f.infinity, j ≠ k → |x - f.value j| = |x - f.value k| → k % 2 = 0

theorem infinity_even : f.infinity % 2 = 0 := by
  have hfraction : 2 ^ f.fraction % 2 = 0 :=
    Nat.mod_eq_zero_of_dvd (dvd_pow_self 2 f.fraction_pos.ne')
  rw [infinity, Nat.mul_mod, hfraction, Nat.mul_zero, Nat.zero_mod]

theorem infinity_pos : 0 < f.infinity := by
  have hexponent : 2 ^ 1 ≤ 2 ^ f.exponent := Nat.pow_le_pow_right (by decide) f.exponent_pos
  exact Nat.mul_pos (by omega) (Nat.two_pow_pos _)

/-- Rounding as if the numbers went on gives infinity exactly from the threshold on. -/
theorem rounded_of_nearestEven {x : ℚ} {k : ℕ} (h : NearestEven f.value x k)
    (hk : k ≤ f.infinity) : Rounded f x k := by
  have hlast : f.infinity - 1 + 1 = f.infinity := Nat.sub_add_cancel infinity_pos
  have hgap : f.value (f.infinity - 1) < f.value f.infinity :=
    value_strictMono (Nat.sub_lt infinity_pos Nat.one_pos)
  have hfinite (hx : x < f.threshold) : k < f.infinity := by
    refine lt_of_le_of_ne hk ?_
    rintro rfl
    refine absurd (h.nearest (f.infinity - 1)) (not_le.mpr ?_)
    rw [threshold] at hx
    rw [abs_of_neg (a := x - f.value f.infinity) (by linarith), abs_lt]
    constructor <;> linarith
  refine ⟨fun hx => ?_, hfinite, fun _ j _ => h.nearest j, fun _ j _ => h.even j⟩
  by_contra hne
  rw [threshold] at hx
  have hle : f.value k ≤ f.value (f.infinity - 1) :=
    value_strictMono.monotone (by omega)
  have hnear := h.nearest f.infinity
  rw [abs_of_pos (a := x - f.value k) (by linarith)] at hnear
  have hother : |x - f.value f.infinity| ≤ x - f.value k := by
    rw [abs_le]
    constructor <;> linarith
  have htie := le_antisymm hnear hother
  have heven := h.even f.infinity (fun hsame => hne hsame.symm)
    (by rw [abs_of_pos (a := x - f.value k) (by linarith)]; exact htie.symm)
  -- the tie is at the threshold, below which the pattern is odd
  have hhalf : |x - f.value f.infinity| = f.value f.infinity - x := by
    rcases le_total x (f.value f.infinity) with hx' | hx'
    · rw [abs_of_nonpos (by linarith)]
      ring
    · rw [abs_of_nonneg (by linarith)] at htie
      linarith
  have hsame : f.value k = f.value (f.infinity - 1) := by linarith
  have hodd := value_strictMono.injective hsame
  have hinfinity : f.infinity % 2 = 0 := infinity_even
  omega

end Rounding

end Format

end Nvcr.BinaryFormats
