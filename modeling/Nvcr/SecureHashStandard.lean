import Mathlib.Analysis.SpecialFunctions.Pow.Real
import Mathlib.NumberTheory.PrimeCounting
import Mathlib.Tactic

/-!
# The secure hash algorithm SHA-256

The hash function of FIPS 180-4 on bit strings: the padding, the message schedule, the
compression of one block, and the digest. The constants are the leading bits of the fractional
parts of roots of primes.
-/

namespace Nvcr.SecureHashStandard

abbrev Word := UInt32

/-- A bit string, most significant bit first. -/
abbrev Bits := List Bool

section Words

/-- The number a bit string denotes. -/
def natOfBits : Bits → ℕ := List.foldl (fun value bit => 2 * value + bit.toNat) 0

/-- The `width` low bits of a number. -/
def bitsOfNat (width value : ℕ) : Bits :=
  (List.range width).map fun index => value.testBit (width - 1 - index)

def wordOfBits (bits : Bits) : Word := UInt32.ofNat (natOfBits bits)

def bitsOfWord (word : Word) : Bits := bitsOfNat 32 word.toNat

/-- Rotation to the right. -/
def rotr (n : ℕ) (x : Word) : Word := UInt32.ofBitVec (x.toBitVec.rotateRight n)

/-- Shift to the right. -/
def shr (n : ℕ) (x : Word) : Word := UInt32.ofBitVec (x.toBitVec >>> n)

def choose (x y z : Word) : Word := (x &&& y) ^^^ (~~~x &&& z)

def majority (x y z : Word) : Word := (x &&& y) ^^^ (x &&& z) ^^^ (y &&& z)

def bigSigma0 (x : Word) : Word := rotr 2 x ^^^ rotr 13 x ^^^ rotr 22 x

def bigSigma1 (x : Word) : Word := rotr 6 x ^^^ rotr 11 x ^^^ rotr 25 x

def smallSigma0 (x : Word) : Word := rotr 7 x ^^^ rotr 18 x ^^^ shr 3 x

def smallSigma1 (x : Word) : Word := rotr 17 x ^^^ rotr 19 x ^^^ shr 10 x

end Words

section Constants

/-- The first 32 bits of the fractional part of a root of a prime, the primes counted from
zero. -/
noncomputable def rootFraction (degree index : ℕ) : Word :=
  UInt32.ofNat (⌊(Nat.nth Nat.Prime index : ℝ) ^ (1 / degree : ℝ) * 2 ^ 32⌋₊ % 2 ^ 32)

/-- The constant of a round. -/
noncomputable def roundConstant (index : ℕ) : Word := rootFraction 3 index

/-- The eight working variables, and the eight words of a hash value. -/
structure Variables where
  a : Word
  b : Word
  c : Word
  d : Word
  e : Word
  f : Word
  g : Word
  h : Word
  deriving DecidableEq, Repr

noncomputable def initialHash : Variables :=
  ⟨rootFraction 2 0, rootFraction 2 1, rootFraction 2 2, rootFraction 2 3, rootFraction 2 4,
    rootFraction 2 5, rootFraction 2 6, rootFraction 2 7⟩

end Constants

/-- Cut a list into pieces of `n` elements; the last one may be shorter. -/
def pieces {α : Type} (n : ℕ) (l : List α) : List (List α) :=
  if _hstop : n = 0 ∨ l = [] then [] else l.take n :: pieces n (l.drop n)
termination_by l.length
decreasing_by
  have hpos := List.length_pos_iff.mpr (not_or.mp _hstop).2
  rw [List.length_drop]
  omega

section Hash

/-- The number of zero bits between the marking bit and the length: the least one that makes
the padded message a multiple of 512 bits. -/
def zeroCount (length : ℕ) : ℕ := (447 + 512 - length % 512) % 512

def pad (message : Bits) : Bits :=
  message ++ true :: (List.replicate (zeroCount message.length) false ++
    bitsOfNat 64 message.length)

/-- The words of the message schedule of a block. -/
def schedule (block : ℕ → Word) (t : ℕ) : Word :=
  if t < 16 then block t
  else smallSigma1 (schedule block (t - 2)) + schedule block (t - 7) +
    smallSigma0 (schedule block (t - 15)) + schedule block (t - 16)
termination_by t

/-- One round with a round constant and a schedule word. -/
def round (constant word : Word) (v : Variables) : Variables :=
  let temporary1 := v.h + bigSigma1 v.e + choose v.e v.f v.g + constant + word
  let temporary2 := bigSigma0 v.a + majority v.a v.b v.c
  { a := temporary1 + temporary2, b := v.a, c := v.b, d := v.c
    e := v.d + temporary1, f := v.e, g := v.f, h := v.g }

def Variables.add (u v : Variables) : Variables :=
  { a := u.a + v.a, b := u.b + v.b, c := u.c + v.c, d := u.d + v.d
    e := u.e + v.e, f := u.f + v.f, g := u.g + v.g, h := u.h + v.h }

/-- The 64 rounds, with given constants. -/
def rounds (constants : ℕ → Word) (block : ℕ → Word) (v : Variables) : Variables :=
  (List.range 64).foldl (fun v t => round (constants t) (schedule block t) v) v

/-- The words of a block of bits. -/
def blockWords (block : Bits) (t : ℕ) : Word := wordOfBits ((block.drop (32 * t)).take 32)

noncomputable def compress (hash : Variables) (block : Bits) : Variables :=
  (rounds roundConstant (blockWords block) hash).add hash

noncomputable def hash (message : Bits) : Variables :=
  (pieces 512 (pad message)).foldl compress initialHash

def Variables.bits (v : Variables) : Bits :=
  [v.a, v.b, v.c, v.d, v.e, v.f, v.g, v.h].flatMap bitsOfWord

/-- The digest of a message, 256 bits. -/
noncomputable def sha256 (message : Bits) : Bits := (hash message).bits

end Hash

section ConstantLemmas

/-- The first 64 primes. -/
def firstPrimes : List ℕ :=
  [2, 3, 5, 7, 11, 13, 17, 19, 23, 29, 31, 37, 41, 43, 47, 53, 59, 61, 67, 71, 73, 79, 83, 89, 97,
    101, 103, 107, 109, 113, 127, 131, 137, 139, 149, 151, 157, 163, 167, 173, 179, 181, 191, 193,
    197, 199, 211, 223, 227, 229, 233, 239, 241, 251, 257, 263, 269, 271, 277, 281, 283, 293, 307,
    311]

/-- The number of elements with a property below one of them is its place among them. -/
theorem count_filter_range (p : ℕ → Prop) [DecidablePred p] (bound : ℕ) {index : ℕ}
    (h : index < ((List.range bound).filter (p ·)).length) :
    p (((List.range bound).filter (p ·)).getD index 0) ∧
      Nat.count p (((List.range bound).filter (p ·)).getD index 0) = index := by
  induction bound with
  | zero => exact absurd h (Nat.not_lt_zero _)
  | succ bound ih =>
      have hcount : ((List.range bound).filter (p ·)).length = Nat.count p bound := by
        rw [Nat.count, List.countP_eq_length_filter]
      rw [List.range_succ, List.filter_append] at h ⊢
      by_cases hearlier : index < ((List.range bound).filter (p ·)).length
      · rw [List.getD_append _ _ _ _ hearlier]
        exact ih hearlier
      · by_cases hbound : p bound
        · have hindex : index = ((List.range bound).filter (p ·)).length := by
            simp [hbound] at h
            omega
          simp [hindex, hbound, hcount]
        · simp [hbound] at h
          exact absurd h hearlier

theorem prime_iff_of_lt {n : ℕ} (h : n < 18 * 18) :
    n.Prime ↔ 2 ≤ n ∧ ∀ m < 18, 2 ≤ m → m * m ≤ n → ¬ m ∣ n := by
  rw [Nat.prime_def_le_sqrt]
  refine and_congr_right fun _ => ⟨fun hnone m _ hm hsquare => hnone m hm (Nat.le_sqrt.mpr hsquare),
    fun hnone m hm hsqrt => hnone m ?_ hm (Nat.le_sqrt.mp hsqrt)⟩
  exact Nat.mul_self_lt_mul_self_iff.mp ((Nat.le_sqrt.mp hsqrt).trans_lt h)

theorem filter_prime : (List.range 312).filter (Nat.Prime ·) = firstPrimes := by
  calc (List.range 312).filter (Nat.Prime ·)
      = (List.range 312).filter fun n => 2 ≤ n ∧ ∀ m < 18, 2 ≤ m → m * m ≤ n → ¬ m ∣ n :=
        List.filter_congr fun n hn => decide_eq_decide.mpr
          (prime_iff_of_lt ((List.mem_range.mp hn).trans (by decide)))
    _ = firstPrimes := by decide +kernel

theorem nth_prime_eq {index : ℕ} (h : index < 64) :
    Nat.nth Nat.Prime index = firstPrimes.getD index 0 := by
  obtain ⟨hprime, hcount⟩ := count_filter_range Nat.Prime 312
    (h.trans_eq (congrArg List.length filter_prime).symm)
  rw [filter_prime] at hprime hcount
  have hnth := Nat.nth_count hprime
  rwa [hcount] at hnth

/-- A word is the fraction of a root when no larger number with the same integer part is below
the root. -/
theorem rootFraction_eq {degree index whole : ℕ} {word : Word} (hdegree : degree ≠ 0)
    (hlower : (whole * 2 ^ 32 + word.toNat) ^ degree ≤
      Nat.nth Nat.Prime index * (2 ^ 32) ^ degree)
    (hupper : Nat.nth Nat.Prime index * (2 ^ 32) ^ degree <
      (whole * 2 ^ 32 + word.toNat + 1) ^ degree) :
    rootFraction degree index = word := by
  have hpow : ((Nat.nth Nat.Prime index : ℝ) ^ (1 / degree : ℝ) * 2 ^ 32) ^ degree =
      (Nat.nth Nat.Prime index : ℝ) * (2 ^ 32) ^ degree := by
    rw [mul_pow, one_div, Real.rpow_inv_natCast_pow (Nat.cast_nonneg _) hdegree]
  have hnonneg : (0 : ℝ) ≤ (Nat.nth Nat.Prime index : ℝ) ^ (1 / degree : ℝ) * 2 ^ 32 := by
    positivity
  have hfloor : ⌊(Nat.nth Nat.Prime index : ℝ) ^ (1 / degree : ℝ) * 2 ^ 32⌋₊ =
      whole * 2 ^ 32 + word.toNat := by
    refine (Nat.floor_eq_iff hnonneg).mpr ⟨?_, ?_⟩
    · refine le_of_pow_le_pow_left₀ hdegree hnonneg ?_
      rw [hpow]
      exact_mod_cast hlower
    · refine lt_of_pow_lt_pow_left₀ degree (by positivity) ?_
      rw [hpow]
      exact_mod_cast hupper
  have hmod : (whole * 2 ^ 32 + word.toNat) % 2 ^ 32 = word.toNat := by
    rw [Nat.mul_add_mod_self_right, Nat.mod_eq_of_lt word.toNat_lt]
  rw [rootFraction, hfloor, hmod, UInt32.ofNat_toNat]

/-- A table of words lists the fractions of the roots of the first primes. -/
def ListsFractions (degree : ℕ) (table : List Word) : Prop :=
  ∀ index ∈ List.range table.length, ∃ whole ∈ List.range 20,
    (whole * 2 ^ 32 + (table.getD index 0).toNat) ^ degree ≤
        firstPrimes.getD index 0 * (2 ^ 32) ^ degree ∧
      firstPrimes.getD index 0 * (2 ^ 32) ^ degree <
        (whole * 2 ^ 32 + (table.getD index 0).toNat + 1) ^ degree

instance (degree : ℕ) (table : List Word) : Decidable (ListsFractions degree table) := by
  unfold ListsFractions
  infer_instance

theorem ListsFractions.rootFraction_eq {degree : ℕ} {table : List Word} (hdegree : degree ≠ 0)
    (h : ListsFractions degree table) (hlength : table.length ≤ 64) {index : ℕ}
    (hindex : index < table.length) : rootFraction degree index = table.getD index 0 := by
  obtain ⟨whole, -, hlower, hupper⟩ := h index (List.mem_range.mpr hindex)
  rw [← nth_prime_eq (hindex.trans_le hlength)] at hlower hupper
  exact SecureHashStandard.rootFraction_eq hdegree hlower hupper

end ConstantLemmas

section Schedule

theorem schedule_of_lt (block : ℕ → Word) {t : ℕ} (h : t < 16) : schedule block t = block t := by
  rw [schedule, if_pos h]

theorem schedule_of_ge (block : ℕ → Word) {t : ℕ} (h : ¬ t < 16) :
    schedule block t = smallSigma1 (schedule block (t - 2)) + schedule block (t - 7) +
      smallSigma0 (schedule block (t - 15)) + schedule block (t - 16) := by
  rw [schedule, if_neg h]

/-- The schedule reads the sixteen words of the block only. -/
theorem schedule_congr {block block' : ℕ → Word} (h : ∀ t < 16, block t = block' t) (t : ℕ) :
    schedule block t = schedule block' t := by
  induction t using Nat.strongRecOn with
  | ind t ih =>
      by_cases ht : t < 16
      · rw [schedule_of_lt _ ht, schedule_of_lt _ ht, h t ht]
      · rw [schedule_of_ge _ ht, schedule_of_ge _ ht, ih (t - 2) (by omega),
          ih (t - 7) (by omega), ih (t - 15) (by omega), ih (t - 16) (by omega)]

end Schedule

section Pieces

variable {α β : Type} {n : ℕ}

theorem pieces_append (hn : n ≠ 0) {first : List α} (hfirst : first.length = n) (rest : List α) :
    pieces n (first ++ rest) = first :: pieces n rest := by
  have hne : first ++ rest ≠ [] := by
    intro hnil
    rw [List.append_eq_nil_iff] at hnil
    exact hn (by rw [← hfirst, hnil.1, List.length_nil])
  rw [pieces, dif_neg (by simp [hn, hne]), List.take_left' hfirst, List.drop_left' hfirst]

/-- Pieces of the right length are found again. -/
theorem pieces_flatten (hn : n ≠ 0) {blocks : List (List α)}
    (hblocks : ∀ block ∈ blocks, block.length = n) : pieces n blocks.flatten = blocks := by
  induction blocks with
  | nil =>
      rw [List.flatten_nil, pieces]
      simp
  | cons block blocks ih =>
      rw [List.flatten_cons, pieces_append hn (hblocks block List.mem_cons_self),
        ih fun other hother => hblocks other (List.mem_cons_of_mem _ hother)]

end Pieces

section BitLemmas

theorem natOfBits_foldl (bits : Bits) (start : ℕ) :
    bits.foldl (fun value bit => 2 * value + bit.toNat) start =
      start * 2 ^ bits.length + natOfBits bits := by
  induction bits generalizing start with
  | nil => simp [natOfBits]
  | cons bit bits ih =>
      have hbits : natOfBits (bit :: bits) = bit.toNat * 2 ^ bits.length + natOfBits bits := by
        rw [natOfBits, List.foldl_cons, ih]
        simp [natOfBits]
      rw [List.foldl_cons, ih, hbits, List.length_cons, pow_succ]
      ring

theorem natOfBits_append (bits bits' : Bits) :
    natOfBits (bits ++ bits') = natOfBits bits * 2 ^ bits'.length + natOfBits bits' := by
  rw [natOfBits, List.foldl_append, natOfBits_foldl]
  rfl

@[simp] theorem bitsOfNat_length (width value : ℕ) : (bitsOfNat width value).length = width := by
  simp [bitsOfNat]

theorem bitsOfNat_succ (width value : ℕ) :
    bitsOfNat (width + 1) value = bitsOfNat width (value / 2) ++ [value.testBit 0] := by
  rw [bitsOfNat, List.range_succ, List.map_append, List.map_singleton, bitsOfNat]
  congr 1
  · apply List.map_congr_left
    intro index hindex
    have hlt := List.mem_range.mp hindex
    rw [← Nat.testBit_succ]
    congr 1
    omega
  · simp

theorem natOfBits_bitsOfNat (width value : ℕ) :
    natOfBits (bitsOfNat width value) = value % 2 ^ width := by
  induction width generalizing value with
  | zero => simp [bitsOfNat, natOfBits, Nat.mod_one]
  | succ width ih =>
      have hbit : natOfBits [value.testBit 0] = value % 2 := by
        rw [Nat.testBit_zero]
        rcases Nat.mod_two_eq_zero_or_one value with h | h <;> simp [natOfBits, h]
      rw [bitsOfNat_succ, natOfBits_append, ih, hbit, pow_succ, Nat.mul_comm (2 ^ width),
        Nat.mod_mul, List.length_singleton, pow_one]
      ring

/-- A wide number is its high bits followed by its low bits. -/
theorem bitsOfNat_add (high low value : ℕ) :
    bitsOfNat (high + low) value = bitsOfNat high (value / 2 ^ low) ++ bitsOfNat low value := by
  induction low generalizing value with
  | zero => simp [bitsOfNat]
  | succ low ih =>
      rw [← Nat.add_assoc, bitsOfNat_succ, ih, bitsOfNat_succ low, Nat.div_div_eq_div_mul,
        ← pow_succ', List.append_assoc]

end BitLemmas

end Nvcr.SecureHashStandard
