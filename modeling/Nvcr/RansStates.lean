import Mathlib.Tactic

/-!
# Range coding with a 32-bit state and bytes

An rANS coder is a stack: putting a symbol is undone by getting it, state and bytes included. The
constants are those of the byte-wise coders: the state stays between `2 ^ 23` and `2 ^ 31`, and
frequencies add up to `2 ^ 16`.
-/

namespace Nvcr.RansStates

abbrev Bytes := List UInt8

/-- The lower bound of a normalized state. -/
def lowerBound : ℕ := 2 ^ 23

def scale : ℕ := 2 ^ 16

/-- The state of an encoder with the bytes written so far, the last one first. -/
structure Writer where
  state : ℕ
  bytes : Bytes
  deriving DecidableEq, Repr

/-- The state of a decoder with the bytes that remain, and whether it asked for more. -/
structure Reader where
  state : ℕ
  bytes : Bytes
  overrun : Bool
  deriving DecidableEq, Repr

/-- A normalized state. -/
def Writer.Normal (writer : Writer) : Prop := lowerBound ≤ writer.state ∧ writer.state < 2 ^ 31

/-- The decoder that sees an encoder's bytes with others behind them. -/
def Writer.reader (writer : Writer) (tail : Bytes) : Reader :=
  ⟨writer.state, writer.bytes ++ tail, false⟩

@[simp] theorem Writer.reader_state (writer : Writer) (tail : Bytes) :
    (writer.reader tail).state = writer.state := rfl

/-- Write low bytes while the state is not below a limit; four rounds reach every positive limit
from a 32-bit state. -/
def emit (limit : ℕ) : ℕ → Writer → Writer
  | 0, writer => writer
  | rounds + 1, writer =>
      if limit ≤ writer.state then
        emit limit rounds ⟨writer.state / 256, UInt8.ofNat writer.state :: writer.bytes⟩
      else writer

/-- Put a symbol with its interval. -/
def put (writer : Writer) (start range : ℕ) : Writer :=
  let ready := emit (range * 2 ^ 15) 4 writer
  ⟨ready.state / range * scale + ready.state % range + start, ready.bytes⟩

/-- Put two raw bits. -/
def putBits (writer : Writer) (value : ℕ) : Writer :=
  let ready := emit (2 ^ 14 * 2 ^ 15) 4 writer
  ⟨ready.state * 4 + value, ready.bytes⟩

/-- One byte, or a zero past the end. -/
def Reader.next (reader : Reader) : Reader :=
  match reader.bytes with
  | [] => ⟨reader.state * 256, [], true⟩
  | byte :: bytes => ⟨reader.state * 256 + byte.toNat, bytes, reader.overrun⟩

/-- Read bytes until the state is normalized or the bytes ran out. -/
def refill : ℕ → Bytes → Bool → Reader
  | state, [], overrun =>
      if state < lowerBound ∧ overrun = false then ⟨state * 256, [], true⟩ else ⟨state, [], overrun⟩
  | state, byte :: bytes, overrun =>
      if state < lowerBound ∧ overrun = false then refill (state * 256 + byte.toNat) bytes overrun
      else ⟨state, byte :: bytes, overrun⟩

/-- Get past a symbol with its interval. -/
def advance (reader : Reader) (start range : ℕ) : Reader :=
  refill (range * (reader.state / scale) + reader.state % scale - start) reader.bytes reader.overrun

/-- Two raw bits. -/
def getBits (reader : Reader) : ℕ × Reader :=
  let shifted : Reader := { reader with state := reader.state / 4 }
  (reader.state % 4, if shifted.state < lowerBound then shifted.next else shifted)

section Emitting

variable {limit rounds : ℕ} {writer : Writer}

theorem refill_of_normal {state : ℕ} (h : lowerBound ≤ state) (bytes : Bytes) (overrun : Bool) :
    refill state bytes overrun = ⟨state, bytes, overrun⟩ := by
  cases bytes with
  | nil => simp [refill, Nat.not_lt.mpr h]
  | cons byte bytes => simp [refill, Nat.not_lt.mpr h]

/-- One emitted byte is read back. -/
theorem refill_emitted {state : ℕ} (h : state < 2 ^ 31) (bytes : Bytes) :
    refill (state / 256) (UInt8.ofNat state :: bytes) false = refill state bytes false := by
  have hsmall : state / 256 < lowerBound := by
    unfold lowerBound
    omega
  have hback : state / 256 * 256 + (UInt8.ofNat state).toNat = state := by
    rw [UInt8.toNat_ofNat']
    omega
  rw [refill, if_pos ⟨hsmall, rfl⟩, hback]

/-- Reading undoes writing. -/
theorem refill_emit (h : writer.state < 2 ^ 31) (tail : Bytes) :
    refill (emit limit rounds writer).state ((emit limit rounds writer).bytes ++ tail) false =
      refill writer.state (writer.bytes ++ tail) false := by
  induction rounds generalizing writer with
  | zero => rfl
  | succ rounds ih =>
      unfold emit
      split
      · have hnext : writer.state / 256 < 2 ^ 31 := by omega
        rw [ih hnext, List.cons_append, refill_emitted h]
      · rfl

theorem emit_state_lt (hlimit : 2 ^ 15 ≤ limit) (h : writer.state < 2 ^ 31) :
    (emit limit 4 writer).state < limit := by
  have hrounds : ∀ rounds (writer : Writer), writer.state < limit * 256 ^ rounds →
      (emit limit rounds writer).state < limit := by
    intro rounds
    induction rounds with
    | zero =>
        intro writer hlt
        simpa [emit] using hlt
    | succ rounds ih =>
        intro writer hlt
        unfold emit
        split
        · apply ih
          rw [pow_succ, ← Nat.mul_assoc] at hlt
          exact Nat.div_lt_of_lt_mul (by rw [Nat.mul_comm]; exact hlt)
        · omega
  apply hrounds
  calc writer.state < 2 ^ 15 * 256 ^ 4 := lt_trans h (by norm_num)
    _ ≤ limit * 256 ^ 4 := Nat.mul_le_mul_right _ hlimit

/-- What is left after writing is not below the limit, up to one byte. -/
theorem le_emit_state {bound : ℕ} (hbound : bound * 256 ≤ limit) (h : bound ≤ writer.state) :
    bound ≤ (emit limit rounds writer).state := by
  induction rounds generalizing writer with
  | zero => exact h
  | succ rounds ih =>
      unfold emit
      split
      · rename_i hlarge
        apply ih
        exact (Nat.le_div_iff_mul_le (by norm_num)).mpr (hbound.trans hlarge)
      · exact h

end Emitting

section Inverse

variable {writer : Writer} {start range : ℕ}

/-- The interval of a symbol: not empty, and not the whole scale. -/
structure Interval (start range : ℕ) : Prop where
  positive : 0 < range
  inside : start + range ≤ scale

/-- The ready state of a put is a quotient below `2 ^ 15` and not below `2 ^ 7`. -/
theorem put_quotient (h : writer.Normal) (hinterval : Interval start range) :
    2 ^ 7 ≤ (emit (range * 2 ^ 15) 4 writer).state / range ∧
      (emit (range * 2 ^ 15) 4 writer).state / range < 2 ^ 15 := by
  obtain ⟨hpositive, hinside⟩ := hinterval
  unfold scale at hinside
  have hlow := h.1
  unfold lowerBound at hlow
  constructor
  · apply (Nat.le_div_iff_mul_le hpositive).mpr
    apply le_emit_state
    · omega
    · omega
  · apply Nat.div_lt_of_lt_mul
    exact emit_state_lt (by omega) h.2

theorem put_normal (h : writer.Normal) (hinterval : Interval start range) :
    (put writer start range).Normal := by
  obtain ⟨hlow, hhigh⟩ := put_quotient h hinterval
  have hrest := Nat.mod_lt (emit (range * 2 ^ 15) 4 writer).state hinterval.positive
  have hinside := hinterval.inside
  unfold scale at hinside
  simp only [Writer.Normal, put, lowerBound, scale]
  omega

/-- The low half of the state after a put lies in the interval of the symbol. -/
theorem put_state_mod (hinterval : Interval start range) :
    (put writer start range).state % scale =
      (emit (range * 2 ^ 15) 4 writer).state % range + start := by
  have hrest := Nat.mod_lt (emit (range * 2 ^ 15) 4 writer).state hinterval.positive
  have hinside := hinterval.inside
  simp only [put, Nat.add_assoc]
  rw [Nat.mul_comm, Nat.mul_add_mod, Nat.mod_eq_of_lt (by omega)]

theorem put_state_div (hinterval : Interval start range) :
    (put writer start range).state / scale = (emit (range * 2 ^ 15) 4 writer).state / range := by
  have hrest := Nat.mod_lt (emit (range * 2 ^ 15) 4 writer).state hinterval.positive
  have hinside := hinterval.inside
  have hsmall : ((emit (range * 2 ^ 15) 4 writer).state % range + start) / scale = 0 :=
    Nat.div_eq_of_lt (by omega)
  simp only [put, Nat.add_assoc]
  rw [Nat.mul_comm, Nat.mul_add_div (by unfold scale; norm_num), hsmall, Nat.add_zero]

/-- Getting past a symbol undoes putting it. -/
theorem advance_put (h : writer.Normal) (hinterval : Interval start range) (tail : Bytes) :
    advance ((put writer start range).reader tail) start range = writer.reader tail := by
  have hstate : range * ((put writer start range).state / scale) +
      (put writer start range).state % scale - start =
      (emit (range * 2 ^ 15) 4 writer).state := by
    rw [put_state_mod hinterval, put_state_div hinterval, ← Nat.add_assoc, Nat.add_sub_cancel,
      Nat.div_add_mod]
  have hbytes : (put writer start range).bytes = (emit (range * 2 ^ 15) 4 writer).bytes := rfl
  simp only [advance, Writer.reader, hstate, hbytes]
  rw [refill_emit h.2, refill_of_normal h.1]

theorem putBits_normal (h : writer.Normal) {value : ℕ} (hvalue : value < 4) :
    (putBits writer value).Normal := by
  have hlow : 2 ^ 21 ≤ (emit (2 ^ 14 * 2 ^ 15) 4 writer).state := by
    apply le_emit_state (by norm_num)
    have hnormal := h.1
    unfold lowerBound at hnormal
    omega
  have hhigh : (emit (2 ^ 14 * 2 ^ 15) 4 writer).state < 2 ^ 14 * 2 ^ 15 :=
    emit_state_lt (by norm_num) h.2
  simp only [Writer.Normal, putBits, lowerBound]
  omega

/-- Getting two bits undoes putting them. -/
theorem getBits_putBits (h : writer.Normal) {value : ℕ} (hvalue : value < 4) (tail : Bytes) :
    getBits ((putBits writer value).reader tail) = (value, writer.reader tail) := by
  have hdiv : (putBits writer value).state / 4 = (emit (2 ^ 14 * 2 ^ 15) 4 writer).state := by
    simp only [putBits]
    omega
  have hmod : (putBits writer value).state % 4 = value := by
    simp only [putBits]
    omega
  have hbytes : (putBits writer value).bytes = (emit (2 ^ 14 * 2 ^ 15) 4 writer).bytes := rfl
  simp only [getBits, Writer.reader, hdiv, hmod, hbytes]
  obtain ⟨hlow, hhigh⟩ := h
  unfold lowerBound at hlow
  -- A normalized state writes one byte exactly when it has more than 29 bits.
  by_cases hlarge : 2 ^ 14 * 2 ^ 15 ≤ writer.state
  · have hsmall : ¬ 2 ^ 14 * 2 ^ 15 ≤ writer.state / 256 := by omega
    have hemit : emit (2 ^ 14 * 2 ^ 15) 4 writer =
        ⟨writer.state / 256, UInt8.ofNat writer.state :: writer.bytes⟩ := by
      rw [emit, if_pos hlarge, emit, if_neg hsmall]
    have hread : writer.state / 256 < lowerBound := by
      unfold lowerBound
      omega
    have hback : writer.state / 256 * 256 + (UInt8.ofNat writer.state).toNat = writer.state := by
      rw [UInt8.toNat_ofNat']
      omega
    simp only [hemit, if_pos hread, Reader.next, List.cons_append, hback]
  · have hemit : emit (2 ^ 14 * 2 ^ 15) 4 writer = writer := by rw [emit, if_neg hlarge]
    have hread : ¬ writer.state < lowerBound := by
      unfold lowerBound
      omega
    simp only [hemit, if_neg hread]

end Inverse

/-! Values beyond the coded range are escaped into raw bits: the number of base-4 digits in
units of three, and then the digits. -/

section Escapes

/-- The number of base-4 digits of a value, up to a bound. -/
def countDigits : ℕ → ℕ → ℕ
  | 0, _ => 0
  | bound + 1, raw => if raw = 0 then 0 else countDigits bound (raw / 4) + 1

/-- A 32-bit value has at most sixteen base-4 digits. -/
def digitCount (raw : ℕ) : ℕ := countDigits 16 raw

/-- The low base-4 digits of a value. -/
def digits : ℕ → ℕ → List ℕ
  | 0, _ => []
  | count + 1, raw => raw % 4 :: digits count (raw / 4)

/-- The pairs of bits of an escaped value, in the order in which they are read. -/
def escapeBins (raw : ℕ) : List ℕ :=
  List.replicate (digitCount raw / 3) 3 ++ (digitCount raw % 3 :: digits (digitCount raw) raw)

/-- Put pairs of bits, the last one first. -/
def putBins (writer : Writer) (bins : List ℕ) : Writer :=
  bins.foldr (fun bin written => putBits written bin) writer

def putEscape (writer : Writer) (raw : ℕ) : Writer := putBins writer (escapeBins raw)

/-- Add up pairs of bits until one is not three or the bytes ran out. -/
def getCount : ℕ → Reader → ℕ × Reader
  | 0, reader => (0, reader)
  | rounds + 1, reader =>
      let first := getBits reader
      if first.1 = 3 ∧ first.2.overrun = false then
        let later := getCount rounds first.2
        (3 + later.1, later.2)
      else first

/-- The value of the next base-4 digits. -/
def getDigits : ℕ → Reader → ℕ × Reader
  | 0, reader => (0, reader)
  | count + 1, reader =>
      let first := getBits reader
      let later := getDigits count first.2
      (first.1 + 4 * later.1, later.2)

/-- An escaped value of at most sixteen digits. At most five pairs of bits are read from each byte
and from the state, so that the rounds are enough for every stream. -/
def getEscape (reader : Reader) : ℕ × Reader :=
  let count := getCount (5 * (reader.bytes.length + 2)) reader
  getDigits (min count.1 16) count.2

variable {writer : Writer}

theorem countDigits_le (bound raw : ℕ) : countDigits bound raw ≤ bound := by
  induction bound generalizing raw with
  | zero => rfl
  | succ bound ih =>
      unfold countDigits
      split
      · omega
      · exact Nat.succ_le_succ (ih (raw / 4))

theorem lt_pow_countDigits {bound raw : ℕ} (h : raw < 4 ^ bound) : raw < 4 ^ countDigits bound raw := by
  induction bound generalizing raw with
  | zero => exact h
  | succ bound ih =>
      unfold countDigits
      split
      · omega
      · have hquotient : raw / 4 < 4 ^ bound := by
          rw [pow_succ] at h
          omega
        have hlater := ih hquotient
        rw [pow_succ]
        omega

theorem digits_lt (count raw : ℕ) : ∀ digit ∈ digits count raw, digit < 4 := by
  induction count generalizing raw with
  | zero => simp [digits]
  | succ count ih =>
      rw [digits, List.forall_mem_cons]
      exact ⟨Nat.mod_lt raw (by norm_num), ih (raw / 4)⟩

theorem escapeBins_lt (raw : ℕ) : ∀ bin ∈ escapeBins raw, bin < 4 := by
  intro bin hbin
  rcases List.mem_append.mp hbin with hthree | hrest
  · rw [List.eq_of_mem_replicate hthree]
    norm_num
  · rcases List.mem_cons.mp hrest with rfl | hdigit
    · omega
    · exact digits_lt _ _ bin hdigit

theorem putBins_normal (h : writer.Normal) {bins : List ℕ} (hbins : ∀ bin ∈ bins, bin < 4) :
    (putBins writer bins).Normal := by
  induction bins with
  | nil => exact h
  | cons bin bins ih =>
      obtain ⟨hfirst, hlater⟩ := List.forall_mem_cons.mp hbins
      exact putBits_normal (ih hlater) hfirst

theorem getBits_putBins {bin : ℕ} {bins : List ℕ} (h : writer.Normal)
    (hbins : ∀ other ∈ bin :: bins, other < 4) (tail : Bytes) :
    getBits ((putBins writer (bin :: bins)).reader tail) =
      (bin, (putBins writer bins).reader tail) := by
  obtain ⟨hfirst, hlater⟩ := List.forall_mem_cons.mp hbins
  exact getBits_putBits (putBins_normal h hlater) hfirst tail

/-- The digits of a value are read back. -/
theorem getDigits_putBins (h : writer.Normal) (count raw : ℕ) (tail : Bytes) :
    getDigits count ((putBins writer (digits count raw)).reader tail) =
      (raw % 4 ^ count, writer.reader tail) := by
  induction count generalizing raw with
  | zero => simp [getDigits, digits, putBins, Nat.mod_one]
  | succ count ih =>
      have hvalue : raw % 4 ^ (count + 1) = raw % 4 + 4 * (raw / 4 % 4 ^ count) := by
        rw [pow_succ, Nat.mul_comm, Nat.mod_mul]
      have hfirst := getBits_putBins h (digits_lt (count + 1) raw) tail
      rw [digits, getDigits]
      simp only [hfirst, ih, hvalue]

/-- A number of digits is read back. -/
theorem getCount_putBins (h : writer.Normal) {last rounds threes : ℕ} (hlast : last < 3)
    {bins : List ℕ} (hbins : ∀ bin ∈ bins, bin < 4) (hrounds : threes < rounds) (tail : Bytes) :
    getCount rounds ((putBins writer (List.replicate threes 3 ++ (last :: bins))).reader tail) =
      (3 * threes + last, (putBins writer bins).reader tail) := by
  have hlater : ∀ bin ∈ last :: bins, bin < 4 := by
    rw [List.forall_mem_cons]
    exact ⟨by omega, hbins⟩
  induction threes generalizing rounds with
  | zero =>
      obtain ⟨rounds, rfl⟩ : ∃ more, rounds = more + 1 := ⟨rounds - 1, by omega⟩
      have hfirst := getBits_putBins h hlater tail
      simp only [List.replicate_zero, List.nil_append, getCount, hfirst]
      rw [if_neg (by omega)]
      simp
  | succ threes ih =>
      obtain ⟨rounds, rfl⟩ : ∃ more, rounds = more + 1 := ⟨rounds - 1, by omega⟩
      have hall : ∀ bin ∈ 3 :: (List.replicate threes 3 ++ (last :: bins)), bin < 4 := by
        intro bin hbin
        rcases List.mem_cons.mp hbin with rfl | hmem
        · norm_num
        · rcases List.mem_append.mp hmem with hthree | hrest
          · rw [List.eq_of_mem_replicate hthree]
            norm_num
          · exact hlater bin hrest
      have hfirst := getBits_putBins h hall tail
      have hopen : ((putBins writer (List.replicate threes 3 ++ (last :: bins))).reader
          tail).overrun = false := rfl
      rw [List.replicate_succ, List.cons_append, getCount]
      simp only [hfirst, hopen, and_self, if_true, ih (show threes < rounds by omega)]
      rw [Prod.mk.injEq]
      exact ⟨by omega, rfl⟩

theorem putEscape_normal (h : writer.Normal) (raw : ℕ) : (putEscape writer raw).Normal :=
  putBins_normal h (escapeBins_lt raw)

/-- Getting an escaped value undoes putting it. -/
theorem getEscape_putEscape (h : writer.Normal) {raw : ℕ} (hraw : raw < 4 ^ 16) (tail : Bytes) :
    getEscape ((putEscape writer raw).reader tail) = (raw, writer.reader tail) := by
  have hcount : digitCount raw ≤ 16 := countDigits_le 16 raw
  have hread := getCount_putBins h (show digitCount raw % 3 < 3 by omega)
    (digits_lt (digitCount raw) raw)
    (show digitCount raw / 3 < 5 * (((putEscape writer raw).reader tail).bytes.length + 2) by omega)
    tail
  have hsum : 3 * (digitCount raw / 3) + digitCount raw % 3 = digitCount raw := by omega
  rw [hsum] at hread
  simp only [getEscape, putEscape, escapeBins] at hread ⊢
  simp only [hread, Nat.min_eq_left hcount, getDigits_putBins h,
    Nat.mod_eq_of_lt (show raw < 4 ^ digitCount raw from lt_pow_countDigits hraw)]

end Escapes

end Nvcr.RansStates
