import Mathlib.Algebra.Order.Floor.Div
import Mathlib.Tactic

/-!
# Row-major indices

Positions of arrays with two or three dimensions as indices into one row of memory, and what is
left of a bound on them when sizes and indices wrap.
-/

namespace Nvcr.RowMajorIndices

/-- The index of a position in a block of rows. -/
def rowMajor (rows columns block row column : ℕ) : ℕ := (block * rows + row) * columns + column

variable {blocks rows columns block row column : ℕ}

theorem rowMajor_lt (hblock : block < blocks) (hrow : row < rows) (hcolumn : column < columns) :
    rowMajor rows columns block row column < blocks * rows * columns := by
  have houter : block * rows + row + 1 ≤ blocks * rows := by
    calc block * rows + row + 1 ≤ block * rows + rows := by omega
      _ = (block + 1) * rows := by ring
      _ ≤ blocks * rows := Nat.mul_le_mul_right rows hblock
  calc (block * rows + row) * columns + column < (block * rows + row) * columns + columns := by omega
    _ = (block * rows + row + 1) * columns := by ring
    _ ≤ blocks * rows * columns := Nat.mul_le_mul_right columns houter

/-- Every index of an array belongs to a position. -/
theorem exists_rowMajor {n : ℕ} (h : n < blocks * rows * columns) :
    ∃ block < blocks, ∃ row < rows, ∃ column < columns,
      rowMajor rows columns block row column = n := by
  have hcolumns : 0 < columns := Nat.pos_of_mul_pos_left (Nat.zero_lt_of_lt h)
  have houter : n / columns < blocks * rows := (Nat.div_lt_iff_lt_mul hcolumns).mpr h
  have hrows : 0 < rows := Nat.pos_of_mul_pos_left (Nat.zero_lt_of_lt houter)
  refine ⟨n / columns / rows, (Nat.div_lt_iff_lt_mul hrows).mpr houter, n / columns % rows,
    Nat.mod_lt _ hrows, n % columns, Nat.mod_lt _ hcolumns, ?_⟩
  rw [rowMajor, Nat.div_add_mod', Nat.div_add_mod']

/-- Indices below a count are in bounds of a size that wraps exactly when the wrapped size still
reaches the count. -/
theorem forall_mod_lt_iff {modulus count size : ℕ} :
    (∀ n < count, n % modulus < size % modulus) ↔ count ≤ size % modulus := by
  constructor
  · intro h
    by_contra hlt
    have hself := h (size % modulus) (not_le.mp hlt)
    rw [Nat.mod_mod] at hself
    exact lt_irrefl _ hself
  · intro h n hn
    exact (Nat.mod_le n modulus).trans_lt (hn.trans_le h)

/-- A quotient is reached below a bound exactly when its first dividend is. -/
theorem exists_div_eq_iff {bound step k : ℕ} (hstep : 0 < step) :
    (∃ n < bound, n / step = k) ↔ step * k < bound := by
  constructor
  · rintro ⟨n, hn, rfl⟩
    exact (Nat.mul_div_le n step).trans_lt hn
  · intro h
    exact ⟨step * k, h, Nat.mul_div_cancel_left k hstep⟩

theorem lt_ceilDiv_iff {bound step k : ℕ} (hstep : 0 < step) :
    k < bound ⌈/⌉ step ↔ step * k < bound := by
  rw [← not_le, ceilDiv_le_iff_le_smul hstep, not_le, smul_eq_mul]

/-- Dividing by a factor first does not change a quotient that is rounded up. -/
theorem ceilDiv_mul {value inner outer : ℕ} (hinner : 0 < inner) (houter : 0 < outer)
    (h : inner ∣ value) : value ⌈/⌉ (inner * outer) = (value / inner) ⌈/⌉ outer := by
  obtain ⟨quotient, rfl⟩ := h
  rw [Nat.mul_div_cancel_left quotient hinner]
  refine eq_of_forall_lt_iff fun k => ?_
  rw [lt_ceilDiv_iff (Nat.mul_pos hinner houter), lt_ceilDiv_iff houter, Nat.mul_assoc,
    Nat.mul_lt_mul_left hinner]

end Nvcr.RowMajorIndices
