import Mathlib.Data.List.Basic
import Mathlib.Data.List.Range
import Mathlib.Tactic

/-!
# Row-major loops

A loop nest that stores one value per iteration fills its output in row-major order; the
value at a flat index is found by dividing the index into the loop counters.
-/

namespace Nvcr.NestedLoops

variable {α : Type*}

theorem flatMap_range_map_range (a b : ℕ) (f : ℕ → ℕ → α) :
    (List.range a).flatMap (fun i => (List.range b).map (f i)) =
      (List.range (a * b)).map (fun k => f (k / b) (k % b)) := by
  induction a with
  | zero => simp
  | succ a ih =>
      rw [List.range_succ, List.flatMap_append, ih, Nat.succ_mul, List.range_add, List.map_append,
        List.flatMap_singleton, List.map_map]
      congr 1
      apply List.map_congr_left
      intro j hj
      have hb : j < b := List.mem_range.mp hj
      have hpos : 0 < b := by omega
      have hdiv : (a * b + j) / b = a := by
        rw [Nat.mul_comm, Nat.mul_add_div hpos, Nat.div_eq_of_lt hb, Nat.add_zero]
      have hmod : (a * b + j) % b = j := by
        rw [Nat.mul_comm, Nat.mul_add_mod, Nat.mod_eq_of_lt hb]
      rw [Function.comp_apply, hdiv, hmod]

/-- Two loops around an inner one run over the flat index of their counters. -/
theorem flatMap_range_flatMap_range (a b : ℕ) (f : ℕ → ℕ → List α) :
    (List.range a).flatMap (fun i => (List.range b).flatMap (f i)) =
      (List.range (a * b)).flatMap (fun k => f (k / b) (k % b)) := by
  have houter : (fun i => (List.range b).flatMap (f i)) =
      fun i => ((List.range b).map (f i)).flatten := by
    funext i
    rw [List.flatMap_def]
  calc (List.range a).flatMap (fun i => (List.range b).flatMap (f i))
      = ((List.range a).flatMap (fun i => (List.range b).map (f i))).flatten := by
        rw [houter, List.flatMap_def, List.flatMap_def, List.flatten_flatten, List.map_map]
        rfl
    _ = (List.range (a * b)).flatMap (fun k => f (k / b) (k % b)) := by
        rw [flatMap_range_map_range, List.flatMap_def]

/-- Reading a list of computed values. -/
theorem getD_map_range {n i : ℕ} (h : i < n) (f : ℕ → α) (d : α) :
    ((List.range n).map f).getD i d = f i := by
  simp [h]

/-- A list is determined by its length and its values. -/
theorem eq_map_range {n : ℕ} {values : List α} (d : α) (h : values.length = n) :
    values = (List.range n).map (fun i => values.getD i d) := by
  subst h
  apply List.ext_getElem
  · simp
  · intro i h₁ h₂
    simp [h₁]

end Nvcr.NestedLoops
