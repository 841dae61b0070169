import Mathlib.Data.List.TakeWhile
import Mathlib.Tactic

/-!
# Decimal texts

Decimal representations joined by a separator that is no digit determine the numbers.
-/

namespace Nvcr.DecimalTexts

theorem toDigits_injective : Function.Injective (Nat.toDigits 10) := by
  intro m n h
  have hvalue := congrArg (fun digits => Nat.ofDigitChars 10 digits 0) h
  simpa using hvalue

theorem notMem_toDigits {c : Char} (hc : c.isDigit = false) (n : ℕ) : c ∉ Nat.toDigits 10 n := by
  intro hmem
  have hdigit := Nat.isDigit_of_mem_toDigits (by decide : 0 < 10) (by decide : 10 ≤ 10) hmem
  rw [hc] at hdigit
  exact nomatch hdigit

theorem repr_inj {m n : ℕ} : m.repr = n.repr ↔ m = n := by
  rw [← String.toList_inj, Nat.toList_repr, Nat.toList_repr]
  exact toDigits_injective.eq_iff

/-- Texts are determined by their parts before and after the first separator. -/
theorem append_separator_inj {α : Type} {separator : α} {u u' : List α} (hu : separator ∉ u)
    (hu' : separator ∉ u') (v v' : List α) :
    u ++ separator :: v = u' ++ separator :: v' ↔ u = u' ∧ v = v' := by
  induction u generalizing u' with
  | nil =>
      cases u' with
      | nil => simp
      | cons c u' =>
          have hc : separator ≠ c := fun h => hu' (h ▸ List.mem_cons_self)
          simp [hc]
  | cons c u ih =>
      have hc : c ≠ separator := fun h => hu (h ▸ List.mem_cons_self)
      cases u' with
      | nil => simp [hc]
      | cons c' u' =>
          rw [List.cons_append, List.cons_append, List.cons.injEq,
            ih (fun h => hu (List.mem_cons_of_mem c h))
              (fun h => hu' (List.mem_cons_of_mem c' h)), List.cons.injEq, and_assoc]

/-- Numbers joined by a separator. -/
def joined (separator : Char) : ℕ → List ℕ → List Char
  | n, [] => Nat.toDigits 10 n
  | n, m :: ms => Nat.toDigits 10 n ++ separator :: joined separator m ms

theorem joined_inj {separator : Char} (h : separator.isDigit = false) {ms ns : List ℕ}
    (hlength : ms.length = ns.length) (m n : ℕ) :
    joined separator m ms = joined separator n ns ↔ m = n ∧ ms = ns := by
  induction ms generalizing m n ns with
  | nil =>
      cases List.length_eq_zero_iff.mp hlength.symm
      simpa [joined] using toDigits_injective.eq_iff
  | cons m' ms ih =>
      cases ns with
      | nil => exact nomatch hlength
      | cons n' ns =>
          rw [joined, joined, append_separator_inj (notMem_toDigits h m) (notMem_toDigits h n),
            toDigits_injective.eq_iff, ih (Nat.succ.inj hlength), List.cons.injEq]

/-- The text up to the first separator is the first number. -/
theorem takeWhile_joined {separator : Char} (h : separator.isDigit = false) (n : ℕ)
    (ns : List ℕ) :
    (joined separator n ns).takeWhile (· != separator) = Nat.toDigits 10 n := by
  have hdigits : ∀ c ∈ Nat.toDigits 10 n, (c != separator) = true := by
    intro c hc
    refine bne_iff_ne.mpr ?_
    rintro rfl
    exact notMem_toDigits h n hc
  cases ns with
  | nil => exact List.takeWhile_eq_self_iff.mpr hdigits
  | cons n' ns =>
      rw [joined, List.takeWhile_append_of_pos hdigits, List.takeWhile_cons_of_neg (by simp),
        List.append_nil]

end Nvcr.DecimalTexts
