import Mathlib.Data.List.MinMax
import Mathlib.Data.List.Perm.Basic
import Mathlib.Data.Prod.Lex

/-!
# Choosing a best element in one pass

A pass keeps the first element that no later element beats. Where beating means having
the smaller key in a linear order, the key of the chosen element depends only on which
elements there are, not on their order.
-/

namespace Nvcr.BestCandidates

variable {α κ : Type*} [LinearOrder κ]

/-- The first element of the list that no later one beats. -/
def minElement (beats : α → α → Bool) : List α → Option α :=
  List.foldl (fun best candidate =>
    match best with
    | none => some candidate
    | some leader => if beats candidate leader then some candidate else some leader) none

theorem minElement_eq_argmin {beats : α → α → Bool} {key : α → κ}
    (hbeats : ∀ a b, beats a b = true ↔ key a < key b) (l : List α) :
    minElement beats l = l.argmin key := by
  unfold minElement List.argmin
  congr 1
  funext best candidate
  cases best with
  | none => rfl
  | some leader =>
      by_cases h : key candidate < key leader
      · simp [List.argAux, h, (hbeats candidate leader).mpr h]
      · simp [List.argAux, h, mt (hbeats candidate leader).mp h]

variable {beats : α → α → Bool} (key : α → κ)
  (hbeats : ∀ a b, beats a b = true ↔ key a < key b)
include key hbeats

theorem minElement_mem {l : List α} {best : α} (h : minElement beats l = some best) :
    best ∈ l :=
  List.argmin_mem (minElement_eq_argmin hbeats l ▸ h)

theorem key_le_of_minElement {l : List α} {best a : α}
    (h : minElement beats l = some best) (ha : a ∈ l) : key best ≤ key a :=
  List.le_of_mem_argmin ha (minElement_eq_argmin hbeats l ▸ h)

theorem minElement_eq_none {l : List α} : minElement beats l = none ↔ l = [] := by
  rw [minElement_eq_argmin hbeats, List.argmin_eq_none]

/-- Reordering the list may change the chosen element but not its key. -/
theorem minElement_key_perm {l l' : List α} (hperm : l.Perm l') :
    (minElement beats l).map key = (minElement beats l').map key := by
  cases h : minElement beats l with
  | none =>
      have hnil : l' = [] := ((minElement_eq_none key hbeats).mp h ▸ hperm).nil_eq.symm
      rw [(minElement_eq_none key hbeats).mpr hnil]
  | some best =>
      cases h' : minElement beats l' with
      | none =>
          have hnil : l = [] := ((minElement_eq_none key hbeats).mp h' ▸ hperm).eq_nil
          rw [(minElement_eq_none key hbeats).mpr hnil] at h
          exact nomatch h
      | some best' =>
          have hle : key best ≤ key best' :=
            key_le_of_minElement key hbeats h (hperm.mem_iff.mpr (minElement_mem key hbeats h'))
          have hge : key best' ≤ key best :=
            key_le_of_minElement key hbeats h' (hperm.mem_iff.mp (minElement_mem key hbeats h))
          exact congrArg some (le_antisymm hle hge)

end Nvcr.BestCandidates
