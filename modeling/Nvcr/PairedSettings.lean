import Mathlib.Tactic

/-!
# Two copies of a setting

A setting is kept twice, in an old place and in a new one. Merging takes the new copy unless it
is the default and the old one is not, and writes the result to both.
-/

namespace Nvcr.PairedSettings

variable {α : Type} [DecidableEq α]

/-- The merged value of a setting. -/
def merged (default newer older : α) : α :=
  if newer = default ∧ older ≠ default then older else newer

variable {default newer older : α}

@[simp] theorem merged_self (default value : α) : merged default value value = value := by
  simp [merged]

theorem merged_of_newer (h : newer ≠ default) : merged default newer older = newer := by
  rw [merged, if_neg fun hmerge => h hmerge.1]

theorem merged_of_older (hnewer : newer = default) (holder : older ≠ default) :
    merged default newer older = older := by
  rw [merged, if_pos ⟨hnewer, holder⟩]

/-- A value assigned to the new copy survives a merge unless it is the default and the old copy
is not. -/
theorem merged_eq_newer_iff :
    merged default newer older = newer ↔ newer ≠ default ∨ older = default := by
  constructor
  · intro h
    by_contra hlost
    obtain ⟨hnewer, holder⟩ := not_or.mp hlost
    rw [merged_of_older (not_not.mp hnewer) holder] at h
    exact holder (h.trans (not_not.mp hnewer))
  · rintro (hnewer | holder)
    · exact merged_of_newer hnewer
    · rw [merged, if_neg fun hmerge => hmerge.2 holder]

end Nvcr.PairedSettings
