import Mathlib.Data.List.Basic
import Mathlib.Tactic

/-!
# Runs of a machine that answers each input

`step s i` is the answer to input `i` in state `s` together with the next state. The rules
below lift what one step preserves to whole runs.
-/

namespace Nvcr.TransitionRuns

variable {σ τ ι ο : Type*}

/-- The state reached by a list of inputs. -/
def final (step : σ → ι → ο × σ) (s : σ) : List ι → σ
  | [] => s
  | i :: is => final step (step s i).2 is

/-- The answers given to a list of inputs. -/
def trace (step : σ → ι → ο × σ) (s : σ) : List ι → List ο
  | [] => []
  | i :: is => (step s i).1 :: trace step (step s i).2 is

/-- Every step of the run meets a condition on the state before it and its input. -/
def Along (ok : σ → ι → Prop) (step : σ → ι → ο × σ) (s : σ) : List ι → Prop
  | [] => True
  | i :: is => ok s i ∧ Along ok step (step s i).2 is

instance Along.decidable (ok : σ → ι → Prop) [∀ s i, Decidable (ok s i)]
    (step : σ → ι → ο × σ) : ∀ (s : σ) (is : List ι), Decidable (Along ok step s is)
  | _, [] => .isTrue trivial
  | s, i :: is =>
      have := Along.decidable ok step (step s i).2 is
      inferInstanceAs (Decidable (ok s i ∧ Along ok step (step s i).2 is))

variable {step : σ → ι → ο × σ} {s : σ}

@[simp] theorem final_nil : final step s [] = s := rfl

@[simp] theorem final_cons (i : ι) (is : List ι) :
    final step s (i :: is) = final step (step s i).2 is := rfl

@[simp] theorem trace_nil : trace step s [] = [] := rfl

@[simp] theorem trace_cons (i : ι) (is : List ι) :
    trace step s (i :: is) = (step s i).1 :: trace step (step s i).2 is := rfl

theorem final_append (is js : List ι) :
    final step s (is ++ js) = final step (final step s is) js := by
  induction is generalizing s with
  | nil => rfl
  | cons i is ih => exact ih

theorem trace_append (is js : List ι) :
    trace step s (is ++ js) = trace step s is ++ trace step (final step s is) js := by
  induction is generalizing s with
  | nil => rfl
  | cons i is ih => simp [ih]

@[simp] theorem trace_length (is : List ι) : (trace step s is).length = is.length := by
  induction is generalizing s with
  | nil => rfl
  | cons i is ih => simp [ih]

@[simp] theorem along_nil {ok : σ → ι → Prop} : Along ok step s [] := trivial

@[simp] theorem along_cons {ok : σ → ι → Prop} (i : ι) (is : List ι) :
    Along ok step s (i :: is) ↔ ok s i ∧ Along ok step (step s i).2 is := Iff.rfl

theorem along_append {ok : σ → ι → Prop} (is js : List ι) :
    Along ok step s (is ++ js) ↔ Along ok step s is ∧ Along ok step (final step s is) js := by
  induction is generalizing s with
  | nil => simp
  | cons i is ih => simp [ih, and_assoc]

/-- The conditions met along a run may be weakened. -/
theorem Along.mono {ok ok' : σ → ι → Prop} (h : ∀ s i, ok s i → ok' s i) {is : List ι}
    (ha : Along ok step s is) : Along ok' step s is := by
  induction is generalizing s with
  | nil => trivial
  | cons i is ih => exact ⟨h _ _ ha.1, ih ha.2⟩

/-- An invariant of every step that meets the condition holds at the end of every run whose
steps all meet it. -/
theorem invariant_of_along {ok : σ → ι → Prop} {inv : σ → Prop}
    (hstep : ∀ s i, inv s → ok s i → inv (step s i).2) {is : List ι}
    (hs : inv s) (ha : Along ok step s is) : inv (final step s is) := by
  induction is generalizing s with
  | nil => exact hs
  | cons i is ih => exact ih (hstep s i hs ha.1) ha.2

/-- An invariant of every step holds at the end of every run. -/
theorem invariant_of_step {inv : σ → Prop} (hstep : ∀ s i, inv s → inv (step s i).2)
    (hs : inv s) (is : List ι) : inv (final step s is) := by
  induction is generalizing s with
  | nil => exact hs
  | cons i is ih => exact ih (hstep s i hs)

/-- What an invariant implies about each step that meets the condition holds of every step of a
run whose steps all meet it. -/
theorem Along.of_invariant {ok good : σ → ι → Prop} {inv : σ → Prop}
    (hstep : ∀ s i, inv s → ok s i → inv (step s i).2) (hgood : ∀ s i, inv s → ok s i → good s i)
    {is : List ι} (hs : inv s) (ha : Along ok step s is) : Along good step s is := by
  induction is generalizing s with
  | nil => trivial
  | cons i is ih => exact ⟨hgood s i hs ha.1, ih (hstep s i hs ha.1) ha.2⟩

/-- What an invariant implies about each answer holds of every answer of every run. -/
theorem forall_mem_trace_of_invariant {good : ο → Prop} {inv : σ → Prop}
    (hstep : ∀ s i, inv s → inv (step s i).2) (hgood : ∀ s i, inv s → good (step s i).1)
    (hs : inv s) (is : List ι) : ∀ answer ∈ trace step s is, good answer := by
  induction is generalizing s with
  | nil => simp
  | cons i is ih =>
      intro answer ha
      rcases List.mem_cons.mp ha with rfl | ha
      · exact hgood s i hs
      · exact ih (hstep s i hs) answer ha

/-- Related states that answer alike and stay related give the same answers to every run. -/
theorem trace_eq_of_bisimulation {step' : τ → ι → ο × τ} {rel : σ → τ → Prop}
    (hstep : ∀ s t i, rel s t → (step s i).1 = (step' t i).1 ∧ rel (step s i).2 (step' t i).2)
    {t : τ} (hs : rel s t) (is : List ι) : trace step s is = trace step' t is := by
  induction is generalizing s t with
  | nil => rfl
  | cons i is ih =>
      obtain ⟨hanswer, hnext⟩ := hstep s t i hs
      rw [trace_cons, trace_cons, hanswer, ih hnext]

end Nvcr.TransitionRuns
