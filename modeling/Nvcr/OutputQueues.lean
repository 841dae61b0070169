import Nvcr.TransitionRuns

/-!
# Machines with an output queue

A ledger records what a machine produced and handed out since its last reset. A machine whose
steps treat a part of the state as a queue hands out exactly what it produced, in order.
-/

namespace Nvcr.OutputQueues

open TransitionRuns

variable {σ ι ο α : Type*}

/-- What a step means for the output queue. -/
inductive Event (α : Type*) where
  | produced (output : α)
  | received (output : α)
  | flushed
  | reset
  | other

/-- What was produced and handed out since the last reset, and whether the machine was flushed. -/
structure Ledger (α : Type*) where
  produced : List α := []
  received : List α := []
  flushed : Bool := false

/-- The possible answers to a request for an output. -/
inductive Receipt (α : Type*) where
  | output (output : α)
  | needMoreInput
  | endOfStream

namespace Ledger

def record (ledger : Ledger α) : Event α → Ledger α
  | .produced output => { ledger with produced := ledger.produced ++ [output] }
  | .received output => { ledger with received := ledger.received ++ [output] }
  | .flushed => { ledger with flushed := true }
  | .reset => {}
  | .other => ledger

/-- The answer due to the next request: the first output that was not handed out. -/
def expected (ledger : Ledger α) : Receipt α :=
  match ledger.produced[ledger.received.length]? with
  | some output => .output output
  | none => if ledger.flushed then .endOfStream else .needMoreInput

end Ledger

/-- A queue with its flag, and what an event does to it. -/
def applyEvent (queue : List α × Bool) : Event α → List α × Bool
  | .produced output => (queue.1 ++ [output], queue.2)
  | .received _ => (queue.1.tail, queue.2)
  | .flushed => (queue.1, true)
  | .reset => ([], false)
  | .other => queue

/-- The answer of a queue to a request. -/
def front (queue : List α × Bool) : Receipt α :=
  match queue.1 with
  | output :: _ => .output output
  | [] => if queue.2 then .endOfStream else .needMoreInput

/-- A machine together with its ledger. -/
def withLedger (step : σ → ι → ο × σ) (event : σ → ι → Event α) (state : σ × Ledger α) (i : ι) :
    ο × (σ × Ledger α) :=
  ((step state.1 i).1, ((step state.1 i).2, state.2.record (event state.1 i)))

/-- The ledger of a run. -/
def ledger (step : σ → ι → ο × σ) (event : σ → ι → Event α) (s : σ) (is : List ι) : Ledger α :=
  (final (withLedger step event) (s, {}) is).2

theorem final_withLedger (step : σ → ι → ο × σ) (event : σ → ι → Event α) (s : σ)
    (book : Ledger α) (is : List ι) :
    (final (withLedger step event) (s, book) is).1 = final step s is := by
  induction is generalizing s book with
  | nil => rfl
  | cons i is ih => exact ih _ _

/-- The steps of a machine treat what `view` reads as a queue. -/
structure Implements (step : σ → ι → ο × σ) (event : σ → ι → Event α)
    (view : σ → List α × Bool) : Prop where
  step_view : ∀ s i, view (step s i).2 = applyEvent (view s) (event s i)
  head_of_received : ∀ s i output, event s i = .received output →
    (view s).1.head? = some output

/-- The queue holds what was produced and not handed out. -/
def Balanced (view : σ → List α × Bool) (state : σ × Ledger α) : Prop :=
  state.2.received ++ (view state.1).1 = state.2.produced ∧ state.2.flushed = (view state.1).2

theorem expected_of_balanced {view : σ → List α × Bool} {state : σ × Ledger α}
    (h : Balanced view state) : state.2.expected = front (view state.1) := by
  obtain ⟨hqueue, hflushed⟩ := h
  rw [Ledger.expected, ← hqueue, List.getElem?_append_right (le_refl _), Nat.sub_self, hflushed,
    front]
  cases (view state.1).1 with
  | nil => rfl
  | cons output outputs => rfl

section Implements

variable {step : σ → ι → ο × σ} {event : σ → ι → Event α} {view : σ → List α × Bool}

theorem Implements.balanced_step (h : Implements step event view) (state : σ × Ledger α) (i : ι)
    (hstate : Balanced view state) : Balanced view (withLedger step event state i).2 := by
  obtain ⟨s, book⟩ := state
  obtain ⟨hqueue, hflushed⟩ := hstate
  have hview := h.step_view s i
  have hhead := h.head_of_received s i
  simp only [withLedger, Balanced] at hqueue hflushed ⊢
  rw [hview]
  cases hevent : event s i with
  | produced output =>
      refine ⟨?_, hflushed⟩
      change book.received ++ ((view s).1 ++ [output]) = book.produced ++ [output]
      rw [← List.append_assoc, hqueue]
  | received output =>
      refine ⟨?_, hflushed⟩
      change (book.received ++ [output]) ++ (view s).1.tail = book.produced
      rw [List.append_assoc, ← hqueue]
      congr 1
      exact List.cons_head?_tail (hhead output hevent)
  | flushed => exact ⟨hqueue, rfl⟩
  | reset => exact ⟨rfl, rfl⟩
  | other => exact ⟨hqueue, hflushed⟩

/-- The ledger of every run agrees with the queue. -/
theorem Implements.balanced (h : Implements step event view) {s : σ} (hs : view s = ([], false))
    (is : List ι) : Balanced view (final step s is, ledger step event s is) := by
  have hinitial : Balanced view (s, ({} : Ledger α)) := by
    refine ⟨?_, ?_⟩
    · rw [hs]
      rfl
    · rw [hs]
  have hfinal := invariant_of_step h.balanced_step hinitial is
  rw [← final_withLedger step event s {} is]
  exact hfinal

/-- Everything handed out was produced, in the order of production. -/
theorem Implements.in_order (h : Implements step event view) {s : σ}
    (hs : view s = ([], false)) (is : List ι) :
    (ledger step event s is).received <+: (ledger step event s is).produced :=
  ⟨_, (h.balanced hs is).1⟩

/-- The queue answers as the ledger of the run expects. -/
theorem Implements.front_eq (h : Implements step event view) {s : σ} (hs : view s = ([], false))
    (is : List ι) : front (view (final step s is)) = (ledger step event s is).expected :=
  (expected_of_balanced (h.balanced hs is)).symm

end Implements

end Nvcr.OutputQueues
