import Nvcr.StatefulResults

/-!
# Sessions with delayed outputs

A session takes inputs and hands out outputs, not necessarily one for each and not necessarily at
once. Its contract relates a state to the inputs that are still to come and the outputs that are
still to be handed out.
-/

namespace Nvcr.DelayedSessions

open StatefulResults StatefulResults.Action

variable {ε σ ω : Type*} {ι ο : Type}

/-- The calls of a session. -/
structure Session (ε σ : Type*) (ι ο : Type) where
  send : ι → Action ε σ Unit
  receive : Action ε σ ο
  flush : Action ε σ Unit

/-- What a receive may answer: the next output, or `quiet` with nothing changed for the caller. -/
inductive Receives (receive : Action ε σ ο) (quiet : ε → Prop) (later : List ο → σ → Prop)
    (outputs : List ο) (s : σ) : Prop
  | output {output : ο} {rest : List ο} {s' : σ} (houtputs : outputs = output :: rest)
      (hrun : receive.run s = (.ok output, s')) (hlater : later rest s')
  | none {e : ε} {s' : σ} (hquiet : quiet e) (hrun : receive.run s = (.error e, s'))
      (hlater : later outputs s')

/-- The contract of a session. `At inputs outputs flushed s` says that the session in state `s`
takes the inputs to come and has the outputs to hand out; `wants` are the answers that ask for
input and `ended` those that report the end. How many outputs are ready before the flush is left
open. -/
structure Obeys (session : Session ε σ ι ο) (wants ended : ε → Prop)
    (At : List ι → List ο → Bool → σ → Prop) : Prop where
  send : ∀ {input inputs outputs s}, At (input :: inputs) outputs false s →
    ∃ s', (session.send input).run s = (.ok (), s') ∧ At inputs outputs false s'
  receive : ∀ {inputs outputs s}, At inputs outputs false s →
    Receives session.receive wants (fun rest => At inputs rest false) outputs s
  flush : ∀ {outputs s}, At [] outputs false s →
    ∃ s', session.flush.run s = (.ok (), s') ∧ At [] outputs true s'
  drain : ∀ {outputs s}, At [] outputs true s →
    Receives session.receive (fun e => ended e ∧ outputs = []) (fun rest => At [] rest true)
      outputs s

/-- Emit a list of outputs in order. -/
def emitAll (emit : ο → Action ε ω Unit) : List ο → Action ε ω Unit
  | [] => pure ()
  | output :: outputs => do
      emit output
      emitAll emit outputs

variable {emit : ο → Action ε ω Unit}

@[simp] theorem emitAll_nil : emitAll emit [] = pure () := rfl

theorem emitAll_cons (output : ο) (outputs : List ο) (w : ω) :
    (emitAll emit (output :: outputs)).run w =
      match (emit output).run w with
      | (.ok (), w') => (emitAll emit outputs).run w'
      | (.error e, w') => (.error e, w') := by
  rw [emitAll, run_bind]
  rcases (emit output).run w with ⟨e | u, w'⟩ <;> rfl

theorem emitAll_append (chunk rest : List ο) (w : ω) :
    (emitAll emit (chunk ++ rest)).run w =
      match (emitAll emit chunk).run w with
      | (.ok (), w') => (emitAll emit rest).run w'
      | (.error e, w') => (.error e, w') := by
  induction chunk generalizing w with
  | nil => rfl
  | cons output chunk ih =>
      rw [List.cons_append, emitAll_cons, emitAll_cons]
      rcases (emit output).run w with ⟨e | u, w'⟩
      · rfl
      · exact ih w'

/-- A counter that every successful emission advances counts the emitted outputs. -/
theorem emitAll_count {count : ω → ℕ}
    (hcount : ∀ output w w', (emit output).run w = (.ok (), w') → count w' = count w + 1)
    {outputs : List ο} {w w' : ω} (h : (emitAll emit outputs).run w = (.ok (), w')) :
    count w' = count w + outputs.length := by
  induction outputs generalizing w with
  | nil =>
      cases h
      rfl
  | cons output outputs ih =>
      rw [emitAll_cons] at h
      rcases hemit : (emit output).run w with ⟨e | u, w₁⟩
      · rw [hemit] at h
        cases h
      · rw [hemit] at h
        have hfirst := hcount output w w₁ hemit
        have hrest := ih h
        rw [List.length_cons]
        omega

end Nvcr.DelayedSessions
