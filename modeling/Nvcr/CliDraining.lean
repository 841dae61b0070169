import Nvcr.DelayedSessions
import Nvcr.Frames

/-!
# Draining a session

The command line sends an input or flushes, and then receives and emits outputs until none is
ready or a limit is reached. Loops are given fuel; a session that obeys its contract never
exhausts enough of it.
-/

namespace Nvcr.Cli

open StatefulResults StatefulResults.Action DelayedSessions

/-- An answer that asks for input. -/
def Wants (e : Error) : Prop := e.code = .tryAgain

/-- An answer that reports the end of the stream. -/
def Ended (e : Error) : Prop := e.code = .endOfStream

inductive DrainState where
  | needsInput
  | endOfStream
  | outputLimit
  deriving DecidableEq, Repr

section Drain

variable {σ ω : Type} {ι ο : Type}

/-- The largest limit of the source stands for no limit. -/
def belowLimit (count : ℕ) (limit : Option ℕ) : Bool :=
  match limit with
  | none => true
  | some n => count < n

/-- Receive and emit until the limit is reached or no output is ready; `none` when the fuel is
exhausted. -/
def drainOutputs (receive : Action Error σ ο) (emit : ο → Action Error ω Unit) (flushed : Bool)
    (limit : Option ℕ) : ℕ → ℕ → σ → ω → Option (Result DrainState × σ × ω)
  | 0, _, _, _ => none
  | fuel + 1, count, s, w =>
      if belowLimit count limit then
        match receive.run s with
        | (.ok output, s') =>
            match (emit output).run w with
            | (.error e, w') => some (.error e, s', w')
            | (.ok (), w') => drainOutputs receive emit flushed limit fuel (count + 1) s' w'
        | (.error e, s') =>
            if e.code = .tryAgain then
              if flushed then
                some (.error ⟨.invalidState, "codec returned try_again after flush",
                  "cli-session-driver"⟩, s', w)
              else some (.ok .needsInput, s', w)
            else if e.code = .endOfStream ∧ flushed then some (.ok .endOfStream, s', w)
            else some (.error e, s', w)
      else some (.ok .outputLimit, s, w)

variable (session : Session Error σ ι ο) (emit : ο → Action Error ω Unit) (fuel : ℕ)

/-- Both directions send and drain so; the encode command has no limit. -/
def sendAndDrain (limit : Option ℕ) (input : ι) (s : σ) (w : ω) :
    Option (Result DrainState × σ × ω) :=
  match (session.send input).run s with
  | (.error e, s') => some (.error e, s', w)
  | (.ok (), s') => drainOutputs session.receive emit false limit fuel 0 s' w

def flushAndDrain (limit : Option ℕ) (s : σ) (w : ω) : Option (Result DrainState × σ × ω) :=
  match session.flush.run s with
  | (.error e, s') => some (.error e, s', w)
  | (.ok (), s') => drainOutputs session.receive emit true limit fuel 0 s' w

variable {session emit fuel}

/-- The end of a drain: the outputs of a chunk were emitted, or the emission of one of them
failed. -/
inductive Drained (At : List ο → σ → Prop) (outputs : List ο) (limit : Option ℕ) (count : ℕ)
    (flushed : Bool) (w : ω) (emit : ο → Action Error ω Unit) :
    Option (Result DrainState × σ × ω) → Prop
  | limited {chunk rest : List ο} {s' : σ} {w' : ω} (houtputs : outputs = chunk ++ rest)
      (hemitted : (emitAll emit chunk).run w = (.ok (), w'))
      (hlimit : limit = some (count + chunk.length)) (hat : At rest s') :
      Drained At outputs limit count flushed w emit (some (.ok .outputLimit, s', w'))
  | ready {chunk rest : List ο} {s' : σ} {w' : ω} {state : DrainState}
      (houtputs : outputs = chunk ++ rest)
      (hemitted : (emitAll emit chunk).run w = (.ok (), w'))
      (hbelow : belowLimit (count + chunk.length) limit = true)
      (hstate : state ≠ .outputLimit) (hrest : flushed = true → rest = []) (hat : At rest s') :
      Drained At outputs limit count flushed w emit (some (.ok state, s', w'))
  | failed {chunk rest : List ο} {e : Error} {s' : σ} {w' : ω} (houtputs : outputs = chunk ++ rest)
      (hemitted : (emitAll emit chunk).run w = (.error e, w'))
      (hlimit : ∀ n, limit = some n → count + chunk.length ≤ n) :
      Drained At outputs limit count flushed w emit (some (.error e, s', w'))

/-- One more output in front of a drained list. -/
theorem Drained.cons {At : List ο → σ → Prop} {outputs : List ο} {limit : Option ℕ} {count : ℕ}
    {flushed : Bool} {w w₁ : ω} {result : Option (Result DrainState × σ × ω)} {output : ο}
    (hemit : (emit output).run w = (.ok (), w₁))
    (h : Drained At outputs limit (count + 1) flushed w₁ emit result) :
    Drained At (output :: outputs) limit count flushed w emit result := by
  have hchunk : ∀ chunk, (emitAll emit (output :: chunk)).run w = (emitAll emit chunk).run w₁ := by
    intro chunk
    rw [emitAll_cons, hemit]
  have hcount : ∀ chunk : List ο, count + 1 + chunk.length = count + (output :: chunk).length := by
    intro chunk
    rw [List.length_cons]
    omega
  cases h with
  | @limited chunk rest _ _ houtputs hemitted hlimit hat =>
      refine .limited (by rw [houtputs, List.cons_append]) ((hchunk chunk).trans hemitted) ?_ hat
      rw [hlimit, hcount]
  | @ready chunk rest _ _ _ houtputs hemitted hbelow hstate hrest hat =>
      refine .ready (by rw [houtputs, List.cons_append]) ((hchunk chunk).trans hemitted) ?_ hstate
        hrest hat
      rw [← hcount]
      exact hbelow
  | @failed chunk rest _ _ _ houtputs hemitted hlimit =>
      refine .failed (by rw [houtputs, List.cons_append]) ((hchunk chunk).trans hemitted) ?_
      intro n hn
      rw [← hcount]
      exact hlimit n hn

/-- Draining a session that receives as its contract says. -/
theorem drainOutputs_drained {receive : Action Error σ ο} {At : List ο → σ → Prop}
    (quiet : List ο → Error → Prop) {flushed : Bool}
    (hreceive : ∀ {outputs s}, At outputs s → Receives receive (quiet outputs) At outputs s)
    (hquiet : ∀ outputs e, quiet outputs e → if flushed then Ended e ∧ outputs = [] else Wants e)
    {limit : Option ℕ} {outputs : List ο} {count : ℕ} {s : σ} (hat : At outputs s)
    (hfuel : outputs.length < fuel) (hlimit : ∀ n, limit = some n → count ≤ n) (w : ω) :
    Drained At outputs limit count flushed w emit
      (drainOutputs receive emit flushed limit fuel count s w) := by
  induction fuel generalizing outputs count s w with
  | zero => omega
  | succ fuel ih =>
      rw [drainOutputs]
      by_cases hbelow : belowLimit count limit = true
      · rw [if_pos hbelow]
        have hnext : ∀ n, limit = some n → count + 1 ≤ n := by
          intro n hn
          rw [hn] at hbelow
          simpa [belowLimit] using hbelow
        cases hreceive hat with
        | @output output rest s' houtputs hrun hlater =>
            subst houtputs
            rw [hrun]
            simp only []
            rcases hemit : (emit output).run w with ⟨e | u, w'⟩
            · refine .failed (List.singleton_append (l := rest)).symm ?_ hnext
              rw [emitAll_cons, hemit]
            · refine .cons hemit (ih hlater ?_ hnext w')
              rw [List.length_cons] at hfuel
              omega
        | @none e s' he hrun hlater =>
            rw [hrun]
            simp only []
            have hcode := hquiet outputs e he
            cases flushed with
            | true =>
                simp only [if_true, Ended] at hcode
                rw [if_neg (by rw [hcode.1]; decide), if_pos ⟨hcode.1, rfl⟩]
                exact .ready (List.nil_append outputs).symm rfl (by simpa using hbelow)
                  (by decide) (fun _ => hcode.2) hlater
            | false =>
                simp only [Bool.false_eq_true, if_false, Wants] at hcode
                rw [if_pos hcode, if_neg (by decide)]
                exact .ready (List.nil_append outputs).symm rfl (by simpa using hbelow)
                  (by decide) (fun hnever => by cases hnever) hlater
      · rw [if_neg hbelow]
        refine .limited (List.nil_append outputs).symm rfl ?_ hat
        cases hl : limit with
        | none => simp [belowLimit, hl] at hbelow
        | some n =>
            have hle := hlimit n hl
            simp only [hl, belowLimit, decide_eq_true_eq, not_lt] at hbelow
            rw [List.length_nil, Nat.add_zero, le_antisymm hbelow hle]

variable {At : List ι → List ο → Bool → σ → Prop}

/-- Sending an input to a session that obeys its contract, and draining it. -/
theorem sendAndDrain_drained (hobeys : Obeys session Wants Ended At) {input : ι}
    {inputs : List ι} {outputs : List ο} {s : σ} (hat : At (input :: inputs) outputs false s)
    (hfuel : outputs.length < fuel) (limit : Option ℕ) (w : ω) :
    Drained (fun rest => At inputs rest false) outputs limit 0 false w emit
      (sendAndDrain session emit fuel limit input s w) := by
  obtain ⟨s', hsend, hsent⟩ := hobeys.send hat
  simp only [sendAndDrain, hsend]
  refine drainOutputs_drained (fun _ e => Wants e) hobeys.receive ?_ hsent hfuel
    (fun _ _ => Nat.zero_le _) w
  intro rest e he
  exact he

theorem flushAndDrain_drained (hobeys : Obeys session Wants Ended At) {outputs : List ο} {s : σ}
    (hat : At [] outputs false s) (hfuel : outputs.length < fuel) (limit : Option ℕ) (w : ω) :
    Drained (fun rest => At [] rest true) outputs limit 0 true w emit
      (flushAndDrain session emit fuel limit s w) := by
  obtain ⟨s', hflush, hflushed⟩ := hobeys.flush hat
  simp only [flushAndDrain, hflush]
  refine drainOutputs_drained (fun rest e => Ended e ∧ rest = []) hobeys.drain ?_ hflushed hfuel
    (fun _ _ => Nat.zero_le _) w
  intro rest e he
  exact he

end Drain

end Nvcr.Cli
