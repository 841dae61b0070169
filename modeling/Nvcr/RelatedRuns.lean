import Nvcr.StatefulResults
import Nvcr.TransitionRuns

/-!
# Two runs side by side

Rules for pairs of actions that answer alike when they are started in related states, and for
machines of which one skips the inputs that the other one takes in addition.
-/

namespace Nvcr.StatefulResults.Action

variable {ε σ τ : Type*} {α β : Type}

/-- Started in states related by `R`, the actions give the same result, and leave states related by
`Q` after a success and by `E` after an error. -/
def Relates (R Q E : σ → τ → Prop) (x : Action ε σ α) (y : Action ε τ α) : Prop :=
  ∀ s t, R s t → (∃ a s' t', x.run s = (.ok a, s') ∧ y.run t = (.ok a, t') ∧ Q s' t') ∨
    ∃ e s' t', x.run s = (.error e, s') ∧ y.run t = (.error e, t') ∧ E s' t'

section Rules

variable {R Q S E : σ → τ → Prop}

theorem Relates.pure (h : ∀ s t, R s t → Q s t) (a : α) :
    Relates R Q E (pure a : Action ε σ α) (pure a : Action ε τ α) :=
  fun s t hst => .inl ⟨a, s, t, rfl, rfl, h s t hst⟩

theorem Relates.fail (h : ∀ s t, R s t → E s t) (e : ε) :
    Relates R Q E (fail e : Action ε σ α) (fail e : Action ε τ α) :=
  fun s t hst => .inr ⟨e, s, t, rfl, rfl, h s t hst⟩

theorem Relates.lift (hQ : ∀ s t, R s t → Q s t) (hE : ∀ s t, R s t → E s t)
    (x : Except ε α) :
    Relates R Q E (lift x : Action ε σ α) (lift x : Action ε τ α) := by
  intro s t hst
  cases x with
  | ok a => exact .inl ⟨a, s, t, rfl, rfl, hQ s t hst⟩
  | error e => exact .inr ⟨e, s, t, rfl, rfl, hE s t hst⟩

theorem Relates.update {f : σ → σ} {g : τ → τ} (h : ∀ s t, R s t → Q (f s) (g t)) :
    Relates R Q E (update f : Action ε σ Unit) (update g : Action ε τ Unit) :=
  fun s t hst => .inl ⟨(), f s, g t, rfl, rfl, h s t hst⟩

theorem Relates.bind {x : Action ε σ α} {y : Action ε τ α} {f : α → Action ε σ β}
    {g : α → Action ε τ β} (hx : Relates R Q E x y) (hf : ∀ a, Relates Q S E (f a) (g a)) :
    Relates R S E (x >>= f) (y >>= g) := by
  intro s t hst
  rcases hx s t hst with ⟨a, s', t', hs, ht, hQ⟩ | ⟨e, s', t', hs, ht, hE⟩
  · rw [run_bind_of_ok hs, run_bind_of_ok ht]
    exact hf a s' t' hQ
  · rw [run_bind_of_error hs, run_bind_of_error ht]
    exact .inr ⟨e, s', t', rfl, rfl, hE⟩

/-- Reading parts of the two states, of which the relation knows `P`. -/
theorem Relates.gets_bind {γ δ : Type} {P : γ → δ → Prop} {f : σ → γ} {g : τ → δ}
    {x : γ → Action ε σ β} {y : δ → Action ε τ β} (hP : ∀ s t, R s t → P (f s) (g t))
    (h : ∀ a b, P a b → Relates R S E (x a) (y b)) :
    Relates R S E (Action.gets f >>= x) (Action.gets g >>= y) :=
  fun s t hst => h (f s) (g t) (hP s t hst) s t hst

theorem Relates.mono {R' Q' E' : σ → τ → Prop} {x : Action ε σ α} {y : Action ε τ α}
    (h : Relates R Q E x y) (hR : ∀ s t, R' s t → R s t) (hQ : ∀ s t, Q s t → Q' s t)
    (hE : ∀ s t, E s t → E' s t) : Relates R' Q' E' x y := by
  intro s t hst
  rcases h s t (hR s t hst) with ⟨a, s', t', hs, ht, hlater⟩ | ⟨e, s', t', hs, ht, hlater⟩
  · exact .inl ⟨a, s', t', hs, ht, hQ _ _ hlater⟩
  · exact .inr ⟨e, s', t', hs, ht, hE _ _ hlater⟩

end Rules

end Nvcr.StatefulResults.Action

namespace Nvcr.TransitionRuns

variable {σ τ ι ο : Type*}

theorem along_of_forall {ok : σ → ι → Prop} {step : σ → ι → ο × σ} (h : ∀ s i, ok s i) {s : σ}
    (is : List ι) : Along ok step s is := by
  induction is generalizing s with
  | nil => exact trivial
  | cons i is ih => exact ⟨h s i, ih⟩

/-- The answers given to the inputs of a kind. -/
def answersTo (kind : ι → Bool) (step : σ → ι → ο × σ) (s : σ) : List ι → List ο
  | [] => []
  | i :: is =>
      if kind i then (step s i).1 :: answersTo kind step (step s i).2 is
      else answersTo kind step (step s i).2 is

/-- The inputs that one machine may take while a related one rests leave no trace in the answers
to a kind of the other inputs. -/
theorem answersTo_eq_filter {step : σ → ι → ο × σ} {step' : τ → ι → ο × τ}
    {rel : σ → τ → Prop} {kind seen : ι → Bool}
    (hseen : ∀ s t i, seen i = true → rel s t →
      (kind i = true → (step s i).1 = (step' t i).1) ∧ rel (step s i).2 (step' t i).2)
    (hother : ∀ s t i, seen i = false → rel s t → rel (step s i).2 t)
    (hkind : ∀ i, kind i = true → seen i = true)
    {s : σ} {t : τ} (hst : rel s t) (is : List ι) :
    answersTo kind step s is = answersTo kind step' t (is.filter seen) := by
  induction is generalizing s t with
  | nil => rfl
  | cons i is ih =>
      cases hi : seen i with
      | true =>
          obtain ⟨hanswer, hnext⟩ := hseen s t i hi hst
          rw [List.filter_cons_of_pos hi, answersTo, answersTo, ih hnext]
          cases hk : kind i with
          | true => rw [hanswer hk]
          | false => rfl
      | false =>
          have hk : kind i = false := by
            cases hk : kind i with
            | false => rfl
            | true => rw [hkind i hk] at hi; exact hi
          rw [answersTo, if_neg (by simp [hk]), List.filter_cons_of_neg (by simp [hi])]
          exact ih (hother s t i hi hst)

theorem answersTo_filter_self (kind : ι → Bool) (step : σ → ι → ο × σ) (s : σ) (is : List ι) :
    answersTo kind step s (is.filter kind) = trace step s (is.filter kind) := by
  induction is generalizing s with
  | nil => rfl
  | cons i is ih =>
      cases hi : kind i with
      | true => rw [List.filter_cons_of_pos hi, answersTo, if_pos hi, trace_cons, ih]
      | false => rw [List.filter_cons_of_neg (by simp [hi]), ih]

/-- The inputs of other kinds leave no trace in the answers to one kind, if one machine may take
them while a related one rests and every input of its run meets the condition. -/
theorem answersTo_eq_trace_filter_of_along {step : σ → ι → ο × σ} {step' : τ → ι → ο × τ}
    {rel : σ → τ → Prop} {ok : σ → ι → Prop} {kind : ι → Bool}
    (hkind : ∀ s t i, ok s i → kind i = true → rel s t →
      (step s i).1 = (step' t i).1 ∧ rel (step s i).2 (step' t i).2)
    (hother : ∀ s t i, ok s i → kind i = false → rel s t → rel (step s i).2 t)
    {s : σ} {t : τ} (hst : rel s t) {is : List ι} (hok : Along ok step s is) :
    answersTo kind step s is = trace step' t (is.filter kind) := by
  induction is generalizing s t with
  | nil => rfl
  | cons i is ih =>
      cases hi : kind i with
      | true =>
          obtain ⟨hanswer, hnext⟩ := hkind s t i hok.1 hi hst
          rw [List.filter_cons_of_pos hi, answersTo, if_pos hi, trace_cons, hanswer,
            ih hnext hok.2]
      | false =>
          rw [answersTo, if_neg (by simp [hi]), List.filter_cons_of_neg (by simp [hi])]
          exact ih (hother s t i hok.1 hi hst) hok.2

theorem answersTo_eq_trace_filter {step : σ → ι → ο × σ} {step' : τ → ι → ο × τ}
    {rel : σ → τ → Prop} {kind : ι → Bool}
    (hkind : ∀ s t i, kind i = true → rel s t →
      (step s i).1 = (step' t i).1 ∧ rel (step s i).2 (step' t i).2)
    (hother : ∀ s t i, kind i = false → rel s t → rel (step s i).2 t)
    {s : σ} {t : τ} (hst : rel s t) (is : List ι) :
    answersTo kind step s is = trace step' t (is.filter kind) :=
  answersTo_eq_trace_filter_of_along (fun s t i _ => hkind s t i) (fun s t i _ => hother s t i) hst
    (along_of_forall (fun _ _ => trivial) is)

/-- Related machines that take the same inputs of one kind give the same answers to them. -/
theorem trace_eq_of_kind {step : σ → ι → ο × σ} {step' : τ → ι → ο × τ} {rel : σ → τ → Prop}
    {kind : ι → Prop}
    (hkind : ∀ s t i, kind i → rel s t →
      (step s i).1 = (step' t i).1 ∧ rel (step s i).2 (step' t i).2)
    {s : σ} {t : τ} (hst : rel s t) {is : List ι} (his : ∀ i ∈ is, kind i) :
    trace step s is = trace step' t is := by
  induction is generalizing s t with
  | nil => rfl
  | cons i is ih =>
      obtain ⟨hanswer, hnext⟩ := hkind s t i (his i List.mem_cons_self) hst
      rw [trace_cons, trace_cons, hanswer,
        ih hnext fun j hj => his j (List.mem_cons_of_mem i hj)]

end Nvcr.TransitionRuns
