import Mathlib.Tactic

/-!
# Fallible computations over a state that survives failure

An action may change its state and then fail: the failure is returned together with the
state as it was left. Inversion lemmas peel a successful or failed sequence apart, and a
frame rule propagates a part of the state that no step touches.
-/

namespace Nvcr.StatefulResults

universe u

variable {ε σ : Type*} {α β : Type u}

/-- Sequencing of plain results succeeds exactly when both parts do. -/
theorem bind_eq_ok {x : Except ε α} {f : α → Except ε β} {b : β} :
    (x >>= f) = .ok b ↔ ∃ a, x = .ok a ∧ f a = .ok b := by
  rcases x with e | a
  · exact ⟨fun h => (nomatch h), fun ⟨_, h, _⟩ => (nomatch h)⟩
  · exact ⟨fun h => ⟨a, rfl, h⟩, fun ⟨_, h, hf⟩ => by cases h; exact hf⟩

@[simp] theorem ok_bind (a : α) (f : α → Except ε β) : (Except.ok a >>= f) = f a := rfl

@[simp] theorem error_bind (e : ε) (f : α → Except ε β) :
    ((Except.error e : Except ε α) >>= f) = .error e := rfl

/-- Fail with `e` unless `c` holds. -/
def require (c : Prop) [Decidable c] (e : ε) : Except ε Unit :=
  if c then .ok () else .error e

/-- A check of every member of a list runs over the list, also where the type of its members
is finite. -/
instance (priority := 2000) decidableForallMem {ι : Type} {p : ι → Prop} [DecidablePred p]
    (l : List ι) : Decidable (∀ i ∈ l, p i) :=
  List.decidableBAll p l

@[simp] theorem require_eq_ok {c : Prop} [Decidable c] {e : ε} {u : Unit} :
    require c e = .ok u ↔ c := by
  unfold require
  split <;> simp_all

theorem isOk_iff {x : Except ε α} : x.isOk = true ↔ ∃ a, x = .ok a := by
  rcases x with e | a
  · exact ⟨fun h => (nomatch h), fun ⟨_, h⟩ => (nomatch h)⟩
  · exact ⟨fun _ => ⟨a, rfl⟩, fun _ => rfl⟩

/-- A computation that is known to succeed gives the value taken from it. -/
theorem eq_ok_get {x : Except ε α} (h : x.toOption.isSome = true) :
    x = .ok (x.toOption.get h) := by
  rcases x with e | a
  · exact nomatch h
  · rfl

/-- A loop of checks that succeeds passed every one of them. -/
theorem forM_eq_ok {ι : Type} {l : List ι} {check : ι → Except ε Unit}
    (h : l.forM check = .ok ()) : ∀ i ∈ l, check i = .ok () := by
  induction l with
  | nil => exact fun _ hmem => (nomatch hmem)
  | cons first l ih =>
      obtain ⟨_, hfirst, hlater⟩ := bind_eq_ok.mp h
      exact List.forall_mem_cons.mpr ⟨hfirst, ih hlater⟩

theorem forM_of_ok {ι : Type} {l : List ι} {check : ι → Except ε Unit}
    (h : ∀ i ∈ l, check i = .ok ()) : l.forM check = .ok () := by
  induction l with
  | nil => rfl
  | cons first l ih =>
      obtain ⟨hfirst, hlater⟩ := List.forall_mem_cons.mp h
      exact bind_eq_ok.mpr ⟨(), hfirst, ih hlater⟩

/-- A computation that returns a result and the state it leaves, also on failure. -/
def Action (ε σ : Type*) (α : Type u) := σ → Except ε α × σ

namespace Action

/-- Run an action from a state. -/
def run (x : Action ε σ α) (s : σ) : Except ε α × σ := x s

instance : Monad (Action ε σ) where
  pure a := fun s => (.ok a, s)
  bind x f := fun s =>
    match x s with
    | (.ok a, s') => f a s'
    | (.error e, s') => (.error e, s')

instance : LawfulMonad (Action ε σ) := LawfulMonad.mk' _
  (fun x => by
    funext s
    change (match x s with | (.ok a, s') => (.ok a, s') | (.error e, s') => (.error e, s')) = x s
    rcases x s with ⟨e | a, s'⟩ <;> rfl)
  (fun _ _ => rfl)
  (fun x f g => by
    funext s
    change (match (match x s with | (.ok a, s') => f a s' | (.error e, s') => (.error e, s')) with
        | (.ok b, s') => g b s' | (.error e, s') => (.error e, s')) =
      match x s with
        | (.ok a, s') => (match f a s' with
          | (.ok b, s'') => g b s'' | (.error e, s'') => (.error e, s''))
        | (.error e, s') => (.error e, s')
    rcases x s with ⟨e | a, s'⟩ <;> rfl)

/-- Fail without changing the state. -/
def fail (e : ε) : Action ε σ α := fun s => (.error e, s)

/-- Use a result that does not depend on the state. -/
def lift (x : Except ε α) : Action ε σ α := fun s => (x, s)

/-- Read from the state. -/
def gets (f : σ → α) : Action ε σ α := fun s => (.ok (f s), s)

/-- Change the state. -/
def update (f : σ → σ) : Action ε σ Unit := fun s => (.ok (), f s)

/-- Run an action on one component of a larger state. -/
def zoom {τ : Type*} (get : τ → σ) (set : τ → σ → τ) (x : Action ε σ α) : Action ε τ α :=
  fun t => ((x (get t)).1, set t (x (get t)).2)

@[simp] theorem run_pure (a : α) (s : σ) : run (pure a : Action ε σ α) s = (.ok a, s) := rfl

@[simp] theorem run_fail (e : ε) (s : σ) : run (fail e : Action ε σ α) s = (.error e, s) := rfl

@[simp] theorem run_lift (x : Except ε α) (s : σ) : run (lift x : Action ε σ α) s = (x, s) := rfl

@[simp] theorem run_gets (f : σ → α) (s : σ) :
    run (gets f : Action ε σ α) s = (.ok (f s), s) := rfl

@[simp] theorem run_update (f : σ → σ) (s : σ) :
    run (update f : Action ε σ Unit) s = (.ok (), f s) := rfl

@[simp] theorem run_zoom {τ : Type*} (get : τ → σ) (set : τ → σ → τ) (x : Action ε σ α) (t : τ) :
    run (zoom get set x) t = ((run x (get t)).1, set t (run x (get t)).2) := rfl

theorem run_bind (x : Action ε σ α) (f : α → Action ε σ β) (s : σ) :
    run (x >>= f) s =
      match run x s with
      | (.ok a, s') => run (f a) s'
      | (.error e, s') => (.error e, s') := rfl

@[simp] theorem run_map (f : α → β) (x : Action ε σ α) (s : σ) :
    run (f <$> x) s = ((run x s).1.map f, (run x s).2) := by
  rw [map_eq_pure_bind, run_bind]
  rcases run x s with ⟨e | a, s'⟩ <;> rfl

theorem run_bind_of_ok {x : Action ε σ α} {f : α → Action ε σ β} {s s' : σ} {a : α}
    (h : run x s = (.ok a, s')) : run (x >>= f) s = run (f a) s' := by
  rw [run_bind, h]

theorem run_bind_of_error {x : Action ε σ α} {f : α → Action ε σ β} {s s' : σ} {e : ε}
    (h : run x s = (.error e, s')) : run (x >>= f) s = (.error e, s') := by
  rw [run_bind, h]

/-- A successful sequence consists of two successful parts. -/
theorem run_bind_eq_ok {x : Action ε σ α} {f : α → Action ε σ β} {s t : σ} {b : β} :
    run (x >>= f) s = (.ok b, t) ↔
      ∃ a s', run x s = (.ok a, s') ∧ run (f a) s' = (.ok b, t) := by
  rw [run_bind]
  rcases run x s with ⟨_ | a, s'⟩ <;> simp

/-- A failed sequence failed in its first part, or in its second after the first succeeded. -/
theorem run_bind_eq_error {x : Action ε σ α} {f : α → Action ε σ β} {s t : σ} {e : ε} :
    run (x >>= f) s = (.error e, t) ↔
      run x s = (.error e, t) ∨ ∃ a s', run x s = (.ok a, s') ∧ run (f a) s' = (.error e, t) := by
  rw [run_bind]
  rcases run x s with ⟨_ | a, s'⟩ <;> simp

/-- `x` never changes what `p` reads. -/
def Keeps {γ : Type*} (p : σ → γ) (x : Action ε σ α) : Prop :=
  ∀ s, p (run x s).2 = p s

section Keeps

variable {γ : Type*} {p : σ → γ}

theorem Keeps.pure (a : α) : Keeps p (pure a : Action ε σ α) := fun _ => rfl

theorem Keeps.fail (e : ε) : Keeps p (fail e : Action ε σ α) := fun _ => rfl

theorem Keeps.lift (x : Except ε α) : Keeps p (lift x : Action ε σ α) := fun _ => rfl

theorem Keeps.gets (f : σ → α) : Keeps p (gets f : Action ε σ α) := fun _ => rfl

theorem Keeps.update {f : σ → σ} (hf : ∀ s, p (f s) = p s) :
    Keeps p (update f : Action ε σ Unit) := hf

theorem Keeps.zoom {τ δ : Type*} {q : τ → δ} {get : τ → σ} {set : τ → σ → τ}
    {x : Action ε σ α} (h : ∀ t, q (set t (run x (get t)).2) = q t) : Keeps q (x.zoom get set) := h

theorem Keeps.bind {x : Action ε σ α} {f : α → Action ε σ β}
    (hx : Keeps p x) (hf : ∀ a, Keeps p (f a)) : Keeps p (x >>= f) := by
  intro s
  have hs := hx s
  rw [run_bind]
  rcases h : run x s with ⟨_ | a, s'⟩
  · rwa [h] at hs
  · rw [h] at hs
    exact (hf a s').trans hs

/-- A sequence whose first part keeps what `p` reads fails there, or goes on with it kept. -/
theorem Keeps.bind_cases {x : Action ε σ α} {f : α → Action ε σ β} {s t : σ} {result : Except ε β}
    (hx : Keeps p x) (h : run (x >>= f) s = (result, t)) :
    (p t = p s ∧ ∃ e, run x s = (.error e, t) ∧ result = .error e) ∨
      ∃ a s', run x s = (.ok a, s') ∧ p s' = p s ∧ run (f a) s' = (result, t) := by
  have hs := hx s
  rw [run_bind] at h
  rcases hrun : run x s with ⟨e | a, s'⟩
  · rw [hrun] at h hs
    cases h
    exact .inl ⟨hs, e, rfl, rfl⟩
  · rw [hrun] at h hs
    exact .inr ⟨a, s', rfl, hs, h⟩

/-- A failing `x` leaves what `p` reads. -/
def KeepsOnError (p : σ → γ) (x : Action ε σ α) : Prop :=
  ∀ s e t, run x s = (.error e, t) → p t = p s

theorem Keeps.onError {x : Action ε σ α} (hx : Keeps p x) : KeepsOnError p x := by
  intro s e t h
  have hs := hx s
  rwa [h] at hs

theorem KeepsOnError.bind {x : Action ε σ α} {f : α → Action ε σ β}
    (hx : Keeps p x) (hf : ∀ a, KeepsOnError p (f a)) : KeepsOnError p (x >>= f) := by
  intro s e t h
  rcases run_bind_eq_error.mp h with h | ⟨a, s', ha, h⟩
  · exact hx.onError s e t h
  · have hs := hx s
    rw [ha] at hs
    exact (hf a s' e t h).trans hs

/-- A last change of the state cannot fail. -/
theorem KeepsOnError.update {δ : Type} (f : σ → σ) (a : δ) :
    KeepsOnError p (Action.update f >>= fun _ => (Pure.pure a : Action ε σ δ)) := by
  intro s e t h
  cases h

/-- `x` succeeds with `a` from every state and leaves what `p` reads. -/
def Yields (p : σ → γ) (x : Action ε σ α) (a : α) : Prop :=
  ∀ s, ∃ t, run x s = (.ok a, t) ∧ p t = p s

theorem Yields.pure (a : α) : Yields p (pure a : Action ε σ α) a := fun s => ⟨s, rfl, rfl⟩

theorem Yields.update {f : σ → σ} (hf : ∀ s, p (f s) = p s) :
    Yields p (update f : Action ε σ Unit) () := fun s => ⟨f s, rfl, hf s⟩

theorem Yields.lift {x : Except ε α} {a : α} (h : x = .ok a) :
    Yields p (lift x : Action ε σ α) a := fun s => ⟨s, by rw [run_lift, h], rfl⟩

theorem Yields.bind {x : Action ε σ α} {f : α → Action ε σ β} {a : α} {b : β}
    (hx : Yields p x a) (hf : Yields p (f a) b) : Yields p (x >>= f) b := by
  intro s
  obtain ⟨s', hs', hp'⟩ := hx s
  obtain ⟨t, ht, hp⟩ := hf s'
  exact ⟨t, by rw [run_bind_of_ok hs', ht], hp.trans hp'⟩

/-- The answer does not depend on the state. -/
theorem Yields.unique {x : Action ε σ α} {a : α} (hx : Yields p x a) {s t : σ}
    {result : Except ε α} (h : run x s = (result, t)) : result = .ok a ∧ p t = p s := by
  obtain ⟨t', ht', hp⟩ := hx s
  rw [ht'] at h
  cases h
  exact ⟨rfl, hp⟩

end Keeps

section Fails

/-- `x` fails from every state. -/
def Fails (x : Action ε σ α) : Prop := ∀ s, ∃ e t, run x s = (.error e, t)

theorem Fails.fail (e : ε) : Fails (fail e : Action ε σ α) := fun s => ⟨e, s, rfl⟩

theorem Fails.bind {x : Action ε σ α} (hx : Fails x) (f : α → Action ε σ β) :
    Fails (x >>= f) := by
  intro s
  obtain ⟨e, t, h⟩ := hx s
  exact ⟨e, t, run_bind_of_error h⟩

/-- A sequence whose second part always fails never succeeds. -/
theorem Fails.bind_right (x : Action ε σ α) {f : α → Action ε σ β} (hf : ∀ a, Fails (f a)) :
    Fails (x >>= f) := by
  intro s
  rcases h : run x s with ⟨e | a, s'⟩
  · exact ⟨e, s', run_bind_of_error h⟩
  · obtain ⟨e, t, h'⟩ := hf a s'
    exact ⟨e, t, by rw [run_bind_of_ok h, h']⟩

end Fails

section Completes

/-- `x` succeeds from every state. -/
def Completes (x : Action ε σ α) : Prop := ∀ s, ∃ a t, run x s = (.ok a, t)

theorem Completes.pure (a : α) : Completes (pure a : Action ε σ α) := fun s => ⟨a, s, rfl⟩

theorem Completes.update (f : σ → σ) : Completes (update f : Action ε σ Unit) :=
  fun s => ⟨(), f s, rfl⟩

theorem Completes.bind {x : Action ε σ α} {f : α → Action ε σ β} (hx : Completes x)
    (hf : ∀ a, Completes (f a)) : Completes (x >>= f) := by
  intro s
  obtain ⟨a, s', h⟩ := hx s
  obtain ⟨b, t, h'⟩ := hf a s'
  exact ⟨b, t, by rw [run_bind_of_ok h, h']⟩

theorem Completes.ne_error {x : Action ε σ α} (hx : Completes x) {s t : σ} {e : ε} :
    run x s ≠ (.error e, t) := by
  obtain ⟨a, t', h⟩ := hx s
  rw [h]
  exact fun heq => nomatch heq

end Completes

section Logs

variable {ι : Type*} {log : σ → List ι} {good : ι → Prop}

/-- `x` only appends good entries to a log, and its answers satisfy `post`. -/
def Emits (log : σ → List ι) (good : ι → Prop) (x : Action ε σ α) (post : α → Prop) : Prop :=
  ∀ s, (∃ entries, log (run x s).2 = log s ++ entries ∧ ∀ entry ∈ entries, good entry) ∧
    ∀ a, (run x s).1 = .ok a → post a

theorem Emits.pure {a : α} {post : α → Prop} (h : post a) :
    Emits log good (pure a : Action ε σ α) post := by
  intro s
  refine ⟨⟨[], (List.append_nil _).symm, fun _ hmem => (nomatch hmem)⟩, fun a' ha' => ?_⟩
  cases ha'
  exact h

theorem Emits.fail {e : ε} {post : α → Prop} :
    Emits log good (fail e : Action ε σ α) post :=
  fun _ => ⟨⟨[], (List.append_nil _).symm, fun _ hmem => (nomatch hmem)⟩, fun _ ha => (nomatch ha)⟩

theorem Emits.lift {x : Except ε α} {post : α → Prop} (h : ∀ a, x = .ok a → post a) :
    Emits log good (lift x : Action ε σ α) post :=
  fun _ => ⟨⟨[], (List.append_nil _).symm, fun _ hmem => (nomatch hmem)⟩, h⟩

/-- Steps that keep the log emit nothing. -/
theorem Emits.of_keeps {x : Action ε σ α} (h : Keeps log x) :
    Emits log good x fun _ => True :=
  fun s => ⟨⟨[], by rw [h s, List.append_nil], fun _ hmem => (nomatch hmem)⟩, fun _ _ => trivial⟩

theorem Emits.update_append {f : σ → σ} {entry : ι} (hlog : ∀ s, log (f s) = log s ++ [entry])
    (hgood : good entry) : Emits log good (update f : Action ε σ Unit) fun _ => True :=
  fun s => ⟨⟨[entry], hlog s, fun _ hmem => by rwa [List.mem_singleton.mp hmem]⟩,
    fun _ _ => trivial⟩

theorem Emits.bind {x : Action ε σ α} {f : α → Action ε σ β} {mid : α → Prop} {post : β → Prop}
    (hx : Emits log good x mid) (hf : ∀ a, mid a → Emits log good (f a) post) :
    Emits log good (x >>= f) post := by
  intro s
  obtain ⟨⟨first, hlog, hfirst⟩, hmid⟩ := hx s
  rw [run_bind]
  rcases hrun : run x s with ⟨e | a, s'⟩
  · rw [hrun] at hlog
    exact ⟨⟨first, hlog, hfirst⟩, fun _ hb => (nomatch hb)⟩
  · rw [hrun] at hlog hmid
    obtain ⟨⟨second, hlog', hsecond⟩, hpost⟩ := hf a (hmid a rfl) s'
    refine ⟨⟨first ++ second, ?_, ?_⟩, hpost⟩
    · rw [← List.append_assoc, ← hlog]
      exact hlog'
    · intro entry hentry
      rcases List.mem_append.mp hentry with hmem | hmem
      · exact hfirst entry hmem
      · exact hsecond entry hmem

theorem Emits.zoom {τ : Type*} {outer : τ → List ι} {get : τ → σ} {set : τ → σ → τ}
    {x : Action ε σ α} {post : α → Prop} (hx : Emits log good x post)
    (hget : ∀ t, log (get t) = outer t) (hset : ∀ t s, outer (set t s) = log s) :
    Emits outer good (x.zoom get set) post := by
  intro t
  obtain ⟨⟨entries, hlog, hentries⟩, hpost⟩ := hx (get t)
  refine ⟨⟨entries, ?_, hentries⟩, hpost⟩
  rw [run_zoom, hset, hlog, hget]

/-- What a run of an emitting action adds to the log. -/
theorem Emits.of_run {x : Action ε σ α} {post : α → Prop} (hx : Emits log good x post) {s t : σ}
    {result : Except ε α} (h : run x s = (result, t)) :
    (∃ entries, log t = log s ++ entries ∧ ∀ entry ∈ entries, good entry) ∧
      ∀ a, result = .ok a → post a := by
  have hs := hx s
  rwa [h] at hs

theorem Emits.weaken {x : Action ε σ α} {post post' : α → Prop} (hx : Emits log good x post)
    (h : ∀ a, post a → post' a) : Emits log good x post' :=
  fun s => ⟨(hx s).1, fun a ha => h a ((hx s).2 a ha)⟩

end Logs

end Action

end Nvcr.StatefulResults
