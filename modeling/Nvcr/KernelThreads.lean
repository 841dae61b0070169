import Mathlib.Data.List.Basic
import Mathlib.Logic.Function.Basic
import Mathlib.Tactic

/-!
# Threads over a shared memory

A thread is a program of loads and stores on typed buffers. The threads of a grid run together:
a schedule names the thread that makes the next access, and an access out of bounds fails.
-/

namespace Nvcr.KernelThreads

/-- The contents of every buffer. -/
abbrev Memory {B : Type} (T : B → Type) := (b : B) → List (T b)

inductive Thread {B : Type} (T : B → Type) (α : Type) where
  | pure (a : α)
  | load (b : B) (i : ℕ) (next : T b → Thread T α)
  | store (b : B) (i : ℕ) (x : T b) (next : Thread T α)

variable {B : Type} {T : B → Type} {α β : Type}

namespace Thread

def bind : Thread T α → (α → Thread T β) → Thread T β
  | .pure a, k => k a
  | .load b i next, k => .load b i fun x => (next x).bind k
  | .store b i x next, k => .store b i x (next.bind k)

instance : Monad (Thread T) where
  pure := Thread.pure
  bind := Thread.bind

def read (b : B) (i : ℕ) : Thread T (T b) := .load b i .pure

def write (b : B) (i : ℕ) (x : T b) : Thread T Unit := .store b i x (.pure ())

/-- The next access is to the cell. -/
def Touches (b : B) (i : ℕ) : Thread T α → Prop
  | .pure _ => False
  | .load b' i' _ => b' = b ∧ i' = i
  | .store b' i' _ _ => b' = b ∧ i' = i

/-- The next access replaces the cell. -/
def Stores (b : B) (i : ℕ) : Thread T α → Prop
  | .pure _ => False
  | .load _ _ _ => False
  | .store b' i' _ _ => b' = b ∧ i' = i

end Thread

variable [DecidableEq B]

/-- The memory after one cell of a buffer is replaced. -/
def storeCell (m : Memory T) (b : B) (i : ℕ) (x : T b) : Memory T :=
  Function.update m b ((m b).set i x)

@[simp] theorem storeCell_length (m : Memory T) (b c : B) (i : ℕ) (x : T b) :
    (storeCell m b i x c).length = (m c).length := by
  by_cases h : c = b
  · subst h
    simp [storeCell]
  · simp [storeCell, h]

theorem storeCell_self {m : Memory T} {b : B} {i : ℕ} (x : T b) (h : i < (m b).length) :
    (storeCell m b i x b)[i]? = some x := by
  simp [storeCell, h]

theorem storeCell_of_ne {b c : B} {i j : ℕ} (m : Memory T) (x : T b) (h : c = b → j ≠ i) :
    (storeCell m b i x c)[j]? = (m c)[j]? := by
  by_cases hc : c = b
  · subst hc
    simp [storeCell, List.getElem?_set_ne (h rfl).symm]
  · simp [storeCell, hc]

theorem storeCell_other {b c : B} (m : Memory T) (i : ℕ) (x : T b) (h : c ≠ b) :
    storeCell m b i x c = m c :=
  Function.update_of_ne h _ _

namespace Thread

/-- One access; a finished thread idles. -/
def step : Thread T α → Memory T → Option (Thread T α × Memory T)
  | .pure a, m => some (.pure a, m)
  | .load b i next, m => (m b)[i]?.map fun x => (next x, m)
  | .store b i x next, m => if i < (m b).length then some (next, storeCell m b i x) else none

/-- The number of accesses the thread makes when it runs alone. -/
def turns : Thread T α → Memory T → ℕ
  | .pure _, _ => 0
  | .load b i next, m => (m b)[i]?.elim 0 fun x => (next x).turns m + 1
  | .store b i x next, m => next.turns (storeCell m b i x) + 1

/-- Alone on a memory, the thread reads readable cells and writes writable cells, all of them in
bounds, and ends with a result and a memory as required. -/
def Runs (readable writable : B → ℕ → Prop) (post : α → Memory T → Prop) :
    Thread T α → Memory T → Prop
  | .pure a, m => post a m
  | .load b i next, m =>
      readable b i ∧ ∃ x, (m b)[i]? = some x ∧ (next x).Runs readable writable post m
  | .store b i x next, m =>
      writable b i ∧ i < (m b).length ∧ next.Runs readable writable post (storeCell m b i x)

variable {readable writable : B → ℕ → Prop} {post : α → Memory T → Prop} {m m' : Memory T}

theorem runs_pure (a : α) (h : post a m) :
    (Pure.pure a : Thread T α).Runs readable writable post m := h

theorem runs_bind {p : Thread T α} {k : α → Thread T β} {post : β → Memory T → Prop}
    (h : p.Runs readable writable (fun a m => (k a).Runs readable writable post m) m) :
    (p >>= k).Runs readable writable post m := by
  change (p.bind k).Runs readable writable post m
  induction p generalizing m with
  | pure a => exact h
  | load b i next ih =>
      obtain ⟨hread, x, hx, hnext⟩ := h
      exact ⟨hread, x, hx, ih x hnext⟩
  | store b i x next ih =>
      obtain ⟨hwrite, hi, hnext⟩ := h
      exact ⟨hwrite, hi, ih hnext⟩

theorem runs_read {b : B} {i : ℕ} {post : T b → Memory T → Prop} {x : T b}
    (hread : readable b i) (hx : (m b)[i]? = some x) (h : post x m) :
    (read b i).Runs readable writable post m :=
  ⟨hread, x, hx, h⟩

theorem runs_write {b : B} {i : ℕ} {x : T b} {post : Unit → Memory T → Prop}
    (hwrite : writable b i) (hi : i < (m b).length) (h : post () (storeCell m b i x)) :
    (write b i x).Runs readable writable post m :=
  ⟨hwrite, hi, h⟩

theorem Runs.mono {post' : α → Memory T → Prop} {p : Thread T α}
    (h : p.Runs readable writable post m) (himp : ∀ a m, post a m → post' a m) :
    p.Runs readable writable post' m := by
  induction p generalizing m with
  | pure a => exact himp a m h
  | load b i next ih =>
      obtain ⟨hread, x, hx, hnext⟩ := h
      exact ⟨hread, x, hx, ih x hnext⟩
  | store b i x next ih =>
      obtain ⟨hwrite, hi, hnext⟩ := h
      exact ⟨hwrite, hi, ih hnext⟩

/-- A loop that computes a value and stores nothing. -/
theorem runs_foldlM {σ ι : Type} (body : σ → ι → Thread T σ) (value : σ → ι → σ) (xs : List ι)
    (init : σ)
    (h : ∀ s, ∀ x ∈ xs, (body s x).Runs readable writable (fun s' m' => s' = value s x ∧ m' = m) m) :
    (xs.foldlM body init).Runs readable writable
      (fun s m' => s = xs.foldl value init ∧ m' = m) m := by
  induction xs generalizing init with
  | nil => exact runs_pure _ ⟨rfl, rfl⟩
  | cons x xs ih =>
      rw [List.foldlM_cons]
      apply runs_bind
      apply (h init x (by simp)).mono
      rintro s' m' ⟨rfl, rfl⟩
      exact ih _ fun s y hy => h s y (by simp [hy])

theorem runs_forM_range' {body : ℕ → Thread T Unit} {inv : ℕ → Memory T → Prop}
    {done : Unit → Memory T → Prop} {n : ℕ}
    (hbody : ∀ k < n, ∀ m, inv k m →
      (body k).Runs readable writable (fun _ m' => inv (k + 1) m') m)
    (hdone : ∀ m, inv n m → done () m) {s j : ℕ} (hs : s + j = n) (h : inv s m) :
    ((List.range' s j).forM body).Runs readable writable done m := by
  induction j generalizing s m with
  | zero =>
      obtain rfl : s = n := hs
      exact runs_pure _ (hdone m h)
  | succ j ih =>
      rw [List.range'_succ]
      change (body s >>= fun _ => (List.range' (s + 1) j).forM body).Runs readable writable done m
      apply runs_bind
      apply (hbody s (by omega) m h).mono
      intro _ m' hm'
      exact ih (by omega) hm'

/-- A loop that keeps an invariant of its counter. -/
theorem runs_forM {body : ℕ → Thread T Unit} (inv : ℕ → Memory T → Prop)
    {done : Unit → Memory T → Prop} {n : ℕ} (h : inv 0 m)
    (hbody : ∀ k < n, ∀ m, inv k m →
      (body k).Runs readable writable (fun _ m' => inv (k + 1) m') m)
    (hdone : ∀ m, inv n m → done () m) :
    ((List.range n).forM body).Runs readable writable done m := by
  rw [List.range_eq_range']
  exact runs_forM_range' hbody hdone (Nat.zero_add n) h

/-- Two memories that a thread cannot tell apart. -/
structure SameView (readable : B → ℕ → Prop) (m m' : Memory T) : Prop where
  length : ∀ b, (m b).length = (m' b).length
  cell : ∀ b i, readable b i → (m b)[i]? = (m' b)[i]?

theorem SameView.storeCell (h : SameView readable m m') (b : B) (i : ℕ) (x : T b) :
    SameView readable (storeCell m b i x) (storeCell m' b i x) := by
  refine ⟨fun c => by simpa using h.length c, fun c j hr => ?_⟩
  by_cases hcell : c = b ∧ j = i
  · obtain ⟨rfl, rfl⟩ := hcell
    by_cases hj : j < (m c).length
    · rw [storeCell_self x hj, storeCell_self x (h.length c ▸ hj)]
    · rw [List.getElem?_eq_none (by simpa using hj),
        List.getElem?_eq_none (by simpa [← h.length c] using hj)]
  · have hne : c = b → j ≠ i := fun hc hj => hcell ⟨hc, hj⟩
    rw [storeCell_of_ne m x hne, storeCell_of_ne m' x hne]
    exact h.cell c j hr

/-- A cell that is not readable may change. -/
theorem SameView.of_storeCell {b : B} {i : ℕ} (x : T b) (h : ¬ readable b i) :
    SameView readable m (KernelThreads.storeCell m b i x) := by
  refine ⟨fun c => by simp, fun c j hr => ?_⟩
  rw [storeCell_of_ne m x]
  rintro rfl rfl
  exact h hr

/-- What a thread does depends on what it can read. -/
theorem Runs.congr {p : Thread T α} (h : p.Runs readable writable post m)
    (hpost : ∀ a m m', SameView readable m m' → post a m → post a m')
    (hview : SameView readable m m') : p.Runs readable writable post m' := by
  induction p generalizing m m' with
  | pure a => exact hpost a m m' hview h
  | load b i next ih =>
      obtain ⟨hread, x, hx, hnext⟩ := h
      exact ⟨hread, x, by rw [← hview.cell b i hread, hx], ih x hnext hview⟩
  | store b i x next ih =>
      obtain ⟨hwrite, hi, hnext⟩ := h
      exact ⟨hwrite, hview.length b ▸ hi, ih hnext (hview.storeCell b i x)⟩

theorem Runs.turns_congr {p : Thread T α} (h : p.Runs readable writable post m)
    (hview : SameView readable m m') : p.turns m' = p.turns m := by
  induction p generalizing m m' with
  | pure a => rfl
  | load b i next ih =>
      obtain ⟨hread, x, hx, hnext⟩ := h
      simp only [turns, ← hview.cell b i hread, hx, Option.elim_some]
      rw [ih x hnext hview]
  | store b i x next ih =>
      obtain ⟨-, -, hnext⟩ := h
      simp only [turns]
      rw [ih hnext (hview.storeCell b i x)]

/-- One access of a thread that runs as required: it succeeds, changes at most a cell the thread
may write, and leaves a thread that runs as required with one access less. -/
theorem Runs.step {p : Thread T α} (h : p.Runs readable writable post m) :
    ∃ p' m', p.step m = some (p', m') ∧ p'.Runs readable writable post m' ∧
      p'.turns m' = p.turns m - 1 ∧
      (m' = m ∨ ∃ b i x, writable b i ∧ i < (m b).length ∧ m' = storeCell m b i x) := by
  cases p with
  | pure a => exact ⟨.pure a, m, rfl, h, rfl, Or.inl rfl⟩
  | load b i next =>
      obtain ⟨-, x, hx, hnext⟩ := h
      exact ⟨next x, m, by simp [Thread.step, hx], hnext, by simp [turns, hx], Or.inl rfl⟩
  | store b i x next =>
      obtain ⟨hwrite, hi, hnext⟩ := h
      exact ⟨next, storeCell m b i x, by simp [Thread.step, hi], hnext, by simp [turns],
        Or.inr ⟨b, i, x, hwrite, hi, rfl⟩⟩

theorem Runs.readable_of_touches {p : Thread T α} {b : B} {i : ℕ}
    (hsub : ∀ b i, writable b i → readable b i) (h : p.Runs readable writable post m)
    (ht : p.Touches b i) : readable b i := by
  cases p with
  | pure a => exact ht.elim
  | load b' i' next =>
      obtain ⟨rfl, rfl⟩ := ht
      exact h.1
  | store b' i' x next =>
      obtain ⟨rfl, rfl⟩ := ht
      exact hsub b' i' h.1

theorem Runs.writable_of_stores {p : Thread T α} {b : B} {i : ℕ}
    (h : p.Runs readable writable post m) (hs : p.Stores b i) : writable b i := by
  cases p with
  | pure a => exact hs.elim
  | load b' i' next => exact hs.elim
  | store b' i' x next =>
      obtain ⟨rfl, rfl⟩ := hs
      exact h.1

theorem Runs.post_of_turns_eq_zero {p : Thread T α} (h : p.Runs readable writable post m)
    (hturns : p.turns m = 0) : ∃ a, p = .pure a ∧ post a m := by
  cases p with
  | pure a => exact ⟨a, rfl, h⟩
  | load b i next =>
      obtain ⟨-, x, hx, -⟩ := h
      simp [turns, hx] at hturns
  | store b i x next => simp [turns] at hturns

end Thread

/-- The threads of a grid and the memory they share. -/
structure Config (T : B → Type) where
  memory : Memory T
  threads : List (Thread T Unit)

/-- A turn of one thread; a number that names no thread is passed over. -/
def step (c : Config T) (t : ℕ) : Option (Config T) :=
  c.threads[t]?.elim (some c) fun thread =>
    (thread.step c.memory).map fun next => ⟨next.2, c.threads.set t next.1⟩

def run (c : Config T) (schedule : List ℕ) : Option (Config T) := schedule.foldlM step c

/-- Two threads are about to access one cell, and one of them stores. -/
def Races (c : Config T) : Prop :=
  ∃ (t u : ℕ) (p q : Thread T Unit) (b : B) (i : ℕ), t ≠ u ∧ c.threads[t]? = some p ∧
    c.threads[u]? = some q ∧ p.Stores b i ∧ q.Touches b i

def Finished (c : Config T) : Prop := ∀ p ∈ c.threads, p = .pure ()

/-- No schedule of the threads fails or meets a race, and every schedule that gives each thread
enough turns ends with the same memory. -/
structure Leaves (threads : List (Thread T Unit)) (memory final : Memory T) : Prop where
  safe : ∀ schedule, ∃ c, run ⟨memory, threads⟩ schedule = some c ∧ ¬ Races c
  ends : ∃ turns, ∀ schedule, (∀ t < threads.length, turns ≤ schedule.count t) →
    ∃ c, run ⟨memory, threads⟩ schedule = some c ∧ Finished c ∧ c.memory = final

theorem Thread.step_length {p p' : Thread T α} {m m' : Memory T} (h : p.step m = some (p', m'))
    (b : B) : (m' b).length = (m b).length := by
  cases p with
  | pure a =>
      obtain ⟨-, rfl⟩ := Prod.mk.inj (Option.some.inj h)
      rfl
  | load c i next =>
      obtain ⟨x, -, hx⟩ := Option.map_eq_some_iff.mp h
      obtain ⟨-, rfl⟩ := Prod.mk.inj hx
      rfl
  | store c i x next =>
      rw [Thread.step] at h
      split at h
      · obtain ⟨-, rfl⟩ := Prod.mk.inj (Option.some.inj h)
        exact storeCell_length m c b i x
      · cases h

theorem step_length {c c' : Config T} {t : ℕ} (h : step c t = some c') (b : B) :
    (c'.memory b).length = (c.memory b).length := by
  rw [step] at h
  cases hp : c.threads[t]? with
  | none =>
      rw [hp] at h
      rw [Option.some.inj h]
  | some p =>
      rw [hp] at h
      obtain ⟨next, hnext, rfl⟩ := Option.map_eq_some_iff.mp h
      exact Thread.step_length hnext b

theorem run_length {c c' : Config T} {schedule : List ℕ} (h : run c schedule = some c') (b : B) :
    (c'.memory b).length = (c.memory b).length := by
  induction schedule generalizing c with
  | nil => rw [← Option.some.inj h]
  | cons t rest ih =>
      obtain ⟨c₁, hstep, hrest⟩ := Option.bind_eq_some_iff.mp h
      rw [ih hrest, step_length hstep]

/-- No grid changes the size of a buffer. -/
theorem Leaves.length {threads : List (Thread T Unit)} {memory final : Memory T}
    (h : Leaves threads memory final) (b : B) : (final b).length = (memory b).length := by
  obtain ⟨turns, hturns⟩ := h.ends
  let schedule := (List.range threads.length).flatMap fun t => List.replicate turns t
  have hcount : ∀ t < threads.length, turns ≤ schedule.count t := by
    intro t ht
    have hsub : (List.replicate turns t).Sublist schedule :=
      List.sublist_flatten_of_mem (List.mem_map_of_mem (List.mem_range.mpr ht))
    calc turns = (List.replicate turns t).count t := by simp
      _ ≤ schedule.count t := hsub.count_le t
  obtain ⟨c, hrun, -, rfl⟩ := hturns schedule hcount
  exact run_length hrun b

/-- Grids that run one after another. -/
inductive LeavesInOrder : List (List (Thread T Unit)) → Memory T → Memory T → Prop where
  | nil (memory : Memory T) : LeavesInOrder [] memory memory
  | cons {grid rest memory between final} (h : Leaves grid memory between)
      (hrest : LeavesInOrder rest between final) : LeavesInOrder (grid :: rest) memory final

theorem LeavesInOrder.length {grids : List (List (Thread T Unit))} {memory final : Memory T}
    (h : LeavesInOrder grids memory final) (b : B) : (final b).length = (memory b).length := by
  induction h with
  | nil memory => rfl
  | cons h _ ih => rw [ih, h.length]

theorem LeavesInOrder.append {grids rest : List (List (Thread T Unit))}
    {memory between final : Memory T} (h : LeavesInOrder grids memory between)
    (hrest : LeavesInOrder rest between final) : LeavesInOrder (grids ++ rest) memory final := by
  induction h with
  | nil memory => exact hrest
  | cons h _ ih => exact LeavesInOrder.cons h (ih hrest)

end Nvcr.KernelThreads
