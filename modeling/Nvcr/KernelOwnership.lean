import Nvcr.KernelThreads

/-!
# Threads with owned cells

Every cell has at most one owner. A thread that writes only its own cells and reads its own cells
and those that nobody owns does the same under every schedule as it does alone.
-/

namespace Nvcr.KernelThreads

variable {B : Type} {T : B → Type} [DecidableEq B]

section Ownership

variable (owner : B → ℕ → Option ℕ)

/-- The thread may read its own cells and the cells that nobody owns. -/
def Readable (t : ℕ) (b : B) (i : ℕ) : Prop := owner b i = none ∨ owner b i = some t

def Owns (t : ℕ) (b : B) (i : ℕ) : Prop := owner b i = some t

/-- The cells of a thread hold what they hold in the end. -/
def Settled (final : Memory T) (t : ℕ) (_ : Unit) (m : Memory T) : Prop :=
  ∀ b i, owner b i = some t → (m b)[i]? = (final b)[i]?

/-- What holds of a configuration whatever turns were made: no thread can do wrong any more, each
has had the turns counted, and cells without an owner among the threads are as at the start. -/
structure OnTrack (threads : List (Thread T Unit)) (memory final : Memory T) (made : ℕ → ℕ)
    (c : Config T) : Prop where
  count : c.threads.length = threads.length
  length : ∀ b, (c.memory b).length = (memory b).length
  kept : ∀ b i, (∀ t < threads.length, owner b i ≠ some t) → (c.memory b)[i]? = (memory b)[i]?
  runs : ∀ t (p : Thread T Unit), c.threads[t]? = some p →
    p.Runs (Readable owner t) (Owns owner t) (Settled owner final t) c.memory
  left : ∀ t (p q : Thread T Unit), c.threads[t]? = some p → threads[t]? = some q →
    p.turns c.memory = q.turns memory - made t

end Ownership

variable {owner : B → ℕ → Option ℕ} {threads : List (Thread T Unit)} {memory final : Memory T}
  {made : ℕ → ℕ} {c : Config T}

omit [DecidableEq B] in
theorem Settled.congr {t : ℕ} (u : Unit) (m m' : Memory T)
    (hview : Thread.SameView (Readable owner t) m m') (h : Settled owner final t u m) :
    Settled owner final t u m' := by
  intro b i howner
  rw [← hview.cell b i (Or.inr howner), h b i howner]

/-- The other threads do not see a thread's own cells. -/
theorem sameView_of_owns {t u : ℕ} (hne : t ≠ u) {b : B} {i : ℕ} (h : Owns owner t b i)
    (m : Memory T) (x : T b) :
    Thread.SameView (Readable owner u) m (storeCell m b i x) := by
  apply Thread.SameView.of_storeCell
  rintro (hnone | hsome)
  · rw [Owns, hnone] at h
    cases h
  · rw [Owns, hsome] at h
    exact hne (Option.some.inj h).symm

theorem OnTrack.start
    (hruns : ∀ t (p : Thread T Unit), threads[t]? = some p →
      p.Runs (Readable owner t) (Owns owner t) (Settled owner final t) memory) :
    OnTrack owner threads memory final (fun _ => 0) ⟨memory, threads⟩ where
  count := rfl
  length _ := rfl
  kept _ _ _ := rfl
  runs := hruns
  left t p q hp hq := by
    have hpq : p = q := Option.some.inj (hp.symm.trans hq)
    rw [hpq, Nat.sub_zero]

/-- One turn. -/
theorem OnTrack.step (h : OnTrack owner threads memory final made c) (t : ℕ) :
    ∃ c', KernelThreads.step c t = some c' ∧
      OnTrack owner threads memory final (Function.update made t (made t + 1)) c' := by
  cases hp : c.threads[t]? with
  | none =>
      refine ⟨c, by simp [KernelThreads.step, hp], { h with left := ?_ }⟩
      intro u p q hu hq
      have hut : u ≠ t := by
        rintro rfl
        rw [hp] at hu
        cases hu
      rw [Function.update_of_ne hut]
      exact h.left u p q hu hq
  | some p =>
      have hp' := h.runs t p hp
      obtain ⟨p', m', hstep, hruns, hturns, hmem⟩ := hp'.step
      have ht : t < c.threads.length := (List.getElem?_eq_some_iff.mp hp).1
      refine ⟨⟨m', c.threads.set t p'⟩, by simp [KernelThreads.step, hp, hstep], ?_⟩
      -- the other threads keep their view of the memory
      have hview : ∀ u, u ≠ t → Thread.SameView (Readable owner u) c.memory m' := by
        intro u hut
        rcases hmem with rfl | ⟨b, i, x, howns, -, rfl⟩
        · exact ⟨fun _ => rfl, fun _ _ _ => rfl⟩
        · exact sameView_of_owns (Ne.symm hut) howns c.memory x
      refine ⟨by simpa using h.count, fun b => ?_, fun b i hfree => ?_, fun u q hq => ?_,
        fun u q r hq hr => ?_⟩
      · rcases hmem with rfl | ⟨b', i, x, -, -, rfl⟩
        · exact h.length b
        · simpa using h.length b
      · rcases hmem with rfl | ⟨b', i', x, howns, -, rfl⟩
        · exact h.kept b i hfree
        · rw [storeCell_of_ne]
          · exact h.kept b i hfree
          · rintro rfl rfl
            exact hfree t (h.count ▸ ht) howns
      · by_cases hut : u = t
        · subst hut
          have hq' : q = p' := by simpa [ht] using hq.symm
          exact hq' ▸ hruns
        · have hq' : c.threads[u]? = some q := by
            rw [← hq, List.getElem?_set_ne (Ne.symm hut)]
          exact (h.runs u q hq').congr Settled.congr (hview u hut)
      · by_cases hut : u = t
        · subst hut
          have hq' : q = p' := by simpa [ht] using hq.symm
          rw [hq', hturns, h.left u p r hp hr, Function.update_self, Nat.sub_sub]
        · have hq' : c.threads[u]? = some q := by
            rw [← hq, List.getElem?_set_ne (Ne.symm hut)]
          rw [Function.update_of_ne hut, (h.runs u q hq').turns_congr (hview u hut)]
          exact h.left u q r hq' hr

/-- A whole schedule. -/
theorem OnTrack.run (schedule : List ℕ) (h : OnTrack owner threads memory final made c) :
    ∃ c', KernelThreads.run c schedule = some c' ∧
      OnTrack owner threads memory final (fun t => made t + schedule.count t) c' := by
  induction schedule generalizing c made with
  | nil => exact ⟨c, rfl, by simpa using h⟩
  | cons t rest ih =>
      obtain ⟨c₁, hstep, h₁⟩ := h.step t
      obtain ⟨c₂, hrun, h₂⟩ := ih h₁
      refine ⟨c₂, by simp [KernelThreads.run, hstep] at hrun ⊢; exact hrun, ?_⟩
      convert h₂ using 1
      funext u
      by_cases hut : u = t
      · subst hut
        rw [Function.update_self, List.count_cons_self]
        omega
      · rw [Function.update_of_ne hut, List.count_cons_of_ne (Ne.symm hut)]

theorem OnTrack.not_races (h : OnTrack owner threads memory final made c) : ¬ Races c := by
  rintro ⟨t, u, p, q, b, i, hne, hp, hq, hstores, htouches⟩
  have howns : owner b i = some t := (h.runs t p hp).writable_of_stores hstores
  rcases (h.runs u q hq).readable_of_touches (fun b i => Or.inr) htouches with hnone | hsome
  · rw [hnone] at howns
    cases howns
  · rw [hsome] at howns
    exact hne (Option.some.inj howns).symm

theorem OnTrack.finished (h : OnTrack owner threads memory final made c)
    (hmade : ∀ t (q : Thread T Unit), threads[t]? = some q → q.turns memory ≤ made t)
    (hkept : ∀ b i, (∀ t < threads.length, owner b i ≠ some t) →
      (final b)[i]? = (memory b)[i]?) :
    Finished c ∧ c.memory = final := by
  have hdone : ∀ t p, c.threads[t]? = some p →
      p = .pure () ∧ Settled owner final t () c.memory := by
    intro t p hp
    have ht : t < threads.length := h.count ▸ (List.getElem?_eq_some_iff.mp hp).1
    have hq : threads[t]? = some threads[t] := List.getElem?_eq_getElem ht
    obtain ⟨_, rfl, hpost⟩ := (h.runs t p hp).post_of_turns_eq_zero (by
      rw [h.left t p _ hp hq]
      exact Nat.sub_eq_zero_of_le (hmade t _ hq))
    exact ⟨rfl, hpost⟩
  refine ⟨fun p hp => ?_, ?_⟩
  · obtain ⟨t, ht, rfl⟩ := List.getElem_of_mem hp
    exact (hdone t _ (List.getElem?_eq_getElem ht)).1
  · funext b
    apply List.ext_getElem?
    intro i
    by_cases hfree : ∀ t < threads.length, owner b i ≠ some t
    · rw [h.kept b i hfree, hkept b i hfree]
    · push Not at hfree
      obtain ⟨t, ht, howner⟩ := hfree
      have ht' : t < c.threads.length := h.count.symm ▸ ht
      exact (hdone t _ (List.getElem?_eq_getElem ht')).2 b i howner

/-- Threads with owned cells leave the memory that each of them settles alone. -/
theorem leaves_of_owner (owner : B → ℕ → Option ℕ)
    (hkept : ∀ b i, (∀ t < threads.length, owner b i ≠ some t) →
      (final b)[i]? = (memory b)[i]?)
    (hruns : ∀ t (p : Thread T Unit), threads[t]? = some p →
      p.Runs (Readable owner t) (Owns owner t) (Settled owner final t) memory) :
    Leaves threads memory final where
  safe schedule := by
    obtain ⟨c, hrun, h⟩ := (OnTrack.start hruns).run schedule
    exact ⟨c, hrun, h.not_races⟩
  ends := by
    refine ⟨(threads.map fun q => q.turns memory).sum, fun schedule hturns => ?_⟩
    obtain ⟨c, hrun, h⟩ := (OnTrack.start hruns).run schedule
    refine ⟨c, hrun, h.finished (fun t q hq => ?_) hkept⟩
    have hmem : q.turns memory ∈ threads.map fun q => q.turns memory :=
      List.mem_map_of_mem (List.mem_of_getElem? hq)
    have ht : t < threads.length := (List.getElem?_eq_some_iff.mp hq).1
    rw [Nat.zero_add]
    exact (List.le_sum_of_mem hmem).trans (hturns t ht)

/-- Cells laid out in planes: in each buffer thread `t` has the cell `t` of every plane. -/
def planeOwner (base planes : B → ℕ) (count : ℕ) (b : B) (i : ℕ) : Option ℕ :=
  if base b ≤ i ∧ i < base b + planes b * count then some ((i - base b) % count) else none

section Planes

variable {base planes : B → ℕ} {count : ℕ}

theorem plane_lt {planes count plane t : ℕ} (hplane : plane < planes) (ht : t < count) :
    plane * count + t < planes * count := by
  calc plane * count + t < plane * count + count := by omega
    _ = (plane + 1) * count := by ring
    _ ≤ planes * count := Nat.mul_le_mul_right count hplane

omit [DecidableEq B] in
theorem planeOwner_cell {b : B} {plane t : ℕ} (hplane : plane < planes b) (ht : t < count) :
    planeOwner base planes count b (base b + (plane * count + t)) = some t := by
  have hbound := plane_lt hplane ht
  have hmod : (base b + (plane * count + t) - base b) % count = t := by
    rw [Nat.add_sub_cancel_left, Nat.mul_comm, Nat.mul_add_mod, Nat.mod_eq_of_lt ht]
  rw [planeOwner, if_pos ⟨by omega, by omega⟩, hmod]

omit [DecidableEq B] in
theorem planeOwner_eq_some {b : B} {i t : ℕ} (h : planeOwner base planes count b i = some t) :
    t < count ∧ ∃ plane < planes b, i = base b + (plane * count + t) := by
  rw [planeOwner] at h
  split at h
  case isTrue hi =>
    obtain ⟨hbase, hbound⟩ := hi
    have hcount : 0 < count := by
      by_contra hzero
      obtain rfl : count = 0 := by omega
      omega
    have ht : (i - base b) % count = t := Option.some.inj h
    refine ⟨ht ▸ Nat.mod_lt _ hcount, (i - base b) / count,
      (Nat.div_lt_iff_lt_mul hcount).mpr (by omega), ?_⟩
    rw [← ht, Nat.div_add_mod']
    omega
  case isFalse => cases h

/-- A grid that covers the planes, and in which every thread settles its own cells, leaves the
planes settled and the other cells as they were. -/
theorem leaves_of_planes (base planes : B → ℕ) {kernel : ℕ → Thread T Unit} {n : ℕ} (hn : count ≤ n)
    (hidle : ∀ t, count ≤ t → kernel t = .pure ())
    (hkept : ∀ b i, i < base b ∨ base b + planes b * count ≤ i →
      (final b)[i]? = (memory b)[i]?)
    (hruns : ∀ t < count, (kernel t).Runs (Readable (planeOwner base planes count) t)
      (Owns (planeOwner base planes count) t)
      (fun _ m => ∀ b plane, plane < planes b →
        (m b)[base b + (plane * count + t)]? = (final b)[base b + (plane * count + t)]?) memory) :
    Leaves ((List.range n).map kernel) memory final := by
  apply leaves_of_owner (planeOwner base planes count)
  · intro b i hfree
    apply hkept
    by_contra hin
    push Not at hin
    have hsome : planeOwner base planes count b i = some ((i - base b) % count) := by
      rw [planeOwner, if_pos ⟨hin.1, hin.2⟩]
    obtain ⟨ht, -⟩ := planeOwner_eq_some hsome
    exact hfree _ (by simpa using ht.trans_le hn) hsome
  · intro t p hp
    obtain ⟨ht, rfl⟩ : t < n ∧ kernel t = p := by
      have hlt : t < n := by simpa using (List.getElem?_eq_some_iff.mp hp).1
      exact ⟨hlt, by simpa [hlt] using hp⟩
    by_cases htc : t < count
    · apply (hruns t htc).mono
      intro _ m hm b i howner
      obtain ⟨-, plane, hplane, rfl⟩ := planeOwner_eq_some howner
      exact hm b plane hplane
    · rw [hidle t (by omega)]
      intro b i howner
      exact absurd (planeOwner_eq_some howner).1 htc

end Planes

/-- The memory after the front of a buffer is replaced. -/
def fill (m : Memory T) (b : B) (new : List (T b)) : Memory T :=
  Function.update m b (new ++ (m b).drop new.length)

theorem fill_self (m : Memory T) (b : B) (new : List (T b)) :
    fill m b new b = new ++ (m b).drop new.length :=
  Function.update_self _ _ _

theorem fill_of_ne (m : Memory T) {b c : B} (new : List (T b)) (h : c ≠ b) :
    fill m b new c = m c :=
  Function.update_of_ne h _ _

theorem fill_length {m : Memory T} {b : B} {new : List (T b)} (h : new.length ≤ (m b).length)
    (c : B) : (fill m b new c).length = (m c).length := by
  by_cases hc : c = b
  · subst hc
    simp [fill, h]
  · rw [fill_of_ne m new hc]

theorem fill_cell (m : Memory T) {b : B} {new : List (T b)} {i : ℕ} (h : i < new.length) :
    (fill m b new b)[i]? = new[i]? := by
  simp [fill, List.getElem?_append_left h]

theorem fill_rest (m : Memory T) {b : B} {new : List (T b)} {i : ℕ} (h : new.length ≤ i) :
    (fill m b new b)[i]? = (m b)[i]? := by
  rw [fill, Function.update_self, List.getElem?_append_right h, List.getElem?_drop]
  congr 1
  omega

/-- A longer front changes only the cells it adds. -/
theorem fill_append_kept (m : Memory T) {b : B} {front rest : List (T b)} {i : ℕ}
    (h : i < front.length ∨ front.length + rest.length ≤ i) :
    (fill m b (front ++ rest) b)[i]? = (fill m b front b)[i]? := by
  rcases h with h | h
  · rw [fill_cell m h, fill_cell m (by rw [List.length_append]; omega),
      List.getElem?_append_left h]
  · rw [fill_rest m (by rw [List.length_append]; omega), fill_rest m (by omega)]

/-- What follows the front may be given with it. -/
theorem fill_append_drop (m : Memory T) (b : B) (front : List (T b)) {n : ℕ}
    (h : front.length = n) : fill m b (front ++ (m b).drop n) = fill m b front := by
  subst h
  have hrest : (m b).drop (front ++ (m b).drop front.length).length = [] := by
    apply List.drop_eq_nil_of_le
    rw [List.length_append, List.length_drop]
    omega
  rw [fill, hrest, List.append_nil, fill]

end Nvcr.KernelThreads
