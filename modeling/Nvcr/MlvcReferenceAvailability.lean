import Nvcr.MlvcSequence
import Nvcr.TransitionRuns

/-!
# Every reference an MLVC plan names is in the store

The store keeps one short-term and three long-term entries. Frames are saved under increasing
coded indices, so the last saved frame and the latest long-term one are never pruned.
-/

namespace Nvcr.Mlvc

open TransitionRuns

namespace ReferenceStore

variable {Feature : Type*} {entries : List (ℕ × Entry Feature)}

/-- Removing the elements of a prefix from a duplicate-free list leaves the rest. -/
theorem filter_not_mem_append {α : Type*} [DecidableEq α] {as bs : List α}
    (h : (as ++ bs).Nodup) : (as ++ bs).filter (fun x => x ∉ as) = bs := by
  have hdisjoint := List.disjoint_of_nodup_append h
  rw [List.filter_append, List.filter_eq_nil_iff.mpr (by simp), List.nil_append,
    List.filter_eq_self]
  intro x hx
  simpa using fun hmem => hdisjoint hmem hx

theorem matching_sorted (longTerm : Bool) (hs : (entries.map Prod.fst).Pairwise (· < ·)) :
    (matching longTerm entries).Pairwise (· < ·) :=
  hs.sublist (List.filter_sublist.map _)

theorem mem_matching {longTerm : Bool} {k : ℕ} :
    k ∈ matching longTerm entries ↔ ∃ e, (k, e) ∈ entries ∧ e.longTerm = longTerm := by
  simp [matching]

/-- An ordered map has one entry for each index. -/
theorem entry_unique (hs : (entries.map Prod.fst).Pairwise (· < ·)) {k : ℕ} {e e' : Entry Feature}
    (h : (k, e) ∈ entries) (h' : (k, e') ∈ entries) : e = e' := by
  have hnodup : (entries.map Prod.fst).Nodup := hs.imp fun h => h.ne
  have heq := List.inj_on_of_nodup_map hnodup h h' rfl
  exact congrArg Prod.snd heq

theorem mem_pruneEntries_of_other (hs : (entries.map Prod.fst).Pairwise (· < ·)) {longTerm : Bool}
    (capacity : ℕ) {k : ℕ} {e : Entry Feature} (h : (k, e) ∈ entries)
    (hother : e.longTerm ≠ longTerm) : (k, e) ∈ pruneEntries longTerm capacity entries := by
  simp only [pruneEntries]
  split
  · exact h
  · rw [List.mem_filter]
    refine ⟨h, ?_⟩
    have hk : k ∉ matching longTerm entries := by
      rintro hk
      obtain ⟨e', he', hlong⟩ := mem_matching.mp hk
      exact hother (entry_unique hs h he' ▸ hlong)
    simpa using fun hmem => hk (List.mem_of_mem_take hmem)

/-- The newest entry of a kind is not pruned. -/
theorem mem_pruneEntries_of_newest (hs : (entries.map Prod.fst).Pairwise (· < ·))
    {longTerm : Bool} {capacity : ℕ} (hc : 0 < capacity) {k : ℕ} {e : Entry Feature}
    (h : (k, e) ∈ entries) (hnewest : ∀ j ∈ matching longTerm entries, j ≤ k) :
    (k, e) ∈ pruneEntries longTerm capacity entries := by
  simp only [pruneEntries]
  split
  · exact h
  · rename_i hlen
    rw [List.mem_filter]
    refine ⟨h, ?_⟩
    have hkeep : k ∉ (matching longTerm entries).take
        ((matching longTerm entries).length - capacity) := by
      intro hmem
      obtain ⟨i, hi, hk⟩ := List.mem_iff_getElem.mp hmem
      rw [List.getElem_take] at hk
      simp only [List.length_take] at hi
      -- The last index of the kind is above the one at position `i`.
      have hlast : (matching longTerm entries).length - 1 <
          (matching longTerm entries).length := by omega
      have hlt := List.pairwise_iff_getElem.mp (matching_sorted longTerm hs) i
        ((matching longTerm entries).length - 1) (by omega) hlast (by omega)
      have hle := hnewest _ (List.getElem_mem hlast)
      omega
    simpa using hkeep

theorem matching_filter (longTerm : Bool) (keep : ℕ → Bool) :
    matching longTerm (entries.filter fun e => keep e.1) =
      (matching longTerm entries).filter keep := by
  simp only [matching, List.filter_map, List.filter_filter]
  congr 1
  apply List.filter_congr
  intro e _
  exact Bool.and_comm _ _

theorem matching_pruneEntries (hs : (entries.map Prod.fst).Pairwise (· < ·)) (longTerm : Bool)
    (capacity : ℕ) : (matching longTerm (pruneEntries longTerm capacity entries)).length ≤
      capacity := by
  simp only [pruneEntries]
  split
  · assumption
  · rename_i hlen
    have hnodup : (matching longTerm entries).Nodup :=
      (matching_sorted longTerm hs).imp fun h => h.ne
    set n := (matching longTerm entries).length - capacity with hn
    rw [← List.take_append_drop n (matching longTerm entries)] at hnodup
    have hfilter := filter_not_mem_append hnodup
    rw [List.take_append_drop] at hfilter
    have hmap : matching longTerm (entries.filter fun e => e.1 ∉ (matching longTerm entries).take n) =
        (matching longTerm entries).filter (fun k => k ∉ (matching longTerm entries).take n) :=
      matching_filter longTerm fun k => k ∉ (matching longTerm entries).take n
    rw [hmap, hfilter, List.length_drop]
    omega

theorem matching_length_mono (longTerm : Bool) {entries' : List (ℕ × Entry Feature)}
    (h : entries'.Sublist entries) :
    (matching longTerm entries').length ≤ (matching longTerm entries).length := by
  simpa [matching] using (h.filter _).length_le

theorem length_eq_matching (entries : List (ℕ × Entry Feature)) :
    entries.length = (matching false entries).length + (matching true entries).length := by
  induction entries with
  | nil => rfl
  | cons e rest ih =>
      cases h : e.2.longTerm with
      | true => simp_all [matching]; omega
      | false => simp_all [matching]; omega

/-- A new largest index goes to the end. -/
theorem insertOrAssign_of_newest {index : ℕ} (entry : Entry Feature)
    (h : ∀ k ∈ entries.map Prod.fst, k < index) :
    insertOrAssign index entry entries = entries ++ [(index, entry)] := by
  induction entries with
  | nil => rfl
  | cons e rest ih =>
      obtain ⟨j, e⟩ := e
      have hj : j < index := h j (by simp)
      rw [insertOrAssign, if_neg (by omega), if_neg (by omega),
        ih fun k hk => h k (by simp [hk]), List.cons_append]

theorem find_of_mem (store : ReferenceStore Feature) {k : ℕ} {e : Entry Feature}
    (h : (k, e) ∈ store.entries) : store.find k = some e.feature := by
  have hlookup : store.entries.lookup k = some e := by
    cases hl : store.entries.lookup k with
    | none => simpa using List.lookup_eq_none_iff.mp hl (k, e) h
    | some e' =>
        obtain ⟨before, after, hsplit, -⟩ := List.lookup_eq_some_iff.mp hl
        have hmem : (k, e') ∈ store.entries := by simp [hsplit]
        rw [entry_unique store.sorted h hmem]
  simp [find, hlookup]

section Save

variable {store : ReferenceStore Feature} {n : ℕ} (feature : Feature) (longTerm : Bool)

theorem insert_entries (h : ∀ k ∈ store.entries.map Prod.fst, k < n) :
    (store.insert n ⟨feature, longTerm⟩).entries = store.entries ++ [(n, ⟨feature, longTerm⟩)] :=
  insertOrAssign_of_newest _ h

theorem save_sublist :
    (store.save n feature longTerm).entries.Sublist
      (store.insert n ⟨feature, longTerm⟩).entries :=
  (pruneEntries_sublist _ _ _).trans (pruneEntries_sublist _ _ _)

/-- The frame just saved is kept by both prunings. -/
theorem mem_save_self (h : ∀ k ∈ store.entries.map Prod.fst, k < n) :
    (n, ⟨feature, longTerm⟩) ∈ (store.save n feature longTerm).entries := by
  have hnewest : ∀ j ∈ (store.insert n ⟨feature, longTerm⟩).entries.map Prod.fst, j ≤ n := by
    intro j hj
    rw [insert_entries feature longTerm h] at hj
    simp only [List.map_append, List.mem_append, List.map_cons, List.map_nil,
      List.mem_singleton] at hj
    rcases hj with hj | rfl
    · exact (h j hj).le
    · exact le_rfl
  have hkinds : ∀ {entries : List (ℕ × Entry Feature)} (b : Bool),
      entries.Sublist (store.insert n ⟨feature, longTerm⟩).entries →
      ∀ j ∈ matching b entries, j ≤ n := by
    intro entries b hsub j hj
    obtain ⟨e, he, -⟩ := mem_matching.mp hj
    exact hnewest j (List.mem_map_of_mem (hsub.subset he))
  have hmem : (n, ⟨feature, longTerm⟩) ∈ (store.insert n ⟨feature, longTerm⟩).entries := by
    simp [insert_entries feature longTerm h]
  have hshort := mem_pruneEntries_of_newest (store.insert n ⟨feature, longTerm⟩).sorted
    (by decide : 0 < shortTermCapacity) hmem (hkinds false (List.Sublist.refl _))
  exact mem_pruneEntries_of_newest
    ((store.insert n ⟨feature, longTerm⟩).prune false shortTermCapacity).sorted
    (by decide : 0 < longTermCapacity) hshort (hkinds true (pruneEntries_sublist _ _ _))

/-- Saving a short-term frame keeps the newest long-term one. -/
theorem mem_save_of_newest_ltr (h : ∀ k ∈ store.entries.map Prod.fst, k < n) {l : ℕ}
    {e : Entry Feature} (he : (l, e) ∈ store.entries) (hlong : e.longTerm = true)
    (hnewest : ∀ j ∈ matching true store.entries, j ≤ l) :
    (l, e) ∈ (store.save n feature false).entries := by
  have hmem : (l, e) ∈ (store.insert n ⟨feature, false⟩).entries := by
    simp [insert_entries feature false h, he]
  have hshort : (l, e) ∈ pruneEntries false shortTermCapacity
      (store.insert n ⟨feature, false⟩).entries :=
    mem_pruneEntries_of_other (store.insert n ⟨feature, false⟩).sorted _ hmem (by simp [hlong])
  apply mem_pruneEntries_of_newest
    ((store.insert n ⟨feature, false⟩).prune false shortTermCapacity).sorted
    (by decide : 0 < longTermCapacity) hshort
  intro j hj
  obtain ⟨e', he', hlong'⟩ := mem_matching.mp hj
  have hin := (pruneEntries_sublist false shortTermCapacity _).subset he'
  rw [insert_entries feature false h, List.mem_append, List.mem_singleton] at hin
  rcases hin with hin | hin
  · exact hnewest j (mem_matching.mpr ⟨e', hin, hlong'⟩)
  · cases hin
    cases hlong'

theorem save_bounds (store : ReferenceStore Feature) (n : ℕ) :
    (matching false (store.save n feature longTerm).entries).length ≤ shortTermCapacity ∧
    (matching true (store.save n feature longTerm).entries).length ≤ longTermCapacity := by
  constructor
  · exact (matching_length_mono false (pruneEntries_sublist _ _ _)).trans
      (matching_pruneEntries (store.insert n ⟨feature, longTerm⟩).sorted _ _)
  · exact matching_pruneEntries
      ((store.insert n ⟨feature, longTerm⟩).prune false shortTermCapacity).sorted _ _

end Save

end ReferenceStore

/-- One direction of a session: the scheduler, the store, and the frames saved since the last
intra frame, newest first. -/
structure Coding (Feature : Type*) where
  scheduler : FrameScheduler
  references : ReferenceStore Feature
  saved : List (ℕ × Feature)

/-- A frame is planned by the I period (`none`) or by a stream flag, coded to a feature, saved
and committed; or the direction is reset. -/
inductive CodingEvent (Feature : Type*) where
  | code (streamIntra : Option Bool) (feature : Feature)
  | reset

/-- The plan of a coded frame, what the store holds under its reference, and what was last
saved under it. -/
structure Coded (Feature : Type*) where
  plan : FramePlan
  found : Option Feature
  lastSaved : Option Feature

section Coding

variable {Feature : Type*}

def newCoding (parameters : LoopParameters) : Coding Feature :=
  ⟨.new parameters, .clear, []⟩

def codingStep (c : Coding Feature) : CodingEvent Feature → Option (Coded Feature) × Coding Feature
  | .code streamIntra feature =>
      -- A predicted access unit before the first intra one is rejected.
      if streamIntra = some false ∧ c.scheduler.started = false then
        (none, c)
      else
        let plan := c.scheduler.plan streamIntra
        let references := if plan.frameClass = .intra then .clear else c.references
        let saved := if plan.frameClass = .intra then [] else c.saved
        (some ⟨plan, plan.reference.bind references.find,
            plan.reference.bind fun index => saved.lookup index⟩,
          { scheduler := c.scheduler.commit plan
            references := references.save plan.codedIndex feature plan.markAsLtr
            saved := (plan.codedIndex, feature) :: saved })
  | .reset => (none, ⟨c.scheduler.reset, .clear, []⟩)

open ReferenceStore

/-- The store holds at most one short-term and three long-term entries. -/
def WithinBounds (store : ReferenceStore Feature) : Prop :=
  (matching false store.entries).length ≤ shortTermCapacity ∧
  (matching true store.entries).length ≤ longTermCapacity

/-- What pruning must not lose: the last saved frame and the latest long-term one, each as it
was last saved. -/
structure CodingInvariant (c : Coding Feature) : Prop where
  below : ∀ k ∈ c.references.entries.map Prod.fst, k < c.scheduler.codedIndex
  traced : ∀ k e, (k, e) ∈ c.references.entries → c.saved.lookup k = some e.feature
  last : c.scheduler.started = true →
    ∃ n e, c.scheduler.codedIndex = n + 1 ∧ (n, e) ∈ c.references.entries
  latest : ∀ l ∈ c.scheduler.latestLtr, ∃ e, (l, e) ∈ c.references.entries ∧
    e.longTerm = true ∧ ∀ j ∈ matching true c.references.entries, j ≤ l
  bounds : WithinBounds c.references

theorem codingInvariant_cleared (scheduler : FrameScheduler) (h : scheduler.started = false)
    (hltr : scheduler.latestLtr = none) :
    CodingInvariant (⟨scheduler, .clear, []⟩ : Coding Feature) where
  below := by simp [clear]
  traced := by simp [clear]
  last := by simp [h]
  latest := by simp [hltr]
  bounds := by simp [WithinBounds, matching, clear]

/-- Saving under a new largest index and committing keeps the invariant, whatever part of the
earlier sequence is still there. -/
theorem codingInvariant_save {scheduler : FrameScheduler} {references : ReferenceStore Feature}
    {saved : List (ℕ × Feature)} {plan : FramePlan} (feature : Feature)
    (hbelow : ∀ k ∈ references.entries.map Prod.fst, k < plan.codedIndex)
    (htraced : ∀ k e, (k, e) ∈ references.entries → saved.lookup k = some e.feature)
    (hlatest : plan.frameClass ≠ .intra → ∀ l ∈ scheduler.latestLtr,
      ∃ e, (l, e) ∈ references.entries ∧ e.longTerm = true ∧
        ∀ j ∈ matching true references.entries, j ≤ l) :
    CodingInvariant (⟨scheduler.commit plan,
      references.save plan.codedIndex feature plan.markAsLtr,
      (plan.codedIndex, feature) :: saved⟩ : Coding Feature) := by
  have hentries : ∀ k e, (k, e) ∈ (references.save plan.codedIndex feature plan.markAsLtr).entries →
      (k, e) ∈ references.entries ∨ (k, e) = (plan.codedIndex, ⟨feature, plan.markAsLtr⟩) := by
    intro k e he
    have hin := (save_sublist feature plan.markAsLtr).subset he
    rwa [insert_entries feature plan.markAsLtr hbelow, List.mem_append,
      List.mem_singleton] at hin
  constructor
  case below =>
    intro k hk
    obtain ⟨⟨k', e⟩, he, rfl⟩ := List.mem_map.mp hk
    simp only [FrameScheduler.commit_codedIndex]
    rcases hentries k' e he with he | he
    · have := hbelow k' (List.mem_map_of_mem he)
      omega
    · cases he
      omega
  case traced =>
    intro k e he
    rcases hentries k e he with he | he
    · have hne : (k == plan.codedIndex) = false := by
        simpa using (hbelow k (List.mem_map_of_mem he)).ne
      simpa [List.lookup_cons, hne] using htraced k e he
    · cases he
      simp
  case last =>
    intro _
    exact ⟨plan.codedIndex, _, rfl, mem_save_self feature plan.markAsLtr hbelow⟩
  case latest =>
    intro l hl
    cases hmark : plan.markAsLtr with
    | true =>
        -- The new frame is itself the latest long-term reference.
        simp only [FrameScheduler.commit, hmark, if_true, Option.mem_some_iff] at hl
        subst hl
        rw [hmark] at hentries
        refine ⟨_, mem_save_self feature true hbelow, rfl, ?_⟩
        intro j hj
        obtain ⟨e, he, -⟩ := mem_matching.mp hj
        rcases hentries j e he with he | he
        · exact (hbelow j (List.mem_map_of_mem he)).le
        · cases he
          exact le_rfl
    | false =>
        by_cases hintra : plan.frameClass = .intra
        · simp [FrameScheduler.commit, hmark, hintra] at hl
        · simp only [FrameScheduler.commit, hmark, hintra, if_false, Bool.false_eq_true] at hl
          obtain ⟨e, he, hlong, hnewest⟩ := hlatest hintra l hl
          rw [hmark] at hentries
          refine ⟨e, mem_save_of_newest_ltr feature hbelow he hlong hnewest, hlong, ?_⟩
          intro j hj
          obtain ⟨e', he', hlong'⟩ := mem_matching.mp hj
          rcases hentries j e' he' with he' | he'
          · exact hnewest j (mem_matching.mpr ⟨e', he', hlong'⟩)
          · cases he'
            cases hlong'
  case bounds => exact save_bounds feature plan.markAsLtr references plan.codedIndex

theorem codingInvariant_step (c : Coding Feature) (event : CodingEvent Feature)
    (h : CodingInvariant c) : CodingInvariant (codingStep c event).2 := by
  cases event with
  | reset => exact codingInvariant_cleared _ rfl rfl
  | code streamIntra feature =>
      simp only [codingStep]
      split
      · exact h
      · by_cases hintra : (c.scheduler.plan streamIntra).frameClass = .intra
        · simp only [hintra, if_true]
          apply codingInvariant_save <;> simp [clear, hintra]
        · have hindex := FrameScheduler.plan_codedIndex_of_not_intra hintra
          simp only [hintra, if_false]
          apply codingInvariant_save
          · rw [hindex]
            exact h.below
          · exact h.traced
          · exact fun _ => h.latest

/-- The reference of a predicted plan is the previous frame or the latest long-term one, both
of which the store holds as last saved. -/
theorem coded_found (c : Coding Feature) (event : CodingEvent Feature) (h : CodingInvariant c)
    (coded : Coded Feature) (hc : (codingStep c event).1 = some coded) :
    (coded.plan.frameClass ≠ .intra → coded.plan.reference.isSome) ∧
    ∀ index ∈ coded.plan.reference,
      coded.found.isSome ∧ coded.found = coded.lastSaved := by
  cases event with
  | reset => cases hc
  | code streamIntra feature =>
      simp only [codingStep] at hc
      split at hc
      · cases hc
      rename_i hguard
      cases hc
      by_cases hintra : (c.scheduler.plan streamIntra).frameClass = .intra
      · simp [hintra, FrameScheduler.plan_reference_of_intra hintra]
      · simp only [hintra, if_false]
        have hstarted := FrameScheduler.started_of_not_intra hintra hguard
        obtain ⟨index, e, href, he⟩ : ∃ index e,
            (c.scheduler.plan streamIntra).reference = some index ∧
            (index, e) ∈ c.references.entries := by
          rcases FrameScheduler.plan_reference hintra with href | ⟨l, hl, href⟩
          · obtain ⟨n, e, hn, he⟩ := h.last hstarted
            exact ⟨n, e, by rw [href, hn]; rfl, he⟩
          · obtain ⟨e, he, -⟩ := h.latest l hl
            exact ⟨l, e, href, he⟩
        simp [href, find_of_mem c.references he, h.traced index e he]

/-- In every run, a predicted plan names a reference that the store holds as it was last saved
in the current sequence, and the store stays within its capacities. -/
theorem reference_available (parameters : LoopParameters) (events : List (CodingEvent Feature)) :
    (∀ answer ∈ trace codingStep (newCoding parameters) events, ∀ coded ∈ answer,
      (coded.plan.frameClass ≠ .intra → coded.plan.reference.isSome) ∧
      ∀ index ∈ coded.plan.reference,
        coded.found.isSome ∧ coded.found = coded.lastSaved) ∧
    WithinBounds (final codingStep (newCoding parameters) events).references ∧
    (final codingStep (newCoding parameters) events).references.size ≤
      shortTermCapacity + longTermCapacity := by
  have hnew : CodingInvariant (newCoding parameters : Coding Feature) :=
    codingInvariant_cleared _ rfl rfl
  have hfinal := invariant_of_step codingInvariant_step hnew events
  refine ⟨?_, hfinal.bounds, ?_⟩
  · refine forall_mem_trace_of_invariant codingInvariant_step ?_ hnew events
    intro c event hinv coded hcoded
    exact coded_found c event hinv coded hcoded
  · have hlength := length_eq_matching
      (final codingStep (newCoding parameters) events).references.entries
    have hbounds := hfinal.bounds
    unfold WithinBounds at hbounds
    unfold size
    omega

/-- Ten frames keep the last frame and the three latest long-term ones. -/
example :
    (final codingStep (newCoding (LoopParameters.fromModel { smallModel with
        iframePeriod := none, iframe_period_ne := by decide }))
      ((List.range 10).map fun n => CodingEvent.code none n)).references.entries =
      [(4, ⟨4, true⟩), (6, ⟨6, true⟩), (8, ⟨8, true⟩), (9, ⟨9, false⟩)] := by
  decide

end Coding

end Nvcr.Mlvc
