import Nvcr.MemoryPools
import Nvcr.TransitionRuns
import Mathlib.Data.Multiset.Filter
import Mathlib.Algebra.BigOperators.Group.Multiset.Basic
import Mathlib.Tactic

/-!
# The books of the memory pools

Every block in custody is in one free list or held by one lease. Each step trades blocks
between a free list, the leases and the memory resource, and the allocated bytes follow.
-/

namespace Nvcr.Memory

section Custody

/-- The block that a lease holds. -/
def BufferLease.held (lease : BufferLease) : List (PoolId × FreeBlock) :=
  match lease.state, lease.pointer with
  | some pool, some pointer => [(pool, ⟨pointer, lease.capacity⟩)]
  | _, _ => []

/-- The blocks that leases hold, with the pools they are from. -/
def System.held (s : System) : Multiset (PoolId × FreeBlock) :=
  (s.leases.flatMap BufferLease.held : List _)

def Pool.free (record : Pool) : List FreeBlock :=
  (record.state.map PoolState.freeBlocks).getD []

/-- The blocks of a pool's leases. -/
def System.heldFrom (s : System) (pool : PoolId) : Multiset FreeBlock :=
  (s.held.filter (·.1 = pool)).map Prod.snd

/-- Every block in custody, free or leased. -/
def System.blocks (s : System) : Multiset FreeBlock :=
  (s.pools.flatMap Pool.free : List _) + s.held.map Prod.snd

def totalCapacity (blocks : Multiset FreeBlock) : Nat := (blocks.map FreeBlock.capacity).sum

/-- A lease is empty or holds a block of an existing pool that is large enough. -/
def BufferLease.WellFormed (s : System) (lease : BufferLease) : Prop :=
  lease.size ≤ lease.capacity ∧
    ∀ pool, lease.state = some pool → (s.poolState pool).isSome

/-- The books of every pool balance, no block is in two hands, and every lease is at least
as large as it was asked for. -/
structure Accounted (s : System) : Prop where
  balanced : ∀ pool state, s.poolState pool = some state →
    state.allocatedBytes = totalCapacity state.freeBlocks + totalCapacity (s.heldFrom pool)
  bounded : ∀ pool state, s.poolState pool = some state →
    state.allocatedBytes ≤ state.capacityBytes
  distinct : (s.blocks.map FreeBlock.pointer).Nodup
  wellFormed : ∀ lease ∈ s.leases, lease.WellFormed s

@[simp] theorem totalCapacity_zero : totalCapacity 0 = 0 := rfl

@[simp] theorem totalCapacity_add (blocks blocks' : Multiset FreeBlock) :
    totalCapacity (blocks + blocks') = totalCapacity blocks + totalCapacity blocks' := by
  simp [totalCapacity]

@[simp] theorem totalCapacity_singleton (block : FreeBlock) :
    totalCapacity {block} = block.capacity := by
  simp [totalCapacity]

/-- Replacing an element of a list trades what it contributes for what the new one does. -/
theorem flatMap_set {α β : Type*} {l : List α} {i : Nat} {a : α} (h : l[i]? = some a) (b : α)
    (f : α → List β) :
    (((l.set i b).flatMap f : List β) : Multiset β) + (f a : List β) =
      (l.flatMap f : List β) + (f b : List β) := by
  induction l generalizing i with
  | nil => exact nomatch h
  | cons first l ih =>
      cases i with
      | zero =>
          obtain rfl : first = a := by simpa using h
          simp only [List.set_cons_zero, List.flatMap_cons, ← Multiset.coe_add]
          rw [add_right_comm, add_comm (f b : Multiset β), add_right_comm]
      | succ i =>
          simp only [List.set_cons_succ, List.flatMap_cons, ← Multiset.coe_add, add_assoc]
          rw [ih h]

theorem held_setLease {s : System} {index : Nat} {lease : BufferLease}
    (h : s.leases[index]? = some lease) (value : BufferLease) :
    (s.setLease index value).held + (lease.held : Multiset _) = s.held + (value.held : Multiset _) :=
  flatMap_set h value BufferLease.held

theorem held_addLease (s : System) (value : BufferLease) :
    (s.addLease value).held = s.held + (value.held : Multiset _) := by
  simp [System.held, System.addLease]

theorem poolState_modify {s : System} {pool : PoolId} (f : Pool → Pool) (other : PoolId) :
    System.poolState { s with pools := s.pools.modify pool f } other =
      if other = pool then s.pools[pool]?.bind fun record => (f record).state
      else s.poolState other := by
  unfold System.poolState
  rw [List.getElem?_modify]
  by_cases h : other = pool
  · subst h
    cases s.pools[other]? <;> simp
  · simp [h, Ne.symm h]

theorem poolState_setPoolState {s : System} {pool : PoolId} {state : PoolState}
    (h : s.poolState pool = some state) (state' : PoolState) (other : PoolId) :
    (s.setPoolState pool state').poolState other =
      if other = pool then some state' else s.poolState other := by
  rw [System.setPoolState, poolState_modify]
  obtain ⟨record, hrecord, -⟩ := Option.bind_eq_some_iff.mp h
  simp [hrecord]

theorem free_modify {s : System} {pool : PoolId} {record : Pool}
    (h : s.pools[pool]? = some record) (f : Pool → Pool) :
    (((s.pools.modify pool f).flatMap Pool.free : List FreeBlock) : Multiset FreeBlock) +
      (record.free : Multiset FreeBlock) =
    (s.pools.flatMap Pool.free : List FreeBlock) + ((f record).free : Multiset FreeBlock) := by
  rw [List.modify_eq_set_getElem?, h]
  exact flatMap_set h (f record) Pool.free

theorem Pool.free_of_state {record : Pool} {state : PoolState} (h : record.state = some state) :
    record.free = state.freeBlocks := by
  simp [Pool.free, h]

/-- Trading blocks between the free list of one pool, its leases and the outside keeps the
books in balance. -/
theorem Accounted.exchange {s s' : System} (h : Accounted s) {pool : PoolId}
    {state state' : PoolState} (hstate : s.poolState pool = some state)
    (hpools : s'.pools = (s.setPoolState pool state').pools)
    (lost gained dropped fresh : Multiset FreeBlock)
    (hheld : s'.held + lost.map (Prod.mk pool) = s.held + gained.map (Prod.mk pool))
    (hfree : (state'.freeBlocks : Multiset FreeBlock) + gained + dropped =
      state.freeBlocks + lost + fresh)
    (hallocated : state'.allocatedBytes + totalCapacity dropped =
      state.allocatedBytes + totalCapacity fresh)
    (hcapacity : state'.allocatedBytes ≤ state'.capacityBytes)
    (hfresh : ((s.blocks + fresh).map FreeBlock.pointer).Nodup)
    (hleases : ∀ lease ∈ s'.leases, lease.WellFormed s') : Accounted s' := by
  have hpoolState (other : PoolId) : s'.poolState other =
      if other = pool then some state' else s.poolState other := by
    rw [← poolState_setPoolState hstate state' other]
    unfold System.poolState
    rw [hpools]
  have hheldFrom : s'.heldFrom pool + lost = s.heldFrom pool + gained := by
    simpa [System.heldFrom, Multiset.filter_add, Multiset.filter_map, Function.comp_def]
      using congrArg (fun blocks => (blocks.filter (·.1 = pool)).map Prod.snd) hheld
  have hother (other : PoolId) (hne : other ≠ pool) : s'.heldFrom other = s.heldFrom other := by
    simpa [System.heldFrom, Multiset.filter_add, Multiset.filter_map, Function.comp_def, hne.symm]
      using congrArg (fun blocks => (blocks.filter (·.1 = other)).map Prod.snd) hheld
  have hblocks : s'.blocks + dropped = s.blocks + fresh := by
    obtain ⟨record, hrecord, hrecordState⟩ := Option.bind_eq_some_iff.mp hstate
    have hpoolsFree := free_modify hrecord fun record => { record with state := some state' }
    have hfree' : Pool.free { record with state := some state' } = state'.freeBlocks :=
      Pool.free_of_state rfl
    rw [Pool.free_of_state hrecordState, hfree'] at hpoolsFree
    have hsnd : s'.held.map Prod.snd + lost = s.held.map Prod.snd + gained := by
      simpa using congrArg (Multiset.map Prod.snd) hheld
    ext block
    have hpoolsCount := congrArg (Multiset.count block) hpoolsFree
    have hheldCount := congrArg (Multiset.count block) hsnd
    have hfreeCount := congrArg (Multiset.count block) hfree
    simp only [System.blocks, hpools, System.setPoolState, Multiset.count_add]
      at hpoolsCount hheldCount hfreeCount ⊢
    omega
  refine ⟨fun other otherState hotherState => ?_, fun other otherState hotherState => ?_, ?_,
    hleases⟩
  · rw [hpoolState] at hotherState
    split_ifs at hotherState with hsame
    · cases hotherState
      subst hsame
      have hbalanced := h.balanced other state hstate
      have hfreeTotal := congrArg totalCapacity hfree
      have hheldTotal := congrArg totalCapacity hheldFrom
      simp only [totalCapacity_add] at hfreeTotal hheldTotal
      omega
    · rw [hother other hsame]
      exact h.balanced other otherState hotherState
  · rw [hpoolState] at hotherState
    split_ifs at hotherState
    · cases hotherState
      exact hcapacity
    · exact h.bounded other otherState hotherState
  · rw [← hblocks, Multiset.map_add] at hfresh
    exact (Multiset.nodup_add.mp hfresh).1

/-- Moving leases about changes nothing in the books. -/
theorem Accounted.of_held_eq {s s' : System} (h : Accounted s) (hpools : s'.pools = s.pools)
    (hheld : s'.held = s.held) (hleases : ∀ lease ∈ s'.leases, lease.WellFormed s') :
    Accounted s' := by
  have hpoolState (pool : PoolId) : s'.poolState pool = s.poolState pool := by
    unfold System.poolState
    rw [hpools]
  have hheldFrom (pool : PoolId) : s'.heldFrom pool = s.heldFrom pool := by
    rw [System.heldFrom, hheld, System.heldFrom]
  refine ⟨fun pool state hstate => ?_, fun pool state hstate => ?_, ?_, hleases⟩
  · rw [hheldFrom]
    exact h.balanced pool state (hpoolState pool ▸ hstate)
  · exact h.bounded pool state (hpoolState pool ▸ hstate)
  · rw [System.blocks, hpools, hheld]
    exact h.distinct

theorem WellFormed.of_poolState {s s' : System}
    (hpools : ∀ pool, (s.poolState pool).isSome → (s'.poolState pool).isSome)
    {lease : BufferLease} (h : lease.WellFormed s) : lease.WellFormed s' :=
  ⟨h.1, fun pool hpool => hpools pool (h.2 pool hpool)⟩

theorem wellFormed_empty (s : System) : BufferLease.WellFormed s {} :=
  ⟨Nat.le_refl 0, fun _ h => nomatch h⟩

@[simp] theorem held_empty : BufferLease.held {} = [] := rfl

theorem blocks_destroyState {s : System} {pool : PoolId} {record : Pool}
    (h : s.pools[pool]? = some record) :
    (s.destroyState pool).blocks + (record.free : Multiset FreeBlock) = s.blocks := by
  have hfree := free_modify h fun record => { record with state := none }
  ext block
  have hcount := congrArg (Multiset.count block) hfree
  simp only [System.blocks, System.destroyState, System.held, Pool.free, Multiset.count_add]
    at hcount ⊢
  simp only [Option.map_none, Option.getD_none, Multiset.coe_nil, Multiset.count_zero] at hcount
  omega

theorem poolState_destroyState (s : System) (pool other : PoolId) :
    (s.destroyState pool).poolState other =
      if other = pool then none else s.poolState other := by
  rw [System.destroyState, poolState_modify]
  cases s.pools[pool]? <;> rfl

/-- Destroying the state of a pool that no lease refers to. -/
theorem Accounted.collect {s : System} (h : Accounted s) (pool : PoolId) :
    Accounted (s.collect pool) := by
  unfold System.collect
  split_ifs with hunused
  case neg => exact h
  simp only [Bool.and_eq_true, List.all_eq_true, decide_eq_true_eq] at hunused
  refine ⟨fun other state hstate => ?_, fun other state hstate => ?_, ?_, fun lease hlease => ?_⟩
  · rw [poolState_destroyState] at hstate
    split_ifs at hstate
    exact h.balanced other state hstate
  · rw [poolState_destroyState] at hstate
    split_ifs at hstate
    exact h.bounded other state hstate
  · have hdistinct := h.distinct
    cases hrecord : s.pools[pool]? with
    | none =>
        rw [System.destroyState, List.modify_eq_set_getElem?, hrecord]
        exact hdistinct
    | some record =>
        rw [← blocks_destroyState hrecord, Multiset.map_add] at hdistinct
        exact (Multiset.nodup_add.mp hdistinct).1
  · obtain ⟨hsize, hpool⟩ := h.wellFormed lease hlease
    refine ⟨hsize, fun other hother => ?_⟩
    have hne : other ≠ pool := by
      rintro rfl
      exact hunused.2 lease hlease hother
    rw [poolState_destroyState, if_neg hne]
    exact hpool other hother

theorem returnBlock_allocated {state : PoolState} {block : FreeBlock} (grows : Bool)
    (h : block.capacity ≤ state.allocatedBytes) :
    (state.returnBlock block grows).allocatedBytes +
      totalCapacity (if grows then 0 else {block}) = state.allocatedBytes := by
  cases grows with
  | false => simp [PoolState.returnBlock, h]
  | true => simp [PoolState.returnBlock]

theorem returnBlock_free (state : PoolState) (block : FreeBlock) (grows : Bool) :
    ((state.returnBlock block grows).freeBlocks : Multiset FreeBlock) +
      (if grows then 0 else {block}) = state.freeBlocks + {block} := by
  cases grows with
  | false => simp [PoolState.returnBlock]
  | true => simp [PoolState.returnBlock, ← Multiset.coe_add]

theorem returnBlock_capacity (state : PoolState) (block : FreeBlock) (grows : Bool) :
    (state.returnBlock block grows).capacityBytes = state.capacityBytes := by
  cases grows <;> rfl

/-- What a lease holds is part of what its pool has allocated. -/
theorem Accounted.held_le {s : System} (h : Accounted s) {pool : PoolId} {state : PoolState}
    (hstate : s.poolState pool = some state) {block : FreeBlock}
    (hheld : (pool, block) ∈ s.held) : block.capacity ≤ state.allocatedBytes := by
  have hmem : block ∈ s.heldFrom pool :=
    Multiset.mem_map.mpr ⟨(pool, block), Multiset.mem_filter.mpr ⟨hheld, rfl⟩, rfl⟩
  obtain ⟨others, hothers⟩ := Multiset.exists_cons_of_mem hmem
  have hbalanced := h.balanced pool state hstate
  rw [hothers, ← Multiset.singleton_add, totalCapacity_add, totalCapacity_singleton] at hbalanced
  omega

theorem mem_held {s : System} {index : Nat} {lease : BufferLease}
    (hlease : s.leases[index]? = some lease) {entry : PoolId × FreeBlock}
    (hentry : entry ∈ lease.held) : entry ∈ s.held :=
  Multiset.mem_coe.mpr (List.mem_flatMap.mpr ⟨lease, List.mem_of_getElem? hlease, hentry⟩)

theorem mem_leases_setLease {s : System} {index : Nat} {value lease : BufferLease}
    (h : lease ∈ (s.setLease index value).leases) : lease ∈ s.leases ∨ lease = value :=
  List.mem_or_eq_of_mem_set h

/-- Releasing a lease returns its block to the pool or gives it up. -/
theorem Accounted.release {s : System} (h : Accounted s) (index : Nat) (grows : Bool) :
    Accounted (s.release index grows) := by
  unfold System.release
  cases hlease : s.leases[index]? with
  | none => exact h
  | some lease =>
      have hwellFormed := h.wellFormed lease (List.mem_of_getElem? hlease)
      dsimp only
      cases hpool : lease.state with
      | none =>
          refine h.of_held_eq rfl ?_ fun other hother => ?_
          · have hheld := held_setLease hlease {}
            simpa [BufferLease.held, hpool] using hheld
          · rcases mem_leases_setLease hother with hold | rfl
            · exact h.wellFormed other hold
            · exact wellFormed_empty _
      | some pool =>
          obtain ⟨state, hstate⟩ := Option.isSome_iff_exists.mp (hwellFormed.2 pool hpool)
          dsimp only
          refine Accounted.collect ?_ pool
          cases hpointer : lease.pointer with
          | none =>
              refine h.of_held_eq rfl ?_ fun other hother => ?_
              · have hheld := held_setLease hlease {}
                simpa [BufferLease.held, hpool, hpointer] using hheld
              · rcases mem_leases_setLease hother with hold | rfl
                · exact h.wellFormed other hold
                · exact wellFormed_empty _
          | some pointer =>
              have hblock : lease.held = [(pool, ⟨pointer, lease.capacity⟩)] := by
                simp [BufferLease.held, hpool, hpointer]
              have hle := h.held_le hstate (mem_held hlease (hblock ▸ List.mem_singleton_self _))
              have hallocated := returnBlock_allocated grows hle
              have hbound := h.bounded pool state hstate
              simp only [hstate]
              refine h.exchange hstate rfl {⟨pointer, lease.capacity⟩} 0
                (if grows then 0 else {⟨pointer, lease.capacity⟩}) 0 ?_ ?_ ?_ ?_ ?_ ?_
              · have hheld := held_setLease hlease {}
                change (s.setLease index {}).held + _ = s.held + _
                simpa [hblock] using hheld
              · simpa using returnBlock_free state ⟨pointer, lease.capacity⟩ grows
              · simpa using hallocated
              · rw [returnBlock_capacity]
                omega
              · simpa using h.distinct
              · intro other hother
                have hpools (p : PoolId) (hp : (s.poolState p).isSome) :
                    ((s.setPoolState pool (state.returnBlock ⟨pointer, lease.capacity⟩
                      grows)).poolState p).isSome := by
                  rw [poolState_setPoolState hstate]
                  split_ifs
                  · rfl
                  · exact hp
                rcases mem_leases_setLease hother with hold | rfl
                · exact WellFormed.of_poolState hpools (h.wellFormed other hold)
                · exact wellFormed_empty _

/-- The search finds a free block that is large enough. -/
theorem bestFit_eq_some {bytes : Nat} {blocks : List FreeBlock} {block : FreeBlock}
    {index : Nat} (h : bestFit bytes blocks = some (block, index)) :
    blocks[index]? = some block ∧ bytes ≤ block.capacity := by
  have hfound : ∀ (entries : List (FreeBlock × Nat)) (best : Option (FreeBlock × Nat)),
      (∀ entry ∈ best, blocks[entry.2]? = some entry.1 ∧ bytes ≤ entry.1.capacity) →
      (∀ entry ∈ entries, blocks[entry.2]? = some entry.1) →
      ∀ entry ∈ entries.foldl (fun best entry =>
        if bytes ≤ entry.1.capacity &&
            best.all (fun leader => entry.1.capacity < leader.1.capacity) then
          some entry
        else best) best, blocks[entry.2]? = some entry.1 ∧ bytes ≤ entry.1.capacity := by
    intro entries
    induction entries with
    | nil => exact fun best hbest _ => hbest
    | cons next entries ih =>
        intro best hbest hentries
        obtain ⟨hnext, hentries⟩ := List.forall_mem_cons.mp hentries
        refine ih _ ?_ hentries
        dsimp only
        split_ifs with hfits
        · simp only [Bool.and_eq_true, decide_eq_true_eq] at hfits
          rintro entry ⟨⟩
          exact ⟨hnext, hfits.1⟩
        · exact hbest
  refine hfound blocks.zipIdx none (fun _ hnone => nomatch hnone) ?_ (block, index) h
  intro entry hentry
  exact List.mem_zipIdx_iff_getElem?.mp hentry

theorem System.setPoolState_isSome {s : System} {pool : PoolId} {state : PoolState}
    (h : s.poolState pool = some state) (state' : PoolState) {other : PoolId}
    (hother : (s.poolState other).isSome) :
    ((s.setPoolState pool state').poolState other).isSome := by
  rw [poolState_setPoolState h]
  split_ifs
  · rfl
  · exact hother

/-- What the memory resource promises about a block it hands out. -/
def Fresh (s : System) : Step → Prop
  | .acquire _ _ (.ok pointer) => pointer ∉ s.blocks.map FreeBlock.pointer
  | _ => True

/-- A granted lease takes a free block that is large enough or a new one. -/
theorem acquire_cases {state state' : PoolState} {pool : PoolId} {bytes : Nat}
    {allocate : Result Address} {lease : BufferLease}
    (h : state.acquire pool bytes allocate = .ok (lease, state')) :
    (∃ block index, state.freeBlocks[index]? = some block ∧ bytes ≤ block.capacity ∧
      lease = ⟨some pool, some block.pointer, bytes, block.capacity⟩ ∧
      state' = { state with freeBlocks := state.freeBlocks.eraseIdx index }) ∨
    ∃ pointer, allocate = .ok pointer ∧
      bytes ≤ state.capacityBytes - min state.allocatedBytes state.capacityBytes ∧
      lease = ⟨some pool, some pointer, bytes, bytes⟩ ∧
      state' = { state with allocatedBytes := state.allocatedBytes + bytes } := by
  unfold PoolState.acquire at h
  by_cases hzero : bytes = 0
  · rw [if_pos hzero] at h
    exact nomatch h
  rw [if_neg hzero] at h
  cases hbest : bestFit bytes state.freeBlocks with
  | some found =>
      obtain ⟨hindex, hfits⟩ := bestFit_eq_some hbest
      rw [hbest] at h
      cases h
      exact .inl ⟨found.1, found.2, hindex, hfits, rfl, rfl⟩
  | none =>
      rw [hbest] at h
      dsimp only at h
      split_ifs at h with hfull
      cases allocate with
      | error e => exact nomatch h
      | ok pointer =>
          cases h
          exact .inr ⟨pointer, rfl, Nat.le_of_not_lt hfull, rfl, rfl⟩

/-- A granted lease has the requested size and a block at least as large. -/
theorem acquire_size {state state' : PoolState} {pool : PoolId} {bytes : Nat}
    {allocate : Result Address} {lease : BufferLease}
    (h : state.acquire pool bytes allocate = .ok (lease, state')) :
    lease.size = bytes ∧ bytes ≤ lease.capacity ∧ lease.state = some pool := by
  obtain ⟨block, index, -, hfits, rfl, -⟩ | ⟨pointer, -, -, rfl, -⟩ := acquire_cases h
  · exact ⟨rfl, hfits, rfl⟩
  · exact ⟨rfl, Nat.le_refl bytes, rfl⟩

/-- Acquiring lends a free block or one the resource has just handed out. -/
theorem Accounted.acquire {s : System} (h : Accounted s) {pool : PoolId} {bytes : Nat}
    {allocate : Result Address} (hfresh : Fresh s (.acquire pool bytes allocate))
    {state state' : PoolState} (hstate : s.poolState pool = some state) {lease : BufferLease}
    (hacquire : state.acquire pool bytes allocate = .ok (lease, state')) :
    Accounted ((s.setPoolState pool state').addLease lease) := by
  have hbound := h.bounded pool state hstate
  have hleases : ∀ other ∈ ((s.setPoolState pool state').addLease lease).leases,
      other.WellFormed ((s.setPoolState pool state').addLease lease) := by
    obtain ⟨hsize, hcapacity, hpool⟩ := acquire_size hacquire
    intro other hother
    rcases List.mem_append.mp hother with hold | hnew
    · exact WellFormed.of_poolState
        (fun p hp => System.setPoolState_isSome hstate state' hp) (h.wellFormed other hold)
    · cases List.mem_singleton.mp hnew
      refine ⟨hsize ▸ hcapacity, fun p hp => ?_⟩
      cases hpool.symm.trans hp
      exact System.setPoolState_isSome hstate state' (Option.isSome_iff_exists.mpr ⟨state, hstate⟩)
  have hheld : ((s.setPoolState pool state').addLease lease).held =
      s.held + (lease.held : Multiset _) := held_addLease (s.setPoolState pool state') lease
  obtain ⟨block, index, hindex, -, rfl, rfl⟩ | ⟨pointer, rfl, hroom, rfl, rfl⟩ :=
    acquire_cases hacquire
  · refine h.exchange hstate rfl 0 {block} 0 0 (by simpa [BufferLease.held] using hheld) ?_ rfl
      hbound (by simpa using h.distinct) hleases
    obtain ⟨hlt, rfl⟩ := List.getElem?_eq_some_iff.mp hindex
    rw [Multiset.add_zero, Multiset.add_zero, Multiset.add_zero, add_comm,
      Multiset.singleton_add]
    exact Multiset.coe_eq_coe.mpr (List.getElem_cons_eraseIdx_perm hlt)
  · refine h.exchange hstate rfl 0 {⟨pointer, bytes⟩} 0 {⟨pointer, bytes⟩}
      (by simpa [BufferLease.held] using hheld) (by simp) (by simp) ?_
      ?_ hleases
    · dsimp only
      omega
    · rw [Multiset.map_add, add_comm]
      exact Multiset.nodup_cons.mpr ⟨hfresh, h.distinct⟩

/-- Counting the handles of a pool leaves the books alone. -/
theorem Accounted.modify_handles {s : System} (h : Accounted s) (pool : PoolId)
    (f : Pool → Pool) (hf : ∀ record, (f record).state = record.state) :
    Accounted { s with pools := s.pools.modify pool f } := by
  have hpoolState (other : PoolId) :
      System.poolState { s with pools := s.pools.modify pool f } other = s.poolState other := by
    rw [poolState_modify]
    split_ifs with hsame
    · simp only [hf, hsame]
      rfl
    · rfl
  have hblocks : System.blocks { s with pools := s.pools.modify pool f } = s.blocks := by
    cases hrecord : s.pools[pool]? with
    | none =>
        rw [List.modify_eq_set_getElem?, hrecord]
        rfl
    | some record =>
        have hfree := free_modify hrecord f
        rw [Pool.free, Pool.free, hf record, add_left_inj] at hfree
        rw [System.blocks, hfree]
        rfl
  refine ⟨fun other state hstate => ?_, fun other state hstate => ?_, hblocks ▸ h.distinct,
    fun lease hlease => ?_⟩
  · exact h.balanced other state (hpoolState other ▸ hstate)
  · exact h.bounded other state (hpoolState other ▸ hstate)
  · exact WellFormed.of_poolState (fun p hp => (hpoolState p).symm ▸ hp)
      (h.wellFormed lease hlease)

theorem Accounted.createPool {s : System} (h : Accounted s) (capacityBytes : Nat) :
    Accounted { s with pools := s.pools ++ [⟨1, some { capacityBytes }⟩] } := by
  have hpoolState (pool : PoolId) : System.poolState
      { s with pools := s.pools ++ [⟨1, some { capacityBytes }⟩] } pool =
        if pool = s.pools.length then some { capacityBytes } else s.poolState pool := by
    unfold System.poolState
    rcases Nat.lt_trichotomy pool s.pools.length with hlt | rfl | hgt
    · simp [List.getElem?_append_left hlt, hlt.ne]
    · simp
    · simp [List.getElem?_append_right hgt.le, hgt.ne', List.getElem?_eq_none hgt.le,
        Nat.sub_ne_zero_of_lt hgt]
  have hnone : s.heldFrom s.pools.length = 0 := by
    rw [System.heldFrom, Multiset.map_eq_zero, Multiset.filter_eq_nil]
    rintro ⟨pool, block⟩ hmem rfl
    obtain ⟨lease, hlease, hheld⟩ := List.mem_flatMap.mp (Multiset.mem_coe.mp hmem)
    have hstate : lease.state = some s.pools.length := by
      unfold BufferLease.held at hheld
      split at hheld
      · next hstate _ => simpa [hstate] using (congrArg Prod.fst (List.mem_singleton.mp hheld)).symm
      · exact nomatch hheld
    have hsome := (h.wellFormed lease hlease).2 s.pools.length hstate
    simp [System.poolState] at hsome
  have hblocks : System.blocks
      { s with pools := s.pools ++ [⟨1, some { capacityBytes }⟩] } = s.blocks := by
    simp [System.blocks, System.held, Pool.free]
  refine ⟨fun pool state hstate => ?_, fun pool state hstate => ?_, hblocks ▸ h.distinct,
    fun lease hlease => ?_⟩
  · rw [hpoolState] at hstate
    split_ifs at hstate with hnew
    · cases hstate
      change 0 = totalCapacity 0 + totalCapacity (s.heldFrom pool)
      rw [hnew, hnone]
      rfl
    · exact h.balanced pool state hstate
  · rw [hpoolState] at hstate
    split_ifs at hstate
    · cases hstate
      exact Nat.zero_le _
    · exact h.bounded pool state hstate
  · refine WellFormed.of_poolState (fun pool hpool => ?_) (h.wellFormed lease hlease)
    rw [hpoolState]
    split_ifs
    · rfl
    · exact hpool

@[simp] theorem collect_leases (s : System) (pool : PoolId) :
    (s.collect pool).leases = s.leases := by
  unfold System.collect
  split_ifs <;> rfl

theorem release_leases {s : System} {index : Nat} {lease : BufferLease}
    (h : s.leases[index]? = some lease) (grows : Bool) :
    (s.release index grows).leases = s.leases.set index {} := by
  unfold System.release
  rw [h]
  dsimp only
  cases lease.state with
  | none => rfl
  | some pool =>
      dsimp only
      rw [collect_leases]
      split <;> rfl

/-- A move hands the lease over and leaves the source empty. -/
theorem Accounted.moveLease {s : System} (h : Accounted s) {source : Nat} {lease : BufferLease}
    (hlease : s.leases[source]? = some lease) :
    Accounted ((s.setLease source {}).addLease lease) := by
  refine h.of_held_eq rfl ?_ fun other hother => ?_
  · have hheld := held_setLease hlease {}
    rw [held_addLease, hheld]
    simp
  · rcases List.mem_append.mp hother with hold | hnew
    · rcases mem_leases_setLease hold with hold | rfl
      · exact h.wellFormed other hold
      · exact wellFormed_empty _
    · cases List.mem_singleton.mp hnew
      exact h.wellFormed _ (List.mem_of_getElem? hlease)

theorem Accounted.assignLease {s : System} (h : Accounted s) {target source : Nat}
    {lease : BufferLease} (hne : source ≠ target) (htarget : s.leases[target]? = some {})
    (hsource : s.leases[source]? = some lease) :
    Accounted ((s.setLease target lease).setLease source {}) := by
  have hkept : (s.setLease target lease).leases[source]? = some lease := by
    rw [System.setLease, List.getElem?_set_ne hne.symm]
    exact hsource
  refine h.of_held_eq rfl ?_ fun other hother => ?_
  · have hgain := held_setLease htarget lease
    have hloss := held_setLease hkept {}
    simp only [held_empty, Multiset.coe_nil, add_zero] at hgain hloss
    rw [hgain] at hloss
    exact add_right_cancel hloss
  · rcases mem_leases_setLease hother with hold | rfl
    · rcases mem_leases_setLease hold with hold | rfl
      · exact h.wellFormed other hold
      · exact h.wellFormed _ (List.mem_of_getElem? hsource)
    · exact wellFormed_empty _

/-- Every step keeps the books. -/
theorem Accounted.step {s : System} (h : Accounted s) (input : Step) (hfresh : Fresh s input) :
    Accounted (step s input).2 := by
  cases input with
  | createPool capacityBytes => exact h.createPool capacityBytes
  | copyPool pool =>
      refine h.modify_handles pool _ fun record => ?_
      split_ifs <;> rfl
  | destroyPool pool =>
      exact (h.modify_handles pool (fun record => { record with handles := record.handles - 1 })
        fun record => rfl).collect pool
  | acquire pool bytes allocate =>
      unfold Memory.step
      dsimp only
      split
      · next handles state hrecord =>
          have hstate : s.poolState pool = some state := by
            rw [System.poolState, hrecord]
            rfl
          split
          · exact h
          · next lease state' hacquire => exact h.acquire hfresh hstate hacquire
      · exact h
  | defaultLease =>
      refine h.of_held_eq rfl ?_ fun other hother => ?_
      · simp [Memory.step, held_addLease]
      · rcases List.mem_append.mp hother with hold | hnew
        · exact h.wellFormed other hold
        · cases List.mem_singleton.mp hnew
          exact wellFormed_empty _
  | moveLease source =>
      unfold Memory.step
      dsimp only
      split
      · exact h
      · next lease hlease => exact h.moveLease hlease
  | assignLease target source grows =>
      unfold Memory.step
      dsimp only
      split
      · next old lease htarget hsource =>
          split_ifs with hself
          · exact h
          · have hleases := release_leases htarget grows
            refine (h.release target grows).assignLease (Ne.symm hself) ?_ ?_
            · rw [hleases, List.getElem?_set_self (List.getElem?_eq_some_iff.mp htarget).1]
            · rw [hleases, List.getElem?_set_ne hself, hsource]
      · exact h
  | releaseLease lease grows => exact h.release lease grows

theorem Accounted.initial : Accounted {} :=
  ⟨fun _ _ h => (nomatch h), fun _ _ h => (nomatch h), Multiset.nodup_zero,
    fun _ h => (nomatch h)⟩

/-- A lease is granted with the requested size and a block at least as large. -/
theorem granted_size {s : System} {pool : PoolId} {bytes : Nat} {allocate : Result Address}
    {lease : BufferLease} (h : (step s (.acquire pool bytes allocate)).1 = some (.ok lease)) :
    lease.size = bytes ∧ bytes ≤ lease.capacity := by
  unfold Memory.step at h
  dsimp only at h
  split at h
  · next handles state hrecord =>
      cases hacquire : state.acquire pool bytes allocate with
      | error e =>
          rw [hacquire] at h
          exact nomatch h
      | ok granted =>
          rw [hacquire] at h
          cases h
          exact ⟨(acquire_size hacquire).1, (acquire_size hacquire).2.1⟩
  · exact nomatch h

instance Fresh.decidable (s : System) : ∀ input, Decidable (Fresh s input)
  | .acquire _ _ (.ok pointer) => inferInstanceAs (Decidable (pointer ∉ _))
  | .acquire _ _ (.error _) | .createPool _ | .copyPool _ | .destroyPool _ | .defaultLease
  | .moveLease _ | .assignLease .. | .releaseLease .. => .isTrue trivial

/-- After every sequence of steps the books of every pool balance, no block is in two
hands, and every lease is as large as requested. -/
theorem accounted_of_run {steps : List Step} (hfresh : TransitionRuns.Along Fresh step {} steps) :
    Accounted (TransitionRuns.final step {} steps) ∧
      ∀ pool bytes allocate lease,
        (step (TransitionRuns.final step {} steps) (.acquire pool bytes allocate)).1 =
          some (.ok lease) → lease.size = bytes ∧ bytes ≤ lease.capacity :=
  ⟨TransitionRuns.invariant_of_along (fun _ input h hinput => h.step input hinput)
    Accounted.initial hfresh, fun _ _ _ _ h => granted_size h⟩

/-- Two leases of one pool, one assigned over the other, a block given up, one reused after
the last handle is gone. -/
def exampleSteps : List Step :=
  [.createPool 100, .acquire 0 40 (.ok 1), .acquire 0 10 (.ok 2), .assignLease 0 1 true,
    .assignLease 0 0 true, .acquire 0 30 (.ok 3), .moveLease 2, .releaseLease 0 false,
    .destroyPool 0, .releaseLease 3 true]

theorem exampleSteps_accounted : Accounted (TransitionRuns.final step {} exampleSteps) :=
  (accounted_of_run (by decide)).1

end Custody

end Nvcr.Memory
