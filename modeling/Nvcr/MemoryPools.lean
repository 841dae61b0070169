import Nvcr.Frames

/-!
# Memory pools and their leases

A pool lends blocks and keeps returned ones for later requests. Its state is shared by the
pool's handles and by the leases it has given out, and goes away with the last of them.
What the memory resource and the growth of the free list answer is part of each step.
-/

namespace Nvcr.Memory

/-- The address of a block. -/
abbrev Address := Nat

structure FreeBlock where
  pointer : Address
  capacity : Nat
  deriving DecidableEq, Repr

structure PoolState where
  capacityBytes : Nat
  allocatedBytes : Nat := 0
  freeBlocks : List FreeBlock := []
  deriving DecidableEq, Repr

abbrev PoolId := Nat

structure BufferLease where
  state : Option PoolId := none
  pointer : Option Address := none
  size : Nat := 0
  capacity : Nat := 0
  deriving DecidableEq, Repr

/-- A pool with the number of its handles, until its state is destroyed. -/
structure Pool where
  handles : Nat
  state : Option PoolState
  deriving DecidableEq, Repr

/-- All pools and all lease objects. -/
structure System where
  pools : List Pool := []
  leases : List BufferLease := []
  deriving DecidableEq, Repr

section Operations

/-- The state of a pool that has not been destroyed. -/
def System.poolState (s : System) (pool : PoolId) : Option PoolState :=
  s.pools[pool]?.bind Pool.state

def System.setPoolState (s : System) (pool : PoolId) (state : PoolState) : System :=
  { s with pools := s.pools.modify pool fun record => { record with state := some state } }

def System.setLease (s : System) (lease : Nat) (value : BufferLease) : System :=
  { s with leases := s.leases.set lease value }

def System.addLease (s : System) (value : BufferLease) : System :=
  { s with leases := s.leases ++ [value] }

/-- The search for the smallest free block that is large enough. -/
def bestFit (bytes : Nat) (blocks : List FreeBlock) : Option (FreeBlock × Nat) :=
  blocks.zipIdx.foldl (fun best entry =>
    if bytes ≤ entry.1.capacity &&
        best.all (fun leader => entry.1.capacity < leader.1.capacity) then
      some entry
    else best) none

/-- `MemoryPool::acquire`: the new state and lease, given the resource's answer. -/
def PoolState.acquire (state : PoolState) (pool : PoolId) (bytes : Nat)
    (allocate : Result Address) : Result (BufferLease × PoolState) :=
  if bytes = 0 then .error ⟨.invalidArgument, "cannot lease zero bytes", "memory"⟩
  else
    match bestFit bytes state.freeBlocks with
    | some (block, index) =>
        .ok (⟨some pool, some block.pointer, bytes, block.capacity⟩,
          { state with freeBlocks := state.freeBlocks.eraseIdx index })
    | none =>
        if state.capacityBytes - min state.allocatedBytes state.capacityBytes < bytes then
          .error ⟨.resourceExhausted, "memory pool capacity exceeded", "memory"⟩
        else
          match allocate with
          | .error e => .error e
          | .ok pointer =>
              .ok (⟨some pool, some pointer, bytes, bytes⟩,
                { state with allocatedBytes := state.allocatedBytes + bytes })

/-- `return_block`: where the free list cannot grow the block is given up instead. -/
def PoolState.returnBlock (state : PoolState) (block : FreeBlock) (grows : Bool) : PoolState :=
  if grows then { state with freeBlocks := state.freeBlocks ++ [block] }
  else { state with allocatedBytes := state.allocatedBytes - block.capacity }

def System.destroyState (s : System) (pool : PoolId) : System :=
  { s with pools := s.pools.modify pool fun record => { record with state := none } }

/-- The state of a pool without handles and leases is destroyed with its free blocks. -/
def System.collect (s : System) (pool : PoolId) : System :=
  if s.pools[pool]?.all (·.handles = 0) && s.leases.all (·.state ≠ some pool) then
    s.destroyState pool
  else s

/-- `BufferLease::release` of a lease object. -/
def System.release (s : System) (index : Nat) (grows : Bool) : System :=
  match s.leases[index]? with
  | none => s
  | some lease =>
      match lease.state with
      | none => s.setLease index {}
      | some pool =>
          let returned :=
            match lease.pointer, s.poolState pool with
            | some pointer, some state =>
                s.setPoolState pool (state.returnBlock ⟨pointer, lease.capacity⟩ grows)
            | _, _ => s
          (returned.setLease index {}).collect pool

/-- What a program may do with pools and leases. -/
inductive Step where
  | createPool (capacityBytes : Nat)
  | copyPool (pool : PoolId)
  | destroyPool (pool : PoolId)
  | acquire (pool : PoolId) (bytes : Nat) (allocate : Result Address)
  | defaultLease
  | moveLease (source : Nat)
  | assignLease (target source : Nat) (grows : Bool)
  | releaseLease (lease : Nat) (grows : Bool)
  deriving Repr

/-- One step, with the answer of `acquire`. -/
def step (s : System) : Step → Option (Result BufferLease) × System
  | .createPool capacityBytes =>
      (none, { s with pools := s.pools ++ [⟨1, some { capacityBytes }⟩] })
  | .copyPool pool =>
      (none, { s with pools := s.pools.modify pool fun record =>
        if record.handles = 0 then record else { record with handles := record.handles + 1 } })
  | .destroyPool pool =>
      (none, System.collect { s with pools := s.pools.modify pool fun record =>
        { record with handles := record.handles - 1 } } pool)
  | .acquire pool bytes allocate =>
      match s.pools[pool]? with
      | some ⟨_ + 1, some state⟩ =>
          match state.acquire pool bytes allocate with
          | .error e => (some (.error e), s)
          | .ok (lease, state') => (some (.ok lease), (s.setPoolState pool state').addLease lease)
      | _ => (none, s)
  | .defaultLease => (none, s.addLease {})
  | .moveLease source =>
      match s.leases[source]? with
      | none => (none, s)
      | some lease => (none, (s.setLease source {}).addLease lease)
  | .assignLease target source grows =>
      match s.leases[target]?, s.leases[source]? with
      | some _, some lease =>
          if target = source then (none, s)
          else (none, ((s.release target grows).setLease target lease).setLease source {})
      | _, _ => (none, s)
  | .releaseLease lease grows => (none, s.release lease grows)

end Operations

end Nvcr.Memory
