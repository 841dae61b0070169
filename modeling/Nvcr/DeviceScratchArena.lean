import Mathlib.Data.UInt
import Nvcr.Frames
import Nvcr.StatefulResults
import Nvcr.TransitionRuns

/-!
# The device scratch arena

One block of device memory with a workspace at its front and allocations behind it. All sizes are
64-bit numbers and rounding up to the alignment may wrap, which the comparisons do not see.
-/

namespace Nvcr.Provider

open StatefulResults StatefulResults.Action TransitionRuns

section Alignment

/-- Rounding up to a multiple of 256 in 64-bit arithmetic. -/
def alignUp (bytes : UInt64) : UInt64 := (bytes + 256 - 1) &&& ~~~(256 - 1)

theorem and_not_low (n : ℕ) (h : n < 2 ^ 64) : n &&& (2 ^ 64 - 256) = n / 256 * 256 := by
  apply Nat.eq_of_testBit_eq
  intro i
  have hmask : (2 ^ 64 - 256 : ℕ) = (2 ^ 56 - 1) <<< 8 := by rw [Nat.shiftLeft_eq]; norm_num
  have hshift : n / 256 * 256 = (n >>> 8) <<< 8 := by
    rw [Nat.shiftRight_eq_div_pow, Nat.shiftLeft_eq]
  rw [hmask, hshift, Nat.testBit_and, Nat.testBit_shiftLeft, Nat.testBit_shiftLeft,
    Nat.testBit_two_pow_sub_one, Nat.testBit_shiftRight]
  by_cases hlow : 8 ≤ i
  · by_cases hhigh : i - 8 < 56
    · simp [hlow, hhigh]
    · have hbit : n.testBit i = false :=
        Nat.testBit_lt_two_pow (h.trans_le (Nat.pow_le_pow_right (by decide) (by omega)))
      have hindex : 8 + (i - 8) = i := by omega
      simp [hlow, hhigh, hindex, hbit]
  · simp [hlow]

/-- Below the limit the result is the least multiple that is not smaller. -/
theorem alignUp_toNat {bytes : UInt64} (h : bytes.toNat + 255 < 2 ^ 64) :
    (alignUp bytes).toNat = (bytes.toNat + 255) / 256 * 256 := by
  have hsum : (bytes + 256 - 1).toNat = bytes.toNat + 255 := by
    have hone : (1 : UInt64).toNat = 1 := rfl
    have halignment : (256 : UInt64).toNat = 256 := rfl
    rw [UInt64.toNat_sub, UInt64.toNat_add, hone, halignment]
    omega
  rw [alignUp, UInt64.toNat_and, hsum]
  exact and_not_low _ h

theorem le_alignUp {bytes : UInt64} (h : bytes.toNat + 255 < 2 ^ 64) :
    bytes.toNat ≤ (alignUp bytes).toNat ∧ (alignUp bytes).toNat % 256 = 0 := by
  rw [alignUp_toNat h]
  omega

end Alignment

/-- The arena; `initialized` is false while it holds no memory. -/
structure DeviceScratchArena where
  initialized : Bool
  capacity : UInt64
  reserved : UInt64
  offset : UInt64
  deriving DecidableEq, Repr

/-- An allocation from the arena, relative to its memory. -/
structure Region where
  start : UInt64
  size : UInt64
  deriving DecidableEq, Repr

namespace DeviceScratchArena

def arenaError (message : String) : Error := ⟨.resourceExhausted, message, "provider.tensorrt"⟩

def empty : DeviceScratchArena := ⟨false, 0, 0, 0⟩

/-- `allocated` is the answer of the device allocator. -/
def initializeArena (byteCount : UInt64) (allocated : Result Unit) :
    Action Error DeviceScratchArena Unit := do
  if byteCount = 0 then
    pure ()
  else do
    lift allocated
    update fun _ => ⟨true, byteCount, 0, 0⟩

/-- The workspace begins at the start of the memory. -/
def reserve (bytes : UInt64) : Action Error DeviceScratchArena Unit := do
  let arena ← gets id
  let alignedBytes := alignUp bytes
  if arena.initialized = false ∨ alignedBytes > arena.capacity then
    fail (arenaError "device scratch arena cannot reserve TensorRT context workspace")
  else
    update fun arena => { arena with reserved := alignedBytes, offset := alignedBytes }

def reset : Action Error DeviceScratchArena Unit :=
  update fun arena => { arena with offset := arena.reserved }

def allocate (bytes : UInt64) : Action Error DeviceScratchArena Region := do
  let arena ← gets id
  let aligned := alignUp arena.offset
  if arena.initialized = false ∨ bytes > arena.capacity ∨ aligned > arena.capacity - bytes then
    fail (arenaError "device scratch arena capacity exceeded")
  else do
    update fun arena => { arena with offset := aligned + bytes }
    pure ⟨aligned, bytes⟩

end DeviceScratchArena

/-- The calls that a session makes on an initialized arena. -/
inductive ArenaCall where
  | reserve (bytes : UInt64)
  | reset
  | allocate (bytes : UInt64)
  deriving DecidableEq, Repr

/-- An arena with the size asked of its workspace and the allocations since the last reserve or
reset, latest first. -/
structure ArenaLedger where
  arena : DeviceScratchArena
  requested : UInt64
  live : List Region
  deriving DecidableEq, Repr

namespace ArenaLedger

/-- A new arena with the answer of the device allocator for its memory. -/
def start (capacity : UInt64) (allocated : Result Unit) : ArenaLedger :=
  ⟨(run (DeviceScratchArena.initializeArena capacity allocated) .empty).2, 0, []⟩

def step (ledger : ArenaLedger) : ArenaCall → Result Unit × ArenaLedger
  | .reserve bytes =>
      match run (DeviceScratchArena.reserve bytes) ledger.arena with
      | (.ok (), arena) => (.ok (), ⟨arena, bytes, []⟩)
      | (.error e, arena) => (.error e, { ledger with arena })
  | .reset =>
      let (answer, arena) := run DeviceScratchArena.reset ledger.arena
      (answer, { ledger with arena, live := [] })
  | .allocate bytes =>
      match run (DeviceScratchArena.allocate bytes) ledger.arena with
      | (.ok region, arena) => (.ok (), { ledger with arena, live := region :: ledger.live })
      | (.error e, arena) => (.error e, { ledger with arena })

/-- Rounding up does not wrap in this call. -/
def NoWrap (ledger : ArenaLedger) : ArenaCall → Prop
  | .reserve bytes => bytes.toNat + 255 < 2 ^ 64
  | .reset => True
  | .allocate _ => ledger.arena.offset.toNat + 255 < 2 ^ 64

instance (ledger : ArenaLedger) : (call : ArenaCall) → Decidable (NoWrap ledger call)
  | .reserve bytes => inferInstanceAs (Decidable (bytes.toNat + 255 < 2 ^ 64))
  | .reset => .isTrue trivial
  | .allocate _ => inferInstanceAs (Decidable (ledger.arena.offset.toNat + 255 < 2 ^ 64))

/-- The end of a region. -/
def finish (region : Region) : ℕ := region.start.toNat + region.size.toNat

/-- The workspace has its size and is inside the arena; the live allocations are aligned, behind
the workspace, inside the capacity, and each behind those made before it. -/
structure Safe (ledger : ArenaLedger) : Prop where
  workspace : ledger.requested.toNat ≤ ledger.arena.reserved.toNat
  reserved : ledger.arena.reserved.toNat ≤ ledger.arena.capacity.toNat
  offset : ledger.arena.reserved.toNat ≤ ledger.arena.offset.toNat
  bounded : ledger.arena.offset.toNat ≤ ledger.arena.capacity.toNat
  aligned : ∀ region ∈ ledger.live, region.start.toNat % 256 = 0
  behind : ∀ region ∈ ledger.live, ledger.arena.reserved.toNat ≤ region.start.toNat
  inside : ∀ region ∈ ledger.live, finish region ≤ ledger.arena.offset.toNat
  disjoint : ledger.live.Pairwise fun later earlier => finish earlier ≤ later.start.toNat

end ArenaLedger

namespace DeviceScratchArena

theorem run_reserve (bytes : UInt64) (arena : DeviceScratchArena) :
    run (reserve bytes) arena =
      if arena.initialized = false ∨ alignUp bytes > arena.capacity then
        (.error (arenaError "device scratch arena cannot reserve TensorRT context workspace"), arena)
      else
        (.ok (), { arena with reserved := alignUp bytes, offset := alignUp bytes }) := by
  simp only [reserve, run_bind, run_gets, id]
  split <;> rfl

theorem run_allocate (bytes : UInt64) (arena : DeviceScratchArena) :
    run (allocate bytes) arena =
      if arena.initialized = false ∨ bytes > arena.capacity ∨
          alignUp arena.offset > arena.capacity - bytes then
        (.error (arenaError "device scratch arena capacity exceeded"), arena)
      else
        (.ok ⟨alignUp arena.offset, bytes⟩, { arena with offset := alignUp arena.offset + bytes }) := by
  simp only [allocate, run_bind, run_gets, id]
  split <;> rfl

/-- The room that the comparison of `allocate` leaves is exact. -/
theorem room_of_le {capacity bytes aligned : UInt64} (hbytes : ¬ bytes > capacity)
    (haligned : ¬ aligned > capacity - bytes) :
    aligned.toNat + bytes.toNat ≤ capacity.toNat ∧
    (aligned + bytes).toNat = aligned.toNat + bytes.toNat := by
  have hle : bytes.toNat ≤ capacity.toNat := UInt64.le_iff_toNat_le.mp (UInt64.not_lt.mp hbytes)
  have hroom : aligned.toNat ≤ (capacity - bytes).toNat :=
    UInt64.le_iff_toNat_le.mp (UInt64.not_lt.mp haligned)
  rw [UInt64.toNat_sub_of_le _ _ (UInt64.le_iff_toNat_le.mpr hle)] at hroom
  have hcapacity := capacity.toNat_lt
  refine ⟨by omega, ?_⟩
  rw [UInt64.toNat_add]
  omega

end DeviceScratchArena

namespace ArenaLedger

open DeviceScratchArena

/-- A failing call leaves the ledger as it was. -/
theorem step_error {ledger : ArenaLedger} {call : ArenaCall} {e : Error}
    (h : (step ledger call).1 = .error e) : (step ledger call).2 = ledger := by
  cases call with
  | reserve bytes =>
      simp only [step, run_reserve] at h ⊢
      by_cases hrejected : ledger.arena.initialized = false ∨ alignUp bytes > ledger.arena.capacity
      · simp only [hrejected, if_true]
      · simp only [hrejected, if_false, reduceCtorEq] at h
  | reset => simp [step, DeviceScratchArena.reset] at h
  | allocate bytes =>
      simp only [step, run_allocate] at h ⊢
      by_cases hrejected : ledger.arena.initialized = false ∨ bytes > ledger.arena.capacity ∨
          alignUp ledger.arena.offset > ledger.arena.capacity - bytes
      · simp only [hrejected, if_true]
      · simp only [hrejected, if_false, reduceCtorEq] at h

theorem safe_start (capacity : UInt64) (allocated : Result Unit) :
    (start capacity allocated).Safe := by
  have hzero : (0 : UInt64).toNat = 0 := rfl
  have hempty : ∀ initialized : Bool, ∀ size : UInt64,
      Safe ⟨⟨initialized, size, 0, 0⟩, 0, []⟩ := fun initialized size =>
    ⟨le_rfl, by simp [hzero], le_rfl, by simp [hzero], by simp, by simp, by simp, .nil⟩
  unfold start initializeArena
  split
  · exact hempty false 0
  · cases allocated with
    | error e => exact hempty false 0
    | ok _ => exact hempty true capacity

theorem Safe.reserve {ledger : ArenaLedger} (h : ledger.Safe) {bytes : UInt64}
    (hwrap : bytes.toNat + 255 < 2 ^ 64) : (step ledger (.reserve bytes)).2.Safe := by
  simp only [step, run_reserve]
  by_cases hrejected : ledger.arena.initialized = false ∨ alignUp bytes > ledger.arena.capacity
  · simp only [hrejected, if_true]
    exact h
  · simp only [hrejected, if_false]
    have hle : (alignUp bytes).toNat ≤ ledger.arena.capacity.toNat :=
      UInt64.le_iff_toNat_le.mp (UInt64.not_lt.mp fun hlt => hrejected (.inr hlt))
    exact ⟨(le_alignUp hwrap).1, hle, le_rfl, hle, by simp, by simp, by simp, .nil⟩

theorem Safe.allocate {ledger : ArenaLedger} (h : ledger.Safe) {bytes : UInt64}
    (hwrap : ledger.arena.offset.toNat + 255 < 2 ^ 64) :
    (step ledger (.allocate bytes)).2.Safe := by
  simp only [step, run_allocate]
  by_cases hrejected : ledger.arena.initialized = false ∨ bytes > ledger.arena.capacity ∨
      alignUp ledger.arena.offset > ledger.arena.capacity - bytes
  · simp only [hrejected, if_true]
    exact h
  · simp only [hrejected, if_false]
    obtain ⟨hroom, hsum⟩ := room_of_le (fun hlt => hrejected (.inr (.inl hlt)))
      (fun hlt => hrejected (.inr (.inr hlt)))
    obtain ⟨hbehind, haligned⟩ := le_alignUp hwrap
    have hoffset := h.offset
    refine ⟨h.workspace, h.reserved, ?_, ?_, ?_, ?_, ?_, ?_⟩
    · change ledger.arena.reserved.toNat ≤ (alignUp ledger.arena.offset + bytes).toNat
      rw [hsum]
      omega
    · change (alignUp ledger.arena.offset + bytes).toNat ≤ ledger.arena.capacity.toNat
      rw [hsum]
      exact hroom
    · exact List.forall_mem_cons.mpr ⟨haligned, h.aligned⟩
    · exact List.forall_mem_cons.mpr ⟨hoffset.trans hbehind, h.behind⟩
    · change ∀ region ∈ _, finish region ≤ (alignUp ledger.arena.offset + bytes).toNat
      rw [hsum]
      refine List.forall_mem_cons.mpr ⟨le_rfl, fun region hregion => ?_⟩
      have hinside := h.inside region hregion
      omega
    · refine List.pairwise_cons.mpr ⟨fun region hregion => ?_, h.disjoint⟩
      exact (h.inside region hregion).trans hbehind

/-- A call in which rounding does not wrap keeps the arena safe. -/
theorem safe_step (ledger : ArenaLedger) (call : ArenaCall) (h : ledger.Safe)
    (hwrap : NoWrap ledger call) : (step ledger call).2.Safe := by
  cases call with
  | reserve bytes => exact h.reserve hwrap
  | reset =>
      exact ⟨h.workspace, h.reserved, le_rfl, h.reserved, by simp [step], by simp [step],
        by simp [step], .nil⟩
  | allocate bytes => exact h.allocate hwrap

/-- In every run in which rounding does not wrap, the workspace and the allocations are safe in
every state reached, and no failing call changes anything. -/
theorem arena_safe (capacity : UInt64) (allocated : Result Unit) (calls : List ArenaCall)
    (h : Along NoWrap step (start capacity allocated) calls) :
    Safe (final step (start capacity allocated) calls) ∧
    Along (fun ledger call => ∀ e, (step ledger call).1 = .error e → (step ledger call).2 = ledger)
      step (start capacity allocated) calls :=
  ⟨invariant_of_along safe_step (safe_start capacity allocated) h,
    h.mono fun _ _ _ _ herror => step_error herror⟩

/-- A workspace, two allocations, and one that does not fit. -/
theorem small_arena_safe :
    Safe (final step (start 2048 (.ok ()))
      [.reserve 300, .allocate 100, .allocate 700, .allocate 600]) ∧
    Along (fun ledger call => ∀ e, (step ledger call).1 = .error e → (step ledger call).2 = ledger)
      step (start 2048 (.ok ())) [.reserve 300, .allocate 100, .allocate 700, .allocate 600] :=
  arena_safe 2048 (.ok ()) [.reserve 300, .allocate 100, .allocate 700, .allocate 600]
    (by decide +kernel)

/-- A request for almost 2 ^ 64 bytes is rounded to zero and granted. -/
theorem huge_workspace_granted :
    (step (start 1024 (.ok ())) (.reserve (2 ^ 64 - 1))).1 = .ok () ∧
    (step (start 1024 (.ok ())) (.reserve (2 ^ 64 - 1))).2.arena.reserved = 0 ∧
    ¬ Safe (final step (start 1024 (.ok ())) [.reserve (2 ^ 64 - 1)]) := by
  refine ⟨by decide +kernel, by decide +kernel, fun h => ?_⟩
  exact absurd h.workspace (by decide +kernel)

end ArenaLedger

end Nvcr.Provider
