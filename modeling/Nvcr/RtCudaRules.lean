import Nvcr.RtCudaLaunches

/-!
# Rules for the device transforms

What one access of a kernel needs and gives, and when a launched grid agrees with a transform of
the host.
-/

namespace Nvcr.Rt.CudaOps

open KernelThreads KernelThreads.Thread

variable {A : HostArithmetic}

theorem blocks_eq {count : ℕ} (hmax : count ≤ 2 ^ 31) : blocks count = (count + 255) / 256 := by
  rw [blocks, HostOps.wrapSize, threadsPerBlock]
  rw [Nat.mod_eq_of_lt (by omega)]
  rfl

/-- A grid of a moderate count is launched with a thread for every index below it. -/
theorem launch_eq_ok {count : ℕ} (hpos : 0 < count) (hmax : count ≤ 2 ^ 31)
    (kernel : ℕ → DeviceThread A Unit) :
    ∃ n, count ≤ n ∧ launch count kernel = .ok ((List.range n).map kernel) := by
  have hblocks := blocks_eq hmax
  have hsmall : blocks count % 2 ^ 32 = blocks count := Nat.mod_eq_of_lt (by omega)
  refine ⟨blocks count * threadsPerBlock, ?_, ?_⟩
  · rw [hblocks, threadsPerBlock]
    omega
  · simp only [launch, hsmall]
    rw [if_neg (by omega), NestedLoops.flatMap_range_map_range]
    congr 1
    apply List.map_congr_left
    intro k _
    rw [Nat.div_add_mod']

section Accesses

variable {readable writable : Buffer → ℕ → Prop} {m : DeviceMemory A} {α : Type}
  {post : α → DeviceMemory A → Prop} {done : Unit → DeviceMemory A → Prop}

theorem half_cell {address index : ℕ} (h : index < (halves m address).length) :
    (m (half address))[index]? = some ((halves m address).getD index 0) := by
  have hcell : (halves m address)[index]? = some ((halves m address).getD index 0) := by simp [h]
  exact hcell

theorem byte_cell {address index : ℕ} (h : index < (bytes m address).length) :
    (m (byte address))[index]? = some ((bytes m address).getD index 0) := by
  have hcell : (bytes m address)[index]? = some ((bytes m address).getD index 0) := by simp [h]
  exact hcell

theorem int8_cell {address index : ℕ} (h : index < (int8s m address).length) :
    (m (int8 address))[index]? = some ((int8s m address).getD index 0) := by
  have hcell : (int8s m address)[index]? = some ((int8s m address).getD index 0) := by simp [h]
  exact hcell

theorem runs_readHalf {address index : ℕ} {x : A.Half} {k : A.Half → DeviceThread A α}
    (hread : readable (half address) index) (hx : (m (half address))[index]? = some x)
    (h : (k x).Runs readable writable post m) :
    (readHalf address index >>= k).Runs readable writable post m :=
  runs_bind (runs_read hread hx h)

theorem runs_loadHalf {address index : ℕ} {x : A.Half} {k : A.Float → DeviceThread A α}
    (hread : readable (half address) index) (hx : (m (half address))[index]? = some x)
    (h : (k (A.toFloat x)).Runs readable writable post m) :
    (loadHalf address index >>= k).Runs readable writable post m :=
  runs_bind (runs_bind (runs_read hread hx h))

theorem runs_readByte {address index : ℕ} {x : UInt8} {k : UInt8 → DeviceThread A α}
    (hread : readable (byte address) index) (hx : (m (byte address))[index]? = some x)
    (h : (k x).Runs readable writable post m) :
    (readByte address index >>= k).Runs readable writable post m :=
  runs_bind (runs_read hread hx h)

theorem runs_readInt8 {address index : ℕ} {x : Int8} {k : Int8 → DeviceThread A α}
    (hread : readable (int8 address) index) (hx : (m (int8 address))[index]? = some x)
    (h : (k x).Runs readable writable post m) :
    (readInt8 address index >>= k).Runs readable writable post m :=
  runs_bind (runs_read hread hx h)

theorem runs_writeHalf {address index : ℕ} {x : A.Half}
    (hwrite : writable (half address) index) (hi : index < (m (half address)).length)
    (h : done () (storeCell m (half address) index x)) :
    (writeHalf address index x).Runs readable writable done m :=
  runs_write hwrite hi h

theorem runs_storeHalf {address index : ℕ} {x : A.Float}
    (hwrite : writable (half address) index) (hi : index < (m (half address)).length)
    (h : done () (storeCell m (half address) index (A.toHalf x))) :
    (storeHalf address index x).Runs readable writable done m :=
  runs_write hwrite hi h

theorem runs_writeByte {address index : ℕ} {x : UInt8}
    (hwrite : writable (byte address) index) (hi : index < (m (byte address)).length)
    (h : done () (storeCell m (byte address) index x)) :
    (writeByte address index x : DeviceThread A Unit).Runs readable writable done m :=
  runs_write hwrite hi h

theorem runs_writeInt8 {address index : ℕ} {x : Int8}
    (hwrite : writable (int8 address) index) (hi : index < (m (int8 address)).length)
    (h : done () (storeCell m (int8 address) index x)) :
    (writeInt8 address index x : DeviceThread A Unit).Runs readable writable done m :=
  runs_write hwrite hi h

theorem runs_writeInt16 {address index : ℕ} {x : Int16}
    (hwrite : writable (int16 address) index) (hi : index < (m (int16 address)).length)
    (h : done () (storeCell m (int16 address) index x)) :
    (writeInt16 address index x : DeviceThread A Unit).Runs readable writable done m :=
  runs_write hwrite hi h

end Accesses

/-- The device refuses the call where the host does, and otherwise every schedule of its grids
leaves what the host leaves. -/
def Agrees (m : DeviceMemory A) (op : Operation A) : Prop :=
  (op.host m = none → op.device = .error .invalidValue) ∧
    ∀ final, op.host m = some final →
      ∃ grids, op.device = .ok grids ∧ LeavesInOrder grids m final

section Grids

variable {m final : DeviceMemory A} {op : Operation A} {count : ℕ}
  {body : ℕ → DeviceThread A Unit}

theorem agrees_of_refused (hhost : op.host m = none) (hdevice : op.device = .error .invalidValue) :
    Agrees m op := by
  refine ⟨fun _ => hdevice, fun final hfinal => ?_⟩
  rw [hhost] at hfinal
  cases hfinal

theorem guarded_idle (t : ℕ) (h : count ≤ t) : guarded count body t = Thread.pure () := by
  rw [guarded, if_pos h]
  rfl

theorem guarded_of_lt {t : ℕ} (h : t < count) : guarded count body t = body t := by
  rw [guarded, if_neg (by omega)]

theorem agrees_of_leaves (hpos : 0 < count) (hmax : count ≤ 2 ^ 31)
    (hdevice : op.device = do return [← launch count (guarded count body)])
    (hhost : op.host m = some final)
    (hleaves : ∀ n, count ≤ n → Leaves ((List.range n).map (guarded count body)) m final) :
    Agrees m op := by
  refine ⟨fun hnone => ?_, fun final' hfinal => ?_⟩
  · rw [hhost] at hnone
    cases hnone
  · obtain rfl : final = final' := Option.some.inj (hhost.symm.trans hfinal)
    obtain ⟨n, hn, hlaunch⟩ := launch_eq_ok hpos hmax (guarded count body)
    refine ⟨[(List.range n).map (guarded count body)], by rw [hdevice, hlaunch]; rfl, ?_⟩
    exact LeavesInOrder.cons (hleaves n hn) (LeavesInOrder.nil final)

/-- One grid whose threads have planes of cells at the front of their buffers. -/
theorem agrees_of_planes (planes : Buffer → ℕ) (hpos : 0 < count) (hmax : count ≤ 2 ^ 31)
    (hdevice : op.device = do return [← launch count (guarded count body)])
    (hhost : op.host m = some final)
    (hkept : ∀ b i, planes b * count ≤ i → (final b)[i]? = (m b)[i]?)
    (hruns : ∀ t < count, (body t).Runs (Readable (planeOwner (fun _ => 0) planes count) t)
      (Owns (planeOwner (fun _ => 0) planes count) t)
      (fun _ m' => ∀ b plane, plane < planes b →
        (m' b)[plane * count + t]? = (final b)[plane * count + t]?) m) :
    Agrees m op := by
  apply agrees_of_leaves hpos hmax hdevice hhost
  intro n hn
  apply leaves_of_planes (fun _ => 0) planes hn guarded_idle
  · intro b i hi
    apply hkept
    omega
  · intro t ht
    rw [guarded_of_lt ht]
    simpa only [Nat.zero_add] using hruns t ht

variable {out : Buffer} {planes t : ℕ}

/-- One buffer is stored to. -/
def only (out : Buffer) (planes : ℕ) (b : Buffer) : ℕ := if b = out then planes else 0

abbrev Sees (planes : Buffer → ℕ) (count t : ℕ) := Readable (planeOwner (fun _ => 0) planes count) t

abbrev Has (planes : Buffer → ℕ) (count t : ℕ) := Owns (planeOwner (fun _ => 0) planes count) t

theorem sees_free {planes : Buffer → ℕ} {b : Buffer} (h : planes b = 0) (i : ℕ) :
    Sees planes count t b i := by
  left
  rw [planeOwner, if_neg]
  rw [h]
  omega

theorem has_cell {planes : Buffer → ℕ} {b : Buffer} {plane : ℕ} (h : plane < planes b)
    (ht : t < count) : Has planes count t b (plane * count + t) := by
  have hcell : planeOwner (fun _ => 0) planes count b (0 + (plane * count + t)) = some t :=
    planeOwner_cell h ht
  rwa [Nat.zero_add] at hcell

theorem sees_of_has {planes : Buffer → ℕ} {b : Buffer} {i : ℕ} (h : Has planes count t b i) :
    Sees planes count t b i :=
  Or.inr h

theorem has_first {planes : Buffer → ℕ} {b : Buffer} (h : 0 < planes b) (ht : t < count) :
    Has planes count t b t := by
  have hcell := has_cell h ht
  rwa [Nat.zero_mul, Nat.zero_add] at hcell

theorem only_self : only out planes out = planes := if_pos rfl

theorem only_of_ne {b : Buffer} (h : b ≠ out) : only out planes b = 0 := if_neg h

/-- One grid that stores to one buffer. -/
theorem leaves_of_output {n : ℕ} (out : Buffer) (planes : ℕ) (stored : List (Cell A out))
    (hn : count ≤ n) (hlen : stored.length = planes * count)
    (hruns : ∀ t < count, (body t).Runs (Sees (only out planes) count t)
      (Has (only out planes) count t)
      (fun _ m' => ∀ plane < planes,
        (m' out)[plane * count + t]? = stored[plane * count + t]?) m) :
    Leaves ((List.range n).map (guarded count body)) m (fill m out stored) := by
  apply leaves_of_planes (fun _ => 0) (only out planes) hn guarded_idle
  · intro b i hi
    by_cases hb : b = out
    · subst hb
      rw [only_self, Nat.zero_add, ← hlen] at hi
      exact fill_rest m (by omega)
    · rw [fill_of_ne m stored hb]
  · intro t ht
    rw [guarded_of_lt ht]
    simp only [Nat.zero_add]
    apply (hruns t ht).mono
    intro _ m' hm' b plane hplane
    by_cases hb : b = out
    · subst hb
      rw [only_self] at hplane
      rw [fill_cell m (hlen ▸ plane_lt hplane ht)]
      exact hm' plane hplane
    · rw [only_of_ne hb] at hplane
      omega

theorem agrees_of_output (out : Buffer) (planes : ℕ) (stored : List (Cell A out)) (hpos : 0 < count)
    (hmax : count ≤ 2 ^ 31) (hdevice : op.device = do return [← launch count (guarded count body)])
    (hhost : op.host m = some (fill m out stored)) (hlen : stored.length = planes * count)
    (hruns : ∀ t < count, (body t).Runs (Sees (only out planes) count t)
      (Has (only out planes) count t)
      (fun _ m' => ∀ plane < planes,
        (m' out)[plane * count + t]? = stored[plane * count + t]?) m) :
    Agrees m op :=
  agrees_of_leaves hpos hmax hdevice hhost fun _ hn =>
    leaves_of_output out planes stored hn hlen hruns

/-- The one plane of a buffer is settled by a store. -/
theorem settled_first {out : Buffer} {stored : List (Cell A out)} {x : Cell A out}
    (hlen : t < (m out).length) (hx : stored[t]? = some x) :
    ∀ plane < 1, (storeCell m out t x out)[plane * count + t]? =
      stored[plane * count + t]? := by
  intro plane hplane
  obtain rfl : plane = 0 := by omega
  rw [Nat.zero_mul, Nat.zero_add, storeCell_self x hlen, hx]

end Grids

end Nvcr.Rt.CudaOps
