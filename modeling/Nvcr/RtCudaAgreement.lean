import Nvcr.RowMajorIndices
import Nvcr.RtCudaRules

/-!
# The device transforms agree with the host transforms

Transforms whose grid stores to one buffer: every schedule of the grid leaves what the loops of
the host leave.
-/

namespace Nvcr.Rt.CudaOps

open KernelThreads KernelThreads.Thread

variable {A : HostArithmetic} {m : DeviceMemory A} {count t : ℕ}

section Spans

variable {α β : Type} {xs : List α} {d : α}

theorem take_getD (h : t < count) : (xs.take count).getD t d = xs.getD t d := by
  rw [List.getD_eq_getElem?_getD, List.getD_eq_getElem?_getD, List.getElem?_take_of_lt h]

theorem take_cell (d : α) (h : t < count) (hlen : count ≤ xs.length) :
    (xs.take count)[t]? = some (xs.getD t d) := by
  have ht : t < xs.length := by omega
  rw [List.getElem?_take_of_lt h]
  simp [ht]

theorem range_cell {f : ℕ → β} (h : t < count) : ((List.range count).map f)[t]? = some (f t) := by
  simp [h]

theorem take_isEmpty (hpos : 0 < count) (hlen : count ≤ xs.length) :
    (xs.take count).isEmpty = false := by
  rw [List.isEmpty_eq_false_iff]
  intro hnil
  have hzero : (xs.take count).length = 0 := by rw [hnil]; rfl
  rw [List.length_take] at hzero
  omega

theorem take_length (hlen : count ≤ xs.length) : (xs.take count).length = count := by
  rw [List.length_take]
  omega

end Spans

variable {out : Buffer} {planes : ℕ}

theorem has_only (h : t < count) : Has (only out 1) count t out t :=
  has_first (by rw [only_self]; omega) h

theorem has_only_cell {plane : ℕ} (hplane : plane < planes) (h : t < count) :
    Has (only out planes) count t out (plane * count + t) :=
  has_cell (by rwa [only_self]) h

theorem sees_only {b : Buffer} (h : b ≠ out) (i : ℕ) : Sees (only out planes) count t b i :=
  sees_free (only_of_ne h) i

theorem half_ne {a b : ℕ} (h : a ≠ b) : half a ≠ half b := fun heq => h (Buffer.mk.inj heq).2

theorem agrees_clampMin {values : ℕ} {minimum : A.Float}
    (h : Operation.Fits m (.clampMin values count minimum)) :
    Agrees m (.clampMin values count minimum) := by
  obtain ⟨hmax, hlen⟩ := h
  rcases Nat.eq_zero_or_pos count with rfl | hpos
  · exact agrees_of_refused (by simp [Operation.host, HostOps.clampMin]) rfl
  refine agrees_of_output (half values) 1
    (((halves m values).take count).map (HostOps.clampStep minimum)) hpos hmax
    (by rw [Operation.device, clampMin, if_neg hpos.ne']; rfl)
    (by simp only [Operation.host, HostOps.clampMin, take_isEmpty hpos hlen]; rfl)
    (by rw [List.length_map, take_length hlen, Nat.one_mul]) fun t ht => ?_
  apply runs_loadHalf (sees_of_has (has_only ht)) (half_cell (ht.trans_le hlen))
  apply runs_storeHalf (has_only ht) (ht.trans_le hlen)
  apply settled_first (ht.trans_le hlen)
  rw [List.getElem?_map, take_cell 0 ht hlen]
  rfl

theorem agrees_int8ToHalf {values output : ℕ}
    (h : Operation.Fits m (.int8ToHalf values output count)) :
    Agrees m (.int8ToHalf values output count) := by
  obtain ⟨hmax, hvalues, hlen⟩ := h
  rcases Nat.eq_zero_or_pos count with rfl | hpos
  · exact agrees_of_refused (by simp [Operation.host, HostOps.int8ToHalf]) rfl
  refine agrees_of_output (half output) 1
    (((int8s m values).take count).map HostOps.halfOfInt8) hpos hmax
    (by rw [Operation.device, int8ToHalf, if_neg hpos.ne']; rfl) ?_
    (by rw [List.length_map, take_length hvalues, Nat.one_mul]) fun t ht => ?_
  · rw [Operation.host, HostOps.int8ToHalf, take_isEmpty hpos hvalues, take_length hvalues,
      if_neg (by simp; omega)]
    rfl
  · apply runs_readInt8 (sees_only (by simp) _) (int8_cell (ht.trans_le hvalues))
    apply runs_writeHalf (has_only ht) (ht.trans_le hlen)
    apply settled_first (ht.trans_le hlen)
    rw [List.getElem?_map, take_cell 0 ht hvalues]
    rfl

theorem agrees_addInPlace {first second : ℕ}
    (h : Operation.Fits m (.addInPlace first second count)) :
    Agrees m (.addInPlace first second count) := by
  obtain ⟨hne, hmax, hfirst, hsecond⟩ := h
  rcases Nat.eq_zero_or_pos count with rfl | hpos
  · exact agrees_of_refused (by simp [Operation.host, HostOps.addInPlace]) rfl
  refine agrees_of_output (half first) 1
    ((List.range count).map fun index => A.toHalf
      (HostOps.load ((halves m first).take count) index + HostOps.load (halves m second) index))
    hpos hmax (by rw [Operation.device, addInPlace, if_neg hpos.ne']; rfl) ?_
    (by rw [List.length_map, List.length_range, Nat.one_mul]) fun t ht => ?_
  · rw [Operation.host, HostOps.addInPlace, take_isEmpty hpos hfirst, take_length hfirst,
      if_neg (by simp; omega)]
    rfl
  · apply runs_loadHalf (sees_of_has (has_only ht)) (half_cell (ht.trans_le hfirst))
    apply runs_loadHalf (sees_only (half_ne hne.symm) _) (half_cell (ht.trans_le hsecond))
    apply runs_storeHalf (has_only ht) (ht.trans_le hfirst)
    apply settled_first (ht.trans_le hfirst)
    rw [range_cell ht, HostOps.load, take_getD ht]
    rfl

theorem agrees_addAndMultiply {first second quantStep : ℕ}
    (h : Operation.Fits m (.addAndMultiply first second quantStep count)) :
    Agrees m (.addAndMultiply first second quantStep count) := by
  obtain ⟨hne, hneQuant, hmax, hfirst, hsecond, hquant⟩ := h
  rcases Nat.eq_zero_or_pos count with rfl | hpos
  · exact agrees_of_refused (by simp [Operation.host, HostOps.addAndMultiply]) rfl
  refine agrees_of_output (half first) 1
    ((List.range count).map fun index => A.toHalf (A.toFloat (A.toHalf
      (HostOps.load ((halves m first).take count) index + HostOps.load (halves m second) index)) *
        HostOps.load (halves m quantStep) index))
    hpos hmax (by rw [Operation.device, addAndMultiply, if_neg hpos.ne']; rfl) ?_
    (by rw [List.length_map, List.length_range, Nat.one_mul]) fun t ht => ?_
  · rw [Operation.host, HostOps.addAndMultiply, take_isEmpty hpos hfirst, take_length hfirst,
      if_neg (by simp; omega)]
    rfl
  · apply runs_loadHalf (sees_of_has (has_only ht)) (half_cell (ht.trans_le hfirst))
    apply runs_loadHalf (sees_only (half_ne hne.symm) _) (half_cell (ht.trans_le hsecond))
    apply runs_loadHalf (sees_only (half_ne hneQuant.symm) _) (half_cell (ht.trans_le hquant))
    apply runs_storeHalf (has_only ht) (ht.trans_le hfirst)
    apply settled_first (ht.trans_le hfirst)
    rw [range_cell ht, HostOps.load, take_getD ht]
    rfl

theorem agrees_multiplyBroadcastInPlace {values factors spatialCount : ℕ} {channels : ℤ}
    (h : Operation.Fits m (.multiplyBroadcastInPlace values factors spatialCount channels)) :
    Agrees m (.multiplyBroadcastInPlace values factors spatialCount channels) := by
  obtain ⟨hne, hmax, hvalues, hfactors⟩ := h
  by_cases hbad : spatialCount = 0 ∨ channels ≤ 0
  · apply agrees_of_refused
    · rw [Operation.host, HostOps.multiplyBroadcastInPlace, if_pos (by tauto)]
      rfl
    · rw [Operation.device, multiplyBroadcastInPlace, if_pos hbad]
  obtain ⟨hspatial, hchannels⟩ : 0 < spatialCount ∧ 0 < channels.toNat := by omega
  have hwrap : HostOps.wrapSize (spatialCount * channels.toNat) = spatialCount * channels.toNat :=
    Nat.mod_eq_of_lt (by omega)
  refine agrees_of_output (half values) 1
    ((List.range (spatialCount * channels.toNat)).map fun index => A.toHalf
      (HostOps.load (halves m values) index *
        HostOps.load (halves m factors) (index % spatialCount)))
    (Nat.mul_pos hspatial hchannels) hmax
    (by rw [Operation.device, multiplyBroadcastInPlace, if_neg hbad]; simp only [hwrap]; rfl) ?_
    (by rw [List.length_map, List.length_range, Nat.one_mul]) fun t ht => ?_
  · rw [Operation.host, HostOps.multiplyBroadcastInPlace, if_neg (by omega)]
    simp only [hwrap]
    rw [if_neg (by omega)]
    exact congrArg some (fill_append_drop m (half values) _ (by simp))
  · have hmod : t % spatialCount < spatialCount := Nat.mod_lt _ hspatial
    have hchannel : ¬ channels.toNat ≤ t / spatialCount :=
      not_le.mpr ((Nat.div_lt_iff_lt_mul hspatial).mpr (by rwa [Nat.mul_comm]))
    simp only [hchannel, if_false]
    apply runs_loadHalf (sees_of_has (has_only ht)) (half_cell (ht.trans_le hvalues))
    apply runs_loadHalf (sees_only (half_ne hne.symm) _) (half_cell (hmod.trans_le hfactors))
    apply runs_storeHalf (has_only ht) (ht.trans_le hvalues)
    apply settled_first (ht.trans_le hvalues)
    rw [range_cell ht]
    rfl

theorem agrees_buildDecodeIndexes {scales output : ℕ} {forceZeroThreshold : A.Float}
    (h : Operation.Fits m (.buildDecodeIndexes scales output count forceZeroThreshold)) :
    Agrees m (.buildDecodeIndexes scales output count forceZeroThreshold) := by
  obtain ⟨hmax, hscales, hlen⟩ := h
  rcases Nat.eq_zero_or_pos count with rfl | hpos
  · exact agrees_of_refused (by simp [Operation.host, HostOps.buildDecodeIndexes]) rfl
  refine agrees_of_output (byte output) 1
    ((List.range count).map fun index =>
      let scale := HostOps.load (halves m scales) index
      if HostOps.forcedToZero forceZeroThreshold scale then 0 else HostOps.scaleIndex scale)
    hpos hmax (by rw [Operation.device, buildDecodeIndexes, if_neg hpos.ne']; rfl) ?_
    (by rw [List.length_map, List.length_range, Nat.one_mul]) fun t ht => ?_
  · rw [Operation.host, HostOps.buildDecodeIndexes, take_length hlen, if_neg (by omega)]
    rfl
  · apply runs_loadHalf (sees_only (by simp) _) (half_cell (ht.trans_le hscales))
    apply runs_writeByte (has_only ht) (ht.trans_le hlen)
    apply settled_first (ht.trans_le hlen)
    rw [range_cell ht]
    rfl

theorem encodeIndex_eq (symbol : Int16) (index : UInt8) :
    encodeIndex symbol index = HostOps.combineIndex symbol index := by
  have hindex : index.toNat < 2 ^ 8 := UInt8.toNat_lt index
  rw [encodeIndex, ← Nat.shiftLeft_add_eq_or_of_lt hindex, Nat.shiftLeft_eq, HostOps.combineIndex]
  apply Int16.toBitVec_inj.mp
  apply BitVec.eq_of_toNat_eq
  have hint := BitVec.toInt_eq_toNat_cond symbol.toBitVec
  have htoInt : symbol.toInt = symbol.toBitVec.toInt := rfl
  have htoNat : symbol.toUInt16.toNat = symbol.toBitVec.toNat := rfl
  rw [Int16.toBitVec_ofNat', Int16.toBitVec_ofInt, BitVec.toNat_ofNat, BitVec.toNat_ofInt, htoInt,
    htoNat, hint]
  have hlt := symbol.toBitVec.isLt
  split <;> omega

theorem agrees_buildEncodeIndexes {symbols scales output : ℕ} {forceZeroThreshold : A.Float}
    (h : Operation.Fits m (.buildEncodeIndexes symbols scales output count forceZeroThreshold)) :
    Agrees m (.buildEncodeIndexes symbols scales output count forceZeroThreshold) := by
  obtain ⟨hmax, hsymbols, hscales, hlen⟩ := h
  rcases Nat.eq_zero_or_pos count with rfl | hpos
  · exact agrees_of_refused (by simp [Operation.host, HostOps.buildEncodeIndexes]) rfl
  refine agrees_of_output (int16 output) 1
    ((List.range count).map fun index =>
      let scale := HostOps.load (halves m scales) index
      if HostOps.forcedToZero forceZeroThreshold scale then 0
      else HostOps.combineIndex (Int16.ofInt (A.truncate (HostOps.load (halves m symbols) index)))
        (HostOps.scaleIndex scale))
    hpos hmax (by rw [Operation.device, buildEncodeIndexes, if_neg hpos.ne']; rfl) ?_
    (by rw [List.length_map, List.length_range, Nat.one_mul]) fun t ht => ?_
  · rw [Operation.host, HostOps.buildEncodeIndexes, take_length hlen, if_neg (by omega)]
    rfl
  · apply runs_loadHalf (sees_only (by simp) _) (half_cell (ht.trans_le hscales))
    by_cases hzero : HostOps.forcedToZero forceZeroThreshold (HostOps.load (halves m scales) t)
    · have hkernel := hzero
      rw [HostOps.forcedToZero, HostOps.load] at hkernel
      rw [if_pos hkernel]
      apply runs_writeInt16 (has_only ht) (ht.trans_le hlen)
      apply settled_first (ht.trans_le hlen)
      rw [range_cell ht]
      simp only [hzero, if_true]
    · have hkernel := hzero
      rw [HostOps.forcedToZero, HostOps.load] at hkernel
      rw [if_neg hkernel]
      apply runs_loadHalf (sees_only (by simp) _) (half_cell (ht.trans_le hsymbols))
      apply runs_writeInt16 (has_only ht) (ht.trans_le hlen)
      apply settled_first (ht.trans_le hlen)
      rw [range_cell ht, encodeIndex_eq]
      simp only [hzero]
      rfl

section Shapes

variable {shape : Shape4D}

theorem sides_pos (h : ¬ InvalidShape shape) : 0 < shape.batch.toNat ∧ 0 < shape.channels.toNat ∧
    0 < shape.height.toNat ∧ 0 < shape.width.toNat := by
  rw [InvalidShape] at h
  omega

theorem elements_eq : elements shape =
    shape.batch.toNat * shape.channels.toNat * shape.height.toNat * shape.width.toNat := by
  rw [elements, CudaOps.planes, Nat.mul_assoc (shape.batch.toNat * shape.channels.toNat)]

theorem elements_pos (h : ¬ InvalidShape shape) : 0 < elements shape := by
  obtain ⟨hbatch, hchannels, hheight, hwidth⟩ := sides_pos h
  rw [elements_eq]
  positivity

theorem volume_eq (h : elements shape ≤ 2 ^ 31) : volume shape = elements shape := by
  rw [volume, ← elements_eq]
  exact Nat.mod_eq_of_lt (by omega)

theorem hostVolume_eq (h : elements shape ≤ 2 ^ 31) : HostOps.volume shape = elements shape :=
  volume_eq h

/-- A shape divides into parts of its channels. -/
theorem part_pos {parts : ℕ} (hparts : 0 < parts) (h : ¬ InvalidShape shape)
    (hdvd : shape.channels % parts = 0) : 0 < elements shape / parts := by
  have hchannels : parts ∣ shape.channels.toNat := by
    apply Int.natCast_dvd_natCast.mp
    rw [Int.toNat_of_nonneg (by rw [InvalidShape] at h; omega)]
    exact Int.dvd_of_emod_eq_zero hdvd
  apply Nat.div_pos _ hparts
  apply Nat.le_of_dvd (elements_pos h)
  rw [elements_eq, Nat.mul_assoc]
  exact (hchannels.mul_left _).mul_right _

theorem part_cell {parts part t : ℕ} (hpart : part < parts) (ht : t < elements shape / parts) :
    t + part * (elements shape / parts) < elements shape := by
  have hlt := plane_lt hpart ht
  have hle := Nat.mul_div_le (elements shape) parts
  omega

end Shapes

/-- A mask is filled by flat index. -/
theorem maskLoop_eq (shape : Shape4D) (selected : ℕ → ℕ → ℕ → Bool) :
    (HostOps.maskLoop shape selected : List A.Half) = (List.range (elements shape)).map fun index =>
      HostOps.maskValue (selected (index / shape.width.toNat / shape.height.toNat %
        shape.channels.toNat) (index / shape.width.toNat % shape.height.toNat)
        (index % shape.width.toNat)) := by
  rw [HostOps.maskLoop, NestedLoops.flatMap_range_flatMap_range,
    NestedLoops.flatMap_range_flatMap_range, NestedLoops.flatMap_range_map_range, elements_eq]

theorem agrees_reduceChannelHalves {input output : ℕ} {inputShape : Shape4D}
    (h : Operation.Fits m (.reduceChannelHalves input output inputShape)) :
    Agrees m (.reduceChannelHalves input output inputShape) := by
  obtain ⟨hne, hmax, hinput, hlen⟩ := h
  by_cases hbad : InvalidShape inputShape ∨ inputShape.channels % 2 ≠ 0
  · exact agrees_of_refused (by rw [Operation.host, HostOps.reduceChannelHalves, if_pos (show HostOps.InvalidShape _ ∨ _ from hbad)]; rfl)
      (by rw [Operation.device, reduceChannelHalves, if_pos hbad])
  have hsize : 0 < elements inputShape / 2 := part_pos (by omega) (by tauto) (by tauto)
  refine agrees_of_output (half output) 1
    ((List.range (elements inputShape / 2)).map fun index => A.toHalf
      (HostOps.load (halves m input) index +
        HostOps.load (halves m input) (index + elements inputShape / 2)))
    hsize (by omega)
    (by rw [Operation.device, reduceChannelHalves, if_neg hbad, volume_eq hmax]; rfl) ?_
    (by rw [List.length_map, List.length_range, Nat.one_mul]) fun t ht => ?_
  · rw [Operation.host, HostOps.reduceChannelHalves, if_neg (show ¬ (HostOps.InvalidShape _ ∨ _) from hbad)]
    simp only [hostVolume_eq hmax]
    rw [if_neg (by omega)]
    rfl
  · apply runs_loadHalf (sees_only (half_ne hne) _) (half_cell (by omega))
    apply runs_loadHalf (sees_only (half_ne hne) _) (half_cell (by omega))
    apply runs_storeHalf (has_only ht) (ht.trans_le hlen)
    apply settled_first (ht.trans_le hlen)
    rw [range_cell ht]
    rfl

theorem agrees_reduceMaskedHalves {input mask output : ℕ} {inputShape : Shape4D}
    (h : Operation.Fits m (.reduceMaskedHalves input mask output inputShape)) :
    Agrees m (.reduceMaskedHalves input mask output inputShape) := by
  obtain ⟨hne, hneMask, hmax, hinput, hmask, hlen⟩ := h
  by_cases hbad : InvalidShape inputShape ∨ inputShape.channels % 2 ≠ 0
  · exact agrees_of_refused (by rw [Operation.host, HostOps.reduceMaskedHalves, if_pos (show HostOps.InvalidShape _ ∨ _ from hbad)]; rfl)
      (by rw [Operation.device, reduceMaskedHalves, if_pos hbad])
  have hsize : 0 < elements inputShape / 2 := part_pos (by omega) (by tauto) (by tauto)
  refine agrees_of_output (half output) 1
    ((List.range (elements inputShape / 2)).map fun index => A.toHalf
      (HostOps.load (halves m input) index * HostOps.load (halves m mask) index +
        HostOps.load (halves m input) (index + elements inputShape / 2) *
          HostOps.load (halves m mask) (index + elements inputShape / 2)))
    hsize (by omega)
    (by rw [Operation.device, reduceMaskedHalves, if_neg hbad, volume_eq hmax]; rfl) ?_
    (by rw [List.length_map, List.length_range, Nat.one_mul]) fun t ht => ?_
  · rw [Operation.host, HostOps.reduceMaskedHalves, if_neg (show ¬ (HostOps.InvalidShape _ ∨ _) from hbad)]
    simp only [hostVolume_eq hmax]
    rw [if_neg (by omega)]
    rfl
  · apply runs_loadHalf (sees_only (half_ne hne) _) (half_cell (by omega))
    apply runs_loadHalf (sees_only (half_ne hneMask) _) (half_cell (by omega))
    apply runs_loadHalf (sees_only (half_ne hne) _) (half_cell (by omega))
    apply runs_loadHalf (sees_only (half_ne hneMask) _) (half_cell (by omega))
    apply runs_storeHalf (has_only ht) (ht.trans_le hlen)
    apply settled_first (ht.trans_le hlen)
    rw [range_cell ht]
    rfl

/-- The sum over the quarters is computed by a loop and stored. -/
theorem runs_quarterSum {output n : ℕ} {entry : ℕ → A.Float}
    {body : A.Float → ℕ → DeviceThread A A.Float} (ht : t < n)
    (hlen : n ≤ (halves m output).length)
    (hbody : ∀ value, ∀ quarter < 4, (body value quarter).Runs (Sees (only (half output) 1) n t)
      (Has (only (half output) 1) n t)
      (fun value' m' => value' = value + entry (t + quarter * n) ∧ m' = m) m) :
    ((List.range 4).foldlM body (A.ofRat 0) >>= fun value => storeHalf output t value).Runs
      (Sees (only (half output) 1) n t) (Has (only (half output) 1) n t)
      (fun _ m' => ∀ plane < 1, (m' (half output))[plane * n + t]? =
        ((List.range n).map fun index => A.toHalf (HostOps.quarterSum n entry index))[
          plane * n + t]?) m := by
  apply runs_bind
  apply (runs_foldlM body (fun value quarter => value + entry (t + quarter * n)) _ _
    fun value quarter hquarter => hbody value quarter (List.mem_range.mp hquarter)).mono
  rintro value m' ⟨rfl, rfl⟩
  apply runs_storeHalf (has_only ht) (ht.trans_le hlen)
  apply settled_first (ht.trans_le hlen)
  rw [range_cell ht]
  rfl

theorem agrees_reduceChannelQuarters {input output : ℕ} {inputShape : Shape4D}
    (h : Operation.Fits m (.reduceChannelQuarters input output inputShape)) :
    Agrees m (.reduceChannelQuarters input output inputShape) := by
  obtain ⟨hne, hmax, hinput, hlen⟩ := h
  by_cases hbad : InvalidShape inputShape ∨ inputShape.channels % 4 ≠ 0
  · exact agrees_of_refused
      (by rw [Operation.host, HostOps.reduceChannelQuarters, if_pos (show HostOps.InvalidShape _ ∨ _ from hbad)]; rfl)
      (by rw [Operation.device, reduceChannelQuarters, if_pos hbad])
  have hsize : 0 < elements inputShape / 4 := part_pos (by omega) (by tauto) (by tauto)
  refine agrees_of_output (half output) 1
    ((List.range (elements inputShape / 4)).map fun index => A.toHalf
      (HostOps.quarterSum (elements inputShape / 4) (HostOps.load (halves m input)) index))
    hsize (by omega)
    (by rw [Operation.device, reduceChannelQuarters, if_neg hbad, volume_eq hmax]; rfl) ?_
    (by rw [List.length_map, List.length_range, Nat.one_mul]) fun t ht => ?_
  · rw [Operation.host, HostOps.reduceChannelQuarters, if_neg (show ¬ (HostOps.InvalidShape _ ∨ _) from hbad)]
    simp only [hostVolume_eq hmax]
    rw [if_neg (by omega)]
    rfl
  · apply runs_quarterSum ht hlen
    intro value quarter hquarter
    apply runs_loadHalf (sees_only (half_ne hne) _)
      (half_cell ((part_cell hquarter ht).trans_le hinput))
    exact runs_pure _ ⟨rfl, rfl⟩

theorem agrees_reduceMaskedQuarters {input mask output : ℕ} {inputShape : Shape4D}
    (h : Operation.Fits m (.reduceMaskedQuarters input mask output inputShape)) :
    Agrees m (.reduceMaskedQuarters input mask output inputShape) := by
  obtain ⟨hne, hneMask, hmax, hinput, hmask, hlen⟩ := h
  by_cases hbad : InvalidShape inputShape ∨ inputShape.channels % 4 ≠ 0
  · exact agrees_of_refused
      (by rw [Operation.host, HostOps.reduceMaskedQuarters, if_pos (show HostOps.InvalidShape _ ∨ _ from hbad)]; rfl)
      (by rw [Operation.device, reduceMaskedQuarters, if_pos hbad])
  have hsize : 0 < elements inputShape / 4 := part_pos (by omega) (by tauto) (by tauto)
  refine agrees_of_output (half output) 1
    ((List.range (elements inputShape / 4)).map fun index => A.toHalf
      (HostOps.quarterSum (elements inputShape / 4) (fun source =>
        HostOps.load (halves m input) source * HostOps.load (halves m mask) source) index))
    hsize (by omega)
    (by rw [Operation.device, reduceMaskedQuarters, if_neg hbad, volume_eq hmax]; rfl) ?_
    (by rw [List.length_map, List.length_range, Nat.one_mul]) fun t ht => ?_
  · rw [Operation.host, HostOps.reduceMaskedQuarters, if_neg (show ¬ (HostOps.InvalidShape _ ∨ _) from hbad)]
    simp only [hostVolume_eq hmax]
    rw [if_neg (by omega)]
    rfl
  · apply runs_quarterSum ht hlen
    intro value quarter hquarter
    have hcell := part_cell hquarter ht
    apply runs_loadHalf (sees_only (half_ne hne) _) (half_cell (hcell.trans_le hinput))
    apply runs_loadHalf (sees_only (half_ne hneMask) _) (half_cell (hcell.trans_le hmask))
    exact runs_pure _ ⟨rfl, rfl⟩

theorem agrees_makeTwoWayMask {mask : ℕ} {shape : Shape4D} {stage : ℤ}
    (h : Operation.Fits m (.makeTwoWayMask mask shape stage)) :
    Agrees m (.makeTwoWayMask mask shape stage) := by
  obtain ⟨hmax, hlen⟩ := h
  by_cases hbad : InvalidShape shape ∨ shape.channels % 2 ≠ 0 ∨ stage < 0 ∨ 1 < stage
  · have hhost : HostOps.InvalidShape shape ∨ shape.channels % 2 ≠ 0 ∨ stage < 0 ∨ 1 < stage := hbad
    exact agrees_of_refused
      (by rw [Operation.host, HostOps.makeTwoWayMask, if_pos (by tauto)]; rfl)
      (by rw [Operation.device, makeTwoWayMask, if_pos hbad])
  have hhost : ¬ (HostOps.InvalidShape shape ∨ shape.channels % 2 ≠ 0 ∨ stage < 0 ∨ 1 < stage) :=
    hbad
  have hroom : ¬ (halves m mask).length < elements shape := not_lt.mpr hlen
  refine agrees_of_output (half mask) 1
    (HostOps.maskLoop shape (HostOps.twoWaySelected shape.channels.toNat stage.toNat))
    (elements_pos (by tauto)) hmax
    (by rw [Operation.device, makeTwoWayMask, if_neg hbad, volume_eq hmax]; rfl) ?_
    (by rw [maskLoop_eq, List.length_map, List.length_range, Nat.one_mul]) fun t ht => ?_
  · rw [Operation.host, HostOps.makeTwoWayMask, hostVolume_eq hmax, if_neg (by tauto)]
    rfl
  · apply runs_writeHalf (has_only ht) (ht.trans_le hlen)
    apply settled_first (ht.trans_le hlen)
    have hstage : stage.toNat = 0 ↔ stage = 0 := by omega
    rw [maskLoop_eq, range_cell ht]
    simp only [HostOps.twoWaySelected, hstage]
    rfl

theorem patterns_eq {stage : ℕ} (h : stage ≤ 3) (quarter : ℕ) :
    (patterns.getD stage []).getD quarter 0 = HostOps.fourWayPattern stage quarter := by
  interval_cases stage <;> rfl

theorem agrees_makeFourWayMask {mask : ℕ} {shape : Shape4D} {stage : ℤ}
    (h : Operation.Fits m (.makeFourWayMask mask shape stage)) :
    Agrees m (.makeFourWayMask mask shape stage) := by
  obtain ⟨hmax, hlen⟩ := h
  by_cases hbad : InvalidShape shape ∨ shape.channels % 4 ≠ 0 ∨ stage < 0 ∨ 3 < stage
  · have hhost : HostOps.InvalidShape shape ∨ shape.channels % 4 ≠ 0 ∨ stage < 0 ∨ 3 < stage := hbad
    exact agrees_of_refused
      (by rw [Operation.host, HostOps.makeFourWayMask, if_pos (by tauto)]; rfl)
      (by rw [Operation.device, makeFourWayMask, if_pos hbad])
  have hhost : ¬ (HostOps.InvalidShape shape ∨ shape.channels % 4 ≠ 0 ∨ stage < 0 ∨ 3 < stage) :=
    hbad
  have hroom : ¬ (halves m mask).length < elements shape := not_lt.mpr hlen
  refine agrees_of_output (half mask) 1
    (HostOps.maskLoop shape (HostOps.fourWaySelected shape.channels.toNat stage.toNat))
    (elements_pos (by tauto)) hmax
    (by rw [Operation.device, makeFourWayMask, if_neg hbad, volume_eq hmax]; rfl) ?_
    (by rw [maskLoop_eq, List.length_map, List.length_range, Nat.one_mul]) fun t ht => ?_
  · rw [Operation.host, HostOps.makeFourWayMask, hostVolume_eq hmax, if_neg (by tauto)]
    rfl
  · apply runs_writeHalf (has_only ht) (ht.trans_le hlen)
    apply settled_first (ht.trans_le hlen)
    rw [maskLoop_eq, range_cell ht]
    simp only [HostOps.fourWaySelected, HostOps.maskValue, beq_iff_eq,
      patterns_eq (show stage.toNat ≤ 3 by omega)]

/-- The nest that fills planes row by row runs over the flat index. -/
theorem rows_eq {α : Type} (planes height width : ℕ) (f : ℕ → ℕ → ℕ → α) :
    ((List.range planes).flatMap fun plane => (List.range height).flatMap fun y =>
      (List.range width).map (f plane y)) =
    (List.range (planes * (height * width))).map fun index =>
      f (index / width / height) (index / width % height) (index % width) := by
  rw [NestedLoops.flatMap_range_flatMap_range, NestedLoops.flatMap_range_map_range, Nat.mul_assoc]

/-- The flat index of a position within rows and columns. -/
theorem position_lt {planes height width t : ℕ} (ht : t < planes * (height * width)) :
    t / width / height < planes ∧ t / width % height < height ∧ t % width < width := by
  have hwidth : 0 < width := by
    rcases Nat.eq_zero_or_pos width with rfl | h
    · simp at ht
    · exact h
  have hheight : 0 < height := by
    rcases Nat.eq_zero_or_pos height with rfl | h
    · simp at ht
    · exact h
  refine ⟨?_, Nat.mod_lt _ hheight, Nat.mod_lt _ hwidth⟩
  rw [Nat.div_lt_iff_lt_mul hheight, Nat.div_lt_iff_lt_mul hwidth, Nat.mul_assoc]
  exact ht

theorem agrees_replicatePad {input output : ℕ} {inputShape : Shape4D}
    {paddedHeight paddedWidth : ℤ}
    (h : Operation.Fits m (.replicatePad input output inputShape paddedHeight paddedWidth)) :
    Agrees m (.replicatePad input output inputShape paddedHeight paddedWidth) := by
  obtain ⟨hne, hinput, hmax, hlen⟩ := h
  by_cases hbad : InvalidShape inputShape ∨ paddedHeight < inputShape.height ∨
      paddedWidth < inputShape.width
  · exact agrees_of_refused
      (by rw [Operation.host, HostOps.replicatePad,
        if_pos (show HostOps.InvalidShape _ ∨ _ from hbad)]; rfl)
      (by rw [Operation.device, replicatePad, if_pos hbad])
  obtain ⟨hbatch, hchannels, hheight, hwidth⟩ := sides_pos (by tauto : ¬ InvalidShape inputShape)
  obtain ⟨hpaddedHeight, hpaddedWidth⟩ : inputShape.height.toNat ≤ paddedHeight.toNat ∧
      inputShape.width.toNat ≤ paddedWidth.toNat := by omega
  set count := CudaOps.planes inputShape * (paddedHeight.toNat * paddedWidth.toNat) with hcount
  have hle : elements inputShape ≤ count :=
    Nat.mul_le_mul_left _ (Nat.mul_le_mul hpaddedHeight hpaddedWidth)
  have hpos : 0 < count := (elements_pos (by tauto)).trans_le hle
  have hwrap : HostOps.wrapSize (inputShape.batch.toNat * inputShape.channels.toNat *
      paddedHeight.toNat * paddedWidth.toNat) = count := by
    rw [hcount, CudaOps.planes, ← Nat.mul_assoc]
    apply Nat.mod_eq_of_lt
    rw [hcount, CudaOps.planes, ← Nat.mul_assoc] at hmax
    omega
  refine agrees_of_output (half output) 1
    (HostOps.padded (halves m input) (CudaOps.planes inputShape) inputShape.height.toNat
      inputShape.width.toNat paddedHeight.toNat paddedWidth.toNat) hpos hmax
    (by rw [Operation.device, replicatePad, if_neg hbad]; simp only [hwrap]; rfl) ?_
    (by rw [HostOps.padded, rows_eq, List.length_map, List.length_range, Nat.one_mul])
    fun t ht => ?_
  · rw [Operation.host, HostOps.replicatePad,
      if_neg (show ¬ (HostOps.InvalidShape _ ∨ _) from hbad)]
    simp only [hwrap, hostVolume_eq (hle.trans hmax)]
    rw [if_neg (by omega)]
    rfl
  · obtain ⟨hplane, -, -⟩ := position_lt ht
    have hsource := RowMajorIndices.rowMajor_lt hplane
      (show min (t / paddedWidth.toNat % paddedHeight.toNat) (inputShape.height - 1).toNat <
        inputShape.height.toNat by omega)
      (show min (t % paddedWidth.toNat) (inputShape.width - 1).toNat < inputShape.width.toNat by
        omega)
    rw [RowMajorIndices.rowMajor, CudaOps.planes, ← elements_eq] at hsource
    apply runs_readHalf (sees_only (half_ne hne) _) (half_cell (hsource.trans_le hinput))
    apply runs_writeHalf (has_only ht) (ht.trans_le hlen)
    apply settled_first (ht.trans_le hlen)
    have hrows : (inputShape.height - 1).toNat = inputShape.height.toNat - 1 := by omega
    have hcolumns : (inputShape.width - 1).toNat = inputShape.width.toNat - 1 := by omega
    rw [HostOps.padded, rows_eq, range_cell ht, hrows, hcolumns]

theorem agrees_cropSpatial {input output : ℕ} {inputShape : Shape4D}
    {outputHeight outputWidth : ℤ}
    (h : Operation.Fits m (.cropSpatial input output inputShape outputHeight outputWidth)) :
    Agrees m (.cropSpatial input output inputShape outputHeight outputWidth) := by
  obtain ⟨hne, hmax, hinput, hlen⟩ := h
  by_cases hbad : InvalidShape inputShape ∨ outputHeight ≤ 0 ∨ outputWidth ≤ 0 ∨
      inputShape.height < outputHeight ∨ inputShape.width < outputWidth
  · exact agrees_of_refused
      (by rw [Operation.host, HostOps.cropSpatial,
        if_pos (show HostOps.InvalidShape _ ∨ _ from hbad)]; rfl)
      (by rw [Operation.device, cropSpatial, if_pos hbad])
  obtain ⟨hbatch, hchannels, hheight, hwidth⟩ := sides_pos (by tauto : ¬ InvalidShape inputShape)
  obtain ⟨hrows, hcolumns, houtHeight, houtWidth⟩ : outputHeight.toNat ≤ inputShape.height.toNat ∧
      outputWidth.toNat ≤ inputShape.width.toNat ∧ 0 < outputHeight.toNat ∧
      0 < outputWidth.toNat := by omega
  set count := CudaOps.planes inputShape * (outputHeight.toNat * outputWidth.toNat) with hcount
  have hle : count ≤ elements inputShape :=
    Nat.mul_le_mul_left _ (Nat.mul_le_mul hrows hcolumns)
  have hpos : 0 < count := by
    rw [hcount, CudaOps.planes]
    positivity
  have hwrap : HostOps.wrapSize (inputShape.batch.toNat * inputShape.channels.toNat *
      outputHeight.toNat * outputWidth.toNat) = count := by
    have heq : inputShape.batch.toNat * inputShape.channels.toNat *
        outputHeight.toNat * outputWidth.toNat = count := by
      rw [hcount, CudaOps.planes, ← Nat.mul_assoc]
    rw [heq]
    exact Nat.mod_eq_of_lt (by omega)
  refine agrees_of_output (half output) 1
    (HostOps.cropped (halves m input) (CudaOps.planes inputShape) inputShape.height.toNat
      inputShape.width.toNat outputHeight.toNat outputWidth.toNat) hpos (hle.trans hmax)
    (by rw [Operation.device, cropSpatial, if_neg hbad]; simp only [hwrap]; rfl) ?_
    (by rw [HostOps.cropped, rows_eq, List.length_map, List.length_range, Nat.one_mul])
    fun t ht => ?_
  · rw [Operation.host, HostOps.cropSpatial,
      if_neg (show ¬ (HostOps.InvalidShape _ ∨ _) from hbad)]
    simp only [hwrap, hostVolume_eq hmax]
    rw [if_neg (by omega)]
    rfl
  · obtain ⟨hplane, hrow, hcolumn⟩ := position_lt ht
    have hsource := RowMajorIndices.rowMajor_lt hplane (hrow.trans_le hrows)
      (hcolumn.trans_le hcolumns)
    rw [RowMajorIndices.rowMajor, CudaOps.planes, ← elements_eq] at hsource
    apply runs_readHalf (sees_only (half_ne hne) _) (half_cell (hsource.trans_le hinput))
    apply runs_writeHalf (has_only ht) (ht.trans_le hlen)
    apply settled_first (ht.trans_le hlen)
    rw [HostOps.cropped, rows_eq, range_cell ht]

/-- The cell of one plane among planes computed one after another. -/
theorem plane_cell {α : Type} {parts part n t : ℕ} (f : ℕ → ℕ → α) (hpart : part < parts)
    (ht : t < n) :
    ((List.range parts).flatMap fun part => (List.range n).map (f part))[part * n + t]? =
      some (f part t) := by
  rw [NestedLoops.flatMap_range_map_range, range_cell (plane_lt hpart ht), Nat.mul_comm part n,
    Nat.mul_add_div (by omega), Nat.div_eq_of_lt ht, Nat.mul_add_mod, Nat.mod_eq_of_lt ht,
    Nat.add_zero]

/-- Every part is restored from the one symbol of the thread. -/
theorem runs_restore {symbols means mask output parts n : ℕ} (hsymbols : symbols ≠ output)
    (hmeans : means ≠ output) (hmask : mask ≠ output) (ht : t < n)
    (hsymbolsLen : n ≤ (halves m symbols).length) (hmeansLen : parts * n ≤ (halves m means).length)
    (hmaskLen : parts * n ≤ (halves m mask).length)
    (hlen : parts * n ≤ (halves m output).length) :
    (loadHalf symbols t >>= fun symbol => (List.range parts).forM fun part => do
      let mean ← loadHalf means (t + part * n)
      let mask ← loadHalf mask (t + part * n)
      storeHalf output (t + part * n) ((symbol + mean) * mask)).Runs
      (Sees (only (half output) parts) n t) (Has (only (half output) parts) n t)
      (fun _ m' => ∀ part < parts, (m' (half output))[part * n + t]? =
        (HostOps.restored (halves m symbols) (halves m means) (halves m mask) parts n)[
          part * n + t]?) m := by
  apply runs_loadHalf (sees_only (half_ne hsymbols) _) (half_cell (ht.trans_le hsymbolsLen))
  apply runs_forM (fun k m' => (∀ b, b ≠ half output → m' b = m b) ∧
    (m' (half output)).length = (m (half output)).length ∧
    ∀ part < k, (m' (half output))[part * n + t]? =
      (HostOps.restored (halves m symbols) (halves m means) (halves m mask) parts n)[
        part * n + t]?)
  · exact ⟨fun _ _ => rfl, rfl, fun part hpart => by omega⟩
  · rintro k hk m' ⟨hother, hlength, hdone⟩
    have hcell : t + k * n = k * n + t := Nat.add_comm _ _
    have hbound := plane_lt hk ht
    have hmean : (m' (half means))[k * n + t]? =
        some ((halves m means).getD (k * n + t) 0) := by
      rw [hother _ (half_ne hmeans)]
      exact half_cell (hbound.trans_le hmeansLen)
    have hmaskCell : (m' (half mask))[k * n + t]? =
        some ((halves m mask).getD (k * n + t) 0) := by
      rw [hother _ (half_ne hmask)]
      exact half_cell (hbound.trans_le hmaskLen)
    have hroom : k * n + t < (m' (half output)).length := hlength ▸ hbound.trans_le hlen
    rw [hcell]
    apply runs_loadHalf (sees_only (half_ne hmeans) _) hmean
    apply runs_loadHalf (sees_only (half_ne hmask) _) hmaskCell
    apply runs_storeHalf (has_only_cell hk ht) hroom
    refine ⟨fun b hb => ?_, ?_, fun part hpart => ?_⟩
    · rw [storeCell_other m' _ _ hb, hother b hb]
    · rw [storeCell_length, hlength]
    · rcases Nat.lt_succ_iff_lt_or_eq.mp hpart with hlt | rfl
      · rw [storeCell_of_ne, hdone part hlt]
        intro _ heq
        have hfirst := plane_lt hlt ht
        omega
      · rw [storeCell_self _ hroom, HostOps.restored, plane_cell _ hk ht, ← hcell]
        rfl
  · rintro m' ⟨-, -, hdone⟩ part hpart
    exact hdone part hpart

theorem restored_length (symbols means mask : List A.Half) (parts n : ℕ) :
    (HostOps.restored symbols means mask parts n).length = parts * n := by
  rw [HostOps.restored, NestedLoops.flatMap_range_map_range, List.length_map, List.length_range]

theorem agrees_restoreFourWay {symbols means mask output : ℕ} {outputShape : Shape4D}
    (h : Operation.Fits m (.restoreFourWay symbols means mask output outputShape)) :
    Agrees m (.restoreFourWay symbols means mask output outputShape) := by
  obtain ⟨hsymbols, hmeans, hmask, hmax, hsymbolsLen, hmeansLen, hmaskLen, hlen⟩ := h
  by_cases hbad : InvalidShape outputShape ∨ outputShape.channels % 4 ≠ 0
  · exact agrees_of_refused
      (by rw [Operation.host, HostOps.restoreFourWay,
        if_pos (show HostOps.InvalidShape _ ∨ _ from hbad)]; rfl)
      (by rw [Operation.device, restoreFourWay, if_pos hbad])
  have hsize : 0 < elements outputShape / 4 := part_pos (by omega) (by tauto) (by tauto)
  refine agrees_of_output (half output) 4
    (HostOps.restored (halves m symbols) (halves m means) (halves m mask) 4
      (elements outputShape / 4)) hsize (by omega)
    (by rw [Operation.device, restoreFourWay, if_neg hbad, volume_eq hmax]; rfl) ?_
    (restored_length _ _ _ _ _) fun t ht => ?_
  · rw [Operation.host, HostOps.restoreFourWay,
      if_neg (show ¬ (HostOps.InvalidShape _ ∨ _) from hbad)]
    simp only [hostVolume_eq hmax]
    rw [if_neg (by omega)]
    rfl
  · exact runs_restore hsymbols hmeans hmask ht hsymbolsLen (by omega) (by omega) (by omega)

theorem agrees_restoreTwoWay {symbols means mask output : ℕ} {outputShape : Shape4D}
    (h : Operation.Fits m (.restoreTwoWay symbols means mask output outputShape)) :
    Agrees m (.restoreTwoWay symbols means mask output outputShape) := by
  obtain ⟨hsymbols, hmeans, hmask, hmax, hsymbolsLen, hmeansLen, hmaskLen, hlen⟩ := h
  by_cases hbad : InvalidShape outputShape ∨ outputShape.channels % 2 ≠ 0
  · exact agrees_of_refused
      (by rw [Operation.host, HostOps.restoreTwoWay,
        if_pos (show HostOps.InvalidShape _ ∨ _ from hbad)]; rfl)
      (by rw [Operation.device, restoreTwoWay, if_pos hbad])
  have hsize : 0 < elements outputShape / 2 := part_pos (by omega) (by tauto) (by tauto)
  refine agrees_of_output (half output) 2
    (HostOps.restored (halves m symbols) (halves m means) (halves m mask) 2
      (elements outputShape / 2)) hsize (by omega)
    (by rw [Operation.device, restoreTwoWay, if_neg hbad, volume_eq hmax]; rfl) ?_
    (restored_length _ _ _ _ _) fun t ht => ?_
  · rw [Operation.host, HostOps.restoreTwoWay,
      if_neg (show ¬ (HostOps.InvalidShape _ ∨ _) from hbad)]
    simp only [hostVolume_eq hmax]
    rw [if_neg (by omega)]
    rfl
  · exact runs_restore hsymbols hmeans hmask ht hsymbolsLen (by omega) (by omega) (by omega)

end Nvcr.Rt.CudaOps
