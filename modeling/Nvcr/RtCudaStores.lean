import Nvcr.RtCudaAgreement

/-!
# Device transforms that store to several buffers

Rounding, masked processing and the two quantizations write more than one buffer from one grid.
-/

namespace Nvcr.Rt.CudaOps

open KernelThreads KernelThreads.Thread

variable {A : HostArithmetic} {m : DeviceMemory A} {count t : ℕ}

/-- What a grid stores to one buffer. -/
structure Stored (A : HostArithmetic) where
  out : Buffer
  planes : ℕ
  values : List (Cell A out)

def fillAll (m : DeviceMemory A) (stores : List (Stored A)) : DeviceMemory A :=
  stores.foldl (fun m s => fill m s.out s.values) m

def planesOf (stores : List (Stored A)) (b : Buffer) : ℕ :=
  ((stores.find? fun s => s.out = b).map Stored.planes).getD 0

section Stores

variable {stores : List (Stored A)} {s : Stored A} {b : Buffer}

theorem fillAll_free (m : DeviceMemory A) (h : ∀ s ∈ stores, s.out ≠ b) :
    fillAll m stores b = m b := by
  induction stores generalizing m with
  | nil => rfl
  | cons s rest ih =>
      calc fillAll m (s :: rest) b = fill m s.out s.values b :=
            ih (fill m s.out s.values) fun s' hs' => h s' (by simp [hs'])
        _ = m b := fill_of_ne m s.values (h s (by simp)).symm

theorem fillAll_stored (m : DeviceMemory A) (hnodup : (stores.map Stored.out).Nodup)
    (hs : s ∈ stores) : fillAll m stores s.out = fill m s.out s.values s.out := by
  induction stores generalizing m with
  | nil => cases hs
  | cons s' rest ih =>
      rw [List.map_cons, List.nodup_cons] at hnodup
      obtain ⟨hfresh, hrest⟩ := hnodup
      change fillAll (fill m s'.out s'.values) rest s.out = _
      rcases List.mem_cons.mp hs with rfl | hs
      · apply fillAll_free
        intro s' hs' heq
        exact hfresh (heq ▸ List.mem_map_of_mem hs')
      · have hne : s.out ≠ s'.out := fun heq => hfresh (heq ▸ List.mem_map_of_mem hs)
        rw [ih (fill m s'.out s'.values) hrest hs, fill_self, fill_self,
          fill_of_ne m s'.values hne]

theorem planesOf_stored (hnodup : (stores.map Stored.out).Nodup) (hs : s ∈ stores) :
    planesOf stores s.out = s.planes := by
  induction stores with
  | nil => cases hs
  | cons s' rest ih =>
      rw [List.map_cons, List.nodup_cons] at hnodup
      obtain ⟨hfresh, hrest⟩ := hnodup
      rcases List.mem_cons.mp hs with rfl | hs
      · simp [planesOf]
      · have hne : s'.out ≠ s.out := fun heq => hfresh (heq ▸ List.mem_map_of_mem hs)
        rw [← ih hrest hs]
        simp [planesOf, hne]

theorem planesOf_free (h : ∀ s ∈ stores, s.out ≠ b) : planesOf stores b = 0 := by
  have hnone : stores.find? (fun s => decide (s.out = b)) = none := by
    rw [List.find?_eq_none]
    intro s hs
    simpa using h s hs
  rw [planesOf, hnone]
  rfl

theorem sees_unstored (h : ∀ s ∈ stores, s.out ≠ b) (i : ℕ) :
    Sees (planesOf stores) count t b i :=
  sees_free (planesOf_free h) i

theorem has_stored (hnodup : (stores.map Stored.out).Nodup) (hs : s ∈ stores) {plane : ℕ}
    (hplane : plane < s.planes) (ht : t < count) :
    Has (planesOf stores) count t s.out (plane * count + t) :=
  has_cell (by rwa [planesOf_stored hnodup hs]) ht

theorem has_stored_first (hnodup : (stores.map Stored.out).Nodup) (hs : s ∈ stores)
    (hplanes : s.planes = 1) (ht : t < count) : Has (planesOf stores) count t s.out t :=
  has_first (by rw [planesOf_stored hnodup hs]; omega) ht

/-- Every buffer has one plane. -/
theorem settled_rows {m' : DeviceMemory A} (hplanes : ∀ s ∈ stores, s.planes = 1)
    (h : ∀ s ∈ stores, (m' s.out)[t]? = s.values[t]?) :
    ∀ s ∈ stores, ∀ plane < s.planes,
      (m' s.out)[plane * count + t]? = s.values[plane * count + t]? := by
  intro s hs plane hplane
  obtain rfl : plane = 0 := by
    rw [hplanes s hs] at hplane
    omega
  rw [Nat.zero_mul, Nat.zero_add]
  exact h s hs

/-- One grid that stores to several buffers. -/
theorem agrees_of_stores {op : Operation A} {body : ℕ → DeviceThread A Unit}
    (stores : List (Stored A)) (hnodup : (stores.map Stored.out).Nodup) (hpos : 0 < count)
    (hmax : count ≤ 2 ^ 31) (hdevice : op.device = do return [← launch count (guarded count body)])
    (hhost : op.host m = some (fillAll m stores))
    (hlen : ∀ s ∈ stores, s.values.length = s.planes * count)
    (hruns : ∀ t < count, (body t).Runs (Sees (planesOf stores) count t)
      (Has (planesOf stores) count t)
      (fun _ m' => ∀ s ∈ stores, ∀ plane < s.planes,
        (m' s.out)[plane * count + t]? = s.values[plane * count + t]?) m) :
    Agrees m op := by
  apply agrees_of_planes (planesOf stores) hpos hmax hdevice hhost
  · intro b i hi
    by_cases hb : ∃ s ∈ stores, s.out = b
    · obtain ⟨s, hs, rfl⟩ := hb
      rw [planesOf_stored hnodup hs, ← hlen s hs] at hi
      rw [fillAll_stored m hnodup hs, fill_rest m hi]
    · rw [fillAll_free m fun s hs heq => hb ⟨s, hs, heq⟩]
  · intro t ht
    apply (hruns t ht).mono
    intro _ m' hm' b plane hplane
    by_cases hb : ∃ s ∈ stores, s.out = b
    · obtain ⟨s, hs, rfl⟩ := hb
      rw [planesOf_stored hnodup hs] at hplane
      rw [fillAll_stored m hnodup hs, fill_cell m (hlen s hs ▸ plane_lt hplane ht)]
      exact hm' s hs plane hplane
    · rw [planesOf_free fun s hs heq => hb ⟨s, hs, heq⟩] at hplane
      omega

end Stores

theorem agrees_roundToInt8 {values quantized : ℕ}
    (h : Operation.Fits m (.roundToInt8 values quantized count)) :
    Agrees m (.roundToInt8 values quantized count) := by
  obtain ⟨hmax, hvalues, hquantized⟩ := h
  rcases Nat.eq_zero_or_pos count with rfl | hpos
  · exact agrees_of_refused (by simp [Operation.host, HostOps.roundToInt8]) rfl
  let rounded := ((halves m values).take count).map fun value =>
    HostOps.clampSymbol (A.round (A.toFloat value))
  let first : Stored A := ⟨half values, 1, rounded.map A.toHalf⟩
  let second : Stored A :=
    ⟨int8 quantized, 1, rounded.map fun value => Int8.ofInt (A.truncate value)⟩
  have hnodup : ([first, second].map Stored.out).Nodup := by simp [first, second]
  have hrounded : rounded.length = count := by
    rw [List.length_map, take_length hvalues]
  refine agrees_of_stores [first, second] hnodup hpos hmax
    (by rw [Operation.device, roundToInt8, if_neg hpos.ne']; rfl) ?_
    (by simp [first, second, hrounded]) fun t ht => ?_
  · rw [Operation.host, HostOps.roundToInt8, take_isEmpty hpos hvalues, take_length hvalues,
      if_neg (by simp; omega)]
    rfl
  · have hhas₁ : Has (planesOf [first, second]) count t (half values) t :=
      has_stored_first (s := first) hnodup (by simp) rfl ht
    have hhas₂ : Has (planesOf [first, second]) count t (int8 quantized) t :=
      has_stored_first (s := second) hnodup (by simp) rfl ht
    have hcell : rounded[t]? = some (HostOps.clampSymbol (A.round (A.toFloat
        ((halves m values).getD t 0)))) := by
      rw [List.getElem?_map, take_cell 0 ht hvalues]
      rfl
    have hlt : t < (m (half values)).length := ht.trans_le hvalues
    apply runs_loadHalf (sees_of_has hhas₁) (half_cell hlt)
    apply runs_bind
    apply runs_storeHalf hhas₁ hlt
    have hlt' : ∀ x, t < (storeCell m (half values) t x (int8 quantized)).length := by
      intro x
      rw [storeCell_length]
      exact ht.trans_le hquantized
    apply runs_writeInt8 hhas₂ (hlt' _)
    apply settled_rows (by simp [first, second])
    intro s hs
    rcases List.mem_pair.mp hs with rfl | rfl
    · rw [storeCell_other _ _ _ (by simp [first]), storeCell_self _ hlt, List.getElem?_map, hcell]
      rfl
    · rw [storeCell_self _ (hlt' _), List.getElem?_map, hcell]
      rfl

theorem agrees_clampReciprocalWithQuant {quantStep values : ℕ}
    (h : Operation.Fits m (.clampReciprocalWithQuant quantStep values count)) :
    Agrees m (.clampReciprocalWithQuant quantStep values count) := by
  obtain ⟨hne, hmax, hquant, hvalues⟩ := h
  rcases Nat.eq_zero_or_pos count with rfl | hpos
  · exact agrees_of_refused (by simp [Operation.host, HostOps.clampReciprocalWithQuant]) rfl
  let quant : ℕ → A.Half := fun index =>
    HostOps.clampStep (A.ofRat (1 / 2)) ((halves m quantStep).getD index 0)
  let first : Stored A := ⟨half quantStep, 1, (List.range count).map quant⟩
  let second : Stored A := ⟨half values, 1, (List.range count).map fun index =>
    A.toHalf (HostOps.load ((halves m values).take count) index *
      A.toFloat (A.toHalf (1 / A.toFloat (quant index))))⟩
  have hnodup : ([first, second].map Stored.out).Nodup := by simp [first, second, hne]
  refine agrees_of_stores [first, second] hnodup hpos hmax
    (by rw [Operation.device, clampReciprocalWithQuant, if_neg hpos.ne']; rfl) ?_
    (by simp [first, second]) fun t ht => ?_
  · rw [Operation.host, HostOps.clampReciprocalWithQuant, take_isEmpty hpos hvalues,
      take_length hvalues, if_neg (by simp; omega)]
    have hfill := fill_append_drop m (half quantStep) ((List.range count).map quant) (n := count)
      (by simp)
    exact congrArg (fun m' => some (fillHalf m' values second.values)) hfill
  · have hhas₁ : Has (planesOf [first, second]) count t (half quantStep) t :=
      has_stored_first (s := first) hnodup (by simp) rfl ht
    have hhas₂ : Has (planesOf [first, second]) count t (half values) t :=
      has_stored_first (s := second) hnodup (by simp) rfl ht
    have hlt : t < (m (half quantStep)).length := ht.trans_le hquant
    have hvalue : ∀ x, (storeCell m (half quantStep) t x (half values))[t]? =
        some ((halves m values).getD t 0) := by
      intro x
      rw [storeCell_other m _ _ (half_ne hne.symm)]
      exact half_cell (ht.trans_le hvalues)
    have hlt' : ∀ x, t < (storeCell m (half quantStep) t x (half values)).length := by
      intro x
      rw [storeCell_length]
      exact ht.trans_le hvalues
    apply runs_loadHalf (sees_of_has hhas₁) (half_cell hlt)
    apply runs_bind
    apply runs_writeHalf hhas₁ hlt
    apply runs_loadHalf (sees_of_has hhas₂) (hvalue _)
    apply runs_storeHalf hhas₂ (hlt' _)
    apply settled_rows (by simp [first, second])
    intro s hs
    rcases List.mem_pair.mp hs with rfl | rfl
    · rw [storeCell_other _ _ _ (half_ne hne), storeCell_self _ hlt, range_cell ht]
      rfl
    · rw [storeCell_self _ (hlt' _), range_cell ht, HostOps.load, take_getD ht]
      rfl

/-- Three buffers are stored to one after another. -/
theorem runs_threeRows {readable writable : Buffer → ℕ → Prop}
    {done : Unit → DeviceMemory A → Prop} {a b c : ℕ} {x y z : A.Float} (hab : a ≠ b)
    (hac : a ≠ c) (hbc : b ≠ c) (ha : writable (half a) t) (hb : writable (half b) t)
    (hc : writable (half c) t) (hla : t < (m (half a)).length) (hlb : t < (m (half b)).length)
    (hlc : t < (m (half c)).length)
    (h : ∀ m' : DeviceMemory A, (m' (half a))[t]? = some (A.toHalf x) →
      (m' (half b))[t]? = some (A.toHalf y) → (m' (half c))[t]? = some (A.toHalf z) →
      (∀ d, d ≠ half a → d ≠ half b → d ≠ half c → m' d = m d) → done () m') :
    (storeHalf a t x >>= fun _ => storeHalf b t y >>= fun _ => storeHalf c t z).Runs
      readable writable done m := by
  have hlb' : ∀ v, t < (storeCell m (half a) t v (half b)).length := by
    intro v
    rwa [storeCell_length]
  have hlc' : ∀ v w, t < (storeCell (storeCell m (half a) t v) (half b) t w (half c)).length := by
    intro v w
    rwa [storeCell_length, storeCell_length]
  apply runs_bind
  apply runs_storeHalf ha hla
  apply runs_bind
  apply runs_storeHalf hb (hlb' _)
  apply runs_storeHalf hc (hlc' _ _)
  apply h
  · rw [storeCell_other _ _ _ (half_ne hac), storeCell_other _ _ _ (half_ne hab),
      storeCell_self _ hla]
  · rw [storeCell_other _ _ _ (half_ne hbc), storeCell_self _ (hlb' _)]
  · rw [storeCell_self _ (hlc' _ _)]
  · intro d hda hdb hdc
    rw [storeCell_other _ _ _ hdc, storeCell_other _ _ _ hdb, storeCell_other _ _ _ hda]

theorem agrees_processWithMask {values scales means mask : ℕ} {residual : Option ℕ}
    {symbols reconstructed maskedScales : ℕ} {forceZeroThreshold : A.Float}
    (h : Operation.Fits m (.processWithMask values scales means mask residual symbols
      reconstructed maskedScales count forceZeroThreshold)) :
    Agrees m (.processWithMask values scales means mask residual symbols reconstructed maskedScales
      count forceZeroThreshold) := by
  obtain ⟨hmax, hinputs, houtputs, hdistinct⟩ := h
  rcases Nat.eq_zero_or_pos count with rfl | hpos
  · exact agrees_of_refused (by simp [Operation.host, HostOps.processWithMask]) rfl
  obtain ⟨hvalues, hscales, hmeans, hmask⟩ : count ≤ (halves m values).length ∧
      count ≤ (halves m scales).length ∧ count ≤ (halves m means).length ∧
      count ≤ (halves m mask).length := by simpa using hinputs
  let element := fun index => HostOps.processElement
    (HostOps.load ((halves m values).take count) index) (HostOps.load (halves m scales) index)
    (HostOps.load (halves m means) index) (HostOps.load (halves m mask) index) forceZeroThreshold
  let row : ℕ → (HostOps.MaskedElement A → A.Float) → Stored A := fun out part =>
    ⟨half out, 1, (List.range count).map fun index => A.toHalf (part (element index))⟩
  let stores := residual.toList.map (fun residual => row residual (·.residual)) ++
    [row symbols (·.symbol), row reconstructed (fun e => e.symbol + e.mean),
      row maskedScales (·.scale)]
  have houts : stores.map Stored.out =
      (residual.toList ++ [symbols, reconstructed, maskedScales]).map half := by
    cases residual <;> rfl
  have hnodup : (stores.map Stored.out).Nodup := by
    rw [houts]
    exact hdistinct.map fun a b heq => (Buffer.mk.inj heq).2
  have hplanes : ∀ s ∈ stores, s.planes = 1 := by
    cases residual <;> simp [stores, row]
  have hfree : ∀ input ∈ [values, scales, means, mask], ∀ s ∈ stores, s.out ≠ half input := by
    intro input hinput s hs heq
    have hmem : half input ∈ stores.map Stored.out := heq ▸ List.mem_map_of_mem hs
    rw [houts, List.mem_map] at hmem
    obtain ⟨output, houtput, hout⟩ := hmem
    obtain rfl : output = input := (Buffer.mk.inj hout).2
    exact (houtputs output houtput).2 hinput
  have hroom : ∀ output ∈ residual.toList ++ [symbols, reconstructed, maskedScales],
      count ≤ (m (half output)).length := fun output houtput => (houtputs output houtput).1
  refine agrees_of_stores stores hnodup hpos hmax
    (by rw [Operation.device, processWithMask, if_neg hpos.ne']; rfl) ?_ ?_ fun t ht => ?_
  · have hlength := take_length hvalues
    cases residual with
    | none =>
        simp only [Option.toList_none, List.nil_append, List.forall_mem_cons] at houtputs
        obtain ⟨⟨h₁, -⟩, ⟨h₂, -⟩, ⟨h₃, -⟩, -⟩ := houtputs
        rw [Operation.host, HostOps.processWithMask]
        simp only [hlength, Option.elim_none]
        rw [if_neg (by omega)]
        rfl
    | some residual =>
        simp only [Option.toList_some, List.cons_append, List.nil_append,
          List.forall_mem_cons] at houtputs
        obtain ⟨⟨h₀, -⟩, ⟨h₁, -⟩, ⟨h₂, -⟩, ⟨h₃, -⟩, -⟩ := houtputs
        have hsome : (halves m residual).length ≠ 0 := by omega
        rw [Operation.host, HostOps.processWithMask]
        simp only [hlength, Option.elim_some, hsome, if_false]
        rw [if_neg (by omega)]
        rfl
  · cases residual <;> simp [stores, row]
  · have hhas : ∀ s ∈ stores, Has (planesOf stores) count t s.out t :=
      fun s hs => has_stored_first hnodup hs (hplanes s hs) ht
    have helement : element t = HostOps.processElement (A.toFloat ((halves m values).getD t 0))
        (A.toFloat ((halves m scales).getD t 0)) (A.toFloat ((halves m means).getD t 0))
        (A.toFloat ((halves m mask).getD t 0)) forceZeroThreshold := by
      simp only [element, HostOps.load, take_getD ht]
    have hrow : ∀ out part, (row out part).values[t]? = some (A.toHalf (part (element t))) :=
      fun _ _ => range_cell ht
    apply runs_loadHalf (sees_unstored (hfree mask (by simp)) _) (half_cell (ht.trans_le hmask))
    apply runs_loadHalf (sees_unstored (hfree scales (by simp)) _)
      (half_cell (ht.trans_le hscales))
    apply runs_loadHalf (sees_unstored (hfree means (by simp)) _) (half_cell (ht.trans_le hmeans))
    apply runs_loadHalf (sees_unstored (hfree values (by simp)) _)
      (half_cell (ht.trans_le hvalues))
    cases residual with
    | none =>
        obtain ⟨⟨h₁₂, h₁₃⟩, h₂₃⟩ : (symbols ≠ reconstructed ∧ symbols ≠ maskedScales) ∧
          reconstructed ≠ maskedScales := by simpa using hdistinct
        apply runs_bind
        apply runs_threeRows h₁₂ h₁₃ h₂₃
          (hhas (row symbols (·.symbol)) (by simp [stores]))
          (hhas (row reconstructed fun e => e.symbol + e.mean) (by simp [stores]))
          (hhas (row maskedScales (·.scale)) (by simp [stores]))
          (ht.trans_le (hroom symbols (by simp))) (ht.trans_le (hroom reconstructed (by simp)))
          (ht.trans_le (hroom maskedScales (by simp)))
        intro m' h₁ h₂ h₃ _
        apply settled_rows hplanes
        simp only [stores, Option.toList_none, List.map_nil, List.nil_append, List.forall_mem_cons]
        refine ⟨?_, ?_, ?_, fun s hs => by cases hs⟩
        · refine Eq.trans ?_ (hrow _ _).symm
          rw [helement]
          exact h₁
        · refine Eq.trans ?_ (hrow reconstructed fun e => e.symbol + e.mean).symm
          rw [helement]
          exact h₂
        · refine Eq.trans ?_ (hrow _ _).symm
          rw [helement]
          exact h₃
    | some residual =>
        obtain ⟨⟨h₀₁, h₀₂, h₀₃⟩, ⟨h₁₂, h₁₃⟩, h₂₃⟩ : (residual ≠ symbols ∧
          residual ≠ reconstructed ∧ residual ≠ maskedScales) ∧
          (symbols ≠ reconstructed ∧ symbols ≠ maskedScales) ∧ reconstructed ≠ maskedScales := by
          simpa using hdistinct
        have hlt₀ : t < (m (half residual)).length := ht.trans_le (hroom residual (by simp))
        apply runs_bind
        apply runs_storeHalf (hhas (row residual (·.residual)) (by simp [stores])) hlt₀
        apply runs_threeRows h₁₂ h₁₃ h₂₃
          (hhas (row symbols (·.symbol)) (by simp [stores]))
          (hhas (row reconstructed fun e => e.symbol + e.mean) (by simp [stores]))
          (hhas (row maskedScales (·.scale)) (by simp [stores]))
          (by rw [storeCell_length]; exact ht.trans_le (hroom symbols (by simp)))
          (by rw [storeCell_length]; exact ht.trans_le (hroom reconstructed (by simp)))
          (by rw [storeCell_length]; exact ht.trans_le (hroom maskedScales (by simp)))
        intro m' h₁ h₂ h₃ hother
        apply settled_rows hplanes
        simp only [stores, Option.toList_some, List.map_cons, List.map_nil, List.cons_append,
          List.nil_append, List.forall_mem_cons]
        refine ⟨?_, ?_, ?_, ?_, fun s hs => by cases hs⟩
        · refine Eq.trans ?_ (hrow _ _).symm
          rw [helement]
          change (m' (half residual))[t]? = _
          rw [hother (half residual) (half_ne h₀₁) (half_ne h₀₂) (half_ne h₀₃),
            storeCell_self _ hlt₀]
          rfl
        · refine Eq.trans ?_ (hrow _ _).symm
          rw [helement]
          exact h₁
        · refine Eq.trans ?_ (hrow reconstructed fun e => e.symbol + e.mean).symm
          rw [helement]
          exact h₂
        · refine Eq.trans ?_ (hrow _ _).symm
          rw [helement]
          exact h₃

theorem quantPlanes_cell {params n plane : ℕ} (hplane : plane < 2) (ht : t < n)
    (hlen : 2 * n ≤ (halves m params).length) :
    (((halves m params).take (2 * n)).map fun value =>
      A.toHalf (HostOps.sigmoidQuant (A.toFloat value)))[plane * n + t]? =
      some (A.toHalf (HostOps.sigmoidQuant (HostOps.load (halves m params) (plane * n + t)))) := by
  rw [List.getElem?_map, take_cell 0 (plane_lt hplane ht) hlen]
  rfl

theorem agrees_applyImagePrior {params spatialCount : ℕ}
    (h : Operation.Fits m (.applyImagePrior params spatialCount)) :
    Agrees m (.applyImagePrior params spatialCount) := by
  obtain ⟨hmax, hlen⟩ := h
  rcases Nat.eq_zero_or_pos spatialCount with rfl | hpos
  · exact agrees_of_refused (by simp [Operation.host, HostOps.applyImagePrior]) rfl
  have hwrap : HostOps.wrapSize (2 * spatialCount) = 2 * spatialCount := Nat.mod_eq_of_lt (by omega)
  refine agrees_of_output (half params) 2
    (((halves m params).take (2 * spatialCount)).map fun value =>
      A.toHalf (HostOps.sigmoidQuant (A.toFloat value))) hpos (by omega)
    (by rw [Operation.device, applyImagePrior, if_neg hpos.ne']; rfl) ?_
    (by rw [List.length_map, take_length hlen]) fun t ht => ?_
  · rw [Operation.host, HostOps.applyImagePrior, hwrap, if_neg (by omega)]
    exact congrArg some (fill_append_drop m (half params) _
      (by rw [List.length_map, take_length hlen]))
  · have hhas₀ : Has (only (half params) 2) spatialCount t (half params) t := by
      have hhas : Has (only (half params) 2) spatialCount t (half params) (0 * spatialCount + t) :=
        has_only_cell (by omega) ht
      rwa [Nat.zero_mul, Nat.zero_add] at hhas
    have hhas₁ : Has (only (half params) 2) spatialCount t (half params) (spatialCount + t) := by
      have hhas : Has (only (half params) 2) spatialCount t (half params) (1 * spatialCount + t) :=
        has_only_cell (by omega) ht
      rwa [Nat.one_mul] at hhas
    have hlt : spatialCount + t < (m (half params)).length :=
      (show spatialCount + t < 2 * spatialCount by omega).trans_le hlen
    have hlt₀ : t < (m (half params)).length := by omega
    apply runs_loadHalf (sees_of_has hhas₀) (half_cell hlt₀)
    apply runs_loadHalf (sees_of_has hhas₁) (half_cell hlt)
    apply runs_bind
    apply runs_storeHalf hhas₀ hlt₀
    apply runs_storeHalf hhas₁ (by rw [storeCell_length]; exact hlt)
    intro plane hplane
    rw [quantPlanes_cell hplane ht hlen]
    obtain rfl | rfl : plane = 0 ∨ plane = 1 := by omega
    · rw [Nat.zero_mul, Nat.zero_add, storeCell_of_ne _ _ (fun _ => by omega),
        storeCell_self _ hlt₀]
      rfl
    · rw [Nat.one_mul, storeCell_self _ (by rw [storeCell_length]; exact hlt)]
      rfl

theorem agrees_applyImagePriorAndQuantize {params values spatialCount : ℕ}
    (h : Operation.Fits m (.applyImagePriorAndQuantize params values spatialCount)) :
    Agrees m (.applyImagePriorAndQuantize params values spatialCount) := by
  obtain ⟨hne, hmax, hparams, hvalues⟩ := h
  rcases Nat.eq_zero_or_pos spatialCount with rfl | hpos
  · exact agrees_of_refused (by simp [Operation.host, HostOps.applyImagePriorAndQuantize]) rfl
  have hwrap₂ : HostOps.wrapSize (2 * spatialCount) = 2 * spatialCount :=
    Nat.mod_eq_of_lt (by omega)
  have hwrap : HostOps.wrapSize (256 * spatialCount) = 256 * spatialCount :=
    Nat.mod_eq_of_lt (by omega)
  let first : Stored A := ⟨half params, 2, ((halves m params).take (2 * spatialCount)).map
    fun value => A.toHalf (HostOps.sigmoidQuant (A.toFloat value))⟩
  let second : Stored A := ⟨half values, 256, (List.range (256 * spatialCount)).map fun offset =>
    A.toHalf (HostOps.load (halves m values) offset *
      HostOps.sigmoidQuant (HostOps.load (halves m params) (offset % spatialCount)))⟩
  have hfirst : first.values.length = 2 * spatialCount := by
    simp only [first]
    rw [List.length_map, take_length hparams]
  have hnodup : ([first, second].map Stored.out).Nodup := by simp [first, second, hne]
  refine agrees_of_stores [first, second] hnodup hpos (by omega)
    (by rw [Operation.device, applyImagePriorAndQuantize, if_neg hpos.ne']; rfl) ?_ ?_
    fun t ht => ?_
  · rw [Operation.host, HostOps.applyImagePriorAndQuantize, hwrap₂, hwrap, if_neg (by omega)]
    have hfill : fillHalf m params (HostOps.quantPlanes (halves m params) spatialCount) =
        fillHalf m params first.values := fill_append_drop m (half params) first.values hfirst
    have hkeep : halves (fillHalf m params first.values) values = halves m values :=
      fill_of_ne m first.values (half_ne hne.symm)
    have hfill' : fillHalf (fillHalf m params first.values) values
        (second.values ++ (halves (fillHalf m params first.values) values).drop
          (256 * spatialCount)) = fillAll m [first, second] :=
      fill_append_drop _ (half values) second.values (by simp [second])
    rw [hkeep] at hfill'
    simp only [Option.map_some, hfill]
    exact congrArg some hfill'
  · intro s hs
    rcases List.mem_pair.mp hs with rfl | rfl
    · exact hfirst
    · simp [second]
  · have hhas₀ : Has (planesOf [first, second]) spatialCount t (half params) t := by
      have hhas := has_stored (s := first) hnodup (by simp) (show 0 < 2 by omega) ht
      rwa [Nat.zero_mul, Nat.zero_add] at hhas
    have hhas₁ : Has (planesOf [first, second]) spatialCount t (half params)
        (spatialCount + t) := by
      have hhas := has_stored (s := first) hnodup (by simp) (show 1 < 2 by omega) ht
      rwa [Nat.one_mul] at hhas
    have hhas : ∀ plane < 256, Has (planesOf [first, second]) spatialCount t (half values)
        (plane * spatialCount + t) :=
      fun plane hplane => has_stored (s := second) hnodup (by simp) hplane ht
    have hlt : spatialCount + t < (m (half params)).length :=
      (show spatialCount + t < 2 * spatialCount by omega).trans_le hparams
    have hlt₀ : t < (m (half params)).length := by omega
    apply runs_loadHalf (sees_of_has hhas₀) (half_cell hlt₀)
    apply runs_loadHalf (sees_of_has hhas₁) (half_cell hlt)
    apply runs_bind
    apply runs_storeHalf hhas₀ hlt₀
    apply runs_bind
    apply runs_storeHalf hhas₁ (by rw [storeCell_length]; exact hlt)
    -- the planes of the latent are scaled one after another
    apply runs_forM (fun k m' => (∀ plane < 2, (m' (half params))[plane * spatialCount + t]? =
        first.values[plane * spatialCount + t]?) ∧
      (m' (half values)).length = (m (half values)).length ∧
      (∀ plane < k, (m' (half values))[plane * spatialCount + t]? =
        second.values[plane * spatialCount + t]?) ∧
      ∀ plane, k ≤ plane → (m' (half values))[plane * spatialCount + t]? =
        (m (half values))[plane * spatialCount + t]?)
    · refine ⟨fun plane hplane => ?_, by simp only [storeCell_length],
        fun plane hplane => by omega, fun plane _ => ?_⟩
      · refine Eq.trans ?_ (quantPlanes_cell hplane ht hparams).symm
        obtain rfl | rfl : plane = 0 ∨ plane = 1 := by omega
        · rw [Nat.zero_mul, Nat.zero_add, storeCell_of_ne _ _ (fun _ => by omega),
            storeCell_self _ hlt₀]
          rfl
        · rw [Nat.one_mul, storeCell_self _ (by rw [storeCell_length]; exact hlt)]
          rfl
      · rw [storeCell_other _ _ _ (half_ne hne.symm), storeCell_other _ _ _ (half_ne hne.symm)]
    · rintro k hk m' ⟨hplanes, hlength, hdone, hleft⟩
      have hbound := plane_lt hk ht
      have hcell : (m' (half values))[k * spatialCount + t]? =
          some ((halves m values).getD (k * spatialCount + t) 0) := by
        rw [hleft k le_rfl]
        exact half_cell (hbound.trans_le hvalues)
      have hroom : k * spatialCount + t < (m' (half values)).length :=
        hlength ▸ hbound.trans_le hvalues
      apply runs_loadHalf (sees_of_has (hhas k hk)) hcell
      apply runs_storeHalf (hhas k hk) hroom
      refine ⟨fun plane hplane => ?_, by rw [storeCell_length, hlength], fun plane hplane => ?_,
        fun plane hplane => ?_⟩
      · rw [storeCell_other _ _ _ (half_ne hne), hplanes plane hplane]
      · rcases Nat.lt_succ_iff_lt_or_eq.mp hplane with hlt | rfl
        · rw [storeCell_of_ne, hdone plane hlt]
          intro _ heq
          have hfirst := plane_lt hlt ht
          omega
        · have hmod : (plane * spatialCount + t) % spatialCount = t := by
            rw [Nat.mul_comm, Nat.mul_add_mod, Nat.mod_eq_of_lt ht]
          rw [storeCell_self _ hroom]
          refine Eq.trans ?_ (range_cell hbound).symm
          rw [hmod]
          rfl
      · rw [storeCell_of_ne, hleft plane (by omega)]
        intro _ heq
        have hfirst : (k + 1) * spatialCount ≤ plane * spatialCount :=
          Nat.mul_le_mul_right _ hplane
        rw [Nat.succ_mul] at hfirst
        omega
    · rintro m' ⟨hplanes, -, hdone, -⟩ s hs
      rcases List.mem_pair.mp hs with rfl | rfl
      · exact hplanes
      · exact hdone

end Nvcr.Rt.CudaOps
