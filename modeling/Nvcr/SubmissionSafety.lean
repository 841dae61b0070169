import Nvcr.ProviderSubmissions

/-!
# What a submission guarantees

A submission that gets as far as the engine has one view for each declared tensor, and each view
fits its slice. The ONNX Runtime session multiplies the dimensions without looking for a wrap.
-/

namespace Nvcr.Provider

open StatefulResults

section Correspondence

/-- Views and declared tensors are in one-to-one correspondence by name. -/
structure Corresponds (names : List String) (views : List TensorView) : Prop where
  declared : ∀ i : Fin names.length, ∃! j : Fin views.length, (views.get j).name = names.get i
  submitted : ∀ j : Fin views.length, ∃! i : Fin names.length, names.get i = (views.get j).name

/-- As many views as declared tensors, and one of each name, correspond if the names differ. -/
theorem corresponds_iff {names : List String} {views : List TensorView}
    (hlength : views.length = names.length)
    (hfound : ∀ name ∈ names, ∃ view ∈ views, view.name = name) :
    Corresponds names views ↔ names.Nodup := by
  constructor
  · intro h
    refine List.nodup_iff_injective_get.mpr fun i i' hsame => ?_
    obtain ⟨j, hj, -⟩ := h.declared i
    exact (h.submitted j).unique hj.symm (hsame.symm.trans hj.symm)
  · intro hnodup
    have hview (i : Fin names.length) :
        ∃ j : Fin views.length, (views.get j).name = names.get i := by
      obtain ⟨view, hmem, hname⟩ := hfound _ (List.get_mem names i)
      obtain ⟨j, rfl⟩ := List.mem_iff_get.mp hmem
      exact ⟨j, hname⟩
    choose place hplace using hview
    have hnames := List.nodup_iff_injective_get.mp hnodup
    have hinjective : Function.Injective place := fun i i' hsame => hnames <| by
      rw [← hplace i, ← hplace i', hsame]
    have hsurjective : Function.Surjective place :=
      ((Fintype.bijective_iff_injective_and_card place).mpr ⟨hinjective, by simp [hlength]⟩).2
    constructor
    · refine fun i => ⟨place i, hplace i, fun j hj => ?_⟩
      obtain ⟨i', rfl⟩ := hsurjective j
      exact congrArg place (hnames ((hplace i').symm.trans hj))
    · intro j
      obtain ⟨i, rfl⟩ := hsurjective j
      exact ⟨i, (hplace i).symm, fun i' hi' => hnames (hi'.trans (hplace i))⟩

/-- In a correspondence the name determines the view. -/
theorem Corresponds.unique {names : List String} {views : List TensorView}
    (h : Corresponds names views) {view other : TensorView} (hview : view ∈ views)
    (hother : other ∈ views) (hname : view.name = other.name) : view = other := by
  obtain ⟨j, rfl⟩ := List.mem_iff_get.mp hview
  obtain ⟨j', rfl⟩ := List.mem_iff_get.mp hother
  obtain ⟨i, hi, -⟩ := h.submitted j
  rw [(h.declared i).unique hi.symm (hname.symm.trans hi.symm)]

theorem Corresponds.name_mem {names : List String} {views : List TensorView}
    (h : Corresponds names views) {view : TensorView} (hview : view ∈ views) :
    view.name ∈ names := by
  obtain ⟨j, rfl⟩ := List.mem_iff_get.mp hview
  obtain ⟨i, hi, -⟩ := h.submitted j
  exact hi ▸ List.get_mem names i

end Correspondence

section Slices

/-- The bytes of one element. -/
def TensorDataType.size : TensorDataType → ℕ
  | .uint8 => 1
  | .int8 => 1
  | .int32 => 4
  | .float16 => 2
  | .float32 => 4

/-- The bytes that a view's shape takes, without a bound on the numbers. -/
def TensorView.volume (view : TensorView) : ℤ :=
  (view.shape.map Int64.toInt).prod * view.dataType.size

/-- The slice of a view lies inside its buffer, and its shape fits the slice. -/
structure FitsSlice (view : TensorView) : Prop where
  inside : ∃ buffer, view.storage.buffer = some buffer ∧
    view.storage.offsetBytes.toNat + view.storage.sizeBytes.toNat ≤ buffer.sizeBytes.toNat
  volume : view.volume ≤ view.storage.sizeBytes.toNat

/-- A tensor that a stage declares, and the views that agree with it. -/
structure Declaration where
  name : String
  Agrees : TensorView → Prop

structure SafeSubmission (declared : List Declaration) (views : List TensorView) : Prop where
  corresponds : Corresponds (declared.map Declaration.name) views
  agrees : ∀ declaration ∈ declared, ∀ view ∈ views, view.name = declaration.name →
    declaration.Agrees view
  fits : ∀ view ∈ views, FitsSlice view

theorem toNat_toUInt64 {value : Int64} (h : 0 < value) :
    (value.toUInt64.toNat : ℤ) = value.toInt := by
  have hle : 0 ≤ value := Int64.le_of_lt h
  rw [Int64.toNat_toUInt64_of_le hle, Int64.cast_toNatClampNeg value hle]

/-- A product that is checked before it is taken does not wrap. -/
theorem toNat_mul_of_le_div {a b : UInt64} (hb : 0 < b.toNat) (h : ¬ a > (-1) / b) :
    (a * b).toNat = a.toNat * b.toNat := by
  have hdiv : a.toNat ≤ (2 ^ 64 - 1) / b.toNat := by
    have hle := UInt64.le_iff_toNat_le.mp (UInt64.not_lt.mp h)
    rw [UInt64.toNat_div] at hle
    exact hle
  have hmul : a.toNat * b.toNat ≤ 2 ^ 64 - 1 := (Nat.le_div_iff_mul_le hb).mp hdiv
  rw [UInt64.toNat_mul, Nat.mod_eq_of_lt (by omega)]

end Slices

namespace TensorRt

theorem countElements_eq {dimensions : List (Int64 × DimensionBounds)} {first elements : UInt64}
    (h : countElements dimensions first = some elements) :
    (elements.toNat : ℤ) = first.toNat * (dimensions.map fun d => d.1.toInt).prod := by
  induction dimensions generalizing first with
  | nil =>
      cases h
      simp
  | cons dimension dimensions ih =>
      obtain ⟨value, bounds⟩ := dimension
      rw [countElements] at h
      split_ifs at h with hbad
      simp only [not_or] at hbad
      obtain ⟨hpositive, -, -, -, hproduct⟩ := hbad
      have hvalue := toNat_toUInt64 (Int64.not_le.mp hpositive)
      have hint : 0 < value.toInt := Int64.lt_iff_toInt_lt.mp (Int64.not_le.mp hpositive)
      rw [ih h, toNat_mul_of_le_div (by omega) hproduct]
      push_cast
      rw [hvalue, List.map_cons, List.prod_cons, mul_assoc]

theorem elementBytes_eq {type : TensorDataType} (h : elementBytes type ≠ 0) :
    (elementBytes type).toNat = type.size := by
  cases type with
  | uint8 => exact absurd rfl h
  | int8 => exact absurd rfl h
  | int32 => rfl
  | float16 => rfl
  | float32 => rfl

/-- What the checks of one tensor establish about its view. -/
theorem checkTensor_ok {session : Session} {environment : Environment} {filename : String}
    {views : List TensorView} {tensor : TensorSpec}
    (h : checkTensor session environment filename views tensor = .ok ()) :
    ∃ view, findTensor views tensor.name = some view ∧ view.dataType = tensor.dataType ∧
      view.access = tensor.access ∧ FitsSlice view := by
  unfold checkTensor at h
  cases hfound : findTensor views tensor.name with
  | none => rw [hfound] at h; exact nomatch h
  | some view =>
      simp only [hfound] at h
      by_cases hcontract : view.dataType ≠ tensor.dataType ∨ view.access ≠ tensor.access ∨
          view.shape.length ≠ tensor.rank
      · rw [if_pos hcontract] at h
        exact nomatch h
      rw [if_neg hcontract] at h
      simp only [not_or, not_not] at hcontract
      obtain ⟨htype, haccess, hrank⟩ := hcontract
      cases hbuffer : ownedBuffer session view with
      | none => rw [hbuffer] at h; exact nomatch h
      | some buffer =>
          simp only [hbuffer] at h
          by_cases hslice : view.storage.offsetBytes > buffer.sizeBytes ∨
              view.storage.sizeBytes > buffer.sizeBytes - view.storage.offsetBytes
          · rw [if_pos hslice] at h
            exact nomatch h
          rw [if_neg hslice] at h
          simp only [not_or, UInt64.not_lt, gt_iff_lt] at hslice
          cases hcount : countElements (view.shape.zip tensor.dimensions) 1 with
          | none => rw [hcount] at h; exact nomatch h
          | some elements =>
              simp only [hcount] at h
              by_cases hsize : elementBytes view.dataType = 0 ∨
                  elements > (-1) / elementBytes view.dataType ∨
                  view.storage.sizeBytes < elements * elementBytes view.dataType
              · rw [if_pos hsize] at h
                exact nomatch h
              simp only [not_or] at hsize
              obtain ⟨hnonzero, hproduct, hfits⟩ := hsize
              refine ⟨view, rfl, htype, haccess, ⟨buffer, ?_, ?_⟩, ?_⟩
              · exact (Option.filter_eq_some_iff.mp hbuffer).1
              · have hoffset := UInt64.le_iff_toNat_le.mp hslice.1
                have hrest := UInt64.le_iff_toNat_le.mp hslice.2
                rw [UInt64.toNat_sub_of_le _ _ hslice.1] at hrest
                omega
              · have hbytes := elementBytes_eq hnonzero
                have hpositive : 0 < (elementBytes view.dataType).toNat := by
                  rw [hbytes]
                  cases view.dataType <;> decide
                have hproduct' := toNat_mul_of_le_div hpositive hproduct
                have hle := UInt64.le_iff_toNat_le.mp (UInt64.not_lt.mp hfits)
                have hcount' := countElements_eq hcount
                have hshape : (view.shape.zip tensor.dimensions).map (fun d => d.1.toInt) =
                    view.shape.map Int64.toInt := by
                  have hfirst := List.map_fst_zip (Nat.le_of_eq hrank)
                  rw [← congrArg (List.map Int64.toInt) hfirst, List.map_map]
                  rfl
                rw [hproduct', hbytes] at hle
                rw [hshape] at hcount'
                rw [TensorView.volume]
                have hone : ((1 : UInt64).toNat : ℤ) = 1 := rfl
                rw [hone, one_mul] at hcount'
                rw [← hcount']
                exact_mod_cast hle

theorem findTensor_eq_some {views : List TensorView} {name : String} {view : TensorView}
    (h : findTensor views name = some view) :
    view ∈ views ∧ view.name = name ∧ ∀ other ∈ views, other.name = name → other = view := by
  unfold findTensor at h
  cases hfilter : views.filter (fun view => view.name == name) with
  | nil => rw [hfilter] at h; exact nomatch h
  | cons first rest =>
      rw [hfilter] at h
      cases rest with
      | cons second rest => exact nomatch h
      | nil =>
          cases h
          have hmem : view ∈ views ∧ view.name = name := by
            have hview : view ∈ views.filter fun view => view.name == name := by rw [hfilter]; simp
            simpa using hview
          refine ⟨hmem.1, hmem.2, fun other hother hname => ?_⟩
          have hfound : other ∈ views.filter fun view => view.name == name := by
            simpa using ⟨hother, hname⟩
          rw [hfilter] at hfound
          exact List.mem_singleton.mp hfound

/-- What a stage declares. -/
def declarations (stage : Stage) : List Declaration :=
  stage.tensors.map fun tensor =>
    ⟨tensor.name, fun view => view.access = tensor.access ∧ view.dataType = tensor.dataType⟩

/-- A submission that reaches the enqueue is safe exactly if the declared names differ. -/
theorem submitImpl_safe_iff {session : Session} {environment : Environment}
    {handle : StageHandle} {views : List TensorView} {dependencies : List ExecutionDependency}
    (h : submitImpl session environment handle views dependencies = .ok ()) :
    SafeSubmission (declarations handle.stage) views ↔
      (handle.stage.tensors.map TensorSpec.name).Nodup := by
  unfold submitImpl at h
  obtain ⟨_, -, h⟩ := bind_eq_ok.mp h
  obtain ⟨_, hlength, h⟩ := bind_eq_ok.mp h
  obtain ⟨_, -, h⟩ := bind_eq_ok.mp h
  obtain ⟨_, -, h⟩ := bind_eq_ok.mp h
  obtain ⟨_, hchecked, -⟩ := bind_eq_ok.mp h
  rw [require_eq_ok] at hlength
  have hchecked := forM_eq_ok hchecked
  have hnames : (declarations handle.stage).map Declaration.name =
      handle.stage.tensors.map TensorSpec.name := by
    rw [declarations, List.map_map]
    rfl
  have hview (tensor : TensorSpec) (hmem : tensor ∈ handle.stage.tensors) :=
    checkTensor_ok (hchecked tensor hmem)
  have hcorresponds : Corresponds ((declarations handle.stage).map Declaration.name) views ↔
      (handle.stage.tensors.map TensorSpec.name).Nodup := by
    rw [hnames]
    refine corresponds_iff (by rw [List.length_map, hlength]) fun name hname => ?_
    obtain ⟨tensor, hmem, rfl⟩ := List.mem_map.mp hname
    obtain ⟨view, hfound, -⟩ := hview tensor hmem
    obtain ⟨hmem, hname, -⟩ := findTensor_eq_some hfound
    exact ⟨view, hmem, hname⟩
  refine ⟨fun hsafe => hcorresponds.mp hsafe.corresponds, fun hnodup => ?_⟩
  have hpaired := hcorresponds.mpr hnodup
  refine ⟨hpaired, fun declaration hdeclared view hmem hname => ?_, fun view hmem => ?_⟩
  · obtain ⟨tensor, htensor, rfl⟩ := List.mem_map.mp hdeclared
    obtain ⟨found, hfound, htype, haccess, -⟩ := hview tensor htensor
    obtain ⟨-, -, hunique⟩ := findTensor_eq_some hfound
    rw [hunique view hmem hname]
    exact ⟨haccess, htype⟩
  · have hname := hpaired.name_mem hmem
    rw [hnames] at hname
    obtain ⟨tensor, htensor, hsame⟩ := List.mem_map.mp hname
    obtain ⟨found, hfound, -, -, hfits⟩ := hview tensor htensor
    obtain ⟨-, -, hunique⟩ := findTensor_eq_some hfound
    rw [hunique view hmem hsame.symm]
    exact hfits

end TensorRt

namespace OnnxRuntime

/-- The product as it is computed is the product modulo the size of a word. -/
theorem countElements_eq {shape : List Int64} {first elements : UInt64}
    (h : countElements shape first = some elements) :
    ∃ volume : ℕ, (volume : ℤ) = (shape.map Int64.toInt).prod ∧
      elements.toNat = first.toNat * volume % 2 ^ 64 := by
  induction shape generalizing first with
  | nil =>
      cases h
      exact ⟨1, by simp, by simp [Nat.mod_eq_of_lt elements.toNat_lt]⟩
  | cons dimension shape ih =>
      rw [countElements] at h
      split_ifs at h with hpositive
      obtain ⟨volume, hvolume, helements⟩ := ih h
      have hdimension := toNat_toUInt64 (Int64.not_le.mp hpositive)
      refine ⟨dimension.toUInt64.toNat * volume, ?_, ?_⟩
      · rw [List.map_cons, List.prod_cons, ← hvolume, ← hdimension]
        push_cast
        rfl
      · rw [helements, UInt64.toNat_mul, Nat.mod_mul_mod, mul_assoc]

/-- What the validation of one view establishes. -/
theorem validate_ok {ownerId : String} {view : TensorView} {writable : Bool}
    {modelType : Option ElementType} (h : validate ownerId view writable modelType = .ok ()) :
    (if writable then view.access ≠ .read else view.access ≠ .write) ∧
      modelType = some (onnxType view.dataType) ∧
      (FitsSlice view ↔ view.volume < 2 ^ 64) := by
  unfold validate at h
  dsimp only at h
  by_cases haccess : (!(if writable then decide (view.access ≠ .read)
      else decide (view.access ≠ .write)) ||
        decide (modelType ≠ some (onnxType view.dataType))) = true
  · rw [if_pos haccess] at h
    exact nomatch h
  rw [if_neg haccess] at h
  simp only [Bool.or_eq_true, not_or, decide_eq_true_eq, not_not, Bool.not_eq_true',
    Bool.not_eq_false] at haccess
  obtain ⟨hallowed, htype⟩ := haccess
  refine ⟨by cases writable <;> simpa using hallowed, htype, ?_⟩
  cases hbuffer : view.storage.buffer.filter fun buffer => buffer.ownerId == ownerId with
  | none => rw [hbuffer] at h; exact nomatch h
  | some buffer =>
      simp only [hbuffer] at h
      cases hcount : countElements view.shape 1 with
      | none => rw [hcount] at h; exact nomatch h
      | some elements =>
          simp only [hcount] at h
          by_cases hslice : view.storage.sizeBytes ≠ elements * elementBytes view.dataType ∨
              view.storage.offsetBytes + view.storage.sizeBytes < view.storage.offsetBytes ∨
              view.storage.offsetBytes + view.storage.sizeBytes > buffer.sizeBytes
          · rw [if_pos hslice] at h
            exact nomatch h
          simp only [not_or, not_not, UInt64.not_lt, gt_iff_lt] at hslice
          obtain ⟨hsize, hwrap, hend⟩ := hslice
          obtain ⟨volume, hvolume, helements⟩ := countElements_eq hcount
          have hinside : view.storage.offsetBytes.toNat + view.storage.sizeBytes.toNat ≤
              buffer.sizeBytes.toNat := by
            have hwrap := UInt64.le_iff_toNat_le.mp hwrap
            have hend := UInt64.le_iff_toNat_le.mp hend
            rw [UInt64.toNat_add] at hwrap hend
            have hoffset := view.storage.offsetBytes.toNat_lt
            have hbytes := view.storage.sizeBytes.toNat_lt
            omega
          have hbytes : (elementBytes view.dataType).toNat = view.dataType.size := by
            cases view.dataType <;> rfl
          have hproduct : view.storage.sizeBytes.toNat =
              volume * view.dataType.size % 2 ^ 64 := by
            have hone : (1 : UInt64).toNat = 1 := rfl
            rw [hsize, UInt64.toNat_mul, hbytes, helements, hone, one_mul, Nat.mod_mul_mod]
          have hview : view.volume = (volume * view.dataType.size : ℕ) := by
            rw [TensorView.volume, ← hvolume]
            push_cast
            rfl
          rw [hview]
          constructor
          · intro hfits
            have hle := hfits.volume
            rw [hview] at hle
            have hlt := view.storage.sizeBytes.toNat_lt
            omega
          · intro hlt
            refine ⟨⟨buffer, (Option.filter_eq_some_iff.mp hbuffer).1, hinside⟩, ?_⟩
            have hlt' : volume * view.dataType.size < 2 ^ 64 := by exact_mod_cast hlt
            rw [hview, hproduct, Nat.mod_eq_of_lt hlt']

/-- What a stage declares. A view that may be read and written agrees with both. -/
def declarations (stage : Stage) : List Declaration :=
  (stage.inputs.map fun tensor =>
    ⟨tensor.1, fun view => view.access ≠ .write ∧ onnxType view.dataType = tensor.2⟩) ++
  stage.outputs.map fun tensor =>
    ⟨tensor.1, fun view => view.access ≠ .read ∧ onnxType view.dataType = tensor.2⟩

theorem bindTensor_ok {ownerId : String} {createTensor : CreateTensor} {stage : Stage}
    {views : List TensorView} {writable : Bool} {name : String}
    (h : bindTensor ownerId createTensor stage views writable name = .ok ()) :
    ∃ view, view ∈ views ∧ view.name = name ∧
      (if writable then view.access ≠ .read else view.access ≠ .write) ∧
      stage.typeOf name writable = some (onnxType view.dataType) ∧
      (FitsSlice view ↔ view.volume < 2 ^ 64) := by
  unfold bindTensor at h
  cases hfound : views.find? fun view => view.name == name with
  | none => rw [hfound] at h; exact nomatch h
  | some view =>
      rw [hfound] at h
      obtain ⟨_, hvalid, -⟩ := bind_eq_ok.mp h
      exact ⟨view, List.mem_of_find?_eq_some hfound, by simpa using List.find?_some hfound,
        validate_ok hvalid⟩

/-- The first tensor of a name is the only one if the names differ. -/
theorem typeOf_eq {stage : Stage} {writable : Bool} {tensor : String × ElementType}
    (hmem : tensor ∈ stage.tensors writable)
    (hnodup : ((stage.tensors writable).map Prod.fst).Nodup) :
    stage.typeOf tensor.1 writable = some tensor.2 := by
  unfold Stage.typeOf
  cases hfound : (stage.tensors writable).find? fun other => other.1 == tensor.1 with
  | none =>
      have hnone := List.find?_eq_none.mp hfound tensor hmem
      simp at hnone
  | some other =>
      have hother := List.mem_of_find?_eq_some hfound
      have hname : other.1 = tensor.1 := by simpa using List.find?_some hfound
      rw [List.inj_on_of_nodup_map hnodup hother hmem hname]
      rfl

/-- A submission that reaches `Run` is safe exactly if the declared names differ and no view's
volume exceeds a word. -/
theorem submit_safe_iff {ownerId : String} {createTensor : CreateTensor} {stage : Stage}
    {views : List TensorView} {dependencies : List ExecutionDependency}
    (h : submit ownerId createTensor stage views dependencies = .ok ()) :
    SafeSubmission (declarations stage) views ↔
      ((stage.inputs ++ stage.outputs).map Prod.fst).Nodup ∧
        ∀ view ∈ views, view.volume < 2 ^ 64 := by
  unfold submit at h
  obtain ⟨_, -, h⟩ := bind_eq_ok.mp h
  obtain ⟨_, -, h⟩ := bind_eq_ok.mp h
  obtain ⟨_, hinputs, h⟩ := bind_eq_ok.mp h
  obtain ⟨_, houtputs, hlength⟩ := bind_eq_ok.mp h
  rw [require_eq_ok] at hlength
  have hnames : (declarations stage).map Declaration.name =
      (stage.inputs ++ stage.outputs).map Prod.fst := by
    simp [declarations, Function.comp_def]
  have hbound (writable : Bool) (tensor : String × ElementType)
      (hmem : tensor ∈ stage.tensors writable) := by
    have hall : ∀ name ∈ (stage.tensors writable).map Prod.fst,
        bindTensor ownerId createTensor stage views writable name = .ok () := by
      cases writable with
      | true => exact forM_eq_ok houtputs
      | false => exact forM_eq_ok hinputs
    exact bindTensor_ok (hall tensor.1 (List.mem_map_of_mem hmem))
  have hcorresponds : Corresponds ((declarations stage).map Declaration.name) views ↔
      ((stage.inputs ++ stage.outputs).map Prod.fst).Nodup := by
    rw [hnames]
    refine corresponds_iff (by rw [List.length_map, List.length_append, hlength]) ?_
    intro name hname
    obtain ⟨tensor, hmem, rfl⟩ := List.mem_map.mp hname
    rcases List.mem_append.mp hmem with hmem | hmem
    · obtain ⟨view, hview, hname, -⟩ := hbound false tensor hmem
      exact ⟨view, hview, hname⟩
    · obtain ⟨view, hview, hname, -⟩ := hbound true tensor hmem
      exact ⟨view, hview, hname⟩
  have hfits (hpaired : Corresponds ((declarations stage).map Declaration.name) views)
      (view : TensorView) (hmem : view ∈ views) : FitsSlice view ↔ view.volume < 2 ^ 64 := by
    have hname := hpaired.name_mem hmem
    rw [hnames] at hname
    obtain ⟨tensor, htensor, hsame⟩ := List.mem_map.mp hname
    rcases List.mem_append.mp htensor with htensor | htensor
    · obtain ⟨found, hfound, hname, -, -, hiff⟩ := hbound false tensor htensor
      rwa [hpaired.unique hmem hfound (hsame.symm.trans hname.symm)]
    · obtain ⟨found, hfound, hname, -, -, hiff⟩ := hbound true tensor htensor
      rwa [hpaired.unique hmem hfound (hsame.symm.trans hname.symm)]
  constructor
  · intro hsafe
    exact ⟨hcorresponds.mp hsafe.corresponds, fun view hmem =>
      (hfits hsafe.corresponds view hmem).mp (hsafe.fits view hmem)⟩
  · rintro ⟨hnodup, hvolume⟩
    have hpaired := hcorresponds.mpr hnodup
    rw [List.map_append] at hnodup
    refine ⟨hpaired, fun declaration hdeclared view hmem hname => ?_, fun view hmem =>
      (hfits hpaired view hmem).mpr (hvolume view hmem)⟩
    rcases List.mem_append.mp hdeclared with hdeclared | hdeclared
    · obtain ⟨tensor, htensor, rfl⟩ := List.mem_map.mp hdeclared
      obtain ⟨found, hfound, hfoundName, haccess, htype, -⟩ := hbound false tensor htensor
      have htyped : stage.typeOf tensor.1 false = some tensor.2 :=
        typeOf_eq htensor hnodup.of_append_left
      rw [htyped] at htype
      rw [hpaired.unique hmem hfound (hname.trans hfoundName.symm)]
      exact ⟨by simpa using haccess, (Option.some.inj htype).symm⟩
    · obtain ⟨tensor, htensor, rfl⟩ := List.mem_map.mp hdeclared
      obtain ⟨found, hfound, hfoundName, haccess, htype, -⟩ := hbound true tensor htensor
      have htyped : stage.typeOf tensor.1 true = some tensor.2 :=
        typeOf_eq htensor hnodup.of_append_right
      rw [htyped] at htype
      rw [hpaired.unique hmem hfound (hname.trans hfoundName.symm)]
      exact ⟨by simpa using haccess, (Option.some.inj htype).symm⟩

end OnnxRuntime

section Submissions

/-- Submissions that get as far as the engine are safe, for TensorRT exactly if the declared names
differ, for ONNX Runtime exactly if moreover no view's volume exceeds a word. -/
theorem submissions_safe_iff (session : TensorRt.Session) (environment : TensorRt.Environment)
    (handle : TensorRt.StageHandle) (ownerId : String) (createTensor : OnnxRuntime.CreateTensor)
    (stage : OnnxRuntime.Stage) (views : List TensorView)
    (dependencies : List ExecutionDependency) :
    (TensorRt.submitImpl session environment handle views dependencies = .ok () →
      (SafeSubmission (TensorRt.declarations handle.stage) views ↔
        (handle.stage.tensors.map TensorRt.TensorSpec.name).Nodup)) ∧
    (OnnxRuntime.submit ownerId createTensor stage views dependencies = .ok () →
      (SafeSubmission (OnnxRuntime.declarations stage) views ↔
        ((stage.inputs ++ stage.outputs).map Prod.fst).Nodup ∧
          ∀ view ∈ views, view.volume < 2 ^ 64)) :=
  ⟨fun h => TensorRt.submitImpl_safe_iff h, fun h => OnnxRuntime.submit_safe_iff h⟩

/-- A model with one input. -/
def singleInput : OnnxRuntime.Stage := ⟨"onnxruntime-session-1", [("frame", .uint8)], []⟩

/-- A view of 2^32 times 2^32 elements over a slice of no bytes. -/
def wrappingView : TensorView where
  name := "frame"
  dataType := .uint8
  shape := [4294967296, 4294967296]
  access := .read
  storage := ⟨some ⟨16, .host, "onnxruntime-session-1", false⟩, 0, 0⟩

/-- The view is submitted although its volume exceeds its slice. -/
theorem wrapping_view_submitted :
    OnnxRuntime.submit "onnxruntime-session-1" (fun _ _ _ => .ok ()) singleInput [wrappingView]
        [] = .ok () ∧
      (wrappingView.storage.sizeBytes.toNat : ℤ) < wrappingView.volume := by
  decide +kernel

def wholeView (tensorRt : Bool) (type : TensorDataType) : TensorView where
  name := "frame"
  dataType := type
  shape := [4]
  access := .read
  storage := ⟨some ⟨16, .pinnedHost, "session-1", tensorRt⟩, 0,
    if tensorRt then 16 else 4⟩

def singleStage : TensorRt.Stage := ⟨"encoder.plan", [⟨"frame", .input, .float32, [⟨1, 8⟩]⟩]⟩

theorem submissions_safe_iff_single :
    SafeSubmission (TensorRt.declarations singleStage) [wholeView true .float32] ∧
      SafeSubmission (OnnxRuntime.declarations ⟨"session-1", [("frame", .uint8)], []⟩)
        [wholeView false .uint8] := by
  have hsafe (views : List TensorView) := submissions_safe_iff ⟨"session-1", true, [singleStage]⟩
    ⟨.ok (), fun _ _ => true, fun _ _ => true, fun _ => [], .ok ()⟩ ⟨0, singleStage⟩
    "session-1" (fun _ _ _ => .ok ()) ⟨"session-1", [("frame", .uint8)], []⟩ views []
  constructor
  · exact ((hsafe [wholeView true .float32]).1 (by decide +kernel)).mpr (by decide)
  · exact ((hsafe [wholeView false .uint8]).2 (by decide +kernel)).mpr ⟨by decide, by decide +kernel⟩

end Submissions

end Nvcr.Provider
