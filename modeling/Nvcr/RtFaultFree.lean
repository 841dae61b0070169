import Nvcr.RtHostBackend
import Nvcr.RtStageAgreement

/-!
# Fault-free evaluation of the frame stages

Without provider faults every action of a frame of supported size succeeds, with a value that
depends on its arguments only. The lemmas follow the actions in the order of their definitions
and give the sizes of what they return.
-/

namespace Nvcr.Rt

open StatefulResults HostOps NestedLoops

/-- Every request of the call succeeds. -/
def Provider.NoFaults {A : HostArithmetic} (p : Provider A) : Prop := ∀ number, p.fault number = none

/-- The sizes that a backend accepts. -/
structure Geometry.Supported (g : Geometry) : Prop where
  width_ge : 64 ≤ g.width
  height_ge : 64 ≤ g.height
  width_le : g.width ≤ 1920
  height_le : g.height ≤ 1080
  width_even : g.width % 2 = 0
  height_even : g.height % 2 = 0

theorem Geometry.supported_ofSize {width height : UInt32}
    (h : Payload.SupportedDimensions width height) : (Geometry.ofSize width height).Supported where
  width_ge := h.1
  height_ge := h.2.1
  width_le := h.2.2.1
  height_le := h.2.2.2.1
  width_even := h.2.2.2.2.1
  height_even := h.2.2.2.2.2

theorem volume_shape4d {channels height width : ℕ} (hchannels : channels ≤ 1024)
    (hheight : height ≤ 2048) (hwidth : width ≤ 2048) :
    volume (shape4d channels height width) = channels * height * width := by
  have hbound : channels * height * width ≤ 1024 * 2048 * 2048 :=
    Nat.mul_le_mul (Nat.mul_le_mul hchannels hheight) hwidth
  simp only [volume, wrapSize, shape4d, Int.toNat_one, Int.toNat_natCast, Nat.one_mul]
  exact Nat.mod_eq_of_lt (by omega)

theorem count_shape4d (channels height width : ℕ) :
    (shape4d channels height width).count = channels * height * width := by
  simp [shape4d, Shape4D.count]

theorem shape4d_valid {channels height width : ℕ} (hchannels : 0 < channels) (hheight : 0 < height)
    (hwidth : 0 < width) : ¬ InvalidShape (shape4d channels height width) := by
  simp only [InvalidShape, shape4d]
  omega

namespace Geometry

variable {g : Geometry} (hg : g.Supported)

include hg

theorem Supported.yHeight : 0 < g.yHeight ∧ g.yHeight ≤ 68 := by
  have := hg.height_ge
  have := hg.height_le
  simp only [Geometry.yHeight, paddedHeight, roundUp]
  omega

theorem Supported.yWidth : 0 < g.yWidth ∧ g.yWidth ≤ 120 := by
  have := hg.width_ge
  have := hg.width_le
  simp only [Geometry.yWidth, paddedWidth, roundUp]
  omega

theorem Supported.yHeight4 : g.yHeight ≤ g.yHeight4 ∧ g.yHeight4 ≤ 68 := by
  have := hg.yHeight
  simp only [Geometry.yHeight4, roundUp]
  omega

theorem Supported.yWidth4 : g.yWidth ≤ g.yWidth4 ∧ g.yWidth4 ≤ 120 := by
  have := hg.yWidth
  simp only [Geometry.yWidth4, roundUp]
  omega

theorem Supported.padded : g.height ≤ g.paddedHeight ∧ g.paddedHeight ≤ 1088 ∧
    g.width ≤ g.paddedWidth ∧ g.paddedWidth ≤ 1920 := by
  have := hg.height_le
  have := hg.width_le
  simp only [paddedHeight, paddedWidth, roundUp]
  omega

theorem Supported.spatialCount_pos : 0 < g.spatialCount := Nat.mul_pos hg.yHeight.1 hg.yWidth.1

theorem Supported.perChannel_pos : 0 < g.perChannel := by
  have hheight := hg.yHeight
  have hwidth := hg.yWidth
  apply Nat.mul_pos
  · simp only [zHeight, Geometry.yHeight4, roundUp]
    omega
  · simp only [zWidth, Geometry.yWidth4, roundUp]
    omega

/-- Sizes derived from the latent stay far below the range of the size type. -/
theorem Supported.spatialCount_le : g.spatialCount ≤ 68 * 120 :=
  Nat.mul_le_mul hg.yHeight.2 hg.yWidth.2

end Geometry

section Divisions

variable {A : HostArithmetic} (g : Geometry)

/-- The four-way division of an intra latent. -/
def fourWay : Division A where
  reduce input := reduceChannelQuarters input (256 * g.spatialCount / 4) (g.yShape 256)
  reduceMasked input mask :=
    reduceMaskedQuarters input mask (256 * g.spatialCount / 4) (g.yShape 256)
  restore symbols means mask :=
    restoreFourWay symbols means mask (256 * g.spatialCount) (g.yShape 256)

/-- The two-way division of a predicted latent. -/
def twoWay : Division A where
  reduce input := reduceChannelHalves input (128 * g.spatialCount / 2) (g.yShape 128)
  reduceMasked input mask :=
    reduceMaskedHalves input mask (128 * g.spatialCount / 2) (g.yShape 128)
  restore symbols means mask :=
    restoreTwoWay symbols means mask (128 * g.spatialCount) (g.yShape 128)

variable {g}

theorem yShape_divides (hg : g.Supported) (parts : ℕ) (hparts : 0 < parts) (hle : parts ≤ 4) :
    Divides (g.yShape (parts * 64)) parts (64 * g.spatialCount) where
  valid := shape4d_valid (by omega) hg.yHeight.1 hg.yWidth.1
  channels := by
    simp only [Geometry.yShape, shape4d]
    push_cast
    exact Int.mul_emod_right _ _
  volume_eq := by
    have hheight := hg.yHeight.2
    have hwidth := hg.yWidth.2
    rw [Geometry.yShape, volume_shape4d (by omega) (by omega) (by omega), Geometry.spatialCount]
    ring

theorem exists_fourWayStage (hA : A.Exact) (hg : g.Supported) (stage : ℕ) (hstage : stage ≤ 3)
    {y scales means : List A.Half} (hy : y.length = 256 * g.spatialCount)
    (hscales : scales.length = 256 * g.spatialCount)
    (hmeans : means.length = 256 * g.spatialCount) :
    ∃ coding, makeFourWayMask (256 * g.spatialCount) (g.yShape 256) stage = some coding.mask ∧
      StageAgrees (fourWay g) (256 * g.spatialCount) (256 * g.spatialCount / 4) y scales means
        coding := by
  have hdivides : Divides (g.yShape 256) 4 (64 * g.spatialCount) :=
    yShape_divides hg 4 (by omega) (by omega)
  have hcount : 256 * g.spatialCount = 4 * (64 * g.spatialCount) := by ring
  have hquarter : 256 * g.spatialCount / 4 = 64 * g.spatialCount := by omega
  have hpart : 64 * g.spatialCount = 64 * g.yHeight * g.yWidth := by
    rw [Geometry.spatialCount]
    ring
  have hpart' : 256 * g.spatialCount = 256 * g.yHeight * g.yWidth := by
    rw [Geometry.spatialCount]
    ring
  have hselects := fourWay_selects 64 stage (by omega) hg.yHeight.1 hg.yWidth.1
  rw [← hpart] at hselects
  rw [hquarter, hcount]
  rw [hcount] at hy hscales hmeans
  obtain ⟨coding, hmask, hagrees⟩ := exists_stageAgrees hA (fourWay g) (y := y)
    (show 0 < 4 by omega) (Nat.mul_pos (by omega) hg.spatialCount_pos) hselects
    (fun value => by
      simp only [fourWay, hquarter]
      exact reduceChannelQuarters_keepSelected hA hdivides hselects value)
    (by
      simp only [fourWay, hquarter]
      exact reduceMaskedQuarters_takeSelected hA hdivides hselects hscales)
    (fun symbols hsymbols => by
      simp only [fourWay, hcount]
      exact restoreFourWay_eq hdivides hsymbols hmeans (by simp [maskOf]))
    hy hscales hmeans
  refine ⟨coding, ?_, hagrees⟩
  have hguard : ¬ (InvalidShape (g.yShape 256) ∨ (g.yShape 256).channels % 4 ≠ 0 ∨
      (stage : ℤ) < 0 ∨ 3 < (stage : ℤ) ∨ 4 * (64 * g.spatialCount) < volume (g.yShape 256)) := by
    rintro (hinvalid | hchannels | hnegative | hlarge | hvolume)
    · exact hdivides.valid hinvalid
    · exact hchannels hdivides.channels
    · omega
    · omega
    · rw [hdivides.volume_eq] at hvolume
      omega
  rw [makeFourWayMask, if_neg hguard, hmask, ← hcount, hpart']
  exact congrArg some (maskLoop_eq (fourWaySelected 256 stage))

theorem exists_twoWayStage (hA : A.Exact) (hg : g.Supported) (stage : ℕ) (hstage : stage ≤ 1)
    {y scales means : List A.Half} (hy : y.length = 128 * g.spatialCount)
    (hscales : scales.length = 128 * g.spatialCount)
    (hmeans : means.length = 128 * g.spatialCount) :
    ∃ coding, makeTwoWayMask (128 * g.spatialCount) (g.yShape 128) stage = some coding.mask ∧
      StageAgrees (twoWay g) (128 * g.spatialCount) (128 * g.spatialCount / 2) y scales means
        coding := by
  have hdivides : Divides (g.yShape 128) 2 (64 * g.spatialCount) :=
    yShape_divides hg 2 (by omega) (by omega)
  have hcount : 128 * g.spatialCount = 2 * (64 * g.spatialCount) := by ring
  have hhalf : 128 * g.spatialCount / 2 = 64 * g.spatialCount := by omega
  have hpart : 64 * g.spatialCount = 64 * g.yHeight * g.yWidth := by
    rw [Geometry.spatialCount]
    ring
  have hpart' : 128 * g.spatialCount = 128 * g.yHeight * g.yWidth := by
    rw [Geometry.spatialCount]
    ring
  have hselects := twoWay_selects 64 stage hg.yHeight.1 hg.yWidth.1
  rw [← hpart] at hselects
  rw [hhalf, hcount]
  rw [hcount] at hy hscales hmeans
  obtain ⟨coding, hmask, hagrees⟩ := exists_stageAgrees hA (twoWay g) (y := y)
    (show 0 < 2 by omega) (Nat.mul_pos (by omega) hg.spatialCount_pos) hselects
    (fun value => by
      simp only [twoWay, hhalf]
      exact reduceChannelHalves_keepSelected hA hdivides hselects value)
    (by
      simp only [twoWay, hhalf]
      exact reduceMaskedHalves_takeSelected hA hdivides hselects hscales)
    (fun symbols hsymbols => by
      simp only [twoWay, hcount]
      exact restoreTwoWay_eq hdivides hsymbols hmeans (by simp [maskOf]))
    hy hscales hmeans
  refine ⟨coding, ?_, hagrees⟩
  have hguard : ¬ (InvalidShape (g.yShape 128) ∨ (g.yShape 128).channels % 2 ≠ 0 ∨
      (stage : ℤ) < 0 ∨ 1 < (stage : ℤ) ∨ 2 * (64 * g.spatialCount) < volume (g.yShape 128)) := by
    rintro (hinvalid | hchannels | hnegative | hlarge | hvolume)
    · exact hdivides.valid hinvalid
    · exact hchannels hdivides.channels
    · omega
    · omega
    · rw [hdivides.volume_eq] at hvolume
      omega
  rw [makeTwoWayMask, if_neg hguard, hmask, ← hcount, hpart']
  exact congrArg some (maskLoop_eq (twoWaySelected 128 stage))

end Divisions

namespace Work

variable {A : HostArithmetic} {p : Provider A} {g : Geometry}

/-- A value that a fault-free action computes from its arguments, without coding symbols. -/
abbrev Yields {α : Type} (x : Work A α) (value : α) : Prop :=
  Action.Yields (fun activity : Activity A => (activity.encoded, activity.decoded)) x value

section Requests

variable (hp : p.NoFaults)

include hp

theorem request_yields : Yields (request p) () := by
  intro activity
  refine ⟨{ activity with requests := activity.requests + 1 }, ?_, rfl⟩
  simp [request, Action.run_bind, hp activity.requests]

theorem allocateTensor_yields (shape : Shape4D) :
    Yields (allocateTensor p shape) ⟨shape, List.replicate shape.count 0⟩ :=
  .bind (request_yields hp) (.pure _)

/-- What a stage writes into a buffer. -/
def written (p : Provider A) (stage : Stage) (inputs : List (Binding A)) (name : String)
    (buffer : Tensor A) : Tensor A :=
  { buffer with values := (List.range buffer.values.length).map (p.value stage inputs name) }

theorem runStage_yields (stage : Stage) (inputs : List (Binding A)) :
    Yields (runStage p stage inputs) (written p stage inputs) :=
  .bind (.update fun _ => rfl) (.bind (request_yields hp) (.bind (request_yields hp) (.pure _)))

omit hp in
theorem hostOp_yields {α : Type} {operation : String} {result : Option α} {value : α}
    (h : result = some value) : Yields (hostOp (A := A) operation result) value := by
  rw [h]
  exact .pure value

theorem quantTensor_yields (table : List A.Float) (qp channels : ℕ)
    (h : (qp + 1) * channels ≤ table.length) :
    ∃ tensor, Yields (quantTensor p table qp channels) tensor := by
  have hentry : ¬ table.length < qp * channels + channels := by
    rw [Nat.succ_mul] at h
    omega
  simp only [quantTensor, if_neg hentry]
  exact ⟨_, .bind (allocateTensor_yields hp _) (.pure _)⟩

omit hp in
theorem wrapSize_le (value : ℕ) : wrapSize value ≤ value := Nat.mod_le value _

omit hp in
theorem supported_nonzero {width height : UInt32} (h : Payload.SupportedDimensions width height) :
    ¬ (width = 0 ∨ height = 0) := by
  rintro (rfl | rfl)
  · exact absurd h.1 (by decide)
  · exact absurd h.2.1 (by decide)

omit hp in
/-- The bytes of an accepted frame. -/
theorem frame_length {frame : Frame} (hsize : Payload.SupportedDimensions frame.width frame.height) :
    (frame.pixelFormat = .rgb24 →
      frame.data.length = frame.width.toNat * frame.height.toNat * 3) ∧
    (frame.pixelFormat = .yuv420p8 → frame.data.length =
      frame.width.toNat * frame.height.toNat + frame.width.toNat * frame.height.toNat / 2) := by
  have hpositive := supported_nonzero hsize
  obtain ⟨-, -, -, -, hevenWidth, hevenHeight⟩ := hsize
  have hbytes : Frame.frameSizeBytes frame.width frame.height frame.pixelFormat =
      .ok frame.data.length := by
    rcases frame.size_ok with h | ⟨hzero, -, -⟩
    · exact h
    · exact absurd (.inl hzero) hpositive
  simp only [Frame.frameSizeBytes, Frame.checkedPixels, if_neg hpositive, ok_bind] at hbytes
  constructor
  · intro hformat
    simp only [hformat] at hbytes
    exact (Except.ok.inj hbytes).symm
  · intro hformat
    have heven : ¬ (frame.width.toNat % 2 ≠ 0 ∨ frame.height.toNat % 2 ≠ 0) := by omega
    simp only [hformat, if_neg heven] at hbytes
    exact (Except.ok.inj hbytes).symm

omit hp in
/-- The conversion of an accepted frame fits the frame tensor. -/
theorem exists_convertedInput {frame : Frame}
    (hformat : frame.pixelFormat = .rgb24 ∨ frame.pixelFormat = .yuv420p8)
    (hsize : Payload.SupportedDimensions frame.width frame.height) :
    let g := Geometry.ofSize frame.width frame.height
    ∃ values : List A.Half, (if frame.pixelFormat = .yuv420p8 then
        yuv420p8ToYcbcrPadded frame.data g.width g.height g.frameShape.count
          g.paddedHeight g.paddedWidth
      else
        rgb24ToYcbcrPadded frame.data g.width g.height g.frameShape.count
          g.paddedHeight g.paddedWidth) = some values := by
  intro g
  have hg : g.Supported := Geometry.supported_ofSize hsize
  have hpadded := hg.padded
  have hwidth := hg.width_ge
  have hheight := hg.height_ge
  have hevenWidth := hg.width_even
  have hevenHeight := hg.height_even
  obtain ⟨hrgb, hyuv⟩ := frame_length hsize
  have hcount : g.frameShape.count = 3 * (g.paddedHeight * g.paddedWidth) := by
    rw [Geometry.frameShape, count_shape4d, Nat.mul_assoc]
  have houtput := wrapSize_le (3 * (g.paddedHeight * g.paddedWidth))
  rw [hcount]
  rcases hformat with hformat | hformat
  · have hlength : frame.data.length = g.width * g.height * 3 := hrgb hformat
    have hinput := wrapSize_le (g.width * g.height * 3)
    rw [if_neg (by rw [hformat]; decide)]
    simp only [rgb24ToYcbcrPadded, Int.toNat_natCast]
    rw [if_neg (by omega), if_neg (by omega)]
    exact ⟨_, rfl⟩
  · have hlength : frame.data.length = g.width * g.height + g.width * g.height / 2 := hyuv hformat
    obtain ⟨halfWidth, hhalfWidth⟩ : ∃ a, g.width = 2 * a := ⟨g.width / 2, by omega⟩
    obtain ⟨halfHeight, hhalfHeight⟩ : ∃ b, g.height = 2 * b := ⟨g.height / 2, by omega⟩
    have hpixels : g.width * g.height = 4 * (halfWidth * halfHeight) := by
      rw [hhalfWidth, hhalfHeight]
      ring
    have hinput := wrapSize_le (g.width * g.height + 2 * (g.width / 2 * (g.height / 2)))
    have hchroma : g.width / 2 * (g.height / 2) = halfWidth * halfHeight := by
      rw [hhalfWidth, hhalfHeight, Nat.mul_div_cancel_left _ (by omega),
        Nat.mul_div_cancel_left _ (by omega)]
    rw [if_pos hformat]
    simp only [yuv420p8ToYcbcrPadded, Int.toNat_natCast]
    rw [if_neg (by omega), if_neg (by omega)]
    exact ⟨_, rfl⟩

theorem inputFrameTensor_yields {frame : Frame}
    (hformat : frame.pixelFormat = .rgb24 ∨ frame.pixelFormat = .yuv420p8)
    (hsize : Payload.SupportedDimensions frame.width frame.height) :
    ∃ tensor, Yields (inputFrameTensor p frame) tensor := by
  obtain ⟨values, hvalues⟩ := exists_convertedInput (A := A) hformat hsize
  refine ⟨⟨(Geometry.ofSize frame.width frame.height).frameShape, values⟩,
    .bind (allocateTensor_yields hp _) (.bind (hostOp_yields ?_) (.pure _))⟩
  rw [List.length_replicate]
  exact hvalues

omit hp in
/-- A frame tensor of supported size has a visible picture. -/
theorem exists_toYuv420p8 {width height : UInt32}
    (hsize : Payload.SupportedDimensions width height) {tensor : Tensor A}
    (hshape : tensor.shape = (Geometry.ofSize width height).frameShape)
    (hvalues : tensor.values.length = (Geometry.ofSize width height).frameShape.count)
    (timestamp : Timestamp) : ∃ frame, toYuv420p8 tensor width height timestamp = .ok frame := by
  let g := Geometry.ofSize width height
  have hg : g.Supported := Geometry.supported_ofSize hsize
  have hpadded := hg.padded
  have hwidth := hg.width_ge
  have hheight := hg.height_ge
  have hevenWidth := hg.width_even
  have hevenHeight := hg.height_even
  obtain ⟨halfWidth, hhalfWidth⟩ : ∃ a, g.width = 2 * a := ⟨g.width / 2, by omega⟩
  obtain ⟨halfHeight, hhalfHeight⟩ : ∃ b, g.height = 2 * b := ⟨g.height / 2, by omega⟩
  have hpixels : g.width * g.height = 4 * (halfWidth * halfHeight) := by
    rw [hhalfWidth, hhalfHeight]
    ring
  have hchroma : g.height / 2 * (g.width / 2) = halfWidth * halfHeight := by
    rw [hhalfWidth, hhalfHeight, Nat.mul_div_cancel_left _ (by omega),
      Nat.mul_div_cancel_left _ (by omega), Nat.mul_comm]
  have hvolume : volume g.frameShape = 3 * g.paddedHeight * g.paddedWidth :=
    volume_shape4d (by omega) (by omega) (by omega)
  have hcount : tensor.values.length = 3 * g.paddedHeight * g.paddedWidth := by
    rw [hvalues, Geometry.frameShape, count_shape4d]
  have houtput := wrapSize_le (g.width * g.height + 2 * (g.width * g.height / 4))
  have hvalid : ¬ InvalidShape g.frameShape := shape4d_valid (by omega) (by omega) (by omega)
  have hconverted : ∃ bytes, ycbcrPaddedToYuv420p8 tensor.values g.frameShape g.width g.height
      (g.width * g.height + g.width * g.height / 2) = some bytes ∧
      bytes.length = g.width * g.height + g.width * g.height / 2 := by
    have hguard : ¬ (InvalidShape g.frameShape ∨ g.frameShape.batch ≠ 1 ∨ g.frameShape.channels ≠ 3 ∨
        (g.width : ℤ) ≤ 0 ∨ (g.height : ℤ) ≤ 0 ∨ (g.width : ℤ) % 2 ≠ 0 ∨ (g.height : ℤ) % 2 ≠ 0 ∨
        g.frameShape.width < g.width ∨ g.frameShape.height < g.height) := by
      simp only [not_or]
      refine ⟨hvalid, ?_⟩
      simp only [Geometry.frameShape, shape4d]
      omega
    refine ⟨_, (if_neg hguard).trans (if_neg ?_), ?_⟩
    · simp only [Int.toNat_natCast]
      omega
    · simp only [List.length_append, List.length_flatMap, List.length_map, List.length_range,
        List.map_const', List.sum_replicate, smul_eq_mul, Int.toNat_natCast]
      rw [hchroma, Nat.mul_comm g.height g.width]
      omega
  obtain ⟨bytes, hbytes, hlength⟩ := hconverted
  have hbytesSize : Frame.frameSizeBytes width height .yuv420p8 = .ok bytes.length := by
    have hnonzero := supported_nonzero hsize
    have heven : ¬ (width.toNat % 2 ≠ 0 ∨ height.toNat % 2 ≠ 0) := by
      rintro (hodd | hodd)
      · exact hodd hevenWidth
      · exact hodd hevenHeight
    rw [hlength]
    simp only [Frame.frameSizeBytes, Frame.checkedPixels, if_neg hnonzero, ok_bind, if_neg heven]
    rfl
  obtain ⟨frame, hframe⟩ := Frame.exists_copyFrom hbytesSize timestamp
  refine ⟨frame, ?_⟩
  have hmatch : ycbcrPaddedToYuv420p8 tensor.values
      ⟨1, 3, tensor.shape.height, tensor.shape.width⟩ width.toNat height.toNat
      (width.toNat * height.toNat + width.toNat * height.toNat / 2) = some bytes := by
    rw [hshape]
    exact hbytes
  simp only [toYuv420p8, hmatch, hframe]
  rfl

theorem reconstruct_yields {width height : UInt32}
    (hsize : Payload.SupportedDimensions width height) {tensor : Tensor A}
    (hshape : tensor.shape = (Geometry.ofSize width height).frameShape)
    (hvalues : tensor.values.length = (Geometry.ofSize width height).frameShape.count)
    (timestamp : Timestamp) :
    ∃ frame, toYuv420p8 tensor width height timestamp = .ok frame ∧
      Yields (reconstruct p tensor width height timestamp) frame := by
  obtain ⟨frame, hframe⟩ := exists_toYuv420p8 hsize hshape hvalues timestamp
  exact ⟨frame, hframe, .bind (request_yields hp) (.lift hframe)⟩

omit hp in
theorem replicatePad_eq (hg : g.Supported) {channels : ℕ} (hpos : 0 < channels)
    (hchannels : channels ≤ 1024) {input : List A.Half}
    (hinput : input.length = channels * g.spatialCount) :
    replicatePad input (channels * g.yHeight4 * g.yWidth4) (g.yShape channels) g.yHeight4 g.yWidth4 =
      some (padded input channels g.yHeight g.yWidth g.yHeight4 g.yWidth4) := by
  have hheight := hg.yHeight
  have hwidth := hg.yWidth
  have hheight4 := hg.yHeight4
  have hwidth4 := hg.yWidth4
  have hvalid : ¬ InvalidShape (g.yShape channels) := shape4d_valid hpos hheight.1 hwidth.1
  have hvolume : volume (g.yShape channels) = channels * g.spatialCount := by
    rw [Geometry.yShape, volume_shape4d hchannels (by omega) (by omega), Geometry.spatialCount]
    ring
  have houtput := wrapSize_le (channels * g.yHeight4 * g.yWidth4)
  have hguard : ¬ (InvalidShape (g.yShape channels) ∨ (g.yHeight4 : ℤ) < (g.yShape channels).height ∨
      (g.yWidth4 : ℤ) < (g.yShape channels).width) := by
    simp only [Geometry.yShape, shape4d] at hvalid ⊢
    rintro (hinvalid | hlow | hlow)
    · exact hvalid hinvalid
    · omega
    · omega
  rw [replicatePad, if_neg hguard]
  simp only [Geometry.yShape, shape4d, Int.toNat_one, Int.toNat_natCast, Nat.one_mul] at hvolume ⊢
  rw [if_neg (by omega)]

omit hp in
@[simp] theorem cropped_length (input : List A.Half) (planes height width outHeight outWidth : ℕ) :
    (cropped input planes height width outHeight outWidth).length =
      planes * (outHeight * outWidth) := by
  simp [cropped]

omit hp in
theorem cropSpatial_eq (hg : g.Supported) {channels : ℕ} (hpos : 0 < channels)
    (hchannels : channels ≤ 1024) {input : List A.Half}
    (hinput : input.length = channels * g.yHeight4 * g.yWidth4) :
    cropSpatial input (channels * g.spatialCount) (shape4d channels g.yHeight4 g.yWidth4) g.yHeight
        g.yWidth =
      some (cropped input channels g.yHeight4 g.yWidth4 g.yHeight g.yWidth) := by
  have hheight := hg.yHeight
  have hwidth := hg.yWidth
  have hheight4 := hg.yHeight4
  have hwidth4 := hg.yWidth4
  have hvalid : ¬ InvalidShape (shape4d channels g.yHeight4 g.yWidth4) :=
    shape4d_valid hpos (by omega) (by omega)
  have hvolume : volume (shape4d channels g.yHeight4 g.yWidth4) = channels * g.yHeight4 * g.yWidth4 :=
    volume_shape4d hchannels (by omega) (by omega)
  have hcount : channels * g.spatialCount = channels * g.yHeight * g.yWidth := by
    rw [Geometry.spatialCount]
    ring
  have houtput := wrapSize_le (channels * g.yHeight * g.yWidth)
  have hguard : ¬ (InvalidShape (shape4d channels g.yHeight4 g.yWidth4) ∨ (g.yHeight : ℤ) ≤ 0 ∨
      (g.yWidth : ℤ) ≤ 0 ∨ (shape4d channels g.yHeight4 g.yWidth4).height < (g.yHeight : ℤ) ∨
      (shape4d channels g.yHeight4 g.yWidth4).width < (g.yWidth : ℤ)) := by
    simp only [shape4d] at hvalid ⊢
    rintro (hinvalid | hlow | hlow | hlow | hlow)
    · exact hvalid hinvalid
    · omega
    · omega
    · omega
    · omega
  rw [cropSpatial, if_neg hguard, hcount]
  simp only [shape4d, Int.toNat_one, Int.toNat_natCast, Nat.one_mul] at hvolume ⊢
  rw [if_neg (by omega)]

theorem spatialContext_yields {yHat conditioning : List A.Half}
    (h : yHat.length + conditioning.length = 512 * g.spatialCount) :
    Yields (spatialContext p yHat conditioning g) ⟨g.yShape 512, yHat ++ conditioning⟩ := by
  refine .bind (allocateTensor_yields hp _) ?_
  have hcount : (List.replicate (g.yShape 512).count (0 : A.Half)).length = 512 * g.spatialCount := by
    rw [List.length_replicate, Geometry.yShape, count_shape4d, Geometry.spatialCount, Nat.mul_assoc]
  simp only [hcount, h, ne_eq, not_true_eq_false, if_false]
  exact .pure _

theorem hyperSynthesis_yields (hg : g.Supported) (z : Tensor A) :
    ∃ params common, Yields (hyperSynthesis p g z) (params, common) ∧
      params.length = 514 * g.spatialCount ∧ common.length = 256 * g.spatialCount := by
  refine ⟨_, _, .bind (allocateTensor_yields hp _) (.bind (allocateTensor_yields hp _)
    (.bind (runStage_yields hp _ _) (.bind (request_yields hp) (.bind (hostOp_yields
      (cropSpatial_eq hg (by omega) (by omega) ?_)) (.bind (hostOp_yields
      (cropSpatial_eq hg (by omega) (by omega) ?_)) (.pure _)))))), ?_, ?_⟩
  · simp [written, count_shape4d]
  · simp [written, count_shape4d]
  · simp [Geometry.spatialCount]
  · simp [Geometry.spatialCount]

omit hp in
theorem addInPlace_eq {first second : List A.Half} {count : ℕ} (hcount : 0 < count)
    (hfirst : first.length = count) (hsecond : second.length = count) :
    ∃ sum, addInPlace first second = some sum ∧ sum.length = count := by
  have hguard : ¬ (first.isEmpty = true ∨ second.length < first.length) := by
    rw [List.isEmpty_iff_length_eq_zero]
    omega
  exact ⟨_, if_neg hguard, by simp [hfirst]⟩

omit hp in
theorem accumulate_yields {stage count : ℕ} {yHat reconstructed : List A.Half} (hcount : 0 < count)
    (hyHat : stage = 0 ∨ yHat.length = count) (hreconstructed : reconstructed.length = count) :
    ∃ sum, Yields (accumulate (A := A) stage yHat reconstructed) sum ∧ sum.length = count := by
  unfold accumulate
  split
  · exact ⟨reconstructed, .pure _, hreconstructed⟩
  · rename_i hstage
    obtain ⟨sum, hsum, hlength⟩ :=
      addInPlace_eq hcount (hyHat.resolve_left hstage) hreconstructed
    exact ⟨sum, hostOp_yields hsum, hlength⟩

/-- The sizes of the scales and means that a stage works with. -/
structure Latent.Sized (g : Geometry) (latent : Latent A) : Prop where
  scales : latent.scales.length = 256 * g.spatialCount
  means : latent.means.length = 256 * g.spatialCount

theorem nextLatent_yields {common yHat : List A.Half} {stage : ℕ} {latent : Latent A}
    (hcommon : common.length = 256 * g.spatialCount) (hyHat : yHat.length = 256 * g.spatialCount)
    (hlatent : latent.Sized g) :
    ∃ next : Latent A, Yields (nextLatent p g common stage latent yHat) next ∧ next.yHat = yHat ∧
      next.Sized g := by
  unfold nextLatent
  split
  · refine ⟨_, .bind (spatialContext_yields hp (by omega)) (.bind (allocateTensor_yields hp _)
      (.bind (runStage_yields hp _ _) (.pure _))), rfl, ?_, ?_⟩
    · simp [written, Geometry.yShape, count_shape4d, Geometry.spatialCount, Nat.mul_assoc]
    · simp [written, Geometry.yShape, count_shape4d, Geometry.spatialCount, Nat.mul_assoc]
      omega
  · exact ⟨_, .pure _, rfl, hlatent.scales, hlatent.means⟩

/-- One stage of an intra frame: what both sides code, the latent so far, and the state that the
next stage starts from. -/
theorem exists_intraStage (hA : A.Exact) (hg : g.Supported) {y common : List A.Half} {stage : ℕ}
    {latent : Latent A} (hstage : stage ≤ 3) (hy : y.length = 256 * g.spatialCount)
    (hcommon : common.length = 256 * g.spatialCount)
    (hyHat : stage = 0 ∨ latent.yHat.length = 256 * g.spatialCount) (hlatent : latent.Sized g) :
    ∃ coding yHat next, makeFourWayMask (256 * g.spatialCount) (g.yShape 256) stage =
        some coding.mask ∧
      StageAgrees (fourWay g) (256 * g.spatialCount) (256 * g.spatialCount / 4) y latent.scales
        latent.means coding ∧
      Yields (accumulate stage latent.yHat coding.processed.reconstructed) yHat ∧
      Yields (nextLatent p g common stage latent yHat) next ∧
      next.yHat.length = 256 * g.spatialCount ∧ next.Sized g := by
  obtain ⟨coding, hmask, hagrees⟩ :=
    exists_fourWayStage hA hg stage hstage hy hlatent.scales hlatent.means
  have hpos := hg.spatialCount_pos
  obtain ⟨yHat, haccumulate, hlength⟩ :=
    accumulate_yields (by omega) hyHat hagrees.reconstructed_length
  obtain ⟨next, hnext, hnextHat, hsized⟩ := nextLatent_yields hp hcommon hlength hlatent
  exact ⟨coding, yHat, next, hmask, hagrees, haccumulate, hnext, by rw [hnextHat, hlength], hsized⟩

omit hp in
theorem encodeIntraStage_yields {y common yHat : List A.Half} {stage : ℕ} {latent next : Latent A}
    {coding : StageCoding A}
    (hmask : makeFourWayMask (256 * g.spatialCount) (g.yShape 256) stage = some coding.mask)
    (hagrees : StageAgrees (fourWay g) (256 * g.spatialCount) (256 * g.spatialCount / 4) y
      latent.scales latent.means coding)
    (haccumulate : Yields (accumulate stage latent.yHat coding.processed.reconstructed) yHat)
    (hnext : Yields (nextLatent p g common stage latent yHat) next) :
    Yields (encodeIntraStage p g y common stage latent) (coding.indexes, next) :=
  .bind (hostOp_yields hmask) (.bind (hostOp_yields hagrees.processed)
    (.bind (hostOp_yields hagrees.symbols) (.bind (hostOp_yields hagrees.reducedScales)
      (.bind (hostOp_yields hagrees.indexes) (.bind haccumulate (.bind hnext (.pure _)))))))

end Requests

end Work

namespace Pipeline

open RansCodec

variable {A : HostArithmetic} {R : RansCoder} {p : Provider A} {g : Geometry} {α β : Type}

/-- A fault-free decoding action reads the given batches of symbols, in a session with the given
tables and mode, and returns a value that depends on nothing else. -/
def ReadsBatches (tables : List RansCdfTable) (two : Bool) (x : Pipeline A R α)
    (batches : List (List CodedSymbol)) (value : α) : Prop :=
  ∀ state later, state.rans.tables = tables → state.rans.useTwoCoders = two →
    state.rans.Delivers (batches ++ later) →
    ∃ state', x.run state = (.ok value, state') ∧ state'.rans.tables = tables ∧
      state'.rans.useTwoCoders = two ∧ state'.rans.Delivers later ∧
      state'.activity.encoded = state.activity.encoded ∧
      state'.activity.decoded =
        state.activity.decoded ++ batches.map (List.map CodedSymbol.symbol)

section Rules

variable {tables : List RansCdfTable} {two : Bool}

theorem ReadsBatches.bind {x : Pipeline A R α} {f : α → Pipeline A R β}
    {first second : List (List CodedSymbol)} {a : α} {b : β}
    (hx : ReadsBatches tables two x first a) (hf : ReadsBatches tables two (f a) second b) :
    ReadsBatches tables two (x >>= f) (first ++ second) b := by
  intro state later htables htwo hdelivers
  rw [List.append_assoc] at hdelivers
  obtain ⟨state', hrun', htables', htwo', hdelivers', hencoded', hdecoded'⟩ :=
    hx state (second ++ later) htables htwo hdelivers
  obtain ⟨state'', hrun, htables'', htwo'', hdelivers'', hencoded, hdecoded⟩ :=
    hf state' later htables' htwo' hdelivers'
  refine ⟨state'', ?_, htables'', htwo'', hdelivers'', hencoded.trans hencoded', ?_⟩
  · rw [Action.run_bind_of_ok hrun', hrun]
  · rw [hdecoded, hdecoded', List.map_append, List.append_assoc]

theorem ReadsBatches.pure (a : α) : ReadsBatches (A := A) (R := R) tables two (pure a) [] a :=
  fun state _ htables htwo hdelivers => ⟨state, rfl, htables, htwo, hdelivers, rfl, by simp⟩

theorem ReadsBatches.work {x : Work A α} {a : α} (h : Work.Yields x a) :
    ReadsBatches (R := R) tables two (work x) [] a := by
  intro state later htables htwo hdelivers
  obtain ⟨activity, hrun, hsymbols⟩ := h state.activity
  refine ⟨{ state with activity := activity }, ?_, htables, htwo, hdelivers,
    congrArg Prod.fst hsymbols, ?_⟩
  · rw [Pipeline.work, Action.run_zoom, hrun]
  · simpa using congrArg Prod.snd hsymbols

section Decoding

variable (hp : p.NoFaults)

include hp

/-- A call into the entropy session counts as one request. -/
theorem entropy_run {step : RansCodec R → Result (α × RansCodec R)} {state : PipelineState A R}
    {value : α} {rans : RansCodec R} (h : step state.rans = .ok (value, rans)) :
    (entropy p step).run state = (.ok value,
      ⟨{ state.activity with requests := state.activity.requests + 1 }, rans⟩) := by
  simp [entropy, Pipeline.work, Work.request, Action.run_bind, hp state.activity.requests, h,
    Except.map]

theorem decodeY_reads {group : ℕ} {indexes : List UInt8} {combined : List Int16}
    (hrows : indexes.map UInt8.toNat = combined.map combinedRow)
    (haccepts : AcceptsY tables two group (combined.map combinedRow)) :
    ReadsBatches (R := R) tables two (decodeY p indexes group) [codedY group combined]
      (combined.map combinedSymbol) := by
  rintro state later rfl rfl hdelivers
  obtain ⟨rans, hdecode, hlater, hsetup⟩ := decodeY_delivers hdelivers hrows haccepts
  refine ⟨⟨{ state.activity with
    requests := state.activity.requests + 1
    decoded := state.activity.decoded ++ [combined.map combinedSymbol] }, rans⟩, ?_, hsetup.1,
    hsetup.2, hlater, rfl, ?_⟩
  · rw [decodeY, Action.run_bind_of_ok (entropy_run hp hdecode)]
    rfl
  · simp [codedY]

theorem decodeZ_reads {group qp perChannelSize : ℕ} {symbols : List Int8}
    (haccepts : AcceptsZ tables two group (qp * 128) perChannelSize symbols.length) :
    ReadsBatches (R := R) tables two (decodeZ p symbols.length group qp perChannelSize)
      [codedZ group (qp * 128) perChannelSize symbols] symbols := by
  rintro state later rfl rfl hdelivers
  obtain ⟨rans, hdecode, hlater, hsetup⟩ := decodeZ_delivers hdelivers haccepts
  refine ⟨⟨{ state.activity with
    requests := state.activity.requests + 1
    decoded := state.activity.decoded ++ [symbols] }, rans⟩, ?_, hsetup.1, hsetup.2, hlater, rfl,
    ?_⟩
  · rw [decodeZ, Action.run_bind_of_ok (entropy_run hp hdecode)]
    rfl
  · simp [codedZ_map_symbol]

end Decoding

end Rules

end Pipeline

end Nvcr.Rt
