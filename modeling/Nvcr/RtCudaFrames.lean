import Nvcr.RtCudaStores

/-!
# Device conversions of frames

Padded planes of a frame from its bytes, and the bytes of a frame from the planes.
-/

namespace Nvcr.Rt.CudaOps

open KernelThreads KernelThreads.Thread

variable {A : HostArithmetic} {m : DeviceMemory A} {count t : ℕ}

/-- Three planes of a buffer are stored to one after another. -/
theorem runs_threePlanes {output n : ℕ} {x y z : A.Float} {stored : List A.Half} (ht : t < n)
    (hlen : 3 * n ≤ (halves m output).length) (hx : stored[0 * n + t]? = some (A.toHalf x))
    (hy : stored[1 * n + t]? = some (A.toHalf y)) (hz : stored[2 * n + t]? = some (A.toHalf z)) :
    (storeHalf output t x >>= fun _ => storeHalf output (n + t) y >>= fun _ =>
      storeHalf output (2 * n + t) z).Runs (Sees (only (half output) 3) n t)
      (Has (only (half output) 3) n t)
      (fun _ m' => ∀ plane < 3, (m' (half output))[plane * n + t]? = stored[plane * n + t]?) m := by
  have hhas₀ : Has (only (half output) 3) n t (half output) (0 * n + t) :=
    has_only_cell (by omega) ht
  have hhas₁ : Has (only (half output) 3) n t (half output) (1 * n + t) :=
    has_only_cell (by omega) ht
  have hhas₂ : Has (only (half output) 3) n t (half output) (2 * n + t) :=
    has_only_cell (by omega) ht
  rw [Nat.zero_mul, Nat.zero_add] at hhas₀ hx
  rw [Nat.one_mul] at hhas₁ hy
  have hroom : 3 * n ≤ (m (half output)).length := hlen
  have hlt₁ : ∀ v, n + t < (storeCell m (half output) t v (half output)).length := by
    intro v
    rw [storeCell_length]
    omega
  have hlt₂ : ∀ v w, 2 * n + t < (storeCell (storeCell m (half output) t v) (half output) (n + t) w
      (half output)).length := by
    intro v w
    rw [storeCell_length, storeCell_length]
    omega
  apply runs_bind
  apply runs_storeHalf hhas₀ (by omega)
  apply runs_bind
  apply runs_storeHalf hhas₁ (hlt₁ _)
  apply runs_storeHalf hhas₂ (hlt₂ _ _)
  intro plane hplane
  obtain rfl | rfl | rfl : plane = 0 ∨ plane = 1 ∨ plane = 2 := by omega
  · rw [Nat.zero_mul, Nat.zero_add, storeCell_of_ne _ _ (fun _ => by omega),
      storeCell_of_ne _ _ (fun _ => by omega), storeCell_self _ (by omega), hx]
  · rw [Nat.one_mul, storeCell_of_ne _ _ (fun _ => by omega), storeCell_self _ (hlt₁ _), hy]
  · rw [storeCell_self _ (hlt₂ _ _), hz]

theorem paddedPlane_eq (width height outWidth outHeight : ℕ) (pixel : ℕ → ℕ → A.Half) :
    HostOps.paddedPlane width height outWidth outHeight pixel =
      (List.range (outHeight * outWidth)).map fun index =>
        pixel (min (index / outWidth) (height - 1)) (min (index % outWidth) (width - 1)) := by
  rw [HostOps.paddedPlane, NestedLoops.flatMap_range_map_range]

theorem clamped_eq {x size : ℕ} : (if x < size then x else size - 1) = min x (size - 1) := by
  split <;> omega

/-- The cells of three lists one after another. -/
theorem append_cells {α : Type} {xs ys : List α} {n : ℕ} (ht : t < n) (hxs : xs.length = n)
    (hys : ys.length = n) (zs : List α) :
    (xs ++ ys ++ zs)[0 * n + t]? = xs[t]? ∧ (xs ++ ys ++ zs)[1 * n + t]? = ys[t]? ∧
      (xs ++ ys ++ zs)[2 * n + t]? = zs[t]? := by
  refine ⟨?_, ?_, ?_⟩
  · rw [List.append_assoc, List.getElem?_append_left (by omega), Nat.zero_mul, Nat.zero_add]
  · rw [List.append_assoc, List.getElem?_append_right (by omega),
      List.getElem?_append_left (by omega)]
    congr 1
    omega
  · rw [List.getElem?_append_right (by rw [List.length_append]; omega)]
    congr 1
    rw [List.length_append]
    omega

theorem paddedPlane_cell {width height outWidth outHeight : ℕ} (pixel : ℕ → ℕ → A.Half)
    (ht : t < outHeight * outWidth) :
    (HostOps.paddedPlane width height outWidth outHeight pixel)[t]? =
      some (pixel (min (t / outWidth) (height - 1)) (min (t % outWidth) (width - 1))) := by
  rw [paddedPlane_eq, range_cell ht]

theorem paddedPlane_length (width height outWidth outHeight : ℕ) (pixel : ℕ → ℕ → A.Half) :
    (HostOps.paddedPlane width height outWidth outHeight pixel).length = outHeight * outWidth := by
  rw [paddedPlane_eq, List.length_map, List.length_range]

theorem threePlanes_length (width height outWidth outHeight : ℕ) (luma cb cr : ℕ → ℕ → A.Half) :
    (HostOps.paddedPlane width height outWidth outHeight luma ++
      HostOps.paddedPlane width height outWidth outHeight cb ++
      HostOps.paddedPlane width height outWidth outHeight cr).length =
      3 * (outHeight * outWidth) := by
  simp only [List.length_append, paddedPlane_length]
  ring

theorem agrees_rgb24ToYcbcrPadded {input output : ℕ}
    {sourceWidth sourceHeight paddedHeight paddedWidth : ℤ}
    (h : Operation.Fits m (.rgb24ToYcbcrPadded input sourceWidth sourceHeight output paddedHeight
      paddedWidth)) :
    Agrees m (.rgb24ToYcbcrPadded input sourceWidth sourceHeight output paddedHeight
      paddedWidth) := by
  obtain ⟨hinput, hmax, hlen⟩ := h
  by_cases hbad : sourceWidth ≤ 0 ∨ sourceHeight ≤ 0 ∨ paddedHeight < sourceHeight ∨
      paddedWidth < sourceWidth
  · exact agrees_of_refused (by rw [Operation.host, HostOps.rgb24ToYcbcrPadded, if_pos hbad]; rfl)
      (by rw [Operation.device, rgb24ToYcbcrPadded, if_pos hbad])
  obtain ⟨hwidth, hheight, hrows, hcolumns⟩ : 0 < sourceWidth.toNat ∧ 0 < sourceHeight.toNat ∧
      sourceHeight.toNat ≤ paddedHeight.toNat ∧ sourceWidth.toNat ≤ paddedWidth.toNat := by omega
  set count := paddedHeight.toNat * paddedWidth.toNat with hcount
  have hpos : 0 < count := Nat.mul_pos (by omega) (by omega)
  have hwrap : HostOps.wrapSize count = count := Nat.mod_eq_of_lt (by omega)
  have hwrap₃ : HostOps.wrapSize (3 * count) = 3 * count := Nat.mod_eq_of_lt (by omega)
  have hsmall : sourceWidth.toNat * sourceHeight.toNat ≤ count := by
    rw [hcount, Nat.mul_comm paddedHeight.toNat]
    exact Nat.mul_le_mul hcolumns hrows
  have hwrapInput : HostOps.wrapSize (sourceWidth.toNat * sourceHeight.toNat * 3) =
      sourceWidth.toNat * sourceHeight.toNat * 3 := Nat.mod_eq_of_lt (by omega)
  let red : ℕ → ℕ → A.Float := fun y x =>
    HostOps.byteOverMax (bytes m input) ((y * sourceWidth.toNat + x) * 3)
  let green : ℕ → ℕ → A.Float := fun y x =>
    HostOps.byteOverMax (bytes m input) ((y * sourceWidth.toNat + x) * 3 + 1)
  let blue : ℕ → ℕ → A.Float := fun y x =>
    HostOps.byteOverMax (bytes m input) ((y * sourceWidth.toNat + x) * 3 + 2)
  let kr : A.Float := A.ofRat (2126 / 10000)
  let kb : A.Float := A.ofRat (722 / 10000)
  let luma : ℕ → ℕ → A.Float := fun y x =>
    kr * red y x + A.ofRat (7152 / 10000) * green y x + kb * blue y x
  let cb : ℕ → ℕ → A.Float := fun y x =>
    A.ofRat (1 / 2) * (blue y x - luma y x) / (A.ofRat 1 - kb) + A.ofRat (1 / 2)
  let cr : ℕ → ℕ → A.Float := fun y x =>
    A.ofRat (1 / 2) * (red y x - luma y x) / (A.ofRat 1 - kr) + A.ofRat (1 / 2)
  have hhost : (Operation.rgb24ToYcbcrPadded input sourceWidth sourceHeight output
      paddedHeight paddedWidth).host m = some (fillHalf m output
        (HostOps.paddedPlane sourceWidth.toNat sourceHeight.toNat paddedWidth.toNat
            paddedHeight.toNat (fun y x => A.toHalf (luma y x)) ++
          HostOps.paddedPlane sourceWidth.toNat sourceHeight.toNat paddedWidth.toNat
            paddedHeight.toNat (fun y x => A.toHalf (cb y x)) ++
          HostOps.paddedPlane sourceWidth.toNat sourceHeight.toNat paddedWidth.toNat
            paddedHeight.toNat (fun y x => A.toHalf (cr y x)))) := by
    rw [Operation.host, HostOps.rgb24ToYcbcrPadded, if_neg hbad]
    simp only [← hcount, hwrapInput, hwrap₃]
    rw [if_neg (by omega)]
    rfl
  refine agrees_of_output (half output) 3 _ hpos (by omega)
    (by rw [Operation.device, rgb24ToYcbcrPadded, if_neg hbad]; simp only [← hcount, hwrap]; rfl)
    hhost (threePlanes_length _ _ _ _ _ _ _) fun t ht => ?_
  have hrow : min (t / paddedWidth.toNat) (sourceHeight.toNat - 1) < sourceHeight.toNat := by omega
  have hcolumn : min (t % paddedWidth.toNat) (sourceWidth.toNat - 1) < sourceWidth.toNat := by
    omega
  have hpixel := plane_lt hrow hcolumn
  rw [Nat.mul_comm sourceWidth.toNat] at hinput
  have hoffset : t / paddedWidth.toNat * paddedWidth.toNat + t % paddedWidth.toNat = t :=
    Nat.div_add_mod' t paddedWidth.toNat
  simp only [clamped_eq, hoffset, ← hcount]
  apply runs_readByte (sees_only (by simp) _) (byte_cell (by omega))
  apply runs_readByte (sees_only (by simp) _) (byte_cell (by omega))
  apply runs_readByte (sees_only (by simp) _) (byte_cell (by omega))
  obtain ⟨h₀, h₁, h₂⟩ := append_cells ht
    (paddedPlane_length sourceWidth.toNat sourceHeight.toNat paddedWidth.toNat paddedHeight.toNat
      fun y x => A.toHalf (luma y x))
    (paddedPlane_length sourceWidth.toNat sourceHeight.toNat paddedWidth.toNat paddedHeight.toNat
      fun y x => A.toHalf (cb y x)) (HostOps.paddedPlane sourceWidth.toNat
        sourceHeight.toNat paddedWidth.toNat paddedHeight.toNat fun y x => A.toHalf (cr y x))
  exact runs_threePlanes ht hlen (h₀.trans (paddedPlane_cell _ ht))
    (h₁.trans (paddedPlane_cell _ ht)) (h₂.trans (paddedPlane_cell _ ht))

theorem agrees_yuv420p8ToYcbcrPadded {input output : ℕ}
    {sourceWidth sourceHeight paddedHeight paddedWidth : ℤ}
    (h : Operation.Fits m (.yuv420p8ToYcbcrPadded input sourceWidth sourceHeight output
      paddedHeight paddedWidth)) :
    Agrees m (.yuv420p8ToYcbcrPadded input sourceWidth sourceHeight output paddedHeight
      paddedWidth) := by
  obtain ⟨hinput, hmax, hlen⟩ := h
  by_cases hbad : sourceWidth ≤ 0 ∨ sourceHeight ≤ 0 ∨ sourceWidth % 2 ≠ 0 ∨
      sourceHeight % 2 ≠ 0 ∨ paddedHeight < sourceHeight ∨ paddedWidth < sourceWidth
  · exact agrees_of_refused
      (by rw [Operation.host, HostOps.yuv420p8ToYcbcrPadded, if_pos hbad]; rfl)
      (by rw [Operation.device, yuv420p8ToYcbcrPadded, if_pos hbad])
  obtain ⟨hwidth, hheight, hrows, hcolumns⟩ : 0 < sourceWidth.toNat ∧ 0 < sourceHeight.toNat ∧
      sourceHeight.toNat ≤ paddedHeight.toNat ∧ sourceWidth.toNat ≤ paddedWidth.toNat := by omega
  obtain ⟨hevenWidth, hevenHeight⟩ : sourceWidth.toNat % 2 = 0 ∧ sourceHeight.toNat % 2 = 0 := by
    omega
  set count := paddedHeight.toNat * paddedWidth.toNat with hcount
  have hpos : 0 < count := Nat.mul_pos (by omega) (by omega)
  have hwrap : HostOps.wrapSize count = count := Nat.mod_eq_of_lt (by omega)
  have hwrap₃ : HostOps.wrapSize (3 * count) = 3 * count := Nat.mod_eq_of_lt (by omega)
  have hsmall : sourceWidth.toNat * sourceHeight.toNat ≤ count := by
    rw [hcount, Nat.mul_comm paddedHeight.toNat]
    exact Nat.mul_le_mul hcolumns hrows
  set ySize := sourceWidth.toNat * sourceHeight.toNat with hySize
  set uvSize := sourceWidth.toNat / 2 * (sourceHeight.toNat / 2) with huvSize
  have huvSmall : uvSize ≤ ySize :=
    Nat.mul_le_mul (Nat.div_le_self _ _) (Nat.div_le_self _ _)
  have hwrapInput : HostOps.wrapSize (ySize + 2 * uvSize) = ySize + 2 * uvSize :=
    Nat.mod_eq_of_lt (by omega)
  let luma : ℕ → ℕ → A.Half := fun y x =>
    A.toHalf (HostOps.byteOverMax (bytes m input) (y * sourceWidth.toNat + x))
  let cb : ℕ → ℕ → A.Half := fun y x => A.toHalf (HostOps.byteOverMax (bytes m input)
    (ySize + (y / 2 * (sourceWidth.toNat / 2) + x / 2)))
  let cr : ℕ → ℕ → A.Half := fun y x => A.toHalf (HostOps.byteOverMax (bytes m input)
    (ySize + uvSize + (y / 2 * (sourceWidth.toNat / 2) + x / 2)))
  have hhost : (Operation.yuv420p8ToYcbcrPadded input sourceWidth sourceHeight output
      paddedHeight paddedWidth).host m = some (fillHalf m output
        (HostOps.paddedPlane sourceWidth.toNat sourceHeight.toNat paddedWidth.toNat
            paddedHeight.toNat luma ++
          HostOps.paddedPlane sourceWidth.toNat sourceHeight.toNat paddedWidth.toNat
            paddedHeight.toNat cb ++
          HostOps.paddedPlane sourceWidth.toNat sourceHeight.toNat paddedWidth.toNat
            paddedHeight.toNat cr)) := by
    rw [Operation.host, HostOps.yuv420p8ToYcbcrPadded, if_neg hbad]
    simp only [← hcount, ← hySize, ← huvSize, hwrapInput, hwrap₃]
    rw [if_neg (by omega)]
    rfl
  refine agrees_of_output (half output) 3 _ hpos (by omega)
    (by rw [Operation.device, yuv420p8ToYcbcrPadded, if_neg hbad]; simp only [← hcount, hwrap]; rfl)
    hhost (threePlanes_length _ _ _ _ _ _ _) fun t ht => ?_
  set row := min (t / paddedWidth.toNat) (sourceHeight.toNat - 1) with hrowEq
  set column := min (t % paddedWidth.toNat) (sourceWidth.toNat - 1) with hcolumnEq
  have hpixel : row * sourceWidth.toNat + column < ySize := by
    rw [hySize, Nat.mul_comm sourceWidth.toNat]
    exact plane_lt (by omega) (by omega)
  have hchroma : row / 2 * (sourceWidth.toNat / 2) + column / 2 < uvSize := by
    rw [huvSize, Nat.mul_comm (sourceWidth.toNat / 2)]
    exact plane_lt (by omega) (by omega)
  have hoffset : t / paddedWidth.toNat * paddedWidth.toNat + t % paddedWidth.toNat = t :=
    Nat.div_add_mod' t paddedWidth.toNat
  simp only [clamped_eq, hoffset, ← hcount, ← hySize, ← huvSize, ← hrowEq, ← hcolumnEq]
  apply runs_readByte (sees_only (by simp) _) (byte_cell (by omega))
  apply runs_readByte (sees_only (by simp) _) (byte_cell (by omega))
  apply runs_readByte (sees_only (by simp) _) (byte_cell (by omega))
  obtain ⟨h₀, h₁, h₂⟩ := append_cells ht
    (paddedPlane_length sourceWidth.toNat sourceHeight.toNat paddedWidth.toNat paddedHeight.toNat
      luma)
    (paddedPlane_length sourceWidth.toNat sourceHeight.toNat paddedWidth.toNat paddedHeight.toNat
      cb) (HostOps.paddedPlane sourceWidth.toNat sourceHeight.toNat paddedWidth.toNat
        paddedHeight.toNat cr)
  exact runs_threePlanes ht hlen (h₀.trans (paddedPlane_cell luma ht))
    (h₁.trans (paddedPlane_cell cb ht)) (h₂.trans (paddedPlane_cell cr ht))

/-- The grid of the luma plane. -/
theorem leaves_lumaPlane {input output n : ℕ} {inputShape : Shape4D} {visibleWidth : ℤ}
    {luma : Bytes} (hn : count ≤ n)
    (hluma : luma = (List.range count).map fun index => HostOps.quantizeLuma
      (HostOps.load (halves m input)
        (index / visibleWidth.toNat * inputShape.width.toNat + index % visibleWidth.toNat)))
    (hbound : ∀ index < count, index / visibleWidth.toNat * inputShape.width.toNat +
      index % visibleWidth.toNat < (halves m input).length)
    (hroom : count ≤ (bytes m output).length) :
    Leaves ((List.range n).map (ycbcrLumaToYuv420p8Kernel input inputShape visibleWidth output
      count)) m (fillByte m output luma) := by
  have hlength : luma.length = 1 * count := by
    rw [hluma, List.length_map, List.length_range, Nat.one_mul]
  apply leaves_of_output (byte output) 1 luma hn hlength
  intro t ht
  apply runs_loadHalf (sees_only (by simp) _) (half_cell (hbound t ht))
  apply runs_writeByte (has_only ht) (ht.trans_le hroom)
  apply settled_first (ht.trans_le hroom)
  rw [hluma, range_cell ht]
  rfl

/-- The grid of the chroma planes, after the luma plane. -/
theorem leaves_chromaPlanes {input output n uvCount yCount plane : ℕ} {inputShape : Shape4D}
    {visibleWidth visibleHeight : ℤ} {front cb cr : Bytes} (hn : uvCount ≤ n)
    (hfront : front.length = yCount)
    (hcb : cb = (List.range uvCount).map fun index => HostOps.quantizeChroma
      (HostOps.blockSum (fun y x => HostOps.load (halves m input)
        (plane + (y * inputShape.width.toNat + x))) (index / (visibleWidth.toNat / 2) * 2)
          (index % (visibleWidth.toNat / 2) * 2) * A.ofRat (1 / 4)))
    (hcr : cr = (List.range uvCount).map fun index => HostOps.quantizeChroma
      (HostOps.blockSum (fun y x => HostOps.load (halves m input)
        (2 * plane + (y * inputShape.width.toNat + x))) (index / (visibleWidth.toNat / 2) * 2)
          (index % (visibleWidth.toNat / 2) * 2) * A.ofRat (1 / 4)))
    (hyCount : visibleWidth.toNat * visibleHeight.toNat = yCount)
    (hplane : plane = inputShape.height.toNat * inputShape.width.toNat)
    (hbound : ∀ t < uvCount, ∀ dy < 2, ∀ dx < 2,
      (t / (visibleWidth.toNat / 2) * 2 + dy) * inputShape.width.toNat +
        t % (visibleWidth.toNat / 2) * 2 + dx < plane)
    (hinput : 3 * plane ≤ (halves m input).length)
    (hroom : yCount + 2 * uvCount ≤ (bytes m output).length) :
    Leaves ((List.range n).map (ycbcrChromaToYuv420p8Kernel input inputShape visibleWidth
      visibleHeight output uvCount)) (fillByte m output front)
      (fillByte m output (front ++ cb ++ cr)) := by
  have hcbLength : cb.length = uvCount := by rw [hcb, List.length_map, List.length_range]
  have hcrLength : cr.length = uvCount := by rw [hcr, List.length_map, List.length_range]
  have hinputCell : ∀ i < (halves m input).length,
      (fillByte m output front (half input))[i]? = some ((halves m input).getD i 0) := by
    intro i hi
    have hother : fillByte m output front (half input) = m (half input) :=
      fill_of_ne m (b := byte output) front (by simp)
    rw [hother]
    exact half_cell hi
  have hlength : (fillByte m output front (byte output)).length = (m (byte output)).length :=
    fill_length (by change front.length ≤ (bytes m output).length; omega) _
  apply leaves_of_planes (fun _ => yCount) (only (byte output) 2) hn guarded_idle
  · intro b i hi
    by_cases hb : b = byte output
    · subst hb
      rw [only_self] at hi
      rw [List.append_assoc]
      apply fill_append_kept
      rw [List.length_append, hfront, hcbLength, hcrLength]
      omega
    · rw [fillByte, fillByte, fill_of_ne _ _ hb, fill_of_ne _ _ hb]
  · intro t ht
    have hhas : ∀ part < 2, Owns (planeOwner (fun _ => yCount) (only (byte output) 2) uvCount) t
        (byte output) (yCount + (part * uvCount + t)) :=
      fun part hpart => planeOwner_cell (by rwa [only_self]) ht
    have hsees : ∀ i, Readable (planeOwner (fun _ => yCount) (only (byte output) 2) uvCount) t
        (half input) i := by
      intro i
      left
      rw [planeOwner, if_neg]
      rw [only_of_ne (by simp)]
      omega
    rw [guarded_of_lt ht]
    simp only [hyCount, ← hplane]
    apply runs_bind
    apply (runs_foldlM _ (fun sums dy => (List.range 2).foldl (fun (sums : A.Float × A.Float) dx =>
      (sums.1 + HostOps.load (halves m input) (plane +
          ((t / (visibleWidth.toNat / 2) * 2 + dy) * inputShape.width.toNat +
            t % (visibleWidth.toNat / 2) * 2 + dx)),
        sums.2 + HostOps.load (halves m input) (2 * plane +
          ((t / (visibleWidth.toNat / 2) * 2 + dy) * inputShape.width.toNat +
            t % (visibleWidth.toNat / 2) * 2 + dx)))) sums) _ _ ?_).mono
    · rintro sums m' ⟨rfl, rfl⟩
      have h₀ := hhas 0 (by omega)
      have h₁ := hhas 1 (by omega)
      rw [Nat.zero_mul, Nat.zero_add] at h₀
      rw [Nat.one_mul, ← Nat.add_assoc] at h₁
      have hlt₀ : yCount + t < (fillByte m output front (byte output)).length := by
        rw [hlength]
        exact (show yCount + t < yCount + 2 * uvCount by omega).trans_le hroom
      have hlt₁ : ∀ x, yCount + uvCount + t <
          (storeCell (fillByte m output front) (byte output) (yCount + t) x
            (byte output)).length := by
        intro x
        rw [storeCell_length, hlength]
        exact (show yCount + uvCount + t < yCount + 2 * uvCount by omega).trans_le hroom
      apply runs_bind
      apply runs_writeByte h₀ hlt₀
      apply runs_writeByte h₁ (hlt₁ _)
      intro b part hpart
      by_cases hb : b = byte output
      · subst hb
        rw [only_self] at hpart
        have hfill : (fillByte m output (front ++ cb ++ cr) (byte output))[
            yCount + (part * uvCount + t)]? = (front ++ cb ++ cr)[yCount + (part * uvCount + t)]? :=
          fill_cell m (by
            have hlt := plane_lt hpart ht
            rw [List.length_append, List.length_append, hfront, hcbLength, hcrLength]
            omega)
        rw [hfill]
        obtain rfl | rfl : part = 0 ∨ part = 1 := by omega
        · rw [Nat.zero_mul, Nat.zero_add, storeCell_of_ne _ _ (fun _ => by omega),
            storeCell_self _ hlt₀, List.getElem?_append_left
              (by rw [List.length_append, hfront, hcbLength]; omega),
            List.getElem?_append_right (by omega), hfront, Nat.add_sub_cancel_left, hcb,
            range_cell ht]
          rfl
        · rw [Nat.one_mul, ← Nat.add_assoc, storeCell_self _ (hlt₁ _), List.getElem?_append_right
              (by rw [List.length_append, hfront, hcbLength]; omega), List.length_append, hfront,
            hcbLength, Nat.add_sub_cancel_left, hcr, range_cell ht]
          rfl
      · rw [only_of_ne hb] at hpart
        omega
    · intro sums dy hdy
      apply runs_foldlM
      intro sums dx hdx
      have hcell := hbound t ht dy (List.mem_range.mp hdy) dx (List.mem_range.mp hdx)
      apply runs_loadHalf (hsees _) (hinputCell _ (by omega))
      apply runs_loadHalf (hsees _) (hinputCell _ (by omega))
      exact runs_pure _ ⟨rfl, rfl⟩

/-- The two grids of one call: the luma plane, then a block of both chroma planes for each
thread. -/
theorem agrees_ycbcrPaddedToYuv420p8 {input output : ℕ} {inputShape : Shape4D}
    {visibleWidth visibleHeight : ℤ}
    (h : Operation.Fits m (.ycbcrPaddedToYuv420p8 input inputShape visibleWidth visibleHeight
      output)) :
    Agrees m (.ycbcrPaddedToYuv420p8 input inputShape visibleWidth visibleHeight output) := by
  obtain ⟨hmax, hinput, hlen⟩ := h
  by_cases hbad : InvalidShape inputShape ∨ inputShape.batch ≠ 1 ∨ inputShape.channels ≠ 3 ∨
      visibleWidth ≤ 0 ∨ visibleHeight ≤ 0 ∨ visibleWidth % 2 ≠ 0 ∨ visibleHeight % 2 ≠ 0 ∨
      inputShape.width < visibleWidth ∨ inputShape.height < visibleHeight
  · exact agrees_of_refused
      (by rw [Operation.host, HostOps.ycbcrPaddedToYuv420p8,
        if_pos (show HostOps.InvalidShape _ ∨ _ from hbad)]; rfl)
      (by rw [Operation.device, ycbcrPaddedToYuv420p8, if_pos hbad])
  obtain ⟨hwidth, hheight, hcolumns, hrows⟩ : 0 < visibleWidth.toNat ∧ 0 < visibleHeight.toNat ∧
      visibleWidth.toNat ≤ inputShape.width.toNat ∧
      visibleHeight.toNat ≤ inputShape.height.toNat := by omega
  obtain ⟨hevenWidth, hevenHeight⟩ : visibleWidth.toNat % 2 = 0 ∧ visibleHeight.toNat % 2 = 0 := by
    omega
  have hplanes : CudaOps.planes inputShape = 3 := by
    rw [CudaOps.planes, show inputShape.batch = 1 by tauto, show inputShape.channels = 3 by tauto]
    rfl
  rw [elements, hplanes] at hmax hinput
  set plane := inputShape.height.toNat * inputShape.width.toNat with hplane
  set yCount := visibleWidth.toNat * visibleHeight.toNat with hyCount
  set uvCount := yCount / 4 with huvCount
  have hquarter : uvCount = visibleHeight.toNat / 2 * (visibleWidth.toNat / 2) := by
    have hw : visibleWidth.toNat = 2 * (visibleWidth.toNat / 2) := by omega
    have hh : visibleHeight.toNat = 2 * (visibleHeight.toNat / 2) := by omega
    have hproduct : yCount = 4 * (visibleHeight.toNat / 2 * (visibleWidth.toNat / 2)) := by
      rw [hyCount, hw, hh]
      simp only [Nat.mul_div_cancel_left _ (show 0 < 2 by omega)]
      ring
    omega
  have hyPos : 0 < yCount := Nat.mul_pos hwidth hheight
  have huvPos : 0 < uvCount := by
    rw [hquarter]
    exact Nat.mul_pos (by omega) (by omega)
  have hsmall : yCount ≤ plane := by
    rw [hyCount, hplane, Nat.mul_comm]
    exact Nat.mul_le_mul hrows hcolumns
  have hwrap : HostOps.wrapSize yCount = yCount := Nat.mod_eq_of_lt (by omega)
  have hwrapOutput : HostOps.wrapSize (yCount + 2 * uvCount) = yCount + 2 * uvCount :=
    Nat.mod_eq_of_lt (by omega)
  have hvolume : HostOps.volume inputShape = 3 * plane := by
    rw [hostVolume_eq (by rw [elements, hplanes]; exact hmax), elements, hplanes]
  let luma : Bytes := (List.range visibleHeight.toNat).flatMap fun y =>
    (List.range visibleWidth.toNat).map fun x =>
      HostOps.quantizeLuma (HostOps.load (halves m input) (y * inputShape.width.toNat + x))
  let chroma : ℕ → Bytes := fun offset => (List.range (visibleHeight.toNat / 2)).flatMap fun uvY =>
    (List.range (visibleWidth.toNat / 2)).map fun uvX => HostOps.quantizeChroma
      (HostOps.blockSum (fun y x => HostOps.load (halves m input)
        (offset + (y * inputShape.width.toNat + x))) (uvY * 2) (uvX * 2) * A.ofRat (1 / 4))
  have hlumaEq : luma = (List.range yCount).map fun index => HostOps.quantizeLuma
      (HostOps.load (halves m input)
        (index / visibleWidth.toNat * inputShape.width.toNat + index % visibleWidth.toNat)) := by
    simp only [luma]
    rw [NestedLoops.flatMap_range_map_range, hyCount, Nat.mul_comm visibleHeight.toNat]
  have hchromaEq : ∀ offset, chroma offset = (List.range uvCount).map fun index =>
      HostOps.quantizeChroma (HostOps.blockSum (fun y x => HostOps.load (halves m input)
        (offset + (y * inputShape.width.toNat + x))) (index / (visibleWidth.toNat / 2) * 2)
          (index % (visibleWidth.toNat / 2) * 2) * A.ofRat (1 / 4)) := by
    intro offset
    simp only [chroma]
    rw [NestedLoops.flatMap_range_map_range, hquarter]
  have hlumaLength : luma.length = yCount := by
    rw [hlumaEq, List.length_map, List.length_range]
  have hchromaLength : ∀ offset, (chroma offset).length = uvCount := by
    intro offset
    rw [hchromaEq, List.length_map, List.length_range]
  have hstored : (luma ++ chroma plane ++ chroma (2 * plane)).length = yCount + 2 * uvCount := by
    rw [List.length_append, List.length_append, hlumaLength, hchromaLength, hchromaLength]
    omega
  have hhost : (Operation.ycbcrPaddedToYuv420p8 input inputShape visibleWidth visibleHeight
      output).host m = some (fillByte m output (luma ++ chroma plane ++ chroma (2 * plane))) := by
    rw [Operation.host, HostOps.ycbcrPaddedToYuv420p8,
      if_neg (show ¬ (HostOps.InvalidShape _ ∨ _) from hbad)]
    simp only [← hyCount, ← huvCount, hvolume, hwrapOutput]
    rw [if_neg (by omega)]
    rfl
  refine ⟨fun hnone => ?_, fun final hfinal => ?_⟩
  · rw [hhost] at hnone
    cases hnone
  obtain rfl := Option.some.inj (hhost.symm.trans hfinal)
  obtain ⟨n₁, hn₁, hlaunch₁⟩ := launch_eq_ok hyPos (by omega)
    (ycbcrLumaToYuv420p8Kernel (A := A) input inputShape visibleWidth output yCount)
  obtain ⟨n₂, hn₂, hlaunch₂⟩ := launch_eq_ok huvPos (by omega)
    (ycbcrChromaToYuv420p8Kernel (A := A) input inputShape visibleWidth visibleHeight output
      uvCount)
  have hdevice : (Operation.ycbcrPaddedToYuv420p8 input inputShape visibleWidth visibleHeight
      output).device = .ok [(List.range n₁).map (ycbcrLumaToYuv420p8Kernel (A := A) input inputShape
        visibleWidth output yCount), (List.range n₂).map (ycbcrChromaToYuv420p8Kernel input
          inputShape visibleWidth visibleHeight output uvCount)] := by
    rw [Operation.device, ycbcrPaddedToYuv420p8, if_neg hbad]
    simp only [← hyCount, hwrap, ← huvCount, hlaunch₁, hlaunch₂]
    rfl
  refine ⟨_, hdevice, ?_⟩
  have hchromaRoom : ∀ t < uvCount, ∀ dy < 2, ∀ dx < 2,
      (t / (visibleWidth.toNat / 2) * 2 + dy) * inputShape.width.toNat +
        t % (visibleWidth.toNat / 2) * 2 + dx < plane := by
    intro t ht dy hdy dx hdx
    have hrow : t / (visibleWidth.toNat / 2) < visibleHeight.toNat / 2 := by
      rw [Nat.div_lt_iff_lt_mul (by omega), ← hquarter]
      exact ht
    have hcolumn : t % (visibleWidth.toNat / 2) < visibleWidth.toNat / 2 := Nat.mod_lt _ (by omega)
    rw [Nat.add_assoc]
    exact plane_lt (by omega) (by omega)
  refine LeavesInOrder.cons (leaves_lumaPlane hn₁ hlumaEq (fun t ht => ?_) (by omega))
    (LeavesInOrder.cons (leaves_chromaPlanes hn₂ hlumaLength (hchromaEq plane)
      (hchromaEq (2 * plane)) (by rw [hyCount]) hplane hchromaRoom hinput hlen)
      (LeavesInOrder.nil _))
  have hrow : t / visibleWidth.toNat < visibleHeight.toNat := by
    rw [Nat.div_lt_iff_lt_mul hwidth, Nat.mul_comm]
    exact ht
  have hcell : t / visibleWidth.toNat * inputShape.width.toNat + t % visibleWidth.toNat < plane :=
    plane_lt (hrow.trans_le hrows) ((Nat.mod_lt _ hwidth).trans_le hcolumns)
  omega

end Nvcr.Rt.CudaOps
