import Mathlib.Analysis.SpecialFunctions.Log.Basic
import Nvcr.RtEncoderProgress
import Nvcr.RtRansSessions

/-!
# Sessions over exact arithmetic

The assumptions on the parameters of the sessions have a common model: host arithmetic over the
real numbers, the coder that spends whole bytes, uniform tables with a row for every index, and a
provider without faults whose stages write zeros. Every sequence of frames that fit is accepted
there.
-/

namespace Nvcr.Rt

open StatefulResults Codec HostOps TransitionRuns RansCoder

local instance atLeastTwo : Nat.AtLeastTwo 2 := ⟨Nat.le_refl 2⟩

/-- Host arithmetic over the real numbers, with the roundings of the source. -/
noncomputable def realArithmetic : HostArithmetic where
  Half := ℝ
  Float := ℝ
  toHalf := id
  toFloat := id
  ofRat q := q
  truncate x := if 0 ≤ x then ⌊x⌋ else ⌈x⌉
  add := (· + ·)
  sub := (· - ·)
  mul := (· * ·)
  div := (· / ·)
  neg x := -x
  exp := Real.exp
  log := Real.log
  round x := if 0 ≤ x then (⌊x + 1 / 2⌋ : ℤ) else (⌈x - 1 / 2⌉ : ℤ)
  fmin := min
  fmax := max
  less x y := decide (x < y)
  lessEq x y := decide (x ≤ y)
  halfBytes _ := [0, 0]

theorem realArithmetic_exact : realArithmetic.Exact where
  mul_one (x : ℝ) := show x * ((1 : ℚ) : ℝ) = x by rw [Rat.cast_one, mul_one]
  mul_zero (x : ℝ) := show x * ((0 : ℚ) : ℝ) = ((0 : ℚ) : ℝ) by rw [Rat.cast_zero, mul_zero]
  add_zero (x : ℝ) := show x + ((0 : ℚ) : ℝ) = x by rw [Rat.cast_zero, add_zero]
  zero_add (x : ℝ) := show ((0 : ℚ) : ℝ) + x = x by rw [Rat.cast_zero, zero_add]
  toHalf_toFloat _ := rfl
  toFloat_toHalf _ _ _ := rfl
  round_integer (x : ℝ) := by
    change ∃ n : ℤ, (if 0 ≤ x then ((⌊x + 1 / 2⌋ : ℤ) : ℝ) else ((⌈x - 1 / 2⌉ : ℤ) : ℝ)) =
      ((n : ℚ) : ℝ)
    split
    · exact ⟨⌊x + 1 / 2⌋, (Rat.cast_intCast _).symm⟩
    · exact ⟨⌈x - 1 / 2⌉, (Rat.cast_intCast _).symm⟩
  round_zero := by
    change (if 0 ≤ ((0 : ℚ) : ℝ) then ((⌊((0 : ℚ) : ℝ) + 1 / 2⌋ : ℤ) : ℝ) else _) = ((0 : ℚ) : ℝ)
    norm_num
  fmin_ofRat a b := show min ((a : ℚ) : ℝ) ((b : ℚ) : ℝ) = ((min a b : ℚ) : ℝ) from
    (Rat.cast_min a b).symm
  fmax_ofRat a b := show max ((a : ℚ) : ℝ) ((b : ℚ) : ℝ) = ((max a b : ℚ) : ℝ) from
    (Rat.cast_max a b).symm
  truncate_integer n := by
    change (if 0 ≤ ((n : ℚ) : ℝ) then ⌊((n : ℚ) : ℝ)⌋ else ⌈((n : ℚ) : ℝ)⌉) = n
    simp
  less_irrefl (x : ℝ) := decide_eq_false (lt_irrefl x)

/-- A table of the given number of rows, each with one symbol for the whole range. -/
def uniformTable (rows : ℕ) : RansCdfTable where
  values := List.replicate rows [0, 65536]
  sizes := List.replicate rows 2
  offsets := List.replicate rows 0

theorem uniformTable_rows (rows : ℕ) : (uniformTable rows).rows = rows := List.length_replicate

theorem uniformTable_valid {rows : ℕ} (hrows : 0 < rows) :
    (uniformTable rows).validateCdf = .ok () := by
  have hlength : (uniformTable rows).values.length = rows := List.length_replicate
  have hvalues : (uniformTable rows).values ≠ [] := by
    rw [← List.length_pos_iff, hlength]
    exact hrows
  have hcounts : (uniformTable rows).values.length = (uniformTable rows).sizes.length ∧
      (uniformTable rows).values.length = (uniformTable rows).offsets.length := by
    simp [uniformTable]
  have hchecks : ((List.range (uniformTable rows).values.length).forM fun rowIndex =>
      RansCdfTable.validateRow rowIndex ((uniformTable rows).values.getD rowIndex [])
        ((uniformTable rows).sizes.getD rowIndex 0)) = .ok () := by
    refine forM_of_ok fun rowIndex hrow => ?_
    rw [hlength, List.mem_range] at hrow
    have hvalue : (uniformTable rows).values.getD rowIndex [] = [0, 65536] := by
      simp [uniformTable, hrow]
    have hsize : (uniformTable rows).sizes.getD rowIndex 0 = 2 := by
      simp [uniformTable, hrow]
    rw [hvalue, hsize]
    rfl
  rw [RansCdfTable.validateCdf, require, if_pos hvalues, ok_bind, require, if_pos hcounts, ok_bind]
  exact hchecks

/-- A coder that spends whole bytes spends the padding of a row and one byte on a symbol. -/
theorem paddedCoder_spendsAtMost {padding : ℕ → ℕ} {cost : ℕ} (tables : List RansCdfTable)
    (h : ∀ row, padding row + 1 ≤ cost) : (paddedCoder padding).SpendsAtMost tables cost := by
  intro pending
  have hsymbols : (pending.flatMap (paddedSymbol padding)).length ≤ cost * pending.length := by
    induction pending with
    | nil => exact Nat.le_refl 0
    | cons coded pending ih =>
        have hcoded : (paddedSymbol padding coded).length ≤ cost := by
          simpa [paddedSymbol] using h coded.row
        rw [List.flatMap_cons, List.length_append, List.length_cons, Nat.mul_succ, Nat.add_comm]
        exact Nat.add_le_add ih hcoded
  have hflush : ((paddedCoder padding).flush tables pending).length =
      4 + (pending.flatMap (paddedSymbol padding)).length := by
    rw [paddedCoder, List.length_append, List.length_replicate]
  rw [hflush]
  exact Nat.add_le_add_left hsymbols 4

/-- A provider without faults whose stages write zeros into the buffers they are given. -/
def zeroProvider (A : HostArithmetic) : Provider A where
  fault _ := none
  value _ _ _ _ := 0
  shape _ _ _ := shape4d 1 1 1
  reset := .ok ()

theorem zeroProvider_noFaults (A : HostArithmetic) : (zeroProvider A).NoFaults := fun _ => rfl

/-- Tables with a row for every index, and quantization tables of ones. -/
def uniformSetup (A : HostArithmetic) (verify : Bool) : BackendSetup A where
  intra :=
    { tables := [uniformTable (64 * 128), uniformTable 256]
      imageZGroup := 0
      gaussianYGroup := 1
      qEncoder := List.replicate (64 * 368) 1
      qDecoder := List.replicate (64 * 368) 1
      tables_ok := by
        intro table htable
        rcases List.mem_pair.mp htable with rfl | rfl <;> exact uniformTable_valid (by omega)
      imageZGroup_lt := Nat.zero_lt_two
      gaussianYGroup_lt := Nat.one_lt_two
      qEncoder_length := List.length_replicate
      qDecoder_length := List.length_replicate }
  predicted :=
    { tables := [uniformTable (72 * 128), uniformTable 256]
      videoZGroup := 0
      gaussianYGroup := 1
      qEncoder := List.replicate (72 * 256) 1
      qDecoder := List.replicate (72 * 256) 1
      qFeature := List.replicate (72 * 256) 1
      qReconstruction := List.replicate (72 * 320) 1
      tables_ok := by
        intro table htable
        rcases List.mem_pair.mp htable with rfl | rfl <;> exact uniformTable_valid (by omega)
      videoZGroup_lt := Nat.zero_lt_two
      gaussianYGroup_lt := Nat.one_lt_two
      qEncoder_length := List.length_replicate
      qDecoder_length := List.length_replicate
      qFeature_length := List.length_replicate
      qReconstruction_length := List.length_replicate }
  intraQp := 32
  verifyEncoderReconstruction := verify

theorem uniformSetup_complete (A : HostArithmetic) (verify : Bool) :
    (uniformSetup A verify).Complete where
  qp_lt := by
    change (32 : UInt32).toNat < 64
    decide
  imageZ := ⟨uniformTable (64 * 128), rfl, (uniformTable_rows _).ge⟩
  intraY := ⟨uniformTable 256, rfl, (uniformTable_rows _).ge⟩
  videoZ := ⟨uniformTable (72 * 128), rfl, (uniformTable_rows _).ge⟩
  predictedY := ⟨uniformTable 256, rfl, (uniformTable_rows _).ge⟩

/-- A black frame in planar format. -/
def blackFrame (width height : UInt32) (size : ℕ)
    (h : Frame.frameSizeBytes width height .yuv420p8 = .ok size) (timestamp : Timestamp) :
    Frame where
  width := width
  height := height
  pixelFormat := .yuv420p8
  timestamp := timestamp
  data := List.replicate size 0
  size_ok := .inl (by rw [h, List.length_replicate])

namespace Sessions

variable {configuration : SessionConfiguration}

/-- An accepted frame advances the encoder's sequence state. -/
theorem encoderState_of_accepted {π σ : Type} {B : CodecBackend π σ} {p : π} {frame : Frame}
    {sessions : Sessions σ}
    (h : (step B configuration sessions (.sendFrame p frame)).1 = .status (.ok ())) :
    ∃ reconstructed latentState, (step B configuration sessions
      (.sendFrame p frame)).2.core.encoderState =
        sessions.core.encoderState.committed reconstructed latentState := by
  obtain ⟨packet, core, hencode, hnext⟩ := sendFrame_eq_ok h
  obtain ⟨frameType, encoded, backend, bytes, state, -, -, -, hcommit, -, rfl⟩ :=
    SessionCore.encode_eq_ok hencode
  obtain ⟨-, -, rfl⟩ := SequenceState.commit_eq_ok.mp hcommit
  exact ⟨_, _, congrArg (fun sessions => sessions.core.encoderState) hnext⟩

/-- Groups of two frames in packets of up to a megabyte. -/
def pairConfiguration : SessionConfiguration where
  gopSize := 2
  bitstreamModelId := [109]
  maxPacketBytes := 2 ^ 20
  allowLegacyAccessUnits := false

def smallFrame : Frame := blackFrame 64 64 6144 rfl 0

def wideFrame : Frame := blackFrame 80 64 7680 rfl 1

theorem smallFrame_accepted : FrameWork.AcceptedFrame smallFrame := ⟨.inr rfl, by decide⟩

theorem wideFrame_accepted : FrameWork.AcceptedFrame wideFrame := ⟨.inr rfl, by decide⟩

theorem smallFrame_fits : Fits pairConfiguration 1 smallFrame := by
  unfold Fits
  decide

theorem pairConfiguration_model :
    AccessUnitIo.validModelId pairConfiguration.bitstreamModelId = true := by decide

/-- Two frames of one size are accepted, the second one as a predicted frame. -/
theorem pair_accepted (verify : Bool) :
    AllAccepted (uniformSetup realArithmetic verify) pairConfiguration (paddedCoder fun _ => 0)
      ([smallFrame, smallFrame].map (Call.sendFrame (zeroProvider realArithmetic))) := by
  refine (allAccepted_of_fits (zeroProvider_noFaults _) realArithmetic_exact
    (paddedCoder_fifoInverse _) (fun _ => paddedCoder_spendsAtMost _ fun _ => Nat.le_refl 1)
    (uniformSetup_complete _ verify) pairConfiguration_model (by decide) _ fun frame hmem => ?_).1
  rcases List.mem_pair.mp hmem with rfl | rfl <;> exact ⟨smallFrame_accepted, smallFrame_fits⟩

/-- An encoder that has accepted one frame expects a predicted one and can serve it. -/
theorem first_accepted {R : RansCoder} (hR : R.FifoInverse) (verify : Bool)
    (hcost : R.SpendsAtMost (uniformSetup realArithmetic verify).intra.tables 1) :
    let sessions : Sessions (HostBackend realArithmetic R) :=
      after (uniformSetup realArithmetic verify) pairConfiguration
        [Call.sendFrame (zeroProvider realArithmetic) smallFrame]
    Encodes (uniformSetup realArithmetic verify) sessions ∧
      (step (hostBackend _ R (uniformSetup realArithmetic verify)) pairConfiguration
        (initial pairConfiguration (HostBackend.initial (uniformSetup realArithmetic verify)) :
          Sessions (HostBackend realArithmetic R))
        (.sendFrame (zeroProvider realArithmetic) smallFrame)).1 = .status (.ok ()) ∧
      sessions.core.encoderState.nextFrameType = .ok .predicted := by
  have hinitial : Encodes (uniformSetup realArithmetic verify)
      (initial pairConfiguration (HostBackend.initial (uniformSetup realArithmetic verify)) :
        Sessions (HostBackend realArithmetic R)) := encodes_initial (by decide)
  obtain ⟨hreply, hencodes⟩ := hinitial.sendFrame (zeroProvider_noFaults realArithmetic)
    realArithmetic_exact hR (fun frameType htype => by cases htype; exact hcost)
    (uniformSetup_complete _ verify) pairConfiguration_model smallFrame_accepted smallFrame_fits
  obtain ⟨reconstructed, latentState, hstate⟩ := encoderState_of_accepted hreply
  intro sessions
  have hsessions : sessions = _ := after_singleton
  rw [hsessions]
  refine ⟨hencodes, hreply, ?_⟩
  rw [hstate]
  simp [SequenceState.nextFrameType, SequenceState.committed, initial, pairConfiguration]

end Sessions

end Nvcr.Rt
