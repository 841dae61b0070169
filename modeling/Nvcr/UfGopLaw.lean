import Nvcr.UfFrameAccounting

/-!
# The GOP law of the DCVC-UF encoder

An intra frame is due after at most a GOP of predicted frames, and every four consecutive
groups contain a feature-memory reset. The step index advances by one on an intra frame and by
eight on a group, while both tests look for steps congruent to one: after the first refresh no
step meets them again, and the law holds for all-intra coding only.
-/

namespace Nvcr.Uf

open TransitionRuns StatefulResults

namespace Ledger

section Law

variable (configuration : Configuration)

/-- Whether an emitted packet resets the feature memory. -/
def packetReset (packet : Packet) : Bool :=
  match AccessUnitIo.deserialize packet.data configuration.maxPacketBytes with
  | .ok unit => declaredReset unit.payload
  | .error _ => false

/-- The number of frames in a block of packets. -/
def frameCount (block : List Packet) : ℕ :=
  (block.map fun packet => (packetTimestamps configuration packet).length).sum

/-- Packets without an intra one among them hold at most a GOP of frames. -/
def IntraRecurs (packets : List Packet) : Prop :=
  ∀ block, block <:+: packets → (∀ packet ∈ block, packet.frameType = .predicted) →
    frameCount configuration block ≤ configuration.gopSize

/-- Every four consecutive groups contain a feature-memory reset. -/
def ResetRecurs (packets : List Packet) : Prop :=
  ∀ block, block <:+: packets.filter (fun packet => packet.frameType = .predicted) →
    block.length = resetInterval / groupFrames →
    ∃ packet ∈ block, packetReset configuration packet = true

def sends (frames : List (Frame × Outcome)) : List Call :=
  frames.map fun frame => .sendFrame frame.1 frame.2

/-- The law over every run of successful sends. -/
def GopLaw : Prop :=
  ∀ frames : List (Frame × Outcome),
    (∀ answer ∈ trace (step configuration) new (sends frames), answer = .ok ()) →
    IntraRecurs configuration (final (step configuration) new (sends frames)).emitted ∧
    ResetRecurs configuration (final (step configuration) new (sends frames)).emitted

end Law

/-- All-intra coding: nothing is pending and every packet is intra. -/
structure AllIntra (ledger : Ledger) : Prop where
  pending : ledger.encoder.pending = []
  emitted : ∀ packet ∈ ledger.emitted, packet.frameType = .intra

theorem wrapAccessUnit_frameType {configuration : Configuration} {failure : Option Error}
    {type : FrameType} {width height : UInt32} {timestamp : Timestamp} {payload : Bytes}
    {packet : Packet}
    (h : wrapAccessUnit configuration failure type width height timestamp payload = .ok packet) :
    packet.frameType = type := by
  cases failure with
  | some e => cases h
  | none =>
      simp only [wrapAccessUnit, bind_eq_ok] at h
      obtain ⟨_, _, hpacket⟩ := h
      cases hpacket
      rfl

theorem wrapAccessUnit_reset {configuration : Configuration} {failure : Option Error}
    {type : FrameType} {width height : UInt32} {timestamp : Timestamp} {payload : Bytes}
    {packet : Packet}
    (h : wrapAccessUnit configuration failure type width height timestamp payload = .ok packet) :
    packetReset configuration packet = declaredReset payload := by
  cases failure with
  | some e => cases h
  | none =>
      simp only [wrapAccessUnit, bind_eq_ok] at h
      obtain ⟨serialized, hserialized, hpacket⟩ := h
      cases hpacket
      rw [packetReset, AccessUnitIo.deserialize_serialize hserialized]
      rfl

theorem declaredReset_makePayload (type : FrameType) (encoded : Encoded)
    (timestamps : List Timestamp) (reset : Bool) :
    declaredReset (makePayload type encoded timestamps reset) = reset := by
  have hbyte : (makePayload type encoded timestamps reset).getD 6 0 =
      if reset then resetFeatureMemoryFlag else 0 := by
    cases type <;> rfl
  rw [declaredReset, hbyte]
  cases reset <;> decide

theorem allIntra_sendFrame {configuration : Configuration} (hg : configuration.gopSize = 1)
    {ledger : Ledger} (h : AllIntra ledger) (frame : Frame) (outcome : Outcome) :
    AllIntra (step configuration ledger (.sendFrame frame outcome)).2 := by
  obtain ⟨hpending, hemitted⟩ := h
  have hintra : Encoder.intraStep configuration.gopSize ledger.encoder.stepIndex = true := by
    simp [Encoder.intraStep, hg]
  have hcases := Encoder.sendFrame_cases configuration ledger.encoder frame outcome
  simp only [step]
  generalize ledger.encoder.sendFrame configuration frame outcome = result at hcases
  cases hcases with
  | rejected e => exact ⟨hpending, by simpa [newOutputs] using hemitted⟩
  | intraFailed validated e hv =>
      obtain ⟨w, h, rfl⟩ := Encoder.validateFrame_eq_ok hv
      exact ⟨hpending, by simpa [newOutputs] using hemitted⟩
  | intra validated packet hf hv hp hs hu =>
      obtain ⟨w, h, rfl⟩ := Encoder.validateFrame_eq_ok hv
      simp only [Encoder.intraUnit, bind_eq_ok] at hu
      obtain ⟨_, _, hwrap⟩ := hu
      refine ⟨hpending, ?_⟩
      simp only [newOutputs, List.drop_left, List.mem_append, List.mem_singleton]
      rintro p (hp | rfl)
      · exact hemitted p hp
      · exact wrapAccessUnit_frameType hwrap
  | joined validated hf hv hs hl => simp [hs hpending] at hintra
  | groupFailed validated e hf hv hl hu => simp [hpending, groupFrames] at hl
  | group validated packet hf hv hl hu => simp [hpending, groupFrames] at hl

theorem allIntra_run {configuration : Configuration} (hg : configuration.gopSize = 1)
    (frames : List (Frame × Outcome)) {ledger : Ledger} (h : AllIntra ledger) :
    AllIntra (final (step configuration) ledger (sends frames)) := by
  induction frames generalizing ledger with
  | nil => exact h
  | cons frame frames ih => exact ih (allIntra_sendFrame hg h frame.1 frame.2)

theorem gopLaw_of_one {configuration : Configuration} (hg : configuration.gopSize = 1) :
    GopLaw configuration := by
  intro frames _
  have hrun : AllIntra (final (step configuration) new (sends frames)) :=
    allIntra_run hg frames ⟨rfl, by simp [new]⟩
  constructor
  · intro block hblock hpredicted
    cases block with
    | nil => simp [frameCount]
    | cons packet rest =>
        have hintra := hrun.emitted packet (hblock.subset (by simp))
        rw [hpredicted packet (by simp)] at hintra
        cases hintra
  · intro block hblock hlength
    cases block with
    | nil => simp [resetInterval, groupFrames] at hlength
    | cons packet rest =>
        have hmem := hblock.subset (List.mem_cons_self (l := rest) (a := packet))
        rw [List.mem_filter] at hmem
        have hintra := hrun.emitted packet hmem.1
        simp [hintra] at hmem

section ConstantRun

/-- The same small frame sent again and again, coded successfully each time. -/
def repeated (n : ℕ) : List (Frame × Outcome) := List.replicate n (smallFrame 0, succeeds)

variable (g : ℕ)

/-- The state after some of the repeated frames: `k` of them are pending at step `s`. -/
structure Ready (ledger : Ledger) (s k : ℕ) : Prop where
  pending : ledger.encoder.pending = List.replicate k (smallFrame 0)
  stepIndex : ledger.encoder.stepIndex = s
  frameIndex : ledger.encoder.frameIndex ≠ 0
  width : ledger.encoder.width = 2
  height : ledger.encoder.height = 2
  flushed : ledger.encoder.flushed = false

/-- A run of `n` repeated frames from one ledger to another, all of them accepted, that emits
the given packets. -/
structure Emits (ledger : Ledger) (n : ℕ) (packets : List Packet) (next : Ledger) : Prop where
  accepted : ∀ answer ∈ trace (step (smallConfiguration g)) ledger (sends (repeated n)),
    answer = .ok ()
  final_eq : final (step (smallConfiguration g)) ledger (sends (repeated n)) = next
  emitted : next.emitted = ledger.emitted ++ packets

variable {g} {ledger middle next : Ledger} {s k m n : ℕ} {first second : List Packet}

theorem sends_repeated_add (m n : ℕ) :
    sends (repeated (m + n)) = sends (repeated m) ++ sends (repeated n) := by
  simp only [sends, repeated, List.replicate_add, List.map_append]

theorem Emits.trans (h : Emits g ledger m first middle) (h' : Emits g middle n second next) :
    Emits g ledger (m + n) (first ++ second) next where
  accepted := by
    rw [sends_repeated_add, trace_append, h.final_eq]
    intro answer ha
    rcases List.mem_append.mp ha with ha | ha
    · exact h.accepted answer ha
    · exact h'.accepted answer ha
  final_eq := by rw [sends_repeated_add, final_append, h.final_eq, h'.final_eq]
  emitted := by rw [h'.emitted, h.emitted, List.append_assoc]

theorem validateFrame_ready (h : Ready ledger s k) :
    ledger.encoder.validateFrame (smallFrame 0) = .ok ledger.encoder := by
  have hacceptable : Encoder.AcceptableFrame (smallFrame 0) := by decide
  rw [Encoder.validateFrame, if_neg (not_not.mpr hacceptable), if_neg, if_neg h.frameIndex]
  rintro ⟨-, hw | hh⟩
  · exact hw h.width.symm
  · exact hh h.height.symm

theorem emits_of_step {packets : List Packet}
    (h : step (smallConfiguration g) ledger (.sendFrame (smallFrame 0) succeeds) = (.ok (), next))
    (he : next.emitted = ledger.emitted ++ packets) : Emits g ledger 1 packets next := by
  refine ⟨?_, ?_, he⟩
  · simp [sends, repeated, h]
  · simp [sends, repeated, h]

/-- A frame joins a group that it does not complete. -/
theorem ready_join (h : Ready ledger s k) (hk : k + 1 < groupFrames)
    (hs : k = 0 → Encoder.intraStep g s = false) :
    ∃ next, Emits g ledger 1 [] next ∧ Ready next s (k + 1) := by
  have hpending : ledger.encoder.pending.length = k := by simp [h.pending]
  have hempty : (ledger.encoder.pending.isEmpty &&
      Encoder.intraStep (smallConfiguration g).gopSize ledger.encoder.stepIndex) = false := by
    cases k with
    | zero =>
        simp only [Bool.and_eq_false_imp]
        intro _
        rw [h.stepIndex]
        exact hs rfl
    | succ k => simp [h.pending, List.replicate_succ]
  have hlength : ¬ (ledger.encoder.pending ++ [smallFrame 0]).length = groupFrames := by
    simp only [List.length_append, List.length_singleton, hpending]
    omega
  have hstep : step (smallConfiguration g) ledger (.sendFrame (smallFrame 0) succeeds) = (.ok (),
      { encoder := { ledger.encoder with
          pending := ledger.encoder.pending ++ [smallFrame 0]
          frameIndex := ledger.encoder.frameIndex + 1 }
        emitted := ledger.emitted ++ []
        accepted := ledger.accepted ++ [(smallFrame 0).timestamp] }) := by
    rw [step, Encoder.sendFrame, if_neg (by simp [h.flushed]), validateFrame_ready h]
    simp only [hempty, Bool.false_eq_true, if_false, if_neg hlength, newOutputs, List.drop_length]
  refine ⟨_, emits_of_step hstep (by simp), ?_⟩
  exact
    { pending := by simp [h.pending, List.replicate_succ']
      stepIndex := h.stepIndex
      frameIndex := by simp
      width := h.width
      height := h.height
      flushed := h.flushed }

/-- A packet of one of the repeated groups, made at step `s`. -/
structure GroupPacket (g s : ℕ) (packet : Packet) : Prop where
  frameType : packet.frameType = .predicted
  count : (packetTimestamps (smallConfiguration g) packet).length = groupFrames
  reset : packetReset (smallConfiguration g) packet = Encoder.resetsFeatureMemory s

theorem wrapAccessUnit_small (type : FrameType) (timestamps : List Timestamp) (reset : Bool)
    (h : timestamps.length ≤ groupFrames) :
    ∃ packet, wrapAccessUnit (smallConfiguration g) none type 2 2 (timestamps.headD 0)
      (makePayload type ⟨[1], 1⟩ timestamps reset) = .ok packet := by
  have hlength : (makePayload type ⟨[1], 1⟩ timestamps reset).length =
      9 + 8 * timestamps.length := by
    simp [makePayload, List.length_flatMap]
    omega
  unfold groupFrames at h
  have hvalid : AccessUnitIo.ValidV1
      { modelId := [117, 102], width := 2, height := 2, qp := 32, frameType := type
        resetState := type = .intra, payload := makePayload type ⟨[1], 1⟩ timestamps reset } :=
    { modelId := rfl
      dimensions := (by decide : AccessUnitIo.DimensionsInRange 2 2)
      qp := by
        change 32 ≤ AccessUnitIo.maximumQp type
        cases type <;> decide
      resetState := rfl
      payload := List.ne_nil_of_length_pos (by simp only [hlength]; omega) }
  have hserialize : AccessUnitIo.serialize
      { modelId := [117, 102], width := 2, height := 2, qp := 32, frameType := type
        resetState := type = .intra, payload := makePayload type ⟨[1], 1⟩ timestamps reset }
      1024 = .ok _ :=
    AccessUnitIo.serialize_eq_ok.mpr ⟨AccessUnitIo.validateV1Fields_eq_ok.mpr hvalid,
      ⟨(by decide : 2 ≤ 2 ^ 16 - 1), by simp only [hlength]; omega, by
        simp only [hlength, AccessUnitIo.fixedHeaderBytesV1, List.length_cons, List.length_nil]
        omega⟩, rfl⟩
  exact ⟨_, bind_eq_ok.mpr ⟨_, hserialize, rfl⟩⟩

theorem groupUnit_ready {encoder : Encoder}
    (hp : encoder.pending = List.replicate groupFrames (smallFrame 0))
    (hw : encoder.width = 2) (hh : encoder.height = 2) :
    ∃ packet, encoder.groupUnit (smallConfiguration g) groupFrames succeeds = .ok packet ∧
      GroupPacket g encoder.stepIndex packet := by
  obtain ⟨packet, hpacket⟩ : ∃ packet,
      encoder.groupUnit (smallConfiguration g) groupFrames succeeds = .ok packet := by
    rw [Encoder.groupUnit, hp, hw, hh]
    exact wrapAccessUnit_small .predicted _ _ (by simp)
  refine ⟨packet, hpacket, ?_⟩
  have hcount := groupUnit_timestamps le_rfl hpacket
  simp only [Encoder.groupUnit, bind_eq_ok] at hpacket
  obtain ⟨encoded, -, hwrap⟩ := hpacket
  exact
    { frameType := wrapAccessUnit_frameType hwrap
      count := by simp [hcount, hp]
      reset := by rw [wrapAccessUnit_reset hwrap, declaredReset_makePayload] }

/-- The frame that completes a group emits it. -/
theorem ready_complete (h : Ready ledger s (groupFrames - 1)) :
    ∃ packet next, Emits g ledger 1 [packet] next ∧ Ready next (s + groupFrames) 0 ∧
      GroupPacket g s packet := by
  have hpending : ledger.encoder.pending ++ [smallFrame 0] =
      List.replicate groupFrames (smallFrame 0) := by
    rw [h.pending, ← List.replicate_succ']
    rfl
  obtain ⟨packet, hunit, hgroup⟩ : ∃ packet, Encoder.groupUnit (smallConfiguration g)
      { ledger.encoder with pending := ledger.encoder.pending ++ [smallFrame 0] }
      groupFrames succeeds = .ok packet ∧ GroupPacket g ledger.encoder.stepIndex packet :=
    groupUnit_ready hpending h.width h.height
  have hempty : ledger.encoder.pending.isEmpty = false := by
    rw [h.pending]
    rfl
  have hlength : (ledger.encoder.pending ++ [smallFrame 0]).length = groupFrames := by
    rw [hpending, List.length_replicate]
  have hstep : step (smallConfiguration g) ledger (.sendFrame (smallFrame 0) succeeds) = (.ok (),
      { encoder := { ledger.encoder with
          pending := []
          outputs := ledger.encoder.outputs ++ [packet]
          stepIndex := ledger.encoder.stepIndex + groupFrames
          frameIndex := ledger.encoder.frameIndex + 1 }
        emitted := ledger.emitted ++ [packet]
        accepted := ledger.accepted ++ [(smallFrame 0).timestamp] }) := by
    rw [step, Encoder.sendFrame, if_neg (by simp [h.flushed]), validateFrame_ready h]
    simp only [hempty, Bool.false_and, Bool.false_eq_true, if_false, if_pos hlength,
      Encoder.emitPredicted, hunit, newOutputs, List.drop_left]
  refine ⟨packet, _, emits_of_step hstep rfl, ?_, h.stepIndex ▸ hgroup⟩
  exact
    { pending := rfl
      stepIndex := by simp [h.stepIndex]
      frameIndex := by simp
      width := h.width
      height := h.height
      flushed := h.flushed }

/-- At a step that is due, the frame is coded as intra and the index advances by one. -/
theorem ready_intra (h : Ready ledger s 0) (hs : Encoder.intraStep g s = true) :
    ∃ packet next, Emits g ledger 1 [packet] next ∧ Ready next (s + 1) 0 := by
  obtain ⟨packet, hunit⟩ : ∃ packet,
      Encoder.intraUnit (smallConfiguration g) (smallFrame 0) succeeds = .ok packet :=
    wrapAccessUnit_small .intra [0] false (by decide)
  have hdue : (ledger.encoder.pending.isEmpty &&
      Encoder.intraStep (smallConfiguration g).gopSize ledger.encoder.stepIndex) = true := by
    rw [h.pending, h.stepIndex]
    exact hs
  have hstep : step (smallConfiguration g) ledger (.sendFrame (smallFrame 0) succeeds) = (.ok (),
      { encoder := { ledger.encoder with
          outputs := ledger.encoder.outputs ++ [packet]
          stepIndex := ledger.encoder.stepIndex + 1
          frameIndex := ledger.encoder.frameIndex + 1 }
        emitted := ledger.emitted ++ [packet]
        accepted := ledger.accepted ++ [(smallFrame 0).timestamp] }) := by
    rw [step, Encoder.sendFrame, if_neg (by simp [h.flushed]), validateFrame_ready h]
    simp only [hdue, if_true, hunit, newOutputs, List.drop_left]
  refine ⟨packet, _, emits_of_step hstep rfl, ?_⟩
  exact
    { pending := h.pending
      stepIndex := by simp [h.stepIndex]
      frameIndex := by simp
      width := h.width
      height := h.height
      flushed := h.flushed }

/-- The first frame of all is intra. -/
theorem ready_first : ∃ packet next, Emits g new 1 [packet] next ∧ Ready next 1 0 := by
  obtain ⟨packet, hunit⟩ : ∃ packet,
      Encoder.intraUnit (smallConfiguration g) (smallFrame 0) succeeds = .ok packet :=
    wrapAccessUnit_small .intra [0] false (by decide)
  have hstep : step (smallConfiguration g) new (.sendFrame (smallFrame 0) succeeds) = (.ok (),
      ⟨⟨[], [packet], 1, 1, 2, 2, false⟩, [packet], [0]⟩) := by
    have hvalid : Encoder.new.validateFrame (smallFrame 0) = .ok ⟨[], [], 0, 0, 2, 2, false⟩ := rfl
    have hdue : ((([] : List Frame).isEmpty) &&
        Encoder.intraStep (smallConfiguration g).gopSize 0) = true := rfl
    simp only [step, new, Encoder.sendFrame, hvalid, hdue, if_true, hunit]
    rfl
  exact ⟨packet, _, emits_of_step hstep rfl, rfl, rfl, by simp, rfl, rfl, rfl⟩

/-- Frames join an open group until one is missing. -/
theorem ready_joins (h : Ready ledger s 0) (hs : Encoder.intraStep g s = false)
    (hk : k < groupFrames) : ∃ next, Emits g ledger k [] next ∧ Ready next s k := by
  induction k with
  | zero =>
      refine ⟨ledger, ⟨?_, rfl, (List.append_nil _).symm⟩, h⟩
      simp [sends, repeated]
  | succ k ih =>
      obtain ⟨middle, hmiddle, hready⟩ := ih (by omega)
      obtain ⟨next, hnext, hready⟩ := ready_join hready hk fun _ => hs
      exact ⟨next, hmiddle.trans hnext, hready⟩

theorem ready_group (h : Ready ledger s 0) (hs : Encoder.intraStep g s = false) :
    ∃ packet next, Emits g ledger groupFrames [packet] next ∧ Ready next (s + groupFrames) 0 ∧
      GroupPacket g s packet := by
  obtain ⟨middle, hmiddle, hready⟩ := ready_joins h hs (by decide : groupFrames - 1 < groupFrames)
  obtain ⟨packet, next, hnext, hready, hpacket⟩ := ready_complete hready
  exact ⟨packet, next, hmiddle.trans hnext, hready, hpacket⟩

/-- Groups follow each other as long as no step of them is due for an intra frame. -/
theorem ready_groups (h : Ready ledger s 0)
    (hs : ∀ j < n, Encoder.intraStep g (s + groupFrames * j) = false) :
    ∃ packets next, Emits g ledger (groupFrames * n) packets next ∧
      Ready next (s + groupFrames * n) 0 ∧ packets.length = n ∧
      ∀ packet ∈ packets, ∃ j < n, GroupPacket g (s + groupFrames * j) packet := by
  induction n with
  | zero =>
      refine ⟨[], ledger, ⟨?_, rfl, (List.append_nil _).symm⟩, h, rfl, by simp⟩
      simp [sends, repeated]
  | succ n ih =>
      obtain ⟨packets, middle, hmiddle, hready, hlength, hpackets⟩ := ih fun j hj => hs j (by omega)
      obtain ⟨packet, next, hnext, hready, hpacket⟩ := ready_group hready (hs n (by omega))
      refine ⟨packets ++ [packet], next, hmiddle.trans hnext, hready, by simp [hlength], ?_⟩
      intro p hp
      rcases List.mem_append.mp hp with hp | hp
      · obtain ⟨j, hj, hgroup⟩ := hpackets p hp
        exact ⟨j, by omega, hgroup⟩
      · rw [List.mem_singleton.mp hp]
        exact ⟨n, by omega, hpacket⟩

theorem frameCount_groups {packets : List Packet}
    (h : ∀ packet ∈ packets, ∃ j < n, GroupPacket g (s + groupFrames * j) packet) :
    frameCount (smallConfiguration g) packets = packets.length * groupFrames := by
  have hcount : ∀ count ∈ packets.map
      (fun packet => (packetTimestamps (smallConfiguration g) packet).length),
      count = groupFrames := by
    intro count hcount
    obtain ⟨packet, hpacket, rfl⟩ := List.mem_map.mp hcount
    obtain ⟨j, -, hgroup⟩ := h packet hpacket
    exact hgroup.count
  rw [frameCount, List.eq_replicate_of_mem hcount, List.sum_replicate, List.length_map,
    smul_eq_mul]

/-- After the refresh at step `8 m + 1` the steps are congruent to two, so any number of groups
follows. -/
theorem groups_after_refresh (m n : ℕ) (hm : m ≠ 0) :
    ∃ before packets next,
      Emits (8 * m) new (1 + groupFrames * m + 1 + groupFrames * n) (before ++ packets) next ∧
      packets.length = n ∧
      ∀ packet ∈ packets, ∃ j < n, GroupPacket (8 * m) (8 * m + 2 + groupFrames * j) packet := by
  obtain ⟨first, ledger₁, hfirst, hready₁⟩ := ready_first (g := 8 * m)
  have hopen : ∀ j < m, Encoder.intraStep (8 * m) (1 + groupFrames * j) = false := by
    intro j hj
    have hmod : (1 + 8 * j) % (8 * m) = 1 + 8 * j := Nat.mod_eq_of_lt (by omega)
    rw [Encoder.intraStep_eq_false, groupFrames, hmod]
    omega
  obtain ⟨groups, ledger₂, hgroups, hready₂, -, -⟩ := ready_groups hready₁ hopen
  have hdue : Encoder.intraStep (8 * m) (1 + groupFrames * m) = true := by
    have hmod : (1 + 8 * m) % (8 * m) = 1 := by
      rw [Nat.add_mod_right, Nat.mod_eq_of_lt (by omega)]
    rw [Encoder.intraStep_eq_true, groupFrames, hmod]
    omega
  obtain ⟨refresh, ledger₃, hrefresh, hready₃⟩ := ready_intra hready₂ hdue
  have hnever : ∀ j < n, Encoder.intraStep (8 * m) (1 + groupFrames * m + 1 + groupFrames * j) =
      false := by
    intro j _
    have hmod : (1 + 8 * m + 1 + 8 * j) % (8 * m) ≠ 1 := by
      intro hone
      have height : (1 + 8 * m + 1 + 8 * j) % (8 * m) % 8 = 1 := by rw [hone]
      rw [Nat.mod_mul_right_mod] at height
      omega
    rw [Encoder.intraStep_eq_false, groupFrames]
    omega
  obtain ⟨packets, next, hnext, -, hlength, hpackets⟩ := ready_groups hready₃ hnever
  have hall := ((hfirst.trans hgroups).trans hrefresh).trans hnext
  refine ⟨[first] ++ groups ++ [refresh], packets, next, hall, hlength, ?_⟩
  · intro packet hp
    obtain ⟨j, hj, hgroup⟩ := hpackets packet hp
    refine ⟨j, hj, ?_⟩
    have hstep : 8 * m + 2 + groupFrames * j = 1 + groupFrames * m + 1 + groupFrames * j := by
      simp only [groupFrames]
      omega
    rwa [hstep]

/-- A run that emits more than a GOP of predicted frames in a row breaks the law. -/
theorem not_gopLaw_of_emits {before packets : List Packet} {count : ℕ}
    (h : Emits g new count (before ++ packets) next)
    (hp : ∀ packet ∈ packets, ∃ j < n, GroupPacket g (s + groupFrames * j) packet)
    (hlong : g < packets.length * groupFrames) : ¬ GopLaw (smallConfiguration g) := by
  intro hlaw
  have hrecurs := (hlaw (repeated count) h.accepted).1 packets
  rw [h.final_eq, h.emitted] at hrecurs
  have hcount := hrecurs (by simpa [new] using List.infix_append' before packets []) (by
    intro packet hpacket
    obtain ⟨j, -, hgroup⟩ := hp packet hpacket
    exact hgroup.frameType)
  rw [frameCount_groups hp] at hcount
  exact absurd hcount (by simpa [smallConfiguration] using hlong)

end ConstantRun

/-- Among the accepted GOP sizes, the law holds for all-intra coding only. -/
theorem gopLaw_iff (g : ℕ) (h : AcceptsGopSize g) :
    (∀ configuration : Configuration, configuration.gopSize = g → GopLaw configuration) ↔
      g = 1 := by
  constructor
  · intro hlaw
    by_contra hne
    have height : g % 8 = 0 := by
      unfold AcceptsGopSize at h
      omega
    obtain ⟨m, rfl⟩ := Nat.dvd_of_mod_eq_zero height
    apply absurd (hlaw (smallConfiguration (8 * m)) rfl)
    by_cases hm : m = 0
    · -- Without a period, the first group already has more frames than the GOP.
      subst hm
      obtain ⟨first, ledger, hfirst, hready⟩ := ready_first (g := 0)
      obtain ⟨packets, next, hnext, -, hlength, hpackets⟩ :=
        ready_groups (g := 0) (n := 1) hready (by decide)
      exact not_gopLaw_of_emits (hfirst.trans hnext) hpackets (by rw [hlength]; decide)
    · obtain ⟨before, packets, next, hemits, hlength, hpackets⟩ :=
        groups_after_refresh m (m + 1) hm
      apply not_gopLaw_of_emits hemits hpackets
      rw [hlength, groupFrames]
      omega
  · rintro rfl configuration hg
    exact gopLaw_of_one hg

/-- All-intra coding meets the law and a GOP of eight does not. -/
theorem gopLaw_one_not_eight :
    (∀ configuration : Configuration, configuration.gopSize = 1 → GopLaw configuration) ∧
    ¬ ∀ configuration : Configuration, configuration.gopSize = 8 → GopLaw configuration :=
  ⟨(gopLaw_iff 1 (by simp [AcceptsGopSize])).mpr rfl,
    fun h => absurd ((gopLaw_iff 8 (by simp [AcceptsGopSize])).mp h) (by decide)⟩

/-- With a GOP of eight, the groups after the refresh are never followed by an intra frame, and
four of them in a row have no reset. -/
theorem gop_eight_breaks_law :
    AcceptsGopSize 8 ∧
      (∀ answer ∈ trace (step (smallConfiguration 8)) new (sends (repeated 42)),
        answer = .ok ()) ∧
      ¬ IntraRecurs (smallConfiguration 8)
        (final (step (smallConfiguration 8)) new (sends (repeated 42))).emitted ∧
      ¬ ResetRecurs (smallConfiguration 8)
        (final (step (smallConfiguration 8)) new (sends (repeated 42))).emitted := by
  refine ⟨by simp [AcceptsGopSize], ?_⟩
  obtain ⟨before, packets, next, hemits, hlength, hpackets⟩ :=
    groups_after_refresh 1 4 (by decide)
  have hfinal : final (step (smallConfiguration 8)) new (sends (repeated 42)) = next :=
    hemits.final_eq
  refine ⟨hemits.accepted, ?_, ?_⟩
  · rw [hfinal, hemits.emitted]
    intro hrecurs
    have hcount := hrecurs packets (by simpa [new] using List.infix_append' before packets []) (by
      intro packet hpacket
      obtain ⟨j, -, hgroup⟩ := hpackets packet hpacket
      exact hgroup.frameType)
    rw [frameCount_groups hpackets, hlength] at hcount
    exact absurd hcount (by decide)
  · rw [hfinal, hemits.emitted]
    intro hresets
    have hpredicted : packets.filter (fun packet => packet.frameType = .predicted) = packets := by
      rw [List.filter_eq_self]
      intro packet hpacket
      obtain ⟨j, -, hgroup⟩ := hpackets packet hpacket
      simp [hgroup.frameType]
    obtain ⟨packet, hpacket, hreset⟩ := hresets packets (by
      rw [List.filter_append, List.filter_append, hpredicted]
      exact List.suffix_append _ _ |>.isInfix) hlength
    obtain ⟨j, hj, hgroup⟩ := hpackets packet hpacket
    rw [hgroup.reset] at hreset
    interval_cases j <;> revert hreset <;> decide

end Ledger

end Nvcr.Uf
