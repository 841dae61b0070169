import Nvcr.UfEncoder
import Nvcr.TransitionRuns

/-!
# Frame accounting of the DCVC-UF encoder

The frames whose sending succeeded since the last reset are the frames declared by the emitted
payloads followed by the pending ones, as long as every completed group can be coded.
-/

namespace Nvcr.Uf

open LittleEndian StatefulResults TransitionRuns

section Payload

@[simp] theorem payloadMagic_length (type : FrameType) : (payloadMagic type).length = 4 := by
  cases type <;> rfl

@[simp] theorem appendU64_length (timestamp : Timestamp) : (appendU64 timestamp).length = 8 :=
  leBytes_length _ _

theorem readU64_appendU64 (timestamp : Timestamp) (rest : Bytes) :
    readU64 (appendU64 timestamp ++ rest) 0 = timestamp := by
  have htake : ((appendU64 timestamp ++ rest).drop 0).take 8 = appendU64 timestamp := by
    rw [List.drop_zero, List.take_left' (appendU64_length timestamp)]
  rw [readU64, htake, appendU64,
    leValue_leBytes_of_lt (by simpa using timestamp.toUInt64.toNat_lt)]
  simp

theorem readU64_append {first rest : Bytes} {offset : ℕ} (h : first.length = offset) (k : ℕ) :
    readU64 (first ++ rest) (offset + k) = readU64 rest k := by
  subst h
  have hdrop : (first ++ rest).drop (first.length + k) = rest.drop k := by
    rw [List.drop_append, List.drop_eq_nil_of_le (by omega), List.nil_append,
      Nat.add_sub_cancel_left]
  rw [readU64, readU64, hdrop]

/-- Reading the timestamps back from their consecutive eight-byte fields. -/
theorem map_readU64_flatMap (timestamps : List Timestamp) (rest : Bytes) :
    (List.range timestamps.length).map
      (fun index => readU64 (timestamps.flatMap appendU64 ++ rest) (index * 8)) = timestamps := by
  induction timestamps with
  | nil => rfl
  | cons t ts ih =>
      rw [List.length_cons, List.range_succ_eq_map, List.map_cons, List.map_map,
        List.flatMap_cons, List.append_assoc]
      have hhead := readU64_appendU64 t (ts.flatMap appendU64 ++ rest)
      have htail : (List.range ts.length).map ((fun index =>
          readU64 (appendU64 t ++ (ts.flatMap appendU64 ++ rest)) (index * 8)) ∘ Nat.succ) =
          (List.range ts.length).map
            (fun index => readU64 (ts.flatMap appendU64 ++ rest) (index * 8)) := by
        apply List.map_congr_left
        intro index _
        have hoffset : index.succ * 8 = 8 + index * 8 := by omega
        simp only [Function.comp_apply, hoffset]
        exact readU64_append (appendU64_length t) (index * 8)
      rw [htail, ih, Nat.zero_mul, hhead]

variable (type : FrameType) (encoded : Encoded) (timestamps : List Timestamp) (reset : Bool)

theorem declaredCount_makePayload (h : timestamps.length < 256) :
    declaredCount (makePayload type encoded timestamps reset) = timestamps.length := by
  have hbyte : (makePayload type encoded timestamps reset).getD 4 0 =
      UInt8.ofNat timestamps.length := by
    cases type <;> rfl
  rw [declaredCount, hbyte, UInt8.toNat_ofNat', Nat.mod_eq_of_lt h]

/-- A payload declares exactly the timestamps it was made from. -/
theorem declaredTimestamps_makePayload (h : timestamps.length < 256) :
    declaredTimestamps (makePayload type encoded timestamps reset) = timestamps := by
  rw [declaredTimestamps, declaredCount_makePayload type encoded timestamps reset h]
  have hread : ∀ index, readU64 (makePayload type encoded timestamps reset) (8 + index * 8) =
      readU64 (timestamps.flatMap appendU64 ++ encoded.bitstream) (index * 8) := by
    intro index
    have hsplit : makePayload type encoded timestamps reset =
        (payloadMagic type ++ [UInt8.ofNat timestamps.length, encoded.entropyParallel,
          if reset then resetFeatureMemoryFlag else 0, 0]) ++
        (timestamps.flatMap appendU64 ++ encoded.bitstream) := by
      simp [makePayload]
    rw [hsplit, readU64_append (by simp)]
  simp only [hread]
  exact map_readU64_flatMap timestamps encoded.bitstream

/-- What the decoder reads from an accepted payload is what the payload declares. -/
theorem parsePayload_timestamps {payload : Bytes} {parsed : CodecPayload}
    (h : parsePayload type payload = .ok parsed) :
    parsed.timestamps = declaredTimestamps payload ∧
    parsed.resetFeatureMemory = declaredReset payload := by
  simp only [parsePayload, bind_eq_ok, require_eq_ok] at h
  obtain ⟨_, -, _, -, _, -, _, -, h⟩ := h
  cases h
  exact ⟨rfl, rfl⟩

end Payload

/-- The calls of the encoder interface, with the answers of the environment. -/
inductive Call where
  | sendFrame (frame : Frame) (outcome : Outcome)
  | receive
  | flush (outcome : Outcome)
  | reset (answer : Result Unit)

/-- An encoder with the packets it emitted and the timestamps of the frames it accepted since
the last reset. -/
structure Ledger where
  encoder : Encoder
  emitted : List Packet
  accepted : List Timestamp

namespace Ledger

def new : Ledger := ⟨.new, [], []⟩

/-- The packets a call adds to the output queue. -/
def newOutputs (before after : Encoder) : List Packet := after.outputs.drop before.outputs.length

section Step

variable (configuration : Configuration)

def step (ledger : Ledger) : Call → Result Unit × Ledger
  | .sendFrame frame outcome =>
      let (answer, encoder) := ledger.encoder.sendFrame configuration frame outcome
      (answer,
        { encoder
          emitted := ledger.emitted ++ newOutputs ledger.encoder encoder
          accepted := match answer with
            | .ok () => ledger.accepted ++ [frame.timestamp]
            | .error _ => ledger.accepted })
  | .receive =>
      let (answer, encoder) := ledger.encoder.receiveAccessUnit
      (answer.map fun _ => (), { ledger with encoder })
  | .flush outcome =>
      let (answer, encoder) := ledger.encoder.flush configuration outcome
      (answer,
        { ledger with
          encoder
          emitted := ledger.emitted ++ newOutputs ledger.encoder encoder })
  | .reset answer =>
      let (answer, encoder) := ledger.encoder.reset answer
      (answer, ⟨encoder, [], []⟩)

/-- The timestamps declared valid by the payload of an emitted packet. -/
def packetTimestamps (packet : Packet) : List Timestamp :=
  match AccessUnitIo.deserialize packet.data configuration.maxPacketBytes with
  | .ok unit => declaredTimestamps unit.payload
  | .error _ => []

/-- Every accepted frame is declared once and in order or still pending, fewer than a group is
pending, and nothing is pending after a flush. -/
structure Accounted (ledger : Ledger) : Prop where
  pending_lt : ledger.encoder.pending.length < groupFrames
  accepted : ledger.emitted.flatMap (packetTimestamps configuration) ++
    ledger.encoder.pending.map Frame.timestamp = ledger.accepted
  flushed : ledger.encoder.flushed = true → ledger.encoder.pending = []

/-- The encoder with the group that a call completes, and the number of valid frames in it. -/
def completedGroup (encoder : Encoder) : Call → Option (Encoder × ℕ × Outcome)
  | .sendFrame frame outcome =>
      match encoder.validateFrame frame with
      | .error _ => none
      | .ok validated =>
          if encoder.flushed = false ∧ encoder.pending.length + 1 = groupFrames then
            some ({ validated with pending := encoder.pending ++ [frame] }, groupFrames, outcome)
          else
            none
  | .flush outcome =>
      if encoder.flushed = false ∧ encoder.pending ≠ [] then
        some (encoder.padPending, encoder.pending.length, outcome)
      else
        none
  | _ => none

/-- If the call completes a group, its encoding and the creation of its access unit succeed. -/
def GroupSucceeds (ledger : Ledger) (call : Call) : Prop :=
  ∀ group ∈ completedGroup ledger.encoder call,
    (group.1.groupUnit configuration group.2.1 group.2.2).isOk = true

instance (ledger : Ledger) (call : Call) :
    Decidable (GroupSucceeds configuration ledger call) := by
  unfold GroupSucceeds
  infer_instance

end Step

variable {configuration : Configuration}

theorem GroupSucceeds.exists_packet {ledger : Ledger} {call : Call} {encoder : Encoder} {n : ℕ}
    {outcome : Outcome} (h : GroupSucceeds configuration ledger call)
    (hg : completedGroup ledger.encoder call = some (encoder, n, outcome)) :
    ∃ packet, encoder.groupUnit configuration n outcome = .ok packet := by
  have hok := h _ hg
  cases hu : encoder.groupUnit configuration n outcome with
  | error e => simp [hu, Except.isOk, Except.toBool] at hok
  | ok packet => exact ⟨packet, rfl⟩

theorem wrapAccessUnit_timestamps {failure : Option Error} {type : FrameType}
    {width height : UInt32} {timestamp : Timestamp} {payload : Bytes} {packet : Packet}
    (h : wrapAccessUnit configuration failure type width height timestamp payload = .ok packet) :
    packetTimestamps configuration packet = declaredTimestamps payload := by
  cases failure with
  | some e => cases h
  | none =>
      simp only [wrapAccessUnit, bind_eq_ok] at h
      obtain ⟨serialized, hserialized, hpacket⟩ := h
      cases hpacket
      rw [packetTimestamps, AccessUnitIo.deserialize_serialize hserialized]
      rfl

theorem intraUnit_timestamps {frame : Frame} {outcome : Outcome} {packet : Packet}
    (h : Encoder.intraUnit configuration frame outcome = .ok packet) :
    packetTimestamps configuration packet = [frame.timestamp] := by
  simp only [Encoder.intraUnit, bind_eq_ok] at h
  obtain ⟨encoded, -, hwrap⟩ := h
  rw [wrapAccessUnit_timestamps hwrap, declaredTimestamps_makePayload _ _ _ _ (by simp)]

theorem groupUnit_timestamps {encoder : Encoder} {validCount : ℕ} {outcome : Outcome}
    {packet : Packet} (hcount : validCount ≤ groupFrames)
    (h : encoder.groupUnit configuration validCount outcome = .ok packet) :
    packetTimestamps configuration packet =
      (encoder.pending.take validCount).map Frame.timestamp := by
  simp only [Encoder.groupUnit, bind_eq_ok] at h
  obtain ⟨encoded, -, hwrap⟩ := h
  rw [wrapAccessUnit_timestamps hwrap, declaredTimestamps_makePayload]
  have hlength := List.length_take_le validCount encoder.pending
  simp only [List.length_map]
  unfold groupFrames at hcount
  omega

theorem accounted_new : Accounted configuration new where
  pending_lt := by decide
  accepted := rfl
  flushed := by simp [new, Encoder.new]

theorem accounted_sendFrame {ledger : Ledger} {frame : Frame} {outcome : Outcome}
    (h : Accounted configuration ledger)
    (hgroup : GroupSucceeds configuration ledger (.sendFrame frame outcome)) :
    Accounted configuration (step configuration ledger (.sendFrame frame outcome)).2 := by
  obtain ⟨hlt, haccepted, hflushed⟩ := h
  have hcases := Encoder.sendFrame_cases configuration ledger.encoder frame outcome
  simp only [step]
  generalize ledger.encoder.sendFrame configuration frame outcome = result at hcases
  cases hcases with
  | rejected e => exact ⟨hlt, by simpa [newOutputs] using haccepted, hflushed⟩
  | intraFailed validated e hv =>
      obtain ⟨w, h, rfl⟩ := Encoder.validateFrame_eq_ok hv
      exact ⟨hlt, by simpa [newOutputs] using haccepted, hflushed⟩
  | intra validated packet hf hv hp hs hu =>
      obtain ⟨w, h, rfl⟩ := Encoder.validateFrame_eq_ok hv
      refine ⟨hlt, ?_, hflushed⟩
      simp only [hp, List.map_nil, List.append_nil] at haccepted
      simp [newOutputs, hp, haccepted, intraUnit_timestamps hu]
  | joined validated hf hv hs hl =>
      obtain ⟨w, h, rfl⟩ := Encoder.validateFrame_eq_ok hv
      refine ⟨?_, ?_, by simp [hf]⟩
      · simp only [List.length_append, List.length_singleton]
        omega
      · simp [newOutputs, ← haccepted]
  | groupFailed validated e hf hv hl hu =>
      -- This is the failing branch that the condition on the call excludes.
      have hcompleted : completedGroup ledger.encoder (.sendFrame frame outcome) =
          some ({ validated with pending := ledger.encoder.pending ++ [frame] }, groupFrames,
            outcome) := by
        simp [completedGroup, hv, hf, hl]
      obtain ⟨packet, hpacket⟩ := hgroup.exists_packet hcompleted
      simp only [hu] at hpacket
      cases hpacket
  | group validated packet hf hv hl hu =>
      obtain ⟨w, h, rfl⟩ := Encoder.validateFrame_eq_ok hv
      refine ⟨(by decide : 0 < groupFrames), ?_, fun _ => rfl⟩
      have hlength : (ledger.encoder.pending ++ [frame]).length = groupFrames := by
        simpa using hl
      have htimestamps := groupUnit_timestamps le_rfl hu
      rw [← hlength, List.take_length] at htimestamps
      simp [newOutputs, htimestamps, ← haccepted]

theorem accounted_flush {ledger : Ledger} {outcome : Outcome}
    (h : Accounted configuration ledger)
    (hgroup : GroupSucceeds configuration ledger (.flush outcome)) :
    Accounted configuration (step configuration ledger (.flush outcome)).2 := by
  obtain ⟨hlt, haccepted, hflushed⟩ := h
  simp only [step, Encoder.flush]
  split
  · exact ⟨hlt, by simpa [newOutputs] using haccepted, hflushed⟩
  rename_i hf
  have hf : ledger.encoder.flushed = false := by simpa using hf
  split
  · rename_i hempty
    exact ⟨hlt, by simpa [newOutputs] using haccepted, fun _ => List.isEmpty_iff.mp hempty⟩
  · rename_i hempty
    have hne : ledger.encoder.pending ≠ [] := by simpa using hempty
    have hcompleted : completedGroup ledger.encoder (.flush outcome) =
        some (ledger.encoder.padPending, ledger.encoder.pending.length, outcome) := by
      simp [completedGroup, hf, hne]
    obtain ⟨packet, hpacket⟩ := hgroup.exists_packet hcompleted
    have htimestamps := groupUnit_timestamps hlt.le hpacket
    simp only [Encoder.emitPredicted, hpacket]
    refine ⟨(by decide : 0 < groupFrames), ?_, fun _ => rfl⟩
    -- The padding stands after the valid frames, so it is not declared.
    have hvalid : ledger.encoder.padPending.pending.take ledger.encoder.pending.length =
        ledger.encoder.pending := by
      simp [Encoder.padPending]
    rw [hvalid] at htimestamps
    simp [newOutputs, Encoder.padPending, htimestamps, ← haccepted]

theorem accounted_step (ledger : Ledger) (call : Call) (h : Accounted configuration ledger)
    (hgroup : GroupSucceeds configuration ledger call) :
    Accounted configuration (step configuration ledger call).2 := by
  cases call with
  | sendFrame frame outcome => exact accounted_sendFrame h hgroup
  | flush outcome => exact accounted_flush h hgroup
  | receive =>
      obtain ⟨hlt, haccepted, hflushed⟩ := h
      simp only [step, Encoder.receiveAccessUnit]
      split
      · exact ⟨hlt, haccepted, hflushed⟩
      · split <;> exact ⟨hlt, haccepted, hflushed⟩
  | reset answer => exact ⟨by simp [step, Encoder.reset, groupFrames], rfl, by simp [step, Encoder.reset]⟩

/-- In every run in which each completed group can be coded, every state reached accounts for
all accepted frames. -/
theorem run_accounted (configuration : Configuration) (calls : List Call)
    (h : Along (GroupSucceeds configuration) (step configuration) new calls) :
    Accounted configuration (final (step configuration) new calls) :=
  invariant_of_along accounted_step accounted_new h

/-- A 2x2 frame. -/
def smallFrame (timestamp : Timestamp) : Frame where
  width := 2
  height := 2
  pixelFormat := .yuv420p8
  timestamp := timestamp
  data := [0, 0, 0, 0, 0, 0]
  size_ok := Frame.smallest_size_ok

def smallConfiguration (gopSize : ℕ) : Configuration :=
  ⟨[117, 102], 32, gopSize, 1024⟩

def succeeds : Outcome := { encoded := .ok ⟨[1], 1⟩ }

def fails : Outcome := { encoded := .error (codecError .backendError "stage failed") }

/-- An intra frame, a full group, and a group of three that flushing pads. -/
theorem run_accounted_small :
    (final (step (smallConfiguration 32)) new
        ((List.range 12).map (fun n => Call.sendFrame (smallFrame (Int64.ofNat n)) succeeds) ++
          [.receive, .flush succeeds])).accepted.length = 12 ∧
    Accounted (smallConfiguration 32) (final (step (smallConfiguration 32)) new
      ((List.range 12).map (fun n => Call.sendFrame (smallFrame (Int64.ofNat n)) succeeds) ++
        [.receive, .flush succeeds])) :=
  ⟨by decide, run_accounted _ _ (by decide)⟩

/-- The group encoder fails on the frame that completes the first group: the frame was refused,
yet it stays in a group that is never emitted. -/
theorem failed_group_not_accounted :
    (trace (step (smallConfiguration 32)) new
        ((List.range 8).map (fun n => Call.sendFrame (smallFrame (Int64.ofNat n)) succeeds) ++
          [.sendFrame (smallFrame 8) fails])).getLast? =
      some (.error (codecError .backendError "stage failed")) ∧
    ¬ Accounted (smallConfiguration 32) (final (step (smallConfiguration 32)) new
      ((List.range 8).map (fun n => Call.sendFrame (smallFrame (Int64.ofNat n)) succeeds) ++
        [.sendFrame (smallFrame 8) fails])) := by
  refine ⟨by decide, fun h => ?_⟩
  exact absurd h.pending_lt (by decide)

end Ledger

end Nvcr.Uf
