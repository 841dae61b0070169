import Nvcr.CliDecodeLoop

/-!
# The session driver of the command line

The loop of the encode command, and what both commands do with sessions that obey their contract.
-/

namespace Nvcr.Cli

open StatefulResults StatefulResults.Action DelayedSessions

section Encode

/-- Append the record of a packet to the output file; writing succeeds. -/
def writeRecord (packet : EncodedPacket) : Action Error Bytes Unit := do
  let bytes ← lift (emitPacket packet)
  update fun output => output ++ bytes

structure EncodeOptions where
  width : UInt32
  height : UInt32
  frames : ℕ
  framePeriodUs : Int64
  /-- The size of a raw frame. -/
  frameSize : ℕ

/-- Why the encode command fails. -/
inductive EncodeFailure where
  | incompleteFrame (index : ℕ)
  | frame (error : Error)
  | driver (error : Error)

/-- The next raw frame of the input with its timestamp. -/
def readFrame (options : EncodeOptions) (index : ℕ) (input : Bytes) : Result Frame :=
  Frame.copyFrom options.width options.height .yuv420p8 (input.take options.frameSize)
    (Int64.ofNat index * options.framePeriodUs)

variable {σ : Type} (session : Session Error σ Frame EncodedPacket) (options : EncodeOptions)
  (drainFuel : ℕ)

def encodeEnd (s : σ) (output : Bytes) : Option (Except EncodeFailure Unit × σ × Bytes) :=
  match flushAndDrain session writeRecord drainFuel none s output with
  | none => none
  | some (.error e, s', output') => some (.error (.driver e), s', output')
  | some (.ok _, s', output') => some (.ok (), s', output')

/-- The loop of the encode command: the frames are those asked for, or all of the input. -/
def encodeLoop : ℕ → ℕ → Bytes → σ → Bytes → Option (Except EncodeFailure Unit × σ × Bytes)
  | 0, _, _, _, _ => none
  | fuel + 1, index, input, s, output =>
      if options.frames = 0 ∨ index < options.frames then
        if (input.take options.frameSize).length = 0 ∧ options.frames = 0 then
          encodeEnd session drainFuel s output
        else if (input.take options.frameSize).length ≠ options.frameSize then
          some (.error (.incompleteFrame index), s, output)
        else
          match readFrame options index input with
          | .error e => some (.error (.frame e), s, output)
          | .ok frame =>
              match sendAndDrain session writeRecord drainFuel none frame s output with
              | none => none
              | some (.error e, s', output') => some (.error (.driver e), s', output')
              | some (.ok _, s', output') =>
                  encodeLoop fuel (index + 1) (input.drop options.frameSize) s' output'
      else encodeEnd session drainFuel s output

/-- The encode command from the sequence header on. -/
def encodeCommand (fuel : ℕ) (input : Bytes) (s : σ) :
    Option (Except EncodeFailure Unit × σ × Bytes) :=
  encodeLoop session options drainFuel fuel 0 input s sequenceHeader

/-- The command reads these frames from the input and then stops reading. -/
def Reads : ℕ → Bytes → List Frame → Prop
  | index, input, [] => (options.frames = 0 ∧ input = []) ∨
      (options.frames ≠ 0 ∧ options.frames ≤ index)
  | index, input, frame :: frames => (options.frames = 0 ∨ index < options.frames) ∧
      0 < options.frameSize ∧ options.frameSize ≤ input.length ∧
      readFrame options index input = .ok frame ∧
      Reads (index + 1) (input.drop options.frameSize) frames

/-- What the command is to do: write the records of the packets. -/
def written (outputs : List EncodedPacket) (output : Bytes) : Except EncodeFailure Unit × Bytes :=
  match (emitAll writeRecord outputs).run output with
  | (.ok (), output') => (.ok (), output')
  | (.error e, output') => (.error (.driver e), output')

variable {session options drainFuel}

theorem written_append_ok {chunk : List EncodedPacket} {output output' : Bytes}
    (h : (emitAll writeRecord chunk).run output = (.ok (), output'))
    (rest : List EncodedPacket) : written (chunk ++ rest) output = written rest output' := by
  rw [written, emitAll_append, h, written]

theorem written_append_error {chunk : List EncodedPacket} {output output' : Bytes} {e : Error}
    (h : (emitAll writeRecord chunk).run output = (.error e, output'))
    (rest : List EncodedPacket) :
    written (chunk ++ rest) output = (.error (.driver e), output') := by
  rw [written, emitAll_append, h]

variable {At : List Frame → List EncodedPacket → Bool → σ → Prop}

theorem encodeEnd_written (hobeys : Obeys session Wants Ended At) {outputs : List EncodedPacket}
    {s : σ} (hat : At [] outputs false s) (hdrain : outputs.length < drainFuel) (output : Bytes) :
    ∃ s', encodeEnd session drainFuel s output =
      some ((written outputs output).1, s', (written outputs output).2) := by
  have hdrained : Drained (fun rest => At [] rest true) outputs none 0 true output writeRecord
      (flushAndDrain session writeRecord drainFuel none s output) :=
    flushAndDrain_drained hobeys hat hdrain none output
  rw [encodeEnd]
  generalize flushAndDrain session writeRecord drainFuel none s output = result at hdrained ⊢
  cases hdrained with
  | limited houtputs hemitted hlimit _ => cases hlimit
  | @ready chunk rest s' output' state houtputs hemitted _ _ hrest _ =>
      rw [houtputs, written_append_ok hemitted, hrest rfl]
      exact ⟨s', rfl⟩
  | @failed chunk rest e s' output' houtputs hemitted _ =>
      rw [houtputs, written_append_error hemitted]
      exact ⟨s', rfl⟩

theorem encodeLoop_written (hobeys : Obeys session Wants Ended At) {frames : List Frame}
    {outputs : List EncodedPacket} {s : σ} (hat : At frames outputs false s) {index : ℕ}
    {input : Bytes} (hreads : Reads options index input frames) {fuel : ℕ}
    (hfuel : frames.length < fuel) (hdrain : outputs.length < drainFuel) (output : Bytes) :
    ∃ s', encodeLoop session options drainFuel fuel index input s output =
      some ((written outputs output).1, s', (written outputs output).2) := by
  induction frames generalizing outputs s index input fuel output with
  | nil =>
      cases fuel with
      | zero => omega
      | succ fuel =>
          have hend := encodeEnd_written hobeys hat hdrain output
          rw [encodeLoop]
          obtain ⟨hframes, rfl⟩ | ⟨hframes, hindex⟩ := hreads
          · rw [if_pos (.inl hframes), if_pos ⟨by simp, hframes⟩]
            exact hend
          · rw [if_neg (by omega)]
            exact hend
  | cons frame frames ih =>
      cases fuel with
      | zero => omega
      | succ fuel =>
          obtain ⟨hindex, hsize, hlength, hframe, hlater⟩ := hreads
          have htake : (input.take options.frameSize).length = options.frameSize := by
            rw [List.length_take]
            omega
          have hdrained : Drained (fun rest => At frames rest false) outputs none 0 false output
              writeRecord (sendAndDrain session writeRecord drainFuel none frame s output) :=
            sendAndDrain_drained hobeys hat hdrain none output
          rw [encodeLoop, if_pos hindex, if_neg (by omega), if_neg (by omega), hframe]
          simp only []
          generalize sendAndDrain session writeRecord drainFuel none frame s output =
            result at hdrained ⊢
          cases hdrained with
          | limited houtputs hemitted hlimit _ => cases hlimit
          | @ready chunk rest s' output' state houtputs hemitted _ _ _ hnext =>
              have hrest := ih hnext hlater (Nat.lt_of_succ_lt_succ hfuel)
                (lt_of_le_of_lt (by simp [houtputs]) hdrain) output'
              rw [houtputs, written_append_ok hemitted]
              exact hrest
          | @failed chunk rest e s' output' houtputs hemitted _ =>
              rw [houtputs, written_append_error hemitted]
              exact ⟨s', rfl⟩

/-- Writing packet after packet gives the records of the sequence, or the first error. -/
theorem written_eq (outputs : List EncodedPacket) (output : Bytes) :
    (∀ records, emitPackets outputs = .ok records →
      written outputs output = (.ok (), output ++ records)) ∧
    (∀ e, emitPackets outputs = .error e → (written outputs output).1 = .error (.driver e)) := by
  induction outputs generalizing output with
  | nil =>
      refine ⟨?_, ?_⟩
      · rintro _ ⟨⟩
        exact Prod.ext rfl (List.append_nil output).symm
      · rintro _ ⟨⟩
  | cons packet outputs ih =>
      cases hpacket : emitPacket packet with
      | error e =>
          have hwritten : written (packet :: outputs) output = (.error (.driver e), output) := by
            simp only [written, emitAll_cons, writeRecord, run_bind, run_lift, hpacket]
          have hemit : emitPackets (packet :: outputs) = .error e := by
            simp only [emitPackets, hpacket, error_bind]
          rw [hemit, hwritten]
          refine ⟨?_, ?_⟩
          · rintro _ ⟨⟩
          · rintro _ ⟨⟩
            rfl
      | ok bytes =>
          have hwritten : written (packet :: outputs) output = written outputs (output ++ bytes) := by
            simp only [written, emitAll_cons, writeRecord, run_bind, run_lift, hpacket, run_update]
          obtain ⟨hok, herror⟩ := ih (output ++ bytes)
          simp only [emitPackets, hpacket, ok_bind, hwritten]
          cases hlater : emitPackets outputs with
          | error e =>
              refine ⟨?_, ?_⟩
              · rintro _ ⟨⟩
              · rintro _ ⟨⟩
                exact herror e hlater
          | ok later =>
              refine ⟨?_, ?_⟩
              · rintro _ ⟨⟩
                rw [hok later hlater, List.append_assoc]
              · rintro _ ⟨⟩

/-- The command ends; its output file holds the records of all access units, each once and in
order, unless one of them cannot be serialized. -/
def WritesUnits (units : List EncodedPacket)
    (result : Option (Except EncodeFailure Unit × σ × Bytes)) : Prop :=
  ∃ verdict s' output, result = some (verdict, s', output) ∧
    (∀ records, emitPackets units = .ok records →
      verdict = .ok () ∧ output = sequenceHeader ++ records) ∧
    (∀ e, emitPackets units = .error e → verdict = .error (.driver e))

theorem encodeCommand_writes (hobeys : Obeys session Wants Ended At) {frames : List Frame}
    {units : List EncodedPacket} {s : σ} (hat : At frames units false s) {input : Bytes}
    (hreads : Reads options 0 input frames) {fuel : ℕ} (hfuel : frames.length < fuel)
    (hdrain : units.length < drainFuel) :
    WritesUnits units (encodeCommand session options drainFuel fuel input s) := by
  obtain ⟨s', hloop⟩ := encodeLoop_written hobeys hat hreads hfuel hdrain sequenceHeader
  obtain ⟨hok, herror⟩ := written_eq units sequenceHeader
  refine ⟨_, s', _, hloop, ?_, herror⟩
  intro records hrecords
  rw [hok records hrecords]
  exact ⟨rfl, rfl⟩

end Encode

/-- For every decoder session that obeys the contract and every nonempty record file whose packets
it decodes to frames of one even size, the decode command writes the frames up to the limit. For
every encoder session that obeys the contract, the encode command writes the access units of the
frames it reads. -/
theorem session_driver_writes {σ τ : Type} {decoder : Session Error σ EncodedPacket Frame}
    {Decodes : List EncodedPacket → List Frame → Bool → σ → Prop}
    (hdecoder : Obeys decoder Wants Ended Decodes) {packets : List EncodedPacket}
    (hne : packets ≠ []) {input : Bytes} (hrecords : Upcoming none input packets)
    {outputs : List Frame} {s : σ} (hdecodes : Decodes packets outputs false s)
    {width height : UInt32} (hwidth : width.toNat % 2 = 0) (hheight : height.toNat % 2 = 0)
    (houtputs : ∀ frame ∈ outputs, Writable width height frame) (frames : ℕ)
    {encoder : Session Error τ Frame EncodedPacket}
    {Encodes : List Frame → List EncodedPacket → Bool → τ → Prop}
    (hencoder : Obeys encoder Wants Ended Encodes) {options : EncodeOptions} {raw : Bytes}
    {inputs : List Frame} (hreads : Reads options 0 raw inputs) {units : List EncodedPacket}
    {t : τ} (hencodes : Encodes inputs units false t) {fuel drainFuel : ℕ}
    (hfuel : packets.length < fuel ∧ inputs.length < fuel)
    (hdrain : outputs.length < drainFuel ∧ units.length < drainFuel) :
    WritesFrames frames outputs (decodeCommand decoder frames drainFuel fuel input s) ∧
      WritesUnits units (encodeCommand encoder options drainFuel fuel raw t) :=
  ⟨decodeCommand_writes hdecoder hne hdecodes hrecords hwidth hheight houtputs hfuel.1 hdrain.1,
    encodeCommand_writes hencoder hencodes hreads hfuel.2 hdrain.2⟩

section Groups

/-- A session that hands out its outputs in groups of `n`, and an incomplete group at the flush. -/
structure GroupState (ο : Type) where
  ready : List ο := []
  held : List ο := []
  flushed : Bool := false

def groupSession {ι ο : Type} (n : ℕ) (code : ι → ο) : Session Error (GroupState ο) ι ο where
  send input := update fun s =>
    if (s.held ++ [code input]).length = n then
      { s with ready := s.ready ++ (s.held ++ [code input]), held := [] }
    else { s with held := s.held ++ [code input] }
  receive := fun s =>
    match s.ready with
    | output :: rest => (.ok output, { s with ready := rest })
    | [] =>
        if s.flushed then (.error ⟨.endOfStream, "drained", "codec"⟩, s)
        else (.error ⟨.tryAgain, "no output", "codec"⟩, s)
  flush := update fun s => { s with ready := s.ready ++ s.held, held := [], flushed := true }

/-- The outputs to come are those at hand and those of the inputs to come. -/
structure Groups {ι ο : Type} (code : ι → ο) (inputs : List ι) (outputs : List ο) (flushed : Bool)
    (s : GroupState ο) : Prop where
  flushed_eq : s.flushed = flushed
  outputs_eq : outputs = s.ready ++ (s.held ++ inputs.map code)
  held_eq : flushed = true → s.held = []

theorem groupSession_obeys {ι ο : Type} (n : ℕ) (code : ι → ο) :
    Obeys (groupSession n code) Wants Ended (Groups code) where
  send := by
    intro input inputs outputs s h
    refine ⟨_, rfl, ?_, ?_, fun hnever => by cases hnever⟩
    · dsimp only
      split <;> exact h.flushed_eq
    · rw [h.outputs_eq, List.map_cons]
      dsimp only
      split <;> simp
  receive := by
    intro inputs outputs s h
    rcases hready : s.ready with _ | ⟨output, rest⟩
    · have hrun : (groupSession n code).receive.run s =
          (.error ⟨.tryAgain, "no output", "codec"⟩, s) := by
        simp only [groupSession, Action.run, hready, h.flushed_eq, Bool.false_eq_true, if_false]
      have hwants : Wants ⟨.tryAgain, "no output", "codec"⟩ := rfl
      exact .none hwants hrun h
    · have hrun : (groupSession n code).receive.run s = (.ok output, { s with ready := rest }) := by
        simp only [groupSession, Action.run, hready]
      exact .output (by rw [h.outputs_eq, hready, List.cons_append]) hrun
        ⟨h.flushed_eq, rfl, h.held_eq⟩
  flush := by
    intro outputs s h
    refine ⟨_, rfl, rfl, ?_, fun _ => rfl⟩
    rw [h.outputs_eq]
    simp
  drain := by
    intro outputs s h
    rcases hready : s.ready with _ | ⟨output, rest⟩
    · have hrun : (groupSession n code).receive.run s =
          (.error ⟨.endOfStream, "drained", "codec"⟩, s) := by
        simp only [groupSession, Action.run, hready, h.flushed_eq, if_true]
      have hnone : outputs = [] := by simp [h.outputs_eq, hready, h.held_eq rfl]
      have hended : Ended ⟨.endOfStream, "drained", "codec"⟩ := rfl
      exact .none ⟨hended, hnone⟩ hrun h
    · have hrun : (groupSession n code).receive.run s = (.ok output, { s with ready := rest }) := by
        simp only [groupSession, Action.run, hready]
      exact .output (by rw [h.outputs_eq, hready, List.cons_append]) hrun
        ⟨h.flushed_eq, rfl, h.held_eq⟩

/-- A file that the encode command wrote holds its packets. -/
theorem upcoming_of_emitPackets {packets : List EncodedPacket} {records : Bytes}
    (h : emitPackets packets = .ok records) (hfits : ∀ packet ∈ packets, Fits packet) :
    Upcoming none records packets := by
  induction packets generalizing records with
  | nil =>
      cases h
      exact ⟨rfl, rfl⟩
  | cons packet packets ih =>
      obtain ⟨wire, later, hwire, hlater, rfl⟩ := emitPackets_cons_eq_ok.mp h
      have hfirst := hfits packet List.mem_cons_self
      refine ⟨wire, later, ?_, deserializePacket_of_fits hwire hfirst, ih hlater ?_⟩
      · rw [takeRecord]
        exact readRecord_of_fits hwire hfirst
      · intro packet' hmem
        exact hfits packet' (List.mem_cons_of_mem packet hmem)

/-- The record of a packet of one byte. -/
theorem exists_emitPackets_intraPacket :
    ∃ records, emitPackets [intraPacket [0]] = .ok records ∧
      Upcoming none records [intraPacket [0]] := by
  obtain ⟨file, hfile⟩ := exists_writeSequence_intraPacket [0] (by decide)
  obtain ⟨records, hrecords, -⟩ := writeSequence_eq_ok.mp hfile
  refine ⟨records, hrecords, upcoming_of_emitPackets hrecords ?_⟩
  rw [List.forall_mem_singleton, Fits, intraPacket_wireSize]
  decide

/-- A frame of four equal pixels. -/
def rawFrame (timestamp : Timestamp) : Frame :=
  ⟨2, 2, .yuv420p8, timestamp, [0, 0, 0, 0, 0, 0], Frame.smallest_size_ok⟩

def grayFrame : Frame := ⟨2, 2, .gray8, 0, [0, 0, 0, 0], .inl rfl⟩

/-- Two raw frames of the encode command. -/
def rawOptions : EncodeOptions := ⟨2, 2, 2, 40, 6⟩

/-- A decoder that shows a frame for every packet and an encoder that gives a packet for every
frame, both in groups of eight, of which only the flush completes one. -/
theorem session_driver_writes_groups :
    ∃ input, WritesFrames 1 [rawFrame 0] (decodeCommand (groupSession 8 fun _ => rawFrame 0) 1 3 3
        input {}) ∧
      WritesUnits [intraPacket [0], intraPacket [0]]
        (encodeCommand (groupSession 8 fun _ => intraPacket [0]) rawOptions 3 3
          (List.replicate 12 0) {}) := by
  obtain ⟨input, -, hrecords⟩ := exists_emitPackets_intraPacket
  have hdecodes : Groups (fun _ => rawFrame 0) [intraPacket [0]] [rawFrame 0] false {} :=
    ⟨rfl, rfl, fun _ => rfl⟩
  have hwritable : ∀ frame ∈ [rawFrame 0], Writable 2 2 frame :=
    List.forall_mem_singleton.mpr ⟨rfl, rfl, .inl rfl⟩
  have hreads : Reads rawOptions 0 (List.replicate 12 0) [rawFrame 0, rawFrame 40] := by
    refine ⟨by decide, by decide, by decide, by decide, by decide, by decide, by decide, by decide,
      .inr ?_⟩
    decide
  have hencodes : Groups (fun _ => intraPacket [0]) [rawFrame 0, rawFrame 40]
      [intraPacket [0], intraPacket [0]] false {} := ⟨rfl, rfl, fun _ => rfl⟩
  exact ⟨input, session_driver_writes (groupSession_obeys 8 fun _ => rawFrame 0)
    (List.cons_ne_nil _ _) hrecords hdecodes (by decide) (by decide) hwritable 1
    (groupSession_obeys 8 fun _ => intraPacket [0]) hreads hencodes (by decide) (by decide)⟩

/-- A session may decode to frames of one even size in a format that the command does not write. -/
theorem gray_frames_not_written :
    ¬ ∀ (σ : Type) (decoder : Session Error σ EncodedPacket Frame)
        (Decodes : List EncodedPacket → List Frame → Bool → σ → Prop)
        (_ : Obeys decoder Wants Ended Decodes) (packets : List EncodedPacket) (_ : packets ≠ [])
        (input : Bytes) (_ : Upcoming none input packets) (outputs : List Frame) (s : σ)
        (_ : Decodes packets outputs false s) (width height : UInt32)
        (_ : width.toNat % 2 = 0) (_ : height.toNat % 2 = 0)
        (_ : ∀ frame ∈ outputs, frame.width = width ∧ frame.height = height) (frames : ℕ)
        (fuel drainFuel : ℕ) (_ : packets.length < fuel) (_ : outputs.length < drainFuel),
      WritesFrames frames outputs (decodeCommand decoder frames drainFuel fuel input s) := by
  intro h
  obtain ⟨input, -, hrecords⟩ := exists_emitPackets_intraPacket
  have hdecodes : Groups (fun _ => grayFrame) [intraPacket [0]] [grayFrame] false {} :=
    ⟨rfl, rfl, fun _ => rfl⟩
  obtain ⟨verdict, s', writer, hrun, -, hverdict⟩ := h _ _ _ (groupSession_obeys 1 fun _ => grayFrame)
    [intraPacket [0]] (List.cons_ne_nil _ _) input hrecords [grayFrame] {} hdecodes 2 2 (by decide)
    (by decide) (List.forall_mem_singleton.mpr ⟨rfl, rfl⟩) 0 2 2 (by decide) (by decide)
  obtain ⟨wire, rest, hread, hpacket, hnext⟩ := hrecords
  have hheld : Upcoming (some wire) rest [intraPacket [0]] := ⟨wire, rest, rfl, hpacket, hnext⟩
  obtain ⟨s'', hloop⟩ := decodeLoop_emitted (groupSession_obeys 1 fun _ => grayFrame) hdecodes hheld
    (by decide : 1 < 2) (by decide : 1 < 2) 0 {}
  rw [takeRecord] at hread
  rw [decodeCommand, hread] at hrun
  simp only [hpacket] at hrun
  rw [hloop] at hrun
  rw [hverdict.mpr (.inl rfl)] at hrun
  simp only [Option.some.injEq, Prod.mk.injEq] at hrun
  have hrejected : (emitted 0 [grayFrame] {}).1 = .error (.driver
      (cliError .invalidArgument "decoder returned an unsupported pixel format")) := rfl
  rw [hrejected] at hrun
  cases hrun.1

end Groups

end Nvcr.Cli
