import Nvcr.CliContainer
import Nvcr.CliDraining

/-!
# The loop of the decode command

The command sends the packets of a record file one by one, writes the frames that are ready after
each, and flushes at the end. It may be limited to a number of frames.
-/

namespace Nvcr.Cli

open StatefulResults StatefulResults.Action DelayedSessions

section Conversion

/-- One channel of a pixel. -/
def channel (rgb : Bytes) (width y x index : ℕ) : ℤ :=
  (rgb.getD ((y * width + x) * 3 + index) 0).toNat

def clampByte (value : ℤ) : UInt8 := UInt8.ofNat (min (max value 0) 255).toNat

def lumaOf (rgb : Bytes) (width y x : ℕ) : ℤ :=
  (66 * channel rgb width y x 0 + 129 * channel rgb width y x 1 + 25 * channel rgb width y x 2 +
    128) / 256 + 16

def blueOf (rgb : Bytes) (width y x : ℕ) : ℤ :=
  (-38 * channel rgb width y x 0 - 74 * channel rgb width y x 1 + 112 * channel rgb width y x 2 +
    128) / 256 + 128

def redOf (rgb : Bytes) (width y x : ℕ) : ℤ :=
  (112 * channel rgb width y x 0 - 94 * channel rgb width y x 1 - 18 * channel rgb width y x 2 +
    128) / 256 + 128

/-- The mean of a value over a block of two by two pixels. -/
def blockMean (value : ℕ → ℕ → ℤ) (y x : ℕ) : ℤ :=
  Int.tdiv (value y x + value y (x + 1) + value (y + 1) x + value (y + 1) (x + 1)) 4

/-- The planes of an RGB picture of even size. -/
def rgb24ToYuv420p8 (rgb : Bytes) (width height : ℕ) : Bytes :=
  let uvWidth := width / 2
  let uvSize := uvWidth * (height / 2)
  (List.range (width * height)).map (fun k => clampByte (lumaOf rgb width (k / width) (k % width))) ++
    (List.range uvSize).map (fun k =>
      clampByte (blockMean (blueOf rgb width) (2 * (k / uvWidth)) (2 * (k % uvWidth)))) ++
    (List.range uvSize).map (fun k =>
      clampByte (blockMean (redOf rgb width) (2 * (k / uvWidth)) (2 * (k % uvWidth))))

end Conversion

section Decode

def cliError (code : ErrorCode) (message : String) : Error := ⟨code, message, "cli"⟩

/-- The output file of the decode command with what it knows of the sequence. -/
structure FrameWriter where
  frameIndex : ℕ := 0
  sequenceWidth : UInt32 := 0
  sequenceHeight : UInt32 := 0
  output : Bytes := []
  deriving DecidableEq

/-- The bytes that stand for a frame in the output file. -/
def yuvOf (frame : Frame) : Bytes :=
  if frame.pixelFormat = .rgb24 then
    rgb24ToYuv420p8 frame.data frame.width.toNat frame.height.toNat
  else frame.data

/-- The first frame fixes the size of the sequence. -/
def checkDimensions (frame : Frame) : Action Error FrameWriter Unit := do
  let writer ← gets id
  if writer.frameIndex = 0 then do
    update fun writer =>
      { writer with sequenceWidth := frame.width, sequenceHeight := frame.height }
    lift (require (¬ (frame.width &&& 1 ≠ 0 ∨ frame.height &&& 1 ≠ 0))
      (cliError .invalidArgument "decoded dimensions are invalid for YUV420p8"))
  else
    lift (require (frame.width = writer.sequenceWidth ∧ frame.height = writer.sequenceHeight)
      (cliError .invalidArgument "raw YUV output does not support resolution changes"))

/-- Append a frame to the output file. There is no quality reference, and writing succeeds. -/
def emitFrame (frame : Frame) : Action Error FrameWriter Unit := do
  lift (require (frame.pixelFormat = .yuv420p8 ∨ frame.pixelFormat = .rgb24)
    (cliError .invalidArgument "decoder returned an unsupported pixel format"))
  checkDimensions frame
  update fun writer =>
    { writer with output := writer.output ++ yuvOf frame, frameIndex := writer.frameIndex + 1 }

/-- Why the decode command fails. -/
inductive DecodeFailure where
  | reading (failure : ReadFailure)
  | driver (error : Error)
  | ended (frames requested : ℕ)

variable {σ : Type} (session : Session Error σ EncodedPacket Frame) (frames drainFuel : ℕ)

/-- How many frames may still be written. -/
def remaining (writer : FrameWriter) : Option ℕ :=
  if frames = 0 then none else some (frames - writer.frameIndex)

def unfinished (writer : FrameWriter) : Bool := frames = 0 || writer.frameIndex < frames

/-- What the command reports about the number of frames at its end. -/
def decodeVerdict (writer : FrameWriter) : Except DecodeFailure Unit :=
  if frames ≠ 0 ∧ writer.frameIndex < frames then .error (.ended writer.frameIndex frames)
  else .ok ()

/-- The flush behind the loop, unless all frames were written. -/
def decodeEnd (s : σ) (writer : FrameWriter) :
    Option (Except DecodeFailure Unit × σ × FrameWriter) :=
  if unfinished frames writer then
    match flushAndDrain session emitFrame drainFuel (remaining frames writer) s writer with
    | none => none
    | some (.error e, s', writer') => some (.error (.driver e), s', writer')
    | some (.ok _, s', writer') => some (decodeVerdict frames writer', s', writer')
  else some (.ok (), s, writer)

/-- The record at hand, or the next one of the file. -/
def takeRecord (held : Option Bytes) (input : Bytes) : RecordRead × Bytes :=
  match held with
  | some wire => (.record wire, input)
  | none => readRecord input

/-- The loop of the decode command. -/
def decodeLoop : ℕ → ℕ → Option Bytes → Bytes → σ → FrameWriter →
    Option (Except DecodeFailure Unit × σ × FrameWriter)
  | 0, _, _, _, _, _ => none
  | fuel + 1, index, held, input, s, writer =>
      if unfinished frames writer then
        match takeRecord held input with
        | (.atEnd, _) => decodeEnd session frames drainFuel s writer
        | (.error, _) => some (.error (.reading (.malformedRecord index)), s, writer)
        | (.record wire, rest) =>
            match deserializePacket wire with
            | .error failure => some (.error (.reading failure), s, writer)
            | .ok packet =>
                match sendAndDrain session emitFrame drainFuel (remaining frames writer) packet s
                    writer with
                | none => none
                | some (.error e, s', writer') => some (.error (.driver e), s', writer')
                | some (.ok .outputLimit, s', writer') =>
                    decodeEnd session frames drainFuel s' writer'
                | some (.ok _, s', writer') => decodeLoop fuel (index + 1) none rest s' writer'
      else decodeEnd session frames drainFuel s writer

/-- The decode command from the records on: it reads the first one before the loop. -/
def decodeCommand (fuel : ℕ) (input : Bytes) (s : σ) :
    Option (Except DecodeFailure Unit × σ × FrameWriter) :=
  match readRecord input with
  | (.record wire, rest) =>
      match deserializePacket wire with
      | .error failure => some (.error (.reading failure), s, {})
      | .ok _ => decodeLoop session frames drainFuel fuel 0 (some wire) rest s {}
  | _ => some (.error (.reading .noCompleteRecord), s, {})

variable {session frames drainFuel}

/-- A written frame is counted. -/
theorem emitFrame_index {frame : Frame} {writer writer' : FrameWriter}
    (h : (emitFrame frame).run writer = (.ok (), writer')) :
    writer'.frameIndex = writer.frameIndex + 1 := by
  have hkeeps : Keeps FrameWriter.frameIndex (checkDimensions frame) := by
    refine .bind (.gets _) fun writer => ?_
    split
    · exact .bind (.update fun _ => rfl) fun _ => .lift _
    · exact .lift _
  rw [emitFrame] at h
  obtain ⟨_, w₁, hformat, h⟩ := run_bind_eq_ok.mp h
  obtain ⟨_, w₂, hsize, h⟩ := run_bind_eq_ok.mp h
  simp only [run_lift, Prod.mk.injEq] at hformat
  have hindex := hkeeps w₁
  rw [hsize] at hindex
  cases h
  rw [hformat.2]
  exact congrArg (· + 1) hindex

section Emitted

variable (frames)

/-- The frames that a limit leaves of a list. -/
def limited (writer : FrameWriter) (outputs : List Frame) : List Frame :=
  if frames = 0 then outputs else outputs.take (frames - writer.frameIndex)

/-- What the command is to do: write the frames that the limit leaves, and report. -/
def emitted (outputs : List Frame) (writer : FrameWriter) :
    Except DecodeFailure Unit × FrameWriter :=
  match (emitAll emitFrame (limited frames writer outputs)).run writer with
  | (.ok (), writer') => (decodeVerdict frames writer', writer')
  | (.error e, writer') => (.error (.driver e), writer')

end Emitted

theorem limited_append {writer writer' : FrameWriter} {chunk : List Frame}
    (hindex : writer'.frameIndex = writer.frameIndex + chunk.length)
    (hchunk : frames ≠ 0 → chunk.length ≤ frames - writer.frameIndex) (rest : List Frame) :
    limited frames writer (chunk ++ rest) = chunk ++ limited frames writer' rest := by
  unfold limited
  by_cases hframes : frames = 0
  · rw [if_pos hframes, if_pos hframes]
  · rw [if_neg hframes, if_neg hframes, List.take_append, List.take_of_length_le (hchunk hframes),
      hindex, Nat.sub_sub]

theorem chunk_le_of_remaining {writer : FrameWriter} {n : ℕ}
    (h : ∀ m, remaining frames writer = some m → n ≤ m) :
    frames ≠ 0 → n ≤ frames - writer.frameIndex := by
  intro hframes
  exact h _ (if_neg hframes)

/-- A chunk that was written leaves the rest to do. -/
theorem emitted_append_ok {writer writer' : FrameWriter} {chunk : List Frame}
    (h : (emitAll emitFrame chunk).run writer = (.ok (), writer'))
    (hchunk : frames ≠ 0 → chunk.length ≤ frames - writer.frameIndex) (rest : List Frame) :
    emitted frames (chunk ++ rest) writer = emitted frames rest writer' := by
  have hindex := emitAll_count (fun _ _ _ => emitFrame_index) h
  rw [emitted, limited_append hindex hchunk, emitAll_append, h, emitted]

/-- A chunk whose writing fails decides the command. -/
theorem emitted_append_error {writer writer' : FrameWriter} {chunk : List Frame} {e : Error}
    (h : (emitAll emitFrame chunk).run writer = (.error e, writer'))
    (hchunk : frames ≠ 0 → chunk.length ≤ frames - writer.frameIndex) (rest : List Frame) :
    emitted frames (chunk ++ rest) writer = (.error (.driver e), writer') := by
  have hlimited : limited frames writer (chunk ++ rest) = chunk ++ limited frames
      { writer with frameIndex := writer.frameIndex + chunk.length } rest :=
    limited_append rfl hchunk rest
  rw [emitted, hlimited, emitAll_append, h]

/-- Nothing is left to do when the requested frames are written. -/
theorem emitted_of_finished {writer : FrameWriter} (h : unfinished frames writer = false)
    (outputs : List Frame) : emitted frames outputs writer = (.ok (), writer) := by
  simp only [unfinished, Bool.or_eq_false_iff, decide_eq_false_iff_not, not_lt] at h
  obtain ⟨hframes, hindex⟩ := h
  rw [emitted, limited, if_neg hframes, Nat.sub_eq_zero_of_le hindex, List.take_zero]
  simp only [emitAll_nil, run_pure, decodeVerdict]
  rw [if_neg (by omega)]

theorem emitted_nil (writer : FrameWriter) :
    emitted frames [] writer = (decodeVerdict frames writer, writer) := by
  have hnil : limited frames writer [] = [] := by
    unfold limited
    split
    · rfl
    · exact List.take_nil
  rw [emitted, hnil]
  rfl

theorem decodeVerdict_of_finished {writer : FrameWriter} (h : unfinished frames writer = false) :
    decodeVerdict frames writer = .ok () := by
  simp only [unfinished, Bool.or_eq_false_iff, decide_eq_false_iff_not, not_lt] at h
  rw [decodeVerdict, if_neg (by omega)]

section Limits

variable {writer writer' : FrameWriter} {n : ℕ}

theorem chunk_le_of_limit (h : remaining frames writer = some (0 + n)) :
    frames ≠ 0 → n ≤ frames - writer.frameIndex := by
  intro hframes
  rw [remaining, if_neg hframes, Option.some.injEq] at h
  omega

theorem chunk_le_of_below (h : belowLimit (0 + n) (remaining frames writer) = true) :
    frames ≠ 0 → n ≤ frames - writer.frameIndex := by
  intro hframes
  rw [remaining, if_neg hframes] at h
  simp only [belowLimit, decide_eq_true_eq] at h
  omega

/-- Where the limit is reached, the requested frames are written. -/
theorem unfinished_of_limit (h : remaining frames writer = some (0 + n))
    (hindex : writer'.frameIndex = writer.frameIndex + n) : unfinished frames writer' = false := by
  unfold remaining at h
  split at h
  · cases h
  · rename_i hframes
    rw [Option.some.injEq] at h
    simp only [unfinished, Bool.or_eq_false_iff, decide_eq_false_iff_not, not_lt]
    exact ⟨hframes, by omega⟩

end Limits

variable {At : List EncodedPacket → List Frame → Bool → σ → Prop}

/-- The end of the loop does what is left to do. -/
theorem decodeEnd_emitted (hobeys : Obeys session Wants Ended At) {outputs : List Frame} {s : σ}
    (hat : At [] outputs false s) (hdrain : outputs.length < drainFuel) (writer : FrameWriter) :
    ∃ s', decodeEnd session frames drainFuel s writer =
      some ((emitted frames outputs writer).1, s', (emitted frames outputs writer).2) := by
  rw [decodeEnd]
  cases hunfinished : unfinished frames writer with
  | false =>
      rw [emitted_of_finished hunfinished]
      exact ⟨s, rfl⟩
  | true =>
      have hdrained : Drained (fun rest => At [] rest true) outputs (remaining frames writer) 0 true
          writer emitFrame
          (flushAndDrain session emitFrame drainFuel (remaining frames writer) s writer) :=
        flushAndDrain_drained hobeys hat hdrain _ writer
      simp only [if_true]
      generalize flushAndDrain session emitFrame drainFuel (remaining frames writer) s writer =
        result at hdrained ⊢
      cases hdrained with
      | @limited chunk rest s' writer' houtputs hemitted hlimit _ =>
          have hindex := emitAll_count (fun _ _ _ => emitFrame_index) hemitted
          have hfinished := unfinished_of_limit hlimit hindex
          rw [houtputs, emitted_append_ok hemitted (chunk_le_of_limit hlimit),
            emitted_of_finished hfinished]
          refine ⟨s', ?_⟩
          simp only [decodeVerdict_of_finished hfinished]
      | @ready chunk rest s' writer' state houtputs hemitted hbelow _ hrest _ =>
          rw [hrest rfl, List.append_nil] at houtputs
          rw [← List.append_nil chunk] at houtputs
          rw [houtputs, emitted_append_ok hemitted (chunk_le_of_below hbelow), emitted_nil]
          exact ⟨s', rfl⟩
      | @failed chunk rest e s' writer' houtputs hemitted hlimit =>
          have hchunk : ∀ m, remaining frames writer = some m → chunk.length ≤ m := by
            intro m hm
            have hle := hlimit m hm
            omega
          rw [houtputs, emitted_append_error hemitted (chunk_le_of_remaining hchunk)]
          exact ⟨s', rfl⟩

theorem decodeEnd_of_finished {writer : FrameWriter} (h : unfinished frames writer = false) (s : σ) :
    decodeEnd session frames drainFuel s writer = some (.ok (), s, writer) := by
  simp only [decodeEnd, h, Bool.false_eq_true, if_false]

/-- A record file that holds packets, from a record at hand on. -/
def Upcoming : Option Bytes → Bytes → List EncodedPacket → Prop
  | held, input, [] => held = none ∧ (readRecord input).1 = .atEnd
  | held, input, packet :: packets => ∃ wire rest,
      takeRecord held input = (.record wire, rest) ∧ deserializePacket wire = .ok packet ∧
      Upcoming none rest packets

/-- The loop writes the frames that the limit leaves and reports. -/
theorem decodeLoop_emitted (hobeys : Obeys session Wants Ended At) {packets : List EncodedPacket}
    {outputs : List Frame} {s : σ} (hat : At packets outputs false s) {held : Option Bytes}
    {input : Bytes} (hrecords : Upcoming held input packets) {fuel : ℕ}
    (hfuel : packets.length < fuel) (hdrain : outputs.length < drainFuel) (index : ℕ)
    (writer : FrameWriter) :
    ∃ s', decodeLoop session frames drainFuel fuel index held input s writer =
      some ((emitted frames outputs writer).1, s', (emitted frames outputs writer).2) := by
  induction packets generalizing outputs s held input fuel index writer with
  | nil =>
      cases fuel with
      | zero => omega
      | succ fuel =>
          obtain ⟨rfl, hend⟩ := hrecords
          rcases hread : readRecord input with ⟨read, rest⟩
          rw [hread] at hend
          simp only at hend
          subst hend
          simp only [decodeLoop, takeRecord, hread, ite_self]
          exact decodeEnd_emitted hobeys hat hdrain writer
  | cons packet packets ih =>
      cases fuel with
      | zero => omega
      | succ fuel =>
          obtain ⟨wire, next, hread, hpacket, hnext⟩ := hrecords
          rw [decodeLoop]
          cases hunfinished : unfinished frames writer with
          | false =>
              rw [emitted_of_finished hunfinished]
              exact ⟨s, decodeEnd_of_finished hunfinished s⟩
          | true =>
              have hdrained : Drained (fun rest => At packets rest false) outputs
                  (remaining frames writer) 0 false writer emitFrame
                  (sendAndDrain session emitFrame drainFuel (remaining frames writer) packet s
                    writer) :=
                sendAndDrain_drained hobeys hat hdrain _ writer
              simp only [if_true, hread, hpacket]
              generalize sendAndDrain session emitFrame drainFuel (remaining frames writer) packet s
                writer = result at hdrained ⊢
              cases hdrained with
              | @limited chunk rest s' writer' houtputs hemitted hlimit _ =>
                  have hindex := emitAll_count (fun _ _ _ => emitFrame_index) hemitted
                  have hfinished := unfinished_of_limit hlimit hindex
                  rw [houtputs, emitted_append_ok hemitted (chunk_le_of_limit hlimit),
                    emitted_of_finished hfinished]
                  exact ⟨s', decodeEnd_of_finished hfinished s'⟩
              | @ready chunk rest s' writer' state houtputs hemitted hbelow hstate _ hlater =>
                  have hlater := ih hlater hnext (Nat.lt_of_succ_lt_succ hfuel)
                    (lt_of_le_of_lt (by simp [houtputs]) hdrain) (index + 1) writer'
                  rw [houtputs, emitted_append_ok hemitted (chunk_le_of_below hbelow)]
                  cases state with
                  | outputLimit => exact absurd rfl hstate
                  | needsInput => exact hlater
                  | endOfStream => exact hlater
              | @failed chunk rest e s' writer' houtputs hemitted hlimit =>
                  have hchunk : ∀ m, remaining frames writer = some m → chunk.length ≤ m := by
                    intro m hm
                    have hle := hlimit m hm
                    omega
                  rw [houtputs, emitted_append_error hemitted (chunk_le_of_remaining hchunk)]
                  exact ⟨s', rfl⟩

/-- A frame that the command can write: it has the size of the sequence and a known format. -/
structure Writable (width height : UInt32) (frame : Frame) : Prop where
  width : frame.width = width
  height : frame.height = height
  format : frame.pixelFormat = .yuv420p8 ∨ frame.pixelFormat = .rgb24

theorem and_one_of_even {n : UInt32} (h : n.toNat % 2 = 0) : n &&& 1 = 0 := by
  apply UInt32.toNat_inj.mp
  rw [UInt32.toNat_and, show (1 : UInt32).toNat = 1 from rfl, Nat.and_one_is_mod, h]
  rfl

theorem emitFrame_of_writable {width height : UInt32} (hwidth : width.toNat % 2 = 0)
    (hheight : height.toNat % 2 = 0) {frame : Frame} (h : Writable width height frame)
    {writer : FrameWriter} (hsize : writer.frameIndex ≠ 0 →
      writer.sequenceWidth = width ∧ writer.sequenceHeight = height) :
    (emitFrame frame).run writer = (.ok (), {
      frameIndex := writer.frameIndex + 1
      sequenceWidth := width
      sequenceHeight := height
      output := writer.output ++ yuvOf frame }) := by
  simp only [emitFrame, checkDimensions, run_bind, run_lift, run_gets, run_update, id, require,
    if_pos h.format]
  by_cases hfirst : writer.frameIndex = 0
  · have heven : ¬ (width &&& 1 ≠ 0 ∨ height &&& 1 ≠ 0) := by
      rw [and_one_of_even hwidth, and_one_of_even hheight]
      simp
    simp only [if_pos hfirst, run_bind, run_update, run_lift, h.width, h.height, if_pos heven]
  · obtain ⟨hw, hh⟩ := hsize hfirst
    have hsame : frame.width = width ∧ frame.height = height := ⟨h.width, h.height⟩
    simp only [if_neg hfirst, run_lift, hw, hh, if_pos hsame]

/-- Frames of one even size are all written, one after the other. -/
theorem emitAll_of_writable {width height : UInt32} (hwidth : width.toNat % 2 = 0)
    (hheight : height.toNat % 2 = 0) {outputs : List Frame}
    (h : ∀ frame ∈ outputs, Writable width height frame) (writer : FrameWriter)
    (hsize : writer.frameIndex ≠ 0 →
      writer.sequenceWidth = width ∧ writer.sequenceHeight = height) :
    ∃ writer', (emitAll emitFrame outputs).run writer = (.ok (), writer') ∧
      writer'.output = writer.output ++ outputs.flatMap yuvOf := by
  induction outputs generalizing writer with
  | nil => exact ⟨writer, rfl, (List.append_nil _).symm⟩
  | cons frame outputs ih =>
      have hframe := emitFrame_of_writable hwidth hheight (h frame List.mem_cons_self) hsize
      obtain ⟨writer', hrest, houtput⟩ := ih
        (fun later hlater => h later (List.mem_cons_of_mem frame hlater))
        ⟨writer.frameIndex + 1, width, height, writer.output ++ yuvOf frame⟩
        (fun _ => ⟨rfl, rfl⟩)
      refine ⟨writer', ?_, ?_⟩
      · rw [emitAll_cons, hframe]
        exact hrest
      · rw [houtput, List.flatMap_cons, List.append_assoc]

/-- The command ends; its output file holds all of the frames, or the first of them up to the limit,
each once and in order; and it succeeds if there are enough of them. -/
def WritesFrames (frames : ℕ) (outputs : List Frame)
    (result : Option (Except DecodeFailure Unit × σ × FrameWriter)) : Prop :=
  ∃ verdict s' writer, result = some (verdict, s', writer) ∧
    writer.output = (if frames = 0 then outputs
      else outputs.take (min frames outputs.length)).flatMap yuvOf ∧
    (verdict = .ok () ↔ frames = 0 ∨ frames ≤ outputs.length)

theorem decodeCommand_writes (hobeys : Obeys session Wants Ended At)
    {packets : List EncodedPacket} (hne : packets ≠ []) {outputs : List Frame} {s : σ}
    (hat : At packets outputs false s) {input : Bytes} (hrecords : Upcoming none input packets)
    {width height : UInt32} (hwidth : width.toNat % 2 = 0) (hheight : height.toNat % 2 = 0)
    (houtputs : ∀ frame ∈ outputs, Writable width height frame) {fuel : ℕ}
    (hfuel : packets.length < fuel) (hdrain : outputs.length < drainFuel) :
    WritesFrames frames outputs (decodeCommand session frames drainFuel fuel input s) := by
  cases packets with
  | nil => exact absurd rfl hne
  | cons packet packets =>
      obtain ⟨wire, rest, hread, hpacket, hnext⟩ := hrecords
      have hheld : Upcoming (some wire) rest (packet :: packets) :=
        ⟨wire, rest, rfl, hpacket, hnext⟩
      obtain ⟨s', hloop⟩ := decodeLoop_emitted hobeys hat hheld hfuel hdrain 0 {}
      have hlimited : limited frames {} outputs = if frames = 0 then outputs
          else outputs.take (min frames outputs.length) := by
        unfold limited
        split
        · rfl
        · rw [Nat.sub_zero, ← List.take_take, List.take_length]
      have hwritten : ∀ frame ∈ limited frames {} outputs, Writable width height frame := by
        intro frame hframe
        refine houtputs frame ?_
        unfold limited at hframe
        split at hframe
        · exact hframe
        · exact List.mem_of_mem_take hframe
      obtain ⟨writer, hemit, houtput⟩ := emitAll_of_writable hwidth hheight hwritten {}
        (fun hnever => absurd rfl hnever)
      have hindex := emitAll_count (fun _ _ _ => emitFrame_index) hemit
      have hresult : emitted frames outputs {} = (decodeVerdict frames writer, writer) := by
        rw [emitted, hemit]
      rw [hresult] at hloop
      refine ⟨decodeVerdict frames writer, s', writer, ?_, ?_, ?_⟩
      · simp only [takeRecord] at hread
        simp only [decodeCommand, hread, hpacket]
        exact hloop
      · rw [houtput, hlimited]
        rfl
      · rw [hlimited] at hindex
        simp only [decodeVerdict]
        by_cases hframes : frames = 0
        · simp [hframes]
        · simp only [if_neg hframes, List.length_take, Nat.zero_add] at hindex
          by_cases henough : frames ≤ outputs.length
          · rw [if_neg (by omega)]
            simp [henough]
          · rw [if_pos (by omega)]
            simp [henough, hframes]

end Decode

end Nvcr.Cli
