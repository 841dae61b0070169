import Nvcr.RtReferenceSizes

/-!
# What the DCVC-RT sessions guarantee across frames

The decoder session follows the encoder session over every sequence, and in every run its
predicted stages read the reconstruction of the frame that was committed last.
-/

namespace Nvcr.Rt.Sessions

open StatefulResults Codec HostOps TransitionRuns

variable {A : HostArithmetic} {R : RansCoder} {p : Provider A} {setup : BackendSetup A}
  {configuration : SessionConfiguration}

/-- Without provider faults, in exact arithmetic and with a first-in first-out entropy coder, the
decoder session follows the encoder session: it accepts every access unit of a successfully
encoded sequence, and after each frame it has read exactly the symbols that were encoded and
holds the reference frame and feature of the encoder. -/
theorem decoder_tracks_encoder (hA : A.Exact) (hR : R.FifoInverse) (hp : p.NoFaults)
    (frames : List Frame)
    (hencoded : AllAccepted setup configuration R (frames.map (Call.sendFrame p))) :
    let packets :=
      (encoderAfter p setup configuration frames : Sessions (HostBackend A R)).encoderOutputs
    packets.length = frames.length ∧
      AllAccepted setup configuration R (packets.map (Call.sendAccessUnit p)) ∧
      ∀ count,
        let encoder : Sessions (HostBackend A R) :=
          encoderAfter p setup configuration (frames.take count)
        let decoder : Sessions (HostBackend A R) :=
          decoderAfter p setup configuration (packets.take count)
        decoder.core.backend.activity.decoded = encoder.core.backend.activity.encoded ∧
        decoder.core.backend.decoderDpb.frame = encoder.core.backend.encoderDpb.frame ∧
        decoder.core.backend.decoderDpb.feature = encoder.core.backend.encoderDpb.feature := by
  obtain ⟨hlength, haccepted, -, -⟩ := run_lockstep hp hA hR frames hencoded
  refine ⟨hlength, haccepted, fun count => ?_⟩
  have hsplit := hencoded
  rw [← List.take_append_drop count frames, List.map_append, allAccepted_append] at hsplit
  obtain ⟨hearlier, hlater⟩ := hsplit
  obtain ⟨hlength', -, hlockstep, hsymbols⟩ := run_lockstep hp hA hR (frames.take count) hearlier
  obtain ⟨more, hmore⟩ := encoderOutputs_append (frames.drop count) hlater
  have hpackets : (encoderAfter p setup configuration frames :
      Sessions (HostBackend A R)).encoderOutputs.take count =
      (encoderAfter p setup configuration (frames.take count) :
        Sessions (HostBackend A R)).encoderOutputs := by
    rcases Nat.le_total count frames.length with hle | hle
    · have hrun : (encoderAfter p setup configuration frames : Sessions (HostBackend A R)) =
          final (step (hostBackend A R setup) configuration)
            (encoderAfter p setup configuration (frames.take count))
            ((frames.drop count).map (Call.sendFrame p)) := by
        rw [encoderAfter, encoderAfter, after, after, ← final_append, ← List.map_append,
          List.take_append_drop]
      rw [hrun]
      refine (congrArg (List.take count) hmore).trans (List.take_left' ?_)
      exact hlength'.trans (by simpa using hle)
    · rw [List.take_of_length_le (hlength.trans_le hle), List.take_of_length_le hle]
  simp only [hpackets]
  exact ⟨hsymbols, hlockstep.reference.frame, hlockstep.reference.feature⟩

/-- A pair of frames over exact arithmetic. -/
theorem pair_tracked :
    let packets := (encoderAfter (zeroProvider realArithmetic) (uniformSetup realArithmetic false)
      pairConfiguration [smallFrame, smallFrame] :
      Sessions (HostBackend realArithmetic (RansCoder.paddedCoder fun _ => 0))).encoderOutputs
    packets.length = 2 ∧
      AllAccepted (uniformSetup realArithmetic false) pairConfiguration
        (RansCoder.paddedCoder fun _ => 0)
        (packets.map (Call.sendAccessUnit (zeroProvider realArithmetic))) := by
  have h := decoder_tracks_encoder realArithmetic_exact (RansCoder.paddedCoder_fifoInverse _)
    (zeroProvider_noFaults _) _ (pair_accepted false)
  exact ⟨h.1, h.2.1⟩

/-- In every run of the two sessions, a predicted access unit reaches the decode stages only when
the decoder's buffer holds the reconstruction of the frame that was committed last. -/
theorem predicted_reads_committed_frame (calls : List (Call (Provider A))) (p : Provider A)
    (packet : Packet) (hpredicted : packet.frameType = .predicted)
    (hreaches : ReachesStages setup configuration
      (after setup configuration calls : Sessions (HostBackend A R)) p packet) :
    HoldsCommittedFrame (R := R) setup configuration calls := by
  obtain ⟨hreference, -, hindex, -⟩ := hreaches.matches hpredicted
  rcases referenceInvariant (R := R) calls hreference with hahead | hholds
  · rw [hindex] at hahead
    exact absurd hahead (frameIndex_ne_add_one _)
  · exact hholds

/-- A decoded predicted payload passed the checks before its stages. -/
theorem exists_decodesFrom {backend backend' : HostBackend A R} {payload : Bytes}
    {timestamp : Timestamp} {view : SequenceStateView} {decoded : CodecDecodeResult}
    (h : (HostBackend.decode setup p payload .predicted timestamp view).run backend =
      (.ok decoded, backend')) :
    ∃ info reference,
      FrameWork.DecodesFrom payload view backend.decoderDpb info reference := by
  rcases hrun : (FrameWork.decodePredicted p setup.predicted payload timestamp view).run
    ⟨⟨{}, backend.predictedRans⟩, backend.decoderDpb⟩ with ⟨outcome, t⟩
  rw [HostBackend.decode, HostBackend.runPredicted_run hrun] at h
  rcases FrameWork.decodePredicted_cases rfl hrun with
    ⟨-, -, -, fault, rfl⟩ | ⟨info, reference, hfrom, -⟩
  · cases h
  · exact ⟨info, reference, hfrom⟩

/-- An accepted predicted packet went through the stages. -/
theorem reachesStages_of_accepted (hp : p.NoFaults) {sessions : Sessions (HostBackend A R)}
    {packet : Packet} (hpredicted : packet.frameType = .predicted)
    (h : (step (hostBackend A R setup) configuration sessions (.sendAccessUnit p packet)).1 =
      .status (.ok ())) : ReachesStages setup configuration sessions p packet := by
  simp only [step, sendAccessUnit_run] at h
  cases hopen : sessions.decoderFlushed with
  | true =>
      rw [hopen] at h
      cases h
  | false =>
      have hdecode : ∃ frame core, (SessionCore.decode (hostBackend A R setup) configuration p
          packet).run sessions.core = (.ok frame, core) := by
        rcases hrun : (SessionCore.decode (hostBackend A R setup) configuration p packet).run
          sessions.core with ⟨e | frame, core⟩
        · rw [hopen, hrun] at h
          cases h
        · exact ⟨frame, core, rfl⟩
      obtain ⟨frame, core, hdecode⟩ := hdecode
      rw [SessionCore.decode_run] at hdecode
      cases hunit : SessionCore.packetAccessUnit configuration packet with
      | error e =>
          rw [hunit] at hdecode
          cases hdecode
      | ok unit =>
          simp only [hunit] at hdecode
          cases hvalid : (SessionCore.prepared unit sessions.core).decoderState.validatePacket
            packet.frameType with
          | error e =>
              rw [hvalid] at hdecode
              cases hdecode
          | ok u =>
              simp only [hvalid] at hdecode
              rcases hrun : ((hostBackend A R setup).decode p
                ((unit.map AccessUnit.payload).getD packet.data) packet.frameType packet.timestamp
                (SessionCore.prepared unit sessions.core).decoderState.view).run
                (SessionCore.prepared unit sessions.core).backend with ⟨e | decoded, backend⟩
              · rw [hrun] at hdecode
                cases hdecode
              · rw [hpredicted] at hrun
                obtain ⟨info, reference, hfrom⟩ := exists_decodesFrom hrun
                rw [(SessionCore.prepared_effect sessions.core unit).1] at hfrom
                change submissions setup configuration sessions (.sendAccessUnit p packet) ≠ []
                rw [sendAccessUnit_submissions hopen hunit hvalid, hpredicted]
                have hfrom' : FrameWork.DecodesFrom (SessionCore.packetPayload unit packet)
                    (SessionCore.prepared unit sessions.core).decoderState.view
                    sessions.withoutActivity.core.backend.decoderDpb info reference := hfrom
                obtain ⟨submission, hmem, -⟩ :=
                  HostBackend.decode_reaches hfrom' fun _ _ => hp _
                exact List.ne_nil_of_mem hmem

/-- The second of two packets over exact arithmetic reads the frame of the first. -/
theorem pair_reads_committed_frame :
    ∃ (calls : List (Call (Provider realArithmetic))) (packet : Packet),
      packet.frameType = .predicted ∧
      ReachesStages (uniformSetup realArithmetic false) pairConfiguration
        (after (uniformSetup realArithmetic false) pairConfiguration calls :
          Sessions (HostBackend realArithmetic (RansCoder.paddedCoder fun _ => 0)))
        (zeroProvider realArithmetic) packet ∧
      HoldsCommittedFrame (R := RansCoder.paddedCoder fun _ => 0)
        (uniformSetup realArithmetic false) pairConfiguration calls := by
  obtain ⟨-, -, htype⟩ := first_accepted
    (RansCoder.paddedCoder_fifoInverse fun _ => 0) false
    (paddedCoder_spendsAtMost _ fun _ => Nat.le_refl 1)
  have haccepted := pair_accepted false
  rw [List.map_cons, ← List.singleton_append, allAccepted_append] at haccepted
  obtain ⟨packet, core, hencode, hnext⟩ := sendFrame_eq_ok (haccepted.2 _ List.mem_cons_self)
  obtain ⟨frameType, encoded, backend, bytes, state, htype', -, -, -, rfl, -⟩ :=
    SessionCore.encode_eq_ok hencode
  obtain rfl : frameType = .predicted := Except.ok.inj (htype'.symm.trans htype)
  obtain ⟨-, hdecoded, -, -⟩ := run_lockstep (zeroProvider_noFaults _) realArithmetic_exact
    (RansCoder.paddedCoder_fifoInverse fun _ => 0) _ (pair_accepted false)
  have hlast : (encoderAfter (zeroProvider realArithmetic) (uniformSetup realArithmetic false)
      pairConfiguration [smallFrame, smallFrame] :
      Sessions (HostBackend realArithmetic (RansCoder.paddedCoder fun _ => 0))) =
      (step (hostBackend _ _ (uniformSetup realArithmetic false)) pairConfiguration
        (after (uniformSetup realArithmetic false) pairConfiguration
          [Call.sendFrame (zeroProvider realArithmetic) smallFrame])
        (.sendFrame (zeroProvider realArithmetic) smallFrame)).2 :=
    encoderAfter_append_singleton [smallFrame] smallFrame
  rw [hlast, hnext, List.map_append, List.map_singleton, allAccepted_append] at hdecoded
  have hreaches := reachesStages_of_accepted (zeroProvider_noFaults _) rfl
    (hdecoded.2 _ List.mem_cons_self)
  exact ⟨_, _, rfl, hreaches, predicted_reads_committed_frame _ _ _ rfl hreaches⟩

end Nvcr.Rt.Sessions
