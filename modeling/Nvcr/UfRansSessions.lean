import Nvcr.UfRansFraming

/-!
# Whole DCVC-UF entropy sessions

A session chooses its number of sub-coders, registers its tables, takes any number of y and z
calls, and finishes a stream; a second session with the same setup reads the calls back, the last
one first.
-/

namespace Nvcr.Uf

open StatefulResults UfRansCoder

/-- An encode call; the decode call for it gets the same group and rows. -/
inductive UfRansCall where
  | y (symbols : List Int16) (cdfGroup : ℕ)
  | z (symbols : List Int8) (cdfGroup cdfOffset channelCount : ℕ)
  deriving DecidableEq, Repr

namespace UfRansCall

def symbols : UfRansCall → List Int8
  | .y symbols _ => symbols.map UfRansCodec.packedSymbol
  | .z symbols _ _ _ => symbols

def coded : UfRansCall → List UfCodedSymbol
  | .y symbols _ => UfRansCodec.codedY symbols
  | .z symbols _ cdfOffset channelCount => UfRansCodec.codedZ cdfOffset channelCount symbols

theorem coded_length (call : UfRansCall) : call.coded.length = call.symbols.length := by
  cases call with
  | y symbols cdfGroup => simp [coded, UfRansCall.symbols, UfRansCodec.codedY]
  | z symbols cdfGroup cdfOffset channelCount =>
      simp [coded, UfRansCall.symbols, UfRansCodec.codedZ]

end UfRansCall

namespace UfRansCodec

variable {R : UfRansCoder}

/-- What a session needs of a call. -/
def Accepts (codec : UfRansCodec R) : UfRansCall → Prop
  | .y symbols cdfGroup => codec.AcceptsY cdfGroup (symbols.map packedRow)
  | .z symbols cdfGroup cdfOffset channelCount =>
      codec.AcceptsZ cdfGroup cdfOffset channelCount symbols.length

theorem Accepts.congr {codec codec' : UfRansCodec R} (hsetup : SameSetup codec codec')
    {call : UfRansCall} (h : codec.Accepts call) : codec'.Accepts call := by
  cases call with
  | y symbols cdfGroup => exact AcceptsY.congr hsetup h
  | z symbols cdfGroup cdfOffset channelCount => exact AcceptsZ.congr hsetup h

theorem SameSetup.symm {codec codec' : UfRansCodec R} (h : SameSetup codec codec') :
    SameSetup codec' codec :=
  ⟨h.1.symm, h.2.symm⟩

theorem SameSetup.trans {codec codec' codec'' : UfRansCodec R} (h : SameSetup codec codec')
    (h' : SameSetup codec' codec'') : SameSetup codec codec'' :=
  ⟨h'.1.trans h.1, h'.2.trans h.2⟩

/-- A session with the decoders of all sub-streams delivers the batches, the last one first. -/
theorem delivers_subDecoders {codec reader : UfRansCodec R}
    {batches : List (List UfCodedSymbol)} (hR : R.LifoInverse codec.groups)
    (hpos : 0 < codec.parallel)
    (hvalid : ∀ batch ∈ batches, ∀ coded ∈ batch, coded.Valid codec.groups)
    (hsetup : SameSetup codec reader)
    (hdecoders : reader.decoders = (List.range reader.parallel).map
      (subDecoder R reader.parallel fun index =>
        R.flush codec.groups (pushes codec.parallel batches index)))
    (hstream : reader.streamSet = true) : reader.Delivers batches.reverse where
  streamSet := hstream
  positive := by
    rw [hsetup.2]
    exact hpos
  decoders := by
    refine ⟨_, hdecoders, ?_⟩
    intro index _
    have hsome : ∀ index, R.flush codec.groups (pushes codec.parallel batches index) ≠ [] := by
      intro index hnil
      have hlength := hR.flush_length (pushes codec.parallel batches index)
      rw [hnil] at hlength
      simp at hlength
    obtain ⟨tail, htail⟩ := subDecoder_eq (R := R) hsome
    rw [htail, hsetup.groups_eq, hsetup.2, ← reverse_pushes]
    exact hR.pops_flush _ tail (valid_of_mem_pushes hvalid)

/-- Every sub-coder gets its own bytes back from a finished stream. -/
theorem finishEncode_delivers {codec finished reader : UfRansCodec R} {stream : Bytes}
    {batches : List (List UfCodedSymbol)} (hR : R.LifoInverse codec.groups)
    (hpos : 0 < codec.parallel) (h : codec.Holds batches) (hne : batches.flatten ≠ [])
    (hok : codec.finishEncode = .ok (stream, finished)) (hsetup : SameSetup codec reader) :
    ∃ started, reader.setStream stream = .ok started ∧ started.Delivers batches.reverse ∧
      SameSetup reader started := by
  let bytes : ℕ → Bytes := fun index => R.flush codec.groups (pushes codec.parallel batches index)
  have hbytes : ∀ index, 4 ≤ (bytes index).length := fun index => hR.flush_length _
  have hstreams : codec.encoders.map (R.flush codec.groups) =
      (List.range codec.parallel).map bytes := by
    rw [h.encoders, List.map_map]
    rfl
  have hsymbols : codec.encoderHasSymbols = true := by
    rw [h.hasSymbols]
    exact decide_eq_true hne
  -- The sub-decoders of the reader are enough; which ones they are depends on the framing.
  suffices hstarted : reader.setStream stream = .ok { reader with
      decoders := (List.range reader.parallel).map (subDecoder R reader.parallel bytes)
      streamSet := true } from
    ⟨_, hstarted, delivers_subDecoders hR hpos h.validBatches hsetup rfl rfl, rfl, rfl⟩
  simp only [finishEncode, require, h.notFinished, hsymbols, Bool.false_eq_true, not_false_eq_true,
    if_true, ok_bind, not_true_eq_false, if_false, hstreams] at hok
  split at hok
  · rename_i hone
    cases hok
    have hdecoders : (List.range 1).map (subDecoder R 1 bytes) = [R.setStream (bytes 0)] := by
      simp [subDecoder, pairs]
    have hhead : ((List.range codec.parallel).map bytes).headD [] = bytes 0 := by
      rw [hone]
      rfl
    rw [hhead, hsetup.2, hone, hdecoders]
    simp only [setStream, require, if_pos (hbytes 0), ok_bind, hsetup.2, hone, if_true]
    rfl
  · rename_i hone
    obtain ⟨_, hsize, hpure⟩ := bind_eq_ok.mp hok
    cases hpure
    have hfits := require_eq_ok.mp hsize
    have hlong : ∀ group ∈ mergedGroups codec.parallel ((List.range codec.parallel).map bytes),
        4 ≤ group.length := by
      intro group hgroup
      rw [mergedGroups_map_range] at hgroup
      obtain ⟨pair, _, rfl⟩ := List.mem_map.mp hgroup
      exact (hbytes _).trans (length_le_mergePair _ _)
    by_cases htwo : codec.parallel = 2
    · have hmerged : headerBytes 2 (mergedGroups 2 ((List.range 2).map bytes)) ++
          ((mergedGroups 2 ((List.range 2).map bytes)).flatten ++
            tailStream 2 ((List.range 2).map bytes)) = mergePair (bytes 0) (bytes 1) := by
        rw [mergedGroups_map_range, tailStream_map_range bytes (by omega)]
        simp [headerBytes, offsetCount, pairs, hasTail]
      have hdecoders : (List.range 2).map (subDecoder R 2 bytes) =
          pairDecoders R (mergePair (bytes 0) (bytes 1)) := by
        simp [List.range_succ, subDecoder, pairs, pairDecoders]
      have hlength := (hbytes 0).trans (length_le_mergePair (bytes 0) (bytes 1))
      rw [hsetup.2, htwo, hmerged, hdecoders]
      simp only [setStream, require, if_pos hlength, ok_bind, hsetup.2, htwo,
        OfNat.ofNat_ne_one, if_false, if_true]
      rfl
    · have hthree : 3 ≤ reader.parallel := by
        rw [hsetup.2]
        omega
      rw [← hsetup.2] at hfits hlong ⊢
      have htail := tailStream_map_range bytes (show 0 < reader.parallel by omega)
      rw [setStream_framed hthree (by simp [mergedGroups]) hlong ?_ ?_ hfits,
        framed_decoders bytes (by omega)]
      · intro hodd
        rw [htail, if_pos hodd]
        exact hbytes _
      · intro heven
        rw [htail, heven]
        rfl

/-- Register tables one after the other. -/
def registerTables : UfRansCodec R → List UfRansCdfTable → Result (UfRansCodec R)
  | codec, [] => pure codec
  | codec, table :: tables => do
      let added ← codec.addCdf table
      registerTables added.2 tables

/-- A new session with its number of sub-coders and its tables. -/
def openSession (parallel : ℕ) (tables : List UfRansCdfTable) : Result (UfRansCodec R) := do
  let codec ← setEntropyCoderParallel {} parallel
  codec.registerTables tables

def encodeCall (codec : UfRansCodec R) : UfRansCall → Result (UfRansCodec R)
  | .y symbols cdfGroup => codec.encodeY symbols cdfGroup
  | .z symbols cdfGroup cdfOffset channelCount =>
      codec.encodeZ symbols cdfGroup cdfOffset channelCount

/-- The rows of the packed symbols, as the decoder gets them. -/
def rowIndexes (symbols : List Int16) : List UInt8 :=
  symbols.map fun packed => UInt8.ofNat (packedRow packed)

def decodeCall (codec : UfRansCodec R) : UfRansCall → Result (List Int8 × UfRansCodec R)
  | .y symbols cdfGroup => codec.decodeY (rowIndexes symbols) cdfGroup
  | .z symbols cdfGroup cdfOffset channelCount =>
      codec.decodeZ symbols.length cdfGroup cdfOffset channelCount

def encodeCalls : UfRansCodec R → List UfRansCall → Result (UfRansCodec R)
  | codec, [] => pure codec
  | codec, call :: calls => do
      let next ← codec.encodeCall call
      encodeCalls next calls

def decodeCalls : UfRansCodec R → List UfRansCall → Result (List (List Int8) × UfRansCodec R)
  | codec, [] => pure ([], codec)
  | codec, call :: calls => do
      let first ← codec.decodeCall call
      let later ← decodeCalls first.2 calls
      pure (first.1 :: later.1, later.2)

theorem rowIndexes_toNat (symbols : List Int16) :
    (rowIndexes symbols).map UInt8.toNat = symbols.map packedRow := by
  rw [rowIndexes, List.map_map]
  refine List.map_congr_left fun packed _ => ?_
  have hlt : packedRow packed < 256 := by
    unfold packedRow
    omega
  simp only [Function.comp_apply, UInt8.toNat_ofNat', Nat.mod_eq_of_lt hlt]

theorem registerTables_eq_ok {codec codec' : UfRansCodec R} {tables : List UfRansCdfTable}
    (h : codec.registerTables tables = .ok codec') :
    codec' = { codec with tables := codec.tables ++ tables } := by
  induction tables generalizing codec with
  | nil =>
      cases h
      simp
  | cons table tables ih =>
      obtain ⟨added, hadded, hlater⟩ := bind_eq_ok.mp h
      obtain ⟨_, _, hroom⟩ := bind_eq_ok.mp hadded
      obtain ⟨_, _, hadd⟩ := bind_eq_ok.mp hroom
      cases hadd
      rw [ih hlater]
      simp

/-- An opened session holds nothing. -/
theorem openSession_eq_ok {parallel : ℕ} {tables : List UfRansCdfTable} {codec : UfRansCodec R}
    (h : openSession parallel tables = .ok codec) : codec.Holds [] ∧ 0 < codec.parallel := by
  obtain ⟨sized, hsized, hregister⟩ := bind_eq_ok.mp h
  obtain ⟨_, hcount, hfresh⟩ := bind_eq_ok.mp hsized
  obtain ⟨_, _, hset⟩ := bind_eq_ok.mp hfresh
  cases hset
  rw [registerTables_eq_ok hregister]
  have hrange := require_eq_ok.mp hcount
  refine ⟨⟨?_, rfl, rfl, fun _ hmem => (nomatch hmem)⟩, ?_⟩
  · have hempty : pushes parallel [] = fun _ => [] := rfl
    simp only [makeCoders, hempty, List.map_const', List.length_range]
  · simp only [makeCoders]
    omega

theorem encodeCall_holds {codec codec' : UfRansCodec R} {batches : List (List UfCodedSymbol)}
    {call : UfRansCall} (h : codec.Holds batches) (hok : codec.encodeCall call = .ok codec') :
    codec'.Holds (batches ++ [call.coded]) ∧ SameSetup codec codec' ∧ codec.Accepts call := by
  cases call with
  | y symbols cdfGroup => exact encodeY_holds h hok
  | z symbols cdfGroup cdfOffset channelCount => exact encodeZ_holds h hok

/-- After a run of accepted calls the sub-encoders hold the batches of all of them. -/
theorem encodeCalls_holds {codec codec' : UfRansCodec R} {batches : List (List UfCodedSymbol)}
    {calls : List UfRansCall} (h : codec.Holds batches)
    (hok : codec.encodeCalls calls = .ok codec') :
    codec'.Holds (batches ++ calls.map UfRansCall.coded) ∧ SameSetup codec codec' ∧
      ∀ call ∈ calls, codec.Accepts call := by
  induction calls generalizing codec batches with
  | nil =>
      cases hok
      exact ⟨by simpa using h, ⟨rfl, rfl⟩, fun _ hmem => (nomatch hmem)⟩
  | cons call calls ih =>
      obtain ⟨next, hnext, hlater⟩ := bind_eq_ok.mp hok
      obtain ⟨hholds, hsetup, haccepted⟩ := encodeCall_holds h hnext
      obtain ⟨hall, hsetup', hrest⟩ := ih hholds hlater
      refine ⟨by simpa using hall, hsetup.trans hsetup', ?_⟩
      intro other hother
      rcases List.mem_cons.mp hother with rfl | hmem
      · exact haccepted
      · exact (hrest other hmem).congr hsetup.symm

theorem decodeCall_delivers {codec : UfRansCodec R} {batches : List (List UfCodedSymbol)}
    {call : UfRansCall} (h : codec.Delivers (call.coded :: batches))
    (haccepted : codec.Accepts call) :
    ∃ codec', codec.decodeCall call = .ok (call.symbols, codec') ∧ codec'.Delivers batches ∧
      SameSetup codec codec' := by
  cases call with
  | y symbols cdfGroup => exact decodeY_delivers h (rowIndexes_toNat symbols) haccepted
  | z symbols cdfGroup cdfOffset channelCount => exact decodeZ_delivers h haccepted

/-- A session that delivers the batches of some calls answers those calls with their symbols. -/
theorem decodeCalls_delivers {codec : UfRansCodec R} {calls : List UfRansCall}
    (h : codec.Delivers (calls.map UfRansCall.coded))
    (haccepted : ∀ call ∈ calls, codec.Accepts call) :
    ∃ codec', codec.decodeCalls calls = .ok (calls.map UfRansCall.symbols, codec') := by
  induction calls generalizing codec with
  | nil => exact ⟨codec, rfl⟩
  | cons call calls ih =>
      obtain ⟨hfirst, hrest⟩ := List.forall_mem_cons.mp haccepted
      obtain ⟨next, hnext, hdelivers, hsetup⟩ := decodeCall_delivers h hfirst
      obtain ⟨last, hlast⟩ := ih hdelivers fun other hother => (hrest other hother).congr hsetup
      refine ⟨last, ?_⟩
      rw [decodeCalls, hnext, ok_bind, hlast]
      rfl

/-- A session with the given setup reads a stream back into the symbols of the calls, the last
call first. -/
def ReadsBack (R : UfRansCoder) (parallel : ℕ) (tables : List UfRansCdfTable) (stream : Bytes)
    (calls : List UfRansCall) : Prop :=
  ∃ reader started last,
    (openSession parallel tables : Result (UfRansCodec R)) = .ok reader ∧
    reader.setStream stream = .ok started ∧
    started.decodeCalls calls.reverse = .ok (calls.reverse.map UfRansCall.symbols, last)

/-- For every number of sub-coders and all accepted tables, a finished stream of accepted calls
with a symbol is decoded, in the reverse order of the calls, to the symbols that were encoded. -/
theorem uf_session_round_trip {parallel : ℕ} {tables : List UfRansCdfTable}
    {writer written finished : UfRansCodec R} {calls : List UfRansCall} {stream : Bytes}
    (hR : R.LifoInverse writer.groups) (hopen : openSession parallel tables = .ok writer)
    (hencoded : writer.encodeCalls calls = .ok written)
    (hfinished : written.finishEncode = .ok (stream, finished))
    (hsymbols : ∃ call ∈ calls, call.symbols ≠ []) : ReadsBack R parallel tables stream calls := by
  obtain ⟨hholds, hpos⟩ := openSession_eq_ok hopen
  obtain ⟨hall, hsetup, haccepted⟩ := encodeCalls_holds hholds hencoded
  rw [List.nil_append] at hall
  have hne : (calls.map UfRansCall.coded).flatten ≠ [] := by
    obtain ⟨call, hcall, hsome⟩ := hsymbols
    intro hflat
    have hcoded := List.flatten_eq_nil_iff.mp hflat call.coded (List.mem_map_of_mem hcall)
    apply hsome
    rw [← List.length_eq_zero_iff, ← UfRansCall.coded_length, hcoded, List.length_nil]
  rw [← hsetup.groups_eq] at hR
  obtain ⟨started, hstarted, hdelivers, hsame⟩ :=
    finishEncode_delivers hR (by rw [hsetup.2]; exact hpos) hall hne hfinished hsetup.symm
  rw [← List.map_reverse] at hdelivers
  obtain ⟨last, hlast⟩ := decodeCalls_delivers hdelivers fun call hcall =>
    (haccepted call (List.mem_reverse.mp hcall)).congr hsame
  exact ⟨writer, started, last, hopen, hstarted, hlast⟩

end UfRansCodec

end Nvcr.Uf
