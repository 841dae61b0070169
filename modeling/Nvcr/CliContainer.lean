import Nvcr.AccessUnits
import Nvcr.PacketIo

/-!
# The packet container of the command line

The encode command writes a sequence header and then one record for each packet: the length of
its wire image and the image. The decode command reads records until the file ends.
-/

namespace Nvcr.Cli

open StatefulResults LittleEndian ByteWriter

/-- The bytes of "NVCS". -/
def sequenceMagic : Bytes := [78, 86, 67, 83]

def sequenceVersion : UInt16 := 1

def maximumRecordBytes : ℕ := 65 * 1024 * 1024

def sequenceHeader : Bytes := sequenceMagic ++ (writeU16 sequenceVersion ++ writeU16 0)

/-- The length field and the image of a packet on the wire. -/
def record (wire : Bytes) : Bytes := writeU64 (UInt64.ofNat wire.length) ++ wire

def emitPacket (packet : EncodedPacket) : Result Bytes := do
  let wire ← PacketIo.serialize packet
  pure (record wire)

/-- The records of a sequence of packets. -/
def emitPackets : List EncodedPacket → Result Bytes
  | [] => pure []
  | packet :: packets => do
      let first ← emitPacket packet
      let later ← emitPackets packets
      pure (first ++ later)

/-- The file the encode command writes. -/
def writeSequence (packets : List EncodedPacket) : Result Bytes := do
  let records ← emitPackets packets
  pure (sequenceHeader ++ records)

/-- Whether the file starts with a header, and what follows it. -/
def readSequenceHeader (input : Bytes) : Bool × Bytes :=
  if input.length < 8 then (false, [])
  else
    let magic := input.take 4
    let fields := (input.drop 4).take 4
    let version := leValue (fields.take 2)
    let flags := leValue (fields.drop 2)
    (decide (magic = sequenceMagic ∧ version = sequenceVersion.toNat ∧ flags = 0), input.drop 8)

inductive RecordRead where
  | record (bytes : Bytes)
  | atEnd
  | error
  deriving DecidableEq

/-- Read one record; what is left of the file is returned with it. -/
def readRecord : Bytes → RecordRead × Bytes
  | [] => (.atEnd, [])
  | first :: input =>
      if input.length < 7 then (.error, [])
      else
        let size := leValue (first :: input.take 7)
        let body := input.drop 7
        if size = 0 ∨ size > maximumRecordBytes then (.error, body)
        else if body.length < size then (.error, [])
        else (.record (body.take size), body.drop size)

/-- Why the decode command gives up on a file. -/
inductive ReadFailure where
  | sequenceHeader
  | noCompleteRecord
  | malformedRecord (index : ℕ)
  | packet (error : Error)

theorem readRecord_length {input wire rest : Bytes} (h : readRecord input = (.record wire, rest)) :
    rest.length < input.length := by
  cases input with
  | nil => cases h
  | cons first input =>
      simp only [readRecord] at h
      split at h
      · cases h
      · split at h
        · cases h
        · split at h
          · cases h
          · cases h
            simp only [List.length_drop, List.length_cons]
            omega

def deserializePacket (wire : Bytes) : Except ReadFailure EncodedPacket :=
  (PacketIo.deserialize wire PacketIo.defaultMaximumPacketBytes).mapError .packet

/-- The decode loop from a record that was read: its packet, and those of the records behind it
until the file ends. -/
def decodeRecords (index : ℕ) (wire input : Bytes) :
    Except ReadFailure (List EncodedPacket × Bytes) := do
  let packet ← deserializePacket wire
  match h : readRecord input with
  | (.atEnd, rest) => pure ([packet], rest)
  | (.error, _) => throw (.malformedRecord (index + 1))
  | (.record next, rest) =>
      have : rest.length < input.length := readRecord_length h
      let later ← decodeRecords (index + 1) next rest
      pure (packet :: later.1, later.2)
termination_by input.length

/-- The packets the decode command reads from a file, and what it leaves unread. -/
def readSequence (file : Bytes) : Except ReadFailure (List EncodedPacket × Bytes) :=
  match readSequenceHeader file with
  | (false, _) => .error .sequenceHeader
  | (true, input) =>
      match readRecord input with
      | (.record wire, rest) => do
          let _ ← deserializePacket wire
          decodeRecords 0 wire rest
      | _ => .error .noCompleteRecord

section Records

variable {wire rest : Bytes}

/-- What a record read does with a length field that is there in full. -/
theorem readRecord_of_length {input : Bytes} (h : 8 ≤ input.length) :
    readRecord input =
      if leValue (input.take 8) = 0 ∨ leValue (input.take 8) > maximumRecordBytes then
        (.error, input.drop 8)
      else if (input.drop 8).length < leValue (input.take 8) then (.error, [])
      else (.record ((input.drop 8).take (leValue (input.take 8))),
        (input.drop 8).drop (leValue (input.take 8))) := by
  cases input with
  | nil => cases h
  | cons first input =>
      have hlength : ¬ input.length < 7 := by
        simp only [List.length_cons] at h
        omega
      rw [readRecord, if_neg hlength]
      rfl

theorem readRecord_of_short {input : Bytes} (hne : input ≠ []) (h : input.length < 8) :
    readRecord input = (.error, []) := by
  cases input with
  | nil => exact absurd rfl hne
  | cons first input =>
      have hlength : input.length < 7 := by
        simp only [List.length_cons] at h
        omega
      rw [readRecord, if_pos hlength]

theorem record_length (wire : Bytes) : (record wire).length = 8 + wire.length := by
  simp [record]

theorem take_record (wire rest : Bytes) :
    (record wire ++ rest).take 8 = writeU64 (UInt64.ofNat wire.length) := by
  rw [record, List.append_assoc]
  exact List.take_left' (writeU64_length _)

theorem drop_record (wire rest : Bytes) : (record wire ++ rest).drop 8 = wire ++ rest := by
  rw [record, List.append_assoc]
  exact List.drop_left' (writeU64_length _)

theorem leValue_lengthField (h : wire.length < 2 ^ 64) :
    leValue (writeU64 (UInt64.ofNat wire.length)) = wire.length := by
  rw [writeU64, UInt64.toNat_ofNat', Nat.mod_eq_of_lt h, leValue_leBytes_of_lt (by omega)]

/-- A written record that is not too large is read back, and the read stops behind it. -/
theorem readRecord_record (hne : wire ≠ []) (h : wire.length ≤ maximumRecordBytes) :
    readRecord (record wire ++ rest) = (.record wire, rest) := by
  have hpos : wire.length ≠ 0 := fun hzero => hne (List.length_eq_zero_iff.mp hzero)
  have hlt : wire.length < 2 ^ 64 := lt_of_le_of_lt h (by decide)
  have hlong : 8 ≤ (record wire ++ rest).length := by
    rw [List.length_append, record_length]
    omega
  have hsize : ¬ (wire.length = 0 ∨ wire.length > maximumRecordBytes) := by omega
  have hbody : ¬ (wire ++ rest).length < wire.length := by
    rw [List.length_append]
    omega
  rw [readRecord_of_length hlong, take_record, drop_record, leValue_lengthField hlt, if_neg hsize,
    if_neg hbody, List.take_left, List.drop_left]

/-- A written record that is too large is rejected. -/
theorem readRecord_large (hlt : wire.length < 2 ^ 64) (h : maximumRecordBytes < wire.length) :
    readRecord (record wire ++ rest) = (.error, wire ++ rest) := by
  have hlong : 8 ≤ (record wire ++ rest).length := by
    rw [List.length_append, record_length]
    omega
  rw [readRecord_of_length hlong, take_record, drop_record, leValue_lengthField hlt,
    if_pos (.inr h)]

/-- A record that ends before its last byte is an error, not the end of the file. -/
theorem readRecord_truncated {cut : ℕ} (hlt : wire.length < 2 ^ 64) (hpos : 0 < cut)
    (hcut : cut < (record wire).length) :
    (readRecord ((record wire).take cut)).1 = .error := by
  have hlength : ((record wire).take cut).length = cut := List.length_take_of_le (by omega)
  rw [record_length] at hcut
  by_cases hshort : cut < 8
  · have hne : (record wire).take cut ≠ [] := by
      intro hnil
      rw [hnil, List.length_nil] at hlength
      omega
    rw [readRecord_of_short hne (by omega)]
  · have hfield : ((record wire).take cut).take 8 = writeU64 (UInt64.ofNat wire.length) := by
      rw [List.take_take, Nat.min_eq_left (by omega)]
      simpa using take_record wire []
    have hbody : (((record wire).take cut).drop 8).length < wire.length := by
      rw [List.length_drop, hlength]
      omega
    rw [readRecord_of_length (by omega), hfield, leValue_lengthField hlt, if_pos hbody]
    split <;> rfl

end Records

section Loop

variable {index : ℕ} {wire input rest : Bytes} {packet : EncodedPacket}

theorem decodeRecords_atEnd (hpacket : deserializePacket wire = .ok packet)
    (h : readRecord input = (.atEnd, rest)) :
    decodeRecords index wire input = .ok ([packet], rest) := by
  rw [decodeRecords, hpacket, ok_bind]
  split
  · rename_i heq
    rw [h] at heq
    cases heq
    rfl
  · rename_i heq
    rw [h] at heq
    cases heq
  · rename_i heq
    rw [h] at heq
    cases heq

theorem decodeRecords_error (hpacket : deserializePacket wire = .ok packet)
    (h : (readRecord input).1 = .error) :
    decodeRecords index wire input = .error (.malformedRecord (index + 1)) := by
  rw [decodeRecords, hpacket, ok_bind]
  split
  · rename_i heq
    rw [heq] at h
    cases h
  · rfl
  · rename_i heq
    rw [heq] at h
    cases h

theorem decodeRecords_record (hpacket : deserializePacket wire = .ok packet) {next : Bytes}
    (h : readRecord input = (.record next, rest)) :
    decodeRecords index wire input =
      (do
        let later ← decodeRecords (index + 1) next rest
        pure (packet :: later.1, later.2)) := by
  rw [decodeRecords, hpacket, ok_bind]
  split
  · rename_i heq
    rw [h] at heq
    cases heq
  · rename_i heq
    rw [h] at heq
    cases heq
  · rename_i heq
    rw [h] at heq
    cases heq
    rfl

theorem decodeRecords_rejected {failure : ReadFailure}
    (h : deserializePacket wire = .error failure) :
    decodeRecords index wire input = .error failure := by
  rw [decodeRecords, h]
  rfl

end Loop

section Sequences

variable {packet : EncodedPacket} {packets : List EncodedPacket} {wire records : Bytes}

theorem emitPackets_cons_eq_ok :
    emitPackets (packet :: packets) = .ok records ↔
      ∃ wire later, PacketIo.serialize packet = .ok wire ∧ emitPackets packets = .ok later ∧
        records = record wire ++ later := by
  simp only [emitPackets, emitPacket, bind_eq_ok]
  constructor
  · rintro ⟨_, ⟨wire, hwire, hfirst⟩, later, hlater, hrecords⟩
    cases hfirst
    cases hrecords
    exact ⟨wire, later, hwire, hlater, rfl⟩
  · rintro ⟨wire, later, hwire, hlater, rfl⟩
    exact ⟨_, ⟨wire, hwire, rfl⟩, later, hlater, rfl⟩

theorem emitPackets_append_eq_ok {before after : List EncodedPacket}
    (h : emitPackets (before ++ after) = .ok records) :
    ∃ first later, emitPackets before = .ok first ∧ emitPackets after = .ok later ∧
      records = first ++ later := by
  induction before generalizing records with
  | nil => exact ⟨[], records, rfl, h, rfl⟩
  | cons packet before ih =>
      obtain ⟨wire, middle, hwire, hmiddle, rfl⟩ := emitPackets_cons_eq_ok.mp h
      obtain ⟨first, later, hfirst, hlater, rfl⟩ := ih hmiddle
      exact ⟨record wire ++ first, later, emitPackets_cons_eq_ok.mpr ⟨wire, first, hwire, hfirst, rfl⟩,
        hlater, (List.append_assoc _ _ _).symm⟩

/-- The bytes of the records of a sequence. -/
def recordsSize (packets : List EncodedPacket) : ℕ :=
  (packets.map fun packet => 8 + PacketIo.wireSize packet).sum

theorem emitPackets_length (h : emitPackets packets = .ok records) :
    records.length = recordsSize packets := by
  induction packets generalizing records with
  | nil =>
      cases h
      rfl
  | cons packet packets ih =>
      obtain ⟨wire, later, hwire, hlater, rfl⟩ := emitPackets_cons_eq_ok.mp h
      rw [List.length_append, record_length, PacketIo.serialize_length hwire, ih hlater]
      simp [recordsSize]

theorem serialize_ne_nil (h : PacketIo.serialize packet = .ok wire) : wire ≠ [] := by
  intro hnil
  have hlength := PacketIo.serialize_length h
  rw [hnil, PacketIo.wireSize, List.length_nil] at hlength
  omega

/-- Whether the wire image of a packet passes the byte limit of the packet parser. -/
def Fits (packet : EncodedPacket) : Prop :=
  PacketIo.wireSize packet ≤ PacketIo.defaultMaximumPacketBytes

instance (packet : EncodedPacket) : Decidable (Fits packet) := inferInstanceAs (Decidable (_ ≤ _))

theorem deserializePacket_of_fits (h : PacketIo.serialize packet = .ok wire) (hfits : Fits packet) :
    deserializePacket wire = .ok packet := by
  have hlimit : wire.length ≤ PacketIo.defaultMaximumPacketBytes := by
    rw [PacketIo.serialize_length h]
    exact hfits
  rw [deserializePacket, PacketIo.deserialize_serialize h hlimit]
  rfl

theorem deserializePacket_of_not_fits (h : PacketIo.serialize packet = .ok wire)
    (hlarge : ¬ Fits packet) :
    deserializePacket wire =
      .error (.packet (PacketIo.exhausted "packet exceeds configured limit")) := by
  have hlimit : PacketIo.defaultMaximumPacketBytes < wire.length := by
    rw [PacketIo.serialize_length h]
    exact Nat.not_le.mp hlarge
  rw [deserializePacket, PacketIo.deserialize_of_large hlimit]
  rfl

/-- The record limit of the container does not reject what the packet parser admits. -/
theorem readRecord_of_fits {rest : Bytes} (h : PacketIo.serialize packet = .ok wire)
    (hfits : Fits packet) : readRecord (record wire ++ rest) = (.record wire, rest) := by
  refine readRecord_record (serialize_ne_nil h) ?_
  rw [PacketIo.serialize_length h]
  refine le_trans hfits ?_
  unfold PacketIo.defaultMaximumPacketBytes maximumRecordBytes
  omega

/-- A written record is read back or rejected. -/
theorem readRecord_written (rest : Bytes) (h : PacketIo.serialize packet = .ok wire) :
    readRecord (record wire ++ rest) = (.record wire, rest) ∨
      (readRecord (record wire ++ rest)).1 = .error := by
  by_cases hsize : wire.length ≤ maximumRecordBytes
  · exact .inl (readRecord_record (serialize_ne_nil h) hsize)
  · right
    rw [readRecord_large (PacketIo.serialize_length_lt h) (Nat.not_le.mp hsize)]

/-- The decode loop returns the packets that were written exactly when all of them fit. -/
theorem decodeRecords_eq_ok {index : ℕ} (hwire : PacketIo.serialize packet = .ok wire)
    (hrecords : emitPackets packets = .ok records) :
    decodeRecords index wire records = .ok (packet :: packets, []) ↔
      ∀ written ∈ packet :: packets, Fits written := by
  induction packets generalizing packet wire records index with
  | nil =>
      cases hrecords
      rw [List.forall_mem_singleton]
      by_cases hfits : Fits packet
      · rw [decodeRecords_atEnd (deserializePacket_of_fits hwire hfits) rfl]
        exact ⟨fun _ => hfits, fun _ => rfl⟩
      · rw [decodeRecords_rejected (deserializePacket_of_not_fits hwire hfits)]
        exact ⟨fun h => (nomatch h), fun h => absurd h hfits⟩
  | cons next packets ih =>
      obtain ⟨nextWire, later, hnext, hlater, rfl⟩ := emitPackets_cons_eq_ok.mp hrecords
      rw [List.forall_mem_cons]
      by_cases hfits : Fits packet
      · have hpacket := deserializePacket_of_fits hwire hfits
        rcases readRecord_written later hnext with hread | hread
        · have hloop : decodeRecords (index + 1) nextWire later = .ok (next :: packets, []) ↔
              ∀ written ∈ next :: packets, Fits written := ih hnext hlater
          rw [decodeRecords_record hpacket hread, ← hloop]
          constructor
          · intro h
            obtain ⟨⟨rest, left⟩, hrest, heq⟩ := bind_eq_ok.mp h
            cases heq
            exact ⟨hfits, hrest⟩
          · rintro ⟨-, h⟩
            rw [h]
            rfl
        · rw [decodeRecords_error hpacket hread]
          refine ⟨fun h => (nomatch h), fun h => ?_⟩
          have hnextFits : Fits next := h.2 next List.mem_cons_self
          rw [readRecord_of_fits hnext hnextFits] at hread
          cases hread
      · rw [decodeRecords_rejected (deserializePacket_of_not_fits hwire hfits)]
        exact ⟨fun h => (nomatch h), fun h => absurd h.1 hfits⟩

/-- The decode loop fails on a file that ends inside a record. -/
theorem decodeRecords_truncated {before : List EncodedPacket} {first last : Bytes} {index cut : ℕ}
    (hwire : PacketIo.serialize packet = .ok wire) (hbefore : emitPackets before = .ok first)
    (hlast : last.length < 2 ^ 64) (hpos : 0 < cut) (hcut : cut < (record last).length) :
    ∃ failure, decodeRecords index wire (first ++ (record last).take cut) = .error failure := by
  by_cases hfits : Fits packet
  · have hpacket := deserializePacket_of_fits hwire hfits
    induction before generalizing packet wire first index with
    | nil =>
        cases hbefore
        exact ⟨_, decodeRecords_error hpacket (readRecord_truncated hlast hpos hcut)⟩
    | cons next before ih =>
        obtain ⟨nextWire, later, hnext, hlater, rfl⟩ := emitPackets_cons_eq_ok.mp hbefore
        rw [List.append_assoc]
        rcases readRecord_written (later ++ (record last).take cut) hnext with hread | hread
        · rw [decodeRecords_record hpacket hread]
          by_cases hnextFits : Fits next
          · obtain ⟨failure, hfailure⟩ : ∃ failure, decodeRecords (index + 1) nextWire
                (later ++ (record last).take cut) = .error failure :=
              ih hnext hlater hnextFits (deserializePacket_of_fits hnext hnextFits)
            rw [hfailure]
            exact ⟨failure, rfl⟩
          · rw [decodeRecords_rejected (deserializePacket_of_not_fits hnext hnextFits)]
            exact ⟨_, rfl⟩
        · exact ⟨_, decodeRecords_error hpacket hread⟩
  · exact ⟨_, decodeRecords_rejected (deserializePacket_of_not_fits hwire hfits)⟩

theorem sequenceHeader_length : sequenceHeader.length = 8 := rfl

/-- The header of a file is recognised. -/
theorem readSequenceHeader_append (input : Bytes) :
    readSequenceHeader (sequenceHeader ++ input) = (true, input) := by
  have hlength : ¬ (sequenceHeader ++ input).length < 8 := by
    rw [List.length_append, sequenceHeader_length]
    omega
  rw [readSequenceHeader, if_neg hlength]
  rfl

theorem readSequence_of_record {input rest : Bytes} (hread : readRecord input = (.record wire, rest)) :
    readSequence (sequenceHeader ++ input) =
      (do
        let _ ← deserializePacket wire
        decodeRecords 0 wire rest) := by
  simp only [readSequence, readSequenceHeader_append, hread]

theorem readSequence_of_error {input : Bytes} (hread : (readRecord input).1 = .error) :
    readSequence (sequenceHeader ++ input) = .error .noCompleteRecord := by
  simp only [readSequence, readSequenceHeader_append]
  split
  · rename_i heq
    rw [heq] at hread
    cases hread
  · rfl

/-- The first packet is parsed twice, with the same outcome. -/
theorem deserializePacket_bind_decodeRecords (rest : Bytes) :
    (do
      let _ ← deserializePacket wire
      decodeRecords 0 wire rest) = decodeRecords 0 wire rest := by
  cases h : deserializePacket wire with
  | error failure =>
      rw [decodeRecords_rejected h]
      rfl
  | ok packet => rfl

/-- Whether a file cut to a number of bytes ends inside a record. -/
def InsideRecord (packets : List EncodedPacket) (cut : ℕ) : Prop :=
  ∃ before packet after, packets = before ++ packet :: after ∧
    sequenceHeader.length + recordsSize before < cut ∧
    cut < sequenceHeader.length + recordsSize (before ++ [packet])

theorem writeSequence_eq_ok {file : Bytes} :
    writeSequence packets = .ok file ↔
      ∃ records, emitPackets packets = .ok records ∧ file = sequenceHeader ++ records := by
  rw [writeSequence, bind_eq_ok]
  refine exists_congr fun records => and_congr_right fun _ => ?_
  exact ⟨fun h => (Except.ok.inj h).symm, fun h => by rw [h]; rfl⟩

/-- The file is read back exactly when all of its packets fit. -/
theorem readSequence_eq_ok {file : Bytes} (hne : packets ≠ [])
    (hfile : writeSequence packets = .ok file) :
    readSequence file = .ok (packets, []) ↔ ∀ packet ∈ packets, Fits packet := by
  obtain ⟨records, hrecords, rfl⟩ := writeSequence_eq_ok.mp hfile
  cases packets with
  | nil => exact absurd rfl hne
  | cons packet packets =>
      obtain ⟨wire, later, hwire, hlater, rfl⟩ := emitPackets_cons_eq_ok.mp hrecords
      rcases readRecord_written later hwire with hread | hread
      · rw [readSequence_of_record hread, deserializePacket_bind_decodeRecords]
        exact decodeRecords_eq_ok hwire hlater
      · rw [readSequence_of_error hread]
        refine ⟨fun h => (nomatch h), fun h => ?_⟩
        rw [readRecord_of_fits hwire (h packet List.mem_cons_self)] at hread
        cases hread

/-- A file that ends inside a record is rejected. -/
theorem readSequence_truncated {file : Bytes} {cut : ℕ} (hfile : writeSequence packets = .ok file)
    (hcut : InsideRecord packets cut) : ∃ failure, readSequence (file.take cut) = .error failure := by
  obtain ⟨records, hrecords, rfl⟩ := writeSequence_eq_ok.mp hfile
  obtain ⟨before, packet, after, rfl, hfrom, hto⟩ := hcut
  obtain ⟨first, behind, hbefore, hbehind, rfl⟩ := emitPackets_append_eq_ok hrecords
  obtain ⟨last, later, hlast, -, rfl⟩ := emitPackets_cons_eq_ok.mp hbehind
  have hfirst := emitPackets_length hbefore
  have hlastLength := PacketIo.serialize_length hlast
  have hlastLt := PacketIo.serialize_length_lt hlast
  have hsize : recordsSize (before ++ [packet]) =
      recordsSize before + (8 + PacketIo.wireSize packet) := by
    simp [recordsSize]
  obtain ⟨taken, rfl⟩ : ∃ taken, cut = (sequenceHeader ++ first).length + taken := by
    refine ⟨cut - (sequenceHeader ++ first).length, ?_⟩
    rw [List.length_append, hfirst]
    omega
  rw [List.length_append, hfirst] at hfrom hto
  have hpos : 0 < taken := by omega
  have hinside : taken < (record last).length := by
    rw [record_length]
    omega
  have hfile : (sequenceHeader ++ (first ++ (record last ++ later))).take
      ((sequenceHeader ++ first).length + taken) =
        sequenceHeader ++ (first ++ (record last).take taken) := by
    rw [← List.append_assoc, List.take_length_add_append,
      List.take_append_of_le_length (le_of_lt hinside), List.append_assoc]
  rw [hfile]
  cases before with
  | nil =>
      cases hbefore
      exact ⟨_, readSequence_of_error (readRecord_truncated hlastLt hpos hinside)⟩
  | cons start before =>
      obtain ⟨wire, middle, hwire, hmiddle, rfl⟩ := emitPackets_cons_eq_ok.mp hbefore
      rw [List.append_assoc]
      rcases readRecord_written (middle ++ (record last).take taken) hwire with hread | hread
      · rw [readSequence_of_record hread, deserializePacket_bind_decodeRecords]
        exact decodeRecords_truncated hwire hmiddle hlastLt hpos hinside
      · exact ⟨_, readSequence_of_error hread⟩

/-- The container round trips and reports every truncation inside a record, exactly when the wire
image of each packet is within the default limit of the packet parser. -/
theorem container_round_trip {file : Bytes} (hne : packets ≠ [])
    (hfile : writeSequence packets = .ok file) :
    (readSequence file = .ok (packets, []) ∧
      ∀ cut, InsideRecord packets cut →
        ∃ failure, readSequence (file.take cut) = .error failure) ↔
    ∀ packet ∈ packets, PacketIo.wireSize packet ≤ PacketIo.defaultMaximumPacketBytes := by
  rw [readSequence_eq_ok hne hfile]
  exact ⟨fun h => h.1, fun h => ⟨h, fun _ hcut => readSequence_truncated hfile hcut⟩⟩

end Sequences

/-- An intra access unit with the given payload. -/
def intraUnit (payload : Bytes) : AccessUnit where
  modelId := [109]
  width := 64
  height := 64
  qp := 0
  frameType := .intra
  resetState := true
  payload := payload

/-- The packet of an intra access unit, as a session hands it out. -/
def intraPacket (payload : Bytes) : EncodedPacket where
  data := AccessUnitIo.bytesV1 (intraUnit payload)
  timestamp := 0
  frameType := .intra

theorem intraUnit_valid {payload : Bytes} (h : payload ≠ []) :
    AccessUnitIo.ValidV1 (intraUnit payload) where
  modelId := by
    change AccessUnitIo.validModelId [109]
    decide
  dimensions := by
    change AccessUnitIo.DimensionsInRange 64 64
    decide
  qp := Nat.zero_le _
  resetState := rfl
  payload := h

theorem intraPacket_data_length (payload : Bytes) :
    (intraPacket payload).data.length = 33 + payload.length := by
  rw [intraPacket, AccessUnitIo.bytesV1_length]
  rfl

theorem intraPacket_wireSize (payload : Bytes) :
    PacketIo.wireSize (intraPacket payload) = 59 + payload.length := by
  have hmetadata : PacketIo.totalSize 0 (intraPacket payload).metadata.entries = 0 := rfl
  rw [PacketIo.wireSize, intraPacket_data_length, hmetadata]
  omega

theorem exists_writeSequence_intraPacket (payload : Bytes) (h : payload.length ≤ 2 ^ 32) :
    ∃ file, writeSequence [intraPacket payload] = .ok file := by
  have hsize : (intraPacket payload).data.length ≤
      2 ^ 64 - 1 - PacketIo.totalSize 0 (intraPacket payload).metadata.entries - 32 := by
    have hmetadata : PacketIo.totalSize 0 (intraPacket payload).metadata.entries = 0 := rfl
    rw [intraPacket_data_length, hmetadata]
    omega
  have hwritable : PacketIo.Writable 0 (intraPacket payload).metadata.entries := trivial
  have hwire := PacketIo.serialize_eq_ok.mpr ⟨Nat.zero_le _, hwritable, hsize, rfl⟩
  exact ⟨_, writeSequence_eq_ok.mpr ⟨_, emitPackets_cons_eq_ok.mpr ⟨_, [], hwire, rfl, rfl⟩, rfl⟩⟩

theorem container_round_trip_one_byte :
    ∃ file, writeSequence [intraPacket [0]] = .ok file ∧
      readSequence file = .ok ([intraPacket [0]], []) ∧
      ∀ cut, InsideRecord [intraPacket [0]] cut →
        ∃ failure, readSequence (file.take cut) = .error failure := by
  obtain ⟨file, hfile⟩ := exists_writeSequence_intraPacket [0] (by decide)
  refine ⟨file, hfile, (container_round_trip (List.cons_ne_nil _ _) hfile).mpr ?_⟩
  rw [List.forall_mem_singleton, intraPacket_wireSize]
  decide

/-- An access unit of exactly the default limit is within the encoder's limit, and its packet is
written and not read back. -/
theorem intraPacket_of_default_limit {payload : Bytes}
    (h : payload.length = PacketIo.defaultMaximumPacketBytes - 33) :
    AccessUnitIo.serialize (intraUnit payload) PacketIo.defaultMaximumPacketBytes =
        .ok (intraPacket payload).data ∧
      (intraPacket payload).data.length = PacketIo.defaultMaximumPacketBytes ∧
      ∃ file, writeSequence [intraPacket payload] = .ok file ∧
        readSequence file ≠ .ok ([intraPacket payload], []) := by
  have hlimit : PacketIo.defaultMaximumPacketBytes = 67108864 := rfl
  have hne : payload ≠ [] := by
    intro hnil
    rw [hnil, hlimit, List.length_nil] at h
    omega
  obtain ⟨file, hfile⟩ := exists_writeSequence_intraPacket payload (by omega)
  refine ⟨AccessUnitIo.serialize_eq_ok.mpr
    ⟨AccessUnitIo.validateV1Fields_eq_ok.mpr (intraUnit_valid hne), ⟨?_, ?_, ?_⟩, rfl⟩, ?_, file,
    hfile, ?_⟩
  · change 1 ≤ _
    omega
  · change payload.length ≤ _
    omega
  · change 32 + 1 + payload.length ≤ _
    omega
  · rw [intraPacket_data_length]
    omega
  · rw [ne_eq, readSequence_eq_ok (List.cons_ne_nil _ _) hfile, List.forall_mem_singleton, Fits,
      intraPacket_wireSize]
    omega

/-- A payload that fills an access unit up to the default limit. -/
def boundaryPayload : Bytes := List.replicate (PacketIo.defaultMaximumPacketBytes - 33) 0

theorem boundaryPayload_length :
    boundaryPayload.length = PacketIo.defaultMaximumPacketBytes - 33 := by
  rw [boundaryPayload, List.length_replicate]

theorem container_boundary_unit_rejected :
    AccessUnitIo.serialize (intraUnit boundaryPayload) PacketIo.defaultMaximumPacketBytes =
        .ok (intraPacket boundaryPayload).data ∧
      (intraPacket boundaryPayload).data.length = PacketIo.defaultMaximumPacketBytes ∧
      ∃ file, writeSequence [intraPacket boundaryPayload] = .ok file ∧
        readSequence file ≠ .ok ([intraPacket boundaryPayload], []) :=
  intraPacket_of_default_limit boundaryPayload_length

end Nvcr.Cli
