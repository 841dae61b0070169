import Nvcr.ByteCursors

/-!
# NVCR packets

A packet on the wire is a fixed header, the metadata in key order, and the payload behind its
length. The metadata is an ordered map, so a reader that meets a key twice rejects the packet.
-/

namespace Nvcr

open StatefulResults

theorem noEntries_sorted :
    ([] : List (Bytes × Bytes)).Pairwise fun first second => first.1 < second.1 := List.Pairwise.nil

/-- Entries in the order of their keys; strings compare as sequences of unsigned bytes. -/
structure PacketMetadata where
  entries : List (Bytes × Bytes) := []
  sorted : entries.Pairwise fun first second => first.1 < second.1 := by exact noEntries_sorted

namespace PacketMetadata

/-- Insert an entry in key order unless the key is there. -/
def insertEntry (key value : Bytes) : List (Bytes × Bytes) → Option (List (Bytes × Bytes))
  | [] => some [(key, value)]
  | entry :: entries =>
      if key < entry.1 then some ((key, value) :: entry :: entries)
      else if key = entry.1 then none
      else (insertEntry key value entries).map (entry :: ·)

theorem mem_of_insertEntry {key value : Bytes} {entries inserted : List (Bytes × Bytes)}
    (h : insertEntry key value entries = some inserted) :
    ∀ entry ∈ inserted, entry = (key, value) ∨ entry ∈ entries := by
  induction entries generalizing inserted with
  | nil =>
      cases h
      simp
  | cons first entries ih =>
      rw [insertEntry] at h
      split at h
      · cases h
        simp
      · split at h
        · cases h
        · obtain ⟨later, hlater, rfl⟩ := Option.map_eq_some_iff.mp h
          intro entry hentry
          rcases List.mem_cons.mp hentry with rfl | hmem
          · exact .inr List.mem_cons_self
          · exact (ih hlater entry hmem).imp_right (List.mem_cons_of_mem first)

theorem insertEntry_sorted {key value : Bytes} {entries inserted : List (Bytes × Bytes)}
    (hsorted : entries.Pairwise fun first second => first.1 < second.1)
    (h : insertEntry key value entries = some inserted) :
    inserted.Pairwise fun first second => first.1 < second.1 := by
  induction entries generalizing inserted with
  | nil =>
      cases h
      exact List.pairwise_singleton _ _
  | cons first entries ih =>
      obtain ⟨hfirst, hlater⟩ := List.pairwise_cons.mp hsorted
      rw [insertEntry] at h
      split at h
      · rename_i hlt
        cases h
        refine List.pairwise_cons.mpr ⟨fun entry hentry => ?_, hsorted⟩
        rcases List.mem_cons.mp hentry with rfl | hmem
        · exact hlt
        · exact List.lt_trans hlt (hfirst entry hmem)
      · split at h
        · cases h
        · rename_i hnot hne
          obtain ⟨later, hinsert, rfl⟩ := Option.map_eq_some_iff.mp h
          refine List.pairwise_cons.mpr ⟨fun entry hentry => ?_, ih hlater hinsert⟩
          rcases mem_of_insertEntry hinsert entry hentry with rfl | hmem
          · exact Std.lt_of_le_of_ne (List.not_lt.mp hnot) (Ne.symm hne)
          · exact hfirst entry hmem

/-- A key behind all others is inserted at the end. -/
theorem insertEntry_append {key value : Bytes} {entries : List (Bytes × Bytes)}
    (h : ∀ entry ∈ entries, entry.1 < key) :
    insertEntry key value entries = some (entries ++ [(key, value)]) := by
  induction entries with
  | nil => rfl
  | cons first entries ih =>
      obtain ⟨hfirst, hlater⟩ := List.forall_mem_cons.mp h
      have hnot : ¬ key < first.1 := fun hlt => List.lt_irrefl key (List.lt_trans hlt hfirst)
      have hne : key ≠ first.1 := fun heq => List.lt_irrefl key (heq ▸ hfirst)
      rw [insertEntry, if_neg hnot, if_neg hne, ih hlater]
      rfl

/-- `emplace` of the map: nothing is inserted where the key is there. -/
def emplace (metadata : PacketMetadata) (key value : Bytes) : Option PacketMetadata :=
  match h : insertEntry key value metadata.entries with
  | none => none
  | some entries => some ⟨entries, insertEntry_sorted metadata.sorted h⟩

theorem emplace_entries (metadata : PacketMetadata) (key value : Bytes) :
    (metadata.emplace key value).map entries = insertEntry key value metadata.entries := by
  unfold emplace
  split
  · rename_i h
    exact h.symm
  · rename_i h
    exact h.symm

/-- A key behind all others is always inserted. -/
theorem exists_emplace {metadata : PacketMetadata} {key : Bytes} (value : Bytes)
    (h : ∀ entry ∈ metadata.entries, entry.1 < key) :
    ∃ next, metadata.emplace key value = some next ∧
      next.entries = metadata.entries ++ [(key, value)] := by
  have hentries := emplace_entries metadata key value
  rw [insertEntry_append h] at hentries
  exact Option.map_eq_some_iff.mp hentries

theorem ext {first second : PacketMetadata} (h : first.entries = second.entries) :
    first = second := by
  cases first
  cases second
  cases h
  rfl

/-- The keys of a map are distinct. -/
theorem keys_nodup (metadata : PacketMetadata) : (metadata.entries.map Prod.fst).Nodup := by
  rw [List.Nodup, List.pairwise_map]
  refine metadata.sorted.imp fun hlt heq => ?_
  rw [heq] at hlt
  exact List.lt_irrefl _ hlt

end PacketMetadata

structure EncodedPacket where
  data : Bytes
  timestamp : Timestamp
  frameType : FrameType
  metadata : PacketMetadata := {}

namespace PacketIo

open ByteWriter ByteReader

def formatVersion : UInt16 := 1

def maximumMetadataEntries : ℕ := 1024

def maximumMetadataBytes : ℕ := 1 * 1024 * 1024

/-- The default of the parser's byte limit. -/
def defaultMaximumPacketBytes : ℕ := 64 * 1024 * 1024

/-- The bytes of "NVCR". -/
def magic : Bytes := [78, 86, 67, 82]

def malformed (message : String) : Error := ⟨.malformedBitstream, message, "bitstream"⟩

def invalid (message : String) : Error := ⟨.invalidArgument, message, "bitstream"⟩

def exhausted (message : String) : Error := ⟨.resourceExhausted, message, "bitstream"⟩

def frameTypeByte : FrameType → UInt8
  | .intra => 0
  | .predicted => 1

def frameTypeOfByte (byte : UInt8) : FrameType := if byte = 0 then .intra else .predicted

/-- The bytes an entry takes, with its two length fields. -/
def entrySize (keySize valueSize : ℕ) : ℕ := 4 + keySize + valueSize

/-- The size of the metadata on the wire, unless an entry or the sum is too large. -/
def metadataBytes : ℕ → List (Bytes × Bytes) → Result ℕ
  | total, [] => .ok total
  | total, (key, value) :: entries =>
      if key.length > 2 ^ 16 - 1 ∨ value.length > 2 ^ 16 - 1 then
        .error (invalid "metadata entry is too large")
      else if key.length > maximumMetadataBytes - 4 ∨
          value.length > maximumMetadataBytes - 4 - key.length ∨
          total > maximumMetadataBytes - 4 - key.length - value.length then
        .error (invalid "aggregate metadata exceeds configured format limit")
      else metadataBytes (total + entrySize key.length value.length) entries

def entryBytes (entry : Bytes × Bytes) : Bytes :=
  writeU16 (UInt16.ofNat entry.1.length) ++ (writeU16 (UInt16.ofNat entry.2.length) ++
    (entry.1 ++ entry.2))

/-- The bytes of a packet behind its magic. -/
def tail (packet : EncodedPacket) : Bytes :=
  writeU16 formatVersion ++ (writeU8 (frameTypeByte packet.frameType) ++ (writeU8 0 ++
  (writeU64 packet.timestamp.toUInt64 ++
  (writeU16 (UInt16.ofNat packet.metadata.entries.length) ++
  (packet.metadata.entries.flatMap entryBytes ++
  (writeU64 (UInt64.ofNat packet.data.length) ++ packet.data))))))

def serialize (packet : EncodedPacket) : Result Bytes := do
  require (packet.metadata.entries.length ≤ maximumMetadataEntries)
    (invalid "too many metadata entries")
  let size ← metadataBytes 0 packet.metadata.entries
  require (packet.data.length ≤ 2 ^ 64 - 1 - size - 32) (exhausted "packet size overflow")
  pure (magic ++ tail packet)

def metadataLimitError : Error := exhausted "aggregate metadata exceeds configured format limit"

/-- Whether an entry fits behind the metadata read so far. -/
def EntryFits (total keySize valueSize : ℕ) : Prop :=
  entrySize keySize valueSize ≤ maximumMetadataBytes ∧
    total ≤ maximumMetadataBytes - entrySize keySize valueSize

instance (total keySize valueSize : ℕ) : Decidable (EntryFits total keySize valueSize) :=
  inferInstanceAs (Decidable (_ ∧ _))

def readMetadata : ℕ → ℕ → PacketMetadata → ByteReader PacketMetadata
  | 0, _, metadata => pure metadata
  | count + 1, total, metadata => do
      let keySize ← readU16
      let valueSize ← readU16
      check (EntryFits total keySize.toNat valueSize.toNat) metadataLimitError
      let key ← readBytes keySize.toNat
      let value ← readBytes valueSize.toNat
      match metadata.emplace key value with
      | none => throw (malformed "duplicate metadata key")
      | some metadata =>
          readMetadata count (total + entrySize keySize.toNat valueSize.toNat) metadata

def parse (maximumPacketBytes : ℕ) : ByteReader EncodedPacket := do
  let wireMagic ← readBytes 4
  check (wireMagic = magic) (malformed "invalid packet magic")
  let version ← readU16
  check (version = formatVersion) (malformed "unsupported packet version")
  let frameType ← readU8
  check (frameType ≤ 1) (malformed "invalid frame type")
  let flags ← readU8
  check (flags = 0) (malformed "unsupported packet flags")
  let timestamp ← readU64
  let metadataCount ← readU16
  check (metadataCount.toNat ≤ maximumMetadataEntries) (exhausted "too many metadata entries")
  let metadata ← readMetadata metadataCount.toNat 0 {}
  let payloadSize ← readU64
  check (payloadSize.toNat ≤ maximumPacketBytes) (exhausted "packet exceeds configured limit")
  let payload ← readBytes payloadSize.toNat
  let left ← remaining
  check (left = 0) (malformed "trailing packet data")
  pure ⟨payload, timestamp.toInt64, frameTypeOfByte frameType, metadata⟩

def deserialize (bytes : Bytes) (maximumPacketBytes : ℕ) : Result EncodedPacket := do
  require (bytes.length ≤ maximumPacketBytes) (exhausted "packet exceeds configured limit")
  (parse maximumPacketBytes).run' bytes

/-- The entries that can be written behind a number of metadata bytes. -/
def Writable : ℕ → List (Bytes × Bytes) → Prop
  | _, [] => True
  | total, entry :: entries =>
      (entry.1.length < 2 ^ 16 ∧ entry.2.length < 2 ^ 16) ∧
        EntryFits total entry.1.length entry.2.length ∧
        Writable (total + entrySize entry.1.length entry.2.length) entries

/-- The metadata bytes behind a number of earlier ones. -/
def totalSize (total : ℕ) (entries : List (Bytes × Bytes)) : ℕ :=
  total + (entries.map fun entry => entrySize entry.1.length entry.2.length).sum

theorem metadataBytes_eq_ok {total size : ℕ} {entries : List (Bytes × Bytes)} :
    metadataBytes total entries = .ok size ↔
      Writable total entries ∧ size = totalSize total entries := by
  induction entries generalizing total with
  | nil =>
      simp only [metadataBytes, Writable, totalSize, List.map_nil, List.sum_nil, Nat.add_zero,
        Except.ok.injEq, true_and]
      exact eq_comm
  | cons entry entries ih =>
      obtain ⟨key, value⟩ := entry
      have htotal : totalSize (total + entrySize key.length value.length) entries =
          totalSize total ((key, value) :: entries) := by
        simp [totalSize, Nat.add_assoc]
      have hfits : EntryFits total key.length value.length ↔
          ¬ (key.length > maximumMetadataBytes - 4 ∨
            value.length > maximumMetadataBytes - 4 - key.length ∨
            total > maximumMetadataBytes - 4 - key.length - value.length) := by
        unfold EntryFits entrySize maximumMetadataBytes
        omega
      simp only [metadataBytes, Writable, hfits]
      by_cases hlarge : key.length > 2 ^ 16 - 1 ∨ value.length > 2 ^ 16 - 1
      · rw [if_pos hlarge]
        exact ⟨fun h => (nomatch h), fun h => by omega⟩
      · rw [if_neg hlarge]
        by_cases hover : key.length > maximumMetadataBytes - 4 ∨
            value.length > maximumMetadataBytes - 4 - key.length ∨
            total > maximumMetadataBytes - 4 - key.length - value.length
        · rw [if_pos hover]
          exact ⟨fun h => (nomatch h), fun h => absurd hover h.1.2.1⟩
        · rw [if_neg hover, ih, htotal]
          exact ⟨fun h => ⟨⟨by omega, hover, h.1⟩, h.2⟩, fun h => ⟨h.1.2.2, h.2⟩⟩

theorem totalSize_le {total : ℕ} {entries : List (Bytes × Bytes)}
    (htotal : total ≤ maximumMetadataBytes) (h : Writable total entries) :
    totalSize total entries ≤ maximumMetadataBytes := by
  induction entries generalizing total with
  | nil => simpa [totalSize] using htotal
  | cons entry entries ih =>
      obtain ⟨-, ⟨hentry, hfits⟩, hlater⟩ := h
      have hnext := ih (by omega) hlater
      simpa [totalSize, Nat.add_assoc] using hnext

theorem serialize_eq_ok {packet : EncodedPacket} {bytes : Bytes} :
    serialize packet = .ok bytes ↔
      packet.metadata.entries.length ≤ maximumMetadataEntries ∧
      Writable 0 packet.metadata.entries ∧
      packet.data.length ≤ 2 ^ 64 - 1 - totalSize 0 packet.metadata.entries - 32 ∧
      bytes = magic ++ tail packet := by
  simp only [serialize, bind_eq_ok, require_eq_ok, metadataBytes_eq_ok]
  constructor
  · rintro ⟨_, hcount, size, ⟨hwritable, rfl⟩, _, hsize, hbytes⟩
    exact ⟨hcount, hwritable, hsize, (Except.ok.inj hbytes).symm⟩
  · rintro ⟨hcount, hwritable, hsize, rfl⟩
    exact ⟨(), hcount, _, ⟨hwritable, rfl⟩, (), hsize, rfl⟩

theorem readMetadata_run {total : ℕ} {entries : List (Bytes × Bytes)} (metadata : PacketMetadata)
    (full : PacketMetadata) (rest : Bytes) (hfull : full.entries = metadata.entries ++ entries)
    (hwritable : Writable total entries) :
    (readMetadata entries.length total metadata).run (entries.flatMap entryBytes ++ rest) =
      .ok (full, rest) := by
  induction entries generalizing total metadata with
  | nil =>
      have hsame : metadata = full := PacketMetadata.ext (by rw [hfull, List.append_nil])
      rw [hsame]
      rfl
  | cons entry entries ih =>
      obtain ⟨key, value⟩ := entry
      obtain ⟨⟨hkey, hvalue⟩, hfits, hlater⟩ := hwritable
      have hkeySize : (UInt16.ofNat key.length).toNat = key.length := by
        rw [UInt16.toNat_ofNat', Nat.mod_eq_of_lt hkey]
      have hvalueSize : (UInt16.ofNat value.length).toNat = value.length := by
        rw [UInt16.toNat_ofNat', Nat.mod_eq_of_lt hvalue]
      have hbehind : ∀ entry ∈ metadata.entries, entry.1 < key := by
        have hsorted := full.sorted
        rw [hfull] at hsorted
        intro entry hentry
        exact (List.pairwise_append.mp hsorted).2.2 entry hentry (key, value) List.mem_cons_self
      obtain ⟨next, hemplace, hnext⟩ := PacketMetadata.exists_emplace value hbehind
      have hbytes : ((key, value) :: entries).flatMap entryBytes ++ rest =
          writeU16 (UInt16.ofNat key.length) ++ (writeU16 (UInt16.ofNat value.length) ++
            (key ++ (value ++ (entries.flatMap entryBytes ++ rest)))) := by
        simp [entryBytes]
      have hcheck : EntryFits total (UInt16.ofNat key.length).toNat
          (UInt16.ofNat value.length).toNat := by
        rw [hkeySize, hvalueSize]
        exact hfits
      rw [List.length_cons, readMetadata, hbytes, run_bind_of_ok (run_readU16_append _),
        run_bind_of_ok (run_readU16_append _), run_check_bind hcheck,
        run_bind_of_ok (run_readBytes_append hkeySize.symm),
        run_bind_of_ok (run_readBytes_append hvalueSize.symm), hkeySize, hvalueSize]
      simp only [hemplace]
      exact ih next (by rw [hfull, hnext, List.append_assoc]; rfl) hlater

theorem frameTypeOfByte_frameTypeByte (frameType : FrameType) :
    frameTypeOfByte (frameTypeByte frameType) = frameType := by
  cases frameType <;> rfl

theorem parse_run {packet : EncodedPacket} {bytes : Bytes} (h : serialize packet = .ok bytes)
    {maximumPacketBytes : ℕ} (hlimit : packet.data.length ≤ maximumPacketBytes) :
    (parse maximumPacketBytes).run bytes = .ok (packet, []) := by
  obtain ⟨hcount, hwritable, hsize, rfl⟩ := serialize_eq_ok.mp h
  have hmagic : magic.length = 4 := rfl
  have htype : frameTypeByte packet.frameType ≤ 1 := by
    cases packet.frameType <;> decide
  have hcountSize : (UInt16.ofNat packet.metadata.entries.length).toNat =
      packet.metadata.entries.length := by
    rw [UInt16.toNat_ofNat', Nat.mod_eq_of_lt]
    exact lt_of_le_of_lt hcount (by decide)
  have hpayloadSize : (UInt64.ofNat packet.data.length).toNat = packet.data.length := by
    rw [UInt64.toNat_ofNat', Nat.mod_eq_of_lt (by omega)]
  have hmetadata := readMetadata_run {} packet.metadata
    (writeU64 (UInt64.ofNat packet.data.length) ++ packet.data) rfl hwritable
  rw [parse, run_bind_of_ok (run_readBytes_append hmagic), run_check_bind rfl, tail,
    run_bind_of_ok (run_readU16_append _), run_check_bind rfl,
    run_bind_of_ok (run_readU8_append _), run_check_bind htype,
    run_bind_of_ok (run_readU8_append _), run_check_bind rfl,
    run_bind_of_ok (run_readU64_append _), run_bind_of_ok (run_readU16_append _), hcountSize,
    run_check_bind hcount, run_bind_of_ok hmetadata, run_bind_of_ok (run_readU64_append _),
    hpayloadSize, run_check_bind hlimit, run_bind_of_ok (run_readBytes_self rfl),
    run_bind_of_ok (run_remaining _), run_check_bind List.length_nil,
    frameTypeOfByte_frameTypeByte]
  rfl

/-- A written packet that fits the limit of the parser is read back. -/
theorem deserialize_serialize {packet : EncodedPacket} {bytes : Bytes}
    (h : serialize packet = .ok bytes) {maximumPacketBytes : ℕ}
    (hlimit : bytes.length ≤ maximumPacketBytes) :
    deserialize bytes maximumPacketBytes = .ok packet := by
  have hdata : packet.data.length ≤ maximumPacketBytes := by
    obtain ⟨-, -, -, rfl⟩ := serialize_eq_ok.mp h
    refine le_trans ?_ hlimit
    simp only [tail, List.length_append]
    omega
  rw [deserialize, require, if_pos hlimit, ok_bind]
  change Prod.fst <$> (parse maximumPacketBytes).run bytes = _
  rw [parse_run h hdata]
  rfl

/-- The bytes a packet takes on the wire: its fields, its metadata and its payload. -/
def wireSize (packet : EncodedPacket) : ℕ :=
  26 + totalSize 0 packet.metadata.entries + packet.data.length

theorem flatMap_entryBytes_length (entries : List (Bytes × Bytes)) :
    (entries.flatMap entryBytes).length = totalSize 0 entries := by
  rw [totalSize, Nat.zero_add, List.length_flatMap]
  congr 1
  refine List.map_congr_left fun entry _ => ?_
  simp only [entryBytes, entrySize, List.length_append, ByteWriter.writeU16_length]
  omega

theorem serialize_length {packet : EncodedPacket} {bytes : Bytes}
    (h : serialize packet = .ok bytes) : bytes.length = wireSize packet := by
  obtain ⟨-, -, -, rfl⟩ := serialize_eq_ok.mp h
  have hmagic : magic.length = 4 := rfl
  simp only [tail, wireSize, List.length_append, flatMap_entryBytes_length, hmagic,
    ByteWriter.writeU8_length, ByteWriter.writeU16_length, ByteWriter.writeU64_length]
  omega

/-- The number of bytes of a written packet fits its length field in a container. -/
theorem serialize_length_lt {packet : EncodedPacket} {bytes : Bytes}
    (h : serialize packet = .ok bytes) : bytes.length < 2 ^ 64 := by
  obtain ⟨-, hwritable, hsize, -⟩ := serialize_eq_ok.mp h
  have hmetadata := totalSize_le (Nat.zero_le _) hwritable
  rw [serialize_length h, wireSize]
  unfold maximumMetadataBytes at hmetadata
  omega

theorem deserialize_of_large {bytes : Bytes} {maximumPacketBytes : ℕ}
    (h : maximumPacketBytes < bytes.length) :
    deserialize bytes maximumPacketBytes = .error (exhausted "packet exceeds configured limit") := by
  rw [deserialize, require, if_neg (Nat.not_le.mpr h), error_bind]

/-- An accepted string was parsed to its end. -/
theorem parse_rest {maximumPacketBytes : ℕ} {bytes rest : Bytes} {packet : EncodedPacket}
    (h : (parse maximumPacketBytes).run bytes = .ok (packet, rest)) : rest = [] := by
  simp only [parse, run_bind_eq_ok, run_check_eq_ok] at h
  obtain ⟨_, _, -, _, _, -, _, _, -, _, _, -, _, _, -, _, _, -, _, _, -, _, _, -, _, _, -, _, _, -,
    _, _, -, _, _, -, _, _, -, _, _, -, _, _, -, left, after, hleft, _, _, ⟨hzero, rfl⟩, hpure⟩ := h
  cases hleft
  cases hpure
  exact List.length_eq_zero_iff.mp hzero

namespace AtCursor

open CursorReader

def readMetadata : ℕ → ℕ → PacketMetadata → CursorReader PacketMetadata
  | 0, _, metadata => pure metadata
  | count + 1, total, metadata => do
      let keySize ← CursorReader.readU16
      let valueSize ← CursorReader.readU16
      CursorReader.check (EntryFits total keySize.toNat valueSize.toNat) metadataLimitError
      let key ← CursorReader.readBytes keySize.toNat
      let value ← CursorReader.readBytes valueSize.toNat
      match metadata.emplace key value with
      | none => Action.fail (malformed "duplicate metadata key")
      | some metadata =>
          readMetadata count (total + entrySize keySize.toNat valueSize.toNat) metadata

def parse (maximumPacketBytes : ℕ) : CursorReader EncodedPacket := do
  let wireMagic ← CursorReader.readBytes 4
  CursorReader.check (wireMagic = magic) (malformed "invalid packet magic")
  let version ← CursorReader.readU16
  CursorReader.check (version = formatVersion) (malformed "unsupported packet version")
  let frameType ← CursorReader.readU8
  CursorReader.check (frameType ≤ 1) (malformed "invalid frame type")
  let flags ← CursorReader.readU8
  CursorReader.check (flags = 0) (malformed "unsupported packet flags")
  let timestamp ← CursorReader.readU64
  let metadataCount ← CursorReader.readU16
  CursorReader.check (metadataCount.toNat ≤ maximumMetadataEntries)
    (exhausted "too many metadata entries")
  let metadata ← readMetadata metadataCount.toNat 0 {}
  let payloadSize ← CursorReader.readU64
  CursorReader.check (payloadSize.toNat ≤ maximumPacketBytes)
    (exhausted "packet exceeds configured limit")
  let payload ← CursorReader.readBytes payloadSize.toNat
  let left ← CursorReader.remaining
  CursorReader.check (left = 0) (malformed "trailing packet data")
  pure ⟨payload, timestamp.toInt64, frameTypeOfByte frameType, metadata⟩

def deserialize (maximumPacketBytes : ℕ) : CursorReader EncodedPacket := do
  let size ← Action.gets fun cursor => cursor.data.length
  CursorReader.check (size ≤ maximumPacketBytes) (exhausted "packet exceeds configured limit")
  parse maximumPacketBytes

theorem readMetadata_refines (count total : ℕ) (metadata : PacketMetadata) :
    Refines (readMetadata count total metadata) (PacketIo.readMetadata count total metadata) := by
  induction count generalizing total metadata with
  | zero => exact .pure _
  | succ count ih =>
      refine .bind .readU16 fun keySize => .bind .readU16 fun valueSize => .bind (.check _ _)
        fun _ => .bind (.readBytes _) fun key => .bind (.readBytes _) fun value => ?_
      cases metadata.emplace key value with
      | none => exact .fail _
      | some next => exact ih _ next

theorem parse_refines (maximumPacketBytes : ℕ) :
    Refines (parse maximumPacketBytes) (PacketIo.parse maximumPacketBytes) :=
  .bind (.readBytes 4) fun _ => .bind (.check _ _) fun _ => .bind .readU16 fun _ =>
    .bind (.check _ _) fun _ => .bind .readU8 fun _ => .bind (.check _ _) fun _ =>
    .bind .readU8 fun _ => .bind (.check _ _) fun _ => .bind .readU64 fun _ =>
    .bind .readU16 fun _ => .bind (.check _ _) fun _ => .bind (readMetadata_refines _ _ _) fun _ =>
    .bind .readU64 fun _ => .bind (.check _ _) fun _ => .bind (.readBytes _) fun _ =>
    .bind .remaining fun _ => .bind (.check _ _) fun _ => .pure _

/-- The parser answers as the one over the remaining bytes, reads nothing outside the string, and
has consumed all of an accepted string. -/
theorem deserialize_run (bytes : Bytes) (maximumPacketBytes : ℕ) :
    let outcome := (deserialize maximumPacketBytes).run { data := bytes }
    outcome.1 = PacketIo.deserialize bytes maximumPacketBytes ∧
      (∀ range ∈ outcome.2.reads, range.1 + range.2 ≤ bytes.length) ∧
      ∀ packet, outcome.1 = .ok packet → outcome.2.offset = bytes.length := by
  have hgets : (Action.gets fun cursor : ByteCursor => cursor.data.length : CursorReader ℕ).run
      { data := bytes } = (.ok bytes.length, { data := bytes }) := rfl
  have hbounds : ({ data := bytes } : ByteCursor).InBounds :=
    ⟨Nat.zero_le _, fun _ hmem => absurd hmem List.not_mem_nil⟩
  rw [deserialize, Action.run_bind_of_ok hgets]
  by_cases hsize : bytes.length ≤ maximumPacketBytes
  · rw [Action.run_bind_of_ok (run_check_of_pos hsize _ _), PacketIo.deserialize, require,
      if_pos hsize, ok_bind]
    exact (parse_refines maximumPacketBytes).run_front hbounds rfl fun _ _ => parse_rest
  · rw [Action.run_bind_of_error (run_check_of_neg hsize _ _), PacketIo.deserialize, require,
      if_neg hsize]
    exact ⟨rfl, fun _ hmem => absurd hmem List.not_mem_nil, fun _ hok => by cases hok⟩

end AtCursor

/-- Packets round trip: a written packet within the limit of the parser is read back as it was,
and whatever is accepted was read inside the string, to its end, and has distinct metadata keys. -/
theorem packet_round_trip :
    (∀ packet bytes maximumPacketBytes, serialize packet = .ok bytes →
      bytes.length ≤ maximumPacketBytes → deserialize bytes maximumPacketBytes = .ok packet) ∧
    ∀ bytes maximumPacketBytes packet, deserialize bytes maximumPacketBytes = .ok packet →
      let outcome := (AtCursor.deserialize maximumPacketBytes).run { data := bytes }
      outcome.1 = .ok packet ∧
        (∀ range ∈ outcome.2.reads, range.1 + range.2 ≤ bytes.length) ∧
        outcome.2.offset = bytes.length ∧ (packet.metadata.entries.map Prod.fst).Nodup := by
  refine ⟨fun packet bytes maximumPacketBytes h hlimit => deserialize_serialize h hlimit,
    fun bytes maximumPacketBytes packet h => ?_⟩
  obtain ⟨hanswer, hreads, hend⟩ := AtCursor.deserialize_run bytes maximumPacketBytes
  have hok := hanswer.trans h
  exact ⟨hok, hreads, hend packet hok, packet.metadata.keys_nodup⟩

end PacketIo

end Nvcr
