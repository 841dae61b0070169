import Nvcr.RtRansCodec

/-!
# What the entropy session encodes it decodes

The vendored coder is assumed to return the symbols of one sub-stream in the order they were
pended and to ignore what follows. Every call of the session is a batch of symbols; the
invariants say which batches an encoder holds and which a decoder still delivers.
-/

namespace Nvcr.Rt

open StatefulResults

namespace CodedSymbol

def address (coded : CodedSymbol) : ℕ × ℕ := (coded.group, coded.row)

/-- The group is registered and has the row. -/
def Valid (tables : List RansCdfTable) (coded : CodedSymbol) : Prop :=
  ∃ table, tables[coded.group]? = some table ∧ coded.row < table.rows

end CodedSymbol

open CodedSymbol (address)

namespace RansCoder

/-- The assumption on the vendored coder: first in, first out, with at least the four bytes of
a coder state, and indifferent to bytes behind the stream. -/
structure FifoInverse (R : RansCoder) : Prop where
  decode_flush : ∀ tables pending tail, (∀ table ∈ tables, table.validateCdf = .ok ()) →
    (∀ coded ∈ pending, coded.Valid tables) → pending ≠ [] →
    (R.decodeMany tables (R.setStream (R.flush tables pending ++ tail))
      (pending.map address)).1 = pending.map CodedSymbol.symbol
  flush_length : ∀ tables pending, pending ≠ [] → 4 ≤ (R.flush tables pending).length

variable {R : RansCoder} {tables : List RansCdfTable} {decoder : R.Decoder}

/-- A decoder that will return the symbols of a pending list when asked for its rows. -/
def Reads (tables : List RansCdfTable) (decoder : R.Decoder) (pending : List CodedSymbol) : Prop :=
  (R.decodeMany tables decoder (pending.map address)).1 = pending.map CodedSymbol.symbol

theorem decodeMany_append (first second : List (ℕ × ℕ)) :
    R.decodeMany tables decoder (first ++ second) =
      ((R.decodeMany tables decoder first).1 ++
        (R.decodeMany tables (R.decodeMany tables decoder first).2 second).1,
      (R.decodeMany tables (R.decodeMany tables decoder first).2 second).2) := by
  induction first generalizing decoder with
  | nil => rfl
  | cons head first ih =>
      obtain ⟨group, row⟩ := head
      simp [decodeMany, ih]

@[simp] theorem decodeMany_length (addresses : List (ℕ × ℕ)) :
    (R.decodeMany tables decoder addresses).1.length = addresses.length := by
  induction addresses generalizing decoder with
  | nil => rfl
  | cons head addresses ih =>
      obtain ⟨group, row⟩ := head
      simp [decodeMany, ih]

/-- Reading a front part leaves a decoder that reads the rest. -/
theorem Reads.append {first second : List CodedSymbol} (h : Reads tables decoder (first ++ second)) :
    (R.decodeMany tables decoder (first.map address)).1 = first.map CodedSymbol.symbol ∧
      Reads tables (R.decodeMany tables decoder (first.map address)).2 second := by
  unfold Reads at h
  rw [List.map_append, List.map_append, decodeMany_append] at h
  exact List.append_inj h (by simp)

end RansCoder

open RansCoder

namespace RansCodec

variable {R : RansCoder}

/-- The part of a batch that the first sub-coder gets. -/
def firstPart (two : Bool) (batch : List CodedSymbol) : List CodedSymbol :=
  if two then batch.take (batch.length / 2) else batch

/-- The part of a batch that the second sub-coder gets in a two-coder session. -/
def secondPart (batch : List CodedSymbol) : List CodedSymbol := batch.drop (batch.length / 2)

/-- A batch that the session accepts: registered rows, and enough symbols to split. -/
structure ValidBatch (tables : List RansCdfTable) (two : Bool) (batch : List CodedSymbol) :
    Prop where
  valid : ∀ coded ∈ batch, coded.Valid tables
  splits : two = true → batch ≠ [] → 2 ≤ batch.length

/-- The sub-encoders hold exactly the given batches. -/
structure Holds (codec : RansCodec R) (batches : List (List CodedSymbol)) : Prop where
  encoder0 : codec.encoder0 = batches.flatMap (firstPart codec.useTwoCoders)
  encoder1 : codec.useTwoCoders = true → codec.encoder1 = batches.flatMap secondPart
  hasSymbols : codec.encoderHasSymbols = decide (batches.flatten ≠ [])
  notFinished : codec.encoderFinished = false
  validBatches : ∀ batch ∈ batches, ValidBatch codec.tables codec.useTwoCoders batch

/-- The sub-decoders will return exactly the given batches. -/
structure Delivers (codec : RansCodec R) (batches : List (List CodedSymbol)) : Prop where
  streamSet : codec.streamSet = true
  reads0 : Reads codec.tables codec.decoder0 (batches.flatMap (firstPart codec.useTwoCoders))
  reads1 : codec.useTwoCoders = true →
    Reads codec.tables codec.decoder1 (batches.flatMap secondPart)
  validBatches : ∀ batch ∈ batches, ValidBatch codec.tables codec.useTwoCoders batch

/-- The tables and the mode, which coding and decoding leave alone. -/
def SameSetup (codec codec' : RansCodec R) : Prop :=
  codec'.tables = codec.tables ∧ codec'.useTwoCoders = codec.useTwoCoders

theorem resetEncoder_holds (codec : RansCodec R) : codec.resetEncoder.Holds [] where
  encoder0 := rfl
  encoder1 := fun _ => rfl
  hasSymbols := rfl
  notFinished := rfl
  validBatches := fun _ h => nomatch h

/-- A fresh encoder accepts either mode and then holds nothing. -/
theorem setUseTwoCoders_resetEncoder (codec : RansCodec R) (two : Bool) :
    ∃ codec', codec.resetEncoder.setUseTwoCoders two = .ok codec' ∧ codec'.Holds [] ∧
      codec'.tables = codec.tables ∧ codec'.useTwoCoders = two := by
  refine ⟨{ codec.resetEncoder with useTwoCoders := two }, ?_, ?_, rfl, rfl⟩
  · simp [setUseTwoCoders, resetEncoder, require]
  · exact ⟨rfl, fun _ => rfl, rfl, rfl, fun _ h => nomatch h⟩

section Pushing

variable {codec : RansCodec R} {batches : List (List CodedSymbol)}

/-- Pushing both parts of a valid batch extends what the encoders hold by that batch. -/
theorem Holds.pushed (h : codec.Holds batches) {batch : List CodedSymbol}
    (hbatch : ValidBatch codec.tables codec.useTwoCoders batch) (hne : batch ≠ []) :
    (codec.pushed (firstPart codec.useTwoCoders batch) (secondPart batch)).Holds
      (batches ++ [batch]) where
  encoder0 := by
    simp [RansCodec.pushed, h.encoder0, List.flatMap_append]
  encoder1 := by
    intro htwo
    have htwo' : codec.useTwoCoders = true := htwo
    simp [RansCodec.pushed, htwo', h.encoder1 htwo', List.flatMap_append]
  hasSymbols := by
    simp [RansCodec.pushed, hne]
  notFinished := h.notFinished
  validBatches := by
    intro other hother
    rcases List.mem_append.mp hother with hold | hnew
    · exact h.validBatches other hold
    · rw [List.mem_singleton.mp hnew]
      exact hbatch

/-- An empty batch changes nothing. -/
theorem Holds.append_nil (h : codec.Holds batches) : codec.Holds (batches ++ [[]]) where
  encoder0 := by
    rw [h.encoder0]
    simp [List.flatMap_append, firstPart]
  encoder1 := by
    intro htwo
    rw [h.encoder1 htwo]
    simp [List.flatMap_append, secondPart]
  hasSymbols := by
    rw [h.hasSymbols]
    simp
  notFinished := h.notFinished
  validBatches := by
    intro other hother
    rcases List.mem_append.mp hother with hold | hnew
    · exact h.validBatches other hold
    · rw [List.mem_singleton.mp hnew]
      exact ⟨fun _ hmem => (nomatch hmem), fun _ hne => absurd rfl hne⟩

end Pushing

theorem groupRows_eq_ok {codec : RansCodec R} {group rows : ℕ}
    (h : codec.groupRows group = .ok rows) :
    ∃ table, codec.tables[group]? = some table ∧ rows = table.rows := by
  unfold groupRows at h
  split at h
  · cases h
  · rename_i table htable
    cases h
    exact ⟨table, htable, rfl⟩

@[simp] theorem codedY_length (group : ℕ) (combined : List Int16) :
    (codedY group combined).length = combined.length := by
  simp [codedY]

@[simp] theorem codedZ_length (group startOffset perChannelSize : ℕ) (symbols : List Int8) :
    (codedZ group startOffset perChannelSize symbols).length = symbols.length := by
  simp [codedZ]

theorem codedY_take (group n : ℕ) (combined : List Int16) :
    codedY group (combined.take n) = (codedY group combined).take n := by
  simp [codedY, List.map_take]

theorem codedY_drop (group n : ℕ) (combined : List Int16) :
    codedY group (combined.drop n) = (codedY group combined).drop n := by
  simp [codedY, List.map_drop]

theorem codedZ_take (group startOffset perChannelSize n : ℕ) (symbols : List Int8) :
    codedZ group startOffset perChannelSize (symbols.take n) =
      (codedZ group startOffset perChannelSize symbols).take n := by
  apply List.ext_getElem
  · simp
  · intro index h₁ h₂
    simp [codedZ]

/-- Dropping whole channels moves the start offset by their number. -/
theorem codedZ_drop {group startOffset perChannelSize half : ℕ} (hpos : perChannelSize ≠ 0)
    (hhalf : half % perChannelSize = 0) (symbols : List Int8) :
    codedZ group (startOffset + half / perChannelSize) perChannelSize (symbols.drop half) =
      (codedZ group startOffset perChannelSize symbols).drop half := by
  obtain ⟨channels, rfl⟩ := Nat.dvd_of_mod_eq_zero hhalf
  have hdiv : perChannelSize * channels / perChannelSize = channels :=
    Nat.mul_div_cancel_left channels (Nat.pos_of_ne_zero hpos)
  apply List.ext_getElem
  · simp
  · intro index h₁ h₂
    have hrow : (perChannelSize * channels + index) / perChannelSize =
        channels + index / perChannelSize :=
      Nat.mul_add_div (Nat.pos_of_ne_zero hpos) channels index
    simp only [codedZ, List.getElem_mapIdx, List.getElem_drop, hdiv, hrow]
    congr 1
    omega

/-- What a call with y symbols needs of the tables and the mode. -/
def AcceptsY (tables : List RansCdfTable) (two : Bool) (group : ℕ) (rows : List ℕ) : Prop :=
  ∃ table, tables[group]? = some table ∧ (∀ row ∈ rows, row < table.rows) ∧
    (two = true → rows ≠ [] → 2 ≤ rows.length)

/-- What a call with z symbols needs of the tables and the mode. -/
def AcceptsZ (tables : List RansCdfTable) (two : Bool)
    (group startOffset perChannelSize count : ℕ) : Prop :=
  ∃ table, tables[group]? = some table ∧ (perChannelSize ≠ 0 ∧ count % perChannelSize = 0) ∧
    (startOffset ≤ table.rows ∧ count / perChannelSize ≤ table.rows - startOffset) ∧
    (two = true → count ≠ 0 → count / 2 ≠ 0 ∧ count / 2 % perChannelSize = 0)

theorem groupRows_of_getElem? {codec : RansCodec R} {group : ℕ} {table : RansCdfTable}
    (h : codec.tables[group]? = some table) : codec.groupRows group = .ok table.rows := by
  simp [groupRows, h]

/-- An accepted y call pushes its symbols, half of them to each sub-coder of two. -/
theorem encodeY_eq_ok {codec codec' : RansCodec R} {combined : List Int16} {group : ℕ} :
    codec.encodeY combined group = .ok codec' ↔
      codec.encoderFinished = false ∧
      AcceptsY codec.tables codec.useTwoCoders group (combined.map combinedRow) ∧
      codec' = if combined = [] then codec else
        codec.pushed (firstPart codec.useTwoCoders (codedY group combined))
          (secondPart (codedY group combined)) := by
  have hfirst : codedY group (combined.take
      (if codec.useTwoCoders then combined.length / 2 else combined.length)) =
      firstPart codec.useTwoCoders (codedY group combined) := by
    rw [codedY_take, firstPart]
    split
    · rw [codedY_length]
    · rw [List.take_of_length_le (by simp)]
  have hsecond : codedY group (combined.drop (combined.length / 2)) =
      secondPart (codedY group combined) := by
    rw [codedY_drop, secondPart, codedY_length]
  constructor
  · intro hok
    obtain ⟨rows, hrows, hfinished⟩ := bind_eq_ok.mp hok
    obtain ⟨_, hopen, hchecked⟩ := bind_eq_ok.mp hfinished
    obtain ⟨_, hrequired, hrest⟩ := bind_eq_ok.mp hchecked
    clear hok hfinished hchecked
    obtain ⟨table, htable, rfl⟩ := groupRows_eq_ok hrows
    have hvalid : ∀ row ∈ combined.map combinedRow, row < table.rows := by
      simpa using require_eq_ok.mp hrequired
    refine ⟨by simpa using require_eq_ok.mp hopen, ?_⟩
    split at hrest
    · rename_i hempty
      have hnil := List.isEmpty_iff.mp hempty
      cases hrest
      exact ⟨⟨table, htable, hvalid, fun _ hne => absurd (by simp [hnil]) hne⟩, by simp [hnil]⟩
    · rename_i hempty
      obtain ⟨_, hsplits, hpush⟩ := bind_eq_ok.mp hrest
      have hsplit := require_eq_ok.mp hsplits
      cases hpush
      rw [hfirst, hsecond, if_neg (by simpa using hempty)]
      refine ⟨⟨table, htable, hvalid, ?_⟩, rfl⟩
      intro htwo _
      rw [List.length_map]
      by_contra hshort
      exact hsplit ⟨htwo, by omega⟩
  · rintro ⟨hopen, ⟨table, htable, hvalid, hsplit⟩, rfl⟩
    have hrequired : ∀ value ∈ combined, combinedRow value < table.rows := by simpa using hvalid
    by_cases hnil : combined = []
    · subst hnil
      simp [encodeY, groupRows_of_getElem? htable, require, hopen]
    · have henough : ¬ (codec.useTwoCoders = true ∧ combined.length < 2) := by
        rintro ⟨htwo, hshort⟩
        have := hsplit htwo (by simpa using hnil)
        rw [List.length_map] at this
        omega
      rw [if_neg hnil, ← hfirst, ← hsecond]
      simp only [encodeY, groupRows_of_getElem? htable, ok_bind, require, hopen,
        if_pos hrequired, if_pos henough, List.isEmpty_iff, if_neg hnil]
      rfl

/-- An accepted z call pushes its symbols with the rows of their channels. -/
theorem encodeZ_eq_ok {codec codec' : RansCodec R} {symbols : List Int8}
    {group startOffset perChannelSize : ℕ} :
    codec.encodeZ symbols group startOffset perChannelSize = .ok codec' ↔
      codec.encoderFinished = false ∧
      AcceptsZ codec.tables codec.useTwoCoders group startOffset perChannelSize symbols.length ∧
      codec' = if symbols = [] then codec else
        codec.pushed
          (firstPart codec.useTwoCoders (codedZ group startOffset perChannelSize symbols))
          (secondPart (codedZ group startOffset perChannelSize symbols)) := by
  have hfirst : codedZ group startOffset perChannelSize (symbols.take
      (if codec.useTwoCoders then symbols.length / 2 else symbols.length)) =
      firstPart codec.useTwoCoders (codedZ group startOffset perChannelSize symbols) := by
    rw [codedZ_take, firstPart]
    split
    · rw [codedZ_length]
    · rw [List.take_of_length_le (by simp)]
  -- The second part matters only in two-coder mode, where the split is on a channel boundary.
  have hsecond : perChannelSize ≠ 0 →
      (codec.useTwoCoders = true → symbols.length / 2 % perChannelSize = 0) → ∀ first,
      codec.pushed first (codedZ group (startOffset + symbols.length / 2 / perChannelSize)
        perChannelSize (symbols.drop (symbols.length / 2))) =
      codec.pushed first (secondPart (codedZ group startOffset perChannelSize symbols)) := by
    intro hpos hboundary first
    cases htwo : codec.useTwoCoders with
    | false => simp [RansCodec.pushed, htwo]
    | true => rw [codedZ_drop hpos (hboundary htwo), secondPart, codedZ_length]
  constructor
  · intro hok
    obtain ⟨rows, hrows, hfinished⟩ := bind_eq_ok.mp hok
    obtain ⟨_, hopen, hwholes⟩ := bind_eq_ok.mp hfinished
    obtain ⟨_, hchannels, hfits⟩ := bind_eq_ok.mp hwholes
    obtain ⟨_, hfit, hrest⟩ := bind_eq_ok.mp hfits
    clear hok hfinished hwholes hfits
    obtain ⟨table, htable, rfl⟩ := groupRows_eq_ok hrows
    have hchannels := require_eq_ok.mp hchannels
    have hfit := require_eq_ok.mp hfit
    refine ⟨by simpa using require_eq_ok.mp hopen, ?_⟩
    split at hrest
    · rename_i hempty
      have hnil := List.isEmpty_iff.mp hempty
      cases hrest
      exact ⟨⟨table, htable, hchannels, hfit, fun _ hne => absurd (by simp [hnil]) hne⟩,
        by simp [hnil]⟩
    · rename_i hempty
      obtain ⟨_, hsplits, hpush⟩ := bind_eq_ok.mp hrest
      have hsplit := require_eq_ok.mp hsplits
      have hboundary : codec.useTwoCoders = true →
          symbols.length / 2 ≠ 0 ∧ symbols.length / 2 % perChannelSize = 0 := by
        intro htwo
        constructor
        · exact fun hzero => hsplit ⟨htwo, .inl hzero⟩
        · by_contra hodd
          exact hsplit ⟨htwo, .inr hodd⟩
      cases hpush
      rw [hfirst, hsecond hchannels.1 (fun htwo => (hboundary htwo).2),
        if_neg (by simpa using hempty)]
      exact ⟨⟨table, htable, hchannels, hfit, fun htwo _ => hboundary htwo⟩, rfl⟩
  · rintro ⟨hopen, ⟨table, htable, hchannels, hfit, hsplit⟩, rfl⟩
    by_cases hnil : symbols = []
    · subst hnil
      simp only [encodeZ, groupRows_of_getElem? htable, ok_bind, require, hopen, if_pos hchannels,
        if_pos hfit]
      rfl
    · have hcount : symbols.length ≠ 0 := by simpa using hnil
      have henough : ¬ (codec.useTwoCoders = true ∧
          (symbols.length / 2 = 0 ∨ symbols.length / 2 % perChannelSize ≠ 0)) := by
        rintro ⟨htwo, hzero | hodd⟩
        · exact (hsplit htwo hcount).1 hzero
        · exact hodd (hsplit htwo hcount).2
      rw [if_neg hnil, ← hfirst, ← hsecond hchannels.1 (fun htwo => (hsplit htwo hcount).2)]
      simp only [encodeZ, groupRows_of_getElem? htable, ok_bind, require, hopen,
        if_pos hchannels, if_pos hfit, if_pos henough, List.isEmpty_iff, if_neg hnil]
      rfl

/-- An accepted call adds the batch of its combined symbols. -/
theorem encodeY_holds {codec codec' : RansCodec R} {batches : List (List CodedSymbol)}
    {combined : List Int16} {group : ℕ} (h : codec.Holds batches)
    (hok : codec.encodeY combined group = .ok codec') :
    codec'.Holds (batches ++ [codedY group combined]) ∧ SameSetup codec codec' := by
  obtain ⟨-, ⟨table, htable, hvalid, hsplit⟩, rfl⟩ := encodeY_eq_ok.mp hok
  split
  · rename_i hnil
    rw [hnil]
    exact ⟨h.append_nil, rfl, rfl⟩
  · rename_i hnil
    refine ⟨h.pushed ⟨?_, ?_⟩ (by simpa [codedY] using hnil), rfl, rfl⟩
    · intro coded hcoded
      obtain ⟨value, hvalue, rfl⟩ := List.mem_map.mp hcoded
      exact ⟨table, htable, hvalid _ (List.mem_map_of_mem hvalue)⟩
    · intro htwo _
      simpa using hsplit htwo (by simpa using hnil)

/-- An accepted call adds the batch of its symbols with the rows of their channels. -/
theorem encodeZ_holds {codec codec' : RansCodec R} {batches : List (List CodedSymbol)}
    {symbols : List Int8} {group startOffset perChannelSize : ℕ} (h : codec.Holds batches)
    (hok : codec.encodeZ symbols group startOffset perChannelSize = .ok codec') :
    codec'.Holds (batches ++ [codedZ group startOffset perChannelSize symbols]) ∧
      SameSetup codec codec' := by
  obtain ⟨-, ⟨table, htable, ⟨hpos, hwhole⟩, hfit, hsplit⟩, rfl⟩ := encodeZ_eq_ok.mp hok
  split
  · rename_i hnil
    rw [hnil]
    exact ⟨h.append_nil, rfl, rfl⟩
  · rename_i hnil
    refine ⟨h.pushed ⟨?_, ?_⟩ (by simpa [codedZ] using hnil), rfl, rfl⟩
    · intro coded hcoded
      obtain ⟨index, hindex, rfl⟩ := List.mem_iff_getElem.mp hcoded
      rw [codedZ_length] at hindex
      have hchannel : index / perChannelSize < symbols.length / perChannelSize := by
        apply Nat.div_lt_of_lt_mul
        rwa [Nat.mul_div_cancel' (Nat.dvd_of_mod_eq_zero hwhole)]
      refine ⟨table, ?_, ?_⟩
      · simpa [codedZ] using htable
      · simp only [codedZ, List.getElem_mapIdx]
        omega
    · intro htwo _
      have hhalf := (hsplit htwo (by simpa using hnil)).1
      rw [codedZ_length]
      omega

section Merging

/-- The counted bytes are zero in both streams. -/
theorem take_zeroTail (stream0 stream1 : Bytes) (bound : ℕ) :
    let zeros := (((stream0.zip stream1).take bound).takeWhile
      fun pair => pair.1 = 0 ∧ pair.2 = 0).length
    stream0.take zeros = List.replicate zeros 0 ∧ stream1.take zeros = List.replicate zeros 0 := by
  induction bound generalizing stream0 stream1 with
  | zero => simp
  | succ bound ih =>
      rcases stream0 with _ | ⟨byte0, stream0⟩
      · simp
      rcases stream1 with _ | ⟨byte1, stream1⟩
      · simp
      by_cases hzero : byte0 = 0 ∧ byte1 = 0
      · obtain ⟨rfl, rfl⟩ := hzero
        simpa [List.replicate_succ] using ih stream0 stream1
      · simp [hzero]

/-- The shared tail read backwards is the same in both streams. -/
theorem take_identicalTail {stream0 stream1 : Bytes} (h0 : stream0 ≠ []) (h1 : stream1 ≠ []) :
    (stream1.reverse.take (identicalTail stream0 stream1)).reverse =
      stream0.reverse.take (identicalTail stream0 stream1) := by
  obtain ⟨hzeros0, hzeros1⟩ := take_zeroTail stream0.reverse stream1.reverse 8
  unfold identicalTail
  simp only []
  split
  · rename_i hlast
    obtain ⟨front0, last0, rfl⟩ := List.eq_nil_or_concat stream0 |>.resolve_left h0
    obtain ⟨front1, last1, rfl⟩ := List.eq_nil_or_concat stream1 |>.resolve_left h1
    have hsame : last0 = last1 := by simpa using hlast.2
    simp [hsame]
  · rw [hzeros0, hzeros1, List.reverse_replicate]

theorem mergeStreams_eq_append (stream0 stream1 : Bytes) :
    ∃ tail, mergeStreams stream0 stream1 = stream0 ++ tail := ⟨_, rfl⟩

/-- Read backwards, the merged stream starts with the second stream. -/
theorem reverse_mergeStreams_eq_append {stream0 stream1 : Bytes} (h0 : stream0 ≠ [])
    (h1 : stream1 ≠ []) : ∃ tail, (mergeStreams stream0 stream1).reverse = stream1 ++ tail := by
  let shared := identicalTail stream0 stream1
  have htail : stream1.drop (stream1.length - shared) = stream0.reverse.take shared := by
    rw [← take_identicalTail h0 h1, List.take_reverse, List.reverse_reverse]
  refine ⟨stream0.reverse.drop shared, ?_⟩
  calc (mergeStreams stream0 stream1).reverse
      = stream1.take (stream1.length - shared) ++ stream0.reverse := by
        simp [mergeStreams, shared]
    _ = stream1.take (stream1.length - shared) ++
          (stream0.reverse.take shared ++ stream0.reverse.drop shared) := by
        rw [List.take_append_drop]
    _ = stream1 ++ stream0.reverse.drop shared := by
        rw [← htail, ← List.append_assoc, List.take_append_drop]

end Merging

/-- A nonempty valid batch gives both sub-coders something in two-coder mode. -/
theorem parts_ne_nil {tables : List RansCdfTable} {two : Bool}
    {batches : List (List CodedSymbol)} (h : ∀ batch ∈ batches, ValidBatch tables two batch)
    (hne : batches.flatten ≠ []) :
    batches.flatMap (firstPart two) ≠ [] ∧
      (two = true → batches.flatMap secondPart ≠ []) := by
  obtain ⟨coded, hcoded⟩ := List.exists_mem_of_ne_nil _ hne
  obtain ⟨batch, hbatch, hmem⟩ := List.mem_flatten.mp hcoded
  have hbatchNe : batch ≠ [] := List.ne_nil_of_mem hmem
  have hpos : 0 < batch.length := List.length_pos_iff.mpr hbatchNe
  constructor
  · intro hnil
    have hpart := List.flatMap_eq_nil_iff.mp hnil batch hbatch
    unfold firstPart at hpart
    split at hpart
    · rename_i htwo
      have htwice := (h batch hbatch).splits htwo hbatchNe
      have hlength := congrArg List.length hpart
      rw [List.length_take, List.length_nil] at hlength
      omega
    · exact hbatchNe hpart
  · intro _ hnil
    have hpart := List.flatMap_eq_nil_iff.mp hnil batch hbatch
    have hlength := congrArg List.length hpart
    simp [secondPart] at hlength
    omega

theorem valid_parts {tables : List RansCdfTable} {two : Bool}
    {batches : List (List CodedSymbol)} (h : ∀ batch ∈ batches, ValidBatch tables two batch) :
    (∀ coded ∈ batches.flatMap (firstPart two), coded.Valid tables) ∧
      ∀ coded ∈ batches.flatMap secondPart, coded.Valid tables := by
  constructor
  · intro coded hcoded
    obtain ⟨batch, hbatch, hmem⟩ := List.mem_flatMap.mp hcoded
    unfold firstPart at hmem
    split at hmem
    · exact (h batch hbatch).valid coded (List.mem_of_mem_take hmem)
    · exact (h batch hbatch).valid coded hmem
  · intro coded hcoded
    obtain ⟨batch, hbatch, hmem⟩ := List.mem_flatMap.mp hcoded
    exact (h batch hbatch).valid coded (List.mem_of_mem_drop hmem)

/-- The stream of a finished session that held the given batches. -/
def codedStream (R : RansCoder) (tables : List RansCdfTable) (two : Bool)
    (batches : List (List CodedSymbol)) : Bytes :=
  let stream0 := R.flush tables (batches.flatMap (firstPart two))
  if two then mergeStreams stream0 (R.flush tables (batches.flatMap secondPart)) else stream0

/-- Finishing an encoder that holds symbols gives a stream from which every session with the
same tables and mode delivers the batches again. -/
theorem finishEncode_delivers (hR : R.FifoInverse) {codec : RansCodec R}
    {batches : List (List CodedSymbol)} (h : codec.Holds batches)
    (htables : ∀ table ∈ codec.tables, table.validateCdf = .ok ()) (hne : batches.flatten ≠ []) :
    codec.finishEncode = .ok (codedStream R codec.tables codec.useTwoCoders batches,
        { codec with encoderFinished := true }) ∧
      4 ≤ (codedStream R codec.tables codec.useTwoCoders batches).length ∧
      ∀ reader : RansCodec R, SameSetup codec reader →
        ∃ reader', reader.setStream (codedStream R codec.tables codec.useTwoCoders batches) =
            .ok reader' ∧
          reader'.Delivers batches ∧ SameSetup codec reader' := by
  obtain ⟨hparts0, hparts1⟩ := parts_ne_nil h.validBatches hne
  obtain ⟨hvalid0, hvalid1⟩ := valid_parts h.validBatches
  have hsymbols : codec.encoderHasSymbols = true := by simpa [h.hasSymbols] using hne
  let stream0 := R.flush codec.tables (batches.flatMap (firstPart codec.useTwoCoders))
  have hlength0 : 4 ≤ stream0.length := hR.flush_length _ _ hparts0
  have hreads0 : ∀ tail, Reads codec.tables (R.setStream (stream0 ++ tail))
      (batches.flatMap (firstPart codec.useTwoCoders)) :=
    fun tail => hR.decode_flush _ _ tail htables hvalid0 hparts0
  cases htwo : codec.useTwoCoders with
  | false =>
      have hstream : codedStream R codec.tables false batches = stream0 := by
        simp [codedStream, stream0, htwo]
      rw [hstream]
      refine ⟨?_, hlength0, ?_⟩
      · simp [finishEncode, require, h.notFinished, hsymbols, htwo, stream0, h.encoder0]
      · intro reader hsetup
        have hone : reader.useTwoCoders = false := by rw [hsetup.2, htwo]
        refine ⟨{ reader with decoder0 := R.setStream stream0, streamSet := true }, ?_, ?_, hsetup⟩
        · simp [setStream, require, hlength0, hone]
        · have hread := hreads0 []
          rw [List.append_nil, htwo] at hread
          refine ⟨rfl, ?_, ?_, ?_⟩
          · simpa [hsetup.1, hone] using hread
          · intro htwo'
            exact absurd (hone.symm.trans htwo') (by decide)
          · simpa [hsetup.1, hone, htwo] using h.validBatches
  | true =>
      let stream1 := R.flush codec.tables (batches.flatMap secondPart)
      have hlength1 : 4 ≤ stream1.length := hR.flush_length _ _ (hparts1 htwo)
      have hne0 : stream0 ≠ [] := by
        rintro hnil
        simp [hnil] at hlength0
      have hne1 : stream1 ≠ [] := by
        rintro hnil
        simp [hnil] at hlength1
      have hreads1 : ∀ tail, Reads codec.tables (R.setStream (stream1 ++ tail))
          (batches.flatMap secondPart) :=
        fun tail => hR.decode_flush _ _ tail htables hvalid1 (hparts1 htwo)
      obtain ⟨tail0, hmerge0⟩ := mergeStreams_eq_append stream0 stream1
      obtain ⟨tail1, hmerge1⟩ := reverse_mergeStreams_eq_append hne0 hne1
      have hlength : 4 ≤ (mergeStreams stream0 stream1).length := by
        rw [hmerge0, List.length_append]
        omega
      have hstream : codedStream R codec.tables true batches = mergeStreams stream0 stream1 := by
        simp [codedStream, stream0, stream1, htwo]
      rw [hstream]
      refine ⟨?_, hlength, ?_⟩
      · have hsecond : codec.encoder1 = batches.flatMap secondPart := h.encoder1 htwo
        have hnonempty : ¬ (stream0.isEmpty = true ∨ stream1.isEmpty = true) := by
          simp [hne0, hne1]
        simp only [finishEncode, require, h.notFinished, hsymbols, htwo, h.encoder0, hsecond]
        simp [stream0, stream1, htwo] at hnonempty ⊢
        simp [hnonempty]
      · intro reader hsetup
        have htwoR : reader.useTwoCoders = true := by rw [hsetup.2, htwo]
        refine ⟨{ reader with
          decoder0 := R.setStream (mergeStreams stream0 stream1)
          decoder1 := R.setStream (mergeStreams stream0 stream1).reverse
          streamSet := true }, ?_, ?_, hsetup⟩
        · simp [setStream, require, hlength, htwoR]
        · refine ⟨rfl, ?_, ?_, ?_⟩
          · have hread := hreads0 tail0
            rw [← hmerge0, htwo] at hread
            simpa [hsetup.1, htwoR] using hread
          · intro _
            have hread := hreads1 tail1
            rw [← hmerge1] at hread
            simpa [hsetup.1] using hread
          · simpa [hsetup.1, htwoR, htwo] using h.validBatches

/-- Reading the rows of the next batch returns its symbols and leaves the later batches. -/
theorem Delivers.pulled {codec : RansCodec R} {batch : List CodedSymbol}
    {batches : List (List CodedSymbol)} (h : codec.Delivers (batch :: batches)) :
    (codec.pulled ((firstPart codec.useTwoCoders batch).map address)
      ((secondPart batch).map address)).1 = batch.map CodedSymbol.symbol ∧
    (codec.pulled ((firstPart codec.useTwoCoders batch).map address)
      ((secondPart batch).map address)).2.Delivers batches ∧
    SameSetup codec (codec.pulled ((firstPart codec.useTwoCoders batch).map address)
      ((secondPart batch).map address)).2 := by
  have hread0 := h.reads0
  rw [List.flatMap_cons] at hread0
  obtain ⟨hsymbols0, hrest0⟩ := hread0.append
  have hlater : ∀ other ∈ batches, ValidBatch codec.tables codec.useTwoCoders other :=
    fun other hother => h.validBatches other (List.mem_cons_of_mem batch hother)
  cases htwo : codec.useTwoCoders with
  | false =>
      rw [htwo] at hsymbols0 hrest0 hlater
      simp only [RansCodec.pulled, htwo, Bool.false_eq_true, if_false]
      refine ⟨hsymbols0, ⟨h.streamSet, ?_, ?_, ?_⟩, rfl, htwo.symm⟩
      · simpa [htwo] using hrest0
      · exact fun htwo' => (nomatch htwo')
      · simpa [htwo] using hlater
  | true =>
      have hread1 := h.reads1 htwo
      rw [List.flatMap_cons] at hread1
      obtain ⟨hsymbols1, hrest1⟩ := hread1.append
      rw [htwo] at hsymbols0 hrest0 hlater
      simp only [RansCodec.pulled, htwo, if_true]
      refine ⟨?_, ⟨h.streamSet, ?_, ?_, ?_⟩, rfl, htwo.symm⟩
      · rw [hsymbols0, hsymbols1, ← List.map_append, firstPart, if_pos rfl, secondPart,
          List.take_append_drop]
      · simpa [htwo] using hrest0
      · intro _
        exact hrest1
      · simpa [htwo] using hlater

/-- Skipping an empty batch. -/
theorem Delivers.of_nil_cons {codec : RansCodec R} {batches : List (List CodedSymbol)}
    (h : codec.Delivers ([] :: batches)) : codec.Delivers batches where
  streamSet := h.streamSet
  reads0 := by
    have hread := h.reads0
    simpa [firstPart] using hread
  reads1 := by
    intro htwo
    have hread := h.reads1 htwo
    simpa [secondPart] using hread
  validBatches := fun other hother => h.validBatches other (List.mem_cons_of_mem [] hother)

/-- Decoding with the rows that y symbols were encoded with returns those symbols. -/
theorem decodeY_delivers {codec : RansCodec R} {batches : List (List CodedSymbol)}
    {combined : List Int16} {indexes : List UInt8} {group : ℕ}
    (h : codec.Delivers (codedY group combined :: batches))
    (hrows : indexes.map UInt8.toNat = combined.map combinedRow)
    (haccepts : AcceptsY codec.tables codec.useTwoCoders group (combined.map combinedRow)) :
    ∃ codec', codec.decodeY indexes group = .ok (combined.map combinedSymbol, codec') ∧
      codec'.Delivers batches ∧ SameSetup codec codec' := by
  obtain ⟨table, htable, hvalid, hsplit⟩ := haccepts
  have hlength : indexes.length = combined.length := by
    simpa using congrArg List.length hrows
  have hrequired : ∀ row ∈ indexes, row.toNat < table.rows := by
    intro row hrow
    apply hvalid
    rw [← hrows]
    exact List.mem_map_of_mem hrow
  by_cases hnil : indexes = []
  · have hcombined : combined = [] := by
      apply List.length_eq_zero_iff.mp
      rw [← hlength, hnil, List.length_nil]
    subst hnil hcombined
    refine ⟨codec, ?_, h.of_nil_cons, rfl, rfl⟩
    simp [decodeY, groupRows_of_getElem? htable, require, h.streamSet]
  · have hne : combined.map combinedRow ≠ [] := by
      rw [← hrows]
      simpa using hnil
    have henough : ¬ (codec.useTwoCoders = true ∧ indexes.length < 2) := by
      rintro ⟨htwo, hshort⟩
      have := hsplit htwo hne
      rw [List.length_map] at this
      omega
    have haddresses : ∀ f : List ℕ → List ℕ,
        (f (indexes.map UInt8.toNat)).map (fun row => (group, row)) =
          (f (combined.map combinedRow)).map (fun row => (group, row)) := by
      intro f
      rw [hrows]
    have hfirst : (indexes.take
        (if codec.useTwoCoders then indexes.length / 2 else indexes.length)).map
          (fun row => (group, row.toNat)) =
        (firstPart codec.useTwoCoders (codedY group combined)).map address := by
      rw [firstPart, codedY_length, ← hlength]
      cases codec.useTwoCoders with
      | true =>
          have htake := haddresses (List.take (indexes.length / 2))
          simpa [codedY, ← List.map_take, Function.comp_def, address] using htake
      | false =>
          have hall := haddresses id
          simpa [codedY, Function.comp_def, address] using hall
    have hsecond : (indexes.drop (indexes.length / 2)).map (fun row => (group, row.toNat)) =
        (secondPart (codedY group combined)).map address := by
      have hdrop := haddresses (List.drop (indexes.length / 2))
      rw [secondPart, codedY_length, ← hlength]
      simpa [codedY, ← List.map_drop, Function.comp_def, address] using hdrop
    obtain ⟨hsymbols, hdelivers, hsetup⟩ := h.pulled
    refine ⟨_, ?_, hdelivers, hsetup⟩
    simp only [decodeY, groupRows_of_getElem? htable, ok_bind, require, h.streamSet, if_true,
      if_pos hrequired, List.isEmpty_iff, if_neg hnil, if_pos henough, hfirst, hsecond]
    have hcoded : (codedY group combined).map CodedSymbol.symbol =
        combined.map combinedSymbol := by
      simp [codedY]
    exact congrArg Except.ok (Prod.ext (hsymbols.trans hcoded) rfl)

theorem codedZ_map_address (group startOffset perChannelSize : ℕ) (symbols : List Int8) :
    (codedZ group startOffset perChannelSize symbols).map address =
      addressesZ group startOffset perChannelSize symbols.length := by
  apply List.ext_getElem
  · simp [addressesZ]
  · intro index h₁ h₂
    simp [codedZ, addressesZ, address]

theorem codedZ_map_symbol (group startOffset perChannelSize : ℕ) (symbols : List Int8) :
    (codedZ group startOffset perChannelSize symbols).map CodedSymbol.symbol = symbols := by
  apply List.ext_getElem
  · simp
  · intro index h₁ h₂
    simp [codedZ]

/-- Decoding as many z symbols as were encoded returns those symbols. -/
theorem decodeZ_delivers {codec : RansCodec R} {batches : List (List CodedSymbol)}
    {symbols : List Int8} {group startOffset perChannelSize : ℕ}
    (h : codec.Delivers (codedZ group startOffset perChannelSize symbols :: batches))
    (haccepts : AcceptsZ codec.tables codec.useTwoCoders group startOffset perChannelSize
      symbols.length) :
    ∃ codec', codec.decodeZ symbols.length group startOffset perChannelSize =
        .ok (symbols, codec') ∧
      codec'.Delivers batches ∧ SameSetup codec codec' := by
  obtain ⟨table, htable, hchannels, hfit, hsplit⟩ := haccepts
  by_cases hnil : symbols = []
  · subst hnil
    refine ⟨codec, ?_, h.of_nil_cons, rfl, rfl⟩
    simp only [decodeZ, groupRows_of_getElem? htable, ok_bind, require, h.streamSet, if_true,
      if_pos hchannels, if_pos hfit]
    rfl
  · have hcount : symbols.length ≠ 0 := by simpa using hnil
    have henough : ¬ (codec.useTwoCoders = true ∧
        (symbols.length / 2 = 0 ∨ symbols.length / 2 % perChannelSize ≠ 0)) := by
      rintro ⟨htwo, hzero | hodd⟩
      · exact (hsplit htwo hcount).1 hzero
      · exact hodd (hsplit htwo hcount).2
    have hfirst : addressesZ group startOffset perChannelSize
        (if codec.useTwoCoders then symbols.length / 2 else symbols.length) =
        (firstPart codec.useTwoCoders (codedZ group startOffset perChannelSize symbols)).map
          address := by
      rw [firstPart, codedZ_length]
      split
      · rw [← codedZ_take, codedZ_map_address, List.length_take]
        congr 1
        omega
      · rw [codedZ_map_address]
    have hsecond : ∀ first, codec.pulled first
        (addressesZ group (startOffset + symbols.length / 2 / perChannelSize) perChannelSize
          (symbols.length - symbols.length / 2)) =
        codec.pulled first
          ((secondPart (codedZ group startOffset perChannelSize symbols)).map address) := by
      intro first
      cases htwo : codec.useTwoCoders with
      | false => simp [RansCodec.pulled, htwo]
      | true =>
          rw [secondPart, codedZ_length, ← codedZ_drop hchannels.1 (hsplit htwo hcount).2,
            codedZ_map_address, List.length_drop]
    obtain ⟨hsymbols, hdelivers, hsetup⟩ := h.pulled
    refine ⟨_, ?_, hdelivers, hsetup⟩
    simp only [decodeZ, groupRows_of_getElem? htable, ok_bind, require, h.streamSet, if_true,
      if_pos hchannels, if_pos hfit, if_neg hcount, if_pos henough, hfirst, hsecond]
    rw [codedZ_map_symbol] at hsymbols
    exact congrArg Except.ok (Prod.ext hsymbols rfl)

end RansCodec

end Nvcr.Rt
