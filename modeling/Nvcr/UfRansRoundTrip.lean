import Nvcr.UfRansCodec
import Nvcr.RtRansRoundTrip

/-!
# What the DCVC-UF entropy session encodes it decodes

The vendored coder is assumed to pop from one sub-stream what was pushed, last symbol first, and
to ignore what follows the stream. Every call of the session is a batch of symbols that is split
over the sub-coders; the invariants say which batches the sub-encoders hold and which the
sub-decoders still deliver.
-/

namespace Nvcr.Uf

open LittleEndian StatefulResults

namespace UfCodedSymbol

def address (coded : UfCodedSymbol) : ℕ × ℕ := (coded.group, coded.row)

/-- The group is registered and has the row. -/
def Valid (groups : List UfGroup) (coded : UfCodedSymbol) : Prop :=
  ∃ group, groups[coded.group]? = some group ∧ coded.row < group.cdfs.length

end UfCodedSymbol

open UfCodedSymbol (address)

namespace UfRansCoder

variable {R : UfRansCoder} {groups : List UfGroup} {decoder : R.Decoder}

/-- A decoder that pops the given symbols when asked for their rows, without leaving its stream. -/
def Pops (groups : List UfGroup) : R.Decoder → List UfCodedSymbol → Prop
  | decoder, [] => R.overrun decoder = false
  | decoder, coded :: later =>
      R.overrun decoder = false ∧
      (R.decodeSymbol groups decoder coded.group coded.row).1 = coded.symbol ∧
      Pops groups (R.decodeSymbol groups decoder coded.group coded.row).2 later

/-- The assumption on the vendored coder with given tables: last in, first out, with at least the
four bytes of a coder state, and indifferent to bytes behind the stream. -/
structure LifoInverse (R : UfRansCoder) (groups : List UfGroup) : Prop where
  pops_flush : ∀ pushes tail, (∀ coded ∈ pushes, coded.Valid groups) →
    Pops groups (R.setStream (R.flush groups pushes ++ tail)) pushes.reverse
  flush_length : ∀ pushes, 4 ≤ (R.flush groups pushes).length

theorem Pops.overrun_eq_false {pops : List UfCodedSymbol} (h : Pops groups decoder pops) :
    R.overrun decoder = false := by
  cases pops with
  | nil => exact h
  | cons coded later => exact h.1

/-- Popping a front part leaves a decoder that pops the rest. -/
theorem Pops.append {first second : List UfCodedSymbol}
    (h : Pops groups decoder (first ++ second)) :
    (R.decodeMany groups decoder (first.map address)).1 = first.map UfCodedSymbol.symbol ∧
      Pops groups (R.decodeMany groups decoder (first.map address)).2 second := by
  induction first generalizing decoder with
  | nil => exact ⟨rfl, h⟩
  | cons coded first ih =>
      obtain ⟨hinside, hsymbol, hlater⟩ := h
      obtain ⟨hsymbols, hpops⟩ := ih hlater
      simp only [List.map_cons, address, decodeMany, hinside, Bool.false_eq_true, if_false]
      exact ⟨List.cons_eq_cons.mpr ⟨hsymbol, hsymbols⟩, hpops⟩

end UfRansCoder

open UfRansCoder

namespace UfRansCodec

variable {R : UfRansCoder}

section Splitting

variable {α β : Type}

theorem part_map (f : α → β) (parallel : ℕ) (batch : List α) (index : ℕ) :
    part parallel (batch.map f) index = (part parallel batch index).map f := by
  simp only [part, List.length_map]
  split <;> simp [List.map_take, List.map_drop]

@[simp] theorem part_nil (parallel index : ℕ) : part parallel ([] : List α) index = [] := by
  simp [part]

theorem mem_of_mem_part {parallel index : ℕ} {batch : List α} {a : α}
    (h : a ∈ part parallel batch index) : a ∈ batch := by
  simp only [part] at h
  split at h
  · exact List.mem_of_mem_drop (List.mem_of_mem_take h)
  · exact List.mem_of_mem_drop h

/-- All parts but the last are consecutive blocks of the base size. -/
theorem flatMap_part_of_lt {parallel count : ℕ} (batch : List α) (h : count < parallel) :
    (List.range count).flatMap (part parallel batch) =
      batch.take (batch.length / parallel * count) := by
  induction count with
  | zero => simp
  | succ count ih =>
      have hpart : part parallel batch count =
          (batch.drop (batch.length / parallel * count)).take (batch.length / parallel) := by
        simp [part, h]
      rw [List.range_succ, List.flatMap_append, ih (by omega), List.flatMap_singleton, hpart,
        Nat.mul_succ, List.take_add]

/-- The parts of a call, in order, are the call. -/
theorem flatMap_part {parallel : ℕ} (batch : List α) (h : 0 < parallel) :
    (List.range parallel).flatMap (part parallel batch) = batch := by
  obtain ⟨count, rfl⟩ : ∃ count, parallel = count + 1 := ⟨parallel - 1, by omega⟩
  have hlast : part (count + 1) batch count =
      batch.drop (batch.length / (count + 1) * count) := by
    simp [part]
  rw [List.range_succ, List.flatMap_append, flatMap_part_of_lt batch (by omega),
    List.flatMap_singleton, hlast, List.take_append_drop]

theorem mapIdx_map_range (f : ℕ → α) (g : ℕ → α → β) (count : ℕ) :
    ((List.range count).map f).mapIdx g = (List.range count).map fun index => g index (f index) := by
  apply List.ext_getElem
  · simp
  · intro index h₁ h₂
    simp

end Splitting

/-- What a sub-encoder holds after some batches. -/
def pushes (parallel : ℕ) (batches : List (List UfCodedSymbol)) (index : ℕ) : List UfCodedSymbol :=
  batches.flatMap fun batch => (part parallel batch index).reverse

/-- What a sub-decoder has to deliver for some batches. -/
def pops (parallel : ℕ) (batches : List (List UfCodedSymbol)) (index : ℕ) : List UfCodedSymbol :=
  batches.flatMap fun batch => part parallel batch index

theorem reverse_pushes (parallel : ℕ) (batches : List (List UfCodedSymbol)) (index : ℕ) :
    (pushes parallel batches index).reverse = pops parallel batches.reverse index := by
  rw [pushes, pops, List.reverse_flatMap]
  congr 1
  funext batch
  simp

theorem valid_of_mem_pushes {groups : List UfGroup} {parallel index : ℕ}
    {batches : List (List UfCodedSymbol)}
    (h : ∀ batch ∈ batches, ∀ coded ∈ batch, coded.Valid groups) :
    ∀ coded ∈ pushes parallel batches index, coded.Valid groups := by
  intro coded hmem
  obtain ⟨batch, hbatch, hpart⟩ := List.mem_flatMap.mp hmem
  exact h batch hbatch coded (mem_of_mem_part (List.mem_reverse.mp hpart))

/-- The sub-encoders hold exactly the given batches. -/
structure Holds (codec : UfRansCodec R) (batches : List (List UfCodedSymbol)) : Prop where
  encoders : codec.encoders = (List.range codec.parallel).map (pushes codec.parallel batches)
  hasSymbols : codec.encoderHasSymbols = decide (batches.flatten ≠ [])
  notFinished : codec.encoderFinished = false
  validBatches : ∀ batch ∈ batches, ∀ coded ∈ batch, coded.Valid codec.groups

/-- The sub-decoders will return exactly the given batches. -/
structure Delivers (codec : UfRansCodec R) (batches : List (List UfCodedSymbol)) : Prop where
  streamSet : codec.streamSet = true
  positive : 0 < codec.parallel
  decoders : ∃ decoder : ℕ → R.Decoder,
    codec.decoders = (List.range codec.parallel).map decoder ∧
    ∀ index < codec.parallel, Pops codec.groups (decoder index) (pops codec.parallel batches index)

/-- The tables and the number of coders, which coding and decoding leave alone. -/
def SameSetup (codec codec' : UfRansCodec R) : Prop :=
  codec'.tables = codec.tables ∧ codec'.parallel = codec.parallel

theorem SameSetup.groups_eq {codec codec' : UfRansCodec R} (h : SameSetup codec codec') :
    codec'.groups = codec.groups := by
  rw [groups, groups, h.1]

section Pushing

variable {codec : UfRansCodec R} {batches : List (List UfCodedSymbol)}

/-- Pushing a valid batch extends what the encoders hold by that batch. -/
theorem Holds.pushed (h : codec.Holds batches) {batch : List UfCodedSymbol}
    (hvalid : ∀ coded ∈ batch, coded.Valid codec.groups) (hne : batch ≠ []) :
    (codec.pushed batch).Holds (batches ++ [batch]) where
  encoders := by
    simp only [UfRansCodec.pushed, h.encoders, mapIdx_map_range]
    refine List.map_congr_left fun index _ => ?_
    simp [pushes, List.flatMap_append]
  hasSymbols := by
    simp [UfRansCodec.pushed, hne]
  notFinished := h.notFinished
  validBatches := by
    intro other hother
    rcases List.mem_append.mp hother with hold | hnew
    · exact h.validBatches other hold
    · rw [List.mem_singleton.mp hnew]
      exact hvalid

/-- An empty batch changes nothing. -/
theorem Holds.append_nil (h : codec.Holds batches) : codec.Holds (batches ++ [[]]) where
  encoders := by
    rw [h.encoders]
    simp [pushes, List.flatMap_append]
  hasSymbols := by
    rw [h.hasSymbols]
    simp
  notFinished := h.notFinished
  validBatches := by
    intro other hother
    rcases List.mem_append.mp hother with hold | hnew
    · exact h.validBatches other hold
    · rw [List.mem_singleton.mp hnew]
      exact fun _ hmem => (nomatch hmem)

end Pushing

/-- Popping the rows of the next batch returns its symbols and leaves the later batches. -/
theorem Delivers.pulled {codec : UfRansCodec R} {batch : List UfCodedSymbol}
    {batches : List (List UfCodedSymbol)} (h : codec.Delivers (batch :: batches)) :
    ∃ codec', codec.pulled (batch.map address) = .ok (batch.map UfCodedSymbol.symbol, codec') ∧
      codec'.Delivers batches ∧ SameSetup codec codec' := by
  obtain ⟨decoder, hdecoders, hpops⟩ := h.decoders
  let result : ℕ → List Int8 × R.Decoder := fun index =>
    R.decodeMany codec.groups (decoder index) ((part codec.parallel batch index).map address)
  have hresults : (codec.decoders.mapIdx fun index decoder =>
      R.decodeMany codec.groups decoder (part codec.parallel (batch.map address) index)) =
      (List.range codec.parallel).map result := by
    rw [hdecoders, mapIdx_map_range]
    simp only [part_map, result]
  have hpopped : ∀ index < codec.parallel,
      (result index).1 = (part codec.parallel batch index).map UfCodedSymbol.symbol ∧
        Pops codec.groups (result index).2 (pops codec.parallel batches index) := by
    intro index hindex
    exact (hpops index hindex).append
  have hinside : ∀ answer ∈ (List.range codec.parallel).map result,
      R.overrun answer.2 = false := by
    intro answer hanswer
    obtain ⟨index, hindex, rfl⟩ := List.mem_map.mp hanswer
    exact (hpopped index (List.mem_range.mp hindex)).2.overrun_eq_false
  have hsymbols : ((List.range codec.parallel).map result).flatMap Prod.fst =
      batch.map UfCodedSymbol.symbol := by
    calc ((List.range codec.parallel).map result).flatMap Prod.fst
        = (List.range codec.parallel).flatMap fun index =>
            (part codec.parallel batch index).map UfCodedSymbol.symbol := by
          rw [List.flatMap_map]
          exact List.flatMap_congr fun index hindex =>
            (hpopped index (List.mem_range.mp hindex)).1
      _ = ((List.range codec.parallel).flatMap (part codec.parallel batch)).map
            UfCodedSymbol.symbol := by
          rw [List.map_flatMap]
      _ = batch.map UfCodedSymbol.symbol := by rw [flatMap_part batch h.positive]
  refine ⟨{ codec with decoders := (List.range codec.parallel).map fun index => (result index).2 },
    ?_, ⟨h.streamSet, h.positive, fun index => (result index).2, rfl, ?_⟩, rfl, rfl⟩
  · simp only [UfRansCodec.pulled, hresults, require, if_pos hinside, hsymbols, List.map_map]
    rfl
  · intro index hindex
    exact (hpopped index hindex).2

/-- What a call with y symbols needs of the tables. -/
def AcceptsY (codec : UfRansCodec R) (cdfGroup : ℕ) (rows : List ℕ) : Prop :=
  (cdfGroup = yCdfGroup ∧ yCdfGroup < codec.tables.length) ∧
    (∀ row ∈ rows, row < codec.cdfRows yCdfGroup) ∧ rows.length ≤ 2 ^ 31 - 1

/-- The channels of a z call have registered rows. -/
def ZRange (codec : UfRansCodec R) (cdfGroup cdfOffset channelCount : ℕ) : Prop :=
  ¬ (cdfGroup ≠ zCdfGroup ∨ codec.tables = []) ∧
    ¬ (channelCount = 0 ∨ cdfOffset > codec.cdfRows zCdfGroup ∨
      channelCount > codec.cdfRows zCdfGroup - cdfOffset)

theorem checkZRange_eq_ok {codec : UfRansCodec R} {cdfGroup cdfOffset channelCount : ℕ} :
    codec.checkZRange cdfGroup cdfOffset channelCount = .ok () ↔
      codec.ZRange cdfGroup cdfOffset channelCount := by
  constructor
  · intro h
    obtain ⟨_, hgroup, hrange⟩ := bind_eq_ok.mp h
    exact ⟨require_eq_ok.mp hgroup, require_eq_ok.mp hrange⟩
  · rintro ⟨hgroup, hrange⟩
    simp only [checkZRange, require, if_pos hgroup, if_pos hrange, ok_bind]

/-- What a call with z symbols needs of the tables. -/
def AcceptsZ (codec : UfRansCodec R) (cdfGroup cdfOffset channelCount count : ℕ) : Prop :=
  codec.ZRange cdfGroup cdfOffset channelCount ∧
    (count ≠ 0 → count ≤ 2 ^ 31 - 1 ∧ cdfOffset ≤ 2 ^ 31 - 1 ∧ channelCount ≤ 2 ^ 31 - 1)

theorem AcceptsY.congr {codec codec' : UfRansCodec R} (hsetup : SameSetup codec codec')
    {cdfGroup : ℕ} {rows : List ℕ} (h : codec.AcceptsY cdfGroup rows) :
    codec'.AcceptsY cdfGroup rows := by
  simpa only [AcceptsY, cdfRows, hsetup.1] using h

theorem AcceptsZ.congr {codec codec' : UfRansCodec R} (hsetup : SameSetup codec codec')
    {cdfGroup cdfOffset channelCount count : ℕ}
    (h : codec.AcceptsZ cdfGroup cdfOffset channelCount count) :
    codec'.AcceptsZ cdfGroup cdfOffset channelCount count := by
  simpa only [AcceptsZ, ZRange, cdfRows, hsetup.1] using h

theorem checkedInt_eq_ok {value value' : ℕ} {name : String} :
    checkedInt value name = .ok value' ↔ value ≤ 2 ^ 31 - 1 ∧ value' = value := by
  constructor
  · intro h
    obtain ⟨_, hfits, hvalue⟩ := bind_eq_ok.mp h
    cases hvalue
    exact ⟨require_eq_ok.mp hfits, rfl⟩
  · rintro ⟨hfits, rfl⟩
    simp only [checkedInt, require, if_pos hfits, ok_bind]
    rfl

/-- A row below the registered count of a group is valid. -/
theorem valid_of_lt_cdfRows {codec : UfRansCodec R} {group row : ℕ} (symbol : Int8)
    (h : row < codec.cdfRows group) : UfCodedSymbol.Valid codec.groups ⟨group, row, symbol⟩ := by
  unfold cdfRows at h
  cases htable : codec.tables[group]? with
  | none => simp [htable] at h
  | some table =>
      refine ⟨table.group, ?_, ?_⟩
      · simp [groups, htable]
      · simpa [htable, UfRansCdfTable.rows, UfRansCdfTable.group] using h

theorem codedY_valid {codec : UfRansCodec R} {symbols : List Int16}
    (h : ∀ packed ∈ symbols, packedRow packed < codec.cdfRows yCdfGroup) :
    ∀ coded ∈ codedY symbols, coded.Valid codec.groups := by
  intro coded hmem
  obtain ⟨packed, hpacked, rfl⟩ := List.mem_map.mp hmem
  exact valid_of_lt_cdfRows _ (h packed hpacked)

theorem codedZ_valid {codec : UfRansCodec R} {cdfGroup cdfOffset channelCount : ℕ}
    (h : codec.ZRange cdfGroup cdfOffset channelCount) (symbols : List Int8) :
    ∀ coded ∈ codedZ cdfOffset channelCount symbols, coded.Valid codec.groups := by
  have hbounds := h.2
  intro coded hmem
  obtain ⟨index, hindex, rfl⟩ := List.mem_mapIdx.mp hmem
  apply valid_of_lt_cdfRows
  have hlt := Nat.mod_lt index (show 0 < channelCount by omega)
  omega

/-- An accepted y call pushes its symbols. -/
theorem encodeY_holds {codec codec' : UfRansCodec R} {batches : List (List UfCodedSymbol)}
    {symbols : List Int16} {cdfGroup : ℕ} (h : codec.Holds batches)
    (hok : codec.encodeY symbols cdfGroup = .ok codec') :
    codec'.Holds (batches ++ [codedY symbols]) ∧ SameSetup codec codec' ∧
      codec.AcceptsY cdfGroup (symbols.map packedRow) := by
  obtain ⟨_, hgroup, hopened⟩ := bind_eq_ok.mp hok
  obtain ⟨_, _, hchecked⟩ := bind_eq_ok.mp hopened
  obtain ⟨_, hrows, hrest⟩ := bind_eq_ok.mp hchecked
  clear hok hopened hchecked
  have hregistered : cdfGroup = yCdfGroup ∧ yCdfGroup < codec.tables.length := by
    simpa using require_eq_ok.mp hgroup
  have hbelow := require_eq_ok.mp hrows
  have hbelow' : ∀ row ∈ symbols.map packedRow, row < codec.cdfRows yCdfGroup := by
    simpa using hbelow
  split at hrest
  · rename_i hempty
    cases hrest
    have hnil := List.isEmpty_iff.mp hempty
    subst hnil
    exact ⟨h.append_nil, ⟨rfl, rfl⟩, hregistered, hbelow', by simp⟩
  · rename_i hempty
    obtain ⟨count, hcount, hpush⟩ := bind_eq_ok.mp hrest
    cases hpush
    have hne : codedY symbols ≠ [] := by simpa [codedY] using hempty
    refine ⟨h.pushed (codedY_valid hbelow) hne, ⟨rfl, rfl⟩, hregistered, hbelow', ?_⟩
    rw [List.length_map]
    exact (checkedInt_eq_ok.mp hcount).1

/-- An accepted z call pushes its symbols with the rows of their channels. -/
theorem encodeZ_holds {codec codec' : UfRansCodec R} {batches : List (List UfCodedSymbol)}
    {symbols : List Int8} {cdfGroup cdfOffset channelCount : ℕ} (h : codec.Holds batches)
    (hok : codec.encodeZ symbols cdfGroup cdfOffset channelCount = .ok codec') :
    codec'.Holds (batches ++ [codedZ cdfOffset channelCount symbols]) ∧ SameSetup codec codec' ∧
      codec.AcceptsZ cdfGroup cdfOffset channelCount symbols.length := by
  obtain ⟨_, hchecked, hopened⟩ := bind_eq_ok.mp hok
  obtain ⟨_, _, hrest⟩ := bind_eq_ok.mp hopened
  have hrange := checkZRange_eq_ok.mp hchecked
  clear hok hopened
  split at hrest
  · rename_i hempty
    cases hrest
    have hnil := List.isEmpty_iff.mp hempty
    subst hnil
    exact ⟨h.append_nil, ⟨rfl, rfl⟩, hrange, fun hne => absurd rfl hne⟩
  · rename_i hempty
    obtain ⟨_, hcount, hoffset⟩ := bind_eq_ok.mp hrest
    obtain ⟨_, hstart, hchannels⟩ := bind_eq_ok.mp hoffset
    obtain ⟨_, hchannel, hpush⟩ := bind_eq_ok.mp hchannels
    cases hpush
    have hne : codedZ cdfOffset channelCount symbols ≠ [] := by simpa [codedZ] using hempty
    exact ⟨h.pushed (codedZ_valid hrange symbols) hne, ⟨rfl, rfl⟩, hrange, fun _ =>
      ⟨(checkedInt_eq_ok.mp hcount).1, (checkedInt_eq_ok.mp hstart).1,
        (checkedInt_eq_ok.mp hchannel).1⟩⟩

theorem Delivers.of_nil_cons {codec : UfRansCodec R} {batches : List (List UfCodedSymbol)}
    (h : codec.Delivers ([] :: batches)) : codec.Delivers batches where
  streamSet := h.streamSet
  positive := h.positive
  decoders := by
    obtain ⟨decoder, hdecoders, hpops⟩ := h.decoders
    exact ⟨decoder, hdecoders, fun index hindex => by simpa [pops] using hpops index hindex⟩

/-- A y call for the rows of the next batch returns its symbols. -/
theorem decodeY_delivers {codec : UfRansCodec R} {batches : List (List UfCodedSymbol)}
    {symbols : List Int16} {indexes : List UInt8} {cdfGroup : ℕ}
    (h : codec.Delivers (codedY symbols :: batches))
    (hindexes : indexes.map UInt8.toNat = symbols.map packedRow)
    (haccepted : codec.AcceptsY cdfGroup (symbols.map packedRow)) :
    ∃ codec', codec.decodeY indexes cdfGroup = .ok (symbols.map packedSymbol, codec') ∧
      codec'.Delivers batches ∧ SameSetup codec codec' := by
  obtain ⟨hregistered, hrows, hfits⟩ := haccepted
  rw [← hindexes] at hrows hfits
  have hlength : indexes.length = symbols.length := by
    simpa using congrArg List.length hindexes
  have hgroup : ¬ (cdfGroup ≠ yCdfGroup ∨ codec.tables.length ≤ yCdfGroup) := by
    simpa using hregistered
  have hbelow : ∀ row ∈ indexes, row.toNat < codec.cdfRows yCdfGroup := by simpa using hrows
  by_cases hnil : symbols = []
  · subst hnil
    have hempty : indexes = [] := List.length_eq_zero_iff.mp hlength
    subst hempty
    refine ⟨codec, ?_, h.of_nil_cons, rfl, rfl⟩
    simp only [decodeY, require, h.streamSet, if_true, ok_bind, if_pos hgroup, if_pos hbelow]
    rfl
  · have hsome : indexes.isEmpty = false := by
      rw [List.isEmpty_eq_false_iff, ← List.length_pos_iff, hlength, List.length_pos_iff]
      exact hnil
    have haddresses : (indexes.map fun row => (yCdfGroup, row.toNat)) =
        (codedY symbols).map address := by
      calc (indexes.map fun row => (yCdfGroup, row.toNat))
          = (indexes.map UInt8.toNat).map (Prod.mk yCdfGroup) := by rw [List.map_map]; rfl
        _ = (symbols.map packedRow).map (Prod.mk yCdfGroup) := by rw [hindexes]
        _ = (codedY symbols).map address := by rw [codedY, List.map_map, List.map_map]; rfl
    have hsymbols : (codedY symbols).map UfCodedSymbol.symbol = symbols.map packedSymbol := by
      rw [codedY, List.map_map]
      rfl
    have hcount : checkedInt indexes.length "y index count" = .ok indexes.length :=
      checkedInt_eq_ok.mpr ⟨by simpa using hfits, rfl⟩
    obtain ⟨codec', hpulled, hdelivers, hsetup⟩ := h.pulled
    refine ⟨codec', ?_, hdelivers, hsetup⟩
    simp only [decodeY, require, h.streamSet, if_true, ok_bind, if_pos hgroup, if_pos hbelow, hsome,
      Bool.false_eq_true, if_false, hcount, haddresses, hpulled, hsymbols]

theorem addressesZ_eq (cdfOffset channelCount : ℕ) (symbols : List Int8) :
    addressesZ cdfOffset channelCount symbols.length =
      (codedZ cdfOffset channelCount symbols).map address := by
  apply List.ext_getElem
  · simp [addressesZ, codedZ]
  · intro index h₁ h₂
    simp [addressesZ, codedZ, address]

/-- A z call for the channels of the next batch returns its symbols. -/
theorem decodeZ_delivers {codec : UfRansCodec R} {batches : List (List UfCodedSymbol)}
    {symbols : List Int8} {cdfGroup cdfOffset channelCount : ℕ}
    (h : codec.Delivers (codedZ cdfOffset channelCount symbols :: batches))
    (haccepted : codec.AcceptsZ cdfGroup cdfOffset channelCount symbols.length) :
    ∃ codec', codec.decodeZ symbols.length cdfGroup cdfOffset channelCount =
        .ok (symbols, codec') ∧
      codec'.Delivers batches ∧ SameSetup codec codec' := by
  obtain ⟨hrange, hfits⟩ := haccepted
  by_cases hnil : symbols = []
  · subst hnil
    refine ⟨codec, ?_, h.of_nil_cons, rfl, rfl⟩
    simp only [decodeZ, require, h.streamSet, if_true, ok_bind, checkZRange_eq_ok.mpr hrange]
    rfl
  · have hsome : symbols.length ≠ 0 := fun hzero => hnil (List.length_eq_zero_iff.mp hzero)
    obtain ⟨hcount, hoffset, hchannels⟩ := hfits hsome
    have hsymbols : (codedZ cdfOffset channelCount symbols).map UfCodedSymbol.symbol = symbols := by
      apply List.ext_getElem
      · simp [codedZ]
      · intro index h₁ h₂
        simp [codedZ]
    obtain ⟨codec', hpulled, hdelivers, hsetup⟩ := h.pulled
    refine ⟨codec', ?_, hdelivers, hsetup⟩
    simp only [decodeZ, require, h.streamSet, if_true, ok_bind,
      checkZRange_eq_ok.mpr hrange, if_neg hsome,
      checkedInt_eq_ok.mpr ⟨hcount, rfl⟩, checkedInt_eq_ok.mpr ⟨hoffset, rfl⟩,
      checkedInt_eq_ok.mpr ⟨hchannels, rfl⟩, addressesZ_eq, hpulled, hsymbols]

end UfRansCodec

end Nvcr.Uf
