import Nvcr.RtRansCodec

/-!
# Restarting an entropy session

An entropy session is used in turn to encode and to decode. Both uses start with calls that
leave nothing of the session but its tables, so that what follows does not depend on its past.
-/

namespace Nvcr.Rt

open StatefulResults

namespace RansCodec

variable {R : RansCoder} {α : Type}

/-- The same session with other decoders. -/
def withDecoders (codec : RansCodec R) (decoder0 decoder1 : R.Decoder) (streamSet : Bool) :
    RansCodec R :=
  { codec with decoder0 := decoder0, decoder1 := decoder1, streamSet := streamSet }

/-- The same session with other encoders, and another second decoder where it is not used. -/
def withEncoders (codec : RansCodec R) (encoder0 encoder1 : List CodedSymbol)
    (hasSymbols finished : Bool) (decoder1 : R.Decoder) : RansCodec R :=
  { codec with
    encoder0 := encoder0
    encoder1 := encoder1
    encoderHasSymbols := hasSymbols
    encoderFinished := finished
    decoder1 := if codec.useTwoCoders then codec.decoder1 else decoder1 }

/-- Two sessions with the given tables. -/
def SameTables (tables : List RansCdfTable) (codec codec' : RansCodec R) : Prop :=
  codec.tables = tables ∧ codec'.tables = tables

/-- Two sessions that encode alike. -/
def SameEncoder (tables : List RansCdfTable) (codec codec' : RansCodec R) : Prop :=
  codec.tables = tables ∧ ∃ decoder0 decoder1 streamSet,
    codec' = codec.withDecoders decoder0 decoder1 streamSet

/-- Two sessions that decode alike. -/
def SameDecoder (tables : List RansCdfTable) (codec codec' : RansCodec R) : Prop :=
  codec.tables = tables ∧ ∃ encoder0 encoder1 hasSymbols finished decoder1,
    codec' = codec.withEncoders encoder0 encoder1 hasSymbols finished decoder1

/-- A call has the same result in sessions related by `r` and leaves sessions related by `q`. -/
def StepRelates (r q : RansCodec R → RansCodec R → Prop)
    (step : RansCodec R → Result (α × RansCodec R)) : Prop :=
  ∀ codec codec', r codec codec' →
    (∃ value later later', step codec = .ok (value, later) ∧ step codec' = .ok (value, later') ∧
        q later later') ∨
      ∃ e, step codec = .error e ∧ step codec' = .error e

variable {tables : List RansCdfTable} {codec codec' : RansCodec R}

theorem SameEncoder.sameTables (h : SameEncoder tables codec codec') :
    SameTables tables codec codec' := by
  obtain ⟨htables, _, _, _, rfl⟩ := h
  exact ⟨htables, htables⟩

theorem SameDecoder.sameTables (h : SameDecoder tables codec codec') :
    SameTables tables codec codec' := by
  obtain ⟨htables, _, _, _, _, _, rfl⟩ := h
  exact ⟨htables, htables⟩

/-- Starting an encode session forgets everything but the tables. -/
theorem stepRelates_beginEncode (tables : List RansCdfTable) (twoCoders : Bool) :
    StepRelates (R := R) (SameTables tables) (SameEncoder tables) fun rans =>
      (Prod.mk ()) <$> rans.resetEncoder.setUseTwoCoders twoCoders := by
  rintro ⟨_, _, _, _, _, _, _, _, _⟩ ⟨_, _, _, decoder0, decoder1, _, _, _, streamSet⟩ ⟨rfl, rfl⟩
  exact .inl ⟨(), _, _, rfl, rfl, rfl, decoder0, decoder1, streamSet, rfl⟩

/-- The session that reads a stream from its start. -/
def decoding (codec : RansCodec R) (twoCoders : Bool) (stream : Bytes) : RansCodec R where
  tables := codec.tables
  decoder0 := R.setStream stream
  decoder1 := if twoCoders then R.setStream stream.reverse else codec.decoder1
  useTwoCoders := twoCoders
  streamSet := true

/-- Starting a decode session forgets everything but the tables. -/
theorem stepRelates_beginDecode (tables : List RansCdfTable) (twoCoders : Bool) (stream : Bytes) :
    StepRelates (R := R) (SameTables tables) (SameDecoder tables) (fun rans => do
      let rans ← rans.resetEncoder.setUseTwoCoders twoCoders
      let rans ← rans.setStream stream
      pure ((), rans)) := by
  rintro codec codec' ⟨htables, htables'⟩
  by_cases hlength : 4 ≤ stream.length
  · refine .inl ⟨(), codec.decoding twoCoders stream, codec'.decoding twoCoders stream, ?_, ?_,
      htables, [], [], false, false, codec'.decoder1, ?_⟩
    · simp only [resetEncoder, setUseTwoCoders, setStream, require, if_pos hlength]
      rfl
    · simp only [resetEncoder, setUseTwoCoders, setStream, require, if_pos hlength]
      rfl
    · simp only [decoding, withEncoders, htables, htables']
      cases twoCoders <;> rfl
  · refine .inr
      ⟨⟨.malformedBitstream, "rANS stream is shorter than its state", "dcvcrt.rans"⟩, ?_, ?_⟩
    · simp only [resetEncoder, setUseTwoCoders, setStream, require, if_neg hlength]
      rfl
    · simp only [resetEncoder, setUseTwoCoders, setStream, require, if_neg hlength]
      rfl

theorem encodeY_withDecoders (codec : RansCodec R) (combined : List Int16) (group : ℕ)
    (decoder0 decoder1 : R.Decoder) (streamSet : Bool) :
    (codec.withDecoders decoder0 decoder1 streamSet).encodeY combined group =
      (withDecoders · decoder0 decoder1 streamSet) <$> codec.encodeY combined group := by
  simp only [encodeY, map_bind, apply_ite, map_pure]
  rfl

theorem encodeZ_withDecoders (codec : RansCodec R) (symbols : List Int8)
    (group startOffset perChannelSize : ℕ) (decoder0 decoder1 : R.Decoder) (streamSet : Bool) :
    (codec.withDecoders decoder0 decoder1 streamSet).encodeZ symbols group startOffset
        perChannelSize =
      (withDecoders · decoder0 decoder1 streamSet) <$>
        codec.encodeZ symbols group startOffset perChannelSize := by
  simp only [encodeZ, map_bind, apply_ite, map_pure]
  rfl

theorem finishEncode_withDecoders (codec : RansCodec R) (decoder0 decoder1 : R.Decoder)
    (streamSet : Bool) :
    (codec.withDecoders decoder0 decoder1 streamSet).finishEncode =
      Prod.map id (withDecoders · decoder0 decoder1 streamSet) <$> codec.finishEncode := by
  obtain ⟨_, _, _, _, _, two, hasSymbols, finished, _⟩ := codec
  cases finished with
  | true => rfl
  | false =>
      cases hasSymbols with
      | false => rfl
      | true =>
          cases two with
          | false => rfl
          | true =>
              simp only [finishEncode, withDecoders, not_true, if_false, map_bind, map_pure]
              rfl

theorem pulled_withEncoders (codec : RansCodec R) (first second : List (ℕ × ℕ))
    (encoder0 encoder1 : List CodedSymbol) (hasSymbols finished : Bool) (decoder1 : R.Decoder) :
    (codec.withEncoders encoder0 encoder1 hasSymbols finished decoder1).pulled first second =
      Prod.map id (withEncoders · encoder0 encoder1 hasSymbols finished decoder1)
        (codec.pulled first second) := by
  obtain ⟨_, _, _, _, _, two, _, _, _⟩ := codec
  cases two <;> rfl

theorem decodeY_withEncoders (codec : RansCodec R) (indexes : List UInt8) (group : ℕ)
    (encoder0 encoder1 : List CodedSymbol) (hasSymbols finished : Bool) (decoder1 : R.Decoder) :
    (codec.withEncoders encoder0 encoder1 hasSymbols finished decoder1).decodeY indexes group =
      Prod.map id (withEncoders · encoder0 encoder1 hasSymbols finished decoder1) <$>
        codec.decodeY indexes group := by
  simp only [decodeY, map_bind, apply_ite, map_pure, pulled_withEncoders]
  rfl

theorem decodeZ_withEncoders (codec : RansCodec R)
    (symbolCount group startOffset perChannelSize : ℕ) (encoder0 encoder1 : List CodedSymbol)
    (hasSymbols finished : Bool) (decoder1 : R.Decoder) :
    (codec.withEncoders encoder0 encoder1 hasSymbols finished decoder1).decodeZ symbolCount group
        startOffset perChannelSize =
      Prod.map id (withEncoders · encoder0 encoder1 hasSymbols finished decoder1) <$>
        codec.decodeZ symbolCount group startOffset perChannelSize := by
  simp only [decodeZ, map_bind, apply_ite, map_pure, pulled_withEncoders]
  rfl

/-- A call that commutes with a change of the session relates the session to the changed one. -/
theorem stepRelates_of_map {r : RansCodec R → RansCodec R → Prop}
    {step : RansCodec R → Result (α × RansCodec R)}
    (h : ∀ codec codec', r codec codec' → ∃ change : RansCodec R → RansCodec R,
      step codec' = Prod.map id change <$> step codec ∧
      ∀ value later, step codec = .ok (value, later) → r later (change later)) :
    StepRelates r r step := by
  intro codec codec' hrelated
  obtain ⟨change, hmap, hlater⟩ := h codec codec' hrelated
  rw [hmap]
  cases hstep : step codec with
  | error e => exact .inr ⟨e, rfl, rfl⟩
  | ok result => exact .inl ⟨result.1, result.2, change result.2, rfl, rfl, hlater _ _ hstep⟩

theorem encodeY_tables {combined : List Int16} {group : ℕ}
    (h : codec.encodeY combined group = .ok codec') : codec'.tables = codec.tables := by
  simp only [encodeY, bind_eq_ok] at h
  obtain ⟨_, -, _, -, _, -, h⟩ := h
  split at h
  · cases h
    rfl
  · obtain ⟨_, -, h⟩ := bind_eq_ok.mp h
    cases h
    rfl

theorem encodeZ_tables {symbols : List Int8} {group startOffset perChannelSize : ℕ}
    (h : codec.encodeZ symbols group startOffset perChannelSize = .ok codec') :
    codec'.tables = codec.tables := by
  simp only [encodeZ, bind_eq_ok] at h
  obtain ⟨_, -, _, -, _, -, _, -, h⟩ := h
  split at h
  · cases h
    rfl
  · obtain ⟨_, -, h⟩ := bind_eq_ok.mp h
    cases h
    rfl

theorem finishEncode_tables {stream : Bytes} (h : codec.finishEncode = .ok (stream, codec')) :
    codec'.tables = codec.tables := by
  simp only [finishEncode, bind_eq_ok] at h
  obtain ⟨_, -, h⟩ := h
  split at h
  · cases h
    rfl
  · split at h
    · cases h
      rfl
    · obtain ⟨_, -, h⟩ := bind_eq_ok.mp h
      cases h
      rfl

theorem pulled_tables (first second : List (ℕ × ℕ)) :
    (codec.pulled first second).2.tables = codec.tables := by
  simp only [pulled]
  split
  · rfl
  · rfl

theorem decodeY_tables {indexes : List UInt8} {group : ℕ} {symbols : List Int8}
    (h : codec.decodeY indexes group = .ok (symbols, codec')) : codec'.tables = codec.tables := by
  simp only [decodeY, bind_eq_ok] at h
  obtain ⟨_, -, _, -, _, -, h⟩ := h
  split at h
  · cases h
    rfl
  · obtain ⟨_, -, h⟩ := bind_eq_ok.mp h
    have hlater : (symbols, codec').2 = _ := congrArg Prod.snd (Except.ok.inj h).symm
    exact (congrArg tables hlater).trans (pulled_tables _ _)

theorem decodeZ_tables {symbolCount group startOffset perChannelSize : ℕ} {symbols : List Int8}
    (h : codec.decodeZ symbolCount group startOffset perChannelSize = .ok (symbols, codec')) :
    codec'.tables = codec.tables := by
  simp only [decodeZ, bind_eq_ok] at h
  obtain ⟨_, -, _, -, _, -, _, -, h⟩ := h
  split at h
  · cases h
    rfl
  · obtain ⟨_, -, h⟩ := bind_eq_ok.mp h
    have hlater : (symbols, codec').2 = _ := congrArg Prod.snd (Except.ok.inj h).symm
    exact (congrArg tables hlater).trans (pulled_tables _ _)

variable (tables)

theorem stepRelates_encodeZ (symbols : List Int8) (group startOffset perChannelSize : ℕ) :
    StepRelates (R := R) (SameEncoder tables) (SameEncoder tables) (fun rans =>
      (Prod.mk ()) <$> rans.encodeZ symbols group startOffset perChannelSize) := by
  refine stepRelates_of_map ?_
  rintro codec codec' ⟨htables, decoder0, decoder1, streamSet, rfl⟩
  refine ⟨(withDecoders · decoder0 decoder1 streamSet), ?_, ?_⟩
  · rw [encodeZ_withDecoders]
    cases codec.encodeZ symbols group startOffset perChannelSize <;> rfl
  · intro value later hstep
    cases hencode : codec.encodeZ symbols group startOffset perChannelSize with
    | error e =>
        rw [hencode] at hstep
        cases hstep
    | ok encoded =>
        rw [hencode] at hstep
        cases hstep
        exact ⟨(encodeZ_tables hencode).trans htables, decoder0, decoder1, streamSet, rfl⟩

theorem stepRelates_encodeY (combined : List Int16) (group : ℕ) :
    StepRelates (R := R) (SameEncoder tables) (SameEncoder tables) (fun rans =>
      (Prod.mk ()) <$> rans.encodeY combined group) := by
  refine stepRelates_of_map ?_
  rintro codec codec' ⟨htables, decoder0, decoder1, streamSet, rfl⟩
  refine ⟨(withDecoders · decoder0 decoder1 streamSet), ?_, ?_⟩
  · rw [encodeY_withDecoders]
    cases codec.encodeY combined group <;> rfl
  · intro value later hstep
    cases hencode : codec.encodeY combined group with
    | error e =>
        rw [hencode] at hstep
        cases hstep
    | ok encoded =>
        rw [hencode] at hstep
        cases hstep
        exact ⟨(encodeY_tables hencode).trans htables, decoder0, decoder1, streamSet, rfl⟩

theorem stepRelates_finishEncode :
    StepRelates (R := R) (SameEncoder tables) (SameEncoder tables) finishEncode := by
  refine stepRelates_of_map ?_
  rintro codec codec' ⟨htables, decoder0, decoder1, streamSet, rfl⟩
  refine ⟨(withDecoders · decoder0 decoder1 streamSet), finishEncode_withDecoders _ _ _ _, ?_⟩
  intro value later hstep
  exact ⟨(finishEncode_tables hstep).trans htables, decoder0, decoder1, streamSet, rfl⟩

theorem stepRelates_decodeZ (symbolCount group startOffset perChannelSize : ℕ) :
    StepRelates (R := R) (SameDecoder tables) (SameDecoder tables) (fun rans =>
      rans.decodeZ symbolCount group startOffset perChannelSize) := by
  refine stepRelates_of_map ?_
  rintro codec codec' ⟨htables, encoder0, encoder1, hasSymbols, finished, decoder1, rfl⟩
  refine ⟨(withEncoders · encoder0 encoder1 hasSymbols finished decoder1),
    decodeZ_withEncoders .., ?_⟩
  intro value later hstep
  exact ⟨(decodeZ_tables hstep).trans htables, encoder0, encoder1, hasSymbols, finished, decoder1,
    rfl⟩

theorem stepRelates_decodeY (indexes : List UInt8) (group : ℕ) :
    StepRelates (R := R) (SameDecoder tables) (SameDecoder tables) (fun rans =>
      rans.decodeY indexes group) := by
  refine stepRelates_of_map ?_
  rintro codec codec' ⟨htables, encoder0, encoder1, hasSymbols, finished, decoder1, rfl⟩
  refine ⟨(withEncoders · encoder0 encoder1 hasSymbols finished decoder1),
    decodeY_withEncoders .., ?_⟩
  intro value later hstep
  exact ⟨(decodeY_tables hstep).trans htables, encoder0, encoder1, hasSymbols, finished, decoder1,
    rfl⟩

end RansCodec

end Nvcr.Rt
