import Nvcr.RtRansRoundTrip

/-!
# Whole entropy sessions

A session registers its tables, takes any number of y and z calls, and finishes a stream; a
second session of the same mode with the same tables reads the calls back in order.
-/

namespace Nvcr.Rt

open StatefulResults CodedSymbol RansCoder

/-- An encode call; the decode call for it gets the same group and rows. -/
inductive RansCall where
  | y (combined : List Int16) (group : ℕ)
  | z (symbols : List Int8) (group startOffset perChannelSize : ℕ)
  deriving DecidableEq, Repr

namespace RansCall

def symbols : RansCall → List Int8
  | .y combined _ => combined.map RansCodec.combinedSymbol
  | .z symbols _ _ _ => symbols

def coded : RansCall → List CodedSymbol
  | .y combined group => RansCodec.codedY group combined
  | .z symbols group startOffset perChannelSize =>
      RansCodec.codedZ group startOffset perChannelSize symbols

theorem coded_length (call : RansCall) : call.coded.length = call.symbols.length := by
  cases call with
  | y combined group => simp [coded, symbols]
  | z symbols group startOffset perChannelSize => simp [coded, RansCall.symbols]

/-- What a session with the given tables and mode needs of a call. -/
def Accepted (tables : List RansCdfTable) (two : Bool) : RansCall → Prop
  | .y combined group => RansCodec.AcceptsY tables two group (combined.map RansCodec.combinedRow)
  | .z symbols group startOffset perChannelSize =>
      RansCodec.AcceptsZ tables two group startOffset perChannelSize symbols.length

end RansCall

namespace RansCoder

/-- A symbol as a byte behind padding. -/
def paddedSymbol (padding : ℕ → ℕ) (coded : CodedSymbol) : Bytes :=
  List.replicate (padding coded.row) 0 ++ [coded.symbol.toUInt8]

/-- A coder that spends whole bytes: four for its state, and for each symbol one byte behind
padding that depends on the row. -/
def paddedCoder (padding : ℕ → ℕ) : RansCoder where
  Decoder := Bytes
  idle := []
  flush _ pending := List.replicate 4 0 ++ pending.flatMap (paddedSymbol padding)
  setStream bytes := bytes.drop 4
  decodeSymbol _ bytes _ row :=
    (((bytes.drop (padding row)).head?.map UInt8.toInt8).getD 0, bytes.drop (padding row + 1))

theorem paddedCoder_decodeSymbol (padding : ℕ → ℕ) (tables : List RansCdfTable)
    (coded : CodedSymbol) (group : ℕ) (rest : Bytes) :
    (paddedCoder padding).decodeSymbol tables (paddedSymbol padding coded ++ rest) group coded.row =
      (coded.symbol, rest) := by
  have hnext : (paddedSymbol padding coded ++ rest).drop (padding coded.row) =
      coded.symbol.toUInt8 :: rest := by
    rw [paddedSymbol, List.append_assoc]
    exact List.drop_left' List.length_replicate
  have hrest : (paddedSymbol padding coded ++ rest).drop (padding coded.row + 1) = rest :=
    List.drop_left' (by simp [paddedSymbol])
  simp only [paddedCoder, hnext, hrest, List.head?_cons, Option.map_some, Option.getD_some]
  rfl

theorem paddedCoder_reads (padding : ℕ → ℕ) (tables : List RansCdfTable)
    (pending : List CodedSymbol) (tail : Bytes) :
    Reads (R := paddedCoder padding) tables (pending.flatMap (paddedSymbol padding) ++ tail)
      pending := by
  induction pending with
  | nil => rfl
  | cons coded pending ih =>
      have hfirst := paddedCoder_decodeSymbol padding tables coded coded.group
        (pending.flatMap (paddedSymbol padding) ++ tail)
      unfold Reads at ih ⊢
      rw [List.flatMap_cons, List.append_assoc, List.map_cons, List.map_cons]
      simp only [address, decodeMany, hfirst]
      exact congrArg _ ih

theorem paddedCoder_fifoInverse (padding : ℕ → ℕ) : (paddedCoder padding).FifoInverse where
  decode_flush := by
    intro tables pending tail _ _ _
    have hstream : (paddedCoder padding).setStream
        ((paddedCoder padding).flush tables pending ++ tail) =
          pending.flatMap (paddedSymbol padding) ++ tail := by
      simp only [paddedCoder, List.append_assoc]
      exact List.drop_left' List.length_replicate
    rw [hstream]
    exact paddedCoder_reads padding tables pending tail
  flush_length := by
    intro tables pending _
    simp only [paddedCoder, List.length_append, List.length_replicate]
    omega

end RansCoder

namespace RansCodec

variable {R : RansCoder}

/-- A new session with its mode and tables. -/
def registerTables : RansCodec R → List RansCdfTable → Result (RansCodec R)
  | codec, [] => pure codec
  | codec, table :: tables => do
      let added ← codec.addCdf table
      registerTables added.2 tables

def openSession (two : Bool) (tables : List RansCdfTable) : Result (RansCodec R) := do
  let codec ← setUseTwoCoders {} two
  codec.registerTables tables

def encodeCall (codec : RansCodec R) : RansCall → Result (RansCodec R)
  | .y combined group => codec.encodeY combined group
  | .z symbols group startOffset perChannelSize =>
      codec.encodeZ symbols group startOffset perChannelSize

/-- The rows of the combined symbols, as the decoder gets them. -/
def rowIndexes (combined : List Int16) : List UInt8 :=
  combined.map fun value => UInt8.ofNat (combinedRow value)

def decodeCall (codec : RansCodec R) : RansCall → Result (List Int8 × RansCodec R)
  | .y combined group => codec.decodeY (rowIndexes combined) group
  | .z symbols group startOffset perChannelSize =>
      codec.decodeZ symbols.length group startOffset perChannelSize

def encodeCalls : RansCodec R → List RansCall → Result (RansCodec R)
  | codec, [] => pure codec
  | codec, call :: calls => do
      let next ← codec.encodeCall call
      encodeCalls next calls

def decodeCalls : RansCodec R → List RansCall → Result (List (List Int8) × RansCodec R)
  | codec, [] => pure ([], codec)
  | codec, call :: calls => do
      let first ← codec.decodeCall call
      let later ← decodeCalls first.2 calls
      pure (first.1 :: later.1, later.2)

theorem rowIndexes_toNat (combined : List Int16) :
    (rowIndexes combined).map UInt8.toNat = combined.map combinedRow := by
  rw [rowIndexes, List.map_map]
  refine List.map_congr_left fun value _ => ?_
  have hlt : combinedRow value < 256 := by
    unfold combinedRow
    omega
  simp only [Function.comp_apply, UInt8.toNat_ofNat', Nat.mod_eq_of_lt hlt]

theorem registerTables_eq_ok {codec codec' : RansCodec R} {tables : List RansCdfTable}
    (h : codec.registerTables tables = .ok codec') :
    codec' = { codec with tables := codec.tables ++ tables } ∧
      ∀ table ∈ tables, table.validateCdf = .ok () := by
  induction tables generalizing codec with
  | nil =>
      cases h
      simp
  | cons table tables ih =>
      obtain ⟨added, hadded, hlater⟩ := bind_eq_ok.mp h
      obtain ⟨_, hvalid, hadd⟩ := bind_eq_ok.mp hadded
      cases hadd
      obtain ⟨rfl, htables⟩ := ih hlater
      refine ⟨by simp, ?_⟩
      intro other hother
      rcases List.mem_cons.mp hother with rfl | hmem
      · exact hvalid
      · exact htables other hmem

/-- An opened session holds nothing and has valid tables. -/
theorem openSession_eq_ok {two : Bool} {tables : List RansCdfTable} {codec : RansCodec R}
    (h : openSession two tables = .ok codec) :
    codec.Holds [] ∧ codec.tables = tables ∧ codec.useTwoCoders = two ∧
      ∀ table ∈ tables, table.validateCdf = .ok () := by
  obtain ⟨moded, hmode, hregister⟩ := bind_eq_ok.mp h
  obtain ⟨_, _, hset⟩ := bind_eq_ok.mp hmode
  cases hset
  obtain ⟨rfl, htables⟩ := registerTables_eq_ok hregister
  refine ⟨⟨rfl, fun _ => rfl, rfl, rfl, fun _ hmem => (nomatch hmem)⟩, ?_, rfl, htables⟩
  exact List.nil_append tables

theorem encodeCall_holds {codec codec' : RansCodec R} {batches : List (List CodedSymbol)}
    {call : RansCall} (h : codec.Holds batches) (hok : codec.encodeCall call = .ok codec') :
    codec'.Holds (batches ++ [call.coded]) ∧ SameSetup codec codec' ∧
      call.Accepted codec.tables codec.useTwoCoders := by
  cases call with
  | y combined group =>
      obtain ⟨hholds, hsetup⟩ := encodeY_holds h hok
      exact ⟨hholds, hsetup, (encodeY_eq_ok.mp hok).2.1⟩
  | z symbols group startOffset perChannelSize =>
      obtain ⟨hholds, hsetup⟩ := encodeZ_holds h hok
      exact ⟨hholds, hsetup, (encodeZ_eq_ok.mp hok).2.1⟩

/-- After a run of accepted calls the sub-encoders hold the batches of all of them. -/
theorem encodeCalls_holds {codec codec' : RansCodec R} {batches : List (List CodedSymbol)}
    {calls : List RansCall} (h : codec.Holds batches) (hok : codec.encodeCalls calls = .ok codec') :
    codec'.Holds (batches ++ calls.map RansCall.coded) ∧ SameSetup codec codec' ∧
      ∀ call ∈ calls, call.Accepted codec.tables codec.useTwoCoders := by
  induction calls generalizing codec batches with
  | nil =>
      cases hok
      exact ⟨by simpa using h, ⟨rfl, rfl⟩, fun _ hmem => (nomatch hmem)⟩
  | cons call calls ih =>
      obtain ⟨next, hnext, hlater⟩ := bind_eq_ok.mp hok
      obtain ⟨hholds, ⟨htables, hmode⟩, haccepted⟩ := encodeCall_holds h hnext
      obtain ⟨hall, ⟨htables', hmode'⟩, hrest⟩ := ih hholds hlater
      rw [htables, hmode] at hrest
      refine ⟨by simpa using hall, ⟨htables'.trans htables, hmode'.trans hmode⟩, ?_⟩
      intro other hother
      rcases List.mem_cons.mp hother with rfl | hmem
      · exact haccepted
      · exact hrest other hmem

theorem decodeCall_delivers {codec : RansCodec R} {batches : List (List CodedSymbol)}
    {call : RansCall} (h : codec.Delivers (call.coded :: batches))
    (haccepted : call.Accepted codec.tables codec.useTwoCoders) :
    ∃ codec', codec.decodeCall call = .ok (call.symbols, codec') ∧ codec'.Delivers batches ∧
      SameSetup codec codec' := by
  cases call with
  | y combined group => exact decodeY_delivers h (rowIndexes_toNat combined) haccepted
  | z symbols group startOffset perChannelSize => exact decodeZ_delivers h haccepted

/-- A session that delivers the batches of some calls answers those calls with their symbols. -/
theorem decodeCalls_delivers {codec : RansCodec R} {calls : List RansCall}
    (h : codec.Delivers (calls.map RansCall.coded))
    (haccepted : ∀ call ∈ calls, call.Accepted codec.tables codec.useTwoCoders) :
    ∃ codec', codec.decodeCalls calls = .ok (calls.map RansCall.symbols, codec') := by
  induction calls generalizing codec with
  | nil => exact ⟨codec, rfl⟩
  | cons call calls ih =>
      obtain ⟨hfirst, hrest⟩ := List.forall_mem_cons.mp haccepted
      obtain ⟨next, hnext, hdelivers, htables, hmode⟩ := decodeCall_delivers h hfirst
      rw [← htables, ← hmode] at hrest
      obtain ⟨last, hlast⟩ := ih hdelivers hrest
      refine ⟨last, ?_⟩
      rw [decodeCalls, hnext, ok_bind, hlast]
      rfl

/-- Two rows that split the range evenly between two symbols. -/
def evenTable : RansCdfTable := ⟨[[0, 32768, 65536], [0, 32768, 65536]], [3, 3], [0, 0]⟩

end RansCodec

end Nvcr.Rt
