import Nvcr.RansStates
import Nvcr.UfRansSessions

/-!
# The vendored DCVC-UF range coder

The sub-coder of the entropy session: signed symbols are folded into naturals, values from the
last one on are escaped, and every symbol goes onto the rANS stack with the interval of its row.
With rows of at least three entries it is last in, first out.
-/

namespace Nvcr.Uf

open LittleEndian StatefulResults RansStates

namespace VendoredRans

/-- A signed symbol as a natural number: positive ones are odd. -/
def foldSymbol (symbol : Int8) : ℤ :=
  symbol.toInt.natAbs * 2 - if 0 < symbol.toInt then 1 else 0

def unfoldSymbol (value : ℤ) : Int8 :=
  Int8.ofInt (if Int.tmod value 2 = 1 then Int.tdiv (value + 1) 2 else Int.tdiv (-(value + 1)) 2)

def encodeOneSymbol (writer : Writer) (symbol : Int8) (maxValue : ℤ) (ransSymbols : List RansSymbol) :
    Writer :=
  let value := foldSymbol symbol
  let escaped := if maxValue ≤ value then putEscape writer (value - maxValue).toNat else writer
  let coded := ransSymbols.getD (min value maxValue).toNat ⟨0, 0⟩
  put escaped coded.start coded.range

/-- The symbol whose interval holds a cumulative frequency. -/
def findSymbol (cdf : List ℤ) (cumFreq : ℕ) : ℕ :=
  ((cdf.drop 1).takeWhile fun bound => bound ≤ (cumFreq : ℤ)).length

def decodeOneSymbol (reader : Reader) (cdf : List ℤ) (maxValue : ℤ) : Int8 × Reader :=
  let value := findSymbol cdf (reader.state % scale)
  let passed := advance reader (cdf.getD value 0).toNat
    (cdf.getD (value + 1) 0 - cdf.getD value 0).toNat
  if (value : ℤ) = maxValue then
    let raw := getEscape passed
    (unfoldSymbol (Int.bmod raw.1 (2 ^ 32) + maxValue), raw.2)
  else (unfoldSymbol value, passed)

/-- Push a symbol with the tables of its group and row. -/
def push (groups : List UfGroup) (writer : Writer) (coded : UfCodedSymbol) : Writer :=
  match groups[coded.group]? with
  | none => writer
  | some group =>
      encodeOneSymbol writer coded.symbol (group.maxValues.getD coded.row 0)
        (group.symbols.getD coded.row [])

def initial : Writer := ⟨lowerBound, []⟩

def written (groups : List UfGroup) (pushes : List UfCodedSymbol) : Writer :=
  pushes.foldl (push groups) initial

/-- The bytes of an encoder: its state in front of what it wrote. -/
def flushed (writer : Writer) : RansStates.Bytes := leBytes 4 writer.state ++ writer.bytes

/-- A decoder starts with a state of four bytes. -/
def start (bytes : RansStates.Bytes) : Reader :=
  ⟨leValue (bytes.take 4), bytes.drop 4, decide (bytes.length < 4)⟩

/-- Pop a symbol with the tables of a group and row. -/
def pop (groups : List UfGroup) (reader : Reader) (group row : ℕ) : Int8 × Reader :=
  match groups[group]? with
  | none => (0, reader)
  | some tables => decodeOneSymbol reader (tables.cdfs.getD row []) (tables.maxValues.getD row 0)

end VendoredRans

open VendoredRans

/-- The vendored encoder and decoder of one sub-stream. -/
def vendoredRans : UfRansCoder where
  Decoder := Reader
  idle := ⟨0, [], false⟩
  flush groups pushes := flushed (written groups pushes)
  setStream := start
  decodeSymbol := pop
  overrun := Reader.overrun

namespace VendoredRans

theorem start_flushed {writer : Writer} (h : writer.state < 256 ^ 4) (tail : RansStates.Bytes) :
    start (flushed writer ++ tail) = writer.reader tail := by
  have hlong : ¬ (flushed writer ++ tail).length < 4 := by
    simp only [flushed, List.length_append, leBytes_length]
    omega
  have hstate : (flushed writer ++ tail).take 4 = leBytes 4 writer.state := by
    rw [flushed, List.append_assoc]
    exact List.take_left' (leBytes_length 4 _)
  have hbytes : (flushed writer ++ tail).drop 4 = writer.bytes ++ tail := by
    rw [flushed, List.append_assoc]
    exact List.drop_left' (leBytes_length 4 _)
  rw [start, hstate, hbytes, leValue_leBytes_of_lt h, decide_eq_false hlong, Writer.reader]

theorem foldSymbol_nonneg (symbol : Int8) : 0 ≤ foldSymbol symbol := by
  unfold foldSymbol
  split <;> omega

theorem foldSymbol_le (symbol : Int8) : foldSymbol symbol ≤ 256 := by
  have hlow : -128 ≤ symbol.toInt := symbol.le_toInt
  have hhigh : symbol.toInt < 128 := symbol.toInt_lt
  unfold foldSymbol
  split <;> omega

theorem unfoldSymbol_foldSymbol (symbol : Int8) : unfoldSymbol (foldSymbol symbol) = symbol := by
  have hnonneg := foldSymbol_nonneg symbol
  have hvalue : (if foldSymbol symbol % 2 = 1 then (foldSymbol symbol + 1) / 2
      else -((foldSymbol symbol + 1) / 2)) = symbol.toInt := by
    unfold foldSymbol
    split <;> split <;> omega
  rw [unfoldSymbol, Int.tmod_eq_emod_of_nonneg hnonneg, Int.neg_tdiv,
    Int.tdiv_eq_ediv_of_nonneg (by omega), hvalue, Int8.ofInt_toInt]

/-- What the validation of a row leaves for the coder. -/
structure CodedRow (values : List ℤ) (last : ℕ) : Prop where
  positive : 0 < last
  inside : last + 1 < values.length
  first : values.getD 0 0 = 0
  total : values.getD (last + 1) 0 = 2 ^ 16
  increasing : ∀ index ≤ last, values.getD index 0 < values.getD (index + 1) 0

namespace CodedRow

variable {values : List ℤ} {last : ℕ}

theorem strictMono (h : CodedRow values last) {first second : ℕ} (hlt : first < second)
    (hle : second ≤ last + 1) : values.getD first 0 < values.getD second 0 := by
  induction second with
  | zero => omega
  | succ second ih =>
      have hstep := h.increasing second (by omega)
      rcases Nat.lt_or_eq_of_le (Nat.lt_succ_iff.mp hlt) with hearlier | rfl
      · exact (ih hearlier (by omega)).trans hstep
      · exact hstep

theorem nonneg (h : CodedRow values last) {index : ℕ} (hle : index ≤ last + 1) :
    0 ≤ values.getD index 0 := by
  rcases Nat.eq_zero_or_pos index with rfl | hpos
  · rw [h.first]
  · have hlt := h.strictMono hpos hle
    rw [h.first] at hlt
    omega

/-- The bounds of a symbol in 16 bits are its bounds in the table. -/
theorem interval (h : CodedRow values last) {value : ℕ} (hvalue : value ≤ last) :
    (UfRansCdfTable.rowSymbols values).getD value ⟨0, 0⟩ =
        ⟨(values.getD value 0).toNat, (values.getD (value + 1) 0 - values.getD value 0).toNat⟩ ∧
      Interval (values.getD value 0).toNat
        (values.getD (value + 1) 0 - values.getD value 0).toNat := by
  have hstart := h.nonneg (show value ≤ last + 1 by omega)
  have hstep := h.increasing value hvalue
  have hend : values.getD (value + 1) 0 ≤ 2 ^ 16 := by
    rcases Nat.lt_or_eq_of_le (show value + 1 ≤ last + 1 by omega) with hlt | heq
    · have := h.strictMono hlt le_rfl
      rw [h.total] at this
      omega
    · rw [heq, h.total]
  -- The whole scale does not fit in 16 bits, but no single symbol of the row has it.
  have hrange : values.getD (value + 1) 0 - values.getD value 0 < 2 ^ 16 := by
    rcases Nat.eq_zero_or_pos value with rfl | hpos
    · have := h.strictMono (show 0 + 1 < last + 1 by have := h.positive; omega) le_rfl
      rw [h.total] at this
      omega
    · have := h.strictMono hpos (show value ≤ last + 1 by omega)
      rw [h.first] at this
      omega
  refine ⟨?_, by omega, ?_⟩
  · have hinside := h.inside
    have hindex : value < values.length - 1 := by omega
    rw [UfRansCdfTable.rowSymbols, List.getD_eq_getElem?_getD,
      List.getElem?_append_left (by simpa using hindex), List.getElem?_map,
      List.getElem?_range hindex, Option.map_some, Option.getD_some,
      Int.emod_eq_of_lt hstart (by omega), Int.emod_eq_of_lt (by omega) hrange]
  · unfold scale
    omega

theorem findSymbol_eq (h : CodedRow values last) {value cumFreq : ℕ} (hvalue : value ≤ last)
    (hlow : values.getD value 0 ≤ cumFreq) (hhigh : (cumFreq : ℤ) < values.getD (value + 1) 0) :
    findSymbol values cumFreq = value := by
  have hinside := h.inside
  have hindex : value < (values.drop 1).length := by
    rw [List.length_drop]
    omega
  have hnext : (values.drop 1)[value] = values.getD (value + 1) 0 := by
    rw [List.getElem_drop, List.getD_eq_getElem?_getD, List.getElem?_eq_getElem (by omega),
      Option.getD_some]
    congr 1
    omega
  have hbefore : ∀ bound ∈ (values.drop 1).take value, decide (bound ≤ (cumFreq : ℤ)) = true := by
    intro bound hbound
    obtain ⟨index, hlt, rfl⟩ := List.mem_take_iff_getElem.mp hbound
    have hget : (values.drop 1)[index] = values.getD (index + 1) 0 := by
      rw [List.getElem_drop, List.getD_eq_getElem?_getD, List.getElem?_eq_getElem (by omega),
        Option.getD_some]
      congr 1
      omega
    rw [hget, decide_eq_true_eq]
    rcases Nat.lt_or_eq_of_le (show index + 1 ≤ value by omega) with hearlier | heq
    · exact (h.strictMono hearlier (by omega)).le.trans hlow
    · rw [heq]
      exact hlow
  have hsplit : values.drop 1 =
      (values.drop 1).take value ++ (values.drop 1)[value] :: (values.drop 1).drop (value + 1) := by
    rw [← List.drop_eq_getElem_cons hindex, List.take_append_drop]
  rw [findSymbol, hsplit, List.takeWhile_append_of_pos hbefore,
    List.takeWhile_cons_of_neg (by rw [hnext]; simpa using hhigh), List.append_nil,
    List.length_take, Nat.min_eq_left hindex.le]

end CodedRow

/-- The rows that pass the validation with at least three entries. -/
theorem codedRow_of_validateCdf {table : UfRansCdfTable} (h : table.validateCdf = .ok ()) {row : ℕ}
    (hrow : row < table.rows) (hsize : 3 ≤ table.sizes.getD row 0) :
    CodedRow (table.values.getD row []) (table.sizes.getD row 0 - 2).toNat := by
  obtain ⟨_, _, hwidth⟩ := bind_eq_ok.mp h
  obtain ⟨_, _, hrows⟩ := bind_eq_ok.mp hwidth
  have hvalid := forM_eq_ok hrows row (List.mem_range.mpr hrow)
  obtain ⟨_, hlength, hrest⟩ := bind_eq_ok.mp hvalid
  obtain ⟨_, hbounds, hincreasing⟩ := bind_eq_ok.mp hrest
  have hrectangular := require_eq_ok.mp hlength
  obtain ⟨_, hinside, _, hfirst, htotal⟩ := require_eq_ok.mp hbounds
  have hsteps := require_eq_ok.mp hincreasing
  have hlast : (table.sizes.getD row 0 - 2).toNat + 1 = (table.sizes.getD row 0 - 1).toNat := by
    omega
  refine ⟨by omega, by omega, hfirst, by rw [hlast, htotal]; rfl, ?_⟩
  intro index hindex
  exact hsteps index (List.mem_range.mpr (by omega))

section Symbols

variable {writer : Writer} {values : List ℤ} {last : ℕ}

theorem encodeOneSymbol_normal (hrow : CodedRow values last) (h : writer.Normal) (symbol : Int8) :
    (encodeOneSymbol writer symbol last (UfRansCdfTable.rowSymbols values)).Normal := by
  have hvalue : (min (foldSymbol symbol) last).toNat ≤ last := by omega
  obtain ⟨hsymbol, hinterval⟩ := hrow.interval hvalue
  have hescaped : (if (last : ℤ) ≤ foldSymbol symbol then
      putEscape writer (foldSymbol symbol - last).toNat else writer).Normal := by
    split
    · exact putEscape_normal h _
    · exact h
  simp only [encodeOneSymbol, hsymbol]
  exact put_normal hescaped hinterval

/-- The state after a put leads back to the symbol. -/
theorem CodedRow.findSymbol_put (hrow : CodedRow values last) (writer : Writer)
    {value start range : ℕ} (hvalue : value ≤ last)
    (hstart : start = (values.getD value 0).toNat)
    (hrange : range = (values.getD (value + 1) 0 - values.getD value 0).toNat)
    (hinterval : Interval start range) :
    findSymbol values ((put writer start range).state % scale) = value := by
  have hnonneg := hrow.nonneg (show value ≤ last + 1 by omega)
  have hstep := hrow.increasing value hvalue
  have hrest := Nat.mod_lt (emit (range * 2 ^ 15) 4 writer).state hinterval.positive
  rw [put_state_mod hinterval]
  apply hrow.findSymbol_eq hvalue
  · rw [Nat.cast_add]
    omega
  · rw [Nat.cast_add]
    omega

/-- Decoding a symbol undoes encoding it. -/
theorem decodeOneSymbol_encodeOneSymbol (hrow : CodedRow values last) (h : writer.Normal)
    (symbol : Int8) (tail : RansStates.Bytes) :
    decodeOneSymbol ((encodeOneSymbol writer symbol last
        (UfRansCdfTable.rowSymbols values)).reader tail) values last =
      (symbol, writer.reader tail) := by
  have hnonneg := foldSymbol_nonneg symbol
  have hsmall := foldSymbol_le symbol
  obtain ⟨value, hindex⟩ : ∃ value, value = (min (foldSymbol symbol) last).toNat := ⟨_, rfl⟩
  obtain ⟨escaped, hescape⟩ : ∃ escaped, escaped = if (last : ℤ) ≤ foldSymbol symbol then
    putEscape writer (foldSymbol symbol - last).toNat else writer := ⟨_, rfl⟩
  have hvalue : value ≤ last := by omega
  have hescaped : escaped.Normal := by
    rw [hescape]
    split
    · exact putEscape_normal h _
    · exact h
  obtain ⟨hsymbol, hinterval⟩ := hrow.interval hvalue
  have hfound := hrow.findSymbol_put escaped hvalue rfl rfl hinterval
  have hencoded : encodeOneSymbol writer symbol last (UfRansCdfTable.rowSymbols values) =
      put escaped (values.getD value 0).toNat
        (values.getD (value + 1) 0 - values.getD value 0).toNat := by
    simp only [encodeOneSymbol, ← hindex, ← hescape, hsymbol]
  have hpassed := advance_put hescaped hinterval tail
  have hdecoded : decodeOneSymbol ((encodeOneSymbol writer symbol last
      (UfRansCdfTable.rowSymbols values)).reader tail) values last =
      if (value : ℤ) = last then
        (unfoldSymbol (Int.bmod (getEscape (escaped.reader tail)).1 (2 ^ 32) + last),
          (getEscape (escaped.reader tail)).2)
      else (unfoldSymbol value, escaped.reader tail) := by
    simp only [hencoded, decodeOneSymbol, Writer.reader_state, hfound, hpassed]
  rw [hdecoded]
  by_cases hlast : (last : ℤ) ≤ foldSymbol symbol
  · have hmin : (value : ℤ) = last := by omega
    have hread := getEscape_putEscape h (show (foldSymbol symbol - last).toNat < 4 ^ 16 by omega) tail
    have hraw : Int.bmod ((foldSymbol symbol - last).toNat : ℤ) (2 ^ 32) = foldSymbol symbol - last := by
      rw [Int.toNat_of_nonneg (by omega)]
      exact Int.bmod_eq_of_le (by omega) (by norm_num; omega)
    have hwritten : escaped = putEscape writer (foldSymbol symbol - last).toNat := by
      rw [hescape, if_pos hlast]
    rw [if_pos hmin, hwritten, hread]
    simp only [hraw, sub_add_cancel, unfoldSymbol_foldSymbol]
  · have hmin : (value : ℤ) = foldSymbol symbol := by omega
    have hwritten : escaped = writer := by rw [hescape, if_neg hlast]
    rw [if_neg (by omega), hmin, unfoldSymbol_foldSymbol, hwritten]

end Symbols

/-- Every row has at least three entries: the range of the only symbol of a shorter one is the
whole scale, which the encoder's 16 bits do not hold. -/
def LongRows (tables : List UfRansCdfTable) : Prop :=
  ∀ table ∈ tables, ∀ size ∈ table.sizes, 3 ≤ size

instance (tables : List UfRansCdfTable) : Decidable (LongRows tables) :=
  inferInstanceAs (Decidable (∀ table ∈ tables, ∀ size ∈ table.sizes, 3 ≤ size))

section Stacks

variable {tables : List UfRansCdfTable} {writer : Writer} {coded : UfCodedSymbol}

/-- A valid symbol is coded with a row of a registered table. -/
theorem codedRow_of_valid (hvalid : ∀ table ∈ tables, table.validateCdf = .ok ())
    (hrows : LongRows tables) (hcoded : coded.Valid (tables.map UfRansCdfTable.group)) :
    ∃ group values, ∃ last : ℕ, (tables.map UfRansCdfTable.group)[coded.group]? = some group ∧
      CodedRow values last ∧ group.cdfs.getD coded.row [] = values ∧
      group.maxValues.getD coded.row 0 = last ∧
      group.symbols.getD coded.row [] = UfRansCdfTable.rowSymbols values := by
  obtain ⟨group, hgroup, hrow⟩ := hcoded
  have hregistered := hgroup
  rw [List.getElem?_map, Option.map_eq_some_iff] at hregistered
  obtain ⟨table, htable, rfl⟩ := hregistered
  have hmem : table ∈ tables := List.mem_of_getElem? htable
  have hlength : table.values.length = table.sizes.length := by
    obtain ⟨_, hshape, _⟩ := bind_eq_ok.mp (hvalid table hmem)
    exact (require_eq_ok.mp hshape).2
  have hvalues : coded.row < table.values.length := hrow
  have hsizes : coded.row < table.sizes.length := by omega
  have hget : table.sizes.getD coded.row 0 = table.sizes[coded.row] := by
    rw [List.getD_eq_getElem?_getD, List.getElem?_eq_getElem hsizes, Option.getD_some]
  have hsize : 3 ≤ table.sizes.getD coded.row 0 := by
    rw [hget]
    exact hrows table hmem _ (List.getElem_mem hsizes)
  refine ⟨_, table.values.getD coded.row [], (table.sizes.getD coded.row 0 - 2).toNat, hgroup,
    codedRow_of_validateCdf (hvalid table hmem) hrow hsize, rfl, ?_, ?_⟩
  · rw [Int.toNat_of_nonneg (by omega)]
    simp [UfRansCdfTable.group, UfRansCdfTable.makeMaxValues, List.getD_eq_getElem?_getD, hsizes]
  · simp [UfRansCdfTable.group, UfRansCdfTable.makeSymbols, List.getD_eq_getElem?_getD, hvalues]

/-- Popping a valid symbol undoes pushing it. -/
theorem pop_push (hvalid : ∀ table ∈ tables, table.validateCdf = .ok ())
    (hrows : LongRows tables) (hcoded : coded.Valid (tables.map UfRansCdfTable.group))
    (h : writer.Normal) (tail : RansStates.Bytes) :
    (push (tables.map UfRansCdfTable.group) writer coded).Normal ∧
      pop (tables.map UfRansCdfTable.group)
        ((push (tables.map UfRansCdfTable.group) writer coded).reader tail)
        coded.group coded.row = (coded.symbol, writer.reader tail) := by
  obtain ⟨group, values, last, hgroup, hrow, hcdf, hmax, hsymbols⟩ :=
    codedRow_of_valid hvalid hrows hcoded
  simp only [push, pop, hgroup, hmax, hsymbols, hcdf]
  exact ⟨encodeOneSymbol_normal hrow h coded.symbol,
    decodeOneSymbol_encodeOneSymbol hrow h coded.symbol tail⟩

/-- A decoder at the bytes of a stack of valid symbols pops them. -/
theorem written_pops (hvalid : ∀ table ∈ tables, table.validateCdf = .ok ())
    (hrows : LongRows tables) (pushes : List UfCodedSymbol)
    (hpushes : ∀ coded ∈ pushes, coded.Valid (tables.map UfRansCdfTable.group))
    (tail : RansStates.Bytes) :
    (written (tables.map UfRansCdfTable.group) pushes).Normal ∧
      UfRansCoder.Pops (R := vendoredRans) (tables.map UfRansCdfTable.group)
        ((written (tables.map UfRansCdfTable.group) pushes).reader tail) pushes.reverse := by
  induction pushes using List.reverseRecOn with
  | nil => exact ⟨⟨le_rfl, show (2 ^ 23 : ℕ) < 2 ^ 31 by norm_num⟩, rfl⟩
  | append_singleton pushes coded ih =>
      obtain ⟨hnormal, hpops⟩ := ih fun other hother =>
        hpushes other (List.mem_append_left _ hother)
      obtain ⟨hpushed, hpopped⟩ := pop_push hvalid hrows
        (hpushes coded (List.mem_append_right _ (List.mem_singleton_self coded))) hnormal tail
      have hwritten : written (tables.map UfRansCdfTable.group) (pushes ++ [coded]) =
          push (tables.map UfRansCdfTable.group)
            (written (tables.map UfRansCdfTable.group) pushes) coded := by
        simp only [written, List.foldl_append, List.foldl_cons, List.foldl_nil]
      rw [hwritten, List.reverse_append, List.reverse_singleton, List.singleton_append]
      refine ⟨hpushed, rfl, congrArg Prod.fst hpopped, ?_⟩
      rw [show (vendoredRans.decodeSymbol _ _ coded.group coded.row).2 = _ from
        congrArg Prod.snd hpopped]
      exact hpops

end Stacks

/-- The vendored coder is a stack for validated tables with long rows. -/
theorem vendoredRans_lifoInverse {tables : List UfRansCdfTable}
    (hvalid : ∀ table ∈ tables, table.validateCdf = .ok ()) (hrows : LongRows tables) :
    vendoredRans.LifoInverse (tables.map UfRansCdfTable.group) where
  pops_flush := by
    intro pushes tail hpushes
    obtain ⟨hnormal, hpops⟩ := written_pops hvalid hrows pushes hpushes tail
    have hstate : (written (tables.map UfRansCdfTable.group) pushes).state < 256 ^ 4 :=
      lt_trans hnormal.2 (by norm_num)
    rw [show vendoredRans.setStream (vendoredRans.flush _ pushes ++ tail) = _ from
      start_flushed hstate tail]
    exact hpops
  flush_length := by
    intro pushes
    simp only [vendoredRans, flushed, List.length_append, leBytes_length]
    omega

end VendoredRans

namespace UfRansCodec

/-- Two rows that split the range evenly between two symbols. -/
def evenTable : UfRansCdfTable := ⟨[[0, 32768, 65536], [0, 32768, 65536]], [3, 3]⟩

/-- A session with three sub-coders and two tables before its first call. -/
def threeCoders : UfRansCodec vendoredRans :=
  { parallel := 3, tables := [evenTable, evenTable], encoders := [[], [], []],
    decoders := [⟨0, [], false⟩, ⟨0, [], false⟩, ⟨0, [], false⟩] }

theorem uf_session_round_trip_three_coders :
    ∃ stream, ReadsBack vendoredRans 3 [evenTable, evenTable] stream
      [.z [3, -4, 0, 1] 0 0 2, .y [256, 1, 513, -255] 1] := by
  have hopen : openSession 3 [evenTable, evenTable] = .ok threeCoders := rfl
  obtain ⟨⟨stream, finished⟩, hboth⟩ : ∃ output,
      (threeCoders.encodeCalls [.z [3, -4, 0, 1] 0 0 2, .y [256, 1, 513, -255] 1] >>=
        finishEncode) = .ok output :=
    isOk_iff.mp (by decide +kernel)
  obtain ⟨written, hencoded, hfinished⟩ := bind_eq_ok.mp hboth
  have hlifo : vendoredRans.LifoInverse threeCoders.groups :=
    vendoredRans_lifoInverse (by decide) (by decide)
  exact ⟨stream, uf_session_round_trip hlifo hopen hencoded hfinished
    ⟨.z [3, -4, 0, 1] 0 0 2, by decide, by decide⟩⟩

/-- A session whose calls have no symbol finishes no stream that could be set. -/
theorem uf_session_without_symbols :
    ∃ written finished, openSession 3 [evenTable, evenTable] = .ok threeCoders ∧
      threeCoders.encodeCalls [.y [] 1] = .ok written ∧
      written.finishEncode = .ok ([], finished) ∧
      ¬ ReadsBack vendoredRans 3 [evenTable, evenTable] [] [.y [] 1] := by
  have hencoded : threeCoders.encodeCalls [.y [] 1] = .ok threeCoders := by
    simp [encodeCalls, encodeCall, encodeY, threeCoders, require, yCdfGroup]
  refine ⟨_, _, rfl, hencoded, rfl, ?_⟩
  rintro ⟨reader, started, last, hopen, hstarted, -⟩
  cases hopen
  cases hstarted

end UfRansCodec

end Nvcr.Uf
