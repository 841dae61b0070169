import Nvcr.CatalogEntries
import Nvcr.JsonValues

/-!
# Documents of the engine catalog

The strings of the catalog have escapes for every character of the first plane but surrogates, its
numbers are integers of 64 bits, and its values are nested to any depth.
-/

namespace Nvcr.Artifacts

open Json TextReaders StatefulResults

section Reading

def subsystem : String := "artifact-catalog"

/-- The bytes that encode a character of the first plane. -/
def appendUtf8 (code : ℕ) : Bytes :=
  if code ≤ 0x7f then [UInt8.ofNat code]
  else if code ≤ 0x7ff then [UInt8.ofNat (0xc0 ||| code >>> 6), UInt8.ofNat (0x80 ||| code &&& 0x3f)]
  else
    [UInt8.ofNat (0xe0 ||| code >>> 12), UInt8.ofNat (0x80 ||| (code >>> 6) &&& 0x3f),
      UInt8.ofNat (0x80 ||| code &&& 0x3f)]

def parseUnicodeEscape (first second third fourth : UInt8) : Result Bytes :=
  match codePoint first second third fourth with
  | none => .error (catalogError "invalid unicode escape")
  | some code =>
      if 0xd800 ≤ code ∧ code ≤ 0xdfff then
        .error (catalogError "surrogate unicode escapes are not supported")
      else .ok (appendUtf8 code)

/-- Whether a text goes on with a fraction or an exponent. -/
def continuesInteger (rest : Bytes) : Bool :=
  rest.head?.any fun next => next = dot ∨ isExponentMark next

def parseInteger (size : ℕ) (input : Bytes) : Result (UInt64 × Bytes) := do
  let digits := input.takeWhile isDigit
  let rest := input.dropWhile isDigit
  require (¬ (1 < digits.length ∧ digits.head? = some zero))
    (failAt subsystem size "JSON integer has a leading zero" input)
  require (continuesInteger rest = false)
    (catalogError "catalog values must use integer JSON numbers")
  require (digits ≠ [] ∧ digitsValue digits < 2 ^ 64)
    (failAt subsystem size "invalid JSON integer" input)
  .ok (UInt64.ofNat (digitsValue digits), rest)

/-- A token of an integer that fits 64 bits. -/
def IntegerText (digits : Bytes) (value : UInt64) : Prop :=
  IsDigits digits ∧ ¬ (1 < digits.length ∧ digits.head? = some zero) ∧
    digitsValue digits = value.toNat

variable {size : ℕ} {input rest : Bytes} {value : UInt64}

theorem parseInteger_sound (h : parseInteger size input = .ok (value, rest)) :
    ∃ digits, input = digits ++ rest ∧ IntegerText digits value := by
  obtain ⟨_, hleading, h⟩ := bind_eq_ok.mp h
  obtain ⟨_, _, h⟩ := bind_eq_ok.mp h
  obtain ⟨_, hrange, h⟩ := bind_eq_ok.mp h
  cases h
  have hvalue := (require_eq_ok.mp hrange).2
  refine ⟨input.takeWhile isDigit, List.takeWhile_append_dropWhile.symm,
    isDigits_takeWhile (require_eq_ok.mp hrange).1, require_eq_ok.mp hleading, ?_⟩
  rw [UInt64.toNat_ofNat', Nat.mod_eq_of_lt hvalue]

theorem parseInteger_complete {digits : Bytes} (h : IntegerText digits value)
    (hrest : Follows rest) : parseInteger size (digits ++ rest) = .ok (value, rest) := by
  obtain ⟨⟨hne, hall⟩, hleading, hvalue⟩ := h
  have hstop : StopsAt isDigit rest := fun next hnext => by
    have hcontinues := hrest next hnext
    simp only [continuesNumber, Bool.decide_or, Bool.decide_eq_true,
      Bool.or_eq_false_iff] at hcontinues
    exact hcontinues.1
  have hinteger : continuesInteger rest = false := by
    cases rest with
    | nil => rfl
    | cons next rest =>
        have hcontinues := stopsAt_cons.mp hrest
        simp only [continuesNumber, Bool.decide_or, Bool.decide_eq_true,
          Bool.or_eq_false_iff] at hcontinues
        simp only [continuesInteger, List.head?_cons, Option.any_some, Bool.decide_or,
          Bool.decide_eq_true, Bool.or_eq_false_iff]
        exact hcontinues.2
  have hrange : digits ≠ [] ∧ digitsValue digits < 2 ^ 64 := ⟨hne, hvalue ▸ value.toNat_lt⟩
  rw [parseInteger]
  simp only [takeWhile_span hall hstop, dropWhile_span hall hstop]
  rw [require, if_pos hleading, ok_bind, require, if_pos hinteger, ok_bind, require, if_pos hrange,
    ok_bind, hvalue, UInt64.ofNat_toNat]

theorem parseInteger_consumes (h : parseInteger size input = .ok (value, rest)) :
    rest.length < input.length := by
  obtain ⟨digits, rfl, hdigits⟩ := parseInteger_sound h
  rw [List.length_append]
  exact Nat.lt_add_of_pos_left (List.length_pos_iff.mpr hdigits.1.1)

/-- Strings and numbers of the catalog. -/
def catalogLeaves (size : ℕ) : Leaves UInt64 where
  string := ⟨parseString subsystem parseUnicodeEscape, parseString_consumes⟩
  number := ⟨parseInteger size, parseInteger_consumes⟩
  startsNumber := isDigit

/-- The parser of the catalog; it has no bound on the nesting. -/
def parseJson (document : Bytes) : Result (Value UInt64) :=
  parseDocument subsystem
    (unboundedReader subsystem document.length (catalogLeaves document.length)) document

end Reading

section Grammar

/-- The strings and numbers that the catalog is meant to have. -/
def catalogGrammar : Grammar UInt64 where
  string := StringBody parseUnicodeEscape
  number := IntegerText

theorem catalogLeaves_reads (size : ℕ) : (catalogLeaves size).Reads catalogGrammar where
  string := ⟨fun h => parseString_sound h, fun h _ => parseString_complete h⟩
  number := ⟨fun h => parseInteger_sound h, fun h => parseInteger_complete h⟩
  number_starts := by
    rintro text number ⟨⟨hne, hall⟩, -, -⟩
    cases text with
    | nil => exact absurd rfl hne
    | cons next tail => exact ⟨next, tail, rfl, hall next List.mem_cons_self⟩
  starts_ok h := .inr h

/-- A document of the catalog is accepted with a value exactly when it is a text of the value. -/
theorem parseJson_eq_ok {document : Bytes} {value : Value UInt64} :
    parseJson document = .ok value ↔ Document (AnyText catalogGrammar) document value :=
  parseDocument_eq_ok (unboundedReader_reads _ _ (catalogLeaves_reads document.length))

end Grammar

section Values

/-- The decimal digits of a number. -/
def decimalDigits (value : ℕ) : Bytes :=
  if value < 10 then [UInt8.ofNat (48 + value)]
  else decimalDigits (value / 10) ++ [UInt8.ofNat (48 + value % 10)]

theorem isDigit_ofNat : ∀ digit : Fin 10, isDigit (UInt8.ofNat (48 + digit)) = true := by
  decide

theorem toNat_digit {digit : ℕ} (hdigit : digit < 10) :
    (UInt8.ofNat (48 + digit)).toNat - 48 = digit := by
  rw [UInt8.toNat_ofNat', Nat.mod_eq_of_lt (by omega)]
  omega

theorem digitsValue_append (digits : Bytes) (digit : UInt8) :
    digitsValue (digits ++ [digit]) = 10 * digitsValue digits + (digit.toNat - 48) := by
  rw [digitsValue, List.foldl_append]
  rfl

theorem digitsValue_decimalDigits (value : ℕ) : digitsValue (decimalDigits value) = value := by
  fun_induction decimalDigits value with
  | case1 value hlt =>
      rw [digitsValue, List.foldl_cons, List.foldl_nil, toNat_digit hlt]
      omega
  | case2 value hge ih =>
      rw [digitsValue_append, ih, toNat_digit (Nat.mod_lt _ (by decide))]
      omega

theorem isDigits_decimalDigits (value : ℕ) : IsDigits (decimalDigits value) := by
  fun_induction decimalDigits value with
  | case1 value hlt =>
      refine ⟨List.cons_ne_nil _ _, fun digit hdigit => ?_⟩
      rw [List.mem_singleton.mp hdigit]
      exact isDigit_ofNat ⟨value, hlt⟩
  | case2 value hge ih =>
      refine ⟨List.append_ne_nil_of_right_ne_nil _ (List.cons_ne_nil _ _), fun digit hdigit => ?_⟩
      rcases List.mem_append.mp hdigit with hmem | hmem
      · exact ih.2 digit hmem
      · rw [List.mem_singleton.mp hmem]
        exact isDigit_ofNat ⟨value % 10, Nat.mod_lt _ (by decide)⟩

/-- Only zero starts with a zero. -/
theorem head_decimalDigits {value : ℕ} (hvalue : 0 < value) :
    (decimalDigits value).head? ≠ some zero := by
  fun_induction decimalDigits value with
  | case1 value hlt =>
      intro hhead
      have hbyte := congrArg UInt8.toNat (Option.some.inj hhead)
      rw [UInt8.toNat_ofNat', Nat.mod_eq_of_lt (by omega)] at hbyte
      change 48 + value = 48 at hbyte
      omega
  | case2 value hge ih =>
      rw [List.head?_append_of_ne_nil _ (isDigits_decimalDigits _).1]
      exact ih (Nat.div_pos (Nat.le_of_not_lt hge) (by decide))

/-- Every number of 64 bits has a token. -/
theorem integerText_decimalDigits (value : UInt64) :
    IntegerText (decimalDigits value.toNat) value := by
  refine ⟨isDigits_decimalDigits _, ?_, digitsValue_decimalDigits _⟩
  rintro ⟨hlength, hhead⟩
  have hpositive : 0 < value.toNat := by
    by_contra hnot
    rw [Nat.eq_zero_of_not_pos hnot, decimalDigits, if_pos (by decide)] at hlength
    exact absurd hlength (by decide)
  exact head_decimalDigits hpositive hhead

theorem exists_catalogString (value : Bytes) : ∃ text, catalogGrammar.string text value := by
  refine exists_stringBody (fun byte hbyte => ?_) value
  have hlt : byte.toNat < 32 := UInt8.lt_iff_toNat_lt.mp hbyte
  have hsurrogate : ¬ (0xd800 ≤ byte.toNat ∧ byte.toNat ≤ 0xdfff) := by omega
  have hplain : byte.toNat ≤ 0x7f := by omega
  refine ⟨hexDigit 0, hexDigit 0, hexDigit (byte.toNat / 16), hexDigit (byte.toNat % 16), ?_⟩
  simp only [parseUnicodeEscape, codePoint_hexDigit, if_neg hsurrogate, appendUtf8, if_pos hplain,
    UInt8.ofNat_toNat]

/-- The values that documents of the catalog are accepted with. -/
theorem exists_parseJson_eq_ok {value : Value UInt64} :
    (∃ document, parseJson document = .ok value) ↔ ∃ levels, Within catalogGrammar levels value := by
  calc (∃ document, parseJson document = .ok value)
      ↔ ∃ document, Document (AnyText catalogGrammar) document value :=
        exists_congr fun document =>
          parseDocument_eq_ok (unboundedReader_reads _ _ (catalogLeaves_reads document.length))
    _ ↔ ∃ token, AnyText catalogGrammar token value := exists_document
    _ ↔ ∃ levels token, ValueText catalogGrammar levels token value := exists_comm
    _ ↔ ∃ levels, Within catalogGrammar levels value := exists_congr fun _ =>
        ⟨fun h => h.elim fun _ htoken => within_of_valueText htoken,
          exists_valueText exists_catalogString⟩

end Values

end Nvcr.Artifacts
