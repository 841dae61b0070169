import Nvcr.Frames
import Nvcr.OrderedEntries
import Nvcr.StatefulResults
import Nvcr.TextReaders

/-!
# Strings and numbers of JSON documents

The readers of strings and numbers work on the bytes that remain. The strings of the artifact
metadata and of the engine catalog differ in the escapes by code, which are a parameter; the
conversion of a number token to a floating-point value is a parameter too. Beside each reader stand
the texts that it reads.
-/

namespace Nvcr.Json

open TextReaders OrderedEntries StatefulResults

/-- A JSON value over a type of numbers. The members of an object are in the order of their
keys. -/
inductive Value (ν : Type) where
  | null
  | boolean (value : Bool)
  | number (value : ν)
  | string (value : Bytes)
  | array (elements : List (Value ν))
  | object (members : List (Bytes × Value ν))

/-- A number of the artifact metadata keeps its value and, when the token is an integer that fits
64 bits, the exact integer. -/
structure Number (δ : Type) where
  value : δ
  integer : Option ℤ

section Characters

def quote : UInt8 := 34

def plus : UInt8 := 43

def comma : UInt8 := 44

def minus : UInt8 := 45

def dot : UInt8 := 46

def zero : UInt8 := 48

def colon : UInt8 := 58

def upperE : UInt8 := 69

def openBracket : UInt8 := 91

def backslash : UInt8 := 92

def closeBracket : UInt8 := 93

def lowerE : UInt8 := 101

def lowerU : UInt8 := 117

def openBrace : UInt8 := 123

def closeBrace : UInt8 := 125

/-- The letters of `true`. -/
def trueWord : Bytes := [116, 114, 117, 101]

/-- The letters of `false`. -/
def falseWord : Bytes := [102, 97, 108, 115, 101]

/-- The letters of `null`. -/
def nullWord : Bytes := [110, 117, 108, 108]

/-- Blank, tabulators, line feed, form feed and carriage return. -/
def isSpace (character : UInt8) : Bool := character = 32 ∨ (9 ≤ character ∧ character ≤ 13)

def isDigit (character : UInt8) : Bool := 48 ≤ character ∧ character ≤ 57

def isExponentMark (character : UInt8) : Bool := character = lowerE ∨ character = upperE

def hexValue (character : UInt8) : Option ℕ :=
  if isDigit character then some (character.toNat - 48)
  else if 65 ≤ character ∧ character ≤ 70 then some (character.toNat - 55)
  else if 97 ≤ character ∧ character ≤ 102 then some (character.toNat - 87)
  else none

/-- The number that four hexadecimal digits stand for. -/
def codePoint (first second third fourth : UInt8) : Option ℕ := do
  let a ← hexValue first
  let b ← hexValue second
  let c ← hexValue third
  let d ← hexValue fourth
  some (4096 * a + 256 * b + 16 * c + d)

def simpleEscape (escaped : UInt8) : Option UInt8 :=
  if escaped = quote ∨ escaped = backslash ∨ escaped = 47 then some escaped
  else if escaped = 98 then some 8
  else if escaped = 102 then some 12
  else if escaped = 110 then some 10
  else if escaped = 114 then some 13
  else if escaped = 116 then some 9
  else none

end Characters

section Leaves

variable (subsystem : String)

def fail (message : String) : Error := ⟨.invalidArgument, message, subsystem⟩

/-- An error that names the position in front of the rest of a document of the given size. -/
def failAt (size : ℕ) (message : String) (rest : Bytes) : Error :=
  fail subsystem (message ++ " at offset " ++ toString (size - rest.length))

/-- The bytes of an escape by code, which the artifact metadata has for the first 128 only. -/
def unicodeEscape (first second third fourth : UInt8) : Result Bytes :=
  match codePoint first second third fourth with
  | none => .error (fail subsystem "unsupported unicode escape")
  | some code =>
      if code ≤ 127 then .ok [UInt8.ofNat code]
      else .error (fail subsystem "unsupported unicode escape")

def prepend (bytes : Bytes) (result : Bytes × Bytes) : Bytes × Bytes :=
  (bytes ++ result.1, result.2)

/-- The value and the rest of a string behind its opening quote. -/
def parseString (escape : UInt8 → UInt8 → UInt8 → UInt8 → Result Bytes) :
    Bytes → Result (Bytes × Bytes)
  | [] => .error (fail subsystem "unterminated JSON string")
  | character :: rest =>
      if character = quote then .ok ([], rest)
      else if character < 32 then .error (fail subsystem "control character in JSON string")
      else if character ≠ backslash then (parseString escape rest).map (prepend [character])
      else
        match rest with
        | [] => .error (fail subsystem "unterminated JSON escape")
        | escaped :: rest =>
            if escaped = lowerU then
              match rest with
              | first :: second :: third :: fourth :: rest =>
                  match escape first second third fourth with
                  | .error e => .error e
                  | .ok bytes => (parseString escape rest).map (prepend bytes)
              | _ => .error (fail subsystem "truncated unicode escape")
            else
              match simpleEscape escaped with
              | none => .error (fail subsystem "invalid JSON escape")
              | some byte => (parseString escape rest).map (prepend [byte])

/-- The fraction of a number token, empty where there is none. -/
def parseFraction : Bytes → Result (Bytes × Bytes)
  | [] => .ok ([], [])
  | next :: rest =>
      if next = dot then
        if rest.takeWhile isDigit = [] then
          .error (fail subsystem "JSON number has an empty fraction")
        else .ok (dot :: rest.takeWhile isDigit, rest.dropWhile isDigit)
      else .ok ([], next :: rest)

/-- The sign of an exponent. -/
def splitSign : Bytes → Bytes × Bytes
  | [] => ([], [])
  | next :: rest => if next = plus ∨ next = minus then ([next], rest) else ([], next :: rest)

/-- The exponent of a number token, empty where there is none. -/
def parseExponent : Bytes → Result (Bytes × Bytes)
  | [] => .ok ([], [])
  | next :: rest =>
      if isExponentMark next then
        let digits := (splitSign rest).2
        if digits.takeWhile isDigit = [] then
          .error (fail subsystem "JSON number has an empty exponent")
        else .ok (next :: ((splitSign rest).1 ++ digits.takeWhile isDigit), digits.dropWhile isDigit)
      else .ok ([], next :: rest)

/-- Whether a number token starts with a minus. -/
def splitMinus : Bytes → Bool × Bytes
  | [] => (false, [])
  | next :: rest => if next = minus then (true, rest) else (false, next :: rest)

def minusText (negative : Bool) : Bytes := if negative then [minus] else []

/-- The value of decimal digits. -/
def digitsValue (digits : Bytes) : ℕ :=
  digits.foldl (fun value digit => 10 * value + (digit.toNat - 48)) 0

/-- The number of a token without fraction and exponent, if it fits 64 bits. -/
def exactInteger (negative : Bool) (digits : Bytes) : Option ℤ :=
  let value : ℤ := if negative then -digitsValue digits else digitsValue digits
  if -2 ^ 63 ≤ value ∧ value < 2 ^ 63 then some value else none

def parseNumber {δ : Type} (numbers : Bytes → Option δ) (size : ℕ) (input : Bytes) :
    Result (Number δ × Bytes) := do
  let (negative, body) := splitMinus input
  let digits := body.takeWhile isDigit
  require (digits ≠ []) (failAt subsystem size "invalid JSON number" input)
  require (¬ (1 < digits.length ∧ digits.head? = some zero))
    (failAt subsystem size "JSON number has a leading zero" input)
  let (fraction, rest) ← parseFraction subsystem (body.dropWhile isDigit)
  let (exponent, rest) ← parseExponent subsystem rest
  match numbers (minusText negative ++ digits ++ fraction ++ exponent) with
  | none => .error (failAt subsystem size "invalid JSON number" input)
  | some value =>
      .ok (⟨value,
        if fraction = [] ∧ exponent = [] then exactInteger negative digits else none⟩, rest)

end Leaves

section StringGrammar

variable (escape : UInt8 → UInt8 → UInt8 → UInt8 → Result Bytes)

/-- The texts of a string behind its opening quote. -/
inductive StringBody : Bytes → Bytes → Prop
  | close : StringBody [quote] []
  | plain {character : UInt8} {text value : Bytes} (hquote : character ≠ quote)
      (hcontrol : ¬ character < 32) (hescape : character ≠ backslash)
      (hlater : StringBody text value) : StringBody (character :: text) (character :: value)
  | escape {escaped byte : UInt8} {text value : Bytes} (hunicode : escaped ≠ lowerU)
      (hescape : simpleEscape escaped = some byte) (hlater : StringBody text value) :
      StringBody (backslash :: escaped :: text) (byte :: value)
  | unicode {first second third fourth : UInt8} {bytes text value : Bytes}
      (hescape : escape first second third fourth = .ok bytes) (hlater : StringBody text value) :
      StringBody (backslash :: lowerU :: first :: second :: third :: fourth :: text)
        (bytes ++ value)

variable {escape} {subsystem : String} {input text value rest : Bytes}

theorem map_prepend_eq_ok {x : Result (Bytes × Bytes)} {bytes : Bytes}
    (h : x.map (prepend bytes) = .ok (value, rest)) :
    ∃ later, x = .ok (later, rest) ∧ value = bytes ++ later := by
  cases x with
  | error e => cases h
  | ok result =>
      cases h
      exact ⟨result.1, rfl, rfl⟩

/-- What is read as a string is the text of its value. -/
theorem parseString_sound (h : parseString subsystem escape input = .ok (value, rest)) :
    ∃ text, input = text ++ rest ∧ StringBody escape text value := by
  fun_induction parseString subsystem escape input generalizing value with
  | case1 => cases h
  | case2 =>
      cases h
      exact ⟨_, rfl, .close⟩
  | case3 => cases h
  | case4 character later hquote hcontrol hescape ih =>
      obtain ⟨tail, hread, rfl⟩ := map_prepend_eq_ok h
      obtain ⟨text, rfl, htext⟩ := ih hread
      exact ⟨_, rfl, .plain hquote hcontrol hescape htext⟩
  | case5 => cases h
  | case6 => cases h
  | case7 character hquote hcontrol hbackslash first second third fourth later bytes hescape ih =>
      obtain ⟨tail, hread, rfl⟩ := map_prepend_eq_ok h
      obtain ⟨text, rfl, htext⟩ := ih hread
      rw [not_ne_iff.mp hbackslash]
      exact ⟨_, rfl, .unicode hescape htext⟩
  | case8 => cases h
  | case9 => cases h
  | case10 character hquote hcontrol hbackslash escaped later hunicode byte hescape ih =>
      obtain ⟨tail, hread, rfl⟩ := map_prepend_eq_ok h
      obtain ⟨text, rfl, htext⟩ := ih hread
      rw [not_ne_iff.mp hbackslash]
      exact ⟨_, rfl, .escape hunicode hescape htext⟩

/-- Every text of a string is read. -/
theorem parseString_complete (h : StringBody escape text value) :
    parseString subsystem escape (text ++ rest) = .ok (value, rest) := by
  have hquote : backslash ≠ quote := by decide
  have hcontrol : ¬ backslash < 32 := by decide
  induction h with
  | close =>
      rw [List.cons_append, List.nil_append, parseString.eq_def]
      simp only [if_true]
  | plain hne hprintable hescape _ ih =>
      rw [List.cons_append, parseString.eq_def]
      simp only [if_neg hne, if_neg hprintable, if_pos hescape, ih]
      rfl
  | escape hunicode hescape _ ih =>
      rw [List.cons_append, List.cons_append, parseString.eq_def]
      simp only [if_neg hquote, if_neg hcontrol, ne_eq, not_true_eq_false, if_false,
        if_neg hunicode, hescape, ih]
      rfl
  | unicode hescape _ ih =>
      simp only [List.cons_append]
      rw [parseString.eq_def]
      simp only [if_neg hquote, if_neg hcontrol, ne_eq, not_true_eq_false, if_false, if_true,
        hescape, ih]
      rfl

theorem StringBody.ne_nil (h : StringBody escape text value) : text ≠ [] := by
  cases h <;> exact List.cons_ne_nil _ _

end StringGrammar

section NumberGrammar

def IsDigits (digits : Bytes) : Prop := digits ≠ [] ∧ ∀ digit ∈ digits, isDigit digit = true

def IsFraction (fraction : Bytes) : Prop :=
  fraction = [] ∨ ∃ digits, IsDigits digits ∧ fraction = dot :: digits

def IsExponent (exponent : Bytes) : Prop :=
  exponent = [] ∨ ∃ mark sign digits, isExponentMark mark = true ∧
    (sign = [] ∨ sign = [plus] ∨ sign = [minus]) ∧ IsDigits digits ∧
    exponent = mark :: (sign ++ digits)

/-- The parts of a number token; only a single digit may be a leading zero. -/
structure NumberParts where
  negative : Bool
  digits : Bytes
  fraction : Bytes
  exponent : Bytes
  digits_ok : IsDigits digits
  leading_ok : ¬ (1 < digits.length ∧ digits.head? = some zero)
  fraction_ok : IsFraction fraction
  exponent_ok : IsExponent exponent

namespace NumberParts

def text (parts : NumberParts) : Bytes :=
  minusText parts.negative ++ parts.digits ++ parts.fraction ++ parts.exponent

def integer (parts : NumberParts) : Option ℤ :=
  if parts.fraction = [] ∧ parts.exponent = [] then exactInteger parts.negative parts.digits
  else none

end NumberParts

/-- Characters that a number token may go on with. -/
def continuesNumber (character : UInt8) : Bool :=
  isDigit character ∨ character = dot ∨ isExponentMark character

theorem isSpace_of_isDigit {character : UInt8} (h : isDigit character = true) :
    isSpace character = false := by
  simp only [isDigit, Bool.decide_and, Bool.and_eq_true, decide_eq_true_eq,
    UInt8.le_iff_toNat_le] at h
  simp only [isSpace, Bool.decide_or, Bool.decide_and, Bool.or_eq_false_iff,
    Bool.and_eq_false_iff, decide_eq_false_iff_not, UInt8.le_iff_toNat_le, ← UInt8.toNat_inj]
  simp at h ⊢
  omega

theorem continuesNumber_of_isSpace {character : UInt8} (h : isSpace character = true) :
    continuesNumber character = false := by
  rw [Bool.eq_false_iff]
  intro hcontinues
  simp only [continuesNumber, Bool.decide_or, Bool.or_eq_true, decide_eq_true_eq,
    Bool.decide_eq_true] at hcontinues
  rcases hcontinues with hdigit | rfl | hmark
  · rw [isSpace_of_isDigit hdigit] at h
    cases h
  · cases h
  · simp only [isExponentMark, Bool.decide_or, Bool.or_eq_true, decide_eq_true_eq] at hmark
    rcases hmark with rfl | rfl
    · cases h
    · cases h

variable {subsystem : String} {input fraction exponent rest : Bytes}

theorem isDigits_takeWhile (h : input.takeWhile isDigit ≠ []) :
    IsDigits (input.takeWhile isDigit) := ⟨h, fun _ hmem => mem_takeWhile hmem⟩

theorem parseFraction_sound (h : parseFraction subsystem input = .ok (fraction, rest)) :
    input = fraction ++ rest ∧ IsFraction fraction := by
  cases input with
  | nil =>
      cases h
      exact ⟨rfl, .inl rfl⟩
  | cons next later =>
      rw [parseFraction] at h
      split at h
      · rename_i hdot
        split at h
        · cases h
        · rename_i hdigits
          cases h
          refine ⟨?_, .inr ⟨_, isDigits_takeWhile hdigits, rfl⟩⟩
          rw [hdot, List.cons_append, List.takeWhile_append_dropWhile]
      · cases h
        exact ⟨rfl, .inl rfl⟩

theorem parseFraction_complete (h : IsFraction fraction) (hdigit : StopsAt isDigit rest)
    (hdot : rest.head? ≠ some dot) :
    parseFraction subsystem (fraction ++ rest) = .ok (fraction, rest) := by
  rcases h with rfl | ⟨digits, ⟨hne, hdigits⟩, rfl⟩
  · cases rest with
    | nil => rfl
    | cons next later =>
        have hnext : next ≠ dot := fun heq => hdot (heq ▸ rfl)
        rw [List.nil_append, parseFraction, if_neg hnext]
  · rw [List.cons_append, parseFraction, if_pos rfl, takeWhile_span hdigits hdigit, if_neg hne,
      dropWhile_span hdigits hdigit]

theorem splitSign_sound (input : Bytes) :
    input = (splitSign input).1 ++ (splitSign input).2 ∧
      ((splitSign input).1 = [] ∨ (splitSign input).1 = [plus] ∨
        (splitSign input).1 = [minus]) := by
  cases input with
  | nil => exact ⟨rfl, .inl rfl⟩
  | cons next later =>
      rw [splitSign]
      split
      · rename_i hsign
        rcases hsign with rfl | rfl
        · exact ⟨rfl, .inr (.inl rfl)⟩
        · exact ⟨rfl, .inr (.inr rfl)⟩
      · exact ⟨rfl, .inl rfl⟩

theorem splitSign_complete {sign digits : Bytes} (hsign : sign = [] ∨ sign = [plus] ∨ sign = [minus])
    (hdigits : IsDigits digits) : splitSign (sign ++ (digits ++ rest)) = (sign, digits ++ rest) := by
  rcases hsign with rfl | rfl | rfl
  · obtain ⟨hne, hall⟩ := hdigits
    cases digits with
    | nil => exact absurd rfl hne
    | cons digit digits =>
        have hdigit := hall digit List.mem_cons_self
        have hnot : ¬ (digit = plus ∨ digit = minus) := by
          rintro (rfl | rfl)
          · exact absurd hdigit (by decide)
          · exact absurd hdigit (by decide)
        rw [List.nil_append, List.cons_append, splitSign, if_neg hnot]
  · rfl
  · rfl

theorem parseExponent_sound (h : parseExponent subsystem input = .ok (exponent, rest)) :
    input = exponent ++ rest ∧ IsExponent exponent := by
  cases input with
  | nil =>
      cases h
      exact ⟨rfl, .inl rfl⟩
  | cons next later =>
      obtain ⟨hlater, hsign⟩ := splitSign_sound later
      rw [parseExponent] at h
      split at h
      · rename_i hmark
        simp only at h
        split at h
        · cases h
        · rename_i hdigits
          cases h
          refine ⟨?_, .inr ⟨next, _, _, hmark, hsign, isDigits_takeWhile hdigits, rfl⟩⟩
          rw [List.cons_append, List.append_assoc, List.takeWhile_append_dropWhile, ← hlater]
      · cases h
        exact ⟨rfl, .inl rfl⟩

theorem parseExponent_complete (h : IsExponent exponent) (hrest : StopsAt continuesNumber rest) :
    parseExponent subsystem (exponent ++ rest) = .ok (exponent, rest) := by
  rcases h with rfl | ⟨mark, sign, digits, hmark, hsign, hdigits, rfl⟩
  · cases rest with
    | nil => rfl
    | cons next later =>
        have hnext : ¬ isExponentMark next = true := by
          intro hmark
          have hstop := stopsAt_cons.mp hrest
          simp [continuesNumber, hmark] at hstop
        rw [List.nil_append, parseExponent, if_neg hnext]
  · have hdigit : StopsAt isDigit rest := fun next hnext => by
      have hstop := hrest next hnext
      simp only [continuesNumber, Bool.decide_or, Bool.decide_eq_true, Bool.or_eq_false_iff] at hstop
      exact hstop.1
    rw [List.cons_append, List.append_assoc, parseExponent, if_pos hmark]
    simp only [splitSign_complete hsign hdigits]
    rw [takeWhile_span hdigits.2 hdigit, if_neg hdigits.1, dropWhile_span hdigits.2 hdigit]

theorem splitMinus_sound (input : Bytes) :
    input = minusText (splitMinus input).1 ++ (splitMinus input).2 := by
  cases input with
  | nil => rfl
  | cons next later =>
      rw [splitMinus]
      split
      · rename_i hminus
        rw [hminus]
        rfl
      · rfl

variable {δ : Type} {numbers : Bytes → Option δ} {size : ℕ} {number : Number δ}

/-- What is read as a number is a number token that can be converted. -/
theorem parseNumber_sound (h : parseNumber subsystem numbers size input = .ok (number, rest)) :
    ∃ (parts : NumberParts) (converted : δ), input = parts.text ++ rest ∧
      numbers parts.text = some converted ∧ number = ⟨converted, parts.integer⟩ := by
  have hinput := splitMinus_sound input
  rcases hminus : splitMinus input with ⟨negative, body⟩
  rw [hminus] at hinput
  simp only [parseNumber, hminus] at h
  obtain ⟨_, hdigits, h⟩ := bind_eq_ok.mp h
  obtain ⟨_, hleading, h⟩ := bind_eq_ok.mp h
  obtain ⟨⟨fraction, middle⟩, hfraction, h⟩ := bind_eq_ok.mp h
  obtain ⟨⟨exponent, last⟩, hexponent, h⟩ := bind_eq_ok.mp h
  obtain ⟨hbody, hisFraction⟩ := parseFraction_sound hfraction
  obtain ⟨hmiddle, hisExponent⟩ : middle = exponent ++ last ∧ IsExponent exponent :=
    parseExponent_sound hexponent
  simp only at h
  split at h
  · cases h
  · rename_i converted hconverted
    cases h
    let parts : NumberParts := {
      negative := negative
      digits := body.takeWhile isDigit
      fraction := fraction
      exponent := exponent
      digits_ok := isDigits_takeWhile (require_eq_ok.mp hdigits)
      leading_ok := require_eq_ok.mp hleading
      fraction_ok := hisFraction
      exponent_ok := hisExponent }
    refine ⟨parts, converted, ?_, hconverted, rfl⟩
    calc input = minusText negative ++ body := hinput
      _ = minusText negative ++ (body.takeWhile isDigit ++ body.dropWhile isDigit) := by
        rw [List.takeWhile_append_dropWhile]
      _ = parts.text ++ rest := by
        simp only [NumberParts.text, parts, List.append_assoc, hbody, hmiddle]

theorem stopsAt_isDigit_fraction (h : IsFraction fraction) (hrest : StopsAt isDigit rest) :
    StopsAt isDigit (fraction ++ rest) := by
  rcases h with rfl | ⟨digits, -, rfl⟩
  · exact hrest
  · exact stopsAt_cons.mpr (by decide)

theorem stopsAt_isDigit_exponent (h : IsExponent exponent) (hrest : StopsAt isDigit rest) :
    StopsAt isDigit (exponent ++ rest) := by
  rcases h with rfl | ⟨mark, sign, digits, hmark, -, -, rfl⟩
  · exact hrest
  · refine stopsAt_cons.mpr ?_
    simp only [isExponentMark, Bool.decide_or, Bool.or_eq_true, decide_eq_true_eq] at hmark
    rcases hmark with rfl | rfl <;> decide

/-- Every number token that can be converted is read where the rest does not go on with it. -/
theorem parseNumber_complete {parts : NumberParts} {converted : δ}
    (hconverted : numbers parts.text = some converted) (hrest : StopsAt continuesNumber rest) :
    parseNumber subsystem numbers size (parts.text ++ rest) =
      .ok (⟨converted, parts.integer⟩, rest) := by
  obtain ⟨hne, hall⟩ := parts.digits_ok
  have hdigit : StopsAt isDigit rest := fun next hnext => by
    have hstop := hrest next hnext
    simp only [continuesNumber, Bool.decide_or, Bool.decide_eq_true, Bool.or_eq_false_iff] at hstop
    exact hstop.1
  have hafter := stopsAt_isDigit_exponent parts.exponent_ok hdigit
  have hbehind := stopsAt_isDigit_fraction parts.fraction_ok hafter
  have hdot : (parts.exponent ++ rest).head? ≠ some dot := by
    rcases parts.exponent_ok with hnil | ⟨mark, sign, digits, hmark, -, -, heq⟩
    · rw [hnil, List.nil_append]
      intro hhead
      have hstop := hrest dot hhead
      exact absurd hstop (by decide)
    · rw [heq, List.cons_append, List.head?_cons]
      intro hhead
      rw [Option.some.inj hhead] at hmark
      exact absurd hmark (by decide)
  have htext : parts.text ++ rest = minusText parts.negative ++
      (parts.digits ++ (parts.fraction ++ (parts.exponent ++ rest))) := by
    simp only [NumberParts.text, List.append_assoc]
  have hsplit : splitMinus (parts.text ++ rest) =
      (parts.negative, parts.digits ++ (parts.fraction ++ (parts.exponent ++ rest))) := by
    rw [htext]
    cases parts.negative with
    | true => rfl
    | false =>
        cases hdigits : parts.digits with
        | nil => exact absurd hdigits hne
        | cons digit digits =>
            have hisDigit := hall digit (by rw [hdigits]; exact List.mem_cons_self)
            have hminus : digit ≠ minus := by
              rintro rfl
              exact absurd hisDigit (by decide)
            rw [minusText, if_neg Bool.false_ne_true, List.nil_append, List.cons_append, splitMinus,
              if_neg hminus]
  simp only [parseNumber, hsplit, takeWhile_span hall hbehind, dropWhile_span hall hbehind]
  rw [require, if_pos hne, ok_bind, require, if_pos parts.leading_ok, ok_bind,
    parseFraction_complete parts.fraction_ok hafter hdot, ok_bind]
  simp only [parseExponent_complete parts.exponent_ok hrest, ok_bind]
  have hnumber : numbers (minusText parts.negative ++ parts.digits ++ parts.fraction ++
      parts.exponent) = some converted := hconverted
  rw [hnumber]
  rfl

theorem NumberParts.text_ne_nil (parts : NumberParts) : parts.text ≠ [] := by
  intro hnil
  simp only [NumberParts.text, List.append_eq_nil_iff] at hnil
  exact parts.digits_ok.1 hnil.1.1.2

/-- A number token starts with a minus or a digit. -/
theorem NumberParts.text_eq_cons (parts : NumberParts) :
    ∃ next tail, parts.text = next :: tail ∧ (next = minus ∨ isDigit next = true) := by
  have htext : parts.text = minusText parts.negative ++
      (parts.digits ++ (parts.fraction ++ parts.exponent)) := by
    simp only [NumberParts.text, List.append_assoc]
  rw [htext]
  cases parts.negative with
  | true => exact ⟨minus, _, rfl, .inl rfl⟩
  | false =>
      obtain ⟨hne, hall⟩ := parts.digits_ok
      cases hdigits : parts.digits with
      | nil => exact absurd hdigits hne
      | cons digit digits =>
          exact ⟨digit, _, rfl, .inr (hall digit (hdigits ▸ List.mem_cons_self))⟩

end NumberGrammar

end Nvcr.Json
