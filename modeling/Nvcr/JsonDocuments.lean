import Nvcr.JsonTexts

/-!
# Documents and the values they stand for

The artifact metadata and the engine catalog have a parser each, which differ in the strings and
numbers they read and in the bound on the nesting. The rest is one recursive descent, level by
level of nesting. A document is accepted with a value exactly when it is a text of the value.
-/

namespace Nvcr.Json

open TextReaders OrderedEntries StatefulResults

section Readers

/-- The readers of strings, behind their opening quote, and of numbers. -/
structure Leaves (ν : Type) where
  string : Reader UInt8 Error Bytes
  number : Reader UInt8 Error ν
  startsNumber : UInt8 → Bool

variable {ν : Type} (subsystem : String) (size : ℕ) (leaves : Leaves ν)

/-- A key and its value, the first of them behind optional space. -/
def parseMember (inner : Reader UInt8 Error (Value ν)) (input : Bytes) :
    Result ((Bytes × Value ν) × Bytes) :=
  match input.dropWhile isSpace with
  | [] => .error (fail subsystem "object key must be a JSON string")
  | next :: rest =>
      if next ≠ quote then .error (fail subsystem "object key must be a JSON string")
      else do
        let (key, rest) ← leaves.string.read rest
        match rest.dropWhile isSpace with
        | [] => .error (fail subsystem "object key is missing ':'")
        | next :: rest =>
            if next ≠ colon then .error (fail subsystem "object key is missing ':'")
            else do
              let (value, rest) ← inner.read rest
              .ok ((key, value), rest)

/-- The parts of a member that was read. -/
theorem parseMember_eq_ok {inner : Reader UInt8 Error (Value ν)} {input rest : Bytes}
    {member : Bytes × Value ν} (h : parseMember subsystem leaves inner input = .ok (member, rest)) :
    ∃ behind middle later, input.dropWhile isSpace = quote :: behind ∧
      leaves.string.read behind = .ok (member.1, middle) ∧
      middle.dropWhile isSpace = colon :: later ∧ inner.read later = .ok (member.2, rest) := by
  rw [parseMember] at h
  split at h
  · cases h
  · rename_i next behind hskip
    split at h
    · cases h
    · rename_i hquote
      obtain ⟨⟨key, middle⟩, hkey, h⟩ := bind_eq_ok.mp h
      simp only at h
      split at h
      · cases h
      · rename_i next' later hskip'
        split at h
        · cases h
        · rename_i hcolon
          obtain ⟨⟨value, last⟩, hvalue, h⟩ := bind_eq_ok.mp h
          cases h
          rw [not_ne_iff.mp hquote] at hskip
          rw [not_ne_iff.mp hcolon] at hskip'
          exact ⟨behind, middle, later, hskip, hkey, hskip', hvalue⟩

theorem length_lt_of_dropWhile {input later : Bytes} {next : UInt8}
    (h : input.dropWhile isSpace = next :: later) : later.length < input.length := by
  have hskipped := length_dropWhile_le isSpace input
  rw [h, List.length_cons] at hskipped
  exact hskipped

theorem parseMember_consumes {inner : Reader UInt8 Error (Value ν)} {input rest : Bytes}
    {member : Bytes × Value ν} (h : parseMember subsystem leaves inner input = .ok (member, rest)) :
    rest.length < input.length := by
  obtain ⟨behind, middle, later, hskip, hkey, hskip', hvalue⟩ :=
    parseMember_eq_ok subsystem leaves h
  calc rest.length
      < later.length := inner.consumes hvalue
    _ < middle.length := length_lt_of_dropWhile hskip'
    _ < behind.length := leaves.string.consumes hkey
    _ < input.length := length_lt_of_dropWhile hskip

def memberReader (inner : Reader UInt8 Error (Value ν)) : Reader UInt8 Error (Bytes × Value ν) :=
  ⟨parseMember subsystem leaves inner, parseMember_consumes subsystem leaves⟩

def appendElement (elements : List (Value ν)) (element : Value ν) : Result (List (Value ν)) :=
  .ok (elements ++ [element])

def emplaceMember (members : List (Bytes × Value ν)) (member : Bytes × Value ν) :
    Result (List (Bytes × Value ν)) :=
  match insertEntry member members with
  | none => .error (fail subsystem "duplicate object key")
  | some members => .ok members

def parseArray (inner : Reader UInt8 Error (Value ν)) (input : Bytes) :
    Result (Value ν × Bytes) := do
  let (elements, rest) ← readList inner appendElement isSpace closeBracket comma
    (fail subsystem "array element is missing ','") [] input
  .ok (.array elements, rest)

def parseObject (inner : Reader UInt8 Error (Value ν)) (input : Bytes) :
    Result (Value ν × Bytes) := do
  let (members, rest) ← readList (memberReader subsystem leaves inner) (emplaceMember subsystem)
    isSpace closeBrace comma (fail subsystem "object member is missing ','") [] input
  .ok (.object members, rest)

def parseLiteral (literal : Bytes) (value : Value ν) (input : Bytes) : Result (Value ν × Bytes) :=
  if input.take literal.length = literal then .ok (value, input.drop literal.length)
  else .error (failAt subsystem size "invalid JSON literal" input)

/-- A value that is what a leaf was read as. -/
def parseLeaf {α : Type} (leaf : Reader UInt8 Error α) (make : α → Value ν) (input : Bytes) :
    Result (Value ν × Bytes) := do
  let (value, rest) ← leaf.read input
  .ok (make value, rest)

/-- The value that starts with a character, with a reader of the values it holds. -/
def parseToken (inner : Reader UInt8 Error (Value ν)) (next : UInt8) (rest : Bytes) :
    Result (Value ν × Bytes) :=
  if next = openBrace then parseObject subsystem leaves inner rest
  else if next = openBracket then parseArray subsystem inner rest
  else if next = quote then parseLeaf leaves.string .string rest
  else if next = 116 then parseLiteral subsystem size trueWord (.boolean true) (next :: rest)
  else if next = 102 then parseLiteral subsystem size falseWord (.boolean false) (next :: rest)
  else if next = 110 then parseLiteral subsystem size nullWord .null (next :: rest)
  else if leaves.startsNumber next then parseLeaf leaves.number .number (next :: rest)
  else .error (failAt subsystem size "unexpected JSON token" (next :: rest))

def parseValue (inner : Reader UInt8 Error (Value ν)) (input : Bytes) :
    Result (Value ν × Bytes) :=
  match input.dropWhile isSpace with
  | [] => .error (fail subsystem "unexpected end of JSON")
  | next :: rest => parseToken subsystem size leaves inner next rest

variable {subsystem size leaves} {inner other : Reader UInt8 Error (Value ν)} {next : UInt8}
  {input rest literal : Bytes} {value : Value ν}

theorem parseArray_eq_ok (h : parseArray subsystem inner input = .ok (value, rest)) :
    ∃ elements, value = .array elements ∧ readList inner appendElement isSpace closeBracket comma
      (fail subsystem "array element is missing ','") [] input = .ok (elements, rest) := by
  obtain ⟨⟨elements, last⟩, hitems, hlast⟩ := bind_eq_ok.mp h
  cases hlast
  exact ⟨elements, rfl, hitems⟩

theorem parseObject_eq_ok (h : parseObject subsystem leaves inner input = .ok (value, rest)) :
    ∃ members, value = .object members ∧ readList (memberReader subsystem leaves inner)
      (emplaceMember subsystem) isSpace closeBrace comma
      (fail subsystem "object member is missing ','") [] input = .ok (members, rest) := by
  obtain ⟨⟨members, last⟩, hitems, hlast⟩ := bind_eq_ok.mp h
  cases hlast
  exact ⟨members, rfl, hitems⟩

theorem parseLeaf_eq_ok {α : Type} {leaf : Reader UInt8 Error α} {make : α → Value ν}
    (h : parseLeaf leaf make input = .ok (value, rest)) :
    ∃ result, value = make result ∧ leaf.read input = .ok (result, rest) := by
  obtain ⟨⟨result, last⟩, hread, hlast⟩ := bind_eq_ok.mp h
  cases hlast
  exact ⟨result, rfl, hread⟩

theorem parseLiteral_eq_ok {result : Value ν}
    (h : parseLiteral subsystem size literal value input = .ok (result, rest)) :
    result = value ∧ input = literal ++ rest := by
  rw [parseLiteral] at h
  split at h
  · rename_i htake
    cases h
    refine ⟨rfl, ?_⟩
    conv_lhs => rw [← List.take_append_drop literal.length input, htake]
  · cases h

theorem parseLiteral_append (rest : Bytes) :
    parseLiteral subsystem size literal value (literal ++ rest) = .ok (value, rest) := by
  rw [parseLiteral, List.take_left, if_pos rfl, List.drop_left]

theorem parseToken_consumes
    (h : parseToken subsystem size leaves inner next input = .ok (value, rest)) :
    rest.length < (next :: input).length := by
  have hliteral {literal : Bytes} {result : Value ν} (hne : literal ≠ [])
      (h : parseLiteral subsystem size literal result (next :: input) = .ok (value, rest)) :
      rest.length < (next :: input).length := by
    rw [(parseLiteral_eq_ok h).2, List.length_append]
    exact Nat.lt_add_of_pos_left (List.length_pos_iff.mpr hne)
  rw [parseToken] at h
  split at h
  · obtain ⟨members, -, hitems⟩ := parseObject_eq_ok h
    exact (readList_consumes hitems).trans (Nat.lt_succ_self _)
  split at h
  · obtain ⟨elements, -, hitems⟩ := parseArray_eq_ok h
    exact (readList_consumes hitems).trans (Nat.lt_succ_self _)
  split at h
  · obtain ⟨text, -, hread⟩ := parseLeaf_eq_ok h
    exact (leaves.string.consumes hread).trans (Nat.lt_succ_self _)
  split at h
  · exact hliteral (List.cons_ne_nil _ _) h
  split at h
  · exact hliteral (List.cons_ne_nil _ _) h
  split at h
  · exact hliteral (List.cons_ne_nil _ _) h
  split at h
  · obtain ⟨number, -, hread⟩ := parseLeaf_eq_ok h
    exact leaves.number.consumes hread
  · cases h

theorem parseValue_consumes
    (h : parseValue subsystem size leaves inner input = .ok (value, rest)) :
    rest.length < input.length := by
  rw [parseValue] at h
  split at h
  · cases h
  · rename_i next later hskip
    exact (parseToken_consumes h).trans_le (hskip ▸ length_dropWhile_le isSpace input)

theorem parseMember_congr
    (h : ∀ later, later.length ≤ input.length → inner.read later = other.read later) :
    parseMember subsystem leaves inner input = parseMember subsystem leaves other input := by
  rw [parseMember, parseMember]
  split
  · rfl
  · rename_i next behind hskip
    split
    · rfl
    · cases hkey : leaves.string.read behind with
      | error e => rfl
      | ok result =>
          obtain ⟨key, middle⟩ := result
          simp only [ok_bind]
          split
          · rfl
          · rename_i next' later hskip'
            have hlater : later.length ≤ input.length :=
              (((length_lt_of_dropWhile hskip').trans (leaves.string.consumes hkey)).trans
                (length_lt_of_dropWhile hskip)).le
            rw [h later hlater]

/-- A value depends only on how what is behind its first character is read. -/
theorem parseValue_congr
    (h : ∀ later, later.length < input.length → inner.read later = other.read later) :
    parseValue subsystem size leaves inner input = parseValue subsystem size leaves other input := by
  rw [parseValue, parseValue]
  split
  · rfl
  · rename_i next rest hskip
    have hrest : ∀ later, later.length ≤ rest.length → inner.read later = other.read later :=
      fun later hlater => h later (hlater.trans_lt (length_lt_of_dropWhile hskip))
    have hmembers : ∀ later, later.length ≤ rest.length →
        (memberReader subsystem leaves inner).read later =
          (memberReader subsystem leaves other).read later :=
      fun later hlater => parseMember_congr fun behind hbehind => hrest behind (hbehind.trans hlater)
    rw [parseToken, parseToken, parseObject, parseObject, parseArray, parseArray,
      readList_congr hrest, readList_congr hmembers]

variable (subsystem size leaves)

/-- The reader of values that are nested at most so many levels deep. -/
def valueReader : ℕ → Reader UInt8 Error (Value ν)
  | 0 => ⟨fun _ => .error (fail subsystem "JSON nesting is too deep"), fun h => by cases h⟩
  | levels + 1 => ⟨parseValue subsystem size leaves (valueReader levels), parseValue_consumes⟩

/-- Levels beyond the length of a text make no difference. -/
theorem valueReader_congr {levels levels' : ℕ} (hlevels : input.length < levels)
    (hlevels' : input.length < levels') :
    (valueReader subsystem size leaves levels).read input =
      (valueReader subsystem size leaves levels').read input := by
  induction levels generalizing levels' input with
  | zero => exact absurd hlevels (Nat.not_lt_zero _)
  | succ levels ih =>
      cases levels' with
      | zero => exact absurd hlevels' (Nat.not_lt_zero _)
      | succ levels' =>
          refine parseValue_congr fun later hlater => ?_
          exact ih (hlater.trans_le (Nat.le_of_lt_succ hlevels))
            (hlater.trans_le (Nat.le_of_lt_succ hlevels'))

/-- The reader of values without a bound on the nesting: every level uses up a character. -/
def unboundedReader : Reader UInt8 Error (Value ν) :=
  ⟨fun input => (valueReader subsystem size leaves (input.length + 1)).read input,
    fun h => (valueReader subsystem size leaves _).consumes h⟩

/-- The reader without a bound reads what a value holds by itself. -/
theorem unboundedReader_read (input : Bytes) :
    (unboundedReader subsystem size leaves).read input =
      parseValue subsystem size leaves (unboundedReader subsystem size leaves) input :=
  parseValue_congr fun _ hlater =>
    valueReader_congr subsystem size leaves hlater (Nat.lt_succ_self _)

end Readers

/-- The one value of a document. -/
def parseDocument {ν : Type} (subsystem : String) (reader : Reader UInt8 Error (Value ν))
    (document : Bytes) : Result (Value ν) := do
  let (value, rest) ← reader.read document
  let rest := rest.dropWhile isSpace
  require (rest = []) (failAt subsystem document.length "trailing JSON data" rest)
  .ok value

section Metadata

variable {δ : Type} (subsystem : String) (numbers : Bytes → Option δ) (size : ℕ)

/-- A string uses up its closing quote. -/
theorem parseString_consumes {subsystem : String}
    {escape : UInt8 → UInt8 → UInt8 → UInt8 → Result Bytes} {input value rest : Bytes}
    (h : parseString subsystem escape input = .ok (value, rest)) : rest.length < input.length := by
  obtain ⟨text, rfl, htext⟩ := parseString_sound h
  rw [List.length_append]
  exact Nat.lt_add_of_pos_left (List.length_pos_iff.mpr htext.ne_nil)

theorem parseNumber_consumes {subsystem : String} {numbers : Bytes → Option δ} {size : ℕ}
    {input rest : Bytes} {number : Number δ}
    (h : parseNumber subsystem numbers size input = .ok (number, rest)) :
    rest.length < input.length := by
  obtain ⟨parts, converted, rfl, -, -⟩ := parseNumber_sound h
  rw [List.length_append]
  exact Nat.lt_add_of_pos_left (List.length_pos_iff.mpr parts.text_ne_nil)

/-- Strings and numbers of the artifact metadata. -/
def metadataLeaves : Leaves (Number δ) where
  string := ⟨parseString subsystem (unicodeEscape subsystem), parseString_consumes⟩
  number := ⟨parseNumber subsystem numbers size, parseNumber_consumes⟩
  startsNumber next := next = minus ∨ isDigit next

def maximumDepth : ℕ := 64

def parse (document : Bytes) : Result (Value (Number δ)) :=
  parseDocument subsystem (valueReader subsystem document.length
    (metadataLeaves subsystem numbers document.length) (maximumDepth + 1)) document

end Metadata

section Grammar

/-- The texts of strings, behind their opening quote, and of numbers. -/
structure Grammar (ν : Type) where
  string : Bytes → Bytes → Prop
  number : Bytes → ν → Prop

variable {ν : Type} (grammar : Grammar ν)

def Spaces (gap : Bytes) : Prop := ∀ character ∈ gap, isSpace character = true

/-- A key and a value text behind a colon. -/
def MemberText (inner : Bytes → Value ν → Prop) (word : Bytes) (member : Bytes × Value ν) : Prop :=
  ∃ key gap text, grammar.string key member.1 ∧ Spaces gap ∧ inner text member.2 ∧
    word = quote :: (key ++ (gap ++ colon :: text))

/-- The texts of a value from its first character on; an object holds its members in the order of
their keys, which are distinct. -/
inductive TokenText (inner : Bytes → Value ν → Prop) : Bytes → Value ν → Prop
  | null : TokenText inner nullWord .null
  | true : TokenText inner trueWord (.boolean true)
  | false : TokenText inner falseWord (.boolean false)
  | number {text : Bytes} {value : ν} (htext : grammar.number text value) :
      TokenText inner text (.number value)
  | string {text value : Bytes} (htext : grammar.string text value) :
      TokenText inner (quote :: text) (.string value)
  | array {text : Bytes} {elements : List (Value ν)}
      (htext : ListText inner isSpace closeBracket comma text elements) :
      TokenText inner (openBracket :: text) (.array elements)
  | object {text : Bytes} {members entries : List (Bytes × Value ν)}
      (htext : ListText (Spaced isSpace (MemberText grammar inner)) isSpace closeBrace comma text
        members)
      (horder : InOrder entries) (hentries : entries.Perm members) :
      TokenText inner (openBrace :: text) (.object entries)

/-- The texts, from their first character on, of values that are nested at most so many levels
deep. -/
def ValueText : ℕ → Bytes → Value ν → Prop
  | 0 => fun _ _ => False
  | levels + 1 => TokenText grammar (Spaced isSpace (ValueText levels))

/-- The texts of values that are nested to any depth. -/
def AnyText (token : Bytes) (value : Value ν) : Prop := ∃ levels, ValueText grammar levels token value

/-- A document is the text of one value with optional space around it. -/
def Document (language : Bytes → Value ν → Prop) (document : Bytes) (value : Value ν) : Prop :=
  ∃ word gap, Spaced isSpace language word value ∧ Spaces gap ∧ document = word ++ gap

variable {grammar} {language wider : Bytes → Value ν → Prop} {token : Bytes} {value : Value ν}

theorem TokenText.imp (h : ∀ {token value}, language token value → wider token value)
    (htoken : TokenText grammar language token value) : TokenText grammar wider token value := by
  cases htoken with
  | null => exact .null
  | true => exact .true
  | false => exact .false
  | number htext => exact .number htext
  | string htext => exact .string htext
  | array htext => exact .array (htext.imp h)
  | object htext horder hentries =>
      refine .object (htext.imp ?_) horder hentries
      rintro word member ⟨gap, text, hgap, ⟨key, between, inner, hkey, hbetween, hinner, rfl⟩, rfl⟩
      exact ⟨gap, _, hgap, ⟨key, between, inner, hkey, hbetween, h hinner, rfl⟩, rfl⟩

theorem Spaced.imp (h : ∀ {token value}, language token value → wider token value) {word : Bytes}
    (hword : Spaced isSpace language word value) : Spaced isSpace wider word value := by
  obtain ⟨gap, token, hgap, htoken, rfl⟩ := hword
  exact ⟨gap, token, hgap, h htoken, rfl⟩

/-- A text stays one when more levels are allowed. -/
theorem ValueText.mono {levels levels' : ℕ} (hle : levels ≤ levels')
    (h : ValueText grammar levels token value) : ValueText grammar levels' token value := by
  induction levels generalizing levels' token value with
  | zero => cases h
  | succ levels ih =>
      obtain ⟨further, rfl⟩ := Nat.exists_eq_add_of_le' (Nat.le_trans (Nat.succ_pos levels) hle)
      exact TokenText.imp (Spaced.imp (ih (Nat.le_of_succ_le_succ hle))) h

end Grammar

section Correctness

variable {ν : Type} {subsystem : String} {size : ℕ} {leaves : Leaves ν} {grammar : Grammar ν}
  {inner : Reader UInt8 Error (Value ν)} {language : Bytes → Value ν → Prop}
  {input rest text : Bytes} {value : Value ν}

instance keyOrder : IsStrictTotalOrder Bytes (· < ·) where
  trichotomous _ _ hnot hnot' :=
    List.le_antisymm (List.not_lt.mp hnot') (List.not_lt.mp hnot)
  irrefl := List.lt_irrefl
  trans _ _ _ := List.lt_trans

/-- What may follow a value: no character that a number could go on with. -/
def Follows (rest : Bytes) : Prop := StopsAt continuesNumber rest

/-- The readers of strings and numbers read the texts of the grammar. -/
structure Leaves.Reads (leaves : Leaves ν) (grammar : Grammar ν) : Prop where
  string : leaves.string.Reads grammar.string fun _ => True
  number : leaves.number.Reads grammar.number Follows
  number_starts : ∀ {text number}, grammar.number text number →
    ∃ next tail, text = next :: tail ∧ leaves.startsNumber next = true
  starts_ok : ∀ {next}, leaves.startsNumber next = true → next = minus ∨ isDigit next = true

theorem follows_cons {next : UInt8} (hnext : isSpace next = true ∨ next = closeBracket ∨
    next = closeBrace ∨ next = comma) : Follows (next :: rest) := by
  refine stopsAt_cons.mpr ?_
  rcases hnext with hspace | rfl | rfl | rfl
  · exact continuesNumber_of_isSpace hspace
  · rfl
  · rfl
  · rfl

theorem follows_of_spaces (h : Spaces rest) : Follows rest := by
  cases rest with
  | nil => exact stopsAt_nil
  | cons next rest => exact follows_cons (.inl (h next List.mem_cons_self))

theorem memberText_startsOutside : StartsOutside isSpace (MemberText grammar language) := by
  rintro word member ⟨key, gap, text, -, -, -, rfl⟩
  exact ⟨_, _, rfl, by decide⟩

/-- Members are read like their values. -/
theorem memberReader_reads (hleaves : leaves.Reads grammar) (hinner : inner.Reads language Follows) :
    (memberReader subsystem leaves inner).Reads (Spaced isSpace (MemberText grammar language))
      Follows where
  sound := by
    intro input member rest h
    obtain ⟨behind, middle, later, hskip, hkey, hskip', hvalue⟩ :=
      parseMember_eq_ok subsystem leaves h
    obtain ⟨key, rfl, hkeyText⟩ := hleaves.string.sound hkey
    obtain ⟨text, rfl, htext⟩ := hinner.sound hvalue
    have hinput := List.takeWhile_append_dropWhile (p := isSpace) (l := input)
    have hmiddle := List.takeWhile_append_dropWhile (p := isSpace) (l := middle)
    rw [hskip] at hinput
    rw [hskip'] at hmiddle
    refine ⟨input.takeWhile isSpace ++ quote :: (key ++ (middle.takeWhile isSpace ++ colon :: text)),
      ?_, _, _, fun _ hmem => mem_takeWhile hmem,
      ⟨key, _, text, hkeyText, fun _ hmem => mem_takeWhile hmem, htext, rfl⟩, rfl⟩
    calc input = input.takeWhile isSpace ++ quote :: (key ++ middle) := hinput.symm
      _ = input.takeWhile isSpace ++
          quote :: (key ++ (middle.takeWhile isSpace ++ colon :: (text ++ rest))) := by rw [hmiddle]
      _ = _ := by simp
  complete := by
    rintro word member rest hword hrest
    obtain ⟨token, ⟨key, gap, text, hkey, hgap, htext, rfl⟩, hskip⟩ :=
      hword.dropWhile memberText_startsOutside rest
    have hskip' : (gap ++ colon :: (text ++ rest)).dropWhile isSpace = colon :: (text ++ rest) :=
      dropWhile_span hgap (stopsAt_cons.mpr (by decide))
    have hread : leaves.string.read (key ++ (gap ++ colon :: text) ++ rest) =
        .ok (member.1, gap ++ colon :: (text ++ rest)) := by
      have hsplit : key ++ (gap ++ colon :: text) ++ rest =
          key ++ (gap ++ colon :: (text ++ rest)) := by simp
      rw [hsplit]
      exact hleaves.string.complete hkey trivial
    change parseMember subsystem leaves inner (word ++ rest) = .ok (member, rest)
    rw [parseMember, hskip]
    simp only [List.cons_append, ne_eq, not_true_eq_false, if_false, hread, ok_bind, hskip',
      hinner.complete htext hrest]

/-- The first characters of values. -/
def StartsValue (next : UInt8) : Prop :=
  next = openBrace ∨ next = openBracket ∨ next = quote ∨ next = 116 ∨ next = 102 ∨ next = 110 ∨
    next = minus ∨ isDigit next = true

theorem TokenText.starts (hleaves : leaves.Reads grammar) {token : Bytes}
    (h : TokenText grammar language token value) :
    ∃ next tail, token = next :: tail ∧ StartsValue next := by
  cases h with
  | null => exact ⟨_, _, rfl, .inr (.inr (.inr (.inr (.inr (.inl rfl)))))⟩
  | true => exact ⟨_, _, rfl, .inr (.inr (.inr (.inl rfl)))⟩
  | false => exact ⟨_, _, rfl, .inr (.inr (.inr (.inr (.inl rfl))))⟩
  | number htext =>
      obtain ⟨next, tail, rfl, hnext⟩ := hleaves.number_starts htext
      exact ⟨next, tail, rfl,
        .inr (.inr (.inr (.inr (.inr (.inr (hleaves.starts_ok hnext))))))⟩
  | string _ => exact ⟨_, _, rfl, .inr (.inr (.inl rfl))⟩
  | array _ => exact ⟨_, _, rfl, .inr (.inl rfl)⟩
  | object _ _ _ => exact ⟨_, _, rfl, .inl rfl⟩

theorem StartsValue.outside {next : UInt8} (h : StartsValue next) :
    isSpace next = false ∧ next ≠ closeBracket := by
  rcases h with rfl | rfl | rfl | rfl | rfl | rfl | rfl | hdigit
  · exact ⟨rfl, by decide⟩
  · exact ⟨rfl, by decide⟩
  · exact ⟨rfl, by decide⟩
  · exact ⟨rfl, by decide⟩
  · exact ⟨rfl, by decide⟩
  · exact ⟨rfl, by decide⟩
  · exact ⟨rfl, by decide⟩
  · refine ⟨isSpace_of_isDigit hdigit, ?_⟩
    rintro rfl
    cases hdigit

theorem valueText_starts (hleaves : leaves.Reads grammar) {levels : ℕ} {token : Bytes}
    (h : ValueText grammar levels token value) :
    ∃ next tail, token = next :: tail ∧ StartsValue next := by
  cases levels with
  | zero => cases h
  | succ levels => exact TokenText.starts hleaves h

theorem valueText_startsOutside (hleaves : leaves.Reads grammar) (levels : ℕ) :
    StartsOutside isSpace (ValueText grammar levels) := by
  intro token value h
  obtain ⟨next, tail, rfl, hnext⟩ := valueText_starts hleaves h
  exact ⟨next, tail, rfl, hnext.outside.1⟩

theorem foldlM_appendElement (values elements : List (Value ν)) :
    values.foldlM appendElement elements = .ok (elements ++ values) := by
  induction values generalizing elements with
  | nil => exact congrArg Except.ok (List.append_nil _).symm
  | cons value values ih =>
      rw [List.foldlM_cons]
      exact (ih (elements ++ [value])).trans (by rw [List.append_assoc]; rfl)

/-- The members of an object are stored exactly when their keys are distinct. -/
theorem foldlM_emplaceMember (subsystem : String) {members entries final : List (Bytes × Value ν)} :
    members.foldlM (emplaceMember subsystem) entries = .ok final ↔
      insertAll entries members = some final := by
  induction members generalizing entries with
  | nil => exact ⟨fun h => congrArg some (Except.ok.inj h), fun h => Option.some.inj h ▸ rfl⟩
  | cons member members ih =>
      rw [List.foldlM_cons, insertAll_cons]
      cases hinsert : insertEntry member entries with
      | none =>
          simp only [emplaceMember, hinsert, Option.bind_none, reduceCtorEq, iff_false]
          exact fun h => by cases h
      | some next =>
          simp only [emplaceMember, hinsert, Option.bind_some]
          exact ih

/-- A token that is read is a text of its value. -/
theorem parseToken_sound (hleaves : leaves.Reads grammar)
    (hinner : inner.Reads (Spaced isSpace language) Follows) {next : UInt8}
    (h : parseToken subsystem size leaves inner next input = .ok (value, rest)) :
    ∃ token, next :: input = token ++ rest ∧
      TokenText grammar (Spaced isSpace language) token value := by
  rw [parseToken] at h
  split at h
  · rename_i hnext
    obtain ⟨members, rfl, hitems⟩ := parseObject_eq_ok h
    obtain ⟨text, found, rfl, htext, hstored⟩ :=
      readList_sound (memberReader_reads hleaves hinner) hitems
    obtain ⟨horder, hperm⟩ := insertAll_eq_some_iff.mp ((foldlM_emplaceMember subsystem).mp hstored)
    rw [hnext]
    exact ⟨_, rfl, .object htext horder hperm⟩
  split at h
  · rename_i hnext
    obtain ⟨elements, rfl, hitems⟩ := parseArray_eq_ok h
    obtain ⟨text, found, rfl, htext, hstored⟩ := readList_sound hinner hitems
    rw [foldlM_appendElement, List.nil_append] at hstored
    cases hstored
    rw [hnext]
    exact ⟨_, rfl, .array htext⟩
  split at h
  · rename_i hnext
    obtain ⟨content, rfl, hread⟩ := parseLeaf_eq_ok h
    obtain ⟨text, rfl, htext⟩ := hleaves.string.sound hread
    rw [hnext]
    exact ⟨_, rfl, .string htext⟩
  split at h
  · obtain ⟨rfl, hinput⟩ := parseLiteral_eq_ok h
    exact ⟨_, hinput, .true⟩
  split at h
  · obtain ⟨rfl, hinput⟩ := parseLiteral_eq_ok h
    exact ⟨_, hinput, .false⟩
  split at h
  · obtain ⟨rfl, hinput⟩ := parseLiteral_eq_ok h
    exact ⟨_, hinput, .null⟩
  split at h
  · obtain ⟨number, rfl, hread⟩ := parseLeaf_eq_ok h
    obtain ⟨text, hinput, htext⟩ := hleaves.number.sound hread
    exact ⟨_, hinput, .number htext⟩
  · cases h

theorem parseToken_number (hleaves : leaves.Reads grammar) {next : UInt8}
    (hnext : leaves.startsNumber next = true) :
    parseToken subsystem size leaves inner next input =
      parseLeaf leaves.number .number (next :: input) := by
  have hne {other : UInt8} (hminus : other ≠ minus) (hdigit : isDigit other = false) :
      next ≠ other := by
    rintro rfl
    rcases hleaves.starts_ok hnext with heq | hisDigit
    · exact hminus heq
    · rw [hdigit] at hisDigit
      cases hisDigit
  have hbrace : next ≠ openBrace := hne (by decide) rfl
  have hbracket : next ≠ openBracket := hne (by decide) rfl
  have hquote : next ≠ quote := hne (by decide) rfl
  have htrue : next ≠ 116 := hne (by decide) rfl
  have hfalse : next ≠ 102 := hne (by decide) rfl
  have hnull : next ≠ 110 := hne (by decide) rfl
  rw [parseToken, if_neg hbrace, if_neg hbracket, if_neg hquote, if_neg htrue, if_neg hfalse,
    if_neg hnull, if_pos hnext]

variable (subsystem size)

/-- Every text of a value is read where the rest may follow it. -/
theorem parseToken_complete (hleaves : leaves.Reads grammar)
    (hinner : inner.Reads (Spaced isSpace language) Follows)
    (houtside : StartsOutside isSpace language)
    (hopens : ∀ {token value}, language token value → token.head? ≠ some closeBracket)
    {token : Bytes} (h : TokenText grammar (Spaced isSpace language) token value)
    (hrest : Follows rest) :
    ∃ next later, token ++ rest = next :: later ∧
      parseToken subsystem size leaves inner next later = .ok (value, rest) := by
  cases h with
  | null =>
      have hread : parseLiteral subsystem size nullWord (.null : Value ν) (nullWord ++ rest) =
          .ok (_, rest) := parseLiteral_append rest
      exact ⟨_, _, rfl, hread⟩
  | true =>
      have hread : parseLiteral subsystem size trueWord (.boolean true : Value ν)
          (trueWord ++ rest) = .ok (_, rest) := parseLiteral_append rest
      exact ⟨_, _, rfl, hread⟩
  | false =>
      have hread : parseLiteral subsystem size falseWord (.boolean false : Value ν)
          (falseWord ++ rest) = .ok (_, rest) := parseLiteral_append rest
      exact ⟨_, _, rfl, hread⟩
  | number htext =>
      obtain ⟨next, tail, rfl, hnext⟩ := hleaves.number_starts htext
      have hread := hleaves.number.complete htext hrest
      refine ⟨next, tail ++ rest, rfl, (parseToken_number hleaves hnext).trans ?_⟩
      rw [parseLeaf]
      exact hread ▸ rfl
  | string htext =>
      refine ⟨_, _, rfl, ?_⟩
      change parseLeaf leaves.string .string (_ ++ rest) = _
      rw [parseLeaf, hleaves.string.complete htext trivial]
      rfl
  | array htext =>
      refine ⟨_, _, rfl, ?_⟩
      change parseArray subsystem inner (_ ++ rest) = _
      rw [parseArray, readList_complete hinner houtside hopens (fun _ _ hnext => ?_) rfl rfl
        (by decide) htext (foldlM_appendElement _ _)]
      · rfl
      · exact follows_cons (hnext.imp_right fun hor => hor.imp_right .inr)
  | object htext horder hperm =>
      refine ⟨_, _, rfl, ?_⟩
      change parseObject subsystem leaves inner (_ ++ rest) = _
      have hstored := (foldlM_emplaceMember subsystem).mpr
        (insertAll_eq_some_iff.mpr ⟨horder, hperm⟩)
      rw [parseObject, readList_complete (memberReader_reads hleaves hinner)
        memberText_startsOutside ?_ (fun _ _ hnext => ?_) rfl rfl (by decide) htext hstored]
      · rfl
      · rintro _ _ ⟨key, gap, text, -, -, -, rfl⟩
        exact fun heq => absurd (Option.some.inj heq) (by decide)
      · exact follows_cons (hnext.imp_right .inr)

/-- Values are read level by level of nesting. -/
theorem valueReader_reads (hleaves : leaves.Reads grammar) (levels : ℕ) :
    (valueReader subsystem size leaves levels).Reads
      (Spaced isSpace (ValueText grammar levels)) Follows := by
  induction levels with
  | zero =>
      refine ⟨fun h => (by cases h), ?_⟩
      intro word value rest hword
      obtain ⟨gap, token, -, htoken, -⟩ := hword
      cases htoken
  | succ levels ih =>
      refine ⟨?_, ?_⟩
      · intro input value rest h
        change parseValue subsystem size leaves _ input = _ at h
        rw [parseValue] at h
        split at h
        · cases h
        · rename_i next later hskip
          obtain ⟨token, hsplit, htoken⟩ := parseToken_sound hleaves ih h
          refine ⟨input.takeWhile isSpace ++ token, ?_, _, token, fun _ hmem => mem_takeWhile hmem,
            htoken, rfl⟩
          rw [List.append_assoc, ← hsplit, ← hskip, List.takeWhile_append_dropWhile]
      · intro word value rest hword hrest
        obtain ⟨token, htoken, hskip⟩ :=
          hword.dropWhile (valueText_startsOutside hleaves (levels + 1)) rest
        have hopens {token : Bytes} {value : Value ν} (h : ValueText grammar levels token value) :
            token.head? ≠ some closeBracket := by
          obtain ⟨next, tail, rfl, hnext⟩ := valueText_starts hleaves h
          exact fun heq => hnext.outside.2 (Option.some.inj heq)
        obtain ⟨next, later, hsplit, hread⟩ :=
          parseToken_complete subsystem size hleaves ih
            (valueText_startsOutside hleaves levels) hopens htoken hrest
        change parseValue subsystem size leaves _ (word ++ rest) = _
        rw [parseValue, hskip, hsplit]
        exact hread

/-- Without a bound, the texts of values of any depth are read. -/
theorem unboundedReader_reads (hleaves : leaves.Reads grammar) :
    (unboundedReader subsystem size leaves).Reads (Spaced isSpace (AnyText grammar)) Follows where
  sound := by
    intro input value rest h
    obtain ⟨word, hinput, hword⟩ :=
      (valueReader_reads subsystem size hleaves (input.length + 1)).sound h
    exact ⟨word, hinput, Spaced.imp (fun htoken => ⟨_, htoken⟩) hword⟩
  complete := by
    rintro word value rest ⟨gap, token, hgap, ⟨levels, htoken⟩, rfl⟩ hrest
    have hread := (valueReader_reads subsystem size hleaves
      (max levels ((gap ++ token ++ rest).length + 1))).complete
        ⟨gap, token, hgap, htoken.mono (Nat.le_max_left _ _), rfl⟩ hrest
    rw [← hread]
    exact valueReader_congr subsystem size leaves (Nat.lt_succ_self _)
      (Nat.lt_of_succ_le (Nat.le_max_right _ _))

variable {subsystem}

/-- A document is accepted when its value is read and nothing but space is left. -/
theorem parseDocument_eq_ok {reader : Reader UInt8 Error (Value ν)}
    (hreader : reader.Reads (Spaced isSpace language) Follows) {document : Bytes} :
    parseDocument subsystem reader document = .ok value ↔ Document language document value := by
  constructor
  · intro h
    obtain ⟨⟨result, rest⟩, hread, h⟩ := bind_eq_ok.mp h
    obtain ⟨_, hnil, hvalue⟩ := bind_eq_ok.mp h
    cases hvalue
    obtain ⟨word, hsplit, hword⟩ := hreader.sound hread
    exact ⟨word, rest, hword, List.dropWhile_eq_nil_iff.mp (require_eq_ok.mp hnil), hsplit⟩
  · rintro ⟨word, gap, hword, hgap, rfl⟩
    have hread := hreader.complete hword (follows_of_spaces hgap)
    have hskip : gap.dropWhile isSpace = [] := List.dropWhile_eq_nil_iff.mpr hgap
    simp only [parseDocument, hread, ok_bind, hskip]
    rfl

end Correctness

section Metadata

variable {δ : Type} (subsystem : String) (numbers : Bytes → Option δ)

/-- The strings and numbers that the artifact metadata is meant to have. -/
def metadataGrammar : Grammar (Number δ) where
  string := StringBody (unicodeEscape subsystem)
  number text number := ∃ (parts : NumberParts) (converted : δ), text = parts.text ∧
    numbers text = some converted ∧ number = ⟨converted, parts.integer⟩

variable {subsystem numbers}

theorem metadataLeaves_reads (size : ℕ) :
    (metadataLeaves subsystem numbers size).Reads (metadataGrammar subsystem numbers) where
  string := ⟨fun h => parseString_sound h, fun h _ => parseString_complete h⟩
  number := by
    refine ⟨fun h => ?_, ?_⟩
    · obtain ⟨parts, converted, hinput, hconverted, hnumber⟩ := parseNumber_sound h
      exact ⟨parts.text, hinput, parts, converted, rfl, hconverted, hnumber⟩
    · rintro _ _ rest ⟨parts, converted, rfl, hconverted, rfl⟩ hrest
      exact parseNumber_complete hconverted hrest
  number_starts := by
    rintro text number ⟨parts, converted, rfl, -, -⟩
    obtain ⟨next, tail, htext, hnext⟩ := parts.text_eq_cons
    exact ⟨next, tail, htext, decide_eq_true hnext⟩
  starts_ok h := of_decide_eq_true h

/-- A document is accepted with a value exactly when it is a text of the value. -/
theorem parse_accepts_documents {document : Bytes} {value : Value (Number δ)} :
    parse subsystem numbers document = .ok value ↔
      Document (ValueText (metadataGrammar subsystem numbers) (maximumDepth + 1)) document value :=
  parseDocument_eq_ok (valueReader_reads _ _ (metadataLeaves_reads document.length) _)

end Metadata

end Nvcr.Json
