import Nvcr.JsonDocuments

/-!
# The values of documents

Every value has a document as long as it is not nested too deep, its objects are in key order, and
its numbers are those of number tokens; no document has any other value.
-/

namespace Nvcr.Json

open TextReaders OrderedEntries

section Strings

def hexDigit (value : ℕ) : UInt8 :=
  if value < 10 then UInt8.ofNat (48 + value) else UInt8.ofNat (87 + value)

theorem hexValue_hexDigit : ∀ value : Fin 16, hexValue (hexDigit value) = some value := by
  decide

/-- The digits of the code of a byte. -/
theorem codePoint_hexDigit (byte : UInt8) :
    codePoint (hexDigit 0) (hexDigit 0) (hexDigit (byte.toNat / 16)) (hexDigit (byte.toNat % 16)) =
      some byte.toNat := by
  have hlt : byte.toNat < 256 := byte.toNat_lt
  have hzero : hexValue (hexDigit 0) = some 0 := hexValue_hexDigit 0
  have hhigh : hexValue (hexDigit (byte.toNat / 16)) = some (byte.toNat / 16) :=
    hexValue_hexDigit ⟨byte.toNat / 16, by omega⟩
  have hlow : hexValue (hexDigit (byte.toNat % 16)) = some (byte.toNat % 16) :=
    hexValue_hexDigit ⟨byte.toNat % 16, by omega⟩
  have hcode : 4096 * 0 + 256 * 0 + 16 * (byte.toNat / 16) + byte.toNat % 16 = byte.toNat := by
    omega
  simp only [codePoint, hzero, hhigh, hlow, Option.bind_eq_bind, Option.bind_some, hcode]

variable {escape : UInt8 → UInt8 → UInt8 → UInt8 → Result Bytes}

/-- Every string of bytes has a text where control characters have an escape. -/
theorem exists_stringBody (hcontrols : ∀ byte : UInt8, byte < 32 →
      ∃ first second third fourth, escape first second third fourth = .ok [byte])
    (value : Bytes) : ∃ text, StringBody escape text value := by
  induction value with
  | nil => exact ⟨_, .close⟩
  | cons character value ih =>
      obtain ⟨text, htext⟩ := ih
      by_cases hquote : character = quote
      · rw [hquote]
        exact ⟨backslash :: quote :: text, .escape (by decide) rfl htext⟩
      by_cases hescape : character = backslash
      · rw [hescape]
        exact ⟨backslash :: backslash :: text, .escape (by decide) rfl htext⟩
      by_cases hcontrol : character < 32
      · obtain ⟨first, second, third, fourth, hcode⟩ := hcontrols character hcontrol
        exact ⟨_, .unicode hcode htext⟩
      · exact ⟨character :: text, .plain hquote hcontrol hescape htext⟩

end Strings

section Values

variable {ν : Type} (grammar : Grammar ν)

/-- Values that are nested at most so many levels deep, with objects in key order and numbers that
have a token. -/
def Within : ℕ → Value ν → Prop
  | 0, _ => False
  | _ + 1, .null => True
  | _ + 1, .boolean _ => True
  | _ + 1, .number value => ∃ text, grammar.number text value
  | _ + 1, .string _ => True
  | levels + 1, .array elements => ∀ element ∈ elements, Within levels element
  | levels + 1, .object members =>
      InOrder members ∧ ∀ member ∈ members, Within levels member.2

variable {grammar}

/-- What a text stands for is nested as deep as the text. -/
theorem within_of_valueText {levels : ℕ} {token : Bytes} {value : Value ν}
    (h : ValueText grammar levels token value) : Within grammar levels value := by
  induction levels generalizing token value with
  | zero => cases h
  | succ levels ih =>
      cases h with
      | null => exact trivial
      | true => exact trivial
      | false => exact trivial
      | number htext => exact ⟨_, htext⟩
      | string _ => exact trivial
      | array htext =>
          intro element hmem
          obtain ⟨word, gap, token, -, htoken, -⟩ := htext.forall_mem element hmem
          exact ih htoken
      | object htext horder hentries =>
          refine ⟨horder, fun member hmem => ?_⟩
          obtain ⟨word, gap, token, -, htoken, -⟩ :=
            htext.forall_mem member (hentries.mem_iff.mp hmem)
          obtain ⟨key, between, text, -, -, ⟨-, inner, -, hinner, -⟩, -⟩ := htoken
          exact ih hinner

/-- Every such value has a text. -/
theorem exists_valueText (hstrings : ∀ value, ∃ text, grammar.string text value) {levels : ℕ}
    {value : Value ν} (h : Within grammar levels value) :
    ∃ token, ValueText grammar levels token value := by
  induction levels generalizing value with
  | zero => cases value <;> exact absurd h id
  | succ levels ih =>
      cases value with
      | null => exact ⟨_, .null⟩
      | boolean value =>
          cases value with
          | true => exact ⟨_, .true⟩
          | false => exact ⟨_, .false⟩
      | number value =>
          obtain ⟨text, htext⟩ := h
          exact ⟨_, .number htext⟩
      | string value =>
          obtain ⟨text, htext⟩ := hstrings value
          exact ⟨_, .string htext⟩
      | array elements =>
          have hwords : ∀ element ∈ elements,
              ∃ word, Spaced isSpace (ValueText grammar levels) word element := by
            intro element hmem
            obtain ⟨token, htoken⟩ := ih (h element hmem)
            exact ⟨token, spaced_of_text htoken⟩
          obtain ⟨text, htext⟩ := ListText.exists_of_forall hwords
          exact ⟨_, .array htext⟩
      | object members =>
          have hwords : ∀ member ∈ members, ∃ word, Spaced isSpace
              (MemberText grammar (Spaced isSpace (ValueText grammar levels))) word member := by
            intro member hmem
            obtain ⟨token, htoken⟩ := ih (h.2 member hmem)
            obtain ⟨key, hkey⟩ := hstrings member.1
            exact ⟨_, spaced_of_text ⟨key, [], token, hkey,
              fun _ hnone => absurd hnone List.not_mem_nil, spaced_of_text htoken, rfl⟩⟩
          obtain ⟨text, htext⟩ := ListText.exists_of_forall hwords
          exact ⟨_, .object htext h.1 (List.Perm.refl _)⟩

/-- A value has a document when it has a text. -/
theorem exists_document {language : Bytes → Value ν → Prop} {value : Value ν} :
    (∃ document, Document language document value) ↔ ∃ token, language token value := by
  constructor
  · rintro ⟨document, word, gap, ⟨-, token, -, htoken, -⟩, -, -⟩
    exact ⟨token, htoken⟩
  · rintro ⟨token, htoken⟩
    exact ⟨token, token, [], spaced_of_text htoken,
      fun _ hnone => absurd hnone List.not_mem_nil, (List.append_nil _).symm⟩

end Values

section Metadata

variable {δ : Type} {subsystem : String} {numbers : Bytes → Option δ}

theorem exists_metadataString (value : Bytes) :
    ∃ text, (metadataGrammar subsystem numbers).string text value := by
  refine exists_stringBody (fun byte hbyte => ?_) value
  have hle : byte.toNat ≤ 127 := (UInt8.lt_iff_toNat_lt.mp hbyte).le.trans (by decide)
  refine ⟨hexDigit 0, hexDigit 0, hexDigit (byte.toNat / 16), hexDigit (byte.toNat % 16), ?_⟩
  simp only [unicodeEscape, codePoint_hexDigit, if_pos hle, UInt8.ofNat_toNat]

/-- The values that documents are accepted with. -/
theorem exists_parse_eq_ok {value : Value (Number δ)} :
    (∃ document, parse subsystem numbers document = .ok value) ↔
      Within (metadataGrammar subsystem numbers) (maximumDepth + 1) value := by
  calc (∃ document, parse subsystem numbers document = .ok value)
      ↔ ∃ document, Document (ValueText (metadataGrammar subsystem numbers) (maximumDepth + 1))
          document value := exists_congr fun document =>
        parseDocument_eq_ok (valueReader_reads _ _ (metadataLeaves_reads document.length) _)
    _ ↔ ∃ token, ValueText (metadataGrammar subsystem numbers) (maximumDepth + 1) token value :=
        exists_document
    _ ↔ Within (metadataGrammar subsystem numbers) (maximumDepth + 1) value :=
        ⟨fun h => h.elim fun _ htoken => within_of_valueText htoken,
          exists_valueText exists_metadataString⟩

end Metadata

end Nvcr.Json
