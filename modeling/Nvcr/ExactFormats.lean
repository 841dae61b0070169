import Nvcr.StatefulResults

/-!
# Exact formats

A serializer and a parser of a format agree on the valid contents, and every byte string that is
parsed is the one its contents are written to.
-/

namespace Nvcr.ExactFormats

open StatefulResults

variable {ε : Type*} {α β γ : Type}

/-- What is written is read back exactly when it is valid, and what is read was written so. -/
structure ExactFormat (make : α → Except ε β) (parse : β → Except ε α) (valid : α → Prop) :
    Prop where
  read_back : ∀ contents bytes, make contents = .ok bytes →
    (parse bytes = .ok contents ↔ valid contents)
  canonical : ∀ contents bytes, parse bytes = .ok contents → make contents = .ok bytes

variable {make : α → β} {parse : β → Except ε α} {valid : α → Prop}

/-- A serializer that never fails is exact when valid contents are read back and parsed contents
are valid and canonical. -/
theorem ExactFormat.of_total (hmake : ∀ contents, valid contents →
      parse (make contents) = .ok contents)
    (hvalid : ∀ contents bytes, parse bytes = .ok contents → valid contents)
    (hcanonical : ∀ contents bytes, parse bytes = .ok contents → make contents = bytes) :
    ExactFormat (fun contents => (.ok (make contents) : Except ε β)) parse valid where
  read_back := by
    rintro contents _ ⟨⟩
    exact ⟨hvalid contents _, hmake contents⟩
  canonical contents bytes h := congrArg Except.ok (hcanonical contents bytes h)

/-- Contents that are encoded to the fields of an exact format have an exact format of their own,
when encoding loses nothing and valid fields are encodings. -/
theorem ExactFormat.encoded {encode : γ → α} {decode : α → γ}
    (h : ExactFormat (fun contents => (.ok (make contents) : Except ε β)) parse valid)
    (hdecode : ∀ value, decode (encode value) = value)
    (hencode : ∀ contents, valid contents → encode (decode contents) = contents) :
    ExactFormat (fun value => (.ok (make (encode value)) : Except ε β))
      (fun bytes => parse bytes >>= fun contents => .ok (decode contents))
      (fun value => valid (encode value)) where
  read_back := by
    rintro value _ ⟨⟩
    rw [← h.read_back (encode value) _ rfl, bind_eq_ok]
    constructor
    · rintro ⟨contents, hparse, hvalue⟩
      have hvalid : valid contents := by
        have hmake := h.canonical contents _ hparse
        exact (h.read_back contents (make (encode value)) hmake).mp hparse
      have hsame : encode value = contents := by
        rw [← Except.ok.inj hvalue, hencode contents hvalid]
      rw [hsame] at hparse ⊢
      exact hparse
    · intro hparse
      exact ⟨encode value, hparse, congrArg _ (hdecode value)⟩
  canonical := by
    intro value bytes hparse
    obtain ⟨contents, hcontents, hvalue⟩ := bind_eq_ok.mp hparse
    have hmake := h.canonical contents bytes hcontents
    have hvalid := (h.read_back contents bytes hmake).mp hcontents
    rw [← Except.ok.inj hvalue, hencode contents hvalid]
    exact hmake

end Nvcr.ExactFormats
