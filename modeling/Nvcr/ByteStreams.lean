import Nvcr.Frames
import Nvcr.LittleEndian
import Nvcr.StatefulResults

/-!
# Byte readers and writers

A reader works on the bytes that remain; a writer is the byte string written so far, so the
write functions below return the bytes they append.
-/

namespace Nvcr

open LittleEndian StatefulResults

abbrev ByteReader := StateT Bytes Result

namespace ByteWriter

def writeU8 (value : UInt8) : Bytes := leBytes 1 value.toNat

def writeU16 (value : UInt16) : Bytes := leBytes 2 value.toNat

def writeU32 (value : UInt32) : Bytes := leBytes 4 value.toNat

def writeU64 (value : UInt64) : Bytes := leBytes 8 value.toNat

@[simp] theorem writeU8_length (value : UInt8) : (writeU8 value).length = 1 := leBytes_length _ _

@[simp] theorem writeU16_length (value : UInt16) : (writeU16 value).length = 2 := leBytes_length _ _

@[simp] theorem writeU32_length (value : UInt32) : (writeU32 value).length = 4 := leBytes_length _ _

@[simp] theorem writeU64_length (value : UInt64) : (writeU64 value).length = 8 := leBytes_length _ _

end ByteWriter

namespace ByteReader

open ByteWriter

def truncatedError : Error := ⟨.malformedBitstream, "unexpected end of packet", "bitstream"⟩

def remaining : ByteReader ℕ := fun bytes => .ok (bytes.length, bytes)

def readBytes (count : ℕ) : ByteReader Bytes := fun bytes =>
  if count > bytes.length then .error truncatedError else .ok (bytes.take count, bytes.drop count)

/-- An unsigned little-endian number of the given width in bytes. -/
def readUint (width : ℕ) : ByteReader ℕ := do
  let bytes ← readBytes width
  pure (leValue bytes)

def readU8 : ByteReader UInt8 := do
  let value ← readUint 1
  pure (UInt8.ofNat value)

def readU16 : ByteReader UInt16 := do
  let value ← readUint 2
  pure (UInt16.ofNat value)

def readU32 : ByteReader UInt32 := do
  let value ← readUint 4
  pure (UInt32.ofNat value)

def readU64 : ByteReader UInt64 := do
  let value ← readUint 8
  pure (UInt64.ofNat value)

/-- Fail with `e` unless `c` holds. -/
def check (c : Prop) [Decidable c] (e : Error) : ByteReader Unit := StateT.lift (require c e)

variable {rest : Bytes}

@[simp] theorem run_remaining (bytes : Bytes) :
    remaining.run bytes = .ok (bytes.length, bytes) := rfl

theorem run_readBytes_append {count : ℕ} {bytes : Bytes} (h : bytes.length = count) :
    (readBytes count).run (bytes ++ rest) = .ok (bytes, rest) := by
  subst h
  simp [readBytes, StateT.run]

theorem run_readBytes_self {count : ℕ} {bytes : Bytes} (h : bytes.length = count) :
    (readBytes count).run bytes = .ok (bytes, []) := by
  subst h
  simp [readBytes, StateT.run]

theorem run_readUint_append {width value : ℕ} (h : value < 256 ^ width) :
    (readUint width).run (leBytes width value ++ rest) = .ok (value, rest) := by
  simp only [readUint, StateT.run_bind]
  rw [run_readBytes_append (leBytes_length width value)]
  rw [ok_bind, leValue_leBytes_of_lt h]
  rfl

@[simp] theorem run_readU8_append (value : UInt8) :
    readU8.run (writeU8 value ++ rest) = .ok (value, rest) := by
  simp only [readU8, writeU8, StateT.run_bind]
  rw [run_readUint_append (by simpa using value.toNat_lt), ok_bind, UInt8.ofNat_toNat]
  rfl

@[simp] theorem run_readU16_append (value : UInt16) :
    readU16.run (writeU16 value ++ rest) = .ok (value, rest) := by
  simp only [readU16, writeU16, StateT.run_bind]
  rw [run_readUint_append (by simpa using value.toNat_lt), ok_bind, UInt16.ofNat_toNat]
  rfl

@[simp] theorem run_readU32_append (value : UInt32) :
    readU32.run (writeU32 value ++ rest) = .ok (value, rest) := by
  simp only [readU32, writeU32, StateT.run_bind]
  rw [run_readUint_append (by simpa using value.toNat_lt), ok_bind, UInt32.ofNat_toNat]
  rfl

@[simp] theorem run_readU64_append (value : UInt64) :
    readU64.run (writeU64 value ++ rest) = .ok (value, rest) := by
  simp only [readU64, writeU64, StateT.run_bind]
  rw [run_readUint_append (by simpa using value.toNat_lt), ok_bind, UInt64.ofNat_toNat]
  rfl

/-- A successful read hands its value and the remaining bytes to what follows. -/
theorem run_bind_of_ok {α β : Type} {x : ByteReader α} {f : α → ByteReader β}
    {bytes : Bytes} {a : α} (h : x.run bytes = .ok (a, rest)) :
    (x >>= f).run bytes = (f a).run rest := by
  rw [StateT.run_bind, h, ok_bind]

theorem run_check_bind {β : Type} {c : Prop} [Decidable c] (h : c) (e : Error)
    (f : Unit → ByteReader β) (bytes : Bytes) :
    (check c e >>= f).run bytes = (f ()).run bytes := by
  apply run_bind_of_ok
  simp only [check, require, if_pos h]
  rfl

section Inversion

variable {α β : Type} {bytes : Bytes}

/-- A successful sequence of reads consists of two successful reads. -/
theorem run_bind_eq_ok {x : ByteReader α} {f : α → ByteReader β} {b : β} :
    (x >>= f).run bytes = .ok (b, rest) ↔
      ∃ a middle, x.run bytes = .ok (a, middle) ∧ (f a).run middle = .ok (b, rest) := by
  rw [StateT.run_bind, bind_eq_ok]
  constructor
  · rintro ⟨⟨a, middle⟩, hx, hf⟩
    exact ⟨a, middle, hx, hf⟩
  · rintro ⟨a, middle, hx, hf⟩
    exact ⟨(a, middle), hx, hf⟩

theorem run_check_eq_ok {c : Prop} [Decidable c] {e : Error} {u : Unit} :
    (check c e).run bytes = .ok (u, rest) ↔ c ∧ rest = bytes := by
  unfold check require
  by_cases hc : c
  · rw [if_pos hc]
    constructor
    · intro h
      cases h
      exact ⟨hc, rfl⟩
    · rintro ⟨-, rfl⟩
      rfl
  · rw [if_neg hc]
    exact ⟨fun h => (nomatch h), fun h => absurd h.1 hc⟩

/-- What passes a check goes on from the same bytes. -/
theorem run_check_bind_eq_ok {c : Prop} [Decidable c] {e : Error} {f : Unit → ByteReader β}
    {b : β} :
    (check c e >>= f).run bytes = .ok (b, rest) ↔ c ∧ (f ()).run bytes = .ok (b, rest) := by
  rw [run_bind_eq_ok]
  constructor
  · rintro ⟨_, middle, hcheck, hf⟩
    obtain ⟨hc, rfl⟩ := run_check_eq_ok.mp hcheck
    exact ⟨hc, hf⟩
  · rintro ⟨hc, hf⟩
    exact ⟨(), bytes, run_check_eq_ok.mpr ⟨hc, rfl⟩, hf⟩

theorem run_remaining_bind_eq_ok {f : ℕ → ByteReader β} {b : β} :
    (remaining >>= f).run bytes = .ok (b, rest) ↔ (f bytes.length).run bytes = .ok (b, rest) :=
  Iff.rfl

/-- A successful read took exactly its bytes from the front. -/
theorem run_readBytes_eq_ok {count : ℕ} {value : Bytes} :
    (readBytes count).run bytes = .ok (value, rest) ↔
      bytes = value ++ rest ∧ value.length = count := by
  constructor
  · intro h
    simp only [readBytes, StateT.run] at h
    split at h
    · cases h
    · cases h
      exact ⟨(List.take_append_drop count bytes).symm, List.length_take_of_le (by omega)⟩
  · rintro ⟨rfl, hlength⟩
    exact run_readBytes_append hlength

theorem run_readUint_eq_ok {width value : ℕ} (h : (readUint width).run bytes = .ok (value, rest)) :
    bytes = leBytes width value ++ rest ∧ value < 256 ^ width := by
  obtain ⟨read, middle, hread, hvalue⟩ := run_bind_eq_ok.mp h
  cases hvalue
  obtain ⟨rfl, rfl⟩ := run_readBytes_eq_ok.mp hread
  exact ⟨by rw [leBytes_leValue], leValue_lt read⟩

theorem run_readU8_eq_ok {value : UInt8} :
    readU8.run bytes = .ok (value, rest) ↔ bytes = writeU8 value ++ rest := by
  constructor
  · intro h
    obtain ⟨read, middle, hread, hvalue⟩ := run_bind_eq_ok.mp h
    cases hvalue
    obtain ⟨rfl, hlt⟩ := run_readUint_eq_ok hread
    rw [writeU8, UInt8.toNat_ofNat_of_lt' hlt]
  · rintro rfl
    exact run_readU8_append value

theorem run_readU16_eq_ok {value : UInt16} :
    readU16.run bytes = .ok (value, rest) ↔ bytes = writeU16 value ++ rest := by
  constructor
  · intro h
    obtain ⟨read, middle, hread, hvalue⟩ := run_bind_eq_ok.mp h
    cases hvalue
    obtain ⟨rfl, hlt⟩ := run_readUint_eq_ok hread
    rw [writeU16, UInt16.toNat_ofNat_of_lt' hlt]
  · rintro rfl
    exact run_readU16_append value

theorem run_readU32_eq_ok {value : UInt32} :
    readU32.run bytes = .ok (value, rest) ↔ bytes = writeU32 value ++ rest := by
  constructor
  · intro h
    obtain ⟨read, middle, hread, hvalue⟩ := run_bind_eq_ok.mp h
    cases hvalue
    obtain ⟨rfl, hlt⟩ := run_readUint_eq_ok hread
    rw [writeU32, UInt32.toNat_ofNat_of_lt' hlt]
  · rintro rfl
    exact run_readU32_append value

theorem run_readU64_eq_ok {value : UInt64} :
    readU64.run bytes = .ok (value, rest) ↔ bytes = writeU64 value ++ rest := by
  constructor
  · intro h
    obtain ⟨read, middle, hread, hvalue⟩ := run_bind_eq_ok.mp h
    cases hvalue
    obtain ⟨rfl, hlt⟩ := run_readUint_eq_ok hread
    rw [writeU64, UInt64.toNat_ofNat_of_lt' hlt]
  · rintro rfl
    exact run_readU64_append value

end Inversion

end ByteReader

end Nvcr
