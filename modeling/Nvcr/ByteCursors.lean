import Nvcr.ByteStreams

/-!
# Byte readers at the level of offsets

The reader class keeps the whole byte string with an offset into it, and a failed read leaves
the offset where it was. Each access also records the range it touches, so that a statement
about all accesses of a parser can be made. A parser at this level refines a parser over the
remaining bytes when both give the same answer and no access leaves the string.
-/

namespace Nvcr

open LittleEndian StatefulResults

structure ByteCursor where
  data : Bytes
  offset : ℕ := 0
  /-- The ranges that were read, as offset and length. -/
  reads : List (ℕ × ℕ) := []

namespace ByteCursor

/-- The bytes behind the offset. -/
def rest (cursor : ByteCursor) : Bytes := cursor.data.drop cursor.offset

def remaining (cursor : ByteCursor) : ℕ := cursor.data.length - cursor.offset

/-- The cursor after a range at its offset was read. -/
def advanced (cursor : ByteCursor) (count : ℕ) : ByteCursor :=
  { cursor with
    offset := cursor.offset + count
    reads := cursor.reads ++ [(cursor.offset, count)] }

/-- The offset and every range that was read lie inside the string. -/
structure InBounds (cursor : ByteCursor) : Prop where
  offset_le : cursor.offset ≤ cursor.data.length
  reads_le : ∀ range ∈ cursor.reads, range.1 + range.2 ≤ cursor.data.length

@[simp] theorem rest_length (cursor : ByteCursor) : cursor.rest.length = cursor.remaining :=
  List.length_drop

theorem rest_advanced (cursor : ByteCursor) (count : ℕ) :
    (cursor.advanced count).rest = cursor.rest.drop count := by
  rw [rest, rest, List.drop_drop]
  rfl

theorem InBounds.advanced {cursor : ByteCursor} (h : cursor.InBounds) {count : ℕ}
    (hcount : count ≤ cursor.remaining) : (cursor.advanced count).InBounds := by
  have hend : cursor.offset + count ≤ cursor.data.length := by
    have hoffset := h.offset_le
    unfold remaining at hcount
    omega
  refine ⟨hend, fun range hrange => ?_⟩
  rcases List.mem_append.mp hrange with hold | hnew
  · exact h.reads_le range hold
  · rw [List.mem_singleton.mp hnew]
    exact hend

end ByteCursor

abbrev CursorReader := Action Error ByteCursor

namespace CursorReader

variable {α β : Type}

def readBytes (count : ℕ) : CursorReader Bytes := fun cursor =>
  if count > cursor.remaining then (.error ByteReader.truncatedError, cursor)
  else (.ok (cursor.rest.take count), cursor.advanced count)

def remaining : CursorReader ℕ := Action.gets ByteCursor.remaining

/-- An unsigned little-endian number of the given width in bytes. -/
def readUint (width : ℕ) : CursorReader ℕ := do
  let bytes ← readBytes width
  pure (leValue bytes)

def readU8 : CursorReader UInt8 := do
  let value ← readUint 1
  pure (UInt8.ofNat value)

def readU16 : CursorReader UInt16 := do
  let value ← readUint 2
  pure (UInt16.ofNat value)

def readU32 : CursorReader UInt32 := do
  let value ← readUint 4
  pure (UInt32.ofNat value)

def readU64 : CursorReader UInt64 := do
  let value ← readUint 8
  pure (UInt64.ofNat value)

def check (c : Prop) [Decidable c] (e : Error) : CursorReader Unit := Action.lift (require c e)

/-- Make a further read whether or not the earlier ones succeeded; the first error is reported
once all of them were made. -/
def alongside (x : CursorReader (α → β)) (y : CursorReader α) : CursorReader β := fun cursor =>
  let first := x.run cursor
  let second := y.run first.2
  (first.1 >>= fun f => second.1.map f, second.2)

/-- The parser `x` answers as `y` does on the remaining bytes, leaves the same remaining bytes,
and stays inside the string even where it fails. -/
structure Refines (x : CursorReader α) (y : ByteReader α) : Prop where
  keeps : Action.Keeps ByteCursor.data x
  inBounds : ∀ cursor : ByteCursor, cursor.InBounds → (x.run cursor).2.InBounds
  answer : ∀ cursor : ByteCursor, cursor.InBounds →
    y.run cursor.rest = (x.run cursor).1.map fun a => (a, (x.run cursor).2.rest)

namespace Refines

theorem pure (a : α) : Refines (pure a) (pure a) where
  keeps := Action.Keeps.pure a
  inBounds := fun _ h => h
  answer := fun _ _ => rfl

theorem fail (e : Error) : Refines (Action.fail e : CursorReader α) (throw e) where
  keeps := Action.Keeps.fail e
  inBounds := fun _ h => h
  answer := fun _ _ => rfl

theorem check (c : Prop) [Decidable c] (e : Error) : Refines (check c e) (ByteReader.check c e) where
  keeps := Action.Keeps.lift _
  inBounds := fun _ h => h
  answer := fun cursor _ => by
    unfold CursorReader.check ByteReader.check require
    by_cases hc : c
    · rw [if_pos hc]
      rfl
    · rw [if_neg hc]
      rfl

theorem remaining : Refines remaining ByteReader.remaining where
  keeps := Action.Keeps.gets _
  inBounds := fun _ h => h
  answer := fun cursor _ => by
    rw [ByteReader.run_remaining, ByteCursor.rest_length]
    rfl

theorem readBytes (count : ℕ) : Refines (readBytes count) (ByteReader.readBytes count) where
  keeps := fun cursor => by
    simp only [CursorReader.readBytes, Action.run]
    split
    · rfl
    · rfl
  inBounds := fun cursor h => by
    simp only [CursorReader.readBytes, Action.run]
    split
    · exact h
    · exact h.advanced (by omega)
  answer := fun cursor _ => by
    simp only [ByteReader.readBytes, StateT.run, CursorReader.readBytes, Action.run,
      ByteCursor.rest_length]
    split
    · rfl
    · rw [← ByteCursor.rest_advanced]
      rfl

theorem bind {x : CursorReader α} {y : ByteReader α} {f : α → CursorReader β}
    {g : α → ByteReader β} (hx : Refines x y) (hf : ∀ a, Refines (f a) (g a)) :
    Refines (x >>= f) (y >>= g) where
  keeps := hx.keeps.bind fun a => (hf a).keeps
  inBounds := fun cursor h => by
    have hfirst := hx.inBounds cursor h
    rw [Action.run_bind]
    rcases hrun : x.run cursor with ⟨e | a, cursor'⟩
    · rwa [hrun] at hfirst
    · rw [hrun] at hfirst
      exact (hf a).inBounds cursor' hfirst
  answer := fun cursor h => by
    have hfirst := hx.inBounds cursor h
    have hanswer := hx.answer cursor h
    rw [StateT.run_bind, hanswer, Action.run_bind]
    rcases hrun : x.run cursor with ⟨e | a, cursor'⟩
    · rfl
    · rw [hrun] at hfirst
      exact (hf a).answer cursor' hfirst

/-- Equivalent checks, with what the passed check tells about the rest. -/
theorem check_bind {c c' : Prop} [Decidable c] [Decidable c'] {e : Error} {x : CursorReader α}
    {y : ByteReader α} (hiff : c ↔ c') (hx : c → Refines x y) :
    Refines (CursorReader.check c e >>= fun _ => x) (ByteReader.check c' e >>= fun _ => y) := by
  unfold CursorReader.check ByteReader.check require
  by_cases hc : c
  · rw [if_pos hc, if_pos (hiff.mp hc)]
    exact hx hc
  · rw [if_neg hc, if_neg (mt hiff.mpr hc)]
    exact fail e

/-- Reads that are made together refine reads that stop at the first error. -/
theorem alongside {x : CursorReader (α → β)} {y : ByteReader (α → β)} {x' : CursorReader α}
    {y' : ByteReader α} (hx : Refines x y) (hx' : Refines x' y') :
    Refines (alongside x x') (do
      let f ← y
      let a ← y'
      Pure.pure (f a)) where
  keeps := fun cursor => (hx'.keeps _).trans (hx.keeps cursor)
  inBounds := fun cursor h => hx'.inBounds _ (hx.inBounds cursor h)
  answer := fun cursor h => by
    have hfirst := hx.inBounds cursor h
    have hanswer := hx.answer cursor h
    rw [StateT.run_bind, hanswer]
    simp only [CursorReader.alongside, Action.run]
    rcases hrun : x cursor with ⟨e | f, cursor'⟩
    · rfl
    · simp only [Action.run, hrun] at hfirst
      have hsecond := hx'.answer cursor' hfirst
      simp only [Action.run] at hsecond
      change StateT.run (do
        let a ← y'
        Pure.pure (f a)) cursor'.rest = _
      rw [StateT.run_bind, hsecond]
      rcases x' cursor' with ⟨e | a, cursor''⟩
      · rfl
      · rfl

theorem readUint (width : ℕ) : Refines (readUint width) (ByteReader.readUint width) :=
  bind (readBytes width) fun bytes => pure (leValue bytes)

theorem readU8 : Refines readU8 ByteReader.readU8 := bind (readUint 1) fun _ => pure _

theorem readU16 : Refines readU16 ByteReader.readU16 := bind (readUint 2) fun _ => pure _

theorem readU32 : Refines readU32 ByteReader.readU32 := bind (readUint 4) fun _ => pure _

theorem readU64 : Refines readU64 ByteReader.readU64 := bind (readUint 8) fun _ => pure _

/-- A parser that is run from the front of a string, where the parser it refines accepts only
whole strings: it answers alike, stays inside the string, and has consumed what it accepts. -/
theorem run_front {x : CursorReader α} {y : ByteReader α} (h : Refines x y) {cursor : ByteCursor}
    (hbounds : cursor.InBounds) (hfront : cursor.offset = 0)
    (hwhole : ∀ a rest, y.run cursor.data = .ok (a, rest) → rest = []) :
    let outcome := x.run cursor
    outcome.1 = y.run' cursor.data ∧
      (∀ range ∈ outcome.2.reads, range.1 + range.2 ≤ cursor.data.length) ∧
      ∀ a, outcome.1 = .ok a → outcome.2.offset = cursor.data.length := by
  have hanswer := h.answer cursor hbounds
  have hdata := h.keeps cursor
  have hlast := h.inBounds cursor hbounds
  have hrest : cursor.rest = cursor.data := by rw [ByteCursor.rest, hfront, List.drop_zero]
  rw [hrest] at hanswer
  generalize x.run cursor = outcome at hanswer hdata hlast ⊢
  refine ⟨?_, fun range hrange => ?_, fun a hok => ?_⟩
  · rw [StateT.run'_eq, hanswer]
    rcases outcome.1 with e | a <;> rfl
  · have hle := hlast.reads_le range hrange
    rwa [hdata] at hle
  · rw [hok] at hanswer
    have hnil := hwhole a _ hanswer
    have hlength := congrArg List.length hnil
    have hoffset := hlast.offset_le
    rw [ByteCursor.rest_length, ByteCursor.remaining, List.length_nil] at hlength
    rw [hdata] at hlength hoffset
    exact Nat.le_antisymm hoffset (Nat.le_of_sub_eq_zero hlength)

end Refines

/-- A passed check leaves the cursor. -/
theorem run_check_of_pos {c : Prop} [Decidable c] (h : c) (e : Error) (cursor : ByteCursor) :
    (check c e).run cursor = (.ok (), cursor) := by
  rw [check, require, if_pos h]
  rfl

theorem run_check_of_neg {c : Prop} [Decidable c] (h : ¬ c) (e : Error) (cursor : ByteCursor) :
    (check c e).run cursor = (.error e, cursor) := by
  rw [check, require, if_neg h]
  rfl

end CursorReader

end Nvcr
