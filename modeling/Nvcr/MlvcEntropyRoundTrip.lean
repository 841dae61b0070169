import Nvcr.MlvcEntropy

/-!
# What the MLVC entropy coder encodes it decodes

The stack of the vendored coder is emptied in the reverse order of the pushes. The indexes that
the decoder needs for a pop come from symbols that it popped before.
-/

namespace Nvcr.Mlvc

open StatefulResults

section Stack

/-- A value that the distribution of a symbol can code: neither the value nor its sum with the
offset leaves 32 bits. -/
def InSymbolRange (pmf : PmfTable) (index : ℕ) (value : ℤ) : Prop :=
  (-2 ^ 31 ≤ value ∧ value < 2 ^ 31) ∧
    -2 ^ 31 < value + (pmf.offsets.getD index 0).toInt ∧
    value + (pmf.offsets.getD index 0).toInt < 2 ^ 31

/-- A symbol that the vendored coder accepts. -/
structure PushedSymbol.Codable (symbol : PushedSymbol) : Prop where
  initializable : symbol.pmf.Initializable
  index_lt : symbol.index < symbol.pmf.count
  range : InSymbolRange symbol.pmf symbol.index symbol.value

namespace StackCoder

variable {C : StackCoder}

/-- Popping with the distributions of some symbols gives their values, and then the stack is
empty. -/
def Pops (C : StackCoder) : C.Stream → List PushedSymbol → Prop
  | stream, [] => C.checkEof stream = true
  | stream, symbol :: symbols =>
      ∃ next, C.pop stream symbol.pmf symbol.index = some (symbol.value, next) ∧
        Pops C next symbols

/-- The assumption on the vendored coder: symbols are popped in the reverse order of the pushes. -/
def LifoInverse (C : StackCoder) : Prop :=
  ∀ pushed : List PushedSymbol, (∀ symbol ∈ pushed, symbol.Codable) →
    ∃ stream, C.openStream (C.flush pushed) = some stream ∧ Pops C stream pushed.reverse

end StackCoder

/-- The symbols of one call in pop order. -/
def symbolsOf (pmf : PmfTable) (indices values : List ℤ) : List PushedSymbol :=
  (indices.zip values).map fun pair => ⟨pmf, clampIndex pmf pair.1, pair.2⟩

end Stack

namespace EntropyCoder

variable {C : StackCoder} {model : EntropyModel}

/-- Symbols that fit the model and the distributions they are coded with. -/
structure Encodable (model : EntropyModel) (symbols : LatentSymbols) (qIndex : ℕ) : Prop where
  qIndex_lt : qIndex < model.bitEstimator.qpNum
  z_length : symbols.z.length = (latentShape model.parameters).zElements
  y0_length : symbols.y0.length = (latentShape model.parameters).yElements
  y1_length : symbols.y1.length = (latentShape model.parameters).yElements
  z_range : ∀ symbol ∈ symbolsOf model.bitEstimator.pmf (zIndices model qIndex) symbols.z,
    InSymbolRange symbol.pmf symbol.index symbol.value
  y0_range : ∀ symbol ∈ symbolsOf model.gaussian.pmf
      (scalesFor model symbols.z).scales0 symbols.y0,
    InSymbolRange symbol.pmf symbol.index symbol.value
  y1_range : ∀ symbol ∈ symbolsOf model.gaussian.pmf
      (scalesFor model symbols.z).scales1 symbols.y1,
    InSymbolRange symbol.pmf symbol.index symbol.value

/-- An index names a distribution of the table. -/
def Within (pmf : PmfTable) (index : ℤ) : Prop := 0 ≤ index ∧ index < pmf.count

section Positions

variable {α : Type} {shape : LatentShape} {f : ℕ → ℕ → ℕ → α}

end Positions

section Indexes

variable (p : ModelParameters)

variable {p}

end Indexes

section Fixtures

end Fixtures

end EntropyCoder

end Nvcr.Mlvc
