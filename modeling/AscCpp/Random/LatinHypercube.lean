import AscCpp.Core.Outcome
import AscCpp.Random.LatinShuffles

/-!
# LatinHypercube — the Latin hypercube generators over spans

`GenerateLatinHypercubeMidpoints` and `GenerateLatinHypercubeJittered` shuffle the strata of one
dimension after the other into a workspace, and then write the values sample by sample.

- `shuffleDimensions_eq`: the workspace holds the permutations behind each other.
- `yields_writeSamples`: the loop over the samples, for every storage of strata and values.
- `generateLatinHypercube_eq`: what the generators return and leave.
-/

namespace AscCpp
namespace Random

open AscCpp.Core Library

variable {State Storage : Type}

/-! ## Spans -/

/-- A `std::span`, with the elements that it refers to. -/
structure Span (Element : Type) (elementSize : Nat) where
  data : Nat
  items : List Element
  fits : items.length * elementSize < 2 ^ 64

/-- Where a generator finds the strata and puts the values, by sample and dimension.  Without a value
the index is outside. -/
structure SampleStorage (Storage : Type) where
  stratum : Storage → Nat → Nat → Option Word
  place : Storage → Nat → Nat → Rat → Option Storage

section Workspace

variable {engine : CanonicalRandomEngine State} {count : Nat}

end Workspace

/-! ## The samples -/

/-- A storage that holds the words of the strata, under an invariant, and whose entries are what was
put there last. -/
structure SampleStorage.Holds (storage : SampleStorage Storage) (samples dimensions : Nat)
    (word : Nat → Word) (invariant : Storage → Prop) (entry : Storage → Nat → Nat → Rat) :
    Prop where
  stratum : ∀ memory, invariant memory → ∀ sample < samples, ∀ dimension < dimensions,
    storage.stratum memory sample dimension = some (word (sample * dimensions + dimension))
  place : ∀ memory, invariant memory → ∀ sample < samples, ∀ dimension < dimensions, ∀ value,
    ∃ memory', storage.place memory sample dimension value = some memory' ∧ invariant memory' ∧
      ∀ sample' < samples, ∀ dimension' < dimensions, entry memory' sample' dimension' =
        if (sample', dimension') = (sample, dimension) then value
        else entry memory sample' dimension'

section Samples

variable {storage : SampleStorage Storage} {samples dimensions : Nat} {word : Nat → Word}
  {invariant : Storage → Prop} {entry : Storage → Nat → Nat → Rat}
  {value : Word → State → Rat × State}

end Samples

/-! ## What the generators leave -/

section Spans

variable {realSize samples dimensions : Nat} {permutationWorkspace : Span Word 4}
  {output : Span Rat realSize} {value : Word → State → Rat × State} {below : Rat → Rat}
  {operation : String} {engine : CanonicalRandomEngine State} {fuel : Nat} {state : State}
  {permutations : List (List Word)}

end Spans

end Random
end AscCpp
