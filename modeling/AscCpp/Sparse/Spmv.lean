import AscCpp.Expression.Terminal
import AscCpp.Sparse.Matrix
import AscCpp.Sparse.PlacedStructure

/-!
# Spmv — the compatibility product of a matrix and a vector

`Spmv` over expression vectors of rank one, with `ValidateSpmv` and `SpmvReferenceImpl`.  The
product is written row by row, through the writable protocol of the output.

The coordinates of the vectors and the structure of the matrix are read from memory whenever they
are needed, since the rows that are written need not be apart from all of them.
-/

namespace AscCpp
namespace Sparse

open AscCpp.Core Library Expression AscCpp.Dense

variable {Cell V : Type} [Ring V] [DecidableEq V] {type : Representation Cell V}

/-! ## The writable protocol -/

namespace CoordinateView

variable {rank : Nat}

/-- The loop of `Write` over the stored coordinates; without a match the program stops. -/
def writeFrom (view : CoordinateView (Stored type) rank) (coordinate : Coordinate rank) (value : V) :
    List Nat → Effect (Nat → Cell) Unit
  | [] => Effect.check none
  | position :: positions => do
    let storedCoordinate ← Effect.check (view.coordinate position).toOption
    if compareCoordinates storedCoordinate coordinate = 0 then do
      let storedValue ← Effect.check (view.elementAt position).toOption
      Effect.store type storedValue value
    else
      view.writeFrom coordinate value positions

/-- `Write`. -/
def write (view : CoordinateView (Stored type) rank) (coordinate : Coordinate rank) (value : V) :
    Effect (Nat → Cell) Unit := do
  let memory ← Effect.read
  let _ ← Effect.check (view.read memory coordinate.toList)
  view.writeFrom coordinate value (List.range view.nonzeros)

end CoordinateView

/-- A view of rank one. -/
inductive VectorView (type : Representation Cell V) where
  | dense (view : DenseView type 1)
  | coordinate (view : CoordinateView (Stored type) 1) (hview : view.Checked)

namespace VectorView

def terminal : VectorView type → ViewTerminal Cell V
  | dense view => .dense view
  | coordinate view hview => .coordinate view hview

/-- `IsUnique`. -/
def isUnique : VectorView type → Bool
  | dense view => view.mapping.unique
  | coordinate _ _ => true

def extent : VectorView type → Int
  | dense view => view.mapping.extents.get 0
  | coordinate view _ => view.extents.get 0

/-- `ExpressionRead`; a coordinate view searches in the coordinates that memory holds. -/
def read (index : IndexRepresentation Cell) :
    VectorView type → (Nat → Cell) → Int → Option V
  | dense view, memory, position => view.read memory ⟨[position], rfl⟩
  | coordinate view _, memory, position => (view.placed index memory).read memory [position]

/-- `WriteExpression`. -/
def write (index : IndexRepresentation Cell) :
    VectorView type → Int → V → Effect (Nat → Cell) Unit
  | dense view, position, value => do
    let element ← Effect.check (view.elementAt ⟨[position], rfl⟩).toOption
    Effect.store type element value
  | coordinate view _, position, value => do
    let memory ← Effect.read
    (view.placed index memory).write ⟨[position], rfl⟩ value

end VectorView

/-! ## Validation -/

/-- `ExpressionMayOverlap` of a view. -/
def viewMayOverlap (terminal : ViewTerminal Cell V) (destination : ExpressionAliasMetadata) : Bool :=
  (ExpressionTree.terminal terminal : ViewExpression Cell V).mayOverlap destination

def matrixStructureMayOverlap (matrix : CompressedSparseView (Stored type) .csr)
    (outputAlias : ExpressionAliasMetadata) : Bool :=
  if outputAlias.span.all (fun span => span.size = 0) then
    false
  else
    match offsetCount matrix.rows, checkedByteCount matrix.nonzeros indexSize with
    | .ok offsetCount, .ok indexBytes =>
      match checkedMultiply sizeType offsetCount indexSize with
      | .error _ => true
      | .ok offsetBytes =>
        Expression.byteSpansOverlap
            ⟨matrix.outerOffsets.address, some ⟨matrix.outerOffsets.address, offsetBytes.toNat⟩⟩
            outputAlias ||
          Expression.byteSpansOverlap
            ⟨matrix.innerIndices.address, some ⟨matrix.innerIndices.address, indexBytes.toNat⟩⟩
            outputAlias
    | _, _ => true

def validateSpmv (context : ExecutionContext) (matrix : CompressedSparseView (Stored type) .csr)
    (hmatrix : matrix.Checked) (input output : VectorView type) : Result Unit := do
  validateSerialHost context "Sparse SpMV requires serial execution"
  validateSparseAccess matrix.memorySpace context
  input.terminal.validateAccess context
  output.terminal.validateAccess context
  failIf
    (input.terminal.space ≠ .host ∨ output.terminal.space ≠ .host ∨ matrix.memorySpace ≠ .host)
    { code := .memoryAccess, message := "Sparse SpMV requires host operands" }
  failIf (output.isUnique = false)
    { code := .invalidArgument, message := "Sparse SpMV requires a unique output mapping" }
  failIf (input.extent ≠ matrix.columns ∨ output.extent ≠ matrix.rows)
    { code := .shape, message := "Sparse SpMV vector lengths do not match the matrix" }
  failIf
    ((viewMayOverlap input.terminal output.terminal.aliasMetadata ||
      viewMayOverlap (.compressed matrix hmatrix) output.terminal.aliasMetadata ||
      matrixStructureMayOverlap matrix output.terminal.aliasMetadata) = true)
    { code := .invalidArgument, message := "Sparse SpMV rejects output operand overlap" }

/-! ## The product -/

section Product

variable (index : IndexRepresentation Cell)

/-- One round of the inner loop of `SpmvReferenceImpl`. -/
def addProduct (matrix : CompressedSparseView (Stored type) .csr) (input : VectorView type)
    (product : V) (position : Int) : Effect (Nat → Cell) V := do
  let memory ← Effect.read
  let column ← Effect.ofResult ((matrix.placed index memory).innerIndex position)
  let value ← Effect.ofResult (matrix.elementAt position)
  let factor ← Effect.check (input.read index memory column)
  pure (product + type.load memory value * factor)

/-- What `SpmvReferenceImpl` adds to the product of a row. -/
def addOutput (beta : V) (output : VectorView type) (row : Nat) (result : V) :
    Effect (Nat → Cell) V :=
  if beta ≠ 0 then do
    let memory ← Effect.read
    let old ← Effect.check (output.read index memory row)
    pure (result + beta * old)
  else
    pure result

/-- One round of the outer loop of `SpmvReferenceImpl`. -/
def spmvRow (alpha : V) (matrix : CompressedSparseView (Stored type) .csr) (input : VectorView type)
    (beta : V) (output : VectorView type) (row : Nat) : Effect (Nat → Cell) Unit := do
  let memory ← Effect.read
  let first ← Effect.ofResult ((matrix.placed index memory).outerOffset row)
  let last ← Effect.ofResult ((matrix.placed index memory).outerOffset (row + 1))
  let product ← (List.range (last - first).toNat).foldlM
    (fun product (step : Nat) => addProduct index matrix input product (first + step)) 0
  let result ← addOutput index beta output row (alpha * product)
  output.write index row result

def spmvReference (alpha : V) (matrix : CompressedSparseView (Stored type) .csr)
    (input : VectorView type) (beta : V) (output : VectorView type) : Effect (Nat → Cell) Unit :=
  forM (List.range matrix.rows.toNat) (spmvRow index alpha matrix input beta output)

def spmv (context : ExecutionContext) (alpha : V)
    (matrix : CompressedSparseView (Stored type) .csr) (hmatrix : matrix.Checked)
    (input : VectorView type) (beta : V) (output : VectorView type) :
    Effect (Nat → Cell) Unit := do
  Effect.ofResult (validateSpmv context matrix hmatrix input output)
  spmvReference index alpha matrix input beta output

end Product

end Sparse
end AscCpp
