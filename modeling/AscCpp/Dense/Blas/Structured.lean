import AscCpp.Dense.Blas.Packed
import AscCpp.Dense.Blas.Scalar

/-!
# Structured — symmetric, Hermitian and triangular accesses

A symmetric or a triangular matrix is stored by one triangle, in full storage, as a band or packed.
An access reflects or suppresses what is not stored: `SymmetricAt`, `SymmetricBandAt`,
`SymmetricPackedAt`, and the three triangular accesses.

- `SquareOperand`: what the operations see of such a matrix.
-/

namespace AscCpp
namespace Dense
namespace Blas

open AscCpp.Core Library

variable {Cell V : Type} {type : Representation Cell V}

/-- `triangle == kUpper && row > column`, or the same below the diagonal. -/
def OffTriangle (triangle : DenseBlasTriangle) (row column : Int) : Prop :=
  (triangle = .upper ∧ row > column) ∨ (triangle = .lower ∧ row < column)

instance (triangle : DenseBlasTriangle) (row column : Int) :
    Decidable (OffTriangle triangle row column) :=
  inferInstanceAs (Decidable (_ ∨ _))

theorem offTriangle_iff {triangle : DenseBlasTriangle} {row column : Int} :
    OffTriangle triangle row column ↔ ¬ InTriangle triangle row column := by
  unfold OffTriangle InTriangle
  cases triangle <;> simp

section Accesses

variable [Zero V] [One V] [Star V] [DenseBlasScalar V]

/-! ## Symmetric and Hermitian accesses -/

/-- What an access makes of a stored value. -/
def structuredValue (value : V) (row column : Int) (hermitian reflected : Bool) : V :=
  if DenseBlasScalar.complex V ∧ row = column ∧ hermitian then DenseBlasScalar.realPart value
  else if hermitian ∧ reflected then conjugate value
  else value

/-- An access that takes a pair off the triangle from the other side of the diagonal. -/
def reflectedAt (stored : Int → Int → V) (triangle : DenseBlasTriangle) (row column : Int)
    (hermitian : Bool) : V :=
  if OffTriangle triangle row column then
    structuredValue (stored column row) column row hermitian true
  else
    structuredValue (stored row column) row column hermitian false

def symmetricAt (matrix : DenseBlasMatrixView type) (memory : Nat → Cell)
    (triangle : DenseBlasTriangle) (row column : Int) (hermitian : Bool) : V :=
  reflectedAt (matrix.value memory) triangle row column hermitian

def symmetricBandAt (matrix : DenseBlasTriangularBandView type) (memory : Nat → Cell)
    (triangle : DenseBlasTriangle) (row column : Int) (hermitian : Bool) : V :=
  if row > column + matrix.bandwidth ∨ column > row + matrix.bandwidth then 0
  else reflectedAt (matrix.triangularBandStoredAt memory triangle) triangle row column hermitian

def symmetricPackedAt (matrix : DenseBlasPackedMatrixView type) (memory : Nat → Cell)
    (triangle : DenseBlasTriangle) (row column : Int) (hermitian : Bool) : V :=
  reflectedAt (matrix.value memory triangle) triangle row column hermitian

/-! ## Triangular accesses -/

/-- An access that is one on a unit diagonal and zero off the triangle. -/
def triangularAt (stored : Int → Int → V) (triangle : DenseBlasTriangle)
    (diagonal : DenseBlasDiagonal) (row column : Int) : V :=
  if row = column ∧ diagonal = .unit then 1
  else if OffTriangle triangle row column then 0
  else stored row column

/-- `FullTriangularAccess::operator()`. -/
def fullTriangularAt (matrix : DenseBlasMatrixView type) (memory : Nat → Cell)
    (triangle : DenseBlasTriangle) (diagonal : DenseBlasDiagonal) (row column : Int) : V :=
  triangularAt (matrix.value memory) triangle diagonal row column

/-- `BandTriangularAccess::operator()`, which leaves the zeros to the band. -/
def bandTriangularAt (matrix : DenseBlasTriangularBandView type) (memory : Nat → Cell)
    (triangle : DenseBlasTriangle) (diagonal : DenseBlasDiagonal) (row column : Int) : V :=
  if row = column ∧ diagonal = .unit then 1
  else matrix.triangularBandStoredAt memory triangle row column

/-- `PackedTriangularAccess::operator()`. -/
def packedTriangularAt (matrix : DenseBlasPackedMatrixView type) (memory : Nat → Cell)
    (triangle : DenseBlasTriangle) (diagonal : DenseBlasDiagonal) (row column : Int) : V :=
  triangularAt (matrix.value memory triangle) triangle diagonal row column

/-- `access(row, column)` or `access(column, row)`, conjugated on request. -/
def operationAt (access : Int → Int → V) (transposition : DenseBlasTranspose)
    (row column : Int) : V :=
  maybeConjugate (if transposition = .none then access row column else access column row)
    (transposition = .conjugateTranspose)

end Accesses

/-- Over exact arithmetic an access through a transpose argument is the selected matrix. -/
theorem operationAt_eq [CommRing V] [StarRing V] [ExactScalar V] (access : Int → Int → V)
    (transposition : DenseBlasTranspose) :
    operationAt access transposition = transposed transposition access := by
  funext row column
  unfold operationAt transposed
  rw [maybeConjugate_eq]
  cases transposition <;> rfl

/-! ## Operands -/

/-- A square matrix as the operations see it: `order()`, `memory_space()`, `reachable_storage()` and
an access. -/
structure SquareOperand (Cell V : Type) where
  order : Int
  memorySpace : MemorySpace
  reachableStorage : ConstMemoryView
  access : (Nat → Cell) → Int → Int → V

/-- The access reads the reachable storage only. -/
def SquareOperand.Local (operand : SquareOperand Cell V) : Prop :=
  ∀ memory memory', AgreeOn operand.reachableStorage.block memory memory' →
    ∀ row column, 0 ≤ row ∧ row < operand.order → 0 ≤ column ∧ column < operand.order →
      operand.access memory row column = operand.access memory' row column

/-- The storage of a structured matrix: in full, as a band or packed. -/
inductive SquareStorage (type : Representation Cell V) where
  | full (matrix : DenseBlasMatrixView type)
  | band (matrix : DenseBlasTriangularBandView type)
  | packed (matrix : DenseBlasPackedMatrixView type)

namespace SquareStorage

/-- The descriptor comes from `Create`, and has as many rows as columns. -/
def Checked : SquareStorage type → Prop
  | .full matrix => matrix.Checked ∧ matrix.rows = matrix.columns
  | .band matrix => matrix.Checked
  | .packed matrix => matrix.Checked

def order : SquareStorage type → Int
  | .full matrix => matrix.rows
  | .band matrix => matrix.order
  | .packed matrix => matrix.order

def memorySpace : SquareStorage type → MemorySpace
  | .full matrix => matrix.memorySpace
  | .band matrix => matrix.memorySpace
  | .packed matrix => matrix.memorySpace

def reachableStorage : SquareStorage type → ConstMemoryView
  | .full matrix => matrix.reachableStorage
  | .band matrix => matrix.reachableStorage
  | .packed matrix => matrix.reachableStorage

variable [Zero V] [One V] [Star V] [DenseBlasScalar V]

/-- The operand with the symmetric or Hermitian access. -/
def structured (storage : SquareStorage type) (triangle : DenseBlasTriangle) (hermitian : Bool) :
    SquareOperand Cell V where
  order := storage.order
  memorySpace := storage.memorySpace
  reachableStorage := storage.reachableStorage
  access memory row column :=
    match storage with
    | .full matrix => symmetricAt matrix memory triangle row column hermitian
    | .band matrix => symmetricBandAt matrix memory triangle row column hermitian
    | .packed matrix => symmetricPackedAt matrix memory triangle row column hermitian

/-- The operand with the triangular access. -/
def triangular (storage : SquareStorage type) (triangle : DenseBlasTriangle)
    (diagonal : DenseBlasDiagonal) : SquareOperand Cell V where
  order := storage.order
  memorySpace := storage.memorySpace
  reachableStorage := storage.reachableStorage
  access memory row column :=
    match storage with
    | .full matrix => fullTriangularAt matrix memory triangle diagonal row column
    | .band matrix => bandTriangularAt matrix memory triangle diagonal row column
    | .packed matrix => packedTriangularAt matrix memory triangle diagonal row column

end SquareStorage

end Blas
end Dense
end AscCpp
