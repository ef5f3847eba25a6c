import AscCpp.Core.Loop
import AscCpp.Dense.Blas.Structured

/-!
# Level2 — the matrix-vector operations

`GeneralMv`, `StructuredMv`, `TriangularOperation`, `RankOne` and `RankTwo`, and the public
operations that pass them a storage.  A division by zero has no value in exact arithmetic: it stops
the program.
-/

namespace AscCpp
namespace Dense
namespace Blas

open AscCpp.Core Library

variable {Cell V : Type} {type : Representation Cell V}

/-! ## Checks -/

/-- `ValidateContext` of a level. -/
def validateLevelContext (level : String) (context : ExecutionContext) : Result Unit := do
  failIf (context.backend ≠ .serial)
    { code := .unsupported
      message := "Dense " ++ level ++ " CPU BLAS requires serial execution" }
  failIf (context.canAccess .host = false)
    { code := .memoryAccess, message := "Serial execution cannot access host BLAS storage" }

def isHostAccessible (space : MemorySpace) : Bool :=
  space = .host ∨ space = .pinnedHost

/-- `ValidateHostStorage` of a level. -/
def validateLevelHostStorage (level : String) (space : MemorySpace) : Result Unit :=
  failIf (isHostAccessible space = false)
    { code := .memoryAccess
      message := "Dense " ++ level ++ " CPU BLAS requires host-accessible storage" }

namespace Level2

def validateContext (context : ExecutionContext) : Result Unit :=
  validateLevelContext "Level 2" context

def validateHostStorage (space : MemorySpace) : Result Unit :=
  validateLevelHostStorage "Level 2" space

end Level2

open Level2

/-- `value /= divisor`. -/
def divide [Zero V] [Div V] [DecidableEq V] (value divisor : V) : Effect (Nat → Cell) V :=
  Effect.check (if divisor = 0 then none else some (value / divisor))

/-! ## Products -/

/-- A general matrix as the operations see it. -/
structure GeneralOperand (Cell V : Type) where
  rows : Int
  columns : Int
  memorySpace : MemorySpace
  reachableStorage : ConstMemoryView
  access : (Nat → Cell) → Int → Int → V

section Products

variable [Zero V] [One V] [Add V] [Mul V] [Star V] [DecidableEq V] [DenseBlasScalar V]

/-- `alpha * product + (beta == 0 ? 0 : beta * destination)`. -/
def combined (alpha product beta destination : V) : V :=
  alpha * product + if beta = 0 then 0 else beta * destination

/-- `transpose == kNone ? matrix.rows() : matrix.columns()`. -/
def outputSize (transposition : DenseBlasTranspose) (rows columns : Int) : Int :=
  if transposition = .none then rows else columns

/-- `transpose == kNone ? matrix.columns() : matrix.rows()`. -/
def inputSize (transposition : DenseBlasTranspose) (rows columns : Int) : Int :=
  if transposition = .none then columns else rows

def validateGeneralMv (context : ExecutionContext) (transposition : DenseBlasTranspose)
    (matrix : GeneralOperand Cell V) (input output : DenseBlasVectorView type) : Result Unit := do
  validateContext context
  validateHostStorage matrix.memorySpace
  validateHostStorage input.memorySpace
  validateHostStorage output.memorySpace
  failIf
    (input.size ≠ inputSize transposition matrix.rows matrix.columns ∨
      output.size ≠ outputSize transposition matrix.rows matrix.columns)
    { code := .shape, message := "Level 2 matrix-vector operand shapes do not match" }
  failIf
    (overlap matrix.reachableStorage output.reachableStorage = true ∨
      overlap input.reachableStorage output.reachableStorage = true)
    { code := .invalidArgument
      message := "Matrix-vector output cannot overlap a read operand" }

/-- The product of a row of a matrix and the input. -/
def rowProduct (alpha : V) (count : Int) (entry : Int → Int → V) (input : Int → V) (row : Int) :
    V :=
  if alpha ≠ 0 then
    (indices 0 count).foldl (fun product column => product + entry row column * input column) 0
  else 0

def generalMv (context : ExecutionContext) (transposition : DenseBlasTranspose) (alpha : V)
    (matrix : GeneralOperand Cell V) (input : DenseBlasVectorView type) (beta : V)
    (output : DenseBlasVectorView type) : Effect (Nat → Cell) Unit := do
  Effect.ofResult (validateGeneralMv context transposition matrix input output)
  forM (indices 0 (outputSize transposition matrix.rows matrix.columns)) fun row => do
    let memory ← Effect.read
    let product := rowProduct alpha (inputSize transposition matrix.rows matrix.columns)
      (operationAt (matrix.access memory) transposition) (input.value memory) row
    Effect.store type (output.vectorAt row)
      (combined alpha product beta (output.value memory row))

def validateStructuredMv (context : ExecutionContext) (matrix : SquareOperand Cell V)
    (input output : DenseBlasVectorView type) : Result Unit := do
  validateContext context
  validateHostStorage matrix.memorySpace
  validateHostStorage input.memorySpace
  validateHostStorage output.memorySpace
  failIf (input.size ≠ matrix.order ∨ output.size ≠ matrix.order)
    { code := .shape, message := "Structured matrix-vector operand shapes do not match" }
  failIf
    (overlap matrix.reachableStorage output.reachableStorage = true ∨
      overlap input.reachableStorage output.reachableStorage = true)
    { code := .invalidArgument
      message := "Structured matrix-vector output overlaps a read operand" }

def structuredMv (context : ExecutionContext) (alpha : V) (matrix : SquareOperand Cell V)
    (input : DenseBlasVectorView type) (beta : V) (output : DenseBlasVectorView type) :
    Effect (Nat → Cell) Unit := do
  Effect.ofResult (validateStructuredMv context matrix input output)
  forM (indices 0 matrix.order) fun row => do
    let memory ← Effect.read
    let product := rowProduct alpha matrix.order (matrix.access memory) (input.value memory) row
    Effect.store type (output.vectorAt row)
      (combined alpha product beta (output.value memory row))

variable (context : ExecutionContext) (transposition : DenseBlasTranspose)
  (triangle : DenseBlasTriangle) (alpha : V) (input : DenseBlasVectorView type) (beta : V)
  (output : DenseBlasVectorView type)

def gemv (matrix : DenseBlasMatrixView type) : Effect (Nat → Cell) Unit :=
  generalMv context transposition alpha
    { rows := matrix.rows
      columns := matrix.columns
      memorySpace := matrix.memorySpace
      reachableStorage := matrix.reachableStorage
      access := matrix.value } input beta output

def gbmv (matrix : DenseBlasBandMatrixView type) : Effect (Nat → Cell) Unit :=
  generalMv context transposition alpha
    { rows := matrix.rows
      columns := matrix.columns
      memorySpace := matrix.memorySpace
      reachableStorage := matrix.reachableStorage
      access := matrix.generalBandAt } input beta output

def hemv (matrix : DenseBlasMatrixView type) : Effect (Nat → Cell) Unit := do
  Effect.ofResult (failIf (matrix.rows ≠ matrix.columns)
    { code := .shape, message := "A Hermitian matrix must be square" })
  structuredMv context alpha ((SquareStorage.full matrix).structured triangle true) input beta output

def hbmv (matrix : DenseBlasTriangularBandView type) : Effect (Nat → Cell) Unit :=
  structuredMv context alpha ((SquareStorage.band matrix).structured triangle true) input beta output

def hpmv (matrix : DenseBlasPackedMatrixView type) : Effect (Nat → Cell) Unit :=
  structuredMv context alpha ((SquareStorage.packed matrix).structured triangle true) input beta
    output

def symv (matrix : DenseBlasMatrixView type) : Effect (Nat → Cell) Unit := do
  Effect.ofResult (failIf (matrix.rows ≠ matrix.columns)
    { code := .shape, message := "A symmetric matrix must be square" })
  structuredMv context alpha ((SquareStorage.full matrix).structured triangle false) input beta output

def sbmv (matrix : DenseBlasTriangularBandView type) : Effect (Nat → Cell) Unit :=
  structuredMv context alpha ((SquareStorage.band matrix).structured triangle false) input beta output

def spmv (matrix : DenseBlasPackedMatrixView type) : Effect (Nat → Cell) Unit :=
  structuredMv context alpha ((SquareStorage.packed matrix).structured triangle false) input beta
    output

end Products

/-! ## Triangular operations -/

section TriangularOperations

variable [Zero V] [One V] [Add V] [Sub V] [Mul V] [Div V] [Star V] [DecidableEq V]
  [DenseBlasScalar V]

def validateTriangularOperation (context : ExecutionContext) (access : SquareOperand Cell V)
    (vector : DenseBlasVectorView type) : Result Unit := do
  validateContext context
  validateHostStorage access.memorySpace
  validateHostStorage vector.memorySpace
  failIf (vector.size ≠ access.order)
    { code := .shape, message := "A triangular matrix and vector have different orders" }
  failIf (overlap access.reachableStorage vector.reachableStorage = true)
    { code := .invalidArgument, message := "A triangular matrix cannot overlap its vector" }

/-- `effective_upper`. -/
def effectiveUpper (triangle : DenseBlasTriangle) (transposition : DenseBlasTranspose) : Bool :=
  if transposition = .none then triangle = .upper else triangle = .lower

/-- One round of the multiplication. -/
def multiplyRow (upper : Bool) (transposition : DenseBlasTranspose) (access : SquareOperand Cell V)
    (vector : DenseBlasVectorView type) (row : Int) : Effect (Nat → Cell) Unit := do
  let memory ← Effect.read
  let result := (indices (if upper then row else 0) (if upper then access.order else row + 1)).foldl
    (fun result column =>
      result + operationAt (access.access memory) transposition row column *
        vector.value memory column) 0
  Effect.store type (vector.vectorAt row) result

/-- One round of the substitution. -/
def solveRow (upper : Bool) (transposition : DenseBlasTranspose) (diagonal : DenseBlasDiagonal)
    (access : SquareOperand Cell V) (vector : DenseBlasVectorView type) (row : Int) :
    Effect (Nat → Cell) Unit := do
  let memory ← Effect.read
  let result := (indices (if upper then row + 1 else 0) (if upper then access.order else row)).foldl
    (fun result column =>
      result - operationAt (access.access memory) transposition row column *
        vector.value memory column) (vector.value memory row)
  let result ← match diagonal with
    | .nonUnit => divide result (operationAt (access.access memory) transposition row row)
    | .unit => pure result
  Effect.store type (vector.vectorAt row) result

/-- The row of an iteration, from the first one to the last one or backwards. -/
def iterationRow (forwards : Bool) (order iteration : Int) : Int :=
  if forwards then iteration else order - 1 - iteration

def triangularOperation (context : ExecutionContext) (triangle : DenseBlasTriangle)
    (transposition : DenseBlasTranspose) (diagonal : DenseBlasDiagonal)
    (access : SquareOperand Cell V) (vector : DenseBlasVectorView type) (solve : Bool) :
    Effect (Nat → Cell) Unit := do
  Effect.ofResult (validateTriangularOperation context access vector)
  if solve = false then
    forM (indices 0 access.order) fun iteration =>
      multiplyRow (effectiveUpper triangle transposition) transposition access vector
        (iterationRow (effectiveUpper triangle transposition) access.order iteration)
  else
    forM (indices 0 access.order) fun iteration =>
      solveRow (effectiveUpper triangle transposition) transposition diagonal access vector
        (iterationRow (!effectiveUpper triangle transposition) access.order iteration)

variable (context : ExecutionContext) (triangle : DenseBlasTriangle)
  (transposition : DenseBlasTranspose) (diagonal : DenseBlasDiagonal)

/-- `Trmv` and `Trsv`. -/
def fullTriangularOperation (matrix : DenseBlasMatrixView type)
    (vector : DenseBlasVectorView type) (solve : Bool) : Effect (Nat → Cell) Unit := do
  Effect.ofResult (failIf (matrix.rows ≠ matrix.columns)
    { code := .shape, message := "A triangular matrix must be square" })
  triangularOperation context triangle transposition diagonal
    ((SquareStorage.full matrix).triangular triangle diagonal) vector solve

def trmv (matrix : DenseBlasMatrixView type) (vector : DenseBlasVectorView type) :
    Effect (Nat → Cell) Unit :=
  fullTriangularOperation context triangle transposition diagonal matrix vector false

def tbmv (matrix : DenseBlasTriangularBandView type) (vector : DenseBlasVectorView type) :
    Effect (Nat → Cell) Unit :=
  triangularOperation context triangle transposition diagonal
    ((SquareStorage.band matrix).triangular triangle diagonal) vector false

def tpmv (matrix : DenseBlasPackedMatrixView type) (vector : DenseBlasVectorView type) :
    Effect (Nat → Cell) Unit :=
  triangularOperation context triangle transposition diagonal
    ((SquareStorage.packed matrix).triangular triangle diagonal) vector false

def trsv (matrix : DenseBlasMatrixView type) (vector : DenseBlasVectorView type) :
    Effect (Nat → Cell) Unit :=
  fullTriangularOperation context triangle transposition diagonal matrix vector true

def tbsv (matrix : DenseBlasTriangularBandView type) (vector : DenseBlasVectorView type) :
    Effect (Nat → Cell) Unit :=
  triangularOperation context triangle transposition diagonal
    ((SquareStorage.band matrix).triangular triangle diagonal) vector true

def tpsv (matrix : DenseBlasPackedMatrixView type) (vector : DenseBlasVectorView type) :
    Effect (Nat → Cell) Unit :=
  triangularOperation context triangle transposition diagonal
    ((SquareStorage.packed matrix).triangular triangle diagonal) vector true

end TriangularOperations

/-! ## Rank updates -/

/-- The selected triangle, row by row. -/
def forTriangle {Memory : Type} (triangle : DenseBlasTriangle) (order : Int)
    (body : Int → Int → Effect Memory Unit) : Effect Memory Unit :=
  forM (indices 0 order) fun row =>
    forM (indices (if triangle = .upper then row else 0)
      (if triangle = .upper then order else row + 1)) fun column => body row column

/-- A square matrix as the updates see it; `reference` is the address of an element. -/
structure RankOperand where
  order : Int
  memorySpace : MemorySpace
  reachableStorage : ConstMemoryView
  reference : Int → Int → Nat

def DenseBlasMatrixView.rankOperand (matrix : DenseBlasMatrixView type) : RankOperand where
  order := matrix.rows
  memorySpace := matrix.memorySpace
  reachableStorage := matrix.reachableStorage
  reference := matrix.matrixAt

def DenseBlasPackedMatrixView.rankOperand (matrix : DenseBlasPackedMatrixView type)
    (triangle : DenseBlasTriangle) : RankOperand where
  order := matrix.order
  memorySpace := matrix.memorySpace
  reachableStorage := matrix.reachableStorage
  reference := matrix.packedStoredAt triangle

def validateRankUpdate (context : ExecutionContext) (x y : DenseBlasVectorView type)
    (matrix : RankOperand) : Result Unit := do
  validateContext context
  validateHostStorage x.memorySpace
  validateHostStorage y.memorySpace
  validateHostStorage matrix.memorySpace
  failIf
    (overlap x.reachableStorage matrix.reachableStorage = true ∨
      overlap y.reachableStorage matrix.reachableStorage = true)
    { code := .invalidArgument, message := "A rank-update matrix overlaps an input vector" }

section RankUpdates

variable [Zero V] [Add V] [Mul V] [Star V] [DecidableEq V] [DenseBlasScalar V]

/-- `destination += update`; a Hermitian diagonal loses its imaginary part. -/
def addUpdate (type : Representation Cell V) (destination : Nat) (update : V) (hermitian : Bool)
    (row column : Int) : Effect (Nat → Cell) Unit := do
  let memory ← Effect.read
  Effect.store type destination (type.load memory destination + update)
  if DenseBlasScalar.complex V ∧ hermitian ∧ row = column then do
    let memory ← Effect.read
    Effect.store type destination (DenseBlasScalar.realPart (type.load memory destination))
  else
    pure ()

variable (context : ExecutionContext) (triangle : DenseBlasTriangle) (alpha : V)
  (x y : DenseBlasVectorView type)

def rankOne (matrix : RankOperand) (hermitian : Bool) : Effect (Nat → Cell) Unit := do
  Effect.ofResult (validateRankUpdate context x x matrix)
  Effect.ofResult (failIf (x.size ≠ matrix.order)
    { code := .shape, message := "A rank-update vector has the wrong length" })
  if alpha = 0 then
    pure ()
  else
    forTriangle triangle matrix.order fun row column => do
      let memory ← Effect.read
      let update := alpha * x.value memory row * maybeConjugate (x.value memory column) hermitian
      addUpdate type (matrix.reference row column) update hermitian row column

def rankTwo (matrix : RankOperand) (hermitian : Bool) : Effect (Nat → Cell) Unit := do
  Effect.ofResult (validateRankUpdate context x y matrix)
  Effect.ofResult (failIf (x.size ≠ matrix.order ∨ y.size ≠ matrix.order)
    { code := .shape, message := "A rank-two update vector has the wrong length" })
  if alpha = 0 then
    pure ()
  else
    forTriangle triangle matrix.order fun row column => do
      let memory ← Effect.read
      let update := alpha * x.value memory row * maybeConjugate (y.value memory column) hermitian
      let update := update + maybeConjugate alpha hermitian * y.value memory row *
        maybeConjugate (x.value memory column) hermitian
      addUpdate type (matrix.reference row column) update hermitian row column

/-- The check of the operations on full storage. -/
def validateSquare (kind : String) (matrix : DenseBlasMatrixView type) : Result Unit :=
  failIf (matrix.rows ≠ matrix.columns)
    { code := .shape, message := "A " ++ kind ++ " matrix must be square" }

def her (alpha : DenseBlasRealType V) (matrix : DenseBlasMatrixView type) :
    Effect (Nat → Cell) Unit := do
  Effect.ofResult (validateSquare "Hermitian" matrix)
  rankOne context triangle alpha.val x matrix.rankOperand true

def hpr (alpha : DenseBlasRealType V) (matrix : DenseBlasPackedMatrixView type) :
    Effect (Nat → Cell) Unit :=
  rankOne context triangle alpha.val x (matrix.rankOperand triangle) true

def her2 (matrix : DenseBlasMatrixView type) : Effect (Nat → Cell) Unit := do
  Effect.ofResult (validateSquare "Hermitian" matrix)
  rankTwo context triangle alpha x y matrix.rankOperand true

def hpr2 (matrix : DenseBlasPackedMatrixView type) : Effect (Nat → Cell) Unit :=
  rankTwo context triangle alpha x y (matrix.rankOperand triangle) true

def syr (matrix : DenseBlasMatrixView type) : Effect (Nat → Cell) Unit := do
  Effect.ofResult (validateSquare "symmetric" matrix)
  rankOne context triangle alpha x matrix.rankOperand false

def spr (matrix : DenseBlasPackedMatrixView type) : Effect (Nat → Cell) Unit :=
  rankOne context triangle alpha x (matrix.rankOperand triangle) false

def syr2 (matrix : DenseBlasMatrixView type) : Effect (Nat → Cell) Unit := do
  Effect.ofResult (validateSquare "symmetric" matrix)
  rankTwo context triangle alpha x y matrix.rankOperand false

def spr2 (matrix : DenseBlasPackedMatrixView type) : Effect (Nat → Cell) Unit :=
  rankTwo context triangle alpha x y (matrix.rankOperand triangle) false

end RankUpdates

end Blas
end Dense
end AscCpp
