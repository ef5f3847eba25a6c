import AscCpp.Dense.Blas.Level2

/-!
# Level3 — the matrix-matrix operations

`TriangularMultiply` and `TriangularSolve`, `SymmetricRankK` and `HermitianRankK`, and the public
operations.  The rounds of a triangular operation on the left go through the columns of the other
matrix, those of an operation on the right go through its rows.
-/

namespace AscCpp
namespace Dense
namespace Blas

open AscCpp.Core Library

variable {Cell V : Type} {type : Representation Cell V}

namespace Level3

def validateContext (context : ExecutionContext) : Result Unit :=
  validateLevelContext "Level 3" context

def validateHostStorage (space : MemorySpace) : Result Unit :=
  validateLevelHostStorage "Level 3" space

end Level3

open Level3

/-! ## Triangular operations -/

def validateTriangular (context : ExecutionContext) (side : DenseBlasSide)
    (triangular matrix : DenseBlasMatrixView type) : Result Unit := do
  validateContext context
  validateHostStorage triangular.memorySpace
  validateHostStorage matrix.memorySpace
  failIf (matrix.layout ≠ triangular.layout)
    { code := .invalidArgument
      message := "Triangular Level 3 operands must use one common layout" }
  failIf (triangular.rows ≠ triangular.columns)
    { code := .shape, message := "A triangular matrix must be square" }
  failIf (triangular.rows ≠ if side = .left then matrix.rows else matrix.columns)
    { code := .shape, message := "The triangular matrix order does not match its side" }
  failIf (overlap triangular.reachableStorage matrix.reachableStorage = true)
    { code := .invalidArgument
      message := "A triangular input cannot overlap its mutable matrix" }

section TriangularOperations

variable [Zero V] [One V] [Add V] [Sub V] [Mul V] [Div V] [Star V] [DecidableEq V]
  [DenseBlasScalar V]

/-- `TriangularOperationAt`. -/
def triangularOperationAt (matrix : DenseBlasMatrixView type) (memory : Nat → Cell)
    (triangle : DenseBlasTriangle) (transposition : DenseBlasTranspose)
    (diagonal : DenseBlasDiagonal) (row column : Int) : V :=
  operationAt (fullTriangularAt matrix memory triangle diagonal) transposition row column

omit [One V] [Add V] [Sub V] [Mul V] [Div V] [Star V] [DecidableEq V] [DenseBlasScalar V] in
def fillZero (matrix : DenseBlasMatrixView type) : Effect (Nat → Cell) Unit :=
  forM (indices 0 matrix.rows) fun row =>
    forM (indices 0 matrix.columns) fun column =>
      Effect.store type (matrix.matrixAt row column) 0

/-- The operator of an operation, as its rounds read it. -/
abbrev OperatorAccess (Cell V : Type) := (Nat → Cell) → Int → Int → V

/-- One round of a product on the left. -/
def multiplyLeft (upper : Bool) (alpha : V) (entry : OperatorAccess Cell V)
    (matrix : DenseBlasMatrixView type) (column row : Int) : Effect (Nat → Cell) Unit := do
  let memory ← Effect.read
  let product := (indices (if upper then row else 0) (if upper then matrix.rows else row + 1)).foldl
    (fun product index => product + entry memory row index * matrix.value memory index column) 0
  Effect.store type (matrix.matrixAt row column) (alpha * product)

/-- One round of a product on the right. -/
def multiplyRight (upper : Bool) (alpha : V) (entry : OperatorAccess Cell V)
    (matrix : DenseBlasMatrixView type) (row column : Int) : Effect (Nat → Cell) Unit := do
  let memory ← Effect.read
  let product :=
    (indices (if upper then 0 else column) (if upper then column + 1 else matrix.columns)).foldl
      (fun product index => product + matrix.value memory row index * entry memory index column) 0
  Effect.store type (matrix.matrixAt row column) (alpha * product)

/-- `if (diagonal == kNonUnit) result /= pivot`. -/
def divideDiagonal (diagonal : DenseBlasDiagonal) (result pivot : V) : Effect (Nat → Cell) V :=
  match diagonal with
  | .nonUnit => divide result pivot
  | .unit => pure result

/-- One round of a substitution on the left. -/
def solveLeft (upper : Bool) (diagonal : DenseBlasDiagonal) (alpha : V)
    (entry : OperatorAccess Cell V) (matrix : DenseBlasMatrixView type) (column row : Int) :
    Effect (Nat → Cell) Unit := do
  let memory ← Effect.read
  let result := (indices (if upper then row + 1 else 0) (if upper then matrix.rows else row)).foldl
    (fun result index => result - entry memory row index * matrix.value memory index column)
    (alpha * matrix.value memory row column)
  let result ← divideDiagonal diagonal result (entry memory row row)
  Effect.store type (matrix.matrixAt row column) result

/-- One round of a substitution on the right. -/
def solveRight (upper : Bool) (diagonal : DenseBlasDiagonal) (alpha : V)
    (entry : OperatorAccess Cell V) (matrix : DenseBlasMatrixView type) (row column : Int) :
    Effect (Nat → Cell) Unit := do
  let memory ← Effect.read
  let result :=
    (indices (if upper then 0 else column + 1) (if upper then column else matrix.columns)).foldl
      (fun result index => result - matrix.value memory row index * entry memory index column)
      (alpha * matrix.value memory row column)
  let result ← divideDiagonal diagonal result (entry memory column column)
  Effect.store type (matrix.matrixAt row column) result

variable (context : ExecutionContext) (side : DenseBlasSide) (triangle : DenseBlasTriangle)
  (transposition : DenseBlasTranspose) (diagonal : DenseBlasDiagonal) (alpha : V)
  (triangular matrix : DenseBlasMatrixView type)

def triangularMultiply : Effect (Nat → Cell) Unit := do
  Effect.ofResult (validateTriangular context side triangular matrix)
  let upper := effectiveUpper triangle transposition
  let entry : OperatorAccess Cell V := fun memory =>
    triangularOperationAt triangular memory triangle transposition diagonal
  if alpha = 0 then
    fillZero matrix
  else
    match side with
    | .left =>
      forM (indices 0 matrix.columns) fun column =>
        forM (indices 0 matrix.rows) fun iteration =>
          multiplyLeft upper alpha entry matrix column (iterationRow upper matrix.rows iteration)
    | .right =>
      forM (indices 0 matrix.rows) fun row =>
        forM (indices 0 matrix.columns) fun iteration =>
          multiplyRight upper alpha entry matrix row
            (iterationRow (!upper) matrix.columns iteration)

def triangularSolve : Effect (Nat → Cell) Unit := do
  Effect.ofResult (validateTriangular context side triangular matrix)
  let upper := effectiveUpper triangle transposition
  let entry : OperatorAccess Cell V := fun memory =>
    triangularOperationAt triangular memory triangle transposition diagonal
  if alpha = 0 then
    fillZero matrix
  else
    match side with
    | .left =>
      forM (indices 0 matrix.columns) fun column =>
        forM (indices 0 matrix.rows) fun iteration =>
          solveLeft upper diagonal alpha entry matrix column
            (iterationRow (!upper) matrix.rows iteration)
    | .right =>
      forM (indices 0 matrix.rows) fun row =>
        forM (indices 0 matrix.columns) fun iteration =>
          solveRight upper diagonal alpha entry matrix row
            (iterationRow upper matrix.columns iteration)

def trmm : Effect (Nat → Cell) Unit :=
  triangularMultiply context side triangle transposition diagonal alpha triangular matrix

def trsm : Effect (Nat → Cell) Unit :=
  triangularSolve context side triangle transposition diagonal alpha triangular matrix

end TriangularOperations

/-! ## Rank-k updates -/

def validateMatrices (context : ExecutionContext) (left right output : DenseBlasMatrixView type) :
    Result Unit := do
  validateContext context
  validateHostStorage left.memorySpace
  validateHostStorage right.memorySpace
  validateHostStorage output.memorySpace
  failIf (right.layout ≠ left.layout ∨ output.layout ≠ left.layout)
    { code := .invalidArgument
      message := "Level 3 matrix operands must use one common layout" }
  failIf
    (overlap left.reachableStorage output.reachableStorage = true ∨
      overlap right.reachableStorage output.reachableStorage = true)
    { code := .invalidArgument, message := "Level 3 output cannot overlap a read operand" }

def validateRankK (context : ExecutionContext) (left right output : DenseBlasMatrixView type) :
    Result Unit := do
  validateMatrices context left right output
  failIf (left.rows ≠ right.rows ∨ left.columns ≠ right.columns)
    { code := .shape, message := "Rank-k input matrices have different shapes" }
  failIf (output.rows ≠ output.columns)
    { code := .shape, message := "A rank-k output must be square" }

section RankUpdates

variable [Zero V] [Add V] [Mul V] [Star V] [DecidableEq V] [DenseBlasScalar V]

/-- The checks of `SymmetricRankK`. -/
def validateSymmetricRankK (context : ExecutionContext) (transposition : DenseBlasTranspose)
    (left right output : DenseBlasMatrixView type) : Result Unit := do
  failIf (DenseBlasScalar.complex V = true ∧ transposition = .conjugateTranspose)
    { code := .invalidArgument, message := "A symmetric rank-k transpose value is invalid" }
  validateRankK context left right output
  failIf (output.rows ≠ outputSize transposition left.rows left.columns)
    { code := .shape, message := "A symmetric rank-k output has the wrong order" }

/-- The checks of `HermitianRankK`. -/
def validateHermitianRankK (context : ExecutionContext) (transposition : DenseBlasTranspose)
    (left right output : DenseBlasMatrixView type) : Result Unit := do
  failIf (transposition ≠ .none ∧ transposition ≠ .conjugateTranspose)
    { code := .invalidArgument, message := "A Hermitian rank-k transpose value is invalid" }
  validateRankK context left right output
  failIf (output.rows ≠ outputSize transposition left.rows left.columns)
    { code := .shape, message := "A Hermitian rank-k output has the wrong order" }

/-- The product of a pair in `SymmetricRankK`. -/
def symmetricProduct (alpha : V) (inner : Int) (left right : Int → Int → V) (rankTwo : Bool)
    (row column : Int) : V :=
  if alpha ≠ 0 then
    (indices 0 inner).foldl (fun product index =>
      let product := product + left row index * right column index
      if rankTwo then product + right row index * left column index else product) 0
  else 0

/-- The product of a pair in `HermitianRankK`. -/
def hermitianProduct (alpha : V) (inner : Int) (left right : Int → Int → V) (rankTwo : Bool)
    (row column : Int) : V :=
  if alpha ≠ 0 then
    (indices 0 inner).foldl (fun product index =>
      let product := product + alpha * left row index * conjugate (right column index)
      if rankTwo then
        product + conjugate alpha * right row index * conjugate (left column index)
      else product) 0
  else 0

variable (context : ExecutionContext) (triangle : DenseBlasTriangle)
  (transposition : DenseBlasTranspose) (alpha : V) (left right : DenseBlasMatrixView type)
  (output : DenseBlasMatrixView type)

def symmetricRankK (beta : V) (rankTwo : Bool) : Effect (Nat → Cell) Unit := do
  Effect.ofResult (validateSymmetricRankK context transposition left right output)
  forTriangle triangle (outputSize transposition left.rows left.columns) fun row column => do
    let memory ← Effect.read
    let product := symmetricProduct alpha (inputSize transposition left.rows left.columns)
      (operationAt (left.value memory) transposition)
      (operationAt (right.value memory) transposition) rankTwo row column
    Effect.store type (output.matrixAt row column)
      (combined alpha product beta (output.value memory row column))

/-- The element that `HermitianRankK` stores. -/
def hermitianResult (product beta destination : V) (row column : Int) : V :=
  let previous := if row = column then DenseBlasScalar.realPart destination else destination
  let result := product + if beta = 0 then 0 else beta * previous
  if row = column then DenseBlasScalar.realPart result else result

def hermitianRankK (beta : V) (rankTwo : Bool) : Effect (Nat → Cell) Unit := do
  Effect.ofResult (validateHermitianRankK context transposition left right output)
  forTriangle triangle (outputSize transposition left.rows left.columns) fun row column => do
    let memory ← Effect.read
    let product := hermitianProduct alpha (inputSize transposition left.rows left.columns)
      (operationAt (left.value memory) transposition)
      (operationAt (right.value memory) transposition) rankTwo row column
    Effect.store type (output.matrixAt row column)
      (hermitianResult product beta (output.value memory row column) row column)

def syrk (input : DenseBlasMatrixView type) (beta : V) : Effect (Nat → Cell) Unit :=
  symmetricRankK context triangle transposition alpha input input output beta false

def herk (alpha : DenseBlasRealType V) (input : DenseBlasMatrixView type)
    (beta : DenseBlasRealType V) : Effect (Nat → Cell) Unit :=
  hermitianRankK context triangle transposition alpha.val input input output beta.val false

def syr2k (beta : V) : Effect (Nat → Cell) Unit :=
  symmetricRankK context triangle transposition alpha left right output beta true

def her2k (beta : DenseBlasRealType V) : Effect (Nat → Cell) Unit :=
  hermitianRankK context triangle transposition alpha left right output beta.val true

end RankUpdates

end Blas
end Dense
end AscCpp
