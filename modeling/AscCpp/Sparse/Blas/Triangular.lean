import AscCpp.Sparse.Blas.Stored
import Mathlib.Algebra.Field.Defs

/-!
# Triangular — `SparseTriangularSolve` and its matrix

`SparseBlasTriangularView` with its `Create`, and the two solvers.  Both substitute in place: a row
of the right-hand side is replaced when the rows that it needs have been.  A division by zero stops
the program.

- `create_spec`: what `Create` establishes about the matrix.
-/

namespace AscCpp
namespace Sparse
namespace Blas

open AscCpp.Core Library

variable {Cell V : Type} [Field V] [StarRing V] [DecidableEq V] {type : Representation Cell V}
  {format : SparseCompressedFormat}

/-! ## Triangular views -/

structure SparseBlasTriangularView (type : Representation Cell V)
    (format : SparseCompressedFormat) where
  matrix : CompressedSparseView (Stored type) format
  triangle : SparseBlasTriangle
  diagonal : SparseBlasDiagonal

/-- The entry lies outside the declared triangle. -/
def Outside (triangle : SparseBlasTriangle) (row column : Int) : Prop :=
  match triangle with
  | .lower => column > row
  | .upper => row > column

instance (triangle : SparseBlasTriangle) (row column : Int) :
    Decidable (Outside triangle row column) :=
  match triangle with
  | .lower => inferInstanceAs (Decidable (column > row))
  | .upper => inferInstanceAs (Decidable (row > column))

namespace SparseBlasTriangularView

/-- The search of `Create` for the diagonal entry of a row: `found` and `value`. -/
def findDiagonal (matrix : CompressedSparseView (Stored type) format) (memory : Nat → Cell)
    (row : Int) : Bool × V :=
  (matrix.matrixEntries memory).foldl
    (fun state entry =>
      if entry.1.get 0 = row ∧ entry.1.get 1 = row then (true, entry.2) else state)
    (false, 0)

/-- The check of the diagonal. -/
def validateSingular (matrix : CompressedSparseView (Stored type) format) (memory : Nat → Cell)
    (diagonal : SparseBlasDiagonal) : Result Unit :=
  match diagonal with
  | .unit => .ok ()
  | .nonUnit =>
    forM (List.range matrix.rows.toNat) fun (row : Nat) =>
      failIf
        ((findDiagonal matrix memory row).1 = false ∨ (findDiagonal matrix memory row).2 = 0)
        { code := .invalidArgument, message := "A non-unit sparse triangular matrix is singular" }

def create (memory : Nat → Cell) (matrix : CompressedSparseView (Stored type) format)
    (triangle : SparseBlasTriangle) (diagonal : SparseBlasDiagonal) :
    Result (SparseBlasTriangularView type format) := do
  failIf (matrix.memorySpace ≠ .host ∨ matrix.canonicalStructureTrusted = false)
    { code := .memoryAccess
      message := "A triangular sparse descriptor requires canonical host storage" }
  failIf (matrix.rows ≠ matrix.columns)
    { code := .shape, message := "A triangular sparse matrix must be square" }
  forM (matrix.matrixEntries memory) fun entry =>
    failIf (Outside triangle (entry.1.get 0) (entry.1.get 1))
      { code := .invalidArgument
        message := "Sparse triangular storage contains an entry outside the declared triangle" }
  validateSingular matrix memory diagonal
  .ok { matrix := matrix, triangle := triangle, diagonal := diagonal }

end SparseBlasTriangularView

/-! ## Substitution -/

section Substitution

variable (transposition : SparseBlasTranspose) (alpha : V)
  (triangular : SparseBlasTriangularView type format)

/-- `lower`: the transformed matrix is a lower triangular one. -/
def solvesLower : Bool :=
  if transposition ≠ .none then triangular.triangle = .upper else triangular.triangle = .lower

/-- The columns that the substitution of a row leaves out. -/
def Skips (lower : Bool) (row column : Int) : Prop :=
  (lower = true ∧ column ≥ row) ∨ (lower = false ∧ column ≤ row)

instance (lower : Bool) (row column : Int) : Decidable (Skips lower row column) :=
  inferInstanceAs (Decidable (_ ∨ _))

/-- `value /= divisor`. -/
def divide (value divisor : V) : Effect (Nat → Cell) V :=
  Effect.check (if divisor = 0 then none else some (value / divisor))

/-- One round of the substitution, over the rows of a right-hand side at their addresses. -/
def solveRow (address : Int → Nat) (row : Int) : Effect (Nat → Cell) Unit := do
  let memory ← Effect.read
  let matrix := triangular.matrix
  let value := (List.range matrix.columns.toNat).foldl
    (fun value (column : Nat) =>
      if Skips (solvesLower transposition triangular) row column then value
      else value - opValue matrix memory transposition row column *
        type.load memory (address column))
    (alpha * type.load memory (address row))
  let value ← match triangular.diagonal with
    | .nonUnit => divide value (opValue matrix memory transposition row row)
    | .unit => pure value
  Effect.store type (address row) value

/-- `lower ? step : matrix.rows() - 1 - step`. -/
def solveOrder (step : Int) : Int :=
  if solvesLower transposition triangular then step else triangular.matrix.rows - 1 - step

/-- The loop over the rows. -/
def substitute (address : Int → Nat) : Effect (Nat → Cell) Unit :=
  forM (List.range triangular.matrix.rows.toNat) fun (step : Nat) =>
    solveRow transposition alpha triangular address (solveOrder transposition triangular step)

end Substitution

/-! ## Solvers -/

section Solvers

variable (context : ExecutionContext) (transposition : SparseBlasTranspose) (alpha : V)
  (triangular : SparseBlasTriangularView type format)

/-- The checks of `SparseTriangularSolve`. -/
def validateSolve (rightHandSide : SparseBlasVectorView type) : Result Unit := do
  validateSerial context
  validateHostVector rightHandSide
  failIf (rightHandSide.size ≠ triangular.matrix.rows)
    { code := .shape, message := "Sparse triangular solve vector extent does not match" }
  failIf (matrixOverlaps triangular.matrix rightHandSide.reachableStorage = true)
    { code := .invalidArgument
      message := "Sparse triangular right-hand side overlaps the matrix" }

def sparseTriangularSolve (rightHandSide : SparseBlasVectorView type) :
    Effect (Nat → Cell) Unit := do
  Effect.ofResult (validateSolve context triangular rightHandSide)
  if alpha = 0 then
    forM (List.range triangular.matrix.rows.toNat) fun (row : Nat) =>
      Effect.store type (rightHandSide.vectorAt row) 0
  else
    substitute transposition alpha triangular rightHandSide.vectorAt

/-- The checks of `SparseTriangularSolveMultiple`. -/
def validateSolveMultiple (rightHandSides : SparseBlasMatrixView type) : Result Unit := do
  validateSerial context
  failIf (rightHandSides.memorySpace ≠ .host)
    { code := .memoryAccess
      message := "Sparse triangular solve requires host right-hand sides" }
  failIf (rightHandSides.rows ≠ triangular.matrix.rows)
    { code := .shape, message := "Sparse triangular solve matrix extent does not match" }
  failIf (matrixOverlaps triangular.matrix rightHandSides.reachableStorage = true)
    { code := .invalidArgument
      message := "Sparse triangular right-hand sides overlap the matrix" }

def sparseTriangularSolveMultiple (rightHandSides : SparseBlasMatrixView type) :
    Effect (Nat → Cell) Unit := do
  Effect.ofResult (validateSolveMultiple context triangular rightHandSides)
  if alpha = 0 then
    forM (List.range rightHandSides.columns.toNat) fun (rhs : Nat) =>
      forM (List.range triangular.matrix.rows.toNat) fun (row : Nat) =>
        Effect.store type (rightHandSides.elementAt row rhs) 0
  else
    forM (List.range rightHandSides.columns.toNat) fun (rhs : Nat) =>
      substitute transposition alpha triangular fun row => rightHandSides.elementAt row rhs

end Solvers

/-! ## What `Create` establishes -/

/-- The value of the triangular matrix: ones on the diagonal in the unit case. -/
def triangularValue (triangular : SparseBlasTriangularView type format) (memory : Nat → Cell)
    (row column : Int) : V :=
  if triangular.diagonal = .unit ∧ row = column then 1
  else triangular.matrix.matrixValue memory row column

/-- `op` of the triangular matrix. -/
def operatorValue (triangular : SparseBlasTriangularView type format) (memory : Nat → Cell)
    (transposition : SparseBlasTranspose) (row column : Int) : V :=
  transposedValue transposition (triangularValue triangular memory) row column

/-- A square host matrix without entries outside the triangle, and with every divisor. -/
structure Triangular (triangular : SparseBlasTriangularView type format) (memory : Nat → Cell) :
    Prop where
  canonical : triangular.matrix.CanonicalArrays
  host : triangular.matrix.memorySpace = .host
  square : triangular.matrix.rows = triangular.matrix.columns
  zero_outside : ∀ row column, Outside triangular.triangle row column →
    triangular.matrix.matrixValue memory row column = 0
  diagonal_ne_zero : triangular.diagonal = .nonUnit → ∀ row : Nat,
    (row : Int) < triangular.matrix.rows → triangular.matrix.matrixValue memory row row ≠ 0

omit [StarRing V] in
/-- The search for a diagonal entry ends with the value of the matrix. -/
theorem findDiagonal_snd {matrix : CompressedSparseView (Stored type) format}
    (h : matrix.CanonicalArrays) (memory : Nat → Cell) (row : Int) :
    (SparseBlasTriangularView.findDiagonal matrix memory row).2 =
      matrix.matrixValue memory row row := by
  rw [← foldl_match_eq h memory (fun value => value) rfl]
  refine (List.foldl_hom Prod.snd fun state entry => ?_).symm
  split <;> rfl

omit [StarRing V] in
theorem create_spec {memory : Nat → Cell} {matrix : CompressedSparseView (Stored type) format}
    {triangle : SparseBlasTriangle} {diagonal : SparseBlasDiagonal}
    {triangular : SparseBlasTriangularView type format} (hmatrix : matrix.Checked)
    (h : SparseBlasTriangularView.create memory matrix triangle diagonal = .ok triangular) :
    triangular = ⟨matrix, triangle, diagonal⟩ ∧ Triangular triangular memory := by
  simp only [SparseBlasTriangularView.create, Result.unit_bind_eq_ok_iff, Result.failIf_eq_ok_iff,
    not_or, not_not, Result.forM_eq_ok_iff] at h
  rcases h with ⟨⟨hhost, -⟩, hsquare, htriangle, hdiagonal, hview⟩
  cases hview
  have hcanonical := hmatrix.canonical hhost
  refine ⟨rfl, hcanonical, hhost, hsquare, fun row column houtside => ?_, fun hnonUnit row hrow => ?_⟩
  -- Nothing is stored outside the triangle, so the value there is zero.
  · apply keyedSum_eq_zero
    intro hmem
    rcases List.mem_map.1 hmem with ⟨entry, hentry, hkey⟩
    have hinside := htriangle entry hentry
    rw [hkey] at hinside
    exact hinside houtside
  -- The loop of the source found a diagonal that is not zero in each row.
  · cases hnonUnit
    rw [SparseBlasTriangularView.validateSingular, Result.forM_eq_ok_iff] at hdiagonal
    have hbound : (row : Int) < matrix.rows := hrow
    have hfound := hdiagonal row (List.mem_range.2 (by omega))
    rw [Result.failIf_eq_ok_iff, not_or, findDiagonal_snd hcanonical] at hfound
    exact hfound.2

end Blas
end Sparse
end AscCpp
