import AscCpp.Dense.Blas.Encoding
import AscCpp.Dense.Blas.TriangularRows

/-!
# TriangularVector — triangular operations on a vector, in place

A round overwrites one element, from elements that a product has not yet overwritten, or that a
substitution has solved.

- `multiplyRow_updates`, `solveRow_updates`: what a round does to the vector.
- `triangular_operation_correct`: the operation applies the matrix, or solves the system with it, and
  each undoes the other.
-/

namespace AscCpp
namespace Dense
namespace Blas

open AscCpp.Core Library Matrix

variable {Cell V : Type} {type : Representation Cell V} [Field V] {context : ExecutionContext}
  {triangle : DenseBlasTriangle} {transposition : DenseBlasTranspose} {diagonal : DenseBlasDiagonal}
  {memory : Nat → Cell}

/-- A storage and a vector from `Create` that the call accepts. -/
structure TriangularAccepts (context : ExecutionContext) (storage : SquareStorage type)
    (triangle : DenseBlasTriangle) (diagonal : DenseBlasDiagonal)
    (vector : DenseBlasVectorView type) : Prop where
  storage_checked : storage.Checked
  vector_checked : vector.Checked
  valid : validateTriangularOperation context (storage.triangular triangle diagonal) vector = .ok ()

variable {storage : SquareStorage type} {vector : DenseBlasVectorView type}
  {matrix : Int → Int → V}

theorem TriangularAccepts.size (h : TriangularAccepts context storage triangle diagonal vector) :
    vector.size = storage.order := by
  have hvalid := h.valid
  simp only [validateTriangularOperation, Result.unit_bind_eq_ok_iff, Result.failIf_eq_ok_iff,
    not_not] at hvalid
  exact hvalid.2.2.2.1

/-- The storage goes on holding its matrix while only the vector changes. -/
theorem TriangularAccepts.encodes_later
    (h : TriangularAccepts context storage triangle diagonal vector)
    (hmatrix : storage.EncodesTriangular triangle diagonal memory matrix) {memory' : Nat → Cell}
    (huntouched : (vector.family h.vector_checked).Untouched memory memory') :
    storage.EncodesTriangular triangle diagonal memory' matrix := by
  have hvalid := h.valid
  simp only [validateTriangularOperation, Result.unit_bind_eq_ok_iff, Result.failIf_eq_ok_iff,
    Bool.not_eq_true] at hvalid
  exact hmatrix.congr h.storage_checked (agreeOn_of_untouched
    (DenseBlasVectorView.family_inside h.vector_checked) (overlap_eq_false hvalid.2.2.2.2)
    huntouched)

variable [StarRing V]

/-- The matrix that the operation applies to the vector. -/
abbrev operator (vector : DenseBlasVectorView type) (transposition : DenseBlasTranspose)
    (matrix : Int → Int → V) : Matrix (Fin vector.size.toNat) (Fin vector.size.toNat) V :=
  asMatrix vector.size.toNat vector.size.toNat (transposed transposition matrix)

/-- The matrix of the operation is triangular. -/
theorem TriangularAccepts.triangular_operator
    (h : TriangularAccepts context storage triangle diagonal vector)
    (hmatrix : storage.EncodesTriangular triangle diagonal memory matrix)
    (transposition : DenseBlasTranspose) :
    Triangular (effectiveUpper triangle transposition) (operator vector transposition matrix) := by
  have hsize := h.size
  apply triangular_transposed
  intro row column hoff
  apply hmatrix.outside
  · omega
  · omega
  · exact fun hkeeps => offTriangle_iff.1 hoff hkeeps.1

/-- The divisor of a round. -/
theorem operator_diagonal_ne_zero (transposition : DenseBlasTranspose)
    (hdiagonal : ∀ row : Fin vector.size.toNat, matrix row.val row.val ≠ 0)
    (row : Fin vector.size.toNat) :
    operator vector transposition matrix row row ≠ 0 :=
  transposed_self_ne_zero (hdiagonal row)

/-- On a unit diagonal nothing is divided. -/
theorem TriangularAccepts.operator_unit
    (h : TriangularAccepts context storage triangle .unit vector)
    (hmatrix : storage.EncodesTriangular triangle .unit memory matrix)
    (transposition : DenseBlasTranspose) (row : Fin vector.size.toNat) :
    operator vector transposition matrix row row = 1 := by
  have hsize := h.size
  have hone := (SquareStorage.holds_iff h.storage_checked _).1 hmatrix.holds row.val row.val
    (by omega) (by omega) (SquareStorage.keeps_diagonal h.storage_checked _)
  rw [if_pos ⟨rfl, rfl⟩] at hone
  rw [operator, asMatrix_apply]
  unfold transposed
  cases transposition <;> simp only [← hone, star_one]

/-- A unit diagonal has no zeros, and any other one is asked to have none. -/
theorem TriangularAccepts.diagonal_ne_zero
    (h : TriangularAccepts context storage triangle diagonal vector)
    (hmatrix : storage.EncodesTriangular triangle diagonal memory matrix)
    (hnonUnit : diagonal = .nonUnit → ∀ row : Fin vector.size.toNat, matrix row.val row.val ≠ 0)
    (row : Fin vector.size.toNat) : matrix row.val row.val ≠ 0 := by
  cases diagonal with
  | nonUnit => exact hnonUnit rfl row
  | unit =>
    have hone := h.operator_unit hmatrix .none row
    exact fun hzero => one_ne_zero (hone.symm.trans hzero)

/-- What a substitution leaves behind solves the system. -/
theorem operator_mulVec_solution
    (h : TriangularAccepts context storage triangle diagonal vector)
    (hmatrix : storage.EncodesTriangular triangle diagonal memory matrix)
    (hdiagonal : ∀ row : Fin vector.size.toNat, matrix row.val row.val ≠ 0)
    (transposition : DenseBlasTranspose) (values : Fin vector.size.toNat → V) :
    operator vector transposition matrix *ᵥ
      sweep (substituted (operator vector transposition matrix) 1)
        (sweepOrder (!effectiveUpper triangle transposition) _) values = values := by
  rw [mulVec_sweep_substituted (h.triangular_operator hmatrix transposition)
    (operator_diagonal_ne_zero transposition hdiagonal), one_smul]

variable [ExactScalar V]

/-- The access reads the matrix as long as only the vector changes. -/
theorem TriangularAccepts.operationAt_eq
    (h : TriangularAccepts context storage triangle diagonal vector)
    (hmatrix : storage.EncodesTriangular triangle diagonal memory matrix) {memory' : Nat → Cell}
    (huntouched : (vector.family h.vector_checked).Untouched memory memory')
    (row column : Fin vector.size.toNat) :
    operationAt ((storage.triangular triangle diagonal).access memory') transposition row.val
      column.val = operator vector transposition matrix row column := by
  have hvalid := h.valid
  have hsize := h.size
  simp only [validateTriangularOperation, Result.unit_bind_eq_ok_iff, Result.failIf_eq_ok_iff,
    Bool.not_eq_true] at hvalid
  have hagree := agreeOn_of_untouched (DenseBlasVectorView.family_inside h.vector_checked)
    (overlap_eq_false hvalid.2.2.2.2) huntouched
  have haccess : ∀ row column : Fin vector.size.toNat,
      (storage.triangular triangle diagonal).access memory' row.val column.val =
        matrix row.val column.val := by
    intro row column
    have hrow : 0 ≤ (row.val : Int) ∧ (row.val : Int) < storage.order := by omega
    have hcolumn : 0 ≤ (column.val : Int) ∧ (column.val : Int) < storage.order := by omega
    exact ((storage.triangular_local h.storage_checked triangle diagonal _ _ hagree _ _ hrow
      hcolumn).symm).trans (hmatrix.access_eq h.storage_checked hrow hcolumn)
  rw [Blas.operationAt_eq, operator, asMatrix_apply]
  unfold transposed
  cases transposition <;> simp only [haccess]

/-! ## Rounds -/

theorem multiplyRow_updates (h : TriangularAccepts context storage triangle diagonal vector)
    (hmatrix : storage.EncodesTriangular triangle diagonal memory matrix) {memory' : Nat → Cell}
    (huntouched : (vector.family h.vector_checked).Untouched memory memory')
    (row : Fin vector.size.toNat) :
    Effect.Updates (vector.family h.vector_checked)
      (multiplyRow (effectiveUpper triangle transposition) transposition
        (storage.triangular triangle diagonal) vector row.val)
      (fun values => Function.update values row
        (1 * (operator vector transposition matrix *ᵥ values) row)) memory' := by
  have horder : (storage.triangular triangle diagonal).order = (vector.size.toNat : Int) := by
    rw [Int.toNat_of_nonneg h.vector_checked.size_nonneg, h.size]
    rfl
  have hproduct := foldl_multiply (h.triangular_operator hmatrix transposition) row
    (fun column => h.operationAt_eq hmatrix huntouched row column) (vector.value memory')
  rcases @Effect.updates_store _ _ _ _ (vector.family h.vector_checked) _ row
    ((operator vector transposition matrix *ᵥ fun column => vector.value memory' column.val) row)
    memory' with ⟨last, hrun, hframe, hvalues⟩
  refine ⟨last, ?_, hframe, ?_⟩
  · rw [multiplyRow, Effect.exec_read_bind, horder, hproduct]
    exact hrun
  · simp only [one_mul]
    exact hvalues

variable [DecidableEq V]

theorem solveRow_updates (h : TriangularAccepts context storage triangle diagonal vector)
    (hmatrix : storage.EncodesTriangular triangle diagonal memory matrix)
    (hdiagonal : ∀ row : Fin vector.size.toNat, matrix row.val row.val ≠ 0)
    {memory' : Nat → Cell}
    (huntouched : (vector.family h.vector_checked).Untouched memory memory')
    (row : Fin vector.size.toNat) :
    Effect.Updates (vector.family h.vector_checked)
      (solveRow (effectiveUpper triangle transposition) transposition diagonal
        (storage.triangular triangle diagonal) vector row.val)
      (fun values => Function.update values row
        (substituted (operator vector transposition matrix) 1 row values)) memory' := by
  have horder : (storage.triangular triangle diagonal).order = (vector.size.toNat : Int) := by
    rw [Int.toNat_of_nonneg h.vector_checked.size_nonneg, h.size]
    rfl
  have hrest := foldl_solve (h.triangular_operator hmatrix transposition) row
    (fun column => h.operationAt_eq hmatrix huntouched row column) (vector.value memory')
    (vector.value memory' row.val)
  have hpivot : operationAt ((storage.triangular triangle diagonal).access memory') transposition
      row.val row.val = operator vector transposition matrix row row :=
    h.operationAt_eq hmatrix huntouched row row
  have hne := operator_diagonal_ne_zero transposition hdiagonal row
  rcases @Effect.updates_store _ _ _ _ (vector.family h.vector_checked) _ row
    (substituted (operator vector transposition matrix) 1 row
      ((vector.family h.vector_checked).values memory')) memory' with ⟨last, hrun, hframe, hvalues⟩
  refine ⟨last, ?_, hframe, hvalues⟩
  rw [← hrun, solveRow, Effect.exec_read_bind, horder, hrest]
  unfold substituted
  rw [one_mul]
  -- The unit diagonal is not read, and one divides without a change.
  cases diagonal with
  | nonUnit =>
    simp only [divide, hpivot, if_neg hne, Effect.check_some_bind]
    rfl
  | unit =>
    rw [h.operator_unit hmatrix transposition row, div_one]
    rfl

/-! ## Operations -/

theorem multiply_updates (h : TriangularAccepts context storage triangle diagonal vector)
    (hmatrix : storage.EncodesTriangular triangle diagonal memory matrix)
    (transposition : DenseBlasTranspose) :
    Effect.Updates (vector.family h.vector_checked)
      (triangularOperation context triangle transposition diagonal
        (storage.triangular triangle diagonal) vector false)
      (fun values => operator vector transposition matrix *ᵥ values) memory := by
  have horder : (storage.triangular triangle diagonal).order = (vector.size.toNat : Int) := by
    rw [Int.toNat_of_nonneg h.vector_checked.size_nonneg, h.size]
    rfl
  rw [triangularOperation, h.valid, Effect.ofResult_ok_bind, if_pos rfl]
  have hupdates := updates_multiply (h.triangular_operator hmatrix transposition) horder 1 memory
    fun row memory' huntouched => multiplyRow_updates h hmatrix huntouched row
  simpa only [one_smul] using hupdates

theorem solve_updates (h : TriangularAccepts context storage triangle diagonal vector)
    (hmatrix : storage.EncodesTriangular triangle diagonal memory matrix)
    (hdiagonal : ∀ row : Fin vector.size.toNat, matrix row.val row.val ≠ 0)
    (transposition : DenseBlasTranspose) :
    Effect.Updates (vector.family h.vector_checked)
      (triangularOperation context triangle transposition diagonal
        (storage.triangular triangle diagonal) vector true)
      (fun values => sweep (substituted (operator vector transposition matrix) 1)
        (sweepOrder (!effectiveUpper triangle transposition) _) values) memory := by
  have horder : (storage.triangular triangle diagonal).order = (vector.size.toNat : Int) := by
    rw [Int.toNat_of_nonneg h.vector_checked.size_nonneg, h.size]
    rfl
  rw [triangularOperation, h.valid, Effect.ofResult_ok_bind, if_neg Bool.true_eq_false.mp]
  exact updates_solve horder 1 memory fun row memory' huntouched =>
    solveRow_updates h hmatrix hdiagonal huntouched row

/-- In place, a triangular operation turns a vector `x` into `op(T) x`; without a zero on the diagonal
it turns `b` into the one `y` with `op(T) y = b`, and each of the two undoes the other.  No cell beside
the elements of the vector changes. -/
theorem triangular_operation_correct
    (h : TriangularAccepts context storage triangle diagonal vector)
    (hmatrix : storage.EncodesTriangular triangle diagonal memory matrix)
    (transposition : DenseBlasTranspose) :
    Effect.Updates (vector.family h.vector_checked)
      (triangularOperation context triangle transposition diagonal
        (storage.triangular triangle diagonal) vector false)
      (fun values => operator vector transposition matrix *ᵥ values) memory ∧
    ((diagonal = .nonUnit → ∀ row : Fin vector.size.toNat, matrix row.val row.val ≠ 0) →
      (∃ memory', Effect.exec
          (triangularOperation context triangle transposition diagonal
            (storage.triangular triangle diagonal) vector true) memory = some (.ok (), memory') ∧
        (vector.family h.vector_checked).Untouched memory memory' ∧
        ∀ solution : Fin vector.size.toNat → V,
          operator vector transposition matrix *ᵥ solution =
              (vector.family h.vector_checked).values memory ↔
            solution = (vector.family h.vector_checked).values memory') ∧
      Effect.Updates (vector.family h.vector_checked)
        (do
          triangularOperation context triangle transposition diagonal
            (storage.triangular triangle diagonal) vector false
          triangularOperation context triangle transposition diagonal
            (storage.triangular triangle diagonal) vector true)
        (fun values => values) memory ∧
      Effect.Updates (vector.family h.vector_checked)
        (do
          triangularOperation context triangle transposition diagonal
            (storage.triangular triangle diagonal) vector true
          triangularOperation context triangle transposition diagonal
            (storage.triangular triangle diagonal) vector false)
        (fun values => values) memory) := by
  refine ⟨multiply_updates h hmatrix transposition, fun hnonUnit => ?_⟩
  have hdiagonal := h.diagonal_ne_zero hmatrix hnonUnit
  have hinjective := (h.triangular_operator hmatrix transposition).mulVec_injective
    (operator_diagonal_ne_zero transposition hdiagonal)
  have hsolves := operator_mulVec_solution h hmatrix hdiagonal transposition
  -- All three follow from the equation of the substitution, since the product is injective.
  refine ⟨?_, ?_, ?_⟩
  · rcases solve_updates h hmatrix hdiagonal transposition with ⟨last, hrun, hframe, hvalues⟩
    refine ⟨last, hrun, hframe, fun solution => ⟨fun hsolution => ?_, ?_⟩⟩
    · apply hinjective
      rw [hsolution, hvalues, hsolves]
    · rintro rfl
      rw [hvalues, hsolves]
  · rcases (multiply_updates h hmatrix transposition).bind fun memory' huntouched =>
      solve_updates h (h.encodes_later hmatrix huntouched) hdiagonal transposition with
      ⟨last, hrun, hframe, hvalues⟩
    refine ⟨last, hrun, hframe, hvalues.trans ?_⟩
    apply hinjective
    rw [hsolves]
  · rcases (solve_updates h hmatrix hdiagonal transposition).bind fun memory' huntouched =>
      multiply_updates h (h.encodes_later hmatrix huntouched) transposition with
      ⟨last, hrun, hframe, hvalues⟩
    refine ⟨last, hrun, hframe, hvalues.trans ?_⟩
    exact hsolves _

/-! ### A packed triangle of threes -/

def samplePacked : DenseBlasPackedMatrixView float64 :=
  ⟨128, 2, .columnMajor, ⟨128, 24, .host⟩, ⟨128, 24⟩⟩

theorem samplePacked_encodes :
    (SquareStorage.packed samplePacked).EncodesTriangular .upper .nonUnit (fun _ => 3)
      (fun row column => if row ≤ column then 3 else 0) where
  outside _ _ _ _ hkeeps := if_neg fun hle => hkeeps ⟨hle, trivial⟩
  holds number pair hpair := by
    have htriangle := (mem_packedPairs (List.mem_of_getElem? hpair)).2.2
    have hle : (pair.1 : Int) ≤ pair.2 := by simpa [InTriangle] using htriangle
    have hstored : elementAt float64 samplePacked.data (fun _ => 3) number = 3 := rfl
    have hnonUnit : ¬((pair.1 : Int) = pair.2 ∧ DenseBlasDiagonal.nonUnit = .unit) := by simp
    show (if (pair.1 : Int) = pair.2 ∧ DenseBlasDiagonal.nonUnit = .unit then _ else _) = _
    rw [if_neg hnonUnit, if_pos hle]
    exact hstored

theorem samplePacked_accepts :
    TriangularAccepts .serial (.packed samplePacked) .upper .nonUnit sampleVector where
  storage_checked := (rfl : samplePacked.Checked)
  vector_checked := rfl
  valid := rfl

theorem triangular_operation_sample :
    Effect.Updates (sampleVector.family rfl)
      (do
        triangularOperation .serial .upper .none .nonUnit
          ((SquareStorage.packed samplePacked).triangular .upper .nonUnit) sampleVector false
        triangularOperation .serial .upper .none .nonUnit
          ((SquareStorage.packed samplePacked).triangular .upper .nonUnit) sampleVector true)
      (fun values => values) (fun _ => 3) :=
  ((triangular_operation_correct samplePacked_accepts samplePacked_encodes .none).2
    fun _ row => by simp).2.1

end Blas
end Dense
end AscCpp
