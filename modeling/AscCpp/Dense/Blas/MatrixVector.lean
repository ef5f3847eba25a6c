import AscCpp.Dense.Blas.Level2
import AscCpp.Library.Sweep
import Mathlib.Data.Matrix.Mul

/-!
# MatrixVector — what the products compute

An output element is written once, from a row of the matrix, the input and its own old value; the
checks keep the output apart from what is read.

- `generalMv_updates`, `structuredMv_updates`: the values that an accepted call leaves behind, over
  any operators.
- `combined_rowProduct`: over exact arithmetic these are `alpha A x + beta y`.
- `rowProduct_congr`, `combined_congr`: without `alpha` neither the matrix nor the input is read, and
  without `beta` the old output is not.
-/

namespace AscCpp
namespace Dense
namespace Blas

open AscCpp.Core Library Matrix

variable {Cell V : Type} {type : Representation Cell V}

/-- The loop over the elements of a vector or the lines of a matrix. -/
theorem forM_lines {Memory : Type} {total : Int} (htotal : 0 ≤ total)
    (body : Int → Effect Memory Unit) :
    (forM (indices 0 total) body : Effect Memory Unit) =
      forM (List.finRange total.toNat) fun line => body line.val := by
  rw [← Effect.forM_indices, Int.toNat_of_nonneg htotal]

/-! ## Over any operators -/

section Weak

variable [Zero V] [Add V] [Mul V] [DecidableEq V]

/-- Without `alpha` nothing is read, and otherwise a row of the matrix and the input. -/
theorem rowProduct_congr {alpha : V} {count row : Int} {entry entry' : Int → Int → V}
    {input input' : Int → V}
    (h : alpha ≠ 0 → ∀ column, 0 ≤ column ∧ column < count →
      entry row column = entry' row column ∧ input column = input' column) :
    rowProduct alpha count entry input row = rowProduct alpha count entry' input' row := by
  unfold rowProduct
  split
  · apply List.foldl_ext
    intro product column hcolumn
    rcases h ‹_› column (mem_indices.1 hcolumn) with ⟨hentry, hinput⟩
    rw [hentry, hinput]
  · rfl

/-- Without `beta` the destination is not read. -/
theorem combined_congr {alpha product beta destination destination' : V}
    (h : beta ≠ 0 → destination = destination') :
    combined alpha product beta destination = combined alpha product beta destination' := by
  unfold combined
  by_cases hzero : beta = 0
  · rw [if_pos hzero, if_pos hzero]
  · rw [h hzero]

/-- The loop over the rows of an output that is apart from what is read. -/
theorem exec_rows_updates {output : DenseBlasVectorView type} (houtput : output.Checked)
    {count inner : Int} (hcount : output.size = count) (alpha beta : V)
    {entry : (Nat → Cell) → Int → Int → V} {input : (Nat → Cell) → Int → V} (memory : Nat → Cell)
    (hlocal : ∀ memory', (output.family houtput).Untouched memory memory' →
      ∀ row column, 0 ≤ row ∧ row < count → 0 ≤ column ∧ column < inner →
        entry memory' row column = entry memory row column ∧
          input memory' column = input memory column) :
    Effect.Updates (output.family houtput)
      (forM (indices 0 count) fun row => do
        let memory ← Effect.read
        let product := rowProduct alpha inner (entry memory) (input memory) row
        Effect.store type (output.vectorAt row)
          (combined alpha product beta (output.value memory row)))
      (fun values row =>
        combined alpha (rowProduct alpha inner (entry memory) (input memory) row.val) beta
          (values row))
      memory := by
  rw [← hcount, forM_lines houtput.size_nonneg]
  -- A round reads what no round writes, besides the old element of its own row.
  have hround : ∀ row ∈ List.finRange output.size.toNat, ∀ memory',
      (output.family houtput).Untouched memory memory' →
      Effect.Updates (output.family houtput)
        (do
          let memory ← Effect.read
          let product := rowProduct alpha inner (entry memory) (input memory) row.val
          Effect.store type (output.vectorAt row.val)
            (combined alpha product beta (output.value memory row.val)))
        (fun values => Function.update values row
          (combined alpha (rowProduct alpha inner (entry memory) (input memory) row.val) beta
            (values row))) memory' := by
    intro row _ memory' huntouched
    rcases @Effect.updates_store _ _ _ _ (output.family houtput) _ row
      (combined alpha (rowProduct alpha inner (entry memory') (input memory') row.val) beta
        (output.value memory' row.val)) memory' with ⟨last, hrun, hframe, hvalues⟩
    refine ⟨last, ?_, hframe, ?_⟩
    · rw [Effect.exec_read_bind]
      exact hrun
    · have hproduct : rowProduct alpha inner (entry memory') (input memory') row.val =
          rowProduct alpha inner (entry memory) (input memory) row.val :=
        rowProduct_congr fun _ column hcolumn =>
          hlocal memory' huntouched row.val column ⟨by omega, by omega⟩ hcolumn
      rw [hvalues, hproduct]
      rfl
  rcases Effect.exec_forM_family memory hround with ⟨last, hrun, hframe, hvalues⟩
  refine ⟨last, hrun, hframe, hvalues.trans ?_⟩
  funext row
  exact @sweep_apply_of_local _ _ _ (fun row values => combined alpha _ beta (values row)) _
    (List.nodup_finRange _) (fun item values values' h => by rw [h]) _ row (List.mem_finRange row)

end Weak

/-! ## Accepted calls -/

/-- The access reads the reachable storage only. -/
def GeneralOperand.Local (operand : GeneralOperand Cell V) : Prop :=
  ∀ memory memory', AgreeOn operand.reachableStorage.block memory memory' →
    ∀ row column, 0 ≤ row ∧ row < operand.rows → 0 ≤ column ∧ column < operand.columns →
      operand.access memory row column = operand.access memory' row column

/-- Views from `Create` that the call accepts. -/
structure GeneralMvAccepts (context : ExecutionContext) (transposition : DenseBlasTranspose)
    (matrix : GeneralOperand Cell V) (input output : DenseBlasVectorView type) : Prop where
  input_checked : input.Checked
  output_checked : output.Checked
  valid : validateGeneralMv context transposition matrix input output = .ok ()

structure StructuredMvAccepts (context : ExecutionContext) (matrix : SquareOperand Cell V)
    (input output : DenseBlasVectorView type) : Prop where
  input_checked : input.Checked
  output_checked : output.Checked
  valid : validateStructuredMv context matrix input output = .ok ()

variable {context : ExecutionContext} {transposition : DenseBlasTranspose}
  {input output : DenseBlasVectorView type}

theorem GeneralMvAccepts.sizes {matrix : GeneralOperand Cell V}
    (h : GeneralMvAccepts context transposition matrix input output) :
    input.size = inputSize transposition matrix.rows matrix.columns ∧
      output.size = outputSize transposition matrix.rows matrix.columns := by
  have hvalid := h.valid
  simp only [validateGeneralMv, Result.unit_bind_eq_ok_iff, Result.failIf_eq_ok_iff, not_or,
    not_not] at hvalid
  exact hvalid.2.2.2.2.1

theorem StructuredMvAccepts.sizes {matrix : SquareOperand Cell V}
    (h : StructuredMvAccepts context matrix input output) :
    input.size = matrix.order ∧ output.size = matrix.order := by
  have hvalid := h.valid
  simp only [validateStructuredMv, Result.unit_bind_eq_ok_iff, Result.failIf_eq_ok_iff, not_or,
    not_not] at hvalid
  exact hvalid.2.2.2.2.1

/-- An access with a transposition goes to the operand where the transposition sends the pair. -/
theorem GeneralOperand.Local.operationAt_congr [Star V] [DenseBlasScalar V]
    {matrix : GeneralOperand Cell V} (hlocal : matrix.Local) {memory memory' : Nat → Cell}
    (hagree : AgreeOn matrix.reachableStorage.block memory memory') {row column : Int}
    (hrow : 0 ≤ row ∧ row < outputSize transposition matrix.rows matrix.columns)
    (hcolumn : 0 ≤ column ∧ column < inputSize transposition matrix.rows matrix.columns) :
    operationAt (matrix.access memory) transposition row column =
      operationAt (matrix.access memory') transposition row column := by
  unfold operationAt
  congr 1
  unfold outputSize at hrow
  unfold inputSize at hcolumn
  split
  · rename_i hnone
    rw [if_pos hnone] at hrow hcolumn
    exact hlocal _ _ hagree row column hrow hcolumn
  · rename_i hsome
    rw [if_neg hsome] at hrow hcolumn
    exact hlocal _ _ hagree column row hcolumn hrow

section Weak

variable [Zero V] [Add V] [Mul V] [Star V] [DecidableEq V] [DenseBlasScalar V] {alpha beta : V}

theorem generalMv_updates {matrix : GeneralOperand Cell V} (hlocal : matrix.Local)
    (h : GeneralMvAccepts context transposition matrix input output) (memory : Nat → Cell) :
    Effect.Updates (output.family h.output_checked)
      (generalMv context transposition alpha matrix input beta output)
      (fun values row =>
        combined alpha
          (rowProduct alpha (inputSize transposition matrix.rows matrix.columns)
            (operationAt (matrix.access memory) transposition) (input.value memory) row.val) beta
          (values row))
      memory := by
  have hvalid := h.valid
  rcases h.sizes with ⟨hinput, houtput⟩
  simp only [validateGeneralMv, Result.unit_bind_eq_ok_iff, Result.failIf_eq_ok_iff, not_or,
    Bool.not_eq_true] at hvalid
  rcases hvalid with ⟨-, -, -, -, -, hmatrix, hvector⟩
  rw [generalMv, h.valid, Effect.ofResult_ok_bind]
  apply exec_rows_updates h.output_checked houtput alpha beta memory
  intro memory' huntouched row column hrow hcolumn
  have hframe := agreeOn_of_untouched (DenseBlasVectorView.family_inside h.output_checked)
    (overlap_eq_false hmatrix) huntouched
  have hframe' := agreeOn_of_untouched (DenseBlasVectorView.family_inside h.output_checked)
    (overlap_eq_false hvector) huntouched
  -- The operand and the input are apart from the output, so both are read as they were.
  constructor
  · exact (hlocal.operationAt_congr hframe hrow hcolumn).symm
  · exact (h.input_checked.value_congr hcolumn.1 (by omega) hframe').symm

omit [Star V] [DenseBlasScalar V] in
theorem structuredMv_updates {matrix : SquareOperand Cell V} (hlocal : matrix.Local)
    (h : StructuredMvAccepts context matrix input output) (memory : Nat → Cell) :
    Effect.Updates (output.family h.output_checked)
      (structuredMv context alpha matrix input beta output)
      (fun values row =>
        combined alpha
          (rowProduct alpha matrix.order (matrix.access memory) (input.value memory) row.val) beta
          (values row))
      memory := by
  have hvalid := h.valid
  rcases h.sizes with ⟨hinput, houtput⟩
  simp only [validateStructuredMv, Result.unit_bind_eq_ok_iff, Result.failIf_eq_ok_iff, not_or,
    Bool.not_eq_true] at hvalid
  rcases hvalid with ⟨-, -, -, -, -, hmatrix, hvector⟩
  rw [structuredMv, h.valid, Effect.ofResult_ok_bind]
  apply exec_rows_updates h.output_checked houtput alpha beta memory
  intro memory' huntouched row column hrow hcolumn
  have hframe := agreeOn_of_untouched (DenseBlasVectorView.family_inside h.output_checked)
    (overlap_eq_false hmatrix) huntouched
  have hframe' := agreeOn_of_untouched (DenseBlasVectorView.family_inside h.output_checked)
    (overlap_eq_false hvector) huntouched
  exact ⟨(hlocal _ _ hframe row column hrow hcolumn).symm,
    (h.input_checked.value_congr hcolumn.1 (by omega) hframe').symm⟩

end Weak

/-! ## Over exact arithmetic -/

/-- Over exact arithmetic a product with zero need not be left out. -/
theorem beta_eq [CommRing V] [DecidableEq V] (beta destination : V) :
    (if beta = 0 then 0 else beta * destination) = beta * destination := by
  split
  · rw [‹beta = 0›, zero_mul]
  · rfl

/-- A row of `alpha A x + beta y`. -/
theorem combined_rowProduct [CommRing V] [DecidableEq V] (alpha beta destination : V)
    (count : Nat) (entry : Int → Int → V) (input : Int → V) (row : Int) :
    combined alpha (rowProduct alpha count entry input row) beta destination =
      alpha * ∑ column : Fin count, entry row column.val * input column.val +
        beta * destination := by
  unfold combined rowProduct
  rw [beta_eq]
  split
  · rw [foldl_add_all]
  · rename_i hzero
    rw [not_not.1 hzero, mul_zero, zero_mul]

end Blas
end Dense
end AscCpp
