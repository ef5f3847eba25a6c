import AscCpp.Dense.Blas.Equivalence
import AscCpp.Dense.Blas.Level3
import AscCpp.Dense.Blas.TriangularRows

/-!
# TriangularMatrix — triangular operations on a matrix, in place

An operation on the left works on each column by itself, as on a vector; an operation on the right
works on each row, with the transposed operator, whose triangle is the other one.

- `multiplyLeft_updates` and its siblings: what a round does to its line.
- `triangular_matrix_correct`: the operations compute `alpha op(T) B` and `alpha B op(T)`, or solve
  `op(T) X = alpha B` and `X op(T) = alpha B`.
-/

namespace AscCpp
namespace Dense
namespace Blas

open AscCpp.Core Library Matrix

variable {Cell V : Type} {type : Representation Cell V}

/-- Two matrices from `Create` that a triangular operation accepts. -/
structure TriangularMatrixAccepts (context : ExecutionContext) (side : DenseBlasSide)
    (triangular matrix : DenseBlasMatrixView type) : Prop where
  triangular_checked : triangular.Checked
  matrix_checked : matrix.Checked
  valid : validateTriangular context side triangular matrix = .ok ()

namespace TriangularMatrixAccepts

variable {context : ExecutionContext} {side : DenseBlasSide}
  {triangular matrix : DenseBlasMatrixView type}

theorem spec (h : TriangularMatrixAccepts context side triangular matrix) :
    triangular.rows = triangular.columns ∧
      (triangular.rows = if side = .left then matrix.rows else matrix.columns) ∧
      overlap triangular.reachableStorage matrix.reachableStorage = false := by
  have hvalid := h.valid
  simp only [validateTriangular, Result.unit_bind_eq_ok_iff, Result.failIf_eq_ok_iff, not_not,
    Bool.not_eq_true] at hvalid
  exact hvalid.2.2.2.2

theorem storage_checked (h : TriangularMatrixAccepts context side triangular matrix) :
    (SquareStorage.full triangular).Checked :=
  ⟨h.triangular_checked, h.spec.1⟩

/-- The triangular matrix keeps its bytes while only the other one changes. -/
theorem agree (h : TriangularMatrixAccepts context side triangular matrix)
    {memory memory' : Nat → Cell}
    (huntouched : (matrix.family h.matrix_checked).Untouched memory memory') :
    AgreeOn triangular.reachableStorage.block memory memory' :=
  agreeOn_of_untouched (DenseBlasMatrixView.family_inside h.matrix_checked)
    (overlap_eq_false h.spec.2.2) huntouched

end TriangularMatrixAccepts

/-! ## Rounds -/

section Rounds

variable [Field V] {matrix : DenseBlasMatrixView type} {entry : OperatorAccess Cell V}
  {upper : Bool} {memory : Nat → Cell}

/-- The columns of a matrix, as lines. -/
def columnFamily (matrix : DenseBlasMatrixView type) (h : matrix.Checked) :
    ElementFamily type (Fin matrix.columns.toNat × Fin matrix.rows.toNat) :=
  (matrix.family h).reindex (Equiv.prodComm _ _) (Equiv.prodComm _ _).injective

theorem multiplyLeft_updates (h : matrix.Checked)
    {operator : Matrix (Fin matrix.rows.toNat) (Fin matrix.rows.toNat) V}
    (htriangular : Triangular upper operator)
    (hentry : ∀ row column : Fin matrix.rows.toNat,
      entry memory row.val column.val = operator row column)
    (alpha : V) (column : Fin matrix.columns.toNat) (row : Fin matrix.rows.toNat) :
    Effect.Updates ((columnFamily matrix h).line column)
      (multiplyLeft upper alpha entry matrix column.val row.val)
      (fun values => Function.update values row (alpha * (operator *ᵥ values) row)) memory := by
  have hcount : ((matrix.rows.toNat : Nat) : Int) = matrix.rows :=
    Int.toNat_of_nonneg h.extents.1
  have hproduct := foldl_multiply htriangular row (hentry row)
    fun index => matrix.value memory index column.val
  rw [hcount] at hproduct
  rcases @Effect.updates_store _ _ _ _ ((columnFamily matrix h).line column) _ row
    (alpha * (operator *ᵥ fun index => matrix.value memory index.val column.val) row) memory with
    ⟨last, hrun, hframe, hvalues⟩
  refine ⟨last, ?_, hframe, hvalues⟩
  rw [multiplyLeft, Effect.exec_read_bind, hproduct]
  exact hrun

theorem multiplyRight_updates (h : matrix.Checked)
    {operator : Matrix (Fin matrix.columns.toNat) (Fin matrix.columns.toNat) V}
    (htriangular : Triangular upper operator)
    (hentry : ∀ row column : Fin matrix.columns.toNat,
      entry memory row.val column.val = operator row column)
    (alpha : V) (row : Fin matrix.rows.toNat) (column : Fin matrix.columns.toNat) :
    Effect.Updates ((matrix.family h).line row)
      (multiplyRight upper alpha entry matrix row.val column.val)
      (fun values => Function.update values column (alpha * (operatorᵀ *ᵥ values) column))
      memory := by
  have hcount : ((matrix.columns.toNat : Nat) : Int) = matrix.columns :=
    Int.toNat_of_nonneg h.extents.2.1
  have hproduct := @foldl_multiply _ _ _ _ _ htriangular.transpose column
    (fun index => entry memory index column.val) (fun index => hentry index column)
    fun index => matrix.value memory row.val index
  rw [hcount] at hproduct
  -- The loop reads the column of the operator on the side that the row of the transpose names.
  have hloop : (indices (if upper then 0 else (column.val : Int))
      (if upper then (column.val : Int) + 1 else matrix.columns)).foldl
        (fun product index =>
          product + matrix.value memory row.val index * entry memory index column.val) 0 =
      (operatorᵀ *ᵥ fun index => matrix.value memory row.val index.val) column := by
    rw [← hproduct]
    simp only [mul_comm (matrix.value memory _ _)]
    cases upper <;> rfl
  rcases @Effect.updates_store _ _ _ _ ((matrix.family h).line row) _ column
    (alpha * (operatorᵀ *ᵥ fun index => matrix.value memory row.val index.val) column) memory with
    ⟨last, hrun, hframe, hvalues⟩
  refine ⟨last, ?_, hframe, hvalues⟩
  rw [multiplyRight, Effect.exec_read_bind, hloop]
  exact hrun

variable [DecidableEq V] {diagonal : DenseBlasDiagonal}

/-- The division of a round, which a unit diagonal leaves out. -/
theorem divideDiagonal_bind {result pivot : V} (hpivot : pivot ≠ 0)
    (hunit : diagonal = .unit → pivot = 1) (next : V → Effect (Nat → Cell) Unit) :
    (divideDiagonal diagonal result pivot >>= next) = next (result / pivot) := by
  cases diagonal with
  | nonUnit => simp only [divideDiagonal, divide, if_neg hpivot, Effect.check_some_bind]
  | unit =>
    rw [hunit rfl, div_one]
    rfl

theorem solveLeft_updates (h : matrix.Checked)
    {operator : Matrix (Fin matrix.rows.toNat) (Fin matrix.rows.toNat) V}
    (htriangular : Triangular upper operator)
    (hentry : ∀ row column : Fin matrix.rows.toNat,
      entry memory row.val column.val = operator row column)
    (hpivots : ∀ row, operator row row ≠ 0) (hunit : diagonal = .unit → ∀ row, operator row row = 1)
    (alpha : V) (column : Fin matrix.columns.toNat) (row : Fin matrix.rows.toNat) :
    Effect.Updates ((columnFamily matrix h).line column)
      (solveLeft upper diagonal alpha entry matrix column.val row.val)
      (fun values => Function.update values row (substituted operator alpha row values))
      memory := by
  have hcount : ((matrix.rows.toNat : Nat) : Int) = matrix.rows :=
    Int.toNat_of_nonneg h.extents.1
  have hrest := foldl_solve htriangular row (hentry row)
    (fun index => matrix.value memory index column.val)
    (alpha * matrix.value memory row.val column.val)
  rw [hcount] at hrest
  rcases @Effect.updates_store _ _ _ _ ((columnFamily matrix h).line column) _ row
    (substituted operator alpha row (((columnFamily matrix h).line column).values memory))
    memory with ⟨last, hrun, hframe, hvalues⟩
  refine ⟨last, ?_, hframe, hvalues⟩
  rw [← hrun, solveLeft, Effect.exec_read_bind, hrest, hentry row row,
    divideDiagonal_bind (hpivots row) fun hdiagonal => hunit hdiagonal row]
  rfl

theorem solveRight_updates (h : matrix.Checked)
    {operator : Matrix (Fin matrix.columns.toNat) (Fin matrix.columns.toNat) V}
    (htriangular : Triangular upper operator)
    (hentry : ∀ row column : Fin matrix.columns.toNat,
      entry memory row.val column.val = operator row column)
    (hpivots : ∀ row, operator row row ≠ 0) (hunit : diagonal = .unit → ∀ row, operator row row = 1)
    (alpha : V) (row : Fin matrix.rows.toNat) (column : Fin matrix.columns.toNat) :
    Effect.Updates ((matrix.family h).line row)
      (solveRight upper diagonal alpha entry matrix row.val column.val)
      (fun values => Function.update values column (substituted operatorᵀ alpha column values))
      memory := by
  have hcount : ((matrix.columns.toNat : Nat) : Int) = matrix.columns :=
    Int.toNat_of_nonneg h.extents.2.1
  have hrest := @foldl_solve _ _ _ _ _ htriangular.transpose column
    (fun index => entry memory index column.val) (fun index => hentry index column)
    (fun index => matrix.value memory row.val index)
    (alpha * matrix.value memory row.val column.val)
  rw [hcount] at hrest
  -- The loop subtracts the terms of the other columns, as the row times the transposed operator.
  have hloop : (indices (if upper then 0 else (column.val : Int) + 1)
      (if upper then (column.val : Int) else matrix.columns)).foldl
        (fun result index =>
          result - matrix.value memory row.val index * entry memory index column.val)
        (alpha * matrix.value memory row.val column.val) =
      alpha * matrix.value memory row.val column.val -
        ∑ other ∈ Finset.univ.erase column, operatorᵀ column other *
          matrix.value memory row.val other.val := by
    rw [← hrest]
    simp only [mul_comm (matrix.value memory _ _) (entry memory _ _)]
    cases upper <;> rfl
  rcases @Effect.updates_store _ _ _ _ ((matrix.family h).line row) _ column
    (substituted operatorᵀ alpha column (((matrix.family h).line row).values memory))
    memory with ⟨last, hrun, hframe, hvalues⟩
  refine ⟨last, ?_, hframe, hvalues⟩
  rw [← hrun, solveRight, Effect.exec_read_bind, hloop, hentry column column,
    divideDiagonal_bind (hpivots column) fun hdiagonal => hunit hdiagonal column]
  rfl

end Rounds

/-! ## Operations -/

/-- The values of a matrix, as a matrix. -/
def block {rows columns : Nat} (values : Fin rows × Fin columns → V) :
    Matrix (Fin rows) (Fin columns) V :=
  .of fun row column => values (row, column)

/-- `op(T) X` on the left, `X op(T)` on the right. -/
def applied [CommRing V] [Star V] {rows columns : Nat} (side : DenseBlasSide)
    (transposition : DenseBlasTranspose) (triangular : Int → Int → V)
    (matrix : Matrix (Fin rows) (Fin columns) V) : Matrix (Fin rows) (Fin columns) V :=
  match side with
  | .left => asMatrix rows rows (transposed transposition triangular) * matrix
  | .right => matrix * asMatrix columns columns (transposed transposition triangular)

/-- An operator on the left applies to the columns. -/
theorem applied_left [CommRing V] [Star V] {rows columns : Nat}
    (transposition : DenseBlasTranspose) (triangular : Int → Int → V)
    (matrix : Matrix (Fin rows) (Fin columns) V) (row : Fin rows) (column : Fin columns) :
    applied .left transposition triangular matrix row column =
      (asMatrix rows rows (transposed transposition triangular) *ᵥ
        fun index => matrix index column) row := rfl

/-- An operator on the right applies to the rows, transposed. -/
theorem applied_right [CommRing V] [Star V] {rows columns : Nat}
    (transposition : DenseBlasTranspose) (triangular : Int → Int → V)
    (matrix : Matrix (Fin rows) (Fin columns) V) (row : Fin rows) (column : Fin columns) :
    applied .right transposition triangular matrix row column =
      ((asMatrix columns columns (transposed transposition triangular))ᵀ *ᵥ
        fun index => matrix row index) column := by
  rw [mulVec_transpose]
  rfl

/-- `FillZero` writes every element. -/
theorem fillZero_updates [Zero V] {matrix : DenseBlasMatrixView type} (h : matrix.Checked)
    (memory : Nat → Cell) :
    Effect.Updates (matrix.family h) (fillZero matrix) (fun _ _ => 0) memory := by
  have hround : ∀ row memory', (matrix.family h).Untouched memory memory' →
      Effect.Updates ((matrix.family h).line row)
        (forM (indices 0 matrix.columns) fun column =>
          Effect.store type (matrix.matrixAt row.val column) 0) (fun _ _ => 0) memory' := by
    intro row memory' _
    rw [forM_lines h.extents.2.1]
    rcases Effect.exec_forM_family memory' fun column (_ : column ∈ List.finRange _) memory'' _ =>
      @Effect.updates_store _ _ _ _ ((matrix.family h).line row) _ column 0 memory'' with
      ⟨last, hrun, hframe, hvalues⟩
    refine ⟨last, hrun, hframe, hvalues.trans ?_⟩
    funext column
    exact @sweep_apply_of_local _ _ _ (fun _ _ => 0) _ (List.nodup_finRange _)
      (fun _ _ _ _ => rfl) _ _ (List.mem_finRange column)
  rw [fillZero, forM_lines h.extents.1]
  exact Effect.exec_forM_lines memory (List.nodup_finRange _) List.mem_finRange hround

/-- An operation that works on each column by itself. -/
theorem updates_left {matrix : DenseBlasMatrixView type} {memory : Nat → Cell}
    (h : matrix.Checked) {body : Int → Int → Effect (Nat → Cell) Unit}
    {step : (Fin matrix.rows.toNat → V) → Fin matrix.rows.toNat → V} {forwards : Bool}
    (hround : ∀ column memory', (matrix.family h).Untouched memory memory' →
      Effect.Updates ((columnFamily matrix h).line column)
        (forM (indices 0 matrix.rows) fun iteration =>
          body (column : Fin matrix.columns.toNat).val
            (iterationRow forwards matrix.rows iteration)) step memory') :
    Effect.Updates (matrix.family h)
      (forM (indices 0 matrix.columns) fun column =>
        forM (indices 0 matrix.rows) fun iteration =>
          body column (iterationRow forwards matrix.rows iteration))
      (fun values item => step (fun row => values (row, item.2)) item.1) memory := by
  rw [forM_lines h.extents.2.1]
  have hlines := @Effect.exec_forM_lines _ _ _ _ _ _ (columnFamily matrix h) _ _ _ memory
    (List.nodup_finRange _) List.mem_finRange fun column memory' huntouched =>
      hround column memory' fun cell houtside =>
        huntouched cell fun item => houtside (item.2, item.1)
  exact hlines.of_reindex (Equiv.prodComm _ _)

/-- An operation that works on each row by itself. -/
theorem updates_right {matrix : DenseBlasMatrixView type} {memory : Nat → Cell}
    (h : matrix.Checked) {body : Int → Int → Effect (Nat → Cell) Unit}
    {step : (Fin matrix.columns.toNat → V) → Fin matrix.columns.toNat → V} {forwards : Bool}
    (hround : ∀ row memory', (matrix.family h).Untouched memory memory' →
      Effect.Updates ((matrix.family h).line row)
        (forM (indices 0 matrix.columns) fun iteration =>
          body (row : Fin matrix.rows.toNat).val
            (iterationRow forwards matrix.columns iteration)) step memory') :
    Effect.Updates (matrix.family h)
      (forM (indices 0 matrix.rows) fun row =>
        forM (indices 0 matrix.columns) fun iteration =>
          body row (iterationRow forwards matrix.columns iteration))
      (fun values item => step (fun column => values (item.1, column)) item.2) memory := by
  rw [forM_lines h.extents.1]
  exact Effect.exec_forM_lines memory (List.nodup_finRange _) List.mem_finRange hround

section Operations

variable [Field V] [StarRing V] {context : ExecutionContext} {side : DenseBlasSide}
  {triangle : DenseBlasTriangle} {transposition : DenseBlasTranspose}
  {diagonal : DenseBlasDiagonal} {triangular matrix : DenseBlasMatrixView type}
  {memory : Nat → Cell} {values : Int → Int → V}

/-- The operator is triangular. -/
theorem triangular_asMatrix
    (hvalues : (SquareStorage.full triangular).EncodesTriangular triangle diagonal memory values)
    (transposition : DenseBlasTranspose) {count : Nat} (hcount : (count : Int) = triangular.rows) :
    Triangular (effectiveUpper triangle transposition)
      (asMatrix count count (transposed transposition values)) := by
  apply triangular_transposed
  intro row column hoff
  have hrow : 0 ≤ (row.val : Int) ∧ (row.val : Int) < triangular.rows := by omega
  have hcolumn : 0 ≤ (column.val : Int) ∧ (column.val : Int) < triangular.rows := by omega
  exact hvalues.outside _ _ hrow hcolumn fun hkeeps => offTriangle_iff.1 hoff hkeeps.1

theorem TriangularMatrixAccepts.operator_unit
    (h : TriangularMatrixAccepts context side triangular matrix)
    (hvalues : (SquareStorage.full triangular).EncodesTriangular triangle .unit memory values)
    (transposition : DenseBlasTranspose) {count : Nat} (hcount : (count : Int) = triangular.rows)
    (row : Fin count) : asMatrix count count (transposed transposition values) row row = 1 := by
  have hrow : 0 ≤ (row.val : Int) ∧ (row.val : Int) < triangular.rows := by omega
  have hone := (SquareStorage.holds_iff h.storage_checked _).1 hvalues.holds row.val row.val hrow
    hrow (SquareStorage.keeps_diagonal h.storage_checked _)
  rw [if_pos ⟨rfl, rfl⟩] at hone
  rw [asMatrix_apply]
  unfold transposed
  cases transposition <;> simp only [← hone, star_one]

variable [ExactScalar V]

/-- The operator is read as long as only the other matrix changes. -/
theorem TriangularMatrixAccepts.entry_eq
    (h : TriangularMatrixAccepts context side triangular matrix)
    (hvalues : (SquareStorage.full triangular).EncodesTriangular triangle diagonal memory values)
    {memory' : Nat → Cell} (huntouched : (matrix.family h.matrix_checked).Untouched memory memory')
    {count : Nat} (hcount : (count : Int) = triangular.rows) (row column : Fin count) :
    triangularOperationAt triangular memory' triangle transposition diagonal row.val column.val =
      asMatrix count count (transposed transposition values) row column := by
  have hlater := hvalues.congr h.storage_checked (h.agree huntouched)
  have haccess : ∀ row column : Fin count,
      fullTriangularAt triangular memory' triangle diagonal row.val column.val =
        values row.val column.val := by
    intro row column
    have hrow : 0 ≤ (row.val : Int) ∧ (row.val : Int) < triangular.rows := by omega
    have hcolumn : 0 ≤ (column.val : Int) ∧ (column.val : Int) < triangular.rows := by omega
    exact hlater.access_eq h.storage_checked hrow hcolumn
  rw [triangularOperationAt, operationAt_eq, asMatrix_apply]
  unfold transposed
  cases transposition <;> simp only [haccess]

variable {alpha : V}

/-- The operator as the rounds of an operation read it. -/
abbrev operatorAccess (triangular : DenseBlasMatrixView type) (triangle : DenseBlasTriangle)
    (transposition : DenseBlasTranspose) (diagonal : DenseBlasDiagonal) : OperatorAccess Cell V :=
  fun memory => triangularOperationAt triangular memory triangle transposition diagonal

theorem multiply_left_updates
    (h : TriangularMatrixAccepts context .left triangular matrix)
    (hvalues : (SquareStorage.full triangular).EncodesTriangular triangle diagonal memory values) :
    Effect.Updates (matrix.family h.matrix_checked)
      (forM (indices 0 matrix.columns) fun column =>
        forM (indices 0 matrix.rows) fun iteration =>
          multiplyLeft (effectiveUpper triangle transposition) alpha
            (operatorAccess triangular triangle transposition diagonal) matrix column
            (iterationRow (effectiveUpper triangle transposition) matrix.rows iteration))
      (fun old item => alpha * applied .left transposition values (block old) item.1 item.2)
      memory := by
  have hchecked := h.matrix_checked
  have hrows : ((matrix.rows.toNat : Nat) : Int) = matrix.rows :=
    Int.toNat_of_nonneg hchecked.extents.1
  have hcount : ((matrix.rows.toNat : Nat) : Int) = triangular.rows :=
    hrows.trans h.spec.2.1.symm
  have hoperator := triangular_asMatrix hvalues transposition hcount
  exact updates_left hchecked fun column memory' huntouched =>
    updates_multiply hoperator hrows.symm alpha memory' fun row memory'' hline =>
      multiplyLeft_updates hchecked hoperator
        (h.entry_eq hvalues (huntouched.trans fun cell houtside =>
          hline cell fun place => houtside (place, column)) hcount) alpha column row

theorem multiply_right_updates
    (h : TriangularMatrixAccepts context .right triangular matrix)
    (hvalues : (SquareStorage.full triangular).EncodesTriangular triangle diagonal memory values) :
    Effect.Updates (matrix.family h.matrix_checked)
      (forM (indices 0 matrix.rows) fun row =>
        forM (indices 0 matrix.columns) fun iteration =>
          multiplyRight (effectiveUpper triangle transposition) alpha
            (operatorAccess triangular triangle transposition diagonal) matrix row
            (iterationRow (!effectiveUpper triangle transposition) matrix.columns iteration))
      (fun old item => alpha * applied .right transposition values (block old) item.1 item.2)
      memory := by
  have hchecked := h.matrix_checked
  have hcolumns : ((matrix.columns.toNat : Nat) : Int) = matrix.columns :=
    Int.toNat_of_nonneg hchecked.extents.2.1
  have hcount : ((matrix.columns.toNat : Nat) : Int) = triangular.rows :=
    hcolumns.trans h.spec.2.1.symm
  have hoperator := triangular_asMatrix hvalues transposition hcount
  have hupdates := updates_right hchecked fun row memory' huntouched =>
    updates_multiply hoperator.transpose hcolumns.symm alpha memory' fun column memory'' hline =>
      multiplyRight_updates hchecked hoperator
        (h.entry_eq hvalues (huntouched.trans fun cell houtside =>
          hline cell fun place => houtside (row, place)) hcount) alpha row column
  simp only [applied_right]
  exact hupdates

variable [DecidableEq V]

theorem triangularMultiply_updates
    (h : TriangularMatrixAccepts context side triangular matrix)
    (hvalues : (SquareStorage.full triangular).EncodesTriangular triangle diagonal memory values) :
    Effect.Updates (matrix.family h.matrix_checked)
      (triangularMultiply context side triangle transposition diagonal alpha triangular matrix)
      (fun old item => alpha * applied side transposition values (block old) item.1 item.2)
      memory := by
  rw [triangularMultiply, h.valid, Effect.ofResult_ok_bind]
  by_cases hzero : alpha = 0
  · simp only [hzero, if_true, zero_mul]
    exact fillZero_updates h.matrix_checked memory
  · simp only [if_neg hzero]
    cases side with
    | left => exact multiply_left_updates h hvalues
    | right => exact multiply_right_updates h hvalues

/-! ### Substitutions -/

/-- The values that a substitution leaves behind. -/
def solved {rows columns : Nat} (side : DenseBlasSide) (triangle : DenseBlasTriangle)
    (transposition : DenseBlasTranspose) (alpha : V) (triangular : Int → Int → V)
    (old : Fin rows × Fin columns → V) (item : Fin rows × Fin columns) : V :=
  match side with
  | .left =>
    sweep (substituted (asMatrix rows rows (transposed transposition triangular)) alpha)
      (sweepOrder (!effectiveUpper triangle transposition) rows) (fun row => old (row, item.2)) item.1
  | .right =>
    sweep (substituted (asMatrix columns columns (transposed transposition triangular))ᵀ alpha)
      (sweepOrder (!!effectiveUpper triangle transposition) columns)
      (fun column => old (item.1, column)) item.2

theorem solve_left_updates
    (h : TriangularMatrixAccepts context .left triangular matrix)
    (hvalues : (SquareStorage.full triangular).EncodesTriangular triangle diagonal memory values)
    (hpivots : ∀ row, 0 ≤ row ∧ row < triangular.rows → values row row ≠ 0) :
    Effect.Updates (matrix.family h.matrix_checked)
      (forM (indices 0 matrix.columns) fun column =>
        forM (indices 0 matrix.rows) fun iteration =>
          solveLeft (effectiveUpper triangle transposition) diagonal alpha
            (operatorAccess triangular triangle transposition diagonal) matrix column
            (iterationRow (!effectiveUpper triangle transposition) matrix.rows iteration))
      (solved .left triangle transposition alpha values) memory := by
  have hchecked := h.matrix_checked
  have hrows : ((matrix.rows.toNat : Nat) : Int) = matrix.rows :=
    Int.toNat_of_nonneg hchecked.extents.1
  have hcount : ((matrix.rows.toNat : Nat) : Int) = triangular.rows :=
    hrows.trans h.spec.2.1.symm
  have hoperator := triangular_asMatrix hvalues transposition hcount
  have hdiagonal : ∀ row : Fin matrix.rows.toNat,
      asMatrix _ _ (transposed transposition values) row row ≠ 0 := fun row =>
    transposed_self_ne_zero (hpivots row.val (by omega))
  have hunit : diagonal = .unit → ∀ row : Fin matrix.rows.toNat,
      asMatrix _ _ (transposed transposition values) row row = 1 := by
    rintro rfl row
    exact h.operator_unit hvalues transposition hcount row
  -- Column by column, and in a column row by row: neither changes the operator.
  exact updates_left hchecked fun column memory' huntouched =>
    updates_solve hrows.symm alpha memory' fun row memory'' hline =>
      solveLeft_updates hchecked hoperator
        (h.entry_eq hvalues (huntouched.trans fun cell houtside =>
          hline cell fun place => houtside (place, column)) hcount) hdiagonal hunit alpha column row

theorem solve_right_updates
    (h : TriangularMatrixAccepts context .right triangular matrix)
    (hvalues : (SquareStorage.full triangular).EncodesTriangular triangle diagonal memory values)
    (hpivots : ∀ row, 0 ≤ row ∧ row < triangular.rows → values row row ≠ 0) :
    Effect.Updates (matrix.family h.matrix_checked)
      (forM (indices 0 matrix.rows) fun row =>
        forM (indices 0 matrix.columns) fun iteration =>
          solveRight (effectiveUpper triangle transposition) diagonal alpha
            (operatorAccess triangular triangle transposition diagonal) matrix row
            (iterationRow (!!effectiveUpper triangle transposition) matrix.columns iteration))
      (solved .right triangle transposition alpha values) memory := by
  have hchecked := h.matrix_checked
  have hcolumns : ((matrix.columns.toNat : Nat) : Int) = matrix.columns :=
    Int.toNat_of_nonneg hchecked.extents.2.1
  have hcount : ((matrix.columns.toNat : Nat) : Int) = triangular.rows :=
    hcolumns.trans h.spec.2.1.symm
  have hoperator := triangular_asMatrix hvalues transposition hcount
  have hdiagonal : ∀ row : Fin matrix.columns.toNat,
      asMatrix _ _ (transposed transposition values) row row ≠ 0 := fun row =>
    transposed_self_ne_zero (hpivots row.val (by omega))
  have hunit : diagonal = .unit → ∀ row : Fin matrix.columns.toNat,
      asMatrix _ _ (transposed transposition values) row row = 1 := by
    rintro rfl row
    exact h.operator_unit hvalues transposition hcount row
  -- Row by row, and in a row column by column: neither changes the operator.
  exact updates_right hchecked fun row memory' huntouched =>
    updates_solve hcolumns.symm alpha memory' fun column memory'' hline =>
      solveRight_updates hchecked hoperator
        (h.entry_eq hvalues (huntouched.trans fun cell houtside =>
          hline cell fun place => houtside (row, place)) hcount) hdiagonal hunit alpha row column

theorem triangularSolve_updates
    (h : TriangularMatrixAccepts context side triangular matrix)
    (hvalues : (SquareStorage.full triangular).EncodesTriangular triangle diagonal memory values)
    (hpivots : ∀ row, 0 ≤ row ∧ row < triangular.rows → values row row ≠ 0) (halpha : alpha ≠ 0) :
    Effect.Updates (matrix.family h.matrix_checked)
      (triangularSolve context side triangle transposition diagonal alpha triangular matrix)
      (solved side triangle transposition alpha values) memory := by
  rw [triangularSolve, h.valid, Effect.ofResult_ok_bind]
  simp only [if_neg halpha]
  cases side with
  | left => exact solve_left_updates h hvalues hpivots
  | right =>
    have hupdates := @solve_right_updates _ _ _ _ _ _ triangle transposition _ _ _ _ _ _ alpha _ h
      hvalues hpivots
    simpa only [Bool.not_not] using hupdates

theorem triangularSolve_updates_zero
    (h : TriangularMatrixAccepts context side triangular matrix) :
    Effect.Updates (matrix.family h.matrix_checked)
      (triangularSolve context side triangle transposition diagonal 0 triangular matrix)
      (fun _ _ => 0) memory := by
  rw [triangularSolve, h.valid, Effect.ofResult_ok_bind]
  simp only [if_true]
  exact fillZero_updates h.matrix_checked memory

omit [ExactScalar V] [DecidableEq V] in
/-- Without a zero on the diagonal, `op(T) X = alpha B` and `X op(T) = alpha B` have one solution,
which a substitution finds. -/
theorem applied_eq_iff (h : TriangularMatrixAccepts context side triangular matrix)
    (hvalues : (SquareStorage.full triangular).EncodesTriangular triangle diagonal memory values)
    (hpivots : ∀ row, 0 ≤ row ∧ row < triangular.rows → values row row ≠ 0)
    (old : Fin matrix.rows.toNat × Fin matrix.columns.toNat → V)
    (solution : Matrix (Fin matrix.rows.toNat) (Fin matrix.columns.toNat) V) :
    applied side transposition values solution = alpha • block old ↔
      solution = block (solved side triangle transposition alpha values old) := by
  have hchecked := h.matrix_checked
  have hrows : ((matrix.rows.toNat : Nat) : Int) = matrix.rows :=
    Int.toNat_of_nonneg hchecked.extents.1
  have hcolumns : ((matrix.columns.toNat : Nat) : Int) = matrix.columns :=
    Int.toNat_of_nonneg hchecked.extents.2.1
  -- Each line is a triangular system of its own.
  cases side with
  | left =>
    have hcount := hrows.trans h.spec.2.1.symm
    have hoperator := triangular_asMatrix hvalues transposition hcount
    have hdiagonal : ∀ row : Fin matrix.rows.toNat,
        asMatrix _ _ (transposed transposition values) row row ≠ 0 := fun row =>
      transposed_self_ne_zero (hpivots row.val (by omega))
    have hcolumn : ∀ column, asMatrix _ _ (transposed transposition values) *ᵥ
        (fun row => block (solved .left triangle transposition alpha values old) row column) =
          alpha • fun row => old (row, column) := fun column =>
      mulVec_sweep_substituted hoperator hdiagonal alpha fun row => old (row, column)
    constructor
    · intro hsolution
      ext row column
      have hline : (fun row => solution row column) =
          fun row => block (solved .left triangle transposition alpha values old) row column := by
        apply hoperator.mulVec_injective hdiagonal
        funext row
        rw [hcolumn]
        exact congrFun (congrFun hsolution row) column
      exact congrFun hline row
    · rintro rfl
      ext row column
      rw [applied_left, hcolumn]
      rfl
  | right =>
    have hcount := hcolumns.trans h.spec.2.1.symm
    have hoperator := (triangular_asMatrix hvalues transposition hcount).transpose
    have hdiagonal : ∀ column : Fin matrix.columns.toNat,
        (asMatrix _ _ (transposed transposition values))ᵀ column column ≠ 0 := fun column =>
      transposed_self_ne_zero (hpivots column.val (by omega))
    have hrow : ∀ row, (asMatrix _ _ (transposed transposition values))ᵀ *ᵥ
        (fun column => block (solved .right triangle transposition alpha values old) row column) =
          alpha • fun column => old (row, column) := fun row =>
      mulVec_sweep_substituted hoperator hdiagonal alpha fun column => old (row, column)
    constructor
    · intro hsolution
      ext row column
      have hline : (fun column => solution row column) =
          fun column => block (solved .right triangle transposition alpha values old) row column := by
        apply hoperator.mulVec_injective hdiagonal
        funext column
        rw [hrow, ← applied_right]
        exact congrFun (congrFun hsolution row) column
      exact congrFun hline column
    · rintro rfl
      ext row column
      rw [applied_right, hrow]
      rfl

omit [StarRing V] [ExactScalar V] [DecidableEq V] in
/-- A unit diagonal has no zeros, and any other one is asked to have none. -/
theorem TriangularMatrixAccepts.pivots_ne_zero
    (h : TriangularMatrixAccepts context side triangular matrix)
    (hvalues : (SquareStorage.full triangular).EncodesTriangular triangle diagonal memory values)
    (hnonUnit : diagonal = .nonUnit → ∀ row, 0 ≤ row ∧ row < triangular.rows →
      values row row ≠ 0) (row : Int) (hrow : 0 ≤ row ∧ row < triangular.rows) :
    values row row ≠ 0 := by
  cases diagonal with
  | nonUnit => exact hnonUnit rfl row hrow
  | unit =>
    have hone := (SquareStorage.holds_iff h.storage_checked _).1 hvalues.holds row row hrow hrow
      (SquareStorage.keeps_diagonal h.storage_checked _)
    rw [if_pos ⟨rfl, rfl⟩] at hone
    rw [← hone]
    exact one_ne_zero

/-- A product undone by a substitution, and a substitution undone by a product. -/
theorem undone_updates (h : TriangularMatrixAccepts context side triangular matrix)
    (hvalues : (SquareStorage.full triangular).EncodesTriangular triangle diagonal memory values)
    (hpivots : ∀ row, 0 ≤ row ∧ row < triangular.rows → values row row ≠ 0)
    (transposition : DenseBlasTranspose) :
    Effect.Updates (matrix.family h.matrix_checked)
      (do
        trmm context side triangle transposition diagonal 1 triangular matrix
        trsm context side triangle transposition diagonal 1 triangular matrix)
      (fun old => old) memory ∧
    Effect.Updates (matrix.family h.matrix_checked)
      (do
        trsm context side triangle transposition diagonal 1 triangular matrix
        trmm context side triangle transposition diagonal 1 triangular matrix)
      (fun old => old) memory := by
  have hsolves := fun old => @applied_eq_iff _ _ _ _ _ _ _ triangle transposition _ _ _ _ _ 1 h
    hvalues hpivots old
  constructor
  -- The substitution finds the one block that the product takes to what it is given.
  · rcases (triangularMultiply_updates h hvalues).bind fun memory' huntouched =>
      triangularSolve_updates h (hvalues.congr h.storage_checked (h.agree huntouched)) hpivots
        one_ne_zero with ⟨last, hrun, hframe, hlast⟩
    refine ⟨last, hrun, hframe, hlast.trans ?_⟩
    have hproduct : applied side transposition values
        (block ((matrix.family h.matrix_checked).values memory)) =
          (1 : V) • block fun item => 1 * applied side transposition values
            (block ((matrix.family h.matrix_checked).values memory)) item.1 item.2 := by
      ext row column
      exact ((one_mul _).trans (one_mul _)).symm
    have hback := (hsolves _ _).1 hproduct
    funext item
    exact (congrFun (congrFun hback item.1) item.2).symm
  · rcases (triangularSolve_updates h hvalues hpivots one_ne_zero).bind fun memory' huntouched =>
      triangularMultiply_updates h (hvalues.congr h.storage_checked (h.agree huntouched)) with
      ⟨last, hrun, hframe, hlast⟩
    refine ⟨last, hrun, hframe, hlast.trans ?_⟩
    have hback := (hsolves ((matrix.family h.matrix_checked).values memory) _).2 rfl
    funext item
    exact (one_mul _).trans ((congrFun (congrFun hback item.1) item.2).trans (one_mul _))

/-- A product turns `B` into `alpha op(T) B`, or into `alpha B op(T)` on the right.  Without a zero on
the diagonal a substitution turns `B` into the one `X` with `op(T) X = alpha B` or `X op(T) = alpha B`,
and with `alpha` one each of the two undoes the other.  With `alpha` zero both lead to the zero
matrix.  No cell beside the elements of `B` changes. -/
theorem triangular_matrix_correct
    (h : TriangularMatrixAccepts context side triangular matrix)
    (hvalues : (SquareStorage.full triangular).EncodesTriangular triangle diagonal memory values)
    (transposition : DenseBlasTranspose) (alpha : V) :
    Effect.Updates (matrix.family h.matrix_checked)
      (trmm context side triangle transposition diagonal alpha triangular matrix)
      (fun old item => (alpha • applied side transposition values (block old)) item.1 item.2)
      memory ∧
    ((diagonal = .nonUnit → ∀ row, 0 ≤ row ∧ row < triangular.rows → values row row ≠ 0) →
      (∃ memory', Effect.exec
          (trsm context side triangle transposition diagonal alpha triangular matrix) memory =
            some (.ok (), memory') ∧
        (matrix.family h.matrix_checked).Untouched memory memory' ∧
        ∀ solution, applied side transposition values solution =
            alpha • block ((matrix.family h.matrix_checked).values memory) ↔
          solution = block ((matrix.family h.matrix_checked).values memory')) ∧
      Effect.Updates (matrix.family h.matrix_checked)
        (do
          trmm context side triangle transposition diagonal 1 triangular matrix
          trsm context side triangle transposition diagonal 1 triangular matrix)
        (fun old => old) memory ∧
      Effect.Updates (matrix.family h.matrix_checked)
        (do
          trsm context side triangle transposition diagonal 1 triangular matrix
          trmm context side triangle transposition diagonal 1 triangular matrix)
        (fun old => old) memory) ∧
    Effect.Updates (matrix.family h.matrix_checked)
      (trmm context side triangle transposition diagonal 0 triangular matrix) (fun _ _ => 0)
      memory ∧
    Effect.Updates (matrix.family h.matrix_checked)
      (trsm context side triangle transposition diagonal 0 triangular matrix) (fun _ _ => 0)
      memory := by
  refine ⟨triangularMultiply_updates h hvalues, fun hnonUnit => ?_, ?_, ?_⟩
  · have hpivots := h.pivots_ne_zero hvalues hnonUnit
    refine ⟨?_, undone_updates h hvalues hpivots transposition⟩
    by_cases halpha : alpha = 0
    · subst halpha
      rcases @triangularSolve_updates_zero _ _ _ _ _ _ _ triangle transposition diagonal _ _ memory
        _ _ h with ⟨last, hrun, hframe, hlast⟩
      refine ⟨last, hrun, hframe, fun solution => ?_⟩
      -- The zero matrix solves the system without right-hand sides, and nothing else does.
      have hzero : applied side transposition values
          (block ((matrix.family h.matrix_checked).values last)) =
            (0 : V) • block ((matrix.family h.matrix_checked).values memory) := by
        have hblock : block ((matrix.family h.matrix_checked).values last) = 0 := by
          rw [hlast]
          rfl
        rw [hblock, zero_smul]
        cases side with
        | left => exact Matrix.mul_zero _
        | right => exact Matrix.zero_mul _
      rw [(applied_eq_iff h hvalues hpivots _ _).1 hzero]
      exact applied_eq_iff h hvalues hpivots _ solution
    · rcases @triangularSolve_updates _ _ _ _ _ _ _ triangle transposition diagonal _ _ memory _ _
        alpha _ h hvalues hpivots halpha with ⟨last, hrun, hframe, hlast⟩
      refine ⟨last, hrun, hframe, fun solution => ?_⟩
      rw [applied_eq_iff h hvalues hpivots, hlast]
  · have hupdates := @triangularMultiply_updates _ _ _ _ _ _ _ triangle transposition diagonal _ _
      memory _ _ 0 _ h hvalues
    simp only [zero_mul] at hupdates
    exact hupdates
  · exact triangularSolve_updates_zero h

end Operations

/-! ### A row on the left of the triangle of threes -/

def sampleRow : DenseBlasMatrixView float64 :=
  ⟨512, 1, 2, .rowMajor, 2, ⟨512, 16, .host⟩, ⟨512, 16⟩⟩

theorem sampleRow_accepts : TriangularMatrixAccepts .serial .right sampleFull sampleRow where
  triangular_checked := rfl
  matrix_checked := rfl
  valid := rfl

theorem triangular_matrix_sample :
    Effect.Updates (sampleRow.family rfl)
      (do
        trmm .serial .right .upper .none .nonUnit 1 sampleFull sampleRow
        trsm .serial .right .upper .none .nonUnit 1 sampleFull sampleRow)
      (fun old => old) (fun _ => 3) :=
  ((triangular_matrix_correct sampleRow_accepts sampleFull_encodes .none 1).2.1
    fun _ row _ => by simp).2.1

end Blas
end Dense
end AscCpp
