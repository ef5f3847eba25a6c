import AscCpp.Dense.Blas.TriangularVector

/-!
# Equivalence — one matrix in several storages

The operations on vectors see a matrix through its storage.  What they compute depends on the matrix
that the storage encodes and on nothing else that the storage holds.

- `GeneralMvCall.updates`, `StructuredMvCall.updates`: the products are `alpha op(A) x + beta y`.
- `GeneralMvCall.sameValues`, `StructuredMvCall.sameValues`, `TriangularCall.sameValues`: two storages
  of one matrix lead to the same vector.
- `generalMv_reads`, `structuredMv_reads`: what is not read without `alpha` and without `beta`.
- `storage_equivalence`: all of this, for all operations.
-/

namespace AscCpp
namespace Dense
namespace Blas

open AscCpp.Core Library Matrix

variable {Cell V : Type} {type : Representation Cell V}

/-! ## Operations by storage -/

section Operations

variable [Zero V] [Add V] [Mul V] [Star V] [DecidableEq V] [DenseBlasScalar V]

/-- `Gemv` or `Gbmv`. -/
def GeneralStorage.mv (storage : GeneralStorage type) (context : ExecutionContext)
    (transposition : DenseBlasTranspose) (alpha : V) (input : DenseBlasVectorView type) (beta : V)
    (output : DenseBlasVectorView type) : Effect (Nat → Cell) Unit :=
  match storage with
  | .full matrix => gemv context transposition alpha input beta output matrix
  | .band matrix => gbmv context transposition alpha input beta output matrix

/-- `Hemv`, `Hbmv` or `Hpmv` for a Hermitian matrix, `Symv`, `Sbmv` or `Spmv` for a symmetric one. -/
def SquareStorage.mv (storage : SquareStorage type) (hermitian : Bool) (context : ExecutionContext)
    (triangle : DenseBlasTriangle) (alpha : V) (input : DenseBlasVectorView type) (beta : V)
    (output : DenseBlasVectorView type) : Effect (Nat → Cell) Unit :=
  match hermitian, storage with
  | true, .full matrix => hemv context triangle alpha input beta output matrix
  | true, .band matrix => hbmv context triangle alpha input beta output matrix
  | true, .packed matrix => hpmv context triangle alpha input beta output matrix
  | false, .full matrix => symv context triangle alpha input beta output matrix
  | false, .band matrix => sbmv context triangle alpha input beta output matrix
  | false, .packed matrix => spmv context triangle alpha input beta output matrix

/-- `Trmv`, `Tbmv` or `Tpmv`; with a division `Trsv`, `Tbsv` or `Tpsv`. -/
def SquareStorage.triangularVector [One V] [Sub V] [Div V] (storage : SquareStorage type) (solve : Bool)
    (context : ExecutionContext) (triangle : DenseBlasTriangle)
    (transposition : DenseBlasTranspose) (diagonal : DenseBlasDiagonal)
    (vector : DenseBlasVectorView type) : Effect (Nat → Cell) Unit :=
  match solve, storage with
  | false, .full matrix => trmv context triangle transposition diagonal matrix vector
  | false, .band matrix => tbmv context triangle transposition diagonal matrix vector
  | false, .packed matrix => tpmv context triangle transposition diagonal matrix vector
  | true, .full matrix => trsv context triangle transposition diagonal matrix vector
  | true, .band matrix => tbsv context triangle transposition diagonal matrix vector
  | true, .packed matrix => tpsv context triangle transposition diagonal matrix vector

variable {context : ExecutionContext} {transposition : DenseBlasTranspose}
  {triangle : DenseBlasTriangle} {diagonal : DenseBlasDiagonal} {alpha beta : V}
  {input output vector : DenseBlasVectorView type}

theorem GeneralStorage.mv_eq (storage : GeneralStorage type) :
    storage.mv context transposition alpha input beta output =
      generalMv context transposition alpha storage.operand input beta output := by
  cases storage <;> rfl

/-- The square check has been made. -/
theorem SquareStorage.mv_eq {storage : SquareStorage type} (h : storage.Checked)
    (hermitian : Bool) :
    storage.mv hermitian context triangle alpha input beta output =
      structuredMv context alpha (storage.structured triangle hermitian) input beta output := by
  cases storage with
  | full matrix =>
    cases hermitian with
    | true => simp only [SquareStorage.mv, hemv, failIf, if_neg (not_not.2 h.2),
        Effect.ofResult_ok_bind]
    | false => simp only [SquareStorage.mv, symv, failIf, if_neg (not_not.2 h.2),
        Effect.ofResult_ok_bind]
  | band matrix => cases hermitian <;> rfl
  | packed matrix => cases hermitian <;> rfl

theorem SquareStorage.triangularVector_eq [One V] [Sub V] [Div V] {storage : SquareStorage type}
    (h : storage.Checked) (solve : Bool) :
    storage.triangularVector solve context triangle transposition diagonal vector =
      triangularOperation context triangle transposition diagonal
        (storage.triangular triangle diagonal) vector solve := by
  cases storage with
  | full matrix =>
    cases solve <;> simp only [SquareStorage.triangularVector, trmv, trsv, fullTriangularOperation,
      failIf, if_neg (not_not.2 h.2), Effect.ofResult_ok_bind]
  | band matrix => cases solve <;> rfl
  | packed matrix => cases solve <;> rfl

end Operations

/-! ## Equal vectors -/

/-- Two vectors have the same elements, wherever these stand. -/
structure SameValues (left right : DenseBlasVectorView type) (memory memory' : Nat → Cell) :
    Prop where
  size : left.size = right.size
  value : ∀ index, 0 ≤ index ∧ index < left.size →
    left.value memory index = right.value memory' index

/-- Both operations complete, and leave the same elements behind. -/
def SameResult (effect effect' : Effect (Nat → Cell) Unit) (left right : DenseBlasVectorView type)
    (memory memory' : Nat → Cell) : Prop :=
  ∃ last last', Effect.exec effect memory = some (.ok (), last) ∧
    Effect.exec effect' memory' = some (.ok (), last') ∧ SameValues left right last last'

theorem sameResult_of_values {effect effect' : Effect (Nat → Cell) Unit}
    {left right : DenseBlasVectorView type} {hleft : left.Checked} {hright : right.Checked}
    {step : (Fin left.size.toNat → V) → Fin left.size.toNat → V}
    {step' : (Fin right.size.toNat → V) → Fin right.size.toNat → V} {memory memory' : Nat → Cell}
    (h : Effect.Updates (left.family hleft) effect step memory)
    (h' : Effect.Updates (right.family hright) effect' step' memory')
    (hsize : left.size = right.size)
    (hstep : ∀ (index : Nat) (hindex : index < left.size.toNat) (hindex' : index < right.size.toNat),
      step ((left.family hleft).values memory) ⟨index, hindex⟩ =
        step' ((right.family hright).values memory') ⟨index, hindex'⟩) :
    SameResult effect effect' left right memory memory' := by
  rcases h with ⟨last, hrun, -, hvalues⟩
  rcases h' with ⟨last', hrun', -, hvalues'⟩
  refine ⟨last, last', hrun, hrun', hsize, fun index hindex => ?_⟩
  lift index to Nat using hindex.1
  have hbound : index < left.size.toNat := by omega
  have hbound' : index < right.size.toNat := by omega
  calc
    left.value last index = _ := congrFun hvalues ⟨index, hbound⟩
    _ = _ := hstep index hbound hbound'
    _ = right.value last' index := (congrFun hvalues' ⟨index, hbound'⟩).symm

/-- A step that depends on the number of elements only. -/
theorem step_cast {count count' : Nat} (step : (count : Nat) → (Fin count → V) → Fin count → V)
    (hcount : count = count') {values : Fin count → V} {values' : Fin count' → V}
    (h : ∀ (index : Nat) (hindex : index < count) (hindex' : index < count'),
      values ⟨index, hindex⟩ = values' ⟨index, hindex'⟩) (index : Nat) (hindex : index < count)
    (hindex' : index < count') :
    step count values ⟨index, hindex⟩ = step count' values' ⟨index, hindex'⟩ := by
  subst hcount
  have hvalues : values = values' := funext fun item => h item.val item.isLt item.isLt
  rw [hvalues]

theorem sameResult_of_updates {effect effect' : Effect (Nat → Cell) Unit}
    {left right : DenseBlasVectorView type} {hleft : left.Checked} {hright : right.Checked}
    {memory memory' : Nat → Cell} (step : (count : Nat) → (Fin count → V) → Fin count → V)
    (h : Effect.Updates (left.family hleft) effect (step _) memory)
    (h' : Effect.Updates (right.family hright) effect' (step _) memory')
    (hsame : SameValues left right memory memory') :
    SameResult effect effect' left right memory memory' := by
  apply sameResult_of_values h h' hsame.size
  apply step_cast step (congrArg Int.toNat hsame.size)
  exact fun index hindex _ => hsame.value index ⟨Int.natCast_nonneg _, by omega⟩

/-! ## Products -/

section Products

variable [Zero V] [Add V] [Mul V] [Star V] [DecidableEq V] [DenseBlasScalar V]
  {context : ExecutionContext} {transposition : DenseBlasTranspose} {triangle : DenseBlasTriangle}
  {hermitian : Bool} {alpha beta : V} {input input' output output' : DenseBlasVectorView type}
  {memory memory' : Nat → Cell}

/-- What the loop over the rows leaves behind, from a matrix. -/
def LeavesProduct (effect : Effect (Nat → Cell) Unit) (alpha : V) (matrix : Int → Int → V)
    (input : DenseBlasVectorView type) (beta : V) (output : DenseBlasVectorView type)
    (houtput : output.Checked) (memory : Nat → Cell) : Prop :=
  Effect.Updates (output.family houtput) effect
    (fun values row =>
      combined alpha (rowProduct alpha input.size matrix (input.value memory) row.val) beta
        (values row)) memory

omit [Star V] [DenseBlasScalar V] in
/-- The same matrix and the same vectors lead to the same vector. -/
theorem LeavesProduct.sameResult {effect effect' : Effect (Nat → Cell) Unit}
    {matrix : Int → Int → V} {houtput : output.Checked} {houtput' : output'.Checked}
    (h : LeavesProduct effect alpha matrix input beta output houtput memory)
    (h' : LeavesProduct effect' alpha matrix input' beta output' houtput' memory')
    (hinput : SameValues input input' memory memory')
    (hsame : SameValues output output' memory memory') :
    SameResult effect effect' output output' memory memory' := by
  apply sameResult_of_values h h' hsame.size
  intro index hindex hindex'
  have hproduct : rowProduct alpha input.size matrix (input.value memory) index =
      rowProduct alpha input'.size matrix (input'.value memory') index := by
    rw [← hinput.size]
    exact rowProduct_congr fun _ column hcolumn => ⟨rfl, hinput.value column hcolumn⟩
  have hold : (output.family houtput).values memory ⟨index, hindex⟩ =
      (output'.family houtput').values memory' ⟨index, hindex'⟩ :=
    hsame.value index ⟨Int.natCast_nonneg _, by omega⟩
  show combined alpha (rowProduct alpha input.size matrix (input.value memory) index) beta _ = _
  rw [hproduct, hold]

/-! ### What is read -/

/-- Without `alpha` neither the matrix nor the input is read, and without `beta` the old output is
not: this holds for operators without any laws. -/
theorem generalMv_reads {storage : GeneralStorage type} (hstorage : storage.Checked)
    (h : GeneralMvAccepts context transposition storage.operand input output)
    (hread : alpha ≠ 0 → AgreeOn storage.operand.reachableStorage.block memory memory' ∧
      AgreeOn input.reachableStorage.block memory memory')
    (hold : beta ≠ 0 → AgreeOn output.reachableStorage.block memory memory') :
    SameResult (storage.mv context transposition alpha input beta output)
      (storage.mv context transposition alpha input beta output) output output memory memory' := by
  have hlocal := GeneralStorage.operand_local hstorage
  rw [GeneralStorage.mv_eq]
  apply sameResult_of_values (generalMv_updates hlocal h memory) (generalMv_updates hlocal h memory')
    rfl
  intro index hindex _
  have hsizes := h.sizes
  refine (combined_congr fun hbeta =>
    h.output_checked.value_congr (Int.natCast_nonneg index) (by omega) (hold hbeta)).trans ?_
  apply congrArg fun product => combined alpha product beta (output.value memory' index)
  apply rowProduct_congr
  intro halpha column hcolumn
  constructor
  · exact hlocal.operationAt_congr (hread halpha).1
      ⟨Int.natCast_nonneg index, by omega⟩ hcolumn
  · exact h.input_checked.value_congr hcolumn.1 (by omega) (hread halpha).2

omit [Star V] [DenseBlasScalar V] in
theorem structuredMv_reads {matrix : SquareOperand Cell V} (hlocal : matrix.Local)
    (h : StructuredMvAccepts context matrix input output)
    (hread : alpha ≠ 0 → AgreeOn matrix.reachableStorage.block memory memory' ∧
      AgreeOn input.reachableStorage.block memory memory')
    (hold : beta ≠ 0 → AgreeOn output.reachableStorage.block memory memory') :
    SameResult (structuredMv context alpha matrix input beta output)
      (structuredMv context alpha matrix input beta output) output output memory memory' := by
  apply sameResult_of_values (structuredMv_updates hlocal h memory)
    (structuredMv_updates hlocal h memory') rfl
  intro index hindex _
  have hsizes := h.sizes
  refine (combined_congr fun hbeta =>
    h.output_checked.value_congr (Int.natCast_nonneg index) (by omega) (hold hbeta)).trans ?_
  apply congrArg fun product => combined alpha product beta (output.value memory' index)
  apply rowProduct_congr
  intro halpha column hcolumn
  exact ⟨hlocal _ _ (hread halpha).1 index column (by omega) hcolumn,
    h.input_checked.value_congr hcolumn.1 (by omega) (hread halpha).2⟩

end Products

/-! ## Calls on an encoded matrix -/

/-- A call of `Gemv` or `Gbmv` on a storage of the matrix. -/
structure GeneralMvCall [Zero V] (context : ExecutionContext) (transposition : DenseBlasTranspose)
    (storage : GeneralStorage type) (input output : DenseBlasVectorView type)
    (memory : Nat → Cell) (matrix : Int → Int → V) : Prop where
  storage_checked : storage.Checked
  accepts : GeneralMvAccepts context transposition storage.operand input output
  encodes : storage.Encodes memory matrix

/-- A call of a symmetric or Hermitian product on a storage of the matrix. -/
structure StructuredMvCall [Zero V] [Star V] [DenseBlasScalar V] (context : ExecutionContext)
    (hermitian : Bool) (triangle : DenseBlasTriangle) (storage : SquareStorage type)
    (input output : DenseBlasVectorView type) (memory : Nat → Cell) (matrix : Int → Int → V) :
    Prop where
  storage_checked : storage.Checked
  accepts : StructuredMvAccepts context (storage.structured triangle hermitian) input output
  encodes : storage.Encodes triangle hermitian memory matrix

/-- A call of a triangular operation on a storage of the matrix. -/
structure TriangularCall [Field V] (context : ExecutionContext) (triangle : DenseBlasTriangle)
    (diagonal : DenseBlasDiagonal) (storage : SquareStorage type)
    (vector : DenseBlasVectorView type) (memory : Nat → Cell) (matrix : Int → Int → V) : Prop where
  accepts : TriangularAccepts context storage triangle diagonal vector
  encodes : storage.EncodesTriangular triangle diagonal memory matrix

section Exact

variable [Field V] [StarRing V] [ExactScalar V] [DecidableEq V] {context : ExecutionContext}
  {transposition : DenseBlasTranspose} {triangle triangle' : DenseBlasTriangle}
  {diagonal diagonal' : DenseBlasDiagonal} {hermitian hermitian' : Bool}
  {input input' output output' vector vector' : DenseBlasVectorView type}
  {memory memory' : Nat → Cell} {matrix : Int → Int → V}

omit [ExactScalar V] [StarRing V] in
/-- The loop computes `alpha A x + beta y`. -/
theorem LeavesProduct.updates {effect : Effect (Nat → Cell) Unit} {alpha beta : V}
    {houtput : output.Checked} (hinput : input.Checked)
    (h : LeavesProduct effect alpha matrix input beta output houtput memory) :
    Effect.Updates (output.family houtput) effect
      (fun values => alpha • (asMatrix output.size.toNat input.size.toNat matrix *ᵥ
        (input.family hinput).values memory) + beta • values) memory := by
  rcases h with ⟨last, hrun, hframe, hvalues⟩
  refine ⟨last, hrun, hframe, hvalues.trans ?_⟩
  funext row
  have hsum := combined_rowProduct alpha beta (output.value memory row.val) input.size.toNat matrix
    (input.value memory) row.val
  rw [Int.toNat_of_nonneg hinput.size_nonneg] at hsum
  exact hsum

theorem GeneralMvCall.leavesProduct {storage : GeneralStorage type}
    (h : GeneralMvCall context transposition storage input output memory matrix) (alpha beta : V) :
    LeavesProduct (storage.mv context transposition alpha input beta output) alpha
      (transposed transposition matrix) input beta output h.accepts.output_checked memory := by
  have hsizes := h.accepts.sizes
  rcases generalMv_updates (GeneralStorage.operand_local h.storage_checked) h.accepts memory with
    ⟨last, hrun, hframe, hvalues⟩
  refine ⟨last, ?_, hframe, hvalues.trans ?_⟩
  · rw [GeneralStorage.mv_eq]
    exact hrun
  · funext row
    have hrow : (row.val : Int) < outputSize transposition storage.operand.rows
        storage.operand.columns := by
      rw [← hsizes.2]
      omega
    rw [← hsizes.1, operationAt_eq]
    apply congrArg fun product => combined alpha product beta (output.value memory row.val)
    apply rowProduct_congr
    intro _ column hcolumn
    refine ⟨?_, rfl⟩
    unfold transposed
    rw [hsizes.1] at hcolumn
    -- A transpose argument reads the entry on the other side of the diagonal.
    cases transposition with
    | none => exact h.encodes.access_eq ⟨Int.natCast_nonneg _, hrow⟩ hcolumn
    | transpose => exact h.encodes.access_eq hcolumn ⟨Int.natCast_nonneg _, hrow⟩
    | conjugateTranspose =>
      exact congrArg star (h.encodes.access_eq hcolumn ⟨Int.natCast_nonneg _, hrow⟩)

theorem StructuredMvCall.leavesProduct {storage : SquareStorage type}
    (h : StructuredMvCall context hermitian triangle storage input output memory matrix)
    (alpha beta : V) :
    LeavesProduct (storage.mv hermitian context triangle alpha input beta output) alpha matrix
      input beta output h.accepts.output_checked memory := by
  have hsizes := h.accepts.sizes
  rcases structuredMv_updates
    (SquareStorage.structured_local h.storage_checked triangle hermitian) h.accepts memory with ⟨last, hrun, hframe, hvalues⟩
  refine ⟨last, ?_, hframe, hvalues.trans ?_⟩
  · rw [SquareStorage.mv_eq h.storage_checked]
    exact hrun
  · funext row
    rw [hsizes.1]
    apply congrArg fun product => combined alpha product beta (output.value memory row.val)
    apply rowProduct_congr
    intro _ column hcolumn
    refine ⟨?_, rfl⟩
    have hrow : (row.val : Int) < storage.order := by
      have hsize : output.size = storage.order := hsizes.2
      omega
    exact h.encodes.access_eq h.storage_checked ⟨Int.natCast_nonneg _, hrow⟩ hcolumn

/-- Two storages of one triangular matrix lead to the same vector. -/
theorem TriangularCall.sameResult {context' : ExecutionContext} {storage storage' : SquareStorage type}
    (h : TriangularCall context triangle diagonal storage vector memory matrix)
    (h' : TriangularCall context' triangle diagonal storage' vector' memory' matrix)
    (hsame : SameValues vector vector' memory memory') (transposition : DenseBlasTranspose)
    (solve : Bool)
    (hpivots : solve = true → diagonal = .nonUnit → ∀ row, 0 ≤ row ∧ row < vector.size →
      matrix row row ≠ 0) :
    SameResult (storage.triangularVector solve context triangle transposition diagonal vector)
      (storage'.triangularVector solve context' triangle transposition diagonal vector')
      vector vector' memory memory' := by
  rw [SquareStorage.triangularVector_eq h.accepts.storage_checked,
    SquareStorage.triangularVector_eq h'.accepts.storage_checked]
  -- Product and substitution are both functions of the triangle and the vector.
  cases solve with
  | false =>
    exact sameResult_of_updates
      (fun count values => asMatrix count count (transposed transposition matrix) *ᵥ values)
      (multiply_updates h.accepts h.encodes transposition)
      (multiply_updates h'.accepts h'.encodes transposition) hsame
  | true =>
    have hsize := hsame.size
    have hdiagonal := h.accepts.diagonal_ne_zero h.encodes
      fun hnonUnit row => hpivots rfl hnonUnit row.val (by omega)
    have hdiagonal' := h'.accepts.diagonal_ne_zero h'.encodes
      fun hnonUnit row => hpivots rfl hnonUnit row.val (by omega)
    exact sameResult_of_updates
      (fun count values =>
        sweep (substituted (asMatrix count count (transposed transposition matrix)) 1)
          (sweepOrder (!effectiveUpper triangle transposition) count) values)
      (solve_updates h.accepts h.encodes hdiagonal transposition)
      (solve_updates h'.accepts h'.encodes hdiagonal' transposition) hsame

/-! ## All operations -/

omit [Field V] [StarRing V] [ExactScalar V] [DecidableEq V] in
/-- Over exact arithmetic a general and a structured product are `alpha op(A) x + beta y`, whatever
storage holds `A`, and two storages of one matrix lead to the same vector in every operation.  The
elements that an encoding does not speak of are left open, and every storage encodes a matrix.
Without `alpha` neither the matrix nor the input is read, and without `beta` the old output is not. -/
theorem storage_equivalence (type : Representation Cell V) [Field V] [StarRing V] [ExactScalar V]
    [DecidableEq V] :
    (∀ {context context' : ExecutionContext} {transposition : DenseBlasTranspose}
      {storage storage' : GeneralStorage type} {input output input' output' : DenseBlasVectorView type}
      {memory memory' : Nat → Cell} {matrix : Int → Int → V} (alpha beta : V)
      (h : GeneralMvCall context transposition storage input output memory matrix),
      Effect.Updates (output.family h.accepts.output_checked)
        (storage.mv context transposition alpha input beta output)
        (fun values => alpha • (asMatrix output.size.toNat input.size.toNat
          (transposed transposition matrix) *ᵥ
            (input.family h.accepts.input_checked).values memory) + beta • values) memory ∧
      (GeneralMvCall context' transposition storage' input' output' memory' matrix →
        SameValues input input' memory memory' → SameValues output output' memory memory' →
        SameResult (storage.mv context transposition alpha input beta output)
          (storage'.mv context' transposition alpha input' beta output') output output'
          memory memory')) ∧
    (∀ {context context' : ExecutionContext} {hermitian : Bool} {triangle triangle' : DenseBlasTriangle}
      {storage storage' : SquareStorage type} {input output input' output' : DenseBlasVectorView type}
      {memory memory' : Nat → Cell} {matrix : Int → Int → V} (alpha beta : V)
      (h : StructuredMvCall context hermitian triangle storage input output memory matrix),
      Effect.Updates (output.family h.accepts.output_checked)
        (storage.mv hermitian context triangle alpha input beta output)
        (fun values => alpha • (asMatrix output.size.toNat input.size.toNat matrix *ᵥ
          (input.family h.accepts.input_checked).values memory) + beta • values) memory ∧
      (StructuredMvCall context' hermitian triangle' storage' input' output' memory' matrix →
        SameValues input input' memory memory' → SameValues output output' memory memory' →
        SameResult (storage.mv hermitian context triangle alpha input beta output)
          (storage'.mv hermitian context' triangle' alpha input' beta output') output output'
          memory memory')) ∧
    (∀ {context context' : ExecutionContext} {triangle : DenseBlasTriangle}
      {diagonal : DenseBlasDiagonal} {storage storage' : SquareStorage type}
      {vector vector' : DenseBlasVectorView type} {memory memory' : Nat → Cell}
      {matrix : Int → Int → V} (transposition : DenseBlasTranspose) (solve : Bool),
      TriangularCall context triangle diagonal storage vector memory matrix →
      TriangularCall context' triangle diagonal storage' vector' memory' matrix →
      SameValues vector vector' memory memory' →
      (solve = true → diagonal = .nonUnit → ∀ row, 0 ≤ row ∧ row < vector.size →
        matrix row row ≠ 0) →
      SameResult (storage.triangularVector solve context triangle transposition diagonal vector)
        (storage'.triangularVector solve context' triangle transposition diagonal vector')
        vector vector' memory memory') ∧
    (∀ (storage : GeneralStorage type) (memory : Nat → Cell),
      ∃ matrix : Int → Int → V, storage.Encodes memory matrix) ∧
    (∀ (storage : SquareStorage type) (triangle : DenseBlasTriangle) (hermitian : Bool)
      (diagonal : DenseBlasDiagonal) (memory : Nat → Cell), storage.Checked →
      (∃ matrix, storage.Encodes triangle hermitian memory matrix) ∧
        ∃ matrix, storage.EncodesTriangular triangle diagonal memory matrix) ∧
    (∀ {W : Type} [Zero W] [Add W] [Mul W] [Star W] [DecidableEq W] [DenseBlasScalar W]
      {type : Representation Cell W} {context : ExecutionContext}
      {transposition : DenseBlasTranspose} {storage : GeneralStorage type}
      {input output : DenseBlasVectorView type} {memory memory' : Nat → Cell} {alpha beta : W},
      storage.Checked → GeneralMvAccepts context transposition storage.operand input output →
      (alpha ≠ 0 → AgreeOn storage.operand.reachableStorage.block memory memory' ∧
        AgreeOn input.reachableStorage.block memory memory') →
      (beta ≠ 0 → AgreeOn output.reachableStorage.block memory memory') →
      SameResult (storage.mv context transposition alpha input beta output)
        (storage.mv context transposition alpha input beta output) output output memory memory') ∧
    (∀ {W : Type} [Zero W] [One W] [Add W] [Mul W] [Star W] [DecidableEq W] [DenseBlasScalar W]
      {type : Representation Cell W} {context : ExecutionContext} {hermitian : Bool}
      {triangle : DenseBlasTriangle} {storage : SquareStorage type}
      {input output : DenseBlasVectorView type} {memory memory' : Nat → Cell} {alpha beta : W},
      storage.Checked →
      StructuredMvAccepts context (storage.structured triangle hermitian) input output →
      (alpha ≠ 0 → AgreeOn storage.reachableStorage.block memory memory' ∧
        AgreeOn input.reachableStorage.block memory memory') →
      (beta ≠ 0 → AgreeOn output.reachableStorage.block memory memory') →
      SameResult (storage.mv hermitian context triangle alpha input beta output)
        (storage.mv hermitian context triangle alpha input beta output) output output
        memory memory') := by
  -- Each part is a lemma about one kind of call.
  refine ⟨?_, ?_, ?_, GeneralStorage.exists_encodes, ?_, ?_, ?_⟩
  · intro _ _ _ _ _ _ _ _ _ _ _ _ alpha beta h
    have hproduct := h.leavesProduct alpha beta
    exact ⟨hproduct.updates h.accepts.input_checked,
      fun h' => hproduct.sameResult (h'.leavesProduct alpha beta)⟩
  · intro _ _ _ _ _ _ _ _ _ _ _ _ _ _ alpha beta h
    have hproduct := h.leavesProduct alpha beta
    exact ⟨hproduct.updates h.accepts.input_checked,
      fun h' => hproduct.sameResult (h'.leavesProduct alpha beta)⟩
  · intro _ _ _ _ _ _ _ _ _ _ _ transposition solve h h' hsame
    exact h.sameResult h' hsame transposition solve
  · intro storage triangle hermitian diagonal memory hchecked
    exact ⟨SquareStorage.exists_encodes hchecked triangle hermitian memory,
      SquareStorage.exists_encodesTriangular hchecked triangle diagonal memory⟩
  · intro _ _ _ _ _ _ _ _ _ _ _ _ _ _ _ _ _ hchecked h hread hold
    exact generalMv_reads hchecked h hread hold
  · intro _ _ _ _ _ _ _ _ _ _ hermitian triangle _ _ _ _ _ _ _ hchecked h hread hold
    rw [SquareStorage.mv_eq hchecked]
    exact structuredMv_reads (SquareStorage.structured_local hchecked triangle hermitian) h hread hold

end Exact

/-! ### The triangle of threes, in full -/

/-- Rows of two elements, with a third one between them. -/
def sampleFull : DenseBlasMatrixView float64 :=
  ⟨256, 2, 2, .rowMajor, 3, ⟨256, 40, .host⟩, ⟨256, 40⟩⟩

theorem sampleFull_encodes :
    (SquareStorage.full sampleFull).EncodesTriangular .upper .nonUnit (fun _ => 3)
      (fun row column => if row ≤ column then 3 else 0) where
  outside _ _ _ _ hkeeps := if_neg fun hle => hkeeps ⟨hle, trivial⟩
  holds row column _ _ htriangle := by
    have hnonUnit : ¬(row = column ∧ DenseBlasDiagonal.nonUnit = .unit) := by simp
    have hstored : elementAt float64 sampleFull.data (fun _ => 3) (row * 3 + column) = 3 := rfl
    show (if row = column ∧ DenseBlasDiagonal.nonUnit = .unit then _ else _) = _
    rw [if_neg hnonUnit, if_pos (show row ≤ column from htriangle)]
    exact hstored

theorem sampleFull_accepts :
    TriangularAccepts .serial (.full sampleFull) .upper .nonUnit sampleVector where
  storage_checked := ⟨(rfl : sampleFull.Checked), rfl⟩
  vector_checked := rfl
  valid := rfl

theorem storage_equivalence_sample :
    SameResult
      ((SquareStorage.packed samplePacked).triangularVector true .serial .upper .none .nonUnit
        sampleVector)
      ((SquareStorage.full sampleFull).triangularVector true .serial .upper .none .nonUnit
        sampleVector) sampleVector sampleVector (fun _ => 3) (fun _ => 3) :=
  (storage_equivalence float64).2.2.1 .none true ⟨samplePacked_accepts, samplePacked_encodes⟩
    ⟨sampleFull_accepts, sampleFull_encodes⟩ ⟨rfl, fun _ _ => rfl⟩ fun _ _ row _ => by simp

end Blas
end Dense
end AscCpp
