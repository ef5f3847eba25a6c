import AscCpp.Library.Sweep
import AscCpp.Sparse.Blas.Stored
import Mathlib.Algebra.BigOperators.Fin
import Mathlib.Algebra.BigOperators.Pi

/-!
# Product — `Spmv` and `Spmm` of Sparse BLAS

Both operations scatter: every stored entry adds its product with the input to one element of the
output, or to one row of it.

- `sum_scattered`: what all entries add to an element is a row of the transformed matrix times the
  input.
- `products_correct`: accepted products add `alpha * op(A) * input` to the output and touch nothing else.
-/

namespace AscCpp
namespace Sparse
namespace Blas

open AscCpp.Core Library

variable {Cell V : Type} [CommRing V] [StarRing V] [DecidableEq V] {type : Representation Cell V}
  {format : SparseCompressedFormat}

/-! ## Operations -/

/-- `transpose == kNone ? matrix.columns() : matrix.rows()`. -/
def inputExtent (matrix : CompressedSparseView (Stored type) format)
    (transposition : SparseBlasTranspose) : Int :=
  if transposition = .none then matrix.columns else matrix.rows

/-- `transpose == kNone ? matrix.rows() : matrix.columns()`. -/
def outputExtent (matrix : CompressedSparseView (Stored type) format)
    (transposition : SparseBlasTranspose) : Int :=
  if transposition = .none then matrix.rows else matrix.columns

/-- The row of the output that an entry adds to. -/
def outputIndex (transposition : SparseBlasTranspose) (row column : Int) : Int :=
  if transposition = .none then row else column

/-- The row of the input that an entry is multiplied with. -/
def inputIndex (transposition : SparseBlasTranspose) (row column : Int) : Int :=
  if transposition = .none then column else row

/-- The value of an entry as the product uses it. -/
def entryValue (transposition : SparseBlasTranspose) (value : V) : V :=
  if transposition = .none then value
  else maybeConjugate value (transposition = .conjugateTranspose)

/-- The checks of `Spmv`. -/
def validateSpmv (context : ExecutionContext) (transposition : SparseBlasTranspose)
    (matrix : CompressedSparseView (Stored type) format) (input output : SparseBlasVectorView type) :
    Result Unit := do
  validateSerial context
  validateCompressedHost matrix
  validateHostVector input
  validateHostVector output
  failIf
    (input.size ≠ inputExtent matrix transposition ∨
      output.size ≠ outputExtent matrix transposition)
    { code := .shape, message := "Sparse matrix-vector operand extents do not match" }
  failIf
    ((overlap input.reachableStorage output.reachableStorage ||
      matrixOverlaps matrix output.reachableStorage) = true)
    { code := .invalidArgument, message := "Sparse matrix-vector input and output overlap" }

def spmv (context : ExecutionContext) (transposition : SparseBlasTranspose) (alpha : V)
    (matrix : CompressedSparseView (Stored type) format) (input output : SparseBlasVectorView type) :
    Effect (Nat → Cell) Unit := do
  Effect.ofResult (validateSpmv context transposition matrix input output)
  if alpha = 0 then
    pure ()
  else
    forEachStored matrix fun row column value => do
      let memory ← Effect.read
      Effect.store type (output.vectorAt (outputIndex transposition row column))
        (output.value memory (outputIndex transposition row column) +
          alpha * entryValue transposition value *
            input.value memory (inputIndex transposition row column))

/-- The checks of `Spmm`. -/
def validateSpmm (context : ExecutionContext) (transposition : SparseBlasTranspose)
    (matrix : CompressedSparseView (Stored type) format) (input output : SparseBlasMatrixView type) :
    Result Unit := do
  validateSerial context
  validateCompressedHost matrix
  failIf (input.memorySpace ≠ .host ∨ output.memorySpace ≠ .host)
    { code := .memoryAccess
      message := "Sparse matrix-matrix CPU operands require host memory" }
  failIf
    (input.rows ≠ inputExtent matrix transposition ∨
      output.rows ≠ outputExtent matrix transposition ∨ input.columns ≠ output.columns)
    { code := .shape, message := "Sparse matrix-matrix operand extents do not match" }
  failIf
    ((overlap input.reachableStorage output.reachableStorage ||
      matrixOverlaps matrix output.reachableStorage) = true)
    { code := .invalidArgument, message := "Sparse matrix-matrix input and output overlap" }

def spmm (context : ExecutionContext) (transposition : SparseBlasTranspose) (alpha : V)
    (matrix : CompressedSparseView (Stored type) format) (input output : SparseBlasMatrixView type) :
    Effect (Nat → Cell) Unit := do
  Effect.ofResult (validateSpmm context transposition matrix input output)
  if alpha = 0 then
    pure ()
  else
    forEachStored matrix fun row column value =>
      forM (List.range input.columns.toNat) fun (rhs : Nat) => do
        let memory ← Effect.read
        Effect.store type (output.elementAt (outputIndex transposition row column) rhs)
          (output.value memory (outputIndex transposition row column) rhs +
            alpha * entryValue transposition value *
              input.value memory (inputIndex transposition row column) rhs)

/-! ## Scattering -/

omit [StarRing V] [DecidableEq V] in
/-- A loop that adds to every item of a list once. -/
theorem exec_forM_adds {ι : Type} [DecidableEq ι] {family : ElementFamily type ι} {items : List ι}
    (hnodup : items.Nodup) {body : ι → Effect (Nat → Cell) Unit} {amount : ι → V}
    (hother : ∀ item, item ∉ items → amount item = 0) {memory : Nat → Cell}
    (hround : ∀ item ∈ items, ∀ memory', family.Untouched memory memory' →
      Effect.Updates family (body item)
        (fun values => Function.update values item (values item + amount item)) memory') :
    Effect.Updates family (forM items body) (fun values => values + amount) memory := by
  rcases Effect.exec_forM_family memory hround with ⟨memory', hrun, huntouched, hvalues⟩
  refine ⟨memory', hrun, huntouched, hvalues.trans ?_⟩
  funext item
  change sweep (fun item values => values item + amount item) items _ item =
    family.values memory item + amount item
  by_cases hitem : item ∈ items
  · exact sweep_apply_of_local hnodup (fun item values values' hself => by rw [hself]) _ hitem
  · rw [sweep_apply_of_notMem hitem, hother item hitem, add_zero]

omit [DecidableEq V] in
theorem entryValue_add (transposition : SparseBlasTranspose) (value value' : V) :
    entryValue transposition (value + value') =
      entryValue transposition value + entryValue transposition value' := by
  cases transposition with
  | none => rfl
  | transpose => rfl
  | conjugateTranspose => exact star_add value value'

/-- What an entry adds to the elements of an output.  An element stands in a row, and a row of the
input has a factor for it. -/
def scattered {ι : Type} (transposition : SparseBlasTranspose) (alpha : V) (place : ι → Int)
    (factor : ι → Int → V) (row column : Int) : V →+ (ι → V) :=
  AddMonoidHom.mk'
    (fun value item =>
      if outputIndex transposition row column = place item then
        alpha * entryValue transposition value *
          factor item (inputIndex transposition row column)
      else 0)
    fun value value' => by
      funext item
      simp only [Pi.add_apply, entryValue_add]
      split
      · ring
      · rw [add_zero]

omit [StarRing V] [DecidableEq V] in
/-- A sum to which one row contributes. -/
theorem sum_row_single {rows columns : Nat} {place : Int} (hplace : 0 ≤ place ∧ place < rows)
    (term : Int → Int → V) :
    (∑ row : Fin rows, ∑ column : Fin columns,
      if (row.val : Int) = place then term row.val column.val else 0) =
      ∑ column : Fin columns, term place column.val := by
  have hcast : ((place.toNat : Nat) : Int) = place := Int.toNat_of_nonneg hplace.1
  rw [Fintype.sum_eq_single ⟨place.toNat, by omega⟩]
  · simp only [hcast, if_true]
  · intro row hrow
    apply Finset.sum_eq_zero
    intro column _
    apply if_neg
    intro heq
    exact hrow (Fin.ext (by simp only; omega))

omit [DecidableEq V] in
/-- What all entries add to an element: a row of the transformed matrix times the input. -/
theorem sum_scattered {ι : Type} {matrix : CompressedSparseView (Stored type) format}
    {memory : Nat → Cell} {transposition : SparseBlasTranspose} (alpha : V) {place : ι → Int}
    (factor : ι → Int → V) {item : ι}
    (hplace : 0 ≤ place item ∧ place item < outputExtent matrix transposition) :
    (∑ row : Fin matrix.rows.toNat, ∑ column : Fin matrix.columns.toNat,
        scattered transposition alpha place factor row.val column.val
          (matrix.matrixValue memory row.val column.val)) item =
      alpha * ∑ inner : Fin (inputExtent matrix transposition).toNat,
        transformedValue matrix memory transposition (place item) inner.val *
          factor item inner.val := by
  have hsum := @sum_row_single V _ (outputExtent matrix transposition).toNat
    (inputExtent matrix transposition).toNat (place item) ⟨hplace.1, by omega⟩
    (fun row inner => alpha * transformedValue matrix memory transposition row inner *
      factor item inner)
  simp only [Finset.sum_apply, Finset.mul_sum, ← mul_assoc]
  rw [← hsum]
  -- With a transposition the roles of row and column are exchanged, and with them the sums.
  cases transposition with
  | none => rfl
  | transpose =>
    rw [Finset.sum_comm]
    rfl
  | conjugateTranspose =>
    rw [Finset.sum_comm]
    rfl

omit [StarRing V] [DecidableEq V] in
/-- An addition to one item. -/
theorem update_eq_add {ι : Type} [DecidableEq ι] (values amount : ι → V) {item : ι}
    (hother : ∀ other, other ≠ item → amount other = 0) :
    Function.update values item (values item + amount item) = values + amount := by
  funext other
  by_cases heq : other = item
  · rw [heq, Function.update_self]
    rfl
  · rw [Function.update_of_ne heq, Pi.add_apply, hother other heq, add_zero]

/-! ## Matrix times vector -/

/-- Views from `Create` that `Spmv` accepts. -/
structure SpmvAccepts (context : ExecutionContext) (transposition : SparseBlasTranspose)
    (matrix : CompressedSparseView (Stored type) format)
    (input output : SparseBlasVectorView type) : Prop where
  matrix_checked : matrix.Checked
  input_checked : input.Checked
  output_checked : output.Checked
  valid : validateSpmv context transposition matrix input output = .ok ()

/-- `alpha * op(A) * input`, in a row. -/
def spmvProduct (transposition : SparseBlasTranspose) (alpha : V)
    (matrix : CompressedSparseView (Stored type) format) (input : SparseBlasVectorView type)
    (memory : Nat → Cell) (row : Int) : V :=
  alpha * ∑ inner : Fin (inputExtent matrix transposition).toNat,
    transformedValue matrix memory transposition row inner.val * input.value memory inner.val

omit [StarRing V] in
/-- What the checks of the matrix and the overlap checks of a product establish. -/
theorem operands_apart {matrix : CompressedSparseView (Stored type) format}
    {input output : ConstMemoryView} (hchecked : matrix.Checked) (hhost : validateCompressedHost matrix = .ok ())
    (hoverlap : ¬ (overlap input output || matrixOverlaps matrix output) = true) :
    matrix.CanonicalArrays ∧ input.block.Disjoint output.block ∧
      matrix.valueSpan.Disjoint output.block := by
  simp only [validateCompressedHost, Result.failIf_eq_ok_iff, not_or, not_not] at hhost
  simp only [Bool.not_eq_true, Bool.or_eq_false_iff] at hoverlap
  exact ⟨hchecked.canonical hhost.1, overlap_eq_false hoverlap.1,
    (matrixOverlaps_eq_false hoverlap.2).2.2⟩

section Spmv

variable {context : ExecutionContext} {transposition : SparseBlasTranspose}
  {matrix : CompressedSparseView (Stored type) format} {input output : SparseBlasVectorView type}

omit [StarRing V] in
theorem spmv_accepted (h : SpmvAccepts context transposition matrix input output) :
    (input.size = inputExtent matrix transposition ∧
      output.size = outputExtent matrix transposition) ∧
    matrix.CanonicalArrays ∧ input.reachableStorage.block.Disjoint output.reachableStorage.block ∧
      matrix.valueSpan.Disjoint output.reachableStorage.block := by
  have hvalid := h.valid
  simp only [validateSpmv, Result.unit_bind_eq_ok_iff, Result.failIf_eq_ok_iff, not_or,
    not_not] at hvalid
  rcases hvalid with ⟨-, hhost, -, -, hextents, hoverlap⟩
  exact ⟨hextents, operands_apart h.matrix_checked hhost hoverlap⟩

/-- What an entry adds to a vector. -/
def vectorAmount (transposition : SparseBlasTranspose) (alpha : V)
    (input output : SparseBlasVectorView type) (memory : Nat → Cell) (row column : Int) :
    V →+ (Fin output.size.toNat → V) :=
  scattered transposition alpha (fun item => (item.val : Int))
    (fun _ inner => input.value memory inner) row column

/-- One entry. -/
theorem spmvEntry_updates (h : SpmvAccepts context transposition matrix input output) (alpha : V)
    {memory memory' : Nat → Cell} {row column : Int} (value : V)
    (hrow : 0 ≤ row ∧ row < matrix.rows) (hcolumn : 0 ≤ column ∧ column < matrix.columns)
    (huntouched : (output.family h.output_checked).Untouched memory memory') :
    Effect.Updates (output.family h.output_checked)
      (do
        let memory ← Effect.read
        Effect.store type (output.vectorAt (outputIndex transposition row column))
          (output.value memory (outputIndex transposition row column) +
            alpha * entryValue transposition value *
              input.value memory (inputIndex transposition row column)))
      (fun values => values + vectorAmount transposition alpha input output memory row column value)
      memory' := by
  rcases spmv_accepted h with ⟨⟨hinputSize, houtputSize⟩, -, hinputApart, -⟩
  have houtput : 0 ≤ outputIndex transposition row column ∧
      outputIndex transposition row column < output.size := by
    rw [houtputSize]
    unfold outputIndex outputExtent
    split <;> assumption
  have hinput : 0 ≤ inputIndex transposition row column ∧
      inputIndex transposition row column < input.size := by
    rw [hinputSize]
    unfold inputIndex inputExtent
    split <;> assumption
  -- The output was written meanwhile, but the input does not meet it.
  have hagree := agreeOn_of_untouched
    (SparseBlasVectorView.family_inside h.output_checked) hinputApart huntouched
  let item : Fin output.size.toNat := ⟨(outputIndex transposition row column).toNat, by omega⟩
  have hitem : ((item.val : Nat) : Int) = outputIndex transposition row column :=
    Int.toNat_of_nonneg houtput.1
  rcases Effect.updates_store item ((output.family h.output_checked).values memory' item +
      vectorAmount transposition alpha input output memory row column value item) memory' with
    ⟨memory'', hstore, hframe, hvalues⟩
  have hamount : vectorAmount transposition alpha input output memory row column value item =
      alpha * entryValue transposition value *
        input.value memory (inputIndex transposition row column) := if_pos hitem.symm
  refine ⟨memory'', ?_, hframe, ?_⟩
  · rw [hamount] at hstore
    rw [Effect.exec_read_bind, ← h.input_checked.value_congr hinput.1 hinput.2 hagree, ← hitem]
    exact hstore
  · rw [hvalues]
    -- Only the element of the output row gets an amount that is not zero.
    apply update_eq_add
    intro other hother
    apply if_neg
    intro (heq : outputIndex transposition row column = other.val)
    exact hother (Fin.ext (by omega))

/-- An accepted product adds to its output. -/
theorem spmv_updates (h : SpmvAccepts context transposition matrix input output) (alpha : V)
    (memory : Nat → Cell) :
    Effect.Updates (output.family h.output_checked)
      (spmv context transposition alpha matrix input output)
      (fun values row => values row + spmvProduct transposition alpha matrix input memory row.val)
      memory := by
  rcases spmv_accepted h with ⟨⟨hinputSize, houtputSize⟩, hcanonical, hinputApart, hmatrixApart⟩
  rw [spmv, h.valid, Effect.ofResult_ok_bind]
  -- The source returns early for zero.
  by_cases hzero : alpha = 0
  · rw [if_pos hzero]
    refine ⟨memory, rfl, .refl memory, ?_⟩
    funext row
    simp only [spmvProduct, hzero, zero_mul, add_zero]
  · rw [if_neg hzero]
    have hloop := forEachStored_adds hcanonical
      (fun memory' huntouched => agreeOn_of_untouched
        (SparseBlasVectorView.family_inside h.output_checked) hmatrixApart huntouched)
      (vectorAmount transposition alpha input output memory)
      fun row column value hrow hcolumn memory' huntouched =>
        spmvEntry_updates h alpha value hrow hcolumn huntouched
    rcases hloop with ⟨memory', hrun, hframe, hvalues⟩
    refine ⟨memory', hrun, hframe, hvalues.trans ?_⟩
    funext row
    -- The amounts of the stored entries add up to the row of the product.
    have hsum := @sum_scattered _ _ _ _ _ _ _ matrix memory transposition alpha
      (fun item : Fin output.size.toNat => (item.val : Int))
      (fun _ inner => input.value memory inner) row (by omega)
    exact congrArg ((output.family h.output_checked).values memory row + ·) hsum

end Spmv

/-! ## Matrix times matrix -/

/-- Views from `Create` that `Spmm` accepts. -/
structure SpmmAccepts (context : ExecutionContext) (transposition : SparseBlasTranspose)
    (matrix : CompressedSparseView (Stored type) format)
    (input output : SparseBlasMatrixView type) : Prop where
  matrix_checked : matrix.Checked
  input_checked : input.Checked
  output_checked : output.Checked
  valid : validateSpmm context transposition matrix input output = .ok ()

/-- `alpha * op(A) * input`, in a row and a column. -/
def spmmProduct (transposition : SparseBlasTranspose) (alpha : V)
    (matrix : CompressedSparseView (Stored type) format) (input : SparseBlasMatrixView type)
    (memory : Nat → Cell) (row rhs : Int) : V :=
  alpha * ∑ inner : Fin (inputExtent matrix transposition).toNat,
    transformedValue matrix memory transposition row inner.val * input.value memory inner.val rhs

section Spmm

variable {context : ExecutionContext} {transposition : SparseBlasTranspose}
  {matrix : CompressedSparseView (Stored type) format} {input output : SparseBlasMatrixView type}

omit [StarRing V] in
theorem spmm_accepted (h : SpmmAccepts context transposition matrix input output) :
    (input.rows = inputExtent matrix transposition ∧
      output.rows = outputExtent matrix transposition ∧ input.columns = output.columns) ∧
    matrix.CanonicalArrays ∧ input.reachableStorage.block.Disjoint output.reachableStorage.block ∧
      matrix.valueSpan.Disjoint output.reachableStorage.block := by
  have hvalid := h.valid
  simp only [validateSpmm, Result.unit_bind_eq_ok_iff, Result.failIf_eq_ok_iff, not_or,
    not_not] at hvalid
  rcases hvalid with ⟨-, hhost, -, hextents, hoverlap⟩
  exact ⟨hextents, operands_apart h.matrix_checked hhost hoverlap⟩

/-- What an entry adds to a matrix. -/
def matrixAmount (transposition : SparseBlasTranspose) (alpha : V)
    (input output : SparseBlasMatrixView type) (memory : Nat → Cell) (row column : Int) :
    V →+ (Fin output.rows.toNat × Fin output.columns.toNat → V) :=
  scattered transposition alpha (fun item => (item.1.val : Int))
    (fun item inner => input.value memory inner item.2.val) row column

/-- One entry, which adds to a row of the output. -/
theorem spmmEntry_updates (h : SpmmAccepts context transposition matrix input output) (alpha : V)
    {memory memory' : Nat → Cell} {row column : Int} (value : V)
    (hrow : 0 ≤ row ∧ row < matrix.rows) (hcolumn : 0 ≤ column ∧ column < matrix.columns)
    (huntouched : (output.family h.output_checked).Untouched memory memory') :
    Effect.Updates (output.family h.output_checked)
      (forM (List.range input.columns.toNat) fun (rhs : Nat) => do
        let memory ← Effect.read
        Effect.store type (output.elementAt (outputIndex transposition row column) rhs)
          (output.value memory (outputIndex transposition row column) rhs +
            alpha * entryValue transposition value *
              input.value memory (inputIndex transposition row column) rhs))
      (fun values => values + matrixAmount transposition alpha input output memory row column value)
      memory' := by
  rcases spmm_accepted h with ⟨⟨hinputRows, houtputRows, hcolumns⟩, -, hinputApart, -⟩
  have houtput : 0 ≤ outputIndex transposition row column ∧
      outputIndex transposition row column < output.rows := by
    rw [houtputRows]
    unfold outputIndex outputExtent
    split <;> assumption
  have hinput : 0 ≤ inputIndex transposition row column ∧
      inputIndex transposition row column < input.rows := by
    rw [hinputRows]
    unfold inputIndex inputExtent
    split <;> assumption
  let place : Fin output.rows.toNat := ⟨(outputIndex transposition row column).toNat, by omega⟩
  have hplace : ((place.val : Nat) : Int) = outputIndex transposition row column :=
    Int.toNat_of_nonneg houtput.1
  -- One entry updates a whole row of the output, each element once.
  have hnodup : ((List.finRange output.columns.toNat).map fun rhs => (place, rhs)).Nodup :=
    (List.nodup_finRange _).map (Prod.mk_right_injective place)
  have hother : ∀ item, item ∉ (List.finRange output.columns.toNat).map (fun rhs => (place, rhs)) →
      matrixAmount transposition alpha input output memory row column value item = 0 := by
    intro item hitem
    refine if_neg fun (heq : outputIndex transposition row column = item.1.val) => ?_
    have hfirst : item.1 = place := Fin.ext (by omega)
    exact hitem (List.mem_map.2 ⟨item.2, List.mem_finRange _, by rw [← hfirst]⟩)
  have hloop := @exec_forM_adds _ _ _ _ _ _ (output.family h.output_checked) _ hnodup
    (fun item => do
      let memory ← Effect.read
      Effect.store type (output.elementAt (outputIndex transposition row column) item.2.val)
        (output.value memory (outputIndex transposition row column) item.2.val +
          alpha * entryValue transposition value *
            input.value memory (inputIndex transposition row column) item.2.val))
    (matrixAmount transposition alpha input output memory row column value) hother memory'
    (fun item hitem memory'' huntouched' => ?_)
  · rw [List.forM_map] at hloop
    rw [hcolumns, Effect.forM_range]
    exact hloop
  · rcases List.mem_map.1 hitem with ⟨rhs, -, rfl⟩
    have hagree := agreeOn_of_untouched
      (SparseBlasMatrixView.family_inside h.output_checked) hinputApart
      (huntouched.trans huntouched')
    have hamount : matrixAmount transposition alpha input output memory row column value
        (place, rhs) = alpha * entryValue transposition value *
          input.value memory (inputIndex transposition row column) rhs.val := if_pos hplace.symm
    rcases Effect.updates_store (place, rhs)
      ((output.family h.output_checked).values memory'' (place, rhs) +
        matrixAmount transposition alpha input output memory row column value (place, rhs))
      memory'' with ⟨last, hstore, hframe, hvalues⟩
    refine ⟨last, ?_, hframe, hvalues⟩
    rw [hamount] at hstore
    rw [Effect.exec_read_bind,
      ← h.input_checked.value_congr hinput (by simp only; omega) hagree, ← hplace]
    exact hstore

/-- An accepted product adds to its output. -/
theorem spmm_updates (h : SpmmAccepts context transposition matrix input output) (alpha : V)
    (memory : Nat → Cell) :
    Effect.Updates (output.family h.output_checked)
      (spmm context transposition alpha matrix input output)
      (fun values item => values item +
        spmmProduct transposition alpha matrix input memory item.1.val item.2.val) memory := by
  rcases spmm_accepted h with ⟨⟨hinputRows, houtputRows, -⟩, hcanonical, hinputApart, hmatrixApart⟩
  rw [spmm, h.valid, Effect.ofResult_ok_bind]
  -- As for a vector, with the items of a matrix.
  by_cases hzero : alpha = 0
  · rw [if_pos hzero]
    refine ⟨memory, rfl, .refl memory, ?_⟩
    funext item
    simp only [spmmProduct, hzero, zero_mul, add_zero]
  · rw [if_neg hzero]
    have hloop := forEachStored_adds hcanonical
      (fun memory' huntouched => agreeOn_of_untouched
        (SparseBlasMatrixView.family_inside h.output_checked) hmatrixApart huntouched)
      (matrixAmount transposition alpha input output memory)
      fun row column value hrow hcolumn memory' huntouched =>
        spmmEntry_updates h alpha value hrow hcolumn huntouched
    rcases hloop with ⟨memory', hrun, hframe, hvalues⟩
    refine ⟨memory', hrun, hframe, hvalues.trans ?_⟩
    funext item
    have hsum := @sum_scattered _ _ _ _ _ _ _ matrix memory transposition alpha
      (fun item : Fin output.rows.toNat × Fin output.columns.toNat => (item.1.val : Int))
      (fun item inner => input.value memory inner item.2.val) item (by omega)
    exact congrArg ((output.family h.output_checked).values memory item + ·) hsum

end Spmm

/-! ## Both products, in both formats -/

/-- Two compressed views hold the same matrix. -/
structure SameMatrix {format format' : SparseCompressedFormat}
    (matrix : CompressedSparseView (Stored type) format)
    (other : CompressedSparseView (Stored type) format') (memory : Nat → Cell) : Prop where
  rows_eq : matrix.rows = other.rows
  columns_eq : matrix.columns = other.columns
  value_eq : ∀ row column, matrix.matrixValue memory row column =
    other.matrixValue memory row column

omit [DecidableEq V] in
/-- Products with the same matrix are the same, whatever the input. -/
theorem SameMatrix.sum_eq {format format' : SparseCompressedFormat}
    {matrix : CompressedSparseView (Stored type) format}
    {other : CompressedSparseView (Stored type) format'} {memory : Nat → Cell}
    (h : SameMatrix matrix other memory) (transposition : SparseBlasTranspose) (row : Int)
    (factor : Int → V) :
    (∑ inner : Fin (inputExtent matrix transposition).toNat,
        transformedValue matrix memory transposition row inner.val * factor inner.val) =
      ∑ inner : Fin (inputExtent other transposition).toNat,
        transformedValue other memory transposition row inner.val * factor inner.val := by
  have hextent : inputExtent matrix transposition = inputExtent other transposition := by
    unfold inputExtent
    rw [h.rows_eq, h.columns_eq]
  have hvalue : ∀ column, transformedValue matrix memory transposition row column =
      transformedValue other memory transposition row column := by
    intro column
    cases transposition <;> simp only [transformedValue, transposedValue, h.value_eq]
  simp only [hvalue]
  exact Fin.sum_congr' (fun inner : Fin (inputExtent other transposition).toNat =>
    transformedValue other memory transposition row inner.val * factor inner.val)
    (congrArg Int.toNat hextent)

/-- Accepted products add `alpha * op(A) * input` to the elements of the output and change no other
cell; without `alpha` they change no cell at all; and the CSR and the CSC form of a matrix give the
same output. -/
theorem products_correct (context : ExecutionContext) (transposition : SparseBlasTranspose)
    (alpha : V) (memory : Nat → Cell) :
    (∀ {format : SparseCompressedFormat} (matrix : CompressedSparseView (Stored type) format)
        (input output : SparseBlasVectorView type)
        (h : SpmvAccepts context transposition matrix input output),
      Effect.Updates (output.family h.output_checked)
        (spmv context transposition alpha matrix input output)
        (fun values row =>
          values row + spmvProduct transposition alpha matrix input memory row.val) memory ∧
      (alpha = 0 → Effect.exec (spmv context transposition alpha matrix input output) memory =
        some (.ok (), memory))) ∧
    (∀ {format : SparseCompressedFormat} (matrix : CompressedSparseView (Stored type) format)
        (input output : SparseBlasMatrixView type)
        (h : SpmmAccepts context transposition matrix input output),
      Effect.Updates (output.family h.output_checked)
        (spmm context transposition alpha matrix input output)
        (fun values item => values item +
          spmmProduct transposition alpha matrix input memory item.1.val item.2.val) memory ∧
      (alpha = 0 → Effect.exec (spmm context transposition alpha matrix input output) memory =
        some (.ok (), memory))) ∧
    ∀ (csr : CompressedSparseView (Stored type) .csr) (csc : CompressedSparseView (Stored type) .csc),
      SameMatrix csr csc memory →
      (∀ (input output : SparseBlasVectorView type)
          (h : SpmvAccepts context transposition csr input output),
        SpmvAccepts context transposition csc input output →
          Effect.SameOutcome (output.family h.output_checked)
            (spmv context transposition alpha csr input output)
            (spmv context transposition alpha csc input output) memory) ∧
      ∀ (input output : SparseBlasMatrixView type)
          (h : SpmmAccepts context transposition csr input output),
        SpmmAccepts context transposition csc input output →
          Effect.SameOutcome (output.family h.output_checked)
            (spmm context transposition alpha csr input output)
            (spmm context transposition alpha csc input output) memory := by
  refine ⟨fun matrix input output h => ⟨spmv_updates h alpha memory, fun hzero => ?_⟩,
    fun matrix input output h => ⟨spmm_updates h alpha memory, fun hzero => ?_⟩,
    fun csr csc hsame => ⟨fun input output h h' => ?_, fun input output h h' => ?_⟩⟩
  · rw [spmv, h.valid, Effect.ofResult_ok_bind, if_pos hzero]
    rfl
  · rw [spmm, h.valid, Effect.ofResult_ok_bind, if_pos hzero]
    rfl
  -- Two formats of one matrix lead to the same values, hence to the same memory.
  · apply (spmv_updates h alpha memory).sameOutcome (spmv_updates h' alpha memory)
    funext row
    simp only [spmvProduct, hsame.sum_eq transposition row.val fun inner =>
      input.value memory inner]
  · apply (spmm_updates h alpha memory).sameOutcome (spmm_updates h' alpha memory)
    funext item
    simp only [spmmProduct, hsame.sum_eq transposition item.1.val fun inner =>
      input.value memory inner item.2.val]

/-! ### Three entries -/

/-- The numbers of the samples. -/
abbrev exactNumber : Representation Int Int := .uniform Int 8 8 Representation.eight_pos

/-- The rows of an upper triangle of two rows, or its columns. -/
def sampleMatrix (format : SparseCompressedFormat) :
    CompressedSparseView (Stored exactNumber) format :=
  match format with
  | .csr => .ofHost .csr ⟨8, [0, 2, 3]⟩ ⟨32, [0, 1, 1]⟩ ⟨56, []⟩ (2 ::ᵥ 2 ::ᵥ List.Vector.nil) 3
  | .csc => .ofHost .csc ⟨8, [0, 1, 3]⟩ ⟨32, [0, 0, 1]⟩ ⟨56, []⟩ (2 ::ᵥ 2 ::ᵥ List.Vector.nil) 3

/-- A vector with two rows that runs backwards, over every second element. -/
def sampleVector (data : Nat) : SparseBlasVectorView exactNumber :=
  ⟨data + 16, 2, -2, ⟨data, 24, .host⟩, data, 24⟩

/-- Two rows and two columns with padding. -/
def sampleRows (data : Nat) : SparseBlasMatrixView exactNumber :=
  ⟨data, 2, 2, .rowMajor, 3, ⟨data, 48, .host⟩, ⟨data, 40⟩⟩

/-- Every cell holds its own address. -/
def sampleMemory (cell : Nat) : Int :=
  cell

theorem sampleVector_accepts (format : SparseCompressedFormat) :
    SpmvAccepts .serial .conjugateTranspose (sampleMatrix format) (sampleVector 80)
      (sampleVector 128) := by
  cases format <;> exact ⟨rfl, rfl, rfl, rfl⟩

theorem sampleRows_accepts (format : SparseCompressedFormat) :
    SpmmAccepts .serial .transpose (sampleMatrix format) (sampleRows 80) (sampleRows 128) := by
  cases format <;> exact ⟨rfl, rfl, rfl, rfl⟩

theorem sampleMatrix_same : SameMatrix (sampleMatrix .csr) (sampleMatrix .csc) sampleMemory where
  rows_eq := rfl
  columns_eq := rfl
  value_eq _ _ := rfl

theorem products_correct_sample :
    Effect.Updates ((sampleVector 128).family (sampleVector_accepts .csr).output_checked)
        (spmv .serial .conjugateTranspose 2 (sampleMatrix .csr) (sampleVector 80)
          (sampleVector 128))
        (fun values row => values row + spmvProduct .conjugateTranspose 2 (sampleMatrix .csr)
          (sampleVector 80) sampleMemory row.val) sampleMemory ∧
      Effect.Updates ((sampleRows 128).family (sampleRows_accepts .csc).output_checked)
        (spmm .serial .transpose 2 (sampleMatrix .csc) (sampleRows 80) (sampleRows 128))
        (fun values item => values item + spmmProduct .transpose 2 (sampleMatrix .csc)
          (sampleRows 80) sampleMemory item.1.val item.2.val) sampleMemory ∧
      Effect.exec (spmm .serial .transpose 0 (sampleMatrix .csc) (sampleRows 80) (sampleRows 128))
        sampleMemory = some (.ok (), sampleMemory) ∧
      Effect.SameOutcome ((sampleRows 128).family (sampleRows_accepts .csr).output_checked)
        (spmm .serial .transpose 2 (sampleMatrix .csr) (sampleRows 80) (sampleRows 128))
        (spmm .serial .transpose 2 (sampleMatrix .csc) (sampleRows 80) (sampleRows 128))
        sampleMemory :=
  ⟨((products_correct .serial .conjugateTranspose 2 sampleMemory).1 _ _ _
      (sampleVector_accepts .csr)).1,
    ((products_correct .serial .transpose 2 sampleMemory).2.1 _ _ _ (sampleRows_accepts .csc)).1,
    ((products_correct .serial .transpose 0 sampleMemory).2.1 _ _ _ (sampleRows_accepts .csc)).2 rfl,
    ((products_correct .serial .transpose 2 sampleMemory).2.2 _ _ sampleMatrix_same).2 _ _
      (sampleRows_accepts .csr) (sampleRows_accepts .csc)⟩

/-- The second column has two entries, for a vector that runs backwards. -/
example : spmvProduct .conjugateTranspose 2 (sampleMatrix .csr) (sampleVector 80) sampleMemory 1 =
    2 * (64 * 96 + 72 * 80) := by decide

end Blas
end Sparse
end AscCpp
