import AscCpp.Dense.Blas.RankUpdate
import AscCpp.Dense.Blas.TriangularMatrix

/-!
# MatrixProduct — the products of level 3

`Gemm`, `Symm` and `Hemm`.  Each element of the output is written once, from a row of the left
factor, a column of the right one and its own old value; the checks keep the output apart from the
factors.

- `multiplyInto_updates`: what the loops leave behind, over any operators.
- `gemm_updates`, `structuredMultiply_updates`: over exact arithmetic this is `alpha A B + beta C`.
- `matrix_products_correct`: a product with a stored triangle is the general product with the whole
  matrix, and `Syrk` leaves in its triangle what `Gemm` leaves there.
-/

namespace AscCpp
namespace Dense
namespace Blas

open AscCpp.Core Library Matrix

variable {Cell V : Type} {type : Representation Cell V}

/-! ## The operations -/

/-- The checks of `GemmImpl`. -/
def validateGemm (context : ExecutionContext)
    (leftTransposition rightTransposition : DenseBlasTranspose)
    (left right output : DenseBlasMatrixView type) : Result Unit := do
  validateMatrices context left right output
  failIf
    (inputSize leftTransposition left.rows left.columns ≠
        outputSize rightTransposition right.rows right.columns ∨
      output.rows ≠ outputSize leftTransposition left.rows left.columns ∨
      output.columns ≠ inputSize rightTransposition right.rows right.columns)
    { code := .shape, message := "Level 3 Gemm operand shapes do not match" }

/-- The checks of `StructuredMultiply`. -/
def validateStructuredMultiply (context : ExecutionContext) (side : DenseBlasSide)
    (structured other output : DenseBlasMatrixView type) : Result Unit := do
  validateMatrices context structured other output
  failIf
    (structured.rows ≠ structured.columns ∨ other.rows ≠ output.rows ∨
      other.columns ≠ output.columns)
    { code := .shape, message := "Structured Level 3 operand shapes do not match" }
  failIf (structured.rows ≠ if side = .left then output.rows else output.columns)
    { code := .shape, message := "The structured matrix order does not match its side" }

section Operations

variable [Zero V] [Add V] [Mul V] [DecidableEq V]

/-- The loops of `GemmImpl` and of `StructuredMultiply`. -/
def multiplyInto (rows columns inner : Int) (alpha : V) (left right : OperatorAccess Cell V)
    (beta : V) (output : DenseBlasMatrixView type) : Effect (Nat → Cell) Unit :=
  forM (indices 0 rows) fun row =>
    forM (indices 0 columns) fun column => do
      let memory ← Effect.read
      let product := rowProduct alpha inner (left memory)
        (fun index => right memory index column) row
      Effect.store type (output.matrixAt row column)
        (combined alpha product beta (output.value memory row column))

variable [Star V] [DenseBlasScalar V]

/-- `Gemm`, by `GemmImpl`. -/
def gemm (context : ExecutionContext) (leftTransposition rightTransposition : DenseBlasTranspose)
    (alpha : V) (left right : DenseBlasMatrixView type) (beta : V)
    (output : DenseBlasMatrixView type) : Effect (Nat → Cell) Unit := do
  Effect.ofResult (validateGemm context leftTransposition rightTransposition left right output)
  multiplyInto (outputSize leftTransposition left.rows left.columns)
    (inputSize rightTransposition right.rows right.columns)
    (inputSize leftTransposition left.rows left.columns) alpha
    (fun memory => operationAt (left.value memory) leftTransposition)
    (fun memory => operationAt (right.value memory) rightTransposition) beta output

variable (context : ExecutionContext) (side : DenseBlasSide) (triangle : DenseBlasTriangle)
  (alpha : V) (structured other : DenseBlasMatrixView type) (beta : V)
  (output : DenseBlasMatrixView type)

def structuredMultiply (hermitian : Bool) : Effect (Nat → Cell) Unit := do
  Effect.ofResult (validateStructuredMultiply context side structured other output)
  let entry : OperatorAccess Cell V := fun memory row column =>
    symmetricAt structured memory triangle row column hermitian
  match side with
  | .left =>
    multiplyInto output.rows output.columns output.rows alpha entry other.value beta output
  | .right =>
    multiplyInto output.rows output.columns output.columns alpha other.value entry beta output

def symm : Effect (Nat → Cell) Unit :=
  structuredMultiply context side triangle alpha structured other beta output false

def hemm : Effect (Nat → Cell) Unit :=
  structuredMultiply context side triangle alpha structured other beta output true

/-- `Symm`, or `Hemm`. -/
def structuredProduct (hermitian : Bool) : Effect (Nat → Cell) Unit :=
  if hermitian then hemm context side triangle alpha structured other beta output
  else symm context side triangle alpha structured other beta output

theorem structuredProduct_eq (hermitian : Bool) :
    structuredProduct context side triangle alpha structured other beta output hermitian =
      structuredMultiply context side triangle alpha structured other beta output hermitian := by
  cases hermitian <;> rfl

end Operations

/-! ## The loops -/

section Weak

variable [Zero V] [Add V] [Mul V] [DecidableEq V]

/-- The loops over an output that is apart from the factors. -/
theorem multiplyInto_updates {output : DenseBlasMatrixView type} (houtput : output.Checked)
    {inner : Int} (alpha beta : V) {left right : OperatorAccess Cell V} (memory : Nat → Cell)
    (hleft : ∀ memory', (output.family houtput).Untouched memory memory' →
      ∀ row index, 0 ≤ row ∧ row < output.rows → 0 ≤ index ∧ index < inner →
        left memory' row index = left memory row index)
    (hright : ∀ memory', (output.family houtput).Untouched memory memory' →
      ∀ index column, 0 ≤ index ∧ index < inner → 0 ≤ column ∧ column < output.columns →
        right memory' index column = right memory index column) :
    Effect.Updates (output.family houtput)
      (multiplyInto output.rows output.columns inner alpha left right beta output)
      (fun old item =>
        combined alpha
          (rowProduct alpha inner (left memory) (fun index => right memory index item.2.val)
            item.1.val) beta (old item))
      memory := by
  -- A round reads what no round writes, besides the old element of its own place.
  have hplace : ∀ (row : Fin output.rows.toNat) (column : Fin output.columns.toNat) memory',
      (output.family houtput).Untouched memory memory' →
      Effect.Updates ((output.family houtput).line row)
        (do
          let memory ← Effect.read
          let product := rowProduct alpha inner (left memory)
            (fun index => right memory index column.val) row.val
          Effect.store type (output.matrixAt row.val column.val)
            (combined alpha product beta (output.value memory row.val column.val)))
        (fun values => Function.update values column
          (combined alpha
            (rowProduct alpha inner (left memory) (fun index => right memory index column.val)
              row.val) beta (values column))) memory' := by
    intro row column memory' huntouched
    have hproduct : rowProduct alpha inner (left memory')
          (fun index => right memory' index column.val) row.val =
        rowProduct alpha inner (left memory) (fun index => right memory index column.val) row.val :=
      rowProduct_congr fun _ index hindex =>
        ⟨hleft memory' huntouched row.val index ⟨by omega, by omega⟩ hindex,
          hright memory' huntouched index column.val hindex ⟨by omega, by omega⟩⟩
    rcases @Effect.updates_store _ _ _ _ ((output.family houtput).line row) _ column
      (combined alpha (rowProduct alpha inner (left memory')
        (fun index => right memory' index column.val) row.val) beta
          (output.value memory' row.val column.val)) memory' with ⟨last, hrun, hframe, hvalues⟩
    refine ⟨last, ?_, hframe, ?_⟩
    · rw [Effect.exec_read_bind]
      exact hrun
    · rw [hvalues, hproduct]
      rfl
  have hrow : ∀ (row : Fin output.rows.toNat) memory',
      (output.family houtput).Untouched memory memory' →
      Effect.Updates ((output.family houtput).line row)
        (forM (indices 0 output.columns) fun column => do
          let memory ← Effect.read
          let product := rowProduct alpha inner (left memory)
            (fun index => right memory index column) row.val
          Effect.store type (output.matrixAt row.val column)
            (combined alpha product beta (output.value memory row.val column)))
        (fun values column =>
          combined alpha
            (rowProduct alpha inner (left memory) (fun index => right memory index column.val)
              row.val) beta (values column)) memory' := by
    intro row memory' huntouched
    rw [forM_lines houtput.extents.2.1]
    rcases Effect.exec_forM_family memory'
      fun column (_ : column ∈ List.finRange _) memory'' hline =>
        hplace row column memory'' (huntouched.trans fun cell houtside =>
          hline cell fun place => houtside (row, place)) with ⟨last, hrun, hframe, hvalues⟩
    refine ⟨last, hrun, hframe, hvalues.trans ?_⟩
    funext column
    exact @sweep_apply_of_local _ _ _ (fun column values => combined alpha _ beta (values column)) _
      (List.nodup_finRange _) (fun item values values' h => by rw [h]) _ column
      (List.mem_finRange column)
  rw [multiplyInto, forM_lines houtput.extents.1]
  exact Effect.exec_forM_lines memory (List.nodup_finRange _) List.mem_finRange hrow

end Weak

/-! ## Accepted calls -/

/-- Three matrices from `Create` that `Gemm` accepts. -/
structure GemmAccepts (context : ExecutionContext)
    (leftTransposition rightTransposition : DenseBlasTranspose)
    (left right output : DenseBlasMatrixView type) : Prop where
  left_checked : left.Checked
  right_checked : right.Checked
  output_checked : output.Checked
  valid : validateGemm context leftTransposition rightTransposition left right output = .ok ()

/-- Three matrices from `Create` that `Symm` and `Hemm` accept. -/
structure StructuredMultiplyAccepts (context : ExecutionContext) (side : DenseBlasSide)
    (structured other output : DenseBlasMatrixView type) : Prop where
  structured_checked : structured.Checked
  other_checked : other.Checked
  output_checked : output.Checked
  valid : validateStructuredMultiply context side structured other output = .ok ()

variable {context : ExecutionContext} {side : DenseBlasSide}
  {leftTransposition rightTransposition : DenseBlasTranspose}
  {left right structured other output : DenseBlasMatrixView type}

/-- A factor keeps its bytes while only the output changes. -/
theorem validateMatrices_agree (h : validateMatrices context left right output = .ok ())
    (houtput : output.Checked) {memory memory' : Nat → Cell}
    (huntouched : (output.family houtput).Untouched memory memory') :
    AgreeOn left.reachableStorage.block memory memory' ∧
      AgreeOn right.reachableStorage.block memory memory' := by
  simp only [validateMatrices, Result.unit_bind_eq_ok_iff, Result.failIf_eq_ok_iff, not_or,
    Bool.not_eq_true] at h
  rcases h.2.2.2.2.2 with ⟨hleft, hright⟩
  have hinside := DenseBlasMatrixView.family_inside houtput
  exact ⟨agreeOn_of_untouched hinside (overlap_eq_false hleft) huntouched,
    agreeOn_of_untouched hinside (overlap_eq_false hright) huntouched⟩

theorem GemmAccepts.spec
    (h : GemmAccepts context leftTransposition rightTransposition left right output) :
    validateMatrices context left right output = .ok () ∧
      inputSize leftTransposition left.rows left.columns =
        outputSize rightTransposition right.rows right.columns ∧
      output.rows = outputSize leftTransposition left.rows left.columns ∧
      output.columns = inputSize rightTransposition right.rows right.columns := by
  have hvalid := h.valid
  simp only [validateGemm, Result.unit_bind_eq_ok_iff, Result.failIf_eq_ok_iff, not_or,
    not_not] at hvalid
  exact hvalid

theorem StructuredMultiplyAccepts.spec
    (h : StructuredMultiplyAccepts context side structured other output) :
    validateMatrices context structured other output = .ok () ∧
      (structured.rows = structured.columns ∧ other.rows = output.rows ∧
        other.columns = output.columns) ∧
      structured.rows = if side = .left then output.rows else output.columns := by
  have hvalid := h.valid
  simp only [validateStructuredMultiply, Result.unit_bind_eq_ok_iff, Result.failIf_eq_ok_iff,
    not_or, not_not] at hvalid
  exact hvalid

/-! ## Over exact arithmetic -/

section Exact

variable [CommRing V] [DecidableEq V] {memory : Nat → Cell}

/-- The loops compute `alpha A B + beta C`. -/
theorem multiplyInto_product (houtput : output.Checked) {inner : Nat} (alpha beta : V)
    {left right : OperatorAccess Cell V} {A : Matrix (Fin output.rows.toNat) (Fin inner) V}
    {B : Matrix (Fin inner) (Fin output.columns.toNat) V}
    (hleft : ∀ memory', (output.family houtput).Untouched memory memory' →
      ∀ row index, left memory' (row : Fin output.rows.toNat).val (index : Fin inner).val =
        A row index)
    (hright : ∀ memory', (output.family houtput).Untouched memory memory' →
      ∀ index column, right memory' (index : Fin inner).val
        (column : Fin output.columns.toNat).val = B index column) :
    Effect.Updates (output.family houtput)
      (multiplyInto output.rows output.columns inner alpha left right beta output)
      (fun old item => (alpha • (A * B) + beta • block old) item.1 item.2) memory := by
  have hextents := houtput.extents
  have hplace : ∀ {count : Nat} {index : Int}, 0 ≤ index ∧ index < count →
      ∃ place : Fin count, (place.val : Int) = index :=
    fun h => ⟨⟨_, (Int.toNat_lt h.1).2 h.2⟩, Int.toNat_of_nonneg h.1⟩
  have hentry := hleft memory (.refl memory)
  have hentry' := hright memory (.refl memory)
  -- Inside the bounds of the loops the factors stay the two matrices.
  have hread : ∀ memory', (output.family houtput).Untouched memory memory' →
      ∀ row index, 0 ≤ row ∧ row < output.rows → 0 ≤ index ∧ index < (inner : Int) →
        left memory' row index = left memory row index := by
    intro memory' huntouched row index hrow hindex
    rcases @hplace output.rows.toNat row ⟨hrow.1, by omega⟩ with ⟨row, rfl⟩
    rcases hplace hindex with ⟨index, rfl⟩
    rw [hleft memory' huntouched, hentry]
  have hread' : ∀ memory', (output.family houtput).Untouched memory memory' →
      ∀ index column, 0 ≤ index ∧ index < (inner : Int) →
        0 ≤ column ∧ column < output.columns →
          right memory' index column = right memory index column := by
    intro memory' huntouched index column hindex hcolumn
    rcases hplace hindex with ⟨index, rfl⟩
    rcases @hplace output.columns.toNat column ⟨hcolumn.1, by omega⟩ with ⟨column, rfl⟩
    rw [hright memory' huntouched, hentry']
  rcases multiplyInto_updates houtput alpha beta memory hread hread' with
    ⟨last, hrun, hframe, hlast⟩
  refine ⟨last, hrun, hframe, hlast.trans ?_⟩
  funext item
  simp only [combined_rowProduct, hentry, hentry']
  rfl

variable [StarRing V] [ExactScalar V] {triangle : DenseBlasTriangle} {values : Int → Int → V}
  {hermitian : Bool}

theorem gemm_updates
    (h : GemmAccepts context leftTransposition rightTransposition left right output)
    (memory : Nat → Cell) (alpha beta : V) :
    Effect.Updates (output.family h.output_checked)
      (gemm context leftTransposition rightTransposition alpha left right beta output)
      (fun old item =>
        (alpha •
          (operand leftTransposition left output.rows.toNat (innerSize leftTransposition left)
              memory *
            operand rightTransposition right (innerSize leftTransposition left)
              output.columns.toNat memory) + beta • block old) item.1 item.2) memory := by
  have hextents := h.output_checked.extents
  have hinner := innerSize_eq h.left_checked leftTransposition
  rcases h.spec with ⟨hmatrices, hshared, hrows, hcolumns⟩
  rw [gemm, h.valid, Effect.ofResult_ok_bind, ← hrows, ← hcolumns, ← hinner]
  have hagree := fun memory' => @validateMatrices_agree _ _ _ _ _ _ _ hmatrices h.output_checked
    memory memory'
  apply multiplyInto_product h.output_checked
  · intro memory' huntouched
    exact operationAt_of_agree h.left_checked (hagree memory' huntouched).1 (by omega) hinner
  · intro memory' huntouched
    exact operationAt_of_agree h.right_checked (hagree memory' huntouched).2 (by omega) (by omega)

theorem structuredMultiply_updates
    (h : StructuredMultiplyAccepts context side structured other output)
    (hvalues : (SquareStorage.full structured).Encodes triangle hermitian memory values)
    (alpha beta : V) :
    Effect.Updates (output.family h.output_checked)
      (structuredMultiply context side triangle alpha structured other beta output hermitian)
      (fun old item =>
        (alpha • applied side .none values
            (asMatrix output.rows.toNat output.columns.toNat (other.value memory)) +
          beta • block old) item.1 item.2) memory := by
  have hextents := h.output_checked.extents
  rcases h.spec with ⟨hmatrices, ⟨hsquare, hrows, hcolumns⟩, horder⟩
  have hstorage : (SquareStorage.full structured).Checked := ⟨h.structured_checked, hsquare⟩
  have hagree := fun memory' => @validateMatrices_agree _ _ _ _ _ _ _ hmatrices h.output_checked
    memory memory'
  -- The stored triangle is apart from the output, so it encodes the same matrix all along.
  have hentry : ∀ memory', (output.family h.output_checked).Untouched memory memory' →
      ∀ row column, 0 ≤ row ∧ row < structured.rows → 0 ≤ column ∧ column < structured.rows →
        symmetricAt structured memory' triangle row column hermitian = values row column := by
    intro memory' huntouched row column hrow hcolumn
    have hlocal := SquareStorage.structured_local hstorage triangle hermitian
    exact (hlocal _ _ (hagree memory' huntouched).1 row column hrow hcolumn).symm.trans
      (hvalues.access_eq hstorage hrow hcolumn)
  have hother : ∀ memory', (output.family h.output_checked).Untouched memory memory' →
      ∀ row column, 0 ≤ row ∧ row < output.rows → 0 ≤ column ∧ column < output.columns →
        other.value memory' row column = other.value memory row column := by
    intro memory' huntouched row column hrow hcolumn
    exact (h.other_checked.value_congr ⟨hrow.1, by omega⟩ ⟨hcolumn.1, by omega⟩
      (hagree memory' huntouched).2).symm
  have hrowCount : ((output.rows.toNat : Nat) : Int) = output.rows :=
    Int.toNat_of_nonneg hextents.1
  have hcolumnCount : ((output.columns.toNat : Nat) : Int) = output.columns :=
    Int.toNat_of_nonneg hextents.2.1
  rw [structuredMultiply, h.valid, Effect.ofResult_ok_bind]
  cases side with
  | left =>
    rw [if_pos rfl] at horder
    have hproduct := @multiplyInto_product _ _ _ output _ _ memory h.output_checked
      output.rows.toNat alpha beta
      (fun memory row column => symmetricAt structured memory triangle row column hermitian)
      other.value (asMatrix _ _ values) (asMatrix _ _ (other.value memory))
      (fun memory' huntouched row index =>
        hentry memory' huntouched row.val index.val (by omega) (by omega))
      (fun memory' huntouched index column =>
        hother memory' huntouched index.val column.val (by omega) (by omega))
    rw [hrowCount] at hproduct
    exact hproduct
  | right =>
    rw [if_neg (by decide)] at horder
    have hproduct := @multiplyInto_product _ _ _ output _ _ memory h.output_checked
      output.columns.toNat alpha beta other.value
      (fun memory row column => symmetricAt structured memory triangle row column hermitian)
      (asMatrix _ _ (other.value memory)) (asMatrix _ _ values)
      (fun memory' huntouched row index =>
        hother memory' huntouched row.val index.val (by omega) (by omega))
      (fun memory' huntouched index column =>
        hentry memory' huntouched index.val column.val (by omega) (by omega))
    rw [hcolumnCount] at hproduct
    exact hproduct

/-- The general product with the whole matrix, for a triangle of it on one side. -/
theorem structuredMultiply_sameOutcome
    (h : StructuredMultiplyAccepts context side structured other output)
    (hvalues : (SquareStorage.full structured).Encodes triangle hermitian memory values)
    {whole : DenseBlasMatrixView type}
    (hwhole : ∀ row column, 0 ≤ row ∧ row < structured.rows →
      0 ≤ column ∧ column < structured.rows → whole.value memory row column = values row column)
    (alpha beta : V) :
    (side = .left → GemmAccepts context .none .none whole other output →
      Effect.SameOutcome (output.family h.output_checked)
        (structuredMultiply context side triangle alpha structured other beta output hermitian)
        (gemm context .none .none alpha whole other beta output) memory) ∧
    (side = .right → GemmAccepts context .none .none other whole output →
      Effect.SameOutcome (output.family h.output_checked)
        (structuredMultiply context side triangle alpha structured other beta output hermitian)
        (gemm context .none .none alpha other whole beta output) memory) := by
  have hextents := h.output_checked.extents
  have hupdates := structuredMultiply_updates h hvalues alpha beta
  rcases h.spec with ⟨-, ⟨-, hrows, hcolumns⟩, horder⟩
  constructor
  · rintro rfl hgemm
    rw [if_pos rfl] at horder
    have hinner : innerSize .none whole = output.rows.toNat :=
      congrArg Int.toNat (hgemm.spec.2.1.trans hrows)
    have hproduct := gemm_updates hgemm memory alpha beta
    rw [hinner] at hproduct
    refine hupdates.sameOutcome hproduct ?_
    have hoperand : operand .none whole output.rows.toNat output.rows.toNat memory =
        asMatrix output.rows.toNat output.rows.toNat values := by
      ext row column
      exact hwhole row.val column.val (by omega) (by omega)
    rw [hoperand]
    rfl
  · rintro rfl hgemm
    rw [if_neg (by decide)] at horder
    have hinner : innerSize .none other = output.columns.toNat := congrArg Int.toNat hcolumns
    have hproduct := gemm_updates hgemm memory alpha beta
    rw [hinner] at hproduct
    refine hupdates.sameOutcome hproduct ?_
    have hoperand : operand .none whole output.columns.toNat output.columns.toNat memory =
        asMatrix output.columns.toNat output.columns.toNat values := by
      ext row column
      exact hwhole row.val column.val (by omega) (by omega)
    rw [hoperand]
    rfl

/-! ### Symmetric updates -/

/-- The transpose argument of the second factor, for a product with the transpose. -/
def flipped : DenseBlasTranspose → DenseBlasTranspose
  | .none => .transpose
  | .transpose => .none
  | .conjugateTranspose => .none

variable {transposition : DenseBlasTranspose} {input : DenseBlasMatrixView type}

omit [CommRing V] [DecidableEq V] [StarRing V] [ExactScalar V] in
theorem inputSize_flipped (transposition : DenseBlasTranspose) (rows columns : Int) :
    inputSize (flipped transposition) rows columns = outputSize transposition rows columns ∧
      outputSize (flipped transposition) rows columns = inputSize transposition rows columns := by
  cases transposition <;> exact ⟨rfl, rfl⟩

omit [DecidableEq V] in
theorem operand_flipped (hreal : ¬ (DenseBlasScalar.complex V = true ∧
      transposition = .conjugateTranspose)) (order inner : Nat) :
    operand (flipped transposition) input inner order memory =
      (operand transposition input order inner memory)ᵀ := by
  cases transposition with
  | none => rfl
  | transpose => rfl
  | conjugateTranspose =>
    have hstar := ExactScalar.star_of_real (V := V) (by simpa using hreal)
    ext index row
    exact (hstar _).symm

omit [DecidableEq V] in
theorem gemmAccepts_of_symmetricRankK (hinput : input.Checked) (houtput : output.Checked)
    (hvalid : validateSymmetricRankK (V := V) context transposition input input output = .ok ()) :
    GemmAccepts context transposition (flipped transposition) input input output := by
  refine ⟨hinput, hinput, houtput, ?_⟩
  simp only [validateSymmetricRankK, validateRankK, Result.unit_bind_eq_ok_iff,
    Result.failIf_eq_ok_iff, not_not] at hvalid
  rcases hvalid with ⟨-, ⟨hmatrices, -, hsquare⟩, horder⟩
  rcases inputSize_flipped transposition input.rows input.columns with ⟨hinput, houtput⟩
  rw [validateGemm, hmatrices, hinput, houtput]
  exact Result.failIf_eq_ok_iff.2 (by omega)

/-- `Syrk` leaves in its triangle what `Gemm` leaves there. -/
theorem syrk_sameTriangle (hinput : input.Checked) (houtput : output.Checked)
    (hvalid : validateSymmetricRankK (V := V) context transposition input input output = .ok ())
    (triangle : DenseBlasTriangle) (memory : Nat → Cell) (alpha beta : V) :
    ∃ last last',
      Effect.exec (syrk context triangle transposition alpha output input beta) memory =
        some (.ok (), last) ∧
      Effect.exec (gemm context transposition (flipped transposition) alpha input input beta output)
        memory = some (.ok (), last') ∧
      ∀ row column, 0 ≤ row ∧ row < output.rows → 0 ≤ column ∧ column < output.columns →
        InTriangle triangle row column →
          output.value last row column = output.value last' row column := by
  have hgemm := gemmAccepts_of_symmetricRankK hinput houtput hvalid
  have hreal := hvalid
  simp only [validateSymmetricRankK, Result.unit_bind_eq_ok_iff, Result.failIf_eq_ok_iff,
    not_not] at hreal
  rcases validateRankK_spec hreal.2.1 with ⟨-, -, -, -, hsquare⟩
  have hstorage : (RankStorage.full output).Checked := ⟨houtput, hsquare⟩
  have hupdates : Effect.Updates ((RankStorage.full output).family hstorage triangle)
      (syrk context triangle transposition alpha output input beta) _ memory :=
    symmetricRankK_updates hstorage hinput hinput hvalid
  rcases hupdates with ⟨last, hrun, -, hlast⟩
  rcases gemm_updates hgemm memory alpha beta with ⟨last', hrun', -, hlast'⟩
  refine ⟨last, last', hrun, hrun', fun row column hrow hcolumn htriangle => ?_⟩
  lift row to Nat using hrow.1
  lift column to Nat using hcolumn.1
  have hrowFin : row < output.rows.toNat := by omega
  have hcolumnRow : column < output.rows.toNat := by omega
  have hcolumnFin : column < output.columns.toNat := by omega
  have hsyrk := congrFun hlast ⟨(⟨row, hrowFin⟩, ⟨column, hcolumnRow⟩), htriangle⟩
  have hproduct := congrFun hlast' (⟨row, hrowFin⟩, ⟨column, hcolumnFin⟩)
  -- The entry of `op(A) op(A)ᵀ` is the one that the transposed second factor gives.
  rw [operand_flipped hreal.1] at hproduct
  simp only [symmetricUpdate, Bool.false_eq_true, if_false, add_zero] at hsyrk
  exact hsyrk.trans hproduct.symm

/-! ### The result -/

/-- An accepted `Gemm` leaves `alpha op(A) op(B) + beta C` behind.  `Symm` and `Hemm` leave
`alpha S B + beta C` or `alpha B S + beta C`, where `S` is the matrix whose triangle is stored; that
is what `Gemm` makes of the whole `S`.  Where `Syrk` is accepted, so is the product of the matrix
with its transpose, and the triangles are the same.  A product changes no cell beside the elements
of its output. -/
theorem matrix_products_correct (type : Representation Cell V) (context : ExecutionContext)
    (memory : Nat → Cell) (alpha beta : V) :
    (∀ (leftTransposition rightTransposition : DenseBlasTranspose)
      (left right output : DenseBlasMatrixView type)
      (h : GemmAccepts context leftTransposition rightTransposition left right output),
      Effect.Updates (output.family h.output_checked)
        (gemm context leftTransposition rightTransposition alpha left right beta output)
        (fun old item =>
          (alpha •
            (operand leftTransposition left output.rows.toNat (innerSize leftTransposition left)
                memory *
              operand rightTransposition right (innerSize leftTransposition left)
                output.columns.toNat memory) + beta • block old) item.1 item.2) memory) ∧
    (∀ (side : DenseBlasSide) (triangle : DenseBlasTriangle) (hermitian : Bool)
      (structured other output : DenseBlasMatrixView type) (values : Int → Int → V)
      (h : StructuredMultiplyAccepts context side structured other output),
      (SquareStorage.full structured).Encodes triangle hermitian memory values →
      Effect.Updates (output.family h.output_checked)
        (structuredProduct context side triangle alpha structured other beta output hermitian)
        (fun old item =>
          (alpha • applied side .none values
              (asMatrix output.rows.toNat output.columns.toNat (other.value memory)) +
            beta • block old) item.1 item.2) memory ∧
      ∀ whole : DenseBlasMatrixView type,
        (∀ row column, 0 ≤ row ∧ row < structured.rows → 0 ≤ column ∧ column < structured.rows →
          whole.value memory row column = values row column) →
        (side = .left → GemmAccepts context .none .none whole other output →
          Effect.SameOutcome (output.family h.output_checked)
            (structuredProduct context side triangle alpha structured other beta output hermitian)
            (gemm context .none .none alpha whole other beta output) memory) ∧
        (side = .right → GemmAccepts context .none .none other whole output →
          Effect.SameOutcome (output.family h.output_checked)
            (structuredProduct context side triangle alpha structured other beta output hermitian)
            (gemm context .none .none alpha other whole beta output) memory)) ∧
    ∀ (triangle : DenseBlasTriangle) (transposition : DenseBlasTranspose)
      (input output : DenseBlasMatrixView type), input.Checked → output.Checked →
      validateSymmetricRankK (V := V) context transposition input input output = .ok () →
      ∃ last last',
        Effect.exec (syrk context triangle transposition alpha output input beta) memory =
          some (.ok (), last) ∧
        Effect.exec
          (gemm context transposition (flipped transposition) alpha input input beta output)
          memory = some (.ok (), last') ∧
        ∀ row column, 0 ≤ row ∧ row < output.rows → 0 ≤ column ∧ column < output.columns →
          InTriangle triangle row column →
            output.value last row column = output.value last' row column := by
  refine ⟨fun _ _ _ _ _ h => gemm_updates h memory alpha beta,
    fun side triangle hermitian structured other output values h hvalues => ?_,
    fun triangle _ _ _ hinput houtput hvalid =>
      syrk_sameTriangle hinput houtput hvalid triangle memory alpha beta⟩
  simp only [structuredProduct_eq]
  exact ⟨structuredMultiply_updates h hvalues alpha beta,
    fun whole hwhole => structuredMultiply_sameOutcome h hvalues hwhole alpha beta⟩

end Exact

/-! ### The row of threes and a symmetric matrix of threes -/

def sampleOutput : DenseBlasMatrixView float64 :=
  ⟨1024, 1, 2, .rowMajor, 2, ⟨1024, 16, .host⟩, ⟨1024, 16⟩⟩

theorem sampleOutput_accepts :
    StructuredMultiplyAccepts .serial .right sampleFull sampleRow sampleOutput where
  structured_checked := rfl
  other_checked := rfl
  output_checked := rfl
  valid := rfl

theorem sampleFull_symmetric :
    (SquareStorage.full sampleFull).Encodes .upper false (fun _ => 3) (fun _ _ => 3) where
  reflected _ _ _ _ := rfl
  outside _ _ _ _ htriangle hkeeps := absurd ⟨htriangle, trivial⟩ hkeeps
  holds _ _ _ _ _ := rfl

theorem matrix_products_sample :
    Effect.SameOutcome (sampleOutput.family rfl)
      (structuredProduct .serial .right .upper 1 sampleFull sampleRow 0 sampleOutput false)
      (gemm .serial .none .none 1 sampleRow sampleFull 0 sampleOutput) (fun _ => 3) :=
  (((matrix_products_correct float64 .serial (fun _ => 3) 1 0).2.1 .right .upper false sampleFull
    sampleRow sampleOutput (fun _ _ => 3) sampleOutput_accepts sampleFull_symmetric).2 sampleFull
      (fun _ _ _ _ => rfl)).2 rfl ⟨rfl, rfl, rfl, rfl⟩

end Blas
end Dense
end AscCpp
