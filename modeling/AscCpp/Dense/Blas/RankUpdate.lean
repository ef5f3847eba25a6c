import AscCpp.Dense.Blas.MatrixVector
import AscCpp.Dense.Blas.Level3

/-!
# RankUpdate — updates of one triangle

An update writes each element of the selected triangle once, from its inputs and from the old element.

- `forTriangle_updates`: the loop over a triangle, from its rounds.
- `rankOne_updates`, `rankTwo_updates`: the triangle that an update with vectors leaves behind.
- `symmetricRankK_updates`, `hermitianRankK_updates`: the same for an update with matrices.
-/

namespace AscCpp
namespace Dense
namespace Blas

open AscCpp.Core Library Matrix

variable {Cell V : Type} {type : Representation Cell V}

/-! ## The loop over a triangle -/

section Triangles

variable {triangle : DenseBlasTriangle} {order : Nat}

/-- The pairs of a triangle, row by row. -/
def triangleItems (triangle : DenseBlasTriangle) (order : Nat) : List (TriangleIndex triangle order) :=
  (List.finRange order).flatMap fun row =>
    (List.finRange order).filterMap fun column =>
      if h : InTriangle triangle row.val column.val then some ⟨(row, column), h⟩ else none

theorem mem_triangleItems (item : TriangleIndex triangle order) :
    item ∈ triangleItems triangle order := by
  apply List.mem_flatMap.2
  refine ⟨item.1.1, List.mem_finRange _, List.mem_filterMap.2 ⟨item.1.2, List.mem_finRange _, ?_⟩⟩
  exact dif_pos item.2

theorem triangleItems_nodup (triangle : DenseBlasTriangle) (order : Nat) :
    (triangleItems triangle order).Nodup := by
  have hrow : ∀ (row : Fin order) item, item ∈ (List.finRange order).filterMap (fun column =>
      if h : InTriangle triangle row.val column.val then
        some (⟨(row, column), h⟩ : TriangleIndex triangle order) else none) → item.1.1 = row := by
    intro row item hitem
    rcases List.mem_filterMap.1 hitem with ⟨column, -, hselect⟩
    split at hselect
    · cases hselect
      rfl
    · cases hselect
  apply List.nodup_flatMap.2
  constructor
  · intro row _
    apply (List.nodup_finRange order).filterMap
    intro column column' item hitem hitem'
    simp only [Option.mem_def] at hitem hitem'
    split at hitem
    · split at hitem'
      · cases hitem
        cases hitem'
        rfl
      · cases hitem'
    · cases hitem
  · apply (List.nodup_finRange order).imp
    intro row row' hne
    apply List.disjoint_left.2
    intro item hitem hitem'
    exact hne ((hrow row item hitem).symm.trans (hrow row' item hitem'))

/-- The columns of a row, in the bounds of the loop. -/
theorem inTriangle_iff (row column : Fin order) :
    ((if triangle = .upper then (row.val : Int) else 0) ≤ column.val ∧
      (column.val : Int) < if triangle = .upper then (order : Int) else row.val + 1) ↔
        InTriangle triangle row.val column.val := by
  have hcolumn := column.isLt
  unfold InTriangle
  cases triangle with
  | upper =>
    simp only [if_true]
    omega
  | lower =>
    simp only [reduceCtorEq, if_false]
    omega

theorem forTriangle_eq {Memory : Type} (body : Int → Int → Effect Memory Unit) :
    forTriangle triangle order body =
      forM (triangleItems triangle order) fun item => body item.1.1.val item.1.2.val := by
  rw [forTriangle, Effect.forM_indices, triangleItems, forM_flatMap]
  congr 1
  funext row
  rw [@indices_eq_filter _ _ order (by split <;> omega) (by split <;> omega), List.forM_map, forM_filter,
    forM_filterMap]
  congr 1
  funext column
  by_cases hin : InTriangle triangle row.val column.val
  · rw [dif_pos hin, if_pos (decide_eq_true ((inTriangle_iff row column).2 hin))]
  · rw [dif_neg hin, if_neg]
    intro hbounds
    exact hin ((inTriangle_iff row column).1 (of_decide_eq_true hbounds))

/-- Every element of the triangle is written once, from its old value. -/
theorem forTriangle_updates {family : ElementFamily type (TriangleIndex triangle order)}
    {body : Int → Int → Effect (Nat → Cell) Unit} {step : TriangleIndex triangle order → V → V}
    {total : Int} (htotal : total = order) (memory : Nat → Cell)
    (hround : ∀ item memory', family.Untouched memory memory' →
      Effect.Updates family (body (item : TriangleIndex triangle order).1.1.val item.1.2.val)
        (fun values => Function.update values item (step item (values item))) memory') :
    Effect.Updates family (forTriangle triangle total body)
      (fun values item => step item (values item)) memory := by
  subst htotal
  rw [forTriangle_eq]
  rcases Effect.exec_forM_family memory
    fun item (_ : item ∈ triangleItems triangle order) memory' => hround item memory' with
    ⟨last, hrun, hframe, hvalues⟩
  refine ⟨last, hrun, hframe, hvalues.trans ?_⟩
  funext item
  exact @sweep_apply_of_local _ _ _ (fun item values => step item (values item)) _
    (triangleItems_nodup triangle order) (fun item values values' h => by rw [h]) _ item
    (mem_triangleItems item)

end Triangles

/-! ## Outputs -/

/-- The storage that an update writes: in full or packed. -/
inductive RankStorage (type : Representation Cell V) where
  | full (matrix : DenseBlasMatrixView type)
  | packed (matrix : DenseBlasPackedMatrixView type)

namespace RankStorage

/-- The descriptor comes from `Create`, and has as many rows as columns. -/
def Checked : RankStorage type → Prop
  | .full matrix => matrix.Checked ∧ matrix.rows = matrix.columns
  | .packed matrix => matrix.Checked

def order : RankStorage type → Int
  | .full matrix => matrix.rows
  | .packed matrix => matrix.order

def operand (storage : RankStorage type) (triangle : DenseBlasTriangle) : RankOperand :=
  match storage with
  | .full matrix => matrix.rankOperand
  | .packed matrix => matrix.rankOperand triangle

variable {storage : RankStorage type} {triangle : DenseBlasTriangle}

theorem Checked.order_nonneg (h : storage.Checked) : 0 ≤ storage.order := by
  cases storage with
  | full matrix => exact h.1.extents.1
  | packed matrix => exact DenseBlasPackedMatrixView.Checked.order_nonneg h

theorem operand_order (storage : RankStorage type) (triangle : DenseBlasTriangle) :
    (storage.operand triangle).order = storage.order := by
  cases storage <;> rfl

/-- The elements of a triangle. -/
def family (storage : RankStorage type) (h : storage.Checked) (triangle : DenseBlasTriangle) :
    ElementFamily type (TriangleIndex triangle storage.order.toNat) :=
  match storage, h with
  | .full matrix, h =>
    .ofOffsets type matrix.data (fun item => matrix.offset item.1.1.val item.1.2.val)
      (fun item => by
        have hsquare := h.2
        have hrow : (item.1.1.val : Int) < matrix.rows := Int.lt_toNat.1 item.1.1.isLt
        have hcolumn : (item.1.2.val : Int) < matrix.rows := Int.lt_toNat.1 item.1.2.isLt
        exact (h.1.offset_bounds ⟨by omega, hrow⟩ ⟨by omega, by omega⟩).1)
      (fun item other heq => by
        have hsquare := h.2
        have hrow : (item.1.1.val : Int) < matrix.rows := Int.lt_toNat.1 item.1.1.isLt
        have hcolumn : (item.1.2.val : Int) < matrix.rows := Int.lt_toNat.1 item.1.2.isLt
        have hrow' : (other.1.1.val : Int) < matrix.rows := Int.lt_toNat.1 other.1.1.isLt
        have hcolumn' : (other.1.2.val : Int) < matrix.rows := Int.lt_toNat.1 other.1.2.isLt
        have hinjective := h.1.offset_injective ⟨by omega, hrow⟩ ⟨by omega, by omega⟩
          ⟨by omega, hrow'⟩ ⟨by omega, by omega⟩ heq
        exact Subtype.ext (Prod.ext (Fin.ext (Int.ofNat.inj hinjective.1))
          (Fin.ext (Int.ofNat.inj hinjective.2))))
  | .packed matrix, h => matrix.family h triangle

theorem family_address (h : storage.Checked) (item : TriangleIndex triangle storage.order.toNat) :
    (storage.family h triangle).address item =
      (storage.operand triangle).reference item.1.1.val item.1.2.val := by
  cases storage <;> rfl

theorem family_inside (h : storage.Checked) (item : TriangleIndex triangle storage.order.toNat) :
    (storage.operand triangle).reachableStorage.block.address ≤
        (storage.family h triangle).address item ∧
      (storage.family h triangle).address item + type.size ≤
        (storage.operand triangle).reachableStorage.block.address +
          (storage.operand triangle).reachableStorage.block.size := by
  cases storage with
  | full matrix =>
    have hcolumn : item.1.2.val < matrix.columns.toNat := by
      have hlt : item.1.2.val < matrix.rows.toNat := item.1.2.isLt
      rwa [h.2] at hlt
    exact DenseBlasMatrixView.family_inside h.1 (item.1.1, ⟨item.1.2.val, hcolumn⟩)
  | packed matrix =>
    have hrow : (item.1.1.val : Int) < matrix.order := Int.lt_toNat.1 item.1.1.isLt
    have hcolumn : (item.1.2.val : Int) < matrix.order := Int.lt_toNat.1 item.1.2.isLt
    have hbounds := DenseBlasPackedMatrixView.Checked.offset_bounds h ⟨by omega, hrow⟩
      ⟨by omega, hcolumn⟩ item.2
    exact (DenseBlasPackedMatrixView.Checked.spans h (by omega)).inside_block hbounds

end RankStorage

/-! ## Updates of level 2 -/

section Exact

variable [CommRing V] [StarRing V] [ExactScalar V] {context : ExecutionContext}
  {triangle : DenseBlasTriangle} {x y : DenseBlasVectorView type} {memory : Nat → Cell}

/-- The old element, without its imaginary part on a Hermitian diagonal. -/
def kept {order : Nat} (hermitian : Bool) (item : TriangleIndex triangle order) (value : V) : V :=
  if hermitian ∧ item.1.1 = item.1.2 then DenseBlasScalar.realPart value else value

/-- A matrix that equals its transpose, conjugated or not. -/
def Reflected {order : Nat} (hermitian : Bool) (matrix : Matrix (Fin order) (Fin order) V) : Prop :=
  ∀ row column, matrix column row =
    if hermitian then star (matrix row column) else matrix row column

/-- A real part is one over exact arithmetic, whether the element type is complex or not. -/
theorem realPart_add_of_star {value update : V} (h : star update = update) :
    DenseBlasScalar.realPart (value + update) = update + DenseBlasScalar.realPart value := by
  rw [ExactScalar.realPart_add, ExactScalar.realPart_of_star update h, add_comm]

theorem realPart_of_not_complex (h : ¬ DenseBlasScalar.complex V = true) (value : V) :
    DenseBlasScalar.realPart value = value :=
  ExactScalar.realPart_of_star value (ExactScalar.star_of_real (Bool.not_eq_true _ ▸ h) value)

/-- One round of an update adds to the element, and makes a Hermitian diagonal real. -/
theorem addUpdate_updates {order : Nat} {family : ElementFamily type (TriangleIndex triangle order)}
    {hermitian : Bool} (item : TriangleIndex triangle order) {update : V}
    (hreal : hermitian = true → item.1.1 = item.1.2 → star update = update) (memory : Nat → Cell) :
    Effect.Updates family
      (addUpdate type (family.address item) update hermitian item.1.1.val item.1.2.val)
      (fun values => Function.update values item (update + kept hermitian item (values item)))
      memory := by
  have hadd := @Effect.updates_store _ _ _ _ family _ item
    (family.values memory item + update) memory
  have hdiagonal : (item.1.1.val : Int) = item.1.2.val ↔ item.1.1 = item.1.2 := by
    rw [Fin.ext_iff, Int.ofNat_inj]
  by_cases hsecond : DenseBlasScalar.complex V = true ∧ hermitian = true ∧
      (item.1.1.val : Int) = item.1.2.val
  · -- The element is read again, and stored without its imaginary part.
    rcases hadd with ⟨middle, hfirst, hframe, hmiddle⟩
    rcases @Effect.updates_store _ _ _ _ family _ item
      (DenseBlasScalar.realPart (family.values middle item)) middle with
      ⟨last, hrun, hframe', hlast⟩
    refine ⟨last, ?_, hframe.trans hframe', ?_⟩
    · rw [addUpdate, Effect.exec_read_bind, Effect.exec_bind, if_pos hsecond]
      exact (congrArg (fun outcome => Option.bind outcome _) hfirst).trans hrun
    · rw [hlast, hmiddle]
      simp only [Function.update_idem, Function.update_self, kept]
      rw [if_pos ⟨hsecond.2.1, hdiagonal.1 hsecond.2.2⟩,
        realPart_add_of_star (hreal hsecond.2.1 (hdiagonal.1 hsecond.2.2))]
  · rcases hadd with ⟨last, hrun, hframe, hlast⟩
    refine ⟨last, ?_, hframe, hlast.trans ?_⟩
    · rw [addUpdate, Effect.exec_read_bind, if_neg hsecond]
      exact (congrArg (fun outcome => Option.bind outcome _) hrun).trans rfl
    · have hkept : kept hermitian item (family.values memory item) =
          family.values memory item := by
        unfold kept
        split
        · rename_i hitem
          apply realPart_of_not_complex
          exact fun hcomplex => hsecond ⟨hcomplex, hitem.1, hdiagonal.2 hitem.2⟩
        · rfl
      simp only [hkept, add_comm]

/-- The loop of an update, from the matrix that it adds. -/
theorem addUpdates_updates {storage : RankStorage type} (hstorage : storage.Checked)
    {hermitian : Bool} {update : (Nat → Cell) → Int → Int → V}
    {added : Matrix (Fin storage.order.toNat) (Fin storage.order.toNat) V}
    (hupdate : ∀ memory', (storage.family hstorage triangle).Untouched memory memory' →
      ∀ row column : Fin storage.order.toNat, update memory' row.val column.val = added row column)
    (hadded : Reflected hermitian added) :
    Effect.Updates (storage.family hstorage triangle)
      (forTriangle triangle (storage.operand triangle).order fun row column => do
        let memory ← Effect.read
        addUpdate type ((storage.operand triangle).reference row column)
          (update memory row column) hermitian row column)
      (fun old item => added item.1.1 item.1.2 + kept hermitian item (old item)) memory := by
  have horder : (storage.operand triangle).order = (storage.order.toNat : Int) := by
    rw [storage.operand_order, Int.toNat_of_nonneg hstorage.order_nonneg]
  refine @forTriangle_updates _ _ _ _ _ _ _
    (fun item value => added item.1.1 item.1.2 + kept hermitian item value) _ horder memory ?_
  intro item memory' huntouched
  -- On the diagonal a reflected matrix is real.
  have hreal : hermitian = true → item.1.1 = item.1.2 →
      star (added item.1.1 item.1.2) = added item.1.1 item.1.2 := by
    intro hhermitian hdiagonal
    have hself := hadded item.1.2 item.1.2
    rw [if_pos hhermitian] at hself
    rw [hdiagonal, ← hself]
  rcases @addUpdate_updates _ _ _ _ _ _ _ _ (storage.family hstorage triangle) hermitian item _
    hreal memory' with ⟨last, hrun, hframe, hlast⟩
  refine ⟨last, ?_, hframe, hlast⟩
  rw [Effect.exec_read_bind, hupdate memory' huntouched, ← RankStorage.family_address hstorage item]
  exact hrun

/-- The elements of a vector. -/
def elements (vector : DenseBlasVectorView type) (count : Nat) (memory : Nat → Cell)
    (index : Fin count) : V :=
  vector.value memory index.val

/-- The conjugated vector of a Hermitian update. -/
def conjugated {count : Nat} (hermitian : Bool) (vector : Fin count → V) (index : Fin count) : V :=
  if hermitian then star (vector index) else vector index

omit [CommRing V] [StarRing V] [ExactScalar V] in
/-- A vector apart from the output keeps its elements. -/
theorem value_of_untouched {storage : RankStorage type} (hstorage : storage.Checked)
    (hx : x.Checked) (hsize : x.size = storage.order)
    (hoverlap : overlap x.reachableStorage (storage.operand triangle).reachableStorage = false)
    {memory' : Nat → Cell} (huntouched : (storage.family hstorage triangle).Untouched memory memory')
    (index : Fin storage.order.toNat) : x.value memory' index.val = x.value memory index.val := by
  have hagree := agreeOn_of_untouched (RankStorage.family_inside hstorage)
    (overlap_eq_false hoverlap) huntouched
  exact (hx.value_congr (Int.natCast_nonneg _) (by omega) hagree).symm

variable [DecidableEq V]

theorem rankOne_updates {storage : RankStorage type} (hstorage : storage.Checked) (hx : x.Checked)
    (hvalid : validateRankUpdate context x x (storage.operand triangle) = .ok ())
    (hsize : x.size = storage.order) {alpha : V} {hermitian : Bool}
    (halpha : hermitian = true → star alpha = alpha) (hnonzero : alpha ≠ 0) :
    Effect.Updates (storage.family hstorage triangle)
      (rankOne context triangle alpha x (storage.operand triangle) hermitian)
      (fun old item =>
        (alpha • vecMulVec (elements x storage.order.toNat memory)
          (conjugated hermitian (elements x storage.order.toNat memory))) item.1.1 item.1.2 +
            kept hermitian item (old item)) memory := by
  have hsize' : ¬ x.size ≠ (storage.operand triangle).order := by
    rw [storage.operand_order]
    exact not_not.2 hsize
  rw [rankOne, hvalid, Effect.ofResult_ok_bind, failIf, if_neg hsize', Effect.ofResult_ok_bind,
    if_neg hnonzero]
  simp only [validateRankUpdate, Result.unit_bind_eq_ok_iff, Result.failIf_eq_ok_iff, not_or,
    Bool.not_eq_true] at hvalid
  -- The elements of the vector are the old ones in every round, and their product is reflected.
  apply addUpdates_updates hstorage
  · intro memory' huntouched row column
    have hvalue := value_of_untouched hstorage hx hsize hvalid.2.2.2.2.1 huntouched
    rw [maybeConjugate_eq, hvalue, hvalue, mul_assoc]
    rfl
  · intro row column
    simp only [Matrix.smul_apply, vecMulVec_apply, smul_eq_mul, conjugated]
    cases hermitian with
    | true =>
      simp only [if_true, star_mul', star_star, halpha rfl]
      ring
    | false =>
      simp only [Bool.false_eq_true, if_false]
      ring

theorem rankTwo_updates {storage : RankStorage type} (hstorage : storage.Checked) (hx : x.Checked)
    (hy : y.Checked) (hvalid : validateRankUpdate context x y (storage.operand triangle) = .ok ())
    (hxsize : x.size = storage.order) (hysize : y.size = storage.order) {alpha : V}
    {hermitian : Bool} (hnonzero : alpha ≠ 0) :
    Effect.Updates (storage.family hstorage triangle)
      (rankTwo context triangle alpha x y (storage.operand triangle) hermitian)
      (fun old item =>
        (alpha • vecMulVec (elements x storage.order.toNat memory)
            (conjugated hermitian (elements y storage.order.toNat memory)) +
          (if hermitian then star alpha else alpha) •
            vecMulVec (elements y storage.order.toNat memory)
              (conjugated hermitian (elements x storage.order.toNat memory))) item.1.1 item.1.2 +
            kept hermitian item (old item)) memory := by
  have hsize' : ¬ (x.size ≠ (storage.operand triangle).order ∨
      y.size ≠ (storage.operand triangle).order) := by
    rw [storage.operand_order]
    omega
  rw [rankTwo, hvalid, Effect.ofResult_ok_bind, failIf, if_neg hsize', Effect.ofResult_ok_bind,
    if_neg hnonzero]
  simp only [validateRankUpdate, Result.unit_bind_eq_ok_iff, Result.failIf_eq_ok_iff, not_or,
    Bool.not_eq_true] at hvalid
  -- As for one vector; here the two products reflect into each other.
  apply addUpdates_updates hstorage
  · intro memory' huntouched row column
    have hxvalue := value_of_untouched hstorage hx hxsize hvalid.2.2.2.2.1 huntouched
    have hyvalue := value_of_untouched hstorage hy hysize hvalid.2.2.2.2.2 huntouched
    simp only [maybeConjugate_eq, hxvalue, hyvalue, mul_assoc]
    rfl
  · intro row column
    simp only [Matrix.add_apply, Matrix.smul_apply, vecMulVec_apply, smul_eq_mul, conjugated]
    cases hermitian with
    | true =>
      simp only [if_true, star_add, star_mul', star_star]
      ring
    | false =>
      simp only [Bool.false_eq_true, if_false]
      ring

/-! ## Updates of level 3 -/

variable {transposition : DenseBlasTranspose} {left right output : DenseBlasMatrixView type}

/-- The matrix that a transpose argument makes of an input. -/
def operand (transposition : DenseBlasTranspose) (matrix : DenseBlasMatrixView type)
    (order inner : Nat) (memory : Nat → Cell) : Matrix (Fin order) (Fin inner) V :=
  asMatrix order inner (transposed transposition (matrix.value memory))

omit [DecidableEq V] in
/-- An input that keeps its bytes is read as it was. -/
theorem operationAt_of_agree (hleft : left.Checked) {memory' : Nat → Cell}
    (hagree : AgreeOn left.reachableStorage.block memory memory') {order inner : Nat}
    (horder : (order : Int) = outputSize transposition left.rows left.columns)
    (hinner : (inner : Int) = inputSize transposition left.rows left.columns)
    (row : Fin order) (column : Fin inner) :
    operationAt (left.value memory') transposition row.val column.val =
      operand transposition left order inner memory row column := by
  have hvalue : ∀ row column, 0 ≤ row ∧ row < left.rows → 0 ≤ column ∧ column < left.columns →
      left.value memory' row column = left.value memory row column :=
    fun row column hrow hcolumn => (hleft.value_congr hrow hcolumn hagree).symm
  rw [operationAt_eq, operand, asMatrix_apply]
  unfold transposed
  -- Each operation reads inside the input, which the frame leaves as it was.
  cases transposition with
  | none =>
    rw [outputSize, if_pos rfl] at horder
    rw [inputSize, if_pos rfl] at hinner
    exact hvalue _ _ (by omega) (by omega)
  | transpose =>
    rw [outputSize, if_neg (by decide)] at horder
    rw [inputSize, if_neg (by decide)] at hinner
    exact hvalue _ _ (by omega) (by omega)
  | conjugateTranspose =>
    rw [outputSize, if_neg (by decide)] at horder
    rw [inputSize, if_neg (by decide)] at hinner
    exact congrArg star (hvalue _ _ (by omega) (by omega))

omit [DecidableEq V] in
/-- An input apart from the output keeps its bytes. -/
theorem operationAt_of_untouched (houtput : (RankStorage.full output).Checked)
    (hleft : left.Checked)
    (hoverlap : overlap left.reachableStorage output.reachableStorage = false)
    {memory' : Nat → Cell}
    (huntouched : ((RankStorage.full output).family houtput triangle).Untouched memory memory')
    {order inner : Nat} (horder : (order : Int) = outputSize transposition left.rows left.columns)
    (hinner : (inner : Int) = inputSize transposition left.rows left.columns)
    (row : Fin order) (column : Fin inner) :
    operationAt (left.value memory') transposition row.val column.val =
      operand transposition left order inner memory row column :=
  operationAt_of_agree hleft (agreeOn_of_untouched (RankStorage.family_inside houtput)
    (overlap_eq_false hoverlap) huntouched) horder hinner row column

/-- `alpha A Bᵀ`, with the exchanged product added on request. -/
def symmetricUpdate {order inner : Nat} (alpha : V) (A B : Matrix (Fin order) (Fin inner) V)
    (rankTwo : Bool) : Matrix (Fin order) (Fin order) V :=
  alpha • (A * Bᵀ + if rankTwo then B * Aᵀ else 0)

/-- `alpha A Bᴴ`, with the exchanged product added on request. -/
def hermitianUpdate {order inner : Nat} (alpha : V) (A B : Matrix (Fin order) (Fin inner) V)
    (rankTwo : Bool) : Matrix (Fin order) (Fin order) V :=
  alpha • (A * Bᴴ) + if rankTwo then star alpha • (B * Aᴴ) else 0

omit [StarRing V] [ExactScalar V] in
/-- The loop over the inner index of a symmetric product. -/
theorem symmetricProduct_eq {order inner : Nat} {alpha : V} {rankTwo : Bool}
    {access access' : Int → Int → V} {A B : Matrix (Fin order) (Fin inner) V}
    (hA : ∀ row index, access (row : Fin order).val (index : Fin inner).val = A row index)
    (hB : ∀ row index, access' (row : Fin order).val (index : Fin inner).val = B row index)
    (row column : Fin order) :
    alpha * symmetricProduct alpha inner access access' rankTwo row.val column.val =
      symmetricUpdate alpha A B rankTwo row column := by
  unfold symmetricProduct symmetricUpdate
  split
  · cases rankTwo with
    | true =>
      simp only [if_true, add_assoc, foldl_add_all, hA, hB, Finset.sum_add_distrib]
      rfl
    | false =>
      simp only [Bool.false_eq_true, if_false, foldl_add_all, hA, hB, add_zero]
      rfl
  · rename_i hzero
    rw [not_not.1 hzero, zero_mul, zero_smul]
    rfl

/-- The same for a Hermitian product. -/
theorem hermitianProduct_eq {order inner : Nat} {alpha : V} {rankTwo : Bool}
    {access access' : Int → Int → V} {A B : Matrix (Fin order) (Fin inner) V}
    (hA : ∀ row index, access (row : Fin order).val (index : Fin inner).val = A row index)
    (hB : ∀ row index, access' (row : Fin order).val (index : Fin inner).val = B row index)
    (row column : Fin order) :
    hermitianProduct alpha inner access access' rankTwo row.val column.val =
      hermitianUpdate alpha A B rankTwo row column := by
  unfold hermitianProduct hermitianUpdate
  split
  · cases rankTwo with
    | true =>
      simp only [if_true, add_assoc, conjugate_eq, mul_assoc, foldl_add_all, hA, hB,
        Finset.sum_add_distrib, ← Finset.mul_sum]
      rfl
    | false =>
      simp only [Bool.false_eq_true, if_false, conjugate_eq, mul_assoc, foldl_add_all, hA, hB,
        ← Finset.mul_sum, add_zero]
      rfl
  · rename_i hzero
    rw [not_not.1 hzero, star_zero, zero_smul, zero_smul, ite_self, add_zero]
    rfl

omit [CommRing V] [StarRing V] [ExactScalar V] [DecidableEq V] in
/-- What the common checks establish. -/
theorem validateRankK_spec (h : validateRankK context left right output = .ok ()) :
    overlap left.reachableStorage output.reachableStorage = false ∧
      overlap right.reachableStorage output.reachableStorage = false ∧
      left.rows = right.rows ∧ left.columns = right.columns ∧ output.rows = output.columns := by
  simp only [validateRankK, validateMatrices, Result.unit_bind_eq_ok_iff, Result.failIf_eq_ok_iff,
    not_or, not_not, Bool.not_eq_true] at h
  exact ⟨h.1.2.2.2.2.2.1, h.1.2.2.2.2.2.2, h.2.1.1, h.2.1.2, h.2.2⟩

omit [DecidableEq V] in
/-- The inputs of a rank-k update, as matrices. -/
theorem rankK_operands (houtput : (RankStorage.full output).Checked) (hleft : left.Checked)
    (hright : right.Checked) (hvalid : validateRankK context left right output = .ok ())
    (horder : output.rows = outputSize transposition left.rows left.columns)
    {memory' : Nat → Cell}
    (huntouched : ((RankStorage.full output).family houtput triangle).Untouched memory memory')
    {inner : Nat} (hinner : (inner : Int) = inputSize transposition left.rows left.columns)
    (row : Fin output.rows.toNat) (column : Fin inner) :
    operationAt (left.value memory') transposition row.val column.val =
        operand transposition left output.rows.toNat inner memory row column ∧
      operationAt (right.value memory') transposition row.val column.val =
        operand transposition right output.rows.toNat inner memory row column := by
  rcases validateRankK_spec hvalid with ⟨hleftApart, hrightApart, hrows, hcolumns, -⟩
  have hcount : ((output.rows.toNat : Nat) : Int) = outputSize transposition left.rows left.columns := by
    rw [Int.toNat_of_nonneg houtput.1.extents.1, horder]
  refine ⟨operationAt_of_untouched houtput hleft hleftApart huntouched hcount hinner row column, ?_⟩
  rw [hrows, hcolumns] at hcount hinner
  exact operationAt_of_untouched houtput hright hrightApart huntouched hcount hinner row column

/-- The number of columns of `op(A)`. -/
def innerSize (transposition : DenseBlasTranspose) (left : DenseBlasMatrixView type) : Nat :=
  (inputSize transposition left.rows left.columns).toNat

omit [CommRing V] [StarRing V] [ExactScalar V] [DecidableEq V] in
theorem innerSize_eq (h : left.Checked) (transposition : DenseBlasTranspose) :
    (innerSize transposition left : Int) = inputSize transposition left.rows left.columns := by
  have hextents := h.extents
  apply Int.toNat_of_nonneg
  unfold inputSize
  split <;> omega

theorem symmetricRankK_updates (houtput : (RankStorage.full output).Checked) (hleft : left.Checked)
    (hright : right.Checked) {alpha beta : V} {rankTwo : Bool}
    (hvalid : validateSymmetricRankK (V := V) context transposition left right output = .ok ()) :
    Effect.Updates ((RankStorage.full output).family houtput triangle)
      (symmetricRankK context triangle transposition alpha left right output beta rankTwo)
      (fun old item =>
        symmetricUpdate alpha
          (operand transposition left output.rows.toNat (innerSize transposition left) memory)
          (operand transposition right output.rows.toNat (innerSize transposition left) memory)
          rankTwo item.1.1 item.1.2 + beta * old item) memory := by
  rw [symmetricRankK, hvalid, Effect.ofResult_ok_bind]
  simp only [validateSymmetricRankK, Result.unit_bind_eq_ok_iff, Result.failIf_eq_ok_iff,
    not_not] at hvalid
  have htotal : outputSize transposition left.rows left.columns = (output.rows.toNat : Int) := by
    rw [Int.toNat_of_nonneg houtput.1.extents.1, hvalid.2.2]
  refine @forTriangle_updates _ _ _ _ _ _ _
    (fun item value => symmetricUpdate alpha _ _ rankTwo item.1.1 item.1.2 + beta * value) _ htotal
    memory ?_
  intro item memory' huntouched
  have hoperands := rankK_operands houtput hleft hright hvalid.2.1 hvalid.2.2 huntouched
    (innerSize_eq hleft transposition)
  have hproduct := @symmetricProduct_eq _ _ _ _ _ alpha rankTwo _ _ _ _
    (fun row index => (hoperands row index).1) (fun row index => (hoperands row index).2)
    item.1.1 item.1.2
  rw [innerSize_eq hleft] at hproduct
  -- The sum over the inner dimension is an entry of the product of the operands.
  have hstored : combined alpha
      (symmetricProduct alpha (inputSize transposition left.rows left.columns)
        (operationAt (left.value memory') transposition)
        (operationAt (right.value memory') transposition) rankTwo item.1.1.val item.1.2.val) beta
      (output.value memory' item.1.1.val item.1.2.val) =
        symmetricUpdate alpha
          (operand transposition left output.rows.toNat (innerSize transposition left) memory)
          (operand transposition right output.rows.toNat (innerSize transposition left) memory)
          rankTwo item.1.1 item.1.2 +
          beta * output.value memory' item.1.1.val item.1.2.val := by
    rw [combined, beta_eq, hproduct]
  rcases @Effect.updates_store _ _ _ _ ((RankStorage.full output).family houtput triangle) _ item
    _ memory' with ⟨last, hrun, hframe, hlast⟩
  refine ⟨last, ?_, hframe, hlast.trans (congrArg (Function.update _ item) hstored)⟩
  rw [Effect.exec_read_bind]
  exact hrun

theorem hermitianRankK_updates (houtput : (RankStorage.full output).Checked) (hleft : left.Checked)
    (hright : right.Checked) {alpha beta : V} {rankTwo : Bool}
    (hvalid : validateHermitianRankK context transposition left right output = .ok ())
    (hbeta : star beta = beta)
    (hupdate : Reflected true (hermitianUpdate alpha
      (operand transposition left output.rows.toNat (innerSize transposition left) memory)
      (operand transposition right output.rows.toNat (innerSize transposition left) memory)
      rankTwo)) :
    Effect.Updates ((RankStorage.full output).family houtput triangle)
      (hermitianRankK context triangle transposition alpha left right output beta rankTwo)
      (fun old item =>
        hermitianUpdate alpha
          (operand transposition left output.rows.toNat (innerSize transposition left) memory)
          (operand transposition right output.rows.toNat (innerSize transposition left) memory)
          rankTwo item.1.1 item.1.2 + beta * kept true item (old item)) memory := by
  rw [hermitianRankK, hvalid, Effect.ofResult_ok_bind]
  simp only [validateHermitianRankK, Result.unit_bind_eq_ok_iff, Result.failIf_eq_ok_iff,
    not_not] at hvalid
  have htotal : outputSize transposition left.rows left.columns = (output.rows.toNat : Int) := by
    rw [Int.toNat_of_nonneg houtput.1.extents.1, hvalid.2.2]
  refine @forTriangle_updates _ _ _ _ _ _ _
    (fun item value => hermitianUpdate alpha _ _ rankTwo item.1.1 item.1.2 +
      beta * kept true item value) _ htotal memory ?_
  intro item memory' huntouched
  have hoperands := rankK_operands houtput hleft hright hvalid.2.1 hvalid.2.2 huntouched
    (innerSize_eq hleft transposition)
  have hproduct := @hermitianProduct_eq _ _ _ _ _ _ _ alpha rankTwo _ _ _ _
    (fun row index => (hoperands row index).1) (fun row index => (hoperands row index).2)
    item.1.1 item.1.2
  rw [innerSize_eq hleft] at hproduct
  have hdiagonal : (item.1.1.val : Int) = item.1.2.val ↔ item.1.1 = item.1.2 := by
    rw [Fin.ext_iff, Int.ofNat_inj]
  have hstored : hermitianResult
      (hermitianProduct alpha (inputSize transposition left.rows left.columns)
        (operationAt (left.value memory') transposition)
        (operationAt (right.value memory') transposition) rankTwo item.1.1.val item.1.2.val) beta
      (output.value memory' item.1.1.val item.1.2.val) item.1.1.val item.1.2.val =
        hermitianUpdate alpha
          (operand transposition left output.rows.toNat (innerSize transposition left) memory)
          (operand transposition right output.rows.toNat (innerSize transposition left) memory)
          rankTwo item.1.1 item.1.2 +
          beta * kept true item (output.value memory' item.1.1.val item.1.2.val) := by
    rw [hproduct, hermitianResult, kept, beta_eq]
    -- A diagonal element is stored without its imaginary part, which is zero in the product.
    by_cases hitem : item.1.1 = item.1.2
    · have hself := hupdate item.1.2 item.1.2
      rw [if_pos rfl] at hself
      simp only [hitem, and_self, if_true]
      apply ExactScalar.realPart_of_star
      rw [star_add, ← hself, star_mul', hbeta, ExactScalar.star_realPart]
    · simp only [hdiagonal, hitem, and_false, if_false]
  rcases @Effect.updates_store _ _ _ _ ((RankStorage.full output).family houtput triangle) _ item
    _ memory' with ⟨last, hrun, hframe, hlast⟩
  refine ⟨last, ?_, hframe, hlast.trans (congrArg (Function.update _ item) hstored)⟩
  rw [Effect.exec_read_bind]
  exact hrun

end Exact

end Blas
end Dense
end AscCpp
