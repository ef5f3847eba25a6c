import AscCpp.Library.Sweep
import AscCpp.Sparse.Blas.Triangular
import Mathlib.Algebra.BigOperators.Fin
import Mathlib.Algebra.Star.Rat

/-!
# TriangularSolve — substitution solves the triangular system

The rows of a right-hand side are replaced in an order in which every row comes after those that it
needs; so each of them is computed from final values.

- `sweep_solves`: what the replaced values satisfy.
- `substitute_updates`: the substitution is such a sweep, and divides by no zero.
- `triangular_solve_correct`: both solvers turn `b` into the `x` with `op(T) x = alpha b`.
-/

namespace AscCpp
namespace Sparse
namespace Blas

open AscCpp.Core Library

variable {Cell V : Type} [Field V] [StarRing V] {type : Representation Cell V}
  {format : SparseCompressedFormat} {triangular : SparseBlasTriangularView type format}
  {memory : Nat → Cell} {transposition : SparseBlasTranspose}

/-! ## The triangular system -/

theorem skips_self (lower : Bool) (row : Int) : Skips lower row row := by
  cases lower with
  | false => exact .inr ⟨rfl, le_rfl⟩
  | true => exact .inl ⟨rfl, le_rfl⟩

/-- What the substitution leaves out is zero, or on the diagonal. -/
theorem Triangular.zero_of_skips (h : Triangular triangular memory) {row column : Int}
    (hskips : Skips (solvesLower transposition triangular) row column) (hne : row ≠ column) :
    transformedValue triangular.matrix memory transposition row column = 0 := by
  have hzero := h.zero_outside
  unfold Skips solvesLower at hskips
  -- A transposition turns the triangle over, and the order of the rows with it.
  cases transposition with
  | none =>
    refine hzero row column ?_
    cases htriangle : triangular.triangle <;> simp [htriangle] at hskips <;>
      simp only [Outside] <;> omega
  | transpose =>
    refine hzero column row ?_
    cases htriangle : triangular.triangle <;> simp [htriangle] at hskips <;>
      simp only [Outside] <;> omega
  | conjugateTranspose =>
    refine Eq.trans (congrArg star (hzero column row ?_)) (star_zero V)
    cases htriangle : triangular.triangle <;> simp [htriangle] at hskips <;>
      simp only [Outside] <;> omega

/-- The divisor of a row. -/
def pivot (triangular : SparseBlasTriangularView type format) (memory : Nat → Cell)
    (transposition : SparseBlasTranspose) (row : Int) : V :=
  match triangular.diagonal with
  | .nonUnit => transformedValue triangular.matrix memory transposition row row
  | .unit => 1

theorem Triangular.pivot_ne_zero (h : Triangular triangular memory) {row : Nat}
    (hrow : (row : Int) < triangular.matrix.rows) :
    pivot triangular memory transposition row ≠ 0 := by
  unfold pivot
  cases hdiagonal : triangular.diagonal with
  | unit => exact one_ne_zero
  | nonUnit =>
    have hvalue := h.diagonal_ne_zero hdiagonal row hrow
    cases transposition with
    | none => exact hvalue
    | transpose => exact hvalue
    | conjugateTranspose => exact star_ne_zero.2 hvalue

theorem operatorValue_self (row : Int) :
    operatorValue triangular memory transposition row row =
      pivot triangular memory transposition row := by
  unfold operatorValue pivot
  cases hdiagonal : triangular.diagonal <;> cases transposition <;>
    simp [transposedValue, transformedValue, triangularValue, hdiagonal]

theorem operatorValue_of_ne {row column : Int} (hne : row ≠ column) :
    operatorValue triangular memory transposition row column =
      transformedValue triangular.matrix memory transposition row column := by
  unfold operatorValue
  cases transposition <;>
    simp [transposedValue, transformedValue, triangularValue, hne, Ne.symm hne]

/-- The new value of a row. -/
def solvedValue (triangular : SparseBlasTriangularView type format) (memory : Nat → Cell)
    (transposition : SparseBlasTranspose) (alpha : V) {count : Nat} (row : Fin count)
    (rightHandSide : Fin count → V) : V :=
  (alpha * rightHandSide row - ∑ column : Fin count,
    if Skips (solvesLower transposition triangular) row.val column.val then 0
    else transformedValue triangular.matrix memory transposition row.val column.val *
      rightHandSide column) / pivot triangular memory transposition row.val

/-- A row of the triangular system, as the substitution splits it. -/
theorem Triangular.row_split (h : Triangular triangular memory) {count : Nat} (row : Fin count)
    (solution : Fin count → V) :
    ∑ column : Fin count,
        operatorValue triangular memory transposition row.val column.val * solution column =
      pivot triangular memory transposition row.val * solution row + ∑ column : Fin count,
        if Skips (solvesLower transposition triangular) row.val column.val then 0
        else transformedValue triangular.matrix memory transposition row.val column.val *
          solution column := by
  have hdiagonal : pivot triangular memory transposition row.val * solution row =
      ∑ column : Fin count, if column = row then
        pivot triangular memory transposition row.val * solution column else 0 := by
    rw [Fintype.sum_ite_eq']
  rw [hdiagonal, ← Finset.sum_add_distrib]
  apply Finset.sum_congr rfl
  intro column _
  -- The diagonal term is the pivot; the skipped terms are zero.
  by_cases heq : column = row
  · rw [heq, if_pos rfl, if_pos (skips_self _ _), operatorValue_self, add_zero]
  · have hne : ((row.val : Nat) : Int) ≠ column.val := fun hval =>
      heq (Fin.ext (Int.ofNat.inj hval.symm))
    rw [if_neg heq, zero_add, operatorValue_of_ne hne]
    split
    · rw [h.zero_of_skips ‹_› hne, zero_mul]
    · rfl

/-! ## The sweep over the rows -/

/-- The order of the rows. -/
def rowOrder (lower : Bool) (count : Nat) : List (Fin count) :=
  if lower then List.finRange count else (List.finRange count).map Fin.rev

theorem mem_rowOrder (lower : Bool) {count : Nat} (row : Fin count) : row ∈ rowOrder lower count := by
  unfold rowOrder
  split
  · exact List.mem_finRange row
  · exact List.mem_map.2 ⟨row.rev, List.mem_finRange _, Fin.rev_rev row⟩

theorem rowOrder_nodup (lower : Bool) (count : Nat) : (rowOrder lower count).Nodup := by
  unfold rowOrder
  split
  · exact List.nodup_finRange count
  · exact (List.nodup_finRange count).map Fin.rev_injective

/-- A row is left out of the substitution of the rows before it. -/
theorem rowOrder_pairwise (lower : Bool) (count : Nat) :
    (rowOrder lower count).Pairwise fun row later => Skips lower row.val later.val := by
  unfold rowOrder
  cases lower with
  | true =>
    refine (List.pairwise_lt_finRange count).imp fun {row later} hlt => .inl ⟨rfl, ?_⟩
    omega
  | false =>
    refine List.pairwise_map.2 ((List.pairwise_lt_finRange count).imp fun {row later} hlt =>
      .inr ⟨rfl, ?_⟩)
    rw [Fin.val_rev, Fin.val_rev]
    omega

/-- What the replaced values satisfy.  An item stands in a row, and its column holds an item for
every row; the right-hand sides are the columns. -/
theorem sweep_solves (h : Triangular triangular memory) (alpha : V) {ι : Type} [DecidableEq ι]
    {count : Nat} (hcount : (count : Int) = triangular.matrix.rows) {row : ι → Fin count}
    {column : ι → Fin count → ι} (hself : ∀ item, column item (row item) = item)
    (hrow : ∀ item other, row (column item other) = other) {items : List ι}
    (hnodup : items.Nodup) (hclosed : ∀ item ∈ items, ∀ other, column item other ∈ items)
    (hpairwise : items.Pairwise fun item later => ∀ other, later = column item other →
      Skips (solvesLower transposition triangular) (row item).val other.val)
    (values : ι → V) {item : ι} (hitem : item ∈ items) {final : ι → V}
    (hfinal : final = sweep (fun item values =>
      solvedValue triangular memory transposition alpha (row item)
        fun other => values (column item other)) items values) :
    ∑ other : Fin count, operatorValue triangular memory transposition (row item).val other.val *
      final (column item other) = alpha * values item := by
  -- When a row is solved, the rows it needs are final and its own is still the right side.
  have hsweep := @sweep_apply ι V _
    (fun item values => solvedValue triangular memory transposition alpha (row item)
      fun other => values (column item other))
    (fun item other => ∃ place, other = column item place ∧
      ¬ Skips (solvesLower transposition triangular) (row item).val place.val)
    [] items hnodup (List.forall_mem_nil _)
    (precedes_of_pairwise
      (fun item ⟨place, hplace, hskips⟩ => hskips (by
        have heq := hrow item place
        rw [← hplace] at heq
        rw [heq]
        exact skips_self _ _))
      (fun item hitem other ⟨place, hplace, _⟩ => .inr (hplace ▸ hclosed item hitem place))
      (hpairwise.imp fun hlater ⟨place, hplace, hskips⟩ => hskips (hlater place hplace)))
    (fun item values values' hitem hneeds => ?_) values item hitem
  · have hpivot := @Triangular.pivot_ne_zero _ _ _ _ _ _ _ _ transposition h (row item).val
      (by omega)
    -- The columns that are not skipped are other rows, which the update leaves alone.
    have hother : ∀ place, ¬ Skips (solvesLower transposition triangular) (row item).val place.val →
        Function.update final item (values item) (column item place) =
          final (column item place) := by
      intro place hskips
      apply Function.update_of_ne
      intro heq
      have hplace := hrow item place
      rw [heq] at hplace
      rw [hplace] at hskips
      exact hskips (skips_self _ _)
    rw [← hfinal] at hsweep
    simp only [solvedValue, hself, Function.update_self] at hsweep
    have hterms : ∀ place : Fin count,
        (if Skips (solvesLower transposition triangular) (row item).val place.val then 0
          else transformedValue triangular.matrix memory transposition (row item).val place.val *
            Function.update final item (values item) (column item place)) =
          if Skips (solvesLower transposition triangular) (row item).val place.val then 0
          else transformedValue triangular.matrix memory transposition (row item).val place.val *
            final (column item place) := by
      intro place
      split
      · rfl
      · rw [hother place ‹_›]
    simp only [hterms] at hsweep
    rw [h.row_split, hself]
    nth_rewrite 1 [hsweep]
    rw [mul_div_cancel₀ _ hpivot, sub_add_cancel]
  · have hterms : ∀ place : Fin count,
        (if Skips (solvesLower transposition triangular) (row item).val place.val then 0
          else transformedValue triangular.matrix memory transposition (row item).val place.val *
            values (column item place)) =
          if Skips (solvesLower transposition triangular) (row item).val place.val then 0
          else transformedValue triangular.matrix memory transposition (row item).val place.val *
            values' (column item place) := by
      intro place
      split
      · rfl
      · rw [hneeds (column item place) ⟨place, rfl, ‹_›⟩]
    simp only [solvedValue, hself, hitem, hterms]

/-! ## The loops -/

variable [DecidableEq V]

omit [StarRing V] [DecidableEq V] in
/-- A subtraction that is left out in some rounds. -/
theorem foldl_sub_eq_sum (count : Nat) (skips : Nat → Prop) [DecidablePred skips]
    (term : Nat → V) (start : V) :
    (List.range count).foldl
      (fun value column => if skips column then value else value - term column) start =
      start - ∑ column : Fin count, if skips column.val then 0 else term column.val := by
  -- Subtracting in a loop is adding the negated terms.
  have hstep : (fun (value : V) column => if skips column then value else value - term column) =
      fun value column => value + if skips column then 0 else -term column := by
    funext value column
    split
    · rw [add_zero]
    · rw [sub_eq_add_neg]
  have hterms : ∑ column : Fin count, (if skips column.val then 0 else -term column.val) =
      -∑ column : Fin count, if skips column.val then 0 else term column.val := by
    rw [← Finset.sum_neg_distrib]
    apply Finset.sum_congr rfl
    intro column _
    split
    · rw [neg_zero]
    · rfl
  rw [hstep, foldl_add_eq_sum, sub_eq_add_neg, ← hterms,
    ← Finset.sum_range fun column => if skips column then 0 else -term column]
  rfl

/-- One round replaces the item of a row, and divides by no zero. -/
theorem solveRow_updates (h : Triangular triangular memory) (alpha : V) {ι : Type} [DecidableEq ι]
    {family : ElementFamily type ι} {count : Nat} (hcount : (count : Int) = triangular.matrix.rows)
    {address : Int → Nat} {column : Fin count → ι}
    (haddress : ∀ row : Fin count, family.address (column row) = address row.val) (row : Fin count)
    {memory' : Nat → Cell} (hagree : AgreeOn triangular.matrix.valueSpan memory memory') :
    Effect.Updates family (solveRow transposition alpha triangular address row.val)
      (fun values => Function.update values (column row)
        (solvedValue triangular memory transposition alpha row fun other =>
          values (column other))) memory' := by
  have hvalue : ∀ other, opValue triangular.matrix memory' transposition row.val other =
      transformedValue triangular.matrix memory transposition row.val other := by
    intro other
    rw [← opValue_eq h.canonical, opValue, opValue, h.canonical.matrixEntries_congr hagree]
  have hcolumns : triangular.matrix.columns.toNat = count := by
    have hsquare := h.square
    omega
  have hpivot := @Triangular.pivot_ne_zero _ _ _ _ _ _ _ _ transposition h row.val (by omega)
  have hload : ∀ other : Fin count, type.load memory' (address other.val) =
      family.values memory' (column other) := fun other => by rw [← haddress]; rfl
  rcases Effect.updates_store (column row) (solvedValue triangular memory transposition alpha row
    fun other => family.values memory' (column other)) memory' with
    ⟨memory'', hstore, hframe, hvalues⟩
  refine ⟨memory'', ?_, hframe, hvalues⟩
  rw [← hstore, haddress, solvedValue]
  simp only [solveRow, Effect.exec_read_bind, hcolumns, hvalue, foldl_sub_eq_sum, hload]
  unfold pivot at hpivot ⊢
  -- A unit diagonal is not read at all.
  cases hdiagonal : triangular.diagonal with
  | nonUnit =>
    rw [hdiagonal] at hpivot
    simp only [divide, if_neg hpivot, Effect.check_some_bind]
  | unit =>
    simp only [div_one]
    rfl

/-- The substitution goes through the rows in their order. -/
theorem substitute_eq (alpha : V) {count : Nat} (hcount : (count : Int) = triangular.matrix.rows)
    (address : Int → Nat) :
    substitute transposition alpha triangular address =
      forM (rowOrder (solvesLower transposition triangular) count) fun row =>
        solveRow transposition alpha triangular address row.val := by
  have hrows : triangular.matrix.rows.toNat = count := by omega
  rw [substitute, hrows, Effect.forM_range]
  unfold rowOrder solveOrder
  cases solvesLower transposition triangular with
  | true => rfl
  -- The source counts the rows down.
  | false =>
    simp only [Bool.false_eq_true, if_false, List.forM_map]
    congr 1
    funext step
    have hstep : triangular.matrix.rows - 1 - step.val = ((step.rev.val : Nat) : Int) := by
      rw [Fin.val_rev]
      omega
    rw [hstep]

/-- The substitution of one right-hand side, which leaves the values of the matrix alone. -/
theorem substitute_updates (h : Triangular triangular memory) (alpha : V) {ι : Type}
    [DecidableEq ι] {family : ElementFamily type ι}
    (hapart : ∀ memory', family.Untouched memory memory' →
      AgreeOn triangular.matrix.valueSpan memory memory')
    {count : Nat} (hcount : (count : Int) = triangular.matrix.rows) {address : Int → Nat}
    {column : Fin count → ι}
    (haddress : ∀ row : Fin count, family.address (column row) = address row.val)
    {memory' : Nat → Cell} (huntouched : family.Untouched memory memory') :
    Effect.Updates family (substitute transposition alpha triangular address)
      (fun values => (rowOrder (solvesLower transposition triangular) count).foldl
        (fun values row => Function.update values (column row)
          (solvedValue triangular memory transposition alpha row fun other =>
            values (column other))) values) memory' := by
  rw [substitute_eq alpha hcount]
  exact Effect.exec_forM_family memory' fun row _ memory'' huntouched' =>
    solveRow_updates h alpha hcount haddress row (hapart memory'' (huntouched.trans huntouched'))

/-! ## One right-hand side -/

/-- A view from `Create` that `SparseTriangularSolve` accepts. -/
structure SolveAccepts (context : ExecutionContext)
    (triangular : SparseBlasTriangularView type format)
    (rightHandSide : SparseBlasVectorView type) : Prop where
  checked : rightHandSide.Checked
  valid : validateSolve context triangular rightHandSide = .ok ()

/-- What a solver leaves behind: final values that solve the system, and zeros without `alpha`. -/
theorem solve_correct (h : Triangular triangular memory) (alpha : V) {context : ExecutionContext}
    {rightHandSide : SparseBlasVectorView type}
    (haccepts : SolveAccepts context triangular rightHandSide) :
    ∃ memory', Effect.exec
        (sparseTriangularSolve context transposition alpha triangular rightHandSide) memory =
          some (.ok (), memory') ∧
      (rightHandSide.family haccepts.checked).Untouched memory memory' ∧
      (∀ row : Fin rightHandSide.size.toNat,
        ∑ column : Fin rightHandSide.size.toNat,
          operatorValue triangular memory transposition row.val column.val *
            rightHandSide.value memory' column.val = alpha * rightHandSide.value memory row.val) ∧
      (alpha = 0 → ∀ row : Fin rightHandSide.size.toNat,
        rightHandSide.value memory' row.val = 0) := by
  have hvalid := haccepts.valid
  simp only [validateSolve, Result.unit_bind_eq_ok_iff, Result.failIf_eq_ok_iff, not_not,
    Bool.not_eq_true] at hvalid
  rcases hvalid with ⟨-, -, hsize, hoverlap⟩
  have hcount : (rightHandSide.size.toNat : Int) = triangular.matrix.rows := by
    have hnonneg := haccepts.checked.size_nonneg
    omega
  rw [sparseTriangularSolve, haccepts.valid, Effect.ofResult_ok_bind]
  -- For zero every element of the right side is set to zero, and zero solves the system.
  by_cases hzero : alpha = 0
  · rw [if_pos hzero, ← hsize, Effect.forM_range]
    rcases Effect.exec_forM_family memory fun row (_ : row ∈ List.finRange _) memory' _ =>
      @Effect.updates_store _ _ _ _ (rightHandSide.family haccepts.checked) _ row 0 memory' with
      ⟨memory', hrun, hframe, hvalues⟩
    have hall : ∀ row : Fin rightHandSide.size.toNat, rightHandSide.value memory' row.val = 0 :=
      fun row => (congrFun hvalues row).trans (@sweep_apply_of_local _ _ _ (fun _ _ => 0) _
        (List.nodup_finRange _) (fun _ _ _ _ => rfl) _ row (List.mem_finRange row))
    refine ⟨memory', hrun, hframe, fun row => ?_, fun _ => hall⟩
    simp only [hall, mul_zero, Finset.sum_const_zero, hzero, zero_mul]
  · rw [if_neg hzero]
    rcases @substitute_updates _ _ _ _ _ _ _ _ transposition _ h alpha _ _
      (rightHandSide.family haccepts.checked)
      (fun memory' huntouched => agreeOn_of_untouched
        (SparseBlasVectorView.family_inside haccepts.checked)
        (matrixOverlaps_eq_false hoverlap).2.2 huntouched)
      _ hcount rightHandSide.vectorAt id (fun _ => rfl) memory (.refl memory) with ⟨memory', hrun, hframe, hvalues⟩
    refine ⟨memory', hrun, hframe, fun row => ?_, fun h => absurd h hzero⟩
    exact @sweep_solves _ _ _ _ _ _ triangular memory transposition h alpha _ _ _ hcount id
      (fun _ other => other) (fun _ => rfl) (fun _ _ => rfl) _ (rowOrder_nodup _ _)
      (fun _ _ other => mem_rowOrder _ other)
      ((rowOrder_pairwise _ _).imp fun hskips other heq => heq ▸ hskips) _ row (mem_rowOrder _ row)
      _ hvalues


/-! ## Several right-hand sides -/

/-- The items of a matrix, column by column, with an order of the rows. -/
def columnItems {rows : Nat} (order : List (Fin rows)) (columns : Nat) :
    List (Fin rows × Fin columns) :=
  (List.finRange columns).flatMap fun column => order.map fun row => (row, column)

theorem mem_columnItems {rows columns : Nat} {order : List (Fin rows)}
    (horder : ∀ row, row ∈ order) (item : Fin rows × Fin columns) :
    item ∈ columnItems order columns :=
  List.mem_flatMap.2 ⟨item.2, List.mem_finRange _, List.mem_map.2 ⟨item.1, horder item.1, rfl⟩⟩

theorem columnItems_nodup {rows columns : Nat} {order : List (Fin rows)} (horder : order.Nodup) :
    (columnItems order columns).Nodup := by
  refine List.nodup_flatMap.2 ⟨fun column _ => horder.map fun row row' heq =>
    (Prod.mk.inj heq).1, (List.nodup_finRange columns).imp fun {column column'} hne => ?_⟩
  intro item hitem hitem'
  rcases List.mem_map.1 hitem with ⟨row, -, rfl⟩
  rcases List.mem_map.1 hitem' with ⟨row', -, heq⟩
  exact hne (Prod.mk.inj heq).2.symm

/-- Items of one column keep the order of the rows, and those of different columns do not meet. -/
theorem columnItems_pairwise {rows columns : Nat} {order : List (Fin rows)}
    {R : Fin rows → Fin rows → Prop} (horder : order.Pairwise R) :
    (columnItems order columns).Pairwise fun item later =>
      ∀ other, later = (other, item.2) → R item.1 other := by
  refine List.pairwise_flatMap.2 ⟨fun column _ => List.pairwise_map.2 (horder.imp ?_),
    (List.nodup_finRange columns).imp fun {column column'} hne => ?_⟩
  · intro row row' hrow other heq
    cases heq
    exact hrow
  · intro item hitem later hlater other heq
    rcases List.mem_map.1 hitem with ⟨row, -, rfl⟩
    rcases List.mem_map.1 hlater with ⟨row', -, rfl⟩
    exact absurd (Prod.mk.inj heq).2.symm hne

/-- A view from `Create` that `SparseTriangularSolveMultiple` accepts. -/
structure SolveMultipleAccepts (context : ExecutionContext)
    (triangular : SparseBlasTriangularView type format)
    (rightHandSides : SparseBlasMatrixView type) : Prop where
  checked : rightHandSides.Checked
  valid : validateSolveMultiple context triangular rightHandSides = .ok ()

/-- The solver for several right-hand sides solves the system for each of them. -/
theorem solveMultiple_correct (h : Triangular triangular memory) (alpha : V)
    {context : ExecutionContext} {rightHandSides : SparseBlasMatrixView type}
    (haccepts : SolveMultipleAccepts context triangular rightHandSides) :
    ∃ memory', Effect.exec
        (sparseTriangularSolveMultiple context transposition alpha triangular rightHandSides)
          memory = some (.ok (), memory') ∧
      (rightHandSides.family haccepts.checked).Untouched memory memory' ∧
      (∀ (row : Fin rightHandSides.rows.toNat) (rhs : Fin rightHandSides.columns.toNat),
        ∑ column : Fin rightHandSides.rows.toNat,
          operatorValue triangular memory transposition row.val column.val *
            rightHandSides.value memory' column.val rhs.val =
              alpha * rightHandSides.value memory row.val rhs.val) ∧
      (alpha = 0 → ∀ (row : Fin rightHandSides.rows.toNat)
        (rhs : Fin rightHandSides.columns.toNat),
          rightHandSides.value memory' row.val rhs.val = 0) := by
  have hvalid := haccepts.valid
  simp only [validateSolveMultiple, Result.unit_bind_eq_ok_iff, Result.failIf_eq_ok_iff, not_not,
    Bool.not_eq_true] at hvalid
  rcases hvalid with ⟨-, -, hrows, hoverlap⟩
  have hcount : (rightHandSides.rows.toNat : Int) = triangular.matrix.rows := by
    have hnonneg := haccepts.checked.spec.1.1
    omega
  rw [sparseTriangularSolveMultiple, haccepts.valid, Effect.ofResult_ok_bind, Effect.forM_range,
    Effect.forM_range]
  -- The same for each column of the right sides.
  by_cases hzero : alpha = 0
  · rw [if_pos hzero, ← hrows]
    simp only [Effect.forM_range]
    rcases Effect.exec_forM_family memory fun rhs (_ : rhs ∈ List.finRange _) memory' _ =>
      Effect.exec_forM_family memory' fun row (_ : row ∈ List.finRange _) memory'' _ =>
        @Effect.updates_store _ _ _ _ (rightHandSides.family haccepts.checked) _ (row, rhs) 0
          memory'' with
      ⟨memory', hrun, hframe, hvalues⟩
    have hsweep : (rightHandSides.family haccepts.checked).values memory' =
        sweep (fun _ _ => 0) (columnItems (List.finRange _) _)
          ((rightHandSides.family haccepts.checked).values memory) := by
      simpa only [sweep, columnItems, List.foldl_flatMap, List.foldl_map] using hvalues
    have hall : ∀ (row : Fin rightHandSides.rows.toNat) (rhs : Fin rightHandSides.columns.toNat),
        rightHandSides.value memory' row.val rhs.val = 0 := fun row rhs =>
      (congrFun hsweep (row, rhs)).trans (@sweep_apply_of_local _ _ _ (fun _ _ => 0) _
        (columnItems_nodup (List.nodup_finRange _)) (fun _ _ _ _ => rfl) _ _
        (mem_columnItems List.mem_finRange _))
    refine ⟨memory', hrun, hframe, fun row rhs => ?_, fun _ => hall⟩
    simp only [hall, mul_zero, Finset.sum_const_zero, hzero, zero_mul]
  · rw [if_neg hzero]
    have hround : ∀ rhs ∈ List.finRange rightHandSides.columns.toNat, ∀ memory',
        (rightHandSides.family haccepts.checked).Untouched memory memory' → _ :=
      fun rhs _ memory' huntouched =>
        @substitute_updates _ _ _ _ _ _ _ _ transposition _ h alpha _ _
          (rightHandSides.family haccepts.checked)
          (fun memory' huntouched => agreeOn_of_untouched
            (SparseBlasMatrixView.family_inside haccepts.checked)
            (matrixOverlaps_eq_false hoverlap).2.2 huntouched)
          _ hcount (fun row => rightHandSides.elementAt row rhs.val) (fun row => (row, rhs))
          (fun _ => rfl) memory' huntouched
    rcases Effect.exec_forM_family memory hround with ⟨memory', hrun, hframe, hvalues⟩
    refine ⟨memory', hrun, hframe, fun row rhs => ?_, fun h => absurd h hzero⟩
    refine @sweep_solves _ _ _ _ _ _ triangular memory transposition h alpha _ _ _ hcount Prod.fst
      (fun item other => (other, item.2)) (fun _ => rfl) (fun _ _ => rfl) _
      (columnItems_nodup (rowOrder_nodup _ _))
      (fun _ _ other => mem_columnItems (mem_rowOrder _) _)
      (columnItems_pairwise (rowOrder_pairwise _ _))
      ((rightHandSides.family haccepts.checked).values memory) (row, rhs)
      (mem_columnItems (mem_rowOrder _) _)
      ((rightHandSides.family haccepts.checked).values memory') ?_
    simpa only [sweep, columnItems, List.foldl_flatMap, List.foldl_map] using hvalues

/-! ## Both solvers -/

omit [StarRing V] [DecidableEq V] in
/-- The matrix stays triangular while its values are left alone. -/
theorem Triangular.congr {memory₀ : Nat → Cell} (h : Triangular triangular memory₀)
    (hagree : AgreeOn triangular.matrix.valueSpan memory₀ memory) : Triangular triangular memory := by
  have hvalue : ∀ row column, triangular.matrix.matrixValue memory row column =
      triangular.matrix.matrixValue memory₀ row column := by
    intro row column
    rw [CompressedSparseView.matrixValue, ← h.canonical.matrixEntries_congr hagree]
    rfl
  exact
    { canonical := h.canonical
      host := h.host
      square := h.square
      zero_outside := fun row column houtside => by
        rw [hvalue]
        exact h.zero_outside row column houtside
      diagonal_ne_zero := fun hnonUnit row hrow => by
        rw [hvalue]
        exact h.diagonal_ne_zero hnonUnit row hrow }

/-- With a triangular view that `Create` accepted, and whose values are still what they were, both
solvers come to an end without a division by zero and turn every right-hand side `b` into the `x`
with `op(T) x = alpha b`, changing no other cell; without `alpha` that is zero. -/
theorem triangular_solve_correct {memory₀ : Nat → Cell}
    {matrix : CompressedSparseView (Stored type) format} (hmatrix : matrix.Checked)
    {triangle : SparseBlasTriangle} {diagonal : SparseBlasDiagonal}
    (hcreate : SparseBlasTriangularView.create memory₀ matrix triangle diagonal = .ok triangular)
    (hagree : AgreeOn matrix.valueSpan memory₀ memory) (context : ExecutionContext)
    (transposition : SparseBlasTranspose) (alpha : V) :
    (∀ (rightHandSide : SparseBlasVectorView type)
        (haccepts : SolveAccepts context triangular rightHandSide),
      ∃ memory', Effect.exec
          (sparseTriangularSolve context transposition alpha triangular rightHandSide) memory =
            some (.ok (), memory') ∧
        (rightHandSide.family haccepts.checked).Untouched memory memory' ∧
        (∀ row : Fin rightHandSide.size.toNat,
          ∑ column : Fin rightHandSide.size.toNat,
            operatorValue triangular memory transposition row.val column.val *
              rightHandSide.value memory' column.val =
                alpha * rightHandSide.value memory row.val) ∧
        (alpha = 0 → ∀ row : Fin rightHandSide.size.toNat,
          rightHandSide.value memory' row.val = 0)) ∧
    ∀ (rightHandSides : SparseBlasMatrixView type)
        (haccepts : SolveMultipleAccepts context triangular rightHandSides),
      ∃ memory', Effect.exec
          (sparseTriangularSolveMultiple context transposition alpha triangular rightHandSides)
            memory = some (.ok (), memory') ∧
        (rightHandSides.family haccepts.checked).Untouched memory memory' ∧
        (∀ (row : Fin rightHandSides.rows.toNat) (rhs : Fin rightHandSides.columns.toNat),
          ∑ column : Fin rightHandSides.rows.toNat,
            operatorValue triangular memory transposition row.val column.val *
              rightHandSides.value memory' column.val rhs.val =
                alpha * rightHandSides.value memory row.val rhs.val) ∧
        (alpha = 0 → ∀ (row : Fin rightHandSides.rows.toNat)
          (rhs : Fin rightHandSides.columns.toNat),
            rightHandSides.value memory' row.val rhs.val = 0) := by
  rcases create_spec hmatrix hcreate with ⟨rfl, htriangular⟩
  have hkept := htriangular.congr hagree
  exact ⟨fun _ haccepts => solve_correct hkept alpha haccepts,
    fun _ haccepts => solveMultiple_correct hkept alpha haccepts⟩

/-! ### Two rows -/

/-- The numbers of the samples. -/
abbrev rational : Representation Rat Rat := .uniform Rat 8 8 Representation.eight_pos

/-- A lower triangle of two rows that is full. -/
def sampleTriangle : SparseBlasTriangularView rational .csr :=
  ⟨.ofHost .csr ⟨8, [0, 1, 3]⟩ ⟨32, [0, 0, 1]⟩ ⟨56, []⟩ (2 ::ᵥ 2 ::ᵥ List.Vector.nil) 3, .lower,
    .nonUnit⟩

def sampleRightHandSide : SparseBlasVectorView rational :=
  ⟨80, 2, 1, ⟨80, 16, .host⟩, 80, 16⟩

/-- Two right-hand sides, in rows with padding. -/
def sampleRightHandSides : SparseBlasMatrixView rational :=
  ⟨80, 2, 2, .rowMajor, 3, ⟨80, 40, .host⟩, ⟨80, 40⟩⟩

/-- Every cell holds its own address. -/
def rationalMemory (cell : Nat) : Rat :=
  cell

theorem sampleTriangle_create :
    SparseBlasTriangularView.create rationalMemory sampleTriangle.matrix .lower .nonUnit =
      .ok sampleTriangle := by
  rfl

/-- The second row is solved with what the first one has become. -/
theorem triangular_solve_sample :
    (∃ memory', Effect.exec
        (sparseTriangularSolve .serial .none 2 sampleTriangle sampleRightHandSide) rationalMemory =
          some (.ok (), memory') ∧
      operatorValue sampleTriangle rationalMemory .none 1 0 * sampleRightHandSide.value memory' 0 +
          operatorValue sampleTriangle rationalMemory .none 1 1 *
            sampleRightHandSide.value memory' 1 =
        2 * sampleRightHandSide.value rationalMemory 1) ∧
    ∃ memory', Effect.exec
        (sparseTriangularSolveMultiple .serial .conjugateTranspose 2 sampleTriangle
          sampleRightHandSides) rationalMemory = some (.ok (), memory') ∧
      operatorValue sampleTriangle rationalMemory .conjugateTranspose 0 0 *
            sampleRightHandSides.value memory' 0 1 +
          operatorValue sampleTriangle rationalMemory .conjugateTranspose 0 1 *
            sampleRightHandSides.value memory' 1 1 =
        2 * sampleRightHandSides.value rationalMemory 0 1 := by
  have hmatrix : sampleTriangle.matrix.Checked := rfl
  have hagree : AgreeOn sampleTriangle.matrix.valueSpan rationalMemory rationalMemory :=
    fun _ _ _ => rfl
  constructor
  · rcases (triangular_solve_correct hmatrix sampleTriangle_create hagree .serial .none 2).1
      sampleRightHandSide ⟨rfl, rfl⟩ with ⟨memory', hrun, -, hsolves, -⟩
    refine ⟨memory', hrun, ?_⟩
    exact (Fin.sum_univ_two fun column : Fin 2 =>
      operatorValue sampleTriangle rationalMemory .none 1 column.val *
        sampleRightHandSide.value memory' column.val).symm.trans (hsolves ⟨1, by decide⟩)
  · rcases (triangular_solve_correct hmatrix sampleTriangle_create hagree .serial
      .conjugateTranspose 2).2 sampleRightHandSides ⟨rfl, rfl⟩ with ⟨memory', hrun, -, hsolves, -⟩
    refine ⟨memory', hrun, ?_⟩
    exact (Fin.sum_univ_two fun column : Fin 2 =>
      operatorValue sampleTriangle rationalMemory .conjugateTranspose 0 column.val *
        sampleRightHandSides.value memory' column.val 1).symm.trans
      (hsolves ⟨0, by decide⟩ ⟨1, by decide⟩)

end Blas
end Sparse
end AscCpp
