import AscCpp.Dense.Blas.Level2
import AscCpp.Library.TriangularSweep

/-!
# TriangularRows — the rows of a triangular operation

The rounds of a triangular operation go through the rows in one direction, and each reads the part
of its row on one side of the diagonal.  Where the matrix is triangular, that is all of the row.

- `forM_iterations`: the rounds, in the order of the rows.
- `foldl_multiply`, `foldl_solve`: what a round accumulates.
- `updates_multiply`, `updates_solve`: what the rounds do to a line.
- `triangular_transposed`: a transpose argument exchanges the triangles.
-/

namespace AscCpp
namespace Dense
namespace Blas

open AscCpp.Core Library Matrix

variable {Cell V : Type}

/-- The rounds go through the rows from the first one to the last one, or backwards. -/
theorem forM_iterations {Memory : Type} (forwards : Bool) (count : Nat)
    (body : Int → Effect Memory Unit) :
    (forM (indices 0 count) (fun iteration => body (iterationRow forwards count iteration)) :
        Effect Memory Unit) =
      forM (sweepOrder forwards count) fun row => body row.val := by
  rw [Effect.forM_indices]
  unfold iterationRow sweepOrder
  cases forwards with
  | true => rfl
  | false =>
    simp only [Bool.false_eq_true, if_false, List.finRange_reverse, List.forM_map]
    congr 1
    funext row
    congr 1
    rw [Fin.val_rev]
    omega

section Rows

variable [CommRing V] {count : Nat} {upper : Bool} {matrix : Matrix (Fin count) (Fin count) V}

/-- The part of a row that a product reads is all of it that is not zero. -/
theorem foldl_multiply (h : Triangular upper matrix) (row : Fin count) {entry : Int → V}
    (hentry : ∀ column : Fin count, entry column.val = matrix row column) (values : Int → V) :
    (indices (if upper then (row.val : Int) else 0)
        (if upper then (count : Int) else row.val + 1)).foldl
      (fun result column => result + entry column * values column) 0 =
        (matrix *ᵥ fun column => values column.val) row := by
  rw [@foldl_add_indices _ _ _ count _ (by split <;> omega) (by split <;> omega)
    fun column => entry column * values column]
  apply Finset.sum_congr rfl
  intro column _
  rw [hentry, ite_eq_left_iff]
  intro hoff
  rw [h.zero, zero_mul]
  cases upper with
  | true =>
    simp only [if_true] at hoff ⊢
    omega
  | false =>
    simp only [Bool.false_eq_true, if_false] at hoff ⊢
    omega

/-- The part of a row that a substitution reads is the rest of the row. -/
theorem foldl_solve (h : Triangular upper matrix) (row : Fin count) {entry : Int → V}
    (hentry : ∀ column : Fin count, entry column.val = matrix row column) (values : Int → V)
    (start : V) :
    (indices (if upper then (row.val : Int) + 1 else 0)
        (if upper then (count : Int) else row.val)).foldl
      (fun result column => result - entry column * values column) start =
        start - ∑ column ∈ Finset.univ.erase row, matrix row column * values column.val := by
  rw [@foldl_sub_indices _ _ _ count _ (by split <;> omega) (by split <;> omega) start
    fun column => entry column * values column]
  congr 1
  -- The range of the loop leaves out the row itself.
  have hself : ¬ ((if upper then (row.val : Int) + 1 else 0) ≤ row.val ∧
      (row.val : Int) < if upper then (count : Int) else row.val) := by
    cases upper <;> simp
  rw [← Finset.add_sum_erase _ _ (Finset.mem_univ row), if_neg hself, zero_add]
  apply Finset.sum_congr rfl
  intro column hcolumn
  have hne : column.val ≠ row.val := fun heq => Finset.ne_of_mem_erase hcolumn (Fin.ext heq)
  rw [hentry, ite_eq_left_iff]
  -- Off the range the matrix is zero.
  intro hoff
  rw [h.zero, zero_mul]
  cases upper with
  | true =>
    simp only [if_true] at hoff ⊢
    omega
  | false =>
    simp only [Bool.false_eq_true, if_false] at hoff ⊢
    omega

end Rows

/-! ## Lines -/

section Lines

variable {type : Representation Cell V} {count : Nat} {upper : Bool} {total : Int}
  {family : ElementFamily type (Fin count)} {body : Int → Effect (Nat → Cell) Unit}

theorem updates_multiply [CommRing V] {matrix : Matrix (Fin count) (Fin count) V}
    (h : Triangular upper matrix) (htotal : total = count) (alpha : V) (memory : Nat → Cell)
    (hround : ∀ row memory', family.Untouched memory memory' →
      Effect.Updates family (body (row : Fin count).val)
        (fun values => Function.update values row (alpha * (matrix *ᵥ values) row)) memory') :
    Effect.Updates family
      (forM (indices 0 total) fun iteration => body (iterationRow upper total iteration))
      (fun values => alpha • (matrix *ᵥ values)) memory := by
  subst htotal
  rw [forM_iterations]
  rcases Effect.exec_forM_family memory fun row (_ : row ∈ sweepOrder upper count) memory' =>
    hround row memory' with ⟨last, hrun, hframe, hvalues⟩
  exact ⟨last, hrun, hframe, hvalues.trans (sweep_mulVec h alpha _)⟩

theorem updates_solve [Field V] {matrix : Matrix (Fin count) (Fin count) V} (htotal : total = count)
    (alpha : V) (memory : Nat → Cell)
    (hround : ∀ row memory', family.Untouched memory memory' →
      Effect.Updates family (body (row : Fin count).val)
        (fun values => Function.update values row (substituted matrix alpha row values)) memory') :
    Effect.Updates family
      (forM (indices 0 total) fun iteration => body (iterationRow (!upper) total iteration))
      (fun values => sweep (substituted matrix alpha) (sweepOrder (!upper) count) values)
      memory := by
  subst htotal
  rw [forM_iterations]
  exact Effect.exec_forM_family memory fun row (_ : row ∈ sweepOrder (!upper) count) memory' =>
    hround row memory'

end Lines

/-! ## Transposition -/

section Transposition

variable [CommRing V] [StarRing V]

theorem asMatrix_transposed (count : Nat) (transposition : DenseBlasTranspose)
    (matrix : Int → Int → V) :
    asMatrix count count (transposed transposition matrix) =
      match transposition with
      | .none => asMatrix count count matrix
      | .transpose => (asMatrix count count matrix)ᵀ
      | .conjugateTranspose => (asMatrix count count matrix)ᴴ := by
  cases transposition <;> rfl

/-- A transpose argument exchanges the triangles. -/
theorem triangular_transposed {count : Nat} {triangle : DenseBlasTriangle}
    (transposition : DenseBlasTranspose) {matrix : Int → Int → V}
    (h : ∀ row column : Fin count, OffTriangle triangle row.val column.val →
      matrix row.val column.val = 0) :
    Triangular (effectiveUpper triangle transposition)
      (asMatrix count count (transposed transposition matrix)) := by
  have hplain : Triangular (decide (triangle = .upper)) (asMatrix count count matrix) := by
    cases triangle with
    | upper => exact fun row column hside => h row column (.inl ⟨rfl, Int.ofNat_lt.2 hside⟩)
    | lower => exact fun row column hside => h row column (.inr ⟨rfl, Int.ofNat_lt.2 hside⟩)
  have htransposed : Triangular (decide (triangle = .lower)) (asMatrix count count matrix)ᵀ := by
    have hflip : (!decide (triangle = .upper)) = decide (triangle = .lower) := by
      cases triangle <;> rfl
    rw [← hflip]
    exact hplain.transpose
  rw [asMatrix_transposed]
  cases transposition with
  | none => exact hplain
  | transpose => exact htransposed
  | conjugateTranspose =>
    cases triangle with
    | upper => exact fun row column hside => (congrArg star (htransposed hside)).trans (star_zero V)
    | lower => exact fun row column hside => (congrArg star (htransposed hside)).trans (star_zero V)

/-- A transpose argument leaves the zeros of the diagonal where they are. -/
theorem transposed_self_ne_zero {transposition : DenseBlasTranspose} {matrix : Int → Int → V}
    {row : Int} (h : matrix row row ≠ 0) : transposed transposition matrix row row ≠ 0 := by
  cases transposition with
  | none => exact h
  | transpose => exact h
  | conjugateTranspose => exact star_ne_zero.2 h

end Transposition

end Blas
end Dense
end AscCpp
