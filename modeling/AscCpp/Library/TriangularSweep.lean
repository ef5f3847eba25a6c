import AscCpp.Library.Sweep
import Mathlib.LinearAlgebra.Matrix.Block
import Mathlib.LinearAlgebra.Matrix.Nondegenerate

/-!
# TriangularSweep — triangular matrices applied and inverted in place

A vector is overwritten coordinate by coordinate.  A row of a triangular matrix reads coordinates on
one side of the diagonal only: a product goes through the vector ahead of what it still reads, a
substitution behind what it has solved.

- `sweep_mulVec`: the product in place.
- `mulVec_sweep_substituted`: the substitution in place.
- `Triangular.mulVec_injective`: a triangular system has one solution.
-/

namespace AscCpp
namespace Library

open Matrix

variable {V : Type} {n : Nat}

/-- Zero below the diagonal, or above it. -/
def Triangular [Zero V] (upper : Bool) (matrix : Matrix (Fin n) (Fin n) V) : Prop :=
  if upper then matrix.IsUpperTriangular else matrix.IsLowerTriangular

/-- The coordinates from the first one to the last one, or backwards. -/
def sweepOrder (forwards : Bool) (n : Nat) : List (Fin n) :=
  if forwards then List.finRange n else (List.finRange n).reverse

theorem mem_sweepOrder (forwards : Bool) (index : Fin n) : index ∈ sweepOrder forwards n := by
  unfold sweepOrder
  split
  · exact List.mem_finRange index
  · exact List.mem_reverse.2 (List.mem_finRange index)

theorem sweepOrder_nodup (forwards : Bool) (n : Nat) : (sweepOrder forwards n).Nodup := by
  unfold sweepOrder
  split
  · exact List.nodup_finRange n
  · exact List.nodup_reverse.2 (List.nodup_finRange n)

theorem sweepOrder_pairwise (forwards : Bool) (n : Nat) :
    (sweepOrder forwards n).Pairwise fun index later =>
      if forwards then index < later else later < index := by
  unfold sweepOrder
  cases forwards with
  | true => exact (List.sortedLT_finRange n).pairwise
  | false => exact List.pairwise_reverse.2 (List.sortedLT_finRange n).pairwise

/-- A pair on the zero side of the diagonal. -/
theorem Triangular.zero [Zero V] {upper : Bool} {matrix : Matrix (Fin n) (Fin n) V}
    (h : Triangular upper matrix) {row column : Fin n}
    (hside : if upper then column < row else row < column) : matrix row column = 0 := by
  cases upper with
  | true => exact h hside
  | false => exact h hside

theorem Triangular.transpose [Zero V] {upper : Bool} {matrix : Matrix (Fin n) (Fin n) V}
    (h : Triangular upper matrix) : Triangular (!upper) matrixᵀ := by
  cases upper with
  | true => exact fun _ _ hside => h hside
  | false => exact fun _ _ hside => h hside

/-! ## Products -/

/-- A product in place reads what is still to be overwritten. -/
theorem sweep_mulVec [CommRing V] {upper : Bool} {matrix : Matrix (Fin n) (Fin n) V}
    (h : Triangular upper matrix) (alpha : V) (vector : Fin n → V) :
    sweep (fun row values => alpha * (matrix *ᵥ values) row) (sweepOrder upper n) vector =
      alpha • (matrix *ᵥ vector) := by
  funext row
  apply sweep_apply_of_ahead (sweepOrder_nodup upper n) _ _ vector (mem_sweepOrder upper row)
  · exact fun row column => matrix row column ≠ 0
  · apply (sweepOrder_pairwise upper n).imp
    intro row later hlater hneeds
    exact hneeds (h.zero hlater)
  · intro row values values' hself hneeds
    simp only [mulVec, dotProduct]
    congr 1
    apply Finset.sum_congr rfl
    intro column _
    by_cases hzero : matrix row column = 0
    · rw [hzero, zero_mul, zero_mul]
    · rw [hneeds column hzero]

/-! ## Substitutions -/

/-- A coordinate of the solution, from those that it needs. -/
def substituted [Field V] (matrix : Matrix (Fin n) (Fin n) V) (alpha : V) (row : Fin n)
    (values : Fin n → V) : V :=
  (alpha * values row - ∑ column ∈ Finset.univ.erase row, matrix row column * values column) /
    matrix row row

variable [Field V] {upper : Bool} {matrix : Matrix (Fin n) (Fin n) V}

/-- A substitution in place reads what has been solved. -/
theorem mulVec_sweep_substituted (h : Triangular upper matrix) (hdiagonal : ∀ row, matrix row row ≠ 0)
    (alpha : V) (vector : Fin n → V) :
    matrix *ᵥ sweep (substituted matrix alpha) (sweepOrder (!upper) n) vector =
      alpha • vector := by
  -- A row needs the solved values of the columns where the matrix is not zero.
  have hneeds : ∀ row ∈ sweepOrder (!upper) n,
      sweep (substituted matrix alpha) (sweepOrder (!upper) n) vector row =
        substituted matrix alpha row
          (Function.update (sweep (substituted matrix alpha) (sweepOrder (!upper) n) vector) row
            (vector row)) := by
    apply sweep_apply (sweepOrder_nodup _ n) (List.forall_mem_nil _)
    · apply @precedes_of_pairwise _ fun row column => row ≠ column ∧ matrix row column ≠ 0
      · exact fun row hself => hself.1 rfl
      · exact fun row _ column _ => .inr (mem_sweepOrder _ column)
      · apply (sweepOrder_pairwise (!upper) n).imp
        intro row later hlater hneeds
        apply hneeds.2
        cases upper with
        | true => exact h.zero hlater
        | false => exact h.zero hlater
    · intro row values values' hself hother
      unfold substituted
      rw [hself]
      congr 2
      apply Finset.sum_congr rfl
      intro column hcolumn
      by_cases hzero : matrix row column = 0
      · rw [hzero, zero_mul, zero_mul]
      · rw [hother column ⟨(Finset.ne_of_mem_erase hcolumn).symm, hzero⟩]
  funext row
  have hrow := hneeds row (mem_sweepOrder _ row)
  unfold substituted at hrow
  rw [Function.update_self, eq_div_iff (hdiagonal row)] at hrow
  -- The sum of the substitution is that of the product without its diagonal term.
  have hrest : ∑ column ∈ Finset.univ.erase row, matrix row column *
      Function.update (sweep (substituted matrix alpha) (sweepOrder (!upper) n) vector) row
        (vector row) column =
      ∑ column ∈ Finset.univ.erase row, matrix row column *
        sweep (substituted matrix alpha) (sweepOrder (!upper) n) vector column :=
    Finset.sum_congr rfl fun column hcolumn => by
      rw [Function.update_of_ne (Finset.ne_of_mem_erase hcolumn)]
  rw [mulVec, dotProduct, ← Finset.add_sum_erase _ _ (Finset.mem_univ row), ← hrest, mul_comm]
  rw [Pi.smul_apply, smul_eq_mul]
  exact (congrArg (· + _) hrow).trans (sub_add_cancel _ _)

/-- A triangular system without a zero on the diagonal has one solution at most. -/
theorem Triangular.mulVec_injective (h : Triangular upper matrix)
    (hdiagonal : ∀ row, matrix row row ≠ 0) : Function.Injective matrix.mulVec := by
  apply mulVec_injective_of_det_ne_zero
  have hdet : matrix.det = ∏ row, matrix row row := by
    cases upper with
    | true => exact det_of_isUpperTriangular h
    | false => exact det_of_isLowerTriangular _ h
  rw [hdet]
  exact Finset.prod_ne_zero_iff.2 fun row _ => hdiagonal row

end Library
end AscCpp
