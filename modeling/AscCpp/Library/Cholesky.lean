import Mathlib.Algebra.BigOperators.Intervals
import Mathlib.Algebra.BigOperators.Ring.Finset
import Mathlib.Algebra.Order.BigOperators.Ring.Finset
import Mathlib.Algebra.Order.Field.Basic
import Mathlib.LinearAlgebra.Matrix.PosDef
import Mathlib.Tactic.Ring

/-!
# Cholesky — triangular factors of positive definite matrices

A matrix is a function of two indices, of which those below its dimension count.  The rows of a
factor are found one by one.

- `exists_backSubstitution`: a triangular system has a solution.
- `Factors.pivot_pos`: what is left for the next diagonal entry of a positive definite matrix.
- `Factors.positiveDefinite`: a matrix with a factor is positive definite.
- `Factors.mul_transpose`: the factor times its transpose.
-/

namespace AscCpp
namespace Library

open Finset

variable {K : Type} [Field K]

/-- The entries on and below the diagonal. -/
def lower (factor : ℕ → ℕ → K) (row column : ℕ) : K :=
  if column ≤ row then factor row column else 0

def quadraticForm (dimension : ℕ) (matrix : ℕ → ℕ → K) (vector : ℕ → K) : K :=
  ∑ row ∈ range dimension, ∑ column ∈ range dimension,
    vector row * matrix row column * vector column

structure PositiveDefinite [LinearOrder K] (dimension : ℕ) (matrix : ℕ → ℕ → K) : Prop where
  symmetric : ∀ row < dimension, ∀ column < dimension, matrix row column = matrix column row
  positive : ∀ vector : ℕ → K, (∃ row < dimension, vector row ≠ 0) →
    0 < quadraticForm dimension matrix vector

/-- The first rows of the factor are finished. -/
structure Factors [LinearOrder K] (rows : ℕ) (matrix factor : ℕ → ℕ → K) : Prop where
  diagonal : ∀ row < rows, 0 < factor row row
  product : ∀ row < rows, ∀ column ≤ row,
    ∑ inner ∈ range (column + 1), factor row inner * factor column inner = matrix row column

/-- The first entries of a row of the factor are finished. -/
structure RowPart [LinearOrder K] (row count : ℕ) (matrix factor : ℕ → ℕ → K) : Prop where
  diagonal : row < count → 0 < factor row row
  product : ∀ column < count,
    ∑ inner ∈ range (column + 1), factor row inner * factor column inner = matrix row column

/-- What the entries before it leave of an entry. -/
def remainder (matrix factor : ℕ → ℕ → K) (row column : ℕ) : K :=
  matrix row column - ∑ inner ∈ range column, factor row inner * factor column inner

/-! ## Triangular systems -/

section Triangular

variable {factor : ℕ → ℕ → K} {rows : ℕ}

theorem lower_of_le {row column : ℕ} (h : column ≤ row) : lower factor row column = factor row column :=
  if_pos h

theorem lower_of_lt {row column : ℕ} (h : row < column) : lower factor row column = 0 :=
  if_neg (not_le.2 h)

/-- Above the last row its column is empty. -/
theorem sum_lower_last (vector : ℕ → K) :
    ∑ row ∈ range (rows + 1), lower factor row rows * vector row =
      factor rows rows * vector rows := by
  rw [sum_range_succ, lower_of_le le_rfl, sum_eq_zero, zero_add]
  intro row hrow
  rw [lower_of_lt (mem_range.1 hrow), zero_mul]

/-- Back substitution: the last unknown comes first, and the induction is on the others. -/
theorem exists_backSubstitution (hdiagonal : ∀ row < rows, factor row row ≠ 0) (target : ℕ → K) :
    ∃ vector : ℕ → K, ∀ column < rows,
      ∑ row ∈ range rows, lower factor row column * vector row = target column := by
  induction rows generalizing target with
  | zero => exact ⟨0, fun column hcolumn => absurd hcolumn (Nat.not_lt_zero _)⟩
  | succ rows ih =>
    let last := target rows / factor rows rows
    rcases ih (fun row hrow => hdiagonal row (by omega))
      (fun column => target column - lower factor rows column * last) with ⟨vector, hvector⟩
    refine ⟨fun row => if row = rows then last else vector row, fun column hcolumn => ?_⟩
    by_cases hlast : column = rows
    · rw [hlast, sum_lower_last, if_pos rfl]
      exact mul_div_cancel₀ _ (hdiagonal rows (Nat.lt_succ_self rows))
    · have hrest : ∑ row ∈ range rows, lower factor row column *
          (if row = rows then last else vector row) =
            target column - lower factor rows column * last := by
        rw [← hvector column (by omega)]
        apply sum_congr rfl
        intro row hrow
        rw [if_neg (Nat.ne_of_lt (mem_range.1 hrow))]
      rw [sum_range_succ, hrest]
      simp only [if_true, sub_add_cancel]

/-- A vector that all columns annihilate is zero. -/
theorem eq_zero_of_lower (hdiagonal : ∀ row < rows, factor row row ≠ 0) {vector : ℕ → K}
    (h : ∀ column < rows, ∑ row ∈ range rows, lower factor row column * vector row = 0) :
    ∀ row < rows, vector row = 0 := by
  induction rows with
  | zero => exact fun row hrow => absurd hrow (Nat.not_lt_zero _)
  | succ rows ih =>
    have hlast : vector rows = 0 := by
      have hsum := h rows (Nat.lt_succ_self rows)
      rw [sum_lower_last] at hsum
      exact (mul_eq_zero.1 hsum).resolve_left (hdiagonal rows (Nat.lt_succ_self rows))
    have hrest := ih (fun row hrow => hdiagonal row (by omega)) fun column hcolumn => by
      have hsum := h column (by omega)
      rwa [sum_range_succ, hlast, mul_zero, add_zero] at hsum
    intro row hrow
    rcases Nat.lt_succ_iff_lt_or_eq.1 hrow with hbefore | rfl
    · exact hrest row hbefore
    · exact hlast

end Triangular

/-! ## Quadratic forms -/

section Forms

variable {matrix : ℕ → ℕ → K} {dimension rows : ℕ}

theorem quadraticForm_succ (vector : ℕ → K) :
    quadraticForm (rows + 1) matrix vector =
      quadraticForm rows matrix vector +
        ∑ row ∈ range rows, vector row * matrix row rows * vector rows +
        (∑ column ∈ range rows, vector rows * matrix rows column * vector column +
          vector rows * matrix rows rows * vector rows) := by
  unfold quadraticForm
  simp only [sum_range_succ, sum_add_distrib]
  ring

/-- Only the indices where the vector is not zero count. -/
theorem quadraticForm_restrict {vector : ℕ → K} (hrows : rows ≤ dimension)
    (hvector : ∀ row, rows ≤ row → vector row = 0) :
    quadraticForm dimension matrix vector = quadraticForm rows matrix vector := by
  have hsubset : range rows ⊆ range dimension := range_subset_range.2 hrows
  unfold quadraticForm
  refine Eq.trans (sum_subset hsubset fun row _ hrow => ?_).symm (sum_congr rfl fun row _ => ?_)
  · have hzero := hvector row (not_lt.1 fun hlt => hrow (mem_range.2 hlt))
    apply sum_eq_zero
    intro column _
    rw [hzero, zero_mul, zero_mul]
  · refine (sum_subset hsubset fun column _ hcolumn => ?_).symm
    rw [hvector column (not_lt.1 fun hlt => hcolumn (mem_range.2 hlt)), mul_zero]

/-- The form of a product of a matrix with its transpose is a sum of squares. -/
theorem quadraticForm_gram {left : ℕ → ℕ → K}
    (h : ∀ row < rows, ∀ column < rows,
      matrix row column = ∑ inner ∈ range rows, left row inner * left column inner)
    (vector : ℕ → K) :
    quadraticForm rows matrix vector =
      ∑ inner ∈ range rows, (∑ row ∈ range rows, left row inner * vector row) *
        ∑ row ∈ range rows, left row inner * vector row := by
  have hentry : ∀ row ∈ range rows, ∀ column ∈ range rows,
      vector row * matrix row column * vector column =
        ∑ inner ∈ range rows, left row inner * vector row * (left column inner * vector column) := by
    intro row hrow column hcolumn
    rw [h row (mem_range.1 hrow) column (mem_range.1 hcolumn), mul_sum, sum_mul]
    apply sum_congr rfl
    intro inner _
    ring
  calc quadraticForm rows matrix vector
      = ∑ row ∈ range rows, ∑ column ∈ range rows, ∑ inner ∈ range rows,
          left row inner * vector row * (left column inner * vector column) :=
        sum_congr rfl fun row hrow => sum_congr rfl fun column hcolumn =>
          hentry row hrow column hcolumn
    _ = ∑ row ∈ range rows, ∑ inner ∈ range rows, ∑ column ∈ range rows,
          left row inner * vector row * (left column inner * vector column) :=
        sum_congr rfl fun row _ => sum_comm
    _ = ∑ inner ∈ range rows, ∑ row ∈ range rows, ∑ column ∈ range rows,
          left row inner * vector row * (left column inner * vector column) := sum_comm
    _ = _ := sum_congr rfl fun inner _ => (sum_mul_sum _ _ _ _).symm

end Forms

/-! ## Factors -/

section Ordered

variable [LinearOrder K] {matrix factor : ℕ → ℕ → K} {dimension rows : ℕ}

theorem Factors.diagonal_ne_zero (h : Factors rows matrix factor) :
    ∀ row < rows, factor row row ≠ 0 :=
  fun row hrow => (h.diagonal row hrow).ne'

omit [LinearOrder K] in
/-- Of the columns of a triangular factor only those up to the diagonal count. -/
theorem sum_lower_eq {column : ℕ} (hcolumn : column < rows) (left : ℕ → K) :
    ∑ inner ∈ range rows, left inner * lower factor column inner =
      ∑ inner ∈ range (column + 1), left inner * factor column inner := by
  refine Eq.trans (sum_subset (range_subset_range.2 hcolumn) fun inner _ hinner => ?_).symm
    (sum_congr rfl fun inner hinner => ?_)
  · rw [lower_of_lt (by rw [mem_range] at hinner; omega), mul_zero]
  · rw [lower_of_le (by rw [mem_range] at hinner; omega)]

/-- On the finished rows the matrix is the product of the factor with its transpose. -/
theorem Factors.gram (h : Factors rows matrix factor)
    (hsymmetric : ∀ row < rows, ∀ column < rows, matrix row column = matrix column row) :
    ∀ row < rows, ∀ column < rows, matrix row column =
      ∑ inner ∈ range rows, lower factor row inner * lower factor column inner := by
  have hbelow : ∀ row < rows, ∀ column ≤ row, matrix row column =
      ∑ inner ∈ range rows, lower factor row inner * lower factor column inner := by
    intro row hrow column hcolumn
    rw [sum_lower_eq (by omega), ← h.product row hrow column hcolumn]
    apply sum_congr rfl
    intro inner hinner
    rw [lower_of_le (by rw [mem_range] at hinner; omega)]
  intro row hrow column hcolumn
  rcases Nat.le_total column row with hle | hle
  · exact hbelow row hrow column hle
  · rw [hsymmetric row hrow column hcolumn, hbelow column hcolumn row hle]
    exact sum_congr rfl fun inner _ => mul_comm _ _

/-- A row that is finished up to its diagonal is one more row. -/
theorem Factors.succ (h : Factors rows matrix factor)
    (hrow : RowPart rows (rows + 1) matrix factor) : Factors (rows + 1) matrix factor := by
  constructor
  · intro row hlt
    rcases Nat.lt_succ_iff_lt_or_eq.1 hlt with hbefore | rfl
    · exact h.diagonal row hbefore
    · exact hrow.diagonal (Nat.lt_succ_self row)
  · intro row hlt column hcolumn
    rcases Nat.lt_succ_iff_lt_or_eq.1 hlt with hbefore | rfl
    · exact h.product row hbefore column hcolumn
    · exact hrow.product column (Nat.lt_succ_of_le hcolumn)

/-- Only the finished rows count. -/
theorem Factors.congr {factor' : ℕ → ℕ → K} (h : Factors rows matrix factor)
    (hsame : ∀ row < rows, ∀ column ≤ row, factor' row column = factor row column) :
    Factors rows matrix factor' := by
  constructor
  · intro row hrow
    rw [hsame row hrow row le_rfl]
    exact h.diagonal row hrow
  · intro row hrow column hcolumn
    rw [← h.product row hrow column hcolumn]
    apply sum_congr rfl
    intro inner hinner
    rw [mem_range] at hinner
    rw [hsame row hrow inner (by omega), hsame column (by omega) inner (by omega)]

/-- A further entry of a row, whose product with the diagonal entry of its column is what was
left. -/
theorem RowPart.succ {factor' : ℕ → ℕ → K} {row column : ℕ} (h : RowPart row column matrix factor)
    (hcolumn : column ≤ row)
    (hsame : ∀ row' ≤ row, ∀ column' ≤ row', (row', column') ≠ (row, column) →
      factor' row' column' = factor row' column')
    (hdiagonal : row = column → 0 < factor' row row)
    (hentry : factor' row column * factor' column column = remainder matrix factor row column) :
    RowPart row (column + 1) matrix factor' := by
  -- The new entry is not among the factors of the entries before it.
  have hbefore : ∀ column' ≤ column, ∀ inner < column',
      factor' row inner * factor' column' inner = factor row inner * factor column' inner := by
    intro column' hcolumn' inner hinner
    rw [hsame row le_rfl inner (by omega) (by simp; omega),
      hsame column' (by omega) inner (by omega) (by simp; omega)]
  constructor
  · intro hlt
    exact hdiagonal (by omega)
  · intro column' hlt
    rcases Nat.lt_succ_iff_lt_or_eq.1 hlt with hearlier | rfl
    · rw [← h.product column' hearlier]
      apply sum_congr rfl
      intro inner hinner
      rw [mem_range] at hinner
      rw [hsame row le_rfl inner (by omega) (by simp; omega),
        hsame column' (by omega) inner (by omega) (by simp; omega)]
    · rw [sum_range_succ, hentry, remainder]
      rw [sum_congr rfl fun inner hinner => hbefore column' le_rfl inner (mem_range.1 hinner)]
      exact add_sub_cancel _ _

/-- A positive definite matrix leaves something for the next diagonal entry: the form takes this
value at a vector that the finished part of the row makes up for. -/
theorem Factors.pivot_pos (h : Factors rows matrix factor)
    (hrow : RowPart rows rows matrix factor) (hmatrix : PositiveDefinite dimension matrix) (hrows : rows < dimension) :
    0 < remainder matrix factor rows rows := by
  have hsymmetric : ∀ row < rows, ∀ column < rows, matrix row column = matrix column row :=
    fun row hrow column hcolumn => hmatrix.symmetric row (by omega) column (by omega)
  rcases exists_backSubstitution h.diagonal_ne_zero fun column => -factor rows column with
    ⟨solution, hsolution⟩
  let vector : ℕ → K := fun row => if row < rows then solution row else if row = rows then 1 else 0
  have hbefore : ∀ row ∈ range rows, vector row = solution row :=
    fun row hrow => if_pos (mem_range.1 hrow)
  have hlast : vector rows = 1 := by simp [vector]
  have hcolumn : ∀ column < rows,
      ∑ row ∈ range rows, lower factor row column * vector row = -factor rows column := by
    intro column hcolumn
    rw [← hsolution column hcolumn]
    exact sum_congr rfl fun row hrow => by rw [hbefore row hrow]
  have hsquares : quadraticForm rows matrix vector =
      ∑ inner ∈ range rows, factor rows inner * factor rows inner := by
    rw [quadraticForm_gram (h.gram hsymmetric)]
    apply sum_congr rfl
    intro inner hinner
    rw [hcolumn inner (mem_range.1 hinner), neg_mul_neg]
  -- The row meets the vector in what the columns of the factor make of it.
  have hcross : ∑ column ∈ range rows, matrix rows column * vector column =
      -∑ inner ∈ range rows, factor rows inner * factor rows inner := by
    have hentry : ∀ column ∈ range rows, matrix rows column * vector column =
        ∑ inner ∈ range rows, factor rows inner * (lower factor column inner * vector column) := by
      intro column hcolumn
      rw [← hrow.product column (mem_range.1 hcolumn), ← sum_lower_eq (mem_range.1 hcolumn), sum_mul]
      exact sum_congr rfl fun inner _ => mul_assoc _ _ _
    rw [sum_congr rfl hentry, sum_comm, ← sum_neg_distrib]
    apply sum_congr rfl
    intro inner hinner
    rw [← mul_sum, hcolumn inner (mem_range.1 hinner), mul_neg]
  have hmirror : ∑ row ∈ range rows, vector row * matrix row rows * vector rows =
      ∑ column ∈ range rows, matrix rows column * vector column := by
    apply sum_congr rfl
    intro row hrow
    have hlt := mem_range.1 hrow
    rw [hlast, mul_one, hmatrix.symmetric row (by omega) rows hrows, mul_comm]
  have hform : quadraticForm dimension matrix vector = remainder matrix factor rows rows := by
    rw [quadraticForm_restrict (Nat.succ_le_of_lt hrows), quadraticForm_succ, hsquares, hmirror,
      hcross, hlast]
    · simp only [one_mul, mul_one]
      rw [hcross, remainder]
      ring
    · intro row hrow
      simp only [vector]
      rw [if_neg (by omega), if_neg (by omega)]
  rw [← hform]
  exact hmatrix.positive vector ⟨rows, hrows, by rw [hlast]; exact one_ne_zero⟩

/-- A symmetric matrix with a factor is positive definite. -/
theorem Factors.positiveDefinite [IsStrictOrderedRing K] (h : Factors rows matrix factor)
    (hsymmetric : ∀ row < rows, ∀ column < rows, matrix row column = matrix column row) :
    PositiveDefinite rows matrix := by
  refine ⟨hsymmetric, fun vector hvector => ?_⟩
  rw [quadraticForm_gram (h.gram hsymmetric)]
  apply sum_pos' fun inner _ => mul_self_nonneg _
  by_contra hnone
  rcases hvector with ⟨row, hrow, hne⟩
  refine hne (eq_zero_of_lower h.diagonal_ne_zero (fun column hcolumn => ?_) row hrow)
  by_contra hsum
  exact hnone ⟨column, mem_range.2 hcolumn, mul_self_pos.2 hsum⟩

end Ordered

/-! ## Matrices -/

section Matrices

variable {matrix factor : ℕ → ℕ → K} {dimension : ℕ}

/-- The matrix of the entries below the dimension. -/
def toMatrix (dimension : ℕ) (matrix : ℕ → ℕ → K) : Matrix (Fin dimension) (Fin dimension) K :=
  Matrix.of fun row column => matrix row column

open Matrix in
theorem quadraticForm_eq_dotProduct [StarRing K] [TrivialStar K] (vector : ℕ → K) :
    quadraticForm dimension matrix vector =
      star (fun row : Fin dimension => vector row) ⬝ᵥ
        (toMatrix dimension matrix *ᵥ fun row => vector row) := by
  simp only [quadraticForm, toMatrix, dotProduct, mulVec, of_apply, star_trivial, mul_sum,
    sum_range, mul_assoc]

theorem positiveDefinite_iff_posDef [LinearOrder K] [StarRing K] [TrivialStar K] :
    PositiveDefinite dimension matrix ↔ (toMatrix dimension matrix).PosDef := by
  rw [Matrix.posDef_iff_dotProduct_mulVec, Matrix.IsHermitian.ext_iff]
  constructor
  · intro h
    refine ⟨fun row column => ?_, fun vector hvector => ?_⟩
    · rw [star_trivial]
      exact h.symmetric column column.isLt row row.isLt
    · rcases Function.ne_iff.1 hvector with ⟨row, hrow⟩
      let extended : ℕ → K := fun index =>
        if hindex : index < dimension then vector ⟨index, hindex⟩ else 0
      have hextended : (fun index : Fin dimension => extended index) = vector := by
        funext index
        exact dif_pos index.isLt
      have hpositive := h.positive extended
        ⟨row, row.isLt, by simpa [extended] using hrow⟩
      rwa [quadraticForm_eq_dotProduct, hextended] at hpositive
  · rintro ⟨hsymmetric, hpositive⟩
    refine ⟨fun row hrow column hcolumn => ?_, fun vector hvector => ?_⟩
    · simpa [toMatrix] using hsymmetric ⟨column, hcolumn⟩ ⟨row, hrow⟩
    · rw [quadraticForm_eq_dotProduct]
      rcases hvector with ⟨row, hrow, hne⟩
      exact hpositive (Function.ne_iff.2 ⟨⟨row, hrow⟩, hne⟩)

/-- With zeros above the diagonal, the factor times its transpose is the matrix. -/
theorem Factors.mul_transpose [LinearOrder K] (h : Factors dimension matrix factor)
    (hsymmetric : ∀ row < dimension, ∀ column < dimension, matrix row column = matrix column row)
    (hzero : ∀ row < dimension, ∀ column < dimension, row < column → factor row column = 0) :
    toMatrix dimension factor * (toMatrix dimension factor).transpose =
      toMatrix dimension matrix := by
  have hlower : ∀ row column : Fin dimension, factor row column = lower factor row column := by
    intro row column
    unfold lower
    split
    · rfl
    · exact hzero row row.isLt column column.isLt (by omega)
  ext row column
  simp only [toMatrix, Matrix.mul_apply, Matrix.transpose_apply, Matrix.of_apply, hlower]
  rw [h.gram hsymmetric row row.isLt column column.isLt, sum_range]

end Matrices

end Library
end AscCpp
