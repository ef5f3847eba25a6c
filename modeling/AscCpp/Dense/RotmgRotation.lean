import AscCpp.Core.Extents
import AscCpp.Dense.RotmgLoops
import Mathlib.Tactic.LinearCombination

/-!
# RotmgRotation — the equations of a modified rotation

The four parameters take the operands to the first axis and keep the weighted product.  The branches
of `RotmgImpl` that do not zero the operands leave such parameters to the loops.

- `IsRotation.rotmEntry_eq`: what `RotmImpl` makes of the operands.
- `Rotates.scaleFirst`, `Rotates.scaleSecond`: scaling a row keeps the equations.
- `prepared_rotate`: before the loops the equations hold.
-/

namespace AscCpp
namespace Dense

open Library

/-! ## The equations of a rotation -/

/-- The parameters take the operands to the first axis, and the weights to the weights. -/
structure RotmgState.Rotates (state : RotmgState) (d1 d2 x1 y1 : Rat) : Prop where
  first : state.h11 * x1 + state.h12 * y1 = state.x1
  second : state.h21 * x1 + state.h22 * y1 = 0
  left : state.d1 * state.h11 ^ 2 + state.d2 * state.h21 ^ 2 = d1
  mixed : state.d1 * state.h11 * state.h12 + state.d2 * state.h21 * state.h22 = 0
  right : state.d1 * state.h12 ^ 2 + state.d2 * state.h22 ^ 2 = d2

/-- What is asked of the operands and the parameters in the end. -/
structure RotmgOutcome.IsRotation (outcome : RotmgOutcome) (d1 d2 x1 y1 : Rat) : Prop where
  annihilates : (rotmMatrix outcome.parameters).mulVec ![x1, y1] = ![outcome.x1, 0]
  preserves :
    (rotmMatrix outcome.parameters).transpose * Matrix.diagonal ![outcome.d1, outcome.d2] *
      rotmMatrix outcome.parameters = Matrix.diagonal ![d1, d2]
  first_inRange : outcome.d1 ≠ 0 → inverseGammaSquared < outcome.d1 ∧ outcome.d1 < gammaSquared
  second_inRange :
    outcome.d2 ≠ 0 → inverseGammaSquared < |outcome.d2| ∧ |outcome.d2| < gammaSquared

variable {d1 d2 x1 y1 : Rat}

/-- `RotmImpl` with the parameters takes the operands to the first axis. -/
theorem RotmgOutcome.IsRotation.rotmEntry_eq {outcome : RotmgOutcome}
    (h : outcome.IsRotation d1 d2 x1 y1) :
    rotmEntry outcome.parameters x1 y1 = (outcome.x1, 0) := by
  have hproduct := (rotmEntry_eq_mulVec outcome.parameters x1 y1).trans h.annihilates
  have hfirst := congrFun hproduct 0
  have hsecond := congrFun hproduct 1
  exact Prod.ext hfirst hsecond

theorem gamma_zpow_cancel (shift : Int) :
    gamma ^ (-2 * shift) * (gamma ^ shift * gamma ^ shift) = 1 := by
  rw [← gamma_zpow_add, ← gamma_zpow_add, ← zpow_zero gamma]
  congr 1
  omega

/-- A scaled row contributes the same to the weights. -/
theorem scaled_product (weight left right : Rat) (shift : Int) :
    weight * gamma ^ (-2 * shift) * (left * gamma ^ shift) * (right * gamma ^ shift) =
      weight * left * right := by
  linear_combination weight * left * right * gamma_zpow_cancel shift

theorem RotmgState.Rotates.scaleFirst {state : RotmgState} (h : state.Rotates d1 d2 x1 y1)
    (shift : Int) : (scaleFirst shift state).Rotates d1 d2 x1 y1 where
  first := by
    have hfirst := congrArg (· * gamma ^ shift) h.first
    simp only [Dense.scaleFirst]
    linear_combination hfirst
  second := h.second
  -- The weight takes gamma twice for the two entries of its row, and loses it as often.
  left := by
    have hproduct := scaled_product state.d1 state.h11 state.h11 shift
    simp only [Dense.scaleFirst]
    linear_combination h.left + hproduct
  mixed := by
    have hproduct := scaled_product state.d1 state.h11 state.h12 shift
    simp only [Dense.scaleFirst]
    linear_combination h.mixed + hproduct
  right := by
    have hproduct := scaled_product state.d1 state.h12 state.h12 shift
    simp only [Dense.scaleFirst]
    linear_combination h.right + hproduct

theorem RotmgState.Rotates.scaleSecond {state : RotmgState} (h : state.Rotates d1 d2 x1 y1)
    (shift : Int) : (scaleSecond shift state).Rotates d1 d2 x1 y1 where
  first := h.first
  second := by
    have hsecond := congrArg (· * gamma ^ shift) h.second
    simp only [Dense.scaleSecond]
    linear_combination hsecond
  left := by
    have hproduct := scaled_product state.d2 state.h21 state.h21 shift
    simp only [Dense.scaleSecond]
    linear_combination h.left + hproduct
  mixed := by
    have hproduct := scaled_product state.d2 state.h21 state.h22 shift
    simp only [Dense.scaleSecond]
    linear_combination h.mixed + hproduct
  right := by
    have hproduct := scaled_product state.d2 state.h22 state.h22 shift
    simp only [Dense.scaleSecond]
    linear_combination h.right + hproduct

/-- The off-diagonal parameter of the first row is determined by the others. -/
theorem RotmgState.Rotates.h12_eq {state other : RotmgState} (h : state.Rotates d1 d2 x1 y1)
    (hother : other.Rotates d1 d2 x1 y1) (hx1 : other.x1 = state.x1)
    (hh11 : other.h11 = state.h11) (hy : y1 ≠ 0) : other.h12 = state.h12 := by
  have hfirst := hother.first
  rw [hx1, hh11, ← h.first] at hfirst
  exact mul_right_cancel₀ hy (add_left_cancel hfirst)

theorem RotmgState.Rotates.h21_eq {state other : RotmgState} (h : state.Rotates d1 d2 x1 y1)
    (hother : other.Rotates d1 d2 x1 y1) (hh22 : other.h22 = state.h22) (hx : x1 ≠ 0) :
    other.h21 = state.h21 := by
  have hsecond := hother.second
  rw [hh22, ← h.second] at hsecond
  exact mul_right_cancel₀ hx (add_right_cancel hsecond)

/-- Whatever the operands, that of the second row is determined up to its sign. -/
theorem RotmgState.Rotates.h21_sq {state other : RotmgState} (h : state.Rotates d1 d2 x1 y1)
    (hother : other.Rotates d1 d2 x1 y1) (hd1 : other.d1 = state.d1) (hd2 : other.d2 = state.d2)
    (hh11 : other.h11 = state.h11) (hne : state.d2 ≠ 0) : other.h21 ^ 2 = state.h21 ^ 2 := by
  have hleft := hother.left
  rw [hd1, hd2, hh11, ← h.left] at hleft
  exact mul_left_cancel₀ hne (add_left_cancel hleft)

/-! ## The matrix of the parameters -/

/-- The parameters with those that the flag makes redundant. -/
def full (state : RotmgState) : RotmgState :=
  if state.flag < 0 then state else unpack state

theorem conjugate_two (a b c d p q : Rat) :
    (!![a, b; c, d]).transpose * Matrix.diagonal ![p, q] * !![a, b; c, d] =
      !![p * a ^ 2 + q * c ^ 2, p * a * b + q * c * d;
        p * a * b + q * c * d, p * b ^ 2 + q * d ^ 2] := by
  ext i j
  rw [Matrix.mul_apply, Fin.sum_univ_two, Matrix.mul_diagonal, Matrix.mul_diagonal]
  fin_cases i <;> fin_cases j <;> simp <;> ring

theorem diagonal_two (p q : Rat) : Matrix.diagonal ![p, q] = !![p, 0; 0, q] := by
  ext i j
  fin_cases i <;> fin_cases j <;> rfl

theorem matrix_two_inj {a b c d a' b' c' d' : Rat} :
    !![a, b; c, d] = !![a', b'; c', d'] ↔ (a = a' ∧ b = b') ∧ c = c' ∧ d = d' := by
  simp

/-- The two matrix equations are those of the entries. -/
theorem matrix_rotates_iff (state : RotmgState) :
    ((!![state.h11, state.h12; state.h21, state.h22]).mulVec ![x1, y1] = ![state.x1, 0] ∧
      (!![state.h11, state.h12; state.h21, state.h22]).transpose *
          Matrix.diagonal ![state.d1, state.d2] *
          !![state.h11, state.h12; state.h21, state.h22] = Matrix.diagonal ![d1, d2]) ↔
      state.Rotates d1 d2 x1 y1 := by
  -- The mixed entries of the product are the same equation twice.
  rw [conjugate_two, diagonal_two, matrix_two_inj, mulVec_two]
  constructor
  · rintro ⟨hvector, ⟨hleft, hmixed⟩, -, hright⟩
    exact ⟨congrFun hvector 0, congrFun hvector 1, hleft, hmixed, hright⟩
  · intro h
    refine ⟨?_, ⟨h.left, h.mixed⟩, h.mixed, h.right⟩
    rw [h.first, h.second]

theorem rotmMatrix_publish {state : RotmgState} (parameters : RotmParameters)
    (hflag : state.flag = -1 ∨ state.flag = 0 ∨ state.flag = 1) :
    rotmMatrix (publish state parameters).parameters =
      !![(full state).h11, (full state).h12; (full state).h21, (full state).h22] := by
  rcases hflag with hflag | hflag | hflag <;>
    norm_num [rotmMatrix, publish, full, unpack, hflag]

/-! ## The branches -/

/-- `RotmgImpl` takes a branch that zeroes the operands. -/
def ZeroesOperands (d1 d2 x1 y1 : Rat) : Prop :=
  d1 < 0 ∨ d2 * y1 ≠ 0 ∧
    if |d1 * x1 * x1| > |d2 * y1 * y1| then ¬ 1 - d2 * y1 / (d1 * x1) * (-y1 / x1) > 0
    else d2 * y1 * y1 < 0

/-- The weights that the rotation leaves to the loops. -/
def rotatedWeights (d1 d2 x1 y1 : Rat) : Rat × Rat :=
  let q1 := d1 * x1 ^ 2
  let q2 := d2 * y1 ^ 2
  if |q1| > |q2| then (d1 * q1 / (q1 + q2), d2 * q1 / (q1 + q2))
  else (d2 * q2 / (q1 + q2), d1 * q2 / (q1 + q2))

/-- What holds when the loops begin. -/
structure Prepared (state : RotmgState) (d1 d2 x1 y1 : Rat) : Prop where
  first_pos : 0 < state.d1
  weights : rotatedWeights d1 d2 x1 y1 = (state.d1, state.d2)
  rotates : (unpack state).Rotates d1 d2 x1 y1
  /-- The parameters of the flag zero are given by the operands. -/
  flag :
    (|d2 * y1 ^ 2| < |d1 * x1 ^ 2| ∧ state.flag = 0 ∧ state.h12 = d2 * y1 / (d1 * x1) ∧
      state.h21 = -y1 / x1) ∨
    (¬ |d2 * y1 ^ 2| < |d1 * x1 ^ 2| ∧ state.flag = 1)

theorem prepared_of_gt (hd1 : 0 ≤ d1) (hlarge : |d1 * x1 * x1| > |d2 * y1 * y1|)
    (hu : 1 - d2 * y1 / (d1 * x1) * (-y1 / x1) > 0) :
    Prepared (rotate d1 d2 x1 y1) d1 d2 x1 y1 := by
  have hq1 : d1 * x1 * x1 ≠ 0 := abs_pos.1 ((abs_nonneg _).trans_lt hlarge)
  have hx1 : x1 ≠ 0 := right_ne_zero_of_mul hq1
  have hd1ne : d1 ≠ 0 := left_ne_zero_of_mul (left_ne_zero_of_mul hq1)
  have hstate : rotate d1 d2 x1 y1 =
      { d1 := d1 / (1 - d2 * y1 / (d1 * x1) * (-y1 / x1))
        d2 := d2 / (1 - d2 * y1 / (d1 * x1) * (-y1 / x1))
        x1 := x1 * (1 - d2 * y1 / (d1 * x1) * (-y1 / x1))
        flag := 0
        h12 := d2 * y1 / (d1 * x1)
        h21 := -y1 / x1 } := by
    simp only [rotate, if_pos hlarge, if_pos hu]
  -- The divisor `u` of the source is the quotient of the two sums of squares.
  have hsum : 1 - d2 * y1 / (d1 * x1) * (-y1 / x1) =
      (d1 * x1 ^ 2 + d2 * y1 ^ 2) / (d1 * x1 ^ 2) := by
    field_simp
    ring
  have hsumne : d1 * x1 ^ 2 + d2 * y1 ^ 2 ≠ 0 := by
    intro hzero
    rw [hsum, hzero, zero_div] at hu
    exact lt_irrefl _ hu
  have hlarge' : |d1 * x1 ^ 2| > |d2 * y1 ^ 2| := by
    simpa only [pow_two, mul_assoc] using hlarge
  rw [hstate]
  refine ⟨?_, ?_, ?_, .inl ⟨hlarge', rfl, rfl, rfl⟩⟩
  · exact div_pos (lt_of_le_of_ne hd1 hd1ne.symm) hu
  · simp only [rotatedWeights, if_pos hlarge', hsum, div_div_eq_mul_div]
  · rw [unpack, if_pos rfl, hsum]
    constructor <;> simp only <;> field_simp <;> ring

theorem prepared_of_le (hd1 : 0 ≤ d1) (hp2 : d2 * y1 ≠ 0)
    (hsmall : ¬ |d1 * x1 * x1| > |d2 * y1 * y1|) (hq2 : ¬ d2 * y1 * y1 < 0) :
    Prepared (rotate d1 d2 x1 y1) d1 d2 x1 y1 := by
  have hy1 : y1 ≠ 0 := right_ne_zero_of_mul hp2
  have hd2 : d2 ≠ 0 := left_ne_zero_of_mul hp2
  have hq2pos : 0 < d2 * y1 ^ 2 := by
    refine lt_of_le_of_ne ?_ (mul_ne_zero hd2 (pow_ne_zero 2 hy1)).symm
    simpa only [pow_two, mul_assoc] using not_lt.1 hq2
  have hd2pos : 0 < d2 := pos_of_mul_pos_left hq2pos (sq_nonneg y1)
  have hstate : rotate d1 d2 x1 y1 =
      { d1 := d2 / (1 + d1 * x1 / (d2 * y1) * (x1 / y1))
        d2 := d1 / (1 + d1 * x1 / (d2 * y1) * (x1 / y1))
        x1 := y1 * (1 + d1 * x1 / (d2 * y1) * (x1 / y1))
        flag := 1
        h11 := d1 * x1 / (d2 * y1)
        h22 := x1 / y1 } := by
    simp only [rotate, if_neg hsmall, if_neg hq2]
  -- As above with the operands exchanged; here the divisor is positive of itself.
  have hsum : 1 + d1 * x1 / (d2 * y1) * (x1 / y1) =
      (d1 * x1 ^ 2 + d2 * y1 ^ 2) / (d2 * y1 ^ 2) := by
    field_simp
    ring
  have hsumpos : 0 < d1 * x1 ^ 2 + d2 * y1 ^ 2 :=
    add_pos_of_nonneg_of_pos (mul_nonneg hd1 (sq_nonneg x1)) hq2pos
  have hsmall' : ¬ |d1 * x1 ^ 2| > |d2 * y1 ^ 2| := by
    simpa only [pow_two, mul_assoc] using hsmall
  rw [hstate, hsum]
  refine ⟨?_, ?_, ?_, .inr ⟨hsmall', rfl⟩⟩
  · exact div_pos hd2pos (div_pos hsumpos hq2pos)
  · simp only [rotatedWeights, if_neg hsmall', div_div_eq_mul_div]
  · have hsumne := hsumpos.ne'
    rw [unpack, if_neg one_ne_zero]
    constructor <;> simp only <;> field_simp <;> ring

/-- Before the loops the equations hold. -/
theorem prepared_rotate (hd1 : 0 ≤ d1) (hp2 : d2 * y1 ≠ 0) (h : ¬ ZeroesOperands d1 d2 x1 y1) :
    Prepared (rotate d1 d2 x1 y1) d1 d2 x1 y1 := by
  have hbranch := fun hzero => h (.inr ⟨hp2, hzero⟩)
  by_cases hlarge : |d1 * x1 * x1| > |d2 * y1 * y1|
  · rw [if_pos hlarge] at hbranch
    exact prepared_of_gt hd1 hlarge (not_not.1 hbranch)
  · rw [if_neg hlarge] at hbranch
    exact prepared_of_le hd1 hp2 hlarge hbranch

end Dense
end AscCpp
