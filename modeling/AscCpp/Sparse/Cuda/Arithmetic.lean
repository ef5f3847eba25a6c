import AscCpp.Sparse.Blas.Stored
import Mathlib.Algebra.Order.Field.Basic
import Mathlib.Algebra.QuadraticAlgebra.Basic
import Mathlib.Algebra.Star.Rat
import Mathlib.Tactic.FieldSimp
import Mathlib.Tactic.Linarith

/-!
# Arithmetic — the arithmetic of the sparse kernels

The device has a complex type of its own, with a division that scales by the larger part of the
divisor.  Over exact parts its operations are those of the field of the host.

- `LawfulDeviceArithmetic`: the operations of a ring.
- `LawfulDeviceDivision`: the division of a field.
- `divide_eq`: the scaled division is exact.
-/

namespace AscCpp
namespace Sparse
namespace Cuda

/-- `DeviceArithmetic`.  `FromScalar` is the identity: a `ScalarValue` holds every element. -/
class DeviceArithmetic (V : Type) where
  zero : V
  add : V → V → V
  subtract : V → V → V
  multiply : V → V → V
  divide : V → V → V
  isZero : V → Bool
  conjugate : V → V

/-- The primary template. -/
instance (priority := low) {V : Type} [Zero V] [Add V] [Sub V] [Mul V] [Div V] [DecidableEq V] :
    DeviceArithmetic V where
  zero := 0
  add left right := left + right
  subtract left right := left - right
  multiply left right := left * right
  divide left right := left / right
  isZero value := value = 0
  conjugate value := value

/-- The device computes in the ring of the host. -/
class LawfulDeviceArithmetic (V : Type) [CommRing V] [StarRing V] [DeviceArithmetic V] : Prop where
  zero_eq : (DeviceArithmetic.zero : V) = 0
  add_eq : ∀ left right : V, DeviceArithmetic.add left right = left + right
  subtract_eq : ∀ left right : V, DeviceArithmetic.subtract left right = left - right
  multiply_eq : ∀ left right : V, DeviceArithmetic.multiply left right = left * right
  isZero_iff : ∀ value : V, DeviceArithmetic.isZero value = true ↔ value = 0
  conjugate_eq : ∀ value : V, DeviceArithmetic.conjugate value = star value

/-- The device divides as in the field of the host. -/
class LawfulDeviceDivision (V : Type) [Field V] [DeviceArithmetic V] : Prop where
  divide_eq : ∀ left right : V, DeviceArithmetic.divide left right = left / right

attribute [simp] LawfulDeviceArithmetic.zero_eq LawfulDeviceArithmetic.add_eq
  LawfulDeviceArithmetic.subtract_eq LawfulDeviceArithmetic.multiply_eq
  LawfulDeviceArithmetic.isZero_iff LawfulDeviceArithmetic.conjugate_eq
  LawfulDeviceDivision.divide_eq

theorem conjugate_eq_maybeConjugate {V : Type} [CommRing V] [StarRing V] [DeviceArithmetic V]
    [LawfulDeviceArithmetic V] (value : V) (conjugates : Prop) [Decidable conjugates] :
    (if conjugates then DeviceArithmetic.conjugate value else value) =
      Blas.maybeConjugate value conjugates := by
  simp only [Blas.maybeConjugate, decide_eq_true_eq, LawfulDeviceArithmetic.conjugate_eq]

/-! ## Real elements -/

instance {V : Type} [CommRing V] [StarRing V] [TrivialStar V] [Div V] [DecidableEq V] :
    LawfulDeviceArithmetic V where
  zero_eq := rfl
  add_eq _ _ := rfl
  subtract_eq _ _ := rfl
  multiply_eq _ _ := rfl
  isZero_iff _ := decide_eq_true_iff
  conjugate_eq value := (star_trivial value).symm

instance {V : Type} [Field V] [DecidableEq V] : LawfulDeviceDivision V where
  divide_eq _ _ := rfl

/-! ## Complex elements -/

/-- `DeviceComplex`. -/
abbrev DeviceComplex (Real : Type) [Ring Real] : Type :=
  QuadraticAlgebra Real (-1) 0

namespace DeviceComplex

variable {Real : Type} [Field Real] [LinearOrder Real]

/-- `right.real < 0 ? -right.real : right.real`. -/
def absolute (part : Real) : Real :=
  if part < 0 then -part else part

def divide (left right : DeviceComplex Real) : DeviceComplex Real :=
  if absolute right.re ≥ absolute right.im then
    let ratio := right.im / right.re
    let denominator := right.re + right.im * ratio
    ⟨(left.re + left.im * ratio) / denominator, (left.im - left.re * ratio) / denominator⟩
  else
    let ratio := right.re / right.im
    let denominator := right.im + right.re * ratio
    ⟨(left.re * ratio + left.im) / denominator, (left.im * ratio - left.re) / denominator⟩

/-- The specialization for complex elements. -/
instance : DeviceArithmetic (DeviceComplex Real) where
  zero := ⟨0, 0⟩
  add left right := ⟨left.re + right.re, left.im + right.im⟩
  subtract left right := ⟨left.re - right.re, left.im - right.im⟩
  multiply left right :=
    ⟨left.re * right.re - left.im * right.im, left.re * right.im + left.im * right.re⟩
  divide := divide
  isZero value := value.re = 0 && value.im = 0
  conjugate value := ⟨value.re, -value.im⟩

instance : LawfulDeviceArithmetic (DeviceComplex Real) where
  zero_eq := rfl
  add_eq _ _ := rfl
  subtract_eq _ _ := rfl
  multiply_eq left right := by
    refine QuadraticAlgebra.ext ?_ ?_
    · rw [QuadraticAlgebra.re_mul]
      simp only [DeviceArithmetic.multiply]
      ring
    · rw [QuadraticAlgebra.im_mul]
      simp only [DeviceArithmetic.multiply]
      ring
  isZero_iff value := by
    simp only [DeviceArithmetic.isZero, Bool.and_eq_true, decide_eq_true_eq, QuadraticAlgebra.ext_iff,
      QuadraticAlgebra.re_zero, QuadraticAlgebra.im_zero]
  conjugate_eq value := by
    refine QuadraticAlgebra.ext ?_ rfl
    rw [QuadraticAlgebra.re_star, zero_mul, add_zero]
    rfl

variable [IsStrictOrderedRing Real]

/-- No square is negative, so that the complex numbers are a field. -/
instance : Fact (∀ root : Real, root ^ 2 ≠ -1 + 0 * root) :=
  ⟨fun root h => by linarith [sq_nonneg root]⟩

theorem absolute_eq (part : Real) : absolute part = |part| := by
  unfold absolute
  split
  · exact (abs_of_neg ‹_›).symm
  · exact (abs_of_nonneg (not_lt.1 ‹_›)).symm

/-- The quotient without a scale. -/
theorem div_eq (left right : DeviceComplex Real) :
    left / right =
      ⟨(left.re * right.re + left.im * right.im) / (right.re ^ 2 + right.im ^ 2),
        (left.im * right.re - left.re * right.im) / (right.re ^ 2 + right.im ^ 2)⟩ := by
  have hnorm : QuadraticAlgebra.norm right = right.re ^ 2 + right.im ^ 2 := by
    rw [QuadraticAlgebra.norm_def]
    ring
  rw [div_eq_mul_inv, QuadraticAlgebra.inv_def, hnorm]
  refine QuadraticAlgebra.ext ?_ ?_
  · simp only [QuadraticAlgebra.re_mul, QuadraticAlgebra.re_smul, QuadraticAlgebra.im_smul,
      QuadraticAlgebra.re_star, QuadraticAlgebra.im_star, smul_eq_mul]
    ring
  · simp only [QuadraticAlgebra.im_mul, QuadraticAlgebra.re_smul, QuadraticAlgebra.im_smul,
      QuadraticAlgebra.re_star, QuadraticAlgebra.im_star, smul_eq_mul]
    ring

/-- Both branches of the device divide exactly. -/
theorem divide_eq (left right : DeviceComplex Real) : divide left right = left / right := by
  rw [div_eq, divide, absolute_eq, absolute_eq]
  split
  · rename_i hlarger
    by_cases hre : right.re = 0
    · -- The larger part is zero, and so is the divisor.
      rw [hre, abs_zero, ge_iff_le, abs_nonpos_iff] at hlarger
      simp [hre, hlarger]
    · have hnorm : right.re ^ 2 + right.im ^ 2 ≠ 0 := by positivity
      have hdenominator : right.re + right.im * (right.im / right.re) =
          (right.re ^ 2 + right.im ^ 2) / right.re := by
        field_simp
      simp only [hdenominator]
      refine QuadraticAlgebra.ext ?_ ?_
      · field_simp
      · field_simp
  · rename_i hlarger
    have him : right.im ≠ 0 := by
      rintro hzero
      rw [hzero, abs_zero] at hlarger
      exact hlarger (abs_nonneg _)
    have hnorm : right.re ^ 2 + right.im ^ 2 ≠ 0 := by positivity
    have hdenominator : right.im + right.re * (right.re / right.im) =
        (right.re ^ 2 + right.im ^ 2) / right.im := by
      field_simp
      ring
    simp only [hdenominator]
    refine QuadraticAlgebra.ext ?_ ?_
    · field_simp
    · field_simp

instance : LawfulDeviceDivision (DeviceComplex Real) where
  divide_eq := divide_eq

end DeviceComplex

end Cuda
end Sparse
end AscCpp
