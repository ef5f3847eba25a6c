import AscCpp.Dense.Blas.View
import Mathlib.Algebra.Star.Rat
import Mathlib.LinearAlgebra.Matrix.ConjTranspose
import Mathlib.NumberTheory.Zsqrtd.GaussianInt

/-!
# Scalar — element types, conjugation and transposition

The source knows an element type by its operators, by whether it is complex, and by the real part of
a value.  Results about what is computed hold over exact arithmetic: a commutative ring with a
conjugation, and real parts that belong to it.

- `conjugate_eq`: over exact arithmetic `Conjugate` is the conjugation.
- `transposed`: the matrix that a transpose argument selects.
-/

namespace AscCpp
namespace Dense
namespace Blas

variable {V : Type}

/-- What an element type is besides its operators; a real part is given as a value. -/
class DenseBlasScalar (V : Type) where
  complex : Bool
  realPart : V → V

/-- Exact arithmetic with conjugation. -/
class ExactScalar (V : Type) [CommRing V] [StarRing V] extends DenseBlasScalar V where
  star_of_real : complex = false → ∀ value : V, star value = value
  star_realPart : ∀ value : V, star (realPart value) = realPart value
  realPart_of_star : ∀ value : V, star value = value → realPart value = value
  realPart_add : ∀ left right : V, realPart (left + right) = realPart left + realPart right
  realPart_mul : ∀ left right : V, star left = left →
    realPart (left * right) = left * realPart right

section Weak

variable [Star V] [DenseBlasScalar V]

def conjugate (value : V) : V :=
  if DenseBlasScalar.complex V then star value else value

def maybeConjugate (value : V) (conjugated : Bool) : V :=
  if conjugated then conjugate value else value

end Weak

/-- `DenseBlasRealType`: the values without an imaginary part. -/
def DenseBlasRealType (V : Type) [Star V] : Type :=
  { value : V // star value = value }

/-! ## Exact arithmetic -/

instance : ExactScalar Rat where
  complex := false
  realPart value := value
  star_of_real _ _ := rfl
  star_realPart _ := rfl
  realPart_of_star _ _ := rfl
  realPart_add _ _ := rfl
  realPart_mul _ _ _ := rfl

instance : ExactScalar GaussianInt where
  complex := true
  realPart value := ⟨value.re, 0⟩
  star_of_real h := by cases h
  star_realPart value := by ext <;> simp
  realPart_of_star value h := by
    have him := congrArg Zsqrtd.im h
    simp only [Zsqrtd.im_star] at him
    ext
    · rfl
    · simp only
      omega
  realPart_add left right := by ext <;> simp
  realPart_mul left right h := by
    have him := congrArg Zsqrtd.im h
    simp only [Zsqrtd.im_star] at him
    have hzero : left.im = 0 := by omega
    ext <;> simp [hzero]

section Exact

variable [CommRing V] [StarRing V] [ExactScalar V]

@[simp] theorem conjugate_eq (value : V) : conjugate value = star value := by
  unfold conjugate
  split
  · rfl
  · exact (ExactScalar.star_of_real (Bool.not_eq_true _ ▸ ‹_›) value).symm

@[simp] theorem maybeConjugate_eq (value : V) (conjugated : Bool) :
    maybeConjugate value conjugated = if conjugated then star value else value := by
  unfold maybeConjugate
  rw [conjugate_eq]

end Exact

/-! ## Transposition -/

/-- The matrix that a transpose argument makes of a matrix. -/
def transposed [Star V] (transposition : DenseBlasTranspose) (matrix : Int → Int → V)
    (row column : Int) : V :=
  match transposition with
  | .none => matrix row column
  | .transpose => matrix column row
  | .conjugateTranspose => star (matrix column row)

/-- The finite matrix in the corner of an indexed one. -/
def asMatrix (rows columns : Nat) (matrix : Int → Int → V) : Matrix (Fin rows) (Fin columns) V :=
  .of fun row column => matrix row.val column.val

@[simp] theorem asMatrix_apply (rows columns : Nat) (matrix : Int → Int → V) (row : Fin rows)
    (column : Fin columns) : asMatrix rows columns matrix row column = matrix row.val column.val :=
  rfl

end Blas
end Dense
end AscCpp
