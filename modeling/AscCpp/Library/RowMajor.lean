import Mathlib.Algebra.BigOperators.Group.List.Basic
import Mathlib.Data.List.Lex

/-!
# RowMajor — the indices of an ordinal, the last extent first

- `rowMajor_getElem`: the indices as digits.
- `rowMajor_lex`: the order of the ordinals is the lexicographic order of the indices.
-/

namespace AscCpp
namespace Library

/-- The indices of an ordinal, and what is left of it: each extent takes a remainder, from the last
one on. -/
def rowMajor : List Nat → Nat → List Nat × Nat
  | [], ordinal => ([], ordinal)
  | extent :: extents, ordinal =>
    let rest := rowMajor extents ordinal
    (rest.2 % extent :: rest.1, rest.2 / extent)

theorem rowMajor_length (extents : List Nat) (ordinal : Nat) :
    (rowMajor extents ordinal).1.length = extents.length := by
  induction extents with
  | nil => rfl
  | cons extent extents ih => exact congrArg (· + 1) ih

theorem rowMajor_left (extents : List Nat) (ordinal : Nat) :
    (rowMajor extents ordinal).2 = ordinal / extents.prod := by
  induction extents with
  | nil => simp [rowMajor]
  | cons extent extents ih =>
    rw [List.prod_cons, mul_comm, ← Nat.div_div_eq_div_mul, ← ih]
    rfl

/-- An index is a digit above the product of the extents behind. -/
theorem rowMajor_getElem {extents : List Nat} {ordinal dimension : Nat}
    (h : dimension < (rowMajor extents ordinal).1.length) :
    (rowMajor extents ordinal).1[dimension] =
      ordinal / (extents.drop (dimension + 1)).prod % extents.getD dimension 0 := by
  induction extents generalizing dimension with
  | nil => exact absurd h (Nat.not_lt_zero _)
  | cons extent extents ih =>
    cases dimension with
    | zero => exact congrArg (· % extent) (rowMajor_left extents ordinal)
    | succ dimension => exact ih (Nat.lt_of_succ_lt_succ h)

/-- Among ordinals of which the same is left, a smaller ordinal has smaller indices. -/
theorem rowMajor_lex {extents : List Nat} (h : ∀ extent ∈ extents, 0 < extent)
    {ordinal ordinal' : Nat} (hless : ordinal < ordinal')
    (hleft : (rowMajor extents ordinal).2 = (rowMajor extents ordinal').2) :
    (rowMajor extents ordinal).1 < (rowMajor extents ordinal').1 := by
  induction extents with
  | nil => exact absurd hleft hless.ne
  | cons extent extents ih =>
    rw [List.forall_mem_cons] at h
    have hquotient : (rowMajor extents ordinal).2 / extent =
        (rowMajor extents ordinal').2 / extent := hleft
    have hrest : (rowMajor extents ordinal).2 ≤ (rowMajor extents ordinal').2 := by
      rw [rowMajor_left, rowMajor_left]
      exact Nat.div_le_div_right hless.le
    apply List.cons_lt_cons_iff.2
    rcases hrest.lt_or_eq with hsmaller | hsame
    · -- The quotients agree, so the remainders are in the order of the numbers.
      left
      have hsplit := Nat.div_add_mod (rowMajor extents ordinal).2 extent
      have hsplit' := Nat.div_add_mod (rowMajor extents ordinal').2 extent
      rw [hquotient] at hsplit
      omega
    · right
      exact ⟨congrArg (· % extent) hsame, ih h.2 hsame⟩

end Library
end AscCpp
