import Mathlib.Tactic.Common

/-!
# WhileLoop — loops without a bound

A loop is run with a number of rounds at most, and has no value when they do not suffice.

- `whileLoop_mono`: more rounds do not change the value.
- `Ends.unique`: a loop that ends has one value.
-/

namespace AscCpp
namespace Library

variable {σ : Type}

/-- `while (guard) body`, for at most as many tests of the guard as there is fuel. -/
def whileLoop (guard : σ → Bool) (body : σ → σ) : Nat → σ → Option σ
  | 0, _ => none
  | fuel + 1, state => if guard state then whileLoop guard body fuel (body state) else some state

/-- The loop ends in a state. -/
def Ends (guard : σ → Bool) (body : σ → σ) (state last : σ) : Prop :=
  ∃ fuel, whileLoop guard body fuel state = some last

variable {guard : σ → Bool} {body : σ → σ} {state last : σ}

theorem whileLoop_of_guard (h : guard state = true) (fuel : Nat) :
    whileLoop guard body (fuel + 1) state = whileLoop guard body fuel (body state) := by
  simp [whileLoop, h]

theorem whileLoop_of_not_guard (h : guard state = false) (fuel : Nat) :
    whileLoop guard body (fuel + 1) state = some state := by
  simp [whileLoop, h]

theorem whileLoop_mono {fuel more : Nat} (hfuel : fuel ≤ more)
    (h : whileLoop guard body fuel state = some last) :
    whileLoop guard body more state = some last := by
  induction fuel generalizing more state with
  | zero => cases h
  | succ fuel ih =>
    rcases more with _ | more
    · omega
    · cases hguard : guard state with
      | true =>
        rw [whileLoop_of_guard hguard] at h ⊢
        exact ih (by omega) h
      | false =>
        rw [whileLoop_of_not_guard hguard] at h ⊢
        exact h

theorem Ends.of_not_guard (h : guard state = false) : Ends guard body state state :=
  ⟨1, whileLoop_of_not_guard h 0⟩

theorem Ends.of_guard (h : guard state = true) (hrest : Ends guard body (body state) last) :
    Ends guard body state last := by
  rcases hrest with ⟨fuel, hrun⟩
  exact ⟨fuel + 1, by rw [whileLoop_of_guard h, hrun]⟩

theorem Ends.unique {fuel : Nat} {other : σ} (h : Ends guard body state last)
    (hrun : whileLoop guard body fuel state = some other) : other = last := by
  rcases h with ⟨enough, henough⟩
  have hleft := whileLoop_mono (Nat.le_max_left enough fuel) henough
  have hright := whileLoop_mono (Nat.le_max_right enough fuel) hrun
  exact Option.some.inj (hright.symm.trans hleft)

end Library
end AscCpp
