import Mathlib.Data.Fintype.BigOperators
import Mathlib.Data.Int.CardIntervalMod
import Mathlib.Data.Rat.Cast.Lemmas

/-!
# Rejection — unbiased draws by rejection

Candidates are drawn until one of them has a value.  When two values have equally many candidates,
then equally many runs of any length lead to each of them.

- `card_remainder`: past the remainder of the total, every remainder is met equally often.
- `card_runs_eq`: the law of the runs follows from that of one candidate.
-/

namespace AscCpp
namespace Library

open Finset

/-! ## Remainders -/

/-- The candidates from the threshold on fall evenly into the classes of their remainders. -/
theorem card_remainder {total size remainder : Nat} (hremainder : remainder < size) :
    #{candidate : Fin total | total % size ≤ candidate ∧ candidate % size = remainder} =
      total / size := by
  have hpos : 0 < size := by omega
  -- The candidates kept are an interval, whose length is a multiple of the size.
  have hinterval : #{candidate : Fin total | total % size ≤ candidate ∧
      candidate % size = remainder} =
        #{candidate ∈ Ico (total % size) total | candidate ≡ remainder [MOD size]} := by
    apply card_bij (fun candidate _ => candidate.1)
    · intro candidate hcandidate
      simp only [mem_filter, mem_univ, true_and] at hcandidate
      simp only [mem_filter, mem_Ico, Nat.ModEq, Nat.mod_eq_of_lt hremainder]
      exact ⟨⟨hcandidate.1, candidate.2⟩, hcandidate.2⟩
    · exact fun _ _ _ _ => Fin.ext
    · intro candidate hcandidate
      simp only [mem_filter, mem_Ico, Nat.ModEq, Nat.mod_eq_of_lt hremainder] at hcandidate
      exact ⟨⟨candidate, hcandidate.1.2⟩, by simpa using ⟨hcandidate.1.1, hcandidate.2⟩, rfl⟩
  have hsize : (size : Rat) ≠ 0 := by exact_mod_cast hpos.ne'
  have htotal : (total : Rat) = size * (total / size : Nat) + (total % size : Nat) := by
    exact_mod_cast (Nat.div_add_mod total size).symm
  have hshift : ((total : Rat) - remainder) / size =
      ((total % size : Nat) - remainder) / size + (total / size : Nat) := by
    rw [htotal, add_sub_assoc, add_div, mul_div_cancel_left₀ _ hsize, add_comm]
  have hcard := Nat.Ico_filter_modEq_card (total % size) total hpos remainder
  rw [hshift, Int.ceil_add_natCast, add_sub_cancel_left, max_eq_left (Int.natCast_nonneg _)] at hcard
  rw [hinterval]
  exact_mod_cast hcard

/-! ## Runs -/

variable {α β : Type} [Fintype α] [DecidableEq β]

/-- The runs of some length whose first candidate with a value has the given one. -/
def runs (attempt : α → Option β) (length : Nat) (value : β) : Finset (Fin length → α) :=
  {run | (List.ofFn run).findSome? attempt = some value}

/-- A run either ends at its first candidate, and then its rest does not matter, or goes on with its
rest. -/
theorem card_runs_succ (attempt : α → Option β) (length : Nat) (value : β) :
    #(runs attempt (length + 1) value) =
      #{candidate | attempt candidate = some value} * Fintype.card α ^ length +
        #{candidate | attempt candidate = none} * #(runs attempt length value) := by
  -- A first candidate that is accepted decides the run, whatever comes behind.
  have hfirst : ∀ (candidate : α), (∑ run : Fin length → α,
      if (List.ofFn (Fin.cons candidate run : Fin (length + 1) → α)).findSome? attempt = some value
        then 1 else 0) =
        (if attempt candidate = some value then Fintype.card α ^ length else 0) +
          if attempt candidate = none then #(runs attempt length value) else 0 := by
    intro candidate
    simp only [List.ofFn_succ, Fin.cons_zero, Fin.cons_succ, List.findSome?_cons]
    cases hattempt : attempt candidate with
    | none => rw [if_neg (by simp), if_pos rfl, Nat.zero_add, runs, card_filter]
    | some found => by_cases hfound : found = value <;> simp [hfound]
  calc #(runs attempt (length + 1) value)
      = ∑ run : Fin (length + 1) → α,
          if (List.ofFn run).findSome? attempt = some value then 1 else 0 := by
        rw [runs, card_filter]
    _ = ∑ pair : α × (Fin length → α),
          if (List.ofFn (Fin.cons pair.1 pair.2 : Fin (length + 1) → α)).findSome? attempt =
            some value then 1 else 0 :=
        (Fintype.sum_equiv (Fin.consEquiv fun _ => α) _ _ fun _ => rfl).symm
    _ = _ := by
        rw [Fintype.sum_prod_type]
        simp only [hfirst, sum_add_distrib, sum_ite, sum_const_zero, add_zero, sum_const,
          nsmul_eq_mul, Nat.cast_id]

/-- Values with equally many candidates have equally many runs. -/
theorem card_runs_eq {attempt : α → Option β} {value value' : β}
    (h : #{candidate | attempt candidate = some value} =
      #{candidate | attempt candidate = some value'}) (length : Nat) :
    #(runs attempt length value) = #(runs attempt length value') := by
  induction length with
  | zero => simp [runs]
  | succ length ih => rw [card_runs_succ, card_runs_succ, h, ih]

end Library
end AscCpp
