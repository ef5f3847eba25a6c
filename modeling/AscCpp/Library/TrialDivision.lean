import Mathlib.NumberTheory.Chebyshev

/-!
# TrialDivision — primes by odd divisors, and how many there are

An odd number is prime when no odd number up to its square root divides it.  Below a power of two
there are almost as many primes as that power divided by its exponent.

- `prime_iff_odd_not_dvd`: the odd divisors up to the root decide.
- `exists_prime_of_count_lt`: the prime with a number, below a bound that has enough of them.
-/

namespace AscCpp
namespace Library

theorem prime_iff_odd_not_dvd {number : Nat} (hnumber : 2 ≤ number) (hodd : number % 2 = 1) :
    number.Prime ↔
      ∀ divisor, divisor % 2 = 1 → 3 ≤ divisor → divisor * divisor ≤ number →
        ¬divisor ∣ number := by
  constructor
  · intro hprime divisor _ hthree hsquare hdvd
    rcases hprime.eq_one_or_self_of_dvd divisor hdvd with rfl | rfl
    · omega
    · have hlarge := Nat.mul_le_mul_right divisor hthree
      omega
  · intro hnone
    by_contra hcomposite
    -- The least factor of a composite number is odd with it, and at most its root.
    have hdvd := Nat.minFac_dvd number
    have hprime := Nat.minFac_prime (by omega : number ≠ 1)
    have hroot := Nat.minFac_sq_le_self (by omega) hcomposite
    have hfactor : number.minFac % 2 = 1 := by
      by_contra heven
      have htwo : 2 ∣ number := (Nat.dvd_of_mod_eq_zero (by omega)).trans hdvd
      omega
    have htwo := hprime.two_le
    exact hnone _ hfactor (by omega) (by rwa [← sq]) hdvd

/-- Chebyshev's bound at a power of two. -/
theorem two_pow_le_mul_primeCounting (exponent : Nat) :
    2 ^ exponent ≤ exponent * (2 ^ exponent).primeCounting + exponent + 1 := by
  rcases Nat.eq_zero_or_pos exponent with rfl | hpositive
  · simp
  have hlogTwo : 0 < Real.log 2 := Real.log_pos (by norm_num)
  have hexponent : (0 : ℝ) < exponent := Nat.cast_pos.2 hpositive
  have hlog : Real.log ((2 ^ exponent : Nat) : ℝ) = exponent * Real.log 2 := by
    rw [Nat.cast_pow, Real.log_pow, Nat.cast_ofNat]
  have hsuccessor : Real.log (((2 ^ exponent : Nat) : ℝ) + 1) ≤ (exponent + 1) * Real.log 2 := by
    have hone : (1 : ℝ) ≤ 2 ^ exponent := one_le_pow₀ (by norm_num)
    calc Real.log (((2 ^ exponent : Nat) : ℝ) + 1) ≤ Real.log (2 ^ (exponent + 1)) := by
          apply Real.log_le_log (by positivity)
          rw [pow_succ]
          push_cast
          linarith
      _ = (exponent + 1) * Real.log 2 := by rw [Real.log_pow, Nat.cast_succ]
  have hcount := Chebyshev.pi_ge (2 ^ exponent)
  rw [hlog, div_le_iff₀ (mul_pos hexponent hlogTwo)] at hcount
  have hscaled : ((2 ^ exponent : Nat) : ℝ) * Real.log 2 ≤
      (exponent * (2 ^ exponent).primeCounting + exponent + 1 : Nat) * Real.log 2 := by
    push_cast at hcount hsuccessor ⊢
    linarith
  exact_mod_cast le_of_mul_le_mul_right hscaled hlogTwo

/-- The prime with a number lies below a bound that has more primes than that. -/
theorem exists_prime_of_count_lt {index bound : Nat} (h : index < bound.count Nat.Prime) :
    ∃ prime < bound, prime.Prime ∧ prime.count Nat.Prime = index := by
  have hinfinite : (Set.ofPred Nat.Prime).Infinite := Nat.infinite_setOfPred_prime
  exact ⟨Nat.nth Nat.Prime index, Nat.nth_lt_of_lt_count h, Nat.nth_mem_of_infinite hinfinite index,
    Nat.count_nth_of_infinite hinfinite index⟩

end Library
end AscCpp
