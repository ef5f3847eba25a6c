import AscCpp.Library.TrialDivision
import AscCpp.Random.Philox
import AscCpp.Random.Sobol

/-!
# Prime — the primes of the quasi-random sequences

`IsPrime` divides by 3 and by the odd numbers after it, and `PrimeAt` counts the candidates that
pass.  The addition of `IsPrime` is a parameter: the one of the words, or the same without a value
where it would wrap around.

- `trialDivision_eq`: the loop ends, and it ends with the right answer.
- `searchPrime_eq`: the search ends at the prime with a number.
- `isPrime_primeAt_correct`: both functions, with the rounds that they need at most.
-/

namespace AscCpp
namespace Random

open AscCpp.Core Library

/-- `left + right` as the code computes it. -/
def wrappingAdd (left right : Word) : Option Word :=
  some (left + right)

/-- `left + right` where it does not wrap around. -/
def exactAdd (left right : Word) : Option Word :=
  if left.toNat + right.toNat < 2 ^ 32 then some (left + right) else none

/-- The loop of `IsPrime` from a divisor on. -/
def trialDivision (add : Word → Word → Option Word) (candidate : Word) : Nat → Word → Option Bool
  | 0, _ => none
  | fuel + 1, divisor =>
    if divisor ≤ candidate / divisor then
      if candidate % divisor = 0 then
        some false
      else do
        let next ← add divisor 2
        trialDivision add candidate fuel next
    else
      some true

def isPrime (add : Word → Word → Option Word) (fuel : Nat) (candidate : Word) : Option Bool :=
  if candidate < 2 then
    some false
  else if candidate &&& 1 = 0 then
    some (candidate = 2)
  else
    trialDivision add candidate fuel 3

/-- The loop of `PrimeAt` from a candidate on. -/
def searchPrime (index : Nat) : Nat → Word → Nat → Option Word
  | 0, _, _ => none
  | fuel + 1, candidate, found => do
    let prime ← isPrime wrappingAdd fuel candidate
    if prime then
      if found = index then
        some candidate
      else
        searchPrime index fuel (candidate + 1) (found + 1)
    else
      searchPrime index fuel (candidate + 1) found

def primeAt (fuel index : Nat) : Option (Result Word) :=
  if index ≥ sobolDimensionCount then
    some (.error
      { code := .index
        message := "Prime index exceeds the supported QMC dimension domain" })
  else do
    let prime ← searchPrime index fuel 2 0
    some (.ok prime)

example : isPrime exactAdd 4 49 = some false := by
  decide

example : primeAt 9 3 = some (.ok 7) := by
  decide

/-! ## Trial division -/

/-- The addition is that of the words, at least where they do not wrap around. -/
def Adds (add : Word → Word → Option Word) : Prop :=
  ∀ left right : Word, left.toNat + right.toNat < 2 ^ 32 → add left right = some (left + right)

theorem wrappingAdd_adds : Adds wrappingAdd :=
  fun _ _ _ => rfl

theorem exactAdd_adds : Adds exactAdd :=
  fun _ _ h => if_pos h

/-- No odd number from 3 on and below the divisor divides the candidate. -/
def Tried (candidate divisor : Nat) : Prop :=
  ∀ tried, tried % 2 = 1 → 3 ≤ tried → tried < divisor → ¬tried ∣ candidate

theorem Tried.next {candidate divisor : Nat} (h : Tried candidate divisor) (hodd : divisor % 2 = 1)
    (hnot : ¬divisor ∣ candidate) : Tried candidate (divisor + 2) := by
  intro tried htried hthree hless
  rcases Nat.lt_or_ge tried divisor with hbefore | hafter
  · exact h tried htried hthree hbefore
  · obtain rfl : tried = divisor := by omega
    exact hnot

/-- From a divisor on, each round passes one odd number, and the divisor never exceeds
`2 ^ 16 + 1`. -/
theorem trialDivision_eq {add : Word → Word → Option Word} (hadd : Adds add) {candidate : Word}
    (hcandidate : 2 ≤ candidate.toNat) (hodd : candidate.toNat % 2 = 1) (fuel : Nat) :
    ∀ divisor : Word, divisor.toNat % 2 = 1 → 3 ≤ divisor.toNat → divisor.toNat ≤ 2 ^ 16 + 1 →
      2 ^ 16 + 1 < divisor.toNat + 2 * fuel → Tried candidate.toNat divisor.toNat →
      trialDivision add candidate fuel divisor = some (decide candidate.toNat.Prime) := by
  -- The invariant `htried`: no odd divisor below the present one divides the candidate.
  induction fuel with
  | zero => omega
  | succ fuel ih =>
    intro divisor hdivisor hthree hlarge hfuel htried
    -- The guard divides, so that the square of the divisor is never formed.
    have hguard : divisor ≤ candidate / divisor ↔
        divisor.toNat * divisor.toNat ≤ candidate.toNat := by
      rw [BitVec.le_def, BitVec.toNat_udiv, Nat.le_div_iff_mul_le (by omega)]
    rw [trialDivision]
    by_cases hsquare : divisor.toNat * divisor.toNat ≤ candidate.toNat
    · rw [if_pos (hguard.2 hsquare)]
      have hdvd : candidate % divisor = 0 ↔ divisor.toNat ∣ candidate.toNat := by
        rw [Nat.dvd_iff_mod_eq_zero, ← BitVec.toNat_inj, BitVec.toNat_umod]
        rfl
      by_cases hzero : divisor.toNat ∣ candidate.toNat
      · rw [if_pos (hdvd.2 hzero), Option.some.injEq, eq_comm, decide_eq_false_iff_not,
          prime_iff_odd_not_dvd hcandidate hodd]
        exact fun hnone => hnone _ hdivisor hthree hsquare hzero
      · -- A divisor up to the root of a word has half the bits, so the next one is a word.
        have hroot : divisor.toNat < 2 ^ 16 := by
          apply Nat.mul_self_lt_mul_self_iff.1
          exact hsquare.trans_lt candidate.isLt
        have hnext : (divisor + 2).toNat = divisor.toNat + 2 := by
          rw [BitVec.toNat_add]
          exact Nat.mod_eq_of_lt (show divisor.toNat + 2 < 2 ^ 32 by omega)
        rw [if_neg (mt hdvd.1 hzero), hadd divisor 2 (show divisor.toNat + 2 < 2 ^ 32 by omega)]
        apply ih <;> rw [hnext]
        · omega
        · omega
        · omega
        · omega
        · exact htried.next hdivisor hzero
    -- Every divisor up to the root was tried.
    · rw [if_neg (mt hguard.1 hsquare), Option.some.injEq, eq_comm, decide_eq_true_iff,
        prime_iff_odd_not_dvd hcandidate hodd]
      intro tried hparity hleast hbelow
      apply htried tried hparity hleast
      by_contra hgreater
      exact hsquare ((Nat.mul_le_mul (not_lt.1 hgreater) (not_lt.1 hgreater)).trans hbelow)

theorem isPrime_eq {add : Word → Word → Option Word} (hadd : Adds add) {fuel : Nat}
    (hfuel : 2 ^ 15 ≤ fuel) (candidate : Word) :
    isPrime add fuel candidate = some (decide candidate.toNat.Prime) := by
  have htwo : candidate < 2 ↔ candidate.toNat < 2 := BitVec.lt_def
  have hparity : candidate &&& 1 = 0 ↔ candidate.toNat % 2 = 0 := by
    rw [← BitVec.toNat_inj, BitVec.toNat_and]
    exact Nat.and_one_is_mod candidate.toNat ▸ Iff.rfl
  unfold isPrime
  by_cases hsmall : candidate.toNat < 2
  · rw [if_pos (htwo.2 hsmall), Option.some.injEq, eq_comm, decide_eq_false_iff_not]
    exact fun hprime => hsmall.not_ge hprime.two_le
  rw [if_neg (mt htwo.1 hsmall)]
  -- An even number is prime only when it is two; the others go to the trial division.
  by_cases heven : candidate.toNat % 2 = 0
  · rw [if_pos (hparity.2 heven), Option.some.injEq, decide_eq_decide, ← BitVec.toNat_inj]
    constructor
    · intro heq
      rw [heq]
      exact Nat.prime_two
    · intro hprime
      exact hprime.eq_two_or_odd.resolve_right (by omega)
  · rw [if_neg (mt hparity.1 heven)]
    apply trialDivision_eq hadd (by omega) (by omega) fuel 3 rfl le_rfl (by decide)
    · exact (by omega : 2 ^ 16 + 1 < 3 + 2 * fuel)
    · intro tried _ hthree hless
      exact absurd hless (not_lt.2 hthree)

/-! ## The search -/

theorem searchPrime_eq {prime : Nat} (hword : prime < 2 ^ 32) (hprime : prime.Prime) (fuel : Nat) :
    ∀ candidate : Word, candidate.toNat ≤ prime → prime - candidate.toNat + 2 ^ 15 < fuel →
      searchPrime (prime.count Nat.Prime) fuel candidate (candidate.toNat.count Nat.Prime) =
        some (BitVec.ofNat 32 prime) := by
  -- The primes below the candidate are the ones the search has counted.
  induction fuel with
  | zero => omega
  | succ fuel ih =>
    intro candidate hle hfuel
    have hnext : candidate.toNat < prime → (candidate + 1).toNat = candidate.toNat + 1 := by
      intro hless
      rw [BitVec.toNat_add]
      exact Nat.mod_eq_of_lt (show candidate.toNat + 1 < 2 ^ 32 by omega)
    rw [searchPrime, isPrime_eq wrappingAdd_adds (by omega), Option.bind_eq_bind, Option.bind_some]
    rcases hle.lt_or_eq with hless | rfl
    · have hrest := ih (candidate + 1) (by rw [hnext hless]; omega) (by rw [hnext hless]; omega)
      rw [hnext hless, Nat.count_succ] at hrest
      by_cases hfound : candidate.toNat.Prime
      · -- A smaller prime is counted, so it is not the one with the number.
        have hearlier := Nat.count_strict_mono hfound hless
        rw [if_pos (by simpa using hfound), if_neg hearlier.ne]
        rwa [if_pos hfound] at hrest
      · rw [if_neg (by simpa using hfound)]
        rwa [if_neg hfound] at hrest
    · rw [if_pos (by simpa using hprime), if_pos rfl, BitVec.ofNat_toNat, BitVec.setWidth_eq]

/-- Both functions return within a fixed number of rounds: `IsPrime` decides whether a word is
prime, with no addition that wraps around, and `PrimeAt` has the prime with a number. -/
theorem isPrime_primeAt_correct :
    (∀ candidate : Word, ∀ fuel ≥ 2 ^ 15,
      isPrime wrappingAdd fuel candidate = some (decide candidate.toNat.Prime) ∧
        isPrime exactAdd fuel candidate = isPrime wrappingAdd fuel candidate) ∧
      ∀ index < sobolDimensionCount, ∃ prime : Word, prime.toNat.Prime ∧
        prime.toNat.count Nat.Prime = index ∧
        ∀ fuel ≥ 2 ^ 20, primeAt fuel index = some (.ok prime) := by
  refine ⟨fun candidate fuel hfuel => ?_, fun index hindex => ?_⟩
  · have hwrapping := isPrime_eq wrappingAdd_adds hfuel candidate
    exact ⟨hwrapping, (isPrime_eq exactAdd_adds hfuel candidate).trans hwrapping.symm⟩
  · -- There are more than 27000 primes up to `2 ^ 19`.
    have hcount : sobolDimensionCount ≤ (2 ^ 19 + 1).count Nat.Prime := by
      have hbound := two_pow_le_mul_primeCounting 19
      rw [Nat.primeCounting, Nat.primeCounting'] at hbound
      unfold sobolDimensionCount
      omega
    rcases exists_prime_of_count_lt (hindex.trans_le hcount) with ⟨prime, hless, hprime, hnumber⟩
    have hword : prime < 2 ^ 32 := by omega
    have hvalue : (BitVec.ofNat 32 prime).toNat = prime := Nat.mod_eq_of_lt hword
    refine ⟨BitVec.ofNat 32 prime, by rwa [hvalue], by rwa [hvalue], fun fuel hfuel => ?_⟩
    have hfirst : (2 : Word).toNat.count Nat.Prime = 0 := by decide
    have hsearch := searchPrime_eq hword hprime fuel 2 hprime.two_le
      (show prime - 2 + 2 ^ 15 < fuel by omega)
    rw [hfirst, hnumber] at hsearch
    rw [primeAt, if_neg (not_le.2 hindex), hsearch]
    rfl

theorem isPrime_primeAt_correct_sample :
    isPrime wrappingAdd (2 ^ 15) 4294967291 = some (decide (Nat.Prime 4294967291)) ∧
      ∃ prime : Word, prime.toNat.Prime ∧ prime.toNat.count Nat.Prime = 21200 ∧
        primeAt (2 ^ 20) 21200 = some (.ok prime) := by
  refine ⟨(isPrime_primeAt_correct.1 4294967291 (2 ^ 15) le_rfl).1, ?_⟩
  rcases isPrime_primeAt_correct.2 21200 (by decide) with ⟨prime, hprime, hcount, hrun⟩
  exact ⟨prime, hprime, hcount, hrun (2 ^ 20) le_rfl⟩

end Random
end AscCpp
