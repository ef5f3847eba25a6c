import AscCpp.Core.Extents
import AscCpp.Library.Rejection
import AscCpp.Random.UniformInteger
import Mathlib.Order.Interval.Finset.Fin

/-!
# Unbiased — the law of a draw from an interval of integers

- `card_attempt`: every value of the interval has equally many candidates.
- `card_canonicalBits`: every candidate has equally many words, or pairs of words, of the engine.
- `draw_eq_first`: a draw is the value of the first candidate that is accepted.
-/

namespace AscCpp
namespace Random

open AscCpp.Core Finset Library

/-! ## Candidates -/

section Candidates

variable {type : IntegerType} (distribution : UniformIntegerDistribution type)

namespace UniformIntegerDistribution

theorem attempt_fin (h : SupportedRandomInteger type) (candidate : Fin (2 ^ type.width)) :
    distribution.attempt candidate = some (
      if 2 ^ type.width % distribution.size.toNat ≤ candidate.1 then
        some (distribution.lower.1 + (candidate.1 % distribution.size.toNat : Nat))
      else none) := by
  have hsize : (distribution.size.toNat : Int) = distribution.size :=
    Int.toNat_of_nonneg distribution.size_pos.le
  have hless : (candidate : Int) < 2 ^ type.width := by exact_mod_cast candidate.2
  rw [distribution.attempt_eq h (Int.natCast_nonneg _) hless]
  push_cast
  rw [hsize]
  congr 1
  exact if_congr (by rw [← hsize]; exact_mod_cast Iff.rfl) rfl rfl

/-- Every value of the interval has equally many candidates, and no other value has one. -/
theorem card_attempt (h : SupportedRandomInteger type) (value : Int) :
    #{candidate : Fin (2 ^ type.width) | distribution.attempt candidate = some (some value)} =
      if distribution.lower.1 ≤ value ∧ value ≤ distribution.upper.1 then
        2 ^ type.width / distribution.size.toNat
      else 0 := by
  have hpos := distribution.size_pos
  have hsize : distribution.size = distribution.upper.1 - distribution.lower.1 + 1 := rfl
  simp only [distribution.attempt_fin h, Option.some.injEq, Option.ite_none_right_eq_some]
  -- Inside the bounds the value fixes one remainder; outside no remainder gives it.
  split
  · rename_i hinside
    rw [← card_remainder (show (value - distribution.lower.1).toNat < distribution.size.toNat by omega)]
    congr 1
    ext candidate
    simp only [mem_filter, mem_univ, true_and]
    apply and_congr_right
    intro _
    omega
  · rename_i houtside
    rw [card_eq_zero, filter_eq_empty_iff]
    rintro candidate - ⟨-, hvalue⟩
    have := Nat.mod_lt candidate.1 (show 0 < distribution.size.toNat by omega)
    omega

theorem count_pos (h : SupportedRandomInteger type) :
    0 < 2 ^ type.width / distribution.size.toNat := by
  have hpos := distribution.size_pos
  have hle := distribution.size_le h
  have hcast : ((2 ^ type.width : Nat) : Int) = 2 ^ type.width := by push_cast; rfl
  exact Nat.div_pos (by omega) (by omega)

/-- At least half of the candidates are accepted. -/
theorem half_accepted (h : SupportedRandomInteger type) :
    2 ^ type.width ≤
      2 * #{candidate : Fin (2 ^ type.width) | distribution.attempt candidate ≠ some none} := by
  have hpos := distribution.size_pos
  have hle := distribution.size_le h
  have hcast : ((2 ^ type.width : Nat) : Int) = 2 ^ type.width := by push_cast; rfl
  -- The accepted candidates are those from the threshold on.
  have haccepted : #{candidate : Fin (2 ^ type.width) | distribution.attempt candidate ≠ some none} =
      2 ^ type.width - 2 ^ type.width % distribution.size.toNat := by
    have hiff : ∀ candidate : Fin (2 ^ type.width), distribution.attempt candidate ≠ some none ↔
        2 ^ type.width % distribution.size.toNat ≤ candidate.1 := by
      intro candidate
      rw [distribution.attempt_fin h]
      split <;> simp_all
    have hthreshold : 2 ^ type.width % distribution.size.toNat < 2 ^ type.width :=
      (Nat.mod_lt _ (by omega)).trans_le (by omega)
    rw [← Fin.card_Ici ⟨_, hthreshold⟩]
    congr 1
    ext candidate
    simp only [hiff, mem_filter, mem_univ, true_and, mem_Ici, Fin.le_def]
  -- The threshold is a remainder, and at least one whole copy of the range lies above it.
  have hless := Nat.mod_lt (2 ^ type.width) (show 0 < distribution.size.toNat by omega)
  have hmod := Nat.div_add_mod (2 ^ type.width) distribution.size.toNat
  have hcount := distribution.count_pos h
  have hmul := Nat.le_mul_of_pos_right distribution.size.toNat hcount
  rw [haccepted]
  omega

end UniformIntegerDistribution

end Candidates

/-! ## Words -/

/-- An engine that plays back a list of words. -/
def playback (digits : Nat) (h : digits = 32 ∨ digits = 64) :
    CanonicalRandomEngine (List (BitVec digits)) :=
  ⟨digits, h, fun words => (words.headD 0, words.tail)⟩

/-- How many words `CanonicalBits` takes. -/
def canonicalWords (bits digits : Nat) : Nat :=
  if digits = 64 ∨ bits ≤ 32 then 1 else 2

/-- The next words of an engine. -/
def engineWords {State : Type} (engine : CanonicalRandomEngine State) :
    Nat → State → List (BitVec engine.digits)
  | 0, _ => []
  | count + 1, state => (engine.next state).1 :: engineWords engine count (engine.next state).2

/-- The bits that an engine yields are those of its next words, played back. -/
theorem canonicalBits_playback {State : Type} (bits : Nat) (engine : CanonicalRandomEngine State)
    (state : State) :
    (canonicalBits bits engine state).1 =
      (canonicalBits bits (playback engine.digits engine.digits_eq)
        (engineWords engine (canonicalWords bits engine.digits) state)).1 := by
  unfold canonicalBits canonicalWords
  by_cases hwide : engine.digits = 64
  · simp [playback, hwide, engineWords]
  · by_cases hnarrow : bits ≤ 32
    · simp [playback, hwide, hnarrow, engineWords]
    · simp [playback, hwide, hnarrow, engineWords]

/-- The leading bits of the words are met equally often. -/
theorem card_leading {digits bits leading : Nat} (hbits : bits ≤ digits) (h : leading < 2 ^ bits) :
    #{word : Fin (2 ^ digits) | word.1 >>> (digits - bits) = leading} = 2 ^ (digits - bits) := by
  have hsplit : 2 ^ digits = 2 ^ bits * 2 ^ (digits - bits) := by
    rw [← pow_add, Nat.add_sub_cancel' hbits]
  have hpos : 0 < 2 ^ (digits - bits) := Nat.two_pow_pos _
  have hbound : (leading + 1) * 2 ^ (digits - bits) ≤ 2 ^ digits := by
    rw [hsplit]
    exact Nat.mul_le_mul_right _ h
  have hmem : ∀ word : Nat, word >>> (digits - bits) = leading ↔
      leading * 2 ^ (digits - bits) ≤ word ∧ word < (leading + 1) * 2 ^ (digits - bits) := by
    intro word
    rw [Nat.shiftRight_eq_div_pow, Nat.div_eq_iff hpos, Nat.add_mul]
    omega
  -- The words with the given leading bits form an interval.
  calc #{word : Fin (2 ^ digits) | word.1 >>> (digits - bits) = leading}
      = #(Ico (leading * 2 ^ (digits - bits)) ((leading + 1) * 2 ^ (digits - bits))) := by
        apply card_bij fun word _ => word.1
        · intro word hword
          rw [mem_filter, hmem] at hword
          exact mem_Ico.2 hword.2
        · exact fun _ _ _ _ => Fin.ext
        · intro word hword
          rw [mem_Ico] at hword
          exact ⟨⟨word, hword.2.trans_le hbound⟩, mem_filter.2 ⟨mem_univ _, (hmem word).2 hword⟩,
            rfl⟩
    _ = 2 ^ (digits - bits) := by
        rw [Nat.card_Ico, Nat.add_mul, Nat.one_mul, Nat.add_sub_cancel_left]

/-- Two words are one of twice as many bits. -/
theorem card_pair (digits : Nat) (p : Nat → Prop) [DecidablePred p] :
    #{words : Fin 2 → Fin (2 ^ digits) | p ((words 0).1 <<< digits ||| (words 1).1)} =
      #{word : Fin (2 ^ (digits + digits)) | p word.1} := by
  have hpow : 2 ^ (digits + digits) = 2 ^ digits * 2 ^ digits := pow_add 2 digits digits
  have hpos : 0 < 2 ^ digits := Nat.two_pow_pos digits
  -- The low word has no bit in common with the shifted one, so `|||` is a sum.
  have hjoin : ∀ words : Fin 2 → Fin (2 ^ digits),
      (words 0).1 <<< digits ||| (words 1).1 = 2 ^ digits * (words 0).1 + (words 1).1 := by
    intro words
    rw [← Nat.shiftLeft_add_eq_or_of_lt (words 1).2, Nat.shiftLeft_eq, Nat.mul_comm]
  have hbound : ∀ words : Fin 2 → Fin (2 ^ digits),
      2 ^ digits * (words 0).1 + (words 1).1 < 2 ^ (digits + digits) := by
    intro words
    calc 2 ^ digits * (words 0).1 + (words 1).1
        < 2 ^ digits * ((words 0).1 + 1) := by
          rw [Nat.mul_succ]
          exact Nat.add_lt_add_left (words 1).2 _
      _ ≤ 2 ^ (digits + digits) := hpow ▸ Nat.mul_le_mul_left _ (words 0).2
  simp only [hjoin]
  -- The pair is recovered from the sum as its quotient and remainder.
  apply card_bij fun words _ => ⟨2 ^ digits * (words 0).1 + (words 1).1, hbound words⟩
  · intro words hwords
    simpa using hwords
  · intro words _ words' _ heq
    have heq' := Fin.ext_iff.1 heq
    have hlow : words 1 = words' 1 := by
      have hmod := congrArg (· % 2 ^ digits) heq'
      simp only [Nat.mul_add_mod, Nat.mod_eq_of_lt (words 1).2, Nat.mod_eq_of_lt (words' 1).2]
        at hmod
      exact Fin.ext hmod
    have hhigh : words 0 = words' 0 := by
      have hdiv := congrArg (· / 2 ^ digits) heq'
      simp only [Nat.mul_add_div hpos, Nat.div_eq_of_lt (words 1).2, Nat.div_eq_of_lt (words' 1).2]
        at hdiv
      exact Fin.ext (by omega)
    exact funext (Fin.forall_fin_two.2 ⟨hhigh, hlow⟩)
  · intro word hword
    have hquotient : word.1 / 2 ^ digits < 2 ^ digits := Nat.div_lt_of_lt_mul (hpow ▸ word.2)
    refine ⟨Fin.cons ⟨_, hquotient⟩ fun _ => ⟨_, Nat.mod_lt word.1 hpos⟩, ?_, ?_⟩
    · simpa [Nat.div_add_mod] using hword
    · ext
      simp [Nat.div_add_mod]

/-- Of uniformly distributed words, the bits are uniformly distributed. -/
theorem card_canonicalBits {bits digits leading : Nat} (hdigits : digits = 32 ∨ digits = 64)
    (hbits : bits ≤ 64) (h : leading < 2 ^ bits) :
    #{words : Fin (canonicalWords bits digits) → Fin (2 ^ digits) |
      (canonicalBits bits (playback digits hdigits)
        (List.ofFn fun i => BitVec.ofFin (words i))).1 = leading} =
      2 ^ (canonicalWords bits digits * digits - bits) := by
  -- One call of the engine is enough, or the candidate is put together from two.
  by_cases hone : digits = 64 ∨ bits ≤ 32
  · have hwords : canonicalWords bits digits = 1 := if_pos hone
    have hle : bits ≤ digits := by omega
    have hvalue : ∀ words : List (BitVec digits),
        (canonicalBits bits (playback digits hdigits) words).1 =
          (words.headD 0).toNat >>> (digits - bits) := by
      intro words
      rcases hdigits with rfl | rfl
      · simp [canonicalBits, playback, show bits ≤ 32 by omega]
      · simp [canonicalBits, playback]
    simp only [hvalue]
    rw [hwords, Nat.one_mul, ← card_leading hle h]
    apply card_bij fun words _ => words 0
    · intro words hwords
      simpa using hwords
    · intro words _ words' _ heq
      funext i
      rw [Subsingleton.elim i 0, heq]
    · intro word hword
      exact ⟨fun _ => word, by simpa using hword, rfl⟩
  · have hwords : canonicalWords bits digits = 2 := if_neg hone
    have hvalue : ∀ words : Fin 2 → Fin (2 ^ digits),
        (canonicalBits bits (playback digits hdigits)
          (List.ofFn fun i => BitVec.ofFin (words i))).1 =
            ((words 0).1 <<< digits ||| (words 1).1) >>> (digits + digits - bits) := by
      intro words
      rcases hdigits with rfl | rfl
      · simp [canonicalBits, playback, show ¬ bits ≤ 32 by omega]
      · omega
    rw [hwords]
    simp only [hvalue]
    rw [card_pair digits fun value => value >>> (digits + digits - bits) = leading,
      card_leading (by omega) h, Nat.two_mul]

/-! ## Draws -/

section Draws

variable {type : IntegerType} {State : Type}

/-- The next candidates that an engine yields. -/
def candidates (type : IntegerType) (engine : CanonicalRandomEngine State) : Nat → State → List Int
  | 0, _ => []
  | count + 1, state =>
    let draw := UniformIntegerDistribution.candidate type engine state
    draw.1 :: candidates type engine count draw.2

theorem candidate_bounds (type : IntegerType) (engine : CanonicalRandomEngine State)
    (state : State) :
    0 ≤ (UniformIntegerDistribution.candidate type engine state).1 ∧
      (UniformIntegerDistribution.candidate type engine state).1 < 2 ^ type.width := by
  simp only [UniformIntegerDistribution.candidate, IntegerType.makeUnsigned_convert]
  exact ⟨Int.emod_nonneg _ (by positivity), Int.emod_lt_of_pos _ (by positivity)⟩

namespace UniformIntegerDistribution

variable (distribution : UniformIntegerDistribution type)

/-- The loop takes the value of the first candidate that its turn accepts. -/
theorem loop_eq_first (engine : CanonicalRandomEngine State) {range threshold : Int} {fuel : Nat}
    {state : State}
    (hturn : ∀ candidate, 0 ≤ candidate → candidate < 2 ^ type.width →
      distribution.turn range threshold candidate = distribution.attempt candidate ∧
        distribution.attempt candidate ≠ none) :
    (distribution.loop engine range threshold fuel state).map (·.map Prod.fst) =
      some ((candidates type engine fuel state).findSome? fun candidate =>
        (distribution.attempt candidate).join) := by
  -- On the fuel; a rejected candidate leaves the same loop with the next state.
  induction fuel generalizing state with
  | zero => rfl
  | succ fuel ih =>
    rcases candidate_bounds type engine state with ⟨hnonneg, hless⟩
    rcases hturn _ hnonneg hless with ⟨hattempt, hdefined⟩
    rw [loop, candidates, List.findSome?_cons]
    simp only [hattempt]
    rcases hcase : distribution.attempt (candidate type engine state).1 with _ | _ | value
    · exact absurd hcase hdefined
    · exact ih
    · rfl

/-- A draw takes the value of the first candidate that is accepted. -/
theorem draw_eq_first (h : SupportedRandomInteger type) (engine : CanonicalRandomEngine State)
    (fuel : Nat) (state : State) :
    (distribution.draw engine (fuel + 1) state).map (·.map Prod.fst) =
      some ((candidates type engine (fuel + 1) state).findSome? fun candidate =>
        (distribution.attempt candidate).join) := by
  have hpos := distribution.size_pos
  have hdefined : ∀ candidate, 0 ≤ candidate → candidate < 2 ^ type.width →
      distribution.attempt candidate ≠ none := by
    intro candidate hnonneg hless
    simp [distribution.attempt_eq h hnonneg hless]
  -- A range that covers the whole type wraps to zero and has its own branch in the source.
  rcases (distribution.size_le h).lt_or_eq with hsmall | hfull
  · have hrange : distribution.range = some distribution.size := by
      rw [distribution.range_eq h, Int.emod_eq_of_lt hpos.le hsmall]
    have hthreshold := threshold_eq h hpos hsmall
    rw [draw, hrange]
    simp only [hpos.ne', if_false, hthreshold]
    apply distribution.loop_eq_first engine
    intro candidate hnonneg hless
    refine ⟨?_, hdefined candidate hnonneg hless⟩
    simp [attempt, hrange, hpos.ne', hthreshold]
  · -- No candidate is rejected.
    rcases candidate_bounds type engine state with ⟨hnonneg, hless⟩
    have hrange : distribution.range = some 0 := by
      rw [distribution.range_eq h, hfull, Int.emod_self]
    have hattempt := distribution.attempt_eq h hnonneg hless
    rw [hfull, Int.emod_self, if_pos hnonneg, Int.emod_eq_of_lt hnonneg hless] at hattempt
    have hoffset : addOffset type distribution.lower.1 (candidate type engine state).1 =
        some (distribution.lower.1 + (candidate type engine state).1) := by
      simpa [attempt, hrange] using hattempt
    rw [draw, hrange, candidates, List.findSome?_cons]
    simp [hattempt, hoffset]

end UniformIntegerDistribution

/-- A draw is exactly unbiased: its arithmetic is defined, each value of the interval has equally
many candidates and no other value has any, at least half of the candidates are accepted, an engine
yields every candidate for equally many of its words, and a draw is the value of the first candidate
that is accepted. -/
theorem uniform_integer_unbiased (h : SupportedRandomInteger type)
    (distribution : UniformIntegerDistribution type) :
    (∀ candidate : Fin (2 ^ type.width), distribution.attempt candidate ≠ none) ∧
    (∃ count > 0, ∀ value,
      #{candidate : Fin (2 ^ type.width) | distribution.attempt candidate = some (some value)} =
        if distribution.lower.1 ≤ value ∧ value ≤ distribution.upper.1 then count else 0) ∧
    2 ^ type.width ≤
      2 * #{candidate : Fin (2 ^ type.width) | distribution.attempt candidate ≠ some none} ∧
    (∀ offset, 0 ≤ offset → offset ≤ distribution.upper.1 - distribution.lower.1 →
      addOffset type distribution.lower.1 offset = some (distribution.lower.1 + offset)) ∧
    (∀ digits (hdigits : digits = 32 ∨ digits = 64), ∃ count > 0, ∀ candidate < 2 ^ type.width,
      #{words : Fin (canonicalWords type.width digits) → Fin (2 ^ digits) |
        (canonicalBits type.width (playback digits hdigits)
          (List.ofFn fun i => BitVec.ofFin (words i))).1 = candidate} = count) ∧
    (∀ {State : Type} (engine : CanonicalRandomEngine State) (state : State),
      (canonicalBits type.width engine state).1 =
        (canonicalBits type.width (playback engine.digits engine.digits_eq)
          (engineWords engine (canonicalWords type.width engine.digits) state)).1) ∧
    (∀ {State : Type} (engine : CanonicalRandomEngine State) (fuel : Nat) (state : State),
      (distribution.draw engine (fuel + 1) state).map (·.map Prod.fst) =
        some ((candidates type engine (fuel + 1) state).findSome? fun candidate =>
          (distribution.attempt candidate).join)) ∧
    (∀ length value value',
      distribution.lower.1 ≤ value → value ≤ distribution.upper.1 →
      distribution.lower.1 ≤ value' → value' ≤ distribution.upper.1 →
      #(runs (fun candidate : Fin (2 ^ type.width) => (distribution.attempt candidate).join)
          length value) =
        #(runs (fun candidate : Fin (2 ^ type.width) => (distribution.attempt candidate).join)
          length value')) := by
  refine ⟨fun candidate => ?_, ⟨_, distribution.count_pos h, distribution.card_attempt h⟩,
    distribution.half_accepted h, ?_, ?_, canonicalBits_playback type.width,
    fun engine => distribution.draw_eq_first h engine, ?_⟩
  · simp [distribution.attempt_fin h]
  · intro offset hnonneg hle
    have hlower := distribution.lower.2.1
    have hupper := distribution.upper.2.2
    exact addOffset_eq h distribution.lower.2 hnonneg ⟨by omega, by omega⟩
  · intro digits hdigits
    have hbits : type.width ≤ 64 := by
      rcases h with h | h | h | h <;> omega
    exact ⟨_, Nat.two_pow_pos _, fun candidate => card_canonicalBits hdigits hbits⟩
  -- Two values inside the bounds have as many candidates each, hence as many runs.
  · intro length value value' hlower hupper hlower' hupper'
    apply card_runs_eq
    have hjoin : ∀ value, #{candidate : Fin (2 ^ type.width) |
        (distribution.attempt candidate).join = some value} =
          #{candidate : Fin (2 ^ type.width) |
            distribution.attempt candidate = some (some value)} := by
      intro value
      simp only [Option.join_eq_some_iff]
    rw [hjoin, hjoin, distribution.card_attempt h, distribution.card_attempt h,
      if_pos ⟨hlower, hupper⟩, if_pos ⟨hlower', hupper'⟩]

/-- The bounds of a signed byte interval whose size does not divide that of the type. -/
theorem uniform_integer_unbiased_sample :
    addOffset ⟨true, 8⟩ (-100) 150 = some (-100 + 150) :=
  (uniform_integer_unbiased (.inl rfl)
    ⟨⟨-100, by decide⟩, ⟨99, by decide⟩, by decide⟩).2.2.2.1 150 (by decide) (by decide)

end Draws

end Random
end AscCpp
