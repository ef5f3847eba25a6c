import AscCpp.Core.Arithmetic
import AscCpp.Random.Philox

/-!
# UniformInteger — draws from an interval of integers
-/

namespace AscCpp
namespace Random

open AscCpp.Core

/-! ## Engines -/

/-- `CanonicalRandomEngine`: words of 32 or of 64 bits. -/
structure CanonicalRandomEngine (State : Type) where
  digits : Nat
  digits_eq : digits = 32 ∨ digits = 64
  next : State → BitVec digits × State

theorem digits_of_double : 64 = 32 ∨ 64 = 64 :=
  .inr rfl

variable {State : Type}

/-- `CanonicalBits`: the leading bits of a word, or of two. -/
def canonicalBits (bits : Nat) (engine : CanonicalRandomEngine State) (state : State) :
    Nat × State :=
  if engine.digits = 64 then
    let draw := engine.next state
    (draw.1.toNat >>> (64 - bits), draw.2)
  else if bits ≤ 32 then
    let draw := engine.next state
    (draw.1.toNat >>> (32 - bits), draw.2)
  else
    let high := engine.next state
    let low := engine.next high.2
    ((high.1.toNat <<< 32 ||| low.1.toNat) >>> (64 - bits), low.2)

/-! ## The distribution -/

/-- `SupportedRandomInteger`. -/
def SupportedRandomInteger (type : IntegerType) : Prop :=
  type.width = 8 ∨ type.width = 16 ∨ type.width = 32 ∨ type.width = 64

/-- `AddOffset`; without a value the computation is undefined. -/
def addOffset (type : IntegerType) (lower offset : Int) : Option Int :=
  let unsigned := type.makeUnsigned
  if ¬ type.signed ∨ lower ≥ 0 then
    (unsigned.arithmetic (unsigned.convert lower + offset)).map type.convert
  else do
    let negativeCount ← (unsigned.arithmetic (0 - unsigned.convert lower)).map unsigned.convert
    if offset < negativeCount then
      let magnitude ← (unsigned.arithmetic (negativeCount - offset)).map unsigned.convert
      -- The literal `1U` makes the sum unsigned for every width.
      let minimumMagnitude := unsigned.convert (unsigned.convert type.maximum + 1)
      if magnitude = minimumMagnitude then
        some type.minimum
      else
        (type.arithmetic (-type.convert magnitude)).map type.convert
    else
      (unsigned.arithmetic (offset - negativeCount)).map type.convert

/-- `UniformIntegerDistribution`, whose bounds are in order. -/
structure UniformIntegerDistribution (type : IntegerType) where
  lower : type.Value
  upper : type.Value
  lower_le_upper : lower.1 ≤ upper.1

namespace UniformIntegerDistribution

variable {type : IntegerType}

def create (lower upper : type.Value) : Result (UniformIntegerDistribution type) :=
  if h : lower.1 > upper.1 then
    .error { code := .invalidArgument, message := "Uniform integer bounds are reversed" }
  else
    .ok ⟨lower, upper, not_lt.1 h⟩

/-- The number of values, modulo the size of the type. -/
def range (distribution : UniformIntegerDistribution type) : Option Int := do
  let unsigned := type.makeUnsigned
  let difference ← unsigned.arithmetic
    (unsigned.convert distribution.upper.1 - unsigned.convert distribution.lower.1)
  (unsigned.arithmetic (difference + 1)).map unsigned.convert

/-- The least candidate that is accepted. -/
def threshold (type : IntegerType) (range : Int) : Option Int := do
  let unsigned := type.makeUnsigned
  let difference ← unsigned.arithmetic (unsigned.maximum - range)
  let wrappedNegative ← (unsigned.arithmetic (difference + 1)).map unsigned.convert
  (unsigned.arithmetic (wrappedNegative.tmod range)).map unsigned.convert

/-- One turn of the loop: a value, or none when the candidate is rejected. -/
def turn (distribution : UniformIntegerDistribution type) (range threshold candidate : Int) :
    Option (Option Int) :=
  let unsigned := type.makeUnsigned
  if candidate ≥ threshold then do
    let offset ← (unsigned.arithmetic (candidate.tmod range)).map unsigned.convert
    let value ← addOffset type distribution.lower.1 offset
    some (some value)
  else
    some none

/-- `static_cast<Unsigned>(CanonicalBits<kBits>(engine))`. -/
def candidate (type : IntegerType) (engine : CanonicalRandomEngine State) (state : State) :
    Int × State :=
  let bits := canonicalBits type.width engine state
  (type.makeUnsigned.convert bits.1, bits.2)

/-- The loop, with fuel. -/
def loop (distribution : UniformIntegerDistribution type) (engine : CanonicalRandomEngine State)
    (range threshold : Int) : Nat → State → Option (Option (Int × State))
  | 0, _ => some none
  | fuel + 1, state =>
    let draw := candidate type engine state
    match distribution.turn range threshold draw.1 with
    | none => none
    | some (some value) => some (some (value, draw.2))
    | some none => distribution.loop engine range threshold fuel draw.2

/-- `UniformIntegerDistribution::operator()`.  Without a value the computation is undefined; an
inner none says that the fuel does not suffice. -/
def draw (distribution : UniformIntegerDistribution type) (engine : CanonicalRandomEngine State)
    (fuel : Nat) (state : State) : Option (Option (Int × State)) :=
  match distribution.range with
  | none => none
  | some range =>
    if range = 0 then
      let draw := candidate type engine state
      (addOffset type distribution.lower.1 draw.1).map fun value => some (value, draw.2)
    else
      match threshold type range with
      | none => none
      | some threshold => distribution.loop engine range threshold fuel state

/-- What becomes of a candidate, over the whole of the operator. -/
def attempt (distribution : UniformIntegerDistribution type) (candidate : Int) :
    Option (Option Int) := do
  let range ← distribution.range
  if range = 0 then
    (addOffset type distribution.lower.1 candidate).map some
  else
    let threshold ← threshold type range
    distribution.turn range threshold candidate

end UniformIntegerDistribution

/-! ## The arithmetic -/

section Arithmetic

variable {type : IntegerType}

theorem SupportedRandomInteger.width_pos (h : SupportedRandomInteger type) : 0 < type.width := by
  rcases h with h | h | h | h <;> omega

/-- Where operands are promoted, `int` has room for a few of them. -/
theorem SupportedRandomInteger.promotes (h : SupportedRandomInteger type) {exact : Int}
    (hlower : -2 * 2 ^ type.width ≤ exact) (hupper : exact ≤ 2 * 2 ^ type.width) :
    type.makeUnsigned.Promotes exact := by
  intro hnarrow
  rw [IntegerType.makeUnsigned_width] at hnarrow
  rcases h with h | h | h | h <;> rw [h] at hlower hupper hnarrow <;> omega

/-- An operator on unsigned operands whose result is converted to the type itself. -/
theorem SupportedRandomInteger.arithmetic_convert (h : SupportedRandomInteger type) {exact : Int}
    (hlower : -2 * 2 ^ type.width ≤ exact) (hupper : exact ≤ 2 * 2 ^ type.width) :
    (type.makeUnsigned.arithmetic exact).map type.convert = some (type.convert exact) :=
  IntegerType.arithmetic_map_convert rfl rfl (h.promotes hlower hupper)

/-- An operator on unsigned operands whose result stays unsigned. -/
theorem SupportedRandomInteger.arithmetic_emod (h : SupportedRandomInteger type) {exact : Int}
    (hlower : -2 * 2 ^ type.width ≤ exact) (hupper : exact ≤ 2 * 2 ^ type.width) :
    (type.makeUnsigned.arithmetic exact).map type.makeUnsigned.convert =
      some (exact % 2 ^ type.width) :=
  IntegerType.arithmetic_map_convert rfl rfl (h.promotes hlower hupper)

/-- Two operators in a row, of which only the last result is converted. -/
theorem SupportedRandomInteger.arithmetic_add_one (h : SupportedRandomInteger type) {exact : Int}
    (hlower : -2 ^ type.width ≤ exact) (hupper : exact < 2 ^ type.width) :
    (do
      let result ← type.makeUnsigned.arithmetic exact
      (type.makeUnsigned.arithmetic (result + 1)).map type.makeUnsigned.convert) =
      some ((exact + 1) % 2 ^ type.width) := by
  have hpos : (0 : Int) < 2 ^ type.width := Int.pow_pos (by decide)
  have hinner : type.makeUnsigned.Promotes exact := h.promotes (by omega) (by omega)
  rcases IntegerType.arithmetic_spec rfl hinner with ⟨result, hresult, hmod, hexact⟩
  simp only [IntegerType.makeUnsigned_width] at hmod hexact
  have hpromotes : type.makeUnsigned.Promotes (result + 1) := by
    intro hnarrow
    rw [hexact hnarrow]
    exact h.promotes (by omega) (by omega) hnarrow
  rw [hresult, Option.bind_eq_bind, Option.bind_some,
    IntegerType.arithmetic_map_convert rfl rfl hpromotes, IntegerType.makeUnsigned_convert,
    ← Int.emod_add_emod, hmod, Int.emod_add_emod]

/-- The size of the type is twice that of its half. -/
theorem SupportedRandomInteger.size_eq (h : SupportedRandomInteger type) :
    (2 : Int) ^ type.width = 2 * 2 ^ (type.width - 1) := by
  rw [← pow_succ', Nat.sub_add_cancel h.width_pos]

/-- What the bounds say about their differences. -/
theorem size_bounds (h : SupportedRandomInteger type) {lower upper : Int}
    (hlower : type.Representable lower) (hupper : type.Representable upper) :
    upper - lower < 2 ^ type.width ∧ lower < 2 ^ type.width ∧ -2 ^ type.width ≤ 2 * lower := by
  have hsize := h.size_eq
  have hpos : (0 : Int) < 2 ^ (type.width - 1) := Int.pow_pos (by decide)
  simp only [IntegerType.Representable, IntegerType.minimum, IntegerType.maximum] at hlower hupper
  split at hlower <;> simp_all <;> omega

theorem addOffset_eq (h : SupportedRandomInteger type) {lower offset : Int}
    (hlower : type.Representable lower) (hoffset : 0 ≤ offset)
    (hsum : type.Representable (lower + offset)) :
    addOffset type lower offset = some (lower + offset) := by
  have hsize := h.size_eq
  have hpos : (0 : Int) < 2 ^ (type.width - 1) := Int.pow_pos (by decide)
  rcases size_bounds h hlower hsum with ⟨hdifference, hless, hmore⟩
  have hmod := Int.emod_nonneg lower (show (2 : Int) ^ type.width ≠ 0 by omega)
  have hmod' := Int.emod_lt_of_pos lower (show (0 : Int) < 2 ^ type.width by omega)
  unfold addOffset
  simp only [IntegerType.makeUnsigned_convert]
  split
  · -- Modulo the size of the type, the sum is that of the integers.
    rw [h.arithmetic_convert (by omega) (by omega),
      IntegerType.convert_congr (Int.emod_add_emod lower _ offset),
      IntegerType.convert_of_representable h.width_pos hsum]
  · rename_i hcase
    simp only [not_or, not_not, ge_iff_le, not_le] at hcase
    rcases hcase with ⟨hsigned, hnegative⟩
    have hcount : (0 - lower % 2 ^ type.width) % 2 ^ type.width = -lower := by
      rw [Int.sub_emod_emod, zero_sub]
      exact Int.emod_eq_of_lt (by omega) (by omega)
    have hmaximum : type.maximum = 2 ^ (type.width - 1) - 1 := by
      simp [IntegerType.maximum, hsigned]
    have hminimum : type.minimum = -2 ^ (type.width - 1) := by
      simp [IntegerType.minimum, hsigned]
    -- The magnitude of the least value, which the source finds as maximum plus one.
    have hminimumMagnitude : (type.maximum % 2 ^ type.width + 1) % 2 ^ type.width =
        2 ^ (type.width - 1) := by
      rw [Int.emod_add_emod, hmaximum, sub_add_cancel]
      exact Int.emod_eq_of_lt (by omega) (by omega)
    rw [h.arithmetic_emod (by omega) (by omega), hcount, hminimumMagnitude, Option.bind_eq_bind,
      Option.bind_some]
    split
    · rename_i hbelow
      have hmagnitude : (-lower - offset) % 2 ^ type.width = -(lower + offset) := by
        rw [Int.emod_eq_of_lt (by omega) (by omega)]
        omega
      rw [h.arithmetic_emod (by omega) (by omega), hmagnitude, Option.bind_some]
      split
      · -- The least value has no positive counterpart.
        congr 1
        omega
      · rename_i hne
        have hrepresentable : type.Representable (-(lower + offset)) := by
          rw [IntegerType.Representable, hminimum, hmaximum] at hsum ⊢
          omega
        rw [IntegerType.convert_of_representable h.width_pos hrepresentable, neg_neg,
          IntegerType.arithmetic_of_representable hsigned hsum, Option.map_some,
          IntegerType.convert_of_representable h.width_pos hsum]
    · rw [h.arithmetic_convert (by omega) (by omega), sub_neg_eq_add, add_comm offset,
        IntegerType.convert_of_representable h.width_pos hsum]

/-! ## The number of values and the threshold -/

namespace UniformIntegerDistribution

/-- The number of values of the interval. -/
def size (distribution : UniformIntegerDistribution type) : Int :=
  distribution.upper.1 - distribution.lower.1 + 1

variable (distribution : UniformIntegerDistribution type)

theorem size_pos : 0 < distribution.size := by
  have := distribution.lower_le_upper
  unfold size
  omega

theorem size_le (h : SupportedRandomInteger type) : distribution.size ≤ 2 ^ type.width := by
  have := (size_bounds h distribution.lower.2 distribution.upper.2).1
  unfold size
  omega

theorem range_eq (h : SupportedRandomInteger type) :
    distribution.range = some (distribution.size % 2 ^ type.width) := by
  have hpos : (2 : Int) ^ type.width ≠ 0 := by positivity
  have hlower := Int.emod_nonneg distribution.lower.1 hpos
  have hlower' := Int.emod_lt_of_pos distribution.lower.1 (show (0 : Int) < 2 ^ type.width by omega)
  have hupper := Int.emod_nonneg distribution.upper.1 hpos
  have hupper' := Int.emod_lt_of_pos distribution.upper.1 (show (0 : Int) < 2 ^ type.width by omega)
  unfold range
  simp only [IntegerType.makeUnsigned_convert]
  rw [h.arithmetic_add_one (by omega) (by omega), ← Int.emod_add_emod, Int.emod_sub_emod,
    Int.sub_emod_emod, Int.emod_add_emod]
  rfl

theorem threshold_eq (h : SupportedRandomInteger type) {range : Int} (hpos : 0 < range)
    (hless : range < 2 ^ type.width) : threshold type range = some (2 ^ type.width % range) := by
  have hmaximum : type.makeUnsigned.maximum = 2 ^ type.width - 1 := by
    simp [IntegerType.maximum]
  -- The source computes the negation of the range, modulo the size of the type.
  have hnegative : (2 ^ type.width - 1 - range + 1) % 2 ^ type.width = 2 ^ type.width - range := by
    rw [Int.emod_eq_of_lt (by omega) (by omega)]
    omega
  have hmod : (2 ^ type.width - range).tmod range = 2 ^ type.width % range := by
    rw [Int.tmod_eq_emod_of_nonneg (by omega), Int.sub_emod_right]
  have hnonneg := Int.emod_nonneg (2 ^ type.width : Int) hpos.ne'
  have hbelow := Int.emod_lt_of_pos (2 ^ type.width : Int) hpos
  have hadd := @SupportedRandomInteger.arithmetic_add_one type h (2 ^ type.width - 1 - range)
    (by omega) (by omega)
  simp only [Option.bind_eq_bind] at hadd
  unfold threshold
  simp only [hmaximum, Option.bind_eq_bind]
  rw [← Option.bind_assoc, hadd, hnegative, Option.bind_some, hmod,
    h.arithmetic_emod (by omega) (by omega), Int.emod_eq_of_lt hnonneg (by omega)]

/-- The value that a candidate stands for. -/
theorem value_representable {candidate : Int} :
    type.Representable (distribution.lower.1 + candidate % distribution.size) := by
  have hnonneg := Int.emod_nonneg candidate distribution.size_pos.ne'
  have hbelow := Int.emod_lt_of_pos candidate distribution.size_pos
  have hlower := distribution.lower.2.1
  have hupper := distribution.upper.2.2
  simp only [size] at hnonneg hbelow ⊢
  constructor <;> omega

/-- A candidate from the threshold on stands for its remainder, and one below it for nothing. -/
theorem attempt_eq (h : SupportedRandomInteger type) {candidate : Int} (hnonneg : 0 ≤ candidate)
    (hless : candidate < 2 ^ type.width) :
    distribution.attempt candidate = some (
      if 2 ^ type.width % distribution.size ≤ candidate then
        some (distribution.lower.1 + candidate % distribution.size)
      else none) := by
  have hpos := distribution.size_pos
  have hvalue : type.Representable (distribution.lower.1 + candidate % distribution.size) :=
    distribution.value_representable
  have hremainder := Int.emod_nonneg candidate hpos.ne'
  have hremainder' := Int.emod_lt_of_pos candidate hpos
  have hoffset := addOffset_eq h distribution.lower.2 hremainder hvalue
  unfold attempt
  rw [distribution.range_eq h, Option.bind_eq_bind, Option.bind_some]
  rcases (distribution.size_le h).lt_or_eq with hsmall | hfull
  · rw [Int.emod_eq_of_lt hpos.le hsmall, if_neg hpos.ne', threshold_eq h hpos hsmall,
      Option.bind_some]
    unfold turn
    simp only [ge_iff_le]
    split
    · rw [Int.tmod_eq_emod_of_nonneg hnonneg, h.arithmetic_emod (by omega) (by omega),
        Int.emod_eq_of_lt hremainder (by omega), Option.bind_eq_bind, Option.bind_some, hoffset]
      rfl
    · rfl
  · -- The interval is the whole type, whose size the unsigned range wraps to zero.
    rw [hfull, Int.emod_self, if_pos rfl, if_pos hnonneg]
    rw [hfull, Int.emod_eq_of_lt hnonneg hless] at hoffset
    rw [hoffset, Int.emod_eq_of_lt hnonneg hless, Option.map_some]

end UniformIntegerDistribution

end Arithmetic

end Random
end AscCpp
