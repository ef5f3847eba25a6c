import AscCpp.Dense.RotmgRotation

/-!
# RotmgCorrect — when `RotmgImpl` leaves a rotation

A round of a loop scales one row of the parameters, which keeps the equations of a rotation.  But
from the second round on a loop also takes the off-diagonal parameters for those of the flag one.

- `rotates_loops_iff`: the numbers of rounds that keep the equations.
- `rotmgImpl_ends`: the loops come to an end.
- `rotmgImpl_isRotation_iff`: the operands for which the equations hold of what is left.
-/

namespace AscCpp
namespace Dense

open Library

variable {d1 d2 x1 y1 : Rat}

/-! ## What both loops leave -/

/-- The parameters as scaling alone would leave them. -/
def scaled (first second : Int) (state : RotmgState) : RotmgState :=
  scaleSecond second (scaleFirst first (unpack state))

theorem RotmgState.Rotates.scaled {state : RotmgState} (h : (unpack state).Rotates d1 d2 x1 y1)
    (first second : Int) : (scaled first second state).Rotates d1 d2 x1 y1 :=
  (h.scaleFirst first).scaleSecond second

theorem scaleFirst_zero (state : RotmgState) : scaleFirst 0 state = state := by
  simp [scaleFirst]

theorem scaleSecond_zero (state : RotmgState) : scaleSecond 0 state = state := by
  simp [scaleSecond]

theorem full_of_neg {state : RotmgState} (h : state.flag = -1) : full state = state := by
  rw [full, if_pos (by rw [h]; decide)]

theorem firstResult_flag {first : Int} (hne : first ≠ 0) (state : RotmgState) :
    (firstResult first state).flag = -1 := by
  rw [firstResult, if_neg hne]
  split <;> exact unpack_flag state

theorem secondResult_flag {second : Int} (hne : second ≠ 0) (state : RotmgState) :
    (secondResult second state).flag = -1 := by
  rw [secondResult, if_neg hne]
  split <;> exact unpack_flag state

theorem firstResult_d2 (first : Int) (state : RotmgState) :
    (firstResult first state).d2 = state.d2 := by
  unfold firstResult
  split
  · rfl
  · split <;> exact unpack_d2 state

/-- One round at most leaves what scaling leaves. -/
theorem loops_of_le_one {first second : Int} {state : RotmgState}
    (hflag : state.flag = 0 ∨ state.flag = 1) (hrounds : first.natAbs + second.natAbs ≤ 1) :
    full (secondResult second (firstResult first state)) = scaled first second state := by
  -- At most one round in all: none, one of the first loop or one of the second.
  by_cases hsecond : second = 0
  · subst hsecond
    rw [secondResult, if_pos rfl, scaled, scaleSecond_zero]
    by_cases hfirst : first = 0
    · subst hfirst
      have hnonneg : ¬ state.flag < 0 := by
        rcases hflag with hflag | hflag <;> rw [hflag] <;> decide
      rw [firstResult, if_pos rfl, full, if_neg hnonneg, scaleFirst_zero]
    · rw [full_of_neg (firstResult_flag hfirst state), firstResult, if_neg hfirst,
        if_pos (by omega)]
  · have hfirst : first = 0 := by omega
    subst hfirst
    rw [full_of_neg (secondResult_flag hsecond _), firstResult, if_pos rfl, secondResult,
      if_neg hsecond, if_pos (by omega), scaled, scaleFirst_zero]

/-- More rounds of the first loop alone. -/
theorem loops_first {first : Int} {state : RotmgState} (hrounds : 1 < first.natAbs) :
    full (secondResult 0 (firstResult first state)) =
      { scaled first 0 state with h12 := gamma ^ first.sign, h21 := -1 } := by
  have hne : first ≠ 0 := by omega
  rw [secondResult, if_pos rfl, full_of_neg (firstResult_flag hne state), firstResult, if_neg hne,
    if_neg (by omega), scaled, scaleSecond_zero]

/-- A round of the second loop after any other round. -/
theorem loops_second {first second : Int} {state : RotmgState} (hne : second ≠ 0)
    (hrounds : 1 < first.natAbs + second.natAbs) :
    full (secondResult second (firstResult first state)) =
      { scaled first second state with h12 := 1, h21 := -gamma ^ second.sign } := by
  rw [full_of_neg (secondResult_flag hne _)]
  -- The flag is negative from the first loop on, and the second does not unpack again.
  by_cases hfirst : first = 0
  · subst hfirst
    rw [firstResult, if_pos rfl, secondResult, if_neg hne, if_neg (by omega), scaled,
      scaleFirst_zero]
  · rw [secondResult, if_neg hne, unpack_of_neg (firstResult_flag hfirst state)]
    by_cases hone : second.natAbs = 1
    · rw [if_pos hone, eq_sign_of_natAbs_eq_one hone, firstResult, if_neg hfirst]
      split <;> simp [scaled, scaleSecond]
    · rw [if_neg hone, firstResult, if_neg hfirst]
      split <;> rfl

/-! ## When the loops keep the equations -/

/-- The number of rounds of a loop, which leaves the weight zero alone. -/
def Rounds (weight : Rat) (shift : Int) : Prop :=
  (weight = 0 ∧ shift = 0) ∨ Shift weight shift

theorem exists_rounds (weight : Rat) : ∃ shift, Rounds weight shift := by
  by_cases hzero : weight = 0
  · exact ⟨0, .inl ⟨hzero, rfl⟩⟩
  · rcases exists_shift hzero with ⟨shift, hshift⟩
    exact ⟨shift, .inr hshift⟩

/-- Weights whose quotient is a power of `kGamma` have shifts that fit the power. -/
theorem Shift.quotient {weight : Rat} {first second power : Int} (h : Shift weight first)
    (hpos : 0 < first) (hsecond : Shift (weight * gamma ^ power) second) :
    2 * first + power < 2 * second + 2 ∧ (second < 0 → 2 * first + power ≤ 2 * second) := by
  -- A weight with a positive shift is bounded from below, and so is its multiple.
  have hlower : gamma ^ (2 * first + power) ≤ |weight * gamma ^ power| := by
    rcases h with ⟨rfl, -, -⟩ | ⟨-, hlower, -⟩ | ⟨hneg, -, -⟩
    · exact absurd hpos (lt_irrefl _)
    · rw [gamma_zpow_add, abs_mul, abs_of_pos (gamma_zpow_pos power)]
      exact mul_le_mul_of_nonneg_right hlower (gamma_zpow_pos power).le
    · omega
  refine ⟨gamma_zpow_lt_iff.1 (hlower.trans_lt hsecond.bounds.2), fun hneg => ?_⟩
  rcases hsecond with ⟨rfl, -, -⟩ | ⟨hpositive, -, -⟩ | ⟨-, -, hupper⟩
  · exact absurd hneg (lt_irrefl _)
  · omega
  · exact gamma_zpow_le_iff.1 (hlower.trans hupper)

/-- The off-diagonal parameters of the flag zero, and that their product is small. -/
theorem Prepared.product_lt {state : RotmgState} (h : Prepared state d1 d2 x1 y1)
    (hlarge : |d2 * y1 ^ 2| < |d1 * x1 ^ 2|) : |(unpack state).h12 * (unpack state).h21| < 1 := by
  rcases h.flag with ⟨-, hflag, hh12, hh21⟩ | ⟨hsmall, -⟩
  · have hproduct : d2 * y1 / (d1 * x1) * (-y1 / x1) = -(d2 * y1 ^ 2 / (d1 * x1 ^ 2)) := by
      rw [div_mul_div_comm, ← neg_div]
      congr 1 <;> ring
    rw [unpack, if_pos hflag, hh12, hh21, hproduct, abs_neg, abs_div,
      div_lt_one ((abs_nonneg _).trans_lt hlarge)]
    exact hlarge
  · exact absurd hlarge hsmall

/-- For the flag zero the weights have the quotient of the off-diagonal parameters. -/
theorem Prepared.weights_zero {state : RotmgState} (h : Prepared state d1 d2 x1 y1)
    (hflag : state.flag = 0) :
    state.d1 * (unpack state).h12 + state.d2 * (unpack state).h21 = 0 := by
  have hmixed := h.rotates.mixed
  rw [unpack_d1, unpack_d2] at hmixed
  have hh11 : (unpack state).h11 = 1 := by rw [unpack, if_pos hflag]
  have hh22 : (unpack state).h22 = 1 := by rw [unpack, if_pos hflag]
  rwa [hh11, hh22, mul_one, mul_one] at hmixed

theorem ne_zero_of_lt (hlarge : |d2 * y1 ^ 2| < |d1 * x1 ^ 2|) : x1 ≠ 0 ∧ d1 * x1 ≠ 0 := by
  have hq1 : d1 * x1 ^ 2 ≠ 0 := abs_pos.1 ((abs_nonneg _).trans_lt hlarge)
  have hx : x1 ≠ 0 := pow_ne_zero_iff two_ne_zero |>.1 (right_ne_zero_of_mul hq1)
  exact ⟨hx, mul_ne_zero (left_ne_zero_of_mul hq1) hx⟩

theorem unpack_h12_of_one {state : RotmgState} (hflag : state.flag = 1) :
    (unpack state).h12 = 1 := by
  rw [unpack, if_neg (by rw [hflag]; decide)]

theorem unpack_h21_of_one {state : RotmgState} (hflag : state.flag = 1) :
    (unpack state).h21 = -1 := by
  rw [unpack, if_neg (by rw [hflag]; decide)]

/-- A power that a power is scaled to. -/
theorem eq_gamma_zpow_of_mul_eq {value : Rat} {target shift : Int}
    (h : gamma ^ target = value * gamma ^ shift) : value = gamma ^ (target - shift) := by
  rw [sub_eq_add_neg, gamma_zpow_add, h, mul_assoc, ← gamma_zpow_add, add_neg_cancel, zpow_zero,
    mul_one]

/-- Two rounds and more of the first loop alone leave no rotation. -/
theorem not_rotates_first {state : RotmgState} {first : Int} (h : Prepared state d1 d2 x1 y1)
    (hy : y1 ≠ 0) (hfirst : Shift state.d1 first) (hsecond : Rounds state.d2 0)
    (hrounds : 1 < first.natAbs) :
    ¬ RotmgState.Rotates { scaled first 0 state with h12 := gamma ^ first.sign, h21 := -1 }
      d1 d2 x1 y1 := by
  intro hrotates
  have hscaled := RotmgState.Rotates.scaled h.rotates first 0
  have hh12 : (unpack state).h12 = gamma ^ (first.sign - first) :=
    eq_gamma_zpow_of_mul_eq (hscaled.h12_eq hrotates rfl rfl hy)
  rcases h.flag with ⟨hlarge, hflag, -, -⟩ | ⟨-, hflag⟩
  · have hh21 : -1 = (unpack state).h21 * gamma ^ (0 : Int) :=
      hscaled.h21_eq hrotates rfl (ne_zero_of_lt hlarge).1
    rw [zpow_zero, mul_one] at hh21
    have hproduct := h.product_lt hlarge
    have hweights := h.weights_zero hflag
    rw [hh12, ← hh21, mul_neg_one, abs_neg, abs_of_pos (gamma_zpow_pos _), ← zpow_zero gamma,
      gamma_zpow_lt_iff] at hproduct
    have hsign : first.sign = 1 := by
      rcases lt_or_ge 0 first with hpos | hnonpos
      · exact Int.sign_eq_one_of_pos hpos
      · have := Int.sign_eq_neg_one_of_neg (by omega : first < 0)
        omega
    have hd2 : state.d2 = state.d1 * gamma ^ (first.sign - first) := by
      rw [hh12, ← hh21] at hweights
      linear_combination -hweights
    -- The second weight is as large as the first allows, so the second loop has rounds as well.
    rcases hsecond with ⟨hzero, -⟩ | hsecond
    · exact absurd (hd2.symm.trans hzero) (mul_pos h.first_pos (gamma_zpow_pos _)).ne'
    · rw [hd2] at hsecond
      have := (hfirst.quotient (by omega) hsecond).1
      omega
  · rw [unpack_h12_of_one hflag, ← zpow_zero gamma] at hh12
    have hsame := gamma_zpow_inj hh12
    have := Int.natAbs_sign_of_ne_zero (by omega : first ≠ 0)
    omega

/-- The weights of the flag zero that the off-diagonal parameters of the flag one fit anyway are
both large. -/
theorem shifts_pos {state : RotmgState} {first second : Int} (h : Prepared state d1 d2 x1 y1)
    (hlarge : |d2 * y1 ^ 2| < |d1 * x1 ^ 2|) (hflag : state.flag = 0)
    (hfirst : Shift state.d1 first) (hsecond : Shift state.d2 second) (hne : second ≠ 0)
    (hh12 : (unpack state).h12 = gamma ^ (-first))
    (hh21 : (unpack state).h21 = -gamma ^ (second.sign - second)) : 0 < first ∧ 0 < second := by
  have hproduct := h.product_lt hlarge
  have hweights := h.weights_zero hflag
  rw [hh12, hh21, mul_neg, abs_neg, ← gamma_zpow_add, abs_of_pos (gamma_zpow_pos _),
    ← zpow_zero gamma, gamma_zpow_lt_iff] at hproduct
  -- The entries fix the ratio of the weights, which bounds one shift by the other.
  have hforward : state.d2 = state.d1 * gamma ^ (second - second.sign - first) := by
    have hpower : gamma ^ (-first) =
        gamma ^ (second - second.sign - first) * gamma ^ (second.sign - second) := by
      rw [← gamma_zpow_add]
      congr 1
      omega
    rw [hh12, hh21, hpower] at hweights
    refine mul_right_cancel₀ (gamma_zpow_pos (second.sign - second)).ne' ?_
    linear_combination -hweights
  have hbackward : state.d1 = state.d2 * gamma ^ (first + second.sign - second) := by
    have hcancel : second - second.sign - first + (first + second.sign - second) = 0 := by omega
    rw [hforward, mul_assoc, ← gamma_zpow_add, hcancel, zpow_zero, mul_one]
  rcases lt_or_gt_of_ne hne with hneg | hpos
  · -- The first weight would have to be large, and the second with it.
    have hsign := Int.sign_eq_neg_one_of_neg hneg
    rw [hforward] at hsecond
    have := (hfirst.quotient (by omega) hsecond).2 hneg
    omega
  · have hsign := Int.sign_eq_one_of_pos hpos
    rw [hbackward] at hfirst
    have hquotient := hsecond.quotient hpos hfirst
    refine ⟨?_, hpos⟩
    by_contra hnonpos
    rcases lt_or_eq_of_le (not_lt.1 hnonpos) with hneg | hzero
    · have := hquotient.2 hneg
      omega
    · have := hquotient.1
      omega

/-- What the operands have to satisfy for the flag zero, if both loops have rounds. -/
def Coincides (first second : Int) (d1 d2 x1 y1 : Rat) : Prop :=
  |d2 * y1 ^ 2| < |d1 * x1 ^ 2| ∧ 0 < first ∧ 0 < second ∧
    d1 * x1 = gamma ^ first * (d2 * y1) ∧ x1 = gamma ^ (second - 1) * y1

/-- A round of the second loop after another one leaves a rotation in that case only. -/
theorem coincides_of_rotates {state : RotmgState} {first second : Int}
    (h : Prepared state d1 d2 x1 y1) (hy : y1 ≠ 0) (hfirst : Shift state.d1 first)
    (hsecond : Shift state.d2 second) (hne : second ≠ 0)
    (hrounds : 1 < first.natAbs + second.natAbs)
    (hrotates : RotmgState.Rotates
      { scaled first second state with h12 := 1, h21 := -gamma ^ second.sign } d1 d2 x1 y1) :
    Coincides first second d1 d2 x1 y1 := by
  have hscaled := RotmgState.Rotates.scaled h.rotates first second
  have hh12 : (unpack state).h12 = gamma ^ (-first) := by
    -- The overwritten entry must be what scaling would have made of it.
    have hone : 1 = (unpack state).h12 * gamma ^ first := hscaled.h12_eq hrotates rfl rfl hy
    rw [← zpow_zero gamma] at hone
    rw [eq_gamma_zpow_of_mul_eq hone, zero_sub]
  rcases h.flag with ⟨hlarge, hflag, hstate12, hstate21⟩ | ⟨-, hflag⟩
  · have hxs := ne_zero_of_lt hlarge
    have hh21 : (unpack state).h21 = -gamma ^ (second.sign - second) := by
      have hrow : -gamma ^ second.sign = (unpack state).h21 * gamma ^ second :=
        hscaled.h21_eq hrotates rfl hxs.1
      rw [← neg_eq_iff_eq_neg]
      apply eq_gamma_zpow_of_mul_eq
      linear_combination -hrow
    rcases shifts_pos h hlarge hflag hfirst hsecond hne hh12 hh21 with ⟨hfirstpos, hsecondpos⟩
    refine ⟨hlarge, hfirstpos, hsecondpos, ?_, ?_⟩
    · have hunpacked : (unpack state).h12 = d2 * y1 / (d1 * x1) := by
        rw [unpack, if_pos hflag, hstate12]
      rw [hunpacked, zpow_neg, div_eq_iff hxs.2] at hh12
      rw [hh12, mul_inv_cancel_left₀ (gamma_zpow_pos first).ne']
    · have hunpacked : (unpack state).h21 = -y1 / x1 := by
        rw [unpack, if_pos hflag, hstate21]
      have hexponent : second.sign - second = -(second - 1) := by
        rw [Int.sign_eq_one_of_pos hsecondpos]
        omega
      rw [hunpacked, hexponent, zpow_neg, div_eq_iff hxs.1, neg_mul, neg_inj] at hh21
      rw [hh21, mul_inv_cancel_left₀ (gamma_zpow_pos (second - 1)).ne']
  · -- For the flag one the first loop must not have rounds, and the second at most one.
    rw [unpack_h12_of_one hflag, ← zpow_zero gamma] at hh12
    have hzero := gamma_zpow_inj hh12
    have hsquare : (-gamma ^ second.sign) ^ 2 = ((unpack state).h21 * gamma ^ second) ^ 2 :=
      hscaled.h21_sq hrotates rfl rfl rfl
        (mul_ne_zero ((unpack_d2 state).trans_ne hsecond.ne_zero) (gamma_zpow_pos _).ne')
    rw [unpack_h21_of_one hflag, neg_one_mul, neg_sq, neg_sq, ← zpow_natCast, ← zpow_natCast,
      ← zpow_mul, ← zpow_mul] at hsquare
    have hsame := gamma_zpow_inj hsquare
    have := Int.natAbs_sign_of_ne_zero hne
    omega

theorem rotates_of_coincides {state : RotmgState} {first second : Int}
    (h : Prepared state d1 d2 x1 y1) (hcoincides : Coincides first second d1 d2 x1 y1) :
    RotmgState.Rotates { scaled first second state with h12 := 1, h21 := -gamma ^ second.sign }
      d1 d2 x1 y1 := by
  rcases hcoincides with ⟨hlarge, -, hsecondpos, hp1, hx1⟩
  rcases h.flag with ⟨-, hflag, hstate12, hstate21⟩ | ⟨hsmall, -⟩
  · have hxs := ne_zero_of_lt hlarge
    have hunpacked12 : (unpack state).h12 = d2 * y1 / (d1 * x1) := by
      rw [unpack, if_pos hflag, hstate12]
    have hunpacked21 : (unpack state).h21 = -y1 / x1 := by
      rw [unpack, if_pos hflag, hstate21]
    -- Both overwritten entries happen to be the scaled ones.
    have hh12 : (scaled first second state).h12 = 1 := by
      change (unpack state).h12 * gamma ^ first = 1
      rw [hunpacked12, div_mul_eq_mul_div, div_eq_one_iff_eq hxs.2, hp1, mul_comm]
    have hh21 : (scaled first second state).h21 = -gamma ^ second.sign := by
      change (unpack state).h21 * gamma ^ second = -gamma ^ second.sign
      rw [hunpacked21, div_mul_eq_mul_div, div_eq_iff hxs.1, neg_mul, neg_mul, neg_inj, hx1,
        Int.sign_eq_one_of_pos hsecondpos, ← mul_assoc, ← gamma_zpow_add, add_sub_cancel, mul_comm]
    rw [← hh12, ← hh21]
    exact RotmgState.Rotates.scaled h.rotates first second
  · exact absurd hlarge hsmall

/-- Both loops together. -/
theorem rotates_loops_iff {state : RotmgState} {first second : Int}
    (h : Prepared state d1 d2 x1 y1) (hy : y1 ≠ 0) (hfirst : Shift state.d1 first)
    (hsecond : Rounds state.d2 second) :
    (full (secondResult second (firstResult first state))).Rotates d1 d2 x1 y1 ↔
      first.natAbs + second.natAbs ≤ 1 ∨ Coincides first second d1 d2 x1 y1 := by
  have hflag : state.flag = 0 ∨ state.flag = 1 := h.flag.imp (·.2.1) (·.2)
  rcases le_or_gt (first.natAbs + second.natAbs) 1 with hrounds | hrounds
  · rw [loops_of_le_one hflag hrounds]
    exact ⟨fun _ => .inl hrounds, fun _ => RotmgState.Rotates.scaled h.rotates first second⟩
  rw [or_iff_right hrounds.not_ge]
  -- More than one round: the loop that ran last has overwritten a pair of entries.
  by_cases hne : second = 0
  · subst hne
    rw [loops_first (by omega)]
    constructor
    · intro hrotates
      exact absurd hrotates (not_rotates_first h hy hfirst hsecond (by omega))
    · intro hcoincides
      exact absurd hcoincides.2.2.1 (lt_irrefl _)
  · rw [loops_second hne hrounds]
    rcases hsecond with ⟨-, hzero⟩ | hsecond
    · exact absurd hzero hne
    · exact ⟨coincides_of_rotates h hy hfirst hsecond hne hrounds, rotates_of_coincides h⟩

/-! ## `RotmgImpl` as a whole -/

/-- The value that `RotmgImpl` has, whatever the fuel that suffices. -/
theorem rotmgImpl_iff {middle last : RotmgState} {parameters : RotmParameters}
    {outcome : RotmgOutcome} (hd1 : 0 ≤ d1) (hp2 : d2 * y1 ≠ 0)
    (hne : (rotate d1 d2 x1 y1).d1 ≠ 0)
    (hfirst : Ends firstOutOfRange rescaleFirst (rotate d1 d2 x1 y1) middle)
    (hsecond : (middle.d2 = 0 ∧ last = middle) ∨
      (middle.d2 ≠ 0 ∧ Ends secondOutOfRange rescaleSecond middle last)) :
    (∃ fuel, rotmgImpl fuel d1 d2 x1 y1 parameters = some outcome) ↔
      outcome = publish last parameters := by
  have hrun : ∀ fuel, rotmgImpl fuel d1 d2 x1 y1 parameters =
      (whileLoop firstOutOfRange rescaleFirst fuel (rotate d1 d2 x1 y1)).bind fun state =>
        if state.d2 ≠ 0 then
          (whileLoop secondOutOfRange rescaleSecond fuel state).bind fun state =>
            some (publish state parameters)
        else some (publish state parameters) := by
    intro fuel
    rw [rotmgImpl, if_neg hd1.not_gt, if_neg hp2]
    simp only [if_pos hne]
    rfl
  constructor
  · rintro ⟨fuel, hvalue⟩
    rw [hrun] at hvalue
    rcases Option.bind_eq_some_iff.1 hvalue with ⟨state, hstate, hvalue⟩
    rw [hfirst.unique hstate] at hvalue
    rcases hsecond with ⟨hzero, rfl⟩ | ⟨hnonzero, hsecond⟩
    · rw [if_neg (not_not.2 hzero)] at hvalue
      exact (Option.some.inj hvalue).symm
    · rw [if_pos hnonzero] at hvalue
      rcases Option.bind_eq_some_iff.1 hvalue with ⟨state', hstate', hvalue⟩
      rw [hsecond.unique hstate'] at hvalue
      exact (Option.some.inj hvalue).symm
  · rintro rfl
    rcases hfirst with ⟨fuel, hfirst⟩
    rcases hsecond with ⟨hzero, rfl⟩ | ⟨hnonzero, fuel', hsecond⟩
    · refine ⟨fuel, ?_⟩
      rw [hrun, hfirst, Option.bind_some, if_neg (not_not.2 hzero)]
    -- More fuel does not change what a loop returned.
    · refine ⟨max fuel fuel', ?_⟩
      rw [hrun, whileLoop_mono (Nat.le_max_left fuel fuel') hfirst, Option.bind_some,
        if_pos hnonzero, whileLoop_mono (Nat.le_max_right fuel fuel') hsecond, Option.bind_some]

theorem firstResult_d1 (first : Int) (state : RotmgState) :
    (firstResult first state).d1 = state.d1 * gamma ^ (-2 * first) := by
  unfold firstResult
  split
  · next hzero => rw [hzero, mul_zero, zpow_zero, mul_one]
  · split <;> exact congrArg (· * gamma ^ (-2 * first)) (unpack_d1 state)

theorem secondResult_d1 (second : Int) (state : RotmgState) :
    (secondResult second state).d1 = state.d1 := by
  unfold secondResult
  split
  · rfl
  · split <;> exact unpack_d1 state

theorem secondResult_d2 (second : Int) (state : RotmgState) :
    (secondResult second state).d2 = state.d2 * gamma ^ (-2 * second) := by
  unfold secondResult
  split
  · next hzero => rw [hzero, mul_zero, zpow_zero, mul_one]
  · split <;> exact congrArg (· * gamma ^ (-2 * second)) (unpack_d2 state)

theorem loops_flag {first second : Int} {state : RotmgState}
    (hflag : state.flag = 0 ∨ state.flag = 1) :
    (secondResult second (firstResult first state)).flag = -1 ∨
      (secondResult second (firstResult first state)).flag = 0 ∨
      (secondResult second (firstResult first state)).flag = 1 := by
  by_cases hsecond : second = 0
  · by_cases hfirst : first = 0
    · subst hsecond hfirst
      exact .inr hflag
    · subst hsecond
      exact .inl (firstResult_flag hfirst state)
  · exact .inl (secondResult_flag hsecond _)

theorem full_operands (state : RotmgState) :
    (full state).d1 = state.d1 ∧ (full state).d2 = state.d2 ∧ (full state).x1 = state.x1 := by
  unfold full unpack
  split
  · exact ⟨rfl, rfl, rfl⟩
  · split <;> exact ⟨rfl, rfl, rfl⟩

/-- What the operands and the parameters have to satisfy, for weights that the loops bring into
range. -/
theorem isRotation_publish_iff {state : RotmgState} {parameters : RotmParameters}
    (hflag : state.flag = -1 ∨ state.flag = 0 ∨ state.flag = 1)
    (hfirst : inverseGammaSquared < state.d1 ∧ state.d1 < gammaSquared)
    (hsecond : state.d2 ≠ 0 → inverseGammaSquared < |state.d2| ∧ |state.d2| < gammaSquared) :
    (publish state parameters).IsRotation d1 d2 x1 y1 ↔ (full state).Rotates d1 d2 x1 y1 := by
  rw [← matrix_rotates_iff, (full_operands state).1, (full_operands state).2.1,
    (full_operands state).2.2, ← rotmMatrix_publish parameters hflag]
  exact ⟨fun h => ⟨h.annihilates, h.preserves⟩, fun h => ⟨h.1, h.2, fun _ => hfirst, hsecond⟩⟩

/-- The value of `RotmgImpl`, by the number of rounds of its loops. -/
theorem rotmgImpl_value {first second : Int} {parameters : RotmParameters}
    {outcome : RotmgOutcome} (hd1 : 0 ≤ d1) (hp2 : d2 * y1 ≠ 0)
    (hbranch : ¬ ZeroesOperands d1 d2 x1 y1) (hfirst : Shift (rotate d1 d2 x1 y1).d1 first)
    (hsecond : Rounds (rotate d1 d2 x1 y1).d2 second) :
    (∃ fuel, rotmgImpl fuel d1 d2 x1 y1 parameters = some outcome) ↔
      outcome = publish (secondResult second (firstResult first (rotate d1 d2 x1 y1)))
        parameters := by
  have hprepared := prepared_rotate hd1 hp2 hbranch
  refine rotmgImpl_iff hd1 hp2 hprepared.first_pos.ne' (ends_first hprepared.first_pos hfirst) ?_
  rw [← firstResult_d2 first] at hsecond
  rcases hsecond with ⟨hzero, rfl⟩ | hsecond
  · exact .inl ⟨hzero, if_pos rfl⟩
  · exact .inr ⟨hsecond.ne_zero, ends_second hsecond⟩

/-- The loops come to an end, whatever the operands. -/
theorem rotmgImpl_ends (d1 d2 x1 y1 : Rat) (parameters : RotmParameters) :
    ∃ fuel outcome, rotmgImpl fuel d1 d2 x1 y1 parameters = some outcome := by
  by_cases hd1 : d1 < 0
  · exact ⟨0, _, if_pos hd1⟩
  by_cases hp2 : d2 * y1 = 0
  · exact ⟨0, _, (if_neg hd1).trans (if_pos hp2)⟩
  -- On the zeroing branch both weights are zero and neither loop is entered.
  by_cases hbranch : ZeroesOperands d1 d2 x1 y1
  · have hzero : (rotate d1 d2 x1 y1).d1 = 0 ∧ (rotate d1 d2 x1 y1).d2 = 0 := by
      have hbranch := (hbranch.resolve_left hd1).2
      rw [rotate]
      split at hbranch
      · next hlarge =>
        rw [if_pos hlarge, if_neg hbranch]
        exact ⟨rfl, rfl⟩
      · next hsmall =>
        rw [if_neg hsmall, if_pos hbranch]
        exact ⟨rfl, rfl⟩
    refine ⟨0, publish (rotate d1 d2 x1 y1) parameters, ?_⟩
    simp [rotmgImpl, hd1, hp2, hzero.1, hzero.2]
  · have hprepared := prepared_rotate (not_lt.1 hd1) hp2 hbranch
    rcases exists_shift hprepared.first_pos.ne' with ⟨first, hfirst⟩
    rcases exists_rounds (rotate d1 d2 x1 y1).d2 with ⟨second, hsecond⟩
    rcases (rotmgImpl_value (not_lt.1 hd1) hp2 hbranch hfirst hsecond).2 rfl with ⟨fuel, hvalue⟩
    exact ⟨fuel, _, hvalue⟩

/-- When `RotmgImpl` leaves a rotation, by the number of rounds of its loops. -/
theorem rotmgImpl_rounds_iff {first second : Int} {parameters : RotmParameters} (hd1 : 0 ≤ d1)
    (hp2 : d2 * y1 ≠ 0) (hbranch : ¬ ZeroesOperands d1 d2 x1 y1)
    (hfirst : Shift (rotate d1 d2 x1 y1).d1 first)
    (hsecond : Rounds (rotate d1 d2 x1 y1).d2 second) :
    (∃ fuel outcome, rotmgImpl fuel d1 d2 x1 y1 parameters = some outcome ∧
      outcome.IsRotation d1 d2 x1 y1) ↔
      first.natAbs + second.natAbs ≤ 1 ∨ Coincides first second d1 d2 x1 y1 := by
  have hprepared := prepared_rotate hd1 hp2 hbranch
  -- There is one outcome only, so that "some fuel" is about a single state.
  have hpublished : (∃ fuel outcome, rotmgImpl fuel d1 d2 x1 y1 parameters = some outcome ∧
      outcome.IsRotation d1 d2 x1 y1) ↔
      (publish (secondResult second (firstResult first (rotate d1 d2 x1 y1)))
        parameters).IsRotation d1 d2 x1 y1 := by
    constructor
    · rintro ⟨fuel, outcome, hvalue, hrotation⟩
      rwa [(rotmgImpl_value hd1 hp2 hbranch hfirst hsecond).1 ⟨fuel, hvalue⟩] at hrotation
    · intro hrotation
      rcases (rotmgImpl_value hd1 hp2 hbranch hfirst hsecond).2 rfl with ⟨fuel, hvalue⟩
      exact ⟨fuel, _, hvalue, hrotation⟩
  rw [hpublished, isRotation_publish_iff (loops_flag (hprepared.flag.imp (·.2.1) (·.2))) ?_ ?_]
  · exact rotates_loops_iff hprepared (right_ne_zero_of_mul hp2) hfirst hsecond
  · rw [secondResult_d1, firstResult_d1]
    have hrange := hfirst.rescaled
    rwa [abs_of_pos (mul_pos hprepared.first_pos (gamma_zpow_pos _))] at hrange
  · rw [secondResult_d2, firstResult_d2]
    intro hne
    rcases hsecond with ⟨hzero, -⟩ | hsecond
    · exact absurd hzero (left_ne_zero_of_mul hne)
    · exact hsecond.rescaled

/-- A weight is zero or strictly between a power of `kGamma` and its inverse. -/
def WithinPower (exponent : Int) (weight : Rat) : Prop :=
  weight = 0 ∨ gamma ^ (-exponent) < |weight| ∧ |weight| < gamma ^ exponent

/-- The loops have one round at most. -/
def NearRange (d1 d2 x1 y1 : Rat) : Prop :=
  WithinPower 2 (rotatedWeights d1 d2 x1 y1).1 ∧ WithinPower 4 (rotatedWeights d1 d2 x1 y1).2 ∨
    WithinPower 4 (rotatedWeights d1 d2 x1 y1).1 ∧ WithinPower 2 (rotatedWeights d1 d2 x1 y1).2

theorem withinPower_two_iff {weight : Rat} {shift : Int} (h : Rounds weight shift) :
    WithinPower 2 weight ↔ shift = 0 := by
  rcases h with ⟨hweight, hshift⟩ | h
  · exact iff_of_true (.inl hweight) hshift
  · constructor
    · rintro (hzero | hwithin)
      · exact absurd hzero h.ne_zero
      · exact h.unique (.inl ⟨rfl, hwithin⟩)
    · rintro rfl
      exact .inr h.bounds

theorem withinPower_four_iff {weight : Rat} {shift : Int} (h : Rounds weight shift) :
    WithinPower 4 weight ↔ shift.natAbs ≤ 1 := by
  rcases h with ⟨hweight, rfl⟩ | h
  · exact iff_of_true (.inl hweight) (by decide)
  · constructor
    -- A shift of two or more would bring the weight to the fourth power of gamma.
    · rintro (hzero | ⟨hlower, hupper⟩)
      · exact absurd hzero h.ne_zero
      · rcases h with ⟨rfl, -, -⟩ | ⟨hpos, hlower', -⟩ | ⟨hneg, -, hupper'⟩
        · decide
        · have := gamma_zpow_lt_iff.1 (hlower'.trans_lt hupper)
          omega
        · have := gamma_zpow_lt_iff.1 (hlower.trans_le hupper')
          omega
    · intro hone
      exact .inr ⟨(gamma_zpow_le_iff.2 (by omega)).trans_lt h.bounds.1,
        h.bounds.2.trans_le (gamma_zpow_le_iff.2 (by omega))⟩

/-- `RotmgImpl` comes to an end and leaves a rotation if and only if its loops have one round at
most, or the operands are among those that the loops leave right by coincidence. -/
theorem rotmgImpl_isRotation_iff (parameters : RotmParameters) (hd1 : 0 ≤ d1) (hp2 : d2 * y1 ≠ 0)
    (hbranch : ¬ ZeroesOperands d1 d2 x1 y1) :
    (∃ fuel outcome, rotmgImpl fuel d1 d2 x1 y1 parameters = some outcome ∧
      outcome.IsRotation d1 d2 x1 y1) ↔
      NearRange d1 d2 x1 y1 ∨
        ∃ first second, Shift (rotatedWeights d1 d2 x1 y1).1 first ∧
          Shift (rotatedWeights d1 d2 x1 y1).2 second ∧ Coincides first second d1 d2 x1 y1 := by
  have hprepared := prepared_rotate hd1 hp2 hbranch
  rcases exists_shift hprepared.first_pos.ne' with ⟨first, hfirst⟩
  rcases exists_rounds (rotate d1 d2 x1 y1).d2 with ⟨second, hsecond⟩
  rw [rotmgImpl_rounds_iff hd1 hp2 hbranch hfirst hsecond, NearRange, hprepared.weights,
    withinPower_two_iff (.inr hfirst), withinPower_two_iff hsecond, withinPower_four_iff (.inr hfirst),
    withinPower_four_iff hsecond]
  refine or_congr (by omega) ⟨?_, ?_⟩
  · intro hcoincides
    rcases hsecond with ⟨-, rfl⟩ | hsecond
    · exact absurd hcoincides.2.2.1 (lt_irrefl _)
    · exact ⟨first, second, hfirst, hsecond, hcoincides⟩
  · rintro ⟨first', second', hfirst', hsecond', hcoincides⟩
    rcases hsecond with ⟨hzero, -⟩ | hsecond
    · exact absurd hzero hsecond'.ne_zero
    · rwa [hfirst.unique hfirst', hsecond.unique hsecond']

/-- A weight that is rescaled once. -/
theorem rotmgImpl_isRotation_rescaled :
    ∃ fuel outcome, rotmgImpl fuel 1 (gamma ^ (-3 : Int)) 1 1 ⟨0, 0, 0, 0, 0⟩ = some outcome ∧
      outcome.IsRotation 1 (gamma ^ (-3 : Int)) 1 1 ∧
      rotmEntry outcome.parameters 1 1 = (outcome.x1, 0) ∧
      ¬ WithinPower 2 (rotatedWeights 1 (gamma ^ (-3 : Int)) 1 1).2 := by
  have hrotation := (@rotmgImpl_isRotation_iff 1 (gamma ^ (-3 : Int)) 1 1 ⟨0, 0, 0, 0, 0⟩
    (by norm_num) (by norm_num [gamma]) (by norm_num [ZeroesOperands, gamma])).2
      (.inl (.inl (by norm_num [WithinPower, rotatedWeights, gamma])))
  rcases hrotation with ⟨fuel, outcome, hvalue, hrotates⟩
  have hsecond : ¬ WithinPower 2 (rotatedWeights 1 (gamma ^ (-3 : Int)) 1 1).2 := by
    norm_num [WithinPower, rotatedWeights, gamma]
  exact ⟨fuel, outcome, hvalue, hrotates, hrotates.rotmEntry_eq, hsecond⟩

/-- A weight that is rescaled twice: the off-diagonal parameter of the first row is scaled once. -/
theorem rotmgImpl_rescaled_twice :
    (0 : Rat) ≤ 1 ∧ gamma ^ 5 * 1 ≠ 0 ∧ ¬ ZeroesOperands 1 (gamma ^ 5) 0 1 ∧
      (∃ fuel outcome, rotmgImpl fuel 1 (gamma ^ 5) 0 1 ⟨0, 0, 0, 0, 0⟩ = some outcome) ∧
      ¬ ∃ fuel outcome, rotmgImpl fuel 1 (gamma ^ 5) 0 1 ⟨0, 0, 0, 0, 0⟩ = some outcome ∧
        outcome.IsRotation 1 (gamma ^ 5) 0 1 := by
  have hbranch : ¬ ZeroesOperands 1 (gamma ^ 5) 0 1 := by
    norm_num [ZeroesOperands, gamma]
  have hstate : rotate 1 (gamma ^ 5) 0 1 =
      { d1 := gamma ^ 5, d2 := 1, x1 := 1, flag := 1 } := by
    norm_num [rotate, gamma]
  have hfirst : Shift (rotate 1 (gamma ^ 5) 0 1).d1 2 := by
    rw [hstate]
    norm_num [Shift, gamma]
  have hsecond : Rounds (rotate 1 (gamma ^ 5) 0 1).d2 0 := by
    rw [hstate]
    norm_num [Rounds, Shift, gamma]
  refine ⟨by norm_num, by norm_num [gamma], hbranch, rotmgImpl_ends 1 (gamma ^ 5) 0 1 _, ?_⟩
  rw [rotmgImpl_rounds_iff (by norm_num) (by norm_num [gamma]) hbranch hfirst hsecond]
  rintro (hrounds | hcoincides)
  · exact absurd hrounds (by decide)
  · exact absurd hcoincides.2.2.1 (lt_irrefl _)

end Dense
end AscCpp
