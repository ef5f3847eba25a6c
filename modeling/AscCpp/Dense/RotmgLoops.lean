import AscCpp.Dense.Rotmg
import Mathlib.Algebra.Order.Archimedean.Basic
import Mathlib.Tactic.FieldSimp
import Mathlib.Tactic.Linarith

/-!
# RotmgLoops — how often a weight is rescaled

A loop of `RotmgImpl` multiplies its weight by the square of `kGamma` or of its inverse until it
lies strictly between those squares.  The number of rounds, with the direction as its sign, is the
shift of the weight.

- `exists_shift`, `Shift.unique`: every nonzero weight has one shift.
- `ends_first`, `ends_second`: the loops come to an end, and what they leave.
-/

namespace AscCpp
namespace Dense

open Library

theorem gamma_pos : (0 : Rat) < gamma := by
  norm_num [gamma]

theorem one_lt_gamma : (1 : Rat) < gamma := by
  norm_num [gamma]

theorem gamma_ne_zero : gamma ≠ 0 :=
  gamma_pos.ne'

theorem gammaSquared_eq : gammaSquared = gamma ^ (2 : Int) := by
  rw [zpow_ofNat, pow_two]
  rfl

theorem inverseGammaSquared_eq : inverseGammaSquared = gamma ^ (-2 : Int) := by
  rw [inverseGammaSquared, gammaSquared_eq, one_div, ← zpow_neg]

theorem gamma_zpow_pos (exponent : Int) : 0 < gamma ^ exponent :=
  zpow_pos gamma_pos exponent

theorem gamma_zpow_add (left right : Int) :
    gamma ^ (left + right) = gamma ^ left * gamma ^ right :=
  zpow_add₀ gamma_ne_zero left right

theorem gamma_zpow_lt_iff {left right : Int} : gamma ^ left < gamma ^ right ↔ left < right :=
  zpow_lt_zpow_iff_right₀ one_lt_gamma

theorem gamma_zpow_le_iff {left right : Int} : gamma ^ left ≤ gamma ^ right ↔ left ≤ right :=
  zpow_le_zpow_iff_right₀ one_lt_gamma

theorem gamma_zpow_inj {left right : Int} (h : gamma ^ left = gamma ^ right) : left = right :=
  zpow_right_injective₀ gamma_pos one_lt_gamma.ne' h

/-! ## Shifts -/

/-- How often, and in which direction, a weight is rescaled. -/
def Shift (weight : Rat) (shift : Int) : Prop :=
  (shift = 0 ∧ gamma ^ (-2 : Int) < |weight| ∧ |weight| < gamma ^ (2 : Int)) ∨
  (0 < shift ∧ gamma ^ (2 * shift) ≤ |weight| ∧ |weight| < gamma ^ (2 * shift + 2)) ∨
  (shift < 0 ∧ gamma ^ (2 * shift - 2) < |weight| ∧ |weight| ≤ gamma ^ (2 * shift))

/-- Whatever the direction, the shift is known up to one from the size of the weight. -/
theorem Shift.bounds {weight : Rat} {shift : Int} (h : Shift weight shift) :
    gamma ^ (2 * shift - 2) < |weight| ∧ |weight| < gamma ^ (2 * shift + 2) := by
  rcases h with ⟨rfl, hlower, hupper⟩ | ⟨_, hlower, hupper⟩ | ⟨_, hlower, hupper⟩
  · exact ⟨hlower, hupper⟩
  · exact ⟨(gamma_zpow_lt_iff.2 (by omega)).trans_le hlower, hupper⟩
  · exact ⟨hlower, hupper.trans_lt (gamma_zpow_lt_iff.2 (by omega))⟩

theorem Shift.ne_zero {weight : Rat} {shift : Int} (h : Shift weight shift) : weight ≠ 0 := by
  rintro rfl
  have hlower := h.bounds.1
  rw [abs_zero] at hlower
  exact absurd hlower (gamma_zpow_pos _).not_gt

theorem Shift.unique {weight : Rat} {shift shift' : Int} (h : Shift weight shift)
    (h' : Shift weight shift') : shift = shift' := by
  -- The intervals of two shifts are disjoint, which comparing the exponents shows.
  have hcompare : ∀ {left right : Int}, gamma ^ left ≤ |weight| → |weight| < gamma ^ right →
      left < right := fun hleft hright => gamma_zpow_lt_iff.1 (hleft.trans_lt hright)
  have hcompare' : ∀ {left right : Int}, gamma ^ left < |weight| → |weight| ≤ gamma ^ right →
      left < right := fun hleft hright => gamma_zpow_lt_iff.1 (hleft.trans_le hright)
  rcases h with ⟨rfl, hl, hu⟩ | ⟨hs, hl, hu⟩ | ⟨hs, hl, hu⟩ <;>
    rcases h' with ⟨rfl, hl', hu'⟩ | ⟨hs', hl', hu'⟩ | ⟨hs', hl', hu'⟩
  · rfl
  · have := hcompare hl' hu
    omega
  · have := hcompare' hl hu'
    omega
  · have := hcompare hl hu'
    omega
  · have := hcompare hl hu'
    have := hcompare hl' hu
    omega
  · have := gamma_zpow_le_iff.1 (hl.trans hu')
    omega
  · have := hcompare' hl' hu
    omega
  · have := gamma_zpow_le_iff.1 (hl'.trans hu)
    omega
  · have := hcompare' hl hu'
    have := hcompare' hl' hu
    omega

theorem exists_shift {weight : Rat} (h : weight ≠ 0) : ∃ shift, Shift weight shift := by
  have habs : 0 < |weight| := abs_pos.2 h
  have hbase : (1 : Rat) < gamma ^ (2 : Int) := by
    rw [← zpow_zero gamma]
    exact gamma_zpow_lt_iff.2 (by decide)
  -- A large weight is rounded down to an even power, a small one up.
  by_cases hlarge : gamma ^ (2 : Int) ≤ |weight|
  · rcases exists_mem_Ico_zpow habs hbase with ⟨shift, hlower, hupper⟩
    rw [← zpow_mul] at hlower hupper
    have hpositive := gamma_zpow_lt_iff.1 (hlarge.trans_lt hupper)
    exact ⟨shift, .inr (.inl ⟨by omega, hlower, by rwa [mul_add] at hupper⟩)⟩
  · by_cases hsmall : |weight| ≤ gamma ^ (-2 : Int)
    · rcases exists_mem_Ioc_zpow habs hbase with ⟨shift, hlower, hupper⟩
      rw [← zpow_mul] at hlower hupper
      have hnegative := gamma_zpow_lt_iff.1 (hlower.trans_le hsmall)
      refine ⟨shift + 1, .inr (.inr ⟨by omega, ?_, hupper⟩)⟩
      rwa [show 2 * (shift + 1) - 2 = 2 * shift by omega]
    · exact ⟨0, .inl ⟨rfl, not_le.1 hsmall, not_le.1 hlarge⟩⟩

/-- A round moves the shift towards zero. -/
theorem Shift.step {weight : Rat} {shift : Int} (h : Shift weight shift) (hne : shift ≠ 0) :
    Shift (weight * gamma ^ (-2 * shift.sign)) (shift - shift.sign) := by
  have hscale : ∀ exponent target : Int, target = exponent - 2 * shift.sign →
      gamma ^ target = gamma ^ exponent * gamma ^ (-2 * shift.sign) := by
    intro exponent target htarget
    rw [← gamma_zpow_add]
    congr 1
    omega
  have hle : ∀ {left right : Rat}, left ≤ right →
      left * gamma ^ (-2 * shift.sign) ≤ right * gamma ^ (-2 * shift.sign) := fun hle =>
    mul_le_mul_of_nonneg_right hle (gamma_zpow_pos _).le
  have hlt : ∀ {left right : Rat}, left < right →
      left * gamma ^ (-2 * shift.sign) < right * gamma ^ (-2 * shift.sign) := fun hlt =>
    mul_lt_mul_of_pos_right hlt (gamma_zpow_pos _)
  have habs : |weight * gamma ^ (-2 * shift.sign)| = |weight| * gamma ^ (-2 * shift.sign) := by
    rw [abs_mul, abs_of_pos (gamma_zpow_pos _)]
  unfold Shift
  rw [habs]
  rcases h with ⟨rfl, -, -⟩ | ⟨hs, hl, hu⟩ | ⟨hs, hl, hu⟩
  · exact absurd rfl hne
  · have hsign : shift.sign = 1 := Int.sign_eq_one_of_pos hs
    have hlower := hle hl
    have hupper := hlt hu
    rw [← hscale (2 * shift) (2 * (shift - shift.sign)) (by omega)] at hlower
    rw [← hscale (2 * shift + 2) (2 * (shift - shift.sign) + 2) (by omega)] at hupper
    -- Either rounds are left, or the weight is in range now.
    rcases lt_or_ge 0 (shift - shift.sign) with hpos | hnonpos
    · exact .inr (.inl ⟨hpos, hlower, hupper⟩)
    · have hzero : shift - shift.sign = 0 := by omega
      rw [hzero] at hlower hupper ⊢
      exact .inl ⟨rfl, (gamma_zpow_lt_iff.2 (by decide)).trans_le hlower, hupper⟩
  · have hsign : shift.sign = -1 := Int.sign_eq_neg_one_of_neg hs
    have hlower := hlt hl
    have hupper := hle hu
    rw [← hscale (2 * shift - 2) (2 * (shift - shift.sign) - 2) (by omega)] at hlower
    rw [← hscale (2 * shift) (2 * (shift - shift.sign)) (by omega)] at hupper
    rcases lt_or_ge (shift - shift.sign) 0 with hneg | hnonneg
    · exact .inr (.inr ⟨hneg, hlower, hupper⟩)
    · have hzero : shift - shift.sign = 0 := by omega
      rw [hzero] at hlower hupper ⊢
      exact .inl ⟨rfl, hlower, hupper.trans_lt (gamma_zpow_lt_iff.2 (by decide))⟩

/-- Rescaled as often as its shift says, a weight is in range. -/
theorem Shift.rescaled {weight : Rat} {shift : Int} (h : Shift weight shift) :
    inverseGammaSquared < |weight * gamma ^ (-2 * shift)| ∧
      |weight * gamma ^ (-2 * shift)| < gammaSquared := by
  have hscale : ∀ exponent : Int,
      gamma ^ exponent = gamma ^ (2 * shift + exponent) * gamma ^ (-2 * shift) := by
    intro exponent
    rw [← gamma_zpow_add]
    congr 1
    omega
  rw [abs_mul, abs_of_pos (gamma_zpow_pos _), inverseGammaSquared_eq, gammaSquared_eq,
    hscale (-2), hscale 2]
  exact ⟨mul_lt_mul_of_pos_right h.bounds.1 (gamma_zpow_pos _),
    mul_lt_mul_of_pos_right h.bounds.2 (gamma_zpow_pos _)⟩

/-! ## The loops -/

/-- A loop that rescales a weight ends, when its rounds move the shift of the weight towards zero. -/
theorem ends_of_shift {guard : RotmgState → Bool} {body : RotmgState → RotmgState}
    (weight : RotmgState → Rat) {result : Int → RotmgState → RotmgState}
    (hzero : ∀ state, result 0 state = state)
    (hstop : ∀ state, Shift (weight state) 0 → guard state = false)
    (hround : ∀ state shift, shift ≠ 0 → Shift (weight state) shift →
      guard state = true ∧ Shift (weight (body state)) (shift - shift.sign) ∧
        result (shift - shift.sign) (body state) = result shift state)
    {state : RotmgState} {shift : Int} (h : Shift (weight state) shift) :
    Ends guard body state (result shift state) := by
  -- On the number of rounds, which is the absolute value of the shift.
  induction hrounds : shift.natAbs generalizing shift state with
  | zero =>
    have hshift : shift = 0 := by omega
    subst hshift
    rw [hzero]
    exact .of_not_guard (hstop state h)
  | succ rounds ih =>
    have hne : shift ≠ 0 := by omega
    rcases hround state shift hne h with ⟨hguard, hshift, hresult⟩
    have hless : (shift - shift.sign).natAbs = rounds := by
      rcases lt_or_gt_of_ne hne with hneg | hpos
      · rw [Int.sign_eq_neg_one_of_neg hneg]
        omega
      · rw [Int.sign_eq_one_of_pos hpos]
        omega
    rw [← hresult]
    exact .of_guard hguard (ih hshift hless)

/-- The first row, rescaled. -/
def scaleFirst (shift : Int) (state : RotmgState) : RotmgState :=
  { state with
    d1 := state.d1 * gamma ^ (-2 * shift)
    x1 := state.x1 * gamma ^ shift
    h11 := state.h11 * gamma ^ shift
    h12 := state.h12 * gamma ^ shift }

/-- The second row, rescaled. -/
def scaleSecond (shift : Int) (state : RotmgState) : RotmgState :=
  { state with
    d2 := state.d2 * gamma ^ (-2 * shift)
    h21 := state.h21 * gamma ^ shift
    h22 := state.h22 * gamma ^ shift }

/-- What the first loop leaves.  From its second round on it takes the off-diagonal parameters for
those of the flag one. -/
def firstResult (shift : Int) (state : RotmgState) : RotmgState :=
  if shift = 0 then state
  else if shift.natAbs = 1 then scaleFirst shift (unpack state)
  else { scaleFirst shift (unpack state) with h12 := gamma ^ shift.sign, h21 := -1 }

/-- What the second loop leaves. -/
def secondResult (shift : Int) (state : RotmgState) : RotmgState :=
  if shift = 0 then state
  else if shift.natAbs = 1 then scaleSecond shift (unpack state)
  else { scaleSecond shift (unpack state) with h12 := 1, h21 := -gamma ^ shift.sign }

theorem unpack_d1 (state : RotmgState) : (unpack state).d1 = state.d1 := by
  unfold unpack
  split <;> rfl

theorem unpack_d2 (state : RotmgState) : (unpack state).d2 = state.d2 := by
  unfold unpack
  split <;> rfl

theorem unpack_flag (state : RotmgState) : (unpack state).flag = -1 := by
  unfold unpack
  split <;> rfl

theorem unpack_of_neg {state : RotmgState} (h : state.flag = -1) :
    unpack state = { state with h21 := -1, h12 := 1 } := by
  unfold unpack
  rw [if_neg (by rw [h]; decide)]
  cases state
  cases h
  rfl

/-- A shift that is not zero has the sign of its direction. -/
theorem Shift.direction {weight : Rat} {shift : Int} (h : Shift weight shift) (hne : shift ≠ 0) :
    (shift.sign = 1 ∧ gamma ^ (2 : Int) ≤ |weight|) ∨
      (shift.sign = -1 ∧ |weight| ≤ gamma ^ (-2 : Int)) := by
  rcases h with ⟨rfl, -, -⟩ | ⟨hs, hl, -⟩ | ⟨hs, -, hu⟩
  · exact absurd rfl hne
  · exact .inl ⟨Int.sign_eq_one_of_pos hs, (gamma_zpow_le_iff.2 (by omega)).trans hl⟩
  · exact .inr ⟨Int.sign_eq_neg_one_of_neg hs, hu.trans (gamma_zpow_le_iff.2 (by omega))⟩

theorem not_le_of_gamma_le {weight : Rat} (h : gamma ^ (2 : Int) ≤ weight) :
    ¬ weight ≤ gamma ^ (-2 : Int) := by
  intro hle
  exact absurd (gamma_zpow_le_iff.1 (h.trans hle)) (by decide)

theorem rescaleFirst_eq {state : RotmgState} {shift : Int} (hpos : 0 < state.d1)
    (h : Shift state.d1 shift) (hne : shift ≠ 0) :
    rescaleFirst state = scaleFirst shift.sign (unpack state) := by
  have hdirection := h.direction hne
  rw [abs_of_pos hpos] at hdirection
  rcases hdirection with ⟨hsign, hlarge⟩ | ⟨hsign, hsmall⟩
  -- Upwards the weight is divided, downwards it is multiplied.
  · rw [rescaleFirst, unpack_d1, inverseGammaSquared_eq, if_neg (not_le_of_gamma_le hlarge),
      scaleFirst, hsign, gammaSquared_eq, zpow_one, unpack_d1, div_eq_mul_inv, ← zpow_neg]
    rfl
  · rw [rescaleFirst, unpack_d1, inverseGammaSquared_eq, if_pos hsmall, scaleFirst, hsign,
      gammaSquared_eq, zpow_neg_one, unpack_d1]
    simp only [div_eq_mul_inv]
    rfl

theorem rescaleSecond_eq {state : RotmgState} {shift : Int} (h : Shift state.d2 shift)
    (hne : shift ≠ 0) : rescaleSecond state = scaleSecond shift.sign (unpack state) := by
  rcases h.direction hne with ⟨hsign, hlarge⟩ | ⟨hsign, hsmall⟩
  · rw [rescaleSecond, unpack_d2, inverseGammaSquared_eq, if_neg (not_le_of_gamma_le hlarge),
      scaleSecond, hsign, gammaSquared_eq, zpow_one, unpack_d2, div_eq_mul_inv, ← zpow_neg]
    rfl
  · rw [rescaleSecond, unpack_d2, inverseGammaSquared_eq, if_pos hsmall, scaleSecond, hsign,
      gammaSquared_eq, zpow_neg_one, unpack_d2]
    simp only [div_eq_mul_inv]
    rfl

/-! ## What the loops leave -/

theorem zpow_split (value : Rat) (left right : Int) :
    value * gamma ^ right * gamma ^ left = value * gamma ^ (right + left) := by
  rw [gamma_zpow_add, mul_assoc]

theorem scaleFirst_scaleFirst (left right : Int) (state : RotmgState) :
    scaleFirst left (scaleFirst right state) = scaleFirst (right + left) state := by
  unfold scaleFirst
  simp only [zpow_split, mul_add]

theorem scaleSecond_scaleSecond (left right : Int) (state : RotmgState) :
    scaleSecond left (scaleSecond right state) = scaleSecond (right + left) state := by
  unfold scaleSecond
  simp only [zpow_split, mul_add]

theorem unpack_scaleFirst (shift : Int) (state : RotmgState) :
    unpack (scaleFirst shift (unpack state)) =
      { scaleFirst shift (unpack state) with h21 := -1, h12 := 1 } :=
  unpack_of_neg (unpack_flag state)

theorem unpack_scaleSecond (shift : Int) (state : RotmgState) :
    unpack (scaleSecond shift (unpack state)) =
      { scaleSecond shift (unpack state) with h21 := -1, h12 := 1 } :=
  unpack_of_neg (unpack_flag state)

/-- Beyond one round, the rounds that are left have the same direction. -/
theorem sign_sub_sign {shift : Int} (hfar : 1 < shift.natAbs) :
    (shift - shift.sign).sign = shift.sign := by
  rcases lt_or_ge 0 shift with hpos | hnonpos
  · rw [Int.sign_eq_one_of_pos hpos, Int.sign_eq_one_of_pos (by omega)]
  · have hneg : shift < 0 := by omega
    rw [Int.sign_eq_neg_one_of_neg hneg, Int.sign_eq_neg_one_of_neg (by omega)]

theorem eq_sign_of_natAbs_eq_one {shift : Int} (h : shift.natAbs = 1) : shift.sign = shift := by
  rcases Int.natAbs_eq_iff.1 h with rfl | rfl <;> rfl

theorem natAbs_sub_sign {shift : Int} (hne : shift ≠ 0) :
    (shift - shift.sign).natAbs + 1 = shift.natAbs := by
  rcases lt_or_gt_of_ne hne with hneg | hpos
  · rw [Int.sign_eq_neg_one_of_neg hneg]
    omega
  · rw [Int.sign_eq_one_of_pos hpos]
    omega

/-- A round of the first loop and what is left of it make the whole of it. -/
theorem firstResult_round {shift : Int} (hne : shift ≠ 0) (state : RotmgState) :
    firstResult (shift - shift.sign) (scaleFirst shift.sign (unpack state)) =
      firstResult shift state := by
  have hrounds := natAbs_sub_sign hne
  by_cases hlast : shift.natAbs = 1
  · have hzero : shift - shift.sign = 0 := by omega
    rw [firstResult, if_pos hzero, firstResult, if_neg hne, if_pos hlast,
      eq_sign_of_natAbs_eq_one hlast]
  have hmore : shift - shift.sign ≠ 0 := by omega
  have hwhole : firstResult shift state =
      { scaleFirst shift (unpack state) with h12 := gamma ^ shift.sign, h21 := -1 } := by
    rw [firstResult, if_neg hne, if_neg hlast]
  -- The round that follows forgets the off-diagonal parameters, so only its own scaling remains.
  have hrest := scaleFirst_scaleFirst (shift - shift.sign) shift.sign (unpack state)
  rw [add_sub_cancel] at hrest
  rw [hwhole, firstResult, if_neg hmore, unpack_scaleFirst, ← hrest]
  by_cases hnext : (shift - shift.sign).natAbs = 1
  · have hsign : shift - shift.sign = shift.sign := by
      rw [← eq_sign_of_natAbs_eq_one hnext, sign_sub_sign (by omega)]
    rw [if_pos hnext, hsign]
    simp only [scaleFirst, one_mul]
  · rw [if_neg hnext, sign_sub_sign (by omega : 1 < shift.natAbs)]
    rfl

/-- A round of the second loop and what is left of it make the whole of it. -/
theorem secondResult_round {shift : Int} (hne : shift ≠ 0) (state : RotmgState) :
    secondResult (shift - shift.sign) (scaleSecond shift.sign (unpack state)) =
      secondResult shift state := by
  have hrounds := natAbs_sub_sign hne
  -- The last round leaves the entries as scaled; every earlier one writes the fixed pair.
  by_cases hlast : shift.natAbs = 1
  · have hzero : shift - shift.sign = 0 := by omega
    rw [secondResult, if_pos hzero, secondResult, if_neg hne, if_pos hlast,
      eq_sign_of_natAbs_eq_one hlast]
  have hmore : shift - shift.sign ≠ 0 := by omega
  have hwhole : secondResult shift state =
      { scaleSecond shift (unpack state) with h12 := 1, h21 := -gamma ^ shift.sign } := by
    rw [secondResult, if_neg hne, if_neg hlast]
  have hrest := scaleSecond_scaleSecond (shift - shift.sign) shift.sign (unpack state)
  rw [add_sub_cancel] at hrest
  rw [hwhole, secondResult, if_neg hmore, unpack_scaleSecond, ← hrest]
  by_cases hnext : (shift - shift.sign).natAbs = 1
  · have hsign : shift - shift.sign = shift.sign := by
      rw [← eq_sign_of_natAbs_eq_one hnext, sign_sub_sign (by omega)]
    rw [if_pos hnext, hsign]
    simp only [scaleSecond, neg_one_mul]
  · rw [if_neg hnext, sign_sub_sign (by omega : 1 < shift.natAbs)]
    rfl

theorem firstOutOfRange_of_shift_zero {state : RotmgState} (hpos : 0 < state.d1)
    (h : Shift state.d1 0) : firstOutOfRange state = false := by
  have hbounds := h.bounds
  rw [abs_of_pos hpos] at hbounds
  simpa [firstOutOfRange, inverseGammaSquared_eq, gammaSquared_eq] using hbounds

theorem firstOutOfRange_of_shift {state : RotmgState} {shift : Int} (hpos : 0 < state.d1)
    (h : Shift state.d1 shift) (hne : shift ≠ 0) : firstOutOfRange state = true := by
  have hdirection := h.direction hne
  rw [abs_of_pos hpos] at hdirection
  rw [firstOutOfRange, inverseGammaSquared_eq, gammaSquared_eq, Bool.or_eq_true, decide_eq_true_iff,
    decide_eq_true_iff]
  rcases hdirection with ⟨-, hlarge⟩ | ⟨-, hsmall⟩
  · exact .inr hlarge
  · exact .inl hsmall

theorem secondOutOfRange_of_shift_zero {state : RotmgState} (h : Shift state.d2 0) :
    secondOutOfRange state = false := by
  simpa [secondOutOfRange, inverseGammaSquared_eq, gammaSquared_eq] using h.bounds

theorem secondOutOfRange_of_shift {state : RotmgState} {shift : Int} (h : Shift state.d2 shift)
    (hne : shift ≠ 0) : secondOutOfRange state = true := by
  rw [secondOutOfRange, inverseGammaSquared_eq, gammaSquared_eq, Bool.or_eq_true, decide_eq_true_iff,
    decide_eq_true_iff]
  rcases h.direction hne with ⟨-, hlarge⟩ | ⟨-, hsmall⟩
  · exact .inr hlarge
  · exact .inl hsmall

/-- The first loop ends, for a positive weight. -/
theorem ends_first {state : RotmgState} {shift : Int} (hpos : 0 < state.d1)
    (h : Shift state.d1 shift) :
    Ends firstOutOfRange rescaleFirst state (firstResult shift state) := by
  -- The weight is cut off at zero, so that a state with a shift has a positive weight.
  have hweight : ∀ {other : RotmgState} {count : Int}, Shift (max other.d1 0) count →
      0 < other.d1 ∧ Shift other.d1 count := by
    intro other count hshift
    have hother : 0 < other.d1 := by
      by_contra hnonpos
      rw [max_eq_right (not_lt.1 hnonpos)] at hshift
      exact hshift.ne_zero rfl
    rw [max_eq_left hother.le] at hshift
    exact ⟨hother, hshift⟩
  refine ends_of_shift (fun other => max other.d1 0) (fun _ => if_pos rfl) ?_ ?_
    (by rwa [max_eq_left hpos.le])
  · intro other hshift
    rcases hweight hshift with ⟨hother, hshift⟩
    exact firstOutOfRange_of_shift_zero hother hshift
  · intro other count hne hshift
    rcases hweight hshift with ⟨hother, hshift⟩
    have hround := rescaleFirst_eq hother hshift hne
    have hd1 : (rescaleFirst other).d1 = other.d1 * gamma ^ (-2 * count.sign) := by
      rw [hround]
      exact congrArg (· * gamma ^ (-2 * count.sign)) (unpack_d1 other)
    refine ⟨firstOutOfRange_of_shift hother hshift hne, ?_, ?_⟩
    · rw [hd1, max_eq_left (mul_pos hother (gamma_zpow_pos _)).le]
      exact hshift.step hne
    · rw [hround, firstResult_round hne]

/-- The second loop ends, for a weight of either sign. -/
theorem ends_second {state : RotmgState} {shift : Int} (h : Shift state.d2 shift) :
    Ends secondOutOfRange rescaleSecond state (secondResult shift state) := by
  refine ends_of_shift (fun other => other.d2) (fun _ => if_pos rfl)
    (fun other hshift => secondOutOfRange_of_shift_zero hshift) ?_ h
  intro other count hne hshift
  have hround := rescaleSecond_eq hshift hne
  have hd2 : (rescaleSecond other).d2 = other.d2 * gamma ^ (-2 * count.sign) := by
    rw [hround]
    exact congrArg (· * gamma ^ (-2 * count.sign)) (unpack_d2 other)
  refine ⟨secondOutOfRange_of_shift hshift hne, ?_, ?_⟩
  · rw [hd2]
    exact hshift.step hne
  · rw [hround, secondResult_round hne]

end Dense
end AscCpp
