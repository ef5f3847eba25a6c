import AscCpp.Core.Integer

/-!
# Machine — the checked operations, expression by expression

The operands of an operator are promoted first.  An operator has no value for a zero divisor, nor
where its result does not fit: a signed type overflows there, an unsigned one wraps around.

- `inRange_iff`: `std::in_range`, which compares across signedness and width.
- `checkedAdd_eq`, `checkedMultiply_eq`, `checkedCast_eq`: each expression that is evaluated has a
  value, and the operations are those on mathematical integers.
- `checkedOperations_correct`: they return exact results, as long as these are representable.
-/

namespace AscCpp
namespace Core
namespace Machine

/-! ## Types of expressions -/

/-- Integral promotion: `int` takes the values of the narrower types. -/
def promoted (type : IntegerType) : IntegerType :=
  if type.width < 32 then ⟨true, 32⟩ else type

/-- The usual arithmetic conversions. -/
def commonType (left right : IntegerType) : IntegerType :=
  if (promoted left).width = (promoted right).width then
    ⟨(promoted left).signed && (promoted right).signed, (promoted left).width⟩
  else if (promoted left).width < (promoted right).width then
    promoted right
  else
    promoted left

/-- The value of the type that is congruent modulo the width. -/
def convert (type : IntegerType) (value : Int) : Int :=
  type.minimum + (value - type.minimum) % (type.maximum - type.minimum + 1)

/-- `std::make_unsigned_t`. -/
def makeUnsigned (type : IntegerType) : IntegerType :=
  { type with signed := false }

/-! ## `std::in_range` -/

/-- `left < right`, after the conversions. -/
def less (leftType rightType : IntegerType) (left right : Int) : Bool :=
  convert (commonType leftType rightType) left < convert (commonType leftType rightType) right

/-- `std::cmp_less`. -/
def cmpLess (leftType rightType : IntegerType) (left right : Int) : Bool :=
  if leftType.signed = rightType.signed then
    less leftType rightType left right
  else if leftType.signed then
    if left < 0 then true
    else less (makeUnsigned leftType) rightType (convert (makeUnsigned leftType) left) right
  else
    if right < 0 then false
    else less leftType (makeUnsigned rightType) left (convert (makeUnsigned rightType) right)

/-- `std::in_range`. -/
def inRange (target source : IntegerType) (value : Int) : Bool :=
  !cmpLess source target value target.minimum && !cmpLess target source target.maximum value

/-! ## Operators -/

def fit (type : IntegerType) (value : Int) : Option Int :=
  if type.Representable value then some value else none

def add (type : IntegerType) (left right : Int) : Option Int :=
  fit (promoted type) (left + right)

def subtract (type : IntegerType) (left right : Int) : Option Int :=
  fit (promoted type) (left - right)

def multiply (type : IntegerType) (left right : Int) : Option Int :=
  fit (promoted type) (left * right)

def divide (type : IntegerType) (left right : Int) : Option Int :=
  if right = 0 then none else fit (promoted type) (left.tdiv right)

/-- `left && right`: the second operand is evaluated after a true first one. -/
def both (left : Bool) (right : Option Bool) : Option Bool :=
  if left then right else some false

/-- `left || right`: the second operand is evaluated after a false first one. -/
def either (left right : Option Bool) : Option Bool := do
  if ← left then some true else right

/-! ## The checked operations -/

/-- The guards of `CheckedAdd`.  A comparison is between values of one type. -/
def additionOverflows (type : IntegerType) (left right : Int) : Option Bool :=
  if type.signed then
    either
      (both (right > 0) do
        let difference ← subtract type type.maximum right
        some (left > difference))
      (both (right < 0) do
        let difference ← subtract type type.minimum right
        some (left < difference))
  else do
    let difference ← subtract type type.maximum right
    some (left > difference)

def checkedAdd (type : IntegerType) (left right : Int) : Option (Result Int) := do
  if ← additionOverflows type left right then
    some (.error additionOverflow)
  else do
    let sum ← add type left right
    some (.ok (convert type sum))

/-- The guards of `CheckedMultiply` behind the one for zero. -/
def multiplicationOverflows (type : IntegerType) (left right : Int) : Option Bool :=
  if type.signed then
    if (left = -1 ∧ right = type.minimum) ∨ (right = -1 ∧ left = type.minimum) then
      some true
    else if left > 0 then
      either
        (both (right > 0) do
          let quotient ← divide type type.maximum right
          some (left > quotient))
        (both (right < 0) do
          let quotient ← divide type type.minimum left
          some (right < quotient))
    else
      either
        (both (right > 0) do
          let quotient ← divide type type.minimum right
          some (left < quotient))
        (both (right < 0) do
          let quotient ← divide type type.maximum right
          some (left < quotient))
  else do
    let quotient ← divide type type.maximum right
    some (left > quotient)

def checkedMultiply (type : IntegerType) (left right : Int) : Option (Result Int) :=
  if left = 0 ∨ right = 0 then
    some (.ok (convert type 0))
  else do
    if ← multiplicationOverflows type left right then
      some (.error multiplicationOverflow)
    else do
      let product ← multiply type left right
      some (.ok (convert type product))

def checkedCast (target source : IntegerType) (value : Int) : Option (Result Int) :=
  if !inRange target source value then
    some (.error
      { code := .overflow, message := "Integral conversion is outside the destination range" })
  else
    some (.ok (convert target value))

/-! ## Ranges of types -/

/-- A value fits every wider type, apart from a negative one and an unsigned type. -/
theorem representable_of_wider {small big : IntegerType} {value : Int}
    (h : small.Representable value) (hwidth : small.width ≤ big.width)
    (hsign : small.signed = big.signed ∨
      (0 ≤ value ∧ (big.signed = false ∨ small.width < big.width))) :
    big.Representable value := by
  have hpow : (2 : Int) ^ small.width ≤ 2 ^ big.width :=
    pow_le_pow_right₀ (by decide) hwidth
  have hhalf : (2 : Int) ^ (small.width - 1) ≤ 2 ^ (big.width - 1) :=
    pow_le_pow_right₀ (by decide) (by omega)
  have hless : small.width < big.width → (2 : Int) ^ small.width ≤ 2 ^ (big.width - 1) :=
    fun hlt => pow_le_pow_right₀ (by decide) (by omega)
  have hsmall : (2 : Int) ^ (small.width - 1) ≤ 2 ^ small.width :=
    pow_le_pow_right₀ (by decide) (by omega)
  unfold IntegerType.Representable IntegerType.minimum IntegerType.maximum at h ⊢
  cases hs : small.signed <;> cases hb : big.signed <;> simp [hs, hb] at h hsign ⊢ <;> omega

theorem minimum_representable (type : IntegerType) : type.Representable type.minimum :=
  ⟨le_rfl, type.minimum_nonpos.trans type.maximum_nonneg⟩

theorem maximum_representable (type : IntegerType) : type.Representable type.maximum :=
  ⟨type.minimum_nonpos.trans type.maximum_nonneg, le_rfl⟩

theorem promoted_representable {type : IntegerType} {value : Int}
    (h : type.Representable value) : (promoted type).Representable value := by
  unfold promoted
  split
  · rename_i hnarrow
    cases hsigned : type.signed with
    | true => exact representable_of_wider h hnarrow.le (.inl hsigned)
    | false =>
      have hnonneg := h.1
      rw [IntegerType.minimum_of_unsigned hsigned] at hnonneg
      exact representable_of_wider h hnarrow.le (.inr ⟨hnonneg, .inr hnarrow⟩)
  · exact h

theorem promoted_signed {type : IntegerType} (h : type.signed = true) :
    (promoted type).signed = true := by
  unfold promoted
  split
  · rfl
  · exact h

/-- The common type of two types of one signedness holds the values of both. -/
theorem commonType_representable {left right : IntegerType} (hsigned : left.signed = right.signed)
    {value : Int} (h : left.Representable value ∨ right.Representable value) :
    (commonType left right).Representable value := by
  -- A value is negative in signed types only, and these have a signed common type.
  have hside : (left.signed = true ∧ right.signed = true) ∨ 0 ≤ value := by
    cases hleft : left.signed with
    | true => exact .inl ⟨rfl, hsigned ▸ hleft⟩
    | false =>
      have hmin := IntegerType.minimum_of_unsigned hleft
      have hmin' := IntegerType.minimum_of_unsigned (hsigned ▸ hleft)
      rcases h with h | h
      · exact .inr (hmin ▸ h.1)
      · exact .inr (hmin' ▸ h.1)
  have hpromoted : (promoted left).Representable value ∨ (promoted right).Representable value :=
    h.imp promoted_representable promoted_representable
  have hboth : ((promoted left).signed = true ∧ (promoted right).signed = true) ∨ 0 ≤ value :=
    hside.imp_left fun hsides => ⟨promoted_signed hsides.1, promoted_signed hsides.2⟩
  unfold commonType
  generalize promoted left = left at hpromoted hboth ⊢
  generalize promoted right = right at hpromoted hboth ⊢
  split
  · rename_i hwidth
    have hsign : (left.signed = true ∧ right.signed = true) ∨
        (0 ≤ value ∧ (left.signed && right.signed) = false) := by
      rcases hboth with hsides | hnonneg
      · exact .inl hsides
      · rw [← Bool.and_eq_true]
        cases left.signed && right.signed with
        | true => exact .inl rfl
        | false => exact .inr ⟨hnonneg, rfl⟩
    rcases hpromoted with h | h
    · refine representable_of_wider h le_rfl ?_
      exact hsign.imp (fun hsides => by simp [hsides]) fun hother => ⟨hother.1, .inl hother.2⟩
    · refine representable_of_wider h hwidth.ge ?_
      exact hsign.imp (fun hsides => by simp [hsides]) fun hother => ⟨hother.1, .inl hother.2⟩
  split
  · rename_i hwidth
    rcases hpromoted with h | h
    · apply representable_of_wider h hwidth.le
      rcases hboth with ⟨hl, hr⟩ | hnonneg
      · exact .inl (hl.trans hr.symm)
      · exact .inr ⟨hnonneg, .inr hwidth⟩
    · exact h
  · rename_i hne hwidth
    rcases hpromoted with h | h
    · exact h
    · apply representable_of_wider h (by omega)
      rcases hboth with ⟨hl, hr⟩ | hnonneg
      · exact .inl (hr.trans hl.symm)
      · exact .inr ⟨hnonneg, .inr (by omega)⟩

theorem convert_eq {type : IntegerType} {value : Int} (h : type.Representable value) :
    convert type value = value := by
  rcases h with ⟨hmin, hmax⟩
  unfold convert
  rw [Int.emod_eq_of_lt (by omega) (by omega)]
  omega

/-! ## Comparisons -/

section Comparisons

variable {leftType rightType : IntegerType} {left right : Int}

theorem less_eq (hsigned : leftType.signed = rightType.signed)
    (hleft : leftType.Representable left) (hright : rightType.Representable right) :
    less leftType rightType left right = decide (left < right) := by
  unfold less
  rw [convert_eq (commonType_representable hsigned (.inl hleft)),
    convert_eq (commonType_representable hsigned (.inr hright))]

/-- The type without a sign holds the values that have none. -/
theorem makeUnsigned_representable {type : IntegerType} {value : Int}
    (h : type.Representable value) (hnonneg : 0 ≤ value) :
    (makeUnsigned type).Representable value :=
  representable_of_wider h le_rfl (.inr ⟨hnonneg, .inl rfl⟩)

theorem cmpLess_eq (hleft : leftType.Representable left)
    (hright : rightType.Representable right) :
    cmpLess leftType rightType left right = decide (left < right) := by
  unfold cmpLess
  -- Of one signedness the common type holds both values.
  split
  · rename_i hsigned
    exact less_eq hsigned hleft hright
  rename_i hsigned
  split
  -- A negative left value is below every unsigned one; any other converts without a change.
  · rename_i hleftSigned
    have hrightSigned : rightType.signed = false :=
      Bool.eq_false_iff.2 fun hboth => hsigned (hleftSigned.trans hboth.symm)
    have hnonneg := hright.1
    rw [IntegerType.minimum_of_unsigned hrightSigned] at hnonneg
    split
    · rename_i hnegative
      exact (decide_eq_true (by omega)).symm
    · rename_i hleftNonneg
      have hconverted := makeUnsigned_representable hleft (not_lt.1 hleftNonneg)
      rw [convert_eq hconverted]
      exact less_eq hrightSigned.symm hconverted hright
  · rename_i hleftSigned
    rw [Bool.not_eq_true] at hleftSigned
    have hnonneg := hleft.1
    rw [IntegerType.minimum_of_unsigned hleftSigned] at hnonneg
    split
    · rename_i hnegative
      exact (decide_eq_false (by omega)).symm
    · rename_i hrightNonneg
      have hconverted := makeUnsigned_representable hright (not_lt.1 hrightNonneg)
      rw [convert_eq hconverted]
      exact less_eq hleftSigned hleft hconverted

theorem inRange_iff {target source : IntegerType} {value : Int}
    (h : source.Representable value) :
    inRange target source value = true ↔ target.Representable value := by
  unfold inRange IntegerType.Representable
  rw [cmpLess_eq h (minimum_representable target), cmpLess_eq (maximum_representable target) h]
  simp

end Comparisons

/-! ## Operators that have a value -/

section Operators

variable {type : IntegerType}

theorem fit_promoted {value : Int} (h : type.Representable value) :
    fit (promoted type) value = some value :=
  if_pos (promoted_representable h)

theorem divide_eq {bound divisor : Int} (hdivisor : divisor ≠ 0)
    (h : type.Representable (bound.tdiv divisor)) :
    divide type bound divisor = some (bound.tdiv divisor) := by
  rw [divide, if_neg hdivisor, fit_promoted h]

/-- A quotient by a positive divisor lies between the dividend and zero. -/
theorem tdiv_representable {bound divisor : Int} (h : type.Representable bound)
    (hdivisor : 0 < divisor) : type.Representable (bound.tdiv divisor) := by
  have hmin := type.minimum_nonpos
  have hmax := type.maximum_nonneg
  have hsize := Int.natAbs_tdiv_le_natAbs bound divisor
  rcases h with ⟨hboundMin, hboundMax⟩
  rcases le_total 0 bound with hnonneg | hnonpos
  · have hquotient : 0 ≤ bound.tdiv divisor := Int.tdiv_nonneg hnonneg hdivisor.le
    exact ⟨by omega, by omega⟩
  · have hquotient : 0 ≤ (-bound).tdiv divisor := Int.tdiv_nonneg (by omega) hdivisor.le
    rw [Int.neg_tdiv] at hquotient
    exact ⟨by omega, by omega⟩

/-- A signed type holds every quotient of its greatest value. -/
theorem maximum_tdiv_representable (hsigned : type.signed = true) (divisor : Int) :
    type.Representable (type.maximum.tdiv divisor) := by
  have hrange := IntegerType.minimum_of_signed hsigned
  have hmax := type.maximum_nonneg
  have hsize := Int.natAbs_tdiv_le_natAbs type.maximum divisor
  exact ⟨by omega, by omega⟩

theorem both_pos {left : Prop} [Decidable left] (h : left) (right : Option Bool) :
    both left right = right := by
  rw [both, if_pos (decide_eq_true h)]

theorem both_neg {left : Prop} [Decidable left] (h : ¬ left) (right : Option Bool) :
    both left right = some false := by
  rw [both, if_neg (by simpa using h)]

theorem either_false (right : Option Bool) : either (some false) right = right := rfl

theorem either_some_false (left : Bool) : either (some left) (some false) = some left := by
  cases left <;> rfl

/-- A guard that holds exactly off the range, as it is evaluated. -/
theorem guard_eq {guard : Prop} [Decidable guard] {value : Int}
    (h : guard ↔ ¬ type.Representable value) :
    some (decide guard) = some (!decide (type.Representable value)) := by
  rw [← decide_not, decide_eq_decide.2 h]

end Operators

/-! ## The checked operations -/

section Checked

variable {type : IntegerType} {left right : Int}

theorem additionOverflows_eq (hleft : type.Representable left)
    (hright : type.Representable right) :
    additionOverflows type left right =
      some (!decide (type.Representable (left + right))) := by
  rcases hleft with ⟨hleftMin, hleftMax⟩
  rcases hright with ⟨hrightMin, hrightMax⟩
  have hmin := type.minimum_nonpos
  have hmax := type.maximum_nonneg
  -- Both differences lie between a limit and zero.
  have hupper (hnonneg : 0 ≤ right) :
      subtract type type.maximum right = some (type.maximum - right) :=
    fit_promoted ⟨by omega, by omega⟩
  have hlower (hnonpos : right ≤ 0) :
      subtract type type.minimum right = some (type.minimum - right) :=
    fit_promoted ⟨by omega, by omega⟩
  unfold additionOverflows
  cases hsigned : type.signed with
  | true =>
    rw [if_pos rfl]
    rcases lt_trichotomy right 0 with hneg | hzero | hpos
    · rw [both_neg (by omega), either_false, both_pos hneg, hlower hneg.le]
      apply guard_eq
      unfold IntegerType.Representable
      omega
    · have hfits : type.Representable (left + right) := ⟨by omega, by omega⟩
      rw [both_neg (by omega), either_false, both_neg (by omega), decide_eq_true hfits]
      rfl
    · rw [both_pos hpos, both_neg (by omega), hupper hpos.le]
      refine (either_some_false _).trans (guard_eq ?_)
      unfold IntegerType.Representable
      omega
  | false =>
    have hunsigned := IntegerType.minimum_of_unsigned hsigned
    rw [if_neg Bool.false_ne_true, hupper (by omega)]
    apply guard_eq
    unfold IntegerType.Representable
    omega

theorem checkedAdd_eq (hleft : type.Representable left) (hright : type.Representable right) :
    checkedAdd type left right = some (Core.checkedAdd type left right) := by
  rw [Core.checkedAdd_eq hleft hright, checkedAdd, additionOverflows_eq hleft hright]
  by_cases hfits : type.Representable (left + right)
  · have hsum : add type left right = some (left + right) := fit_promoted hfits
    simp [hfits, hsum, convert_eq hfits]
  · simp [hfits]

theorem multiplicationOverflows_eq (hleft : type.Representable left)
    (hright : type.Representable right) (hleftZero : left ≠ 0) (hrightZero : right ≠ 0) :
    multiplicationOverflows type left right =
      some (!decide (type.Representable (left * right))) := by
  unfold multiplicationOverflows
  -- Each guard compares with a quotient that is representable, which the case decides.
  cases hsigned : type.signed with
  | false =>
    have hunsigned := IntegerType.minimum_of_unsigned hsigned
    have hleftMin := hleft.1
    have hrightMin := hright.1
    rw [if_neg Bool.false_ne_true, divide_eq hrightZero
      (tdiv_representable (maximum_representable type) (by omega))]
    exact guard_eq (gt_maximum_tdiv_iff (by omega) (by omega))
  | true =>
    rw [if_pos rfl]
    -- The one pair of factors whose quotient does not exist is tested first.
    by_cases hedge : (left = -1 ∧ right = type.minimum) ∨ (right = -1 ∧ left = type.minimum)
    · rw [if_pos hedge, decide_eq_false (not_representable_of_edge hsigned hedge)]
      rfl
    rw [if_neg hedge]
    -- The signs of the factors select the quotient that the source divides.
    rcases lt_or_gt_of_ne hleftZero with hleftSign | hleftSign
    · rw [if_neg (by omega)]
      rcases lt_or_gt_of_ne hrightZero with hrightSign | hrightSign
      · rw [both_neg (by omega), either_false, both_pos hrightSign,
          divide_eq hrightZero (maximum_tdiv_representable hsigned right)]
        exact guard_eq (lt_maximum_tdiv_iff hleftSign hrightSign)
      · rw [both_pos hrightSign, both_neg (by omega), divide_eq hrightZero
          (tdiv_representable (minimum_representable type) hrightSign)]
        exact (either_some_false _).trans (guard_eq (lt_minimum_tdiv_iff hleftSign hrightSign))
    · rw [if_pos hleftSign]
      rcases lt_or_gt_of_ne hrightZero with hrightSign | hrightSign
      · rw [both_neg (by omega), either_false, both_pos hrightSign, divide_eq hleftZero
          (tdiv_representable (minimum_representable type) hleftSign), mul_comm]
        exact guard_eq (lt_minimum_tdiv_iff hrightSign hleftSign)
      · rw [both_pos hrightSign, both_neg (by omega),
          divide_eq hrightZero (maximum_tdiv_representable hsigned right)]
        exact (either_some_false _).trans (guard_eq (gt_maximum_tdiv_iff hleftSign hrightSign))

theorem checkedMultiply_eq (hleft : type.Representable left) (hright : type.Representable right) :
    checkedMultiply type left right = some (Core.checkedMultiply type left right) := by
  unfold checkedMultiply
  by_cases hzero : left = 0 ∨ right = 0
  · rw [if_pos hzero, convert_eq type.representable_zero, Core.checkedMultiply, if_pos hzero]
  rw [if_neg hzero, Core.checkedMultiply_eq hleft hright]
  rw [not_or] at hzero
  rw [multiplicationOverflows_eq hleft hright hzero.1 hzero.2]
  by_cases hfits : type.Representable (left * right)
  · have hproduct : multiply type left right = some (left * right) := fit_promoted hfits
    simp [hfits, hproduct, convert_eq hfits]
  · simp [hfits]

theorem checkedCast_eq {target source : IntegerType} {value : Int}
    (h : source.Representable value) :
    checkedCast target source value = some (Core.checkedCast target value) := by
  unfold checkedCast Core.checkedCast
  by_cases hfits : target.Representable value
  · rw [if_pos hfits, (inRange_iff h).2 hfits, convert_eq hfits]
    rfl
  · have hout : inRange target source value = false :=
      Bool.eq_false_iff.2 fun hin => hfits ((inRange_iff h).1 hin)
    rw [if_neg hfits, hout]
    rfl

/-! ## Exact results -/

/-- No expression is without a value, a representable result is returned, and no other one. -/
def ReturnsExactly (type : IntegerType) (exact : Int) (evaluation : Option (Result Int)) : Prop :=
  ∃ result, evaluation = some result ∧
    ((∃ value, result = .ok value) ↔ type.Representable exact) ∧
    ∀ value, result = .ok value → value = exact

theorem returnsExactly_of_eq {exact : Int} {failure : Status} {evaluation : Option (Result Int)}
    (h : evaluation = some (if type.Representable exact then .ok exact else .error failure)) :
    ReturnsExactly type exact evaluation := by
  refine ⟨_, h, ?_, fun value hvalue => ?_⟩
  · split <;> simp [*]
  · split at hvalue
    · exact (Except.ok.inj hvalue).symm
    · cases hvalue

end Checked

/-- The checked operations, on the values of every type. -/
theorem checkedOperations_correct :
    (∀ (type : IntegerType) (left right : type.Value),
      ReturnsExactly type (left.val + right.val) (checkedAdd type left.val right.val)) ∧
    (∀ (type : IntegerType) (left right : type.Value),
      ReturnsExactly type (left.val * right.val) (checkedMultiply type left.val right.val)) ∧
    ∀ (target source : IntegerType) (value : source.Value),
      ReturnsExactly target value.val (checkedCast target source value.val) := by
  refine ⟨fun type left right => ?_, fun type left right => ?_, fun target source value => ?_⟩
  · apply returnsExactly_of_eq
    rw [checkedAdd_eq left.property right.property,
      Core.checkedAdd_eq left.property right.property]
  · apply returnsExactly_of_eq
    rw [checkedMultiply_eq left.property right.property,
      Core.checkedMultiply_eq left.property right.property]
  · apply returnsExactly_of_eq
    rw [checkedCast_eq value.property]
    rfl

/-- The least value and minus one, whose quotient and product do not fit. -/
example : checkedMultiply ⟨true, 64⟩ (-2 ^ 63) (-1) = some (.error multiplicationOverflow) := by
  decide

end Machine
end Core
end AscCpp
