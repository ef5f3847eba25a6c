import AscCpp.Core.Status
import Mathlib.Algebra.Order.Group.Int
import Mathlib.Tactic.Linarith

/-!
# Integer — the integral types and their checked arithmetic

A value of an integral type of the program is a mathematical integer; the type is its signedness
and its width, and says which integers are representable.  The checked operations keep the guards
of the source, division truncating towards zero.

- `checkedAdd_eq`, `checkedMultiply_eq`: on representable operands the guards accept exactly the
  representable results.
- `IntegerType.Value`: the integers that are representable in a type.
-/

namespace AscCpp
namespace Core

/-! ## Types -/

/-- An integral type: its signedness and its width in bits. -/
structure IntegerType where
  signed : Bool
  width : Nat
  deriving DecidableEq, Repr

namespace IntegerType

def minimum (type : IntegerType) : Int :=
  if type.signed then -2 ^ (type.width - 1) else 0

def maximum (type : IntegerType) : Int :=
  if type.signed then 2 ^ (type.width - 1) - 1 else 2 ^ type.width - 1

/-- The integers that fit the type. -/
def Representable (type : IntegerType) (value : Int) : Prop :=
  type.minimum ≤ value ∧ value ≤ type.maximum

instance (type : IntegerType) (value : Int) : Decidable (type.Representable value) :=
  inferInstanceAs (Decidable (_ ∧ _))

/-- The values of the type. -/
def Value (type : IntegerType) : Type :=
  { value : Int // type.Representable value }

instance (type : IntegerType) : DecidableEq type.Value :=
  inferInstanceAs (DecidableEq { value : Int // type.Representable value })

theorem minimum_nonpos (type : IntegerType) : type.minimum ≤ 0 := by
  have hpow : (0 : Int) < 2 ^ (type.width - 1) := Int.pow_pos (by decide)
  unfold minimum
  split <;> omega

theorem maximum_nonneg (type : IntegerType) : 0 ≤ type.maximum := by
  have hpow : (0 : Int) < 2 ^ (type.width - 1) := Int.pow_pos (by decide)
  have hpow' : (0 : Int) < 2 ^ type.width := Int.pow_pos (by decide)
  unfold maximum
  split <;> omega

theorem minimum_of_unsigned {type : IntegerType} (h : type.signed = false) : type.minimum = 0 := by
  simp [minimum, h]

/-- A signed range has one more negative value than positive ones. -/
theorem minimum_of_signed {type : IntegerType} (h : type.signed = true) :
    type.minimum = -type.maximum - 1 := by
  simp only [minimum, maximum, h, if_true]
  omega

theorem representable_zero (type : IntegerType) : type.Representable 0 :=
  ⟨type.minimum_nonpos, type.maximum_nonneg⟩

end IntegerType

/-- `std::int64_t`, the type of indices, extents and entry counts. -/
def int64 : IntegerType := ⟨true, 64⟩

/-- `std::size_t`. -/
def sizeType : IntegerType := ⟨false, 64⟩

/-! ## Checked operations -/

def checkedCast (target : IntegerType) (value : Int) : Result Int :=
  if target.Representable value then
    .ok value
  else
    .error
      { code := .overflow, message := "Integral conversion is outside the destination range" }

def additionOverflow : Status :=
  { code := .overflow, message := "Integral addition overflow" }

def multiplicationOverflow : Status :=
  { code := .overflow, message := "Integral multiplication overflow" }

def checkedAdd (type : IntegerType) (left right : Int) : Result Int :=
  if type.signed then
    if (right > 0 ∧ left > type.maximum - right) ∨ (right < 0 ∧ left < type.minimum - right) then
      .error additionOverflow
    else
      .ok (left + right)
  else if left > type.maximum - right then
    .error additionOverflow
  else
    .ok (left + right)

def checkedMultiply (type : IntegerType) (left right : Int) : Result Int :=
  if left = 0 ∨ right = 0 then
    .ok 0
  else if type.signed then
    if (left = -1 ∧ right = type.minimum) ∨ (right = -1 ∧ left = type.minimum) then
      .error multiplicationOverflow
    else if left > 0 then
      if (right > 0 ∧ left > type.maximum.tdiv right) ∨
          (right < 0 ∧ right < type.minimum.tdiv left) then
        .error multiplicationOverflow
      else
        .ok (left * right)
    else if (right > 0 ∧ left < type.minimum.tdiv right) ∨
        (right < 0 ∧ left < type.maximum.tdiv right) then
      .error multiplicationOverflow
    else
      .ok (left * right)
  else if left > type.maximum.tdiv right then
    .error multiplicationOverflow
  else
    .ok (left * right)

def checkedByteCount (elementCount : Int) (elementSize : Int) : Result Int :=
  if elementCount < 0 then
    .error
      { code := .invalidArgument
        message := "A byte count cannot use a negative element count" }
  else do
    let checkedCount ← checkedCast sizeType elementCount
    checkedMultiply sizeType checkedCount elementSize

/-! ## What the guards accept -/

theorem checkedCast_ok {target : IntegerType} {value : Int} (h : target.Representable value) :
    checkedCast target value = .ok value := if_pos h

/-! The checked operations fail with an overflow alone. -/

theorem checkedCast_avoids {code : ErrorCode} (h : code ≠ .overflow) (target : IntegerType)
    (value : Int) : Result.Avoids code (checkedCast target value) := by
  unfold checkedCast
  split
  · exact .ok code _
  · exact .error h.symm

theorem checkedAdd_avoids {code : ErrorCode} (h : code ≠ .overflow) (type : IntegerType)
    (left right : Int) : Result.Avoids code (checkedAdd type left right) := by
  have hfailure : Result.Avoids code (.error additionOverflow : Result Int) := .error h.symm
  have hvalue (value : Int) : Result.Avoids code (.ok value : Result Int) := .ok code value
  unfold checkedAdd
  repeat' split
  all_goals first | exact hfailure | exact hvalue _

theorem checkedMultiply_avoids {code : ErrorCode} (h : code ≠ .overflow) (type : IntegerType)
    (left right : Int) : Result.Avoids code (checkedMultiply type left right) := by
  have hfailure : Result.Avoids code (.error multiplicationOverflow : Result Int) := .error h.symm
  have hvalue (value : Int) : Result.Avoids code (.ok value : Result Int) := .ok code value
  unfold checkedMultiply
  repeat' split
  all_goals first | exact hfailure | exact hvalue _

/-! A checked operation that returns a value returns the exact one. -/

theorem checkedCast_ok_eq {target : IntegerType} {value result : Int}
    (h : checkedCast target value = .ok result) : result = value ∧ target.Representable value := by
  unfold checkedCast at h
  split at h
  · cases h
    exact ⟨rfl, ‹_›⟩
  · cases h

theorem checkedAdd_ok_eq {type : IntegerType} {left right result : Int}
    (h : checkedAdd type left right = .ok result) : result = left + right := by
  unfold checkedAdd at h
  split at h <;> split at h <;> cases h <;> rfl

theorem checkedMultiply_ok_eq {type : IntegerType} {left right result : Int}
    (h : checkedMultiply type left right = .ok result) : result = left * right := by
  unfold checkedMultiply at h
  split at h
  · rename_i hzero
    cases h
    rcases hzero with rfl | rfl <;> simp
  · repeat' split at h
    all_goals first | cases h; rfl | cases h

theorem checkedByteCount_ok_eq {elementCount elementSize result : Int}
    (h : checkedByteCount elementCount elementSize = .ok result) :
    result = elementCount * elementSize := by
  unfold checkedByteCount at h
  split at h
  · cases h
  · rcases Result.bind_eq_ok_iff.1 h with ⟨checkedCount, hcast, hproduct⟩
    rw [← (checkedCast_ok_eq hcast).1]
    exact checkedMultiply_ok_eq hproduct

/-- A guard that holds exactly off the range leaves the representable results. -/
theorem guard_eq {type : IntegerType} {guard : Prop} [Decidable guard] {value : Int}
    {failure : Status} (h : guard ↔ ¬ type.Representable value) :
    (if guard then .error failure else .ok value : Result Int) =
      if type.Representable value then .ok value else .error failure := by
  rw [if_congr h rfl rfl, ite_not]

theorem checkedAdd_eq {type : IntegerType} {left right : Int} (hleft : type.Representable left)
    (hright : type.Representable right) :
    checkedAdd type left right =
      if type.Representable (left + right) then .ok (left + right)
      else .error additionOverflow := by
  rcases hleft with ⟨hleftMin, hleftMax⟩
  rcases hright with ⟨hrightMin, hrightMax⟩
  unfold checkedAdd
  cases hsigned : type.signed with
  | true =>
    simp only [if_true]
    apply guard_eq
    unfold IntegerType.Representable
    omega
  | false =>
    have hmin := IntegerType.minimum_of_unsigned hsigned
    simp only [Bool.false_eq_true, if_false]
    apply guard_eq
    unfold IntegerType.Representable
    omega

/-- The quotient of nonnegative numbers bounds the factor. -/
theorem gt_tdiv_iff {bound left right : Int} (hbound : 0 ≤ bound) (hright : 0 < right) :
    left > bound.tdiv right ↔ left * right > bound := by
  rw [Int.tdiv_eq_ediv_of_nonneg hbound]
  exact Int.ediv_lt_iff_lt_mul hright

/-- The quotient by a negative divisor bounds the other negative factor. -/
theorem lt_tdiv_iff_of_neg {bound left right : Int} (hbound : 0 ≤ bound) (hright : right < 0) :
    left < bound.tdiv right ↔ left * right > bound := by
  have hquotient : bound.tdiv right = -(bound / -right) := by
    rw [← Int.tdiv_eq_ediv_of_nonneg hbound, Int.tdiv_neg, neg_neg]
  have hbounds := @Int.ediv_lt_iff_lt_mul bound (-left) (-right) (by omega)
  rw [neg_mul_neg] at hbounds
  rw [hquotient]
  exact ⟨fun h => hbounds.1 (by omega), fun h => by have := hbounds.2 h; omega⟩

/-- The quotient of a negative number by a positive one bounds the negative factor. -/
theorem lt_tdiv_iff_of_pos {bound left right : Int} (hbound : bound ≤ 0) (hright : 0 < right) :
    left < bound.tdiv right ↔ left * right < bound := by
  have hquotient : bound.tdiv right = -(-bound / right) := by
    rw [← Int.tdiv_eq_ediv_of_nonneg (by omega : 0 ≤ -bound), Int.neg_tdiv, neg_neg]
  have hbounds := @Int.ediv_lt_iff_lt_mul (-bound) (-left) right hright
  rw [neg_mul] at hbounds
  rw [hquotient]
  exact ⟨fun h => by have := hbounds.1 (by omega); omega, fun h => by
    have := hbounds.2 (by omega)
    omega⟩

/-! The guards of the product, one for each pair of signs. -/

section Guards

variable {type : IntegerType} {left right : Int}

theorem gt_maximum_tdiv_iff (hleft : 0 < left) (hright : 0 < right) :
    left > type.maximum.tdiv right ↔ ¬ type.Representable (left * right) := by
  have hmin := type.minimum_nonpos
  have hpos : 0 < left * right := Int.mul_pos hleft hright
  have hguard := @gt_tdiv_iff type.maximum left right type.maximum_nonneg hright
  unfold IntegerType.Representable
  omega

theorem lt_maximum_tdiv_iff (hleft : left < 0) (hright : right < 0) :
    left < type.maximum.tdiv right ↔ ¬ type.Representable (left * right) := by
  have hmin := type.minimum_nonpos
  have hpos : 0 < left * right := Int.mul_pos_of_neg_of_neg hleft hright
  have hguard := @lt_tdiv_iff_of_neg type.maximum left right type.maximum_nonneg hright
  unfold IntegerType.Representable
  omega

theorem lt_minimum_tdiv_iff (hleft : left < 0) (hright : 0 < right) :
    left < type.minimum.tdiv right ↔ ¬ type.Representable (left * right) := by
  have hmax := type.maximum_nonneg
  have hneg : left * right < 0 := Int.mul_neg_of_neg_of_pos hleft hright
  have hguard := @lt_tdiv_iff_of_pos type.minimum left right type.minimum_nonpos hright
  unfold IntegerType.Representable
  omega

/-- The negation of the least value is the value that a signed type lacks. -/
theorem not_representable_of_edge (hsigned : type.signed = true)
    (hedge : (left = -1 ∧ right = type.minimum) ∨ (right = -1 ∧ left = type.minimum)) :
    ¬ type.Representable (left * right) := by
  have hrange := IntegerType.minimum_of_signed hsigned
  have hproduct : left * right = -type.minimum := by
    rcases hedge with ⟨rfl, rfl⟩ | ⟨rfl, rfl⟩ <;> simp
  unfold IntegerType.Representable
  omega

end Guards

theorem checkedMultiply_eq {type : IntegerType} {left right : Int}
    (hleft : type.Representable left) (hright : type.Representable right) :
    checkedMultiply type left right =
      if type.Representable (left * right) then .ok (left * right)
      else .error multiplicationOverflow := by
  by_cases hzero : left = 0 ∨ right = 0
  · have hproduct : left * right = 0 := mul_eq_zero.2 hzero
    rw [checkedMultiply, if_pos hzero, hproduct, if_pos type.representable_zero]
  rw [checkedMultiply, if_neg hzero]
  rw [not_or] at hzero
  rcases hzero with ⟨hleftZero, hrightZero⟩
  cases hsigned : type.signed with
  | false =>
    have hunsigned := IntegerType.minimum_of_unsigned hsigned
    rcases hleft with ⟨hleftMin, -⟩
    rcases hright with ⟨hrightMin, -⟩
    simp only [Bool.false_eq_true, if_false]
    apply guard_eq
    exact gt_maximum_tdiv_iff (by omega) (by omega)
  | true =>
    simp only [if_true]
    by_cases hedge : (left = -1 ∧ right = type.minimum) ∨ (right = -1 ∧ left = type.minimum)
    · rw [if_pos hedge, if_neg (not_representable_of_edge hsigned hedge)]
    rw [if_neg hedge]
    -- One case for each pair of signs: the quotient in the guard is the bound on the product.
    rcases lt_or_gt_of_ne hleftZero with hleftSign | hleftSign
    · rw [if_neg (by omega)]
      apply guard_eq
      rcases lt_or_gt_of_ne hrightZero with hrightSign | hrightSign
      · simpa only [hrightSign, hrightSign.not_gt, true_and, false_and, false_or, gt_iff_lt]
          using lt_maximum_tdiv_iff hleftSign hrightSign
      · simpa only [hrightSign, hrightSign.not_gt, true_and, false_and, or_false, gt_iff_lt]
          using lt_minimum_tdiv_iff hleftSign hrightSign
    · rw [if_pos hleftSign]
      apply guard_eq
      rcases lt_or_gt_of_ne hrightZero with hrightSign | hrightSign
      · rw [mul_comm]
        simpa only [hrightSign, hrightSign.not_gt, true_and, false_and, false_or, gt_iff_lt]
          using lt_minimum_tdiv_iff hrightSign hleftSign
      · simpa only [hrightSign, hrightSign.not_gt, true_and, false_and, or_false, gt_iff_lt]
          using gt_maximum_tdiv_iff hleftSign hrightSign

/-- A checked product by a natural factor is representable, whatever the other factor is. -/
theorem checkedMultiply_ok_representable {type : IntegerType} {left right result : Int}
    (hsigned : type.signed = true) (hleft : 0 ≤ left)
    (h : checkedMultiply type left right = .ok result) : type.Representable result := by
  have hmax := type.maximum_nonneg
  have hmin := type.minimum_nonpos
  have hexact := checkedMultiply_ok_eq h
  by_cases hzero : left = 0 ∨ right = 0
  · rw [hexact, mul_eq_zero.2 hzero]
    exact type.representable_zero
  rw [checkedMultiply, if_neg hzero, if_pos hsigned] at h
  rw [not_or] at hzero
  split at h
  · cases h
  rw [if_pos (by omega : left > 0)] at h
  split at h
  · cases h
  rename_i hguard
  rw [hexact]
  unfold IntegerType.Representable
  -- The product has the sign of the right factor, so only one bound can fail.
  rcases lt_or_gt_of_ne hzero.2 with hright | hright
  · have hneg : left * right < 0 := Int.mul_neg_of_pos_of_neg (by omega) hright
    have hbound := @lt_tdiv_iff_of_pos type.minimum right left hmin (by omega)
    rw [mul_comm right left] at hbound
    omega
  · have hpos : 0 < left * right := Int.mul_pos (by omega) hright
    have hbound := @gt_tdiv_iff type.maximum left right hmax (by omega)
    omega

/-- A natural summand: the sum is checked against the largest value only. -/
theorem checkedAdd_of_nonneg {type : IntegerType} {left right : Int} (hright : 0 ≤ right)
    (hfits : left ≤ type.maximum) :
    checkedAdd type left right =
      if left + right ≤ type.maximum then .ok (left + right) else .error additionOverflow := by
  unfold checkedAdd
  cases hsigned : type.signed with
  | true =>
    simp only [if_true]
    rw [if_congr (by omega : _ ↔ ¬ left + right ≤ type.maximum) rfl rfl, ite_not]
  | false =>
    simp only [Bool.false_eq_true, if_false]
    rw [if_congr (by omega : _ ↔ ¬ left + right ≤ type.maximum) rfl rfl, ite_not]

/-- Natural factors: the product is checked against the largest value only. -/
theorem checkedMultiply_of_nonneg {type : IntegerType} {left right : Int} (hleft : 0 ≤ left)
    (hright : 0 ≤ right) :
    checkedMultiply type left right =
      if left * right ≤ type.maximum then .ok (left * right)
      else .error multiplicationOverflow := by
  have hmax := type.maximum_nonneg
  by_cases hzero : left = 0 ∨ right = 0
  · have hproduct : left * right = 0 := mul_eq_zero.2 hzero
    rw [checkedMultiply, if_pos hzero, hproduct, if_pos hmax]
  rw [checkedMultiply, if_neg hzero]
  have hguard := @gt_tdiv_iff type.maximum left right hmax (by omega)
  have hcheck : (if left > type.maximum.tdiv right then .error multiplicationOverflow
      else .ok (left * right) : Result Int) =
        if left * right ≤ type.maximum then .ok (left * right)
        else .error multiplicationOverflow := by
    rw [if_congr (hguard.trans not_le.symm) rfl rfl, ite_not]
  cases hsigned : type.signed with
  | false => simpa only [Bool.false_eq_true, if_false] using hcheck
  | true =>
    have hrange := IntegerType.minimum_of_signed hsigned
    have hnotNeg : ¬ right < 0 := by omega
    rw [if_pos rfl, if_neg (by omega), if_pos (by omega : left > 0)]
    simpa only [hnotNeg, show right > 0 by omega, true_and, false_and, or_false] using hcheck

theorem checkedMultiply_bind_eq_ok_iff {β : Type} {type : IntegerType} {left right : Int}
    (hleft : 0 ≤ left) (hright : 0 ≤ right) {next : Int → Result β} {value : β} :
    (checkedMultiply type left right >>= next) = .ok value ↔
      left * right ≤ type.maximum ∧ next (left * right) = .ok value := by
  rw [checkedMultiply_of_nonneg hleft hright]
  split <;> simp [bind, Except.bind, *]

/-- A byte count of a size that fits is its product, checked against `std::size_t`. -/
theorem checkedByteCount_eq {elementCount elementSize : Int} (hcount : 0 ≤ elementCount)
    (hfits : elementCount ≤ sizeType.maximum) :
    checkedByteCount elementCount elementSize =
      checkedMultiply sizeType elementCount elementSize := by
  have hcast : checkedCast sizeType elementCount = .ok elementCount :=
    checkedCast_ok ⟨sizeType.minimum_nonpos.trans hcount, hfits⟩
  rw [checkedByteCount, if_neg (by omega), hcast]
  rfl

end Core
end AscCpp
