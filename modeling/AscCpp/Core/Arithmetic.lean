import AscCpp.Core.Integer

/-!
# Arithmetic — conversions and operators of the language

An operator computes in the promoted type of its operands: a type narrower than `int` is promoted
to it, so that arithmetic on narrow unsigned operands is signed.  An unsigned result wraps around; a
signed result that is not representable is undefined behaviour, and has no value here.

- `arithmetic_map_convert`: past a conversion to a type of the same width, an operator is the
  conversion of its exact result, provided that a promoted operation stays within `int`.
-/

namespace AscCpp
namespace Core
namespace IntegerType

/-- `static_cast`, which wraps around. -/
def convert (type : IntegerType) (value : Int) : Int :=
  if type.signed then value.bmod (2 ^ type.width) else value % 2 ^ type.width

/-- `std::make_unsigned_t`. -/
def makeUnsigned (type : IntegerType) : IntegerType :=
  ⟨false, type.width⟩

/-- The type in which the operators compute. -/
def promoted (type : IntegerType) : IntegerType :=
  if type.width < 32 then ⟨true, 32⟩ else type

/-- What an operator yields whose exact result is given. -/
def arithmetic (type : IntegerType) (exact : Int) : Option Int :=
  if type.promoted.signed then
    if type.promoted.Representable exact then some exact else none
  else
    some (exact % 2 ^ type.promoted.width)

variable {type target : IntegerType} {value exact : Int}

/-! ## Conversions -/

@[simp] theorem makeUnsigned_width (type : IntegerType) : type.makeUnsigned.width = type.width :=
  rfl

@[simp] theorem makeUnsigned_signed (type : IntegerType) : type.makeUnsigned.signed = false :=
  rfl

theorem convert_of_unsigned (h : type.signed = false) (value : Int) :
    type.convert value = value % 2 ^ type.width := by
  simp [convert, h]

@[simp] theorem makeUnsigned_convert (type : IntegerType) (value : Int) :
    type.makeUnsigned.convert value = value % 2 ^ type.width :=
  convert_of_unsigned rfl value

/-- A conversion sees its operand modulo the size of the type only. -/
theorem convert_congr {left right : Int} (h : left % 2 ^ type.width = right % 2 ^ type.width) :
    type.convert left = type.convert right := by
  unfold convert
  split
  · rw [← Int.emod_bmod, ← Int.emod_bmod (x := right)]
    push_cast
    rw [h]
  · exact h

theorem convert_of_representable (hwidth : 0 < type.width) (h : type.Representable value) :
    type.convert value = value := by
  have hdouble : (2 : Int) ^ type.width = 2 * 2 ^ (type.width - 1) := by
    rw [← pow_succ', Nat.sub_add_cancel hwidth]
  rcases h with ⟨hlower, hupper⟩
  unfold minimum at hlower
  unfold maximum at hupper
  unfold convert
  split
  · rename_i hsigned
    rw [if_pos hsigned] at hlower hupper
    apply Int.bmod_eq_of_le <;> push_cast <;> omega
  · rename_i hunsigned
    rw [if_neg hunsigned] at hlower hupper
    exact Int.emod_eq_of_lt hlower (by omega)

/-! ## Operators -/

/-- A result that `int` holds, where it matters. -/
def Promotes (type : IntegerType) (exact : Int) : Prop :=
  type.width < 32 → -2 ^ 31 ≤ exact ∧ exact < 2 ^ 31

/-- An operator on unsigned operands is exact on narrow ones, and wraps around on wide ones. -/
theorem arithmetic_spec (hunsigned : type.signed = false) (h : type.Promotes exact) :
    ∃ result, type.arithmetic exact = some result ∧
      result % 2 ^ type.width = exact % 2 ^ type.width ∧ (type.width < 32 → result = exact) := by
  unfold arithmetic promoted
  by_cases hnarrow : type.width < 32
  · rcases h hnarrow with ⟨hlower, hupper⟩
    have hfits : IntegerType.Representable ⟨true, 32⟩ exact := by
      constructor
      · simpa [minimum] using hlower
      · simp only [maximum, if_true]
        omega
    exact ⟨exact, by simp [hnarrow, hfits], rfl, fun _ => rfl⟩
  · exact ⟨exact % 2 ^ type.width, by simp [hnarrow, hunsigned], Int.emod_emod_of_dvd _ dvd_rfl,
      fun h => absurd h hnarrow⟩

/-- Past a conversion to a type of the same width, an operator is the conversion of its exact
result. -/
theorem arithmetic_map_convert (hunsigned : type.signed = false) (hwidth : target.width = type.width)
    (h : type.Promotes exact) :
    (type.arithmetic exact).map target.convert = some (target.convert exact) := by
  rcases arithmetic_spec hunsigned h with ⟨result, hresult, hmod, -⟩
  rw [hresult, Option.map_some, convert_congr (hwidth ▸ hmod)]

/-- A signed operator is exact when the type itself holds the result. -/
theorem arithmetic_of_representable (hsigned : type.signed = true) (h : type.Representable exact) :
    type.arithmetic exact = some exact := by
  unfold arithmetic promoted
  by_cases hnarrow : type.width < 32
  · have hpow : (2 : Int) ^ (type.width - 1) ≤ 2 ^ (32 - 1) :=
      pow_le_pow_right₀ (by decide) (by omega)
    simp only [Representable, minimum, maximum, hsigned, if_true] at h
    have hfits : IntegerType.Representable ⟨true, 32⟩ exact := by
      simp only [Representable, minimum, maximum, if_true]
      omega
    simp [hnarrow, hfits]
  · simp [hnarrow, hsigned, h]

end IntegerType
end Core
end AscCpp
