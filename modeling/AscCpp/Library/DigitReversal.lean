import Mathlib.Data.Finset.Card
import Mathlib.Data.Finset.Range
import Mathlib.Data.Set.Function
import Mathlib.Algebra.Order.Field.Rat
import Mathlib.Tactic.Ring
import Mathlib.Tactic.Linarith
import Mathlib.Tactic.FieldSimp
import Mathlib.Tactic.Positivity

/-!
# DigitReversal — reversed digits under a substitution

The digits of an index to a base, the last one first, are substituted and written in the reverse
order.  The substitution permutes the digits.

- `reverseDigits_bijOn`: with a number of digits, this permutes the numbers with as many digits.
- `reverseDigits_add`: a number with more digits is reversed part by part.
- `existsUnique_reverse`: the indices of an aligned block are spread evenly.
-/

namespace AscCpp
namespace Library

/-- The reversal of a number of digits, each of them substituted. -/
def reverseDigits (base : Nat) (substitute : Nat → Nat) : Nat → Nat → Nat
  | 0, _ => 0
  | count + 1, index =>
    substitute (index % base) * base ^ count + reverseDigits base substitute count (index / base)

example : reverseDigits 10 id 4 123 = 3210 := by
  decide

variable {base : Nat} {substitute : Nat → Nat}

/-- The substitution permutes the digits. -/
def Permutes (base : Nat) (substitute : Nat → Nat) : Prop :=
  Set.BijOn substitute (Set.Iio base) (Set.Iio base)

theorem Permutes.lt (h : Permutes base substitute) {digit : Nat} (hdigit : digit < base) :
    substitute digit < base :=
  h.mapsTo hdigit

/-- An injective map of a finite set into itself is onto. -/
theorem permutes_of_injOn (hmaps : Set.MapsTo substitute (Set.Iio base) (Set.Iio base))
    (hinjective : Set.InjOn substitute (Set.Iio base)) : Permutes base substitute := by
  refine ⟨hmaps, hinjective, ?_⟩
  rw [← Finset.coe_range] at hmaps hinjective ⊢
  exact Finset.surjOn_of_injOn_of_card_le _ hmaps hinjective le_rfl

theorem reverseDigits_lt (hbase : 0 < base) (h : Permutes base substitute) (count index : Nat) :
    reverseDigits base substitute count index < base ^ count := by
  induction count generalizing index with
  | zero => simp [reverseDigits]
  | succ count ih =>
    have hdigit := h.lt (Nat.mod_lt index hbase)
    calc reverseDigits base substitute (count + 1) index
        < substitute (index % base) * base ^ count + base ^ count :=
          Nat.add_lt_add_left (ih _) _
      _ = (substitute (index % base) + 1) * base ^ count := by ring
      _ ≤ base * base ^ count := Nat.mul_le_mul_right _ hdigit
      _ = base ^ (count + 1) := by ring

/-- A number whose leading digits are zero. -/
theorem reverseDigits_zero (hzero : substitute 0 = 0) (count : Nat) :
    reverseDigits base substitute count 0 = 0 := by
  induction count with
  | zero => rfl
  | succ count ih => rw [reverseDigits, Nat.zero_mod, hzero, Nat.zero_div, ih, zero_mul]

/-- The last digits lead in the reversal. -/
theorem reverseDigits_add (count more index : Nat) :
    reverseDigits base substitute (count + more) index =
      reverseDigits base substitute count index * base ^ more +
        reverseDigits base substitute more (index / base ^ count) := by
  induction count generalizing index with
  | zero => simp [reverseDigits]
  | succ count ih =>
    rw [Nat.succ_add, reverseDigits, reverseDigits, ih, Nat.div_div_eq_div_mul, ← pow_succ']
    ring

/-- Only the last digits are reversed. -/
theorem reverseDigits_congr {count left right : Nat}
    (h : left % base ^ count = right % base ^ count) :
    reverseDigits base substitute count left = reverseDigits base substitute count right := by
  induction count generalizing left right with
  | zero => rfl
  | succ count ih =>
    have hlast : left % base = right % base := by
      have hmod := congrArg (· % base) h
      simpa only [pow_succ', Nat.mod_mul_right_mod] using hmod
    have hrest : left / base % base ^ count = right / base % base ^ count := by
      rw [← Nat.mod_mul_right_div_self, ← Nat.mod_mul_right_div_self, ← pow_succ', h]
    rw [reverseDigits, reverseDigits, hlast, ih hrest]

theorem reverseDigits_injOn (hbase : 0 < base) (h : Permutes base substitute) (count : Nat) :
    Set.InjOn (reverseDigits base substitute count) (Set.Iio (base ^ count)) := by
  induction count with
  | zero =>
    intro left hleft right hright _
    rw [Set.mem_Iio, pow_zero] at hleft hright
    omega
  | succ count ih =>
    intro left hleft right hright heq
    rw [Set.mem_Iio, pow_succ'] at hleft hright
    rw [reverseDigits, reverseDigits] at heq
    have hpower : 0 < base ^ count := Nat.pow_pos hbase
    -- The reversals are divided by the weight of the first digit.
    have hquotient := congrArg (· / base ^ count) heq
    have hremainder := congrArg (· % base ^ count) heq
    simp only [Nat.mul_comm _ (base ^ count), Nat.mul_add_div hpower, Nat.mul_add_mod,
      Nat.div_eq_of_lt (reverseDigits_lt hbase h count _),
      Nat.mod_eq_of_lt (reverseDigits_lt hbase h count _), add_zero] at hquotient hremainder
    have hdigit := h.injOn (Nat.mod_lt left hbase) (Nat.mod_lt right hbase) hquotient
    have hrest := ih (Nat.div_lt_of_lt_mul hleft) (Nat.div_lt_of_lt_mul hright) hremainder
    rw [← Nat.div_add_mod left base, hrest, hdigit, Nat.div_add_mod]

/-- With a number of digits, reversal is a permutation. -/
theorem reverseDigits_bijOn (hbase : 0 < base) (h : Permutes base substitute) (count : Nat) :
    Set.BijOn (reverseDigits base substitute count) (Set.Iio (base ^ count))
      (Set.Iio (base ^ count)) :=
  permutes_of_injOn (fun index _ => reverseDigits_lt hbase h count index)
    (reverseDigits_injOn hbase h count)

/-! ## Fractions -/

/-- The reversed digits behind the point. -/
def reversedFraction (base : Nat) (substitute : Nat → Nat) (count index : Nat) : Rat :=
  reverseDigits base substitute count index / base ^ count

/-- Only the substituted digits matter. -/
theorem reversedFraction_congr {substitute' : Nat → Nat} (hbase : 0 < base)
    (h : ∀ digit < base, substitute digit = substitute' digit) (count index : Nat) :
    reversedFraction base substitute count index = reversedFraction base substitute' count index := by
  have hdigits : reverseDigits base substitute count index =
      reverseDigits base substitute' count index := by
    induction count generalizing index with
    | zero => rfl
    | succ count ih => rw [reverseDigits, reverseDigits, h _ (Nat.mod_lt index hbase), ih]
  rw [reversedFraction, reversedFraction, hdigits]

theorem reversedFraction_nonneg (count index : Nat) :
    0 ≤ reversedFraction base substitute count index := by
  unfold reversedFraction
  positivity

theorem reversedFraction_lt_one (hbase : 0 < base) (h : Permutes base substitute)
    (count index : Nat) : reversedFraction base substitute count index < 1 := by
  have hpower : (0 : Rat) < base ^ count := by positivity
  rw [reversedFraction, div_lt_one hpower]
  exact_mod_cast reverseDigits_lt hbase h count index

/-- The first digit behind the point, and the others. -/
theorem reversedFraction_succ (hbase : 0 < base) (count index : Nat) :
    reversedFraction base substitute (count + 1) index =
      (substitute (index % base) + reversedFraction base substitute count (index / base)) / base := by
  have hne : (base : Rat) ≠ 0 := by positivity
  rw [reversedFraction, reversedFraction, reverseDigits]
  push_cast
  field_simp
  ring

/-- Leading zeros of the index do not matter. -/
theorem reversedFraction_add (hbase : 0 < base) (hzero : substitute 0 = 0) {count index : Nat}
    (hindex : index < base ^ count) (more : Nat) :
    reversedFraction base substitute (count + more) index =
      reversedFraction base substitute count index := by
  have hne : (base : Rat) ≠ 0 := by positivity
  rw [reversedFraction, reversedFraction, reverseDigits_add, Nat.div_eq_of_lt hindex,
    reverseDigits_zero hzero]
  push_cast
  field_simp
  ring

theorem reversedFraction_injOn (hbase : 0 < base) (h : Permutes base substitute) (count : Nat) :
    Set.InjOn (reversedFraction base substitute count) (Set.Iio (base ^ count)) := by
  intro left hleft right hright heq
  have hne : (base : Rat) ^ count ≠ 0 := by positivity
  apply reverseDigits_injOn hbase h count hleft hright
  exact_mod_cast (div_left_inj' hne).1 heq

/-- The leading digits tell the cell of a fraction. -/
theorem reversedFraction_mem_cell (hbase : 0 < base) (h : Permutes base substitute)
    (count more index cell : Nat) :
    ((cell : Rat) / base ^ count ≤ reversedFraction base substitute (count + more) index ∧
        reversedFraction base substitute (count + more) index < (cell + 1 : Rat) / base ^ count) ↔
      reverseDigits base substitute count index = cell := by
  have hcount : (0 : Rat) < base ^ count := by positivity
  have hmore : (0 : Rat) < base ^ more := by positivity
  have hrest := reverseDigits_lt hbase h more (index / base ^ count)
  have hdigits := @reverseDigits_add base substitute count more index
  have hfraction : reversedFraction base substitute (count + more) index =
      (reverseDigits base substitute (count + more) index / base ^ more) / base ^ count := by
    rw [reversedFraction, pow_add, div_div, mul_comm]
  -- Cleared of the denominators, both bounds are about the quotient by the later digits.
  rw [hfraction, div_le_div_iff_of_pos_right hcount, div_lt_div_iff_of_pos_right hcount,
    le_div_iff₀ hmore, div_lt_iff₀ hmore]
  constructor
  · rintro ⟨hlower, hupper⟩
    have hlower' : cell * base ^ more ≤ reverseDigits base substitute (count + more) index := by
      exact_mod_cast hlower
    have hupper' : reverseDigits base substitute (count + more) index <
        (cell + 1) * base ^ more := by
      exact_mod_cast hupper
    have hpower : 0 < base ^ more := Nat.pow_pos hbase
    rw [hdigits] at hlower' hupper'
    have hquotient := Nat.div_eq_of_lt_le hlower' hupper'
    rwa [Nat.mul_comm, Nat.mul_add_div hpower, Nat.div_eq_of_lt hrest, add_zero] at hquotient
  · rintro rfl
    rw [hdigits]
    constructor
    · exact_mod_cast Nat.le_add_right _ _
    · have hless : reverseDigits base substitute count index * base ^ more +
          reverseDigits base substitute more (index / base ^ count) <
            (reverseDigits base substitute count index + 1) * base ^ more := by
        rw [Nat.add_mul, Nat.one_mul]
        exact Nat.add_lt_add_left hrest _
      exact_mod_cast hless

/-- Each cell receives one index of an aligned block. -/
theorem existsUnique_reverse (hbase : 0 < base) (h : Permutes base substitute)
    {count cell : Nat} (block more : Nat) (hcell : cell < base ^ count) :
    ∃! index, (block * base ^ count ≤ index ∧ index < (block + 1) * base ^ count) ∧
      (cell : Rat) / base ^ count ≤ reversedFraction base substitute (count + more) index ∧
        reversedFraction base substitute (count + more) index < (cell + 1 : Rat) / base ^ count := by
  have hpower : 0 < base ^ count := Nat.pow_pos hbase
  have hblock : ∀ index, block * base ^ count ≤ index ∧ index < (block + 1) * base ^ count ↔
      index / base ^ count = block := by
    intro index
    rw [Nat.div_eq_iff hpower]
    constructor <;> intro hindex <;> rw [Nat.add_mul, Nat.one_mul] at * <;> omega
  simp only [reversedFraction_mem_cell hbase h, hblock]
  rcases (reverseDigits_bijOn hbase h count).surjOn hcell with ⟨offset, hoffset, rfl⟩
  have hless : offset < base ^ count := hoffset
  refine ⟨block * base ^ count + offset, ⟨?_, ?_⟩, fun index hindex => ?_⟩
  · rw [Nat.mul_comm, Nat.mul_add_div hpower, Nat.div_eq_of_lt hless, add_zero]
  · apply reverseDigits_congr
    rw [Nat.mul_comm, Nat.mul_add_mod]
  · have hmod : index % base ^ count = offset := by
      apply reverseDigits_injOn hbase h count (Nat.mod_lt _ hpower) hoffset
      rw [← hindex.2]
      exact reverseDigits_congr (Nat.mod_mod _ _)
    rw [← hindex.1, ← hmod, Nat.div_add_mod']

end Library
end AscCpp
