import AscCpp.Library.XorSpace
import Mathlib.Data.Fintype.EquivFin

/-!
# GrayCode — sums of words that a Gray code selects

A family of words whose lowest bits stand in distinct places, from the highest place downwards, is a
basis over the field of two elements.  Consecutive indices select with their Gray codes, which
differ in one bit.

- `grayCode_succ`: the bit in which the Gray codes of consecutive indices differ.
- `coded_bijective`: the sums that the codes of all indices select are all words.
- `coded_block`: the leading bits of the sums of an aligned block of indices are all patterns.
-/

namespace AscCpp
namespace Library

open XorSpace

/-! ## The lowest bit -/

/-- A number is one more than what remains below and above its lowest bit. -/
theorem testBit_pred {number bit : Nat} (hbit : number.testBit bit = true)
    (hlower : ∀ lower < bit, number.testBit lower = false) (place : Nat) :
    (number - 1).testBit place =
      if place < bit then true else if place = bit then false else number.testBit place := by
  -- The digits up to the lowest bit, and what stands above them.
  have hlow : number % 2 ^ (bit + 1) = 2 ^ bit := by
    apply Nat.eq_of_testBit_eq
    intro place
    rw [Nat.testBit_mod_two_pow, Nat.testBit_two_pow]
    rcases lt_trichotomy place bit with hlt | rfl | hgt
    · simp [hlower place hlt, hlt.ne']
    · simp [hbit]
    · simp [hgt.ne, show ¬ place < bit + 1 by omega]
  have hpositive : 0 < 2 ^ bit := Nat.two_pow_pos bit
  have hnumber : number = 2 ^ (bit + 1) * (number / 2 ^ (bit + 1)) + 2 ^ bit := by
    rw [← hlow]
    exact (Nat.div_add_mod number _).symm
  have hpred : number - 1 = 2 ^ (bit + 1) * (number / 2 ^ (bit + 1)) + (2 ^ bit - 1) := by
    omega
  have hsmall : 2 ^ bit - 1 < 2 ^ (bit + 1) := by
    rw [Nat.pow_succ]
    omega
  rw [hpred, Nat.testBit_two_pow_mul_add _ hsmall, Nat.testBit_two_pow_sub_one]
  by_cases hplace : place < bit + 1
  · rw [if_pos hplace]
    by_cases hlt : place < bit
    · simp [hlt]
    · simp [show place = bit by omega]
  · rw [if_neg hplace, if_neg (by omega), if_neg (by omega), Nat.testBit_div_two_pow]
    congr 1
    omega

variable {width : Nat}

/-- The bits of the predecessor of a word. -/
theorem getLsbD_pred {word : BitVec width} (hword : word ≠ 0) (place : Nat) :
    (word - 1).getLsbD place =
      if place < word.ctz.toNat then true
      else if place = word.ctz.toNat then false else word.getLsbD place := by
  have hbit : word.toNat.testBit word.ctz.toNat = true := BitVec.getLsbD_true_ctz_of_ne_zero hword
  have hlower : ∀ lower < word.ctz.toNat, word.toNat.testBit lower = false :=
    fun lower hlt => BitVec.getLsbD_false_of_lt_ctz hlt
  have hpositive : 0 < word.toNat := by
    rw [Nat.pos_iff_ne_zero]
    intro hzero
    exact hword (BitVec.eq_of_toNat_eq hzero)
  have hone : (1 : BitVec width).toNat = 1 :=
    Nat.mod_eq_of_lt (lt_of_le_of_lt hpositive word.isLt)
  have hpred : (word - 1).toNat = word.toNat - 1 := by
    rw [BitVec.toNat_sub_of_le (BitVec.le_def.2 (by rw [hone]; exact hpositive)), hone]
  rw [BitVec.getLsbD, hpred]
  exact testBit_pred hbit hlower place

/-- The lowest bit of a word stands at a place. -/
structure LowestBit (word : BitVec width) (bit : Nat) : Prop where
  set : word.getLsbD bit = true
  zeros : ∀ place < bit, word.getLsbD place = false

/-- Words that are zero up to the lowest bit do not change it. -/
theorem LowestBit.xor {word other : BitVec width} {bit : Nat} (h : LowestBit word bit)
    (hother : ∀ place ≤ bit, other.getLsbD place = false) : LowestBit (word ^^^ other) bit where
  set := by rw [BitVec.getLsbD_xor, h.set, hother bit le_rfl, Bool.xor_false]
  zeros place hplace := by
    rw [BitVec.getLsbD_xor, h.zeros place hplace, hother place hplace.le, Bool.xor_false]

/-- An odd word that is shifted to the left. -/
theorem LowestBit.shiftLeft {word : BitVec width} (h : LowestBit word 0) {bit : Nat}
    (hbit : bit < width) : LowestBit (word <<< bit) bit where
  set := by simp [hbit, h.set]
  zeros place hplace := by simp [BitVec.getLsbD_shiftLeft, hplace]

theorem LowestBit.ushiftRight {word : BitVec width} {count bit : Nat}
    (h : LowestBit word (count + bit)) : LowestBit (word >>> count) bit where
  set := by rw [BitVec.getLsbD_ushiftRight, h.set]
  zeros place hplace := by
    rw [BitVec.getLsbD_ushiftRight, h.zeros (count + place) (by omega)]

/-- `word & (word - 1)` is the word without its lowest bit. -/
theorem and_pred {word : BitVec width} (hword : word ≠ 0) :
    word &&& (word - 1) = word ^^^ BitVec.twoPow width word.ctz.toNat := by
  apply BitVec.eq_of_getLsbD_eq
  intro place hplace
  rw [BitVec.getLsbD_and, BitVec.getLsbD_xor, getLsbD_pred hword, BitVec.getLsbD_twoPow]
  rcases lt_trichotomy place word.ctz.toNat with hlt | heq | hgt
  · simp [hlt, BitVec.getLsbD_false_of_lt_ctz hlt, hlt.ne']
  · have hbit := BitVec.getLsbD_true_ctz_of_ne_zero hword
    rw [← heq] at hbit
    simp [← heq, hbit, hplace]
  · simp [hgt.not_gt, hgt.ne, hgt.ne']

/-! ## Gray codes -/

def grayCode (index : BitVec width) : BitVec width :=
  index ^^^ index >>> 1

theorem grayCode_linear : Linear (@grayCode width) := by
  intro left right
  apply BitVec.eq_of_getLsbD_eq
  intro place _
  simp only [grayCode, BitVec.getLsbD_xor, BitVec.getLsbD_ushiftRight]
  cases left.getLsbD place <;> cases right.getLsbD place <;> simp

/-- The Gray code changes in the lowest bit of the next index. -/
theorem grayCode_succ {index : BitVec width} (h : index + 1 ≠ 0) :
    grayCode (index + 1) = grayCode index ^^^ BitVec.twoPow width (index + 1).ctz.toNat := by
  have hindex : ∀ place, index.getLsbD place =
      if place < (index + 1).ctz.toNat then true
      else if place = (index + 1).ctz.toNat then false else (index + 1).getLsbD place := by
    intro place
    rw [← getLsbD_pred h, BitVec.add_sub_cancel]
  have hbit := BitVec.getLsbD_true_ctz_of_ne_zero h
  have hzero : ∀ place < (index + 1).ctz.toNat, (index + 1).getLsbD place = false :=
    fun place hlt => BitVec.getLsbD_false_of_lt_ctz hlt
  generalize index + 1 = next at hindex hbit hzero ⊢
  apply BitVec.eq_of_getLsbD_eq
  intro place hplace
  rw [grayCode, grayCode, BitVec.getLsbD_xor, BitVec.getLsbD_xor, BitVec.getLsbD_xor,
    BitVec.getLsbD_ushiftRight, BitVec.getLsbD_ushiftRight, BitVec.getLsbD_twoPow, hindex place,
    hindex (1 + place)]
  -- Below the lowest bit of the next index its predecessor has ones, above they agree.
  rcases lt_trichotomy place next.ctz.toNat with hlt | rfl | hgt
  · rw [if_pos hlt, hzero place hlt, decide_eq_false hlt.ne', Bool.and_false, Bool.xor_false]
    by_cases hnext : 1 + place < next.ctz.toNat
    · rw [if_pos hnext, hzero _ hnext]
      rfl
    · have heq : 1 + place = next.ctz.toNat := by omega
      rw [if_neg hnext, if_pos heq, heq, hbit]
      rfl
  · rw [if_neg (lt_irrefl _), if_pos rfl, if_neg (by omega), if_neg (by omega), hbit,
      decide_eq_true hplace, decide_eq_true rfl]
    cases next.getLsbD (1 + next.ctz.toNat) <;> rfl
  · rw [if_neg hgt.not_gt, if_neg hgt.ne', if_neg (by omega), if_neg (by omega),
      decide_eq_false hgt.ne, Bool.and_false, Bool.xor_false]

/-- The highest bit of an index is the highest bit of its Gray code. -/
theorem grayCode_highest {index : BitVec width} {bit : Nat} (hbit : index.getLsbD bit = true)
    (hhigher : ∀ place, bit < place → index.getLsbD place = false) :
    (grayCode index).getLsbD bit = true ∧
      ∀ place, bit < place → (grayCode index).getLsbD place = false := by
  constructor
  · rw [grayCode, BitVec.getLsbD_xor, BitVec.getLsbD_ushiftRight, hbit,
      hhigher (1 + bit) (by omega)]
    rfl
  · intro place hplace
    rw [grayCode, BitVec.getLsbD_xor, BitVec.getLsbD_ushiftRight, hhigher place hplace,
      hhigher (1 + place) (by omega)]
    rfl

/-! ## Sums of selected words -/

/-- The sum of the words with a selected number, among the first ones. -/
def sumSelected (words : Nat → BitVec width) (selection : BitVec width) : Nat → BitVec width
  | 0 => 0
  | count + 1 =>
    sumSelected words selection count ^^^ if selection.getLsbD count then words count else 0

variable {words : Nat → BitVec width}

theorem sumSelected_linear (count : Nat) :
    Linear fun selection => sumSelected words selection count := by
  intro left right
  induction count with
  | zero => exact BitVec.xor_self.symm
  | succ count ih =>
    simp only [sumSelected] at ih ⊢
    rw [ih, BitVec.getLsbD_xor]
    cases left.getLsbD count <;> cases right.getLsbD count <;>
      simp [BitVec.xor_assoc, BitVec.xor_comm, xor_left_comm, xor_xor_self]

theorem sumSelected_twoPow {bit : Nat} (hbit : bit < width) {count : Nat} :
    sumSelected words (BitVec.twoPow width bit) count = if bit < count then words bit else 0 := by
  induction count with
  | zero => rfl
  | succ count ih =>
    rw [sumSelected, ih, BitVec.getLsbD_twoPow]
    rcases lt_trichotomy bit count with hlt | rfl | hgt
    · simp [hlt, hlt.ne, hlt.trans (Nat.lt_succ_self count)]
    · simp [hbit]
    · simp [hgt.not_gt, hgt.ne', show ¬ bit < count + 1 by omega]

/-- The lowest bits of the words stand in distinct places, from the highest place downwards. -/
def Echelon (words : Nat → BitVec width) : Prop :=
  ∀ number < width, LowestBit (words number) (width - 1 - number)

/-- Words before the one with a place have zeros there. -/
theorem Echelon.sumSelected_eq_zero (h : Echelon words) (selection : BitVec width) {count place : Nat}
    (hcount : count ≤ width) (hplace : place + count < width) :
    (sumSelected words selection count).getLsbD place = false := by
  induction count with
  | zero => exact BitVec.getLsbD_zero
  | succ count ih =>
    rw [sumSelected, BitVec.getLsbD_xor, ih (by omega) (by omega)]
    split
    · rw [(h count hcount).zeros place (by omega)]
      rfl
    · simp

/-- The highest number that is selected can be read off the sum. -/
theorem Echelon.sumSelected_highest (h : Echelon words) {selection : BitVec width} {bit : Nat}
    (hbit : selection.getLsbD bit = true)
    (hhigher : ∀ place, bit < place → selection.getLsbD place = false) {count : Nat}
    (hcount : bit < count) (hwidth : count ≤ width) :
    (sumSelected words selection count).getLsbD (width - 1 - bit) = true := by
  induction count, hcount using Nat.le_induction with
  | base =>
    rw [sumSelected, hbit, if_pos rfl, BitVec.getLsbD_xor,
      h.sumSelected_eq_zero selection (by omega) (by omega), (h bit hwidth).set]
    rfl
  | succ count hle ih =>
    rw [sumSelected, hhigher count hle, BitVec.getLsbD_xor, ih (by omega)]
    simp

/-! ## Sums over indices -/

/-- The sum that the Gray code of an index selects. -/
def coded (words : Nat → BitVec width) (index : BitVec width) : BitVec width :=
  sumSelected words (grayCode index) width

theorem coded_linear : Linear (coded words) :=
  (sumSelected_linear width).comp grayCode_linear

/-- From one index to the next one word is added. -/
theorem coded_succ {index : BitVec width} (h : index + 1 ≠ 0) :
    coded words (index + 1) = coded words index ^^^ words (index + 1).ctz.toNat := by
  have hlow : (index + 1).ctz.toNat < width := by
    by_contra hge
    have hbit := BitVec.getLsbD_true_ctz_of_ne_zero h
    rw [BitVec.getLsbD_of_ge _ _ (not_lt.1 hge)] at hbit
    cases hbit
  have hsum := @sumSelected_linear _ words width (grayCode index)
    (BitVec.twoPow width (index + 1).ctz.toNat)
  simp only [sumSelected_twoPow hlow, if_pos hlow] at hsum
  rw [coded, grayCode_succ h, hsum, coded]

/-- The leading bits of the sum of a small index are zero for the index zero only. -/
theorem Echelon.coded_ne_zero (h : Echelon words) {count : Nat} (hcount : count ≤ width)
    {index : BitVec width} (hindex : index.toNat < 2 ^ count) (hne : index ≠ 0) :
    coded words index >>> (width - count) ≠ 0 := by
  have hpositive : index.toNat ≠ 0 := fun hzero => hne (BitVec.eq_of_toNat_eq hzero)
  -- The highest bit of the index.
  have hbit : index.getLsbD (Nat.log2 index.toNat) = true := Nat.testBit_log2 hpositive
  have hhigher : ∀ place, Nat.log2 index.toNat < place → index.getLsbD place = false := by
    intro place hplace
    exact Nat.testBit_lt_two_pow ((Nat.log2_lt hpositive).1 hplace)
  have hlog : Nat.log2 index.toNat < count := (Nat.log2_lt hpositive).2 hindex
  rcases grayCode_highest hbit hhigher with ⟨hgray, hgrayHigher⟩
  have hsum := h.sumSelected_highest hgray hgrayHigher (hlog.trans_le hcount) le_rfl
  intro hzero
  have hshifted : (coded words index >>> (width - count)).getLsbD
      (count - 1 - Nat.log2 index.toNat) = true := by
    rw [BitVec.getLsbD_ushiftRight, ← hsum, coded]
    congr 1
    omega
  rw [hzero] at hshifted
  simp at hshifted

/-- The sums of all indices are all words. -/
theorem Echelon.coded_bijective (h : Echelon words) : Function.Bijective (coded words) := by
  have hfinite : Finite (BitVec width) := .of_injective BitVec.toFin fun _ _ => BitVec.eq_of_toFin_eq
  rw [← Finite.injective_iff_bijective]
  intro left right heq
  by_contra hne
  have hxor : left ^^^ right ≠ 0 := fun hzero => hne (XorSpace.xor_eq_zero_iff.1 hzero)
  apply h.coded_ne_zero le_rfl (left ^^^ right).isLt hxor
  rw [coded_linear, heq, Nat.sub_self, BitVec.xor_self]
  rfl

/-- The index with a number in a block of indices. -/
def blockIndex (width count block offset : Nat) : BitVec width :=
  BitVec.ofNat width (block * 2 ^ count + offset)

theorem blockIndex_xor {count block offset : Nat} (hoffset : offset < 2 ^ count) :
    blockIndex width count block offset =
      BitVec.ofNat width (block * 2 ^ count) ^^^ BitVec.ofNat width offset := by
  rw [blockIndex, ← BitVec.ofNat_xor, Nat.mul_comm]
  congr 1
  apply Nat.eq_of_testBit_eq
  intro place
  rw [Nat.testBit_two_pow_mul_add _ hoffset, Nat.testBit_xor, Nat.testBit_two_pow_mul]
  by_cases hplace : place < count
  · rw [if_pos hplace, decide_eq_false (not_le.2 hplace)]
    simp
  · have hlarge : offset < 2 ^ place :=
      hoffset.trans_le (Nat.pow_le_pow_right (by decide) (not_lt.1 hplace))
    rw [if_neg hplace, decide_eq_true (not_lt.1 hplace), Nat.testBit_lt_two_pow hlarge]
    simp

/-- Over an aligned block of indices the leading bits of the sums are every pattern once. -/
theorem Echelon.coded_block (h : Echelon words) {count pattern : Nat} (hcount : count ≤ width)
    (block : Nat) (hpattern : pattern < 2 ^ count) :
    ∃! offset, offset < 2 ^ count ∧
      (coded words (blockIndex width count block offset) >>> (width - count)).toNat = pattern := by
  let leading (offset : Fin (2 ^ count)) : Fin (2 ^ count) :=
    ⟨(coded words (blockIndex width count block offset) >>> (width - count)).toNat, by
      rw [BitVec.toNat_ushiftRight, Nat.shiftRight_eq_div_pow]
      apply Nat.div_lt_of_lt_mul
      rw [← Nat.pow_add, Nat.sub_add_cancel hcount]
      exact BitVec.isLt _⟩
  have hinjective : Function.Injective leading := by
    intro left right heq
    have hvalue : (leading left).val = (leading right).val := congrArg Fin.val heq
    have hshifted : coded words (blockIndex width count block left) >>> (width - count) =
        coded words (blockIndex width count block right) >>> (width - count) :=
      BitVec.eq_of_toNat_eq hvalue
    rw [blockIndex_xor left.isLt, blockIndex_xor right.isLt, coded_linear, coded_linear,
      BitVec.ushiftRight_xor_distrib, BitVec.ushiftRight_xor_distrib] at hshifted
    -- The block drops out, and small indices are told apart by the leading bits.
    have hsmall := (BitVec.xor_right_inj _).1 hshifted
    have hle : 2 ^ count ≤ 2 ^ width := Nat.pow_le_pow_right (by decide) hcount
    have hleft : (BitVec.ofNat width left).toNat = left :=
      Nat.mod_eq_of_lt (left.isLt.trans_le hle)
    have hright : (BitVec.ofNat width right).toNat = right :=
      Nat.mod_eq_of_lt (right.isLt.trans_le hle)
    by_contra hne
    have hdifferent : BitVec.ofNat width left ^^^ BitVec.ofNat width right ≠ 0 := by
      intro hzero
      have hsame := congrArg BitVec.toNat (XorSpace.xor_eq_zero_iff.1 hzero)
      rw [hleft, hright] at hsame
      exact hne (Fin.ext hsame)
    refine h.coded_ne_zero hcount ?_ hdifferent ?_
    · rw [BitVec.toNat_xor, hleft, hright]
      exact Nat.xor_lt_two_pow left.isLt right.isLt
    · rw [coded_linear, BitVec.ushiftRight_xor_distrib, hsmall]
      exact BitVec.xor_self
  rcases (Finite.injective_iff_bijective.1 hinjective).2 ⟨pattern, hpattern⟩ with
    ⟨offset, hoffset⟩
  refine ⟨offset, ⟨offset.isLt, congrArg Fin.val hoffset⟩, ?_⟩
  rintro other ⟨hother, hvalue⟩
  have hsame : leading ⟨other, hother⟩ = leading offset :=
    Fin.ext (hvalue.trans (congrArg Fin.val hoffset).symm)
  exact congrArg Fin.val (hinjective hsame)

end Library
end AscCpp
