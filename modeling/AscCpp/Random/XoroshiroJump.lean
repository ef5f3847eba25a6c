import AscCpp.Library.XorSpace
import AscCpp.Random.Engine

/-!
# XoroshiroJump — jumps as powers of the step

The step of a xoroshiro engine is linear over the field of two elements, and a jump applies a
polynomial in the step.  The characteristic polynomial annihilates the step, and squaring the
indeterminate modulo it often enough gives the polynomials of the jumps.

- `jump_state`, `longJump_state`: a jump is a power of two of steps.
-/

namespace AscCpp
namespace Random

open Library XorSpace

namespace XoroshiroWords

variable {width : Nat}

@[ext] theorem ext {left right : XoroshiroWords width} (hfirst : left.first = right.first)
    (hsecond : left.second = right.second) : left = right := by
  cases left
  cases right
  cases hfirst
  cases hsecond
  rfl

@[simp] theorem xor_first (left right : XoroshiroWords width) :
    (left ^^^ right).first = left.first ^^^ right.first :=
  rfl

@[simp] theorem xor_second (left right : XoroshiroWords width) :
    (left ^^^ right).second = left.second ^^^ right.second :=
  rfl

instance : XorSpace (XoroshiroWords width) where
  zero := ⟨0, 0⟩
  xor_assoc := fun _ _ _ => ext (BitVec.xor_assoc _ _ _) (BitVec.xor_assoc _ _ _)
  xor_comm := fun _ _ => ext (BitVec.xor_comm _ _) (BitVec.xor_comm _ _)
  zero_xor := fun _ => ext BitVec.zero_xor BitVec.zero_xor
  xor_self := fun _ => ext BitVec.xor_self BitVec.xor_self

/-! ## The step -/

theorem rotateLeft_xor (left right : BitVec width) (count : Nat) :
    (left ^^^ right).rotateLeft count = left.rotateLeft count ^^^ right.rotateLeft count := by
  apply BitVec.eq_of_getLsbD_eq
  intro i hi
  simp only [BitVec.getLsbD_rotateLeft, BitVec.getLsbD_xor]
  cases decide (i < count % width) <;> simp [hi]

theorem rotateLeft_eq_zero {word : BitVec width} {count : Nat} (h : word.rotateLeft count = 0) :
    word = 0 := by
  have hbit : ∀ i, (word.rotateLeft count).getLsbD i = false := by
    intro i
    rw [h]
    exact BitVec.getLsbD_zero
  apply BitVec.eq_of_getLsbD_eq
  intro i hi
  have hmod := Nat.mod_lt count (show 0 < width by omega)
  by_cases hwrap : width - count % width ≤ i
  · -- A bit that wraps around comes back at the low end.
    have hlow := hbit (i - (width - count % width))
    rw [BitVec.getLsbD_rotateLeft, decide_eq_true (by omega), cond_true,
      Nat.add_sub_cancel' hwrap] at hlow
    simpa using hlow
  · have hhigh := hbit (i + count % width)
    rw [BitVec.getLsbD_rotateLeft, decide_eq_false (by omega), cond_false,
      decide_eq_true (by omega), Bool.true_and, Nat.add_sub_cancel] at hhigh
    simpa using hhigh

theorem advance_linear (rotation shift lastRotation : Nat) :
    Linear (@advance width rotation shift lastRotation) := by
  intro left right
  have hsum : left.second ^^^ right.second ^^^ (left.first ^^^ right.first) =
      left.second ^^^ left.first ^^^ (right.second ^^^ right.first) :=
    xor_xor_xor_comm left.second right.second left.first right.first
  -- Rotation, shift and exclusive or are linear, each in its word.
  unfold advance
  ext1
  · simp only [xor_first, xor_second, hsum]
    generalize left.second ^^^ left.first = leftSum
    generalize right.second ^^^ right.first = rightSum
    rw [rotateLeft_xor, BitVec.shiftLeft_xor_distrib,
      xor_xor_xor_comm (left.first.rotateLeft rotation), xor_xor_xor_comm]
  · simp only [xor_first, xor_second, hsum]
    exact rotateLeft_xor _ _ _

/-- The step is invertible: the second word gives back the sum, and the first one the rest. -/
theorem advance_eq_zero {rotation shift lastRotation : Nat} {words : XoroshiroWords width}
    (h : advance rotation shift lastRotation words = zero) : words = zero := by
  have hsum : words.second ^^^ words.first = 0 :=
    rotateLeft_eq_zero (congrArg XoroshiroWords.second h)
  have hfirst : words.first = 0 := by
    have hrotated : words.first.rotateLeft rotation ^^^ (words.second ^^^ words.first) ^^^
        (words.second ^^^ words.first) <<< shift = 0 := congrArg XoroshiroWords.first h
    rw [hsum] at hrotated
    exact rotateLeft_eq_zero (by simpa using hrotated)
  have hsecond : words.second = 0 := by simpa [hfirst] using hsum
  exact ext hfirst hsecond

/-! ## The jump loops -/

theorem and_bit_ne_zero {word : BitVec width} {bit : Nat} (h : bit < width) :
    word &&& (1 : BitVec width) <<< bit ≠ 0 ↔ word.getLsbD bit = true := by
  have htwoPow : (1 : BitVec width) <<< bit = BitVec.twoPow width bit := rfl
  rw [htwoPow, BitVec.and_twoPow]
  split
  · rename_i hbit
    have hne : BitVec.twoPow width bit ≠ 0 := by
      intro hzero
      have hcoefficient := congrArg (·.getLsbD bit) hzero
      simp [h] at hcoefficient
    exact iff_of_true hne hbit
  · simp_all

/-- The loop over the bits of a word accumulates the states on the way. -/
theorem foldl_jumpTurn (step : XoroshiroWords width → XoroshiroWords width) (word : BitVec width)
    (state : XoroshiroWords width × XoroshiroWords width) :
    (List.range width).foldl (jumpTurn step word) state =
      (state.1 ^^^ act step word state.2, step^[width] state.2) := by
  -- For any list of bits: the sum so far, and the state moved on by one step for each.
  have hbits : ∀ bits : List Nat, (∀ bit ∈ bits, bit < width) →
      ∀ state : XoroshiroWords width × XoroshiroWords width,
      bits.foldl (jumpTurn step word) state =
        (state.1 ^^^ evaluate step (bits.map word.getLsbD) state.2, step^[bits.length] state.2) := by
    intro bits
    induction bits with
    | nil => exact fun _ state => Prod.ext (XorSpace.xor_zero state.1).symm rfl
    | cons bit bits ih =>
      intro hbits state
      rw [List.foldl_cons, ih fun bit hbit => hbits bit (List.mem_cons_of_mem _ hbit), List.map_cons,
        evaluate, ← XorSpace.xor_assoc, List.length_cons, Function.iterate_succ_apply]
      have hturn : jumpTurn step word state bit =
          (state.1 ^^^ (if word.getLsbD bit then state.2 else zero), step state.2) := by
        simp only [jumpTurn, and_bit_ne_zero (hbits bit List.mem_cons_self)]
        split
        · rfl
        · rw [XorSpace.xor_zero]
      rw [hturn]
  rw [hbits _ (fun bit => List.mem_range.1), List.length_range]
  rfl

/-- A jump by two words applies the polynomial that they spell. -/
theorem jumpBy_eq_act (step : XoroshiroWords width → XoroshiroWords width) (low high : BitVec width)
    (words : XoroshiroWords width) :
    jumpBy step [low, high] words = act step (high ++ low) words := by
  -- The low word comes first, so the two words are one polynomial.
  have hcoefficients : coefficients (high ++ low) = coefficients low ++ coefficients high := by
    rw [coefficients, List.range_add, List.map_append, List.map_map]
    congr 1
    · apply List.map_congr_left
      intro i hi
      simp [BitVec.getLsbD_append, List.mem_range.1 hi]
    · apply List.map_congr_left
      intro i _
      simp [BitVec.getLsbD_append]
  have hzero : (⟨0, 0⟩ : XoroshiroWords width) = zero := rfl
  have hlength : (coefficients low).length = width := by simp [coefficients]
  rw [jumpBy, List.foldl_cons, foldl_jumpTurn, List.foldl_cons, foldl_jumpTurn, List.foldl_nil,
    hzero, XorSpace.zero_xor, act, act, act, hcoefficients, evaluate_append, hlength]

theorem left_linear : Linear fun word : BitVec width => (⟨word, 0⟩ : XoroshiroWords width) :=
  fun _ _ => ext rfl BitVec.xor_self.symm

theorem right_linear : Linear fun word : BitVec width => (⟨0, word⟩ : XoroshiroWords width) :=
  fun _ _ => ext BitVec.xor_self.symm rfl

/-- Linear maps of states agree when they agree on the single bits. -/
theorem linear_ext_words {f g : XoroshiroWords width → XoroshiroWords width} (hf : Linear f)
    (hg : Linear g) (hfirst : ∀ i < width, f ⟨BitVec.twoPow width i, 0⟩ = g ⟨BitVec.twoPow width i, 0⟩)
    (hsecond : ∀ i < width, f ⟨0, BitVec.twoPow width i⟩ = g ⟨0, BitVec.twoPow width i⟩)
    (words : XoroshiroWords width) : f words = g words := by
  have hleft := linear_ext (hf.comp left_linear) (hg.comp left_linear) hfirst words.first
  have hright := linear_ext (hf.comp right_linear) (hg.comp right_linear) hsecond words.second
  have hsplit : words = ⟨words.first, 0⟩ ^^^ ⟨0, words.second⟩ :=
    ext BitVec.xor_zero.symm BitVec.zero_xor.symm
  calc f words = f ⟨words.first, 0⟩ ^^^ f ⟨0, words.second⟩ := by rw [hsplit, hf, ← hsplit]
    _ = g ⟨words.first, 0⟩ ^^^ g ⟨0, words.second⟩ := congrArg₂ (· ^^^ ·) hleft hright
    _ = g words := by rw [← hg, ← hsplit]

/-- A polynomial annihilates the step when it does so on the single bits of the first word: a step
moves them into every bit of the second one. -/
theorem annihilates_of_bits {rotation shift lastRotation : Nat} {degree : Nat}
    {modulus : BitVec degree}
    (hfirst : ∀ i < width,
      evaluate (@advance width rotation shift lastRotation) (coefficients modulus ++ [true])
        ⟨BitVec.twoPow width i, 0⟩ = zero)
    (hrotation : ∀ i < width, ∃ j < width,
      (BitVec.twoPow width j).rotateLeft lastRotation = BitVec.twoPow width i) :
    Annihilates (@advance width rotation shift lastRotation) modulus := by
  have hstep := @advance_linear width rotation shift lastRotation
  have hevaluate := evaluate_linear hstep (coefficients modulus ++ [true])
  have hlinear : Linear fun _ : XoroshiroWords width => (zero : XoroshiroWords width) :=
    fun _ _ => (XorSpace.zero_xor zero).symm
  -- A linear map is zero when it is zero on the unit vectors.
  have hleft := linear_ext (hevaluate.comp left_linear) (hlinear.comp left_linear) hfirst
  have hsecond : ∀ i < width,
      evaluate (@advance width rotation shift lastRotation) (coefficients modulus ++ [true])
        ⟨0, BitVec.twoPow width i⟩ = zero := by
    intro i hi
    rcases hrotation i hi with ⟨j, hj, hbit⟩
    -- A unit vector of the second word is a step away from one of the first.
    have hmoved : (⟨0, BitVec.twoPow width i⟩ : XoroshiroWords width) =
        ⟨(advance rotation shift lastRotation ⟨BitVec.twoPow width j, 0⟩).first, 0⟩ ^^^
          advance rotation shift lastRotation ⟨BitVec.twoPow width j, 0⟩ := by
      ext1
      · exact BitVec.xor_self.symm
      · simp [advance, hbit]
    rw [hmoved, hevaluate, hleft, XorSpace.zero_xor, ← evaluate_comm hstep (fun _ => rfl),
      hfirst j hj, hstep.map_zero]
  intro words
  have hzero : evaluate (@advance width rotation shift lastRotation)
      (coefficients modulus ++ [true]) words = zero :=
    linear_ext_words hevaluate hlinear hfirst hsecond words
  have hlength : (coefficients modulus).length = degree := by simp [coefficients]
  rw [evaluate_append, hlength] at hzero
  exact (xor_eq_zero_iff.1 hzero).trans (XorSpace.xor_zero _)

end XoroshiroWords

/-! ## xoroshiro128+ -/

namespace Xoroshiro128Plus

theorem advance_linear : Linear advance :=
  XoroshiroWords.advance_linear 24 16 37

/-- The characteristic polynomial of the step, without its leading coefficient. -/
def characteristic : BitVec 128 :=
  0x0008828E513B43D5095B8F76579AA001

theorem annihilates_first : ∀ i < 64,
    evaluate advance (coefficients characteristic ++ [true]) ⟨BitVec.twoPow 64 i, 0⟩ = zero := by
  decide +kernel

theorem annihilates_characteristic : Annihilates advance characteristic :=
  XoroshiroWords.annihilates_of_bits annihilates_first (by decide +kernel)

theorem squares_jump :
    (square characteristic)^[64] (timesX characteristic 1) =
      0x170865DF4B3201FC#64 ++ 0xDF900294D8F554A5#64 := by
  decide +kernel

theorem squares_longJump :
    (square characteristic)^[32] (0x170865DF4B3201FC#64 ++ 0xDF900294D8F554A5#64) =
      0xDDDF9B1090AA7AC1#64 ++ 0xD2A98B26625EEE7B#64 := by
  decide +kernel

theorem act_jump : act advance (0x170865DF4B3201FC#64 ++ 0xDF900294D8F554A5#64) =
    advance^[2 ^ 64] := by
  rw [← squares_jump]
  exact act_squares advance_linear annihilates_characteristic 64

theorem act_longJump : act advance (0xDDDF9B1090AA7AC1#64 ++ 0xD2A98B26625EEE7B#64) =
    advance^[2 ^ 96] := by
  rw [← squares_longJump, ← squares_jump, ← Function.iterate_add_apply]
  exact act_squares advance_linear annihilates_characteristic 96

/-- `Jump` is that many steps. -/
theorem jump_state (engine : Xoroshiro128Plus) :
    engine.jump.state = advance^[2 ^ 64] engine.state := by
  rw [jump, jumpPolynomial, XoroshiroWords.jumpBy_eq_act]
  exact congrFun act_jump engine.state

/-- `LongJump` is that many steps. -/
theorem longJump_state (engine : Xoroshiro128Plus) :
    engine.longJump.state = advance^[2 ^ 96] engine.state := by
  rw [longJump, longJumpPolynomial, XoroshiroWords.jumpBy_eq_act]
  exact congrFun act_longJump engine.state

/-- No number of steps leads to the state that is all zero. -/
theorem iterate_advance_ne_zero {words : XoroshiroWords 64} (h : words ≠ zero) (count : Nat) :
    advance^[count] words ≠ zero := by
  induction count generalizing words with
  | zero => exact h
  | succ count ih =>
    rw [Function.iterate_succ_apply]
    exact ih fun hzero => h (XoroshiroWords.advance_eq_zero hzero)

end Xoroshiro128Plus

end Random
end AscCpp
