import Mathlib.Algebra.Group.Nat.Defs
import Mathlib.Data.Nat.Log
import Mathlib.Logic.Function.Iterate

/-!
# XorSpace — linear recurrences over the field of two elements

A generator whose state is stepped by a linear map is advanced by a polynomial in that map: bit by
bit, the states on the way are summed up where the polynomial has a coefficient.  When a polynomial
annihilates the map, polynomials act modulo it, and repeated squaring tells which polynomial acts
as a huge number of steps.

- `evaluate_comm`: a polynomial acts alike on both sides of an intertwining map.
- `act_multiply`: a product modulo an annihilating polynomial acts as its factors, one by one.
- `act_squares`: `n` squarings of the indeterminate act as `2 ^ n` steps.
-/

namespace AscCpp
namespace Library

/-- A space over the field of two elements, whose addition is the exclusive or. -/
class XorSpace (σ : Type) extends XorOp σ where
  zero : σ
  xor_assoc : ∀ a b c : σ, a ^^^ b ^^^ c = a ^^^ (b ^^^ c)
  xor_comm : ∀ a b : σ, a ^^^ b = b ^^^ a
  zero_xor : ∀ a : σ, zero ^^^ a = a
  xor_self : ∀ a : σ, a ^^^ a = zero

namespace XorSpace

variable {σ τ : Type} [XorSpace σ] [XorSpace τ]

theorem xor_zero (a : σ) : a ^^^ zero = a := by
  rw [xor_comm, zero_xor]

theorem xor_left_comm (a b c : σ) : a ^^^ (b ^^^ c) = b ^^^ (a ^^^ c) := by
  rw [← xor_assoc, xor_comm a b, xor_assoc]

theorem xor_xor_self (a b : σ) : a ^^^ (a ^^^ b) = b := by
  rw [← xor_assoc, xor_self, zero_xor]

theorem xor_eq_zero_iff {a b : σ} : a ^^^ b = zero ↔ a = b := by
  constructor
  · intro h
    rw [← xor_xor_self a b, h, xor_zero]
  · rintro rfl
    exact xor_self a

instance (width : Nat) : XorSpace (BitVec width) where
  zero := 0
  xor_assoc := BitVec.xor_assoc
  xor_comm := BitVec.xor_comm
  zero_xor := fun _ => BitVec.zero_xor
  xor_self := fun _ => BitVec.xor_self

/-! ## Linear maps -/

/-- The map keeps sums. -/
def Linear (f : σ → τ) : Prop :=
  ∀ a b, f (a ^^^ b) = f a ^^^ f b

theorem Linear.map_zero {f : σ → τ} (h : Linear f) : f zero = zero := by
  have hsum := h zero zero
  rw [xor_self, xor_self] at hsum
  exact hsum

theorem Linear.comp {υ : Type} [XorSpace υ] {f : σ → τ} {g : υ → σ} (hf : Linear f)
    (hg : Linear g) : Linear fun a => f (g a) :=
  fun a b => (congrArg f (hg a b)).trans (hf _ _)

/-- Linear maps of words agree when they agree on the single bits. -/
theorem linear_ext {width : Nat} {f g : BitVec width → τ} (hf : Linear f) (hg : Linear g)
    (h : ∀ i < width, f (BitVec.twoPow width i) = g (BitVec.twoPow width i)) (word : BitVec width) :
    f word = g word := by
  induction hvalue : word.toNat using Nat.strong_induction_on generalizing word with
  | _ value ih =>
    subst hvalue
    by_cases hzero : word.toNat = 0
    · have hword : word = zero := BitVec.eq_of_toNat_eq hzero
      rw [hword, hf.map_zero, hg.map_zero]
    · -- Without its leading bit, the word is less.
      have hlog : word.toNat.log2 < width := (Nat.log2_lt hzero).2 word.isLt
      have hleading := Nat.testBit_log2 hzero
      have hless : (word ^^^ BitVec.twoPow width word.toNat.log2).toNat < 2 ^ word.toNat.log2 := by
        rw [BitVec.toNat_xor, BitVec.toNat_twoPow_of_lt hlog]
        apply Nat.lt_pow_two_of_testBit
        intro i hi
        rw [Nat.testBit_xor, Nat.testBit_two_pow]
        rcases hi.lt_or_eq with hgreater | rfl
        · have hbit : word.toNat.testBit i = false := Nat.testBit_lt_two_pow
            (Nat.lt_log2_self.trans_le (Nat.pow_le_pow_right (by decide) hgreater))
          simp [hbit, hgreater.ne]
        · simp [hleading]
      have hrest := ih _ (hless.trans_le (Nat.log2_self_le hzero)) _ rfl
      rw [hf, hg, h _ hlog] at hrest
      have hcancel := congrArg (· ^^^ g (BitVec.twoPow width word.toNat.log2)) hrest
      simpa [xor_assoc, xor_self, xor_zero] using hcancel

/-! ## Polynomials -/

/-- The sum of the states on the way whose bit is set. -/
def evaluate (step : σ → σ) : List Bool → σ → σ
  | [], _ => zero
  | bit :: bits, state => (if bit then state else zero) ^^^ evaluate step bits (step state)

theorem ite_xor_ite (p : Bool) (a b : σ) :
    ((if p then a else zero) ^^^ if p then b else zero) = if p then a ^^^ b else zero := by
  cases p
  · exact zero_xor zero
  · rfl

theorem xor_xor_xor_comm (a b c d : σ) : a ^^^ b ^^^ (c ^^^ d) = a ^^^ c ^^^ (b ^^^ d) := by
  rw [xor_assoc, xor_left_comm b, ← xor_assoc]

theorem evaluate_linear {step : σ → σ} (h : Linear step) (bits : List Bool) :
    Linear (evaluate step bits) := by
  induction bits with
  | nil => exact fun _ _ => (zero_xor zero).symm
  | cons bit bits ih =>
    intro a b
    rw [evaluate, evaluate, evaluate, h, ih, xor_xor_xor_comm, ite_xor_ite]

/-- A polynomial acts alike on both sides of an intertwining map. -/
theorem evaluate_comm {f : σ → σ} {g : τ → τ} {map : σ → τ} (hmap : Linear map)
    (h : ∀ a, map (f a) = g (map a)) (bits : List Bool) (a : σ) :
    map (evaluate f bits a) = evaluate g bits (map a) := by
  induction bits generalizing a with
  | nil => exact hmap.map_zero
  | cons bit bits ih =>
    rw [evaluate, evaluate, hmap, ih, h]
    cases bit
    · rw [if_neg (by decide), if_neg (by decide), hmap.map_zero]
    · rfl

theorem evaluate_append (step : σ → σ) (bits more : List Bool) (state : σ) :
    evaluate step (bits ++ more) state =
      evaluate step bits state ^^^ evaluate step more (step^[bits.length] state) := by
  induction bits generalizing state with
  | nil => exact (zero_xor _).symm
  | cons bit bits ih =>
    rw [List.cons_append, evaluate, evaluate, ih, ← xor_assoc, List.length_cons,
      Function.iterate_succ_apply]

theorem evaluate_map_xor (step : σ → σ) (indices : List Nat) (f g : Nat → Bool) (state : σ) :
    evaluate step (indices.map fun i => f i ^^ g i) state =
      evaluate step (indices.map f) state ^^^ evaluate step (indices.map g) state := by
  induction indices generalizing state with
  | nil => exact (zero_xor zero).symm
  | cons i indices ih =>
    rw [List.map_cons, List.map_cons, List.map_cons, evaluate, evaluate, evaluate, ih,
      xor_xor_xor_comm]
    congr 1
    cases f i <;> cases g i <;> simp [zero_xor, xor_zero, xor_self]

theorem evaluate_map_false (step : σ → σ) (indices : List Nat) (state : σ) :
    evaluate step (indices.map fun _ => false) state = zero := by
  induction indices generalizing state with
  | nil => rfl
  | cons i indices ih =>
    rw [List.map_cons, evaluate, ih]
    exact zero_xor zero

/-! ## Polynomials as words -/

variable {width : Nat}

/-- The coefficients of a word, the constant one first. -/
def coefficients (polynomial : BitVec width) : List Bool :=
  (List.range width).map polynomial.getLsbD

/-- The action of the polynomial of a word. -/
def act (step : σ → σ) (polynomial : BitVec width) (state : σ) : σ :=
  evaluate step (coefficients polynomial) state

theorem act_xor (step : σ → σ) (p q : BitVec width) (state : σ) :
    act step (p ^^^ q) state = act step p state ^^^ act step q state := by
  simp only [act, coefficients, ← evaluate_map_xor]
  congr 2
  funext i
  exact BitVec.getLsbD_xor

theorem act_zero (step : σ → σ) (state : σ) : act step (0 : BitVec width) state = zero := by
  rw [act, coefficients, ← evaluate_map_false step (List.range width) state]
  congr 2
  funext i
  exact BitVec.getLsbD_zero

theorem act_one (step : σ → σ) (state : σ) : act step (1 : BitVec (width + 1)) state = state := by
  have hbits : coefficients (1 : BitVec (width + 1)) =
      true :: (List.range width).map fun _ => false := by
    rw [coefficients, List.range_succ_eq_map, List.map_cons, List.map_map]
    congr 1
    · simp
    · apply List.map_congr_left
      intro i _
      simp
  rw [act, hbits, evaluate, evaluate_map_false]
  exact xor_zero state

/-- The product with the indeterminate, modulo a polynomial whose leading coefficient is left out. -/
def timesX (modulus polynomial : BitVec width) : BitVec width :=
  polynomial <<< 1 ^^^ if polynomial.msb then modulus else 0

/-- The product modulo a polynomial. -/
def multiply (modulus p q : BitVec width) : BitVec width :=
  act (timesX modulus) p q

/-- The square modulo a polynomial. -/
def square (modulus polynomial : BitVec width) : BitVec width :=
  multiply modulus polynomial polynomial

/-- The polynomial whose leading coefficient is left out annihilates the map. -/
def Annihilates (step : σ → σ) (modulus : BitVec width) : Prop :=
  ∀ state, act step modulus state = step^[width] state

section Action

variable {step : σ → σ} {modulus : BitVec (width + 1)}

theorem act_shiftLeft (p : BitVec (width + 1)) (state : σ) :
    act step (p <<< 1) state =
      evaluate step ((List.range width).map p.getLsbD) (step state) := by
  have hbits : coefficients (p <<< 1) = false :: (List.range width).map p.getLsbD := by
    rw [coefficients, List.range_succ_eq_map, List.map_cons, List.map_map]
    congr 1
    · simp
    · apply List.map_congr_left
      intro i hi
      have hless := List.mem_range.1 hi
      simp [hless, BitVec.getLsbD_eq_getElem (hless.trans (Nat.lt_succ_self width))]
  rw [act, hbits, evaluate]
  exact zero_xor _

theorem act_timesX (h : Annihilates step modulus) (p : BitVec (width + 1)) (state : σ) :
    act step (timesX modulus p) state = act step p (step state) := by
  have hlast : act step p (step state) =
      evaluate step ((List.range width).map p.getLsbD) (step state) ^^^
        if p.msb then step^[width] (step state) else zero := by
    rw [act, coefficients, List.range_succ, List.map_append, evaluate_append, List.length_map,
      List.length_range, BitVec.msb_eq_getLsbD_last]
    congr 1
    exact xor_zero _
  have hmodulus : act step (if p.msb then modulus else 0) state =
      if p.msb then step^[width] (step state) else zero := by
    split
    · exact h state
    · exact act_zero step state
  rw [hlast, timesX, act_xor, act_shiftLeft, hmodulus]

theorem act_multiply (hstep : Linear step) (h : Annihilates step modulus)
    (p q : BitVec (width + 1)) (state : σ) :
    act step (multiply modulus p q) state = act step p (act step q state) := by
  have hlinear : Linear fun q : BitVec (width + 1) => act step q state :=
    fun p q => act_xor step p q state
  apply evaluate_comm hlinear
  intro q
  rw [act_timesX h]
  exact (evaluate_comm hstep (fun _ => rfl) _ _).symm

/-- Repeated squaring of the indeterminate acts as a power of two of steps. -/
theorem act_squares (hstep : Linear step) (h : Annihilates step modulus) (count : Nat) :
    act step ((square modulus)^[count] (timesX modulus 1)) = step^[2 ^ count] := by
  induction count with
  | zero =>
    funext state
    exact (act_timesX h 1 state).trans (act_one step (step state))
  | succ count ih =>
    funext state
    rw [Function.iterate_succ_apply', square, act_multiply hstep h, ih,
      ← Function.iterate_add_apply, ← Nat.two_mul, ← Nat.pow_succ']

end Action

end XorSpace

end Library
end AscCpp
