import AscCpp.Library.WhileLoop
import Mathlib.Data.Matrix.Diagonal
import Mathlib.Data.Rat.Floor
import Mathlib.LinearAlgebra.Matrix.Notation
import Mathlib.Tactic.FinCases
import Mathlib.Tactic.Ring

/-!
# Rotmg — modified Givens rotations

`RotmgImpl` and `RotmImpl` over exact rationals, after the checks of their operands.  Every rational
is finite, so the tests of finiteness are left out.  The two loops that rescale have no bound, and
are run with fuel.

- `rotmEntry_eq_mulVec`: `RotmImpl` applies the matrix of the parameters.
-/

namespace AscCpp
namespace Dense

open Library

/-! ## Parameters -/

/-- The five parameters, in their order. -/
structure RotmParameters where
  flag : Rat
  h11 : Rat
  h21 : Rat
  h12 : Rat
  h22 : Rat
  deriving DecidableEq, Repr

/-- One round of `RotmImpl`. -/
def rotmEntry (parameters : RotmParameters) (x y : Rat) : Rat × Rat :=
  if parameters.flag = -2 then
    (x, y)
  else if parameters.flag < 0 then
    (x * parameters.h11 + y * parameters.h12, x * parameters.h21 + y * parameters.h22)
  else if parameters.flag = 0 then
    (x + y * parameters.h12, x * parameters.h21 + y)
  else
    (x * parameters.h11 + y, -x + y * parameters.h22)

/-- The matrix that the parameters stand for. -/
def rotmMatrix (parameters : RotmParameters) : Matrix (Fin 2) (Fin 2) Rat :=
  if parameters.flag = -2 then
    !![1, 0; 0, 1]
  else if parameters.flag < 0 then
    !![parameters.h11, parameters.h12; parameters.h21, parameters.h22]
  else if parameters.flag = 0 then
    !![1, parameters.h12; parameters.h21, 1]
  else
    !![parameters.h11, 1; -1, parameters.h22]

theorem mulVec_two (a b c d x y : Rat) :
    (!![a, b; c, d]).mulVec ![x, y] = ![a * x + b * y, c * x + d * y] := by
  funext i
  fin_cases i <;> simp [Matrix.mulVec, dotProduct, Fin.sum_univ_two]

/-- `RotmImpl` applies the matrix of the parameters. -/
theorem rotmEntry_eq_mulVec (parameters : RotmParameters) (x y : Rat) :
    ![(rotmEntry parameters x y).1, (rotmEntry parameters x y).2] =
      (rotmMatrix parameters).mulVec ![x, y] := by
  unfold rotmEntry rotmMatrix
  split
  · rw [mulVec_two]
    simp
  split
  · rw [mulVec_two]
    simp only [mul_comm]
  split
  · rw [mulVec_two]
    simp [mul_comm]
  · rw [mulVec_two]
    simp [mul_comm]

/-! ## `RotmgImpl` -/

/-- `kGamma`. -/
def gamma : Rat := 4096

/-- `kGammaSquared`. -/
def gammaSquared : Rat := gamma * gamma

/-- `kInverseGammaSquared`. -/
def inverseGammaSquared : Rat := 1 / gammaSquared

/-- The local variables. -/
structure RotmgState where
  d1 : Rat
  d2 : Rat
  x1 : Rat
  flag : Rat := -1
  h11 : Rat := 0
  h12 : Rat := 0
  h21 : Rat := 0
  h22 : Rat := 0
  deriving DecidableEq, Repr

/-- The branches before the loops. -/
def rotate (d1 d2 x1 y1 : Rat) : RotmgState :=
  let p2 := d2 * y1
  let p1 := d1 * x1
  let q2 := p2 * y1
  let q1 := p1 * x1
  if |q1| > |q2| then
    let h21 := -y1 / x1
    let h12 := p2 / p1
    let u := 1 - h12 * h21
    if u > 0 then
      { d1 := d1 / u, d2 := d2 / u, x1 := x1 * u, flag := 0, h12 := h12, h21 := h21 }
    else
      { d1 := 0, d2 := 0, x1 := 0, h12 := h12, h21 := h21 }
  else if q2 < 0 then
    { d1 := 0, d2 := 0, x1 := 0 }
  else
    let h11 := p1 / p2
    let h22 := x1 / y1
    let u := 1 + h11 * h22
    { d1 := d2 / u, d2 := d1 / u, x1 := y1 * u, flag := 1, h11 := h11, h22 := h22 }

/-- What both loops do to the parameters before they rescale. -/
def unpack (state : RotmgState) : RotmgState :=
  if state.flag = 0 then
    { state with h11 := 1, h22 := 1, flag := -1 }
  else
    { state with h21 := -1, h12 := 1, flag := -1 }

def firstOutOfRange (state : RotmgState) : Bool :=
  state.d1 ≤ inverseGammaSquared || state.d1 ≥ gammaSquared

/-- One round of the first loop. -/
def rescaleFirst (state : RotmgState) : RotmgState :=
  let state := unpack state
  if state.d1 ≤ inverseGammaSquared then
    { state with
      d1 := state.d1 * gammaSquared
      x1 := state.x1 / gamma
      h11 := state.h11 / gamma
      h12 := state.h12 / gamma }
  else
    { state with
      d1 := state.d1 / gammaSquared
      x1 := state.x1 * gamma
      h11 := state.h11 * gamma
      h12 := state.h12 * gamma }

def secondOutOfRange (state : RotmgState) : Bool :=
  |state.d2| ≤ inverseGammaSquared || |state.d2| ≥ gammaSquared

/-- One round of the second loop. -/
def rescaleSecond (state : RotmgState) : RotmgState :=
  let state := unpack state
  if |state.d2| ≤ inverseGammaSquared then
    { state with
      d2 := state.d2 * gammaSquared
      h21 := state.h21 / gamma
      h22 := state.h22 / gamma }
  else
    { state with
      d2 := state.d2 / gammaSquared
      h21 := state.h21 * gamma
      h22 := state.h22 * gamma }

/-- What `RotmgImpl` leaves in its operands. -/
structure RotmgOutcome where
  d1 : Rat
  d2 : Rat
  x1 : Rat
  parameters : RotmParameters
  deriving DecidableEq, Repr

/-- The assignments at the end, which keep the parameters that the flag makes redundant. -/
def publish (state : RotmgState) (parameters : RotmParameters) : RotmgOutcome :=
  { d1 := state.d1
    d2 := state.d2
    x1 := state.x1
    parameters :=
      if state.flag < 0 then
        { flag := state.flag, h11 := state.h11, h21 := state.h21, h12 := state.h12
          h22 := state.h22 }
      else if state.flag = 0 then
        { parameters with flag := state.flag, h21 := state.h21, h12 := state.h12 }
      else
        { parameters with flag := state.flag, h11 := state.h11, h22 := state.h22 } }

/-- `RotmgImpl`; without a value the fuel of a loop does not suffice. -/
def rotmgImpl (fuel : Nat) (d1 d2 x1 y1 : Rat) (parameters : RotmParameters) :
    Option RotmgOutcome :=
  if d1 < 0 then
    some (publish { d1 := 0, d2 := 0, x1 := 0 } parameters)
  else if d2 * y1 = 0 then
    some { d1 := d1, d2 := d2, x1 := x1, parameters := { parameters with flag := -2 } }
  else do
    let state := rotate d1 d2 x1 y1
    let state ←
      if state.d1 ≠ 0 then whileLoop firstOutOfRange rescaleFirst fuel state else some state
    let state ←
      if state.d2 ≠ 0 then whileLoop secondOutOfRange rescaleSecond fuel state else some state
    some (publish state parameters)

end Dense
end AscCpp
