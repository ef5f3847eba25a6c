import Mathlib.Algebra.Order.Group.Int
import Mathlib.Tactic.Linarith

/-!
# Lines — steps through a storage and places in its lines

A storage is walked in steps of one size, forwards or backwards; or it is divided into lines of one
length, of which the last one may be cut short.

- `step_between`, `step_apart`: the steps of a walk stay between its ends, and apart.
- `line_bounds`, `line_injective`: a place in a line lies inside the storage, and is known from its
  offset.
-/

namespace AscCpp
namespace Library

/-! ## Steps -/

/-- A step of the way to the last element lies on the way. -/
theorem step_between {index last step : Int} (hindex : 0 ≤ index) (hlast : index ≤ last) :
    min 0 (last * step) ≤ index * step ∧ index * step ≤ max 0 (last * step) := by
  rcases Int.le_total 0 step with hstep | hstep
  · have hlower := Int.mul_nonneg hindex hstep
    have hupper := Int.mul_le_mul_of_nonneg_right hlast hstep
    omega
  · have hlower := Int.mul_le_mul_of_nonpos_right hlast hstep
    have hupper := Int.mul_nonpos_of_nonneg_of_nonpos hindex hstep
    omega

/-- Elements at different offsets share no cell. -/
theorem offset_apart {offset other : Int} {size : Nat} (hne : offset ≠ other) :
    offset * size + size ≤ other * size ∨ other * size + size ≤ offset * size := by
  have hsize : (0 : Int) ≤ size := Int.natCast_nonneg size
  rcases Int.lt_or_gt_of_ne hne with hlt | hgt
  · have hle := Int.mul_le_mul_of_nonneg_right (Int.add_one_le_of_lt hlt) hsize
    rw [Int.add_mul, Int.one_mul] at hle
    exact .inl hle
  · have hle := Int.mul_le_mul_of_nonneg_right (Int.add_one_le_of_lt hgt) hsize
    rw [Int.add_mul, Int.one_mul] at hle
    exact .inr hle

/-- Different multiples of a step are a step apart. -/
theorem step_apart {index other increment : Int} {size : Nat} (hne : index ≠ other)
    (hincrement : increment ≠ 0) :
    index * increment * size + size ≤ other * increment * size ∨
      other * increment * size + size ≤ index * increment * size :=
  offset_apart fun heq => hne (Int.eq_of_mul_eq_mul_right hincrement heq)

/-! ## Lines -/

/-- A place inside a line of a matrix, behind whole lines. -/
theorem line_bounds {line lines step place width : Int} (hline : 0 ≤ line) (hlines : line < lines)
    (hplace : 0 ≤ place) (hwidth : place < width) (hstep : width ≤ step) :
    0 ≤ line * step + place ∧ line * step + place + 1 ≤ (lines - 1) * step + width := by
  have hlower := Int.mul_nonneg hline (by omega : 0 ≤ step)
  have hupper := Int.mul_le_mul_of_nonneg_right (by omega : line ≤ lines - 1)
    (by omega : 0 ≤ step)
  omega

/-- The place and the line are known from the offset. -/
theorem line_injective {line line' step place place' : Int} (hplace : 0 ≤ place)
    (hwidth : place < step) (hplace' : 0 ≤ place') (hwidth' : place' < step)
    (h : line * step + place = line' * step + place') : line = line' ∧ place = place' := by
  have hline : line = line' := by
    have hleft := Int.add_mul_ediv_right place line (by omega : step ≠ 0)
    have hright := Int.add_mul_ediv_right place' line' (by omega : step ≠ 0)
    rw [Int.ediv_eq_zero_of_lt hplace hwidth, Int.zero_add] at hleft
    rw [Int.ediv_eq_zero_of_lt hplace' hwidth', Int.zero_add] at hright
    rw [← hleft, ← hright, Int.add_comm place, Int.add_comm place', h]
  subst hline
  exact ⟨rfl, by omega⟩

end Library
end AscCpp
