import AscCpp.Dense.View

/-!
# LogicalElement — the element of a view with a number

The generators of the random module count the elements of a dense view, with the first dimension
varying fastest, and find each one by division.

- `logicalElement_eq`: the element with a number is the one at the coordinate with that number.
-/

namespace AscCpp
namespace Random

open AscCpp.Core Library AscCpp.Dense

variable {Cell V : Type} {type : Representation Cell V} {rank : Nat}

/-- One round of `LogicalElement`: the rest of the ordinal, and the offset so far. -/
def digitRound (extents strides : Shape rank) (state : Nat × Nat) (dimension : Fin rank) : Nat × Nat :=
  let extent := (extents.get dimension).toNat
  let coordinate := state.1 % extent
  (state.1 / extent,
    (state.2 + coordinate * (strides.get dimension).toNat % 2 ^ 64) % 2 ^ 64)

/-- The address that `LogicalElement` finds; the arithmetic is that of `std::size_t`. -/
def logicalElement (view : DenseView type rank) (ordinal : Nat) : Nat :=
  let physicalOffset :=
    ((List.finRange rank).foldl (digitRound view.mapping.extents view.mapping.strides)
      (ordinal, 0)).2
  view.data + physicalOffset * type.size

/-- The loop adds up the digits times the strides; the induction is on the rank, and each round
leaves the loop over the other dimensions. -/
theorem foldl_digitRound {extents strides : Shape rank}
    (hstrides : ∀ dimension, 0 ≤ strides.get dimension) (ordinal offset : Nat) :
    ((((List.finRange rank).foldl (digitRound extents strides) (ordinal, offset % 2 ^ 64)).2 : Nat) :
        Int) =
      (offset + strideSum (coordinateAt extents ordinal).get strides.get (List.finRange rank)) %
        2 ^ 64 := by
  -- On the rank; the first round takes the lowest digit off the ordinal.
  induction rank generalizing ordinal offset with
  | zero => simp
  | succ rank ih =>
    have hround : ∀ dimension : Fin rank, ∀ state,
        digitRound extents strides state dimension.succ =
          digitRound extents.tail strides.tail state dimension := by
      intro dimension state
      simp only [digitRound, List.Vector.get_tail_succ]
    have hrest := @ih extents.tail strides.tail
      (fun dimension => by simpa [List.Vector.get_tail_succ] using hstrides dimension.succ)
      (ordinal / extents.head.toNat)
      (offset + ordinal % extents.head.toNat * strides.head.toNat)
    have hterm : ((ordinal % extents.head.toNat * strides.head.toNat : Nat) : Int) =
        (coordinateAt extents ordinal).get 0 * strides.get 0 := by
      have hstride := hstrides 0
      rw [List.Vector.get_zero] at hstride
      simp only [coordinateAt, List.Vector.get_zero, List.Vector.head_cons]
      rw [Nat.cast_mul, Int.toNat_of_nonneg hstride]
    have htail : strideSum (coordinateAt extents ordinal).get strides.get
        ((List.finRange rank).map Fin.succ) =
          strideSum (coordinateAt extents.tail (ordinal / extents.head.toNat)).get
            strides.tail.get (List.finRange rank) := by
      simp only [strideSum, List.map_map]
      congr 2
      funext dimension
      simp only [Function.comp_apply, coordinateAt, List.Vector.get_cons_succ,
        List.Vector.get_tail_succ]
    rw [List.finRange_succ, strideSum_cons, htail, ← hterm, ← add_assoc]
    rw [List.foldl_cons, List.foldl_map]
    simp only [hround]
    have hstart : digitRound extents strides (ordinal, offset % 2 ^ 64) 0 =
        (ordinal / extents.head.toNat,
          (offset + ordinal % extents.head.toNat * strides.head.toNat) % 2 ^ 64) := by
      simp only [digitRound, List.Vector.get_zero, Nat.add_mod, Nat.mod_mod]
    rw [hstart, hrest]
    push_cast
    rfl

theorem logicalElement_eq (view : DenseView type rank) {ordinal : Nat}
    (hordinal : ordinal < boxSize view.mapping.extents) :
    logicalElement view ordinal =
      view.addressOf (coordinateAt view.mapping.extents ordinal) := by
  have hbounds : view.mapping.InBounds (coordinateAt view.mapping.extents ordinal) :=
    coordinateAt_within hordinal
  have hspan := view.mapping.requiredSpanSize_eq hbounds.nonempty
  have hnonneg := hbounds.strideSum_nonneg
  have hle := hbounds.strideSum_le
  have hfold := @foldl_digitRound _ view.mapping.extents _ view.mapping.strides_nonneg ordinal 0
  have hmaximum : int64.maximum = 9223372036854775807 := by decide
  -- The offset is below the span, so nothing wraps around.
  rw [Nat.cast_zero, zero_add, Int.emod_eq_of_lt hnonneg (by omega)] at hfold
  unfold logicalElement DenseView.addressOf DenseView.offsetOf
  rw [← hfold]
  rfl

end Random
end AscCpp
