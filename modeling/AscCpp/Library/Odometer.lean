import AscCpp.Library.Walk
import Mathlib.Data.Vector.Basic

/-!
# Odometer — stepping through the coordinates of a box

A coordinate is advanced in its first dimension, with a carry into the later ones.

- `advance_coordinateAt`: the coordinates are visited in the order of their numbers.
- `exists_coordinateAt`: every coordinate inside the extents has a number.
- `coordinateAt_comesBefore`: a later dimension matters more for the order.
-/

namespace AscCpp
namespace Library

/-- The next coordinate; the last one has none. -/
def advance : {rank : Nat} → (extents coordinates : List.Vector Int rank) →
    Option (List.Vector Int rank)
  | 0, _, _ => none
  | _ + 1, extents, coordinates =>
    if coordinates.head + 1 < extents.head then
      some ((coordinates.head + 1) ::ᵥ coordinates.tail)
    else
      (advance extents.tail coordinates.tail).map fun later => 0 ::ᵥ later

/-- The coordinate with a number, whose lowest digit is the first one. -/
def coordinateAt : {rank : Nat} → (extents : List.Vector Int rank) → Nat → List.Vector Int rank
  | 0, _, _ => List.Vector.nil
  | _ + 1, extents, number =>
    ((number % extents.head.toNat : Nat) : Int) ::ᵥ
      coordinateAt extents.tail (number / extents.head.toNat)

/-- The number of coordinates. -/
def boxSize : {rank : Nat} → (extents : List.Vector Int rank) → Nat
  | 0, _ => 1
  | _ + 1, extents => extents.head.toNat * boxSize extents.tail

variable {rank : Nat}

theorem boxSize_succ (extents : List.Vector Int (rank + 1)) :
    boxSize extents = extents.head.toNat * boxSize extents.tail := rfl

/-- A box with a coordinate has a first dimension that is not empty. -/
theorem head_pos {extents : List.Vector Int (rank + 1)} {number : Nat}
    (hnumber : number < boxSize extents) : 0 < extents.head.toNat := by
  apply Nat.pos_of_ne_zero
  intro hzero
  rw [boxSize_succ, hzero, Nat.zero_mul] at hnumber
  omega

theorem advance_coordinateAt {extents : List.Vector Int rank} {number : Nat}
    (hnumber : number < boxSize extents) :
    advance extents (coordinateAt extents number) =
      if number + 1 < boxSize extents then some (coordinateAt extents (number + 1)) else none := by
  induction rank generalizing number with
  | zero =>
    rw [boxSize] at hnumber
    rw [advance, boxSize, if_neg (by omega)]
  | succ rank ih =>
    have hextent := head_pos hnumber
    have hrest : number / extents.head.toNat < boxSize extents.tail :=
      Nat.div_lt_of_lt_mul hnumber
    have hdigit := Nat.mod_lt number hextent
    have hparts := Nat.div_add_mod number extents.head.toNat
    simp only [advance, coordinateAt, List.Vector.head_cons, List.Vector.tail_cons]
    by_cases hcarry : number % extents.head.toNat + 1 < extents.head.toNat
    · -- The first digit grows and the others stay.
      have hnext : number + 1 = number % extents.head.toNat + 1 +
          extents.head.toNat * (number / extents.head.toNat) := by omega
      have hmod : (number + 1) % extents.head.toNat = number % extents.head.toNat + 1 := by
        rw [hnext, Nat.add_mul_mod_self_left, Nat.mod_eq_of_lt hcarry]
      have hdiv : (number + 1) / extents.head.toNat = number / extents.head.toNat := by
        rw [hnext, Nat.add_mul_div_left _ _ hextent, Nat.div_eq_of_lt hcarry, Nat.zero_add]
      have hfits : number + 1 < boxSize extents := by
        rw [boxSize_succ]
        have hlater : extents.head.toNat * (number / extents.head.toNat + 1) ≤
            extents.head.toNat * boxSize extents.tail := Nat.mul_le_mul_left _ hrest
        rw [Nat.mul_add, Nat.mul_one] at hlater
        omega
      rw [if_pos (by omega), if_pos hfits, hmod, hdiv]
      rfl
    · -- The first digit is the last one of its dimension.
      have hnext : number + 1 = extents.head.toNat * (number / extents.head.toNat + 1) := by
        rw [Nat.mul_add, Nat.mul_one]
        omega
      have hmod : (number + 1) % extents.head.toNat = 0 := by
        rw [hnext, Nat.mul_mod_right]
      have hdiv : (number + 1) / extents.head.toNat = number / extents.head.toNat + 1 := by
        rw [hnext, Nat.mul_div_cancel_left _ hextent]
      have hfits : number + 1 < boxSize extents ↔
          number / extents.head.toNat + 1 < boxSize extents.tail := by
        rw [hnext, boxSize_succ]
        exact Nat.mul_lt_mul_left hextent
      rw [if_neg (by omega), ih hrest, hmod, hdiv]
      simp only [hfits]
      split <;> rfl

theorem head_coordinateAt_lt {extents : List.Vector Int (rank + 1)} {number : Nat}
    (hnumber : number < boxSize extents) :
    0 ≤ (coordinateAt extents number).head ∧
      (coordinateAt extents number).head < extents.head := by
  have hdigit := Nat.mod_lt number (head_pos hnumber)
  simp only [coordinateAt, List.Vector.head_cons]
  omega

theorem coordinateAt_within {extents : List.Vector Int rank} {number : Nat}
    (hnumber : number < boxSize extents) (dimension : Fin rank) :
    0 ≤ (coordinateAt extents number).get dimension ∧
      (coordinateAt extents number).get dimension < extents.get dimension := by
  induction rank generalizing number with
  | zero => exact dimension.elim0
  | succ rank ih =>
    refine Fin.cases ?_ (fun later => ?_) dimension
    · simpa [List.Vector.get_zero] using head_coordinateAt_lt hnumber
    · have hrest := ih (Nat.div_lt_of_lt_mul hnumber) later
      rw [← List.Vector.get_tail_succ, ← List.Vector.get_tail_succ]
      simpa [coordinateAt] using hrest

theorem exists_coordinateAt {extents coordinates : List.Vector Int rank}
    (h : ∀ dimension, 0 ≤ coordinates.get dimension ∧
      coordinates.get dimension < extents.get dimension) :
    ∃ number < boxSize extents, coordinateAt extents number = coordinates := by
  induction rank with
  | zero => exact ⟨0, by simp [boxSize], List.Vector.ext fun dimension => dimension.elim0⟩
  | succ rank ih =>
    have hrest : ∀ dimension, 0 ≤ coordinates.tail.get dimension ∧
        coordinates.tail.get dimension < extents.tail.get dimension := fun dimension => by
      simpa [List.Vector.get_tail_succ] using h dimension.succ
    rcases ih hrest with ⟨number, hnumber, hlater⟩
    have hfirst := h 0
    rw [List.Vector.get_zero, List.Vector.get_zero] at hfirst
    have hdigit : coordinates.head.toNat < extents.head.toNat := by omega
    refine ⟨coordinates.head.toNat + extents.head.toNat * number, ?_, ?_⟩
    · rw [boxSize]
      calc coordinates.head.toNat + extents.head.toNat * number
          < extents.head.toNat * (number + 1) := by rw [Nat.mul_add, Nat.mul_one]; omega
        _ ≤ extents.head.toNat * boxSize extents.tail := Nat.mul_le_mul_left _ hnumber
    · rw [coordinateAt, Nat.add_mul_mod_self_left, Nat.mod_eq_of_lt hdigit,
        Nat.add_mul_div_left _ _ (by omega), Nat.div_eq_of_lt hdigit, Nat.zero_add, hlater,
        Int.toNat_of_nonneg hfirst.1, List.Vector.cons_head_tail]

/-- At the last dimension where they differ, the first coordinate is smaller. -/
def ComesBefore (coordinates coordinates' : List.Vector Int rank) : Prop :=
  ∃ dimension, coordinates.get dimension < coordinates'.get dimension ∧
    ∀ later, dimension < later → coordinates.get later = coordinates'.get later

theorem not_comesBefore_self (coordinates : List.Vector Int rank) :
    ¬ ComesBefore coordinates coordinates := by
  rintro ⟨dimension, hlt, -⟩
  exact lt_irrefl _ hlt

theorem coordinateAt_comesBefore {extents : List.Vector Int rank} {number number' : Nat}
    (hlt : number < number') (hnumber : number' < boxSize extents) :
    ComesBefore (coordinateAt extents number) (coordinateAt extents number') := by
  induction rank generalizing number number' with
  | zero =>
    rw [boxSize] at hnumber
    omega
  | succ rank ih =>
    have hextent := head_pos hnumber
    rcases (Nat.div_le_div_right (c := extents.head.toNat) hlt.le).lt_or_eq with hdiv | hdiv
    · -- A later digit differs.
      rcases ih hdiv (Nat.div_lt_of_lt_mul hnumber) with ⟨dimension, hsmaller, hequal⟩
      refine ⟨dimension.succ, by simpa [coordinateAt] using hsmaller, fun later hlater => ?_⟩
      rcases Fin.exists_succ_eq.2 (Fin.ne_zero_of_lt hlater) with ⟨later, rfl⟩
      simpa [coordinateAt] using hequal later (Fin.succ_lt_succ_iff.1 hlater)
    · -- Only the first digit does.
      have hparts := Nat.div_add_mod number extents.head.toNat
      have hparts' := Nat.div_add_mod number' extents.head.toNat
      rw [hdiv] at hparts
      refine ⟨0, ?_, fun later hlater => ?_⟩
      · simp only [coordinateAt, List.Vector.get_zero, List.Vector.head_cons]
        omega
      · rcases Fin.exists_succ_eq.2 (Fin.ne_zero_of_lt hlater) with ⟨later, rfl⟩
        simp only [coordinateAt, List.Vector.get_cons_succ, hdiv]

theorem coordinateAt_injective {extents : List.Vector Int rank} {number number' : Nat}
    (hnumber : number < boxSize extents) (hnumber' : number' < boxSize extents)
    (heq : coordinateAt extents number = coordinateAt extents number') : number = number' := by
  rcases lt_trichotomy number number' with hlt | hsame | hgt
  · exact absurd (heq ▸ coordinateAt_comesBefore hlt hnumber') (not_comesBefore_self _)
  · exact hsame
  · exact absurd (heq ▸ coordinateAt_comesBefore hgt hnumber) (not_comesBefore_self _)

/-- The coordinates of a box, in the order of their numbers. -/
def boxCoordinates (extents : List.Vector Int rank) : List (List.Vector Int rank) :=
  (List.range (boxSize extents)).map (coordinateAt extents)

theorem boxCoordinates_nodup (extents : List.Vector Int rank) : (boxCoordinates extents).Nodup := by
  apply List.nodup_range.map_on
  intro number hnumber number' hnumber' heq
  exact coordinateAt_injective (List.mem_range.1 hnumber) (List.mem_range.1 hnumber') heq

theorem mem_boxCoordinates_iff {extents coordinates : List.Vector Int rank} :
    coordinates ∈ boxCoordinates extents ↔
      ∀ dimension, 0 ≤ coordinates.get dimension ∧
        coordinates.get dimension < extents.get dimension := by
  rw [boxCoordinates, List.mem_map]
  constructor
  · rintro ⟨number, hnumber, rfl⟩
    exact coordinateAt_within (List.mem_range.1 hnumber)
  · intro hwithin
    rcases exists_coordinateAt hwithin with ⟨number, hnumber, heq⟩
    exact ⟨number, List.mem_range.2 hnumber, heq⟩

theorem boxSize_eq_prod (extents : List.Vector Int rank) :
    boxSize extents = (extents.toList.map Int.toNat).prod := by
  induction rank with
  | zero =>
    rw [List.Vector.eq_nil extents]
    rfl
  | succ rank ih =>
    rw [boxSize, ih]
    conv_rhs => rw [← List.Vector.cons_head_tail extents, List.Vector.toList_cons]
    rw [List.map_cons, List.prod_cons]

/-- A box with an empty dimension is empty. -/
theorem boxSize_eq_zero_iff {extents : List.Vector Int rank} :
    boxSize extents = 0 ↔ ∃ dimension, extents.get dimension ≤ 0 := by
  induction rank with
  | zero => simp [boxSize]
  | succ rank ih =>
    rw [boxSize, Nat.mul_eq_zero, ih, Fin.exists_fin_succ, List.Vector.get_zero]
    simp only [← List.Vector.get_tail_succ]
    rw [Int.toNat_eq_zero]

/-- A walk through a box visits its coordinates in the order of their numbers. -/
theorem walk_advance {m : Type → Type} [Monad m] [LawfulMonad m] {extents : List.Vector Int rank}
    (body : List.Vector Int rank → m Unit) :
    walk (advance extents) body (boxSize extents) (coordinateAt extents 0) =
      forM (List.range (boxSize extents)) fun number => body (coordinateAt extents number) := by
  rw [List.range_eq_range']
  exact walk_eq_forM (fun _ => advance_coordinateAt) body (Nat.zero_add _)

/-! ## Slabs along the last dimension -/

/-- Another entry in the last dimension. -/
def setLast : {rank : Nat} → List.Vector Int (rank + 1) → Int → List.Vector Int (rank + 1)
  | 0, _, value => value ::ᵥ List.Vector.nil
  | _ + 1, entries, value => entries.head ::ᵥ setLast entries.tail value

/-- The number of coordinates with one entry in the last dimension. -/
def sliceSize : {rank : Nat} → List.Vector Int (rank + 1) → Nat
  | 0, _ => 1
  | _ + 1, extents => extents.head.toNat * sliceSize extents.tail

theorem setLast_get (entries : List.Vector Int (rank + 1)) (value : Int)
    (dimension : Fin (rank + 1)) :
    (setLast entries value).get dimension =
      if dimension = Fin.last rank then value else entries.get dimension := by
  induction rank with
  | zero =>
    rw [Fin.fin_one_eq_zero dimension]
    rfl
  | succ rank ih =>
    refine Fin.cases ?_ (fun later => ?_) dimension
    · have hne : (0 : Fin (rank + 2)) ≠ Fin.last (rank + 1) :=
        (Fin.succ_ne_zero (Fin.last rank)).symm
      rw [if_neg hne, List.Vector.get_zero, List.Vector.get_zero, setLast, List.Vector.head_cons]
    · rw [setLast, List.Vector.get_cons_succ, ih, List.Vector.get_tail_succ]
      simp only [Fin.succ_eq_last_succ]

theorem boxSize_eq_slices (extents : List.Vector Int (rank + 1)) :
    boxSize extents = sliceSize extents * (extents.get (Fin.last rank)).toNat := by
  induction rank with
  | zero => simp [boxSize, sliceSize, List.Vector.get_zero]
  | succ rank ih =>
    rw [boxSize, sliceSize, ih, List.Vector.get_tail_succ, Fin.succ_last, mul_assoc]

theorem sliceSize_setLast (extents : List.Vector Int (rank + 1)) (value : Int) :
    sliceSize (setLast extents value) = sliceSize extents := by
  induction rank with
  | zero => rfl
  | succ rank ih =>
    simp only [sliceSize, setLast, List.Vector.head_cons, List.Vector.tail_cons, ih]

/-- A number in a slab counts from the first number of the slab. -/
theorem coordinateAt_slab (extents : List.Vector Int (rank + 1)) {start count number : Nat}
    (hfits : (start + count : Int) ≤ extents.get (Fin.last rank))
    (hnumber : number < sliceSize extents * count) (dimension : Fin (rank + 1)) :
    (coordinateAt extents (start * sliceSize extents + number)).get dimension =
      (setLast (List.Vector.replicate (rank + 1) 0) start).get dimension +
        (coordinateAt (setLast extents count) number).get dimension := by
  induction rank generalizing number with
  | zero =>
    rw [Fin.fin_one_eq_zero dimension]
    have hextent : (start + count : Int) ≤ extents.head := by
      simpa [List.Vector.get_zero] using hfits
    rw [sliceSize, one_mul] at hnumber
    simp only [coordinateAt, setLast, sliceSize, List.Vector.get_zero, List.Vector.head_cons, mul_one,
      Int.toNat_natCast]
    rw [Nat.mod_eq_of_lt (by omega), Nat.mod_eq_of_lt hnumber]
    push_cast
    rfl
  | succ rank ih =>
    have hextent : 0 < extents.head.toNat := by
      apply Nat.pos_of_ne_zero
      intro hzero
      rw [sliceSize, hzero, Nat.zero_mul, Nat.zero_mul] at hnumber
      omega
    have hsplit : start * sliceSize extents + number =
        number + extents.head.toNat * (start * sliceSize extents.tail) := by
      rw [sliceSize, Nat.add_comm, Nat.mul_left_comm]
    -- The start of the slab is a multiple of the first extent, so it does not touch that digit.
    refine Fin.cases ?_ (fun later => ?_) dimension
    · simp only [coordinateAt, setLast, List.Vector.get_zero, List.Vector.head_cons, hsplit,
        Nat.add_mul_mod_self_left]
      exact (zero_add _).symm
    · have hrest : number / extents.head.toNat < sliceSize extents.tail * count := by
        apply Nat.div_lt_of_lt_mul
        rw [sliceSize, mul_assoc] at hnumber
        exact hnumber
      have hlater := @ih extents.tail (number / extents.head.toNat)
        (by simpa [List.Vector.get_tail_succ, Fin.succ_last] using hfits) hrest later
      have hquotient : (start * sliceSize extents + number) / extents.head.toNat =
          start * sliceSize extents.tail + number / extents.head.toNat := by
        rw [hsplit, Nat.add_mul_div_left _ _ hextent, Nat.add_comm]
      calc (coordinateAt extents (start * sliceSize extents + number)).get later.succ
          = (coordinateAt extents.tail
              ((start * sliceSize extents + number) / extents.head.toNat)).get later := rfl
        _ = (coordinateAt extents.tail
              (start * sliceSize extents.tail + number / extents.head.toNat)).get later := by
            rw [hquotient]
        _ = _ := hlater

end Library
end AscCpp
