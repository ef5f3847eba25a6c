import AscCpp.Library.ElementFamily

/-!
# InPlace — elements that are computed and stored one after the other

A loop stores into one element after the other what it computes from the memory that it has reached.
Where the elements lie among the operands, a later element may be computed from an earlier one.

- `load_storeInTurn`: an element has the value that was computed for it.
- `storeInTurn_values_iff`: when the loop leaves given values in all elements.
-/

namespace AscCpp
namespace Library

variable {Cell V : Type} {type : Representation Cell V} {address : Nat → Nat}
  {compute compute' : (Nat → Cell) → Nat → V} {count : Nat} {memory : Nat → Cell}

/-- The first elements, each with what is computed for it once those before it are stored. -/
def storeInTurn (type : Representation Cell V) (address : Nat → Nat)
    (compute : (Nat → Cell) → Nat → V) : Nat → (Nat → Cell) → Nat → Cell
  | 0, memory => memory
  | count + 1, memory =>
    let before := storeInTurn type address compute count memory
    type.store before (address count) (compute before count)

/-- The first elements share no cell. -/
def Apart (type : Representation Cell V) (address : Nat → Nat) (count : Nat) : Prop :=
  ∀ item < count, ∀ other < count, item ≠ other →
    address item + type.size ≤ address other ∨ address other + type.size ≤ address item

theorem Apart.mono (h : Apart type address count) {fewer : Nat} (hle : fewer ≤ count) :
    Apart type address fewer :=
  fun item hitem other hother => h item (hitem.trans_le hle) other (hother.trans_le hle)

/-- Cells outside of the first elements are as before. -/
theorem storeInTurn_outside {cell : Nat}
    (h : ∀ item < count, cell < address item ∨ address item + type.size ≤ cell) :
    storeInTurn type address compute count memory cell = memory cell := by
  induction count with
  | zero => rfl
  | succ count ih =>
    rw [storeInTurn]
    rw [type.store_outside (h count (Nat.lt_succ_self count)),
      ih fun item hitem => h item (hitem.trans (Nat.lt_succ_self count))]

/-- An element that is not stored yet is as before. -/
theorem load_storeInTurn_later {item : Nat} (hcount : count ≤ item)
    (h : Apart type address (item + 1)) :
    type.load (storeInTurn type address compute count memory) (address item) =
      type.load memory (address item) := by
  apply type.load_congr
  intro cell hfirst hlast
  apply storeInTurn_outside
  intro other hother
  have hapart := h other (by omega) item (Nat.lt_succ_self item) (by omega)
  omega

/-- An element has the value that was computed for it when the earlier ones were stored. -/
theorem load_storeInTurn (h : Apart type address count) {item : Nat} (hitem : item < count) :
    type.load (storeInTurn type address compute count memory) (address item) =
      compute (storeInTurn type address compute item memory) item := by
  induction count with
  | zero => exact absurd hitem (Nat.not_lt_zero item)
  | succ count ih =>
    rw [storeInTurn]
    rcases Nat.lt_succ_iff_lt_or_eq.1 hitem with hless | rfl
    · have hapart := h item hitem count (Nat.lt_succ_self count) hless.ne
      rw [type.load_store_of_disjoint type hapart, ih (h.mono (Nat.le_succ count)) hless]
    · exact type.load_store

/-- Computations that agree on what they are applied to store the same. -/
theorem storeInTurn_congr
    (h : ∀ item < count, compute (storeInTurn type address compute' item memory) item =
      compute' (storeInTurn type address compute' item memory) item) :
    storeInTurn type address compute count memory =
      storeInTurn type address compute' count memory := by
  induction count with
  | zero => rfl
  | succ count ih =>
    rw [storeInTurn, storeInTurn,
      ih fun item hitem => h item (hitem.trans (Nat.lt_succ_self count))]
    rw [h count (Nat.lt_succ_self count)]

/-- The loop leaves given values exactly when, with the given values in the earlier elements, each
element is computed to have its own. -/
theorem storeInTurn_values_iff (h : Apart type address count) (values : Nat → V) :
    (∀ item < count,
        type.load (storeInTurn type address compute count memory) (address item) = values item) ↔
      ∀ item < count,
        compute (storeInTurn type address (fun _ => values) item memory) item = values item := by
  constructor
  · intro hvalues item hitem
    -- Up to the element, what has been computed is what the values are.
    have hsame : storeInTurn type address (fun _ => values) item memory =
        storeInTurn type address compute item memory := by
      apply storeInTurn_congr
      intro other hother
      have hless := hother.trans hitem
      have hstored := @load_storeInTurn _ _ _ _ compute _ memory h other hless
      rw [← hstored, hvalues other hless]
    have hstored := @load_storeInTurn _ _ _ _ compute _ memory h item hitem
    rw [hsame, ← hstored, hvalues item hitem]
  · intro hcompute item hitem
    have hsame : storeInTurn type address compute item memory =
        storeInTurn type address (fun _ => values) item memory :=
      storeInTurn_congr fun other hother => hcompute other (hother.trans hitem)
    rw [load_storeInTurn h hitem, hsame, hcompute item hitem]

end Library
end AscCpp
