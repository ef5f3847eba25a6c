import AscCpp.Library.KeyedList
import AscCpp.Library.SharedElement

/-!
# SharedInsertion — an insertion sort on a list in the memory

- `exec_insertStored`: one round inserts its value into the list at the first places.
-/

namespace AscCpp
namespace Library

variable {Cell V K : Type} [LinearOrder K]

/-- The inner loop: the greater values move up by one place each, and the value takes the place that
becomes free. -/
def insertStored (type : Representation Cell V) (address : Nat → Nat) (key : V → K) (value : V) :
    Nat → Program (Nat → Cell) Unit
  | 0 => Program.store type (address 0) value
  | place + 1 => do
    let before ← Program.load type (address place)
    if key value < key before then
      Program.store type (address (place + 1)) before
      insertStored type address key value place
    else
      Program.store type (address (place + 1)) value

/-- What one round leaves. -/
structure Inserted (type : Representation Cell V) (address : Nat → Nat) (key : V → K) (value : V)
    (count bound : Nat) (memory memory' : Nat → Cell) : Prop where
  stored_eq : stored type address memory' (count + 1) =
    insertFromBack key value (stored type address memory count)
  later : ∀ place, count < place → place < bound →
    type.load memory' (address place) = type.load memory (address place)
  outside : ∀ cell, (∀ place < bound, cell < address place ∨ address place + type.size ≤ cell) →
    memory' cell = memory cell

variable {type : Representation Cell V} {address : Nat → Nat} {key : V → K} {value : V}
  {count bound : Nat} {memory : Nat → Cell}

/-- A value that stays behind all the others. -/
theorem inserted_last (happart : ElementsApart type.size bound address) (hcount : count < bound)
    (hlast : insertFromBack key value (stored type address memory count) =
      stored type address memory count ++ [value]) :
    Inserted type address key value count bound memory
      (type.store memory (address count) value) where
  stored_eq := by
    rw [stored_succ, type.load_store, hlast, stored_congr fun place hplace =>
      load_store_other happart (hplace.trans hcount) hcount hplace.ne value]
  later place hlater hplace := load_store_other happart hplace hcount hlater.ne' value
  outside cell hcell := type.store_outside (hcell count hcount)

/-- The induction is on the place that is free; the list before it is shorter by one value. -/
theorem exec_insertStored (happart : ElementsApart type.size bound address) (hcount : count < bound) :
    Inserted type address key value count bound memory
      ((insertStored type address key value count).exec memory).2 := by
  induction count generalizing memory with
  | zero => exact inserted_last happart hcount rfl
  | succ count ih =>
    have hbefore : count < bound := Nat.lt_of_succ_lt hcount
    have hconcat := insertFromBack_concat key value (type.load memory (address count))
      (stored type address memory count)
    rw [← stored_succ] at hconcat
    unfold insertStored
    rw [Program.exec_bind, Program.exec_load]
    by_cases hless : key value < key (type.load memory (address count))
    · rw [if_pos hless] at hconcat ⊢
      rw [Program.exec_bind, Program.exec_store]
      have hround := @ih (type.store memory (address (count + 1))
        (type.load memory (address count))) hbefore
      have hother : ∀ place < bound, place ≠ count + 1 →
          type.load (type.store memory (address (count + 1)) (type.load memory (address count)))
            (address place) = type.load memory (address place) :=
        fun place hplace hne => load_store_other happart hplace hcount hne _
      refine ⟨?_, fun place hlater hplace => ?_, fun cell hcell => ?_⟩
      · rw [stored_succ, hround.stored_eq, hround.later _ (Nat.lt_succ_self count) hcount,
          type.load_store, hconcat, stored_congr fun place hplace =>
            hother place (hplace.trans hbefore) (by omega)]
      · rw [hround.later place (by omega) hplace, hother place hplace (by omega)]
      · rw [hround.outside cell hcell, type.store_outside (hcell _ hcount)]
    · rw [if_neg hless] at hconcat ⊢
      apply inserted_last happart hcount
      rw [hconcat, stored_succ, List.append_assoc]
      rfl

end Library
end AscCpp
