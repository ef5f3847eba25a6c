import Mathlib.Tactic.Common

/-!
# Representation — typed elements in a memory of cells

An element of a type occupies a number of neighbouring cells.  How its value is spread over the
cells is left open; the laws say which cells a load reads and which cells a store writes.

- `Representation.load_store_of_disjoint`: a store keeps the elements that share no cell with it.
-/

namespace AscCpp
namespace Library

structure Representation (Cell V : Type) where
  size : Nat
  alignment : Nat
  size_pos : 0 < size
  load : (Nat → Cell) → Nat → V
  store : (Nat → Cell) → Nat → V → Nat → Cell
  /-- A load reads the cells of its element only. -/
  load_congr : ∀ {memory memory' address},
    (∀ cell, address ≤ cell → cell < address + size → memory cell = memory' cell) →
      load memory address = load memory' address
  /-- A store writes the cells of its element only. -/
  store_outside : ∀ {memory address value cell},
    cell < address ∨ address + size ≤ cell → store memory address value cell = memory cell
  load_store : ∀ {memory address value}, load (store memory address value) address = value

namespace Representation

/-! The sizes of the elements that occur. -/

theorem eight_pos : 0 < 8 := by
  decide

theorem four_pos : 0 < 4 := by
  decide

theorem sixteen_pos : 0 < 16 := by
  decide

variable {Cell V W : Type}

theorem load_store_of_disjoint (type : Representation Cell V) (other : Representation Cell W)
    {memory : Nat → Cell} {address address' : Nat} {value : W}
    (h : address + type.size ≤ address' ∨ address' + other.size ≤ address) :
    type.load (other.store memory address' value) address = type.load memory address := by
  apply type.load_congr
  intro cell hfirst hlast
  exact other.store_outside (by omega)

/-- Every cell of an element carries its value. -/
def uniform (V : Type) (size alignment : Nat) (hsize : 0 < size) : Representation V V where
  size := size
  alignment := alignment
  size_pos := hsize
  load memory address := memory address
  store memory address value cell :=
    if address ≤ cell ∧ cell < address + size then value else memory cell
  load_congr h := h _ (Nat.le_refl _) (by omega)
  store_outside h := if_neg (by omega)
  load_store := if_pos ⟨Nat.le_refl _, by omega⟩

/-- A part of every cell carries the value. -/
def component {Cell V : Type} (get : Cell → V) (put : Cell → V → Cell)
    (hput : ∀ cell value, get (put cell value) = value) (size alignment : Nat) (hsize : 0 < size) :
    Representation Cell V where
  size := size
  alignment := alignment
  size_pos := hsize
  load memory address := get (memory address)
  store memory address value cell :=
    if address ≤ cell ∧ cell < address + size then put (memory cell) value else memory cell
  load_congr h := congrArg get (h _ (Nat.le_refl _) (by omega))
  store_outside h := if_neg (by omega)
  load_store := (congrArg get (if_pos ⟨Nat.le_refl _, by omega⟩)).trans (hput _ _)

end Representation

end Library
end AscCpp
