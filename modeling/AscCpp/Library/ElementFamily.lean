import AscCpp.Library.Lines
import AscCpp.Library.Representation
import Mathlib.Logic.Function.Basic

/-!
# ElementFamily — families of elements that share no cell

- `ElementFamily.values_store`: a store into an element of the family is an update of its values.
- `ElementFamily.ofOffsets`: the elements of a storage.
- `ElementFamily.Untouched`: memories that differ in the cells of the family only.
-/

namespace AscCpp
namespace Library

variable {Cell V : Type}

/-- Elements of one type at addresses that are apart. -/
structure ElementFamily (type : Representation Cell V) (ι : Type) where
  address : ι → Nat
  apart : ∀ item other, item ≠ other →
    address item + type.size ≤ address other ∨ address other + type.size ≤ address item

namespace ElementFamily

variable {type : Representation Cell V} {ι : Type} (family : ElementFamily type ι)

/-- The values that a memory holds. -/
def values (memory : Nat → Cell) (item : ι) : V :=
  type.load memory (family.address item)

theorem values_store [DecidableEq ι] (memory : Nat → Cell) (item : ι) (value : V) :
    family.values (type.store memory (family.address item) value) =
      Function.update (family.values memory) item value := by
  funext other
  by_cases h : other = item
  · rw [h, Function.update_self]
    exact type.load_store
  · rw [Function.update_of_ne h]
    exact type.load_store_of_disjoint type (family.apart other item h)

/-- The elements of one storage, at offsets that are counted in elements. -/
def ofOffsets (type : Representation Cell V) (data : Nat) (offset : ι → Int)
    (hnonneg : ∀ item, 0 ≤ offset item) (hinjective : Function.Injective offset) :
    ElementFamily type ι where
  address item := data + (offset item).toNat * type.size
  apart item other hne := by
    have hapart := @offset_apart _ _ type.size (hinjective.ne hne)
    rw [← Int.toNat_of_nonneg (hnonneg item), ← Int.toNat_of_nonneg (hnonneg other)] at hapart
    norm_cast at hapart
    omega

/-- Some of the elements, under other names. -/
def reindex {κ : Type} (family : ElementFamily type ι) (item : κ → ι)
    (hinjective : Function.Injective item) : ElementFamily type κ where
  address index := family.address (item index)
  apart _ _ hne := family.apart _ _ (hinjective.ne hne)

/-- One line of a family that is divided into lines. -/
def line {L K : Type} (family : ElementFamily type (L × K)) (line : L) : ElementFamily type K :=
  family.reindex (fun place => (line, place)) fun _ _ heq => (Prod.mk.inj heq).2

/-- The cell belongs to no element. -/
def Outside (cell : Nat) : Prop :=
  ∀ item, cell < family.address item ∨ family.address item + type.size ≤ cell

/-- The cells that belong to no element are as before. -/
def Untouched (memory memory' : Nat → Cell) : Prop :=
  ∀ cell, family.Outside cell → memory' cell = memory cell

variable {family}

theorem Untouched.refl (memory : Nat → Cell) : family.Untouched memory memory :=
  fun _ _ => rfl

theorem Untouched.trans {memory memory' memory'' : Nat → Cell}
    (h : family.Untouched memory memory') (h' : family.Untouched memory' memory'') :
    family.Untouched memory memory'' :=
  fun cell houtside => (h' cell houtside).trans (h cell houtside)

theorem untouched_store (memory : Nat → Cell) (item : ι) (value : V) :
    family.Untouched memory (type.store memory (family.address item) value) :=
  fun _ houtside => type.store_outside (houtside item)

/-- An element that is apart from the family keeps its value. -/
theorem Untouched.load_eq {W : Type} {other : Representation Cell W} {address : Nat}
    {memory memory' : Nat → Cell} (h : family.Untouched memory memory')
    (hapart : ∀ item, address + other.size ≤ family.address item ∨
      family.address item + type.size ≤ address) :
    other.load memory' address = other.load memory address := by
  apply other.load_congr
  intro cell hfirst hlast
  apply h cell
  intro item
  rcases hapart item with hbefore | hbehind <;> omega

end ElementFamily

end Library
end AscCpp
