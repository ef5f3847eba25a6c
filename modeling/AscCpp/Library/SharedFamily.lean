import AscCpp.Library.ElementFamily
import AscCpp.Library.SharedElement

/-!
# SharedFamily — families of elements that threads divide among themselves

Every element has an owner.  A program may touch the elements that it owns, and read what does not
belong to the family.

- `raceFree_owned`: such programs keep apart.
- `Program.Updates`: what a program makes of the values of a family.
- `Program.exec_forM_family`: a loop over such programs folds their steps.
-/

namespace AscCpp
namespace Library

variable {Cell V ι α : Type}

namespace ElementFamily

variable {type : Representation Cell V} (family : ElementFamily type ι)

/-- The cells that belong to no element. -/
def outsideCells : Set Nat :=
  {cell | family.Outside cell}

/-- The cells of the elements of an owner. -/
def ownedCells (owner : ι → α) (position : α) : Set Nat :=
  {cell | ∃ item, owner item = position ∧ cell ∈ elementCells type (family.address item)}

variable {owner : ι → α}

theorem elementCells_subset_owned {item : ι} {position : α} (h : owner item = position) :
    elementCells type (family.address item) ⊆ family.ownedCells owner position :=
  fun _ hcell => ⟨item, h, hcell⟩

variable {family}

/-- Another element, apart from the whole family. -/
theorem elementCells_subset_outside {W : Type} {other : Representation Cell W} {address : Nat}
    (h : ∀ item, address + other.size ≤ family.address item ∨
      family.address item + type.size ≤ address) :
    elementCells other address ⊆ family.outsideCells := by
  rintro cell ⟨hfirst, hlast⟩ item
  rcases h item with hbefore | hbehind
  · exact Or.inl (by omega)
  · exact Or.inr (by omega)

/-- Programs that own their elements keep apart. -/
theorem raceFree_owned (family : ElementFamily type ι) (owner : ι → α) (positions : List α) :
    Program.RaceFree positions (fun _ => family.outsideCells) (family.ownedCells owner) := by
  intro position _ other _ hne
  rw [Set.disjoint_left]
  rintro cell ⟨item, hitem, hfirst, hlast⟩ (houtside | ⟨item', hitem', hcell'⟩)
  · rcases houtside item with hbefore | hbehind <;> omega
  · have hdistinct : item ≠ item' := by
      rintro rfl
      exact hne (hitem'.symm.trans hitem)
    have hapart := disjoint_elementCells (family.apart item item' hdistinct)
    exact Set.disjoint_left.1 hapart ⟨hfirst, hlast⟩ hcell'

end ElementFamily

namespace Program

variable {type : Representation Cell V} {family : ElementFamily type ι}

/-- The program changes no cell outside the family, and its values by a step. -/
def Updates (family : ElementFamily type ι) (program : Program (Nat → Cell) Unit)
    (step : (ι → V) → ι → V) (memory : Nat → Cell) : Prop :=
  family.Untouched memory (program.exec memory).2 ∧
    family.values (program.exec memory).2 = step (family.values memory)

theorem updates_store [DecidableEq ι] (item : ι) (value : V) (memory : Nat → Cell) :
    Updates family (store type (family.address item) value)
      (fun values => Function.update values item value) memory :=
  ⟨family.untouched_store memory item value, family.values_store memory item value⟩

/-- The rounds may rely on the cells outside the family being as they were. -/
theorem exec_forM_family {items : List α} {body : α → Program (Nat → Cell) Unit}
    {step : (ι → V) → α → ι → V} {memory memory' : Nat → Cell}
    (hround : ∀ item ∈ items, ∀ memory', family.Untouched memory memory' →
      Updates family (body item) (fun values => step values item) memory')
    (huntouched : family.Untouched memory memory') :
    Updates family (forM items body) (fun values => items.foldl step values) memory' := by
  induction items generalizing memory' with
  | nil => exact ⟨.refl memory', rfl⟩
  | cons item items ih =>
    rw [List.forall_mem_cons] at hround
    rcases hround.1 memory' huntouched with ⟨hframe, hvalues⟩
    rcases ih hround.2 (huntouched.trans hframe) with ⟨hframe', hvalues'⟩
    rw [Updates, exec_forM_cons]
    exact ⟨hframe.trans hframe', by rw [hvalues', hvalues, List.foldl_cons]⟩

end Program

end Library
end AscCpp
