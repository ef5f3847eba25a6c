import AscCpp.Library.GridStride
import AscCpp.Library.Representation

/-!
# SharedElement — elements in a memory that threads share

- `LocalRepresentation`: a store whose outcome depends on the cells of its element alone.
- `Program.within_load`, `Program.within_store`: the footprints of the accesses to an element.
- `gridStride_stores`: the threads of a grid that fill elements apart from each other.
- `gridStride_maps`: threads that store values of the memory at the beginning.
- `load_foldl_store`, `foldl_store_outside`: what a loop of stores leaves.
-/

namespace AscCpp
namespace Library

variable {Cell V W : Type}

structure LocalRepresentation (Cell V : Type) extends Representation Cell V where
  store_congr : ∀ {memory memory' address value},
    (∀ cell, address ≤ cell → cell < address + size → memory cell = memory' cell) →
      ∀ cell, address ≤ cell → cell < address + size →
        store memory address value cell = store memory' address value cell

/-- Every cell of an element carries its value. -/
def LocalRepresentation.uniform (V : Type) (size alignment : Nat) (hsize : 0 < size) :
    LocalRepresentation V V where
  toRepresentation := .uniform V size alignment hsize
  store_congr _ _ hfirst hlast := (if_pos ⟨hfirst, hlast⟩).trans (if_pos ⟨hfirst, hlast⟩).symm

/-- A part of every cell carries the value. -/
def LocalRepresentation.component {Cell V : Type} (get : Cell → V) (put : Cell → V → Cell)
    (hput : ∀ cell value, get (put cell value) = value) (size alignment : Nat) (hsize : 0 < size) :
    LocalRepresentation Cell V where
  toRepresentation := .component get put hput size alignment hsize
  store_congr h cell hfirst hlast := by
    have hsame := h cell hfirst hlast
    refine (if_pos ⟨hfirst, hlast⟩).trans (Eq.trans ?_ (if_pos ⟨hfirst, hlast⟩).symm)
    rw [hsame]

/-- The cells of an element. -/
def elementCells (type : Representation Cell V) (address : Nat) : Set Nat :=
  {cell | address ≤ cell ∧ cell < address + type.size}

theorem disjoint_elementCells {type : Representation Cell V} {other : Representation Cell W}
    {address address' : Nat}
    (h : address + type.size ≤ address' ∨ address' + other.size ≤ address) :
    Disjoint (elementCells type address) (elementCells other address') := by
  rw [Set.disjoint_left]
  rintro cell ⟨hfirst, hlast⟩ ⟨hfirst', hlast'⟩
  omega

namespace Program

def load (type : Representation Cell V) (address : Nat) : Program (Nat → Cell) V :=
  read fun memory => type.load memory address

def store (type : Representation Cell V) (address : Nat) (value : V) :
    Program (Nat → Cell) Unit :=
  change fun memory => type.store memory address value

@[simp] theorem exec_load (type : Representation Cell V) (address : Nat) (memory : Nat → Cell) :
    (load type address).exec memory = (type.load memory address, memory) := rfl

@[simp] theorem exec_store (type : Representation Cell V) (address : Nat) (value : V)
    (memory : Nat → Cell) :
    (store type address value).exec memory = ((), type.store memory address value) := rfl

variable {reads writes : Set Nat}

theorem within_load (type : Representation Cell V) {address : Nat}
    (h : elementCells type address ⊆ reads ∪ writes) :
    (load type address).Within reads writes :=
  within_read fun _ _ hagree =>
    type.load_congr fun cell hfirst hlast => hagree cell (h ⟨hfirst, hlast⟩)

theorem within_store (type : LocalRepresentation Cell V) {address : Nat} (value : V)
    (h : elementCells type.toRepresentation address ⊆ writes) :
    (store type.toRepresentation address value).Within reads writes := by
  apply within_change
  · intro memory cell hcell
    apply type.store_outside
    by_contra hinside
    exact hcell (h ⟨by omega, by omega⟩)
  · intro memory memory' hagree cell hcell
    by_cases hinside : address ≤ cell ∧ cell < address + type.size
    · apply type.store_congr _ cell hinside.1 hinside.2
      exact fun other hfirst hlast => hagree other (Or.inr (h ⟨hfirst, hlast⟩))
    · rw [type.store_outside (by omega), type.store_outside (by omega)]
      exact hagree cell (Or.inr hcell)

end Program

open Program

/-! ## Loops of stores -/

/-- Elements at the positions below a count that share no cell. -/
def ElementsApart (size count : Nat) (address : Nat → Nat) : Prop :=
  ∀ position < count, ∀ other < count, position ≠ other →
    address position + size ≤ address other ∨ address other + size ≤ address position

theorem apart_consecutive (size count data : Nat) :
    ElementsApart size count fun position => data + position * size := by
  intro position _ other _ hne
  rcases Nat.lt_or_gt_of_ne hne with hlt | hgt
  · have hle := Nat.mul_le_mul_right size (Nat.succ_le_of_lt hlt)
    rw [Nat.succ_mul] at hle
    simp only
    omega
  · have hle := Nat.mul_le_mul_right size (Nat.succ_le_of_lt hgt)
    rw [Nat.succ_mul] at hle
    simp only
    omega

theorem foldl_store_outside (type : Representation Cell V) (count : Nat) {address : Nat → Nat}
    {value : Nat → (Nat → Cell) → V} (memory : Nat → Cell) {cell : Nat}
    (hcell : ∀ position < count, cell < address position ∨ address position + type.size ≤ cell) :
    (List.range count).foldl (fun memory position =>
      type.store memory (address position) (value position memory)) memory cell = memory cell := by
  induction count with
  | zero => rfl
  | succ count ih =>
    rw [List.range_succ, List.foldl_concat, type.store_outside (hcell count (Nat.lt_succ_self count))]
    exact ih fun position hposition => hcell position (Nat.lt_succ_of_lt hposition)

theorem load_foldl_store (type : Representation Cell V) {count : Nat} {address : Nat → Nat}
    (happart : ElementsApart type.size count address) (value : Nat → V) (memory : Nat → Cell)
    {position : Nat} (hposition : position < count) :
    type.load ((List.range count).foldl (fun memory position =>
      type.store memory (address position) (value position)) memory) (address position) =
        value position := by
  induction count with
  | zero => cases hposition
  | succ count ih =>
    rw [List.range_succ, List.foldl_concat]
    rcases Nat.lt_succ_iff_lt_or_eq.1 hposition with hlt | rfl
    · rw [type.load_store_of_disjoint type (happart position hposition count
        (Nat.lt_succ_self count) hlt.ne)]
      exact ih (fun left hleft right hright => happart left (Nat.lt_succ_of_lt hleft) right
        (Nat.lt_succ_of_lt hright)) hlt
    · exact type.load_store

/-- A loop whose values depend on cells that the earlier rounds leave alone stores what they are at
its beginning. -/
theorem foldl_store_initial (type : Representation Cell V) {count : Nat} {address : Nat → Nat}
    {value : Nat → (Nat → Cell) → V} {memory : Nat → Cell}
    (hvalue : ∀ position < count, ∀ memory',
      (∀ cell, (∀ other < position,
        cell < address other ∨ address other + type.size ≤ cell) → memory' cell = memory cell) →
      value position memory' = value position memory) :
    (List.range count).foldl (fun memory position =>
        type.store memory (address position) (value position memory)) memory =
      (List.range count).foldl (fun memory' position =>
        type.store memory' (address position) (value position memory)) memory := by
  induction count with
  | zero => rfl
  | succ count ih =>
    rw [List.range_succ, List.foldl_concat, List.foldl_concat,
      ih fun position hposition => hvalue position (Nat.lt_succ_of_lt hposition)]
    congr 1
    exact hvalue count (Nat.lt_succ_self count) _ fun cell hcell =>
      foldl_store_outside type count memory hcell

section Stores

variable {blocks threadsPerBlock count : Nat} {type : LocalRepresentation Cell V}
  {address : Nat → Nat} {value : Nat → Program (Nat → Cell) V}

/-- The threads of a grid store one element for each position, with a value that they read from
cells of no other position's element.  They leave what the plain loop leaves. -/
theorem gridStride_stores {reads : Nat → Set Nat} (hblocks : 0 < blocks)
    (hthreads : 0 < threadsPerBlock)
    (hvalue : ∀ position < count, (value position).Within (reads position) ∅)
    (happart : ElementsApart type.size count address)
    (hreads : ∀ position < count, ∀ other < count, position ≠ other →
      Disjoint (elementCells type.toRepresentation (address other)) (reads position))
    (memory : Nat → Cell) :
    EndsIn (gridStride blocks threadsPerBlock count fun position => do
        let result ← value position
        store type.toRepresentation (address position) result) memory
      ((List.range count).foldl (fun memory position =>
        type.store memory (address position) ((value position).exec memory).1) memory) := by
  have hends := @gridStride_ends blocks threadsPerBlock _ _ count (fun position => do
    let result ← value position
    store type.toRepresentation (address position) result) reads
    (fun position => elementCells type.toRepresentation (address position)) hblocks hthreads
    ?_ ?_ memory
  · rw [exec_forM_eq_foldl] at hends
    convert hends using 1
    apply List.foldl_ext
    intro memory position hposition
    rw [exec_bind, exec_readOnly (hvalue position (List.mem_range.1 hposition))]
    rfl
  · intro position hposition other hother hne
    rw [List.mem_range] at hposition hother
    rw [Set.disjoint_union_right]
    exact ⟨hreads position hposition other hother hne,
      disjoint_elementCells (happart other hother position hposition hne.symm)⟩
  · intro position hposition
    apply Within.bind
    · exact (hvalue position hposition).mono Set.subset_union_left (Set.empty_subset _)
    · exact fun result => within_store type result subset_rfl

/-- The threads of a grid that read apart of what the other positions store leave the values that
they find at the beginning. -/
theorem gridStride_maps {reads : Nat → Set Nat} (hblocks : 0 < blocks)
    (hthreads : 0 < threadsPerBlock)
    (hvalue : ∀ position < count, (value position).Within (reads position) ∅)
    (happart : ElementsApart type.size count address)
    (hreads : ∀ position < count, ∀ other < count, position ≠ other →
      Disjoint (elementCells type.toRepresentation (address other)) (reads position))
    (memory : Nat → Cell) :
    EndsIn (gridStride blocks threadsPerBlock count fun position => do
        let result ← value position
        store type.toRepresentation (address position) result) memory
      ((List.range count).foldl (fun memory' position =>
        type.store memory' (address position) ((value position).exec memory).1) memory) := by
  have hinitial := @foldl_store_initial _ _ type.toRepresentation count address
    (fun position memory => ((value position).exec memory).1) memory ?_
  · exact hinitial ▸ gridStride_stores hblocks hthreads hvalue happart hreads memory
  · intro position hposition memory' hsame
    refine (exec_congr (hvalue position hposition) fun cell hcell => ?_).1
    apply hsame cell
    intro other hother
    rcases hcell with hread | hwritten
    · have hapart := Set.disjoint_left.1 (hreads position hposition other
        (hother.trans hposition) hother.ne')
      by_contra hinside
      exact hapart (show address other ≤ cell ∧ cell < address other + type.size by omega) hread
    · exact absurd hwritten (Set.notMem_empty cell)

end Stores

/-! ## Lists in the memory -/

/-- The values at the first places. -/
def stored (type : Representation Cell V) (address : Nat → Nat) (memory : Nat → Cell)
    (count : Nat) : List V :=
  (List.range count).map fun place => type.load memory (address place)

section Lists

variable {type : Representation Cell V} {address : Nat → Nat} {memory memory' : Nat → Cell}
  {count bound : Nat}

@[simp] theorem length_stored : (stored type address memory count).length = count := by
  rw [stored, List.length_map, List.length_range]

theorem stored_succ : stored type address memory (count + 1) =
    stored type address memory count ++ [type.load memory (address count)] := by
  rw [stored, List.range_succ, List.map_append]
  rfl

theorem getElem_stored {place : Nat} (h : place < (stored type address memory count).length) :
    (stored type address memory count)[place] = type.load memory (address place) := by
  simp only [stored, List.getElem_map, List.getElem_range]

theorem stored_congr (h : ∀ place < count,
    type.load memory' (address place) = type.load memory (address place)) :
    stored type address memory' count = stored type address memory count :=
  List.map_congr_left fun place hplace => h place (List.mem_range.1 hplace)

theorem load_store_other (happart : ElementsApart type.size bound address) {place other : Nat}
    (hplace : place < bound) (hother : other < bound) (hne : place ≠ other) (value : V) :
    type.load (type.store memory (address other) value) (address place) =
      type.load memory (address place) :=
  type.load_store_of_disjoint type (happart place hplace other hother hne)

end Lists

end Library
end AscCpp
