import AscCpp.Core.Effect
import AscCpp.Sparse.CompressedView
import AscCpp.Sparse.CoordinateView

/-!
# PlacedStructure — the structure of a sparse view in memory

A view points to its coordinates, offsets and indices.  What it reads there is what memory holds at
the time, which is the structure that `Create` has checked as long as nothing writes to it.

- `CoordinateView.placed`, `CompressedSparseView.placed`: a view with the structure that memory
  holds.
- `placed_congr`: memories that agree on the structure hold the same one.
-/

namespace AscCpp
namespace Sparse

open AscCpp.Core Library

variable {Cell E : Type}

/-- A representation of `index_t` and of `nnz_t`. -/
structure IndexRepresentation (Cell : Type) extends Representation Cell Int where
  size_eq : size = indexSize

/-- The integers behind an address. -/
def loadIndices (index : IndexRepresentation Cell) (memory : Nat → Cell) (address count : Nat) :
    Pointer Int :=
  ⟨address, (List.range count).map fun position =>
    index.load memory (address + position * indexSize)⟩

theorem loadIndices_congr {index : IndexRepresentation Cell} {memory memory' : Nat → Cell}
    {address count : Nat} (h : AgreeOn ⟨address, count * indexSize⟩ memory memory') :
    loadIndices index memory address count = loadIndices index memory' address count := by
  unfold loadIndices
  congr 1
  apply List.map_congr_left
  intro position hposition
  rw [← index.size_eq] at h ⊢
  exact load_congr_block h (List.mem_range.1 hposition)

namespace CoordinateView

/-- The bytes of the coordinates. -/
def coordinateSpan (view : CoordinateView E 1) : Block :=
  ⟨view.coordinates.address, view.nonzeros * indexSize⟩

/-- The view with the coordinates that memory holds. -/
def placed (index : IndexRepresentation Cell) (view : CoordinateView E 1) (memory : Nat → Cell) :
    CoordinateView E 1 :=
  { view with
    coordinates := ⟨view.coordinates.address,
      (loadIndices index memory view.coordinates.address view.nonzeros).cells.map
        (· ::ᵥ List.Vector.nil)⟩ }

theorem placed_congr {index : IndexRepresentation Cell} {view : CoordinateView E 1}
    {memory memory' : Nat → Cell} (h : AgreeOn view.coordinateSpan memory memory') :
    view.placed index memory = view.placed index memory' := by
  rw [placed, placed, loadIndices_congr h]

end CoordinateView

namespace CompressedSparseView

variable {format : SparseCompressedFormat}

/-- The bytes of the outer offsets. -/
def offsetSpan (view : CompressedSparseView E format) : Block :=
  ⟨view.outerOffsets.address, (view.outerExtent + 1).toNat * indexSize⟩

/-- The bytes of the inner indices. -/
def indexSpan (view : CompressedSparseView E format) : Block :=
  ⟨view.innerIndices.address, view.nonzeros * indexSize⟩

/-- The view with the offsets and indices that memory holds. -/
def placed (index : IndexRepresentation Cell) (view : CompressedSparseView E format)
    (memory : Nat → Cell) : CompressedSparseView E format :=
  { view with
    outerOffsets :=
      loadIndices index memory view.outerOffsets.address (view.outerExtent + 1).toNat
    innerIndices := loadIndices index memory view.innerIndices.address view.nonzeros }

theorem placed_congr {index : IndexRepresentation Cell} {view : CompressedSparseView E format}
    {memory memory' : Nat → Cell} (hoffsets : AgreeOn view.offsetSpan memory memory')
    (hindices : AgreeOn view.indexSpan memory memory') :
    view.placed index memory = view.placed index memory' := by
  rw [placed, placed, loadIndices_congr hoffsets, loadIndices_congr hindices]

end CompressedSparseView

end Sparse
end AscCpp
