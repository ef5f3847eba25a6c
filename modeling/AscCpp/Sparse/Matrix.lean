import AscCpp.Core.Effect
import AscCpp.Library.KeyedSum
import AscCpp.Sparse.Adapter
import AscCpp.Sparse.Lookup
import Mathlib.Algebra.BigOperators.Ring.Finset
import Mathlib.Data.Fintype.BigOperators

/-!
# Matrix — the dense matrix of a compressed view

The value at a coordinate is that of the stored entry, or zero.

- `CompressedSparseView.sum_matrixEntries`: a sum over the stored entries is a sum over the matrix.
- `CompressedSparseView.sum_slice`: a sum over a slice is a sum over a row, or a column.
-/

namespace AscCpp
namespace Sparse

open AscCpp.Core Library

namespace CompressedSparseView

variable {Cell V : Type} [Ring V] [DecidableEq V] {type : Representation Cell V}
  {format : SparseCompressedFormat}

/-- The stored value at a position. -/
def storedValue (view : CompressedSparseView (Stored type) format) (memory : Nat → Cell)
    (position : Nat) : V :=
  type.load memory (view.values.address + position * type.size)

/-- The stored entries, with the values that memory holds. -/
def matrixEntries (view : CompressedSparseView (Stored type) format) (memory : Nat → Cell) :
    List (Coordinate 2 × V) :=
  segments (fun outer => (view.outerOffsets.read outer).toNat) view.outerExtent.toNat
    fun outer position =>
      (compressedCoordinate format outer (view.innerIndices.read position),
        view.storedValue memory position)

/-- The value of the matrix in a row and a column. -/
def matrixValue (view : CompressedSparseView (Stored type) format) (memory : Nat → Cell)
    (row column : Int) : V :=
  keyedSum (view.matrixEntries memory) ⟨[row, column], length_pair row column⟩

def rows (view : CompressedSparseView (Stored type) format) : Int :=
  view.shape.get 0

def columns (view : CompressedSparseView (Stored type) format) : Int :=
  view.shape.get 1

variable {view : CompressedSparseView (Stored type) format}

theorem Checked.canonical (h : view.Checked) (hhost : view.memorySpace = .host) :
    view.CanonicalArrays :=
  (h.accepts hhost).canonical

theorem CanonicalArrays.load_entries (h : view.CanonicalArrays) (memory : Nat → Cell) :
    (view.load memory).entries = view.matrixEntries memory := by
  apply segments_congr
  intro outer houter position _ hlast
  have hle : view.outerOffsets.read (outer + 1) ≤ view.nonzeros := h.offset_le houter
  have hposition : position < view.nonzeros := by
    have hbound : position < (view.outerOffsets.read (outer + 1)).toNat := hlast
    omega
  have hvalue := @loadValues_read _ _ type _ memory view.values.address _ _ hposition
  simp only [load, hvalue]
  rfl

theorem CanonicalArrays.matrixEntries_ordered (h : view.CanonicalArrays) (memory : Nat → Cell) :
    OrderedBy format (view.matrixEntries memory) := by
  have hload : (view.load memory).CanonicalArrays := h
  rw [← h.load_entries]
  exact hload.entries_ordered

theorem CanonicalArrays.matrixEntries_inRange (h : view.CanonicalArrays) (memory : Nat → Cell) :
    ∀ entry ∈ view.matrixEntries memory, InRange entry.1 view.shape := by
  have hload : (view.load memory).CanonicalArrays := h
  rw [← h.load_entries]
  exact hload.entries_inRange

omit [Ring V] [DecidableEq V] in
/-- The position of an entry lies inside the arrays. -/
theorem CanonicalArrays.position_lt (h : view.CanonicalArrays) {outer position : Nat}
    (houter : outer < view.outerExtent.toNat)
    (hlast : position < (view.outerOffsets.read (outer + 1)).toNat) :
    position < view.nonzeros := by
  have hle : view.outerOffsets.read (outer + 1) ≤ view.nonzeros := h.offset_le houter
  omega

omit [Ring V] [DecidableEq V] in
/-- The entries are read in the bytes of the values only. -/
theorem CanonicalArrays.matrixEntries_congr (h : view.CanonicalArrays) {memory memory' : Nat → Cell}
    (hagree : AgreeOn view.valueSpan memory memory') :
    view.matrixEntries memory = view.matrixEntries memory' := by
  apply segments_congr
  intro outer houter position _ hlast
  have hvalue : view.storedValue memory position = view.storedValue memory' position :=
    load_congr_block hagree (h.position_lt houter hlast)
  rw [hvalue]

/-! ## Sums over stored entries -/

omit [Ring V] [DecidableEq V] in
theorem inRange_rows_columns {coordinate : Coordinate 2} (h : InRange coordinate view.shape) :
    (0 ≤ coordinate.get 0 ∧ coordinate.get 0 < view.rows) ∧
      0 ≤ coordinate.get 1 ∧ coordinate.get 1 < view.columns :=
  (@inRange_iff .csr _ _).1 h

/-- The coordinate of a row and a column that are counted. -/
def cellOf {rowCount columnCount : Nat} (cell : Fin rowCount × Fin columnCount) : Coordinate 2 :=
  ⟨[(cell.1.val : Int), (cell.2.val : Int)], rfl⟩

theorem cellOf_injective {rowCount columnCount : Nat} :
    Function.Injective (@cellOf rowCount columnCount) := by
  intro left right h
  have hlist := congrArg List.Vector.toList h
  simp only [cellOf, List.Vector.toList, List.cons.injEq, Nat.cast_inj, and_true] at hlist
  exact Prod.ext (Fin.ext hlist.1) (Fin.ext hlist.2)

omit [Ring V] [DecidableEq V] in
theorem mem_cells {coordinate : Coordinate 2} (h : InRange coordinate view.shape) :
    coordinate ∈ (Finset.univ : Finset (Fin view.rows.toNat × Fin view.columns.toNat)).image
      cellOf := by
  rcases inRange_rows_columns h with ⟨hrow, hcolumn⟩
  rw [Finset.mem_image]
  refine ⟨(⟨(coordinate.get 0).toNat, by omega⟩, ⟨(coordinate.get 1).toNat, by omega⟩),
    Finset.mem_univ _, ?_⟩
  refine Eq.trans (Subtype.ext ?_) (coordinate_eq coordinate).symm
  change [((coordinate.get 0).toNat : Int), ((coordinate.get 1).toNat : Int)] =
    [coordinate.get 0, coordinate.get 1]
  rw [Int.toNat_of_nonneg hrow.1, Int.toNat_of_nonneg hcolumn.1]

/-- A sum over the stored entries is a sum over the matrix. -/
theorem CanonicalArrays.sum_matrixEntries {W : Type} [AddCommMonoid W] (h : view.CanonicalArrays)
    (memory : Nat → Cell) (weight : Int → Int → V →+ W) :
    ((view.matrixEntries memory).map fun entry =>
        weight (entry.1.get 0) (entry.1.get 1) entry.2).sum =
      ∑ row : Fin view.rows.toNat, ∑ column : Fin view.columns.toNat,
        weight row.val column.val (view.matrixValue memory row.val column.val) := by
  rw [sum_entries (fun entry hentry => mem_cells (h.matrixEntries_inRange memory entry hentry))
    fun coordinate => weight (coordinate.get 0) (coordinate.get 1),
    Finset.sum_image cellOf_injective.injOn, Fintype.sum_prod_type]
  rfl

/-- A sum over the slice of a row is a sum over that row of the matrix. -/
theorem CanonicalArrays.sum_row {W : Type} [AddCommMonoid W]
    {view : CompressedSparseView (Stored type) .csr} (h : view.CanonicalArrays)
    (memory : Nat → Cell) (weight : Int → V →+ W) (row : Fin view.rows.toNat) :
    ((List.range' (view.outerOffsets.read row.val).toNat
        ((view.outerOffsets.read (row.val + 1)).toNat -
          (view.outerOffsets.read row.val).toNat)).map fun position =>
      weight (view.innerIndices.read position) (view.storedValue memory position)).sum =
      ∑ column : Fin view.columns.toNat,
        weight column.val (view.matrixValue memory row.val column.val) := by
  -- Weights that vanish off the row turn the sum over the matrix into one over the row.
  let rowWeight : Int → Int → V →+ W := fun other => if other = row.val then weight else 0
  have houter : row.val < view.outerExtent.toNat := row.isLt
  have hsum := h.sum_matrixEntries memory rowWeight
  rw [matrixEntries, sum_segments_single (fun other position hother => ?_), if_pos houter] at hsum
  · calc
      _ = ((List.range' (view.outerOffsets.read row.val).toNat
            ((view.outerOffsets.read (row.val + 1)).toNat -
              (view.outerOffsets.read row.val).toNat)).map fun position =>
          rowWeight row.val (view.innerIndices.read position)
            (view.storedValue memory position)).sum := by simp only [rowWeight, if_true]
      _ = ∑ other : Fin view.rows.toNat, ∑ column : Fin view.columns.toNat,
            rowWeight other.val column.val (view.matrixValue memory other.val column.val) := hsum
      _ = ∑ column : Fin view.columns.toNat,
            rowWeight row.val column.val (view.matrixValue memory row.val column.val) := by
          apply Fintype.sum_eq_single
          intro other hother
          have hne : ((other.val : Nat) : Int) ≠ row.val := fun heq =>
            hother (Fin.ext (Int.ofNat.inj heq))
          simp [rowWeight, hne]
      _ = _ := by simp only [rowWeight, if_true]
  · have hne : ((other : Nat) : Int) ≠ row.val := fun heq => hother (Int.ofNat.inj heq)
    change rowWeight other _ _ = 0
    simp [rowWeight, hne]

end CompressedSparseView

end Sparse
end AscCpp
