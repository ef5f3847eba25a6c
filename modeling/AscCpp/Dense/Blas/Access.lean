import AscCpp.Dense.Blas.Matrix
import Mathlib.Algebra.Group.Nat.Defs

/-!
# Access — the elements of vectors, matrices and bands

`VectorAt`, `MatrixAt`, `GeneralBandAt` and `TriangularBandStoredAt`.  A band keeps each line of its
storage for a column or a row of the matrix, and each place of a line for a diagonal; the two kinds
of triangular bands are bands without a lower or without an upper part.

- `bandOffset_bounds`, `bandOffset_injective`: the elements of a band lie inside its storage, and
  apart.
- `DenseBlasVectorView.family`, `DenseBlasMatrixView.family`: the elements of a checked view share no
  cell.
-/

namespace AscCpp
namespace Dense
namespace Blas

open AscCpp.Core Library

variable {Cell V : Type} {type : Representation Cell V}

/-- The value of the element at an offset, which is counted in elements. -/
def elementAt (type : Representation Cell V) (data : Nat) (memory : Nat → Cell) (offset : Int) : V :=
  type.load memory (data + offset.toNat * type.size)

/-- An element of a storage is read in its bytes only. -/
theorem Spans.elementAt_congr {data : Nat} {span offset : Int} {reachable backing : ConstMemoryView}
    (h : Spans type data span reachable backing) (hnonneg : 0 ≤ offset) (hspan : offset < span)
    {memory memory' : Nat → Cell} (hagree : AgreeOn reachable.block memory memory') :
    elementAt type data memory offset = elementAt type data memory' offset := by
  have hinside := h.inside_block ⟨hnonneg, hspan⟩
  apply type.load_congr
  intro cell hfirst hlast
  exact hagree cell (hinside.1.trans hfirst) (hlast.trans_le hinside.2)

/-! ## Vectors -/

namespace DenseBlasVectorView

/-- The address of `data()[index * increment()]`. -/
def vectorAt (view : DenseBlasVectorView type) (index : Int) : Nat :=
  (view.data + index * view.increment * type.size).toNat

/-- The value of an element. -/
def value (view : DenseBlasVectorView type) (memory : Nat → Cell) (index : Int) : V :=
  type.load memory (view.vectorAt index)

variable {view : DenseBlasVectorView type}

/-- An element stands at its step from the first one, in the bytes that the view reaches. -/
theorem Checked.vectorAt_spec (h : view.Checked) {index : Int} (hindex : 0 ≤ index)
    (hlast : index < view.size) :
    (view.vectorAt index : Int) = view.data + index * view.increment * type.size ∧
      view.reachableData ≤ view.vectorAt index ∧
      view.vectorAt index + type.size ≤ view.reachableData + view.reachableSize := by
  rcases (h.spec (by omega)).2.2 with ⟨other, hother, hdata, hsize⟩
  have hbetween := @step_between index (view.size - 1) (view.increment * type.size) hindex
    (by omega)
  have haddress : (view.vectorAt index : Int) =
      view.data + index * (view.increment * type.size) := by
    unfold vectorAt
    rw [Int.mul_assoc]
    omega
  refine ⟨?_, ?_, ?_⟩
  · rw [haddress, Int.mul_assoc]
  · omega
  · omega

/-- A view is read in the bytes that it reaches. -/
theorem Checked.value_congr (h : view.Checked) {index : Int} (hindex : 0 ≤ index)
    (hlast : index < view.size) {memory memory' : Nat → Cell}
    (hagree : AgreeOn view.reachableStorage.block memory memory') :
    view.value memory index = view.value memory' index := by
  rcases (h.vectorAt_spec hindex hlast).2 with ⟨hfirst, hbehind⟩
  apply type.load_congr
  intro cell hcell hend
  exact hagree cell (hfirst.trans hcell) (hend.trans_le hbehind)

/-- The elements of a checked view. -/
def family (view : DenseBlasVectorView type) (h : view.Checked) :
    ElementFamily type (Fin view.size.toNat) where
  address index := view.vectorAt index.val
  apart index other hne := by
    have hindex := (h.vectorAt_spec (Int.natCast_nonneg index.val) (by omega)).1
    have hother := (h.vectorAt_spec (Int.natCast_nonneg other.val) (by omega)).1
    have hval : (index.val : Int) ≠ other.val := fun heq => hne (Fin.ext (Int.ofNat.inj heq))
    have hstep := @step_apart _ _ _ type.size hval h.increment_ne_zero
    omega

theorem family_inside (h : view.Checked) (index : Fin view.size.toNat) :
    view.reachableStorage.block.address ≤ (view.family h).address index ∧
      (view.family h).address index + type.size ≤
        view.reachableStorage.block.address + view.reachableStorage.block.size :=
  (h.vectorAt_spec (Int.natCast_nonneg index.val) (by omega)).2

end DenseBlasVectorView

/-- The numbers of the samples. -/
abbrev float64 : Representation Rat Rat := .uniform Rat 8 8 Representation.eight_pos

/-- Two elements, of which the first one stands behind the second. -/
def sampleVector : DenseBlasVectorView float64 :=
  ⟨80, 2, -2, ⟨64, 24, .host⟩, 64, 24⟩

/-! ## Full matrices -/

namespace DenseBlasMatrixView

def offset (view : DenseBlasMatrixView type) (row column : Int) : Int :=
  match view.layout with
  | .columnMajor => column * view.leadingDimension + row
  | .rowMajor => row * view.leadingDimension + column

/-- The address of `data()[offset]`. -/
def matrixAt (view : DenseBlasMatrixView type) (row column : Int) : Nat :=
  view.data + (view.offset row column).toNat * type.size

/-- The value of an element. -/
def value (view : DenseBlasMatrixView type) (memory : Nat → Cell) (row column : Int) : V :=
  elementAt type view.data memory (view.offset row column)

variable {view : DenseBlasMatrixView type}

theorem Checked.offset_bounds (h : view.Checked) {row column : Int}
    (hrow : 0 ≤ row ∧ row < view.rows) (hcolumn : 0 ≤ column ∧ column < view.columns) :
    0 ≤ view.offset row column ∧ view.offset row column <
      (view.layout.major view.rows view.columns - 1) * view.leadingDimension +
        view.layout.contiguous view.rows view.columns := by
  have hleading := h.extents.2.2.2
  unfold offset DenseBlasLayout.major DenseBlasLayout.contiguous at *
  cases hlayout : view.layout with
  | columnMajor =>
    rw [hlayout] at hleading
    exact line_bounds hcolumn.1 hcolumn.2 hrow.1 hrow.2 hleading
  | rowMajor =>
    rw [hlayout] at hleading
    exact line_bounds hrow.1 hrow.2 hcolumn.1 hcolumn.2 hleading

theorem Checked.offset_injective (h : view.Checked) {row column row' column' : Int}
    (hrow : 0 ≤ row ∧ row < view.rows) (hcolumn : 0 ≤ column ∧ column < view.columns)
    (hrow' : 0 ≤ row' ∧ row' < view.rows) (hcolumn' : 0 ≤ column' ∧ column' < view.columns)
    (heq : view.offset row column = view.offset row' column') : row = row' ∧ column = column' := by
  have hleading := h.extents.2.2.2
  unfold offset DenseBlasLayout.contiguous at *
  cases hlayout : view.layout with
  | columnMajor =>
    simp only [hlayout] at hleading heq
    exact (line_injective hrow.1 (by omega) hrow'.1 (by omega) heq).symm
  | rowMajor =>
    simp only [hlayout] at hleading heq
    exact line_injective hcolumn.1 (by omega) hcolumn'.1 (by omega) heq

/-- A view is read in the bytes that it reaches. -/
theorem Checked.value_congr (h : view.Checked) {row column : Int}
    (hrow : 0 ≤ row ∧ row < view.rows) (hcolumn : 0 ≤ column ∧ column < view.columns)
    {memory memory' : Nat → Cell} (hagree : AgreeOn view.reachableStorage.block memory memory') :
    view.value memory row column = view.value memory' row column :=
  have hbounds := h.offset_bounds hrow hcolumn
  (h.spans (by omega) (by omega)).elementAt_congr hbounds.1 hbounds.2 hagree

/-- The elements of a checked view. -/
def family (view : DenseBlasMatrixView type) (h : view.Checked) :
    ElementFamily type (Fin view.rows.toNat × Fin view.columns.toNat) :=
  .ofOffsets type view.data (fun item => view.offset item.1.val item.2.val)
    (fun item => (h.offset_bounds ⟨by omega, by omega⟩ ⟨by omega, by omega⟩).1)
    (fun item other heq => by
      have hinjective := h.offset_injective ⟨by omega, by omega⟩ ⟨by omega, by omega⟩
        ⟨by omega, by omega⟩ ⟨by omega, by omega⟩ heq
      exact Prod.ext (Fin.ext (Int.ofNat.inj hinjective.1)) (Fin.ext (Int.ofNat.inj hinjective.2)))

/-- The elements lie in the bytes that the view reaches. -/
theorem family_inside (h : view.Checked)
    (item : Fin view.rows.toNat × Fin view.columns.toNat) :
    view.reachableStorage.block.address ≤ (view.family h).address item ∧
      (view.family h).address item + type.size ≤
        view.reachableStorage.block.address + view.reachableStorage.block.size := by
  have hrow := item.1.isLt
  have hcolumn := item.2.isLt
  have hbounds := @Checked.offset_bounds _ _ _ _ h item.1.val item.2.val ⟨by omega, by omega⟩
    ⟨by omega, by omega⟩
  exact (h.spans (by omega) (by omega)).inside_block hbounds

end DenseBlasMatrixView

/-! ## Bands -/

/-- The element lies on a diagonal of the band. -/
def InBand (lower upper row column : Int) : Prop :=
  column ≤ row + upper ∧ row ≤ column + lower

instance (lower upper row column : Int) : Decidable (InBand lower upper row column) :=
  inferInstanceAs (Decidable (_ ∧ _))

/-- The line of an element and the place of its diagonal in the line. -/
def bandOffset (layout : DenseBlasLayout) (leadingDimension lower upper row column : Int) : Int :=
  match layout with
  | .columnMajor => column * leadingDimension + (upper + row - column)
  | .rowMajor => row * leadingDimension + (lower + column - row)

section Bands

variable {layout : DenseBlasLayout} {leadingDimension lower upper row column : Int}

theorem bandOffset_bounds {lines : Int} (hleading : lower + upper + 1 ≤ leadingDimension)
    (hband : InBand lower upper row column) (hline : 0 ≤ layout.major row column)
    (hlines : layout.major row column < lines) :
    0 ≤ bandOffset layout leadingDimension lower upper row column ∧
      bandOffset layout leadingDimension lower upper row column < lines * leadingDimension := by
  rcases hband with ⟨hupper, hlower⟩
  have hspan : (lines - 1) * leadingDimension + leadingDimension = lines * leadingDimension := by
    rw [Int.sub_mul, Int.one_mul, Int.sub_add_cancel]
  cases layout with
  | columnMajor =>
    have hbounds := @line_bounds column lines leadingDimension (upper + row - column)
      leadingDimension hline hlines (by omega) (by omega) le_rfl
    simp only [bandOffset]
    omega
  | rowMajor =>
    have hbounds := @line_bounds row lines leadingDimension (lower + column - row)
      leadingDimension hline hlines (by omega) (by omega) le_rfl
    simp only [bandOffset]
    omega

theorem bandOffset_injective {row' column' : Int} (hleading : lower + upper + 1 ≤ leadingDimension)
    (hband : InBand lower upper row column) (hband' : InBand lower upper row' column')
    (heq : bandOffset layout leadingDimension lower upper row column =
      bandOffset layout leadingDimension lower upper row' column') :
    row = row' ∧ column = column' := by
  unfold InBand at hband hband'
  cases layout with
  | columnMajor =>
    have hplace := line_injective (by omega) (by omega) (by omega) (by omega) heq
    omega
  | rowMajor =>
    have hplace := line_injective (by omega) (by omega) (by omega) (by omega) heq
    omega

end Bands

/-! ### General bands -/

namespace DenseBlasBandMatrixView

def offset (view : DenseBlasBandMatrixView type) (row column : Int) : Int :=
  match view.layout with
  | .columnMajor => column * view.leadingDimension + view.upperBandwidth + row - column
  | .rowMajor => row * view.leadingDimension + view.lowerBandwidth + column - row

def generalBandAt [Zero V] (view : DenseBlasBandMatrixView type) (memory : Nat → Cell)
    (row column : Int) : V :=
  if column > row + view.upperBandwidth ∨ row > column + view.lowerBandwidth then
    0
  else
    elementAt type view.data memory (view.offset row column)

theorem offset_eq (view : DenseBlasBandMatrixView type) (row column : Int) :
    view.offset row column = bandOffset view.layout view.leadingDimension view.lowerBandwidth
      view.upperBandwidth row column := by
  unfold offset bandOffset
  cases view.layout <;> simp only <;> omega

variable {view : DenseBlasBandMatrixView type}

theorem generalBandAt_eq [Zero V] (memory : Nat → Cell) (row column : Int) :
    view.generalBandAt memory row column =
      if InBand view.lowerBandwidth view.upperBandwidth row column then
        elementAt type view.data memory (view.offset row column)
      else 0 := by
  have houtside : (column > row + view.upperBandwidth ∨ row > column + view.lowerBandwidth) ↔
      ¬ InBand view.lowerBandwidth view.upperBandwidth row column := by
    unfold InBand
    omega
  rw [generalBandAt, if_congr houtside rfl rfl, ite_not]

theorem Checked.offset_bounds (h : view.Checked) {row column : Int}
    (hrow : 0 ≤ row ∧ row < view.rows) (hcolumn : 0 ≤ column ∧ column < view.columns)
    (hband : InBand view.lowerBandwidth view.upperBandwidth row column) :
    0 ≤ view.offset row column ∧ view.offset row column <
      view.layout.major view.rows view.columns * view.leadingDimension := by
  rw [view.offset_eq]
  apply bandOffset_bounds h.extents.2.2.2.2 hband
  · cases view.layout <;> simp only [DenseBlasLayout.major] <;> omega
  · cases view.layout <;> simp only [DenseBlasLayout.major] <;> omega

/-- A view is read in the bytes that it reaches. -/
theorem Checked.generalBandAt_congr [Zero V] (h : view.Checked) {row column : Int}
    (hrow : 0 ≤ row ∧ row < view.rows) (hcolumn : 0 ≤ column ∧ column < view.columns)
    {memory memory' : Nat → Cell} (hagree : AgreeOn view.reachableStorage.block memory memory') :
    view.generalBandAt memory row column = view.generalBandAt memory' row column := by
  rw [generalBandAt_eq, generalBandAt_eq]
  split
  · have hbounds := h.offset_bounds hrow hcolumn ‹_›
    exact (h.spans (by omega) (by omega)).elementAt_congr hbounds.1 hbounds.2 hagree
  · rfl

end DenseBlasBandMatrixView

/-! ### Triangular bands -/

namespace DenseBlasTriangularBandView

/-- The test that makes `TriangularBandStoredAt` return zero. -/
def Outside (triangle : DenseBlasTriangle) (bandwidth row column : Int) : Prop :=
  match triangle with
  | .upper => column < row ∨ column > row + bandwidth
  | .lower => row < column ∨ row > column + bandwidth

instance (triangle : DenseBlasTriangle) (bandwidth row column : Int) :
    Decidable (Outside triangle bandwidth row column) :=
  match triangle with
  | .upper => inferInstanceAs (Decidable (column < row ∨ column > row + bandwidth))
  | .lower => inferInstanceAs (Decidable (row < column ∨ row > column + bandwidth))

def offset (view : DenseBlasTriangularBandView type) (triangle : DenseBlasTriangle)
    (row column : Int) : Int :=
  match view.layout, triangle with
  | .columnMajor, .upper => column * view.leadingDimension + view.bandwidth + row - column
  | .columnMajor, .lower => column * view.leadingDimension + row - column
  | .rowMajor, .upper => row * view.leadingDimension + column - row
  | .rowMajor, .lower => row * view.leadingDimension + view.bandwidth + column - row

def triangularBandStoredAt [Zero V] (view : DenseBlasTriangularBandView type)
    (memory : Nat → Cell) (triangle : DenseBlasTriangle) (row column : Int) : V :=
  if Outside triangle view.bandwidth row column then
    0
  else
    elementAt type view.data memory (view.offset triangle row column)

/-- The widths of the band below and above the diagonal. -/
def lowerBandwidth (view : DenseBlasTriangularBandView type) : DenseBlasTriangle → Int
  | .upper => 0
  | .lower => view.bandwidth

def upperBandwidth (view : DenseBlasTriangularBandView type) : DenseBlasTriangle → Int
  | .upper => view.bandwidth
  | .lower => 0

theorem offset_eq (view : DenseBlasTriangularBandView type) (triangle : DenseBlasTriangle)
    (row column : Int) :
    view.offset triangle row column = bandOffset view.layout view.leadingDimension
      (view.lowerBandwidth triangle) (view.upperBandwidth triangle) row column := by
  unfold offset bandOffset lowerBandwidth upperBandwidth
  cases view.layout <;> cases triangle <;> simp only <;> omega

variable {view : DenseBlasTriangularBandView type} {triangle : DenseBlasTriangle}

theorem triangularBandStoredAt_eq [Zero V] (memory : Nat → Cell) (row column : Int) :
    view.triangularBandStoredAt memory triangle row column =
      if InBand (view.lowerBandwidth triangle) (view.upperBandwidth triangle) row column then
        elementAt type view.data memory (view.offset triangle row column)
      else 0 := by
  have houtside : Outside triangle view.bandwidth row column ↔
      ¬ InBand (view.lowerBandwidth triangle) (view.upperBandwidth triangle) row column := by
    unfold Outside InBand lowerBandwidth upperBandwidth
    cases triangle <;> simp only <;> omega
  rw [triangularBandStoredAt, if_congr houtside rfl rfl, ite_not]

theorem Checked.band_le (h : view.Checked) (triangle : DenseBlasTriangle) :
    view.lowerBandwidth triangle + view.upperBandwidth triangle + 1 ≤ view.leadingDimension := by
  have hextents := h.extents
  cases triangle <;> simp only [lowerBandwidth, upperBandwidth] <;> omega

theorem Checked.offset_bounds (h : view.Checked) {row column : Int}
    (hrow : 0 ≤ row ∧ row < view.order) (hcolumn : 0 ≤ column ∧ column < view.order)
    (hband : InBand (view.lowerBandwidth triangle) (view.upperBandwidth triangle) row column) :
    0 ≤ view.offset triangle row column ∧
      view.offset triangle row column < view.order * view.leadingDimension := by
  rw [view.offset_eq]
  apply bandOffset_bounds (h.band_le triangle) hband
  · cases view.layout <;> simp only [DenseBlasLayout.major] <;> omega
  · cases view.layout <;> simp only [DenseBlasLayout.major] <;> omega

/-- A view is read in the bytes that it reaches. -/
theorem Checked.triangularBandStoredAt_congr [Zero V] (h : view.Checked) {row column : Int}
    (hrow : 0 ≤ row ∧ row < view.order) (hcolumn : 0 ≤ column ∧ column < view.order)
    {memory memory' : Nat → Cell} (hagree : AgreeOn view.reachableStorage.block memory memory') :
    view.triangularBandStoredAt memory triangle row column =
      view.triangularBandStoredAt memory' triangle row column := by
  rw [triangularBandStoredAt_eq, triangularBandStoredAt_eq]
  split
  · have hbounds := h.offset_bounds hrow hcolumn ‹_›
    exact (h.spans (by omega)).elementAt_congr hbounds.1 hbounds.2 hagree
  · rfl

end DenseBlasTriangularBandView

end Blas
end Dense
end AscCpp
