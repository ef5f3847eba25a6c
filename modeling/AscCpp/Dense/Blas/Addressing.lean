import AscCpp.Core.Arithmetic
import AscCpp.Dense.Blas.Access

/-!
# Addressing — element offsets stay within 64 bits and inside the storage

The offsets of the accesses, operator by operator in `index_t`: an intermediate value that does not
fit has no value.  `Create` computes the reachable span by other formulas, with checked arithmetic.

- `dense_blas_addressable`: no access to a stored element overflows, leaves the storage, or meets
  another element.
-/

namespace AscCpp
namespace Dense
namespace Blas

open AscCpp.Core Library

variable {Cell V : Type} {type : Representation Cell V}

/-! ## Offsets in `index_t` -/

namespace DenseBlasVectorView

def checkedOffset (view : DenseBlasVectorView type) (index : Int) : Option Int :=
  int64.arithmetic (index * view.increment)

end DenseBlasVectorView

namespace DenseBlasMatrixView

def checkedOffset (view : DenseBlasMatrixView type) (row column : Int) : Option Int :=
  match view.layout with
  | .columnMajor => do
    let line ← int64.arithmetic (column * view.leadingDimension)
    int64.arithmetic (line + row)
  | .rowMajor => do
    let line ← int64.arithmetic (row * view.leadingDimension)
    int64.arithmetic (line + column)

end DenseBlasMatrixView

namespace DenseBlasBandMatrixView

def checkedOffset (view : DenseBlasBandMatrixView type) (row column : Int) : Option Int :=
  match view.layout with
  | .columnMajor => do
    let line ← int64.arithmetic (column * view.leadingDimension)
    let first ← int64.arithmetic (line + view.upperBandwidth)
    let place ← int64.arithmetic (first + row)
    int64.arithmetic (place - column)
  | .rowMajor => do
    let line ← int64.arithmetic (row * view.leadingDimension)
    let first ← int64.arithmetic (line + view.lowerBandwidth)
    let place ← int64.arithmetic (first + column)
    int64.arithmetic (place - row)

/-- The tests and the offset of `GeneralBandAt`; the inner `none` stands for the zero off the
band. -/
def checkedBandAt (view : DenseBlasBandMatrixView type) (row column : Int) :
    Option (Option Int) := do
  let upperEnd ← int64.arithmetic (row + view.upperBandwidth)
  if column > upperEnd then
    some none
  else do
    let lowerEnd ← int64.arithmetic (column + view.lowerBandwidth)
    if row > lowerEnd then
      some none
    else
      (view.checkedOffset row column).map some

end DenseBlasBandMatrixView

namespace DenseBlasTriangularBandView

def checkedOffset (view : DenseBlasTriangularBandView type) (triangle : DenseBlasTriangle)
    (row column : Int) : Option Int :=
  match view.layout, triangle with
  | .columnMajor, .upper => do
    let line ← int64.arithmetic (column * view.leadingDimension)
    let first ← int64.arithmetic (line + view.bandwidth)
    let place ← int64.arithmetic (first + row)
    int64.arithmetic (place - column)
  | .columnMajor, .lower => do
    let line ← int64.arithmetic (column * view.leadingDimension)
    let place ← int64.arithmetic (line + row)
    int64.arithmetic (place - column)
  | .rowMajor, .upper => do
    let line ← int64.arithmetic (row * view.leadingDimension)
    let place ← int64.arithmetic (line + column)
    int64.arithmetic (place - row)
  | .rowMajor, .lower => do
    let line ← int64.arithmetic (row * view.leadingDimension)
    let first ← int64.arithmetic (line + view.bandwidth)
    let place ← int64.arithmetic (first + column)
    int64.arithmetic (place - row)

/-- The tests and the offset of `TriangularBandStoredAt`. -/
def checkedBandAt (view : DenseBlasTriangularBandView type) (triangle : DenseBlasTriangle)
    (row column : Int) : Option (Option Int) :=
  match triangle with
  | .upper =>
    if column < row then
      some none
    else do
      let upperEnd ← int64.arithmetic (row + view.bandwidth)
      if column > upperEnd then some none
      else (view.checkedOffset .upper row column).map some
  | .lower =>
    if row < column then
      some none
    else do
      let lowerEnd ← int64.arithmetic (column + view.bandwidth)
      if row > lowerEnd then some none
      else (view.checkedOffset .lower row column).map some

end DenseBlasTriangularBandView

/-! ## Descriptors whose elements can be addressed -/

/-- The offsets of the stored items are computed without leaving 64 bits, lie inside the reachable
storage, which lies inside the backing span, and are different for different items. -/
structure Addressable (type : Representation Cell V) {ι : Type} (Stored : ι → Prop)
    (offset : ι → Option Int) (data : Nat) (reachable backing : ConstMemoryView) : Prop where
  inside : ∀ item, Stored item → ∃ exact, offset item = some exact ∧
    (reachable.data : Int) ≤ data + exact * type.size ∧
    data + exact * type.size + type.size ≤ reachable.data + reachable.size
  backed : ∀ item, Stored item → Contains backing reachable
  apart : ∀ item other, Stored item → Stored other → offset item = offset other → item = other

theorem arithmetic_int64 {exact : Int} (hlower : -2 ^ 63 ≤ exact) (hupper : exact < 2 ^ 63) :
    int64.arithmetic exact = some exact := by
  apply IntegerType.arithmetic_of_representable rfl
  constructor
  · simpa [IntegerType.minimum, int64] using hlower
  · simp only [IntegerType.maximum, int64, if_true]
    omega

/-- Elements at known places of one storage. -/
theorem Addressable.of_spans {ι : Type} {Stored : ι → Prop} {offset : ι → Option Int}
    (place : ι → Int) {data : Nat} {span : Int} {reachable backing : ConstMemoryView}
    (hspans : ∀ item, Stored item → Spans type data span reachable backing)
    (hoffset : ∀ item, Stored item → offset item = some (place item))
    (hbounds : ∀ item, Stored item → 0 ≤ place item ∧ place item < span)
    (hinjective : ∀ item other, Stored item → Stored other → place item = place other →
      item = other) :
    Addressable type Stored offset data reachable backing where
  inside item hitem :=
    ⟨place item, hoffset item hitem,
      (hspans item hitem).inside (hbounds item hitem).1 (hbounds item hitem).2⟩
  backed item hitem := (hspans item hitem).backed
  apart item other hitem hother heq := by
    rw [hoffset item hitem, hoffset other hother] at heq
    exact hinjective item other hitem hother (Option.some.inj heq)

/-- A span is a number of elements that `index_t` holds. -/
theorem Spans.span_lt {data : Nat} {span : Int} {reachable backing : ConstMemoryView}
    (h : Spans type data span reachable backing) : span < 2 ^ 63 := by
  have hfits := h.fits
  have hbytes := Int.mul_le_mul_of_nonneg_left (Int.ofNat_le.2 type.size_pos) h.positive.le
  simp only [IntegerType.maximum, int64, if_true] at hfits
  push_cast at hbytes
  omega

/-- With elements of a supported size, it is less than a fourth of that. -/
theorem Spans.span_small {data : Nat} {span : Int} {reachable backing : ConstMemoryView}
    (h : Spans type data span reachable backing) (hsize : SupportedSize type) :
    4 * span < 2 ^ 63 := by
  have hpositive := h.positive
  have hfits := h.fits
  simp only [IntegerType.maximum, int64, if_true] at hfits
  rcases hsize with hsize | hsize | hsize <;> rw [hsize] at hfits <;> push_cast at hfits <;> omega

/-- The lines of a storage are at most as many as its elements, and so are the places of one. -/
theorem lines_le {line lines step : Int} (hline : 0 ≤ line) (hlines : line < lines)
    (hstep : 0 < step) :
    0 ≤ line * step ∧ line * step + step ≤ lines * step ∧ line + 1 ≤ lines * step := by
  have hlower := Int.mul_nonneg hline hstep.le
  have hupper := Int.mul_le_mul_of_nonneg_right (Int.add_one_le_of_lt hlines) hstep.le
  have hcount := Int.mul_le_mul_of_nonneg_left (Int.add_one_le_of_lt hstep)
    (by omega : 0 ≤ line + 1)
  rw [Int.add_mul, Int.one_mul] at hupper
  rw [Int.zero_add, Int.mul_one, Int.add_mul, Int.one_mul] at hcount
  exact ⟨hlower, hupper, hcount.trans hupper⟩

/-! ## The descriptors -/

theorem DenseBlasVectorView.Checked.addressable {view : DenseBlasVectorView type}
    (h : view.Checked) :
    Addressable type (fun index : Int => 0 ≤ index ∧ index < view.size) view.checkedOffset
      view.data view.reachableStorage view.backingStorage := by
  have hoffset : ∀ index : Int, 0 ≤ index ∧ index < view.size →
      view.checkedOffset index = some (index * view.increment) := by
    intro index hindex
    rcases (h.spec (by omega)).1 with ⟨hlower, hupper⟩
    have hbetween := @step_between index (view.size - 1) view.increment hindex.1 (by omega)
    have hminimum := int64.minimum_nonpos
    have hmaximum := int64.maximum_nonneg
    exact IntegerType.arithmetic_of_representable rfl ⟨by omega, by omega⟩
  refine ⟨fun index hindex => ?_, fun index hindex => (h.spec (by omega)).2.1,
    fun index other hindex hother heq => ?_⟩
  · rcases h.vectorAt_spec hindex.1 hindex.2 with ⟨haddress, hfirst, hbehind⟩
    refine ⟨_, hoffset index hindex, ?_, ?_⟩
    · simp only [reachableStorage]
      omega
    · simp only [reachableStorage]
      omega
  · rw [hoffset index hindex, hoffset other hother] at heq
    exact Int.eq_of_mul_eq_mul_right h.increment_ne_zero (Option.some.inj heq)

/-- An element of a line, computed in two steps. -/
theorem checkedLine_eq {line lines step place width : Int} (hline : 0 ≤ line) (hlines : line < lines)
    (hplace : 0 ≤ place) (hwidth : place < width) (hstep : width ≤ step)
    (hspan : (lines - 1) * step + width < 2 ^ 63) :
    (do
      let start ← int64.arithmetic (line * step)
      int64.arithmetic (start + place)) = some (line * step + place) := by
  have hbounds := line_bounds hline hlines hplace hwidth hstep
  have hstart := Int.mul_nonneg hline (by omega : 0 ≤ step)
  rw [arithmetic_int64 (by omega) (by omega), Option.bind_eq_bind, Option.bind_some,
    arithmetic_int64 (by omega) (by omega)]

theorem DenseBlasMatrixView.Checked.addressable {view : DenseBlasMatrixView type}
    (h : view.Checked) :
    Addressable type
      (fun item : Int × Int => (0 ≤ item.1 ∧ item.1 < view.rows) ∧
        0 ≤ item.2 ∧ item.2 < view.columns)
      (fun item => view.checkedOffset item.1 item.2) view.data view.reachableStorage
      view.backingStorage := by
  apply Addressable.of_spans (fun item : Int × Int => view.offset item.1 item.2)
    (fun item hitem => h.spans (by omega) (by omega))
  · intro item hitem
    have hspan := (h.spans (by omega) (by omega)).span_lt
    have hleading := h.extents.2.2.2
    unfold checkedOffset offset
    unfold DenseBlasLayout.major DenseBlasLayout.contiguous at hspan
    unfold DenseBlasLayout.contiguous at hleading
    -- The major index counts lines, the other one places within a line.
    cases hlayout : view.layout with
    | columnMajor =>
      rw [hlayout] at hspan hleading
      exact checkedLine_eq hitem.2.1 hitem.2.2 hitem.1.1 hitem.1.2 hleading hspan
    | rowMajor =>
      rw [hlayout] at hspan hleading
      exact checkedLine_eq hitem.1.1 hitem.1.2 hitem.2.1 hitem.2.2 hleading hspan
  · exact fun item hitem => h.offset_bounds hitem.1 hitem.2
  · exact fun item other hitem hother heq =>
      Prod.ext_iff.2 (h.offset_injective hitem.1 hitem.2 hother.1 hother.2 heq)

/-- An element of a band, computed in four steps. -/
theorem checkedPlace_eq {line lines step width row : Int} (hline : 0 ≤ line)
    (hlines : line < lines) (hwidth : 0 ≤ width) (hstep : width < step)
    (hrows : row ≤ line + step) (hplace : 0 ≤ width + row - line)
    (hspan : 4 * (lines * step) < 2 ^ 63) :
    (do
      let start ← int64.arithmetic (line * step)
      let first ← int64.arithmetic (start + width)
      let place ← int64.arithmetic (first + row)
      int64.arithmetic (place - line)) = some (line * step + width + row - line) := by
  have hlines := lines_le hline hlines (by omega : 0 < step)
  simp only [Option.bind_eq_bind]
  rw [arithmetic_int64 (by omega) (by omega), Option.bind_some,
    arithmetic_int64 (by omega) (by omega), Option.bind_some,
    arithmetic_int64 (by omega) (by omega), Option.bind_some,
    arithmetic_int64 (by omega) (by omega)]

/-- An element of a band that begins at its diagonal, computed in three steps. -/
theorem checkedDiagonal_eq {line lines step row : Int} (hline : 0 ≤ line) (hlines : line < lines)
    (hstep : 0 < step) (hrows : row ≤ line + step) (hplace : line ≤ row)
    (hspan : 4 * (lines * step) < 2 ^ 63) :
    (do
      let start ← int64.arithmetic (line * step)
      let place ← int64.arithmetic (start + row)
      int64.arithmetic (place - line)) = some (line * step + row - line) := by
  have hlines := lines_le hline hlines hstep
  simp only [Option.bind_eq_bind]
  rw [arithmetic_int64 (by omega) (by omega), Option.bind_some,
    arithmetic_int64 (by omega) (by omega), Option.bind_some,
    arithmetic_int64 (by omega) (by omega)]

namespace DenseBlasBandMatrixView

variable {view : DenseBlasBandMatrixView type}

theorem Checked.checkedOffset_eq (h : view.Checked) (hsize : SupportedSize type) {row column : Int}
    (hrow : 0 ≤ row ∧ row < view.rows) (hcolumn : 0 ≤ column ∧ column < view.columns)
    (hband : InBand view.lowerBandwidth view.upperBandwidth row column) :
    view.checkedOffset row column = some (view.offset row column) := by
  have hspan := (h.spans (by omega) (by omega)).span_small hsize
  have hextents := h.extents
  rcases hband with ⟨hupper, hlower⟩
  unfold checkedOffset offset
  unfold DenseBlasLayout.major at hspan
  cases hlayout : view.layout with
  | columnMajor =>
    rw [hlayout] at hspan
    exact checkedPlace_eq hcolumn.1 hcolumn.2 (by omega) (by omega) (by omega) (by omega) hspan
  | rowMajor =>
    rw [hlayout] at hspan
    exact checkedPlace_eq hrow.1 hrow.2 (by omega) (by omega) (by omega) (by omega) hspan

/-- The tests of a stored pair do not overflow either. -/
theorem Checked.checkedBandAt_eq (h : view.Checked) (hsize : SupportedSize type) {row column : Int}
    (hrow : 0 ≤ row ∧ row < view.rows) (hcolumn : 0 ≤ column ∧ column < view.columns)
    (hband : InBand view.lowerBandwidth view.upperBandwidth row column) :
    view.checkedBandAt row column = some (some (view.offset row column)) := by
  have hspan := (h.spans (by omega) (by omega)).span_small hsize
  have hextents := h.extents
  have hoffset := h.checkedOffset_eq hsize hrow hcolumn hband
  rcases hband with ⟨hupper, hlower⟩
  -- The line of the pair and the width of a line are bounded by the span.
  have hends : row + view.upperBandwidth < 2 ^ 63 ∧ column + view.lowerBandwidth < 2 ^ 63 := by
    unfold DenseBlasLayout.major at hspan
    cases hlayout : view.layout with
    | columnMajor =>
      simp only [hlayout] at hspan
      have hlines := lines_le hcolumn.1 hcolumn.2 (by omega : 0 < view.leadingDimension)
      omega
    | rowMajor =>
      simp only [hlayout] at hspan
      have hlines := lines_le hrow.1 hrow.2 (by omega : 0 < view.leadingDimension)
      omega
  unfold checkedBandAt
  rw [Option.bind_eq_bind, arithmetic_int64 (by omega) hends.1, Option.bind_some,
    if_neg (by omega), arithmetic_int64 (by omega) hends.2, Option.bind_some, if_neg (by omega),
    hoffset, Option.map_some]

theorem Checked.addressable (h : view.Checked) (hsize : SupportedSize type) :
    Addressable type
      (fun item : Int × Int => (0 ≤ item.1 ∧ item.1 < view.rows) ∧
        (0 ≤ item.2 ∧ item.2 < view.columns) ∧
        InBand view.lowerBandwidth view.upperBandwidth item.1 item.2)
      (fun item => (view.checkedBandAt item.1 item.2).join) view.data view.reachableStorage
      view.backingStorage := by
  apply Addressable.of_spans (fun item : Int × Int => view.offset item.1 item.2)
    (fun item hitem => h.spans (by omega) (by omega))
  · intro item hitem
    simp only [h.checkedBandAt_eq hsize hitem.1 hitem.2.1 hitem.2.2, Option.join_some]
  · exact fun item hitem => h.offset_bounds hitem.1 hitem.2.1 hitem.2.2
  · intro item other hitem hother heq
    simp only [view.offset_eq] at heq
    exact Prod.ext_iff.2
      (bandOffset_injective h.extents.2.2.2.2 hitem.2.2 hother.2.2 heq)

end DenseBlasBandMatrixView

namespace DenseBlasTriangularBandView

variable {view : DenseBlasTriangularBandView type} {triangle : DenseBlasTriangle}

theorem Checked.checkedOffset_eq (h : view.Checked) (hsize : SupportedSize type) {row column : Int}
    (hrow : 0 ≤ row ∧ row < view.order) (hcolumn : 0 ≤ column ∧ column < view.order)
    (hband : InBand (view.lowerBandwidth triangle) (view.upperBandwidth triangle) row column) :
    view.checkedOffset triangle row column = some (view.offset triangle row column) := by
  have hspan := (h.spans (by omega)).span_small hsize
  have hextents := h.extents
  unfold InBand lowerBandwidth upperBandwidth at hband
  unfold checkedOffset offset
  -- The diagonal is the first place of a line or the last, which the triangle decides.
  cases view.layout with
  | columnMajor =>
    cases triangle with
    | upper =>
      simp only at hband
      exact checkedPlace_eq hcolumn.1 hcolumn.2 (by omega) (by omega) (by omega) (by omega) hspan
    | lower =>
      simp only at hband
      exact checkedDiagonal_eq hcolumn.1 hcolumn.2 (by omega) (by omega) (by omega) hspan
  | rowMajor =>
    cases triangle with
    | upper =>
      simp only at hband
      exact checkedDiagonal_eq hrow.1 hrow.2 (by omega) (by omega) (by omega) hspan
    | lower =>
      simp only at hband
      exact checkedPlace_eq hrow.1 hrow.2 (by omega) (by omega) (by omega) (by omega) hspan

theorem Checked.checkedBandAt_eq (h : view.Checked) (hsize : SupportedSize type) {row column : Int}
    (hrow : 0 ≤ row ∧ row < view.order) (hcolumn : 0 ≤ column ∧ column < view.order)
    (hband : InBand (view.lowerBandwidth triangle) (view.upperBandwidth triangle) row column) :
    view.checkedBandAt triangle row column = some (some (view.offset triangle row column)) := by
  have hspan := (h.spans (by omega)).span_small hsize
  have hextents := h.extents
  have hoffset := h.checkedOffset_eq hsize hrow hcolumn hband
  have hlines := lines_le hrow.1 hrow.2 (by omega : 0 < view.leadingDimension)
  have hlines' := lines_le hcolumn.1 hcolumn.2 (by omega : 0 < view.leadingDimension)
  unfold InBand lowerBandwidth upperBandwidth at hband
  unfold checkedBandAt
  cases triangle with
  | upper =>
    simp only at hband ⊢
    rw [if_neg (by omega), Option.bind_eq_bind, arithmetic_int64 (by omega) (by omega),
      Option.bind_some, if_neg (by omega), hoffset, Option.map_some]
  | lower =>
    simp only at hband ⊢
    rw [if_neg (by omega), Option.bind_eq_bind, arithmetic_int64 (by omega) (by omega),
      Option.bind_some, if_neg (by omega), hoffset, Option.map_some]

theorem Checked.addressable (h : view.Checked) (hsize : SupportedSize type)
    (triangle : DenseBlasTriangle) :
    Addressable type
      (fun item : Int × Int => (0 ≤ item.1 ∧ item.1 < view.order) ∧
        (0 ≤ item.2 ∧ item.2 < view.order) ∧
        InBand (view.lowerBandwidth triangle) (view.upperBandwidth triangle) item.1 item.2)
      (fun item => (view.checkedBandAt triangle item.1 item.2).join) view.data
      view.reachableStorage view.backingStorage := by
  apply Addressable.of_spans (fun item : Int × Int => view.offset triangle item.1 item.2)
    (fun item hitem => h.spans (by omega))
  · intro item hitem
    simp only [h.checkedBandAt_eq hsize hitem.1 hitem.2.1 hitem.2.2, Option.join_some]
  · exact fun item hitem => h.offset_bounds hitem.1 hitem.2.1 hitem.2.2
  · intro item other hitem hother heq
    simp only [view.offset_eq] at heq
    exact Prod.ext_iff.2 (bandOffset_injective (h.band_le triangle) hitem.2.2 hother.2.2 heq)

end DenseBlasTriangularBandView

/-- Every descriptor that `Create` accepts can be addressed: for a vector every index, for a matrix
every pair of indices, for a band every pair on its diagonals, in either triangle. -/
theorem dense_blas_addressable (hsize : SupportedSize type) :
    (∀ view : DenseBlasVectorView type, view.Checked →
      Addressable type (fun index : Int => 0 ≤ index ∧ index < view.size) view.checkedOffset
        view.data view.reachableStorage view.backingStorage) ∧
    (∀ view : DenseBlasMatrixView type, view.Checked →
      Addressable type
        (fun item : Int × Int => (0 ≤ item.1 ∧ item.1 < view.rows) ∧
          0 ≤ item.2 ∧ item.2 < view.columns)
        (fun item => view.checkedOffset item.1 item.2) view.data view.reachableStorage
        view.backingStorage) ∧
    (∀ view : DenseBlasBandMatrixView type, view.Checked →
      Addressable type
        (fun item : Int × Int => (0 ≤ item.1 ∧ item.1 < view.rows) ∧
          (0 ≤ item.2 ∧ item.2 < view.columns) ∧
          InBand view.lowerBandwidth view.upperBandwidth item.1 item.2)
        (fun item => (view.checkedBandAt item.1 item.2).join) view.data view.reachableStorage
        view.backingStorage) ∧
    ∀ view : DenseBlasTriangularBandView type, view.Checked → ∀ triangle : DenseBlasTriangle,
      Addressable type
        (fun item : Int × Int => (0 ≤ item.1 ∧ item.1 < view.order) ∧
          (0 ≤ item.2 ∧ item.2 < view.order) ∧
          InBand (view.lowerBandwidth triangle) (view.upperBandwidth triangle) item.1 item.2)
        (fun item => (view.checkedBandAt triangle item.1 item.2).join) view.data
        view.reachableStorage view.backingStorage :=
  ⟨fun _ h => h.addressable, fun _ h => h.addressable, fun _ h => h.addressable hsize,
    fun _ h triangle => h.addressable hsize triangle⟩

/-! ### A vector that runs backwards -/

theorem dense_blas_addressable_sample :
    Addressable float64 (fun index : Int => 0 ≤ index ∧ index < sampleVector.size)
      sampleVector.checkedOffset sampleVector.data sampleVector.reachableStorage
      sampleVector.backingStorage :=
  (dense_blas_addressable (.inr (.inl rfl))).1 sampleVector rfl

end Blas
end Dense
end AscCpp
