import AscCpp.Dense.Blas.View

/-!
# Matrix — the matrix operands of Dense BLAS

`DenseBlasMatrixView`, `DenseBlasBandMatrixView`, `DenseBlasTriangularBandView` and
`DenseBlasPackedMatrixView` with their `Create`.  All of them lay elements of one storage out by a
layout; they differ in which elements of the matrix are stored and how many elements that takes.

- `DenseBlasMatrixView.Checked.spans` and its siblings: the storage that `Create` validated.
-/

namespace AscCpp
namespace Dense
namespace Blas

open AscCpp.Core Library

variable {Cell V : Type} {type : Representation Cell V}

namespace DenseBlasLayout

/-- `layout == kColumnMajor ? rows : columns`. -/
def contiguous (layout : DenseBlasLayout) (rows columns : Int) : Int :=
  match layout with
  | .columnMajor => rows
  | .rowMajor => columns

/-- `layout == kColumnMajor ? columns : rows`. -/
def major (layout : DenseBlasLayout) (rows columns : Int) : Int :=
  match layout with
  | .columnMajor => columns
  | .rowMajor => rows

end DenseBlasLayout

/-! ## Full matrices -/

structure DenseBlasMatrixView (type : Representation Cell V) where
  data : Nat
  rows : Int
  columns : Int
  layout : DenseBlasLayout
  leadingDimension : Int
  backingStorage : ConstMemoryView
  bounds : StorageBounds

namespace DenseBlasMatrixView

/-- The elements from the first one to the last one, with those between the lines. -/
def elementSpan (rows columns : Int) (layout : DenseBlasLayout) (leadingDimension : Int) :
    Result Int :=
  if rows ≠ 0 ∧ columns ≠ 0 then do
    let leadingSpan ← checkedMultiply int64 (layout.major rows columns - 1) leadingDimension
    checkedAdd int64 leadingSpan (layout.contiguous rows columns)
  else
    .ok 0

def create (data : Nat) (rows columns : Int) (layout : DenseBlasLayout) (leadingDimension : Int)
    (backingStorage : ConstMemoryView) : Result (DenseBlasMatrixView type) := do
  failIf (rows < 0 ∨ columns < 0)
    { code := .invalidArgument, message := "A BLAS matrix descriptor is invalid" }
  failIf (leadingDimension < max 1 (layout.contiguous rows columns))
    { code := .invalidArgument, message := "A BLAS matrix leading dimension is too small" }
  let span ← elementSpan rows columns layout leadingDimension
  let bounds ← validateStorageBounds data span type.size type.alignment backingStorage
  .ok
    { data := data
      rows := rows
      columns := columns
      layout := layout
      leadingDimension := leadingDimension
      backingStorage := backingStorage
      bounds := bounds }

/-- `Create` returned the view. -/
def Checked (view : DenseBlasMatrixView type) : Prop :=
  create view.data view.rows view.columns view.layout view.leadingDimension view.backingStorage =
    .ok view

def memorySpace (view : DenseBlasMatrixView type) : MemorySpace :=
  view.backingStorage.space

def reachableStorage (view : DenseBlasMatrixView type) : ConstMemoryView :=
  ⟨view.bounds.data, view.bounds.size, view.memorySpace⟩

variable {view : DenseBlasMatrixView type}

theorem Checked.extents (h : view.Checked) :
    0 ≤ view.rows ∧ 0 ≤ view.columns ∧ 0 < view.leadingDimension ∧
      view.layout.contiguous view.rows view.columns ≤ view.leadingDimension := by
  unfold Checked create at h
  simp only [Result.failIf_bind_eq_ok_iff] at h
  omega

/-- The lines stand a leading dimension apart, and the last one is cut short. -/
theorem Checked.spans (h : view.Checked) (hrows : 0 < view.rows) (hcolumns : 0 < view.columns) :
    Spans type view.data
      ((view.layout.major view.rows view.columns - 1) * view.leadingDimension +
        view.layout.contiguous view.rows view.columns)
      view.reachableStorage view.backingStorage := by
  have hextents := h.extents
  unfold Checked create at h
  simp only [Result.failIf_bind_eq_ok_iff] at h
  rcases h with ⟨-, -, hchecked⟩
  rcases Result.bind_eq_ok_iff.1 hchecked with ⟨span, hspan, hchecked⟩
  rcases Result.bind_eq_ok_iff.1 hchecked with ⟨bounds, hbounds, hview⟩
  rw [elementSpan, if_pos ⟨by omega, by omega⟩] at hspan
  rcases Result.bind_eq_ok_iff.1 hspan with ⟨leadingSpan, hproduct, hsum⟩
  have hexact := checkedAdd_ok_eq hsum
  rw [checkedMultiply_ok_eq hproduct] at hexact
  -- A matrix with elements spans at least one of them.
  have hpositive : 0 < span := by
    have hcontiguous : 0 < view.layout.contiguous view.rows view.columns := by
      unfold DenseBlasLayout.contiguous
      split <;> omega
    have hmajor : 0 ≤ view.layout.major view.rows view.columns - 1 := by
      unfold DenseBlasLayout.major
      split <;> omega
    have hlines := Int.mul_nonneg hmajor hextents.2.2.1.le
    omega
  have heq : bounds = view.bounds := congrArg DenseBlasMatrixView.bounds (Except.ok.inj hview)
  rw [heq] at hbounds
  rw [← hexact]
  exact validateStorageBounds_spec hbounds hpositive.ne'

end DenseBlasMatrixView

/-! ## General bands -/

structure DenseBlasBandMatrixView (type : Representation Cell V) where
  data : Nat
  rows : Int
  columns : Int
  lowerBandwidth : Int
  upperBandwidth : Int
  layout : DenseBlasLayout
  leadingDimension : Int
  backingStorage : ConstMemoryView
  bounds : StorageBounds

namespace DenseBlasBandMatrixView

/-- A bandwidth reaches no further than the extent that it runs along. -/
def Exceeds (bandwidth extent : Int) : Prop :=
  if extent = 0 then bandwidth ≠ 0 else bandwidth ≥ extent

instance (bandwidth extent : Int) : Decidable (Exceeds bandwidth extent) :=
  inferInstanceAs (Decidable (if extent = 0 then bandwidth ≠ 0 else bandwidth ≥ extent))

def elementSpan (rows columns : Int) (layout : DenseBlasLayout) (leadingDimension : Int) :
    Result Int :=
  if rows ≠ 0 ∧ columns ≠ 0 then
    checkedMultiply int64 (layout.major rows columns) leadingDimension
  else
    .ok 0

def create (data : Nat) (rows columns lowerBandwidth upperBandwidth : Int)
    (layout : DenseBlasLayout) (leadingDimension : Int) (backingStorage : ConstMemoryView) :
    Result (DenseBlasBandMatrixView type) := do
  failIf (rows < 0 ∨ columns < 0 ∨ lowerBandwidth < 0 ∨ upperBandwidth < 0)
    { code := .invalidArgument, message := "A general band descriptor is invalid" }
  failIf (Exceeds lowerBandwidth rows ∨ Exceeds upperBandwidth columns)
    { code := .invalidArgument, message := "A general band width exceeds its matrix extent" }
  let bandSum ← checkedAdd int64 lowerBandwidth upperBandwidth
  let bandRows ← checkedAdd int64 bandSum 1
  failIf (leadingDimension < bandRows)
    { code := .invalidArgument, message := "A general band leading dimension is too small" }
  let span ← elementSpan rows columns layout leadingDimension
  let bounds ← validateStorageBounds data span type.size type.alignment backingStorage
  .ok
    { data := data
      rows := rows
      columns := columns
      lowerBandwidth := lowerBandwidth
      upperBandwidth := upperBandwidth
      layout := layout
      leadingDimension := leadingDimension
      backingStorage := backingStorage
      bounds := bounds }

/-- `Create` returned the view. -/
def Checked (view : DenseBlasBandMatrixView type) : Prop :=
  create view.data view.rows view.columns view.lowerBandwidth view.upperBandwidth view.layout
    view.leadingDimension view.backingStorage = .ok view

def memorySpace (view : DenseBlasBandMatrixView type) : MemorySpace :=
  view.backingStorage.space

def reachableStorage (view : DenseBlasBandMatrixView type) : ConstMemoryView :=
  ⟨view.bounds.data, view.bounds.size, view.memorySpace⟩

variable {view : DenseBlasBandMatrixView type}

theorem Checked.extents (h : view.Checked) :
    0 ≤ view.rows ∧ 0 ≤ view.columns ∧ 0 ≤ view.lowerBandwidth ∧ 0 ≤ view.upperBandwidth ∧
      view.lowerBandwidth + view.upperBandwidth + 1 ≤ view.leadingDimension := by
  unfold Checked create at h
  simp only [Result.failIf_bind_eq_ok_iff] at h
  rcases h with ⟨hextents, -, hchecked⟩
  rcases Result.bind_eq_ok_iff.1 hchecked with ⟨bandSum, hsum, hchecked⟩
  rcases Result.bind_eq_ok_iff.1 hchecked with ⟨bandRows, hrows, hchecked⟩
  rw [Result.failIf_bind_eq_ok_iff] at hchecked
  have hexact := checkedAdd_ok_eq hsum
  have hexact' := checkedAdd_ok_eq hrows
  omega

theorem Checked.spans (h : view.Checked) (hrows : 0 < view.rows) (hcolumns : 0 < view.columns) :
    Spans type view.data (view.layout.major view.rows view.columns * view.leadingDimension)
      view.reachableStorage view.backingStorage := by
  have hextents := h.extents
  unfold Checked create at h
  simp only [Result.failIf_bind_eq_ok_iff] at h
  rcases h with ⟨-, -, hchecked⟩
  rcases Result.bind_eq_ok_iff.1 hchecked with ⟨bandSum, -, hchecked⟩
  rcases Result.bind_eq_ok_iff.1 hchecked with ⟨bandRows, -, hchecked⟩
  rw [Result.failIf_bind_eq_ok_iff] at hchecked
  rcases Result.bind_eq_ok_iff.1 hchecked.2 with ⟨span, hspan, hchecked⟩
  rcases Result.bind_eq_ok_iff.1 hchecked with ⟨bounds, hbounds, hview⟩
  rw [elementSpan, if_pos ⟨by omega, by omega⟩] at hspan
  have hexact := checkedMultiply_ok_eq hspan
  have hpositive : 0 < span := by
    have hmajor : 0 < view.layout.major view.rows view.columns := by
      unfold DenseBlasLayout.major
      split <;> omega
    rw [hexact]
    exact Int.mul_pos hmajor (by omega)
  have heq : bounds = view.bounds :=
    congrArg DenseBlasBandMatrixView.bounds (Except.ok.inj hview)
  rw [heq] at hbounds
  rw [← hexact]
  exact validateStorageBounds_spec hbounds hpositive.ne'

end DenseBlasBandMatrixView

/-! ## Triangular bands -/

structure DenseBlasTriangularBandView (type : Representation Cell V) where
  data : Nat
  order : Int
  bandwidth : Int
  layout : DenseBlasLayout
  leadingDimension : Int
  backingStorage : ConstMemoryView
  bounds : StorageBounds

namespace DenseBlasTriangularBandView

def create (data : Nat) (order bandwidth : Int) (layout : DenseBlasLayout)
    (leadingDimension : Int) (backingStorage : ConstMemoryView) :
    Result (DenseBlasTriangularBandView type) := do
  failIf (order < 0 ∨ bandwidth < 0 ∨ (order ≠ 0 ∧ bandwidth ≥ order))
    { code := .invalidArgument, message := "A triangular band descriptor is invalid" }
  let storedRows ← checkedAdd int64 bandwidth 1
  failIf (leadingDimension < storedRows)
    { code := .invalidArgument, message := "A triangular band leading dimension is too small" }
  let span ← checkedMultiply int64 order leadingDimension
  let bounds ← validateStorageBounds data span type.size type.alignment backingStorage
  .ok
    { data := data
      order := order
      bandwidth := bandwidth
      layout := layout
      leadingDimension := leadingDimension
      backingStorage := backingStorage
      bounds := bounds }

/-- `Create` returned the view. -/
def Checked (view : DenseBlasTriangularBandView type) : Prop :=
  create view.data view.order view.bandwidth view.layout view.leadingDimension
    view.backingStorage = .ok view

def memorySpace (view : DenseBlasTriangularBandView type) : MemorySpace :=
  view.backingStorage.space

def reachableStorage (view : DenseBlasTriangularBandView type) : ConstMemoryView :=
  ⟨view.bounds.data, view.bounds.size, view.memorySpace⟩

variable {view : DenseBlasTriangularBandView type}

theorem Checked.extents (h : view.Checked) :
    0 ≤ view.order ∧ 0 ≤ view.bandwidth ∧ view.bandwidth + 1 ≤ view.leadingDimension := by
  unfold Checked create at h
  rw [Result.failIf_bind_eq_ok_iff] at h
  rcases Result.bind_eq_ok_iff.1 h.2 with ⟨storedRows, hrows, hchecked⟩
  rw [Result.failIf_bind_eq_ok_iff] at hchecked
  have hexact := checkedAdd_ok_eq hrows
  omega

theorem Checked.spans (h : view.Checked) (horder : 0 < view.order) :
    Spans type view.data (view.order * view.leadingDimension) view.reachableStorage
      view.backingStorage := by
  have hextents := h.extents
  unfold Checked create at h
  rw [Result.failIf_bind_eq_ok_iff] at h
  rcases Result.bind_eq_ok_iff.1 h.2 with ⟨storedRows, -, hchecked⟩
  rw [Result.failIf_bind_eq_ok_iff] at hchecked
  rcases Result.bind_eq_ok_iff.1 hchecked.2 with ⟨span, hspan, hchecked⟩
  rcases Result.bind_eq_ok_iff.1 hchecked with ⟨bounds, hbounds, hview⟩
  have hexact := checkedMultiply_ok_eq hspan
  have hpositive : 0 < view.order * view.leadingDimension := Int.mul_pos horder (by omega)
  have heq : bounds = view.bounds :=
    congrArg DenseBlasTriangularBandView.bounds (Except.ok.inj hview)
  rw [heq] at hbounds
  rw [← hexact] at hpositive ⊢
  exact validateStorageBounds_spec hbounds hpositive.ne'

end DenseBlasTriangularBandView

/-! ## Packed triangles -/

structure DenseBlasPackedMatrixView (type : Representation Cell V) where
  data : Nat
  order : Int
  layout : DenseBlasLayout
  backingStorage : ConstMemoryView
  bounds : StorageBounds

namespace DenseBlasPackedMatrixView

def create (data : Nat) (order : Int) (layout : DenseBlasLayout)
    (backingStorage : ConstMemoryView) : Result (DenseBlasPackedMatrixView type) := do
  failIf (order < 0)
    { code := .invalidArgument, message := "A packed matrix descriptor is invalid" }
  let successor ← checkedAdd int64 order 1
  let product ← checkedMultiply int64 order successor
  let bounds ← validateStorageBounds data (product.tdiv 2) type.size type.alignment backingStorage
  .ok
    { data := data
      order := order
      layout := layout
      backingStorage := backingStorage
      bounds := bounds }

/-- `Create` returned the view. -/
def Checked (view : DenseBlasPackedMatrixView type) : Prop :=
  create view.data view.order view.layout view.backingStorage = .ok view

def memorySpace (view : DenseBlasPackedMatrixView type) : MemorySpace :=
  view.backingStorage.space

def reachableStorage (view : DenseBlasPackedMatrixView type) : ConstMemoryView :=
  ⟨view.bounds.data, view.bounds.size, view.memorySpace⟩

variable {view : DenseBlasPackedMatrixView type}

theorem Checked.order_nonneg (h : view.Checked) : 0 ≤ view.order := by
  unfold Checked create at h
  rw [Result.failIf_bind_eq_ok_iff] at h
  omega

theorem Checked.spans (h : view.Checked) (horder : 0 < view.order) :
    Spans type view.data (view.order * (view.order + 1) / 2) view.reachableStorage
      view.backingStorage := by
  unfold Checked create at h
  rw [Result.failIf_bind_eq_ok_iff] at h
  rcases Result.bind_eq_ok_iff.1 h.2 with ⟨successor, hsuccessor, hchecked⟩
  rcases Result.bind_eq_ok_iff.1 hchecked with ⟨product, hproduct, hchecked⟩
  rcases Result.bind_eq_ok_iff.1 hchecked with ⟨bounds, hbounds, hview⟩
  have hexact := checkedMultiply_ok_eq hproduct
  rw [checkedAdd_ok_eq hsuccessor] at hexact
  have hlarge : 2 ≤ product := by
    have hle := Int.mul_le_mul (by omega : 1 ≤ view.order) (by omega : 2 ≤ view.order + 1)
      (by decide) (by omega)
    omega
  have hspan : product.tdiv 2 = view.order * (view.order + 1) / 2 := by
    rw [Int.tdiv_eq_ediv_of_nonneg (by omega), hexact]
  have heq : bounds = view.bounds :=
    congrArg DenseBlasPackedMatrixView.bounds (Except.ok.inj hview)
  rw [hspan, heq] at hbounds
  exact validateStorageBounds_spec hbounds (by omega)

end DenseBlasPackedMatrixView

end Blas
end Dense
end AscCpp
