import AscCpp.Core.Effect
import AscCpp.Core.Integer
import AscCpp.Library.Lines
import Mathlib.Tactic.Ring

/-!
# View — the dense operands of Sparse BLAS

`SparseBlasVectorView` and `SparseBlasMatrixView` with their `Create`.  A vector may run backwards
through its storage, and a matrix has a layout and a leading dimension; the bytes between the
elements do not belong to them.

- `SparseBlasVectorView.family`, `SparseBlasMatrixView.family`: the elements of a checked view share
  no byte.
- `overlap_eq_false`: views that `Overlap` keeps apart share no byte.
-/

namespace AscCpp
namespace Sparse
namespace Blas

open AscCpp.Core Library

variable {Cell V : Type} {type : Representation Cell V}

/-! ## Policies -/

inductive SparseBlasTranspose where
  | none
  | transpose
  | conjugateTranspose
  deriving DecidableEq, Repr

inductive SparseBlasLayout where
  | columnMajor
  | rowMajor
  deriving DecidableEq, Repr

inductive SparseBlasTriangle where
  | upper
  | lower
  deriving DecidableEq, Repr

inductive SparseBlasDiagonal where
  | nonUnit
  | unit
  deriving DecidableEq, Repr

/-! ## Storage -/

structure StorageBounds where
  data : Nat := 0
  size : Nat := 0
  deriving DecidableEq, Repr

def validateStorageBounds (data : Nat) (elementSpan : Int) (elementSize elementAlignment : Nat)
    (backingStorage : ConstMemoryView) : Result StorageBounds := do
  failIf (elementSpan < 0 ∨ backingStorage.valid = false)
    { code := .invalidArgument, message := "A sparse BLAS storage descriptor is invalid" }
  if elementSpan = 0 then
    .ok {}
  else do
    failIf (data = 0 ∨ backingStorage.data = 0)
      { code := .memoryAccess
        message := "Nonempty sparse BLAS storage requires backing memory" }
    failIf (data % elementAlignment ≠ 0)
      { code := .invalidArgument, message := "A sparse BLAS pointer is not properly aligned" }
    let byteSpan ← checkedMultiply int64 elementSpan elementSize
    let convertedSpan ← checkedCast sizeType byteSpan
    failIf (convertedSpan.toNat > uintptrMax - data)
      { code := .overflow, message := "A sparse BLAS address calculation overflowed" }
    failIf (backingStorage.size > uintptrMax - backingStorage.data)
      { code := .overflow, message := "A sparse BLAS backing span calculation overflowed" }
    failIf
      (data < backingStorage.data ∨
        data + convertedSpan.toNat > backingStorage.data + backingStorage.size)
      { code := .memoryAccess, message := "Sparse BLAS storage is outside its backing span" }
    .ok { data := data, size := convertedSpan.toNat }

def overlap (left right : ConstMemoryView) : Bool :=
  if left.size = 0 ∨ right.size = 0 then
    false
  else if left.size > uintptrMax - left.data ∨ right.size > uintptrMax - right.data then
    true
  else
    decide (left.data < right.data + right.size ∧ right.data < left.data + left.size)

theorem overlap_eq_false {left right : ConstMemoryView} (h : overlap left right = false) :
    left.block.Disjoint right.block := by
  unfold overlap at h
  unfold Block.Disjoint ConstMemoryView.block
  simp only
  split at h
  · omega
  split at h
  · cases h
  · have hapart := of_decide_eq_false h
    omega

/-- The bytes that validated storage spans. -/
theorem validateStorageBounds_spec {data elementSize elementAlignment : Nat} {elementSpan : Int}
    {backingStorage : ConstMemoryView} {bounds : StorageBounds}
    (h : validateStorageBounds data elementSpan elementSize elementAlignment backingStorage =
      .ok bounds) (hspan : elementSpan ≠ 0) :
    0 < elementSpan ∧ bounds.data = data ∧ (bounds.size : Int) = elementSpan * elementSize := by
  unfold validateStorageBounds at h
  simp only [Result.failIf_bind_eq_ok_iff, if_neg hspan] at h
  rcases h with ⟨hvalid, -, -, hchecked⟩
  rcases Result.bind_eq_ok_iff.1 hchecked with ⟨byteSpan, hbytes, hchecked⟩
  rcases Result.bind_eq_ok_iff.1 hchecked with ⟨convertedSpan, hcast, hchecked⟩
  simp only [Result.failIf_bind_eq_ok_iff] at hchecked
  rcases hchecked with ⟨-, -, -, hbounds⟩
  cases hbounds
  have hproduct := checkedMultiply_ok_eq hbytes
  have hconverted := checkedCast_ok_eq hcast
  have hnonneg : 0 ≤ convertedSpan := by
    have hminimum := hconverted.2.1
    rw [IntegerType.minimum_of_unsigned rfl] at hminimum
    rw [hconverted.1]
    exact hminimum
  refine ⟨by omega, rfl, ?_⟩
  rw [Int.toNat_of_nonneg hnonneg, hconverted.1, hproduct]

/-! ## Vectors -/

structure SparseBlasVectorView (type : Representation Cell V) where
  data : Nat
  size : Int
  increment : Int
  backingStorage : ConstMemoryView
  reachableData : Nat
  reachableSize : Nat

namespace SparseBlasVectorView

/-- The address of the last element, from that of the first one and the distance in bytes. -/
def otherAddress (logicalAddress : Nat) (byteOffset : Int) : Result Nat :=
  if byteOffset ≥ 0 then do
    failIf (byteOffset.toNat > uintptrMax - logicalAddress)
      { code := .overflow, message := "A sparse BLAS vector address overflowed" }
    .ok (logicalAddress + byteOffset.toNat)
  else do
    failIf (byteOffset = int64.minimum)
      { code := .overflow, message := "A sparse BLAS vector address overflowed" }
    failIf (logicalAddress < (-byteOffset).toNat)
      { code := .overflow, message := "A sparse BLAS vector address underflowed" }
    .ok (logicalAddress - (-byteOffset).toNat)

def create (logicalFirst : Nat) (size increment : Int) (backingStorage : ConstMemoryView) :
    Result (SparseBlasVectorView type) := do
  failIf (size < 0 ∨ increment = 0 ∨ backingStorage.valid = false)
    { code := .invalidArgument, message := "A sparse BLAS vector descriptor is invalid" }
  if size = 0 then
    .ok
      { data := logicalFirst
        size := size
        increment := increment
        backingStorage := backingStorage
        reachableData := 0
        reachableSize := 0 }
  else do
    failIf (logicalFirst = 0 ∨ backingStorage.data = 0)
      { code := .memoryAccess
        message := "A nonempty sparse BLAS vector requires backing storage" }
    failIf (logicalFirst % type.alignment ≠ 0)
      { code := .invalidArgument, message := "A sparse BLAS vector pointer is not aligned" }
    let elementOffset ← checkedMultiply int64 (size - 1) increment
    let byteOffset ← checkedMultiply int64 elementOffset type.size
    let otherAddress ← otherAddress logicalFirst byteOffset
    let first := min logicalFirst otherAddress
    let last := max logicalFirst otherAddress
    failIf (type.size > uintptrMax - last)
      { code := .overflow, message := "A sparse BLAS vector span overflowed" }
    failIf
      (backingStorage.size > uintptrMax - backingStorage.data ∨ first < backingStorage.data ∨
        last + type.size > backingStorage.data + backingStorage.size)
      { code := .memoryAccess, message := "A sparse BLAS vector is outside its backing span" }
    .ok
      { data := logicalFirst
        size := size
        increment := increment
        backingStorage := backingStorage
        reachableData := first
        reachableSize := last + type.size - first }

/-- `Create` returned the view. -/
def Checked (view : SparseBlasVectorView type) : Prop :=
  create view.data view.size view.increment view.backingStorage = .ok view

def memorySpace (view : SparseBlasVectorView type) : MemorySpace :=
  view.backingStorage.space

def reachableStorage (view : SparseBlasVectorView type) : ConstMemoryView :=
  ⟨view.reachableData, view.reachableSize, view.memorySpace⟩

/-- The address of `data()[index * increment()]`. -/
def vectorAt (view : SparseBlasVectorView type) (index : Int) : Nat :=
  (view.data + index * view.increment * type.size).toNat

/-- The value of an element. -/
def value (view : SparseBlasVectorView type) (memory : Nat → Cell) (index : Int) : V :=
  type.load memory (view.vectorAt index)

/-! ### Elements -/

theorem otherAddress_ok_eq {logicalAddress other : Nat} {byteOffset : Int}
    (h : otherAddress logicalAddress byteOffset = .ok other) :
    (other : Int) = logicalAddress + byteOffset := by
  unfold otherAddress at h
  split at h
  · rw [Result.failIf_bind_eq_ok_iff] at h
    cases h.2
    omega
  · simp only [Result.failIf_bind_eq_ok_iff] at h
    rcases h with ⟨-, hfits, hother⟩
    cases hother
    omega

variable {view : SparseBlasVectorView type}

/-- What `Create` establishes about a view that is not empty. -/
theorem Checked.spec (h : view.Checked) (hsize : 0 < view.size) :
    view.increment ≠ 0 ∧ ∃ other : Nat,
      (other : Int) = view.data + (view.size - 1) * (view.increment * type.size) ∧
      view.reachableData = min view.data other ∧
      view.reachableSize = max view.data other + type.size - min view.data other := by
  have hnonzero : view.size ≠ 0 := by omega
  unfold Checked create at h
  simp only [Result.failIf_bind_eq_ok_iff, if_neg hnonzero] at h
  rcases h with ⟨hvalid, -, -, hchecked⟩
  rcases Result.bind_eq_ok_iff.1 hchecked with ⟨elementOffset, helements, hchecked⟩
  rcases Result.bind_eq_ok_iff.1 hchecked with ⟨byteOffset, hbytes, hchecked⟩
  rcases Result.bind_eq_ok_iff.1 hchecked with ⟨other, hother, hchecked⟩
  simp only [Result.failIf_bind_eq_ok_iff] at hchecked
  rcases hchecked with ⟨-, -, hview⟩
  have heq := Except.ok.inj hview
  refine ⟨by omega, other, ?_, (congrArg reachableData heq).symm,
    (congrArg reachableSize heq).symm⟩
  -- The products were checked, so the last address is the exact one.
  rw [otherAddress_ok_eq hother, checkedMultiply_ok_eq hbytes, checkedMultiply_ok_eq helements,
    Int.mul_assoc]

theorem Checked.size_nonneg (h : view.Checked) : 0 ≤ view.size := by
  unfold Checked create at h
  rw [Result.failIf_bind_eq_ok_iff] at h
  omega

/-- An element stands at its step from the first one, in the bytes that the view reaches. -/
theorem Checked.vectorAt_spec (h : view.Checked) {index : Int} (hindex : 0 ≤ index)
    (hlast : index < view.size) :
    (view.vectorAt index : Int) = view.data + index * view.increment * type.size ∧
      view.reachableData ≤ view.vectorAt index ∧
      view.vectorAt index + type.size ≤ view.reachableData + view.reachableSize := by
  rcases h.spec (by omega) with ⟨-, other, hother, hdata, hsize⟩
  have hbetween := @step_between index (view.size - 1) (view.increment * type.size) hindex
    (by omega)
  have haddress : (view.vectorAt index : Int) =
      view.data + index * (view.increment * type.size) := by
    unfold vectorAt
    rw [Int.mul_assoc]
    omega
  refine ⟨?_, ?_, ?_⟩
  · rw [haddress, Int.mul_assoc]
  · omega
  · omega

/-- A view is read in the bytes that it reaches. -/
theorem Checked.value_congr (h : view.Checked) {index : Int} (hindex : 0 ≤ index)
    (hlast : index < view.size) {memory memory' : Nat → Cell}
    (hagree : AgreeOn view.reachableStorage.block memory memory') :
    view.value memory index = view.value memory' index := by
  rcases (h.vectorAt_spec hindex hlast).2 with ⟨hfirst, hbehind⟩
  apply type.load_congr
  intro cell hcell hend
  exact hagree cell (hfirst.trans hcell) (hend.trans_le hbehind)

/-- The elements of a checked view. -/
def family (view : SparseBlasVectorView type) (h : view.Checked) :
    ElementFamily type (Fin view.size.toNat) where
  address index := view.vectorAt index.val
  apart index other hne := by
    have hindex := (h.vectorAt_spec (Int.natCast_nonneg index.val) (by omega)).1
    have hother := (h.vectorAt_spec (Int.natCast_nonneg other.val) (by omega)).1
    have hval : (index.val : Int) ≠ other.val := fun heq => hne (Fin.ext (Int.ofNat.inj heq))
    have hstep := @step_apart _ _ _ type.size hval (h.spec (by omega)).1
    omega

theorem family_inside (h : view.Checked) (index : Fin view.size.toNat) :
    view.reachableStorage.block.address ≤ (view.family h).address index ∧
      (view.family h).address index + type.size ≤
        view.reachableStorage.block.address + view.reachableStorage.block.size :=
  (h.vectorAt_spec (Int.natCast_nonneg index.val) (by omega)).2

end SparseBlasVectorView

/-! ## Matrices -/

structure SparseBlasMatrixView (type : Representation Cell V) where
  data : Nat
  rows : Int
  columns : Int
  layout : SparseBlasLayout
  leadingDimension : Int
  backingStorage : ConstMemoryView
  bounds : StorageBounds

namespace SparseBlasMatrixView

/-- `layout == kColumnMajor ? rows : columns`. -/
def contiguous (layout : SparseBlasLayout) (rows columns : Int) : Int :=
  match layout with
  | .columnMajor => rows
  | .rowMajor => columns

/-- `layout == kColumnMajor ? columns : rows`. -/
def major (layout : SparseBlasLayout) (rows columns : Int) : Int :=
  match layout with
  | .columnMajor => columns
  | .rowMajor => rows

/-- The elements from the first one to the last one, with those between the lines. -/
def elementSpan (rows columns : Int) (layout : SparseBlasLayout) (leadingDimension : Int) :
    Result Int :=
  if rows ≠ 0 ∧ columns ≠ 0 then do
    let leadingSpan ← checkedMultiply int64 (major layout rows columns - 1) leadingDimension
    checkedAdd int64 leadingSpan (contiguous layout rows columns)
  else
    .ok 0

def create (data : Nat) (rows columns : Int) (layout : SparseBlasLayout) (leadingDimension : Int)
    (backingStorage : ConstMemoryView) : Result (SparseBlasMatrixView type) := do
  failIf (rows < 0 ∨ columns < 0)
    { code := .invalidArgument, message := "A sparse BLAS dense-matrix descriptor is invalid" }
  failIf (leadingDimension < max 1 (contiguous layout rows columns))
    { code := .invalidArgument, message := "A sparse BLAS leading dimension is too small" }
  let span ← elementSpan rows columns layout leadingDimension
  let bounds ← validateStorageBounds data span type.size type.alignment backingStorage
  .ok
    { data := data
      rows := rows
      columns := columns
      layout := layout
      leadingDimension := leadingDimension
      backingStorage := backingStorage
      bounds := bounds }

/-- `Create` returned the view. -/
def Checked (view : SparseBlasMatrixView type) : Prop :=
  create view.data view.rows view.columns view.layout view.leadingDimension view.backingStorage =
    .ok view

def memorySpace (view : SparseBlasMatrixView type) : MemorySpace :=
  view.backingStorage.space

def reachableStorage (view : SparseBlasMatrixView type) : ConstMemoryView :=
  ⟨view.bounds.data, view.bounds.size, view.memorySpace⟩

/-- The offset that `operator()` computes. -/
def offset (view : SparseBlasMatrixView type) (row column : Int) : Int :=
  match view.layout with
  | .columnMajor => column * view.leadingDimension + row
  | .rowMajor => row * view.leadingDimension + column

/-- The address that `operator()` returns. -/
def elementAt (view : SparseBlasMatrixView type) (row column : Int) : Nat :=
  view.data + (view.offset row column).toNat * type.size

/-- The value of an element. -/
def value (view : SparseBlasMatrixView type) (memory : Nat → Cell) (row column : Int) : V :=
  type.load memory (view.elementAt row column)

/-! ### Elements -/

variable {view : SparseBlasMatrixView type}

/-- What `Create` establishes about a view. -/
theorem Checked.spec (h : view.Checked) :
    (0 ≤ view.rows ∧ 0 ≤ view.columns) ∧
      contiguous view.layout view.rows view.columns ≤ view.leadingDimension ∧
      (view.rows ≠ 0 ∧ view.columns ≠ 0 →
        view.bounds.data = view.data ∧ (view.bounds.size : Int) =
          ((major view.layout view.rows view.columns - 1) * view.leadingDimension +
            contiguous view.layout view.rows view.columns) * type.size) := by
  unfold Checked create at h
  simp only [Result.failIf_bind_eq_ok_iff] at h
  rcases h with ⟨hextents, hleading, hchecked⟩
  rcases Result.bind_eq_ok_iff.1 hchecked with ⟨span, hspan, hchecked⟩
  rcases Result.bind_eq_ok_iff.1 hchecked with ⟨bounds, hbounds, hview⟩
  refine ⟨by omega, by omega, fun hnonempty => ?_⟩
  rw [elementSpan, if_pos hnonempty] at hspan
  rcases Result.bind_eq_ok_iff.1 hspan with ⟨leadingSpan, hproduct, hsum⟩
  have hexact := checkedAdd_ok_eq hsum
  rw [checkedMultiply_ok_eq hproduct] at hexact
  -- A matrix with elements has a positive span.
  have hpositive : 0 < span := by
    have hcontiguous : 0 < contiguous view.layout view.rows view.columns := by
      unfold contiguous
      split <;> omega
    have hmajor : 0 ≤ major view.layout view.rows view.columns - 1 := by
      unfold major
      split <;> omega
    have hlines := Int.mul_nonneg hmajor (by omega : 0 ≤ view.leadingDimension)
    omega
  have hstorage := validateStorageBounds_spec hbounds (by omega)
  have heq : bounds = view.bounds := congrArg SparseBlasMatrixView.bounds (Except.ok.inj hview)
  rw [← heq, ← hexact]
  exact hstorage.2

/-- The offset of an element, as its place in a line. -/
theorem Checked.offset_spec (h : view.Checked) {row column : Int}
    (hrow : 0 ≤ row ∧ row < view.rows) (hcolumn : 0 ≤ column ∧ column < view.columns) :
    0 ≤ view.offset row column ∧ view.offset row column + 1 ≤
      (major view.layout view.rows view.columns - 1) * view.leadingDimension +
        contiguous view.layout view.rows view.columns := by
  have hleading := h.spec.2.1
  unfold offset major contiguous at *
  cases hlayout : view.layout with
  | columnMajor =>
    rw [hlayout] at hleading
    exact line_bounds hcolumn.1 hcolumn.2 hrow.1 hrow.2 hleading
  | rowMajor =>
    rw [hlayout] at hleading
    exact line_bounds hrow.1 hrow.2 hcolumn.1 hcolumn.2 hleading

theorem Checked.offset_injective (h : view.Checked) {row column row' column' : Int}
    (hrow : 0 ≤ row ∧ row < view.rows) (hcolumn : 0 ≤ column ∧ column < view.columns)
    (hrow' : 0 ≤ row' ∧ row' < view.rows) (hcolumn' : 0 ≤ column' ∧ column' < view.columns)
    (heq : view.offset row column = view.offset row' column') : row = row' ∧ column = column' := by
  have hleading := h.spec.2.1
  unfold offset contiguous at *
  cases hlayout : view.layout with
  | columnMajor =>
    simp only [hlayout] at hleading heq
    exact (line_injective hrow.1 (by omega) hrow'.1 (by omega) heq).symm
  | rowMajor =>
    simp only [hlayout] at hleading heq
    exact line_injective hcolumn.1 (by omega) hcolumn'.1 (by omega) heq

/-- An element stands in the bytes that the view reaches. -/
theorem Checked.elementAt_inside (h : view.Checked) {row column : Int}
    (hrow : 0 ≤ row ∧ row < view.rows) (hcolumn : 0 ≤ column ∧ column < view.columns) :
    view.bounds.data ≤ view.elementAt row column ∧
      view.elementAt row column + type.size ≤ view.bounds.data + view.bounds.size := by
  rcases h.spec.2.2 ⟨by omega, by omega⟩ with ⟨hdata, hsize⟩
  rcases h.offset_spec hrow hcolumn with ⟨hnonneg, hlast⟩
  have hbytes := Int.mul_le_mul_of_nonneg_right hlast (Int.natCast_nonneg type.size)
  rw [← hsize, Int.add_mul, Int.one_mul] at hbytes
  have hoffset : (((view.offset row column).toNat * type.size : Nat) : Int) =
      view.offset row column * type.size := by
    rw [Nat.cast_mul, Int.toNat_of_nonneg hnonneg]
  unfold elementAt
  omega

/-- A view is read in the bytes that it reaches. -/
theorem Checked.value_congr (h : view.Checked) {row column : Int}
    (hrow : 0 ≤ row ∧ row < view.rows) (hcolumn : 0 ≤ column ∧ column < view.columns)
    {memory memory' : Nat → Cell} (hagree : AgreeOn view.reachableStorage.block memory memory') :
    view.value memory row column = view.value memory' row column := by
  rcases h.elementAt_inside hrow hcolumn with ⟨hfirst, hbehind⟩
  apply type.load_congr
  intro cell hcell hend
  exact hagree cell (hfirst.trans hcell) (hend.trans_le hbehind)

/-- The elements of a checked view. -/
def family (view : SparseBlasMatrixView type) (h : view.Checked) :
    ElementFamily type (Fin view.rows.toNat × Fin view.columns.toNat) where
  address item := view.elementAt item.1.val item.2.val
  apart item other hne := by
    rcases item with ⟨row, column⟩
    rcases other with ⟨row', column'⟩
    have hoffset : (view.offset row.val column.val).toNat ≠
        (view.offset row'.val column'.val).toNat := by
      have hnonneg := (@Checked.offset_spec _ _ _ _ h row.val column.val (by omega) (by omega)).1
      have hnonneg' := (@Checked.offset_spec _ _ _ _ h row'.val column'.val (by omega) (by omega)).1
      intro heq
      have hinjective := @Checked.offset_injective _ _ _ _ h row.val column.val row'.val column'.val
        (by omega) (by omega) (by omega) (by omega) (by omega)
      exact hne (Prod.ext (Fin.ext (Int.ofNat.inj hinjective.1))
        (Fin.ext (Int.ofNat.inj hinjective.2)))
    simp only [elementAt]
    -- Different offsets are at least an element apart.
    rcases Nat.lt_or_gt_of_ne hoffset with hlt | hgt
    · have hle := Nat.mul_le_mul_right type.size (Nat.succ_le_of_lt hlt)
      rw [Nat.succ_mul] at hle
      omega
    · have hle := Nat.mul_le_mul_right type.size (Nat.succ_le_of_lt hgt)
      rw [Nat.succ_mul] at hle
      omega

theorem family_inside (h : view.Checked)
    (item : Fin view.rows.toNat × Fin view.columns.toNat) :
    view.reachableStorage.block.address ≤ (view.family h).address item ∧
      (view.family h).address item + type.size ≤
        view.reachableStorage.block.address + view.reachableStorage.block.size := by
  have hrow : 0 ≤ (item.1.val : Int) ∧ (item.1.val : Int) < view.rows := by omega
  have hcolumn : 0 ≤ (item.2.val : Int) ∧ (item.2.val : Int) < view.columns := by omega
  exact h.elementAt_inside hrow hcolumn

end SparseBlasMatrixView

end Blas
end Sparse
end AscCpp
