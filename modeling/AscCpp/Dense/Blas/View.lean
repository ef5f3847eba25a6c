import AscCpp.Core.Effect
import AscCpp.Core.Integer

/-!
# View — the operands of Dense BLAS

The descriptors of vectors and matrices with their `Create`: a vector may run backwards through its
storage, a matrix is stored in full, as the band around its diagonal, or as one packed triangle.

- `validateStorageBounds_spec`: what the storage of a matrix is once its bounds are validated.
- `DenseBlasVectorView.Checked.spec`: what `Create` establishes about a vector.
-/

namespace AscCpp
namespace Dense
namespace Blas

open AscCpp.Core Library

variable {Cell V : Type} {type : Representation Cell V}

/-! ## Policies -/

inductive DenseBlasTranspose where
  | none
  | transpose
  | conjugateTranspose
  deriving DecidableEq, Repr

inductive DenseBlasLayout where
  | columnMajor
  | rowMajor
  deriving DecidableEq, Repr

inductive DenseBlasTriangle where
  | upper
  | lower
  deriving DecidableEq, Repr

inductive DenseBlasDiagonal where
  | nonUnit
  | unit
  deriving DecidableEq, Repr

inductive DenseBlasSide where
  | left
  | right
  deriving DecidableEq, Repr

/-- The elements that the descriptors support: `float`, `double`, their complex numbers and
`index_t`. -/
def SupportedSize (type : Representation Cell V) : Prop :=
  type.size = 4 ∨ type.size = 8 ∨ type.size = 16

/-! ## Storage -/

structure StorageBounds where
  data : Nat := 0
  size : Nat := 0
  deriving DecidableEq, Repr

def validateStorageBounds (data : Nat) (elementSpan : Int) (elementSize elementAlignment : Nat)
    (backingStorage : ConstMemoryView) : Result StorageBounds := do
  failIf (elementSpan < 0 ∨ backingStorage.valid = false)
    { code := .invalidArgument, message := "A BLAS storage descriptor is invalid" }
  if elementSpan = 0 then
    .ok {}
  else do
    failIf (data = 0 ∨ backingStorage.data = 0)
      { code := .memoryAccess, message := "Nonempty BLAS storage requires backing memory" }
    failIf (data % elementAlignment ≠ 0)
      { code := .invalidArgument, message := "A BLAS storage pointer is not properly aligned" }
    let byteSpan ← checkedMultiply int64 elementSpan elementSize
    let convertedSpan ← checkedCast sizeType byteSpan
    failIf (convertedSpan.toNat > uintptrMax - data)
      { code := .overflow, message := "A BLAS storage address calculation overflowed" }
    failIf (backingStorage.size > uintptrMax - backingStorage.data)
      { code := .overflow, message := "A BLAS backing span calculation overflowed" }
    failIf
      (data < backingStorage.data ∨
        data + convertedSpan.toNat > backingStorage.data + backingStorage.size)
      { code := .memoryAccess, message := "BLAS storage is outside its backing span" }
    .ok { data := data, size := convertedSpan.toNat }

def overlap (left right : ConstMemoryView) : Bool :=
  if left.size = 0 ∨ right.size = 0 then
    false
  else if left.size > uintptrMax - left.data ∨ right.size > uintptrMax - right.data then
    true
  else
    decide (left.data < right.data + right.size ∧ right.data < left.data + left.size)

theorem overlap_eq_false {left right : ConstMemoryView} (h : overlap left right = false) :
    left.block.Disjoint right.block := by
  unfold overlap at h
  unfold Block.Disjoint ConstMemoryView.block
  simp only
  split at h
  · omega
  split at h
  · cases h
  · have hapart := of_decide_eq_false h
    omega

/-- The second block reaches no further than the first one. -/
def Contains (outer inner : ConstMemoryView) : Prop :=
  outer.data ≤ inner.data ∧ inner.data + inner.size ≤ outer.data + outer.size

/-- The storage of a nonempty matrix: so many elements, inside the backing span. -/
structure Spans (type : Representation Cell V) (data : Nat) (span : Int)
    (reachable backing : ConstMemoryView) : Prop where
  positive : 0 < span
  data_eq : reachable.data = data
  size_eq : (reachable.size : Int) = span * type.size
  fits : span * type.size ≤ int64.maximum
  backed : Contains backing reachable

theorem validateStorageBounds_spec {data : Nat} {span : Int} {backing : ConstMemoryView}
    {bounds : StorageBounds}
    (h : validateStorageBounds data span type.size type.alignment backing = .ok bounds)
    (hspan : span ≠ 0) :
    Spans type data span ⟨bounds.data, bounds.size, backing.space⟩ backing := by
  unfold validateStorageBounds at h
  simp only [Result.failIf_bind_eq_ok_iff, if_neg hspan] at h
  rcases h with ⟨hvalid, -, -, hchecked⟩
  rw [checkedMultiply_bind_eq_ok_iff (by omega) (Int.natCast_nonneg _)] at hchecked
  rcases hchecked with ⟨hfits, hchecked⟩
  rcases Result.bind_eq_ok_iff.1 hchecked with ⟨convertedSpan, hcast, hchecked⟩
  simp only [Result.failIf_bind_eq_ok_iff] at hchecked
  rcases hchecked with ⟨-, -, hinside, hbounds⟩
  cases hbounds
  have hconverted := checkedCast_ok_eq hcast
  have hnonneg : 0 ≤ convertedSpan := by
    have hminimum := hconverted.2.1
    rw [IntegerType.minimum_of_unsigned rfl] at hminimum
    rw [hconverted.1]
    -- The checked span and the backing span are what the fields of `Spans` ask for.
    exact hminimum
  exact
    { positive := by omega
      data_eq := rfl
      size_eq := by
        simp only
        rw [Int.toNat_of_nonneg hnonneg, hconverted.1]
      fits := hfits
      backed := ⟨by simp only; omega, by simp only; omega⟩ }

/-- An element of a storage lies inside of it. -/
theorem Spans.inside {data : Nat} {span offset : Int} {reachable backing : ConstMemoryView}
    (h : Spans type data span reachable backing) (hnonneg : 0 ≤ offset) (hspan : offset < span) :
    (reachable.data : Int) ≤ data + offset * type.size ∧
      data + offset * type.size + type.size ≤ reachable.data + reachable.size := by
  have hbytes := Int.mul_le_mul_of_nonneg_right (Int.add_one_le_of_lt hspan)
    (Int.natCast_nonneg type.size)
  have hbefore := Int.mul_nonneg hnonneg (Int.natCast_nonneg type.size)
  rw [← h.size_eq, Int.add_mul, Int.one_mul] at hbytes
  have hdata := h.data_eq
  omega

/-- The same, for the address that is counted from the data pointer. -/
theorem Spans.inside_block {data : Nat} {span offset : Int} {reachable backing : ConstMemoryView}
    (h : Spans type data span reachable backing) (hbounds : 0 ≤ offset ∧ offset < span) :
    reachable.block.address ≤ data + offset.toNat * type.size ∧
      data + offset.toNat * type.size + type.size ≤
        reachable.block.address + reachable.block.size := by
  have hinside := h.inside hbounds.1 hbounds.2
  have haddress : ((data + offset.toNat * type.size : Nat) : Int) = data + offset * type.size := by
    rw [Nat.cast_add, Nat.cast_mul, Int.toNat_of_nonneg hbounds.1]
  simp only [ConstMemoryView.block]
  omega

/-! ## Vectors -/

structure DenseBlasVectorView (type : Representation Cell V) where
  data : Nat
  size : Int
  increment : Int
  backingStorage : ConstMemoryView
  reachableData : Nat
  reachableSize : Nat

namespace DenseBlasVectorView

/-- `other_address`, from the first address and the distance in bytes. -/
def otherAddress (logicalAddress : Nat) (byteOffset : Int) : Result Nat :=
  if byteOffset ≥ 0 then do
    failIf (byteOffset.toNat > uintptrMax - logicalAddress)
      { code := .overflow, message := "A BLAS vector address calculation overflowed" }
    .ok (logicalAddress + byteOffset.toNat)
  else do
    failIf (byteOffset = int64.minimum)
      { code := .overflow, message := "A BLAS vector address calculation overflowed" }
    failIf (logicalAddress < (-byteOffset).toNat)
      { code := .overflow, message := "A BLAS vector address calculation underflowed" }
    .ok (logicalAddress - (-byteOffset).toNat)

def create (logicalFirst : Nat) (size increment : Int) (backingStorage : ConstMemoryView) :
    Result (DenseBlasVectorView type) := do
  failIf (size < 0)
    { code := .invalidArgument, message := "A BLAS vector size cannot be negative" }
  failIf (increment = 0)
    { code := .invalidArgument, message := "A BLAS vector increment cannot be zero" }
  failIf (backingStorage.valid = false)
    { code := .invalidArgument, message := "A BLAS vector backing span is invalid" }
  -- An empty vector reaches nothing, whatever its pointer is.
  if size = 0 then
    .ok
      { data := logicalFirst
        size := size
        increment := increment
        backingStorage := backingStorage
        reachableData := 0
        reachableSize := 0 }
  else do
    failIf (logicalFirst = 0 ∨ backingStorage.data = 0)
      { code := .memoryAccess, message := "A nonempty BLAS vector requires backing storage" }
    failIf (logicalFirst % type.alignment ≠ 0)
      { code := .invalidArgument, message := "A BLAS vector pointer is not properly aligned" }
    -- The other end of the vector lies before the pointer when the increment is negative.
    let elementOffset ← checkedMultiply int64 (size - 1) increment
    let byteOffset ← checkedMultiply int64 elementOffset type.size
    let otherAddress ← otherAddress logicalFirst byteOffset
    let reachableBegin := min logicalFirst otherAddress
    let reachableLast := max logicalFirst otherAddress
    failIf (type.size > uintptrMax - reachableLast)
      { code := .overflow, message := "A BLAS vector reachable span overflowed" }
    failIf (backingStorage.size > uintptrMax - backingStorage.data)
      { code := .overflow, message := "A BLAS vector backing span overflowed" }
    failIf
      (reachableBegin < backingStorage.data ∨
        reachableLast + type.size > backingStorage.data + backingStorage.size)
      { code := .memoryAccess, message := "A BLAS vector is outside its backing span" }
    .ok
      { data := logicalFirst
        size := size
        increment := increment
        backingStorage := backingStorage
        reachableData := reachableBegin
        reachableSize := reachableLast + type.size - reachableBegin }

/-- `Create` returned the view. -/
def Checked (view : DenseBlasVectorView type) : Prop :=
  create view.data view.size view.increment view.backingStorage = .ok view

def memorySpace (view : DenseBlasVectorView type) : MemorySpace :=
  view.backingStorage.space

def reachableStorage (view : DenseBlasVectorView type) : ConstMemoryView :=
  ⟨view.reachableData, view.reachableSize, view.memorySpace⟩

theorem otherAddress_ok_eq {logicalAddress other : Nat} {byteOffset : Int}
    (h : otherAddress logicalAddress byteOffset = .ok other) :
    (other : Int) = logicalAddress + byteOffset := by
  unfold otherAddress at h
  split at h
  · rw [Result.failIf_bind_eq_ok_iff] at h
    cases h.2
    omega
  · simp only [Result.failIf_bind_eq_ok_iff] at h
    rcases h with ⟨-, hfits, hother⟩
    cases hother
    omega

variable {view : DenseBlasVectorView type}

/-- What `Create` establishes about a view that is not empty. -/
theorem Checked.spec (h : view.Checked) (hsize : 0 < view.size) :
    int64.Representable ((view.size - 1) * view.increment) ∧
      Contains view.backingStorage view.reachableStorage ∧ ∃ other : Nat,
        (other : Int) = view.data + (view.size - 1) * (view.increment * type.size) ∧
        view.reachableData = min view.data other ∧
        view.reachableSize = max view.data other + type.size - min view.data other := by
  have hnonzero : view.size ≠ 0 := by omega
  unfold Checked create at h
  simp only [Result.failIf_bind_eq_ok_iff, if_neg hnonzero] at h
  rcases h with ⟨-, -, -, -, -, hchecked⟩
  -- The checks are inverted in the order in which `Create` makes them.
  rcases Result.bind_eq_ok_iff.1 hchecked with ⟨elementOffset, helements, hchecked⟩
  rcases Result.bind_eq_ok_iff.1 hchecked with ⟨byteOffset, hbytes, hchecked⟩
  rcases Result.bind_eq_ok_iff.1 hchecked with ⟨other, hother, hchecked⟩
  simp only [Result.failIf_bind_eq_ok_iff] at hchecked
  rcases hchecked with ⟨-, -, hinside, hview⟩
  have heq := Except.ok.inj hview
  have hdata : view.reachableData = min view.data other := (congrArg reachableData heq).symm
  have hreach : view.reachableSize = max view.data other + type.size - min view.data other :=
    (congrArg reachableSize heq).symm
  have hexact := checkedMultiply_ok_eq helements
  refine ⟨?_, ?_, other, ?_, hdata, hreach⟩
  · rw [← hexact]
    exact checkedMultiply_ok_representable rfl (by omega) helements
  · unfold Contains reachableStorage
    simp only
    omega
  · rw [otherAddress_ok_eq hother, checkedMultiply_ok_eq hbytes, hexact, Int.mul_assoc]

theorem Checked.size_nonneg (h : view.Checked) : 0 ≤ view.size := by
  unfold Checked create at h
  rw [Result.failIf_bind_eq_ok_iff] at h
  omega

theorem Checked.increment_ne_zero (h : view.Checked) : view.increment ≠ 0 := by
  unfold Checked create at h
  simp only [Result.failIf_bind_eq_ok_iff] at h
  exact h.2.1

end DenseBlasVectorView

end Blas
end Dense
end AscCpp
