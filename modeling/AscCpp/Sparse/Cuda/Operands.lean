import AscCpp.Core.Cuda.Provider
import AscCpp.Sparse.Blas.Stored

/-!
# Operands — the operands of the sparse CUDA provider

A descriptor holds the fields of a view.  The arrays of offsets and indices of a matrix are only
read; its values and the dense operands stand in the memory that the kernels work on.

- `inspects_validateSparseDevice`, `inspects_validateVector`, `inspects_validateMatrixDevice`: what the
  checks of the operands establish.
-/

namespace AscCpp
namespace Sparse
namespace Cuda

open AscCpp.Core AscCpp.Core.Cuda Library Effect Blas

variable {Cell V Memory : Type}

/-! ## The context -/

/-- `SparseCudaContext`; the state of one that has been moved from is gone, else it holds the device
that it was created for. -/
structure SparseCudaContext where
  executionContext : ProviderContext
  state : Option Int
  deriving DecidableEq, Repr

/-- A context that `SparseCudaContext::Create` makes. -/
def SparseCudaContext.ofState (execution : ExecutionState) : SparseCudaContext :=
  { executionContext := .ofState execution, state := some execution.device }

/-- `ValidateContext`; the stream of a state is never null. -/
def validateContext (context : SparseCudaContext) : Result ExecutionState :=
  match context.state with
  | none =>
    .error
      { code := .invalidState
        message := "A moved-from SparseCudaContext cannot launch work" }
  | some device => do
    failIf (context.executionContext.backend ≠ .cuda ∨ context.executionContext.ordinal ≠ device)
      { code := .invalidState
        message := "Sparse CUDA provider state does not match its context" }
    match context.executionContext.state with
    | none =>
      .error
        { code := .invalidState
          message := "The sparse CUDA execution context has no provider state" }
    | some execution => .ok execution

theorem validateContext_ofState (execution : ExecutionState) :
    validateContext (.ofState execution) = .ok execution := by
  rw [validateContext, SparseCudaContext.ofState, ProviderContext.ofState]
  simp only [failIf, ne_eq, not_true_eq_false, or_self, if_false, Result.ok_bind]

/-! ## Addresses -/

def checkedBytes (count : Int) (elementSize : Nat) : Result Nat := do
  let bytes ← checkedMultiply sizeType count elementSize
  let converted ← checkedCast sizeType bytes
  .ok converted.toNat

def validateAddress (pointer bytes alignment : Nat) (nullMessage alignmentMessage : String) :
    Result Unit :=
  if bytes = 0 then
    .ok ()
  else do
    failIf (pointer = 0) { code := .invalidArgument, message := nullMessage }
    failIf (pointer % alignment ≠ 0) { code := .memoryAccess, message := alignmentMessage }
    failIf (bytes > uintptrMax - pointer)
      { code := .overflow, message := "A sparse CUDA operand address span overflows" }

def validateDevicePointer (pointer bytes : Nat) (device : Int) (message : String) :
    Call Memory Unit :=
  if bytes = 0 then
    pure ()
  else do
    let attributes ← orStatus .memoryAccess message (cudaPointerGetAttributes pointer)
    Effect.ofResult (failIf (attributes.type ≠ .device ∨ attributes.device ≠ device)
      { code := .memoryAccess, message := "A sparse CUDA operand is not on the context device" })

theorem inspects_validateDevicePointer (pointer bytes : Nat) (device : Int) (message : String) :
    Inspects (validateDevicePointer pointer bytes device message : Call Memory Unit)
      fun _ => True := by
  unfold validateDevicePointer
  split
  · exact inspects_pure trivial
  · refine (inspects_pointerGetAttributes pointer _ message).bind fun attributes _ => ?_
    intro api
    exact (inspects_ofResult _ api).mono (fun _ _ h => ⟨h.1, trivial⟩) fun _ _ h => h

/-- A number of bytes is the exact one. -/
theorem checkedBytes_ok_eq {count : Int} {elementSize bytes : Nat}
    (h : checkedBytes count elementSize = .ok bytes) : (bytes : Int) = count * elementSize := by
  rcases Result.bind_eq_ok_iff.1 h with ⟨product, hproduct, h⟩
  rcases Result.bind_eq_ok_iff.1 h with ⟨converted, hconverted, h⟩
  cases h
  rcases checkedCast_ok_eq hconverted with ⟨rfl, hrange, -⟩
  rw [IntegerType.minimum_of_unsigned rfl] at hrange
  rw [Int.toNat_of_nonneg hrange, checkedMultiply_ok_eq hproduct]

/-! ## Matrices -/

/-- The bytes of the three arrays of a matrix. -/
structure SparseBytes where
  first : Nat
  second : Nat
  values : Nat
  deriving DecidableEq, Repr

section Matrices

variable {type : Representation Cell V} {matrix : CompressedSparseView (Stored type) .csr}

/-- The product of the extents, which is not computed behind an extent that is zero. -/
def sparseLogicalSize (extents : List Int) : Result Int := do
  let (empty, logicalSize) ← extents.foldlM
    (fun (state : Bool × Int) extent => do
      failIf (extent < 0)
        { code := .shape, message := "A sparse CUDA extent cannot be negative" }
      if state.1 = true ∨ extent = 0 then
        .ok (true, state.2)
      else do
        let product ← checkedMultiply int64 state.2 extent
        .ok (false, product))
    (false, 1)
  .ok (if empty = true then 0 else logicalSize)

/-- `ValidateSparseMetadata`, for a matrix in rows. -/
def validateSparseMetadata (matrix : CompressedSparseView (Stored type) .csr) :
    Result SparseBytes := do
  let logicalSize ← sparseLogicalSize matrix.shape.toList
  failIf ((matrix.nonzeros : Int) > logicalSize)
    { code := .shape, message := "Sparse CUDA NNZ is incompatible with its shape" }
  failIf (matrix.canonicalStructureTrusted = false)
    { code := .invalidArgument
      message := "Sparse CUDA operations require trusted canonical structure" }
  let nonzeros ← checkedCast sizeType matrix.nonzeros
  let values ← checkedBytes nonzeros type.size
  let offsetCount ← checkedAdd int64 matrix.rows 1
  let converted ← checkedCast sizeType offsetCount
  let first ← checkedBytes converted indexSize
  let second ← checkedBytes nonzeros indexSize
  validateAddress matrix.outerOffsets.address first indexSize
    "Sparse CUDA structure storage is incomplete" "Sparse CUDA structure storage is misaligned"
  validateAddress matrix.innerIndices.address second indexSize
    "Sparse CUDA index storage is incomplete" "Sparse CUDA index storage is misaligned"
  validateAddress matrix.values.address values type.alignment
    "Sparse CUDA value storage is incomplete" "Sparse CUDA value storage is misaligned"
  failIf
    ((overlap ⟨matrix.outerOffsets.address, first, matrix.memorySpace⟩
        ⟨matrix.innerIndices.address, second, matrix.memorySpace⟩ ||
      overlap ⟨matrix.outerOffsets.address, first, matrix.memorySpace⟩
        ⟨matrix.values.address, values, matrix.memorySpace⟩ ||
      overlap ⟨matrix.innerIndices.address, second, matrix.memorySpace⟩
        ⟨matrix.values.address, values, matrix.memorySpace⟩) = true)
    { code := .invalidArgument, message := "Sparse CUDA descriptor storage spans cannot overlap" }
  .ok { first := first, second := second, values := values }

def validateSparseDevice (matrix : CompressedSparseView (Stored type) .csr) (device : Int) :
    Call Memory Unit := do
  Effect.ofResult (failIf (matrix.memorySpace ≠ .device)
    { code := .memoryAccess, message := "Sparse CUDA operations require device storage" })
  let bytes ← Effect.ofResult (validateSparseMetadata matrix)
  validateDevicePointer matrix.outerOffsets.address bytes.first device
    "CUDA could not inspect sparse operand storage"
  validateDevicePointer matrix.innerIndices.address bytes.second device
    "CUDA could not inspect sparse operand storage"
  validateDevicePointer matrix.values.address bytes.values device
    "CUDA could not inspect sparse operand storage"

/-- The storage meets one of the three arrays. -/
def matrixMeets (matrix : CompressedSparseView (Stored type) .csr) (bytes : SparseBytes)
    (storage : ConstMemoryView) : Bool :=
  overlap ⟨matrix.outerOffsets.address, bytes.first, matrix.memorySpace⟩ storage ||
    overlap ⟨matrix.innerIndices.address, bytes.second, matrix.memorySpace⟩ storage ||
    overlap ⟨matrix.values.address, bytes.values, matrix.memorySpace⟩ storage

theorem inspects_validateSparseDevice (matrix : CompressedSparseView (Stored type) .csr)
    (device : Int) :
    Inspects (validateSparseDevice matrix device : Call Memory Unit)
      fun _ => matrix.memorySpace = .device ∧ matrix.canonicalStructureTrusted = true := by
  refine (inspects_ofResult _).bind fun _ hspace => ?_
  refine (inspects_ofResult _).bind fun bytes hbytes => ?_
  refine (inspects_validateDevicePointer _ _ _ _).bind fun _ _ => ?_
  refine (inspects_validateDevicePointer _ _ _ _).bind fun _ _ => ?_
  rw [Result.failIf_eq_ok_iff, not_not] at hspace
  simp only [validateSparseMetadata, Result.bind_eq_ok_iff] at hbytes
  rcases hbytes with ⟨_, -, _, -, _, htrusted, -⟩
  rw [Result.failIf_eq_ok_iff, Bool.not_eq_false] at htrusted
  exact (inspects_validateDevicePointer _ _ _ _).mono fun _ _ => ⟨hspace, htrusted⟩

/-- Storage that does not meet the arrays is apart from the values. -/
theorem matrixMeets_eq_false {bytes : SparseBytes} (hbytes : validateSparseMetadata matrix = .ok bytes)
    {storage : ConstMemoryView} (h : matrixMeets matrix bytes storage = false) :
    matrix.valueSpan.Disjoint storage.block := by
  simp only [validateSparseMetadata, Result.bind_eq_ok_iff] at hbytes
  rcases hbytes with ⟨_, -, _, -, _, -, nonzeros, hnonzeros, values, hvalues, _, -, _, -, _, -, _, -,
    _, -, _, -, _, -, _, -, hbytes⟩
  cases hbytes
  simp only [matrixMeets, Bool.or_eq_false_iff] at h
  have hexact := checkedBytes_ok_eq hvalues
  rw [(checkedCast_ok_eq hnonzeros).1] at hexact
  have heq : values = matrix.nonzeros * type.size := by exact_mod_cast hexact
  rw [heq] at h
  exact overlap_eq_false h.2

end Matrices

/-! ## Vectors -/

/-- `VectorDescriptor`. -/
structure VectorDescriptor where
  data : Nat
  reachableData : Nat
  reachableSize : Nat
  memorySpace : MemorySpace
  extent : Int
  stride : Int

/-- `Describe`. -/
def describeVector {type : Representation Cell V} (view : SparseBlasVectorView type) :
    VectorDescriptor where
  data := view.data
  reachableData := view.reachableData
  reachableSize := view.reachableSize
  memorySpace := view.memorySpace
  extent := view.size
  stride := view.increment

/-- What a descriptor reaches, with the calculated size when it does not say. -/
def reachable (data reachableData reachableSize calculated : Nat) (space : MemorySpace) :
    ConstMemoryView :=
  ⟨if reachableData = 0 then data else reachableData,
    if reachableSize = 0 then calculated else reachableSize, space⟩

def VectorDescriptor.reachable (vector : VectorDescriptor) (calculated : Nat) : ConstMemoryView :=
  Cuda.reachable vector.data vector.reachableData vector.reachableSize calculated
    vector.memorySpace

section Vectors

variable (type : Representation Cell V)

def vectorBytes (vector : VectorDescriptor) : Result Nat := do
  failIf (vector.extent < 0 ∨ vector.stride = 0)
    { code := .invalidArgument, message := "Sparse CUDA vector metadata is invalid" }
  if vector.extent = 0 then
    .ok 0
  else do
    failIf (vector.stride = int64.minimum)
      { code := .overflow, message := "Sparse CUDA vector stride magnitude overflows" }
    let magnitude := if vector.stride < 0 then -vector.stride else vector.stride
    let last ← checkedMultiply int64 (vector.extent - 1) magnitude
    let span ← checkedAdd int64 last 1
    let count ← checkedCast sizeType span
    checkedBytes count type.size

/-- `ValidateVector`; the element type and the mutability are those of the view's type. -/
def validateVector (vector : VectorDescriptor) (device : Int) : Call Memory Unit := do
  Effect.ofResult (failIf (vector.memorySpace ≠ .device)
    { code := .memoryAccess, message := "Sparse CUDA vectors require device storage" })
  let bytes ← Effect.ofResult (vectorBytes type vector)
  Effect.ofResult (validateAddress (vector.reachable bytes).data (vector.reachable bytes).size
    type.alignment "A nonempty sparse CUDA vector cannot be null"
    "A sparse CUDA vector is misaligned")
  validateDevicePointer (vector.reachable bytes).data (vector.reachable bytes).size device
    "CUDA could not inspect a sparse vector"

/-- The number of elements has 63 bits. -/
theorem extent_le {vector : VectorDescriptor} {bytes : Nat}
    (h : vectorBytes type vector = .ok bytes) : vector.extent.toNat ≤ 2 ^ 63 := by
  rw [vectorBytes, Result.failIf_bind_eq_ok_iff, not_or] at h
  rcases h with ⟨hmetadata, h⟩
  split at h
  · omega
  · have hmagnitude : 1 ≤ if vector.stride < 0 then -vector.stride else vector.stride := by
      split <;> omega
    have hle : (vector.extent - 1) * 1 ≤
        (vector.extent - 1) * if vector.stride < 0 then -vector.stride else vector.stride :=
      Int.mul_le_mul_of_nonneg_left hmagnitude (by omega)
    rw [Result.failIf_bind_eq_ok_iff, checkedMultiply_bind_eq_ok_iff (by omega) (by omega)] at h
    have hmaximum : int64.maximum = 2 ^ 63 - 1 := rfl
    omega

theorem inspects_validateVector (vector : VectorDescriptor) (device : Int) :
    Inspects (validateVector type vector device : Call Memory Unit)
      fun _ => vector.memorySpace = .device ∧ vector.extent.toNat ≤ 2 ^ 63 := by
  refine (inspects_ofResult _).bind fun _ hspace => ?_
  refine (inspects_ofResult _).bind fun bytes hbytes => ?_
  refine (inspects_ofResult _).bind fun _ _ => ?_
  rw [Result.failIf_eq_ok_iff, not_not] at hspace
  exact (inspects_validateDevicePointer _ _ _ _).mono fun _ _ => ⟨hspace, extent_le type hbytes⟩

variable {type} {view : SparseBlasVectorView type}

/-- A view with elements reaches what it says. -/
theorem reachable_describeVector (h : view.Checked) (hsize : 0 < view.size) (calculated : Nat) :
    (describeVector view).reachable calculated = view.reachableStorage := by
  have hdata : view.reachableData ≠ 0 ∧ view.reachableSize ≠ 0 := by
    have hsize' := type.size_pos
    rcases h.spec hsize with ⟨-, other, hother, hfirst, hlast⟩
    have hnonzero : view.size ≠ 0 := by omega
    unfold SparseBlasVectorView.Checked SparseBlasVectorView.create at h
    simp only [Result.failIf_bind_eq_ok_iff, if_neg hnonzero] at h
    rcases h with ⟨-, hbacking, -, h⟩
    rcases Result.bind_eq_ok_iff.1 h with ⟨elementOffset, -, h⟩
    rcases Result.bind_eq_ok_iff.1 h with ⟨byteOffset, -, h⟩
    rcases Result.bind_eq_ok_iff.1 h with ⟨other', -, h⟩
    simp only [Result.failIf_bind_eq_ok_iff] at h
    rcases h with ⟨-, hinside, hview⟩
    have heq := congrArg SparseBlasVectorView.reachableData (Except.ok.inj hview)
    simp only at heq
    omega
  rw [VectorDescriptor.reachable, reachable, describeVector, if_neg hdata.1, if_neg hdata.2]
  rfl

end Vectors

/-! ## Dense matrices -/

/-- `MatrixDescriptor`. -/
structure MatrixDescriptor where
  data : Nat
  reachableData : Nat
  reachableSize : Nat
  memorySpace : MemorySpace
  rows : Int
  columns : Int
  leadingDimension : Int
  layout : SparseBlasLayout

namespace MatrixDescriptor

/-- The offset that `DenseMatrixAt` computes. -/
def offset (matrix : MatrixDescriptor) (row column : Int) : Int :=
  match matrix.layout with
  | .columnMajor => column * matrix.leadingDimension + row
  | .rowMajor => row * matrix.leadingDimension + column

/-- The address that `DenseMatrixAt` refers to. -/
def elementAt (type : Representation Cell V) (matrix : MatrixDescriptor) (row column : Int) : Nat :=
  (matrix.data + matrix.offset row column * type.size).toNat

def reachable (matrix : MatrixDescriptor) (calculated : Nat) : ConstMemoryView :=
  Cuda.reachable matrix.data matrix.reachableData matrix.reachableSize calculated
    matrix.memorySpace

/-- `rows * columns`, in the arithmetic of `std::uint64_t`. -/
def elementCount (matrix : MatrixDescriptor) : Nat :=
  matrix.rows.toNat * matrix.columns.toNat % 2 ^ 64

end MatrixDescriptor

/-- `Describe`. -/
def describeMatrix {type : Representation Cell V} (view : SparseBlasMatrixView type) :
    MatrixDescriptor where
  data := view.data
  reachableData := view.bounds.data
  reachableSize := view.bounds.size
  memorySpace := view.memorySpace
  rows := view.rows
  columns := view.columns
  leadingDimension := view.leadingDimension
  layout := view.layout

/-- A vector as the one column of a matrix. -/
def describeColumn {type : Representation Cell V} (view : SparseBlasVectorView type) :
    MatrixDescriptor where
  data := view.data
  reachableData := view.reachableData
  reachableSize := view.reachableSize
  memorySpace := view.memorySpace
  rows := view.size
  columns := 1
  leadingDimension := view.increment
  layout := .rowMajor

section DenseMatrices

variable (type : Representation Cell V)

def leadingMagnitude (matrix : MatrixDescriptor) : Result Int :=
  if matrix.leadingDimension < 0 then checkedMultiply int64 matrix.leadingDimension (-1)
  else .ok matrix.leadingDimension

/-- The elements that `ValidateMatrixDevice` counts from the first one to the last one. -/
def matrixSpan (matrix : MatrixDescriptor) : Result Int :=
  if matrix.rows ≠ 0 ∧ matrix.columns ≠ 0 then do
    let magnitude ← leadingMagnitude matrix
    let leading ← checkedMultiply int64
      (SparseBlasMatrixView.major matrix.layout matrix.rows matrix.columns - 1) magnitude
    checkedAdd int64 leading
      (SparseBlasMatrixView.contiguous matrix.layout matrix.rows matrix.columns)
  else
    .ok 0

/-- `ValidateMatrixDevice`, with the size that it returns. -/
def validateMatrixDevice (matrix : MatrixDescriptor) (device : Int) : Call Memory Nat := do
  Effect.ofResult (failIf
    (matrix.rows < 0 ∨ matrix.columns < 0 ∨ matrix.memorySpace ≠ .device)
    { code := .invalidArgument
      message := "A CUDA Sparse BLAS dense-matrix descriptor is invalid" })
  let contiguous := SparseBlasMatrixView.contiguous matrix.layout matrix.rows matrix.columns
  let vectorLike := matrix.layout = .rowMajor ∧ matrix.columns = 1
  Effect.ofResult (failIf
    ((¬ vectorLike ∧ matrix.leadingDimension < max 1 contiguous) ∨
      (vectorLike ∧ matrix.leadingDimension = 0))
    { code := .invalidArgument
      message := "A CUDA Sparse BLAS leading dimension is too small" })
  let span ← Effect.ofResult (matrixSpan matrix)
  let count ← Effect.ofResult (checkedCast sizeType span)
  let bytes ← Effect.ofResult (checkedBytes count type.size)
  Effect.ofResult (validateAddress (matrix.reachable bytes).data (matrix.reachable bytes).size
    type.alignment "A nonempty CUDA Sparse BLAS matrix cannot be null"
    "A CUDA Sparse BLAS matrix is misaligned")
  validateDevicePointer (matrix.reachable bytes).data (matrix.reachable bytes).size device
    "CUDA could not inspect a Sparse BLAS dense matrix"
  pure (matrix.reachable bytes).size

variable {type} {matrix : MatrixDescriptor}

/-- The number of elements has 63 bits, so that its product does not wrap. -/
theorem elementCount_eq (hextents : 0 ≤ matrix.rows ∧ 0 ≤ matrix.columns)
    (hleading : SparseBlasMatrixView.contiguous matrix.layout matrix.rows matrix.columns ≤
      |matrix.leadingDimension|) {span : Int} (hspan : matrixSpan matrix = .ok span) :
    matrix.elementCount = matrix.rows.toNat * matrix.columns.toNat ∧
      matrix.rows.toNat * matrix.columns.toNat ≤ 2 ^ 63 := by
  have hproduct : ((matrix.rows.toNat * matrix.columns.toNat : Nat) : Int) =
      matrix.rows * matrix.columns := by
    rw [Nat.cast_mul, Int.toNat_of_nonneg hextents.1, Int.toNat_of_nonneg hextents.2]
  have hbound : matrix.rows * matrix.columns ≤ int64.maximum := by
    by_cases hempty : matrix.rows ≠ 0 ∧ matrix.columns ≠ 0
    · rw [matrixSpan, if_pos hempty] at hspan
      rcases Result.bind_eq_ok_iff.1 hspan with ⟨magnitude, hmagnitude, hspan⟩
      have hmagnitude' : magnitude = |matrix.leadingDimension| := by
        unfold leadingMagnitude at hmagnitude
        split at hmagnitude
        · rw [checkedMultiply_ok_eq hmagnitude, abs_of_neg ‹_›, mul_neg_one]
        · cases hmagnitude
          rw [abs_of_nonneg (not_lt.1 ‹_›)]
      have hpositive : 1 ≤ SparseBlasMatrixView.major matrix.layout matrix.rows matrix.columns ∧
          1 ≤ SparseBlasMatrixView.contiguous matrix.layout matrix.rows matrix.columns := by
        unfold SparseBlasMatrixView.major SparseBlasMatrixView.contiguous
        cases matrix.layout <;> simp only <;> omega
      rw [← hmagnitude'] at hleading
      rw [checkedMultiply_bind_eq_ok_iff (by omega) (by omega)] at hspan
      rcases hspan with ⟨hlines, hadd⟩
      rw [checkedAdd_of_nonneg (by omega) hlines] at hadd
      split at hadd
      · -- Every line has room for its elements.
        have hle := Int.mul_le_mul_of_nonneg_left hleading
          (by omega : 0 ≤ SparseBlasMatrixView.major matrix.layout matrix.rows matrix.columns - 1)
        have hcount : matrix.rows * matrix.columns =
            (SparseBlasMatrixView.major matrix.layout matrix.rows matrix.columns - 1) *
              SparseBlasMatrixView.contiguous matrix.layout matrix.rows matrix.columns +
                SparseBlasMatrixView.contiguous matrix.layout matrix.rows matrix.columns := by
          unfold SparseBlasMatrixView.major SparseBlasMatrixView.contiguous
          cases matrix.layout <;> simp only <;> ring
        omega
      · cases hadd
    · have hzero : matrix.rows * matrix.columns = 0 := by
        rw [not_and_or, not_not, not_not] at hempty
        exact mul_eq_zero.2 hempty
      rw [hzero]
      exact int64.maximum_nonneg
  have hmaximum : int64.maximum = 2 ^ 63 - 1 := rfl
  have hlt : matrix.rows.toNat * matrix.columns.toNat ≤ 2 ^ 63 := by omega
  exact ⟨Nat.mod_eq_of_lt (by omega), hlt⟩

theorem inspects_validateMatrixDevice (type : Representation Cell V) (matrix : MatrixDescriptor)
    (device : Int) :
    Inspects (validateMatrixDevice type matrix device : Call Memory Nat)
      fun size => (0 ≤ matrix.rows ∧ 0 ≤ matrix.columns) ∧
        (matrix.elementCount = matrix.rows.toNat * matrix.columns.toNat ∧
          matrix.rows.toNat * matrix.columns.toNat ≤ 2 ^ 63) ∧
        ∃ calculated, size = (matrix.reachable calculated).size := by
  refine (inspects_ofResult _).bind fun _ hdescriptor => ?_
  refine (inspects_ofResult _).bind fun _ hleading => ?_
  refine (inspects_ofResult _).bind fun span hspan => ?_
  refine (inspects_ofResult _).bind fun _ _ => ?_
  refine (inspects_ofResult _).bind fun bytes _ => ?_
  refine (inspects_ofResult _).bind fun _ _ => ?_
  refine (inspects_validateDevicePointer _ _ _ _).bind fun _ _ => ?_
  rw [Result.failIf_eq_ok_iff] at hdescriptor hleading
  have hextents : 0 ≤ matrix.rows ∧ 0 ≤ matrix.columns := by omega
  refine inspects_pure ⟨hextents, elementCount_eq hextents ?_ hspan, bytes, rfl⟩
  by_cases hvector : matrix.layout = .rowMajor ∧ matrix.columns = 1
  · have hnonzero : matrix.leadingDimension ≠ 0 := fun hzero => hleading (Or.inr ⟨hvector, hzero⟩)
    simp only [SparseBlasMatrixView.contiguous, hvector.1, hvector.2]
    exact Int.one_le_abs hnonzero
  · have hle : ¬ matrix.leadingDimension <
        max 1 (SparseBlasMatrixView.contiguous matrix.layout matrix.rows matrix.columns) :=
      fun hlt => hleading (Or.inl ⟨hvector, hlt⟩)
    exact (le_max_right _ _).trans ((not_lt.1 hle).trans (le_abs_self _))

/-- A view with elements reaches what it says. -/
theorem reachable_describeMatrix {view : SparseBlasMatrixView type} (h : view.Checked)
    (hnonempty : view.rows ≠ 0 ∧ view.columns ≠ 0) (calculated : Nat) :
    (describeMatrix view).reachable calculated = view.reachableStorage := by
  have hsize' := type.size_pos
  rcases h.spec.2.2 hnonempty with ⟨hdata, hsize⟩
  have hinside := @SparseBlasMatrixView.Checked.elementAt_inside _ _ _ view h 0 0
    (by have hextents := h.spec.1; omega) (by have hextents := h.spec.1; omega)
  have hbounds : view.bounds.data ≠ 0 ∧ view.bounds.size ≠ 0 := by
    refine ⟨?_, fun hzero => ?_⟩
    · rw [hdata]
      unfold SparseBlasMatrixView.Checked SparseBlasMatrixView.create at h
      simp only [Result.failIf_bind_eq_ok_iff] at h
      rcases Result.bind_eq_ok_iff.1 h.2.2 with ⟨span, hspan, hchecked⟩
      rcases Result.bind_eq_ok_iff.1 hchecked with ⟨bounds, hbounds, hview⟩
      have heq := congrArg SparseBlasMatrixView.bounds (Except.ok.inj hview)
      simp only at heq
      unfold validateStorageBounds at hbounds
      rw [Result.failIf_bind_eq_ok_iff] at hbounds
      rcases hbounds with ⟨-, hbounds⟩
      split at hbounds
      · -- A span of no elements has no bytes.
        cases hbounds
        rw [← heq] at hinside
        simp only at hinside
        omega
      · rw [Result.failIf_bind_eq_ok_iff] at hbounds
        exact fun hzero => hbounds.1 (Or.inl hzero)
    · omega
  rw [MatrixDescriptor.reachable, reachable, describeMatrix, if_neg hbounds.1, if_neg hbounds.2]
  rfl

theorem elementAt_describeMatrix {view : SparseBlasMatrixView type} (h : view.Checked)
    {row column : Int} (hrow : 0 ≤ row ∧ row < view.rows)
    (hcolumn : 0 ≤ column ∧ column < view.columns) :
    (describeMatrix view).elementAt type row column = view.elementAt row column := by
  have hoffset : (describeMatrix view).offset row column = view.offset row column := rfl
  have hnonneg := (h.offset_spec hrow hcolumn).1
  rw [MatrixDescriptor.elementAt, SparseBlasMatrixView.elementAt, hoffset]
  lift view.offset row column to Nat using hnonneg with offset
  rw [Int.toNat_natCast]
  exact Int.toNat_natCast (view.data + offset * type.size)

theorem elementAt_describeColumn (view : SparseBlasVectorView type) (row : Int) :
    (describeColumn view).elementAt type row 0 = view.vectorAt row := by
  simp only [MatrixDescriptor.elementAt, MatrixDescriptor.offset, describeColumn, add_zero,
    SparseBlasVectorView.vectorAt]

end DenseMatrices

/-! ## The operands on the host -/

section OnHost

variable {type : Representation Cell V}

/-- A vector, as the host would see its storage. -/
def onHostVector (view : SparseBlasVectorView type) :
    SparseBlasVectorView type :=
  { view with backingStorage := { view.backingStorage with space := .host } }

/-- A matrix, as the host would see its storage. -/
def onHostMatrix (view : SparseBlasMatrixView type) :
    SparseBlasMatrixView type :=
  { view with backingStorage := { view.backingStorage with space := .host } }

theorem checked_onHostVector {view : SparseBlasVectorView type}
    (h : view.Checked) : (onHostVector view).Checked := by
  unfold SparseBlasVectorView.Checked SparseBlasVectorView.create at h ⊢
  by_cases hempty : view.size = 0
  · have hsize : (onHostVector view).size = 0 := hempty
    simp only [if_pos hempty, Result.bind_eq_ok_iff] at h
    simp only [if_pos hsize, Result.bind_eq_ok_iff]
    rcases h with ⟨_, hvalid, hview⟩
    exact ⟨_, hvalid, congrArg (fun view => Except.ok (onHostVector view)) (Except.ok.inj hview)⟩
  · have hsize : (onHostVector view).size ≠ 0 := hempty
    simp only [if_neg hempty, Result.bind_eq_ok_iff] at h
    simp only [if_neg hsize, Result.bind_eq_ok_iff]
    rcases h with ⟨_, hvalid, _, hbacking, _, haligned, elementOffset, helements, byteOffset, hbytes,
      other, hother, _, hspan, _, hinside, hview⟩
    exact ⟨_, hvalid, _, hbacking, _, haligned, elementOffset, helements, byteOffset, hbytes, other,
      hother, _, hspan, _, hinside,
      congrArg (fun view => Except.ok (onHostVector view)) (Except.ok.inj hview)⟩

theorem checked_onHostMatrix {view : SparseBlasMatrixView type}
    (h : view.Checked) : (onHostMatrix view).Checked := by
  unfold SparseBlasMatrixView.Checked SparseBlasMatrixView.create at h ⊢
  simp only [Result.bind_eq_ok_iff] at h ⊢
  rcases h with ⟨_, hextents, _, hleading, span, hspan, bounds, hbounds, hview⟩
  exact ⟨_, hextents, _, hleading, span, hspan, bounds, hbounds,
    congrArg (fun view => Except.ok (onHostMatrix view)) (Except.ok.inj hview)⟩

/-- The host and the device count bytes alike. -/
theorem checkedByteCount_of_checkedBytes {elementCount converted : Int} {elementSize bytes : Nat}
    (hcast : checkedCast sizeType elementCount = .ok converted)
    (h : checkedBytes converted elementSize = .ok bytes) :
    checkedByteCount elementCount elementSize = .ok bytes := by
  rcases Result.bind_eq_ok_iff.1 h with ⟨product, hproduct, h⟩
  rcases Result.bind_eq_ok_iff.1 h with ⟨size, hsize, hbytes⟩
  cases hbytes
  have hunsigned : sizeType.minimum = 0 := rfl
  have hcount := (checkedCast_ok_eq hcast).2.1
  rcases checkedCast_ok_eq hsize with ⟨rfl, hrange, -⟩
  rw [checkedByteCount, if_neg (by omega), hcast, Int.toNat_of_nonneg (hunsigned ▸ hrange)]
  exact hproduct

end OnHost

end Cuda
end Sparse
end AscCpp
