import AscCpp.Core.Cuda.Kernel
import AscCpp.Sparse.Blas.GatherScatter
import AscCpp.Sparse.Cuda.Arithmetic
import AscCpp.Sparse.Cuda.Operands

/-!
# GatherScatter — level one of the sparse CUDA provider

One kernel does the five operations.  A thread follows the index of its position into the dense
vector; the indices keep their values, and no index comes twice.

- `level1Round_resolves`: a round and one that knows its index.
- `level1Kernel_ends`: every interleaving leaves what the loop of the host leaves.
- `device_level1_correct`: the operations of the device and of the host.
-/

namespace AscCpp
namespace Sparse
namespace Cuda

open AscCpp.Core AscCpp.Core.Cuda Library Effect Blas

variable {Cell V : Type} {indexType : Representation Cell Int} {type : LocalRepresentation Cell V}

/-! ## The kernel -/

inductive StandardOperation where
  | dot
  | axpy
  | gather
  | gatherZero
  | scatter
  deriving DecidableEq, Repr

/-- What a thread does with a value and the dense element at its index. -/
def level1Action [DeviceArithmetic V] (type : LocalRepresentation Cell V) (operation : StandardOperation) (alpha : V)
    (value denseValue : Nat) : Program (Nat → Cell) Unit :=
  match operation with
  | .axpy => do
    let old ← Program.load type.toRepresentation denseValue
    let stored ← Program.load type.toRepresentation value
    Program.store type.toRepresentation denseValue
      (DeviceArithmetic.add old (DeviceArithmetic.multiply alpha stored))
  | .gather => do
    let gathered ← Program.load type.toRepresentation denseValue
    Program.store type.toRepresentation value gathered
  | .gatherZero => do
    let gathered ← Program.load type.toRepresentation denseValue
    Program.store type.toRepresentation value gathered
    Program.store type.toRepresentation denseValue DeviceArithmetic.zero
  | .scatter => do
    let stored ← Program.load type.toRepresentation value
    Program.store type.toRepresentation denseValue stored
  | .dot => pure ()

section Kernel

variable [DeviceArithmetic V] (sparse : SparseBlasIndexedVectorView indexType type.toRepresentation)
  (dense result : SparseBlasVectorView type.toRepresentation)

/-- One round of the loop over the positions. -/
def level1Round (operation : StandardOperation) (alpha : V) (position : Nat) :
    Program (Nat → Cell) Unit := do
  let index ← Program.load indexType (sparse.indices + position * indexType.size)
  level1Action type operation alpha (sparse.elementAt position) (dense.vectorAt index)

/-- What the first thread does for a dot product. -/
def dotProgram (conjugation : SparseBlasConjugation) : Program (Nat → Cell) Unit := do
  let sum ← (List.range sparse.count).foldlM
    (fun sum position => do
      let value ← Program.load type.toRepresentation (sparse.elementAt position)
      let index ← Program.load indexType (sparse.indices + position * indexType.size)
      let factor ← Program.load type.toRepresentation (dense.vectorAt index)
      let value := if conjugation = .conjugated then DeviceArithmetic.conjugate value else value
      pure (DeviceArithmetic.add sum (DeviceArithmetic.multiply value factor)))
    DeviceArithmetic.zero
  Program.store type.toRepresentation (result.vectorAt 0) sum

/-- `StandardLevel1Kernel`, with the blocks that `LaunchStandardLevel1Typed` gives it. -/
def standardLevel1Kernel (operation : StandardOperation) (conjugation : SparseBlasConjugation)
    (alpha : V) : Launch (Nat → Cell) :=
  if operation = .dot then
    { blocks := 1
      threadsPerBlock := threadsPerBlock
      thread := fun thread =>
        if thread.1.val ≠ 0 ∨ thread.2.val ≠ 0 then pure ()
        else dotProgram sparse dense result conjugation }
  else
    .loopUnless (operation = .axpy ∧ DeviceArithmetic.isZero alpha = true) sparse.count
      (level1Round sparse dense operation alpha)

/-- `LaunchStandardLevel1`. -/
def level1Launches (operation : StandardOperation) (conjugation : SparseBlasConjugation) (alpha : V) :
    List (Launch (Nat → Cell) × String) :=
  if operation ≠ .dot ∧ sparse.nonzeros = 0 then []
  else [(standardLevel1Kernel sparse dense result operation conjugation alpha,
    "CUDA could not launch a Sparse BLAS level-one kernel")]

end Kernel

/-! ## Operations -/

/-- The bytes of the two arrays of an indexed vector. -/
structure IndexedBytes where
  indices : Nat
  values : Nat
  deriving DecidableEq, Repr

/-- The descriptor of an indexed vector has the fields of the view. -/
def validateIndexedMetadata (sparse : SparseBlasIndexedVectorView indexType type.toRepresentation) :
    Result IndexedBytes := do
  failIf (sparse.nonzeros < 0 ∨ sparse.denseExtent < 0 ∨ sparse.nonzeros > sparse.denseExtent ∨
      sparse.canonicalStructureTrusted = false)
    { code := .invalidArgument
      message := "CUDA Sparse BLAS requires a canonical indexed vector" }
  let count ← checkedCast sizeType sparse.nonzeros
  let indices ← checkedBytes count indexType.size
  let values ← checkedBytes count type.size
  validateAddress sparse.indices indices indexType.alignment
    "A nonempty CUDA indexed vector requires indices" "CUDA indexed-vector indices are misaligned"
  validateAddress sparse.values values type.alignment
    "A nonempty CUDA indexed vector requires values" "CUDA indexed-vector values are misaligned"
  failIf (overlap ⟨sparse.indices, indices, sparse.memorySpace⟩
      ⟨sparse.values, values, sparse.memorySpace⟩ = true)
    { code := .invalidArgument, message := "CUDA indexed-vector indices and values overlap" }
  .ok { indices := indices, values := values }

def validateIndexedDevice (sparse : SparseBlasIndexedVectorView indexType type.toRepresentation)
    (device : Int) : Call (Nat → Cell) IndexedBytes := do
  Effect.ofResult (failIf (sparse.memorySpace ≠ .device)
    { code := .memoryAccess, message := "CUDA indexed-vector memory or mutability is invalid" })
  let bytes ← Effect.ofResult (validateIndexedMetadata sparse)
  validateDevicePointer sparse.indices bytes.indices device
    "CUDA could not inspect indexed-vector indices"
  validateDevicePointer sparse.values bytes.values device
    "CUDA could not inspect indexed-vector values"
  pure bytes

section Operations

variable (context : SparseCudaContext) (device : Int)
  (sparse : SparseBlasIndexedVectorView indexType type.toRepresentation)
  (dense result : SparseBlasVectorView type.toRepresentation)

/-- The checks of the result of a dot product. -/
def inspectDotResult (bytes : IndexedBytes) (denseStorage : ConstMemoryView) :
    Call (Nat → Cell) Unit := do
  validateVector type.toRepresentation (describeVector result) device
  Effect.ofResult (failIf (result.size ≠ 1)
    { code := .shape, message := "CUDA sparse dot requires one result element" })
  let resultBytes ← Effect.ofResult (vectorBytes type.toRepresentation (describeVector result))
  let storage := (describeVector result).reachable resultBytes
  Effect.ofResult (failIf
    ((overlap storage denseStorage ||
      overlap storage ⟨sparse.indices, bytes.indices, sparse.memorySpace⟩ ||
      overlap storage ⟨sparse.values, bytes.values, sparse.memorySpace⟩) = true)
    { code := .invalidArgument, message := "CUDA sparse dot result overlaps an input" })

/-- The checks of `StandardLevel1Erased`. -/
def inspectLevel1 (operation : StandardOperation) : Call (Nat → Cell) Unit := do
  let bytes ← validateIndexedDevice sparse device
  validateVector type.toRepresentation (describeVector dense) device
  Effect.ofResult (failIf (dense.size ≠ sparse.denseExtent)
    { code := .shape, message := "CUDA Sparse BLAS level-one vector extents do not match" })
  let denseBytes ← Effect.ofResult (vectorBytes type.toRepresentation (describeVector dense))
  let denseStorage := (describeVector dense).reachable denseBytes
  if operation = .dot then
    inspectDotResult device sparse result bytes denseStorage
  else
    Effect.ofResult (failIf
      ((overlap ⟨sparse.values, bytes.values, sparse.memorySpace⟩ denseStorage ||
        overlap ⟨sparse.indices, bytes.indices, sparse.memorySpace⟩ denseStorage) = true)
      { code := .invalidArgument
        message := "CUDA Sparse BLAS level-one writable operands overlap" })

variable [DeviceArithmetic V]

def standardLevel1Erased (operation : StandardOperation) (conjugation : SparseBlasConjugation)
    (alpha : V) : Call (Nat → Cell) Nat := do
  let execution ← Effect.ofResult (validateContext context)
  withDevice context.executionContext.ordinal do
    inspectLevel1 context.executionContext.ordinal sparse dense result operation
    launchAll execution.stream false
      (level1Launches sparse dense result operation conjugation alpha)
    recordOrDrain context.executionContext execution

/-- The result that the operations without one pass on. -/
def noResult : SparseBlasVectorView type.toRepresentation where
  data := 0
  size := 0
  increment := 1
  backingStorage := ⟨0, 0, .host⟩
  reachableData := 0
  reachableSize := 0

variable [CommRing V]

def cudaSparseDot (conjugation : SparseBlasConjugation) : Call (Nat → Cell) Nat :=
  standardLevel1Erased context sparse dense result .dot conjugation 1

def cudaSparseAxpy (alpha : V) : Call (Nat → Cell) Nat :=
  standardLevel1Erased context sparse dense noResult .axpy .unconjugated alpha

def cudaSparseGather : Call (Nat → Cell) Nat :=
  standardLevel1Erased context sparse dense noResult .gather .unconjugated 0

def cudaSparseGatherZero : Call (Nat → Cell) Nat :=
  standardLevel1Erased context sparse dense noResult .gatherZero .unconjugated 0

def cudaSparseScatter : Call (Nat → Cell) Nat :=
  standardLevel1Erased context sparse dense noResult .scatter .unconjugated 0

end Operations

/-! ## What the checks establish -/

section Checks

variable {device : Int} {sparse : SparseBlasIndexedVectorView indexType type.toRepresentation}
  {dense result : SparseBlasVectorView type.toRepresentation} {operation : StandardOperation}

/-- An indexed vector, as the host would see its arrays. -/
def onHostIndexed (sparse : SparseBlasIndexedVectorView indexType type.toRepresentation) :
    SparseBlasIndexedVectorView indexType type.toRepresentation :=
  { sparse with
    indexStorage := ⟨sparse.indices, sparse.count * indexType.size, .host⟩
    valueStorage := ⟨sparse.values, sparse.count * type.size, .host⟩
    canonicalStructureTrusted := true }

/-- The operands fit, and those that are written keep apart. -/
structure Level1Inspected (operation : StandardOperation)
    (sparse : SparseBlasIndexedVectorView indexType type.toRepresentation)
    (dense : SparseBlasVectorView type.toRepresentation) : Prop where
  extents : dense.size = sparse.denseExtent
  nonneg : 0 ≤ sparse.nonzeros
  count_le : sparse.count ≤ 2 ^ 63
  values_apart : operation ≠ .dot →
    overlap (onHostIndexed sparse).valueStorage (onHostVector dense).reachableStorage = false
  indices_apart : operation ≠ .dot →
    overlap (onHostIndexed sparse).indexStorage (onHostVector dense).reachableStorage = false

theorem validateIndexedMetadata_spec {bytes : IndexedBytes}
    (h : validateIndexedMetadata sparse = .ok bytes) :
    0 ≤ sparse.nonzeros ∧ sparse.nonzeros ≤ sparse.denseExtent ∧
      bytes.indices = sparse.count * indexType.size ∧ bytes.values = sparse.count * type.size := by
  rw [validateIndexedMetadata, Result.failIf_bind_eq_ok_iff] at h
  simp only [Result.bind_eq_ok_iff] at h
  rcases h with ⟨hdescriptor, count, hcount, indices, hindices, values, hvalues, _, -, _, -, _, -,
    hbytes⟩
  cases hbytes
  have hnonneg : 0 ≤ sparse.nonzeros := by omega
  have hindexBytes := checkedBytes_ok_eq hindices
  have hvalueBytes := checkedBytes_ok_eq hvalues
  have hexact : (sparse.count : Int) = sparse.nonzeros := Int.toNat_of_nonneg hnonneg
  rw [(checkedCast_ok_eq hcount).1, ← hexact] at hindexBytes hvalueBytes
  exact ⟨hnonneg, by omega, by exact_mod_cast hindexBytes, by exact_mod_cast hvalueBytes⟩

theorem inspects_validateIndexedDevice (sparse : SparseBlasIndexedVectorView indexType type.toRepresentation)
    (device : Int) :
    Inspects (validateIndexedDevice sparse device) fun bytes =>
      0 ≤ sparse.nonzeros ∧ sparse.nonzeros ≤ sparse.denseExtent ∧
        bytes.indices = sparse.count * indexType.size ∧
          bytes.values = sparse.count * type.size := by
  refine (inspects_ofResult _).bind fun _ _ => ?_
  refine (inspects_ofResult _).bind fun bytes hbytes => ?_
  refine (inspects_validateDevicePointer _ _ _ _).bind fun _ _ => ?_
  refine (inspects_validateDevicePointer _ _ _ _).bind fun _ _ => ?_
  exact inspects_pure (validateIndexedMetadata_spec hbytes)

theorem inspects_inspectLevel1 (hdense : dense.Checked) :
    Inspects (inspectLevel1 device sparse dense result operation)
      fun _ => Level1Inspected operation sparse dense := by
  refine (inspects_validateIndexedDevice sparse device).bind fun bytes hbytes => ?_
  refine (inspects_validateVector _ _ device).bind fun _ hvector => ?_
  refine (inspects_ofResult _).bind fun _ hextents => ?_
  refine (inspects_ofResult _).bind fun denseBytes _ => ?_
  rw [Result.failIf_eq_ok_iff, not_not] at hextents
  rcases hbytes with ⟨hnonneg, hle, hindices, hvalues⟩
  have hcount : sparse.count ≤ 2 ^ 63 := by
    have hextent : dense.size.toNat ≤ 2 ^ 63 := hvector.2
    have hexact : sparse.count = sparse.nonzeros.toNat := rfl
    omega
  split
  · have hidle : Inspects (inspectDotResult device sparse result bytes
        ((describeVector dense).reachable denseBytes)) fun _ => True := by
      refine (inspects_validateVector _ _ device).bind fun _ _ => ?_
      refine (inspects_ofResult _).bind fun _ _ => ?_
      refine (inspects_ofResult _).bind fun _ _ => ?_
      exact (inspects_ofResult _).mono fun _ _ => trivial
    exact hidle.mono fun _ _ =>
      ⟨hextents, hnonneg, hcount, fun hne => absurd ‹_› hne, fun hne => absurd ‹_› hne⟩
  · refine (inspects_ofResult _).mono fun _ hoverlap => ?_
    rw [Result.failIf_eq_ok_iff, Bool.not_eq_true, Bool.or_eq_false_iff, hindices, hvalues] at hoverlap
    -- A dense vector without elements has no place for an index.
    by_cases hempty : dense.size = 0
    · have hnone : sparse.count = 0 := by
        have hexact : sparse.count = sparse.nonzeros.toNat := rfl
        omega
      have hfalse : ∀ {left right : ConstMemoryView}, left.size = 0 → overlap left right = false :=
        fun hzero => by rw [overlap, if_pos (Or.inl hzero)]
      exact ⟨hextents, hnonneg, hcount,
        fun _ => hfalse (by simp only [onHostIndexed, hnone, Nat.zero_mul]),
        fun _ => hfalse (by simp only [onHostIndexed, hnone, Nat.zero_mul])⟩
    · have hsize : 0 < dense.size := by
        have hnonneg := hdense.size_nonneg
        omega
      rw [reachable_describeVector hdense hsize] at hoverlap
      exact ⟨hextents, hnonneg, hcount, fun _ => hoverlap.1, fun _ => hoverlap.2⟩

/-- The host accepts operands that the device accepts, when it accepts the indices. -/
theorem accepted_onHost {memory : Nat → Cell} (hdense : dense.Checked)
    (h : Level1Inspected operation sparse dense) (hoperation : operation ≠ .dot)
    (hchecked : (onHostIndexed sparse).Checked memory) :
    Accepted (onHostIndexed sparse) (onHostVector dense) memory where
  sparse_checked := hchecked
  sparse_host := rfl
  dense_checked := checked_onHostVector hdense
  dense_host := rfl
  extents := h.extents
  values_apart := h.values_apart hoperation
  indices_apart := h.indices_apart hoperation

end Checks

/-! ## What the kernel leaves -/

section Kernels

variable {sparse : SparseBlasIndexedVectorView indexType type.toRepresentation}
  {dense result : SparseBlasVectorView type.toRepresentation} {operation : StandardOperation}
  {alpha : V} {memory : Nat → Cell} {reads writes : Set Nat}

/-- An action touches the two elements that it is given. -/
theorem within_level1Action [DeviceArithmetic V] {value denseValue : Nat}
    (hvalue : elementCells type.toRepresentation value ⊆ writes)
    (hdense : elementCells type.toRepresentation denseValue ⊆ writes) :
    (level1Action type operation alpha value denseValue).Within reads writes := by
  have hloadValue : (Program.load type.toRepresentation value).Within reads writes :=
    Program.within_load _ (hvalue.trans Set.subset_union_right)
  have hloadDense : (Program.load type.toRepresentation denseValue).Within reads writes :=
    Program.within_load _ (hdense.trans Set.subset_union_right)
  have hstoreValue : ∀ new, (Program.store type.toRepresentation value new).Within reads writes :=
    fun new => Program.within_store type new hvalue
  have hstoreDense : ∀ new,
      (Program.store type.toRepresentation denseValue new).Within reads writes :=
    fun new => Program.within_store type new hdense
  cases operation with
  | dot => exact Program.within_pure ()
  | axpy => exact hloadDense.bind fun old => hloadValue.bind fun stored => hstoreDense _
  | gather => exact hloadDense.bind hstoreValue
  | gatherZero => exact hloadDense.bind fun gathered => (hstoreValue gathered).bind fun _ => hstoreDense _
  | scatter => exact hloadValue.bind hstoreDense

/-- A round that knows its index. -/
def knownRound [DeviceArithmetic V]
    (sparse : SparseBlasIndexedVectorView indexType type.toRepresentation)
    (dense : SparseBlasVectorView type.toRepresentation) (operation : StandardOperation) (alpha : V)
    (memory : Nat → Cell) (position : Nat) : Program (Nat → Cell) Unit := do
  let _ ← Program.load indexType (sparse.indices + position * indexType.size)
  level1Action type operation alpha (sparse.elementAt position)
    (dense.vectorAt (sparse.indexAt memory position))

/-- The bytes of the indices. -/
def indexCells (sparse : SparseBlasIndexedVectorView indexType type.toRepresentation) : Set Nat :=
  {cell | sparse.indexBlock.address ≤ cell ∧ cell < sparse.indexBlock.address + sparse.indexBlock.size}

theorem elementCells_subset_indexCells {position : Nat} (hposition : position < sparse.count) :
    elementCells indexType (sparse.indices + position * indexType.size) ⊆ indexCells sparse := by
  have hle := Nat.mul_le_mul_right indexType.size (Nat.succ_le_of_lt hposition)
  rw [Nat.succ_mul] at hle
  rintro cell ⟨hfirst, hlast⟩
  unfold indexCells SparseBlasIndexedVectorView.indexBlock
  exact ⟨by simp only; omega, by simp only; omega⟩

section Accepted

variable (h : Accepted (onHostIndexed sparse) (onHostVector dense) memory)

include h

/-- The elements of a position are its own. -/
theorem cells_owned {position : Nat} (hposition : position < sparse.count) :
    elementCells type.toRepresentation (sparse.elementAt position) ⊆
        h.pairs.ownedCells (fun item => item.1.val) position ∧
      elementCells type.toRepresentation (dense.vectorAt (sparse.indexAt memory position)) ⊆
        h.pairs.ownedCells (fun item => item.1.val) position := by
  have hlisted := h.listed_address (Accepted.agree_self _ memory) ⟨position, hposition⟩
  have haddress : dense.vectorAt (sparse.indexAt memory position) =
      h.pairs.address (⟨position, hposition⟩, true) := hlisted
  have hown : ∀ place,
      elementCells type.toRepresentation (h.pairs.address (⟨position, hposition⟩, place)) ⊆
        h.pairs.ownedCells (fun item => item.1.val) position :=
    fun place => h.pairs.elementCells_subset_owned rfl
  rw [haddress]
  exact ⟨hown false, hown true⟩

theorem indexCells_outside : indexCells sparse ⊆ h.pairs.outsideCells := by
  rintro cell ⟨hfirst, hlast⟩
  rcases h.index_outside hfirst hlast with ⟨hstored, hlisted⟩
  exact h.pairs_outside hstored hlisted

variable [DeviceArithmetic V]

theorem level1Round_resolves {position : Nat} (hposition : position < sparse.count) :
    Program.Resolves (indexCells sparse) memory (level1Round sparse dense operation alpha position)
      (knownRound sparse dense operation alpha memory position) := by
  rcases cells_owned h hposition with ⟨hvalue, hdense⟩
  refine .load_bind (elementCells_subset_indexCells hposition) ?_
  refine Program.resolves_of_within (@within_level1Action _ _ _ _ alpha ∅ _ _ _ _ hvalue hdense) ?_
  -- The elements of a position are no index.
  rw [Set.disjoint_left]
  rintro cell ⟨item, -, hfirst, hlast⟩ hcell
  rcases indexCells_outside h hcell item with hbefore | hbehind <;> omega

theorem within_knownRound {position : Nat} (hposition : position < sparse.count) :
    (knownRound sparse dense operation alpha memory position).Within h.pairs.outsideCells
      (h.pairs.ownedCells (fun item => item.1.val) position) := by
  rcases cells_owned h hposition with ⟨hvalue, hdense⟩
  refine (Program.within_load _ ?_).bind fun _ => within_level1Action hvalue hdense
  exact (elementCells_subset_indexCells hposition).trans
    ((indexCells_outside h).trans Set.subset_union_left)

/-- However the threads interleave, they leave what the loop over the positions leaves. -/
theorem level1Kernel_ends (hpos : 0 < sparse.count) (hcount : sparse.count ≤ 2 ^ 63) :
    (Launch.loop sparse.count (level1Round sparse dense operation alpha)).EndsIn memory
      ((forM (List.range sparse.count) (level1Round sparse dense operation alpha) :
        Program (Nat → Cell) Unit).exec memory).2 :=
  Launch.owned_ends_of_resolves hpos hcount
    (fun _ hposition => level1Round_resolves h hposition)
    fun _ hposition => within_knownRound h hposition

end Accepted

/-! ### The host -/

variable [DeviceArithmetic V] [CommRing V] [StarRing V] [DecidableEq V]

/-- The operation of the host. -/
def hostLevel1 (operation : StandardOperation) (alpha : V)
    (sparse : SparseBlasIndexedVectorView indexType type.toRepresentation)
    (dense : SparseBlasVectorView type.toRepresentation) : Effect (Nat → Cell) Unit :=
  match operation with
  | .axpy => sparseAxpy .serial alpha sparse dense
  | .gather => sparseGather .serial dense sparse
  | .gatherZero => sparseGatherZero .serial dense sparse
  | .scatter => sparseScatter .serial sparse dense
  | .dot => pure ()

variable [LawfulDeviceArithmetic V]

/-- The loop of the host does what the rounds of the device do, one after the other. -/
theorem exec_hostLevel1 (h : Accepted (onHostIndexed sparse) (onHostVector dense) memory)
    (hoperation : operation ≠ .dot) :
    Effect.exec (hostLevel1 operation alpha (onHostIndexed sparse) (onHostVector dense)) memory =
      some (.ok (), if operation = .axpy ∧ DeviceArithmetic.isZero alpha = true then memory
        else ((forM (List.range sparse.count) (level1Round sparse dense operation alpha) :
          Program (Nat → Cell) Unit).exec memory).2) := by
  have hloop : ∀ body : Nat → Effect (Nat → Cell) Unit,
      (∀ position memory', Repeats (level1Round sparse dense operation alpha position)
        (body position) memory') →
        Effect.exec (forM (List.range sparse.count) body) memory = some (.ok (),
          ((forM (List.range sparse.count) (level1Round sparse dense operation alpha) :
            Program (Nat → Cell) Unit).exec memory).2) := by
    intro body hround
    exact (Repeats.forM (fun _ => True) (fun position _ memory' _ =>
      ⟨hround position memory', trivial⟩) trivial).1
  have hspread : ∀ name, validateSpread name .serial (onHostIndexed sparse) (onHostVector dense) =
      .ok () := h.validateSpread_ok rfl
  have hcollect : ∀ name, validateCollect name .serial (onHostVector dense) (onHostIndexed sparse) =
      .ok () := h.validateCollect_ok rfl
  cases operation with
  | dot => exact absurd rfl hoperation
  | axpy =>
    simp only [hostLevel1, sparseAxpy, hspread, Effect.ofResult_ok_bind, true_and,
      LawfulDeviceArithmetic.isZero_iff]
    by_cases hzero : alpha = 0
    · rw [if_pos hzero, if_pos hzero]
      rfl
    · rw [if_neg hzero, if_neg hzero]
      refine hloop _ fun position memory' => ?_
      simp only [level1Round, level1Action, LawfulDeviceArithmetic.add_eq,
        LawfulDeviceArithmetic.multiply_eq]
      rfl
  | gather =>
    simp only [hostLevel1, sparseGather, hcollect, Effect.ofResult_ok_bind]
    exact hloop _ fun _ _ => rfl
  | gatherZero =>
    simp only [hostLevel1, sparseGatherZero, hcollect, Effect.ofResult_ok_bind]
    refine hloop _ fun position memory' => ?_
    simp only [level1Round, level1Action, LawfulDeviceArithmetic.zero_eq]
    rfl
  | scatter =>
    simp only [hostLevel1, sparseScatter, hspread, Effect.ofResult_ok_bind]
    exact hloop _ fun _ _ => rfl

/-- The kernel leaves what the host leaves. -/
theorem level1Launches_end (h : Accepted (onHostIndexed sparse) (onHostVector dense) memory)
    (hoperation : operation ≠ .dot) (hnonneg : 0 ≤ sparse.nonzeros) (hcount : sparse.count ≤ 2 ^ 63)
    (conjugation : SparseBlasConjugation) :
    ∃ last, StreamEndsIn
        ((level1Launches sparse dense result operation conjugation alpha).map Prod.fst) memory last ∧
      Effect.exec (hostLevel1 operation alpha (onHostIndexed sparse) (onHostVector dense)) memory =
        some (.ok (), last) := by
  rw [exec_hostLevel1 h hoperation]
  unfold level1Launches
  by_cases hempty : operation ≠ .dot ∧ sparse.nonzeros = 0
  · rw [if_pos hempty]
    have hnone : sparse.count = 0 := by
      have hexact : sparse.count = sparse.nonzeros.toNat := rfl
      omega
    refine ⟨memory, .nil memory, ?_⟩
    rw [hnone]
    split <;> rfl
  · rw [if_neg hempty]
    refine ⟨_, .single ?_, rfl⟩
    have hpos : 0 < sparse.count := by
      have hexact : sparse.count = sparse.nonzeros.toNat := rfl
      have hne : sparse.nonzeros ≠ 0 := fun hzero => hempty ⟨hoperation, hzero⟩
      omega
    rw [standardLevel1Kernel, if_neg hoperation]
    exact Launch.loopUnless_ends _ (level1Kernel_ends h hpos hcount)

omit [DecidableEq V] in
/-- The first thread stores the dot product of the host. -/
theorem dotLaunches_end (hextents : dense.size = sparse.denseExtent)
    (conjugation : SparseBlasConjugation) (memory : Nat → Cell) :
    ∃ value, sparseDot .serial conjugation (onHostIndexed sparse) (onHostVector dense) memory =
        .ok value ∧
      StreamEndsIn ((level1Launches sparse dense result .dot conjugation 1).map Prod.fst) memory
        (type.store memory (result.vectorAt 0) value) := by
  let sum := (List.range sparse.count).foldl
    (fun sum position => sum + maybeConjugate (sparse.valueAt memory position)
      (conjugation = .conjugated) * dense.value memory (sparse.indexAt memory position)) 0
  have hvalid : validateDot .serial (onHostIndexed sparse) (onHostVector dense) = .ok () := by
    have hsizes : (onHostVector dense).size = (onHostIndexed sparse).denseExtent := hextents
    rw [validateDot, validateSerial_ok rfl, failIf, if_neg (not_not.2 hsizes)]
    rfl
  have hexec : (dotProgram sparse dense result conjugation).exec memory =
      ((), type.store memory (result.vectorAt 0) sum) := by
    have hloop := @Program.exec_foldlM (Nat → Cell) Nat V (List.range sparse.count)
      (fun sum position => do
        let value ← Program.load type.toRepresentation (sparse.elementAt position)
        let index ← Program.load indexType (sparse.indices + position * indexType.size)
        let factor ← Program.load type.toRepresentation (dense.vectorAt index)
        pure (sum + maybeConjugate value (conjugation = .conjugated) * factor))
      (fun sum position => sum + maybeConjugate (sparse.valueAt memory position)
        (conjugation = .conjugated) * dense.value memory (sparse.indexAt memory position)) memory
      (fun _ _ _ => rfl) 0
    unfold dotProgram
    simp only [conjugate_eq_maybeConjugate, LawfulDeviceArithmetic.add_eq,
      LawfulDeviceArithmetic.multiply_eq, LawfulDeviceArithmetic.zero_eq]
    rw [Program.exec_bind, hloop]
    rfl
  refine ⟨sum, ?_, ?_⟩
  · rw [sparseDot, hvalid]
    rfl
  · have hends := Launch.first_ends Nat.one_pos threadsPerBlock_pos
      (dotProgram sparse dense result conjugation) memory
    rw [hexec] at hends
    rw [level1Launches, if_neg fun h => h.1 rfl]
    exact .single hends

end Kernels

/-! ## The result -/

section Result

variable [CommRing V] [StarRing V] [DecidableEq V] [DeviceArithmetic V] [LawfulDeviceArithmetic V]
  {execution : ExecutionState} {api : Api (Nat → Cell)}
  {sparse : SparseBlasIndexedVectorView indexType type.toRepresentation}
  {dense result : SparseBlasVectorView type.toRepresentation} {operation : StandardOperation}
  {alpha : V} {conjugation : SparseBlasConjugation}

theorem yields_standardLevel1 (hserves : Serves execution api) (hdense : dense.Checked)
    (hoperation : operation ≠ .dot) :
    Yields (standardLevel1Erased (.ofState execution) sparse dense result operation conjugation alpha)
      api
      (fun event api' => RepeatsHost execution
        (level1Launches sparse dense result operation conjugation alpha)
        (onHostIndexed sparse).Checked
        (hostLevel1 operation alpha (onHostIndexed sparse) (onHostVector dense)) api event api')
      (Fails execution api) := by
  refine Yields.ofResult_ok (validateContext_ofState execution) ?_
  refine yields_repeatsHost hserves (inspects_inspectLevel1 hdense) fun hinspected memory hchecked => ?_
  exact level1Launches_end (accepted_onHost hdense hinspected hoperation hchecked) hoperation
    hinspected.nonneg hinspected.count_le conjugation

/-- The operations of level one leave, however the threads of their kernel interleave, what those of
the host leave on the same operands, whose indices the host accepts; a dot product stores in its
result what the host returns.  They hand out one event behind the kernel, or fail as submissions
do. -/
theorem device_level1_correct (execution : ExecutionState) (api : Api (Nat → Cell))
    (hserves : Serves execution api)
    (sparse : SparseBlasIndexedVectorView indexType type.toRepresentation)
    (dense : SparseBlasVectorView type.toRepresentation) (hdense : dense.Checked) :
    (∀ (conjugation : SparseBlasConjugation) (result : SparseBlasVectorView type.toRepresentation),
      Yields (cudaSparseDot (.ofState execution) sparse dense result conjugation) api
        (fun event api' =>
          Submitted execution ((level1Launches sparse dense result .dot conjugation 1).map
              fun launch => .kernel launch.1) api event api' ∧
            Restored api api' ∧
              ∀ memory, ∃ value,
                sparseDot .serial conjugation (onHostIndexed sparse) (onHostVector dense) memory =
                  .ok value ∧
                StreamEndsIn ((level1Launches sparse dense result .dot conjugation 1).map Prod.fst)
                  memory (type.store memory (result.vectorAt 0) value))
        (Fails execution api)) ∧
      (∀ alpha : V,
        Yields (cudaSparseAxpy (.ofState execution) sparse dense alpha) api
          (fun event api' => RepeatsHost execution
            (level1Launches sparse dense noResult .axpy .unconjugated alpha)
            (onHostIndexed sparse).Checked
            (sparseAxpy .serial alpha (onHostIndexed sparse) (onHostVector dense)) api event api')
          (Fails execution api)) ∧
      Yields (cudaSparseGather (.ofState execution) sparse dense) api
        (fun event api' => RepeatsHost execution
          (level1Launches sparse dense noResult .gather .unconjugated 0)
          (onHostIndexed sparse).Checked
          (sparseGather .serial (onHostVector dense) (onHostIndexed sparse)) api event api')
        (Fails execution api) ∧
      Yields (cudaSparseGatherZero (.ofState execution) sparse dense) api
        (fun event api' => RepeatsHost execution
          (level1Launches sparse dense noResult .gatherZero .unconjugated 0)
          (onHostIndexed sparse).Checked
          (sparseGatherZero .serial (onHostVector dense) (onHostIndexed sparse)) api event api')
        (Fails execution api) ∧
      Yields (cudaSparseScatter (.ofState execution) sparse dense) api
        (fun event api' => RepeatsHost execution
          (level1Launches sparse dense noResult .scatter .unconjugated 0)
          (onHostIndexed sparse).Checked
          (sparseScatter .serial (onHostIndexed sparse) (onHostVector dense)) api event api')
        (Fails execution api) := by
  refine ⟨fun conjugation result => ?_, fun alpha => ?_, ?_, ?_, ?_⟩
  · refine Yields.ofResult_ok (validateContext_ofState execution) ?_
    exact (yields_launches hserves (inspects_inspectLevel1 hdense) _).mono
      (fun _ _ h => ⟨h.2.1, h.2.2, dotLaunches_end h.1.extents conjugation⟩) fun _ _ h => h
  · exact yields_standardLevel1 hserves hdense (by decide)
  · exact yields_standardLevel1 hserves hdense (by decide)
  · exact yields_standardLevel1 hserves hdense (by decide)
  · exact yields_standardLevel1 hserves hdense (by decide)

end Result

/-! ### Two values for a vector of three elements -/

/-- The numbers of the sample, as a device sees them. -/
abbrev deviceInteger : LocalRepresentation Int Int := .uniform Int 8 8 Representation.eight_pos

def deviceIndexed : SparseBlasIndexedVectorView (.uniform Int 8 8 Representation.eight_pos)
    deviceInteger.toRepresentation :=
  { sampleIndexed with indexStorage := ⟨64, 16, .device⟩, valueStorage := ⟨80, 16, .device⟩ }

def deviceDense : SparseBlasVectorView deviceInteger.toRepresentation :=
  { sampleDense with backingStorage := ⟨8, 40, .device⟩ }

theorem device_level1_sample :
    ∃ event last, exec (cudaSparseScatter (.ofState sampleExecution) deviceIndexed deviceDense)
        (sampleApi (Nat → Int)) = some (.ok event, last) ∧
      ∃ memory', StreamEndsIn [standardLevel1Kernel deviceIndexed deviceDense noResult .scatter
          .unconjugated 0] sampleCells memory' ∧
        Effect.exec (sparseScatter .serial sampleIndexed sampleDense) sampleCells =
          some (.ok (), memory') := by
  have hcorrect := device_level1_correct sampleExecution (sampleApi (Nat → Int)) (sample_serves _)
    deviceIndexed deviceDense rfl
  rcases hcorrect.2.2.2.2 with ⟨result, last, hrun, hresult⟩
  have hvalue : (exec (cudaSparseScatter (.ofState sampleExecution) deviceIndexed deviceDense)
      (sampleApi (Nat → Int))).map Prod.fst = some (.ok 1) := rfl
  rw [hrun] at hvalue
  cases hvalue
  rcases hresult.2.2 sampleCells sampleIndexed_accepted.sparse_checked with ⟨memory', hends, hhost⟩
  exact ⟨1, last, hrun, memory', hends, hhost⟩

end Cuda
end Sparse
end AscCpp
