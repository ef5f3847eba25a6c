import AscCpp.Sparse.Blas.Stored

/-!
# Indexed — the indexed vectors of Sparse BLAS

An indexed vector keeps indices and values in two arrays of equal length; `Create` reads the indices
of a vector in host memory.

- `Checked.spec`: where the arrays of a checked vector stand.
- `Checked.index_lt`: its indices increase, so that no index comes twice.
- `Accepted.listed`: the elements of a dense vector at the indices, as a family.
-/

namespace AscCpp
namespace Sparse
namespace Blas

open AscCpp.Core Library

variable {Cell V : Type} {indexType : Representation Cell Int} {type : Representation Cell V}

structure SparseBlasIndexedVectorView (indexType : Representation Cell Int)
    (type : Representation Cell V) where
  indices : Nat
  values : Nat
  nonzeros : Int
  denseExtent : Int
  indexStorage : ConstMemoryView
  valueStorage : ConstMemoryView
  canonicalStructureTrusted : Bool

/-- `indices[position]`. -/
def readIndex (indexType : Representation Cell Int) (indices : Nat) (memory : Nat → Cell)
    (position : Nat) : Int :=
  indexType.load memory (indices + position * indexType.size)

namespace SparseBlasIndexedVectorView

/-- One round of the loop over the indices, from the previous index to this one. -/
def validateIndex (indexType : Representation Cell Int) (indices : Nat) (denseExtent : Int)
    (memory : Nat → Cell) (previous : Int) (position : Nat) : Result Int := do
  let index := readIndex indexType indices memory position
  failIf (index ≤ previous ∨ index < 0 ∨ index ≥ denseExtent)
    { code := .index
      message := "Sparse indexed-vector indices must be sorted, unique, zero-based, and in range" }
  .ok index

/-- Whether the structure can be trusted; indices outside host memory are not read. -/
def validateIndices (indexType : Representation Cell Int) (indices : Nat) (nonzeros denseExtent : Int)
    (space : MemorySpace) (memory : Nat → Cell) : Result Bool :=
  if space = .host then do
    let _ ← (List.range nonzeros.toNat).foldlM
      (validateIndex indexType indices denseExtent memory) (-1)
    .ok true
  else
    .ok false

def create (memory : Nat → Cell) (indices values : Nat) (nonzeros denseExtent : Int)
    (indexStorage valueStorage : ConstMemoryView) :
    Result (SparseBlasIndexedVectorView indexType type) := do
  failIf
    (nonzeros < 0 ∨ denseExtent < 0 ∨ nonzeros > denseExtent ∨
      indexStorage.space ≠ valueStorage.space)
    { code := .invalidArgument, message := "A sparse indexed-vector descriptor is invalid" }
  let _ ← checkedByteCount nonzeros indexType.size
  let _ ← checkedByteCount nonzeros type.size
  let indexBounds ← validateStorageBounds indices nonzeros indexType.size indexType.alignment
    indexStorage
  let valueBounds ← validateStorageBounds values nonzeros type.size type.alignment valueStorage
  failIf
    (overlap ⟨indexBounds.data, indexBounds.size, indexStorage.space⟩
      ⟨valueBounds.data, valueBounds.size, valueStorage.space⟩ = true)
    { code := .invalidArgument, message := "Sparse indexed-vector indices and values overlap" }
  let canonical ← validateIndices indexType indices nonzeros denseExtent indexStorage.space memory
  .ok
    { indices := indices
      values := values
      nonzeros := nonzeros
      denseExtent := denseExtent
      indexStorage := indexStorage
      valueStorage := valueStorage
      canonicalStructureTrusted := canonical }

/-- `Create` returned the view. -/
def Checked (view : SparseBlasIndexedVectorView indexType type) (memory : Nat → Cell) : Prop :=
  create memory view.indices view.values view.nonzeros view.denseExtent view.indexStorage
    view.valueStorage = .ok view

def memorySpace (view : SparseBlasIndexedVectorView indexType type) : MemorySpace :=
  view.valueStorage.space

/-- The number of positions, as a loop counts them. -/
def count (view : SparseBlasIndexedVectorView indexType type) : Nat :=
  view.nonzeros.toNat

def indexAt (view : SparseBlasIndexedVectorView indexType type) (memory : Nat → Cell)
    (position : Nat) : Int :=
  readIndex indexType view.indices memory position

/-- The address of `values()[position]`. -/
def elementAt (view : SparseBlasIndexedVectorView indexType type) (position : Nat) : Nat :=
  view.values + position * type.size

/-- The value at a position. -/
def valueAt (view : SparseBlasIndexedVectorView indexType type) (memory : Nat → Cell)
    (position : Nat) : V :=
  type.load memory (view.elementAt position)

/-- The bytes of the indices. -/
def indexBlock (view : SparseBlasIndexedVectorView indexType type) : Block :=
  ⟨view.indices, view.count * indexType.size⟩

/-- The values. -/
def stored (view : SparseBlasIndexedVectorView indexType type) :
    ElementFamily type (Fin view.count) :=
  VectorView.storedFamily type view.values view.count

/-! ### Checked vectors -/

/-- Behind the loop the indices increase from the previous one on and stay in range; the induction
is on the rounds. -/
theorem foldlM_validateIndex {indices : Nat} {denseExtent : Int} {memory : Nat → Cell}
    {first count : Nat} {previous last : Int}
    (h : (List.range' first count).foldlM (validateIndex indexType indices denseExtent memory)
      previous = .ok last) :
    (∀ position, first ≤ position → position < first + count →
      previous < readIndex indexType indices memory position ∧
        0 ≤ readIndex indexType indices memory position ∧
        readIndex indexType indices memory position < denseExtent) ∧
      ∀ position later, first ≤ position → position < later → later < first + count →
        readIndex indexType indices memory position < readIndex indexType indices memory later := by
  -- On the indices still to be checked, all of which exceed the previous one.
  induction count generalizing first previous with
  | zero => exact ⟨fun position hfirst hlast => by omega, fun position later _ _ _ => by omega⟩
  | succ count ih =>
    rw [List.range'_succ, List.foldlM_cons] at h
    rcases Result.bind_eq_ok_iff.1 h with ⟨index, hround, hrest⟩
    rw [validateIndex, Result.failIf_bind_eq_ok_iff] at hround
    rcases hround with ⟨hindex, hvalue⟩
    have hvalue := Except.ok.inj hvalue
    rcases ih hrest with ⟨hrange, hincreasing⟩
    constructor
    · intro position hfirst hlast
      rcases hfirst.eq_or_lt with rfl | hlater
      · omega
      · have hbounds := hrange position hlater (by omega)
        omega
    · intro position later hfirst hlt hlast
      rcases hfirst.eq_or_lt with rfl | hlater
      · have hbounds := hrange later hlt (by omega)
        omega
      · exact hincreasing position later hlater hlt (by omega)

variable {view : SparseBlasIndexedVectorView indexType type} {memory memory' : Nat → Cell}

/-- What `Create` establishes about a vector in host memory. -/
structure Sound (view : SparseBlasIndexedVectorView indexType type) (memory : Nat → Cell) :
    Prop where
  trusted : view.canonicalStructureTrusted = true
  range : ∀ position < view.count,
    0 ≤ view.indexAt memory position ∧ view.indexAt memory position < view.denseExtent
  increasing : ∀ position later, position < later → later < view.count →
    view.indexAt memory position < view.indexAt memory later
  indices_inside : view.count ≠ 0 → view.indexStorage.block.address ≤ view.indices ∧
    view.indices + view.count * indexType.size ≤
      view.indexStorage.block.address + view.indexStorage.block.size
  values_inside : view.count ≠ 0 → view.valueStorage.block.address ≤ view.values ∧
    view.values + view.count * type.size ≤
      view.valueStorage.block.address + view.valueStorage.block.size
  apart : view.indexBlock.Disjoint ⟨view.values, view.count * type.size⟩

/-- Validated storage lies in its backing span. -/
theorem validateStorageBounds_inside {data elementSize elementAlignment : Nat} {elementSpan : Int}
    {backingStorage : ConstMemoryView} {bounds : StorageBounds}
    (h : validateStorageBounds data elementSpan elementSize elementAlignment backingStorage =
      .ok bounds) (hspan : elementSpan ≠ 0) :
    backingStorage.block.address ≤ data ∧
      data + bounds.size ≤ backingStorage.block.address + backingStorage.block.size := by
  unfold validateStorageBounds at h
  simp only [Result.failIf_bind_eq_ok_iff, if_neg hspan] at h
  rcases h with ⟨-, -, -, hchecked⟩
  rcases Result.bind_eq_ok_iff.1 hchecked with ⟨byteSpan, -, hchecked⟩
  rcases Result.bind_eq_ok_iff.1 hchecked with ⟨convertedSpan, -, hchecked⟩
  simp only [Result.failIf_bind_eq_ok_iff] at hchecked
  rcases hchecked with ⟨-, -, hinside, hbounds⟩
  cases hbounds
  unfold ConstMemoryView.block
  simp only
  omega

theorem Checked.spec (h : view.Checked memory) (hhost : view.memorySpace = .host) :
    view.Sound memory := by
  unfold Checked create at h
  rw [Result.failIf_bind_eq_ok_iff] at h
  rcases h with ⟨hdescriptor, h⟩
  rcases Result.bind_eq_ok_iff.1 h with ⟨indexBytes, -, h⟩
  rcases Result.bind_eq_ok_iff.1 h with ⟨valueBytes, -, h⟩
  rcases Result.bind_eq_ok_iff.1 h with ⟨indexBounds, hindex, h⟩
  rcases Result.bind_eq_ok_iff.1 h with ⟨valueBounds, hvalue, h⟩
  rw [Result.failIf_bind_eq_ok_iff] at h
  rcases h with ⟨hoverlap, h⟩
  rcases Result.bind_eq_ok_iff.1 h with ⟨canonical, hcanonical, h⟩
  have htrusted := congrArg canonicalStructureTrusted (Except.ok.inj h)
  -- Both storages are in one space, and the loop runs only on the host.
  have hspace : view.indexStorage.space = .host := by
    push Not at hdescriptor
    exact hdescriptor.2.2.2.trans hhost
  rw [validateIndices, if_pos hspace] at hcanonical
  rcases Result.bind_eq_ok_iff.1 hcanonical with ⟨last, hloop, hcanonical⟩
  cases hcanonical
  rw [List.range_eq_range'] at hloop
  rcases foldlM_validateIndex hloop with ⟨hrange, hincreasing⟩
  have hcount : (view.count : Int) = view.nonzeros := Int.toNat_of_nonneg (by omega)
  have hbytes : ∀ {bounds : StorageBounds} {size : Nat},
      (bounds.size : Int) = view.nonzeros * size → bounds.size = view.count * size := by
    intro bounds size hsize
    rw [← hcount] at hsize
    exact_mod_cast hsize
  refine ⟨htrusted.symm, fun position hposition => ?_, fun position later hlt hlater => ?_,
    fun hnonempty => ?_, fun hnonempty => ?_, ?_⟩
  · exact (hrange position (Nat.zero_le _) (by rw [Nat.zero_add]; exact hposition)).2
  · exact hincreasing position later (Nat.zero_le _) hlt (by rw [Nat.zero_add]; exact hlater)
  · have hspan : view.nonzeros ≠ 0 := by omega
    have hinside := validateStorageBounds_inside hindex hspan
    rw [hbytes (validateStorageBounds_spec hindex hspan).2.2] at hinside
    exact hinside
  · have hspan : view.nonzeros ≠ 0 := by omega
    have hinside := validateStorageBounds_inside hvalue hspan
    rw [hbytes (validateStorageBounds_spec hvalue hspan).2.2] at hinside
    exact hinside
  -- An empty view has empty blocks, which are apart from anything.
  · by_cases hempty : view.nonzeros = 0
    · left
      rw [indexBlock, count, hempty]
      simp
    · rcases (validateStorageBounds_spec hindex hempty).2 with ⟨hindexData, hindexSize⟩
      rcases (validateStorageBounds_spec hvalue hempty).2 with ⟨hvalueData, hvalueSize⟩
      have hapart := overlap_eq_false (Bool.eq_false_iff.2 hoverlap)
      rw [hindexData, hvalueData, hbytes hindexSize, hbytes hvalueSize] at hapart
      exact hapart

/-- Memories that agree on the indices have the same ones. -/
theorem indexAt_congr (h : AgreeOn view.indexBlock memory memory') {position : Nat}
    (hposition : position < view.count) :
    view.indexAt memory' position = view.indexAt memory position :=
  (load_congr_block h hposition).symm

end SparseBlasIndexedVectorView

/-! ## An indexed vector and a dense one -/

theorem overlap_comm (left right : ConstMemoryView) : overlap left right = overlap right left := by
  unfold overlap
  exact if_congr or_comm rfl (if_congr or_comm rfl (decide_eq_decide.2 and_comm))

/-- An indexed vector and a dense vector that the operations accept together. -/
structure Accepted (sparse : SparseBlasIndexedVectorView indexType type)
    (dense : SparseBlasVectorView type) (memory : Nat → Cell) : Prop where
  sparse_checked : sparse.Checked memory
  sparse_host : sparse.memorySpace = .host
  dense_checked : dense.Checked
  dense_host : dense.memorySpace = .host
  extents : dense.size = sparse.denseExtent
  values_apart : overlap sparse.valueStorage dense.reachableStorage = false
  indices_apart : overlap sparse.indexStorage dense.reachableStorage = false

namespace Accepted

variable {sparse : SparseBlasIndexedVectorView indexType type} {dense : SparseBlasVectorView type}
  {memory memory' : Nat → Cell}

theorem sound (h : Accepted sparse dense memory) : sparse.Sound memory :=
  h.sparse_checked.spec h.sparse_host

/-- The index at a position. -/
def index (h : Accepted sparse dense memory) (position : Fin sparse.count) :
    Fin dense.size.toNat :=
  ⟨(sparse.indexAt memory position).toNat, by
    have hrange := h.sound.range position position.isLt
    have hextents := h.extents
    omega⟩

theorem index_val (h : Accepted sparse dense memory) (position : Fin sparse.count) :
    ((h.index position).val : Int) = sparse.indexAt memory position :=
  Int.toNat_of_nonneg (h.sound.range position position.isLt).1

/-- No index comes twice. -/
theorem index_injective (h : Accepted sparse dense memory) : Function.Injective h.index := by
  intro position other heq
  have hvalue : sparse.indexAt memory position = sparse.indexAt memory other := by
    rw [← h.index_val, ← h.index_val, heq]
  apply Fin.ext
  rcases Nat.lt_trichotomy position.val other.val with hlt | hsame | hgt
  · have hless := h.sound.increasing position other hlt other.isLt
    omega
  · exact hsame
  · have hless := h.sound.increasing other position hgt position.isLt
    omega

/-- The elements of the dense vector at the indices. -/
def listed (h : Accepted sparse dense memory) : ElementFamily type (Fin sparse.count) :=
  (dense.family h.dense_checked).reindex h.index h.index_injective

theorem listed_address (h : Accepted sparse dense memory)
    (hagree : AgreeOn sparse.indexBlock memory memory') (position : Fin sparse.count) :
    dense.vectorAt (sparse.indexAt memory' position) = h.listed.address position := by
  rw [SparseBlasIndexedVectorView.indexAt_congr hagree position.isLt, ← h.index_val]
  rfl

theorem listed_values (h : Accepted sparse dense memory)
    (hagree : AgreeOn sparse.indexBlock memory memory') (position : Fin sparse.count) :
    dense.value memory' (sparse.indexAt memory' position) =
      h.listed.values memory' position :=
  congrArg (type.load memory') (h.listed_address hagree position)

/-- The dense elements stand apart from the values and from the indices. -/
theorem blocks_apart (h : Accepted sparse dense memory) :
    Block.Disjoint sparse.valueStorage.block dense.reachableStorage.block ∧
      Block.Disjoint sparse.indexStorage.block dense.reachableStorage.block :=
  ⟨overlap_eq_false h.values_apart, overlap_eq_false h.indices_apart⟩

theorem listed_inside (h : Accepted sparse dense memory) (position : Fin sparse.count) :
    dense.reachableStorage.block.address ≤ h.listed.address position ∧
      h.listed.address position + type.size ≤
        dense.reachableStorage.block.address + dense.reachableStorage.block.size :=
  SparseBlasVectorView.family_inside h.dense_checked (h.index position)

/-- A value stands in the storage of the values. -/
theorem stored_inside (sparse : SparseBlasIndexedVectorView indexType type)
    (position : Fin sparse.count) :
    sparse.values ≤ sparse.stored.address position ∧
      sparse.stored.address position + type.size ≤ sparse.values + sparse.count * type.size := by
  have hle := Nat.mul_le_mul_right type.size (Nat.succ_le_of_lt position.isLt)
  rw [Nat.succ_mul] at hle
  unfold SparseBlasIndexedVectorView.stored VectorView.storedFamily
  simp only
  omega

theorem stored_apart (h : Accepted sparse dense memory) (position other : Fin sparse.count) :
    sparse.stored.address position + type.size ≤ h.listed.address other ∨
      h.listed.address other + type.size ≤ sparse.stored.address position := by
  have hpositive := type.size_pos
  have hstored := stored_inside sparse position
  have hvalues := h.sound.values_inside (by have := position.isLt; omega)
  have hlisted := h.listed_inside other
  have hapart := h.blocks_apart.1
  unfold Block.Disjoint at hapart
  omega

/-- The bytes of the indices belong to no value and to no dense element. -/
theorem index_outside (h : Accepted sparse dense memory) {cell : Nat}
    (hfirst : sparse.indexBlock.address ≤ cell)
    (hlast : cell < sparse.indexBlock.address + sparse.indexBlock.size) :
    sparse.stored.Outside cell ∧ h.listed.Outside cell := by
  have hsize := type.size_pos
  have hcount : sparse.count ≠ 0 := by
    intro hempty
    rw [SparseBlasIndexedVectorView.indexBlock, hempty] at hlast hfirst
    simp only at hfirst hlast
    omega
  -- The index block meets neither the stored values nor the dense storage.
  refine ⟨fun position => ?_, fun position => ?_⟩
  · have hinside := stored_inside sparse position
    have hapart := h.sound.apart
    unfold Block.Disjoint at hapart
    simp only at hapart
    omega
  · have hinside := h.listed_inside position
    have hindices := h.sound.indices_inside hcount
    have hapart := h.blocks_apart.2
    unfold Block.Disjoint at hapart
    unfold SparseBlasIndexedVectorView.indexBlock at hfirst hlast
    simp only at hfirst hlast
    omega

/-- Writes to the values and to the dense elements leave the indices alone. -/
theorem agree_of_outside (h : Accepted sparse dense memory) {first last : Nat → Cell}
    (huntouched : ∀ cell, sparse.stored.Outside cell → h.listed.Outside cell →
      last cell = first cell) : AgreeOn sparse.indexBlock first last := by
  intro cell hfirst hlast
  rcases h.index_outside hfirst hlast with ⟨hstored, hlisted⟩
  exact (huntouched cell hstored hlisted).symm

/-- Writes to the dense elements leave the values alone. -/
theorem stored_values_of_listed (h : Accepted sparse dense memory) {first last : Nat → Cell}
    (huntouched : h.listed.Untouched first last) :
    sparse.stored.values last = sparse.stored.values first := by
  funext position
  exact huntouched.load_eq fun other => h.stored_apart position other

/-- Writes to the values leave the dense elements alone. -/
theorem listed_values_of_stored (h : Accepted sparse dense memory) {first last : Nat → Cell}
    (huntouched : sparse.stored.Untouched first last) :
    h.listed.values last = h.listed.values first := by
  funext position
  exact huntouched.load_eq fun other => (h.stored_apart other position).symm

end Accepted

end Blas
end Sparse
end AscCpp
