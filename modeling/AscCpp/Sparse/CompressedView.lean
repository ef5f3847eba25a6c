import AscCpp.Library.Segments
import AscCpp.Sparse.Compressed
import Mathlib.Data.Vector.Mem

/-!
# CompressedView — views of compressed sparse storage

`CompressedSparseView::Create` and the accessors.  The entries of a view are its coordinates and
values, in the order of the storage.

- `validateCanonicalStructure_safe`: the structure check reads inside the arrays.
- `create_host_ok_iff`: what an accepted host view is.
- `CanonicalArrays.entries_ordered`: the entries of canonical arrays stand in the order of the
  format.
- `CanonicalArrays.ext`: the entries determine the three arrays.
-/

namespace AscCpp
namespace Sparse

open AscCpp.Core Library

/-! ## Creating views -/

/-- The bytes of the three arrays. -/
structure CompressedBytes where
  offsets : Int
  indices : Int
  values : Int

/-- The byte counts that `Create` and `AllocateAndFill` compute. -/
def compressedBytes (format : SparseCompressedFormat) (shape : Shape 2) (nonzeros : Int)
    (valueSize : Nat) : Result CompressedBytes := do
  let count ← offsetCount (outerExtent format shape)
  let offsets ← checkedMultiply sizeType count indexSize
  let indices ← checkedByteCount nonzeros indexSize
  let values ← checkedByteCount nonzeros valueSize
  .ok { offsets := offsets, indices := indices, values := values }

structure CompressedSparseView (E : Type) (format : SparseCompressedFormat) where
  outerOffsets : Pointer Int
  innerIndices : Pointer Int
  values : Pointer E
  shape : Shape 2
  nonzeros : Nat
  memorySpace : MemorySpace
  canonicalStructureTrusted : Bool

namespace CompressedSparseView

variable {E : Type} {format : SparseCompressedFormat}

def outerExtent (view : CompressedSparseView E format) : Int :=
  Sparse.outerExtent format view.shape

def innerExtent (view : CompressedSparseView E format) : Int :=
  Sparse.innerExtent format view.shape

def validateHostAccess (view : CompressedSparseView E format) : Result Unit :=
  failIf (view.memorySpace ≠ .host)
    { code := .memoryAccess, message := "Compressed sparse access requires host storage" }

def validateCanonicalStructure (view : CompressedSparseView E format) : Result Unit :=
  (validateStructure (m := Id) (fun position => view.outerOffsets.read position.toNat)
    (fun position => view.innerIndices.read position.toNat) view.outerExtent view.innerExtent
    view.nonzeros).run

section Create

variable [SparseElement E]

/-- The checks of `Create` on the shape and the number of entries. -/
def checkSizes (format : SparseCompressedFormat) (shape : Shape 2) (nonzeros : Int)
    (valueSize : Nat) : Result CompressedBytes := do
  let logicalSize ← validateShape shape
  failIf (nonzeros < 0 ∨ nonzeros > logicalSize)
    { code := .shape, message := "Sparse NNZ is incompatible with compressed shape" }
  compressedBytes format shape nonzeros valueSize

def create (outerOffsets innerIndices : Pointer Int) (values : Pointer E) (shape : Shape 2)
    (nonzeros : Int) (memorySpace : MemorySpace) : Result (CompressedSparseView E format) := do
  let bytes ← checkSizes format shape nonzeros (SparseElement.size E)
  failIf
    (outerOffsets.address = 0 ∨ (bytes.indices ≠ 0 ∧ innerIndices.address = 0) ∨
      (bytes.values ≠ 0 ∧ values.address = 0))
    { code := .invalidArgument, message := "Compressed sparse storage pointers are incomplete" }
  validateAddressSpan outerOffsets.address bytes.offsets.toNat
  validateAddressSpan innerIndices.address bytes.indices.toNat
  validateAddressSpan values.address bytes.values.toNat
  failIf
    ((byteSpansOverlap outerOffsets.address bytes.offsets.toNat innerIndices.address
        bytes.indices.toNat ||
      byteSpansOverlap outerOffsets.address bytes.offsets.toNat values.address
        bytes.values.toNat ||
      byteSpansOverlap innerIndices.address bytes.indices.toNat values.address
        bytes.values.toNat) = true)
    { code := .invalidArgument, message := "Compressed sparse storage spans cannot overlap" }
  let result : CompressedSparseView E format :=
    { outerOffsets := outerOffsets
      innerIndices := innerIndices
      values := values
      shape := shape
      nonzeros := nonzeros.toNat
      memorySpace := memorySpace
      canonicalStructureTrusted := false }
  if memorySpace = .host then do
    result.validateCanonicalStructure
    .ok { result with canonicalStructureTrusted := true }
  else
    .ok result

/-- `Create` over spans; a span knows its number of cells. -/
def createFromSpans (outerOffsets innerIndices : Pointer Int) (values : Pointer E)
    (shape : Shape 2) (memorySpace : MemorySpace) : Result (CompressedSparseView E format) := do
  failIf (innerIndices.cells.length ≠ values.cells.length)
    { code := .shape, message := "Compressed sparse indices and values differ in size" }
  let nonzeros ← checkedCast int64 values.cells.length
  let expectedOffsets ← offsetCount (Sparse.outerExtent format shape)
  failIf ((outerOffsets.cells.length : Int) ≠ expectedOffsets)
    { code := .shape, message := "Compressed sparse outer-offset count is incorrect" }
  create outerOffsets innerIndices values shape nonzeros memorySpace

end Create

/-! ## Accessors -/

/-- `OuterOffset(position)`. -/
def outerOffset (view : CompressedSparseView E format) (position : Int) : Result Int := do
  view.validateHostAccess
  failIf (position < 0 ∨ position > view.outerExtent)
    { code := .index, message := "Compressed outer-offset position is out of range" }
  .ok (view.outerOffsets.read position.toNat)

/-- `InnerIndex(position)`. -/
def innerIndex (view : CompressedSparseView E format) (position : Int) : Result Int := do
  view.validateHostAccess
  failIf (position < 0 ∨ position ≥ view.nonzeros)
    { code := .index, message := "Compressed stored-entry position is out of range" }
  .ok (view.innerIndices.read position.toNat)

/-- The value that `AtStored(position)` points to. -/
def atStored [Inhabited E] (view : CompressedSparseView E format) (position : Int) : Result E := do
  view.validateHostAccess
  failIf (position < 0 ∨ position ≥ view.nonzeros)
    { code := .index, message := "Compressed stored-entry position is out of range" }
  .ok (view.values.read position.toNat)

def lookup [SparseElement E] (view : CompressedSparseView E format) (coordinate : Coordinate 2) :
    Result E := do
  view.validateHostAccess
  validateCoordinate coordinate view.shape
  let outer := (outerOf format coordinate).toNat
  let inner := innerOf format coordinate
  let first := lowerBound (fun middle => view.innerIndices.read middle < inner)
    (view.outerOffsets.read outer).toNat (view.outerOffsets.read (outer + 1)).toNat
  if first = (view.outerOffsets.read (outer + 1)).toNat ∨ view.innerIndices.read first ≠ inner then
    .ok SparseElement.zero
  else
    .ok (view.values.read first)

section Accessors

variable {view : CompressedSparseView E format} (hhost : view.memorySpace = .host)

include hhost

theorem outerOffset_ok {outer : Nat} (houter : (outer : Int) ≤ view.outerExtent) :
    view.outerOffset outer = .ok (view.outerOffsets.read outer) := by
  rw [outerOffset, validateHostAccess, failIf, if_neg (by simpa using hhost), Result.ok_bind, failIf,
    if_neg (by omega)]
  rfl

theorem innerIndex_ok {position : Nat} (hposition : position < view.nonzeros) :
    view.innerIndex position = .ok (view.innerIndices.read position) := by
  rw [innerIndex, validateHostAccess, failIf, if_neg (by simpa using hhost), Result.ok_bind, failIf,
    if_neg (by omega)]
  rfl

theorem atStored_ok [Inhabited E] {position : Nat} (hposition : position < view.nonzeros) :
    view.atStored position = .ok (view.values.read position) := by
  rw [atStored, validateHostAccess, failIf, if_neg (by simpa using hhost), Result.ok_bind, failIf,
    if_neg (by omega)]
  rfl

end Accessors

/-- `for (outer) for (position = OuterOffset(outer); position < OuterOffset(outer + 1))`. -/
def foldSlices {σ : Type} (source : CompressedSparseView E format)
    (body : σ → Int → Int → Result σ) (state : σ) : Result σ :=
  (List.range source.outerExtent.toNat).foldlM
    (fun state (outer : Nat) => do
      let first ← source.outerOffset outer
      let last ← source.outerOffset (outer + 1)
      (List.range (last - first).toNat).foldlM
        (fun state (step : Nat) => body state outer (first + step)) state)
    state

/-! ## The structure check -/

/-- The offsets and the indices of the view are canonical. -/
def CanonicalArrays (view : CompressedSparseView E format) : Prop :=
  CanonicalStructure view.outerOffsets.read view.innerIndices.read view.outerExtent.toNat
    view.innerExtent view.nonzeros

theorem validateCanonicalStructure_ok_iff {view : CompressedSparseView E format}
    (houter : 0 ≤ view.outerExtent) :
    view.validateCanonicalStructure = .ok () ↔ view.CanonicalArrays := by
  have h := @decides_validateStructure Id _ _ (fun position => view.outerOffsets.read position.toNat)
    (fun position => view.innerIndices.read position.toNat) view.outerOffsets.read
    view.innerIndices.read view.outerExtent.toNat view.nonzeros view.innerExtent
    (fun _ _ => rfl) fun _ _ => rfl
  rw [Int.toNat_of_nonneg houter] at h
  rcases h with ⟨outcome, hrun, houtcome⟩
  have hview : view.validateCanonicalStructure = outcome := hrun
  rw [hview]
  exact houtcome

section Accepted

variable [SparseElement E]

theorem offsetCount_bind_eq_ok_iff {β : Type} {outer : Int} (houter : 0 ≤ outer)
    {next : Int → Result β} {value : β} :
    (offsetCount outer >>= next) = .ok value ↔
      outer + 1 ≤ int64.maximum ∧ next (outer + 1) = .ok value := by
  -- The signed bound is the smaller one, so the cast to the size type never fails.
  have hcast : outer + 1 ≤ int64.maximum →
      checkedCast sizeType (outer + 1) = .ok (outer + 1) := by
    intro hle
    have hmaximum : int64.maximum ≤ sizeType.maximum := by decide
    exact checkedCast_ok ⟨sizeType.minimum_nonpos.trans (by omega), hle.trans hmaximum⟩
  have hadd : checkedAdd int64 outer 1 =
      if outer + 1 ≤ int64.maximum then .ok (outer + 1) else .error additionOverflow := by
    have hsigned : int64.signed = true := rfl
    have hguard : ((1 : Int) > 0 ∧ outer > int64.maximum - 1 ∨ (1 : Int) < 0 ∧ outer < int64.minimum - 1) ↔
        ¬ outer + 1 ≤ int64.maximum := by omega
    rw [checkedAdd, if_pos hsigned, if_congr hguard rfl rfl, ite_not]
  rw [offsetCount, hadd]
  by_cases hle : outer + 1 ≤ int64.maximum
  · rw [if_pos hle, Result.ok_bind, hcast hle, Result.ok_bind, and_iff_right hle]
  · rw [if_neg hle]
    simp [bind, Except.bind, hle]

theorem compressedBytes_ok_iff {shape : Shape 2} {nonzeros valueSize : Nat}
    (houter : 0 ≤ Sparse.outerExtent format shape)
    (hfits : (nonzeros : Int) ≤ sizeType.maximum) {bytes : CompressedBytes} :
    compressedBytes format shape nonzeros valueSize = .ok bytes ↔
      ((Sparse.outerExtent format shape + 1) * indexSize ≤ sizeType.maximum ∧
        (nonzeros * indexSize : Nat) ≤ sizeType.maximum ∧
          (nonzeros * valueSize : Nat) ≤ sizeType.maximum) ∧
        bytes =
          { offsets := (Sparse.outerExtent format shape + 1) * indexSize
            indices := (nonzeros * indexSize : Nat)
            values := (nonzeros * valueSize : Nat) } := by
  -- A count whose eightfold fits `std::size_t` fits `extent_t`.
  have hcount : (Sparse.outerExtent format shape + 1) * (8 : Nat) ≤ sizeType.maximum →
      Sparse.outerExtent format shape + 1 ≤ int64.maximum := by
    have hmaximum : sizeType.maximum ≤ int64.maximum * 8 := by decide
    omega
  rw [compressedBytes, offsetCount_bind_eq_ok_iff houter,
    checkedMultiply_bind_eq_ok_iff (by omega) (by omega), checkedByteCount_eq (by omega) hfits,
    checkedMultiply_bind_eq_ok_iff (by omega) (by omega), checkedByteCount_eq (by omega) hfits,
    checkedMultiply_bind_eq_ok_iff (by omega) (by omega)]
  simp only [indexSize, Except.ok.injEq] at hcount ⊢
  push_cast at hcount ⊢
  constructor
  · rintro ⟨-, hoffsets, hindices, hvalues, rfl⟩
    exact ⟨⟨hoffsets, hindices, hvalues⟩, rfl⟩
  · rintro ⟨⟨hoffsets, hindices, hvalues⟩, rfl⟩
    exact ⟨hcount hoffsets, hoffsets, hindices, hvalues, rfl⟩

theorem outerExtent_nonneg (format : SparseCompressedFormat) {shape : Shape 2}
    (h : ∀ extent ∈ shape.toList, 0 ≤ extent) : 0 ≤ Sparse.outerExtent format shape := by
  cases format <;> exact h _ (List.Vector.get_mem _ shape)

theorem checkSizes_ok_iff {shape : Shape 2} {nonzeros : Int} {valueSize : Nat}
    {bytes : CompressedBytes} :
    checkSizes format shape nonzeros valueSize = .ok bytes ↔
      ((∀ extent ∈ shape.toList, 0 ≤ extent) ∧ shape.toList.prod ≤ int64.maximum ∧
        0 ≤ nonzeros ∧ nonzeros ≤ shape.toList.prod) ∧
      compressedBytes format shape nonzeros valueSize = .ok bytes := by
  rw [checkSizes, Result.bind_eq_ok_iff]
  simp only [Result.failIf_bind_eq_ok_iff]
  constructor
  · rintro ⟨logicalSize, hshape, hcount, hbytes⟩
    rcases validateShape_ok_iff.1 hshape with ⟨hnonneg, rfl, hlogical⟩
    exact ⟨⟨hnonneg, hlogical, by omega, by omega⟩, hbytes⟩
  · rintro ⟨⟨hnonneg, hlogical, hzero, hle⟩, hbytes⟩
    exact ⟨_, validateShape_ok_iff.2 ⟨hnonneg, rfl, hlogical⟩, by omega, hbytes⟩

/-- For every content of the arrays the structure check reads inside them, and it accepts exactly
the canonical structures. -/
theorem validateCanonicalStructure_safe {shape : Shape 2} {nonzeros : Nat}
    {bytes : CompressedBytes} (outerOffsets innerIndices : Pointer Int) (values : Pointer E)
    (memorySpace : MemorySpace) (trusted : Bool)
    (hsizes : checkSizes format shape nonzeros (SparseElement.size E) = .ok bytes)
    (hoffsets : (outerOffsets.cells.length : Int) = Sparse.outerExtent format shape + 1)
    (hindices : innerIndices.cells.length = nonzeros) :
    (∃ outcome : Result Unit,
      (validateStructure outerOffsets.checkedRead innerIndices.checkedRead
        (Sparse.outerExtent format shape) (Sparse.innerExtent format shape) nonzeros).run =
          some outcome ∧
        (outcome = .ok () ↔
          CanonicalStructure outerOffsets.read innerIndices.read
            (Sparse.outerExtent format shape).toNat (Sparse.innerExtent format shape) nonzeros)) ∧
    ((⟨outerOffsets, innerIndices, values, shape, nonzeros, memorySpace, trusted⟩ :
        CompressedSparseView E format).validateCanonicalStructure = .ok () ↔
      CanonicalStructure outerOffsets.read innerIndices.read
        (Sparse.outerExtent format shape).toNat (Sparse.innerExtent format shape) nonzeros) := by
  have houter := outerExtent_nonneg format (checkSizes_ok_iff.1 hsizes).1.1
  have hchecked := @decides_validateStructure Option _ _ outerOffsets.checkedRead
    innerIndices.checkedRead outerOffsets.read innerIndices.read
    (Sparse.outerExtent format shape).toNat nonzeros (Sparse.innerExtent format shape)
    (fun outer hle => outerOffsets.checkedRead_eq (by omega))
    fun position hlt => innerIndices.checkedRead_eq (by omega)
  rw [Int.toNat_of_nonneg houter] at hchecked
  exact ⟨hchecked, validateCanonicalStructure_ok_iff houter⟩

/-- Offsets that point behind the entries are refused before an index is read. -/
theorem validateCanonicalStructure_safe_sample :
    (∃ outcome : Result Unit,
      (validateStructure (Pointer.checkedRead ⟨16, [0, 5, 2]⟩) (Pointer.checkedRead ⟨64, [0, 1]⟩)
        2 2 2).run = some outcome ∧
        (outcome = .ok () ↔ CanonicalStructure (Pointer.read ⟨16, [0, 5, 2]⟩)
          (Pointer.read ⟨64, [0, 1]⟩) 2 2 2)) ∧
    ¬ CanonicalStructure (Pointer.read ⟨16, [0, 5, 2]⟩) (Pointer.read ⟨64, [0, 1]⟩) 2 2 2 := by
  have hsafe := (@validateCanonicalStructure_safe int64.Value .csr _ ⟨[2, 2], rfl⟩ 2
    { offsets := 24, indices := 16, values := 16 } ⟨16, [0, 5, 2]⟩ ⟨64, [0, 1]⟩ ⟨128, []⟩ .host false
    rfl rfl rfl).1
  refine ⟨hsafe, fun hcanonical => ?_⟩
  have hmono := hcanonical.monotone 1 (by decide)
  exact absurd hmono (by decide)

end Accepted

/-! ## Accepted views -/

section Views

variable [SparseElement E]

/-- What `Create` asks of host storage: the shape and the count fit, the three arrays are
addressable and apart, and the structure is canonical. -/
structure Accepts (format : SparseCompressedFormat) (outerOffsets innerIndices : Pointer Int)
    (values : Pointer E) (shape : Shape 2) (nonzeros : Nat) : Prop where
  nonneg : ∀ extent ∈ shape.toList, 0 ≤ extent
  logical : shape.toList.prod ≤ int64.maximum
  count_le : (nonzeros : Int) ≤ shape.toList.prod
  offsetBytes : (Sparse.outerExtent format shape + 1) * indexSize ≤ sizeType.maximum
  indexBytes : (nonzeros * indexSize : Nat) ≤ sizeType.maximum
  valueBytes : (nonzeros * SparseElement.size E : Nat) ≤ sizeType.maximum
  offsetSpan : validateAddressSpan outerOffsets.address
    ((Sparse.outerExtent format shape + 1) * indexSize).toNat = .ok ()
  indexSpan : validateAddressSpan innerIndices.address (nonzeros * indexSize) = .ok ()
  valueSpan : validateAddressSpan values.address (nonzeros * SparseElement.size E) = .ok ()
  offsetsApartIndices :
    byteSpansOverlap outerOffsets.address
      ((Sparse.outerExtent format shape + 1) * indexSize).toNat innerIndices.address
      (nonzeros * indexSize) = false
  offsetsApartValues :
    byteSpansOverlap outerOffsets.address
      ((Sparse.outerExtent format shape + 1) * indexSize).toNat values.address
      (nonzeros * SparseElement.size E) = false
  indicesApartValues :
    byteSpansOverlap innerIndices.address (nonzeros * indexSize) values.address
      (nonzeros * SparseElement.size E) = false
  canonical : CanonicalStructure outerOffsets.read innerIndices.read
    (Sparse.outerExtent format shape).toNat (Sparse.innerExtent format shape) nonzeros

/-- The view of accepted host storage. -/
def ofHost (format : SparseCompressedFormat) (outerOffsets innerIndices : Pointer Int)
    (values : Pointer E) (shape : Shape 2) (nonzeros : Nat) : CompressedSparseView E format :=
  { outerOffsets := outerOffsets
    innerIndices := innerIndices
    values := values
    shape := shape
    nonzeros := nonzeros
    memorySpace := .host
    canonicalStructureTrusted := true }

theorem create_host_ok_iff {outerOffsets innerIndices : Pointer Int} {values : Pointer E}
    {shape : Shape 2} {nonzeros : Nat} {view : CompressedSparseView E format} :
    create outerOffsets innerIndices values shape nonzeros .host = .ok view ↔
      Accepts format outerOffsets innerIndices values shape nonzeros ∧
        view = ofHost format outerOffsets innerIndices values shape nonzeros := by
  rw [create, Result.bind_eq_ok_iff]
  simp only [Result.failIf_eq_ok_iff, Result.unit_bind_eq_ok_iff, if_true, Except.ok.injEq,
    checkSizes_ok_iff]
  constructor
  · rintro ⟨bytes, ⟨⟨hnonneg, hlogical, -, hcount⟩, hbytes⟩, -, hoffsets, hindices, hvalues, happart,
      hcanonical, rfl⟩
    have houter := outerExtent_nonneg format hnonneg
    have hfits : (nonzeros : Int) ≤ sizeType.maximum :=
      (hcount.trans hlogical).trans (by decide)
    rcases (compressedBytes_ok_iff houter hfits).1 hbytes with ⟨⟨hob, hib, hvb⟩, rfl⟩
    simp only [Bool.or_eq_true, not_or, Bool.not_eq_true] at happart
    exact ⟨⟨hnonneg, hlogical, hcount, hob, hib, hvb, hoffsets, hindices, hvalues, happart.1.1,
      happart.1.2, happart.2,
      (validateCanonicalStructure_ok_iff (by exact houter)).1 hcanonical⟩, rfl⟩
  · rintro ⟨haccepts, rfl⟩
    have houter := outerExtent_nonneg format haccepts.nonneg
    have hfits : (nonzeros : Int) ≤ sizeType.maximum :=
      (haccepts.count_le.trans haccepts.logical).trans (by decide)
    -- An address span that is valid is not null unless it is empty.
    have hoffsetNull := validateAddressSpan_ok_iff.1 haccepts.offsetSpan
    have hindexNull := validateAddressSpan_ok_iff.1 haccepts.indexSpan
    have hvalueNull := validateAddressSpan_ok_iff.1 haccepts.valueSpan
    refine ⟨_, ⟨⟨haccepts.nonneg, haccepts.logical, Int.natCast_nonneg _, haccepts.count_le⟩,
      (compressedBytes_ok_iff houter hfits).2
        ⟨⟨haccepts.offsetBytes, haccepts.indexBytes, haccepts.valueBytes⟩, rfl⟩⟩, ?_,
      haccepts.offsetSpan, haccepts.indexSpan, haccepts.valueSpan, ?_,
      (validateCanonicalStructure_ok_iff (by exact houter)).2 haccepts.canonical, rfl⟩
    · simp only [indexSize] at hoffsetNull hindexNull ⊢
      omega
    · simp only [Int.toNat_natCast, haccepts.offsetsApartIndices, haccepts.offsetsApartValues,
        haccepts.indicesApartValues, Bool.or_self, Bool.false_eq_true, not_false_eq_true]

/-! ## Entries -/

/-- The stored entries, in the order of the storage. -/
def entries (view : CompressedSparseView E format) : List (Coordinate 2 × E) :=
  segments (fun outer => (view.outerOffsets.read outer).toNat) view.outerExtent.toNat
    fun outer position =>
      (compressedCoordinate format outer (view.innerIndices.read position),
        view.values.read position)

variable {view view' : CompressedSparseView E format}

omit [SparseElement E] in
theorem CanonicalArrays.bounds (h : view.CanonicalArrays) :
    Bounds (fun outer => (view.outerOffsets.read outer).toNat) view.outerExtent.toNat where
  front := by rw [h.front, Int.toNat_zero]
  step outer houter := Int.toNat_le_toNat (h.monotone outer houter)

omit [SparseElement E] in
theorem CanonicalArrays.bound_back (h : view.CanonicalArrays) :
    (view.outerOffsets.read view.outerExtent.toNat).toNat = view.nonzeros := by
  rw [h.back, Int.toNat_natCast]

omit [SparseElement E] in
/-- A position of a slice lies between its offsets. -/
theorem CanonicalArrays.position (h : view.CanonicalArrays) {outer position : Nat}
    (houter : outer < view.outerExtent.toNat)
    (hfirst : (view.outerOffsets.read outer).toNat ≤ position)
    (hlast : position < (view.outerOffsets.read (outer + 1)).toNat) :
    view.outerOffsets.read outer ≤ position ∧
      (position : Int) < view.outerOffsets.read (outer + 1) := by
  have hnonneg := h.offset_nonneg houter.le
  omega

theorem CanonicalArrays.length_entries (h : view.CanonicalArrays) :
    view.entries.length = view.nonzeros := by
  rw [entries, length_segments h.bounds, h.bound_back]

theorem CanonicalArrays.entries_ordered (h : view.CanonicalArrays) :
    OrderedBy format view.entries := by
  apply pairwise_segments
  · intro outer houter position later hfirst hlt hlast
    rw [slotKey_lt_iff]
    simp only [outerOf_compressedCoordinate, innerOf_compressedCoordinate]
    have hposition := h.position houter hfirst (by omega)
    have hlater := h.position houter (by omega) hlast
    exact .inr ⟨trivial, h.increasing outer houter position later hposition.1 hlt hlater.2⟩
  · intro outer next hlt _ position later
    rw [slotKey_lt_iff]
    simp only [outerOf_compressedCoordinate]
    omega

theorem CanonicalArrays.entries_inRange (h : view.CanonicalArrays) :
    ∀ entry ∈ view.entries, InRange entry.1 view.shape := by
  intro entry hmem
  rcases mem_segments.1 hmem with ⟨outer, houter, position, hfirst, hlast, rfl⟩
  have hposition := h.position houter hfirst hlast
  have hindex := h.inRange outer houter position hposition.1 hposition.2
  refine (@inRange_iff format _ _).2 ?_
  simp only [outerOf_compressedCoordinate, innerOf_compressedCoordinate]
  have hextent : Sparse.outerExtent format view.shape = view.outerExtent := rfl
  have hextent' : Sparse.innerExtent format view.shape = view.innerExtent := rfl
  omega

/-- The loops over the slices run over the entries. -/
theorem CanonicalArrays.foldSlices_eq {σ : Type} (h : view.CanonicalArrays)
    (hhost : view.memorySpace = .host) {body : σ → Int → Int → Result σ}
    {step : σ → Coordinate 2 × E → Result σ}
    (hbody : ∀ state (outer position : Nat), position < view.nonzeros →
      body state outer position = step state (compressedCoordinate format outer
        (view.innerIndices.read position), view.values.read position))
    (state : σ) : view.foldSlices body state = view.entries.foldlM step state := by
  -- One outer index: the loop over its positions is the fold over its segment.
  have hslice : ∀ outer ∈ List.range view.outerExtent.toNat, ∀ state : σ,
      (do
        let first ← view.outerOffset outer
        let last ← view.outerOffset (outer + 1)
        (List.range (last - first).toNat).foldlM
          (fun state (step : Nat) => body state outer (first + step)) state) =
        ((List.range' (view.outerOffsets.read outer).toNat
            ((view.outerOffsets.read (outer + 1)).toNat -
              (view.outerOffsets.read outer).toNat)).map fun position =>
          (compressedCoordinate format outer (view.innerIndices.read position),
            view.values.read position)).foldlM step state := by
    intro outer houter state
    rw [List.mem_range] at houter
    have hnonneg := h.offset_nonneg houter.le
    have hle := h.monotone outer houter
    have hlast : view.outerOffsets.read (outer + 1) ≤ view.nonzeros := h.offset_le houter
    have hnext : view.outerOffset ((outer : Int) + 1) = .ok (view.outerOffsets.read (outer + 1)) :=
      outerOffset_ok hhost (by omega : ((outer + 1 : Nat) : Int) ≤ view.outerExtent)
    have hlength : (view.outerOffsets.read (outer + 1) - view.outerOffsets.read outer).toNat =
        (view.outerOffsets.read (outer + 1)).toNat - (view.outerOffsets.read outer).toNat := by
      omega
    rw [outerOffset_ok hhost (by omega), hnext, Result.ok_bind, Result.ok_bind,
      List.range'_eq_map_range, List.map_map, List.foldlM_map, hlength]
    refine Result.foldlM_congr (fun offset hoffset state => ?_) state
    rw [List.mem_range] at hoffset
    -- The position in the arrays, counted from zero.
    have hposition : view.outerOffsets.read outer + offset =
        (((view.outerOffsets.read outer).toNat + offset : Nat) : Int) := by omega
    rw [hposition]
    exact hbody state outer _ (by omega)
  rw [foldSlices, Result.foldlM_congr hslice, entries, segments, Result.foldlM_flatMap]

/-- The same shape, and the same offsets, indices and values in all their positions. -/
structure SameStorage (view view' : CompressedSparseView E format) : Prop where
  shape : view.shape = view'.shape
  nonzeros : view.nonzeros = view'.nonzeros
  offsets : ∀ outer ≤ view.outerExtent.toNat,
    view.outerOffsets.read outer = view'.outerOffsets.read outer
  indices : ∀ position < view.nonzeros,
    view.innerIndices.read position = view'.innerIndices.read position
  values : ∀ position < view.nonzeros, view.values.read position = view'.values.read position

/-- The entries of a position, read in the arrays. -/
theorem CanonicalArrays.map_entries {α : Type} (h : view.CanonicalArrays) (inner : Int → E → α) :
    (view.entries.map fun entry => inner (innerOf format entry.1) entry.2) =
      (List.range view.nonzeros).map fun position =>
        inner (view.innerIndices.read position) (view.values.read position) := by
  rw [entries, map_segments]
  simp only [innerOf_compressedCoordinate]
  rw [segments_eq_map_range h.bounds, h.bound_back]

/-- The length of a slice is the number of entries with its outer index. -/
theorem countP_entries (view : CompressedSparseView E format) {outer : Nat}
    (houter : outer < view.outerExtent.toNat) :
    (view.entries.countP fun entry => outerOf format entry.1 == (outer : Int)) =
      (view.outerOffsets.read (outer + 1)).toNat - (view.outerOffsets.read outer).toNat := by
  have hcount := @countP_segments (Coordinate 2 × E)
    (fun outer => (view.outerOffsets.read outer).toNat)
    (fun outer position => (compressedCoordinate format outer (view.innerIndices.read position),
      view.values.read position))
    (fun outer entry => outerOf format entry.1 == (outer : Int)) (fun segment other position => by
      rw [outerOf_compressedCoordinate, Bool.eq_iff_iff, beq_iff_eq, beq_iff_eq]
      omega) view.outerExtent.toNat outer
  rwa [if_pos houter] at hcount

/-- Canonical arrays of one shape with the same entries are the same. -/
theorem CanonicalArrays.ext (h : view.CanonicalArrays) (h' : view'.CanonicalArrays)
    (hshape : view.shape = view'.shape) (hentries : view.entries = view'.entries) :
    SameStorage view view' := by
  have hnonzeros : view.nonzeros = view'.nonzeros := by
    rw [← h.length_entries, hentries, h'.length_entries]
  have houter : view.outerExtent = view'.outerExtent := by
    rw [outerExtent, hshape, ← outerExtent]
  have hpairs := h.map_entries fun inner value => (inner, value)
  rw [hentries, h'.map_entries, ← hnonzeros] at hpairs
  have hread : ∀ position < view.nonzeros,
      (view'.innerIndices.read position, view'.values.read position) =
        (view.innerIndices.read position, view.values.read position) :=
    fun position hposition => List.map_inj_left.1 hpairs position (List.mem_range.2 hposition)
  -- The slices have the same lengths, because the entries count them.
  have hlengths : ∀ outer < view.outerExtent.toNat,
      (view.outerOffsets.read (outer + 1)).toNat - (view.outerOffsets.read outer).toNat =
        (view'.outerOffsets.read (outer + 1)).toNat - (view'.outerOffsets.read outer).toNat := by
    intro outer hlt
    rw [← countP_entries view hlt, hentries, countP_entries view' (by omega)]
  -- Bounds that start together and grow by the same lengths agree.
  have hoffsets : ∀ outer ≤ view.outerExtent.toNat,
      view.outerOffsets.read outer = view'.outerOffsets.read outer := by
    intro outer hle
    have hbounds' := h'.bounds
    rw [← houter] at hbounds'
    have hsame := h.bounds.eq_of_lengths hbounds' hlengths hle
    have hnonneg := h.offset_nonneg hle
    have hle' : outer ≤ view'.outerExtent.toNat := by omega
    have hnonneg' := h'.offset_nonneg hle'
    omega
  exact
    { shape := hshape
      nonzeros := hnonzeros
      offsets := hoffsets
      indices := fun position hposition => (congrArg Prod.fst (hread position hposition)).symm
      values := fun position hposition => (congrArg Prod.snd (hread position hposition)).symm }

end Views

end CompressedSparseView

end Sparse
end AscCpp
