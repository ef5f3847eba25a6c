import AscCpp.Sparse.Blas.View
import AscCpp.Sparse.VectorFamily
import Mathlib.Algebra.Star.Basic

/-!
# Stored — the sparse operand of Sparse BLAS

The loop `ForEachStored`, the search `OpValue`, and the checks that every operation makes of its
matrix.  Scalars form a commutative ring with a conjugation, which is the identity for the real
element types.

- `forEachStored_updates`: the loop folds over the entries of the matrix.
- `forEachStored_adds`: when every round adds to the output, the loop adds a sum over the matrix.
- `opValue_eq`: the search finds the value of the transformed matrix.
-/

namespace AscCpp
namespace Sparse
namespace Blas

open AscCpp.Core Library

variable {Cell V : Type} [CommRing V] [StarRing V] [DecidableEq V] {type : Representation Cell V}
  {format : SparseCompressedFormat}

/-! ## Checks -/

def validateSerial (context : ExecutionContext) : Result Unit :=
  failIf (context.backend ≠ .serial ∨ context.canAccess .host = false)
    { code := .unsupported, message := "Sparse BLAS CPU operations require serial execution" }

def validateHostVector (vector : SparseBlasVectorView type) : Result Unit :=
  failIf (vector.memorySpace ≠ .host)
    { code := .memoryAccess, message := "Sparse BLAS CPU vectors require host memory" }

def validateCompressedHost (matrix : CompressedSparseView (Stored type) format) : Result Unit :=
  failIf (matrix.memorySpace ≠ .host ∨ matrix.canonicalStructureTrusted = false)
    { code := .memoryAccess, message := "Sparse BLAS CPU matrices require canonical host storage" }

def matrixOverlaps (matrix : CompressedSparseView (Stored type) format)
    (storage : ConstMemoryView) : Bool :=
  match checkedAdd int64 matrix.outerExtent 1 >>= fun count => checkedByteCount count indexSize,
    checkedByteCount matrix.nonzeros indexSize, checkedByteCount matrix.nonzeros type.size with
  | .ok offsetBytes, .ok indexBytes, .ok valueBytes =>
    overlap ⟨matrix.outerOffsets.address, offsetBytes.toNat, matrix.memorySpace⟩ storage ||
      overlap ⟨matrix.innerIndices.address, indexBytes.toNat, matrix.memorySpace⟩ storage ||
      overlap ⟨matrix.values.address, valueBytes.toNat, matrix.memorySpace⟩ storage
  | _, _, _ => true

omit [StarRing V] [DecidableEq V] [CommRing V] in
/-- Storage that `MatrixOverlaps` keeps apart meets none of the three arrays. -/
theorem matrixOverlaps_eq_false {matrix : CompressedSparseView (Stored type) format}
    {storage : ConstMemoryView} (h : matrixOverlaps matrix storage = false) :
    Block.Disjoint ⟨matrix.outerOffsets.address, ((matrix.outerExtent + 1) * indexSize).toNat⟩
        storage.block ∧
      Block.Disjoint ⟨matrix.innerIndices.address, matrix.nonzeros * indexSize⟩ storage.block ∧
      matrix.valueSpan.Disjoint storage.block := by
  unfold matrixOverlaps at h
  split at h
  · rename_i offsetBytes indexBytes valueBytes hoffsets hindices hvalues
    simp only [Bool.or_eq_false_iff] at h
    rcases Result.bind_eq_ok_iff.1 hoffsets with ⟨count, hcount, hoffsets⟩
    have hoffsetBytes := checkedByteCount_ok_eq hoffsets
    rw [checkedAdd_ok_eq hcount] at hoffsetBytes
    have hindexBytes := checkedByteCount_ok_eq hindices
    have hvalueBytes := checkedByteCount_ok_eq hvalues
    rw [hoffsetBytes, hindexBytes, hvalueBytes] at h
    rcases h with ⟨⟨hoffsetsApart, hindicesApart⟩, hvaluesApart⟩
    exact ⟨overlap_eq_false hoffsetsApart, overlap_eq_false hindicesApart,
      overlap_eq_false hvaluesApart⟩
  · cases h

/-! ## Stored entries -/

/-- `ForEachStored`. -/
def forEachStored (matrix : CompressedSparseView (Stored type) format)
    (function : Int → Int → V → Effect (Nat → Cell) Unit) : Effect (Nat → Cell) Unit :=
  forM (List.range matrix.outerExtent.toNat) fun (outer : Nat) =>
    let first := (matrix.outerOffsets.read outer).toNat
    let last := (matrix.outerOffsets.read (outer + 1)).toNat
    forM (List.range' first (last - first)) fun (position : Nat) => do
      let coordinate := compressedCoordinate format outer (matrix.innerIndices.read position)
      let memory ← Effect.read
      function (coordinate.get 0) (coordinate.get 1) (matrix.storedValue memory position)

def maybeConjugate (value : V) (conjugate : Bool) : V :=
  if conjugate then star value else value

/-- `OpValue`; the loop over the stored entries keeps the last match. -/
def opValue (matrix : CompressedSparseView (Stored type) format) (memory : Nat → Cell)
    (transposition : SparseBlasTranspose) (row column : Int) : V :=
  let exchanged := transposition ≠ .none
  let sourceRow := if exchanged then column else row
  let sourceColumn := if exchanged then row else column
  (matrix.matrixEntries memory).foldl
    (fun result entry =>
      if entry.1.get 0 = sourceRow ∧ entry.1.get 1 = sourceColumn then
        maybeConjugate entry.2 (transposition = .conjugateTranspose)
      else
        result)
    0

section Loops

variable {matrix : CompressedSparseView (Stored type) format} {ι : Type}
  {family : ElementFamily type ι} {memory : Nat → Cell}
  {function : Int → Int → V → Effect (Nat → Cell) Unit}

omit [CommRing V] [StarRing V] [DecidableEq V] in
/-- The loop folds over the entries of the matrix, when no round touches their values. -/
theorem forEachStored_updates (h : matrix.CanonicalArrays)
    (hapart : ∀ memory', family.Untouched memory memory' →
      AgreeOn matrix.valueSpan memory memory')
    {step : (ι → V) → Coordinate 2 × V → ι → V}
    (hround : ∀ entry ∈ matrix.matrixEntries memory, ∀ memory', family.Untouched memory memory' →
      Effect.Updates family (function (entry.1.get 0) (entry.1.get 1) entry.2)
        (fun values => step values entry) memory') :
    Effect.Updates family (forEachStored matrix function)
      (fun values => (matrix.matrixEntries memory).foldl step values) memory := by
  unfold forEachStored
  simp only [CompressedSparseView.matrixEntries, segments, List.foldl_flatMap, List.foldl_map]
  -- The two loops are one fold over the entries, the slices one behind the other.
  apply Effect.exec_forM_family memory
  intro outer houter memory' huntouched
  apply Effect.exec_forM_family memory'
  intro position hrange memory'' huntouched'
  have houter' := List.mem_range.1 houter
  rcases List.mem_range'_1.1 hrange with ⟨hfirst, hlast⟩
  have hbehind : position < (matrix.outerOffsets.read (outer + 1)).toNat := by omega
  have hentry : (compressedCoordinate format outer (matrix.innerIndices.read position),
      matrix.storedValue memory position) ∈ matrix.matrixEntries memory :=
    mem_segments.2 ⟨outer, houter', position, hfirst, hbehind, rfl⟩
  have hvalue : matrix.storedValue memory'' position = matrix.storedValue memory position :=
    (load_congr_block (hapart memory'' (huntouched.trans huntouched'))
      (h.position_lt houter' hbehind)).symm
  rcases hround _ hentry memory'' (huntouched.trans huntouched') with ⟨last, hrun, hupdate⟩
  refine ⟨last, ?_, hupdate⟩
  rw [Effect.exec_read_bind, hvalue]
  exact hrun

omit [StarRing V] in
/-- When every round adds to the output, the loop adds a sum over the matrix. -/
theorem forEachStored_adds (h : matrix.CanonicalArrays)
    (hapart : ∀ memory', family.Untouched memory memory' →
      AgreeOn matrix.valueSpan memory memory')
    (amount : Int → Int → V →+ (ι → V))
    (hround : ∀ row column value, 0 ≤ row ∧ row < matrix.rows →
      0 ≤ column ∧ column < matrix.columns → ∀ memory', family.Untouched memory memory' →
        Effect.Updates family (function row column value)
          (fun values => values + amount row column value) memory') :
    Effect.Updates family (forEachStored matrix function)
      (fun values => values + ∑ row : Fin matrix.rows.toNat, ∑ column : Fin matrix.columns.toNat,
        amount row.val column.val (matrix.matrixValue memory row.val column.val)) memory := by
  have hloop := forEachStored_updates h hapart
    (@fun entry hentry => hround (entry.1.get 0) (entry.1.get 1) entry.2
      (CompressedSparseView.inRange_rows_columns (h.matrixEntries_inRange memory entry hentry)).1
      (CompressedSparseView.inRange_rows_columns (h.matrixEntries_inRange memory entry hentry)).2)
  simpa only [foldl_add_eq_sum, h.sum_matrixEntries memory amount] using hloop

end Loops

/-! ## The transformed matrix -/

/-- `op` of a matrix. -/
def transposedValue (transposition : SparseBlasTranspose) (value : Int → Int → V)
    (row column : Int) : V :=
  match transposition with
  | .none => value row column
  | .transpose => value column row
  | .conjugateTranspose => star (value column row)

/-- The value of the matrix that a transposition makes. -/
def transformedValue (matrix : CompressedSparseView (Stored type) format) (memory : Nat → Cell)
    (transposition : SparseBlasTranspose) (row column : Int) : V :=
  transposedValue transposition (matrix.matrixValue memory) row column

omit [StarRing V] in
theorem foldl_match_eq {matrix : CompressedSparseView (Stored type) format}
    (h : matrix.CanonicalArrays) (memory : Nat → Cell) (report : V → V) (hzero : report 0 = 0)
    (row column : Int) :
    (matrix.matrixEntries memory).foldl
      (fun result entry =>
        if entry.1.get 0 = row ∧ entry.1.get 1 = column then report entry.2 else result) 0 =
      report (matrix.matrixValue memory row column) := by
  -- A coordinate of two indices is determined by them.
  have hkey : ∀ coordinate : Coordinate 2,
      coordinate.get 0 = row ∧ coordinate.get 1 = column ↔ coordinate = ⟨[row, column], rfl⟩ := by
    intro coordinate
    constructor
    · rintro ⟨rfl, rfl⟩
      exact coordinate_eq coordinate
    · rintro rfl
      exact ⟨rfl, rfl⟩
  refine Eq.trans ?_ (foldl_match (h.matrixEntries_ordered memory).keys_nodup hzero)
  apply List.foldl_ext
  intro result entry _
  by_cases heq : entry.1 = ⟨[row, column], rfl⟩
  · rw [if_pos ((hkey entry.1).2 heq), if_pos heq]
  · rw [if_neg (mt (hkey entry.1).1 heq), if_neg heq]

/-- The search finds the value of the transformed matrix. -/
theorem opValue_eq {matrix : CompressedSparseView (Stored type) format}
    (h : matrix.CanonicalArrays) (memory : Nat → Cell) (transposition : SparseBlasTranspose)
    (row column : Int) :
    opValue matrix memory transposition row column =
      transformedValue matrix memory transposition row column := by
  cases transposition with
  | none => exact foldl_match_eq h memory (fun value => value) rfl row column
  | transpose => exact foldl_match_eq h memory (fun value => value) rfl column row
  | conjugateTranspose => exact foldl_match_eq h memory star (star_zero V) column row

end Blas
end Sparse
end AscCpp
