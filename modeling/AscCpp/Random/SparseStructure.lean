import AscCpp.Library.RowMajor
import AscCpp.Library.Smallest
import AscCpp.Random.DenseFill
import AscCpp.Random.ElementAt
import AscCpp.Random.LatinHypercube
import AscCpp.Sparse.Finalize

/-!
# SparseStructure — generating sparse structures and arrays

`GenerateSparseStructure` selects ordinals by a partition of all candidates, `GenerateSparseUniform01`
by a search for each of them.  An ordinal is below a logical size, so that none wraps around.

- `Partitions`: what `std::nth_element` promises.
- `candidateLess_iff`, `priorityOrdinalLess_iff`: the order of the candidates is that of their keys.
-/

namespace AscCpp
namespace Random

open AscCpp.Core Library AscCpp.Sparse

/-! ## Candidates -/

structure SparseRandomStructureCandidate where
  priority : BitVec 64
  ordinal : Nat
  deriving DecidableEq, Repr

def priorityOrdinalLess (leftPriority : BitVec 64) (leftOrdinal : Nat) (rightPriority : BitVec 64)
    (rightOrdinal : Nat) : Bool :=
  leftPriority < rightPriority || (leftPriority = rightPriority && leftOrdinal < rightOrdinal)

def candidateLess (left right : SparseRandomStructureCandidate) : Bool :=
  priorityOrdinalLess left.priority left.ordinal right.priority right.ordinal

/-- `Priority`. -/
def priority (stream : RandomStream) (subsequence : RandomSubsequence) (offset : RandomOffset) :
    BitVec 64 :=
  let high := generatePhilox4x32Word stream subsequence offset
  let low := generatePhilox4x32Word stream subsequence (offset + 1)
  high.setWidth 64 <<< 32 ||| low.setWidth 64

/-- The priority of an ordinal, from the offset of the structure on. -/
def priorityOf (stream : RandomStream) (subsequence : RandomSubsequence) (offset : RandomOffset)
    (ordinal : Nat) : BitVec 64 :=
  priority stream subsequence (offset + 2 * BitVec.ofNat 64 ordinal)

def coordinateFromOrdinal {rank : Nat} (ordinal : Nat) (extents : Extents rank) : Coordinate rank :=
  ⟨(rowMajor (extents.values.toList.map Int.toNat) ordinal).1.map Nat.cast, by
    rw [List.length_map, rowMajor_length, List.length_map, extents.values.toList_length]⟩

/-- What `std::nth_element` promises: the range is permuted, and nothing behind the position is less
than what stands before it. -/
structure Partitions {α : Type} (less : α → α → Bool) (nthElement : Nat → List α → List α) :
    Prop where
  perm : ∀ position items, (nthElement position items).Perm items
  split : ∀ position items, position < items.length →
    ∀ before ∈ (nthElement position items).take position,
      ∀ behind ∈ (nthElement position items).drop position, less behind before = false

/-- The number of words that the priorities of all candidates take. -/
def structureWords (logicalSize count : Int) : Result Int :=
  if count ≠ 0 then checkedMultiply sizeType logicalSize 2 else .ok 0

/-! ## The structure -/

section Structure

variable {rank : Nat} (context : ExecutionContext) (extents : Extents rank) (exactCount : Int)

/-- The checks of `GenerateSparseStructure`: the logical size, the count and the next offset. -/
def structureSizes (offset : RandomOffset)
    (candidateWorkspace : Span SparseRandomStructureCandidate 16) (outputOrdinals : Span Nat 8) :
    Result (Nat × Nat × RandomOffset) := do
  failIf (context.backend ≠ .serial)
    { code := .unsupported
      message := "Sparse structure generation requires serial execution" }
  failIf (context.canAccess .host = false)
    { code := .memoryAccess, message := "Sparse structure generation requires host access" }
  failIf (exactCount < 0 ∨ exactCount > extents.logicalSize)
    { code := .shape, message := "Sparse structure count is incompatible with the shape" }
  let logicalSize ← checkedCast sizeType extents.logicalSize
  let count ← checkedCast sizeType exactCount
  failIf (outputOrdinals.items.length ≠ count.toNat)
    { code := .shape, message := "Sparse structure output has the wrong count" }
  failIf (candidateWorkspace.items.length ≠ if count = 0 then 0 else logicalSize.toNat)
    { code := .shape
      message := "Sparse structure candidate workspace has the wrong size" }
  failIf (byteRangesOverlap candidateWorkspace.data (candidateWorkspace.items.length * 16)
      outputOrdinals.data (outputOrdinals.items.length * 8))
    { code := .invalidArgument
      message := "Sparse structure workspace and output overlap" }
  let wordCount ← structureWords logicalSize count
  let next ← advanceRandomOffset offset (BitVec.ofInt 64 wordCount)
  .ok (logicalSize.toNat, count.toNat, next)

/-- The loop that fills the workspace. -/
def structureCandidates (priorities : Nat → BitVec 64) (logicalSize : Nat) :
    List SparseRandomStructureCandidate :=
  (List.range logicalSize).map fun ordinal => ⟨priorities ordinal, ordinal⟩

/-- The greatest candidate of the first positions.  Without a value a position is outside. -/
def cutoffCandidate (candidates : List SparseRandomStructureCandidate) (count : Nat) :
    Option SparseRandomStructureCandidate := do
  let first ← candidates[0]?
  (List.range' 1 (count - 1)).foldlM (fun cutoff position => do
    let candidate ← candidates[position]?
    some (if candidateLess cutoff candidate then candidate else cutoff)) first

/-- The loop that writes the ordinals up to the cutoff, and how many it writes.  Without a value the
output is too short. -/
def writeSelected (priorities : Nat → BitVec 64) (cutoff : SparseRandomStructureCandidate)
    (logicalSize : Nat) (output : List Nat) : Option (List Nat × Nat) :=
  (List.range logicalSize).foldlM (fun state ordinal =>
    if candidateLess cutoff ⟨priorities ordinal, ordinal⟩ then
      some state
    else if state.2 < state.1.length then
      some (state.1.set state.2 ordinal, state.2 + 1)
    else
      none) (output, 0)

def wrongCount : Status :=
  { code := .internal, message := "Sparse structure selection produced the wrong count" }

/-- `GenerateSparseStructure`, with the workspace and the output that it leaves. -/
def generateSparseStructure
    (nthElement : Nat → List SparseRandomStructureCandidate → List SparseRandomStructureCandidate)
    (stream : RandomStream) (subsequence : RandomSubsequence) (offset : RandomOffset)
    (candidateWorkspace : Span SparseRandomStructureCandidate 16) (outputOrdinals : Span Nat 8) :
    Option (Result RandomOffset × List SparseRandomStructureCandidate × List Nat) :=
  match structureSizes context extents exactCount offset candidateWorkspace outputOrdinals with
  | .error status => some (.error status, candidateWorkspace.items, outputOrdinals.items)
  | .ok (logicalSize, count, next) =>
    if count = 0 then
      some (.ok next, candidateWorkspace.items, outputOrdinals.items)
    else do
      let priorities := priorityOf stream subsequence offset
      let candidates := structureCandidates priorities logicalSize
      let partitioned := if count ≠ logicalSize then nthElement count candidates else candidates
      let cutoff ← cutoffCandidate partitioned count
      let selected ← writeSelected priorities cutoff logicalSize outputOrdinals.items
      if selected.2 ≠ outputOrdinals.items.length then
        some (.error wrongCount, partitioned, selected.1)
      else
        some (.ok next, partitioned, selected.1)

end Structure

/-! ## The array -/

section Array

variable {V : Type} [SparseElement V] {rank : Nat}

structure SparseUniform01Generation (V : Type) (rank : Nat) where
  array : CoordinateArray V rank
  nextStructureOffset : RandomOffset
  nextValueOffset : RandomOffset

variable (real : RandomReal) (scaled : Nat → Nat → V) (context : ExecutionContext)
  (extents : Extents rank) (exactCount : Int)

/-- The checks of `GenerateSparseUniform01`: the logical size, the count and the next offsets. -/
def uniformSizes (resource : MemoryResource) (structureStream valueStream : RandomStream)
    (structureSubsequence valueSubsequence : RandomSubsequence)
    (structureOffset valueOffset : RandomOffset) :
    Result (Nat × Nat × RandomOffset × RandomOffset) := do
  failIf (context.backend ≠ .serial)
    { code := .unsupported, message := "Sparse random generation requires serial execution" }
  failIf (context.canAccess .host = false)
    { code := .memoryAccess
      message := "Sparse random generation requires host memory access" }
  failIf (resource.space ≠ .host)
    { code := .unsupported, message := "Sparse random generation requires a host resource" }
  failIf (exactCount < 0 ∨ exactCount > extents.logicalSize)
    { code := .shape, message := "Sparse exact count is incompatible with the shape" }
  failIf (structureStream = valueStream ∧ structureSubsequence = valueSubsequence)
    { code := .invalidArgument
      message := "Sparse structure and values require distinct random domains" }
  let logicalSize ← checkedCast sizeType extents.logicalSize
  let count ← checkedCast sizeType exactCount
  let structureWordCount ← structureWords logicalSize exactCount
  let valueWordCount ← checkedMultiply sizeType count real.wordsPerElement.toNat
  let nextStructureOffset ← advanceRandomOffset structureOffset (BitVec.ofInt 64 structureWordCount)
  let nextValueOffset ← advanceRandomOffset valueOffset (BitVec.ofInt 64 valueWordCount)
  .ok (logicalSize.toNat, count.toNat, nextStructureOffset, nextValueOffset)

/-- Candidates up to the previous one are passed over. -/
def isBehind (priorities : Nat → BitVec 64) (previous : Option (BitVec 64 × Nat))
    (ordinal : Nat) : Bool :=
  match previous with
  | none => true
  | some last => priorityOrdinalLess last.1 last.2 (priorities ordinal) ordinal

/-- One round of the search. -/
def searchRound (priorities : Nat → BitVec 64) (previous best : Option (BitVec 64 × Nat))
    (ordinal : Nat) : Option (BitVec 64 × Nat) :=
  if isBehind priorities previous ordinal then
    match best with
    | none => some (priorities ordinal, ordinal)
    | some current =>
      if priorityOrdinalLess (priorities ordinal) ordinal current.1 current.2 then
        some (priorities ordinal, ordinal)
      else
        best
  else
    best

/-- The best candidate behind the previous one; zeros when there is none. -/
def searchNext (priorities : Nat → BitVec 64) (logicalSize : Nat)
    (previous : Option (BitVec 64 × Nat)) : BitVec 64 × Nat :=
  ((List.range logicalSize).foldl (searchRound priorities previous) none).getD (0, 0)

/-- The loop that adds the selected coordinates, with the last one selected. -/
def addSelected (priorities : Nat → BitVec 64) (logicalSize count : Nat)
    (builder : CoordinateBuilder V rank) :
    Result (Option (BitVec 64 × Nat) × CoordinateBuilder V rank) :=
  (List.range count).foldlM (fun state _ => do
    let best := searchNext priorities logicalSize state.1
    let next ← state.2.add (coordinateFromOrdinal best.2 extents) SparseElement.zero
    .ok (some best, next)) (none, builder)

/-- The loop that writes the values through the view. -/
def writeValues (stream : RandomStream) (subsequence : RandomSubsequence) (offset : RandomOffset)
    (count : Nat) (storage : EntryStorage V rank) : EntryStorage V rank :=
  (List.range count).foldl (fun storage position =>
    storage.setValue position (generateUniform01 real scaled stream subsequence
      (offset + BitVec.ofNat 64 position * real.wordsPerElement))) storage

def generateSparseUniform01 (resource : MemoryResource)
    (structureStream : RandomStream) (structureSubsequence : RandomSubsequence)
    (structureOffset : RandomOffset) (valueStream : RandomStream)
    (valueSubsequence : RandomSubsequence) (valueOffset : RandomOffset) :
    Result (SparseUniform01Generation V rank) := do
  let sizes ← uniformSizes real context extents exactCount resource structureStream valueStream
    structureSubsequence valueSubsequence structureOffset valueOffset
  let builder ← CoordinateBuilder.create resource extents exactCount
  let selected ← addSelected extents
    (priorityOf structureStream structureSubsequence structureOffset) sizes.1 sizes.2.1 builder
  let array ← (selected.2.finalize context .reject .keep).1
  let _ ← array.view
  .ok
    { array := { array with
        storage := writeValues real scaled valueStream valueSubsequence valueOffset sizes.2.1
          array.storage }
      nextStructureOffset := sizes.2.2.1
      nextValueOffset := sizes.2.2.2 }

end Array

/-! ## The order of the candidates -/

/-- What the candidates are ordered by. -/
def SparseRandomStructureCandidate.key (candidate : SparseRandomStructureCandidate) : Nat ×ₗ Nat :=
  toLex (candidate.priority.toNat, candidate.ordinal)

theorem candidateLess_iff {left right : SparseRandomStructureCandidate} :
    candidateLess left right = true ↔ left.key < right.key := by
  unfold candidateLess priorityOrdinalLess SparseRandomStructureCandidate.key
  rw [Prod.Lex.toLex_lt_toLex, Bool.or_eq_true, Bool.and_eq_true, decide_eq_true_iff,
    decide_eq_true_iff, decide_eq_true_iff, BitVec.lt_def, BitVec.toNat_inj]

theorem candidateLess_eq_false_iff {left right : SparseRandomStructureCandidate} :
    candidateLess left right = false ↔ right.key ≤ left.key := by
  rw [← not_lt, ← candidateLess_iff, Bool.not_eq_true]

/-- The key of an ordinal. -/
def candidateKey (priorities : Nat → BitVec 64) (ordinal : Nat) : Nat ×ₗ Nat :=
  SparseRandomStructureCandidate.key ⟨priorities ordinal, ordinal⟩

theorem candidateKey_injective (priorities : Nat → BitVec 64) :
    Function.Injective (candidateKey priorities) :=
  fun _ _ heq => congrArg (fun key => (ofLex key).2) heq

theorem priorityOrdinalLess_iff (priorities : Nat → BitVec 64) (left right : Nat) :
    priorityOrdinalLess (priorities left) left (priorities right) right = true ↔
      candidateKey priorities left < candidateKey priorities right :=
  @candidateLess_iff ⟨priorities left, left⟩ ⟨priorities right, right⟩

end Random
end AscCpp
