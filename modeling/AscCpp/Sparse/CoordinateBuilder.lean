import AscCpp.Sparse.CoordinateView

/-!
# CoordinateBuilder — adding entries and finalizing them

`CoordinateBuilder` collects entries in two parallel arrays; `finalize` checks the duplicates, sorts
the arrays in place and compacts them in place.  Each loop of the source is one function here.

- `EntryStorage`: the two arrays, behind the buffers of a builder or of an array.
- `stableSort`: the insertion sort, moving both arrays.
- `compactWith`: the compaction, over the addition it performs; `compact` performs the unchecked
  addition of the element type.
- `CoordinateBuilder.finalize` returns the array or the failure, and the builder it leaves behind.
-/

namespace AscCpp
namespace Sparse

open AscCpp.Core Library

/-! ## Parallel arrays -/

/-- The coordinate array and the value array of a builder. -/
structure EntryStorage (E : Type) (rank : Nat) where
  coordinates : List (Coordinate rank)
  values : List E

namespace EntryStorage

variable {E : Type} [SparseElement E] {rank : Nat}

/-- The arrays behind fresh buffers; C++ leaves the cells indeterminate, and none is read before it
is written. -/
def allocate (capacity : Nat) : EntryStorage E rank :=
  { coordinates := List.replicate capacity default
    values := List.replicate capacity default }

def coordinateAt (storage : EntryStorage E rank) (position : Nat) : Coordinate rank :=
  storage.coordinates.getD position default

def valueAt (storage : EntryStorage E rank) (position : Nat) : E :=
  storage.values.getD position default

def setCoordinate (storage : EntryStorage E rank) (position : Nat)
    (coordinate : Coordinate rank) : EntryStorage E rank :=
  { storage with coordinates := storage.coordinates.set position coordinate }

def setValue (storage : EntryStorage E rank) (position : Nat) (value : E) :
    EntryStorage E rank :=
  { storage with values := storage.values.set position value }

end EntryStorage

section Loops

variable {E : Type} [SparseElement E] {rank : Nat}

/-! ## Sorting -/

/-- The inner loop of `StableSort`: entries with greater coordinates move up by one, and the
position where the loop stops is returned. -/
def shiftGreater (coordinate : Coordinate rank) :
    Nat → EntryStorage E rank → EntryStorage E rank × Nat
  | 0, storage => (storage, 0)
  | previous + 1, storage =>
    if compareCoordinates (storage.coordinateAt previous) coordinate ≤ 0 then
      (storage, previous + 1)
    else
      shiftGreater coordinate previous
        ((storage.setCoordinate (previous + 1) (storage.coordinateAt previous)).setValue
          (previous + 1) (storage.valueAt previous))

/-- One round of `StableSort`. -/
def insertPosition (storage : EntryStorage E rank) (position : Nat) : EntryStorage E rank :=
  let coordinate := storage.coordinateAt position
  let value := storage.valueAt position
  let shifted := shiftGreater coordinate position storage
  (shifted.1.setCoordinate shifted.2 coordinate).setValue shifted.2 value

def stableSort (storage : EntryStorage E rank) (size : Nat) : EntryStorage E rank :=
  (List.range' 1 (size - 1)).foldl insertPosition storage

/-! ## Compacting -/

variable {m : Type → Type} [Monad m]

/-- The inner loop of `Compact`: the value of the group, and the position behind it. -/
def sumGroup (add : E → E → m E) (duplicatePolicy : DuplicatePolicy)
    (storage : EntryStorage E rank) (groupBegin : Nat) : Nat → Nat → E → m (E × Nat)
  | 0, input, value => pure (value, input)
  | remaining + 1, input, value =>
    if compareCoordinates (storage.coordinateAt groupBegin) (storage.coordinateAt input) = 0 then do
      let value ←
        if duplicatePolicy = .sum then add value (storage.valueAt input) else pure value
      sumGroup add duplicatePolicy storage groupBegin remaining (input + 1) value
    else
      pure (value, input)

/-- The outer loop of `Compact`; every round consumes at least one entry, so the number of entries
bounds the rounds. -/
def compactFrom (add : E → E → m E) (duplicatePolicy : DuplicatePolicy)
    (zeroPolicy : ExplicitZeroPolicy) (size : Nat) :
    Nat → EntryStorage E rank → Nat → Nat → m (EntryStorage E rank × Nat)
  | 0, storage, _, output => pure (storage, output)
  | rounds + 1, storage, input, output =>
    if input < size then do
      let groupBegin := input
      let group ← sumGroup add duplicatePolicy storage groupBegin (size - (input + 1)) (input + 1)
        (storage.valueAt input)
      if zeroPolicy = .drop ∧ SparseElement.isZero group.1 = true then
        compactFrom add duplicatePolicy zeroPolicy size rounds storage group.2 output
      else
        let moved :=
          if output ≠ groupBegin then
            storage.setCoordinate output (storage.coordinateAt groupBegin)
          else
            storage
        compactFrom add duplicatePolicy zeroPolicy size rounds (moved.setValue output group.1)
          group.2 (output + 1)
    else
      pure (storage, output)

/-- `Compact`, over the addition that it performs. -/
def compactWith (add : E → E → m E) (duplicatePolicy : DuplicatePolicy)
    (zeroPolicy : ExplicitZeroPolicy) (storage : EntryStorage E rank) (size : Nat) :
    m (EntryStorage E rank × Nat) :=
  compactFrom add duplicatePolicy zeroPolicy size size storage 0 0

/-- `Compact`: the compacted arrays and the number of entries that remain. -/
def compact (duplicatePolicy : DuplicatePolicy) (zeroPolicy : ExplicitZeroPolicy)
    (storage : EntryStorage E rank) (size : Nat) : EntryStorage E rank × Nat :=
  Id.run (compactWith (fun left right => pure (SparseElement.add left right)) duplicatePolicy
    zeroPolicy storage size)

/-! ## Checking duplicates -/

/-- One round of the inner loop of `PreflightDuplicates`, over the running sum and whether a
duplicate was met. -/
def addLater (duplicatePolicy : DuplicatePolicy) (storage : EntryStorage E rank) (first : Nat)
    (state : E × Bool) (later : Nat) : Result (E × Bool) :=
  if compareCoordinates (storage.coordinateAt first) (storage.coordinateAt later) ≠ 0 then
    .ok state
  else if duplicatePolicy = .sum then do
    let next ← SparseElement.addDuplicate state.1 (storage.valueAt later)
    .ok (next, true)
  else
    .ok (state.1, true)

/-- Whether an earlier entry has the coordinate of the first one. -/
def wasSeen (storage : EntryStorage E rank) (first : Nat) : Bool :=
  (List.range first).any fun earlier =>
    compareCoordinates (storage.coordinateAt first) (storage.coordinateAt earlier) = 0

/-- One round of `PreflightDuplicates`: the first entry of a coordinate meets the later ones. -/
def preflightRound (duplicatePolicy : DuplicatePolicy) (storage : EntryStorage E rank)
    (size first : Nat) : Result Unit :=
  if wasSeen storage first then
    .ok ()
  else do
    let state ← (List.range' (first + 1) (size - (first + 1))).foldlM
      (addLater duplicatePolicy storage first) (storage.valueAt first, false)
    failIf (state.2 = true ∧ duplicatePolicy = .reject)
      { code := .invalidArgument, message := "Duplicate sparse coordinates were rejected" }

/-- `PreflightDuplicates`. -/
def preflightDuplicates (duplicatePolicy : DuplicatePolicy) (storage : EntryStorage E rank)
    (size : Nat) : Result Unit :=
  forM (List.range size) (preflightRound duplicatePolicy storage size)

end Loops

/-! ## Arrays -/

structure CoordinateArray (E : Type) (rank : Nat) where
  resource : Option MemoryResource
  coordinates : Buffer
  values : Buffer
  storage : EntryStorage E rank
  extents : Extents rank
  nonzeros : Nat

namespace CoordinateArray

variable {E : Type} {rank : Nat}

def valid (array : CoordinateArray E rank) : Bool :=
  array.resource.isSome && array.coordinates.valid && array.values.valid

def coordinatePointer (array : CoordinateArray E rank) : Pointer (Coordinate rank) :=
  ⟨array.coordinates.data, array.storage.coordinates⟩

def valuePointer (array : CoordinateArray E rank) : Pointer E :=
  ⟨array.values.data, array.storage.values⟩

def view (array : CoordinateArray E rank) : Result (CoordinateView E rank) := do
  failIf (array.valid = false)
    { code := .invalidState, message := "A moved-from CoordinateArray has no view" }
  .ok
    { coordinates := array.coordinatePointer
      values := array.valuePointer
      extents := array.extents.values
      nonzeros := array.nonzeros
      memorySpace := .host
      canonicalStructureTrusted := true }

end CoordinateArray

/-! ## Builders -/

structure CoordinateBuilder (E : Type) (rank : Nat) where
  resource : Option MemoryResource
  coordinates : Buffer
  values : Buffer
  storage : EntryStorage E rank
  extents : Extents rank
  capacity : Nat
  size : Nat := 0

namespace CoordinateBuilder

variable {E : Type} [SparseElement E] {rank : Nat}

def create (resource : MemoryResource) (extents : Extents rank) (capacity : Int) :
    Result (CoordinateBuilder E rank) := do
  failIf (resource.space ≠ .host)
    { code := .unsupported, message := "Sparse builders require a host resource" }
  failIf (capacity < 0)
    { code := .invalidArgument, message := "CoordinateBuilder capacity cannot be negative" }
  failIf (extents.logicalSize = 0 ∧ capacity ≠ 0)
    { code := .shape, message := "An empty sparse shape cannot have entry capacity" }
  let coordinateCount ← coordinateElementCount capacity rank
  let coordinateBytes ← checkedMultiply sizeType coordinateCount indexSize
  let valueBytes ← checkedByteCount capacity (SparseElement.size E)
  let coordinateBuffer ← Buffer.allocate resource [] coordinateBytes.toNat indexSize
  let valueBuffer ← Buffer.allocate resource [coordinateBuffer.block] valueBytes.toNat
    (SparseElement.alignment E)
  .ok
    { resource := some resource
      coordinates := coordinateBuffer
      values := valueBuffer
      storage := .allocate capacity.toNat
      extents := extents
      capacity := capacity.toNat }

def valid (builder : CoordinateBuilder E rank) : Bool :=
  builder.resource.isSome && builder.coordinates.valid && builder.values.valid

/-- `Add`: the builder after a successful call; a failing call leaves it as it was. -/
def add (builder : CoordinateBuilder E rank) (coordinate : Coordinate rank) (value : E) :
    Result (CoordinateBuilder E rank) := do
  failIf (builder.valid = false)
    { code := .invalidState
      message := "A moved-from CoordinateBuilder cannot accept entries" }
  validateCoordinate coordinate builder.extents.values
  failIf (builder.size = builder.capacity)
    { code := .invalidState, message := "CoordinateBuilder capacity is exhausted" }
  .ok
    { builder with
      storage := (builder.storage.setCoordinate builder.size coordinate).setValue
        builder.size value
      size := builder.size + 1 }

/-- The builder after successful calls of `Add`, one for each entry. -/
def addAll (builder : CoordinateBuilder E rank) (added : List (Coordinate rank × E)) :
    Result (CoordinateBuilder E rank) :=
  added.foldlM (fun current entry => current.add entry.1 entry.2) builder

/-- The checks of `Finalize`, all of them before the arrays change. -/
def checkFinalize (builder : CoordinateBuilder E rank) (context : ExecutionContext)
    (duplicatePolicy : DuplicatePolicy) : Result Unit := do
  failIf (builder.valid = false)
    { code := .invalidState
      message := "A moved-from CoordinateBuilder cannot be finalized" }
  validateSerialHost context "Sparse finalization requires serial execution"
  preflightDuplicates duplicatePolicy builder.storage builder.size

/-- `Finalize`: its result, and the builder afterwards. -/
def finalize (builder : CoordinateBuilder E rank) (context : ExecutionContext)
    (duplicatePolicy : DuplicatePolicy) (zeroPolicy : ExplicitZeroPolicy) :
    Result (CoordinateArray E rank) × CoordinateBuilder E rank :=
  match builder.checkFinalize context duplicatePolicy with
  | .error status => (.error status, builder)
  | .ok () =>
    let compacted :=
      compact duplicatePolicy zeroPolicy (stableSort builder.storage builder.size) builder.size
    (.ok
      { resource := builder.resource
        coordinates := builder.coordinates
        values := builder.values
        storage := compacted.1
        extents := builder.extents
        nonzeros := compacted.2 },
      { builder with
        resource := none
        coordinates := .moved
        values := .moved
        storage := ⟨[], []⟩
        capacity := 0
        size := 0 })

end CoordinateBuilder

end Sparse
end AscCpp
