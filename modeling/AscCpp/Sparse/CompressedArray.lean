import AscCpp.Sparse.CompressedView
import AscCpp.Sparse.CoordinateBuilder

/-!
# CompressedArray — compressed arrays and their conversions

`CompressedSparseArray` with `FromCoordinate` and `FromCompressed`, and `ConvertToCoordinate`.  The
conversions to a compressed format run once over the source for every outer index and append the
entries with that index to the arrays.
-/

namespace AscCpp
namespace Sparse

open AscCpp.Core Library

/-! ## Arrays -/

/-- The three arrays behind the buffers of a compressed array. -/
structure CompressedStorage (E : Type) where
  offsets : List Int
  indices : List Int
  values : List E

namespace CompressedStorage

variable {E : Type}

/-- The arrays behind fresh buffers; no cell is read before it is written. -/
def allocate [Inhabited E] (offsetCount nonzeros : Nat) : CompressedStorage E :=
  { offsets := List.replicate offsetCount 0
    indices := List.replicate nonzeros 0
    values := List.replicate nonzeros default }

def setOffset (storage : CompressedStorage E) (outer : Nat) (offset : Int) : CompressedStorage E :=
  { storage with offsets := storage.offsets.set outer offset }

def setIndex (storage : CompressedStorage E) (output : Nat) (inner : Int) : CompressedStorage E :=
  { storage with indices := storage.indices.set output inner }

def setValue (storage : CompressedStorage E) (output : Nat) (value : E) : CompressedStorage E :=
  { storage with values := storage.values.set output value }

end CompressedStorage

structure CompressedSparseArray (E : Type) (format : SparseCompressedFormat) where
  resource : Option MemoryResource
  outerOffsets : Buffer
  innerIndices : Buffer
  values : Buffer
  storage : CompressedStorage E
  shape : Shape 2
  nonzeros : Nat

namespace CompressedSparseArray

variable {E : Type} {format sourceFormat : SparseCompressedFormat}

def valid (array : CompressedSparseArray E format) : Bool :=
  array.resource.isSome && array.outerOffsets.valid && array.innerIndices.valid &&
    array.values.valid

def offsetPointer (array : CompressedSparseArray E format) : Pointer Int :=
  ⟨array.outerOffsets.data, array.storage.offsets⟩

def indexPointer (array : CompressedSparseArray E format) : Pointer Int :=
  ⟨array.innerIndices.data, array.storage.indices⟩

def valuePointer (array : CompressedSparseArray E format) : Pointer E :=
  ⟨array.values.data, array.storage.values⟩

def view (array : CompressedSparseArray E format) : Result (CompressedSparseView E format) := do
  failIf (array.valid = false)
    { code := .invalidState, message := "A moved-from CompressedSparseArray has no view" }
  .ok
    { outerOffsets := array.offsetPointer
      innerIndices := array.indexPointer
      values := array.valuePointer
      shape := array.shape
      nonzeros := array.nonzeros
      memorySpace := .host
      canonicalStructureTrusted := true }

/-! ## Conversions -/

section Conversions

variable [SparseElement E]

/-- `AllocateAndFill`. -/
def allocateAndFill (format : SparseCompressedFormat) (resource : MemoryResource) (shape : Shape 2)
    (nonzeros : Nat) (fill : CompressedStorage E → Result (CompressedStorage E)) :
    Result (CompressedSparseArray E format) := do
  failIf (resource.space ≠ .host)
    { code := .unsupported, message := "Sparse conversions require a host resource" }
  let bytes ← compressedBytes format shape nonzeros (SparseElement.size E)
  let offsetBuffer ← Buffer.allocate resource [] bytes.offsets.toNat indexSize
  let indexBuffer ← Buffer.allocate resource [offsetBuffer.block] bytes.indices.toNat indexSize
  let valueBuffer ← Buffer.allocate resource [offsetBuffer.block, indexBuffer.block]
    bytes.values.toNat (SparseElement.alignment E)
  let storage ← fill (.allocate (outerExtent format shape + 1).toNat nonzeros)
  .ok
    { resource := some resource
      outerOffsets := offsetBuffer
      innerIndices := indexBuffer
      values := valueBuffer
      storage := storage
      shape := shape
      nonzeros := nonzeros }

/-- The body of the inner loop of `FromCoordinate`, over the arrays and the number of entries
written to them. -/
def placeCoordinate (format : SparseCompressedFormat) (source : CoordinateView E 2) (outer : Nat)
    (state : CompressedStorage E × Nat) (position : Nat) : Result (CompressedStorage E × Nat) := do
  let coordinate ← source.coordinate position
  if outerOf format coordinate ≠ outer then
    .ok state
  else do
    let value ← source.atStored position
    .ok ((state.1.setIndex state.2 (innerOf format coordinate)).setValue state.2 value, state.2 + 1)

/-- The callback of `FromCoordinate`. -/
def fillFromCoordinate (format : SparseCompressedFormat) (source : CoordinateView E 2)
    (storage : CompressedStorage E) : Result (CompressedStorage E) := do
  let filled ← (List.range (outerExtent format source.extents).toNat).foldlM
    (fun state outer => do
      let next ← (List.range source.nonzeros).foldlM (placeCoordinate format source outer) state
      .ok (next.1.setOffset (outer + 1) next.2, next.2))
    (storage.setOffset 0 0, 0)
  .ok filled.1

def fromCoordinate (format : SparseCompressedFormat) (context : ExecutionContext)
    (source : CoordinateView E 2) (destinationResource : MemoryResource) :
    Result (CompressedSparseArray E format) := do
  validateSerialHost context "Sparse conversion requires serial execution"
  validateSparseAccess source.memorySpace context
  allocateAndFill format destinationResource source.extents source.nonzeros
    (fillFromCoordinate format source)

/-- The body of the innermost loop of `FromCompressed`. -/
def placeCompressed (format : SparseCompressedFormat) (source : CompressedSparseView E sourceFormat)
    (outer : Nat) (state : CompressedStorage E × Nat) (sourceOuter position : Int) :
    Result (CompressedStorage E × Nat) := do
  let sourceInner ← source.innerIndex position
  let coordinate := compressedCoordinate sourceFormat sourceOuter sourceInner
  if outerOf format coordinate ≠ outer then
    .ok state
  else do
    let value ← source.atStored position
    .ok ((state.1.setIndex state.2 (innerOf format coordinate)).setValue state.2 value, state.2 + 1)

/-- The callback of `FromCompressed`. -/
def fillFromCompressed (format : SparseCompressedFormat)
    (source : CompressedSparseView E sourceFormat) (storage : CompressedStorage E) :
    Result (CompressedStorage E) := do
  let filled ← (List.range (outerExtent format source.shape).toNat).foldlM
    (fun state outer => do
      let next ← source.foldSlices (placeCompressed format source outer) state
      .ok (next.1.setOffset (outer + 1) next.2, next.2))
    (storage.setOffset 0 0, 0)
  .ok filled.1

/-- `FromCompressed`; the source asks for a format other than that of its argument. -/
def fromCompressed (format : SparseCompressedFormat) (context : ExecutionContext)
    (source : CompressedSparseView E sourceFormat) (destinationResource : MemoryResource) :
    Result (CompressedSparseArray E format) := do
  validateSerialHost context "Sparse conversion requires serial execution"
  validateSparseAccess source.memorySpace context
  allocateAndFill format destinationResource source.shape source.nonzeros
    (fillFromCompressed format source)

end Conversions

end CompressedSparseArray

section

variable {E : Type} [SparseElement E] {format : SparseCompressedFormat}

/-- The body of the inner loop of `ConvertToCoordinate`. -/
def addStored (source : CompressedSparseView E format) (builder : CoordinateBuilder E 2)
    (outer position : Int) : Result (CoordinateBuilder E 2) := do
  let inner ← source.innerIndex position
  let value ← source.atStored position
  builder.add (compressedCoordinate format outer inner) value

def convertToCoordinate (context : ExecutionContext) (source : CompressedSparseView E format)
    (destinationResource : MemoryResource) : Result (CoordinateArray E 2) := do
  validateSerialHost context "Sparse conversion requires serial execution"
  validateSparseAccess source.memorySpace context
  let extents ← Extents.create (⟨[dynamicExtent, dynamicExtent], rfl⟩ : Shape 2)
    [source.shape.get 0, source.shape.get 1]
  let builder ← CoordinateBuilder.create destinationResource extents source.nonzeros
  let filled ← source.foldSlices (addStored source) builder
  (filled.finalize context .reject .keep).1

end

end Sparse
end AscCpp
