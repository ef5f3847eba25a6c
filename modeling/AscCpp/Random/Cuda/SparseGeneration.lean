import AscCpp.Random.Cuda.DenseKernel
import AscCpp.Random.Cuda.SparseKernels

/-!
# SparseGeneration — generating a sparse array on a CUDA device

- `sparseSizes_ok`: what the checks establish.
- `yields_generateSparse`: the outcomes of the generation.
- `device_sparse_correct`: the entries that the device generates are those of the host.
-/

namespace AscCpp
namespace Random
namespace Cuda

open AscCpp.Core AscCpp.Core.Cuda Library Effect AscCpp.Sparse

variable {Cell V : Type} {rank : Nat}

structure GenerationBuffers where
  coordinates : Buffer
  values : Buffer
  completion : Option Nat
  nextStructureOffset : RandomOffset
  nextValueOffset : RandomOffset

/-- `ValidateContext`; the stream of a state is never null. -/
def validateSparseContext (context : ProviderContext) : Result ExecutionState := do
  failIf (context.backend ≠ .cuda)
    { code := .invalidArgument
      message := "CUDA sparse random generation requires a CUDA context" }
  match context.state with
  | none =>
    .error
      { code := .invalidState
        message := "The CUDA sparse random context has no provider state" }
  | some execution => .ok execution

/-- The numbers that the checks compute. -/
structure SparseSizes where
  count : Nat
  nextStructureOffset : RandomOffset
  nextValueOffset : RandomOffset
  coordinateBytes : Nat
  valueBytes : Nat
  deriving DecidableEq

/-- The checks of `GenerateSparseUniform01Erased` before the storage is allocated. -/
def sparseSizes (real : RandomReal) (extents : Extents rank) (exactCount : Int)
    (resource : MemoryResource) (structureStream : RandomStream)
    (structureSubsequence : RandomSubsequence) (structureOffset : RandomOffset)
    (valueStream : RandomStream) (valueSubsequence : RandomSubsequence)
    (valueOffset : RandomOffset) : Result SparseSizes := do
  failIf (extents.logicalSize < 0 ∨ exactCount < 0 ∨ exactCount > extents.logicalSize)
    { code := .shape, message := "Sparse exact count is incompatible with the shape" }
  failIf (resource.space ≠ .device)
    { code := .memoryAccess
      message := "CUDA sparse random generation requires a device resource" }
  failIf (structureStream = valueStream ∧ structureSubsequence = valueSubsequence)
    { code := .invalidArgument
      message := "Sparse structure and values require distinct random domains" }
  let logicalCount ← checkedCast sizeType extents.logicalSize
  let selectedCount ← checkedCast sizeType exactCount
  let structureWordCount ← structureWords logicalCount exactCount
  let valueWordCount ← checkedMultiply sizeType selectedCount real.wordsPerElement.toNat
  let nextStructureOffset ←
    advanceRandomOffset structureOffset (BitVec.ofInt 64 structureWordCount)
  let nextValueOffset ← advanceRandomOffset valueOffset (BitVec.ofInt 64 valueWordCount)
  let coordinateCount ← checkedMultiply sizeType selectedCount rank
  let coordinateBytes ← checkedMultiply sizeType coordinateCount 8
  let valueBytes ← checkedMultiply sizeType selectedCount (elementBytes real)
  let coordinateSize ← checkedCast sizeType coordinateBytes
  let valueSize ← checkedCast sizeType valueBytes
  .ok
    { count := selectedCount.toNat
      nextStructureOffset := nextStructureOffset
      nextValueOffset := nextValueOffset
      coordinateBytes := coordinateSize.toNat
      valueBytes := valueSize.toNat }

def validateAllocation (buffer : Buffer) (device : Int) (alignment : Nat) :
    Call (Nat → Cell) Unit :=
  if buffer.size = 0 then
    pure ()
  else do
    Effect.ofResult (failIf (buffer.data % alignment ≠ 0)
      { code := .allocation, message := "A CUDA sparse random allocation is misaligned" })
    validateDeviceStorage buffer.data device
      "CUDA could not inspect a sparse random allocation"
      "A sparse random allocation is not on the context device"

/-- The storage of a generation, as the kernels take it. -/
def sparseDescriptor (extents : Extents rank) (count : Nat) (coordinates values : Buffer) :
    SparseDescriptor where
  coordinates := coordinates.data
  values := values.data
  rank := rank
  logicalSize := extents.logicalSize.toNat
  exactCount := count

section Generation

variable (index : LocalRepresentation Cell Int) (type : LocalRepresentation Cell V)
  (real : RandomReal) (scaled : Nat → Nat → V) (extents : Extents rank) (exactCount : Int)
  (resource : MemoryResource) (live : List Block) (structureStream : RandomStream)
  (structureSubsequence : RandomSubsequence) (structureOffset : RandomOffset)
  (valueStream : RandomStream) (valueSubsequence : RandomSubsequence) (valueOffset : RandomOffset)

/-- `GenerateSparseUniform01Erased`, with the blocks that are live; what it has allocated is released
when it fails. -/
def cudaGenerateSparseUniform01 (context : ProviderContext) :
    Call (Nat → Cell) GenerationBuffers := do
  let execution ← Effect.ofResult (validateSparseContext context)
  let sizes ← Effect.ofResult (sparseSizes real extents exactCount resource structureStream
    structureSubsequence structureOffset valueStream valueSubsequence valueOffset)
  let coordinates ← Effect.ofResult (Buffer.allocate resource live sizes.coordinateBytes 8)
  let values ← Effect.ofResult (Buffer.allocate resource (live ++ [coordinates.block])
    sizes.valueBytes (elementBytes real))
  let completion ← withDevice context.ordinal do
    validateAllocation coordinates context.ordinal 8
    validateAllocation values context.ordinal (elementBytes real)
    if exactCount = 0 then
      pure none
    else
      launchAll execution.stream false (sparseLaunches index type real scaled
        (sparseDescriptor extents sizes.count coordinates values) (unsignedExtents extents)
        structureStream structureSubsequence structureOffset valueStream valueSubsequence
        valueOffset)
      let event ← recordOrDrain context execution
      pure (some event)
  pure
    { coordinates := coordinates
      values := values
      completion := completion
      nextStructureOffset := sizes.nextStructureOffset
      nextValueOffset := sizes.nextValueOffset }

end Generation

/-! ## The checks -/

section Checks

variable {real : RandomReal} {extents : Extents rank} {exactCount : Int}
  {resource : MemoryResource} {structureStream valueStream : RandomStream}
  {structureSubsequence valueSubsequence : RandomSubsequence}
  {structureOffset valueOffset : RandomOffset} {sizes : SparseSizes}

/-- What the checks establish. -/
structure SizesChecked (real : RandomReal) (extents : Extents rank) (exactCount : Int)
    (structureOffset valueOffset : RandomOffset) (sizes : SparseSizes) : Prop where
  count_eq : exactCount = sizes.count
  count_le : sizes.count ≤ extents.logicalSize.toNat
  coordinateBytes_eq : sizes.coordinateBytes = sizes.count * rank * 8
  valueBytes_eq : sizes.valueBytes = sizes.count * elementBytes real
  nextStructure : NextStructureOffset extents exactCount structureOffset sizes.nextStructureOffset
  nextValue : sizes.nextValueOffset.toNat = valueOffset.toNat + real.wordCount sizes.count

theorem sparseSizes_ok
    (h : sparseSizes real extents exactCount resource structureStream structureSubsequence
      structureOffset valueStream valueSubsequence valueOffset = .ok sizes) :
    SizesChecked real extents exactCount structureOffset valueOffset sizes := by
  simp only [sparseSizes, Result.bind_eq_ok_iff] at h
  rcases h with ⟨⟨⟩, hcount, ⟨⟩, -, ⟨⟩, -, logicalCount, hlogical, selectedCount, hselected,
    structureWordCount, hstructure, valueWordCount, hvalue, nextStructure, hnextStructure,
    nextValue, hnextValue, coordinateCount, hcoordinateCount, coordinateBytes, hcoordinateBytes,
    valueBytes, hvalueBytes, coordinateSize, hcoordinateSize, valueSize, hvalueSize, hresult⟩
  rw [Result.failIf_eq_ok_iff] at hcount
  rcases checkedCast_ok_eq hlogical with ⟨rfl, -⟩
  rcases checkedCast_ok_eq hselected with ⟨rfl, -⟩
  rcases checkedCast_ok_eq hcoordinateSize with ⟨rfl, -⟩
  rcases checkedCast_ok_eq hvalueSize with ⟨rfl, -⟩
  obtain ⟨count, rfl⟩ : ∃ count : Nat, selectedCount = count :=
    ⟨selectedCount.toNat, by omega⟩
  have hcoordinateCount := checkedMultiply_ok_eq hcoordinateCount
  have hcoordinateBytes := checkedMultiply_ok_eq hcoordinateBytes
  have hvalueBytes := checkedMultiply_ok_eq hvalueBytes
  rw [structureWords_ok hstructure] at hnextStructure
  cases hresult
  have hle : count ≤ extents.logicalSize.toNat := by omega
  refine ⟨rfl, hle, ?_, ?_, hnextStructure, ?_⟩
  · simp only [hcoordinateBytes, hcoordinateCount, Int.toNat_natCast]
    exact_mod_cast Int.toNat_natCast _
  · simp only [hvalueBytes, Int.toNat_natCast]
    exact_mod_cast Int.toNat_natCast _
  · have hmaximum : sizeType.maximum = 18446744073709551615 := by decide
    rw [checkedMultiply_of_nonneg (Int.natCast_nonneg _) (Int.natCast_nonneg _),
      ← Nat.cast_mul] at hvalue
    split at hvalue
    · rename_i hfits
      cases hvalue
      rw [toNat_advanceRandomOffset hnextValue, BitVec.ofInt_natCast, BitVec.toNat_ofNat,
        Nat.mod_eq_of_lt (by omega)]
      rfl
    · cases hvalue

end Checks

/-! ## The result -/

section Result

variable {index : LocalRepresentation Cell Int} {type : LocalRepresentation Cell V}
  {real : RandomReal} {scaled : Nat → Nat → V} {extents : Extents rank} {exactCount : Int}
  {resource : MemoryResource} {live : List Block} {structureStream valueStream : RandomStream}
  {structureSubsequence valueSubsequence : RandomSubsequence}
  {structureOffset valueOffset : RandomOffset} {execution : ExecutionState}
  {api : Api (Nat → Cell)}

theorem validateSparseContext_ofState (execution : ExecutionState) :
    validateSparseContext (.ofState execution) = .ok execution := rfl

theorem yields_validateAllocation (api : Api (Nat → Cell)) (buffer : Buffer) (device : Int)
    (alignment : Nat) :
    Yields (validateAllocation buffer device alignment) api
      (fun _ api' => Quiet api api') (fun _ api' => Quiet api api') := by
  unfold validateAllocation
  by_cases hempty : buffer.size = 0
  · rw [if_pos hempty]
    exact Yields.pure (.refl api)
  · rw [if_neg hempty]
    exact Yields.failIf (fun _ => .refl api) fun _ => yields_validateDeviceStorage api _ _ _ _

/-- What a generation returns: the storage it has allocated, and the event behind its kernels. -/
structure GeneratesSparse (index : LocalRepresentation Cell Int) (type : LocalRepresentation Cell V)
    (real : RandomReal) (scaled : Nat → Nat → V) (extents : Extents rank) (exactCount : Int)
    (resource : MemoryResource) (live : List Block) (structureStream : RandomStream)
    (structureSubsequence : RandomSubsequence) (structureOffset : RandomOffset)
    (valueStream : RandomStream) (valueSubsequence : RandomSubsequence)
    (valueOffset : RandomOffset) (execution : ExecutionState) (api : Api (Nat → Cell))
    (generation : GenerationBuffers) (count : Nat) (api' : Api (Nat → Cell)) : Prop where
  count_eq : exactCount = count
  count_le : count ≤ extents.logicalSize.toNat
  coordinates : Buffer.Allocated resource live (count * rank * 8) generation.coordinates
  values : Buffer.Allocated resource (live ++ [generation.coordinates.block])
    (count * elementBytes real) generation.values
  nextStructure :
    NextStructureOffset extents exactCount structureOffset generation.nextStructureOffset
  nextValue : generation.nextValueOffset.toNat = valueOffset.toNat + real.wordCount count
  launches : LaunchesUnless execution (exactCount = 0) (sparseLaunches index type real scaled
    (sparseDescriptor extents count generation.coordinates generation.values)
    (unsignedExtents extents) structureStream structureSubsequence structureOffset valueStream
    valueSubsequence valueOffset) generation.completion api api'
  restored : Restored api api'

theorem yields_generateSparse (hserves : Serves execution api) :
    Yields (cudaGenerateSparseUniform01 index type real scaled extents exactCount resource live
        structureStream structureSubsequence structureOffset valueStream valueSubsequence
        valueOffset (.ofState execution)) api
      (fun generation api' => ∃ count, GeneratesSparse index type real scaled extents exactCount
        resource live structureStream structureSubsequence structureOffset valueStream
        valueSubsequence valueOffset execution api generation count api')
      (Fails execution api) := by
  have hfails := fails_refl execution api
  unfold cudaGenerateSparseUniform01
  refine Yields.ofResult_ok (validateSparseContext_ofState execution) ?_
  refine yields_ofResult_bind (fun status _ => hfails status) fun sizes hsizes => ?_
  refine yields_ofResult_bind (fun status _ => hfails status) fun coordinates hcoordinates => ?_
  refine yields_ofResult_bind (fun status _ => hfails status) fun values hvalues => ?_
  have hchecked := sparseSizes_ok hsizes
  have hprepare : ∀ api : Api (Nat → Cell), Yields (do
      validateAllocation coordinates execution.device 8
      validateAllocation values execution.device (elementBytes real)) api
        (fun _ api' => Quiet api api') (fun _ api' => Quiet api api') := by
    intro api
    refine (yields_validateAllocation api coordinates _ 8).bind fun _ middle hmiddle => ?_
    exact (yields_validateAllocation middle values _ _).mono (fun _ _ h => hmiddle.trans h)
      fun _ _ h => hmiddle.trans h
  have hrun := yields_launchUnless hserves hprepare (exactCount = 0) (sparseLaunches index type real
    scaled (sparseDescriptor extents sizes.count coordinates values) (unsignedExtents extents)
    structureStream structureSubsequence structureOffset valueStream valueSubsequence valueOffset)
  simp only [bind_assoc] at hrun
  refine Yields.bind hrun fun completion last hlast => Yields.pure ⟨sizes.count, ?_⟩
  have hfirst := Buffer.allocate_spec hcoordinates
  have hsecond := Buffer.allocate_spec hvalues
  rw [hchecked.coordinateBytes_eq] at hfirst
  rw [hchecked.valueBytes_eq] at hsecond
  exact
    { count_eq := hchecked.count_eq
      count_le := hchecked.count_le
      coordinates := hfirst
      values := hsecond
      nextStructure := hchecked.nextStructure
      nextValue := hchecked.nextValue
      launches := hlast.1
      restored := hlast.2 }

/-- The two blocks come from one resource, which grants no block twice. -/
theorem GeneratesSparse.storageApart {generation : GenerationBuffers} {count : Nat}
    {api' : Api (Nat → Cell)}
    (h : GeneratesSparse index type real scaled extents exactCount resource live structureStream
      structureSubsequence structureOffset valueStream valueSubsequence valueOffset execution api
      generation count api') (hindex : index.size = 8) (htype : type.size = elementBytes real)
    (hpos : 0 < count) :
    StorageApart index type
      (sparseDescriptor extents count generation.coordinates generation.values) := by
  have hdisjoint := h.values.disjoint generation.coordinates.block
    (List.mem_append_right _ (List.mem_singleton_self _))
  unfold Block.Disjoint at hdisjoint
  simp only [Buffer.block, h.coordinates.size_eq, h.values.size_eq] at hdisjoint
  have hnull := h.coordinates.null_iff
  have hbytes : 0 < count * elementBytes real := by
    rw [← htype]
    exact Nat.mul_pos hpos type.size_pos
  unfold StorageApart sparseDescriptor
  simp only [hindex, htype]
  omega

end Result

/-- A generation on the device allocates the storage, launches its kernels and hands out one event
behind them, or it fails as a submission does.  However the threads interleave, the kernels leave
sorted entries in the storage, which are those that a generation of the host stores for the same
arguments, and change nothing else. -/
theorem device_sparse_correct {V : Type} [SparseElement V] {rank : Nat}
    (index : LocalRepresentation Cell Int) (hindex : index.size = 8)
    (type : LocalRepresentation Cell V) (real : RandomReal) (htype : type.size = elementBytes real)
    (scaled : Nat → Nat → V) (execution : ExecutionState) (api : Api (Nat → Cell))
    (hserves : Serves execution api) (extents : Extents rank) (exactCount : Int)
    (resource : MemoryResource) (live : List Block) (structureStream : RandomStream)
    (structureSubsequence : RandomSubsequence) (structureOffset : RandomOffset)
    (valueStream : RandomStream) (valueSubsequence : RandomSubsequence)
    (valueOffset : RandomOffset) :
    Yields (cudaGenerateSparseUniform01 index type real scaled extents exactCount resource live
        structureStream structureSubsequence structureOffset valueStream valueSubsequence
        valueOffset (.ofState execution)) api
      (fun generation api' => ∃ count,
        GeneratesSparse index type real scaled extents exactCount resource live structureStream
            structureSubsequence structureOffset valueStream valueSubsequence valueOffset execution
            api generation count api' ∧
          (0 < count → ∀ memory, ∃ last entries,
            StreamEndsIn ((sparseLaunches index type real scaled
              (sparseDescriptor extents count generation.coordinates generation.values)
              (unsignedExtents extents) structureStream structureSubsequence structureOffset
              valueStream valueSubsequence valueOffset).map Prod.fst) memory last ∧
            deviceEntries index type
              (sparseDescriptor extents count generation.coordinates generation.values) rank last =
                entries ∧
            entries.length = count ∧ StrictlyKeySorted entries ∧
            (∀ cell, (cell < generation.coordinates.data ∨
                generation.coordinates.data + generation.coordinates.size ≤ cell) →
              (cell < generation.values.data ∨
                generation.values.data + generation.values.size ≤ cell) →
              last cell = memory cell) ∧
            ∀ (context : ExecutionContext) (resource' : MemoryResource)
              (hostGeneration : SparseUniform01Generation V rank),
              generateSparseUniform01 real scaled context extents exactCount resource'
                  structureStream structureSubsequence structureOffset valueStream
                  valueSubsequence valueOffset = .ok hostGeneration →
                hostGeneration.nextStructureOffset = generation.nextStructureOffset ∧
                  hostGeneration.array.Stores extents.values entries))
      (Fails execution api) := by
  refine (yields_generateSparse hserves).mono (fun generation api' h => ?_) fun _ _ h => h
  rcases h with ⟨count, h⟩
  refine ⟨count, h, fun hpos memory => ?_⟩
  rcases @sparseLaunches_end _ _ index type
    (sparseDescriptor extents count generation.coordinates generation.values) rank extents real
    scaled structureStream valueStream structureSubsequence valueSubsequence structureOffset
    valueOffset rfl rfl hpos h.count_le (h.storageApart hindex htype hpos) memory with
    ⟨last, output, hends, hselects, hentries, houtside⟩
  have hlast : ∀ ordinal ∈ output, ordinal < extents.logicalSize.toNat := fun ordinal hmem =>
    Finset.mem_range.1 (hselects.smallest.subset (List.mem_toFinset.2 hmem))
  have hlength : output.length = count := by
    rw [← List.toFinset_card_of_nodup (hselects.increasing.imp ne_of_lt)]
    exact hselects.smallest.card_eq
  refine ⟨last, _, hends, hentries, (drawnEntries_length output).trans hlength,
    strictlyKeySorted_of_ordinals hselects.increasing hlast (drawnEntries_keys output),
    fun cell hcell hcell' => ?_, fun context resource' hostGeneration hgeneration => ?_⟩
  · rw [h.coordinates.size_eq] at hcell
    rw [h.values.size_eq] at hcell'
    apply houtside
    · unfold OutsideCoordinates sparseDescriptor
      rwa [hindex]
    · unfold OutsideValues sparseDescriptor
      rwa [htype]
  · have hcount : exactCount.toNat = count := by rw [h.count_eq, Int.toNat_natCast]
    rcases generateSparseUniform01_stores (hcount.symm ▸ hselects) hgeneration with
      ⟨hnext, hstores⟩
    exact ⟨Except.ok.inj (hnext.symm.trans h.nextStructure), hstores⟩

/-! Two of the four entries of a vector, on a device that grants everything. -/

def sampleIndex : LocalRepresentation (Int × int8.Value) Int :=
  .component Prod.fst (fun cell value => (value, cell.2)) (fun _ _ => rfl) 8 8
    Representation.eight_pos

def sampleFloat : LocalRepresentation (Int × int8.Value) int8.Value :=
  .component Prod.snd (fun cell value => (cell.1, value)) (fun _ _ => rfl) 4 4
    Representation.four_pos

def deviceResource : MemoryResource :=
  { bumpResource with space := .device }

def deviceMemory (_ : Nat) : Int × int8.Value :=
  (0, staticCast int8 0)

theorem device_sparse_sample :
    ∃ generation last memory entries,
      exec (cudaGenerateSparseUniform01 sampleIndex sampleFloat .float sampleScaled sampleExtents 2
        deviceResource [] 1 0 0 2 0 0 (.ofState sampleExecution)) (sampleApi (Nat → Int × int8.Value)) =
          some (.ok generation, last) ∧
        generation.completion = some 1 ∧ generation.nextStructureOffset = 8 ∧
        Restored (sampleApi _) last ∧
        StreamEndsIn ((sparseLaunches sampleIndex sampleFloat .float sampleScaled
          (sparseDescriptor sampleExtents 2 generation.coordinates generation.values)
          (unsignedExtents sampleExtents) 1 0 0 2 0 0).map Prod.fst) deviceMemory memory ∧
        deviceEntries sampleIndex sampleFloat
          (sparseDescriptor sampleExtents 2 generation.coordinates generation.values) 1 memory =
            entries ∧
        entries.length = 2 ∧ StrictlyKeySorted entries := by
  rcases device_sparse_correct sampleIndex rfl sampleFloat .float rfl sampleScaled sampleExecution
    (sampleApi _) (sample_serves _) sampleExtents 2 deviceResource [] 1 0 0 2 0 0 with
    ⟨result, last, hrun, hresult⟩
  have hvalue : (exec (cudaGenerateSparseUniform01 sampleIndex sampleFloat .float sampleScaled
      sampleExtents 2 deviceResource [] 1 0 0 2 0 0 (.ofState sampleExecution))
        (sampleApi (Nat → Int × int8.Value))).map (fun outcome => outcome.1.toOption.map
          fun generation => (generation.completion, generation.nextStructureOffset)) =
            some (some (some 1, 8)) := rfl
  rw [hrun] at hvalue
  cases result with
  | error status => cases hvalue
  | ok generation =>
    rcases hresult with ⟨count, hgenerates, hkernels⟩
    have hparts := Prod.mk.inj (Option.some.inj (Option.some.inj hvalue))
    have hcount : count = 2 := by exact_mod_cast hgenerates.count_eq.symm
    subst hcount
    rcases hkernels (by decide) deviceMemory with
      ⟨memory, entries, hends, hentries, hlength, hsorted, -, -⟩
    exact ⟨generation, last, memory, entries, hrun, hparts.1, hparts.2, hgenerates.restored, hends,
      hentries, hlength, hsorted⟩

end Cuda
end Random
end AscCpp
