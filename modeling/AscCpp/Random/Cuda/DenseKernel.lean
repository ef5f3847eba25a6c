import AscCpp.Dense.Cuda.Descriptor
import AscCpp.Random.Cuda.Words
import AscCpp.Random.DenseFill

/-!
# DenseKernel — filling a dense view on a CUDA device

- `denseUniformKernel_ends`: every interleaving of the threads leaves what the loop of the host leaves.
- `validateDescriptor_ok_iff`: the views that the provider accepts.
- `device_fill_correct`: a fill of the device and a fill of the host.
-/

namespace AscCpp
namespace Random
namespace Cuda

open AscCpp.Core AscCpp.Core.Cuda Library Effect AscCpp.Dense AscCpp.Dense.Cuda

variable {Cell V : Type} {rank : Nat}

/-! ## The kernel -/

/-- What one thread computes for an element. -/
def deviceUniform01 (real : RandomReal) (scaled : Nat → Nat → V) (stream : RandomStream)
    (subsequence : RandomSubsequence) (wordOffset : RandomOffset) : V :=
  match real with
  | .float => scaled (generateWord stream subsequence wordOffset >>> 8).toNat 24
  | .double =>
    let bits : BitVec 64 := (generateWord stream subsequence wordOffset).setWidth 64 <<< 32 |||
      (generateWord stream subsequence (wordOffset + 1)).setWidth 64
    scaled (bits >>> 11).toNat 53

theorem deviceUniform01_eq (real : RandomReal) (scaled : Nat → Nat → V) (stream : RandomStream)
    (subsequence : RandomSubsequence) (wordOffset : RandomOffset) :
    deviceUniform01 real scaled stream subsequence wordOffset =
      generateUniform01 real scaled stream subsequence wordOffset := by
  cases real with
  | float => simp only [deviceUniform01, generateUniform01, uniform01Float, generateWord_eq]
  | double => simp only [deviceUniform01, generateUniform01, uniform01Double, generateWord_eq]

variable {type : LocalRepresentation Cell V} {view : DenseView type.toRepresentation rank}
  {real : RandomReal} {scaled : Nat → Nat → V} {stream : RandomStream}
  {subsequence : RandomSubsequence} {offset : RandomOffset}

/-- `DenseUniformKernel`, as `LaunchDenseUniform01` launches it. -/
def denseUniformKernel (real : RandomReal) (scaled : Nat → Nat → V)
    (view : DenseView type.toRepresentation rank) (stream : RandomStream)
    (subsequence : RandomSubsequence) (offset : RandomOffset) : Launch (Nat → Cell) :=
  .loop (describe view).logicalSize.toNat fun position =>
    Program.store type.toRepresentation (kernelAddress view position)
      (deviceUniform01 real scaled stream subsequence
        (offset + BitVec.ofNat 64 position * real.wordsPerElement))

theorem denseUniformKernel_ends (hpos : 0 < boxSize view.mapping.extents) (memory : Nat → Cell) :
    (denseUniformKernel real scaled view stream subsequence offset).EndsIn memory
      (filled real scaled view stream subsequence offset 0 (boxSize view.mapping.extents) memory) := by
  have hends := Launch.values_ends hpos (boxSize_le view.mapping) (apart_kernelAddress view)
    (fun position => generateUniform01 real scaled stream subsequence
      (offset + BitVec.ofNat 64 position * real.wordsPerElement)) memory
  have hsize : (describe view).logicalSize.toNat = boxSize view.mapping.extents :=
    logicalSize_toNat view.mapping
  unfold denseUniformKernel filled
  simp only [hsize, deviceUniform01_eq, Nat.zero_add]
  exact hends

/-! ## The submission -/

/-- `ElementBytes`. -/
def elementBytes : RandomReal → Nat
  | .float => 4
  | .double => 8

/-- `ValidateContext`; the stream of a state is never null. -/
def validateDenseContext (context : ProviderContext) : Result ExecutionState := do
  failIf (context.backend ≠ .cuda)
    { code := .invalidArgument, message := "CUDA Dense random fill requires a CUDA context" }
  match context.state with
  | none =>
    .error
      { code := .invalidState
        message := "The CUDA Dense random context has no provider state" }
  | some execution => .ok execution

def validateDescriptor (real : RandomReal) (descriptor : ViewDescriptor rank) : Result Unit := do
  failIf (rank > 8)
    { code := .unsupported, message := "CUDA Dense random fill supports ranks through eight" }
  failIf (descriptor.memorySpace ≠ .device)
    { code := .memoryAccess, message := "CUDA Dense random fill requires device storage" }
  validateSizes
    { code := .invalidArgument
      message := "CUDA Dense random extents and strides cannot be negative" }
    { code := .shape, message := "CUDA Dense random logical size is inconsistent" }
    { code := .shape, message := "CUDA Dense random storage span is inconsistent" } descriptor
  let bytes ← checkedMultiply sizeType descriptor.requiredSpanSize (elementBytes real)
  failIf (bytes ≠ 0 ∧ descriptor.data = 0)
    { code := .invalidArgument
      message := "A nonempty CUDA Dense random destination cannot be null" }
  failIf (bytes ≠ 0 ∧ descriptor.data % elementBytes real ≠ 0)
    { code := .memoryAccess, message := "The CUDA Dense random destination is misaligned" }
  failIf (bytes ≠ 0 ∧ bytes > (uintptrMax - descriptor.data : Nat))
    { code := .overflow
      message := "The CUDA Dense random destination address span overflows" }

/-- `FillDenseUniform01Erased`, behind `CudaFillDenseUniform01`. -/
def cudaFillDenseUniform01 (real : RandomReal) (scaled : Nat → Nat → V) (context : ProviderContext)
    (destination : DenseView type.toRepresentation rank) (stream : RandomStream)
    (subsequence : RandomSubsequence) (offset : RandomOffset) : Call (Nat → Cell) Generation := do
  Effect.ofResult (failIf (rank > 8)
    { code := .unsupported
      message := "CUDA Dense random fill supports ranks zero through eight" })
  let execution ← Effect.ofResult (validateDenseContext context)
  Effect.ofResult (validateDescriptor real (describe destination))
  let sizes ← Effect.ofResult (nextOffset real destination offset)
  if (describe destination).logicalSize = 0 then
    pure { completion := none, nextOffset := sizes.2 }
  else
    let event ← withDevice context.ordinal do
      validateDeviceStorage destination.data context.ordinal
        "CUDA could not inspect the Dense random destination"
        "The Dense random destination is not on the context device"
      launchAll execution.stream false
        [(denseUniformKernel real scaled destination stream subsequence offset,
          "CUDA could not launch the Dense Uniform01 kernel")]
      recordOrDrain context execution
    pure { completion := some event, nextOffset := sizes.2 }

/-! ## The views that are accepted -/

/-- The bytes of the storage of a view. -/
def spanBytes (view : DenseView type.toRepresentation rank) : Nat :=
  view.mapping.requiredSpanSize.toNat * type.size

theorem requiredSpanSize_nonneg (layout : DenseLayout rank) : 0 ≤ layout.requiredSpanSize := by
  by_cases hempty : layout.logicalSize = 0
  · rw [layout.requiredSpanSize_of_empty hempty]
  · have hnonneg : 0 ≤ reach layout :=
      strideSum_nonneg (fun other _ => layout.strides_nonneg other) fun other _ => le_max_right _ _
    rw [(layout.requiredSpanSize_eq hempty).1, ← reach_eq hempty]
    omega

/-- The storage of the view is on a device, aligned and below the end of the address space, and the
offsets of an empty view do not overflow. -/
structure Fillable (view : DenseView type.toRepresentation rank) : Prop where
  rank_le : rank ≤ 8
  onDevice : view.memorySpace = .device
  reach_le : view.mapping.logicalSize = 0 → reach view.mapping ≤ int64.maximum
  storage : spanBytes view ≠ 0 → view.data % type.size = 0 ∧
    spanBytes view ≤ uintptrMax - view.data

/-- The views that the provider accepts. -/
theorem validateDescriptor_ok_iff (hsize : type.size = elementBytes real) :
    validateDescriptor real (describe view) = .ok () ↔ Fillable view := by
  have hspan := requiredSpanSize_nonneg view.mapping
  have hbytes : checkedMultiply sizeType (describe view).requiredSpanSize (elementBytes real) =
      .ok (spanBytes view : Int) := by
    rcases view.bytes with ⟨byteSpan, hproduct⟩
    rw [← hsize, spanBytes, Nat.cast_mul, Int.toNat_of_nonneg hspan]
    exact hproduct.trans (congrArg _ (checkedMultiply_ok_eq hproduct))
  have hdata : spanBytes view ≠ 0 → view.data ≠ 0 := by
    intro hne
    apply view.data_ne
    intro hzero
    apply hne
    rw [spanBytes, hzero, Int.toNat_zero, Nat.zero_mul]
  rw [validateDescriptor, Result.failIf_bind_eq_ok_iff, Result.failIf_bind_eq_ok_iff,
    Result.unit_bind_eq_ok_iff, validateSizes_ok_iff, hbytes, Result.ok_bind,
    Result.failIf_bind_eq_ok_iff, Result.failIf_bind_eq_ok_iff, Result.failIf_eq_ok_iff, ← hsize]
  simp only [describe, ne_eq, Int.natCast_eq_zero, gt_iff_lt]
  constructor
  · rintro ⟨hrank, hspace, hreach, -, haligned, hfits⟩
    refine ⟨by omega, not_not.1 hspace, hreach, fun hne => ⟨?_, ?_⟩⟩
    · exact not_not.1 fun hmisaligned => haligned ⟨hne, hmisaligned⟩
    · exact not_lt.1 fun hover => hfits ⟨hne, by exact_mod_cast hover⟩
  · rintro ⟨hrank, hspace, hreach, hstorage⟩
    refine ⟨by omega, not_not.2 hspace, hreach, fun h => hdata h.1 h.2, fun h => h.2 (hstorage h.1).1,
      fun h => ?_⟩
    have hle := (hstorage h.1).2
    have hlt : uintptrMax - view.data < spanBytes view := by exact_mod_cast h.2
    omega

/-! ## The result -/

/-- The view, as the host would see its storage. -/
def onHost (view : DenseView type.toRepresentation rank) : DenseView type.toRepresentation rank :=
  { view with memorySpace := .host }

theorem validateDenseContext_ofState (execution : ExecutionState) :
    validateDenseContext (.ofState execution) = .ok execution := rfl

theorem yields_cudaFillDenseUniform01 {execution : ExecutionState} {api : Api (Nat → Cell)}
    (hserves : Serves execution api) :
    Yields (cudaFillDenseUniform01 real scaled (.ofState execution) view stream subsequence offset)
      api
      (fun generation api' => validateDescriptor real (describe view) = .ok () ∧
        offset.toNat + real.wordCount (boxSize view.mapping.extents) < 2 ^ 64 ∧
        Generates execution (real.wordCount (boxSize view.mapping.extents)) offset
          (denseUniformKernel real scaled view stream subsequence offset) api generation api')
      (Fails execution api) := by
  have hfails := fails_refl execution api
  have hwords : 1 ≤ real.wordsPerElement.toNat := by cases real <;> decide
  refine Yields.failIf (fun _ => hfails _) fun _ => ?_
  refine Yields.ofResult_ok (validateDenseContext_ofState execution) ?_
  refine yields_ofResult_bind (fun status _ => hfails status) fun _ hvalid => ?_
  refine yields_ofResult_bind (fun status _ => hfails status) fun sizes hsizes => ?_
  rw [nextOffset_eq] at hsizes
  split at hsizes
  · rename_i hfits
    cases hsizes
    have hnext : (offset + BitVec.ofNat 64 (real.wordCount (boxSize view.mapping.extents))).toNat =
        offset.toNat + real.wordCount (boxSize view.mapping.extents) := by
      rw [BitVec.toNat_add, BitVec.toNat_ofNat, Nat.add_mod_mod, Nat.mod_eq_of_lt hfits]
    have hsize := logicalSize_toNat view.mapping
    by_cases hempty : (describe view).logicalSize = 0
    · rw [if_pos hempty]
      have hnone : boxSize view.mapping.extents = 0 := by
        rw [← hsize]
        exact congrArg Int.toNat hempty
      exact Yields.pure ⟨hvalid, hfits, hnext, by rw [hnone, RandomReal.wordCount, Nat.zero_mul],
        rfl⟩
    · rw [if_neg hempty]
      have hnonneg : 0 ≤ view.mapping.logicalSize := by
        rw [view.mapping.logicalSize_eq]
        exact prod_nonneg (validateExtents_nonneg view.mapping.logical)
      have hpos : 0 < real.wordCount (boxSize view.mapping.extents) := by
        rw [← hsize]
        refine Nat.mul_pos ?_ hwords
        have hne : view.mapping.logicalSize ≠ 0 := hempty
        omega
      refine (yields_launchOne hserves (fun api => yields_validateDeviceStorage api _ _ _ _) _ _).bind
        fun event last hlast => Yields.pure ⟨hvalid, hfits, hnext, hpos, hlast⟩
  · cases hsizes

/-- A runtime that grants its calls lets a fill of an accepted view succeed. -/
theorem succeeds_cudaFillDenseUniform01 {execution : ExecutionState}
    {runtime : Runtime (Nat → Cell)} (hgrants : Grants execution.device runtime)
    (hvalid : validateDescriptor real (describe view) = .ok ()) (hrank : rank ≤ 8)
    (hfits : offset.toNat + real.wordCount (boxSize view.mapping.extents) < 2 ^ 64) :
    Succeeds runtime (cudaFillDenseUniform01 real scaled (.ofState execution) view stream subsequence
      offset) fun _ => True := by
  intro api hruntime
  refine Yields.failIf (fun hover => absurd hover (by omega)) fun _ => ?_
  refine Yields.ofResult_ok (validateDenseContext_ofState execution) ?_
  refine Yields.ofResult_ok hvalid ?_
  refine Yields.ofResult_ok ((nextOffset_eq _ _ _).trans (if_pos hfits)) ?_
  split
  · exact Yields.pure ⟨hruntime, trivial⟩
  · refine (@Grants.withDevice _ _ _ _ (fun _ => True) hgrants _ _ ?_ api hruntime).bind
      fun event last hlast => Yields.pure hlast
    exact (hgrants.validateDeviceStorage _ _ _).bind fun _ _ =>
      (hgrants.launchAll _ _ _).bind fun _ _ => hgrants.recordOrDrain execution

/-- A fill of a view on the device hands out one event behind its kernel, or it fails as a submission
does.  However the threads of the kernel interleave, they leave what the fill of the host leaves, and
both return the same offset.  When the runtime grants its calls, the fill succeeds exactly when the
view is accepted and the offset does not overflow. -/
theorem device_fill_correct (type : LocalRepresentation Cell V) (real : RandomReal)
    (hsize : type.size = elementBytes real) (scaled : Nat → Nat → V) (execution : ExecutionState)
    (api : Api (Nat → Cell)) (hserves : Serves execution api) {rank : Nat}
    (view : DenseView type.toRepresentation rank) (stream : RandomStream)
    (subsequence : RandomSubsequence) (offset : RandomOffset) :
    Yields (cudaFillDenseUniform01 real scaled (.ofState execution) view stream subsequence offset)
      api
      (fun generation api' => Fillable view ∧
        Generates execution (real.wordCount (boxSize view.mapping.extents)) offset
          (denseUniformKernel real scaled view stream subsequence offset) api generation api' ∧
        (0 < boxSize view.mapping.extents → ∀ memory, ∃ last,
          (denseUniformKernel real scaled view stream subsequence offset).EndsIn memory last ∧
            exec (fillDenseUniform01 real scaled .serial (onHost view) stream subsequence offset)
              memory = some (.ok generation.nextOffset, last)))
      (Fails execution api) ∧
    (Grants execution.device api.runtime →
      ((∃ generation last, exec (cudaFillDenseUniform01 real scaled (.ofState execution) view stream
          subsequence offset) api = some (.ok generation, last)) ↔
        Fillable view ∧
          offset.toNat + real.wordCount (boxSize view.mapping.extents) < 2 ^ 64)) := by
  have hfills := @yields_cudaFillDenseUniform01 _ _ _ _ view real scaled stream subsequence offset
    execution api hserves
  refine ⟨hfills.mono (fun generation api' h => ?_) fun _ _ h => h, fun hgrants => ⟨?_, ?_⟩⟩
  · rcases h with ⟨hvalid, hfits, hgenerates⟩
    refine ⟨(validateDescriptor_ok_iff hsize).1 hvalid, hgenerates, fun hpos memory => ?_⟩
    refine ⟨_, denseUniformKernel_ends hpos memory, ?_⟩
    have hnext : generation.nextOffset =
        offset + BitVec.ofNat 64 (real.wordCount (boxSize view.mapping.extents)) := by
      apply BitVec.eq_of_toNat_eq
      rw [hgenerates.1, BitVec.toNat_add, BitVec.toNat_ofNat, Nat.add_mod_mod, Nat.mod_eq_of_lt hfits]
    rw [hnext]
    exact (exec_fillDenseUniform01 rfl rfl).trans (if_pos hfits)
  · rintro ⟨generation, last, hrun⟩
    rcases hfills with ⟨result, last', hrun', hresult⟩
    rw [hrun] at hrun'
    cases hrun'
    exact ⟨(validateDescriptor_ok_iff hsize).1 hresult.1, hresult.2.1⟩
  · rintro ⟨hfillable, hfits⟩
    rcases succeeds_cudaFillDenseUniform01 hgrants ((validateDescriptor_ok_iff hsize).2 hfillable)
      hfillable.rank_le hfits api rfl with ⟨result, last, hrun, hresult⟩
    cases result with
    | error status => exact hresult.elim
    | ok generation => exact ⟨generation, last, hrun⟩

/-- A vector of two numbers on the device. -/
def deviceSample : DenseView (LocalRepresentation.uniform Nat 8 8
    Representation.eight_pos).toRepresentation 1 :=
  { sampleView with memorySpace := .device }

theorem device_fill_sample :
    ∃ last memory, exec (cudaFillDenseUniform01 .double (fun bits _ => bits)
        (.ofState sampleExecution) deviceSample 7 3 5) (sampleApi (Nat → Nat)) =
          some (.ok ⟨some 1, 9⟩, last) ∧
      LaunchesOne sampleExecution
        (denseUniformKernel .double (fun bits _ => bits) deviceSample 7 3 5)
        (sampleApi (Nat → Nat)) 1 last ∧
      (denseUniformKernel .double (fun bits _ => bits) deviceSample 7 3 5).EndsIn
        (fun _ => 0) memory ∧
      exec (fillDenseUniform01 .double (fun bits _ => bits) .serial (onHost deviceSample) 7 3 5)
        (fun _ => 0) = some (.ok 9, memory) ∧
      Fillable deviceSample := by
  have hcorrect := device_fill_correct (.uniform Nat 8 8 Representation.eight_pos) .double rfl
    (fun bits _ => bits) sampleExecution (sampleApi _) (sample_serves _) deviceSample 7 3 5
  rcases hcorrect.1 with ⟨result, last, hrun, hresult⟩
  have hvalue : (exec (cudaFillDenseUniform01 .double (fun bits _ => bits)
      (.ofState sampleExecution) deviceSample 7 3 5) (sampleApi (Nat → Nat))).map Prod.fst =
        some (.ok ⟨some 1, 9⟩) := rfl
  rw [hrun] at hvalue
  cases hvalue
  rcases hresult with ⟨-, ⟨-, -, hlaunches⟩, hkernel⟩
  rcases hkernel (by decide) fun _ => 0 with ⟨memory, hends, hhost⟩
  have haccepts := (hcorrect.2 (grantingRuntime_grants _)).1 ⟨_, _, hrun⟩
  exact ⟨last, memory, hrun, hlaunches, hends, hhost, haccepts.1⟩

end Cuda
end Random
end AscCpp
