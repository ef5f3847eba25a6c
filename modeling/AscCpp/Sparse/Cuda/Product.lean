import AscCpp.Sparse.Cuda.ProductKernels

/-!
# Product — `CudaSpmv` and `CudaSpmm`

- `inspects_inspectSpmv`, `inspects_inspectSpmm`: what the checks establish.
- `device_products_correct`: the products of the device are those of the host.
-/

namespace AscCpp
namespace Sparse
namespace Cuda

open AscCpp.Core AscCpp.Core.Cuda Library Effect Blas

variable {Cell V : Type} {type : LocalRepresentation Cell V}

/-! ## Operations -/

section Operations

variable [DeviceArithmetic V] (context : SparseCudaContext) (device : Int)
  (transposition : SparseBlasTranspose) (alpha : V)
  (matrix : CompressedSparseView (Stored type.toRepresentation) .csr)

/-- The checks of `StandardSpmvErased`; the matrix of `CudaSpmv` is stored in rows by its type. -/
def inspectSpmv (input output : SparseBlasVectorView type.toRepresentation) :
    Call (Nat → Cell) Unit := do
  validateSparseDevice matrix device
  validateVector type.toRepresentation (describeVector input) device
  validateVector type.toRepresentation (describeVector output) device
  Effect.ofResult (failIf
    (input.size ≠ inputExtent matrix transposition ∨ output.size ≠ outputExtent matrix transposition)
    { code := .shape, message := "CUDA standardized SpMV vector extents do not match" })
  let matrixBytes ← Effect.ofResult (validateSparseMetadata matrix)
  let inputBytes ← Effect.ofResult (vectorBytes type.toRepresentation (describeVector input))
  let outputBytes ← Effect.ofResult (vectorBytes type.toRepresentation (describeVector output))
  let outputStorage := (describeVector output).reachable outputBytes
  Effect.ofResult (failIf
    ((overlap ((describeVector input).reachable inputBytes) outputStorage ||
      matrixMeets matrix matrixBytes outputStorage) = true)
    { code := .invalidArgument, message := "CUDA standardized SpMV output overlaps an input" })

/-- `StandardSpmvKernel`. -/
def standardSpmvKernel (input output : SparseBlasVectorView type.toRepresentation) :
    Launch (Nat → Cell) :=
  .loopUnless (DeviceArithmetic.isZero alpha = true) output.size.toNat fun row =>
    addRow matrix transposition alpha matrix.rows.toNat input.vectorAt (output.vectorAt row) row

/-- `LaunchStandardSpmv`. -/
def spmvLaunches (input output : SparseBlasVectorView type.toRepresentation) :
    List (Launch (Nat → Cell) × String) :=
  if output.size = 0 then []
  else [(standardSpmvKernel transposition alpha matrix input output,
    "CUDA could not launch the Sparse BLAS SpMV kernel")]

def cudaSpmv (input output : SparseBlasVectorView type.toRepresentation) :
    Call (Nat → Cell) Nat := do
  let execution ← Effect.ofResult (validateContext context)
  withDevice context.executionContext.ordinal do
    inspectSpmv context.executionContext.ordinal transposition matrix input output
    launchAll execution.stream false (spmvLaunches transposition alpha matrix input output)
    recordOrDrain context.executionContext execution

/-- The checks of `StandardSpmmErased`. -/
def inspectSpmm (input output : SparseBlasMatrixView type.toRepresentation) :
    Call (Nat → Cell) Unit := do
  validateSparseDevice matrix device
  let inputSize ← validateMatrixDevice type.toRepresentation (describeMatrix input) device
  let outputSize ← validateMatrixDevice type.toRepresentation (describeMatrix output) device
  Effect.ofResult (failIf
    (input.rows ≠ inputExtent matrix transposition ∨
      output.rows ≠ outputExtent matrix transposition ∨ input.columns ≠ output.columns)
    { code := .shape, message := "CUDA standardized SpMM matrix extents do not match" })
  let matrixBytes ← Effect.ofResult (validateSparseMetadata matrix)
  let inputStorage : ConstMemoryView :=
    ⟨((describeMatrix input).reachable 0).data, inputSize, input.memorySpace⟩
  let outputStorage : ConstMemoryView :=
    ⟨((describeMatrix output).reachable 0).data, outputSize, output.memorySpace⟩
  Effect.ofResult (failIf
    ((overlap inputStorage outputStorage || matrixMeets matrix matrixBytes outputStorage) = true)
    { code := .invalidArgument, message := "CUDA standardized SpMM output overlaps an input" })

/-- `StandardSpmmKernel`. -/
def standardSpmmKernel (input output : MatrixDescriptor) : Launch (Nat → Cell) :=
  .loopUnless (DeviceArithmetic.isZero alpha = true) output.elementCount fun linear =>
    let row := linear / output.columns.toNat
    let rhs := linear % output.columns.toNat
    addRow matrix transposition alpha input.rows.toNat
      (fun inner => input.elementAt type.toRepresentation inner rhs)
      (output.elementAt type.toRepresentation row rhs) row

/-- `LaunchStandardSpmm`. -/
def spmmLaunches (input output : SparseBlasMatrixView type.toRepresentation) :
    List (Launch (Nat → Cell) × String) :=
  if (describeMatrix output).elementCount = 0 then []
  else [(standardSpmmKernel transposition alpha matrix (describeMatrix input) (describeMatrix output),
    "CUDA could not launch the Sparse BLAS SpMM kernel")]

def cudaSpmm (input output : SparseBlasMatrixView type.toRepresentation) :
    Call (Nat → Cell) Nat := do
  let execution ← Effect.ofResult (validateContext context)
  withDevice context.executionContext.ordinal do
    inspectSpmm context.executionContext.ordinal transposition matrix input output
    launchAll execution.stream false (spmmLaunches transposition alpha matrix input output)
    recordOrDrain context.executionContext execution

end Operations

/-! ## What the checks establish -/

variable {device : Int} {transposition : SparseBlasTranspose} {alpha : V}
  {matrix : CompressedSparseView (Stored type.toRepresentation) .csr}

/-- The operands of `CudaSpmv` fit and keep apart. -/
structure SpmvInspected (transposition : SparseBlasTranspose)
    (matrix : CompressedSparseView (Stored type.toRepresentation) .csr)
    (input output : SparseBlasVectorView type.toRepresentation) : Prop where
  extents : input.size = inputExtent matrix transposition ∧
    output.size = outputExtent matrix transposition
  size_le : output.size.toNat ≤ 2 ^ 63
  input_apart : 0 < input.size → 0 < output.size →
    input.reachableStorage.block.Disjoint output.reachableStorage.block
  matrix_apart : 0 < output.size → matrix.valueSpan.Disjoint output.reachableStorage.block

theorem inspects_inspectSpmv {input output : SparseBlasVectorView type.toRepresentation}
    (hinput : input.Checked) (houtput : output.Checked) :
    Inspects (inspectSpmv device transposition matrix input output)
      fun _ => SpmvInspected transposition matrix input output := by
  refine (inspects_validateSparseDevice matrix device).bind fun _ _ => ?_
  refine (inspects_validateVector _ _ device).bind fun _ _ => ?_
  refine (inspects_validateVector _ _ device).bind fun _ houtputVector => ?_
  refine (inspects_ofResult _).bind fun _ hextents => ?_
  refine (inspects_ofResult _).bind fun matrixBytes hmatrixBytes => ?_
  refine (inspects_ofResult _).bind fun inputBytes _ => ?_
  refine (inspects_ofResult _).bind fun outputBytes _ => ?_
  refine (inspects_ofResult _).mono fun _ hoverlap => ?_
  rw [Result.failIf_eq_ok_iff, Bool.not_eq_true, Bool.or_eq_false_iff] at hoverlap
  rw [Result.failIf_eq_ok_iff, not_or, not_not, not_not] at hextents
  exact
    { extents := hextents
      size_le := houtputVector.2
      input_apart := fun hinputSize houtputSize => by
        have hapart := hoverlap.1
        rw [reachable_describeVector hinput hinputSize,
          reachable_describeVector houtput houtputSize] at hapart
        exact overlap_eq_false hapart
      matrix_apart := fun houtputSize => by
        have hapart := hoverlap.2
        rw [reachable_describeVector houtput houtputSize] at hapart
        exact matrixMeets_eq_false hmatrixBytes hapart }

/-- The operands of `CudaSpmm` fit and keep apart. -/
structure SpmmInspected (transposition : SparseBlasTranspose)
    (matrix : CompressedSparseView (Stored type.toRepresentation) .csr)
    (input output : SparseBlasMatrixView type.toRepresentation) : Prop where
  extents : input.rows = inputExtent matrix transposition ∧
    output.rows = outputExtent matrix transposition ∧ input.columns = output.columns
  count_eq : (describeMatrix output).elementCount = output.rows.toNat * output.columns.toNat
  count_le : output.rows.toNat * output.columns.toNat ≤ 2 ^ 63
  input_apart : input.rows ≠ 0 ∧ input.columns ≠ 0 → output.rows ≠ 0 ∧ output.columns ≠ 0 →
    input.reachableStorage.block.Disjoint output.reachableStorage.block
  matrix_apart : output.rows ≠ 0 ∧ output.columns ≠ 0 →
    matrix.valueSpan.Disjoint output.reachableStorage.block

theorem inspects_inspectSpmm {input output : SparseBlasMatrixView type.toRepresentation}
    (hinput : input.Checked) (houtput : output.Checked) :
    Inspects (inspectSpmm device transposition matrix input output)
      fun _ => SpmmInspected transposition matrix input output := by
  refine (inspects_validateSparseDevice matrix device).bind fun _ _ => ?_
  refine (inspects_validateMatrixDevice _ _ device).bind fun inputSize hinputMatrix => ?_
  refine (inspects_validateMatrixDevice _ _ device).bind fun outputSize houtputMatrix => ?_
  refine (inspects_ofResult _).bind fun _ hextents => ?_
  refine (inspects_ofResult _).bind fun matrixBytes hmatrixBytes => ?_
  refine (inspects_ofResult _).mono fun _ hoverlap => ?_
  rcases hinputMatrix with ⟨-, -, inputBytes, rfl⟩
  rcases houtputMatrix with ⟨-, ⟨hcount, hle⟩, outputBytes, rfl⟩
  rw [Result.failIf_eq_ok_iff, Bool.not_eq_true, Bool.or_eq_false_iff] at hoverlap
  rw [Result.failIf_eq_ok_iff, not_or, not_or, not_not, not_not, not_not] at hextents
  -- The size that is calculated without bounds does not change the address.
  have hstorage : ∀ (view : SparseBlasMatrixView type.toRepresentation) (calculated : Nat),
      (⟨((describeMatrix view).reachable 0).data, ((describeMatrix view).reachable calculated).size,
        view.memorySpace⟩ : ConstMemoryView) = (describeMatrix view).reachable calculated :=
    fun _ _ => rfl
  rw [hstorage, hstorage] at hoverlap
  exact
    { extents := hextents
      count_eq := hcount
      count_le := hle
      input_apart := fun hinputSize houtputSize => by
        have hapart := hoverlap.1
        rw [reachable_describeMatrix hinput hinputSize,
          reachable_describeMatrix houtput houtputSize] at hapart
        exact overlap_eq_false hapart
      matrix_apart := fun houtputSize => by
        have hapart := hoverlap.2
        rw [reachable_describeMatrix houtput houtputSize] at hapart
        exact matrixMeets_eq_false hmatrixBytes hapart }

/-! ## What the kernels leave -/

variable [CommRing V] [StarRing V] [DecidableEq V] [DeviceArithmetic V] [LawfulDeviceArithmetic V]

section Kernels

variable {memory : Nat → Cell}

/-- The rows that `StandardSpmvKernel` adds. -/
def spmvRows {input output : SparseBlasVectorView type.toRepresentation} (hinput : input.Checked)
    (houtput : output.Checked) (h : SpmvInspected transposition matrix input output)
    (hsize : 0 < output.size) :
    Rows matrix transposition (output.family houtput) output.size.toNat where
  item := Equiv.refl _
  row position := position.val
  address _ := input.vectorAt
  row_lt position := by
    rw [← h.extents.2]
    exact position.isLt
  reads := readsValues_of_disjoint (SparseBlasVectorView.family_inside houtput)
    (h.matrix_apart hsize)
  apart _ inner hfirst hlast := by
    have hinner : inner < input.size := h.extents.1 ▸ hlast
    have hspec := hinput.vectorAt_spec hfirst hinner
    exact elementCells_subset_outside_of_disjoint (SparseBlasVectorView.family_inside houtput)
      (h.input_apart (by omega) hsize) hspec.2.1 hspec.2.2

theorem spmvLaunches_end {input output : SparseBlasVectorView type.toRepresentation}
    (hcanonical : matrix.CanonicalArrays) (hinput : input.Checked) (houtput : output.Checked)
    (h : SpmvInspected transposition matrix input output) (memory : Nat → Cell) :
    ∃ last, StreamEndsIn ((spmvLaunches transposition alpha matrix input output).map Prod.fst)
        memory last ∧
      (output.family houtput).Untouched memory last ∧ ∀ row : Fin output.size.toNat,
        output.value last row.val = output.value memory row.val +
          spmvProduct transposition alpha matrix input memory row.val := by
  unfold spmvLaunches
  by_cases hempty : output.size = 0
  · rw [if_pos hempty]
    exact ⟨memory, .nil memory, .refl memory, fun row => by have hlt := row.isLt; omega⟩
  · rw [if_neg hempty]
    have hsize : 0 < output.size := by
      have hnonneg := houtput.size_nonneg
      omega
    have hadds : (spmvRows hinput houtput h hsize).Adds alpha matrix.rows.toNat fun row =>
        addRow matrix transposition alpha matrix.rows.toNat input.vectorAt (output.vectorAt row) row :=
      fun _ => rfl
    have hinner : transposition ≠ .none →
        matrix.rows.toNat = (inputExtent matrix transposition).toNat := fun hne => by
      rw [inputExtent, if_neg hne]
    rcases hadds.ends hcanonical hinner (by omega) h.size_le memory with
      ⟨last, hends, hframe, hvalues⟩
    exact ⟨last, .single hends, hframe, hvalues⟩

/-- The rows that `StandardSpmmKernel` adds. -/
def spmmRows {input output : SparseBlasMatrixView type.toRepresentation} (hinput : input.Checked)
    (houtput : output.Checked) (h : SpmmInspected transposition matrix input output)
    (hsize : output.rows ≠ 0 ∧ output.columns ≠ 0) :
    Rows matrix transposition (output.family houtput)
      (output.rows.toNat * output.columns.toNat) where
  item := finProdFinEquiv.symm
  row position := (finProdFinEquiv.symm position).1.val
  address position inner :=
    (describeMatrix input).elementAt type.toRepresentation inner
      (finProdFinEquiv.symm position).2.val
  row_lt position := by
    rw [← h.extents.2.1]
    exact (finProdFinEquiv.symm position).1.isLt
  reads := readsValues_of_disjoint (SparseBlasMatrixView.family_inside houtput)
    (h.matrix_apart hsize)
  apart position inner hfirst hlast := by
    have hinner : inner < input.rows := h.extents.1 ▸ hlast
    have hcolumn : ((finProdFinEquiv.symm position).2.val : Int) < input.columns := by
      rw [h.extents.2.2]
      have hlt := (finProdFinEquiv.symm position).2.isLt
      omega
    have hinside := hinput.elementAt_inside ⟨hfirst, hinner⟩ ⟨Int.natCast_nonneg _, hcolumn⟩
    rw [elementAt_describeMatrix hinput ⟨hfirst, hinner⟩ ⟨Int.natCast_nonneg _, hcolumn⟩]
    exact elementCells_subset_outside_of_disjoint (SparseBlasMatrixView.family_inside houtput)
      (h.input_apart (by omega) hsize) hinside.1 hinside.2

theorem spmmLaunches_end {input output : SparseBlasMatrixView type.toRepresentation}
    (hcanonical : matrix.CanonicalArrays) (hinput : input.Checked) (houtput : output.Checked)
    (h : SpmmInspected transposition matrix input output) (memory : Nat → Cell) :
    ∃ last, StreamEndsIn ((spmmLaunches transposition alpha matrix input output).map Prod.fst)
        memory last ∧
      (output.family houtput).Untouched memory last ∧
      ∀ (row : Fin output.rows.toNat) (rhs : Fin output.columns.toNat),
        output.value last row.val rhs.val = output.value memory row.val rhs.val +
          spmmProduct transposition alpha matrix input memory row.val rhs.val := by
  have hextents := houtput.spec.1
  unfold spmmLaunches
  rw [h.count_eq]
  by_cases hempty : output.rows.toNat * output.columns.toNat = 0
  · rw [if_pos hempty]
    refine ⟨memory, .nil memory, .refl memory, fun row rhs => ?_⟩
    have hpos := Nat.mul_pos row.pos rhs.pos
    omega
  · rw [if_neg hempty]
    rw [Nat.mul_eq_zero, not_or] at hempty
    have hsize : output.rows ≠ 0 ∧ output.columns ≠ 0 := by omega
    have hadds : (spmmRows hinput houtput h hsize).Adds alpha input.rows.toNat fun linear =>
        addRow matrix transposition alpha input.rows.toNat
          (fun inner => (describeMatrix input).elementAt type.toRepresentation inner
            ((linear % output.columns.toNat : Nat) : Int))
          ((describeMatrix output).elementAt type.toRepresentation
            ((linear / output.columns.toNat : Nat) : Int)
            ((linear % output.columns.toNat : Nat) : Int))
          (linear / output.columns.toNat) := by
      intro position
      have hrow := (finProdFinEquiv.symm position).1.isLt
      have hrhs := (finProdFinEquiv.symm position).2.isLt
      have helement := @elementAt_describeMatrix _ _ _ output houtput
        (finProdFinEquiv.symm position).1.val (finProdFinEquiv.symm position).2.val
        (by omega) (by omega)
      exact congrArg (fun destination => addRow matrix transposition alpha input.rows.toNat _
        destination _) helement
    have hinner : transposition ≠ .none →
        input.rows.toNat = (inputExtent matrix transposition).toNat := fun _ => by
      rw [h.extents.1]
    rcases hadds.ends hcanonical hinner (Nat.mul_pos (by omega) (by omega)) h.count_le memory with
      ⟨last, hends, hframe, hvalues⟩
    refine ⟨last, .single ?_, hframe, fun row rhs => ?_⟩
    · rw [standardSpmmKernel, h.count_eq]
      exact hends
    · have hvalue := hvalues (finProdFinEquiv (row, rhs))
      have hitem : finProdFinEquiv.symm (finProdFinEquiv (row, rhs)) = (row, rhs) :=
        finProdFinEquiv.symm_apply_apply (row, rhs)
      have hload : ∀ inner : Fin (inputExtent matrix transposition).toNat,
          type.load memory ((describeMatrix input).elementAt type.toRepresentation inner.val rhs.val) =
            input.value memory inner.val rhs.val := fun inner => by
        rw [elementAt_describeMatrix hinput (by rw [h.extents.1]; omega)
          (by rw [h.extents.2.2]; omega)]
        rfl
      simp only [spmmRows, Rows.product, hitem, hload] at hvalue
      exact hvalue

end Kernels

/-! ## The result -/

section Result

variable {execution : ExecutionState} {api : Api (Nat → Cell)}

theorem yields_cudaSpmv (hserves : Serves execution api) (hcanonical : matrix.CanonicalArrays)
    {input output : SparseBlasVectorView type.toRepresentation} (hinput : input.Checked)
    (houtput : output.Checked) :
    Yields (cudaSpmv (.ofState execution) transposition alpha matrix input output) api
      (fun event api' => Computes execution (spmvLaunches transposition alpha matrix input output)
        (output.family houtput) (fun memory row =>
          output.value memory row.val + spmvProduct transposition alpha matrix input memory row.val)
        api event api')
      (Fails execution api) := by
  refine Yields.ofResult_ok (validateContext_ofState execution) ?_
  refine yields_computes hserves (inspects_inspectSpmv hinput houtput) fun hinspected memory => ?_
  rcases spmvLaunches_end hcanonical hinput houtput hinspected memory with
    ⟨last, hends, hframe, hvalues⟩
  exact ⟨last, hends, hframe, funext hvalues⟩

theorem yields_cudaSpmm (hserves : Serves execution api) (hcanonical : matrix.CanonicalArrays)
    {input output : SparseBlasMatrixView type.toRepresentation} (hinput : input.Checked)
    (houtput : output.Checked) :
    Yields (cudaSpmm (.ofState execution) transposition alpha matrix input output) api
      (fun event api' => Computes execution (spmmLaunches transposition alpha matrix input output)
        (output.family houtput) (fun memory item =>
          output.value memory item.1.val item.2.val +
            spmmProduct transposition alpha matrix input memory item.1.val item.2.val)
        api event api')
      (Fails execution api) := by
  refine Yields.ofResult_ok (validateContext_ofState execution) ?_
  refine yields_computes hserves (inspects_inspectSpmm hinput houtput) fun hinspected memory => ?_
  rcases spmmLaunches_end hcanonical hinput houtput hinspected memory with
    ⟨last, hends, hframe, hvalues⟩
  exact ⟨last, hends, hframe, funext fun item => hvalues item.1 item.2⟩

/-- A product on the device adds `alpha * op(A) * input` to its output and changes nothing else,
however the threads of its kernel interleave; it hands out one event behind the kernel, or it fails as
a submission does. -/
theorem device_products_correct (execution : ExecutionState) (api : Api (Nat → Cell))
    (hserves : Serves execution api) (transposition : SparseBlasTranspose) (alpha : V)
    (matrix : CompressedSparseView (Stored type.toRepresentation) .csr)
    (hcanonical : matrix.CanonicalArrays) :
    (∀ input output : SparseBlasVectorView type.toRepresentation, input.Checked →
      ∀ houtput : output.Checked,
        Yields (cudaSpmv (.ofState execution) transposition alpha matrix input output) api
          (fun event api' =>
            Computes execution (spmvLaunches transposition alpha matrix input output)
              (output.family houtput) (fun memory row => output.value memory row.val +
                spmvProduct transposition alpha matrix input memory row.val) api event api')
          (Fails execution api)) ∧
      ∀ input output : SparseBlasMatrixView type.toRepresentation, input.Checked →
        ∀ houtput : output.Checked,
          Yields (cudaSpmm (.ofState execution) transposition alpha matrix input output) api
            (fun event api' =>
              Computes execution (spmmLaunches transposition alpha matrix input output)
                (output.family houtput) (fun memory item =>
                  output.value memory item.1.val item.2.val +
                    spmmProduct transposition alpha matrix input memory item.1.val item.2.val) api
                event api')
            (Fails execution api) :=
  ⟨fun _ _ hinput houtput => yields_cudaSpmv hserves hcanonical hinput houtput,
    fun _ _ hinput houtput => yields_cudaSpmm hserves hcanonical hinput houtput⟩

end Result

/-! ### Three entries -/

/-- The numbers of the samples, as a device sees them. -/
abbrev deviceNumber : LocalRepresentation Int Int :=
  .uniform Int 8 8 Representation.eight_pos

/-- The upper triangle of two rows, on a device. -/
def deviceMatrix : CompressedSparseView (Stored deviceNumber.toRepresentation) .csr :=
  { sampleMatrix .csr with memorySpace := .device }

/-- The vector with two rows that runs backwards, on a device. -/
def deviceVector (data : Nat) : SparseBlasVectorView deviceNumber.toRepresentation :=
  ⟨data + 16, 2, -2, ⟨data, 24, .device⟩, data, 24⟩

theorem device_products_sample :
    ∃ event last, exec (cudaSpmv (.ofState sampleExecution) .conjugateTranspose 2 deviceMatrix
        (deviceVector 80) (deviceVector 128)) (sampleApi (Nat → Int)) = some (.ok event, last) ∧
      ∃ memory', StreamEndsIn [standardSpmvKernel .conjugateTranspose 2 deviceMatrix
          (deviceVector 80) (deviceVector 128)] sampleMemory memory' ∧
        (deviceVector 128).value memory' 0 = 144 + 2 * (56 * 96) ∧
        (deviceVector 128).value memory' 1 = 128 + 2 * (64 * 96 + 72 * 80) := by
  have hcanonical : deviceMatrix.CanonicalArrays :=
    ((sampleVector_accepts .csr).matrix_checked.canonical rfl)
  rcases (device_products_correct sampleExecution (sampleApi (Nat → Int)) (sample_serves _)
    .conjugateTranspose 2 deviceMatrix hcanonical).1 (deviceVector 80) (deviceVector 128) rfl rfl with
    ⟨result, last, hrun, hresult⟩
  have hvalue : (exec (cudaSpmv (.ofState sampleExecution) .conjugateTranspose 2 deviceMatrix
      (deviceVector 80) (deviceVector 128)) (sampleApi (Nat → Int))).map Prod.fst =
        some (.ok 1) := rfl
  rw [hrun] at hvalue
  cases hvalue
  rcases hresult.2.2 sampleMemory with ⟨memory', hends, -, hvalues⟩
  have hvalue : ∀ row : Fin 2, (deviceVector 128).value memory' row.val =
      (deviceVector 128).value sampleMemory row.val +
        spmvProduct .conjugateTranspose 2 deviceMatrix (deviceVector 80) sampleMemory row.val :=
    fun row => congrFun hvalues row
  have hold : (deviceVector 128).value sampleMemory 0 = 144 ∧
      (deviceVector 128).value sampleMemory 1 = 128 := by decide
  have hproduct : spmvProduct .conjugateTranspose 2 deviceMatrix (deviceVector 80) sampleMemory 0 =
        2 * (56 * 96) ∧
      spmvProduct .conjugateTranspose 2 deviceMatrix (deviceVector 80) sampleMemory 1 =
        2 * (64 * 96 + 72 * 80) := by decide
  refine ⟨1, last, hrun, memory', hends, ?_, ?_⟩
  · rw [← hold.1, ← hproduct.1]
    exact hvalue 0
  · rw [← hold.2, ← hproduct.2]
    exact hvalue 1

end Cuda
end Sparse
end AscCpp
