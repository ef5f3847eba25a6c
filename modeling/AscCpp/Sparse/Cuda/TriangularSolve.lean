import AscCpp.Sparse.Blas.TriangularSolve
import AscCpp.Sparse.Cuda.ProductKernels

/-!
# TriangularSolve — the triangular solvers of the sparse CUDA provider

A thread substitutes in one right-hand side; it reads the matrix through searches and the right-hand
side only in its own column.

- `Columns.kernel_ends`: every interleaving leaves what the loop over the columns leaves.
- `exec_solveDeviceRow`: a round of the device stores what the round of the host stores.
- `device_solve_correct`: a solver of the device and a solver of the host.
-/

namespace AscCpp
namespace Sparse
namespace Cuda

open AscCpp.Core AscCpp.Core.Cuda Library Effect Blas

variable {Cell V : Type} {type : LocalRepresentation Cell V}

/-! ## The kernel -/

section Kernel

variable [DeviceArithmetic V] (transposition : SparseBlasTranspose) (alpha : V)
  (triangular : SparseBlasTriangularView type.toRepresentation .csr)

/-- The loop over the columns of a row. -/
def subtractColumns (address : Nat → Nat) (row : Nat) (start : V) : Program (Nat → Cell) V :=
  (List.range triangular.matrix.columns.toNat).foldlM
    (fun value (column : Nat) =>
      if Skips (solvesLower transposition triangular) row column then pure value
      else do
        let factor ← csrOpValue triangular.matrix transposition row column
        let solved ← Program.load type.toRepresentation (address column)
        pure (DeviceArithmetic.subtract value (DeviceArithmetic.multiply factor solved))) start

/-- The division of a row, which a unit diagonal leaves out. -/
def divideRow (row : Nat) (value : V) : Program (Nat → Cell) V :=
  match triangular.diagonal with
  | .nonUnit => do
    let divisor ← csrOpValue triangular.matrix transposition row row
    pure (DeviceArithmetic.divide value divisor)
  | .unit => pure value

/-- One round of the substitution. -/
def solveDeviceRow (address : Nat → Nat) (row : Nat) : Program (Nat → Cell) Unit := do
  let start ← Program.load type.toRepresentation (address row)
  let value ← subtractColumns transposition triangular address row
    (DeviceArithmetic.multiply alpha start)
  let solved ← divideRow transposition triangular row value
  Program.store type.toRepresentation (address row) solved

/-- `lower ? solve_step : matrix.rows - 1 - solve_step`. -/
def deviceOrder (step : Nat) : Nat :=
  if solvesLower transposition triangular then step else triangular.matrix.rows.toNat - 1 - step

/-- What a thread does with a right-hand side. -/
def solveColumn (address : Nat → Nat) : Program (Nat → Cell) Unit :=
  if DeviceArithmetic.isZero alpha = true then
    forM (List.range triangular.matrix.rows.toNat) fun row =>
      Program.store type.toRepresentation (address row) DeviceArithmetic.zero
  else
    forM (List.range triangular.matrix.rows.toNat) fun step =>
      solveDeviceRow transposition alpha triangular address
        (deviceOrder transposition triangular step)

/-- `StandardTriangularSolveKernel`. -/
def standardTriangularSolveKernel (rightHandSides : MatrixDescriptor) : Launch (Nat → Cell) :=
  .loop rightHandSides.columns.toNat fun rhs =>
    solveColumn transposition alpha triangular fun row =>
      rightHandSides.elementAt type.toRepresentation row rhs

end Kernel

/-! ## Operations -/

section Operations

variable [DeviceArithmetic V] (context : SparseCudaContext) (device : Int)
  (transposition : SparseBlasTranspose) (alpha : V)
  (triangular : SparseBlasTriangularView type.toRepresentation .csr)

/-- The checks of `StandardTriangularSolveErased`; the matrix is stored in rows by its type. -/
def inspectTriangularSolve (rightHandSides : MatrixDescriptor) : Call (Nat → Cell) Unit := do
  Effect.ofResult (failIf (triangular.matrix.rows ≠ triangular.matrix.columns)
    { code := .shape, message := "CUDA triangular solve requires square CSR storage" })
  validateSparseDevice triangular.matrix device
  let size ← validateMatrixDevice type.toRepresentation rightHandSides device
  Effect.ofResult (failIf (rightHandSides.rows ≠ triangular.matrix.rows)
    { code := .shape, message := "CUDA triangular right-hand-side extent does not match" })
  let bytes ← Effect.ofResult (validateSparseMetadata triangular.matrix)
  Effect.ofResult (failIf
    (matrixMeets triangular.matrix bytes
      ⟨(rightHandSides.reachable 0).data, size, rightHandSides.memorySpace⟩ = true)
    { code := .invalidArgument, message := "CUDA triangular right-hand sides overlap the matrix" })

/-- `LaunchStandardTriangularSolve`. -/
def triangularSolveLaunches (rightHandSides : MatrixDescriptor) :
    List (Launch (Nat → Cell) × String) :=
  if rightHandSides.columns = 0 ∨ rightHandSides.rows = 0 then []
  else [(standardTriangularSolveKernel transposition alpha triangular rightHandSides,
    "CUDA could not launch the Sparse BLAS triangular-solve kernel")]

/-- `StandardTriangularSolveErased`. -/
def standardTriangularSolveErased (rightHandSides : MatrixDescriptor) : Call (Nat → Cell) Nat := do
  let execution ← Effect.ofResult (validateContext context)
  withDevice context.executionContext.ordinal do
    inspectTriangularSolve context.executionContext.ordinal triangular rightHandSides
    launchAll execution.stream false
      (triangularSolveLaunches transposition alpha triangular rightHandSides)
    recordOrDrain context.executionContext execution

def cudaSparseTriangularSolve (rightHandSide : SparseBlasVectorView type.toRepresentation) :
    Call (Nat → Cell) Nat :=
  standardTriangularSolveErased context transposition alpha triangular (describeColumn rightHandSide)

def cudaSparseTriangularSolveMultiple
    (rightHandSides : SparseBlasMatrixView type.toRepresentation) : Call (Nat → Cell) Nat :=
  standardTriangularSolveErased context transposition alpha triangular
    (describeMatrix rightHandSides)

end Operations

/-! ## Rounds of the device and of the host -/

section Rounds

variable [Field V] [StarRing V] [DecidableEq V] [DeviceArithmetic V] [LawfulDeviceArithmetic V]
  {transposition : SparseBlasTranspose} {alpha : V}
  {triangular : SparseBlasTriangularView type.toRepresentation .csr} {memory : Nat → Cell}

/-- The triangle, as the host would see its storage. -/
def onHostTriangle (triangular : SparseBlasTriangularView type.toRepresentation .csr) :
    SparseBlasTriangularView type.toRepresentation .csr :=
  { triangular with matrix := { triangular.matrix with memorySpace := .host } }

/-- The values that the device and the host subtract are the same. -/
theorem exec_subtractColumns (h : Triangular (onHostTriangle triangular) memory) (address : Nat → Nat)
    {row : Nat} (hrow : row < triangular.matrix.rows.toNat) (start : V) :
    (subtractColumns transposition triangular address row start).exec memory =
      ((List.range triangular.matrix.columns.toNat).foldl
        (fun value (column : Nat) =>
          if Skips (solvesLower transposition triangular) row column then value
          else value - opValue triangular.matrix memory transposition row column *
            type.load memory (address column)) start, memory) := by
  unfold subtractColumns
  simp only [LawfulDeviceArithmetic.subtract_eq, LawfulDeviceArithmetic.multiply_eq]
  refine Program.exec_foldlM (fun column hcolumn value => ?_) start
  have hsquare : triangular.matrix.rows = triangular.matrix.columns := h.square
  have hcanonical : triangular.matrix.CanonicalArrays := h.canonical
  have hlt := List.mem_range.1 hcolumn
  split
  · rfl
  · rw [Program.exec_bind, exec_csrOpValue hcanonical, ← opValue_eq hcanonical]
    · rfl
    · unfold outputExtent
      split <;> omega
    · unfold inputExtent
      split <;> omega

variable [LawfulDeviceDivision V]

/-- The divisor of a row. -/
theorem exec_divideRow (h : triangular.matrix.CanonicalArrays)
    (hsquare : triangular.matrix.rows = triangular.matrix.columns) {row : Nat}
    (hrow : row < triangular.matrix.rows.toNat) (value : V) :
    (divideRow transposition triangular row value).exec memory =
      (value / pivot (onHostTriangle triangular) memory transposition row, memory) := by
  unfold divideRow pivot onHostTriangle
  cases triangular.diagonal with
  | unit => simp only [div_one, Program.exec_pure]
  | nonUnit =>
    have hextents : row < (outputExtent triangular.matrix transposition).toNat ∧
        row < (inputExtent triangular.matrix transposition).toNat := by
      unfold outputExtent inputExtent
      split <;> omega
    simp only [Program.exec_bind, exec_csrOpValue h hextents.1 hextents.2, Program.exec_pure,
      LawfulDeviceDivision.divide_eq]
    rfl

/-- One round of the device stores what the round of the host stores, which divides by no zero. -/
theorem exec_solveDeviceRow (h : Triangular (onHostTriangle triangular) memory)
    {address : Nat → Nat} {address' : Int → Nat}
    (haddress : ∀ row < triangular.matrix.rows.toNat, address' (row : Nat) = address row) {row : Nat}
    (hrow : row < triangular.matrix.rows.toNat) :
    ∃ value, (solveDeviceRow transposition alpha triangular address row).exec memory =
        ((), type.store memory (address row) value) ∧
      Effect.exec (solveRow transposition alpha (onHostTriangle triangular) address' row) memory =
        some (.ok (), type.store memory (address row) value) := by
  have hcanonical : triangular.matrix.CanonicalArrays := h.canonical
  have hsquare : triangular.matrix.rows = triangular.matrix.columns := h.square
  have hlt : (row : Int) < (onHostTriangle triangular).matrix.rows := by
    have hrows : (row : Int) < triangular.matrix.rows := by omega
    exact hrows
  have hpivot := @Triangular.pivot_ne_zero _ _ _ _ _ _ _ _ transposition h row hlt
  have hvalue : ∀ other, opValue (onHostTriangle triangular).matrix memory transposition row other =
      opValue triangular.matrix memory transposition row other := fun _ => rfl
  -- What both loops over the columns leave.
  obtain ⟨value, hdevice, hhost⟩ : ∃ value,
      (subtractColumns transposition triangular address row
        (alpha * type.load memory (address row))).exec memory = (value, memory) ∧
      (List.range triangular.matrix.columns.toNat).foldl
        (fun value (column : Nat) =>
          if Skips (solvesLower transposition (onHostTriangle triangular)) row column then value
          else value - opValue (onHostTriangle triangular).matrix memory transposition row column *
            type.load memory (address' column))
        (alpha * type.load memory (address' row)) = value := by
    refine ⟨_, exec_subtractColumns h address hrow _, ?_⟩
    rw [haddress row hrow]
    apply List.foldl_ext
    intro value column hcolumn
    rw [hvalue, haddress column (by rw [hsquare]; exact List.mem_range.1 hcolumn)]
    rfl
  refine ⟨value / pivot (onHostTriangle triangular) memory transposition row, ?_, ?_⟩
  · rw [solveDeviceRow, Program.exec_bind, Program.exec_load, LawfulDeviceArithmetic.multiply_eq,
      Program.exec_bind, hdevice, Program.exec_bind, exec_divideRow hcanonical hsquare hrow]
    rfl
  · have hcolumns : (onHostTriangle triangular).matrix.columns = triangular.matrix.columns := rfl
    simp only [solveRow, Effect.exec_read_bind, hcolumns, hhost]
    rw [haddress row hrow]
    unfold pivot at hpivot ⊢
    -- A unit diagonal is not read at all.
    cases hdiagonal : (onHostTriangle triangular).diagonal with
    | nonUnit =>
      rw [hdiagonal] at hpivot
      have hdivisor : opValue (onHostTriangle triangular).matrix memory transposition row row =
          transformedValue (onHostTriangle triangular).matrix memory transposition row row :=
        opValue_eq h.canonical memory transposition row row
      simp only [hdivisor, divide, if_neg hpivot, Effect.check_some_bind, Effect.exec_store]
    | unit =>
      simp only [div_one]
      rfl

end Rounds

/-! ## Right-hand sides -/

/-- The right-hand sides of a kernel: a thread owns a column. -/
structure Columns {ι : Type} (family : ElementFamily type.toRepresentation ι) (rows count : Nat) where
  item : Fin rows → Fin count → ι
  address : Nat → Nat → Nat
  owner : ι → Nat
  address_eq : ∀ row column, family.address (item row column) = address row.val column.val
  owner_item : ∀ row column, owner (item row column) = column.val

namespace Columns

variable {transposition : SparseBlasTranspose} {alpha : V}
  {triangular : SparseBlasTriangularView type.toRepresentation .csr} {memory memory' : Nat → Cell}
  {ι : Type} {family : ElementFamily type.toRepresentation ι} {rows count : Nat}
  (columns : Columns family rows count)

theorem cells_owned {row rhs : Nat} (hrow : row < rows) (hrhs : rhs < count) :
    elementCells type.toRepresentation (columns.address row rhs) ⊆
      family.ownedCells columns.owner rhs := by
  rw [← columns.address_eq ⟨row, hrow⟩ ⟨rhs, hrhs⟩]
  exact family.elementCells_subset_owned (columns.owner_item ⟨row, hrow⟩ ⟨rhs, hrhs⟩)

theorem untouched_store {row rhs : Nat} (hrow : row < rows) (hrhs : rhs < count) (value : V)
    (memory : Nat → Cell) :
    family.Untouched memory (type.store memory (columns.address row rhs) value) := by
  rw [← columns.address_eq ⟨row, hrow⟩ ⟨rhs, hrhs⟩]
  exact family.untouched_store memory _ value

variable [DeviceArithmetic V]

/-- A thread reads the matrix and its own right-hand side, which it writes. -/
theorem within_solveColumn (hcanonical : triangular.matrix.CanonicalArrays)
    (hsquare : triangular.matrix.rows = triangular.matrix.columns)
    (hrows : rows = triangular.matrix.rows.toNat)
    (hreads : ReadsValues triangular.matrix family.outsideCells) {rhs : Nat} (hrhs : rhs < count) :
    (solveColumn transposition alpha triangular fun row => columns.address row rhs).Within
      family.outsideCells (family.ownedCells columns.owner rhs) := by
  have hcells : ∀ row < triangular.matrix.rows.toNat,
      elementCells type.toRepresentation (columns.address row rhs) ⊆
        family.ownedCells columns.owner rhs :=
    fun row hrow => columns.cells_owned (by omega) hrhs
  have hload : ∀ row < triangular.matrix.rows.toNat,
      (Program.load type.toRepresentation (columns.address row rhs)).Within family.outsideCells
        (family.ownedCells columns.owner rhs) :=
    fun row hrow => Program.within_load _ ((hcells row hrow).trans Set.subset_union_right)
  have hsearch : ∀ row < triangular.matrix.rows.toNat, ∀ column < triangular.matrix.rows.toNat,
      (csrOpValue triangular.matrix transposition row column).Within family.outsideCells
        (family.ownedCells columns.owner rhs) := by
    intro row hrow column hcolumn
    refine (within_csrOpValue hreads hcanonical ?_ ?_).mono Set.subset_union_left
      (Set.empty_subset _)
    · unfold outputExtent
      split <;> omega
    · unfold inputExtent
      split <;> omega
  have hround : ∀ row < triangular.matrix.rows.toNat,
      (solveDeviceRow transposition alpha triangular (fun row => columns.address row rhs) row).Within
        family.outsideCells (family.ownedCells columns.owner rhs) := by
    intro row hrow
    refine (hload row hrow).bind fun start => ?_
    refine Program.Within.bind (Program.Within.foldlM (fun value column hmem => ?_) _) fun value => ?_
    · have hcolumn := List.mem_range.1 hmem
      rw [← hsquare] at hcolumn
      split
      · exact Program.within_pure _
      · exact (hsearch row hrow column hcolumn).bind fun factor =>
          (hload column hcolumn).bind fun solved => Program.within_pure _
    · refine Program.Within.bind ?_ fun solved => Program.within_store type _ (hcells row hrow)
      unfold divideRow
      cases triangular.diagonal with
      | unit => exact Program.within_pure _
      | nonUnit => exact (hsearch row hrow row hrow).bind fun divisor => Program.within_pure _
  unfold solveColumn
  split
  · exact Program.Within.forM fun row hrow =>
      Program.within_store type _ (hcells row (List.mem_range.1 hrow))
  · refine Program.Within.forM fun step hstep => hround _ ?_
    have hlt := List.mem_range.1 hstep
    unfold deviceOrder
    split <;> omega

/-- However the threads interleave, they leave what the loop over the columns leaves. -/
theorem kernel_ends (hcanonical : triangular.matrix.CanonicalArrays)
    (hsquare : triangular.matrix.rows = triangular.matrix.columns)
    (hrows : rows = triangular.matrix.rows.toNat)
    (hreads : ReadsValues triangular.matrix family.outsideCells) (hpos : 0 < count)
    (hcount : count ≤ 2 ^ 63) (memory : Nat → Cell) :
    (Launch.loop count fun rhs =>
      solveColumn transposition alpha triangular fun row => columns.address row rhs).EndsIn memory
        ((forM (List.range count) fun rhs =>
          solveColumn transposition alpha triangular fun row => columns.address row rhs :
            Program (Nat → Cell) Unit).exec memory).2 :=
  Launch.owned_ends hpos hcount
    (fun _ hrhs => columns.within_solveColumn hcanonical hsquare hrows hreads hrhs) memory

variable [Field V] [StarRing V] [DecidableEq V] [LawfulDeviceArithmetic V] [LawfulDeviceDivision V]

/-- A thread does what the host does with a right-hand side. -/
theorem repeats_solveColumn (htriangular : Triangular (onHostTriangle triangular) memory)
    (hrows : rows = triangular.matrix.rows.toNat)
    (hagree : ∀ memory', family.Untouched memory memory' →
      AgreeOn triangular.matrix.valueSpan memory memory')
    {rhs : Nat} (hrhs : rhs < count) {address' : Int → Nat}
    (haddress : ∀ row < rows, address' (row : Nat) = columns.address row rhs)
    (huntouched : family.Untouched memory memory') :
    Repeats (solveColumn transposition alpha triangular fun row => columns.address row rhs)
        (if alpha = 0 then
          forM (List.range triangular.matrix.rows.toNat) fun (row : Nat) =>
            Effect.store type.toRepresentation (address' row) 0
        else substitute transposition alpha (onHostTriangle triangular) address') memory' ∧
      family.Untouched memory
        ((solveColumn transposition alpha triangular fun row =>
          columns.address row rhs).exec memory').2 := by
  unfold solveColumn
  simp only [LawfulDeviceArithmetic.isZero_iff, LawfulDeviceArithmetic.zero_eq]
  split
  -- For zero both store zeros.
  · refine Repeats.forM (family.Untouched memory) (fun row hrow memory' huntouched => ?_) huntouched
    have hlt : row < rows := by
      have hmem := List.mem_range.1 hrow
      omega
    rw [haddress row hlt]
    exact ⟨rfl, huntouched.trans (columns.untouched_store hlt hrhs 0 memory')⟩
  · refine Repeats.forM (family.Untouched memory) (fun step hstep memory' huntouched => ?_) huntouched
    have hmem := List.mem_range.1 hstep
    have hrow : deviceOrder transposition triangular step < triangular.matrix.rows.toNat := by
      unfold deviceOrder
      split <;> omega
    have horder : solveOrder transposition (onHostTriangle triangular) step =
        (deviceOrder transposition triangular step : Nat) := by
      have hrows' : (onHostTriangle triangular).matrix.rows = triangular.matrix.rows := rfl
      have hlower : solvesLower transposition (onHostTriangle triangular) =
          solvesLower transposition triangular := rfl
      unfold solveOrder deviceOrder
      rw [hlower, hrows']
      split <;> omega
    -- The matrix is what it was at the beginning.
    have hkept := htriangular.congr (hagree memory' huntouched)
    rcases exec_solveDeviceRow hkept (fun row hlt => haddress row (by omega)) hrow with
      ⟨value, hdevice, hhost⟩
    unfold Repeats
    rw [horder, hdevice, hhost]
    exact ⟨rfl, huntouched.trans (columns.untouched_store (by omega) hrhs value memory')⟩

end Columns

/-! ## The operands on the host -/

section OnHost

variable {triangular : SparseBlasTriangularView type.toRepresentation .csr}

/-- The host and the device compare the same spans. -/
theorem matrixOverlaps_onHost {bytes : SparseBytes}
    (h : validateSparseMetadata triangular.matrix = .ok bytes) (storage : ConstMemoryView) :
    matrixOverlaps (onHostTriangle triangular).matrix storage =
      matrixMeets triangular.matrix bytes storage := by
  simp only [validateSparseMetadata, Result.bind_eq_ok_iff] at h
  rcases h with ⟨_, -, _, -, _, -, nonzeros, hnonzeros, values, hvalues, offsetCount, hcount,
    converted, hconverted, first, hfirst, second, hsecond, _, -, _, -, _, -, _, -, hbytes⟩
  cases hbytes
  have hoffsets : (checkedAdd int64 (onHostTriangle triangular).matrix.outerExtent 1 >>= fun count =>
      checkedByteCount count indexSize) = .ok (first : Int) := by
    have hadd : checkedAdd int64 (onHostTriangle triangular).matrix.outerExtent 1 = .ok offsetCount :=
      hcount
    rw [hadd]
    exact checkedByteCount_of_checkedBytes hconverted hfirst
  have hindices : checkedByteCount (onHostTriangle triangular).matrix.nonzeros indexSize =
      .ok (second : Int) := checkedByteCount_of_checkedBytes hnonzeros hsecond
  have hentries : checkedByteCount (onHostTriangle triangular).matrix.nonzeros type.size =
      .ok (values : Int) := checkedByteCount_of_checkedBytes hnonzeros hvalues
  unfold matrixOverlaps
  rw [hoffsets, hindices, hentries]
  rfl

/-- Storage without bytes meets no array. -/
theorem matrixOverlaps_empty {matrix : CompressedSparseView (Stored type.toRepresentation) .csr}
    {storage storage' : ConstMemoryView} (h : matrixOverlaps matrix storage = false)
    (hempty : storage'.size = 0) : matrixOverlaps matrix storage' = false := by
  have hapart : ∀ other, overlap other storage' = false := fun other => by
    rw [overlap, if_pos (Or.inr hempty)]
  unfold matrixOverlaps at h ⊢
  split at h
  · simp only [hapart, Bool.or_self]
  · cases h

/-- The storage that the host sees meets the matrix no more than that of the device. -/
theorem matrixOverlaps_onHostVector {view : SparseBlasVectorView type.toRepresentation}
    (h : view.Checked) {matrix : CompressedSparseView (Stored type.toRepresentation) .csr}
    {calculated : Nat}
    (hapart : matrixOverlaps matrix ((describeColumn view).reachable calculated) = false) :
    matrixOverlaps matrix (onHostVector view).reachableStorage = false := by
  by_cases hempty : view.size = 0
  · apply matrixOverlaps_empty hapart
    unfold SparseBlasVectorView.Checked SparseBlasVectorView.create at h
    simp only [Result.failIf_bind_eq_ok_iff, if_pos hempty] at h
    exact (congrArg SparseBlasVectorView.reachableSize (Except.ok.inj h.2)).symm
  · have hnonneg := h.size_nonneg
    have hstorage : (describeColumn view).reachable calculated = view.reachableStorage :=
      reachable_describeVector h (by omega) calculated
    rw [hstorage] at hapart
    exact hapart

theorem matrixOverlaps_onHostMatrix {view : SparseBlasMatrixView type.toRepresentation}
    (h : view.Checked) {matrix : CompressedSparseView (Stored type.toRepresentation) .csr}
    {calculated : Nat}
    (hapart : matrixOverlaps matrix ((describeMatrix view).reachable calculated) = false) :
    matrixOverlaps matrix (onHostMatrix view).reachableStorage = false := by
  by_cases hempty : view.rows ≠ 0 ∧ view.columns ≠ 0
  · rw [reachable_describeMatrix h hempty] at hapart
    exact hapart
  · apply matrixOverlaps_empty hapart
    unfold SparseBlasMatrixView.Checked SparseBlasMatrixView.create at h
    simp only [Result.failIf_bind_eq_ok_iff, SparseBlasMatrixView.elementSpan, if_neg hempty,
      Result.ok_bind, validateStorageBounds, if_true] at h
    rcases h with ⟨-, -, h⟩
    rcases Result.bind_eq_ok_iff.1 h with ⟨bounds, hbounds, hview⟩
    rw [Result.failIf_bind_eq_ok_iff] at hbounds
    have hsame := congrArg SparseBlasMatrixView.bounds (Except.ok.inj hview)
    have hnone := congrArg StorageBounds.size (Except.ok.inj hbounds.2)
    exact ((congrArg StorageBounds.size hsame).symm.trans hnone.symm)

end OnHost

/-! ## The result -/

section Result

variable {execution : ExecutionState} {api : Api (Nat → Cell)} {device : Int}
  {transposition : SparseBlasTranspose} {alpha : V}
  {triangular : SparseBlasTriangularView type.toRepresentation .csr} {memory : Nat → Cell}
  {rightHandSides : MatrixDescriptor}

/-- What the checks of a solver establish. -/
structure SolveInspected (triangular : SparseBlasTriangularView type.toRepresentation .csr)
    (rightHandSides : MatrixDescriptor) : Prop where
  square : triangular.matrix.rows = triangular.matrix.columns
  rows_eq : rightHandSides.rows = triangular.matrix.rows
  extents : 0 ≤ rightHandSides.rows ∧ 0 ≤ rightHandSides.columns
  count_le : rightHandSides.rows.toNat * rightHandSides.columns.toNat ≤ 2 ^ 63
  apart : ∃ calculated,
    matrixOverlaps (onHostTriangle triangular).matrix (rightHandSides.reachable calculated) = false

theorem inspects_inspectTriangularSolve :
    Inspects (inspectTriangularSolve device triangular rightHandSides)
      fun _ => SolveInspected triangular rightHandSides := by
  refine (inspects_ofResult _).bind fun _ hsquare => ?_
  refine (inspects_validateSparseDevice triangular.matrix device).bind fun _ _ => ?_
  refine (inspects_validateMatrixDevice _ _ device).bind fun size hmatrix => ?_
  refine (inspects_ofResult _).bind fun _ hrows => ?_
  refine (inspects_ofResult _).bind fun bytes hbytes => ?_
  refine (inspects_ofResult _).mono fun _ hmeets => ?_
  rcases hmatrix with ⟨hextents, hcount, calculated, rfl⟩
  rw [Result.failIf_eq_ok_iff, not_not] at hsquare hrows
  rw [Result.failIf_eq_ok_iff, Bool.not_eq_true] at hmeets
  exact
    { square := hsquare
      rows_eq := hrows
      extents := hextents
      count_le := hcount.2
      apart := ⟨calculated, (matrixOverlaps_onHost hbytes _).trans hmeets⟩ }

/-- The one column of a vector. -/
def vectorColumns {view : SparseBlasVectorView type.toRepresentation} (h : view.Checked) :
    Columns (view.family h) (describeColumn view).rows.toNat
      (describeColumn view).columns.toNat where
  item row _ := row
  address row rhs := (describeColumn view).elementAt type.toRepresentation row rhs
  owner _ := 0
  address_eq row column := by
    have hcolumn : column.val = 0 := by
      have hlt : column.val < 1 := column.isLt
      omega
    rw [hcolumn]
    exact (elementAt_describeColumn view row.val).symm
  owner_item _ column := by
    have hlt : column.val < 1 := column.isLt
    omega

/-- The columns of a matrix. -/
def matrixColumns {view : SparseBlasMatrixView type.toRepresentation} (h : view.Checked) :
    Columns (view.family h) (describeMatrix view).rows.toNat
      (describeMatrix view).columns.toNat where
  item row column := (row, column)
  address row rhs := (describeMatrix view).elementAt type.toRepresentation row rhs
  owner item := item.2.val
  address_eq row column := by
    have hrow := row.isLt
    have hcolumn := column.isLt
    exact (elementAt_describeMatrix h ⟨Int.natCast_nonneg _, by omega⟩
      ⟨Int.natCast_nonneg _, by omega⟩).symm
  owner_item _ _ := rfl

/-- The host accepts the operands that the device accepts. -/
theorem solveAccepts_onHost {view : SparseBlasVectorView type.toRepresentation} (h : view.Checked)
    (hinspected : SolveInspected triangular (describeColumn view)) :
    SolveAccepts .serial (onHostTriangle triangular) (onHostVector view) := by
  rcases hinspected.apart with ⟨calculated, hapart⟩
  refine ⟨checked_onHostVector h, ?_⟩
  simp only [validateSolve, Result.unit_bind_eq_ok_iff, Result.failIf_eq_ok_iff, not_not,
    Bool.not_eq_true]
  refine ⟨rfl, rfl, ?_, matrixOverlaps_onHostVector h hapart⟩
  exact hinspected.rows_eq

theorem solveMultipleAccepts_onHost {view : SparseBlasMatrixView type.toRepresentation}
    (h : view.Checked) (hinspected : SolveInspected triangular (describeMatrix view)) :
    SolveMultipleAccepts .serial (onHostTriangle triangular) (onHostMatrix view) := by
  rcases hinspected.apart with ⟨calculated, hapart⟩
  refine ⟨checked_onHostMatrix h, ?_⟩
  simp only [validateSolveMultiple, Result.unit_bind_eq_ok_iff, Result.failIf_eq_ok_iff, not_not,
    Bool.not_eq_true]
  refine ⟨rfl, rfl, ?_, matrixOverlaps_onHostMatrix h hapart⟩
  exact hinspected.rows_eq

theorem exec_forM_one (body : Nat → Effect (Nat → Cell) Unit) (memory : Nat → Cell) :
    Effect.exec (forM (List.range 1) body) memory = Effect.exec (body 0) memory := by
  change Effect.exec (forM [0] body) memory = _
  rw [Effect.exec_forM_cons]
  rcases Effect.exec (body 0) memory with _ | ⟨_ | _, _⟩ <;> rfl

variable [DeviceArithmetic V] [Field V]

theorem yields_standardTriangularSolve (hserves : Serves execution api)
    {host : Effect (Nat → Cell) Unit}
    (hkernels : SolveInspected triangular rightHandSides → ∀ memory,
      Triangular (onHostTriangle triangular) memory → ∃ last, StreamEndsIn
          ((triangularSolveLaunches transposition alpha triangular rightHandSides).map Prod.fst)
            memory last ∧
        Effect.exec host memory = some (.ok (), last)) :
    Yields (standardTriangularSolveErased (.ofState execution) transposition alpha triangular
        rightHandSides) api
      (fun event api' => RepeatsHost execution
        (triangularSolveLaunches transposition alpha triangular rightHandSides)
          (Triangular (onHostTriangle triangular)) host api event api')
      (Fails execution api) := by
  refine Yields.ofResult_ok (validateContext_ofState execution) ?_
  exact yields_repeatsHost hserves inspects_inspectTriangularSolve hkernels

variable [StarRing V] [DecidableEq V]

/-- What the host does, behind its checks. -/
def hostSolve (transposition : SparseBlasTranspose) (alpha : V)
    (triangular : SparseBlasTriangularView type.toRepresentation .csr) (count : Nat)
    (address : Int → Int → Nat) : Effect (Nat → Cell) Unit :=
  if alpha = 0 then
    forM (List.range count) fun (rhs : Nat) =>
      forM (List.range triangular.matrix.rows.toNat) fun (row : Nat) =>
        Effect.store type.toRepresentation (address row rhs) 0
  else
    forM (List.range count) fun (rhs : Nat) =>
      substitute transposition alpha (onHostTriangle triangular) fun row => address row rhs

variable [LawfulDeviceArithmetic V] [LawfulDeviceDivision V]

/-- Whatever the order of the threads, the kernel leaves what the host leaves. -/
theorem triangularSolveLaunches_end {ι : Type} {family : ElementFamily type.toRepresentation ι}
    (hinspected : SolveInspected triangular rightHandSides)
    (columns : Columns family rightHandSides.rows.toNat rightHandSides.columns.toNat)
    (haddress : ∀ row rhs : Nat, columns.address row rhs =
      rightHandSides.elementAt type.toRepresentation row rhs)
    {span : Block} (hinside : ∀ item, span.address ≤ family.address item ∧
      family.address item + type.size ≤ span.address + span.size)
    (hapart : rightHandSides.columns ≠ 0 → rightHandSides.rows ≠ 0 →
      triangular.matrix.valueSpan.Disjoint span)
    {address : Int → Int → Nat} (hhost : ∀ row < rightHandSides.rows.toNat,
      ∀ rhs < rightHandSides.columns.toNat,
        address (row : Nat) (rhs : Nat) = columns.address row rhs)
    (htriangular : Triangular (onHostTriangle triangular) memory) :
    ∃ last, StreamEndsIn
        ((triangularSolveLaunches transposition alpha triangular rightHandSides).map Prod.fst) memory
          last ∧
      Effect.exec (hostSolve transposition alpha triangular rightHandSides.columns.toNat address)
        memory = some (.ok (), last) := by
  have hrows : triangular.matrix.rows.toNat = rightHandSides.rows.toNat := by
    rw [hinspected.rows_eq]
  unfold triangularSolveLaunches
  by_cases hempty : rightHandSides.columns = 0 ∨ rightHandSides.rows = 0
  · rw [if_pos hempty]
    refine ⟨memory, .nil memory, ?_⟩
    -- Every round of the host is empty.
    have hround : ∀ rhs ∈ List.range rightHandSides.columns.toNat,
        triangular.matrix.rows.toNat = 0 := by
      intro rhs hrhs
      have hlt := List.mem_range.1 hrhs
      omega
    have hidle : ∀ body : Nat → Effect (Nat → Cell) Unit,
        (∀ rhs, triangular.matrix.rows.toNat = 0 → body rhs = pure ()) →
          Effect.exec (forM (List.range rightHandSides.columns.toNat) body) memory =
            some (.ok (), memory) := by
      intro body hbody
      have hpure : ∀ rhs ∈ List.range rightHandSides.columns.toNat, ∀ memory', memory' = memory →
          Repeats (pure ()) (body rhs) memory' ∧
            ((pure () : Program (Nat → Cell) Unit).exec memory').2 = memory := by
        intro rhs hrhs memory' hsame
        rw [hbody rhs (hround rhs hrhs)]
        exact ⟨rfl, hsame⟩
      rcases Repeats.forM (· = memory) hpure rfl with ⟨hrepeats, hlast⟩
      unfold Repeats at hrepeats
      rw [hrepeats, hlast]
    unfold hostSolve
    split
    · exact hidle _ fun rhs hnone => by rw [hnone]; rfl
    · refine hidle _ fun rhs hnone => ?_
      have hnone' : (onHostTriangle triangular).matrix.rows.toNat = 0 := hnone
      rw [substitute, hnone']
      rfl
  · rw [if_neg hempty]
    rw [not_or] at hempty
    have hcanonical : triangular.matrix.CanonicalArrays := htriangular.canonical
    have hspans := hapart hempty.1 hempty.2
    have hcount : rightHandSides.columns.toNat ≤ 2 ^ 63 := by
      have hle := Nat.mul_le_mul_right rightHandSides.columns.toNat
        (by have hnonneg := hinspected.extents.1; omega : 1 ≤ rightHandSides.rows.toNat)
      have hbound := hinspected.count_le
      omega
    have hpos : 0 < rightHandSides.columns.toNat := by
      have hnonneg := hinspected.extents.2
      have hne := hempty.1
      omega
    have hends := @Columns.kernel_ends _ _ _ transposition alpha triangular _ family _ _ columns _
      hcanonical hinspected.square hrows.symm (readsValues_of_disjoint hinside hspans) hpos hcount
      memory
    have hrounds : ∀ rhs ∈ List.range rightHandSides.columns.toNat, ∀ memory',
        family.Untouched memory memory' → _ ∧ _ := fun rhs hrhs memory' huntouched =>
      @Columns.repeats_solveColumn _ _ _ transposition alpha triangular memory memory' _ family _ _
        columns _ _ _ _ _ _ htriangular hrows.symm
        (fun memory' huntouched => agreeOn_of_untouched hinside hspans huntouched) rhs
        (List.mem_range.1 hrhs) (fun row => address row (rhs : Nat))
        (fun row hrow => hhost row hrow rhs (List.mem_range.1 hrhs)) huntouched
    rcases Repeats.forM (family.Untouched memory) hrounds (.refl memory) with ⟨hrepeats, -⟩
    have hkernel : standardTriangularSolveKernel transposition alpha triangular rightHandSides =
        Launch.loop rightHandSides.columns.toNat fun rhs =>
          solveColumn transposition alpha triangular fun row => columns.address row rhs := by
      simp only [standardTriangularSolveKernel, haddress]
    rw [← hkernel] at hends
    refine ⟨_, .single hends, ?_⟩
    unfold hostSolve
    unfold Repeats at hrepeats
    by_cases hzero : alpha = 0
    · simp only [if_pos hzero] at hrepeats ⊢
      exact hrepeats
    · simp only [if_neg hzero] at hrepeats ⊢
      exact hrepeats

theorem yields_cudaSparseTriangularSolve (hserves : Serves execution api)
    {rightHandSide : SparseBlasVectorView type.toRepresentation} (h : rightHandSide.Checked) :
    Yields (cudaSparseTriangularSolve (.ofState execution) transposition alpha triangular
        rightHandSide) api
      (fun event api' => RepeatsHost execution
        (triangularSolveLaunches transposition alpha triangular (describeColumn rightHandSide))
        (Triangular (onHostTriangle triangular))
        (sparseTriangularSolve .serial transposition alpha (onHostTriangle triangular)
          (onHostVector rightHandSide)) api event api')
      (Fails execution api) := by
  refine yields_standardTriangularSolve hserves fun hinspected memory htriangular => ?_
  have haccepts := solveAccepts_onHost h hinspected
  rcases hinspected.apart with ⟨calculated, hapart⟩
  have hends := @triangularSolveLaunches_end _ _ _ transposition alpha triangular memory _ _ _ _ _ _ _ _
    _ hinspected (vectorColumns h) (fun _ _ => rfl) _ (SparseBlasVectorView.family_inside h)
    (fun _ _ => (matrixOverlaps_eq_false (matrixOverlaps_onHostVector h hapart)).2.2)
    (fun row _ => rightHandSide.vectorAt row) (fun row _ rhs hrhs => ?_) htriangular
  · rcases hends with ⟨last, hends, hhost⟩
    refine ⟨last, hends, ?_⟩
    rw [sparseTriangularSolve, haccepts.valid, Effect.ofResult_ok_bind]
    have hcount : (describeColumn rightHandSide).columns.toNat = 1 := rfl
    rw [hostSolve, hcount] at hhost
    split at hhost
    · rw [if_pos ‹_›]
      exact (exec_forM_one _ memory).symm.trans hhost
    · rw [if_neg ‹_›]
      exact (exec_forM_one _ memory).symm.trans hhost
  · have hzero : rhs = 0 := by
      have hlt : rhs < 1 := hrhs
      omega
    rw [hzero]
    exact (elementAt_describeColumn rightHandSide row).symm

theorem yields_cudaSparseTriangularSolveMultiple (hserves : Serves execution api)
    {rightHandSides : SparseBlasMatrixView type.toRepresentation} (h : rightHandSides.Checked) :
    Yields (cudaSparseTriangularSolveMultiple (.ofState execution) transposition alpha triangular
        rightHandSides) api
      (fun event api' => RepeatsHost execution
        (triangularSolveLaunches transposition alpha triangular (describeMatrix rightHandSides))
        (Triangular (onHostTriangle triangular))
        (sparseTriangularSolveMultiple .serial transposition alpha (onHostTriangle triangular)
          (onHostMatrix rightHandSides)) api event api')
      (Fails execution api) := by
  refine yields_standardTriangularSolve hserves fun hinspected memory htriangular => ?_
  have haccepts := solveMultipleAccepts_onHost h hinspected
  rcases hinspected.apart with ⟨calculated, hapart⟩
  rcases @triangularSolveLaunches_end _ _ _ transposition alpha triangular memory _ _ _ _ _ _ _ _
    _ hinspected (matrixColumns h) (fun _ _ => rfl) _ (SparseBlasMatrixView.family_inside h)
    (fun _ _ => (matrixOverlaps_eq_false (matrixOverlaps_onHostMatrix h hapart)).2.2)
    rightHandSides.elementAt (fun row hrow rhs hrhs => ((matrixColumns h).address_eq ⟨row, hrow⟩
      ⟨rhs, hrhs⟩)) htriangular with
    ⟨last, hends, hhost⟩
  refine ⟨last, hends, ?_⟩
  rw [sparseTriangularSolveMultiple, haccepts.valid, Effect.ofResult_ok_bind]
  exact hhost

/-- A solver of the device leaves, however the threads of its kernel interleave, the memory that the
solver of the host leaves on the same operands, and the host accepts them; it hands out one event
behind its kernel, or it fails as a submission does. -/
theorem device_solve_correct (execution : ExecutionState) (api : Api (Nat → Cell))
    (hserves : Serves execution api) (transposition : SparseBlasTranspose) (alpha : V)
    (triangular : SparseBlasTriangularView type.toRepresentation .csr) :
    (∀ rightHandSide : SparseBlasVectorView type.toRepresentation, rightHandSide.Checked →
      Yields (cudaSparseTriangularSolve (.ofState execution) transposition alpha triangular
          rightHandSide) api
        (fun event api' => RepeatsHost execution
          (triangularSolveLaunches transposition alpha triangular (describeColumn rightHandSide))
          (Triangular (onHostTriangle triangular))
          (sparseTriangularSolve .serial transposition alpha (onHostTriangle triangular)
            (onHostVector rightHandSide)) api event api')
        (Fails execution api)) ∧
      ∀ rightHandSides : SparseBlasMatrixView type.toRepresentation, rightHandSides.Checked →
        Yields (cudaSparseTriangularSolveMultiple (.ofState execution) transposition alpha triangular
            rightHandSides) api
          (fun event api' => RepeatsHost execution
            (triangularSolveLaunches transposition alpha triangular (describeMatrix rightHandSides))
            (Triangular (onHostTriangle triangular))
            (sparseTriangularSolveMultiple .serial transposition alpha (onHostTriangle triangular)
              (onHostMatrix rightHandSides)) api event api')
          (Fails execution api) :=
  ⟨fun _ h => yields_cudaSparseTriangularSolve hserves h,
    fun _ h => yields_cudaSparseTriangularSolveMultiple hserves h⟩

end Result

/-! ### Two rows of complex numbers -/

/-- The complex numbers of the sample. -/
abbrev deviceComplex : LocalRepresentation (DeviceComplex Rat) (DeviceComplex Rat) :=
  .uniform (DeviceComplex Rat) 16 8 Representation.sixteen_pos

/-- A full triangle of two rows, on a device. -/
def deviceTriangle : SparseBlasTriangularView deviceComplex.toRepresentation .csr :=
  ⟨{ CompressedSparseView.ofHost .csr ⟨8, [0, 1, 3]⟩ ⟨32, [0, 0, 1]⟩ ⟨56, []⟩
      (2 ::ᵥ 2 ::ᵥ List.Vector.nil) 3 with memorySpace := .device }, .lower, .nonUnit⟩

/-- Two right-hand sides in rows with padding, on a device. -/
def deviceRightHandSides : SparseBlasMatrixView deviceComplex.toRepresentation :=
  ⟨104, 2, 2, .rowMajor, 3, ⟨104, 80, .device⟩, ⟨104, 80⟩⟩

/-- The first pivot has the larger real part, the second one the larger imaginary part. -/
def complexMemory (cell : Nat) : DeviceComplex Rat :=
  ⟨cell, 3 * cell - 150⟩

theorem deviceTriangle_create :
    SparseBlasTriangularView.create complexMemory (onHostTriangle deviceTriangle).matrix .lower
      .nonUnit = .ok (onHostTriangle deviceTriangle) := by
  rfl

theorem device_solve_sample :
    ∃ event last, exec (cudaSparseTriangularSolveMultiple (.ofState sampleExecution)
        .conjugateTranspose ⟨2, 1⟩ deviceTriangle deviceRightHandSides)
          (sampleApi (Nat → DeviceComplex Rat)) = some (.ok event, last) ∧
      ∃ memory', StreamEndsIn [standardTriangularSolveKernel .conjugateTranspose ⟨2, 1⟩ deviceTriangle
          (describeMatrix deviceRightHandSides)] complexMemory memory' ∧
        Effect.exec (sparseTriangularSolveMultiple .serial .conjugateTranspose ⟨2, 1⟩
          (onHostTriangle deviceTriangle) (onHostMatrix deviceRightHandSides)) complexMemory =
            some (.ok (), memory') := by
  rcases (device_solve_correct sampleExecution (sampleApi (Nat → DeviceComplex Rat))
    (sample_serves _) .conjugateTranspose ⟨2, 1⟩ deviceTriangle).2 deviceRightHandSides rfl with
    ⟨result, last, hrun, hresult⟩
  have hvalue : (exec (cudaSparseTriangularSolveMultiple (.ofState sampleExecution)
      .conjugateTranspose ⟨2, 1⟩ deviceTriangle deviceRightHandSides)
        (sampleApi (Nat → DeviceComplex Rat))).map Prod.fst = some (.ok 1) := rfl
  rw [hrun] at hvalue
  cases hvalue
  have hmatrix : (onHostTriangle deviceTriangle).matrix.Checked := rfl
  have htriangular : Triangular (onHostTriangle deviceTriangle) complexMemory :=
    (create_spec hmatrix deviceTriangle_create).2
  rcases hresult.2.2 complexMemory htriangular with ⟨memory', hends, hhost⟩
  exact ⟨1, last, hrun, memory', hends, hhost⟩

end Cuda
end Sparse
end AscCpp
