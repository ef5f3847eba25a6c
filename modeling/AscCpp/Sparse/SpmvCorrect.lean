import AscCpp.Sparse.VectorFamily

/-!
# SpmvCorrect — when the compatibility product completes, and with which values

A row is computed from the matrix and the input as memory holds them when the rows before it have
been written.

- `exec_spmvReference`: the product over an output that stores every row writes the rows in turn.
- `spmv_correct_iff`: when a validated product completes, and when the rows have the right values.
- `spmv_fails`: a validated product that stops the program, and one with a wrong row.
-/

namespace AscCpp
namespace Sparse

open AscCpp.Core Library Expression AscCpp.Dense

variable {Cell V : Type} [Ring V] [DecidableEq V] {type : Representation Cell V}

/-! ## What validation establishes -/

theorem byteSpansOverlap_disjoint {left right : ExpressionAliasMetadata} {leftSpan rightSpan : Block}
    (hleft : left.span = some leftSpan) (hright : right.span = some rightSpan)
    (h : Expression.byteSpansOverlap left right = false) : leftSpan.Disjoint rightSpan := by
  unfold Expression.byteSpansOverlap at h
  unfold Block.Disjoint
  simp only [hleft, hright] at h
  split at h
  · omega
  split at h
  · cases h
  split at h
  · cases h
  · have hapart := of_decide_eq_false h
    omega

theorem alias_span (terminal : ViewTerminal Cell V) :
    terminal.aliasMetadata.span = some terminal.valueSpan := by
  cases terminal <;> rfl

theorem disjoint_of_viewMayOverlap {terminal destination : ViewTerminal Cell V}
    (h : viewMayOverlap terminal destination.aliasMetadata = false) :
    terminal.valueSpan.Disjoint destination.valueSpan := by
  simp only [viewMayOverlap, ExpressionTree.mayOverlap, ExpressionTree.aliasMetadata,
    Bool.or_eq_false_iff] at h
  exact byteSpansOverlap_disjoint (alias_span terminal) (alias_span destination) h.1.2

/-- The structure of the matrix is asked about with its whole bytes. -/
theorem disjoint_of_matrixStructureMayOverlap {matrix : CompressedSparseView (Stored type) .csr}
    {destination : ViewTerminal Cell V}
    (h : matrixStructureMayOverlap matrix destination.aliasMetadata = false) :
    matrix.offsetSpan.Disjoint destination.valueSpan ∧
      matrix.indexSpan.Disjoint destination.valueSpan := by
  unfold matrixStructureMayOverlap at h
  rw [alias_span] at h
  split at h
  · rename_i hempty
    have hsize : destination.valueSpan.size = 0 := of_decide_eq_true hempty
    exact ⟨.inr (.inl hsize), .inr (.inl hsize)⟩
  split at h
  · rename_i count bytes hcount hbytes
    split at h
    · cases h
    rename_i offsetBytes hoffsetBytes
    rw [Bool.or_eq_false_iff] at h
    rcases Result.bind_eq_ok_iff.1 hcount with ⟨sum, hsum, hcast⟩
    have hcountEq : count = matrix.rows + 1 := by
      rw [(checkedCast_ok_eq hcast).1, checkedAdd_ok_eq hsum]
    have hoffsetSize : offsetBytes.toNat = (matrix.outerExtent + 1).toNat * indexSize := by
      have hvalue := checkedMultiply_ok_eq hoffsetBytes
      rw [hvalue, hcountEq]
      change ((matrix.outerExtent + 1) * ((indexSize : Nat) : Int)).toNat = _
      unfold indexSize
      omega
    have hindexSize : bytes.toNat = matrix.nonzeros * indexSize := by
      rw [checkedByteCount_ok_eq hbytes]
      unfold indexSize
      omega
    rw [hoffsetSize, hindexSize] at h
    exact ⟨byteSpansOverlap_disjoint rfl (alias_span destination) h.1,
      byteSpansOverlap_disjoint rfl (alias_span destination) h.2⟩
  · cases h

/-- What a validated product relies on. -/
structure Multiplies (matrix : CompressedSparseView (Stored type) .csr)
    (input output : VectorView type) : Prop where
  canonical : matrix.CanonicalArrays
  matrix_host : matrix.memorySpace = .host
  input_host : input.terminal.space = .host
  output_host : output.terminal.space = .host
  input_extent : input.extent = matrix.columns
  output_extent : output.extent = matrix.rows
  input_apart : input.terminal.valueSpan.Disjoint output.terminal.valueSpan
  matrix_apart : matrix.valueSpan.Disjoint output.terminal.valueSpan
  offsets_apart : matrix.offsetSpan.Disjoint output.terminal.valueSpan
  indices_apart : matrix.indexSpan.Disjoint output.terminal.valueSpan

theorem validateSpmv_multiplies {context : ExecutionContext}
    {matrix : CompressedSparseView (Stored type) .csr} {hmatrix : matrix.Checked}
    {input output : VectorView type}
    (h : validateSpmv context matrix hmatrix input output = .ok ()) :
    Multiplies matrix input output := by
  simp only [validateSpmv, Result.unit_bind_eq_ok_iff, Result.failIf_eq_ok_iff, not_or, not_not,
    Bool.not_eq_true, Bool.or_eq_false_iff] at h
  rcases h with ⟨-, -, -, -, ⟨hinput, houtput, hhost⟩, -, ⟨hcolumns, hrows⟩, ⟨hinputApart,
    hmatrixApart⟩, hstructureApart⟩
  have hstructure := disjoint_of_matrixStructureMayOverlap hstructureApart
  exact
    { canonical := hmatrix.canonical hhost
      matrix_host := hhost
      input_host := hinput
      output_host := houtput
      input_extent := hcolumns
      output_extent := hrows
      input_apart := disjoint_of_viewMayOverlap hinputApart
      matrix_apart := disjoint_of_viewMayOverlap hmatrixApart
      offsets_apart := hstructure.1
      indices_apart := hstructure.2 }

/-- The coordinates of a vector are apart from its values. -/
theorem VectorView.holds_congr {index : IndexRepresentation Cell} {vector : VectorView type}
    (hhost : vector.terminal.space = .host) {memory memory' : Nat → Cell}
    (h : ∀ block : Block, block.Disjoint vector.terminal.valueSpan →
      Core.AgreeOn block memory memory')
    (hholds : vector.Holds index memory) : vector.Holds index memory' := by
  cases vector with
  | dense view => trivial
  | coordinate view hview =>
    have hplaced : view.placed index memory = view := hholds
    have hapart : view.coordinateSpan.Disjoint view.valueSpan := by
      have hdisjoint := disjoint_of_byteSpansOverlap (hview.accepts hhost).apart
      rw [Nat.mul_one] at hdisjoint
      exact hdisjoint
    exact (CoordinateView.placed_congr (h _ hapart)).symm.trans hplaced

/-! ## Rows -/

section Rows

variable (index : IndexRepresentation Cell) (alpha : V)
  (matrix : CompressedSparseView (Stored type) .csr) (input : VectorView type) (beta : V)
  (output : VectorView type)

/-- A row of the matrix times the input. -/
def rowProduct (memory : Nat → Cell) (row : Nat) : V :=
  ∑ column : Fin matrix.columns.toNat,
    matrix.matrixValue memory row column.val * input.value index memory column.val

/-- What a row of the output is to become. -/
def rowResult (memory : Nat → Cell) (row : Nat) : V :=
  alpha * rowProduct index matrix input memory row + beta * output.value index memory row

/-- With the right values in the rows before it, no row changes its product. -/
def KeepsProducts (memory : Nat → Cell) : Prop :=
  ∀ row < matrix.rows.toNat,
    alpha * rowProduct index matrix input
        (storeInTurn type output.elementAddress
          (fun _ => rowResult index alpha matrix input beta output memory) row memory) row =
      alpha * rowProduct index matrix input memory row

/-- The input has no coordinates among the values of the output. -/
def CoordinatesApart : VectorView type → VectorView type → Prop
  | .dense _, _ => True
  | .coordinate view _, output => view.coordinateSpan.Disjoint output.terminal.valueSpan

variable {index alpha matrix input beta output} {memory : Nat → Cell}

/-- The inner loop adds up a row. -/
theorem exec_addProduct_loop (h : Multiplies matrix input output)
    (hplaced : matrix.placed index memory = matrix) {row : Nat} (hrow : row < matrix.rows.toNat) :
    Effect.exec ((List.range (matrix.outerOffsets.read (row + 1) -
        matrix.outerOffsets.read row).toNat).foldlM
      (fun product (step : Nat) =>
        addProduct index matrix input product (matrix.outerOffsets.read row + step)) 0) memory =
      some (.ok (rowProduct index matrix input memory row), memory) := by
  have houter : row < matrix.outerExtent.toNat := hrow
  have hnonneg := h.canonical.offset_nonneg houter.le
  have hmono := h.canonical.monotone row houter
  have hle : matrix.outerOffsets.read (row + 1) ≤ matrix.nonzeros :=
    h.canonical.offset_le houter
  -- One stored element: its value and the input at its column.
  have hround : ∀ step ∈ List.range (matrix.outerOffsets.read (row + 1) -
      matrix.outerOffsets.read row).toNat, ∀ product : V,
      Effect.exec (addProduct index matrix input product (matrix.outerOffsets.read row + step))
        memory = some (.ok (product +
          matrix.storedValue memory ((matrix.outerOffsets.read row).toNat + step) *
            input.value index memory (matrix.innerIndices.read
              ((matrix.outerOffsets.read row).toNat + step))), memory) := by
    intro step hstep product
    have hlt := List.mem_range.1 hstep
    have hposition : matrix.outerOffsets.read row + step =
        (((matrix.outerOffsets.read row).toNat + step : Nat) : Int) := by omega
    have hbound : (matrix.outerOffsets.read row).toNat + step < matrix.nonzeros := by omega
    have hindex := h.canonical.inRange row houter
      ((matrix.outerOffsets.read row).toNat + step) (by omega) (by omega)
    have hcolumns : matrix.innerExtent = input.extent := h.input_extent.symm
    have hread := @VectorView.read_eq_value _ _ _ _ _ index input h.input_host
      (matrix.innerIndices.read ((matrix.outerOffsets.read row).toNat + step)) hindex.1
      (by omega) memory
    rw [hposition, addProduct, Effect.exec_read_bind, hplaced,
      CompressedSparseView.innerIndex_ok h.matrix_host hbound,
      CompressedSparseView.elementAt_ok h.matrix_host hbound, Effect.ofResult_ok_bind,
      Effect.ofResult_ok_bind, hread, Effect.check_some_bind]
    rfl
  rw [Effect.exec_foldlM hround, foldl_add_eq_sum, zero_add]
  -- The elements of a row, summed by position, are summed by column.
  have hsum := h.canonical.sum_row memory
    (fun column => AddMonoidHom.mulRight (input.value index memory column)) ⟨row, hrow⟩
  rw [rowProduct]
  simp only [AddMonoidHom.coe_mulRight] at hsum
  rw [← hsum, List.range'_eq_map_range, List.map_map]
  have hlength : (matrix.outerOffsets.read (row + 1) - matrix.outerOffsets.read row).toNat =
      (matrix.outerOffsets.read (row + 1)).toNat - (matrix.outerOffsets.read row).toNat := by omega
  rw [hlength]
  rfl

/-- With zero for beta the output is not read, and its product is zero. -/
theorem exec_addOutput (h : Multiplies matrix input output) {row : Nat}
    (hrow : row < matrix.rows.toNat) (result : V) :
    Effect.exec (addOutput index beta output row result) memory =
      some (.ok (result + beta * output.value index memory row), memory) := by
  have hextent := h.output_extent
  have hread := @VectorView.read_eq_value _ _ _ _ _ index output h.output_host row
    (Int.natCast_nonneg row) (by omega) memory
  unfold addOutput
  by_cases hbeta : beta = 0
  · rw [if_neg (by simpa using hbeta), hbeta, zero_mul, add_zero]
    rfl
  · rw [if_pos hbeta, Effect.exec_read_bind, hread, Effect.check_some_bind]
    rfl

/-- Up to its write, a round computes the result of its row. -/
theorem exec_spmvRow (h : Multiplies matrix input output)
    (hplaced : matrix.placed index memory = matrix) {row : Nat} (hrow : row < matrix.rows.toNat) :
    Effect.exec (spmvRow index alpha matrix input beta output row) memory =
      Effect.exec
        (output.write index row (rowResult index alpha matrix input beta output memory row))
        memory := by
  have houter : row < matrix.outerExtent.toNat := hrow
  have hfirst := @CompressedSparseView.outerOffset_ok _ _ matrix h.matrix_host row (by omega)
  have hlast := @CompressedSparseView.outerOffset_ok _ _ matrix h.matrix_host (row + 1) (by omega)
  rw [Nat.cast_add, Nat.cast_one] at hlast
  rw [spmvRow, Effect.exec_read_bind, hplaced, hfirst, hlast, Effect.ofResult_ok_bind,
    Effect.ofResult_ok_bind, Effect.exec_bind, exec_addProduct_loop h hplaced hrow,
    Option.bind_some]
  simp only [Effect.exec_bind, exec_addOutput h hrow, Option.bind_some, rowResult]

/-- The product over an output that stores every row. -/
theorem exec_spmvReference (h : Multiplies matrix input output)
    (hplaced : matrix.placed index memory = matrix) (hholds : output.Holds index memory)
    (hstores : output.StoresEveryRow) :
    Effect.exec (spmvReference index alpha matrix input beta output) memory =
      some (.ok (), storeInTurn type output.elementAddress
        (rowResult index alpha matrix input beta output) matrix.rows.toNat memory) := by
  have hextent := h.output_extent
  apply Effect.exec_forM_storeInTurn
  intro row hrow
  -- The rows that are written are apart from the structure.
  have hagree : ∀ block : Block, block.Disjoint output.terminal.valueSpan →
      AgreeOn block memory (storeInTurn type output.elementAddress
        (rowResult index alpha matrix input beta output) row memory) := by
    intro block hblock
    apply agreeOn_storeInTurn _ hblock
    intro other hother
    exact VectorView.element_inside hstores (by omega)
  have hplacedThen : matrix.placed index (storeInTurn type output.elementAddress
      (rowResult index alpha matrix input beta output) row memory) = matrix :=
    (CompressedSparseView.placed_congr (hagree _ h.offsets_apart)
      (hagree _ h.indices_apart)).symm.trans hplaced
  have hholdsThen := VectorView.holds_congr h.output_host hagree hholds
  rw [exec_spmvRow h hplacedThen hrow,
    VectorView.exec_write h.output_host hstores hholdsThen (by omega)]
  rfl

/-- With its coordinates apart from what is written, the input is the same in every row. -/
theorem keepsProducts_of_apart (h : Multiplies matrix input output)
    (hstores : output.StoresEveryRow) (hapart : CoordinatesApart input output) :
    KeepsProducts index alpha matrix input beta output memory := by
  intro row hrow
  have hextent := h.output_extent
  have hcolumns := h.input_extent
  have hagree : ∀ block : Block, block.Disjoint output.terminal.valueSpan →
      AgreeOn block memory (storeInTurn type output.elementAddress
        (fun _ => rowResult index alpha matrix input beta output memory) row memory) := by
    intro block hblock
    apply agreeOn_storeInTurn _ hblock
    intro other hother
    exact VectorView.element_inside hstores (by omega)
  have hinput : input.AgreeOn memory (storeInTurn type output.elementAddress
      (fun _ => rowResult index alpha matrix input beta output memory) row memory) := by
    refine ⟨hagree _ h.input_apart, ?_⟩
    cases input with
    | dense view => trivial
    | coordinate view hview => exact hagree _ hapart
  have hvalues := hagree _ h.matrix_apart
  congr 1
  apply Fintype.sum_congr
  intro column
  have hcolumn := column.isLt
  have hread := @VectorView.read_congr _ _ _ _ _ index input _ _ h.input_host column.val
    (Int.natCast_nonneg _) (by omega) hinput
  rw [VectorView.value, VectorView.value, hread]
  rw [CompressedSparseView.matrixValue, CompressedSparseView.matrixValue,
    h.canonical.matrixEntries_congr hvalues]

end Rows

/-! ## Outcomes -/

section Outcomes

variable {index : IndexRepresentation Cell} {context : ExecutionContext} {alpha : V}
  {matrix : CompressedSparseView (Stored type) .csr} {hmatrix : matrix.Checked}
  {input : VectorView type} {beta : V} {output : VectorView type} {memory : Nat → Cell}

/-- The call completes, and every row of the output has the value of the product. -/
def SpmvCorrect (index : IndexRepresentation Cell) (context : ExecutionContext) (alpha : V)
    (matrix : CompressedSparseView (Stored type) .csr) (hmatrix : matrix.Checked)
    (input : VectorView type) (beta : V) (output : VectorView type) (memory : Nat → Cell) : Prop :=
  ∃ memory', Effect.exec (spmv index context alpha matrix hmatrix input beta output) memory =
      some (.ok (), memory') ∧
    ∀ row < matrix.rows.toNat, output.read index memory' row =
      some (rowResult index alpha matrix input beta output memory row)

/-- A validated product into a vector with an unstored row stops the program. -/
theorem exec_spmv_unstored (hvalid : validateSpmv context matrix hmatrix input output = .ok ())
    (hplaced : matrix.placed index memory = matrix) (hholds : output.Holds index memory)
    (hstores : ¬ output.StoresEveryRow) :
    Effect.exec (spmv index context alpha matrix hmatrix input beta output) memory = none := by
  have h := validateSpmv_multiplies hvalid
  cases output with
  | dense view => exact absurd trivial hstores
  | coordinate view hview =>
    rcases VectorView.exists_unstored hview h.output_host hstores with ⟨row, hrow, hunstored⟩
    have hextent : view.extents.get 0 = matrix.rows := h.output_extent
    have hmem : row ∈ List.range matrix.rows.toNat := List.mem_range.2 (by omega)
    have hapart : view.coordinateSpan.Disjoint view.valueSpan := by
      have hdisjoint := disjoint_of_byteSpansOverlap (hview.accepts h.output_host).apart
      rw [Nat.mul_one] at hdisjoint
      exact hdisjoint
    -- The rounds keep the structure of the matrix and of the output, as long as they end.
    have hround : ∀ item ∈ List.range matrix.rows.toNat, ∀ before result after,
        (matrix.placed index before = matrix ∧ view.placed index before = view) →
        Effect.exec (spmvRow index alpha matrix input beta (.coordinate view hview) item) before =
          some (result, after) →
        result = .ok () ∧ matrix.placed index after = matrix ∧ view.placed index after = view := by
      rintro item hitem before result after ⟨hmatrixBefore, hviewBefore⟩ hrun
      rw [exec_spmvRow h hmatrixBefore (List.mem_range.1 hitem), VectorView.write,
        Effect.exec_read_bind, hviewBefore] at hrun
      rcases VectorView.exec_write_some h.output_host hrun with ⟨hresult, hagree⟩
      exact ⟨hresult,
        (CompressedSparseView.placed_congr (hagree _ h.offsets_apart)
          (hagree _ h.indices_apart)).symm.trans hmatrixBefore,
        (CoordinateView.placed_congr (hagree _ hapart)).symm.trans hviewBefore⟩
    rw [spmv, hvalid, Effect.ofResult_ok_bind]
    by_contra hends
    rcases Option.ne_none_iff_exists'.1 hends with ⟨⟨result, last⟩, hrun⟩
    have hresult := (Effect.exec_forM_ok _ hround ⟨hplaced, hholds⟩ hrun).1
    rw [hresult] at hrun
    -- The round of the unstored row cannot have come to an end.
    rcases Effect.exec_forM_ok_mem _ (fun item hitem before after hbefore hitemRun =>
      (hround item hitem before _ after hbefore hitemRun).2) ⟨hplaced, hholds⟩ hrun hmem with
      ⟨before, after, ⟨hmatrixBefore, hviewBefore⟩, hrowRun⟩
    rw [exec_spmvRow h hmatrixBefore (List.mem_range.1 hmem), VectorView.write,
      Effect.exec_read_bind, hviewBefore,
      VectorView.write_unstored h.output_host hunstored] at hrowRun
    cases hrowRun

/-- A validated product into a vector that stores every row ends with the rows stored in turn. -/
theorem exec_spmv (hvalid : validateSpmv context matrix hmatrix input output = .ok ())
    (hplaced : matrix.placed index memory = matrix) (hholds : output.Holds index memory)
    (hstores : output.StoresEveryRow) :
    Effect.exec (spmv index context alpha matrix hmatrix input beta output) memory =
      some (.ok (), storeInTurn type output.elementAddress
        (rowResult index alpha matrix input beta output) matrix.rows.toNat memory) := by
  rw [spmv, hvalid, Effect.ofResult_ok_bind]
  exact exec_spmvReference (validateSpmv_multiplies hvalid) hplaced hholds hstores

/-- When every row is stored, the rows have the right values exactly when the right values in the
rows before it leave every row its product. -/
theorem spmv_correct_of_stores (hvalid : validateSpmv context matrix hmatrix input output = .ok ())
    (hplaced : matrix.placed index memory = matrix) (hholds : output.Holds index memory)
    (hstores : output.StoresEveryRow) :
    SpmvCorrect index context alpha matrix hmatrix input beta output memory ↔
      KeepsProducts index alpha matrix input beta output memory := by
  have h := validateSpmv_multiplies hvalid
  have hextent := h.output_extent
  have hrun := @exec_spmv _ _ _ _ _ index context alpha _ hmatrix input beta _ memory hvalid hplaced
    hholds hstores
  have hapart : Apart type output.elementAddress matrix.rows.toNat := by
    rw [← hextent]
    exact output.elements_apart
  -- The memory behind the loop, and every row of it.
  have hlast : output.Holds index (storeInTurn type output.elementAddress
      (rowResult index alpha matrix input beta output) matrix.rows.toNat memory) := by
    refine VectorView.holds_congr h.output_host (fun block hblock => ?_) hholds
    apply agreeOn_storeInTurn _ hblock
    intro other hother
    exact VectorView.element_inside hstores (by omega)
  have hvalues := @storeInTurn_values_iff _ _ _ _ (rowResult index alpha matrix input beta output) _
    memory hapart (rowResult index alpha matrix input beta output memory)
  calc
    SpmvCorrect index context alpha matrix hmatrix input beta output memory ↔
        ∀ row < matrix.rows.toNat, type.load (storeInTurn type output.elementAddress
          (rowResult index alpha matrix input beta output) matrix.rows.toNat memory)
            (output.elementAddress row) =
          rowResult index alpha matrix input beta output memory row := by
      unfold SpmvCorrect
      rw [hrun]
      constructor
      · rintro ⟨_, heq, hrows⟩ row hrow
        cases heq
        have hread := hrows row hrow
        rw [VectorView.read_element h.output_host hstores hlast (by omega)] at hread
        exact Option.some.inj hread
      · intro hrows
        refine ⟨_, rfl, fun row hrow => ?_⟩
        rw [VectorView.read_element h.output_host hstores hlast (by omega), hrows row hrow]
    _ ↔ _ := hvalues
    _ ↔ KeepsProducts index alpha matrix input beta output memory := by
      refine forall_congr' fun row => imp_congr_right fun hrow => ?_
      -- The row of the output itself is as before when its turn comes.
      have hold : output.value index (storeInTurn type output.elementAddress
          (fun _ => rowResult index alpha matrix input beta output memory) row memory) row =
            output.value index memory row := by
        have hholdsThen : output.Holds index (storeInTurn type output.elementAddress
            (fun _ => rowResult index alpha matrix input beta output memory) row memory) := by
          refine VectorView.holds_congr h.output_host (fun block hblock => ?_) hholds
          apply agreeOn_storeInTurn _ hblock
          intro other hother
          exact VectorView.element_inside hstores (by omega)
        rw [VectorView.value, VectorView.value,
          VectorView.read_element h.output_host hstores hholdsThen (by omega),
          VectorView.read_element h.output_host hstores hholds (by omega),
          load_storeInTurn_later (Nat.le_refl row) (hapart.mono hrow)]
      rw [rowResult, hold, rowResult]
      exact add_left_inj _

/-- A validated product completes exactly when its output stores every row; it then has the right
values exactly when no row that it writes changes what a later row reads of the input, as in every
product without coordinates of the input among the values of the output. -/
theorem spmv_correct_iff (hvalid : validateSpmv context matrix hmatrix input output = .ok ())
    (hplaced : matrix.placed index memory = matrix) (hholds : output.Holds index memory) :
    ((∃ memory', Effect.exec (spmv index context alpha matrix hmatrix input beta output) memory =
        some (.ok (), memory')) ↔ output.StoresEveryRow) ∧
      (SpmvCorrect index context alpha matrix hmatrix input beta output memory ↔
        output.StoresEveryRow ∧ KeepsProducts index alpha matrix input beta output memory) ∧
      (output.StoresEveryRow → CoordinatesApart input output →
        KeepsProducts index alpha matrix input beta output memory) := by
  have hends : (∃ memory', Effect.exec
      (spmv index context alpha matrix hmatrix input beta output) memory =
        some (.ok (), memory')) → output.StoresEveryRow := by
    rintro ⟨memory', hrun⟩
    by_contra hstores
    rw [exec_spmv_unstored hvalid hplaced hholds hstores] at hrun
    cases hrun
  refine ⟨⟨hends, fun hstores => ⟨_, exec_spmv hvalid hplaced hholds hstores⟩⟩, ?_,
    fun hstores hapart => keepsProducts_of_apart (validateSpmv_multiplies hvalid) hstores hapart⟩
  constructor
  · rintro ⟨memory', hrun, hrows⟩
    have hstores := hends ⟨memory', hrun⟩
    exact ⟨hstores, (spmv_correct_of_stores hvalid hplaced hholds hstores).1
      ⟨memory', hrun, hrows⟩⟩
  · rintro ⟨hstores, hkeeps⟩
    exact (spmv_correct_of_stores hvalid hplaced hholds hstores).2 hkeeps

end Outcomes

/-! ## Three rows -/

/-- The numbers of the samples. -/
abbrev sampleNumber : Representation Int Int := .uniform Int 8 8 Representation.eight_pos

/-- Indices that share their cells with the numbers. -/
def sampleIndex : IndexRepresentation Int where
  toRepresentation := sampleNumber
  size_eq := rfl

/-- A column of three values. -/
def sampleColumn : CompressedSparseView (Stored sampleNumber) .csr :=
  .ofHost .csr ⟨1000, [0, 1, 2, 3]⟩ ⟨1100, [0, 0, 0]⟩ ⟨1200, []⟩ (3 ::ᵥ 1 ::ᵥ List.Vector.nil) 3

/-- A vector with its one row stored, at a coordinate that can stand anywhere. -/
def sampleSingle (coordinates : Nat) : CoordinateView (Stored sampleNumber) 1 :=
  .ofHost ⟨coordinates, [0 ::ᵥ List.Vector.nil]⟩ ⟨400, []⟩ (1 ::ᵥ List.Vector.nil) 1

/-- A vector with all three rows stored. -/
def sampleFull : CoordinateView (Stored sampleNumber) 1 :=
  .ofHost ⟨600, [0 ::ᵥ List.Vector.nil, 1 ::ᵥ List.Vector.nil, 2 ::ᵥ List.Vector.nil]⟩ ⟨700, []⟩
    (3 ::ᵥ List.Vector.nil) 3

/-- A vector without its second row. -/
def sampleGap : CoordinateView (Stored sampleNumber) 1 :=
  .ofHost ⟨800, [0 ::ᵥ List.Vector.nil, 2 ::ᵥ List.Vector.nil]⟩ ⟨900, []⟩
    (3 ::ᵥ List.Vector.nil) 2

/-- The structures of the samples, a column of ones and the number five. -/
def sampleCells (cell : Nat) : Int :=
  if 1200 ≤ cell then 1
  else if cell = 400 then 5
  else if cell = 608 ∨ cell = 1008 then 1
  else if cell = 616 ∨ cell = 808 ∨ cell = 1016 then 2
  else if cell = 1024 then 3
  else 0

theorem sampleStrides_nonneg (index : Fin 1) :
    0 ≤ ((1 ::ᵥ List.Vector.nil : List.Vector Int 1)).get index :=
  match index with
  | 0 => Int.one_nonneg

/-- Three rows at an address. -/
def sampleRows : DenseView sampleNumber 1 where
  data := 80
  mapping :=
    { extents := 3 ::ᵥ List.Vector.nil
      strides := 1 ::ᵥ List.Vector.nil
      logicalSize := 3
      requiredSpanSize := 3
      unique := true
      exhaustive := true
      kind := .right
      strides_nonneg := sampleStrides_nonneg
      logical := by decide
      span := by decide
      unique_eq := by decide
      exhaustive_eq := by decide }
  memorySpace := .host
  data_ne _ := by decide
  unique := rfl
  bytes := ⟨24, by decide⟩

theorem sampleColumn_checked : sampleColumn.Checked := by
  rfl

theorem sampleSingle_checked : (sampleSingle 500).Checked := by
  rfl

theorem sampleInside_checked : (sampleSingle 88).Checked := by
  rfl

theorem sampleFull_checked : sampleFull.Checked := by
  rfl

theorem sampleGap_checked : sampleGap.Checked := by
  rfl

/-- A column of three ones times five, plus three times what was there. -/
theorem spmv_correct_full :
    SpmvCorrect sampleIndex .serial 1 sampleColumn sampleColumn_checked
      (.coordinate (sampleSingle 500) sampleSingle_checked) 3
      (.coordinate sampleFull sampleFull_checked) sampleCells := by
  have h := @spmv_correct_iff _ _ _ _ _ sampleIndex .serial 1 sampleColumn sampleColumn_checked
    (.coordinate (sampleSingle 500) sampleSingle_checked) 3
    (.coordinate sampleFull sampleFull_checked) sampleCells (by rfl) (by rfl) (by rfl)
  exact h.2.1.2 ⟨rfl, h.2.2 rfl (.inr (.inr (.inl (by decide))))⟩

/-- What the input with its coordinate among the rows is read as. -/
theorem value_sampleInside (memory : Nat → Int) :
    (VectorView.coordinate (sampleSingle 88) sampleInside_checked).value sampleIndex memory 0 =
      if memory 88 = 0 then memory 400 else 0 := by
  have hsorted : StrictlyKeySorted
      (((sampleSingle 88).placed sampleIndex memory).load memory).entries :=
    List.pairwise_singleton _ _
  have hrange : InRange ⟨[0], rfl⟩
      (((sampleSingle 88).placed sampleIndex memory).load memory).extents := by
    exact inRange_single.2 ⟨le_rfl, Int.one_pos⟩
  have hvalue : ∀ value : Int,
      (((sampleSingle 88).placed sampleIndex memory).load memory).lookup ⟨[0], rfl⟩ = .ok value →
      (VectorView.coordinate (sampleSingle 88) sampleInside_checked).value sampleIndex memory 0 =
        value := by
    intro value hlookup
    have hread : ((sampleSingle 88).placed sampleIndex memory).read memory [0] =
        ((((sampleSingle 88).placed sampleIndex memory).load memory).lookup
          ⟨[0], rfl⟩).toOption :=
      CoordinateView.read_eq_lookup memory ⟨[0], rfl⟩
    rw [hlookup] at hread
    exact congrArg (fun read : Option Int => read.getD 0) hread
  apply hvalue
  by_cases hzero : memory 88 = 0
  · rw [if_pos hzero]
    apply CoordinateView.lookup_of_mem rfl hrange hsorted
    have hcoordinate : (⟨[0], rfl⟩ : Coordinate 1) = ⟨[memory 88], rfl⟩ := by
      rw [hzero]
    rw [hcoordinate]
    exact List.mem_singleton.2 rfl
  · rw [if_neg hzero]
    apply CoordinateView.lookup_of_not_mem rfl hrange hsorted
    intro hmem
    have hcoordinate := congrArg List.Vector.toList (List.mem_singleton.1 hmem)
    exact hzero (List.cons.inj hcoordinate).1.symm

/-- A row of the column times the input with its coordinate among the rows. -/
theorem rowProduct_sampleInside (memory : Nat → Int) {row : Nat} (hrow : row < 3) :
    rowProduct sampleIndex sampleColumn (.coordinate (sampleSingle 88) sampleInside_checked)
        memory row =
      memory (1200 + row * 8) * if memory 88 = 0 then memory 400 else 0 := by
  have hentry : sampleColumn.matrixValue memory row 0 = memory (1200 + row * 8) + 0 := by
    rcases row with _ | _ | _ | row
    · rfl
    · rfl
    · rfl
    · omega
  rw [rowProduct]
  change ∑ column : Fin 1, sampleColumn.matrixValue memory row column.val *
    (VectorView.coordinate (sampleSingle 88) sampleInside_checked).value sampleIndex memory
      column.val = _
  rw [Fin.sum_univ_one]
  change sampleColumn.matrixValue memory row 0 * (VectorView.coordinate (sampleSingle 88)
    sampleInside_checked).value sampleIndex memory 0 = _
  rw [hentry, add_zero, value_sampleInside]

/-- Validated products: one stops the program at a row that is not stored, and one replaces the
coordinate of its input by the five that it writes into the second row, so that the third row does
not become five. -/
theorem spmv_fails :
    (validateSpmv .serial sampleColumn sampleColumn_checked
        (.coordinate (sampleSingle 500) sampleSingle_checked)
        (.coordinate sampleGap sampleGap_checked) = .ok () ∧
      Effect.exec (spmv sampleIndex .serial 1 sampleColumn sampleColumn_checked
        (.coordinate (sampleSingle 500) sampleSingle_checked) 0
        (.coordinate sampleGap sampleGap_checked)) sampleCells = none) ∧
      validateSpmv .serial sampleColumn sampleColumn_checked
        (.coordinate (sampleSingle 88) sampleInside_checked) (.dense sampleRows) = .ok () ∧
      ¬ SpmvCorrect sampleIndex .serial 1 sampleColumn sampleColumn_checked
        (.coordinate (sampleSingle 88) sampleInside_checked) 0 (.dense sampleRows) sampleCells := by
  have hvalid : validateSpmv .serial sampleColumn sampleColumn_checked
      (.coordinate (sampleSingle 88) sampleInside_checked) (.dense sampleRows) = .ok () := by rfl
  have hgap : ¬ (VectorView.coordinate sampleGap sampleGap_checked).StoresEveryRow := by
    change ¬ ((2 : Nat) : Int) = 3
    decide
  refine ⟨⟨by rfl, exec_spmv_unstored (by rfl) (by rfl) (by rfl) hgap⟩, hvalid, ?_⟩
  intro hcorrect
  have hkeeps := (@spmv_correct_of_stores _ _ _ _ _ sampleIndex .serial 1 sampleColumn
    sampleColumn_checked (.coordinate (sampleSingle 88) sampleInside_checked) 0 (.dense sampleRows)
    sampleCells hvalid (by rfl) trivial trivial).1 hcorrect 2 (by decide)
  -- The second row, which is five, stands where the coordinate was.
  have hfive : rowResult sampleIndex 1 sampleColumn
      (.coordinate (sampleSingle 88) sampleInside_checked) 0 (.dense sampleRows) sampleCells 1 =
        5 := by
    rw [rowResult, rowProduct_sampleInside _ (by decide), zero_mul]
    decide
  have hwritten : storeInTurn sampleNumber (VectorView.dense sampleRows).elementAddress
      (fun _ => rowResult sampleIndex 1 sampleColumn
        (.coordinate (sampleSingle 88) sampleInside_checked) 0 (.dense sampleRows) sampleCells)
      2 sampleCells 88 = 5 := hfive
  rw [rowProduct_sampleInside _ (by decide), rowProduct_sampleInside _ (by decide), hwritten,
    if_neg (by decide), mul_zero, mul_zero] at hkeeps
  exact absurd hkeeps (by decide)

end Sparse
end AscCpp
