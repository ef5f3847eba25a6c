import AscCpp.Core.Cuda.Kernel
import AscCpp.Sparse.Blas.Product
import AscCpp.Sparse.Cuda.Arithmetic
import AscCpp.Sparse.Cuda.Operands

/-!
# ProductKernels — the kernels of `CudaSpmv` and `CudaSpmm`

Where the loops of the host scatter the stored entries, a thread of a kernel gathers: it adds up one
element of the output, over the stored entries of its row or, with a transposition, over searches in
all the rows.

- `exec_csrOpValue`: the search finds the value of the transformed matrix.
- `exec_rowSum`: what a thread adds up.
- `Rows.Adds.ends`: what the threads of both kernels leave, however they interleave.
-/

namespace AscCpp
namespace Sparse
namespace Cuda

open AscCpp.Core AscCpp.Core.Cuda Library Program Blas

variable {Cell V : Type} {type : LocalRepresentation Cell V}
  {matrix : CompressedSparseView (Stored type.toRepresentation) .csr}

/-! ## Device functions -/

/-- The address of a stored value. -/
def valueAt (matrix : CompressedSparseView (Stored type.toRepresentation) .csr) (position : Nat) :
    Nat :=
  matrix.values.address + position * type.size

/-- The positions from the offset of a row to the next one. -/
def rowPositions (matrix : CompressedSparseView (Stored type.toRepresentation) .csr) (row : Nat) :
    List Nat :=
  List.range' (matrix.outerOffsets.read row).toNat
    ((matrix.outerOffsets.read (row + 1)).toNat - (matrix.outerOffsets.read row).toNat)

theorem mem_rowPositions {row position : Nat} (hmem : position ∈ rowPositions matrix row) :
    (matrix.outerOffsets.read row).toNat ≤ position ∧
      position < (matrix.outerOffsets.read (row + 1)).toNat := by
  have hrange := List.mem_range'_1.1 hmem
  omega

/-- No index comes twice in a row. -/
theorem rowPositions_nodup (h : matrix.CanonicalArrays) {row : Nat} (hrow : row < matrix.rows.toNat) :
    ((rowPositions matrix row).map matrix.innerIndices.read).Nodup := by
  refine List.Nodup.map_on (fun position hposition later hlater heq => ?_) List.nodup_range'
  rcases mem_rowPositions hposition with ⟨hfirst, hlast⟩
  rcases mem_rowPositions hlater with ⟨hfirst', hlast'⟩
  have hslot := h.position hrow hfirst hlast
  have hslot' := h.position hrow hfirst' hlast'
  rcases lt_trichotomy position later with hlt | hsame | hgt
  · exact absurd heq (h.increasing row hrow _ _ hslot.1 hlt hslot'.2).ne
  · exact hsame
  · exact absurd heq (h.increasing row hrow _ _ hslot'.1 hgt hslot.2).ne'

section Device

variable [DeviceArithmetic V]

/-- The loop of `CsrOpValue`, which stops at the first match. -/
def findValue (matrix : CompressedSparseView (Stored type.toRepresentation) .csr)
    (sourceColumn : Int) : List Nat → Program (Nat → Cell) V
  | [] => pure DeviceArithmetic.zero
  | position :: positions =>
    if matrix.innerIndices.read position = sourceColumn then
      load type.toRepresentation (valueAt matrix position)
    else
      findValue matrix sourceColumn positions

def csrOpValue (matrix : CompressedSparseView (Stored type.toRepresentation) .csr)
    (transposition : SparseBlasTranspose) (row column : Nat) : Program (Nat → Cell) V := do
  let exchanged := transposition ≠ .none
  let sourceRow := if exchanged then column else row
  let sourceColumn := if exchanged then row else column
  let result ← findValue matrix sourceColumn (rowPositions matrix sourceRow)
  pure (if transposition = .conjugateTranspose then DeviceArithmetic.conjugate result else result)

/-- What a thread adds up for a row of the output; the elements of the input stand at addresses. -/
def rowSum (matrix : CompressedSparseView (Stored type.toRepresentation) .csr)
    (transposition : SparseBlasTranspose) (innerExtent : Nat) (address : Int → Nat) (row : Nat) :
    Program (Nat → Cell) V :=
  if transposition = .none then
    (rowPositions matrix row).foldlM
      (fun sum position => do
        let value ← load type.toRepresentation (valueAt matrix position)
        let factor ← load type.toRepresentation (address (matrix.innerIndices.read position))
        pure (DeviceArithmetic.add sum (DeviceArithmetic.multiply value factor)))
      DeviceArithmetic.zero
  else
    (List.range innerExtent).foldlM
      (fun sum (inner : Nat) => do
        let value ← csrOpValue matrix transposition row inner
        let factor ← load type.toRepresentation (address inner)
        pure (DeviceArithmetic.add sum (DeviceArithmetic.multiply value factor)))
      DeviceArithmetic.zero

/-- `destination = destination + alpha * sum`. -/
def addRow (matrix : CompressedSparseView (Stored type.toRepresentation) .csr)
    (transposition : SparseBlasTranspose) (alpha : V) (innerExtent : Nat) (address : Int → Nat)
    (destination row : Nat) : Program (Nat → Cell) Unit := do
  let sum ← rowSum matrix transposition innerExtent address row
  let value ← load type.toRepresentation destination
  store type.toRepresentation destination
    (DeviceArithmetic.add value (DeviceArithmetic.multiply alpha sum))

end Device

/-! ## The search -/

section Search

variable [CommRing V] [StarRing V] [DeviceArithmetic V] [LawfulDeviceArithmetic V]
  {memory : Nat → Cell}

/-- The first match is the only one, so that it is the sum of all matches. -/
theorem exec_findValue {positions : List Nat} {sourceColumn : Int}
    (hnodup : (positions.map matrix.innerIndices.read).Nodup) :
    (findValue matrix sourceColumn positions).exec memory =
      ((positions.map fun position =>
        if matrix.innerIndices.read position = sourceColumn then matrix.storedValue memory position
        else 0).sum, memory) := by
  induction positions with
  | nil => exact congrArg (fun value => (value, memory)) LawfulDeviceArithmetic.zero_eq
  | cons position positions ih =>
    rw [List.map_cons, List.nodup_cons] at hnodup
    rw [findValue, List.map_cons, List.sum_cons]
    by_cases hmatch : matrix.innerIndices.read position = sourceColumn
    · rw [if_pos hmatch, if_pos hmatch, exec_load, List.sum_eq_zero, add_zero]
      · rfl
      · intro value hvalue
        rcases List.mem_map.1 hvalue with ⟨other, hother, rfl⟩
        refine if_neg fun heq => hnodup.1 ?_
        rw [hmatch, ← heq]
        exact List.mem_map_of_mem hother
    · rw [if_neg hmatch, if_neg hmatch, zero_add]
      exact ih hnodup.2

theorem exec_csrOpValue_of {transposition : SparseBlasTranspose} {row column : Nat} {value : V}
    (h : (findValue matrix ((if transposition ≠ .none then row else column : Nat) : Int)
      (rowPositions matrix (if transposition ≠ .none then column else row))).exec memory =
        (value, memory)) :
    (csrOpValue matrix transposition row column).exec memory =
      (maybeConjugate value (transposition = .conjugateTranspose), memory) := by
  rw [csrOpValue, exec_bind, h, conjugate_eq_maybeConjugate]
  rfl

variable [DecidableEq V]

omit [StarRing V] [DeviceArithmetic V] [LawfulDeviceArithmetic V] in
/-- The matches of a column in a row add up to the value of the matrix. -/
theorem sum_matches (h : matrix.CanonicalArrays) {row column : Nat} (hrow : row < matrix.rows.toNat)
    (hcolumn : column < matrix.columns.toNat) :
    ((rowPositions matrix row).map fun position =>
        if matrix.innerIndices.read position = column then matrix.storedValue memory position
        else 0).sum = matrix.matrixValue memory row column := by
  let weight : Int → V →+ V := fun other => if other = column then AddMonoidHom.id V else 0
  have hsum := h.sum_row memory weight ⟨row, hrow⟩
  have hterms : ∀ position, weight (matrix.innerIndices.read position)
      (matrix.storedValue memory position) =
        if matrix.innerIndices.read position = column then matrix.storedValue memory position
        else 0 := by
    intro position
    simp only [weight]
    split <;> rfl
  simp only [hterms] at hsum
  refine hsum.trans ?_
  rw [Fintype.sum_eq_single ⟨column, hcolumn⟩]
  · simp only [weight, if_true, AddMonoidHom.id_apply]
  · intro other hother
    have hne : ((other.val : Nat) : Int) ≠ column := fun heq =>
      hother (Fin.ext (Int.ofNat.inj heq))
    simp only [weight, if_neg hne, AddMonoidHom.zero_apply]

/-- The search finds the value of the transformed matrix. -/
theorem exec_csrOpValue (h : matrix.CanonicalArrays) {transposition : SparseBlasTranspose}
    {row column : Nat} (hrow : row < (outputExtent matrix transposition).toNat)
    (hcolumn : column < (inputExtent matrix transposition).toNat) :
    (csrOpValue matrix transposition row column).exec memory =
      (transformedValue matrix memory transposition row column, memory) := by
  have hsearch : ∀ {sourceRow sourceColumn : Nat}, sourceRow < matrix.rows.toNat →
      sourceColumn < matrix.columns.toNat →
      (findValue matrix sourceColumn (rowPositions matrix sourceRow)).exec memory =
        (matrix.matrixValue memory sourceRow sourceColumn, memory) := by
    intro sourceRow sourceColumn hsourceRow hsourceColumn
    rw [exec_findValue (rowPositions_nodup h hsourceRow), sum_matches h hsourceRow hsourceColumn]
  cases transposition with
  | none => exact exec_csrOpValue_of (hsearch hrow hcolumn)
  | transpose => exact exec_csrOpValue_of (hsearch hcolumn hrow)
  | conjugateTranspose => exact exec_csrOpValue_of (hsearch hcolumn hrow)

/-- What a thread adds up is a row of the transformed matrix times the input. -/
theorem exec_rowSum (h : matrix.CanonicalArrays) {transposition : SparseBlasTranspose}
    {innerExtent : Nat}
    (hinner : transposition ≠ .none → innerExtent = (inputExtent matrix transposition).toNat)
    (address : Int → Nat) {row : Nat} (hrow : row < (outputExtent matrix transposition).toNat) :
    (rowSum matrix transposition innerExtent address row).exec memory =
      (∑ inner : Fin (inputExtent matrix transposition).toNat,
        transformedValue matrix memory transposition row inner.val *
          type.load memory (address inner.val), memory) := by
  unfold rowSum
  simp only [LawfulDeviceArithmetic.zero_eq, LawfulDeviceArithmetic.add_eq,
    LawfulDeviceArithmetic.multiply_eq]
  by_cases hnone : transposition = .none
  · subst hnone
    rw [if_pos rfl]
    have hloop := @exec_foldlM (Nat → Cell) Nat V (rowPositions matrix row)
      (fun sum position => do
        let value ← load type.toRepresentation (valueAt matrix position)
        let factor ← load type.toRepresentation (address (matrix.innerIndices.read position))
        pure (sum + value * factor))
      (fun sum position => sum + matrix.storedValue memory position *
        type.load memory (address (matrix.innerIndices.read position))) memory
      (fun _ _ _ => rfl) 0
    rw [foldl_add_eq_sum, zero_add] at hloop
    have hsum := h.sum_row memory
      (fun column => AddMonoidHom.mulRight (type.load memory (address column))) ⟨row, hrow⟩
    simp only [AddMonoidHom.coe_mulRight] at hsum
    exact hloop.trans (congrArg (fun sum => (sum, memory)) hsum)
  · rw [if_neg hnone, hinner hnone]
    have hloop := @exec_foldlM (Nat → Cell) Nat V
      (List.range (inputExtent matrix transposition).toNat)
      (fun sum inner => do
        let value ← csrOpValue matrix transposition row inner
        let factor ← load type.toRepresentation (address inner)
        pure (sum + value * factor))
      (fun sum inner => sum + transformedValue matrix memory transposition row inner *
        type.load memory (address inner)) memory
      (fun inner hinner sum => by
        rw [exec_bind, exec_csrOpValue h hrow (List.mem_range.1 hinner)]
        rfl) 0
    rw [foldl_add_eq_sum, zero_add] at hloop
    refine hloop.trans (congrArg (fun sum => (sum, memory)) ?_)
    exact Finset.sum_range fun inner : Nat =>
      transformedValue matrix memory transposition row inner * type.load memory (address inner)

end Search

/-! ## Footprints -/

section Footprints

variable {reads : Set Nat}

/-- The cells of the stored values may be read. -/
def ReadsValues (matrix : CompressedSparseView (Stored type.toRepresentation) .csr)
    (reads : Set Nat) : Prop :=
  ∀ position < matrix.nonzeros, elementCells type.toRepresentation (valueAt matrix position) ⊆ reads

theorem readsValues_of_disjoint {ι : Type} {family : ElementFamily type.toRepresentation ι}
    {span : Block}
    (hinside : ∀ item, span.address ≤ family.address item ∧
      family.address item + type.size ≤ span.address + span.size)
    (hapart : matrix.valueSpan.Disjoint span) : ReadsValues matrix family.outsideCells := by
  intro position hposition
  have hle := Nat.mul_le_mul_right type.size (Nat.succ_le_of_lt hposition)
  rw [Nat.succ_mul] at hle
  apply elementCells_subset_outside_of_disjoint hinside hapart
  · exact Nat.le_add_right matrix.values.address (position * type.size)
  · have hend : matrix.values.address + position * type.size + type.size ≤
        matrix.values.address + matrix.nonzeros * type.size := by omega
    exact hend

theorem ReadsValues.row (hreads : ReadsValues matrix reads) (h : matrix.CanonicalArrays) {row : Nat}
    (hrow : row < matrix.rows.toNat) : ∀ position ∈ rowPositions matrix row,
      elementCells type.toRepresentation (valueAt matrix position) ⊆ reads := fun position hmem =>
  hreads position (h.position_lt hrow (mem_rowPositions hmem).2)

variable [DeviceArithmetic V]

theorem within_findValue {sourceColumn : Int} {positions : List Nat}
    (h : ∀ position ∈ positions,
      elementCells type.toRepresentation (valueAt matrix position) ⊆ reads) :
    (findValue matrix sourceColumn positions).Within reads ∅ := by
  induction positions with
  | nil => exact within_pure _
  | cons position positions ih =>
    rw [List.forall_mem_cons] at h
    unfold findValue
    split
    · exact within_load _ (h.1.trans Set.subset_union_left)
    · exact ih h.2

theorem within_csrOpValue (hreads : ReadsValues matrix reads) (h : matrix.CanonicalArrays)
    {transposition : SparseBlasTranspose} {row column : Nat}
    (hrow : row < (outputExtent matrix transposition).toNat)
    (hcolumn : column < (inputExtent matrix transposition).toNat) :
    (csrOpValue matrix transposition row column).Within reads ∅ := by
  refine Within.bind (within_findValue ?_) fun _ => within_pure _
  cases transposition with
  | none => exact hreads.row h hrow
  | transpose => exact hreads.row h hcolumn
  | conjugateTranspose => exact hreads.row h hcolumn

theorem within_rowSum (hreads : ReadsValues matrix reads) (h : matrix.CanonicalArrays)
    {transposition : SparseBlasTranspose} {innerExtent : Nat}
    (hinner : transposition ≠ .none → innerExtent = (inputExtent matrix transposition).toNat)
    {address : Int → Nat}
    (haddress : ∀ inner : Int, 0 ≤ inner → inner < inputExtent matrix transposition →
      elementCells type.toRepresentation (address inner) ⊆ reads) {row : Nat}
    (hrow : row < (outputExtent matrix transposition).toNat) :
    (rowSum matrix transposition innerExtent address row).Within reads ∅ := by
  unfold rowSum
  by_cases hnone : transposition = .none
  · subst hnone
    rw [if_pos rfl]
    refine Within.foldlM (fun sum position hmem => ?_) _
    have hindex := mem_rowPositions hmem
    have hslot := h.position hrow hindex.1 hindex.2
    have hrange := h.inRange row hrow position hslot.1 hslot.2
    refine Within.bind (within_load _ ((hreads.row h hrow position hmem).trans
      Set.subset_union_left)) fun value => ?_
    refine Within.bind (within_load _ ((haddress _ hrange.1 hrange.2).trans
      Set.subset_union_left)) fun factor => within_pure _
  · rw [if_neg hnone, hinner hnone]
    refine Within.foldlM (fun sum inner hmem => ?_) _
    have hlt := List.mem_range.1 hmem
    refine Within.bind (within_csrOpValue hreads h hrow hlt) fun value => ?_
    refine Within.bind (within_load _ ((haddress inner (by omega) (by omega)).trans
      Set.subset_union_left)) fun factor => within_pure _

end Footprints

/-! ## The loops -/

/-- Elements of a view that the threads of a kernel add rows to: at a position one element, with the
row that is added and the addresses of the input. -/
structure Rows (matrix : CompressedSparseView (Stored type.toRepresentation) .csr)
    (transposition : SparseBlasTranspose) {ι : Type}
    (family : ElementFamily type.toRepresentation ι) (count : Nat) where
  item : Fin count ≃ ι
  row : Fin count → Nat
  address : Fin count → Int → Nat
  row_lt : ∀ position, row position < (outputExtent matrix transposition).toNat
  reads : ReadsValues matrix family.outsideCells
  apart : ∀ position, ∀ inner : Int, 0 ≤ inner → inner < inputExtent matrix transposition →
    elementCells type.toRepresentation (address position inner) ⊆ family.outsideCells

namespace Rows

variable {transposition : SparseBlasTranspose} {ι : Type}
  {family : ElementFamily type.toRepresentation ι} {count innerExtent : Nat}
  (rows : Rows matrix transposition family count) {alpha : V} {memory : Nat → Cell}

/-- What a position adds, without the factor. -/
def product [CommRing V] [StarRing V] (memory : Nat → Cell) (position : Fin count) : V :=
  ∑ inner : Fin (inputExtent matrix transposition).toNat,
    transformedValue matrix memory transposition (rows.row position) inner.val *
      type.load memory (rows.address position inner.val)

/-- The threads of a kernel add the rows. -/
def Adds [DeviceArithmetic V] (alpha : V) (innerExtent : Nat) (body : Nat → Program (Nat → Cell) Unit) : Prop :=
  ∀ position : Fin count, body position.val =
    addRow matrix transposition alpha innerExtent (rows.address position)
      (family.address (rows.item position)) (rows.row position)

/-- The position that owns an element. -/
def owner (item : ι) : Nat :=
  (rows.item.symm item).val

variable {rows} {body : Nat → Program (Nat → Cell) Unit}

theorem Adds.within [DeviceArithmetic V] (h : rows.Adds alpha innerExtent body) (hcanonical : matrix.CanonicalArrays)
    (hinner : transposition ≠ .none → innerExtent = (inputExtent matrix transposition).toNat) :
    ∀ position < count,
      (body position).Within family.outsideCells (family.ownedCells rows.owner position) := by
  intro position hposition
  have howner : rows.owner (rows.item ⟨position, hposition⟩) = position :=
    congrArg Fin.val (rows.item.symm_apply_apply _)
  have hown := family.elementCells_subset_owned howner
  rw [h ⟨position, hposition⟩]
  refine Within.bind ?_ fun sum => ?_
  · exact (within_rowSum rows.reads hcanonical hinner (rows.apart _) (rows.row_lt _)).mono
      Set.subset_union_left (Set.empty_subset _)
  · refine Within.bind (within_load _ (hown.trans Set.subset_union_right)) fun value => ?_
    exact within_store type _ hown

variable [CommRing V] [StarRing V] [DecidableEq V] [DeviceArithmetic V] [LawfulDeviceArithmetic V]
  [DecidableEq ι]

/-- One position adds its product, also after others have added theirs. -/
theorem Adds.updates (h : rows.Adds alpha innerExtent body)
    (hcanonical : matrix.CanonicalArrays)
    (hinner : transposition ≠ .none → innerExtent = (inputExtent matrix transposition).toNat)
    (position : Fin count)
    {memory' : Nat → Cell} (huntouched : family.Untouched memory memory') :
    Updates family (body position.val)
      (fun values => Function.update values (rows.item position)
        (values (rows.item position) + alpha * rows.product memory position)) memory' := by
  have hsum : (rowSum matrix transposition innerExtent (rows.address position)
      (rows.row position)).exec memory = (rows.product memory position, memory) :=
    exec_rowSum hcanonical hinner (rows.address position) (rows.row_lt position)
  have hsame : ((rowSum matrix transposition innerExtent (rows.address position)
      (rows.row position)).exec memory').1 = rows.product memory position := by
    have hwithin := within_rowSum rows.reads hcanonical hinner (rows.apart position)
      (rows.row_lt position)
    rw [(exec_congr hwithin fun cell hcell => ?_).1, hsum]
    rcases hcell with houtside | hnone
    · exact huntouched cell houtside
    · exact absurd hnone (Set.notMem_empty cell)
  have hexec : (body position.val).exec memory' = ((),
      type.store memory' (family.address (rows.item position))
        (family.values memory' (rows.item position) + alpha * rows.product memory position)) := by
    have hreadOnly := exec_readOnly (within_rowSum rows.reads hcanonical hinner
      (rows.apart position) (rows.row_lt position)) memory'
    rw [h position, addRow, exec_bind, hsame, hreadOnly]
    simp only [LawfulDeviceArithmetic.add_eq, LawfulDeviceArithmetic.multiply_eq]
    rfl
  rw [Updates, hexec]
  exact updates_store (rows.item position) _ memory'

/-- However the threads interleave, every element gets its product. -/
theorem Adds.ends (h : rows.Adds alpha innerExtent body)
    (hcanonical : matrix.CanonicalArrays)
    (hinner : transposition ≠ .none → innerExtent = (inputExtent matrix transposition).toNat)
    (hpos : 0 < count)
    (hcount : count ≤ 2 ^ 63) (memory : Nat → Cell) :
    ∃ last, (Launch.loopUnless (DeviceArithmetic.isZero alpha = true) count body).EndsIn memory last ∧
      family.Untouched memory last ∧ ∀ position, family.values last (rows.item position) =
        family.values memory (rows.item position) + alpha * rows.product memory position := by
  refine ⟨_, Launch.loopUnless_ends (DeviceArithmetic.isZero alpha = true)
    (Launch.owned_ends hpos hcount (h.within hcanonical hinner) memory), ?_⟩
  by_cases hzero : DeviceArithmetic.isZero alpha = true
  · rw [if_pos hzero]
    refine ⟨.refl memory, fun position => ?_⟩
    rw [(LawfulDeviceArithmetic.isZero_iff alpha).1 hzero, zero_mul, add_zero]
  · rw [if_neg hzero, Program.forM_range]
    have hloop := @Program.exec_forM_family _ _ _ _ _ family (List.finRange count) _
      (fun values position => Function.update values (rows.item position)
        (values (rows.item position) + alpha * rows.product memory position)) memory memory
      (fun position (_ : position ∈ List.finRange count) memory' huntouched =>
        h.updates hcanonical hinner position huntouched) (ElementFamily.Untouched.refl memory)
    refine ⟨hloop.1, fun position => ?_⟩
    have hsweep : family.values ((forM (List.finRange count) fun position => body position.val :
        Program (Nat → Cell) Unit).exec memory).2 =
          sweep (fun item values => values item + alpha * rows.product memory (rows.item.symm item))
            ((List.finRange count).map rows.item) (family.values memory) := by
      rw [hloop.2, sweep, List.foldl_map]
      simp only [Equiv.symm_apply_apply]
    rw [hsweep, sweep_apply_of_local ((List.nodup_finRange count).map rows.item.injective)
      (fun item values values' hself => by rw [hself]) _
      (List.mem_map_of_mem (List.mem_finRange position)), Equiv.symm_apply_apply]

end Rows

end Cuda
end Sparse
end AscCpp
