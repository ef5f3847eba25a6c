import AscCpp.Core.Loop
import AscCpp.Library.Sweep
import AscCpp.Sparse.Blas.Indexed

/-!
# GatherScatter — moving values between an indexed vector and a dense one

The operations of level one of Sparse BLAS.  No index comes twice, so that every round of a loop has
an element of its own.

- `updates_of_local`: a loop whose rounds give every element a value from its old one.
- `scatter_updates`, `axpy_updates`, `gather_updates`, `gatherZero_exec`: what the loops leave.
- `indexed_vector_laws`: how the operations undo each other, and what they leave alone.
-/

namespace AscCpp
namespace Sparse
namespace Blas

open AscCpp.Core Library

variable {Cell V : Type} {indexType : Representation Cell Int} {type : Representation Cell V}

inductive SparseBlasConjugation where
  | unconjugated
  | conjugated
  deriving DecidableEq, Repr

/-! ## Operations -/

def validateHostIndexed (vector : SparseBlasIndexedVectorView indexType type) : Result Unit :=
  failIf (vector.memorySpace ≠ .host ∨ vector.canonicalStructureTrusted = false)
    { code := .memoryAccess
      message := "Sparse BLAS CPU indexed vectors require canonical host memory" }

/-- The checks of `SparseDot`. -/
def validateDot (context : ExecutionContext) (sparse : SparseBlasIndexedVectorView indexType type)
    (dense : SparseBlasVectorView type) : Result Unit := do
  validateSerial context
  validateHostIndexed sparse
  validateHostVector dense
  failIf (dense.size ≠ sparse.denseExtent)
    { code := .shape, message := "Sparse dot vector extents do not match" }

def sparseDot [CommRing V] [StarRing V] (context : ExecutionContext)
    (conjugation : SparseBlasConjugation)
    (sparse : SparseBlasIndexedVectorView indexType type) (dense : SparseBlasVectorView type)
    (memory : Nat → Cell) : Result V := do
  validateDot context sparse dense
  .ok ((List.range sparse.count).foldl
    (fun result position =>
      result + maybeConjugate (sparse.valueAt memory position) (conjugation = .conjugated) *
        dense.value memory (sparse.indexAt memory position)) 0)

/-- The checks of the operations that write to the dense vector. -/
def validateSpread (operation : String) (context : ExecutionContext)
    (sparse : SparseBlasIndexedVectorView indexType type) (dense : SparseBlasVectorView type) :
    Result Unit := do
  validateSerial context
  validateHostIndexed sparse
  validateHostVector dense
  failIf (dense.size ≠ sparse.denseExtent)
    { code := .shape, message := "Sparse " ++ operation ++ " vector extents do not match" }
  failIf
    ((overlap sparse.valueStorage dense.reachableStorage ||
      overlap sparse.indexStorage dense.reachableStorage) = true)
    { code := .invalidArgument, message := "Sparse " ++ operation ++ " writable operands overlap" }

/-- The checks of the operations that write to the indexed vector. -/
def validateCollect (operation : String) (context : ExecutionContext)
    (dense : SparseBlasVectorView type) (sparse : SparseBlasIndexedVectorView indexType type) :
    Result Unit := do
  validateSerial context
  validateHostVector dense
  validateHostIndexed sparse
  failIf (dense.size ≠ sparse.denseExtent)
    { code := .shape, message := "Sparse " ++ operation ++ " vector extents do not match" }
  failIf
    ((overlap dense.reachableStorage sparse.valueStorage ||
      overlap dense.reachableStorage sparse.indexStorage) = true)
    { code := .invalidArgument, message := "Sparse " ++ operation ++ " writable operands overlap" }

def sparseAxpy [CommRing V] [DecidableEq V] (context : ExecutionContext) (alpha : V)
    (sparse : SparseBlasIndexedVectorView indexType type) (dense : SparseBlasVectorView type) :
    Effect (Nat → Cell) Unit := do
  Effect.ofResult (validateSpread "axpy" context sparse dense)
  if alpha = 0 then
    pure ()
  else
    forM (List.range sparse.count) fun position => do
      let memory ← Effect.read
      Effect.store type (dense.vectorAt (sparse.indexAt memory position))
        (dense.value memory (sparse.indexAt memory position) +
          alpha * sparse.valueAt memory position)

def sparseGather (context : ExecutionContext) (dense : SparseBlasVectorView type)
    (sparse : SparseBlasIndexedVectorView indexType type) : Effect (Nat → Cell) Unit := do
  Effect.ofResult (validateCollect "gather" context dense sparse)
  forM (List.range sparse.count) fun position => do
    let memory ← Effect.read
    Effect.store type (sparse.elementAt position)
      (dense.value memory (sparse.indexAt memory position))

def sparseGatherZero [CommRing V] (context : ExecutionContext) (dense : SparseBlasVectorView type)
    (sparse : SparseBlasIndexedVectorView indexType type) : Effect (Nat → Cell) Unit := do
  Effect.ofResult (validateCollect "gather-zero" context dense sparse)
  forM (List.range sparse.count) fun position => do
    let memory ← Effect.read
    let value := dense.vectorAt (sparse.indexAt memory position)
    Effect.store type (sparse.elementAt position) (type.load memory value)
    Effect.store type value 0

def sparseScatter (context : ExecutionContext) (sparse : SparseBlasIndexedVectorView indexType type)
    (dense : SparseBlasVectorView type) : Effect (Nat → Cell) Unit := do
  Effect.ofResult (validateSpread "scatter" context sparse dense)
  forM (List.range sparse.count) fun position => do
    let memory ← Effect.read
    Effect.store type (dense.vectorAt (sparse.indexAt memory position))
      (sparse.valueAt memory position)

/-! ## What the operations leave -/

section Runs

variable {context : ExecutionContext} {sparse : SparseBlasIndexedVectorView indexType type}
  {dense : SparseBlasVectorView type} {start memory : Nat → Cell}

theorem validateSerial_ok (hserial : context.backend = .serial) : validateSerial context = .ok () := by
  rw [validateSerial, failIf, if_neg]
  simp [hserial, ExecutionContext.canAccess_host hserial]

namespace Accepted

variable (h : Accepted sparse dense start)

include h

theorem validateHostIndexed_ok : validateHostIndexed sparse = .ok () := by
  rw [validateHostIndexed, failIf, if_neg]
  simp [h.sparse_host, h.sound.trusted]

theorem validateHostVector_ok : validateHostVector dense = .ok () := by
  rw [validateHostVector, failIf, if_neg (not_not.2 h.dense_host)]

theorem validateSpread_ok (hserial : context.backend = .serial) (operation : String) :
    validateSpread operation context sparse dense = .ok () := by
  rw [validateSpread, validateSerial_ok hserial, h.validateHostIndexed_ok, h.validateHostVector_ok,
    failIf, if_neg (not_not.2 h.extents), failIf, h.values_apart, h.indices_apart]
  rfl

theorem validateCollect_ok (hserial : context.backend = .serial) (operation : String) :
    validateCollect operation context dense sparse = .ok () := by
  rw [validateCollect, validateSerial_ok hserial, h.validateHostIndexed_ok, h.validateHostVector_ok,
    failIf, if_neg (not_not.2 h.extents), failIf, overlap_comm _ sparse.valueStorage,
    overlap_comm _ sparse.indexStorage, h.values_apart, h.indices_apart]
  rfl

theorem validateDot_ok (hserial : context.backend = .serial) :
    validateDot context sparse dense = .ok () := by
  rw [validateDot, validateSerial_ok hserial, h.validateHostIndexed_ok, h.validateHostVector_ok,
    failIf, if_neg (not_not.2 h.extents)]
  rfl

/-- The rounds of a loop that writes to the dense vector find the indices and the values as they
were. -/
theorem spread_updates (value : Fin sparse.count → V → V) {body : Nat → Effect (Nat → Cell) Unit}
    (hagree : AgreeOn sparse.indexBlock start memory)
    (hbody : ∀ (position : Fin sparse.count) memory',
      AgreeOn sparse.indexBlock start memory' →
      sparse.stored.values memory' = sparse.stored.values memory →
        Effect.exec (body position) memory' =
          some (.ok (), type.store memory' (h.listed.address position)
            (value position (h.listed.values memory' position)))) :
    Effect.Updates h.listed (forM (List.range sparse.count) body)
      (fun values position => value position (values position)) memory := by
  apply Effect.updates_of_local value memory
  -- The indices and the values stay as they were, so each round reads what the first did.
  intro position memory' huntouched
  have hindices := h.agree_of_outside fun cell _ houtside => huntouched cell houtside
  exact hbody position memory'
    (fun cell hfirst hlast => (hagree cell hfirst hlast).trans (hindices cell hfirst hlast))
    (h.stored_values_of_listed huntouched)

theorem scatter_updates (hserial : context.backend = .serial)
    (hagree : AgreeOn sparse.indexBlock start memory) :
    Effect.Updates h.listed (sparseScatter context sparse dense)
      (fun _ => sparse.stored.values memory) memory := by
  unfold sparseScatter
  rw [h.validateSpread_ok hserial, Effect.ofResult_ok_bind]
  apply h.spread_updates (fun position _ => sparse.stored.values memory position) hagree
  intro position memory' hindices hvalues
  rw [Effect.exec_read_bind, Effect.exec_store, h.listed_address hindices, ← hvalues]
  rfl

theorem axpy_updates [CommRing V] [DecidableEq V] (hserial : context.backend = .serial) (alpha : V)
    (hagree : AgreeOn sparse.indexBlock start memory) :
    Effect.Updates h.listed (sparseAxpy context alpha sparse dense)
      (fun values position => values position + alpha * sparse.stored.values memory position)
      memory := by
  unfold sparseAxpy
  rw [h.validateSpread_ok hserial, Effect.ofResult_ok_bind]
  by_cases halpha : alpha = 0
  · rw [if_pos halpha]
    refine ⟨memory, rfl, .refl memory, ?_⟩
    funext position
    simp only [halpha, zero_mul, add_zero]
  · rw [if_neg halpha]
    apply h.spread_updates (fun position value => value + alpha * sparse.stored.values memory position)
      hagree
    intro position memory' hindices hvalues
    rw [Effect.exec_read_bind, Effect.exec_store, h.listed_values hindices,
      h.listed_address hindices, ← hvalues]
    rfl

theorem gather_updates (hserial : context.backend = .serial)
    (hagree : AgreeOn sparse.indexBlock start memory) :
    Effect.Updates sparse.stored (sparseGather context dense sparse)
      (fun _ => h.listed.values memory) memory := by
  unfold sparseGather
  rw [h.validateCollect_ok hserial, Effect.ofResult_ok_bind]
  apply Effect.updates_of_local (fun position _ => h.listed.values memory position) memory
  intro position memory' huntouched
  have hindices := h.agree_of_outside fun cell houtside _ => huntouched cell houtside
  have hagree' : AgreeOn sparse.indexBlock start memory' := fun cell hfirst hlast =>
    (hagree cell hfirst hlast).trans (hindices cell hfirst hlast)
  rw [Effect.exec_read_bind, Effect.exec_store, h.listed_values hagree',
    ← h.listed_values_of_stored huntouched]
  rfl

/-! ### Gathering and clearing -/

/-- The value at a position with the dense element at its index. -/
def pairs : ElementFamily type (Fin sparse.count × Bool) where
  address item := if item.2 then h.listed.address item.1 else sparse.stored.address item.1
  apart item other hne := by
    rcases item with ⟨position, _ | _⟩ <;> rcases other with ⟨position', _ | _⟩
    · exact sparse.stored.apart position position' fun heq => hne (heq ▸ rfl)
    · exact h.stored_apart position position'
    · exact (h.stored_apart position' position).symm
    · exact h.listed.apart position position' fun heq => hne (heq ▸ rfl)

theorem pairs_outside {cell : Nat} (hstored : sparse.stored.Outside cell)
    (hlisted : h.listed.Outside cell) : h.pairs.Outside cell := by
  rintro ⟨position, _ | _⟩
  · exact hstored position
  · exact hlisted position

theorem gatherZero_updates [CommRing V] (hserial : context.backend = .serial)
    (hagree : AgreeOn sparse.indexBlock start memory) :
    Effect.Updates h.pairs (sparseGatherZero context dense sparse)
      (fun values item => if item.2 then 0 else values (item.1, true)) memory := by
  unfold sparseGatherZero
  rw [h.validateCollect_ok hserial, Effect.ofResult_ok_bind, Effect.forM_range]
  -- A line is the stored value together with the listed element it came from.
  refine @Effect.exec_forM_lines _ _ _ _ _ _ h.pairs _ _
    (fun _ values place => if place then 0 else values true) memory (List.nodup_finRange _)
    List.mem_finRange fun position memory' huntouched => ?_
  have hindices := h.agree_of_outside fun cell hstored hlisted =>
    huntouched cell (h.pairs_outside hstored hlisted)
  have hagree' : AgreeOn sparse.indexBlock start memory' := fun cell hfirst hlast =>
    (hagree cell hfirst hlast).trans (hindices cell hfirst hlast)
  refine ⟨type.store (type.store memory' ((h.pairs.line position).address false)
    ((h.pairs.line position).values memory' true)) ((h.pairs.line position).address true) 0,
    ?_, ?_, ?_⟩
  · rw [Effect.exec_read_bind, h.listed_address hagree', Effect.exec_bind, Effect.exec_store]
    rfl
  · exact ((h.pairs.line position).untouched_store _ _ _).trans
      ((h.pairs.line position).untouched_store _ _ _)
  · rw [(h.pairs.line position).values_store, (h.pairs.line position).values_store]
    funext place
    cases place <;> simp [Function.update]

/-- A dot product adds up the products at the indices. -/
theorem sparseDot_eq [CommRing V] [StarRing V] (hserial : context.backend = .serial)
    (hagree : AgreeOn sparse.indexBlock start memory) (conjugation : SparseBlasConjugation) :
    sparseDot context conjugation sparse dense memory =
      .ok (∑ position : Fin sparse.count,
        maybeConjugate (sparse.stored.values memory position) (conjugation = .conjugated) *
          h.listed.values memory position) := by
  -- The loop is the sum over the positions.
  have hfold : ∀ (count : Nat) (f : Nat → V),
      (List.range count).foldl (fun result position => result + f position) 0 =
        ∑ position : Fin count, f position := by
    intro count f
    induction count with
    | zero => rfl
    | succ count ih =>
      rw [List.range_succ, List.foldl_append, ih, Fin.sum_univ_castSucc]
      rfl
  unfold sparseDot
  rw [h.validateDot_ok hserial, Result.ok_bind, hfold]
  apply congrArg Except.ok
  apply Finset.sum_congr rfl
  intro position _
  rw [h.listed_values hagree]
  rfl

/-! ### The dense vector -/

/-- Memories that differ in the values only, as far as the dense elements at the indices tell, have
the same dense elements. -/
theorem dense_value_eq {first last : Nat → Cell}
    (huntouched : ∀ cell, sparse.stored.Outside cell → h.listed.Outside cell →
      last cell = first cell)
    (hlisted : h.listed.values last = h.listed.values first) {index : Int} (hindex : 0 ≤ index)
    (hlast : index < dense.size) : dense.value last index = dense.value first index := by
  have hitem : ((⟨index.toNat, by omega⟩ : Fin dense.size.toNat).val : Int) = index :=
    Int.toNat_of_nonneg hindex
  -- An element at one of the indices is restored; no other was written.
  by_cases hsome : ∃ position, h.index position = ⟨index.toNat, by omega⟩
  · rcases hsome with ⟨position, hposition⟩
    have hvalue := congrFun hlisted position
    rw [← hitem, ← hposition]
    exact hvalue
  · -- The element is none of those at the indices.
    have hinside := (h.dense_checked.vectorAt_spec hindex hlast).2
    have hsize := type.size_pos
    apply type.load_congr
    intro cell hfirst hbehind
    apply huntouched cell
    · intro position
      have hcount : sparse.count ≠ 0 := by
        have := position.isLt
        omega
      have hstored := stored_inside sparse position
      have hvalues := h.sound.values_inside hcount
      have hapart := h.blocks_apart.1
      unfold Block.Disjoint SparseBlasVectorView.reachableStorage at hapart
      simp only [ConstMemoryView.block] at hapart hvalues
      omega
    · intro position
      have hapart := (dense.family h.dense_checked).apart (h.index position)
        ⟨index.toNat, by omega⟩ fun heq => hsome ⟨position, heq⟩
      have haddress : (dense.family h.dense_checked).address ⟨index.toNat, by omega⟩ =
          dense.vectorAt index := congrArg dense.vectorAt hitem
      rw [haddress] at hapart
      rcases hapart with hbefore | hafter
      · exact Or.inr (hbefore.trans hfirst)
      · exact Or.inl (hbehind.trans_le hafter)

/-- When a value determines the cells of its element, those at the indices are the same too. -/
theorem cell_eq {first last : Nat → Cell}
    (hdetermined : ∀ {memory memory' : Nat → Cell} {address : Nat},
      type.load memory address = type.load memory' address →
        ∀ cell, address ≤ cell → cell < address + type.size → memory cell = memory' cell)
    (huntouched : ∀ cell, sparse.stored.Outside cell → h.listed.Outside cell →
      last cell = first cell)
    (hlisted : h.listed.values last = h.listed.values first) {cell : Nat}
    (hcell : sparse.stored.Outside cell) : last cell = first cell := by
  by_cases houtside : h.listed.Outside cell
  · exact huntouched cell hcell houtside
  · unfold ElementFamily.Outside at houtside
    push Not at houtside
    rcases houtside with ⟨position, hfirst, hbehind⟩
    exact hdetermined (congrFun hlisted position) cell hfirst hbehind

end Accepted

end Runs

/-! ## The laws -/

section Laws

variable {context : ExecutionContext} {sparse target : SparseBlasIndexedVectorView indexType type}
  {dense : SparseBlasVectorView type} {start : Nat → Cell}

namespace Accepted

theorem agree_self (sparse : SparseBlasIndexedVectorView indexType type) (start : Nat → Cell) :
    AgreeOn sparse.indexBlock start start :=
  fun _ _ _ => rfl

variable (h : Accepted sparse dense start)

include h

theorem gatherZero_scatter [CommRing V] (hserial : context.backend = .serial) :
    ∃ middle last,
      Effect.exec (sparseGatherZero context dense sparse) start = some (.ok (), middle) ∧
      Effect.exec (sparseScatter context sparse dense) middle = some (.ok (), last) ∧
      (∀ cell, sparse.stored.Outside cell → h.listed.Outside cell →
        middle cell = start cell ∧ last cell = start cell) ∧
      h.listed.values last = h.listed.values start := by
  rcases h.gatherZero_updates hserial (agree_self sparse start) with
    ⟨middle, hgather, hmiddle, hvalues⟩
  have houtside : ∀ cell, sparse.stored.Outside cell → h.listed.Outside cell →
      middle cell = start cell := fun cell hstored hlisted =>
    hmiddle cell (h.pairs_outside hstored hlisted)
  rcases h.scatter_updates hserial (h.agree_of_outside houtside) with
    ⟨last, hscatter, hlast, hlisted⟩
  refine ⟨middle, last, hgather, hscatter, fun cell hstored hcell => ?_, ?_⟩
  · exact ⟨houtside cell hstored hcell, (hlast cell hcell).trans (houtside cell hstored hcell)⟩
  · rw [hlisted]
    funext position
    -- The scattered value is the gathered one.
    exact congrFun hvalues (position, false)

theorem scatter_gather (hserial : context.backend = .serial) (h' : Accepted target dense start)
    (hcount : target.count = sparse.count)
    (hindices : ∀ position < sparse.count,
      target.indexAt start position = sparse.indexAt start position) :
    ∃ middle last,
      Effect.exec (sparseScatter context sparse dense) start = some (.ok (), middle) ∧
      Effect.exec (sparseGather context dense target) middle = some (.ok (), last) ∧
      ∀ position < sparse.count, target.valueAt last position = sparse.valueAt start position := by
  -- Equal indices name the same elements of the dense vector.
  have haddress : ∀ (position : Fin sparse.count) (position' : Fin target.count),
      position.val = position'.val → h'.listed.address position' = h.listed.address position := by
    intro position position' heq
    rw [← h.listed_address (agree_self sparse start), ← h'.listed_address (agree_self target start),
      ← heq, hindices position position.isLt]
  rcases h.scatter_updates hserial (agree_self sparse start) with
    ⟨middle, hscatter, hmiddle, hlisted⟩
  have hagree : AgreeOn target.indexBlock start middle := by
    apply h'.agree_of_outside
    intro cell _ hcell
    apply hmiddle cell
    intro position
    rw [← haddress position ⟨position, hcount.symm ▸ position.isLt⟩ rfl]
    exact hcell _
  rcases h'.gather_updates hserial hagree with ⟨last, hgather, hlast, hstored⟩
  refine ⟨middle, last, hscatter, hgather, fun position hposition => ?_⟩
  calc target.valueAt last position
      = h'.listed.values middle ⟨position, hcount.symm ▸ hposition⟩ :=
        congrFun hstored ⟨position, hcount.symm ▸ hposition⟩
    _ = h.listed.values middle ⟨position, hposition⟩ :=
        congrArg (type.load middle) (haddress ⟨position, hposition⟩ _ rfl)
    _ = sparse.valueAt start position := congrFun hlisted ⟨position, hposition⟩

theorem axpy_axpy [CommRing V] [DecidableEq V] (hserial : context.backend = .serial) (alpha : V) :
    ∃ middle last,
      Effect.exec (sparseAxpy context alpha sparse dense) start = some (.ok (), middle) ∧
      Effect.exec (sparseAxpy context (-alpha) sparse dense) middle = some (.ok (), last) ∧
      h.listed.Untouched start middle ∧ h.listed.Untouched start last ∧
      h.listed.values last = h.listed.values start := by
  rcases h.axpy_updates hserial alpha (agree_self sparse start) with
    ⟨middle, hfirst, hmiddle, hadded⟩
  have hagree := h.agree_of_outside fun cell _ houtside => hmiddle cell houtside
  rcases h.axpy_updates hserial (-alpha) hagree with ⟨last, hsecond, hlast, hremoved⟩
  refine ⟨middle, last, hfirst, hsecond, hmiddle, hmiddle.trans hlast, ?_⟩
  funext position
  rw [hremoved, hadded, h.stored_values_of_listed hmiddle]
  ring

theorem scatter_dot [CommRing V] [StarRing V] (hserial : context.backend = .serial)
    (conjugation : SparseBlasConjugation) :
    ∃ middle, Effect.exec (sparseScatter context sparse dense) start = some (.ok (), middle) ∧
      h.listed.Untouched start middle ∧
      sparseDot context conjugation sparse dense middle =
        .ok (∑ position : Fin sparse.count,
          maybeConjugate (sparse.valueAt start position) (conjugation = .conjugated) *
            sparse.valueAt start position) := by
  rcases h.scatter_updates hserial (agree_self sparse start) with
    ⟨middle, hscatter, hmiddle, hlisted⟩
  have hagree := h.agree_of_outside fun cell _ houtside => hmiddle cell houtside
  refine ⟨middle, hscatter, hmiddle, ?_⟩
  rw [h.sparseDot_eq hserial hagree conjugation, hlisted, h.stored_values_of_listed hmiddle]
  rfl

end Accepted

/-- Gathering with clearing is undone by scattering, scattered values can be gathered, an update is
undone by the opposite one, and a dot product after scattering is one of the values with themselves.
No operation writes to anything but the values it collects and the elements at the indices. -/
theorem indexed_vector_laws [CommRing V] [StarRing V] [DecidableEq V]
    (hserial : context.backend = .serial) (h : Accepted sparse dense start) :
    (∃ middle last,
      Effect.exec (sparseGatherZero context dense sparse) start = some (.ok (), middle) ∧
      Effect.exec (sparseScatter context sparse dense) middle = some (.ok (), last) ∧
      (∀ index, 0 ≤ index → index < dense.size →
        dense.value last index = dense.value start index) ∧
      (∀ cell, sparse.stored.Outside cell → h.listed.Outside cell →
        middle cell = start cell ∧ last cell = start cell) ∧
      ((∀ {memory memory' : Nat → Cell} {address : Nat},
          type.load memory address = type.load memory' address →
            ∀ cell, address ≤ cell → cell < address + type.size → memory cell = memory' cell) →
        ∀ cell, sparse.stored.Outside cell → last cell = start cell)) ∧
    (∀ target : SparseBlasIndexedVectorView indexType type, Accepted target dense start →
      target.count = sparse.count →
      (∀ position < sparse.count,
        target.indexAt start position = sparse.indexAt start position) →
      ∃ middle last,
        Effect.exec (sparseScatter context sparse dense) start = some (.ok (), middle) ∧
        Effect.exec (sparseGather context dense target) middle = some (.ok (), last) ∧
        ∀ position < sparse.count, target.valueAt last position = sparse.valueAt start position) ∧
    (∀ alpha : V, ∃ middle last,
      Effect.exec (sparseAxpy context alpha sparse dense) start = some (.ok (), middle) ∧
      Effect.exec (sparseAxpy context (-alpha) sparse dense) middle = some (.ok (), last) ∧
      h.listed.Untouched start middle ∧ h.listed.Untouched start last ∧
      ∀ index, 0 ≤ index → index < dense.size →
        dense.value last index = dense.value start index) ∧
    (∀ conjugation, ∃ middle,
      Effect.exec (sparseScatter context sparse dense) start = some (.ok (), middle) ∧
      h.listed.Untouched start middle ∧
      sparseDot context conjugation sparse dense middle =
        .ok (∑ position : Fin sparse.count,
          maybeConjugate (sparse.valueAt start position) (conjugation = .conjugated) *
            sparse.valueAt start position)) ∧
    ∃ last, Effect.exec (sparseGather context dense sparse) start = some (.ok (), last) ∧
      sparse.stored.Untouched start last := by
  refine ⟨?_, fun target => h.scatter_gather hserial, fun alpha => ?_, h.scatter_dot hserial, ?_⟩
  · rcases h.gatherZero_scatter hserial with ⟨middle, last, hgather, hscatter, houtside, hlisted⟩
    have huntouched : ∀ cell, sparse.stored.Outside cell → h.listed.Outside cell →
        last cell = start cell := fun cell hstored hcell => (houtside cell hstored hcell).2
    refine ⟨middle, last, hgather, hscatter, fun index => h.dense_value_eq huntouched hlisted,
      houtside, fun hdetermined cell => ?_⟩
    exact h.cell_eq hdetermined huntouched hlisted
  · rcases h.axpy_axpy hserial alpha with
      ⟨middle, last, hfirst, hsecond, hmiddle, hlast, hlisted⟩
    exact ⟨middle, last, hfirst, hsecond, hmiddle, hlast, fun index =>
      h.dense_value_eq (fun cell _ houtside => hlast cell houtside) hlisted⟩
  · rcases h.gather_updates hserial (Accepted.agree_self sparse start) with
      ⟨last, hgather, hlast, -⟩
    exact ⟨last, hgather, hlast⟩

end Laws

/-! ### Two values for a vector of three elements -/

def sampleIndexed : SparseBlasIndexedVectorView (.uniform Int 8 8 Representation.eight_pos)
    (.uniform Int 8 8 Representation.eight_pos) where
  indices := 64
  values := 80
  nonzeros := 2
  denseExtent := 3
  indexStorage := ⟨64, 16, .host⟩
  valueStorage := ⟨80, 16, .host⟩
  canonicalStructureTrusted := true

/-- Every second element, backwards. -/
def sampleDense : SparseBlasVectorView (.uniform Int 8 8 Representation.eight_pos) where
  data := 40
  size := 3
  increment := -2
  backingStorage := ⟨8, 40, .host⟩
  reachableData := 8
  reachableSize := 40

/-- The indices zero and two; every other cell holds its own address. -/
def sampleCells (cell : Nat) : Int :=
  if cell = 64 then 0 else if cell = 72 then 2 else cell

theorem sampleIndexed_accepted : Accepted sampleIndexed sampleDense sampleCells where
  sparse_checked := rfl
  sparse_host := rfl
  dense_checked := rfl
  dense_host := rfl
  extents := rfl
  values_apart := rfl
  indices_apart := rfl

/-- Forty, twenty-four and eight are the elements, and eighty and eighty-eight the values. -/
theorem indexed_vector_laws_sample :
    (∃ middle last,
      Effect.exec (sparseGatherZero .serial sampleDense sampleIndexed) sampleCells =
        some (.ok (), middle) ∧
      Effect.exec (sparseScatter .serial sampleIndexed sampleDense) middle = some (.ok (), last) ∧
      sampleDense.value last 0 = 40 ∧ sampleDense.value last 1 = 24 ∧
      sampleDense.value last 2 = 8) ∧
    ∃ middle, Effect.exec (sparseScatter .serial sampleIndexed sampleDense) sampleCells =
        some (.ok (), middle) ∧
      sparseDot .serial .unconjugated sampleIndexed sampleDense middle =
        .ok (80 * 80 + 88 * 88) := by
  have hlaws := @indexed_vector_laws _ _ _ _ .serial _ _ _ _ _ _ rfl sampleIndexed_accepted
  constructor
  · rcases hlaws.1 with ⟨middle, last, hgather, hscatter, hvalue, -⟩
    exact ⟨middle, last, hgather, hscatter, hvalue 0 le_rfl (by decide),
      hvalue 1 (by decide) (by decide), hvalue 2 (by decide) (by decide)⟩
  · rcases hlaws.2.2.2.1 .unconjugated with ⟨middle, hscatter, -, hdot⟩
    refine ⟨middle, hscatter, hdot.trans (congrArg Except.ok ?_)⟩
    exact Fin.sum_univ_two fun position : Fin 2 =>
      maybeConjugate (sampleIndexed.valueAt sampleCells position) false *
        sampleIndexed.valueAt sampleCells position

end Blas
end Sparse
end AscCpp
