import AscCpp.Core.Ownership
import AscCpp.Dense.Subview

/-!
# Array — dense arrays and the buffers that they own

`DenseArray` owns a buffer for its mapping.  The values of the elements are left out; what the
resources are asked for and given back is kept.

- `createUninitializedWithMapping_ok`: an array owns as many bytes as its mapping spans.
- `discardResize_error`: a failed resize leaves the array as it is.
-/

namespace AscCpp
namespace Dense

open AscCpp.Core Library

structure OwningArray where
  rank : Nat
  elementSize : Nat
  elementAlignment : Nat
  resource : Option Nat
  buffer : OwningBuffer
  extents : Extents rank
  mapping : DenseLayout rank

/-- The layouts that an array can be created with. -/
inductive ArrayLayout where
  | left
  | right
  deriving DecidableEq, Repr

/-- The calls that an operation makes of the resources. -/
abbrev Calls := List (LedgerEntry GrantedBlock)

namespace OwningArray

def valid (array : OwningArray) : Bool :=
  array.buffer.valid

/-- `DenseLayout::Create` with the values of extents. -/
def createMapping {rank : Nat} (extents : Extents rank) : ArrayLayout → Result (DenseLayout rank)
  | .left => DenseLayout.createLeft extents.values
  | .right => DenseLayout.createRight extents.values

/-- `CreateUninitializedWithMapping`, with what the resource answers and the calls that it makes. -/
def createUninitializedWithMapping {rank : Nat} (resource elementSize elementAlignment : Nat)
    (extents : Extents rank) (mapping : DenseLayout rank) (answer : Result Nat) :
    Result OwningArray × Calls :=
  if !mapping.unique || !mapping.exhaustive then
    (.error
      { code := .invalidArgument
        message := "DenseArray ownership requires a unique exhaustive mapping" }, [])
  else if mapping.logicalSize ≠ extents.logicalSize then
    (.error
      { code := .shape
        message := "DenseArray extents and mapping logical sizes differ" }, [])
  else
    match checkedMultiply sizeType mapping.requiredSpanSize elementSize with
    | .error status => (.error status, [])
    | .ok bytes =>
      let allocated := OwningBuffer.allocate resource bytes.toNat elementAlignment answer
      (allocated.1.map fun buffer =>
        { rank := rank
          elementSize := elementSize
          elementAlignment := elementAlignment
          resource := some resource
          buffer := buffer
          extents := extents
          mapping := mapping }, allocated.2)

variable (space : Nat → MemorySpace)

/-- `CreateWithMapping`. -/
def createWithMapping {rank : Nat} (resource elementSize elementAlignment : Nat)
    (extents : Extents rank) (mapping : DenseLayout rank) (answer : Result Nat) :
    Result OwningArray × Calls :=
  if space resource ≠ .host then
    (.error
      { code := .unsupported, message := "DenseArray supports only host resources" }, [])
  else
    createUninitializedWithMapping resource elementSize elementAlignment extents mapping answer

/-- `Create`. -/
def create {rank : Nat} (resource elementSize elementAlignment : Nat) (extents : Extents rank)
    (layout : ArrayLayout) (answer : Result Nat) : Result OwningArray × Calls :=
  match createMapping extents layout with
  | .error status => (.error status, [])
  | .ok mapping => createWithMapping space resource elementSize elementAlignment extents mapping answer

/-- `CreateUninitialized`. -/
def createUninitialized {rank : Nat} (resource elementSize elementAlignment : Nat)
    (extents : Extents rank) (layout : ArrayLayout) (answer : Result Nat) :
    Result OwningArray × Calls :=
  match createMapping extents layout with
  | .error status => (.error status, [])
  | .ok mapping =>
    createUninitializedWithMapping resource elementSize elementAlignment extents mapping answer

/-- `Clone`; `copied` is what becomes of the copy of the bytes. -/
def clone (array : OwningArray) (resource : Nat) (context : ExecutionContext) (answer : Result Nat)
    (copied : Result Unit) : Result OwningArray × Calls :=
  match array.buffer.resource with
  | none =>
    (.error { code := .invalidState, message := "A moved-from DenseArray cannot be cloned" }, [])
  | some source =>
    if ¬ context.canAccess (space source) ∨ ¬ context.canAccess (space resource) then
      (.error
        { code := .memoryAccess
          message := "DenseArray clone storage is inaccessible to the context" }, [])
    else
      match createUninitializedWithMapping resource array.elementSize array.elementAlignment
          array.extents array.mapping answer with
      | (.error status, calls) => (.error status, calls)
      | (.ok clone, calls) =>
        match copied with
        | .error status => (.error status, calls ++ clone.buffer.release)
        | .ok () => (.ok clone, calls)

/-- `DiscardResize`, and the array that it leaves; without a layout it is that of the mapping. -/
def discardResize (array : OwningArray) (extents : Extents array.rank)
    (layout : Option ArrayLayout) (answer : Result Nat) : Result Unit × OwningArray × Calls :=
  match array.buffer.resource, array.resource with
  | some _, some resource =>
    let layout := layout.getD (if array.mapping.kind = .right then .right else .left)
    match create space resource array.elementSize array.elementAlignment extents layout answer with
    | (.error status, calls) => (.error status, array, calls)
    | (.ok replacement, calls) => (.ok (), replacement, calls ++ array.buffer.release)
  | _, _ =>
    (.error { code := .invalidState, message := "A moved-from DenseArray cannot be resized" },
      array, [])

/-- What a move leaves of an array: all but its buffer. -/
def movedFrom (array : OwningArray) : OwningArray :=
  { array with buffer := .moved }

/-! ## What an array owns -/

/-- A buffer without a resource owns nothing, and one with a resource is null when it is empty. -/
structure OwnsBuffer (buffer : OwningBuffer) : Prop where
  moved : buffer.resource = none → buffer = .moved
  null_iff : buffer.data = 0 ↔ buffer.size = 0

/-- A valid array owns the bytes of its mapping, of the resource that it was created with. -/
structure WellFormed (array : OwningArray) : Prop where
  buffer : OwnsBuffer array.buffer
  size_eq : array.valid → (array.buffer.size : Int) =
    array.mapping.requiredSpanSize * array.elementSize
  resource_eq : array.valid → array.buffer.resource = array.resource

theorem ownsBuffer_moved : OwnsBuffer .moved :=
  ⟨fun _ => rfl, Iff.rfl⟩

theorem movedFrom_wellFormed (array : OwningArray) : array.movedFrom.WellFormed :=
  ⟨ownsBuffer_moved, fun hvalid => absurd hvalid Bool.false_ne_true,
    fun hvalid => absurd hvalid Bool.false_ne_true⟩

theorem ownsBuffer_of_allocate {resource bytes alignment : Nat} {answer : Result Nat}
    {buffer : OwningBuffer}
    (h : (OwningBuffer.allocate resource bytes alignment answer).1 = .ok buffer) :
    OwnsBuffer buffer := by
  rcases OwningBuffer.allocate_ok h with ⟨hresource, hsize, -, hnull, -⟩
  refine ⟨fun hnone => ?_, by rw [hsize]; exact hnull⟩
  rw [hresource] at hnone
  cases hnone

/-- What a result owns. -/
def ownedBy : Result OwningArray → Multiset GrantedBlock
  | .ok array => array.buffer.owned
  | .error _ => 0

/-- Behind the calls of a creation, the ledger is in balance with what the new array owns. -/
def Creates (created : Result OwningArray × Calls) : Prop :=
  (∀ array, created.1 = .ok array → array.WellFormed) ∧
    ∀ {ledger : Calls} {rest : Multiset GrantedBlock}, Balanced ledger rest →
      Balanced (ledger ++ created.2) (ownedBy created.1 + rest)

theorem creates_error (status : Status) : Creates (.error status, []) := by
  refine ⟨fun _ h => (nomatch h), fun {ledger rest} h => ?_⟩
  simpa [ownedBy] using h

section Creation

variable {rank : Nat} {resource elementSize elementAlignment : Nat} {extents : Extents rank}
  {answer : Result Nat}

theorem createUninitializedWithMapping_creates (mapping : DenseLayout rank) :
    Creates (createUninitializedWithMapping resource elementSize elementAlignment extents mapping
      answer) := by
  unfold createUninitializedWithMapping
  split
  · exact creates_error _
  split
  · exact creates_error _
  cases hbytes : checkedMultiply sizeType mapping.requiredSpanSize elementSize with
  | error status => exact creates_error status
  | ok bytes =>
    dsimp only
    -- What the array owns when there is one, and the ledger in both cases.
    constructor
    · intro array harray
      cases hallocated : (OwningBuffer.allocate resource bytes.toNat elementAlignment answer).1 with
      | error status =>
        rw [hallocated] at harray
        cases harray
      | ok buffer =>
        rw [hallocated] at harray
        cases harray
        rcases OwningBuffer.allocate_ok hallocated with ⟨hresource, hsize, -⟩
        refine ⟨ownsBuffer_of_allocate hallocated, fun _ => ?_, fun _ => hresource⟩
        have hproduct := checkedMultiply_ok_eq hbytes
        have hnonneg : 0 ≤ bytes := by
          rw [hproduct]
          exact Int.mul_nonneg mapping.requiredSpanSize_nonneg (Int.natCast_nonneg _)
        calc ((buffer.size : Nat) : Int) = bytes := by rw [hsize, Int.toNat_of_nonneg hnonneg]
          _ = mapping.requiredSpanSize * elementSize := hproduct
    · intro ledger rest h
      have hbalanced := OwningBuffer.allocate_balanced resource bytes.toNat elementAlignment answer h
      cases hallocated : (OwningBuffer.allocate resource bytes.toNat elementAlignment answer).1 with
      | error status =>
        rw [hallocated] at hbalanced
        exact hbalanced
      | ok buffer =>
        rw [hallocated] at hbalanced
        exact hbalanced

theorem create_creates (layout : ArrayLayout) :
    Creates (create space resource elementSize elementAlignment extents layout answer) := by
  unfold create
  cases createMapping extents layout with
  | error status => exact creates_error status
  | ok mapping =>
    unfold createWithMapping
    dsimp only
    split
    · exact creates_error _
    · exact createUninitializedWithMapping_creates mapping

theorem createUninitialized_creates (layout : ArrayLayout) :
    Creates (createUninitialized resource elementSize elementAlignment extents layout answer) := by
  unfold createUninitialized
  cases createMapping extents layout with
  | error status => exact creates_error status
  | ok mapping => exact createUninitializedWithMapping_creates mapping

/-- A clone whose copy fails is given back. -/
theorem clone_creates (array : OwningArray) (context : ExecutionContext) (copied : Result Unit) :
    Creates (array.clone space resource context answer copied) := by
  unfold clone
  split
  · exact creates_error _
  split
  · exact creates_error _
  have hcreated := @createUninitializedWithMapping_creates _ resource array.elementSize
    array.elementAlignment array.extents answer array.mapping
  cases hrun : createUninitializedWithMapping resource array.elementSize array.elementAlignment
      array.extents array.mapping answer with
  | mk created calls =>
    rw [hrun] at hcreated
    cases created with
    | error status => exact hcreated
    | ok clone =>
      cases copied with
      | ok _ => exact hcreated
      | error status =>
        refine ⟨fun _ h => (nomatch h), fun {ledger rest} h => ?_⟩
        have hreleased := OwningBuffer.release_balanced (hcreated.2 h)
        simpa [ownedBy] using hreleased

end Creation

/-- A resize leaves what the array then owns; one that fails leaves the array as it is. -/
theorem discardResize_spec {array : OwningArray} (harray : array.WellFormed)
    (extents : Extents array.rank) (layout : Option ArrayLayout) (answer : Result Nat) :
    (array.discardResize space extents layout answer).2.1.WellFormed ∧
      (∀ {ledger : Calls} {rest : Multiset GrantedBlock},
        Balanced ledger (array.buffer.owned + rest) →
          Balanced (ledger ++ (array.discardResize space extents layout answer).2.2)
            ((array.discardResize space extents layout answer).2.1.buffer.owned + rest)) ∧
      ∀ status, (array.discardResize space extents layout answer).1 = .error status →
        (array.discardResize space extents layout answer).2.1 = array := by
  unfold discardResize
  split
  · rename_i resource _ _
    have hcreated := @create_creates space _ resource array.elementSize array.elementAlignment extents
      answer (layout.getD (if array.mapping.kind = .right then .right else .left))
    dsimp only
    cases hrun : create space resource array.elementSize array.elementAlignment extents
        (layout.getD (if array.mapping.kind = .right then .right else .left)) answer with
    | mk created calls =>
      rw [hrun] at hcreated
      cases created with
      | error status =>
        refine ⟨harray, fun {ledger rest} h => ?_, fun _ _ => rfl⟩
        simpa [ownedBy] using hcreated.2 h
      | ok replacement =>
        refine ⟨hcreated.1 replacement rfl, fun {ledger rest} h => ?_, fun _ h => by cases h⟩
        -- The new block is there before the old one is given back.
        have hboth := hcreated.2 h
        rw [add_left_comm] at hboth
        have hreleased := OwningBuffer.release_balanced hboth
        simpa [ownedBy, List.append_assoc] using hreleased
  · refine ⟨harray, fun {ledger rest} h => ?_, fun _ _ => rfl⟩
    simpa using h

end OwningArray

end Dense
end AscCpp
