import AscCpp.Core.Memory
import AscCpp.Library.Ledger

/-!
# Ownership — buffers and the blocks that they own

A resource is known by its address, and what it answers is given with each request: it may be any
address, also a null pointer, a block for an empty request or one that is not aligned.  The calls
that a resource receives make up a ledger.

- `OwningBuffer.allocate_balanced`, `OwningBuffer.release_balanced`: an allocation and a reset leave
  the ledger in balance with what is owned.
-/

namespace AscCpp
namespace Core

open Library

/-- A block that a resource has granted, with the request. -/
structure GrantedBlock where
  resource : Nat
  address : Nat
  bytes : Nat
  alignment : Nat
  deriving DecidableEq, Repr

def GrantedBlock.block (granted : GrantedBlock) : Block :=
  ⟨granted.address, granted.bytes⟩

/-- A `Buffer`, whose resource is known by its address. -/
structure OwningBuffer where
  resource : Option Nat := none
  data : Nat := 0
  size : Nat := 0
  alignment : Nat := 0
  deriving DecidableEq, Repr

namespace OwningBuffer

def valid (buffer : OwningBuffer) : Bool :=
  buffer.resource.isSome

/-- What a move or a reset leaves behind. -/
def moved : OwningBuffer := {}

def blocks (buffer : OwningBuffer) : List GrantedBlock :=
  match buffer.resource with
  | some resource =>
    if buffer.data ≠ 0 then [⟨resource, buffer.data, buffer.size, buffer.alignment⟩] else []
  | none => []

/-- The block that a buffer owns, if there is one. -/
def owned (buffer : OwningBuffer) : Multiset GrantedBlock :=
  buffer.blocks

/-- What `Reset` tells the resource; `moved` is what it leaves. -/
def release (buffer : OwningBuffer) : List (LedgerEntry GrantedBlock) :=
  buffer.blocks.map .returned

/-- `Buffer::Allocate`, and the calls that it makes of the resource. -/
def allocate (resource bytes alignment : Nat) (answer : Result Nat) :
    Result OwningBuffer × List (LedgerEntry GrantedBlock) :=
  if !isPowerOfTwo alignment then
    (.error
      { code := .invalidArgument
        message := "Buffer alignment must be a nonzero power of two" }, [])
  else
    match answer with
    | .error status => (.error status, [])
    | .ok allocation =>
      let granted : GrantedBlock := ⟨resource, allocation, bytes, alignment⟩
      if bytes ≠ 0 ∧ allocation = 0 then
        (.error
          { code := .allocation
            message := "MemoryResource returned null for a nonzero allocation" }, [])
      -- A block that the caller cannot use is given back before the error.
      else if bytes = 0 ∧ allocation ≠ 0 then
        (.error
          { code := .internal
            message := "MemoryResource allocated storage for a zero-byte request" },
          [.granted granted, .returned granted])
      else if allocation ≠ 0 ∧ allocation % alignment ≠ 0 then
        (.error
          { code := .allocation
            message := "MemoryResource returned a misaligned allocation" },
          [.granted granted, .returned granted])
      else
        (.ok ⟨some resource, allocation, bytes, alignment⟩,
          if allocation = 0 then [] else [.granted granted])

/-- The buffer of a result. -/
def ofResult : Result OwningBuffer → OwningBuffer
  | .ok buffer => buffer
  | .error _ => moved

@[simp] theorem owned_moved : moved.owned = 0 := rfl

@[simp] theorem release_moved : moved.release = [] := rfl

theorem owned_null {buffer : OwningBuffer} (h : buffer.data = 0) : buffer.owned = 0 := by
  unfold owned blocks
  cases buffer.resource with
  | none => rfl
  | some resource => simp [h]

/-- A reset gives back what was owned. -/
theorem release_balanced {buffer : OwningBuffer} {ledger : List (LedgerEntry GrantedBlock)}
    {rest : Multiset GrantedBlock} (h : Balanced ledger (buffer.owned + rest)) :
    Balanced (ledger ++ buffer.release) rest := by
  unfold owned at h
  unfold release
  rcases hblocks : buffer.blocks with _ | ⟨block, _ | ⟨second, others⟩⟩
  · rw [hblocks] at h
    simpa using h
  · rw [hblocks] at h
    apply Balanced.giveBack
    simpa using h
  · -- A buffer owns no more than one block.
    unfold blocks at hblocks
    split at hblocks
    · split at hblocks <;> simp at hblocks
    · simp at hblocks

/-- What an allocation that fails obtains, it gives back; one that succeeds owns it. -/
theorem allocate_balanced (resource bytes alignment : Nat) (answer : Result Nat)
    {ledger : List (LedgerEntry GrantedBlock)} {rest : Multiset GrantedBlock}
    (h : Balanced ledger rest) :
    Balanced (ledger ++ (allocate resource bytes alignment answer).2)
      ((ofResult (allocate resource bytes alignment answer).1).owned + rest) := by
  -- The branches differ in what they record: nothing, a block that goes back, or one that stays.
  have hnothing : Balanced (ledger ++ []) (moved.owned + rest) := by
    simpa using h
  have hback : ∀ granted : GrantedBlock,
      Balanced (ledger ++ [.granted granted, .returned granted]) (moved.owned + rest) := by
    intro granted
    have hgranted := (h.grant granted).giveBack
    simpa using hgranted
  unfold allocate
  split
  · exact hnothing
  cases answer with
  | error status => exact hnothing
  | ok allocation =>
    dsimp only
    split
    · exact hnothing
    split
    · exact hback _
    split
    · exact hback _
    by_cases hnull : allocation = 0
    · rw [if_pos hnull, ofResult, owned_null hnull]
      simpa using h
    · have howned : (ofResult (.ok ⟨some resource, allocation, bytes, alignment⟩)).owned =
          {⟨resource, allocation, bytes, alignment⟩} := by
        simp [ofResult, owned, blocks, hnull]
      rw [if_neg hnull, howned]
      simpa using h.grant ⟨resource, allocation, bytes, alignment⟩

/-- What the checks establish: the resource and the request, a null pointer exactly when nothing was
requested. -/
theorem allocate_ok {resource bytes alignment : Nat} {answer : Result Nat} {buffer : OwningBuffer}
    (h : (allocate resource bytes alignment answer).1 = .ok buffer) :
    buffer.resource = some resource ∧ buffer.size = bytes ∧ buffer.alignment = alignment ∧
      (buffer.data = 0 ↔ bytes = 0) ∧ buffer.data % alignment = 0 := by
  unfold allocate at h
  split at h
  · cases h
  cases answer with
  | error status => cases h
  | ok allocation =>
    dsimp only at h
    split at h
    · cases h
    split at h
    · cases h
    split at h
    · cases h
    rename_i hnull hempty haligned
    cases h
    refine ⟨rfl, rfl, rfl, by dsimp only; omega, ?_⟩
    by_cases hzero : allocation = 0
    · simp [hzero]
    · exact not_not.1 fun hmisaligned => haligned ⟨hzero, hmisaligned⟩

end OwningBuffer

end Core
end AscCpp
