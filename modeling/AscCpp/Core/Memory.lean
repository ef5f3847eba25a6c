import AscCpp.Core.Status
import Mathlib.Algebra.Group.Nat.Defs
import Mathlib.Tactic.Common

/-!
# Memory — memory spaces, resources, buffers and execution contexts

An address is a natural number, zero being the null pointer.  A `MemoryResource` is an interface of
the program: what an implementation answers may depend on the blocks that are live, and its two
laws are what every implementation of an allocator promises.

- `Buffer.allocate_spec`: what the checks of `Buffer::Allocate` establish about the block.
- `MemoryResource.Serves`: a list of requests that the resource grants one after the other.
-/

namespace AscCpp
namespace Core

/-! ## Memory spaces and blocks -/

inductive MemorySpace where
  | host
  | pinnedHost
  | device
  | managed
  deriving DecidableEq, Repr

def uintptrMax : Nat := 2 ^ 64 - 1

/-- A block of memory: the address of its first byte and its size in bytes. -/
structure Block where
  address : Nat
  size : Nat
  deriving DecidableEq, Repr

namespace Block

/-- No byte belongs to both blocks. -/
def Disjoint (left right : Block) : Prop :=
  left.size = 0 ∨ right.size = 0 ∨ left.address + left.size ≤ right.address ∨
    right.address + right.size ≤ left.address

theorem Disjoint.symm {left right : Block} (h : left.Disjoint right) : right.Disjoint left := by
  unfold Disjoint at *
  omega

/-- Parts of disjoint blocks that begin where the blocks begin are disjoint. -/
theorem Disjoint.shrink {left right : Block} (h : left.Disjoint right) {leftSize rightSize : Nat}
    (hleft : leftSize ≤ left.size) (hright : rightSize ≤ right.size) :
    Disjoint ⟨left.address, leftSize⟩ ⟨right.address, rightSize⟩ := by
  unfold Disjoint at *
  simp only
  omega

end Block

/-- A view of bytes. -/
structure ConstMemoryView where
  data : Nat
  size : Nat
  space : MemorySpace
  deriving DecidableEq, Repr

namespace ConstMemoryView

def valid (view : ConstMemoryView) : Bool :=
  view.size == 0 || view.data != 0

def block (view : ConstMemoryView) : Block :=
  ⟨view.data, view.size⟩

end ConstMemoryView

/-- A pointer to typed storage: its address and the cells behind it. -/
structure Pointer (α : Type) where
  address : Nat
  cells : List α

namespace Pointer

variable {α : Type} [Inhabited α]

/-- The cell at an index. -/
def read (pointer : Pointer α) (index : Nat) : α :=
  pointer.cells.getD index default

theorem read_eq (pointer : Pointer α) {index : Nat} (h : index < pointer.cells.length) :
    pointer.read index = pointer.cells[index] := by
  simp [read, h]

/-- The cell at an index, refused outside the cells. -/
def checkedRead (pointer : Pointer α) (index : Int) : Option α :=
  if index < 0 then none else pointer.cells[index.toNat]?

theorem checkedRead_eq (pointer : Pointer α) {index : Nat} (h : index < pointer.cells.length) :
    pointer.checkedRead index = some (pointer.read index) := by
  rw [checkedRead, if_neg (by omega), Int.toNat_natCast, read_eq pointer h,
    List.getElem?_eq_getElem h]

end Pointer

/-! ## Resources and buffers -/

/-- The interface `MemoryResource`; `allocate` is given the blocks that are live. -/
structure MemoryResource where
  space : MemorySpace
  allocate : List Block → Nat → Nat → Result Nat
  /-- The address one past the end of a granted block is an address. -/
  fits : ∀ {live bytes alignment address},
    allocate live bytes alignment = .ok address → address + bytes ≤ uintptrMax
  /-- A granted block overlaps no live block. -/
  disjoint : ∀ {live bytes alignment address},
    allocate live bytes alignment = .ok address →
      ∀ block ∈ live, block.Disjoint ⟨address, bytes⟩

def isPowerOfTwo (value : Nat) : Bool :=
  value != 0 && value &&& (value - 1) == 0

/-- A buffer; one without a resource has been moved from. -/
structure Buffer where
  resource : Option MemoryResource := none
  data : Nat := 0
  size : Nat := 0
  alignment : Nat := 0

namespace Buffer

def valid (buffer : Buffer) : Bool :=
  buffer.resource.isSome

/-- What a move leaves behind. -/
def moved : Buffer := {}

def block (buffer : Buffer) : Block :=
  ⟨buffer.data, buffer.size⟩

/-- `Buffer::Allocate`, with the blocks that are live when it asks the resource. -/
def allocate (resource : MemoryResource) (live : List Block) (bytes alignment : Nat) :
    Result Buffer :=
  if !isPowerOfTwo alignment then
    .error
      { code := .invalidArgument
        message := "Buffer alignment must be a nonzero power of two" }
  else do
    let allocation ← resource.allocate live bytes alignment
    if bytes ≠ 0 ∧ allocation = 0 then
      .error
        { code := .allocation
          message := "MemoryResource returned null for a nonzero allocation" }
    else if bytes = 0 ∧ allocation ≠ 0 then
      .error
        { code := .internal
          message := "MemoryResource allocated storage for a zero-byte request" }
    else if allocation ≠ 0 ∧ allocation % alignment ≠ 0 then
      .error
        { code := .allocation
          message := "MemoryResource returned a misaligned allocation" }
    else
      .ok { resource := some resource, data := allocation, size := bytes, alignment := alignment }

/-- What an allocated buffer is: a block of the requested size, null exactly when empty, that ends
within the address space and meets no live block. -/
structure Allocated (resource : MemoryResource) (live : List Block) (bytes : Nat)
    (buffer : Buffer) : Prop where
  resource_eq : buffer.resource = some resource
  size_eq : buffer.size = bytes
  null_iff : buffer.data = 0 ↔ bytes = 0
  fits : buffer.data + bytes ≤ uintptrMax
  disjoint : ∀ block ∈ live, block.Disjoint buffer.block

theorem allocate_spec {resource : MemoryResource} {live : List Block} {bytes alignment : Nat}
    {buffer : Buffer} (h : allocate resource live bytes alignment = .ok buffer) :
    Allocated resource live bytes buffer := by
  unfold allocate at h
  split at h
  · cases h
  cases hallocation : resource.allocate live bytes alignment with
  | error status => simp [hallocation, bind, Except.bind] at h
  | ok address =>
    simp only [hallocation, bind, Except.bind] at h
    split at h
    · cases h
    split at h
    · cases h
    split at h
    · cases h
    cases h
    exact
      { resource_eq := rfl
        size_eq := rfl
        null_iff := by dsimp only; omega
        fits := resource.fits hallocation
        disjoint := resource.disjoint hallocation }

theorem Allocated.valid {resource : MemoryResource} {live : List Block} {bytes : Nat}
    {buffer : Buffer} (h : Allocated resource live bytes buffer) : buffer.valid = true := by
  simp [Buffer.valid, h.resource_eq]

end Buffer

/-- The resource grants the requests (bytes and alignment) one after the other. -/
def MemoryResource.Serves (resource : MemoryResource) : List Block → List (Nat × Nat) → Prop
  | _, [] => True
  | live, (bytes, alignment) :: requests =>
    ∃ buffer, Buffer.allocate resource live bytes alignment = .ok buffer ∧
      resource.Serves (live ++ [buffer.block]) requests

/-- The address behind all live blocks. -/
def endOfBlocks (live : List Block) : Nat :=
  live.foldr (fun block last => max (block.address + block.size) last) 0

theorem le_endOfBlocks {live : List Block} {block : Block} (h : block ∈ live) :
    block.address + block.size ≤ endOfBlocks live := by
  induction live with
  | nil => cases h
  | cons first live ih =>
    rcases List.mem_cons.1 h with rfl | hmem
    · exact Nat.le_max_left _ _
    · exact Nat.le_trans (ih hmem) (Nat.le_max_right _ _)

/-- A host resource that grants aligned blocks one behind the other. -/
def bumpResource : MemoryResource where
  space := .host
  allocate live bytes alignment :=
    if bytes = 0 then
      .ok 0
    else if endOfBlocks live + (alignment - endOfBlocks live % alignment) + bytes > uintptrMax then
      .error { code := .allocation, message := "Host allocation failed" }
    else
      -- The next aligned address behind every live block.
      .ok (endOfBlocks live + (alignment - endOfBlocks live % alignment))
  fits := by
    intro live bytes alignment address h
    split at h
    · cases h
      simp [*, uintptrMax]
    split at h
    · cases h
    · cases h
      omega
  disjoint := by
    intro live bytes alignment address h block hmem
    have hend := le_endOfBlocks hmem
    unfold Block.Disjoint
    split at h
    · cases h
      exact .inr (.inl ‹_›)
    split at h
    · cases h
    · cases h
      dsimp only
      omega

/-! ## Execution contexts -/

inductive Backend where
  | serial
  | cuda
  | hip
  | sycl
  deriving DecidableEq, Repr

structure Device where
  backend : Backend := .serial
  ordinal : Int := 0
  deriving DecidableEq, Repr

inductive Determinism where
  | deterministic
  | backendDefault
  deriving DecidableEq, Repr

/-- An execution context; a provider's state answers which memory spaces it can access. -/
structure ExecutionContext where
  backend : Backend
  device : Device
  determinism : Determinism
  state : Option (MemorySpace → Bool) := none

namespace ExecutionContext

def serial : ExecutionContext :=
  { backend := .serial, device := {}, determinism := .deterministic }

def canAccess (context : ExecutionContext) (space : MemorySpace) : Bool :=
  if context.backend = .serial then
    decide (space = .host)
  else
    context.state.any (fun access => access space)

theorem canAccess_host {context : ExecutionContext} (h : context.backend = .serial) :
    context.canAccess .host = true := by
  simp [canAccess, h]

end ExecutionContext

end Core
end AscCpp
