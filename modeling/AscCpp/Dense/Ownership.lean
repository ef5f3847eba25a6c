import AscCpp.Dense.Array

/-!
# Ownership — runs over buffers and arrays

Any number of buffers and arrays, created, moved, reset, resized and destroyed in any order.  What
the resources answer belongs to the operations, so that a run speaks of every resource.

- `step_consistent`: one operation leaves the ledger in balance with what the objects own.
- `run_correct`: what holds behind every run.
-/

namespace AscCpp
namespace Dense

open AscCpp.Core Library

/-! ## Objects -/

inductive Object where
  | ofBuffer (buffer : OwningBuffer)
  | ofArray (array : OwningArray)

namespace Object

/-- The buffer of an object. -/
def owner : Object → OwningBuffer
  | .ofBuffer buffer => buffer
  | .ofArray array => array.buffer

/-- What a move leaves of an object. -/
def movedFrom : Object → Object
  | .ofBuffer _ => .ofBuffer .moved
  | .ofArray array => .ofArray array.movedFrom

/-- Objects of one C++ type, so that one can be assigned to the other. -/
def sameType : Object → Object → Bool
  | .ofBuffer _, .ofBuffer _ => true
  | .ofArray array, .ofArray other =>
    array.rank = other.rank ∧ array.elementSize = other.elementSize ∧
      array.elementAlignment = other.elementAlignment
  | _, _ => false

def WellFormed : Object → Prop
  | .ofBuffer buffer => OwningArray.OwnsBuffer buffer
  | .ofArray array => array.WellFormed

end Object

/-- The objects by their numbers, none where one was destroyed, and the calls of the resources. -/
structure World where
  objects : List (Option Object)
  ledger : Calls

namespace World

def empty : World := ⟨[], []⟩

/-- The object with a number. -/
def object (world : World) (index : Nat) : Option Object :=
  world.objects[index]?.join

/-- The blocks that an object owns. -/
def holds : Option Object → Multiset GrantedBlock
  | none => 0
  | some object => object.owner.owned

end World

inductive Operation where
  /-- `Buffer::Allocate`. -/
  | allocate (resource bytes alignment : Nat) (answer : Result Nat)
  | create (resource rank elementSize elementAlignment : Nat) (extents : Extents rank)
      (layout : ArrayLayout) (answer : Result Nat)
  | createUninitialized (resource rank elementSize elementAlignment : Nat) (extents : Extents rank)
      (layout : ArrayLayout) (answer : Result Nat)
  | clone (source resource : Nat) (context : ExecutionContext) (answer : Result Nat)
      (copied : Result Unit)
  | moveConstruct (source : Nat)
  | moveAssign (target source : Nat)
  /-- `Buffer::Reset`. -/
  | reset (target : Nat)
  | discardResize (target rank : Nat) (extents : Extents rank) (layout : Option ArrayLayout)
      (answer : Result Nat)
  | destroy (target : Nat)

/-! ## Steps -/

section Steps

variable (space : Nat → MemorySpace)

/-- A new object, if it could be created. -/
def World.add (world : World) (created : Result Object × Calls) : Result Unit × World :=
  match created.1 with
  | .ok object => (.ok (), ⟨world.objects ++ [some object], world.ledger ++ created.2⟩)
  | .error status => (.error status, ⟨world.objects, world.ledger ++ created.2⟩)

/-- One operation: its status and what it leaves.  Without a value there is no such object. -/
def step (world : World) : Operation → Option (Result Unit × World)
  | .allocate resource bytes alignment answer =>
    let allocated := OwningBuffer.allocate resource bytes alignment answer
    some (world.add (allocated.1.map Object.ofBuffer, allocated.2))
  | .create resource _ elementSize elementAlignment extents layout answer =>
    let created := OwningArray.create space resource elementSize elementAlignment extents layout answer
    some (world.add (created.1.map Object.ofArray, created.2))
  | .createUninitialized resource _ elementSize elementAlignment extents layout answer =>
    let created := OwningArray.createUninitialized resource elementSize elementAlignment extents layout
      answer
    some (world.add (created.1.map Object.ofArray, created.2))
  | .clone source resource context answer copied =>
    match world.object source with
    | some (.ofArray array) =>
      let created := array.clone space resource context answer copied
      some (world.add (created.1.map Object.ofArray, created.2))
    | _ => none
  | .moveConstruct source => do
    let object ← world.object source
    some (.ok (), ⟨world.objects.set source (some object.movedFrom) ++ [some object], world.ledger⟩)
  | .moveAssign target source => do
    let old ← world.object target
    let object ← world.object source
    if !old.sameType object then
      none
    -- The source tests for this and leaves everything as it is.
    else if target = source then
      some (.ok (), world)
    else
      some (.ok (), ⟨(world.objects.set target (some object)).set source (some object.movedFrom),
        world.ledger ++ old.owner.release⟩)
  | .reset target =>
    match world.object target with
    | some (.ofBuffer buffer) =>
      some (.ok (), ⟨world.objects.set target (some (.ofBuffer .moved)),
        world.ledger ++ buffer.release⟩)
    | _ => none
  | .discardResize target rank extents layout answer =>
    match world.object target with
    | some (.ofArray array) =>
      if hrank : rank = array.rank then
        let resized := array.discardResize space (hrank ▸ extents) layout answer
        some (resized.1, ⟨world.objects.set target (some (.ofArray resized.2.1)),
          world.ledger ++ resized.2.2⟩)
      else
        none
    | _ => none
  | .destroy target => do
    let object ← world.object target
    some (.ok (), ⟨world.objects.set target none, world.ledger ++ object.owner.release⟩)

/-- One operation after the other. -/
def run : List Operation → World → Option World
  | [], world => some world
  | operation :: operations, world => do
    let (_, next) ← step space world operation
    run operations next

end Steps

/-! ## Consistency -/

/-- The ledger is in balance with what the objects own. -/
structure Consistent (world : World) : Prop where
  balanced : Balanced world.ledger (heldBy World.holds world.objects)
  wellFormed : ∀ object, some object ∈ world.objects → object.WellFormed

namespace Consistent

variable {world : World}

theorem getElem?_of_object {index : Nat} {object : Object} (h : world.object index = some object) :
    world.objects[index]? = some (some object) := by
  unfold World.object at h
  cases hget : world.objects[index]? with
  | none =>
    rw [hget] at h
    cases h
  | some slot =>
    rw [hget] at h
    exact congrArg some h

theorem object_wellFormed (h : Consistent world) {index : Nat} {object : Object}
    (hobject : world.object index = some object) : object.WellFormed :=
  h.wellFormed object (List.mem_of_getElem? (getElem?_of_object hobject))

theorem empty : Consistent .empty :=
  ⟨.nil, fun _ hmem => absurd hmem List.not_mem_nil⟩

theorem wellFormed_set (h : Consistent world) {index : Nat} {slot : Option Object}
    (hslot : ∀ object, slot = some object → object.WellFormed) {object : Object}
    (hmem : some object ∈ world.objects.set index slot) : object.WellFormed := by
  rcases List.mem_or_eq_of_mem_set hmem with hold | hnew
  · exact h.wellFormed object hold
  · exact hslot object hnew.symm

/-- The slot of an object that is given back holds nothing. -/
theorem release (h : Consistent world) {index : Nat} {object : Object}
    (hobject : world.object index = some object) {slot : Option Object}
    (hslot : World.holds slot = 0) :
    Balanced (world.ledger ++ object.owner.release)
      (heldBy World.holds (world.objects.set index slot)) := by
  apply OwningBuffer.release_balanced
  have hset := @heldBy_set _ _ World.holds _ _ _ (getElem?_of_object hobject) slot
  rw [hslot, zero_add] at hset
  have hbalanced := h.balanced
  rw [← hset] at hbalanced
  exact hbalanced

end Consistent

/-- Behind the calls of a creation, the ledger is in balance with what the new object owns. -/
def CreatesObject (created : Result Object × Calls) : Prop :=
  (∀ object, created.1 = .ok object → object.WellFormed) ∧
    ∀ {ledger : Calls} {rest : Multiset GrantedBlock}, Balanced ledger rest →
      Balanced (ledger ++ created.2) (World.holds created.1.toOption + rest)

theorem createsObject_of_creates {created : Result OwningArray × Calls}
    (h : OwningArray.Creates created) : CreatesObject (created.1.map Object.ofArray, created.2) := by
  rcases created with ⟨status | array, calls⟩
  · exact ⟨fun _ heq => (nomatch heq), fun hbalanced => h.2 hbalanced⟩
  · refine ⟨fun object heq => ?_, fun hbalanced => h.2 hbalanced⟩
    cases heq
    exact h.1 array rfl

theorem createsObject_allocate (resource bytes alignment : Nat) (answer : Result Nat) :
    CreatesObject ((OwningBuffer.allocate resource bytes alignment answer).1.map Object.ofBuffer,
      (OwningBuffer.allocate resource bytes alignment answer).2) := by
  have hbalanced := fun {ledger rest} => @OwningBuffer.allocate_balanced resource bytes alignment
    answer ledger rest
  cases hallocated : (OwningBuffer.allocate resource bytes alignment answer).1 with
  | error status =>
    rw [hallocated] at hbalanced
    exact ⟨fun _ heq => (nomatch heq), fun h => hbalanced h⟩
  | ok buffer =>
    rw [hallocated] at hbalanced
    refine ⟨fun object heq => ?_, fun h => hbalanced h⟩
    cases heq
    exact OwningArray.ownsBuffer_of_allocate hallocated

/-- What a step leaves: the balance is kept, calls are only added, and one that fails leaves the
objects as they are. -/
structure Leaves (world : World) (result : Result Unit) (next : World) : Prop where
  consistent : Consistent next
  calls : world.ledger <+: next.ledger
  failed : ∀ status, result = .error status → next.objects = world.objects

section Preservation

variable {space : Nat → MemorySpace} {world : World}

theorem add_leaves (h : Consistent world) {created : Result Object × Calls}
    (hcreated : CreatesObject created) {result : Result Unit} {next : World}
    (hadd : some (world.add created) = some (result, next)) : Leaves world result next := by
  have hpair : world.add created = (result, next) := Option.some.inj hadd
  rcases created with ⟨status | object, calls⟩ <;> cases hpair
  · refine ⟨⟨?_, h.wellFormed⟩, List.prefix_append _ _, fun _ _ => rfl⟩
    simpa [World.add, World.holds, Except.toOption] using hcreated.2 h.balanced
  · refine ⟨⟨?_, fun other hmem => ?_⟩, List.prefix_append _ _, fun _ heq => (nomatch heq)⟩
    · have hbalanced := hcreated.2 h.balanced
      rw [add_comm] at hbalanced
      have hheld := @heldBy_append _ _ World.holds world.objects (some object)
      exact hheld ▸ hbalanced
    · rcases List.mem_append.1 hmem with hold | hnew
      · exact h.wellFormed other hold
      · cases List.mem_singleton.1 hnew
        exact hcreated.1 object rfl

theorem movedFrom_holds (object : Object) : World.holds (some object.movedFrom) = 0 := by
  cases object <;> rfl

theorem movedFrom_wellFormed (object : Object) : object.movedFrom.WellFormed := by
  cases object with
  | ofBuffer buffer => exact OwningArray.ownsBuffer_moved
  | ofArray array => exact array.movedFrom_wellFormed

theorem moveConstruct_leaves (h : Consistent world) {source : Nat} {object : Object}
    (hobject : world.object source = some object) :
    Consistent ⟨world.objects.set source (some object.movedFrom) ++ [some object],
      world.ledger⟩ := by
  refine ⟨?_, fun other hmem => ?_⟩
  · have hset := @heldBy_set _ _ World.holds _ _ _ (Consistent.getElem?_of_object hobject)
      (some object.movedFrom)
    rw [movedFrom_holds, zero_add, add_comm] at hset
    rw [heldBy_append, hset]
    exact h.balanced
  · rcases List.mem_append.1 hmem with hold | hnew
    · refine h.wellFormed_set (fun moved heq => ?_) hold
      cases heq
      exact movedFrom_wellFormed object
    · cases List.mem_singleton.1 hnew
      exact h.object_wellFormed hobject

/-- The target gives back its block before it takes that of the source. -/
theorem moveAssign_leaves (h : Consistent world) {target source : Nat} (hne : target ≠ source)
    {old object : Object} (hold : world.object target = some old)
    (hobject : world.object source = some object) :
    Consistent ⟨(world.objects.set target (some object)).set source (some object.movedFrom),
      world.ledger ++ old.owner.release⟩ := by
  refine ⟨?_, fun other hmem => ?_⟩
  · have hreleased := @Consistent.release _ h _ _ hold none rfl
    have hold' := Consistent.getElem?_of_object hold
    have hless : target < world.objects.length := (List.getElem?_eq_some_iff.1 hold').1
    have htaken := @heldBy_set _ _ World.holds (world.objects.set target none) _ _
      (List.getElem?_set_self hless) (some object)
    have hleft := @heldBy_set _ _ World.holds (world.objects.set target (some object)) _ _
      ((List.getElem?_set_ne hne).trans (Consistent.getElem?_of_object hobject))
      (some object.movedFrom)
    have hnone : World.holds none = 0 := rfl
    rw [List.set_set, hnone, zero_add] at htaken
    rw [movedFrom_holds, zero_add, htaken] at hleft
    rwa [add_left_cancel hleft]
  · rcases List.mem_or_eq_of_mem_set hmem with hbefore | hnew
    · refine h.wellFormed_set (fun taken heq => ?_) hbefore
      cases heq
      exact h.object_wellFormed hobject
    · cases hnew
      exact movedFrom_wellFormed object

theorem discardResize_leaves (h : Consistent world) {target : Nat} {array : OwningArray}
    (harray : world.object target = some (.ofArray array)) (extents : Extents array.rank)
    (layout : Option ArrayLayout) (answer : Result Nat) :
    Leaves world (array.discardResize space extents layout answer).1
      ⟨world.objects.set target (some (.ofArray (array.discardResize space extents layout answer).2.1)),
        world.ledger ++ (array.discardResize space extents layout answer).2.2⟩ := by
  have hget := Consistent.getElem?_of_object harray
  rcases OwningArray.discardResize_spec space (h.object_wellFormed harray) extents layout answer with
    ⟨hwellFormed, hbalanced, hfailed⟩
  refine ⟨⟨?_, fun other hmem => ?_⟩, List.prefix_append _ _, fun status heq => ?_⟩
  · have hnone := @heldBy_set _ _ World.holds _ _ _ hget none
    have hset := @heldBy_set _ _ World.holds _ _ _ hget
      (some (.ofArray (array.discardResize space extents layout answer).2.1))
    have hholds : World.holds none = 0 := rfl
    rw [hholds, zero_add] at hnone
    rw [← hnone, add_left_comm] at hset
    rw [add_left_cancel hset]
    apply hbalanced
    have hbefore := h.balanced
    rw [← hnone] at hbefore
    exact hbefore
  · refine h.wellFormed_set (fun resized heq => ?_) hmem
    cases heq
    exact hwellFormed
  · rw [hfailed status heq]
    rcases List.getElem?_eq_some_iff.1 hget with ⟨hless, hslot⟩
    rw [← hslot]
    exact List.set_getElem_self hless

/-- One case for each operation. -/
theorem step_leaves (h : Consistent world) {operation : Operation} {result : Result Unit}
    {next : World} (hstep : step space world operation = some (result, next)) :
    Leaves world result next := by
  -- The four operations that create an object share one argument, the others end on their own.
  cases operation with
  | allocate resource bytes alignment answer =>
    exact add_leaves h (createsObject_allocate resource bytes alignment answer) hstep
  | create resource rank elementSize elementAlignment extents layout answer =>
    exact add_leaves h (createsObject_of_creates (OwningArray.create_creates space layout)) hstep
  | createUninitialized resource rank elementSize elementAlignment extents layout answer =>
    exact add_leaves h (createsObject_of_creates (OwningArray.createUninitialized_creates layout))
      hstep
  | clone source resource context answer copied =>
    simp only [step] at hstep
    split at hstep
    · exact add_leaves h
        (createsObject_of_creates (OwningArray.clone_creates space _ context copied)) hstep
    · cases hstep
  | moveConstruct source =>
    simp only [step, Option.bind_eq_bind] at hstep
    rcases Option.bind_eq_some_iff.1 hstep with ⟨object, hobject, heq⟩
    cases heq
    exact ⟨moveConstruct_leaves h hobject, List.prefix_refl _, fun _ heq => (nomatch heq)⟩
  | moveAssign target source =>
    simp only [step, Option.bind_eq_bind] at hstep
    rcases Option.bind_eq_some_iff.1 hstep with ⟨old, hold, hrest⟩
    rcases Option.bind_eq_some_iff.1 hrest with ⟨object, hobject, heq⟩
    split at heq
    · cases heq
    split at heq
    · cases heq
      exact ⟨h, List.prefix_refl _, fun _ _ => rfl⟩
    · rename_i hne
      cases heq
      exact ⟨moveAssign_leaves h hne hold hobject, List.prefix_append _ _,
        fun _ heq => (nomatch heq)⟩
  | reset target =>
    simp only [step] at hstep
    split at hstep
    · rename_i buffer hbuffer
      cases hstep
      refine ⟨⟨h.release hbuffer rfl, fun object hmem => ?_⟩, List.prefix_append _ _,
        fun _ heq => (nomatch heq)⟩
      refine h.wellFormed_set (fun left heq => ?_) hmem
      cases heq
      exact OwningArray.ownsBuffer_moved
    · cases hstep
  | discardResize target rank extents layout answer =>
    simp only [step] at hstep
    split at hstep
    · rename_i array harray
      split at hstep
      · rename_i hrank
        subst hrank
        cases hstep
        exact discardResize_leaves h harray extents layout answer
      · cases hstep
    · cases hstep
  | destroy target =>
    simp only [step, Option.bind_eq_bind] at hstep
    rcases Option.bind_eq_some_iff.1 hstep with ⟨object, hobject, heq⟩
    cases heq
    refine ⟨⟨h.release hobject rfl, fun other hmem => ?_⟩, List.prefix_append _ _,
      fun _ heq => (nomatch heq)⟩
    exact @Consistent.wellFormed_set _ h _ none (fun _ heq => (nomatch heq)) _ hmem

theorem run_consistent (h : Consistent world) {operations : List Operation} {next : World}
    (hrun : run space operations world = some next) : Consistent next := by
  induction operations generalizing world with
  | nil =>
    cases hrun
    exact h
  | cons operation operations ih =>
    simp only [run, Option.bind_eq_bind] at hrun
    rcases Option.bind_eq_some_iff.1 hrun with ⟨⟨result, middle⟩, hstep, hrest⟩
    exact ih (step_leaves h hstep).consistent hrest

end Preservation

/-! ## Runs -/

/-- Blocks of one resource share no byte. -/
def Apart (left right : GrantedBlock) : Prop :=
  left.resource = right.resource → left.block.Disjoint right.block

theorem owned_nonempty {buffer : OwningBuffer} (h : OwningArray.OwnsBuffer buffer)
    {block : GrantedBlock} (hblock : block ∈ buffer.owned) : block.bytes ≠ 0 := by
  unfold OwningBuffer.owned OwningBuffer.blocks at hblock
  split at hblock
  · split at hblock
    · rename_i hdata
      have heq : block = ⟨_, _, _, _⟩ := List.mem_singleton.1 hblock
      rw [heq]
      exact fun hsize => hdata (h.null_iff.2 hsize)
    · exact absurd hblock List.not_mem_nil
  · exact absurd hblock List.not_mem_nil

/-- The bytes of what a buffer owns. -/
theorem owned_bytes {buffer : OwningBuffer} (h : OwningArray.OwnsBuffer buffer) :
    (buffer.owned.map GrantedBlock.bytes).sum = buffer.size := by
  rcases hresource : buffer.resource with _ | resource
  · rw [h.moved hresource]
    rfl
  · by_cases hdata : buffer.data = 0
    · rw [OwningBuffer.owned_null hdata, h.null_iff.1 hdata]
      rfl
    · simp [OwningBuffer.owned, OwningBuffer.blocks, hresource, hdata]

theorem Object.WellFormed.ownsBuffer {object : Object} (h : object.WellFormed) :
    OwningArray.OwnsBuffer object.owner := by
  cases object with
  | ofBuffer buffer => exact h
  | ofArray array => exact h.buffer

section Runs

variable {space : Nat → MemorySpace} {world : World}

/-- What different objects own is apart, if no resource grants a block that overlaps one that it has
granted and not yet got back. -/
theorem owned_apart (h : Consistent world) (hfresh : Fresh Apart world.ledger) {index other : Nat}
    (hne : index ≠ other) {object object' : Object} (hobject : world.object index = some object)
    (hobject' : world.object other = some object') {block block' : GrantedBlock}
    (hblock : block ∈ object.owner.owned) (hblock' : block' ∈ object'.owner.owned) :
    block ≠ block' ∧ Apart block block' := by
  have htwo : block ::ₘ {block'} ≤ heldBy World.holds world.objects := by
    have hheld := @two_le_heldBy _ _ World.holds _ _ _ _ _ hne
      (Consistent.getElem?_of_object hobject) (Consistent.getElem?_of_object hobject')
    have hboth := add_le_add (Multiset.singleton_le.2 hblock) (Multiset.singleton_le.2 hblock')
    rw [Multiset.singleton_add] at hboth
    exact hboth.trans hheld
  have hsymm : ∀ left right, Apart left right → Apart right left :=
    fun left right hapart hsame => (hapart hsame.symm).symm
  have hapart := h.balanced.pairwise hsymm hfresh htwo
  refine ⟨fun hsame => ?_, hapart⟩
  subst hsame
  have hself := hapart rfl
  have hbytes := owned_nonempty (h.object_wellFormed hobject).ownsBuffer hblock
  have hsize : block.block.size = block.bytes := rfl
  unfold Block.Disjoint at hself
  omega

/-- What a step obtains without an owner for it, it gives back. -/
theorem failed_returns (h : Consistent world) {operation : Operation} {status : Status}
    {next : World} (hstep : step space world operation = some (.error status, next)) :
    next.objects = world.objects ∧
      ∃ calls, next.ledger = world.ledger ++ calls ∧ grants calls = returns calls := by
  have hleaves := step_leaves h hstep
  have hobjects := hleaves.failed status rfl
  rcases hleaves.calls with ⟨calls, hcalls⟩
  refine ⟨hobjects, calls, hcalls.symm, ?_⟩
  have hbefore := h.balanced.granted_eq
  have hafter := hleaves.consistent.balanced.granted_eq
  rw [hobjects, ← hcalls, grants_append, returns_append, hbefore, add_right_comm] at hafter
  exact add_left_cancel (add_right_cancel hafter)

theorem destroy_returns {target : Nat} {result : Result Unit} {next : World}
    (hstep : step space world (.destroy target) = some (result, next)) :
    ∃ object, world.object target = some object ∧ next.object target = none ∧
      next.ledger = world.ledger ++ object.owner.release := by
  simp only [step, Option.bind_eq_bind] at hstep
  rcases Option.bind_eq_some_iff.1 hstep with ⟨object, hobject, heq⟩
  cases heq
  have hget := Consistent.getElem?_of_object hobject
  have hless : target < world.objects.length := (List.getElem?_eq_some_iff.1 hget).1
  refine ⟨object, hobject, ?_, rfl⟩
  unfold World.object
  rw [List.getElem?_set_self hless]
  rfl

/-- Behind every run over buffers and arrays: a block that a resource granted has been given back to
it once, with the request it was granted for, or is owned by an object, and it is given back when
the object is destroyed; an operation that fails keeps nothing and leaves every object as it is; no
block has two owners; and a valid array owns the bytes of its mapping. -/
theorem run_correct {operations : List Operation}
    (hrun : run space operations .empty = some world) :
    grants world.ledger = returns world.ledger + heldBy World.holds world.objects ∧
    (∀ before, before <+: world.ledger → returns before ≤ grants before) ∧
    ((∀ slot ∈ world.objects, slot = none) → grants world.ledger = returns world.ledger) ∧
    (∀ target result next, step space world (.destroy target) = some (result, next) →
      ∃ object, world.object target = some object ∧ next.object target = none ∧
        next.ledger = world.ledger ++ object.owner.release) ∧
    (∀ operation status next, step space world operation = some (.error status, next) →
      next.objects = world.objects ∧
        ∃ calls, next.ledger = world.ledger ++ calls ∧ grants calls = returns calls) ∧
    (Fresh Apart world.ledger → ∀ index other object object', index ≠ other →
      world.object index = some object → world.object other = some object' →
        ∀ block ∈ object.owner.owned, ∀ block' ∈ object'.owner.owned,
          block ≠ block' ∧ Apart block block') ∧
    ∀ index array, world.object index = some (.ofArray array) → array.valid →
      array.buffer.resource = array.resource ∧
        ((array.buffer.owned.map GrantedBlock.bytes).sum : Int) =
          array.mapping.requiredSpanSize * array.elementSize := by
  have h := run_consistent Consistent.empty hrun
  refine ⟨h.balanced.granted_eq, fun before hbefore => h.balanced.returns_le hbefore,
    fun hnone => ?_, fun _ _ _ hstep => destroy_returns hstep,
    fun _ _ _ hstep => failed_returns h hstep, ?_, fun index array harray hvalid => ?_⟩
  · have hnothing : heldBy World.holds world.objects = 0 :=
      heldBy_eq_zero fun slot hslot => by rw [hnone slot hslot]; rfl
    rw [h.balanced.granted_eq, hnothing, add_zero]
  -- A block has one place in the ledger, and the owned ones are those not yet returned.
  · intro hfresh index other object object' hne hobject hobject' block hblock block' hblock'
    exact owned_apart h hfresh hne hobject hobject' hblock hblock'
  · have hwellFormed : array.WellFormed := h.object_wellFormed harray
    refine ⟨hwellFormed.resource_eq hvalid, ?_⟩
    rw [owned_bytes hwellFormed.buffer]
    exact hwellFormed.size_eq hvalid

/-- Two blocks that are refused, one that is moved onto another buffer, and the end of both. -/
def sampleRun : List Operation :=
  [.allocate 1 16 8 (.ok 64), .allocate 1 0 8 (.ok 128), .allocate 1 16 8 (.ok 65),
    .allocate 2 32 8 (.ok 64), .moveAssign 0 0, .moveAssign 0 1, .moveConstruct 0, .destroy 2,
    .destroy 1, .destroy 0]

theorem run_correct_sample :
    ∃ world, run (fun _ => .host) sampleRun .empty = some world ∧
      grants world.ledger = returns world.ledger ∧
      ∀ before, before <+: world.ledger → returns before ≤ grants before := by
  have hrun : run (fun _ => .host) sampleRun .empty =
      some ⟨[none, none, none],
        [.granted ⟨1, 64, 16, 8⟩, .granted ⟨1, 128, 0, 8⟩, .returned ⟨1, 128, 0, 8⟩,
          .granted ⟨1, 65, 16, 8⟩, .returned ⟨1, 65, 16, 8⟩, .granted ⟨2, 64, 32, 8⟩,
          .returned ⟨1, 64, 16, 8⟩, .returned ⟨2, 64, 32, 8⟩]⟩ := rfl
  rcases run_correct hrun with ⟨-, hprefix, hend, -⟩
  exact ⟨_, hrun, hend (by simp), hprefix⟩

end Runs

end Dense
end AscCpp
