import AscCpp.Core.Cuda.Provider
import AscCpp.Core.Effect
import AscCpp.Library.SharedFamily
import AscCpp.Library.SharedLookup

/-!
# Kernel — kernels that work on the elements of a view

- `Launch.owned_ends`: a kernel whose positions own elements of a family.
- `Launch.owned_ends_of_resolves`: a kernel whose positions follow indices that nobody writes.
- `Launch.loopUnless`: a kernel that may return at once.
- `elementCells_subset_outside_of_disjoint`: what stands apart from the elements may be read.
- `Repeats.forM`: a loop of the device that does what a loop of the host does.
- `yields_computes`, `yields_repeatsHost`: operations that submit kernels.
-/

namespace AscCpp
namespace Core
namespace Cuda

open Library Program Effect

namespace Launch

variable {Memory : Type}

/-- A kernel that returns before its loop under a condition. -/
def loopUnless (skip : Prop) [Decidable skip] (count : Nat) (body : Nat → Program Memory Unit) :
    Launch Memory where
  blocks := blockCount count
  threadsPerBlock := Cuda.threadsPerBlock
  thread thread :=
    if skip then pure ()
    else sharedLoop count body thread

section Owned

variable {Cell V ι : Type} {type : Representation Cell V} {family : ElementFamily type ι}
  {owner : ι → Nat} {count : Nat} {body : Nat → Program (Nat → Cell) Unit}

/-- A kernel whose positions own elements of a family, and read outside of it. -/
theorem owned_ends (hpos : 0 < count) (hcount : count ≤ 2 ^ 63)
    (hwithin : ∀ position < count,
      (body position).Within family.outsideCells (family.ownedCells owner position))
    (memory : Nat → Cell) :
    (loop count body).EndsIn memory
      ((forM (List.range count) body : Program (Nat → Cell) Unit).exec memory).2 :=
  loop_ends hpos hcount (family.raceFree_owned owner _) hwithin memory

theorem idle_ends {blocks threadsPerBlock : Nat} (memory : Nat → Cell) :
    Library.EndsIn (fun _ : Fin blocks × Fin threadsPerBlock => (pure () : Program _ Unit)) memory
      memory := by
  have hrace : ∀ thread thread' : Fin blocks × Fin threadsPerBlock, thread ≠ thread' →
      Disjoint (∅ : Set Nat) (∅ ∪ ∅) := fun _ _ _ => Set.empty_disjoint _
  exact ends_of_raceFree hrace (fun _ => within_pure ()) (fun _ _ _ => rfl) fun _ _ => rfl

/-- A kernel whose first thread does everything. -/
theorem first_ends {blocks threadsPerBlock : Nat} (hblocks : 0 < blocks)
    (hthreads : 0 < threadsPerBlock) (program : Program (Nat → Cell) Unit) (memory : Nat → Cell) :
    Library.EndsIn (fun thread : Fin blocks × Fin threadsPerBlock =>
        if thread.1.val ≠ 0 ∨ thread.2.val ≠ 0 then (pure () : Program _ Unit) else program) memory
      (program.exec memory).2 := by
  let cells (thread : Fin blocks × Fin threadsPerBlock) : Set Nat :=
    {_cell | thread = (⟨0, hblocks⟩, ⟨0, hthreads⟩)}
  have hfirst : ∀ thread : Fin blocks × Fin threadsPerBlock,
      (thread.1.val ≠ 0 ∨ thread.2.val ≠ 0) ↔ thread ≠ (⟨0, hblocks⟩, ⟨0, hthreads⟩) := by
    intro thread
    rw [← not_and_or, not_iff_not, Prod.ext_iff, Fin.ext_iff, Fin.ext_iff]
  have hrace : ∀ thread thread', thread ≠ thread' →
      Disjoint (cells thread') (cells thread ∪ cells thread) := by
    intro thread thread' hne
    rw [Set.disjoint_left, Set.union_self]
    intro cell hcell hcell'
    exact hne (hcell'.trans hcell.symm)
  refine ends_of_raceFree hrace (fun thread => ?_) (fun thread cell hcell => ?_) fun cell hcell => ?_
  · by_cases hthread : thread = (⟨0, hblocks⟩, ⟨0, hthreads⟩)
    · have hcells : cells thread = Set.univ := Set.eq_univ_of_forall fun _ => hthread
      rw [if_neg (mt (hfirst thread).1 (not_not.2 hthread)), hcells]
      exact within_univ program
    · rw [if_pos ((hfirst thread).2 hthread)]
      exact within_pure ()
  · rw [if_neg (mt (hfirst thread).1 (not_not.2 hcell))]
  · exact absurd rfl (hcell (⟨0, hblocks⟩, ⟨0, hthreads⟩))

theorem loopUnless_ends (skip : Prop) [Decidable skip] {memory last : Nat → Cell}
    (h : (loop count body).EndsIn memory last) :
    (loopUnless skip count body).EndsIn memory (if skip then memory else last) := by
  unfold loopUnless EndsIn
  by_cases hskip : skip
  · simp only [if_pos hskip]
    exact idle_ends memory
  · simp only [if_neg hskip]
    exact h

/-- A kernel whose positions own elements of a family when the fixed cells are known. -/
theorem owned_ends_of_resolves {fixed : Set Nat} {memory : Nat → Cell}
    {body' : Nat → Program (Nat → Cell) Unit} (hpos : 0 < count) (hcount : count ≤ 2 ^ 63)
    (hresolves : ∀ position < count, Resolves fixed memory (body position) (body' position))
    (hwithin : ∀ position < count,
      (body' position).Within family.outsideCells (family.ownedCells owner position)) :
    (loop count body).EndsIn memory
      ((forM (List.range count) body : Program (Nat → Cell) Unit).exec memory).2 :=
  loop_ends_of_gridStride hpos hcount
    (gridStride_ends_of_resolves (blockCount_pos hpos hcount) threadsPerBlock_pos hresolves
      (family.raceFree_owned owner _) hwithin)

end Owned

end Launch

/-- An element of a block that is apart from the block of a family. -/
theorem elementCells_subset_outside_of_disjoint {Cell V W ι : Type} {type : Representation Cell V}
    {other : Representation Cell W} {family : ElementFamily type ι} {span block : Block}
    (hinside : ∀ item, span.address ≤ family.address item ∧
      family.address item + type.size ≤ span.address + span.size)
    (hapart : block.Disjoint span) {address : Nat} (hfirst : block.address ≤ address)
    (hlast : address + other.size ≤ block.address + block.size) :
    elementCells other address ⊆ family.outsideCells := by
  apply ElementFamily.elementCells_subset_outside
  intro item
  have hitem := hinside item
  have hsize := type.size_pos
  have hsize' := other.size_pos
  unfold Block.Disjoint at hapart
  omega

/-! ## Loops of the host -/

section Repeats

variable {Memory α β : Type}

/-- The program does to a memory what the operation of the host does to it. -/
def Repeats (program : Program Memory α) (effect : Effect Memory α) (memory : Memory) : Prop :=
  Effect.exec effect memory = some (.ok (program.exec memory).1, (program.exec memory).2)

/-- Loops whose rounds do the same from every memory that the earlier rounds may leave. -/
theorem Repeats.forM {items : List α} {body : α → Program Memory Unit}
    {body' : α → Effect Memory Unit} (invariant : Memory → Prop)
    (hround : ∀ item ∈ items, ∀ memory, invariant memory →
      Repeats (body item) (body' item) memory ∧ invariant ((body item).exec memory).2)
    {memory : Memory} (hstart : invariant memory) :
    Repeats (forM items body) (forM items body') memory ∧
      invariant ((forM items body : Program Memory Unit).exec memory).2 := by
  induction items generalizing memory with
  | nil => exact ⟨rfl, hstart⟩
  | cons item items ih =>
    rw [List.forall_mem_cons] at hround
    rcases hround.1 memory hstart with ⟨hfirst, hmiddle⟩
    rcases ih hround.2 hmiddle with ⟨hrest, hlast⟩
    unfold Repeats at hfirst hrest ⊢
    rw [Effect.exec_forM_cons, hfirst, Program.exec_forM_cons]
    exact ⟨hrest, hlast⟩

end Repeats

/-! ## Operations -/

section Computes

variable {Cell V ι : Type} {type : Representation Cell V} {execution : ExecutionState}
  {api api' : Api (Nat → Cell)}

/-- The kernels of an operation stand in the queue before its event; however their threads
interleave, they leave given values in a family, and nothing else has changed. -/
def Computes (execution : ExecutionState) (launches : List (Launch (Nat → Cell) × String))
    (family : ElementFamily type ι) (values : (Nat → Cell) → ι → V) (api : Api (Nat → Cell))
    (event : Nat) (api' : Api (Nat → Cell)) : Prop :=
  Submitted execution (launches.map fun launch => .kernel launch.1) api event api' ∧
    Restored api api' ∧
      ∀ memory, ∃ last, StreamEndsIn (launches.map Prod.fst) memory last ∧
        family.Untouched memory last ∧ family.values last = values memory

theorem yields_computes (hserves : Serves execution api) {prepare : Call (Nat → Cell) Unit}
    {property : Prop} (hprepare : Inspects prepare fun _ => property)
    {launches : List (Launch (Nat → Cell) × String)} {family : ElementFamily type ι}
    {values : (Nat → Cell) → ι → V}
    (hkernels : property → ∀ memory, ∃ last, StreamEndsIn (launches.map Prod.fst) memory last ∧
      family.Untouched memory last ∧ family.values last = values memory) :
    Yields (withDevice execution.device do
        prepare
        launchAll execution.stream false launches
        recordOrDrain (.ofState execution) execution) api
      (fun event api' => Computes execution launches family values api event api')
      (Fails execution api) :=
  (yields_launches hserves hprepare launches).mono
    (fun _ _ h => ⟨h.2.1, h.2.2, hkernels h.1⟩) fun _ _ h => h

/-- The kernels of an operation stand in the queue before its event; however their threads
interleave, they do to every memory that the host accepts what an operation of the host does. -/
def RepeatsHost (execution : ExecutionState) (launches : List (Launch (Nat → Cell) × String))
    (accepts : (Nat → Cell) → Prop) (host : Effect (Nat → Cell) Unit) (api : Api (Nat → Cell))
    (event : Nat) (api' : Api (Nat → Cell)) : Prop :=
  Submitted execution (launches.map fun launch => .kernel launch.1) api event api' ∧
    Restored api api' ∧
      ∀ memory, accepts memory → ∃ last, StreamEndsIn (launches.map Prod.fst) memory last ∧
        Effect.exec host memory = some (.ok (), last)

theorem yields_repeatsHost (hserves : Serves execution api) {prepare : Call (Nat → Cell) Unit}
    {property : Prop} (hprepare : Inspects prepare fun _ => property)
    {launches : List (Launch (Nat → Cell) × String)} {accepts : (Nat → Cell) → Prop}
    {host : Effect (Nat → Cell) Unit}
    (hkernels : property → ∀ memory, accepts memory →
      ∃ last, StreamEndsIn (launches.map Prod.fst) memory last ∧
        Effect.exec host memory = some (.ok (), last)) :
    Yields (withDevice execution.device do
        prepare
        launchAll execution.stream false launches
        recordOrDrain (.ofState execution) execution) api
      (fun event api' => RepeatsHost execution launches accepts host api event api')
      (Fails execution api) :=
  (yields_launches hserves hprepare launches).mono
    (fun _ _ h => ⟨h.2.1, h.2.2, hkernels h.1⟩) fun _ _ h => h

end Computes

end Cuda
end Core
end AscCpp
