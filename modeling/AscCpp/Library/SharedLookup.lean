import AscCpp.Library.GridStride
import AscCpp.Library.SharedElement

/-!
# SharedLookup — programs that look something up where nobody writes

What a program does may depend on cells that keep their values, such as an index that it follows.
Then it behaves like a program that knows these values, whose footprint is smaller.

- `Resolves`: a program and one that knows the values of the fixed cells.
- `Resolves.load_bind`: a lookup.
- `ends_of_resolves`: threads that behave like others end where the others do.
- `gridStride_ends_of_resolves`: rounds that keep apart as far as the fixed cells tell.
-/

namespace AscCpp
namespace Library
namespace Program

variable {ι Cell α β : Type} {fixed : Set ι} {memory : ι → Cell}

/-- The two programs make the same accesses while the fixed cells are as in a memory, and leave them
so. -/
inductive Resolves (fixed : Set ι) (memory : ι → Cell) :
    Program (ι → Cell) α → Program (ι → Cell) α → Prop where
  | done (value : α) : Resolves fixed memory (done value) (done value)
  | step {effect : (ι → Cell) → ι → Cell} {next next' : (ι → Cell) → Program (ι → Cell) α}
      (hkeeps : ∀ other, ∀ cell ∈ fixed, effect other cell = other cell)
      (h : ∀ other, Agree fixed memory other → Resolves fixed memory (next other) (next' other)) :
      Resolves fixed memory (step effect next) (step effect next')

/-- A program that does not write the fixed cells behaves like itself. -/
theorem resolves_of_within {reads writes : Set ι} {program : Program (ι → Cell) α}
    (h : program.Within reads writes) (hdisjoint : Disjoint writes fixed) :
    Resolves fixed memory program program := by
  induction program with
  | done value => exact .done value
  | step effect next ih =>
    refine .step (fun other cell hcell => ?_) fun other _ => ih other (h.2.2 other)
    exact h.1 other cell fun hwritten => Set.disjoint_left.1 hdisjoint hwritten hcell

theorem Resolves.bind {program program' : Program (ι → Cell) α}
    {next next' : α → Program (ι → Cell) β} (h : Resolves fixed memory program program')
    (hnext : ∀ value, Resolves fixed memory (next value) (next' value)) :
    Resolves fixed memory (program >>= next) (program' >>= next') := by
  induction h with
  | done value => exact hnext value
  | step hkeeps _ ih => exact .step hkeeps ih

theorem Resolves.forM {items : List α} {body body' : α → Program (ι → Cell) Unit}
    (h : ∀ item ∈ items, Resolves fixed memory (body item) (body' item)) :
    Resolves fixed memory (forM items body) (forM items body') := by
  induction items with
  | nil => exact .done ()
  | cons item items ih =>
    rw [List.forall_mem_cons] at h
    exact h.1.bind fun _ => ih h.2

/-- Run alone, the two programs leave the same. -/
theorem Resolves.exec_eq {program program' : Program (ι → Cell) α}
    (h : Resolves fixed memory program program') {other : ι → Cell}
    (hagree : Agree fixed memory other) : program.exec other = program'.exec other := by
  induction h generalizing other with
  | done value => rfl
  | step hkeeps _ ih =>
    exact ih other hagree fun cell hcell => (hagree cell hcell).trans (hkeeps other cell hcell).symm

/-- A lookup of an element among the fixed cells. -/
theorem Resolves.load_bind {V : Type} {Cell : Type} {fixed : Set Nat} {memory : Nat → Cell}
    {type : Representation Cell V} {address : Nat}
    (haddress : elementCells type address ⊆ fixed) {next : V → Program (Nat → Cell) β}
    {next' : Program (Nat → Cell) β}
    (h : Resolves fixed memory (next (type.load memory address)) next') :
    Resolves fixed memory (load type address >>= next) (load type address >>= fun _ => next') := by
  refine .step (fun _ _ _ => rfl) fun other hagree => ?_
  have hvalue : type.load other address = type.load memory address :=
    type.load_congr fun cell hfirst hlast => (hagree cell (haddress ⟨hfirst, hlast⟩)).symm
  change Resolves fixed memory (next (type.load other address)) next'
  rw [hvalue]
  exact h

end Program

open Program

section Threads

variable {T ι Cell : Type} [DecidableEq T] {fixed : Set ι} {memory last : ι → Cell}
  {threads threads' : T → Program (ι → Cell) Unit}
  {configuration other : Configuration T (ι → Cell)} {count : Nat}

/-- The threads have made the same accesses as those that know the fixed cells. -/
def Follows (fixed : Set ι) (memory : ι → Cell) (configuration known : Configuration T (ι → Cell)) :
    Prop :=
  configuration.memory = known.memory ∧ Agree fixed memory configuration.memory ∧
    ∀ thread, Resolves fixed memory (configuration.threads thread) (known.threads thread)

theorem Follows.step {known : Configuration T (ι → Cell)} (h : Follows fixed memory configuration known)
    (hstep : Step configuration other) :
    ∃ known', Step known known' ∧ Follows fixed memory other known' := by
  rcases known with ⟨threads', memory'⟩
  rcases hstep with @⟨threads, before, thread, effect, next, hthread⟩
  rcases h with ⟨hmemory, hagree, hthreads⟩
  simp only at hmemory
  subst hmemory
  have hresolves := hthreads thread
  simp only [hthread] at hresolves
  generalize hknown : threads' thread = program at hresolves
  cases hresolves with
  | step hkeeps hnext =>
    refine ⟨_, .access thread hknown, rfl, fun cell hcell => ?_, fun other => ?_⟩
    · exact (hagree cell hcell).trans (hkeeps before cell hcell).symm
    · by_cases hsame : other = thread
      · rw [hsame]
        simp only [Function.update_self]
        exact hnext before hagree
      · simp only [Function.update_of_ne hsame]
        exact hthreads other

theorem Follows.run (hresolves : ∀ thread, Resolves fixed memory (threads thread) (threads' thread))
    (hrun : Run count ⟨threads, memory⟩ configuration) :
    ∃ known, Run count ⟨threads', memory⟩ known ∧ Follows fixed memory configuration known := by
  generalize hfirst : (⟨threads, memory⟩ : Configuration T (ι → Cell)) = first at hrun
  induction hrun with
  | start =>
    subst hfirst
    exact ⟨_, .start _, rfl, fun _ _ => rfl, hresolves⟩
  | next _ hstep ih =>
    rcases ih hfirst with ⟨known, hknown, hfollows⟩
    rcases hfollows.step hstep with ⟨known', hstep', hfollows'⟩
    exact ⟨known', .next hknown hstep', hfollows'⟩

/-- Threads that behave like others end where the others do. -/
theorem ends_of_resolves
    (hresolves : ∀ thread, Resolves fixed memory (threads thread) (threads' thread))
    (h : EndsIn threads' memory last) : EndsIn threads memory last := by
  rcases h with ⟨⟨bound, hbound⟩, hends⟩
  refine ⟨⟨bound, fun count configuration hrun => ?_⟩, fun count configuration hrun hstuck => ?_⟩
  · rcases Follows.run hresolves hrun with ⟨known, hknown, -⟩
    exact hbound count known hknown
  · rcases Follows.run hresolves hrun with ⟨known, hknown, hmemory, -, hthreads⟩
    have hfinished := finished_of_stuck hstuck
    -- The others are at their ends too.
    have hknownFinished : known.Finished := by
      intro thread
      have hthread := hthreads thread
      rw [hfinished thread] at hthread
      generalize hprogram : known.threads thread = program at hthread
      cases hthread
      rfl
    have hknownStuck : ∀ other, ¬ Step known other := by
      rintro other ⟨thread, hthread⟩
      have hdone := hknownFinished thread
      simp only [hthread] at hdone
      cases hdone
    exact ⟨hfinished, hmemory.trans (hends count known hknown hknownStuck).2⟩

end Threads

section Grid

variable {ι Cell : Type} {fixed : Set ι} {memory : ι → Cell} {blocks threadsPerBlock count : Nat}
  {body body' : Nat → Program (ι → Cell) Unit} {reads writes : Nat → Set ι}

/-- The threads of a grid share a loop over rounds that keep apart when the fixed cells are known:
they end in the memory that the plain loop leaves. -/
theorem gridStride_ends_of_resolves (hblocks : 0 < blocks) (hthreads : 0 < threadsPerBlock)
    (hresolves : ∀ position < count, Resolves fixed memory (body position) (body' position))
    (hrace : RaceFree (List.range count) reads writes)
    (hwithin : ∀ position < count, (body' position).Within (reads position) (writes position)) :
    EndsIn (gridStride blocks threadsPerBlock count body) memory
      ((forM (List.range count) body : Program (ι → Cell) Unit).exec memory).2 := by
  have hloops : ∀ items : List Nat, (∀ position ∈ items, position < count) →
      Resolves fixed memory (forM items body) (forM items body') := fun items hitems =>
    Resolves.forM fun position hposition => hresolves position (hitems position hposition)
  rw [(hloops (List.range count) fun _ => List.mem_range.1).exec_eq fun _ _ => rfl]
  refine ends_of_resolves (fun thread => hloops _ fun position hposition => ?_)
    (gridStride_ends hblocks hthreads hrace hwithin memory)
  exact ((mem_strides_iff (thread_lt thread)).1 hposition).1

end Grid

end Library
end AscCpp
