import AscCpp.Library.Program
import Mathlib.Algebra.BigOperators.Fin
import Mathlib.Logic.Function.Basic

/-!
# Interleaving — threads that work on one memory

A step takes one access of one thread, so that a run is any interleaving of the accesses.

- `Progress`: what threads that keep apart have done so far, and what is left to do.
- `Progress.step`, `Progress.run`: a step and a run of the threads keep it.
- `ends_of_raceFree`: threads that keep apart end in one memory, whatever the order of the steps.
-/

namespace AscCpp
namespace Library

open Program

variable {T Memory : Type}

/-- Threads with what is left of their programs, and the memory that they share. -/
structure Configuration (T Memory : Type) where
  threads : T → Program Memory Unit
  memory : Memory

/-- A thread makes its next access. -/
inductive Step [DecidableEq T] : Configuration T Memory → Configuration T Memory → Prop where
  | access {threads : T → Program Memory Unit} {memory : Memory} (thread : T)
      {effect : Memory → Memory} {next : Memory → Program Memory Unit}
      (h : threads thread = .step effect next) :
      Step ⟨threads, memory⟩ ⟨Function.update threads thread (next memory), effect memory⟩

/-- So many steps, in any order of the threads. -/
inductive Run [DecidableEq T] : Nat → Configuration T Memory → Configuration T Memory → Prop where
  | start (configuration : Configuration T Memory) : Run 0 configuration configuration
  | next {count : Nat} {first middle last : Configuration T Memory} (h : Run count first middle)
      (hstep : Step middle last) : Run (count + 1) first last

/-- All threads have come to their end. -/
def Configuration.Finished (configuration : Configuration T Memory) : Prop :=
  ∀ thread, configuration.threads thread = .done ()

/-- Every run comes to an end after a number of steps at most, with all threads at their ends and
this memory. -/
def EndsIn [DecidableEq T] (threads : T → Program Memory Unit) (memory last : Memory) : Prop :=
  (∃ bound, ∀ count configuration, Run count ⟨threads, memory⟩ configuration → count ≤ bound) ∧
    ∀ count configuration, Run count ⟨threads, memory⟩ configuration →
      (∀ other, ¬ Step configuration other) →
        configuration.Finished ∧ configuration.memory = last

/-- A thread that is not at its end can make a step. -/
theorem finished_of_stuck [DecidableEq T] {configuration : Configuration T Memory}
    (h : ∀ other, ¬ Step configuration other) : configuration.Finished := by
  rcases configuration with ⟨threads, memory⟩
  intro thread
  cases hthread : threads thread with
  | done value => exact hthread
  | step effect next => exact absurd (Step.access thread hthread) (h _)

section RaceFree

variable {ι Cell : Type} [Fintype T] {reads writes : T → Set ι}
  {threads : T → Program (ι → Cell) Unit} {memory : ι → Cell}
  {configuration other : Configuration T (ι → Cell)} {count : Nat}

/-- The accesses that are left, if the threads ran alone. -/
def Configuration.remaining (configuration : Configuration T (ι → Cell)) : Nat :=
  ∑ thread, (configuration.threads thread).cost configuration.memory

/-- What the threads have left to do brings their own cells to where their programs, run alone,
would have brought them; the other cells have not changed. -/
structure Progress (reads writes : T → Set ι) (threads : T → Program (ι → Cell) Unit)
    (memory : ι → Cell) (count : Nat) (configuration : Configuration T (ι → Cell)) : Prop where
  within : ∀ thread, (configuration.threads thread).Within (reads thread) (writes thread)
  inside : ∀ thread, ∀ cell ∈ writes thread,
    ((configuration.threads thread).exec configuration.memory).2 cell =
      ((threads thread).exec memory).2 cell
  outside : ∀ cell, (∀ thread, cell ∉ writes thread) → configuration.memory cell = memory cell
  remaining_eq : count + configuration.remaining = ∑ thread, (threads thread).cost memory

theorem Progress.start (hwithin : ∀ thread, (threads thread).Within (reads thread) (writes thread))
    (memory : ι → Cell) : Progress reads writes threads memory 0 ⟨threads, memory⟩ where
  within := hwithin
  inside _ _ _ := rfl
  outside _ _ := rfl
  remaining_eq := Nat.zero_add _

theorem Progress.step [DecidableEq T] (hrace : ∀ thread thread', thread ≠ thread' →
      Disjoint (writes thread') (reads thread ∪ writes thread))
    (h : Progress reads writes threads memory count configuration)
    (hstep : Step configuration other) :
    Progress reads writes threads memory (count + 1) other := by
  rcases hstep with @⟨current, before, thread, effect, next, hthread⟩
  have hacting := h.within thread
  simp only [hthread] at hacting
  -- The cells of the other threads are not touched.
  have hothers : ∀ thread', thread' ≠ thread →
      Agree (reads thread' ∪ writes thread') (effect before) before := by
    intro thread' hne cell hcell
    exact hacting.1 before cell
      fun hold => Set.disjoint_left.1 (hrace thread' thread hne) hold hcell
  refine ⟨fun thread' => ?_, fun thread' cell hcell => ?_, fun cell hcell => ?_, ?_⟩
  · rcases eq_or_ne thread' thread with rfl | hne
    · simp only [Function.update_self]
      exact hacting.2.2 before
    · simp only [Function.update_of_ne hne]
      exact h.within thread'
  · rw [← h.inside thread' cell hcell]
    rcases eq_or_ne thread' thread with rfl | hne
    · simp only [Function.update_self, hthread]
      rfl
    · simp only [Function.update_of_ne hne]
      exact (exec_congr (h.within thread') (hothers thread' hne)).2 cell (Or.inr hcell)
  · exact (hacting.1 before cell (hcell thread)).trans (h.outside cell hcell)
  · rw [← h.remaining_eq, Configuration.remaining, Configuration.remaining, Nat.add_assoc,
      ← Finset.sum_erase_add _ _ (Finset.mem_univ thread),
      ← Finset.sum_erase_add _ _ (Finset.mem_univ thread)]
    have hsame : ∀ thread' ∈ Finset.univ.erase thread,
        (Function.update current thread (next before) thread').cost (effect before) =
          (current thread').cost before := by
      intro thread' hmem
      have hne := Finset.ne_of_mem_erase hmem
      rw [Function.update_of_ne hne]
      exact cost_congr (h.within thread') (hothers thread' hne)
    rw [Finset.sum_congr rfl hsame]
    simp only [Function.update_self, hthread, cost]
    omega

theorem Progress.run [DecidableEq T] (hrace : ∀ thread thread', thread ≠ thread' →
      Disjoint (writes thread') (reads thread ∪ writes thread))
    (hwithin : ∀ thread, (threads thread).Within (reads thread) (writes thread))
    (hrun : Run count ⟨threads, memory⟩ configuration) :
    Progress reads writes threads memory count configuration := by
  generalize hfirst : (⟨threads, memory⟩ : Configuration T (ι → Cell)) = first at hrun
  induction hrun with
  | start => exact hfirst ▸ .start hwithin memory
  | next _ hstep ih => exact (ih hfirst).step hrace hstep

/-- Threads that keep apart end in the memory that holds in the cells of each what its program, run
alone, leaves there. -/
theorem ends_of_raceFree [DecidableEq T] (hrace : ∀ thread thread', thread ≠ thread' →
      Disjoint (writes thread') (reads thread ∪ writes thread))
    (hwithin : ∀ thread, (threads thread).Within (reads thread) (writes thread))
    {last : ι → Cell}
    (hinside : ∀ thread, ∀ cell ∈ writes thread,
      last cell = ((threads thread).exec memory).2 cell)
    (houtside : ∀ cell, (∀ thread, cell ∉ writes thread) → last cell = memory cell) :
    EndsIn threads memory last := by
  refine ⟨⟨∑ thread, (threads thread).cost memory, fun count configuration hrun => ?_⟩,
    fun count configuration hrun hstuck => ⟨finished_of_stuck hstuck, ?_⟩⟩
  · have hprogress := Progress.run hrace hwithin hrun
    exact hprogress.remaining_eq ▸ Nat.le_add_right _ _
  · have hprogress := Progress.run hrace hwithin hrun
    have hfinished := finished_of_stuck hstuck
    funext cell
    by_cases hcell : ∃ thread, cell ∈ writes thread
    · rcases hcell with ⟨thread, hcell⟩
      rw [hinside thread cell hcell, ← hprogress.inside thread cell hcell, hfinished thread]
      rfl
    · rw [not_exists] at hcell
      rw [hprogress.outside cell hcell, houtside cell hcell]

end RaceFree

end Library
end AscCpp
