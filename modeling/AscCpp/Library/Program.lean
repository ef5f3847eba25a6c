import Mathlib.Data.List.FinRange
import Mathlib.Data.Set.BooleanAlgebra
import Mathlib.Data.Set.Disjoint
import Mathlib.Order.CompletePartialOrder
import Mathlib.Tactic.Common

/-!
# Program — sequences of accesses to a shared memory

A program makes one access after the other; what it goes on with depends on the memory that the
access met.  Its footprint says which cells it reads and which ones it writes.

- `Program.exec_foldlM_range`: the invariant of a counted loop.
- `Program.exec_outside`: a program changes no cell outside its footprint.
- `Program.exec_congr`, `Program.cost_congr`: it depends on no other cell either.
- `Program.exec_forM_inside`: a list of programs that share no written cell.
-/

namespace AscCpp
namespace Library

inductive Program (Memory α : Type) where
  | done (value : α)
  | step (effect : Memory → Memory) (next : Memory → Program Memory α)

namespace Program

variable {Memory α β : Type}

def bind : Program Memory α → (α → Program Memory β) → Program Memory β
  | done value, next => next value
  | step effect rest, next => step effect fun memory => (rest memory).bind next

instance : Monad (Program Memory) where
  pure := done
  bind := bind

theorem bind_done (program : Program Memory α) : program.bind done = program := by
  induction program with
  | done value => rfl
  | step effect rest ih => exact congrArg (step effect) (funext ih)

theorem bind_bind {γ : Type} (program : Program Memory α) (next : α → Program Memory β)
    (last : β → Program Memory γ) :
    (program.bind next).bind last = program.bind fun value => (next value).bind last := by
  induction program with
  | done value => rfl
  | step effect rest ih => exact congrArg (step effect) (funext ih)

instance : LawfulMonad (Program Memory) :=
  LawfulMonad.mk' _ bind_done (fun _ _ => rfl) bind_bind

/-- What the program makes of a memory that nothing else works on. -/
def exec : Program Memory α → Memory → α × Memory
  | done value, memory => (value, memory)
  | step effect next, memory => (next memory).exec (effect memory)

/-- The number of accesses that it makes then. -/
def cost : Program Memory α → Memory → Nat
  | done _, _ => 0
  | step effect next, memory => (next memory).cost (effect memory) + 1

/-- A program that reads a value. -/
def read (value : Memory → α) : Program Memory α :=
  step id fun memory => done (value memory)

/-- A program that changes the memory. -/
def change (effect : Memory → Memory) : Program Memory Unit :=
  step effect fun _ => done ()

@[simp] theorem exec_pure (value : α) (memory : Memory) :
    (pure value : Program Memory α).exec memory = (value, memory) := rfl

@[simp] theorem exec_read (value : Memory → α) (memory : Memory) :
    (read value).exec memory = (value memory, memory) := rfl

@[simp] theorem exec_change (effect : Memory → Memory) (memory : Memory) :
    (change effect).exec memory = ((), effect memory) := rfl

theorem exec_bind (program : Program Memory α) (next : α → Program Memory β) (memory : Memory) :
    (program >>= next).exec memory =
      (next (program.exec memory).1).exec (program.exec memory).2 := by
  change (program.bind next).exec memory = _
  induction program generalizing memory with
  | done value => rfl
  | step effect rest ih => exact ih memory (effect memory)

theorem exec_forM_cons (item : α) (items : List α) (body : α → Program Memory Unit)
    (memory : Memory) :
    (forM (item :: items) body : Program Memory Unit).exec memory =
      (forM items body : Program Memory Unit).exec ((body item).exec memory).2 :=
  exec_bind _ _ _

/-- A loop is a fold over the memory. -/
theorem exec_forM_eq_foldl (items : List α) (body : α → Program Memory Unit) (memory : Memory) :
    ((forM items body : Program Memory Unit).exec memory).2 =
      items.foldl (fun memory item => ((body item).exec memory).2) memory := by
  induction items generalizing memory with
  | nil => rfl
  | cons item items ih =>
    rw [exec_forM_cons, ih]
    rfl

/-- A counted loop, with the bound in the type of the counter. -/
theorem forM_range (count : Nat) (body : Nat → Program Memory Unit) :
    (forM (List.range count) body : Program Memory Unit) =
      forM (List.finRange count) fun position => body position.val := by
  have hrange : List.range count = (List.finRange count).map Fin.val :=
    List.ext_getElem (by simp) (by simp)
  rw [hrange, List.forM_map]

/-- A loop that only reads is a fold over its state. -/
theorem exec_foldlM {items : List α} {body : β → α → Program Memory β} {step : β → α → β}
    {memory : Memory}
    (hround : ∀ item ∈ items, ∀ state, (body state item).exec memory = (step state item, memory))
    (state : β) :
    (items.foldlM body state).exec memory = (items.foldl step state, memory) := by
  induction items generalizing state with
  | nil => rfl
  | cons item items ih =>
    rw [List.forall_mem_cons] at hround
    rw [List.foldlM_cons, exec_bind, hround.1]
    exact ih hround.2 (step state item)

theorem exec_foldlM_concat (items : List α) (item : α) (body : β → α → Program Memory β) (state : β)
    (memory : Memory) :
    ((items ++ [item]).foldlM body state).exec memory =
      (body ((items.foldlM body state).exec memory).1 item).exec
        ((items.foldlM body state).exec memory).2 := by
  induction items generalizing state memory with
  | nil => exact exec_bind (body state item) pure memory
  | cons first items ih =>
    rw [List.cons_append, List.foldlM_cons, List.foldlM_cons, exec_bind, exec_bind, ih]

/-- What every round of a counted loop keeps, the loop keeps. -/
theorem exec_foldlM_range {count : Nat} {body : β → Nat → Program Memory β} {state : β}
    {memory : Memory} (invariant : Nat → β → Memory → Prop) (hstart : invariant 0 state memory)
    (hround : ∀ round < count, ∀ state memory, invariant round state memory →
      invariant (round + 1) ((body state round).exec memory).1 ((body state round).exec memory).2) :
    invariant count (((List.range count).foldlM body state).exec memory).1
      (((List.range count).foldlM body state).exec memory).2 := by
  induction count with
  | zero => exact hstart
  | succ count ih =>
    rw [List.range_succ, exec_foldlM_concat]
    exact hround count (Nat.lt_succ_self count) _ _
      (ih fun round hlt => hround round (Nat.lt_succ_of_lt hlt))

/-! ## Footprints -/

variable {ι Cell : Type} {reads writes reads' writes' : Set ι}

/-- Two memories agree on a set of cells. -/
def Agree (cells : Set ι) (memory memory' : ι → Cell) : Prop :=
  ∀ cell ∈ cells, memory cell = memory' cell

/-- Every access writes cells of the one set only, and depends on cells of the two sets only. -/
def Within (reads writes : Set ι) : Program (ι → Cell) α → Prop
  | done _ => True
  | step effect next =>
    (∀ memory, ∀ cell ∉ writes, effect memory cell = memory cell) ∧
      (∀ memory memory', Agree (reads ∪ writes) memory memory' →
        next memory = next memory' ∧ Agree writes (effect memory) (effect memory')) ∧
      ∀ memory, (next memory).Within reads writes

theorem within_pure (value : α) : Within reads writes (pure value : Program (ι → Cell) α) :=
  trivial

/-- A program that may touch every cell. -/
theorem within_univ (program : Program (ι → Cell) α) : program.Within Set.univ Set.univ := by
  induction program with
  | done value => trivial
  | step effect next ih =>
    refine ⟨fun _ cell hcell => absurd (Set.mem_univ cell) hcell,
      fun memory memory' hagree => ?_, ih⟩
    have hsame : memory = memory' := funext fun cell => hagree cell (Or.inl (Set.mem_univ cell))
    rw [hsame]
    exact ⟨rfl, fun _ _ => rfl⟩

/-- Reading what the cells of a set determine. -/
theorem within_read {value : (ι → Cell) → α}
    (h : ∀ memory memory', Agree (reads ∪ writes) memory memory' → value memory = value memory') :
    Within reads writes (read value) := by
  refine ⟨fun _ _ _ => rfl, fun memory memory' hagree => ⟨?_, ?_⟩, fun _ => trivial⟩
  · exact congrArg done (h memory memory' hagree)
  · exact fun cell hcell => hagree cell (Or.inr hcell)

/-- Changing cells of a set, to what the change says by itself. -/
theorem within_change {effect : (ι → Cell) → ι → Cell}
    (houtside : ∀ memory, ∀ cell ∉ writes, effect memory cell = memory cell)
    (hinside : ∀ memory memory', Agree (reads ∪ writes) memory memory' →
      Agree writes (effect memory) (effect memory')) :
    Within reads writes (change effect) :=
  ⟨houtside, fun memory memory' hagree => ⟨rfl, hinside memory memory' hagree⟩, fun _ => trivial⟩

theorem Within.bind {program : Program (ι → Cell) α} {next : α → Program (ι → Cell) β}
    (h : program.Within reads writes) (h' : ∀ value, (next value).Within reads writes) :
    (program >>= next).Within reads writes := by
  change (program.bind next).Within reads writes
  induction program with
  | done value => exact h' value
  | step effect rest ih =>
    refine ⟨h.1, fun memory memory' hagree => ?_, fun memory => ih memory (h.2.2 memory)⟩
    rcases h.2.1 memory memory' hagree with ⟨hrest, heffect⟩
    exact ⟨congrArg (fun program => program.bind next) hrest, heffect⟩

theorem Within.forM {items : List α} {body : α → Program (ι → Cell) Unit}
    (h : ∀ item ∈ items, (body item).Within reads writes) :
    (forM items body : Program (ι → Cell) Unit).Within reads writes := by
  induction items with
  | nil => exact within_pure ()
  | cons item items ih =>
    rw [List.forall_mem_cons] at h
    exact h.1.bind fun _ => ih h.2

theorem Within.foldlM {items : List α} {body : β → α → Program (ι → Cell) β}
    (h : ∀ state, ∀ item ∈ items, (body state item).Within reads writes) (state : β) :
    (items.foldlM body state).Within reads writes := by
  induction items generalizing state with
  | nil => exact within_pure state
  | cons item items ih =>
    have hfirst := h state item List.mem_cons_self
    exact hfirst.bind fun state' =>
      ih (fun state other hother => h state other (List.mem_cons_of_mem item hother)) state'

theorem Within.mono {program : Program (ι → Cell) α} (h : program.Within reads writes)
    (hreads : reads ⊆ reads' ∪ writes') (hwrites : writes ⊆ writes') :
    program.Within reads' writes' := by
  have hunion : reads ∪ writes ⊆ reads' ∪ writes' :=
    Set.union_subset hreads (hwrites.trans Set.subset_union_right)
  induction program with
  | done value => trivial
  | step effect next ih =>
    refine ⟨fun memory cell hcell => h.1 memory cell fun hold => hcell (hwrites hold),
      fun memory memory' hagree => ?_, fun memory => ih memory (h.2.2 memory)⟩
    rcases h.2.1 memory memory' fun cell hcell => hagree cell (hunion hcell) with ⟨hnext, heffect⟩
    refine ⟨hnext, fun cell hcell => ?_⟩
    -- A cell of the larger set is written, or is as it was in both memories.
    by_cases hold : cell ∈ writes
    · exact heffect cell hold
    · rw [h.1 memory cell hold, h.1 memory' cell hold]
      exact hagree cell (Or.inr hcell)

/-- A program changes no cell that it does not write. -/
theorem exec_outside {program : Program (ι → Cell) α} (h : program.Within reads writes)
    (memory : ι → Cell) {cell : ι} (hcell : cell ∉ writes) :
    (program.exec memory).2 cell = memory cell := by
  induction program generalizing memory with
  | done value => rfl
  | step effect next ih =>
    exact (ih memory (h.2.2 memory) (effect memory)).trans (h.1 memory cell hcell)

/-- A program that writes nothing leaves the memory as it was. -/
theorem exec_readOnly {program : Program (ι → Cell) α} (h : program.Within reads ∅)
    (memory : ι → Cell) : (program.exec memory).2 = memory :=
  funext fun cell => exec_outside h memory (Set.notMem_empty cell)

/-- Behind an access, memories that agreed on a footprint agree on it still. -/
theorem agree_step {effect : (ι → Cell) → ι → Cell} {next : (ι → Cell) → Program (ι → Cell) α}
    (h : (step effect next).Within reads writes) {memory memory' : ι → Cell}
    (hagree : Agree (reads ∪ writes) memory memory') :
    Agree (reads ∪ writes) (effect memory) (effect memory') := by
  intro cell hcell
  by_cases hwritten : cell ∈ writes
  · exact (h.2.1 memory memory' hagree).2 cell hwritten
  · rw [h.1 memory cell hwritten, h.1 memory' cell hwritten]
    exact hagree cell hcell

/-- Two memories that agree on the footprint are not told apart. -/
theorem exec_congr {program : Program (ι → Cell) α} (h : program.Within reads writes)
    {memory memory' : ι → Cell} (hagree : Agree (reads ∪ writes) memory memory') :
    (program.exec memory).1 = (program.exec memory').1 ∧
      Agree (reads ∪ writes) (program.exec memory).2 (program.exec memory').2 := by
  induction program generalizing memory memory' with
  | done value => exact ⟨rfl, hagree⟩
  | step effect next ih =>
    have hnext := (h.2.1 memory memory' hagree).1
    unfold exec
    rw [← hnext]
    exact ih memory (h.2.2 memory) (agree_step h hagree)

theorem cost_congr {program : Program (ι → Cell) α} (h : program.Within reads writes)
    {memory memory' : ι → Cell} (hagree : Agree (reads ∪ writes) memory memory') :
    program.cost memory = program.cost memory' := by
  induction program generalizing memory memory' with
  | done value => rfl
  | step effect next ih =>
    have hnext := (h.2.1 memory memory' hagree).1
    unfold cost
    rw [← hnext, ih memory (h.2.2 memory) (agree_step h hagree)]

/-! ## Programs that keep apart -/

/-- No program of a list writes what another one reads or writes. -/
def RaceFree (items : List α) (reads writes : α → Set ι) : Prop :=
  ∀ item ∈ items, ∀ other ∈ items, item ≠ other →
    Disjoint (writes other) (reads item ∪ writes item)

section Loops

variable {reads writes : α → Set ι} {body : α → Program (ι → Cell) Unit} {items : List α}

theorem exec_forM_outside
    (hwithin : ∀ item ∈ items, (body item).Within (reads item) (writes item)) (memory : ι → Cell)
    {cell : ι} (hcell : ∀ item ∈ items, cell ∉ writes item) :
    ((forM items body : Program (ι → Cell) Unit).exec memory).2 cell = memory cell := by
  induction items generalizing memory with
  | nil => rfl
  | cons first items ih =>
    rw [List.forall_mem_cons] at hcell hwithin
    rw [exec_forM_cons, ih hwithin.2 _ hcell.2, exec_outside hwithin.1 memory hcell.1]

/-- A loop over programs that keep apart leaves in the cells of each what it leaves there alone. -/
theorem exec_forM_inside (hrace : RaceFree items reads writes)
    (hwithin : ∀ item ∈ items, (body item).Within (reads item) (writes item))
    (hnodup : items.Nodup) (memory : ι → Cell) {item : α} (hitem : item ∈ items) {cell : ι}
    (hcell : cell ∈ writes item) :
    ((forM items body : Program (ι → Cell) Unit).exec memory).2 cell =
      ((body item).exec memory).2 cell := by
  induction items generalizing memory with
  | nil => cases hitem
  | cons first items ih =>
    rw [List.nodup_cons] at hnodup
    have hwithin' := (List.forall_mem_cons.1 hwithin).2
    rw [exec_forM_cons]
    rcases List.mem_cons.1 hitem with rfl | hlater
    · -- The later programs do not write the cells of the first one.
      apply exec_forM_outside hwithin'
      intro other hother hold
      have hne : item ≠ other := fun heq => hnodup.1 (heq ▸ hother)
      have hapart := hrace item hitem other (List.mem_cons_of_mem item hother) hne
      exact Set.disjoint_left.1 hapart hold (Or.inr hcell)
    · have hne : item ≠ first := fun heq => hnodup.1 (heq ▸ hlater)
      have hapart := hrace item hitem first List.mem_cons_self hne
      have hrace' : RaceFree items reads writes := fun left hleft right hright =>
        hrace left (List.mem_cons_of_mem first hleft) right (List.mem_cons_of_mem first hright)
      rw [ih hrace' hwithin' hnodup.2 _ hlater]
      apply (exec_congr (hwithin item hitem) fun other hother => ?_).2 cell (Or.inr hcell)
      exact exec_outside (hwithin first List.mem_cons_self) memory
        fun hold => Set.disjoint_left.1 hapart hold hother

end Loops

end Program

end Library
end AscCpp
