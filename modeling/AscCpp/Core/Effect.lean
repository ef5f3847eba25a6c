import AscCpp.Core.Memory
import AscCpp.Core.Status
import AscCpp.Library.InPlace
import Mathlib.Control.Lawful
import Mathlib.Data.List.FinRange

/-!
# Effect — operations that change memory

An operation over memory ends with a value or with a failing status, and leaves a memory behind in
both cases; or it runs into a failing check, which stops the program and has no outcome.

- `Effect.exec_forM_ok`: a loop succeeds and keeps an invariant when every round does.
- `Effect.exec_forM_family`: a loop over a family of elements is a fold over their values.
- `agreeOn_of_untouched`: what is apart from a family keeps its bytes.
-/

namespace AscCpp
namespace Core

/-- An operation over memory. -/
abbrev Effect (Memory : Type) := ExceptT Status (StateT Memory Option)

namespace Effect

variable {Memory α β : Type}

/-- What the operation makes of a memory. -/
def exec (effect : Effect Memory α) (memory : Memory) : Option (Result α × Memory) :=
  (ExceptT.run effect).run memory

/-- `ASC_CHECK`: without a value the program stops. -/
def check (value : Option α) : Effect Memory α :=
  ExceptT.lift (StateT.lift value)

/-- An operation that does not touch the memory. -/
def ofResult (result : Result α) : Effect Memory α :=
  ExceptT.mk (pure result)

def read : Effect Memory Memory :=
  ExceptT.lift get

def write (memory : Memory) : Effect Memory Unit :=
  ExceptT.lift (set memory)

@[simp] theorem exec_pure (value : α) (memory : Memory) :
    exec (pure value) memory = some (.ok value, memory) := rfl

@[simp] theorem exec_ofResult (result : Result α) (memory : Memory) :
    exec (ofResult result) memory = some (result, memory) := rfl

@[simp] theorem exec_read (memory : Memory) : exec read memory = some (.ok memory, memory) := rfl

@[simp] theorem exec_write (memory memory' : Memory) :
    exec (write memory') memory = some (.ok (), memory') := rfl

theorem exec_check (value : Option α) (memory : Memory) :
    exec (check value) memory = value.map fun value => (.ok value, memory) := by
  cases value <;> rfl

/-- The second operation starts from the memory that the first one leaves, if that succeeds. -/
theorem exec_bind (first : Effect Memory α) (next : α → Effect Memory β) (memory : Memory) :
    exec (first >>= next) memory =
      (exec first memory).bind fun outcome =>
        match outcome with
        | (.ok value, memory') => exec (next value) memory'
        | (.error status, memory') => some (.error status, memory') := by
  simp only [exec, ExceptT.run_bind, StateT.run_bind]
  cases (ExceptT.run first).run memory with
  | none => rfl
  | some outcome =>
    rcases outcome with ⟨value | status, memory'⟩ <;> rfl

/-- Past a result, the run goes on exactly when the result is a value. -/
theorem exec_ofResult_bind (result : Result α) (next : α → Effect Memory β) (memory : Memory) :
    exec (ofResult result >>= next) memory =
      match result with
      | .ok value => exec (next value) memory
      | .error status => some (.error status, memory) := by
  rw [exec_bind, exec_ofResult, Option.bind_some]
  cases result <;> rfl

theorem exec_read_bind (next : Memory → Effect Memory β) (memory : Memory) :
    exec (read >>= next) memory = exec (next memory) memory := by
  rw [exec_bind, exec_read, Option.bind_some]

theorem exec_check_bind (value : Option α) (next : α → Effect Memory β) (memory : Memory) :
    exec (check value >>= next) memory = value.bind fun value => exec (next value) memory := by
  rw [exec_bind, exec_check]
  cases value <;> rfl

theorem check_some_bind (value : α) (next : α → Effect Memory β) :
    (check (some value) >>= next) = next value := rfl

theorem ofResult_ok_bind (value : α) (next : α → Effect Memory β) :
    (ofResult (.ok value) >>= next) = next value := rfl

/-- Checks one after the other are one check. -/
theorem ofResult_bind (first : Result α) (second : α → Result β) (next : β → Effect Memory γ) :
    (ofResult (first >>= second) >>= next) =
      (ofResult first >>= fun value => ofResult (second value) >>= next) := by
  cases first <;> rfl

/-- Behind a check, a run that succeeds has passed it. -/
theorem exec_ofResult_bind_ok_iff {check : Result Unit} {next : Effect Memory β} {memory : Memory}
    {value : β} {memory' : Memory} :
    exec (ofResult check >>= fun _ => next) memory = some (.ok value, memory') ↔
      check = .ok () ∧ exec next memory = some (.ok value, memory') := by
  rw [exec_ofResult_bind]
  cases check with
  | ok value => simp
  | error status => simp

/-! ## Loops -/

theorem exec_forM_nil (body : α → Effect Memory Unit) (memory : Memory) :
    exec (forM [] body) memory = some (.ok (), memory) := rfl

theorem exec_forM_cons (item : α) (items : List α) (body : α → Effect Memory Unit)
    (memory : Memory) :
    exec (forM (item :: items) body) memory =
      (exec (body item) memory).bind fun outcome =>
        match outcome with
        | (.ok _, memory') => exec (forM items body) memory'
        | (.error status, memory') => some (.error status, memory') := by
  rw [List.forM_cons, exec_bind]
  congr 1
  funext outcome
  rcases outcome with ⟨status | value, memory'⟩ <;> rfl

/-- A counted loop, with the bound in the type of the counter. -/
theorem forM_range (count : Nat) (body : Nat → Effect Memory Unit) :
    (forM (List.range count) body : Effect Memory Unit) =
      forM (List.finRange count) fun position => body position.val := by
  have hrange : List.range count = (List.finRange count).map Fin.val :=
    List.ext_getElem (by simp) (by simp)
  rw [hrange, List.forM_map]

/-- A loop that comes to an end succeeds and keeps an invariant, when every round does. -/
theorem exec_forM_ok {items : List α} {body : α → Effect Memory Unit} (invariant : Memory → Prop)
    (hround : ∀ item ∈ items, ∀ memory result memory', invariant memory →
      exec (body item) memory = some (result, memory') → result = .ok () ∧ invariant memory')
    {memory memory' : Memory} {result : Result Unit} (hstart : invariant memory)
    (hrun : exec (forM items body) memory = some (result, memory')) :
    result = .ok () ∧ invariant memory' := by
  induction items generalizing memory with
  | nil =>
    cases hrun
    exact ⟨rfl, hstart⟩
  | cons item items ih =>
    rw [List.forall_mem_cons] at hround
    rw [exec_forM_cons] at hrun
    cases hfirst : exec (body item) memory with
    | none => simp [hfirst] at hrun
    | some outcome =>
      rcases outcome with ⟨outcome, middle⟩
      rcases hround.1 memory outcome middle hstart hfirst with ⟨rfl, hmiddle⟩
      rw [hfirst, Option.bind_some] at hrun
      exact ih hround.2 hmiddle hrun

/-- Every round of a loop that succeeds has succeeded from a memory with the invariant. -/
theorem exec_forM_ok_mem {items : List α} {body : α → Effect Memory Unit} (invariant : Memory → Prop)
    (hround : ∀ item ∈ items, ∀ memory memory', invariant memory →
      exec (body item) memory = some (.ok (), memory') → invariant memory')
    {memory memory' : Memory} (hstart : invariant memory)
    (hrun : exec (forM items body) memory = some (.ok (), memory')) {item : α}
    (hitem : item ∈ items) :
    ∃ before after, invariant before ∧ exec (body item) before = some (.ok (), after) := by
  induction items generalizing memory with
  | nil => cases hitem
  | cons first items ih =>
    rw [List.forall_mem_cons] at hround
    rw [exec_forM_cons] at hrun
    rcases Option.bind_eq_some_iff.1 hrun with ⟨⟨status | value, middle⟩, hfirst, hrest⟩
    · cases hrest
    · rcases List.mem_cons.1 hitem with rfl | hlater
      · exact ⟨memory, middle, hstart, hfirst⟩
      · exact ih hround.2 (hround.1 memory middle hstart hfirst) hrest hlater

/-- A loop whose rounds leave the memory alone is a fold. -/
theorem exec_foldlM {items : List α} {body : β → α → Effect Memory β} {step : β → α → β}
    {memory : Memory}
    (hround : ∀ item ∈ items, ∀ state,
      exec (body state item) memory = some (.ok (step state item), memory))
    (state : β) :
    exec (items.foldlM body state) memory = some (.ok (items.foldl step state), memory) := by
  induction items generalizing state with
  | nil => rfl
  | cons item items ih =>
    rw [List.forall_mem_cons] at hround
    rw [List.foldlM_cons, exec_bind, hround.1, Option.bind_some]
    exact ih hround.2 (step state item)

/-! ## Stores -/

/-- An assignment to the element at an address. -/
def store {Cell V : Type} (type : Library.Representation Cell V) (address : Nat) (value : V) :
    Effect (Nat → Cell) Unit := do
  let memory ← read
  write (type.store memory address value)

@[simp] theorem exec_store {Cell V : Type} (type : Library.Representation Cell V) (address : Nat)
    (value : V) (memory : Nat → Cell) :
    exec (store type address value) memory =
      some (.ok (), type.store memory address value) := rfl

/-- A loop that computes one element after the other and stores it. -/
theorem exec_forM_storeInTurn {Cell V : Type} {type : Library.Representation Cell V}
    {address : Nat → Nat} {compute : (Nat → Cell) → Nat → V}
    {body : Nat → Effect (Nat → Cell) Unit} {count : Nat} {memory : Nat → Cell}
    (hround : ∀ item < count,
      exec (body item) (Library.storeInTurn type address compute item memory) =
        some (.ok (), Library.storeInTurn type address compute (item + 1) memory)) :
    exec (forM (List.range count) body) memory =
      some (.ok (), Library.storeInTurn type address compute count memory) := by
  induction count with
  | zero => rfl
  | succ count ih =>
    rw [List.range_succ, List.forM_append, exec_bind,
      ih fun item hitem => hround item (hitem.trans (Nat.lt_succ_self count)), Option.bind_some]
    change exec (forM [count] body) _ = _
    rw [exec_forM_cons, hround count (Nat.lt_succ_self count)]
    rfl

section Families

variable {Cell V ι : Type} {type : Library.Representation Cell V}
  {family : Library.ElementFamily type ι}

/-- The effect succeeds, changes no cell outside the family and changes its values by a step. -/
def Updates (family : Library.ElementFamily type ι) (effect : Effect (Nat → Cell) Unit)
    (step : (ι → V) → ι → V) (memory : Nat → Cell) : Prop :=
  ∃ memory', exec effect memory = some (.ok (), memory') ∧ family.Untouched memory memory' ∧
    family.values memory' = step (family.values memory)

theorem updates_store [DecidableEq ι] (item : ι) (value : V) (memory : Nat → Cell) :
    Updates family (store type (family.address item) value)
      (fun values => Function.update values item value) memory :=
  ⟨_, exec_store _ _ _ _, family.untouched_store memory item value,
    family.values_store memory item value⟩

/-- The second effect starts from the values that the first one leaves. -/
theorem Updates.bind {first second : Effect (Nat → Cell) Unit} {step step' : (ι → V) → ι → V}
    {memory : Nat → Cell} (h : Updates family first step memory)
    (h' : ∀ memory', family.Untouched memory memory' → Updates family second step' memory') :
    Updates family (first >>= fun _ => second) (fun values => step' (step values)) memory := by
  rcases h with ⟨middle, hrun, hframe, hvalues⟩
  rcases h' middle hframe with ⟨last, hrun', hframe', hvalues'⟩
  refine ⟨last, ?_, hframe.trans hframe', ?_⟩
  · rw [exec_bind, hrun]
    exact hrun'
  · rw [hvalues', hvalues]

/-- The elements of a family under other names. -/
theorem Updates.of_reindex {κ : Type} (item : κ ≃ ι) {effect : Effect (Nat → Cell) Unit}
    {step : (κ → V) → κ → V} {memory : Nat → Cell}
    (h : Updates (family.reindex item item.injective) effect step memory) :
    Updates family effect (fun values other => step (fun index => values (item index))
      (item.symm other)) memory := by
  rcases h with ⟨memory', hrun, hframe, hvalues⟩
  refine ⟨memory', hrun, fun cell houtside => hframe cell fun index => houtside (item index), ?_⟩
  funext other
  calc
    family.values memory' other = family.values memory' (item (item.symm other)) :=
      congrArg (family.values memory') (item.apply_symm_apply other).symm
    _ = _ := congrFun hvalues (item.symm other)

/-- Both effects complete, with the same values in the family and the same cells outside of it. -/
def SameOutcome (family : Library.ElementFamily type ι) (effect effect' : Effect (Nat → Cell) Unit)
    (memory : Nat → Cell) : Prop :=
  ∃ last last', exec effect memory = some (.ok (), last) ∧
    exec effect' memory = some (.ok (), last') ∧ family.values last = family.values last' ∧
      ∀ cell, family.Outside cell → last cell = last' cell

theorem Updates.sameOutcome {effect effect' : Effect (Nat → Cell) Unit}
    {step step' : (ι → V) → ι → V} {memory : Nat → Cell} (h : Updates family effect step memory)
    (h' : Updates family effect' step' memory)
    (hstep : step (family.values memory) = step' (family.values memory)) :
    SameOutcome family effect effect' memory := by
  rcases h with ⟨last, hrun, hframe, hvalues⟩
  rcases h' with ⟨last', hrun', hframe', hvalues'⟩
  refine ⟨last, last', hrun, hrun', ?_, fun cell houtside => ?_⟩
  · rw [hvalues, hvalues', hstep]
  · rw [hframe cell houtside, hframe' cell houtside]

/-- A loop whose rounds update a family folds their steps over its values.  The rounds may rely on
the cells outside the family being as they were. -/
theorem exec_forM_family {items : List α} {body : α → Effect (Nat → Cell) Unit}
    {step : (ι → V) → α → ι → V} (memory : Nat → Cell)
    (hround : ∀ item ∈ items, ∀ memory', family.Untouched memory memory' →
      Updates family (body item) (fun values => step values item) memory') :
    Updates family (forM items body) (fun values => items.foldl step values) memory := by
  -- By induction over the items, from any memory that the earlier rounds may have left.
  have hrun : ∀ (items : List α), (∀ item ∈ items, ∀ memory', family.Untouched memory memory' →
      Updates family (body item) (fun values => step values item) memory') →
      ∀ memory', family.Untouched memory memory' →
        Updates family (forM items body) (fun values => items.foldl step values) memory' := by
    intro items
    induction items with
    | nil =>
      intro _ memory' _
      exact ⟨memory', rfl, .refl memory', rfl⟩
    | cons item items ih =>
      intro hround memory' huntouched
      rw [List.forall_mem_cons] at hround
      rcases hround.1 memory' huntouched with ⟨middle, hfirst, hmiddle, hvalues⟩
      rcases ih hround.2 middle (huntouched.trans hmiddle) with ⟨last, hlast, hend, hfinal⟩
      refine ⟨last, ?_, hmiddle.trans hend, ?_⟩
      · rw [exec_forM_cons, hfirst]
        exact hlast
      · rw [hfinal, hvalues]
        rfl
  exact hrun items hround memory (.refl memory)

end Families

end Effect

/-! ## Blocks -/

section Blocks

open Library

variable {Cell V : Type} {type : Representation Cell V}

/-- Two memories agree on the bytes of a block. -/
def AgreeOn (span : Block) (memory memory' : Nat → Cell) : Prop :=
  ∀ cell, span.address ≤ cell → cell < span.address + span.size → memory cell = memory' cell

/-- Elements inside a block that stand one behind the other. -/
theorem load_congr_block {address count position : Nat} {memory memory' : Nat → Cell}
    (h : AgreeOn ⟨address, count * type.size⟩ memory memory') (hposition : position < count) :
    type.load memory (address + position * type.size) =
      type.load memory' (address + position * type.size) := by
  have hle := Nat.mul_le_mul_right type.size (Nat.succ_le_of_lt hposition)
  rw [Nat.succ_mul] at hle
  apply type.load_congr
  intro cell hfirst hlast
  apply h cell
  · have haddress : address ≤ address + position * type.size := Nat.le_add_right _ _
    exact haddress.trans hfirst
  · simp only
    omega

/-- Writes into the elements of a block are not seen in a block apart from it. -/
theorem agreeOn_of_untouched {ι : Type} {family : ElementFamily type ι} {span other : Block}
    (hinside : ∀ item, span.address ≤ family.address item ∧
      family.address item + type.size ≤ span.address + span.size)
    (hapart : other.Disjoint span) {memory memory' : Nat → Cell}
    (h : family.Untouched memory memory') : AgreeOn other memory memory' := by
  intro cell hfirst hlast
  refine (h cell fun item => ?_).symm
  have hitem := hinside item
  have hsize := type.size_pos
  unfold Block.Disjoint at hapart
  omega

/-- Elements of a block that are stored in turn are not seen in a block apart from it. -/
theorem agreeOn_storeInTurn {address : Nat → Nat} {compute : (Nat → Cell) → Nat → V} {count : Nat}
    {span other : Block}
    (hinside : ∀ item < count, span.address ≤ address item ∧
      address item + type.size ≤ span.address + span.size)
    (hapart : other.Disjoint span) (memory : Nat → Cell) :
    AgreeOn other memory (storeInTurn type address compute count memory) := by
  intro cell hfirst hlast
  symm
  apply storeInTurn_outside
  intro item hitem
  have hbounds := hinside item hitem
  have hsize := type.size_pos
  unfold Block.Disjoint at hapart
  omega

end Blocks

end Core
end AscCpp
