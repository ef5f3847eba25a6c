import AscCpp.Core.Effect

/-!
# Outcome — rules for operations that may fail

`Yields effect memory returns fails`: from the memory the operation comes to an outcome, which is a
value with `returns` or a failing status with `fails`.

- `Yields.bind`, `Yields.forM_range`, `Yields.foldlM_range`: sequences and counted loops.
- `Yields.failIf`, `Yields.check`: checks that return early, and those that must not fail.
-/

namespace AscCpp
namespace Core
namespace Effect

variable {Memory α β : Type}

/-- The value of the element at an address. -/
def load {Cell V : Type} (type : Library.Representation Cell V) (address : Nat) :
    Effect (Nat → Cell) V := do
  let memory ← read
  Pure.pure (type.load memory address)

def Yields (effect : Effect Memory α) (memory : Memory) (returns : α → Memory → Prop)
    (fails : Status → Memory → Prop) : Prop :=
  ∃ result memory', exec effect memory = some (result, memory') ∧
    match result with
    | .ok value => returns value memory'
    | .error status => fails status memory'

namespace Yields

variable {memory : Memory} {returns : α → Memory → Prop} {returns' : β → Memory → Prop}
  {fails fails' : Status → Memory → Prop}

theorem mono {effect : Effect Memory α} {weaker : α → Memory → Prop}
    (h : Yields effect memory returns fails)
    (hreturns : ∀ value memory', returns value memory' → weaker value memory')
    (hfails : ∀ status memory', fails status memory' → fails' status memory') :
    Yields effect memory weaker fails' := by
  rcases h with ⟨result, memory', hrun, hresult⟩
  refine ⟨result, memory', hrun, ?_⟩
  cases result with
  | ok value => exact hreturns value memory' hresult
  | error status => exact hfails status memory' hresult

theorem pure {value : α} (h : returns value memory) :
    Yields (Pure.pure value : Effect Memory α) memory returns fails :=
  ⟨.ok value, memory, rfl, h⟩

/-- The second operation starts where the first one ends. -/
theorem bind {first : Effect Memory α} {next : α → Effect Memory β}
    (h : Yields first memory returns fails)
    (hnext : ∀ value memory', returns value memory' →
      Yields (next value) memory' returns' fails) :
    Yields (first >>= next) memory returns' fails := by
  rcases h with ⟨result, middle, hrun, hresult⟩
  cases result with
  | ok value =>
    rcases hnext value middle hresult with ⟨result', memory', hrun', hresult'⟩
    refine ⟨result', memory', ?_, hresult'⟩
    rw [exec_bind, hrun]
    exact hrun'
  | error status =>
    refine ⟨.error status, middle, ?_, hresult⟩
    rw [exec_bind, hrun]
    rfl

/-- Behind a check that returns early the condition does not hold. -/
theorem failIf {condition : Prop} [Decidable condition] {status : Status}
    {next : Unit → Effect Memory β} (hfails : condition → fails status memory)
    (hnext : ¬ condition → Yields (next ()) memory returns' fails) :
    Yields (ofResult (Core.failIf condition status) >>= next) memory returns' fails := by
  by_cases h : condition
  · refine ⟨.error status, memory, ?_, hfails h⟩
    rw [exec_ofResult_bind, Core.failIf, if_pos h]
  · rcases hnext h with ⟨result, memory', hrun, hresult⟩
    refine ⟨result, memory', ?_, hresult⟩
    rw [exec_ofResult_bind, Core.failIf, if_neg h]
    exact hrun

/-- A check at the end. -/
theorem failIf_last {condition : Prop} [Decidable condition] {status : Status}
    {returns : Unit → Memory → Prop} (hfails : condition → fails status memory)
    (hreturns : ¬ condition → returns () memory) :
    Yields (ofResult (Core.failIf condition status)) memory returns fails := by
  by_cases h : condition
  · refine ⟨.error status, memory, ?_, hfails h⟩
    rw [exec_ofResult, Core.failIf, if_pos h]
  · refine ⟨.ok (), memory, ?_, hreturns h⟩
    rw [exec_ofResult, Core.failIf, if_neg h]

theorem ofResult_ok {result : Result α} {value : α} {next : α → Effect Memory β}
    (hresult : result = .ok value) (hnext : Yields (next value) memory returns' fails) :
    Yields (ofResult result >>= next) memory returns' fails := by
  rcases hnext with ⟨outcome, memory', hrun, houtcome⟩
  refine ⟨outcome, memory', ?_, houtcome⟩
  rw [exec_ofResult_bind, hresult]
  exact hrun

theorem check {option : Option α} {value : α} (hoption : option = some value)
    (hreturns : returns value memory) : Yields (Effect.check option) memory returns fails := by
  refine ⟨.ok value, memory, ?_, hreturns⟩
  rw [exec_check, hoption]
  rfl

theorem load {Cell V : Type} {type : Library.Representation Cell V} {address : Nat}
    {memory : Nat → Cell} {next : V → Effect (Nat → Cell) β} {returns' : β → (Nat → Cell) → Prop}
    {fails : Status → (Nat → Cell) → Prop}
    (hnext : Yields (next (type.load memory address)) memory returns' fails) :
    Yields (Effect.load type address >>= next) memory returns' fails := by
  rcases hnext with ⟨outcome, memory', hrun, houtcome⟩
  refine ⟨outcome, memory', ?_, houtcome⟩
  rw [exec_bind]
  exact hrun

theorem store {Cell V : Type} {type : Library.Representation Cell V} {address : Nat} {value : V}
    {memory : Nat → Cell} {returns : Unit → (Nat → Cell) → Prop}
    {fails : Status → (Nat → Cell) → Prop}
    (h : returns () (type.store memory address value)) :
    Yields (Effect.store type address value) memory returns fails :=
  ⟨.ok (), _, exec_store type address value memory, h⟩

theorem store_bind {Cell V : Type} {type : Library.Representation Cell V} {address : Nat} {value : V}
    {memory : Nat → Cell} {next : Unit → Effect (Nat → Cell) β}
    {returns' : β → (Nat → Cell) → Prop} {fails : Status → (Nat → Cell) → Prop}
    (hnext : Yields (next ()) (type.store memory address value) returns' fails) :
    Yields (Effect.store type address value >>= next) memory returns' fails := by
  rcases hnext with ⟨outcome, memory', hrun, houtcome⟩
  refine ⟨outcome, memory', ?_, houtcome⟩
  rw [exec_bind, exec_store]
  exact hrun

/-! ## Counted loops -/

/-- A loop whose rounds carry an invariant from one index to the next. -/
theorem forM_range {count : Nat} {body : Nat → Effect Memory Unit}
    (invariant : Nat → Memory → Prop)
    (hround : ∀ index < count, ∀ memory, invariant index memory →
      Yields (body index) memory (fun _ => invariant (index + 1)) fails)
    (hstart : invariant 0 memory) :
    Yields (forM (List.range count) body) memory (fun _ => invariant count) fails := by
  induction count with
  | zero => exact pure hstart
  | succ count ih =>
    have hbefore := ih fun index hindex => hround index (by omega)
    have hsplit : (forM (List.range (count + 1)) body : Effect Memory Unit) =
        (forM (List.range count) body >>= fun _ => body count) := by
      rw [List.range_succ, List.forM_append]
      simp
    rw [hsplit]
    exact hbefore.bind fun _ memory' hmemory' => hround count (Nat.lt_succ_self count) memory' hmemory'

theorem foldlM_range {count : Nat} {body : β → Nat → Effect Memory β} {start : β}
    (invariant : Nat → β → Memory → Prop)
    (hround : ∀ index < count, ∀ state memory, invariant index state memory →
      Yields (body state index) memory (invariant (index + 1)) fails)
    (hstart : invariant 0 start memory) :
    Yields ((List.range count).foldlM body start) memory (invariant count) fails := by
  induction count with
  | zero => exact pure hstart
  | succ count ih =>
    have hbefore := ih fun index hindex => hround index (by omega)
    have hsplit : ((List.range (count + 1)).foldlM body start : Effect Memory β) =
        ((List.range count).foldlM body start >>= fun state => body state count) := by
      rw [List.range_succ, List.foldlM_append]
      simp
    rw [hsplit]
    exact hbefore.bind fun state memory' h => hround count (Nat.lt_succ_self count) state memory' h

end Yields

end Effect
end Core
end AscCpp
