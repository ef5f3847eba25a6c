import Mathlib.Tactic.Common

/-!
# Checkpoint — machines whose state is exported and restored

A machine yields outputs one by one.  Its state can be saved, and a saved state is validated before
it is restored.

- `Sound.reachable`: the invariant holds in every reachable state.
- `Sound.contract`: a sound machine goes on from a saved state as from the original one, and a
  restoration that fails changes nothing.
-/

namespace AscCpp
namespace Library

/-- A saved state is restored over an initial one. -/
def loadOver {State Saved Failure : Type} (restore : State → Saved → Except Failure Unit × State)
    (initial : State) (saved : Saved) : Except Failure State :=
  match restore initial saved with
  | (.ok (), state) => .ok state
  | (.error failure, _) => .error failure

/-- A machine with states, saved states, outputs and failures. -/
structure Machine (State Saved Output Failure : Type) where
  /-- The states in which the constructors leave a machine. -/
  Made : State → Prop
  next : State → Output × State
  /-- The operations without an output. -/
  moves : List (State → State)
  save : State → Saved
  restore : State → Saved → Except Failure Unit × State
  load : Saved → Except Failure State

namespace Machine

variable {State Saved Output Failure : Type} (machine : Machine State Saved Output Failure)

inductive Reachable : State → Prop where
  | made {state : State} : machine.Made state → Reachable state
  | loaded {saved : Saved} {state : State} : machine.load saved = .ok state → Reachable state
  | next {state : State} : Reachable state → Reachable (machine.next state).2
  | moved {state : State} {move : State → State} :
      move ∈ machine.moves → Reachable state → Reachable (move state)
  | restored {state : State} (saved : Saved) :
      Reachable state → Reachable (machine.restore state saved).2

/-- The outputs from a state on. -/
def outputs : Nat → State → Output
  | 0, state => (machine.next state).1
  | count + 1, state => outputs count (machine.next state).2

/-- What saving and restoring promise. -/
structure Contract : Prop where
  load_save : ∀ state, machine.Reachable state →
    ∃ loaded, machine.load (machine.save state) = .ok loaded ∧
      ∀ count, machine.outputs count loaded = machine.outputs count state
  restore_error : ∀ state saved failure after,
    machine.restore state saved = (.error failure, after) →
      after = state ∧ ∀ count, machine.outputs count after = machine.outputs count state
  restore_ok : ∀ state saved after,
    machine.restore state saved = (.ok (), after) → machine.save after = saved

/-- An invariant, and what the operations have to satisfy for it. -/
structure Sound (Invariant : State → Prop) : Prop where
  made : ∀ state, machine.Made state → Invariant state
  next : ∀ state, Invariant state → Invariant (machine.next state).2
  moved : ∀ move ∈ machine.moves, ∀ state, Invariant state → Invariant (move state)
  failed : ∀ state saved failure after,
    machine.restore state saved = (.error failure, after) → after = state
  restored : ∀ state saved after,
    machine.restore state saved = (.ok (), after) → Invariant after ∧ machine.save after = saved
  save : ∀ state, Invariant state → ∀ other,
    machine.restore other (machine.save state) = (.ok (), state)
  load : ∃ initial, machine.load = loadOver machine.restore initial

namespace Sound

variable {machine} {Invariant : State → Prop}

theorem reachable (h : machine.Sound Invariant) {state : State} (hstate : machine.Reachable state) :
    Invariant state := by
  induction hstate with
  | made hmade => exact h.made _ hmade
  | @loaded saved state hload =>
    rcases h.load with ⟨initial, hdefinition⟩
    rw [hdefinition, loadOver] at hload
    rcases hrestore : machine.restore initial saved with ⟨status, after⟩
    rw [hrestore] at hload
    cases status with
    | ok =>
      cases hload
      exact (h.restored _ _ _ hrestore).1
    | error => cases hload
  | next _ ih => exact h.next _ ih
  | moved hmove _ ih => exact h.moved _ hmove _ ih
  | @restored state saved _ ih =>
    rcases hrestore : machine.restore state saved with ⟨status, after⟩
    cases status with
    | ok => exact (h.restored _ _ _ hrestore).1
    | error =>
      rw [h.failed _ _ _ _ hrestore]
      exact ih

theorem contract (h : machine.Sound Invariant) : machine.Contract where
  load_save := by
    intro state hstate
    rcases h.load with ⟨initial, hdefinition⟩
    refine ⟨state, ?_, fun _ => rfl⟩
    rw [hdefinition, loadOver, h.save state (h.reachable hstate) initial]
  restore_error := by
    intro state saved failure after hrestore
    have hsame := h.failed _ _ _ _ hrestore
    exact ⟨hsame, fun _ => by rw [hsame]⟩
  restore_ok := fun state saved after hrestore => (h.restored _ _ _ hrestore).2

end Sound

end Machine

end Library
end AscCpp
