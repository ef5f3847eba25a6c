import Mathlib.Control.Lawful
import Mathlib.Data.List.Range

/-!
# Walk — loops that step from one item to the next

- `walk_eq_forM`: a walk over numbered items visits all of them in order, when it may take that many
  steps.
- `walkWithin_eq`: it then comes to its end, however many steps more it may take.
-/

namespace AscCpp
namespace Library

variable {α : Type} {m : Type → Type} [Monad m]

/-- The body runs on an item, then on the next one, and so on to the last one. -/
def walk (next : α → Option α) (body : α → m Unit) : Nat → α → m Unit
  | 0, _ => pure ()
  | steps + 1, item => do
    body item
    match next item with
    | none => pure ()
    | some later => walk next body steps later

theorem walk_eq_forM [LawfulMonad m] {next : α → Option α} {item : Nat → α} {count : Nat}
    (hnext : ∀ position < count, next (item position) =
      if position + 1 < count then some (item (position + 1)) else none)
    (body : α → m Unit) {steps first : Nat} (hsteps : first + steps = count) :
    walk next body steps (item first) =
      forM (List.range' first steps) fun position => body (item position) := by
  induction steps generalizing first with
  | zero => rfl
  | succ steps ih =>
    rw [walk, List.range'_succ, List.forM_cons]
    congr 1
    funext _
    rw [hnext first (by omega)]
    cases steps with
    | zero => rw [if_neg (by omega)]; rfl
    | succ steps =>
      rw [if_pos (by omega)]
      exact ih (by omega)

/-- The same walk; it says whether it came to an end. -/
def walkWithin (next : α → Option α) (body : α → m Unit) : Nat → α → m Bool
  | 0, _ => pure false
  | steps + 1, item => do
    body item
    match next item with
    | none => pure true
    | some later => walkWithin next body steps later

theorem walkWithin_eq [LawfulMonad m] {next : α → Option α} {item : Nat → α} {count : Nat}
    (hnext : ∀ position < count, next (item position) =
      if position + 1 < count then some (item (position + 1)) else none)
    (body : α → m Unit) {steps first : Nat} (hfirst : first < count)
    (hsteps : count - first ≤ steps) :
    walkWithin next body steps (item first) = (do
      walk next body (count - first) (item first)
      pure true) := by
  induction steps generalizing first with
  | zero => omega
  | succ steps ih =>
    have hcount : count - first = count - (first + 1) + 1 := by omega
    rw [hcount, walkWithin, walk, bind_assoc]
    congr 1
    funext _
    rw [hnext first hfirst]
    by_cases hlater : first + 1 < count
    · rw [if_pos hlater]
      exact ih hlater (by omega)
    · rw [if_neg hlater]
      exact (pure_bind () fun _ => (pure true : m Bool)).symm

end Library
end AscCpp
