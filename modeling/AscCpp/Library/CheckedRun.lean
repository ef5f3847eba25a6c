import Mathlib.Control.Lawful

/-!
# CheckedRun — what a run of checks decides, in any monad

A run of checks ends normally or with a failure.  The monad below says how the checks read their
data: in `Id` every read answers, in `Option` a read may be refused.

- `Decides`: the run has an outcome, and ends normally exactly when a condition holds.
- `decides_forM`: a loop of checks decides what all its rounds decide.
-/

namespace AscCpp
namespace Library

variable {ε : Type} {m : Type → Type} [Monad m]

/-- The run has an outcome, and that is no failure exactly when the condition holds. -/
def Decides (run : ExceptT ε m Unit) (condition : Prop) : Prop :=
  ∃ outcome : Except ε Unit, run.run = pure outcome ∧ (outcome = .ok () ↔ condition)

/-- `if (condition) return failure;`. -/
def failWhen (condition : Prop) [Decidable condition] (failure : ε) : ExceptT ε m Unit :=
  if condition then throw failure else pure ()

theorem Decides.congr {run : ExceptT ε m Unit} {condition condition' : Prop}
    (h : Decides run condition) (hiff : condition ↔ condition') : Decides run condition' := by
  rcases h with ⟨outcome, hrun, houtcome⟩
  exact ⟨outcome, hrun, houtcome.trans hiff⟩

theorem decides_pure : Decides (pure () : ExceptT ε m Unit) True :=
  ⟨.ok (), rfl, by simp⟩

theorem decides_failWhen (condition : Prop) [Decidable condition] (failure : ε) :
    Decides (failWhen condition failure : ExceptT ε m Unit) (¬ condition) := by
  unfold failWhen
  by_cases h : condition
  · rw [if_pos h]
    exact ⟨.error failure, rfl, by simpa using h⟩
  · rw [if_neg h]
    exact ⟨.ok (), rfl, by simpa using h⟩

variable [LawfulMonad m]

/-- The second run only has to decide when the first one ends normally. -/
theorem Decides.bind {first second : ExceptT ε m Unit} {left right : Prop}
    (hfirst : Decides first left) (hsecond : left → Decides second right) :
    Decides (first >>= fun _ => second) (left ∧ right) := by
  rcases hfirst with ⟨outcome, hrun, houtcome⟩
  cases outcome with
  | error failure =>
    refine ⟨.error failure, by simp [ExceptT.run_bind, hrun], ?_⟩
    have hleft : ¬ left := fun h => by cases houtcome.2 h
    simp [hleft]
  | ok _ =>
    have hleft := houtcome.1 rfl
    rcases hsecond hleft with ⟨next, hnext, hiff⟩
    exact ⟨next, by simp [ExceptT.run_bind, hrun, hnext], by simpa [hleft] using hiff⟩

/-- A read that answers is replaced by its answer. -/
theorem Decides.read {α : Type} {read : m α} {answer : α} (hread : read = pure answer)
    {next : α → ExceptT ε m Unit} {condition : Prop} (h : Decides (next answer) condition) :
    Decides ((liftM read : ExceptT ε m α) >>= next) condition := by
  rcases h with ⟨outcome, hrun, houtcome⟩
  exact ⟨outcome, by simp [hread, hrun], houtcome⟩

theorem decides_forM {α : Type} {items : List α} {body : α → ExceptT ε m Unit}
    {condition : α → Prop} (h : ∀ item ∈ items, Decides (body item) (condition item)) :
    Decides (forM items body) (∀ item ∈ items, condition item) := by
  induction items with
  | nil => exact decides_pure.congr (by simp)
  | cons item items ih =>
    rw [List.forall_mem_cons] at h
    rw [List.forM_cons]
    refine (h.1.bind fun _ => ih h.2).congr ?_
    rw [List.forall_mem_cons]

end Library
end AscCpp
