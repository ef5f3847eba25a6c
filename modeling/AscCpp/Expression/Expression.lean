import AscCpp.Core.Memory
import Mathlib.Algebra.Group.Basic
import Mathlib.Algebra.Ring.Defs
import Mathlib.Data.Option.Basic

/-!
# Expression — expression trees and their adapters

`ExpressionAdapter` is the interface of the program through which an expression reads its terminals.
A read runs over memory and has no value where a check of the program fails.  Shapes and index lists
have the length of the rank.

- `Expression`: the trees of negations and binary operations over scalars and terminals.
- `Expression.Built`: the trees that the `Make` functions return.
-/

namespace AscCpp
namespace Expression

open AscCpp.Core

/-! ## Adapters -/

inductive SparsityEffect where
  | structurePreserving
  | structureFiltering
  | structureUnion
  | structureIntersection
  | valueDependent
  | densifying
  | destinationRequired
  deriving DecidableEq, Repr

/-- The operations of a `BinaryNode`. -/
inductive ExpressionOperation where
  | add
  | subtract
  | multiply
  deriving DecidableEq, Repr

/-- `ExpressionAdapter` of a type of terminals; an `AliasToken` is an address. -/
class ExpressionAdapter (Terminal : Type) (Memory V : outParam Type) where
  rank : Terminal → Nat
  sparsityEffect : Terminal → SparsityEffect
  shape : Terminal → List Int
  read : Terminal → Memory → List Int → Option V
  mayAlias : Terminal → Nat → Bool
  validateAccess : Terminal → ExecutionContext → Result Unit
  length_shape : ∀ terminal, (shape terminal).length = rank terminal

/-! ## Trees -/

inductive ExpressionTree (Terminal V : Type) where
  | scalar (value : V)
  | terminal (leaf : Terminal)
  | negate (operand : ExpressionTree Terminal V)
  | binary (operation : ExpressionOperation) (left right : ExpressionTree Terminal V)

def ExpressionOperation.apply {V : Type} [Ring V] : ExpressionOperation → V → V → V
  | .add, left, right => left + right
  | .subtract, left, right => left - right
  | .multiply, left, right => left * right

namespace ExpressionTree

variable {Terminal Memory V : Type} [ExpressionAdapter Terminal Memory V]

def rank : ExpressionTree Terminal V → Nat
  | .scalar _ => 0
  | .terminal leaf => ExpressionAdapter.rank leaf
  | .negate operand => operand.rank
  | .binary _ left right => if left.rank = 0 then right.rank else left.rank

def sparsityEffect : ExpressionTree Terminal V → SparsityEffect
  | .scalar _ => .valueDependent
  | .terminal leaf => ExpressionAdapter.sparsityEffect leaf
  | .negate _ => .structurePreserving
  | .binary operation left right =>
    if decide (left.rank = 0) ≠ decide (right.rank = 0) then .valueDependent
    else if operation = .multiply then .structureIntersection
    else .structureUnion

def shape : ExpressionTree Terminal V → List Int
  | .scalar _ => []
  | .terminal leaf => ExpressionAdapter.shape leaf
  | .negate operand => operand.shape
  | .binary operation left right =>
    if (ExpressionTree.binary operation left right).rank = 0 then []
    else if left.rank = (ExpressionTree.binary operation left right).rank then left.shape
    else right.shape

/-- The indices that `ReadOperand` passes on; other ranks abort the program. -/
def operandIndices (operandRank nodeRank : Nat) (indices : List Int) : Option (List Int) :=
  if operandRank = 0 then some []
  else if operandRank = nodeRank then some indices
  else none

def read [Ring V] : ExpressionTree Terminal V → Memory → List Int → Option V
  | .scalar value, _, _ => some value
  | .terminal leaf, memory, indices => ExpressionAdapter.read leaf memory indices
  | .negate operand, memory, indices => do
    let indices ← operandIndices operand.rank operand.rank indices
    let value ← operand.read memory indices
    some (-value)
  | .binary operation left right, memory, indices => do
    let leftIndices ← operandIndices left.rank (binary operation left right).rank indices
    let leftValue ← left.read memory leftIndices
    let rightIndices ← operandIndices right.rank (binary operation left right).rank indices
    let rightValue ← right.read memory rightIndices
    some (operation.apply leftValue rightValue)

def mayAlias : ExpressionTree Terminal V → Nat → Bool
  | .scalar _, _ => false
  | .terminal leaf, token => ExpressionAdapter.mayAlias leaf token
  | .negate operand, token => operand.mayAlias token
  | .binary _ left right, token => left.mayAlias token || right.mayAlias token

def validateAccess : ExpressionTree Terminal V → ExecutionContext → Result Unit
  | .scalar _, _ => .ok ()
  | .terminal leaf, context => ExpressionAdapter.validateAccess leaf context
  | .negate operand, context => operand.validateAccess context
  | .binary _ left right, context => do
    left.validateAccess context
    right.validateAccess context

def validateBinaryShape (left right : ExpressionTree Terminal V) : Result Unit :=
  if left.rank = 0 ∨ right.rank = 0 then .ok ()
  else if left.rank ≠ right.rank then
    .error { code := .shape, message := "Expression ranks do not match" }
  else
    failIf (left.shape ≠ right.shape)
      { code := .shape, message := "Expression extents do not match" }

def makeBinary (operation : ExpressionOperation) (left right : ExpressionTree Terminal V) :
    Result (ExpressionTree Terminal V) := do
  validateBinaryShape left right
  .ok (.binary operation left right)

/-- The trees that the `Make` functions return. -/
inductive Built : ExpressionTree Terminal V → Prop
  | scalar (value : V) : Built (.scalar value)
  | terminal (leaf : Terminal) : Built (.terminal leaf)
  | negate {operand : ExpressionTree Terminal V} (h : Built operand) : Built (.negate operand)
  | binary {operation : ExpressionOperation} {left right tree : ExpressionTree Terminal V}
      (hleft : Built left) (hright : Built right)
      (hmake : makeBinary operation left right = .ok tree) : Built tree

/-- The terminals of a tree, from left to right. -/
def terminals : ExpressionTree Terminal V → List Terminal
  | .scalar _ => []
  | .terminal leaf => [leaf]
  | .negate operand => operand.terminals
  | .binary _ left right => left.terminals ++ right.terminals

theorem mayAlias_eq_false_iff {tree : ExpressionTree Terminal V} {token : Nat} :
    tree.mayAlias token = false ↔
      ∀ leaf ∈ tree.terminals, ExpressionAdapter.mayAlias leaf token = false := by
  induction tree with
  | scalar value => simp [mayAlias, terminals]
  | terminal leaf => simp [mayAlias, terminals]
  | negate operand ih => simpa [mayAlias, terminals] using ih
  | binary operation left right ihLeft ihRight =>
    simp only [mayAlias, terminals, Bool.or_eq_false_iff, ihLeft, ihRight, List.forall_mem_append]

theorem validateBinaryShape_ok_iff {left right : ExpressionTree Terminal V} :
    validateBinaryShape left right = .ok () ↔
      left.rank = 0 ∨ right.rank = 0 ∨ left.rank = right.rank ∧ left.shape = right.shape := by
  unfold validateBinaryShape
  by_cases hzero : left.rank = 0 ∨ right.rank = 0
  · simp only [hzero, if_true, true_iff]
    tauto
  · rw [if_neg hzero]
    by_cases hrank : left.rank = right.rank
    · rw [if_neg (not_not_intro hrank), Result.failIf_eq_ok_iff]
      tauto
    · rw [if_pos hrank]
      simp only [reduceCtorEq, false_iff]
      tauto

theorem makeBinary_ok_iff {operation : ExpressionOperation}
    {left right tree : ExpressionTree Terminal V} :
    makeBinary operation left right = .ok tree ↔
      validateBinaryShape left right = .ok () ∧ tree = .binary operation left right := by
  rw [makeBinary, Result.unit_bind_eq_ok_iff, Except.ok.injEq, @eq_comm _ tree]

end ExpressionTree

end Expression
end AscCpp
