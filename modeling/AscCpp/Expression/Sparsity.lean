import AscCpp.Expression.Overlap

/-!
# Sparsity — the structure that an expression keeps

Where all terminals read zero, an expression has the value of its scalars alone.  A `NegateNode`
reports that it preserves the structure whatever its operand is.

- `read_of_leavesZero`: the value of an expression where its terminals read zero.
- `structurePreserving_iff`: when an expression that reports to preserve the structure does so.
- `evaluate_creates_nonzero`: a sparse evaluation that does not.
-/

namespace AscCpp
namespace Expression

open AscCpp.Core Library AscCpp.Dense Sparse

namespace ExpressionTree

variable {Terminal Memory V : Type} [ExpressionAdapter Terminal Memory V]

theorem rank_binary (operation : ExpressionOperation) (left right : ExpressionTree Terminal V) :
    (binary operation left right).rank = if left.rank = 0 then right.rank else left.rank := rfl

/-- Operands of a node that was made have its rank, or are scalars. -/
theorem Built.ranks {operation : ExpressionOperation} {left right tree : ExpressionTree Terminal V}
    (hmake : makeBinary operation left right = .ok tree) :
    tree = .binary operation left right ∧
      (left.rank = 0 ∨ left.rank = tree.rank) ∧ (right.rank = 0 ∨ right.rank = tree.rank) := by
  rcases makeBinary_ok_iff.1 hmake with ⟨hshape, rfl⟩
  have hranks := validateBinaryShape_ok_iff.1 hshape
  refine ⟨rfl, ?_, ?_⟩ <;> rw [rank_binary] <;> split <;> omega

theorem length_shape {tree : ExpressionTree Terminal V} (hbuilt : tree.Built) :
    tree.shape.length = tree.rank := by
  induction hbuilt with
  | scalar value => rfl
  | terminal leaf => exact ExpressionAdapter.length_shape leaf
  | negate hoperand ih => exact ih
  | @binary operation left right _ hleft hright hmake ihLeft ihRight =>
    rcases Built.ranks hmake with ⟨rfl, hleftRank, hrightRank⟩
    have hnode := rank_binary operation left right
    rw [shape]
    split
    · rename_i hzero
      exact hzero.symm
    · split
      · rename_i hrank
        rw [ihLeft, hrank]
      · rw [ihRight]
        split at hnode <;> omega

/-- The indices with which a node is read at the indices of a tree. -/
def ownIndices (rank : Nat) (indices : List Int) : List Int :=
  if rank = 0 then [] else indices

theorem operandIndices_own {operandRank nodeRank : Nat} (indices : List Int)
    (h : operandRank = 0 ∨ operandRank = nodeRank) :
    operandIndices operandRank nodeRank (ownIndices nodeRank indices) =
      some (ownIndices operandRank indices) := by
  unfold operandIndices ownIndices
  rcases h with hzero | rfl
  · rw [if_pos hzero, if_pos hzero]
  · by_cases hzero : operandRank = 0
    · rw [if_pos hzero, if_pos hzero]
    · rw [if_neg hzero, if_pos rfl, if_neg hzero]

/-- Every terminal reads zero. -/
def LeavesZero [Ring V] (tree : ExpressionTree Terminal V) (memory : Memory) (indices : List Int) :
    Prop :=
  ∀ leaf ∈ tree.terminals,
    ExpressionAdapter.read leaf memory (ownIndices (ExpressionAdapter.rank leaf) indices) =
      some (0 : V)

/-- What the scalars of a tree alone amount to, every terminal counting as zero. -/
def scalarPart [Ring V] : ExpressionTree Terminal V → V
  | .scalar value => value
  | .terminal _ => 0
  | .negate operand => -operand.scalarPart
  | .binary operation left right => operation.apply left.scalarPart right.scalarPart

section Values

variable [Ring V] {tree : ExpressionTree Terminal V} {memory : Memory} {indices : List Int}

theorem read_of_leavesZero (hbuilt : tree.Built) (h : tree.LeavesZero memory indices) :
    tree.read memory (ownIndices tree.rank indices) = some tree.scalarPart := by
  induction hbuilt with
  | scalar value => rfl
  | terminal leaf => exact h leaf (List.mem_singleton_self leaf)
  | negate hoperand ih =>
    rw [read, rank, operandIndices_own indices (.inr rfl), Option.bind_eq_bind, Option.bind_some,
      ih h]
    rfl
  | @binary operation left right _ hleft hright hmake ihLeft ihRight =>
    rcases Built.ranks hmake with ⟨rfl, hleftRank, hrightRank⟩
    have hleaves := List.forall_mem_append.1 h
    have hleftValue := ihLeft hleaves.1
    have hrightValue := ihRight hleaves.2
    simp only [read, operandIndices_own indices hleftRank, operandIndices_own indices hrightRank,
      Option.bind_eq_bind, Option.bind_some, hleftValue, hrightValue]
    rfl

/-- The indices are one of the coordinates of a shape. -/
def InShape (indices shape : List Int) : Prop :=
  List.Forall₂ (fun index extent => 0 ≤ index ∧ index < extent) indices shape

omit [Ring V] in
/-- At a coordinate of its shape a tree is read with that coordinate. -/
theorem ownIndices_inShape (hbuilt : tree.Built) (h : InShape indices tree.shape) :
    ownIndices tree.rank indices = indices := by
  unfold ownIndices
  split
  · rename_i hzero
    have hlength := h.length_eq
    rw [length_shape hbuilt, hzero] at hlength
    exact (List.length_eq_zero_iff.1 hlength).symm
  · rfl

theorem read_inShape (hbuilt : tree.Built) (hshape : InShape indices tree.shape)
    (h : tree.LeavesZero memory indices) : tree.read memory indices = some tree.scalarPart := by
  have hread := read_of_leavesZero hbuilt h
  rwa [ownIndices_inShape hbuilt hshape] at hread

/-- The value of a tree is zero wherever all its terminals read zero. -/
def KeepsStructure (tree : ExpressionTree Terminal V) (memory : Memory) : Prop :=
  ∀ indices, InShape indices tree.shape → tree.LeavesZero memory indices →
    tree.read memory indices = some 0

/-- There is a coordinate at which all terminals read zero. -/
def HasEmptyCoordinate (tree : ExpressionTree Terminal V) (memory : Memory) : Prop :=
  ∃ indices, InShape indices tree.shape ∧ tree.LeavesZero memory indices

theorem keepsStructure_iff (hbuilt : tree.Built) :
    tree.KeepsStructure memory ↔ tree.scalarPart = 0 ∨ ¬ tree.HasEmptyCoordinate memory := by
  constructor
  · intro hkeeps
    by_cases hempty : tree.HasEmptyCoordinate memory
    · rcases hempty with ⟨indices, hshape, hzero⟩
      have hread := hkeeps indices hshape hzero
      rw [read_inShape hbuilt hshape hzero] at hread
      exact .inl (Option.some.inj hread)
    · exact .inr hempty
  · intro h indices hshape hzero
    rcases h with hscalars | hempty
    · rw [read_inShape hbuilt hshape hzero, hscalars]
    · exact absurd ⟨indices, hshape, hzero⟩ hempty

end Values

/-! ## The reported effect -/

/-- Only terminals and negations can report that they preserve the structure. -/
theorem sparsityEffect_binary (operation : ExpressionOperation)
    (left right : ExpressionTree Terminal V) :
    (binary operation left right).sparsityEffect ≠ .structurePreserving := by
  rw [sparsityEffect]
  split
  · simp
  · split <;> simp

end ExpressionTree

open ExpressionTree

variable {Cell V : Type} [Ring V] [DecidableEq V]

/-- An expression that reports to preserve the structure does so exactly when it is not a negation,
or the scalars of the operand amount to zero, or there is no coordinate outside the structures. -/
theorem structurePreserving_iff {expression : ViewExpression Cell V} (hbuilt : expression.Built)
    (memory : Nat → Cell) :
    (expression.sparsityEffect = .structurePreserving → expression.KeepsStructure memory) ↔
      ∀ operand, expression = .negate operand →
        operand.scalarPart = 0 ∨ ¬ operand.HasEmptyCoordinate memory := by
  cases expression with
  | scalar value => simp [sparsityEffect]
  | terminal leaf =>
    have hkeeps : KeepsStructure (terminal leaf) memory :=
      (keepsStructure_iff hbuilt).2 (.inl rfl)
    simp [hkeeps]
  | binary operation left right => simp [sparsityEffect_binary]
  | negate operand =>
    have hscalars : (negate operand).scalarPart = 0 ↔ operand.scalarPart = 0 := neg_eq_zero
    simp only [sparsityEffect, true_imp_iff, keepsStructure_iff hbuilt, hscalars]
    constructor
    · rintro h _ ⟨⟩
      exact h
    · intro h
      exact h operand rfl

/-! ## A negated sum with a scalar -/

/-- A vector with one coordinate, which is not stored. -/
def unstoredVector : CoordinateView (Stored (Representation.uniform Int 8 8 Representation.eight_pos)) 1 :=
  .ofHost ⟨0, []⟩ ⟨0, []⟩ (1 ::ᵥ List.Vector.nil) 0

/-- A vector with one coordinate, which is stored. -/
def storedVector : CoordinateView (Stored (Representation.uniform Int 8 8 Representation.eight_pos)) 1 :=
  .ofHost ⟨8, [0 ::ᵥ List.Vector.nil]⟩ ⟨16, []⟩ (1 ::ᵥ List.Vector.nil) 1

theorem unstoredVector_checked : unstoredVector.Checked := by
  rfl

theorem storedVector_checked : storedVector.Checked := by
  rfl

/-- Three coordinates, of which the second is stored. -/
def middleVector : CoordinateView (Stored (Representation.uniform Int 8 8 Representation.eight_pos)) 1 :=
  .ofHost ⟨8, [1 ::ᵥ List.Vector.nil]⟩ ⟨16, []⟩ (3 ::ᵥ List.Vector.nil) 1

/-- Three coordinates, of which the last two are stored. -/
def backVector : CoordinateView (Stored (Representation.uniform Int 8 8 Representation.eight_pos)) 1 :=
  .ofHost ⟨32, [1 ::ᵥ List.Vector.nil, 2 ::ᵥ List.Vector.nil]⟩ ⟨48, []⟩ (3 ::ᵥ List.Vector.nil) 2

theorem middleVector_checked : middleVector.Checked := by
  rfl

theorem backVector_checked : backVector.Checked := by
  rfl

/-- `-((middle + 5) + -(back + 5))`, whose scalars cancel. -/
def balancedSum : ViewExpression Int Int :=
  .negate (.binary .add
    (.binary .add (.terminal (.coordinate middleVector middleVector_checked)) (.scalar 5))
    (.negate (.binary .add (.terminal (.coordinate backVector backVector_checked)) (.scalar 5))))

theorem balancedSum_built : balancedSum.Built := by
  have hsum : ∀ leaf : ViewTerminal Int Int,
      Built (.binary .add (.terminal leaf) (.scalar 5) : ViewExpression Int Int) := fun leaf =>
    Built.binary (Built.terminal leaf) (Built.scalar 5)
      (makeBinary_ok_iff.2 ⟨validateBinaryShape_ok_iff.2 (.inr (.inl rfl)), rfl⟩)
  apply Built.negate
  exact Built.binary (hsum (.coordinate middleVector middleVector_checked))
    (Built.negate (hsum (.coordinate backVector backVector_checked)))
    (makeBinary_ok_iff.2 ⟨validateBinaryShape_ok_iff.2 (.inr (.inr ⟨rfl, rfl⟩)), rfl⟩)

/-- The negation of a sum whose scalars cancel keeps the structure of its terminals, which do not
read zero everywhere. -/
theorem structurePreserving_balancedSum :
    balancedSum.KeepsStructure (fun cell : Nat => (cell : Int)) ∧
      balancedSum.read (fun cell : Nat => (cell : Int)) [1] = some 32 ∧
      balancedSum.read (fun cell : Nat => (cell : Int)) [2] = some 56 := by
  refine ⟨(structurePreserving_iff balancedSum_built _).2 (fun operand hoperand => ?_) rfl,
    by decide +kernel, by decide +kernel⟩
  cases hoperand
  exact .inl rfl

/-- `-(vector + 5)`. -/
def negatedSum : ViewExpression Int Int :=
  .negate (.binary .add (.terminal (.coordinate unstoredVector unstoredVector_checked)) (.scalar 5))

theorem negatedSum_built : negatedSum.Built := by
  apply Built.negate
  exact Built.binary (Built.terminal _) (Built.scalar 5)
    (makeBinary_ok_iff.2 ⟨validateBinaryShape_ok_iff.2 (.inr (.inl rfl)), rfl⟩)

theorem unstoredVector_read (memory : Nat → Int) : unstoredVector.read memory [0] = some 0 := by
  have hrange : InRange ⟨[0], rfl⟩ unstoredVector.extents :=
    List.Forall₂.cons ⟨by decide, by decide⟩ List.Forall₂.nil
  apply unstoredVector_checked.read_unstored rfl memory hrange
  intro position hposition
  exact absurd hposition (Nat.not_lt_zero position)

theorem negatedSum_leavesZero (memory : Nat → Int) : negatedSum.LeavesZero memory [0] := by
  intro leaf hleaf
  cases List.mem_singleton.1 hleaf
  exact unstoredVector_read memory

theorem negatedSum_inShape : InShape [0] negatedSum.shape :=
  List.Forall₂.cons ⟨by decide, by decide⟩ List.Forall₂.nil

theorem negatedSum_read (memory : Nat → Int) : negatedSum.read memory [0] = some (-5) :=
  read_inShape negatedSum_built negatedSum_inShape (negatedSum_leavesZero memory)

/-- The evaluation is accepted, and the expression is not zero where its only leaf reads zero. -/
theorem evaluate_creates_nonzero :
    negatedSum.Built ∧ negatedSum.sparsityEffect = .structurePreserving ∧
      InShape [0] negatedSum.shape ∧ negatedSum.LeavesZero (fun _ => 0) [0] ∧
      negatedSum.read (fun _ => 0) [0] = some (-5) ∧
      ∃ memory', Effect.exec (evaluate .serial negatedSum
        (.coordinate storedVector storedVector_checked)) (fun _ => 0) =
          some (.ok (), memory') ∧ memory' 16 = -5 := by
  refine ⟨negatedSum_built, rfl, negatedSum_inShape, negatedSum_leavesZero _, negatedSum_read _,
    (Representation.uniform Int 8 8 Representation.eight_pos).store (fun _ => 0) 16 (-5), ?_, rfl⟩
  have hcommon : validateCommon .serial negatedSum storedVector.destination = .ok () := by rfl
  have hoverlap : validateNoOverlap negatedSum storedVector.destination = .ok () := by rfl
  have hcoordinate : storedVector.destination.coordinateAt (0 : Nat) = .ok [0] := by rfl
  have hvalue : storedVector.destination.valueAt (0 : Nat) = .ok 16 := by rfl
  have hself : storedVector.destination.isExactSelfAssignment negatedSum = false := rfl
  simp only [evaluate, evaluateCoordinate, evaluateStored, hcommon, hself, hoverlap,
    Effect.exec_ofResult_bind, Bool.false_eq_true, if_false]
  have hcount : List.range storedVector.destination.nonzeros = [0] := rfl
  rw [hcount, Effect.exec_forM_cons, writeStored, hcoordinate, hvalue]
  simp only [Effect.exec_ofResult_bind, Effect.exec_read_bind, Effect.exec_check_bind,
    negatedSum_read, Option.bind_some, Effect.exec_store, Effect.exec_forM_nil]

end Expression
end AscCpp
