import AscCpp.Expression.Expression

/-!
# Writable — placement and alias metadata

`ExpressionPlacementAdapter` says where a terminal stands in memory.  Scalars and the nodes of a
tree have no placement.
-/

namespace AscCpp
namespace Expression

open AscCpp.Core

/-- Alias information; without a span only the identity counts. -/
structure ExpressionAliasMetadata where
  identity : Nat
  span : Option Block
  deriving DecidableEq, Repr

/-- `ExpressionPlacementAdapter`. -/
class ExpressionPlacementAdapter (Terminal : Type) where
  space : Terminal → MemorySpace
  aliasMetadata : Terminal → ExpressionAliasMetadata

/-- `ByteSpansOverlap` of two alias data. -/
def byteSpansOverlap (left right : ExpressionAliasMetadata) : Bool :=
  match left.span, right.span with
  | some left, some right =>
    if left.size = 0 ∨ right.size = 0 then false
    else if left.address = 0 ∨ right.address = 0 then true
    else if left.size > uintptrMax - left.address ∨ right.size > uintptrMax - right.address then true
    else left.address < right.address + right.size ∧ right.address < left.address + left.size
  | _, _ => false

namespace ExpressionTree

variable {Terminal Memory V : Type} [ExpressionAdapter Terminal Memory V]
  [ExpressionPlacementAdapter Terminal]

/-- `ExpressionSpace` of a `PlacedReadableExpression`. -/
def space : ExpressionTree Terminal V → Option MemorySpace
  | .terminal leaf => some (ExpressionPlacementAdapter.space leaf)
  | _ => none

/-- `ExpressionAlias` of a `PlacedReadableExpression`. -/
def aliasMetadata : ExpressionTree Terminal V → Option ExpressionAliasMetadata
  | .terminal leaf => some (ExpressionPlacementAdapter.aliasMetadata leaf)
  | _ => none

/-- `ExpressionMayOverlap`; it is asked of placed expressions only. -/
def mayOverlap (source : ExpressionTree Terminal V) (destination : ExpressionAliasMetadata) : Bool :=
  match source.aliasMetadata with
  | none => false
  | some sourceAlias =>
    (sourceAlias.identity ≠ 0 ∧ sourceAlias.identity = destination.identity) ||
      byteSpansOverlap sourceAlias destination ||
      (destination.identity ≠ 0 && source.mayAlias destination.identity)

end ExpressionTree

end Expression
end AscCpp
