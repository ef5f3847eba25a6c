import AscCpp.Dense.View
import AscCpp.Sparse.Adapter

/-!
# Terminal — views as terminals of expressions

The terminals of an expression are the dense and the sparse views, of any element types that hold
values of one kind.

- `ViewTerminal.not_mem_span_of_mayAlias`: an address that a terminal does not know of is not a byte
  of its values.
-/

namespace AscCpp
namespace Expression

open AscCpp.Core Library AscCpp.Dense Sparse

variable {Cell V : Type} [Ring V] [DecidableEq V]

/-- The views that an expression can read. -/
inductive ViewTerminal (Cell V : Type) [Ring V] [DecidableEq V] where
  | dense {type : Representation Cell V} {rank : Nat} (view : DenseView type rank)
  | coordinate {type : Representation Cell V} {rank : Nat}
      (view : CoordinateView (Stored type) rank) (hview : view.Checked)
  | compressed {type : Representation Cell V} {format : SparseCompressedFormat}
      (view : CompressedSparseView (Stored type) format) (hview : view.Checked)

namespace ViewTerminal

def rank : ViewTerminal Cell V → Nat
  | @dense _ _ _ _ _ rank _ => rank
  | @coordinate _ _ _ _ _ rank _ _ => rank
  | compressed _ _ => 2

def shape : ViewTerminal Cell V → List Int
  | dense view => view.mapping.extents.toList
  | coordinate view _ => view.extents.toList
  | compressed view _ => view.shape.toList

def space : ViewTerminal Cell V → MemorySpace
  | dense view => view.memorySpace
  | coordinate view _ => view.memorySpace
  | compressed view _ => view.memorySpace

/-- The bytes of the values. -/
def valueSpan : ViewTerminal Cell V → Block
  | dense view => view.valueSpan
  | coordinate view _ => view.valueSpan
  | compressed view _ => view.valueSpan

def aliasMetadata : ViewTerminal Cell V → ExpressionAliasMetadata
  | dense view => view.aliasMetadata
  | coordinate view _ => view.valueAlias
  | compressed view _ => view.valueAlias

def mayAlias : ViewTerminal Cell V → Nat → Bool
  | dense view, token => view.mayAlias token
  | coordinate view _, token => view.mayAlias token
  | compressed view _, token => view.mayAlias token

def validateAccess : ViewTerminal Cell V → ExecutionContext → Result Unit
  | dense view, context => view.validateAccess context
  | coordinate view _, context => validateSparseAccess view.memorySpace context
  | compressed view _, context => validateSparseAccess view.memorySpace context

def read : ViewTerminal Cell V → (Nat → Cell) → List Int → Option V
  | @dense _ _ _ _ _ rank view, memory, indices =>
    if h : indices.length = rank then view.read memory ⟨indices, h⟩ else none
  | coordinate view _, memory, indices => view.read memory indices
  | compressed view _, memory, indices => view.read memory indices

theorem not_mem_span_of_mayAlias {terminal : ViewTerminal Cell V} {token : Nat}
    (htoken : token ≠ 0) (h : terminal.mayAlias token = false) :
    ¬ (terminal.valueSpan.address ≤ token ∧
      token < terminal.valueSpan.address + terminal.valueSpan.size) := by
  cases terminal with
  | dense view => exact DenseView.not_mem_span_of_mayAlias htoken h
  | coordinate view hview => exact CoordinateView.not_mem_span_of_mayAlias htoken h
  | compressed view hview => exact CompressedSparseView.not_mem_span_of_mayAlias htoken h

end ViewTerminal

instance : ExpressionAdapter (ViewTerminal Cell V) (Nat → Cell) V where
  rank := ViewTerminal.rank
  sparsityEffect _ := .structurePreserving
  shape := ViewTerminal.shape
  read := ViewTerminal.read
  mayAlias := ViewTerminal.mayAlias
  validateAccess := ViewTerminal.validateAccess
  length_shape terminal := by
    cases terminal <;> simp [ViewTerminal.shape, ViewTerminal.rank]

instance : ExpressionPlacementAdapter (ViewTerminal Cell V) where
  space := ViewTerminal.space
  aliasMetadata := ViewTerminal.aliasMetadata

/-- The cells outside the elements are as before. -/
def Untouched (elements : List Nat) (size : Nat) (memory memory' : Nat → Cell) : Prop :=
  ∀ cell, (∀ element ∈ elements, cell < element ∨ element + size ≤ cell) →
    memory' cell = memory cell

/-- An expression over views. -/
abbrev ViewExpression (Cell V : Type) [Ring V] [DecidableEq V] :=
  ExpressionTree (ViewTerminal Cell V) V

end Expression
end AscCpp
