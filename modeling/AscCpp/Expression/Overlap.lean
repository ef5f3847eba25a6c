import AscCpp.Dense.Evaluate
import AscCpp.Sparse.Evaluate

/-!
# Overlap — what evaluation writes and what its leaves read

`Evaluate` asks the leaves of an expression about the addresses of the destination elements, and not
about their other bytes.

- `evaluate_overlap`: an accepted destination shares a byte with a leaf exactly when the values of a
  leaf begin inside an element.
- `evaluate_accepts_overlap`: such an evaluation.
-/

namespace AscCpp
namespace Expression

open AscCpp.Core Library AscCpp.Dense Sparse

variable {Cell V : Type} [Ring V] [DecidableEq V]

namespace ViewTerminal

/-- The size of an element. -/
def elementSize : ViewTerminal Cell V → Nat
  | @dense _ _ _ _ type _ _ => type.size
  | @coordinate _ _ _ _ type _ _ _ => type.size
  | @compressed _ _ _ _ type _ _ _ => type.size

/-- The addresses of the elements that `Evaluate` writes. -/
def elements : ViewTerminal Cell V → List Nat
  | dense view => view.elements
  | @coordinate _ _ _ _ type _ view _ => storedElements type view.values.address view.nonzeros
  | @compressed _ _ _ _ type _ view _ => storedElements type view.values.address view.nonzeros

theorem elements_ne_zero {terminal : ViewTerminal Cell V} (hhost : terminal.space = .host)
    {element : Nat} (helement : element ∈ terminal.elements) : element ≠ 0 := by
  cases terminal with
  | dense view =>
    rcases List.mem_map.1 helement with ⟨number, hnumber, rfl⟩
    have hbounds := coordinateAt_inBounds view.mapping (List.mem_range.1 hnumber)
    have hdata := DenseView.data_pos hbounds
    have haddress := (DenseView.addressOf_le hbounds).1
    omega
  | coordinate view hview =>
    rcases List.mem_map.1 helement with ⟨position, hposition, rfl⟩
    have hlt := List.mem_range.1 hposition
    have hvalues := hview.address_ne_zero hhost (by omega)
    omega
  | compressed view hview =>
    rcases List.mem_map.1 helement with ⟨position, hposition, rfl⟩
    have hlt := List.mem_range.1 hposition
    have hvalues := hview.address_ne_zero hhost (by omega)
    omega

end ViewTerminal

/-- `Evaluate`, which is overloaded on the kind of the destination. -/
def evaluate (context : ExecutionContext) (expression : ViewExpression Cell V) :
    ViewTerminal Cell V → Effect (Nat → Cell) Unit
  | .dense view => Dense.evaluate context expression view
  | .coordinate view _ => evaluateCoordinate context expression view
  | .compressed view _ => evaluateCompressed context expression view

/-- The case of an exact self-assignment. -/
def isExactSelfAssignment (expression : ViewExpression Cell V) : ViewTerminal Cell V → Bool
  | .dense view => isSelfAssignment expression view
  | .coordinate view _ => view.destination.isExactSelfAssignment expression
  | .compressed view _ => view.destination.isExactSelfAssignment expression

variable {context : ExecutionContext} {expression : ViewExpression Cell V}
  {destination : ViewTerminal Cell V} {memory memory' : Nat → Cell}

/-- The byte belongs to the values of the leaf. -/
def ReadsByte (leaf : ViewTerminal Cell V) (byte : Nat) : Prop :=
  leaf.valueSpan.address ≤ byte ∧ byte < leaf.valueSpan.address + leaf.valueSpan.size

/-- No byte of a destination element belongs to the values of a leaf. -/
def NoOverlap (expression : ViewExpression Cell V) (destination : ViewTerminal Cell V) : Prop :=
  ∀ element ∈ destination.elements, ∀ byte, element ≤ byte →
    byte < element + destination.elementSize →
      ∀ leaf ∈ expression.terminals, ¬ ReadsByte leaf byte

/-- The values of no leaf begin inside a destination element, behind its first byte. -/
def NoInnerStart (expression : ViewExpression Cell V) (destination : ViewTerminal Cell V) : Prop :=
  ∀ element ∈ destination.elements, ∀ leaf ∈ expression.terminals, leaf.valueSpan.size ≠ 0 →
    ¬ (element < leaf.valueSpan.address ∧
      leaf.valueSpan.address < element + destination.elementSize)

theorem evaluate_ok
    (hrun : Effect.exec (evaluate context expression destination) memory =
      some (.ok (), memory')) :
    (isExactSelfAssignment expression destination = false →
      ∀ element ∈ destination.elements, element ≠ 0 ∧ expression.mayAlias element = false) ∧
      Untouched destination.elements destination.elementSize memory memory' := by
  have hlocated : destination.space = .host ∧
      (isExactSelfAssignment expression destination = false →
        ∀ element ∈ destination.elements, expression.mayAlias element = false) ∧
      Untouched destination.elements destination.elementSize memory memory' := by
    cases destination with
    | dense view => exact Dense.evaluate_ok hrun
    | coordinate view hview =>
      exact evaluateStored_ok (fun hhost => view.destination_regular hhost) hrun
    | compressed view hview =>
      exact evaluateStored_ok (fun hhost => view.destination_regular hhost hview) hrun
  rcases hlocated with ⟨hhost, halias, huntouched⟩
  refine ⟨fun hself element helement => ⟨?_, halias hself element helement⟩, huntouched⟩
  exact ViewTerminal.elements_ne_zero hhost helement

theorem evaluate_error {status : Status}
    (hrun : Effect.exec (evaluate context expression destination) memory =
      some (.error status, memory')) : memory' = memory := by
  cases destination with
  | dense view => exact Dense.evaluate_error hrun
  | coordinate view hview =>
    exact evaluateStored_error (fun hhost => view.destination_regular hhost) hrun
  | compressed view hview =>
    exact evaluateStored_error (fun hhost => view.destination_regular hhost hview) hrun

/-- A leaf that knows of no first byte of an element shares a byte with one only if its values begin
inside it. -/
theorem noOverlap_iff_noInnerStart
    (h : ∀ element ∈ destination.elements, element ≠ 0 ∧ expression.mayAlias element = false) :
    NoOverlap expression destination ↔ NoInnerStart expression destination := by
  constructor
  · intro hoverlap element helement leaf hleaf hsize hinside
    exact hoverlap element helement leaf.valueSpan.address (by omega) hinside.2 leaf hleaf
      ⟨Nat.le_refl _, by omega⟩
  · intro hinner element helement byte hfirst hlast leaf hleaf hreads
    have hleafAlias : leaf.mayAlias element = false :=
      ExpressionTree.mayAlias_eq_false_iff.1 (h element helement).2 leaf hleaf
    have houtside := ViewTerminal.not_mem_span_of_mayAlias (h element helement).1 hleafAlias
    have hstart := hinner element helement leaf hleaf
    rcases hreads with ⟨hleft, hright⟩
    omega

/-- A failing evaluation has not written.  A successful one has written to the elements of the
destination only; if it is not a self-assignment, no leaf has a byte in common with them exactly
when the values of no leaf begin inside an element. -/
theorem evaluate_overlap (context : ExecutionContext) (expression : ViewExpression Cell V)
    (destination : ViewTerminal Cell V) (memory memory' : Nat → Cell) (result : Result Unit) :
    Effect.exec (evaluate context expression destination) memory = some (result, memory') →
      match result with
      | .error _ => memory' = memory
      | .ok () =>
        Untouched destination.elements destination.elementSize memory memory' ∧
          (isExactSelfAssignment expression destination = false →
            (NoOverlap expression destination ↔ NoInnerStart expression destination)) := by
  intro hrun
  cases result with
  | error status => exact evaluate_error hrun
  | ok =>
    rcases evaluate_ok hrun with ⟨halias, huntouched⟩
    exact ⟨huntouched, fun hself => noOverlap_iff_noInnerStart (halias hself)⟩

/-! ## An element with a leaf inside -/

/-- One element without padding. -/
def singleLayout : DenseLayout 1 where
  extents := 1 ::ᵥ List.Vector.nil
  strides := 1 ::ᵥ List.Vector.nil
  logicalSize := 1
  requiredSpanSize := 1
  unique := true
  exhaustive := true
  kind := .right
  strides_nonneg := by decide
  logical := by decide
  span := by decide
  unique_eq := by decide
  exhaustive_eq := by decide

def singleView (size address : Nat) (hsize : 0 < size) (haddress : address ≠ 0)
    (hbytes : checkedMultiply sizeType 1 size = .ok (size : Int)) :
    DenseView (Representation.uniform Int size size hsize) 1 where
  data := address
  mapping := singleLayout
  memorySpace := .host
  data_ne _ := haddress
  unique := rfl
  bytes := ⟨_, hbytes⟩

theorem eight_bytes : checkedMultiply sizeType 1 (8 : Nat) = .ok ((8 : Nat) : Int) := by
  decide

/-- A destination of eight bytes, from the eighth one on. -/
def wideDestination : ViewTerminal Int Int :=
  .dense (singleView 8 8 Representation.eight_pos (by decide) eight_bytes)

/-- A view of the second byte of the destination, to which a scalar is added. -/
def innerByteSum : ViewExpression Int Int :=
  .binary .add (.terminal (.dense (singleView 1 9 (by decide) (by decide) (by decide)))) (.scalar 1)

/-- The evaluation writes the byte that its leaf reads. -/
theorem evaluate_accepts_overlap :
    ∃ memory', Effect.exec (evaluate .serial innerByteSum wideDestination) (fun _ => 0) =
        some (.ok (), memory') ∧
      isExactSelfAssignment innerByteSum wideDestination = false ∧
      ¬ NoOverlap innerByteSum wideDestination := by
  refine ⟨_, rfl, rfl, fun hoverlap => ?_⟩
  refine hoverlap 8 ?_ 9 ?_ ?_ (.dense (singleView 1 9 (by decide) (by decide) (by decide))) ?_ ?_
  · decide
  · decide
  · decide
  · exact List.mem_singleton_self _
  · exact ⟨by decide, by decide⟩

/-- The one destination element has a leaf that begins inside it. -/
theorem evaluate_overlap_inner :
    ∃ memory', Effect.exec (evaluate .serial innerByteSum wideDestination) (fun _ => 0) =
        some (.ok (), memory') ∧
      Untouched wideDestination.elements 8 (fun _ => 0) memory' ∧
      (NoOverlap innerByteSum wideDestination ↔ NoInnerStart innerByteSum wideDestination) :=
  ⟨_, rfl, (evaluate_overlap .serial innerByteSum wideDestination (fun _ => 0) _ (.ok ()) rfl).1,
    (evaluate_overlap .serial innerByteSum wideDestination (fun _ => 0) _ (.ok ()) rfl).2 rfl⟩

end Expression
end AscCpp
