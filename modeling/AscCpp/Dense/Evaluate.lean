import AscCpp.Core.Effect
import AscCpp.Expression.Terminal

/-!
# Evaluate — evaluation into a dense destination

`Evaluate` of the dense module.  All checks come before the loop that writes, and the loop cannot
fail once they have passed.

- `evaluate_ok`: what a successful evaluation has checked and written.
- `evaluate_error`: a failing evaluation has not written.
-/

namespace AscCpp
namespace Dense

open AscCpp.Core Library Expression

variable {Cell V : Type} [Ring V] [DecidableEq V] {type : Representation Cell V} {rank : Nat}

def validateContext (context : ExecutionContext) (memorySpace : MemorySpace) : Result Unit := do
  failIf (context.backend ≠ .serial)
    { code := .unsupported, message := "Dense CPU operations require serial execution" }
  failIf (memorySpace ≠ .host ∨ context.canAccess memorySpace = false)
    { code := .memoryAccess
      message := "Dense CPU operations require host-accessible storage" }

/-- The checks of `Evaluate` on ranks and extents. -/
def validateExpressionShape (expression : ViewExpression Cell V) (destination : DenseView type rank) :
    Result Unit := do
  failIf (expression.rank ≠ 0 ∧ expression.rank ≠ rank)
    { code := .shape, message := "Expression and destination ranks do not match" }
  failIf (expression.rank = rank ∧ expression.shape ≠ destination.mapping.extents.toList)
    { code := .shape, message := "Expression and destination extents do not match" }

/-- The expression is a dense view with the descriptor of the destination. -/
def isSelfAssignment (expression : ViewExpression Cell V) (destination : DenseView type rank) : Bool :=
  match expression with
  | .terminal (.dense source) => source.sameDescriptor destination
  | _ => false

def validateNoAlias (expression : ViewExpression Cell V) (destination : DenseView type rank) :
    Result Unit :=
  forEachCoordinate destination.mapping.extents fun coordinates => do
    let destinationElement ← destination.elementAt coordinates
    failIf (expression.mayAlias destinationElement = true)
      { code := .invalidArgument
        message := "Dense evaluation rejects possible destination overlap" }

/-- All that `Evaluate` checks before it looks for an overlap. -/
def validateEvaluate (context : ExecutionContext) (expression : ViewExpression Cell V)
    (destination : DenseView type rank) : Result Unit := do
  validateContext context destination.memorySpace
  expression.validateAccess context
  validateExpressionShape expression destination

/-- The coordinates at which an element of the destination reads the expression. -/
def expressionIndices (expression : ViewExpression Cell V) (coordinates : List.Vector Int rank) :
    List Int :=
  if expression.rank = 0 then [] else coordinates.toList

def evaluate (context : ExecutionContext) (expression : ViewExpression Cell V)
    (destination : DenseView type rank) : Effect (Nat → Cell) Unit := do
  Effect.ofResult (validateEvaluate context expression destination)
  if isSelfAssignment expression destination then
    pure ()
  else do
    Effect.ofResult (validateNoAlias expression destination)
    forEachCoordinate destination.mapping.extents fun coordinates => do
      let destinationElement ← Effect.ofResult (destination.elementAt coordinates)
      let memory ← Effect.read
      let value ← Effect.check (expression.read memory (expressionIndices expression coordinates))
      Effect.store type destinationElement value

/-! ## Elements of the destination -/

/-- The addresses of the elements, in the order of the loop. -/
def DenseView.elements (view : DenseView type rank) : List Nat :=
  (List.range (boxSize view.mapping.extents)).map fun number =>
    view.addressOf (coordinateAt view.mapping.extents number)

theorem coordinateAt_inBounds (layout : DenseLayout rank) {number : Nat}
    (hnumber : number < boxSize layout.extents) :
    layout.InBounds (coordinateAt layout.extents number) :=
  coordinateAt_within hnumber

theorem validateContext_ok_iff {context : ExecutionContext} {memorySpace : MemorySpace} :
    validateContext context memorySpace = .ok () ↔
      context.backend = .serial ∧ memorySpace = .host := by
  rw [validateContext, Result.failIf_bind_eq_ok_iff, Result.failIf_eq_ok_iff, not_or, not_not,
    not_not]
  constructor
  · rintro ⟨hserial, hhost, -⟩
    exact ⟨hserial, hhost⟩
  · rintro ⟨hserial, rfl⟩
    exact ⟨hserial, rfl, by simp [ExecutionContext.canAccess_host hserial]⟩

theorem validateEvaluate_host {context : ExecutionContext} {expression : ViewExpression Cell V}
    {destination : DenseView type rank}
    (h : validateEvaluate context expression destination = .ok ()) :
    destination.memorySpace = .host := by
  rw [validateEvaluate, Result.unit_bind_eq_ok_iff] at h
  exact (validateContext_ok_iff.1 h.1).2

/-- No leaf knows of the address of an element. -/
theorem validateNoAlias_ok_iff {expression : ViewExpression Cell V}
    {destination : DenseView type rank} (hhost : destination.memorySpace = .host) :
    validateNoAlias expression destination = .ok () ↔
      ∀ element ∈ destination.elements, expression.mayAlias element = false := by
  rw [validateNoAlias, forEachCoordinate_eq, Result.forM_eq_ok_iff, DenseView.elements,
    List.forall_mem_map]
  refine forall₂_congr fun number hnumber => ?_
  have hbounds := coordinateAt_inBounds destination.mapping (List.mem_range.1 hnumber)
  rw [DenseView.elementAt_ok hhost hbounds, Result.ok_bind, Result.failIf_eq_ok_iff,
    Bool.not_eq_true]

/-! ## Runs -/

section Runs

variable {context : ExecutionContext} {expression : ViewExpression Cell V}
  {destination : DenseView type rank} {memory memory' : Nat → Cell} {result : Result Unit}

/-- The writing loop: each round stores one element. -/
theorem exec_writes (hhost : destination.memorySpace = .host)
    (hrun : Effect.exec (forEachCoordinate destination.mapping.extents fun coordinates => do
      let destinationElement ← Effect.ofResult (destination.elementAt coordinates)
      let memory ← Effect.read
      let value ← Effect.check (expression.read memory (expressionIndices expression coordinates))
      Effect.store type destinationElement value) memory = some (result, memory')) :
    result = .ok () ∧ Untouched destination.elements type.size memory memory' := by
  rw [forEachCoordinate_eq] at hrun
  refine Effect.exec_forM_ok (Untouched destination.elements type.size memory) ?_
    (fun _ _ => rfl) hrun
  intro number hnumber before outcome after hbefore hround
  have hbounds := coordinateAt_inBounds destination.mapping (List.mem_range.1 hnumber)
  rw [DenseView.elementAt_ok hhost hbounds, Effect.exec_ofResult_bind] at hround
  simp only [Effect.exec_read_bind, Effect.exec_check_bind] at hround
  rcases Option.bind_eq_some_iff.1 hround with ⟨value, -, hstore⟩
  cases hstore
  refine ⟨rfl, fun cell houtside => ?_⟩
  have helement := houtside _ (List.mem_map.2 ⟨number, hnumber, rfl⟩)
  rw [type.store_outside helement]
  exact hbefore cell houtside

/-- A successful evaluation has found no leaf that knows of the address of an element, unless it is
a self-assignment, and it has written to the elements only. -/
theorem evaluate_ok
    (hrun : Effect.exec (evaluate context expression destination) memory = some (.ok (), memory')) :
    destination.memorySpace = .host ∧
      (isSelfAssignment expression destination = false →
        ∀ element ∈ destination.elements, expression.mayAlias element = false) ∧
      Untouched destination.elements type.size memory memory' := by
  rw [evaluate, Effect.exec_ofResult_bind] at hrun
  cases hvalidate : validateEvaluate context expression destination with
  | error status => simp [hvalidate] at hrun
  | ok =>
    have hhost := validateEvaluate_host hvalidate
    simp only [hvalidate] at hrun
    cases hself : isSelfAssignment expression destination with
    | true =>
      simp only [hself, if_true, Effect.exec_pure] at hrun
      cases hrun
      exact ⟨hhost, by simp, fun _ _ => rfl⟩
    | false =>
      simp only [hself, Bool.false_eq_true, if_false, Effect.exec_ofResult_bind] at hrun
      cases halias : validateNoAlias expression destination with
      | error status => simp [halias] at hrun
      | ok =>
        simp only [halias] at hrun
        exact ⟨hhost, fun _ => (validateNoAlias_ok_iff hhost).1 halias, (exec_writes hhost hrun).2⟩

/-- A failing evaluation has not written. -/
theorem evaluate_error {status : Status}
    (hrun : Effect.exec (evaluate context expression destination) memory =
      some (.error status, memory')) : memory' = memory := by
  rw [evaluate, Effect.exec_ofResult_bind] at hrun
  cases hvalidate : validateEvaluate context expression destination with
  | error status =>
    simp only [hvalidate] at hrun
    cases hrun
    rfl
  | ok =>
    have hhost := validateEvaluate_host hvalidate
    simp only [hvalidate] at hrun
    cases hself : isSelfAssignment expression destination with
    | true => simp [hself] at hrun
    | false =>
      simp only [hself, Bool.false_eq_true, if_false, Effect.exec_ofResult_bind] at hrun
      cases halias : validateNoAlias expression destination with
      | error status =>
        simp only [halias] at hrun
        cases hrun
        rfl
      | ok =>
        simp only [halias] at hrun
        cases (exec_writes hhost hrun).1

end Runs

end Dense
end AscCpp
