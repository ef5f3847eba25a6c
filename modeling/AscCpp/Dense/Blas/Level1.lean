import AscCpp.Core.Loop
import AscCpp.Dense.Blas.Access
import Mathlib.Algebra.Order.Field.Basic

/-!
# Level1 — the operations on vectors

`Scal`, `Copy`, `Axpy`, `Swap` and `Rot`, which write vectors, and the reductions `Dot`, `Dotu`,
`Dotc`, `Asum`, `Nrm2` and `Iamax`, which write one element.
-/

namespace AscCpp
namespace Dense
namespace Blas

open AscCpp.Core Library

variable {Cell V W : Type} {type : Representation Cell V} {resultType : Representation Cell W}

namespace Level1

/-! ## Checks -/

def validateContext (context : ExecutionContext) : Result Unit := do
  failIf (context.backend ≠ .serial)
    { code := .unsupported, message := "Dense CPU BLAS requires serial execution" }
  failIf (context.canAccess .host = false)
    { code := .memoryAccess, message := "Serial execution cannot access host memory" }

def validateHost (vector : DenseBlasVectorView type) : Result Unit := do
  failIf (vector.memorySpace ≠ .host)
    { code := .memoryAccess, message := "Dense CPU BLAS requires host storage" }
  failIf (vector.size ≠ 0 ∧ vector.data = 0)
    { code := .memoryAccess, message := "A nonempty BLAS vector has a null pointer" }

def validateExactSize (vector : DenseBlasVectorView type) (expected : Int) (message : String) :
    Result Unit := do
  validateHost vector
  failIf (vector.size ≠ expected) { code := .shape, message := message }

/-- `SameDescriptor`. -/
def SameDescriptor (left right : DenseBlasVectorView type) : Prop :=
  left.data = right.data ∧ left.size = right.size ∧ left.increment = right.increment ∧
    left.memorySpace = right.memorySpace

instance (left right : DenseBlasVectorView type) : Decidable (SameDescriptor left right) :=
  inferInstanceAs (Decidable (_ ∧ _ ∧ _ ∧ _))

/-- `Overlap`; the ends of the spans are sums of `uintptr_t`. -/
def overlap (left : DenseBlasVectorView type) (right : DenseBlasVectorView resultType) : Bool :=
  if left.reachableSize = 0 ∨ right.reachableSize = 0 then
    false
  else
    decide (left.reachableData < (right.reachableData + right.reachableSize) % 2 ^ 64 ∧
      right.reachableData < (left.reachableData + left.reachableSize) % 2 ^ 64)

def validatePair (left right : DenseBlasVectorView type) : Result Unit := do
  validateHost left
  validateHost right
  failIf (left.size ≠ right.size)
    { code := .shape, message := "BLAS vector sizes do not match" }

/-- `ValidateReduction` of two operands. -/
def validateReductionOfPair (context : ExecutionContext) (left right : DenseBlasVectorView type)
    (result : DenseBlasVectorView resultType) : Result Unit := do
  validateContext context
  validatePair left right
  validateExactSize result 1 "A BLAS reduction result must have size one"
  failIf (overlap left result = true ∨ overlap right result = true)
    { code := .invalidArgument
      message := "A BLAS reduction result cannot overlap an input" }

/-- `ValidateReduction` of one operand. -/
def validateReduction (context : ExecutionContext) (operand : DenseBlasVectorView type)
    (result : DenseBlasVectorView resultType) : Result Unit := do
  validateContext context
  validateHost operand
  validateExactSize result 1 "A BLAS reduction result must have size one"
  failIf (overlap operand result = true)
    { code := .invalidArgument
      message := "A BLAS reduction result cannot overlap its input" }

/-! ## Operations -/

section Operations

variable (context : ExecutionContext) (x y source destination : DenseBlasVectorView type)

def scal [Mul V] (alpha : V) : Effect (Nat → Cell) Unit := do
  Effect.ofResult (validateContext context)
  Effect.ofResult (validateHost destination)
  forM (indices 0 destination.size) fun index => do
    let memory ← Effect.read
    Effect.store type (destination.vectorAt index) (destination.value memory index * alpha)

def copy : Effect (Nat → Cell) Unit := do
  Effect.ofResult (validateContext context)
  Effect.ofResult (validatePair source destination)
  if SameDescriptor source destination then
    pure ()
  else
    Effect.ofResult (failIf (overlap source destination = true)
      { code := .invalidArgument, message := "Copy rejects partially overlapping vectors" })
    forM (indices 0 source.size) fun index => do
      let memory ← Effect.read
      Effect.store type (destination.vectorAt index) (source.value memory index)

def axpy [Zero V] [Add V] [Mul V] [DecidableEq V] (alpha : V) : Effect (Nat → Cell) Unit := do
  Effect.ofResult (validateContext context)
  Effect.ofResult (validatePair source destination)
  Effect.ofResult
    (failIf (overlap source destination = true ∧ ¬ SameDescriptor source destination)
      { code := .invalidArgument, message := "Axpy rejects partially overlapping vectors" })
  if alpha = 0 then
    pure ()
  else
    forM (indices 0 source.size) fun index => do
      let memory ← Effect.read
      Effect.store type (destination.vectorAt index)
        (destination.value memory index + alpha * source.value memory index)

/-- One round of a loop that writes both vectors. -/
def storePair (index : Int) (left right : V) : Effect (Nat → Cell) Unit := do
  Effect.store type (x.vectorAt index) left
  Effect.store type (y.vectorAt index) right

def swap : Effect (Nat → Cell) Unit := do
  Effect.ofResult (validateContext context)
  Effect.ofResult (validatePair x y)
  if SameDescriptor x y then
    pure ()
  else
    Effect.ofResult (failIf (overlap x y = true)
      { code := .invalidArgument, message := "Swap rejects partially overlapping vectors" })
    forM (indices 0 x.size) fun index => do
      let memory ← Effect.read
      storePair x y index (y.value memory index) (x.value memory index)

def rot [Add V] [Sub V] [Mul V] (c s : V) : Effect (Nat → Cell) Unit := do
  Effect.ofResult (validateContext context)
  Effect.ofResult (validatePair x y)
  Effect.ofResult (failIf (overlap x y = true)
    { code := .invalidArgument, message := "Rot rejects overlapping vectors" })
  forM (indices 0 x.size) fun index => do
    let memory ← Effect.read
    storePair x y index (c * x.value memory index + s * y.value memory index)
      (c * y.value memory index - s * x.value memory index)

end Operations

section Reductions

variable (context : ExecutionContext)

def dot [Zero V] [Add V] [Mul V] (left right result : DenseBlasVectorView type) :
    Effect (Nat → Cell) Unit := do
  Effect.ofResult (validateReductionOfPair context left right result)
  let memory ← Effect.read
  let sum := (indices 0 left.size).foldl
    (fun sum index => sum + left.value memory index * right.value memory index) 0
  Effect.store type (result.vectorAt 0) sum

/-- `ComplexDotImpl`, of complex elements. -/
def complexDotImpl [Zero V] [Add V] [Mul V] [Star V] (conjugated : Bool)
    (left right result : DenseBlasVectorView type) : Effect (Nat → Cell) Unit := do
  Effect.ofResult (validateReductionOfPair context left right result)
  let memory ← Effect.read
  let sum := (indices 0 left.size).foldl (fun sum index =>
    if conjugated then sum + star (left.value memory index) * right.value memory index
    else sum + left.value memory index * right.value memory index) 0
  Effect.store type (result.vectorAt 0) sum

def dotu [Zero V] [Add V] [Mul V] [Star V] (left right result : DenseBlasVectorView type) :
    Effect (Nat → Cell) Unit :=
  complexDotImpl context false left right result

def dotc [Zero V] [Add V] [Mul V] [Star V] (left right result : DenseBlasVectorView type) :
    Effect (Nat → Cell) Unit :=
  complexDotImpl context true left right result

variable [Field V] [LinearOrder V]

/-- `Asum`, of real elements. -/
def asum (operand result : DenseBlasVectorView type) : Effect (Nat → Cell) Unit := do
  Effect.ofResult (validateReduction context operand result)
  let memory ← Effect.read
  let sum := (indices 0 operand.size).foldl
    (fun sum index => sum + |operand.value memory index|) 0
  Effect.store type (result.vectorAt 0) sum

/-- `scale` and `sum_squares`. -/
structure ScaledSquares (V : Type) where
  scale : V
  sumSquares : V

/-- `AddScaledSquare`; an element of an ordered field is neither infinite nor no number. -/
def addScaledSquare (value : V) (state : ScaledSquares V) : ScaledSquares V :=
  let absolute := |value|
  if absolute = 0 then
    state
  else if state.scale < absolute then
    let ratio := state.scale / absolute
    { scale := absolute, sumSquares := 1 + state.sumSquares * ratio * ratio }
  else
    let ratio := absolute / state.scale
    { state with sumSquares := state.sumSquares + ratio * ratio }

/-- The norm that `Nrm2Impl` stores. -/
def ScaledSquares.norm (squareRoot : V → V) (state : ScaledSquares V) : V :=
  if state.scale = 0 then 0 else state.scale * squareRoot state.sumSquares

/-- `Nrm2`, of real elements. -/
def nrm2 (squareRoot : V → V) (operand result : DenseBlasVectorView type) :
    Effect (Nat → Cell) Unit := do
  Effect.ofResult (validateReduction context operand result)
  let memory ← Effect.read
  let state := (indices 0 operand.size).foldl
    (fun state index => addScaledSquare (operand.value memory index) state)
    { scale := 0, sumSquares := 1 }
  Effect.store type (result.vectorAt 0) (state.norm squareRoot)

/-- The loop of `IamaxImpl`, over the index and the magnitude of the maximum. -/
def maximumFrom (magnitude : Int → V) (maximum : Int × V) (indices : List Int) : Int × V :=
  indices.foldl (fun maximum index =>
    if magnitude index > maximum.2 then (index, magnitude index) else maximum) maximum

/-- `Iamax`, of real elements. -/
def iamax (operand : DenseBlasVectorView type) {indexType : Representation Cell Int}
    (result : DenseBlasVectorView indexType) : Effect (Nat → Cell) Unit := do
  Effect.ofResult (validateReduction context operand result)
  let memory ← Effect.read
  if operand.size = 0 then
    Effect.store indexType (result.vectorAt 0) (-1)
  else
    let magnitude : Int → V := fun index => |operand.value memory index|
    Effect.store indexType (result.vectorAt 0)
      (maximumFrom magnitude (0, magnitude 0) (indices 1 operand.size)).1

end Reductions

end Level1

end Blas
end Dense
end AscCpp
