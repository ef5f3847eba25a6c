import AscCpp.Library.Cholesky
import AscCpp.Random.DenseFill
import AscCpp.Random.ElementAt

/-!
# MultivariateNormal — preparing and drawing dense normal vectors

`PrepareDenseMultivariateNormal` factors the covariance, and `FillDenseMultivariateNormal` multiplies
standard normal vectors with the factor, in place.

The arithmetic is a parameter, of which `RealArithmetic.exact` is the one without rounding.
-/

namespace AscCpp
namespace Random

open AscCpp.Core Library AscCpp.Dense

variable {Cell V G : Type} {type : Representation Cell V}

/-! ## Arithmetic -/

/-- What the functions use of a floating-point type.  An operation without a value is one that must
not be evaluated. -/
structure RealArithmetic (V : Type) where
  zero : V
  one : V
  isFinite : V → Bool
  equal : V → V → Bool
  less : V → V → Bool
  negate : V → V
  /-- `std::fma`: the product of the first two, plus the third. -/
  fma : V → V → V → V
  divide : V → V → Option V
  squareRoot : V → Option V

/-- Numbers of a field, with square roots of what is positive. -/
def RealArithmetic.exact [Field V] [LinearOrder V] (sqrt : V → V) : RealArithmetic V where
  zero := 0
  one := 1
  isFinite _ := true
  equal x y := decide (x = y)
  less x y := decide (x < y)
  negate x := -x
  fma x y z := x * y + z
  divide x y := if y = 0 then none else some (x / y)
  squareRoot x := if 0 < x then some (sqrt x) else none

/-! ## Preparation -/

section Preparation

variable (arithmetic : RealArithmetic V) (mean : DenseView type 1)
  (covariance lowerFactor : DenseView type 2)

/-- The loop over the mean and the covariance. -/
def validateMoments (count : Nat) : Effect (Nat → Cell) Unit :=
  forM (List.range count) fun row => do
    let expected ← Effect.load type (vectorAt mean row)
    Effect.ofResult (failIf (¬ arithmetic.isFinite expected)
      { code := .invalidArgument, message := "Multivariate normal mean must be finite" })
    forM (List.range count) fun column => do
      let value ← Effect.load type (matrixAt covariance row column)
      Effect.ofResult (failIf (¬ arithmetic.isFinite value)
        { code := .invalidArgument, message := "Multivariate normal covariance must be finite" })
      let transposed ← Effect.load type (matrixAt covariance column row)
      Effect.ofResult (failIf (¬ arithmetic.equal value transposed)
        { code := .invalidArgument
          message := "Multivariate normal covariance must be exactly symmetric" })

/-- What the entries before it leave of an entry of the covariance. -/
def subtractProducts (row column : Nat) : Effect (Nat → Cell) V := do
  let value ← Effect.load type (matrixAt covariance row column)
  (List.range column).foldlM (fun value inner => do
    let left ← Effect.load type (matrixAt lowerFactor row inner)
    let right ← Effect.load type (matrixAt lowerFactor column inner)
    pure (arithmetic.fma (arithmetic.negate left) right value)) value

def factorEntry (row column : Nat) : Effect (Nat → Cell) V := do
  let value ← subtractProducts arithmetic covariance lowerFactor row column
  if row = column then do
    Effect.ofResult (failIf (¬ arithmetic.isFinite value ∨ ¬ arithmetic.less arithmetic.zero value)
      { code := .numerical
        message := "Multivariate normal covariance is not positive definite" })
    Effect.check (arithmetic.squareRoot value)
  else do
    let diagonal ← Effect.load type (matrixAt lowerFactor column column)
    Effect.check (arithmetic.divide value diagonal)

def factorize (count : Nat) : Effect (Nat → Cell) Unit :=
  forM (List.range count) fun row =>
    forM (List.range (row + 1)) fun column => do
      let value ← factorEntry arithmetic covariance lowerFactor row column
      Effect.ofResult (failIf (¬ arithmetic.isFinite value)
        { code := .numerical, message := "Multivariate normal factorization is nonfinite" })
      Effect.store type (matrixAt lowerFactor row column) value

def clearUpper (count : Nat) : Effect (Nat → Cell) Unit :=
  forM (List.range count) fun row =>
    forM (List.range (count - (row + 1))) fun step =>
      Effect.store type (matrixAt lowerFactor row (row + 1 + step)) arithmetic.zero

def prepareDenseMultivariateNormal (context : ExecutionContext) : Effect (Nat → Cell) Unit := do
  Effect.ofResult (validateSerialHost context lowerFactor
    "Multivariate normal preparation requires serial execution")
  Effect.ofResult (validateSerialHost context mean
    "Multivariate normal preparation requires serial execution")
  Effect.ofResult (validateSerialHost context covariance
    "Multivariate normal preparation requires serial execution")
  let dimension := mean.mapping.extents.get 0
  Effect.ofResult (failIf
    (covariance.mapping.extents.get 0 ≠ dimension ∨ covariance.mapping.extents.get 1 ≠ dimension ∨
      lowerFactor.mapping.extents.get 0 ≠ dimension ∨
        lowerFactor.mapping.extents.get 1 ≠ dimension)
    { code := .shape
      message := "Multivariate normal mean, covariance, and factor shapes differ" })
  Effect.ofResult (failIf
    (denseViewsOverlap lowerFactor mean ∨ denseViewsOverlap lowerFactor covariance)
    { code := .invalidArgument, message := "Multivariate normal factor overlaps an input" })
  let count := dimension.toNat
  validateMoments arithmetic mean covariance count
  factorize arithmetic covariance lowerFactor count
  clearUpper arithmetic lowerFactor count

end Preparation

/-! ## Drawing -/

/-- `NormalGenerator`: the parameters of its distribution, and the state of its engine. -/
structure NormalGenerator (V G : Type) where
  mean : V
  standardDeviation : V
  state : G

section Drawing

variable (arithmetic : RealArithmetic V) (generate : NormalGenerator V G → Result V × G)
  (destination : DenseView type 2) (mean : DenseView type 1) (lowerFactor : DenseView type 2)
  (sampleWorkspace : DenseView type 1)

/-- `PublishPoint`. -/
def publishPoint (sample : Nat) (pointWorkspace : DenseView type 1) : Effect (Nat → Cell) Unit :=
  forM (List.range (destination.mapping.extents.get 1).toNat) fun dimension => do
    let value ← Effect.load type (vectorAt pointWorkspace dimension)
    Effect.store type (matrixAt destination sample dimension) value

def validateFactor (count : Nat) : Effect (Nat → Cell) Unit :=
  forM (List.range count) fun row => do
    let expected ← Effect.load type (vectorAt mean row)
    Effect.ofResult (failIf (¬ arithmetic.isFinite expected)
      { code := .invalidArgument, message := "Multivariate normal mean must be finite" })
    forM (List.range count) fun column => do
      let value ← Effect.load type (matrixAt lowerFactor row column)
      Effect.ofResult (failIf
        (¬ arithmetic.isFinite value ∨ (column > row ∧ ¬ arithmetic.equal value arithmetic.zero) ∨
          (column = row ∧ ¬ arithmetic.less arithmetic.zero value))
        { code := .invalidArgument
          message := "Multivariate normal factor is not finite lower triangular with a positive " ++
            "diagonal" })

/-- One draw for every element of the workspace; what is left of the generator. -/
def drawSample (count : Nat) (generator : NormalGenerator V G) :
    Effect (Nat → Cell) (NormalGenerator V G) :=
  (List.range count).foldlM (fun generator dimensionIndex => do
    let drawn := generate generator
    let generated ← Effect.ofResult drawn.1
    Effect.store type (vectorAt sampleWorkspace dimensionIndex) generated
    pure { generator with state := drawn.2 }) generator

/-- The rows from the last one to the first. -/
def transformSample (count : Nat) : Effect (Nat → Cell) Unit :=
  forM (List.range count) fun step => do
    let row := count - step - 1
    let expected ← Effect.load type (vectorAt mean row)
    let value ← (List.range (row + 1)).foldlM (fun value column => do
      let factor ← Effect.load type (matrixAt lowerFactor row column)
      let drawn ← Effect.load type (vectorAt sampleWorkspace column)
      pure (arithmetic.fma factor drawn value)) expected
    Effect.ofResult (failIf (¬ arithmetic.isFinite value)
      { code := .numerical, message := "Multivariate normal sample is nonfinite" })
    Effect.store type (vectorAt sampleWorkspace row) value

/-- `FillDenseMultivariateNormal`, with what is left of the generator. -/
def fillDenseMultivariateNormal (context : ExecutionContext)
    (standardNormal : NormalGenerator V G) : Effect (Nat → Cell) (NormalGenerator V G) := do
  Effect.ofResult (validateSerialHost context destination
    "Multivariate normal sampling requires serial execution")
  Effect.ofResult (validateSerialHost context mean
    "Multivariate normal sampling requires serial execution")
  Effect.ofResult (validateSerialHost context lowerFactor
    "Multivariate normal sampling requires serial execution")
  Effect.ofResult (validateSerialHost context sampleWorkspace
    "Multivariate normal sampling requires serial execution")
  let dimension := mean.mapping.extents.get 0
  Effect.ofResult (failIf
    (destination.mapping.extents.get 1 ≠ dimension ∨
      lowerFactor.mapping.extents.get 0 ≠ dimension ∨
        lowerFactor.mapping.extents.get 1 ≠ dimension ∨
          sampleWorkspace.mapping.extents.get 0 ≠ dimension)
    { code := .shape, message := "Multivariate normal sampling shapes differ" })
  Effect.ofResult (failIf
    (denseViewsOverlap destination mean ∨ denseViewsOverlap destination lowerFactor ∨
      denseViewsOverlap destination sampleWorkspace ∨ denseViewsOverlap sampleWorkspace mean ∨
        denseViewsOverlap sampleWorkspace lowerFactor)
    { code := .invalidArgument
      message := "Multivariate normal destination or workspace overlaps read-only inputs" })
  Effect.ofResult (failIf
    (¬ arithmetic.equal standardNormal.mean arithmetic.zero ∨
      ¬ arithmetic.equal standardNormal.standardDeviation arithmetic.one)
    { code := .invalidArgument
      message := "Multivariate normal sampling requires a standard normal generator" })
  let count := dimension.toNat
  validateFactor arithmetic mean lowerFactor count
  (List.range (destination.mapping.extents.get 0).toNat).foldlM (fun generator sample => do
    let next ← drawSample generate sampleWorkspace count generator
    transformSample arithmetic mean lowerFactor sampleWorkspace count
    publishPoint destination sample sampleWorkspace
    pure next) standardNormal

end Drawing

/-! ## Views of two numbers, and of two rows of them -/

def numberMatrixLayout : DenseLayout 2 where
  extents := 2 ::ᵥ 2 ::ᵥ List.Vector.nil
  strides := 2 ::ᵥ 1 ::ᵥ List.Vector.nil
  logicalSize := 4
  requiredSpanSize := 4
  unique := true
  exhaustive := true
  kind := .stride
  strides_nonneg := by decide
  logical := rfl
  span := rfl
  unique_eq := rfl
  exhaustive_eq := rfl

theorem sampleLayout_unique : sampleLayout.unique = true := by
  rfl

theorem sampleLayout_bytes :
    ∃ bytes, checkedMultiply sizeType sampleLayout.requiredSpanSize ((8 : Nat) : Int) = .ok bytes :=
  sampleView.bytes

def numberVector (V : Type) (data : Nat) (hdata : data ≠ 0) :
    DenseView (.uniform V 8 8 Representation.eight_pos) 1 where
  data := data
  mapping := sampleLayout
  memorySpace := .host
  data_ne _ := hdata
  unique := sampleLayout_unique
  bytes := sampleLayout_bytes

def numberMatrix (V : Type) (data : Nat) (hdata : data ≠ 0) :
    DenseView (.uniform V 8 8 Representation.eight_pos) 2 where
  data := data
  mapping := numberMatrixLayout
  memorySpace := .host
  data_ne _ := hdata
  unique := rfl
  bytes := ⟨32, (by decide : checkedMultiply sizeType 4 ((8 : Nat) : Int) = .ok 32)⟩

end Random
end AscCpp
