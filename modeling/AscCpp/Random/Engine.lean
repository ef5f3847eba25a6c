import AscCpp.Core.Status
import AscCpp.Library.Checkpoint
import AscCpp.Random.Philox

/-!
# Engine — the stateful engines

The engines are values: an operation that changes one returns the engine after it.  `RestoreState`
reports its status together with the engine that it leaves, and `FromState` restores a state over an
engine of the seed zero.
-/

namespace AscCpp
namespace Random

open AscCpp.Core Library

/-- `kRandomSequenceVersion1`. -/
def randomSequenceVersion1 : BitVec 32 := 1

/-! ## SplitMix64 -/

structure SplitMix64 where
  state : BitVec 64
  deriving DecidableEq, Repr

structure SplitMix64State where
  sequenceVersion : BitVec 32 := randomSequenceVersion1
  state : BitVec 64 := 0
  deriving DecidableEq, Repr

namespace SplitMix64

def ofSeed (seed : BitVec 64) : SplitMix64 :=
  ⟨seed⟩

/-- What `operator()` makes of the state. -/
def mix (state : BitVec 64) : BitVec 64 :=
  let mixed := (state ^^^ state >>> 30) * 0xBF58476D1CE4E5B9
  let mixed := (mixed ^^^ mixed >>> 27) * 0x94D049BB133111EB
  mixed ^^^ mixed >>> 31

def next (engine : SplitMix64) : BitVec 64 × SplitMix64 :=
  let state := engine.state + 0x9E3779B97F4A7C15
  (mix state, ⟨state⟩)

def exportState (engine : SplitMix64) : SplitMix64State :=
  { sequenceVersion := randomSequenceVersion1, state := engine.state }

def restoreState (engine : SplitMix64) (state : SplitMix64State) : Result Unit × SplitMix64 :=
  if state.sequenceVersion ≠ randomSequenceVersion1 then
    (.error
      { code := .version, message := "SplitMix64 state has an unsupported sequence version" }, engine)
  else
    (.ok (), ⟨state.state⟩)

def fromState : SplitMix64State → Result SplitMix64 :=
  loadOver restoreState (ofSeed 0)

end SplitMix64

/-! ## Pcg32 -/

structure Pcg32 where
  state : BitVec 64 := 0
  increment : BitVec 64 := 1
  deriving DecidableEq, Repr

structure Pcg32State where
  sequenceVersion : BitVec 32 := randomSequenceVersion1
  state : BitVec 64 := 0
  increment : BitVec 64 := 1
  deriving DecidableEq, Repr

namespace Pcg32

def next (engine : Pcg32) : Word × Pcg32 :=
  let previous := engine.state
  let xorshifted : Word := ((previous >>> 18 ^^^ previous) >>> 27).setWidth 32
  let rotation := (previous >>> 59).toNat
  (xorshifted.rotateRight rotation,
    { engine with state := previous * 6364136223846793005 + engine.increment })

/-- The constructor with an initial state and a stream. -/
def ofStream (initialState stream : BitVec 64) : Pcg32 :=
  let engine : Pcg32 := { increment := stream <<< 1 ||| 1 }
  let engine := engine.next.2
  let engine := { engine with state := engine.state + initialState }
  engine.next.2

def ofSeed (seed : BitVec 64) : Pcg32 :=
  ofStream seed 0

def exportState (engine : Pcg32) : Pcg32State :=
  { sequenceVersion := randomSequenceVersion1, state := engine.state, increment := engine.increment }

def restoreState (engine : Pcg32) (state : Pcg32State) : Result Unit × Pcg32 :=
  if state.sequenceVersion ≠ randomSequenceVersion1 then
    (.error { code := .version, message := "PCG32 state has an unsupported sequence version" },
      engine)
  else if state.increment &&& 1 = 0 then
    (.error { code := .invalidState, message := "PCG32 encoded stream increment must be odd" },
      engine)
  else
    (.ok (), { state := state.state, increment := state.increment })

def fromState : Pcg32State → Result Pcg32 :=
  loadOver restoreState (ofSeed 0)

end Pcg32

/-! ## The xoroshiro engines -/

/-- `state_` of a xoroshiro engine. -/
structure XoroshiroWords (width : Nat) where
  first : BitVec width
  second : BitVec width
  deriving DecidableEq, Repr

namespace XoroshiroWords

variable {width : Nat}

instance : XorOp (XoroshiroWords width) where
  xor left right := ⟨left.first ^^^ right.first, left.second ^^^ right.second⟩

/-- The linear step, with its two rotations and its shift. -/
def advance (rotation shift lastRotation : Nat) (words : XoroshiroWords width) :
    XoroshiroWords width :=
  let second := words.second ^^^ words.first
  ⟨words.first.rotateLeft rotation ^^^ second ^^^ second <<< shift, second.rotateLeft lastRotation⟩

/-- One bit of a jump. -/
def jumpTurn (step : XoroshiroWords width → XoroshiroWords width) (word : BitVec width)
    (state : XoroshiroWords width × XoroshiroWords width) (bit : Nat) :
    XoroshiroWords width × XoroshiroWords width :=
  (if word &&& (1 : BitVec width) <<< bit ≠ 0 then state.1 ^^^ state.2 else state.1, step state.2)

/-- The loops of `Jump` and of `LongJump`, which leave what they accumulate. -/
def jumpBy (step : XoroshiroWords width → XoroshiroWords width) (polynomial : List (BitVec width))
    (words : XoroshiroWords width) : XoroshiroWords width :=
  (polynomial.foldl (fun state word => (List.range width).foldl (jumpTurn step word) state)
    (⟨0, 0⟩, words)).1

end XoroshiroWords

structure Xoroshiro64Star where
  state : XoroshiroWords 32
  deriving DecidableEq, Repr

namespace Xoroshiro64Star

/-- What `operator()` makes of the state. -/
def advance : XoroshiroWords 32 → XoroshiroWords 32 :=
  XoroshiroWords.advance 26 9 13

def next (engine : Xoroshiro64Star) : Word × Xoroshiro64Star :=
  (engine.state.first * 0x9E3779BB, ⟨advance engine.state⟩)

/-- `kPolynomial` of `Jump`. -/
def jumpPolynomial : List Word :=
  [0x77FCD1A0, 0x4CBF99BD]

/-- `kPolynomial` of `LongJump`. -/
def longJumpPolynomial : List Word :=
  [0x3F1F8B95, 0xB4E7E463]

def jump (engine : Xoroshiro64Star) : Xoroshiro64Star :=
  ⟨XoroshiroWords.jumpBy advance jumpPolynomial engine.state⟩

def longJump (engine : Xoroshiro64Star) : Xoroshiro64Star :=
  ⟨XoroshiroWords.jumpBy advance longJumpPolynomial engine.state⟩

end Xoroshiro64Star

structure Xoroshiro128Plus where
  state : XoroshiroWords 64
  deriving DecidableEq, Repr

structure Xoroshiro128PlusState where
  sequenceVersion : BitVec 32 := randomSequenceVersion1
  first : BitVec 64 := 0
  second : BitVec 64 := 0
  deriving DecidableEq, Repr

namespace Xoroshiro128Plus

def ofSeed (seed : BitVec 64) : Xoroshiro128Plus :=
  let first := (SplitMix64.ofSeed seed).next
  let second := first.2.next
  ⟨⟨first.1, second.1⟩⟩

/-- What `operator()` makes of the state. -/
def advance : XoroshiroWords 64 → XoroshiroWords 64 :=
  XoroshiroWords.advance 24 16 37

def next (engine : Xoroshiro128Plus) : BitVec 64 × Xoroshiro128Plus :=
  (engine.state.first + engine.state.second, ⟨advance engine.state⟩)

/-- `kPolynomial` of `Jump`. -/
def jumpPolynomial : List (BitVec 64) :=
  [0xDF900294D8F554A5, 0x170865DF4B3201FC]

/-- `kPolynomial` of `LongJump`. -/
def longJumpPolynomial : List (BitVec 64) :=
  [0xD2A98B26625EEE7B, 0xDDDF9B1090AA7AC1]

def jump (engine : Xoroshiro128Plus) : Xoroshiro128Plus :=
  ⟨XoroshiroWords.jumpBy advance jumpPolynomial engine.state⟩

def longJump (engine : Xoroshiro128Plus) : Xoroshiro128Plus :=
  ⟨XoroshiroWords.jumpBy advance longJumpPolynomial engine.state⟩

def exportState (engine : Xoroshiro128Plus) : Xoroshiro128PlusState :=
  { sequenceVersion := randomSequenceVersion1
    first := engine.state.first
    second := engine.state.second }

def restoreState (engine : Xoroshiro128Plus) (state : Xoroshiro128PlusState) :
    Result Unit × Xoroshiro128Plus :=
  if state.sequenceVersion ≠ randomSequenceVersion1 then
    (.error
      { code := .version, message := "xoroshiro128+ state has an unsupported sequence version" },
      engine)
  else if state.first = 0 ∧ state.second = 0 then
    (.error { code := .invalidState, message := "xoroshiro128+ state must not be all zero" },
      engine)
  else
    (.ok (), ⟨⟨state.first, state.second⟩⟩)

def fromState : Xoroshiro128PlusState → Result Xoroshiro128Plus :=
  loadOver restoreState (ofSeed 0)

end Xoroshiro128Plus

end Random
end AscCpp
