import AscCpp.Random.XoroshiroJump

/-!
# XoroshiroOrbit — jumps follow the orbit of an engine

A jump that is a number of steps commutes with the step and with every other such jump, and it
separates states as the step does.

- `xoroshiro_followsOrbit`: the jumps of both engines, with their numbers of steps.
-/

namespace AscCpp
namespace Random

open Library XorSpace

/-- What is promised of the jumps of an engine: they are `near` and `far` steps. -/
structure FollowsOrbit {ε : Type} (step jump longJump : ε → ε) (near far : Nat) : Prop where
  jump_eq : jump = step^[near]
  longJump_eq : longJump = step^[far]
  jump_step : Function.Commute jump step
  longJump_step : Function.Commute longJump step
  jump_longJump : Function.Commute jump longJump
  jump_injective : Function.Injective jump
  longJump_injective : Function.Injective longJump

/-- Iterates of an injective step keep every promise. -/
theorem FollowsOrbit.of_iterate {ε : Type} {step jump longJump : ε → ε} {near far : Nat}
    (hstep : Function.Injective step) (hjump : jump = step^[near])
    (hlongJump : longJump = step^[far]) : FollowsOrbit step jump longJump near far := by
  subst hjump hlongJump
  have hself : Function.Commute step step := .refl step
  exact
    { jump_eq := rfl
      longJump_eq := rfl
      jump_step := hself.iterate_left near
      longJump_step := hself.iterate_left far
      jump_longJump := hself.iterate_iterate near far
      jump_injective := hstep.iterate near
      longJump_injective := hstep.iterate far }

/-- The promises are kept when the state of the engine tells that they are. -/
theorem FollowsOrbit.of_state {ε σ : Type} {state : ε → σ} {advance : σ → σ}
    {step jump longJump : ε → ε} {near far : Nat} (hstate : Function.Injective state)
    (hadvance : Function.Injective advance) (hstep : Function.Semiconj state step advance)
    (hjump : ∀ engine, state (jump engine) = advance^[near] (state engine))
    (hlongJump : ∀ engine, state (longJump engine) = advance^[far] (state engine)) :
    FollowsOrbit step jump longJump near far := by
  have hinjective : Function.Injective step := by
    intro left right heq
    apply hstate
    apply hadvance
    rw [← hstep.eq, ← hstep.eq, heq]
  apply FollowsOrbit.of_iterate hinjective
  · funext engine
    exact hstate ((hjump engine).trans ((hstep.iterate_right near).eq engine).symm)
  · funext engine
    exact hstate ((hlongJump engine).trans ((hstep.iterate_right far).eq engine).symm)

namespace XoroshiroWords

/-- Distinct states have distinct successors. -/
theorem advance_injective {width : Nat} (rotation shift lastRotation : Nat) :
    Function.Injective (@advance width rotation shift lastRotation) := by
  intro left right heq
  apply XorSpace.xor_eq_zero_iff.1
  apply @advance_eq_zero width rotation shift lastRotation
  rw [advance_linear, heq, XorSpace.xor_self]

end XoroshiroWords

/-! ## xoroshiro128+ -/

namespace Xoroshiro128Plus

/-- The engine after one draw. -/
def step (engine : Xoroshiro128Plus) : Xoroshiro128Plus :=
  engine.next.2

theorem followsOrbit : FollowsOrbit step jump longJump (2 ^ 64) (2 ^ 96) := by
  refine FollowsOrbit.of_state ?_ (XoroshiroWords.advance_injective 24 16 37) ?_ jump_state
    longJump_state
  · rintro ⟨left⟩ ⟨right⟩ heq
    exact congrArg mk heq
  · exact fun _ => rfl

end Xoroshiro128Plus

/-! ## xoroshiro64* -/

namespace Xoroshiro64Star

theorem advance_linear : Linear advance :=
  XoroshiroWords.advance_linear 26 9 13

/-- The characteristic polynomial of the step, without its leading coefficient. -/
def characteristic : BitVec 64 :=
  0x053BE9DA6E2286C1

theorem annihilates_first : ∀ i < 32,
    evaluate advance (coefficients characteristic ++ [true]) ⟨BitVec.twoPow 32 i, 0⟩ = zero := by
  decide +kernel

theorem annihilates_characteristic : Annihilates advance characteristic :=
  XoroshiroWords.annihilates_of_bits annihilates_first (by decide +kernel)

theorem squares_jump :
    (square characteristic)^[32] (timesX characteristic 1) =
      0x4CBF99BD#32 ++ 0x77FCD1A0#32 := by
  decide +kernel

theorem squares_longJump :
    (square characteristic)^[16] (0x4CBF99BD#32 ++ 0x77FCD1A0#32) =
      0xB4E7E463#32 ++ 0x3F1F8B95#32 := by
  decide +kernel

theorem act_jump : act advance (0x4CBF99BD#32 ++ 0x77FCD1A0#32) = advance^[2 ^ 32] := by
  rw [← squares_jump]
  exact act_squares advance_linear annihilates_characteristic 32

theorem act_longJump : act advance (0xB4E7E463#32 ++ 0x3F1F8B95#32) = advance^[2 ^ 48] := by
  rw [← squares_longJump, ← squares_jump, ← Function.iterate_add_apply]
  exact act_squares advance_linear annihilates_characteristic 48

/-- The engine after one draw. -/
def step (engine : Xoroshiro64Star) : Xoroshiro64Star :=
  engine.next.2

theorem jump_state (engine : Xoroshiro64Star) :
    engine.jump.state = advance^[2 ^ 32] engine.state := by
  rw [jump, jumpPolynomial, XoroshiroWords.jumpBy_eq_act]
  exact congrFun act_jump engine.state

theorem longJump_state (engine : Xoroshiro64Star) :
    engine.longJump.state = advance^[2 ^ 48] engine.state := by
  rw [longJump, longJumpPolynomial, XoroshiroWords.jumpBy_eq_act]
  exact congrFun act_longJump engine.state

theorem followsOrbit : FollowsOrbit step jump longJump (2 ^ 32) (2 ^ 48) := by
  refine FollowsOrbit.of_state ?_ (XoroshiroWords.advance_injective 26 9 13) ?_ jump_state
    longJump_state
  · rintro ⟨left⟩ ⟨right⟩ heq
    exact congrArg mk heq
  · exact fun _ => rfl

end Xoroshiro64Star

/-- The jumps of both engines are numbers of their own steps: they commute with the steps and with
each other, and keep distinct states apart. -/
theorem xoroshiro_followsOrbit :
    FollowsOrbit Xoroshiro128Plus.step Xoroshiro128Plus.jump Xoroshiro128Plus.longJump
        (2 ^ 64) (2 ^ 96) ∧
      FollowsOrbit Xoroshiro64Star.step Xoroshiro64Star.jump Xoroshiro64Star.longJump
        (2 ^ 32) (2 ^ 48) :=
  ⟨Xoroshiro128Plus.followsOrbit, Xoroshiro64Star.followsOrbit⟩

end Random
end AscCpp
