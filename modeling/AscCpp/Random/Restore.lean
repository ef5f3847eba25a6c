import AscCpp.Random.XoroshiroJump

/-!
# Restore — exporting and restoring the state of an engine

- `mix_eq_zero`: the mixer of `SplitMix64` sends no other state to zero, so that no seed expands
  to the state that a xoroshiro engine must not have.
- `engines_restore`: every engine goes on from its exported state.
-/

namespace AscCpp
namespace Random

open AscCpp.Core Library

/-! ## The engines as machines -/

def splitMix64Machine : Machine SplitMix64 SplitMix64State (BitVec 64) Status where
  Made engine := ∃ seed, engine = .ofSeed seed
  next := SplitMix64.next
  moves := []
  save := SplitMix64.exportState
  restore := SplitMix64.restoreState
  load := SplitMix64.fromState

def pcg32Machine : Machine Pcg32 Pcg32State Word Status where
  Made engine := (∃ seed, engine = .ofSeed seed) ∨
    ∃ initialState stream, engine = .ofStream initialState stream
  next := Pcg32.next
  moves := []
  save := Pcg32.exportState
  restore := Pcg32.restoreState
  load := Pcg32.fromState

def xoroshiro128PlusMachine :
    Machine Xoroshiro128Plus Xoroshiro128PlusState (BitVec 64) Status where
  Made engine := ∃ seed, engine = .ofSeed seed
  next := Xoroshiro128Plus.next
  moves := [Xoroshiro128Plus.jump, Xoroshiro128Plus.longJump]
  save := Xoroshiro128Plus.exportState
  restore := Xoroshiro128Plus.restoreState
  load := Xoroshiro128Plus.fromState

/-! ## SplitMix64 -/

/-- A restoration takes the saved state over, or it fails and changes nothing. -/
theorem SplitMix64.restoreState_cases (engine : SplitMix64) (state : SplitMix64State) :
    state.sequenceVersion = randomSequenceVersion1 ∧
        engine.restoreState state = (.ok (), ⟨state.state⟩) ∨
      ∃ status, engine.restoreState state = (.error status, engine) := by
  unfold restoreState
  split
  · exact .inr ⟨_, rfl⟩
  · rename_i hversion
    exact .inl ⟨not_not.1 hversion, rfl⟩

theorem splitMix64_sound : splitMix64Machine.Sound fun _ => True where
  made _ _ := trivial
  next _ _ := trivial
  moved _ _ _ _ := trivial
  failed engine state failure after h := by
    rcases engine.restoreState_cases state with ⟨-, hok⟩ | ⟨status, herror⟩
    · cases hok.symm.trans h
    · cases herror.symm.trans h
      rfl
  restored engine state after h := by
    rcases engine.restoreState_cases state with ⟨hversion, hok⟩ | ⟨status, herror⟩
    · cases hok.symm.trans h
      exact ⟨trivial, by simp [splitMix64Machine, SplitMix64.exportState, ← hversion]⟩
    · cases herror.symm.trans h
  save _ _ _ := rfl
  load := ⟨.ofSeed 0, rfl⟩

/-! ## PCG32 -/

/-- The increment that encodes a stream is odd. -/
theorem encoded_odd (stream : BitVec 64) : (stream <<< 1 ||| 1) &&& 1 ≠ 0 := by
  intro h
  have hbit := congrArg (·.getLsbD 0) h
  simp at hbit

theorem next_snd (engine : Pcg32) : ∃ state, engine.next.2 = ⟨state, engine.increment⟩ :=
  ⟨_, rfl⟩

theorem next_increment (engine : Pcg32) : engine.next.2.increment = engine.increment := by
  rcases next_snd engine with ⟨state, hnext⟩
  rw [hnext]

theorem ofStream_increment (initialState stream : BitVec 64) :
    (Pcg32.ofStream initialState stream).increment = stream <<< 1 ||| 1 := by
  simp only [Pcg32.ofStream, next_increment]

/-- The encoded increment is checked as well as the version. -/
theorem Pcg32.restoreState_cases (engine : Pcg32) (state : Pcg32State) :
    state.sequenceVersion = randomSequenceVersion1 ∧ state.increment &&& 1 ≠ 0 ∧
        engine.restoreState state =
          (.ok (), { state := state.state, increment := state.increment }) ∨
      ∃ status, engine.restoreState state = (.error status, engine) := by
  unfold restoreState
  split
  · exact .inr ⟨_, rfl⟩
  · rename_i hversion
    split
    · exact .inr ⟨_, rfl⟩
    · rename_i hodd
      exact .inl ⟨not_not.1 hversion, hodd, rfl⟩

theorem pcg32_sound : pcg32Machine.Sound fun engine => engine.increment &&& 1 ≠ 0 where
  made := by
    rintro engine (⟨seed, rfl⟩ | ⟨initialState, stream, rfl⟩)
    · rw [Pcg32.ofSeed, ofStream_increment]
      exact encoded_odd 0
    · rw [ofStream_increment]
      exact encoded_odd stream
  next := by
    intro engine hodd
    have hnext : (pcg32Machine.next engine).2 = engine.next.2 := rfl
    rwa [hnext, next_increment]
  moved _ h := by cases h
  failed engine state failure after h := by
    rcases engine.restoreState_cases state with ⟨-, -, hok⟩ | ⟨status, herror⟩
    · cases hok.symm.trans h
    · cases herror.symm.trans h
      rfl
  restored engine state after h := by
    rcases engine.restoreState_cases state with ⟨hversion, hodd, hok⟩ | ⟨status, herror⟩
    · cases hok.symm.trans h
      exact ⟨hodd, by simp [pcg32Machine, Pcg32.exportState, ← hversion]⟩
    · cases herror.symm.trans h
  save := by
    intro engine hodd other
    simp only [pcg32Machine, Pcg32.restoreState, Pcg32.exportState, ne_eq, not_true_eq_false,
      if_false, if_neg hodd]
  load := ⟨.ofSeed 0, rfl⟩

/-! ## xoroshiro128+ -/

namespace SplitMix64

/-- A word is determined by its sum with its own leading bits. -/
theorem xor_shift_eq_zero {word : BitVec 64} {count : Nat} (hcount : 0 < count)
    (h : word ^^^ word >>> count = 0) : word = 0 := by
  have hsame : word = word >>> count := XorSpace.xor_eq_zero_iff.1 h
  have hvalue := congrArg BitVec.toNat hsame
  rw [BitVec.toNat_ushiftRight, Nat.shiftRight_eq_div_pow] at hvalue
  apply BitVec.eq_of_toNat_eq
  by_contra hne
  have hpos : 0 < word.toNat := Nat.pos_of_ne_zero hne
  have hless := Nat.div_lt_self hpos (Nat.one_lt_two_pow hcount.ne')
  omega

/-- A factor with an inverse does not send a word to zero. -/
theorem eq_zero_of_mul {word factor : BitVec 64} (inverse : BitVec 64)
    (hinverse : factor * inverse = 1#64) (h : word * factor = 0) : word = 0 := by
  rw [← BitVec.mul_one word, ← hinverse, ← BitVec.mul_assoc, h]
  exact BitVec.zero_mul

theorem mix_eq_zero {state : BitVec 64} (h : mix state = 0) : state = 0 := by
  have hthird := xor_shift_eq_zero (by decide) h
  have hsecond := xor_shift_eq_zero (by decide)
    (eq_zero_of_mul 0x319642B2D24D8EC3 (by decide) hthird)
  exact xor_shift_eq_zero (by decide) (eq_zero_of_mul 0x96DE1B173F119089 (by decide) hsecond)

end SplitMix64

/-- No seed expands to the state that is all zero: the two mixed states would both be zero, and they
differ by the increment. -/
theorem ofSeed_ne_zero (seed : BitVec 64) :
    (Xoroshiro128Plus.ofSeed seed).state ≠ XorSpace.zero := by
  intro h
  have hfirst : seed + 0x9E3779B97F4A7C15 = 0 :=
    SplitMix64.mix_eq_zero (congrArg XoroshiroWords.first h)
  have hsecond : seed + 0x9E3779B97F4A7C15 + 0x9E3779B97F4A7C15 = 0 :=
    SplitMix64.mix_eq_zero (congrArg XoroshiroWords.second h)
  rw [hfirst] at hsecond
  exact absurd hsecond (by decide)

theorem words_ne_zero_iff {words : XoroshiroWords 64} :
    words ≠ XorSpace.zero ↔ ¬ (words.first = 0 ∧ words.second = 0) := by
  apply not_congr
  constructor
  · rintro rfl
    exact ⟨rfl, rfl⟩
  · rintro ⟨hfirst, hsecond⟩
    exact XoroshiroWords.ext hfirst hsecond

theorem Xoroshiro128Plus.restoreState_cases (engine : Xoroshiro128Plus)
    (state : Xoroshiro128PlusState) :
    state.sequenceVersion = randomSequenceVersion1 ∧ ¬ (state.first = 0 ∧ state.second = 0) ∧
        engine.restoreState state = (.ok (), ⟨⟨state.first, state.second⟩⟩) ∨
      ∃ status, engine.restoreState state = (.error status, engine) := by
  unfold restoreState
  split
  · exact .inr ⟨_, rfl⟩
  · rename_i hversion
    split
    · exact .inr ⟨_, rfl⟩
    · rename_i hne
      exact .inl ⟨not_not.1 hversion, hne, rfl⟩

theorem xoroshiro128Plus_sound :
    xoroshiro128PlusMachine.Sound fun engine => engine.state ≠ XorSpace.zero where
  made := by
    rintro engine ⟨seed, rfl⟩
    exact ofSeed_ne_zero seed
  next engine h := Xoroshiro128Plus.iterate_advance_ne_zero h 1
  moved := by
    intro move hmove engine h
    simp only [xoroshiro128PlusMachine, List.mem_cons, List.not_mem_nil, or_false] at hmove
    rcases hmove with rfl | rfl
    · rw [Xoroshiro128Plus.jump_state]
      exact Xoroshiro128Plus.iterate_advance_ne_zero h _
    · rw [Xoroshiro128Plus.longJump_state]
      exact Xoroshiro128Plus.iterate_advance_ne_zero h _
  failed engine state failure after h := by
    rcases engine.restoreState_cases state with ⟨-, -, hok⟩ | ⟨status, herror⟩
    · cases hok.symm.trans h
    · cases herror.symm.trans h
      rfl
  restored engine state after h := by
    rcases engine.restoreState_cases state with ⟨hversion, hne, hok⟩ | ⟨status, herror⟩
    · cases hok.symm.trans h
      exact ⟨words_ne_zero_iff.2 hne,
        by simp [xoroshiro128PlusMachine, Xoroshiro128Plus.exportState, ← hversion]⟩
    · cases herror.symm.trans h
  save := by
    intro engine hne other
    rw [words_ne_zero_iff] at hne
    simp only [xoroshiro128PlusMachine, Xoroshiro128Plus.restoreState,
      Xoroshiro128Plus.exportState, ne_eq, not_true_eq_false, if_false, if_neg hne]
  load := ⟨.ofSeed 0, rfl⟩

/-- Every engine goes on from its exported state, a restoration that fails changes nothing, and a
state that passes validation is restored exactly.  A reachable xoroshiro128+ state is not all zero,
and a reachable increment of PCG32 is odd. -/
theorem engines_restore :
    splitMix64Machine.Contract ∧ pcg32Machine.Contract ∧ xoroshiro128PlusMachine.Contract ∧
    (∀ engine, xoroshiro128PlusMachine.Reachable engine →
      ¬ (engine.state.first = 0 ∧ engine.state.second = 0)) ∧
    (∀ engine, pcg32Machine.Reachable engine → engine.increment &&& 1 ≠ 0) :=
  ⟨splitMix64_sound.contract, pcg32_sound.contract, xoroshiro128Plus_sound.contract,
    fun _ h => words_ne_zero_iff.1 (xoroshiro128Plus_sound.reachable h),
    fun _ h => pcg32_sound.reachable h⟩

end Random
end AscCpp
