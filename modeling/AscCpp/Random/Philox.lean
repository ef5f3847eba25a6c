import AscCpp.Core.Status
import Mathlib.Data.Fintype.BigOperators
import Mathlib.Logic.Function.Basic

/-!
# Philox — the counter-based engine

`Philox4x32_10` maps a counter of four words to a block of four words, under a key of two words.
A random address is a stream (the key), a subsequence and the offset of a word.

- `philoxUnround`: the inverse of one round.
- `philox4x32_10_bijective`: the ten rounds, with the key that each of them bumps.
-/

namespace AscCpp
namespace Random

open AscCpp.Core

/-- A word of 32 bits. -/
abbrev Word := BitVec 32

abbrev Philox4x32Counter := Vector Word 4

abbrev Philox4x32Key := Vector Word 2

abbrev Philox4x32Result := Vector Word 4

abbrev RandomStream := BitVec 64

abbrev RandomSubsequence := BitVec 64

abbrev RandomOffset := BitVec 64

/-! ## The engine -/

def lowWord (value : BitVec 64) : Word :=
  value.setWidth 32

def highWord (value : BitVec 64) : Word :=
  (value >>> 32).setWidth 32

/-- `kFirstMultiplier` of `PhiloxRound`. -/
def firstMultiplier : BitVec 64 := 0xD2511F53

/-- `kSecondMultiplier` of `PhiloxRound`. -/
def secondMultiplier : BitVec 64 := 0xCD9E8D57

def philoxRound (counter : Philox4x32Counter) (key : Philox4x32Key) : Philox4x32Result :=
  let firstProduct := firstMultiplier * counter[0].setWidth 64
  let secondProduct := secondMultiplier * counter[2].setWidth 64
  #v[highWord secondProduct ^^^ counter[1] ^^^ key[0], lowWord secondProduct,
    highWord firstProduct ^^^ counter[3] ^^^ key[1], lowWord firstProduct]

def bumpKey (key : Philox4x32Key) : Philox4x32Key :=
  #v[key[0] + 0x9E3779B9, key[1] + 0xBB67AE85]

/-- One turn of the loop of `Philox4x32_10`. -/
def philoxTurn (state : Philox4x32Counter × Philox4x32Key) (round : Nat) :
    Philox4x32Counter × Philox4x32Key :=
  (philoxRound state.1 state.2, if round ≠ 9 then bumpKey state.2 else state.2)

def philox4x32_10 (counter : Philox4x32Counter) (key : Philox4x32Key) : Philox4x32Result :=
  ((List.range 10).foldl philoxTurn (counter, key)).1

def generatePhilox4x32Block (stream : RandomStream) (subsequence : RandomSubsequence)
    (block : BitVec 64) : Philox4x32Result :=
  philox4x32_10 #v[lowWord block, highWord block, lowWord subsequence, highWord subsequence]
    #v[lowWord stream, highWord stream]

theorem lane_lt (offset : RandomOffset) : (offset % 4).toNat < 4 := by
  rw [BitVec.toNat_umod]
  exact Nat.mod_lt _ (by decide)

def generatePhilox4x32Word (stream : RandomStream) (subsequence : RandomSubsequence)
    (offset : RandomOffset) : Word :=
  (generatePhilox4x32Block stream subsequence (offset / 4)).get ⟨(offset % 4).toNat, lane_lt offset⟩

def advanceRandomOffset (offset : RandomOffset) (wordCount : BitVec 64) : Result RandomOffset :=
  if wordCount > BitVec.allOnes 64 - offset then
    .error { code := .overflow, message := "Random word offset overflow" }
  else
    .ok (offset + wordCount)

/-! ## The inverse of a round -/

theorem lowWord_mul (multiplier : BitVec 64) (word : Word) :
    lowWord (multiplier * word.setWidth 64) = multiplier.setWidth 32 * word := by
  apply BitVec.eq_of_toNat_eq
  simp [lowWord]

/-- The inverse of `kFirstMultiplier` modulo the words. -/
def firstInverse : Word := 0x991A7CDB

/-- The inverse of `kSecondMultiplier` modulo the words. -/
def secondInverse : Word := 0x6D7CAE67

theorem firstInverse_mul : firstInverse * firstMultiplier.setWidth 32 = 1#32 := by
  decide

theorem secondInverse_mul : secondInverse * secondMultiplier.setWidth 32 = 1#32 := by
  decide

theorem inverse_mul_lowWord {multiplier : BitVec 64} {inverse : Word}
    (h : inverse * multiplier.setWidth 32 = 1#32) (word : Word) :
    inverse * lowWord (multiplier * word.setWidth 64) = word := by
  rw [lowWord_mul, ← BitVec.mul_assoc, h, BitVec.one_mul]

theorem lowWord_mul_inverse {multiplier : BitVec 64} {inverse : Word}
    (h : inverse * multiplier.setWidth 32 = 1#32) (word : Word) :
    lowWord (multiplier * (inverse * word).setWidth 64) = word := by
  rw [lowWord_mul, ← BitVec.mul_assoc, BitVec.mul_comm _ inverse, h, BitVec.one_mul]

/-- The counter from which a round starts: the low halves give back the factors of the products,
and the factors give the high halves that the other two words were mixed with. -/
def philoxUnround (result : Philox4x32Result) (key : Philox4x32Key) : Philox4x32Counter :=
  let first := firstInverse * result[3]
  let second := secondInverse * result[1]
  #v[first, highWord (secondMultiplier * second.setWidth 64) ^^^ result[0] ^^^ key[0], second,
    highWord (firstMultiplier * first.setWidth 64) ^^^ result[2] ^^^ key[1]]

/-- What is mixed in twice falls out. -/
theorem xor_mix (high word key : Word) : high ^^^ (high ^^^ word ^^^ key) ^^^ key = word := by
  rw [BitVec.xor_assoc high word, ← BitVec.xor_assoc high high, BitVec.xor_self, BitVec.zero_xor,
    BitVec.xor_assoc, BitVec.xor_self, BitVec.xor_zero]

theorem vector_eq (words : Vector Word 4) : #v[words[0], words[1], words[2], words[3]] = words := by
  ext i hi
  match i, hi with
  | 0, _ => rfl
  | 1, _ => rfl
  | 2, _ => rfl
  | 3, _ => rfl

theorem philoxUnround_round (counter : Philox4x32Counter) (key : Philox4x32Key) :
    philoxUnround (philoxRound counter key) key = counter := by
  calc philoxUnround (philoxRound counter key) key
      = #v[counter[0], counter[1], counter[2], counter[3]] := by
        simp [philoxUnround, philoxRound, inverse_mul_lowWord firstInverse_mul,
          inverse_mul_lowWord secondInverse_mul, xor_mix]
    _ = counter := vector_eq counter

theorem philoxRound_unround (result : Philox4x32Result) (key : Philox4x32Key) :
    philoxRound (philoxUnround result key) key = result := by
  calc philoxRound (philoxUnround result key) key
      = #v[result[0], result[1], result[2], result[3]] := by
        simp [philoxUnround, philoxRound, lowWord_mul_inverse firstInverse_mul,
          lowWord_mul_inverse secondInverse_mul, xor_mix]
    _ = result := vector_eq result

theorem philoxRound_bijective (key : Philox4x32Key) :
    Function.Bijective fun counter => philoxRound counter key :=
  Function.bijective_iff_has_inverse.2
    ⟨fun result => philoxUnround result key, fun counter => philoxUnround_round counter key,
      fun result => philoxRound_unround result key⟩

/-! ## The run of the rounds -/

/-- Whatever the keys that the rounds come to use, their run permutes the counters. -/
theorem philoxTurns_bijective (rounds : List Nat) (key : Philox4x32Key) :
    Function.Bijective fun counter : Philox4x32Counter =>
      (rounds.foldl philoxTurn (counter, key)).1 := by
  induction rounds generalizing key with
  | nil => exact Function.bijective_id
  | cons round rounds ih =>
    -- The key after a turn does not depend on the counter.
    exact (ih (if round ≠ 9 then bumpKey key else key)).comp (philoxRound_bijective key)

theorem philox4x32_10_bijective (key : Philox4x32Key) :
    Function.Bijective fun counter => philox4x32_10 counter key :=
  philoxTurns_bijective (List.range 10) key

/-! ## Addresses -/

/-- The two words of a value determine it. -/
theorem eq_of_words {left right : BitVec 64} (hlow : lowWord left = lowWord right)
    (hhigh : highWord left = highWord right) : left = right := by
  have hlow' := congrArg BitVec.toNat hlow
  have hhigh' := congrArg BitVec.toNat hhigh
  simp only [lowWord, highWord, BitVec.toNat_setWidth, BitVec.toNat_ushiftRight,
    Nat.shiftRight_eq_div_pow] at hlow' hhigh'
  apply BitVec.eq_of_toNat_eq
  have := left.isLt
  have := right.isLt
  omega

/-- Within a stream, a block is drawn at one address only. -/
theorem generatePhilox4x32Block_inj {stream : RandomStream}
    {subsequence subsequence' : RandomSubsequence} {block block' : BitVec 64}
    (h : generatePhilox4x32Block stream subsequence block =
      generatePhilox4x32Block stream subsequence' block') :
    subsequence = subsequence' ∧ block = block' := by
  have hcounter := (philox4x32_10_bijective _).injective h
  simp only [Vector.mk.injEq, Array.mk.injEq, List.cons.injEq, and_true] at hcounter
  rcases hcounter with ⟨hblockLow, hblockHigh, hsubsequenceLow, hsubsequenceHigh⟩
  exact ⟨eq_of_words hsubsequenceLow hsubsequenceHigh, eq_of_words hblockLow hblockHigh⟩

/-- The word at a lane of a block. -/
theorem generatePhilox4x32Word_lane (stream : RandomStream) (subsequence : RandomSubsequence)
    (block : Nat) (hblock : 4 * block < 2 ^ 64) (lane : Fin 4) :
    generatePhilox4x32Word stream subsequence (BitVec.ofNat 64 (4 * block + lane)) =
      (generatePhilox4x32Block stream subsequence (BitVec.ofNat 64 block)).get lane := by
  have hoffset : (BitVec.ofNat 64 (4 * block + lane)).toNat = 4 * block + lane := by
    rw [BitVec.toNat_ofNat]
    omega
  have hquotient : BitVec.ofNat 64 (4 * block + lane) / 4 = BitVec.ofNat 64 block := by
    apply BitVec.eq_of_toNat_eq
    rw [BitVec.toNat_udiv, hoffset, BitVec.toNat_ofNat]
    change (4 * block + lane) / 4 = block % 2 ^ 64
    omega
  have hlane : (BitVec.ofNat 64 (4 * block + lane) % 4).toNat = lane := by
    rw [BitVec.toNat_umod, hoffset]
    change (4 * block + lane) % 4 = lane
    omega
  simp only [generatePhilox4x32Word, hquotient, hlane, Fin.eta]

/-! ## Draws -/

/-- The blocks from a first one on. -/
def drawnBlocks (stream : RandomStream) (subsequence : RandomSubsequence) (first count : Nat) :
    List Philox4x32Result :=
  (List.range count).map fun i =>
    generatePhilox4x32Block stream subsequence (BitVec.ofNat 64 (first + i))

/-- The words from an offset on. -/
def drawnWords (stream : RandomStream) (subsequence : RandomSubsequence) (offset count : Nat) :
    List Word :=
  (List.range count).map fun i =>
    generatePhilox4x32Word stream subsequence (BitVec.ofNat 64 (offset + i))

theorem mem_drawnBlocks {stream : RandomStream} {subsequence : RandomSubsequence}
    {first count : Nat} {block : Philox4x32Result} :
    block ∈ drawnBlocks stream subsequence first count ↔
      ∃ i < count, generatePhilox4x32Block stream subsequence (BitVec.ofNat 64 (first + i)) =
        block := by
  simp [drawnBlocks]

theorem drawnBlocks_succ (stream : RandomStream) (subsequence : RandomSubsequence)
    (first count : Nat) :
    drawnBlocks stream subsequence first (count + 1) =
      drawnBlocks stream subsequence first count ++
        [generatePhilox4x32Block stream subsequence (BitVec.ofNat 64 (first + count))] := by
  simp [drawnBlocks, List.range_succ]

theorem drawnWords_add (stream : RandomStream) (subsequence : RandomSubsequence)
    (offset count count' : Nat) :
    drawnWords stream subsequence offset (count + count') =
      drawnWords stream subsequence offset count ++
        drawnWords stream subsequence (offset + count) count' := by
  simp [drawnWords, List.range_add, Nat.add_assoc]

/-- Four words from the start of a block on. -/
theorem drawnWords_block (stream : RandomStream) (subsequence : RandomSubsequence) {block : Nat}
    (h : 4 * block < 2 ^ 64) :
    drawnWords stream subsequence (4 * block) 4 =
      (generatePhilox4x32Block stream subsequence (BitVec.ofNat 64 block)).toList := by
  have hlane := generatePhilox4x32Word_lane stream subsequence block h
  generalize generatePhilox4x32Block stream subsequence (BitVec.ofNat 64 block) = words at hlane ⊢
  calc drawnWords stream subsequence (4 * block) 4
      = [words.get 0, words.get 1, words.get 2, words.get 3] := by
        simp [drawnWords, List.range_succ, ← hlane]
    _ = words.toList := by
        rw [← vector_eq words]
        rfl

/-- Draws that start at a block are the words of the blocks, one block after the other. -/
theorem drawnWords_eq_blocks (stream : RandomStream) (subsequence : RandomSubsequence)
    {first count : Nat} (h : 4 * (first + count) ≤ 2 ^ 64) :
    drawnWords stream subsequence (4 * first) (4 * count) =
      (drawnBlocks stream subsequence first count).flatMap Vector.toList := by
  induction count with
  | zero => rfl
  | succ count ih =>
    rw [Nat.mul_succ, drawnWords_add, ih (by omega), ← Nat.mul_add, drawnWords_block _ _ (by omega),
      drawnBlocks_succ, List.flatMap_append, List.flatMap_singleton]

/-- Draws from ranges of blocks without a common address have no block in common. -/
theorem drawnBlocks_disjoint {stream : RandomStream} {subsequence subsequence' : RandomSubsequence}
    {first count first' count' : Nat} (hfirst : first + count ≤ 2 ^ 64)
    (hfirst' : first' + count' ≤ 2 ^ 64)
    (happart : subsequence ≠ subsequence' ∨ first + count ≤ first' ∨ first' + count' ≤ first) :
    (drawnBlocks stream subsequence first count).Disjoint
      (drawnBlocks stream subsequence' first' count') := by
  intro block hleft hright
  rcases mem_drawnBlocks.1 hleft with ⟨i, hi, hblock⟩
  rcases mem_drawnBlocks.1 hright with ⟨i', hi', hblock'⟩
  -- The permutation is injective in its counter, so equal blocks have one address.
  rcases generatePhilox4x32Block_inj (hblock.trans hblock'.symm) with ⟨hsubsequence, haddress⟩
  have hindex := congrArg BitVec.toNat haddress
  rw [BitVec.toNat_ofNat, BitVec.toNat_ofNat, Nat.mod_eq_of_lt (by omega),
    Nat.mod_eq_of_lt (by omega)] at hindex
  rcases happart with hne | hbefore | hafter
  · exact hne hsubsequence
  · omega
  · omega

/-- The engine permutes the counters under every key, so that an address determines its block, and
the words are the lanes of the blocks. -/
theorem philox_addresses :
    (∀ key, Function.Bijective fun counter => philox4x32_10 counter key) ∧
    (∀ stream, Function.Injective fun address : RandomSubsequence × BitVec 64 =>
      generatePhilox4x32Block stream address.1 address.2) ∧
    (∀ stream subsequence offset, generatePhilox4x32Word stream subsequence offset =
      (generatePhilox4x32Block stream subsequence (offset / 4)).get
        ⟨(offset % 4).toNat, lane_lt offset⟩) ∧
    (∀ stream subsequence (block : Nat), 4 * block < 2 ^ 64 → ∀ lane : Fin 4,
      generatePhilox4x32Word stream subsequence (BitVec.ofNat 64 (4 * block + lane)) =
        (generatePhilox4x32Block stream subsequence (BitVec.ofNat 64 block)).get lane) ∧
    (∀ stream subsequence first count, 4 * (first + count) ≤ 2 ^ 64 →
      drawnWords stream subsequence (4 * first) (4 * count) =
        (drawnBlocks stream subsequence first count).flatMap Vector.toList) ∧
    (∀ stream subsequence subsequence' first count first' count',
      first + count ≤ 2 ^ 64 → first' + count' ≤ 2 ^ 64 →
      (subsequence ≠ subsequence' ∨ first + count ≤ first' ∨ first' + count' ≤ first) →
      (drawnBlocks stream subsequence first count).Disjoint
        (drawnBlocks stream subsequence' first' count')) := by
  refine ⟨philox4x32_10_bijective, ?_, fun _ _ _ => rfl, generatePhilox4x32Word_lane,
    fun _ _ _ _ => drawnWords_eq_blocks _ _, fun _ _ _ _ _ _ _ => drawnBlocks_disjoint⟩
  intro stream address address' h
  rcases generatePhilox4x32Block_inj h with ⟨hsubsequence, hblock⟩
  exact Prod.ext hsubsequence hblock

/-- The blocks of two calls that follow each other. -/
theorem philox_addresses_sample :
    (drawnBlocks 7 0 0 2).Disjoint (drawnBlocks 7 0 2 3) :=
  philox_addresses.2.2.2.2.2 7 0 0 0 2 2 3 (by decide) (by decide) (.inr (.inl (by decide)))

end Random
end AscCpp
