import AscCpp.Core.Cuda.Provider
import AscCpp.Core.Extents
import AscCpp.Core.Integer
import AscCpp.Random.Philox
import Mathlib.Data.Fin.VecNotation
import Mathlib.Tactic.FinCases

/-!
# Words — random words on a CUDA device

The kernels have an engine of their own, with the key in the loop.

- `generateWord_eq`: the engine of the device is that of the host.
- `philoxWordsKernel_ends`: every interleaving of the threads leaves the words of the host.
- `filledWords_add`: fills that follow each other make up one fill.
- `device_words_correct`: the outcomes of a fill, and what its kernel leaves.
-/

namespace AscCpp
namespace Random
namespace Cuda

open AscCpp.Core AscCpp.Core.Cuda Library Effect

/-! ## The engine of the device -/

/-- One turn of the loop of `GenerateBlock`: the counter and the key. -/
def blockRound (state : (Fin 4 → Word) × (Fin 2 → Word)) (round : Nat) :
    (Fin 4 → Word) × (Fin 2 → Word) :=
  let counter := state.1
  let key := state.2
  let firstProduct : BitVec 64 := 0xD2511F53 * (counter 0).setWidth 64
  let secondProduct : BitVec 64 := 0xCD9E8D57 * (counter 2).setWidth 64
  let next : Fin 4 → Word :=
    ![highWord secondProduct ^^^ counter 1 ^^^ key 0, lowWord secondProduct,
      highWord firstProduct ^^^ counter 3 ^^^ key 1, lowWord firstProduct]
  if round ≠ 9 then
    (next, ![key 0 + 0x9E3779B9, key 1 + 0xBB67AE85])
  else
    (next, key)

def generateBlock (stream : RandomStream) (subsequence : RandomSubsequence) (block : BitVec 64) :
    Fin 4 → Word :=
  ((List.range 10).foldl blockRound
    (![lowWord block, highWord block, lowWord subsequence, highWord subsequence],
      ![lowWord stream, highWord stream])).1

def generateWord (stream : RandomStream) (subsequence : RandomSubsequence) (offset : RandomOffset) :
    Word :=
  generateBlock stream subsequence (offset / 4) ⟨(offset % 4).toNat, lane_lt offset⟩

/-- The words of a vector of four, as an array of the device holds them. -/
theorem get_four (first second third fourth : Word) :
    #v[first, second, third, fourth].get = ![first, second, third, fourth] := by
  funext lane
  fin_cases lane <;> rfl

theorem get_two (first second : Word) : #v[first, second].get = ![first, second] := by
  funext lane
  fin_cases lane <;> rfl

theorem blockRound_eq (state : Philox4x32Counter × Philox4x32Key) (round : Nat) :
    blockRound (state.1.get, state.2.get) round =
      ((philoxTurn state round).1.get, (philoxTurn state round).2.get) := by
  unfold blockRound philoxTurn philoxRound bumpKey
  by_cases hlast : round ≠ 9
  · rw [if_pos hlast, if_pos hlast, get_four, get_two]
    rfl
  · rw [if_neg hlast, if_neg hlast, get_four]
    rfl

theorem generateBlock_eq (stream : RandomStream) (subsequence : RandomSubsequence)
    (block : BitVec 64) :
    generateBlock stream subsequence block =
      (generatePhilox4x32Block stream subsequence block).get := by
  have hfold (start : Philox4x32Counter × Philox4x32Key) :
      (List.range 10).foldl blockRound (start.1.get, start.2.get) =
        (((List.range 10).foldl philoxTurn start).1.get,
          ((List.range 10).foldl philoxTurn start).2.get) :=
    List.foldl_hom (fun state : Philox4x32Counter × Philox4x32Key => (state.1.get, state.2.get))
      blockRound_eq
  have hstart := hfold
    (#v[lowWord block, highWord block, lowWord subsequence, highWord subsequence],
      #v[lowWord stream, highWord stream])
  simp only [get_four, get_two] at hstart
  exact congrArg Prod.fst hstart

theorem generateWord_eq (stream : RandomStream) (subsequence : RandomSubsequence)
    (offset : RandomOffset) :
    generateWord stream subsequence offset = generatePhilox4x32Word stream subsequence offset := by
  unfold generateWord
  rw [generateBlock_eq]
  rfl

/-! ## The kernel -/

variable {Cell : Type} {word : LocalRepresentation Cell Word}

/-- `PhiloxWordsKernel`, as `LaunchPhiloxWords` launches it. -/
def philoxWordsKernel (word : LocalRepresentation Cell Word) (destination wordCount : Nat)
    (stream : RandomStream) (subsequence : RandomSubsequence) (offset : RandomOffset) :
    Launch (Nat → Cell) :=
  .loop wordCount fun position =>
    Program.store word.toRepresentation (destination + position * word.size)
      (generateWord stream subsequence (offset + BitVec.ofNat 64 position))

/-- The memory behind a fill with the words of the host. -/
def filledWords (word : LocalRepresentation Cell Word) (destination wordCount : Nat)
    (stream : RandomStream) (subsequence : RandomSubsequence) (offset : RandomOffset)
    (memory : Nat → Cell) : Nat → Cell :=
  (List.range wordCount).foldl (fun memory position =>
    word.store memory (destination + position * word.size)
      (generatePhilox4x32Word stream subsequence (offset + BitVec.ofNat 64 position))) memory

variable {destination wordCount : Nat} {stream : RandomStream} {subsequence : RandomSubsequence}
  {offset : RandomOffset} {memory : Nat → Cell}

theorem philoxWordsKernel_ends (hpos : 0 < wordCount) (hcount : wordCount ≤ 2 ^ 63)
    (memory : Nat → Cell) :
    (philoxWordsKernel word destination wordCount stream subsequence offset).EndsIn memory
      (filledWords word destination wordCount stream subsequence offset memory) := by
  have hends := Launch.values_ends hpos hcount
    (apart_consecutive word.size wordCount destination)
    (fun position => generateWord stream subsequence (offset + BitVec.ofNat 64 position)) memory
  simp only [generateWord_eq] at hends
  unfold philoxWordsKernel
  simp only [generateWord_eq]
  exact hends

theorem load_filledWords (memory : Nat → Cell) {position : Nat} (hposition : position < wordCount) :
    word.load (filledWords word destination wordCount stream subsequence offset memory)
        (destination + position * word.size) =
      generatePhilox4x32Word stream subsequence (offset + BitVec.ofNat 64 position) :=
  load_foldl_store word.toRepresentation (apart_consecutive word.size wordCount destination)
    (fun position => generatePhilox4x32Word stream subsequence (offset + BitVec.ofNat 64 position))
    memory hposition

theorem filledWords_outside (memory : Nat → Cell) {cell : Nat}
    (hcell : cell < destination ∨ destination + wordCount * word.size ≤ cell) :
    filledWords word destination wordCount stream subsequence offset memory cell = memory cell := by
  apply foldl_store_outside
  intro position hposition
  have hle := Nat.mul_le_mul_right word.size (Nat.succ_le_of_lt hposition)
  rw [Nat.succ_mul] at hle
  omega

/-- A fill that starts at the next offset, behind the words of the first one. -/
theorem filledWords_add (first second : Nat) :
    filledWords word (destination + first * word.size) second stream subsequence
        (offset + BitVec.ofNat 64 first)
        (filledWords word destination first stream subsequence offset memory) =
      filledWords word destination (first + second) stream subsequence offset memory := by
  unfold filledWords
  rw [List.range_add, List.foldl_append, List.foldl_map]
  apply List.foldl_ext
  intro memory position _
  rw [BitVec.ofNat_add, BitVec.add_assoc, Nat.add_mul, Nat.add_assoc]

/-! ## The submission -/

/-- What a generation on the device returns; without an event it has been complete at once. -/
structure Generation where
  completion : Option Nat
  nextOffset : RandomOffset
  deriving DecidableEq, Repr

/-- `ValidateRandomContext`; the stream of a state is never null. -/
def validateRandomContext (context : ProviderContext) : Result ExecutionState := do
  failIf (context.backend ≠ .cuda)
    { code := .invalidArgument, message := "CUDA random generation requires a CUDA context" }
  match context.state with
  | none =>
    .error
      { code := .invalidState, message := "The CUDA random context has no provider state" }
  | some execution => .ok execution

def validateDevicePointer (pointer : Nat) (device : Int) (alignment : Nat) :
    Call (Nat → Cell) Unit := do
  Effect.ofResult (failIf (pointer % alignment ≠ 0)
    { code := .memoryAccess, message := "The CUDA random destination is misaligned" })
  validateDeviceStorage pointer device "CUDA could not inspect the random destination"
    "The random destination is not on the context device"

def cudaFillPhilox4x32 (word : LocalRepresentation Cell Word) (context : ProviderContext)
    (destination : ConstMemoryView) (wordCount : BitVec 64) (stream : RandomStream)
    (subsequence : RandomSubsequence) (offset : RandomOffset) : Call (Nat → Cell) Generation := do
  let nextOffset ← Effect.ofResult (advanceRandomOffset offset wordCount)
  let execution ← Effect.ofResult (validateRandomContext context)
  Effect.ofResult (failIf (destination.space ≠ .device)
    { code := .memoryAccess, message := "CUDA random words require a device destination" })
  Effect.ofResult (failIf (destination.valid = false)
    { code := .invalidArgument, message := "A CUDA random destination span is invalid" })
  if wordCount = 0 then
    pure { completion := none, nextOffset := nextOffset }
  else
    let bytes ← Effect.ofResult (checkedMultiply sizeType wordCount.toNat word.size)
    Effect.ofResult (failIf (bytes > destination.size)
      { code := .shape, message := "The CUDA random destination is smaller than word_count" })
    Effect.ofResult (failIf (bytes > (uintptrMax - destination.data : Nat))
      { code := .overflow, message := "The CUDA random destination address span overflows" })
    let event ← withDevice context.ordinal do
      validateDevicePointer destination.data context.ordinal word.alignment
      launchAll execution.stream false
        [(philoxWordsKernel word destination.data wordCount.toNat stream subsequence offset,
          "CUDA could not launch the Philox word kernel")]
      recordOrDrain context execution
    pure { completion := some event, nextOffset := nextOffset }

/-- A generation that uses so many words from the offset on: a kernel of its own has been launched
for the words, if there are any. -/
def Generates (execution : ExecutionState) (words : Nat) (offset : RandomOffset)
    (launch : Launch (Nat → Cell)) (api : Api (Nat → Cell)) (generation : Generation)
    (api' : Api (Nat → Cell)) : Prop :=
  generation.nextOffset.toNat = offset.toNat + words ∧
    match generation.completion with
    | none => words = 0 ∧ api' = api
    | some event => 0 < words ∧ LaunchesOne execution launch api event api'

theorem validateRandomContext_ofState (execution : ExecutionState) :
    validateRandomContext (.ofState execution) = .ok execution := rfl

theorem toNat_advanceRandomOffset {offset next : RandomOffset} {words : BitVec 64}
    (h : advanceRandomOffset offset words = .ok next) :
    next.toNat = offset.toNat + words.toNat := by
  unfold advanceRandomOffset at h
  have hoffset := offset.isLt
  have hwords := words.isLt
  split at h
  · cases h
  · rename_i hroom
    cases h
    rw [gt_iff_lt, BitVec.lt_def, BitVec.toNat_sub, BitVec.toNat_allOnes] at hroom
    rw [BitVec.toNat_add]
    exact Nat.mod_eq_of_lt (by omega)

theorem yields_validateDevicePointer (api : Api (Nat → Cell)) (pointer : Nat) (device : Int)
    (alignment : Nat) :
    Yields (validateDevicePointer pointer device alignment) api
      (fun _ api' => Quiet api api') (fun _ api' => Quiet api api') :=
  Yields.failIf (fun _ => .refl api) fun _ => yields_validateDeviceStorage api pointer device _ _

section Outcome

variable {execution : ExecutionState} {api : Api (Nat → Cell)}

theorem yields_cudaFillPhilox4x32 (hserves : Serves execution api) (destination : ConstMemoryView)
    (words : BitVec 64) :
    Yields (cudaFillPhilox4x32 word (.ofState execution) destination words stream subsequence offset)
      api
      (fun generation api' =>
        words.toNat * word.size ≤ destination.size ∧ words.toNat * word.size < 2 ^ 64 ∧
          Generates execution words.toNat offset
            (philoxWordsKernel word destination.data words.toNat stream subsequence offset) api
            generation api')
      (Fails execution api) := by
  have hfails := fails_refl execution api
  have hmaximum : sizeType.maximum = 18446744073709551615 := by decide
  refine yields_ofResult_bind (fun status _ => hfails status) fun next hnext => ?_
  have htotal := toNat_advanceRandomOffset hnext
  refine Yields.ofResult_ok (validateRandomContext_ofState execution) ?_
  refine Yields.failIf (fun _ => hfails _) fun _ => ?_
  refine Yields.failIf (fun _ => hfails _) fun _ => ?_
  by_cases hzero : words = 0
  · rw [if_pos hzero]
    subst hzero
    exact Yields.pure ⟨by simp, by simp, by simpa using htotal, rfl, rfl⟩
  · rw [if_neg hzero]
    have hpos : 0 < words.toNat := by
      refine Nat.pos_of_ne_zero fun hnone => hzero (BitVec.eq_of_toNat_eq hnone)
    refine yields_ofResult_bind (fun status _ => hfails status) fun bytes hbytes => ?_
    refine Yields.failIf (fun _ => hfails _) fun hsize => ?_
    refine Yields.failIf (fun _ => hfails _) fun _ => ?_
    rw [checkedMultiply_of_nonneg (Int.natCast_nonneg _) (Int.natCast_nonneg _)] at hbytes
    split at hbytes
    · rename_i hfits
      cases hbytes
      rw [← Nat.cast_mul] at hsize hfits
      refine (yields_launchOne hserves (fun api => yields_validateDevicePointer api _ _ _) _ _).bind
        fun event last hlast => Yields.pure ⟨by omega, by omega, htotal, hpos, hlast⟩
    · cases hbytes

end Outcome

/-! ## The result -/

/-- A fill of the device hands out one event behind its kernel, or it fails as a submission does;
however the threads of the kernel interleave, the destination holds the words of the host and nothing
else has changed.  Fills that follow each other leave what one fill leaves. -/
theorem device_words_correct (word : LocalRepresentation Cell Word) (hword : word.size = 4)
    (stream : RandomStream) (subsequence : RandomSubsequence) :
    (∀ (execution : ExecutionState) (api : Api (Nat → Cell)), Serves execution api →
      ∀ (destination : ConstMemoryView) (words : BitVec 64) (offset : RandomOffset),
        Yields (cudaFillPhilox4x32 word (.ofState execution) destination words stream subsequence
            offset) api
          (fun generation api' =>
            Generates execution words.toNat offset
                (philoxWordsKernel word destination.data words.toNat stream subsequence offset) api
                generation api' ∧
              (0 < words.toNat → ∀ memory, ∃ last,
                (philoxWordsKernel word destination.data words.toNat stream subsequence
                    offset).EndsIn memory last ∧
                  (∀ position < words.toNat,
                    word.load last (destination.data + position * 4) =
                      generatePhilox4x32Word stream subsequence
                        (BitVec.ofNat 64 (offset.toNat + position))) ∧
                  ∀ cell, cell < destination.data ∨ destination.data + words.toNat * 4 ≤ cell →
                    last cell = memory cell))
          (Fails execution api)) ∧
      ∀ (destination first second : Nat) (offset : RandomOffset) (memory : Nat → Cell), 0 < first →
        0 < second → first + second ≤ 2 ^ 63 →
          ∃ last,
            StreamEndsIn [philoxWordsKernel word destination first stream subsequence offset,
              philoxWordsKernel word (destination + first * 4) second stream subsequence
                (offset + BitVec.ofNat 64 first)] memory last ∧
            (philoxWordsKernel word destination (first + second) stream subsequence offset).EndsIn
              memory last := by
  refine ⟨fun execution api hserves destination words offset => ?_,
    fun destination first second offset memory hfirst hsecond htotal => ?_⟩
  · refine (yields_cudaFillPhilox4x32 hserves destination words).mono
      (fun generation last h => ⟨h.2.2, fun hpos memory => ?_⟩) fun _ _ h => h
    have hbytes := h.2.1
    rw [hword] at hbytes
    refine ⟨_, philoxWordsKernel_ends hpos (by omega) memory, fun position hposition => ?_,
      fun cell hcell => filledWords_outside memory (by rwa [hword])⟩
    have hload := @load_filledWords _ word destination.data _ stream subsequence offset memory _
      hposition
    rw [hword] at hload
    rw [hload, BitVec.ofNat_add, BitVec.ofNat_toNat, BitVec.setWidth_eq]
  · have hall := @filledWords_add _ word destination stream subsequence offset memory first second
    rw [hword] at hall
    refine ⟨_, .cons (philoxWordsKernel_ends hfirst (by omega) memory)
      (.single (philoxWordsKernel_ends hsecond (by omega) _)), ?_⟩
    rw [hall]
    exact philoxWordsKernel_ends (by omega) htotal memory

/-- Six words, in a runtime that grants everything and a memory of zeros. -/
theorem device_words_sample :
    ∃ last memory, exec (cudaFillPhilox4x32 (.uniform Word 4 4 Representation.four_pos)
        (.ofState sampleExecution) ⟨1024, 24, .device⟩ 6 7 3 5) (sampleApi (Nat → Word)) =
          some (.ok ⟨some 1, 11⟩, last) ∧
      LaunchesOne sampleExecution
        (philoxWordsKernel (.uniform Word 4 4 Representation.four_pos) 1024 6 7 3 5)
        (sampleApi (Nat → Word)) 1 last ∧
      (philoxWordsKernel (.uniform Word 4 4 Representation.four_pos) 1024 6 7 3 5).EndsIn
        (fun _ => 0) memory ∧
      (∀ position < 6, memory (1024 + position * 4) =
        generatePhilox4x32Word 7 3 (BitVec.ofNat 64 (5 + position))) ∧
      memory 1023 = 0 ∧ memory 1048 = 0 := by
  have hcorrect := device_words_correct (.uniform Word 4 4 Representation.four_pos) rfl 7 3
  rcases hcorrect.1 sampleExecution (sampleApi _) (sample_serves _) ⟨1024, 24, .device⟩ 6 5 with
    ⟨result, last, hrun, hresult⟩
  have hvalue : (exec (cudaFillPhilox4x32 (.uniform Word 4 4 Representation.four_pos)
      (.ofState sampleExecution) ⟨1024, 24, .device⟩ 6 7 3 5)
        (sampleApi (Nat → Word))).map Prod.fst = some (.ok ⟨some 1, 11⟩) := rfl
  rw [hrun] at hvalue
  cases hvalue
  rcases hresult with ⟨⟨-, -, hlaunches⟩, hkernel⟩
  rcases hkernel (by decide) fun _ => 0 with ⟨memory, hends, hwords, hothers⟩
  exact ⟨last, memory, hrun, hlaunches, hends, hwords, hothers 1023 (by decide),
    hothers 1048 (by decide)⟩

end Cuda
end Random
end AscCpp
