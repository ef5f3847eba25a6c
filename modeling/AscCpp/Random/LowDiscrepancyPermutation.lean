import AscCpp.Library.Shuffle
import AscCpp.Random.Unbiased

/-!
# LowDiscrepancyPermutation — the shuffle of the quasi-random sequences

`GenerateLowDiscrepancyPermutation` over an engine.  The draws reject candidates until one is
accepted, so that the function need not return: it has fuel for each draw.

- `Draws`: the selections that an engine yields, one for each limit.
- `shuffleLoop_ends_or_stuck`: the loop shuffles by what it draws, unless a draw never ends.
- `generateLowDiscrepancyPermutation_shuffles`: what the function leaves, and how evenly.
-/

namespace AscCpp
namespace Random

open AscCpp.Core Library

variable {State : Type}

/-- A size as a value of `std::size_t`. -/
def sizeValue (size : Nat) : sizeType.Value :=
  ⟨(size % 2 ^ 64 : Nat), by
    have hless := Nat.mod_lt size (Nat.two_pow_pos 64)
    constructor
    · exact Int.natCast_nonneg _
    · have hmaximum : sizeType.maximum = 2 ^ 64 - 1 := rfl
      omega⟩

/-- `std::numeric_limits<std::uint32_t>::max()`. -/
def maximumWord : Nat := 2 ^ 32 - 1

/-- The loop of the shuffle from a limit on.  Without a value the computation is undefined; an inner
none says that the fuel does not suffice for a draw. -/
def shuffleLoop (engine : CanonicalRandomEngine State) (fuel : Nat) :
    Nat → List Word → State → Option (Option (List Word × State))
  | limit + 2, permutation, state =>
    match UniformIntegerDistribution.create (sizeValue 0) (sizeValue (limit + 1)) with
    | .error _ => none
    | .ok distribution =>
      match distribution.draw engine fuel state with
      | none => none
      | some none => some none
      | some (some (selected, state)) => do
        let swapped ← swapAt permutation (limit + 1) selected.toNat
        shuffleLoop engine fuel (limit + 1) swapped state
  | _, permutation, state => some (some (permutation, state))

/-- `GenerateLowDiscrepancyPermutation`, with its status, the span and the engine that it leaves. -/
def generateLowDiscrepancyPermutation (engine : CanonicalRandomEngine State) (fuel : Nat)
    (permutation : List Word) (state : State) :
    Option (Option (Result Unit × List Word × State)) :=
  if permutation.length > maximumWord then
    some (some (.error
      { code := .overflow, message := "Permutation size exceeds the uint32 domain" },
      permutation, state))
  else do
    let loop ← shuffleLoop engine fuel permutation.length
      ((List.range permutation.length).map (BitVec.ofNat 32)) state
    some (loop.map fun result => (.ok (), result))

/-! ## Draws -/

namespace UniformIntegerDistribution

variable {type : IntegerType} (distribution : UniformIntegerDistribution type)
  (engine : CanonicalRandomEngine State)

theorem loop_mono {range threshold : Int} {fuel more : Nat} {state : State} {result : Int × State}
    (hfuel : fuel ≤ more)
    (h : distribution.loop engine range threshold fuel state = some (some result)) :
    distribution.loop engine range threshold more state = some (some result) := by
  -- Each turn uses up one unit of either fuel.
  induction fuel generalizing more state with
  | zero => simp [loop] at h
  | succ fuel ih =>
    rcases more with _ | more
    · omega
    rw [loop] at h ⊢
    rcases hturn : distribution.turn range threshold (candidate type engine state).1 with
      _ | _ | value
    · simp [hturn] at h
    · simp only [hturn] at h ⊢
      exact ih (by omega) h
    · simpa only [hturn] using h

/-- An interval smaller than the type is drawn from by rejection. -/
theorem draw_eq_loop (h : SupportedRandomInteger type)
    (hsmall : distribution.size < 2 ^ type.width) (fuel : Nat) (state : State) :
    distribution.draw engine fuel state =
      distribution.loop engine distribution.size (2 ^ type.width % distribution.size) fuel state := by
  have hpos := distribution.size_pos
  have hrange : distribution.range = some distribution.size := by
    rw [distribution.range_eq h, Int.emod_eq_of_lt hpos.le hsmall]
  rw [draw, hrange]
  simp only [hpos.ne', if_false, threshold_eq h hpos hsmall]

/-- A loop without a value yet has rejected all its candidates, and a value lies in the interval. -/
theorem loop_cases (h : SupportedRandomInteger type) (hsmall : distribution.size < 2 ^ type.width)
    (fuel : Nat) (state : State) :
    distribution.loop engine distribution.size (2 ^ type.width % distribution.size) fuel state =
        some none ∨
      ∃ value last,
        distribution.loop engine distribution.size (2 ^ type.width % distribution.size) fuel state =
            some (some (value, last)) ∧
          distribution.lower.1 ≤ value ∧ value ≤ distribution.upper.1 := by
  induction fuel generalizing state with
  | zero => exact .inl rfl
  | succ fuel ih =>
    rcases candidate_bounds type engine state with ⟨hnonneg, hless⟩
    have hpos := distribution.size_pos
    -- Below the whole type the range does not wrap, so a turn is an attempt.
    have hturn : distribution.turn distribution.size (2 ^ type.width % distribution.size)
        (candidate type engine state).1 =
          distribution.attempt (candidate type engine state).1 := by
      have hrange : distribution.range = some distribution.size := by
        rw [distribution.range_eq h, Int.emod_eq_of_lt hpos.le hsmall]
      simp [attempt, hrange, hpos.ne', threshold_eq h hpos hsmall]
    rw [loop]
    simp only [hturn, distribution.attempt_eq h hnonneg hless]
    -- Accepted here with its offset, or rejected and left to the hypothesis.
    by_cases haccepted : 2 ^ type.width % distribution.size ≤ (candidate type engine state).1
    · have hoffset := Int.emod_nonneg (candidate type engine state).1 hpos.ne'
      have hoffset' := Int.emod_lt_of_pos (candidate type engine state).1 hpos
      have hsize : distribution.size = distribution.upper.1 - distribution.lower.1 + 1 := rfl
      simp only [haccepted, if_true]
      exact .inr ⟨_, _, rfl, by omega, by omega⟩
    · simp only [haccepted, if_false]
      exact ih _

/-- From a state on, a draw has no value with any fuel, or the same one with enough fuel. -/
theorem draw_ends_or_stuck (h : SupportedRandomInteger type)
    (hsmall : distribution.size < 2 ^ type.width) (state : State) :
    (∀ fuel, distribution.draw engine fuel state = some none) ∨
      ∃ bound value last, (distribution.lower.1 ≤ value ∧ value ≤ distribution.upper.1) ∧
        (∀ fuel < bound, distribution.draw engine fuel state = some none) ∧
          ∀ fuel ≥ bound, distribution.draw engine fuel state = some (some (value, last)) := by
  classical
  simp only [distribution.draw_eq_loop engine h hsmall]
  -- The least fuel with a result; below it every run is out of fuel.
  by_cases hstuck : ∀ fuel, distribution.loop engine distribution.size
      (2 ^ type.width % distribution.size) fuel state = some none
  · exact .inl hstuck
  · rw [not_forall] at hstuck
    rcases distribution.loop_cases engine h hsmall (Nat.find hstuck) state with
      hnone | ⟨value, last, hvalue, hbounds⟩
    · exact absurd hnone (Nat.find_spec hstuck)
    · refine .inr ⟨Nat.find hstuck, value, last, hbounds, fun fuel hfuel => ?_, fun fuel hfuel => ?_⟩
      · exact not_not.1 (Nat.find_min hstuck hfuel)
      · exact distribution.loop_mono engine hfuel hvalue

end UniformIntegerDistribution

/-! ## The loop -/

theorem sizeType_supported : SupportedRandomInteger sizeType :=
  .inr (.inr (.inr rfl))

/-- The distribution of a position up to a last one. -/
def selection (last : Nat) : UniformIntegerDistribution sizeType :=
  ⟨sizeValue 0, sizeValue last, Int.natCast_nonneg (last % 2 ^ 64)⟩

theorem create_eq_selection (last : Nat) :
    UniformIntegerDistribution.create (sizeValue 0) (sizeValue last) = .ok (selection last) :=
  dif_neg (not_lt.2 (Int.natCast_nonneg (last % 2 ^ 64)))

theorem selection_size {last : Nat} (h : last < 2 ^ 64) : (selection last).size = last + 1 := by
  have hlast : ((last % 2 ^ 64 : Nat) : Int) = last := by rw [Nat.mod_eq_of_lt h]
  have hsize : (selection last).size = ((last % 2 ^ 64 : Nat) : Int) - (0 % 2 ^ 64 : Nat) + 1 := rfl
  rw [hsize, hlast]
  simp

/-- The draw of the loop at a limit never has a value. -/
def Stuck (engine : CanonicalRandomEngine State) (limit : Nat) (state : State) : Prop :=
  ∀ fuel, (selection (limit - 1)).draw engine fuel state = some none

/-- The selections that an engine yields for the limits from one on downwards, a draw for each, with
the limit and the engine behind them. -/
inductive Draws (engine : CanonicalRandomEngine State) :
    Nat → State → List Nat → Nat → State → Prop
  | none (limit : Nat) (state : State) : Draws engine limit state [] limit state
  | more {limit fuel choice limit' : Nat} {state next last : State} {choices : List Nat}
      (hlimit : 1 < limit)
      (hdraw : (selection (limit - 1)).draw engine fuel state = some (some ((choice : Int), next)))
      (hrest : Draws engine (limit - 1) next choices limit' last) :
      Draws engine limit state (choice :: choices) limit' last

namespace Draws

variable {engine : CanonicalRandomEngine State} {limit limit' : Nat} {state last : State}
  {choices : List Nat}

end Draws

theorem selection_interval {last : Nat} (h : last < maximumWord) :
    (selection last).size < 2 ^ sizeType.width := by
  unfold maximumWord at h
  rw [selection_size (by omega)]
  exact_mod_cast (by omega : last + 1 < 2 ^ 64)

theorem selection_upper {last : Nat} (h : last < maximumWord) : (selection last).upper.1 = last := by
  unfold maximumWord at h
  have hsize := selection_size (by omega : last < 2 ^ 64)
  have hupper : (selection last).size = (selection last).upper.1 + 1 := by
    simp [UniformIntegerDistribution.size, selection, sizeValue]
  omega

/-- The loop shuffles by the selections that it draws, or one of its draws never ends. -/
theorem shuffleLoop_ends_or_stuck (engine : CanonicalRandomEngine State) {front : List Word}
    (hlength : front.length ≤ maximumWord) (back : List Word) (state : State) :
    (∃ bound choices limit last, Draws engine front.length state choices limit last ∧
      Choices front.length choices ∧ ∀ fuel ≥ bound,
        shuffleLoop engine fuel front.length (front ++ back) state =
          (shuffle front.length choices (front ++ back)).map fun items => some (items, last)) ∨
    ((∀ fuel, shuffleLoop engine fuel front.length (front ++ back) state = some none) ∧
      ∃ choices limit stopped, Draws engine front.length state choices limit stopped ∧
        1 < limit ∧ Stuck engine limit stopped) := by
  induction hlimit : front.length generalizing front back state with
  | zero => exact .inl ⟨0, [], 0, state, .none 0 state, Nat.zero_le 1, fun _ _ => rfl⟩
  | succ limit ih =>
    rcases limit with _ | limit
    · exact .inl ⟨0, [], 1, state, .none 1 state, le_rfl, fun _ _ => rfl⟩
    have hinterval := selection_interval (by omega : limit + 1 < maximumWord)
    simp only [shuffleLoop, create_eq_selection]
    rcases (selection (limit + 1)).draw_ends_or_stuck engine sizeType_supported hinterval state with
      hstuck | ⟨bound, value, next, ⟨hnonneg, hupper⟩, hbefore, hafter⟩
    · refine .inr ⟨fun fuel => ?_, [], limit + 2, state, .none _ _, by omega, hstuck⟩
      simp only [hstuck fuel]
    · have hnonneg' : 0 ≤ value := hnonneg
      lift value to Nat using hnonneg'
      have hvalue : value < front.length := by
        rw [selection_upper (by omega : limit + 1 < maximumWord)] at hupper
        omega
      rcases swapAt_last hvalue back with ⟨rest, final, -, hperm, hswap⟩
      have hrest := length_rest hperm
      rw [hlimit] at hswap hrest
      have hdraw : (selection (limit + 2 - 1)).draw engine bound state =
          some (some ((value : Int), next)) := hafter bound le_rfl
      -- The drawn element is behind the rest, which the later draws shuffle.
      rcases ih (by omega : rest.length ≤ maximumWord) (final :: back) next hrest.symm with
        ⟨bound', choices, limit', last, hdraws, hchoices, hrun⟩ |
          ⟨hrun, choices, limit', stopped, hdraws, hmore, hstuck⟩
      · refine .inl ⟨max bound bound', value :: choices, limit', last, .more (by omega) hdraw hdraws,
          ⟨by omega, by omega, hchoices⟩, fun fuel hfuel => ?_⟩
        rw [hafter fuel (by omega)]
        simp only [Int.toNat_natCast]
        rw [shuffle_cons hswap]
        have hswap' : swapAt (front ++ back) (limit + 1) value = some (rest ++ final :: back) := hswap
        rw [hswap', Option.bind_eq_bind, Option.bind_some, hrun fuel (by omega)]
        rfl
      · refine .inr ⟨fun fuel => ?_, value :: choices, limit', stopped,
          .more (by omega) hdraw hdraws, hmore, hstuck⟩
        rcases Nat.lt_or_ge fuel bound with hbelow | habove
        · simp only [hbefore fuel hbelow]
        · have hswap' : swapAt (front ++ back) (limit + 1) value = some (rest ++ final :: back) :=
            hswap
          rw [hafter fuel habove]
          simp only [Int.toNat_natCast]
          rw [hswap', Option.bind_eq_bind, Option.bind_some, hrun fuel]

/-! ## The permutations -/

/-- The span before the swaps. -/
def initialPermutation (length : Nat) : List Word :=
  (List.range length).map (BitVec.ofNat 32)

theorem initialPermutation_nodup {length : Nat} (h : length ≤ maximumWord) :
    (initialPermutation length).Nodup := by
  refine (List.nodup_map_iff_inj_on List.nodup_range).2 fun left hleft right hright heq => ?_
  have hvalue := congrArg BitVec.toNat heq
  unfold maximumWord at h
  rw [List.mem_range] at hleft hright
  rwa [BitVec.toNat_ofNat, BitVec.toNat_ofNat, Nat.mod_eq_of_lt (by omega),
    Nat.mod_eq_of_lt (by omega)] at hvalue

/-- The position that a candidate stands for, if it is accepted. -/
def selected (last : Nat) (candidate : Int) : Option Nat :=
  ((selection last).attempt candidate).join.map Int.toNat

/-- A draw takes the position of the first candidate of the engine that is accepted. -/
theorem draw_eq_selected (engine : CanonicalRandomEngine State) (last fuel : Nat) (state : State) :
    ((selection last).draw engine (fuel + 1) state).map
        (·.map fun drawn => drawn.1.toNat) =
      some ((candidates sizeType engine (fuel + 1) state).findSome? (selected last)) := by
  have hfirst := (selection last).draw_eq_first sizeType_supported engine fuel state
  have hmap := congrArg (Option.map (Option.map Int.toNat)) hfirst
  rw [Option.map_map, Option.map_some, List.map_findSome?] at hmap
  calc ((selection last).draw engine (fuel + 1) state).map (·.map fun drawn => drawn.1.toNat)
      = ((selection last).draw engine (fuel + 1) state).map
          (Option.map Int.toNat ∘ fun drawn => drawn.map Prod.fst) := by
        simp only [Function.comp_def, Option.map_map]
    _ = some ((candidates sizeType engine (fuel + 1) state).findSome? (selected last)) := hmap

/-- Every position has equally many candidates. -/
theorem card_selected {last choice : Nat} (hlast : last < 2 ^ 64) (h : choice ≤ last) :
    Finset.card {candidate : Fin (2 ^ 64) | selected last candidate = some choice} =
      2 ^ 64 / (last + 1) := by
  have hsize : (selection last).size = last + 1 := selection_size hlast
  have hupper : (selection last).upper.1 = last := by
    have hupperEq : (selection last).size = (selection last).upper.1 + 1 := by
      simp [UniformIntegerDistribution.size, selection, sizeValue]
    omega
  -- The bounds start at zero, so the choice is the value itself.
  have hselected : ∀ candidate : Fin (2 ^ sizeType.width), selected last candidate = some choice ↔
      (selection last).attempt candidate = some (some (choice : Int)) := by
    intro candidate
    have hlower : (selection last).lower.1 = 0 := rfl
    change ((selection last).attempt candidate).join.map Int.toNat = some choice ↔ _
    rw [(selection last).attempt_fin sizeType_supported, hlower, zero_add]
    generalize candidate.1 % (selection last).size.toNat = offset
    split
    · simp
    · simp
  have hcard := (selection last).card_attempt sizeType_supported choice
  rw [if_pos ⟨Int.natCast_nonneg choice, by omega⟩, hsize] at hcard
  calc Finset.card {candidate : Fin (2 ^ 64) | selected last candidate = some choice}
      = Finset.card {candidate : Fin (2 ^ sizeType.width) |
          (selection last).attempt candidate = some (some (choice : Int))} :=
        congrArg Finset.card (Finset.filter_congr fun candidate _ => hselected candidate)
    _ = 2 ^ 64 / (last + 1) := hcard

/-- What the shuffles of a length make of the selections. -/
structure ShufflesEvenly (length : Nat) : Prop where
  bijective : Set.BijOn (fun choices => shuffle length choices (initialPermutation length))
    { choices | Choices length choices } (some '' { items : List Word | items.Perm (initialPermutation length) })
  count : { items : List Word | items.Perm (initialPermutation length) }.ncard = length.factorial
  -- For each limit some number of candidates, of which the first that is accepted is selected.
  even : ∀ (lengths : Fin (length - 1) → Nat) (items items' : List Word),
    items.Perm (initialPermutation length) → items'.Perm (initialPermutation length) →
      (samples (fun index (run : Fin (lengths index) → Fin (2 ^ 64)) =>
          (List.ofFn run).findSome? fun candidate : Fin (2 ^ 64) =>
            selected (length - index - 1) candidate)
        (initialPermutation length) items).card =
      (samples (fun index (run : Fin (lengths index) → Fin (2 ^ 64)) =>
          (List.ofFn run).findSome? fun candidate : Fin (2 ^ 64) =>
            selected (length - index - 1) candidate)
        (initialPermutation length) items').card

theorem shufflesEvenly {length : Nat} (h : length ≤ maximumWord) : ShufflesEvenly length := by
  have hnodup := initialPermutation_nodup h
  have hlength : (initialPermutation length).length = length := by simp [initialPermutation]
  refine ⟨?_, ?_, fun lengths items items' hitems hitems' => ?_⟩
  · simpa only [hlength] using shuffle_bijOn hnodup
  · simpa only [hlength] using ncard_perm hnodup
  · refine card_samples_eq _ ?_ hlength hnodup hitems hitems'
    intro index choice hchoice choice' hchoice'
    unfold maximumWord at h
    apply card_runs_eq
    rw [card_selected (by omega) (by omega), card_selected (by omega) (by omega)]

theorem generate_eq (engine : CanonicalRandomEngine State) (fuel : Nat) {permutation : List Word}
    (h : permutation.length ≤ maximumWord) (state : State) :
    generateLowDiscrepancyPermutation engine fuel permutation state =
      (shuffleLoop engine fuel permutation.length (initialPermutation permutation.length)
        state).bind fun loop => some (loop.map fun result => (.ok (), result)) :=
  if_neg (not_lt.2 h)

/-- Over every engine: a span that is too long is refused and left as it is; else the function leaves
the permutation that the draws of the engine lead to, and the engine behind them, unless one of these
draws rejects every candidate of the engine.  A draw is the first candidate of the engine that is
accepted.  The selections are a code of the permutations, and even candidates are even between them. -/
theorem generateLowDiscrepancyPermutation_shuffles (engine : CanonicalRandomEngine State)
    (permutation : List Word) (state : State) :
    (permutation.length > maximumWord → ∀ fuel,
      generateLowDiscrepancyPermutation engine fuel permutation state =
        some (some (.error
          { code := .overflow, message := "Permutation size exceeds the uint32 domain" },
          permutation, state))) ∧
    (permutation.length ≤ maximumWord →
      ((∃ bound choices limit last items,
          Draws engine permutation.length state choices limit last ∧
          Choices permutation.length choices ∧
          shuffle permutation.length choices (initialPermutation permutation.length) = some items ∧
          items.Perm (initialPermutation permutation.length) ∧
          ∀ fuel ≥ bound, generateLowDiscrepancyPermutation engine fuel permutation state =
            some (some (.ok (), items, last))) ∨
        ((∀ fuel, generateLowDiscrepancyPermutation engine fuel permutation state = some none) ∧
          ∃ choices limit stopped,
            Draws engine permutation.length state choices limit stopped ∧
            1 < limit ∧ Stuck engine limit stopped)) ∧
      (∀ last fuel stopped,
        ((selection last).draw engine (fuel + 1) stopped).map
            (·.map fun drawn => drawn.1.toNat) =
          some ((candidates sizeType engine (fuel + 1) stopped).findSome? (selected last))) ∧
      ShufflesEvenly permutation.length) := by
  refine ⟨fun hlong fuel => if_pos hlong,
    fun hshort => ⟨?_, draw_eq_selected engine, shufflesEvenly hshort⟩⟩
  have hlength : (initialPermutation permutation.length).length = permutation.length := by
    simp [initialPermutation]
  have hloop := shuffleLoop_ends_or_stuck engine (by rwa [hlength] :
    (initialPermutation permutation.length).length ≤ maximumWord) [] state
  rw [hlength, List.append_nil] at hloop
  -- The choices drawn determine the list, by the general fact about shuffles.
  rcases hloop with ⟨bound, choices, limit, last, hdraws, hchoices, hrun⟩ | ⟨hrun, hstuck⟩
  · have hchoices' : Choices (initialPermutation permutation.length).length choices := by
      rwa [hlength]
    rcases shuffle_perm hchoices' [] with ⟨items, hitems, hperm⟩
    rw [hlength, List.append_nil, List.append_nil] at hitems
    refine .inl ⟨bound, choices, limit, last, items, hdraws, hchoices, hitems, hperm,
      fun fuel hfuel => ?_⟩
    rw [generate_eq engine fuel hshort, hrun fuel hfuel, hitems]
    rfl
  · refine .inr ⟨fun fuel => ?_, hstuck⟩
    rw [generate_eq engine fuel hshort, hrun fuel]
    rfl

/-- An engine that counts. -/
def countingEngine : CanonicalRandomEngine (BitVec 64) :=
  ⟨64, digits_of_double, fun state => (state, state + 1)⟩

/-- The candidates four, five and six select the positions zero of four, two of three and zero of
two. -/
theorem generateLowDiscrepancyPermutation_shuffles_sample :
    (∃ bound choices limit last items,
      Draws countingEngine 4 4 choices limit last ∧ Choices 4 choices ∧
      shuffle 4 choices (initialPermutation 4) = some items ∧
      items.Perm (initialPermutation 4) ∧
      ∀ fuel ≥ bound, generateLowDiscrepancyPermutation countingEngine fuel [9, 9, 9, 9] 4 =
        some (some (.ok (), items, last))) ∧
    generateLowDiscrepancyPermutation countingEngine 1 [9, 9, 9, 9] 4 =
      some (some (.ok (), [1, 3, 2, 0], 7)) ∧
    ShufflesEvenly 4 ∧
    generateLowDiscrepancyPermutation countingEngine 1 (List.replicate (2 ^ 32) 7) 4 =
      some (some (.error
        { code := .overflow, message := "Permutation size exceeds the uint32 domain" },
        List.replicate (2 ^ 32) 7, 4)) := by
  have hall := (generateLowDiscrepancyPermutation_shuffles countingEngine [9, 9, 9, 9] 4).2
    (by decide)
  have hrun : generateLowDiscrepancyPermutation countingEngine 1 [9, 9, 9, 9] 4 =
      some (some (.ok (), [1, 3, 2, 0], 7)) := by rfl
  refine ⟨?_, hrun, hall.2.2, ?_⟩
  · rcases hall.1 with hends | ⟨hnone, -⟩
    · exact hends
    · rw [hnone 1] at hrun
      cases hrun
  · apply (generateLowDiscrepancyPermutation_shuffles countingEngine
      (List.replicate (2 ^ 32) 7) 4).1
    rw [List.length_replicate]
    decide

/-- An engine whose words are all zero. -/
def zeroEngine : CanonicalRandomEngine Unit :=
  ⟨64, digits_of_double, fun state => (0, state)⟩

/-- Three does not divide the number of candidates, so that the candidate zero is rejected. -/
theorem zeroEngine_stuck : Stuck zeroEngine 3 () := by
  intro fuel
  have hsize : (selection 2).size = 3 := rfl
  rw [UniformIntegerDistribution.draw_eq_loop _ zeroEngine sizeType_supported
    (by rw [hsize]; decide), hsize]
  induction fuel with
  | zero => rfl
  | succ fuel ih =>
    rw [UniformIntegerDistribution.loop]
    have hcandidate : UniformIntegerDistribution.candidate sizeType zeroEngine () = (0, ()) := by
      decide
    -- Zero lies below the threshold of three, so it is rejected every time.
    have hturn : (selection 2).turn 3 (2 ^ sizeType.width % 3) 0 = some none := by
      decide
    simp only [hcandidate, hturn]
    exact ih

/-- With an engine that only yields zeros the function does not return, and a longer span than
`std::uint32_t` can number is left as it is. -/
theorem generateLowDiscrepancyPermutation_may_not_permute :
    (∀ fuel, generateLowDiscrepancyPermutation zeroEngine fuel [0, 0, 0] () = some none) ∧
      ∀ fuel, ∃ status : Status,
        generateLowDiscrepancyPermutation zeroEngine fuel (List.replicate (2 ^ 32) 0) () =
          some (some (.error status, List.replicate (2 ^ 32) 0, ())) := by
  constructor
  · intro fuel
    have hstuck := zeroEngine_stuck fuel
    have hloop : shuffleLoop zeroEngine fuel 3 (initialPermutation 3) () = some none := by
      simp only [shuffleLoop, create_eq_selection]
      simp only [hstuck]
    rw [generate_eq zeroEngine fuel (by decide : [0, 0, 0].length ≤ maximumWord) ()]
    exact congrArg (Option.bind · _) hloop
  · intro fuel
    refine ⟨_, if_pos ?_⟩
    rw [List.length_replicate]
    decide

end Random
end AscCpp
