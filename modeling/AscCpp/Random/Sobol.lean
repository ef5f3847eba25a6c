import AscCpp.Core.Status
import AscCpp.Library.GrayCode

/-!
# Sobol — direction words and the Sobol words of indices

The generated table is a parameter: for every dimension but the first one it has the degree and the
coefficients of a polynomial, and the initial values.

- `initialize_lowestBit`: the lowest bit of the direction word with a number.
- `sobolWord_eq`: the loop of `SobolWord` sums up the direction words that the Gray code selects.
- `sobolWord_correct`: the words of all indices, of aligned blocks and of consecutive indices.
-/

namespace AscCpp
namespace Random

open AscCpp.Core Library

/-- `kSobolDimensionCount`. -/
def sobolDimensionCount : Nat := 21201

/-- `kSobolDirectionWordCount`. -/
def sobolDirectionWordCount : Nat := 64

/-- The arrays of the generated table. -/
structure SobolTable where
  degrees : Nat → Nat
  coefficients : Nat → BitVec 32
  initialOffsets : Nat → Nat
  initialValues : Nat → BitVec 32

/-- The word that the recurrence computes for an index. -/
def directionWord (degree : Nat) (coefficient : BitVec 32) (directionWords : List (BitVec 64))
    (index : Nat) : BitVec 64 :=
  let previous := directionWords.getD (index - degree) 0
  (List.range' 1 (degree - 1)).foldl (fun word offset =>
    if coefficient >>> (degree - 1 - offset) &&& 1 ≠ 0 then
      word ^^^ directionWords.getD (index - offset) 0
    else word) (previous ^^^ previous >>> degree)

/-- `InitializeSobolDirectionNumbers`, with the words that it leaves.  The degrees of the generated
table are at most 18; a degree above 64, of which the loops here keep inside the words, would write
behind them. -/
def initializeSobolDirectionNumbers (table : SobolTable) (dimension : Nat)
    (directionWords : List (BitVec 64)) : Result (List (BitVec 64)) := do
  failIf (dimension ≥ sobolDimensionCount)
    { code := .index, message := "Sobol dimension is out of range" }
  failIf (directionWords.length ≠ sobolDirectionWordCount)
    { code := .shape, message := "Sobol direction workspace must contain 64 words" }
  if dimension = 0 then
    .ok ((List.range sobolDirectionWordCount).foldl
      (fun words index => words.set index ((1 : BitVec 64) <<< (63 - index))) directionWords)
  else
    let row := dimension - 1
    let degree := table.degrees row
    let initialOffset := table.initialOffsets row
    let initial := (List.range degree).foldl (fun words index =>
      words.set index
        ((table.initialValues (initialOffset + index)).setWidth 64 <<< (63 - index))) directionWords
    .ok ((List.range' degree (sobolDirectionWordCount - degree)).foldl (fun words index =>
      words.set index (directionWord degree (table.coefficients row) words index)) initial)

/-- The loop of `SobolWord`. -/
def sumDirections (directions : List (BitVec 64)) (gray word : BitVec 64) : BitVec 64 :=
  if gray = 0 then word
  else
    let bit := gray.ctz.toNat
    sumDirections directions (gray &&& (gray - 1)) (word ^^^ directions.getD bit 0)
termination_by gray.toNat
decreasing_by
  rename_i hgray
  have hpositive : 0 < gray.toNat := by
    rw [Nat.pos_iff_ne_zero]
    intro hzero
    exact hgray (BitVec.eq_of_toNat_eq hzero)
  have hpred : (gray - 1).toNat = gray.toNat - 1 :=
    BitVec.toNat_sub_of_le (BitVec.le_def.2 hpositive)
  have hle : (gray &&& (gray - 1)).toNat ≤ (gray - 1).toNat := by
    rw [BitVec.toNat_and]
    exact Nat.and_le_right
  omega

def sobolWord (table : SobolTable) (index : BitVec 64) (dimension : Nat) : Result (BitVec 64) := do
  failIf (dimension ≥ sobolDimensionCount)
    { code := .index, message := "Sobol dimension is out of range" }
  let directions ← initializeSobolDirectionNumbers table dimension
    (List.replicate sobolDirectionWordCount 0)
  .ok (sumDirections directions (index ^^^ index >>> 1) 0)

/-- A row of the table: the degree is positive, and the initial value with a number is odd and has
at most one bit more than the number. -/
structure SobolTable.ValidRow (table : SobolTable) (row : Nat) : Prop where
  degree_pos : 1 ≤ table.degrees row
  initial_odd : ∀ index < table.degrees row,
    (table.initialValues (table.initialOffsets row + index)).toNat % 2 = 1
  initial_lt : ∀ index < table.degrees row,
    (table.initialValues (table.initialOffsets row + index)).toNat < 2 ^ (index + 1)

/-! ## Direction words -/

/-- The first words are in place. -/
structure Directed (words : List (BitVec 64)) (count : Nat) : Prop where
  length_eq : words.length = 64
  lowest : ∀ index < count, index < 64 → LowestBit (words.getD index 0) (63 - index)

/-- A loop that sets one word after the other. -/
theorem Directed.foldl_set {value : List (BitVec 64) → Nat → BitVec 64}
    {words : List (BitVec 64)} {first : Nat} (count : Nat) (h : Directed words first)
    (hvalue : ∀ words index, first ≤ index → index < first + count → index < 64 →
      Directed words index → LowestBit (value words index) (63 - index)) :
    Directed ((List.range' first count).foldl
      (fun words index => words.set index (value words index)) words) (first + count) := by
  -- By induction over the words written; the value may read those before it.
  induction count with
  | zero => exact h
  | succ count ih =>
    replace ih := ih fun words index hfirst hlast => hvalue words index hfirst (by omega)
    rw [List.range'_1_concat, List.foldl_append, List.foldl_cons, List.foldl_nil]
    generalize (List.range' first count).foldl
      (fun words index => words.set index (value words index)) words = before at ih ⊢
    refine ⟨by rw [List.length_set, ih.length_eq], fun index hindex hlt => ?_⟩
    rw [List.getD_eq_getElem?_getD, List.getElem?_set, ih.length_eq]
    by_cases hsame : first + count = index
    · subst hsame
      rw [if_pos rfl, if_pos hlt]
      exact hvalue before _ (Nat.le_add_right _ _) (by omega) hlt ih
    · rw [if_neg hsame, ← List.getD_eq_getElem?_getD]
      exact ih.lowest index (by omega) hlt

/-- The recurrence keeps the lowest bit in its place. -/
theorem directionWord_lowest {degree index : Nat} (coefficient : BitVec 32)
    {words : List (BitVec 64)} (hdegree : 1 ≤ degree) (hindex : degree ≤ index) (hlt : index < 64)
    (h : Directed words index) :
    LowestBit (directionWord degree coefficient words index) (63 - index) := by
  have hprevious := h.lowest (index - degree) (by omega) (by omega)
  have hplace : 63 - (index - degree) = degree + (63 - index) := by omega
  rw [hplace] at hprevious
  -- Only the shifted word reaches the place.
  have hstart : LowestBit (words.getD (index - degree) 0 ^^^
      words.getD (index - degree) 0 >>> degree) (63 - index) := by
    rw [BitVec.xor_comm]
    exact hprevious.ushiftRight.xor fun place hle => hprevious.zeros place (by omega)
  unfold directionWord
  simp only
  have hoffsets : ∀ offset ∈ List.range' 1 (degree - 1), 1 ≤ offset ∧ offset < degree := by
    intro offset hoffset
    rw [List.mem_range'_1] at hoffset
    omega
  generalize words.getD (index - degree) 0 ^^^ words.getD (index - degree) 0 >>> degree = word
    at hstart ⊢
  generalize List.range' 1 (degree - 1) = offsets at hoffsets ⊢
  induction offsets generalizing word with
  | nil => exact hstart
  | cons offset offsets ih =>
    rw [List.forall_mem_cons] at hoffsets
    rw [List.foldl_cons]
    apply ih _ ?_ hoffsets.2
    split
    · have hearlier := h.lowest (index - offset) (by omega) (by omega)
      exact hstart.xor fun place hle => hearlier.zeros place (by omega)
    · exact hstart

/-- The direction words stand in echelon form. -/
theorem initialize_lowestBit {table : SobolTable} {dimension : Nat}
    (hdimension : dimension < sobolDimensionCount)
    (hrow : dimension ≠ 0 → table.ValidRow (dimension - 1)) {workspace : List (BitVec 64)}
    (hworkspace : workspace.length = 64) :
    ∃ words, initializeSobolDirectionNumbers table dimension workspace = .ok words ∧
      Directed words 64 := by
  have hempty : Directed workspace 0 :=
    ⟨hworkspace, fun index hindex => absurd hindex (Nat.not_lt_zero index)⟩
  have hlength : workspace.length = sobolDirectionWordCount := hworkspace
  rw [initializeSobolDirectionNumbers, failIf, if_neg (not_le.2 hdimension), Result.ok_bind, failIf,
    if_neg (not_not_intro hlength), Result.ok_bind]
  -- The first dimension has its own words; the others start from the table.
  by_cases hzero : dimension = 0
  · refine ⟨_, if_pos hzero, ?_⟩
    rw [List.range_eq_range']
    refine hempty.foldl_set 64 fun words index _ _ hlt _ => ?_
    have hone : LowestBit (1 : BitVec 64) 0 :=
      ⟨rfl, fun place hplace => absurd hplace (Nat.not_lt_zero place)⟩
    exact hone.shiftLeft (by omega)
  · refine ⟨_, if_neg hzero, ?_⟩
    have hvalid := hrow hzero
    rw [List.range_eq_range']
    have hinitial := @Directed.foldl_set (fun _ index =>
      (table.initialValues (table.initialOffsets (dimension - 1) + index)).setWidth 64 <<<
        (63 - index)) workspace 0 (table.degrees (dimension - 1)) hempty (by
        intro words index _ hindex hlt _
        rw [Nat.zero_add] at hindex
        -- An odd initial value keeps bit zero, which the shift brings to its place.
        have hodd : LowestBit ((table.initialValues
            (table.initialOffsets (dimension - 1) + index)).setWidth 64) 0 := by
          refine ⟨?_, fun place hplace => absurd hplace (Nat.not_lt_zero place)⟩
          have hmod := hvalid.initial_odd index hindex
          simp [BitVec.getLsbD, Nat.testBit_zero, hmod]
        exact hodd.shiftLeft (by omega))
    rw [Nat.zero_add] at hinitial
    have hall := @Directed.foldl_set (fun words index =>
      directionWord (table.degrees (dimension - 1)) (table.coefficients (dimension - 1)) words index)
      _ _ (sobolDirectionWordCount - table.degrees (dimension - 1)) hinitial
      fun words index hfirst _ hlt h => directionWord_lowest _ hvalid.degree_pos hfirst hlt h
    exact ⟨hall.length_eq, fun index hindex hlt => hall.lowest index
      (by simp only [sobolDirectionWordCount]; omega) hlt⟩

/-- A dimension of the table has direction words. -/
theorem initialize_ok {table : SobolTable} {dimension : Nat}
    (hdimension : dimension < sobolDimensionCount) {workspace : List (BitVec 64)}
    (hworkspace : workspace.length = sobolDirectionWordCount) :
    ∃ words, initializeSobolDirectionNumbers table dimension workspace = .ok words := by
  rw [initializeSobolDirectionNumbers, failIf, if_neg (not_le.2 hdimension), Result.ok_bind, failIf,
    if_neg (not_not_intro hworkspace), Result.ok_bind]
  split
  · exact ⟨_, rfl⟩
  · exact ⟨_, rfl⟩

/-! ## Words of indices -/

/-- The loop adds the words that are selected to the word that it starts from. -/
theorem sumDirections_eq (directions : List (BitVec 64)) (gray word : BitVec 64) :
    sumDirections directions gray word =
      word ^^^ sumSelected (fun number => directions.getD number 0) gray 64 := by
  -- Each round removes the lowest bit of the code.
  induction gray, word using sumDirections.induct directions with
  | case1 word =>
    have hzero := (@sumSelected_linear 64 (fun number => directions.getD number 0) 64).map_zero
    have hzero' : sumSelected (fun number => directions.getD number 0) (0 : BitVec 64) 64 = 0 := hzero
    rw [sumDirections, if_pos rfl, hzero']
    exact BitVec.xor_zero.symm
  | case2 gray word hgray bit ih =>
    have hbit : gray.ctz.toNat < 64 := BitVec.lt_def.1 (BitVec.ctz_lt_iff_ne_zero.2 hgray)
    have hlinear := @sumSelected_linear 64 (fun number => directions.getD number 0) 64 gray
      (BitVec.twoPow 64 gray.ctz.toNat)
    simp only [sumSelected_twoPow hbit, if_pos hbit] at hlinear
    rw [sumDirections, if_neg hgray]
    simp only
    rw [ih, and_pred hgray, hlinear, BitVec.xor_assoc]
    congr 1
    rw [BitVec.xor_comm, BitVec.xor_assoc, BitVec.xor_self, BitVec.xor_zero]

theorem sobolWord_eq {table : SobolTable} {dimension : Nat}
    (hdimension : dimension < sobolDimensionCount) {words : List (BitVec 64)}
    (hwords : initializeSobolDirectionNumbers table dimension
      (List.replicate sobolDirectionWordCount 0) = .ok words) (index : BitVec 64) :
    sobolWord table index dimension = .ok (coded (fun number => words.getD number 0) index) := by
  rw [sobolWord, failIf, if_neg (not_le.2 hdimension), Result.ok_bind, hwords, Result.ok_bind,
    sumDirections_eq]
  exact congrArg Except.ok BitVec.zero_xor

/-- For every dimension whose row of the table is valid the direction word with the number `i` ends
in a one and `63 - i` zeros, whatever the workspace held.  The words of all indices are all words,
the leading bits over an aligned block of indices are all patterns once, and from one index to the
next one direction word is added. -/
theorem sobolWord_correct (table : SobolTable) {dimension : Nat}
    (hdimension : dimension < sobolDimensionCount)
    (hrow : dimension ≠ 0 → table.ValidRow (dimension - 1)) :
    (∀ workspace : List (BitVec 64), workspace.length = sobolDirectionWordCount →
      ∃ words, initializeSobolDirectionNumbers table dimension workspace = .ok words ∧
        words.length = 64 ∧ ∀ index < 64, LowestBit (words.getD index 0) (63 - index)) ∧
    ∃ (directions : List (BitVec 64)) (word : BitVec 64 → BitVec 64),
      initializeSobolDirectionNumbers table dimension (List.replicate sobolDirectionWordCount 0) =
        .ok directions ∧
      (∀ index, sobolWord table index dimension = .ok (word index)) ∧
      Function.Bijective word ∧
      (∀ count ≤ 64, ∀ block < 2 ^ (64 - count), ∀ pattern < 2 ^ count,
        ∃! offset, offset < 2 ^ count ∧
          (word (BitVec.ofNat 64 (block * 2 ^ count + offset)) >>> (64 - count)).toNat = pattern) ∧
      ∀ index : BitVec 64, index.toNat < 2 ^ 64 - 1 →
        word (index + 1) = word index ^^^ directions.getD (index + 1).ctz.toNat 0 := by
  constructor
  · intro workspace hworkspace
    rcases initialize_lowestBit hdimension hrow hworkspace with ⟨words, hwords, hdirected⟩
    exact ⟨words, hwords, hdirected.length_eq, fun index hindex =>
      hdirected.lowest index hindex hindex⟩
  · rcases initialize_lowestBit hdimension hrow (List.length_replicate) with
      ⟨directions, hdirections, hdirected⟩
    have hechelon : Echelon fun number => directions.getD number (0 : BitVec 64) :=
      fun number hnumber => hdirected.lowest number hnumber hnumber
    refine ⟨directions, coded fun number => directions.getD number 0, hdirections,
      sobolWord_eq hdimension hdirections, hechelon.coded_bijective,
      fun count hcount block _ pattern hpattern => hechelon.coded_block hcount block hpattern,
      fun index hindex => coded_succ ?_⟩
    -- The successor is zero only at the last index, which is excluded.
    intro hzero
    have hvalue : (index.toNat + 1) % 2 ^ 64 = 0 := congrArg BitVec.toNat hzero
    omega

/-- The first two rows of the table of Joe and Kuo. -/
def firstRows : SobolTable where
  degrees row := row + 1
  coefficients row := BitVec.ofNat 32 row
  initialOffsets row := row
  initialValues position := if position = 2 then 3 else 1

theorem sobolWord_correct_sample :
    firstRows.ValidRow 1 ∧ ∃ word : BitVec 64 → BitVec 64,
      (∀ index, sobolWord firstRows index 2 = .ok (word index)) ∧ Function.Bijective word := by
  have hvalid : firstRows.ValidRow 1 :=
    { degree_pos := by decide
      initial_odd := by decide
      initial_lt := by decide }
  rcases (sobolWord_correct firstRows (show 2 < sobolDimensionCount by decide) fun _ => hvalid).2 with
    ⟨directions, word, -, hword, hbijective, -⟩
  exact ⟨hvalid, word, hword, hbijective⟩

end Random
end AscCpp
