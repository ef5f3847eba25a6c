import AscCpp.Core.Status
import AscCpp.Library.DigitReversal
import AscCpp.Random.Philox

/-!
# RadicalInverse — the radical inverses over the rationals

The arithmetic of `Real` is that of the rational numbers, for which `std::fma` is exact and every
value is finite; `below` is what `std::nextafter` returns for the number below one.

- `validateDigitPermutation_ok`: the accepted tables are the permutations of the digits that fix zero.
- `radicalLoop_eq`: the loop reverses the digits of the index behind the point.
- `radicalInverse_correct`: the inverses are told apart and spread evenly.
-/

namespace AscCpp
namespace Random

open AscCpp.Core Library

/-! ## Digit tables -/

def validateDigitPermutation (base : Word) (permutation : List Word) : Result Unit := do
  failIf (base < 2)
    { code := .invalidArgument
      message := "Scrambled radical inverse base must be at least two" }
  failIf (permutation.length ≠ base.toNat)
    { code := .shape, message := "Digit permutation size must equal the base" }
  failIf (permutation.getD 0 0 ≠ 0)
    { code := .invalidArgument, message := "Digit permutation must map zero to zero" }
  forM (List.range permutation.length) fun index => do
    failIf (permutation.getD index 0 ≥ base)
      { code := .invalidArgument
        message := "Digit permutation contains an out-of-range value" }
    forM (List.range index) fun other =>
      failIf (permutation.getD other 0 = permutation.getD index 0)
        { code := .invalidArgument
          message := "Digit permutation contains a repeated value" }

/-! ## The loops -/

/-- `RepairUnitInterval`. -/
def repairUnitInterval (below value : Rat) (operation : String) : Result Rat :=
  let repaired := if value = 1 then below else value
  if repaired < 0 ∨ ¬ repaired < 1 then
    .error { code := .numerical, message := operation }
  else
    .ok repaired

/-- The loop over the digits of the index.  Without a value a digit is not in the table; an inner
none says that the fuel does not suffice. -/
def radicalLoop (base : Word) (inverseBase : Rat) (lookup : Word → Option Word) :
    Nat → BitVec 64 → Rat → Rat → Option (Option Rat)
  | 0, _, _, _ => some none
  | fuel + 1, index, factor, value =>
    if index ≠ 0 then do
      let digit : Word := (index % base.setWidth 64).setWidth 32
      let factor := factor * inverseBase
      let scrambled ← lookup digit
      radicalLoop base inverseBase lookup fuel (index / base.setWidth 64) factor
        (scrambled.toNat * factor + value)
    else
      some (some value)

/-- `RadicalInverse`; its last checks are those of `RepairUnitInterval`. -/
def radicalInverse (below : Rat) (fuel : Nat) (base : Word) (index : BitVec 64) :
    Option (Option (Result Rat)) :=
  if base < 2 then
    some (some (.error
      { code := .invalidArgument, message := "Radical inverse base must be at least two" }))
  else do
    let value ← radicalLoop base (1 / base.toNat) some fuel index 1 0
    some (value.map fun value =>
      repairUnitInterval below value "Radical inverse produced an invalid result")

def scrambledRadicalInverse (below : Rat) (fuel : Nat) (base : Word) (index : BitVec 64)
    (permutation : List Word) : Option (Option (Result Rat)) :=
  match validateDigitPermutation base permutation with
  | .error status => some (some (.error status))
  | .ok () => do
    let value ← radicalLoop base (1 / base.toNat) (fun digit => permutation[digit.toNat]?) fuel
      index 1 0
    some (value.map fun value =>
      repairUnitInterval below value "Scrambled radical inverse produced an invalid result")

example : scrambledRadicalInverse 0 4 3 5 [0, 2, 1] = some (some (.ok (5 / 9))) := by
  decide +kernel

/-! ## The accepted tables -/

/-- The digit that a table gives. -/
def tableDigit (permutation : List Word) (digit : Nat) : Nat :=
  (permutation.getD digit 0).toNat

/-- A table permutes the digits and keeps the zero. -/
structure DigitBijection (base : Nat) (permutation : List Word) : Prop where
  length_eq : permutation.length = base
  permutes : Permutes base (tableDigit permutation)
  zero_fixed : tableDigit permutation 0 = 0

/-- Exactly the permutations of the digits that fix zero are accepted. -/
theorem validateDigitPermutation_ok {base : Word} (hbase : 2 ≤ base.toNat)
    (permutation : List Word) :
    validateDigitPermutation base permutation = .ok () ↔ DigitBijection base.toNat permutation := by
  have hsmall : ¬base < 2 := fun hless => hbase.not_gt (BitVec.lt_def.1 hless)
  simp only [validateDigitPermutation, Result.failIf_bind_eq_ok_iff, Result.forM_eq_ok_iff,
    Result.failIf_eq_ok_iff, List.mem_range, hsmall, not_false_eq_true, true_and, not_not, ge_iff_le,
    BitVec.not_le]
  constructor
  · rintro ⟨hlength, hzero, hentries⟩
    rw [hlength] at hentries
    -- The nested loops say that the entries are digits and that no two are equal.
    have hmaps : Set.MapsTo (tableDigit permutation) (Set.Iio base.toNat) (Set.Iio base.toNat) :=
      fun digit hdigit => BitVec.lt_def.1 (hentries digit hdigit).1
    have hdistinct : ∀ index < base.toNat, ∀ other < index,
        tableDigit permutation other ≠ tableDigit permutation index :=
      fun index hindex other hother heq =>
        (hentries index hindex).2 other hother (BitVec.eq_of_toNat_eq heq)
    have hinjective : Set.InjOn (tableDigit permutation) (Set.Iio base.toNat) := by
      intro left hleft right hright heq
      rcases lt_trichotomy left right with hless | hsame | hgreater
      · exact absurd heq (hdistinct right hright left hless)
      · exact hsame
      · exact absurd heq.symm (hdistinct left hleft right hgreater)
    exact ⟨hlength, permutes_of_injOn hmaps hinjective, congrArg BitVec.toNat hzero⟩
  · rintro ⟨hlength, hpermutes, hzero⟩
    refine ⟨hlength, BitVec.eq_of_toNat_eq hzero, fun index hindex => ?_⟩
    rw [hlength] at hindex
    refine ⟨BitVec.lt_def.2 (hpermutes.lt hindex), fun other hother heq => ?_⟩
    exact hother.ne (hpermutes.injOn (hother.trans hindex) hindex (congrArg BitVec.toNat heq))

/-! ## The loops -/

theorem repairUnitInterval_ok {value : Rat} (hnonneg : 0 ≤ value) (hless : value < 1) (below : Rat)
    (operation : String) : repairUnitInterval below value operation = .ok value := by
  rw [repairUnitInterval, if_neg hless.ne, if_neg]
  rw [not_or, not_not]
  exact ⟨not_lt.2 hnonneg, hless⟩

/-- Each round moves the last digit of the index behind the point; as many rounds as the index has
digits suffice. -/
theorem radicalLoop_eq {base : Word} (hbase : 2 ≤ base.toNat) {lookup : Word → Option Word}
    {substitute : Nat → Nat} (hzero : substitute 0 = 0)
    (hlookup : ∀ digit : Word, digit.toNat < base.toNat →
      ∃ scrambled, lookup digit = some scrambled ∧ scrambled.toNat = substitute digit.toNat)
    (count : Nat) {fuel : Nat} (hfuel : count < fuel) {index : BitVec 64}
    (hindex : index.toNat < base.toNat ^ count) (factor value : Rat) :
    radicalLoop base (1 / base.toNat) lookup fuel index factor value =
      some (some (value + factor * reversedFraction base.toNat substitute count index.toNat)) := by
  rcases fuel with _ | fuel
  · omega
  rw [radicalLoop]
  -- The loop ends at zero, where all the digits still to come are zero as well.
  by_cases hend : index = 0
  · have hfraction : reversedFraction base.toNat substitute count index.toNat = 0 := by
      have hdigits := @reverseDigits_zero base.toNat substitute hzero count
      rw [hend, reversedFraction, show (0 : BitVec 64).toNat = 0 from rfl, hdigits, Nat.cast_zero,
        zero_div]
    rw [if_neg (not_not.2 hend), hfraction, mul_zero, add_zero]
  · rw [if_pos hend]
    cases count with
    -- No digits are left, so the index is zero after all.
    | zero =>
      rw [pow_zero, Nat.lt_one_iff] at hindex
      exact absurd (BitVec.eq_of_toNat_eq hindex) hend
    | succ count =>
      have hwide : (base.setWidth 64).toNat = base.toNat :=
        BitVec.toNat_setWidth_of_le (by decide)
      have hdigit : ((index % base.setWidth 64).setWidth 32).toNat = index.toNat % base.toNat := by
        rw [BitVec.toNat_setWidth, BitVec.toNat_umod, hwide]
        exact Nat.mod_eq_of_lt ((Nat.mod_lt _ (by omega)).trans base.isLt)
      have hrest : (index / base.setWidth 64).toNat = index.toNat / base.toNat := by
        rw [BitVec.toNat_udiv, hwide]
      rcases hlookup ((index % base.setWidth 64).setWidth 32)
        (hdigit ▸ Nat.mod_lt _ (by omega)) with ⟨scrambled, hscrambled, hvalue⟩
      have hless : (index / base.setWidth 64).toNat < base.toNat ^ count := by
        rw [hrest]
        exact Nat.div_lt_of_lt_mul (by rwa [pow_succ'] at hindex)
      have hne : (base.toNat : Rat) ≠ 0 := Nat.cast_ne_zero.2 (by omega)
      simp only [hscrambled, Option.bind_eq_bind, Option.bind_some]
      rw [radicalLoop_eq hbase hzero hlookup count (by omega) hless, hrest,
        reversedFraction_succ (by omega), hvalue, hdigit]
      congr 2
      field_simp
      ring

/-! ## The inverses -/

/-- The values lie in the unit interval, no two indices share one, and every aligned block of as many
indices as there are cells has one index in each cell. -/
structure SpreadsEvenly (base : Nat) (inverse : BitVec 64 → Rat) : Prop where
  nonneg : ∀ index, 0 ≤ inverse index
  lt_one : ∀ index, inverse index < 1
  injective : Function.Injective inverse
  even : ∀ count block cell : Nat, (block + 1) * base ^ count ≤ 2 ^ 64 → cell < base ^ count →
    ∃! index : BitVec 64,
      (block * base ^ count ≤ index.toNat ∧ index.toNat < (block + 1) * base ^ count) ∧
        (cell : Rat) / base ^ count ≤ inverse index ∧ inverse index < (cell + 1 : Rat) / base ^ count

theorem index_lt_pow {base : Nat} (hbase : 2 ≤ base) (index : BitVec 64) :
    index.toNat < base ^ 64 :=
  index.isLt.trans_le (Nat.pow_le_pow_left hbase 64)

theorem spreadsEvenly {base : Nat} (hbase : 2 ≤ base) {substitute : Nat → Nat}
    (h : Permutes base substitute) (hzero : substitute 0 = 0) :
    SpreadsEvenly base fun index => reversedFraction base substitute 64 index.toNat where
  nonneg index := reversedFraction_nonneg 64 index.toNat
  lt_one index := reversedFraction_lt_one (by omega) h 64 index.toNat
  injective left right heq :=
    BitVec.eq_of_toNat_eq (reversedFraction_injOn (by omega) h 64 (index_lt_pow hbase left)
      (index_lt_pow hbase right) heq)
  even count block cell hblock hcell := by
    have hpositive : 0 < base := by omega
    -- More digits than the index has only add leading zeros.
    have hmore : ∀ index : BitVec 64, reversedFraction base substitute (count + 64) index.toNat =
        reversedFraction base substitute 64 index.toNat := by
      intro index
      rw [Nat.add_comm, reversedFraction_add hpositive hzero (index_lt_pow hbase index)]
    simp only [← hmore]
    rcases existsUnique_reverse hpositive h block 64 hcell with ⟨index, hindex, hunique⟩
    have hless : index < 2 ^ 64 := hindex.1.2.trans_le hblock
    have hvalue : (BitVec.ofNat 64 index).toNat = index := Nat.mod_eq_of_lt hless
    refine ⟨BitVec.ofNat 64 index, ?_, fun other hother => ?_⟩
    · simp only [hvalue]
      exact hindex
    · apply BitVec.eq_of_toNat_eq
      rw [hvalue]
      exact hunique _ hother

theorem scrambledRadicalInverse_eq {base : Word} (hbase : 2 ≤ base.toNat) {permutation : List Word}
    (hvalid : validateDigitPermutation base permutation = .ok ())
    (h : DigitBijection base.toNat permutation) (below : Rat) {fuel : Nat} (hfuel : 65 ≤ fuel)
    (index : BitVec 64) :
    scrambledRadicalInverse below fuel base index permutation =
      some (some (.ok (reversedFraction base.toNat (tableDigit permutation) 64 index.toNat))) := by
  have hlookup : ∀ digit : Word, digit.toNat < base.toNat →
      ∃ scrambled, permutation[digit.toNat]? = some scrambled ∧
        scrambled.toNat = tableDigit permutation digit.toNat := by
    intro digit hdigit
    rw [← h.length_eq] at hdigit
    refine ⟨permutation[digit.toNat], List.getElem?_eq_getElem hdigit, ?_⟩
    rw [tableDigit, List.getD_eq_getElem?_getD, List.getElem?_eq_getElem hdigit, Option.getD_some]
  rw [scrambledRadicalInverse, hvalid]
  simp only
  -- The sum lies in [0, 1), so the repair returns it as it is.
  rw [radicalLoop_eq hbase h.zero_fixed hlookup 64 hfuel (index_lt_pow hbase index), zero_add,
    one_mul, Option.bind_eq_bind, Option.bind_some, Option.map_some,
    repairUnitInterval_ok (reversedFraction_nonneg 64 _)
      (reversedFraction_lt_one (by omega) h.permutes 64 _)]

theorem radicalInverse_eq {base : Word} (hbase : 2 ≤ base.toNat) (below : Rat) {fuel : Nat}
    (hfuel : 65 ≤ fuel) (index : BitVec 64) :
    radicalInverse below fuel base index =
      some (some (.ok (reversedFraction base.toNat id 64 index.toNat))) := by
  have hsmall : ¬base < 2 := fun hless => hbase.not_gt (BitVec.lt_def.1 hless)
  have hpermutes : Permutes base.toNat id := Set.bijOn_id _
  have hloop := @radicalLoop_eq base hbase some id rfl (fun digit _ => ⟨digit, rfl, rfl⟩) 64 fuel
    hfuel index (index_lt_pow hbase index) 1 0
  rw [radicalInverse, if_neg hsmall, hloop, zero_add, one_mul, Option.bind_eq_bind,
    Option.bind_some, Option.map_some,
    repairUnitInterval_ok (reversedFraction_nonneg 64 _)
      (reversedFraction_lt_one (by omega) hpermutes 64 _)]

/-- The table that leaves every digit. -/
def identityTable (base : Word) : List Word :=
  (List.range base.toNat).map (BitVec.ofNat 32)

theorem tableDigit_identity {base : Word} {digit : Nat} (h : digit < base.toNat) :
    tableDigit (identityTable base) digit = digit := by
  have hless : digit < (identityTable base).length := by simpa [identityTable] using h
  rw [tableDigit, List.getD_eq_getElem?_getD, List.getElem?_eq_getElem hless, Option.getD_some]
  simp only [identityTable, List.getElem_map, List.getElem_range, BitVec.toNat_ofNat]
  exact Nat.mod_eq_of_lt (h.trans base.isLt)

theorem identityTable_bijection {base : Word} (hbase : 2 ≤ base.toNat) :
    DigitBijection base.toNat (identityTable base) where
  length_eq := by simp [identityTable]
  permutes := (Set.bijOn_id _).congr fun _ hdigit => (tableDigit_identity hdigit).symm
  zero_fixed := tableDigit_identity (by omega)

/-- The accepted tables are the permutations of the digits that fix zero.  With each of them the
inverse returns after 65 tests of the loop at most and spreads the indices evenly, and with the
identity it is the plain inverse. -/
theorem radicalInverse_correct {base : Word} (hbase : 2 ≤ base.toNat) :
    (∀ permutation, validateDigitPermutation base permutation = .ok () ↔
      DigitBijection base.toNat permutation) ∧
    (∀ permutation, validateDigitPermutation base permutation = .ok () →
      ∃ inverse, SpreadsEvenly base.toNat inverse ∧ ∀ below, ∀ fuel ≥ 65, ∀ index,
        scrambledRadicalInverse below fuel base index permutation =
          some (some (.ok (inverse index)))) ∧
    validateDigitPermutation base (identityTable base) = .ok () ∧
    ∀ below, ∀ fuel ≥ 65, ∀ index, radicalInverse below fuel base index =
      scrambledRadicalInverse below fuel base index (identityTable base) := by
  have hidentity := (validateDigitPermutation_ok hbase _).2 (identityTable_bijection hbase)
  refine ⟨validateDigitPermutation_ok hbase, fun permutation hvalid => ?_, hidentity,
    fun below fuel hfuel index => ?_⟩
  · have hbijection := (validateDigitPermutation_ok hbase permutation).1 hvalid
    exact ⟨_, spreadsEvenly hbase hbijection.permutes hbijection.zero_fixed,
      fun below fuel hfuel => scrambledRadicalInverse_eq hbase hvalid hbijection below hfuel⟩
  · have hdigits : ∀ digit < base.toNat, tableDigit (identityTable base) digit = id digit :=
      fun digit hdigit => tableDigit_identity hdigit
    rw [radicalInverse_eq hbase below hfuel,
      scrambledRadicalInverse_eq hbase hidentity (identityTable_bijection hbase) below hfuel,
      reversedFraction_congr (by omega) hdigits]

/-- The greatest base has a table, and with it every index has a value. -/
theorem radicalInverse_correct_sample :
    (∀ permutation, validateDigitPermutation 4294967295 permutation = .ok () ↔
      DigitBijection 4294967295 permutation) ∧
    ∃ inverse, SpreadsEvenly 3 inverse ∧ ∀ index,
      scrambledRadicalInverse 0 65 3 index [0, 2, 1] = some (some (.ok (inverse index))) := by
  constructor
  · exact (@radicalInverse_correct 4294967295 (by decide)).1
  · rcases (@radicalInverse_correct 3 (by decide)).2.1 [0, 2, 1] rfl with ⟨inverse, heven, hrun⟩
    exact ⟨inverse, heven, fun index => hrun 0 65 le_rfl index⟩

end Random
end AscCpp
