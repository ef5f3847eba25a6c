import AscCpp.Random.DenseFill
import AscCpp.Random.Sobol

/-!
# SobolSequence — a cursor over the indices

A sequence holds its next index and a flag that is set behind the last index, which together are a
number up to `2 ^ 64`.

- `generateSobolPoint_ok`: a point is written whole.
- `SobolSequence.cursor_run`: what any calls do to that number.
- `sobolSequence_follows`: what every call does after any calls.
- `next_empty`: a point without coordinates does not move the sequence.
-/

namespace AscCpp
namespace Random

open AscCpp.Core Library

variable {V : Type}

/-! ## Points -/

/-- `SobolUnit`; `scaled bits digits` is the number `bits / 2 ^ digits` in the type. -/
def sobolUnit (real : RandomReal) (scaled : Nat → Nat → V) (word : BitVec 64) : V :=
  match real with
  | .float => scaled (word >>> 40).toNat 24
  | .double => scaled (word >>> 11).toNat 53

def sobolCoordinate (table : SobolTable) (real : RandomReal) (scaled : Nat → Nat → V)
    (index : BitVec 64) (dimension : Nat) : Result V := do
  let word ← sobolWord table index dimension
  .ok (sobolUnit real scaled word)

/-- The loop of `GenerateSobolPoint` over the dimensions, with the output that it leaves. -/
def writeCoordinates (coordinate : Nat → Result V) : List Nat → List V → Result Unit × List V
  | [], output => (.ok (), output)
  | dimension :: dimensions, output =>
    match coordinate dimension with
    | .error status => (.error status, output)
    | .ok value => writeCoordinates coordinate dimensions (output.set dimension value)

def generateSobolPoint (table : SobolTable) (real : RandomReal) (scaled : Nat → Nat → V)
    (index : BitVec 64) (output : List V) : Result Unit × List V :=
  if output.length > sobolDimensionCount then
    (.error { code := .shape, message := "Sobol dimension exceeds the Joe-Kuo table" }, output)
  else
    writeCoordinates (sobolCoordinate table real scaled index) (List.range output.length) output

/-! ## Sequences -/

structure SobolSequence where
  dimensionCount : Nat
  index : BitVec 64
  exhausted : Bool := false
  deriving DecidableEq, Repr

namespace SobolSequence

def create (dimensionCount : Nat) (initialIndex : BitVec 64) : Result SobolSequence := do
  failIf (dimensionCount > sobolDimensionCount)
    { code := .shape, message := "Sobol sequence dimension exceeds the Joe-Kuo table" }
  .ok { dimensionCount := dimensionCount, index := initialIndex }

/-- The status of an exhausted sequence. -/
def endOfSequence : Status :=
  { code := .endOfFile, message := "Sobol sequence exhausted the uint64 index domain" }

def next (table : SobolTable) (real : RandomReal) (scaled : Nat → Nat → V)
    (sequence : SobolSequence) (output : List V) : Result Unit × SobolSequence × List V :=
  if output.length ≠ sequence.dimensionCount then
    (.error
      { code := .shape, message := "Sobol output size differs from the sequence dimension" },
      sequence, output)
  else if output.isEmpty then
    (.ok (), sequence, output)
  else if sequence.exhausted then
    (.error endOfSequence, sequence, output)
  else
    match generateSobolPoint table real scaled sequence.index output with
    | (.error status, written) => (.error status, sequence, written)
    | (.ok (), written) =>
      if sequence.index = BitVec.allOnes 64 then
        (.ok (), { sequence with exhausted := true }, written)
      else
        (.ok (), { sequence with index := sequence.index + 1 }, written)

def reset (sequence : SobolSequence) (index : BitVec 64) : Result Unit × SobolSequence :=
  (.ok (), { sequence with index := index, exhausted := false })

def skip (sequence : SobolSequence) (count : BitVec 64) : Result Unit × SobolSequence :=
  if sequence.exhausted then
    (.error endOfSequence, sequence)
  else if count > BitVec.allOnes 64 - sequence.index then
    (.error { code := .overflow, message := "Sobol skip overflows its index" }, sequence)
  else
    (.ok (), { sequence with index := sequence.index + count })

def skipTo (sequence : SobolSequence) (index : BitVec 64) : Result Unit × SobolSequence :=
  (.ok (), { sequence with index := index, exhausted := false })

/-! ## The cursor -/

/-- The index that comes next; `2 ^ 64` behind the last one. -/
def cursor (sequence : SobolSequence) : Nat :=
  if sequence.exhausted then 2 ^ 64 else sequence.index.toNat

/-- The two fields agree, and there are direction words for every dimension. -/
structure WellFormed (sequence : SobolSequence) : Prop where
  dimensions : sequence.dimensionCount ≤ sobolDimensionCount
  last : sequence.exhausted = true → sequence.index = BitVec.allOnes 64

end SobolSequence

/-- The calls that change a sequence. -/
inductive SobolCall (V : Type) where
  | next (real : RandomReal) (output : List V)
  | skip (count : BitVec 64)
  | skipTo (index : BitVec 64)
  | reset (index : BitVec 64)

/-- An output has one element for every dimension. -/
def SobolCall.Sized (dimensionCount : Nat) : SobolCall V → Prop
  | .next _ output => output.length = dimensionCount
  | _ => True

/-- What a call does to the number of a sequence. -/
def SobolCall.move (dimensionCount cursor : Nat) : SobolCall V → Nat
  | .next _ _ => if dimensionCount = 0 then cursor else min (cursor + 1) (2 ^ 64)
  | .skip count => if cursor + count.toNat < 2 ^ 64 then cursor + count.toNat else cursor
  | .skipTo index => index.toNat
  | .reset index => index.toNat

namespace SobolSequence

/-- The sequence after a call. -/
def call (table : SobolTable) (scaled : Nat → Nat → V) (sequence : SobolSequence) :
    SobolCall V → SobolSequence
  | .next real output => (sequence.next table real scaled output).2.1
  | .skip count => (sequence.skip count).2
  | .skipTo index => (sequence.skipTo index).2
  | .reset index => (sequence.reset index).2

/-- The sequence after some calls. -/
def run (table : SobolTable) (scaled : Nat → Nat → V) (calls : List (SobolCall V))
    (sequence : SobolSequence) : SobolSequence :=
  calls.foldl (call table scaled) sequence

end SobolSequence

/-! ## Writing a point -/

section Points

variable {table : SobolTable} {real : RandomReal} {scaled : Nat → Nat → V}

theorem sobolCoordinate_ok {dimension : Nat} (hdimension : dimension < sobolDimensionCount)
    (index : BitVec 64) : ∃ value, sobolCoordinate table real scaled index dimension = .ok value := by
  have hworkspace : (List.replicate sobolDirectionWordCount (0 : BitVec 64)).length =
      sobolDirectionWordCount := List.length_replicate
  rcases @initialize_ok table dimension hdimension _ hworkspace with ⟨words, hwords⟩
  exact ⟨sobolUnit real scaled (coded (fun number => words.getD number 0) index), by
    rw [sobolCoordinate, sobolWord_eq hdimension hwords index, Result.ok_bind]⟩

/-- The loop writes the coordinates of the dimensions that it visits, and nothing else. -/
theorem writeCoordinates_ok {coordinate : Nat → Result V} {dimensions : List Nat}
    (hnodup : dimensions.Nodup)
    (hcoordinate : ∀ dimension ∈ dimensions, ∃ value, coordinate dimension = .ok value)
    (output : List V) (hinside : ∀ dimension ∈ dimensions, dimension < output.length) :
    ∃ point, writeCoordinates coordinate dimensions output = (.ok (), point) ∧
      point.length = output.length ∧
      (∀ dimension ∈ dimensions, ∃ value, coordinate dimension = .ok value ∧
        point[dimension]? = some value) ∧
      ∀ dimension ∉ dimensions, point[dimension]? = output[dimension]? := by
  -- On the dimensions to be written; no later write comes back to an earlier one.
  induction dimensions generalizing output with
  | nil => exact ⟨output, rfl, rfl, by simp, fun _ _ => rfl⟩
  | cons dimension dimensions ih =>
    rw [List.forall_mem_cons] at hcoordinate hinside
    rw [List.nodup_cons] at hnodup
    rcases hcoordinate.1 with ⟨value, hvalue⟩
    rcases ih hnodup.2 hcoordinate.2 (output.set dimension value)
        (fun other hother => by simpa using hinside.2 other hother) with
      ⟨point, hwrite, hlength, hvalues, hothers⟩
    refine ⟨point, ?_, hlength.trans List.length_set, ?_, fun other hother => ?_⟩
    · rw [writeCoordinates, hvalue]
      exact hwrite
    · rw [List.forall_mem_cons]
      refine ⟨⟨value, hvalue, ?_⟩, hvalues⟩
      rw [hothers dimension hnodup.1, List.getElem?_set_self hinside.1]
    · rw [List.mem_cons, not_or] at hother
      rw [hothers other hother.2, List.getElem?_set_ne (Ne.symm hother.1)]

/-- Where a point is not too long, every coordinate is written. -/
theorem generateSobolPoint_ok {output : List V} (hlength : output.length ≤ sobolDimensionCount)
    (index : BitVec 64) :
    ∃ point, generateSobolPoint table real scaled index output = (.ok (), point) ∧
      point.length = output.length ∧ ∀ dimension < output.length,
        ∃ value, sobolCoordinate table real scaled index dimension = .ok value ∧
          point[dimension]? = some value := by
  rcases @writeCoordinates_ok _ (sobolCoordinate table real scaled index) _ List.nodup_range
    (fun dimension hmem =>
      sobolCoordinate_ok ((List.mem_range.1 hmem).trans_le hlength) index) output
    (fun dimension hmem => List.mem_range.1 hmem) with ⟨point, hwrite, hpoint, hvalues, -⟩
  refine ⟨point, ?_, hpoint, fun dimension hlt => hvalues dimension (List.mem_range.2 hlt)⟩
  rw [generateSobolPoint, if_neg (not_lt.2 hlength)]
  exact hwrite

end Points

/-! ## Calls -/

namespace SobolSequence

section Calls

variable {table : SobolTable} {real : RandomReal} {scaled : Nat → Nat → V}
  {sequence : SobolSequence}

theorem cursor_le (sequence : SobolSequence) : sequence.cursor ≤ 2 ^ 64 := by
  unfold cursor
  split
  · exact le_rfl
  · exact sequence.index.isLt.le

/-- Below the end the flag is not set and the number is the index. -/
theorem cursor_lt_iff :
    sequence.cursor < 2 ^ 64 ↔ sequence.exhausted = false := by
  unfold cursor
  cases sequence.exhausted with
  | true => simp
  | false => simpa using sequence.index.isLt

/-- Before the end a call of `Next` writes the point of the cursor and moves by one. -/
theorem next_ok (h : sequence.WellFormed) {output : List V}
    (hsized : output.length = sequence.dimensionCount) (hdimensions : 0 < sequence.dimensionCount)
    (hcursor : sequence.cursor < 2 ^ 64) :
    ∃ sequence' point, sequence.next table real scaled output = (.ok (), sequence', point) ∧
      sequence'.WellFormed ∧ sequence'.dimensionCount = sequence.dimensionCount ∧
      sequence'.cursor = sequence.cursor + 1 ∧ point.length = output.length ∧
      ∀ dimension < sequence.dimensionCount, ∃ value,
        sobolCoordinate table real scaled (BitVec.ofNat 64 sequence.cursor) dimension = .ok value ∧
          point[dimension]? = some value := by
  have hflag := cursor_lt_iff.1 hcursor
  have hindex : BitVec.ofNat 64 sequence.cursor = sequence.index := by
    simp [cursor, hflag]
  have hnonempty : output.isEmpty = false := by
    rw [List.isEmpty_eq_false_iff, ← List.length_pos_iff, hsized]
    exact hdimensions
  rcases @generateSobolPoint_ok _ table real scaled output (hsized.trans_le h.dimensions)
    sequence.index with ⟨point, hwrite, hlength, hvalues⟩
  rw [hsized] at hvalues
  rw [hindex, next, if_neg (not_not_intro hsized), hnonempty, if_neg Bool.false_ne_true, hflag,
    if_neg Bool.false_ne_true, hwrite]
  simp only
  -- The last index is kept and the flag is set, so the cursor moves on all the same.
  by_cases hlast : sequence.index = BitVec.allOnes 64
  · refine ⟨_, point, if_pos hlast, ⟨h.dimensions, fun _ => hlast⟩, rfl, ?_, hlength, hvalues⟩
    simp [cursor, hflag, hlast]
  · refine ⟨_, point, if_neg hlast, ⟨h.dimensions, fun hset => ?_⟩, rfl, ?_, hlength, hvalues⟩
    · simp at hset
    · have hlt : sequence.index.toNat + 1 < 2 ^ 64 := by
        have hbound := sequence.index.isLt
        have hne : sequence.index.toNat ≠ 2 ^ 64 - 1 := fun heq =>
          hlast (BitVec.eq_of_toNat_eq (heq.trans BitVec.toNat_allOnes.symm))
        omega
      simp only [cursor, hflag, Bool.false_eq_true, if_false, BitVec.toNat_add]
      exact Nat.mod_eq_of_lt hlt

/-- At the end `Next` fails, and nothing changes. -/
theorem next_end {output : List V} (hsized : output.length = sequence.dimensionCount)
    (hdimensions : 0 < sequence.dimensionCount) (hcursor : sequence.cursor = 2 ^ 64) :
    sequence.next table real scaled output = (.error endOfSequence, sequence, output) := by
  have hflag : sequence.exhausted = true := by
    by_contra hclear
    have hlt := cursor_lt_iff.2 (Bool.not_eq_true _ ▸ hclear)
    omega
  have hnonempty : output.isEmpty = false := by
    rw [List.isEmpty_eq_false_iff, ← List.length_pos_iff, hsized]
    exact hdimensions
  rw [next, if_neg (not_not_intro hsized), hnonempty, if_neg Bool.false_ne_true, if_pos hflag]

/-- A point without coordinates is written without a move, also at the end. -/
theorem next_empty (hdimensions : sequence.dimensionCount = 0) :
    sequence.next table real scaled [] = (.ok (), sequence, []) := by
  have hsized : ([] : List V).length = sequence.dimensionCount := hdimensions.symm
  rw [next, if_neg (not_not_intro hsized)]
  rfl

/-- `Skip` moves below the end, or fails. -/
theorem skip_eq (sequence : SobolSequence) (count : BitVec 64) :
    (sequence.cursor + count.toNat < 2 ^ 64 →
      sequence.skip count = (.ok (), { sequence with index := sequence.index + count }) ∧
        (sequence.skip count).2.cursor = sequence.cursor + count.toNat) ∧
    (2 ^ 64 ≤ sequence.cursor + count.toNat →
      ∃ status, sequence.skip count = (.error status, sequence)) := by
  -- The comparison of the source, read as a bound on the cursor.
  have hroom : count > BitVec.allOnes 64 - sequence.index ↔
      ¬ sequence.index.toNat + count.toNat < 2 ^ 64 := by
    have hbound := sequence.index.isLt
    rw [gt_iff_lt, BitVec.lt_def, BitVec.toNat_sub, BitVec.toNat_allOnes]
    omega
  cases hflag : sequence.exhausted with
  -- An exhausted sequence stands at the end, and no skip is accepted, not even of zero.
  | true =>
    have hcursor : sequence.cursor = 2 ^ 64 := by simp [cursor, hflag]
    refine ⟨fun hlt => by omega, fun _ => ⟨endOfSequence, ?_⟩⟩
    rw [skip, if_pos hflag]
  | false =>
    have hcursor : sequence.cursor = sequence.index.toNat := by simp [cursor, hflag]
    rw [hcursor, skip, hflag, if_neg Bool.false_ne_true]
    constructor
    · intro hlt
      rw [if_neg (fun hover => hroom.1 hover hlt)]
      refine ⟨rfl, ?_⟩
      simp only [cursor, Bool.false_eq_true, if_false, BitVec.toNat_add]
      exact Nat.mod_eq_of_lt hlt
    · intro hle
      exact ⟨_, if_pos (hroom.2 (not_lt.2 hle))⟩

/-- A call keeps the sequence well-formed, and moves its number. -/
theorem call_spec (h : sequence.WellFormed) {action : SobolCall V}
    (hsized : action.Sized sequence.dimensionCount) :
    (sequence.call table scaled action).WellFormed ∧
      (sequence.call table scaled action).dimensionCount = sequence.dimensionCount ∧
      (sequence.call table scaled action).cursor =
        action.move sequence.dimensionCount sequence.cursor := by
  cases action with
  | next real output =>
    have hlength : output.length = sequence.dimensionCount := hsized
    -- Without dimensions there is nothing to write and the cursor stays.
    by_cases hzero : sequence.dimensionCount = 0
    · have hempty : output = [] := List.length_eq_zero_iff.1 (hlength.trans hzero)
      have hcall : sequence.call table scaled (.next real output) = sequence := by
        rw [call, hempty, next_empty hzero]
      rw [hcall, SobolCall.move, if_pos hzero]
      exact ⟨h, rfl, rfl⟩
    · have hpositive : 0 < sequence.dimensionCount := Nat.pos_of_ne_zero hzero
      rw [SobolCall.move, if_neg hzero]
      -- At the end the call fails and leaves the sequence as it is.
      rcases Nat.eq_or_lt_of_le sequence.cursor_le with hend | hlt
      · have hcall : sequence.call table scaled (.next real output) = sequence := by
          rw [call, next_end hlength hpositive hend]
        rw [hcall, hend]
        exact ⟨h, rfl, rfl⟩
      · rcases @next_ok _ table real scaled _ h _ hlength hpositive hlt with
          ⟨sequence', point, hnext, hformed, hcount, hcursor, -⟩
        have hcall : sequence.call table scaled (.next real output) = sequence' := by
          rw [call, hnext]
        rw [hcall, hcursor, Nat.min_eq_left hlt]
        exact ⟨hformed, hcount, rfl⟩
  | skip count =>
    rw [SobolCall.move]
    rcases Nat.lt_or_ge (sequence.cursor + count.toNat) (2 ^ 64) with hlt | hge
    · rcases (skip_eq sequence count).1 hlt with ⟨hskip, hcursor⟩
      have hflag : sequence.exhausted = false :=
        cursor_lt_iff.1 (lt_of_le_of_lt (Nat.le_add_right _ _) hlt)
      rw [if_pos hlt, call, hcursor, hskip]
      exact ⟨⟨h.dimensions, fun hset => by simp [hflag] at hset⟩, rfl, rfl⟩
    · rcases (skip_eq sequence count).2 hge with ⟨status, hskip⟩
      rw [if_neg (not_lt.2 hge), call, hskip]
      exact ⟨h, rfl, rfl⟩
  -- Both of these drop the flag along with the old index.
  | skipTo index =>
    exact ⟨⟨h.dimensions, fun hset => by simp [call, skipTo] at hset⟩, rfl, rfl⟩
  | reset index =>
    exact ⟨⟨h.dimensions, fun hset => by simp [call, reset] at hset⟩, rfl, rfl⟩

/-- Any calls move the number of the sequence one after the other. -/
theorem cursor_run (h : sequence.WellFormed) {actions : List (SobolCall V)}
    (hsized : ∀ action ∈ actions, action.Sized sequence.dimensionCount) :
    (run table scaled actions sequence).WellFormed ∧
      (run table scaled actions sequence).dimensionCount = sequence.dimensionCount ∧
      (run table scaled actions sequence).cursor =
        actions.foldl (SobolCall.move sequence.dimensionCount) sequence.cursor := by
  -- By induction over the calls; `call_spec` is the step.
  induction actions generalizing sequence with
  | nil => exact ⟨h, rfl, rfl⟩
  | cons action actions ih =>
    rw [List.forall_mem_cons] at hsized
    rcases @call_spec _ table scaled _ h _ hsized.1 with ⟨hformed, hcount, hcursor⟩
    have hrest := @ih (sequence.call table scaled action) hformed (by rw [hcount]; exact hsized.2)
    rw [hcount, hcursor] at hrest
    exact hrest

/-- Several calls of `Next` move by one each, up to the end. -/
theorem cursor_replicate_next (h : sequence.WellFormed) {output : List V}
    (hsized : output.length = sequence.dimensionCount) (hdimensions : 0 < sequence.dimensionCount)
    (count : Nat) :
    (run table scaled (List.replicate count (.next real output)) sequence).cursor =
      min (sequence.cursor + count) (2 ^ 64) := by
  have hactions : ∀ action ∈ List.replicate count (SobolCall.next real output),
      action.Sized sequence.dimensionCount := by
    intro action haction
    rw [List.eq_of_mem_replicate haction]
    exact hsized
  rw [(cursor_run h hactions).2.2]
  have hle := sequence.cursor_le
  generalize sequence.cursor = cursor at hle ⊢
  clear hactions
  -- The cursor stays at the end once it got there, hence the minimum.
  induction count generalizing cursor with
  | zero => exact (Nat.min_eq_left hle).symm
  | succ count ih =>
    rw [List.replicate_succ, List.foldl_cons, SobolCall.move, if_neg (by omega),
      ih _ (Nat.min_le_right _ _)]
    omega

end Calls

end SobolSequence

/-- What the calls do to a sequence that stands at its cursor. -/
structure SobolSequence.Follows (table : SobolTable) (scaled : Nat → Nat → V)
    (sequence : SobolSequence) : Prop where
  cursor_le : sequence.cursor ≤ 2 ^ 64
  exhausted_iff : sequence.exhausted = true ↔ sequence.cursor = 2 ^ 64
  /-- `Next` writes the point of the cursor and moves by one. -/
  next_ok : ∀ real output, output.length = sequence.dimensionCount → sequence.cursor < 2 ^ 64 →
    ∃ sequence' point, sequence.next table real scaled output = (.ok (), sequence', point) ∧
      sequence'.cursor = sequence.cursor + 1 ∧ point.length = output.length ∧
      ∀ dimension < sequence.dimensionCount, ∃ value,
        sobolCoordinate table real scaled (BitVec.ofNat 64 sequence.cursor) dimension = .ok value ∧
          point[dimension]? = some value
  -- At the end every further call fails and changes nothing.
  next_end : ∀ real output, output.length = sequence.dimensionCount → sequence.cursor = 2 ^ 64 →
    sequence.next table real scaled output = (.error endOfSequence, sequence, output)
  /-- `Skip` does what as many calls of `Next` do, if these stay below the end. -/
  skip_ok : ∀ real output count, output.length = sequence.dimensionCount →
    (run table scaled (List.replicate count.toNat (.next real output)) sequence).cursor < 2 ^ 64 →
      (sequence.skip count).1 = .ok () ∧ (sequence.skip count).2.cursor =
        (run table scaled (List.replicate count.toNat (.next real output)) sequence).cursor
  skip_error : ∀ real output count, output.length = sequence.dimensionCount →
    (run table scaled (List.replicate count.toNat (.next real output)) sequence).cursor = 2 ^ 64 →
      ∃ status, sequence.skip count = (.error status, sequence)
  skipTo_ok : ∀ index, (sequence.skipTo index).1 = .ok () ∧
    (sequence.skipTo index).2.cursor = index.toNat
  reset_ok : ∀ index, (sequence.reset index).1 = .ok () ∧
    (sequence.reset index).2.cursor = index.toNat

/-- After any calls the sequence stands where the calls have moved it one after the other.  With
dimensions it follows its cursor; without dimensions `Next` succeeds and changes nothing. -/
theorem sobolSequence_follows (table : SobolTable) (scaled : Nat → Nat → V) {dimensionCount : Nat}
    {initialIndex : BitVec 64} {sequence : SobolSequence}
    (hcreate : SobolSequence.create dimensionCount initialIndex = .ok sequence)
    (actions : List (SobolCall V)) (hsized : ∀ action ∈ actions, action.Sized dimensionCount) :
    (SobolSequence.run table scaled actions sequence).dimensionCount = dimensionCount ∧
      (SobolSequence.run table scaled actions sequence).cursor =
        actions.foldl (SobolCall.move dimensionCount) initialIndex.toNat ∧
      (0 < dimensionCount →
        (SobolSequence.run table scaled actions sequence).Follows table scaled) ∧
      (dimensionCount = 0 → ∀ real,
        (SobolSequence.run table scaled actions sequence).next table real scaled [] =
          (.ok (), SobolSequence.run table scaled actions sequence, [])) := by
  rw [SobolSequence.create, Result.failIf_bind_eq_ok_iff] at hcreate
  rcases hcreate with ⟨hle, hsequence⟩
  cases hsequence
  have hformed : SobolSequence.WellFormed { dimensionCount := dimensionCount, index := initialIndex } :=
    ⟨not_lt.1 hle, fun hset => by cases hset⟩
  rcases @SobolSequence.cursor_run _ table scaled _ hformed actions hsized with
    ⟨hrun, hcount, hcursor⟩
  refine ⟨hcount, hcursor, fun hdimensions => ?_, fun hzero real =>
    SobolSequence.next_empty (hcount.trans hzero)⟩
  -- From here only what holds of every reachable state is used.
  generalize SobolSequence.run table scaled actions
    { dimensionCount := dimensionCount, index := initialIndex } = reached at hrun hcount ⊢
  have hpositive : 0 < reached.dimensionCount := by
    rw [hcount]
    exact hdimensions
  exact
    { cursor_le := reached.cursor_le
      exhausted_iff := by
        have hlt := @SobolSequence.cursor_lt_iff reached
        have hle := reached.cursor_le
        rw [← Bool.not_eq_false, ← hlt, not_lt]
        exact ⟨le_antisymm hle, fun heq => heq.ge⟩
      next_ok := by
        intro real output hlength hlt
        rcases @SobolSequence.next_ok _ table real scaled _ hrun _ hlength hpositive hlt with
          ⟨sequence', point, hnext, -, -, hmoved, hpoint⟩
        exact ⟨sequence', point, hnext, hmoved, hpoint⟩
      next_end := fun real output hlength hend => SobolSequence.next_end hlength hpositive hend
      skip_ok := by
        intro real output count hlength hlt
        rw [SobolSequence.cursor_replicate_next hrun hlength hpositive] at hlt ⊢
        have hroom : reached.cursor + count.toNat < 2 ^ 64 := by omega
        rcases (SobolSequence.skip_eq reached count).1 hroom with ⟨hskip, hmoved⟩
        rw [Nat.min_eq_left hroom.le]
        exact ⟨congrArg Prod.fst hskip, hmoved⟩
      skip_error := by
        intro real output count hlength hend
        rw [SobolSequence.cursor_replicate_next hrun hlength hpositive] at hend
        exact (SobolSequence.skip_eq reached count).2 (by omega)
      skipTo_ok := fun index => ⟨rfl, rfl⟩
      reset_ok := fun index => ⟨rfl, rfl⟩ }

/-- The last point of a sequence, and the calls behind it. -/
theorem sobolSequence_follows_sample :
    ∃ sequence, SobolSequence.create 1 0 = .ok sequence ∧
      (SobolSequence.run firstRows (fun bits _ => bits)
        [.skipTo (BitVec.allOnes 64), .next .double [0], .skip 0, .reset 3, .next .float [0]]
        sequence).cursor = 4 := by
  have hcreate : SobolSequence.create 1 0 = .ok { dimensionCount := 1, index := 0 } := rfl
  refine ⟨_, hcreate, ?_⟩
  exact (sobolSequence_follows firstRows (fun bits _ => bits) hcreate _
    (by simp [SobolCall.Sized])).2.1

/-- A sequence without dimensions succeeds in `Next` and stays where it is. -/
theorem sobolSequence_stays :
    ∃ sequence, SobolSequence.create 0 42 = .ok sequence ∧ sequence.cursor = 42 ∧
      SobolSequence.next firstRows .double (fun bits _ => bits) sequence [] =
        (.ok (), sequence, []) :=
  ⟨_, rfl, rfl, SobolSequence.next_empty rfl⟩

end Random
end AscCpp
