import AscCpp.Core.Effect
import AscCpp.Dense.Subview
import AscCpp.Random.LogicalElement
import AscCpp.Random.Philox

/-!
# DenseFill — filling a dense view with addressed values

The value of an element depends on the number of the element alone, so a fill can be cut into slabs.

- `exec_fillDenseUniform01_ok_iff`: when a fill succeeds, and what it leaves behind.
- `filled_slab`: a fill of a slab stores what the fill of the whole view stores there.
- `fillDenseUniform01_correct`, `fillSlabs_correct`: one fill, and a fill slab by slab.
-/

namespace AscCpp
namespace Random

open AscCpp.Core Library AscCpp.Dense

variable {Cell V : Type} {type : Representation Cell V} {rank : Nat}

/-! ## Values -/

/-- The floating-point types that the generators produce. -/
inductive RandomReal where
  | float
  | double
  deriving DecidableEq, Repr

/-- `WordsPerElement`. -/
def RandomReal.wordsPerElement : RandomReal → BitVec 64
  | .float => 1
  | .double => 2

/-- `Uniform01<float>`; `scaled bits digits` is the number `bits / 2 ^ digits` in the type. -/
def uniform01Float (scaled : Nat → Nat → V) (word : Word) : V :=
  scaled (word >>> 8).toNat 24

/-- `Uniform01<double>`. -/
def uniform01Double (scaled : Nat → Nat → V) (high low : Word) : V :=
  let bits : BitVec 64 := high.setWidth 64 <<< 32 ||| low.setWidth 64
  scaled (bits >>> 11).toNat 53

def generateUniform01 (real : RandomReal) (scaled : Nat → Nat → V) (stream : RandomStream)
    (subsequence : RandomSubsequence) (offset : RandomOffset) : V :=
  match real with
  | .float => uniform01Float scaled (generatePhilox4x32Word stream subsequence offset)
  | .double =>
    uniform01Double scaled (generatePhilox4x32Word stream subsequence offset)
      (generatePhilox4x32Word stream subsequence (offset + 1))

/-! ## The fill -/

def validateSerialHost (context : ExecutionContext) (view : DenseView type rank)
    (operation : String) : Result Unit := do
  failIf (context.backend ≠ .serial) { code := .unsupported, message := operation }
  failIf (view.memorySpace ≠ .host ∨ context.canAccess view.memorySpace = false)
    { code := .memoryAccess, message := "Dense random operation requires host storage" }

/-- The checks of `FillDenseUniform01` on sizes: the number of elements and the next offset.  The
range of `std::uint64_t` is that of `std::size_t`. -/
def nextOffset (real : RandomReal) (destination : DenseView type rank) (offset : RandomOffset) :
    Result (Int × RandomOffset) := do
  let logicalSize ← checkedCast sizeType destination.mapping.logicalSize
  let wordCount ← checkedMultiply sizeType logicalSize real.wordsPerElement.toNat
  let next ← advanceRandomOffset offset (BitVec.ofInt 64 wordCount)
  .ok (logicalSize, next)

def fillDenseUniform01 (real : RandomReal) (scaled : Nat → Nat → V) (context : ExecutionContext)
    (destination : DenseView type rank) (stream : RandomStream) (subsequence : RandomSubsequence)
    (offset : RandomOffset) : Effect (Nat → Cell) RandomOffset := do
  Effect.ofResult
    (validateSerialHost context destination "Dense random fill requires serial execution")
  let sizes ← Effect.ofResult (nextOffset real destination offset)
  forM (List.range sizes.1.toNat) fun ordinal =>
    Effect.store type (logicalElement destination ordinal)
      (generateUniform01 real scaled stream subsequence
        (offset + BitVec.ofNat 64 ordinal * real.wordsPerElement))
  pure sizes.2

/-- Fills of consecutive slabs along the last dimension, each from the offset that the one before
returned. -/
def fillSlabs (real : RandomReal) (scaled : Nat → Nat → V) (context : ExecutionContext)
    (view : DenseView type (rank + 1)) (stream : RandomStream) (subsequence : RandomSubsequence) :
    Nat → List Nat → RandomOffset → Effect (Nat → Cell) RandomOffset
  | _, [], offset => pure offset
  | start, count :: counts, offset => do
    let slab ← Effect.ofResult
      (view.subview (setLast (List.Vector.replicate (rank + 1) 0) start)
        (setLast view.mapping.extents count))
    let next ← fillDenseUniform01 real scaled context slab stream subsequence offset
    fillSlabs real scaled context view stream subsequence (start + count) counts next

theorem validateSerialHost_ok_iff {context : ExecutionContext} {view : DenseView type rank}
    {operation : String} :
    validateSerialHost context view operation = .ok () ↔
      context.backend = .serial ∧ view.memorySpace = .host := by
  rw [validateSerialHost, Result.failIf_bind_eq_ok_iff, Result.failIf_eq_ok_iff, not_or, not_not,
    not_not]
  constructor
  · rintro ⟨hserial, hhost, -⟩
    exact ⟨hserial, hhost⟩
  · rintro ⟨hserial, hhost⟩
    refine ⟨hserial, hhost, ?_⟩
    simp [hhost, ExecutionContext.canAccess_host hserial]

theorem advanceRandomOffset_eq (offset : RandomOffset) {wordCount : Nat}
    (hcount : wordCount < 2 ^ 64) :
    advanceRandomOffset offset (BitVec.ofNat 64 wordCount) =
      if offset.toNat + wordCount < 2 ^ 64 then .ok (offset + BitVec.ofNat 64 wordCount)
      else .error { code := .overflow, message := "Random word offset overflow" } := by
  have hoffset := offset.isLt
  -- The source compares with the room above the offset, so that nothing can wrap.
  have hcondition : BitVec.ofNat 64 wordCount > BitVec.allOnes 64 - offset ↔
      ¬ offset.toNat + wordCount < 2 ^ 64 := by
    rw [gt_iff_lt, BitVec.lt_def, BitVec.toNat_sub, BitVec.toNat_allOnes, BitVec.toNat_ofNat,
      Nat.mod_eq_of_lt hcount]
    omega
  unfold advanceRandomOffset
  by_cases hfits : offset.toNat + wordCount < 2 ^ 64
  · rw [if_neg (fun hover => hcondition.1 hover hfits), if_pos hfits]
  · rw [if_pos (hcondition.2 hfits), if_neg hfits]

/-- The number of elements, as the layout and as the loops count it. -/
theorem logicalSize_eq_boxSize (layout : DenseLayout rank) :
    layout.logicalSize = boxSize layout.extents := by
  rw [layout.logicalSize_eq, boxSize_eq_prod]
  exact toNat_prod (validateExtents_nonneg layout.logical)

/-- The words that a fill of so many elements uses. -/
def RandomReal.wordCount (real : RandomReal) (count : Nat) : Nat :=
  count * real.wordsPerElement.toNat

theorem nextOffset_eq (real : RandomReal) (destination : DenseView type rank)
    (offset : RandomOffset) :
    nextOffset real destination offset =
      if offset.toNat + real.wordCount (boxSize destination.mapping.extents) < 2 ^ 64 then
        .ok ((boxSize destination.mapping.extents : Int),
          offset + BitVec.ofNat 64 (real.wordCount (boxSize destination.mapping.extents)))
      else .error { code := .overflow, message := "Random word offset overflow" } := by
  have hlogical := destination.mapping.logical
  -- A valid mapping has at most `int64.maximum` elements, and a type at most two words.
  have hfits : (boxSize destination.mapping.extents : Int) ≤ int64.maximum := by
    rw [← logicalSize_eq_boxSize, destination.mapping.logicalSize_eq]
    exact (prod_le_leadingProduct (validateExtents_nonneg hlogical)).trans
      (validateExtents_ok_iff.1 hlogical).2.1
  have hwords : real.wordsPerElement.toNat ≤ 2 := by cases real <;> decide
  have hsigned : int64.maximum = 9223372036854775807 := by decide
  have hunsigned : sizeType.maximum = 18446744073709551615 := by decide
  have hproduct : real.wordCount (boxSize destination.mapping.extents) ≤
      boxSize destination.mapping.extents * 2 := Nat.mul_le_mul_left _ hwords
  have hcast : checkedCast sizeType destination.mapping.logicalSize =
      .ok (boxSize destination.mapping.extents : Int) := by
    rw [logicalSize_eq_boxSize]
    exact checkedCast_ok ⟨sizeType.minimum_nonpos.trans (Int.natCast_nonneg _), by omega⟩
  have hmultiply : checkedMultiply sizeType (boxSize destination.mapping.extents)
      real.wordsPerElement.toNat =
        .ok (real.wordCount (boxSize destination.mapping.extents) : Int) := by
    rw [checkedMultiply_of_nonneg (Int.natCast_nonneg _) (Int.natCast_nonneg _), ← Nat.cast_mul]
    exact if_pos (by unfold RandomReal.wordCount at hproduct; omega)
  -- Neither the cast nor the product can fail; only the advance of the offset can.
  rw [nextOffset, hcast, Result.ok_bind, hmultiply, Result.ok_bind, BitVec.ofInt_natCast,
    advanceRandomOffset_eq offset (by omega)]
  split <;> rfl

/-! ## What a fill leaves behind -/

/-- The memory after the elements from a first one on have been given their values. -/
def filled (real : RandomReal) (scaled : Nat → Nat → V) (view : DenseView type rank)
    (stream : RandomStream) (subsequence : RandomSubsequence) (offset : RandomOffset)
    (first count : Nat) (memory : Nat → Cell) : Nat → Cell :=
  (List.range count).foldl
    (fun memory ordinal => type.store memory (logicalElement view (first + ordinal))
      (generateUniform01 real scaled stream subsequence
        (offset + BitVec.ofNat 64 ordinal * real.wordsPerElement))) memory

variable {real : RandomReal} {scaled : Nat → Nat → V} {context : ExecutionContext}
  {stream : RandomStream} {subsequence : RandomSubsequence} {offset next : RandomOffset}
  {memory memory' : Nat → Cell}

theorem exec_stores (ordinals : List Nat) (address : Nat → Nat) (value : Nat → V)
    (memory : Nat → Cell) :
    Effect.exec (forM ordinals fun ordinal => Effect.store type (address ordinal) (value ordinal))
        memory =
      some (.ok (), ordinals.foldl
        (fun memory ordinal => type.store memory (address ordinal) (value ordinal)) memory) := by
  induction ordinals generalizing memory with
  | nil => rfl
  | cons ordinal ordinals ih =>
    rw [Effect.exec_forM_cons, Effect.exec_store, Option.bind_some]
    exact ih _

/-- A fill succeeds when the offset behind it can be counted, and then it stores its values. -/
theorem exec_fillDenseUniform01 {destination : DenseView type rank}
    (hserial : context.backend = .serial) (hhost : destination.memorySpace = .host) :
    Effect.exec (fillDenseUniform01 real scaled context destination stream subsequence offset)
        memory =
      if offset.toNat + real.wordCount (boxSize destination.mapping.extents) < 2 ^ 64 then
        some (.ok (offset + BitVec.ofNat 64 (real.wordCount (boxSize destination.mapping.extents))),
          filled real scaled destination stream subsequence offset 0
            (boxSize destination.mapping.extents) memory)
      else
        some (.error { code := .overflow, message := "Random word offset overflow" }, memory) := by
  unfold fillDenseUniform01
  rw [Effect.exec_ofResult_bind, validateSerialHost_ok_iff.2 ⟨hserial, hhost⟩]
  simp only
  rw [Effect.exec_ofResult_bind, nextOffset_eq]
  -- The overflow is found before the first store, so the memory is the old one.
  by_cases hfits : offset.toNat + real.wordCount (boxSize destination.mapping.extents) < 2 ^ 64
  · rw [if_pos hfits, if_pos hfits]
    simp only [Int.toNat_natCast]
    rw [Effect.exec_bind, exec_stores, Option.bind_some]
    simp only [Effect.exec_pure, filled, Nat.zero_add]
  · rw [if_neg hfits, if_neg hfits]

/-- The induction is on the number of the elements that have been filled. -/
theorem values_filled (view : DenseView type rank) (offset : RandomOffset) {count : Nat}
    (hcount : count ≤ boxSize view.mapping.extents) (memory : Nat → Cell) :
    view.family.Untouched memory
        (filled real scaled view stream subsequence offset 0 count memory) ∧
      ∀ number : Fin (boxSize view.mapping.extents),
        view.family.values (filled real scaled view stream subsequence offset 0 count memory) number =
          if number.val < count then
            generateUniform01 real scaled stream subsequence
              (offset + BitVec.ofNat 64 number * real.wordsPerElement)
          else view.family.values memory number := by
  -- By induction over the ordinals written so far; the mapping gives them distinct cells.
  induction count with
  | zero => exact ⟨.refl memory, fun number => (if_neg (Nat.not_lt_zero _)).symm⟩
  | succ count ih =>
    rcases ih (by omega) with ⟨huntouched, hvalues⟩
    have hlast : filled real scaled view stream subsequence offset 0 (count + 1) memory =
        type.store (filled real scaled view stream subsequence offset 0 count memory)
          (view.family.address ⟨count, hcount⟩)
          (generateUniform01 real scaled stream subsequence
            (offset + BitVec.ofNat 64 count * real.wordsPerElement)) := by
      unfold filled
      rw [List.range_succ, List.foldl_append, List.foldl_cons, List.foldl_nil, Nat.zero_add,
        logicalElement_eq view hcount]
      rfl
    rw [hlast]
    refine ⟨huntouched.trans (view.family.untouched_store _ _ _), fun number => ?_⟩
    rw [view.family.values_store]
    -- The element just stored, or another one.
    by_cases hnumber : number = ⟨count, hcount⟩
    · rw [hnumber, Function.update_self, if_pos (Nat.lt_succ_self count)]
    · have hne : number.val ≠ count := fun heq => hnumber (Fin.ext heq)
      rw [Function.update_of_ne hnumber, hvalues]
      exact if_congr (by omega) rfl rfl

/-- A fill goes on where a shorter one has ended. -/
theorem filled_add (view : DenseView type rank) (offset : RandomOffset) (first count count' : Nat)
    (memory : Nat → Cell) :
    filled real scaled view stream subsequence offset first (count + count') memory =
      filled real scaled view stream subsequence (offset + BitVec.ofNat 64 (real.wordCount count))
        (first + count) count'
        (filled real scaled view stream subsequence offset first count memory) := by
  unfold filled
  rw [List.range_add, List.foldl_append, List.foldl_map]
  congr 1
  funext memory ordinal
  -- The offset moves on modulo 2 ^ 64, as the additions of the source do.
  have hoffset : offset + BitVec.ofNat 64 (count + ordinal) * real.wordsPerElement =
      offset + BitVec.ofNat 64 (real.wordCount count) +
        BitVec.ofNat 64 ordinal * real.wordsPerElement := by
    have hwords : BitVec.ofNat 64 (real.wordCount count) =
        BitVec.ofNat 64 count * real.wordsPerElement := by
      rw [RandomReal.wordCount, BitVec.ofNat_mul, BitVec.ofNat_toNat, BitVec.setWidth_eq]
    rw [hwords, BitVec.ofNat_add, BitVec.add_mul, BitVec.add_assoc]
  rw [hoffset, Nat.add_assoc]

section Slabs

variable {view slab : DenseView type (rank + 1)} {start count : Nat}

theorem boxSize_slab (extents : Shape (rank + 1)) (count : Nat) :
    boxSize (setLast extents count) = sliceSize extents * count := by
  rw [boxSize_eq_slices, sliceSize_setLast, setLast_get, if_pos rfl, Int.toNat_natCast]

/-- An element of a slab is an element of the view, with a number behind the slabs before. -/
theorem logicalElement_slab
    (h : view.IsSubview slab (setLast (List.Vector.replicate (rank + 1) 0) start)
      (setLast view.mapping.extents count)) {ordinal : Nat}
    (hordinal : ordinal < sliceSize view.mapping.extents * count) :
    logicalElement slab ordinal =
      logicalElement view (start * sliceSize view.mapping.extents + ordinal) := by
  have hlast := h.contains (Fin.last rank)
  rw [setLast_get, if_pos rfl, setLast_get, if_pos rfl] at hlast
  have hslab : ordinal < boxSize slab.mapping.extents := by
    rw [h.extents_eq, boxSize_slab]
    exact hordinal
  have hview : start * sliceSize view.mapping.extents + ordinal <
      boxSize view.mapping.extents := by
    rw [boxSize_eq_slices]
    calc start * sliceSize view.mapping.extents + ordinal
        < start * sliceSize view.mapping.extents + sliceSize view.mapping.extents * count :=
          Nat.add_lt_add_left hordinal _
      _ = sliceSize view.mapping.extents * (start + count) := by
          rw [Nat.mul_add, Nat.mul_comm start]
      _ ≤ _ := Nat.mul_le_mul_left _ (by omega)
  -- The last coordinate is the slowest, so a slab is a run of consecutive ordinals.
  have hcoordinate : DenseView.shifted (setLast (List.Vector.replicate (rank + 1) 0) start)
      (coordinateAt slab.mapping.extents ordinal) =
        coordinateAt view.mapping.extents
          (start * sliceSize view.mapping.extents + ordinal) := by
    apply List.Vector.ext
    intro dimension
    rw [DenseView.shifted_get, h.extents_eq, coordinateAt_slab _ hlast.2.2 hordinal]
  rw [logicalElement_eq slab hslab, logicalElement_eq view hview, ← hcoordinate]
  exact h.addressOf_eq (coordinateAt_within hslab)

theorem filled_slab
    (h : view.IsSubview slab (setLast (List.Vector.replicate (rank + 1) 0) start)
      (setLast view.mapping.extents count)) (offset : RandomOffset) (memory : Nat → Cell) :
    filled real scaled slab stream subsequence offset 0 (sliceSize view.mapping.extents * count)
        memory =
      filled real scaled view stream subsequence offset (start * sliceSize view.mapping.extents)
        (sliceSize view.mapping.extents * count) memory := by
  apply List.foldl_ext
  intro memory ordinal hordinal
  rw [Nat.zero_add, logicalElement_slab h (List.mem_range.1 hordinal)]

theorem exists_slab
    (hfits : ∀ dimension, view.mapping.extents.get dimension ≤ int64.maximum)
    (hcount : ((start + count : Nat) : Int) ≤ view.mapping.extents.get (Fin.last rank)) :
    ∃ slab, view.subview (setLast (List.Vector.replicate (rank + 1) 0) start)
      (setLast view.mapping.extents count) = .ok slab := by
  apply DenseView.exists_subview _ hfits
  intro dimension
  have hextent := view.mapping.extents_nonneg dimension
  rw [setLast_get, setLast_get]
  -- Only the last dimension is cut.
  by_cases hdimension : dimension = Fin.last rank
  · rw [if_pos hdimension, if_pos hdimension, hdimension]
    omega
  · rw [if_neg hdimension, if_neg hdimension, List.Vector.get_replicate]
    omega

theorem RandomReal.wordCount_add (real : RandomReal) (count count' : Nat) :
    real.wordCount (count + count') = real.wordCount count + real.wordCount count' :=
  Nat.add_mul _ _ _

/-- The slabs behind a start fill what a single fill from there on would; the induction is on the
slabs that are still to come. -/
theorem exec_fillSlabs_ok_iff (hserial : context.backend = .serial)
    (hhost : view.memorySpace = .host)
    (hfits : ∀ dimension, view.mapping.extents.get dimension ≤ int64.maximum) {counts : List Nat}
    {start : Nat} (hcounts : ((start + counts.sum : Nat) : Int) ≤
      view.mapping.extents.get (Fin.last rank)) :
    Effect.exec (fillSlabs real scaled context view stream subsequence start counts offset) memory =
        some (.ok next, memory') ↔
      offset.toNat + real.wordCount (sliceSize view.mapping.extents * counts.sum) < 2 ^ 64 ∧
        next = offset +
          BitVec.ofNat 64 (real.wordCount (sliceSize view.mapping.extents * counts.sum)) ∧
        memory' = filled real scaled view stream subsequence offset
          (start * sliceSize view.mapping.extents) (sliceSize view.mapping.extents * counts.sum)
          memory := by
  -- On the slabs that are left, each started at the offset its predecessor returned.
  induction counts generalizing start offset memory with
  | nil =>
    have hoffset := offset.isLt
    rw [fillSlabs, Effect.exec_pure]
    simp only [List.sum_nil, Nat.mul_zero, RandomReal.wordCount, Nat.zero_mul, Nat.add_zero,
      BitVec.add_zero, filled, List.range_zero, List.foldl_nil, hoffset, true_and]
    constructor
    · intro h
      cases h
      exact ⟨rfl, rfl⟩
    · rintro ⟨rfl, rfl⟩
      rfl
  | cons count counts ih =>
    rw [List.sum_cons] at hcounts ⊢
    rcases exists_slab hfits (by omega : ((start + count : Nat) : Int) ≤ _) with ⟨slab, hslab⟩
    have hsub := DenseView.isSubview_of_ok hslab
    have hsize : boxSize slab.mapping.extents = sliceSize view.mapping.extents * count := by
      rw [hsub.extents_eq, boxSize_slab]
    have hrest := @ih (offset + BitVec.ofNat 64 (real.wordCount
      (sliceSize view.mapping.extents * count)))
      (filled real scaled view stream subsequence offset (start * sliceSize view.mapping.extents)
        (sliceSize view.mapping.extents * count) memory)
      (start + count) (by omega)
    rw [fillSlabs, Effect.exec_ofResult_bind, hslab]
    simp only
    rw [Effect.exec_bind, exec_fillDenseUniform01 hserial (hsub.memorySpace.trans hhost), hsize,
      filled_slab hsub, Nat.mul_add, RandomReal.wordCount_add, filled_add]
    -- Either this slab fits and the rest is the hypothesis, or the whole does not fit either.
    by_cases hthis : offset.toNat + real.wordCount (sliceSize view.mapping.extents * count) < 2 ^ 64
    · rw [if_pos hthis, Option.bind_some]
      refine hrest.trans ?_
      have hnext : (offset + BitVec.ofNat 64 (real.wordCount
          (sliceSize view.mapping.extents * count))).toNat =
            offset.toNat + real.wordCount (sliceSize view.mapping.extents * count) := by
        rw [BitVec.toNat_add, BitVec.toNat_ofNat, Nat.add_mod_mod, Nat.mod_eq_of_lt hthis]
      have hfirst : (start + count) * sliceSize view.mapping.extents =
          start * sliceSize view.mapping.extents + sliceSize view.mapping.extents * count := by
        rw [Nat.add_mul, Nat.mul_comm count]
      rw [hnext, hfirst, Nat.add_assoc, BitVec.add_assoc, ← BitVec.ofNat_add]
    · rw [if_neg hthis, Option.bind_some]
      constructor
      · intro h
        cases h
      · rintro ⟨hall, -⟩
        omega

end Slabs

/-! ## The results -/

section Results

variable {destination : DenseView type rank}

theorem offset_advance (real : RandomReal) (offset : RandomOffset) (count : Nat) :
    offset + BitVec.ofNat 64 (real.wordCount count) =
      BitVec.ofNat 64 (offset.toNat + count * real.wordsPerElement.toNat) := by
  rw [RandomReal.wordCount, BitVec.ofNat_add, BitVec.ofNat_toNat, BitVec.setWidth_eq]

theorem fillDenseUniform01_fills (hserial : context.backend = .serial)
    (hhost : destination.memorySpace = .host)
    (hfits : offset.toNat +
      boxSize destination.mapping.extents * real.wordsPerElement.toNat < 2 ^ 64) :
    ∃ memory', Effect.exec
        (fillDenseUniform01 real scaled context destination stream subsequence offset) memory =
          some (.ok (BitVec.ofNat 64 (offset.toNat +
            boxSize destination.mapping.extents * real.wordsPerElement.toNat)), memory') ∧
      destination.family.Untouched memory memory' ∧
      ∀ number < boxSize destination.mapping.extents,
        destination.read memory' (coordinateAt destination.mapping.extents number) =
          some (generateUniform01 real scaled stream subsequence
            (BitVec.ofNat 64 (offset.toNat + number * real.wordsPerElement.toNat))) := by
  have hrun := @exec_fillDenseUniform01 _ _ _ _ real scaled _ stream subsequence offset memory
    destination hserial hhost
  rw [offset_advance] at hrun
  rcases values_filled destination offset le_rfl memory with ⟨huntouched, hvalues⟩
  refine ⟨_, hrun.trans (if_pos hfits), huntouched, fun number hnumber => ?_⟩
  have hvalue := hvalues ⟨number, hnumber⟩
  -- The words of an element are counted from its ordinal alone.
  have hword : BitVec.ofNat 64 number * real.wordsPerElement =
      BitVec.ofNat 64 (real.wordCount number) := by
    rw [RandomReal.wordCount, BitVec.ofNat_mul, BitVec.ofNat_toNat, BitVec.setWidth_eq]
  rw [if_pos hnumber, hword, offset_advance] at hvalue
  rw [DenseView.read_eq hhost (coordinateAt_within hnumber)]
  exact congrArg some hvalue

theorem fillDenseUniform01_overflow (hserial : context.backend = .serial)
    (hhost : destination.memorySpace = .host)
    (hover : 2 ^ 64 ≤ offset.toNat +
      boxSize destination.mapping.extents * real.wordsPerElement.toNat) :
    Effect.exec (fillDenseUniform01 real scaled context destination stream subsequence offset)
        memory =
      some (.error { code := .overflow, message := "Random word offset overflow" }, memory) :=
  (exec_fillDenseUniform01 hserial hhost).trans (if_neg (not_lt.2 hover))

/-- Slabs that make up the whole view are filled like the view. -/
theorem fillSlabs_eq_fill {view : DenseView type (rank + 1)} (hserial : context.backend = .serial)
    (hhost : view.memorySpace = .host)
    (hfits : ∀ dimension, view.mapping.extents.get dimension ≤ int64.maximum) {counts : List Nat}
    (hcounts : (counts.sum : Int) = view.mapping.extents.get (Fin.last rank)) :
    Effect.exec (fillSlabs real scaled context view stream subsequence 0 counts offset) memory =
        some (.ok next, memory') ↔
      Effect.exec (fillDenseUniform01 real scaled context view stream subsequence offset) memory =
        some (.ok next, memory') := by
  have hsize : sliceSize view.mapping.extents * counts.sum = boxSize view.mapping.extents := by
    rw [boxSize_eq_slices, ← hcounts, Int.toNat_natCast]
  rw [exec_fillSlabs_ok_iff hserial hhost hfits (by omega), exec_fillDenseUniform01 hserial hhost,
    hsize, Nat.zero_mul]
  -- The slabs cover the whole view, so both sides fail on the same total of words.
  by_cases hthis : offset.toNat + real.wordCount (boxSize view.mapping.extents) < 2 ^ 64
  · rw [if_pos hthis]
    constructor
    · rintro ⟨-, rfl, rfl⟩
      rfl
    · intro h
      cases h
      exact ⟨hthis, rfl, rfl⟩
  · rw [if_neg hthis]
    constructor
    · rintro ⟨hall, -⟩
      exact absurd hall hthis
    · intro h
      cases h

end Results

/-- A fill fails exactly when the next offset has no 64 bits; else every element has the value of
its number, and nothing else has changed.  Slabs that make up a view are filled like the view. -/
theorem dense_fill_correct (real : RandomReal) (scaled : Nat → Nat → V) (context : ExecutionContext)
    (hserial : context.backend = .serial) (stream : RandomStream)
    (subsequence : RandomSubsequence) (offset : RandomOffset) (memory : Nat → Cell) :
    (∀ {rank : Nat} (destination : DenseView type rank), destination.memorySpace = .host →
      (offset.toNat + boxSize destination.mapping.extents * real.wordsPerElement.toNat < 2 ^ 64 →
        ∃ memory', Effect.exec
            (fillDenseUniform01 real scaled context destination stream subsequence offset) memory =
              some (.ok (BitVec.ofNat 64 (offset.toNat +
                boxSize destination.mapping.extents * real.wordsPerElement.toNat)), memory') ∧
          destination.family.Untouched memory memory' ∧
          ∀ number < boxSize destination.mapping.extents,
            destination.read memory' (coordinateAt destination.mapping.extents number) =
              some (generateUniform01 real scaled stream subsequence
                (BitVec.ofNat 64 (offset.toNat + number * real.wordsPerElement.toNat)))) ∧
      (2 ^ 64 ≤ offset.toNat +
          boxSize destination.mapping.extents * real.wordsPerElement.toNat →
        Effect.exec (fillDenseUniform01 real scaled context destination stream subsequence offset)
            memory =
          some (.error { code := .overflow, message := "Random word offset overflow" },
            memory))) ∧
    (∀ {rank : Nat} (view : DenseView type (rank + 1)) (counts : List Nat) (next : RandomOffset)
        (memory' : Nat → Cell), view.memorySpace = .host →
      (∀ dimension, view.mapping.extents.get dimension ≤ int64.maximum) →
      (counts.sum : Int) = view.mapping.extents.get (Fin.last rank) →
      (Effect.exec (fillSlabs real scaled context view stream subsequence 0 counts offset) memory =
          some (.ok next, memory') ↔
        Effect.exec (fillDenseUniform01 real scaled context view stream subsequence offset) memory =
          some (.ok next, memory'))) := by
  refine ⟨fun destination hhost => ⟨?_, ?_⟩, fun view counts next memory' hhost hfits hcounts => ?_⟩
  · exact fillDenseUniform01_fills hserial hhost
  · exact fillDenseUniform01_overflow hserial hhost
  · exact fillSlabs_eq_fill hserial hhost hfits hcounts

/-- A number, nothing and another number. -/
theorem dense_fill_sample :
    ∃ memory', Effect.exec (fillDenseUniform01 .float (fun bits _ => bits) .serial sampleView 7 3 5)
        (fun _ => 0) = some (.ok 7, memory') ∧
      Effect.exec (fillSlabs .float (fun bits _ => bits) .serial sampleView 7 3 0 [1, 0, 1] 5)
        (fun _ => 0) = some (.ok 7, memory') := by
  have hcorrect := @dense_fill_correct Nat Nat (.uniform Nat 8 8 Representation.eight_pos) .float
    (fun bits _ => bits) .serial rfl 7 3 5 (fun _ => 0)
  rcases (hcorrect.1 sampleView rfl).1 (by decide) with ⟨memory', hrun, -, -⟩
  exact ⟨memory', hrun, (hcorrect.2 sampleView [1, 0, 1] 7 memory' rfl (by decide) rfl).2 hrun⟩

end Random
end AscCpp
