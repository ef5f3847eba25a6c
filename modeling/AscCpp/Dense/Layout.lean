import AscCpp.Core.Extents
import AscCpp.Library.KeyedList
import AscCpp.Library.MixedRadix
import Mathlib.Data.List.FinRange
import Mathlib.Data.Vector.Mem

/-!
# Layout — checked mappings of coordinates to storage offsets

`DenseLayout` carries what its private constructor is only ever called with: the logical size and
the span that the checks computed, and the outcome of the uniqueness test.

- `validateExtents_ok_iff`: the extents that are accepted, which depends on where the first zero
  extent stands.
- `fillStrides_running`, `fillStrides_ok_iff`: the stride loops write the running products of the
  extents, if none of these overflows.
-/

namespace AscCpp
namespace Dense

open AscCpp.Core Library

inductive DenseLayoutKind where
  | left
  | right
  | stride
  deriving DecidableEq, Repr

/-! ## Validation -/

/-- One round of `ValidateExtents`: whether an extent was zero, and the product so far. -/
def validateExtent (state : Bool × Int) (extent : Int) : Result (Bool × Int) :=
  if extent < 0 then
    .error { code := .shape, message := "Dense layout extents cannot be negative" }
  else if state.1 || extent = 0 then
    .ok (true, state.2)
  else do
    let next ← (checkedMultiply int64 state.2 extent).mapError fun _ =>
      { code := .overflow, message := "Dense logical size overflow" }
    .ok (false, next)

variable {rank : Nat}

def validateExtents (extents : Shape rank) : Result Int := do
  let state ← extents.toList.foldlM validateExtent (false, 1)
  .ok (if state.1 then 0 else state.2)

/-- An offset with the share of one more dimension; each operation reports its own failure. -/
def addTerm (termFailure sumFailure : Status → Status) (offset digit stride : Int) :
    Result Int := do
  let term ← (checkedMultiply int64 digit stride).mapError termFailure
  (checkedAdd int64 offset term).mapError sumFailure

def termOverflow : Status :=
  { code := .overflow, message := "Dense layout span term overflow" }

def maximumOffsetOverflow : Status :=
  { code := .overflow, message := "Dense layout maximum offset overflow" }

/-- The span that `CreateValidated` computes: one more than the greatest offset. -/
def requiredSpan (extents strides : Shape rank) (logicalSize : Int) : Result Int :=
  if logicalSize = 0 then
    .ok 0
  else do
    let maximumOffset ← (List.finRange rank).foldlM (fun maximumOffset dimension =>
      addTerm (fun _ => termOverflow) (fun _ => maximumOffsetOverflow) maximumOffset
        (extents.get dimension - 1) (strides.get dimension)) 0
    (checkedAdd int64 maximumOffset 1).mapError fun _ =>
      { code := .overflow, message := "Dense layout span overflow" }

/-! ## The uniqueness test -/

/-- The insertion sort of `ProveUnique` over the dimensions with more than one index. -/
def sortedDimensions (extents strides : Shape rank) : List (Fin rank) :=
  (active extents.get (List.finRange rank)).foldl
    (fun sorted dimension => insertFromBack strides.get dimension sorted) []

/-- The last loop of `ProveUnique`. -/
def coversSpan (extents strides : Shape rank) : Int → List (Fin rank) → Bool
  | _, [] => true
  | coveredSpan, dimension :: dimensions =>
    if strides.get dimension < coveredSpan then
      false
    else
      match checkedMultiply int64 (extents.get dimension - 1) (strides.get dimension) with
      | .error _ => false
      | .ok contribution =>
        match checkedAdd int64 coveredSpan contribution with
        | .error _ => false
        | .ok next => coversSpan extents strides next dimensions

def proveUnique (extents strides : Shape rank) : Bool :=
  coversSpan extents strides 1 (sortedDimensions extents strides)

/-! ## What validation accepts -/

/-- The product of the extents before the first zero extent. -/
def leadingProduct (extents : List Int) : Int :=
  (extents.takeWhile fun extent => extent ≠ 0).prod

@[simp] theorem leadingProduct_nil : leadingProduct [] = 1 := rfl

@[simp] theorem leadingProduct_zero (extents : List Int) : leadingProduct (0 :: extents) = 1 := by
  simp [leadingProduct]

theorem leadingProduct_cons {extent : Int} (h : extent ≠ 0) (extents : List Int) :
    leadingProduct (extent :: extents) = extent * leadingProduct extents := by
  simp [leadingProduct, h]

theorem one_le_leadingProduct {extents : List Int} (h : ∀ extent ∈ extents, 0 ≤ extent) :
    1 ≤ leadingProduct extents := by
  apply one_le_prod
  intro extent hmem
  have hne : extent ≠ 0 := by simpa using List.mem_takeWhile_imp hmem
  have hnonneg := h extent ((List.takeWhile_sublist _).subset hmem)
  omega

theorem leadingProduct_of_forall_ne {extents : List Int} (h : ∀ extent ∈ extents, extent ≠ 0) :
    leadingProduct extents = extents.prod := by
  rw [leadingProduct, List.takeWhile_eq_self_iff.2 (by simpa using h)]

/-- The product of the extents before a zero extent is a product of nonzero extents. -/
theorem leadingProduct_le_filter {extents : List Int} (h : ∀ extent ∈ extents, 0 ≤ extent) :
    leadingProduct extents ≤ (extents.filter fun extent => extent ≠ 0).prod := by
  induction extents with
  | nil => exact le_rfl
  | cons extent extents ih =>
    rw [List.forall_mem_cons] at h
    rcases h.1.eq_or_lt with rfl | hpos
    · rw [leadingProduct_zero, List.filter_cons_of_neg (by simp)]
      apply one_le_prod
      intro extent hmem
      rcases List.mem_filter.1 hmem with ⟨hmem, hne⟩
      have hnonneg := h.2 extent hmem
      have hne : extent ≠ 0 := by simpa using hne
      omega
    · rw [leadingProduct_cons hpos.ne', List.filter_cons_of_pos (by simpa using hpos.ne'),
        List.prod_cons]
      exact mul_le_mul_of_nonneg_left (ih h.2) hpos.le

/-- A zero extent makes the product zero, and without one the leading product is all of it. -/
theorem prod_le_leadingProduct {extents : List Int} (h : ∀ extent ∈ extents, 0 ≤ extent) :
    extents.prod ≤ leadingProduct extents := by
  induction extents with
  | nil => exact le_rfl
  | cons extent extents ih =>
    rw [List.forall_mem_cons] at h
    rw [List.prod_cons]
    rcases h.1.eq_or_lt with rfl | hpos
    · simp
    · rw [leadingProduct_cons hpos.ne']
      exact mul_le_mul_of_nonneg_left (ih h.2) hpos.le

/-- Behind a zero extent only the signs are checked. -/
theorem foldlM_validateExtent_of_zero {extents : List Int} {product : Int} {state : Bool × Int} :
    extents.foldlM validateExtent (true, product) = .ok state ↔
      (∀ extent ∈ extents, 0 ≤ extent) ∧ state = (true, product) := by
  induction extents with
  | nil => simp [pure, Except.pure, eq_comm]
  | cons extent extents ih =>
    rw [List.foldlM_cons, List.forall_mem_cons, validateExtent]
    split
    · rename_i hneg
      constructor
      · rintro ⟨⟩
      · rintro ⟨⟨hnonneg, -⟩, -⟩
        omega
    · rename_i hnonneg
      rw [Bool.true_or, if_pos rfl, Result.ok_bind, ih]
      simp [not_lt.1 hnonneg]

theorem foldlM_validateExtent {extents : List Int} {product : Int} (hproduct : 1 ≤ product)
    (hfits : product ≤ int64.maximum) {logicalSize : Int} :
    (∃ state, extents.foldlM validateExtent (false, product) = .ok state ∧
        (if state.1 then 0 else state.2) = logicalSize) ↔
      (∀ extent ∈ extents, 0 ≤ extent) ∧
        product * leadingProduct extents ≤ int64.maximum ∧
          logicalSize = product * extents.prod := by
  induction extents generalizing product with
  | nil =>
    constructor
    · rintro ⟨state, hstate, rfl⟩
      cases hstate
      simpa using hfits
    · rintro ⟨-, -, rfl⟩
      exact ⟨_, rfl, by simp⟩
  | cons extent extents ih =>
    rw [List.foldlM_cons, List.forall_mem_cons, List.prod_cons, validateExtent]
    -- A negative extent ends the loop, a zero one stops the product, a positive one multiplies it.
    rcases lt_trichotomy extent 0 with hneg | rfl | hpos
    · rw [if_pos hneg]
      constructor
      · rintro ⟨state, hstate, -⟩
        cases hstate
      · rintro ⟨⟨hnonneg, -⟩, -⟩
        omega
    · rw [if_neg (lt_irrefl 0), if_pos (by simp), Result.ok_bind, leadingProduct_zero]
      simp only [foldlM_validateExtent_of_zero]
      constructor
      · rintro ⟨state, ⟨hall, rfl⟩, rfl⟩
        exact ⟨⟨le_rfl, hall⟩, by omega, by simp⟩
      · rintro ⟨⟨-, hall⟩, -, rfl⟩
        exact ⟨_, ⟨hall, rfl⟩, by simp⟩
    · rw [if_neg hpos.not_gt, if_neg (by simpa using hpos.ne'), leadingProduct_cons hpos.ne',
        checkedMultiply_of_nonneg (by omega) hpos.le, ← mul_assoc, ← mul_assoc]
      have hgrows : 1 ≤ product * extent := by nlinarith
      by_cases hnext : product * extent ≤ int64.maximum
      · rw [if_pos hnext]
        refine (ih hgrows hnext).trans ?_
        simp [hpos.le]
      · rw [if_neg hnext]
        constructor
        · rintro ⟨state, hstate, -⟩
          simp [Result.mapError_error, bind, Except.bind] at hstate
        · rintro ⟨⟨-, hall⟩, hle, -⟩
          have hrest := one_le_leadingProduct hall
          exact absurd (by nlinarith) hnext

theorem validateExtents_ok_iff {extents : Shape rank} {logicalSize : Int} :
    validateExtents extents = .ok logicalSize ↔
      (∀ extent ∈ extents.toList, 0 ≤ extent) ∧
        leadingProduct extents.toList ≤ int64.maximum ∧ logicalSize = extents.toList.prod := by
  have h := @foldlM_validateExtent extents.toList 1 le_rfl (by decide) logicalSize
  rw [one_mul, one_mul] at h
  rw [← h, validateExtents, Result.bind_eq_ok_iff]
  simp only [Except.ok.injEq]

theorem validateExtents_nonneg {extents : Shape rank} {logicalSize : Int}
    (h : validateExtents extents = .ok logicalSize) : ∀ extent ∈ extents.toList, 0 ≤ extent :=
  (validateExtents_ok_iff.1 h).1

/-! ## Layouts -/

structure DenseLayout (rank : Nat) where
  extents : Shape rank
  strides : Shape rank
  logicalSize : Int
  requiredSpanSize : Int
  unique : Bool
  exhaustive : Bool
  kind : DenseLayoutKind
  strides_nonneg : ∀ dimension, 0 ≤ strides.get dimension
  logical : validateExtents extents = .ok logicalSize
  span : requiredSpan extents strides logicalSize = .ok requiredSpanSize
  unique_eq : unique = (decide (logicalSize = 0) || proveUnique extents strides)
  exhaustive_eq : exhaustive = (unique && decide (requiredSpanSize = logicalSize))

theorem checkedCast_eq_ok {target : IntegerType} {value result : Int}
    (h : checkedCast target value = .ok result) : result = value := by
  unfold checkedCast at h
  split at h
  · exact (Except.ok.inj h).symm
  · cases h

namespace DenseLayout

def createValidated (extents strides : Shape rank)
    (hstrides : ∀ dimension, 0 ≤ strides.get dimension) (kind : DenseLayoutKind) :
    Result (DenseLayout rank) :=
  match hlogical : validateExtents extents with
  | .error status => .error status
  | .ok logicalSize =>
    match hspan : requiredSpan extents strides logicalSize with
    | .error status => .error status
    | .ok requiredSpan =>
      match hconverted : checkedCast sizeType requiredSpan with
      | .error status => .error status
      | .ok convertedSpan =>
        match hconvertedSize : checkedCast sizeType logicalSize with
        | .error status => .error status
        | .ok convertedLogicalSize =>
          let unique := decide (logicalSize = 0) || proveUnique extents strides
          .ok
            { extents := extents
              strides := strides
              logicalSize := logicalSize
              requiredSpanSize := convertedSpan
              unique := unique
              exhaustive := unique && decide (convertedSpan = convertedLogicalSize)
              kind := kind
              strides_nonneg := hstrides
              logical := hlogical
              span := by rw [hspan, checkedCast_eq_ok hconverted]
              unique_eq := rfl
              exhaustive_eq := by rw [checkedCast_eq_ok hconvertedSize] }

/-- One round of the stride loops: the dimension takes the running product. -/
def fillStride (extents : Shape rank) (failure : Status) (state : Shape rank × Int)
    (dimension : Fin rank) : Result (Shape rank × Int) := do
  let next ← (checkedMultiply int64 state.2 (extents.get dimension)).mapError fun _ => failure
  .ok (state.1.set dimension state.2, next)

/-- The stride loop over the dimensions in the order of a layout. -/
def fillStrides (extents : Shape rank) (failure : Status) (dimensions : List (Fin rank)) :
    Result (Shape rank × Int) :=
  dimensions.foldlM (fillStride extents failure) (List.Vector.replicate rank 0, 1)

/-- What the stride loop has written when it succeeds; the induction is on the dimensions that are
still to come, which keep their entries. -/
theorem fillStrides_running {extents : Shape rank} {failure : Status} {dimensions : List (Fin rank)}
    {state filled : Shape rank × Int} (hnodup : dimensions.Nodup)
    (h : dimensions.foldlM (fillStride extents failure) state = .ok filled)
    (hextents : ∀ dimension, 0 ≤ extents.get dimension) (hstate : 0 ≤ state.2) :
    Running extents.get filled.1.get state.2 dimensions ∧
      ∀ dimension ∉ dimensions, filled.1.get dimension = state.1.get dimension := by
  induction dimensions generalizing state with
  | nil =>
    cases h
    exact ⟨trivial, fun _ _ => rfl⟩
  | cons dimension dimensions ih =>
    rw [List.nodup_cons] at hnodup
    rw [List.foldlM_cons, fillStride, Result.bind_eq_ok_iff] at h
    rcases h with ⟨next, hnext, h⟩
    rw [Result.bind_eq_ok_iff] at hnext
    rcases hnext with ⟨product, hproduct, hnext⟩
    rw [Result.mapError_eq_ok_iff, checkedMultiply_of_nonneg hstate (hextents dimension)] at hproduct
    cases hnext
    have hvalue : product = state.2 * extents.get dimension := by
      split at hproduct
      · exact (Except.ok.inj hproduct).symm
      · cases hproduct
    subst hvalue
    rcases ih hnodup.2 h (mul_nonneg hstate (hextents dimension)) with ⟨hrunning, hothers⟩
    refine ⟨⟨?_, hrunning⟩, fun other hother => ?_⟩
    -- The entry just written stays, since its dimension does not come again.
    · rw [hothers dimension hnodup.1, List.Vector.get_set_same]
    · rw [List.mem_cons, not_or] at hother
      rw [hothers other hother.2, List.Vector.get_set_of_ne (Ne.symm hother.1)]

/-- The stride loop succeeds when no product before the first zero extent overflows. -/
theorem foldlM_fillStride_ok_iff {extents : Shape rank} {failure : Status} {dimensions : List (Fin rank)}
    (hextents : ∀ dimension, 0 ≤ extents.get dimension) {state : Shape rank × Int}
    (hstate : 0 ≤ state.2) (hfits : state.2 ≤ int64.maximum) :
    (∃ filled, dimensions.foldlM (fillStride extents failure) state = .ok filled) ↔
      state.2 * leadingProduct (dimensions.map extents.get) ≤ int64.maximum := by
  induction dimensions generalizing state with
  | nil => simpa [pure, Except.pure] using hfits
  | cons dimension dimensions ih =>
    have hnonneg := hextents dimension
    rw [List.foldlM_cons, List.map_cons, fillStride]
    rw [checkedMultiply_of_nonneg hstate hnonneg]
    -- Behind a zero extent every product is zero, and none of them overflows.
    rcases hnonneg.eq_or_lt with hzero | hpos
    · rw [← hzero, leadingProduct_zero, mul_zero, mul_one, if_pos int64.maximum_nonneg]
      have hrest := @ih (state.1.set dimension state.2, 0) le_rfl int64.maximum_nonneg
      simpa [Result.mapError_ok, Result.ok_bind, int64.maximum_nonneg, hfits] using hrest
    · rw [leadingProduct_cons hpos.ne', ← mul_assoc]
      by_cases hproduct : state.2 * extents.get dimension ≤ int64.maximum
      · rw [if_pos hproduct]
        exact @ih (state.1.set dimension state.2, state.2 * extents.get dimension)
          (mul_nonneg hstate hnonneg) hproduct
      · rw [if_neg hproduct]
        have hrest := @one_le_leadingProduct (dimensions.map extents.get)
          (by simpa using fun other _ => hextents other)
        constructor
        · rintro ⟨filled, hfilled⟩
          simp [Result.mapError_error, bind, Except.bind] at hfilled
        · intro hle
          exact absurd (by nlinarith) hproduct

theorem fillStrides_ok_iff {extents : Shape rank} {failure : Status} {dimensions : List (Fin rank)}
    (hextents : ∀ dimension, 0 ≤ extents.get dimension) :
    (∃ filled, fillStrides extents failure dimensions = .ok filled) ↔
      leadingProduct (dimensions.map extents.get) ≤ int64.maximum := by
  have h := @foldlM_fillStride_ok_iff _ extents failure dimensions hextents
    (List.Vector.replicate rank 0, 1) zero_le_one (by decide : (1 : Int) ≤ int64.maximum)
  rwa [one_mul] at h

/-- Running products of extents that are not negative are not negative. -/
theorem fillStrides_nonneg {extents : Shape rank} {failure : Status}
    {dimensions : List (Fin rank)} {filled : Shape rank × Int}
    (hdimensions : dimensions.Perm (List.finRange rank))
    (h : fillStrides extents failure dimensions = .ok filled)
    (hextents : ∀ dimension, 0 ≤ extents.get dimension) :
    ∀ dimension, 0 ≤ filled.1.get dimension := by
  have hnodup : dimensions.Nodup := hdimensions.nodup_iff.2 (List.nodup_finRange rank)
  have hrunning := (fillStrides_running hnodup h hextents zero_le_one).1
  intro dimension
  exact hrunning.stride_nonneg zero_le_one (fun other _ => hextents other) dimension
    (hdimensions.mem_iff.2 (List.mem_finRange dimension))

theorem get_nonneg {extents : Shape rank} (h : ∀ extent ∈ extents.toList, 0 ≤ extent)
    (dimension : Fin rank) : 0 ≤ extents.get dimension :=
  h _ (List.Vector.get_mem dimension extents)

/-- `Create` with the running products of the extents, in the order of the dimensions, as strides. -/
def createFilled (extents : Shape rank) (failure : Status) (dimensions : List (Fin rank))
    (hdimensions : dimensions.Perm (List.finRange rank)) (kind : DenseLayoutKind) :
    Result (DenseLayout rank) :=
  match hvalidated : validateExtents extents with
  | .error status => .error status
  | .ok _ =>
    match hfilled : fillStrides extents failure dimensions with
    | .error status => .error status
    | .ok filled =>
      createValidated extents filled.1
        (fillStrides_nonneg hdimensions hfilled (get_nonneg (validateExtents_nonneg hvalidated)))
        kind

/-- `Create` with `LayoutLeft`. -/
def createLeft (extents : Shape rank) : Result (DenseLayout rank) :=
  createFilled extents { code := .overflow, message := "Dense left-layout stride overflow" }
    (List.finRange rank) (List.Perm.refl _) .left

/-- `Create` with `LayoutRight`. -/
def createRight (extents : Shape rank) : Result (DenseLayout rank) :=
  createFilled extents { code := .overflow, message := "Dense right-layout stride overflow" }
    (List.finRange rank).reverse (List.reverse_perm _) .right

/-- `Create` with `LayoutStride`. -/
def createStride (extents strides : Shape rank) : Result (DenseLayout rank) :=
  match validateExtents extents with
  | .error status => .error status
  | .ok _ =>
    if hstrides : ∀ dimension, 0 ≤ strides.get dimension then
      createValidated extents strides hstrides .stride
    else
      .error
        { code := .invalidArgument, message := "Dense layout strides cannot be negative" }

/-- One round of `Offset`. -/
def offsetTerm (layout : DenseLayout rank) (coordinates : List.Vector Int rank) (offset : Int)
    (dimension : Fin rank) : Result Int :=
  if coordinates.get dimension < 0 ∨ coordinates.get dimension ≥ layout.extents.get dimension then
    .error { code := .index, message := "Dense coordinate is outside its extent" }
  else
    addTerm id id offset (coordinates.get dimension) (layout.strides.get dimension)

def offset (layout : DenseLayout rank) (coordinates : List.Vector Int rank) : Result Int := do
  let offset ← (List.finRange rank).foldlM (layout.offsetTerm coordinates) 0
  checkedCast sizeType offset

end DenseLayout

end Dense
end AscCpp
