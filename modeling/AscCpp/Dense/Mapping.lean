import AscCpp.Dense.Layout
import Mathlib.Algebra.BigOperators.Fin

/-!
# Mapping — what an accepted layout maps

- `offset_eq`: inside the extents the checked loop of `Offset` computes the sum of the indices
  times the strides.
- `proveUnique_sound`: the uniqueness test only accepts strides under which offsets determine
  coordinates.
- `proveUnique_of_running`: the test accepts the strides of every left and right layout.
-/

namespace AscCpp
namespace Dense

open AscCpp.Core Library

variable {rank : Nat}

/-! ## The checked loops -/

theorem addTerm_ok_iff {termFailure sumFailure : Status → Status} {offset digit stride : Int}
    (hoffset : 0 ≤ offset) (hfits : offset ≤ int64.maximum) (hdigit : 0 ≤ digit)
    (hstride : 0 ≤ stride) {result : Int} :
    addTerm termFailure sumFailure offset digit stride = .ok result ↔
      result = offset + digit * stride ∧ offset + digit * stride ≤ int64.maximum := by
  have hterm : 0 ≤ digit * stride := mul_nonneg hdigit hstride
  rw [addTerm, checkedMultiply_of_nonneg hdigit hstride]
  split
  · rw [Result.mapError_ok, Result.ok_bind, Result.mapError_eq_ok_iff,
      checkedAdd_of_nonneg hterm hfits]
    split <;> simp_all [eq_comm]
  · simp only [Result.mapError_error, bind, Except.bind, reduceCtorEq, false_iff]
    omega

/-- The loop over the dimensions adds up all shares, if the total fits. -/
theorem foldlM_addTerm {ι : Type} {termFailure sumFailure : Status → Status}
    {digits strides : ι → Int} {dimensions : List ι} {offset : Int} (hoffset : 0 ≤ offset)
    (hfits : offset ≤ int64.maximum) (hdigits : ∀ dimension ∈ dimensions, 0 ≤ digits dimension)
    (hstrides : ∀ dimension ∈ dimensions, 0 ≤ strides dimension) {result : Int} :
    dimensions.foldlM (fun offset dimension =>
        addTerm termFailure sumFailure offset (digits dimension) (strides dimension)) offset =
          .ok result ↔
      result = offset + strideSum digits strides dimensions ∧
        offset + strideSum digits strides dimensions ≤ int64.maximum := by
  induction dimensions generalizing offset with
  | nil => simp [pure, Except.pure, hfits, @eq_comm _ offset]
  | cons dimension dimensions ih =>
    have hrest := strideSum_nonneg (List.forall_mem_cons.1 hstrides).2
      (List.forall_mem_cons.1 hdigits).2
    rw [List.forall_mem_cons] at hdigits hstrides
    have hterm : 0 ≤ digits dimension * strides dimension := mul_nonneg hdigits.1 hstrides.1
    rw [List.foldlM_cons, Result.bind_eq_ok_iff, strideSum_cons, ← add_assoc]
    simp only [addTerm_ok_iff hoffset hfits hdigits.1 hstrides.1]
    constructor
    · rintro ⟨next, ⟨rfl, hnext⟩, hloop⟩
      exact (ih (by omega) hnext hdigits.2 hstrides.2).1 hloop
    · rintro ⟨rfl, hle⟩
      refine ⟨_, ⟨rfl, by omega⟩, ?_⟩
      exact (ih (by omega) (by omega) hdigits.2 hstrides.2).2 ⟨rfl, hle⟩

/-- The greatest index of every dimension. -/
def lastIndices (extents : Shape rank) (dimension : Fin rank) : Int :=
  extents.get dimension - 1

theorem requiredSpan_ok_iff {extents strides : Shape rank} {logicalSize span : Int}
    (hsize : logicalSize ≠ 0) (hextents : ∀ dimension, 1 ≤ extents.get dimension)
    (hstrides : ∀ dimension, 0 ≤ strides.get dimension) :
    requiredSpan extents strides logicalSize = .ok span ↔
      span = strideSum (lastIndices extents) strides.get (List.finRange rank) + 1 ∧
        span ≤ int64.maximum := by
  have hlast : ∀ dimension ∈ List.finRange rank, 0 ≤ lastIndices extents dimension :=
    fun dimension _ => by have := hextents dimension; unfold lastIndices; omega
  have hnonneg := strideSum_nonneg (fun dimension (_ : dimension ∈ List.finRange rank) =>
    hstrides dimension) hlast
  rw [requiredSpan, if_neg hsize, Result.bind_eq_ok_iff]
  -- The loop adds the last offset term by term; the final addition makes it a span.
  have hloop := @foldlM_addTerm _ (fun _ => termOverflow) (fun _ => maximumOffsetOverflow)
    (lastIndices extents) strides.get (List.finRange rank) 0 le_rfl int64.maximum_nonneg hlast
    (fun dimension _ => hstrides dimension)
  simp only [lastIndices] at hloop hnonneg ⊢
  simp only [hloop, zero_add, Result.mapError_eq_ok_iff]
  constructor
  · rintro ⟨maximumOffset, ⟨rfl, hfits⟩, hspan⟩
    rw [checkedAdd_of_nonneg zero_le_one hfits] at hspan
    split at hspan
    · cases hspan
      exact ⟨rfl, by assumption⟩
    · cases hspan
  · rintro ⟨rfl, hfits⟩
    refine ⟨_, ⟨rfl, by omega⟩, ?_⟩
    rw [checkedAdd_of_nonneg zero_le_one (by omega), if_pos hfits]

/-! ## The uniqueness test -/

theorem foldl_insertFromBack {strides : Shape rank} {dimensions sorted : List (Fin rank)}
    (h : sorted.Pairwise fun left right => strides.get left ≤ strides.get right) :
    (dimensions.foldl (fun sorted dimension => insertFromBack strides.get dimension sorted)
        sorted).Perm (sorted ++ dimensions) ∧
      (dimensions.foldl (fun sorted dimension => insertFromBack strides.get dimension sorted)
        sorted).Pairwise fun left right => strides.get left ≤ strides.get right := by
  induction dimensions generalizing sorted with
  | nil => simpa using h
  | cons dimension dimensions ih =>
    rcases ih (insertFromBack_sorted h dimension) with ⟨hperm, hsorted⟩
    refine ⟨hperm.trans ?_, hsorted⟩
    have hinsert := (insertFromBack_perm strides.get dimension sorted).append_right dimensions
    exact hinsert.trans List.perm_middle.symm

theorem sortedDimensions_perm (extents strides : Shape rank) :
    (sortedDimensions extents strides).Perm (active extents.get (List.finRange rank)) :=
  (foldl_insertFromBack List.Pairwise.nil).1

theorem sortedDimensions_sorted (extents strides : Shape rank) :
    (sortedDimensions extents strides).Pairwise fun left right =>
      strides.get left ≤ strides.get right :=
  (foldl_insertFromBack List.Pairwise.nil).2

/-- The loop accepts exactly the covering strides whose span fits. -/
theorem coversSpan_iff {extents strides : Shape rank} {coveredSpan : Int}
    {dimensions : List (Fin rank)} (hcovered : 0 ≤ coveredSpan)
    (hfits : coveredSpan ≤ int64.maximum)
    (hextents : ∀ dimension ∈ dimensions, 1 ≤ extents.get dimension)
    (hstrides : ∀ dimension ∈ dimensions, 0 ≤ strides.get dimension) :
    coversSpan extents strides coveredSpan dimensions = true ↔
      Covers extents.get strides.get coveredSpan dimensions ∧
        coveredSpan + strideSum (lastIndices extents) strides.get dimensions ≤ int64.maximum := by
  -- The covered span is the invariant: it exceeds every offset of the dimensions before.
  induction dimensions generalizing coveredSpan with
  | nil => simp [coversSpan, Covers, hfits]
  | cons dimension dimensions ih =>
    rw [List.forall_mem_cons] at hextents hstrides
    have hlast : 0 ≤ lastIndices extents dimension := by unfold lastIndices; omega
    have hterm : 0 ≤ lastIndices extents dimension * strides.get dimension :=
      mul_nonneg hlast hstrides.1
    have hrest : 0 ≤ strideSum (lastIndices extents) strides.get dimensions :=
      strideSum_nonneg hstrides.2 fun other hmem => by
        have := hextents.2 other hmem
        unfold lastIndices
        omega
    rw [coversSpan, Covers, strideSum_cons, ← add_assoc]
    change _ ↔ (_ ∧ Covers extents.get strides.get
      (coveredSpan + lastIndices extents dimension * strides.get dimension) dimensions) ∧ _
    rw [show extents.get dimension - 1 = lastIndices extents dimension from rfl,
      checkedMultiply_of_nonneg hlast hstrides.1]
    -- Each test of the loop fails for one reason: overlap, or a product or a sum that does not fit.
    by_cases hle : coveredSpan ≤ strides.get dimension
    · rw [if_neg hle.not_gt, and_iff_right hle]
      by_cases hproduct : lastIndices extents dimension * strides.get dimension ≤ int64.maximum
      · rw [if_pos hproduct]
        dsimp only
        rw [checkedAdd_of_nonneg hterm hfits]
        by_cases hsum : coveredSpan + lastIndices extents dimension * strides.get dimension ≤
            int64.maximum
        · rw [if_pos hsum]
          exact ih (by omega) hsum hextents.2 hstrides.2
        · rw [if_neg hsum]
          simp only [Bool.false_eq_true, false_iff, not_and]
          omega
      · rw [if_neg hproduct]
        simp only [Bool.false_eq_true, false_iff, not_and]
        omega
    · rw [if_pos (not_le.1 hle)]
      simp [hle]

/-! ## Accepted layouts -/

theorem map_get_finRange (extents : Shape rank) :
    (List.finRange rank).map extents.get = extents.toList := by
  rw [← List.ofFn_eq_map, ← List.Vector.toList_ofFn, List.Vector.ofFn_get]

theorem extentProduct_finRange (extents : Shape rank) :
    extentProduct extents.get (List.finRange rank) = extents.toList.prod := by
  rw [extentProduct, map_get_finRange]

/-- A product of extents that are not negative is not negative. -/
theorem prod_nonneg {extents : List Int} (h : ∀ extent ∈ extents, 0 ≤ extent) :
    0 ≤ extents.prod := by
  induction extents with
  | nil => decide
  | cons extent extents ih =>
    rw [List.forall_mem_cons] at h
    rw [List.prod_cons]
    exact mul_nonneg h.1 (ih h.2)

theorem prod_extents (extents : Shape rank) :
    ∏ dimension, extents.get dimension = extents.toList.prod := by
  rw [Fin.prod_univ_def, ← extentProduct_finRange, extentProduct]

theorem one_le_get_of_prod_ne_zero {extents : Shape rank} (h : extents.toList.prod ≠ 0)
    (hnonneg : ∀ dimension, 0 ≤ extents.get dimension) (dimension : Fin rank) :
    1 ≤ extents.get dimension := by
  have hne : extents.get dimension ≠ 0 := by
    intro heq
    rw [← prod_extents] at h
    exact h (Finset.prod_eq_zero (Finset.mem_univ dimension) heq)
  have hextent := hnonneg dimension
  omega

namespace DenseLayout

variable (layout : DenseLayout rank)

/-- The coordinate is inside the extents. -/
abbrev InBounds (coordinates : List.Vector Int rank) : Prop :=
  Within layout.extents.get coordinates.get

/-- The greatest offset, of the last index of every dimension. -/
abbrev maximumOffset : Int :=
  strideSum (lastIndices layout.extents) layout.strides.get (List.finRange rank)

theorem extents_nonneg (dimension : Fin rank) : 0 ≤ layout.extents.get dimension :=
  get_nonneg (validateExtents_nonneg layout.logical) dimension

theorem logicalSize_eq : layout.logicalSize = layout.extents.toList.prod :=
  (validateExtents_ok_iff.1 layout.logical).2.2

theorem logicalSize_eq_zero_iff :
    layout.logicalSize = 0 ↔ ∃ dimension, layout.extents.get dimension = 0 := by
  rw [layout.logicalSize_eq, ← prod_extents, Finset.prod_eq_zero_iff]
  simp

theorem extents_pos (h : layout.logicalSize ≠ 0) (dimension : Fin rank) :
    1 ≤ layout.extents.get dimension := by
  have hne : layout.extents.get dimension ≠ 0 := fun hzero =>
    h (layout.logicalSize_eq_zero_iff.2 ⟨dimension, hzero⟩)
  have := layout.extents_nonneg dimension
  omega

theorem requiredSpanSize_of_empty (h : layout.logicalSize = 0) : layout.requiredSpanSize = 0 := by
  have hspan := layout.span
  rw [requiredSpan, if_pos h] at hspan
  exact (Except.ok.inj hspan).symm

theorem requiredSpanSize_eq (h : layout.logicalSize ≠ 0) :
    layout.requiredSpanSize = layout.maximumOffset + 1 ∧
      layout.requiredSpanSize ≤ int64.maximum :=
  (requiredSpan_ok_iff h (layout.extents_pos h) layout.strides_nonneg).1 layout.span

variable {layout}

/-- A layout with a coordinate is not empty. -/
theorem InBounds.nonempty {coordinates : List.Vector Int rank}
    (h : layout.InBounds coordinates) : layout.logicalSize ≠ 0 := by
  intro hzero
  rcases layout.logicalSize_eq_zero_iff.1 hzero with ⟨dimension, hdimension⟩
  have := h dimension
  omega

theorem InBounds.strideSum_nonneg {coordinates : List.Vector Int rank}
    (h : layout.InBounds coordinates) :
    0 ≤ strideSum coordinates.get layout.strides.get (List.finRange rank) :=
  Library.strideSum_nonneg (fun dimension _ => layout.strides_nonneg dimension)
    fun dimension _ => (h dimension).1

theorem InBounds.strideSum_le {coordinates : List.Vector Int rank}
    (h : layout.InBounds coordinates) :
    strideSum coordinates.get layout.strides.get (List.finRange rank) ≤ layout.maximumOffset := by
  refine Library.strideSum_le (fun dimension _ => layout.strides_nonneg dimension)
    fun dimension _ => ?_
  have := (h dimension).2
  unfold lastIndices
  omega

/-- Inside the extents `Offset` succeeds, without overflow, with the sum of the shares. -/
theorem offset_eq {coordinates : List.Vector Int rank} (h : layout.InBounds coordinates) :
    layout.offset coordinates =
      .ok (strideSum coordinates.get layout.strides.get (List.finRange rank)) := by
  have hspan := layout.requiredSpanSize_eq h.nonempty
  have hsum := h.strideSum_le
  have hterm : layout.offsetTerm coordinates = fun offset dimension =>
      addTerm id id offset (coordinates.get dimension) (layout.strides.get dimension) := by
    funext offset dimension
    have := h dimension
    rw [offsetTerm, if_neg (by omega)]
  have hloop : (List.finRange rank).foldlM (layout.offsetTerm coordinates) 0 =
      .ok (strideSum coordinates.get layout.strides.get (List.finRange rank)) := by
    rw [hterm, foldlM_addTerm le_rfl int64.maximum_nonneg (fun dimension _ => (h dimension).1)
      fun dimension _ => layout.strides_nonneg dimension]
    omega
  have hcast : sizeType.Representable
      (strideSum coordinates.get layout.strides.get (List.finRange rank)) := by
    have hnonneg := h.strideSum_nonneg
    have hmaximum : int64.maximum ≤ sizeType.maximum := by decide
    exact ⟨sizeType.minimum_nonpos.trans hnonneg, by omega⟩
  rw [offset, hloop, Result.ok_bind, checkedCast_ok hcast]

/-- An offset exists inside the extents only. -/
theorem inBounds_of_offset {coordinates : List.Vector Int rank} {offset : Int}
    (h : layout.offset coordinates = .ok offset) : layout.InBounds coordinates := by
  have hloop : ∀ (dimensions : List (Fin rank)) (start last : Int),
      dimensions.foldlM (layout.offsetTerm coordinates) start = .ok last →
        ∀ dimension ∈ dimensions, 0 ≤ coordinates.get dimension ∧
          coordinates.get dimension < layout.extents.get dimension := by
    intro dimensions
    induction dimensions with
    | nil =>
      intro _ _ _ dimension hmem
      cases hmem
    | cons dimension dimensions ih =>
      intro start last hrun
      rw [List.foldlM_cons] at hrun
      rcases Result.bind_eq_ok_iff.1 hrun with ⟨next, hterm, hrest⟩
      refine List.forall_mem_cons.2 ⟨?_, ih next last hrest⟩
      unfold offsetTerm at hterm
      split at hterm
      · cases hterm
      · omega
  rw [DenseLayout.offset] at h
  rcases Result.bind_eq_ok_iff.1 h with ⟨last, hrun, -⟩
  intro dimension
  exact hloop _ _ _ hrun dimension (List.mem_finRange dimension)

/-- Coordinates inside the extents that agree on the active dimensions are equal. -/
theorem InBounds.ext_active {left right : List.Vector Int rank} (hleft : layout.InBounds left)
    (hright : layout.InBounds right)
    (h : ∀ dimension ∈ active layout.extents.get (List.finRange rank),
      left.get dimension = right.get dimension) : left = right := by
  apply List.Vector.ext
  intro dimension
  by_cases hactive : 1 < layout.extents.get dimension
  · exact h dimension (mem_active.2 ⟨List.mem_finRange dimension, hactive⟩)
  · have := hleft dimension
    have := hright dimension
    omega

/-- In a dimension with one index the only digit is zero. -/
theorem InBounds.strideSum_active {coordinates : List.Vector Int rank}
    (h : layout.InBounds coordinates) :
    strideSum coordinates.get layout.strides.get
        (sortedDimensions layout.extents layout.strides) =
      strideSum coordinates.get layout.strides.get (List.finRange rank) := by
  rw [strideSum_perm _ _ (sortedDimensions_perm _ _), active, strideSum_filter]
  intro dimension _ hinactive
  have hbounds := h dimension
  have hextent : layout.extents.get dimension ≤ 1 := by simpa using hinactive
  omega

theorem sortedDimensions_active {extents strides : Shape rank} {dimension : Fin rank}
    (h : dimension ∈ sortedDimensions extents strides) : 1 < extents.get dimension :=
  (mem_active.1 ((sortedDimensions_perm _ _).mem_iff.1 h)).2

/-- The uniqueness test accepts no strides under which two coordinates share an offset. -/
theorem proveUnique_sound (h : proveUnique layout.extents layout.strides = true)
    {left right : List.Vector Int rank} (hleft : layout.InBounds left)
    (hright : layout.InBounds right) (hoffset : layout.offset left = layout.offset right) :
    left = right := by
  have hcovers := ((coversSpan_iff zero_le_one (by decide)
    (fun dimension hmem => (sortedDimensions_active hmem).le)
    fun dimension _ => layout.strides_nonneg dimension).1 h).1
  rw [offset_eq hleft, offset_eq hright, Except.ok.injEq, ← hleft.strideSum_active,
    ← hright.strideSum_active] at hoffset
  rw [← zero_add (strideSum left.get _ _), ← zero_add (strideSum right.get _ _)] at hoffset
  have hdigits := (hcovers.digits_eq (fun dimension _ => hleft dimension)
    (fun dimension _ => hright dimension) (by simp) hoffset).2
  refine hleft.ext_active hright fun dimension hmem => hdigits dimension ?_
  exact (sortedDimensions_perm _ _).mem_iff.2 hmem

/-- The test accepts running products of the extents, in whatever order of the dimensions. -/
theorem proveUnique_of_running {extents strides : Shape rank} {dimensions : List (Fin rank)}
    (hdimensions : dimensions.Perm (List.finRange rank))
    (hrunning : Running extents.get strides.get 1 dimensions)
    (hextents : ∀ dimension, 1 ≤ extents.get dimension)
    (hfits : extents.toList.prod ≤ int64.maximum) : proveUnique extents strides = true := by
  have hpos : ∀ dimension ∈ dimensions, 1 ≤ extents.get dimension := fun dimension _ =>
    hextents dimension
  have hactive : (sortedDimensions extents strides).Perm (active extents.get dimensions) :=
    (sortedDimensions_perm _ _).trans (hdimensions.symm.filter _)
  -- Strides that are running products increase strictly, so sorting them finds that order.
  have hsorted : sortedDimensions extents strides = active extents.get dimensions :=
    eq_of_perm_of_keys hactive (sortedDimensions_sorted extents strides)
      (hrunning.active_strictlySorted zero_lt_one hpos)
  -- Dimensions of extent one add nothing to the span.
  have hspan : 1 + strideSum (lastIndices extents) strides.get (active extents.get dimensions) =
      extents.toList.prod := by
    have hsum := hrunning.span_eq
    have hfilter : strideSum (lastIndices extents) strides.get (active extents.get dimensions) =
        strideSum (lastIndices extents) strides.get dimensions := by
      rw [active, strideSum_filter]
      intro dimension _ hinactive
      have hextent : extents.get dimension ≤ 1 := by simpa using hinactive
      have := hextents dimension
      unfold lastIndices
      omega
    have hproduct : extentProduct extents.get dimensions = extents.toList.prod := by
      rw [← extentProduct_finRange]
      exact (hdimensions.map _).prod_eq
    rw [one_mul, hproduct] at hsum
    rw [hfilter]
    exact hsum
  rw [proveUnique, hsorted, coversSpan_iff zero_le_one (by decide)
    (fun dimension hmem => hpos dimension (mem_active.1 hmem).1)
    fun dimension hmem => hrunning.stride_nonneg zero_le_one
      (fun other hother => zero_le_one.trans (hpos other hother)) dimension (mem_active.1 hmem).1]
  exact ⟨hrunning.covers_active hpos, by rw [hspan]; exact hfits⟩

/-- Offsets determine coordinates in a unique layout. -/
theorem offset_injective (layout : DenseLayout rank) (hunique : layout.unique = true) :
    ∀ left right, layout.InBounds left → layout.InBounds right →
      layout.offset left = layout.offset right → left = right := by
  intro left right hleft hright heq
  have hprove := layout.unique_eq
  rw [hunique, decide_eq_false hleft.nonempty, Bool.false_or] at hprove
  exact proveUnique_sound hprove.symm hleft hright heq

theorem exists_last_offset (layout : DenseLayout rank) (h : layout.logicalSize ≠ 0) :
    ∃ coordinates, layout.InBounds coordinates ∧
      layout.offset coordinates = .ok (layout.requiredSpanSize - 1) := by
  have hget : (List.Vector.ofFn (lastIndices layout.extents)).get = lastIndices layout.extents := by
    funext dimension
    rw [List.Vector.get_ofFn]
  have hbounds : layout.InBounds (List.Vector.ofFn (lastIndices layout.extents)) := by
    intro dimension
    have := layout.extents_pos h dimension
    rw [hget, lastIndices]
    omega
  refine ⟨_, hbounds, ?_⟩
  rw [offset_eq hbounds, hget, (layout.requiredSpanSize_eq h).1, add_sub_cancel_right]

theorem of_exhaustive (layout : DenseLayout rank) (h : layout.exhaustive = true) :
    layout.unique = true ∧ layout.requiredSpanSize = layout.logicalSize := by
  have heq := layout.exhaustive_eq
  rw [h] at heq
  simpa using heq.symm

/-- A unique layout whose span is its logical size takes every offset. -/
theorem exists_offset (layout : DenseLayout rank) (hunique : layout.unique = true)
    (hspan : layout.requiredSpanSize = layout.logicalSize) {offset : Int} (hnonneg : 0 ≤ offset)
    (hlt : offset < layout.logicalSize) :
    ∃ coordinates, layout.InBounds coordinates ∧ layout.offset coordinates = .ok offset := by
  have hget : ∀ digits : Fin rank → Int, (List.Vector.ofFn digits).get = digits := by
    intro digits
    funext dimension
    rw [List.Vector.get_ofFn]
  have hbounds : ∀ digits, Within layout.extents.get digits →
      layout.InBounds (List.Vector.ofFn digits) := by
    intro digits hdigits
    rwa [InBounds, hget]
  have hsize : layout.logicalSize = ∏ dimension, layout.extents.get dimension := by
    rw [layout.logicalSize_eq, prod_extents]
  have hrange : ∀ digits, Within layout.extents.get digits →
      0 ≤ strideSum digits layout.strides.get (List.finRange rank) ∧
        strideSum digits layout.strides.get (List.finRange rank) <
          ∏ dimension, layout.extents.get dimension := by
    intro digits hdigits
    have hbound := hbounds digits hdigits
    have hle := hbound.strideSum_le
    have hge := hbound.strideSum_nonneg
    have hrequired := (layout.requiredSpanSize_eq hbound.nonempty).1
    rw [hget] at hle hge
    exact ⟨hge, by omega⟩
  -- As many coordinates as offsets, and no offset taken twice: every one is taken.
  have hinjective : ∀ left right, Within layout.extents.get left →
      Within layout.extents.get right →
        strideSum left layout.strides.get (List.finRange rank) =
          strideSum right layout.strides.get (List.finRange rank) → left = right := by
    intro left right hleft hright heq
    have hequal := layout.offset_injective hunique _ _ (hbounds left hleft) (hbounds right hright)
      (by rw [offset_eq (hbounds left hleft), offset_eq (hbounds right hright), hget, hget, heq])
    rw [← hget left, ← hget right, hequal]
  rcases exists_digits layout.extents_nonneg hrange hinjective hnonneg (hlt.trans_eq hsize) with
    ⟨digits, hdigits, hvalue⟩
  refine ⟨List.Vector.ofFn digits, hbounds digits hdigits, ?_⟩
  rw [offset_eq (hbounds digits hdigits), hget, hvalue]

/-! ## What the constructors accept -/

theorem createValidated_extents {extents strides : Shape rank}
    {hstrides : ∀ dimension, 0 ≤ strides.get dimension} {kind : DenseLayoutKind}
    (h : createValidated extents strides hstrides kind = .ok layout) :
    layout.extents = extents ∧ layout.strides = strides := by
  unfold createValidated at h
  split at h
  · cases h
  split at h
  · cases h
  split at h
  · cases h
  split at h
  · cases h
  cases h
  exact ⟨rfl, rfl⟩

/-- A span between zero and the greatest extent passes the conversions. -/
theorem exists_createValidated {extents strides : Shape rank}
    (hstrides : ∀ dimension, 0 ≤ strides.get dimension) (kind : DenseLayoutKind)
    {logicalSize span : Int} (hlogical : validateExtents extents = .ok logicalSize)
    (hsize : 0 ≤ logicalSize ∧ logicalSize ≤ int64.maximum)
    (hrequired : requiredSpan extents strides logicalSize = .ok span)
    (hspan : 0 ≤ span ∧ span ≤ int64.maximum) :
    ∃ layout, createValidated extents strides hstrides kind = .ok layout := by
  have hmaximum : int64.maximum ≤ sizeType.maximum := by decide
  have hcast : ∀ value : Int, 0 ≤ value ∧ value ≤ int64.maximum →
      checkedCast sizeType value = .ok value := by
    rintro value ⟨hnonneg, hle⟩
    exact checkedCast_ok ⟨sizeType.minimum_nonpos.trans hnonneg, hle.trans hmaximum⟩
  -- The matches are those of the loops that the hypotheses are about.
  unfold createValidated
  split
  · rename_i heq
    simp [hlogical] at heq
  rename_i size heq
  obtain rfl : logicalSize = size := by simpa [hlogical] using heq
  split
  · rename_i heqSpan
    simp [hrequired] at heqSpan
  rename_i required heqSpan
  obtain rfl : span = required := by simpa [hrequired] using heqSpan
  split
  · rename_i heqCast
    simp [hcast span hspan] at heqCast
  split
  · rename_i heqCast
    simp [hcast logicalSize hsize] at heqCast
  exact ⟨_, rfl⟩

/-- Strides that a stride loop has filled in pass the remaining checks. -/
theorem exists_createValidated_of_filled {extents : Shape rank} {failure : Status}
    {dimensions : List (Fin rank)} {filled : Shape rank × Int} {logicalSize : Int}
    (hdimensions : dimensions.Perm (List.finRange rank))
    (hlogical : validateExtents extents = .ok logicalSize)
    (hfilled : fillStrides extents failure dimensions = .ok filled)
    (hstrides : ∀ dimension, 0 ≤ filled.1.get dimension) (kind : DenseLayoutKind) :
    ∃ layout, createValidated extents filled.1 hstrides kind = .ok layout := by
  rcases validateExtents_ok_iff.1 hlogical with ⟨hnonneg, hleading, rfl⟩
  have hle : extents.toList.prod ≤ int64.maximum :=
    (prod_le_leadingProduct hnonneg).trans hleading
  have hprod : 0 ≤ extents.toList.prod := prod_nonneg hnonneg
  by_cases hzero : extents.toList.prod = 0
  · exact exists_createValidated hstrides kind hlogical ⟨hprod, hle⟩
      (by rw [requiredSpan, if_pos hzero]) ⟨le_rfl, int64.maximum_nonneg⟩
  · have hpos := one_le_get_of_prod_ne_zero hzero (get_nonneg hnonneg)
    -- The span of running products is the product of the extents, which fits.
    have hrunning := (fillStrides_running (hdimensions.nodup_iff.2 (List.nodup_finRange rank))
      hfilled (get_nonneg hnonneg) zero_le_one).1
    have hsum := hrunning.span_eq
    rw [one_mul, strideSum_perm _ _ hdimensions] at hsum
    have hproduct : extentProduct extents.get dimensions = extents.toList.prod := by
      rw [← extentProduct_finRange]
      exact (hdimensions.map _).prod_eq
    rw [hproduct] at hsum
    refine exists_createValidated hstrides kind hlogical ⟨hprod, hle⟩
      ((requiredSpan_ok_iff hzero hpos hstrides).2 ⟨?_, hle⟩) ⟨hprod, hle⟩
    rw [← hsum, add_comm]
    rfl

theorem createFilled_ok_iff {extents : Shape rank} {failure : Status}
    {dimensions : List (Fin rank)} {hdimensions : dimensions.Perm (List.finRange rank)}
    {kind : DenseLayoutKind} :
    (∃ layout, createFilled extents failure dimensions hdimensions kind = .ok layout) ↔
      (∀ extent ∈ extents.toList, 0 ≤ extent) ∧ leadingProduct extents.toList ≤ int64.maximum ∧
        leadingProduct (dimensions.map extents.get) ≤ int64.maximum := by
  constructor
  · rintro ⟨layout, h⟩
    unfold createFilled at h
    split at h
    · cases h
    rename_i hvalidated
    split at h
    · cases h
    rename_i filled hfilled
    rcases validateExtents_ok_iff.1 hvalidated with ⟨hnonneg, hleading, -⟩
    exact ⟨hnonneg, hleading, (fillStrides_ok_iff (get_nonneg hnonneg)).1 ⟨filled, hfilled⟩⟩
  · rintro ⟨hnonneg, hleading, hrunning⟩
    have hlogical := validateExtents_ok_iff.2 ⟨hnonneg, hleading, rfl⟩
    rcases (@fillStrides_ok_iff _ _ failure _ (get_nonneg hnonneg)).2 hrunning with
      ⟨filled, hfilled⟩
    unfold createFilled
    split
    · rename_i heq
      simp [hlogical] at heq
    rename_i hvalidated
    split
    · rename_i heq
      simp [hfilled] at heq
    · rename_i heq
      exact exists_createValidated_of_filled hdimensions hvalidated heq _ kind

theorem createLeft_ok_iff {extents : Shape rank} :
    (∃ layout, createLeft extents = .ok layout) ↔
      (∀ extent ∈ extents.toList, 0 ≤ extent) ∧
        leadingProduct extents.toList ≤ int64.maximum := by
  rw [createLeft, createFilled_ok_iff, map_get_finRange, and_self_iff]

theorem createRight_ok_iff {extents : Shape rank} :
    (∃ layout, createRight extents = .ok layout) ↔
      (∀ extent ∈ extents.toList, 0 ≤ extent) ∧ leadingProduct extents.toList ≤ int64.maximum ∧
        leadingProduct extents.toList.reverse ≤ int64.maximum := by
  rw [createRight, createFilled_ok_iff, List.map_reverse, map_get_finRange]

/-- A layout of running products is unique, and its span is its logical size. -/
theorem createFilled_unique {extents : Shape rank} {failure : Status}
    {dimensions : List (Fin rank)} {hdimensions : dimensions.Perm (List.finRange rank)}
    {kind : DenseLayoutKind}
    (h : createFilled extents failure dimensions hdimensions kind = .ok layout) :
    layout.unique = true ∧ layout.exhaustive = true := by
  unfold createFilled at h
  split at h
  · cases h
  rename_i hvalidated
  split at h
  · cases h
  rename_i filled hfilled
  rcases createValidated_extents h with ⟨hextents, hstrides⟩
  have hnodup : dimensions.Nodup := hdimensions.nodup_iff.2 (List.nodup_finRange rank)
  have hrunning : Running layout.extents.get layout.strides.get 1 dimensions := by
    rw [hextents, hstrides]
    exact (fillStrides_running hnodup hfilled
      (get_nonneg (validateExtents_nonneg hvalidated)) zero_le_one).1
  rw [layout.exhaustive_eq, layout.unique_eq]
  -- An empty layout is unique by the convention of the source.
  by_cases hzero : layout.logicalSize = 0
  · simp [hzero, layout.requiredSpanSize_of_empty hzero]
  · have hsum := hrunning.span_eq
    have hproduct : extentProduct layout.extents.get dimensions = layout.logicalSize := by
      rw [layout.logicalSize_eq, ← extentProduct_finRange]
      exact (hdimensions.map _).prod_eq
    rw [one_mul, strideSum_perm _ _ hdimensions, hproduct] at hsum
    have hspan := layout.requiredSpanSize_eq hzero
    have hspanEq : layout.requiredSpanSize = layout.logicalSize := by
      rw [hspan.1, ← hsum, add_comm]
      rfl
    have hunique := proveUnique_of_running hdimensions hrunning (layout.extents_pos hzero)
      (by rw [← layout.logicalSize_eq, ← hspanEq]; exact hspan.2)
    simp [hunique, hspanEq]

/-! ## Correctness of layouts -/

/-- Offsets stay inside the span and the last coordinate ends it; `unique` promises that offsets
determine coordinates, and `exhaustive` that every offset below the logical size is taken. -/
theorem mapping_correct (layout : DenseLayout rank) :
    (∀ coordinates, layout.InBounds coordinates →
      ∃ offset, layout.offset coordinates = .ok offset ∧ 0 ≤ offset ∧
        offset < layout.requiredSpanSize) ∧
    (layout.logicalSize ≠ 0 →
      ∃ coordinates, layout.InBounds coordinates ∧
        layout.offset coordinates = .ok (layout.requiredSpanSize - 1)) ∧
    (layout.unique = true →
      ∀ left right, layout.InBounds left → layout.InBounds right →
        layout.offset left = layout.offset right → left = right) ∧
    (layout.exhaustive = true →
      (∀ coordinates, layout.InBounds coordinates →
        ∃ offset, layout.offset coordinates = .ok offset ∧ 0 ≤ offset ∧
          offset < layout.logicalSize) ∧
      ∀ offset, 0 ≤ offset → offset < layout.logicalSize →
        ∃! coordinates, layout.InBounds coordinates ∧
          layout.offset coordinates = .ok offset) ∧
    ∀ extents, createLeft extents = .ok layout ∨ createRight extents = .ok layout →
      layout.unique = true ∧ layout.exhaustive = true := by
  have hoffset : ∀ coordinates, layout.InBounds coordinates →
      ∃ offset, layout.offset coordinates = .ok offset ∧ 0 ≤ offset ∧
        offset < layout.requiredSpanSize := by
    intro coordinates hbounds
    have hspan := layout.requiredSpanSize_eq hbounds.nonempty
    exact ⟨_, offset_eq hbounds, hbounds.strideSum_nonneg, by have := hbounds.strideSum_le; omega⟩
  have hinjective := layout.offset_injective
  refine ⟨hoffset, layout.exists_last_offset, hinjective, fun hexhaustive => ?_, ?_⟩
  -- Existence by counting the offsets, uniqueness from the uniqueness of the layout.
  · rcases layout.of_exhaustive hexhaustive with ⟨hunique, hspan⟩
    rw [hspan] at hoffset
    refine ⟨hoffset, fun offset hnonneg hlt => ?_⟩
    rcases layout.exists_offset hunique hspan hnonneg hlt with ⟨coordinates, hbounds, heq⟩
    refine ⟨coordinates, ⟨hbounds, heq⟩, fun other hother => ?_⟩
    exact hinjective hunique other coordinates hother.1 hbounds (hother.2.trans heq.symm)
  · rintro extents (h | h)
    · exact createFilled_unique h
    · exact createFilled_unique h

/-! ## Zero extents -/

theorem createFilled_extents {extents : Shape rank} {failure : Status}
    {dimensions : List (Fin rank)} {hdimensions : dimensions.Perm (List.finRange rank)}
    {kind : DenseLayoutKind}
    (h : createFilled extents failure dimensions hdimensions kind = .ok layout) :
    layout.extents = extents := by
  unfold createFilled at h
  split at h
  · cases h
  split at h
  · cases h
  exact (createValidated_extents h).1

/-- A layout with a zero extent has no element and needs no storage. -/
theorem createFilled_of_zero {extents : Shape rank} {failure : Status}
    {dimensions : List (Fin rank)} {hdimensions : dimensions.Perm (List.finRange rank)}
    {kind : DenseLayoutKind}
    (h : createFilled extents failure dimensions hdimensions kind = .ok layout)
    (hzero : 0 ∈ extents.toList) : layout.logicalSize = 0 ∧ layout.requiredSpanSize = 0 := by
  have hsize : layout.logicalSize = 0 := by
    rw [layout.logicalSize_eq, createFilled_extents h]
    exact List.prod_eq_zero hzero
  exact ⟨hsize, layout.requiredSpanSize_of_empty hsize⟩

/-- The nonzero extents first, then the zero ones. -/
def nonzeroFirst (extents : Shape rank) : Shape rank :=
  ⟨extents.toList.filter (fun extent => extent ≠ 0) ++
      extents.toList.filter (fun extent => !decide (extent ≠ 0)),
    (List.filter_append_perm _ _).length_eq.trans extents.2⟩

theorem nonzeroFirst_perm (extents : Shape rank) :
    (nonzeroFirst extents).toList.Perm extents.toList :=
  List.filter_append_perm _ _

theorem leadingProduct_nonzeroFirst (extents : Shape rank) :
    leadingProduct (nonzeroFirst extents).toList =
      (extents.toList.filter fun extent => extent ≠ 0).prod := by
  have hzeros : ∀ zeros : List Int, (∀ extent ∈ zeros, extent = 0) → leadingProduct zeros = 1 := by
    intro zeros hall
    cases zeros with
    | nil => rfl
    | cons extent zeros =>
      rw [hall extent List.mem_cons_self, leadingProduct_zero]
  have happend : ∀ nonzeros zeros : List Int, (∀ extent ∈ nonzeros, extent ≠ 0) →
      leadingProduct (nonzeros ++ zeros) = nonzeros.prod * leadingProduct zeros := by
    intro nonzeros zeros hall
    rw [leadingProduct, List.takeWhile_append_of_pos (by simpa using hall), List.prod_append,
      leadingProduct]
  change leadingProduct (_ ++ _) = _
  rw [happend _ _ (by simp), hzeros _ (by simp), mul_one]

/-- Without a zero extent, or with nonzero extents whose product fits, the order of the extents
does not matter. -/
theorem leadingProduct_le_iff_of_perm {left right : List Int} (hperm : left.Perm right)
    (hnonneg : ∀ extent ∈ right, 0 ≤ extent)
    (hfits : 0 ∈ right → (right.filter fun extent => extent ≠ 0).prod ≤ int64.maximum) :
    leadingProduct left ≤ int64.maximum ↔ leadingProduct right ≤ int64.maximum := by
  by_cases hzero : 0 ∈ right
  · have hleft : ∀ extent ∈ left, 0 ≤ extent := fun extent hmem =>
      hnonneg extent (hperm.mem_iff.1 hmem)
    have hfilter : (left.filter fun extent => extent ≠ 0).prod =
        (right.filter fun extent => extent ≠ 0).prod := (hperm.filter _).prod_eq
    have hright := (leadingProduct_le_filter hnonneg).trans (hfits hzero)
    have hleft := (leadingProduct_le_filter hleft).trans (hfilter.trans_le (hfits hzero))
    exact iff_of_true hleft hright
  · have hright : ∀ extent ∈ right, extent ≠ 0 := fun extent hmem heq => hzero (heq ▸ hmem)
    have hleft : ∀ extent ∈ left, extent ≠ 0 := fun extent hmem =>
      hright extent (hperm.mem_iff.1 hmem)
    rw [leadingProduct_of_forall_ne hleft, leadingProduct_of_forall_ne hright, hperm.prod_eq]

/-- Empty shapes have left and right layouts whatever the order of the extents, exactly when the
product of the nonzero extents fits. -/
theorem zero_extent_accepted_iff (extents : Shape rank) :
    (((∀ extent ∈ extents.toList, 0 ≤ extent) → 0 ∈ extents.toList →
        (∀ statics dynamicExtents, dynamicExtents.length = Extents.dynamicRank statics →
          resolveExtents statics.toList dynamicExtents = .ok extents.toList →
            ∃ created, Extents.create statics dynamicExtents = .ok created ∧
              created.values = extents ∧ created.logicalSize = 0) ∧
        (∃ layout, createLeft extents = .ok layout ∧ layout.logicalSize = 0 ∧
          layout.requiredSpanSize = 0) ∧
        ∃ layout, createRight extents = .ok layout ∧ layout.logicalSize = 0 ∧
          layout.requiredSpanSize = 0) ∧
      ∀ permuted : Shape rank, permuted.toList.Perm extents.toList →
        ((∃ layout, createLeft permuted = .ok layout) ↔
          ∃ layout, createLeft extents = .ok layout) ∧
        ((∃ layout, createRight permuted = .ok layout) ↔
          ∃ layout, createRight extents = .ok layout)) ↔
      ((∀ extent ∈ extents.toList, 0 ≤ extent) → 0 ∈ extents.toList →
        (extents.toList.filter fun extent => extent ≠ 0).prod ≤ int64.maximum) := by
  constructor
  -- With the nonzero extents in front, the checked product is that of all of them.
  · rintro ⟨haccepted, hpermuted⟩ hnonneg hzero
    rcases (haccepted hnonneg hzero).2.1 with ⟨layout, hlayout, -⟩
    have hfirst := (hpermuted _ (nonzeroFirst_perm extents)).1.2 ⟨layout, hlayout⟩
    rw [createLeft_ok_iff, leadingProduct_nonzeroFirst] at hfirst
    exact hfirst.2
  · intro hfits
    constructor
    · intro hnonneg hzero
      have hleft := (leadingProduct_le_filter hnonneg).trans (hfits hnonneg hzero)
      have hright : leadingProduct extents.toList.reverse ≤ int64.maximum :=
        (leadingProduct_le_iff_of_perm (List.reverse_perm _) hnonneg (hfits hnonneg)).2 hleft
      refine ⟨fun statics dynamicExtents hcount hvalues =>
        Extents.create_of_zero hcount hvalues hzero, ?_, ?_⟩
      · rcases createLeft_ok_iff.2 ⟨hnonneg, hleft⟩ with ⟨layout, hlayout⟩
        exact ⟨layout, hlayout, createFilled_of_zero hlayout hzero⟩
      · rcases createRight_ok_iff.2 ⟨hnonneg, hleft, hright⟩ with ⟨layout, hlayout⟩
        exact ⟨layout, hlayout, createFilled_of_zero hlayout hzero⟩
    · intro permuted hperm
      simp only [createLeft_ok_iff, createRight_ok_iff, hperm.mem_iff]
      -- No prefix exceeds the product of the nonzero extents, in whatever order.
      have hforward := fun hnonneg => leadingProduct_le_iff_of_perm hperm hnonneg (hfits hnonneg)
      have hreversed : (∀ extent ∈ extents.toList, 0 ≤ extent) →
          (leadingProduct permuted.toList.reverse ≤ int64.maximum ↔
            leadingProduct extents.toList.reverse ≤ int64.maximum) := fun hnonneg =>
        leadingProduct_le_iff_of_perm
          ((List.reverse_perm _).trans (hperm.trans (List.reverse_perm _).symm))
          (by simpa using hnonneg) (by
            have hfilter : (extents.toList.reverse.filter fun extent => extent ≠ 0).prod =
                (extents.toList.filter fun extent => extent ≠ 0).prod :=
              ((List.reverse_perm _).filter _).prod_eq
            rw [hfilter]
            simpa using hfits hnonneg)
      exact ⟨and_congr_right hforward, and_congr_right fun hnonneg =>
        and_congr (hforward hnonneg) (hreversed hnonneg)⟩

/-- A zero extent behind extents whose product overflows: the shape is empty, and there is no
layout of it. -/
theorem createLeft_rejects_trailing_zero :
    ¬ ∀ extents : Shape 3, (∀ extent ∈ extents.toList, 0 ≤ extent) → 0 ∈ extents.toList →
      ∃ layout, createLeft extents = .ok layout ∧ layout.logicalSize = 0 ∧
        layout.requiredSpanSize = 0 := by
  intro h
  rcases h ⟨[2 ^ 62, 4, 0], rfl⟩ (by decide) (by decide) with ⟨layout, hlayout, -⟩
  have haccepted := (createLeft_ok_iff.1 ⟨layout, hlayout⟩).2
  exact absurd haccepted (by decide)

end DenseLayout

end Dense
end AscCpp
