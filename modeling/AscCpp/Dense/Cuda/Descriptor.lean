import AscCpp.Core.Cuda.Provider
import AscCpp.Random.LogicalElement

/-!
# Descriptor — dense views as the CUDA providers describe them

The providers erase the type of a view and check its numbers once more before they launch.

- `foldlM_describedRound`: the loop over the dimensions, and when it overflows.
- `apart_kernelAddress`: the kernels find the elements at places apart from each other.
- `validateSizes_ok_iff`: the view is found to be consistent, unless it is empty and a storage offset
  of its other dimensions overflows.
-/

namespace AscCpp
namespace Dense
namespace Cuda

open AscCpp.Core Library

variable {Cell V : Type} {rank : Nat}

structure ViewDescriptor (rank : Nat) where
  data : Nat
  memorySpace : MemorySpace
  extents : Shape rank
  strides : Shape rank
  logicalSize : Int
  requiredSpanSize : Int
  layoutKind : DenseLayoutKind
  deriving DecidableEq

def describe {type : Representation Cell V} (view : DenseView type rank) : ViewDescriptor rank where
  data := view.data
  memorySpace := view.memorySpace
  extents := view.mapping.extents
  strides := view.mapping.strides
  logicalSize := view.mapping.logicalSize
  requiredSpanSize := view.mapping.requiredSpanSize
  layoutKind := view.mapping.kind

/-! ## The elements in a kernel -/

/-- `Offset` and `PhysicalOffset`; the arithmetic is that of `std::uint64_t`. -/
def kernelOffset (view : ViewDescriptor rank) (logicalIndex : Nat) : Nat :=
  ((List.finRange rank).foldl (Random.digitRound view.extents view.strides) (logicalIndex, 0)).2

section Elements

variable {type : LocalRepresentation Cell V} {view : DenseView type.toRepresentation rank}

/-- The address of the element with this number, as a kernel finds it. -/
def kernelAddress (view : DenseView type.toRepresentation rank) (logicalIndex : Nat) : Nat :=
  view.data + kernelOffset (describe view) logicalIndex * type.size

theorem kernelAddress_eq {logicalIndex : Nat} (h : logicalIndex < boxSize view.mapping.extents) :
    kernelAddress view logicalIndex =
      view.addressOf (coordinateAt view.mapping.extents logicalIndex) := by
  rw [← Random.logicalElement_eq view h]
  rfl

theorem apart_kernelAddress (view : DenseView type.toRepresentation rank) :
    ElementsApart type.size (boxSize view.mapping.extents) (kernelAddress view) := by
  intro index hindex other hother hne
  rw [kernelAddress_eq hindex, kernelAddress_eq hother]
  exact view.family.apart ⟨index, hindex⟩ ⟨other, hother⟩ fun heq => hne (congrArg Fin.val heq)

theorem logicalSize_toNat (layout : DenseLayout rank) :
    layout.logicalSize.toNat = boxSize layout.extents := by
  rw [layout.logicalSize_eq, boxSize_eq_prod, toNat_prod (validateExtents_nonneg layout.logical),
    Int.toNat_natCast]

theorem boxSize_le (layout : DenseLayout rank) : boxSize layout.extents ≤ 2 ^ 63 := by
  have hfits := (prod_le_leadingProduct (validateExtents_nonneg layout.logical)).trans
    (validateExtents_ok_iff.1 layout.logical).2.1
  have hmaximum : int64.maximum = 9223372036854775807 := by decide
  rw [← layout.logicalSize_eq] at hfits
  have hsize := logicalSize_toNat layout
  omega

end Elements

/-! ## The check of the sizes -/

/-- The variables of the loop. -/
structure DescribedSizes where
  logicalSize : Int
  empty : Bool
  maximumOffset : Int
  deriving DecidableEq, Repr

/-- The number of elements with one more dimension. -/
def describedProduct (empty : Bool) (logicalSize extent : Int) : Result Int :=
  if empty then .ok logicalSize else checkedMultiply int64 logicalSize extent

/-- The greatest offset with one more dimension. -/
def describedOffset (maximumOffset extent stride : Int) : Result Int :=
  if extent > 0 then addTerm id id maximumOffset (extent - 1) stride else .ok maximumOffset

/-- One round of the loop over the dimensions. -/
def describedRound (negative : Status) (extents strides : Shape rank) (sizes : DescribedSizes)
    (dimension : Fin rank) : Result DescribedSizes := do
  let extent := extents.get dimension
  let stride := strides.get dimension
  failIf (extent < 0 ∨ stride < 0) negative
  let empty := sizes.empty || extent = 0
  let logicalSize ← describedProduct empty sizes.logicalSize extent
  let maximumOffset ← describedOffset sizes.maximumOffset extent stride
  .ok ⟨logicalSize, empty, maximumOffset⟩

def expectedSpan (logicalSize maximumOffset : Int) : Result Int :=
  if logicalSize ≠ 0 then do
    let span ← checkedAdd int64 maximumOffset 1
    checkedCast sizeType span
  else
    .ok 0

/-- The part of `ValidateViewMetadata` and of `ValidateDescriptor` that counts the elements and the
span anew; the two differ in their messages. -/
def validateSizes (negative size span : Status) (view : ViewDescriptor rank) : Result Unit := do
  let sizes ←
    (List.finRange rank).foldlM (describedRound negative view.extents view.strides) ⟨1, false, 0⟩
  let logicalSize := if sizes.empty then 0 else sizes.logicalSize
  failIf (logicalSize ≠ view.logicalSize) size
  let expected ← expectedSpan logicalSize sizes.maximumOffset
  failIf (expected ≠ view.requiredSpanSize) span

/-! ## What the check accepts -/

/-- The greatest index of every dimension that has one. -/
def reachedIndices (extents : Shape rank) (dimension : Fin rank) : Int :=
  max (extents.get dimension - 1) 0

/-- The round without its checks. -/
def describedNext (extents strides : Shape rank) (sizes : DescribedSizes) (dimension : Fin rank) :
    DescribedSizes where
  logicalSize :=
    if sizes.empty || extents.get dimension = 0 then sizes.logicalSize
    else sizes.logicalSize * extents.get dimension
  empty := sizes.empty || extents.get dimension = 0
  maximumOffset :=
    sizes.maximumOffset + reachedIndices extents dimension * strides.get dimension

section Loop

variable {extents strides : Shape rank} {sizes : DescribedSizes}

theorem describedOffset_ok_iff {dimension : Fin rank} (hextent : 0 ≤ extents.get dimension)
    (hstride : 0 ≤ strides.get dimension) {offset result : Int} (hoffset : 0 ≤ offset)
    (hfits : offset ≤ int64.maximum) :
    describedOffset offset (extents.get dimension) (strides.get dimension) = .ok result ↔
      result = offset + reachedIndices extents dimension * strides.get dimension ∧
        offset + reachedIndices extents dimension * strides.get dimension ≤ int64.maximum := by
  unfold describedOffset reachedIndices
  rcases hextent.eq_or_lt with hzero | hpos
  · rw [← hzero, if_neg (lt_irrefl 0)]
    simp [hfits, eq_comm]
  · rw [if_pos hpos, max_eq_left (by omega)]
    exact addTerm_ok_iff hoffset hfits (by omega) hstride

theorem describedRound_ok_iff {negative : Status} {next : DescribedSizes} {dimension : Fin rank}
    (hextent : 0 ≤ extents.get dimension) (hstride : 0 ≤ strides.get dimension)
    (hoffset : 0 ≤ sizes.maximumOffset) (hfits : sizes.maximumOffset ≤ int64.maximum)
    (hsize : 0 ≤ sizes.logicalSize)
    (hproduct : sizes.empty = false → extents.get dimension ≠ 0 →
      sizes.logicalSize * extents.get dimension ≤ int64.maximum) :
    describedRound negative extents strides sizes dimension = .ok next ↔
      next = describedNext extents strides sizes dimension ∧
        (describedNext extents strides sizes dimension).maximumOffset ≤ int64.maximum := by
  have hcounted : describedProduct (sizes.empty || extents.get dimension = 0) sizes.logicalSize
      (extents.get dimension) = .ok (describedNext extents strides sizes dimension).logicalSize := by
    unfold describedProduct describedNext
    split
    · rfl
    · rename_i hopen
      rw [Bool.or_eq_true, not_or, Bool.not_eq_true, decide_eq_true_eq] at hopen
      rw [checkedMultiply_of_nonneg hsize hextent, if_pos (hproduct hopen.1 hopen.2)]
  rw [describedRound, Result.failIf_bind_eq_ok_iff]
  simp only
  rw [hcounted, Result.ok_bind, Result.bind_eq_ok_iff]
  simp only [describedOffset_ok_iff hextent hstride hoffset hfits]
  constructor
  · rintro ⟨-, offset, ⟨rfl, hle⟩, hnext⟩
    exact ⟨(Except.ok.inj hnext).symm, hle⟩
  · rintro ⟨rfl, hle⟩
    exact ⟨by omega, _, ⟨rfl, hle⟩, rfl⟩

theorem foldl_describedNext_offset (dimensions : List (Fin rank)) (sizes : DescribedSizes) :
    (dimensions.foldl (describedNext extents strides) sizes).maximumOffset =
      sizes.maximumOffset + strideSum (reachedIndices extents) strides.get dimensions := by
  induction dimensions generalizing sizes with
  | nil => simp
  | cons dimension dimensions ih =>
    rw [List.foldl_cons, ih, strideSum_cons, ← add_assoc]
    rfl

theorem foldl_describedNext_empty (dimensions : List (Fin rank)) (sizes : DescribedSizes) :
    (dimensions.foldl (describedNext extents strides) sizes).empty = true ↔
      sizes.empty = true ∨ ∃ dimension ∈ dimensions, extents.get dimension = 0 := by
  induction dimensions generalizing sizes with
  | nil => simp
  | cons dimension dimensions ih =>
    rw [List.foldl_cons, ih]
    simp [describedNext, or_assoc]

theorem foldl_describedNext_size (dimensions : List (Fin rank)) (sizes : DescribedSizes)
    (h : (dimensions.foldl (describedNext extents strides) sizes).empty = false) :
    (dimensions.foldl (describedNext extents strides) sizes).logicalSize =
      sizes.logicalSize * (dimensions.map extents.get).prod := by
  induction dimensions generalizing sizes with
  | nil => simp
  | cons dimension dimensions ih =>
    rw [List.foldl_cons] at h ⊢
    have hopen : ¬ (describedNext extents strides sizes dimension).empty = true := by
      intro hempty
      rw [(foldl_describedNext_empty _ _).2 (Or.inl hempty)] at h
      cases h
    rw [ih _ h, List.map_cons, List.prod_cons, ← mul_assoc]
    congr 1
    exact if_neg hopen

/-- The loop ends unless an offset overflows; the induction is on the dimensions. -/
theorem foldlM_describedRound {negative : Status} {dimensions : List (Fin rank)}
    {final : DescribedSizes} (hextents : ∀ dimension, 0 ≤ extents.get dimension)
    (hstrides : ∀ dimension, 0 ≤ strides.get dimension) (hoffset : 0 ≤ sizes.maximumOffset)
    (hfits : sizes.maximumOffset ≤ int64.maximum) (hsize : 0 ≤ sizes.logicalSize)
    (hproduct : sizes.empty = false →
      sizes.logicalSize * leadingProduct (dimensions.map extents.get) ≤ int64.maximum) :
    dimensions.foldlM (describedRound negative extents strides) sizes = .ok final ↔
      final = dimensions.foldl (describedNext extents strides) sizes ∧
        sizes.maximumOffset + strideSum (reachedIndices extents) strides.get dimensions ≤
          int64.maximum := by
  induction dimensions generalizing sizes with
  | nil => simp [pure, Except.pure, eq_comm, hfits]
  | cons dimension dimensions ih =>
    have hextent := hextents dimension
    have hrest : 0 ≤ strideSum (reachedIndices extents) strides.get dimensions :=
      strideSum_nonneg (fun other _ => hstrides other) fun other _ => le_max_right _ _
    have hterm : 0 ≤ reachedIndices extents dimension * strides.get dimension :=
      mul_nonneg (le_max_right _ _) (hstrides dimension)
    have hlater := @one_le_leadingProduct (dimensions.map extents.get)
      (by simpa using fun other _ => hextents other)
    -- The products that are still to come fit, since they are those of a greater product.
    have hnow : sizes.empty = false → extents.get dimension ≠ 0 →
        sizes.logicalSize * extents.get dimension *
          leadingProduct (dimensions.map extents.get) ≤ int64.maximum := by
      intro hopen hne
      have hall := hproduct hopen
      rwa [List.map_cons, leadingProduct_cons hne, ← mul_assoc] at hall
    have hthis : sizes.empty = false → extents.get dimension ≠ 0 →
        sizes.logicalSize * extents.get dimension ≤ int64.maximum := by
      intro hopen hne
      have hgrows : 0 ≤ sizes.logicalSize * extents.get dimension := mul_nonneg hsize hextent
      have hall := hnow hopen hne
      nlinarith
    have hnext : (describedNext extents strides sizes dimension).empty = false →
        (describedNext extents strides sizes dimension).logicalSize *
          leadingProduct (dimensions.map extents.get) ≤ int64.maximum := by
      intro hopen
      have hparts := hopen
      simp only [describedNext, Bool.or_eq_false_iff, decide_eq_false_iff_not] at hparts
      have hvalue : (describedNext extents strides sizes dimension).logicalSize =
          sizes.logicalSize * extents.get dimension := if_neg (by simpa [describedNext] using hopen)
      rw [hvalue]
      exact hnow hparts.1 hparts.2
    have hcounts : 0 ≤ (describedNext extents strides sizes dimension).logicalSize := by
      unfold describedNext
      simp only
      split
      exacts [hsize, mul_nonneg hsize hextent]
    have hsum : (describedNext extents strides sizes dimension).maximumOffset =
        sizes.maximumOffset + reachedIndices extents dimension * strides.get dimension := rfl
    rw [List.foldlM_cons, Result.bind_eq_ok_iff, strideSum_cons, ← add_assoc, List.foldl_cons]
    simp only [describedRound_ok_iff hextent (hstrides dimension) hoffset hfits hsize hthis]
    constructor
    · rintro ⟨next, ⟨rfl, hle⟩, hloop⟩
      exact (ih (by omega) hle hcounts hnext).1 hloop
    · rintro ⟨rfl, hle⟩
      refine ⟨_, ⟨rfl, by omega⟩, ?_⟩
      exact (ih (by omega) (by omega) hcounts hnext).2 ⟨rfl, hle⟩

end Loop

/-- The greatest offset of the dimensions that have indices. -/
def reach (layout : DenseLayout rank) : Int :=
  strideSum (reachedIndices layout.extents) layout.strides.get (List.finRange rank)

theorem reach_eq {layout : DenseLayout rank} (h : layout.logicalSize ≠ 0) :
    reach layout = layout.maximumOffset := by
  have hindices : reachedIndices layout.extents = lastIndices layout.extents := by
    funext dimension
    have := layout.extents_pos h dimension
    exact max_eq_left (by omega)
  rw [reach, hindices]

/-- The loop counts the elements of a layout as the layout does. -/
theorem foldl_describedNext_counts (layout : DenseLayout rank) :
    (if ((List.finRange rank).foldl (describedNext layout.extents layout.strides)
        ⟨1, false, 0⟩).empty then 0
      else ((List.finRange rank).foldl (describedNext layout.extents layout.strides)
        ⟨1, false, 0⟩).logicalSize) = layout.logicalSize := by
  split
  · rename_i hempty
    rcases (foldl_describedNext_empty _ _).1 hempty with hfalse | ⟨dimension, -, hzero⟩
    · cases hfalse
    · exact (layout.logicalSize_eq_zero_iff.2 ⟨dimension, hzero⟩).symm
  · rename_i hopen
    rw [foldl_describedNext_size _ _ (Bool.eq_false_iff.2 hopen), one_mul, map_get_finRange,
      layout.logicalSize_eq]

theorem expectedSpan_eq (layout : DenseLayout rank) :
    expectedSpan layout.logicalSize (reach layout) = .ok layout.requiredSpanSize := by
  unfold expectedSpan
  by_cases hempty : layout.logicalSize = 0
  · rw [if_neg (not_not.2 hempty), layout.requiredSpanSize_of_empty hempty]
  · have hspan := layout.requiredSpanSize_eq hempty
    have hnonneg : 0 ≤ reach layout :=
      strideSum_nonneg (fun other _ => layout.strides_nonneg other) fun other _ => le_max_right _ _
    have hmaximum : int64.maximum ≤ sizeType.maximum := by decide
    rw [reach_eq hempty] at hnonneg ⊢
    rw [if_pos hempty, checkedAdd_of_nonneg zero_le_one (by omega), ← hspan.1, if_pos hspan.2,
      Result.ok_bind, checkedCast_ok]
    exact ⟨sizeType.minimum_nonpos.trans (by omega), by omega⟩

/-- A view passes the check, unless it is empty and the offsets of its other dimensions overflow. -/
theorem validateSizes_ok_iff {type : Representation Cell V} (view : DenseView type rank)
    (negative size span : Status) :
    validateSizes negative size span (describe view) = .ok () ↔
      (view.mapping.logicalSize = 0 → reach view.mapping ≤ int64.maximum) := by
  have hloop : ∀ final, (List.finRange rank).foldlM
      (describedRound negative view.mapping.extents view.mapping.strides) ⟨1, false, 0⟩ =
        .ok final ↔ _ := fun final =>
    @foldlM_describedRound _ _ _ ⟨1, false, 0⟩ negative (List.finRange rank) final
      view.mapping.extents_nonneg view.mapping.strides_nonneg le_rfl int64.maximum_nonneg
      zero_le_one fun _ => by
        rw [one_mul, map_get_finRange]
        exact (validateExtents_ok_iff.1 view.mapping.logical).2.1
  have hcounts := foldl_describedNext_counts view.mapping
  have hspan := expectedSpan_eq view.mapping
  have hoffset := @foldl_describedNext_offset _ view.mapping.extents view.mapping.strides
    (List.finRange rank) ⟨1, false, 0⟩
  rw [zero_add, ← reach] at hoffset
  rw [← hcounts, ← hoffset] at hspan
  refine Result.bind_eq_ok_iff.trans ⟨?_, fun hreach => ?_⟩
  · rintro ⟨final, hfinal, -⟩ _
    have hle := ((hloop final).1 hfinal).2
    rwa [zero_add, ← reach] at hle
  · refine ⟨_, (hloop _).2 ⟨rfl, ?_⟩, ?_⟩
    · rw [zero_add, ← reach]
      by_cases hempty : view.mapping.logicalSize = 0
      · exact hreach hempty
      · have hle := view.mapping.requiredSpanSize_eq hempty
        rw [reach_eq hempty]
        omega
    · refine Result.failIf_bind_eq_ok_iff.2 ⟨not_not.2 hcounts, ?_⟩
      refine Result.bind_eq_ok_iff.2 ⟨_, hspan, ?_⟩
      exact Result.failIf_eq_ok_iff.2 (not_not.2 rfl)

end Cuda
end Dense
end AscCpp
