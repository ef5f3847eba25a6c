import AscCpp.Dense.View

/-!
# Subview — a box of a dense view as a view of its own

A subview keeps the strides of its view and shrinks the extents.

- `DenseLayout.exists_createStride`: shrunk extents pass every check of a layout.
- `DenseView.subview`: the operation; its later branches need no proof at run time.
- `subview_correct`: what it accepts, and where its elements stand.
-/

namespace AscCpp
namespace Dense

open AscCpp.Core Library

variable {rank : Nat}

/-! ## Layouts with smaller extents -/

theorem nonneg_of_forall₂ {smaller larger : List Int}
    (h : List.Forall₂ (fun extent extent' => 0 ≤ extent ∧ extent ≤ extent') smaller larger) :
    (∀ extent ∈ smaller, 0 ≤ extent) ∧ ∀ extent ∈ larger, 0 ≤ extent := by
  induction h with
  | nil => simp
  | cons hextent _ ih =>
    exact ⟨List.forall_mem_cons.2 ⟨hextent.1, ih.1⟩,
      List.forall_mem_cons.2 ⟨hextent.1.trans hextent.2, ih.2⟩⟩

/-- A zero extent may come earlier in the smaller extents, never later. -/
theorem leadingProduct_mono {smaller larger : List Int}
    (h : List.Forall₂ (fun extent extent' => 0 ≤ extent ∧ extent ≤ extent') smaller larger) :
    leadingProduct smaller ≤ leadingProduct larger := by
  induction h with
  | nil => exact le_rfl
  | @cons extent extent' smaller larger hextent hrest ih =>
    rcases hextent.1.eq_or_lt with rfl | hpos
    · rw [leadingProduct_zero]
      apply one_le_leadingProduct
      exact List.forall_mem_cons.2 ⟨hextent.2, (nonneg_of_forall₂ hrest).2⟩
    · rw [leadingProduct_cons hpos.ne', leadingProduct_cons (hpos.trans_le hextent.2).ne']
      have hone := one_le_leadingProduct (nonneg_of_forall₂ hrest).1
      exact mul_le_mul hextent.2 ih (by omega) (by omega)

namespace DenseLayout

variable {layout : DenseLayout rank} {extents : Shape rank}

/-- The extents lie within those of the layout. -/
def Shrinks (layout : DenseLayout rank) (extents : Shape rank) : Prop :=
  ∀ dimension, 0 ≤ extents.get dimension ∧ extents.get dimension ≤ layout.extents.get dimension

theorem Shrinks.forall₂ (h : layout.Shrinks extents) :
    List.Forall₂ (fun extent extent' => 0 ≤ extent ∧ extent ≤ extent') extents.toList
      layout.extents.toList := by
  apply List.forall₂_iff_get.2
  refine ⟨by simp, fun index hindex hindex' => ?_⟩
  have hrank : index < rank := by simpa using hindex
  simpa [List.Vector.get_eq_get_toList] using h ⟨index, hrank⟩

theorem Shrinks.validateExtents (h : layout.Shrinks extents) :
    Dense.validateExtents extents = .ok extents.toList.prod := by
  apply validateExtents_ok_iff.2
  refine ⟨?_, ?_, rfl⟩
  · intro extent hextent
    rcases (List.Vector.mem_iff_get _ _).1 hextent with ⟨dimension, rfl⟩
    exact (h dimension).1
  · exact (leadingProduct_mono h.forall₂).trans (validateExtents_ok_iff.1 layout.logical).2.1

/-- Without a zero extent the layout has none either, and offsets become no greater. -/
theorem Shrinks.maximumOffset_le (h : layout.Shrinks extents)
    (hpos : ∀ dimension, 1 ≤ extents.get dimension) :
    layout.logicalSize ≠ 0 ∧
      0 ≤ strideSum (lastIndices extents) layout.strides.get (List.finRange rank) ∧
      strideSum (lastIndices extents) layout.strides.get (List.finRange rank) ≤
        layout.maximumOffset := by
  refine ⟨fun hzero => ?_, ?_, ?_⟩
  · rcases layout.logicalSize_eq_zero_iff.1 hzero with ⟨dimension, hdimension⟩
    have hshrinks := h dimension
    have hextent := hpos dimension
    omega
  · apply strideSum_nonneg fun dimension _ => layout.strides_nonneg dimension
    intro dimension _
    have hextent := hpos dimension
    unfold lastIndices
    omega
  · apply strideSum_le fun dimension _ => layout.strides_nonneg dimension
    intro dimension _
    have hshrinks := h dimension
    unfold lastIndices
    omega

/-- The active dimensions of the smaller extents come in the same order. -/
theorem Shrinks.sortedDimensions_eq (h : layout.Shrinks extents)
    (hlayout : (sortedDimensions layout.extents layout.strides).Pairwise fun left right =>
      layout.strides.get left < layout.strides.get right) :
    sortedDimensions extents layout.strides =
      active extents.get (sortedDimensions layout.extents layout.strides) := by
  have hperm : (sortedDimensions extents layout.strides).Perm
      (active extents.get (sortedDimensions layout.extents layout.strides)) := by
    apply (sortedDimensions_perm _ _).trans
    have hactive : active extents.get (List.finRange rank) =
        active extents.get (active layout.extents.get (List.finRange rank)) := by
      rw [active, active, active, List.filter_filter]
      apply List.filter_congr
      intro dimension _
      have hshrinks := h dimension
      by_cases hmany : 1 < extents.get dimension
      · simp [hmany, hmany.trans_le hshrinks.2]
      · simp [hmany]
    rw [hactive]
    exact ((sortedDimensions_perm _ _).filter _).symm
  -- Both are sorted by the same strides, which differ from each other in the larger layout.
  refine hperm.eq_of_pairwise ?_ (sortedDimensions_sorted _ _)
    ((hlayout.imp fun hlt => hlt.le).sublist List.filter_sublist)
  have hdistinct :
      ((sortedDimensions layout.extents layout.strides).map layout.strides.get).Nodup :=
    List.pairwise_map.2 (hlayout.imp fun hlt => hlt.ne)
  intro left right hleft hright hle hge
  exact List.inj_on_of_nodup_map hdistinct (List.mem_filter.1 (hperm.mem_iff.1 hleft)).1
    (List.mem_filter.1 hright).1 (le_antisymm hle hge)

theorem strideSum_sorted (hpos : ∀ dimension, 1 ≤ extents.get dimension) (strides : Shape rank) :
    strideSum (lastIndices extents) strides.get (sortedDimensions extents strides) =
      strideSum (lastIndices extents) strides.get (List.finRange rank) := by
  rw [strideSum_perm _ _ (sortedDimensions_perm _ _), active, strideSum_filter]
  intro dimension _ hinactive
  have hextent := hpos dimension
  have hunit : extents.get dimension ≤ 1 := by simpa using hinactive
  unfold lastIndices
  omega

/-- The uniqueness test accepts smaller extents with the same strides. -/
theorem Shrinks.proveUnique (h : layout.Shrinks extents)
    (hpos : ∀ dimension, 1 ≤ extents.get dimension) (hunique : layout.unique = true) :
    Dense.proveUnique extents layout.strides = true := by
  rcases h.maximumOffset_le hpos with ⟨hsize, -, hoffset⟩
  have hsorted : Dense.proveUnique layout.extents layout.strides = true := by
    have heq := layout.unique_eq
    rw [hunique] at heq
    simpa [hsize] using heq.symm
  have hstrides : ∀ dimensions : List (Fin rank), ∀ dimension ∈ dimensions,
      0 ≤ layout.strides.get dimension := fun _ dimension _ => layout.strides_nonneg dimension
  rcases (coversSpan_iff zero_le_one (by decide)
    (fun dimension hmem => (sortedDimensions_active hmem).le) (hstrides _)).1 hsorted with
    ⟨hcovers, hfits⟩
  have hdistinct := (hcovers.strides_lt le_rfl fun dimension hmem => sortedDimensions_active hmem).2
  apply (coversSpan_iff zero_le_one (by decide)
    (fun dimension hmem => (sortedDimensions_active hmem).le) (hstrides _)).2
  -- A sublist of covering strides covers, and its span is not larger.
  constructor
  · rw [h.sortedDimensions_eq hdistinct]
    exact hcovers.of_sublist List.filter_sublist le_rfl
      (fun dimension hmem => (sortedDimensions_active hmem).le) (fun dimension _ => (h dimension).2)
      (hstrides _)
  · rw [strideSum_sorted (layout.extents_pos hsize)] at hfits
    rw [strideSum_sorted hpos]
    have hmaximum : 1 + layout.maximumOffset ≤ int64.maximum := hfits
    omega

/-- Smaller extents pass every check of a layout. -/
theorem Shrinks.exists_createStride (h : layout.Shrinks extents) (hunique : layout.unique = true) :
    ∃ sub, createStride extents layout.strides = .ok sub ∧ sub.extents = extents ∧
      sub.strides = layout.strides ∧ sub.unique = true := by
  have hnonneg := validateExtents_nonneg h.validateExtents
  have hproduct := prod_nonneg hnonneg
  have hfits : extents.toList.prod ≤ int64.maximum :=
    (prod_le_leadingProduct hnonneg).trans (validateExtents_ok_iff.1 h.validateExtents).2.1
  have hcreate : createStride extents layout.strides =
      createValidated extents layout.strides layout.strides_nonneg .stride := by
    unfold createStride
    rw [h.validateExtents, dif_pos layout.strides_nonneg]
  -- Without elements nothing is measured; with elements the span is below that of the layout.
  by_cases hzero : extents.toList.prod = 0
  · rcases exists_createValidated layout.strides_nonneg .stride h.validateExtents
      ⟨hproduct, hfits⟩ (by rw [requiredSpan, if_pos hzero]) ⟨le_rfl, int64.maximum_nonneg⟩ with
      ⟨sub, hsub⟩
    rcases createValidated_extents hsub with ⟨hextents, hstrides⟩
    refine ⟨sub, hcreate.trans hsub, hextents, hstrides, ?_⟩
    rw [sub.unique_eq, sub.logicalSize_eq, hextents, hzero]
    rfl
  · have hpos := one_le_get_of_prod_ne_zero hzero fun dimension => (h dimension).1
    rcases h.maximumOffset_le hpos with ⟨hsize, hoffset, hmaximum⟩
    have hspan := layout.requiredSpanSize_eq hsize
    rcases exists_createValidated layout.strides_nonneg .stride h.validateExtents
      ⟨hproduct, hfits⟩ ((requiredSpan_ok_iff hzero hpos layout.strides_nonneg).2
        ⟨rfl, by omega⟩) ⟨by omega, by omega⟩ with ⟨sub, hsub⟩
    rcases createValidated_extents hsub with ⟨hextents, hstrides⟩
    refine ⟨sub, hcreate.trans hsub, hextents, hstrides, ?_⟩
    rw [sub.unique_eq, hextents, hstrides, h.proveUnique hpos hunique, Bool.or_true]

end DenseLayout

namespace DenseView

variable {Cell V : Type} {type : Representation Cell V} {view : DenseView type rank}
  {offsets extents : List.Vector Int rank}

/-- One round of the checks of `Subview`: whether an extent was zero. -/
def subviewRound (view : DenseView type rank) (offsets extents : List.Vector Int rank) (empty : Bool)
    (dimension : Fin rank) : Result Bool := do
  failIf (offsets.get dimension < 0 ∨ extents.get dimension < 0)
    { code := .invalidArgument
      message := "Dense subview offsets and extents cannot be negative" }
  let stop ← checkedAdd int64 (offsets.get dimension) (extents.get dimension)
  failIf (stop > view.mapping.extents.get dimension)
    { code := .index, message := "Dense subview exceeds its source extent" }
  .ok (empty || decide (extents.get dimension = 0))

/-- The region lies in the view. -/
def Contains (view : DenseView type rank) (offsets extents : List.Vector Int rank) : Prop :=
  ∀ dimension, 0 ≤ offsets.get dimension ∧ 0 ≤ extents.get dimension ∧
    offsets.get dimension + extents.get dimension ≤ view.mapping.extents.get dimension

theorem subviewRound_ok {empty : Bool} {dimension : Fin rank} {result : Bool}
    (h : view.subviewRound offsets extents empty dimension = .ok result) :
    (0 ≤ offsets.get dimension ∧ 0 ≤ extents.get dimension ∧
      offsets.get dimension + extents.get dimension ≤ view.mapping.extents.get dimension) ∧
      result = (empty || decide (extents.get dimension = 0)) := by
  rw [subviewRound, Result.unit_bind_eq_ok_iff, Result.failIf_eq_ok_iff] at h
  rcases h with ⟨hsigns, h⟩
  rcases Result.bind_eq_ok_iff.1 h with ⟨stop, hstop, h⟩
  rw [Result.unit_bind_eq_ok_iff, Result.failIf_eq_ok_iff] at h
  have hvalue := checkedAdd_ok_eq hstop
  cases h.2
  exact ⟨⟨by omega, by omega, by omega⟩, rfl⟩

/-- What the loop of checks has found; the induction is on the dimensions that are still to come. -/
theorem foldlM_subviewRound_ok {dimensions : List (Fin rank)} {empty result : Bool}
    (h : dimensions.foldlM (view.subviewRound offsets extents) empty = .ok result) :
    (∀ dimension ∈ dimensions, 0 ≤ offsets.get dimension ∧ 0 ≤ extents.get dimension ∧
      offsets.get dimension + extents.get dimension ≤ view.mapping.extents.get dimension) ∧
      (result = true ↔ empty = true ∨ ∃ dimension ∈ dimensions, extents.get dimension = 0) := by
  induction dimensions generalizing empty with
  | nil =>
    cases h
    simp
  | cons dimension dimensions ih =>
    rw [List.foldlM_cons] at h
    rcases Result.bind_eq_ok_iff.1 h with ⟨next, hround, hrest⟩
    rcases subviewRound_ok hround with ⟨hregion, rfl⟩
    rcases ih hrest with ⟨hall, hempty⟩
    refine ⟨List.forall_mem_cons.2 ⟨hregion, hall⟩, hempty.trans ?_⟩
    simp [or_assoc]

/-- The checks of `Subview`: whether the region is empty. -/
def validateSubview (view : DenseView type rank) (offsets extents : List.Vector Int rank) :
    Result Bool :=
  (List.finRange rank).foldlM (view.subviewRound offsets extents) false

theorem validateSubview_ok {empty : Bool} (h : view.validateSubview offsets extents = .ok empty) :
    view.Contains offsets extents ∧ (empty = true ↔ ∃ dimension, extents.get dimension = 0) := by
  rcases foldlM_subviewRound_ok h with ⟨hall, hempty⟩
  refine ⟨fun dimension => hall dimension (List.mem_finRange dimension), hempty.trans ?_⟩
  simp

theorem validateSubview_of_contains (h : view.Contains offsets extents)
    (hfits : ∀ dimension, view.mapping.extents.get dimension ≤ int64.maximum) :
    ∃ empty, view.validateSubview offsets extents = .ok empty := by
  have hround : ∀ dimension empty, view.subviewRound offsets extents empty dimension =
      .ok (empty || decide (extents.get dimension = 0)) := by
    intro dimension empty
    have hregion := h dimension
    have hextent := hfits dimension
    rw [subviewRound, failIf, if_neg (by omega), Result.ok_bind,
      checkedAdd_of_nonneg hregion.2.1 (by omega), if_pos (by omega), Result.ok_bind, failIf,
      if_neg (by omega), Result.ok_bind]
  unfold validateSubview
  generalize false = empty
  induction List.finRange rank generalizing empty with
  | nil => exact ⟨empty, rfl⟩
  | cons dimension dimensions ih =>
    rw [List.foldlM_cons, hround, Result.ok_bind]
    exact ih _

theorem Contains.shrinks (h : view.Contains offsets extents) : view.mapping.Shrinks extents := by
  intro dimension
  have hregion := h dimension
  omega

theorem Contains.inBounds (h : view.Contains offsets extents)
    (hpos : ∀ dimension, extents.get dimension ≠ 0) : view.mapping.InBounds offsets := by
  intro dimension
  have hregion := h dimension
  have hextent := hpos dimension
  omega

end DenseView

theorem DenseLayout.createStride_extents {layout : DenseLayout rank} {extents strides : Shape rank}
    (h : createStride extents strides = .ok layout) :
    layout.extents = extents ∧ layout.strides = strides := by
  unfold createStride at h
  split at h
  · cases h
  split at h
  · exact createValidated_extents h
  · cases h

theorem DenseLayout.requiredSpanSize_nonneg (layout : DenseLayout rank) :
    0 ≤ layout.requiredSpanSize := by
  by_cases hzero : layout.logicalSize = 0
  · exact (layout.requiredSpanSize_of_empty hzero).ge
  · have hspan := layout.requiredSpanSize_eq hzero
    have hoffset : 0 ≤ layout.maximumOffset := by
      apply strideSum_nonneg fun dimension _ => layout.strides_nonneg dimension
      intro dimension _
      have hextent := layout.extents_pos hzero dimension
      unfold lastIndices
      omega
    omega

/-- A layout with the same strides and smaller extents spans no more. -/
theorem DenseLayout.Shrinks.span_le {layout sub : DenseLayout rank}
    (h : layout.Shrinks sub.extents) (hstrides : sub.strides = layout.strides) :
    sub.requiredSpanSize ≤ layout.requiredSpanSize := by
  by_cases hzero : sub.logicalSize = 0
  · rw [sub.requiredSpanSize_of_empty hzero]
    exact layout.requiredSpanSize_nonneg
  · rcases h.maximumOffset_le (sub.extents_pos hzero) with ⟨hsize, -, hle⟩
    have hspan := layout.requiredSpanSize_eq hsize
    have hsub := sub.requiredSpanSize_eq hzero
    rw [maximumOffset, hstrides] at hsub
    omega

namespace DenseView

variable {Cell V : Type} {type : Representation Cell V} {view : DenseView type rank}
  {offsets extents : List.Vector Int rank}

/-- The bytes of a smaller span are counted without overflow. -/
theorem bytes_of_le {span : Int} (hnonneg : 0 ≤ span) (hle : span ≤ view.mapping.requiredSpanSize) :
    ∃ byteSpan, checkedMultiply sizeType span type.size = .ok byteSpan := by
  have hsize : (0 : Int) ≤ type.size := Int.natCast_nonneg _
  rcases view.bytes with ⟨byteSpan, hbytes⟩
  rw [checkedMultiply_of_nonneg (hnonneg.trans hle) hsize] at hbytes
  split at hbytes
  · have hproduct := mul_le_mul_of_nonneg_right hle hsize
    exact ⟨_, by rw [checkedMultiply_of_nonneg hnonneg hsize, if_pos (by omega)]⟩
  · cases hbytes

section Region

variable {submapping : DenseLayout rank}

theorem subview_span_le {empty : Bool} (hloop : view.validateSubview offsets extents = .ok empty)
    (hmapping : DenseLayout.createStride extents view.mapping.strides = .ok submapping) :
    submapping.requiredSpanSize ≤ view.mapping.requiredSpanSize := by
  have hregion := validateSubview_ok hloop
  have hsub := DenseLayout.createStride_extents hmapping
  exact DenseLayout.Shrinks.span_le (by rw [hsub.1]; exact hregion.1.shrinks) hsub.2

variable (hspan : submapping.requiredSpanSize ≤ view.mapping.requiredSpanSize)
include hspan

theorem subview_data_ne : submapping.requiredSpanSize ≠ 0 → view.data ≠ 0 := by
  intro hne
  have hnonneg := submapping.requiredSpanSize_nonneg
  exact view.data_ne (by omega)

theorem subview_shifted_ne (offset : Int) :
    submapping.requiredSpanSize ≠ 0 → view.data + offset.toNat * type.size ≠ 0 := by
  intro hne
  have hdata := subview_data_ne hspan hne
  omega

theorem subview_bytes :
    ∃ byteSpan, checkedMultiply sizeType submapping.requiredSpanSize type.size = .ok byteSpan :=
  bytes_of_le submapping.requiredSpanSize_nonneg hspan

end Region

def subview (view : DenseView type rank) (offsets extents : List.Vector Int rank) :
    Result (DenseView type rank) :=
  match hloop : view.validateSubview offsets extents with
  | .error status => .error status
  | .ok empty =>
    match hmapping : DenseLayout.createStride extents view.mapping.strides with
    | .error status => .error status
    | .ok submapping =>
      have hspan := subview_span_le hloop hmapping
      if hunique : submapping.unique = true then
        -- An empty subview keeps the pointer, since its offsets need not be inside the view.
        if empty = true then
          .ok
            { data := view.data
              mapping := submapping
              memorySpace := view.memorySpace
              data_ne := subview_data_ne hspan
              unique := hunique
              bytes := subview_bytes hspan }
        else
          match view.mapping.offset offsets with
          | .error status => .error status
          | .ok offset =>
            .ok
              { data := view.data + offset.toNat * type.size
                mapping := submapping
                memorySpace := view.memorySpace
                data_ne := subview_shifted_ne hspan offset
                unique := hunique
                bytes := subview_bytes hspan }
      else
        .error
          { code := .invalidArgument, message := "A DenseView subview must remain unique" }

/-- The descriptor that `Subview` returns. -/
structure IsSubview (view sub : DenseView type rank) (offsets extents : List.Vector Int rank) :
    Prop where
  contains : view.Contains offsets extents
  mapping : DenseLayout.createStride extents view.mapping.strides = .ok sub.mapping
  memorySpace : sub.memorySpace = view.memorySpace
  /-- Without elements the pointer stays at the start of the view. -/
  data : sub.data = view.data +
    if ∃ dimension, extents.get dimension = 0 then 0 else view.offsetOf offsets * type.size

theorem isSubview_of_ok {sub : DenseView type rank} (h : view.subview offsets extents = .ok sub) :
    view.IsSubview sub offsets extents := by
  unfold subview at h
  split at h
  · cases h
  rename_i empty hloop
  split at h
  · cases h
  rename_i submapping hmapping
  rcases validateSubview_ok hloop with ⟨hcontains, hempty⟩
  split at h
  · split at h
    -- No extent is zero, so the offsets are the coordinates of an element.
    · rename_i hzero
      cases h
      exact ⟨hcontains, hmapping, rfl, by rw [if_pos (hempty.1 hzero), Nat.add_zero]⟩
    · rename_i hzero
      split at h
      · cases h
      · rename_i offset hoffset
        cases h
        have hnone : ¬ ∃ dimension, extents.get dimension = 0 := fun hsome => hzero (hempty.2 hsome)
        have hbounds := hcontains.inBounds fun dimension heq => hnone ⟨dimension, heq⟩
        rw [offset_toNat hbounds] at hoffset
        have hvalue := Except.ok.inj hoffset
        subst hvalue
        exact ⟨hcontains, hmapping, rfl, by rw [if_neg hnone]; rfl⟩
  · cases h

/-- Past its checks `Subview` cannot fail. -/
theorem exists_subview (h : view.Contains offsets extents)
    (hfits : ∀ dimension, view.mapping.extents.get dimension ≤ int64.maximum) :
    ∃ sub, view.subview offsets extents = .ok sub := by
  rcases validateSubview_of_contains h hfits with ⟨empty, hvalid⟩
  rcases h.shrinks.exists_createStride view.unique with ⟨submapping, hmapping, -, -, hunique⟩
  have hempty := (validateSubview_ok hvalid).2
  -- Each check succeeds by the lemma about it, and has the value of that lemma.
  unfold subview
  split
  · rename_i hloop
    cases hvalid.symm.trans hloop
  rename_i empty' hloop
  cases hvalid.symm.trans hloop
  split
  · rename_i hcreate
    cases hmapping.symm.trans hcreate
  rename_i submapping' hcreate
  cases hmapping.symm.trans hcreate
  rw [dif_pos hunique]
  split
  · exact ⟨_, rfl⟩
  · rename_i hzero
    have hbounds := h.inBounds fun dimension heq => hzero (hempty.2 ⟨dimension, heq⟩)
    split
    · rename_i hoffset
      cases (offset_toNat hbounds).symm.trans hoffset
    · exact ⟨_, rfl⟩

/-! ## Elements of a subview -/

/-- The coordinate of the view for a coordinate of the subview. -/
def shifted (offsets coordinates : List.Vector Int rank) : List.Vector Int rank :=
  List.Vector.ofFn fun dimension => offsets.get dimension + coordinates.get dimension

@[simp] theorem shifted_get (offsets coordinates : List.Vector Int rank) (dimension : Fin rank) :
    (shifted offsets coordinates).get dimension =
      offsets.get dimension + coordinates.get dimension := by
  rw [shifted, List.Vector.get_ofFn]

variable {sub : DenseView type rank} {coordinates : List.Vector Int rank}

theorem IsSubview.extents_eq (h : view.IsSubview sub offsets extents) :
    sub.mapping.extents = extents :=
  (DenseLayout.createStride_extents h.mapping).1

theorem IsSubview.strides_eq (h : view.IsSubview sub offsets extents) :
    sub.mapping.strides = view.mapping.strides :=
  (DenseLayout.createStride_extents h.mapping).2

theorem IsSubview.inBounds (h : view.IsSubview sub offsets extents)
    (hbounds : sub.mapping.InBounds coordinates) :
    view.mapping.InBounds offsets ∧ view.mapping.InBounds (shifted offsets coordinates) ∧
      ¬ ∃ dimension, extents.get dimension = 0 := by
  have hextents : ∀ dimension, coordinates.get dimension < extents.get dimension := fun dimension =>
    h.extents_eq ▸ (hbounds dimension).2
  refine ⟨fun dimension => ?_, fun dimension => ?_, ?_⟩
  · have hregion := h.contains dimension
    have hcoordinate := hbounds dimension
    have hextent := hextents dimension
    omega
  · have hregion := h.contains dimension
    have hcoordinate := hbounds dimension
    have hextent := hextents dimension
    rw [shifted_get]
    omega
  · rintro ⟨dimension, hzero⟩
    have hcoordinate := hbounds dimension
    have hextent := hextents dimension
    omega

/-- Offsets add up. -/
theorem offsetOf_shifted (hbounds : view.mapping.InBounds offsets)
    (hcoordinates : ∀ dimension, 0 ≤ coordinates.get dimension) :
    view.offsetOf (shifted offsets coordinates) = view.offsetOf offsets +
      (strideSum coordinates.get view.mapping.strides.get (List.finRange rank)).toNat := by
  have hnonneg := hbounds.strideSum_nonneg
  have hlater := strideSum_nonneg (fun dimension (_ : dimension ∈ List.finRange rank) =>
    view.mapping.strides_nonneg dimension) fun dimension _ => hcoordinates dimension
  have hsum : ∀ dimensions : List (Fin rank),
      strideSum (shifted offsets coordinates).get view.mapping.strides.get dimensions =
        strideSum offsets.get view.mapping.strides.get dimensions +
          strideSum coordinates.get view.mapping.strides.get dimensions := by
    intro dimensions
    induction dimensions with
    | nil => rfl
    | cons dimension dimensions ih =>
      simp only [strideSum_cons, ih, shifted_get]
      ring
  unfold offsetOf
  rw [hsum]
  omega

theorem IsSubview.addressOf_eq (h : view.IsSubview sub offsets extents)
    (hbounds : sub.mapping.InBounds coordinates) :
    sub.addressOf coordinates = view.addressOf (shifted offsets coordinates) := by
  rcases h.inBounds hbounds with ⟨hoffsets, -, hnone⟩
  have hshifted := @offsetOf_shifted _ _ _ _ view _ coordinates hoffsets
    fun dimension => (hbounds dimension).1
  have hdata := h.data
  rw [if_neg hnone] at hdata
  unfold addressOf
  rw [hshifted, hdata, Nat.add_mul]
  unfold offsetOf
  rw [h.strides_eq]
  omega

/-- `At` of a subview finds the element of its view. -/
theorem IsSubview.elementAt_eq (h : view.IsSubview sub offsets extents)
    (hbounds : sub.mapping.InBounds coordinates) :
    sub.elementAt coordinates = view.elementAt (shifted offsets coordinates) := by
  rcases h.inBounds hbounds with ⟨-, hshifted, -⟩
  have haddress := h.addressOf_eq hbounds
  unfold addressOf at haddress
  rw [elementAt, elementAt, h.memorySpace, offset_toNat hbounds, offset_toNat hshifted]
  simp only [Result.ok_bind, Int.toNat_natCast, haddress]

/-- An element of a subview lies in the span of its view. -/
theorem IsSubview.addressOf_le (h : view.IsSubview sub offsets extents)
    (hbounds : sub.mapping.InBounds coordinates) :
    view.data ≤ sub.addressOf coordinates ∧
      sub.addressOf coordinates + type.size ≤ view.data + view.valueSpan.size := by
  rw [h.addressOf_eq hbounds]
  exact DenseView.addressOf_le (h.inBounds hbounds).2.1

/-! ## Subviews of subviews -/

/-- With added offsets one subview is enough; its pointer is the same, unless no element is left. -/
theorem IsSubview.trans {subsub : DenseView type rank} {offsets' extents' : List.Vector Int rank}
    (h : view.IsSubview sub offsets extents) (h' : sub.IsSubview subsub offsets' extents')
    (hfits : ∀ dimension, view.mapping.extents.get dimension ≤ int64.maximum) :
    ∃ direct, view.subview (shifted offsets offsets') extents' = .ok direct ∧
      direct.mapping = subsub.mapping ∧ direct.memorySpace = subsub.memorySpace ∧
      ((∀ dimension, extents'.get dimension ≠ 0) → direct = subsub) ∧
      ((∃ dimension, extents'.get dimension = 0) →
        direct.data = view.data ∧ subsub.data = sub.data) := by
  have hcontains : view.Contains (shifted offsets offsets') extents' := by
    intro dimension
    have houter := h.contains dimension
    have hinner := h'.contains dimension
    rw [h.extents_eq] at hinner
    rw [shifted_get]
    omega
  rcases exists_subview hcontains hfits with ⟨direct, hdirect⟩
  have hsub := isSubview_of_ok hdirect
  have hmapping : direct.mapping = subsub.mapping := by
    have hinner := h'.mapping
    rw [h.strides_eq] at hinner
    exact Except.ok.inj (hsub.mapping.symm.trans hinner)
  have hspace : direct.memorySpace = subsub.memorySpace :=
    hsub.memorySpace.trans (h'.memorySpace.trans h.memorySpace).symm
  refine ⟨direct, hdirect, hmapping, hspace, fun hnonzero => ?_, fun hzero => ?_⟩
  -- An empty subview never moves the pointer.
  rotate_left
  · constructor
    · rw [hsub.data, if_pos hzero, Nat.add_zero]
    · rw [h'.data, if_pos hzero, Nat.add_zero]
  have hnone : ¬ ∃ dimension, extents'.get dimension = 0 := fun ⟨dimension, hzero⟩ =>
    hnonzero dimension hzero
  have hinner : sub.mapping.InBounds offsets' := h'.contains.inBounds hnonzero
  have haddress := h.addressOf_eq hinner
  have hdata : direct.data = subsub.data := by
    rw [hsub.data, h'.data, if_neg hnone, if_neg hnone]
    exact haddress.symm
  -- The views agree in every field that is not a proof.
  cases direct
  cases subsub
  cases hmapping
  cases hdata
  cases hspace
  rfl

end DenseView

/-- `Subview` accepts the regions inside the view, and none of its later checks can fail.  A subview
has the elements of its region, all of them in the span of the view.  A subview of a subview with
elements is the subview with added offsets; without elements only the pointers may differ. -/
theorem subview_correct {Cell V : Type} {type : Representation Cell V} (view : DenseView type rank)
    (hfits : ∀ dimension, view.mapping.extents.get dimension ≤ int64.maximum)
    (offsets extents : List.Vector Int rank) :
    ((∃ sub, view.subview offsets extents = .ok sub) ↔
      ∀ dimension, 0 ≤ offsets.get dimension ∧ 0 ≤ extents.get dimension ∧
        offsets.get dimension + extents.get dimension ≤ view.mapping.extents.get dimension) ∧
    (∀ empty, view.validateSubview offsets extents = .ok empty →
      ∃ submapping, DenseLayout.createStride extents view.mapping.strides = .ok submapping ∧
        submapping.unique = true ∧
        (empty = false → ∃ offset, view.mapping.offset offsets = .ok offset)) ∧
    ∀ sub, view.subview offsets extents = .ok sub →
      sub.mapping.extents = extents ∧
      (∀ coordinates, sub.mapping.InBounds coordinates →
        sub.elementAt coordinates = view.elementAt (DenseView.shifted offsets coordinates) ∧
          view.data ≤ sub.addressOf coordinates ∧
          sub.addressOf coordinates + type.size ≤ view.data + view.valueSpan.size) ∧
      ∀ offsets' extents' subsub, sub.subview offsets' extents' = .ok subsub →
        ∃ direct, view.subview (DenseView.shifted offsets offsets') extents' = .ok direct ∧
          direct.mapping = subsub.mapping ∧ direct.memorySpace = subsub.memorySpace ∧
          ((∀ dimension, extents'.get dimension ≠ 0) → direct = subsub) ∧
          ((∃ dimension, extents'.get dimension = 0) →
            direct.data = view.data ∧ subsub.data = sub.data) := by
  refine ⟨⟨?_, fun hcontains => DenseView.exists_subview hcontains hfits⟩, ?_, ?_⟩
  · rintro ⟨sub, hsub⟩
    exact (DenseView.isSubview_of_ok hsub).contains
  · intro empty hvalid
    rcases DenseView.validateSubview_ok hvalid with ⟨hcontains, hempty⟩
    rcases hcontains.shrinks.exists_createStride view.unique with
      ⟨submapping, hmapping, -, -, hunique⟩
    refine ⟨submapping, hmapping, hunique, fun hfull => ?_⟩
    -- The flag of emptiness is that some extent is zero.
    have hbounds := hcontains.inBounds fun dimension hzero => by
      simpa [hfull] using hempty.2 ⟨dimension, hzero⟩
    exact ⟨_, DenseView.offset_toNat hbounds⟩
  · intro sub hsub
    have h := DenseView.isSubview_of_ok hsub
    refine ⟨h.extents_eq, fun coordinates hbounds => ?_, fun offsets' extents' subsub hsubsub => ?_⟩
    · exact ⟨h.elementAt_eq hbounds, h.addressOf_le hbounds⟩
    · exact h.trans (DenseView.isSubview_of_ok hsubsub) hfits

/-! ### Two numbers in a row -/

theorem unitStride_nonneg (dimension : Fin 1) :
    0 ≤ (1 ::ᵥ List.Vector.nil : List.Vector Int 1).get dimension := by
  revert dimension
  decide

def sampleLayout : DenseLayout 1 where
  extents := 2 ::ᵥ List.Vector.nil
  strides := 1 ::ᵥ List.Vector.nil
  logicalSize := 2
  requiredSpanSize := 2
  unique := true
  exhaustive := true
  kind := .stride
  strides_nonneg := unitStride_nonneg
  logical := rfl
  span := rfl
  unique_eq := rfl
  exhaustive_eq := rfl

def sampleView : DenseView (.uniform Nat 8 8 Representation.eight_pos) 1 where
  data := 64
  mapping := sampleLayout
  memorySpace := .host
  data_ne := by decide
  unique := rfl
  bytes := ⟨16, rfl⟩

/-- The second number, and nothing of it: the pointer has moved on, and from the view it has not. -/
theorem empty_subview_pointer :
    ∃ sub subsub direct, sampleView.subview (1 ::ᵥ List.Vector.nil) (1 ::ᵥ List.Vector.nil) = .ok sub ∧
      sub.subview (0 ::ᵥ List.Vector.nil) (0 ::ᵥ List.Vector.nil) = .ok subsub ∧
      sampleView.subview
        (DenseView.shifted (1 ::ᵥ List.Vector.nil) (0 ::ᵥ List.Vector.nil))
        (0 ::ᵥ List.Vector.nil) = .ok direct ∧
      direct ≠ subsub := by
  refine ⟨_, _, _, rfl, rfl, rfl, fun heq => ?_⟩
  have hdata := congrArg DenseView.data heq
  exact absurd hdata (by decide)

theorem subview_sample :
    (∃ sub, sampleView.subview (1 ::ᵥ List.Vector.nil) (1 ::ᵥ List.Vector.nil) = .ok sub) ↔
      ∀ dimension, 0 ≤ (1 ::ᵥ List.Vector.nil : List.Vector Int 1).get dimension ∧
        0 ≤ (1 ::ᵥ List.Vector.nil : List.Vector Int 1).get dimension ∧
        (1 ::ᵥ List.Vector.nil : List.Vector Int 1).get dimension +
          (1 ::ᵥ List.Vector.nil : List.Vector Int 1).get dimension ≤
            sampleView.mapping.extents.get dimension :=
  (subview_correct sampleView (by decide) _ _).1

end Dense
end AscCpp
