import Mathlib.Algebra.BigOperators.Group.List.Basic
import Mathlib.Algebra.BigOperators.Ring.Finset
import Mathlib.Algebra.Order.Group.Int
import Mathlib.Algebra.Order.Ring.Abs
import Mathlib.Data.Fintype.BigOperators
import Mathlib.Tactic.Linarith
import Mathlib.Tactic.Ring

/-!
# MixedRadix — sums of digits under strides

A list of dimensions carries an extent and a stride for each of them.  A coordinate gives every
dimension a digit below its extent; its offset is the sum of the digits times the strides.

- `Covers.digits_eq`: when every stride is at least the span of the dimensions before it, the
  offset determines the digits.
- `Running.span_eq`: strides that are the running products of the extents span their product.
- `exists_digits`: an injective offset into the product of the extents takes every value there.
-/

namespace AscCpp
namespace Library

variable {ι : Type}

/-! ## Offsets -/

/-- The sum of the digits times the strides. -/
def strideSum (digits strides : ι → Int) (dimensions : List ι) : Int :=
  (dimensions.map fun dimension => digits dimension * strides dimension).sum

@[simp] theorem strideSum_nil (digits strides : ι → Int) : strideSum digits strides [] = 0 := rfl

@[simp] theorem strideSum_cons (digits strides : ι → Int) (dimension : ι) (dimensions : List ι) :
    strideSum digits strides (dimension :: dimensions) =
      digits dimension * strides dimension + strideSum digits strides dimensions := by
  simp [strideSum]

theorem strideSum_perm (digits strides : ι → Int) {left right : List ι} (h : left.Perm right) :
    strideSum digits strides left = strideSum digits strides right :=
  (h.map _).sum_eq

/-- Dimensions whose digit is zero add nothing. -/
theorem strideSum_filter {digits strides : ι → Int} {keep : ι → Bool} {dimensions : List ι}
    (h : ∀ dimension ∈ dimensions, keep dimension = false → digits dimension = 0) :
    strideSum digits strides (dimensions.filter keep) = strideSum digits strides dimensions := by
  induction dimensions with
  | nil => rfl
  | cons dimension dimensions ih =>
    have hrest := ih fun other hmem => h other (List.mem_cons_of_mem _ hmem)
    cases hkeep : keep dimension with
    | true => rw [List.filter_cons_of_pos hkeep, strideSum_cons, strideSum_cons, hrest]
    | false =>
      have hzero := h dimension List.mem_cons_self hkeep
      rw [List.filter_cons_of_neg (by simp [hkeep]), strideSum_cons, hrest, hzero, zero_mul,
        zero_add]

/-- Greater digits give a greater offset. -/
theorem strideSum_le {lower upper strides : ι → Int} {dimensions : List ι}
    (hstrides : ∀ dimension ∈ dimensions, 0 ≤ strides dimension)
    (h : ∀ dimension ∈ dimensions, lower dimension ≤ upper dimension) :
    strideSum lower strides dimensions ≤ strideSum upper strides dimensions := by
  induction dimensions with
  | nil => exact le_rfl
  | cons dimension dimensions ih =>
    rw [List.forall_mem_cons] at hstrides h
    rw [strideSum_cons, strideSum_cons]
    exact add_le_add (mul_le_mul_of_nonneg_right h.1 hstrides.1) (ih hstrides.2 h.2)

theorem strideSum_nonneg {digits strides : ι → Int} {dimensions : List ι}
    (hstrides : ∀ dimension ∈ dimensions, 0 ≤ strides dimension)
    (h : ∀ dimension ∈ dimensions, 0 ≤ digits dimension) :
    0 ≤ strideSum digits strides dimensions := by
  have hzero : strideSum (fun _ => 0) strides dimensions = 0 := by
    simp [strideSum]
  rw [← hzero]
  exact strideSum_le hstrides h

/-! ## Digits within extents -/

/-- The digit of every dimension is one of its indices. -/
def Within (extents digits : ι → Int) : Prop :=
  ∀ dimension, 0 ≤ digits dimension ∧ digits dimension < extents dimension

/-- There are as many coordinates as the product of the extents, so an injective map into that
many offsets takes them all. -/
theorem exists_digits [Fintype ι] [DecidableEq ι] {extents : ι → Int}
    (hextents : ∀ dimension, 0 ≤ extents dimension) {offset : (ι → Int) → Int}
    (hrange : ∀ digits, Within extents digits →
      0 ≤ offset digits ∧ offset digits < ∏ dimension, extents dimension)
    (hinjective : ∀ left right, Within extents left → Within extents right →
      offset left = offset right → left = right)
    {value : Int} (hnonneg : 0 ≤ value) (hvalue : value < ∏ dimension, extents dimension) :
    ∃ digits, Within extents digits ∧ offset digits = value := by
  -- The digit vectors are as many as the offsets, so the injection is onto.
  let Box := (dimension : ι) → Fin (extents dimension).toNat
  let digitsOf : Box → ι → Int := fun box dimension => ((box dimension).val : Int)
  have hwithin : ∀ box, Within extents (digitsOf box) := by
    intro box dimension
    have hlt := (box dimension).isLt
    have hextent := hextents dimension
    exact ⟨Int.natCast_nonneg _, by simp only [digitsOf]; omega⟩
  let position : Box → Fin (∏ dimension, extents dimension).toNat := fun box =>
    ⟨(offset (digitsOf box)).toNat, by
      have := hrange _ (hwithin box)
      omega⟩
  have hposition : Function.Injective position := by
    intro left right heq
    have hval : (offset (digitsOf left)).toNat = (offset (digitsOf right)).toNat :=
      congrArg Fin.val heq
    have hleft := hrange _ (hwithin left)
    have hright := hrange _ (hwithin right)
    have hdigits := hinjective _ _ (hwithin left) (hwithin right) (by omega)
    funext dimension
    have := congrFun hdigits dimension
    simp only [digitsOf] at this
    exact Fin.ext (by omega)
  have hcard : Fintype.card Box = Fintype.card (Fin (∏ dimension, extents dimension).toNat) := by
    have hproduct : ((∏ dimension, (extents dimension).toNat : Nat) : Int) =
        ∏ dimension, extents dimension := by
      rw [Nat.cast_prod]
      exact Finset.prod_congr rfl fun dimension _ => Int.toNat_of_nonneg (hextents dimension)
    simp only [Box, Fintype.card_pi, Fintype.card_fin]
    omega
  have hbijective : Function.Bijective position := by
    rw [Fintype.bijective_iff_injective_and_card]
    exact ⟨hposition, hcard⟩
  rcases hbijective.2 ⟨value.toNat, by omega⟩ with ⟨box, hbox⟩
  have hval : (offset (digitsOf box)).toNat = value.toNat := congrArg Fin.val hbox
  have hbounds := hrange _ (hwithin box)
  exact ⟨digitsOf box, hwithin box, by omega⟩

/-! ## Covered spans -/

/-- Every stride is at least the span of what comes before; `covered` is the span at the front. -/
def Covers (extents strides : ι → Int) : Int → List ι → Prop
  | _, [] => True
  | covered, dimension :: dimensions =>
    covered ≤ strides dimension ∧
      Covers extents strides (covered + (extents dimension - 1) * strides dimension) dimensions

/-- Fewer dimensions with smaller extents span no more. -/
theorem Covers.of_sublist {extents extents' strides : ι → Int} {covered covered' : Int}
    {dimensions dimensions' : List ι} (h : Covers extents strides covered dimensions)
    (hsublist : dimensions'.Sublist dimensions) (hcovered : covered' ≤ covered)
    (hextents : ∀ dimension ∈ dimensions, 1 ≤ extents dimension)
    (hle : ∀ dimension ∈ dimensions, extents' dimension ≤ extents dimension)
    (hstrides : ∀ dimension ∈ dimensions, 0 ≤ strides dimension) :
    Covers extents' strides covered' dimensions' := by
  induction hsublist generalizing covered covered' with
  | slnil => trivial
  | cons dimension _ ih =>
    rw [List.forall_mem_cons] at hextents hle hstrides
    have hterm : 0 ≤ (extents dimension - 1) * strides dimension :=
      mul_nonneg (by omega) hstrides.1
    exact ih h.2 (by omega) hextents.2 hle.2 hstrides.2
  | cons_cons dimension _ ih =>
    rw [List.forall_mem_cons] at hextents hle hstrides
    have hterm : (extents' dimension - 1) * strides dimension ≤
        (extents dimension - 1) * strides dimension :=
      mul_le_mul_of_nonneg_right (by omega) hstrides.1
    exact ⟨hcovered.trans h.1, ih h.2 (by omega) hextents.2 hle.2 hstrides.2⟩

/-- Dimensions with more than one index have different strides. -/
theorem Covers.strides_lt {extents strides : ι → Int} {covered : Int} {dimensions : List ι}
    (h : Covers extents strides covered dimensions) (hcovered : 1 ≤ covered)
    (hextents : ∀ dimension ∈ dimensions, 1 < extents dimension) :
    (∀ dimension ∈ dimensions, covered ≤ strides dimension) ∧
      dimensions.Pairwise fun left right => strides left < strides right := by
  induction dimensions generalizing covered with
  | nil => exact ⟨by simp, List.Pairwise.nil⟩
  | cons dimension dimensions ih =>
    rw [List.forall_mem_cons] at hextents
    have hgrows : covered + strides dimension ≤
        covered + (extents dimension - 1) * strides dimension := by
      have hstride := h.1
      nlinarith [hextents.1]
    rcases ih h.2 (by have := h.1; omega) hextents.2 with ⟨hlater, hpairwise⟩
    refine ⟨List.forall_mem_cons.2 ⟨h.1, fun other hother => ?_⟩, List.pairwise_cons.2 ⟨?_, hpairwise⟩⟩
    · have hle := hlater other hother
      have hstride := h.1
      omega
    · intro other hother
      have hle := hlater other hother
      omega

/-- Two multiples of a stride that are nearer to each other than the stride are one. -/
theorem eq_of_near_multiples {stride left right leftDigit rightDigit : Int}
    (hnear : |left - right| < stride)
    (h : left + leftDigit * stride = right + rightDigit * stride) :
    left = right ∧ leftDigit = rightDigit := by
  have hdifference : left - right = (rightDigit - leftDigit) * stride := by linarith
  have hstride : 0 < stride := (abs_nonneg _).trans_lt hnear
  have hzero : rightDigit - leftDigit = 0 := by
    by_contra hne
    have hone : 1 ≤ |rightDigit - leftDigit| := Int.one_le_abs hne
    rw [hdifference, abs_mul, abs_of_pos hstride] at hnear
    nlinarith
  rw [hzero, zero_mul] at hdifference
  omega

/-- Partial sums that differ by less than the covered span, with equal totals, are equal, and so
are all remaining digits: the induction moves one term into the partial sums. -/
theorem Covers.digits_eq {extents strides : ι → Int} {covered : Int} {dimensions : List ι}
    (h : Covers extents strides covered dimensions) {left right : ι → Int}
    (hleft : ∀ dimension ∈ dimensions, 0 ≤ left dimension ∧ left dimension < extents dimension)
    (hright : ∀ dimension ∈ dimensions, 0 ≤ right dimension ∧ right dimension < extents dimension)
    {leftSum rightSum : Int} (hnear : |leftSum - rightSum| < covered)
    (hsum : leftSum + strideSum left strides dimensions =
      rightSum + strideSum right strides dimensions) :
    leftSum = rightSum ∧ ∀ dimension ∈ dimensions, left dimension = right dimension := by
  induction dimensions generalizing covered leftSum rightSum with
  | nil =>
    simp only [strideSum_nil, add_zero] at hsum
    exact ⟨hsum, by simp⟩
  | cons dimension dimensions ih =>
    rcases h with ⟨hcovered, hrest⟩
    rw [List.forall_mem_cons] at hleft hright ⊢
    rw [strideSum_cons, strideSum_cons, ← add_assoc, ← add_assoc] at hsum
    -- The difference of one digit cannot leave what the covered span allows.
    have hnearNext : |(leftSum + left dimension * strides dimension) -
        (rightSum + right dimension * strides dimension)| <
          covered + (extents dimension - 1) * strides dimension := by
      have hdigits : |left dimension - right dimension| ≤ extents dimension - 1 := by
        rw [abs_le]
        omega
      have hstride : 0 ≤ strides dimension := by
        have := (abs_nonneg _).trans_lt hnear
        omega
      calc |(leftSum + left dimension * strides dimension) -
            (rightSum + right dimension * strides dimension)|
          = |(leftSum - rightSum) + (left dimension - right dimension) * strides dimension| := by
            congr 1
            ring
        _ ≤ |leftSum - rightSum| + |(left dimension - right dimension) * strides dimension| :=
            abs_add_le _ _
        _ = |leftSum - rightSum| + |left dimension - right dimension| * strides dimension := by
            rw [abs_mul, abs_of_nonneg hstride]
        _ < covered + (extents dimension - 1) * strides dimension :=
            add_lt_add_of_lt_of_le hnear (mul_le_mul_of_nonneg_right hdigits hstride)
    rcases ih hrest hleft.2 hright.2 hnearNext hsum with ⟨hstart, hdigits⟩
    rcases eq_of_near_multiples (hnear.trans_le hcovered) hstart with ⟨hsums, hdigit⟩
    exact ⟨hsums, hdigit, hdigits⟩

/-! ## Running products -/

/-- Each stride is the product of the extents before it; `stride` is the product at the front. -/
def Running (extents strides : ι → Int) : Int → List ι → Prop
  | _, [] => True
  | stride, dimension :: dimensions =>
    strides dimension = stride ∧ Running extents strides (stride * extents dimension) dimensions

def extentProduct (extents : ι → Int) (dimensions : List ι) : Int :=
  (dimensions.map extents).prod

@[simp] theorem extentProduct_nil (extents : ι → Int) : extentProduct extents [] = 1 := rfl

@[simp] theorem extentProduct_cons (extents : ι → Int) (dimension : ι) (dimensions : List ι) :
    extentProduct extents (dimension :: dimensions) =
      extents dimension * extentProduct extents dimensions := by
  simp [extentProduct]

/-- The span of running products is the product of all extents. -/
theorem Running.span_eq {extents strides : ι → Int} {stride : Int} {dimensions : List ι}
    (h : Running extents strides stride dimensions) :
    stride + strideSum (fun dimension => extents dimension - 1) strides dimensions =
      stride * extentProduct extents dimensions := by
  induction dimensions generalizing stride with
  | nil => simp
  | cons dimension dimensions ih =>
    rcases h with ⟨hstride, hrest⟩
    calc stride + strideSum (fun dimension => extents dimension - 1) strides
          (dimension :: dimensions)
        = stride * extents dimension +
            strideSum (fun dimension => extents dimension - 1) strides dimensions := by
          rw [strideSum_cons, hstride]
          ring
      _ = stride * extentProduct extents (dimension :: dimensions) := by
          rw [ih hrest, extentProduct_cons, mul_assoc]

/-- The dimensions with more than one index, among dimensions that are not empty. -/
def active (extents : ι → Int) (dimensions : List ι) : List ι :=
  dimensions.filter fun dimension => 1 < extents dimension

theorem active_cons_of_lt {extents : ι → Int} {dimension : ι} (h : 1 < extents dimension)
    (dimensions : List ι) :
    active extents (dimension :: dimensions) = dimension :: active extents dimensions :=
  List.filter_cons_of_pos (by simpa using h)

theorem active_cons_of_le {extents : ι → Int} {dimension : ι} (h : extents dimension ≤ 1)
    (dimensions : List ι) :
    active extents (dimension :: dimensions) = active extents dimensions :=
  List.filter_cons_of_neg (by simpa using h)

theorem mem_active {extents : ι → Int} {dimension : ι} {dimensions : List ι} :
    dimension ∈ active extents dimensions ↔ dimension ∈ dimensions ∧ 1 < extents dimension := by
  simp [active]

/-- The active dimensions of running products cover exactly. -/
theorem Running.covers_active {extents strides : ι → Int} {stride : Int} {dimensions : List ι}
    (h : Running extents strides stride dimensions)
    (hextents : ∀ dimension ∈ dimensions, 1 ≤ extents dimension) :
    Covers extents strides stride (active extents dimensions) := by
  induction dimensions generalizing stride with
  | nil => trivial
  | cons dimension dimensions ih =>
    rw [List.forall_mem_cons] at hextents
    rcases h with ⟨hstride, hrest⟩
    have hcovers := ih hrest hextents.2
    rcases hextents.1.lt_or_eq with hactive | hunit
    · rw [active_cons_of_lt hactive]
      have hnext : stride + (extents dimension - 1) * strides dimension =
          stride * extents dimension := by
        rw [hstride]
        ring
      exact ⟨hstride.ge, by rwa [hnext]⟩
    · rw [active_cons_of_le hunit.ge]
      rwa [← hunit, mul_one] at hcovers

theorem Running.stride_nonneg {extents strides : ι → Int} {stride : Int} {dimensions : List ι}
    (h : Running extents strides stride dimensions) (hstride : 0 ≤ stride)
    (hextents : ∀ dimension ∈ dimensions, 0 ≤ extents dimension) :
    ∀ dimension ∈ dimensions, 0 ≤ strides dimension := by
  induction dimensions generalizing stride with
  | nil => simp
  | cons dimension dimensions ih =>
    rw [List.forall_mem_cons] at hextents ⊢
    rcases h with ⟨hfirst, hrest⟩
    exact ⟨hfirst ▸ hstride, ih hrest (mul_nonneg hstride hextents.1) hextents.2⟩

/-- Behind a running product no stride is smaller, and behind an active dimension every stride is
greater. -/
theorem Running.stride_le {extents strides : ι → Int} {stride : Int} {dimensions : List ι}
    (h : Running extents strides stride dimensions) (hstride : 0 < stride)
    (hextents : ∀ dimension ∈ dimensions, 1 ≤ extents dimension) :
    ∀ dimension ∈ dimensions, stride ≤ strides dimension := by
  induction dimensions generalizing stride with
  | nil => simp
  | cons dimension dimensions ih =>
    rw [List.forall_mem_cons] at hextents ⊢
    rcases h with ⟨hfirst, hrest⟩
    have hle : stride ≤ stride * extents dimension := le_mul_of_one_le_right hstride.le hextents.1
    refine ⟨hfirst.ge, fun other hmem => ?_⟩
    exact hle.trans (ih hrest (hstride.trans_le hle) hextents.2 other hmem)

theorem Running.active_strictlySorted {extents strides : ι → Int} {stride : Int}
    {dimensions : List ι} (h : Running extents strides stride dimensions) (hstride : 0 < stride)
    (hextents : ∀ dimension ∈ dimensions, 1 ≤ extents dimension) :
    (active extents dimensions).Pairwise fun left right => strides left < strides right := by
  induction dimensions generalizing stride with
  | nil => exact List.Pairwise.nil
  | cons dimension dimensions ih =>
    rw [List.forall_mem_cons] at hextents
    rcases h with ⟨hfirst, hrest⟩
    have hpos : 0 < stride * extents dimension := mul_pos hstride (by omega)
    have hsorted := ih hrest hpos hextents.2
    rcases hextents.1.lt_or_eq with hactive | hunit
    · rw [active_cons_of_lt hactive]
      refine List.Pairwise.cons (fun other hmem => ?_) hsorted
      calc strides dimension = stride := hfirst
        _ < stride * extents dimension := lt_mul_of_one_lt_right hstride hactive
        _ ≤ strides other := hrest.stride_le hpos hextents.2 other (mem_active.1 hmem).1
    · rwa [active_cons_of_le hunit.ge]

end Library
end AscCpp
