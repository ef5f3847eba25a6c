import AscCpp.Dense.Blas.Addressing
import AscCpp.Dense.Blas.RankCall
import Mathlib.Data.Int.ConditionallyCompleteOrder

/-!
# PackedOffset — the packed numbering is exact and onto

The four formulas of `PackedOffset`, operator by operator in `index_t`: an intermediate value that
does not fit, or a division with a remainder, has no value.

- `packedOffset_exact`: on the orders that `Create` accepts the formulas number a triangle without
  gaps, and those of the two layouts mirror each other.
-/

namespace AscCpp
namespace Dense
namespace Blas

open AscCpp.Core Library

variable {Cell V : Type} {type : Representation Cell V}

/-! ## Offsets in `index_t` -/

/-- `product / 2`, when nothing is lost. -/
def checkedHalf (product : Int) : Option Int :=
  if 2 ∣ product then int64.arithmetic (product.tdiv 2) else none

/-- `line * (line + 1) / 2 + place`. -/
def checkedLeadingOffset (line place : Int) : Option Int := do
  let next ← int64.arithmetic (line + 1)
  let product ← int64.arithmetic (line * next)
  let before ← checkedHalf product
  int64.arithmetic (before + place)

/-- `line * order - line * (line - 1) / 2 + place - line`. -/
def checkedTrailingOffset (order line place : Int) : Option Int := do
  let full ← int64.arithmetic (line * order)
  let previous ← int64.arithmetic (line - 1)
  let product ← int64.arithmetic (line * previous)
  let missing ← checkedHalf product
  let before ← int64.arithmetic (full - missing)
  let last ← int64.arithmetic (before + place)
  int64.arithmetic (last - line)

def checkedPackedOffset (order : Int) (layout : DenseBlasLayout) (triangle : DenseBlasTriangle)
    (row column : Int) : Option Int :=
  match layout, triangle with
  | .columnMajor, .upper => checkedLeadingOffset column row
  | .columnMajor, .lower => checkedTrailingOffset order column row
  | .rowMajor, .upper => checkedTrailingOffset order row column
  | .rowMajor, .lower => checkedLeadingOffset row column

theorem checkedHalf_eq {product : Int} (heven : 2 ∣ product) (hnonneg : 0 ≤ product)
    (hbound : product < 2 ^ 63) : checkedHalf product = some (product.tdiv 2) := by
  have hhalf : product.tdiv 2 = product / 2 := Int.tdiv_eq_ediv_of_nonneg hnonneg
  rw [checkedHalf, if_pos heven]
  apply arithmetic_int64 <;> omega

theorem two_dvd_mul_pred (line : Int) : 2 ∣ line * (line - 1) := by
  simpa [mul_comm] using (Int.even_mul_succ_self (line - 1)).two_dvd

theorem checkedLeadingOffset_eq {order line place : Int} (hline : 0 ≤ line ∧ line < order)
    (hplace : 0 ≤ place ∧ place ≤ line) (horder : order * (order + 1) < 2 ^ 63) :
    checkedLeadingOffset line place = some ((line * (line + 1)).tdiv 2 + place) := by
  have hnonneg : 0 ≤ line * (line + 1) := Int.mul_nonneg hline.1 (by omega)
  have hproduct : line * (line + 1) ≤ order * (order + 1) :=
    Int.mul_le_mul (by omega) (by omega) (by omega) (by omega)
  have hsmall : order ≤ order * (order + 1) := le_mul_of_one_le_right (by omega) (by omega)
  have hstep : line * (line + 1) + 2 * (line + 1) ≤ order * (order + 1) := by
    calc line * (line + 1) + 2 * (line + 1) = (line + 1) * (line + 1 + 1) := by ring
      _ ≤ order * (order + 1) := Int.mul_le_mul (by omega) (by omega) (by omega) (by omega)
  have hhalf : (line * (line + 1)).tdiv 2 = line * (line + 1) / 2 :=
    Int.tdiv_eq_ediv_of_nonneg hnonneg
  simp only [checkedLeadingOffset, Option.bind_eq_bind]
  rw [arithmetic_int64 (by omega) (by omega), Option.bind_some,
    arithmetic_int64 (by omega) (by omega), Option.bind_some,
    checkedHalf_eq (Int.even_mul_succ_self line).two_dvd hnonneg (by omega), Option.bind_some,
    arithmetic_int64 (by omega) (by omega)]

theorem checkedTrailingOffset_eq {order line place : Int} (hline : 0 ≤ line)
    (hplace : line ≤ place ∧ place < order) (horder : order * (order + 1) < 2 ^ 63) :
    checkedTrailingOffset order line place =
      some (line * order - (line * (line - 1)).tdiv 2 + place - line) := by
  have hnonneg : 0 ≤ line * (line - 1) := by
    rcases eq_or_lt_of_le hline with rfl | hpositive
    · decide
    · exact Int.mul_nonneg hline (by omega)
  have hproduct : line * (line - 1) ≤ line * order := Int.mul_le_mul_of_nonneg_left (by omega) hline
  have hlines : line * order + order ≤ order * (order + 1) := by
    calc line * order + order = (line + 1) * order := by ring
      _ ≤ (order + 1) * order := Int.mul_le_mul_of_nonneg_right (by omega) (by omega)
      _ = order * (order + 1) := mul_comm _ _
  have hhalf : (line * (line - 1)).tdiv 2 = line * (line - 1) / 2 :=
    Int.tdiv_eq_ediv_of_nonneg hnonneg
  have hfull : 0 ≤ line * order := Int.mul_nonneg hline (by omega)
  simp only [checkedTrailingOffset, Option.bind_eq_bind]
  rw [arithmetic_int64 (by omega) (by omega), Option.bind_some,
    arithmetic_int64 (by omega) (by omega), Option.bind_some,
    arithmetic_int64 (by omega) (by omega), Option.bind_some,
    checkedHalf_eq (two_dvd_mul_pred line) hnonneg (by omega), Option.bind_some,
    arithmetic_int64 (by omega) (by omega), Option.bind_some,
    arithmetic_int64 (by omega) (by omega), Option.bind_some,
    arithmetic_int64 (by omega) (by omega)]

/-- The formulas compute in `index_t` what they compute exactly. -/
theorem checkedPackedOffset_eq (layout : DenseBlasLayout) (triangle : DenseBlasTriangle)
    {order row column : Int} (hrow : 0 ≤ row ∧ row < order) (hcolumn : 0 ≤ column ∧ column < order)
    (htriangle : InTriangle triangle row column) (horder : order * (order + 1) < 2 ^ 63) :
    checkedPackedOffset order layout triangle row column =
      some (packedOffset order layout triangle row column) := by
  cases layout with
  | columnMajor =>
    cases triangle with
    | upper => exact checkedLeadingOffset_eq hcolumn ⟨hrow.1, htriangle⟩ horder
    | lower => exact checkedTrailingOffset_eq hcolumn.1 ⟨htriangle, hrow.2⟩ horder
  | rowMajor =>
    cases triangle with
    | upper => exact checkedTrailingOffset_eq hrow.1 ⟨htriangle, hcolumn.2⟩ horder
    | lower => exact checkedLeadingOffset_eq hrow ⟨hcolumn.1, htriangle⟩ horder

/-! ## Mirrored triangles -/

def DenseBlasLayout.exchanged : DenseBlasLayout → DenseBlasLayout
  | .columnMajor => .rowMajor
  | .rowMajor => .columnMajor

/-- The formula of a layout is that of the other for the mirrored triangle. -/
theorem packedOffset_mirror (order : Int) (layout : DenseBlasLayout) (triangle : DenseBlasTriangle)
    (row column : Int) :
    packedOffset order layout.exchanged (opposite triangle) column row =
      packedOffset order layout triangle row column := by
  cases layout <;> cases triangle <;> rfl

/-! ## The numbering -/

/-- The pairs of a triangle. -/
def trianglePairs (triangle : DenseBlasTriangle) (order : Int) : Set (Int × Int) :=
  { pair | (0 ≤ pair.1 ∧ pair.1 < order) ∧ (0 ≤ pair.2 ∧ pair.2 < order) ∧
    InTriangle triangle pair.1 pair.2 }

/-- Every place of the packed storage belongs to a pair. -/
theorem exists_packedOffset (layout : DenseBlasLayout) (triangle : DenseBlasTriangle)
    {order number : Nat} (hnumber : 2 * number < order * (order + 1)) :
    ∃ row column : Nat, row < order ∧ column < order ∧ InTriangle triangle row column ∧
      packedOffset order layout triangle row column = number := by
  have hlength := length_packedPairs layout triangle order
  have hless : number < (packedPairs layout triangle order).length := by omega
  rcases hpair : (packedPairs layout triangle order)[number] with ⟨row, column⟩
  have hmem := List.getElem_mem hless
  rw [hpair] at hmem
  rcases mem_packedPairs hmem with ⟨hrow, hcolumn, htriangle⟩
  rcases packedPairs_packedOffset layout triangle hrow hcolumn htriangle with ⟨place, hplace, hsome⟩
  rcases List.getElem?_eq_some_iff.1 hsome with ⟨hless', hpair'⟩
  -- A pair is stored once, so its number is its place.
  have hsame : place = number :=
    (packedPairs_nodup layout triangle order).getElem_inj_iff.1 (hpair'.trans hpair.symm)
  exact ⟨row, column, hrow, hcolumn, htriangle, by rw [hplace, hsame]⟩

namespace DenseBlasPackedMatrixView

variable {view : DenseBlasPackedMatrixView type}

/-- `Create` multiplies the order by its successor in `stride_t`. -/
theorem Checked.product_lt (h : view.Checked) : view.order * (view.order + 1) < 2 ^ 63 := by
  have hnonneg := h.order_nonneg
  unfold Checked create at h
  rw [Result.failIf_bind_eq_ok_iff] at h
  rcases Result.bind_eq_ok_iff.1 h.2 with ⟨successor, hsuccessor, hchecked⟩
  rcases Result.bind_eq_ok_iff.1 hchecked with ⟨product, hproduct, -⟩
  have hbound := (checkedMultiply_ok_representable rfl hnonneg hproduct).2
  rw [checkedMultiply_ok_eq hproduct, checkedAdd_ok_eq hsuccessor] at hbound
  have hmaximum : int64.maximum = 2 ^ 63 - 1 := rfl
  omega

end DenseBlasPackedMatrixView

/-- On an accepted order, in both layouts: the offsets of a triangle are its storage, one each; no
operation overflows or halves an odd number; and a mirrored pair has the offset of the mirrored
storage. -/
theorem packedOffset_exact {view : DenseBlasPackedMatrixView type} (h : view.Checked)
    (layout : DenseBlasLayout) (triangle : DenseBlasTriangle) :
    Set.BijOn (fun pair : Int × Int => packedOffset view.order layout triangle pair.1 pair.2)
        (trianglePairs triangle view.order) (Set.Ico 0 (view.order * (view.order + 1) / 2)) ∧
      (∀ pair ∈ trianglePairs triangle view.order,
        checkedPackedOffset view.order layout triangle pair.1 pair.2 =
          some (packedOffset view.order layout triangle pair.1 pair.2)) ∧
      ∀ row column : Int,
        ((column, row) ∈ trianglePairs (opposite triangle) view.order ↔
          (row, column) ∈ trianglePairs triangle view.order) ∧
        packedOffset view.order layout.exchanged (opposite triangle) column row =
          packedOffset view.order layout triangle row column := by
  refine ⟨⟨fun pair hpair => ?_, fun pair hpair other hother heq => ?_, fun number hnumber => ?_⟩,
    fun pair hpair => checkedPackedOffset_eq layout triangle hpair.1 hpair.2.1 hpair.2.2 h.product_lt,
    fun row column => ⟨?_, packedOffset_mirror _ _ _ _ _⟩⟩
  · exact packedOffset_bounds layout triangle hpair.1 hpair.2.1 hpair.2.2
  · exact Prod.ext_iff.2 (packedOffset_injective layout triangle hpair.1 hpair.2.1 hpair.2.2
      hother.1 hother.2.1 hother.2.2 heq)
  -- The numbers below the count of the pairs are taken, one for each pair.
  · have horder : ((view.order.toNat : Nat) : Int) = view.order :=
      Int.toNat_of_nonneg h.order_nonneg
    rcases hnumber with ⟨hnonneg, hless⟩
    lift number to Nat using hnonneg
    have hbound : 2 * (number : Int) < view.order.toNat * (view.order.toNat + 1) := by
      rw [horder]
      omega
    rcases exists_packedOffset layout triangle (by exact_mod_cast hbound) with
      ⟨row, column, hrow, hcolumn, htriangle, heq⟩
    refine ⟨(row, column), ⟨⟨by simp, by simp; omega⟩, ⟨by simp, by simp; omega⟩, htriangle⟩, ?_⟩
    simpa only [horder] using heq
  · have hmirror := inTriangle_opposite triangle column row
    constructor
    · rintro ⟨hcolumn, hrow, htriangle⟩
      exact ⟨hrow, hcolumn, hmirror.1 htriangle⟩
    · rintro ⟨hrow, hcolumn, htriangle⟩
      exact ⟨hcolumn, hrow, hmirror.2 htriangle⟩

theorem packedOffset_exact_sample :
    Set.BijOn (fun pair : Int × Int => packedOffset 2 .rowMajor .upper pair.1 pair.2)
        (trianglePairs .upper 2) (Set.Ico 0 3) ∧
      (∀ pair ∈ trianglePairs .upper 2, checkedPackedOffset 2 .rowMajor .upper pair.1 pair.2 =
        some (packedOffset 2 .rowMajor .upper pair.1 pair.2)) ∧
      ∀ row column : Int,
        ((column, row) ∈ trianglePairs .lower 2 ↔ (row, column) ∈ trianglePairs .upper 2) ∧
        packedOffset 2 .columnMajor .lower column row =
          packedOffset 2 .rowMajor .upper row column :=
  packedOffset_exact (rfl : samplePacked.Checked) .rowMajor .upper

end Blas
end Dense
end AscCpp
