import AscCpp.Dense.Blas.Access
import AscCpp.Library.Segments
import Mathlib.Tactic.Ring

/-!
# Packed — the elements of a packed triangle

`PackedOffset`, which has a formula for each layout and triangle.  A packed triangle keeps the pairs
of the triangle in the order of the full storage, one behind the other.

- `packedPairs_packedOffset`: the formulas number the pairs of the triangle in that order.
- `DenseBlasPackedMatrixView.family`: the elements of a packed triangle share no cell.
-/

namespace AscCpp
namespace Dense
namespace Blas

open AscCpp.Core Library

variable {Cell V : Type} {type : Representation Cell V}

/-- The pair lies in the triangle, the diagonal included. -/
def InTriangle (triangle : DenseBlasTriangle) (row column : Int) : Prop :=
  match triangle with
  | .upper => row ≤ column
  | .lower => column ≤ row

instance (triangle : DenseBlasTriangle) (row column : Int) :
    Decidable (InTriangle triangle row column) :=
  match triangle with
  | .upper => inferInstanceAs (Decidable (row ≤ column))
  | .lower => inferInstanceAs (Decidable (column ≤ row))

def packedOffset (order : Int) (layout : DenseBlasLayout) (triangle : DenseBlasTriangle)
    (row column : Int) : Int :=
  match layout, triangle with
  | .columnMajor, .upper => (column * (column + 1)).tdiv 2 + row
  | .columnMajor, .lower => column * order - (column * (column - 1)).tdiv 2 + row - column
  | .rowMajor, .upper => row * order - (row * (row - 1)).tdiv 2 + column - row
  | .rowMajor, .lower => (row * (row + 1)).tdiv 2 + column

/-! ## The order of a packed triangle -/

/-- The pair at a place of a line of the full storage. -/
def DenseBlasLayout.pair (layout : DenseBlasLayout) (line place : Nat) : Nat × Nat :=
  match layout with
  | .columnMajor => (place, line)
  | .rowMajor => (line, place)

/-- The pairs of a triangle in the order of the full storage. -/
def packedPairs (layout : DenseBlasLayout) (triangle : DenseBlasTriangle) (order : Nat) :
    List (Nat × Nat) :=
  (List.range order).flatMap fun line =>
    ((List.range order).map (layout.pair line)).filter fun pair =>
      InTriangle triangle pair.1 pair.2

example : packedPairs .columnMajor .lower 3 = [(0, 0), (1, 0), (2, 0), (1, 1), (2, 1), (2, 2)] := by
  decide

/-- The triangle keeps the places of a line up to the diagonal, rather than those from it on. -/
def Leads (layout : DenseBlasLayout) (triangle : DenseBlasTriangle) : Bool :=
  match layout, triangle with
  | .columnMajor, .upper => true
  | .columnMajor, .lower => false
  | .rowMajor, .upper => false
  | .rowMajor, .lower => true

/-- The places of a line that the triangle keeps. -/
def keptPlaces (leads : Bool) (order line : Nat) : List Nat :=
  if leads then List.range (line + 1) else List.range' line (order - line)

theorem filter_range_le {order line : Nat} (hline : line < order) :
    ((List.range order).filter fun place => decide (place ≤ line)) = List.range (line + 1) := by
  have hsplit : List.range order = List.range (line + 1) ++
      (List.range (order - (line + 1))).map fun place => line + 1 + place := by
    rw [← List.range_add, Nat.add_sub_cancel' hline]
  rw [hsplit, List.filter_append, List.filter_eq_self.2, List.filter_eq_nil_iff.2, List.append_nil]
  · intro place hplace
    rcases List.mem_map.1 hplace with ⟨index, -, rfl⟩
    simp only [decide_eq_true_eq]
    omega
  · intro place hplace
    have hless := List.mem_range.1 hplace
    simp only [decide_eq_true_eq]
    omega

theorem filter_range_ge {order line : Nat} (hline : line < order) :
    ((List.range order).filter fun place => decide (line ≤ place)) =
      List.range' line (order - line) := by
  have hsplit : List.range order = List.range line ++
      (List.range (order - line)).map fun place => line + place := by
    rw [← List.range_add, Nat.add_sub_cancel' hline.le]
  rw [hsplit, List.filter_append, List.filter_eq_nil_iff.2, List.filter_eq_self.2, List.nil_append,
    List.range'_eq_map_range]
  · intro place hplace
    rcases List.mem_map.1 hplace with ⟨index, -, rfl⟩
    simp only [decide_eq_true_eq]
    omega
  · intro place hplace
    have hless := List.mem_range.1 hplace
    simp only [decide_eq_true_eq]
    omega

/-- A line of a packed triangle. -/
theorem filter_pair_eq (layout : DenseBlasLayout) (triangle : DenseBlasTriangle)
    {order line : Nat} (hline : line < order) :
    (((List.range order).map (layout.pair line)).filter fun pair =>
      decide (InTriangle triangle pair.1 pair.2)) =
        (keptPlaces (Leads layout triangle) order line).map (layout.pair line) := by
  rw [List.filter_map]
  congr 1
  unfold keptPlaces
  cases layout <;> cases triangle <;>
    simp only [Leads, Bool.false_eq_true, if_true, if_false, Function.comp_def, InTriangle,
      DenseBlasLayout.pair, Nat.cast_le]
  · exact filter_range_le hline
  · exact filter_range_ge hline
  · exact filter_range_ge hline
  · exact filter_range_le hline

theorem packedPairs_eq (layout : DenseBlasLayout) (triangle : DenseBlasTriangle) (order : Nat) :
    packedPairs layout triangle order = (List.range order).flatMap fun line =>
      (keptPlaces (Leads layout triangle) order line).map (layout.pair line) := by
  unfold packedPairs
  rw [List.flatMap_def, List.flatMap_def]
  congr 1
  exact List.map_congr_left fun line hline =>
    filter_pair_eq layout triangle (List.mem_range.1 hline)

/-! ## The formulas -/

/-- The lines of a packed triangle. -/
def packedLine (layout : DenseBlasLayout) (triangle : DenseBlasTriangle) (order line : Nat) :
    List (Nat × Nat) :=
  (keptPlaces (Leads layout triangle) order line).map (layout.pair line)

/-- The lines before a line that grow by one place each. -/
theorem bucketBound_leading {layout : DenseBlasLayout} {triangle : DenseBlasTriangle}
    (hleads : Leads layout triangle = true) (order line : Nat) :
    2 * bucketBound (packedLine layout triangle order) line = line * (line + 1) := by
  induction line with
  | zero => rfl
  | succ line ih =>
    rw [bucketBound_succ, Nat.mul_add, ih, packedLine, List.length_map, keptPlaces, if_pos hleads,
      List.length_range]
    ring

/-- The lines before a line that shrink by one place each. -/
theorem bucketBound_trailing {layout : DenseBlasLayout} {triangle : DenseBlasTriangle}
    (hleads : Leads layout triangle = false) {order line : Nat} (hline : line ≤ order) :
    2 * (bucketBound (packedLine layout triangle order) line : Int) =
      2 * (line * order) - line * (line - 1) := by
  induction line with
  | zero => simp
  | succ line ih =>
    have hplaces : (packedLine layout triangle order line).length = order - line := by
      rw [packedLine, List.length_map, keptPlaces, if_neg (by simp [hleads]), List.length_range']
    rw [bucketBound_succ, hplaces, Nat.cast_add, Int.mul_add, ih (by omega), Nat.cast_sub (by omega)]
    push_cast
    ring

/-- An even number is halved exactly. -/
theorem tdiv_two {double half : Int} (h : double = 2 * half) : double.tdiv 2 = half := by
  rw [h, Int.mul_tdiv_cancel_left _ (by decide)]

theorem packedPairs_getElem? {layout : DenseBlasLayout} {triangle : DenseBlasTriangle}
    {order line place : Nat} (hline : line < order)
    (hplace : place < (keptPlaces (Leads layout triangle) order line).length) :
    (packedPairs layout triangle order)[bucketBound (packedLine layout triangle order) line +
        place]? =
      ((keptPlaces (Leads layout triangle) order line)[place]?).map (layout.pair line) := by
  have hlength : place < (packedLine layout triangle order line).length := by
    simpa only [packedLine, List.length_map] using hplace
  rw [packedPairs_eq]
  rw [← List.getElem?_map]
  exact getElem?_flatMap_bucket hline hlength

/-- A place of a line up to the diagonal, by its number. -/
theorem packedPairs_leading {layout : DenseBlasLayout} {triangle : DenseBlasTriangle}
    (hleads : Leads layout triangle = true) {order line place : Nat} (hline : line < order)
    (hplace : place ≤ line) :
    ∃ number : Nat, ((line : Int) * (line + 1)).tdiv 2 + place = number ∧
      (packedPairs layout triangle order)[number]? = some (layout.pair line place) := by
  have hbound := bucketBound_leading hleads order line
  refine ⟨bucketBound (packedLine layout triangle order) line + place, ?_, ?_⟩
  · have hdouble : (line : Int) * (line + 1) =
        2 * (bucketBound (packedLine layout triangle order) line : Int) := by
      exact_mod_cast hbound.symm
    rw [tdiv_two hdouble, Nat.cast_add]
  · rw [packedPairs_getElem? hline, keptPlaces, if_pos hleads, List.getElem?_range (by omega),
      Option.map_some]
    rw [keptPlaces, if_pos hleads, List.length_range]
    omega

/-- A place of a line from the diagonal on, by its number. -/
theorem packedPairs_trailing {layout : DenseBlasLayout} {triangle : DenseBlasTriangle}
    (hleads : Leads layout triangle = false) {order line place : Nat} (hplace : line ≤ place)
    (horder : place < order) :
    ∃ number : Nat,
      (line : Int) * order - ((line : Int) * (line - 1)).tdiv 2 + place - line = number ∧
        (packedPairs layout triangle order)[number]? = some (layout.pair line place) := by
  have hbound := bucketBound_trailing hleads (by omega : line ≤ order)
  refine ⟨bucketBound (packedLine layout triangle order) line + (place - line), ?_, ?_⟩
  · have hdouble : (line : Int) * (line - 1) =
        2 * (line * order - (bucketBound (packedLine layout triangle order) line : Int)) := by
      linarith
    rw [tdiv_two hdouble, Nat.cast_add, Nat.cast_sub hplace]
    omega
  · rw [packedPairs_getElem? (by omega), keptPlaces, if_neg (by simp [hleads]),
      List.getElem?_range' (by omega), Option.map_some]
    · congr 2
      omega
    · rw [keptPlaces, if_neg (by simp [hleads]), List.length_range']
      omega

/-- `PackedOffset` numbers the pairs of the triangle in the order of the packed storage. -/
theorem packedPairs_packedOffset (layout : DenseBlasLayout) (triangle : DenseBlasTriangle)
    {order row column : Nat} (hrow : row < order) (hcolumn : column < order)
    (htriangle : InTriangle triangle row column) :
    ∃ number : Nat, packedOffset order layout triangle row column = number ∧
      (packedPairs layout triangle order)[number]? = some (row, column) := by
  cases layout with
  | columnMajor =>
    cases triangle with
    | upper => exact packedPairs_leading rfl hcolumn (Int.ofNat_le.1 htriangle)
    | lower => exact packedPairs_trailing rfl (Int.ofNat_le.1 htriangle) hrow
  | rowMajor =>
    cases triangle with
    | upper => exact packedPairs_trailing rfl (Int.ofNat_le.1 htriangle) hcolumn
    | lower => exact packedPairs_leading rfl hrow (Int.ofNat_le.1 htriangle)

/-- All lines together. -/
theorem length_packedPairs (layout : DenseBlasLayout) (triangle : DenseBlasTriangle)
    (order : Nat) : 2 * (packedPairs layout triangle order).length = order * (order + 1) := by
  have hlength : (packedPairs layout triangle order).length =
      bucketBound (packedLine layout triangle order) order := by
    rw [packedPairs_eq]
    rfl
  rw [hlength]
  cases hleads : Leads layout triangle with
  | true => exact bucketBound_leading hleads order order
  | false =>
    have hbound := bucketBound_trailing hleads (le_refl order)
    have hdouble : 2 * (bucketBound (packedLine layout triangle order) order : Int) =
        order * (order + 1) := by
      rw [hbound]
      ring
    exact_mod_cast hdouble

theorem packedPairs_nodup (layout : DenseBlasLayout) (triangle : DenseBlasTriangle)
    (order : Nat) : (packedPairs layout triangle order).Nodup := by
  refine List.nodup_flatMap.2 ⟨fun line _ => ?_, (List.nodup_range).imp fun {line line'} hne => ?_⟩
  · apply List.Nodup.filter
    apply List.nodup_range.map
    intro place place' heq
    cases layout
    · exact (Prod.mk.inj heq).1
    · exact (Prod.mk.inj heq).2
  · intro pair hpair hpair'
    rcases List.mem_map.1 (List.mem_of_mem_filter hpair) with ⟨place, -, rfl⟩
    rcases List.mem_map.1 (List.mem_of_mem_filter hpair') with ⟨place', -, heq⟩
    cases layout
    · exact hne (Prod.mk.inj heq).2.symm
    · exact hne (Prod.mk.inj heq).1.symm

/-- The pairs are those of the triangle. -/
theorem mem_packedPairs {layout : DenseBlasLayout} {triangle : DenseBlasTriangle} {order : Nat}
    {pair : Nat × Nat} (h : pair ∈ packedPairs layout triangle order) :
    pair.1 < order ∧ pair.2 < order ∧ InTriangle triangle pair.1 pair.2 := by
  rcases List.mem_flatMap.1 h with ⟨line, hline, hpair⟩
  rcases List.mem_filter.1 hpair with ⟨hmem, htriangle⟩
  rcases List.mem_map.1 hmem with ⟨place, hplace, rfl⟩
  have hless := List.mem_range.1 hline
  have hless' := List.mem_range.1 hplace
  refine ⟨?_, ?_, of_decide_eq_true htriangle⟩
  · cases layout <;> simp only [DenseBlasLayout.pair] <;> omega
  · cases layout <;> simp only [DenseBlasLayout.pair] <;> omega

/-- The formulas stay in the packed storage. -/
theorem packedOffset_bounds (layout : DenseBlasLayout) (triangle : DenseBlasTriangle)
    {order row column : Int} (hrow : 0 ≤ row ∧ row < order)
    (hcolumn : 0 ≤ column ∧ column < order) (htriangle : InTriangle triangle row column) :
    0 ≤ packedOffset order layout triangle row column ∧
      packedOffset order layout triangle row column < order * (order + 1) / 2 := by
  lift order to Nat using by omega
  lift row to Nat using hrow.1
  lift column to Nat using hcolumn.1
  rcases packedPairs_packedOffset layout triangle (by omega : row < order)
    (by omega : column < order) htriangle with ⟨number, hnumber, hpair⟩
  have hlength : 2 * ((packedPairs layout triangle order).length : Int) = order * (order + 1) := by
    exact_mod_cast length_packedPairs layout triangle order
  rcases List.getElem?_eq_some_iff.1 hpair with ⟨hless, -⟩
  omega

/-- The pairs of a triangle have numbers of their own. -/
theorem packedOffset_injective (layout : DenseBlasLayout) (triangle : DenseBlasTriangle)
    {order row column row' column' : Int} (hrow : 0 ≤ row ∧ row < order)
    (hcolumn : 0 ≤ column ∧ column < order) (htriangle : InTriangle triangle row column)
    (hrow' : 0 ≤ row' ∧ row' < order) (hcolumn' : 0 ≤ column' ∧ column' < order)
    (htriangle' : InTriangle triangle row' column')
    (heq : packedOffset order layout triangle row column =
      packedOffset order layout triangle row' column') :
    row = row' ∧ column = column' := by
  lift order to Nat using by omega
  lift row to Nat using hrow.1
  lift column to Nat using hcolumn.1
  lift row' to Nat using hrow'.1
  lift column' to Nat using hcolumn'.1
  rcases packedPairs_packedOffset layout triangle (by omega : row < order)
    (by omega : column < order) htriangle with ⟨number, hnumber, hpair⟩
  rcases packedPairs_packedOffset layout triangle (by omega : row' < order)
    (by omega : column' < order) htriangle' with ⟨number', hnumber', hpair'⟩
  have hsame : number = number' := by omega
  rw [hsame, hpair', Option.some.injEq] at hpair
  cases hpair
  exact ⟨rfl, rfl⟩

/-! ## Packed views -/

/-- The pairs of a triangle of some order. -/
abbrev TriangleIndex (triangle : DenseBlasTriangle) (order : Nat) : Type :=
  { item : Fin order × Fin order // InTriangle triangle item.1.val item.2.val }

namespace DenseBlasPackedMatrixView

/-- The address of the element that `PackedStoredAt` returns. -/
def packedStoredAt (view : DenseBlasPackedMatrixView type) (triangle : DenseBlasTriangle)
    (row column : Int) : Nat :=
  view.data + (packedOffset view.order view.layout triangle row column).toNat * type.size

/-- The value of an element. -/
def value (view : DenseBlasPackedMatrixView type) (memory : Nat → Cell)
    (triangle : DenseBlasTriangle) (row column : Int) : V :=
  elementAt type view.data memory (packedOffset view.order view.layout triangle row column)

variable {view : DenseBlasPackedMatrixView type} {triangle : DenseBlasTriangle}

theorem Checked.offset_bounds (_ : view.Checked) {row column : Int}
    (hrow : 0 ≤ row ∧ row < view.order) (hcolumn : 0 ≤ column ∧ column < view.order)
    (htriangle : InTriangle triangle row column) :
    0 ≤ packedOffset view.order view.layout triangle row column ∧
      packedOffset view.order view.layout triangle row column <
        view.order * (view.order + 1) / 2 :=
  packedOffset_bounds view.layout triangle hrow hcolumn htriangle

theorem Checked.offset_injective (_ : view.Checked) {row column row' column' : Int}
    (hrow : 0 ≤ row ∧ row < view.order) (hcolumn : 0 ≤ column ∧ column < view.order)
    (htriangle : InTriangle triangle row column)
    (hrow' : 0 ≤ row' ∧ row' < view.order) (hcolumn' : 0 ≤ column' ∧ column' < view.order)
    (htriangle' : InTriangle triangle row' column')
    (heq : packedOffset view.order view.layout triangle row column =
      packedOffset view.order view.layout triangle row' column') :
    row = row' ∧ column = column' :=
  packedOffset_injective view.layout triangle hrow hcolumn htriangle hrow' hcolumn' htriangle' heq

/-- A view is read in the bytes that it reaches. -/
theorem Checked.value_congr (h : view.Checked) {row column : Int}
    (hrow : 0 ≤ row ∧ row < view.order) (hcolumn : 0 ≤ column ∧ column < view.order)
    (htriangle : InTriangle triangle row column) {memory memory' : Nat → Cell}
    (hagree : AgreeOn view.reachableStorage.block memory memory') :
    view.value memory triangle row column = view.value memory' triangle row column :=
  have hbounds := h.offset_bounds hrow hcolumn htriangle
  (h.spans (by omega)).elementAt_congr hbounds.1 hbounds.2 hagree

/-- The elements of a checked view, as those of a triangle. -/
def family (view : DenseBlasPackedMatrixView type) (h : view.Checked)
    (triangle : DenseBlasTriangle) :
    ElementFamily type (TriangleIndex triangle view.order.toNat) :=
  .ofOffsets type view.data
    (fun item => packedOffset view.order view.layout triangle item.1.1.val item.1.2.val)
    (fun item => (h.offset_bounds ⟨by omega, by omega⟩ ⟨by omega, by omega⟩ item.2).1)
    (fun item other heq => by
      have hinjective := h.offset_injective ⟨by omega, by omega⟩ ⟨by omega, by omega⟩ item.2
        ⟨by omega, by omega⟩ ⟨by omega, by omega⟩ other.2 heq
      exact Subtype.ext (Prod.ext (Fin.ext (Int.ofNat.inj hinjective.1))
        (Fin.ext (Int.ofNat.inj hinjective.2))))

end DenseBlasPackedMatrixView

end Blas
end Dense
end AscCpp
