import AscCpp.Dense.Blas.MatrixVector

/-!
# Encoding — which matrix a storage holds

What a storage says about its matrix, told from the storage: the places of the lines of a full matrix,
the diagonals along the lines of a band, the pairs of a triangle one behind the other.  An encoding
does not speak of any other element of the storage.

- `SquareStorage.holds_iff`: the accesses of the source read the elements that an encoding speaks of.
- `SquareStorage.Encodes.access_eq`, `SquareStorage.EncodesTriangular.access_eq`,
  `GeneralStorage.Encodes.access_eq`: they read the encoded matrix.
-/

namespace AscCpp
namespace Dense
namespace Blas

open AscCpp.Core Library

variable {Cell V : Type} {type : Representation Cell V}

/-! ## Storage formats -/

section Formats

variable (layout : DenseBlasLayout) (element : Int → V) (cell : Int → Int → V → Prop)

/-- The lines of a full matrix are its columns or its rows. -/
def FullHolds (leadingDimension rows columns : Int) : Prop :=
  ∀ line place, 0 ≤ line ∧ line < layout.major rows columns →
    0 ≤ place ∧ place < layout.contiguous rows columns →
      match layout with
      | .columnMajor => cell place line (element (line * leadingDimension + place))
      | .rowMajor => cell line place (element (line * leadingDimension + place))

/-- The places along a line of a band belong to the diagonals, in order. -/
def BandHolds (leadingDimension lower upper rows columns : Int) : Prop :=
  ∀ line place, 0 ≤ line ∧ line < layout.major rows columns →
    0 ≤ place ∧ place ≤ lower + upper →
      match layout with
      | .columnMajor => 0 ≤ line + place - upper ∧ line + place - upper < rows →
          cell (line + place - upper) line (element (line * leadingDimension + place))
      | .rowMajor => 0 ≤ line + place - lower ∧ line + place - lower < columns →
          cell line (line + place - lower) (element (line * leadingDimension + place))

/-- The pairs of a packed triangle stand one behind the other. -/
def PackedHolds (triangle : DenseBlasTriangle) (order : Nat) : Prop :=
  ∀ (number : Nat) pair, (packedPairs layout triangle order)[number]? = some pair →
    cell pair.1 pair.2 (element number)

variable {layout element cell}

theorem fullHolds_iff {leadingDimension rows columns : Int} :
    FullHolds layout element cell leadingDimension rows columns ↔
      ∀ row column, 0 ≤ row ∧ row < rows → 0 ≤ column ∧ column < columns →
        cell row column
          (element (layout.major row column * leadingDimension + layout.contiguous row column)) := by
  cases layout with
  | columnMajor => exact ⟨fun h row column hrow hcolumn => h column row hcolumn hrow,
      fun h line place hline hplace => h place line hplace hline⟩
  | rowMajor => exact Iff.rfl

theorem bandHolds_iff {leadingDimension lower upper rows columns : Int} :
    BandHolds layout element cell leadingDimension lower upper rows columns ↔
      ∀ row column, 0 ≤ row ∧ row < rows → 0 ≤ column ∧ column < columns →
        InBand lower upper row column →
          cell row column (element (bandOffset layout leadingDimension lower upper row column)) := by
  unfold BandHolds InBand bandOffset
  -- A place within a line is a shifted difference of the indices, so the loops count the same
  -- pairs.
  cases layout with
  | columnMajor =>
    constructor
    · intro h row column hrow hcolumn hband
      have hcell := h column (upper + row - column) hcolumn (by omega)
      have hplace : column + (upper + row - column) - upper = row := by omega
      simp only [hplace] at hcell
      exact hcell hrow
    · intro h line place hline hplace hrow
      have hcell := h (line + place - upper) line hrow hline (by omega)
      have hoffset : upper + (line + place - upper) - line = place := by omega
      simpa only [hoffset] using hcell
  | rowMajor =>
    constructor
    · intro h row column hrow hcolumn hband
      have hcell := h row (lower + column - row) hrow (by omega)
      have hplace : row + (lower + column - row) - lower = column := by omega
      simp only [hplace] at hcell
      exact hcell hcolumn
    · intro h line place hline hplace hcolumn
      have hcell := h line (line + place - lower) hline hcolumn (by omega)
      have hoffset : lower + (line + place - lower) - line = place := by omega
      simpa only [hoffset] using hcell

theorem packedHolds_iff {triangle : DenseBlasTriangle} {order : Nat} :
    PackedHolds layout element cell triangle order ↔
      ∀ row column, 0 ≤ row ∧ row < (order : Int) → 0 ≤ column ∧ column < (order : Int) →
        InTriangle triangle row column →
          cell row column (element (packedOffset order layout triangle row column)) := by
  constructor
  · intro h row column hrow hcolumn htriangle
    lift row to Nat using hrow.1
    lift column to Nat using hcolumn.1
    rcases packedPairs_packedOffset layout triangle (Int.ofNat_lt.1 hrow.2)
      (Int.ofNat_lt.1 hcolumn.2) htriangle with ⟨number, hnumber, hpair⟩
    rw [hnumber]
    exact h number (row, column) hpair
  · intro h number pair hpair
    rcases mem_packedPairs (List.mem_of_getElem? hpair) with ⟨hrow, hcolumn, htriangle⟩
    rcases packedPairs_packedOffset layout triangle hrow hcolumn htriangle with
      ⟨number', hnumber', hpair'⟩
    -- A pair stands at one place only, so its number is what the formula yields.
    have hsame : number' = number := by
      rcases List.getElem?_eq_some_iff.1 hpair with ⟨hless, heq⟩
      rcases List.getElem?_eq_some_iff.1 hpair' with ⟨hless', heq'⟩
      exact (packedPairs_nodup layout triangle order).getElem_inj_iff.1 (heq'.trans heq.symm)
    have hcell := h pair.1 pair.2 ⟨by omega, by omega⟩ ⟨by omega, by omega⟩ htriangle
    rwa [hnumber', hsame] at hcell

end Formats

/-- The offset of the view is the place along the line of the element. -/
theorem DenseBlasMatrixView.lineOffset_eq (matrix : DenseBlasMatrixView type) (row column : Int) :
    matrix.layout.major row column * matrix.leadingDimension +
      matrix.layout.contiguous row column = matrix.offset row column := by
  unfold DenseBlasMatrixView.offset DenseBlasLayout.major DenseBlasLayout.contiguous
  cases matrix.layout <;> rfl

/-! ## Structured storage -/

namespace SquareStorage

/-- The pair is stored: it lies in the triangle, and in the band of a band. -/
def Keeps (storage : SquareStorage type) (triangle : DenseBlasTriangle) (row column : Int) : Prop :=
  InTriangle triangle row column ∧
    match storage with
    | .band matrix => column ≤ row + matrix.bandwidth ∧ row ≤ column + matrix.bandwidth
    | _ => True

/-- Every stored pair satisfies a condition together with its element. -/
def Holds (storage : SquareStorage type) (triangle : DenseBlasTriangle) (memory : Nat → Cell)
    (cell : Int → Int → V → Prop) : Prop :=
  match storage with
  | .full matrix =>
    FullHolds matrix.layout (elementAt type matrix.data memory)
      (fun row column value => InTriangle triangle row column → cell row column value)
      matrix.leadingDimension matrix.rows matrix.columns
  | .band matrix =>
    BandHolds matrix.layout (elementAt type matrix.data memory) cell matrix.leadingDimension
      (matrix.lowerBandwidth triangle) (matrix.upperBandwidth triangle) matrix.order matrix.order
  | .packed matrix =>
    PackedHolds matrix.layout (elementAt type matrix.data memory) cell triangle matrix.order.toNat

/-- The value that the source finds stored for a pair. -/
def stored [Zero V] (storage : SquareStorage type) (memory : Nat → Cell)
    (triangle : DenseBlasTriangle) (row column : Int) : V :=
  match storage with
  | .full matrix => matrix.value memory row column
  | .band matrix => matrix.triangularBandStoredAt memory triangle row column
  | .packed matrix => matrix.value memory triangle row column

variable {storage : SquareStorage type} {triangle : DenseBlasTriangle} {memory : Nat → Cell}

theorem inBand_iff {matrix : DenseBlasTriangularBandView type} (h : matrix.Checked)
    {row column : Int} :
    InBand (matrix.lowerBandwidth triangle) (matrix.upperBandwidth triangle) row column ↔
      (SquareStorage.band matrix).Keeps triangle row column := by
  have hextents := h.extents
  unfold InBand Keeps InTriangle DenseBlasTriangularBandView.lowerBandwidth
    DenseBlasTriangularBandView.upperBandwidth
  cases triangle <;> simp only <;> omega

/-- The accesses of the source read the elements that the storage holds for the pairs. -/
theorem holds_iff [Zero V] (h : storage.Checked) (cell : Int → Int → V → Prop) :
    storage.Holds triangle memory cell ↔
      ∀ row column, 0 ≤ row ∧ row < storage.order → 0 ≤ column ∧ column < storage.order →
        storage.Keeps triangle row column →
          cell row column (storage.stored memory triangle row column) := by
  -- Each encoding stores an element where the offset of its view says.
  cases storage with
  | full matrix =>
    rw [Holds, fullHolds_iff, ← h.2]
    simp only [matrix.lineOffset_eq]
    exact ⟨fun h row column hrow hcolumn hkeeps => h row column hrow hcolumn hkeeps.1,
      fun h row column hrow hcolumn htriangle => h row column hrow hcolumn ⟨htriangle, trivial⟩⟩
  | band matrix =>
    rw [Holds, bandHolds_iff]
    apply forall₄_congr
    intro row column hrow hcolumn
    rw [inBand_iff h]
    apply forall_congr'
    intro hkeeps
    rw [stored, DenseBlasTriangularBandView.triangularBandStoredAt_eq,
      if_pos ((inBand_iff h).2 hkeeps), matrix.offset_eq]
  | packed matrix =>
    have horder : ((matrix.order.toNat : Nat) : Int) = matrix.order :=
      Int.toNat_of_nonneg (DenseBlasPackedMatrixView.Checked.order_nonneg h)
    rw [Holds, packedHolds_iff, horder]
    exact ⟨fun h row column hrow hcolumn hkeeps => h row column hrow hcolumn hkeeps.1,
      fun h row column hrow hcolumn htriangle => h row column hrow hcolumn ⟨htriangle, trivial⟩⟩

/-- The source reads a stored pair in the reachable storage. -/
theorem stored_congr [Zero V] (h : storage.Checked) {memory' : Nat → Cell}
    (hagree : AgreeOn storage.reachableStorage.block memory memory') {row column : Int}
    (hrow : 0 ≤ row ∧ row < storage.order) (hcolumn : 0 ≤ column ∧ column < storage.order)
    (htriangle : InTriangle triangle row column) :
    storage.stored memory triangle row column = storage.stored memory' triangle row column := by
  cases storage with
  | full matrix => exact h.1.value_congr hrow ⟨hcolumn.1, h.2 ▸ hcolumn.2⟩ hagree
  | band matrix =>
    exact DenseBlasTriangularBandView.Checked.triangularBandStoredAt_congr h hrow hcolumn hagree
  | packed matrix =>
    exact DenseBlasPackedMatrixView.Checked.value_congr h hrow hcolumn htriangle hagree

/-! ### Symmetric and Hermitian matrices -/

/-- The storage holds one triangle of a symmetric or Hermitian matrix, which is zero off a band; the
imaginary parts of a Hermitian diagonal are left open. -/
structure Encodes [Zero V] [Star V] [DenseBlasScalar V] (storage : SquareStorage type)
    (triangle : DenseBlasTriangle) (hermitian : Bool) (memory : Nat → Cell)
    (matrix : Int → Int → V) : Prop where
  reflected : ∀ row column, 0 ≤ row ∧ row < storage.order → 0 ≤ column ∧ column < storage.order →
    matrix column row = if hermitian then star (matrix row column) else matrix row column
  outside : ∀ row column, 0 ≤ row ∧ row < storage.order → 0 ≤ column ∧ column < storage.order →
    InTriangle triangle row column → ¬ storage.Keeps triangle row column → matrix row column = 0
  holds : storage.Holds triangle memory fun row column value =>
    (if hermitian ∧ row = column then DenseBlasScalar.realPart value else value) =
      matrix row column

section Exact

variable [CommRing V] [StarRing V] [ExactScalar V] {hermitian : Bool} {matrix : Int → Int → V}

/-- What an access makes of a stored value of the encoded matrix. -/
theorem structuredValue_eq (value : V) (row column : Int) (reflected : Bool)
    (hreflected : reflected = true → row ≠ column) :
    structuredValue value row column hermitian reflected =
      let kept := if hermitian ∧ row = column then DenseBlasScalar.realPart value else value
      if hermitian ∧ reflected then star kept else kept := by
  unfold structuredValue
  rw [conjugate_eq]
  by_cases hdiagonal : hermitian = true ∧ row = column
  · have hnot : ¬ (hermitian = true ∧ reflected = true) := fun h => hreflected h.2 hdiagonal.2
    simp only [if_neg hnot, if_pos hdiagonal]
    by_cases hcomplex : DenseBlasScalar.complex V = true
    · rw [if_pos ⟨hcomplex, hdiagonal.2, hdiagonal.1⟩]
    · rw [if_neg fun h => hcomplex h.1]
      have hreal := ExactScalar.star_of_real (Bool.not_eq_true _ ▸ hcomplex) value
      exact (ExactScalar.realPart_of_star value hreal).symm
  · have hnot : ¬ (DenseBlasScalar.complex V = true ∧ row = column ∧ hermitian = true) :=
      fun h => hdiagonal ⟨h.2.2, h.2.1⟩
    simp only [if_neg hnot, if_neg hdiagonal]

/-- The pairs of a triangle and their reflections are all pairs. -/
theorem inTriangle_swap {row column : Int} (h : ¬ InTriangle triangle row column) :
    InTriangle triangle column row ∧ row ≠ column := by
  unfold InTriangle at *
  cases triangle <;> simp only at h ⊢ <;> omega

/-- An access reads the encoded matrix where the triangle holds it. -/
theorem reflectedAt_eq {stored : Int → Int → V} {row column : Int}
    (hmatrix : matrix row column = if hermitian then star (matrix column row) else matrix column row)
    (hheld : InTriangle triangle row column →
      (if hermitian ∧ row = column then DenseBlasScalar.realPart (stored row column)
        else stored row column) = matrix row column)
    (hheld' : InTriangle triangle column row →
      (if hermitian ∧ column = row then DenseBlasScalar.realPart (stored column row)
        else stored column row) = matrix column row) :
    reflectedAt stored triangle row column hermitian = matrix row column := by
  unfold reflectedAt
  by_cases hoff : OffTriangle triangle row column
  · rcases inTriangle_swap (offTriangle_iff.1 hoff) with ⟨htriangle, hne⟩
    rw [if_pos hoff, structuredValue_eq _ _ _ _ fun _ => hne.symm]
    simp only [hheld' htriangle, hmatrix, and_true]
  · have htriangle := not_not.1 fun hnot => hoff (offTriangle_iff.2 hnot)
    rw [if_neg hoff, structuredValue_eq _ _ _ _ fun h => absurd h Bool.false_ne_true]
    simp only [hheld htriangle, Bool.false_eq_true, and_false, if_false]

theorem Encodes.access_eq (hchecked : storage.Checked)
    (h : storage.Encodes triangle hermitian memory matrix) {row column : Int}
    (hrow : 0 ≤ row ∧ row < storage.order) (hcolumn : 0 ≤ column ∧ column < storage.order) :
    (storage.structured triangle hermitian).access memory row column = matrix row column := by
  have hholds := (holds_iff hchecked _).1 h.holds
  have hmatrix := h.reflected column row hcolumn hrow
  have houtside := h.outside row column hrow hcolumn
  have houtside' := h.outside column row hcolumn hrow
  -- An access reads the stored element or the reflected one; a band has zeros besides.
  cases storage with
  | full view =>
    exact reflectedAt_eq hmatrix (fun htriangle => hholds row column hrow hcolumn ⟨htriangle, trivial⟩)
      fun htriangle => hholds column row hcolumn hrow ⟨htriangle, trivial⟩
  | packed view =>
    exact reflectedAt_eq hmatrix (fun htriangle => hholds row column hrow hcolumn ⟨htriangle, trivial⟩)
      fun htriangle => hholds column row hcolumn hrow ⟨htriangle, trivial⟩
  | band view =>
    show symmetricBandAt view memory triangle row column hermitian = matrix row column
    unfold symmetricBandAt
    split
    · -- Off the band the matrix is zero on both sides of the diagonal.
      rename_i hoff
      by_cases htriangle : InTriangle triangle row column
      · exact (houtside htriangle fun hkeeps => by have := hkeeps.2; omega).symm
      · have hzero := houtside' (inTriangle_swap htriangle).1 fun hkeeps => by
          have := hkeeps.2
          omega
        rw [hmatrix, hzero, star_zero, ite_self]
    · rename_i hin
      exact reflectedAt_eq hmatrix
        (fun htriangle => hholds row column hrow hcolumn ⟨htriangle, by omega, by omega⟩)
        fun htriangle => hholds column row hcolumn hrow ⟨htriangle, by omega, by omega⟩

/-- Every storage holds one triangle of such a matrix. -/
theorem exists_encodes (hchecked : storage.Checked) (triangle : DenseBlasTriangle)
    (hermitian : Bool) (memory : Nat → Cell) :
    ∃ matrix, storage.Encodes triangle hermitian memory matrix := by
  -- The stored value of a pair of the triangle, freed of its imaginary part on the diagonal.
  let kept (row column : Int) : V :=
    if hermitian ∧ row = column then
      DenseBlasScalar.realPart (storage.stored memory triangle row column)
    else storage.stored memory triangle row column
  let inside (row column : Int) : Prop := storage.Keeps triangle row column
  classical
  let half (row column : Int) : V := if inside row column then kept row column else 0
  have hdiagonal : hermitian = true → ∀ row, star (half row row) = half row row := by
    intro hhermitian row
    simp only [half, kept, hhermitian]
    split
    · simp only [and_self, if_true]
      exact ExactScalar.star_realPart _
    · exact star_zero V
  refine ⟨fun row column => if InTriangle triangle row column then half row column
    else if hermitian then star (half column row) else half column row, ?_, ?_, ?_⟩
  · intro row column _ _
    by_cases htriangle : InTriangle triangle row column
    · by_cases htriangle' : InTriangle triangle column row
      · have heq : row = column := by
          unfold InTriangle at htriangle htriangle'
          cases triangle <;> simp only at htriangle htriangle' <;> omega
        subst heq
        simp only [if_pos htriangle]
        cases hermitian with
        | false => rfl
        | true => exact (hdiagonal rfl row).symm
      · simp only [if_pos htriangle, if_neg htriangle']
    · have htriangle' := (inTriangle_swap htriangle).1
      simp only [if_neg htriangle, if_pos htriangle']
      cases hermitian with
      | false => rfl
      | true => exact (star_star _).symm
  · intro row column _ _ htriangle hkeeps
    simp only [if_pos htriangle]
    exact if_neg hkeeps
  · rw [holds_iff hchecked]
    intro row column _ _ hkeeps
    simp only [if_pos hkeeps.1]
    exact (if_pos hkeeps).symm

end Exact

/-! ### Triangular matrices -/

/-- The storage holds a triangular matrix, which is zero off its triangle and off a band; the stored
diagonal is left open when the diagonal is one. -/
structure EncodesTriangular [Zero V] [One V] (storage : SquareStorage type)
    (triangle : DenseBlasTriangle) (diagonal : DenseBlasDiagonal) (memory : Nat → Cell)
    (matrix : Int → Int → V) : Prop where
  outside : ∀ row column, 0 ≤ row ∧ row < storage.order → 0 ≤ column ∧ column < storage.order →
    ¬ storage.Keeps triangle row column → matrix row column = 0
  holds : storage.Holds triangle memory fun row column value =>
    (if row = column ∧ diagonal = .unit then 1 else value) = matrix row column

/-- The diagonal is stored in every format. -/
theorem keeps_diagonal (hchecked : storage.Checked) (row : Int) :
    storage.Keeps triangle row row := by
  have htriangle : InTriangle triangle row row := by
    unfold InTriangle
    cases triangle <;> exact le_rfl
  cases storage with
  | full matrix => exact ⟨htriangle, trivial⟩
  | packed matrix => exact ⟨htriangle, trivial⟩
  | band matrix =>
    have hextents := DenseBlasTriangularBandView.Checked.extents hchecked
    exact ⟨htriangle, by omega, by omega⟩

section Weak

variable [Zero V] [One V] {diagonal : DenseBlasDiagonal}

/-- A triangular access, from what is stored. -/
theorem triangular_access (hchecked : storage.Checked) (row column : Int) :
    (storage.triangular triangle diagonal).access memory row column =
      if row = column ∧ diagonal = .unit then 1
      else if OffTriangle triangle row column then 0
      else storage.stored memory triangle row column := by
  cases storage with
  | full matrix => rfl
  | packed matrix => rfl
  | band matrix =>
    show bandTriangularAt matrix memory triangle diagonal row column = _
    unfold bandTriangularAt
    congr 1
    split
    · rename_i hoff
      rw [DenseBlasTriangularBandView.triangularBandStoredAt_eq, if_neg]
      intro hband
      exact offTriangle_iff.1 hoff ((inBand_iff hchecked).1 hband).1
    · rfl

theorem EncodesTriangular.access_eq {matrix : Int → Int → V} (hchecked : storage.Checked)
    (h : storage.EncodesTriangular triangle diagonal memory matrix) {row column : Int}
    (hrow : 0 ≤ row ∧ row < storage.order) (hcolumn : 0 ≤ column ∧ column < storage.order) :
    (storage.triangular triangle diagonal).access memory row column = matrix row column := by
  have hholds := (holds_iff hchecked _).1 h.holds row column hrow hcolumn
  rw [triangular_access hchecked]
  by_cases hkeeps : storage.Keeps triangle row column
  · rw [← hholds hkeeps, if_neg fun hoff => offTriangle_iff.1 hoff hkeeps.1]
  · have hne : ¬ (row = column ∧ diagonal = .unit) := by
      rintro ⟨rfl, -⟩
      exact hkeeps (keeps_diagonal hchecked row)
    rw [if_neg hne, h.outside row column hrow hcolumn hkeeps]
    split
    · rfl
    · rename_i hin
      have htriangle := not_not.1 fun hnot => hin (offTriangle_iff.2 hnot)
      cases storage with
      | full matrix => exact absurd ⟨htriangle, trivial⟩ hkeeps
      | packed matrix => exact absurd ⟨htriangle, trivial⟩ hkeeps
      | band matrix =>
        rw [stored, DenseBlasTriangularBandView.triangularBandStoredAt_eq,
          if_neg fun hband => hkeeps ((inBand_iff hchecked).1 hband)]

theorem EncodesTriangular.congr {memory' : Nat → Cell} {matrix : Int → Int → V}
    (hchecked : storage.Checked) (h : storage.EncodesTriangular triangle diagonal memory matrix)
    (hagree : AgreeOn storage.reachableStorage.block memory memory') :
    storage.EncodesTriangular triangle diagonal memory' matrix := by
  refine ⟨h.outside, (holds_iff hchecked _).2 fun row column hrow hcolumn hkeeps => ?_⟩
  rw [← stored_congr hchecked hagree hrow hcolumn hkeeps.1]
  exact (holds_iff hchecked _).1 h.holds row column hrow hcolumn hkeeps

/-- Every storage holds a triangular matrix. -/
theorem exists_encodesTriangular (hchecked : storage.Checked) (triangle : DenseBlasTriangle)
    (diagonal : DenseBlasDiagonal) (memory : Nat → Cell) :
    ∃ matrix : Int → Int → V, storage.EncodesTriangular triangle diagonal memory matrix := by
  classical
  refine ⟨fun row column => if storage.Keeps triangle row column then
    if row = column ∧ diagonal = .unit then 1 else storage.stored memory triangle row column
    else 0, fun row column _ _ hkeeps => if_neg hkeeps, ?_⟩
  rw [holds_iff hchecked]
  exact fun row column _ _ hkeeps => (if_pos hkeeps).symm

/-! ### Locality -/

omit [One V] in
theorem structured_local [Star V] [DenseBlasScalar V] (hchecked : storage.Checked)
    (triangle : DenseBlasTriangle) (hermitian : Bool) :
    (storage.structured triangle hermitian).Local := by
  intro memory memory' hagree row column hrow hcolumn
  -- Both accesses reflect the same stored elements.
  have hreflected : ∀ stored stored' : Int → Int → V,
      (∀ row column, 0 ≤ row ∧ row < storage.order → 0 ≤ column ∧ column < storage.order →
        InTriangle triangle row column → stored row column = stored' row column) →
      reflectedAt stored triangle row column hermitian =
        reflectedAt stored' triangle row column hermitian := by
    intro stored stored' h
    unfold reflectedAt
    split
    · rename_i hoff
      rw [h column row hcolumn hrow (inTriangle_swap (offTriangle_iff.1 hoff)).1]
    · rename_i hin
      rw [h row column hrow hcolumn (not_not.1 fun hnot => hin (offTriangle_iff.2 hnot))]
  have hstored : ∀ row column, 0 ≤ row ∧ row < storage.order →
      0 ≤ column ∧ column < storage.order → InTriangle triangle row column →
        storage.stored memory triangle row column = storage.stored memory' triangle row column :=
    fun row column hrow hcolumn htriangle =>
      stored_congr hchecked hagree hrow hcolumn htriangle
  cases storage with
  | full matrix => exact hreflected _ _ hstored
  | packed matrix => exact hreflected _ _ hstored
  | band matrix =>
    show symmetricBandAt matrix memory triangle row column hermitian =
      symmetricBandAt matrix memory' triangle row column hermitian
    unfold symmetricBandAt
    congr 1
    exact hreflected _ _ hstored

theorem triangular_local (hchecked : storage.Checked) (triangle : DenseBlasTriangle)
    (diagonal : DenseBlasDiagonal) : (storage.triangular triangle diagonal).Local := by
  intro memory memory' hagree row column hrow hcolumn
  rw [triangular_access hchecked, triangular_access hchecked]
  split
  · rfl
  split
  · rfl
  · rename_i hin
    exact stored_congr hchecked hagree hrow hcolumn
      (not_not.1 fun hnot => hin (offTriangle_iff.2 hnot))

end Weak

end SquareStorage

/-! ## General storage -/

/-- The storage of a general matrix: in full or as a band. -/
inductive GeneralStorage (type : Representation Cell V) where
  | full (matrix : DenseBlasMatrixView type)
  | band (matrix : DenseBlasBandMatrixView type)

namespace GeneralStorage

/-- The descriptor comes from `Create`. -/
def Checked : GeneralStorage type → Prop
  | .full matrix => matrix.Checked
  | .band matrix => matrix.Checked

/-- What `Gemv` and `Gbmv` pass on. -/
def operand [Zero V] : GeneralStorage type → GeneralOperand Cell V
  | .full matrix =>
    { rows := matrix.rows
      columns := matrix.columns
      memorySpace := matrix.memorySpace
      reachableStorage := matrix.reachableStorage
      access := matrix.value }
  | .band matrix =>
    { rows := matrix.rows
      columns := matrix.columns
      memorySpace := matrix.memorySpace
      reachableStorage := matrix.reachableStorage
      access := matrix.generalBandAt }

/-- The pair is stored. -/
def Keeps (storage : GeneralStorage type) (row column : Int) : Prop :=
  match storage with
  | .full _ => True
  | .band matrix => InBand matrix.lowerBandwidth matrix.upperBandwidth row column

/-- Every stored pair satisfies a condition together with its element. -/
def Holds (storage : GeneralStorage type) (memory : Nat → Cell) (cell : Int → Int → V → Prop) :
    Prop :=
  match storage with
  | .full matrix =>
    FullHolds matrix.layout (elementAt type matrix.data memory) cell matrix.leadingDimension
      matrix.rows matrix.columns
  | .band matrix =>
    BandHolds matrix.layout (elementAt type matrix.data memory) cell matrix.leadingDimension
      matrix.lowerBandwidth matrix.upperBandwidth matrix.rows matrix.columns

variable [Zero V] {storage : GeneralStorage type} {memory : Nat → Cell}

/-- The storage holds a matrix, which is zero off a band. -/
structure Encodes (storage : GeneralStorage type) (memory : Nat → Cell)
    (matrix : Int → Int → V) : Prop where
  outside : ∀ row column, ¬ storage.Keeps row column → matrix row column = 0
  holds : storage.Holds memory fun row column value => value = matrix row column

theorem holds_iff (cell : Int → Int → V → Prop) :
    storage.Holds memory cell ↔
      ∀ row column, 0 ≤ row ∧ row < storage.operand.rows →
        0 ≤ column ∧ column < storage.operand.columns → storage.Keeps row column →
          cell row column (storage.operand.access memory row column) := by
  cases storage with
  | full matrix =>
    rw [Holds, fullHolds_iff]
    simp only [matrix.lineOffset_eq]
    exact ⟨fun h row column hrow hcolumn _ => h row column hrow hcolumn,
      fun h row column hrow hcolumn => h row column hrow hcolumn trivial⟩
  | band matrix =>
    rw [Holds, bandHolds_iff]
    apply forall₄_congr
    intro row column hrow hcolumn
    apply forall_congr'
    intro hkeeps
    rw [operand]
    simp only
    rw [DenseBlasBandMatrixView.generalBandAt_eq, if_pos hkeeps, matrix.offset_eq]

theorem Encodes.access_eq {matrix : Int → Int → V} (h : storage.Encodes memory matrix)
    {row column : Int} (hrow : 0 ≤ row ∧ row < storage.operand.rows)
    (hcolumn : 0 ≤ column ∧ column < storage.operand.columns) :
    storage.operand.access memory row column = matrix row column := by
  by_cases hkeeps : storage.Keeps row column
  · exact (holds_iff _).1 h.holds row column hrow hcolumn hkeeps
  · rw [h.outside row column hkeeps]
    cases storage with
    | full matrix => exact absurd trivial hkeeps
    | band matrix => exact (matrix.generalBandAt_eq memory row column).trans (if_neg hkeeps)

theorem exists_encodes (storage : GeneralStorage type) (memory : Nat → Cell) :
    ∃ matrix : Int → Int → V, storage.Encodes memory matrix := by
  classical
  refine ⟨fun row column => if storage.Keeps row column then
    storage.operand.access memory row column else 0, fun _ _ hkeeps => if_neg hkeeps, ?_⟩
  rw [holds_iff]
  exact fun row column _ _ hkeeps => (if_pos hkeeps).symm

theorem operand_local (h : storage.Checked) : storage.operand.Local := by
  intro memory memory' hagree row column hrow hcolumn
  cases storage with
  | full matrix => exact DenseBlasMatrixView.Checked.value_congr h hrow hcolumn hagree
  | band matrix => exact DenseBlasBandMatrixView.Checked.generalBandAt_congr h hrow hcolumn hagree

end GeneralStorage

end Blas
end Dense
end AscCpp
