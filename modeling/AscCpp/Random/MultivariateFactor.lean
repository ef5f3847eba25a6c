import AscCpp.Core.Outcome
import AscCpp.Random.MultivariateNormal
import Mathlib.Algebra.Order.Star.Real
import Mathlib.Analysis.Real.Sqrt

/-!
# MultivariateFactor — the factor of a covariance in exact arithmetic

- `yields_factorize`: the loops finish row after row, or the covariance is not positive definite.
- `prepareDenseMultivariateNormal_correct`: which covariances are accepted, and what is stored.
-/

namespace AscCpp
namespace Random

open AscCpp.Core Library AscCpp.Dense

variable {Cell K : Type} {type : Representation Cell K}

/-- Views of one dimension, the last of which shares no byte with the covariance. -/
structure FactorViews (mean : DenseView type 1) (covariance lowerFactor : DenseView type 2)
    (dimension : Nat) : Prop where
  mean_extent : mean.mapping.extents.get 0 = dimension
  covariance_rows : covariance.mapping.extents.get 0 = dimension
  covariance_columns : covariance.mapping.extents.get 1 = dimension
  factor_rows : lowerFactor.mapping.extents.get 0 = dimension
  factor_columns : lowerFactor.mapping.extents.get 1 = dimension
  covariance_apart : lowerFactor.valueSpan.Disjoint covariance.valueSpan

namespace FactorViews

variable {mean : DenseView type 1} {covariance lowerFactor : DenseView type 2} {dimension : Nat}
  {memory : Nat → Cell}

/-- The elements of the factor. -/
def family (h : FactorViews mean covariance lowerFactor dimension) :
    ElementFamily type (Fin dimension × Fin dimension) :=
  matrixFamily lowerFactor h.factor_rows h.factor_columns

theorem covariance_entry (h : FactorViews mean covariance lowerFactor dimension)
    {memory' : Nat → Cell} (huntouched : h.family.Untouched memory memory') {row column : Nat}
    (hrow : row < dimension) (hcolumn : column < dimension) :
    entry covariance memory' row column = entry covariance memory row column := by
  apply entry_of_untouched (matrixFamily_inside h.factor_rows h.factor_columns) h.covariance_apart
    huntouched
  · rw [h.covariance_rows]
    exact_mod_cast hrow
  · rw [h.covariance_columns]
    exact_mod_cast hcolumn

theorem untouched_store (h : FactorViews mean covariance lowerFactor dimension)
    {row column : Nat} (hrow : row < dimension) (hcolumn : column < dimension) (value : K) :
    h.family.Untouched memory (type.store memory (matrixAt lowerFactor row column) value) :=
  @ElementFamily.untouched_store _ _ _ _ h.family memory (⟨row, hrow⟩, ⟨column, hcolumn⟩) value

theorem entry_store (h : FactorViews mean covariance lowerFactor dimension)
    {row column row' column' : Nat} {value : K} (hrow : row < dimension) (hcolumn : column < dimension)
    (hrow' : row' < dimension) (hcolumn' : column' < dimension) :
    entry lowerFactor (type.store memory (matrixAt lowerFactor row column) value) row' column' =
      if (row', column') = (row, column) then value else entry lowerFactor memory row' column' :=
  Random.entry_store h.factor_rows h.factor_columns hrow hcolumn hrow' hcolumn'

end FactorViews

section Steps

variable [Field K] [LinearOrder K] {sqrt : K → K} {mean : DenseView type 1} {covariance lowerFactor : DenseView type 2}
  {dimension : Nat} {memory : Nat → Cell}

/-! ## The loops -/

/-- The entries below the dimension are symmetric. -/
def SymmetricEntries (dimension : Nat) (matrix : Nat → Nat → K) : Prop :=
  ∀ row < dimension, ∀ column < dimension, matrix row column = matrix column row

theorem yields_validateMoments (count : Nat) :
    Effect.Yields (validateMoments (RealArithmetic.exact sqrt) mean covariance count) memory
      (fun _ memory' => memory' = memory ∧ SymmetricEntries count (entry covariance memory))
      (fun status memory' => memory' = memory ∧ status.code = .invalidArgument ∧
        ¬ SymmetricEntries count (entry covariance memory)) := by
  unfold validateMoments
  -- The rows checked so far are symmetric in every column.
  refine (Effect.Yields.forM_range (fun rows memory' => memory' = memory ∧
      ∀ row < rows, ∀ column < count,
        entry covariance memory row column = entry covariance memory column row) ?_ ?_).mono
    (fun _ _ h => h) fun _ _ h => h
  · rintro row hrow memory' ⟨hsame, hrows⟩
    rw [hsame]
    apply Effect.Yields.load
    apply Effect.Yields.failIf
    -- Every real is finite, so this check passes.
    · intro hinfinite
      exact absurd rfl hinfinite
    intro _
    refine (Effect.Yields.forM_range (fun columns memory' => memory' = memory ∧
        ∀ column < columns, entry covariance memory row column =
          entry covariance memory column row) ?_ ?_).mono ?_ fun _ _ h => h
    · rintro column hcolumn memory' ⟨hsame, hcolumns⟩
      rw [hsame]
      apply Effect.Yields.load
      apply Effect.Yields.failIf
      · intro hinfinite
        exact absurd rfl hinfinite
      intro _
      apply Effect.Yields.load
      have hread : ∀ row column, type.load memory (matrixAt covariance row column) =
          entry covariance memory row column := fun _ _ => rfl
      rw [hread, hread]
      -- The test for symmetry is the only one that can fail.
      apply Effect.Yields.failIf_last
      · intro hdiffers
        refine ⟨rfl, rfl, fun hsymmetric => hdiffers ?_⟩
        exact decide_eq_true (hsymmetric row hrow column hcolumn)
      · intro hequal
        refine ⟨rfl, fun column' hcolumn' => ?_⟩
        rcases Nat.lt_succ_iff_lt_or_eq.1 hcolumn' with hbefore | rfl
        · exact hcolumns column' hbefore
        · exact of_decide_eq_true (not_not.1 hequal)
    · exact ⟨rfl, fun column hcolumn => absurd hcolumn (Nat.not_lt_zero column)⟩
    · rintro _ memory' ⟨hsame, hcolumns⟩
      refine ⟨hsame, fun row' hrow' column hcolumn => ?_⟩
      rcases Nat.lt_succ_iff_lt_or_eq.1 hrow' with hbefore | rfl
      · exact hrows row' hbefore column hcolumn
      · exact hcolumns column hcolumn
  · exact ⟨rfl, fun row hrow => absurd hrow (Nat.not_lt_zero row)⟩

theorem yields_subtractProducts {matrix : Nat → Nat → K} {row column : Nat}
    (hentry : entry covariance memory row column = matrix row column) :
    Effect.Yields (subtractProducts (RealArithmetic.exact sqrt) covariance lowerFactor row column)
      memory (fun value memory' => memory' = memory ∧
        value = remainder matrix (entry lowerFactor memory) row column) fun _ _ => False := by
  apply Effect.Yields.load
  -- The entry less the products subtracted so far.
  refine (Effect.Yields.foldlM_range (fun inner value memory' => memory' = memory ∧
    value = matrix row column - ∑ index ∈ Finset.range inner,
      entry lowerFactor memory row index * entry lowerFactor memory column index) ?_ ?_).mono
    (fun _ _ h => h) fun _ _ h => h
  · rintro inner hinner value memory' ⟨hsame, hvalue⟩
    rw [hsame]
    apply Effect.Yields.load
    apply Effect.Yields.load
    apply Effect.Yields.pure
    refine ⟨rfl, ?_⟩
    have hround : (RealArithmetic.exact sqrt).fma ((RealArithmetic.exact sqrt).negate
        (entry lowerFactor memory row inner)) (entry lowerFactor memory column inner) value =
          -entry lowerFactor memory row inner * entry lowerFactor memory column inner + value := rfl
    refine hround.trans ?_
    rw [hvalue, Finset.sum_range_succ]
    ring
  · refine ⟨rfl, ?_⟩
    rw [Finset.sum_range_zero, sub_zero, ← hentry]
    rfl

/-- An entry is what was left, under the root or over the diagonal entry of its column; nothing is
stored yet. -/
theorem yields_factorEntry (hsqrt : ∀ x : K, 0 < x → 0 < sqrt x ∧ sqrt x * sqrt x = x)
    {matrix : Nat → Nat → K} {row column : Nat} (hcolumn : column ≤ row)
    (hentry : entry covariance memory row column = matrix row column)
    (hfactors : Factors row matrix (entry lowerFactor memory)) :
    Effect.Yields (factorEntry (RealArithmetic.exact sqrt) covariance lowerFactor row column) memory
      (fun value memory' => memory' = memory ∧
        (row = column → 0 < value ∧
          value * value = remainder matrix (entry lowerFactor memory) row column) ∧
        (row ≠ column → value * entry lowerFactor memory column column =
          remainder matrix (entry lowerFactor memory) row column))
      (fun status memory' => memory' = memory ∧ status.code = .numerical ∧ row = column ∧
        ¬ 0 < remainder matrix (entry lowerFactor memory) row row) := by
  have hloop := @yields_subtractProducts _ _ type _ _ sqrt covariance lowerFactor memory matrix
    row column hentry
  refine (hloop.mono (fun _ _ h => h) fun _ _ h => h.elim).bind ?_
  rintro value memory' ⟨rfl, hvalue⟩
  by_cases hdiagonal : row = column
  · rw [if_pos hdiagonal]
    apply Effect.Yields.failIf
    · intro hfails
      refine ⟨rfl, rfl, hdiagonal, fun hpositive => ?_⟩
      rcases hfails with hinfinite | hless
      · exact hinfinite rfl
      · subst hdiagonal
        rw [← hvalue] at hpositive
        exact hless (decide_eq_true hpositive)
    · intro hpasses
      rw [not_or, not_not, not_not] at hpasses
      have hpositive : 0 < value := of_decide_eq_true hpasses.2
      have hroot := hsqrt value hpositive
      apply Effect.Yields.check (if_pos hpositive)
      refine ⟨rfl, fun _ => ⟨hroot.1, ?_⟩, fun hne => absurd hdiagonal hne⟩
      rw [hroot.2, hvalue]
  · rw [if_neg hdiagonal]
    apply Effect.Yields.load
    -- The diagonal entry of an earlier column is positive.
    have hne : entry lowerFactor memory' column column ≠ 0 :=
      hfactors.diagonal_ne_zero column (by omega)
    apply Effect.Yields.check (if_neg hne)
    refine ⟨rfl, fun heq => absurd heq hdiagonal, fun _ => ?_⟩
    rw [← hvalue]
    exact div_mul_cancel₀ value hne

/-- A round extends the part of its row that is finished. -/
theorem yields_factorRound (h : FactorViews mean covariance lowerFactor dimension)
    (hsqrt : ∀ x : K, 0 < x → 0 < sqrt x ∧ sqrt x * sqrt x = x) {row column : Nat}
    (hrow : row < dimension) (hcolumn : column < row + 1) {memory' : Nat → Cell}
    (huntouched : h.family.Untouched memory memory')
    (hfactors : Factors row (entry covariance memory) (entry lowerFactor memory'))
    (hpart : RowPart row column (entry covariance memory) (entry lowerFactor memory')) :
    Effect.Yields (do
        let value ← factorEntry (RealArithmetic.exact sqrt) covariance lowerFactor row column
        Effect.ofResult (failIf (¬ (RealArithmetic.exact sqrt).isFinite value)
          { code := .numerical, message := "Multivariate normal factorization is nonfinite" })
        Effect.store type (matrixAt lowerFactor row column) value) memory'
      (fun _ memory'' => h.family.Untouched memory memory'' ∧
        Factors row (entry covariance memory) (entry lowerFactor memory'') ∧
        RowPart row (column + 1) (entry covariance memory) (entry lowerFactor memory''))
      (fun status memory'' => h.family.Untouched memory memory'' ∧ status.code = .numerical ∧
        ¬ PositiveDefinite dimension (entry covariance memory)) := by
  have hentry : entry covariance memory' row column = entry covariance memory row column :=
    h.covariance_entry huntouched hrow (by omega)
  refine ((yields_factorEntry hsqrt (by omega) hentry hfactors).mono (fun _ _ h => h) ?_).bind ?_
  · -- The only check that fails is that of the diagonal entry, behind all others of the row.
    rintro status _ ⟨rfl, hcode, rfl, hpivot⟩
    exact ⟨huntouched, hcode, fun hpositive => hpivot (hfactors.pivot_pos hpart hpositive hrow)⟩
  · rintro value middle ⟨rfl, hdiagonal, hbelow⟩
    apply Effect.Yields.failIf
    · intro hinfinite
      exact absurd rfl hinfinite
    intro _
    apply Effect.Yields.store
    -- From here only what the store did to the triangle matters.
    generalize hlast : type.store middle (matrixAt lowerFactor row column) value = memory''
    have hsame : ∀ row' ≤ row, ∀ column' ≤ row', (row', column') ≠ (row, column) →
        entry lowerFactor memory'' row' column' = entry lowerFactor middle row' column' := by
      intro row' hrow' column' hcolumn' hne
      rw [← hlast, h.entry_store hrow (by omega) (by omega) (by omega), if_neg hne]
    have hnew : entry lowerFactor memory'' row column = value := by
      rw [← hlast, h.entry_store hrow (by omega) hrow (by omega), if_pos rfl]
    refine ⟨?_, hfactors.congr ?_, hpart.succ (by omega) hsame ?_ ?_⟩
    · rw [← hlast]
      exact huntouched.trans (h.untouched_store hrow (by omega) value)
    · intro row' hrow' column' hcolumn'
      exact hsame row' (by omega) column' hcolumn' (by simp; omega)
    · rintro rfl
      rw [hnew]
      exact (hdiagonal rfl).1
    -- The equation for this entry: a square on the diagonal, a quotient below it.
    · rw [hnew]
      by_cases heq : row = column
      · rw [← (hdiagonal heq).2]
        rw [← heq] at hnew ⊢
        rw [hnew]
      · rw [← hbelow heq, hsame column (by omega) column le_rfl (by simp; omega)]

/-- The invariant of the outer loop is that the rows so far are finished. -/
theorem yields_factorize (h : FactorViews mean covariance lowerFactor dimension)
    (hsqrt : ∀ x : K, 0 < x → 0 < sqrt x ∧ sqrt x * sqrt x = x) :
    Effect.Yields (factorize (RealArithmetic.exact sqrt) covariance lowerFactor dimension) memory
      (fun _ memory' => h.family.Untouched memory memory' ∧
        Factors dimension (entry covariance memory) (entry lowerFactor memory'))
      (fun status memory' => h.family.Untouched memory memory' ∧ status.code = .numerical ∧
        ¬ PositiveDefinite dimension (entry covariance memory)) := by
  unfold factorize
  -- Outer invariant: the rows finished so far satisfy their equations.
  refine Effect.Yields.forM_range (fun row memory' => h.family.Untouched memory memory' ∧
    Factors row (entry covariance memory) (entry lowerFactor memory')) ?_ ?_
  · rintro row hrow memory' ⟨huntouched, hfactors⟩
    -- Inner invariant: so does the part of this row to the left of the column.
    refine (Effect.Yields.forM_range (fun column memory'' => h.family.Untouched memory memory'' ∧
      Factors row (entry covariance memory) (entry lowerFactor memory'') ∧
        RowPart row column (entry covariance memory) (entry lowerFactor memory'')) ?_ ?_).mono ?_
        fun _ _ h => h
    · rintro column hcolumn memory'' ⟨huntouched', hfactors', hpart⟩
      exact yields_factorRound h hsqrt hrow hcolumn huntouched' hfactors' hpart
    · exact ⟨huntouched, hfactors, fun hlt => absurd hlt (Nat.not_lt_zero row),
        fun column hcolumn => absurd hcolumn (Nat.not_lt_zero column)⟩
    · rintro _ memory'' ⟨huntouched', hfactors', hpart⟩
      exact ⟨huntouched', hfactors'.succ hpart⟩
  · exact ⟨.refl memory, fun row hrow => absurd hrow (Nat.not_lt_zero row),
      fun row hrow => absurd hrow (Nat.not_lt_zero row)⟩

/-- The rows before one are cleared above the diagonal, and of this one the columns before
another. -/
def FactorViews.Cleared (h : FactorViews mean covariance lowerFactor dimension)
    (memory : Nat → Cell) (rows columns : Nat) (memory' : Nat → Cell) : Prop :=
  h.family.Untouched memory memory' ∧
    (∀ row < dimension, ∀ column ≤ row,
      entry lowerFactor memory' row column = entry lowerFactor memory row column) ∧
    ∀ row < dimension, ∀ column < dimension, row < column →
      (row < rows ∨ (row = rows ∧ column < columns)) → entry lowerFactor memory' row column = 0

/-- Above the diagonal everything becomes zero, in the order of the rows. -/
theorem yields_clearUpper (h : FactorViews mean covariance lowerFactor dimension)
    (fails : Status → (Nat → Cell) → Prop) :
    Effect.Yields (clearUpper (RealArithmetic.exact sqrt) lowerFactor dimension) memory
      (fun _ memory' => h.family.Untouched memory memory' ∧
        (∀ row < dimension, ∀ column ≤ row,
          entry lowerFactor memory' row column = entry lowerFactor memory row column) ∧
        ∀ row < dimension, ∀ column < dimension, row < column →
          entry lowerFactor memory' row column = 0) fails := by
  unfold clearUpper
  -- `Cleared` carries both loops: it says how far the triangle above the diagonal is zero.
  refine (Effect.Yields.forM_range (fun row => h.Cleared memory row 0) ?_ ?_).mono ?_
    fun _ _ h => h
  · intro row hrow memory' hrows
    refine (Effect.Yields.forM_range (fun step => h.Cleared memory row (row + 1 + step)) ?_ ?_).mono
      ?_ fun _ _ h => h
    · rintro step hstep memory'' ⟨huntouched, hlower, hcleared⟩
      have hcolumn : row + 1 + step < dimension := by omega
      apply Effect.Yields.store
      refine ⟨huntouched.trans (h.untouched_store hrow hcolumn _), ?_, ?_⟩
      · intro row' hrow' column' hcolumn'
        rw [h.entry_store hrow hcolumn hrow' (by omega), if_neg (by simp; omega)]
        exact hlower row' hrow' column' hcolumn'
      -- An entry above the diagonal is the one just stored, or was cleared before.
      · intro row' hrow' column' hcolumn' hupper hdone
        rw [h.entry_store hrow hcolumn hrow' hcolumn']
        by_cases hplace : (row', column') = (row, row + 1 + step)
        · rw [if_pos hplace]
          rfl
        · rw [if_neg hplace]
          rw [Prod.mk.injEq] at hplace
          exact hcleared row' hrow' column' hcolumn' hupper (by omega)
    · rcases hrows with ⟨huntouched, hlower, hcleared⟩
      exact ⟨huntouched, hlower, fun row' hrow' column' hcolumn' hupper hdone =>
        hcleared row' hrow' column' hcolumn' hupper (by omega)⟩
    · rintro _ memory'' ⟨huntouched, hlower, hcleared⟩
      exact ⟨huntouched, hlower, fun row' hrow' column' hcolumn' hupper hdone =>
        hcleared row' hrow' column' hcolumn' hupper (by omega)⟩
  · exact ⟨.refl memory, fun _ _ _ _ => rfl, fun row _ column _ _ hdone => by omega⟩
  · rintro _ memory' ⟨huntouched, hlower, hcleared⟩
    exact ⟨huntouched, hlower, fun row hrow column hcolumn hupper =>
      hcleared row hrow column hcolumn hupper (Or.inl hrow)⟩

end Steps

/-! ## The result -/

section Results

variable [Field K] [LinearOrder K] [IsStrictOrderedRing K] {sqrt : K → K} {mean : DenseView type 1}
  {covariance lowerFactor : DenseView type 2} {dimension : Nat} {context : ExecutionContext}

/-- A run has an outcome.  It is a value exactly for a positive definite covariance, which then has
the factor that is stored; a covariance without symmetry leaves the storage alone. -/
theorem yields_prepare (h : FactorViews mean covariance lowerFactor dimension)
    (hserial : context.backend = .serial)
    (hhost : mean.memorySpace = .host ∧ covariance.memorySpace = .host ∧
      lowerFactor.memorySpace = .host)
    (hoverlap : denseViewsOverlap lowerFactor mean = false ∧
      denseViewsOverlap lowerFactor covariance = false)
    (hsqrt : ∀ x : K, 0 < x → 0 < sqrt x ∧ sqrt x * sqrt x = x) (memory : Nat → Cell) :
    Effect.Yields (prepareDenseMultivariateNormal (RealArithmetic.exact sqrt) mean covariance
        lowerFactor context) memory
      (fun _ memory' => h.family.Untouched memory memory' ∧
        PositiveDefinite dimension (entry covariance memory) ∧
        Factors dimension (entry covariance memory) (entry lowerFactor memory') ∧
        ∀ row < dimension, ∀ column < dimension, row < column →
          entry lowerFactor memory' row column = 0)
      (fun status memory' => h.family.Untouched memory memory' ∧
        ¬ PositiveDefinite dimension (entry covariance memory) ∧
        (SymmetricEntries dimension (entry covariance memory) ∧ status.code = .numerical ∨
          ¬ SymmetricEntries dimension (entry covariance memory) ∧ memory' = memory ∧
            status.code = .invalidArgument)) := by
  have hcount : (mean.mapping.extents.get 0).toNat = dimension := by
    rw [h.mean_extent, Int.toNat_natCast]
  -- The checks of the shapes and of the overlap pass by the hypotheses on the views.
  apply Effect.Yields.ofResult_ok (validateSerialHost_ok_iff.2 ⟨hserial, hhost.2.2⟩)
  apply Effect.Yields.ofResult_ok (validateSerialHost_ok_iff.2 ⟨hserial, hhost.1⟩)
  apply Effect.Yields.ofResult_ok (validateSerialHost_ok_iff.2 ⟨hserial, hhost.2.1⟩)
  apply Effect.Yields.failIf
  · intro hshape
    have hmean := h.mean_extent
    have hcovariance := h.covariance_rows
    have hcovariance' := h.covariance_columns
    have hfactor := h.factor_rows
    have hfactor' := h.factor_columns
    omega
  intro _
  apply Effect.Yields.failIf
  · intro hoverlaps
    rw [hoverlap.1, hoverlap.2] at hoverlaps
    simp at hoverlaps
  intro _
  rw [hcount]
  -- An asymmetric covariance is refused before anything is written.
  refine Effect.Yields.bind ((yields_validateMoments dimension).mono (fun _ _ h => h) ?_) ?_
  · rintro status _ ⟨rfl, hcode, hasymmetric⟩
    exact ⟨.refl _, fun hpositive => hasymmetric hpositive.symmetric,
      Or.inr ⟨hasymmetric, rfl, hcode⟩⟩
  rintro _ middle ⟨rfl, hsymmetric⟩
  -- A pivot that is not positive is found while the factor is being written.
  refine Effect.Yields.bind ((yields_factorize h hsqrt).mono (fun _ _ h => h) ?_) ?_
  · rintro status memory' ⟨huntouched, hcode, hindefinite⟩
    exact ⟨huntouched, hindefinite, Or.inl ⟨hsymmetric, hcode⟩⟩
  rintro _ memory' ⟨huntouched, hfactors⟩
  refine (yields_clearUpper h _).mono ?_ fun _ _ h => h
  rintro _ memory'' ⟨huntouched', hlower, hupper⟩
  refine ⟨huntouched.trans huntouched', hfactors.positiveDefinite hsymmetric, hfactors.congr ?_,
    hupper⟩
  exact fun row hrow column hcolumn => hlower row hrow column hcolumn

end Results

/-- Over the real numbers a run has an outcome, so that no quotient by zero and no root of what is
not positive has been asked for.  It succeeds exactly for a positive definite covariance and then
leaves its triangular factor; a covariance without symmetry is turned down before the first store. -/
theorem prepareDenseMultivariateNormal_correct {type : Representation Cell ℝ} {dimension : Nat}
    (context : ExecutionContext) (mean : DenseView type 1) (covariance lowerFactor : DenseView type 2)
    (memory : Nat → Cell) (hserial : context.backend = .serial)
    (hhost : mean.memorySpace = .host ∧ covariance.memorySpace = .host ∧
      lowerFactor.memorySpace = .host)
    (hmean : mean.mapping.extents.get 0 = dimension)
    (hcovariance : covariance.mapping.extents.get 0 = dimension ∧
      covariance.mapping.extents.get 1 = dimension)
    (hrows : lowerFactor.mapping.extents.get 0 = dimension)
    (hcolumns : lowerFactor.mapping.extents.get 1 = dimension)
    (hoverlap : denseViewsOverlap lowerFactor mean = false ∧
      denseViewsOverlap lowerFactor covariance = false) :
    ∃ result memory', Effect.exec (prepareDenseMultivariateNormal (RealArithmetic.exact Real.sqrt)
        mean covariance lowerFactor context) memory = some (result, memory') ∧
      (result = .ok () ↔ (toMatrix dimension (entry covariance memory)).PosDef) ∧
      (result = .ok () →
        (∀ row column : Fin dimension, row < column →
          toMatrix dimension (entry lowerFactor memory') row column = 0) ∧
        (∀ row, 0 < toMatrix dimension (entry lowerFactor memory') row row) ∧
        toMatrix dimension (entry lowerFactor memory') *
          (toMatrix dimension (entry lowerFactor memory')).transpose =
            toMatrix dimension (entry covariance memory)) ∧
      (¬ (toMatrix dimension (entry covariance memory)).IsSymm → memory' = memory ∧
        ∃ status, result = .error status ∧ status.code = .invalidArgument) ∧
      (matrixFamily lowerFactor hrows hcolumns).Untouched memory memory' := by
  have hviews : FactorViews mean covariance lowerFactor dimension :=
    ⟨hmean, hcovariance.1, hcovariance.2, hrows, hcolumns, overlap_eq_false hoverlap.2⟩
  -- The two facts about the square root that the factorization rests on.
  have hsqrt : ∀ x : ℝ, 0 < x → 0 < Real.sqrt x ∧ Real.sqrt x * Real.sqrt x = x :=
    fun x hx => ⟨Real.sqrt_pos.2 hx, Real.mul_self_sqrt hx.le⟩
  have hsymm : (toMatrix dimension (entry covariance memory)).IsSymm ↔
      SymmetricEntries dimension (entry covariance memory) := by
    rw [Matrix.IsSymm.ext_iff]
    constructor
    · intro hsymmetric row hrow column hcolumn
      exact hsymmetric ⟨column, hcolumn⟩ ⟨row, hrow⟩
    · intro hsymmetric row column
      exact hsymmetric column column.isLt row row.isLt
  rcases yields_prepare hviews hserial hhost hoverlap hsqrt memory with
    ⟨result, memory', hrun, hresult⟩
  refine ⟨result, memory', hrun, ?_⟩
  rw [← positiveDefinite_iff_posDef, hsymm]
  -- Success and failure exclude each other, so each side decides the equivalence.
  cases result with
  | ok =>
    rcases hresult with ⟨huntouched, hpositive, hfactors, hupper⟩
    refine ⟨⟨fun _ => hpositive, fun _ => rfl⟩, fun _ => ⟨?_, ?_, ?_⟩,
      fun hasymmetric => absurd hpositive.symmetric hasymmetric, huntouched⟩
    · intro row column hlt
      exact hupper row row.isLt column column.isLt hlt
    · exact fun row => hfactors.diagonal row row.isLt
    · exact hfactors.mul_transpose hpositive.symmetric hupper
  | error status =>
    rcases hresult with ⟨huntouched, hindefinite, hreason⟩
    refine ⟨⟨fun h => (by cases h), fun hpositive => absurd hpositive hindefinite⟩,
      fun h => (by cases h), fun hasymmetric => ?_, huntouched⟩
    rcases hreason with ⟨hsymmetric, -⟩ | ⟨-, hsame, hcode⟩
    · exact absurd hsymmetric hasymmetric
    · exact ⟨hsame, status, rfl, hcode⟩

/-- The rows four, two and two, two of a covariance from the cell 24 on. -/
noncomputable def covarianceMemory (cell : Nat) : ℝ :=
  if cell = 24 then 4 else 2

theorem covarianceMemory_posDef :
    (toMatrix 2 (entry (numberMatrix ℝ 24 (by decide)) covarianceMemory)).PosDef := by
  have hfirst : entry (numberMatrix ℝ 24 (by decide)) covarianceMemory 0 0 = 4 :=
    (if_pos rfl : covarianceMemory 24 = 4)
  have hright : entry (numberMatrix ℝ 24 (by decide)) covarianceMemory 0 1 = 2 :=
    (if_neg (by decide) : covarianceMemory 32 = 2)
  have hleft : entry (numberMatrix ℝ 24 (by decide)) covarianceMemory 1 0 = 2 :=
    (if_neg (by decide) : covarianceMemory 40 = 2)
  have hlast : entry (numberMatrix ℝ 24 (by decide)) covarianceMemory 1 1 = 2 :=
    (if_neg (by decide) : covarianceMemory 48 = 2)
  refine positiveDefinite_iff_posDef.1 ⟨fun row hrow column hcolumn => ?_, fun vector hvector => ?_⟩
  · interval_cases row <;> interval_cases column <;> simp only [hright, hleft]
  · -- The form is a sum of two squares, the second of which is zero only with the second entry.
    have hform : quadraticForm 2 (entry (numberMatrix ℝ 24 (by decide)) covarianceMemory) vector =
        (2 * vector 0 + vector 1) ^ 2 + vector 1 ^ 2 := by
      simp only [quadraticForm, Finset.sum_range_succ, Finset.sum_range_zero, hfirst, hright, hleft,
        hlast]
      ring
    rw [hform]
    by_cases hsecond : vector 1 = 0
    · have hzero : vector 0 ≠ 0 := by
        rcases hvector with ⟨row, hrow, hne⟩
        interval_cases row
        · exact hne
        · exact absurd hsecond hne
      rw [hsecond, add_zero]
      positivity
    · positivity

theorem prepareDenseMultivariateNormal_sample :
    ∃ memory', Effect.exec (prepareDenseMultivariateNormal (RealArithmetic.exact Real.sqrt)
        (numberVector ℝ 8 (by decide)) (numberMatrix ℝ 24 (by decide))
        (numberMatrix ℝ 56 (by decide)) .serial) covarianceMemory = some (.ok (), memory') ∧
      (∀ row, 0 < toMatrix 2 (entry (numberMatrix ℝ 56 (by decide)) memory') row row) ∧
      toMatrix 2 (entry (numberMatrix ℝ 56 (by decide)) memory') *
          (toMatrix 2 (entry (numberMatrix ℝ 56 (by decide)) memory')).transpose =
        toMatrix 2 (entry (numberMatrix ℝ 24 (by decide)) covarianceMemory) := by
  rcases @prepareDenseMultivariateNormal_correct _ _ 2 .serial (numberVector ℝ 8 (by decide))
    (numberMatrix ℝ 24 (by decide)) (numberMatrix ℝ 56 (by decide)) covarianceMemory rfl
    ⟨rfl, rfl, rfl⟩ rfl ⟨rfl, rfl⟩ rfl rfl ⟨by decide, by decide⟩ with
    ⟨result, memory', hrun, haccepts, hfactor, -⟩
  have hresult := haccepts.2 covarianceMemory_posDef
  rw [hresult] at hrun
  exact ⟨memory', hrun, (hfactor hresult).2⟩

end Random
end AscCpp
