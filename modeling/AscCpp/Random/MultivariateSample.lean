import AscCpp.Core.Outcome
import AscCpp.Random.MultivariateNormal

/-!
# MultivariateSample — drawing normal vectors in exact arithmetic

A sample is multiplied with the factor where it was drawn: every row reads its own component and
those before it, and the rows are replaced from the last one on.

- `yields_transformSample`, `yields_publishPoint`: one sample, in the workspace and in its row.
- `fillDenseMultivariateNormal_correct`: one sample, and a whole run.
-/

namespace AscCpp
namespace Random

open AscCpp.Core Library AscCpp.Dense

variable {Cell V G : Type} {type : Representation Cell V}

/-- Views of one dimension, where what is written shares no byte with what is read. -/
structure SampleViews (destination : DenseView type 2) (mean : DenseView type 1)
    (lowerFactor : DenseView type 2) (sampleWorkspace : DenseView type 1)
    (samples dimension : Nat) : Prop where
  destination_rows : destination.mapping.extents.get 0 = samples
  destination_columns : destination.mapping.extents.get 1 = dimension
  mean_extent : mean.mapping.extents.get 0 = dimension
  factor_rows : lowerFactor.mapping.extents.get 0 = dimension
  factor_columns : lowerFactor.mapping.extents.get 1 = dimension
  workspace_extent : sampleWorkspace.mapping.extents.get 0 = dimension
  destination_mean : destination.valueSpan.Disjoint mean.valueSpan
  destination_factor : destination.valueSpan.Disjoint lowerFactor.valueSpan
  destination_workspace : destination.valueSpan.Disjoint sampleWorkspace.valueSpan
  workspace_mean : sampleWorkspace.valueSpan.Disjoint mean.valueSpan
  workspace_factor : sampleWorkspace.valueSpan.Disjoint lowerFactor.valueSpan

namespace SampleViews

variable {destination lowerFactor : DenseView type 2} {mean sampleWorkspace : DenseView type 1}
  {samples dimension : Nat} {memory memory' : Nat → Cell}

/-- The elements of the workspace. -/
def workspace (h : SampleViews destination mean lowerFactor sampleWorkspace samples dimension) :
    ElementFamily type (Fin dimension) :=
  vectorFamily sampleWorkspace h.workspace_extent

/-- The elements of a row of the destination. -/
def row (h : SampleViews destination mean lowerFactor sampleWorkspace samples dimension)
    (sample : Fin samples) : ElementFamily type (Fin dimension) :=
  (matrixFamily destination h.destination_rows h.destination_columns).line sample

theorem row_inside (h : SampleViews destination mean lowerFactor sampleWorkspace samples dimension)
    (sample : Fin samples) : Inside (h.row sample) destination :=
  fun column => matrixFamily_inside h.destination_rows h.destination_columns (sample, column)

theorem workspace_inside
    (h : SampleViews destination mean lowerFactor sampleWorkspace samples dimension) :
    Inside h.workspace sampleWorkspace :=
  vectorFamily_inside h.workspace_extent

/-- Another row keeps its entries. -/
theorem other_row (h : SampleViews destination mean lowerFactor sampleWorkspace samples dimension)
    {sample other : Fin samples} (hne : other ≠ sample)
    (huntouched : (h.row sample).Untouched memory memory') {column : Nat}
    (hcolumn : column < dimension) :
    entry destination memory' other column = entry destination memory other column := by
  apply huntouched.load_eq
  intro item
  exact (matrixFamily destination h.destination_rows h.destination_columns).apart
    (other, ⟨column, hcolumn⟩) (sample, item) fun heq => hne (Prod.mk.inj heq).1

/-- What the mean and the factor hold is as before, and so is everything outside the workspace and
the destination. -/
structure Keeps (h : SampleViews destination mean lowerFactor sampleWorkspace samples dimension)
    (memory memory' : Nat → Cell) : Prop where
  mean : ∀ index < dimension, component mean memory' index = component mean memory index
  factor : ∀ row < dimension, ∀ column < dimension,
    entry lowerFactor memory' row column = entry lowerFactor memory row column
  outside : ∀ cell, h.workspace.Outside cell →
    (matrixFamily destination h.destination_rows h.destination_columns).Outside cell →
      memory' cell = memory cell

theorem Keeps.refl (h : SampleViews destination mean lowerFactor sampleWorkspace samples dimension)
    (memory : Nat → Cell) : h.Keeps memory memory :=
  ⟨fun _ _ => rfl, fun _ _ _ _ => rfl, fun _ _ _ => rfl⟩

theorem Keeps.trans
    {h : SampleViews destination mean lowerFactor sampleWorkspace samples dimension}
    {memory'' : Nat → Cell} (hfirst : h.Keeps memory memory') (hsecond : h.Keeps memory' memory'') :
    h.Keeps memory memory'' := by
  refine ⟨fun index hindex => ?_, fun row hrow column hcolumn => ?_, fun cell hcell hcell' => ?_⟩
  · exact (hsecond.mean index hindex).trans (hfirst.mean index hindex)
  · exact (hsecond.factor row hrow column hcolumn).trans (hfirst.factor row hrow column hcolumn)
  · exact (hsecond.outside cell hcell hcell').trans (hfirst.outside cell hcell hcell')

theorem keeps_of_inside {ι : Type} {rank : Nat} {family : ElementFamily type ι}
    {view : DenseView type rank}
    (h : SampleViews destination mean lowerFactor sampleWorkspace samples dimension)
    (hinside : Inside family view) (hmean : view.valueSpan.Disjoint mean.valueSpan)
    (hfactor : view.valueSpan.Disjoint lowerFactor.valueSpan)
    (houtside : ∀ cell, h.workspace.Outside cell →
      (matrixFamily destination h.destination_rows h.destination_columns).Outside cell →
        family.Outside cell)
    (huntouched : family.Untouched memory memory') : h.Keeps memory memory' := by
  -- The mean, the factor and all other cells lie outside the family that was written.
  refine ⟨fun index hindex => ?_, fun row hrow column hcolumn => ?_, fun cell hcell hcell' => ?_⟩
  · have hextent := h.mean_extent
    exact component_of_untouched hinside hmean huntouched (by omega)
  · have hrows := h.factor_rows
    have hcolumns := h.factor_columns
    exact entry_of_untouched hinside hfactor huntouched (by omega) (by omega)
  · exact huntouched cell (houtside cell hcell hcell')

theorem keeps_of_workspace
    (h : SampleViews destination mean lowerFactor sampleWorkspace samples dimension)
    (huntouched : h.workspace.Untouched memory memory') : h.Keeps memory memory' :=
  h.keeps_of_inside h.workspace_inside h.workspace_mean h.workspace_factor (fun _ hcell _ => hcell)
    huntouched

theorem keeps_of_row (h : SampleViews destination mean lowerFactor sampleWorkspace samples dimension)
    {sample : Fin samples} (huntouched : (h.row sample).Untouched memory memory') :
    h.Keeps memory memory' :=
  h.keeps_of_inside (h.row_inside sample) h.destination_mean h.destination_factor
    (fun _ _ hcell item => hcell (sample, item)) huntouched

end SampleViews

/-! ## One sample -/

section Sample

variable [Field V] [LinearOrder V] {sqrt : V → V} {destination lowerFactor : DenseView type 2}
  {mean sampleWorkspace : DenseView type 1} {samples dimension : Nat} {memory : Nat → Cell}

theorem yields_rowProduct (start : V) (row count : Nat) (fails : Status → (Nat → Cell) → Prop) :
    Effect.Yields ((List.range count).foldlM (fun value column => do
        let factor ← Effect.load type (matrixAt lowerFactor row column)
        let drawn ← Effect.load type (vectorAt sampleWorkspace column)
        pure ((RealArithmetic.exact sqrt).fma factor drawn value)) start) memory
      (fun value memory' => memory' = memory ∧ value = start + ∑ column ∈ Finset.range count,
        entry lowerFactor memory row column * component sampleWorkspace memory column) fails := by
  -- The invariant is the partial sum: over the reals the fused step adds one exact product.
  refine Effect.Yields.foldlM_range (fun columns value memory' => memory' = memory ∧
    value = start + ∑ column ∈ Finset.range columns,
      entry lowerFactor memory row column * component sampleWorkspace memory column) ?_ ?_
  · rintro column hcolumn value memory' ⟨hsame, hvalue⟩
    rw [hsame]
    apply Effect.Yields.load
    apply Effect.Yields.load
    apply Effect.Yields.pure
    refine ⟨rfl, ?_⟩
    have hround : (RealArithmetic.exact sqrt).fma (entry lowerFactor memory row column)
        (component sampleWorkspace memory column) value =
          entry lowerFactor memory row column * component sampleWorkspace memory column + value := rfl
    refine hround.trans ?_
    rw [hvalue, Finset.sum_range_succ]
    ring
  · exact ⟨rfl, by rw [Finset.sum_range_zero, add_zero]⟩

/-- The rows from the last one on are replaced; those before still hold what was drawn. -/
theorem yields_transformSample
    (h : SampleViews destination mean lowerFactor sampleWorkspace samples dimension) :
    Effect.Yields (transformSample (RealArithmetic.exact sqrt) mean lowerFactor sampleWorkspace
        dimension) memory
      (fun _ memory' => h.workspace.Untouched memory memory' ∧
        ∀ row < dimension, component sampleWorkspace memory' row = component mean memory row +
          ∑ column ∈ Finset.range (row + 1),
            entry lowerFactor memory row column * component sampleWorkspace memory column)
      fun _ _ => False := by
  unfold transformSample
  refine (Effect.Yields.forM_range (fun steps memory' => h.workspace.Untouched memory memory' ∧
    ∀ row < dimension, component sampleWorkspace memory' row =
      if dimension - steps ≤ row then component mean memory row +
        ∑ column ∈ Finset.range (row + 1),
          entry lowerFactor memory row column * component sampleWorkspace memory column
      else component sampleWorkspace memory row) ?_ ?_).mono ?_ fun _ _ h => h
  · rintro step hstep memory' ⟨huntouched, hrows⟩
    generalize hrow : dimension - step - 1 = row
    have hkeeps := h.keeps_of_workspace huntouched
    -- Up to this row nothing has been replaced.
    have hold : ∀ column < row + 1,
        component sampleWorkspace memory' column = component sampleWorkspace memory column := by
      intro column hcolumn
      rw [hrows column (by omega), if_neg (by omega)]
    apply Effect.Yields.load
    apply (yields_rowProduct _ row (row + 1) _).bind
    rintro value memory'' ⟨hsame, hvalue⟩
    rw [hsame]
    apply Effect.Yields.failIf
    · intro hinfinite
      exact absurd rfl hinfinite
    intro _
    apply Effect.Yields.store
    have hnew : value = component mean memory row + ∑ column ∈ Finset.range (row + 1),
        entry lowerFactor memory row column * component sampleWorkspace memory column := by
      have hmean : type.load memory' (vectorAt mean row) = component mean memory row :=
        hkeeps.mean row (by omega)
      rw [hvalue, hmean]
      congr 1
      apply Finset.sum_congr rfl
      intro column hcolumn
      rw [Finset.mem_range] at hcolumn
      rw [hold column hcolumn, hkeeps.factor row (by omega) column (by omega)]
    refine ⟨huntouched.trans (@ElementFamily.untouched_store _ _ _ _ h.workspace memory'
      ⟨row, by omega⟩ value), fun row' hrow' => ?_⟩
    rw [component_store h.workspace_extent (by omega) hrow']
    by_cases heq : row' = row
    · rw [if_pos heq, if_pos (by omega), heq]
      exact hnew
    · rw [if_neg heq, hrows row' hrow']
      exact if_congr (by omega) rfl rfl
  · exact ⟨.refl memory, fun row hrow => (if_neg (by omega)).symm⟩
  · rintro _ memory' ⟨huntouched, hrows⟩
    refine ⟨huntouched, fun row hrow => ?_⟩
    rw [hrows row hrow, if_pos (by omega)]

omit [Field V] [LinearOrder V] in
theorem yields_publishPoint
    (h : SampleViews destination mean lowerFactor sampleWorkspace samples dimension)
    (sample : Fin samples) (fails : Status → (Nat → Cell) → Prop) :
    Effect.Yields (publishPoint destination sample sampleWorkspace) memory
      (fun _ memory' => (h.row sample).Untouched memory memory' ∧
        ∀ column < dimension,
          entry destination memory' sample column = component sampleWorkspace memory column)
      fails := by
  have hcount : (destination.mapping.extents.get 1).toNat = dimension := by
    rw [h.destination_columns, Int.toNat_natCast]
  unfold publishPoint
  rw [hcount]
  -- The columns copied so far agree with the workspace, which the stores do not reach.
  refine Effect.Yields.forM_range (fun columns memory' => (h.row sample).Untouched memory memory' ∧
    ∀ column < columns,
      entry destination memory' sample column = component sampleWorkspace memory column) ?_ ?_
  · rintro column hcolumn memory' ⟨huntouched, hcolumns⟩
    have hextent := h.workspace_extent
    have hworkspace : type.load memory' (vectorAt sampleWorkspace column) =
        component sampleWorkspace memory column :=
      component_of_untouched (h.row_inside sample) h.destination_workspace huntouched (by omega)
    apply Effect.Yields.load
    apply Effect.Yields.store
    rw [hworkspace]
    refine ⟨huntouched.trans (@ElementFamily.untouched_store _ _ _ _ (h.row sample) memory'
      ⟨column, hcolumn⟩ _), fun column' hcolumn' => ?_⟩
    rw [entry_store h.destination_rows h.destination_columns sample.isLt hcolumn sample.isLt
      (by omega)]
    by_cases heq : column' = column
    · rw [if_pos (by rw [heq]), heq]
    · rw [if_neg (by simpa using heq), hcolumns column' (by omega)]
  · exact ⟨.refl memory, fun column hcolumn => absurd hcolumn (Nat.not_lt_zero column)⟩

/-- The mean plus the product of the factor with a vector. -/
def transformed (mean : Nat → V) (factor : Nat → Nat → V) (dimension : Nat) (drawn : Nat → V)
    (row : Nat) : V :=
  mean row + ∑ column ∈ Finset.range dimension, factor row column * drawn column

/-- Nothing above the diagonal, and positive numbers on it. -/
structure LowerTriangular (dimension : Nat) (factor : Nat → Nat → V) : Prop where
  upper : ∀ row < dimension, ∀ column < dimension, row < column → factor row column = 0
  diagonal : ∀ row < dimension, 0 < factor row row

omit [LinearOrder V] in
theorem transformed_eq {factor : Nat → Nat → V}
    (hupper : ∀ row < dimension, ∀ column < dimension, row < column → factor row column = 0)
    (mean drawn : Nat → V) {row : Nat} (hrow : row < dimension) :
    transformed mean factor dimension drawn row =
      mean row + ∑ column ∈ Finset.range (row + 1), factor row column * drawn column := by
  unfold transformed
  congr 1
  refine (Finset.sum_subset (Finset.range_subset_range.2 hrow) fun column hcolumn hbehind => ?_).symm
  rw [Finset.mem_range] at hcolumn hbehind
  rw [hupper row hrow column hcolumn (by omega), zero_mul]

/-- One sample, in the workspace and in its row. -/
theorem yields_sample
    (h : SampleViews destination mean lowerFactor sampleWorkspace samples dimension)
    (hupper : ∀ row < dimension, ∀ column < dimension, row < column →
      entry lowerFactor memory row column = 0) (sample : Fin samples) :
    Effect.Yields (do
        transformSample (RealArithmetic.exact sqrt) mean lowerFactor sampleWorkspace dimension
        publishPoint destination sample sampleWorkspace) memory
      (fun _ memory' => h.Keeps memory memory' ∧
        (∀ row < dimension, component sampleWorkspace memory' row =
          transformed (component mean memory) (entry lowerFactor memory) dimension
            (component sampleWorkspace memory) row) ∧
        (∀ column < dimension, entry destination memory' sample column =
          transformed (component mean memory) (entry lowerFactor memory) dimension
            (component sampleWorkspace memory) column) ∧
        (∀ other, other ≠ sample → ∀ column < dimension,
          entry destination memory' other column = entry destination memory other column) ∧
        ∀ cell, h.workspace.Outside cell → (h.row sample).Outside cell →
          memory' cell = memory cell)
      fun _ _ => False := by
  apply (yields_transformSample h).bind
  rintro _ middle ⟨huntouched, hrows⟩
  refine (yields_publishPoint h sample _).mono ?_ fun _ _ h => h
  -- The transform overwrote the workspace; it is the new content that is published.
  rintro _ memory' ⟨huntouched', hcolumns⟩
  have hproduct : ∀ row < dimension, component sampleWorkspace middle row =
      transformed (component mean memory) (entry lowerFactor memory) dimension
        (component sampleWorkspace memory) row := by
    intro row hrow
    rw [hrows row hrow, transformed_eq hupper _ _ hrow]
  refine ⟨(h.keeps_of_workspace huntouched).trans (h.keeps_of_row huntouched'), ?_, ?_, ?_, ?_⟩
  · intro row hrow
    have hextent := h.workspace_extent
    rw [← hproduct row hrow]
    exact component_of_untouched (h.row_inside sample) h.destination_workspace huntouched' (by omega)
  · intro column hcolumn
    rw [hcolumns column hcolumn, hproduct column hcolumn]
  -- Another row is left alone by the transform and by the publication.
  · intro other hne column hcolumn
    have hdestination := h.destination_rows
    have hdestination' := h.destination_columns
    rw [h.other_row hne huntouched' hcolumn]
    exact entry_of_untouched h.workspace_inside h.destination_workspace.symm huntouched (by omega)
      (by omega)
  · intro cell hcell hcell'
    exact (huntouched' cell hcell').trans (huntouched cell hcell)

end Sample

/-! ## Draws -/

/-- The generator after a number of draws. -/
def NormalGenerator.after (generate : NormalGenerator V G → Result V × G)
    (generator : NormalGenerator V G) : Nat → NormalGenerator V G
  | 0 => generator
  | count + 1 =>
    { generator.after generate count with state := (generate (generator.after generate count)).2 }

/-- The draw with a number. -/
def NormalGenerator.drawn (generate : NormalGenerator V G → Result V × G)
    (generator : NormalGenerator V G) (number : Nat) : Result V :=
  (generate (generator.after generate number)).1

section Run

variable [Field V] [LinearOrder V] {sqrt : V → V} {destination lowerFactor : DenseView type 2}
  {mean sampleWorkspace : DenseView type 1} {samples dimension : Nat} {memory : Nat → Cell}
  {generate : NormalGenerator V G → Result V × G} {generator : NormalGenerator V G}

/-- The value of a draw, if it has one. -/
def NormalGenerator.value (generate : NormalGenerator V G → Result V × G)
    (generator : NormalGenerator V G) (number : Nat) : V :=
  (generator.drawn generate number).toOption.getD 0

omit [Field V] [LinearOrder V] in
/-- The workspace takes one draw after the other, until one fails. -/
theorem yields_drawSample
    (h : SampleViews destination mean lowerFactor sampleWorkspace samples dimension) (start : Nat) :
    Effect.Yields (drawSample generate sampleWorkspace dimension (generator.after generate start))
      memory
      (fun next memory' => h.workspace.Untouched memory memory' ∧
        next = generator.after generate (start + dimension) ∧
        ∀ index < dimension, generator.drawn generate (start + index) =
          .ok (component sampleWorkspace memory' index))
      (fun status memory' => h.workspace.Untouched memory memory' ∧
        ∃ index < dimension, generator.drawn generate (start + index) = .error status) := by
  unfold drawSample
  -- The state after `count` draws and the numbers drawn so far, none of which failed.
  refine Effect.Yields.foldlM_range (fun count next memory' =>
    h.workspace.Untouched memory memory' ∧ next = generator.after generate (start + count) ∧
      ∀ index < count, generator.drawn generate (start + index) =
        .ok (component sampleWorkspace memory' index)) ?_ ?_
  · rintro index hindex next memory' ⟨huntouched, rfl, hdrawn⟩
    cases hresult : generator.drawn generate (start + index) with
    -- The first failing draw ends the run; nothing but the workspace was written.
    | error status =>
      refine ⟨.error status, memory', ?_, huntouched, index, hindex, hresult⟩
      rw [Effect.exec_ofResult_bind]
      simp only [NormalGenerator.drawn] at hresult
      rw [hresult]
    | ok value =>
      apply Effect.Yields.ofResult_ok hresult
      refine Effect.Yields.store_bind (Effect.Yields.pure ?_)
      refine ⟨huntouched.trans (@ElementFamily.untouched_store _ _ _ _ h.workspace memory'
        ⟨index, hindex⟩ value), rfl, fun index' hindex' => ?_⟩
      rw [component_store h.workspace_extent hindex (by omega)]
      by_cases heq : index' = index
      · rw [if_pos heq, heq, hresult]
      · rw [if_neg heq]
        exact hdrawn index' (by omega)
  · exact ⟨.refl memory, rfl, fun index hindex => absurd hindex (Nat.not_lt_zero index)⟩

theorem yields_validateFactor (count : Nat) :
    Effect.Yields (validateFactor (RealArithmetic.exact sqrt) mean lowerFactor count) memory
      (fun _ memory' => memory' = memory ∧ LowerTriangular count (entry lowerFactor memory))
      (fun _ memory' => memory' = memory ∧
        ¬ LowerTriangular count (entry lowerFactor memory)) := by
  -- The entries that have passed so far.
  have hpassed : ∀ row column : Nat,
      (¬ (column > row ∧ ¬ entry lowerFactor memory row column = 0) ∧
        ¬ (column = row ∧ ¬ 0 < entry lowerFactor memory row column)) →
      (row < column → entry lowerFactor memory row column = 0) ∧
        (row = column → 0 < entry lowerFactor memory row column) := by
    rintro row column ⟨hupper, hdiagonal⟩
    exact ⟨fun hlt => not_not.1 fun hne => hupper ⟨hlt, hne⟩,
      fun heq => not_not.1 fun hle => hdiagonal ⟨heq.symm, hle⟩⟩
  unfold validateFactor
  refine (Effect.Yields.forM_range (fun rows memory' => memory' = memory ∧
    ∀ row < rows, ∀ column < count,
      (row < column → entry lowerFactor memory row column = 0) ∧
        (row = column → 0 < entry lowerFactor memory row column)) ?_ ?_).mono ?_ fun _ _ h => h
  · rintro row hrow memory' ⟨hsame, hrows⟩
    rw [hsame]
    apply Effect.Yields.load
    apply Effect.Yields.failIf
    · intro hinfinite
      exact absurd rfl hinfinite
    intro _
    refine (Effect.Yields.forM_range (fun columns memory' => memory' = memory ∧
      ∀ column < columns, (row < column → entry lowerFactor memory row column = 0) ∧
        (row = column → 0 < entry lowerFactor memory row column)) ?_ ?_).mono ?_ fun _ _ h => h
    · rintro column hcolumn memory' ⟨hsame, hcolumns⟩
      rw [hsame]
      apply Effect.Yields.load
      have hread : type.load memory (matrixAt lowerFactor row column) =
          entry lowerFactor memory row column := rfl
      rw [hread]
      apply Effect.Yields.failIf_last
      · intro hfails
        refine ⟨rfl, fun htriangular => ?_⟩
        rcases hfails with hinfinite | ⟨hlt, hne⟩ | ⟨rfl, hle⟩
        · exact hinfinite rfl
        · exact hne (decide_eq_true (htriangular.upper row hrow column hcolumn hlt))
        · exact hle (decide_eq_true (htriangular.diagonal column hcolumn))
      · intro hpasses
        refine ⟨rfl, fun column' hcolumn' => ?_⟩
        rcases Nat.lt_succ_iff_lt_or_eq.1 hcolumn' with hbefore | rfl
        · exact hcolumns column' hbefore
        · rw [not_or, not_or] at hpasses
          refine hpassed row column' ⟨fun hupper => hpasses.2.1 ⟨hupper.1, fun heq => ?_⟩,
            fun hdiagonal => hpasses.2.2 ⟨hdiagonal.1, fun hless => ?_⟩⟩
          · exact hupper.2 (of_decide_eq_true heq)
          · exact hdiagonal.2 (of_decide_eq_true hless)
    · exact ⟨rfl, fun column hcolumn => absurd hcolumn (Nat.not_lt_zero column)⟩
    · rintro _ memory' ⟨hsame, hcolumns⟩
      refine ⟨hsame, fun row' hrow' column hcolumn => ?_⟩
      rcases Nat.lt_succ_iff_lt_or_eq.1 hrow' with hbefore | rfl
      · exact hrows row' hbefore column hcolumn
      · exact hcolumns column hcolumn
  · exact ⟨rfl, fun row hrow => absurd hrow (Nat.not_lt_zero row)⟩
  · rintro _ memory' ⟨hsame, hrows⟩
    exact ⟨hsame, fun row hrow column hcolumn => (hrows row hrow column hcolumn).1,
      fun row hrow => (hrows row hrow row hrow).2 rfl⟩

/-- The samples so far are what the draws so far have been transformed to. -/
structure Sampled (h : SampleViews destination mean lowerFactor sampleWorkspace samples dimension)
    (generate : NormalGenerator V G → Result V × G) (generator : NormalGenerator V G)
    (memory : Nat → Cell) (count : Nat) (next : NormalGenerator V G) (memory' : Nat → Cell) :
    Prop where
  keeps : h.Keeps memory memory'
  next_eq : next = generator.after generate (count * dimension)
  drawn : ∀ number < count * dimension,
    generator.drawn generate number = .ok (generator.value generate number)
  rows : ∀ sample < count, sample < samples → ∀ column < dimension,
    entry destination memory' sample column =
      transformed (component mean memory) (entry lowerFactor memory) dimension
        (fun index => generator.value generate (sample * dimension + index)) column

omit [LinearOrder V] in
theorem transformed_congr {mean mean' drawn drawn' : Nat → V} {factor factor' : Nat → Nat → V}
    {row : Nat} (hrow : row < dimension) (hmean : ∀ index < dimension, mean index = mean' index)
    (hfactor : ∀ row < dimension, ∀ column < dimension, factor row column = factor' row column)
    (hdrawn : ∀ index < dimension, drawn index = drawn' index) :
    transformed mean factor dimension drawn row = transformed mean' factor' dimension drawn' row := by
  unfold transformed
  rw [hmean row hrow]
  congr 1
  apply Finset.sum_congr rfl
  intro column hcolumn
  rw [Finset.mem_range] at hcolumn
  rw [hfactor row hrow column hcolumn, hdrawn column hcolumn]

omit [LinearOrder V] in
/-- A sample on top of those before it: its draws are in the workspace when it is transformed, and
the rows before it are left alone. -/
theorem Sampled.succ
    {h : SampleViews destination mean lowerFactor sampleWorkspace samples dimension}
    {sample : Fin samples} {next : NormalGenerator V G} {memory' middle memory'' : Nat → Cell}
    (hsampled : Sampled h generate generator memory sample next memory')
    (huntouched : h.workspace.Untouched memory' middle)
    (hdrawn : ∀ index < dimension, generator.drawn generate (sample * dimension + index) =
      .ok (component sampleWorkspace middle index))
    (hkeeps : h.Keeps middle memory'')
    (hrow : ∀ column < dimension, entry destination memory'' sample column =
      transformed (component mean middle) (entry lowerFactor middle) dimension
        (component sampleWorkspace middle) column)
    (hothers : ∀ other, other ≠ sample → ∀ column < dimension,
      entry destination memory'' other column = entry destination middle other column) :
    Sampled h generate generator memory (sample + 1)
      (generator.after generate ((sample + 1) * dimension)) memory'' := by
  have hbefore := hsampled.keeps.trans (h.keeps_of_workspace huntouched)
  have hvalue : ∀ index < dimension, component sampleWorkspace middle index =
      generator.value generate (sample * dimension + index) := by
    intro index hindex
    rw [NormalGenerator.value, hdrawn index hindex]
    rfl
  -- The numbers and the rows up to this point: those from before, and those of this round.
  refine ⟨hbefore.trans hkeeps, rfl, fun number hnumber => ?_, fun other hother hlt column hcolumn => ?_⟩
  · rcases Nat.lt_or_ge number (sample * dimension) with hold | hnew
    · exact hsampled.drawn number hold
    · rw [Nat.succ_mul] at hnumber
      have hindex : number - sample * dimension < dimension := by omega
      have hresult := hdrawn _ hindex
      rw [hvalue _ hindex, Nat.add_sub_cancel' hnew] at hresult
      exact hresult
  · have hdestination := h.destination_rows
    have hdestination' := h.destination_columns
    rcases Nat.lt_succ_iff_lt_or_eq.1 hother with hold | rfl
    · rw [hothers ⟨other, hlt⟩ (fun heq => Nat.ne_of_lt hold (congrArg Fin.val heq)) column hcolumn]
      refine Eq.trans ?_ (hsampled.rows other hold hlt column hcolumn)
      exact entry_of_untouched h.workspace_inside h.destination_workspace.symm huntouched
        (by simp only; omega) (by omega)
    -- The row of this sample, whose mean and factor are still those of the beginning.
    · rw [hrow column hcolumn]
      exact transformed_congr hcolumn hbefore.mean hbefore.factor hvalue

theorem yields_samples
    (h : SampleViews destination mean lowerFactor sampleWorkspace samples dimension)
    (hfactor : LowerTriangular dimension (entry lowerFactor memory)) :
    Effect.Yields ((List.range samples).foldlM (fun generator sample => do
        let next ← drawSample generate sampleWorkspace dimension generator
        transformSample (RealArithmetic.exact sqrt) mean lowerFactor sampleWorkspace dimension
        publishPoint destination sample sampleWorkspace
        pure next) generator) memory
      (Sampled h generate generator memory samples)
      (fun status memory' => h.Keeps memory memory' ∧
        ∃ number < samples * dimension, generator.drawn generate number = .error status) := by
  -- `Sampled` is the invariant of the outer loop: one more row and `dimension` more draws.
  refine Effect.Yields.foldlM_range (Sampled h generate generator memory) ?_ ?_
  · intro sample hsample next memory' hsampled
    rw [hsampled.next_eq]
    refine ((yields_drawSample h (sample * dimension)).mono (fun _ _ h => h) ?_).bind ?_
    · rintro status memory'' ⟨huntouched, index, hindex, hdrawn⟩
      refine ⟨hsampled.keeps.trans (h.keeps_of_workspace huntouched), _, ?_, hdrawn⟩
      calc sample * dimension + index < sample * dimension + dimension := by omega
        _ = (sample + 1) * dimension := (Nat.succ_mul _ _).symm
        _ ≤ samples * dimension := Nat.mul_le_mul_right _ hsample
    rintro next' middle ⟨huntouched, rfl, hdrawn⟩
    have hkeeps := hsampled.keeps.trans (h.keeps_of_workspace huntouched)
    -- The entries above the diagonal are zero from the preparation, and stay so.
    have hupper : ∀ row < dimension, ∀ column < dimension, row < column →
        entry lowerFactor middle row column = 0 := by
      intro row hrow column hcolumn hlt
      rw [hkeeps.factor row hrow column hcolumn]
      exact hfactor.upper row hrow column hcolumn hlt
    have hbody : Effect.Yields ((do
          transformSample (RealArithmetic.exact sqrt) mean lowerFactor sampleWorkspace dimension
          publishPoint destination sample sampleWorkspace) >>= fun _ =>
            pure (generator.after generate (sample * dimension + dimension))) middle
        (Sampled h generate generator memory (sample + 1))
        (fun status memory' => h.Keeps memory memory' ∧
          ∃ number < samples * dimension, generator.drawn generate number = .error status) := by
      refine ((yields_sample h hupper ⟨sample, hsample⟩).mono (fun _ _ h => h)
        fun _ _ h => h.elim).bind ?_
      rintro _ memory'' ⟨hend, -, hrow, hothers, -⟩
      apply Effect.Yields.pure
      rw [← Nat.succ_mul]
      exact @Sampled.succ _ _ _ _ _ _ _ _ _ _ _ _ _ _ _ ⟨sample, hsample⟩ _ _ _ _ hsampled
        huntouched hdrawn hend hrow hothers
    rw [bind_assoc] at hbody
    exact hbody
  · refine ⟨.refl h memory, ?_, fun number hnumber => ?_, fun sample hsample => ?_⟩
    · rw [Nat.zero_mul]
      rfl
    · rw [Nat.zero_mul] at hnumber
      exact absurd hnumber (Nat.not_lt_zero number)
    · exact absurd hsample (Nat.not_lt_zero sample)

end Run

/-! ## The result -/

section Results

variable [Field V] [LinearOrder V] {destination lowerFactor : DenseView type 2}
  {mean sampleWorkspace : DenseView type 1} {samples dimension : Nat} {context : ExecutionContext}
  {generate : NormalGenerator V G → Result V × G} {standardNormal : NormalGenerator V G}

/-- A run comes to an end, with a value when the factor is one and no draw fails. -/
theorem yields_fill {sqrt : V → V}
    (h : SampleViews destination mean lowerFactor sampleWorkspace samples dimension)
    (hserial : context.backend = .serial)
    (hhost : destination.memorySpace = .host ∧ mean.memorySpace = .host ∧
      lowerFactor.memorySpace = .host ∧ sampleWorkspace.memorySpace = .host)
    (hoverlap : denseViewsOverlap destination mean = false ∧
      denseViewsOverlap destination lowerFactor = false ∧
      denseViewsOverlap destination sampleWorkspace = false ∧
      denseViewsOverlap sampleWorkspace mean = false ∧
      denseViewsOverlap sampleWorkspace lowerFactor = false)
    (hstandard : standardNormal.mean = 0 ∧ standardNormal.standardDeviation = 1)
    (memory : Nat → Cell) :
    Effect.Yields (fillDenseMultivariateNormal (RealArithmetic.exact sqrt) generate destination mean
        lowerFactor sampleWorkspace context standardNormal) memory
      (fun next memory' => LowerTriangular dimension (entry lowerFactor memory) ∧
        Sampled h generate standardNormal memory samples next memory')
      (fun _ memory' => h.Keeps memory memory' ∧
        ¬ (LowerTriangular dimension (entry lowerFactor memory) ∧
          ∀ number < samples * dimension, ∃ value,
            standardNormal.drawn generate number = .ok value)) := by
  have hcount : (mean.mapping.extents.get 0).toNat = dimension := by
    rw [h.mean_extent, Int.toNat_natCast]
  have hsamples : (destination.mapping.extents.get 0).toNat = samples := by
    rw [h.destination_rows, Int.toNat_natCast]
  apply Effect.Yields.ofResult_ok (validateSerialHost_ok_iff.2 ⟨hserial, hhost.1⟩)
  apply Effect.Yields.ofResult_ok (validateSerialHost_ok_iff.2 ⟨hserial, hhost.2.1⟩)
  apply Effect.Yields.ofResult_ok (validateSerialHost_ok_iff.2 ⟨hserial, hhost.2.2.1⟩)
  apply Effect.Yields.ofResult_ok (validateSerialHost_ok_iff.2 ⟨hserial, hhost.2.2.2⟩)
  apply Effect.Yields.failIf
  · intro hshape
    have hdestination := h.destination_columns
    have hmean := h.mean_extent
    have hfactor := h.factor_rows
    have hfactor' := h.factor_columns
    have hworkspace := h.workspace_extent
    omega
  intro _
  apply Effect.Yields.failIf
  · intro hoverlaps
    rw [hoverlap.1, hoverlap.2.1, hoverlap.2.2.1, hoverlap.2.2.2.1, hoverlap.2.2.2.2] at hoverlaps
    simp at hoverlaps
  intro _
  apply Effect.Yields.failIf
  · rintro (hmean | hdeviation)
    · exact absurd (decide_eq_true hstandard.1) hmean
    · exact absurd (decide_eq_true hstandard.2) hdeviation
  intro _
  rw [hcount, hsamples]
  refine Effect.Yields.bind ((yields_validateFactor dimension).mono (fun _ _ h => h) ?_) ?_
  · rintro status _ ⟨rfl, hfactor⟩
    exact ⟨.refl h _, fun hall => hfactor hall.1⟩
  rintro _ middle ⟨rfl, hfactor⟩
  refine (yields_samples h hfactor).mono (fun next memory' hsampled => ⟨hfactor, hsampled⟩) ?_
  rintro status memory' ⟨hkeeps, number, hnumber, hdrawn⟩
  refine ⟨hkeeps, fun hall => ?_⟩
  rcases hall.2 number hnumber with ⟨value, hvalue⟩
  rw [hdrawn] at hvalue
  cases hvalue

end Results

/-- In exact arithmetic the update of the workspace in place is the product with what was drawn, and
the row of the sample receives it; nothing else is written.  A run does this for every row, with one
draw after the other, unless the factor is not triangular or a draw fails. -/
theorem fillDenseMultivariateNormal_correct [Field V] [LinearOrder V] {samples dimension : Nat}
    (sqrt : V → V) (context : ExecutionContext) (generate : NormalGenerator V G → Result V × G)
    (standardNormal : NormalGenerator V G) (destination lowerFactor : DenseView type 2)
    (mean sampleWorkspace : DenseView type 1) (hserial : context.backend = .serial)
    (hhost : destination.memorySpace = .host ∧ mean.memorySpace = .host ∧
      lowerFactor.memorySpace = .host ∧ sampleWorkspace.memorySpace = .host)
    (hrows : destination.mapping.extents.get 0 = samples)
    (hcolumns : destination.mapping.extents.get 1 = dimension)
    (hmean : mean.mapping.extents.get 0 = dimension)
    (hfactor : lowerFactor.mapping.extents.get 0 = dimension ∧
      lowerFactor.mapping.extents.get 1 = dimension)
    (hworkspace : sampleWorkspace.mapping.extents.get 0 = dimension)
    (hoverlap : denseViewsOverlap destination mean = false ∧
      denseViewsOverlap destination lowerFactor = false ∧
      denseViewsOverlap destination sampleWorkspace = false ∧
      denseViewsOverlap sampleWorkspace mean = false ∧
      denseViewsOverlap sampleWorkspace lowerFactor = false)
    (hstandard : standardNormal.mean = 0 ∧ standardNormal.standardDeviation = 1)
    (memory : Nat → Cell) :
    (∀ sample : Fin samples, (∀ row < dimension, ∀ column < dimension, row < column →
        entry lowerFactor memory row column = 0) →
      ∃ memory', Effect.exec (do
          transformSample (RealArithmetic.exact sqrt) mean lowerFactor sampleWorkspace dimension
          publishPoint destination sample sampleWorkspace) memory = some (.ok (), memory') ∧
        (∀ row < dimension, component sampleWorkspace memory' row = component mean memory row +
          ∑ column ∈ Finset.range dimension,
            entry lowerFactor memory row column * component sampleWorkspace memory column) ∧
        (∀ column < dimension, entry destination memory' sample column =
          component sampleWorkspace memory' column) ∧
        (∀ other, other ≠ sample → ∀ column < dimension,
          entry destination memory' other column = entry destination memory other column) ∧
        (∀ index < dimension, component mean memory' index = component mean memory index) ∧
        (∀ row < dimension, ∀ column < dimension,
          entry lowerFactor memory' row column = entry lowerFactor memory row column) ∧
        ∀ cell, (vectorFamily sampleWorkspace hworkspace).Outside cell →
          ((matrixFamily destination hrows hcolumns).line sample).Outside cell →
            memory' cell = memory cell) ∧
    ∃ result memory', Effect.exec (fillDenseMultivariateNormal (RealArithmetic.exact sqrt) generate
        destination mean lowerFactor sampleWorkspace context standardNormal) memory =
          some (result, memory') ∧
      ((∃ next, result = .ok next) ↔ LowerTriangular dimension (entry lowerFactor memory) ∧
        ∀ number < samples * dimension, ∃ value,
          standardNormal.drawn generate number = .ok value) ∧
      (∀ next, result = .ok next → next = standardNormal.after generate (samples * dimension) ∧
        ∃ drawn : Nat → V,
          (∀ number < samples * dimension,
            standardNormal.drawn generate number = .ok (drawn number)) ∧
          ∀ sample < samples, ∀ row < dimension, entry destination memory' sample row =
            component mean memory row + ∑ column ∈ Finset.range dimension,
              entry lowerFactor memory row column * drawn (sample * dimension + column)) ∧
      (∀ index < dimension, component mean memory' index = component mean memory index) ∧
      (∀ row < dimension, ∀ column < dimension,
        entry lowerFactor memory' row column = entry lowerFactor memory row column) ∧
      ∀ cell, (vectorFamily sampleWorkspace hworkspace).Outside cell →
        (matrixFamily destination hrows hcolumns).Outside cell → memory' cell = memory cell := by
  have h : SampleViews destination mean lowerFactor sampleWorkspace samples dimension :=
    ⟨hrows, hcolumns, hmean, hfactor.1, hfactor.2, hworkspace, overlap_eq_false hoverlap.1,
      overlap_eq_false hoverlap.2.1, overlap_eq_false hoverlap.2.2.1,
      overlap_eq_false hoverlap.2.2.2.1, overlap_eq_false hoverlap.2.2.2.2⟩
  constructor
  · intro sample hupper
    rcases @yields_sample _ _ _ _ _ sqrt _ _ _ _ _ _ _ h hupper sample with
      ⟨result, memory', hrun, hresult⟩
    cases result with
    | error status => exact hresult.elim
    | ok =>
      rcases hresult with ⟨hkeeps, hproduct, hrow, hothers, houtside⟩
      refine ⟨memory', hrun, hproduct, fun column hcolumn => ?_, hothers, hkeeps.mean,
        hkeeps.factor, houtside⟩
      rw [hrow column hcolumn, hproduct column hcolumn]
  · rcases @yields_fill _ _ _ _ _ _ _ _ _ _ _ _ context generate standardNormal sqrt h hserial hhost
      hoverlap hstandard memory with ⟨result, memory', hrun, hresult⟩
    refine ⟨result, memory', hrun, ?_⟩
    cases result with
    | error status =>
      rcases hresult with ⟨hkeeps, hfails⟩
      refine ⟨⟨fun hok => ?_, fun hall => absurd hall hfails⟩, fun next hok => ?_, hkeeps.mean,
        hkeeps.factor, hkeeps.outside⟩
      · rcases hok with ⟨next, hok⟩
        cases hok
      · cases hok
    | ok next =>
      rcases hresult with ⟨hfactor, hsampled⟩
      refine ⟨⟨fun _ => ⟨hfactor, fun number hnumber => ⟨_, hsampled.drawn number hnumber⟩⟩,
        fun _ => ⟨next, rfl⟩⟩, fun next' hok => ?_, hsampled.keeps.mean, hsampled.keeps.factor,
        hsampled.keeps.outside⟩
      cases hok
      exact ⟨hsampled.next_eq, standardNormal.value generate, hsampled.drawn,
        fun sample hsample row hrow => hsampled.rows sample hsample hsample row hrow⟩

/-- The means ten and twenty, and a factor with the rows two, zero and one, three. -/
def drawnMemory (cell : Nat) : ℚ :=
  if cell = 40 then 10 else if cell = 48 then 20 else
  if cell = 56 then 2 else if cell = 72 then 1 else if cell = 80 then 3 else 0

/-- The numbers from zero on. -/
def countedNormal (generator : NormalGenerator ℚ ℕ) : Result ℚ × ℕ :=
  (.ok generator.state, generator.state + 1)

/-- The second sample is drawn as two and three, and its second component is the mean, the two and
three times the three. -/
theorem fillDenseMultivariateNormal_sample :
    ∃ next memory', Effect.exec (fillDenseMultivariateNormal
        (RealArithmetic.exact (V := ℚ) fun x => x) countedNormal
        (numberMatrix ℚ 8 (by decide)) (numberVector ℚ 40 (by decide))
        (numberMatrix ℚ 56 (by decide)) (numberVector ℚ 88 (by decide)) .serial ⟨0, 1, 0⟩)
        drawnMemory = some (.ok next, memory') ∧
      entry (numberMatrix ℚ 8 (by decide)) memory' 1 0 = 14 ∧
      entry (numberMatrix ℚ 8 (by decide)) memory' 1 1 = 31 := by
  rcases (@fillDenseMultivariateNormal_correct _ ℚ ℕ _ _ _ 2 2 (fun x => x) .serial
    countedNormal ⟨0, 1, 0⟩ (numberMatrix ℚ 8 (by decide))
    (numberMatrix ℚ 56 (by decide)) (numberVector ℚ 40 (by decide))
    (numberVector ℚ 88 (by decide)) rfl ⟨rfl, rfl, rfl, rfl⟩ rfl rfl rfl ⟨rfl, rfl⟩ rfl
    ⟨by decide, by decide, by decide, by decide, by decide⟩ ⟨rfl, rfl⟩ drawnMemory).2 with
    ⟨result, memory', hrun, haccepts, hrows, -⟩
  have htriangular : LowerTriangular 2 (entry (numberMatrix ℚ 56 (by decide)) drawnMemory) := by
    refine ⟨fun row hrow column hcolumn hlt => ?_, fun row hrow => ?_⟩
    · interval_cases row <;> interval_cases column
      rfl
    · interval_cases row <;> decide
  rcases haccepts.2 ⟨htriangular, fun number hnumber => ⟨_, rfl⟩⟩ with ⟨next, rfl⟩
  rcases (hrows next rfl).2 with ⟨drawn, hdrawn, hentry⟩
  have htwo : drawn 2 = 2 := (Except.ok.inj (hdrawn 2 (by decide))).symm
  have hthree : drawn 3 = 3 := (Except.ok.inj (hdrawn 3 (by decide))).symm
  refine ⟨next, memory', hrun, ?_, ?_⟩
  · rw [hentry 1 (by decide) 0 (by decide), Finset.sum_range_succ, Finset.sum_range_one]
    simp only [one_mul, add_zero, Nat.reduceAdd, htwo, hthree]
    change (10 : ℚ) + (2 * 2 + 0 * 3) = 14
    norm_num
  · rw [hentry 1 (by decide) 1 (by decide), Finset.sum_range_succ, Finset.sum_range_one]
    simp only [one_mul, add_zero, Nat.reduceAdd, htwo, hthree]
    change (20 : ℚ) + (1 * 2 + 3 * 3) = 31
    norm_num

end Random
end AscCpp
