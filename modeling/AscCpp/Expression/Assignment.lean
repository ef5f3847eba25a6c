import AscCpp.Expression.Overlap
import AscCpp.Library.Sweep

/-!
# Assignment — dense evaluation as a simultaneous assignment

`Evaluate` writes the elements of the destination one by one while the expression keeps reading
memory.  In a memory of elements of one size the alias scan makes this the assignment of all elements
at once.

- `ExpressionTree.read_congr`: an expression reads the bytes of its leaves.
- `evaluate_assigns`: what a successful evaluation leaves behind.
-/

namespace AscCpp
namespace Expression

open AscCpp.Core Library AscCpp.Dense Sparse

variable {Cell V : Type} [Ring V] [DecidableEq V]

/-! ## What an expression reads -/

omit [Ring V] [DecidableEq V] in
/-- Values that stand in the same bytes are loaded alike. -/
theorem loadValues_congr {type : Representation Cell V} {address count : Nat}
    {memory memory' : Nat → Cell} (h : AgreeOn ⟨address, count * type.size⟩ memory memory') :
    loadValues type memory address count = loadValues type memory' address count := by
  unfold loadValues
  congr 1
  apply List.map_congr_left
  intro position hposition
  exact load_congr_block h (List.mem_range.1 hposition)

theorem ViewTerminal.read_congr {terminal : ViewTerminal Cell V} {memory memory' : Nat → Cell}
    (h : AgreeOn terminal.valueSpan memory memory') (indices : List Int) :
    terminal.read memory indices = terminal.read memory' indices := by
  -- A dense view reads one element inside its values; the sparse ones load all of theirs.
  cases terminal with
  | @dense type rank view =>
    by_cases hlength : indices.length = rank
    · simp only [ViewTerminal.read, dif_pos hlength, DenseView.read]
      cases helement : view.elementAt ⟨indices, hlength⟩ with
      | error status => rfl
      | ok address =>
        rcases DenseView.elementAt_inside helement with ⟨hbounds, rfl⟩
        have hinside := DenseView.addressOf_le hbounds
        apply congrArg some
        apply type.load_congr
        intro cell hfirst hlast
        exact h cell (hinside.1.trans hfirst) (hlast.trans_le hinside.2)
    · simp only [ViewTerminal.read, dif_neg hlength]
  | coordinate view hview =>
    have hload : view.load memory = view.load memory' := by
      rw [CoordinateView.load, loadValues_congr h]
      rfl
    simp only [ViewTerminal.read, CoordinateView.read, hload]
  | compressed view hview =>
    have hload : view.load memory = view.load memory' := by
      rw [CompressedSparseView.load, loadValues_congr h]
      rfl
    simp only [ViewTerminal.read, CompressedSparseView.read, hload]

theorem ExpressionTree.read_congr {expression : ViewExpression Cell V} {memory memory' : Nat → Cell}
    (h : ∀ leaf ∈ expression.terminals, AgreeOn leaf.valueSpan memory memory') (indices : List Int) :
    expression.read memory indices = expression.read memory' indices := by
  induction expression generalizing indices with
  | scalar value => rfl
  | terminal leaf => exact ViewTerminal.read_congr (h leaf List.mem_cons_self) indices
  | negate operand ih =>
    simp only [ExpressionTree.read, ih h]
  | binary operation left right ihLeft ihRight =>
    simp only [ExpressionTree.terminals, List.forall_mem_append] at h
    simp only [ExpressionTree.read, ihLeft h.1, ihRight h.2]

/-! ## Memories of elements -/

/-- The view has an element type. -/
def ViewTerminal.HasType (type : Representation Cell V) : ViewTerminal Cell V → Prop
  | @dense _ _ _ _ type' _ _ => type' = type
  | @coordinate _ _ _ _ type' _ _ _ => type' = type
  | @compressed _ _ _ _ type' _ _ _ => type' = type

variable {type : Representation Cell V} {rank : Nat}

/-- The leaves have the element type of the destination, and their elements and those of the
destination are elements of one memory. -/
structure ElementAddressed (expression : ViewExpression Cell V) (destination : DenseView type rank) :
    Prop where
  hasType : ∀ leaf ∈ expression.terminals, leaf.HasType type
  congruent : ∀ leaf ∈ expression.terminals, leaf.valueSpan.size ≠ 0 →
    leaf.valueSpan.address % type.size = destination.data % type.size

variable {context : ExecutionContext} {expression : ViewExpression Cell V}
  {destination : DenseView type rank} {memory memory' : Nat → Cell}

/-- No leaf begins inside an element. -/
theorem ElementAddressed.noInnerStart (h : ElementAddressed expression destination) :
    NoInnerStart expression (.dense destination) := by
  intro element helement leaf hleaf hsize hinside
  rcases List.mem_map.1 helement with ⟨number, -, rfl⟩
  have hcongruent := h.congruent leaf hleaf hsize
  have hposition : destination.addressOf (coordinateAt destination.mapping.extents number) %
      type.size = destination.data % type.size := by
    rw [DenseView.addressOf, Nat.add_mul_mod_self_right]
  rcases hinside with ⟨hfirst, hlast⟩
  have hlast : leaf.valueSpan.address <
      destination.addressOf (coordinateAt destination.mapping.extents number) + type.size := hlast
  -- Two multiples of the size that are nearer than the size are one.
  have hmultiple := Nat.sub_mod_eq_zero_of_mod_eq (hcongruent.trans hposition.symm)
  have hle := Nat.le_of_dvd (by omega) (Nat.dvd_of_mod_eq_zero hmultiple)
  omega

/-- What the loop has written is not read by a leaf. -/
theorem agreeOn_leaf (h : NoOverlap expression (.dense destination))
    (huntouched : destination.family.Untouched memory memory') {leaf : ViewTerminal Cell V}
    (hleaf : leaf ∈ expression.terminals) : AgreeOn leaf.valueSpan memory memory' := by
  intro cell hfirst hlast
  refine (huntouched cell fun number => ?_).symm
  by_contra hinside
  rw [not_or, not_lt, not_le] at hinside
  have helement : destination.family.address number ∈ destination.elements :=
    List.mem_map.2 ⟨number.val, List.mem_range.2 number.isLt, rfl⟩
  exact h _ helement cell hinside.1 hinside.2 leaf hleaf ⟨hfirst, hlast⟩

/-- The body of the loop that writes. -/
def writeElement (expression : ViewExpression Cell V) (destination : DenseView type rank)
    (coordinates : List.Vector Int rank) : Effect (Nat → Cell) Unit := do
  let destinationElement ← Effect.ofResult (destination.elementAt coordinates)
  let memory ← Effect.read
  let value ← Effect.check (expression.read memory (expressionIndices expression coordinates))
  Effect.store type destinationElement value

/-- One round stores the value that the expression had at first. -/
theorem exec_writeElement (hhost : destination.memorySpace = .host)
    (h : NoOverlap expression (.dense destination))
    (huntouched : destination.family.Untouched memory memory')
    (number : Fin (boxSize destination.mapping.extents)) :
    Effect.exec (writeElement expression destination
        (coordinateAt destination.mapping.extents number)) memory' =
      (expression.read memory (expressionIndices expression
        (coordinateAt destination.mapping.extents number))).map fun value =>
          (.ok (), type.store memory' (destination.family.address number) value) := by
  have hbounds := coordinateAt_inBounds destination.mapping number.isLt
  have hread := ExpressionTree.read_congr
    (fun leaf hleaf => agreeOn_leaf h huntouched hleaf)
    (expressionIndices expression (coordinateAt destination.mapping.extents number))
  rw [writeElement, DenseView.elementAt_ok hhost hbounds, Effect.ofResult_ok_bind,
    Effect.exec_read_bind, Effect.exec_check_bind, ← hread]
  cases expression.read memory _ <;> rfl

/-- The loop writes the values that the expression had at first. -/
theorem exec_writes_values (hhost : destination.memorySpace = .host)
    (h : NoOverlap expression (.dense destination))
    (hrun : Effect.exec (forEachCoordinate destination.mapping.extents
      (writeElement expression destination)) memory = some (.ok (), memory'))
    (number : Fin (boxSize destination.mapping.extents)) :
    expression.read memory (expressionIndices expression
        (coordinateAt destination.mapping.extents number)) =
      some (destination.family.values memory' number) := by
  rw [forEachCoordinate_eq, Effect.forM_range] at hrun
  -- Every round has found a value, since the loop has come to its end.
  have hvalues : ∀ number : Fin (boxSize destination.mapping.extents), ∃ value,
      expression.read memory (expressionIndices expression
        (coordinateAt destination.mapping.extents number)) = some value := by
    intro number
    rcases Effect.exec_forM_ok_mem (destination.family.Untouched memory) (by
      intro item _ before after hbefore hround
      rw [exec_writeElement hhost h hbefore] at hround
      rcases Option.map_eq_some_iff.1 hround with ⟨value, -, hstore⟩
      cases hstore
      exact hbefore.trans (destination.family.untouched_store before item value)) (.refl memory)
      hrun (List.mem_finRange number) with ⟨before, after, hbefore, hround⟩
    rw [exec_writeElement hhost h hbefore] at hround
    rcases Option.map_eq_some_iff.1 hround with ⟨value, hvalue, -⟩
    exact ⟨value, hvalue⟩
  choose value hvalue using hvalues
  have hround : ∀ item ∈ List.finRange (boxSize destination.mapping.extents), ∀ before,
      destination.family.Untouched memory before →
        Effect.Updates destination.family
          (writeElement expression destination (coordinateAt destination.mapping.extents item))
          (fun values => Function.update values item (value item)) before := by
    intro item _ before hbefore
    refine ⟨type.store before (destination.family.address item) (value item), ?_,
      destination.family.untouched_store before item _,
      destination.family.values_store before item _⟩
    rw [exec_writeElement hhost h hbefore, hvalue]
    rfl
  rcases Effect.exec_forM_family memory hround with ⟨last, hlast, -, hfinal⟩
  cases hrun.symm.trans hlast
  rw [hvalue, hfinal]
  exact congrArg some (@sweep_apply_of_local _ _ _ (fun item _ => value item) _
    (List.nodup_finRange _) (fun _ _ _ _ => rfl) _ number (List.mem_finRange number)).symm

/-- Apart from a self-assignment, a successful evaluation has run the loop. -/
theorem exec_writes_of_evaluate (hself : isSelfAssignment expression destination = false)
    (hrun : Effect.exec (Dense.evaluate context expression destination) memory =
      some (.ok (), memory')) :
    Effect.exec (forEachCoordinate destination.mapping.extents
      (writeElement expression destination)) memory = some (.ok (), memory') := by
  rw [Dense.evaluate, Effect.exec_ofResult_bind_ok_iff] at hrun
  have hrest := hrun.2
  rw [hself, if_neg Bool.false_ne_true, Effect.exec_ofResult_bind_ok_iff] at hrest
  exact hrest.2

omit [Ring V] [DecidableEq V] in
/-- A view with the descriptor and the element type of the destination has its elements. -/
theorem read_self {source : DenseView type rank} (hself : source.sameDescriptor destination = true)
    (hhost : destination.memorySpace = .host) {coordinates : List.Vector Int rank}
    (hbounds : destination.mapping.InBounds coordinates) :
    source.read memory coordinates = some (type.load memory (destination.addressOf coordinates)) := by
  rcases of_decide_eq_true hself with ⟨-, hdata, hspace, hextents, hstrides⟩
  have hextents : source.mapping.extents = destination.mapping.extents :=
    List.Vector.toList_injective hextents
  have hstrides : source.mapping.strides = destination.mapping.strides :=
    List.Vector.toList_injective hstrides
  have hsource : source.mapping.InBounds coordinates := by
    intro dimension
    rw [hextents]
    exact hbounds dimension
  rw [DenseView.read_eq (hspace.trans hhost) hsource, DenseView.addressOf, DenseView.addressOf,
    DenseView.offsetOf, DenseView.offsetOf, hdata, hstrides]

/-- A self-assignment reads what stands in the destination, and leaves it alone. -/
theorem evaluate_self (h : ElementAddressed expression destination)
    (hself : isSelfAssignment expression destination = true)
    (hhost : destination.memorySpace = .host)
    (hrun : Effect.exec (Dense.evaluate context expression destination) memory =
      some (.ok (), memory')) {coordinates : List.Vector Int rank}
    (hbounds : destination.mapping.InBounds coordinates) :
    expression.read memory (expressionIndices expression coordinates) =
      some (type.load memory' (destination.addressOf coordinates)) := by
  rw [Dense.evaluate, Effect.exec_ofResult_bind_ok_iff] at hrun
  have hrest := hrun.2
  rw [hself, if_pos rfl, Effect.exec_pure] at hrest
  cases hrest
  -- Only a terminal can be the destination itself.
  unfold isSelfAssignment at hself
  split at hself
  · rename_i type' rank' source
    have htype : type' = type := h.hasType _ List.mem_cons_self
    subst htype
    have hrank : rank' = rank := (of_decide_eq_true hself).1
    subst hrank
    have hindices : expressionIndices (.terminal (.dense source) : ViewExpression Cell V) coordinates =
        coordinates.toList := by
      unfold expressionIndices
      split
      · rename_i hzero
        have hzero : rank' = 0 := hzero
        subst hzero
        rw [List.Vector.eq_nil coordinates]
        rfl
      · rfl
    have hread := @read_self _ _ _ _ _ memory source hself hhost _ hbounds
    rw [hindices, ← hread]
    exact dif_pos coordinates.2
  · cases hself

/-- A failing evaluation has not written.  A successful one leaves in every element the value that
the expression had at its coordinate before, and every other cell as it was. -/
theorem evaluate_assigns (h : ElementAddressed expression destination) (result : Result Unit)
    (hrun : Effect.exec (Dense.evaluate context expression destination) memory =
      some (result, memory')) :
    match result with
    | .error _ => memory' = memory
    | .ok () =>
      (∀ coordinates, destination.mapping.InBounds coordinates →
        expression.read memory (expressionIndices expression coordinates) =
          some (type.load memory' (destination.addressOf coordinates))) ∧
      Untouched destination.elements type.size memory memory' := by
  cases result with
  | error status => exact Dense.evaluate_error hrun
  | ok =>
    rcases Dense.evaluate_ok hrun with ⟨hhost, -, huntouched⟩
    refine ⟨fun coordinates hbounds => ?_, huntouched⟩
    cases hself : isSelfAssignment expression destination with
    | false =>
      rcases exists_coordinateAt hbounds with ⟨number, hnumber, rfl⟩
      have hrun' : Effect.exec (Expression.evaluate context expression (.dense destination)) memory =
          some (.ok (), memory') := hrun
      have halias := (Expression.evaluate_ok hrun').1 hself
      have hoverlap := (noOverlap_iff_noInnerStart halias).2 h.noInnerStart
      exact exec_writes_values hhost hoverlap (exec_writes_of_evaluate hself hrun) ⟨number, hnumber⟩
    | true => exact evaluate_self h hself hhost hrun hbounds

/-! ### Two elements, from the four behind them -/

/-- Two elements without padding. -/
def pairLayout : DenseLayout 1 where
  extents := 2 ::ᵥ List.Vector.nil
  strides := 1 ::ᵥ List.Vector.nil
  logicalSize := 2
  requiredSpanSize := 2
  unique := true
  exhaustive := true
  kind := .right
  strides_nonneg := singleLayout.strides_nonneg
  logical := by decide
  span := by decide
  unique_eq := by decide
  exhaustive_eq := by decide

def pairView (address : Nat) (haddress : address ≠ 0) :
    DenseView (Representation.uniform Int 8 8 Representation.eight_pos) 1 where
  data := address
  mapping := pairLayout
  memorySpace := .host
  data_ne _ := haddress
  unique := rfl
  bytes := ⟨16, by decide⟩

/-- `-((first + 1) * second)`. -/
def negatedProduct : ViewExpression Int Int :=
  .negate (.binary .multiply
    (.binary .add (.terminal (.dense (pairView 24 (by decide)))) (.scalar 1))
    (.terminal (.dense (pairView 40 (by decide)))))

theorem negatedProduct_addressed :
    ElementAddressed negatedProduct (pairView 8 (by decide)) where
  hasType leaf hleaf := by
    rcases List.mem_pair.1 hleaf with rfl | rfl <;> rfl
  congruent leaf hleaf _ := by
    rcases List.mem_pair.1 hleaf with rfl | rfl <;> rfl

/-- Both elements have the values of the expression, with the operands as they were. -/
theorem evaluate_assigns_sample :
    ∃ memory', Effect.exec (Dense.evaluate .serial negatedProduct (pairView 8 (by decide)))
        (fun cell : Nat => (cell : Int)) = some (.ok (), memory') ∧
      negatedProduct.read (fun cell : Nat => (cell : Int)) [0] = some (memory' 8) ∧
      negatedProduct.read (fun cell : Nat => (cell : Int)) [1] = some (memory' 16) ∧
      memory' 8 = -1000 ∧ memory' 16 = -1584 ∧ memory' 24 = 24 := by
  refine ⟨_, rfl, ?_⟩
  have hassigns := @evaluate_assigns _ _ _ _ _ _ .serial _ _ (fun cell : Nat => (cell : Int)) _
    negatedProduct_addressed (.ok ()) rfl
  exact ⟨hassigns.1 ⟨[0], rfl⟩ fun | 0 => by decide, hassigns.1 ⟨[1], rfl⟩ fun | 0 => by decide,
    rfl, rfl, rfl⟩

end Expression
end AscCpp
