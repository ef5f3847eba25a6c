import AscCpp.Core.Loop
import AscCpp.Expression.Assignment
import AscCpp.Expression.Sparsity
import AscCpp.Sparse.Lookup

/-!
# StoredAssignment — sparse evaluation as an assignment

`Evaluate` into a sparse view checks that no operand knows of a stored value before it writes the
first one.  Apart operands pass these checks, and their values are those from before the evaluation.

- `ExpressionTree.exists_read`: an expression has a value at every coordinate of its shape.
- `evaluate_refuses_empty`: operands are told apart by the addresses at which they begin, also where
  they have no elements.
- `evaluate_stores`: what an evaluation leaves in a coordinate view or a compressed view.
-/

namespace AscCpp
namespace Expression

open AscCpp.Core Library AscCpp.Dense Sparse

/-! ## Reads that succeed -/

namespace ExpressionTree

variable {Terminal Memory V : Type} [ExpressionAdapter Terminal Memory V]

/-- An operand of a node that was made has the shape of the node, or it is a scalar. -/
theorem Built.shapes {operation : ExpressionOperation} {left right tree : ExpressionTree Terminal V}
    (hmake : makeBinary operation left right = .ok tree) :
    (left.rank = 0 ∨ left.shape = tree.shape) ∧ (right.rank = 0 ∨ right.shape = tree.shape) := by
  rcases makeBinary_ok_iff.1 hmake with ⟨hshape, rfl⟩
  have hranks := validateBinaryShape_ok_iff.1 hshape
  have hnode := rank_binary operation left right
  rw [shape]
  by_cases hleft : left.rank = 0
  · refine ⟨.inl hleft, ?_⟩
    rw [if_pos hleft] at hnode
    by_cases hright : right.rank = 0
    · exact .inl hright
    · right
      rw [hnode, if_neg hright, if_neg (by omega)]
  · rw [if_neg hleft] at hnode
    rw [hnode, if_neg hleft, if_pos rfl]
    refine ⟨.inr rfl, ?_⟩
    rcases hranks with hzero | hzero | ⟨-, heq⟩
    · exact absurd hzero hleft
    · exact .inl hzero
    · exact .inr heq.symm

/-- The indices that reach an operand are a coordinate of it. -/
theorem inShape_operand {operand node : ExpressionTree Terminal V} (hbuilt : operand.Built)
    (hrank : operand.rank = 0 ∨ operand.rank = node.rank)
    (hshape : operand.rank = 0 ∨ operand.shape = node.shape) {indices : List Int}
    (h : InShape (ownIndices node.rank indices) node.shape) :
    InShape (ownIndices operand.rank indices) operand.shape := by
  by_cases hzero : operand.rank = 0
  · have hlength := length_shape hbuilt
    rw [hzero, List.length_eq_zero_iff] at hlength
    rw [hlength, ownIndices, if_pos hzero]
    exact List.Forall₂.nil
  · rw [hrank.resolve_left hzero, hshape.resolve_left hzero]
    exact h

/-- An expression whose terminals have values at their coordinates has values at its own. -/
theorem exists_read_own [Ring V] {tree : ExpressionTree Terminal V} (hbuilt : tree.Built)
    {memory : Memory}
    (hleaves : ∀ leaf ∈ tree.terminals, ∀ indices, InShape indices (ExpressionAdapter.shape leaf) →
      ∃ value : V, ExpressionAdapter.read leaf memory indices = some value)
    {indices : List Int} (h : InShape (ownIndices tree.rank indices) tree.shape) :
    ∃ value, tree.read memory (ownIndices tree.rank indices) = some value := by
  -- An operand is read at the coordinates that are left for its rank.
  induction hbuilt with
  | scalar value => exact ⟨value, rfl⟩
  | terminal leaf => exact hleaves leaf List.mem_cons_self _ h
  | @negate operand hoperand ih =>
    rcases ih hleaves h with ⟨value, hvalue⟩
    refine ⟨-value, ?_⟩
    rw [read, rank, operandIndices_own indices (.inr rfl), Option.bind_eq_bind, Option.bind_some,
      hvalue]
    rfl
  | @binary operation left right _ hleft hright hmake ihLeft ihRight =>
    rcases Built.ranks hmake with ⟨rfl, hleftRank, hrightRank⟩
    rcases Built.shapes hmake with ⟨hleftShape, hrightShape⟩
    have hterminals := List.forall_mem_append.1 hleaves
    rcases ihLeft hterminals.1 (inShape_operand hleft hleftRank hleftShape h) with
      ⟨leftValue, hleftValue⟩
    rcases ihRight hterminals.2 (inShape_operand hright hrightRank hrightShape h) with
      ⟨rightValue, hrightValue⟩
    refine ⟨operation.apply leftValue rightValue, ?_⟩
    simp only [read, operandIndices_own indices hleftRank, operandIndices_own indices hrightRank,
      Option.bind_eq_bind, Option.bind_some, hleftValue, hrightValue]

theorem exists_read [Ring V] {tree : ExpressionTree Terminal V} (hbuilt : tree.Built)
    {memory : Memory}
    (hleaves : ∀ leaf ∈ tree.terminals, ∀ indices, InShape indices (ExpressionAdapter.shape leaf) →
      ∃ value : V, ExpressionAdapter.read leaf memory indices = some value)
    {indices : List Int} (h : InShape indices tree.shape) :
    ∃ value, tree.read memory indices = some value := by
  have hown := ownIndices_inShape hbuilt h
  have hread := @exists_read_own _ _ _ _ _ _ hbuilt memory hleaves indices (by rwa [hown])
  rwa [hown] at hread

end ExpressionTree

variable {Cell V : Type} [Ring V] [DecidableEq V]

/-- A view on the host has a value at every coordinate of its shape. -/
theorem ViewTerminal.exists_read {leaf : ViewTerminal Cell V} (hhost : leaf.space = .host)
    (memory : Nat → Cell) {indices : List Int} (h : ExpressionTree.InShape indices leaf.shape) :
    ∃ value, leaf.read memory indices = some value := by
  cases leaf with
  | @dense type rank view =>
    have hlength : indices.length = rank := h.length_eq.trans view.mapping.extents.2
    have hbounds : view.mapping.InBounds ⟨indices, hlength⟩ := by
      intro dimension
      have hindex : dimension.val < indices.length := hlength.symm ▸ dimension.isLt
      have hextent : dimension.val < view.mapping.extents.toList.length := by simp
      exact List.Forall₂.get h hindex hextent
    refine ⟨_, (dif_pos hlength).trans (DenseView.read_eq hhost hbounds memory)⟩
  | @coordinate type rank view hview =>
    have hlength : indices.length = rank := h.length_eq.trans view.extents.2
    by_cases hstored : ∃ position < view.nonzeros,
        view.coordinates.read position = ⟨indices, hlength⟩
    · rcases hstored with ⟨position, hposition, heq⟩
      have hread := hview.read_stored hhost memory hposition
      rw [heq] at hread
      exact ⟨_, hread⟩
    -- What a sparse view does not store reads as zero.
    · have hrange : InRange ⟨indices, hlength⟩ view.extents := h
      exact ⟨0, hview.read_unstored hhost memory hrange fun position hposition heq =>
        hstored ⟨position, hposition, heq⟩⟩
  | @compressed type format view hview =>
    have hlength : indices.length = 2 := h.length_eq.trans view.shape.2
    have hcanonical : (view.load memory).CanonicalArrays := (hview.accepts hhost).canonical
    have hloaded : (view.load memory).memorySpace = .host := hhost
    have hrange : InRange ⟨indices, hlength⟩ (view.load memory).shape := h
    have hread : view.read memory indices =
        ((view.load memory).lookup ⟨indices, hlength⟩).toOption := dif_pos hlength
    by_cases hmem : (⟨indices, hlength⟩ : Coordinate 2) ∈ (view.load memory).entries.map Prod.fst
    · rcases List.mem_map.1 hmem with ⟨⟨coordinate, value⟩, hentry, rfl⟩
      refine ⟨value, hread.trans ?_⟩
      rw [hcanonical.lookup_of_mem hloaded hrange hentry]
      rfl
    · refine ⟨0, hread.trans ?_⟩
      rw [hcanonical.lookup_of_not_mem hloaded hrange hmem]
      rfl

/-! ## Operands apart from the destination -/

/-- The addresses that count for an array: its bytes, or where it begins if there are none. -/
def footprint (span : Block) : Block :=
  ⟨span.address, max span.size 1⟩

namespace ViewTerminal

/-- The arrays of the structure, which a read inspects besides the values. -/
def structureBlocks : ViewTerminal Cell V → List Block
  | dense _ => []
  | @coordinate _ _ _ _ _ rank view _ =>
    [⟨view.coordinates.address, view.nonzeros * rank * indexSize⟩]
  | compressed view _ =>
    [⟨view.outerOffsets.address, ((view.outerExtent + 1) * indexSize).toNat⟩,
      ⟨view.innerIndices.address, view.nonzeros * indexSize⟩]

/-- The arrays that a read inspects. -/
def storage (leaf : ViewTerminal Cell V) : List Block :=
  leaf.valueSpan :: leaf.structureBlocks

/-- The storage of the leaf is apart from the values; arrays of values without elements count with
the address at which they begin. -/
structure ApartFrom (leaf : ViewTerminal Cell V) (values : Block) : Prop where
  inside : leaf.valueSpan.size ≤ uintptrMax - leaf.valueSpan.address
  values_apart : leaf.valueSpan.address = 0 ∨ (footprint leaf.valueSpan).Disjoint (footprint values)
  structure_apart : ∀ block ∈ leaf.structureBlocks, block.Disjoint (footprint values)

end ViewTerminal

/-- An address of an array is not an address of a block apart from it. -/
theorem not_mem_of_disjoint {span values : Block} (h : span.Disjoint (footprint values))
    {token : Nat} (hfirst : values.address ≤ token)
    (hlast : token < values.address + (footprint values).size) :
    ¬ (span.address ≤ token ∧ token < span.address + span.size) := by
  unfold Block.Disjoint at h
  simp only [footprint] at h hlast
  omega

/-- A block without the token does not contain it, unless it is null or reaches the end of the
address space. -/
theorem byteSpanContains_eq_false {span : Block}
    (hspan : span.size = 0 ∨ span.address ≠ 0 ∧ span.size ≤ uintptrMax - span.address) {token : Nat}
    (h : ¬ (span.address ≤ token ∧ token < span.address + span.size)) :
    byteSpanContains span.address span.size token = false := by
  unfold byteSpanContains
  split
  · rfl
  · rename_i hnonempty
    rw [if_neg (by omega), if_neg (by omega)]
    exact decide_eq_false h

namespace ViewTerminal

section Alias

variable {leaf : ViewTerminal Cell V} {values : Block} {token : Nat}

/-- The values of a leaf without an address are none. -/
theorem size_of_null (hhost : leaf.space = .host) (hnull : leaf.valueSpan.address = 0) :
    leaf.valueSpan.size = 0 := by
  cases leaf with
  | dense view =>
    have hspan : view.mapping.requiredSpanSize = 0 := by
      by_contra hne
      exact view.data_ne hne hnull
    simp [valueSpan, DenseView.valueSpan, hspan]
  | coordinate view hview =>
    have hspan := validateAddressSpan_ok_iff.1 (hview.accepts hhost).valueSpan
    exact hspan.resolve_right fun hne => hne.1 hnull
  | compressed view hview =>
    have hspan := validateAddressSpan_ok_iff.1 (hview.accepts hhost).valueSpan
    exact hspan.resolve_right fun hne => hne.1 hnull

/-- A leaf apart from the values has its own values elsewhere, and they do not begin there. -/
theorem ApartFrom.not_mem_values (h : leaf.ApartFrom values) (hhost : leaf.space = .host)
    (htoken : token ≠ 0) (hfirst : values.address ≤ token)
    (hlast : token < values.address + (footprint values).size) :
    token ≠ leaf.valueSpan.address ∧
      ¬ (leaf.valueSpan.address ≤ token ∧
        token < leaf.valueSpan.address + leaf.valueSpan.size) := by
  rcases h.values_apart with hzero | hdisjoint
  · have hsize := size_of_null hhost hzero
    omega
  · have hout := not_mem_of_disjoint hdisjoint hfirst hlast
    simp only [footprint] at hout
    omega

/-- A leaf knows of no address that its storage is apart from. -/
theorem mayAlias_eq_false (hhost : leaf.space = .host) (h : leaf.ApartFrom values)
    (htoken : token ≠ 0) (hfirst : values.address ≤ token)
    (hlast : token < values.address + (footprint values).size) : leaf.mayAlias token = false := by
  rcases h.not_mem_values hhost htoken hfirst hlast with ⟨hstart, hout⟩
  -- The address is inside the values of the destination, and so outside every block of the leaf.
  cases leaf with
  | dense view =>
    have hinside : view.valueSpan.size ≤ uintptrMax - view.data := h.inside
    simp only [mayAlias, DenseView.mayAlias]
    split
    · rfl
    · rw [if_neg (not_lt.2 hinside)]
      exact decide_eq_false hout
  | coordinate view hview =>
    have haccepts := hview.accepts hhost
    have hcoordinates := not_mem_of_disjoint (h.structure_apart _ List.mem_cons_self) hfirst hlast
    have hvalues := @byteSpanContains_eq_false ⟨_, _⟩
      (validateAddressSpan_ok_iff.1 haccepts.valueSpan) _ hout
    have hstructure := @byteSpanContains_eq_false ⟨_, _⟩
      (validateAddressSpan_ok_iff.1 haccepts.coordinateSpan) _ hcoordinates
    simp only [mayAlias, hview.mayAlias_eq hhost]
    rw [Bool.or_eq_false_iff, Bool.or_eq_false_iff]
    exact ⟨⟨decide_eq_false hstart, hvalues⟩, hstructure⟩
  | compressed view hview =>
    have haccepts := hview.accepts hhost
    have hoffsets := not_mem_of_disjoint (h.structure_apart _ List.mem_cons_self) hfirst hlast
    have hindices := not_mem_of_disjoint
      (h.structure_apart _ (List.mem_cons_of_mem _ List.mem_cons_self)) hfirst hlast
    have hvalues := @byteSpanContains_eq_false ⟨_, _⟩
      (validateAddressSpan_ok_iff.1 haccepts.valueSpan) _ hout
    have hstructure := @byteSpanContains_eq_false ⟨_, _⟩
      (validateAddressSpan_ok_iff.1 haccepts.offsetSpan) _ hoffsets
    have hstructure' := @byteSpanContains_eq_false ⟨_, _⟩
      (validateAddressSpan_ok_iff.1 haccepts.indexSpan) _ hindices
    simp only [mayAlias, hview.mayAlias_eq hhost]
    rw [Bool.or_eq_false_iff, Bool.or_eq_false_iff, Bool.or_eq_false_iff]
    exact ⟨⟨decide_eq_false hstart, hvalues⟩, hstructure, hstructure'⟩

theorem aliasMetadata_eq (leaf : ViewTerminal Cell V) :
    leaf.aliasMetadata = ⟨leaf.valueSpan.address, some leaf.valueSpan⟩ := by
  cases leaf <;> rfl

/-- The alias metadata of a leaf and of values apart from it do not overlap. -/
theorem ApartFrom.byteSpansOverlap_eq_false (h : leaf.ApartFrom values)
    (hhost : leaf.space = .host) (hnull : values.address = 0 → values.size = 0)
    (hinside : values.size ≤ uintptrMax - values.address) :
    Expression.byteSpansOverlap leaf.aliasMetadata ⟨values.address, some values⟩ = false := by
  have hleafNull := size_of_null hhost
  have hleafInside := h.inside
  rw [aliasMetadata_eq]
  simp only [Expression.byteSpansOverlap]
  by_cases hempty : leaf.valueSpan.size = 0 ∨ values.size = 0
  · rw [if_pos hempty]
  · rw [if_neg hempty, if_neg (by omega), if_neg (by omega), decide_eq_false_iff_not]
    have hdisjoint := h.values_apart.resolve_left (by omega)
    unfold Block.Disjoint at hdisjoint
    simp only [footprint] at hdisjoint
    omega

end Alias

end ViewTerminal

/-! ## The checks -/

/-- What `Evaluate` into sparse storage of a shape asks of the context and of the expression. -/
structure Evaluable (context : ExecutionContext) (expression : ViewExpression Cell V)
    (shape : List Int) : Prop where
  serial : context.backend = .serial
  built : expression.Built
  host : ∀ leaf ∈ expression.terminals, leaf.space = .host
  preserving : expression.sparsityEffect = .structurePreserving
  shape_eq : expression.shape = shape

section Checks

variable {context : ExecutionContext} {expression : ViewExpression Cell V}

theorem ViewTerminal.validateAccess_ok {leaf : ViewTerminal Cell V}
    (hserial : context.backend = .serial) (hhost : leaf.space = .host) :
    leaf.validateAccess context = .ok () := by
  have hsparse : validateSparseAccess .host context = .ok () := by
    rw [validateSparseAccess, validateSerialHost_ok_iff.2 hserial, Result.ok_bind, failIf,
      if_neg (not_not_intro rfl)]
  cases leaf with
  | dense view =>
    have hview : view.memorySpace = .host := hhost
    simp [ViewTerminal.validateAccess, DenseView.validateAccess, failIf, hserial, hview,
      ExecutionContext.canAccess_host hserial, Result.ok_bind]
  | coordinate view hview =>
    have hspace : view.memorySpace = .host := hhost
    rw [ViewTerminal.validateAccess, hspace]
    exact hsparse
  | compressed view hview =>
    have hspace : view.memorySpace = .host := hhost
    rw [ViewTerminal.validateAccess, hspace]
    exact hsparse

theorem validateAccess_ok (hserial : context.backend = .serial)
    (hhost : ∀ leaf ∈ expression.terminals, leaf.space = .host) :
    expression.validateAccess context = .ok () := by
  induction expression with
  | scalar value => rfl
  | terminal leaf => exact ViewTerminal.validateAccess_ok hserial (hhost leaf List.mem_cons_self)
  | negate operand ih => exact ih hhost
  | binary operation left right ihLeft ihRight =>
    have hterminals := List.forall_mem_append.1 hhost
    rw [ExpressionTree.validateAccess, ihLeft hterminals.1, Result.ok_bind]
    exact ihRight hterminals.2

theorem Evaluable.validateCommon_ok {destination : StoredDestination Cell V}
    (h : Evaluable context expression destination.shape) (hhost : destination.memorySpace = .host) :
    validateCommon context expression destination = .ok () := by
  have hrank : expression.rank = destination.shape.length := by
    rw [← h.shape_eq, ExpressionTree.length_shape h.built]
  have hspace : ¬ ∃ space ∈ expression.space, space ≠ .host ∨ context.canAccess space = false := by
    rintro ⟨space, hmem, hrefused⟩
    cases expression with
    | terminal leaf =>
      cases hmem
      have hleaf : leaf.space = .host := h.host leaf List.mem_cons_self
      have haccess := ExecutionContext.canAccess_host h.serial
      rcases hrefused with hother | hnone
      · exact hother hleaf
      · rw [show ExpressionPlacementAdapter.space leaf = .host from hleaf, haccess] at hnone
        cases hnone
    | scalar value => cases hmem
    | negate operand => cases hmem
    | binary operation left right => cases hmem
  simp only [validateCommon, Result.unit_bind_eq_ok_iff, Result.failIf_eq_ok_iff]
  refine ⟨validateSerialHost_ok_iff.2 h.serial, ?_, validateAccess_ok h.serial h.host, hspace,
    not_not_intro h.preserving, not_not_intro hrank, not_not_intro h.shape_eq⟩
  rw [hhost, ExecutionContext.canAccess_host h.serial]
  simp

/-- The leaves of a structure-preserving expression apart from the destination do not overlap it. -/
theorem validateNoOverlap_ok {type : Representation Cell V} {destination : StoredDestination Cell V}
    {address : Nat} (hregular : destination.Regular type address)
    (halias : destination.valueAlias =
      ⟨address, some ⟨address, destination.nonzeros * type.size⟩⟩)
    (hnull : address = 0 → destination.nonzeros = 0)
    (hinside : destination.nonzeros * type.size ≤ uintptrMax - address)
    (hhost : ∀ leaf ∈ expression.terminals, leaf.space = .host)
    (hapart : ∀ leaf ∈ expression.terminals,
      leaf.ApartFrom ⟨address, destination.nonzeros * type.size⟩) :
    validateNoOverlap expression destination = .ok () := by
  have hmayAlias : ∀ token, token ≠ 0 → address ≤ token →
      token < address + max (destination.nonzeros * type.size) 1 →
        expression.mayAlias token = false := by
    intro token htoken hfirst hlast
    apply ExpressionTree.mayAlias_eq_false_iff.2
    intro leaf hleaf
    exact ViewTerminal.mayAlias_eq_false (hhost leaf hleaf) (hapart leaf hleaf) htoken hfirst hlast
  have hpositions : ∀ position < destination.nonzeros,
      expression.mayAlias (address + position * type.size) = false := by
    intro position hposition
    have hsize := type.size_pos
    have hle := Nat.mul_le_mul_right type.size (Nat.succ_le_of_lt hposition)
    rw [Nat.succ_mul] at hle
    apply hmayAlias <;> omega
  rw [validateNoOverlap, Result.unit_bind_eq_ok_iff, Result.forM_eq_ok_iff, Result.failIf_eq_ok_iff]
  -- The loop asks about every stored element, the last test about the blocks as a whole.
  refine ⟨fun position hposition => ?_, ?_⟩
  · have hlt := List.mem_range.1 hposition
    rw [hregular.value_ok position hlt, Result.ok_bind, Result.failIf_eq_ok_iff,
      hpositions position hlt]
    exact Bool.false_ne_true
  · rw [Bool.not_eq_true]
    cases expression with
    | terminal leaf =>
      have hleaf := hapart leaf List.mem_cons_self
      have hleafHost := hhost leaf List.mem_cons_self
      have hoverlap := hleaf.byteSpansOverlap_eq_false hleafHost
        (fun hzero => by simp [hnull hzero]) hinside
      have hidentity : ¬ (leaf.valueSpan.address ≠ 0 ∧ leaf.valueSpan.address = address) := by
        rintro ⟨hne, heq⟩
        have hdisjoint := hleaf.values_apart.resolve_left hne
        unfold Block.Disjoint at hdisjoint
        simp only [footprint] at hdisjoint
        omega
      have hknown : (decide (address ≠ 0) && leaf.mayAlias address) = false := by
        by_cases hzero : address = 0
        · simp [hzero]
        · rw [Bool.and_eq_false_iff]
          exact .inr (hmayAlias address hzero le_rfl (by omega))
      have hsource : ExpressionPlacementAdapter.aliasMetadata leaf =
          ⟨leaf.valueSpan.address, some leaf.valueSpan⟩ := leaf.aliasMetadata_eq
      rw [ViewTerminal.aliasMetadata_eq] at hoverlap
      rw [halias]
      simp only [ExpressionTree.mayOverlap, ExpressionTree.aliasMetadata, hsource,
        Bool.or_eq_false_iff]
      exact ⟨⟨decide_eq_false hidentity, hoverlap⟩, hknown⟩
    | scalar value => rfl
    | negate operand => rfl
    | binary operation left right => rfl

end Checks

/-! ## The loop -/

/-- The stored values of a view. -/
def storedFamily (type : Representation Cell V) (address nonzeros : Nat) :
    ElementFamily type (Fin nonzeros) :=
  .ofOffsets type address (fun position => (position.val : Int))
    (fun position => Int.natCast_nonneg position.val)
    fun _ _ heq => Fin.ext (Int.ofNat.inj heq)

omit [Ring V] [DecidableEq V] in
theorem storedFamily_inside {type : Representation Cell V} {address nonzeros : Nat}
    (position : Fin nonzeros) :
    address ≤ (storedFamily type address nonzeros).address position ∧
      (storedFamily type address nonzeros).address position + type.size ≤
        address + nonzeros * type.size := by
  have hle := Nat.mul_le_mul_right type.size (Nat.succ_le_of_lt position.isLt)
  rw [Nat.succ_mul] at hle
  have haddress : (storedFamily type address nonzeros).address position =
      address + position.val * type.size := rfl
  omega

/-- A destination on the host whose values stand one behind the other at an address. -/
structure Located (type : Representation Cell V) (destination : StoredDestination Cell V)
    (address : Nat) : Prop extends destination.Regular type address where
  host : destination.memorySpace = .host
  inShape : ∀ position < destination.nonzeros, ∀ coordinate,
    destination.coordinateAt (position : Nat) = .ok coordinate →
      ExpressionTree.InShape coordinate destination.shape
  alias_eq : destination.valueAlias = ⟨address, some ⟨address, destination.nonzeros * type.size⟩⟩
  null : address = 0 → destination.nonzeros = 0
  inside : destination.nonzeros * type.size ≤ uintptrMax - address

section Runs

variable {type : Representation Cell V} {context : ExecutionContext}
  {expression : ViewExpression Cell V} {destination : StoredDestination Cell V} {address : Nat}

/-- What the loop has written is not read by an operand. -/
theorem read_of_untouched
    (hapart : ∀ leaf ∈ expression.terminals,
      leaf.ApartFrom ⟨address, destination.nonzeros * type.size⟩)
    (hhost : ∀ leaf ∈ expression.terminals, leaf.space = .host) {memory memory' : Nat → Cell}
    (huntouched : (storedFamily type address destination.nonzeros).Untouched memory memory')
    (coordinate : List Int) :
    expression.read memory' coordinate = expression.read memory coordinate := by
  symm
  apply ExpressionTree.read_congr
  intro leaf hleaf
  refine @agreeOn_of_untouched _ _ _ _ _ ⟨address, destination.nonzeros * type.size⟩ _
    storedFamily_inside ?_ _ _ huntouched
  rcases (hapart leaf hleaf).values_apart with hzero | hdisjoint
  · exact .inl (ViewTerminal.size_of_null (hhost leaf hleaf) hzero)
  · unfold Block.Disjoint at hdisjoint ⊢
    simp only [footprint] at hdisjoint ⊢
    omega

/-- Every stored value becomes the value that the expression had at its coordinate, and no check
fails on the way. -/
theorem evaluateStored_stores (h : Evaluable context expression destination.shape)
    (hlocated : Located type destination address)
    (hself : destination.isExactSelfAssignment expression = true → destination.nonzeros = 0)
    (hapart : ∀ leaf ∈ expression.terminals,
      leaf.ApartFrom ⟨address, destination.nonzeros * type.size⟩) (memory : Nat → Cell) :
    ∃ memory', Effect.exec (evaluateStored type context expression destination) memory =
        some (.ok (), memory') ∧
      (storedFamily type address destination.nonzeros).Untouched memory memory' ∧
      ∀ position < destination.nonzeros, ∀ coordinate,
        destination.coordinateAt (position : Nat) = .ok coordinate →
          expression.read memory coordinate =
            some (type.load memory' (address + position * type.size)) := by
  have hcommon := h.validateCommon_ok hlocated.host
  cases hexact : destination.isExactSelfAssignment expression with
  | true =>
    refine ⟨memory, ?_, .refl memory, fun position hposition => ?_⟩
    · rw [evaluateStored, hcommon, Effect.exec_ofResult_bind]
      simp only [hexact, if_true, Effect.exec_pure]
    · rw [hself hexact] at hposition
      exact absurd hposition (Nat.not_lt_zero position)
  | false =>
    have hoverlap := validateNoOverlap_ok hlocated.toRegular hlocated.alias_eq hlocated.null
      hlocated.inside h.host hapart
    -- Every position has a coordinate and the expression a value there.
    have hvalues : ∀ position : Fin destination.nonzeros, ∃ coordinate value,
        destination.coordinateAt (position.val : Nat) = .ok coordinate ∧
          expression.read memory coordinate = some value := by
      intro position
      rcases hlocated.coordinate_ok position position.isLt with ⟨coordinate, hcoordinate⟩
      have hshape := hlocated.inShape position position.isLt coordinate hcoordinate
      rw [← h.shape_eq] at hshape
      rcases ExpressionTree.exists_read h.built
        (fun leaf hleaf _ => ViewTerminal.exists_read (h.host leaf hleaf) memory) hshape with
        ⟨value, hvalue⟩
      exact ⟨coordinate, value, hcoordinate, hvalue⟩
    choose coordinate value hcoordinate hvalue using hvalues
    have hloop := @Effect.updates_of_local _ _ _ _
      (storedFamily type address destination.nonzeros) (writeStored type expression destination)
      (fun position _ => value position) memory (by
        intro position memory' huntouched
        have hread := read_of_untouched hapart h.host huntouched (coordinate position)
        rw [writeStored, hcoordinate, hlocated.value_ok position position.isLt,
          Effect.ofResult_ok_bind, Effect.ofResult_ok_bind, Effect.exec_read_bind,
          Effect.exec_check_bind, hread, hvalue]
        rfl)
    rcases hloop with ⟨memory', hrun, huntouched, hstored⟩
    refine ⟨memory', ?_, huntouched, fun position hposition other hother => ?_⟩
    · rw [evaluateStored, hcommon, Effect.exec_ofResult_bind]
      simp only [hexact, Bool.false_eq_true, if_false, hoverlap, Effect.exec_ofResult_bind]
      exact hrun
    · cases (hcoordinate ⟨position, hposition⟩).symm.trans hother
      rw [hvalue ⟨position, hposition⟩]
      exact congrArg some (congrFun hstored ⟨position, hposition⟩).symm

end Runs

/-! ## Views as destinations -/

section Views

variable {type : Representation Cell V} {context : ExecutionContext}
  {expression : ViewExpression Cell V}

/-- An operand apart from the destination is the destination only if nothing is stored. -/
theorem ViewTerminal.ApartFrom.null_of_same {leaf : ViewTerminal Cell V} {values : Block}
    (h : leaf.ApartFrom values) (hsame : leaf.valueSpan.address = values.address) :
    values.address = 0 := by
  rcases h.values_apart with hzero | hdisjoint
  · rw [← hsame, hzero]
  · unfold Block.Disjoint at hdisjoint
    simp only [footprint] at hdisjoint
    omega

theorem coordinate_located {rank : Nat} {view : CoordinateView (Stored type) rank}
    (hview : view.Checked) (hhost : view.memorySpace = .host) :
    Located type view.destination view.values.address where
  toRegular := view.destination_regular hhost
  host := hhost
  inShape position hposition coordinate hcoordinate := by
    have heq : view.destination.coordinateAt (position : Nat) =
        .ok (view.coordinates.read position).toList := by
      simp only [CoordinateView.destination, CoordinateView.coordinate_ok hhost hposition]
      rfl
    cases heq.symm.trans hcoordinate
    exact (hview.accepts hhost).inRange position hposition
  alias_eq := rfl
  null hzero := by
    by_contra hne
    exact hview.address_ne_zero hhost hne hzero
  inside := by
    rcases validateAddressSpan_ok_iff.1 (hview.accepts hhost).valueSpan with hempty | hspan
    · exact hempty.le.trans (Nat.zero_le _)
    · exact hspan.2

theorem coordinate_self {rank : Nat} {view : CoordinateView (Stored type) rank}
    (hview : view.Checked) (hhost : view.memorySpace = .host)
    (hapart : ∀ leaf ∈ expression.terminals, leaf.ApartFrom view.valueSpan)
    (hself : view.destination.isExactSelfAssignment expression = true) : view.nonzeros = 0 := by
  unfold CoordinateView.destination at hself
  simp only at hself
  split at hself
  · rename_i source hsource
    have hsame := (of_decide_eq_true hself).2.2.1
    have hleaf := hapart _ List.mem_cons_self
    by_contra hne
    exact hview.address_ne_zero hhost hne (hleaf.null_of_same hsame)
  · cases hself

/-- The coordinate of a stored position is in the shape. -/
theorem compressed_located {format : SparseCompressedFormat}
    {view : CompressedSparseView (Stored type) format} (hview : view.Checked)
    (hhost : view.memorySpace = .host) :
    Located type view.destination view.values.address where
  toRegular := view.destination_regular hhost hview
  host := hhost
  inShape position hposition coordinate hcoordinate := by
    have hcanonical : view.CanonicalArrays := (hview.accepts hhost).canonical
    rcases CompressedSparseView.coordinateAt_eq hcanonical hhost hposition with
      ⟨outer, houter, hunique, heq⟩
    -- The position lies in one slice, whose indices are in range.
    have hslice := (hunique outer houter).2 rfl
    have hinner := hcanonical.inRange outer houter position hslice.1 hslice.2
    have hdestination : view.destination.coordinateAt (position : Nat) =
        .ok (compressedCoordinate format outer (view.innerIndices.read position)).toList := by
      simp only [CompressedSparseView.destination, heq]
      rfl
    cases hdestination.symm.trans hcoordinate
    apply (@inRange_iff format _ _).2
    rw [outerOf_compressedCoordinate, innerOf_compressedCoordinate]
    have hextent : Sparse.outerExtent format view.shape = view.outerExtent := rfl
    have hextent' : Sparse.innerExtent format view.shape = view.innerExtent := rfl
    omega
  alias_eq := rfl
  null hzero := by
    by_contra hne
    exact hview.address_ne_zero hhost hne hzero
  inside := by
    rcases validateAddressSpan_ok_iff.1 (hview.accepts hhost).valueSpan with hempty | hspan
    · exact hempty.le.trans (Nat.zero_le _)
    · exact hspan.2

theorem compressed_self {format : SparseCompressedFormat}
    {view : CompressedSparseView (Stored type) format} (hview : view.Checked)
    (hhost : view.memorySpace = .host)
    (hapart : ∀ leaf ∈ expression.terminals, leaf.ApartFrom view.valueSpan)
    (hself : view.destination.isExactSelfAssignment expression = true) : view.nonzeros = 0 := by
  unfold CompressedSparseView.destination at hself
  simp only at hself
  split at hself
  · rename_i source hsource
    have hsame := (of_decide_eq_true hself).2.2.2.1
    have hleaf := hapart _ List.mem_cons_self
    by_contra hne
    exact hview.address_ne_zero hhost hne (hleaf.null_of_same hsame)
  · cases hself

/-- An evaluation does not write to the structure of its destination. -/
theorem structure_agrees {destination : ViewTerminal Cell V} {address nonzeros : Nat}
    (hdisjoint : ∀ block ∈ destination.structureBlocks,
      block.Disjoint ⟨address, nonzeros * type.size⟩) {memory memory' : Nat → Cell}
    (huntouched : (storedFamily type address nonzeros).Untouched memory memory') :
    ∀ block ∈ destination.structureBlocks, AgreeOn block memory memory' := by
  intro block hblock
  exact @agreeOn_of_untouched _ _ _ _ _ ⟨address, nonzeros * type.size⟩ _ storedFamily_inside
    (hdisjoint block hblock) _ _ huntouched

theorem coordinate_structure {rank : Nat} {view : CoordinateView (Stored type) rank}
    (hview : view.Checked) (hhost : view.memorySpace = .host) :
    ∀ block ∈ (ViewTerminal.coordinate view hview).structureBlocks,
      block.Disjoint view.valueSpan := by
  intro block hblock
  cases List.mem_singleton.1 hblock
  exact disjoint_of_byteSpansOverlap (hview.accepts hhost).apart

theorem compressed_structure {format : SparseCompressedFormat}
    {view : CompressedSparseView (Stored type) format} (hview : view.Checked)
    (hhost : view.memorySpace = .host) :
    ∀ block ∈ (ViewTerminal.compressed view hview).structureBlocks,
      block.Disjoint view.valueSpan := by
  have haccepts := hview.accepts hhost
  intro block hblock
  rcases List.mem_cons.1 hblock with rfl | hindices
  · exact disjoint_of_byteSpansOverlap haccepts.offsetsApartValues
  · cases List.mem_singleton.1 hindices
    exact disjoint_of_byteSpansOverlap haccepts.indicesApartValues

end Views

/-- `Evaluate` of a structure-preserving expression whose operands are apart from the destination
succeeds.  No check of a position fails, every stored value is the value that the expression had at
its coordinate, and all other cells, those of the structure among them, are as before.  The
coordinate of a position of a compressed view is that of the only slice that holds the position. -/
theorem evaluate_stores (type : Representation Cell V) (context : ExecutionContext)
    (expression : ViewExpression Cell V) (memory : Nat → Cell) :
    (∀ (rank : Nat) (view : CoordinateView (Stored type) rank) (hview : view.Checked),
      view.memorySpace = .host → Evaluable context expression view.extents.toList →
      (∀ leaf ∈ expression.terminals, leaf.ApartFrom view.valueSpan) →
        ∃ memory', Effect.exec (evaluateCoordinate context expression view) memory =
            some (.ok (), memory') ∧
          (∀ position < view.nonzeros,
            view.coordinate position = .ok (view.coordinates.read position) ∧
            view.elementAt position = .ok (view.values.address + position * type.size) ∧
            expression.read memory (view.coordinates.read position).toList =
              some (type.load memory' (view.values.address + position * type.size))) ∧
          (∀ block ∈ (ViewTerminal.coordinate view hview).structureBlocks,
            AgreeOn block memory memory') ∧
          (storedFamily type view.values.address view.nonzeros).Untouched memory memory') ∧
    (∀ (format : SparseCompressedFormat) (view : CompressedSparseView (Stored type) format)
        (hview : view.Checked),
      view.memorySpace = .host → Evaluable context expression view.shape.toList →
      (∀ leaf ∈ expression.terminals, leaf.ApartFrom view.valueSpan) →
        ∃ memory', Effect.exec (evaluateCompressed context expression view) memory =
            some (.ok (), memory') ∧
          (∀ position < view.nonzeros, ∃ outer < view.outerExtent.toNat,
            (∀ other < view.outerExtent.toNat,
              (view.outerOffsets.read other ≤ position ∧
                (position : Int) < view.outerOffsets.read (other + 1) ↔ other = outer)) ∧
            view.coordinateAt position =
              .ok (compressedCoordinate format outer (view.innerIndices.read position)) ∧
            view.elementAt position = .ok (view.values.address + position * type.size) ∧
            expression.read memory
                (compressedCoordinate format outer (view.innerIndices.read position)).toList =
              some (type.load memory' (view.values.address + position * type.size))) ∧
          (∀ block ∈ (ViewTerminal.compressed view hview).structureBlocks,
            AgreeOn block memory memory') ∧
          (storedFamily type view.values.address view.nonzeros).Untouched memory memory') := by
  -- Both formats instantiate the one loop over stored positions.
  constructor
  · intro rank view hview hhost hevaluable hapart
    rcases evaluateStored_stores hevaluable (coordinate_located hview hhost)
      (coordinate_self hview hhost hapart) hapart memory with ⟨memory', hrun, huntouched, hvalues⟩
    refine ⟨memory', hrun, fun position hposition => ?_,
      structure_agrees (coordinate_structure hview hhost) huntouched, huntouched⟩
    have hcoordinate := CoordinateView.coordinate_ok hhost hposition
    refine ⟨hcoordinate, CoordinateView.elementAt_ok hhost hposition,
      hvalues position hposition _ ?_⟩
    simp only [CoordinateView.destination, hcoordinate]
    rfl
  · intro format view hview hhost hevaluable hapart
    rcases evaluateStored_stores hevaluable (compressed_located hview hhost)
      (compressed_self hview hhost hapart) hapart memory with ⟨memory', hrun, huntouched, hvalues⟩
    refine ⟨memory', hrun, fun position hposition => ?_,
      structure_agrees (compressed_structure hview hhost) huntouched, huntouched⟩
    rcases CompressedSparseView.coordinateAt_eq (hview.accepts hhost).canonical hhost hposition with
      ⟨outer, houter, hunique, hcoordinate⟩
    refine ⟨outer, houter, hunique, hcoordinate, CompressedSparseView.elementAt_ok hhost hposition,
      hvalues position hposition _ ?_⟩
    simp only [CompressedSparseView.destination, hcoordinate]
    rfl

/-! ### A vector without entries, and a matrix with an empty row -/

/-- A vector without stored entries whose values begin where those of another vector stand. -/
def emptyVector : CoordinateView (Stored (Representation.uniform Int 8 8 Representation.eight_pos)) 1 :=
  .ofHost ⟨0, []⟩ ⟨16, []⟩ (1 ::ᵥ List.Vector.nil) 0

theorem emptyVector_checked : emptyVector.Checked := by
  rfl

def emptyOperand : ViewExpression Int Int :=
  .terminal (.coordinate emptyVector emptyVector_checked)

theorem emptyOperand_evaluable : Evaluable .serial emptyOperand [1] where
  serial := rfl
  built := .terminal _
  host leaf hleaf := by
    cases List.mem_singleton.1 hleaf
    rfl
  preserving := rfl
  shape_eq := rfl

/-- The operand has no storage that the storage of the destination could have a byte in common with,
and the evaluation is refused. -/
theorem evaluate_refuses_empty :
    storedVector.memorySpace = .host ∧ Evaluable .serial emptyOperand storedVector.extents.toList ∧
      (∀ leaf ∈ emptyOperand.terminals, ∀ block ∈ leaf.storage,
        ∀ other ∈ (ViewTerminal.coordinate storedVector storedVector_checked).storage,
          block.Disjoint other) ∧
      ∀ memory, Effect.exec (evaluateCoordinate .serial emptyOperand storedVector) memory =
        some (.error rejectOverlap, memory) := by
  refine ⟨rfl, emptyOperand_evaluable, fun leaf hleaf block hblock other _ => ?_, fun memory => rfl⟩
  cases List.mem_singleton.1 hleaf
  rcases List.mem_cons.1 hblock with rfl | hcoordinates
  · exact .inl rfl
  · cases List.mem_singleton.1 hcoordinates
    exact .inl rfl

/-- A vector apart from `storedVector`. -/
def otherVector : CoordinateView (Stored (Representation.uniform Int 8 8 Representation.eight_pos)) 1 :=
  .ofHost ⟨24, [0 ::ᵥ List.Vector.nil]⟩ ⟨32, []⟩ (1 ::ᵥ List.Vector.nil) 1

theorem otherVector_checked : otherVector.Checked := by
  rfl

/-- Three rows, of which only the middle one has an entry. -/
def middleRow : CompressedSparseView (Stored (Representation.uniform Int 8 8 Representation.eight_pos)) .csr :=
  .ofHost .csr ⟨40, [0, 0, 1, 1]⟩ ⟨72, [0]⟩ ⟨80, []⟩ ⟨[3, 1], rfl⟩ 1

theorem middleRow_checked : middleRow.Checked := by
  rfl

/-- The same matrix by columns, in other storage. -/
def middleColumn : CompressedSparseView (Stored (Representation.uniform Int 8 8 Representation.eight_pos)) .csc :=
  .ofHost .csc ⟨88, [0, 1]⟩ ⟨104, [1]⟩ ⟨112, []⟩ ⟨[3, 1], rfl⟩ 1

theorem middleColumn_checked : middleColumn.Checked := by
  rfl

def negatedVector : ViewExpression Int Int :=
  .negate (.terminal (.coordinate otherVector otherVector_checked))

def negatedMatrix : ViewExpression Int Int :=
  .negate (.terminal (.compressed middleColumn middleColumn_checked))

theorem negatedVector_evaluable : Evaluable .serial negatedVector [1] where
  serial := rfl
  built := .negate (.terminal _)
  host leaf hleaf := by
    cases List.mem_singleton.1 hleaf
    rfl
  preserving := rfl
  shape_eq := rfl

theorem negatedMatrix_evaluable : Evaluable .serial negatedMatrix [3, 1] where
  serial := rfl
  built := .negate (.terminal _)
  host leaf hleaf := by
    cases List.mem_singleton.1 hleaf
    rfl
  preserving := rfl
  shape_eq := rfl

theorem negatedVector_apart :
    ∀ leaf ∈ negatedVector.terminals, leaf.ApartFrom storedVector.valueSpan := by
  intro leaf hleaf
  cases List.mem_singleton.1 hleaf
  exact
    { inside := by decide
      values_apart := .inr (.inr (.inr (.inr (by decide))))
      structure_apart := fun block hblock => by
        cases List.mem_singleton.1 hblock
        exact .inr (.inr (.inr (by decide))) }

theorem negatedMatrix_apart :
    ∀ leaf ∈ negatedMatrix.terminals, leaf.ApartFrom middleRow.valueSpan := by
  intro leaf hleaf
  cases List.mem_singleton.1 hleaf
  exact
    { inside := by decide
      values_apart := .inr (.inr (.inr (.inr (by decide))))
      structure_apart := fun block hblock => by
        rcases List.mem_cons.1 hblock with rfl | hindices
        · exact .inr (.inr (.inr (by decide)))
        · cases List.mem_singleton.1 hindices
          exact .inr (.inr (.inr (by decide))) }

theorem evaluate_stores_sample :
    (∃ memory', Effect.exec (evaluateCoordinate .serial negatedVector storedVector) (fun _ => 7) =
        some (.ok (), memory') ∧ negatedVector.read (fun _ => 7) [0] = some (memory' 16)) ∧
      ∃ memory', Effect.exec (evaluateCompressed .serial negatedMatrix middleRow) (fun _ => 7) =
        some (.ok (), memory') ∧ negatedMatrix.read (fun _ => 7) [1, 0] = some (memory' 80) := by
  constructor
  · rcases (evaluate_stores _ .serial negatedVector (fun _ => 7)).1 1 storedVector
      storedVector_checked rfl negatedVector_evaluable negatedVector_apart with
      ⟨memory', hrun, hvalues, -, -⟩
    exact ⟨memory', hrun, (hvalues 0 (by decide)).2.2⟩
  · rcases (evaluate_stores _ .serial negatedMatrix (fun _ => 7)).2 .csr middleRow
      middleRow_checked rfl negatedMatrix_evaluable negatedMatrix_apart with
      ⟨memory', hrun, hvalues, -, -⟩
    rcases hvalues 0 (by decide) with ⟨outer, houter, hunique, -, -, hread⟩
    have hrow : 1 = outer := (hunique 1 (by decide)).1 ⟨by decide, by decide⟩
    subst hrow
    exact ⟨memory', hrun, hread⟩

end Expression
end AscCpp
