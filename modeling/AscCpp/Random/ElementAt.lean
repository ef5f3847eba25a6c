import AscCpp.Core.Outcome
import AscCpp.Dense.View

/-!
# ElementAt — the elements of vectors and matrices by their indices

The dense generators find an element by its indices alone, without a check.

- `elementAt_eq`: inside the extents this is the element of the view.
- `vectorFamily`, `matrixFamily`: the elements of a vector and of a matrix, apart from each other.
- `overlap_eq_false`: views that do not overlap share no byte.
-/

namespace AscCpp
namespace Random

open AscCpp.Core Library AscCpp.Dense

variable {Cell V : Type} {type : Representation Cell V} {rank : Nat}

/-- The address that `ElementAt` finds; the arithmetic is that of `std::size_t`. -/
def elementAt (view : DenseView type rank) (coordinates : List.Vector Nat rank) : Nat :=
  let offset := (List.finRange rank).foldl
    (fun offset dimension => (offset +
      coordinates.get dimension * (view.mapping.strides.get dimension).toNat % 2 ^ 64) % 2 ^ 64) 0
  view.data + offset * type.size

def vectorAt (view : DenseView type 1) (index : Nat) : Nat :=
  elementAt view (index ::ᵥ .nil)

def matrixAt (view : DenseView type 2) (row column : Nat) : Nat :=
  elementAt view (row ::ᵥ column ::ᵥ .nil)

/-- `ByteRangesOverlap`. -/
def byteRangesOverlap (left leftSize right rightSize : Nat) : Bool :=
  if leftSize = 0 ∨ rightSize = 0 then
    false
  else if leftSize > uintptrMax - left ∨ rightSize > uintptrMax - right then
    true
  else
    decide (left < right + rightSize ∧ right < left + leftSize)

def denseViewsOverlap {rank' : Nat} (left : DenseView type rank) (right : DenseView type rank') :
    Bool :=
  byteRangesOverlap left.data left.valueSpan.size right.data right.valueSpan.size

/-! ## The element -/

theorem foldl_offset {ι : Type} {strides : ι → Int} {coordinates : ι → Nat} {dimensions : List ι}
    (hstrides : ∀ dimension ∈ dimensions, 0 ≤ strides dimension) (offset : Nat) :
    ((dimensions.foldl (fun offset dimension =>
        (offset + coordinates dimension * (strides dimension).toNat % 2 ^ 64) % 2 ^ 64)
        (offset % 2 ^ 64) : Nat) : Int) =
      (offset + strideSum (fun dimension => (coordinates dimension : Int)) strides dimensions) %
        2 ^ 64 := by
  -- Each round wraps; the sum modulo the word is the same as if only the end did.
  induction dimensions generalizing offset with
  | nil => simp
  | cons dimension dimensions ih =>
    rw [List.forall_mem_cons] at hstrides
    have hround : (offset % 2 ^ 64 +
        coordinates dimension * (strides dimension).toNat % 2 ^ 64) % 2 ^ 64 =
          (offset + coordinates dimension * (strides dimension).toNat) % 2 ^ 64 :=
      (Nat.add_mod _ _ _).symm
    have hstride : ((strides dimension).toNat : Int) = strides dimension :=
      Int.toNat_of_nonneg hstrides.1
    rw [List.foldl_cons, hround, ih hstrides.2, strideSum_cons]
    push_cast
    rw [hstride, add_assoc]

theorem elementAt_eq {view : DenseView type rank} {coordinates : List.Vector Nat rank}
    {indices : List.Vector Int rank}
    (hindices : ∀ dimension, indices.get dimension = coordinates.get dimension)
    (h : view.mapping.InBounds indices) : elementAt view coordinates = view.addressOf indices := by
  have hspan := view.mapping.requiredSpanSize_eq h.nonempty
  have hnonneg := h.strideSum_nonneg
  have hle := h.strideSum_le
  have hmaximum : int64.maximum = 9223372036854775807 := by decide
  have hget : indices.get = fun dimension => (coordinates.get dimension : Int) := funext hindices
  have hfold := @foldl_offset _ view.mapping.strides.get coordinates.get (List.finRange rank)
    (fun dimension _ => view.mapping.strides_nonneg dimension) 0
  -- The offset is below the span, so nothing wraps around.
  rw [Nat.cast_zero, zero_add, ← hget, Int.emod_eq_of_lt hnonneg (by omega)] at hfold
  unfold elementAt DenseView.addressOf DenseView.offsetOf
  rw [← hfold]
  rfl

/-! ## Vectors and matrices -/

section Families

variable {vector : DenseView type 1} {matrix : DenseView type 2}

theorem vector_inBounds {index : Nat} (h : (index : Int) < vector.mapping.extents.get 0) :
    vector.mapping.InBounds ((index : Int) ::ᵥ .nil) := by
  intro dimension
  have hdimension : dimension = 0 := Fin.eq_zero dimension
  subst hdimension
  exact ⟨Int.natCast_nonneg _, h⟩

theorem matrix_inBounds {row column : Nat} (hrow : (row : Int) < matrix.mapping.extents.get 0)
    (hcolumn : (column : Int) < matrix.mapping.extents.get 1) :
    matrix.mapping.InBounds ((row : Int) ::ᵥ (column : Int) ::ᵥ .nil) := by
  intro dimension
  match dimension with
  | 0 => exact ⟨Int.natCast_nonneg _, hrow⟩
  | 1 => exact ⟨Int.natCast_nonneg _, hcolumn⟩

theorem vectorAt_eq {index : Nat} (h : (index : Int) < vector.mapping.extents.get 0) :
    vectorAt vector index = vector.addressOf ((index : Int) ::ᵥ .nil) := by
  refine elementAt_eq (fun dimension => ?_) (vector_inBounds h)
  have hdimension : dimension = 0 := Fin.eq_zero dimension
  subst hdimension
  rfl

theorem matrixAt_eq {row column : Nat} (hrow : (row : Int) < matrix.mapping.extents.get 0)
    (hcolumn : (column : Int) < matrix.mapping.extents.get 1) :
    matrixAt matrix row column = matrix.addressOf ((row : Int) ::ᵥ (column : Int) ::ᵥ .nil) := by
  refine elementAt_eq (fun dimension => ?_) (matrix_inBounds hrow hcolumn)
  match dimension with
  | 0 => rfl
  | 1 => rfl

/-- The elements of a vector. -/
def vectorFamily (vector : DenseView type 1) {count : Nat}
    (hcount : vector.mapping.extents.get 0 = count) : ElementFamily type (Fin count) where
  address index := vectorAt vector index
  apart index other hne := by
    have hindex : ((index : Nat) : Int) < vector.mapping.extents.get 0 := by omega
    have hother : ((other : Nat) : Int) < vector.mapping.extents.get 0 := by omega
    rw [vectorAt_eq hindex, vectorAt_eq hother]
    apply DenseView.addressOf_apart (vector_inBounds hindex) (vector_inBounds hother)
    intro heq
    have hhead := congrArg List.Vector.head heq
    exact hne (Fin.ext (Int.ofNat_inj.1 hhead))

/-- The elements of a matrix. -/
def matrixFamily (matrix : DenseView type 2) {rows columns : Nat}
    (hrows : matrix.mapping.extents.get 0 = rows)
    (hcolumns : matrix.mapping.extents.get 1 = columns) :
    ElementFamily type (Fin rows × Fin columns) where
  address place := matrixAt matrix place.1 place.2
  apart place other hne := by
    have hrow : ((place.1 : Nat) : Int) < matrix.mapping.extents.get 0 := by omega
    have hcolumn : ((place.2 : Nat) : Int) < matrix.mapping.extents.get 1 := by omega
    have hrow' : ((other.1 : Nat) : Int) < matrix.mapping.extents.get 0 := by omega
    have hcolumn' : ((other.2 : Nat) : Int) < matrix.mapping.extents.get 1 := by omega
    rw [matrixAt_eq hrow hcolumn, matrixAt_eq hrow' hcolumn']
    apply DenseView.addressOf_apart (matrix_inBounds hrow hcolumn) (matrix_inBounds hrow' hcolumn')
    intro heq
    have hhead := congrArg List.Vector.head heq
    have htail := congrArg (fun indices => List.Vector.head (List.Vector.tail indices)) heq
    exact hne (Prod.ext (Fin.ext (Int.ofNat_inj.1 hhead)) (Fin.ext (Int.ofNat_inj.1 htail)))

end Families

/-! ## Views apart from each other -/

theorem disjoint_of_byteRanges {left right : Block}
    (h : byteRangesOverlap left.address left.size right.address right.size = false) :
    left.Disjoint right := by
  unfold byteRangesOverlap at h
  unfold Block.Disjoint
  split at h
  · omega
  split at h
  · cases h
  · have hapart := of_decide_eq_false h
    omega

theorem overlap_eq_false {rank' : Nat} {left : DenseView type rank} {right : DenseView type rank'}
    (h : denseViewsOverlap left right = false) : left.valueSpan.Disjoint right.valueSpan :=
  disjoint_of_byteRanges h

/-- Elements of views without a common byte are apart. -/
theorem addressOf_apart_of_disjoint {W : Type} {type' : Representation Cell W} {rank' : Nat}
    {left : DenseView type rank} {right : DenseView type' rank'}
    (h : left.valueSpan.Disjoint right.valueSpan)
    {indices : List.Vector Int rank} {indices' : List.Vector Int rank'}
    (hleft : left.mapping.InBounds indices) (hright : right.mapping.InBounds indices') :
    left.addressOf indices + type.size ≤ right.addressOf indices' ∨
      right.addressOf indices' + type'.size ≤ left.addressOf indices := by
  have hinside := DenseView.addressOf_le hleft
  have hinside' := DenseView.addressOf_le hright
  have hsize := type.size_pos
  have hsize' := type'.size_pos
  have haddress : left.valueSpan.address = left.data := rfl
  have haddress' : right.valueSpan.address = right.data := rfl
  unfold Block.Disjoint at h
  omega

/-! ## Components and entries -/

def component (vector : DenseView type 1) (memory : Nat → Cell) (index : Nat) : V :=
  type.load memory (vectorAt vector index)

def entry (matrix : DenseView type 2) (memory : Nat → Cell) (row column : Nat) : V :=
  type.load memory (matrixAt matrix row column)

section Entries

variable {vector : DenseView type 1} {matrix : DenseView type 2} {count rows columns : Nat}
  {memory memory' : Nat → Cell} {value : V}

theorem component_store (hcount : vector.mapping.extents.get 0 = count) {index other : Nat}
    (hindex : index < count) (hother : other < count) :
    component vector (type.store memory (vectorAt vector index) value) other =
      if other = index then value else component vector memory other := by
  have hvalues := (vectorFamily vector hcount).values_store memory ⟨index, hindex⟩ value
  have hvalue := congrFun hvalues ⟨other, hother⟩
  rw [Function.update_apply] at hvalue
  refine hvalue.trans (if_congr ?_ rfl rfl)
  simp

theorem entry_store (hrows : matrix.mapping.extents.get 0 = rows)
    (hcolumns : matrix.mapping.extents.get 1 = columns) {row column row' column' : Nat}
    (hrow : row < rows) (hcolumn : column < columns) (hrow' : row' < rows)
    (hcolumn' : column' < columns) :
    entry matrix (type.store memory (matrixAt matrix row column) value) row' column' =
      if (row', column') = (row, column) then value else entry matrix memory row' column' := by
  have hvalues := (matrixFamily matrix hrows hcolumns).values_store memory
    (⟨row, hrow⟩, ⟨column, hcolumn⟩) value
  have hvalue := congrFun hvalues (⟨row', hrow'⟩, ⟨column', hcolumn'⟩)
  rw [Function.update_apply] at hvalue
  refine hvalue.trans (if_congr ?_ rfl rfl)
  simp

/-- The elements of the family are elements of the view. -/
def Inside {ι : Type} (family : ElementFamily type ι) (view : DenseView type rank) : Prop :=
  ∀ item, ∃ indices, view.mapping.InBounds indices ∧ family.address item = view.addressOf indices

theorem vectorFamily_inside (hcount : vector.mapping.extents.get 0 = count) :
    Inside (vectorFamily vector hcount) vector := by
  intro index
  have hindex : ((index : Nat) : Int) < vector.mapping.extents.get 0 := by omega
  exact ⟨_, vector_inBounds hindex, vectorAt_eq hindex⟩

theorem matrixFamily_inside (hrows : matrix.mapping.extents.get 0 = rows)
    (hcolumns : matrix.mapping.extents.get 1 = columns) :
    Inside (matrixFamily matrix hrows hcolumns) matrix := by
  intro place
  have hrow : ((place.1 : Nat) : Int) < matrix.mapping.extents.get 0 := by omega
  have hcolumn : ((place.2 : Nat) : Int) < matrix.mapping.extents.get 1 := by omega
  exact ⟨_, matrix_inBounds hrow hcolumn, matrixAt_eq hrow hcolumn⟩

section Frames

variable {ι : Type} {family : ElementFamily type ι} {view : DenseView type rank}

theorem load_of_untouched {W : Type} {type' : Representation Cell W} {rank' : Nat}
    {other : DenseView type' rank'} (hinside : Inside family view)
    (hdisjoint : view.valueSpan.Disjoint other.valueSpan) (h : family.Untouched memory memory')
    {indices : List.Vector Int rank'} (hindices : other.mapping.InBounds indices) :
    type'.load memory' (other.addressOf indices) = type'.load memory (other.addressOf indices) := by
  apply h.load_eq
  intro item
  rcases hinside item with ⟨indices', hindices', haddress⟩
  rw [haddress]
  exact addressOf_apart_of_disjoint hdisjoint.symm hindices hindices'

theorem component_of_untouched (hinside : Inside family view)
    (hdisjoint : view.valueSpan.Disjoint vector.valueSpan) (h : family.Untouched memory memory')
    {index : Nat} (hindex : (index : Int) < vector.mapping.extents.get 0) :
    component vector memory' index = component vector memory index := by
  unfold component
  rw [vectorAt_eq hindex]
  exact load_of_untouched hinside hdisjoint h (vector_inBounds hindex)

theorem entry_of_untouched {W : Type} {type' : Representation Cell W} {matrix : DenseView type' 2}
    (hinside : Inside family view) (hdisjoint : view.valueSpan.Disjoint matrix.valueSpan) (h : family.Untouched memory memory')
    {row column : Nat} (hrow : (row : Int) < matrix.mapping.extents.get 0)
    (hcolumn : (column : Int) < matrix.mapping.extents.get 1) :
    entry matrix memory' row column = entry matrix memory row column := by
  unfold entry
  rw [matrixAt_eq hrow hcolumn]
  exact load_of_untouched hinside hdisjoint h (matrix_inBounds hrow hcolumn)

end Frames

end Entries

end Random
end AscCpp
