import AscCpp.Library.InPlace
import AscCpp.Sparse.Spmv

/-!
# VectorFamily — the elements behind a vector view

A dense view, and a coordinate view that stores every row, give the rows of a vector elements of
their own.

- `VectorView.read_eq_value`: inside its extent a vector can be read, whatever memory holds.
- `VectorView.read_element`, `VectorView.exec_write`: reading and writing a vector that stores every
  row is reading and writing its elements.
- `VectorView.write_unstored`: the writable protocol stops at a row that is not stored.
-/

namespace AscCpp
namespace Sparse

open AscCpp.Core Library Expression AscCpp.Dense

variable {Cell V : Type} {type : Representation Cell V}

/-- Strictly increasing integers are their positions, when there are no others in their range. -/
theorem eq_position_of_increasing {index : Nat → Int} {count : Nat}
    (hincreasing : ∀ position, position + 1 < count → index position < index (position + 1))
    (hrange : ∀ position < count, 0 ≤ index position ∧ index position < count) {position : Nat}
    (hposition : position < count) : index position = position := by
  -- Counting from the front an index is at least its position, from the back at most.
  have hlower : ∀ position < count, (position : Int) ≤ index position := by
    intro position
    induction position with
    | zero => exact fun hlt => (hrange 0 hlt).1
    | succ position ih =>
      intro hlt
      have hprevious := ih (by omega)
      have hstep := hincreasing position hlt
      omega
  have hupper : ∀ gap < count, index (count - 1 - gap) ≤ ((count - 1 - gap : Nat) : Int) := by
    intro gap
    induction gap with
    | zero =>
      intro hlt
      have hlast := (hrange (count - 1) (by omega)).2
      rw [Nat.sub_zero]
      omega
    | succ gap ih =>
      intro hlt
      have hlater := ih (by omega)
      have hstep := hincreasing (count - 1 - (gap + 1)) (by omega)
      rw [show count - 1 - (gap + 1) + 1 = count - 1 - gap by omega] at hstep
      omega
  have hleft := hlower position hposition
  have hright := hupper (count - 1 - position) (by omega)
  rw [show count - 1 - (count - 1 - position) = position by omega] at hright
  omega

/-- A coordinate of rank one is its index. -/
theorem single_eq (coordinate : Coordinate 1) : coordinate = ⟨[coordinate.get 0], rfl⟩ := by
  rcases coordinate with ⟨_ | ⟨index, _ | ⟨more, rest⟩⟩, hlength⟩
  · cases hlength
  · rfl
  · cases hlength

theorem single_lt_iff {left right : Coordinate 1} : left < right ↔ left.get 0 < right.get 0 := by
  rw [single_eq left, single_eq right]
  change [left.get 0] < [right.get 0] ↔ _
  simp [List.cons_lt_cons_iff, List.Vector.get]

theorem prod_single (extents : Shape 1) : extents.toList.prod = extents.get 0 := by
  rw [single_eq extents]
  simp [List.Vector.toList, List.Vector.get]

theorem inRange_single {index : Int} {extents : Shape 1} :
    InRange ⟨[index], rfl⟩ extents ↔ 0 ≤ index ∧ index < extents.get 0 := by
  rcases extents with ⟨_ | ⟨extent, _ | ⟨more, rest⟩⟩, hlength⟩
  · cases hlength
  · simp [InRange, List.Vector.toList, List.Vector.get]
  · cases hlength

theorem inBounds_single {layout : DenseLayout 1} {index : Int} :
    layout.InBounds ⟨[index], rfl⟩ ↔ 0 ≤ index ∧ index < layout.extents.get 0 := by
  unfold DenseLayout.InBounds Within
  rw [Fin.forall_fin_one]
  rfl

variable [Ring V] [DecidableEq V]

theorem CoordinateView.lookup_total {E : Type} [SparseElement E] {view : CoordinateView E 1}
    (hhost : view.memorySpace = .host) {coordinate : Coordinate 1}
    (hrange : InRange coordinate view.extents) : ∃ value, view.lookup coordinate = .ok value := by
  rw [CoordinateView.lookup, CoordinateView.validateHostAccess, failIf,
    if_neg (by simpa using hhost), Result.ok_bind, validateCoordinate_ok_iff.2 hrange,
    Result.ok_bind]
  simp only
  split
  · exact ⟨_, rfl⟩
  · split
    · exact ⟨_, rfl⟩
    · exact ⟨_, rfl⟩

namespace VectorView

variable {index : IndexRepresentation Cell} {vector : VectorView type} {memory memory' : Nat → Cell}

/-- The value of a row. -/
def value (index : IndexRepresentation Cell) (vector : VectorView type) (memory : Nat → Cell)
    (position : Int) : V :=
  (vector.read index memory position).getD 0

/-- Memory holds the coordinates with which a coordinate view was made. -/
def Holds (index : IndexRepresentation Cell) (memory : Nat → Cell) : VectorView type → Prop
  | dense _ => True
  | coordinate view _ => view.placed index memory = view

/-- Memories agree on what a vector is read from. -/
def AgreeOn (memory memory' : Nat → Cell) (vector : VectorView type) : Prop :=
  Core.AgreeOn vector.terminal.valueSpan memory memory' ∧
    match vector with
    | dense _ => True
    | coordinate view _ => Core.AgreeOn view.coordinateSpan memory memory'

/-- Inside its extent a vector can be read, whatever memory holds. -/
theorem read_eq_value (hhost : vector.terminal.space = .host) {position : Int}
    (hposition : 0 ≤ position) (hextent : position < vector.extent) (memory : Nat → Cell) :
    vector.read index memory position = some (vector.value index memory position) := by
  have hsome : ∃ value, vector.read index memory position = some value := by
    cases vector with
    | dense view =>
      exact ⟨_, DenseView.read_eq hhost (inBounds_single.2 ⟨hposition, hextent⟩) memory⟩
    | coordinate view hview =>
      have hrange : InRange ⟨[position], rfl⟩ view.extents :=
        inRange_single.2 ⟨hposition, hextent⟩
      rcases @CoordinateView.lookup_total _ _ ((view.placed index memory).load memory) hhost _
        hrange with ⟨value, hvalue⟩
      refine ⟨value, ?_⟩
      have hread : (view.placed index memory).read memory [position] =
          (((view.placed index memory).load memory).lookup ⟨[position], rfl⟩).toOption :=
        CoordinateView.read_eq_lookup memory ⟨[position], rfl⟩
      rw [hvalue] at hread
      exact hread
  rcases hsome with ⟨value, hread⟩
  rw [VectorView.value, hread]
  rfl

/-- A vector is read in the bytes of its values and of its coordinates only. -/
theorem read_congr (hhost : vector.terminal.space = .host) {position : Int}
    (hposition : 0 ≤ position) (hextent : position < vector.extent)
    (h : vector.AgreeOn memory memory') :
    vector.read index memory position = vector.read index memory' position := by
  cases vector with
  | dense view =>
    have hbounds : view.mapping.InBounds ⟨[position], rfl⟩ :=
      inBounds_single.2 ⟨hposition, hextent⟩
    have hinside := DenseView.addressOf_le hbounds
    change view.read memory ⟨[position], rfl⟩ = view.read memory' ⟨[position], rfl⟩
    rw [DenseView.read_eq hhost hbounds, DenseView.read_eq hhost hbounds]
    apply congrArg some
    apply type.load_congr
    intro cell hfirst hlast
    exact h.1 cell (hinside.1.trans hfirst) (hlast.trans_le hinside.2)
  | coordinate view hview =>
    have hvalues : loadValues type memory view.values.address view.nonzeros =
        loadValues type memory' view.values.address view.nonzeros := by
      unfold loadValues
      congr 1
      apply List.map_congr_left
      intro position hposition
      exact load_congr_block h.1 (List.mem_range.1 hposition)
    have hload : (view.placed index memory).load memory =
        (view.placed index memory').load memory' := by
      rw [CoordinateView.placed_congr h.2]
      exact congrArg (fun values =>
        ({ view.placed index memory' with values := values } : CoordinateView V 1)) hvalues
    change (view.placed index memory).read memory [position] =
      (view.placed index memory').read memory' [position]
    rw [CoordinateView.read, hload]
    rfl

/-- Every row of the vector has an element: dense vectors, and coordinate vectors without an
unstored row. -/
def StoresEveryRow : VectorView type → Prop
  | dense _ => True
  | coordinate view _ => (view.nonzeros : Int) = view.extents.get 0

/-- Where the element of a row stands, if every row has one. -/
def elementAddress : VectorView type → Nat → Nat
  | dense view, row => view.addressOf ⟨[(row : Int)], rfl⟩
  | coordinate view _, row => view.values.address + row * type.size

/-! ## Dense vectors -/

omit [Ring V] [DecidableEq V] in
theorem inBounds_row {view : DenseView type 1} {row : Nat}
    (hrow : (row : Int) < view.mapping.extents.get 0) :
    view.mapping.InBounds ⟨[(row : Int)], rfl⟩ :=
  inBounds_single.2 ⟨Int.natCast_nonneg _, hrow⟩

theorem row_ne {row other : Nat} (h : row ≠ other) :
    (⟨[(row : Int)], rfl⟩ : Coordinate 1) ≠ ⟨[(other : Int)], rfl⟩ := by
  intro heq
  have hlist := congrArg List.Vector.toList heq
  simp only [List.Vector.toList, List.cons.injEq, Nat.cast_inj, and_true] at hlist
  exact h hlist

/-! ## Coordinate vectors -/

/-- Values that stand one behind the other. -/
def storedFamily (type : Representation Cell V) (address count : Nat) :
    ElementFamily type (Fin count) where
  address row := address + row.val * type.size
  apart row other hne := by
    have hval : row.val ≠ other.val := fun heq => hne (Fin.ext heq)
    rcases Nat.lt_or_gt_of_ne hval with hlt | hgt
    · have hle := Nat.mul_le_mul_right type.size (Nat.succ_le_of_lt hlt)
      rw [Nat.succ_mul] at hle
      omega
    · have hle := Nat.mul_le_mul_right type.size (Nat.succ_le_of_lt hgt)
      rw [Nat.succ_mul] at hle
      omega

section Coordinates

variable {view : CoordinateView (Stored type) 1}

/-- The loop of `Write` ends at the only stored coordinate that is the sought one. -/
theorem writeFrom_stored (hhost : view.memorySpace = .host) {coordinate : Coordinate 1} {found : Nat}
    {value : V} {positions : List Nat} (hpositions : ∀ position ∈ positions,
      position < view.nonzeros ∧ (view.coordinates.read position = coordinate → position = found))
    (hfound : found ∈ positions) (hcoordinate : view.coordinates.read found = coordinate) :
    view.writeFrom coordinate value positions =
      Effect.store type (view.values.address + found * type.size) value := by
  -- The loop stops at the first position with the coordinate, which is the only one.
  induction positions with
  | nil => cases hfound
  | cons position positions ih =>
    rw [List.forall_mem_cons] at hpositions
    rw [CoordinateView.writeFrom, CoordinateView.coordinate_ok hhost hpositions.1.1]
    change (if compareCoordinates (view.coordinates.read position) coordinate = 0 then _ else _) = _
    by_cases heq : view.coordinates.read position = coordinate
    · cases hpositions.1.2 heq
      rw [if_pos (compareCoordinates_eq_zero_iff.2 heq),
        CoordinateView.elementAt_ok hhost hpositions.1.1]
      rfl
    · have hlater : found ∈ positions := by
        rcases List.mem_cons.1 hfound with rfl | hlater
        · exact absurd hcoordinate heq
        · exact hlater
      rw [if_neg fun hcompare => heq (compareCoordinates_eq_zero_iff.1 hcompare)]
      exact ih hpositions.2 hlater

/-- Without the sought coordinate the loop of `Write` stops the program. -/
theorem exec_writeFrom_unstored (hhost : view.memorySpace = .host) {coordinate : Coordinate 1}
    {value : V} {positions : List Nat} (hpositions : ∀ position ∈ positions,
      position < view.nonzeros ∧ view.coordinates.read position ≠ coordinate)
    (memory : Nat → Cell) :
    Effect.exec (view.writeFrom coordinate value positions) memory = none := by
  induction positions with
  | nil => rfl
  | cons position positions ih =>
    rw [List.forall_mem_cons] at hpositions
    rw [CoordinateView.writeFrom, CoordinateView.coordinate_ok hhost hpositions.1.1]
    change Effect.exec
      (if compareCoordinates (view.coordinates.read position) coordinate = 0 then _ else _) _ = none
    rw [if_neg fun hcompare => hpositions.1.2 (compareCoordinates_eq_zero_iff.1 hcompare)]
    exact ih hpositions.2

/-- The loop of `Write` ends, if at all, with one of the stored values replaced. -/
theorem exec_writeFrom_some (hhost : view.memorySpace = .host) {coordinate : Coordinate 1}
    {value : V} {positions : List Nat} (hpositions : ∀ position ∈ positions,
      position < view.nonzeros) {memory memory' : Nat → Cell} {result : Result Unit}
    (hrun : Effect.exec (view.writeFrom coordinate value positions) memory =
      some (result, memory')) :
    result = .ok () ∧ ∃ position < view.nonzeros,
      memory' = type.store memory (view.values.address + position * type.size) value := by
  induction positions with
  | nil => cases hrun
  | cons position positions ih =>
    rw [List.forall_mem_cons] at hpositions
    rw [CoordinateView.writeFrom, CoordinateView.coordinate_ok hhost hpositions.1] at hrun
    change Effect.exec (if compareCoordinates (view.coordinates.read position) coordinate = 0 then _
      else _) _ = _ at hrun
    by_cases heq : compareCoordinates (view.coordinates.read position) coordinate = 0
    · rw [if_pos heq, CoordinateView.elementAt_ok hhost hpositions.1] at hrun
      cases hrun
      exact ⟨rfl, position, hpositions.1, rfl⟩
    · rw [if_neg heq] at hrun
      exact ih hpositions.2 hrun

/-- `Write` ends, if at all, with what is apart from the values as it was. -/
theorem exec_write_some (hhost : view.memorySpace = .host) {coordinate : Coordinate 1}
    {value : V} {memory memory' : Nat → Cell} {result : Result Unit}
    (hrun : Effect.exec (view.write coordinate value) memory = some (result, memory')) :
    result = .ok () ∧ ∀ block : Block, block.Disjoint view.valueSpan →
      Core.AgreeOn block memory memory' := by
  unfold CoordinateView.write at hrun
  rw [Effect.exec_read_bind, Effect.exec_check_bind] at hrun
  rcases Option.bind_eq_some_iff.1 hrun with ⟨old, -, hwrite⟩
  rcases exec_writeFrom_some hhost (fun position hposition => List.mem_range.1 hposition) hwrite with
    ⟨hresult, position, hposition, rfl⟩
  refine ⟨hresult, fun block hapart cell hfirst hlast => ?_⟩
  have hle := Nat.mul_le_mul_right type.size (Nat.succ_le_of_lt hposition)
  have hsize := type.size_pos
  rw [Nat.succ_mul] at hle
  simp only [Block.Disjoint, CoordinateView.valueSpan] at hapart
  exact (type.store_outside (by omega)).symm

variable (hview : view.Checked) (hhost : view.memorySpace = .host)

include hview hhost

theorem coordinate_bounds {position : Nat} (hposition : position < view.nonzeros) :
    0 ≤ (view.coordinates.read position).get 0 ∧
      (view.coordinates.read position).get 0 < view.extents.get 0 := by
  have hrange := (hview.accepts hhost).inRange position hposition
  rw [single_eq (view.coordinates.read position)] at hrange
  exact inRange_single.1 hrange

/-- A coordinate vector without an unstored row stores its rows in order. -/
theorem coordinate_of_full (hfull : (view.nonzeros : Int) = view.extents.get 0) {position : Nat}
    (hposition : position < view.nonzeros) :
    view.coordinates.read position = ⟨[(position : Int)], rfl⟩ := by
  have hindex : (view.coordinates.read position).get 0 = position := by
    refine @eq_position_of_increasing (fun position => (view.coordinates.read position).get 0)
      view.nonzeros (fun position hlt => ?_) (fun position hlt => ?_) position hposition
    · have hstep := (hview.accepts hhost).ordered (position + 1) hlt (Nat.succ_ne_zero _)
      exact single_lt_iff.1 hstep
    · rw [hfull]
      exact coordinate_bounds hview hhost hlt
  rw [single_eq (view.coordinates.read position), hindex]

/-- A coordinate vector with fewer entries than rows has an unstored row. -/
theorem exists_unstored (hcount : (view.nonzeros : Int) ≠ view.extents.get 0) :
    ∃ row : Nat, (row : Int) < view.extents.get 0 ∧
      ∀ position < view.nonzeros, view.coordinates.read position ≠ ⟨[(row : Int)], rfl⟩ := by
  have hle := (hview.accepts hhost).count_le
  rw [prod_single] at hle
  by_contra hall
  push Not at hall
  choose stored hstored using hall
  -- More rows than entries cannot all have an entry of their own.
  have hinjective : Set.InjOn
      (fun (row : Nat) => if h : (row : Int) < view.extents.get 0 then stored row h else 0)
      (Finset.range (view.extents.get 0).toNat : Set Nat) := by
    intro row hrow other hother heq
    have hlt : (row : Int) < view.extents.get 0 := by
      have := Finset.mem_range.1 hrow
      omega
    have hlt' : (other : Int) < view.extents.get 0 := by
      have := Finset.mem_range.1 hother
      omega
    simp only [hlt, hlt', dif_pos] at heq
    have hcoordinate := (hstored row hlt).2
    rw [heq, (hstored other hlt').2] at hcoordinate
    have hlist := congrArg List.Vector.toList hcoordinate
    simp only [List.Vector.toList, List.cons.injEq, Nat.cast_inj, and_true] at hlist
    exact hlist.symm
  have hmaps : Set.MapsTo
      (fun (row : Nat) => if h : (row : Int) < view.extents.get 0 then stored row h else 0)
      (Finset.range (view.extents.get 0).toNat : Set Nat)
      (Finset.range view.nonzeros : Set Nat) := by
    intro row hrow
    have hlt : (row : Int) < view.extents.get 0 := by
      have := Finset.mem_range.1 hrow
      omega
    simp only [hlt, dif_pos, Finset.coe_range, Set.mem_Iio]
    exact (hstored row hlt).1
  have hcard := Finset.card_le_card_of_injOn _ hmaps hinjective
  rw [Finset.card_range, Finset.card_range] at hcard
  omega

/-- A coordinate vector without an unstored row writes a row at its own position. -/
theorem write_of_full (hfull : (view.nonzeros : Int) = view.extents.get 0) {row : Nat}
    (hrow : row < view.nonzeros) (value : V) (memory : Nat → Cell) :
    Effect.exec (view.write ⟨[(row : Int)], rfl⟩ value) memory =
      some (.ok (), type.store memory (view.values.address + row * type.size) value) := by
  have hstored := hview.read_stored hhost memory hrow
  rw [coordinate_of_full hview hhost hfull hrow] at hstored
  have hread : view.read memory [(row : Int)] =
      some (type.load memory (view.values.address + row * type.size)) := hstored
  have hwrite : view.writeFrom ⟨[(row : Int)], rfl⟩ value (List.range view.nonzeros) =
      Effect.store type (view.values.address + row * type.size) value := by
    apply writeFrom_stored hhost _ (List.mem_range.2 hrow)
      (coordinate_of_full hview hhost hfull hrow)
    intro position hposition
    have hlt := List.mem_range.1 hposition
    refine ⟨hlt, fun hcoordinate => ?_⟩
    rw [coordinate_of_full hview hhost hfull hlt] at hcoordinate
    have hlist := congrArg List.Vector.toList hcoordinate
    simpa only [List.Vector.toList, List.cons.injEq, Nat.cast_inj, and_true] using hlist
  unfold CoordinateView.write
  rw [Effect.exec_read_bind, Effect.exec_check_bind]
  change (view.read memory [(row : Int)]).bind _ = _
  rw [hread, Option.bind_some, hwrite, Effect.exec_store]

omit hview in
/-- The writable protocol stops at a row that is not stored. -/
theorem write_unstored {row : Nat}
    (hunstored : ∀ position < view.nonzeros,
      view.coordinates.read position ≠ ⟨[(row : Int)], rfl⟩)
    (value : V) (memory : Nat → Cell) :
    Effect.exec (view.write ⟨[(row : Int)], rfl⟩ value) memory = none := by
  have hloop : Effect.exec (view.writeFrom ⟨[(row : Int)], rfl⟩ value (List.range view.nonzeros))
      memory = none := by
    apply exec_writeFrom_unstored hhost
    intro position hposition
    exact ⟨List.mem_range.1 hposition, hunstored position (List.mem_range.1 hposition)⟩
  simp only [CoordinateView.write, Effect.exec_read_bind, Effect.exec_check_bind, hloop,
    Option.bind_fun_none]

end Coordinates

/-! ## The elements of the rows -/

/-- The elements of the rows share no cell. -/
theorem elements_apart (vector : VectorView type) :
    Apart type vector.elementAddress vector.extent.toNat := by
  intro row hrow other hother hne
  cases vector with
  | dense view =>
    rw [extent] at hrow hother
    exact DenseView.addressOf_apart (inBounds_row (by omega)) (inBounds_row (by omega)) (row_ne hne)
  | coordinate view hview =>
    have hapart := (storedFamily type view.values.address (max row other + 1)).apart
      ⟨row, by omega⟩ ⟨other, by omega⟩ fun heq => hne (Fin.mk.inj heq)
    exact hapart

/-- The elements of the rows stand in the bytes of the values. -/
theorem element_inside (hstores : vector.StoresEveryRow) {row : Nat}
    (hrow : row < vector.extent.toNat) :
    vector.terminal.valueSpan.address ≤ vector.elementAddress row ∧
      vector.elementAddress row + type.size ≤
        vector.terminal.valueSpan.address + vector.terminal.valueSpan.size := by
  cases vector with
  | dense view =>
    rw [extent] at hrow
    exact DenseView.addressOf_le (inBounds_row (by omega))
  | coordinate view hview =>
    have hfull : (view.nonzeros : Int) = view.extents.get 0 := hstores
    rw [extent] at hrow
    have hless : row < view.nonzeros := by omega
    have hle := Nat.mul_le_mul_right type.size (Nat.succ_le_of_lt hless)
    rw [Nat.succ_mul] at hle
    simp only [elementAddress, terminal, ViewTerminal.valueSpan, CoordinateView.valueSpan]
    omega

variable (hhost : vector.terminal.space = .host) (hstores : vector.StoresEveryRow)
  (hholds : vector.Holds index memory)

include hhost hstores hholds

theorem read_element {row : Nat} (hrow : row < vector.extent.toNat) :
    vector.read index memory row = some (type.load memory (vector.elementAddress row)) := by
  cases vector with
  | dense view =>
    rw [extent] at hrow
    exact DenseView.read_eq hhost (inBounds_row (by omega)) memory
  | coordinate view hview =>
    have hfull : (view.nonzeros : Int) = view.extents.get 0 := hstores
    have hplaced : view.placed index memory = view := hholds
    rw [extent] at hrow
    have hless : row < view.nonzeros := by omega
    have hread := hview.read_stored hhost memory hless
    rw [coordinate_of_full hview hhost hfull hless] at hread
    rw [VectorView.read, hplaced]
    exact hread

theorem exec_write {row : Nat} (hrow : row < vector.extent.toNat) (value : V) :
    Effect.exec (vector.write index row value) memory =
      some (.ok (), type.store memory (vector.elementAddress row) value) := by
  cases vector with
  | dense view =>
    rw [extent] at hrow
    have helement : view.elementAt ⟨[(row : Int)], rfl⟩ =
        .ok (view.addressOf ⟨[(row : Int)], rfl⟩) :=
      DenseView.elementAt_ok hhost (inBounds_row (by omega))
    rw [write, helement, Effect.exec_check_bind]
    rfl
  | coordinate view hview =>
    have hfull : (view.nonzeros : Int) = view.extents.get 0 := hstores
    have hplaced : view.placed index memory = view := hholds
    rw [extent] at hrow
    rw [write, Effect.exec_read_bind, hplaced,
      write_of_full hview hhost hfull (by omega : row < view.nonzeros)]
    rfl

end VectorView

end Sparse
end AscCpp
