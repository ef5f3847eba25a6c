import AscCpp.Core.Effect
import AscCpp.Expression.Terminal

/-!
# Evaluate — evaluation into a sparse destination

`Evaluate` of the sparse module, which keeps the structure of the destination and writes its stored
values.  Both overloads run `EvaluateStored` over a `StoredDestination`.

- `evaluateStored_ok`: what a successful evaluation has checked and written.
- `evaluateStored_error`: a failing evaluation has not written.
-/

namespace AscCpp
namespace Sparse

open AscCpp.Core Library Expression

variable {Cell V : Type} [Ring V] [DecidableEq V] {type : Representation Cell V}

/-! ## Destinations -/

/-- What `EvaluateStored` asks of a destination. -/
structure StoredDestination (Cell V : Type) [Ring V] [DecidableEq V] where
  memorySpace : MemorySpace
  shape : List Int
  nonzeros : Nat
  valueAlias : ExpressionAliasMetadata
  isExactSelfAssignment : ViewExpression Cell V → Bool
  coordinateAt : Int → Result (List Int)
  valueAt : Int → Result Nat

namespace CoordinateView

variable {rank : Nat}

/-- The descriptors are the same.  The source also compares the value types, when it is compiled;
that is left out. -/
def sameDescriptor {E E' : Type} {rank' : Nat} (left : CoordinateView E rank)
    (right : CoordinateView E' rank') : Bool :=
  rank = rank' ∧ left.coordinates.address = right.coordinates.address ∧
    left.values.address = right.values.address ∧
    left.extents.toList = right.extents.toList ∧ left.nonzeros = right.nonzeros ∧
    left.memorySpace = right.memorySpace

def destination (view : CoordinateView (Stored type) rank) : StoredDestination Cell V where
  memorySpace := view.memorySpace
  shape := view.extents.toList
  nonzeros := view.nonzeros
  valueAlias := view.valueAlias
  isExactSelfAssignment expression :=
    match expression with
    | .terminal (.coordinate source _) => source.sameDescriptor view
    | _ => false
  coordinateAt position := (view.coordinate position).map List.Vector.toList
  valueAt := view.elementAt

end CoordinateView

namespace CompressedSparseView

variable {format : SparseCompressedFormat}

/-- The descriptors are the same; as above, the value types are left out. -/
def sameDescriptor {E E' : Type} {format' : SparseCompressedFormat}
    (left : CompressedSparseView E format) (right : CompressedSparseView E' format') : Bool :=
  format = format' ∧ left.outerOffsets.address = right.outerOffsets.address ∧
    left.innerIndices.address = right.innerIndices.address ∧
    left.values.address = right.values.address ∧ left.shape = right.shape ∧
    left.nonzeros = right.nonzeros ∧ left.memorySpace = right.memorySpace

/-- The search for the outer index of a position. -/
def findOuter {E : Type} (view : CompressedSparseView E format) (position : Int) :
    Nat → Int → Result Int
  | 0, outer => .ok outer
  | steps + 1, outer => do
    let finish ← view.outerOffset (outer + 1)
    if position < finish then .ok outer else view.findOuter position steps (outer + 1)

def coordinateAt {E : Type} (view : CompressedSparseView E format) (position : Int) :
    Result (Coordinate 2) := do
  let outer ← view.findOuter position view.outerExtent.toNat 0
  let inner ← view.innerIndex position
  .ok (compressedCoordinate format outer inner)

def destination (view : CompressedSparseView (Stored type) format) : StoredDestination Cell V where
  memorySpace := view.memorySpace
  shape := view.shape.toList
  nonzeros := view.nonzeros
  valueAlias := view.valueAlias
  isExactSelfAssignment expression :=
    match expression with
    | .terminal (.compressed source _) => source.sameDescriptor view
    | _ => false
  coordinateAt position := (view.coordinateAt position).map List.Vector.toList
  valueAt := view.elementAt

end CompressedSparseView

/-! ## Evaluation -/

def validateCommon (context : ExecutionContext) (expression : ViewExpression Cell V)
    (destination : StoredDestination Cell V) : Result Unit := do
  validateSerialHost context "Sparse evaluation requires serial execution"
  failIf (destination.memorySpace ≠ .host ∨ context.canAccess destination.memorySpace = false)
    { code := .memoryAccess, message := "Sparse evaluation requires a host destination" }
  expression.validateAccess context
  failIf (∃ space ∈ expression.space, space ≠ .host ∨ context.canAccess space = false)
    { code := .memoryAccess, message := "Sparse evaluation requires a host source" }
  failIf (expression.sparsityEffect ≠ .structurePreserving)
    { code := .unsupported
      message := "Sparse evaluation requires a structure-preserving expression" }
  failIf (expression.rank ≠ destination.shape.length)
    { code := .shape, message := "Sparse expression and destination ranks do not match" }
  failIf (expression.shape ≠ destination.shape)
    { code := .shape, message := "Sparse expression and destination shapes do not match" }

def rejectOverlap : Status :=
  { code := .invalidArgument, message := "Sparse evaluation rejects destination overlap" }

/-- The overlap checks of `EvaluateStored`, with that of placed expressions. -/
def validateNoOverlap (expression : ViewExpression Cell V)
    (destination : StoredDestination Cell V) : Result Unit := do
  forM (List.range destination.nonzeros) fun (position : Nat) => do
    let value ← destination.valueAt position
    failIf (expression.mayAlias value = true) rejectOverlap
  failIf (expression.mayOverlap destination.valueAlias = true) rejectOverlap

/-- One round of the writing loop. -/
def writeStored (type : Representation Cell V) (expression : ViewExpression Cell V)
    (destination : StoredDestination Cell V) (position : Nat) : Effect (Nat → Cell) Unit := do
  let coordinate ← Effect.ofResult (destination.coordinateAt position)
  let address ← Effect.ofResult (destination.valueAt position)
  let memory ← Effect.read
  let value ← Effect.check (expression.read memory coordinate)
  Effect.store type address value

def evaluateStored (type : Representation Cell V) (context : ExecutionContext)
    (expression : ViewExpression Cell V) (destination : StoredDestination Cell V) :
    Effect (Nat → Cell) Unit := do
  Effect.ofResult (validateCommon context expression destination)
  if destination.isExactSelfAssignment expression then
    pure ()
  else do
    Effect.ofResult (validateNoOverlap expression destination)
    forM (List.range destination.nonzeros) (writeStored type expression destination)

/-- `Evaluate` into a coordinate view. -/
def evaluateCoordinate {rank : Nat} (context : ExecutionContext) (expression : ViewExpression Cell V)
    (destination : CoordinateView (Stored type) rank) : Effect (Nat → Cell) Unit :=
  evaluateStored type context expression destination.destination

/-- `Evaluate` into a compressed view. -/
def evaluateCompressed {format : SparseCompressedFormat} (context : ExecutionContext)
    (expression : ViewExpression Cell V) (destination : CompressedSparseView (Stored type) format) :
    Effect (Nat → Cell) Unit :=
  evaluateStored type context expression destination.destination

/-- The only effect that is accepted. -/
theorem validateCommon_preserving {context : ExecutionContext}
    {expression : ViewExpression Cell V} {destination : StoredDestination Cell V}
    (h : validateCommon context expression destination = .ok ()) :
    destination.memorySpace = .host ∧ expression.sparsityEffect = .structurePreserving := by
  simp only [validateCommon, Result.unit_bind_eq_ok_iff, Result.failIf_eq_ok_iff, not_or,
    not_not] at h
  exact ⟨h.2.1.1, h.2.2.2.2.1⟩

/-! ## Runs -/

/-- On the host every stored entry has a coordinate and a value, the values standing one behind
the other. -/
structure StoredDestination.Regular (type : Representation Cell V)
    (destination : StoredDestination Cell V) (address : Nat) : Prop where
  coordinate_ok : ∀ position < destination.nonzeros,
    ∃ coordinate, destination.coordinateAt (position : Nat) = .ok coordinate
  value_ok : ∀ position < destination.nonzeros,
    destination.valueAt (position : Nat) = .ok (address + position * type.size)

/-- The addresses of stored values. -/
def storedElements (type : Representation Cell V) (address nonzeros : Nat) : List Nat :=
  (List.range nonzeros).map fun position => address + position * type.size

section Runs

variable {context : ExecutionContext} {expression : ViewExpression Cell V}
  {destination : StoredDestination Cell V} {address : Nat} {memory memory' : Nat → Cell}
  {result : Result Unit}

theorem validateNoOverlap_mayAlias (hregular : destination.Regular type address)
    (h : validateNoOverlap expression destination = .ok ()) :
    ∀ element ∈ storedElements type address destination.nonzeros,
      expression.mayAlias element = false := by
  rw [validateNoOverlap, Result.unit_bind_eq_ok_iff, Result.forM_eq_ok_iff] at h
  intro element helement
  rcases List.mem_map.1 helement with ⟨position, hposition, rfl⟩
  have hround := h.1 position hposition
  rw [hregular.value_ok position (List.mem_range.1 hposition), Result.ok_bind,
    Result.failIf_eq_ok_iff] at hround
  simpa using hround

theorem exec_writeStored_loop (hregular : destination.Regular type address)
    (hrun : Effect.exec (forM (List.range destination.nonzeros)
      (writeStored type expression destination)) memory = some (result, memory')) :
    result = .ok () ∧
      Untouched (storedElements type address destination.nonzeros) type.size memory memory' := by
  refine Effect.exec_forM_ok
    (Untouched (storedElements type address destination.nonzeros) type.size memory) ?_
    (fun _ _ => rfl) hrun
  -- A round either stores into its element or is undefined; it returns no failure.
  intro position hposition before outcome after hbefore hround
  have hlt := List.mem_range.1 hposition
  rcases hregular.coordinate_ok position hlt with ⟨coordinate, hcoordinate⟩
  rw [writeStored, hcoordinate, hregular.value_ok position hlt] at hround
  simp only [Effect.exec_ofResult_bind, Effect.exec_read_bind, Effect.exec_check_bind] at hround
  rcases Option.bind_eq_some_iff.1 hround with ⟨value, -, hstore⟩
  cases hstore
  refine ⟨rfl, fun cell houtside => ?_⟩
  have helement := houtside _ (List.mem_map.2 ⟨position, hposition, rfl⟩)
  rw [type.store_outside helement]
  exact hbefore cell houtside

/-- A successful evaluation has found no leaf that knows of the address of a stored value, unless it
is a self-assignment, and it has written to the stored values only. -/
theorem evaluateStored_ok
    (hregular : destination.memorySpace = .host → destination.Regular type address)
    (hrun : Effect.exec (evaluateStored type context expression destination) memory =
      some (.ok (), memory')) :
    destination.memorySpace = .host ∧
      (destination.isExactSelfAssignment expression = false →
        ∀ element ∈ storedElements type address destination.nonzeros,
          expression.mayAlias element = false) ∧
      Untouched (storedElements type address destination.nonzeros) type.size memory memory' := by
  rw [evaluateStored, Effect.exec_ofResult_bind] at hrun
  cases hvalidate : validateCommon context expression destination with
  | error status => simp [hvalidate] at hrun
  | ok =>
    have hhost := (validateCommon_preserving hvalidate).1
    simp only [hvalidate] at hrun
    cases hself : destination.isExactSelfAssignment expression with
    | true =>
      simp only [hself, if_true, Effect.exec_pure] at hrun
      cases hrun
      exact ⟨hhost, by simp, fun _ _ => rfl⟩
    | false =>
      simp only [hself, Bool.false_eq_true, if_false, Effect.exec_ofResult_bind] at hrun
      cases hoverlap : validateNoOverlap expression destination with
      | error status => simp [hoverlap] at hrun
      | ok =>
        simp only [hoverlap] at hrun
        exact ⟨hhost, fun _ => validateNoOverlap_mayAlias (hregular hhost) hoverlap,
          (exec_writeStored_loop (hregular hhost) hrun).2⟩

/-- A failing evaluation has not written. -/
theorem evaluateStored_error
    (hregular : destination.memorySpace = .host → destination.Regular type address)
    {status : Status}
    (hrun : Effect.exec (evaluateStored type context expression destination) memory =
      some (.error status, memory')) : memory' = memory := by
  rw [evaluateStored, Effect.exec_ofResult_bind] at hrun
  -- Every failure is found before the loop.
  cases hvalidate : validateCommon context expression destination with
  | error status =>
    simp only [hvalidate] at hrun
    cases hrun
    rfl
  | ok =>
    have hhost := (validateCommon_preserving hvalidate).1
    simp only [hvalidate] at hrun
    cases hself : destination.isExactSelfAssignment expression with
    | true => simp [hself] at hrun
    | false =>
      simp only [hself, Bool.false_eq_true, if_false, Effect.exec_ofResult_bind] at hrun
      cases hoverlap : validateNoOverlap expression destination with
      | error status =>
        simp only [hoverlap] at hrun
        cases hrun
        rfl
      | ok =>
        simp only [hoverlap] at hrun
        cases (exec_writeStored_loop (hregular hhost) hrun).1

end Runs

/-! ## Views as destinations -/

theorem CoordinateView.destination_regular {rank : Nat} (view : CoordinateView (Stored type) rank)
    (hhost : view.memorySpace = .host) : view.destination.Regular type view.values.address where
  coordinate_ok position hposition := by
    refine ⟨(view.coordinates.read position).toList, ?_⟩
    simp only [destination]
    rw [coordinate_ok hhost hposition]
    rfl
  value_ok position hposition := elementAt_ok hhost hposition

namespace CompressedSparseView

variable {format : SparseCompressedFormat}

theorem findOuter_ok {E : Type} {view : CompressedSparseView E format}
    (hhost : view.memorySpace = .host) (position : Int) {steps outer : Nat}
    (hsteps : ((outer + steps : Nat) : Int) ≤ view.outerExtent) :
    ∃ found, view.findOuter position steps outer = .ok found := by
  induction steps generalizing outer with
  | zero => exact ⟨_, rfl⟩
  | succ steps ih =>
    have hoffset := @outerOffset_ok _ _ view hhost (outer + 1) (by omega)
    rw [Nat.cast_add, Nat.cast_one] at hoffset
    rw [findOuter, hoffset, Result.ok_bind]
    split
    · exact ⟨_, rfl⟩
    · simpa using @ih (outer + 1) (by omega)

/-- The search stops at the slice of the position, whatever slices it starts from. -/
theorem findOuter_eq {E : Type} {view : CompressedSparseView E format} (h : view.CanonicalArrays)
    (hhost : view.memorySpace = .host) {position found : Nat}
    (hfound : found < view.outerExtent.toNat)
    (hfirst : view.outerOffsets.read found ≤ position)
    (hlast : (position : Int) < view.outerOffsets.read (found + 1)) {steps outer : Nat}
    (houter : outer ≤ found) (hsteps : found < outer + steps) :
    view.findOuter position steps outer = .ok found := by
  -- The scan goes up to the slice of the position and stops there.
  induction steps generalizing outer with
  | zero => omega
  | succ steps ih =>
    have hoffset := @outerOffset_ok _ _ view hhost (outer + 1) (by omega)
    rw [Nat.cast_add, Nat.cast_one] at hoffset
    rw [findOuter, hoffset, Result.ok_bind]
    rcases Nat.eq_or_lt_of_le houter with rfl | hlt
    · rw [if_pos hlast]
    · -- The slice ends before the slice of the position begins.
      have hbefore := h.offset_mono (Nat.succ_le_of_lt hlt) hfound.le
      rw [if_neg (not_lt.2 (hbefore.trans hfirst))]
      simpa using ih (Nat.succ_le_of_lt hlt) (by omega)

/-- The coordinate of a stored position is that of its slice and its inner index, and the position
has one slice, whatever slices are empty. -/
theorem coordinateAt_eq {E : Type} {view : CompressedSparseView E format} (h : view.CanonicalArrays)
    (hhost : view.memorySpace = .host) {position : Nat} (hposition : position < view.nonzeros) :
    ∃ outer < view.outerExtent.toNat,
      (∀ other < view.outerExtent.toNat,
        (view.outerOffsets.read other ≤ position ∧
          (position : Int) < view.outerOffsets.read (other + 1) ↔ other = outer)) ∧
      view.coordinateAt position =
        .ok (compressedCoordinate format outer (view.innerIndices.read position)) := by
  have hbounds := h.bounds
  rw [← h.bound_back] at hposition
  -- The slices cover the positions without overlap.
  rcases hbounds.exists_segment hposition with ⟨outer, houter, hfirst, hlast⟩
  have hslice := h.position houter hfirst hlast
  refine ⟨outer, houter, fun other hother => ⟨fun hin => ?_, ?_⟩, ?_⟩
  · exact hbounds.segment_unique hother houter (by omega) (by omega) hfirst hlast
  · rintro rfl
    exact hslice
  · have hsearch := @findOuter_eq _ _ view h hhost position outer houter hslice.1 hslice.2
      view.outerExtent.toNat 0 (Nat.zero_le outer) (by omega)
    rw [h.bound_back] at hposition
    rw [Nat.cast_zero] at hsearch
    rw [coordinateAt, hsearch, Result.ok_bind, innerIndex_ok hhost hposition, Result.ok_bind]

theorem destination_regular (view : CompressedSparseView (Stored type) format)
    (hhost : view.memorySpace = .host) (hview : view.Checked) :
    view.destination.Regular type view.values.address where
  coordinate_ok position hposition := by
    have hextent : 0 ≤ view.outerExtent :=
      outerExtent_nonneg format (hview.accepts hhost).nonneg
    rcases @findOuter_ok format _ view hhost position view.outerExtent.toNat 0 (by omega) with
      ⟨outer, houter⟩
    refine ⟨(compressedCoordinate format outer (view.innerIndices.read position)).toList, ?_⟩
    simp only [destination, coordinateAt]
    rw [Nat.cast_zero] at houter
    rw [houter, Result.ok_bind, innerIndex_ok hhost hposition]
    rfl
  value_ok position hposition := elementAt_ok hhost hposition

end CompressedSparseView

end Sparse
end AscCpp
