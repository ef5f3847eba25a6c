import AscCpp.Library.CheckedRun
import AscCpp.Sparse.Coordinate

/-!
# Compressed — compressed sparse views and their structure check

`CompressedSparseView` with its `Create` and `ValidateCanonicalStructure`.  The check is one function
over the way it reads the two index arrays: with plain reads it is the function that `Create` calls,
with reads that refuse a position outside an array it shows where the check reads.

- `decides_validateStructure`: whatever the arrays hold, the check reads inside them and accepts
  exactly the canonical structures.
-/

namespace AscCpp
namespace Sparse

open AscCpp.Core Library

/-! ## Formats -/

inductive SparseCompressedFormat where
  | csr
  | csc
  deriving DecidableEq, Repr

def outerExtent (format : SparseCompressedFormat) (shape : Shape 2) : Int :=
  match format with
  | .csr => shape.get 0
  | .csc => shape.get 1

def innerExtent (format : SparseCompressedFormat) (shape : Shape 2) : Int :=
  match format with
  | .csr => shape.get 1
  | .csc => shape.get 0

/-- `Coordinate<Format>(outer, inner)`. -/
def compressedCoordinate (format : SparseCompressedFormat) (outer inner : Int) : Coordinate 2 :=
  match format with
  | .csr => ⟨[outer, inner], length_pair outer inner⟩
  | .csc => ⟨[inner, outer], length_pair inner outer⟩

/-- `Format == kCsr ? coordinate[0] : coordinate[1]`. -/
def outerOf (format : SparseCompressedFormat) (coordinate : Coordinate 2) : Int :=
  match format with
  | .csr => coordinate.get 0
  | .csc => coordinate.get 1

/-- `Format == kCsr ? coordinate[1] : coordinate[0]`. -/
def innerOf (format : SparseCompressedFormat) (coordinate : Coordinate 2) : Int :=
  match format with
  | .csr => coordinate.get 1
  | .csc => coordinate.get 0

def offsetCount (outerExtent : Int) : Result Int := do
  let count ← checkedAdd int64 outerExtent 1
  checkedCast sizeType count

section Coordinates

variable {format : SparseCompressedFormat}

@[simp] theorem outerOf_compressedCoordinate (format : SparseCompressedFormat) (outer inner : Int) :
    outerOf format (compressedCoordinate format outer inner) = outer := by
  cases format <;> rfl

@[simp] theorem innerOf_compressedCoordinate (format : SparseCompressedFormat) (outer inner : Int) :
    innerOf format (compressedCoordinate format outer inner) = inner := by
  cases format <;> rfl

/-- A coordinate of rank two is its row and its column. -/
theorem coordinate_eq (coordinate : Coordinate 2) :
    coordinate = ⟨[coordinate.get 0, coordinate.get 1], rfl⟩ := by
  rcases coordinate with ⟨_ | ⟨row, _ | ⟨column, _ | ⟨more, rest⟩⟩⟩, hlength⟩
  · cases hlength
  · cases hlength
  · rfl
  · cases hlength

@[simp] theorem compressedCoordinate_outerOf_innerOf (format : SparseCompressedFormat)
    (coordinate : Coordinate 2) :
    compressedCoordinate format (outerOf format coordinate) (innerOf format coordinate) =
      coordinate := by
  rw [coordinate_eq coordinate]
  cases format <;> rfl

theorem inRange_iff {shape : Shape 2} {coordinate : Coordinate 2} :
    InRange coordinate shape ↔
      (0 ≤ outerOf format coordinate ∧ outerOf format coordinate < outerExtent format shape) ∧
        0 ≤ innerOf format coordinate ∧ innerOf format coordinate < innerExtent format shape := by
  rw [coordinate_eq coordinate, coordinate_eq shape]
  cases format with
  | csr => simp [InRange, outerOf, innerOf, outerExtent, innerExtent, List.Vector.toList,
      List.Vector.get]
  | csc =>
    simp [InRange, outerOf, innerOf, outerExtent, innerExtent, List.Vector.toList,
      List.Vector.get]
    exact and_comm

/-! ## The order of the storage -/

/-- The key under which a format stores a coordinate: the outer index before the inner one. -/
def slotKey (format : SparseCompressedFormat) (coordinate : Coordinate 2) : Coordinate 2 :=
  ⟨[outerOf format coordinate, innerOf format coordinate], rfl⟩

theorem slotKey_csr (coordinate : Coordinate 2) : slotKey .csr coordinate = coordinate :=
  (coordinate_eq coordinate).symm

theorem slotKey_lt_iff {left right : Coordinate 2} :
    slotKey format left < slotKey format right ↔
      outerOf format left < outerOf format right ∨
        outerOf format left = outerOf format right ∧
          innerOf format left < innerOf format right := by
  have hlist : slotKey format left < slotKey format right ↔
      [outerOf format left, innerOf format left] <
        [outerOf format right, innerOf format right] := Iff.rfl
  rw [hlist]
  simp [List.cons_lt_cons_iff]

/-- The entries stand in the order of a format. -/
def OrderedBy {E : Type} (format : SparseCompressedFormat) (entries : List (Coordinate 2 × E)) :
    Prop :=
  entries.Pairwise fun left right => slotKey format left.1 < slotKey format right.1

theorem orderedBy_csr {E : Type} {entries : List (Coordinate 2 × E)} :
    OrderedBy .csr entries ↔ StrictlyKeySorted entries := by
  unfold OrderedBy StrictlyKeySorted
  simp only [slotKey_csr]

theorem OrderedBy.keys_nodup {E : Type} {entries : List (Coordinate 2 × E)}
    (h : OrderedBy format entries) : (entries.map Prod.fst).Nodup := by
  unfold List.Nodup
  rw [List.pairwise_map]
  refine h.imp ?_
  intro left right hlt heq
  rw [heq] at hlt
  exact lt_irrefl _ hlt

/-- Entries in the order of a format are determined by their set. -/
theorem OrderedBy.ext {E : Type} {left right : List (Coordinate 2 × E)}
    (hleft : OrderedBy format left) (hright : OrderedBy format right)
    (h : ∀ entry, entry ∈ left ↔ entry ∈ right) : left = right := by
  have hperm : left.Perm right :=
    (List.perm_ext_iff_of_nodup hleft.keys_nodup.of_map hright.keys_nodup.of_map).2 h
  refine eq_of_perm_of_keys hperm ?_ hright
  exact List.Pairwise.imp le_of_lt hleft

end Coordinates

/-! ## The structure check -/

section Structure

variable {m : Type → Type} [Monad m]

/-- The body of the inner loop of `ValidateCanonicalStructure`. -/
def validatePosition (readIndex : Int → m Int) (innerExtent first position : Int) :
    ExceptT Status m Unit := do
  let inner ← readIndex position
  failWhen (inner < 0 ∨ inner ≥ innerExtent)
    { code := .index, message := "Compressed inner index is outside its extent" }
  if position ≠ first then do
    let previous ← readIndex (position - 1)
    failWhen (previous ≥ inner)
      { code := .invalidArgument
        message := "Compressed inner indices must be strictly increasing" }

/-- The body of the outer loop of `ValidateCanonicalStructure`. -/
def validateOuter (readOffset readIndex : Int → m Int) (innerExtent nonzeros outer : Int) :
    ExceptT Status m Unit := do
  let first ← readOffset outer
  let last ← readOffset (outer + 1)
  failWhen (first < 0 ∨ last < first ∨ last > nonzeros)
    { code := .invalidArgument, message := "Compressed offsets are not canonical" }
  forM (List.range (last - first).toNat) fun (step : Nat) =>
    validatePosition readIndex innerExtent first (first + step)

/-- `ValidateCanonicalStructure`, over the reads of `outer_offsets_` and `inner_indices_`. -/
def validateStructure (readOffset readIndex : Int → m Int)
    (outerExtent innerExtent nonzeros : Int) : ExceptT Status m Unit := do
  let front ← readOffset 0
  failWhen (front ≠ 0)
    { code := .invalidArgument, message := "Compressed offsets must begin at zero" }
  forM (List.range outerExtent.toNat) fun (outer : Nat) =>
    validateOuter readOffset readIndex innerExtent nonzeros outer
  let back ← readOffset outerExtent
  failWhen (back ≠ nonzeros)
    { code := .invalidArgument, message := "Final compressed offset must equal NNZ" }

end Structure

/-- Offsets from zero to the number of entries that never decrease, and in every slice inner
indices that are in range and strictly increase. -/
structure CanonicalStructure (offset index : Nat → Int) (outerCount : Nat) (innerExtent : Int)
    (nonzeros : Nat) : Prop where
  front : offset 0 = 0
  back : offset outerCount = nonzeros
  monotone : ∀ outer < outerCount, offset outer ≤ offset (outer + 1)
  inRange : ∀ outer < outerCount, ∀ position : Nat, offset outer ≤ position →
    position < offset (outer + 1) → 0 ≤ index position ∧ index position < innerExtent
  increasing : ∀ outer < outerCount, ∀ position later : Nat, offset outer ≤ position →
    position < later → later < offset (outer + 1) → index position < index later

namespace CanonicalStructure

variable {offset index : Nat → Int} {outerCount : Nat} {innerExtent : Int} {nonzeros : Nat}

/-- Between two outer positions the offsets do not decrease. -/
theorem offset_mono (h : CanonicalStructure offset index outerCount innerExtent nonzeros)
    {outer later : Nat} (hle : outer ≤ later) (hlater : later ≤ outerCount) :
    offset outer ≤ offset later := by
  induction later, hle using Nat.le_induction with
  | base => exact le_rfl
  | succ later hle ih => exact (ih (by omega)).trans (h.monotone later (by omega))

theorem offset_nonneg (h : CanonicalStructure offset index outerCount innerExtent nonzeros)
    {outer : Nat} (houter : outer ≤ outerCount) : 0 ≤ offset outer :=
  h.front ▸ h.offset_mono (Nat.zero_le _) houter

theorem offset_le (h : CanonicalStructure offset index outerCount innerExtent nonzeros)
    {outer : Nat} (houter : outer ≤ outerCount) : offset outer ≤ nonzeros :=
  h.back ▸ h.offset_mono houter le_rfl

end CanonicalStructure

/-- What one slice has to satisfy, with its offsets bounded on both sides. -/
structure SliceAccepted (offset index : Nat → Int) (innerExtent : Int) (nonzeros outer : Nat) :
    Prop where
  nonneg : 0 ≤ offset outer
  le_next : offset outer ≤ offset (outer + 1)
  next_le : offset (outer + 1) ≤ nonzeros
  inRange : ∀ position : Nat, offset outer ≤ position → position < offset (outer + 1) →
    0 ≤ index position ∧ index position < innerExtent
  neighbours : ∀ position : Nat, offset outer < position → position < offset (outer + 1) →
    index (position - 1) < index position

/-- Neighbours in order make a slice strictly increasing. -/
theorem SliceAccepted.increasing {offset index : Nat → Int} {innerExtent : Int}
    {nonzeros outer : Nat} (h : SliceAccepted offset index innerExtent nonzeros outer)
    {position later : Nat} (hfirst : offset outer ≤ position) (hlt : position < later)
    (hlast : later < offset (outer + 1)) : index position < index later := by
  induction later, hlt using Nat.le_induction with
  | base => simpa using h.neighbours (position + 1) (by omega) hlast
  | succ later hlt ih =>
    exact (ih (by omega)).trans (by simpa using h.neighbours (later + 1) (by omega) hlast)

theorem canonicalStructure_iff {offset index : Nat → Int} {outerCount : Nat} {innerExtent : Int}
    {nonzeros : Nat} :
    CanonicalStructure offset index outerCount innerExtent nonzeros ↔
      offset 0 = 0 ∧
        (∀ outer < outerCount, SliceAccepted offset index innerExtent nonzeros outer) ∧
          offset outerCount = nonzeros := by
  constructor
  · intro h
    refine ⟨h.front, fun outer houter => ?_, h.back⟩
    exact
      { nonneg := h.offset_nonneg houter.le
        le_next := h.monotone outer houter
        next_le := h.offset_le houter
        inRange := h.inRange outer houter
        neighbours := fun position hfirst hlast => by
          have hnonneg := h.offset_nonneg houter.le
          exact h.increasing outer houter (position - 1) position (by omega) (by omega) hlast }
  · rintro ⟨hfront, hslices, hback⟩
    exact
      { front := hfront
        back := hback
        monotone := fun outer houter => (hslices outer houter).le_next
        inRange := fun outer houter => (hslices outer houter).inRange
        increasing := fun outer houter _ _ => (hslices outer houter).increasing }

section Structure

variable {m : Type → Type} [Monad m] [LawfulMonad m] {readOffset readIndex : Int → m Int}
  {offset index : Nat → Int} {outerCount nonzeros : Nat} {innerExtent : Int}

theorem decides_validatePosition
    (hindex : ∀ position : Nat, position < nonzeros → readIndex position = pure (index position))
    {first : Int} (hfirst : 0 ≤ first) {position : Nat} (hle : first ≤ position)
    (hlt : position < nonzeros) :
    Decides (validatePosition readIndex innerExtent first position)
      ((0 ≤ index position ∧ index position < innerExtent) ∧
        (first < position → index (position - 1) < index position)) := by
  have hrange := decides_failWhen (m := m) (index position < 0 ∨ index position ≥ innerExtent)
    ({ code := .index, message := "Compressed inner index is outside its extent" } : Status)
  refine Decides.read (hindex position hlt) ((hrange.bind fun _ => ?_).congr
    (and_congr_left fun _ => by omega))
  by_cases hne : (position : Int) ≠ first
  · have hprevious : readIndex ((position : Int) - 1) = pure (index (position - 1)) := by
      have hcast : (position : Int) - 1 = ((position - 1 : Nat) : Int) := by omega
      rw [hcast]
      exact hindex _ (by omega)
    rw [if_pos hne]
    refine Decides.read hprevious ((decides_failWhen _ _).congr ?_)
    rw [not_le]
    exact ⟨fun h _ => h, fun h => h (by omega)⟩
  · rw [if_neg hne]
    exact decides_pure.congr (by simp only [true_iff]; omega)

theorem decides_validateOuter
    (hoffset : ∀ outer : Nat, outer ≤ outerCount → readOffset outer = pure (offset outer))
    (hindex : ∀ position : Nat, position < nonzeros → readIndex position = pure (index position))
    {outer : Nat} (houter : outer < outerCount) :
    Decides (validateOuter readOffset readIndex innerExtent nonzeros outer)
      (SliceAccepted offset index innerExtent nonzeros outer) := by
  have hguard := decides_failWhen (m := m)
    (offset outer < 0 ∨ offset (outer + 1) < offset outer ∨ offset (outer + 1) > nonzeros)
    ({ code := .invalidArgument, message := "Compressed offsets are not canonical" } : Status)
  -- The guard puts the slice inside the index array, whatever comes later in the offsets.
  have hpositions : ¬ (offset outer < 0 ∨ offset (outer + 1) < offset outer ∨
      offset (outer + 1) > nonzeros) →
      Decides (forM (List.range (offset (outer + 1) - offset outer).toNat) fun (step : Nat) =>
          validatePosition readIndex innerExtent (offset outer) (offset outer + step))
        (∀ step ∈ List.range (offset (outer + 1) - offset outer).toNat,
          (0 ≤ index ((offset outer).toNat + step) ∧
            index ((offset outer).toNat + step) < innerExtent) ∧
          (offset outer < ((offset outer).toNat + step : Nat) →
            index ((offset outer).toNat + step - 1) < index ((offset outer).toNat + step))) := by
    intro hbounds
    refine decides_forM fun step hstep => ?_
    rw [List.mem_range] at hstep
    have hposition : offset outer + step = (((offset outer).toNat + step : Nat) : Int) := by omega
    rw [hposition]
    exact decides_validatePosition hindex (by omega) (by omega) (by omega)
  refine Decides.read (hoffset outer houter.le) (Decides.read (hoffset (outer + 1) houter)
    ((hguard.bind hpositions).congr ?_))
  · constructor
    · rintro ⟨hbounds, hsteps⟩
      have hat : ∀ position : Nat, offset outer ≤ position → position < offset (outer + 1) →
          (0 ≤ index position ∧ index position < innerExtent) ∧
            (offset outer < position → index (position - 1) < index position) := by
        intro position hfirst hlast
        have hstep := hsteps (position - (offset outer).toNat) (List.mem_range.2 (by omega))
        rwa [Nat.add_sub_cancel' (by omega : (offset outer).toNat ≤ position)] at hstep
      exact
        { nonneg := by omega
          le_next := by omega
          next_le := by omega
          inRange := fun position hfirst hlast => (hat position hfirst hlast).1
          neighbours := fun position hfirst hlast => (hat position hfirst.le hlast).2 hfirst }
    · intro haccepted
      have hnonneg := haccepted.nonneg
      have hle := haccepted.le_next
      have hnext := haccepted.next_le
      refine ⟨by omega, fun step hstep => ?_⟩
      rw [List.mem_range] at hstep
      exact ⟨haccepted.inRange _ (by omega) (by omega),
        fun hlt => haccepted.neighbours _ hlt (by omega)⟩

/-- Reads that answer inside the arrays are enough, and exactly the canonical structures pass. -/
theorem decides_validateStructure
    (hoffset : ∀ outer : Nat, outer ≤ outerCount → readOffset outer = pure (offset outer))
    (hindex : ∀ position : Nat, position < nonzeros → readIndex position = pure (index position)) :
    Decides (validateStructure readOffset readIndex outerCount innerExtent nonzeros)
      (CanonicalStructure offset index outerCount innerExtent nonzeros) := by
  have hfront := decides_failWhen (m := m) (offset 0 ≠ 0)
    ({ code := .invalidArgument, message := "Compressed offsets must begin at zero" } : Status)
  have hslices : Decides (forM (List.range outerCount) fun outer : Nat =>
      validateOuter readOffset readIndex innerExtent nonzeros outer)
      (∀ outer ∈ List.range outerCount,
        SliceAccepted offset index innerExtent nonzeros outer) :=
    decides_forM fun outer houter =>
      decides_validateOuter hoffset hindex (List.mem_range.1 houter)
  have hback := decides_failWhen (m := m) (offset outerCount ≠ nonzeros)
    ({ code := .invalidArgument, message := "Final compressed offset must equal NNZ" } : Status)
  rw [canonicalStructure_iff]
  refine Decides.read (hoffset 0 (Nat.zero_le _)) ((hfront.bind fun _ => hslices.bind fun _ =>
    Decides.read (hoffset outerCount le_rfl) hback).congr ?_)
  simp only [not_not, List.mem_range]

end Structure

end Sparse
end AscCpp
