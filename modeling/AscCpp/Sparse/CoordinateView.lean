import AscCpp.Sparse.Coordinate

/-!
# CoordinateView — views of canonical coordinate storage

`CoordinateView::Create`, its structure check and `Lookup`.

- `CoordinateView.create_host_ok_iff`: what an accepted host view is.
- `CoordinateView.lookup_of_mem`, `CoordinateView.lookup_of_not_mem`: the binary search finds the
  stored entry of a coordinate.
-/

namespace AscCpp
namespace Sparse

open AscCpp.Core Library

structure CoordinateView (E : Type) (rank : Nat) where
  coordinates : Pointer (Coordinate rank)
  values : Pointer E
  extents : Shape rank
  nonzeros : Nat
  memorySpace : MemorySpace
  canonicalStructureTrusted : Bool

namespace CoordinateView

variable {E : Type} [SparseElement E] {rank : Nat}

def validateHostAccess (view : CoordinateView E rank) : Result Unit :=
  failIf (view.memorySpace ≠ .host)
    { code := .memoryAccess, message := "Sparse coordinate access requires host storage" }

def validateCanonicalStructure (view : CoordinateView E rank) : Result Unit :=
  forM (List.range view.nonzeros) fun position => do
    validateCoordinate (view.coordinates.read position) view.extents
    failIf
      (position ≠ 0 ∧
        compareCoordinates (view.coordinates.read (position - 1))
          (view.coordinates.read position) ≥ 0)
      { code := .invalidArgument
        message := "Finalized coordinates must be strictly lexicographically sorted" }

def create (coordinates : Pointer (Coordinate rank)) (values : Pointer E) (extents : Shape rank)
    (nonzeros : Int) (memorySpace : MemorySpace) : Result (CoordinateView E rank) := do
  let logicalSize ← validateShape extents
  failIf (nonzeros < 0 ∨ nonzeros > logicalSize)
    { code := .shape, message := "Sparse NNZ is incompatible with the coordinate shape" }
  let coordinateCount ← coordinateElementCount nonzeros rank
  let coordinateBytes ← checkedMultiply sizeType coordinateCount indexSize
  let valueBytes ← checkedByteCount nonzeros (SparseElement.size E)
  failIf
    ((coordinateBytes ≠ 0 ∧ coordinates.address = 0) ∨ (valueBytes ≠ 0 ∧ values.address = 0))
    { code := .invalidArgument, message := "Nonempty sparse view storage cannot be null" }
  validateAddressSpan coordinates.address coordinateBytes.toNat
  validateAddressSpan values.address valueBytes.toNat
  failIf
    (byteSpansOverlap coordinates.address coordinateBytes.toNat values.address valueBytes.toNat =
      true)
    { code := .invalidArgument, message := "Sparse coordinate and value storage cannot overlap" }
  let result : CoordinateView E rank :=
    { coordinates := coordinates
      values := values
      extents := extents
      nonzeros := nonzeros.toNat
      memorySpace := memorySpace
      canonicalStructureTrusted := false }
  if memorySpace = .host then do
    result.validateCanonicalStructure
    .ok { result with canonicalStructureTrusted := true }
  else
    .ok result

/-- `Coordinate(position)`. -/
def coordinate (view : CoordinateView E rank) (position : Int) : Result (Coordinate rank) := do
  view.validateHostAccess
  failIf (position < 0 ∨ position ≥ view.nonzeros)
    { code := .index, message := "Sparse stored-entry position is out of range" }
  .ok (view.coordinates.read position.toNat)

/-- The value that `AtStored(position)` points to. -/
def atStored (view : CoordinateView E rank) (position : Int) : Result E := do
  view.validateHostAccess
  failIf (position < 0 ∨ position ≥ view.nonzeros)
    { code := .index, message := "Sparse stored-entry position is out of range" }
  .ok (view.values.read position.toNat)

section Accessors

variable {view : CoordinateView E rank} {position : Nat}

omit [SparseElement E] in
theorem coordinate_ok (hhost : view.memorySpace = .host) (hposition : position < view.nonzeros) :
    view.coordinate position = .ok (view.coordinates.read position) := by
  rw [coordinate, validateHostAccess, failIf, if_neg (by simpa using hhost), Result.ok_bind, failIf,
    if_neg (by omega)]
  rfl

theorem atStored_ok (hhost : view.memorySpace = .host) (hposition : position < view.nonzeros) :
    view.atStored position = .ok (view.values.read position) := by
  rw [atStored, validateHostAccess, failIf, if_neg (by simpa using hhost), Result.ok_bind, failIf,
    if_neg (by omega)]
  rfl

end Accessors

def lookup (view : CoordinateView E rank) (coordinate : Coordinate rank) : Result E := do
  view.validateHostAccess
  validateCoordinate coordinate view.extents
  let first := lowerBound
    (fun middle => compareCoordinates (view.coordinates.read middle) coordinate < 0)
    0 view.nonzeros
  if first = view.nonzeros then
    .ok SparseElement.zero
  else if compareCoordinates (view.coordinates.read first) coordinate ≠ 0 then
    .ok SparseElement.zero
  else
    .ok (view.values.read first)

/-- The stored entries, in the order of the storage. -/
def entries (view : CoordinateView E rank) : List (Coordinate rank × E) :=
  (List.range view.nonzeros).map fun position =>
    (view.coordinates.read position, view.values.read position)

@[simp] theorem length_entries (view : CoordinateView E rank) :
    view.entries.length = view.nonzeros := by
  simp [entries]

theorem getElem_entries (view : CoordinateView E rank) {position : Nat}
    (h : position < view.entries.length) :
    view.entries[position] =
      (view.coordinates.read position, view.values.read position) := by
  simp [entries]

theorem mem_entries {view : CoordinateView E rank} {entry : Coordinate rank × E} :
    entry ∈ view.entries ↔
      ∃ position < view.nonzeros,
        entry = (view.coordinates.read position, view.values.read position) := by
  simp [entries, eq_comm]

/-! ## The structure check -/

/-- Neighbours in order make the whole storage strictly sorted. -/
theorem strictlyKeySorted_iff (view : CoordinateView E rank) :
    StrictlyKeySorted view.entries ↔
      ∀ position < view.nonzeros, position ≠ 0 →
        view.coordinates.read (position - 1) < view.coordinates.read position := by
  unfold StrictlyKeySorted
  rw [List.pairwise_iff_getElem]
  constructor
  · intro h position hposition hne
    have hpair := h (position - 1) position (by simp; omega) (by simpa using hposition) (by omega)
    simpa only [getElem_entries] using hpair
  · intro h i j _ hj hij
    simp only [getElem_entries]
    rw [length_entries] at hj
    -- Induction on the later position, from the earlier one.
    induction j, hij using Nat.le_induction with
    | base => simpa using h (i + 1) hj (by omega)
    | succ j hij ih =>
      have hnext := h (j + 1) hj (by omega)
      exact (ih (by omega)).trans (by simpa using hnext)

omit [SparseElement E] in
theorem validateCanonicalStructure_ok_iff (view : CoordinateView E rank) :
    view.validateCanonicalStructure = .ok () ↔
      (∀ position < view.nonzeros, InRange (view.coordinates.read position) view.extents) ∧
        ∀ position < view.nonzeros, position ≠ 0 →
          view.coordinates.read (position - 1) < view.coordinates.read position := by
  rw [validateCanonicalStructure, Result.forM_eq_ok_iff, ← forall₂_and]
  refine forall_congr' fun position => ?_
  rw [List.mem_range]
  refine imp_congr_right fun _ => ?_
  rw [Result.unit_bind_eq_ok_iff]
  simp only [validateCoordinate_ok_iff, Result.failIf_eq_ok_iff, not_and, ge_iff_le, not_le,
    compareCoordinates_neg_iff]

/-! ## Accepted views -/

/-- What `Create` asks of host storage: the shape and the count fit, the two arrays are
addressable and apart, and the entries are canonical. -/
structure Accepts (coordinates : Pointer (Coordinate rank)) (values : Pointer E)
    (extents : Shape rank) (nonzeros : Nat) : Prop where
  nonneg : ∀ extent ∈ extents.toList, 0 ≤ extent
  logical : extents.toList.prod ≤ int64.maximum
  count_le : (nonzeros : Int) ≤ extents.toList.prod
  coordinateBytes : (nonzeros * rank * indexSize : Nat) ≤ sizeType.maximum
  valueBytes : (nonzeros * SparseElement.size E : Nat) ≤ sizeType.maximum
  coordinateSpan :
    validateAddressSpan coordinates.address (nonzeros * rank * indexSize) = .ok ()
  valueSpan : validateAddressSpan values.address (nonzeros * SparseElement.size E) = .ok ()
  apart :
    byteSpansOverlap coordinates.address (nonzeros * rank * indexSize) values.address
      (nonzeros * SparseElement.size E) = false
  inRange : ∀ position < nonzeros, InRange (coordinates.read position) extents
  ordered : ∀ position < nonzeros, position ≠ 0 →
    coordinates.read (position - 1) < coordinates.read position

/-- The view of accepted host storage. -/
def ofHost (coordinates : Pointer (Coordinate rank)) (values : Pointer E) (extents : Shape rank)
    (nonzeros : Nat) : CoordinateView E rank :=
  { coordinates := coordinates
    values := values
    extents := extents
    nonzeros := nonzeros
    memorySpace := .host
    canonicalStructureTrusted := true }

theorem create_host_ok_iff {coordinates : Pointer (Coordinate rank)} {values : Pointer E}
    {extents : Shape rank} {nonzeros : Nat} {view : CoordinateView E rank} :
    create coordinates values extents nonzeros .host = .ok view ↔
      Accepts coordinates values extents nonzeros ∧
        view = ofHost coordinates values extents nonzeros := by
  unfold create
  rw [Result.bind_eq_ok_iff]
  simp only [Result.failIf_eq_ok_iff, entryBytes_bind_eq_ok_iff, Int.toNat_natCast,
    Result.unit_bind_eq_ok_iff, if_true, validateCanonicalStructure_ok_iff, Except.ok.injEq]
  constructor
  · rintro ⟨logicalSize, hshape, hcount, ⟨-, hcoordinateBytes, hvalueBytes⟩, -,
      hcoordinateSpan, hvalueSpan, happart, ⟨hrange, horder⟩, rfl⟩
    rcases validateShape_ok_iff.1 hshape with ⟨hnonneg, rfl, hlogical⟩
    exact ⟨⟨hnonneg, hlogical, by omega, hcoordinateBytes, hvalueBytes, hcoordinateSpan,
      hvalueSpan, by simpa using happart, hrange, horder⟩, rfl⟩
  · rintro ⟨haccepts, rfl⟩
    have hcount := haccepts.count_le
    have hfits : (nonzeros : Int) ≤ sizeType.maximum :=
      (hcount.trans haccepts.logical).trans (by decide)
    -- A valid span is not null unless it is empty, so the null check passes.
    have hnull := validateAddressSpan_ok_iff.1 haccepts.coordinateSpan
    have hnull' := validateAddressSpan_ok_iff.1 haccepts.valueSpan
    exact ⟨_, validateShape_ok_iff.2 ⟨haccepts.nonneg, rfl, haccepts.logical⟩, by omega,
      ⟨hfits, haccepts.coordinateBytes, haccepts.valueBytes⟩, by omega, haccepts.coordinateSpan,
      haccepts.valueSpan, by simp [haccepts.apart], ⟨haccepts.inRange, haccepts.ordered⟩, rfl⟩

/-- A view that `Create` accepts has canonical entries. -/
theorem Accepts.strictlyKeySorted {coordinates : Pointer (Coordinate rank)} {values : Pointer E}
    {extents : Shape rank} {nonzeros : Nat} (h : Accepts coordinates values extents nonzeros) :
    StrictlyKeySorted (ofHost coordinates values extents nonzeros).entries :=
  (strictlyKeySorted_iff _).2 h.ordered

/-! ## Lookup -/

section Lookup

variable {view : CoordinateView E rank} {coordinate : Coordinate rank}

/-- The search stops at the first stored coordinate that is not smaller. -/
theorem lowerBound_entries (hsorted : StrictlyKeySorted view.entries) :
    ∃ first, first = lowerBound
        (fun middle => compareCoordinates (view.coordinates.read middle) coordinate < 0)
        0 view.nonzeros ∧ first ≤ view.nonzeros ∧
      (∀ position < first, view.coordinates.read position < coordinate) ∧
      ∀ position, first ≤ position → position < view.nonzeros →
        coordinate ≤ view.coordinates.read position := by
  -- The entries are sorted, so "below the coordinate" holds of a prefix.
  have hmono : ∀ i j, i ≤ j → j < view.nonzeros →
      decide (compareCoordinates (view.coordinates.read j) coordinate < 0) = true →
        decide (compareCoordinates (view.coordinates.read i) coordinate < 0) = true := by
    intro i j hij hj hbelow
    simp only [compareCoordinates_neg_iff, decide_eq_true_eq] at hbelow ⊢
    rcases Nat.eq_or_lt_of_le hij with rfl | hlt
    · exact hbelow
    · have hpair := List.pairwise_iff_getElem.1 hsorted i j (by simp; omega) (by simpa) hlt
      simp only [getElem_entries] at hpair
      exact hpair.trans hbelow
  rcases lowerBound_spec _ 0 view.nonzeros (Nat.zero_le _) (fun i j _ => hmono i j) with ⟨-, hlast, hleft, hright⟩
  refine ⟨_, rfl, hlast, fun position hposition => ?_, fun position hfirst hposition => ?_⟩
  · simpa using hleft position (Nat.zero_le _) hposition
  · simpa using hright position hfirst hposition

theorem lookup_of_mem (hhost : view.memorySpace = .host)
    (hrange : InRange coordinate view.extents) (hsorted : StrictlyKeySorted view.entries)
    {value : E} (hmem : (coordinate, value) ∈ view.entries) :
    view.lookup coordinate = .ok value := by
  rcases @lowerBound_entries E _ rank view coordinate hsorted with
    ⟨first, hfirst, hlast, hleft, hright⟩
  rcases mem_entries.1 hmem with ⟨position, hposition, hentry⟩
  cases hentry
  -- The entry is neither before the answer of the search nor behind it.
  have hanswer : position = first := by
    rcases lt_trichotomy position first with hlt | heq | hgt
    · exact absurd (hleft position hlt) (lt_irrefl _)
    · exact heq
    · have hle := hright first le_rfl (by omega)
      have hpair := List.pairwise_iff_getElem.1 hsorted first position (by simp; omega)
        (by simpa) hgt
      simp only [getElem_entries] at hpair
      exact absurd (hpair.trans_le hle) (lt_irrefl _)
  subst hanswer
  rw [lookup, validateHostAccess, failIf, if_neg (by simpa using hhost),
    validateCoordinate_ok_iff.2 hrange, ← hfirst]
  simp only [Result.ok_bind, compareCoordinates_eq_zero_iff, ne_eq, not_true_eq_false, if_false]
  rw [if_neg (by omega)]

theorem lookup_of_not_mem (hhost : view.memorySpace = .host)
    (hrange : InRange coordinate view.extents) (hsorted : StrictlyKeySorted view.entries)
    (hmem : coordinate ∉ view.entries.map Prod.fst) :
    view.lookup coordinate = .ok SparseElement.zero := by
  rcases @lowerBound_entries E _ rank view coordinate hsorted with ⟨first, hfirst, hlast, -, -⟩
  rw [lookup, validateHostAccess, failIf, if_neg (by simpa using hhost),
    validateCoordinate_ok_iff.2 hrange, ← hfirst]
  simp only [Result.ok_bind]
  by_cases hend : first = view.nonzeros
  · rw [if_pos hend]
  · rw [if_neg hend, if_pos]
    intro hcompare
    cases compareCoordinates_eq_zero_iff.1 hcompare
    exact hmem (List.mem_map.2 ⟨_, mem_entries.2 ⟨first, by omega, rfl⟩, rfl⟩)

end Lookup

end CoordinateView

end Sparse
end AscCpp
