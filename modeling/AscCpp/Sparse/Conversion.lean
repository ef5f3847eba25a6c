import AscCpp.Sparse.CompressedArray
import AscCpp.Sparse.Finalize

/-!
# Conversion — conversions keep every entry

- `regroup`: the entries in the order of a format; both conversions to that format compute it.
- `Complete`: what the loops of a conversion leave in the three arrays.
- `fromCoordinate_ok`, `fromCompressed_ok`, `convertToCoordinate_ok`: the results of the
  conversions.
-/

namespace AscCpp
namespace Sparse

open AscCpp.Core Library

/-! ## Regrouping -/

section Regroup

variable {E : Type} {format sourceFormat : SparseCompressedFormat}

/-- The entries of one outer index. -/
def bucket (format : SparseCompressedFormat) (entries : List (Coordinate 2 × E)) (outer : Nat) :
    List (Coordinate 2 × E) :=
  entries.filter fun entry => outerOf format entry.1 = (outer : Int)

/-- The entries of the first outer indices, one outer index after the other. -/
def regroup (format : SparseCompressedFormat) (outerCount : Nat)
    (entries : List (Coordinate 2 × E)) : List (Coordinate 2 × E) :=
  (List.range outerCount).flatMap (bucket format entries)

@[simp] theorem mem_bucket {entries : List (Coordinate 2 × E)} {outer : Nat}
    {entry : Coordinate 2 × E} :
    entry ∈ bucket format entries outer ↔
      entry ∈ entries ∧ outerOf format entry.1 = (outer : Int) := by
  simp [bucket]

/-- Nothing is lost and nothing is added. -/
theorem mem_regroup {shape : Shape 2} {entries : List (Coordinate 2 × E)}
    (hrange : ∀ entry ∈ entries, InRange entry.1 shape) {entry : Coordinate 2 × E} :
    entry ∈ regroup format (outerExtent format shape).toNat entries ↔ entry ∈ entries := by
  simp only [regroup, List.mem_flatMap, List.mem_range, mem_bucket]
  constructor
  · rintro ⟨outer, -, hmem, -⟩
    exact hmem
  · intro hmem
    have hin := ((@inRange_iff format _ _).1 (hrange entry hmem)).1
    exact ⟨(outerOf format entry.1).toNat, by omega, hmem, by omega⟩

/-- Whatever format ordered the entries: those of one outer index increase in their inner index. -/
theorem innerOf_lt_of_slotKey_lt {left right : Coordinate 2}
    (hlt : slotKey sourceFormat left < slotKey sourceFormat right)
    (houter : outerOf format left = outerOf format right) :
    innerOf format left < innerOf format right := by
  rw [slotKey_lt_iff] at hlt
  cases format <;> cases sourceFormat <;> simp only [outerOf, innerOf] at hlt houter ⊢ <;> omega

theorem regroup_ordered {entries : List (Coordinate 2 × E)} (h : OrderedBy sourceFormat entries)
    (outerCount : Nat) : OrderedBy format (regroup format outerCount entries) := by
  unfold OrderedBy regroup
  rw [List.pairwise_flatMap]
  -- Inside one bucket the order is the old one; between buckets the outer index decides.
  constructor
  · intro outer _
    refine List.Pairwise.imp_of_mem ?_ (h.filter _)
    intro left right hleft hright hlt
    have houter : outerOf format left.1 = outerOf format right.1 := by
      rw [(mem_bucket.1 hleft).2, (mem_bucket.1 hright).2]
    exact slotKey_lt_iff.2 (.inr ⟨houter, innerOf_lt_of_slotKey_lt hlt houter⟩)
  · refine List.Pairwise.imp_of_mem ?_ List.pairwise_lt_range
    intro outer next _ _ hlt left hleft right hright
    have hleft := (mem_bucket.1 hleft).2
    have hright := (mem_bucket.1 hright).2
    exact slotKey_lt_iff.2 (.inl (by omega))

/-- Regrouping twice is regrouping once. -/
theorem regroup_regroup {shape : Shape 2} {entries : List (Coordinate 2 × E)}
    (h : OrderedBy format entries) (hrange : ∀ entry ∈ entries, InRange entry.1 shape) :
    regroup format (outerExtent format shape).toNat
      (regroup sourceFormat (outerExtent sourceFormat shape).toNat entries) = entries := by
  have hmiddle : ∀ entry ∈ regroup sourceFormat (outerExtent sourceFormat shape).toNat entries,
      InRange entry.1 shape := fun entry hmem => hrange entry ((mem_regroup hrange).1 hmem)
  refine (regroup_ordered (regroup_ordered h _) _).ext h fun entry => ?_
  rw [mem_regroup hmiddle, mem_regroup hrange]

theorem length_regroup {shape : Shape 2} {entries : List (Coordinate 2 × E)}
    (h : OrderedBy sourceFormat entries) (hrange : ∀ entry ∈ entries, InRange entry.1 shape) :
    (regroup format (outerExtent format shape).toNat entries).length = entries.length := by
  have hnodup := (@regroup_ordered _ format _ _ h (outerExtent format shape).toNat).keys_nodup.of_map
  exact ((List.perm_ext_iff_of_nodup hnodup h.keys_nodup.of_map).2
    fun _ => mem_regroup hrange).length_eq

end Regroup

/-! ## Filling -/

section Fill

variable {E : Type} {format : SparseCompressedFormat}

/-- One entry of the source: it is appended when it has the outer index. -/
def placeEntry (format : SparseCompressedFormat) (outer : Nat) (state : CompressedStorage E × Nat)
    (entry : Coordinate 2 × E) : CompressedStorage E × Nat :=
  if outerOf format entry.1 = outer then
    ((state.1.setIndex state.2 (innerOf format entry.1)).setValue state.2 entry.2, state.2 + 1)
  else
    state

/-- One round of the outer loop. -/
def placeBucket (format : SparseCompressedFormat) (entries : List (Coordinate 2 × E))
    (state : CompressedStorage E × Nat) (outer : Nat) : CompressedStorage E × Nat :=
  ((entries.foldl (placeEntry format outer) state).1.setOffset (outer + 1)
      (entries.foldl (placeEntry format outer) state).2,
    (entries.foldl (placeEntry format outer) state).2)

/-- The placed entries are the first cells of both arrays. -/
structure Filled (format : SparseCompressedFormat) (nonzeros : Nat) (storage : CompressedStorage E)
    (placed : List (Coordinate 2 × E)) : Prop where
  length_indices : storage.indices.length = nonzeros
  length_values : storage.values.length = nonzeros
  indices : storage.indices.take placed.length = placed.map fun entry => innerOf format entry.1
  values : storage.values.take placed.length = placed.map Prod.snd

variable {nonzeros : Nat} {storage : CompressedStorage E} {placed : List (Coordinate 2 × E)}

theorem take_succ_set {α : Type} {cells : List α} {position : Nat} (h : position < cells.length)
    (value : α) :
    (cells.set position value).take (position + 1) = cells.take position ++ [value] := by
  rw [List.take_add_one, List.take_set_of_le le_rfl]
  simp [h]

theorem Filled.setOffset (h : Filled format nonzeros storage placed) (outer : Nat) (offset : Int) :
    Filled format nonzeros (storage.setOffset outer offset) placed :=
  ⟨h.length_indices, h.length_values, h.indices, h.values⟩

theorem Filled.place (h : Filled format nonzeros storage placed) (entry : Coordinate 2 × E)
    (hfits : placed.length < nonzeros) :
    Filled format nonzeros
      ((storage.setIndex placed.length (innerOf format entry.1)).setValue placed.length entry.2)
      (placed ++ [entry]) where
  length_indices := by simpa [CompressedStorage.setIndex, CompressedStorage.setValue] using
    h.length_indices
  length_values := by simpa [CompressedStorage.setIndex, CompressedStorage.setValue] using
    h.length_values
  indices := by
    have hlength := h.length_indices
    simp only [CompressedStorage.setIndex, CompressedStorage.setValue, List.length_append,
      List.length_singleton, List.map_append, List.map_cons, List.map_nil]
    rw [take_succ_set (by omega), h.indices]
  values := by
    have hlength := h.length_values
    simp only [CompressedStorage.setIndex, CompressedStorage.setValue, List.length_append,
      List.length_singleton, List.map_append, List.map_cons, List.map_nil]
    rw [take_succ_set (by omega), h.values]

/-- One run over the source appends the entries of the outer index. -/
theorem Filled.foldl_placeEntry (h : Filled format nonzeros storage placed) (outer : Nat)
    (entries : List (Coordinate 2 × E))
    (hfits : (placed ++ bucket format entries outer).length ≤ nonzeros) :
    ∃ next, entries.foldl (placeEntry format outer) (storage, placed.length) =
        (next, (placed ++ bucket format entries outer).length) ∧
      Filled format nonzeros next (placed ++ bucket format entries outer) ∧
      next.offsets = storage.offsets := by
  -- On the entries of the source; those of another outer index are passed over.
  induction entries generalizing storage placed with
  | nil => exact ⟨storage, by simp [bucket], by simpa [bucket] using h, rfl⟩
  | cons entry entries ih =>
    rw [List.foldl_cons, placeEntry]
    by_cases houter : outerOf format entry.1 = outer
    · have hbucket : bucket format (entry :: entries) outer =
          entry :: bucket format entries outer := by simp [bucket, houter]
      rw [hbucket, List.append_cons] at hfits ⊢
      have hlength : placed.length < nonzeros := by
        simp only [List.length_append, List.length_cons, List.length_nil] at hfits
        omega
      rw [if_pos houter]
      rcases ih (h.place entry hlength) hfits with ⟨next, hnext, hfilled, hoffsets⟩
      rw [List.length_append, List.length_singleton] at hnext
      exact ⟨next, hnext, hfilled, hoffsets⟩
    · have hbucket : bucket format (entry :: entries) outer = bucket format entries outer := by
        simp [bucket, houter]
      rw [hbucket] at hfits ⊢
      rw [if_neg houter]
      exact ih h hfits

/-- After the outer loop: the arrays hold the regrouped entries, and the offsets are the running
numbers of entries. -/
structure Complete (format : SparseCompressedFormat) (nonzeros outerCount count : Nat)
    (storage : CompressedStorage E) (entries : List (Coordinate 2 × E)) : Prop where
  filled : Filled format nonzeros storage (regroup format count entries)
  length_offsets : storage.offsets.length = outerCount + 1
  offsets : ∀ outer ≤ count,
    storage.offsets.getD outer default = bucketBound (bucket format entries) outer

theorem regroup_succ (format : SparseCompressedFormat) (count : Nat)
    (entries : List (Coordinate 2 × E)) :
    regroup format (count + 1) entries =
      regroup format count entries ++ bucket format entries count := by
  simp [regroup, List.range_succ]

theorem foldl_placeBucket [Inhabited E] {outerCount : Nat} (entries : List (Coordinate 2 × E))
    (hfits : (regroup format outerCount entries).length ≤ nonzeros) {count : Nat}
    (hcount : count ≤ outerCount) :
    ∃ next, (List.range count).foldl (placeBucket format entries)
        ((CompressedStorage.allocate (outerCount + 1) nonzeros).setOffset 0 0, 0) =
        (next, (regroup format count entries).length) ∧
      Complete format nonzeros outerCount count next entries := by
  -- By induction over the outer indices that are done, with the bound behind each of them.
  induction count with
  | zero =>
    refine ⟨_, rfl, ⟨⟨?_, ?_, rfl, rfl⟩, ?_, ?_⟩⟩
    · simp [CompressedStorage.allocate, CompressedStorage.setOffset]
    · simp [CompressedStorage.allocate, CompressedStorage.setOffset]
    · simp [CompressedStorage.allocate, CompressedStorage.setOffset]
    · intro outer hle
      rw [Nat.le_zero.1 hle]
      simp [CompressedStorage.allocate, CompressedStorage.setOffset]
  | succ count ih =>
    rcases ih (by omega) with ⟨current, hcurrent, hcomplete⟩
    have hbound : (regroup format (count + 1) entries).length ≤
        (regroup format outerCount entries).length :=
      (bucketBound_bounds (bucket format entries) outerCount).mono hcount le_rfl
    -- The placed entries are a prefix of the regrouped ones, so they fit.
    have hroom : (regroup format count entries ++ bucket format entries count).length ≤ nonzeros := by
      rw [← regroup_succ]
      exact hbound.trans hfits
    rcases hcomplete.filled.foldl_placeEntry count entries hroom with
      ⟨next, hnext, hfilled, hoffsets⟩
    have hlength := hcomplete.length_offsets
    refine ⟨next.setOffset (count + 1) (regroup format (count + 1) entries).length, ?_, ?_⟩
    · rw [List.range_succ, List.foldl_append, hcurrent]
      simp only [List.foldl_cons, List.foldl_nil, placeBucket, hnext, regroup_succ]
    · refine ⟨?_, ?_, ?_⟩
      · rw [regroup_succ]
        exact hfilled.setOffset _ _
      · simpa [CompressedStorage.setOffset, hoffsets] using hlength
      · intro outer hle
        simp only [CompressedStorage.setOffset, hoffsets]
        rcases Nat.lt_or_eq_of_le hle with hlt | rfl
        · have hne : count + 1 ≠ outer := by omega
          rw [List.getD_eq_getElem?_getD, List.getElem?_set_ne hne, ← List.getD_eq_getElem?_getD]
          exact hcomplete.offsets outer (by omega)
        · rw [List.getD_eq_getElem?_getD, List.getElem?_set_self (by omega)]
          rfl

end Fill

/-! ## The loops of the source -/

section Loops

variable {E : Type} [SparseElement E] {format sourceFormat : SparseCompressedFormat}

/-- `FromCoordinate` places the entries of the source, bucket by bucket. -/
theorem fillFromCoordinate_eq {source : CoordinateView E 2} (hhost : source.memorySpace = .host)
    (storage : CompressedStorage E) :
    CompressedSparseArray.fillFromCoordinate format source storage =
      .ok ((List.range (outerExtent format source.extents).toNat).foldl
        (placeBucket format source.entries) (storage.setOffset 0 0, 0)).1 := by
  -- Every read is inside the view, so that the inner loop cannot fail.
  have hinner : ∀ outer state,
      (List.range source.nonzeros).foldlM
          (CompressedSparseArray.placeCoordinate format source outer) state =
        .ok (source.entries.foldl (placeEntry format outer) state) := by
    intro outer state
    rw [CoordinateView.entries, List.foldl_map, ← Result.foldlM_ok]
    refine Result.foldlM_congr (fun position hposition state => ?_) state
    rw [List.mem_range] at hposition
    rw [CompressedSparseArray.placeCoordinate, CoordinateView.coordinate_ok hhost hposition,
      CoordinateView.atStored_ok hhost hposition, placeEntry]
    by_cases houter : outerOf format (source.coordinates.read position) = outer <;>
      simp [houter, bind, Except.bind]
  simp only [CompressedSparseArray.fillFromCoordinate, hinner, Result.ok_bind]
  exact congrArg (fun filled : Result (CompressedStorage E × Nat) => filled >>= fun state => .ok state.1)
    (Result.foldlM_ok (placeBucket format source.entries) (storage.setOffset 0 0, 0))

/-- `FromCompressed` places the entries of the source, bucket by bucket. -/
theorem fillFromCompressed_eq {source : CompressedSparseView E sourceFormat}
    (hhost : source.memorySpace = .host) (hcanonical : source.CanonicalArrays)
    (storage : CompressedStorage E) :
    CompressedSparseArray.fillFromCompressed format source storage =
      .ok ((List.range (outerExtent format source.shape).toNat).foldl
        (placeBucket format source.entries) (storage.setOffset 0 0, 0)).1 := by
  -- As above, with the slices of the source in place of its positions.
  have hinner : ∀ outer state,
      source.foldSlices (CompressedSparseArray.placeCompressed format source outer) state =
        .ok (source.entries.foldl (placeEntry format outer) state) := by
    intro outer state
    rw [← Result.foldlM_ok]
    refine hcanonical.foldSlices_eq hhost (fun state sourceOuter position hposition => ?_) state
    rw [CompressedSparseArray.placeCompressed, CompressedSparseView.innerIndex_ok hhost hposition,
      CompressedSparseView.atStored_ok hhost hposition, placeEntry]
    by_cases houter : outerOf format (compressedCoordinate sourceFormat sourceOuter
        (source.innerIndices.read position)) = outer <;>
      simp [houter, bind, Except.bind]
  simp only [CompressedSparseArray.fillFromCompressed, hinner, Result.ok_bind]
  exact congrArg (fun filled : Result (CompressedStorage E × Nat) => filled >>= fun state => .ok state.1)
    (Result.foldlM_ok (placeBucket format source.entries) (storage.setOffset 0 0, 0))

end Loops

/-! ## Results of a conversion to a compressed format -/

section Results

variable {E : Type} [SparseElement E] {format sourceFormat : SparseCompressedFormat}
  {shape : Shape 2} {nonzeros : Nat} {storage : CompressedStorage E}
  {entries placed : List (Coordinate 2 × E)}

theorem Filled.read_index (h : Filled format nonzeros storage placed) {position : Nat}
    (hposition : position < placed.length) :
    storage.indices.getD position default = innerOf format (placed.getD position default).1 := by
  have hget := congrArg (fun cells => cells[position]?) h.indices
  simp only [List.getElem?_take_of_lt hposition, List.getElem?_map] at hget
  rw [List.getD_eq_getElem?_getD, hget, List.getElem?_eq_getElem hposition,
    List.getD_eq_getElem _ _ hposition]
  rfl

theorem Filled.read_value (h : Filled format nonzeros storage placed) {position : Nat}
    (hposition : position < placed.length) :
    storage.values.getD position default = (placed.getD position default).2 := by
  have hget := congrArg (fun cells => cells[position]?) h.values
  simp only [List.getElem?_take_of_lt hposition, List.getElem?_map] at hget
  rw [List.getD_eq_getElem?_getD, hget, List.getElem?_eq_getElem hposition,
    List.getD_eq_getElem _ _ hposition]
  rfl

/-- The arrays that the loops leave are canonical. -/
theorem Complete.canonical {outerCount : Nat}
    (h : Complete format nonzeros outerCount outerCount storage entries)
    (hordered : OrderedBy sourceFormat entries) (hrange : ∀ entry ∈ entries, InRange entry.1 shape)
    (hlength : (regroup format outerCount entries).length = nonzeros) :
    CanonicalStructure (fun outer => storage.offsets.getD outer default)
      (fun position => storage.indices.getD position default) outerCount (innerExtent format shape)
      nonzeros := by
  have hbounds := bucketBound_bounds (bucket format entries) outerCount
  have hlast : bucketBound (bucket format entries) outerCount = nonzeros := hlength
  -- A position of a slice holds an entry with the outer index of the slice.
  have hslice : ∀ outer < outerCount, ∀ position : Nat,
      (storage.offsets.getD outer default : Int) ≤ position →
      (position : Int) < storage.offsets.getD (outer + 1) default →
      position < (regroup format outerCount entries).length ∧
        (regroup format outerCount entries).getD position default ∈ bucket format entries outer := by
    intro outer houter position hfirst hend
    rw [h.offsets outer houter.le] at hfirst
    rw [h.offsets (outer + 1) houter] at hend
    have hmono : bucketBound (bucket format entries) (outer + 1) ≤ _ :=
      hbounds.mono houter le_rfl
    exact ⟨by omega, getD_flatMap_mem houter (by omega) (by omega) default⟩
  refine ⟨?_, ?_, ?_, ?_, ?_⟩
  · rw [h.offsets 0 (Nat.zero_le _)]
    rfl
  · rw [h.offsets outerCount le_rfl, hlast]
  · intro outer houter
    rw [h.offsets outer houter.le, h.offsets (outer + 1) houter]
    exact_mod_cast hbounds.step outer houter
  · intro outer houter position hfirst hend
    rcases hslice outer houter position hfirst hend with ⟨hposition, hmem⟩
    rw [h.filled.read_index hposition]
    exact ((@inRange_iff format _ _).1 (hrange _ (mem_bucket.1 hmem).1)).2
  · intro outer houter position later hfirst hlt hend
    have hmiddle : (position : Int) < storage.offsets.getD (outer + 1) default := by omega
    have hmiddle' : (storage.offsets.getD outer default : Int) ≤ later := by omega
    rcases hslice outer houter position hfirst hmiddle with ⟨hposition, hmem⟩
    rcases hslice outer houter later hmiddle' hend with ⟨hlater, hmem'⟩
    rw [h.filled.read_index hposition, h.filled.read_index hlater]
    have hpair := List.pairwise_iff_getElem.1 (@regroup_ordered _ format _ _ hordered outerCount)
      position later hposition hlater hlt
    rw [← List.getD_eq_getElem _ default hposition, ← List.getD_eq_getElem _ default hlater] at hpair
    exact innerOf_lt_of_slotKey_lt hpair (by rw [(mem_bucket.1 hmem).2, (mem_bucket.1 hmem').2])

/-- Read back through a view the arrays hold the regrouped entries. -/
theorem Complete.entries_eq {view : CompressedSparseView E format}
    (h : Complete format nonzeros view.outerExtent.toNat view.outerExtent.toNat storage entries)
    (hoffsets : view.outerOffsets.cells = storage.offsets)
    (hindices : view.innerIndices.cells = storage.indices)
    (hvalues : view.values.cells = storage.values) :
    view.entries = regroup format view.outerExtent.toNat entries := by
  have hbound : ∀ outer ≤ view.outerExtent.toNat,
      (view.outerOffsets.read outer).toNat = bucketBound (bucket format entries) outer := by
    intro outer houter
    rw [Pointer.read, hoffsets, h.offsets outer houter, Int.toNat_natCast]
  have hbounds := bucketBound_bounds (bucket format entries) view.outerExtent.toNat
  rw [CompressedSparseView.entries, segments_congr_bound hbound, regroup,
    flatMap_eq_segments _ _ default]
  -- Segment by segment: the cells between two bounds are those of one bucket.
  apply segments_congr
  intro outer houter position hfirst hlast
  have hmono : bucketBound (bucket format entries) (outer + 1) ≤ _ :=
    hbounds.mono houter le_rfl
  have hposition : position < (regroup format view.outerExtent.toNat entries).length :=
    lt_of_lt_of_le hlast hmono
  have hmem := getD_flatMap_mem houter hfirst hlast (default : Coordinate 2 × E)
  rw [Pointer.read, Pointer.read, hindices, hvalues, h.filled.read_index hposition,
    h.filled.read_value hposition, ← (mem_bucket.1 hmem).2]
  exact Prod.ext (compressedCoordinate_outerOf_innerOf format _) rfl

/-- The byte counts of the arrays of a compressed format are values of `std::size_t`. -/
structure CompressedFits (E : Type) [SparseElement E] (format : SparseCompressedFormat)
    (shape : Shape 2) (nonzeros : Nat) : Prop where
  offsets : (outerExtent format shape + 1) * indexSize ≤ sizeType.maximum
  indices : (nonzeros * indexSize : Nat) ≤ sizeType.maximum
  values : (nonzeros * SparseElement.size E : Nat) ≤ sizeType.maximum

/-- The three allocations of `AllocateAndFill`. -/
def compressedRequests (E : Type) [SparseElement E] (format : SparseCompressedFormat)
    (shape : Shape 2) (nonzeros : Nat) : List (Nat × Nat) :=
  [(((outerExtent format shape + 1) * indexSize).toNat, indexSize),
    (nonzeros * indexSize, indexSize),
    (nonzeros * SparseElement.size E, SparseElement.alignment E)]

/-- The array has a view, `Create` accepts its storage as that view, and the view has the shape and
the entries. -/
def CompressedSparseArray.Stores (array : CompressedSparseArray E format) (shape : Shape 2)
    (entries : List (Coordinate 2 × E)) : Prop :=
  ∃ view, array.view = .ok view ∧
    CompressedSparseView.create array.offsetPointer array.indexPointer array.valuePointer shape
      entries.length .host = .ok view ∧
    view.shape = shape ∧ view.nonzeros = entries.length ∧ view.entries = entries

/-- The blocks of three allocations are spans that `Create` accepts. -/
theorem accepts_of_allocated {resource : MemoryResource} {offsetBuffer indexBuffer valueBuffer : Buffer}
    (hnonneg : ∀ extent ∈ shape.toList, 0 ≤ extent) (hlogical : shape.toList.prod ≤ int64.maximum)
    (hcount : (nonzeros : Int) ≤ shape.toList.prod) (hfits : CompressedFits E format shape nonzeros)
    (hoffsets : Buffer.Allocated resource []
      ((outerExtent format shape + 1) * indexSize).toNat offsetBuffer)
    (hindices : Buffer.Allocated resource [offsetBuffer.block] (nonzeros * indexSize) indexBuffer)
    (hvalues : Buffer.Allocated resource [offsetBuffer.block, indexBuffer.block]
      (nonzeros * SparseElement.size E) valueBuffer)
    (hcanonical : CanonicalStructure (fun outer => storage.offsets.getD outer default)
      (fun position => storage.indices.getD position default) (outerExtent format shape).toNat
      (innerExtent format shape) nonzeros) :
    CompressedSparseView.Accepts format ⟨offsetBuffer.data, storage.offsets⟩
      ⟨indexBuffer.data, storage.indices⟩ ⟨valueBuffer.data, storage.values⟩ shape nonzeros where
  nonneg := hnonneg
  logical := hlogical
  count_le := hcount
  offsetBytes := hfits.offsets
  indexBytes := hfits.indices
  valueBytes := hfits.values
  offsetSpan := validateAddressSpan_of_allocated hoffsets le_rfl
  indexSpan := validateAddressSpan_of_allocated hindices le_rfl
  valueSpan := validateAddressSpan_of_allocated hvalues le_rfl
  offsetsApartIndices := by
    have hdisjoint := hindices.disjoint offsetBuffer.block (List.mem_singleton_self _)
    rw [Buffer.block, Buffer.block, hoffsets.size_eq, hindices.size_eq] at hdisjoint
    exact byteSpansOverlap_eq_false hoffsets.fits hindices.fits hdisjoint
  offsetsApartValues := by
    have hdisjoint := hvalues.disjoint offsetBuffer.block List.mem_cons_self
    rw [Buffer.block, Buffer.block, hoffsets.size_eq, hvalues.size_eq] at hdisjoint
    exact byteSpansOverlap_eq_false hoffsets.fits hvalues.fits hdisjoint
  indicesApartValues := by
    have hdisjoint := hvalues.disjoint indexBuffer.block
      (List.mem_cons_of_mem _ (List.mem_singleton_self _))
    rw [Buffer.block, Buffer.block, hindices.size_eq, hvalues.size_eq] at hdisjoint
    exact byteSpansOverlap_eq_false hindices.fits hvalues.fits hdisjoint
  canonical := hcanonical

/-- A callback that places the entries leaves an array that stores them regrouped. -/
theorem allocateAndFill_ok {resource : MemoryResource} (hspace : resource.space = .host)
    (hnonneg : ∀ extent ∈ shape.toList, 0 ≤ extent) (hlogical : shape.toList.prod ≤ int64.maximum)
    (hcount : (entries.length : Int) ≤ shape.toList.prod)
    (hfits : CompressedFits E format shape entries.length)
    (hserves : resource.Serves [] (compressedRequests E format shape entries.length))
    (hordered : OrderedBy sourceFormat entries) (hrange : ∀ entry ∈ entries, InRange entry.1 shape)
    {fill : CompressedStorage E → Result (CompressedStorage E)}
    (hfill : ∀ storage, fill storage = .ok ((List.range (outerExtent format shape).toNat).foldl
      (placeBucket format entries) (storage.setOffset 0 0, 0)).1) :
    ∃ array, CompressedSparseArray.allocateAndFill format resource shape entries.length fill =
        .ok array ∧
      array.Stores shape (regroup format (outerExtent format shape).toNat entries) := by
  have houter := CompressedSparseView.outerExtent_nonneg format hnonneg
  have hlength := @length_regroup _ format _ _ _ hordered hrange
  have hsize : (entries.length : Int) ≤ sizeType.maximum :=
    (hcount.trans hlogical).trans (by decide)
  rcases hserves with ⟨offsetBuffer, hoffsets, indexBuffer, hindices, valueBuffer, hvalues, -⟩
  -- The filled arrays are canonical, because the buckets are sorted and distinct.
  rcases foldl_placeBucket entries hlength.le (le_refl (outerExtent format shape).toNat) with
    ⟨storage, hfold, hcomplete⟩
  have hcanonical := hcomplete.canonical hordered hrange hlength
  have haccepts := accepts_of_allocated hnonneg hlogical hcount hfits
    (Buffer.allocate_spec hoffsets) (Buffer.allocate_spec hindices) (Buffer.allocate_spec hvalues)
    hcanonical
  have hstorage : fill (.allocate (outerExtent format shape + 1).toNat entries.length) =
      .ok storage := by
    rw [hfill, Int.toNat_add houter (by decide)]
    exact congrArg Except.ok (congrArg Prod.fst hfold)
  refine ⟨⟨some resource, offsetBuffer, indexBuffer, valueBuffer, storage, shape, entries.length⟩, ?_,
    CompressedSparseView.ofHost format ⟨offsetBuffer.data, storage.offsets⟩
      ⟨indexBuffer.data, storage.indices⟩ ⟨valueBuffer.data, storage.values⟩ shape entries.length,
    ?_, ?_, rfl, hlength.symm, ?_⟩
  · have hbytes := (CompressedSparseView.compressedBytes_ok_iff houter hsize).2
      ⟨⟨hfits.offsets, hfits.indices, hfits.values⟩, rfl⟩
    simp only [List.nil_append, List.cons_append] at hindices hvalues
    rw [CompressedSparseArray.allocateAndFill, failIf, if_neg (by simpa using hspace),
      Result.ok_bind, hbytes, Result.ok_bind, hoffsets, Result.ok_bind, Int.toNat_natCast, hindices,
      Result.ok_bind, Int.toNat_natCast, hvalues, Result.ok_bind, hstorage]
    rfl
  · rw [CompressedSparseArray.view, failIf, if_neg]
    · rfl
    · simp [CompressedSparseArray.valid, (Buffer.allocate_spec hoffsets).valid,
        (Buffer.allocate_spec hindices).valid, (Buffer.allocate_spec hvalues).valid]
  · rw [hlength]
    exact CompressedSparseView.create_host_ok_iff.2 ⟨haccepts, rfl⟩
  · exact hcomplete.entries_eq rfl rfl rfl

/-- The conversion reports an overflow, the same with every host resource: it asks for nothing. -/
def Overflows {α : Type} (convert : MemoryResource → Result α) : Prop :=
  ∃ status : Status, status.code = .overflow ∧
    ∀ resource, resource.space = .host → convert resource = .error status

/-- A byte count that is no value of `std::size_t` is an overflow. -/
theorem compressedBytes_overflows {nonzeros : Nat} (houter : 0 ≤ outerExtent format shape)
    (hsize : (nonzeros : Int) ≤ sizeType.maximum) (hfits : ¬ CompressedFits E format shape nonzeros) :
    ∃ status, compressedBytes format shape nonzeros (SparseElement.size E) = .error status ∧
      status.code = .overflow := by
  refine Result.exists_code_of_avoids (fun code hcode => ?_) fun bytes hbytes => ?_
  · rw [compressedBytes, offsetCount, checkedByteCount_eq (by omega) hsize,
      checkedByteCount_eq (by omega) hsize]
    refine .bind (.bind (checkedAdd_avoids hcode _ _ _) fun _ => checkedCast_avoids hcode _ _)
      fun count => ?_
    refine .bind (checkedMultiply_avoids hcode _ _ _) fun offsets => ?_
    refine .bind (checkedMultiply_avoids hcode _ _ _) fun indices => ?_
    exact .bind (checkedMultiply_avoids hcode _ _ _) fun values => .ok code _
  · rcases (CompressedSparseView.compressedBytes_ok_iff houter hsize).1 hbytes with
      ⟨⟨hoffsets, hindices, hvalues⟩, -⟩
    exact hfits ⟨hoffsets, hindices, hvalues⟩

theorem allocateAndFill_overflows {nonzeros : Nat} (houter : 0 ≤ outerExtent format shape)
    (hsize : (nonzeros : Int) ≤ sizeType.maximum) (hfits : ¬ CompressedFits E format shape nonzeros)
    (fill : CompressedStorage E → Result (CompressedStorage E)) :
    Overflows fun resource =>
      CompressedSparseArray.allocateAndFill format resource shape nonzeros fill := by
  rcases compressedBytes_overflows houter hsize hfits with ⟨status, hbytes, hcode⟩
  refine ⟨status, hcode, fun resource hspace => ?_⟩
  change CompressedSparseArray.allocateAndFill format resource shape nonzeros fill = .error status
  rw [CompressedSparseArray.allocateAndFill, failIf, if_neg (by simpa using hspace), Result.ok_bind,
    hbytes]
  rfl

end Results

/-! ## The conversions -/

section Conversions

variable {E : Type} [SparseElement E] {format sourceFormat : SparseCompressedFormat}
  {context : ExecutionContext} {resource : MemoryResource}

/-- The view comes from `Create` over host storage. -/
def CoordinateView.Created (source : CoordinateView E 2) : Prop :=
  ∃ coordinates values extents nonzeros,
    CoordinateView.create coordinates values extents nonzeros .host = .ok source

/-- The view comes from `Create` over host storage. -/
def CompressedSparseView.Created (source : CompressedSparseView E format) : Prop :=
  ∃ outerOffsets innerIndices values shape nonzeros,
    CompressedSparseView.create outerOffsets innerIndices values shape nonzeros .host = .ok source

/-- What the conversions use of a source: its shape, and entries in the order of its format. -/
structure Source (format : SparseCompressedFormat) (shape : Shape 2)
    (entries : List (Coordinate 2 × E)) : Prop where
  nonneg : ∀ extent ∈ shape.toList, 0 ≤ extent
  logical : shape.toList.prod ≤ int64.maximum
  count_le : (entries.length : Int) ≤ shape.toList.prod
  ordered : OrderedBy format entries
  inRange : ∀ entry ∈ entries, InRange entry.1 shape

theorem CoordinateView.Created.source {source : CoordinateView E 2} (h : source.Created) :
    source.memorySpace = .host ∧ Source .csr source.extents source.entries := by
  rcases h with ⟨coordinates, values, extents, nonzeros, hcreate⟩
  -- A negative count is refused, so the count is a natural number.
  have hnonneg : 0 ≤ nonzeros := by
    rw [CoordinateView.create, Result.bind_eq_ok_iff] at hcreate
    rcases hcreate with ⟨logicalSize, -, hchecks⟩
    have hcount := (Result.failIf_bind_eq_ok_iff.1 hchecks).1
    omega
  rcases Int.eq_ofNat_of_zero_le hnonneg with ⟨count, rfl⟩
  rcases CoordinateView.create_host_ok_iff.1 hcreate with ⟨haccepts, rfl⟩
  refine ⟨rfl, haccepts.nonneg, haccepts.logical, ?_, orderedBy_csr.2 haccepts.strictlyKeySorted, ?_⟩
  · rw [CoordinateView.length_entries]
    exact haccepts.count_le
  · intro entry hmem
    rcases CoordinateView.mem_entries.1 hmem with ⟨position, hposition, rfl⟩
    exact haccepts.inRange position hposition

theorem CompressedSparseView.Created.source {source : CompressedSparseView E format}
    (h : source.Created) :
    source.memorySpace = .host ∧ source.CanonicalArrays ∧
      Source format source.shape source.entries := by
  rcases h with ⟨outerOffsets, innerIndices, values, shape, nonzeros, hcreate⟩
  have hnonneg : 0 ≤ nonzeros := by
    rw [CompressedSparseView.create, Result.bind_eq_ok_iff] at hcreate
    rcases hcreate with ⟨bytes, hsizes, -⟩
    exact (CompressedSparseView.checkSizes_ok_iff.1 hsizes).1.2.2.1
  rcases Int.eq_ofNat_of_zero_le hnonneg with ⟨count, rfl⟩
  rcases CompressedSparseView.create_host_ok_iff.1 hcreate with ⟨haccepts, rfl⟩
  have hcanonical : (CompressedSparseView.ofHost format outerOffsets innerIndices values shape
      count).CanonicalArrays := haccepts.canonical
  refine ⟨rfl, hcanonical, haccepts.nonneg, haccepts.logical, ?_, hcanonical.entries_ordered,
    hcanonical.entries_inRange⟩
  rw [hcanonical.length_entries]
  exact haccepts.count_le

theorem validateSparseAccess_host (hserial : context.backend = .serial) :
    validateSparseAccess .host context = .ok () := by
  rw [validateSparseAccess, Result.unit_bind_eq_ok_iff, validateSerialHost_ok_iff]
  exact ⟨hserial, by simp⟩

/-- `FromCoordinate` stores the entries of its source in the order of the format. -/
theorem fromCoordinate_ok {source : CoordinateView E 2} (hsource : source.Created)
    (hserial : context.backend = .serial) (hspace : resource.space = .host)
    (hfits : CompressedFits E format source.extents source.nonzeros)
    (hserves : resource.Serves [] (compressedRequests E format source.extents source.nonzeros)) :
    ∃ array, CompressedSparseArray.fromCoordinate format context source resource = .ok array ∧
      array.Stores source.extents
        (regroup format (outerExtent format source.extents).toNat source.entries) := by
  rcases hsource.source with ⟨hhost, hentries⟩
  have hlength := source.length_entries
  rw [← hlength] at hfits hserves
  rcases allocateAndFill_ok hspace hentries.nonneg hentries.logical hentries.count_le hfits hserves
    hentries.ordered hentries.inRange (fillFromCoordinate_eq hhost) with ⟨array, harray, hstores⟩
  rw [hlength] at harray
  refine ⟨array, ?_, hstores⟩
  rw [CompressedSparseArray.fromCoordinate, validateSerialHost_ok_iff.2 hserial, Result.ok_bind,
    hhost, validateSparseAccess_host hserial, Result.ok_bind, harray]

/-- `FromCompressed` stores the entries of its source in the order of the other format. -/
theorem fromCompressed_ok {source : CompressedSparseView E sourceFormat} (hsource : source.Created)
    (hserial : context.backend = .serial) (hspace : resource.space = .host)
    (hfits : CompressedFits E format source.shape source.nonzeros)
    (hserves : resource.Serves [] (compressedRequests E format source.shape source.nonzeros)) :
    ∃ array, CompressedSparseArray.fromCompressed format context source resource = .ok array ∧
      array.Stores source.shape
        (regroup format (outerExtent format source.shape).toNat source.entries) := by
  rcases hsource.source with ⟨hhost, hcanonical, hentries⟩
  have hlength := hcanonical.length_entries
  rw [← hlength] at hfits hserves
  rcases allocateAndFill_ok hspace hentries.nonneg hentries.logical hentries.count_le hfits hserves
    hentries.ordered hentries.inRange (fillFromCompressed_eq hhost hcanonical) with
    ⟨array, harray, hstores⟩
  rw [hlength] at harray
  refine ⟨array, ?_, hstores⟩
  rw [CompressedSparseArray.fromCompressed, validateSerialHost_ok_iff.2 hserial, Result.ok_bind,
    hhost, validateSparseAccess_host hserial, Result.ok_bind, harray]

/-! Counts of bytes that do not fit are reported before anything is allocated. -/

theorem fromCoordinate_overflows {source : CoordinateView E 2} (hsource : source.Created)
    (hserial : context.backend = .serial)
    (hfits : ¬ CompressedFits E format source.extents source.nonzeros) :
    Overflows (CompressedSparseArray.fromCoordinate format context source) := by
  rcases hsource.source with ⟨hhost, hentries⟩
  have hcount := hentries.count_le
  rw [CoordinateView.length_entries] at hcount
  rcases allocateAndFill_overflows (CompressedSparseView.outerExtent_nonneg format hentries.nonneg)
    ((hcount.trans hentries.logical).trans (by decide)) hfits
    (CompressedSparseArray.fillFromCoordinate format source) with ⟨status, hcode, hrun⟩
  refine ⟨status, hcode, fun resource hspace => ?_⟩
  rw [CompressedSparseArray.fromCoordinate, validateSerialHost_ok_iff.2 hserial, Result.ok_bind,
    hhost, validateSparseAccess_host hserial, Result.ok_bind]
  exact hrun resource hspace

theorem fromCompressed_overflows {source : CompressedSparseView E sourceFormat}
    (hsource : source.Created) (hserial : context.backend = .serial)
    (hfits : ¬ CompressedFits E format source.shape source.nonzeros) :
    Overflows (CompressedSparseArray.fromCompressed format context source) := by
  rcases hsource.source with ⟨hhost, hcanonical, hentries⟩
  have hcount := hentries.count_le
  rw [hcanonical.length_entries] at hcount
  rcases allocateAndFill_overflows (CompressedSparseView.outerExtent_nonneg format hentries.nonneg)
    ((hcount.trans hentries.logical).trans (by decide)) hfits
    (CompressedSparseArray.fillFromCompressed format source) with ⟨status, hcode, hrun⟩
  refine ⟨status, hcode, fun resource hspace => ?_⟩
  rw [CompressedSparseArray.fromCompressed, validateSerialHost_ok_iff.2 hserial, Result.ok_bind,
    hhost, validateSparseAccess_host hserial, Result.ok_bind]
  exact hrun resource hspace

/-- The byte counts of the arrays of a coordinate builder are values of `std::size_t`. -/
structure CoordinateFits (E : Type) [SparseElement E] (nonzeros : Nat) : Prop where
  coordinates : (nonzeros * 2 * indexSize : Nat) ≤ sizeType.maximum
  values : (nonzeros * SparseElement.size E : Nat) ≤ sizeType.maximum

/-- The two allocations of `CoordinateBuilder::Create` at rank two. -/
def coordinateRequests (E : Type) [SparseElement E] (nonzeros : Nat) : List (Nat × Nat) :=
  [(nonzeros * 2 * indexSize, indexSize),
    (nonzeros * SparseElement.size E, SparseElement.alignment E)]

theorem convertToCoordinate_overflows {source : CompressedSparseView E format}
    (hsource : source.Created) (hserial : context.backend = .serial)
    (hfits : ¬ CoordinateFits E source.nonzeros) :
    Overflows (convertToCoordinate context source) := by
  rcases hsource.source with ⟨hhost, hcanonical, hentries⟩
  have hcount := hentries.count_le
  rw [hcanonical.length_entries] at hcount
  have hsize : (source.nonzeros : Int) ≤ sizeType.maximum :=
    (hcount.trans hentries.logical).trans (by decide)
  rcases Extents.create_dynamic hentries.nonneg hentries.logical with
    ⟨extents, hextents, -, hlogical⟩
  have hlist : source.shape.toList = [source.shape.get 0, source.shape.get 1] :=
    congrArg List.Vector.toList (coordinate_eq source.shape)
  have hextents' : Extents.create (⟨[dynamicExtent, dynamicExtent], rfl⟩ : Shape 2)
      [source.shape.get 0, source.shape.get 1] = .ok extents := by
    rw [← hlist]
    exact hextents
  refine ⟨multiplicationOverflow, rfl, fun resource hspace => ?_⟩
  -- The capacity passes the checks of the builder, and its byte counts do not.
  have hbuilder : (CoordinateBuilder.create resource extents source.nonzeros :
      Result (CoordinateBuilder E 2)) = .error multiplicationOverflow := by
    rw [CoordinateBuilder.create, failIf, if_neg (by simpa using hspace), Result.ok_bind, failIf,
      if_neg (by omega), Result.ok_bind, failIf, if_neg (by omega), Result.ok_bind]
    exact entryBytes_bind_overflows hsize
      (fun hcoordinates hvalues => hfits ⟨hcoordinates, hvalues⟩) _
  rw [convertToCoordinate, validateSerialHost_ok_iff.2 hserial, Result.ok_bind, hhost,
    validateSparseAccess_host hserial, Result.ok_bind, hextents', Result.ok_bind, hbuilder]
  rfl

/-- `ConvertToCoordinate` stores the entries of its source in lexicographic order. -/
theorem convertToCoordinate_ok {source : CompressedSparseView E format} (hsource : source.Created)
    (hserial : context.backend = .serial) (hspace : resource.space = .host)
    (hfits : CoordinateFits E source.nonzeros)
    (hserves : resource.Serves [] (coordinateRequests E source.nonzeros)) :
    ∃ array, convertToCoordinate context source resource = .ok array ∧
      array.Stores source.shape
        (regroup .csr (outerExtent .csr source.shape).toNat source.entries) := by
  rcases hsource.source with ⟨hhost, hcanonical, hentries⟩
  have hlength := hcanonical.length_entries
  have hcount := hentries.count_le
  rw [hlength] at hcount
  rcases Extents.create_dynamic hentries.nonneg hentries.logical with
    ⟨extents, hextents, hshape, hlogical⟩
  rcases hserves with ⟨coordinateBuffer, hcoordinates, valueBuffer, hvalues, -⟩
  -- The builder gets the capacity for all the entries of the source.
  obtain ⟨empty, hcreate⟩ : ∃ empty : CoordinateBuilder E 2,
      CoordinateBuilder.create resource extents source.nonzeros = .ok empty :=
    ⟨_, CoordinateBuilder.create_ok_iff.2
      ⟨⟨hspace, by omega, (hcount.trans hentries.logical).trans (by decide), hfits.coordinates,
        hfits.values⟩, coordinateBuffer, hcoordinates, valueBuffer, hvalues, rfl⟩⟩
  have hempty := CoordinateBuilder.create_holds hcreate
  have hrange : ∀ entry ∈ source.entries, InRange entry.1 extents.values := by
    rw [hshape]
    exact hentries.inRange
  rcases hempty.addAll_ok hrange (by simp [hlength]) with ⟨builder, hadd⟩
  have hholds := hempty.addAll hadd
  rw [List.nil_append] at hholds
  have hsorted := orderedBy_csr.1 (@regroup_ordered _ .csr _ _ hentries.ordered
    (outerExtent .csr source.shape).toNat)
  rcases hholds.finalize_distinct hentries.ordered.keys_nodup hserial hsorted
    (fun entry => mem_regroup hentries.inRange) with ⟨array, harray, hstores⟩
  -- The loop over the slices adds the entries in their order.
  have hloop : source.foldSlices (addStored source) empty = .ok builder := by
    rw [← hadd]
    refine hcanonical.foldSlices_eq hhost (fun current outer position hposition => ?_) empty
    rw [addStored, CompressedSparseView.innerIndex_ok hhost hposition, Result.ok_bind,
      CompressedSparseView.atStored_ok hhost hposition, Result.ok_bind]
  rw [hshape] at hstores
  -- The source writes the two extents out.
  have hlist : source.shape.toList = [source.shape.get 0, source.shape.get 1] :=
    congrArg List.Vector.toList (coordinate_eq source.shape)
  have hextents' : Extents.create (⟨[dynamicExtent, dynamicExtent], rfl⟩ : Shape 2)
      [source.shape.get 0, source.shape.get 1] = .ok extents := by
    rw [← hlist]
    exact hextents
  refine ⟨array, ?_, hstores⟩
  rw [convertToCoordinate, validateSerialHost_ok_iff.2 hserial, Result.ok_bind, hhost,
    validateSparseAccess_host hserial, Result.ok_bind, hextents', Result.ok_bind, hcreate,
    Result.ok_bind, hloop, Result.ok_bind, harray]

end Conversions

end Sparse
end AscCpp
