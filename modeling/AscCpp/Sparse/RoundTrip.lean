import AscCpp.Sparse.Conversion

/-!
# RoundTrip — there and back between the sparse formats

Every conversion stores the entries of its source in the order of its own format, so the way back
restores the source.

- `conversions_correct`: coordinate to compressed storage and back, compressed to coordinate storage
  and back, and from one compressed format to the other and back.
-/

namespace AscCpp
namespace Sparse

open AscCpp.Core Library

section RoundTrips

variable {E : Type} [SparseElement E] {format : SparseCompressedFormat}
  {context : ExecutionContext} {resource : MemoryResource}

theorem CompressedSparseArray.Stores.created {array : CompressedSparseArray E format}
    {shape : Shape 2} {entries : List (Coordinate 2 × E)} (h : array.Stores shape entries) :
    ∃ view, array.view = .ok view ∧
      CompressedSparseView.create array.offsetPointer array.indexPointer array.valuePointer shape
        entries.length .host = .ok view ∧
      view.Created ∧ view.shape = shape ∧ view.nonzeros = entries.length ∧
        view.entries = entries := by
  rcases h with ⟨view, hview, hcreate, hshape, hnonzeros, hentries⟩
  exact ⟨view, hview, hcreate, ⟨_, _, _, _, _, hcreate⟩, hshape, hnonzeros, hentries⟩

/-- Views of one shape with the same entries have the same storage. -/
theorem CompressedSparseView.Created.sameStorage {view source : CompressedSparseView E format}
    (hview : view.Created) (hsource : source.Created) (hshape : view.shape = source.shape)
    (hentries : view.entries = source.entries) : view.SameStorage source :=
  hview.source.2.1.ext hsource.source.2.1 hshape hentries

theorem coordinate_compressed_coordinate {source : CoordinateView E 2} (hsource : source.Created)
    (hserial : context.backend = .serial) (hspace : resource.space = .host)
    (hfits : CompressedFits E format source.extents source.nonzeros)
    (hfits' : CoordinateFits E source.nonzeros)
    (hserves : resource.Serves [] (compressedRequests E format source.extents source.nonzeros))
    (hserves' : resource.Serves [] (coordinateRequests E source.nonzeros)) :
    ∃ array view result,
      CompressedSparseArray.fromCoordinate format context source resource = .ok array ∧
      array.view = .ok view ∧
      CompressedSparseView.create array.offsetPointer array.indexPointer array.valuePointer
        source.extents source.nonzeros .host = .ok view ∧
      convertToCoordinate context view resource = .ok result ∧
      result.Stores source.extents source.entries := by
  have hentries := hsource.source.2
  have hlength := @length_regroup _ format _ _ _ hentries.ordered hentries.inRange
  rw [CoordinateView.length_entries] at hlength
  -- There and back: regrouping by the other order and again by this one changes nothing.
  rcases fromCoordinate_ok hsource hserial hspace hfits hserves with ⟨array, harray, hstores⟩
  rcases hstores.created with ⟨view, hview, hcreate, hcreated, hshape, hnonzeros, hview_entries⟩
  rw [hlength] at hcreate hnonzeros
  rw [← hnonzeros] at hfits' hserves'
  rcases convertToCoordinate_ok hcreated hserial hspace hfits' hserves' with
    ⟨result, hresult, hback⟩
  rw [hshape, hview_entries, regroup_regroup hentries.ordered hentries.inRange] at hback
  exact ⟨array, view, result, harray, hview, hcreate, hresult, hback⟩

theorem compressed_coordinate_compressed {source : CompressedSparseView E format}
    (hsource : source.Created) (hserial : context.backend = .serial)
    (hspace : resource.space = .host) (hfits : CompressedFits E format source.shape source.nonzeros)
    (hfits' : CoordinateFits E source.nonzeros)
    (hserves : resource.Serves [] (compressedRequests E format source.shape source.nonzeros))
    (hserves' : resource.Serves [] (coordinateRequests E source.nonzeros)) :
    ∃ array view result view',
      convertToCoordinate context source resource = .ok array ∧ array.view = .ok view ∧
      CompressedSparseArray.fromCoordinate format context view resource = .ok result ∧
      result.view = .ok view' ∧ view'.SameStorage source := by
  rcases hsource.source with ⟨-, hcanonical, hentries⟩
  have hlength := @length_regroup _ .csr _ _ _ hentries.ordered hentries.inRange
  rw [hcanonical.length_entries] at hlength
  rcases convertToCoordinate_ok hsource hserial hspace hfits' hserves' with ⟨array, harray, hstores⟩
  rcases hstores with ⟨view, hview, hcreate, hshape, hnonzeros, hview_entries⟩
  rw [hlength] at hnonzeros
  rw [← hshape, ← hnonzeros] at hfits hserves
  rcases @fromCoordinate_ok E _ format context resource view ⟨_, _, _, _, hcreate⟩ hserial hspace
    hfits hserves with ⟨result, hresult, hback⟩
  rw [hshape, hview_entries, regroup_regroup hentries.ordered hentries.inRange] at hback
  rcases hback.created with ⟨view', hview', -, hcreated', hshape', -, hentries'⟩
  exact ⟨array, view, result, view', harray, hview, hresult, hview',
    hcreated'.sameStorage hsource hshape' hentries'⟩

theorem compressed_compressed_compressed {source : CompressedSparseView E format}
    (other : SparseCompressedFormat) (hsource : source.Created)
    (hserial : context.backend = .serial) (hspace : resource.space = .host)
    (hfits : CompressedFits E format source.shape source.nonzeros)
    (hfits' : CompressedFits E other source.shape source.nonzeros)
    (hserves : resource.Serves [] (compressedRequests E format source.shape source.nonzeros))
    (hserves' : resource.Serves [] (compressedRequests E other source.shape source.nonzeros)) :
    ∃ array view result view',
      CompressedSparseArray.fromCompressed other context source resource = .ok array ∧
      array.view = .ok view ∧
      CompressedSparseArray.fromCompressed format context view resource = .ok result ∧
      result.view = .ok view' ∧ view'.SameStorage source := by
  rcases hsource.source with ⟨-, hcanonical, hentries⟩
  have hlength := @length_regroup _ other _ _ _ hentries.ordered hentries.inRange
  rw [hcanonical.length_entries] at hlength
  rcases @fromCompressed_ok E _ other format context resource source hsource hserial hspace hfits'
    hserves' with ⟨array, harray, hstores⟩
  rcases hstores.created with ⟨view, hview, -, hcreated, hshape, hnonzeros, hview_entries⟩
  rw [hlength] at hnonzeros
  rw [← hshape, ← hnonzeros] at hfits hserves
  rcases fromCompressed_ok hcreated hserial hspace hfits hserves with ⟨result, hresult, hback⟩
  rw [hshape, hview_entries, regroup_regroup hentries.ordered hentries.inRange] at hback
  rcases hback.created with ⟨view', hview', -, hcreated', hshape', -, hentries'⟩
  exact ⟨array, view, result, view', harray, hview, hresult, hview',
    hcreated'.sameStorage hsource hshape' hentries'⟩

/-- Conversions that fit the address space lose, duplicate and reorder nothing: every way back
leads to the source.  The others report an overflow before they allocate. -/
theorem conversions_correct (context : ExecutionContext) (resource : MemoryResource)
    (hserial : context.backend = .serial) (hspace : resource.space = .host) :
    (∀ format (source : CoordinateView E 2), source.Created →
      CompressedFits E format source.extents source.nonzeros → CoordinateFits E source.nonzeros →
      resource.Serves [] (compressedRequests E format source.extents source.nonzeros) →
      resource.Serves [] (coordinateRequests E source.nonzeros) →
      ∃ array view result,
        CompressedSparseArray.fromCoordinate format context source resource = .ok array ∧
        array.view = .ok view ∧
        CompressedSparseView.create array.offsetPointer array.indexPointer array.valuePointer
          source.extents source.nonzeros .host = .ok view ∧
        convertToCoordinate context view resource = .ok result ∧
        result.Stores source.extents source.entries) ∧
    (∀ format (source : CompressedSparseView E format), source.Created →
      CompressedFits E format source.shape source.nonzeros →
      resource.Serves [] (compressedRequests E format source.shape source.nonzeros) →
      (CoordinateFits E source.nonzeros →
        resource.Serves [] (coordinateRequests E source.nonzeros) →
        ∃ array view result view',
          convertToCoordinate context source resource = .ok array ∧ array.view = .ok view ∧
          CompressedSparseArray.fromCoordinate format context view resource = .ok result ∧
          result.view = .ok view' ∧ view'.SameStorage source) ∧
      ∀ other, other ≠ format → CompressedFits E other source.shape source.nonzeros →
        resource.Serves [] (compressedRequests E other source.shape source.nonzeros) →
        ∃ array view result view',
          CompressedSparseArray.fromCompressed other context source resource = .ok array ∧
          array.view = .ok view ∧
          CompressedSparseArray.fromCompressed format context view resource = .ok result ∧
          result.view = .ok view' ∧ view'.SameStorage source) ∧
    (∀ format (source : CoordinateView E 2), source.Created →
      ¬ CompressedFits E format source.extents source.nonzeros →
      Overflows (CompressedSparseArray.fromCoordinate format context source)) ∧
    ∀ format (source : CompressedSparseView E format), source.Created →
      (¬ CoordinateFits E source.nonzeros → Overflows (convertToCoordinate context source)) ∧
      ∀ other, ¬ CompressedFits E other source.shape source.nonzeros →
        Overflows (CompressedSparseArray.fromCompressed other context source) := by
  refine ⟨?_, ?_, fun format source hsource => fromCoordinate_overflows hsource hserial,
    fun format source hsource => ⟨convertToCoordinate_overflows hsource hserial,
      fun other => fromCompressed_overflows hsource hserial⟩⟩
  · intro format source hsource hfits hfits' hserves hserves'
    exact coordinate_compressed_coordinate hsource hserial hspace hfits hfits' hserves hserves'
  · intro format source hsource hfits hserves
    refine ⟨fun hfits' hserves' => ?_, fun other _ hfits' hserves' => ?_⟩
    · exact compressed_coordinate_compressed hsource hserial hspace hfits hfits' hserves hserves'
    · exact compressed_compressed_compressed other hsource hserial hspace hfits hfits' hserves
        hserves'

end RoundTrips

/-- Two entries in one column, one of them an explicit zero. -/
def sampleCoordinates : CoordinateView int64.Value 2 :=
  .ofHost ⟨16, [⟨[0, 1], rfl⟩, ⟨[1, 1], rfl⟩]⟩
    ⟨128, [staticCast int64 5, staticCast int64 0]⟩ ⟨[2, 2], rfl⟩ 2

/-- No entries, in a matrix with very many rows and no columns. -/
def tallCoordinates : CoordinateView int64.Value 2 :=
  .ofHost ⟨0, []⟩ ⟨0, []⟩ ⟨[4611686018427387904, 0], rfl⟩ 0

theorem tallCoordinates_created : tallCoordinates.Created :=
  ⟨⟨0, []⟩, ⟨0, []⟩, ⟨[4611686018427387904, 0], rfl⟩, 0, rfl⟩

theorem conversions_correct_sample :
    (∃ array view result,
      CompressedSparseArray.fromCoordinate .csc .serial sampleCoordinates bumpResource =
        .ok array ∧
      array.view = .ok view ∧ convertToCoordinate .serial view bumpResource = .ok result ∧
      result.Stores ⟨[2, 2], rfl⟩ sampleCoordinates.entries) ∧
    Overflows (CompressedSparseArray.fromCoordinate .csr .serial tallCoordinates) := by
  have hcreated : sampleCoordinates.Created :=
    ⟨sampleCoordinates.coordinates, sampleCoordinates.values, ⟨[2, 2], rfl⟩, 2, rfl⟩
  have hfits : CompressedFits int64.Value .csc sampleCoordinates.extents 2 :=
    ⟨by decide, by decide, by decide⟩
  have hfits' : CoordinateFits int64.Value 2 := ⟨by decide, by decide⟩
  have hwide : ¬ CompressedFits int64.Value .csr tallCoordinates.extents 0 := by
    intro hfits
    exact absurd hfits.offsets (by decide)
  constructor
  · rcases (conversions_correct .serial bumpResource rfl rfl).1 .csc sampleCoordinates hcreated hfits
      hfits' ⟨_, rfl, _, rfl, _, rfl, trivial⟩ ⟨_, rfl, _, rfl, trivial⟩ with
      ⟨array, view, result, harray, hview, -, hresult, hstores⟩
    exact ⟨array, view, result, harray, hview, hresult, hstores⟩
  · exact (conversions_correct .serial bumpResource rfl rfl).2.2.1 .csr tallCoordinates
      tallCoordinates_created hwide

/-- Rows that no entry can occupy are still counted in the offsets: the conversion of an empty
matrix with very many rows overflows before anything is allocated. -/
theorem fromCoordinate_overflow :
    ∃ source : CoordinateView int64.Value 2,
      validateShape source.extents = .ok 0 ∧ source.Created ∧
      ∀ resource : MemoryResource, resource.space = .host →
        CompressedSparseArray.fromCoordinate .csr .serial source resource =
          .error multiplicationOverflow := by
  have haccess : validateSparseAccess tallCoordinates.memorySpace .serial = .ok () := rfl
  refine ⟨tallCoordinates, rfl, tallCoordinates_created, fun resource hspace => ?_⟩
  rw [CompressedSparseArray.fromCoordinate, validateSerialHost_ok_iff.2 rfl, Result.ok_bind,
    haccess, Result.ok_bind, CompressedSparseArray.allocateAndFill, failIf,
    if_neg (by simpa using hspace)]
  rfl

end Sparse
end AscCpp
