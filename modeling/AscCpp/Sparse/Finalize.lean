import AscCpp.Sparse.Duplicates

/-!
# Finalize — what a builder finalizes to

`CoordinateBuilder.Holds` is the invariant of a builder between its creation and `Finalize`: the
entries that were added are the live cells, inside the shape and inside the allocated blocks.

- `CoordinateBuilder.addAll_holds`: creation and additions establish it.
- `CoordinateBuilder.finalize_ok`: a finalized array holds the combined groups of the sorted
  entries.
- `finalize_spec`, `finalize_failure_spec`: sums per coordinate, and when finalizing fails.
-/

namespace AscCpp
namespace Sparse

open AscCpp.Core Library

namespace CoordinateBuilder

variable {E : Type} [SparseElement E] {rank : Nat}

/-! ## Builders between creation and finalization -/

/-- A builder of the capacity into which the entries have been added. -/
structure Holds (resource : MemoryResource) (extents : Extents rank) (capacity : Nat)
    (builder : CoordinateBuilder E rank) (added : List (Coordinate rank × E)) : Prop where
  resource_eq : builder.resource = some resource
  extents_eq : builder.extents = extents
  capacity_eq : builder.capacity = capacity
  size_eq : builder.size = added.length
  size_le : added.length ≤ capacity
  coordinateBytes : (capacity * rank * indexSize : Nat) ≤ sizeType.maximum
  valueBytes : (capacity * SparseElement.size E : Nat) ≤ sizeType.maximum
  coordinateBlock :
    Buffer.Allocated resource [] (capacity * rank * indexSize) builder.coordinates
  valueBlock :
    Buffer.Allocated resource [builder.coordinates.block] (capacity * SparseElement.size E)
      builder.values
  length_cells : builder.storage.cells.length = capacity
  cells_take : builder.storage.cells.take added.length = added
  inRange : ∀ entry ∈ added, InRange entry.1 extents.values

variable {resource : MemoryResource} {extents : Extents rank}

theorem create_ok_iff {capacity : Nat} {builder : CoordinateBuilder E rank} :
    create resource extents capacity = .ok builder ↔
      (resource.space = .host ∧ (extents.logicalSize = 0 → capacity = 0) ∧
        (capacity : Int) ≤ sizeType.maximum ∧
        (capacity * rank * indexSize : Nat) ≤ sizeType.maximum ∧
        (capacity * SparseElement.size E : Nat) ≤ sizeType.maximum) ∧
      ∃ coordinateBuffer,
        Buffer.allocate resource [] (capacity * rank * indexSize) indexSize =
            .ok coordinateBuffer ∧
          ∃ valueBuffer,
            Buffer.allocate resource [coordinateBuffer.block]
                (capacity * SparseElement.size E) (SparseElement.alignment E) =
                .ok valueBuffer ∧
              builder =
                { resource := some resource
                  coordinates := coordinateBuffer
                  values := valueBuffer
                  storage := .allocate capacity
                  extents := extents
                  capacity := capacity } := by
  unfold create
  simp only [Result.unit_bind_eq_ok_iff, Result.failIf_eq_ok_iff, entryBytes_bind_eq_ok_iff,
    Int.toNat_natCast]
  simp only [Result.bind_eq_ok_iff, Except.ok.injEq]
  constructor
  · rintro ⟨hspace, -, hcapacity, hbytes, coordinateBuffer, hcoordinates, valueBuffer, hvalues,
      rfl⟩
    exact ⟨⟨by simpa using hspace, by simpa using hcapacity, hbytes⟩, coordinateBuffer,
      hcoordinates, valueBuffer, hvalues, rfl⟩
  · rintro ⟨⟨hspace, hcapacity, hbytes⟩, coordinateBuffer, hcoordinates, valueBuffer, hvalues,
      rfl⟩
    exact ⟨by simpa using hspace, by omega, by simpa using hcapacity, hbytes, coordinateBuffer,
      hcoordinates, valueBuffer, hvalues, rfl⟩

theorem create_holds {capacity : Nat} {builder : CoordinateBuilder E rank}
    (h : create resource extents capacity = .ok builder) :
    Holds resource extents capacity builder [] := by
  rcases create_ok_iff.1 h with
    ⟨⟨-, -, -, hcoordinateBytes, hvalueBytes⟩, coordinateBuffer, hcoordinates, valueBuffer,
      hvalues, rfl⟩
  -- The storage is fresh, so that the prefix of added entries is empty.
  exact
    { resource_eq := rfl
      extents_eq := rfl
      capacity_eq := rfl
      size_eq := rfl
      size_le := Nat.zero_le _
      coordinateBytes := hcoordinateBytes
      valueBytes := hvalueBytes
      coordinateBlock := Buffer.allocate_spec hcoordinates
      valueBlock := Buffer.allocate_spec hvalues
      length_cells := by simp [EntryStorage.cells, EntryStorage.allocate]
      cells_take := rfl
      inRange := fun entry hmem => by cases hmem }

/-- A negative capacity is refused. -/
theorem create_capacity {capacity : Int} {builder : CoordinateBuilder E rank}
    (h : create resource extents capacity = .ok builder) : ∃ count : Nat, capacity = count := by
  simp only [create, Result.unit_bind_eq_ok_iff, Result.failIf_eq_ok_iff] at h
  exact ⟨capacity.toNat, by omega⟩

variable {capacity : Nat} {builder : CoordinateBuilder E rank}
  {added : List (Coordinate rank × E)}

theorem Holds.valid (h : Holds resource extents capacity builder added) :
    builder.valid = true := by
  simp [CoordinateBuilder.valid, h.resource_eq, h.coordinateBlock.valid, h.valueBlock.valid]

/-- An addition succeeds inside the shape and below the capacity. -/
theorem Holds.add_ok_iff (h : Holds resource extents capacity builder added)
    {coordinate : Coordinate rank} {value : E} {next : CoordinateBuilder E rank} :
    builder.add coordinate value = .ok next ↔
      InRange coordinate extents.values ∧ added.length < capacity ∧
        next =
          { builder with
            storage := builder.storage.setEntry added.length (coordinate, value)
            size := added.length + 1 } := by
  have hsize := h.size_le
  simp only [add, h.valid, Result.unit_bind_eq_ok_iff, Result.failIf_eq_ok_iff,
    validateCoordinate_ok_iff, h.extents_eq, h.size_eq, h.capacity_eq, Except.ok.injEq]
  constructor
  · rintro ⟨-, hrange, hfull, rfl⟩
    exact ⟨hrange, by omega, rfl⟩
  · rintro ⟨hrange, hfull, rfl⟩
    exact ⟨by simp, hrange, by omega, rfl⟩

theorem Holds.add (h : Holds resource extents capacity builder added)
    {coordinate : Coordinate rank} {value : E} {next : CoordinateBuilder E rank}
    (hadd : builder.add coordinate value = .ok next) :
    Holds resource extents capacity next (added ++ [(coordinate, value)]) := by
  rcases h.add_ok_iff.1 hadd with ⟨hrange, hlt, rfl⟩
  have hcells := h.length_cells
  -- Only the cell at the old size changes, and it extends the prefix.
  exact
    { resource_eq := h.resource_eq
      extents_eq := h.extents_eq
      capacity_eq := h.capacity_eq
      size_eq := by simp
      size_le := by
        rw [List.length_append]
        exact hlt
      coordinateBytes := h.coordinateBytes
      valueBytes := h.valueBytes
      coordinateBlock := h.coordinateBlock
      valueBlock := h.valueBlock
      length_cells := by simpa using hcells
      cells_take := by
        rw [EntryStorage.cells_setEntry, List.length_append, List.length_singleton,
          List.take_add_one, List.take_set_of_le le_rfl, h.cells_take]
        simp [hcells, hlt]
      inRange := by
        intro entry hmem
        rcases List.mem_append.1 hmem with hold | hnew
        · exact h.inRange entry hold
        · rw [List.mem_singleton.1 hnew]
          exact hrange }

theorem Holds.addAll (h : Holds resource extents capacity builder added)
    {more : List (Coordinate rank × E)} {next : CoordinateBuilder E rank}
    (hadd : builder.addAll more = .ok next) :
    Holds resource extents capacity next (added ++ more) := by
  induction more generalizing builder added with
  | nil =>
    cases hadd
    simpa using h
  | cons entry more ih =>
    rw [CoordinateBuilder.addAll, List.foldlM_cons, Result.bind_eq_ok_iff] at hadd
    rcases hadd with ⟨middle, hfirst, hrest⟩
    simpa using ih (h.add hfirst) hrest

/-- Entries inside the shape can be added as long as the capacity lasts. -/
theorem Holds.addAll_ok (h : Holds resource extents capacity builder added)
    {more : List (Coordinate rank × E)} (hrange : ∀ entry ∈ more, InRange entry.1 extents.values)
    (hroom : added.length + more.length ≤ capacity) : ∃ next, builder.addAll more = .ok next := by
  induction more generalizing builder added with
  | nil => exact ⟨builder, rfl⟩
  | cons entry more ih =>
    rw [List.forall_mem_cons] at hrange
    rw [List.length_cons] at hroom
    have hfirst : builder.add entry.1 entry.2 = .ok _ :=
      h.add_ok_iff.2 ⟨hrange.1, by omega, rfl⟩
    rcases ih (h.add hfirst) hrange.2 (by rw [List.length_append, List.length_singleton]; omega) with
      ⟨next, hnext⟩
    refine ⟨next, ?_⟩
    rw [CoordinateBuilder.addAll, List.foldlM_cons, hfirst]
    exact hnext

/-- Creation and additions establish the invariant. -/
theorem addAll_holds {capacity : Int} {empty : CoordinateBuilder E rank}
    (hcreate : create resource extents capacity = .ok empty)
    (hadd : empty.addAll added = .ok builder) :
    ∃ count : Nat, Holds resource extents count builder added := by
  rcases create_capacity hcreate with ⟨count, rfl⟩
  exact ⟨count, by simpa using (create_holds hcreate).addAll hadd⟩

/-! ## Finalizing -/

theorem Holds.cells_eq (h : Holds resource extents capacity builder added) :
    builder.storage.cells = added ++ builder.storage.cells.drop added.length := by
  have hsplit := List.take_append_drop added.length builder.storage.cells
  rw [h.cells_take] at hsplit
  exact hsplit.symm

theorem Holds.checkFinalize_ok_iff (h : Holds resource extents capacity builder added)
    {context : ExecutionContext} {duplicatePolicy : DuplicatePolicy} :
    builder.checkFinalize context duplicatePolicy = .ok () ↔
      context.backend = .serial ∧
        ∀ key first rest, valuesAt key added = first :: rest →
          GroupAccepted duplicatePolicy first rest := by
  simp only [checkFinalize, h.valid, Result.unit_bind_eq_ok_iff, Result.failIf_eq_ok_iff,
    validateSerialHost_ok_iff, h.size_eq, preflightDuplicates_ok_iff h.cells_eq]
  simp

/-- The compaction of the sorted cells, with any addition that combines the groups. -/
theorem Holds.compactWith_eq (h : Holds resource extents capacity builder added)
    (duplicatePolicy : DuplicatePolicy) (zeroPolicy : ExplicitZeroPolicy)
    (combine : E → List E → E) :
    ∃ sorted, ∃ result : EntryStorage E rank,
      StablySorts added sorted ∧ sorted.length = added.length ∧
      result.cells.take (combineRuns combine (keepsValue zeroPolicy) sorted).length =
        combineRuns combine (keepsValue zeroPolicy) sorted ∧
      ∀ {m : Type → Type} [Monad m] [LawfulMonad m] (add : E → E → m E),
        Combines add duplicatePolicy combine added →
        compactWith add duplicatePolicy zeroPolicy (stableSort builder.storage builder.size)
            builder.size =
          pure (result, (combineRuns combine (keepsValue zeroPolicy) sorted).length) := by
  have hsize : added.length ≤ builder.storage.cells.length := by
    rw [h.length_cells]
    exact h.size_le
  rcases stableSort_cells hsize with ⟨sorted, hcells, hlength, hsorts⟩
  rw [h.cells_take] at hsorts
  rcases @compactWith_cells E _ rank duplicatePolicy zeroPolicy combine _ _ _ hcells
    hsorts.sorted with ⟨result, htake, hrun⟩
  refine ⟨sorted, result, hsorts, hlength, htake, fun add hcombine => ?_⟩
  have hgroups : Combines add duplicatePolicy combine sorted := by
    intro key first rest hvalues
    rw [hsorts.valuesAt_eq] at hvalues
    exact hcombine key first rest hvalues
  have hresult := hrun add hgroups
  rw [hlength] at hresult
  rwa [h.size_eq]

/-- The array over the blocks of a builder. -/
def arrayOf (resource : MemoryResource) (extents : Extents rank)
    (builder : CoordinateBuilder E rank) (storage : EntryStorage E rank) (nonzeros : Nat) :
    CoordinateArray E rank :=
  { resource := some resource
    coordinates := builder.coordinates
    values := builder.values
    storage := storage
    extents := extents
    nonzeros := nonzeros }

/-- A builder that passes the checks finalizes to the combined groups of its sorted entries. -/
theorem Holds.finalize_ok (h : Holds resource extents capacity builder added)
    {context : ExecutionContext} {duplicatePolicy : DuplicatePolicy}
    {zeroPolicy : ExplicitZeroPolicy}
    (hcheck : builder.checkFinalize context duplicatePolicy = .ok ()) :
    ∃ sorted result, StablySorts added sorted ∧ sorted.length = added.length ∧
      result.cells.take
          (combineRuns (combineValues duplicatePolicy) (keepsValue zeroPolicy) sorted).length =
        combineRuns (combineValues duplicatePolicy) (keepsValue zeroPolicy) sorted ∧
      (builder.finalize context duplicatePolicy zeroPolicy).1 =
        .ok (arrayOf resource extents builder result
          (combineRuns (combineValues duplicatePolicy) (keepsValue zeroPolicy) sorted).length) := by
  rcases h.compactWith_eq duplicatePolicy zeroPolicy (combineValues duplicatePolicy) with
    ⟨sorted, result, hsorts, hlength, htake, hrun⟩
  have hunchecked := @hrun Id _ _ (fun left right => pure (SparseElement.add left right))
    fun _ _ _ _ => rfl
  refine ⟨sorted, result, hsorts, hlength, htake, ?_⟩
  simp only [finalize, hcheck, compact, hunchecked, h.resource_eq, h.extents_eq]
  rfl

/-- An addition that combines the groups as the unchecked one does compacts to the same arrays. -/
theorem Holds.compactWith_eq_compact (h : Holds resource extents capacity builder added)
    {m : Type → Type} [Monad m] [LawfulMonad m] {add : E → E → m E}
    {duplicatePolicy : DuplicatePolicy} (zeroPolicy : ExplicitZeroPolicy)
    (hcombine : Combines add duplicatePolicy (combineValues duplicatePolicy) added) :
    compactWith add duplicatePolicy zeroPolicy (stableSort builder.storage builder.size)
        builder.size =
      pure (compact duplicatePolicy zeroPolicy (stableSort builder.storage builder.size)
        builder.size) := by
  rcases h.compactWith_eq duplicatePolicy zeroPolicy (combineValues duplicatePolicy) with
    ⟨sorted, result, -, -, -, hrun⟩
  have hunchecked := @hrun Id _ _ (fun left right => pure (SparseElement.add left right))
    fun _ _ _ _ => rfl
  rw [hrun add hcombine, compact, hunchecked]
  rfl

/-- A failing `Finalize` leaves the builder as it was. -/
theorem finalize_error {context : ExecutionContext} {duplicatePolicy : DuplicatePolicy}
    {zeroPolicy : ExplicitZeroPolicy} {status : Status}
    (h : (builder.finalize context duplicatePolicy zeroPolicy).1 = .error status) :
    (builder.finalize context duplicatePolicy zeroPolicy).2 = builder := by
  unfold finalize at h ⊢
  cases hcheck : builder.checkFinalize context duplicatePolicy with
  | error status => rfl
  | ok _ =>
    rw [hcheck] at h
    cases h

/-- `Finalize` fails exactly when its checks do. -/
theorem finalize_error_iff {context : ExecutionContext} {duplicatePolicy : DuplicatePolicy}
    {zeroPolicy : ExplicitZeroPolicy} :
    (∃ status, (builder.finalize context duplicatePolicy zeroPolicy).1 = .error status) ↔
      ¬ builder.checkFinalize context duplicatePolicy = .ok () := by
  unfold finalize
  cases hcheck : builder.checkFinalize context duplicatePolicy with
  | error status => simp
  | ok _ => simp

end CoordinateBuilder

/-! ## Views of arrays -/

namespace CoordinateArray

variable {E : Type} [SparseElement E] {rank : Nat}

/-- The view of an array that has not been moved from. -/
def hostView (array : CoordinateArray E rank) : CoordinateView E rank :=
  .ofHost array.coordinatePointer array.valuePointer array.extents.values array.nonzeros

omit [SparseElement E] in
theorem view_ok {array : CoordinateArray E rank} (h : array.valid = true) :
    array.view = .ok array.hostView := by
  rw [view, failIf, if_neg (by simp [h])]
  rfl

/-- The stored entries are the first cells. -/
theorem entries_hostView {array : CoordinateArray E rank}
    (h : array.nonzeros ≤ array.storage.cells.length) :
    array.hostView.entries = array.storage.cells.take array.nonzeros := by
  apply List.ext_getElem
  · simpa [CoordinateView.ofHost, hostView] using h
  · intro position hleft hright
    have hposition : position < array.storage.cells.length := by
      rw [List.length_take] at hright
      omega
    rw [CoordinateView.getElem_entries, List.getElem_take]
    exact Prod.ext (EntryStorage.coordinateAt_eq hposition) (EntryStorage.valueAt_eq hposition)

end CoordinateArray

/-! ## Finalized arrays -/

section Finalized

open CoordinateBuilder (arrayOf)

variable {E : Type} [SparseElement E] {rank : Nat} {resource : MemoryResource}
  {extents : Extents rank} {capacity : Nat} {builder : CoordinateBuilder E rank}
  {added : List (Coordinate rank × E)}

/-- The part of an allocated block that is in use is a span that `Create` accepts. -/
theorem validateAddressSpan_of_allocated {live : List Block} {bytes used : Nat} {buffer : Buffer}
    (h : Buffer.Allocated resource live bytes buffer) (hused : used ≤ bytes) :
    validateAddressSpan buffer.data used = .ok () := by
  have hnull := h.null_iff
  have hfits := h.fits
  exact validateAddressSpan_ok_iff.2 (by omega)

theorem entries_arrayOf {storage : EntryStorage E rank} {entries : List (Coordinate rank × E)}
    (htake : storage.cells.take entries.length = entries) :
    (arrayOf resource extents builder storage entries.length).hostView.entries = entries := by
  have hlength : entries.length ≤ storage.cells.length := by
    have := congrArg List.length htake
    rw [List.length_take] at this
    omega
  rw [CoordinateArray.entries_hostView hlength]
  exact htake

/-- `CoordinateView::Create` accepts canonical entries in the blocks of a builder. -/
theorem CoordinateBuilder.Holds.create_view
    (h : builder.Holds resource extents capacity added) {storage : EntryStorage E rank}
    {entries : List (Coordinate rank × E)} (hcount : entries.length ≤ capacity)
    (htake : storage.cells.take entries.length = entries) (hsorted : StrictlyKeySorted entries)
    (hrange : ∀ entry ∈ entries, InRange entry.1 extents.values) :
    CoordinateView.create
        (arrayOf resource extents builder storage entries.length).coordinatePointer
        (arrayOf resource extents builder storage entries.length).valuePointer extents.values
        entries.length .host =
      .ok (arrayOf resource extents builder storage entries.length).hostView := by
  have hentries := @entries_arrayOf E _ rank resource extents builder storage entries htake
  have hcoordinateBytes : entries.length * rank * indexSize ≤ capacity * rank * indexSize := by
    gcongr
  have hvalueBytes :
      entries.length * SparseElement.size E ≤ capacity * SparseElement.size E := by
    gcongr
  have hcoordinateFits := h.coordinateBytes
  have hvalueFits := h.valueBytes
  have hlogical := (logicalExtent_ok_iff extents.nonneg _).1 extents.logical
  have hcanonical : StrictlyKeySorted
      (arrayOf resource extents builder storage entries.length).hostView.entries := by
    rwa [hentries]
  -- The two buffers are disjoint, and the view uses a prefix of each.
  have hapart : byteSpansOverlap builder.coordinates.data (entries.length * rank * indexSize)
      builder.values.data (entries.length * SparseElement.size E) = false := by
    have hdisjoint := h.valueBlock.disjoint builder.coordinates.block (List.mem_singleton_self _)
    have hfits := h.coordinateBlock.fits
    have hfits' := h.valueBlock.fits
    refine byteSpansOverlap_eq_false (by omega) (by omega)
      (hdisjoint.shrink ?_ ?_)
    · rw [Buffer.block, h.coordinateBlock.size_eq]
      exact hcoordinateBytes
    · rw [Buffer.block, h.valueBlock.size_eq]
      exact hvalueBytes
  refine CoordinateView.create_host_ok_iff.2 ⟨?_, rfl⟩
  exact
    { nonneg := extents.nonneg
      logical := hlogical.2
      -- Distinct keys inside the extents are at most as many as there are elements.
      count_le := by
        have hkeys := length_le_prod extents.nonneg hsorted.keys_nodup fun coordinate hmem => by
          rcases List.mem_map.1 hmem with ⟨entry, hentry, rfl⟩
          exact hrange entry hentry
        simpa using hkeys
      coordinateBytes := by omega
      valueBytes := by omega
      coordinateSpan := validateAddressSpan_of_allocated h.coordinateBlock hcoordinateBytes
      valueSpan := validateAddressSpan_of_allocated h.valueBlock hvalueBytes
      apart := hapart
      inRange := by
        intro position hposition
        have hmem : _ ∈ (arrayOf resource extents builder storage entries.length).hostView.entries :=
          CoordinateView.mem_entries.2 ⟨position, hposition, rfl⟩
        rw [hentries] at hmem
        exact hrange _ hmem
      ordered := (CoordinateView.strictlyKeySorted_iff _).1 hcanonical }

theorem CoordinateBuilder.Holds.view_arrayOf
    (h : builder.Holds resource extents capacity added) (storage : EntryStorage E rank)
    (nonzeros : Nat) :
    (arrayOf resource extents builder storage nonzeros).view =
      .ok (arrayOf resource extents builder storage nonzeros).hostView := by
  apply CoordinateArray.view_ok
  simp [CoordinateArray.valid, arrayOf, h.coordinateBlock.valid, h.valueBlock.valid]

/-- The array has a view, `Create` accepts its storage as that view, and the view has the shape and
the entries. -/
def CoordinateArray.Stores (array : CoordinateArray E rank) (shape : Shape rank)
    (entries : List (Coordinate rank × E)) : Prop :=
  ∃ view, array.view = .ok view ∧
    CoordinateView.create array.coordinatePointer array.valuePointer shape entries.length .host =
      .ok view ∧
    view.extents = shape ∧ view.nonzeros = entries.length ∧ view.entries = entries

/-- Without repeated coordinates the first cells of the finalized array are the entries. -/
theorem CoordinateBuilder.Holds.finalize_cells
    (h : builder.Holds resource extents capacity added) (hnodup : (added.map Prod.fst).Nodup)
    {context : ExecutionContext} (hserial : context.backend = .serial)
    {entries : List (Coordinate rank × E)} (hsorted : StrictlyKeySorted entries)
    (hmem : ∀ entry, entry ∈ entries ↔ entry ∈ added) :
    ∃ storage, (builder.finalize context .reject .keep).1 =
        .ok (arrayOf resource extents builder storage entries.length) ∧
      storage.cells.take entries.length = entries := by
  have hgroups := keys_nodup_iff.1 hnodup
  have hcheck : builder.checkFinalize context .reject = .ok () := by
    refine h.checkFinalize_ok_iff.2 ⟨hserial, fun key first rest hvalues => ?_⟩
    exact ⟨fun _ => hgroups key first rest hvalues, first, rfl⟩
  rcases @Holds.finalize_ok E _ rank resource extents capacity builder added h context .reject .keep
    hcheck with ⟨sorted, storage, hsorts, hlength, htake, hresult⟩
  -- Both lists are sorted strictly, so it is enough that they have the same entries.
  have hstored : combineRuns (combineValues .reject) (keepsValue .keep) sorted = entries := by
    refine (combineRuns_strictlyKeySorted _ _ hsorts.sorted).ext hsorted ?_
    rintro ⟨key, value⟩
    rw [mem_combineRuns_iff hsorts.sorted, hsorts.valuesAt_eq, hmem, ← mem_valuesAt]
    constructor
    · rintro ⟨⟨first, rest, hvalues, rfl⟩, -⟩
      rw [hvalues]
      exact List.mem_cons_self
    · intro hvalue
      cases hvalues : valuesAt key added with
      | nil =>
        rw [hvalues] at hvalue
        cases hvalue
      | cons first rest =>
        rw [hvalues, hgroups key first rest hvalues, List.mem_singleton] at hvalue
        exact ⟨⟨first, rest, rfl, hvalue⟩, rfl⟩
  rw [hstored] at htake hresult
  exact ⟨storage, hresult, htake⟩

/-- Entries in the cells of the array are stored, in their order. -/
theorem CoordinateBuilder.Holds.stores_arrayOf
    (h : builder.Holds resource extents capacity added) {storage : EntryStorage E rank}
    {entries : List (Coordinate rank × E)} (hcount : entries.length ≤ capacity)
    (htake : storage.cells.take entries.length = entries) (hsorted : StrictlyKeySorted entries)
    (hrange : ∀ entry ∈ entries, InRange entry.1 extents.values) :
    (arrayOf resource extents builder storage entries.length).Stores extents.values entries :=
  ⟨_, h.view_arrayOf storage entries.length, h.create_view hcount htake hsorted hrange, rfl, rfl,
    entries_arrayOf htake⟩

/-- Without repeated coordinates the finalized array stores the entries in their order. -/
theorem CoordinateBuilder.Holds.finalize_distinct
    (h : builder.Holds resource extents capacity added) (hnodup : (added.map Prod.fst).Nodup)
    {context : ExecutionContext} (hserial : context.backend = .serial)
    {entries : List (Coordinate rank × E)} (hsorted : StrictlyKeySorted entries)
    (hmem : ∀ entry, entry ∈ entries ↔ entry ∈ added) :
    ∃ array, (builder.finalize context .reject .keep).1 = .ok array ∧
      array.Stores extents.values entries := by
  rcases h.finalize_cells hnodup hserial hsorted hmem with ⟨storage, hresult, htake⟩
  have hcount : entries.length ≤ capacity := by
    have hperm : entries.Perm added := (List.perm_ext_iff_of_nodup hsorted.nodup
      (List.Nodup.of_map _ hnodup)).2 hmem
    exact hperm.length_eq.trans_le h.size_le
  have hrange : ∀ entry ∈ entries, InRange entry.1 extents.values :=
    fun entry hentry => h.inRange entry ((hmem entry).1 hentry)
  exact ⟨_, hresult, h.stores_arrayOf hcount htake hsorted hrange⟩

end Finalized

/-! ## Results over an integral type -/

section Integral

variable {type : IntegerType} {rank : Nat} {resource : MemoryResource} {extents : Extents rank}
  {added sorted : List (Coordinate rank × type.Value)} {duplicatePolicy : DuplicatePolicy}
  {zeroPolicy : ExplicitZeroPolicy}

/-- Every coordinate that is kept is stored with its mathematical sum. -/
theorem mem_combined_iff (hsorts : StablySorts added sorted)
    (hgroups : ∀ key first rest, valuesAt key added = first :: rest →
      GroupAccepted duplicatePolicy first rest) (coordinate : Coordinate rank)
    (value : type.Value) :
    (coordinate, value) ∈
        combineRuns (combineValues duplicatePolicy) (keepsValue zeroPolicy) sorted ↔
      coordinate ∈ added.map Prod.fst ∧ value.val = sumOf (valuesAt coordinate added) ∧
        (zeroPolicy = .drop → sumOf (valuesAt coordinate added) ≠ 0) := by
  rw [mem_combineRuns_iff hsorts.sorted, hsorts.valuesAt_eq]
  -- A coordinate with no value was not added; one with values has their sum.
  cases hvalues : valuesAt coordinate added with
  | nil =>
    have hmem := valuesAt_eq_nil_iff.1 hvalues
    simp [hmem]
  | cons first rest =>
    have hmem : coordinate ∈ added.map Prod.fst := by
      by_contra hnot
      rw [valuesAt_eq_nil_iff.2 hnot] at hvalues
      cases hvalues
    have hcombined := (hgroups coordinate first rest hvalues).combine.2
    have hkeep : ∀ combined : type.Value, keepsValue zeroPolicy combined = true ↔
        (zeroPolicy = .drop → combined.val ≠ 0) := by
      intro combined
      cases zeroPolicy <;> simp [keepsValue, SparseElement.isZero]
    rw [hkeep]
    constructor
    · rintro ⟨⟨first', rest', heq, rfl⟩, hne⟩
      cases heq
      exact ⟨hmem, hcombined, by rwa [hcombined] at hne⟩
    · rintro ⟨-, hvalue, hne⟩
      have heq : value = combineValues duplicatePolicy first rest :=
        Subtype.ext (hvalue.trans hcombined.symm)
      exact ⟨⟨first, rest, rfl, heq⟩, by rwa [hvalue]⟩

/-- The sum at a coordinate is a value of the type. -/
theorem exists_sum
    (hgroups : ∀ key first rest, valuesAt key added = first :: rest →
      GroupAccepted duplicatePolicy first rest) (coordinate : Coordinate rank) :
    ∃ value : type.Value, value.val = sumOf (valuesAt coordinate added) := by
  cases hvalues : valuesAt coordinate added with
  | nil => exact ⟨SparseElement.zero, rfl⟩
  | cons first rest => exact ⟨_, (hgroups coordinate first rest hvalues).combine.2⟩

/-- A finalized array is canonical, stores the coordinates that its policy keeps, and maps every
coordinate to the mathematical sum of the values added there. -/
theorem finalize_spec {capacity : Int} {empty builder : CoordinateBuilder type.Value rank}
    {context : ExecutionContext} {array : CoordinateArray type.Value rank}
    (hcreate : CoordinateBuilder.create resource extents capacity = .ok empty)
    (hadd : empty.addAll added = .ok builder)
    (hfinalize : (builder.finalize context duplicatePolicy zeroPolicy).1 = .ok array) :
    ∃ view : CoordinateView type.Value rank,
      array.view = .ok view ∧
      CoordinateView.create array.coordinatePointer array.valuePointer extents.values
          array.nonzeros .host = .ok view ∧
      StrictlyKeySorted view.entries ∧
      (∀ entry ∈ view.entries, InRange entry.1 extents.values) ∧
      (view.nonzeros : Int) ≤ extents.logicalSize ∧
      (∀ coordinate, InRange coordinate extents.values →
        ∃ value, view.lookup coordinate = .ok value ∧
          value.val = sumOf (valuesAt coordinate added)) ∧
      ∀ coordinate, coordinate ∈ view.entries.map Prod.fst ↔
        coordinate ∈ added.map Prod.fst ∧
          (zeroPolicy = .drop → sumOf (valuesAt coordinate added) ≠ 0) := by
  rcases CoordinateBuilder.addAll_holds hcreate hadd with ⟨count, hholds⟩
  -- The finalize would have returned the failure of the check.
  have hcheck : builder.checkFinalize context duplicatePolicy = .ok () := by
    by_contra hfails
    rcases CoordinateBuilder.finalize_error_iff.2 hfails with ⟨status, herror⟩
    rw [hfinalize] at herror
    cases herror
  have hgroups := (hholds.checkFinalize_ok_iff.1 hcheck).2
  rcases hholds.finalize_ok hcheck with ⟨sorted, storage, hsorts, hlength, htake, hresult⟩
  rw [hresult, Except.ok.injEq] at hfinalize
  have hmem := @mem_combined_iff type rank added sorted duplicatePolicy zeroPolicy hsorts hgroups
  generalize hstored :
    combineRuns (combineValues duplicatePolicy) (keepsValue zeroPolicy) sorted = stored at *
  have hstrict : StrictlyKeySorted stored := by
    rw [← hstored]
    exact combineRuns_strictlyKeySorted _ _ hsorts.sorted
  -- Combining makes the list shorter at most, so the prefix of the storage suffices.
  have hcount : stored.length ≤ count := by
    rw [← hstored]
    exact (length_combineRuns_le _ _ _).trans (hlength ▸ hholds.size_le)
  have hrange : ∀ entry ∈ stored, InRange entry.1 extents.values := by
    rintro ⟨coordinate, value⟩ hentry
    rcases List.mem_map.1 ((hmem coordinate value).1 hentry).1 with ⟨entry, hadded, rfl⟩
    exact hholds.inRange entry hadded
  have hentries := @entries_arrayOf _ _ rank resource extents builder storage stored htake
  have hview := hholds.create_view hcount htake hstrict hrange
  have hkeys : ∀ coordinate, coordinate ∈ stored.map Prod.fst ↔
      coordinate ∈ added.map Prod.fst ∧
        (zeroPolicy = .drop → sumOf (valuesAt coordinate added) ≠ 0) := by
    intro coordinate
    rw [List.mem_map]
    constructor
    · rintro ⟨⟨_, value⟩, hentry, rfl⟩
      have hvalue := (hmem _ value).1 hentry
      exact ⟨hvalue.1, hvalue.2.2⟩
    · rintro ⟨hadded, hne⟩
      rcases exists_sum hgroups coordinate with ⟨value, hvalue⟩
      exact ⟨(coordinate, value), (hmem coordinate value).2 ⟨hadded, hvalue, hne⟩, rfl⟩
  subst hfinalize
  refine ⟨_, hholds.view_arrayOf storage stored.length, hview, by rwa [hentries],
    by rwa [hentries], ?_, ?_, by rwa [hentries]⟩
  · have hcountLe := (CoordinateView.create_host_ok_iff.1 hview).1.count_le
    rwa [extents.logicalSize_eq]
  · intro coordinate hin
    by_cases hstoredKey : coordinate ∈ stored.map Prod.fst
    · rcases List.mem_map.1 hstoredKey with ⟨⟨_, value⟩, hentry, rfl⟩
      refine ⟨value, ?_, ((hmem _ value).1 hentry).2.1⟩
      exact CoordinateView.lookup_of_mem rfl hin (by rwa [hentries]) (by rwa [hentries])
    · -- Nothing is stored: nothing was added there, or the policy dropped a zero sum.
      refine ⟨SparseElement.zero, CoordinateView.lookup_of_not_mem rfl hin (by rwa [hentries])
        (by rwa [hentries]), ?_⟩
      rw [hkeys, not_and] at hstoredKey
      by_cases hadded : coordinate ∈ added.map Prod.fst
      · have hzero := hstoredKey hadded
        rw [Classical.not_imp, not_not] at hzero
        exact hzero.2.symm
      · rw [valuesAt_eq_nil_iff.2 hadded]
        rfl

/-- Three entries at two coordinates of a shape of four. -/
def sampleExtents : Extents 1 :=
  { values := ⟨[4], rfl⟩, logicalSize := 4, nonneg := by decide, logical := rfl }

def int8 : IntegerType := ⟨true, 8⟩

def sampleEntries : List (Coordinate 1 × int8.Value) :=
  [(2 ::ᵥ List.Vector.nil, staticCast int8 100), (0 ::ᵥ List.Vector.nil, staticCast int8 1),
    (2 ::ᵥ List.Vector.nil, staticCast int8 (-100))]

set_option maxRecDepth 4096 in
theorem finalize_spec_sample :
    ∃ empty builder array view,
      CoordinateBuilder.create bumpResource sampleExtents 3 = .ok empty ∧
      empty.addAll sampleEntries = .ok builder ∧
      (builder.finalize .serial .sum .drop).1 = .ok array ∧
      array.view = .ok view ∧
      StrictlyKeySorted view.entries ∧
      ∃ value, view.lookup ⟨[2], rfl⟩ = .ok value ∧ value.val = 0 := by
  rcases @finalize_spec int8 1 bumpResource sampleExtents sampleEntries .sum .drop 3 _ _ .serial _
    rfl rfl rfl with ⟨view, hview, -, hsorted, -, -, hlookup, -⟩
  refine ⟨_, _, _, view, rfl, rfl, rfl, hview, hsorted, ?_⟩
  exact hlookup ⟨[2], rfl⟩ (.cons (by decide) .nil)

/-- When `Finalize` fails, that it then leaves the builder as it was, and that the unchecked
additions behind the checks do not overflow: the checked ones do not fail on the sorted entries and
compute the same. -/
theorem finalize_failure_spec {capacity : Int} {empty builder : CoordinateBuilder type.Value rank}
    {context : ExecutionContext}
    (hcreate : CoordinateBuilder.create resource extents capacity = .ok empty)
    (hadd : empty.addAll added = .ok builder) (hserial : context.backend = .serial) :
    (∀ zeroPolicy,
      (∃ status, (builder.finalize context .reject zeroPolicy).1 = .error status) ↔
        ¬ (added.map Prod.fst).Nodup) ∧
    (∀ zeroPolicy,
      (∃ status, (builder.finalize context .sum zeroPolicy).1 = .error status) ↔
        ∃ coordinate count,
          ¬ type.Representable (sumOf ((valuesAt coordinate added).take count))) ∧
    (∀ context duplicatePolicy zeroPolicy status,
      (builder.finalize context duplicatePolicy zeroPolicy).1 = .error status →
        (builder.finalize context duplicatePolicy zeroPolicy).2 = builder) ∧
    ∀ duplicatePolicy zeroPolicy,
      preflightDuplicates duplicatePolicy builder.storage builder.size = .ok () →
        compactWith SparseElement.addDuplicate duplicatePolicy zeroPolicy
            (stableSort builder.storage builder.size) builder.size =
          .ok (compact duplicatePolicy zeroPolicy (stableSort builder.storage builder.size)
            builder.size) := by
  rcases CoordinateBuilder.addAll_holds hcreate hadd with ⟨count, hholds⟩
  refine ⟨fun zeroPolicy => ?_, fun zeroPolicy => ?_,
    fun _ _ _ _ => CoordinateBuilder.finalize_error, fun duplicatePolicy zeroPolicy hpreflight => ?_⟩
  -- Under rejection the accepted groups are those of one value.
  · rw [CoordinateBuilder.finalize_error_iff, hholds.checkFinalize_ok_iff, keys_nodup_iff]
    simp only [hserial, true_and, groupAccepted_reject_iff]
  · rw [CoordinateBuilder.finalize_error_iff, hholds.checkFinalize_ok_iff]
    -- Under summation a group fails at the first partial sum that is out of range.
    simp only [hserial, true_and, groupAccepted_sum_iff]
    constructor
    · intro hfails
      by_contra hall
      refine hfails fun key first rest hvalues count => ?_
      by_contra hout
      exact hall ⟨key, count, by rwa [hvalues]⟩
    · rintro ⟨coordinate, count, hout⟩ hall
      cases hvalues : valuesAt coordinate added with
      | nil =>
        rw [hvalues, List.take_nil] at hout
        exact hout type.representable_zero
      | cons first rest =>
        rw [hvalues] at hout
        exact hout (hall coordinate first rest hvalues count)
  · rw [hholds.size_eq, preflightDuplicates_ok_iff hholds.cells_eq] at hpreflight
    exact hholds.compactWith_eq_compact zeroPolicy fun key first rest hvalues =>
      (hpreflight key first rest hvalues).combine.1

/-- Two values at one coordinate are refused, and the builder keeps them. -/
theorem finalize_failure_spec_sample :
    ∃ empty builder status,
      CoordinateBuilder.create bumpResource sampleExtents 3 = .ok empty ∧
      empty.addAll sampleEntries = .ok builder ∧
      (builder.finalize .serial .reject .keep).1 = .error status ∧
      (builder.finalize .serial .reject .keep).2 = builder := by
  rcases @finalize_failure_spec int8 1 bumpResource sampleExtents sampleEntries 3 _ _ .serial
    rfl rfl rfl with ⟨hreject, -, hkept, -⟩
  rcases (hreject .keep).2 (by decide) with ⟨status, hstatus⟩
  exact ⟨_, _, status, rfl, rfl, hstatus, hkept _ _ _ _ hstatus⟩

end Integral

end Sparse
end AscCpp
