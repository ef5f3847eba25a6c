import AscCpp.Random.SparseSelection

/-!
# SparseSearch — the entries that `GenerateSparseUniform01` stores

- `Searched.step`: the search finds the least candidate that has not been selected.
- `coordinateFromOrdinal_lt`: the order of the ordinals is that of the coordinates.
- `addSelected_spec`, `writeValues_take`: what has been added, and the values written over it.
- `sparseGeneration_correct`: both generators select the same ordinals.
-/

namespace AscCpp
namespace Random

open AscCpp.Core Library AscCpp.Sparse

/-! ## The search -/

section Search

variable {priorities : Nat → BitVec 64} {logicalSize : Nat}
  {previous : Option (BitVec 64 × Nat)} {ordinals : List Nat}

/-- An ordinal with its priority. -/
def withPriority (priorities : Nat → BitVec 64) (ordinal : Nat) : BitVec 64 × Nat :=
  (priorities ordinal, ordinal)

theorem searchRound_map (priorities : Nat → BitVec 64) (previous : Option (BitVec 64 × Nat))
    (best : Option Nat) (ordinal : Nat) :
    searchRound priorities previous (best.map (withPriority priorities)) ordinal =
      (keepLeast (candidateKey priorities) (isBehind priorities previous) best ordinal).map
        (withPriority priorities) := by
  unfold searchRound keepLeast
  split
  · cases best with
    | none => rfl
    | some current =>
      have hless := priorityOrdinalLess_iff priorities ordinal current
      simp only [Option.map_some, withPriority]
      rw [if_congr hless rfl rfl]
      split <;> rfl
  · rfl

theorem foldl_searchRound (priorities : Nat → BitVec 64) (previous : Option (BitVec 64 × Nat))
    (items : List Nat) :
    items.foldl (searchRound priorities previous) none =
      (items.foldl (keepLeast (candidateKey priorities) (isBehind priorities previous)) none).map
        (withPriority priorities) :=
  @List.foldl_hom _ _ _ (Option.map (withPriority priorities)) _ _ items none
    fun best ordinal => searchRound_map priorities previous best ordinal

/-- What has been selected, and what the next round of the search passes over. -/
structure Searched (priorities : Nat → BitVec 64) (logicalSize : Nat)
    (previous : Option (BitVec 64 × Nat)) (ordinals : List Nat) : Prop where
  smallest : Smallest (candidateKey priorities) (Finset.range logicalSize) ordinals.length
    ordinals.toFinset
  behind_iff : ∀ ordinal < logicalSize,
    isBehind priorities previous ordinal = true ↔ ordinal ∉ ordinals

namespace Searched

theorem start (priorities : Nat → BitVec 64) (logicalSize : Nat) :
    Searched priorities logicalSize none [] :=
  ⟨.empty _, fun _ _ => ⟨fun _ => List.not_mem_nil, fun _ => rfl⟩⟩

theorem nodup (h : Searched priorities logicalSize previous ordinals) : ordinals.Nodup :=
  Multiset.toFinset_card_eq_card_iff_nodup.1 h.smallest.card_eq

/-- As long as there are other candidates, the search finds the least one of them. -/
theorem searchNext_spec (h : Searched priorities logicalSize previous ordinals)
    (hmore : ordinals.length < logicalSize) :
    ∃ best, searchNext priorities logicalSize previous = withPriority priorities best ∧
      best < logicalSize ∧ best ∉ ordinals ∧
      ∀ other < logicalSize, other ∉ ordinals →
        candidateKey priorities best ≤ candidateKey priorities other := by
  have hleast := least_foldl (candidateKey priorities) (isBehind priorities previous)
    (List.range logicalSize)
  unfold searchNext
  rw [foldl_searchRound]
  cases hbest : (List.range logicalSize).foldl
      (keepLeast (candidateKey priorities) (isBehind priorities previous)) none with
  | none =>
    rw [hbest] at hleast
    -- Fewer ordinals than there are have been selected, so one of them is not passed over.
    have hcard : ordinals.toFinset.card < (Finset.range logicalSize).card := by
      rw [h.smallest.card_eq, Finset.card_range]
      exact hmore
    rcases Finset.exists_mem_notMem_of_card_lt_card hcard with ⟨other, hother, hmissing⟩
    rw [Finset.mem_range] at hother
    rw [List.mem_toFinset] at hmissing
    have hpassed := hleast other (List.mem_range.2 hother)
    rw [(h.behind_iff other hother).2 hmissing] at hpassed
    cases hpassed
  | some best =>
    rw [hbest] at hleast
    rcases hleast with ⟨hmem, hbehind, hleast⟩
    rw [List.mem_range] at hmem
    refine ⟨best, rfl, hmem, (h.behind_iff best hmem).1 hbehind, fun other hother hmissing => ?_⟩
    exact hleast other (List.mem_range.2 hother) ((h.behind_iff other hother).2 hmissing)

theorem step (h : Searched priorities logicalSize previous ordinals) {best : Nat}
    (hbest : best < logicalSize) (hnew : best ∉ ordinals)
    (hleast : ∀ other < logicalSize, other ∉ ordinals →
      candidateKey priorities best ≤ candidateKey priorities other) :
    Searched priorities logicalSize (some (withPriority priorities best))
      (ordinals ++ [best]) := by
  have hmem : best ∈ Finset.range logicalSize := Finset.mem_range.2 hbest
  -- One more ordinal, whose key is the least of those not chosen yet.
  have hnew' : best ∉ ordinals.toFinset := fun hold => hnew (List.mem_toFinset.1 hold)
  constructor
  · have hset : (ordinals ++ [best]).toFinset = insert best ordinals.toFinset := by
      ext ordinal
      simp
    rw [hset, List.length_append, List.length_singleton]
    refine h.smallest.insert (fun _ _ heq => candidateKey_injective priorities heq) hmem hnew' ?_
    intro other hother hmissing
    exact hleast other (Finset.mem_range.1 hother)
      fun hold => hmissing (List.mem_toFinset.2 hold)
  · intro ordinal hordinal
    -- Behind the new one means greater than all that were chosen.
    have hbehind : isBehind priorities (some (withPriority priorities best)) ordinal = true ↔
        candidateKey priorities best < candidateKey priorities ordinal :=
      priorityOrdinalLess_iff priorities best ordinal
    rw [hbehind, List.mem_append, List.mem_singleton, not_or]
    constructor
    · intro hless
      refine ⟨fun hold => ?_, fun heq => ?_⟩
      · exact lt_asymm hless (h.smallest.below ordinal (List.mem_toFinset.2 hold) best hmem hnew')
      · exact lt_irrefl _ (heq ▸ hless)
    · rintro ⟨hmissing, hne⟩
      apply lt_of_le_of_ne (hleast ordinal hordinal hmissing)
      exact fun heq => hne (candidateKey_injective priorities heq).symm

end Searched

end Search

/-! ## Coordinates -/

section Coordinates

variable {rank : Nat} {extents : Extents rank}

/-- When there is an ordinal, no extent is empty. -/
theorem extents_pos {ordinal : Nat} (h : ordinal < extents.logicalSize.toNat) :
    ∀ extent ∈ extents.values.toList.map Int.toNat, 0 < extent := by
  intro extent hmem
  rcases List.mem_map.1 hmem with ⟨value, hvalue, rfl⟩
  have hnonneg := extents.nonneg value hvalue
  have hne : value ≠ 0 := by
    rintro rfl
    rw [extents.logicalSize_eq, List.prod_eq_zero hvalue] at h
    exact absurd h (Nat.not_lt_zero _)
  omega

theorem coordinateFromOrdinal_lt {ordinal ordinal' : Nat} (hless : ordinal < ordinal')
    (hlast : ordinal' < extents.logicalSize.toNat) :
    coordinateFromOrdinal ordinal extents < coordinateFromOrdinal ordinal' extents := by
  have hproduct : extents.logicalSize.toNat = (extents.values.toList.map Int.toNat).prod := by
    rw [extents.logicalSize_eq, toNat_prod extents.nonneg, Int.toNat_natCast]
  -- Nothing is left of an ordinal below the logical size.
  have hleft : (rowMajor (extents.values.toList.map Int.toNat) ordinal).2 =
      (rowMajor (extents.values.toList.map Int.toNat) ordinal').2 := by
    rw [rowMajor_left, rowMajor_left, ← hproduct, Nat.div_eq_of_lt (hless.trans hlast),
      Nat.div_eq_of_lt hlast]
  exact List.map_lt (fun _ _ => Int.ofNat_lt.2) (rowMajor_lex (extents_pos hlast) hless hleft)

/-- Entries at increasing ordinals are sorted. -/
theorem strictlyKeySorted_of_ordinals {V : Type} {entries : List (Coordinate rank × V)}
    {output : List Nat} (h : output.Pairwise (· < ·))
    (hlast : ∀ ordinal ∈ output, ordinal < extents.logicalSize.toNat)
    (hkeys : entries.map Prod.fst =
      output.map fun ordinal => coordinateFromOrdinal ordinal extents) :
    StrictlyKeySorted entries := by
  unfold StrictlyKeySorted
  rw [← List.pairwise_map, hkeys, List.pairwise_map]
  apply h.imp_of_mem
  intro ordinal ordinal' _ hmem hless
  exact coordinateFromOrdinal_lt hless (hlast ordinal' hmem)

end Coordinates

/-! ## The entries that are added -/

section Added

variable {V : Type} [SparseElement V] {rank : Nat} {resource : MemoryResource}
  {extents : Extents rank} {capacity : Nat} {builder : CoordinateBuilder V rank}

/-- The entry at an ordinal, before its value is drawn. -/
def zeroEntry (extents : Extents rank) (ordinal : Nat) : Coordinate rank × V :=
  (coordinateFromOrdinal ordinal extents, SparseElement.zero)

theorem addSelected_spec {priorities : Nat → BitVec 64} {logicalSize count : Nat}
    {previous : Option (BitVec 64 × Nat)} {final : CoordinateBuilder V rank}
    (h : builder.Holds resource extents capacity []) (hcount : count ≤ logicalSize)
    (hadd : addSelected extents priorities logicalSize count builder = .ok (previous, final)) :
    ∃ ordinals, ordinals.length = count ∧ Searched priorities logicalSize previous ordinals ∧
      final.Holds resource extents capacity (ordinals.map (zeroEntry extents)) := by
  -- By induction over the rounds; the last round is taken off the end of the loop.
  induction count generalizing previous final with
  | zero =>
    cases hadd
    exact ⟨[], rfl, .start _ _, h⟩
  | succ count ih =>
    unfold addSelected at hadd
    rw [List.range_succ, List.foldlM_append, Result.bind_eq_ok_iff] at hadd
    rcases hadd with ⟨⟨before, current⟩, hbefore, hlast⟩
    rcases ih (by omega) hbefore with ⟨ordinals, hlength, hsearched, hholds⟩
    rw [List.foldlM_cons, Result.bind_eq_ok_iff] at hlast
    rcases hlast with ⟨after, hround, hend⟩
    cases hend
    rcases Result.bind_eq_ok_iff.1 hround with ⟨next, hnext, hresult⟩
    cases hresult
    rcases hsearched.searchNext_spec (by omega) with ⟨best, heq, hbest, hnew, hleast⟩
    rw [heq] at hnext ⊢
    refine ⟨ordinals ++ [best], ?_, hsearched.step hbest hnew hleast, ?_⟩
    · rw [List.length_append, hlength, List.length_singleton]
    · rw [List.map_append, List.map_singleton]
      exact hholds.add hnext

end Added

/-! ## The values -/

/-- Writing the first cells one after the other. -/
theorem foldl_set {α : Type} (value : Nat → α) {count : Nat} {items : List α}
    (hcount : count ≤ items.length) :
    (List.range count).foldl (fun items position => items.set position (value position)) items =
      (List.range count).map value ++ items.drop count := by
  induction count with
  | zero => rfl
  | succ count ih =>
    have hlength : ((List.range count).map value).length = count := by
      rw [List.length_map, List.length_range]
    rw [List.range_succ, List.foldl_append, ih (by omega), List.foldl_cons, List.foldl_nil,
      List.set_append_right _ _ hlength.le, hlength, Nat.sub_self,
      List.drop_eq_getElem_cons (by omega), List.set_cons_zero, List.map_append, List.append_assoc]
    rfl

section Values

variable {V : Type} [SparseElement V] {rank : Nat} {real : RandomReal} {scaled : Nat → Nat → V}
  {extents : Extents rank} {stream : RandomStream} {subsequence : RandomSubsequence}
  {offset : RandomOffset}

/-- The value at a position, drawn at the words of the position. -/
def drawnValue (real : RandomReal) (scaled : Nat → Nat → V) (stream : RandomStream)
    (subsequence : RandomSubsequence) (offset : RandomOffset) (position : Nat) : V :=
  generateUniform01 real scaled stream subsequence
    (offset + BitVec.ofNat 64 position * real.wordsPerElement)

omit [SparseElement V] in
theorem writeValues_eq (count : Nat) (storage : EntryStorage V rank) :
    writeValues real scaled stream subsequence offset count storage =
      { storage with
        values := (List.range count).foldl (fun values position =>
          values.set position (drawnValue real scaled stream subsequence offset position))
            storage.values } :=
  List.foldl_hom (fun values => ({ storage with values := values } : EntryStorage V rank))
    fun _ _ => rfl

/-- The entries with the values that are drawn for their positions. -/
def drawnEntries (real : RandomReal) (scaled : Nat → Nat → V) (extents : Extents rank)
    (stream : RandomStream) (subsequence : RandomSubsequence) (offset : RandomOffset)
    (output : List Nat) : List (Coordinate rank × V) :=
  output.mapIdx fun position ordinal =>
    (coordinateFromOrdinal ordinal extents,
      drawnValue real scaled stream subsequence offset position)

omit [SparseElement V] in
theorem drawnEntries_keys (output : List Nat) :
    (drawnEntries real scaled extents stream subsequence offset output).map Prod.fst =
      output.map fun ordinal => coordinateFromOrdinal ordinal extents := by
  apply List.ext_getElem
  · simp [drawnEntries]
  · intro position hleft hright
    simp [drawnEntries]

omit [SparseElement V] in
theorem drawnEntries_length (output : List Nat) :
    (drawnEntries real scaled extents stream subsequence offset output).length = output.length :=
  List.length_mapIdx

/-- The values are written over those of the entries, whose coordinates stay. -/
theorem writeValues_take {storage : EntryStorage V rank} {output : List Nat}
    (htake : storage.cells.take output.length = output.map (zeroEntry extents)) :
    (writeValues real scaled stream subsequence offset output.length storage).cells.take
        output.length =
      drawnEntries real scaled extents stream subsequence offset output := by
  have hlength : output.length ≤ min storage.coordinates.length storage.values.length := by
    have hsizes := congrArg List.length htake
    rw [List.length_take, List.length_map, EntryStorage.cells, List.length_zip] at hsizes
    omega
  rw [writeValues_eq, foldl_set _ (by omega)]
  -- Position by position: the coordinate that was added, and the value drawn for it.
  apply List.ext_getElem
  · simp only [EntryStorage.cells, drawnEntries, List.length_take, List.length_zip,
      List.length_append, List.length_map, List.length_range, List.length_drop,
      List.length_mapIdx]
    omega
  · intro position hleft hright
    rw [drawnEntries, List.length_mapIdx] at hright
    have hcell : (storage.cells.take output.length)[position]? =
        (output.map (zeroEntry extents))[position]? := congrArg (·[position]?) htake
    rw [List.getElem?_take_of_lt hright, List.getElem?_map,
      List.getElem?_eq_getElem hright, EntryStorage.cells, Option.map_some,
      List.getElem?_zip_eq_some] at hcell
    have hcoordinate : storage.coordinates[position]? =
        some (coordinateFromOrdinal output[position] extents) := hcell.1
    rw [List.getElem?_eq_some_iff] at hcoordinate
    rcases hcoordinate with ⟨hposition, hcoordinate⟩
    simp only [EntryStorage.cells, drawnEntries, List.getElem_take, List.getElem_zip,
      List.getElem_mapIdx, hcoordinate]
    rw [List.getElem_append_left (by simpa using hright), List.getElem_map, List.getElem_range]

end Values

/-! ## The array -/

section Array

variable {V : Type} [SparseElement V] {rank : Nat} {real : RandomReal} {scaled : Nat → Nat → V}
  {context : ExecutionContext} {extents : Extents rank} {exactCount : Int}
  {resource : MemoryResource} {structureStream valueStream : RandomStream}
  {structureSubsequence valueSubsequence : RandomSubsequence}
  {structureOffset valueOffset nextStructureOffset nextValueOffset : RandomOffset}

theorem uniformSizes_ok {logicalSize count : Nat}
    (h : uniformSizes real context extents exactCount resource structureStream valueStream
        structureSubsequence valueSubsequence structureOffset valueOffset =
      .ok (logicalSize, count, nextStructureOffset, nextValueOffset)) :
    logicalSize = extents.logicalSize.toNat ∧ count = exactCount.toNat ∧ count ≤ logicalSize ∧
      context.backend = .serial ∧
      NextStructureOffset extents exactCount structureOffset nextStructureOffset := by
  simp only [uniformSizes, Result.bind_eq_ok_iff] at h
  rcases h with ⟨⟨⟩, hserial, -, -, -, -, ⟨⟩, hcount, -, -, size, hsize, converted, hconverted,
    words, hwords, valueWords, -, after, hafter, nextValue, -, hresult⟩
  rw [Result.failIf_eq_ok_iff] at hserial hcount
  rcases checkedCast_ok_eq hsize with ⟨rfl, -⟩
  rcases checkedCast_ok_eq hconverted with ⟨rfl, -⟩
  rw [structureWords_ok hwords] at hafter
  cases hresult
  exact ⟨rfl, rfl, by omega, not_not.1 hserial, hafter⟩

/-- The array stores the drawn values at the smallest candidates. -/
theorem generateSparseUniform01_stores {generation : SparseUniform01Generation V rank}
    {output : List Nat}
    (hselects : Selects (priorityOf structureStream structureSubsequence structureOffset)
      extents.logicalSize.toNat exactCount.toNat output)
    (h : generateSparseUniform01 real scaled context extents exactCount resource structureStream
        structureSubsequence structureOffset valueStream valueSubsequence valueOffset =
      .ok generation) :
    NextStructureOffset extents exactCount structureOffset generation.nextStructureOffset ∧
      generation.array.Stores extents.values
        (drawnEntries real scaled extents valueStream valueSubsequence valueOffset output) := by
  simp only [generateSparseUniform01, Result.bind_eq_ok_iff] at h
  rcases h with ⟨⟨logicalSize, count, next, nextValue⟩, hsizes, builder, hcreate,
    ⟨previous, final⟩, hadd, array, hfinalize, -, -, hgeneration⟩
  rcases uniformSizes_ok hsizes with ⟨rfl, rfl, hcount, hserial, hnext⟩
  cases hgeneration
  refine ⟨hnext, ?_⟩
  rcases CoordinateBuilder.create_capacity hcreate with ⟨capacity, rfl⟩
  rw [Int.toNat_natCast] at hselects hcount hadd ⊢
  rcases addSelected_spec (CoordinateBuilder.create_holds hcreate) hcount hadd with
    ⟨ordinals, hlength, hsearched, hholds⟩
  -- Both loops have selected the smallest candidates, in different orders.
  have hsmallest := hsearched.smallest
  rw [hlength] at hsmallest
  have hset : ordinals.toFinset = output.toFinset := hsmallest.unique hselects.smallest
  have hnodup : output.Nodup := hselects.increasing.imp ne_of_lt
  have hperm : ordinals.Perm output :=
    List.perm_of_nodup_nodup_toFinset_eq hsearched.nodup hnodup hset
  have hsize : output.length = capacity := hperm.length_eq.symm.trans hlength
  have hlast : ∀ ordinal ∈ output, ordinal < extents.logicalSize.toNat := fun ordinal hmem =>
    Finset.mem_range.1 (hselects.smallest.subset (List.mem_toFinset.2 hmem))
  have hsorted : StrictlyKeySorted (output.map (@zeroEntry V _ rank extents)) :=
    strictlyKeySorted_of_ordinals hselects.increasing hlast (List.map_map ..)
  have hadded : (ordinals.map (@zeroEntry V _ rank extents)).Perm
      (output.map (zeroEntry extents)) := hperm.map _
  have hkeys := (hadded.map Prod.fst).nodup_iff.2 hsorted.keys_nodup
  rcases hholds.finalize_cells hkeys hserial hsorted fun _ => hadded.mem_iff.symm with
    ⟨storage, hresult, htake⟩
  rw [hresult] at hfinalize
  cases hfinalize
  rw [List.length_map] at htake
  have hdrawn := @writeValues_take V _ rank real scaled extents valueStream valueSubsequence
    valueOffset storage output htake
  have hdrawnLength := @drawnEntries_length V rank real scaled extents valueStream
    valueSubsequence valueOffset output
  have hrange : ∀ entry ∈ drawnEntries real scaled extents valueStream valueSubsequence
      valueOffset output, InRange entry.1 extents.values := by
    intro entry hentry
    have hkey := List.mem_map_of_mem (f := Prod.fst) hentry
    rw [drawnEntries_keys] at hkey
    rcases List.mem_map.1 hkey with ⟨ordinal, hordinal, heq⟩
    have hzero := hholds.inRange _ (List.mem_map_of_mem (hperm.mem_iff.2 hordinal))
    exact heq ▸ hzero
  rw [← hdrawnLength] at hdrawn
  have hstores := hholds.stores_arrayOf (by rw [hdrawnLength, hsize]) hdrawn
    (strictlyKeySorted_of_ordinals hselects.increasing hlast (drawnEntries_keys output)) hrange
  rw [hdrawnLength, hsize] at hstores
  rw [List.length_map, hsize]
  exact hstores

end Array

/-- No run of `GenerateSparseStructure` reports a wrong count, and a successful one outputs the
smallest candidates in increasing order.  `GenerateSparseUniform01` stores the drawn values at
these, and both report one offset. -/
theorem sparseGeneration_correct {V : Type} [SparseElement V] {rank : Nat}
    {nthElement : Nat → List SparseRandomStructureCandidate → List SparseRandomStructureCandidate}
    (h : Partitions candidateLess nthElement) (real : RandomReal) (scaled : Nat → Nat → V)
    (context : ExecutionContext) (extents : Extents rank) (exactCount : Int)
    (stream : RandomStream) (subsequence : RandomSubsequence) (offset : RandomOffset)
    (candidateWorkspace : Span SparseRandomStructureCandidate 16)
    (outputOrdinals : Span Nat 8) :
    (∃ result workspace output,
      generateSparseStructure context extents exactCount nthElement stream subsequence offset
          candidateWorkspace outputOrdinals = some (result, workspace, output) ∧
        result ≠ .error wrongCount) ∧
    ∀ next workspace output,
      generateSparseStructure context extents exactCount nthElement stream subsequence offset
          candidateWorkspace outputOrdinals = some (.ok next, workspace, output) →
        Selects (priorityOf stream subsequence offset) extents.logicalSize.toNat exactCount.toNat
          output ∧
        ∀ (context' : ExecutionContext) (resource : MemoryResource) (valueStream : RandomStream)
          (valueSubsequence : RandomSubsequence) (valueOffset : RandomOffset)
          (generation : SparseUniform01Generation V rank),
          generateSparseUniform01 real scaled context' extents exactCount resource stream
              subsequence offset valueStream valueSubsequence valueOffset = .ok generation →
            generation.nextStructureOffset = next ∧
            generation.array.Stores extents.values
              (drawnEntries real scaled extents valueStream valueSubsequence valueOffset
                output) := by
  refine ⟨generateSparseStructure_total h, fun next workspace output hrun => ?_⟩
  -- A run that returns has passed the checks, and with them the structure is determined.
  cases hsizes : structureSizes context extents exactCount offset candidateWorkspace
    outputOrdinals with
  | error status =>
    unfold generateSparseStructure at hrun
    rw [hsizes] at hrun
    cases hrun
  | ok sizes =>
    rcases sizes with ⟨logicalSize, count, next'⟩
    rcases structureSizes_ok hsizes with ⟨rfl, rfl, -, -, hnext⟩
    rcases @generateSparseStructure_ok _ _ _ _ _ _ _ _ _ stream subsequence h _ _ hsizes with
      ⟨workspace', output', hrun', hselects⟩
    rw [hrun'] at hrun
    cases hrun
    refine ⟨hselects, fun context' resource valueStream valueSubsequence valueOffset generation
      hgeneration => ?_⟩
    rcases generateSparseUniform01_stores hselects hgeneration with ⟨hnextGeneration, hstores⟩
    exact ⟨Except.ok.inj (hnextGeneration.symm.trans hnext), hstores⟩

/-! Two of the four entries of a vector, the candidates sorted. -/

/-- Sorting partitions at every position. -/
def sortCandidates (_ : Nat) (items : List SparseRandomStructureCandidate) :
    List SparseRandomStructureCandidate :=
  items.insertionSort fun left right => left.key ≤ right.key

theorem sortCandidates_partitions : Partitions candidateLess sortCandidates where
  perm _ items := List.perm_insertionSort _ items
  split position items _ before hbefore behind hbehind := by
    have htotal : Std.Total fun left right : SparseRandomStructureCandidate =>
        left.key ≤ right.key := ⟨fun left right => le_total left.key right.key⟩
    have htrans : IsTrans SparseRandomStructureCandidate fun left right =>
        left.key ≤ right.key := ⟨fun _ _ _ => le_trans⟩
    have hsorted := List.pairwise_insertionSort
      (fun left right : SparseRandomStructureCandidate => left.key ≤ right.key) items
    rw [← List.take_append_drop position (items.insertionSort _), List.pairwise_append] at hsorted
    exact candidateLess_eq_false_iff.2 (hsorted.2.2 before hbefore behind hbehind)

def sampleWorkspace : Span SparseRandomStructureCandidate 16 :=
  { data := 64, items := List.replicate 4 ⟨0, 0⟩, fits := by decide }

def sampleOrdinals : Span Nat 8 :=
  { data := 256, items := [0, 0], fits := by decide }

def sampleScaled (bits _ : Nat) : int8.Value :=
  staticCast int8 bits

theorem sparseGeneration_correct_sample :
    ∃ workspace output, ∃ generation : SparseUniform01Generation int8.Value 1,
      generateSparseStructure .serial sampleExtents 2 sortCandidates 1 0 0 sampleWorkspace
          sampleOrdinals = some (.ok 8, workspace, output) ∧
        generateSparseUniform01 .float sampleScaled .serial sampleExtents 2 bumpResource 1 0 0 2 0 0 =
          .ok generation ∧
        generation.nextStructureOffset = 8 ∧
        generation.array.Stores sampleExtents.values
          (drawnEntries .float sampleScaled sampleExtents 2 0 0 output) := by
  rcases @generateSparseStructure_ok 1 .serial sampleExtents 2 0 8 sampleWorkspace sampleOrdinals
    sortCandidates 1 0 sortCandidates_partitions 4 2 rfl with ⟨workspace, output, hrun, -⟩
  have hsucceeds : ∃ generation, generateSparseUniform01 .float sampleScaled .serial sampleExtents 2
      bumpResource 1 0 0 2 0 0 = .ok generation := by
    have hok : (generateSparseUniform01 .float sampleScaled .serial sampleExtents 2
        bumpResource 1 0 0 2 0 0).isOk = true := by decide +kernel
    cases hgeneration : generateSparseUniform01 .float sampleScaled .serial sampleExtents 2
        bumpResource 1 0 0 2 0 0 with
    | error status =>
      rw [hgeneration] at hok
      cases hok
    | ok generation => exact ⟨generation, rfl⟩
  rcases hsucceeds with ⟨generation, hgeneration⟩
  have hcorrect := sparseGeneration_correct sortCandidates_partitions .float sampleScaled .serial
    sampleExtents 2 1 0 0 sampleWorkspace sampleOrdinals
  rcases (hcorrect.2 8 workspace output hrun).2 .serial bumpResource 2 0 0 generation hgeneration with
    ⟨hnext, hstores⟩
  exact ⟨workspace, output, generation, hrun, hgeneration, hnext, hstores⟩

end Random
end AscCpp
