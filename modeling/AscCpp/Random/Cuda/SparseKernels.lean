import AscCpp.Library.SharedInsertion
import AscCpp.Random.Cuda.Words
import AscCpp.Random.SparseSearch
import Mathlib.Algebra.Order.BigOperators.GroupWithZero.List

/-!
# SparseKernels — the kernels that generate a sparse array on a CUDA device

One thread selects the ordinals and keeps them sorted in the first column of the coordinates; then one
kernel for each dimension, from the last one on, takes the digits off them.

- `selectCanonicalOrdinals_ends`: the ordinals of the smallest candidates, in increasing order.
- `decodeLaunches_ends`: the digits of all ordinals; the first column is overwritten last.
- `sparseLaunches_end`: the entries that the launches leave.
-/

namespace AscCpp
namespace Random
namespace Cuda

open AscCpp.Core AscCpp.Core.Cuda Library

variable {Cell V : Type}

/-! ## The kernels -/

structure SparseDescriptor where
  coordinates : Nat
  values : Nat
  rank : Nat
  logicalSize : Nat
  exactCount : Nat
  deriving DecidableEq, Repr

/-- `Priority` on the device, from the offset of the structure on. -/
def devicePriorityOf (stream : RandomStream) (subsequence : RandomSubsequence)
    (offset : RandomOffset) (ordinal : Nat) : BitVec 64 :=
  let wordOffset := offset + 2 * BitVec.ofNat 64 ordinal
  (generateWord stream subsequence wordOffset).setWidth 64 <<< 32 |||
    (generateWord stream subsequence (wordOffset + 1)).setWidth 64

/-- A coordinate as a `std::uint64_t`. -/
def unsignedCoordinate (coordinate : Int) : Nat :=
  (BitVec.ofInt 64 coordinate).toNat

/-- The address of `coordinates[position * rank + dimension]`. -/
def coordinateAddress (index : LocalRepresentation Cell Int) (destination : SparseDescriptor)
    (dimension position : Nat) : Nat :=
  destination.coordinates + (position * destination.rank + dimension) * index.size

/-- One round of the selection: the search, which is that of the host, and the insertion. -/
def selectRound (index : LocalRepresentation Cell Int) (destination : SparseDescriptor)
    (priorities : Nat → BitVec 64) (previous : Option (BitVec 64 × Nat)) (selected : Nat) :
    Program (Nat → Cell) (Option (BitVec 64 × Nat)) := do
  let best := searchNext priorities destination.logicalSize previous
  insertStored index.toRepresentation (coordinateAddress index destination 0) unsignedCoordinate
    (best.2 : Int) selected
  pure (some best)

/-- `SelectCanonicalOrdinals`, launched with one thread. -/
def selectCanonicalOrdinals (index : LocalRepresentation Cell Int) (destination : SparseDescriptor)
    (stream : RandomStream) (subsequence : RandomSubsequence) (offset : RandomOffset) :
    Launch (Nat → Cell) :=
  .single do
    let _ ← (List.range destination.exactCount).foldlM
      (selectRound index destination (devicePriorityOf stream subsequence offset)) none
    pure ()

def decodeCoordinateDimension (index : LocalRepresentation Cell Int)
    (destination : SparseDescriptor) (dimension divisor extent : Nat) : Launch (Nat → Cell) :=
  .loop destination.exactCount fun position => do
    let ordinal ← Program.load index.toRepresentation
      (coordinateAddress index destination 0 position)
    Program.store index.toRepresentation (coordinateAddress index destination dimension position)
      ((unsignedCoordinate ordinal / divisor % extent : Nat) : Int)

/-- The loop of `LaunchSparseUniform01` over the dimensions that are left, the last one first; the
divisor is a `std::uint64_t`. -/
def decodeLaunches (index : LocalRepresentation Cell Int) (destination : SparseDescriptor)
    (extents : List Nat) : Nat → Nat → List (Launch (Nat → Cell))
  | 0, _ => []
  | dimension + 1, divisor =>
    decodeCoordinateDimension index destination dimension divisor (extents.getD dimension 0) ::
      decodeLaunches index destination extents dimension
        (divisor * extents.getD dimension 0 % 2 ^ 64)

/-- `FillValues`. -/
def fillValues (type : LocalRepresentation Cell V) (real : RandomReal) (scaled : Nat → Nat → V)
    (destination : SparseDescriptor) (stream : RandomStream) (subsequence : RandomSubsequence)
    (offset : RandomOffset) : Launch (Nat → Cell) :=
  .loop destination.exactCount fun position =>
    Program.store type.toRepresentation (destination.values + position * type.size)
      (match real with
      | .float =>
        scaled (generateWord stream subsequence
          (offset + BitVec.ofNat 64 position * real.wordsPerElement) >>> 8).toNat 24
      | .double =>
        let wordOffset := offset + BitVec.ofNat 64 position * real.wordsPerElement
        let bits : BitVec 64 := (generateWord stream subsequence wordOffset).setWidth 64 <<< 32 |||
          (generateWord stream subsequence (wordOffset + 1)).setWidth 64
        scaled (bits >>> 11).toNat 53)

/-- The launches of `LaunchSparseUniform01`, with the messages of their failures. -/
def sparseLaunches (index : LocalRepresentation Cell Int) (type : LocalRepresentation Cell V)
    (real : RandomReal) (scaled : Nat → Nat → V) (destination : SparseDescriptor)
    (extents : List Nat) (structureStream : RandomStream)
    (structureSubsequence : RandomSubsequence) (structureOffset : RandomOffset)
    (valueStream : RandomStream) (valueSubsequence : RandomSubsequence)
    (valueOffset : RandomOffset) : List (Launch (Nat → Cell) × String) :=
  (if destination.rank ≠ 0 then
    (selectCanonicalOrdinals index destination structureStream structureSubsequence structureOffset,
      "CUDA could not launch sparse coordinate selection") ::
    (decodeLaunches index destination extents destination.rank 1).map fun launch =>
      (launch, "CUDA could not launch sparse coordinate decoding")
  else []) ++
  [(fillValues type real scaled destination valueStream valueSubsequence valueOffset,
    "CUDA could not launch sparse Uniform01 generation")]

/-! ## The engine -/

theorem devicePriorityOf_eq (stream : RandomStream) (subsequence : RandomSubsequence)
    (offset : RandomOffset) :
    devicePriorityOf stream subsequence offset = priorityOf stream subsequence offset := by
  funext ordinal
  simp only [devicePriorityOf, priorityOf, priority, generateWord_eq]

theorem unsignedCoordinate_natCast {ordinal : Nat} (h : ordinal < 2 ^ 64) :
    unsignedCoordinate (ordinal : Int) = ordinal := by
  rw [unsignedCoordinate, BitVec.ofInt_natCast, BitVec.toNat_ofNat, Nat.mod_eq_of_lt h]

/-! ## The selection -/

section Selection

variable {index : LocalRepresentation Cell Int} {destination : SparseDescriptor}
  {priorities : Nat → BitVec 64}

theorem coordinateAddress_apart {dimension dimension' position position' : Nat}
    (hdimension : dimension < destination.rank) (hdimension' : dimension' < destination.rank)
    (hne : position ≠ position' ∨ dimension ≠ dimension') :
    coordinateAddress index destination dimension position + index.size ≤
        coordinateAddress index destination dimension' position' ∨
      coordinateAddress index destination dimension' position' + index.size ≤
        coordinateAddress index destination dimension position := by
  have hslots : position * destination.rank + dimension ≠
      position' * destination.rank + dimension' := by
    intro heq
    have hquotient := congrArg (· / destination.rank) heq
    have hremainder := congrArg (· % destination.rank) heq
    have hrank : 0 < destination.rank := Nat.zero_lt_of_lt hdimension
    simp only [Nat.mul_comm _ destination.rank, Nat.mul_add_div hrank, Nat.mul_add_mod,
      Nat.div_eq_of_lt hdimension, Nat.div_eq_of_lt hdimension', Nat.mod_eq_of_lt hdimension,
      Nat.mod_eq_of_lt hdimension'] at hquotient hremainder
    omega
  have hapart := apart_consecutive index.size (max (position * destination.rank + dimension)
    (position' * destination.rank + dimension') + 1) destination.coordinates
  exact hapart _ (Nat.lt_succ_of_le (Nat.le_max_left _ _)) _
    (Nat.lt_succ_of_le (Nat.le_max_right _ _)) hslots

/-- The cells behind the coordinates, and those before. -/
def OutsideCoordinates (index : LocalRepresentation Cell Int) (destination : SparseDescriptor)
    (cell : Nat) : Prop :=
  cell < destination.coordinates ∨
    destination.coordinates + destination.exactCount * destination.rank * index.size ≤ cell

theorem coordinateAddress_inside {dimension position : Nat}
    (hposition : position < destination.exactCount) (hdimension : dimension < destination.rank) :
    destination.coordinates ≤ coordinateAddress index destination dimension position ∧
      coordinateAddress index destination dimension position + index.size ≤
        destination.coordinates + destination.exactCount * destination.rank * index.size := by
  have hslot : position * destination.rank + dimension + 1 ≤
      destination.exactCount * destination.rank := by
    have hle := Nat.mul_le_mul_right destination.rank (Nat.succ_le_of_lt hposition)
    rw [Nat.succ_mul] at hle
    omega
  have hle := Nat.mul_le_mul_right index.size hslot
  rw [Nat.add_mul, Nat.one_mul] at hle
  unfold coordinateAddress
  omega

theorem OutsideCoordinates.outside {cell : Nat} (h : OutsideCoordinates index destination cell)
    {dimension position : Nat} (hposition : position < destination.exactCount)
    (hdimension : dimension < destination.rank) :
    cell < coordinateAddress index destination dimension position ∨
      coordinateAddress index destination dimension position + index.size ≤ cell := by
  have hinside := @coordinateAddress_inside _ index destination _ _ hposition hdimension
  rcases h with hbefore | hbehind <;> omega

theorem apart_column {dimension : Nat} (hdimension : dimension < destination.rank) (count : Nat) :
    ElementsApart index.size count (coordinateAddress index destination dimension) :=
  fun _ _ _ _ hne => coordinateAddress_apart hdimension hdimension (Or.inl hne)

/-- The first column after so many rounds. -/
structure Chosen (index : LocalRepresentation Cell Int) (destination : SparseDescriptor)
    (priorities : Nat → BitVec 64) (memory : Nat → Cell) (count : Nat)
    (previous : Option (BitVec 64 × Nat)) (memory' : Nat → Cell) : Prop where
  searched : ∃ ordinals, ordinals.length = count ∧
    Searched priorities destination.logicalSize previous ordinals ∧
      (stored index.toRepresentation (coordinateAddress index destination 0) memory' count).Perm
        (ordinals.map Nat.cast)
  sorted : (stored index.toRepresentation (coordinateAddress index destination 0) memory'
    count).Pairwise fun left right => unsignedCoordinate left ≤ unsignedCoordinate right
  outside : ∀ cell, OutsideCoordinates index destination cell → memory' cell = memory cell

theorem Chosen.round {memory memory' : Nat → Cell} {count : Nat}
    {previous : Option (BitVec 64 × Nat)}
    (h : Chosen index destination priorities memory count previous memory')
    (hrank : 0 < destination.rank) (hcount : count < destination.exactCount)
    (hfits : destination.exactCount ≤ destination.logicalSize) :
    Chosen index destination priorities memory (count + 1)
      ((selectRound index destination priorities previous count).exec memory').1
      ((selectRound index destination priorities previous count).exec memory').2 := by
  rcases h.searched with ⟨ordinals, hlength, hsearched, hperm⟩
  rcases hsearched.searchNext_spec (by omega) with ⟨best, hbest, hinside, hnew, hleast⟩
  have hround := @exec_insertStored _ _ _ _ index.toRepresentation
    (coordinateAddress index destination 0) unsignedCoordinate (best : Int) count
    destination.exactCount memory' (apart_column hrank _) hcount
  have hexec : (selectRound index destination priorities previous count).exec memory' =
      (some (withPriority priorities best),
        ((insertStored index.toRepresentation (coordinateAddress index destination 0)
          unsignedCoordinate (best : Int) count).exec memory').2) := by
    unfold selectRound
    simp only [hbest]
    rw [Program.exec_bind]
    rfl
  rw [hexec]
  refine ⟨⟨ordinals ++ [best], ?_, hsearched.step hinside hnew hleast, ?_⟩, ?_, fun cell hcell => ?_⟩
  · rw [List.length_append, hlength, List.length_singleton]
  · rw [hround.stored_eq, List.map_append, List.map_singleton]
    refine (insertFromBack_perm _ _ _).trans ?_
    exact ((hperm.cons _).trans (List.perm_append_singleton _ _).symm)
  · rw [hround.stored_eq]
    exact insertFromBack_sorted h.sorted _
  · rw [hround.outside cell fun place hplace => hcell.outside hplace hrank]
    exact h.outside cell hcell

/-- Sorted ordinals of a search are a selection. -/
theorem selects_of_searched {logicalSize count : Nat} {previous : Option (BitVec 64 × Nat)}
    {ordinals output : List Nat} (h : Searched priorities logicalSize previous ordinals)
    (hlength : ordinals.length = count) (hperm : output.Perm ordinals)
    (hsorted : output.Pairwise (· ≤ ·)) : Selects priorities logicalSize count output where
  increasing := by
    have hnodup : output.Nodup := hperm.nodup_iff.2 h.nodup
    exact (hsorted.and hnodup).imp fun hboth => lt_of_le_of_ne hboth.1 hboth.2
  smallest := by
    rw [List.toFinset_eq_of_perm _ _ hperm, ← hlength]
    exact h.smallest

theorem exists_searched {logicalSize count : Nat} (hcount : count ≤ logicalSize) :
    ∃ previous ordinals, ordinals.length = count ∧
      Searched priorities logicalSize previous ordinals := by
  induction count with
  | zero => exact ⟨none, [], rfl, .start _ _⟩
  | succ count ih =>
    rcases ih (by omega) with ⟨previous, ordinals, hlength, hsearched⟩
    rcases hsearched.searchNext_spec (by omega) with ⟨best, -, hinside, hnew, hleast⟩
    refine ⟨_, ordinals ++ [best], ?_, hsearched.step hinside hnew hleast⟩
    rw [List.length_append, hlength, List.length_singleton]

theorem exists_selects {logicalSize count : Nat} (hcount : count ≤ logicalSize) :
    ∃ output, Selects priorities logicalSize count output := by
  rcases @exists_searched priorities _ _ hcount with ⟨previous, ordinals, hlength, hsearched⟩
  exact ⟨_, selects_of_searched hsearched hlength (List.mergeSort_perm ordinals _)
    (List.pairwise_mergeSort' (· ≤ ·) ordinals)⟩

/-- The coordinates are ordinals, so that the casts of the source change nothing. -/
theorem Chosen.selected {memory memory' : Nat → Cell} {count : Nat}
    {previous : Option (BitVec 64 × Nat)}
    (h : Chosen index destination priorities memory count previous memory')
    (hsize : destination.logicalSize ≤ 2 ^ 64) :
    ∃ output, Selects priorities destination.logicalSize count output ∧
      stored index.toRepresentation (coordinateAddress index destination 0) memory' count =
        output.map Nat.cast := by
  rcases h.searched with ⟨ordinals, hlength, hsearched, hperm⟩
  have hsorted := h.sorted
  generalize stored index.toRepresentation (coordinateAddress index destination 0) memory' count =
    column at hperm hsorted ⊢
  have hcast : ∀ ordinal ∈ ordinals, unsignedCoordinate (ordinal : Int) = ordinal := by
    intro ordinal hordinal
    have hinside := Finset.mem_range.1 (hsearched.smallest.subset (List.mem_toFinset.2 hordinal))
    exact unsignedCoordinate_natCast (hinside.trans_le hsize)
  have hback : column = (column.map unsignedCoordinate).map Nat.cast := by
    rw [List.map_map]
    refine (List.map_id column).symm.trans (List.map_congr_left fun coordinate hmem => ?_)
    rcases List.mem_map.1 (hperm.mem_iff.1 hmem) with ⟨ordinal, hordinal, rfl⟩
    exact (congrArg Nat.cast (hcast ordinal hordinal)).symm
  refine ⟨column.map unsignedCoordinate, selects_of_searched hsearched hlength ?_ ?_, hback⟩
  · refine (hperm.map unsignedCoordinate).trans (List.Perm.of_eq ?_)
    rw [List.map_map]
    exact (List.map_congr_left hcast).trans (List.map_id ordinals)
  · rw [List.pairwise_map]
    exact hsorted

/-- The kernel leaves the selected ordinals in the first column. -/
theorem selectCanonicalOrdinals_ends {stream : RandomStream} {subsequence : RandomSubsequence}
    {offset : RandomOffset} (hrank : 0 < destination.rank)
    (hfits : destination.exactCount ≤ destination.logicalSize)
    (hsize : destination.logicalSize ≤ 2 ^ 64) (memory : Nat → Cell) :
    ∃ last output,
      (selectCanonicalOrdinals index destination stream subsequence offset).EndsIn memory last ∧
        Selects (priorityOf stream subsequence offset) destination.logicalSize
          destination.exactCount output ∧
        stored index.toRepresentation (coordinateAddress index destination 0) last
          destination.exactCount = output.map Nat.cast ∧
        ∀ cell, OutsideCoordinates index destination cell → last cell = memory cell := by
  have hchosen := @Program.exec_foldlM_range _ _ destination.exactCount
    (selectRound index destination (devicePriorityOf stream subsequence offset)) none memory
    (fun count previous memory' => Chosen index destination
      (devicePriorityOf stream subsequence offset) memory count previous memory')
    ⟨⟨[], rfl, .start _ _, List.Perm.refl _⟩, List.Pairwise.nil, fun _ _ => rfl⟩
    fun round hround previous memory' h => h.round hrank hround hfits
  rcases hchosen.selected hsize with ⟨output, hselects, hstored⟩
  rw [devicePriorityOf_eq] at hselects
  have hends := Launch.single_ends (do
    let _ ← (List.range destination.exactCount).foldlM
      (selectRound index destination (devicePriorityOf stream subsequence offset)) none
    pure ()) memory
  rw [Program.exec_bind] at hends
  exact ⟨_, output, hends, hselects, hstored, hchosen.outside⟩

end Selection

/-! ## The digits -/

section Digits

variable {index : LocalRepresentation Cell Int} {destination : SparseDescriptor}
  {memory : Nat → Cell}

/-- What a kernel for one dimension leaves. -/
structure Decoded (index : LocalRepresentation Cell Int) (destination : SparseDescriptor)
    (dimension divisor extent : Nat) (memory memory' : Nat → Cell) : Prop where
  digit : ∀ position < destination.exactCount,
    index.load memory' (coordinateAddress index destination dimension position) =
      ((unsignedCoordinate (index.load memory (coordinateAddress index destination 0 position)) /
        divisor % extent : Nat) : Int)
  other : ∀ position < destination.exactCount, ∀ other < destination.rank, other ≠ dimension →
    index.load memory' (coordinateAddress index destination other position) =
      index.load memory (coordinateAddress index destination other position)
  outside : ∀ cell, OutsideCoordinates index destination cell → memory' cell = memory cell

theorem decodeCoordinateDimension_ends {dimension divisor extent : Nat}
    (hdimension : dimension < destination.rank) (hpos : 0 < destination.exactCount)
    (hcount : destination.exactCount ≤ 2 ^ 63) (memory : Nat → Cell) :
    ∃ last,
      (decodeCoordinateDimension index destination dimension divisor extent).EndsIn memory last ∧
        Decoded index destination dimension divisor extent memory last := by
  have hrank : 0 < destination.rank := Nat.zero_lt_of_lt hdimension
  have hvalue : ∀ position < destination.exactCount, Program.Within
      (elementCells index.toRepresentation (coordinateAddress index destination 0 position)) ∅
      (do
        let ordinal ← Program.load index.toRepresentation
          (coordinateAddress index destination 0 position)
        pure ((unsignedCoordinate ordinal / divisor % extent : Nat) : Int)) := by
    intro position _
    refine (Program.within_load index.toRepresentation Set.subset_union_left).bind fun ordinal => ?_
    exact Program.within_pure _
  -- A position reads from its own row only.
  have hends := Launch.maps_ends hpos hcount hvalue (apart_column hdimension destination.exactCount)
    (fun position _ other _ hne => disjoint_elementCells
      (coordinateAddress_apart hdimension hrank (Or.inl hne.symm))) memory
  refine ⟨_, hends, fun position hposition => ?_, fun position hposition other hother hne => ?_,
    fun cell hcell => ?_⟩
  · exact load_foldl_store index.toRepresentation (apart_column hdimension destination.exactCount)
      _ memory hposition
  · apply index.load_congr
    intro cell hfirst hlast
    apply foldl_store_outside
    intro written hwritten
    have hapart := @coordinateAddress_apart _ index destination dimension other written position
      hdimension hother (Or.inr hne.symm)
    omega
  · apply foldl_store_outside
    exact fun position hposition => hcell.outside hposition hdimension

/-- The product of the extents behind a dimension. -/
def behind (extents : List Nat) (dimension : Nat) : Nat :=
  (extents.drop dimension).prod

theorem behind_succ {extents : List Nat} {dimension : Nat} (h : dimension < extents.length) :
    behind extents dimension = behind extents (dimension + 1) * extents.getD dimension 0 := by
  rw [behind, List.drop_eq_getElem_cons h, List.prod_cons, Nat.mul_comm, behind,
    List.getD_eq_getElem?_getD, List.getElem?_eq_getElem h]
  rfl

/-- What the kernels for the first dimensions leave, of these ordinals in the first column. -/
structure Digits (index : LocalRepresentation Cell Int) (destination : SparseDescriptor)
    (extents : List Nat) (ordinals : Nat → Nat) (dimensions : Nat) (memory memory' : Nat → Cell) :
    Prop where
  digit : ∀ position < destination.exactCount, ∀ dimension < dimensions,
    index.load memory' (coordinateAddress index destination dimension position) =
      ((ordinals position / behind extents (dimension + 1) % extents.getD dimension 0 : Nat) : Int)
  later : ∀ position < destination.exactCount, ∀ dimension, dimensions ≤ dimension →
    dimension < destination.rank →
      index.load memory' (coordinateAddress index destination dimension position) =
        index.load memory (coordinateAddress index destination dimension position)
  outside : ∀ cell, OutsideCoordinates index destination cell → memory' cell = memory cell

/-- The induction is on the dimensions that are left; until the last kernel the first column holds
the ordinals. -/
theorem decodeLaunches_ends {extents : List Nat} {ordinals : Nat → Nat} {dimensions : Nat}
    (hlength : extents.length = destination.rank) (hdimensions : dimensions ≤ destination.rank)
    (hfits : ∀ dimension ≤ dimensions, behind extents dimension < 2 ^ 64)
    (hordinals : ∀ position < destination.exactCount, ordinals position < 2 ^ 64)
    (hpos : 0 < destination.exactCount) (hcount : destination.exactCount ≤ 2 ^ 63)
    (hcolumn : 0 < dimensions → ∀ position < destination.exactCount,
      index.load memory (coordinateAddress index destination 0 position) = (ordinals position : Int)) :
    ∃ last, StreamEndsIn (decodeLaunches index destination extents dimensions
        (behind extents dimensions)) memory last ∧
      Digits index destination extents ordinals dimensions memory last := by
  induction dimensions generalizing memory with
  | zero =>
    exact ⟨memory, .nil memory, fun _ _ _ hdimension => absurd hdimension (Nat.not_lt_zero _),
      fun _ _ _ _ _ => rfl, fun _ _ => rfl⟩
  | succ dimension ih =>
    have hinside : dimension < destination.rank := hdimensions
    have hdivisor := @behind_succ extents dimension (by omega)
    have hwraps : behind extents (dimension + 1) * extents.getD dimension 0 % 2 ^ 64 =
        behind extents dimension := by
      rw [← hdivisor, Nat.mod_eq_of_lt (hfits dimension (Nat.le_succ dimension))]
    rcases @decodeCoordinateDimension_ends _ index destination dimension
      (behind extents (dimension + 1)) (extents.getD dimension 0) hinside hpos hcount memory with
      ⟨middle, hends, hdecoded⟩
    have hcolumn' : 0 < dimension → ∀ position < destination.exactCount,
        index.load middle (coordinateAddress index destination 0 position) =
          (ordinals position : Int) := by
      intro hlater position hposition
      rw [hdecoded.other position hposition 0 (by omega) hlater.ne]
      exact hcolumn (Nat.succ_pos dimension) position hposition
    rcases ih hinside.le (fun lower hle => hfits lower (Nat.le_succ_of_le hle)) hcolumn' with
      ⟨last, hrest, hdigits⟩
    refine ⟨last, ?_, fun position hposition lower hlower => ?_, ?_, fun cell hcell => ?_⟩
    · unfold decodeLaunches
      rw [hwraps]
      exact .cons hends hrest
    · rcases Nat.lt_succ_iff_lt_or_eq.1 hlower with hlt | rfl
      · exact hdigits.digit position hposition lower hlt
      · rw [hdigits.later position hposition lower le_rfl hinside,
          hdecoded.digit position hposition, hcolumn (Nat.succ_pos lower) position hposition,
          unsignedCoordinate_natCast (hordinals position hposition)]
    · intro position hposition later hle hlt
      rw [hdigits.later position hposition later (by omega) hlt]
      exact hdecoded.other position hposition later hlt (by omega)
    · rw [hdigits.outside cell hcell, hdecoded.outside cell hcell]

end Digits

/-! ## The entries -/

section Entries

open AscCpp.Sparse

variable {index : LocalRepresentation Cell Int} {type : LocalRepresentation Cell V}
  {destination : SparseDescriptor} {rank : Nat} {extents : Extents rank} {real : RandomReal}
  {scaled : Nat → Nat → V} {structureStream valueStream : RandomStream}
  {structureSubsequence valueSubsequence : RandomSubsequence}
  {structureOffset valueOffset : RandomOffset}

/-- The entries that stand in the storage of a descriptor. -/
def deviceEntries (index : LocalRepresentation Cell Int) (type : LocalRepresentation Cell V)
    (destination : SparseDescriptor) (rank : Nat) (memory : Nat → Cell) :
    List (Coordinate rank × V) :=
  (List.range destination.exactCount).map fun position =>
    (List.Vector.ofFn fun dimension : Fin rank =>
      index.load memory (coordinateAddress index destination dimension position),
      type.load memory (destination.values + position * type.size))

/-- The cells behind the values, and those before. -/
def OutsideValues (type : LocalRepresentation Cell V) (destination : SparseDescriptor)
    (cell : Nat) : Prop :=
  cell < destination.values ∨ destination.values + destination.exactCount * type.size ≤ cell

/-- The extents as the kernels take them. -/
def unsignedExtents (extents : Extents rank) : List Nat :=
  extents.values.toList.map Int.toNat

theorem logicalSize_eq_prod (extents : Extents rank) :
    extents.logicalSize.toNat = (unsignedExtents extents).prod := by
  rw [extents.logicalSize_eq, toNat_prod extents.nonneg, Int.toNat_natCast]
  rfl

theorem logicalSize_le (extents : Extents rank) : extents.logicalSize.toNat ≤ 2 ^ 63 := by
  have hfits := ((logicalExtent_ok_iff extents.nonneg _).1 extents.logical).2
  have hmaximum : int64.maximum = 9223372036854775807 := by decide
  rw [← extents.logicalSize_eq] at hfits
  omega

theorem behind_le (hpos : ∀ extent ∈ unsignedExtents extents, 0 < extent) (dimension : Nat) :
    behind (unsignedExtents extents) dimension ≤ extents.logicalSize.toNat := by
  have hsplit := List.prod_take_mul_prod_drop (unsignedExtents extents) dimension
  have hbefore : 0 < ((unsignedExtents extents).take dimension).prod :=
    List.prod_pos fun extent hmem => hpos extent (List.mem_of_mem_take hmem)
  rw [logicalSize_eq_prod, ← hsplit, behind]
  exact Nat.le_mul_of_pos_left _ hbefore

theorem fillValues_eq (destination : SparseDescriptor) :
    fillValues type real scaled destination valueStream valueSubsequence valueOffset =
      .loop destination.exactCount fun position =>
        Program.store type.toRepresentation (destination.values + position * type.size)
          (drawnValue real scaled valueStream valueSubsequence valueOffset position) := by
  unfold fillValues drawnValue
  cases real <;>
    simp only [generateUniform01, uniform01Float, uniform01Double, generateWord_eq]

/-- The values are written apart of the coordinates. -/
theorem fillValues_ends (hpos : 0 < destination.exactCount)
    (hcount : destination.exactCount ≤ 2 ^ 63) (memory : Nat → Cell) :
    ∃ last,
      (fillValues type real scaled destination valueStream valueSubsequence valueOffset).EndsIn
          memory last ∧
        (∀ position < destination.exactCount,
          type.load last (destination.values + position * type.size) =
            drawnValue real scaled valueStream valueSubsequence valueOffset position) ∧
        ∀ cell, OutsideValues type destination cell → last cell = memory cell := by
  have happart := apart_consecutive type.size destination.exactCount destination.values
  have hends := Launch.values_ends hpos hcount happart
    (drawnValue real scaled valueStream valueSubsequence valueOffset) memory
  rw [fillValues_eq]
  refine ⟨_, hends, fun position hposition => ?_, fun cell hcell => ?_⟩
  · exact load_foldl_store type.toRepresentation happart _ memory hposition
  · apply foldl_store_outside
    intro position hposition
    have hle := Nat.mul_le_mul_right type.size (Nat.succ_le_of_lt hposition)
    rw [Nat.succ_mul] at hle
    rcases hcell with hbefore | hbehind <;> omega

/-- The coordinates of a selection, as the kernels for the dimensions leave them. -/
theorem coordinates_eq (hrank : destination.rank = rank) {output : List Nat}
    {memory memory' : Nat → Cell}
    (hdigits : Digits index destination (unsignedExtents extents) (fun position => output.getD position 0)
      destination.rank memory memory') {position : Nat} (hposition : position < output.length)
    (hcount : output.length = destination.exactCount) :
    (List.Vector.ofFn fun dimension : Fin rank =>
        index.load memory' (coordinateAddress index destination dimension position)) =
      coordinateFromOrdinal output[position] extents := by
  apply List.Vector.ext
  intro dimension
  rw [List.Vector.get_ofFn, hdigits.digit position (hcount ▸ hposition) dimension
    (hrank ▸ dimension.isLt)]
  have hindices : (dimension : Nat) <
      (rowMajor (unsignedExtents extents) output[position]).1.length := by
    rw [rowMajor_length, unsignedExtents, List.length_map, extents.values.toList_length]
    exact dimension.isLt
  have hvalue : (coordinateFromOrdinal output[position] extents).get dimension =
      ((rowMajor (unsignedExtents extents) output[position]).1[(dimension : Nat)] : Int) := by
    exact List.getElem_map _
  rw [hvalue, rowMajor_getElem hindices, behind, List.getD_eq_getElem?_getD,
    List.getElem?_eq_getElem hposition]
  rfl

/-- The storage of the coordinates and that of the values share no cell. -/
def StorageApart (index : LocalRepresentation Cell Int) (type : LocalRepresentation Cell V)
    (destination : SparseDescriptor) : Prop :=
  destination.coordinates + destination.exactCount * destination.rank * index.size ≤
      destination.values ∨
    destination.values + destination.exactCount * type.size ≤ destination.coordinates

/-- The kernels for the structure leave the coordinates of the smallest candidates. -/
theorem structureLaunches_end (hrank : destination.rank = rank)
    (hlogical : destination.logicalSize = extents.logicalSize.toNat)
    (hpos : 0 < destination.exactCount) (hfits : destination.exactCount ≤ destination.logicalSize)
    (hsome : 0 < destination.rank) (memory : Nat → Cell) :
    ∃ last output,
      StreamEndsIn (selectCanonicalOrdinals index destination structureStream structureSubsequence
          structureOffset ::
        decodeLaunches index destination (unsignedExtents extents) destination.rank 1) memory last ∧
      Selects (priorityOf structureStream structureSubsequence structureOffset)
        destination.logicalSize destination.exactCount output ∧
      (∀ (position : Nat) (hposition : position < output.length),
        (List.Vector.ofFn fun dimension : Fin rank =>
          index.load last (coordinateAddress index destination dimension position)) =
            coordinateFromOrdinal output[position] extents) ∧
      ∀ cell, OutsideCoordinates index destination cell → last cell = memory cell := by
  have hsize := logicalSize_le extents
  have hextents : ∀ extent ∈ unsignedExtents extents, 0 < extent :=
    extents_pos (by omega : 0 < extents.logicalSize.toNat)
  have hlength : (unsignedExtents extents).length = destination.rank := by
    rw [unsignedExtents, List.length_map, extents.values.toList_length, hrank]
  rcases @selectCanonicalOrdinals_ends _ index destination structureStream structureSubsequence
    structureOffset hsome hfits (by omega) memory with ⟨middle, output, hends, hselects, hstored,
      houtside⟩
  have hcount : output.length = destination.exactCount := by
    have hsizes := congrArg List.length hstored
    rw [length_stored, List.length_map] at hsizes
    exact hsizes.symm
  have hordinal : ∀ (position : Nat) (hposition : position < output.length),
      output[position] < destination.logicalSize := fun position hposition =>
    Finset.mem_range.1 (hselects.smallest.subset
      (List.mem_toFinset.2 (List.getElem_mem hposition)))
  have hvalue : ∀ position < destination.exactCount,
      output.getD position 0 < 2 ^ 64 ∧
        index.load middle (coordinateAddress index destination 0 position) =
          (output.getD position 0 : Int) := by
    intro position hposition
    have hinside : position < output.length := hcount ▸ hposition
    have hget : output.getD position 0 = output[position] := by
      rw [List.getD_eq_getElem?_getD, List.getElem?_eq_getElem hinside]
      rfl
    have hlt := hordinal position hinside
    refine ⟨by omega, ?_⟩
    have hcell := @getElem_stored _ _ index.toRepresentation
      (coordinateAddress index destination 0) middle destination.exactCount position
      (by rwa [length_stored])
    rw [hget, ← hcell]
    simp only [hstored, List.getElem_map]
  have hone : behind (unsignedExtents extents) destination.rank = 1 := by
    rw [behind, List.drop_eq_nil_of_le hlength.le, List.prod_nil]
  rcases @decodeLaunches_ends _ index destination middle (unsignedExtents extents)
    (fun position => output.getD position 0) destination.rank hlength le_rfl
    (fun dimension _ => (behind_le hextents dimension).trans_lt (by omega))
    (fun position hposition => (hvalue position hposition).1) hpos (by omega)
    (fun _ position hposition => (hvalue position hposition).2) with ⟨last, hrest, hdigits⟩
  rw [hone] at hrest
  refine ⟨last, output, .cons hends hrest, hselects, fun position hposition => ?_,
    fun cell hcell => ?_⟩
  · exact coordinates_eq hrank hdigits hposition hcount
  · rw [hdigits.outside cell hcell, houtside cell hcell]

/-- The launches leave the entries that the host draws for the smallest candidates. -/
theorem sparseLaunches_end (hrank : destination.rank = rank)
    (hlogical : destination.logicalSize = extents.logicalSize.toNat)
    (hpos : 0 < destination.exactCount) (hfits : destination.exactCount ≤ destination.logicalSize)
    (hapart : StorageApart index type destination) (memory : Nat → Cell) :
    ∃ last output,
      StreamEndsIn ((sparseLaunches index type real scaled destination (unsignedExtents extents)
        structureStream structureSubsequence structureOffset valueStream valueSubsequence
          valueOffset).map Prod.fst) memory last ∧
      Selects (priorityOf structureStream structureSubsequence structureOffset)
        destination.logicalSize destination.exactCount output ∧
      deviceEntries index type destination rank last =
        drawnEntries real scaled extents valueStream valueSubsequence valueOffset output ∧
      ∀ cell, OutsideCoordinates index destination cell → OutsideValues type destination cell →
        last cell = memory cell := by
  have hsize := logicalSize_le extents
  have hstructure : ∃ middle output,
      StreamEndsIn (((if destination.rank ≠ 0 then
        (selectCanonicalOrdinals index destination structureStream structureSubsequence
          structureOffset, "CUDA could not launch sparse coordinate selection") ::
        (decodeLaunches index destination (unsignedExtents extents) destination.rank 1).map
          fun launch => (launch, "CUDA could not launch sparse coordinate decoding")
        else []).map Prod.fst)) memory middle ∧
      Selects (priorityOf structureStream structureSubsequence structureOffset)
        destination.logicalSize destination.exactCount output ∧
      (∀ (position : Nat) (hposition : position < output.length),
        (List.Vector.ofFn fun dimension : Fin rank =>
          index.load middle (coordinateAddress index destination dimension position)) =
            coordinateFromOrdinal output[position] extents) ∧
      ∀ cell, OutsideCoordinates index destination cell → middle cell = memory cell := by
    by_cases hnone : destination.rank = 0
    · -- There is one element and it has no coordinates.
      rcases @exists_selects (priorityOf structureStream structureSubsequence structureOffset) _ _
        hfits with ⟨output, hselects⟩
      rw [if_neg (not_not.2 hnone)]
      refine ⟨memory, output, .nil memory, hselects, fun position hposition => ?_, fun _ _ => rfl⟩
      apply List.Vector.ext
      intro dimension
      exact absurd dimension.isLt (by omega)
    · rcases @structureLaunches_end _ index destination rank extents structureStream
        structureSubsequence structureOffset hrank hlogical hpos hfits (Nat.pos_of_ne_zero hnone)
        memory with ⟨middle, output, hends, hselects, hcoordinates, houtside⟩
      rw [if_pos hnone, List.map_cons, List.map_map]
      refine ⟨middle, output, ?_, hselects, hcoordinates, houtside⟩
      simpa [Function.comp_def] using hends
  rcases hstructure with ⟨middle, output, hends, hselects, hcoordinates, houtside⟩
  have hcount : output.length = destination.exactCount := by
    rw [← hselects.smallest.card_eq,
      List.toFinset_card_of_nodup (hselects.increasing.imp ne_of_lt)]
  rcases @fillValues_ends _ _ type destination real scaled valueStream valueSubsequence valueOffset
    hpos (by omega) middle with ⟨last, hfill, hvalues, hother⟩
  refine ⟨last, output, ?_, hselects, ?_, fun cell hcell hcell' => ?_⟩
  · rw [sparseLaunches, List.map_append]
    exact hends.append (.single hfill)
  · apply List.ext_getElem
    · rw [drawnEntries_length, hcount, deviceEntries, List.length_map, List.length_range]
    · intro position hleft hright
      have hposition : position < output.length := by rwa [drawnEntries_length] at hright
      have hinside : position < destination.exactCount := hcount ▸ hposition
      have hkept : ∀ dimension : Fin rank,
          index.load last (coordinateAddress index destination dimension position) =
            index.load middle (coordinateAddress index destination dimension position) := by
        intro dimension
        apply index.load_congr
        intro cell hfirst hlast
        apply hother cell
        have hwithin := @coordinateAddress_inside _ index destination _ _ hinside
          (hrank ▸ dimension.isLt : (dimension : Nat) < destination.rank)
        rcases hapart with hbefore | hbehind
        · exact Or.inl (by omega)
        · exact Or.inr (by omega)
      simp only [deviceEntries, drawnEntries, List.getElem_map, List.getElem_range,
        List.getElem_mapIdx, hkept]
      rw [hcoordinates position hposition, hvalues position hinside]
  · rw [hother cell hcell', houtside cell hcell]

end Entries

end Cuda
end Random
end AscCpp
