import AscCpp.Sparse.CoordinateBuilder

/-!
# Canonicalize — what sorting and compacting leave in the arrays

The two parallel arrays are read as one list of entries.  On that list the inner loop of the sort
is a stable insertion into the sorted front, and the compaction combines the runs of equal
coordinates, overwriting a part that it has already read.

- `stableSort_cells`: the live entries become their stable sort, and the spare cells stay.
- `compactWith_cells`: the entries that remain are the combined runs.
-/

namespace AscCpp
namespace Sparse

open AscCpp.Core Library

/-! ## The arrays as one list -/

namespace EntryStorage

variable {E : Type} {rank : Nat} {storage : EntryStorage E rank}

/-- The entries of all cells. -/
def cells (storage : EntryStorage E rank) : List (Coordinate rank × E) :=
  storage.coordinates.zip storage.values

/-- One entry written to both arrays. -/
def setEntry (storage : EntryStorage E rank) (position : Nat) (entry : Coordinate rank × E) :
    EntryStorage E rank :=
  (storage.setCoordinate position entry.1).setValue position entry.2

theorem coordinateAt_eq {position : Nat} (h : position < storage.cells.length) :
    storage.coordinateAt position = storage.cells[position].1 := by
  simp only [cells, List.length_zip] at h
  simp [coordinateAt, cells, show position < storage.coordinates.length by omega]

theorem valueAt_eq [SparseElement E] {position : Nat} (h : position < storage.cells.length) :
    storage.valueAt position = storage.cells[position].2 := by
  simp only [cells, List.length_zip] at h
  simp [valueAt, cells, show position < storage.values.length by omega]

@[simp] theorem cells_setEntry (position : Nat) (entry : Coordinate rank × E) :
    (storage.setEntry position entry).cells = storage.cells.set position entry := by
  apply List.ext_getElem
  · simp [cells, setEntry, setCoordinate, setValue]
  · intro i hleft hright
    simp only [cells, setEntry, setCoordinate, setValue, List.getElem_zip, List.getElem_set]
    split <;> rfl

end EntryStorage

/-- A list from the cell that was written. -/
theorem drop_set_self {α : Type} {cells : List α} {position : Nat} {cell : α}
    (h : position < cells.length) :
    (cells.set position cell).drop position = cell :: cells.drop (position + 1) := by
  rw [List.set_eq_take_append_cons_drop, if_pos h, List.drop_left' (by simp; omega)]

variable {E : Type} [SparseElement E] {rank : Nat}

/-! ## Sorting -/

/-- The loop moves the greater entries of a sorted front behind the new one. -/
theorem shiftGreater_cells {insertion : Nat} {storage : EntryStorage E rank}
    (hlength : insertion < storage.cells.length)
    (hsorted : KeySorted (storage.cells.take insertion)) (entry : Coordinate rank × E) :
    ((shiftGreater entry.1 insertion storage).1.setEntry
        (shiftGreater entry.1 insertion storage).2 entry).cells =
      insertStable entry (storage.cells.take insertion) ++ storage.cells.drop (insertion + 1) := by
  -- On the gap that moves down; what lies behind it is final.
  induction insertion generalizing storage with
  | zero =>
    rw [shiftGreater, EntryStorage.cells_setEntry, List.set_eq_take_append_cons_drop,
      if_pos hlength]
    simp [insertStable]
  | succ previous ih =>
    have hprevious : previous < storage.cells.length := by omega
    have htake : storage.cells.take (previous + 1) =
        storage.cells.take previous ++ [storage.cells[previous]] := by
      simp
    have hfront : KeySorted (storage.cells.take previous) := by
      rw [htake] at hsorted
      exact (List.pairwise_append.1 hsorted).1
    rw [shiftGreater]
    by_cases hle : storage.cells[previous].1 ≤ entry.1
    · -- The loop stops: nothing in the sorted front is greater.
      have hall : ∀ other ∈ storage.cells.take (previous + 1), other.1 ≤ entry.1 := by
        intro other hmem
        rw [htake] at hmem hsorted
        rcases List.mem_append.1 hmem with hbefore | hlast
        · exact ((List.pairwise_append.1 hsorted).2.2 other hbefore _
            (List.mem_singleton_self _)).trans hle
        · rwa [List.mem_singleton.1 hlast]
      rw [if_pos (by rwa [EntryStorage.coordinateAt_eq hprevious, compareCoordinates_nonpos_iff]),
        insertStable_of_forall_le hall, EntryStorage.cells_setEntry,
        List.set_eq_take_append_cons_drop, if_pos hlength, List.append_assoc]
      rfl
    · -- The entry moves up, and the loop goes on in front of it.
      have hmoved : (storage.setEntry (previous + 1) storage.cells[previous]).cells =
          storage.cells.set (previous + 1) storage.cells[previous] :=
        EntryStorage.cells_setEntry _ _
      have hrest := @ih (storage.setEntry (previous + 1) storage.cells[previous])
        (by rw [hmoved, List.length_set]; exact hprevious)
        (by rw [hmoved, List.take_set_of_le (by omega)]; exact hfront)
      rw [hmoved, List.take_set_of_le (by omega),
        drop_set_self (by omega : previous + 1 < storage.cells.length)] at hrest
      rw [if_neg (by rwa [EntryStorage.coordinateAt_eq hprevious, compareCoordinates_nonpos_iff]),
        EntryStorage.coordinateAt_eq hprevious, EntryStorage.valueAt_eq hprevious, htake,
        insertStable_concat_of_lt (not_le.1 hle), List.append_assoc]
      exact hrest

/-- One round of the sort: the next entry goes into the sorted front. -/
theorem insertPosition_cells {storage : EntryStorage E rank}
    {front back : List (Coordinate rank × E)} {entry : Coordinate rank × E}
    (hcells : storage.cells = front ++ entry :: back) (hsorted : KeySorted front) :
    (insertPosition storage front.length).cells = insertStable entry front ++ back := by
  have hlength : front.length < storage.cells.length := by simp [hcells]
  have hentry : storage.cells[front.length] = entry := by simp [hcells]
  have htake : storage.cells.take front.length = front := by simp [hcells]
  have hdrop : storage.cells.drop (front.length + 1) = back := by simp [hcells]
  have hshift := shiftGreater_cells hlength (by rwa [htake]) entry
  rw [htake, hdrop] at hshift
  rw [insertPosition, EntryStorage.coordinateAt_eq hlength, EntryStorage.valueAt_eq hlength,
    hentry]
  exact hshift

/-- The first rounds of the sort leave a sorted front before the entries still to come. -/
theorem foldl_insertPosition_cells {storage : EntryStorage E rank} (rounds : Nat)
    (hlength : rounds + 1 ≤ storage.cells.length) :
    ∃ front,
      ((List.range' 1 rounds).foldl insertPosition storage).cells =
          front ++ storage.cells.drop (rounds + 1) ∧
        front.length = rounds + 1 ∧
        StablySorts (storage.cells.take (rounds + 1)) front := by
  -- After each round one more entry belongs to the sorted front.
  induction rounds with
  | zero =>
    refine ⟨storage.cells.take 1, (List.take_append_drop 1 _).symm, by simpa using hlength, ?_,
      fun _ => rfl⟩
    cases storage.cells with
    | nil => exact List.Pairwise.nil
    | cons entry rest => exact List.pairwise_singleton _ _
  | succ rounds ih =>
    rcases ih (by omega) with ⟨front, hcells, hfront, hsorts⟩
    have hnext : rounds + 1 < storage.cells.length := by omega
    rw [List.drop_eq_getElem_cons hnext] at hcells
    have hround := insertPosition_cells hcells hsorts.sorted
    refine ⟨insertStable storage.cells[rounds + 1] front, ?_, ?_, ?_⟩
    · rw [List.range'_concat, List.foldl_append, List.foldl_cons, List.foldl_nil,
        show 1 + 1 * rounds = front.length by omega, hround]
    · simpa [hfront] using (insertStable_perm storage.cells[rounds + 1] front).length_eq
    · have hinsert := hsorts.insert storage.cells[rounds + 1]
      simpa using hinsert

/-- `StableSort` sorts the live entries stably and leaves the spare cells. -/
theorem stableSort_cells {storage : EntryStorage E rank} {size : Nat}
    (hlength : size ≤ storage.cells.length) :
    ∃ sorted,
      (stableSort storage size).cells = sorted ++ storage.cells.drop size ∧
        sorted.length = size ∧ StablySorts (storage.cells.take size) sorted := by
  cases size with
  | zero => exact ⟨[], rfl, rfl, StablySorts.nil⟩
  | succ rounds => exact foldl_insertPosition_cells rounds hlength

/-! ## Compacting -/

/-- The sum of a group over an addition: the values after the first one are added in order, or
dropped. -/
def combineWith {m : Type → Type} [Monad m] (add : E → E → m E)
    (duplicatePolicy : DuplicatePolicy) (first : E) (rest : List E) : m E :=
  if duplicatePolicy = .sum then rest.foldlM add first else pure first

/-- What the unchecked additions make of a group. -/
def combineValues (duplicatePolicy : DuplicatePolicy) (first : E) (rest : List E) : E :=
  Id.run (combineWith (fun left right => pure (SparseElement.add left right)) duplicatePolicy
    first rest)

/-- The values that the policy keeps. -/
def keepsValue (zeroPolicy : ExplicitZeroPolicy) (value : E) : Bool :=
  !(decide (zeroPolicy = .drop) && SparseElement.isZero value)

section Compact

variable {m : Type → Type} [Monad m] [LawfulMonad m] {add : E → E → m E}
  {duplicatePolicy : DuplicatePolicy} {zeroPolicy : ExplicitZeroPolicy}

/-- The inner loop combines the run of the group's coordinate. -/
theorem sumGroup_eq {storage : EntryStorage E rank} {groupBegin input : Nat}
    {live spare : List (Coordinate rank × E)} (hcells : storage.cells.drop input = live ++ spare)
    (value : E) :
    sumGroup add duplicatePolicy storage groupBegin live.length input value =
      (do
        let total ← combineWith add duplicatePolicy value
          ((leadingRun (storage.coordinateAt groupBegin) live).map Prod.snd)
        pure (total, input +
          (leadingRun (storage.coordinateAt groupBegin) live).length)) := by
  -- On the live entries from the input on; a run ends where the coordinate changes.
  induction live generalizing input value with
  | nil =>
    cases duplicatePolicy <;> simp [sumGroup, combineWith]
  | cons entry live ih =>
    have hinput : input < storage.cells.length := by
      by_contra hout
      rw [List.drop_eq_nil_of_le (not_lt.1 hout)] at hcells
      cases hcells
    rw [List.drop_eq_getElem_cons hinput, List.cons_append, List.cons.injEq] at hcells
    rcases hcells with ⟨hentry, hrest⟩
    rw [List.length_cons, sumGroup, EntryStorage.coordinateAt_eq hinput,
      EntryStorage.valueAt_eq hinput, hentry]
    by_cases hsame : entry.1 = storage.coordinateAt groupBegin
    · rw [if_pos (compareCoordinates_eq_zero_iff.2 hsame.symm),
        leadingRun_cons_of_eq hsame]
      simp only [ih hrest, List.length_cons, List.map_cons, Nat.add_assoc, Nat.add_comm 1]
      cases duplicatePolicy <;> simp [combineWith]
    · have hdifferent : ¬ compareCoordinates (storage.coordinateAt groupBegin) entry.1 = 0 :=
        fun h => hsame (compareCoordinates_eq_zero_iff.1 h).symm
      rw [if_neg hdifferent, leadingRun_cons_of_ne hsame]
      cases duplicatePolicy <;> simp [combineWith]

omit [SparseElement E] in
/-- Writing a group, the coordinates being moved only when they are not there already. -/
theorem cells_writeGroup {storage : EntryStorage E rank} {groupBegin : Nat}
    (h : groupBegin < storage.cells.length) (output : Nat) (value : E) :
    ((if output ≠ groupBegin then
        storage.setCoordinate output (storage.coordinateAt groupBegin)
      else
        storage).setValue output value).cells =
      storage.cells.set output (storage.coordinateAt groupBegin, value) := by
  have hmoved : (if output ≠ groupBegin then
        storage.setCoordinate output (storage.coordinateAt groupBegin)
      else
        storage) = storage.setCoordinate output (storage.coordinateAt groupBegin) := by
    -- The source skips the copy of a coordinate onto itself.
    by_cases heq : output = groupBegin
    · rw [if_neg (by simpa using heq), heq]
      simp only [EntryStorage.cells, List.length_zip] at h
      simp [EntryStorage.setCoordinate, EntryStorage.coordinateAt,
        show groupBegin < storage.coordinates.length by omega]
    · rw [if_pos heq]
  rw [hmoved]
  exact EntryStorage.cells_setEntry output (storage.coordinateAt groupBegin, value)

/-- The addition does not fail on the groups of the entries, and combines them as stated. -/
def Combines (add : E → E → m E) (duplicatePolicy : DuplicatePolicy) (combine : E → List E → E)
    (entries : List (Coordinate rank × E)) : Prop :=
  ∀ key first rest, valuesAt key entries = first :: rest →
    combineWith add duplicatePolicy first rest = pure (combine first rest)

omit [SparseElement E] [LawfulMonad m] in
/-- The groups behind the first one are groups of the whole. -/
theorem Combines.afterRun {combine : E → List E → E} {entry : Coordinate rank × E}
    {rest : List (Coordinate rank × E)}
    (h : Combines add duplicatePolicy combine (entry :: rest))
    (hsorted : KeySorted (entry :: rest)) :
    Combines add duplicatePolicy combine (afterRun entry.1 rest) := by
  intro key first values hvalues
  rw [hsorted.valuesAt_afterRun] at hvalues
  split at hvalues
  · cases hvalues
  · exact h key first values hvalues

end Compact

section CompactLoop

variable {duplicatePolicy : DuplicatePolicy} {zeroPolicy : ExplicitZeroPolicy}

/-- The loop appends the combined runs of the sorted entries still to come to its output, with any
addition that combines them.  The output never overtakes the input, so what is overwritten has
been read. -/
theorem compactFrom_cells {combine : E → List E → E} {size rounds : Nat}
    {storage : EntryStorage E rank} {input output : Nat} {live spare : List (Coordinate rank × E)}
    (hcells : storage.cells.drop input = live ++ spare) (hsize : input + live.length = size)
    (hrounds : live.length ≤ rounds) (houtput : output ≤ input) (hsorted : KeySorted live) :
    ∃ result : EntryStorage E rank,
      result.cells.take (output + (combineRuns combine (keepsValue zeroPolicy) live).length) =
          storage.cells.take output ++ combineRuns combine (keepsValue zeroPolicy) live ∧
        ∀ {m : Type → Type} [Monad m] [LawfulMonad m] (add : E → E → m E),
          Combines add duplicatePolicy combine live →
          compactFrom add duplicatePolicy zeroPolicy size rounds storage input output =
            pure (result, output + (combineRuns combine (keepsValue zeroPolicy) live).length) := by
  induction rounds generalizing storage input output live with
  | zero =>
    cases List.eq_nil_of_length_eq_zero (Nat.le_zero.1 hrounds)
    exact ⟨storage, by simp [combineRuns], fun add _ => by simp [compactFrom, combineRuns]⟩
  | succ rounds ih =>
    cases live with
    | nil =>
      refine ⟨storage, by simp [combineRuns], fun add _ => ?_⟩
      rw [compactFrom, if_neg (by simp at hsize; omega), combineRuns]
      rfl
    | cons entry live =>
      have hinput : input < storage.cells.length := by
        by_contra hout
        rw [List.drop_eq_nil_of_le (not_lt.1 hout)] at hcells
        cases hcells
      rw [List.drop_eq_getElem_cons hinput, List.cons_append, List.cons.injEq] at hcells
      rcases hcells with ⟨hentry, hrest⟩
      have hcoordinate : storage.coordinateAt input = entry.1 := by
        rw [EntryStorage.coordinateAt_eq hinput, hentry]
      have hvalue : storage.valueAt input = entry.2 := by
        rw [EntryStorage.valueAt_eq hinput, hentry]
      have hremaining : size - (input + 1) = live.length := by
        simp only [List.length_cons] at hsize
        omega
      have hafter : storage.cells.drop (input + 1 + (leadingRun entry.1 live).length) =
          afterRun entry.1 live ++ spare := by
        have hsplit := leadingRun_append_afterRun entry.1 live
        rw [← List.drop_drop, hrest, ← hsplit, List.append_assoc, hsplit, List.drop_left]
      have hlengths : (leadingRun entry.1 live).length + (afterRun entry.1 live).length =
          live.length := by
        rw [← List.length_append, leadingRun_append_afterRun]
      have hsorted' : KeySorted (afterRun entry.1 live) :=
        hsorted.of_cons.sublist (afterRun_sublist _ _)
      -- The inner loop yields the combined value and the position behind the group.
      have hgroup : ∀ {m : Type → Type} [Monad m] [LawfulMonad m] (add : E → E → m E),
          Combines add duplicatePolicy combine (entry :: live) →
          sumGroup add duplicatePolicy storage input live.length (input + 1) entry.2 =
            pure (combine entry.2 ((leadingRun entry.1 live).map Prod.snd),
              input + 1 + (leadingRun entry.1 live).length) := by
        intro m _ _ add hcombine
        rw [sumGroup_eq hrest, hcoordinate, hcombine entry.1 _ _ hsorted.valuesAt_self, pure_bind]
      simp only [List.length_cons] at hsize hrounds
      by_cases hkeep : keepsValue zeroPolicy
          (combine entry.2 ((leadingRun entry.1 live).map Prod.snd)) = true
      · -- The group is written behind the output.
        have hwrite := cells_writeGroup hinput output
          (combine entry.2 ((leadingRun entry.1 live).map Prod.snd))
        rw [hcoordinate] at hwrite
        have hdrop := hafter
        rw [← List.drop_set_of_lt (by omega : output < input + 1 + _), ← hwrite] at hdrop
        rcases @ih _ _ (output + 1) _ hdrop (by omega) (by omega) (by omega) hsorted'
          with ⟨result, htake, hrun⟩
        rw [Nat.add_right_comm output 1] at htake
        rw [combineRuns_cons_of_keep hkeep, List.length_cons]
        refine ⟨result, htake.trans ?_, fun add hcombine => ?_⟩
        · rw [hwrite, List.take_add_one, List.take_set_of_le le_rfl]
          simp [show output < storage.cells.length by omega]
        · have hrest := hrun add (hcombine.afterRun hsorted)
          rw [Nat.add_right_comm output 1] at hrest
          rw [compactFrom, if_pos (by omega), hremaining, hvalue]
          simp only [hgroup add hcombine, pure_bind, hcoordinate]
          rw [if_neg (by
            rintro ⟨rfl, hzero⟩
            simp [keepsValue, hzero] at hkeep)]
          exact hrest
      · -- The group is a dropped zero.
        rcases @ih _ _ output _ hafter (by omega) (by omega) (by omega) hsorted'
          with ⟨result, htake, hrun⟩
        rw [combineRuns_cons_of_drop hkeep]
        refine ⟨result, htake, fun add hcombine => ?_⟩
        rw [compactFrom, if_pos (by omega), hremaining, hvalue]
        simp only [hgroup add hcombine, pure_bind]
        rw [if_pos (by simpa [keepsValue] using hkeep)]
        exact hrun add (hcombine.afterRun hsorted)

/-- `Compact` leaves the combined runs of the sorted live entries in front. -/
theorem compactWith_cells {combine : E → List E → E} {storage : EntryStorage E rank}
    {live spare : List (Coordinate rank × E)} (hcells : storage.cells = live ++ spare)
    (hsorted : KeySorted live) :
    ∃ result : EntryStorage E rank,
      result.cells.take (combineRuns combine (keepsValue zeroPolicy) live).length =
          combineRuns combine (keepsValue zeroPolicy) live ∧
        ∀ {m : Type → Type} [Monad m] [LawfulMonad m] (add : E → E → m E),
          Combines add duplicatePolicy combine live →
          compactWith add duplicatePolicy zeroPolicy storage live.length =
            pure (result, (combineRuns combine (keepsValue zeroPolicy) live).length) := by
  simpa [compactWith] using @compactFrom_cells E _ rank duplicatePolicy zeroPolicy combine
    live.length live.length storage 0 0 live spare hcells (Nat.zero_add _) le_rfl le_rfl hsorted

end CompactLoop

end Sparse
end AscCpp
