import AscCpp.Sparse.Canonicalize

/-!
# Duplicates — what the preflight accepts

The preflight runs over the entries in the order in which they were added.  It visits every
coordinate once, at its first entry, and folds over the later entries of that coordinate.

- `preflightDuplicates_ok_iff`: the preflight accepts when no coordinate has a second value, or
  when the checked sum of the values of every coordinate exists.
- `foldlM_addDuplicate_ok_iff`: over an integral type that sum exists when every running sum is
  representable.
-/

namespace AscCpp
namespace Sparse

open AscCpp.Core Library

/-! ## The loops of the preflight -/

section Preflight

variable {E : Type} [SparseElement E] {rank : Nat} {duplicatePolicy : DuplicatePolicy}

/-- The inner loop folds over the later values of the coordinate. -/
theorem foldlM_addLater {storage : EntryStorage E rank} {first start : Nat}
    {after spare : List (Coordinate rank × E)} (hcells : storage.cells.drop start = after ++ spare)
    (sum : E) (duplicate : Bool) :
    (List.range' start after.length).foldlM (addLater duplicatePolicy storage first)
        (sum, duplicate) =
      (do
        let total ← combineWith SparseElement.addDuplicate duplicatePolicy sum
          (valuesAt (storage.coordinateAt first) after)
        .ok (total, duplicate || !(valuesAt (storage.coordinateAt first) after).isEmpty)) := by
  -- On the entries behind the first one of the group.
  induction after generalizing start sum duplicate with
  | nil => cases duplicatePolicy <;> simp [combineWith, pure, Except.pure, bind, Except.bind]
  | cons entry after ih =>
    have hstart : start < storage.cells.length := by
      by_contra hout
      rw [List.drop_eq_nil_of_le (not_lt.1 hout)] at hcells
      cases hcells
    rw [List.drop_eq_getElem_cons hstart, List.cons_append, List.cons.injEq] at hcells
    rcases hcells with ⟨hentry, hrest⟩
    rw [List.length_cons, List.range'_succ, List.foldlM_cons, addLater,
      EntryStorage.coordinateAt_eq hstart, EntryStorage.valueAt_eq hstart, hentry]
    -- An entry of the group is added, or only noted; any other is passed over.
    by_cases hsame : entry.1 = storage.coordinateAt first
    · have hcompare : ¬ compareCoordinates (storage.coordinateAt first) entry.1 ≠ 0 :=
        not_not_intro (compareCoordinates_eq_zero_iff.2 hsame.symm)
      rw [if_neg hcompare, ← hsame, valuesAt_cons_self, hsame]
      cases duplicatePolicy with
      | reject =>
        rw [if_neg (by decide), Result.ok_bind, ih hrest]
        simp [combineWith]
      | sum =>
        rw [if_pos rfl]
        cases hadd : SparseElement.addDuplicate sum entry.2 with
        | error status => simp [combineWith, hadd, bind, Except.bind]
        | ok next =>
          rw [Result.ok_bind, Result.ok_bind, ih hrest]
          simp [combineWith, hadd, bind, Except.bind]
    · have hcompare : compareCoordinates (storage.coordinateAt first) entry.1 ≠ 0 :=
        fun h => hsame (compareCoordinates_eq_zero_iff.1 h).symm
      rw [if_pos hcompare, Result.ok_bind, ih hrest, valuesAt_cons_of_ne hsame]

/-- What a coordinate's values must satisfy under a policy. -/
def GroupAccepted (duplicatePolicy : DuplicatePolicy) (first : E) (rest : List E) : Prop :=
  (duplicatePolicy = .reject → rest = []) ∧
    ∃ total, combineWith SparseElement.addDuplicate duplicatePolicy first rest =
      (.ok total : Result E)

omit [SparseElement E] in
theorem wasSeen_iff {storage : EntryStorage E rank}
    {before rest : List (Coordinate rank × E)} {entry : Coordinate rank × E}
    (hcells : storage.cells = before ++ entry :: rest) :
    wasSeen storage before.length = true ↔ entry.1 ∈ before.map Prod.fst := by
  have hcoordinate : storage.coordinateAt before.length = entry.1 := by
    rw [EntryStorage.coordinateAt_eq (by simp [hcells])]
    simp [hcells]
  -- The loop compares with the positions before, which hold the earlier entries.
  have hearlier : ∀ earlier, (hlt : earlier < before.length) →
      storage.coordinateAt earlier = before[earlier].1 := by
    intro earlier hlt
    rw [EntryStorage.coordinateAt_eq (by simp [hcells]; omega)]
    simp [hcells, hlt]
  simp only [wasSeen, hcoordinate, List.any_eq_true, List.mem_range, decide_eq_true_eq,
    compareCoordinates_eq_zero_iff, List.mem_map]
  constructor
  · rintro ⟨earlier, hlt, hsame⟩
    rw [hearlier earlier hlt] at hsame
    exact ⟨before[earlier], List.getElem_mem hlt, hsame.symm⟩
  · rintro ⟨other, hmem, hsame⟩
    rcases List.getElem_of_mem hmem with ⟨earlier, hlt, rfl⟩
    exact ⟨earlier, hlt, by rw [hearlier earlier hlt, hsame]⟩

/-- A round accepts an entry behind another one of its coordinate, and a first entry when its
group is acceptable. -/
theorem preflightRound_ok_iff {storage : EntryStorage E rank}
    {before after spare : List (Coordinate rank × E)} {entry : Coordinate rank × E}
    (hcells : storage.cells = before ++ entry :: (after ++ spare)) :
    preflightRound duplicatePolicy storage (before.length + (after.length + 1)) before.length =
        .ok () ↔
      (entry.1 ∉ before.map Prod.fst →
        GroupAccepted duplicatePolicy entry.2 (valuesAt entry.1 after)) := by
  have hlength : before.length < storage.cells.length := by simp [hcells]
  have hentry : storage.cells[before.length] = entry := by simp [hcells]
  have hdrop : storage.cells.drop (before.length + 1) = after ++ spare := by simp [hcells]
  have hfold := @foldlM_addLater E _ rank duplicatePolicy storage before.length
    (before.length + 1) after spare hdrop (storage.valueAt before.length) false
  rw [EntryStorage.coordinateAt_eq hlength, EntryStorage.valueAt_eq hlength, hentry] at hfold
  have hwasSeen := wasSeen_iff hcells
  rw [preflightRound]
  -- A coordinate seen before was checked with its first entry.
  by_cases hseen : entry.1 ∈ before.map Prod.fst
  · simp [hwasSeen.2 hseen, hseen]
  rw [if_neg fun h => hseen (hwasSeen.1 h), EntryStorage.valueAt_eq hlength, hentry,
    show before.length + (after.length + 1) - (before.length + 1) = after.length by omega, hfold]
  simp only [Result.bind_eq_ok_iff, Result.failIf_eq_ok_iff, Except.ok.injEq, GroupAccepted]
  constructor
  · rintro ⟨state, ⟨total, htotal, rfl⟩, hcheck⟩ -
    refine ⟨fun hpolicy => ?_, total, htotal⟩
    by_contra hne
    exact hcheck ⟨by simpa [List.isEmpty_iff] using hne, hpolicy⟩
  · intro haccepted
    rcases haccepted hseen with ⟨hreject, total, htotal⟩
    refine ⟨_, ⟨total, htotal, rfl⟩, ?_⟩
    rintro ⟨hduplicate, hpolicy⟩
    simp [hreject hpolicy] at hduplicate

/-- The preflight accepts the live entries when it accepts the group of every coordinate. -/
theorem preflightDuplicates_ok_iff {storage : EntryStorage E rank}
    {live spare : List (Coordinate rank × E)} (hcells : storage.cells = live ++ spare) :
    preflightDuplicates duplicatePolicy storage live.length = .ok () ↔
      ∀ key first rest, valuesAt key live = first :: rest →
        GroupAccepted duplicatePolicy first rest := by
  rw [preflightDuplicates, Result.forM_eq_ok_iff]
  simp only [List.mem_range]
  -- Each group is checked in the round of its first entry.
  constructor
  · intro hrounds key first rest hvalues
    rcases exists_first_entry hvalues with ⟨before, after, rfl, hbefore, rfl⟩
    have hround := hrounds before.length (by simp)
    rw [List.length_append, List.length_cons, @preflightRound_ok_iff E _ rank duplicatePolicy
      storage before after spare (key, first) (by simpa using hcells)] at hround
    exact hround hbefore
  · intro hgroups position hposition
    have hsplit : live =
        live.take position ++ live[position] :: live.drop (position + 1) := by
      rw [List.getElem_cons_drop, List.take_append_drop]
    have hround := @preflightRound_ok_iff E _ rank duplicatePolicy storage (live.take position)
      (live.drop (position + 1)) spare live[position] (by
        rw [hcells, ← List.cons_append, ← List.append_assoc, ← hsplit])
    rw [← List.length_cons, ← List.length_append, ← hsplit, List.length_take,
      min_eq_left hposition.le] at hround
    rw [hround]
    intro hfirst
    have hvalues := @valuesAt_first_entry _ _ _ live[position] _ (live.drop (position + 1)) hfirst
    rw [← hsplit] at hvalues
    exact hgroups _ _ _ hvalues

end Preflight

/-! ## Sums over an integral type -/

section Integral

variable {type : IntegerType}

/-- The mathematical sum of values. -/
def sumOf (values : List type.Value) : Int :=
  (values.map fun value => value.val).sum

@[simp] theorem sumOf_nil : sumOf ([] : List type.Value) = 0 := rfl

@[simp] theorem sumOf_cons (value : type.Value) (values : List type.Value) :
    sumOf (value :: values) = value.val + sumOf values := by
  simp [sumOf]

theorem add_val {left right : type.Value} (h : type.Representable (left.val + right.val)) :
    (SparseElement.add left right).val = left.val + right.val :=
  staticCast_val h

theorem addDuplicate_eq (left right : type.Value) :
    SparseElement.addDuplicate left right =
      if type.Representable (left.val + right.val) then .ok (SparseElement.add left right)
      else .error additionOverflow := by
  simp only [SparseElement.addDuplicate, SparseElement.add, checkedAdd_eq left.2 right.2]
  split <;> rfl

/-- The checked sum exists when every running sum is representable, and the unchecked additions
then compute the same. -/
theorem foldlM_addDuplicate_ok_iff (first : type.Value) (rest : List type.Value)
    (total : type.Value) :
    rest.foldlM SparseElement.addDuplicate first = .ok total ↔
      (∀ count, type.Representable (first.val + sumOf (rest.take count))) ∧
        total = rest.foldl SparseElement.add first := by
  -- A sum of the rest is a partial sum one step further on.
  induction rest generalizing first with
  | nil => simp [pure, Except.pure, first.2, eq_comm]
  | cons value rest ih =>
    rw [List.foldlM_cons, addDuplicate_eq, List.foldl_cons]
    by_cases hfits : type.Representable (first.val + value.val)
    · rw [if_pos hfits, Result.ok_bind, ih, add_val hfits]
      refine and_congr_left fun _ => ⟨fun hall count => ?_, fun hall count => ?_⟩
      · cases count with
        | zero => simpa using first.2
        | succ count => simpa [add_assoc] using hall count
      · simpa [add_assoc] using hall (count + 1)
    · rw [if_neg hfits]
      constructor
      · rintro ⟨⟩
      · rintro ⟨hall, -⟩
        exact absurd (by simpa using hall 1) hfits

theorem foldl_add_val {first : type.Value} {rest : List type.Value}
    (h : ∀ count, type.Representable (first.val + sumOf (rest.take count))) :
    (rest.foldl SparseElement.add first).val = first.val + sumOf rest := by
  induction rest generalizing first with
  | nil => simp
  | cons value rest ih =>
    have hfits : type.Representable (first.val + value.val) := by simpa using h 1
    rw [List.foldl_cons, ih fun count => ?_, add_val hfits, sumOf_cons, add_assoc]
    rw [add_val hfits]
    simpa [add_assoc] using h (count + 1)

/-- The running sums of a group, its first value included. -/
theorem running_sums_iff (first : type.Value) (rest : List type.Value) :
    (∀ count, type.Representable (first.val + sumOf (rest.take count))) ↔
      ∀ count, type.Representable (sumOf ((first :: rest).take count)) := by
  constructor
  · intro hall count
    cases count with
    | zero => exact type.representable_zero
    | succ count => simpa using hall count
  · intro hall count
    simpa using hall (count + 1)

/-- Of a group that the preflight accepts the additions make the mathematical sum, and the checked
ones do not fail. -/
theorem GroupAccepted.combine {duplicatePolicy : DuplicatePolicy} {first : type.Value}
    {rest : List type.Value} (h : GroupAccepted duplicatePolicy first rest) :
    combineWith SparseElement.addDuplicate duplicatePolicy first rest =
        (.ok (combineValues duplicatePolicy first rest) : Result type.Value) ∧
      (combineValues duplicatePolicy first rest).val = sumOf (first :: rest) := by
  rcases h with ⟨hreject, total, htotal⟩
  cases duplicatePolicy with
  | reject =>
    cases hreject rfl
    exact ⟨rfl, by simp [combineValues, combineWith]⟩
  | sum =>
    have hchecked : rest.foldlM SparseElement.addDuplicate first = .ok total := htotal
    rcases (foldlM_addDuplicate_ok_iff first rest total).1 hchecked with ⟨hall, rfl⟩
    have hvalue : combineValues .sum first rest = rest.foldl SparseElement.add first := by
      simp [combineValues, combineWith, List.foldlM_pure]
    rw [hvalue]
    exact ⟨htotal, by rw [foldl_add_val hall, sumOf_cons]⟩

/-- The rejecting policy accepts single values. -/
theorem groupAccepted_reject_iff {first : type.Value} {rest : List type.Value} :
    GroupAccepted .reject first rest ↔ rest = [] :=
  ⟨fun h => h.1 rfl, fun h => ⟨fun _ => h, first, rfl⟩⟩

/-- The sum policy accepts a group when all its running sums are representable. -/
theorem groupAccepted_sum_iff {first : type.Value} {rest : List type.Value} :
    GroupAccepted .sum first rest ↔
      ∀ count, type.Representable (sumOf ((first :: rest).take count)) := by
  rw [← running_sums_iff]
  constructor
  · rintro ⟨-, total, htotal⟩
    exact ((foldlM_addDuplicate_ok_iff first rest total).1 htotal).1
  · intro hall
    exact ⟨nofun, _, (foldlM_addDuplicate_ok_iff first rest _).2 ⟨hall, rfl⟩⟩

end Integral

end Sparse
end AscCpp
