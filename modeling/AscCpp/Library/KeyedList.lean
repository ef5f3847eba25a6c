import Mathlib.Data.List.DropRight
import Mathlib.Data.List.Sort
import Mathlib.Order.Defs.LinearOrder

/-!
# KeyedList — lists of entries under ordered keys

An entry is a key with a value.  Several entries may have one key.

- `StablySorts`: the second list is the first one sorted by key, entries of one key keeping their
  order; `StablySorts.insert` is the step of an insertion sort.
- `combineRuns`: each run of equal keys becomes one entry, or none; on a sorted list
  `mem_combineRuns_iff` says which entries result.
- `StrictlyKeySorted.ext`: lists without repeated keys that are sorted are equal as soon as they
  have the same entries.
-/

namespace AscCpp
namespace Library

variable {K V : Type} [LinearOrder K]

/-! ## Sorted lists -/

def KeySorted (entries : List (K × V)) : Prop :=
  entries.Pairwise fun left right => left.1 ≤ right.1

def StrictlyKeySorted (entries : List (K × V)) : Prop :=
  entries.Pairwise fun left right => left.1 < right.1

theorem StrictlyKeySorted.nodup {entries : List (K × V)} (h : StrictlyKeySorted entries) :
    entries.Nodup := by
  apply List.Pairwise.imp _ h
  rintro left right hlt rfl
  exact lt_irrefl _ hlt

theorem StrictlyKeySorted.keys_nodup {entries : List (K × V)} (h : StrictlyKeySorted entries) :
    (entries.map Prod.fst).Nodup := by
  unfold List.Nodup
  rw [List.pairwise_map]
  exact h.imp ne_of_lt

/-- Strictly sorted lists with the same entries are equal. -/
theorem StrictlyKeySorted.ext {left right : List (K × V)} (hleft : StrictlyKeySorted left)
    (hright : StrictlyKeySorted right) (h : ∀ entry, entry ∈ left ↔ entry ∈ right) :
    left = right := by
  have hperm : left.Perm right := (List.perm_ext_iff_of_nodup hleft.nodup hright.nodup).2 h
  exact hperm.eq_of_pairwise (fun _ _ _ _ hab hba => absurd (hab.trans hba) (lt_irrefl _))
    hleft hright

/-! ## The entries of one key -/

def withKey (key : K) (entries : List (K × V)) : List (K × V) :=
  entries.filter fun entry => entry.1 = key

/-- The values under a key, in the order of the list. -/
def valuesAt (key : K) (entries : List (K × V)) : List V :=
  (withKey key entries).map Prod.snd

@[simp] theorem withKey_nil (key : K) : withKey key ([] : List (K × V)) = [] := rfl

@[simp] theorem withKey_append (key : K) (left right : List (K × V)) :
    withKey key (left ++ right) = withKey key left ++ withKey key right :=
  List.filter_append ..

theorem withKey_cons_self (entry : K × V) (entries : List (K × V)) :
    withKey entry.1 (entry :: entries) = entry :: withKey entry.1 entries := by
  simp [withKey]

theorem withKey_cons_of_ne {key : K} {entry : K × V} (h : entry.1 ≠ key)
    (entries : List (K × V)) : withKey key (entry :: entries) = withKey key entries := by
  simp [withKey, h]

theorem withKey_eq_nil {key : K} {entries : List (K × V)} (h : ∀ entry ∈ entries, entry.1 ≠ key) :
    withKey key entries = [] := by
  simpa [withKey, List.filter_eq_nil_iff] using fun a b hmem => h (a, b) hmem

@[simp] theorem mem_withKey {key : K} {entry : K × V} {entries : List (K × V)} :
    entry ∈ withKey key entries ↔ entry ∈ entries ∧ entry.1 = key := by
  simp [withKey]

@[simp] theorem mem_valuesAt {key : K} {value : V} {entries : List (K × V)} :
    value ∈ valuesAt key entries ↔ (key, value) ∈ entries := by
  simp only [valuesAt, List.mem_map, mem_withKey]
  constructor
  · rintro ⟨⟨_, _⟩, ⟨hmem, rfl⟩, rfl⟩
    exact hmem
  · intro hmem
    exact ⟨(key, value), ⟨hmem, rfl⟩, rfl⟩

@[simp] theorem valuesAt_nil (key : K) : valuesAt key ([] : List (K × V)) = [] := rfl

@[simp] theorem valuesAt_append (key : K) (left right : List (K × V)) :
    valuesAt key (left ++ right) = valuesAt key left ++ valuesAt key right := by
  simp [valuesAt]

theorem valuesAt_cons_self (entry : K × V) (entries : List (K × V)) :
    valuesAt entry.1 (entry :: entries) = entry.2 :: valuesAt entry.1 entries := by
  rw [valuesAt, withKey_cons_self, List.map_cons, valuesAt]

theorem valuesAt_cons_of_ne {key : K} {entry : K × V} (h : entry.1 ≠ key)
    (entries : List (K × V)) : valuesAt key (entry :: entries) = valuesAt key entries := by
  rw [valuesAt, withKey_cons_of_ne h, valuesAt]

theorem valuesAt_eq_nil_iff {key : K} {entries : List (K × V)} :
    valuesAt key entries = [] ↔ key ∉ entries.map Prod.fst := by
  rw [List.eq_nil_iff_forall_not_mem]
  simp

/-- The first value of a key stands behind entries of other keys only. -/
theorem exists_first_entry {key : K} {first : V} {rest : List V} {entries : List (K × V)}
    (h : valuesAt key entries = first :: rest) :
    ∃ before after, entries = before ++ (key, first) :: after ∧ key ∉ before.map Prod.fst ∧
      valuesAt key after = rest := by
  induction entries with
  | nil => cases h
  | cons entry entries ih =>
    by_cases heq : entry.1 = key
    · subst heq
      rw [valuesAt_cons_self, List.cons.injEq] at h
      rcases h with ⟨rfl, hrest⟩
      exact ⟨[], entries, rfl, List.not_mem_nil, hrest⟩
    · rw [valuesAt_cons_of_ne heq] at h
      rcases ih h with ⟨before, after, rfl, hbefore, hafter⟩
      refine ⟨entry :: before, after, rfl, ?_, hafter⟩
      rw [List.map_cons, List.mem_cons, not_or]
      exact ⟨Ne.symm heq, hbefore⟩

theorem valuesAt_first_entry {entry : K × V} {before after : List (K × V)}
    (h : entry.1 ∉ before.map Prod.fst) :
    valuesAt entry.1 (before ++ entry :: after) = entry.2 :: valuesAt entry.1 after := by
  rw [valuesAt_append, valuesAt_eq_nil_iff.2 h, List.nil_append, valuesAt_cons_self]

/-- A list repeats no key when no key has two values. -/
theorem keys_nodup_iff {entries : List (K × V)} :
    (entries.map Prod.fst).Nodup ↔
      ∀ key first rest, valuesAt key entries = first :: rest → rest = [] := by
  induction entries with
  | nil => simp
  | cons entry entries ih =>
    rw [List.map_cons, List.nodup_cons, ih]
    constructor
    · rintro ⟨hentry, hall⟩ key first rest hvalues
      by_cases heq : entry.1 = key
      · subst heq
        rw [valuesAt_cons_self, valuesAt_eq_nil_iff.2 hentry] at hvalues
        cases hvalues
        rfl
      · rw [valuesAt_cons_of_ne heq] at hvalues
        exact hall key first rest hvalues
    · intro hall
      have hentry := hall entry.1 _ _ (valuesAt_cons_self entry entries)
      refine ⟨valuesAt_eq_nil_iff.1 hentry, fun key first rest hvalues => ?_⟩
      by_cases heq : entry.1 = key
      · subst heq
        rw [hentry] at hvalues
        cases hvalues
      · exact hall key first rest (by rw [valuesAt_cons_of_ne heq, hvalues])

/-! ## Stable sorting -/

/-- `result` is `entries` sorted by key, the entries of each key in their order. -/
structure StablySorts (entries result : List (K × V)) : Prop where
  sorted : KeySorted result
  stable : ∀ key, withKey key result = withKey key entries

theorem StablySorts.valuesAt_eq {entries result : List (K × V)} (h : StablySorts entries result)
    (key : K) : valuesAt key result = valuesAt key entries := by
  rw [valuesAt, h.stable, valuesAt]

/-- The entry behind everything that is not greater, before everything that is. -/
def insertStable (entry : K × V) (entries : List (K × V)) : List (K × V) :=
  entries.filter (fun other => other.1 ≤ entry.1) ++
    entry :: entries.filter (fun other => entry.1 < other.1)

theorem KeySorted.insertStable {entries : List (K × V)} (h : KeySorted entries) (entry : K × V) :
    KeySorted (insertStable entry entries) := by
  unfold KeySorted Library.insertStable
  rw [List.pairwise_append, List.pairwise_cons]
  refine ⟨h.sublist List.filter_sublist, ⟨?_, h.sublist List.filter_sublist⟩, ?_⟩
  · intro other hother
    simp only [List.mem_filter, decide_eq_true_eq] at hother
    exact hother.2.le
  · intro left hleft right hright
    simp only [List.mem_filter, decide_eq_true_eq] at hleft
    rcases List.mem_cons.1 hright with rfl | hright
    · exact hleft.2
    · simp only [List.mem_filter, decide_eq_true_eq] at hright
      exact hleft.2.trans hright.2.le

theorem withKey_insertStable (key : K) (entry : K × V) (entries : List (K × V)) :
    withKey key (insertStable entry entries) = withKey key (entries ++ [entry]) := by
  have hfilter : ∀ p : K × V → Bool, withKey key (entries.filter p) =
      (withKey key entries).filter p := by
    intro p
    simp only [withKey, List.filter_filter, Bool.and_comm]
  rw [insertStable, withKey_append, withKey_append, hfilter]
  -- The entries of the key are all on one side of the new entry.
  rcases le_or_gt key entry.1 with hle | hgt
  · have hall : (withKey key entries).filter (fun other => other.1 ≤ entry.1) =
        withKey key entries := by
      rw [List.filter_eq_self]
      intro other hother
      simpa [(mem_withKey.1 hother).2] using hle
    have hnone : withKey key (entries.filter fun other => entry.1 < other.1) = [] := by
      apply withKey_eq_nil
      intro other hother heq
      simp only [List.mem_filter, decide_eq_true_eq] at hother
      exact absurd (heq ▸ hother.2) hle.not_gt
    rw [hall, ← List.singleton_append, withKey_append, hnone, List.append_nil]
  · have hnone : (withKey key entries).filter (fun other => other.1 ≤ entry.1) = [] := by
      rw [List.filter_eq_nil_iff]
      intro other hother
      simpa [(mem_withKey.1 hother).2] using hgt
    have hall : (withKey key entries).filter (fun other => entry.1 < other.1) =
        withKey key entries := by
      rw [List.filter_eq_self]
      intro other hother
      simpa [(mem_withKey.1 hother).2] using hgt
    rw [hnone, withKey_cons_of_ne hgt.ne, withKey_cons_of_ne hgt.ne, hfilter, hall]
    simp

theorem insertStable_perm (entry : K × V) (entries : List (K × V)) :
    (insertStable entry entries).Perm (entry :: entries) := by
  have hgreater : (fun other : K × V => decide (entry.1 < other.1)) =
      fun other => !decide (other.1 ≤ entry.1) := by
    funext other
    simp [← not_le]
  rw [insertStable, hgreater]
  exact List.perm_middle.trans ((List.filter_append_perm _ entries).cons entry)

/-- Behind a list of entries that are not greater the new entry comes last. -/
theorem insertStable_of_forall_le {entry : K × V} {entries : List (K × V)}
    (h : ∀ other ∈ entries, other.1 ≤ entry.1) :
    insertStable entry entries = entries ++ [entry] := by
  have hall : entries.filter (fun other => other.1 ≤ entry.1) = entries :=
    List.filter_eq_self.2 fun other hmem => by simpa using h other hmem
  have hnone : entries.filter (fun other => entry.1 < other.1) = [] :=
    List.filter_eq_nil_iff.2 fun other hmem => by simpa using h other hmem
  rw [insertStable, hall, hnone]

/-- A greater last entry stays last. -/
theorem insertStable_concat_of_lt {entry last : K × V} (h : entry.1 < last.1)
    (entries : List (K × V)) :
    insertStable entry (entries ++ [last]) = insertStable entry entries ++ [last] := by
  simp [insertStable, h, h.not_ge]

theorem StablySorts.nil : StablySorts ([] : List (K × V)) [] :=
  ⟨List.Pairwise.nil, fun _ => rfl⟩

/-- The step of the insertion sort. -/
theorem StablySorts.insert {entries result : List (K × V)} (h : StablySorts entries result)
    (entry : K × V) : StablySorts (entries ++ [entry]) (insertStable entry result) := by
  refine ⟨h.sorted.insertStable entry, fun key => ?_⟩
  calc withKey key (insertStable entry result)
      = withKey key result ++ withKey key [entry] := by
        rw [withKey_insertStable, withKey_append]
    _ = withKey key (entries ++ [entry]) := by
        rw [h.stable, withKey_append]

/-! ## Insertion from the back -/

/-- One round of an insertion sort under a key: the greater elements at the back stand behind the
new one. -/
def insertFromBack {α : Type} (key : α → K) (value : α) (sorted : List α) : List α :=
  sorted.rdropWhile (fun other => key value < key other) ++
    value :: sorted.rtakeWhile (fun other => key value < key other)

theorem insertFromBack_perm {α : Type} (key : α → K) (value : α) (sorted : List α) :
    (insertFromBack key value sorted).Perm (value :: sorted) := by
  refine List.perm_middle.trans (List.Perm.cons value ?_)
  rw [List.rdropWhile_append_rtakeWhile]

theorem insertFromBack_concat {α : Type} (key : α → K) (value last : α) (sorted : List α) :
    insertFromBack key value (sorted ++ [last]) =
      if key value < key last then insertFromBack key value sorted ++ [last]
      else sorted ++ [last, value] := by
  unfold insertFromBack
  rw [List.rdropWhile_concat, List.rtakeWhile_concat]
  by_cases hlt : key value < key last <;> simp [hlt]

theorem insertFromBack_sorted {α : Type} {key : α → K} {sorted : List α}
    (h : sorted.Pairwise fun left right => key left ≤ key right) (value : α) :
    (insertFromBack key value sorted).Pairwise fun left right => key left ≤ key right := by
  -- The search begins at the back, so the last element decides whether it goes on.
  induction sorted using List.reverseRecOn with
  | nil => simp [insertFromBack]
  | append_singleton sorted last ih =>
    rw [insertFromBack_concat]
    rcases List.pairwise_append.1 h with ⟨hsorted, -, hlast⟩
    have hle : ∀ other ∈ sorted, key other ≤ key last := by simpa using hlast
    split
    · rename_i hlt
      rw [List.pairwise_append]
      refine ⟨ih hsorted, List.pairwise_singleton _ _, fun other hmem right hright => ?_⟩
      rw [List.mem_singleton.1 hright]
      rcases List.mem_cons.1 ((insertFromBack_perm key value sorted).mem_iff.1 hmem) with rfl | hmem
      · exact hlt.le
      · exact hle other hmem
    · rename_i hge
      rw [not_lt] at hge
      rw [List.pairwise_append]
      refine ⟨hsorted, by simpa using hge, fun other hmem right hright => ?_⟩
      have hother := hle other hmem
      rcases List.mem_cons.1 hright with rfl | hright
      · exact hother
      · rw [List.mem_singleton.1 hright]
        exact hother.trans hge

/-- Lists with the same elements that are sorted by a key are equal when no key repeats. -/
theorem eq_of_perm_of_keys {α : Type} {key : α → K} {left right : List α} (h : left.Perm right)
    (hleft : left.Pairwise fun first second => key first ≤ key second)
    (hright : right.Pairwise fun first second => key first < key second) : left = right := by
  have hright' : right.Pairwise fun first second => key first ≤ key second :=
    hright.imp le_of_lt
  have hnodup : (right.map key).Nodup := by
    unfold List.Nodup
    rw [List.pairwise_map]
    exact hright.imp ne_of_lt
  refine h.eq_of_pairwise (fun first second hfirst hsecond hle hge => ?_) hleft hright'
  exact List.inj_on_of_nodup_map hnodup (h.mem_iff.1 hfirst) hsecond (le_antisymm hle hge)

/-! ## Combining runs -/

/-- The entries of the key at the front of the list. -/
def leadingRun (key : K) (entries : List (K × V)) : List (K × V) :=
  entries.takeWhile fun entry => entry.1 = key

/-- What follows the entries of the key at the front of the list. -/
def afterRun (key : K) (entries : List (K × V)) : List (K × V) :=
  entries.dropWhile fun entry => entry.1 = key

@[simp] theorem leadingRun_nil (key : K) : leadingRun key ([] : List (K × V)) = [] := rfl

theorem leadingRun_cons_of_eq {key : K} {entry : K × V} (h : entry.1 = key)
    (entries : List (K × V)) : leadingRun key (entry :: entries) = entry :: leadingRun key entries :=
  List.takeWhile_cons_of_pos (by simpa using h)

theorem leadingRun_cons_of_ne {key : K} {entry : K × V} (h : entry.1 ≠ key)
    (entries : List (K × V)) : leadingRun key (entry :: entries) = [] :=
  List.takeWhile_cons_of_neg (by simpa using h)

theorem afterRun_cons_of_eq {key : K} {entry : K × V} (h : entry.1 = key)
    (entries : List (K × V)) : afterRun key (entry :: entries) = afterRun key entries :=
  List.dropWhile_cons_of_pos (by simpa using h)

theorem afterRun_cons_of_ne {key : K} {entry : K × V} (h : entry.1 ≠ key)
    (entries : List (K × V)) : afterRun key (entry :: entries) = entry :: entries :=
  List.dropWhile_cons_of_neg (by simpa using h)

theorem leadingRun_append_afterRun (key : K) (entries : List (K × V)) :
    leadingRun key entries ++ afterRun key entries = entries :=
  List.takeWhile_append_dropWhile

theorem afterRun_sublist (key : K) (entries : List (K × V)) :
    (afterRun key entries).Sublist entries :=
  List.dropWhile_sublist _

/-- Every run of equal keys becomes one entry that combines its values, when `keep` accepts it. -/
def combineRuns (combine : V → List V → V) (keep : V → Bool) : List (K × V) → List (K × V)
  | [] => []
  | entry :: rest =>
    let value := combine entry.2 ((leadingRun entry.1 rest).map Prod.snd)
    let tail := combineRuns combine keep (afterRun entry.1 rest)
    if keep value then (entry.1, value) :: tail else tail
termination_by entries => entries.length
decreasing_by
  exact Nat.lt_succ_of_le (afterRun_sublist _ _).length_le

theorem combineRuns_cons_of_keep {combine : V → List V → V} {keep : V → Bool} {entry : K × V}
    {rest : List (K × V)}
    (h : keep (combine entry.2 ((leadingRun entry.1 rest).map Prod.snd)) = true) :
    combineRuns combine keep (entry :: rest) =
      (entry.1, combine entry.2 ((leadingRun entry.1 rest).map Prod.snd)) ::
        combineRuns combine keep (afterRun entry.1 rest) := by
  rw [combineRuns]
  exact if_pos h

theorem combineRuns_cons_of_drop {combine : V → List V → V} {keep : V → Bool} {entry : K × V}
    {rest : List (K × V)}
    (h : ¬ keep (combine entry.2 ((leadingRun entry.1 rest).map Prod.snd)) = true) :
    combineRuns combine keep (entry :: rest) =
      combineRuns combine keep (afterRun entry.1 rest) := by
  rw [combineRuns]
  exact if_neg h

/-- In a sorted list the run of the first key has all entries of that key, and what follows the run
has those of the greater keys. -/
theorem KeySorted.run_eq {entry : K × V} {rest : List (K × V)} (h : KeySorted (entry :: rest)) :
    leadingRun entry.1 rest = withKey entry.1 rest ∧
      afterRun entry.1 rest = rest.filter fun other => entry.1 < other.1 := by
  induction rest with
  | nil => exact ⟨rfl, rfl⟩
  | cons next rest ih =>
    rcases List.pairwise_cons.1 h with ⟨hhead, htail⟩
    -- The run ends at the first other key, and behind it every key is greater.
    by_cases heq : next.1 = entry.1
    · have hrest : KeySorted (entry :: rest) :=
        List.pairwise_cons.2 ⟨fun other hmem => hhead other (List.mem_cons_of_mem _ hmem),
          htail.of_cons⟩
      rcases ih hrest with ⟨htake, hdrop⟩
      refine ⟨?_, ?_⟩
      · rw [leadingRun_cons_of_eq heq, htake, withKey, withKey,
          List.filter_cons_of_pos (by simpa using heq)]
      · rw [afterRun_cons_of_eq heq, hdrop,
          List.filter_cons_of_neg (by simp [heq])]
    · have hgreater : ∀ other ∈ next :: rest, entry.1 < other.1 := by
        intro other hmem
        have hnext : entry.1 < next.1 :=
          lt_of_le_of_ne (hhead next List.mem_cons_self) (Ne.symm heq)
        rcases List.mem_cons.1 hmem with rfl | hmem
        · exact hnext
        · exact hnext.trans_le ((List.pairwise_cons.1 htail).1 other hmem)
      refine ⟨?_, ?_⟩
      · rw [leadingRun_cons_of_ne heq]
        exact (withKey_eq_nil fun other hmem => (hgreater other hmem).ne').symm
      · rw [afterRun_cons_of_ne heq]
        exact (List.filter_eq_self.2 fun other hmem => by simpa using hgreater other hmem).symm

theorem KeySorted.valuesAt_self {entry : K × V} {rest : List (K × V)}
    (h : KeySorted (entry :: rest)) :
    valuesAt entry.1 (entry :: rest) =
      entry.2 :: (leadingRun entry.1 rest).map Prod.snd := by
  rw [valuesAt_cons_self, h.run_eq.1, valuesAt]

/-- The values of the other keys stand behind the run of the first key. -/
theorem KeySorted.valuesAt_afterRun {entry : K × V} {rest : List (K × V)}
    (h : KeySorted (entry :: rest)) (key : K) :
    valuesAt key (afterRun entry.1 rest) =
      if key = entry.1 then [] else valuesAt key (entry :: rest) := by
  rw [h.run_eq.2]
  by_cases heq : key = entry.1
  · rw [if_pos heq, valuesAt_eq_nil_iff]
    rintro hmem
    rcases List.mem_map.1 hmem with ⟨other, hother, rfl⟩
    simp only [List.mem_filter, decide_eq_true_eq] at hother
    exact absurd heq hother.2.ne'
  · rw [if_neg heq, valuesAt_cons_of_ne (Ne.symm heq), valuesAt, valuesAt, withKey, withKey,
      List.filter_filter]
    congr 1
    apply List.filter_congr
    intro other hother
    have hle := (List.pairwise_cons.1 h).1 other hother
    by_cases hkey : other.1 = key
    · have hlt : entry.1 < other.1 := lt_of_le_of_ne hle fun h => heq (hkey ▸ h.symm)
      simp [hkey, hkey ▸ hlt]
    · simp [hkey]

/-- Of a sorted list, every key with values that combine to a value worth keeping gives one
entry. -/
theorem mem_combineRuns_iff {combine : V → List V → V} {keep : V → Bool} {entries : List (K × V)}
    (h : KeySorted entries) (key : K) (value : V) :
    (key, value) ∈ combineRuns combine keep entries ↔
      (∃ first rest, valuesAt key entries = first :: rest ∧ value = combine first rest) ∧
        keep value = true := by
  -- What is left after a run is shorter, though not the tail of the list.
  induction hlength : entries.length using Nat.strong_induction_on generalizing entries with
  | _ length ih =>
    cases entries with
    | nil => simp [combineRuns]
    | cons entry rest =>
      have htail := ih _ (by
        rw [← hlength]
        exact Nat.lt_succ_of_le (afterRun_sublist entry.1 rest).length_le)
        (h.of_cons.sublist (afterRun_sublist _ _)) rfl
      rw [h.valuesAt_afterRun] at htail
      have hself := h.valuesAt_self
      have hcons : (key, value) ∈ combineRuns combine keep (entry :: rest) ↔
          (keep (combine entry.2 ((leadingRun entry.1 rest).map Prod.snd)) =
              true ∧ key = entry.1 ∧
            value = combine entry.2
              ((leadingRun entry.1 rest).map Prod.snd)) ∨
            (key, value) ∈ combineRuns combine keep
              (afterRun entry.1 rest) := by
        rw [combineRuns]
        split <;> rename_i hkeep
        · simp [hkeep]
        · simp [hkeep]
      rw [hcons, htail]
      by_cases heq : key = entry.1
      · subst heq
        rw [if_pos rfl, hself]
        constructor
        · rintro (⟨hkeep, -, rfl⟩ | ⟨⟨first, rest, hnil, -⟩, -⟩)
          · exact ⟨⟨_, _, rfl, rfl⟩, hkeep⟩
          · cases hnil
        · rintro ⟨⟨first, values, hvalues, rfl⟩, hkeep⟩
          cases hvalues
          exact .inl ⟨hkeep, rfl, rfl⟩
      · rw [if_neg heq]
        simp [heq]

theorem combineRuns_strictlyKeySorted (combine : V → List V → V) (keep : V → Bool)
    {entries : List (K × V)} (h : KeySorted entries) :
    StrictlyKeySorted (combineRuns combine keep entries) := by
  induction hlength : entries.length using Nat.strong_induction_on generalizing entries with
  | _ length ih =>
    cases entries with
    | nil =>
      rw [combineRuns]
      exact List.Pairwise.nil
    | cons entry rest =>
      have hdropSorted : KeySorted (afterRun entry.1 rest) :=
        h.of_cons.sublist (afterRun_sublist _ _)
      have htail := ih _ (by
        rw [← hlength]
        exact Nat.lt_succ_of_le (afterRun_sublist entry.1 rest).length_le) hdropSorted rfl
      rw [combineRuns]
      split
      · refine List.pairwise_cons.2 ⟨?_, htail⟩
        -- Every later key comes from the entries behind the run.
        rintro ⟨key, value⟩ hmem
        rcases ((mem_combineRuns_iff hdropSorted key value).1 hmem).1 with ⟨first, values, hvalues, -⟩
        have hfirst : first ∈ valuesAt key (afterRun entry.1 rest) := by
          simp [hvalues]
        rw [mem_valuesAt, h.run_eq.2] at hfirst
        simpa using (List.mem_filter.1 hfirst).2
      · exact htail

theorem length_combineRuns_le (combine : V → List V → V) (keep : V → Bool)
    (entries : List (K × V)) : (combineRuns combine keep entries).length ≤ entries.length := by
  induction hlength : entries.length using Nat.strong_induction_on generalizing entries with
  | _ length ih =>
    cases entries with
    | nil => simp [combineRuns]
    | cons entry rest =>
      have hafter := (afterRun_sublist entry.1 rest).length_le
      rw [List.length_cons] at hlength
      have htail := ih _ (by omega) (afterRun entry.1 rest) rfl
      by_cases hkeep : keep (combine entry.2 ((leadingRun entry.1 rest).map Prod.snd)) = true
      · rw [combineRuns_cons_of_keep hkeep, List.length_cons]
        omega
      · rw [combineRuns_cons_of_drop hkeep]
        omega

end Library
end AscCpp
