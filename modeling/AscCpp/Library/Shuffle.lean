import Mathlib.Data.Fintype.BigOperators
import Mathlib.Data.List.Permutation
import Mathlib.Data.Set.Card

/-!
# Shuffle — permutations by swaps with a shrinking prefix

A shuffle goes through the limits from the length of a list down to two, and swaps the last element
of the prefix of that length with a selected one.  The selected element is then out of reach of the
rest of the shuffle.

- `shuffle_perm`: every list of selections permutes the list.
- `shuffle_bijOn`: every permutation comes from one list of selections.
- `card_samples_eq`: unbiased selections are unbiased between the permutations.
-/

namespace AscCpp
namespace Library

open Finset

variable {α : Type}

/-- Two elements exchanged; without a value a position is out of range. -/
def swapAt (items : List α) (left right : Nat) : Option (List α) := do
  let first ← items[left]?
  let second ← items[right]?
  some ((items.set left second).set right first)

/-- The swaps for the limits from one on downwards, with a selected position for each. -/
def shuffle : Nat → List Nat → List α → Option (List α)
  | _, [], items => some items
  | limit, choice :: choices, items => do
    let swapped ← swapAt items (limit - 1) choice
    shuffle (limit - 1) choices swapped

/-- A position below each limit, down to the limit two. -/
def Choices : Nat → List Nat → Prop
  | limit, [] => limit ≤ 1
  | limit, choice :: choices => 1 < limit ∧ choice < limit ∧ Choices (limit - 1) choices

example : shuffle 3 [0, 0] [5, 6, 7] = some [6, 7, 5] := by
  decide

theorem Choices.length_eq {limit : Nat} {choices : List Nat} (h : Choices limit choices) :
    choices.length = limit - 1 := by
  induction choices generalizing limit with
  | nil =>
    have hlimit : limit ≤ 1 := h
    simp
    omega
  | cons choice choices ih =>
    rcases h with ⟨hlimit, -, hrest⟩
    rw [List.length_cons, ih hrest]
    omega

/-- The selections stay below their limits. -/
theorem Choices.getElem?_lt {limit index choice : Nat} {choices : List Nat}
    (h : Choices limit choices) (hchoice : choices[index]? = some choice) :
    choice < limit - index := by
  induction choices generalizing limit index with
  | nil => simp at hchoice
  | cons first choices ih =>
    rcases h with ⟨hlimit, hfirst, hrest⟩
    cases index with
    | zero =>
      rw [List.getElem?_cons_zero, Option.some.injEq] at hchoice
      omega
    | succ index =>
      have hless := ih hrest hchoice
      omega

/-! ## One swap -/

/-- Exchanging an element of a list with one behind the list. -/
theorem set_append_perm {items : List α} {index : Nat} {item : α} (hitem : items[index]? = some item)
    (other : α) : (items.set index other ++ [item]).Perm (items ++ [other]) := by
  rcases List.getElem?_eq_some_iff.1 hitem with ⟨hless, rfl⟩
  have hset : items.set index other =
      items.take index ++ other :: items.drop (index + 1) := by
    rw [List.set_eq_take_append_cons_drop, if_pos hless]
  have hsplit : items = items.take index ++ items[index] :: items.drop (index + 1) := by
    rw [List.getElem_cons_drop, List.take_append_drop]
  have htail : (other :: (items.drop (index + 1) ++ [items[index]])).Perm
      (items[index] :: (items.drop (index + 1) ++ [other])) :=
    ((List.perm_append_singleton _ _).cons other).trans
      ((List.Perm.swap _ _ _).trans ((List.perm_append_singleton _ _).symm.cons _))
  have hperm := htail.append_left (items.take index)
  rw [← List.cons_append, ← List.append_assoc, ← hset, ← List.cons_append, ← List.append_assoc,
    ← hsplit] at hperm
  exact hperm

/-- A swap brings the selected element to the end of the prefix, and leaves what is behind it. -/
theorem swapAt_last {front : List α} {choice : Nat} (h : choice < front.length) (back : List α) :
    ∃ rest last, front[choice]? = some last ∧ (rest ++ [last]).Perm front ∧
      swapAt (front ++ back) (front.length - 1) choice = some (rest ++ last :: back) := by
  rcases List.eq_nil_or_concat front with rfl | ⟨initial, final, rfl⟩
  · exact absurd h (Nat.not_lt_zero choice)
  rw [List.concat_eq_append] at h ⊢
  have hlength : (initial ++ [final]).length - 1 = initial.length := by simp
  have hfinal : (initial ++ [final] ++ back)[initial.length]? = some final := by simp
  rw [List.length_append, List.length_singleton] at h
  unfold swapAt
  rw [hlength, hfinal]
  rcases (Nat.lt_succ_iff.1 h).lt_or_eq with hless | rfl
  · have hitem := List.getElem?_eq_getElem hless
    refine ⟨initial.set choice final, initial[choice], ?_, set_append_perm hitem final, ?_⟩
    · rw [List.getElem?_append_left hless, hitem]
    · have hselected : (initial ++ [final] ++ back)[choice]? = some initial[choice] := by
        rw [List.append_assoc, List.getElem?_append_left hless, hitem]
      rw [hselected]
      simp [hless]
  · refine ⟨initial, final, by simp, .refl _, ?_⟩
    simp

/-! ## The whole shuffle -/

theorem shuffle_cons {limit choice : Nat} {items swapped : List α}
    (h : swapAt items (limit - 1) choice = some swapped) (choices : List Nat) :
    shuffle limit (choice :: choices) items = shuffle (limit - 1) choices swapped := by
  rw [shuffle, h]
  rfl

theorem length_rest {front rest : List α} {last : α} (h : (rest ++ [last]).Perm front) :
    front.length - 1 = rest.length := by
  rw [← h.length_eq, List.length_append, List.length_singleton, Nat.add_sub_cancel]

/-- A shuffle permutes the prefix and leaves what is behind it. -/
theorem shuffle_perm {choices : List Nat} {front : List α} (h : Choices front.length choices)
    (back : List α) :
    ∃ items, shuffle front.length choices (front ++ back) = some (items ++ back) ∧
      items.Perm front := by
  induction choices generalizing front back with
  | nil => exact ⟨front, rfl, .refl front⟩
  | cons choice choices ih =>
    rcases h with ⟨hlimit, hchoice, hrest⟩
    rcases swapAt_last hchoice back with ⟨rest, last, -, hperm, hswap⟩
    rw [length_rest hperm] at hrest
    rcases ih hrest (last :: back) with ⟨items, hitems, hitemsPerm⟩
    refine ⟨items ++ [last], ?_, (hitemsPerm.append_right [last]).trans hperm⟩
    rw [shuffle_cons hswap, length_rest hperm, hitems, List.append_assoc, List.singleton_append]

/-- Different selections lead to different lists. -/
theorem shuffle_injective {choices choices' : List Nat} {front back : List α}
    (hnodup : front.Nodup) (h : Choices front.length choices) (h' : Choices front.length choices')
    (heq : shuffle front.length choices (front ++ back) =
      shuffle front.length choices' (front ++ back)) : choices = choices' := by
  induction choices generalizing choices' front back with
  | nil =>
    cases choices' with
    | nil => rfl
    | cons choice' choices' => exact absurd h (not_le.2 h'.1)
  | cons choice choices ih =>
    cases choices' with
    | nil => exact absurd h' (not_le.2 h.1)
    | cons choice' choices' =>
      rcases h with ⟨-, hchoice, hrest⟩
      rcases h' with ⟨-, hchoice', hrest'⟩
      rcases swapAt_last hchoice back with ⟨rest, last, hlast, hperm, hswap⟩
      rcases swapAt_last hchoice' back with ⟨rest', last', hlast', hperm', hswap'⟩
      rw [shuffle_cons hswap, shuffle_cons hswap'] at heq
      -- The selected elements end up at the same place, so they were selected at the same one.
      have hselected : choice = choice' := by
        rw [length_rest hperm] at hrest
        rw [length_rest hperm'] at hrest'
        rcases shuffle_perm hrest (last :: back) with ⟨items, hitems, hitemsPerm⟩
        rcases shuffle_perm hrest' (last' :: back) with ⟨items', hitems', hitemsPerm'⟩
        have hresults : items ++ last :: back = items' ++ last' :: back := by
          apply Option.some.inj
          rw [← hitems, ← hitems', ← length_rest hperm, heq, ← length_rest hperm']
        have hlength : items.length = items'.length := by
          rw [hitemsPerm.length_eq, hitemsPerm'.length_eq, ← length_rest hperm,
            ← length_rest hperm']
        have hlastEq := (List.cons.inj (List.append_inj hresults hlength).2).1
        rw [← hlastEq] at hlast'
        exact (List.getElem?_inj hchoice hnodup).1 (hlast.trans hlast'.symm)
      subst hselected
      rw [← Option.some.inj (hswap.symm.trans hswap')] at heq
      rw [length_rest hperm] at hrest hrest' heq
      rw [ih (List.nodup_append.1 (hperm.nodup_iff.2 hnodup)).1 hrest hrest' heq]

/-- Every permutation is the result of some selections. -/
theorem exists_choices {front target : List α} (h : target.Perm front) (back : List α) :
    ∃ choices, Choices front.length choices ∧
      shuffle front.length choices (front ++ back) = some (target ++ back) := by
  -- By the number of elements that are left; each round fixes the last of them.
  induction hlimit : front.length generalizing front target back with
  | zero =>
    refine ⟨[], Nat.zero_le 1, ?_⟩
    have hfront := List.length_eq_zero_iff.1 hlimit
    subst hfront
    rw [h.eq_nil]
    rfl
  | succ limit ih =>
    rcases List.eq_nil_or_concat target with rfl | ⟨initial, final, rfl⟩
    · rw [h.symm.eq_nil] at hlimit
      cases hlimit
    rw [List.concat_eq_append] at h ⊢
    rcases Nat.eq_zero_or_pos limit with rfl | hpositive
    · refine ⟨[], le_rfl, ?_⟩
      rcases List.length_eq_one_iff.1 hlimit with ⟨only, rfl⟩
      rw [List.perm_singleton.1 h]
      rfl
    · -- The last element of the target is the one to select first.
      have hmem : final ∈ front := h.mem_iff.1 (by simp)
      rcases List.getElem?_of_mem hmem with ⟨choice, hchoice⟩
      have hless : choice < front.length := (List.getElem?_eq_some_iff.1 hchoice).1
      rcases swapAt_last hless back with ⟨rest, last, hlast, hperm, hswap⟩
      obtain rfl : final = last := Option.some.inj (hchoice.symm.trans hlast)
      have hrest : initial.Perm rest :=
        (List.perm_append_right_iff [final]).1 (h.trans hperm.symm)
      have hlength : rest.length = limit := by
        rw [← length_rest hperm, hlimit, Nat.add_sub_cancel]
      rcases ih hrest (final :: back) hlength with ⟨choices, hchoices, hshuffle⟩
      refine ⟨choice :: choices, ⟨by omega, by omega, hchoices⟩, ?_⟩
      rw [hlimit] at hswap
      rw [shuffle_cons hswap, Nat.add_sub_cancel, hshuffle, List.append_assoc,
        List.singleton_append]

/-- Every permutation is the result of one list of selections. -/
theorem existsUnique_choices {items target : List α} (hnodup : items.Nodup)
    (h : target.Perm items) :
    ∃! choices, Choices items.length choices ∧ shuffle items.length choices items = some target := by
  rcases exists_choices h [] with ⟨choices, hchoices, hshuffle⟩
  rw [List.append_nil, List.append_nil] at hshuffle
  refine ⟨choices, ⟨hchoices, hshuffle⟩, fun other hother => ?_⟩
  apply @shuffle_injective _ _ _ items [] hnodup hother.1 hchoices
  rw [List.append_nil, hother.2, hshuffle]

/-- The selections and the permutations correspond. -/
theorem shuffle_bijOn {items : List α} (hnodup : items.Nodup) :
    Set.BijOn (fun choices => shuffle items.length choices items)
      { choices | Choices items.length choices } (some '' { target | target.Perm items }) := by
  refine ⟨fun choices hchoices => ?_, fun choices hchoices other hother heq => ?_, ?_⟩
  · rcases shuffle_perm hchoices [] with ⟨target, htarget, hperm⟩
    simp only [List.append_nil] at htarget
    exact ⟨target, hperm, htarget.symm⟩
  · apply @shuffle_injective _ _ _ items [] hnodup hchoices hother
    simpa only [List.append_nil] using heq
  · rintro _ ⟨target, hperm, rfl⟩
    rcases (existsUnique_choices hnodup hperm).exists with ⟨choices, hchoices, hshuffle⟩
    exact ⟨choices, hchoices, hshuffle⟩

theorem ncard_perm {items : List α} (hnodup : items.Nodup) :
    { target : List α | target.Perm items }.ncard = items.length.factorial := by
  classical
  have hset : { target : List α | target.Perm items } = ↑(items.permutations.toFinset) := by
    ext target
    simp
  rw [hset, Set.ncard_coe_finset, List.toFinset_card_of_nodup (List.nodup_permutations items hnodup),
    List.length_permutations]

/-! ## Unbiased selections -/

section Unbiased

variable {length : Nat} {Ω : Fin (length - 1) → Type} [∀ index, Fintype (Ω index)]

open Classical in
/-- The samples whose selections, one for each limit from a length down to two, lead to a list. -/
noncomputable def samples (select : ∀ index, Ω index → Option Nat) (items target : List α) :
    Finset (∀ index, Ω index) :=
  {sample | ∃ choices, Choices length choices ∧
    (∀ index, select index (sample index) = choices[index.val]?) ∧
      shuffle length choices items = some target}

variable (select : ∀ index, Ω index → Option Nat) {items target : List α}

/-- The selections that lead to a permutation are fixed one by one. -/
theorem exists_card_samples (hlength : items.length = length) (hnodup : items.Nodup)
    (h : target.Perm items) :
    ∃ selected : Fin (length - 1) → Nat, (∀ index, selected index < length - index) ∧
      #(samples select items target) =
        ∏ index, #{point | select index point = some (selected index)} := by
  classical
  rcases existsUnique_choices hnodup h with ⟨choices, ⟨hchoices, hshuffle⟩, hunique⟩
  rw [hlength] at hchoices hshuffle
  have hcount : choices.length = length - 1 := hchoices.length_eq
  have hselected : ∀ index : Fin (length - 1),
      choices[index.val]? = some (choices.get (index.cast hcount.symm)) :=
    fun index => List.getElem?_eq_getElem (index.cast hcount.symm).isLt
  refine ⟨fun index => choices.get (index.cast hcount.symm),
    fun index => hchoices.getElem?_lt (hselected index), ?_⟩
  rw [← Fintype.card_piFinset]
  congr 1
  ext sample
  simp only [samples, mem_filter, mem_univ, true_and, Fintype.mem_piFinset]
  constructor
  · rintro ⟨other, hother, hsample, hresult⟩ index
    rw [← hlength] at hother hresult
    rw [hsample index, hunique other ⟨hother, hresult⟩, hselected index]
  · intro hsample
    exact ⟨choices, hchoices, fun index => (hsample index).trans (hselected index).symm, hshuffle⟩

/-- Selections that are unbiased below every limit are unbiased between the permutations. -/
theorem card_samples_eq {target' : List α}
    (hunbiased : ∀ index : Fin (length - 1), ∀ choice < length - index,
      ∀ choice' < length - index,
        #{point | select index point = some choice} =
          #{point | select index point = some choice'})
    (hlength : items.length = length) (hnodup : items.Nodup) (h : target.Perm items)
    (h' : target'.Perm items) :
    #(samples select items target) = #(samples select items target') := by
  rcases exists_card_samples select hlength hnodup h with ⟨selected, hless, hcard⟩
  rcases exists_card_samples select hlength hnodup h' with ⟨selected', hless', hcard'⟩
  rw [hcard, hcard']
  exact prod_congr rfl fun index _ =>
    hunbiased index _ (hless index) _ (hless' index)

end Unbiased

end Library
end AscCpp
