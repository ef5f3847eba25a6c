import Mathlib.Data.Finset.Card
import Mathlib.Order.Basic

/-!
# Smallest — the smallest candidates by a key

- `Smallest.unique`: so many of the candidates, below all the others, are the same ones.
- `Smallest.insert`: the least of the others is the next one.
- `least_foldl`: a loop that keeps the first least item that is eligible.
-/

namespace AscCpp
namespace Library

variable {ι K : Type} [LinearOrder K] {key : ι → K}

/-- So many of the candidates, each of them below all the others. -/
structure Smallest (key : ι → K) (candidates : Finset ι) (count : Nat) (chosen : Finset ι) :
    Prop where
  subset : chosen ⊆ candidates
  card_eq : chosen.card = count
  below : ∀ item ∈ chosen, ∀ other ∈ candidates, other ∉ chosen → key item < key other

namespace Smallest

variable {candidates chosen chosen' : Finset ι} {count : Nat}

theorem unique (h : Smallest key candidates count chosen)
    (h' : Smallest key candidates count chosen') : chosen = chosen' := by
  by_contra hne
  have hsize : chosen.card = chosen'.card := h.card_eq.trans h'.card_eq.symm
  -- Of two sets of one size, each has an item that the other lacks.
  have hleft : ∃ item ∈ chosen, item ∉ chosen' :=
    Finset.not_subset.1 fun hsubset =>
      hne (Finset.eq_of_subset_of_card_le hsubset hsize.ge)
  have hright : ∃ item ∈ chosen', item ∉ chosen :=
    Finset.not_subset.1 fun hsubset =>
      hne (Finset.eq_of_subset_of_card_le hsubset hsize.le).symm
  rcases hleft with ⟨item, hitem, hmissing⟩
  rcases hright with ⟨other, hother, hmissing'⟩
  have hless := h.below item hitem other (h'.subset hother) hmissing'
  have hless' := h'.below other hother item (h.subset hitem) hmissing
  exact lt_asymm hless hless'

theorem empty (candidates : Finset ι) : Smallest key candidates 0 ∅ :=
  ⟨Finset.empty_subset _, Finset.card_empty, fun _ hitem => absurd hitem (Finset.notMem_empty _)⟩

/-- The least of the other candidates is the next one. -/
theorem insert [DecidableEq ι] (h : Smallest key candidates count chosen) {best : ι}
    (hinjective : ∀ other ∈ candidates, key other = key best → other = best)
    (hbest : best ∈ candidates) (hnew : best ∉ chosen)
    (hleast : ∀ other ∈ candidates, other ∉ chosen → key best ≤ key other) :
    Smallest key candidates (count + 1) (Insert.insert best chosen) := by
  refine ⟨Finset.insert_subset hbest h.subset, ?_, fun item hitem other hother hmissing => ?_⟩
  · rw [Finset.card_insert_of_notMem hnew, h.card_eq]
  · rw [Finset.mem_insert, not_or] at hmissing
    rcases Finset.mem_insert.1 hitem with rfl | hold
    · exact lt_of_le_of_ne (hleast other hother hmissing.2)
        fun heq => hmissing.1 (hinjective other hother heq.symm)
    · exact h.below item hold other hother hmissing.2

end Smallest

/-! ## The least item -/

/-- One round: an eligible item that is below the best one so far takes its place. -/
def keepLeast (key : ι → K) (eligible : ι → Bool) (best : Option ι) (item : ι) : Option ι :=
  if eligible item then
    match best with
    | none => some item
    | some current => if key item < key current then some item else best
  else
    best

/-- The least eligible one of the items, none when there is none. -/
def IsLeast? (key : ι → K) (eligible : ι → Bool) (items : List ι) : Option ι → Prop
  | none => ∀ item ∈ items, eligible item = false
  | some best => best ∈ items ∧ eligible best = true ∧
      ∀ item ∈ items, eligible item = true → key best ≤ key item

theorem least_foldl (key : ι → K) (eligible : ι → Bool) (items : List ι) :
    IsLeast? key eligible items (items.foldl (keepLeast key eligible) none) := by
  -- The fold takes the items from the front, so the last one is compared with all the others.
  induction items using List.reverseRecOn with
  | nil => exact fun _ hitem => absurd hitem List.not_mem_nil
  | append_singleton items item ih =>
    rw [List.foldl_append, List.foldl_cons, List.foldl_nil]
    cases hbest : items.foldl (keepLeast key eligible) none with
    | none =>
      rw [hbest] at ih
      unfold keepLeast
      split
      · rename_i hitem
        refine ⟨by simp, hitem, fun other hother heligible => ?_⟩
        rcases List.mem_append.1 hother with hold | hnew
        · rw [ih other hold] at heligible
          cases heligible
        · rw [List.mem_singleton.1 hnew]
      · rename_i hitem
        intro other hother
        rcases List.mem_append.1 hother with hold | hnew
        · exact ih other hold
        · rw [List.mem_singleton.1 hnew]
          exact Bool.eq_false_iff.2 hitem
    | some best =>
      rw [hbest] at ih
      rcases ih with ⟨hmem, heligible, hleast⟩
      -- What is below the best so far is below everything that was allowed.
      have hkept : ∀ {current : ι}, key current ≤ key best → key current ≤ key item →
          ∀ other ∈ items ++ [item], eligible other = true → key current ≤ key other := by
        intro current hbefore hhere other hother hallowed
        rcases List.mem_append.1 hother with hold | hnew
        · exact hbefore.trans (hleast other hold hallowed)
        · rw [List.mem_singleton.1 hnew]
          exact hhere
      unfold keepLeast
      split
      · rename_i hitem
        dsimp only
        split
        · rename_i hless
          exact ⟨by simp, hitem, hkept hless.le le_rfl⟩
        · rename_i hnotless
          exact ⟨List.mem_append_left _ hmem, heligible, hkept le_rfl (not_lt.1 hnotless)⟩
      · rename_i hitem
        refine ⟨List.mem_append_left _ hmem, heligible, fun other hother hallowed => ?_⟩
        rcases List.mem_append.1 hother with hold | hnew
        · exact hleast other hold hallowed
        · rw [List.mem_singleton.1 hnew] at hallowed
          exact absurd hallowed hitem

end Library
end AscCpp
