import Mathlib.Data.List.Nodup
import Mathlib.Logic.Function.Basic

/-!
# Sweep — overwriting the values of a family one after the other

A sweep gives each item of a list a new value, computed from the values at hand.

- `sweep_apply_of_notMem`: other items keep their values.
- `sweep_apply`: the new value of an item, when it depends on the old one and on items that come
  before it.
- `sweep_apply_of_ahead`: the same for items that come behind it.
-/

namespace AscCpp
namespace Library

variable {ι V : Type} [DecidableEq ι]

/-- The items take their new values in the order of the list. -/
def sweep (value : ι → (ι → V) → V) (items : List ι) (values : ι → V) : ι → V :=
  items.foldl (fun values item => Function.update values item (value item values)) values

@[simp] theorem sweep_nil (value : ι → (ι → V) → V) (values : ι → V) :
    sweep value [] values = values := rfl

theorem sweep_cons (value : ι → (ι → V) → V) (item : ι) (items : List ι) (values : ι → V) :
    sweep value (item :: items) values =
      sweep value items (Function.update values item (value item values)) := rfl

theorem sweep_apply_of_notMem {value : ι → (ι → V) → V} {items : List ι} {item : ι}
    (h : item ∉ items) (values : ι → V) : sweep value items values item = values item := by
  induction items generalizing values with
  | nil => rfl
  | cons first items ih =>
    rw [List.mem_cons, not_or] at h
    rw [sweep_cons, ih h.2, Function.update_of_ne h.1]

/-- Every item depends on items before it only: on those of `done` and on its predecessors. -/
def Precedes (needs : ι → ι → Prop) : List ι → List ι → Prop
  | _, [] => True
  | done, item :: items =>
    (∀ other, needs item other → other ∈ done) ∧ Precedes needs (item :: done) items

omit [DecidableEq ι] in
/-- A list precedes when it holds what its items need, and no item needs itself or a later one. -/
theorem precedes_of_pairwise {needs : ι → ι → Prop} {done items : List ι}
    (hself : ∀ item, ¬ needs item item)
    (hneeds : ∀ item ∈ items, ∀ other, needs item other → other ∈ done ∨ other ∈ items)
    (hpairwise : items.Pairwise fun item later => ¬ needs item later) :
    Precedes needs done items := by
  induction items generalizing done with
  | nil => trivial
  | cons first items ih =>
    rw [List.pairwise_cons] at hpairwise
    refine ⟨fun other hother => ?_, ih (fun item hitem other hother => ?_) hpairwise.2⟩
    · rcases hneeds first List.mem_cons_self other hother with hdone | hlater
      · exact hdone
      · rcases List.mem_cons.1 hlater with rfl | hlater
        · exact absurd hother (hself other)
        · exact absurd hother (hpairwise.1 other hlater)
    · rcases hneeds item (List.mem_cons_of_mem first hitem) other hother with hdone | hlater
      · exact .inl (List.mem_cons_of_mem first hdone)
      · rcases List.mem_cons.1 hlater with rfl | hlater
        · exact .inl List.mem_cons_self
        · exact .inr hlater

/-- The final value of an item is computed from its old value and the final values of the items that
it needs.  The induction moves the first item among those that are done, which keep their values. -/
theorem sweep_apply {value : ι → (ι → V) → V} {needs : ι → ι → Prop} {done items : List ι}
    (hnodup : items.Nodup) (hdone : ∀ item ∈ done, item ∉ items)
    (hprecedes : Precedes needs done items)
    (hvalue : ∀ item values values', values item = values' item →
      (∀ other, needs item other → values other = values' other) →
        value item values = value item values')
    (values : ι → V) :
    ∀ item ∈ items, sweep value items values item =
      value item (Function.update (sweep value items values) item (values item)) := by
  induction items generalizing done values with
  | nil => simp
  | cons first items ih =>
    rcases hprecedes with ⟨hneeds, hrest⟩
    rw [List.nodup_cons] at hnodup
    rw [sweep_cons, List.forall_mem_cons]
    constructor
    -- What the first item needs is done, and no later item changes it.
    · rw [sweep_apply_of_notMem hnodup.1, Function.update_self]
      apply hvalue
      · rw [Function.update_self]
      · intro other hother
        have hmem := hdone other (hneeds other hother)
        rw [List.mem_cons, not_or] at hmem
        rw [Function.update_of_ne hmem.1, sweep_apply_of_notMem hmem.2,
          Function.update_of_ne hmem.1]
    · intro item hitem
      have hne : item ≠ first := fun heq => hnodup.1 (heq ▸ hitem)
      have hdone' : ∀ other ∈ first :: done, other ∉ items := by
        rw [List.forall_mem_cons]
        refine ⟨hnodup.1, fun other hother hmem => ?_⟩
        exact hdone other hother (List.mem_cons_of_mem _ hmem)
      have hlater := ih hnodup.2 hdone' hrest (Function.update values first (value first values))
        item hitem
      rwa [Function.update_of_ne hne] at hlater

/-- An item that needs later items only is computed from their old values. -/
theorem sweep_apply_of_ahead {value : ι → (ι → V) → V} {needs : ι → ι → Prop} {items : List ι}
    (hnodup : items.Nodup) (hahead : items.Pairwise fun item later => ¬ needs later item)
    (hvalue : ∀ item values values', values item = values' item →
      (∀ other, needs item other → values other = values' other) →
        value item values = value item values')
    (values : ι → V) {item : ι} (hitem : item ∈ items) :
    sweep value items values item = value item values := by
  induction items generalizing values with
  | nil => cases hitem
  | cons first items ih =>
    rw [List.nodup_cons] at hnodup
    rw [List.pairwise_cons] at hahead
    rw [sweep_cons]
    rcases List.mem_cons.1 hitem with rfl | hlater
    · rw [sweep_apply_of_notMem hnodup.1, Function.update_self]
    · have hne : item ≠ first := fun heq => hnodup.1 (heq ▸ hlater)
      rw [ih hnodup.2 hahead.2 _ hlater]
      apply hvalue
      · exact Function.update_of_ne hne _ _
      · intro other hother
        apply Function.update_of_ne
        intro heq
        exact hahead.1 item hlater (heq ▸ hother)

/-- Items that need no other are computed from their old values. -/
theorem sweep_apply_of_local {value : ι → (ι → V) → V} {items : List ι} (hnodup : items.Nodup)
    (hvalue : ∀ item values values', values item = values' item →
      value item values = value item values')
    (values : ι → V) {item : ι} (hitem : item ∈ items) :
    sweep value items values item = value item values := by
  have hprecedes : ∀ done (items : List ι), Precedes (fun _ _ => False) done items := by
    intro done items
    induction items generalizing done with
    | nil => trivial
    | cons first items ih => exact ⟨fun _ => False.elim, ih _⟩
  rw [sweep_apply hnodup (List.forall_mem_nil _) (hprecedes [] items)
    (fun item values values' hself _ => hvalue item values values' hself) values item hitem]
  exact hvalue item _ _ (Function.update_self _ _ _)

end Library
end AscCpp
