import AscCpp.Core.Effect
import AscCpp.Library.Sweep
import Mathlib.Algebra.BigOperators.Fin
import Mathlib.Data.Int.ConditionallyCompleteOrder
import Mathlib.Data.List.Sort

/-!
# Loop — counted loops over indices

`for (index_t index = first; index < last; ++index)`.  An index is an integer of the program; where a
loop runs through the elements of a family, it is also one of the finitely many items.

- `indices_eq_filter`: a part of a loop over all items.
- `foldl_add_indices`, `foldl_sub_indices`: accumulations are sums over all items.
- `Effect.exec_forM_lines`: a loop over the lines of a family, each of which it updates by itself.
- `Effect.updates_of_local`: a loop that gives every element a value from its old one.
-/

namespace AscCpp
namespace Core

/-- The values of the counter. -/
def indices (first last : Int) : List Int :=
  (List.range (last - first).toNat).map fun (step : Nat) => first + step

theorem mem_indices {first last index : Int} :
    index ∈ indices first last ↔ first ≤ index ∧ index < last := by
  simp only [indices, List.mem_map]
  constructor
  · rintro ⟨step, hstep, rfl⟩
    have hless := List.mem_range.1 hstep
    omega
  · intro h
    exact ⟨(index - first).toNat, List.mem_range.2 (by omega), by omega⟩

theorem indices_sorted (first last : Int) : (indices first last).SortedLT := by
  apply List.Pairwise.sortedLT
  unfold indices
  apply List.Pairwise.map _ _ List.pairwise_lt_range
  intro step later hlater
  omega

/-- The indices of a part, among all items. -/
theorem indices_eq_filter {first last : Int} {count : Nat} (hfirst : 0 ≤ first)
    (hlast : last ≤ count) :
    indices first last =
      ((List.finRange count).filter fun index =>
        decide (first ≤ (index.val : Int) ∧ (index.val : Int) < last)).map
          fun index => (index.val : Int) := by
  apply (indices_sorted first last).eq_of_mem_iff
  · apply List.Pairwise.sortedLT
    apply List.Pairwise.map _ _ ((List.sortedLT_finRange count).pairwise.filter _)
    exact fun index later hlater => Int.ofNat_lt.2 hlater
  · intro index
    rw [mem_indices]
    simp only [List.mem_map, List.mem_filter, List.mem_finRange, decide_eq_true_eq, true_and]
    constructor
    · intro h
      exact ⟨⟨index.toNat, by omega⟩, by simp only; omega, by simp only; omega⟩
    · rintro ⟨item, hitem, rfl⟩
      exact hitem

/-- All items. -/
theorem indices_zero (count : Nat) :
    indices 0 count = (List.finRange count).map fun index => (index.val : Int) := by
  rw [indices_eq_filter le_rfl le_rfl, List.filter_eq_self.2]
  intro index _
  simp only [decide_eq_true_eq]
  omega

/-! ## Accumulations -/

section Sums

variable {V : Type} {first last : Int} {count : Nat}

/-- The items of a part contribute to a sum over all items. -/
theorem sum_indices [AddCommMonoid V] (hfirst : 0 ≤ first) (hlast : last ≤ count) (f : Int → V) :
    ((indices first last).map f).sum =
      ∑ index : Fin count,
        if first ≤ (index.val : Int) ∧ (index.val : Int) < last then f index.val else 0 := by
  rw [indices_eq_filter hfirst hlast, List.map_map, ← Finset.sum_filter,
    ← List.sum_toFinset _ ((List.nodup_finRange count).filter _)]
  apply Finset.sum_congr _ fun _ _ => rfl
  ext index
  simp

theorem foldl_add_indices [AddCommMonoid V] (hfirst : 0 ≤ first) (hlast : last ≤ count)
    (f : Int → V) :
    (indices first last).foldl (fun total index => total + f index) 0 =
      ∑ index : Fin count,
        if first ≤ (index.val : Int) ∧ (index.val : Int) < last then f index.val else 0 := by
  rw [← sum_indices hfirst hlast, List.sum_eq_foldl, List.foldl_map]

theorem foldl_add_all [AddCommMonoid V] (f : Int → V) :
    (indices 0 count).foldl (fun total index => total + f index) 0 =
      ∑ index : Fin count, f index.val := by
  rw [foldl_add_indices le_rfl le_rfl]
  apply Finset.sum_congr rfl
  intro index _
  rw [if_pos (by omega)]

theorem foldl_sub_indices [AddCommGroup V] (hfirst : 0 ≤ first) (hlast : last ≤ count)
    (value : V) (f : Int → V) :
    (indices first last).foldl (fun total index => total - f index) value =
      value - ∑ index : Fin count,
        if first ≤ (index.val : Int) ∧ (index.val : Int) < last then f index.val else 0 := by
  have hfold : ∀ (items : List Int) (value : V),
      items.foldl (fun total index => total - f index) value = value - (items.map f).sum := by
    intro items
    induction items with
    | nil => simp
    | cons index items ih =>
      intro value
      rw [List.foldl_cons, ih, List.map_cons, List.sum_cons, sub_sub]
  rw [hfold, sum_indices hfirst hlast]

end Sums

/-! ## Nested and filtered loops -/

section Lists

variable {m : Type → Type} [Monad m] [LawfulMonad m] {α β : Type}

theorem forM_flatMap (items : List α) (inner : α → List β) (body : β → m Unit) :
    forM (items.flatMap inner) body = forM items fun item => forM (inner item) body := by
  induction items with
  | nil => rfl
  | cons item items ih => rw [List.flatMap_cons, List.forM_append, List.forM_cons, ih]

theorem forM_filterMap (items : List α) (select : α → Option β) (body : β → m Unit) :
    forM (items.filterMap select) body =
      forM items fun item => match select item with
        | some selected => body selected
        | none => pure () := by
  induction items with
  | nil => rfl
  | cons item items ih =>
    cases hselect : select item with
    | none => rw [List.filterMap_cons_none hselect, ih, List.forM_cons, hselect, pure_bind]
    | some selected =>
      rw [List.filterMap_cons_some hselect, List.forM_cons, List.forM_cons, hselect, ih]

theorem forM_filter (items : List α) (keep : α → Bool) (body : α → m Unit) :
    forM (items.filter keep) body =
      forM items fun item => if keep item then body item else pure () := by
  rw [← List.filterMap_eq_filter, forM_filterMap]
  congr 1
  funext item
  cases hkeep : keep item <;> simp [Option.guard, hkeep]

end Lists

/-! ## Loops over families -/

namespace Effect

open Library

theorem forM_indices {Memory : Type} (count : Nat) (body : Int → Effect Memory Unit) :
    (forM (indices 0 count) body : Effect Memory Unit) =
      forM (List.finRange count) fun index => body index.val := by
  rw [indices_zero, List.forM_map]

variable {Cell V L K : Type} {type : Representation Cell V} [DecidableEq L]

/-- An operation on a line leaves the other lines alone. -/
theorem Updates.of_line {family : ElementFamily type (L × K)} {line : L}
    {effect : Effect (Nat → Cell) Unit} {step : (K → V) → K → V} {memory : Nat → Cell}
    (h : Updates (family.line line) effect step memory) :
    Updates family effect
      (fun values item =>
        if item.1 = line then step (fun place => values (line, place)) item.2 else values item)
      memory := by
  rcases h with ⟨memory', hrun, hframe, hvalues⟩
  refine ⟨memory', hrun, fun cell houtside => hframe cell fun place => houtside (line, place), ?_⟩
  funext item
  rcases item with ⟨other, place⟩
  by_cases hline : other = line
  · subst hline
    simp only [if_true]
    exact congrFun hvalues place
  · simp only [if_neg hline]
    apply hframe.load_eq
    intro place'
    exact family.apart _ _ fun heq => hline (Prod.mk.inj heq).1

/-- The lines of a list are updated one after the other, and each only once. -/
theorem foldl_lines {lines : List L} (hnodup : lines.Nodup) (step : L → (K → V) → K → V)
    (values : L × K → V) :
    lines.foldl
      (fun values line item =>
        if item.1 = line then step line (fun place => values (line, place)) item.2
        else values item) values =
      fun item =>
        if item.1 ∈ lines then step item.1 (fun place => values (item.1, place)) item.2
        else values item := by
  induction lines generalizing values with
  | nil => simp
  | cons line lines ih =>
    rw [List.nodup_cons] at hnodup
    rw [List.foldl_cons, ih hnodup.2]
    funext item
    by_cases hfirst : item.1 = line
    · subst hfirst
      simp [hnodup.1]
    · simp [hfirst]

/-- A loop over the lines of a family.  A round updates its line, and finds the line as it was. -/
theorem exec_forM_lines {family : ElementFamily type (L × K)} {lines : List L}
    {body : L → Effect (Nat → Cell) Unit} {step : L → (K → V) → K → V} (memory : Nat → Cell)
    (hnodup : lines.Nodup) (hall : ∀ line, line ∈ lines)
    (hround : ∀ line memory', family.Untouched memory memory' →
      Updates (family.line line) (body line) (step line) memory') :
    Updates family (forM lines body)
      (fun values item => step item.1 (fun place => values (item.1, place)) item.2) memory := by
  rcases exec_forM_family memory fun line (_ : line ∈ lines) memory' huntouched =>
    (hround line memory' huntouched).of_line with ⟨memory', hrun, hframe, hvalues⟩
  refine ⟨memory', hrun, hframe, hvalues.trans ?_⟩
  simp only [foldl_lines hnodup, hall, if_true]

/-- A loop whose rounds store into an element each, a value that depends on the old one. -/
theorem updates_of_local {count : Nat} {family : ElementFamily type (Fin count)}
    {body : Nat → Effect (Nat → Cell) Unit} (value : Fin count → V → V) (memory : Nat → Cell)
    (hround : ∀ (position : Fin count) memory', family.Untouched memory memory' →
      exec (body position) memory' = some (.ok (), type.store memory' (family.address position)
        (value position (family.values memory' position)))) :
    Updates family (forM (List.range count) body)
      (fun values position => value position (values position)) memory := by
  have hloop : Updates family (forM (List.finRange count) fun position => body position.val)
      (fun values => (List.finRange count).foldl (fun values position =>
        Function.update values position (value position (values position))) values) memory := by
    apply exec_forM_family memory
    intro position _ memory' huntouched
    exact ⟨_, hround position memory' huntouched, family.untouched_store _ _ _,
      family.values_store _ _ _⟩
  rcases hloop with ⟨memory', hrun, hframe, hvalues⟩
  refine ⟨memory', ?_, hframe, ?_⟩
  · rw [forM_range]
    exact hrun
  · rw [hvalues]
    funext position
    exact sweep_apply_of_local (List.nodup_finRange count)
      (fun item values values' heq => congrArg (value item) heq) _ (List.mem_finRange position)

end Effect

end Core
end AscCpp
