import Mathlib.Algebra.Order.Group.Multiset
import Mathlib.Algebra.BigOperators.Group.List.Basic
import Mathlib.Data.Multiset.AddSub

/-!
# Ledger — tokens that are granted and given back

A ledger lists what was granted and what was given back, in the order in which it happened.

- `Balanced`: a ledger and the tokens that are held behind it.
- `Balanced.granted_eq`: every granted token was given back or is held.
- `Balanced.pairwise`: what holds between a granted token and those held before it.
- `heldBy_set`: what a list of owners holds when one of them changes.
-/

namespace AscCpp
namespace Library

variable {Token Owner : Type}

inductive LedgerEntry (Token : Type) where
  | granted (token : Token)
  | returned (token : Token)
  deriving DecidableEq, Repr

def grants : List (LedgerEntry Token) → Multiset Token
  | [] => 0
  | .granted token :: ledger => token ::ₘ grants ledger
  | .returned _ :: ledger => grants ledger

def returns : List (LedgerEntry Token) → Multiset Token
  | [] => 0
  | .granted _ :: ledger => returns ledger
  | .returned token :: ledger => token ::ₘ returns ledger

theorem grants_append (ledger ledger' : List (LedgerEntry Token)) :
    grants (ledger ++ ledger') = grants ledger + grants ledger' := by
  induction ledger with
  | nil => exact (zero_add _).symm
  | cons entry ledger ih =>
    cases entry with
    | granted token => rw [List.cons_append, grants, grants, ih, Multiset.cons_add]
    | returned token => exact ih

theorem returns_append (ledger ledger' : List (LedgerEntry Token)) :
    returns (ledger ++ ledger') = returns ledger + returns ledger' := by
  induction ledger with
  | nil => exact (zero_add _).symm
  | cons entry ledger ih =>
    cases entry with
    | granted token => exact ih
    | returned token => rw [List.cons_append, returns, returns, ih, Multiset.cons_add]

/-! ## Balance -/

/-- The ledger, and the tokens that are held behind it: only a token that is held is given back. -/
inductive Balanced : List (LedgerEntry Token) → Multiset Token → Prop where
  | nil : Balanced [] 0
  | grant {ledger : List (LedgerEntry Token)} {held : Multiset Token} (token : Token)
      (h : Balanced ledger held) : Balanced (ledger ++ [.granted token]) (token ::ₘ held)
  | giveBack {ledger : List (LedgerEntry Token)} {held : Multiset Token} {token : Token}
      (h : Balanced ledger (token ::ₘ held)) : Balanced (ledger ++ [.returned token]) held

/-- A token that is granted stands in the relation to every token that is held then. -/
def Fresh [DecidableEq Token] (relation : Token → Token → Prop) (ledger : List (LedgerEntry Token)) :
    Prop :=
  ∀ before token behind, ledger = before ++ .granted token :: behind →
    ∀ other ∈ grants before - returns before, relation token other

namespace Balanced

variable {ledger : List (LedgerEntry Token)} {held : Multiset Token}

/-- Every granted token was given back, once, or is held. -/
theorem granted_eq (h : Balanced ledger held) : grants ledger = returns ledger + held := by
  induction h with
  | nil => rfl
  | @grant ledger held token _ ih =>
    calc grants (ledger ++ [.granted token]) = grants ledger + {token} := grants_append _ _
      _ = returns ledger + (held + {token}) := by rw [ih, add_assoc]
      _ = returns (ledger ++ [.granted token]) + token ::ₘ held := by
        rw [returns_append, returns, returns, add_zero, add_comm held, Multiset.singleton_add]
  | @giveBack ledger held token _ ih =>
    calc grants (ledger ++ [.returned token]) = grants ledger := by
          rw [grants_append, grants, grants, add_zero]
      _ = returns ledger + ({token} + held) := by rw [ih, Multiset.singleton_add]
      _ = returns (ledger ++ [.returned token]) + held := by
        rw [returns_append, add_assoc]
        rfl

/-- Nothing is given back that was not granted before. -/
theorem returns_le (h : Balanced ledger held) {before : List (LedgerEntry Token)}
    (hbefore : before <+: ledger) : returns before ≤ grants before := by
  induction h with
  | nil =>
    rw [List.prefix_nil.1 hbefore]
    exact le_rfl
  | grant token h ih =>
    rcases List.prefix_concat_iff.1 hbefore with rfl | hshorter
    · rw [(h.grant token).granted_eq]
      exact Multiset.le_add_right _ _
    · exact ih hshorter
  | giveBack h ih =>
    rcases List.prefix_concat_iff.1 hbefore with rfl | hshorter
    · rw [h.giveBack.granted_eq]
      exact Multiset.le_add_right _ _
    · exact ih hshorter

theorem outstanding_eq [DecidableEq Token] (h : Balanced ledger held) :
    grants ledger - returns ledger = held := by
  rw [h.granted_eq, add_tsub_cancel_left]

/-- Two tokens that are held at once are in the relation. -/
theorem pairwise [DecidableEq Token] {relation : Token → Token → Prop}
    (hsymm : ∀ token other, relation token other → relation other token)
    (h : Balanced ledger held) (hfresh : Fresh relation ledger) {token other : Token}
    (htwo : token ::ₘ {other} ≤ held) : relation token other := by
  induction h generalizing token other with
  | nil => exact absurd (Multiset.mem_of_le htwo (Multiset.mem_cons_self token _)) (by simp)
  | @grant ledger held granted h ih =>
    have hnew : ∀ other ∈ held, relation granted other := by
      intro other hother
      apply hfresh ledger granted [] rfl
      rwa [h.outstanding_eq]
    have hbefore : Fresh relation ledger := by
      intro before token behind heq
      exact hfresh before token (behind ++ [.granted granted]) (by rw [heq]; simp)
    -- The newest token is apart from all before it, by the freshness of its grant.
    by_cases hfirst : token = granted
    · subst hfirst
      exact hnew other (Multiset.singleton_le.1 ((Multiset.cons_le_cons_iff _).1 htwo))
    by_cases hsecond : other = granted
    · subst hsecond
      rw [← Multiset.cons_zero other, Multiset.cons_swap] at htwo
      exact hsymm _ _ (hnew token (Multiset.singleton_le.1 ((Multiset.cons_le_cons_iff _).1 htwo)))
    · apply ih hbefore
      refine (Multiset.le_cons_of_notMem ?_).1 htwo
      simp [Ne.symm hfirst, Ne.symm hsecond]
  | @giveBack ledger held returned h ih =>
    apply ih
    · intro before token behind heq
      exact hfresh before token (behind ++ [.returned returned]) (by rw [heq]; simp)
    · exact htwo.trans (Multiset.le_cons_self held returned)

end Balanced

/-! ## Owners -/

/-- What a list of owners holds. -/
def heldBy (holds : Owner → Multiset Token) (owners : List Owner) : Multiset Token :=
  (owners.map holds).sum

variable {holds : Owner → Multiset Token} {owners : List Owner}

theorem heldBy_append (owner : Owner) :
    heldBy holds (owners ++ [owner]) = heldBy holds owners + holds owner := by
  simp [heldBy]

theorem heldBy_eq_zero (h : ∀ owner ∈ owners, holds owner = 0) : heldBy holds owners = 0 := by
  apply List.sum_eq_zero
  intro tokens htokens
  rcases List.mem_map.1 htokens with ⟨owner, howner, rfl⟩
  exact h owner howner

/-- One owner changes: what it held leaves, and what it holds comes. -/
theorem heldBy_set {index : Nat} {owner : Owner} (h : owners[index]? = some owner) (owner' : Owner) :
    holds owner + heldBy holds (owners.set index owner') = holds owner' + heldBy holds owners := by
  induction owners generalizing index with
  | nil => simp at h
  | cons first owners ih =>
    cases index with
    | zero =>
      obtain rfl : first = owner := by simpa using h
      simp only [List.set_cons_zero, heldBy, List.map_cons, List.sum_cons]
      exact add_left_comm _ _ _
    | succ index =>
      have hrest := ih (by simpa using h)
      simp only [heldBy, List.set_cons_succ, List.map_cons, List.sum_cons] at hrest ⊢
      rw [add_left_comm, hrest, add_left_comm]

theorem le_heldBy {index : Nat} {owner : Owner} (h : owners[index]? = some owner) :
    holds owner ≤ heldBy holds owners := by
  induction owners generalizing index with
  | nil => simp at h
  | cons first owners ih =>
    simp only [heldBy, List.map_cons, List.sum_cons]
    cases index with
    | zero =>
      obtain rfl : first = owner := by simpa using h
      exact Multiset.le_add_right _ _
    | succ index => exact (ih (by simpa using h)).trans (Multiset.le_add_left _ _)

/-- What two owners hold is held at once. -/
theorem two_le_heldBy {index other : Nat} {owner owner' : Owner} (hne : index ≠ other)
    (h : owners[index]? = some owner) (h' : owners[other]? = some owner') :
    holds owner + holds owner' ≤ heldBy holds owners := by
  induction owners generalizing index other with
  | nil => simp at h
  | cons first owners ih =>
    simp only [heldBy, List.map_cons, List.sum_cons]
    cases index with
    | zero =>
      cases other with
      | zero => exact absurd rfl hne
      | succ other =>
        obtain rfl : first = owner := by simpa using h
        exact add_le_add le_rfl (le_heldBy (by simpa using h'))
    | succ index =>
      cases other with
      | zero =>
        obtain rfl : first = owner' := by simpa using h'
        rw [add_comm]
        exact add_le_add le_rfl (le_heldBy (by simpa using h))
      | succ other =>
        have hrest := ih (fun heq => hne (congrArg Nat.succ heq)) (by simpa using h) (by simpa using h')
        exact hrest.trans (Multiset.le_add_left _ _)

end Library
end AscCpp
