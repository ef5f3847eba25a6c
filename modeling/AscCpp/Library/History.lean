import Mathlib.Data.List.Induction

/-!
# History — lists of what has happened

An entry of a history is judged by the entries before it.

- `Allowed`: every entry is allowed behind those before it.
- `before`: the history up to the last entry of a kind.
- `Lifetime.after`: what has become of a thing that entries bring to life, change and end.
- `Lifetime.untouched_of_own`: entries that touch only what they have brought to life themselves
  leave everything else alone.
-/

namespace AscCpp
namespace Library
namespace History

variable {α σ : Type}

/-- Every further entry is allowed behind the entries before it. -/
def Allowed (allowed : List α → α → Prop) : List α → List α → Prop
  | _, [] => True
  | past, entry :: later => allowed past entry ∧ Allowed allowed (past ++ [entry]) later

section Allowed

variable {allowed allowed' : List α → α → Prop} {past first second : List α} {entry : α}

theorem allowed_nil : Allowed allowed past [] :=
  trivial

theorem allowed_singleton : Allowed allowed past [entry] ↔ allowed past entry :=
  and_iff_left trivial

theorem allowed_append :
    Allowed allowed past (first ++ second) ↔
      Allowed allowed past first ∧ Allowed allowed (past ++ first) second := by
  induction first generalizing past with
  | nil => simp [Allowed]
  | cons entry first ih => simp [Allowed, ih, and_assoc]

theorem Allowed.mono (h : Allowed allowed past first)
    (himp : ∀ past entry, allowed past entry → allowed' past entry) :
    Allowed allowed' past first := by
  induction first generalizing past with
  | nil => trivial
  | cons entry first ih => exact ⟨himp _ _ h.1, ih h.2⟩

/-- What is allowed without a past is allowed with any. -/
theorem Allowed.shift (himp : ∀ later entry, allowed later entry → allowed (past ++ later) entry)
    {later : List α} (h : Allowed allowed later first) : Allowed allowed (past ++ later) first := by
  induction first generalizing later with
  | nil => trivial
  | cons entry first ih =>
    refine ⟨himp _ _ h.1, ?_⟩
    rw [List.append_assoc]
    exact ih h.2

theorem allowed_of_forall (h : ∀ entry ∈ first, ∀ past, allowed past entry) :
    Allowed allowed past first := by
  induction first generalizing past with
  | nil => trivial
  | cons entry first ih =>
    exact ⟨h entry List.mem_cons_self past, ih fun other hother => h other (List.mem_cons_of_mem _ hother)⟩

end Allowed

/-! ## The last entry of a kind -/

/-- The entries before the last one of a kind. -/
def before (kind : α → Bool) (history : List α) : List α :=
  (history.reverse.dropWhile fun entry => !kind entry).tail.reverse

section Before

variable {kind : α → Bool} {history later : List α} {entry : α}

theorem before_concat_self (h : kind entry = true) : before kind (history ++ [entry]) = history := by
  simp [before, h]

theorem before_concat (h : kind entry = false) :
    before kind (history ++ [entry]) = before kind history := by
  simp [before, h]

theorem before_append (h : ∀ entry ∈ later, kind entry = false) :
    before kind (history ++ later) = before kind history := by
  induction later using List.reverseRecOn with
  | nil => rw [List.append_nil]
  | append_singleton later entry ih =>
    rw [← List.append_assoc, before_concat (h entry (by simp)),
      ih fun other hother => h other (List.mem_append_left _ hother)]

end Before

/-! ## Lifetimes -/

/-- How entries bring a thing to life, and what they make of it while it lives. -/
structure Lifetime (α σ : Type) where
  begins : α → Option σ
  next : σ → α → Option σ

namespace Lifetime

variable (life : Lifetime α σ)

def step (state : Option σ) (entry : α) : Option σ :=
  match life.begins entry with
  | some state' => some state'
  | none => state.bind fun state => life.next state entry

/-- The state behind the entries, which is none for what does not live. -/
def after (state : Option σ) (history : List α) : Option σ :=
  history.foldl life.step state

/-- An entry that leaves the thing as it is. -/
def Untouched (entry : α) : Prop :=
  life.begins entry = none ∧ ∀ state, life.next state entry = some state

variable {life} {state : Option σ} {past later : List α} {entry : α}

@[simp] theorem after_nil : life.after state [] = state := rfl

@[simp] theorem after_cons :
    life.after state (entry :: later) = life.after (life.step state entry) later := rfl

theorem after_append :
    life.after state (past ++ later) = life.after (life.after state past) later :=
  List.foldl_append

theorem step_of_untouched (h : life.Untouched entry) : life.step state entry = state := by
  rw [step, h.1]
  cases state with
  | none => rfl
  | some state => exact h.2 state

theorem after_of_untouched (h : ∀ entry ∈ later, life.Untouched entry) :
    life.after state later = state := by
  induction later with
  | nil => rfl
  | cons entry later ih =>
    rw [after_cons, step_of_untouched (h entry List.mem_cons_self)]
    exact ih fun other hother => h other (List.mem_cons_of_mem _ hother)

/-- What lives has been brought to life. -/
theorem exists_begins {value : σ} (h : life.after none later = some value) :
    ∃ entry ∈ later, life.begins entry ≠ none := by
  by_contra hnone
  simp only [not_exists, not_and, not_not] at hnone
  have hdead : life.after none later = none := by
    clear h
    induction later with
    | nil => rfl
    | cons entry later ih =>
      rw [after_cons, step, hnone entry List.mem_cons_self]
      exact ih fun other hother => hnone other (List.mem_cons_of_mem _ hother)
  rw [hdead] at h
  cases h

/-- What lives without a past does so with any. -/
theorem after_of_some {value : σ} (h : life.after none later = some value) (state : Option σ) :
    life.after state later = some value := by
  induction later generalizing state with
  | nil => cases h
  | cons entry later ih =>
    rw [after_cons] at h ⊢
    unfold step at h ⊢
    cases hbegins : life.begins entry with
    | some start =>
      rw [hbegins] at h
      exact h
    | none =>
      rw [hbegins] at h
      exact ih h _

/-- Entries touch only what they have brought to life, and bring to life only what does not live:
what has lived before is left alone. -/
theorem untouched_of_own {value : σ} (halive : life.after none past = some value)
    (hfresh : Allowed (fun past entry => life.begins entry ≠ none → life.after none past = none)
      past later)
    (hown : Allowed (fun past entry => life.after none past = none →
      life.begins entry = none → life.Untouched entry) [] later) :
    ∀ entry ∈ later, life.Untouched entry := by
  -- On the entries that are still to come, of which the thing has not been one so far.
  suffices h : ∀ earlier, life.after none earlier = none → life.after none past = some value →
      Allowed (fun past entry => life.begins entry ≠ none → life.after none past = none) past later →
      Allowed (fun past entry => life.after none past = none →
        life.begins entry = none → life.Untouched entry) earlier later →
      ∀ entry ∈ later, life.Untouched entry from h [] rfl halive hfresh hown
  clear halive hfresh hown
  induction later generalizing past with
  | nil => exact fun _ _ _ _ _ entry hentry => by cases hentry
  | cons first later ih =>
    intro earlier hdead halive hfresh hown
    have hbegins : life.begins first = none := by
      by_contra hne
      rw [hfresh.1 hne] at halive
      cases halive
    have hfirst := hown.1 hdead hbegins
    have hstep := fun state => @step_of_untouched _ _ life state first hfirst
    intro entry hentry
    rcases List.mem_cons.1 hentry with rfl | hmem
    · exact hfirst
    · refine @ih (past ++ [first]) (earlier ++ [first]) ?_ ?_ hfresh.2 hown.2 entry hmem
      · rw [after_append, hdead, after_cons, hstep, after_nil]
      · rw [after_append, halive, after_cons, hstep, after_nil]

end Lifetime

end History
end Library
end AscCpp
