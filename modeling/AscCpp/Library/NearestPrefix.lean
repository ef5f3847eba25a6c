import Mathlib.Data.List.Basic

/-!
# NearestPrefix — inheriting a label from the nearest labelled ancestor

Paths are lists, ancestors are prefixes, and some paths carry a label.  `nearest label fallback path`
walks down from the root and keeps the last label it met; `IsNearest` says the same without the
walk: the label of the longest labelled prefix, the fallback when no prefix is labelled.
-/

namespace AscCpp
namespace Library

universe u v

variable {α : Type u} {β : Type v}

/-- The label met last on the way down `path`. -/
def nearest (label : List α → Option β) (fallback : β) : List α → β
  | [] => (label []).getD fallback
  | a :: rest => nearest (fun below => label (a :: below)) ((label []).getD fallback) rest

/-- `value` labels the longest labelled prefix of `path`, or is the fallback. -/
inductive IsNearest (label : List α → Option β) (fallback : β) (path : List α) : β → Prop where
  | labelled {front : List α} {value : β} (hfront : front <+: path)
      (hlabel : label front = some value)
      (hlongest : ∀ other, other <+: path → (label other).isSome → other.length ≤ front.length) :
      IsNearest label fallback path value
  | unlabelled (hnone : ∀ other, other <+: path → label other = none) :
      IsNearest label fallback path fallback

namespace IsNearest

variable {label : List α → Option β} {fallback value value' : β} {path : List α}

theorem unique (h : IsNearest label fallback path value)
    (h' : IsNearest label fallback path value') : value = value' := by
  cases h with
  | labelled hfront hlabel hlongest =>
      cases h' with
      | labelled hfront' hlabel' hlongest' =>
          have hlength := Nat.le_antisymm (hlongest' _ hfront (by simp [hlabel]))
            (hlongest _ hfront' (by simp [hlabel']))
          have hsame := List.prefix_of_prefix_length_le hfront hfront' (Nat.le_of_eq hlength)
          rw [hsame.eq_of_length hlength, hlabel'] at hlabel
          cases hlabel
          rfl
      | unlabelled hnone =>
          simp [hnone _ hfront] at hlabel
  | unlabelled hnone =>
      cases h' with
      | labelled hfront' hlabel' => simp [hnone _ hfront'] at hlabel'
      | unlabelled => rfl

/-- Below a first step the root's own label becomes the fallback. -/
theorem cons {a : α} {rest : List α}
    (h : IsNearest (fun below => label (a :: below)) ((label []).getD fallback) rest value) :
    IsNearest label fallback (a :: rest) value := by
  cases h with
  | @labelled front _ hfront hlabel hlongest =>
      refine labelled (List.cons_prefix_cons.2 ⟨rfl, hfront⟩) hlabel ?_
      intro other hother hsome
      rcases List.prefix_cons_iff.1 hother with rfl | ⟨below, rfl, hbelow⟩
      · simp
      · simpa using hlongest below hbelow hsome
  -- No label below, so that of the root is the nearest, or there is none at all.
  | unlabelled hnone =>
      have hbelow : ∀ other, other <+: a :: rest → other ≠ [] → label other = none := by
        intro other hother hne
        rcases List.prefix_cons_iff.1 hother with rfl | ⟨below, rfl, hbelow⟩
        · exact absurd rfl hne
        · exact hnone below hbelow
      cases hroot : label [] with
      | some rootValue =>
          refine labelled List.nil_prefix hroot ?_
          intro other hother hsome
          by_contra hlong
          have hne : other ≠ [] := by
            rintro rfl
            exact hlong (Nat.zero_le _)
          simp [hbelow other hother hne] at hsome
      | none =>
          refine unlabelled fun other hother => ?_
          by_cases hne : other = []
          · rw [hne, hroot]
          · exact hbelow other hother hne

end IsNearest

theorem nearest_isNearest (label : List α → Option β) (fallback : β) (path : List α) :
    IsNearest label fallback path (nearest label fallback path) := by
  induction path generalizing label fallback with
  | nil =>
      rw [nearest]
      cases hroot : label [] with
      | some rootValue =>
          refine .labelled (List.prefix_refl []) hroot ?_
          intro other hother _
          simp [List.prefix_nil.1 hother]
      | none =>
          refine .unlabelled fun other hother => ?_
          rw [List.prefix_nil.1 hother, hroot]
  | cons a rest ih =>
      exact (ih _ _).cons

theorem isNearest_iff {label : List α → Option β} {fallback value : β} {path : List α} :
    IsNearest label fallback path value ↔ value = nearest label fallback path := by
  constructor
  · intro h
    exact h.unique (nearest_isNearest label fallback path)
  · rintro rfl
    exact nearest_isNearest label fallback path

/-- A path that is labelled itself inherits nothing. -/
theorem nearest_of_label {label : List α → Option β} {fallback value : β} {path : List α}
    (h : label path = some value) : nearest label fallback path = value := by
  have hnearest : IsNearest label fallback path value :=
    .labelled (List.prefix_refl path) h fun other hother _ => hother.length_le
  exact (isNearest_iff.1 hnearest).symm

theorem nearest_map {γ : Type*} (f : β → γ) (label : List α → Option β) (fallback : β)
    (path : List α) :
    nearest (fun front => (label front).map f) (f fallback) path =
      f (nearest label fallback path) := by
  induction path generalizing label fallback with
  | nil => cases hroot : label [] <;> simp [nearest, hroot]
  | cons a rest ih =>
      have hroot : ((label []).map f).getD (f fallback) = f ((label []).getD fallback) := by
        cases label [] <;> rfl
      simpa [nearest, hroot] using ih (fun below => label (a :: below)) ((label []).getD fallback)

end Library
end AscCpp
