import Mathlib.Algebra.BigOperators.Group.List.Basic
import Mathlib.Data.List.Basic
import Mathlib.Data.List.GetD
import Mathlib.Data.List.Range
import Mathlib.Tactic.Common

/-!
# Segments — a list cut at bounds

Bounds that start at zero and do not decrease cut the positions below the last bound into segments.

- `segments_eq_map_range`: the segments follow each other without a gap.
- `mem_segments`: what stands in a list of segments.
- `flatMap_eq_segments`: concatenated buckets are segments, cut at the running lengths.
-/

namespace AscCpp
namespace Library

variable {α β : Type}

/-- The items of the positions of each segment, segment by segment. -/
def segments (bound : Nat → Nat) (count : Nat) (item : Nat → Nat → α) : List α :=
  (List.range count).flatMap fun segment =>
    (List.range' (bound segment) (bound (segment + 1) - bound segment)).map (item segment)

/-- The bounds begin at zero and do not decrease up to the last one. -/
structure Bounds (bound : Nat → Nat) (count : Nat) : Prop where
  front : bound 0 = 0
  step : ∀ segment < count, bound segment ≤ bound (segment + 1)

theorem Bounds.of_succ {bound : Nat → Nat} {count : Nat} (h : Bounds bound (count + 1)) :
    Bounds bound count :=
  ⟨h.front, fun segment hlt => h.step segment (by omega)⟩

theorem Bounds.mono {bound : Nat → Nat} {count : Nat} (h : Bounds bound count)
    {first second : Nat} (hle : first ≤ second) (hsecond : second ≤ count) :
    bound first ≤ bound second := by
  induction second, hle using Nat.le_induction with
  | base => exact le_rfl
  | succ second hle ih => exact (ih (by omega)).trans (h.step second (by omega))

/-- Every position before the last bound belongs to a segment. -/
theorem Bounds.exists_segment {bound : Nat → Nat} {count position : Nat} (h : Bounds bound count)
    (hposition : position < bound count) :
    ∃ segment < count, bound segment ≤ position ∧ position < bound (segment + 1) := by
  induction count with
  | zero =>
    rw [h.front] at hposition
    exact absurd hposition (Nat.not_lt_zero position)
  | succ count ih =>
    by_cases hearlier : position < bound count
    · rcases ih h.of_succ hearlier with ⟨segment, hsegment, hfirst, hlast⟩
      exact ⟨segment, hsegment.trans (Nat.lt_succ_self count), hfirst, hlast⟩
    · exact ⟨count, Nat.lt_succ_self count, not_lt.1 hearlier, hposition⟩

/-- A position belongs to one segment only. -/
theorem Bounds.segment_unique {bound : Nat → Nat} {count segment other position : Nat}
    (h : Bounds bound count) (hsegment : segment < count) (hother : other < count)
    (hfirst : bound segment ≤ position) (hlast : position < bound (segment + 1))
    (hfirst' : bound other ≤ position) (hlast' : position < bound (other + 1)) :
    segment = other := by
  rcases lt_trichotomy segment other with hlt | heq | hgt
  · have hle : bound (segment + 1) ≤ bound other := h.mono hlt hother.le
    omega
  · exact heq
  · have hle : bound (other + 1) ≤ bound segment := h.mono hgt hsegment.le
    omega

theorem segments_succ (bound : Nat → Nat) (count : Nat) (item : Nat → Nat → α) :
    segments bound (count + 1) item =
      segments bound count item ++
        (List.range' (bound count) (bound (count + 1) - bound count)).map (item count) := by
  simp [segments, List.range_succ]

theorem map_segments (bound : Nat → Nat) (count : Nat) (item : Nat → Nat → α) (f : α → β) :
    (segments bound count item).map f =
      segments bound count fun segment position => f (item segment position) := by
  simp [segments, List.map_flatMap, Function.comp_def]

theorem mem_segments {bound : Nat → Nat} {count : Nat} {item : Nat → Nat → α} {x : α} :
    x ∈ segments bound count item ↔
      ∃ segment < count, ∃ position, bound segment ≤ position ∧
        position < bound (segment + 1) ∧ item segment position = x := by
  simp only [segments, List.mem_flatMap, List.mem_range, List.mem_map, List.mem_range'_1]
  constructor
  · rintro ⟨segment, hsegment, position, hposition, rfl⟩
    exact ⟨segment, hsegment, position, by omega, by omega, rfl⟩
  · rintro ⟨segment, hsegment, position, hfirst, hlast, rfl⟩
    exact ⟨segment, hsegment, position, by omega, rfl⟩

theorem segments_congr {bound : Nat → Nat} {count : Nat} {left right : Nat → Nat → α}
    (h : ∀ segment < count, ∀ position, bound segment ≤ position →
      position < bound (segment + 1) → left segment position = right segment position) :
    segments bound count left = segments bound count right := by
  unfold segments
  apply List.flatMap_congr
  intro segment hsegment
  rw [List.mem_range] at hsegment
  apply List.map_congr_left
  intro position hposition
  rw [List.mem_range'_1] at hposition
  exact h segment hsegment position (by omega) (by omega)

/-- The segments depend on the bounds up to the last one only. -/
theorem segments_congr_bound {left right : Nat → Nat} {count : Nat}
    (h : ∀ segment ≤ count, left segment = right segment) (item : Nat → Nat → α) :
    segments left count item = segments right count item := by
  unfold segments
  apply List.flatMap_congr
  intro segment hsegment
  rw [List.mem_range] at hsegment
  rw [h segment hsegment.le, h (segment + 1) hsegment]

/-- Without regard to the segments the positions are those below the last bound, in order. -/
theorem segments_eq_map_range {bound : Nat → Nat} {count : Nat} (h : Bounds bound count)
    (item : Nat → α) :
    (segments bound count fun _ => item) = (List.range (bound count)).map item := by
  induction count with
  | zero => simp [segments, h.front]
  | succ count ih =>
    have hstep := h.step count (by omega)
    have hsplit : List.range (bound (count + 1)) =
        List.range (bound count) ++
          List.range' (bound count) (bound (count + 1) - bound count) := by
      have happend := List.range'_append_1 (s := 0) (m := bound count)
        (n := bound (count + 1) - bound count)
      rw [Nat.zero_add, Nat.add_sub_cancel' hstep] at happend
      rw [List.range_eq_range', List.range_eq_range', happend]
    rw [segments_succ, ih h.of_succ, hsplit, List.map_append]

theorem length_segments {bound : Nat → Nat} {count : Nat} (h : Bounds bound count)
    (item : Nat → Nat → α) : (segments bound count item).length = bound count := by
  have hmap := congrArg List.length (map_segments bound count item fun _ => ())
  rw [segments_eq_map_range h fun _ => ()] at hmap
  simpa using hmap

/-- Related within each segment and from each segment to the later ones. -/
theorem pairwise_segments {bound : Nat → Nat} {count : Nat} {item : Nat → Nat → α}
    {R : α → α → Prop}
    (hwithin : ∀ segment < count, ∀ position later, bound segment ≤ position →
      position < later → later < bound (segment + 1) →
        R (item segment position) (item segment later))
    (hacross : ∀ segment next, segment < next → next < count →
      ∀ position later, R (item segment position) (item next later)) :
    (segments bound count item).Pairwise R := by
  unfold segments
  rw [List.pairwise_flatMap]
  constructor
  · intro segment hsegment
    rw [List.mem_range] at hsegment
    rw [List.pairwise_map]
    refine List.Pairwise.imp_of_mem ?_ List.pairwise_lt_range'
    intro position later hposition hlater hlt
    rw [List.mem_range'_1] at hposition hlater
    exact hwithin segment hsegment position later (by omega) hlt (by omega)
  · refine List.Pairwise.imp_of_mem ?_ List.pairwise_lt_range
    intro segment next _ hnext hlt left hleft right hright
    rcases List.mem_map.1 hleft with ⟨position, -, rfl⟩
    rcases List.mem_map.1 hright with ⟨later, -, rfl⟩
    exact hacross segment next hlt (List.mem_range.1 hnext) position later

/-- Items that name their segment: the length of a segment is how often it is named. -/
theorem countP_segments {bound : Nat → Nat} {item : Nat → Nat → α} {named : Nat → α → Bool}
    (hnamed : ∀ segment other position, named segment (item other position) = (segment == other))
    (count segment : Nat) :
    (segments bound count item).countP (named segment) =
      if segment < count then bound (segment + 1) - bound segment else 0 := by
  induction count with
  | zero => simp [segments]
  | succ count ih =>
    rw [segments_succ, List.countP_append, ih, List.countP_map]
    rcases Nat.lt_trichotomy segment count with hlt | rfl | hgt
    · have hother : segment ≠ count := by omega
      simp [Function.comp_def, hnamed, hother, hlt, Nat.lt_succ_of_lt hlt]
    · simp [Function.comp_def, hnamed]
    · have hother : segment ≠ count := by omega
      simp [Function.comp_def, hnamed, hother, show ¬ segment < count by omega,
        show ¬ segment < count + 1 by omega]

/-- A sum over all segments to which only one of them contributes. -/
theorem sum_segments_single {W : Type} [AddCommMonoid W] {bound : Nat → Nat}
    {item : Nat → Nat → α} {weight : α → W} {segment : Nat}
    (hother : ∀ other position, other ≠ segment → weight (item other position) = 0)
    {count : Nat} :
    ((segments bound count item).map weight).sum =
      if segment < count then
        ((List.range' (bound segment) (bound (segment + 1) - bound segment)).map fun position =>
          weight (item segment position)).sum
      else 0 := by
  induction count with
  | zero => simp [segments]
  | succ count ih =>
    have hlast : count ≠ segment →
        ((List.range' (bound count) (bound (count + 1) - bound count)).map
          (weight ∘ item count)).sum = 0 := by
      intro hne
      apply List.sum_eq_zero
      intro value hvalue
      rcases List.mem_map.1 hvalue with ⟨position, -, rfl⟩
      exact hother count position hne
    rw [segments_succ, List.map_append, List.sum_append, ih, List.map_map]
    -- The last segment contributes only when it is the one.
    rcases Nat.lt_trichotomy segment count with hlt | rfl | hgt
    · rw [if_pos hlt, if_pos (by omega), hlast (by omega), add_zero]
    · rw [if_neg (by omega), if_pos (by omega), zero_add]
      rfl
    · rw [if_neg (by omega), if_neg (by omega), hlast (by omega), add_zero]

/-- Bounds are determined by the lengths of their segments. -/
theorem Bounds.eq_of_lengths {left right : Nat → Nat} {count : Nat} (hleft : Bounds left count)
    (hright : Bounds right count)
    (h : ∀ segment < count,
      left (segment + 1) - left segment = right (segment + 1) - right segment)
    {segment : Nat} (hsegment : segment ≤ count) : left segment = right segment := by
  induction segment with
  | zero => rw [hleft.front, hright.front]
  | succ segment ih =>
    have hsame := ih (by omega)
    have hlength := h segment hsegment
    have hstep := hleft.step segment hsegment
    have hstep' := hright.step segment hsegment
    omega

/-! ## Buckets -/

/-- The number of elements in the first buckets. -/
def bucketBound (bucket : Nat → List α) (count : Nat) : Nat :=
  ((List.range count).flatMap bucket).length

@[simp] theorem bucketBound_zero (bucket : Nat → List α) : bucketBound bucket 0 = 0 := rfl

@[simp] theorem bucketBound_succ (bucket : Nat → List α) (count : Nat) :
    bucketBound bucket (count + 1) = bucketBound bucket count + (bucket count).length := by
  simp [bucketBound, List.range_succ]

theorem bucketBound_bounds (bucket : Nat → List α) (count : Nat) :
    Bounds (bucketBound bucket) count :=
  ⟨rfl, fun segment _ => by simp⟩

/-- The positions of a bucket hold its elements. -/
theorem getD_flatMap_mem {bucket : Nat → List α} {count segment position : Nat}
    (hsegment : segment < count) (hfirst : bucketBound bucket segment ≤ position)
    (hlast : position < bucketBound bucket (segment + 1)) (default : α) :
    ((List.range count).flatMap bucket).getD position default ∈ bucket segment := by
  induction count with
  | zero => omega
  | succ count ih =>
    have hlength : ((List.range count).flatMap bucket).length = bucketBound bucket count := rfl
    rw [bucketBound_succ] at hlast
    rw [List.range_succ, List.flatMap_append, List.flatMap_singleton]
    rcases Nat.lt_or_eq_of_le (Nat.lt_succ_iff.1 hsegment) with hlt | rfl
    · have hbound := (bucketBound_bounds bucket count).mono (Nat.succ_le_of_lt hlt) le_rfl
      rw [bucketBound_succ] at hbound
      rw [List.getD_append _ _ _ _ (by omega)]
      exact ih hlt
    · rw [List.getD_append_right _ _ _ _ (by omega), List.getD_eq_getElem _ _ (by omega)]
      exact List.getElem_mem _

/-- An element of a bucket stands behind the buckets before it. -/
theorem getElem?_flatMap_bucket {bucket : Nat → List α} {count segment place : Nat}
    (hsegment : segment < count) (hplace : place < (bucket segment).length) :
    ((List.range count).flatMap bucket)[bucketBound bucket segment + place]? =
      (bucket segment)[place]? := by
  induction count with
  | zero => omega
  | succ count ih =>
    have hlength : ((List.range count).flatMap bucket).length = bucketBound bucket count := rfl
    rw [List.range_succ, List.flatMap_append, List.flatMap_singleton]
    rcases Nat.lt_or_eq_of_le (Nat.lt_succ_iff.1 hsegment) with hlt | rfl
    · have hbound := (bucketBound_bounds bucket count).mono (Nat.succ_le_of_lt hlt) le_rfl
      rw [bucketBound_succ] at hbound
      rw [List.getElem?_append_left (by omega)]
      exact ih hlt
    · rw [List.getElem?_append_right (by omega), hlength, Nat.add_sub_cancel_left]

/-- Concatenated buckets, cut at the running lengths. -/
theorem flatMap_eq_segments (bucket : Nat → List α) (count : Nat) (default : α) :
    (List.range count).flatMap bucket =
      segments (bucketBound bucket) count fun _ position =>
        ((List.range count).flatMap bucket).getD position default := by
  rw [segments_eq_map_range (bucketBound_bounds bucket count)]
  apply List.ext_getElem
  · simp [bucketBound]
  · intro position hleft hright
    rw [List.getElem_map, List.getElem_range, List.getD_eq_getElem _ _ hleft]

end Library
end AscCpp
