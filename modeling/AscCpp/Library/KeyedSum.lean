import Mathlib.Algebra.BigOperators.Group.Finset.Basic
import Mathlib.Algebra.Group.Hom.Defs

/-!
# KeyedSum — dense sums of keyed entries

- `keyedSum`: the sum of the values under a key.
- `sum_entries`: a sum over entries is a sum over keys.
- `foldl_match`: with distinct keys, a search for a key finds that sum.
-/

namespace AscCpp
namespace Library

variable {κ V W : Type} [DecidableEq κ] [AddCommMonoid V] [AddCommMonoid W]

/-- The sum of the values under a key. -/
def keyedSum (entries : List (κ × V)) (key : κ) : V :=
  ((entries.filter fun entry => entry.1 = key).map Prod.snd).sum

@[simp] theorem keyedSum_nil (key : κ) : keyedSum ([] : List (κ × V)) key = 0 := rfl

theorem keyedSum_cons (entry : κ × V) (entries : List (κ × V)) (key : κ) :
    keyedSum (entry :: entries) key =
      (if entry.1 = key then entry.2 else 0) + keyedSum entries key := by
  by_cases h : entry.1 = key
  · simp [keyedSum, h]
  · simp [keyedSum, h]

theorem keyedSum_eq_zero {entries : List (κ × V)} {key : κ}
    (h : key ∉ entries.map Prod.fst) : keyedSum entries key = 0 := by
  have hfilter : (entries.filter fun entry => entry.1 = key) = [] := by
    rw [List.filter_eq_nil_iff]
    intro entry hentry heq
    exact h (List.mem_map.2 ⟨entry, hentry, of_decide_eq_true heq⟩)
  simp [keyedSum, hfilter]

/-- A search that keeps the last match, over entries with distinct keys. -/
theorem foldl_match {entries : List (κ × V)} (hnodup : (entries.map Prod.fst).Nodup)
    {report : V → W} (hzero : report 0 = 0) {key : κ} :
    entries.foldl (fun result entry => if entry.1 = key then report entry.2 else result) 0 =
      report (keyedSum entries key) := by
  have hunmatched : ∀ (entries : List (κ × V)) (start : W), key ∉ entries.map Prod.fst →
      entries.foldl (fun result entry => if entry.1 = key then report entry.2 else result) start =
        start := by
    intro entries start h
    induction entries with
    | nil => rfl
    | cons entry entries ih =>
      rw [List.map_cons, List.mem_cons, not_or] at h
      rw [List.foldl_cons, if_neg (Ne.symm h.1), ih h.2]
  induction entries with
  | nil => simp [hzero]
  | cons entry entries ih =>
    rw [List.map_cons, List.nodup_cons] at hnodup
    rw [List.foldl_cons, keyedSum_cons]
    by_cases heq : entry.1 = key
    · have hlater : key ∉ entries.map Prod.fst := heq ▸ hnodup.1
      rw [if_pos heq, if_pos heq, hunmatched entries _ hlater, keyedSum_eq_zero hlater, add_zero]
    · rw [if_neg heq, if_neg heq, zero_add, ih hnodup.2]

/-- A sum over entries is a sum over keys: the entries of a key are added first. -/
theorem sum_entries {entries : List (κ × V)} {keys : Finset κ}
    (hkeys : ∀ entry ∈ entries, entry.1 ∈ keys) (weight : κ → V →+ W) :
    (entries.map fun entry => weight entry.1 entry.2).sum =
      ∑ key ∈ keys, weight key (keyedSum entries key) := by
  induction entries with
  | nil => simp
  | cons entry entries ih =>
    rw [List.forall_mem_cons] at hkeys
    have hfirst : ∑ key ∈ keys, weight key (if entry.1 = key then entry.2 else 0) =
        weight entry.1 entry.2 := by
      rw [Finset.sum_eq_single_of_mem entry.1 hkeys.1, if_pos rfl]
      intro key _ hne
      rw [if_neg (Ne.symm hne), map_zero]
    simp only [keyedSum_cons, map_add, Finset.sum_add_distrib, hfirst]
    rw [List.map_cons, List.sum_cons, ih hkeys.2]

omit [DecidableEq κ] [AddCommMonoid V] in
/-- A sum that is accumulated from the left. -/
theorem foldl_add_eq_sum (term : κ → W) (items : List κ) (start : W) :
    items.foldl (fun sum item => sum + term item) start = start + (items.map term).sum := by
  induction items generalizing start with
  | nil => simp
  | cons item items ih => rw [List.foldl_cons, ih, List.map_cons, List.sum_cons, add_assoc]

end Library
end AscCpp
