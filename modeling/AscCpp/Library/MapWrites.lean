import AscCpp.Library.OrderedMap
import Mathlib.Data.Set.Image

/-!
# MapWrites — what a traversal leaves in a map

A traversal visits positions and assigns each a value under the position's key.  `Writes` records
the net effect between two maps, whatever the order of the visits: the visited positions hold their
values, every other key is unchanged.  The effects compose (`Writes.union`) as long as distinct
positions have distinct keys.
-/

namespace AscCpp
namespace Library

universe u v w

variable {κ : Type u} {β : Type v} {τ σ : Type w}

section

variable [LinearOrder κ] [BEq κ]

/-- From `m` to `m'` exactly the positions in `visited` are assigned, `t` with `value t` under the
key `encode t`. -/
structure Writes (encode : τ → κ) (value : τ → β) (visited : Set τ) (m m' : OrderedMap κ β) :
    Prop where
  written : ∀ t ∈ visited, m'.find (encode t) = some (value t)
  kept : ∀ key, (∀ t ∈ visited, encode t ≠ key) → m'.find key = m.find key

namespace Writes

variable {encode : τ → κ} {value : τ → β} {visited visited' : Set τ} {m m' m'' : OrderedMap κ β}

theorem empty : Writes encode value ∅ m m where
  written := by simp
  kept := by simp

theorem congr (h : Writes encode value visited m m') {value' : τ → β}
    (hvisited : visited' = visited) (hvalue : ∀ t ∈ visited, value' t = value t) :
    Writes encode value' visited' m m' where
  written := by
    rw [hvisited]
    intro t ht
    rw [hvalue t ht]
    exact h.written t ht
  kept := by
    rw [hvisited]
    exact h.kept

/-- The same effect seen from a larger space of positions. -/
theorem image (g : σ → τ) {visited : Set σ}
    (h : Writes (fun s => encode (g s)) (fun s => value (g s)) visited m m') :
    Writes encode value (Set.image g visited) m m' where
  written := by
    rintro _ ⟨s, hs, rfl⟩
    exact h.written s hs
  kept := by
    intro key hkey
    exact h.kept key fun s hs => hkey (g s) ⟨s, hs, rfl⟩

theorem union (hinjective : Function.Injective encode) (h : Writes encode value visited m m')
    (h' : Writes encode value visited' m' m'') :
    Writes encode value (visited ∪ visited') m m'' where
  written := by
    intro t ht
    by_cases hlast : t ∈ visited'
    · exact h'.written t hlast
    · have hfirst : t ∈ visited := ht.resolve_right hlast
      rw [h'.kept (encode t) fun u hu heq => hlast (hinjective heq ▸ hu)]
      exact h.written t hfirst
  kept := by
    intro key hkey
    rw [h'.kept key fun t ht => hkey t (Or.inr ht), h.kept key fun t ht => hkey t (Or.inl ht)]

/-- Starting from the empty map, the keys are those of the visited positions. -/
theorem contains_iff (h : Writes encode value visited OrderedMap.empty m') {key : κ} :
    m'.contains key ↔ ∃ t ∈ visited, encode t = key := by
  constructor
  · intro hcontains
    by_contra hnone
    have hkept := h.kept key fun t ht heq => hnone ⟨t, ht, heq⟩
    simp [OrderedMap.contains, hkept] at hcontains
  · rintro ⟨t, ht, rfl⟩
    simp [OrderedMap.contains, h.written t ht]

variable [LawfulBEq κ]

theorem single (t : τ) : Writes encode value {t} m (m.insertOrAssign (encode t) (value t)) where
  written := by
    rintro _ rfl
    exact m.find_insertOrAssign_self _ _
  kept := by
    intro key hkey
    exact m.find_insertOrAssign_of_ne (hkey t rfl).symm _

end Writes

end

end Library
end AscCpp
