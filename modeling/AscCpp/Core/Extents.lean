import AscCpp.Core.Integer
import Mathlib.Algebra.BigOperators.Ring.List
import Mathlib.Data.Vector.Defs

/-!
# Extents — static and dynamic extents of a rank

`Extents` carries what its private constructor guarantees: no extent is negative and the logical
size is their product, which fits `extent_t`.

- `logicalExtent_ok_iff`: the product loop succeeds exactly when the product fits.
-/

namespace AscCpp
namespace Core

/-- `std::array<extent_t, Rank>`. -/
abbrev Shape (rank : Nat) := List.Vector Int rank

instance neZero_vector : NeZero 1 := ⟨by decide⟩

instance neZero_matrix : NeZero 2 := ⟨by decide⟩

def dynamicExtent : Int := -1

/-- The product loop of `Extents::Create` and `ValidateShape`: an empty shape has no product. -/
def logicalExtent (extents : List Int) : Result Int :=
  if extents.any (· = 0) then
    .ok 0
  else
    extents.foldlM (checkedMultiply int64) 1

/-- An extent of a type, taken from the dynamic ones when it is not static, and the dynamic ones
that are left. -/
def nextExtent (extent : Int) (dynamicExtents : List Int) : Int × List Int :=
  if extent = dynamicExtent then
    (dynamicExtents.headD 0, dynamicExtents.tail)
  else
    (extent, dynamicExtents)

/-- The loop of `Extents::Create` over the dimensions. -/
def resolveExtents : List Int → List Int → Result (List Int)
  | [], _ => .ok []
  | extent :: statics, dynamicExtents =>
    if (nextExtent extent dynamicExtents).1 < 0 then
      .error { code := .shape, message := "An extent cannot be negative" }
    else do
      let values ← resolveExtents statics (nextExtent extent dynamicExtents).2
      .ok ((nextExtent extent dynamicExtents).1 :: values)

theorem resolveExtents_spec {statics dynamicExtents values : List Int}
    (h : resolveExtents statics dynamicExtents = .ok values) :
    values.length = statics.length ∧ ∀ value ∈ values, 0 ≤ value := by
  induction statics generalizing dynamicExtents values with
  | nil =>
    cases h
    simp
  | cons extent statics ih =>
    rw [resolveExtents] at h
    split at h
    · cases h
    · rename_i hnonneg
      cases hrest : resolveExtents statics (nextExtent extent dynamicExtents).2 with
      | error status => simp [hrest, bind, Except.bind] at h
      | ok rest =>
        simp only [hrest, bind, Except.bind, Except.ok.injEq] at h
        rcases ih hrest with ⟨hlength, hall⟩
        subst h
        refine ⟨congrArg (· + 1) hlength, ?_⟩
        intro value hvalue
        rcases List.mem_cons.1 hvalue with rfl | hvalue
        · exact not_lt.1 hnonneg
        · exact hall value hvalue

/-- A product of positive extents is at least each partial product. -/
theorem one_le_prod {extents : List Int} (h : ∀ extent ∈ extents, 1 ≤ extent) :
    1 ≤ extents.prod := by
  induction extents with
  | nil => simp
  | cons extent extents ih =>
    rw [List.prod_cons]
    have hrest := ih fun extent hmem => h extent (List.mem_cons_of_mem _ hmem)
    have hhead := h extent List.mem_cons_self
    nlinarith

/-- The product of extents, over the natural numbers. -/
theorem toNat_prod {extents : List Int} (hnonneg : ∀ extent ∈ extents, 0 ≤ extent) :
    extents.prod = ((extents.map Int.toNat).prod : Nat) := by
  induction extents with
  | nil => rfl
  | cons extent extents ih =>
    rw [List.forall_mem_cons] at hnonneg
    rw [List.prod_cons, List.map_cons, List.prod_cons, Nat.cast_mul, ← ih hnonneg.2,
      Int.toNat_of_nonneg hnonneg.1]

theorem foldlM_checkedMultiply {extents : List Int} (h : ∀ extent ∈ extents, 1 ≤ extent)
    {partialProduct : Int} (hstart : 1 ≤ partialProduct) (result : Int) :
    extents.foldlM (checkedMultiply int64) partialProduct = .ok result ↔
      result = partialProduct * extents.prod ∧
        (extents ≠ [] → partialProduct * extents.prod ≤ int64.maximum) := by
  -- Positive factors do not let the product shrink, so a partial one fits when the whole does.
  induction extents generalizing partialProduct with
  | nil =>
    rw [List.foldlM_nil]
    simp [pure, Except.pure, eq_comm]
  | cons extent extents ih =>
    have hhead := h extent List.mem_cons_self
    have hall : ∀ extent ∈ extents, 1 ≤ extent :=
      fun extent hmem => h extent (List.mem_cons_of_mem _ hmem)
    have hrest := one_le_prod hall
    have hproduct : 1 ≤ partialProduct * extent := by nlinarith
    have hassoc : partialProduct * (extent :: extents).prod =
        partialProduct * extent * extents.prod := by rw [List.prod_cons, mul_assoc]
    rw [List.foldlM_cons, checkedMultiply_of_nonneg (by omega) (by omega), hassoc]
    by_cases hfits : partialProduct * extent ≤ int64.maximum
    · rw [if_pos hfits]
      refine (ih hall hproduct).trans (and_congr_right fun _ => ?_)
      refine ⟨fun hle _ => ?_, fun hle _ => hle (List.cons_ne_nil _ _)⟩
      cases extents with
      | nil => simpa using hfits
      | cons next extents => exact hle (List.cons_ne_nil _ _)
    · rw [if_neg hfits]
      constructor
      · rintro ⟨⟩
      · rintro ⟨-, hle⟩
        have hle := hle (List.cons_ne_nil _ _)
        exact absurd (by nlinarith) hfits

/-- Of extents that are not negative the loop computes the product, if that fits. -/
theorem logicalExtent_ok_iff {extents : List Int} (hnonneg : ∀ extent ∈ extents, 0 ≤ extent)
    (result : Int) :
    logicalExtent extents = .ok result ↔
      result = extents.prod ∧ extents.prod ≤ int64.maximum := by
  unfold logicalExtent
  -- A zero extent is found before the loop, which therefore sees positive ones only.
  split
  · rename_i hempty
    have hzero : extents.prod = 0 := by
      rw [List.prod_eq_zero_iff]
      simpa using hempty
    rw [hzero]
    simp [int64.maximum_nonneg, eq_comm]
  · rename_i hempty
    have hpos : ∀ extent ∈ extents, 1 ≤ extent := by
      intro extent hmem
      have hne : extent ≠ 0 := by
        rintro rfl
        exact hempty (by simpa using hmem)
      have := hnonneg extent hmem
      omega
    rw [foldlM_checkedMultiply hpos le_rfl, one_mul]
    refine and_congr_right fun _ => ⟨fun h => ?_, fun h _ => h⟩
    cases extents with
    | nil => decide
    | cons extent extents => exact h (List.cons_ne_nil _ _)

/-- The extents of an array: no extent is negative, and their product fits `extent_t`. -/
structure Extents (rank : Nat) where
  values : Shape rank
  logicalSize : Int
  nonneg : ∀ extent ∈ values.toList, 0 ≤ extent
  logical : logicalExtent values.toList = .ok logicalSize

namespace Extents

def dynamicRank {rank : Nat} (statics : Shape rank) : Nat :=
  statics.toList.count dynamicExtent

/-- `Extents<StaticExtents...>::Create`. -/
def create {rank : Nat} (statics : Shape rank) (dynamicExtents : List Int) :
    Result (Extents rank) :=
  if dynamicExtents.length ≠ dynamicRank statics then
    .error
      { code := .shape
        message := "Dynamic extent count does not match the extents type" }
  else
    match hvalues : resolveExtents statics.toList dynamicExtents with
    | .error status => .error status
    | .ok values =>
      match hlogical : logicalExtent values with
      | .error _ =>
        .error
          { code := .overflow, message := "The logical extent product exceeds extent_t" }
      | .ok logicalSize =>
        .ok
          { values := ⟨values, (resolveExtents_spec hvalues).1.trans statics.2⟩
            logicalSize := logicalSize
            nonneg := (resolveExtents_spec hvalues).2
            logical := hlogical }

/-- Resolved extents whose product fits are accepted. -/
theorem create_ok {rank : Nat} {statics values : Shape rank} {dynamicExtents : List Int}
    {logicalSize : Int} (hcount : dynamicExtents.length = dynamicRank statics)
    (hvalues : resolveExtents statics.toList dynamicExtents = .ok values.toList)
    (hlogical : logicalExtent values.toList = .ok logicalSize) :
    ∃ extents, create statics dynamicExtents = .ok extents ∧ extents.values = values ∧
      extents.logicalSize = logicalSize := by
  unfold create
  rw [if_neg (by simpa using hcount)]
  split
  · rename_i heq
    simp [hvalues] at heq
  rename_i resolved heq
  obtain rfl : values.toList = resolved := by simpa [hvalues] using heq
  split
  · rename_i heqLogical
    simp [hlogical] at heqLogical
  rename_i size heqLogical
  exact ⟨_, rfl, rfl, by simpa [hlogical, eq_comm] using heqLogical⟩

/-- Resolved extents with a zero among them are accepted, whatever the other ones are. -/
theorem create_of_zero {rank : Nat} {statics values : Shape rank} {dynamicExtents : List Int}
    (hcount : dynamicExtents.length = dynamicRank statics)
    (hvalues : resolveExtents statics.toList dynamicExtents = .ok values.toList)
    (hzero : 0 ∈ values.toList) :
    ∃ extents, create statics dynamicExtents = .ok extents ∧ extents.values = values ∧
      extents.logicalSize = 0 :=
  create_ok hcount hvalues (by rw [logicalExtent, if_pos (by simpa using hzero)])

/-- Extents that are all dynamic resolve to the dynamic ones. -/
theorem resolveExtents_replicate {values : List Int} (hnonneg : ∀ value ∈ values, 0 ≤ value) :
    resolveExtents (List.replicate values.length dynamicExtent) values = .ok values := by
  induction values with
  | nil => rfl
  | cons value values ih =>
    rw [List.forall_mem_cons] at hnonneg
    rw [List.length_cons, List.replicate_succ, resolveExtents, nextExtent, if_pos rfl,
      List.headD_cons, List.tail_cons, if_neg (by omega), ih hnonneg.2]
    rfl

/-- Dynamic extents that are no negative numbers and whose product fits are accepted. -/
theorem create_dynamic {rank : Nat} {values : Shape rank}
    (hnonneg : ∀ value ∈ values.toList, 0 ≤ value)
    (hfits : values.toList.prod ≤ int64.maximum) :
    ∃ extents, create (List.Vector.replicate rank dynamicExtent) values.toList = .ok extents ∧
      extents.values = values ∧ extents.logicalSize = values.toList.prod := by
  have hvalues := resolveExtents_replicate hnonneg
  rw [List.Vector.toList_length] at hvalues
  refine create_ok ?_ hvalues ((logicalExtent_ok_iff hnonneg _).2 ⟨rfl, hfits⟩)
  have hcount : (List.Vector.replicate rank dynamicExtent).toList.count dynamicExtent = rank :=
    List.count_replicate_self
  simp [dynamicRank, hcount]

theorem logicalSize_eq {rank : Nat} (extents : Extents rank) :
    extents.logicalSize = extents.values.toList.prod :=
  ((logicalExtent_ok_iff extents.nonneg _).1 extents.logical).1

end Extents

end Core
end AscCpp
