import AscCpp.Core.Extents
import AscCpp.Dense.Blas.VectorUpdate
import Mathlib.Analysis.Real.Sqrt
import Mathlib.Tactic.FieldSimp

/-!
# Reduction — the operations that reduce vectors to an element

- `Level1.maximumFrom_spec`: a loop that keeps its maximum finds the first one.
- `Level1.ScaledSquares.Holds.add`: what a round of `Nrm2` preserves, whose scale keeps the sum of the
  squares between one and the number of elements.
- `Level1.reductions_correct`: what the operations leave behind.
-/

namespace AscCpp
namespace Dense
namespace Blas

open AscCpp.Core Library

variable {Cell V W : Type} {type : Representation Cell V} {resultType : Representation Cell W}

namespace Level1

variable {context : ExecutionContext}

/-! ## Reductions -/

theorem reduction_updates {result : DenseBlasVectorView resultType} (h : result.Checked)
    (hsize : result.size = 1) (value : (Nat → Cell) → W) (memory : Nat → Cell) :
    Effect.Updates (result.family h)
      (do
        let memory ← Effect.read
        Effect.store resultType (result.vectorAt 0) (value memory))
      (fun _ _ => value memory) memory := by
  have hone : 0 < result.size.toNat := by omega
  rcases @Effect.updates_store _ _ _ _ (result.family h) _ ⟨0, hone⟩ (value memory) memory with
    ⟨last, hrun, hframe, hvalues⟩
  refine ⟨last, ?_, hframe, hvalues.trans ?_⟩
  · rw [Effect.exec_read_bind]
    exact hrun
  · funext index
    have hindex : index = ⟨0, hone⟩ := Fin.ext (by omega)
    exact hindex ▸ Function.update_self _ _ _

/-- The operands and the result of a reduction. -/
theorem validateReduction_size {operand : DenseBlasVectorView type}
    {result : DenseBlasVectorView resultType}
    (h : validateReduction context operand result = .ok ()) : result.size = 1 := by
  simp only [validateReduction, validateExactSize, Result.unit_bind_eq_ok_iff,
    Result.failIf_eq_ok_iff, not_not] at h
  exact h.2.2.1.2

theorem validateReductionOfPair_size {left right : DenseBlasVectorView type}
    {result : DenseBlasVectorView resultType}
    (h : validateReductionOfPair context left right result = .ok ()) : result.size = 1 := by
  simp only [validateReductionOfPair, validateExactSize, Result.unit_bind_eq_ok_iff,
    Result.failIf_eq_ok_iff, not_not] at h
  exact h.2.2.1.2

theorem sum_indices_size [AddCommMonoid V] {size : Int} (hsize : 0 ≤ size) (value : Int → V) :
    ((indices 0 size).map value).sum = ∑ index : Fin size.toNat, value index.val := by
  rw [← Int.toNat_of_nonneg hsize, indices_zero, List.map_map, Fin.sum_univ_def]
  rfl

theorem foldl_add_size [AddCommMonoid V] {size : Int} (hsize : 0 ≤ size) (value : Int → V) :
    (indices 0 size).foldl (fun sum index => sum + value index) 0 =
      ∑ index : Fin size.toNat, value index.val := by
  rw [← sum_indices_size hsize, List.sum_eq_foldl, List.foldl_map]

theorem dot_updates [NonUnitalNonAssocSemiring V] {left right result : DenseBlasVectorView type}
    (hleft : left.Checked) (hresult : result.Checked)
    (hvalid : validateReductionOfPair context left right result = .ok ()) (memory : Nat → Cell) :
    Effect.Updates (result.family hresult) (dot context left right result)
      (fun _ _ => ∑ index : Fin left.size.toNat,
        left.value memory index.val * right.value memory index.val) memory := by
  rw [dot, hvalid, Effect.ofResult_ok_bind]
  have hupdates := reduction_updates hresult (validateReductionOfPair_size hvalid)
    (fun memory => (indices 0 left.size).foldl
      (fun sum index => sum + left.value memory index * right.value memory index) 0) memory
  simp only [foldl_add_size hleft.size_nonneg] at hupdates ⊢
  exact hupdates

theorem complexDotImpl_updates [NonUnitalNonAssocSemiring V] [Star V]
    {left right result : DenseBlasVectorView type} (hleft : left.Checked)
    (hresult : result.Checked)
    (hvalid : validateReductionOfPair context left right result = .ok ()) (conjugated : Bool)
    (memory : Nat → Cell) :
    Effect.Updates (result.family hresult) (complexDotImpl context conjugated left right result)
      (fun _ _ => ∑ index : Fin left.size.toNat,
        (if conjugated then star (left.value memory index.val) else left.value memory index.val) *
          right.value memory index.val) memory := by
  have hupdates := reduction_updates hresult (validateReductionOfPair_size hvalid)
    (fun memory => (indices 0 left.size).foldl (fun sum index =>
      if conjugated then sum + star (left.value memory index) * right.value memory index
      else sum + left.value memory index * right.value memory index) 0) memory
  rw [complexDotImpl, hvalid, Effect.ofResult_ok_bind]
  cases conjugated <;> simp only [if_true, Bool.false_eq_true, if_false,
    foldl_add_size hleft.size_nonneg] at hupdates ⊢ <;> exact hupdates

/-- The first maximum of increasing indices. -/
theorem maximumFrom_spec [LinearOrder V] (magnitude : Int → V) (first : Int)
    (items : List Int) (hsorted : (first :: items).Pairwise (· < ·)) :
    let maximum := (maximumFrom magnitude (first, magnitude first) items).1
    maximum ∈ first :: items ∧ (∀ index ∈ first :: items, magnitude index ≤ magnitude maximum) ∧
      ∀ index ∈ first :: items, index < maximum → magnitude index < magnitude maximum := by
  induction items generalizing first with
  | nil => simp [maximumFrom]
  | cons item items ih =>
    rcases List.pairwise_cons.1 hsorted with ⟨hfirst, hitems⟩
    have hitem := hfirst item List.mem_cons_self
    intro maximum
    by_cases hgreater : magnitude item > magnitude first
    · have hstep : maximum = (maximumFrom magnitude (item, magnitude item) items).1 := by
        simp only [maximum, maximumFrom, List.foldl_cons, if_pos hgreater]
      rcases ih item hitems with ⟨hmem, hle, hlt⟩
      rw [← hstep] at hmem hle hlt
      have hself := hle item List.mem_cons_self
      refine ⟨List.mem_cons_of_mem _ hmem, fun index hindex => ?_, fun index hindex hbefore => ?_⟩
      · rcases List.mem_cons.1 hindex with rfl | hindex
        · exact hgreater.le.trans hself
        · exact hle index hindex
      · rcases List.mem_cons.1 hindex with rfl | hindex
        · exact lt_of_lt_of_le hgreater hself
        · exact hlt index hindex hbefore
    · have hstep : maximum = (maximumFrom magnitude (first, magnitude first) items).1 := by
        simp only [maximum, maximumFrom, List.foldl_cons, if_neg hgreater]
      rcases ih first (hsorted.sublist (.cons_cons _ (List.sublist_cons_self _ _))) with
        ⟨hmem, hle, hlt⟩
      rw [← hstep] at hmem hle hlt
      have hskipped := not_lt.1 hgreater
      refine ⟨?_, fun index hindex => ?_, fun index hindex hbefore => ?_⟩
      · rcases List.mem_cons.1 hmem with heq | hmem
        · exact heq ▸ List.mem_cons_self
        · exact List.mem_cons_of_mem _ (List.mem_cons_of_mem _ hmem)
      · rcases List.mem_cons.1 hindex with rfl | hindex
        · exact hle _ List.mem_cons_self
        · rcases List.mem_cons.1 hindex with rfl | hindex
          · exact hskipped.trans (hle first List.mem_cons_self)
          · exact hle index (List.mem_cons_of_mem _ hindex)
      · rcases List.mem_cons.1 hindex with rfl | hindex
        · exact hlt _ List.mem_cons_self hbefore
        · rcases List.mem_cons.1 hindex with rfl | hindex
          -- The element that was skipped is no greater than the first one, which is before it.
          · exact lt_of_le_of_lt hskipped (hlt first List.mem_cons_self (hitem.trans hbefore))
          · exact hlt index (List.mem_cons_of_mem _ hindex) hbefore

section Ordered

variable [Field V] [LinearOrder V] [IsStrictOrderedRing V]

/-- The state after so many elements with a sum of squares. -/
structure ScaledSquares.Holds (state : ScaledSquares V) (count : Nat) (total : V) : Prop where
  scale_nonneg : 0 ≤ state.scale
  one_le : 1 ≤ state.sumSquares
  le_count : state.sumSquares ≤ count + 1
  square : state.scale ^ 2 * state.sumSquares = total

theorem ScaledSquares.Holds.add {state : ScaledSquares V} {count : Nat} {total : V}
    (h : state.Holds count total) (value : V) :
    (addScaledSquare value state).Holds (count + 1) (total + value ^ 2) := by
  have hsum : 0 ≤ state.sumSquares := zero_le_one.trans h.one_le
  have hcount := h.le_count
  unfold addScaledSquare
  simp only
  split
  · rename_i hzero
    rw [abs_eq_zero.1 hzero]
    refine ⟨h.scale_nonneg, h.one_le, ?_, ?_⟩
    · push_cast
      linarith
    · rw [h.square]
      ring
  · rename_i hnonzero
    have habs : 0 < |value| := lt_of_le_of_ne (abs_nonneg value) (Ne.symm hnonzero)
    split
    · rename_i hless
      have hratio : 0 ≤ state.scale / |value| := div_nonneg h.scale_nonneg habs.le
      have hratio' : state.scale / |value| ≤ 1 := (div_le_one habs).2 hless.le
      have hproduct : state.sumSquares * (state.scale / |value|) * (state.scale / |value|) ≤
          state.sumSquares := by
        have hfirst := mul_le_of_le_one_right hsum hratio'
        exact (mul_le_of_le_one_right (mul_nonneg hsum hratio) hratio').trans hfirst
      refine ⟨habs.le, ?_, ?_, ?_⟩
      · exact le_add_of_nonneg_right (mul_nonneg (mul_nonneg hsum hratio) hratio)
      · push_cast
        linarith
      · rw [← h.square, ← sq_abs value]
        field_simp
        ring
    · rename_i hnot
      have hscale : 0 < state.scale := habs.trans_le (not_lt.1 hnot)
      have hratio : 0 ≤ |value| / state.scale := div_nonneg habs.le hscale.le
      have hratio' : |value| / state.scale ≤ 1 := (div_le_one hscale).2 (not_lt.1 hnot)
      have hproduct := mul_le_one₀ hratio' hratio hratio'
      refine ⟨h.scale_nonneg, ?_, ?_, ?_⟩
      · exact h.one_le.trans (le_add_of_nonneg_right (mul_nonneg hratio hratio))
      · push_cast
        linarith
      · rw [← h.square, ← sq_abs value]
        field_simp

theorem ScaledSquares.Holds.norm {state : ScaledSquares V} {count : Nat} {total : V}
    (h : state.Holds count total) {squareRoot : V → V}
    (hroot : ∀ value, 1 ≤ value → 0 ≤ squareRoot value ∧ squareRoot value ^ 2 = value) :
    0 ≤ state.norm squareRoot ∧ state.norm squareRoot ^ 2 = total := by
  have hsquare := h.square
  unfold ScaledSquares.norm
  split
  · rename_i hzero
    rw [hzero] at hsquare
    exact ⟨le_rfl, by rw [← hsquare]; ring⟩
  · refine ⟨mul_nonneg h.scale_nonneg (hroot _ h.one_le).1, ?_⟩
    rw [mul_pow, (hroot _ h.one_le).2, hsquare]

theorem foldl_addScaledSquare_holds (value : Int → V) (items : List Int)
    {state : ScaledSquares V} {count : Nat} {total : V} (h : state.Holds count total) :
    (items.foldl (fun state index => addScaledSquare (value index) state) state).Holds
      (count + items.length) (total + (items.map fun index => value index ^ 2).sum) := by
  induction items generalizing state count total with
  | nil => simpa using h
  | cons item items ih =>
    have hrest := ih (h.add (value item))
    rw [List.map_cons, List.sum_cons, ← add_assoc, List.length_cons, Nat.add_comm items.length,
      ← Nat.add_assoc]
    exact hrest

variable {operand : DenseBlasVectorView type} {result : DenseBlasVectorView type}

theorem nrm2_updates (hoperand : operand.Checked) (hresult : result.Checked)
    (hvalid : validateReduction context operand result = .ok ()) {squareRoot : V → V}
    (hroot : ∀ value, 1 ≤ value → 0 ≤ squareRoot value ∧ squareRoot value ^ 2 = value)
    (memory : Nat → Cell) :
    ∃ norm, 0 ≤ norm ∧
      norm ^ 2 = ∑ index : Fin operand.size.toNat, operand.value memory index.val ^ 2 ∧
      Effect.Updates (result.family hresult) (nrm2 context squareRoot operand result)
        (fun _ _ => norm) memory := by
  have hstart : ScaledSquares.Holds (V := V) { scale := 0, sumSquares := 1 } 0 0 :=
    ⟨le_rfl, le_rfl, by simp, by simp⟩
  have hstate := foldl_addScaledSquare_holds (operand.value memory) (indices 0 operand.size) hstart
  rw [zero_add, zero_add, sum_indices_size hoperand.size_nonneg] at hstate
  have hnorm := hstate.norm hroot
  refine ⟨_, hnorm.1, hnorm.2, ?_⟩
  rw [nrm2, hvalid, Effect.ofResult_ok_bind]
  exact reduction_updates hresult (validateReduction_size hvalid)
    (fun memory =>
      ((indices 0 operand.size).foldl
        (fun state index => addScaledSquare (operand.value memory index) state)
        { scale := 0, sumSquares := 1 }).norm squareRoot) memory

omit [IsStrictOrderedRing V] in
theorem asum_updates (hoperand : operand.Checked) (hresult : result.Checked)
    (hvalid : validateReduction context operand result = .ok ()) (memory : Nat → Cell) :
    Effect.Updates (result.family hresult) (asum context operand result)
      (fun _ _ => ∑ index : Fin operand.size.toNat, |operand.value memory index.val|) memory := by
  rw [asum, hvalid, Effect.ofResult_ok_bind]
  have hupdates := reduction_updates hresult (validateReduction_size hvalid)
    (fun memory => (indices 0 operand.size).foldl
      (fun sum index => sum + |operand.value memory index|) 0) memory
  simp only [foldl_add_size hoperand.size_nonneg] at hupdates ⊢
  exact hupdates

variable {indexType : Representation Cell Int} {position : DenseBlasVectorView indexType}

/-- The first index of an element of the greatest magnitude, or a negative one. -/
structure FirstMaximum (operand : DenseBlasVectorView type) (memory : Nat → Cell)
    (maximum : Int) : Prop where
  empty : operand.size = 0 → maximum = -1
  bounds : operand.size ≠ 0 → 0 ≤ maximum ∧ maximum < operand.size
  greatest : ∀ index, 0 ≤ index ∧ index < operand.size →
    |operand.value memory index| ≤ |operand.value memory maximum|
  first : ∀ index, 0 ≤ index ∧ index < operand.size → index < maximum →
    |operand.value memory index| < |operand.value memory maximum|

omit [IsStrictOrderedRing V] in
theorem iamax_updates (hoperand : operand.Checked) (hposition : position.Checked)
    (hvalid : validateReduction context operand position = .ok ()) (memory : Nat → Cell) :
    ∃ maximum, FirstMaximum operand memory maximum ∧
      Effect.Updates (position.family hposition) (iamax context operand position)
        (fun _ _ => maximum) memory := by
  have hnonneg := hoperand.size_nonneg
  have hone := validateReduction_size hvalid
  rw [iamax, hvalid, Effect.ofResult_ok_bind]
  by_cases hempty : operand.size = 0
  · simp only [if_pos hempty]
    exact ⟨-1, ⟨fun _ => rfl, fun h => absurd hempty h, fun index hindex => by omega,
      fun index hindex => by omega⟩, reduction_updates hposition hone (fun _ => -1) memory⟩
  · simp only [if_neg hempty]
    have hsorted : ((0 : Int) :: indices 1 operand.size).Pairwise (· < ·) := by
      refine List.pairwise_cons.2 ⟨fun index hindex => ?_, (indices_sorted _ _).pairwise⟩
      have hbounds := mem_indices.1 hindex
      omega
    have hmem : ∀ index, index ∈ (0 : Int) :: indices 1 operand.size ↔
        0 ≤ index ∧ index < operand.size := by
      intro index
      rw [List.mem_cons, mem_indices]
      omega
    have hspec := maximumFrom_spec (fun index => |operand.value memory index|) 0
      (indices 1 operand.size) hsorted
    simp only [hmem] at hspec
    exact ⟨_, ⟨fun h => absurd h hempty, fun _ => hspec.1, hspec.2.1, hspec.2.2⟩,
      reduction_updates hposition hone (fun memory =>
        (maximumFrom (fun index => |operand.value memory index|)
          (0, |operand.value memory 0|) (indices 1 operand.size)).1) memory⟩

end Ordered

/-- `Dot` and `Dotu` are the sum of the products, and `Dotc` that with the left elements conjugated;
`Asum` is the sum of the magnitudes, `Nrm2` the root of the sum of the squares and `Iamax` the first
index of an element of the greatest magnitude.  Nothing changes beside the element of the result. -/
theorem reductions_correct (type : Representation Cell V) [Field V] [LinearOrder V]
    [IsStrictOrderedRing V] (context : ExecutionContext) (memory : Nat → Cell) :
    (∀ (left right result : DenseBlasVectorView type), left.Checked →
      ∀ hresult : result.Checked, validateReductionOfPair context left right result = .ok () →
        Effect.Updates (result.family hresult) (dot context left right result)
          (fun _ _ => ∑ index : Fin left.size.toNat,
            left.value memory index.val * right.value memory index.val) memory) ∧
    (∀ (Z : Type) [CommRing Z] [Star Z] (complexType : Representation Cell Z)
      (left right result : DenseBlasVectorView complexType), left.Checked →
      ∀ hresult : result.Checked, validateReductionOfPair context left right result = .ok () →
        Effect.Updates (result.family hresult) (dotu context left right result)
          (fun _ _ => ∑ index : Fin left.size.toNat,
            left.value memory index.val * right.value memory index.val) memory ∧
        Effect.Updates (result.family hresult) (dotc context left right result)
          (fun _ _ => ∑ index : Fin left.size.toNat,
            star (left.value memory index.val) * right.value memory index.val) memory) ∧
    ∀ operand : DenseBlasVectorView type, operand.Checked →
      (∀ (result : DenseBlasVectorView type) (hresult : result.Checked),
        validateReduction context operand result = .ok () →
          Effect.Updates (result.family hresult) (asum context operand result)
            (fun _ _ => ∑ index : Fin operand.size.toNat, |operand.value memory index.val|)
            memory ∧
          ∀ squareRoot : V → V,
            (∀ value, 1 ≤ value → 0 ≤ squareRoot value ∧ squareRoot value ^ 2 = value) →
            ∃ norm, 0 ≤ norm ∧
              norm ^ 2 = ∑ index : Fin operand.size.toNat, operand.value memory index.val ^ 2 ∧
              Effect.Updates (result.family hresult) (nrm2 context squareRoot operand result)
                (fun _ _ => norm) memory) ∧
      ∀ (indexType : Representation Cell Int) (result : DenseBlasVectorView indexType)
        (hresult : result.Checked), validateReduction context operand result = .ok () →
          ∃ maximum, FirstMaximum operand memory maximum ∧
            Effect.Updates (result.family hresult) (iamax context operand result)
              (fun _ _ => maximum) memory := by
  refine ⟨fun left right result hleft hresult hvalid => dot_updates hleft hresult hvalid memory,
    fun Z _ _ complexType left right result hleft hresult hvalid => ⟨?_, ?_⟩,
    fun operand hoperand => ⟨fun result hresult hvalid =>
      ⟨asum_updates hoperand hresult hvalid memory, fun squareRoot hroot =>
        nrm2_updates hoperand hresult hvalid hroot memory⟩,
      fun indexType result hresult hvalid => iamax_updates hoperand hresult hvalid memory⟩⟩
  · exact complexDotImpl_updates hleft hresult hvalid false memory
  · exact complexDotImpl_updates hleft hresult hvalid true memory

/-- Real numbers, of which a cell carries one. -/
abbrev realNumber : Representation ℝ ℝ := .uniform ℝ 8 8 Representation.eight_pos

def sampleNumbers : DenseBlasVectorView realNumber :=
  ⟨80, 2, -2, ⟨64, 24, .host⟩, 64, 24⟩

def sampleNorm : DenseBlasVectorView realNumber :=
  ⟨512, 1, 1, ⟨512, 8, .host⟩, 512, 8⟩

theorem reductions_sample :
    ∃ norm : ℝ, 0 ≤ norm ∧
      norm ^ 2 = ∑ index : Fin sampleNumbers.size.toNat,
        sampleNumbers.value (fun _ => 3) index.val ^ 2 ∧
      Effect.Updates (sampleNorm.family rfl) (nrm2 .serial Real.sqrt sampleNumbers sampleNorm)
        (fun _ _ => norm) (fun _ => 3) :=
  (((reductions_correct realNumber .serial fun _ => 3).2.2 sampleNumbers rfl).1 sampleNorm rfl
    rfl).2 Real.sqrt fun value hvalue =>
      ⟨Real.sqrt_nonneg value, Real.sq_sqrt (zero_le_one.trans hvalue)⟩

end Level1

end Blas
end Dense
end AscCpp
