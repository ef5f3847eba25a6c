import AscCpp.Dense.Blas.Level1
import AscCpp.Dense.Blas.MatrixVector
import Mathlib.Tactic.LinearCombination

/-!
# VectorUpdate — the operations that write vectors

An operation on two vectors accepts vectors that are apart, and one vector in both places as long as
no element is read after it has been written.

- `Level1.overlap_eq_false`: the ends that `Overlap` compares do not wrap around.
- `Level1.forM_storePair_updates`: a loop that writes two vectors.
- `Level1.vector_operations_correct`: what the operations leave behind, and what they refuse.
-/

namespace AscCpp
namespace Dense
namespace Blas

open AscCpp.Core Library

variable {Cell V W : Type} {type : Representation Cell V} {resultType : Representation Cell W}

namespace Level1

/-! ## Vectors that are apart -/

theorem reachable_lt {vector : DenseBlasVectorView type} (h : vector.Checked)
    (hsize : vector.reachableSize ≠ 0) :
    vector.reachableData + vector.reachableSize < 2 ^ 64 := by
  have hpositive := type.size_pos
  unfold DenseBlasVectorView.Checked DenseBlasVectorView.create at h
  simp only [Result.failIf_bind_eq_ok_iff] at h
  rcases h with ⟨-, -, -, hchecked⟩
  split at hchecked
  · have hempty := congrArg DenseBlasVectorView.reachableSize (Except.ok.inj hchecked)
    exact absurd hempty.symm hsize
  · simp only [Result.failIf_bind_eq_ok_iff] at hchecked
    rcases Result.bind_eq_ok_iff.1 hchecked.2.2 with ⟨elementOffset, -, hchecked⟩
    rcases Result.bind_eq_ok_iff.1 hchecked with ⟨byteOffset, -, hchecked⟩
    rcases Result.bind_eq_ok_iff.1 hchecked with ⟨other, -, hchecked⟩
    simp only [Result.failIf_bind_eq_ok_iff] at hchecked
    rcases hchecked with ⟨hlast, -, -, hvector⟩
    have heq := Except.ok.inj hvector
    have hdata : min vector.data other = vector.reachableData :=
      congrArg DenseBlasVectorView.reachableData heq
    have hreach : max vector.data other + type.size - min vector.data other =
        vector.reachableSize := congrArg DenseBlasVectorView.reachableSize heq
    unfold uintptrMax at hlast
    omega

theorem overlap_eq_false {left : DenseBlasVectorView type}
    {right : DenseBlasVectorView resultType} (hleft : left.Checked) (hright : right.Checked)
    (h : overlap left right = false) :
    left.reachableStorage.block.Disjoint right.reachableStorage.block := by
  unfold overlap at h
  unfold Block.Disjoint ConstMemoryView.block DenseBlasVectorView.reachableStorage
  simp only
  split at h
  · omega
  · rename_i hsizes
    rw [not_or] at hsizes
    have hend := reachable_lt hleft hsizes.1
    have hend' := reachable_lt hright hsizes.2
    rw [Nat.mod_eq_of_lt hend, Nat.mod_eq_of_lt hend'] at h
    have hapart := of_decide_eq_false h
    omega

/-- Two checked vectors that an operation accepts, but for the places of their elements. -/
structure PairAccepts (context : ExecutionContext) (left right : DenseBlasVectorView type) :
    Prop where
  left_checked : left.Checked
  right_checked : right.Checked
  context_valid : validateContext context = .ok ()
  pair_valid : validatePair left right = .ok ()

variable {context : ExecutionContext} {x y source destination : DenseBlasVectorView type}
  {memory : Nat → Cell}

theorem PairAccepts.size_eq (h : PairAccepts context x y) : x.size = y.size := by
  have hvalid := h.pair_valid
  simp only [validatePair, Result.unit_bind_eq_ok_iff, Result.failIf_eq_ok_iff, not_not] at hvalid
  exact hvalid.2.2

theorem SameDescriptor.value_eq (h : SameDescriptor x y) (memory : Nat → Cell) (index : Int) :
    x.value memory index = y.value memory index := by
  unfold DenseBlasVectorView.value DenseBlasVectorView.vectorAt
  rw [h.1, h.2.2.1]

/-- The elements of two vectors that are apart. -/
def pairFamily (hx : x.Checked) (hy : y.Checked) (hsize : x.size = y.size)
    (hoverlap : overlap x y = false) : ElementFamily type (Fin x.size.toNat × Bool) where
  address item :=
    match item.2 with
    | true => y.vectorAt item.1.val
    | false => x.vectorAt item.1.val
  apart item other hne := by
    have hapart := overlap_eq_false hx hy hoverlap
    have hinside := fun index : Fin x.size.toNat =>
      (hx.vectorAt_spec (Int.natCast_nonneg index.val) (by omega)).2
    have hinside' := fun index : Fin x.size.toNat =>
      (hy.vectorAt_spec (Int.natCast_nonneg index.val) (by omega)).2
    unfold Block.Disjoint ConstMemoryView.block DenseBlasVectorView.reachableStorage at hapart
    rcases item with ⟨index, place⟩
    rcases other with ⟨index', place'⟩
    have hfirst := hinside index
    have hfirst' := hinside' index
    have hsecond := hinside index'
    have hsecond' := hinside' index'
    cases place <;> cases place'
    · exact (x.family hx).apart index index' fun heq => hne (by rw [heq])
    · simp only at *
      omega
    · simp only at *
      omega
    · refine (y.family hy).apart ⟨index.val, by omega⟩ ⟨index'.val, by omega⟩ fun heq => ?_
      exact hne (by rw [Fin.ext (Fin.mk.inj heq)])

/-! ## The loops -/

/-- A loop whose rounds store an element each, from its old value. -/
theorem forM_vector_updates (h : destination.Checked) {count : Int}
    (hcount : destination.size = count) {body : Int → Effect (Nat → Cell) Unit}
    (value : Fin destination.size.toNat → V → V)
    (hround : ∀ index memory', (destination.family h).Untouched memory memory' →
      Effect.exec (body (index : Fin destination.size.toNat).val) memory' =
        some (.ok (), type.store memory' (destination.vectorAt index.val)
          (value index (destination.value memory' index.val)))) :
    Effect.Updates (destination.family h) (forM (indices 0 count) body)
      (fun values index => value index (values index)) memory := by
  have hupdates := @Effect.updates_of_local _ _ _ _ (destination.family h)
    (fun position => body position) value memory hround
  rw [Effect.forM_range] at hupdates
  rw [← hcount, forM_lines h.size_nonneg]
  exact hupdates

theorem storePair_updates (hx : x.Checked) (hy : y.Checked) (hsize : x.size = y.size)
    (hoverlap : overlap x y = false) (index : Fin x.size.toNat) (left right : V)
    (memory : Nat → Cell) :
    Effect.Updates ((pairFamily hx hy hsize hoverlap).line index)
      (storePair x y index.val left right)
      (fun _ place => match place with | true => right | false => left) memory := by
  have hfirst := @Effect.updates_store _ _ _ _ ((pairFamily hx hy hsize hoverlap).line index) _
    false left memory
  have hboth := hfirst.bind fun memory' _ => @Effect.updates_store _ _ _ _
    ((pairFamily hx hy hsize hoverlap).line index) _ true right memory'
  rcases hboth with ⟨last, hrun, hframe, hvalues⟩
  refine ⟨last, hrun, hframe, hvalues.trans ?_⟩
  funext place
  cases place <;> rfl

/-- A loop whose rounds store an element of both vectors, from their old values. -/
theorem forM_storePair_updates (hx : x.Checked) (hy : y.Checked) (hsize : x.size = y.size)
    (hoverlap : overlap x y = false) (left right : V → V → V) :
    Effect.Updates (pairFamily hx hy hsize hoverlap)
      (forM (indices 0 x.size) fun index => do
        let memory ← Effect.read
        storePair x y index (left (x.value memory index) (y.value memory index))
          (right (x.value memory index) (y.value memory index)))
      (fun values item =>
        match item.2 with
        | true => right (values (item.1, false)) (values (item.1, true))
        | false => left (values (item.1, false)) (values (item.1, true))) memory := by
  rw [forM_lines hx.size_nonneg]
  refine @Effect.exec_forM_lines _ _ _ _ _ _ _ _ _
    (fun _ values place =>
      match place with
      | true => right (values false) (values true)
      | false => left (values false) (values true))
    memory (List.nodup_finRange _) List.mem_finRange fun index memory' _ => ?_
  rcases storePair_updates hx hy hsize hoverlap index
    (left (x.value memory' index.val) (y.value memory' index.val))
    (right (x.value memory' index.val) (y.value memory' index.val)) memory' with
    ⟨last, hrun, hframe, hvalues⟩
  refine ⟨last, ?_, hframe, hvalues⟩
  rw [Effect.exec_read_bind]
  exact hrun

/-! ## Operations on vectors -/

theorem scal_updates [Mul V] (h : destination.Checked)
    (hcontext : validateContext context = .ok ()) (hhost : validateHost destination = .ok ())
    (alpha : V) :
    Effect.Updates (destination.family h) (scal context destination alpha)
      (fun values index => values index * alpha) memory := by
  rw [scal, hcontext, Effect.ofResult_ok_bind, hhost, Effect.ofResult_ok_bind]
  exact forM_vector_updates h rfl (fun _ value => value * alpha) fun index memory' _ => rfl

/-- An operation that does nothing to a vector. -/
theorem pure_updates (h : destination.Checked) {step : Fin destination.size.toNat → V}
    (hstep : ∀ index, step index = destination.value memory index.val) :
    Effect.Updates (destination.family h) (pure ()) (fun _ => step) memory :=
  ⟨memory, rfl, .refl memory, funext fun index => (hstep index).symm⟩

/-- A source apart from the destination is read as it was. -/
theorem PairAccepts.source_value (h : PairAccepts context source destination)
    (hoverlap : overlap source destination = false) {memory' : Nat → Cell}
    (huntouched : (destination.family h.right_checked).Untouched memory memory')
    (index : Fin destination.size.toNat) :
    source.value memory' index.val = source.value memory index.val := by
  have hsize := h.size_eq
  have hagree := agreeOn_of_untouched (DenseBlasVectorView.family_inside h.right_checked)
    (overlap_eq_false h.left_checked h.right_checked hoverlap) huntouched
  exact (h.left_checked.value_congr (Int.natCast_nonneg _) (by omega) hagree).symm

theorem copy_updates (h : PairAccepts context source destination)
    (hplaces : SameDescriptor source destination ∨ overlap source destination = false) :
    Effect.Updates (destination.family h.right_checked) (copy context source destination)
      (fun _ index => source.value memory index.val) memory := by
  rw [copy, h.context_valid, Effect.ofResult_ok_bind, h.pair_valid, Effect.ofResult_ok_bind]
  by_cases hsame : SameDescriptor source destination
  · rw [if_pos hsame]
    exact pure_updates h.right_checked fun index => hsame.value_eq memory index.val
  · have hoverlap := hplaces.resolve_left hsame
    rw [if_neg hsame, failIf, if_neg (by rw [hoverlap]; decide), Effect.ofResult_ok_bind]
    refine forM_vector_updates h.right_checked h.size_eq.symm
      (fun index _ => source.value memory index.val) fun index memory' huntouched => ?_
    rw [Effect.exec_read_bind, h.source_value hoverlap huntouched index]
    rfl

theorem not_refused (hplaces : SameDescriptor x y ∨ overlap x y = false) :
    ¬ (overlap x y = true ∧ ¬ SameDescriptor x y) := by
  rintro ⟨hoverlap, hsame⟩
  rw [hplaces.resolve_left hsame] at hoverlap
  cases hoverlap

theorem axpy_updates [Zero V] [Add V] [Mul V] [DecidableEq V]
    (h : PairAccepts context source destination)
    (hplaces : SameDescriptor source destination ∨ overlap source destination = false)
    {alpha : V} (halpha : alpha ≠ 0) :
    Effect.Updates (destination.family h.right_checked) (axpy context source destination alpha)
      (fun values index => values index + alpha * source.value memory index.val) memory := by
  rw [axpy, h.context_valid, Effect.ofResult_ok_bind, h.pair_valid, Effect.ofResult_ok_bind, failIf,
    if_neg (not_refused hplaces), Effect.ofResult_ok_bind, if_neg halpha]
  by_cases hsame : SameDescriptor source destination
  -- A vector on both sides is read where it is written, before it is.
  · rcases @forM_vector_updates _ _ _ _ memory h.right_checked source.size h.size_eq.symm
      (fun index => do
        let memory ← Effect.read
        Effect.store type (destination.vectorAt index)
          (destination.value memory index + alpha * source.value memory index))
      (fun _ value => value + alpha * value)
      (fun index memory' _ => by
        rw [Effect.exec_read_bind, hsame.value_eq]
        rfl) with ⟨last, hrun, hframe, hvalues⟩
    refine ⟨last, hrun, hframe, hvalues.trans ?_⟩
    funext index
    simp only [hsame.value_eq]
    rfl
  · have hoverlap := hplaces.resolve_left hsame
    refine forM_vector_updates h.right_checked h.size_eq.symm
      (fun index value => value + alpha * source.value memory index.val)
      fun index memory' huntouched => ?_
    rw [Effect.exec_read_bind, h.source_value hoverlap huntouched index]
    rfl

theorem swap_updates (h : PairAccepts context x y) (hsame : ¬ SameDescriptor x y)
    (hoverlap : overlap x y = false) :
    Effect.Updates (pairFamily h.left_checked h.right_checked h.size_eq hoverlap)
      (swap context x y) (fun values item => values (item.1, !item.2)) memory := by
  rw [swap, h.context_valid, Effect.ofResult_ok_bind, h.pair_valid, Effect.ofResult_ok_bind,
    if_neg hsame, failIf, if_neg (by rw [hoverlap]; decide), Effect.ofResult_ok_bind]
  rcases @forM_storePair_updates _ _ _ x y memory h.left_checked h.right_checked h.size_eq hoverlap
    (fun _ right => right) (fun left _ => left) with ⟨last, hrun, hframe, hvalues⟩
  refine ⟨last, hrun, hframe, hvalues.trans ?_⟩
  funext item
  rcases item with ⟨index, place⟩
  cases place <;> rfl

theorem rot_updates [Add V] [Sub V] [Mul V] (h : PairAccepts context x y)
    (hoverlap : overlap x y = false) (c s : V) :
    Effect.Updates (pairFamily h.left_checked h.right_checked h.size_eq hoverlap)
      (rot context x y c s)
      (fun values item =>
        match item.2 with
        | true => c * values (item.1, true) - s * values (item.1, false)
        | false => c * values (item.1, false) + s * values (item.1, true)) memory := by
  rw [rot, h.context_valid, Effect.ofResult_ok_bind, h.pair_valid, Effect.ofResult_ok_bind,
    failIf, if_neg (by rw [hoverlap]; decide), Effect.ofResult_ok_bind]
  exact forM_storePair_updates h.left_checked h.right_checked h.size_eq hoverlap
    (fun left right => c * left + s * right) (fun left right => c * right - s * left)

/-! ## The results -/

/-- The operation fails and leaves the memory alone. -/
def Refuses (effect : Effect (Nat → Cell) Unit) (memory : Nat → Cell) : Prop :=
  ∃ status, Effect.exec effect memory = some (.error status, memory)

theorem overlapping_refused [CommRing V] [DecidableEq V] (h : PairAccepts context x y)
    (hoverlap : overlap x y = true) (memory : Nat → Cell) :
    (∀ c s, Refuses (rot context x y c s) memory) ∧
      (¬ SameDescriptor x y → Refuses (copy context x y) memory ∧
        (∀ alpha, Refuses (axpy context x y alpha) memory) ∧
        Refuses (swap context x y) memory) := by
  refine ⟨fun c s => ?_, fun hsame => ⟨?_, fun alpha => ?_, ?_⟩⟩
  · rw [Refuses, rot, h.context_valid, Effect.ofResult_ok_bind, h.pair_valid,
      Effect.ofResult_ok_bind, failIf, if_pos hoverlap]
    exact ⟨_, rfl⟩
  · rw [Refuses, copy, h.context_valid, Effect.ofResult_ok_bind, h.pair_valid,
      Effect.ofResult_ok_bind, if_neg hsame, failIf, if_pos hoverlap]
    exact ⟨_, rfl⟩
  · rw [Refuses, axpy, h.context_valid, Effect.ofResult_ok_bind, h.pair_valid,
      Effect.ofResult_ok_bind, failIf, if_pos ⟨hoverlap, hsame⟩]
    exact ⟨_, rfl⟩
  · rw [Refuses, swap, h.context_valid, Effect.ofResult_ok_bind, h.pair_valid,
      Effect.ofResult_ok_bind, if_neg hsame, failIf, if_pos hoverlap]
    exact ⟨_, rfl⟩

/-- Over exact arithmetic the branch of `Axpy` without `alpha` need not be told apart. -/
theorem axpy_updates_exact [CommRing V] [DecidableEq V] (h : PairAccepts context source destination)
    (hplaces : SameDescriptor source destination ∨ overlap source destination = false) (alpha : V) :
    Effect.Updates (destination.family h.right_checked) (axpy context source destination alpha)
      (fun values index => values index + alpha * source.value memory index.val) memory := by
  by_cases halpha : alpha = 0
  · rw [axpy, h.context_valid, Effect.ofResult_ok_bind, h.pair_valid, Effect.ofResult_ok_bind,
      failIf, if_neg (not_refused hplaces), Effect.ofResult_ok_bind, if_pos halpha]
    refine ⟨memory, rfl, .refl memory, ?_⟩
    funext index
    simp only [halpha, zero_mul, add_zero]
  · exact axpy_updates h hplaces halpha

/-- A rotation and the opposite one, whose cosine and sine lie on the unit circle. -/
theorem rot_undone [CommRing V] (h : PairAccepts context x y) (hoverlap : overlap x y = false)
    {c s : V} (hunit : c * c + s * s = 1) :
    Effect.Updates (pairFamily h.left_checked h.right_checked h.size_eq hoverlap)
      (do
        rot context x y c s
        rot context x y c (-s))
      (fun values => values) memory := by
  rcases (rot_updates h hoverlap c s).bind fun memory' _ =>
    @rot_updates _ _ _ _ _ _ memory' _ _ _ h hoverlap c (-s) with ⟨last, hrun, hframe, hvalues⟩
  refine ⟨last, hrun, hframe, hvalues.trans ?_⟩
  funext item
  rcases item with ⟨index, place⟩
  cases place
  · simp only
    linear_combination ((pairFamily h.left_checked h.right_checked h.size_eq hoverlap).values memory
      (index, false)) * hunit
  · simp only
    linear_combination ((pairFamily h.left_checked h.right_checked h.size_eq hoverlap).values memory
      (index, true)) * hunit

/-- `Scal` multiplies, `Copy` copies and `Axpy` adds to the elements of the destination; `Swap`
exchanges and `Rot` rotates the pairs of elements, and the opposite rotation undoes it.  One vector
in both places is as good as two vectors that are apart, except for `Rot`; vectors that overlap
otherwise are refused, and the memory is left alone. -/
theorem vector_operations_correct (type : Representation Cell V) [CommRing V] [DecidableEq V]
    (context : ExecutionContext) (memory : Nat → Cell) :
    (∀ (destination : DenseBlasVectorView type) (h : destination.Checked),
      validateContext context = .ok () → validateHost destination = .ok () → ∀ alpha,
        Effect.Updates (destination.family h) (scal context destination alpha)
          (fun values index => values index * alpha) memory) ∧
    ∀ (x y : DenseBlasVectorView type) (h : PairAccepts context x y),
      (SameDescriptor x y ∨ overlap x y = false →
        Effect.Updates (y.family h.right_checked) (copy context x y)
          (fun _ index => x.value memory index.val) memory ∧
        ∀ alpha, Effect.Updates (y.family h.right_checked) (axpy context x y alpha)
          (fun values index => values index + alpha * x.value memory index.val) memory) ∧
      (SameDescriptor x y → Effect.exec (swap context x y) memory = some (.ok (), memory)) ∧
      (∀ hoverlap : overlap x y = false,
        (¬ SameDescriptor x y →
          Effect.Updates (pairFamily h.left_checked h.right_checked h.size_eq hoverlap)
            (swap context x y) (fun values item => values (item.1, !item.2)) memory) ∧
        ∀ c s,
          Effect.Updates (pairFamily h.left_checked h.right_checked h.size_eq hoverlap)
            (rot context x y c s)
            (fun values item =>
              match item.2 with
              | true => c * values (item.1, true) - s * values (item.1, false)
              | false => c * values (item.1, false) + s * values (item.1, true)) memory ∧
          (c * c + s * s = 1 →
            Effect.Updates (pairFamily h.left_checked h.right_checked h.size_eq hoverlap)
              (do
                rot context x y c s
                rot context x y c (-s))
              (fun values => values) memory)) ∧
      (overlap x y = true →
        (∀ c s, Refuses (rot context x y c s) memory) ∧
        (¬ SameDescriptor x y → Refuses (copy context x y) memory ∧
          (∀ alpha, Refuses (axpy context x y alpha) memory) ∧
          Refuses (swap context x y) memory)) := by
  refine ⟨fun destination h hcontext hhost alpha => scal_updates h hcontext hhost alpha,
    fun x y h => ⟨fun hplaces => ⟨copy_updates h hplaces, axpy_updates_exact h hplaces⟩,
      fun hsame => ?_, fun hoverlap => ⟨fun hsame => swap_updates h hsame hoverlap, fun c s =>
        ⟨rot_updates h hoverlap c s, rot_undone h hoverlap⟩⟩,
      fun hoverlap => overlapping_refused h hoverlap memory⟩⟩
  rw [swap, h.context_valid, Effect.ofResult_ok_bind, h.pair_valid, Effect.ofResult_ok_bind,
    if_pos hsame]
  rfl

/-- The same two elements as those of the other sample, elsewhere. -/
def sampleOther : DenseBlasVectorView float64 :=
  ⟨256, 2, 1, ⟨256, 16, .host⟩, 256, 16⟩

theorem samplePair_accepts : PairAccepts .serial sampleVector sampleOther where
  left_checked := rfl
  right_checked := rfl
  context_valid := rfl
  pair_valid := rfl

theorem vector_operations_sample :
    Effect.Updates (pairFamily samplePair_accepts.left_checked samplePair_accepts.right_checked
        samplePair_accepts.size_eq rfl)
      (do
        rot .serial sampleVector sampleOther (3 / 5) (4 / 5)
        rot .serial sampleVector sampleOther (3 / 5) (-(4 / 5)))
      (fun values => values) (fun _ => 3) :=
  (((vector_operations_correct float64 .serial fun _ => 3).2 sampleVector sampleOther
    samplePair_accepts).2.2.1 rfl).2 (3 / 5) (4 / 5) |>.2 (by norm_num)

end Level1

end Blas
end Dense
end AscCpp
