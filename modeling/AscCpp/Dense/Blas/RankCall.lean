import AscCpp.Dense.Blas.Equivalence
import AscCpp.Dense.Blas.RankUpdate

/-!
# RankCall — the updates of one triangle as calls

- `RankCall`: an update with its arguments, of full or packed storage.
- `RankCall.leaves`: what a call that succeeds leaves behind.
- `RankCall.run_completes`: a call that passes its checks succeeds.
- `RankCall.both_full`, `RankCall.both_apart`: one run on each triangle.
- `rank_update_correct`: the updates against their reference expression.
-/

namespace AscCpp
namespace Dense
namespace Blas

open AscCpp.Core Library Matrix

variable {Cell V : Type} {type : Representation Cell V}

section Exact

variable [CommRing V] [StarRing V] [ExactScalar V] [DecidableEq V] {context : ExecutionContext}
  {triangle : DenseBlasTriangle} {x y : DenseBlasVectorView type} {memory : Nat → Cell}
  {transposition : DenseBlasTranspose} {left right output : DenseBlasMatrixView type}

/-! ## Calls -/

namespace RankStorage

variable (context triangle) (storage : RankStorage type)

/-- `Her` and `Hpr`. -/
def her (alpha : DenseBlasRealType V) (x : DenseBlasVectorView type) : Effect (Nat → Cell) Unit :=
  match storage with
  | .full matrix => Blas.her context triangle x alpha matrix
  | .packed matrix => hpr context triangle x alpha matrix

/-- `Her2` and `Hpr2`. -/
def her2 (alpha : V) (x y : DenseBlasVectorView type) : Effect (Nat → Cell) Unit :=
  match storage with
  | .full matrix => Blas.her2 context triangle alpha x y matrix
  | .packed matrix => hpr2 context triangle alpha x y matrix

/-- `Syr` and `Spr`. -/
def syr (alpha : V) (x : DenseBlasVectorView type) : Effect (Nat → Cell) Unit :=
  match storage with
  | .full matrix => Blas.syr context triangle alpha x matrix
  | .packed matrix => spr context triangle alpha x matrix

/-- `Syr2` and `Spr2`. -/
def syr2 (alpha : V) (x y : DenseBlasVectorView type) : Effect (Nat → Cell) Unit :=
  match storage with
  | .full matrix => Blas.syr2 context triangle alpha x y matrix
  | .packed matrix => spr2 context triangle alpha x y matrix

omit [CommRing V] [StarRing V] [ExactScalar V] [DecidableEq V] in
/-- The descriptor comes from `Create`. -/
def Created : RankStorage type → Prop
  | .full matrix => matrix.Checked
  | .packed matrix => matrix.Checked

/-- The check that full storage has in front. -/
def checkSquare (kind : String) : Result Unit :=
  match storage with
  | .full matrix => validateSquare kind matrix
  | .packed _ => .ok ()

variable {context triangle storage}

omit [CommRing V] [StarRing V] [ExactScalar V] [DecidableEq V] in
theorem checked_of_square (h : storage.Created) {kind : String}
    (hsquare : storage.checkSquare kind = .ok ()) : storage.Checked := by
  cases storage with
  | full matrix => exact ⟨h, not_not.1 (Result.failIf_eq_ok_iff.1 hsquare)⟩
  | packed matrix => exact h

variable {alpha : V} {x y : DenseBlasVectorView type}

theorem her_eq {alpha : DenseBlasRealType V} :
    storage.her context triangle alpha x =
      (Effect.ofResult (storage.checkSquare "Hermitian") >>= fun _ =>
        rankOne context triangle alpha.val x (storage.operand triangle) true) := by
  cases storage <;> rfl

theorem her2_eq :
    storage.her2 context triangle alpha x y =
      (Effect.ofResult (storage.checkSquare "Hermitian") >>= fun _ =>
        rankTwo context triangle alpha x y (storage.operand triangle) true) := by
  cases storage <;> rfl

theorem syr_eq :
    storage.syr context triangle alpha x =
      (Effect.ofResult (storage.checkSquare "symmetric") >>= fun _ =>
        rankOne context triangle alpha x (storage.operand triangle) false) := by
  cases storage <;> rfl

theorem syr2_eq :
    storage.syr2 context triangle alpha x y =
      (Effect.ofResult (storage.checkSquare "symmetric") >>= fun _ =>
        rankTwo context triangle alpha x y (storage.operand triangle) false) := by
  cases storage <;> rfl

end RankStorage

/-- An update and its arguments. -/
inductive RankCall (type : Representation Cell V) where
  | her (alpha : DenseBlasRealType V) (x : DenseBlasVectorView type) (matrix : RankStorage type)
  | her2 (alpha : V) (x y : DenseBlasVectorView type) (matrix : RankStorage type)
  | syr (alpha : V) (x : DenseBlasVectorView type) (matrix : RankStorage type)
  | syr2 (alpha : V) (x y : DenseBlasVectorView type) (matrix : RankStorage type)
  | herk (transposition : DenseBlasTranspose) (alpha : DenseBlasRealType V)
    (input : DenseBlasMatrixView type) (beta : DenseBlasRealType V)
    (output : DenseBlasMatrixView type)
  | her2k (transposition : DenseBlasTranspose) (alpha : V) (left right : DenseBlasMatrixView type)
    (beta : DenseBlasRealType V) (output : DenseBlasMatrixView type)
  | syrk (transposition : DenseBlasTranspose) (alpha : V) (input : DenseBlasMatrixView type)
    (beta : V) (output : DenseBlasMatrixView type)
  | syr2k (transposition : DenseBlasTranspose) (alpha : V) (left right : DenseBlasMatrixView type)
    (beta : V) (output : DenseBlasMatrixView type)

namespace RankCall

def run (context : ExecutionContext) (triangle : DenseBlasTriangle) :
    RankCall type → Effect (Nat → Cell) Unit
  | .her alpha x matrix => matrix.her context triangle alpha x
  | .her2 alpha x y matrix => matrix.her2 context triangle alpha x y
  | .syr alpha x matrix => matrix.syr context triangle alpha x
  | .syr2 alpha x y matrix => matrix.syr2 context triangle alpha x y
  | .herk transposition alpha input beta output =>
    Blas.herk context triangle transposition output alpha input beta
  | .her2k transposition alpha left right beta output =>
    Blas.her2k context triangle transposition alpha left right output beta
  | .syrk transposition alpha input beta output =>
    Blas.syrk context triangle transposition alpha output input beta
  | .syr2k transposition alpha left right beta output =>
    Blas.syr2k context triangle transposition alpha left right output beta

/-- The checks of `RankOne`. -/
def validateRankOne (context : ExecutionContext) (x : DenseBlasVectorView type)
    (matrix : RankOperand) : Result Unit := do
  validateRankUpdate context x x matrix
  failIf (x.size ≠ matrix.order)
    { code := .shape, message := "A rank-update vector has the wrong length" }

/-- The checks of `RankTwo`. -/
def validateRankTwo (context : ExecutionContext) (x y : DenseBlasVectorView type)
    (matrix : RankOperand) : Result Unit := do
  validateRankUpdate context x y matrix
  failIf (x.size ≠ matrix.order ∨ y.size ≠ matrix.order)
    { code := .shape, message := "A rank-two update vector has the wrong length" }

/-- The checks of an update, before it touches the memory. -/
def validate (context : ExecutionContext) (triangle : DenseBlasTriangle) :
    RankCall type → Result Unit
  | .her _ x matrix => do
    matrix.checkSquare "Hermitian"
    validateRankOne context x (matrix.operand triangle)
  | .her2 _ x y matrix => do
    matrix.checkSquare "Hermitian"
    validateRankTwo context x y (matrix.operand triangle)
  | .syr _ x matrix => do
    matrix.checkSquare "symmetric"
    validateRankOne context x (matrix.operand triangle)
  | .syr2 _ x y matrix => do
    matrix.checkSquare "symmetric"
    validateRankTwo context x y (matrix.operand triangle)
  | .herk transposition _ input _ output =>
    validateHermitianRankK context transposition input input output
  | .her2k transposition _ left right _ output =>
    validateHermitianRankK context transposition left right output
  | .syrk transposition _ input _ output =>
    validateSymmetricRankK (V := V) context transposition input input output
  | .syr2k transposition _ left right _ output =>
    validateSymmetricRankK (V := V) context transposition left right output

def storage : RankCall type → RankStorage type
  | .her _ _ matrix | .her2 _ _ _ matrix | .syr _ _ matrix | .syr2 _ _ _ matrix => matrix
  | .herk _ _ _ _ output | .her2k _ _ _ _ _ output | .syrk _ _ _ _ output
  | .syr2k _ _ _ _ _ output => .full output

def hermitian : RankCall type → Bool
  | .her .. | .her2 .. | .herk .. | .her2k .. => true
  | .syr .. | .syr2 .. | .syrk .. | .syr2k .. => false

/-- Every descriptor comes from `Create`. -/
def Created : RankCall type → Prop
  | .her _ x matrix | .syr _ x matrix => x.Checked ∧ matrix.Created
  | .her2 _ x y matrix | .syr2 _ x y matrix => x.Checked ∧ y.Checked ∧ matrix.Created
  | .herk _ _ input _ output | .syrk _ _ input _ output => input.Checked ∧ output.Checked
  | .her2k _ _ left right _ output | .syr2k _ _ left right _ output =>
    left.Checked ∧ right.Checked ∧ output.Checked

/-- The updates of level 2 return without a write for `alpha` zero. -/
def Skipped : RankCall type → Prop
  | .her alpha _ _ => alpha.val = 0
  | .her2 alpha _ _ _ | .syr alpha _ _ | .syr2 alpha _ _ _ => alpha = 0
  | .herk .. | .her2k .. | .syrk .. | .syr2k .. => False

/-- The factor of the old elements. -/
def beta : RankCall type → V
  | .her .. | .her2 .. | .syr .. | .syr2 .. => 1
  | .herk _ _ _ beta _ | .her2k _ _ _ _ beta _ => beta.val
  | .syrk _ _ _ beta _ | .syr2k _ _ _ _ beta _ => beta

/-- The matrix that the update adds to a matrix of some order. -/
def update (call : RankCall type) (order : Nat) (memory : Nat → Cell) :
    Matrix (Fin order) (Fin order) V :=
  match call with
  | .her alpha x _ =>
    alpha.val • vecMulVec (elements x order memory) (star (elements x order memory))
  | .her2 alpha x y _ =>
    alpha • vecMulVec (elements x order memory) (star (elements y order memory)) +
      star alpha • vecMulVec (elements y order memory) (star (elements x order memory))
  | .syr alpha x _ => alpha • vecMulVec (elements x order memory) (elements x order memory)
  | .syr2 alpha x y _ =>
    alpha • vecMulVec (elements x order memory) (elements y order memory) +
      alpha • vecMulVec (elements y order memory) (elements x order memory)
  | .herk transposition alpha input _ _ =>
    let A := operand transposition input order (innerSize transposition input) memory
    alpha.val • (A * Aᴴ)
  | .her2k transposition alpha left right _ _ =>
    let A := operand transposition left order (innerSize transposition left) memory
    let B := operand transposition right order (innerSize transposition left) memory
    alpha • (A * Bᴴ) + star alpha • (B * Aᴴ)
  | .syrk transposition alpha input _ _ =>
    let A := operand transposition input order (innerSize transposition input) memory
    alpha • (A * Aᵀ)
  | .syr2k transposition alpha left right _ _ =>
    let A := operand transposition left order (innerSize transposition left) memory
    let B := operand transposition right order (innerSize transposition left) memory
    alpha • (A * Bᵀ + B * Aᵀ)

omit [ExactScalar V] [DecidableEq V] in
theorem update_reflected (call : RankCall type) (order : Nat) (memory : Nat → Cell) :
    Reflected call.hermitian (call.update order memory) := by
  intro row column
  -- The vectors are compared entry by entry, the products of matrices as matrices.
  cases call with
  | her alpha x matrix =>
    simp only [hermitian, update, if_true, Matrix.smul_apply, vecMulVec_apply, smul_eq_mul,
      Pi.star_apply, star_mul', star_star, alpha.property]
    ring
  | her2 alpha x y matrix =>
    simp only [hermitian, update, if_true, Matrix.smul_apply, Matrix.add_apply, vecMulVec_apply,
      smul_eq_mul, Pi.star_apply, star_add, star_mul', star_star]
    ring
  | syr alpha x matrix =>
    simp only [hermitian, update, Bool.false_eq_true, if_false, Matrix.smul_apply,
      vecMulVec_apply, smul_eq_mul]
    ring
  | syr2 alpha x y matrix =>
    simp only [hermitian, update, Bool.false_eq_true, if_false, Matrix.smul_apply,
      Matrix.add_apply, vecMulVec_apply, smul_eq_mul]
    ring
  | herk transposition alpha input beta output =>
    rw [hermitian, if_pos rfl, ← conjTranspose_apply]
    simp only [update, conjTranspose_smul, conjTranspose_mul, conjTranspose_conjTranspose,
      alpha.property]
  | her2k transposition alpha left right beta output =>
    rw [hermitian, if_pos rfl, ← conjTranspose_apply]
    simp only [update, conjTranspose_add, conjTranspose_smul, conjTranspose_mul,
      conjTranspose_conjTranspose, star_star, add_comm]
  | syrk transposition alpha input beta output =>
    rw [hermitian, if_neg Bool.false_ne_true, ← transpose_apply (update _ _ _)]
    simp only [update, transpose_smul, transpose_mul, transpose_transpose]
  | syr2k transposition alpha left right beta output =>
    rw [hermitian, if_neg Bool.false_ne_true, ← transpose_apply (update _ _ _)]
    simp only [update, transpose_add, transpose_smul, transpose_mul, transpose_transpose, add_comm]

/-- What an update that succeeds leaves behind. -/
structure Leaves (call : RankCall type) (triangle : DenseBlasTriangle)
    (memory memory' : Nat → Cell) : Prop where
  checked : call.storage.Checked
  untouched : (call.storage.family checked triangle).Untouched memory memory'
  skipped : call.Skipped → memory' = memory
  values : ¬ call.Skipped → ∀ item,
    (call.storage.family checked triangle).values memory' item =
      call.update call.storage.order.toNat memory item.1.1 item.1.2 +
        call.beta * kept call.hermitian item ((call.storage.family checked triangle).values memory item)
  /-- The inputs are apart from the output. -/
  stable : ∀ memory'', (call.storage.family checked triangle).Untouched memory memory'' →
    call.update call.storage.order.toNat memory'' = call.update call.storage.order.toNat memory

variable {memory' : Nat → Cell}

/-- The shared part of `her` and `syr`. -/
theorem rankOne_leaves {storage : RankStorage type} (hstorage : storage.Checked) (hx : x.Checked)
    {alpha : V} {hermitian : Bool} (halpha : hermitian = true → star alpha = alpha)
    (hrun : (rankOne context triangle alpha x (storage.operand triangle) hermitian).exec memory =
      some (.ok (), memory')) :
    (storage.family hstorage triangle).Untouched memory memory' ∧ (alpha = 0 → memory' = memory) ∧
      (alpha ≠ 0 → ∀ item, (storage.family hstorage triangle).values memory' item =
        (alpha • vecMulVec (elements x storage.order.toNat memory)
          (conjugated hermitian (elements x storage.order.toNat memory))) item.1.1 item.1.2 +
            1 * kept hermitian item ((storage.family hstorage triangle).values memory item)) ∧
      ∀ memory'', (storage.family hstorage triangle).Untouched memory memory'' →
        elements x storage.order.toNat memory'' = elements x storage.order.toNat memory := by
  have hrest := hrun
  rw [rankOne, Effect.exec_ofResult_bind_ok_iff, Effect.exec_ofResult_bind_ok_iff,
    Result.failIf_eq_ok_iff, not_not, storage.operand_order] at hrest
  rcases hrest with ⟨hvalid, hsize, hloop⟩
  -- The checks keep the operands apart from the storage, so no round changes them.
  have hstable : ∀ memory'', (storage.family hstorage triangle).Untouched memory memory'' →
      elements x storage.order.toNat memory'' = elements x storage.order.toNat memory := by
    intro memory'' huntouched
    simp only [validateRankUpdate, Result.unit_bind_eq_ok_iff, Result.failIf_eq_ok_iff, not_or,
      Bool.not_eq_true] at hvalid
    funext index
    exact value_of_untouched hstorage hx hsize hvalid.2.2.2.2.1 huntouched index
  -- A zero factor returns before the loop.
  by_cases hzero : alpha = 0
  · rw [if_pos hzero] at hloop
    cases hloop
    exact ⟨.refl memory, fun _ => rfl, fun hnonzero => absurd hzero hnonzero, hstable⟩
  · rcases rankOne_updates hstorage hx hvalid hsize halpha hzero with ⟨last, hlast, hframe, hvalues⟩
    cases hrun.symm.trans hlast
    refine ⟨hframe, fun hskipped => absurd hskipped hzero, fun _ item => ?_, hstable⟩
    rw [one_mul]
    exact congrFun hvalues item

/-- The shared part of `her2` and `syr2`. -/
theorem rankTwo_leaves {storage : RankStorage type} (hstorage : storage.Checked) (hx : x.Checked)
    (hy : y.Checked) {alpha : V} {hermitian : Bool}
    (hrun : (rankTwo context triangle alpha x y (storage.operand triangle) hermitian).exec memory =
      some (.ok (), memory')) :
    (storage.family hstorage triangle).Untouched memory memory' ∧ (alpha = 0 → memory' = memory) ∧
      (alpha ≠ 0 → ∀ item, (storage.family hstorage triangle).values memory' item =
        (alpha • vecMulVec (elements x storage.order.toNat memory)
            (conjugated hermitian (elements y storage.order.toNat memory)) +
          (if hermitian then star alpha else alpha) •
            vecMulVec (elements y storage.order.toNat memory)
              (conjugated hermitian (elements x storage.order.toNat memory))) item.1.1 item.1.2 +
            1 * kept hermitian item ((storage.family hstorage triangle).values memory item)) ∧
      ∀ memory'', (storage.family hstorage triangle).Untouched memory memory'' →
        elements x storage.order.toNat memory'' = elements x storage.order.toNat memory ∧
          elements y storage.order.toNat memory'' = elements y storage.order.toNat memory := by
  have hrest := hrun
  rw [rankTwo, Effect.exec_ofResult_bind_ok_iff, Effect.exec_ofResult_bind_ok_iff,
    Result.failIf_eq_ok_iff, not_or, not_not, not_not, storage.operand_order] at hrest
  rcases hrest with ⟨hvalid, ⟨hxsize, hysize⟩, hloop⟩
  have hstable : ∀ memory'', (storage.family hstorage triangle).Untouched memory memory'' →
      elements x storage.order.toNat memory'' = elements x storage.order.toNat memory ∧
        elements y storage.order.toNat memory'' = elements y storage.order.toNat memory := by
    intro memory'' huntouched
    simp only [validateRankUpdate, Result.unit_bind_eq_ok_iff, Result.failIf_eq_ok_iff, not_or,
      Bool.not_eq_true] at hvalid
    constructor
    · funext index
      exact value_of_untouched hstorage hx hxsize hvalid.2.2.2.2.1 huntouched index
    · funext index
      exact value_of_untouched hstorage hy hysize hvalid.2.2.2.2.2 huntouched index
  -- A zero factor returns before the loop.
  by_cases hzero : alpha = 0
  · rw [if_pos hzero] at hloop
    cases hloop
    exact ⟨.refl memory, fun _ => rfl, fun hnonzero => absurd hzero hnonzero, hstable⟩
  · rcases rankTwo_updates hstorage hx hy hvalid hxsize hysize hzero with
      ⟨last, hlast, hframe, hvalues⟩
    cases hrun.symm.trans hlast
    refine ⟨hframe, fun hskipped => absurd hskipped hzero, fun _ item => ?_, hstable⟩
    rw [one_mul]
    exact congrFun hvalues item

omit [DecidableEq V] in
/-- The inputs of a rank-k update are apart from its output. -/
theorem operand_of_untouched (houtput : (RankStorage.full output).Checked) (hleft : left.Checked)
    (hright : right.Checked) (hvalid : validateRankK context left right output = .ok ())
    (horder : output.rows = outputSize transposition left.rows left.columns)
    (huntouched : ((RankStorage.full output).family houtput triangle).Untouched memory memory') :
    operand transposition left output.rows.toNat (innerSize transposition left) memory' =
        operand transposition left output.rows.toNat (innerSize transposition left) memory ∧
      operand transposition right output.rows.toNat (innerSize transposition left) memory' =
        operand transposition right output.rows.toNat (innerSize transposition left) memory := by
  have hinner := innerSize_eq hleft transposition
  have hnow := rankK_operands houtput hleft hright hvalid horder huntouched hinner
  have hthen := rankK_operands houtput hleft hright hvalid horder
    (@ElementFamily.Untouched.refl _ _ _ _ ((RankStorage.full output).family houtput triangle) memory')
    hinner
  constructor
  · ext row column
    exact (hthen row column).1.symm.trans (hnow row column).1
  · ext row column
    exact (hthen row column).2.symm.trans (hnow row column).2

omit [DecidableEq V] in
theorem full_checked_of_symmetric (houtput : output.Checked)
    (hvalid : validateSymmetricRankK (V := V) context transposition left right output = .ok ()) :
    (RankStorage.full output).Checked := by
  simp only [validateSymmetricRankK, Result.unit_bind_eq_ok_iff] at hvalid
  exact ⟨houtput, (validateRankK_spec hvalid.2.1).2.2.2.2⟩

omit [CommRing V] [StarRing V] [ExactScalar V] [DecidableEq V] in
theorem full_checked_of_hermitian (houtput : output.Checked)
    (hvalid : validateHermitianRankK context transposition left right output = .ok ()) :
    (RankStorage.full output).Checked := by
  simp only [validateHermitianRankK, Result.unit_bind_eq_ok_iff] at hvalid
  exact ⟨houtput, (validateRankK_spec hvalid.2.1).2.2.2.2⟩

/-- The shared part of `syrk` and `syr2k`. -/
theorem symmetricRankK_leaves (houtput : output.Checked) (hleft : left.Checked)
    (hright : right.Checked) {alpha beta : V} {rankTwo : Bool}
    (hrun : (symmetricRankK context triangle transposition alpha left right output beta
      rankTwo).exec memory = some (.ok (), memory')) :
    ∃ hstorage : (RankStorage.full output).Checked,
      ((RankStorage.full output).family hstorage triangle).Untouched memory memory' ∧
      (∀ item, ((RankStorage.full output).family hstorage triangle).values memory' item =
        symmetricUpdate alpha
          (operand transposition left output.rows.toNat (innerSize transposition left) memory)
          (operand transposition right output.rows.toNat (innerSize transposition left) memory)
          rankTwo item.1.1 item.1.2 +
            beta * ((RankStorage.full output).family hstorage triangle).values memory item) ∧
      ∀ memory'', ((RankStorage.full output).family hstorage triangle).Untouched memory memory'' →
        operand transposition left output.rows.toNat (innerSize transposition left) memory'' =
            operand transposition left output.rows.toNat (innerSize transposition left) memory ∧
          operand transposition right output.rows.toNat (innerSize transposition left) memory'' =
            operand transposition right output.rows.toNat (innerSize transposition left) memory := by
  have hrest := hrun
  rw [symmetricRankK, Effect.exec_ofResult_bind_ok_iff] at hrest
  have hchecks := hrest.1
  simp only [validateSymmetricRankK, Result.unit_bind_eq_ok_iff, Result.failIf_eq_ok_iff,
    not_not] at hchecks
  have hstorage := full_checked_of_symmetric houtput hrest.1
  -- The run is the one of the lemma, since a run has one result.
  rcases @symmetricRankK_updates _ _ _ _ _ _ _ triangle memory _ _ _ _ _ hstorage hleft hright
    alpha beta rankTwo hrest.1 with ⟨last, hlast, hframe, hvalues⟩
  cases hrun.symm.trans hlast
  exact ⟨hstorage, hframe, fun item => congrFun hvalues item, fun memory'' huntouched =>
    operand_of_untouched hstorage hleft hright hchecks.2.1 hchecks.2.2 huntouched⟩

omit [ExactScalar V] [DecidableEq V] in
theorem herk_reflected (transposition : DenseBlasTranspose) (alpha : DenseBlasRealType V)
    (input : DenseBlasMatrixView type) (order : Nat) (memory : Nat → Cell) :
    Reflected true (hermitianUpdate alpha.val
      (operand transposition input order (innerSize transposition input) memory)
      (operand transposition input order (innerSize transposition input) memory) false) := by
  simp only [hermitianUpdate, Bool.false_eq_true, if_false, add_zero]
  exact update_reflected (herk transposition alpha input alpha input) order memory

/-- The shared part of `herk` and `her2k`. -/
theorem hermitianRankK_leaves (houtput : output.Checked) (hleft : left.Checked)
    (hright : right.Checked) {alpha beta : V} {rankTwo : Bool} (hbeta : star beta = beta)
    (hrun : (hermitianRankK context triangle transposition alpha left right output beta
      rankTwo).exec memory = some (.ok (), memory'))
    (hupdate : ∀ order, Reflected true (hermitianUpdate alpha
      (operand transposition left order (innerSize transposition left) memory)
      (operand transposition right order (innerSize transposition left) memory) rankTwo)) :
    ∃ hstorage : (RankStorage.full output).Checked,
      ((RankStorage.full output).family hstorage triangle).Untouched memory memory' ∧
      (∀ item, ((RankStorage.full output).family hstorage triangle).values memory' item =
        hermitianUpdate alpha
          (operand transposition left output.rows.toNat (innerSize transposition left) memory)
          (operand transposition right output.rows.toNat (innerSize transposition left) memory)
          rankTwo item.1.1 item.1.2 + beta * kept true item
            (((RankStorage.full output).family hstorage triangle).values memory item)) ∧
      ∀ memory'', ((RankStorage.full output).family hstorage triangle).Untouched memory memory'' →
        operand transposition left output.rows.toNat (innerSize transposition left) memory'' =
            operand transposition left output.rows.toNat (innerSize transposition left) memory ∧
          operand transposition right output.rows.toNat (innerSize transposition left) memory'' =
            operand transposition right output.rows.toNat (innerSize transposition left) memory := by
  have hrest := hrun
  rw [hermitianRankK, Effect.exec_ofResult_bind_ok_iff] at hrest
  have hchecks := hrest.1
  simp only [validateHermitianRankK, Result.unit_bind_eq_ok_iff, Result.failIf_eq_ok_iff,
    not_not] at hchecks
  have hstorage := full_checked_of_hermitian houtput hrest.1
  rcases @hermitianRankK_updates _ _ _ _ _ _ _ triangle memory _ _ _ _ _ hstorage hleft hright
    alpha beta rankTwo hrest.1 hbeta (hupdate _) with ⟨last, hlast, hframe, hvalues⟩
  cases hrun.symm.trans hlast
  exact ⟨hstorage, hframe, fun item => congrFun hvalues item, fun memory'' huntouched =>
    operand_of_untouched hstorage hleft hright hchecks.2.1 hchecks.2.2 huntouched⟩

theorem leaves (call : RankCall type) (hcreated : call.Created)
    (hrun : (call.run context triangle).exec memory = some (.ok (), memory')) :
    call.Leaves triangle memory memory' := by
  -- The vector updates skip on a zero factor, the products of matrices never do.
  cases call with
  | her alpha x matrix =>
    rw [run, RankStorage.her_eq, Effect.exec_ofResult_bind_ok_iff] at hrun
    rcases hrun with ⟨hsquare, hrun⟩
    have hstorage := RankStorage.checked_of_square hcreated.2 hsquare
    rcases rankOne_leaves hstorage hcreated.1 (fun _ => alpha.property) hrun with
      ⟨hframe, hskipped, hvalues, hstable⟩
    refine ⟨hstorage, hframe, hskipped, hvalues, fun memory'' huntouched => ?_⟩
    simp only [update, storage, hstable memory'' huntouched]
  | her2 alpha x y matrix =>
    rw [run, RankStorage.her2_eq, Effect.exec_ofResult_bind_ok_iff] at hrun
    rcases hrun with ⟨hsquare, hrun⟩
    have hstorage := RankStorage.checked_of_square hcreated.2.2 hsquare
    rcases rankTwo_leaves hstorage hcreated.1 hcreated.2.1 hrun with
      ⟨hframe, hskipped, hvalues, hstable⟩
    refine ⟨hstorage, hframe, hskipped, hvalues, fun memory'' huntouched => ?_⟩
    simp only [update, storage, hstable memory'' huntouched]
  | syr alpha x matrix =>
    rw [run, RankStorage.syr_eq, Effect.exec_ofResult_bind_ok_iff] at hrun
    rcases hrun with ⟨hsquare, hrun⟩
    have hstorage := RankStorage.checked_of_square hcreated.2 hsquare
    rcases rankOne_leaves hstorage hcreated.1 (fun h => absurd h Bool.false_ne_true) hrun with
      ⟨hframe, hskipped, hvalues, hstable⟩
    refine ⟨hstorage, hframe, hskipped, hvalues, fun memory'' huntouched => ?_⟩
    simp only [update, storage, hstable memory'' huntouched]
  | syr2 alpha x y matrix =>
    rw [run, RankStorage.syr2_eq, Effect.exec_ofResult_bind_ok_iff] at hrun
    rcases hrun with ⟨hsquare, hrun⟩
    have hstorage := RankStorage.checked_of_square hcreated.2.2 hsquare
    rcases rankTwo_leaves hstorage hcreated.1 hcreated.2.1 hrun with
      ⟨hframe, hskipped, hvalues, hstable⟩
    refine ⟨hstorage, hframe, hskipped, hvalues, fun memory'' huntouched => ?_⟩
    simp only [update, storage, hstable memory'' huntouched]
  | herk transposition alpha input beta output =>
    have hupdate := fun order => herk_reflected transposition alpha input order memory
    rcases hermitianRankK_leaves hcreated.2 hcreated.1 hcreated.1 beta.property hrun hupdate with
      ⟨hstorage, hframe, hvalues, hstable⟩
    simp only [hermitianUpdate, Bool.false_eq_true, if_false, add_zero] at hvalues
    refine ⟨hstorage, hframe, False.elim, fun _ => hvalues, fun memory'' huntouched => ?_⟩
    have hoperand := (hstable memory'' huntouched).1
    simp only [update, storage, RankStorage.order, hoperand]
  | her2k transposition alpha left right beta output =>
    have hupdate := fun order => update_reflected
      (her2k transposition alpha left right beta output) order memory
    rcases hermitianRankK_leaves hcreated.2.2 hcreated.1 hcreated.2.1 beta.property hrun
      hupdate with ⟨hstorage, hframe, hvalues, hstable⟩
    refine ⟨hstorage, hframe, False.elim, fun _ => hvalues, fun memory'' huntouched => ?_⟩
    have hoperands := hstable memory'' huntouched
    simp only [update, storage, RankStorage.order, hoperands.1, hoperands.2]
  | syrk transposition alpha input beta output =>
    rcases symmetricRankK_leaves hcreated.2 hcreated.1 hcreated.1 hrun with
      ⟨hstorage, hframe, hvalues, hstable⟩
    simp only [symmetricUpdate, Bool.false_eq_true, if_false, add_zero] at hvalues
    refine ⟨hstorage, hframe, False.elim, fun _ item => ?_, fun memory'' huntouched => ?_⟩
    · rw [kept, if_neg fun hboth => Bool.false_ne_true hboth.1]
      exact hvalues item
    · have hoperand := (hstable memory'' huntouched).1
      simp only [update, storage, RankStorage.order, hoperand]
  | syr2k transposition alpha left right beta output =>
    rcases symmetricRankK_leaves hcreated.2.2 hcreated.1 hcreated.2.1 hrun with
      ⟨hstorage, hframe, hvalues, hstable⟩
    refine ⟨hstorage, hframe, False.elim, fun _ item => ?_, fun memory'' huntouched => ?_⟩
    · rw [kept, if_neg fun hboth => Bool.false_ne_true hboth.1]
      exact hvalues item
    · have hoperands := hstable memory'' huntouched
      simp only [update, storage, RankStorage.order, hoperands.1, hoperands.2]

/-! ## Calls that pass their checks -/

theorem rankOne_eq (alpha : V) (x : DenseBlasVectorView type) (matrix : RankOperand)
    (hermitian : Bool) :
    ∃ rest, rankOne context triangle alpha x matrix hermitian =
      (Effect.ofResult (validateRankOne context x matrix) >>= fun _ => rest) := by
  simp only [validateRankOne, Effect.ofResult_bind]
  exact ⟨_, rfl⟩

theorem rankTwo_eq (alpha : V) (x y : DenseBlasVectorView type) (matrix : RankOperand)
    (hermitian : Bool) :
    ∃ rest, rankTwo context triangle alpha x y matrix hermitian =
      (Effect.ofResult (validateRankTwo context x y matrix) >>= fun _ => rest) := by
  simp only [validateRankTwo, Effect.ofResult_bind]
  exact ⟨_, rfl⟩

/-- An update begins with its checks. -/
theorem run_eq (call : RankCall type) :
    ∃ rest, call.run context triangle =
      (Effect.ofResult (call.validate context triangle) >>= fun _ => rest) := by
  cases call with
  | her alpha x matrix =>
    rcases @rankOne_eq _ _ _ _ _ _ _ context triangle alpha.val x (matrix.operand triangle) true with
      ⟨rest, hrest⟩
    exact ⟨rest, by rw [run, RankStorage.her_eq, hrest, validate, Effect.ofResult_bind]⟩
  | her2 alpha x y matrix =>
    rcases @rankTwo_eq _ _ _ _ _ _ _ context triangle alpha x y (matrix.operand triangle) true with
      ⟨rest, hrest⟩
    exact ⟨rest, by rw [run, RankStorage.her2_eq, hrest, validate, Effect.ofResult_bind]⟩
  | syr alpha x matrix =>
    rcases @rankOne_eq _ _ _ _ _ _ _ context triangle alpha x (matrix.operand triangle) false with
      ⟨rest, hrest⟩
    exact ⟨rest, by rw [run, RankStorage.syr_eq, hrest, validate, Effect.ofResult_bind]⟩
  | syr2 alpha x y matrix =>
    rcases @rankTwo_eq _ _ _ _ _ _ _ context triangle alpha x y (matrix.operand triangle) false with
      ⟨rest, hrest⟩
    exact ⟨rest, by rw [run, RankStorage.syr2_eq, hrest, validate, Effect.ofResult_bind]⟩
  | herk transposition alpha input beta output => exact ⟨_, rfl⟩
  | her2k transposition alpha left right beta output => exact ⟨_, rfl⟩
  | syrk transposition alpha input beta output => exact ⟨_, rfl⟩
  | syr2k transposition alpha left right beta output => exact ⟨_, rfl⟩

theorem rankOne_completes {storage : RankStorage type} (hstorage : storage.Checked)
    (hx : x.Checked) {alpha : V} {hermitian : Bool} (halpha : hermitian = true → star alpha = alpha)
    (hvalid : validateRankOne context x (storage.operand triangle) = .ok ()) :
    ∃ memory', (rankOne context triangle alpha x (storage.operand triangle) hermitian).exec memory =
      some (.ok (), memory') := by
  have hchecks := hvalid
  rw [validateRankOne, Result.unit_bind_eq_ok_iff] at hchecks
  by_cases hzero : alpha = 0
  · refine ⟨memory, ?_⟩
    rw [rankOne, Effect.exec_ofResult_bind_ok_iff, Effect.exec_ofResult_bind_ok_iff, if_pos hzero]
    exact ⟨hchecks.1, hchecks.2, rfl⟩
  · have hsize := not_not.1 (Result.failIf_eq_ok_iff.1 hchecks.2)
    rw [storage.operand_order] at hsize
    rcases rankOne_updates hstorage hx hchecks.1 hsize halpha hzero with ⟨memory', hrun, -⟩
    exact ⟨memory', hrun⟩

theorem rankTwo_completes {storage : RankStorage type} (hstorage : storage.Checked)
    (hx : x.Checked) (hy : y.Checked) {alpha : V} {hermitian : Bool}
    (hvalid : validateRankTwo context x y (storage.operand triangle) = .ok ()) :
    ∃ memory', (rankTwo context triangle alpha x y (storage.operand triangle) hermitian).exec
      memory = some (.ok (), memory') := by
  have hchecks := hvalid
  rw [validateRankTwo, Result.unit_bind_eq_ok_iff] at hchecks
  by_cases hzero : alpha = 0
  · refine ⟨memory, ?_⟩
    rw [rankTwo, Effect.exec_ofResult_bind_ok_iff, Effect.exec_ofResult_bind_ok_iff, if_pos hzero]
    exact ⟨hchecks.1, hchecks.2, rfl⟩
  · have hsizes := Result.failIf_eq_ok_iff.1 hchecks.2
    rw [storage.operand_order, not_or, not_not, not_not] at hsizes
    rcases rankTwo_updates hstorage hx hy hchecks.1 hsizes.1 hsizes.2 hzero with
      ⟨memory', hrun, -⟩
    exact ⟨memory', hrun⟩

/-- Past its checks an update comes to its end. -/
theorem run_completes (call : RankCall type) (hcreated : call.Created)
    (hvalid : call.validate context triangle = .ok ()) :
    ∃ memory', (call.run context triangle).exec memory = some (.ok (), memory') := by
  cases call with
  | her alpha x matrix =>
    rw [validate, Result.unit_bind_eq_ok_iff] at hvalid
    have hstorage := RankStorage.checked_of_square hcreated.2 hvalid.1
    rw [run, RankStorage.her_eq, hvalid.1, Effect.ofResult_ok_bind]
    exact rankOne_completes hstorage hcreated.1 (fun _ => alpha.property) hvalid.2
  | her2 alpha x y matrix =>
    rw [validate, Result.unit_bind_eq_ok_iff] at hvalid
    have hstorage := RankStorage.checked_of_square hcreated.2.2 hvalid.1
    rw [run, RankStorage.her2_eq, hvalid.1, Effect.ofResult_ok_bind]
    exact rankTwo_completes hstorage hcreated.1 hcreated.2.1 hvalid.2
  | syr alpha x matrix =>
    rw [validate, Result.unit_bind_eq_ok_iff] at hvalid
    have hstorage := RankStorage.checked_of_square hcreated.2 hvalid.1
    rw [run, RankStorage.syr_eq, hvalid.1, Effect.ofResult_ok_bind]
    exact rankOne_completes hstorage hcreated.1 (fun h => absurd h Bool.false_ne_true) hvalid.2
  | syr2 alpha x y matrix =>
    rw [validate, Result.unit_bind_eq_ok_iff] at hvalid
    have hstorage := RankStorage.checked_of_square hcreated.2.2 hvalid.1
    rw [run, RankStorage.syr2_eq, hvalid.1, Effect.ofResult_ok_bind]
    exact rankTwo_completes hstorage hcreated.1 hcreated.2.1 hvalid.2
  | herk transposition alpha input beta output =>
    have hstorage := full_checked_of_hermitian hcreated.2 hvalid
    rcases @hermitianRankK_updates _ _ _ _ _ _ _ triangle memory _ _ _ _ _ hstorage hcreated.1
      hcreated.1 alpha.val beta.val false hvalid beta.property (herk_reflected _ _ _ _ _) with
      ⟨memory', hrun, -⟩
    exact ⟨memory', hrun⟩
  | her2k transposition alpha left right beta output =>
    have hstorage := full_checked_of_hermitian hcreated.2.2 hvalid
    have hupdate := fun order => update_reflected
      (her2k transposition alpha left right beta output) order memory
    rcases @hermitianRankK_updates _ _ _ _ _ _ _ triangle memory _ _ _ _ _ hstorage hcreated.1
      hcreated.2.1 alpha beta.val true hvalid beta.property (hupdate _) with ⟨memory', hrun, -⟩
    exact ⟨memory', hrun⟩
  | syrk transposition alpha input beta output =>
    have hstorage := full_checked_of_symmetric hcreated.2 hvalid
    rcases @symmetricRankK_updates _ _ _ _ _ _ _ triangle memory _ _ _ _ _ hstorage hcreated.1
      hcreated.1 alpha beta false hvalid with ⟨memory', hrun, -⟩
    exact ⟨memory', hrun⟩
  | syr2k transposition alpha left right beta output =>
    have hstorage := full_checked_of_symmetric hcreated.2.2 hvalid
    rcases @symmetricRankK_updates _ _ _ _ _ _ _ triangle memory _ _ _ _ _ hstorage hcreated.1
      hcreated.2.1 alpha beta true hvalid with ⟨memory', hrun, -⟩
    exact ⟨memory', hrun⟩

omit [ExactScalar V] [DecidableEq V] in
theorem beta_real (call : RankCall type) (h : call.hermitian = true) :
    star call.beta = call.beta := by
  cases call with
  | her | her2 => exact star_one V
  | herk _ _ _ beta _ | her2k _ _ _ _ beta _ => exact beta.property
  | syr | syr2 | syrk | syr2k => cases h

/-! ## Both triangles -/

/-- The same update with the same inputs, of two storages. -/
inductive SameInputs : RankCall type → RankCall type → Prop
  | her (alpha x matrix matrix') : SameInputs (.her alpha x matrix) (.her alpha x matrix')
  | her2 (alpha x y matrix matrix') : SameInputs (.her2 alpha x y matrix) (.her2 alpha x y matrix')
  | syr (alpha x matrix matrix') : SameInputs (.syr alpha x matrix) (.syr alpha x matrix')
  | syr2 (alpha x y matrix matrix') : SameInputs (.syr2 alpha x y matrix) (.syr2 alpha x y matrix')
  | herk (transposition alpha input beta output output') :
    SameInputs (.herk transposition alpha input beta output)
      (.herk transposition alpha input beta output')
  | her2k (transposition alpha left right beta output output') :
    SameInputs (.her2k transposition alpha left right beta output)
      (.her2k transposition alpha left right beta output')
  | syrk (transposition alpha input beta output output') :
    SameInputs (.syrk transposition alpha input beta output)
      (.syrk transposition alpha input beta output')
  | syr2k (transposition alpha left right beta output output') :
    SameInputs (.syr2k transposition alpha left right beta output)
      (.syr2k transposition alpha left right beta output')

instance : (call : RankCall type) → Decidable call.Skipped
  | .her alpha _ _ => inferInstanceAs (Decidable (alpha.val = 0))
  | .her2 alpha _ _ _ | .syr alpha _ _ | .syr2 alpha _ _ _ => inferInstanceAs (Decidable (alpha = 0))
  | .herk .. | .her2k .. | .syrk .. | .syr2k .. => inferInstanceAs (Decidable False)

/-- What an update makes of a whole matrix. -/
def next (call : RankCall type) {order : Nat} (memory : Nat → Cell)
    (matrix : Matrix (Fin order) (Fin order) V) : Matrix (Fin order) (Fin order) V :=
  if call.Skipped then matrix else call.update order memory + call.beta • matrix

omit [ExactScalar V] in
theorem next_reflected (call : RankCall type) {order : Nat} (memory : Nat → Cell)
    {matrix : Matrix (Fin order) (Fin order) V} (h : Reflected call.hermitian matrix) :
    Reflected call.hermitian (call.next memory matrix) := by
  unfold next
  split
  · exact h
  · intro row column
    have hupdate := call.update_reflected order memory row column
    have hmatrix := h row column
    have hbeta := call.beta_real
    simp only [Matrix.add_apply, Matrix.smul_apply, smul_eq_mul, hupdate, hmatrix]
    cases hhermitian : call.hermitian with
    | true => simp only [if_true, star_add, star_mul', hbeta hhermitian]
    | false => simp only [Bool.false_eq_true, if_false]

omit [ExactScalar V] in
theorem SameInputs.next_eq {first second : RankCall type} (h : SameInputs first second)
    {order : Nat} (memory : Nat → Cell) (matrix : Matrix (Fin order) (Fin order) V) :
    second.next memory matrix = first.next memory matrix := by
  cases h <;> rfl

omit [ExactScalar V] [DecidableEq V] in
theorem SameInputs.hermitian_eq {first second : RankCall type} (h : SameInputs first second) :
    second.hermitian = first.hermitian := by
  cases h <;> rfl

end RankCall

/-- The element of a triangle. -/
def RankStorage.value (storage : RankStorage type) (triangle : DenseBlasTriangle)
    (memory : Nat → Cell) (row column : Int) : V :=
  type.load memory ((storage.operand triangle).reference row column)

/-- A triangle of the storage is that of a matrix. -/
def RankStorage.Holds {order : Nat} (storage : RankStorage type) (triangle : DenseBlasTriangle)
    (memory : Nat → Cell) (matrix : Matrix (Fin order) (Fin order) V) : Prop :=
  storage.order = order ∧ ∀ row column : Fin order, InTriangle triangle row.val column.val →
    storage.value triangle memory row.val column.val = matrix row column

def opposite : DenseBlasTriangle → DenseBlasTriangle
  | .upper => .lower
  | .lower => .upper

theorem inTriangle_opposite (triangle : DenseBlasTriangle) (row column : Int) :
    InTriangle (opposite triangle) row column ↔ InTriangle triangle column row := by
  cases triangle <;> exact Iff.rfl

namespace RankCall

/-- The triangle that a call updates becomes that of the reference expression. -/
theorem Leaves.holds {call : RankCall type} {memory' : Nat → Cell}
    (h : call.Leaves triangle memory memory') {order : Nat}
    {matrix : Matrix (Fin order) (Fin order) V} (hmatrix : Reflected call.hermitian matrix)
    (hholds : call.storage.Holds triangle memory matrix) :
    call.storage.Holds triangle memory' (call.next memory matrix) := by
  rcases hholds with ⟨horder, hvalues⟩
  obtain rfl : order = call.storage.order.toNat := by omega
  refine ⟨horder, fun row column hin => ?_⟩
  have haddress := RankStorage.family_address h.checked ⟨(row, column), hin⟩
  have hold : (call.storage.family h.checked triangle).values memory ⟨(row, column), hin⟩ =
      matrix row column := by
    rw [← hvalues row column hin]
    exact congrArg (type.load memory) haddress
  have hnew : call.storage.value triangle memory' row.val column.val =
      (call.storage.family h.checked triangle).values memory' ⟨(row, column), hin⟩ :=
    congrArg (type.load memory') haddress.symm
  rw [hnew, next]
  split
  · rename_i hskipped
    have hmemory := h.skipped hskipped
    exact (congrArg (fun memory => (call.storage.family h.checked triangle).values memory _)
      hmemory).trans hold
  · rename_i hskipped
    -- The diagonal of a Hermitian matrix is real, so dropping imaginary parts keeps it.
    have hkept : kept call.hermitian (⟨(row, column), hin⟩ : TriangleIndex triangle _)
        (matrix row column) = matrix row column := by
      unfold kept
      split
      · rename_i hboth
        have hdiagonal : row = column := hboth.2
        subst hdiagonal
        have hself := hmatrix row row
        rw [if_pos hboth.1] at hself
        exact ExactScalar.realPart_of_star _ hself.symm
      · rfl
    rw [h.values hskipped, hold, hkept]
    rfl

theorem Leaves.next_eq {call : RankCall type} {memory' : Nat → Cell}
    (h : call.Leaves triangle memory memory') {order : Nat} (horder : call.storage.order = order)
    (matrix : Matrix (Fin order) (Fin order) V) :
    call.next memory' matrix = call.next memory matrix := by
  obtain rfl : order = call.storage.order.toNat := by omega
  unfold next
  rw [h.stable memory' h.untouched]

omit [DecidableEq V] in
/-- A storage apart from the output keeps its triangle. -/
theorem Leaves.holds_apart {call : RankCall type} {memory' : Nat → Cell}
    (h : call.Leaves triangle memory memory') {other : RankStorage type} (hother : other.Checked)
    {triangle' : DenseBlasTriangle}
    (hapart : (other.operand triangle').reachableStorage.block.Disjoint
      (call.storage.operand triangle).reachableStorage.block) {order : Nat}
    {matrix : Matrix (Fin order) (Fin order) V} (hholds : other.Holds triangle' memory matrix) :
    other.Holds triangle' memory' matrix := by
  rcases hholds with ⟨horder, hvalues⟩
  obtain rfl : order = other.order.toNat := by omega
  refine ⟨horder, fun row column hin => (Eq.symm ?_).trans (hvalues row column hin)⟩
  have hagree := agreeOn_of_untouched (RankStorage.family_inside h.checked) hapart h.untouched
  have hinside := RankStorage.family_inside hother ⟨(row, column), hin⟩
  have haddress := RankStorage.family_address hother ⟨(row, column), hin⟩
  rw [haddress] at hinside
  apply type.load_congr
  intro cell hfirst hlast
  exact hagree cell (hinside.1.trans hfirst) (hlast.trans_le hinside.2)

omit [CommRing V] [StarRing V] [ExactScalar V] [DecidableEq V] in
/-- Full storage keeps its elements outside the triangle. -/
theorem value_outside (h : (RankStorage.full output).Checked) {memory' : Nat → Cell}
    (huntouched : ((RankStorage.full output).family h triangle).Untouched memory memory')
    {row column : Fin output.rows.toNat} (hout : ¬ InTriangle triangle row.val column.val) :
    output.value memory' row.val column.val = output.value memory row.val column.val := by
  have hlt : ∀ index : Fin output.rows.toNat, index.val < output.columns.toNat := fun index => by
    rw [← h.2]
    exact index.isLt
  apply huntouched.load_eq
  intro item
  apply (output.family h.1).apart (row, ⟨column.val, hlt column⟩) (item.1.1, ⟨item.1.2.val, hlt _⟩)
  intro heq
  have hrow : row = item.1.1 := (Prod.mk.inj heq).1
  have hcolumn : column = item.1.2 := Fin.ext (Fin.mk.inj (Prod.mk.inj heq).2)
  subst hrow hcolumn
  exact hout item.2

theorem inTriangle_self (triangle : DenseBlasTriangle) (row : Int) : InTriangle triangle row row := by
  cases triangle <;> exact le_refl row

theorem not_inTriangle_of_opposite {row column : Int} (h : InTriangle (opposite triangle) row column)
    (hne : row ≠ column) : ¬ InTriangle triangle row column := by
  rw [inTriangle_opposite] at h
  unfold InTriangle at *
  cases triangle <;> simp only at * <;> omega

theorem opposite_opposite (triangle : DenseBlasTriangle) : opposite (opposite triangle) = triangle := by
  cases triangle <;> rfl

/-- The matrix between the two runs, as the second triangle sees it. -/
def between (call : RankCall type) {order : Nat} (memory : Nat → Cell)
    (matrix : Matrix (Fin order) (Fin order) V) : Matrix (Fin order) (Fin order) V :=
  fun row column =>
    if row = column then call.next memory matrix row column else matrix row column

omit [ExactScalar V] in
theorem between_reflected (call : RankCall type) {order : Nat} (memory : Nat → Cell)
    {matrix : Matrix (Fin order) (Fin order) V} (h : Reflected call.hermitian matrix) :
    Reflected call.hermitian (call.between memory matrix) := by
  intro row column
  by_cases hdiagonal : row = column
  · subst hdiagonal
    simpa only [between, if_true] using call.next_reflected memory h row row
  · simpa only [between, if_neg hdiagonal, if_neg (Ne.symm hdiagonal)] using h row column

omit [ExactScalar V] in
theorem next_between (call : RankCall type) {order : Nat} (memory : Nat → Cell)
    (matrix : Matrix (Fin order) (Fin order) V) {row column : Fin order} (hne : row ≠ column) :
    call.next memory (call.between memory matrix) row column =
      call.next memory matrix row column := by
  unfold next
  split
  · exact if_neg hne
  · simp only [Matrix.add_apply, Matrix.smul_apply, between, if_neg hne]

/-- One run on each triangle of the same full storage. -/
theorem both_full {first second : RankCall type} (hsame : SameInputs first second)
    (hfirst : first.storage = .full output) (hsecond : second.storage = .full output)
    {middle memory' : Nat → Cell} (h : first.Leaves triangle memory middle)
    (h' : second.Leaves (opposite triangle) middle memory') {order : Nat}
    {matrix : Matrix (Fin order) (Fin order) V} (hmatrix : Reflected first.hermitian matrix)
    (hholds : first.storage.Holds triangle memory matrix)
    (hholds' : second.storage.Holds (opposite triangle) memory matrix) :
    first.storage.Holds triangle memory' (first.next memory (first.between memory matrix)) ∧
      second.storage.Holds (opposite triangle) memory'
        (first.next memory (first.between memory matrix)) := by
  -- The second update adds the same matrix, as its inputs are apart from the output.
  have hnext : second.next middle (first.between memory matrix) =
      first.next memory (first.between memory matrix) :=
    (hsame.next_eq middle _).trans (h.next_eq hholds.1 _)
  have hframe : ∃ hchecked : (RankStorage.full output).Checked,
      ((RankStorage.full output).family hchecked triangle).Untouched memory middle := by
    rw [← hfirst]
    exact ⟨h.checked, h.untouched⟩
  have hframe' : ∃ hchecked : (RankStorage.full output).Checked,
      ((RankStorage.full output).family hchecked (opposite triangle)).Untouched middle memory' := by
    rw [← hsecond]
    exact ⟨h'.checked, h'.untouched⟩
  have hstep := h.holds hmatrix hholds
  have hlast : second.storage.Holds (opposite triangle) middle (first.between memory matrix) →
      second.storage.Holds (opposite triangle) memory'
        (first.next memory (first.between memory matrix)) := by
    intro hmiddle
    rw [← hnext]
    exact h'.holds (hsame.hermitian_eq ▸ first.between_reflected memory hmatrix) hmiddle
  rw [hfirst] at hholds hstep ⊢
  rw [hsecond] at hholds' hlast ⊢
  rcases hframe with ⟨hchecked, hframe⟩
  rcases hframe' with ⟨_, hframe'⟩
  obtain rfl : order = output.rows.toNat := by
    have horder : output.rows = (order : Int) := hholds.1
    omega
  have hopposite : (RankStorage.full output).Holds (opposite triangle) memory'
      (first.next memory (first.between memory matrix)) := by
    refine hlast ⟨hholds'.1, fun row column hin => ?_⟩
    by_cases hdiagonal : row = column
    · subst hdiagonal
      exact (hstep.2 row row (inTriangle_self _ _)).trans (if_pos rfl).symm
    · -- The first run is not concerned with the elements beside the diagonal.
      have hne : (row.val : Int) ≠ column.val := fun heq => hdiagonal (Fin.ext (Int.ofNat.inj heq))
      have hkept := value_outside hchecked hframe (not_inTriangle_of_opposite hin hne)
      exact hkept.trans ((hholds'.2 row column hin).trans (if_neg hdiagonal).symm)
  -- On the diagonal the second run has the last word; beside it, it is not concerned.
  refine ⟨⟨hholds.1, fun row column hin => ?_⟩, hopposite⟩
  by_cases hdiagonal : row = column
  · subst hdiagonal
    exact hopposite.2 row row (inTriangle_self _ _)
  · have hne : (row.val : Int) ≠ column.val := fun heq => hdiagonal (Fin.ext (Int.ofNat.inj heq))
    have hout := @not_inTriangle_of_opposite (opposite triangle) _ _
      ((opposite_opposite triangle).symm ▸ hin) hne
    have hkept := value_outside hchecked hframe' hout
    exact hkept.trans ((hstep.2 row column hin).trans (first.next_between memory matrix hdiagonal).symm)

/-- One run on each triangle of two storages that are apart. -/
theorem both_apart {first second : RankCall type} (hsame : SameInputs first second)
    (hapart : (first.storage.operand triangle).reachableStorage.block.Disjoint
      (second.storage.operand (opposite triangle)).reachableStorage.block)
    {middle memory' : Nat → Cell} (h : first.Leaves triangle memory middle)
    (h' : second.Leaves (opposite triangle) middle memory') {order : Nat}
    {matrix : Matrix (Fin order) (Fin order) V} (hmatrix : Reflected first.hermitian matrix)
    (hholds : first.storage.Holds triangle memory matrix)
    (hholds' : second.storage.Holds (opposite triangle) memory matrix) :
    first.storage.Holds triangle memory' (first.next memory matrix) ∧
      second.storage.Holds (opposite triangle) memory' (first.next memory matrix) := by
  have hother := h.holds_apart h'.checked hapart.symm hholds'
  have hnext : second.next middle matrix = first.next memory matrix :=
    (hsame.next_eq middle matrix).trans (h.next_eq hholds.1 matrix)
  constructor
  · exact h'.holds_apart h.checked hapart (h.holds hmatrix hholds)
  · rw [← hnext]
    exact h'.holds (hsame.hermitian_eq ▸ hmatrix) hother

end RankCall

/-- A call that a check rejects changes nothing, and one that passes its checks succeeds.  A run that
succeeds changes no cell outside the triangle, leaves the reference expression in it, and real numbers
on the diagonal of a Hermitian one.  One run on each triangle of a symmetric or Hermitian matrix, in
full storage or in two storages apart, leaves a symmetric or Hermitian matrix. -/
theorem rank_update_correct (type : Representation Cell V) :
    (∀ (call : RankCall type) (context : ExecutionContext) (triangle : DenseBlasTriangle)
        (memory : Nat → Cell), call.Created →
      (∀ status, call.validate context triangle = .error status →
        (call.run context triangle).exec memory = some (.error status, memory)) ∧
      (call.validate context triangle = .ok () →
        ∃ memory', (call.run context triangle).exec memory = some (.ok (), memory'))) ∧
    (∀ (call : RankCall type) (context : ExecutionContext) (triangle : DenseBlasTriangle)
        (memory memory' : Nat → Cell), call.Created →
      (call.run context triangle).exec memory = some (.ok (), memory') →
      ∃ hchecked : call.storage.Checked,
        (call.storage.family hchecked triangle).Untouched memory memory' ∧
        (call.Skipped → memory' = memory) ∧
        (¬ call.Skipped → ∀ item,
          (call.storage.family hchecked triangle).values memory' item =
            call.update call.storage.order.toNat memory item.1.1 item.1.2 + call.beta *
              kept call.hermitian item ((call.storage.family hchecked triangle).values memory item) ∧
          (call.hermitian = true → item.1.1 = item.1.2 →
            star ((call.storage.family hchecked triangle).values memory' item) =
              (call.storage.family hchecked triangle).values memory' item))) ∧
    ∀ (first second : RankCall type) (context : ExecutionContext) (triangle : DenseBlasTriangle)
        (memory middle memory' : Nat → Cell), first.SameInputs second → first.Created →
      second.Created →
      ((∃ output, first.storage = .full output ∧ second.storage = .full output) ∨
        overlap (first.storage.operand triangle).reachableStorage
          (second.storage.operand (opposite triangle)).reachableStorage = false) →
      (first.run context triangle).exec memory = some (.ok (), middle) →
      (second.run context (opposite triangle)).exec middle = some (.ok (), memory') →
      ∀ (order : Nat) (matrix : Matrix (Fin order) (Fin order) V),
        Reflected first.hermitian matrix →
        first.storage.Holds triangle memory matrix →
        second.storage.Holds (opposite triangle) memory matrix →
        ∃ result : Matrix (Fin order) (Fin order) V, Reflected first.hermitian result ∧
          (∀ row column, row ≠ column →
            result row column = first.next memory matrix row column) ∧
          first.storage.Holds triangle memory' result ∧
          second.storage.Holds (opposite triangle) memory' result := by
  refine ⟨?_, ?_, ?_⟩
  · intro call context triangle memory hcreated
    refine ⟨fun status hinvalid => ?_, call.run_completes hcreated⟩
    rcases @RankCall.run_eq _ _ _ _ _ _ _ context triangle call with ⟨rest, hrest⟩
    rw [hrest, Effect.exec_ofResult_bind, hinvalid]
  · intro call context triangle memory memory' hcreated hrun
    have h := call.leaves hcreated hrun
    refine ⟨h.checked, h.untouched, h.skipped, fun hskipped item => ⟨h.values hskipped item, ?_⟩⟩
    intro hhermitian hdiagonal
    have hself := call.update_reflected call.storage.order.toNat memory item.1.2 item.1.2
    rw [if_pos hhermitian] at hself
    rw [h.values hskipped item, hdiagonal, star_add, ← hself, star_mul', call.beta_real hhermitian,
      kept, if_pos ⟨hhermitian, hdiagonal⟩, ExactScalar.star_realPart]
  · intro first second context triangle memory middle memory' hsame hcreated hcreated' hstorage
      hrun hrun' order matrix hmatrix hholds hholds'
    have h := first.leaves hcreated hrun
    have h' := second.leaves hcreated' hrun'
    -- On one storage the diagonal is updated twice; on two it is updated once in each.
    rcases hstorage with ⟨output, hfirst, hsecond⟩ | hoverlap
    · exact ⟨_, first.next_reflected memory (first.between_reflected memory hmatrix),
        fun row column hne => first.next_between memory matrix hne,
        RankCall.both_full hsame hfirst hsecond h h' hmatrix hholds hholds'⟩
    · exact ⟨_, first.next_reflected memory hmatrix, fun _ _ _ => rfl,
        RankCall.both_apart hsame (overlap_eq_false hoverlap) h h' hmatrix hholds hholds'⟩

end Exact

/-- `A += x xᵀ` in full storage. -/
def sampleCall : RankCall float64 := .syr 1 sampleVector (.full sampleFull)

theorem rank_update_sample : ∃ middle memory' : Nat → Rat,
    (sampleCall.run .serial .upper).exec (fun _ => 3) = some (.ok (), middle) ∧
    (sampleCall.run .serial .lower).exec middle = some (.ok (), memory') ∧
    ∃ result : Matrix (Fin 2) (Fin 2) Rat, Reflected false result ∧
      sampleCall.storage.Holds .upper memory' result ∧
      sampleCall.storage.Holds .lower memory' result := by
  refine ⟨_, _, rfl, rfl, ?_⟩
  rcases (rank_update_correct float64).2.2 sampleCall sampleCall .serial .upper (fun _ => 3) _ _
    (.syr 1 sampleVector _ _) ⟨rfl, rfl⟩ ⟨rfl, rfl⟩ (.inl ⟨sampleFull, rfl, rfl⟩) rfl rfl 2
    (fun _ _ => 3) (fun _ _ => rfl) ⟨rfl, fun _ _ _ => rfl⟩ ⟨rfl, fun _ _ _ => rfl⟩ with
    ⟨result, hreflected, -, hupper, hlower⟩
  exact ⟨result, hreflected, hupper, hlower⟩

end Blas
end Dense
end AscCpp
