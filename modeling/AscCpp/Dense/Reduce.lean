import AscCpp.Dense.Evaluate
import AscCpp.Random.LogicalElement

/-!
# Reduce — sums, minima and maxima of dense views

A reduction goes through the elements of a view in the order of their numbers.

- `reduction_eq`: the loop is a fold over the elements.
- `foldlM_addReductionValue`: a checked sum exists when all sums on the way do.
- `reduction_correct`: the order of the loop, and what the reductions return.
-/

namespace AscCpp
namespace Dense

open AscCpp.Core Library AscCpp.Random

variable {Cell V S : Type} {rank : Nat}

/-! ## The loop of a reduction -/

/-- The elements of a view, in the order of their numbers. -/
def DenseView.contents {type : Representation Cell V} (source : DenseView type rank)
    (memory : Nat → Cell) : List V :=
  (boxCoordinates source.mapping.extents).map fun coordinates =>
    type.load memory (source.addressOf coordinates)

/-- The loop that the reductions share: each element changes the captured state. -/
def reduction {type : Representation Cell V} (source : DenseView type rank) (memory : Nat → Cell)
    (step : S → V → Result S) (start : S) : Result S := do
  let loop : StateT S Result Unit := forEachCoordinate source.mapping.extents fun coordinates => do
    let element ← StateT.lift (source.elementAt coordinates)
    let result ← get
    let next ← StateT.lift (step result (type.load memory element))
    set next
  let outcome ← loop.run start
  .ok outcome.2

/-- A loop whose rounds change the state by a step is a fold. -/
theorem run_forM {α : Type} {items : List α} {body : α → StateT S Result Unit}
    {step : S → α → Result S}
    (hround : ∀ item ∈ items, ∀ state, (body item).run state = (do
      let next ← step state item
      .ok ((), next)))
    (state : S) :
    (forM items body : StateT S Result Unit).run state = (do
      let last ← items.foldlM step state
      .ok ((), last)) := by
  induction items generalizing state with
  | nil => rfl
  | cons item items ih =>
    rw [List.forall_mem_cons] at hround
    rw [List.forM_cons, StateT.run_bind, hround.1, List.foldlM_cons]
    cases step state item with
    | error status => rfl
    | ok next => exact ih hround.2 next

/-- One round of a reduction, at an element that exists. -/
theorem run_round (load : Nat → V) (step : S → V → Result S) (address : Nat) (state : S) :
    (do
      let element ← StateT.lift (.ok address)
      let result ← get
      let next ← StateT.lift (step result (load element))
      set next : StateT S Result Unit).run state = (do
        let next ← step state (load address)
        .ok ((), next)) := by
  simp only [StateT.run_bind, StateT.run_lift, StateT.run_get, StateT.run_set, Result.ok_bind,
    bind_assoc, pure_bind]
  cases step state (load address) <;> rfl

theorem reduction_eq {type : Representation Cell V} {source : DenseView type rank}
    (hhost : source.memorySpace = .host) (memory : Nat → Cell) (step : S → V → Result S) (start : S) :
    reduction source memory step start = (source.contents memory).foldlM step start := by
  have hround : ∀ number ∈ List.range (boxSize source.mapping.extents), ∀ state,
      (do
        let element ← StateT.lift
          (source.elementAt (coordinateAt source.mapping.extents number))
        let result ← get
        let next ← StateT.lift (step result (type.load memory element))
        set next : StateT S Result Unit).run state = (do
          let next ← step state
            (type.load memory (source.addressOf (coordinateAt source.mapping.extents number)))
          .ok ((), next)) := by
    intro number hnumber state
    have hbounds := coordinateAt_inBounds source.mapping (List.mem_range.1 hnumber)
    rw [DenseView.elementAt_ok hhost hbounds]
    exact run_round _ _ _ _
  rw [reduction, forEachCoordinate_eq, run_forM hround start, DenseView.contents, boxCoordinates,
    List.map_map, List.foldlM_map, bind_assoc]
  exact bind_pure _

/-! ## Integers -/

variable {integer : IntegerType} {type : Representation Cell integer.Value}

/-- `AddReductionValue` of an integral type. -/
def addReductionValue (accumulator value : integer.Value) : Result integer.Value :=
  match h : checkedAdd integer accumulator.val value.val with
  | .error status => .error status
  | .ok next =>
    .ok ⟨next, by
      rw [checkedAdd_eq accumulator.property value.property] at h
      split at h
      · cases h
        assumption
      · cases h⟩

/-- `Value result{}`. -/
def zeroValue (integer : IntegerType) : integer.Value :=
  ⟨0, integer.representable_zero⟩

def reduceSum (context : ExecutionContext) (source : DenseView type rank) (memory : Nat → Cell) :
    Result integer.Value := do
  validateContext context source.memorySpace
  reduction source memory addReductionValue (zeroValue integer)

/-- One round of `ReduceMin` and `ReduceMax`: whether there is a result, and the result. -/
def extremumStep (better : Int → Int → Bool) (state : Bool × integer.Value)
    (element : integer.Value) : Bool × integer.Value :=
  if state.1 = false ∨ better element.val state.2.val then (true, element) else state

def reduceExtremum (kind : String) (better : Int → Int → Bool) (context : ExecutionContext)
    (source : DenseView type rank) (memory : Nat → Cell) : Result integer.Value := do
  validateContext context source.memorySpace
  failIf (source.mapping.logicalSize = 0)
    { code := .invalidArgument, message := kind ++ " of an empty DenseView is undefined" }
  let outcome ← reduction source memory
    (fun state element => .ok (extremumStep better state element)) (false, zeroValue integer)
  .ok outcome.2

def reduceMin (context : ExecutionContext) (source : DenseView type rank) (memory : Nat → Cell) :
    Result integer.Value :=
  reduceExtremum "Minimum" (fun element result => element < result) context source memory

def reduceMax (context : ExecutionContext) (source : DenseView type rank) (memory : Nat → Cell) :
    Result integer.Value :=
  reduceExtremum "Maximum" (fun element result => element > result) context source memory

theorem addReductionValue_eq (accumulator value : integer.Value) :
    addReductionValue accumulator value =
      if h : integer.Representable (accumulator.val + value.val) then
        .ok (⟨_, h⟩ : integer.Value)
      else .error additionOverflow := by
  have hadd := checkedAdd_eq accumulator.property value.property
  unfold addReductionValue
  split
  · rename_i status hstatus
    rw [hadd] at hstatus
    split at hstatus
    · cases hstatus
    · rename_i hout
      cases hstatus
      rw [dif_neg hout]
  · rename_i next hnext
    rw [hadd] at hnext
    split at hnext
    · rename_i hin
      cases hnext
      rw [dif_pos hin]
    · cases hnext

/-- The sum of the first few values, from a start. -/
def prefixSum (start : Int) (values : List integer.Value) (count : Nat) : Int :=
  start + ((values.take count).map fun value => value.val).sum

theorem prefixSum_cons (start : Int) (value : integer.Value) (values : List integer.Value)
    (count : Nat) :
    prefixSum start (value :: values) (count + 1) = prefixSum (start + value.val) values count := by
  simp only [prefixSum, List.take_succ_cons, List.map_cons, List.sum_cons, add_assoc]

/-- A checked sum exists when every sum on the way is representable, and then it is exact. -/
theorem foldlM_addReductionValue (values : List integer.Value) (start : integer.Value) :
    ((∀ count ≤ values.length, integer.Representable (prefixSum start.val values count)) →
      ∃ total : integer.Value, values.foldlM addReductionValue start = .ok total ∧
        total.val = prefixSum start.val values values.length) ∧
    ((∃ count ≤ values.length, ¬ integer.Representable (prefixSum start.val values count)) →
      values.foldlM addReductionValue start = .error additionOverflow) := by
  -- The first partial sum that does not fit decides; the rest is a sum from the next start.
  induction values generalizing start with
  | nil =>
    constructor
    · intro _
      exact ⟨start, rfl, by simp [prefixSum]⟩
    · rintro ⟨count, -, hout⟩
      exact absurd (by simpa [prefixSum] using start.property) hout
  | cons value values ih =>
    rw [List.foldlM_cons, addReductionValue_eq]
    by_cases hin : integer.Representable (start.val + value.val)
    · rw [dif_pos hin]
      rcases ih ⟨_, hin⟩ with ⟨hsum, hoverflow⟩
      constructor
      · intro hall
        rcases hsum fun count hcount => by
          simpa only [prefixSum_cons] using hall (count + 1) (Nat.succ_le_succ hcount) with
          ⟨total, hrun, htotal⟩
        exact ⟨total, hrun, by rw [htotal, List.length_cons, prefixSum_cons]⟩
      · rintro ⟨count, hcount, hout⟩
        apply hoverflow
        rcases count with _ | count
        · exact absurd (by simpa [prefixSum] using start.property) hout
        · exact ⟨count, Nat.le_of_succ_le_succ hcount, by simpa only [prefixSum_cons] using hout⟩
    · rw [dif_neg hin]
      constructor
      · intro hall
        have hfirst := hall 1 (by simp)
        rw [prefixSum_cons] at hfirst
        exact absurd (by simpa [prefixSum] using hfirst) hin
      · intro _
        rfl

/-- From a first result on, the loop keeps a value of the greatest rating so far. -/
theorem foldl_extremumStep {better : Int → Int → Bool} {rating : Int → Int}
    (hbetter : ∀ first second, better first second = true ↔ rating second < rating first)
    (values : List integer.Value) (result : integer.Value) :
    ∃ best ∈ result :: values, values.foldl (extremumStep better) (true, result) = (true, best) ∧
      rating result.val ≤ rating best.val ∧
      ∀ value ∈ values, rating value.val ≤ rating best.val := by
  induction values generalizing result with
  | nil => exact ⟨result, List.mem_cons_self, rfl, le_rfl, fun _ hmem => by cases hmem⟩
  | cons value values ih =>
    rw [List.foldl_cons, extremumStep]
    -- A better value takes the place of the result; otherwise the result bounds the value.
    by_cases hreplace : better value.val result.val = true
    · have hless := (hbetter _ _).1 hreplace
      rcases ih value with ⟨best, hmem, hrun, hvalue, hvalues⟩
      rw [if_pos (Or.inr hreplace)]
      refine ⟨best, List.mem_cons_of_mem _ hmem, hrun, by omega, ?_⟩
      intro other hother
      rcases List.mem_cons.1 hother with rfl | hlater
      · exact hvalue
      · exact hvalues other hlater
    · have hkept : rating value.val ≤ rating result.val :=
        not_lt.1 fun hless => hreplace ((hbetter _ _).2 hless)
      rcases ih result with ⟨best, hmem, hrun, hresult, hvalues⟩
      rw [if_neg (by simpa using hreplace)]
      refine ⟨best, ?_, hrun, hresult, ?_⟩
      · rcases List.mem_cons.1 hmem with rfl | hlater
        · exact List.mem_cons_self
        · exact List.mem_cons_of_mem _ (List.mem_cons_of_mem _ hlater)
      · intro other hother
        rcases List.mem_cons.1 hother with rfl | hlater
        · omega
        · exact hvalues other hlater

section Views

variable {context : ExecutionContext} {source : DenseView type rank} {memory : Nat → Cell}

theorem contents_length (source : DenseView type rank) (memory : Nat → Cell) :
    (source.contents memory).length = boxSize source.mapping.extents := by
  rw [DenseView.contents, List.length_map, boxCoordinates, List.length_map, List.length_range]

theorem reduceSum_eq (hvalid : validateContext context source.memorySpace = .ok ()) :
    reduceSum context source memory =
      (source.contents memory).foldlM addReductionValue (zeroValue integer) := by
  rw [reduceSum, hvalid]
  exact reduction_eq (validateContext_ok_iff.1 hvalid).2 memory _ _

theorem reduceExtremum_eq {kind : String} {better : Int → Int → Bool}
    (hvalid : validateContext context source.memorySpace = .ok ())
    (hsize : source.mapping.logicalSize ≠ 0) :
    reduceExtremum kind better context source memory =
      .ok ((source.contents memory).foldl (extremumStep better) (false, zeroValue integer)).2 := by
  have hloop := reduction_eq (validateContext_ok_iff.1 hvalid).2 memory
    (fun state element => (.ok (extremumStep better state element) : Result _))
    (false, zeroValue integer)
  rw [Result.foldlM_ok] at hloop
  rw [reduceExtremum, hvalid, failIf, if_neg hsize]
  exact congrArg (fun result : Result (Bool × integer.Value) => result.bind fun outcome =>
    .ok outcome.2) hloop

/-- Of a view with elements an extremum is attained, and nothing has a greater rating. -/
theorem reduceExtremum_spec {kind : String} {better : Int → Int → Bool} {rating : Int → Int}
    (hbetter : ∀ first second, better first second = true ↔ rating second < rating first)
    (hvalid : validateContext context source.memorySpace = .ok ())
    (hsize : source.mapping.logicalSize ≠ 0) :
    ∃ best ∈ source.contents memory,
      reduceExtremum kind better context source memory = .ok best ∧
      ∀ value ∈ source.contents memory, rating value.val ≤ rating best.val := by
  rw [reduceExtremum_eq hvalid hsize]
  cases hcontents : source.contents memory with
  | nil =>
    have hbox : boxSize source.mapping.extents = 0 := by
      rw [← contents_length source memory, hcontents, List.length_nil]
    rcases boxSize_eq_zero_iff.1 hbox with ⟨dimension, hle⟩
    have hextent := source.mapping.extents_pos hsize dimension
    omega
  | cons value values =>
    rcases foldl_extremumStep hbetter values value with ⟨best, hmem, hrun, hfirst, hlater⟩
    refine ⟨best, hmem, ?_, ?_⟩
    · rw [List.foldl_cons, extremumStep, if_pos (Or.inl rfl), hrun]
    · intro other hother
      rcases List.mem_cons.1 hother with rfl | hother
      · exact hfirst
      · exact hlater other hother

end Views

/-! ## The order and the results -/

/-- What the loop over the coordinates of a box does. -/
structure VisitsInOrder (extents : Shape rank) : Prop where
  visits : ∀ {m : Type → Type} [Monad m] [LawfulMonad m] (function : List.Vector Int rank → m Unit),
    forEachCoordinate extents function = forM (boxCoordinates extents) function
  /-- The loop ends by itself, however many rounds it may take. -/
  ends : (∀ dimension, extents.get dimension ≠ 0) →
    ∀ {m : Type → Type} [Monad m] [LawfulMonad m] (function : List.Vector Int rank → m Unit) (steps : Nat),
      boxSize extents ≤ steps →
        walkWithin (advance extents) function steps (List.Vector.replicate rank 0) = (do
          forEachCoordinate extents function
          pure true)
  once : (boxCoordinates extents).Nodup
  all : ∀ coordinates, coordinates ∈ boxCoordinates extents ↔
    ∀ dimension, 0 ≤ coordinates.get dimension ∧ coordinates.get dimension < extents.get dimension
  numbered : ∀ number (hnumber : number < (boxCoordinates extents).length),
    (boxCoordinates extents)[number] = coordinateAt extents number
  ordered : (boxCoordinates extents).Pairwise ComesBefore
  empty : (∃ dimension, extents.get dimension = 0) → boxCoordinates extents = []

theorem visitsInOrder {extents : Shape rank} (hextents : ∀ dimension, 0 ≤ extents.get dimension) :
    VisitsInOrder extents where
  visits function := by
    rw [forEachCoordinate_eq, boxCoordinates, List.forM_map]
  ends hnonempty _ _ _ function steps hsteps := by
    apply walkWithin_coordinates _ function hsteps
    intro dimension
    have hnonneg := hextents dimension
    have hne := hnonempty dimension
    omega
  once := boxCoordinates_nodup extents
  all _ := mem_boxCoordinates_iff
  numbered number hnumber := by
    simp only [boxCoordinates, List.getElem_map, List.getElem_range]
  ordered := by
    rw [boxCoordinates, List.pairwise_map]
    apply List.pairwise_lt_range.imp_of_mem
    intro number number' _ hnumber' hlt
    exact coordinateAt_comesBefore hlt (List.mem_range.1 hnumber')
  empty hzero := by
    rcases hzero with ⟨dimension, hdimension⟩
    have hbox := boxSize_eq_zero_iff.2 ⟨dimension, hdimension.le⟩
    rw [boxCoordinates, hbox, List.range_zero, List.map_nil]

theorem reduceSum_ok_iff {context : ExecutionContext} {source : DenseView type rank}
    {memory : Nat → Cell} {total : integer.Value} :
    reduceSum context source memory = .ok total ↔
      validateContext context source.memorySpace = .ok () ∧
        (∀ count ≤ (source.contents memory).length,
          integer.Representable (prefixSum 0 (source.contents memory) count)) ∧
        total.val = ((source.contents memory).map fun value => value.val).sum := by
  have hwhole : prefixSum 0 (source.contents memory) (source.contents memory).length =
      ((source.contents memory).map fun value => value.val).sum := by
    rw [prefixSum, List.take_length, zero_add]
  rcases foldlM_addReductionValue (source.contents memory) (zeroValue integer) with
    ⟨hsum, hoverflow⟩
  constructor
  · intro hrun
    have hvalid : validateContext context source.memorySpace = .ok () := by
      rw [reduceSum, Result.unit_bind_eq_ok_iff] at hrun
      exact hrun.1
    rw [reduceSum_eq hvalid] at hrun
    -- Either every partial sum fits, or the loop has stopped with the overflow.
    by_cases hall : ∀ count ≤ (source.contents memory).length,
        integer.Representable (prefixSum 0 (source.contents memory) count)
    · rcases hsum hall with ⟨exact, hexact, hvalue⟩
      cases hexact.symm.trans hrun
      exact ⟨hvalid, hall, hvalue.trans hwhole⟩
    · push Not at hall
      cases (hoverflow hall).symm.trans hrun
  · rintro ⟨hvalid, hall, htotal⟩
    rcases hsum hall with ⟨exact, hexact, hvalue⟩
    rw [reduceSum_eq hvalid, hexact]
    exact congrArg _ (Subtype.ext (hvalue.trans (hwhole.trans htotal.symm)))

/-- The elements of a view, from what can be read at its coordinates. -/
theorem contents_congr {Cell' : Type} {type : Representation Cell V} {type' : Representation Cell' V}
    {source : DenseView type rank} {source' : DenseView type' rank} {memory : Nat → Cell}
    {memory' : Nat → Cell'} (hhost : source.memorySpace = .host)
    (hspace : source'.memorySpace = source.memorySpace)
    (hextents : source'.mapping.extents = source.mapping.extents)
    (hread : ∀ coordinates, source'.read memory' coordinates = source.read memory coordinates) :
    source'.contents memory' = source.contents memory := by
  rw [DenseView.contents, DenseView.contents, hextents]
  apply List.map_congr_left
  intro coordinates hmem
  have hbounds : source.mapping.InBounds coordinates := mem_boxCoordinates_iff.1 hmem
  have hbounds' : source'.mapping.InBounds coordinates := by
    intro dimension
    rw [hextents]
    exact hbounds dimension
  have hvalue := hread coordinates
  rw [DenseView.read_eq (hspace.trans hhost) hbounds', DenseView.read_eq hhost hbounds] at hvalue
  exact Option.some.inj hvalue

/-- The loop over a box visits the coordinate with the number `k` in round `k`, and that is where the
generators find their element `k`.  A checked sum returns when all sums on the way are representable,
an extremum is attained and bounds the elements, and neither depends on where the elements stand. -/
theorem reduction_correct (integer : IntegerType) :
    (∀ {rank : Nat} (extents : Shape rank), (∀ dimension, 0 ≤ extents.get dimension) →
      VisitsInOrder extents) ∧
    boxCoordinates (List.Vector.nil : Shape 0) = [List.Vector.nil] ∧
    (∀ {Cell V : Type} {type : Representation Cell V} {rank : Nat} (view : DenseView type rank)
        (number : Nat) (hnumber : number < (boxCoordinates view.mapping.extents).length),
      logicalElement view number =
          view.addressOf (boxCoordinates view.mapping.extents)[number] ∧
        (view.memorySpace = .host →
          view.elementAt (boxCoordinates view.mapping.extents)[number] =
            .ok (logicalElement view number))) ∧
    (∀ {Cell : Type} {type : Representation Cell integer.Value} {rank : Nat}
        (context : ExecutionContext) (source : DenseView type rank) (memory : Nat → Cell),
      (∀ total, reduceSum context source memory = .ok total ↔
        validateContext context source.memorySpace = .ok () ∧
          (∀ count ≤ (source.contents memory).length,
            integer.Representable (prefixSum 0 (source.contents memory) count)) ∧
          total.val = ((source.contents memory).map fun value => value.val).sum) ∧
      (validateContext context source.memorySpace = .ok () → source.mapping.logicalSize ≠ 0 →
        (∃ least ∈ source.contents memory, reduceMin context source memory = .ok least ∧
          ∀ value ∈ source.contents memory, least.val ≤ value.val) ∧
        (∃ greatest ∈ source.contents memory, reduceMax context source memory = .ok greatest ∧
          ∀ value ∈ source.contents memory, value.val ≤ greatest.val))) ∧
    (∀ {Cell Cell' : Type} {type : Representation Cell integer.Value}
        {type' : Representation Cell' integer.Value} {rank : Nat} (context : ExecutionContext)
        (source : DenseView type rank) (source' : DenseView type' rank) (memory : Nat → Cell)
        (memory' : Nat → Cell'), source'.memorySpace = source.memorySpace →
      source'.mapping.extents = source.mapping.extents →
      (∀ coordinates, source'.read memory' coordinates = source.read memory coordinates) →
      reduceSum context source' memory' = reduceSum context source memory ∧
        reduceMin context source' memory' = reduceMin context source memory ∧
        reduceMax context source' memory' = reduceMax context source memory) := by
  refine ⟨fun _ => visitsInOrder, rfl, ?_, ?_, ?_⟩
  · intro Cell V type rank view number hnumber
    have hsize : number < boxSize view.mapping.extents := by
      simpa [boxCoordinates] using hnumber
    have hcoordinate := (visitsInOrder view.mapping.extents_nonneg).numbered number hnumber
    have helement := logicalElement_eq view hsize
    rw [hcoordinate]
    refine ⟨helement, fun hhost => ?_⟩
    rw [helement]
    exact DenseView.elementAt_ok hhost (coordinateAt_inBounds view.mapping hsize)
  · intro Cell type rank context source memory
    refine ⟨fun total => reduceSum_ok_iff, fun hvalid hsize => ⟨?_, ?_⟩⟩
    -- The least element is the one of the greatest negative.
    · rcases @reduceExtremum_spec _ _ integer type context source memory "Minimum"
        (fun element result => element < result) (fun value => -value) (by simp) hvalid hsize with
        ⟨least, hmem, hrun, hleast⟩
      refine ⟨least, hmem, hrun, fun value hvalue => ?_⟩
      have hle := hleast value hvalue
      omega
    · rcases @reduceExtremum_spec _ _ integer type context source memory "Maximum"
        (fun element result => element > result) (fun value => value) (by simp) hvalid hsize with
        ⟨greatest, hmem, hrun, hgreatest⟩
      exact ⟨greatest, hmem, hrun, hgreatest⟩
  · intro Cell Cell' type type' rank context source source' memory memory' hspace hextents hread
    have hlogical : source'.mapping.logicalSize = source.mapping.logicalSize := by
      rw [source'.mapping.logicalSize_eq, source.mapping.logicalSize_eq, hextents]
    -- A context that is refused is refused for both views.
    by_cases hvalid : validateContext context source.memorySpace = .ok ()
    · have hhost := (validateContext_ok_iff.1 hvalid).2
      have hhost' := hspace.trans hhost
      have hcontents := contents_congr hhost hspace hextents hread
      simp only [reduceSum, reduceMin, reduceMax, reduceExtremum, hspace, hlogical,
        reduction_eq hhost, reduction_eq hhost', hcontents, and_self]
    · have hfails : ∃ status, validateContext context source.memorySpace = .error status := by
        cases houtcome : validateContext context source.memorySpace with
        | error status => exact ⟨status, rfl⟩
        | ok value => exact absurd houtcome hvalid
      rcases hfails with ⟨status, hfails⟩
      simp only [reduceSum, reduceMin, reduceMax, reduceExtremum, hspace, hfails, bind, Except.bind,
        and_self]

theorem reduction_sample : VisitsInOrder (2 ::ᵥ 3 ::ᵥ List.Vector.nil : Shape 2) :=
  (reduction_correct int64).1 _ (by decide)

end Dense
end AscCpp
