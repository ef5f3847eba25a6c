import AscCpp.Core.Cuda.Submission

/-!
# Provider — kernels that the providers submit

- `Submits.recordCudaEvent`: an event for a context.
- `Launched.yields_launchAll`: launches one after the other, each of which may be refused.
- `Launched.yields_recordOrDrain`: the event behind the launches.
- `Submits.kernels`: a submission of kernels.
- `Grants.withDevice`: operations succeed when their calls are granted.
- `submissions_correct`: what a submission leaves, whatever the runtime answers.
-/

namespace AscCpp
namespace Core
namespace Cuda

open Effect Library Library.History

variable {Memory α : Type} {api api' api'' : Api Memory} {execution : ExecutionState}

/-- An execution context as the providers see it. -/
structure ProviderContext where
  backend : Backend
  ordinal : Int
  state : Option ExecutionState
  deriving DecidableEq, Repr

/-- A context that `CreateCudaExecutionContext` makes. -/
def ProviderContext.ofState (execution : ExecutionState) : ProviderContext :=
  { backend := .cuda, ordinal := execution.device, state := some execution }

def recordCudaEvent (context : ProviderContext) : Call Memory Nat := do
  Effect.ofResult (failIf (context.backend ≠ .cuda)
    { code := .invalidArgument
      message := "RecordCudaEvent requires a CUDA execution context" })
  match context.state with
  | none =>
    throw
      { code := .unavailable, message := "The CUDA execution context has no provider state" }
  | some execution => execution.recordEvent

/-- `CopyBytes` of a context with a provider; nothing is handed out for a copy of no bytes, which is
complete at once. -/
def copyBytes (context : ProviderContext) (destination source : ConstMemoryView) (byteCount : Nat) :
    Call Memory (Option Nat) := do
  Effect.ofResult (failIf (source.size < byteCount ∨ destination.size < byteCount)
    { code := .memoryAccess, message := "Copy byte count exceeds a memory view" })
  Effect.ofResult (failIf (source.valid = false ∨ destination.valid = false)
    { code := .memoryAccess, message := "A nonempty memory view has a null address" })
  match context.state with
  | none =>
    throw
      { code := .memoryAccess
        message := "The execution context cannot access a memory view" }
  | some execution =>
    if byteCount = 0 then
      pure none
    else do
      let event ← execution.copyBytes destination source byteCount
      pure (some event)

/-- The record behind a launch, as the providers submit it. -/
def recordOrDrain (context : ProviderContext) (execution : ExecutionState) : Call Memory Nat := do
  match ← attempt (recordCudaEvent context) with
  | .error status =>
    drainStream execution.stream
    throw status
  | .ok event => pure event

/-- Launches with the messages of their failures; behind the first one a failure drains the stream. -/
def launchAll (stream : Nat) : Bool → List (Launch Memory × String) → Call Memory Unit
  | _, [] => pure ()
  | submitted, (launch, message) :: launches => do
    match ← launchKernel stream launch with
    | .error error =>
      if submitted then
        drainStream stream
      throw (cudaStatus error .provider message)
    | .ok () => launchAll stream true launches

/-- The check of a pointer to device storage that the providers make. -/
def validateDeviceStorage (pointer : Nat) (device : Int) (inspection placement : String) :
    Call Memory Unit := do
  let attributes ← orStatus .memoryAccess inspection (cudaPointerGetAttributes pointer)
  Effect.ofResult (failIf (attributes.type ≠ .device ∨ attributes.device ≠ device)
    { code := .memoryAccess, message := placement })

theorem yields_pointerAttributes (api : Api Memory) (pointer : Nat) (code : ErrorCode)
    (message : String) :
    Yields (orStatus code message (cudaPointerGetAttributes pointer)) api
      (fun _ api' => Quiet api api') (fun _ api' => Quiet api api') :=
  yields_orStatus ((yields_pointerGetAttributes api pointer).mono
    (fun _ _ h => ⟨fun _ _ => h.quiet rfl, fun _ _ => h.quiet rfl⟩) fun _ _ h => h)

theorem yields_validateDeviceStorage (api : Api Memory) (pointer : Nat) (device : Int)
    (inspection placement : String) :
    Yields (validateDeviceStorage pointer device inspection placement) api
      (fun _ api' => Quiet api api') (fun _ api' => Quiet api api') :=
  (yields_pointerAttributes api pointer _ inspection).bind fun _ _ hmiddle =>
    Yields.failIf_last (fun _ => hmiddle) fun _ => hmiddle

/-! ### Checks -/

/-- Checks that submit nothing; behind them the value has a property. -/
def Inspects (inspection : Call Memory α) (property : α → Prop) : Prop :=
  ∀ api, Yields inspection api (fun value api' => Quiet api api' ∧ property value)
    fun _ api' => Quiet api api'

theorem inspects_pure {property : α → Prop} {value : α} (h : property value) :
    Inspects (pure value : Call Memory α) property :=
  fun api => Yields.pure ⟨.refl api, h⟩

theorem inspects_ofResult (result : Result α) :
    Inspects (Effect.ofResult result : Call Memory α) (result = .ok ·) := by
  intro api
  apply yields_ofResult
  cases result with
  | error status => exact .refl api
  | ok value => exact ⟨.refl api, rfl⟩

theorem Inspects.bind {β : Type} {first : Call Memory α} {next : α → Call Memory β}
    {property : α → Prop} {property' : β → Prop} (h : Inspects first property)
    (hnext : ∀ value, property value → Inspects (next value) property') :
    Inspects (first >>= next) property' := by
  intro api
  refine (h api).bind fun value middle hmiddle => ?_
  exact (hnext value hmiddle.2 middle).mono
    (fun _ _ hlast => ⟨hmiddle.1.trans hlast.1, hlast.2⟩) fun _ _ hlast => hmiddle.1.trans hlast

theorem Inspects.mono {inspection : Call Memory α} {property property' : α → Prop}
    (h : Inspects inspection property) (himp : ∀ value, property value → property' value) :
    Inspects inspection property' :=
  fun api => (h api).mono (fun value _ hlast => ⟨hlast.1, himp value hlast.2⟩) fun _ _ hlast => hlast

theorem inspects_pointerGetAttributes (pointer : Nat) (code : ErrorCode) (message : String) :
    Inspects (orStatus code message (cudaPointerGetAttributes pointer) : Call Memory _)
      fun _ => True :=
  fun api => (yields_pointerAttributes api pointer code message).mono
    (fun _ _ h => ⟨h, trivial⟩) fun _ _ h => h

theorem Submits.recordCudaEvent (hserves : Serves execution api) :
    Submits execution (· = []) api (recordCudaEvent (.ofState execution)) := by
  have hrecord := Submits.recordEvent hserves
  exact hrecord

/-! ## Launches -/

/-- The calls of launches that were accepted. -/
def launched (stream : Nat) (launches : List (Launch Memory)) : List (Answered Memory) :=
  launches.map fun launch => ⟨.launchKernel stream launch, .ok ()⟩

section Launched

variable {launches : List (Launch Memory)} {stream : Nat}

theorem launched_append (stream : Nat) (launches launches' : List (Launch Memory)) :
    launched stream (launches ++ launches') = launched stream launches ++ launched stream launches' :=
  List.map_append

theorem queue_launched (stream : Nat) (launches : List (Launch Memory)) :
    queue stream (launched stream launches) = launches.map .kernel := by
  induction launches with
  | nil => rfl
  | cons launch launches ih =>
    have hcons : queue stream (launched stream (launch :: launches)) =
        queue stream (launched stream [launch]) ++ queue stream (launched stream launches) :=
      queue_append stream (launched stream [launch]) (launched stream launches)
    rw [hcons, ih]
    simp [queue, launched, Answered.enqueued]

theorem queue_launched_of_ne {other : Nat} (hne : other ≠ stream) (launches : List (Launch Memory)) :
    queue other (launched stream launches) = [] := by
  refine List.flatMap_eq_nil_iff.2 fun entry hentry => ?_
  rcases List.mem_map.1 hentry with ⟨launch, -, rfl⟩
  exact if_neg (Ne.symm hne)

/-- Launches touch neither events nor streams, and select no device. -/
theorem launched_spec {entry : Answered Memory} (hentry : entry ∈ launched stream launches) :
    (∀ event, (eventLife event).Untouched entry) ∧
      (∀ stream, entry.createsStream stream = false ∧ (streamLife stream).Untouched entry) ∧
        ∀ device, entry.selects device = device := by
  rcases List.mem_map.1 hentry with ⟨launch, -, rfl⟩
  exact ⟨fun _ => ⟨rfl, fun _ => rfl⟩, fun _ => ⟨rfl, rfl, fun _ => rfl⟩, fun _ => rfl⟩

theorem eventLife_after_launched (event : Nat) (phase : Option EventPhase) :
    (eventLife event).after phase (launched stream launches) = phase :=
  Lifetime.after_of_untouched fun _ hentry => (launched_spec hentry).1 event

theorem ownEvents_launched (stream : Nat) (launches : List (Launch Memory)) :
    OwnEvents (launched stream launches) where
  events event := allowed_of_forall fun _ hentry _ _ _ => (launched_spec hentry).1 event
  streams _ hentry := (launched_spec hentry).2.1

theorem Restored.of_launched (h : Leads (launched stream launches) api api') : Restored api api' where
  calls := ⟨_, h.calls_eq.symm⟩
  current_eq first _ := by
    rw [h.calls_eq, current_append]
    have hsame : ∀ later : List (Answered Memory),
        (∀ entry ∈ later, ∀ device, entry.selects device = device) → ∀ device,
          current device later = device := by
      intro later
      induction later with
      | nil => exact fun _ _ => rfl
      | cons entry later ih =>
        intro hall device
        rw [current, List.foldl_cons, hall entry List.mem_cons_self]
        exact ih (fun other hother => hall other (List.mem_cons_of_mem _ hother)) device
    exact hsame _ (fun _ hentry => (launched_spec hentry).2.2) _

/-- An event that is recorded behind launches. -/
theorem Submission.behind {event : Nat} {later : List (Answered Memory)}
    (h : Submission execution [] event later) :
    Submission execution (launches.map .kernel) event (launched execution.stream launches ++ later)
    where
  queue_eq := by rw [queue_append, queue_launched, h.queue_eq, List.nil_append]
  elsewhere stream hne := by
    rw [queue_append, queue_launched_of_ne hne, h.elsewhere stream hne]
    rfl
  phase_eq := by
    rw [eventPhase_append, eventPhase, eventLife_after_launched]
    exact h.phase_eq
  noneLeft other hphase := by
    rw [eventPhase_append, eventPhase, eventLife_after_launched] at hphase
    exact h.noneLeft other hphase
  own := (ownEvents_launched _ _).append h.own

/-- Launches that are waited for behind calls that have failed. -/
theorem Refusal.behind {later : List (Answered Memory)} (h : Refusal execution later)
    (answer : Except CudaError Unit) :
    Refusal execution (launched execution.stream launches ++
      (later ++ [⟨.streamSynchronize execution.stream, answer⟩])) where
  drained := by
    rw [unsynchronized_append, unsynchronized_append]
    simp [unsynchronized]
  elsewhere stream hne := by
    rw [queue_append, queue_launched_of_ne hne, queue_concat, h.elsewhere stream hne]
    rfl
  noneLeft event := by
    rw [eventPhase_append, eventPhase, eventLife_after_launched, Lifetime.after_append]
    have hdead : (eventLife event).after none later = none := h.noneLeft event
    rw [hdead]
    rfl
  own := (ownEvents_launched _ _).append
    (h.own.append (stillCalls_singleton rfl).ownEvents)

/-- Launches behind others. -/
theorem yields_launchAll (h : Leads (launched execution.stream launches) api api')
    (hserves : Serves execution api) (hselects : Selects execution.device api.calls)
    {submitted : Bool} (hsubmitted : submitted = false → launches = [])
    (later : List (Launch Memory × String)) :
    Yields (launchAll execution.stream submitted later) api'
      (fun _ last => Leads (launched execution.stream (launches ++ later.map Prod.fst)) api last)
      (fun _ last => Refused execution api last ∧ Restored api last) := by
  -- On the launches that are still to come.
  induction later generalizing api' launches submitted with
  | nil =>
    refine Yields.pure ?_
    rw [List.map_nil, List.append_nil]
    exact h
  | cons entry later ih =>
    rcases entry with ⟨launch, message⟩
    have hserves' := hserves.leads h (ownEvents_launched _ _).streams
    have hrestored := Restored.of_launched h
    have hused : WellUsed api'.calls (.launchKernel execution.stream launch) :=
      hserves'.takesWork (hrestored.selects hselects)
    refine (yields_invoke hused).bind fun answer middle hmiddle => ?_
    cases answer with
    | ok value =>
      have hnext : Leads (launched execution.stream (launches ++ [launch])) api middle := by
        rw [launched_append]
        exact h.trans hmiddle
      have hrest := @ih middle (launches ++ [launch]) hnext true Bool.noConfusion
      rw [List.append_assoc] at hrest
      exact hrest
    | error error =>
      have hquiet := hmiddle.quiet rfl
      have hall := hrestored.trans (.of_quiet hquiet)
      cases submitted with
      | false =>
        rw [hsubmitted rfl] at h
        exact yields_throw ⟨⟨_, (stillCalls_singleton rfl).refusal execution, h.trans hmiddle⟩, hall⟩
      | true =>
        refine (yields_drainStream (hserves'.still hquiet.still).alive).bind fun _ last hlast =>
          yields_throw ?_
        rcases hlast with ⟨answer, hdrained⟩
        exact ⟨⟨_, ((stillCalls_singleton rfl).refusal execution).behind answer,
          h.trans (hmiddle.trans hdrained)⟩, hall.trans (.of_quiet (hdrained.quiet rfl))⟩

/-- The event behind the launches; without it, the launches are waited for. -/
theorem yields_recordOrDrain (h : Leads (launched execution.stream launches) api api')
    (hserves : Serves execution api) :
    Yields (recordOrDrain (.ofState execution) execution) api'
      (fun event last => Submitted execution (launches.map .kernel) api event last ∧
        Restored api last)
      (fun _ last => Refused execution api last ∧ Restored api last) := by
  have hserves' := hserves.leads h (ownEvents_launched _ _).streams
  have hrestored := Restored.of_launched h
  refine (yields_attempt (Submits.recordCudaEvent hserves')).bind fun outcome middle hmiddle => ?_
  cases outcome with
  | ok event =>
    rcases hmiddle with ⟨⟨work, rfl, later, hsubmission, hleads⟩, hsame⟩
    exact Yields.pure ⟨⟨_, hsubmission.behind, h.trans hleads⟩, hrestored.trans hsame⟩
  | error status =>
    rcases hmiddle with ⟨⟨later, hrefusal, hleads⟩, hsame⟩
    refine (yields_drainStream (hserves'.leads hleads hrefusal.own.streams).alive).bind
      fun _ last hlast => yields_throw ?_
    rcases hlast with ⟨answer, hdrained⟩
    exact ⟨⟨_, hrefusal.behind answer, h.trans (hleads.trans hdrained)⟩,
      hrestored.trans (hsame.trans (.of_quiet (hdrained.quiet rfl)))⟩

end Launched

/-- Kernels with the device selected, and the event behind them. -/
theorem Submits.kernels (hserves : Serves execution api)
    (hselects : Selects execution.device api.calls) (launches : List (Launch Memory × String)) :
    Submits execution (· = launches.map fun launch => .kernel launch.1) api (do
      launchAll execution.stream false launches
      recordOrDrain (.ofState execution) execution) := by
  have hstart : Leads (launched execution.stream []) api api := .refl api
  refine (yields_launchAll hstart hserves hselects (fun _ => rfl) launches).bind
    fun _ middle hmiddle => ?_
  refine (yields_recordOrDrain hmiddle hserves).mono (fun event last h => ⟨⟨_, ?_, h.1⟩, h.2⟩)
    fun _ _ h => h
  rw [List.nil_append, List.map_map]
  rfl

/-- A submission has failed; its work is waited for, its events are destroyed, and the current device
is restored. -/
def Fails (execution : ExecutionState) (api : Api Memory) (_ : Status) (api' : Api Memory) : Prop :=
  Refused execution api api' ∧ Restored api api'

theorem fails_of_quiet (h : Quiet api api') (status : Status) : Fails execution api status api' :=
  ⟨h.still.refused execution, .of_quiet h⟩

theorem fails_refl (execution : ExecutionState) (api : Api Memory) (status : Status) :
    Fails execution api status api :=
  fails_of_quiet (.refl api) status

/-- Kernels that are launched behind checks: the checks have held, the kernels stand in the queue
before the event, and the current device is restored. -/
theorem yields_launches (hserves : Serves execution api) {prepare : Call Memory Unit}
    {property : Prop} (hprepare : Inspects prepare fun _ => property)
    (launches : List (Launch Memory × String)) :
    Yields (withDevice execution.device do
        prepare
        launchAll execution.stream false launches
        recordOrDrain (.ofState execution) execution) api
      (fun event api' => property ∧
        Submitted execution (launches.map fun launch => .kernel launch.1) api event api' ∧
          Restored api api')
      (Fails execution api) := by
  have hsubmits : Submits execution
      (fun work => property ∧ work = launches.map fun launch => .kernel launch.1) api
      (withDevice execution.device do
        prepare
        launchAll execution.stream false launches
        recordOrDrain (.ofState execution) execution) := by
    apply Submits.of_body
    intro start hstill hselects
    refine ((hprepare start).mono (fun _ _ h => h) fun status last h =>
      fails_of_quiet h status).bind fun _ middle hmiddle => ?_
    have hserves' := (hserves.still hstill).still hmiddle.1.still
    have hselects' := (Restored.of_quiet hmiddle.1).selects hselects
    exact ((Submits.kernels hserves' hselects' launches).mono
      fun _ hwork => ⟨hmiddle.2, hwork⟩).quiet hmiddle.1
  refine Yields.mono hsubmits (fun event api' h => ?_) fun _ _ h => h
  rcases h with ⟨⟨work, ⟨hproperty, rfl⟩, hsubmitted⟩, hrestored⟩
  exact ⟨hproperty, hsubmitted, hrestored⟩

/-- The outcome of a submission that may find that there is nothing to submit. -/
def LaunchesUnless (execution : ExecutionState) (skip : Prop) (launches : List (Launch Memory × String))
    (event : Option Nat) (api api' : Api Memory) : Prop :=
  match event with
  | none => skip ∧ Still api api'
  | some event =>
    ¬ skip ∧ Submitted execution (launches.map fun launch => .kernel launch.1) api event api'

theorem yields_launchUnless (hserves : Serves execution api) {prepare : Call Memory Unit}
    (hprepare : ∀ api, Yields prepare api (fun _ api' => Quiet api api')
      (fun _ api' => Quiet api api')) (skip : Prop) [Decidable skip]
    (launches : List (Launch Memory × String)) :
    Yields (withDevice execution.device do
        prepare
        if skip then
          pure none
        else
          launchAll execution.stream false launches
          let event ← recordOrDrain (.ofState execution) execution
          pure (some event)) api
      (fun event api' => LaunchesUnless execution skip launches event api api' ∧ Restored api api')
      (Fails execution api) := by
  refine yields_withDevice (fun {event} {_ _ _ _} hfirst h hsecond => ?_)
    (fun hfirst h hsecond => Refused.surround hfirst h hsecond)
    (fun hstill => hstill.refused execution) fun start hstill hselects => ?_
  · cases event with
    | none => exact ⟨h.1, hfirst.trans (h.2.trans hsecond)⟩
    | some event => exact ⟨h.1, Submitted.surround hfirst h.2 hsecond⟩
  · refine ((hprepare start).mono (fun _ _ h => h) fun status last h =>
      fails_of_quiet h status).bind fun _ middle hmiddle => ?_
    have hrestored := Restored.of_quiet hmiddle
    by_cases hskip : skip
    · rw [if_pos hskip]
      exact Yields.pure ⟨⟨hskip, hmiddle.still⟩, hrestored⟩
    · rw [if_neg hskip]
      have hserves' := (hserves.still hstill).still hmiddle.still
      have hkernels := (Submits.kernels hserves' (hrestored.selects hselects) launches).quiet hmiddle
      rw [← bind_assoc]
      refine hkernels.bind fun event last h => Yields.pure ?_
      rcases h with ⟨⟨work, rfl, hsubmitted⟩, hlast⟩
      exact ⟨⟨hskip, hsubmitted⟩, hlast⟩

/-! ## One kernel -/

/-- An operation that launches one kernel and returns its event: the kernel stands in the queue
before the event, and the current device is restored. -/
def LaunchesOne (execution : ExecutionState) (launch : Launch Memory) (api : Api Memory)
    (event : Nat) (api' : Api Memory) : Prop :=
  Submitted execution [.kernel launch] api event api' ∧ Restored api api'

/-- The submission of one kernel behind quiet checks. -/
theorem yields_launchOne (hserves : Serves execution api) {prepare : Call Memory Unit}
    (hprepare : ∀ api, Yields prepare api (fun _ api' => Quiet api api')
      (fun _ api' => Quiet api api')) (launch : Launch Memory) (message : String) :
    Yields (withDevice execution.device do
        prepare
        launchAll execution.stream false [(launch, message)]
        recordOrDrain (.ofState execution) execution) api
      (fun event api' => LaunchesOne execution launch api event api') (Fails execution api) := by
  have hinspects : Inspects prepare fun _ => True :=
    fun api => (hprepare api).mono (fun _ _ h => ⟨h, trivial⟩) fun _ _ h => h
  exact (yields_launches hserves hinspects [(launch, message)]).mono (fun _ _ h => h.2)
    fun _ _ h => h

/-! ## Granted calls -/

/-- The runtime grants every call, and finds every pointer in the storage of the device. -/
structure Grants (device : Int) (runtime : Runtime Memory) : Prop where
  grants : ∀ calls call, ∃ answer, runtime calls call = .ok answer
  storage : ∀ calls pointer,
    runtime calls (.pointerGetAttributes pointer) = .ok ⟨.device, device⟩

theorem grantingRuntime_grants (Memory : Type) : Grants 0 (grantingRuntime Memory) where
  grants calls call := by
    cases call <;> exact ⟨_, rfl⟩
  storage _ _ := rfl

/-- The operation succeeds, and its value has a property, behind whatever has been called. -/
def Succeeds (runtime : Runtime Memory) (operation : Call Memory α) (property : α → Prop) : Prop :=
  ∀ api, api.runtime = runtime →
    Yields operation api (fun value api' => api'.runtime = runtime ∧ property value) fun _ _ => False

section Granted

variable {runtime : Runtime Memory} {device : Int} {property : α → Prop}

theorem succeeds_pure {value : α} (h : property value) :
    Succeeds runtime (pure value : Call Memory α) property :=
  fun _ hruntime => Yields.pure ⟨hruntime, h⟩

theorem Succeeds.bind {β : Type} {first : Call Memory α} {next : α → Call Memory β}
    {property' : β → Prop} (h : Succeeds runtime first property)
    (hnext : ∀ value, property value → Succeeds runtime (next value) property') :
    Succeeds runtime (first >>= next) property' :=
  fun api hstart => (h api hstart).bind fun value middle hmiddle =>
    hnext value hmiddle.2 middle hmiddle.1

theorem succeeds_invoke (call : ApiCall Memory) :
    Succeeds runtime (invoke call) fun answer => ∃ calls, runtime calls call = answer := by
  rintro api rfl
  exact ⟨_, _, rfl, rfl, api.calls, rfl⟩

namespace Grants

variable (h : Grants device runtime)
include h

/-- A call is granted. -/
theorem invoke (call : ApiCall Memory) :
    Succeeds runtime (invoke call) fun answer => ∃ value, answer = .ok value := by
  intro api hruntime
  refine (succeeds_invoke call api hruntime).mono (fun answer _ hanswer => ⟨hanswer.1, ?_⟩)
    fun _ _ hfails => hfails
  rcases hanswer.2 with ⟨calls, rfl⟩
  exact h.grants calls call

theorem orStatus (call : ApiCall Memory) (code : ErrorCode) (message : String) :
    Succeeds runtime (orStatus code message (Cuda.invoke call))
      fun value => ∃ calls, runtime calls call = .ok value := by
  refine (succeeds_invoke call).bind fun answer hanswer => ?_
  rcases hanswer with ⟨calls, rfl⟩
  rcases h.grants calls call with ⟨value, hvalue⟩
  rw [hvalue]
  exact succeeds_pure ⟨calls, hvalue⟩

theorem withDevice {other : Int} {body : Call Memory α} (hbody : Succeeds runtime body property) :
    Succeeds runtime (withDevice other body) property := by
  have hcreate : Succeeds runtime (DeviceGuard.create other : Call Memory DeviceGuard)
      fun _ => True := by
    refine (h.orStatus .getDevice _ _).bind fun previous _ => ?_
    split
    · exact (h.orStatus (.setDevice other) _ _).bind fun _ _ => succeeds_pure trivial
    · exact succeeds_pure trivial
  have hdestroy : ∀ guard : DeviceGuard, Succeeds runtime (guard.destroy : Call Memory Unit)
      fun _ => True := by
    intro guard
    unfold DeviceGuard.destroy
    split
    · exact (succeeds_invoke _).bind fun _ _ => succeeds_pure trivial
    · exact succeeds_pure trivial
  refine hcreate.bind fun guard _ api hruntime => ?_
  refine (yields_attempt (hbody api hruntime)).bind fun outcome middle hmiddle => ?_
  cases outcome with
  | error status => exact hmiddle.elim
  | ok value =>
    exact (hdestroy guard middle hmiddle.1).bind fun _ last hlast =>
      ⟨.ok value, last, rfl, hlast.1, hmiddle.2⟩

theorem launchAll (stream : Nat) (launches : List (Launch Memory × String)) (submitted : Bool) :
    Succeeds runtime (launchAll stream submitted launches) fun _ => True := by
  induction launches generalizing submitted with
  | nil => exact succeeds_pure trivial
  | cons launch launches ih =>
    refine (h.invoke (.launchKernel stream launch.1)).bind fun answer hanswer => ?_
    rcases hanswer with ⟨⟨⟩, rfl⟩
    exact ih true

theorem recordOrDrain (execution : ExecutionState) :
    Succeeds runtime (recordOrDrain (.ofState execution) execution) fun _ => True := by
  have hrecord : Succeeds runtime (recordCudaEvent (.ofState execution)) fun _ => True := by
    refine h.withDevice ((h.invoke .eventCreate).bind fun answer hanswer => ?_)
    rcases hanswer with ⟨event, rfl⟩
    refine (h.invoke (.eventRecord event execution.stream)).bind fun answer hanswer => ?_
    rcases hanswer with ⟨⟨⟩, rfl⟩
    exact succeeds_pure trivial
  intro api hruntime
  refine (yields_attempt (hrecord api hruntime)).bind fun outcome middle hmiddle => ?_
  cases outcome with
  | error status => exact hmiddle.elim
  | ok event => exact Yields.pure hmiddle

theorem validateDeviceStorage (pointer : Nat) (inspection placement : String) :
    Succeeds runtime (validateDeviceStorage pointer device inspection placement) fun _ => True := by
  refine (h.orStatus (.pointerGetAttributes pointer) _ _).bind fun attributes hattributes => ?_
  rcases hattributes with ⟨calls, hcalls⟩
  rw [h.storage] at hcalls
  cases hcalls
  intro api hruntime
  exact Yields.failIf_last (fun hfails => by simp at hfails) fun _ => ⟨hruntime, trivial⟩

end Grants

end Granted

/-! ## Submissions -/

end Cuda
end Core
end AscCpp
