import AscCpp.Core.Cuda.Calls

/-!
# Runtime — CUDA execution contexts and completion states

- `yields_guardCreate`, `yields_guardDestroy`: the device that a guard selects and gives back.
- `yields_withDevice`: what runs in the scope of a guard; the current device is restored on every path.
-/

namespace AscCpp
namespace Core
namespace Cuda

open Effect Library Library.History

variable {Memory α β : Type}

/-! ## `cuda_internal.h` -/

def errorCodeForCuda (error : CudaError) (fallback : ErrorCode) : ErrorCode :=
  match error with
  | .memoryAllocation => .allocation
  | .invalidDevice | .noDevice | .insufficientDriver => .unavailable
  | _ => fallback

def cudaStatus (error : CudaError) (fallback : ErrorCode) (message : String) : Status :=
  { code := errorCodeForCuda error fallback, message := message, provider := "cuda",
    nativeCode := error.nativeCode }

/-- A call whose error is reported as a status. -/
def orStatus (fallback : ErrorCode) (message : String) (call : Call Memory (Except CudaError α)) :
    Call Memory α := do
  match ← call with
  | .error error => throw (cudaStatus error fallback message)
  | .ok value => pure value

structure DeviceGuard where
  previousDevice : Int
  changed : Bool
  deriving DecidableEq, Repr

def DeviceGuard.create (device : Int) : Call Memory DeviceGuard := do
  let previousDevice ← orStatus .provider "CUDA could not query the current device" cudaGetDevice
  if previousDevice ≠ device then
    orStatus .provider "CUDA could not select the requested device" (cudaSetDevice device)
  pure ⟨previousDevice, previousDevice ≠ device⟩

/-- `~DeviceGuard`. -/
def DeviceGuard.destroy (guard : DeviceGuard) : Call Memory Unit := do
  if guard.changed then
    let _ ← cudaSetDevice guard.previousDevice

/-- The outcome of an operation as a value. -/
def attempt (operation : Call Memory α) : Call Memory (Result α) :=
  ExceptT.mk fun api => (exec operation api).map fun outcome => (.ok outcome.1, outcome.2)

/-- The scope of a `DeviceGuard`. -/
def withDevice (device : Int) (body : Call Memory α) : Call Memory α := do
  let guard ← DeviceGuard.create device
  let outcome ← attempt body
  guard.destroy
  Effect.ofResult outcome

/-! ## `runtime.cc` -/

def rangesOverlap (left right bytes : Nat) : Bool :=
  if left > uintptrMax - bytes ∨ right > uintptrMax - bytes then
    true
  else
    left < right + bytes ∧ right < left + bytes

def drainStream (stream : Nat) : Call Memory Unit := do
  let _ ← cudaStreamSynchronize stream

/-- Whether a pointer with these attributes is in the declared memory space. -/
def declaredSpaceHolds (declaredSpace : MemorySpace) (device : Int)
    (attributes : PointerAttributes) : Result Unit :=
  match declaredSpace with
  | .host =>
    failIf (attributes.type ≠ .unregistered)
      { code := .memoryAccess
        message := "A pointer declared as host memory has CUDA attributes" }
  | .pinnedHost =>
    failIf (attributes.type ≠ .host)
      { code := .memoryAccess
        message := "A pinned-host view is not CUDA-registered host memory" }
  | .device =>
    failIf (attributes.type ≠ .device ∨ attributes.device ≠ device)
      { code := .memoryAccess
        message := "A device view is not on the execution-context device" }
  | .managed =>
    failIf (attributes.type ≠ .managed ∨ attributes.device ≠ device)
      { code := .memoryAccess
        message := "A managed view is not associated with the context device" }

def validatePointer (pointer : Nat) (declaredSpace : MemorySpace) (device : Int) :
    Call Memory Unit := do
  match ← cudaPointerGetAttributes pointer with
  | .error error =>
    if declaredSpace = .host ∧ error = .invalidValue then
      let _ ← cudaGetLastError
      pure ()
    else
      throw (cudaStatus error .memoryAccess "CUDA could not inspect a memory pointer")
  | .ok attributes => Effect.ofResult (declaredSpaceHolds declaredSpace device attributes)

/-- `CudaExecutionState`. -/
structure ExecutionState where
  device : Int
  stream : Nat
  deriving DecidableEq, Repr

namespace ExecutionState

/-- What follows the creation of the event of a submission: its work, and the record behind it. -/
def recordBehind (execution : ExecutionState) (event : Nat) : Call Memory Nat := do
  match ← cudaEventRecord event execution.stream with
  | .error error =>
    drainStream execution.stream
    let _ ← cudaEventDestroy event
    throw (cudaStatus error .provider "CUDA could not record a completion event")
  | .ok () => pure event

def recordEvent (execution : ExecutionState) : Call Memory Nat :=
  withDevice execution.device do
    match ← cudaEventCreate with
    | .error error =>
      drainStream execution.stream
      throw (cudaStatus error .provider "CUDA could not create a completion event")
    | .ok event => execution.recordBehind event

def copyBytes (execution : ExecutionState) (destination source : ConstMemoryView)
    (byteCount : Nat) : Call Memory Nat :=
  withDevice execution.device do
    validatePointer source.data source.space execution.device
    validatePointer destination.data destination.space execution.device
    if source.data = destination.data ∧ source.space = destination.space then
      execution.recordEvent
    else
      Effect.ofResult (failIf (rangesOverlap source.data destination.data byteCount)
        { code := .invalidArgument
          message := "CUDA CopyBytes rejects partially overlapping views" })
      let event ← orStatus .provider "CUDA could not create a completion event" cudaEventCreate
      match ← cudaMemcpyAsync destination.data source.data byteCount execution.stream with
      | .error error =>
        drainStream execution.stream
        let _ ← cudaEventDestroy event
        throw (cudaStatus error .memoryTransfer "CUDA could not enqueue an asynchronous copy")
      | .ok () => execution.recordBehind event

/-- `~CudaExecutionState`. -/
def destroy (execution : ExecutionState) : Call Memory Unit := do
  match ← attempt (DeviceGuard.create execution.device) with
  | .error _ => pure ()
  | .ok guard =>
    let _ ← cudaStreamDestroy execution.stream
    guard.destroy

/-- `~CudaCompletionState`. -/
def destroyCompletion (execution : ExecutionState) (event : Nat) : Call Memory Unit := do
  match ← attempt (DeviceGuard.create execution.device) with
  | .error _ => pure ()
  | .ok guard =>
    let _ ← cudaEventDestroy event
    guard.destroy

/-- `CudaCompletionState::Query`. -/
def query (execution : ExecutionState) (event : Nat) : Call Memory Bool :=
  withDevice execution.device do
    match ← cudaEventQuery event with
    | .ok () => pure true
    | .error .notReady => pure false
    | .error error =>
      throw (cudaStatus error .provider "CUDA could not query a completion event")

/-- `CudaCompletionState::Wait`. -/
def wait (execution : ExecutionState) (event : Nat) : Call Memory Unit :=
  withDevice execution.device
    (orStatus .provider "CUDA could not wait for a completion event" (cudaEventSynchronize event))

end ExecutionState

def cudaDeviceCount : Call Memory Int :=
  orStatus .unavailable "CUDA could not enumerate available devices" cudaGetDeviceCount

def validateDeviceOrdinal (device : Int) : Call Memory Unit := do
  Effect.ofResult (failIf (device < 0)
    { code := .invalidArgument, message := "A CUDA device ordinal cannot be negative" })
  let count ← cudaDeviceCount
  Effect.ofResult (failIf (device ≥ count)
    { code := .unavailable, message := "The requested CUDA device is unavailable",
      provider := "cuda" })

/-- `CreateCudaExecutionContext`, for a determinism that is one of the enumerators. -/
def createCudaExecutionContext (device : Int) : Call Memory ExecutionState := do
  validateDeviceOrdinal device
  withDevice device do
    let stream ← orStatus .provider "CUDA could not create a nonblocking execution stream"
      cudaStreamCreate
    pure ⟨device, stream⟩

/-! ## Rules -/

section Rules

variable {β : Type} {api api' api'' : Api Memory} {returns : α → Api Memory → Prop}
  {fails : Status → Api Memory → Prop}

theorem yields_attempt {operation : Call Memory α} {fails' : Status → Api Memory → Prop}
    (h : Yields operation api returns fails) :
    Yields (attempt operation) api
      (fun result api' =>
        match result with
        | .ok value => returns value api'
        | .error status => fails status api') fails' := by
  rcases h with ⟨result, last, hrun, hresult⟩
  refine ⟨.ok result, last, ?_, hresult⟩
  have hattempt : exec (attempt operation) api =
      (exec operation api).map fun outcome => (.ok outcome.1, outcome.2) := rfl
  rw [hattempt, hrun]
  rfl

theorem yields_ofResult {result : Result α} (h : match result with
      | .ok value => returns value api
      | .error status => fails status api) : Yields (Effect.ofResult result) api returns fails :=
  ⟨result, api, rfl, h⟩

theorem yields_ofResult_bind {result : Result α} {next : α → Call Memory β}
    {returns' : β → Api Memory → Prop} (hfails : ∀ status, result = .error status → fails status api)
    (hnext : ∀ value, result = .ok value → Yields (next value) api returns' fails) :
    Yields (Effect.ofResult result >>= next) api returns' fails := by
  cases hresult : result with
  | error status => exact ⟨.error status, api, rfl, hfails status hresult⟩
  | ok value => exact Yields.ofResult_ok rfl (hnext value hresult)

theorem yields_throw {status : Status} (h : fails status api) :
    Yields (throw status : Call Memory α) api returns fails :=
  ⟨.error status, api, rfl, h⟩

theorem yields_orStatus {fallback : ErrorCode} {message : String}
    {call : Call Memory (Except CudaError α)}
    (h : Yields call api
      (fun result api' => (∀ error, result = .error error →
          fails (cudaStatus error fallback message) api') ∧
        ∀ value, result = .ok value → returns value api') fails) :
    Yields (orStatus fallback message call) api returns fails := by
  refine h.bind fun result api' hresult => ?_
  cases result with
  | error error => exact yields_throw (hresult.1 error rfl)
  | ok value => exact Yields.pure (hresult.2 value rfl)

end Rules

/-! ## The guard -/

section Guard

variable {api middle inner last : Api Memory} {device first : Int} {calls : List (Answered Memory)}

theorem DevicesTold.getDevice {previous : Int}
    (h : DevicesTold first (calls ++ [⟨.getDevice, .ok previous⟩])) :
    previous = current first calls :=
  (allowed_append.1 h).2.1

theorem not_devicesTold_setDevice {error : CudaError} :
    ¬ DevicesTold first (calls ++ [⟨.setDevice device, .error error⟩]) :=
  fun h => (allowed_append.1 h).2.1

/-- A device has not been told or not been selected. -/
def DeniesDevice (api : Api Memory) : Prop :=
  ∃ entry ∈ api.calls, ¬ entry.grantsDevice

/-- A guard that has selected this device, in place of another one if it has changed it. -/
structure Selected (device : Int) (guard : DeviceGuard) (api api' : Api Memory) : Prop where
  still : Still api api'
  selects : Selects device api'.calls
  previous_eq : ∀ first, DevicesTold first api'.calls → guard.previousDevice = current first api.calls
  changed_eq : guard.changed = decide (guard.previousDevice ≠ device)

theorem yields_guardCreate (api : Api Memory) (device : Int) :
    Yields (DeviceGuard.create device) api (fun guard api' => Selected device guard api api')
      (fun _ api' => Still api api' ∧ Restored api api' ∧ DeniesDevice api') := by
  have hget : Yields (orStatus .provider "CUDA could not query the current device" cudaGetDevice)
      api (fun previous middle => Leads [⟨.getDevice, .ok previous⟩] api middle)
      (fun _ api' => Still api api' ∧ Restored api api' ∧ DeniesDevice api') := by
    refine yields_orStatus ((@yields_invoke _ api .getDevice trivial _).mono
      (fun answer middle h => ⟨?_, ?_⟩) fun _ _ h => h)
    · rintro error rfl
      have hquiet := h.quiet rfl
      refine ⟨hquiet.still, .of_quiet hquiet, ⟨.getDevice, .error error⟩, ?_, fun h => h⟩
      rw [h.calls_eq]
      exact List.mem_append_right _ List.mem_cons_self
    · rintro previous rfl
      exact h
  refine hget.bind fun previous middle hmiddle => ?_
  by_cases hsame : previous = device
  · simp only [hsame, ne_eq, not_true_eq_false, if_false]
    refine Yields.pure ⟨hmiddle.still rfl, fun first htold => ?_, fun first htold => ?_, by simp⟩
    · rw [hmiddle.calls_eq] at htold ⊢
      rw [current_append, ← htold.getDevice]
      exact hsame
    · rw [hmiddle.calls_eq] at htold
      exact hsame ▸ htold.getDevice
  · simp only [ne_eq, hsame, not_false_eq_true, if_true]
    have hset : Yields (orStatus .provider "CUDA could not select the requested device"
        (cudaSetDevice device)) middle
        (fun _ api' => Leads [⟨.setDevice device, .ok ()⟩] middle api')
        (fun _ api' => Still api api' ∧ Restored api api' ∧ DeniesDevice api') := by
      refine yields_orStatus ((@yields_invoke _ middle (.setDevice device) trivial _).mono
        (fun answer last h => ⟨?_, ?_⟩) fun _ _ h => h)
      · rintro error rfl
        refine ⟨(hmiddle.still rfl).trans (h.still rfl), ⟨?_, fun first htold => ?_⟩,
          ⟨.setDevice device, .error error⟩, ?_, fun h => h⟩
        · rw [(hmiddle.trans h).calls_eq]
          exact List.prefix_append _ _
        · rw [h.calls_eq] at htold
          exact absurd htold not_devicesTold_setDevice
        · rw [h.calls_eq]
          exact List.mem_append_right _ List.mem_cons_self
      · rintro ⟨⟩ rfl
        exact h
    refine hset.bind fun _ last hlast => Yields.pure ?_
    refine ⟨(hmiddle.still rfl).trans (hlast.still rfl), fun first _ => ?_, fun first htold => ?_,
      by simp [hsame]⟩
    · rw [hlast.calls_eq, current_append]
      rfl
    · rw [hlast.calls_eq] at htold
      have htold' := htold.of_append
      rw [hmiddle.calls_eq] at htold'
      exact htold'.getDevice

/-- What the end of a guard leaves. -/
structure Returned (guard : DeviceGuard) (api api' : Api Memory) : Prop where
  still : Still api api'
  kept : guard.changed = false → Quiet api api'
  current_eq : guard.changed = true → ∀ first, DevicesTold first api'.calls →
    current first api'.calls = guard.previousDevice

theorem yields_guardDestroy (guard : DeviceGuard) (api : Api Memory)
    {fails : Status → Api Memory → Prop} :
    Yields guard.destroy api (fun _ api' => Returned guard api api') fails := by
  unfold DeviceGuard.destroy
  by_cases hchanged : guard.changed = true
  · rw [if_pos hchanged]
    refine (@yields_invoke _ api (.setDevice guard.previousDevice) trivial _).bind
      fun answer last hlast => Yields.pure ⟨hlast.still rfl, fun hnot => ?_, fun _ first htold => ?_⟩
    · exact absurd hchanged (by simp [hnot])
    · rw [hlast.calls_eq] at htold ⊢
      cases answer with
      | error error => exact absurd htold not_devicesTold_setDevice
      | ok value =>
        rw [current_append]
        rfl
  · rw [if_neg hchanged]
    exact Yields.pure ⟨.refl api, fun _ => .refl api, fun h => absurd h hchanged⟩

theorem Comes.prefix {property : List (Answered Memory) → Prop} (h : Comes property api last) :
    api.calls <+: last.calls := by
  rcases h with ⟨later, -, hleads⟩
  exact ⟨later, hleads.calls_eq.symm⟩

/-- A guard gives back the device that it has found. -/
theorem Selected.restored {guard : DeviceGuard} (h : Selected device guard api middle)
    (hbody : Restored middle inner) (hreturned : Returned guard inner last) : Restored api last where
  calls := h.still.prefix.trans (hbody.calls.trans hreturned.still.prefix)
  current_eq start htold := by
    rcases hreturned.still.prefix with ⟨later, hlater⟩
    have hinner : DevicesTold start inner.calls := (hlater ▸ htold).of_append
    rcases hbody.calls with ⟨earlier, hearlier⟩
    have hmiddle : DevicesTold start middle.calls := (hearlier ▸ hinner).of_append
    have hprevious := h.previous_eq start hmiddle
    cases hchanged : guard.changed with
    | true => exact (hreturned.current_eq hchanged start htold).trans hprevious
    | false =>
      have hsame : guard.previousDevice = device := by simpa [hchanged] using h.changed_eq
      have hkept := Restored.of_quiet (hreturned.kept hchanged)
      calc current start last.calls = current start inner.calls := hkept.current_eq start htold
        _ = current start middle.calls := hbody.current_eq start hinner
        _ = device := h.selects start hmiddle
        _ = current start api.calls := hsame ▸ hprevious

/-- The scope of a guard: its body runs with the device selected, and the current device comes back
on every path. -/
theorem yields_withDevice {body : Call Memory α} {returns : α → Api Memory → Api Memory → Prop}
    {fails : Status → Api Memory → Api Memory → Prop}
    (hreturns : ∀ {value start middle inner last}, Still start middle → returns value middle inner →
      Still inner last → returns value start last)
    (hfails : ∀ {status start middle inner last}, Still start middle → fails status middle inner →
      Still inner last → fails status start last)
    (hrefused : ∀ {status start last}, Still start last → fails status start last)
    (hbody : ∀ start, Still api start → Selects device start.calls → Yields body start
      (fun value last => returns value start last ∧ Restored start last)
      (fun status last => fails status start last ∧ Restored start last)) :
    Yields (withDevice device body) api
      (fun value last => returns value api last ∧ Restored api last)
      (fun status last => fails status api last ∧ Restored api last) := by
  unfold withDevice
  refine Yields.bind ((yields_guardCreate api device).mono (fun _ _ h => h)
    fun status last h => ⟨hrefused h.1, h.2.1⟩) fun guard middle hselected => ?_
  refine (yields_attempt (hbody middle hselected.still hselected.selects)).bind
    fun outcome inner houtcome => ?_
  refine (yields_guardDestroy guard inner).bind fun _ last hlast => ?_
  apply yields_ofResult
  cases outcome with
  | ok value =>
    exact ⟨hreturns hselected.still houtcome.1 hlast.still, hselected.restored houtcome.2 hlast⟩
  | error status =>
    exact ⟨hfails hselected.still houtcome.1 hlast.still, hselected.restored houtcome.2 hlast⟩

end Guard

end Cuda
end Core
end AscCpp
