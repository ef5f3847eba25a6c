import AscCpp.Core.Cuda.Grid
import AscCpp.Core.Outcome
import AscCpp.Library.History

/-!
# Api — the calls of the CUDA runtime

The runtime is a parameter: to each call it answers what it likes, behind all the calls before.  What
is known of it is the record of the calls with their answers.

- `queue`, `eventPhase`, `streamAlive`, `current`: what the record tells.
- `WellUsed`: what a call asks of the record before it.
- `HandsOutFresh`, `DevicesTold`: what the documentation of the runtime promises.
-/

namespace AscCpp
namespace Core
namespace Cuda

open Effect Library Library.History

/-- The errors that the program tells apart. -/
inductive CudaError where
  | invalidValue
  | memoryAllocation
  | insufficientDriver
  | noDevice
  | invalidDevice
  | notReady
  | other (code : Nat)
  deriving DecidableEq, Repr

/-- The value of `cudaError_t`. -/
def CudaError.nativeCode : CudaError → Int
  | .invalidValue => 1
  | .memoryAllocation => 2
  | .insufficientDriver => 35
  | .noDevice => 100
  | .invalidDevice => 101
  | .notReady => 600
  | .other code => code

inductive CudaMemoryType where
  | unregistered
  | host
  | device
  | managed
  deriving DecidableEq, Repr

structure PointerAttributes where
  type : CudaMemoryType
  device : Int
  deriving DecidableEq, Repr

/-- The calls that the program makes; a launch comes with the `cudaGetLastError` on both sides. -/
inductive ApiCall (Memory : Type) where
  | getDeviceCount
  | getDevice
  | setDevice (device : Int)
  | getLastError
  | pointerGetAttributes (address : Nat)
  | streamCreate
  | streamDestroy (stream : Nat)
  | streamSynchronize (stream : Nat)
  | eventCreate
  | eventDestroy (event : Nat)
  | eventRecord (event stream : Nat)
  | eventQuery (event : Nat)
  | eventSynchronize (event : Nat)
  | memcpyAsync (destination source bytes stream : Nat)
  | launchKernel (stream : Nat) (launch : Launch Memory)

/-- What a call hands back beside its error. -/
abbrev ApiCall.Answer {Memory : Type} : ApiCall Memory → Type
  | .getDeviceCount | .getDevice => Int
  | .pointerGetAttributes _ => PointerAttributes
  | .streamCreate | .eventCreate => Nat
  | _ => Unit

/-- A call that the runtime has answered. -/
structure Answered (Memory : Type) where
  call : ApiCall Memory
  answer : Except CudaError call.Answer

/-- A runtime answers to a call behind those before it. -/
abbrev Runtime (Memory : Type) : Type :=
  List (Answered Memory) → (call : ApiCall Memory) → Except CudaError call.Answer

/-- A runtime, and the record of the calls that have been made. -/
structure Api (Memory : Type) where
  runtime : Runtime Memory
  calls : List (Answered Memory) := []

variable {Memory α β : Type}

/-! ## The calls -/

/-- An operation that calls the runtime. -/
abbrev Call (Memory α : Type) := Effect (Api Memory) α

def invoke (call : ApiCall Memory) : Call Memory (Except CudaError call.Answer) := do
  let api ← Effect.read
  let answer := api.runtime api.calls call
  Effect.write { api with calls := api.calls ++ [⟨call, answer⟩] }
  pure answer

def cudaGetDeviceCount : Call Memory (Except CudaError Int) :=
  invoke .getDeviceCount

def cudaGetDevice : Call Memory (Except CudaError Int) :=
  invoke .getDevice

def cudaSetDevice (device : Int) : Call Memory (Except CudaError Unit) :=
  invoke (.setDevice device)

def cudaGetLastError : Call Memory (Except CudaError Unit) :=
  invoke .getLastError

def cudaPointerGetAttributes (address : Nat) : Call Memory (Except CudaError PointerAttributes) :=
  invoke (.pointerGetAttributes address)

def cudaStreamCreate : Call Memory (Except CudaError Nat) :=
  invoke .streamCreate

def cudaStreamDestroy (stream : Nat) : Call Memory (Except CudaError Unit) :=
  invoke (.streamDestroy stream)

def cudaStreamSynchronize (stream : Nat) : Call Memory (Except CudaError Unit) :=
  invoke (.streamSynchronize stream)

def cudaEventCreate : Call Memory (Except CudaError Nat) :=
  invoke .eventCreate

def cudaEventDestroy (event : Nat) : Call Memory (Except CudaError Unit) :=
  invoke (.eventDestroy event)

def cudaEventRecord (event stream : Nat) : Call Memory (Except CudaError Unit) :=
  invoke (.eventRecord event stream)

def cudaEventQuery (event : Nat) : Call Memory (Except CudaError Unit) :=
  invoke (.eventQuery event)

def cudaEventSynchronize (event : Nat) : Call Memory (Except CudaError Unit) :=
  invoke (.eventSynchronize event)

def cudaMemcpyAsync (destination source bytes stream : Nat) : Call Memory (Except CudaError Unit) :=
  invoke (.memcpyAsync destination source bytes stream)

/-- A launch, with the `cudaGetLastError` that clears earlier errors and the one that tells its own. -/
def launchKernel (stream : Nat) (launch : Launch Memory) : Call Memory (Except CudaError Unit) :=
  invoke (.launchKernel stream launch)

/-! ## What the record tells -/

/-- What a stream works through. -/
inductive Work (Memory : Type) where
  | kernel (launch : Launch Memory)
  | copy (destination source bytes : Nat)
  | record (event : Nat)

namespace Answered

/-- The work that an accepted call has put into the queue of the stream. -/
def enqueued (stream : Nat) : Answered Memory → List (Work Memory)
  | ⟨.launchKernel target launch, .ok _⟩ => if target = stream then [.kernel launch] else []
  | ⟨.memcpyAsync destination source bytes target, .ok _⟩ =>
    if target = stream then [.copy destination source bytes] else []
  | ⟨.eventRecord event target, .ok _⟩ => if target = stream then [.record event] else []
  | _ => []

/-- The device behind the call, on one that was selected before. -/
def selects (device : Int) : Answered Memory → Int
  | ⟨.setDevice other, .ok _⟩ => other
  | _ => device

def createsStream (stream : Nat) : Answered Memory → Bool
  | ⟨.streamCreate, .ok created⟩ => created = stream
  | _ => false

/-- A call that neither takes nor gives up a handle, and puts no work into a queue. -/
def still : Answered Memory → Bool
  | ⟨.streamCreate, .ok _⟩ | ⟨.eventCreate, .ok _⟩ => false
  | ⟨.streamDestroy _, _⟩ | ⟨.eventDestroy _, _⟩ => false
  | ⟨.launchKernel _ _, .ok _⟩ | ⟨.memcpyAsync _ _ _ _, .ok _⟩ => false
  | ⟨.eventRecord _ _, .ok _⟩ | ⟨.eventQuery _, .ok _⟩ | ⟨.eventSynchronize _, .ok _⟩ => false
  | _ => true

/-- A still call that does not ask for another device either. -/
def quiet : Answered Memory → Bool
  | ⟨.setDevice _, _⟩ => false
  | entry => entry.still

/-- The runtime has not failed to tell or to select a device. -/
def grantsDevice : Answered Memory → Prop
  | ⟨.getDevice, .error _⟩ | ⟨.setDevice _, .error _⟩ => False
  | _ => True

end Answered

/-- The work in the queue of a stream, in its order. -/
def queue (stream : Nat) (calls : List (Answered Memory)) : List (Work Memory) :=
  calls.flatMap (Answered.enqueued stream)

/-- The work of a stream behind which no `cudaStreamSynchronize` stands. -/
def unsynchronized (stream : Nat) (work : List (Work Memory)) (calls : List (Answered Memory)) :
    List (Work Memory) :=
  calls.foldl
    (fun work entry =>
      match entry with
      | ⟨.streamSynchronize target, _⟩ => if target = stream then [] else work
      | _ => work ++ entry.enqueued stream)
    work

/-- The device that was selected last. -/
def current (first : Int) (calls : List (Answered Memory)) : Int :=
  calls.foldl Answered.selects first

/-- The life of a stream. -/
def streamLife (stream : Nat) : Lifetime (Answered Memory) Unit where
  begins entry := if entry.createsStream stream then some () else none
  next _ entry :=
    match entry with
    | ⟨.streamDestroy target, _⟩ => if target = stream then none else some ()
    | _ => some ()

/-- A stream has been handed out, and not given to `cudaStreamDestroy` since. -/
def StreamAlive (stream : Nat) (calls : List (Answered Memory)) : Prop :=
  (streamLife stream).after none calls = some ()

/-- The device that was selected when the stream was handed out. -/
def streamDevice (first : Int) (stream : Nat) (calls : List (Answered Memory)) : Int :=
  current first (before (Answered.createsStream stream) calls)

/-- An event has been recorded on a stream, and the runtime may have told that this is passed. -/
inductive EventPhase where
  | created
  | recorded (stream : Nat)
  | passed (stream : Nat)
  deriving DecidableEq, Repr

/-- The life of an event. -/
def eventLife (event : Nat) : Lifetime (Answered Memory) EventPhase where
  begins entry :=
    match entry with
    | ⟨.eventCreate, .ok created⟩ => if created = event then some .created else none
    | _ => none
  next phase entry :=
    match entry with
    | ⟨.eventDestroy target, _⟩ => if target = event then none else some phase
    | ⟨.eventRecord target stream, .ok _⟩ =>
      if target = event then some (.recorded stream) else some phase
    | ⟨.eventQuery target, .ok _⟩ | ⟨.eventSynchronize target, .ok _⟩ =>
      match phase with
      | .recorded stream => some (if target = event then .passed stream else .recorded stream)
      | _ => some phase
    | _ => some phase

/-- What has become of an event; none before it is handed out, and behind its `cudaEventDestroy`. -/
def eventPhase (event : Nat) (calls : List (Answered Memory)) : Option EventPhase :=
  (eventLife event).after none calls

/-! ## What calls ask for, and what the runtime promises -/

/-- The runtime tells the device that was selected, and does not fail to select one. -/
def TellsDevice (first : Int) (past : List (Answered Memory)) : Answered Memory → Prop
  | ⟨.getDevice, .ok device⟩ => device = current first past
  | ⟨.setDevice _, .error _⟩ => False
  | _ => True

/-- The devices are told as they were selected, and no selection has failed. -/
def DevicesTold (first : Int) (calls : List (Answered Memory)) : Prop :=
  Allowed (TellsDevice first) [] calls

/-- The stream can take work: it is alive, and its device is selected. -/
structure TakesWork (stream : Nat) (calls : List (Answered Memory)) : Prop where
  alive : StreamAlive stream calls
  selected : ∀ first, DevicesTold first calls → streamDevice first stream calls = current first calls

/-- The handles of a call are alive, and work comes to a stream of the selected device. -/
def WellUsed (past : List (Answered Memory)) : ApiCall Memory → Prop
  | .streamDestroy stream | .streamSynchronize stream => StreamAlive stream past
  | .memcpyAsync _ _ _ stream | .launchKernel stream _ => TakesWork stream past
  | .eventRecord event stream => eventPhase event past ≠ none ∧ TakesWork stream past
  | .eventDestroy event | .eventQuery event | .eventSynchronize event => eventPhase event past ≠ none
  | _ => True

/-- A handle that is handed out is none that is alive. -/
structure HandsOutFresh (runtime : Runtime Memory) : Prop where
  stream : ∀ calls stream, runtime calls .streamCreate = .ok stream → ¬ StreamAlive stream calls
  event : ∀ calls event, runtime calls .eventCreate = .ok event → eventPhase event calls = none

end Cuda
end Core
end AscCpp
