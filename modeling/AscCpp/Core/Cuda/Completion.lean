import AscCpp.Core.Cuda.Submission
import Mathlib.Logic.Function.Basic

/-!
# Completion — completion events and the state that they share

The objects of a program are its execution contexts and its completion events.  Copies of a context
and the events of its submissions share one execution state, which goes with the last of them.

- `HostStep`: what a program can do with the objects, with whatever answers the runtime gives.
- `OwnEvents.untouched`: operations leave the events of others alone.
- `Consistent`: how the objects and the handles of the runtime belong together.
- `Consistent.released`, `Consistent.destroyed`: the destructors keep them together.
- `Consistent.rearrange`, `Consistent.addEvent`: so do moves and new objects.
-/

namespace AscCpp
namespace Core
namespace Cuda

open Effect Library Library.History

variable {Memory : Type}

/-- `CudaCompletionState`. -/
structure CompletionState where
  execution : ExecutionState
  event : Nat
  deriving DecidableEq, Repr

structure CompletionEvent where
  valid : Bool := false
  complete : Bool := false
  state : Option CompletionState := none
  deriving DecidableEq, Repr

namespace CompletionEvent

/-- What a move or a destructor leaves. -/
def moved : CompletionEvent := {}

/-- `CompletionEvent(std::unique_ptr<CompletionState>)`, with a state that is not null. -/
def ofState (state : CompletionState) : CompletionEvent :=
  { valid := true, state := some state }

/-- `Access::MakeCompletedEvent`. -/
def completed : CompletionEvent :=
  { valid := true, complete := true }

/-- `CompletionEvent::Query`; what it returns is kept in `complete_`. -/
def query (event : CompletionEvent) : Call Memory Bool := do
  Effect.ofResult (failIf (event.valid = false)
    { code := .invalidState, message := "A moved-from CompletionEvent cannot be queried" })
  if event.complete then
    pure true
  else
    match event.state with
    | none =>
      throw { code := .internal, message := "A pending CompletionEvent has no provider state" }
    | some state => state.execution.query state.event

/-- `CompletionEvent::Wait`; `complete_` is set when it succeeds. -/
def wait (event : CompletionEvent) : Call Memory Unit := do
  Effect.ofResult (failIf (event.valid = false)
    { code := .invalidState, message := "A moved-from CompletionEvent cannot be waited on" })
  if event.complete then
    pure ()
  else
    match event.state with
    | none =>
      throw { code := .internal, message := "A pending CompletionEvent has no provider state" }
    | some state => state.execution.wait state.event

end CompletionEvent

/-- The objects of a program, by name; a name without an object has no state. -/
structure Host (Memory : Type) where
  api : Api Memory
  contexts : Nat → Option ExecutionState
  events : Nat → CompletionEvent

namespace Host

/-- An object of the program holds the execution state. -/
def Refers (host : Host Memory) (execution : ExecutionState) : Prop :=
  (∃ name, host.contexts name = some execution) ∨
    ∃ name state, (host.events name).state = some state ∧ state.execution = execution

/-- An object of the program owns the event. -/
def Owns (host : Host Memory) (event : Nat) : Prop :=
  ∃ name state, (host.events name).state = some state ∧ state.event = event

/-- The program at its start. -/
def start (runtime : Runtime Memory) : Host Memory where
  api := { runtime := runtime }
  contexts _ := none
  events _ := .moved

end Host

/-- One reference to an execution state has gone; the state goes with the last one. -/
inductive Released (host : Host Memory) (execution : ExecutionState) : Api Memory → Prop where
  | kept (h : host.Refers execution) : Released host execution host.api
  | closed {result : Result Unit} {api' : Api Memory} (h : ¬ host.Refers execution)
      (hrun : exec execution.destroy host.api = some (result, api')) :
      Released host execution api'

/-- The destructor of what an event object held. -/
inductive Destroyed (host : Host Memory) : Option CompletionState → Api Memory → Prop where
  | none : Destroyed host none host.api
  | some {state : CompletionState} {result : Result Unit} {middle api' : Api Memory}
      (hrun : exec (state.execution.destroyCompletion state.event) host.api = some (result, middle))
      (hreleased : Released { host with api := middle } state.execution api') :
      Destroyed host (some state) api'

/-- A submission under the state, whatever the state of the runtime is. -/
def IsSubmission (execution : ExecutionState) (submission : Call Memory Nat) : Prop :=
  ∀ api, Serves execution api → Submits execution (fun _ => True) api submission

open Function in
inductive HostStep : Host Memory → Host Memory → Prop where
  | createContext {host : Host Memory} {name : Nat} {device : Int} {execution : ExecutionState}
      {api' : Api Memory} (hfree : host.contexts name = none)
      (hrun : exec (createCudaExecutionContext device) host.api = some (.ok execution, api')) :
      HostStep host
        { host with api := api', contexts := update host.contexts name (some execution) }
  | createContextFails {host : Host Memory} {device : Int} {status : Status} {api' : Api Memory}
      (hrun : exec (createCudaExecutionContext device) host.api = some (.error status, api')) :
      HostStep host { host with api := api' }
  | copyContext {host : Host Memory} {name source : Nat} {execution : ExecutionState}
      (hfree : host.contexts name = none) (hsource : host.contexts source = some execution) :
      HostStep host { host with contexts := update host.contexts name (some execution) }
  | destroyContext {host : Host Memory} {name : Nat} {execution : ExecutionState}
      {api' : Api Memory} (hcontext : host.contexts name = some execution)
      (hreleased : Released { host with contexts := update host.contexts name none } execution
        api') :
      HostStep host { host with api := api', contexts := update host.contexts name none }
  | submit {host : Host Memory} {name context event : Nat} {execution : ExecutionState}
      {submission : Call Memory Nat} {api' : Api Memory} (hfree : host.events name = .moved)
      (hcontext : host.contexts context = some execution)
      (hsubmission : IsSubmission execution submission)
      (hrun : exec submission host.api = some (.ok event, api')) :
      HostStep host
        { host with
          api := api', events := update host.events name (.ofState ⟨execution, event⟩) }
  | submitFails {host : Host Memory} {context : Nat} {execution : ExecutionState}
      {submission : Call Memory Nat} {status : Status} {api' : Api Memory}
      (hcontext : host.contexts context = some execution)
      (hsubmission : IsSubmission execution submission)
      (hrun : exec submission host.api = some (.error status, api')) :
      HostStep host { host with api := api' }
  | completed {host : Host Memory} {name : Nat} (hfree : host.events name = .moved) :
      HostStep host { host with events := update host.events name .completed }
  | query {host : Host Memory} {name : Nat} {result : Bool} {api' : Api Memory}
      (hrun : exec (host.events name).query host.api = some (.ok result, api')) :
      HostStep host
        { host with
          api := api'
          events := update host.events name { host.events name with complete := result } }
  | queryFails {host : Host Memory} {name : Nat} {status : Status} {api' : Api Memory}
      (hrun : exec (host.events name).query host.api = some (.error status, api')) :
      HostStep host { host with api := api' }
  | wait {host : Host Memory} {name : Nat} {api' : Api Memory}
      (hrun : exec (host.events name).wait host.api = some (.ok (), api')) :
      HostStep host
        { host with
          api := api'
          events := update host.events name { host.events name with complete := true } }
  | waitFails {host : Host Memory} {name : Nat} {status : Status} {api' : Api Memory}
      (hrun : exec (host.events name).wait host.api = some (.error status, api')) :
      HostStep host { host with api := api' }
  | moveConstruct {host : Host Memory} {name source : Nat} (hne : name ≠ source)
      (hfree : host.events name = .moved) :
      HostStep host
        { host with
          events := update (update host.events name (host.events source)) source .moved }
  | moveAssign {host : Host Memory} {name source : Nat} {api' : Api Memory} (hne : name ≠ source)
      (hdestroyed : Destroyed
        { host with
          events := update (update host.events name (host.events source)) source .moved }
        (host.events name).state api') :
      HostStep host
        { host with
          api := api'
          events := update (update host.events name (host.events source)) source .moved }
  | destroyEvent {host : Host Memory} {name : Nat} {api' : Api Memory}
      (hdestroyed : Destroyed { host with events := update host.events name .moved }
        (host.events name).state api') :
      HostStep host { host with api := api', events := update host.events name .moved }

/-- Any number of steps. -/
inductive HostRun : Host Memory → Host Memory → Prop where
  | refl (host : Host Memory) : HostRun host host
  | tail {host middle last : Host Memory} (h : HostRun host middle) (hstep : HostStep middle last) :
      HostRun host last

/-! ## The invariant -/

theorem Yields.of_ok {α : Type} {effect : Call Memory α} {api api' : Api Memory}
    {returns : α → Api Memory → Prop} {fails : Status → Api Memory → Prop} {value : α}
    (h : Yields effect api returns fails) (hrun : exec effect api = some (.ok value, api')) :
    returns value api' := by
  rcases h with ⟨result, last, hrun', hresult⟩
  rw [hrun] at hrun'
  cases hrun'
  exact hresult

theorem Yields.of_error {α : Type} {effect : Call Memory α} {api api' : Api Memory}
    {returns : α → Api Memory → Prop} {fails : Status → Api Memory → Prop} {status : Status}
    (h : Yields effect api returns fails) (hrun : exec effect api = some (.error status, api')) :
    fails status api' := by
  rcases h with ⟨result, last, hrun', hresult⟩
  rw [hrun] at hrun'
  cases hrun'
  exact hresult

theorem Yields.of_run {α : Type} {effect : Call Memory α} {api api' : Api Memory}
    {leaves : Api Memory → Prop} {result : Result α}
    (h : Yields effect api (fun _ => leaves) fun _ => leaves)
    (hrun : exec effect api = some (result, api')) : leaves api' := by
  cases result with
  | ok value => exact Yields.of_ok h hrun
  | error status => exact Yields.of_error h hrun

/-! ### Handles -/

section Handles

variable {api api' : Api Memory} {execution : ExecutionState} {later : List (Answered Memory)}
  {event stream : Nat}

/-- The event has been recorded on the stream; when it is known to be complete, the runtime has told
so. -/
structure Placed (stream event : Nat) (complete : Bool) (calls : List (Answered Memory)) : Prop where
  recorded : eventPhase event calls = some (.recorded stream) ∨
    eventPhase event calls = some (.passed stream)
  told : complete = true → eventPhase event calls = some (.passed stream)

theorem Placed.phase_ne {complete : Bool} {calls : List (Answered Memory)}
    (h : Placed stream event complete calls) : eventPhase event calls ≠ none := by
  rcases h.recorded with hphase | hphase
  · simp [hphase]
  · simp [hphase]

theorem Placed.of_eq {complete : Bool} {calls calls' : List (Answered Memory)}
    (h : Placed stream event complete calls) (heq : eventPhase event calls' = eventPhase event calls) :
    Placed stream event complete calls' := by
  constructor
  · rw [heq]
    exact h.recorded
  · rw [heq]
    exact h.told

/-- An event that the runtime hands out was not alive. -/
theorem OwnEvents.created (hfresh : HandsOutFresh api.runtime) (hleads : Leads later api api')
    (event : Nat) :
    Allowed (fun past entry => (eventLife event).begins entry ≠ none →
      (eventLife event).after none past = none) api.calls later := by
  refine hleads.genuine.mono fun past entry hgenuine hbegins => ?_
  rcases entry with ⟨call, answer⟩
  have hanswer := hgenuine.1
  cases call <;> rcases answer with error | created <;> simp [eventLife] at hbegins
  subst hbegins
  exact hfresh.event past created hanswer.symm

/-- An operation leaves the events of others alone. -/
theorem OwnEvents.untouched (h : OwnEvents later) (hfresh : HandsOutFresh api.runtime)
    (hleads : Leads later api api') (halive : eventPhase event api.calls ≠ none) :
    ∀ entry ∈ later, (eventLife event).Untouched entry := by
  rcases Option.ne_none_iff_exists'.1 halive with ⟨phase, hphase⟩
  exact Lifetime.untouched_of_own hphase (created hfresh hleads event) (h.events event)

theorem OwnEvents.kept (h : OwnEvents later) (hfresh : HandsOutFresh api.runtime)
    (hleads : Leads later api api') (halive : eventPhase event api.calls ≠ none) :
    eventPhase event api'.calls = eventPhase event api.calls := by
  rw [hleads.calls_eq, eventPhase_append,
    Lifetime.after_of_untouched (h.untouched hfresh hleads halive)]

/-- An event that was not alive before is alive only when the calls have created it. -/
theorem eventPhase_of_dead (hleads : Leads later api api') (hdead : eventPhase event api.calls = none) :
    eventPhase event api'.calls = eventPhase event later := by
  rw [hleads.calls_eq, eventPhase_append, hdead]
  rfl

/-- A stream that lives on still serves. -/
theorem Serves.of_life (h : Serves execution api) (hleads : Leads later api api')
    (halive : (streamLife execution.stream).after (some ()) later = some ())
    (hcreates : ∀ entry ∈ later, entry.createsStream execution.stream = false) :
    Serves execution api' where
  alive := by
    rw [hleads.calls_eq, StreamAlive, Lifetime.after_append, h.alive, halive]
  device_eq first htold := by
    rw [hleads.calls_eq] at htold ⊢
    rw [streamDevice, before_append hcreates, ← h.device_eq first htold.of_append, streamDevice]

/-- One call about another stream. -/
theorem Serves.around {entry : Answered Memory} (h : Serves execution api)
    (hleads : Leads later api api') (haround : Around entry later)
    (hcreates : entry.createsStream execution.stream = false)
    (huntouched : (streamLife execution.stream).Untouched entry) : Serves execution api' := by
  refine h.of_life hleads ?_ fun other hother => ?_
  · rw [haround.streamLife_after, Lifetime.step_of_untouched huntouched]
  · rcases haround with ⟨earlier, rest, hearlier, hrest, rfl⟩
    rcases List.mem_append.1 hother with hmem | hmem
    · exact (hearlier.keepsStreams other hmem _).1
    · rcases List.mem_cons.1 hmem with rfl | hmem
      · exact hcreates
      · exact (hrest.keepsStreams other hmem _).1

theorem Leads.denies (h : Leads later api api') (hdenies : DeniesDevice api) : DeniesDevice api' := by
  rcases hdenies with ⟨entry, hentry, hnot⟩
  refine ⟨entry, ?_, hnot⟩
  rw [h.calls_eq]
  exact List.mem_append_left _ hentry

end Handles

/-! ### Objects -/

/-- The objects and the record fit together.  Events in a set may be alive without an owner. -/
structure Consistent (runtime : Runtime Memory) (loose : Set Nat) (host : Host Memory) : Prop where
  runtime_eq : host.api.runtime = runtime
  genuine : Allowed (Genuine runtime) [] host.api.calls
  serves : ∀ execution, host.Refers execution → Serves execution host.api
  shared : ∀ execution other, host.Refers execution → host.Refers other →
    execution.stream = other.stream → execution = other
  placed : ∀ name state, (host.events name).state = some state →
    Placed state.execution.stream state.event (host.events name).complete host.api.calls
  owner : ∀ name other state state', (host.events name).state = some state →
    (host.events other).state = some state' → state.event = state'.event → name = other
  pending : ∀ name, (host.events name).valid = true → (host.events name).complete = false →
    (host.events name).state ≠ none
  noneLeaked : ¬ DeniesDevice host.api → ∀ event, eventPhase event host.api.calls ≠ none →
    event ∉ loose → host.Owns event
  steady : ∀ first, DevicesTold first host.api.calls → current first host.api.calls = first

section Preservation

variable {runtime : Runtime Memory} {loose loose' : Set Nat} {host : Host Memory} {api' : Api Memory}
  {execution : ExecutionState} {later : List (Answered Memory)}

/-- The runtime is called, and the objects stay. -/
theorem Consistent.evolve (h : Consistent runtime loose host) (hleads : Leads later host.api api')
    (hrestored : Restored host.api api')
    (hserves : ∀ execution, host.Refers execution → Serves execution api')
    (hevents : ∀ name state, (host.events name).state = some state →
      Placed state.execution.stream state.event (host.events name).complete api'.calls)
    (hnone : ¬ DeniesDevice api' → ∀ event, eventPhase event api'.calls ≠ none →
      event ∉ loose' → host.Owns event) :
    Consistent runtime loose' { host with api := api' } where
  runtime_eq := hleads.runtime_eq.trans h.runtime_eq
  genuine := by
    have hgenuine := hleads.genuine
    rw [h.runtime_eq] at hgenuine
    simp only
    rw [hleads.calls_eq, allowed_append]
    exact ⟨h.genuine, hgenuine⟩
  serves := hserves
  shared := h.shared
  placed := hevents
  owner := h.owner
  pending := h.pending
  noneLeaked := hnone
  steady first htold := by
    have htold' : DevicesTold first host.api.calls := by
      simp only at htold
      rw [hleads.calls_eq] at htold
      exact htold.of_append
    exact (hrestored.current_eq first htold).trans (h.steady first htold')

theorem Consistent.still (h : Consistent runtime loose host) (hstill : Still host.api api')
    (hrestored : Restored host.api api') : Consistent runtime loose { host with api := api' } := by
  have hphase := hstill.eventPhase_eq
  have hserves := fun execution hrefers => (h.serves execution hrefers).still hstill
  rcases hstill with ⟨later, hlater, hleads⟩
  refine h.evolve hleads hrestored hserves (fun name state hstate =>
    (h.placed name state hstate).of_eq (hphase _)) fun hdenies event halive => ?_
  rw [hphase] at halive
  exact h.noneLeaked (fun hbefore => hdenies (hleads.denies hbefore)) event halive

/-- An execution state that no object holds any more goes, and nothing else with it. -/
theorem Consistent.released (h : Consistent runtime loose host) (hserves : Serves execution host.api)
    (hshared : ∀ other, host.Refers other → other.stream = execution.stream → other = execution)
    (hreleased : Released host execution api') :
    Consistent runtime loose { host with api := api' } := by
  cases hreleased with
  | kept => exact h
  | closed hnot hrun =>
    rcases Yields.of_run (yields_destroy hserves) hrun with ⟨⟨answer, later, haround, hleads⟩ | hdenied,
      hrestored⟩
    · have hphase : ∀ event, eventPhase event api'.calls = eventPhase event host.api.calls := by
        intro event
        rw [hleads.calls_eq, eventPhase_append, haround.eventLife_after]
        exact Lifetime.step_of_untouched ⟨rfl, fun _ => rfl⟩
      refine h.evolve hleads hrestored (fun other hrefers => ?_) (fun name state hstate =>
        (h.placed name state hstate).of_eq (hphase _)) fun hdenies event halive => ?_
      · have hne : execution.stream ≠ other.stream := fun heq =>
          hnot (hshared other hrefers heq.symm ▸ hrefers)
        exact (h.serves other hrefers).around hleads haround rfl ⟨rfl, fun _ => if_neg hne⟩
      · rw [hphase] at halive
        exact h.noneLeaked (fun hbefore => hdenies (hleads.denies hbefore)) event halive
    · exact h.still hdenied.1 hrestored

end Preservation

section Objects

open Function

variable {runtime : Runtime Memory} {loose : Set Nat} {host : Host Memory} {api' : Api Memory}
  {execution : ExecutionState} {state : CompletionState} {name : Nat}

/-- What an object held is destroyed behind it. -/
theorem Consistent.destroyed (h : Consistent runtime {state.event} host)
    (hserves : Serves state.execution host.api)
    (halive : eventPhase state.event host.api.calls ≠ none) (hnot : ¬ host.Owns state.event)
    (hshared : ∀ other, host.Refers other → other.stream = state.execution.stream →
      other = state.execution)
    (hdestroyed : Destroyed host (some state) api') :
    Consistent runtime ∅ { host with api := api' } := by
  cases hdestroyed with
  | some hrun hreleased =>
    rename_i result middle
    rcases Yields.of_run (yields_destroyCompletion halive) hrun with ⟨hdestructs, hrestored⟩
    have hmiddle : Consistent runtime ∅ { host with api := middle } ∧
        Serves state.execution middle := by
      rcases hdestructs with ⟨answer, later, haround, hleads⟩ | ⟨hstill, hdenies⟩
      · have hkeeps : KeepsStreams later := haround.keepsStreams fun _ => ⟨rfl, rfl, fun _ => rfl⟩
        have hphase : ∀ event, event ≠ state.event →
            eventPhase event middle.calls = eventPhase event host.api.calls := by
          intro event hne
          rw [hleads.calls_eq, eventPhase_append, haround.eventLife_after]
          exact Lifetime.step_of_untouched ⟨rfl, fun _ => if_neg (Ne.symm hne)⟩
        refine ⟨h.evolve hleads hrestored (fun other hrefers =>
          (h.serves other hrefers).leads hleads hkeeps) (fun name state' hstate => ?_)
            fun hdenies event halive' _ => ?_, hserves.leads hleads hkeeps⟩
        · refine (h.placed name state' hstate).of_eq (hphase _ fun heq => ?_)
          exact hnot ⟨name, state', hstate, heq⟩
        · -- No event has come to life, and the one that was held is dead now.
          by_cases heq : event = state.event
          · refine absurd ?_ halive'
            rw [heq, hleads.calls_eq, eventPhase_append, haround.eventLife_after]
            cases eventPhase state.event host.api.calls <;> simp [Lifetime.step, eventLife]
          · rw [hphase event heq] at halive'
            exact h.noneLeaked (fun hbefore => hdenies (hleads.denies hbefore)) event halive'
              (by simpa using heq)
      · have hevolved := h.still hstill hrestored
        refine ⟨{ hevolved with noneLeaked := fun hnone => absurd hdenies hnone },
          hserves.still hstill⟩
    exact hmiddle.1.released hmiddle.2 hshared hreleased

/-- Objects are moved, copied or taken away. -/
theorem Consistent.rearrange (h : Consistent runtime ∅ host)
    {contexts' : Nat → Option ExecutionState} {events' : Nat → CompletionEvent}
    (origin : Nat → Nat) (hinjective : Injective origin)
    (hevents : ∀ name, events' name = .moved ∨ events' name = host.events (origin name))
    (hcontexts : ∀ name execution, contexts' name = some execution →
      ∃ name, host.contexts name = some execution)
    (hkept : ∀ event, host.Owns event → event ∉ loose →
      ∃ name state, (events' name).state = some state ∧ state.event = event) :
    Consistent runtime loose { host with contexts := contexts', events := events' } := by
  have horigin : ∀ name state, (events' name).state = some state →
      events' name = host.events (origin name) := by
    intro name state hstate
    rcases hevents name with hmoved | hsame
    · rw [hmoved] at hstate
      cases hstate
    · exact hsame
  have hrefers : ∀ execution,
      Host.Refers { host with contexts := contexts', events := events' } execution →
        host.Refers execution := by
    rintro execution (⟨name, hname⟩ | ⟨name, state, hstate, hexecution⟩)
    · exact Or.inl (hcontexts name execution hname)
    · exact Or.inr ⟨origin name, state, horigin name state hstate ▸ hstate, hexecution⟩
  exact
    { runtime_eq := h.runtime_eq
      genuine := h.genuine
      serves := fun execution hexecution => h.serves execution (hrefers execution hexecution)
      shared := fun execution other hexecution hother =>
        h.shared execution other (hrefers execution hexecution) (hrefers other hother)
      placed := by
        intro name state hstate
        have hsame := horigin name state hstate
        have hplaced := h.placed (origin name) state (hsame ▸ hstate)
        rw [← hsame] at hplaced
        exact hplaced
      owner := by
        intro name other state state' hstate hstate' heq
        exact hinjective (h.owner _ _ state state' (horigin name state hstate ▸ hstate)
          (horigin other state' hstate' ▸ hstate') heq)
      pending := by
        intro name hvalid hcomplete
        rcases hevents name with hmoved | hsame
        · simp [hmoved, CompletionEvent.moved] at hvalid
        · simp only [hsame] at hvalid hcomplete ⊢
          exact h.pending (origin name) hvalid hcomplete
      noneLeaked := fun hdenies event halive hnot =>
        hkept event (h.noneLeaked hdenies event halive (Set.notMem_empty _)) hnot
      steady := h.steady }

/-- The flags of an object change, and what it holds stays. -/
theorem Consistent.setFlags (h : Consistent runtime loose host) (object : CompletionEvent)
    (hstate : object.state = (host.events name).state)
    (hcomplete : object.complete = true → ∀ state, object.state = some state →
      eventPhase state.event host.api.calls = some (.passed state.execution.stream))
    (hpending : object.valid = true → object.complete = false → object.state ≠ none) :
    Consistent runtime loose { host with events := update host.events name object } := by
  have hsame : ∀ other, (update host.events name object other).state =
      (host.events other).state := by
    intro other
    rcases eq_or_ne other name with rfl | hne
    · rw [update_self, hstate]
    · rw [update_of_ne hne]
  have hrefers : ∀ execution,
      Host.Refers { host with events := update host.events name object } execution →
        host.Refers execution := by
    rintro execution (hcontext | ⟨other, state, hother, hexecution⟩)
    · exact Or.inl hcontext
    · exact Or.inr ⟨other, state, (hsame other).symm.trans hother, hexecution⟩
  exact
    { runtime_eq := h.runtime_eq
      genuine := h.genuine
      serves := fun execution hexecution => h.serves execution (hrefers execution hexecution)
      shared := fun execution other hexecution hother =>
        h.shared execution other (hrefers execution hexecution) (hrefers other hother)
      placed := by
        intro other state hother
        have hplaced := h.placed other state ((hsame other).symm.trans hother)
        refine ⟨hplaced.recorded, fun hflag => ?_⟩
        rcases eq_or_ne other name with rfl | hne
        · simp only [update_self] at hflag hother
          exact hcomplete hflag state hother
        · simp only [update_of_ne hne] at hflag
          exact hplaced.told hflag
      owner := by
        intro other other' state state' hother hother'
        exact h.owner other other' state state' ((hsame other).symm.trans hother)
          ((hsame other').symm.trans hother')
      pending := by
        intro other hvalid hflag
        rcases eq_or_ne other name with rfl | hne
        · simp only [update_self] at hvalid hflag ⊢
          exact hpending hvalid hflag
        · simp only [update_of_ne hne] at hvalid hflag ⊢
          exact h.pending other hvalid hflag
      noneLeaked := by
        intro hdenies event halive hnot
        rcases h.noneLeaked hdenies event halive hnot with ⟨other, state, hother, hevent⟩
        exact ⟨other, state, (hsame other).trans hother, hevent⟩
      steady := h.steady }

/-- A context for a state that nothing held before. -/
theorem Consistent.addContext (h : Consistent runtime ∅ host)
    (hserves : Serves execution host.api)
    (hshared : ∀ other, host.Refers other → other.stream ≠ execution.stream) :
    Consistent runtime ∅
      { host with contexts := update host.contexts name (some execution) } := by
  have hrefers : ∀ other,
      Host.Refers { host with contexts := update host.contexts name (some execution) } other →
        other = execution ∨ host.Refers other := by
    rintro other (⟨place, hplace⟩ | hevent)
    · rcases eq_or_ne place name with rfl | hne
      · simp only [update_self, Option.some.injEq] at hplace
        exact Or.inl hplace.symm
      · simp only [update_of_ne hne] at hplace
        exact Or.inr (Or.inl ⟨place, hplace⟩)
    · exact Or.inr (Or.inr hevent)
  exact
    { runtime_eq := h.runtime_eq
      genuine := h.genuine
      serves := by
        intro other hother
        rcases hrefers other hother with rfl | hold
        · exact hserves
        · exact h.serves other hold
      shared := by
        intro left right hleft hright heq
        rcases hrefers left hleft with rfl | hold
        · rcases hrefers right hright with rfl | hold'
          · rfl
          · exact absurd heq.symm (hshared right hold')
        · rcases hrefers right hright with rfl | hold'
          · exact absurd heq (hshared left hold)
          · exact h.shared left right hold hold' heq
      placed := h.placed
      owner := h.owner
      pending := h.pending
      noneLeaked := h.noneLeaked
      steady := h.steady }

/-- An object for the event of a submission. -/
theorem Consistent.addEvent (h : Consistent runtime {state.event} host)
    (hfree : host.events name = .moved) (hrefers : host.Refers state.execution)
    (hplaced : Placed state.execution.stream state.event false host.api.calls)
    (hnot : ¬ host.Owns state.event) :
    Consistent runtime ∅ { host with events := update host.events name (.ofState state) } := by
  have hcases : ∀ other state', (update host.events name (.ofState state) other).state =
      some state' → (other = name ∧ state' = state) ∨ (host.events other).state = some state' := by
    intro other state' hother
    rcases eq_or_ne other name with rfl | hne
    · simp only [update_self, CompletionEvent.ofState, Option.some.injEq] at hother
      exact Or.inl ⟨rfl, hother.symm⟩
    · simp only [update_of_ne hne] at hother
      exact Or.inr hother
  have hold : ∀ execution,
      Host.Refers { host with events := update host.events name (.ofState state) } execution →
        host.Refers execution := by
    rintro execution (hcontext | ⟨other, state', hother, rfl⟩)
    · exact Or.inl hcontext
    · rcases hcases other state' hother with ⟨rfl, rfl⟩ | hother
      · exact hrefers
      · exact Or.inr ⟨other, state', hother, rfl⟩
  exact
    { runtime_eq := h.runtime_eq
      genuine := h.genuine
      serves := fun execution hexecution => h.serves execution (hold execution hexecution)
      shared := fun execution other hexecution hother =>
        h.shared execution other (hold execution hexecution) (hold other hother)
      placed := by
        intro other state' hother
        rcases eq_or_ne other name with rfl | hne
        · simp only [update_self, CompletionEvent.ofState, Option.some.injEq] at hother ⊢
          subst hother
          exact hplaced
        · simp only [update_of_ne hne] at hother ⊢
          exact h.placed other state' hother
      owner := by
        intro left right state' state'' hleft hright heq
        rcases hcases left state' hleft with ⟨rfl, rfl⟩ | hleft'
        · rcases hcases right state'' hright with ⟨rfl, rfl⟩ | hright'
          · rfl
          · exact absurd ⟨right, state'', hright', heq.symm⟩ hnot
        · rcases hcases right state'' hright with ⟨rfl, rfl⟩ | hright'
          · exact absurd ⟨left, state', hleft', heq⟩ hnot
          · exact h.owner left right state' state'' hleft' hright' heq
      pending := by
        intro other hvalid hflag
        rcases eq_or_ne other name with rfl | hne
        · simp [CompletionEvent.ofState]
        · simp only [update_of_ne hne] at hvalid hflag ⊢
          exact h.pending other hvalid hflag
      noneLeaked := by
        intro hdenies event halive _
        by_cases heq : event = state.event
        · exact ⟨name, state, by simp [CompletionEvent.ofState], heq.symm⟩
        · rcases h.noneLeaked hdenies event halive (by simpa using heq) with
            ⟨other, state', hother, hevent⟩
          have hne : other ≠ name := by
            rintro rfl
            rw [hfree] at hother
            cases hother
          exact ⟨other, state', by simpa only [update_of_ne hne] using hother, hevent⟩
      steady := h.steady }

end Objects

end Cuda
end Core
end AscCpp
