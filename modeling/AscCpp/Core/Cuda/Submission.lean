import AscCpp.Core.Cuda.Runtime
import Mathlib.Algebra.Order.BigOperators.Group.List

/-!
# Submission — what the operations of an execution context leave behind

A submission hands out one event that stands in the queue behind its work, or it fails: then a
`cudaStreamSynchronize` stands behind the work that was accepted, and every event that it created has
been given to `cudaEventDestroy`.

- `Submits.recordEvent`, `Submits.copyBytes`: the submissions of the core.
- `yields_query`, `yields_wait`: a completion is reported when the runtime has told of it.
- `yields_destroy`, `yields_destroyCompletion`: what the destructors call.
-/

namespace AscCpp
namespace Core
namespace Cuda

open Effect Library Library.History

variable {Memory α : Type} {api api' api'' : Api Memory} {execution : ExecutionState}
  {first second later : List (Answered Memory)} {entry : Answered Memory}

/-! ## Streams -/

/-- The stream of the state is alive, and was created for the device of the state. -/
structure Serves (execution : ExecutionState) (api : Api Memory) : Prop where
  alive : StreamAlive execution.stream api.calls
  device_eq : ∀ first, DevicesTold first api.calls →
    streamDevice first execution.stream api.calls = execution.device

theorem Serves.leads (h : Serves execution api) (hleads : Leads later api api')
    (hkeeps : KeepsStreams later) : Serves execution api' where
  alive := by
    rw [hleads.calls_eq]
    exact hkeeps.streamAlive h.alive
  device_eq first htold := by
    rw [hleads.calls_eq] at htold ⊢
    rw [hkeeps.streamDevice_eq, h.device_eq first htold.of_append]

theorem Serves.still (h : Serves execution api) (hstill : Still api api') :
    Serves execution api' := by
  rcases hstill with ⟨later, hlater, hleads⟩
  exact h.leads hleads hlater.keepsStreams

theorem Serves.takesWork (h : Serves execution api) (hselects : Selects execution.device api.calls) :
    TakesWork execution.stream api.calls :=
  ⟨h.alive, fun first htold => (h.device_eq first htold).trans (hselects first htold).symm⟩

/-! ## Events -/

/-- The calls change only events that they have created themselves, and no stream. -/
structure OwnEvents (later : List (Answered Memory)) : Prop where
  events : ∀ event, Allowed
    (fun past entry => eventPhase event past = none → (eventLife event).begins entry = none →
      (eventLife event).Untouched entry) [] later
  streams : KeepsStreams later

theorem eventPhase_of_some {event : Nat} {phase : EventPhase} (h : eventPhase event second = some phase)
    (first : List (Answered Memory)) : eventPhase event (first ++ second) = some phase := by
  rw [eventPhase_append]
  exact Lifetime.after_of_some h _

theorem OwnEvents.append (h : OwnEvents first) (h' : OwnEvents second) :
    OwnEvents (first ++ second) where
  events event := by
    rw [allowed_append]
    refine ⟨h.events event, ?_⟩
    rw [List.nil_append, ← List.append_nil first]
    refine Allowed.shift (fun past entry hallowed hnone => hallowed ?_) (h'.events event)
    cases hphase : eventPhase event past with
    | none => rfl
    | some phase =>
      rw [eventPhase_of_some hphase] at hnone
      cases hnone
  streams entry hentry := (List.mem_append.1 hentry).elim (h.streams entry) (h'.streams entry)

theorem StillCalls.ownEvents (h : StillCalls later) : OwnEvents later where
  events event := allowed_of_forall fun entry hentry _ _ _ =>
    (Answered.still_spec (h entry hentry)).2.2.2 event
  streams := h.keepsStreams

theorem StillCalls.eventPhase_eq (h : StillCalls later) (event : Nat) :
    eventPhase event later = none :=
  h.eventLife_after event none

/-- A call for an event that was created before. -/
theorem OwnEvents.concat (h : OwnEvents later) {event : Nat} (howned : eventPhase event later ≠ none)
    (hothers : ∀ other, other ≠ event → (eventLife other).Untouched entry)
    (hstreams : ∀ stream, entry.createsStream stream = false ∧ (streamLife stream).Untouched entry) :
    OwnEvents (later ++ [entry]) where
  events other := by
    rw [allowed_append, allowed_singleton]
    refine ⟨h.events other, fun hnone _ => hothers other ?_⟩
    rintro rfl
    exact howned hnone
  streams other hother stream := by
    rcases List.mem_append.1 hother with hbefore | hlast
    · exact h.streams other hbefore stream
    · exact List.mem_singleton.1 hlast ▸ hstreams stream

/-! ## Submissions -/

/-- The calls of a submission: they put the work into the queue of the stream, and the record of an
event of their own behind it. -/
structure Submission (execution : ExecutionState) (work : List (Work Memory)) (event : Nat)
    (later : List (Answered Memory)) : Prop where
  queue_eq : queue execution.stream later = work ++ [.record event]
  elsewhere : ∀ stream, stream ≠ execution.stream → queue stream later = []
  phase_eq : eventPhase event later = some (.recorded execution.stream)
  noneLeft : ∀ other, eventPhase other later ≠ none → other = event
  own : OwnEvents later

/-- The calls of a submission that has failed. -/
structure Refusal (execution : ExecutionState) (later : List (Answered Memory)) : Prop where
  drained : unsynchronized execution.stream [] later = []
  elsewhere : ∀ stream, stream ≠ execution.stream → queue stream later = []
  noneLeft : ∀ event, eventPhase event later = none
  own : OwnEvents later

/-- A submission has put work into the queue and handed out this event behind it. -/
abbrev Submitted (execution : ExecutionState) (work : List (Work Memory)) (api : Api Memory)
    (event : Nat) (api' : Api Memory) : Prop :=
  Comes (Submission execution work event) api api'

/-- A submission has failed; its work is waited for, and its events are destroyed. -/
abbrev Refused (execution : ExecutionState) (api api' : Api Memory) : Prop :=
  Comes (Refusal execution) api api'

theorem Submission.surround {work : List (Work Memory)} {event : Nat}
    (h : Submission execution work event later) (hfirst : StillCalls first)
    (hsecond : StillCalls second) : Submission execution work event (first ++ (later ++ second)) where
  queue_eq := by
    rw [queue_append, queue_append, hfirst.queue_eq, hsecond.queue_eq, List.nil_append,
      List.append_nil, h.queue_eq]
  elsewhere stream hne := by
    rw [queue_append, queue_append, hfirst.queue_eq, hsecond.queue_eq, h.elsewhere stream hne]
    rfl
  phase_eq := by
    rw [eventPhase_append, hfirst.eventPhase_eq, Lifetime.after_append, hsecond.eventLife_after]
    exact h.phase_eq
  noneLeft other hphase := by
    rw [eventPhase_append, hfirst.eventPhase_eq, Lifetime.after_append, hsecond.eventLife_after]
      at hphase
    exact h.noneLeft other hphase
  own := hfirst.ownEvents.append (h.own.append hsecond.ownEvents)

theorem Refusal.surround (h : Refusal execution later) (hfirst : StillCalls first)
    (hsecond : StillCalls second) : Refusal execution (first ++ (later ++ second)) where
  drained := by
    rw [unsynchronized_append, hfirst.unsynchronized_eq, unsynchronized_append, h.drained,
      hsecond.unsynchronized_eq]
  elsewhere stream hne := by
    rw [queue_append, queue_append, hfirst.queue_eq, hsecond.queue_eq, h.elsewhere stream hne]
    rfl
  noneLeft event := by
    rw [eventPhase_append, hfirst.eventPhase_eq, Lifetime.after_append, hsecond.eventLife_after]
    exact h.noneLeft event
  own := hfirst.ownEvents.append (h.own.append hsecond.ownEvents)

theorem StillCalls.refusal (h : StillCalls later) (execution : ExecutionState) :
    Refusal execution later where
  drained := h.unsynchronized_eq execution.stream
  elsewhere stream _ := h.queue_eq stream
  noneLeft := h.eventPhase_eq
  own := h.ownEvents

theorem Submitted.surround {work : List (Work Memory)} {event : Nat} {last : Api Memory}
    (hfirst : Still api api') (h : Submitted execution work api' event api'')
    (hsecond : Still api'' last) : Submitted execution work api event last :=
  Comes.surround (fun hstill hlater => hlater.surround hstill) hfirst h hsecond

theorem Refused.surround {last : Api Memory} (hfirst : Still api api')
    (h : Refused execution api' api'') (hsecond : Still api'' last) : Refused execution api last :=
  Comes.surround (fun hstill hlater => hlater.surround hstill) hfirst h hsecond

theorem Still.refused (h : Still api api') (execution : ExecutionState) :
    Refused execution api api' :=
  h.mono fun _ hlater => hlater.refusal execution

/-- A submission of work that is allowed: it puts that into the queue and hands out an event behind
it, or it fails; the current device is restored in both cases. -/
def Submits (execution : ExecutionState) (allowed : List (Work Memory) → Prop) (api : Api Memory)
    (submission : Call Memory Nat) : Prop :=
  Yields submission api
    (fun event api' => (∃ work, allowed work ∧ Submitted execution work api event api') ∧
      Restored api api')
    (fun _ api' => Refused execution api api' ∧ Restored api api')

variable {allowed allowed' : List (Work Memory) → Prop}

theorem Submits.mono {submission : Call Memory Nat} (h : Submits execution allowed api submission)
    (hallowed : ∀ work, allowed work → allowed' work) :
    Submits execution allowed' api submission :=
  Yields.mono h (fun _ _ hlast => ⟨hlast.1.imp fun work hwork => hwork.imp_left (hallowed work),
    hlast.2⟩) fun _ _ hlast => hlast

/-- A submission behind calls that inspect only. -/
theorem Submits.quiet {submission : Call Memory Nat} (h : Submits execution allowed api' submission)
    (hquiet : Quiet api api') :
    Yields submission api'
      (fun event last => (∃ work, allowed work ∧ Submitted execution work api event last) ∧
        Restored api last)
      (fun _ last => Refused execution api last ∧ Restored api last) := by
  have hrestored := Restored.of_quiet hquiet
  refine Yields.mono h (fun event last hlast => ⟨?_, hrestored.trans hlast.2⟩) fun _ last hlast =>
    ⟨Refused.surround hquiet.still hlast.1 (.refl last), hrestored.trans hlast.2⟩
  exact hlast.1.imp fun work hwork =>
    hwork.imp_right fun hwork => Submitted.surround hquiet.still hwork (.refl last)

/-- A submission in the scope of a guard. -/
theorem Submits.of_body {body : Call Memory Nat}
    (h : ∀ start, Still api start → Selects execution.device start.calls →
      Submits execution allowed start body) :
    Submits execution allowed api (withDevice execution.device body) := by
  refine @yields_withDevice _ _ _ _ _
    (fun event api api' => ∃ work, allowed work ∧ Submitted execution work api event api')
    (fun _ api api' => Refused execution api api') (fun hfirst hsubmitted hsecond => ?_)
    (fun hfirst hrefused hsecond => hrefused.surround hfirst hsecond)
    (fun hstill => hstill.refused execution) h
  exact hsubmitted.imp fun work hwork => hwork.imp_right fun hwork =>
    Submitted.surround hfirst hwork hsecond

/-! ## Records -/

/-- The calls in the midst of a submission: one event has been created, and work has been put into
the queue. -/
structure Pending (execution : ExecutionState) (event : Nat) (work : List (Work Memory))
    (later : List (Answered Memory)) : Prop where
  queue_eq : queue execution.stream later = work
  elsewhere : ∀ stream, stream ≠ execution.stream → queue stream later = []
  phase_eq : eventPhase event later = some .created
  noneLeft : ∀ other, other ≠ event → eventPhase other later = none
  own : OwnEvents later

theorem eventPhase_concat (event : Nat) (later : List (Answered Memory)) (entry : Answered Memory) :
    eventPhase event (later ++ [entry]) = (eventLife event).step (eventPhase event later) entry :=
  eventPhase_append event later [entry]

theorem queue_concat (stream : Nat) (later : List (Answered Memory)) (entry : Answered Memory) :
    queue stream (later ++ [entry]) = queue stream later ++ entry.enqueued stream := by
  rw [queue_append]
  simp [queue]

namespace Pending

variable {event : Nat} {work : List (Work Memory)}

/-- An event that has just been created. -/
theorem create (execution : ExecutionState) (event : Nat) :
    Pending execution event ([] : List (Work Memory)) [⟨.eventCreate, .ok event⟩] where
  queue_eq := rfl
  elsewhere _ _ := rfl
  phase_eq := by simp [eventPhase, Lifetime.step, eventLife]
  noneLeft other hne := by simp [eventPhase, Lifetime.step, eventLife, Ne.symm hne]
  own :=
    { events := fun _ => allowed_singleton.2 fun _ hnone => ⟨hnone, fun _ => rfl⟩
      streams := fun entry hentry stream => by
        rw [List.mem_singleton.1 hentry]
        exact ⟨rfl, rfl, fun _ => rfl⟩ }

theorem phase_ne (h : Pending execution event work later) : eventPhase event later ≠ none := by
  rw [h.phase_eq]
  exact Option.some_ne_none _

theorem still (h : Pending execution event work first) (hstill : StillCalls second) :
    Pending execution event work (first ++ second) where
  queue_eq := by rw [queue_append, hstill.queue_eq, List.append_nil, h.queue_eq]
  elsewhere stream hne := by rw [queue_append, hstill.queue_eq, h.elsewhere stream hne]; rfl
  phase_eq := by rw [eventPhase_append, hstill.eventLife_after, h.phase_eq]
  noneLeft other hne := by rw [eventPhase_append, hstill.eventLife_after, h.noneLeft other hne]
  own := h.own.append hstill.ownEvents

/-- A call that puts one piece of work into the queue. -/
theorem enqueue (h : Pending execution event work later) {piece : Work Memory}
    (hpiece : entry.enqueued execution.stream = [piece])
    (helsewhere : ∀ stream, stream ≠ execution.stream → entry.enqueued stream = [])
    (hevents : ∀ event, (eventLife event).Untouched entry)
    (hstreams : ∀ stream, entry.createsStream stream = false ∧ (streamLife stream).Untouched entry) :
    Pending execution event (work ++ [piece]) (later ++ [entry]) where
  queue_eq := by rw [queue_concat, h.queue_eq, hpiece]
  elsewhere stream hne := by rw [queue_concat, h.elsewhere stream hne, helsewhere stream hne]; rfl
  phase_eq := by rw [eventPhase_concat, Lifetime.step_of_untouched (hevents event), h.phase_eq]
  noneLeft other hne := by
    rw [eventPhase_concat, Lifetime.step_of_untouched (hevents other), h.noneLeft other hne]
  own := h.own.append
    { events := fun event => allowed_singleton.2 fun _ _ => hevents event
      streams := fun other hother => List.mem_singleton.1 hother ▸ hstreams }

/-- The record behind the work. -/
theorem record (h : Pending execution event work later) :
    Submission execution work event
      (later ++ [⟨.eventRecord event execution.stream, .ok ()⟩]) where
  queue_eq := by
    rw [queue_concat, h.queue_eq]
    simp [Answered.enqueued]
  elsewhere stream hne := by
    rw [queue_concat, h.elsewhere stream hne]
    simp [Answered.enqueued, Ne.symm hne]
  phase_eq := by
    rw [eventPhase_concat, h.phase_eq]
    simp [Lifetime.step, eventLife]
  noneLeft other := by
    contrapose!
    intro hne
    rw [eventPhase_concat, h.noneLeft other hne]
    rfl
  own := h.own.concat h.phase_ne
    (fun other hne => ⟨rfl, fun phase => by simp [eventLife, Ne.symm hne]⟩)
    fun stream => ⟨rfl, rfl, fun _ => rfl⟩

/-- The clean-up of an error path. -/
theorem cleanup (h : Pending execution event work later) (answer answer' : Except CudaError Unit) :
    Refusal execution (later ++ [⟨.streamSynchronize execution.stream, answer⟩] ++
      [⟨.eventDestroy event, answer'⟩]) where
  drained := by
    rw [unsynchronized_append, unsynchronized_append]
    simp [unsynchronized, Answered.enqueued]
  elsewhere stream hne := by
    rw [queue_concat, queue_concat, h.elsewhere stream hne]
    rfl
  noneLeft other := by
    rw [eventPhase_concat, eventPhase_concat]
    by_cases heq : other = event
    · rw [heq, h.phase_eq]
      simp [Lifetime.step, eventLife]
    · rw [h.noneLeft other heq]
      rfl
  own := by
    have hdrained := h.still (stillCalls_singleton
      (rfl : (⟨.streamSynchronize execution.stream, answer⟩ : Answered Memory).still = true))
    exact hdrained.own.concat hdrained.phase_ne
      (fun other hne => ⟨rfl, fun phase => by simp [eventLife, Ne.symm hne]⟩)
      fun stream => ⟨rfl, rfl, fun _ => rfl⟩

end Pending

/-- A submission has begun: it has created its event and put work into the queue. -/
structure Begun (execution : ExecutionState) (event : Nat) (work : List (Work Memory))
    (api api' : Api Memory) : Prop where
  pending : Comes (Pending execution event work) api api'
  restored : Restored api api'

theorem Restored.leads (h : Leads [entry] api api') (hselects : ∀ device, entry.selects device = device) :
    Restored api api' where
  calls := ⟨_, h.calls_eq.symm⟩
  current_eq first _ := by
    rw [h.calls_eq, current_append]
    exact hselects _

theorem yields_drainStream {stream : Nat} (halive : StreamAlive stream api.calls)
    {fails : Status → Api Memory → Prop} :
    Yields (drainStream stream) api
      (fun _ api' => ∃ answer, Leads [⟨.streamSynchronize stream, answer⟩] api api') fails :=
  (@yields_invoke _ api (.streamSynchronize stream) halive _).bind
    fun answer _ h => Yields.pure ⟨answer, h⟩

namespace Begun

variable {event : Nat} {work : List (Work Memory)}

theorem eventPhase_ne (h : Begun execution event work api api') :
    eventPhase event api'.calls ≠ none := by
  rcases h.pending with ⟨later, hpending, hleads⟩
  rw [hleads.calls_eq, eventPhase_of_some hpending.phase_eq]
  exact Option.some_ne_none _

theorem serves (h : Begun execution event work api api') (hserves : Serves execution api) :
    Serves execution api' := by
  rcases h.pending with ⟨later, hpending, hleads⟩
  exact hserves.leads hleads hpending.own.streams

theorem quiet (h : Begun execution event work api api') (hquiet : Quiet api' api'') :
    Begun execution event work api api'' where
  pending := h.pending.trans hquiet.still fun _ _ => Pending.still
  restored := h.restored.trans (.of_quiet hquiet)

/-- The error path behind the creation of the event: the stream is drained and the event destroyed. -/
theorem yields_cleanup (h : Begun execution event work api api') (hserves : Serves execution api)
    (status : Status) {returns : Nat → Api Memory → Prop} :
    Yields (do
        drainStream execution.stream
        let _ ← cudaEventDestroy event
        throw status) api' returns
      (fun _ last => Refused execution api last ∧ Restored api last) := by
  refine (yields_drainStream (h.serves hserves).alive).bind fun _ middle hmiddle => ?_
  rcases hmiddle with ⟨answer, hdrained⟩
  have hused : WellUsed middle.calls (.eventDestroy event) :=
    (h.quiet (hdrained.quiet rfl)).eventPhase_ne
  refine (yields_invoke hused).bind fun answer' last hlast => yields_throw ?_
  rcases h.pending with ⟨later, hpending, hleads⟩
  exact ⟨⟨_, hpending.cleanup answer answer', (hleads.trans hdrained).trans hlast⟩,
    h.restored.trans ((Restored.leads hdrained fun _ => rfl).trans (.leads hlast fun _ => rfl))⟩

theorem yields_recordBehind (h : Begun execution event work api api') (hserves : Serves execution api)
    (hselects : Selects execution.device api.calls) :
    Yields (execution.recordBehind event) api'
      (fun event last => Submitted execution work api event last ∧ Restored api last)
      (fun _ last => Refused execution api last ∧ Restored api last) := by
  have hused : WellUsed api'.calls (.eventRecord event execution.stream) :=
    ⟨h.eventPhase_ne, (h.serves hserves).takesWork (h.restored.selects hselects)⟩
  unfold ExecutionState.recordBehind
  refine (yields_invoke hused).bind fun answer last hlast => ?_
  cases answer with
  | error error => exact (h.quiet (hlast.quiet rfl)).yields_cleanup hserves _
  | ok value =>
    rcases h.pending with ⟨later, hpending, hleads⟩
    exact Yields.pure ⟨⟨_, hpending.record, hleads.trans hlast⟩,
      h.restored.trans (.leads hlast fun _ => rfl)⟩

end Begun

/-- The creation of the event of a submission. -/
theorem begun_of_create {event : Nat} (h : Leads [⟨.eventCreate, .ok event⟩] api api') :
    Begun execution event ([] : List (Work Memory)) api api' where
  pending := ⟨_, .create execution event, h⟩
  restored := .leads h fun _ => rfl

theorem Submits.recordEvent (hserves : Serves execution api) :
    Submits execution (· = []) api execution.recordEvent := by
  apply Submits.of_body
  intro start hstill hselects
  have hserves' := hserves.still hstill
  refine (@yields_invoke _ start .eventCreate trivial _).bind fun answer middle hmiddle => ?_
  cases answer with
  | ok event =>
    exact ((begun_of_create hmiddle).yields_recordBehind hserves' hselects).mono
      (fun event last h => ⟨⟨[], rfl, h.1⟩, h.2⟩) fun _ _ h => h
  | error error =>
    have hquiet := hmiddle.quiet rfl
    refine (yields_drainStream (hserves'.still hquiet.still).alive).bind fun _ last hlast => ?_
    rcases hlast with ⟨answer, hdrained⟩
    have hall := hquiet.trans (hdrained.quiet rfl)
    exact yields_throw ⟨hall.still.refused execution, .of_quiet hall⟩

/-! ## Copies -/

/-- What the runtime says of a pointer fits the declared memory space. -/
def pointerHolds (space : MemorySpace) (device : Int) : Except CudaError PointerAttributes → Prop
  | .error error => space = .host ∧ error = .invalidValue
  | .ok attributes => declaredSpaceHolds space device attributes = .ok ()

/-- The runtime has been asked for the pointer of a view, and its answer fits. -/
def Accessible (view : ConstMemoryView) (device : Int) (later : List (Answered Memory)) : Prop :=
  ∃ answer, pointerHolds view.space device answer ∧
    (⟨.pointerGetAttributes view.data, answer⟩ : Answered Memory) ∈ later

theorem Accessible.surround {view : ConstMemoryView} {device : Int}
    (h : Accessible view device later) : Accessible view device (first ++ (later ++ second)) :=
  h.imp fun _ hanswer => hanswer.imp_right fun hmem =>
    List.mem_append_right _ (List.mem_append_left _ hmem)

theorem yields_validatePointer (api : Api Memory) (view : ConstMemoryView) (device : Int) :
    Yields (validatePointer view.data view.space device) api
      (fun _ api' => Comes (fun later => QuietCalls later ∧ Accessible view device later) api api')
      (fun _ api' => Quiet api api') := by
  refine (yields_pointerGetAttributes api view.data).bind fun answer middle hmiddle => ?_
  have hquiet := hmiddle.quiet rfl
  cases answer with
  | error error =>
    simp only
    split
    · -- The error is cleared.
      refine (@yields_invoke _ middle .getLastError trivial _).bind fun answer last hlast =>
        Yields.pure ⟨_, ⟨?_, .error error, ‹_›, ?_⟩, hmiddle.trans hlast⟩
      · exact (quietCalls_singleton rfl).append (quietCalls_singleton rfl)
      · exact List.mem_append_left _ List.mem_cons_self
    · exact yields_throw hquiet
  | ok attributes =>
    apply yields_ofResult
    cases hholds : declaredSpaceHolds view.space device attributes with
    | error status => exact hquiet
    | ok value =>
      exact ⟨_, ⟨quietCalls_singleton rfl, .ok attributes, hholds, List.mem_cons_self⟩, hmiddle⟩

/-- The work of a copy: none when source and destination are one place, else the copy of bytes that
do not overlap. -/
def CopyWork (destination source : ConstMemoryView) (byteCount : Nat) (work : List (Work Memory)) :
    Prop :=
  (source.data = destination.data ∧ source.space = destination.space ∧ work = []) ∨
    (rangesOverlap source.data destination.data byteCount = false ∧
      work = [.copy destination.data source.data byteCount])

/-- The calls of a copy: both pointers have been found in their spaces, and the copy is submitted. -/
structure Copied (execution : ExecutionState) (destination source : ConstMemoryView)
    (byteCount event : Nat) (later : List (Answered Memory)) : Prop where
  submission : ∃ work, CopyWork destination source byteCount work ∧
    Submission execution work event later
  source : Accessible source execution.device later
  destination : Accessible destination execution.device later

theorem Copied.surround {destination source : ConstMemoryView} {byteCount event : Nat}
    (h : Copied execution destination source byteCount event later) (hfirst : StillCalls first)
    (hsecond : StillCalls second) :
    Copied execution destination source byteCount event (first ++ (later ++ second)) where
  submission := h.submission.imp fun _ hwork => hwork.imp_right fun hwork =>
    hwork.surround hfirst hsecond
  source := h.source.surround
  destination := h.destination.surround

/-- Both pointers have been inspected. -/
structure Inspected (destination source : ConstMemoryView) (device : Int)
    (later : List (Answered Memory)) : Prop where
  quiet : QuietCalls later
  source : Accessible source device later
  destination : Accessible destination device later

theorem Inspected.copied {destination source : ConstMemoryView} {byteCount event : Nat}
    {work : List (Work Memory)} (h : Comes (Inspected destination source execution.device) api api')
    (hwork : CopyWork destination source byteCount work)
    (hsubmitted : Submitted execution work api' event api'') :
    Comes (Copied execution destination source byteCount event) api api'' := by
  refine h.trans hsubmitted fun first second hfirst hsecond => ⟨⟨work, hwork, ?_⟩, ?_, ?_⟩
  · have hall := hsecond.surround hfirst.quiet.still (List.forall_mem_nil _)
    rwa [List.append_nil] at hall
  · have hall := @Accessible.surround _ [] second first _ _ hfirst.source
    rwa [List.nil_append] at hall
  · have hall := @Accessible.surround _ [] second first _ _ hfirst.destination
    rwa [List.nil_append] at hall

theorem Begun.copy {event destination source bytes : Nat} (h : Begun execution event [] api api')
    (hcopy : Leads [⟨.memcpyAsync destination source bytes execution.stream, .ok ()⟩] api' api'') :
    Begun execution event [.copy destination source bytes] api api'' where
  pending := by
    rcases h.pending with ⟨later, hpending, hleads⟩
    refine ⟨_, hpending.enqueue ?_ ?_ ?_ ?_, hleads.trans hcopy⟩
    · simp [Answered.enqueued]
    · exact fun stream hne => by simp [Answered.enqueued, Ne.symm hne]
    · exact fun _ => ⟨rfl, fun _ => rfl⟩
    · exact fun _ => ⟨rfl, rfl, fun _ => rfl⟩
  restored := h.restored.trans (.leads hcopy fun _ => rfl)

theorem yields_executionCopyBytes (hserves : Serves execution api)
    (destination source : ConstMemoryView) (byteCount : Nat) :
    Yields (execution.copyBytes destination source byteCount) api
      (fun event api' => Comes (Copied execution destination source byteCount event) api api' ∧
        Restored api api')
      (fun _ api' => Refused execution api api' ∧ Restored api api') := by
  refine @yields_withDevice _ _ _ _ _
    (fun event api api' => Comes (Copied execution destination source byteCount event) api api')
    (fun _ api api' => Refused execution api api')
    (fun hfirst hcopied hsecond => Comes.surround (fun h hlater => hlater.surround h) hfirst hcopied
      hsecond)
    (fun hfirst hrefused hsecond => Refused.surround hfirst hrefused hsecond)
    (fun hstill => hstill.refused execution) fun start hstill hselects => ?_
  have hserves' := hserves.still hstill
  have hfails : ∀ last, Quiet start last → Refused execution start last ∧ Restored start last :=
    fun last h => ⟨h.still.refused execution, .of_quiet h⟩
  refine ((yields_validatePointer start source _).mono (fun _ _ h => h)
    fun _ last h => hfails last h).bind fun _ first hfirst => ?_
  have hquiet : Quiet start first := hfirst.mono fun _ h => h.1
  refine ((yields_validatePointer first destination _).mono (fun _ _ h => h)
    fun _ last h => hfails last (hquiet.trans h)).bind fun _ middle hmiddle => ?_
  have hinspected : Comes (Inspected destination source execution.device) start middle :=
    hfirst.trans hmiddle fun first second h h' => ⟨h.1.append h'.1,
      h.2.imp fun _ hanswer => hanswer.imp_right (List.mem_append_left _),
      h'.2.imp fun _ hanswer => hanswer.imp_right (List.mem_append_right _)⟩
  have hall : Quiet start middle := hinspected.mono fun _ h => h.quiet
  have hrestored := Restored.of_quiet hall
  have hserves'' := hserves'.still hall.still
  have hselects' := hrestored.selects hselects
  by_cases hsame : source.data = destination.data ∧ source.space = destination.space
  · rw [if_pos hsame]
    refine Yields.mono (Submits.recordEvent hserves'') (fun event last h => ?_) fun _ last h =>
      ⟨Refused.surround hall.still h.1 (.refl last), hrestored.trans h.2⟩
    rcases h with ⟨⟨work, rfl, hsubmitted⟩, hlast⟩
    exact ⟨Inspected.copied hinspected (Or.inl ⟨hsame.1, hsame.2, rfl⟩) hsubmitted,
      hrestored.trans hlast⟩
  · rw [if_neg hsame]
    refine Yields.failIf (fun _ => hfails middle hall) fun hoverlap => ?_
    have hcreate : Yields (orStatus .provider "CUDA could not create a completion event"
        cudaEventCreate) middle (fun event created => Leads [⟨.eventCreate, .ok event⟩] middle created)
        (fun _ last => Refused execution start last ∧ Restored start last) := by
      refine yields_orStatus ((@yields_invoke _ middle .eventCreate trivial _).mono
        (fun answer last h => ⟨?_, ?_⟩) fun _ _ h => h)
      · rintro error rfl
        exact hfails last (hall.trans (h.quiet rfl))
      · rintro event rfl
        exact h
    refine hcreate.bind fun event created hcreated => ?_
    have hbegun : Begun execution event [] middle created := begun_of_create hcreated
    have hback : ∀ status last, Refused execution middle last ∧ Restored middle last →
        (fun (_ : Status) last => Refused execution start last ∧ Restored start last) status last :=
      fun _ last h => ⟨Refused.surround hall.still h.1 (.refl last), hrestored.trans h.2⟩
    have hused : WellUsed created.calls
        (.memcpyAsync destination.data source.data byteCount execution.stream) :=
      (hbegun.serves hserves'').takesWork (hbegun.restored.selects hselects')
    refine (yields_invoke hused).bind fun answer copied hcopied => ?_
    cases answer with
    | error error =>
      exact ((hbegun.quiet (hcopied.quiet rfl)).yields_cleanup hserves'' _).mono (fun _ _ h => h) hback
    | ok value =>
      refine ((hbegun.copy hcopied).yields_recordBehind hserves'' hselects').mono
        (fun event last h => ⟨?_, hrestored.trans h.2⟩) hback
      exact Inspected.copied hinspected (Or.inr ⟨Bool.eq_false_iff.2 hoverlap, rfl⟩) h.1

/-! ## Completion -/

/-- One call between still ones. -/
def Around (entry : Answered Memory) (later : List (Answered Memory)) : Prop :=
  ∃ first second, StillCalls first ∧ StillCalls second ∧ later = first ++ (entry :: second)

theorem Around.surround (h : Around entry later) (hfirst : StillCalls first)
    (hsecond : StillCalls second) : Around entry (first ++ (later ++ second)) := by
  rcases h with ⟨earlier, rest, hearlier, hrest, rfl⟩
  refine ⟨first ++ earlier, rest ++ second, hfirst.append hearlier, hrest.append hsecond, ?_⟩
  simp only [List.append_assoc, List.cons_append]

theorem Leads.around (h : Leads [entry] api api') : Comes (Around entry) api api' :=
  ⟨_, ⟨[], [], List.forall_mem_nil _, List.forall_mem_nil _, rfl⟩, h⟩

theorem Around.keepsStreams (h : Around entry later)
    (hentry : ∀ stream, entry.createsStream stream = false ∧ (streamLife stream).Untouched entry) :
    KeepsStreams later := by
  rcases h with ⟨earlier, rest, hearlier, hrest, rfl⟩
  intro other hother
  rcases List.mem_append.1 hother with hbefore | hbehind
  · exact hearlier.keepsStreams other hbefore
  · rcases List.mem_cons.1 hbehind with rfl | hafter
    · exact hentry
    · exact hrest.keepsStreams other hafter

theorem Around.eventLife_after (h : Around entry later) (event : Nat) (phase : Option EventPhase) :
    (eventLife event).after phase later = (eventLife event).step phase entry := by
  rcases h with ⟨earlier, rest, hearlier, hrest, rfl⟩
  rw [Lifetime.after_append, hearlier.eventLife_after, Lifetime.after_cons, hrest.eventLife_after]

theorem Around.streamLife_after (h : Around entry later) (stream : Nat) (life : Option Unit) :
    (streamLife stream).after life later = (streamLife stream).step life entry := by
  rcases h with ⟨earlier, rest, hearlier, hrest, rfl⟩
  rw [Lifetime.after_append, hearlier.streamLife_after, Lifetime.after_cons, hrest.streamLife_after]

/-- Still calls touch no event, so that one that is alive remains so. -/
theorem Still.eventPhase_eq (h : Still api api') (event : Nat) :
    eventPhase event api'.calls = eventPhase event api.calls := by
  rcases h with ⟨later, hstill, hleads⟩
  rw [hleads.calls_eq, eventPhase_append, hstill.eventLife_after]

/-- A query that finds the event complete has been told so by the runtime. -/
theorem yields_query {event : Nat} (halive : eventPhase event api.calls ≠ none) :
    Yields (execution.query event) api
      (fun result api' => ((result = true → Comes (Around ⟨.eventQuery event, .ok ()⟩) api api') ∧
        (result = false → Still api api')) ∧ Restored api api')
      (fun _ api' => Still api api' ∧ Restored api api') := by
  refine @yields_withDevice _ _ _ _ _
    (fun (result : Bool) api api' =>
      (result = true → Comes (Around ⟨.eventQuery event, .ok ()⟩) api api') ∧
        (result = false → Still api api'))
    (fun _ api api' => Still api api') (fun hfirst h hsecond => ⟨fun htrue => ?_, fun hfalse => ?_⟩)
    (fun hfirst h hsecond => hfirst.trans (h.trans hsecond)) id fun start hstill _ => ?_
  · exact Comes.surround (fun h hlater => hlater.surround h) hfirst (h.1 htrue) hsecond
  · exact hfirst.trans ((h.2 hfalse).trans hsecond)
  · have hused : WellUsed start.calls (.eventQuery event) := by
      have halive' := hstill.eventPhase_eq event
      exact fun hnone => halive (halive'.symm.trans hnone)
    refine (yields_invoke hused).bind fun answer last hlast => ?_
    have hrestored : Restored start last := .leads hlast fun _ => rfl
    cases answer with
    | ok value => exact Yields.pure ⟨⟨fun _ => hlast.around, Bool.noConfusion⟩, hrestored⟩
    | error error =>
      have hlast' := hlast.still rfl
      cases error with
      | notReady => exact Yields.pure ⟨⟨Bool.noConfusion, fun _ => hlast'⟩, hrestored⟩
      | _ => exact yields_throw ⟨hlast', hrestored⟩

theorem yields_wait {event : Nat} (halive : eventPhase event api.calls ≠ none) :
    Yields (execution.wait event) api
      (fun _ api' => Comes (Around ⟨.eventSynchronize event, .ok ()⟩) api api' ∧ Restored api api')
      (fun _ api' => Still api api' ∧ Restored api api') := by
  refine @yields_withDevice _ _ _ _ _
    (fun _ api api' => Comes (Around ⟨.eventSynchronize event, .ok ()⟩) api api')
    (fun _ api api' => Still api api')
    (fun hfirst h hsecond => Comes.surround (fun h hlater => hlater.surround h) hfirst h hsecond)
    (fun hfirst h hsecond => hfirst.trans (h.trans hsecond)) id fun start hstill _ => ?_
  have hused : WellUsed start.calls (.eventSynchronize event) := by
    have halive' := hstill.eventPhase_eq event
    exact fun hnone => halive (halive'.symm.trans hnone)
  refine yields_orStatus ((yields_invoke hused).mono (fun answer last hlast => ⟨?_, ?_⟩)
    fun _ _ h => h)
  · rintro error rfl
    exact ⟨hlast.still rfl, .leads hlast fun _ => rfl⟩
  · rintro value rfl
    exact ⟨hlast.around, .leads hlast fun _ => rfl⟩

/-! ## Creation and destruction -/

/-- What a destructor leaves that makes this call with its device selected: without the device, the
call is not made. -/
def Destructs (call : ApiCall Memory) (api api' : Api Memory) : Prop :=
  (∃ answer, Comes (Around ⟨call, answer⟩) api api') ∨ Still api api' ∧ DeniesDevice api'

theorem yields_destructor {device : Int} {call : ApiCall Memory}
    (hused : ∀ start, Still api start → WellUsed start.calls call)
    (hselects : ∀ answer device, Answered.selects device ⟨call, answer⟩ = device)
    {fails : Status → Api Memory → Prop} :
    Yields (do
        match ← attempt (DeviceGuard.create device) with
        | .error _ => pure ()
        | .ok guard =>
          let _ ← invoke call
          guard.destroy) api
      (fun _ api' => Destructs call api api' ∧ Restored api api') fails := by
  refine (yields_attempt (yields_guardCreate api device)).bind fun outcome middle hmiddle => ?_
  cases outcome with
  | error status => exact Yields.pure ⟨Or.inr ⟨hmiddle.1, hmiddle.2.2⟩, hmiddle.2.1⟩
  | ok guard =>
    have hselected : Selected device guard api middle := hmiddle
    refine (yields_invoke (hused middle hselected.still)).bind fun answer inner hinner => ?_
    refine (yields_guardDestroy guard inner).mono (fun _ last hlast => ⟨Or.inl ⟨answer, ?_⟩, ?_⟩)
      fun _ _ h => h
    · exact Comes.surround (fun h hlater => hlater.surround h) hselected.still hinner.around
        hlast.still
    · exact hselected.restored (.leads hinner (hselects answer)) hlast

theorem yields_destroyCompletion {event : Nat} (halive : eventPhase event api.calls ≠ none)
    {fails : Status → Api Memory → Prop} :
    Yields (execution.destroyCompletion event) api
      (fun _ api' => Destructs (.eventDestroy event) api api' ∧ Restored api api') fails :=
  @yields_destructor _ api _ (.eventDestroy event)
    (fun _ hstill hnone => halive ((hstill.eventPhase_eq event).symm.trans hnone))
    (fun _ _ => rfl) fails

theorem yields_destroy (hserves : Serves execution api) {fails : Status → Api Memory → Prop} :
    Yields execution.destroy api
      (fun _ api' => Destructs (.streamDestroy execution.stream) api api' ∧ Restored api api') fails :=
  @yields_destructor _ api _ (.streamDestroy execution.stream)
    (fun _ hstill => (hserves.still hstill).alive) (fun _ _ => rfl) fails

/-- A new execution state, with a stream that has just been handed out. -/
structure Opens (device : Int) (execution : ExecutionState) (api api' : Api Memory) : Prop where
  calls : Comes (Around ⟨.streamCreate, .ok execution.stream⟩) api api'
  device_eq : execution.device = device
  serves : Serves execution api'

/-- The stream belongs to the device that is selected at its creation. -/
theorem serves_of_create {device : Int} {stream : Nat} (hselects : Selects device api.calls)
    (h : Leads [⟨.streamCreate, .ok stream⟩] api api') : Serves ⟨device, stream⟩ api' where
  alive := by
    rw [h.calls_eq, StreamAlive, Lifetime.after_append]
    simp [Lifetime.step, streamLife, Answered.createsStream]
  device_eq first htold := by
    rw [h.calls_eq] at htold ⊢
    rw [streamDevice, before_concat_self (by simp [Answered.createsStream])]
    exact hselects first htold.of_append

theorem yields_createCudaExecutionContext (api : Api Memory) (device : Int) :
    Yields (createCudaExecutionContext device) api
      (fun execution api' => Opens device execution api api' ∧ Restored api api')
      (fun _ api' => Still api api' ∧ Restored api api') := by
  have hfails : ∀ last, Quiet api last → Still api last ∧ Restored api last :=
    fun last h => ⟨h.still, .of_quiet h⟩
  have hordinal : Yields (validateDeviceOrdinal device) api (fun _ start => Quiet api start)
      (fun _ api' => Still api api' ∧ Restored api api') := by
    refine Yields.failIf (fun _ => hfails api (.refl api)) fun _ => ?_
    have hcount : Yields cudaDeviceCount api (fun _ middle => Quiet api middle)
        (fun _ api' => Still api api' ∧ Restored api api') :=
      yields_orStatus ((yields_getDeviceCount api).mono
        (fun _ last h => ⟨fun _ _ => hfails last h, fun _ _ => h⟩) fun _ _ h => h)
    exact hcount.bind fun count middle hmiddle =>
      Yields.failIf_last (fun _ => hfails middle hmiddle) fun _ => hmiddle
  refine hordinal.bind fun _ start hstart => ?_
  have hrestored := Restored.of_quiet hstart
  refine Yields.mono (@yields_withDevice _ _ start device _
      (fun execution api api' => Opens device execution api api') (fun _ api api' => Still api api')
      (fun hfirst h hsecond => ⟨?_, h.device_eq, h.serves.still hsecond⟩)
      (fun hfirst h hsecond => hfirst.trans (h.trans hsecond)) id fun begin _ hselects => ?_)
    (fun execution last h => ⟨⟨?_, h.1.device_eq, h.1.serves⟩, hrestored.trans h.2⟩)
    fun _ last h => ⟨hstart.still.trans h.1, hrestored.trans h.2⟩
  · exact Comes.surround (fun h hlater => hlater.surround h) hfirst h.calls hsecond
  · have hcreate : Yields (orStatus .provider "CUDA could not create a nonblocking execution stream"
        cudaStreamCreate) begin
        (fun stream last => Opens device ⟨device, stream⟩ begin last ∧ Restored begin last)
        (fun _ last => Still begin last ∧ Restored begin last) := by
      refine yields_orStatus ((@yields_invoke _ begin .streamCreate trivial _).mono
        (fun answer last hlast => ⟨?_, ?_⟩) fun _ _ h => h)
      · rintro error rfl
        exact ⟨hlast.still rfl, .leads hlast fun _ => rfl⟩
      · rintro stream rfl
        exact ⟨⟨hlast.around, rfl, serves_of_create hselects hlast⟩, .leads hlast fun _ => rfl⟩
    exact hcreate.bind fun stream last h => Yields.pure h
  · exact Comes.surround (fun h hlater => hlater.surround h) hstart.still h.1.calls (.refl last)

/-! ## A sample -/

def Answered.handle : Answered Memory → Nat
  | ⟨.streamCreate, .ok created⟩ | ⟨.eventCreate, .ok created⟩ => created
  | _ => 0

/-- A handle beyond those that were handed out. -/
def freshHandle (calls : List (Answered Memory)) : Nat :=
  (calls.map Answered.handle).sum + 1

/-- A runtime with one device that grants everything. -/
def grantingRuntime (Memory : Type) : Runtime Memory
  | _, .getDeviceCount => .ok 1
  | calls, .getDevice => .ok (current 0 calls)
  | _, .pointerGetAttributes _ => .ok ⟨.device, 0⟩
  | calls, .streamCreate => .ok (freshHandle calls)
  | calls, .eventCreate => .ok (freshHandle calls)
  | _, .setDevice _ | _, .getLastError | _, .streamDestroy _ | _, .streamSynchronize _ => .ok ()
  | _, .eventDestroy _ | _, .eventRecord _ _ | _, .eventQuery _ | _, .eventSynchronize _ => .ok ()
  | _, .memcpyAsync _ _ _ _ | _, .launchKernel _ _ => .ok ()

theorem handle_lt_freshHandle {calls : List (Answered Memory)} (hentry : entry ∈ calls) :
    entry.handle < freshHandle calls :=
  Nat.lt_succ_of_le (List.single_le_sum (fun _ _ => Nat.zero_le _) _ (List.mem_map_of_mem hentry))

theorem grantingRuntime_fresh (Memory : Type) : HandsOutFresh (grantingRuntime Memory) where
  stream calls stream h halive := by
    cases h
    rcases Lifetime.exists_begins halive with ⟨⟨call, answer⟩, hentry, hbegins⟩
    have hlt := handle_lt_freshHandle hentry
    cases call <;> rcases answer with error | created <;>
      simp_all [streamLife, Answered.createsStream, Answered.handle]
  event calls event h := by
    cases h
    by_contra halive
    rcases Option.ne_none_iff_exists'.1 halive with ⟨phase, hphase⟩
    rcases Lifetime.exists_begins hphase with ⟨⟨call, answer⟩, hentry, hbegins⟩
    have hlt := handle_lt_freshHandle hentry
    cases call <;> rcases answer with error | created <;>
      simp_all [eventLife, Answered.handle]

/-- One device with one stream. -/
def sampleApi (Memory : Type) : Api Memory where
  runtime := grantingRuntime Memory
  calls := [⟨.getDevice, .ok 0⟩, ⟨.streamCreate, .ok 0⟩]

def sampleExecution : ExecutionState := ⟨0, 0⟩

theorem sample_serves (Memory : Type) : Serves sampleExecution (sampleApi Memory) :=
  ⟨rfl, fun _ htold => htold.1.symm⟩

/-- The runtime that grants everything tells the devices. -/
theorem tellsDevice_granting {past : List (Answered Memory)}
    (h : Allowed (Genuine (grantingRuntime Memory)) past later) :
    Allowed (TellsDevice 0) past later := by
  refine h.mono fun past entry hgenuine => ?_
  rcases entry with ⟨call, answer⟩
  have hanswer := hgenuine.1
  cases call with
  | getDevice => cases hanswer; exact rfl
  | setDevice device => cases hanswer; trivial
  | _ => trivial

end Cuda
end Core
end AscCpp
