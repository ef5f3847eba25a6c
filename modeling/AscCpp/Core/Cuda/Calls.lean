import AscCpp.Core.Cuda.Api

/-!
# Calls — what calls of the CUDA runtime add to the record

- `yields_invoke`: a call adds itself, with the answer of the runtime.
- `Leads.trans`: calls behind others.
- `Answered.still_spec`: what a still call leaves as it was.
- `Restored.trans`: the current device, which operations leave as it was.
-/

namespace AscCpp
namespace Core
namespace Cuda

open Effect Library Library.History

variable {Memory α : Type} {api api' api'' : Api Memory} {first second : List (Answered Memory)}
  {entry : Answered Memory}

/-- The call asks for what the record gives, and the answer is that of the runtime. -/
def Genuine (runtime : Runtime Memory) (past : List (Answered Memory)) (entry : Answered Memory) :
    Prop :=
  entry.answer = runtime past entry.call ∧ WellUsed past entry.call

/-- These calls have been made. -/
structure Leads (later : List (Answered Memory)) (api api' : Api Memory) : Prop where
  runtime_eq : api'.runtime = api.runtime
  calls_eq : api'.calls = api.calls ++ later
  genuine : Allowed (Genuine api.runtime) api.calls later

/-- Calls with a property have been made. -/
def Comes (property : List (Answered Memory) → Prop) (api api' : Api Memory) : Prop :=
  ∃ later, property later ∧ Leads later api api'

theorem Leads.refl (api : Api Memory) : Leads [] api api :=
  ⟨rfl, (List.append_nil _).symm, allowed_nil⟩

theorem Leads.trans (h : Leads first api api') (h' : Leads second api' api'') :
    Leads (first ++ second) api api'' where
  runtime_eq := h'.runtime_eq.trans h.runtime_eq
  calls_eq := by rw [h'.calls_eq, h.calls_eq, List.append_assoc]
  genuine := by
    rw [allowed_append, ← h.calls_eq, ← h.runtime_eq]
    exact ⟨h.runtime_eq ▸ h.genuine, h'.genuine⟩

theorem Comes.mono {property property' : List (Answered Memory) → Prop} (h : Comes property api api')
    (himp : ∀ later, property later → property' later) : Comes property' api api' :=
  h.imp fun later hlater => hlater.imp_left (himp later)

theorem Comes.trans {property property' property'' : List (Answered Memory) → Prop}
    (h : Comes property api api') (h' : Comes property' api' api'')
    (happend : ∀ first second, property first → property' second → property'' (first ++ second)) :
    Comes property'' api api'' := by
  rcases h with ⟨first, hfirst, hleads⟩
  rcases h' with ⟨second, hsecond, hleads'⟩
  exact ⟨_, happend _ _ hfirst hsecond, hleads.trans hleads'⟩

/-- Every call is recorded with its answer. -/
theorem yields_invoke {call : ApiCall Memory} (hused : WellUsed api.calls call)
    {fails : Status → Api Memory → Prop} :
    Yields (invoke call) api (fun answer api' => Leads [⟨call, answer⟩] api api') fails :=
  ⟨_, _, rfl, rfl, rfl, allowed_singleton.2 ⟨rfl, hused⟩⟩

/-! ## Still calls -/

/-- A still call enqueues nothing, and takes and gives up no handle. -/
theorem Answered.still_spec (h : entry.still = true) :
    (∀ stream, entry.enqueued stream = []) ∧ (∀ stream, entry.createsStream stream = false) ∧
      (∀ stream, (streamLife stream).Untouched entry) ∧
        ∀ event, (eventLife event).Untouched entry := by
  rcases entry with ⟨call, answer⟩
  cases call <;> rcases answer with error | value <;>
    first
    | exact ⟨fun _ => rfl, fun _ => rfl, fun _ => ⟨rfl, fun _ => rfl⟩, fun _ => ⟨rfl, fun _ => rfl⟩⟩
    | cases h

theorem Answered.still_of_quiet (h : entry.quiet = true) : entry.still = true := by
  rcases entry with ⟨call, answer⟩
  cases call <;> first | exact h | cases h

theorem Answered.selects_of_quiet (h : entry.quiet = true) (device : Int) :
    entry.selects device = device := by
  rcases entry with ⟨call, answer⟩
  cases call <;> first | rfl | cases h

/-- Still calls only. -/
def StillCalls (later : List (Answered Memory)) : Prop :=
  ∀ entry ∈ later, entry.still = true

def QuietCalls (later : List (Answered Memory)) : Prop :=
  ∀ entry ∈ later, entry.quiet = true

theorem QuietCalls.still (h : QuietCalls first) : StillCalls first :=
  fun entry hentry => Answered.still_of_quiet (h entry hentry)

theorem StillCalls.append (h : StillCalls first) (h' : StillCalls second) :
    StillCalls (first ++ second) :=
  fun entry hentry => (List.mem_append.1 hentry).elim (h entry) (h' entry)

theorem QuietCalls.append (h : QuietCalls first) (h' : QuietCalls second) :
    QuietCalls (first ++ second) :=
  fun entry hentry => (List.mem_append.1 hentry).elim (h entry) (h' entry)

theorem stillCalls_singleton (h : entry.still = true) : StillCalls [entry] :=
  fun _ hother => List.mem_singleton.1 hother ▸ h

theorem quietCalls_singleton (h : entry.quiet = true) : QuietCalls [entry] :=
  fun _ hother => List.mem_singleton.1 hother ▸ h

namespace StillCalls

theorem queue_eq (h : StillCalls first) (stream : Nat) : queue stream first = [] :=
  List.flatMap_eq_nil_iff.2 fun entry hentry => (Answered.still_spec (h entry hentry)).1 stream

theorem eventLife_after (h : StillCalls first) (event : Nat) (phase : Option EventPhase) :
    (eventLife event).after phase first = phase :=
  Lifetime.after_of_untouched fun entry hentry =>
    (Answered.still_spec (h entry hentry)).2.2.2 event

theorem streamLife_after (h : StillCalls first) (stream : Nat) (life : Option Unit) :
    (streamLife stream).after life first = life :=
  Lifetime.after_of_untouched fun entry hentry =>
    (Answered.still_spec (h entry hentry)).2.2.1 stream

end StillCalls

/-- Streams have neither been created nor destroyed. -/
def KeepsStreams (later : List (Answered Memory)) : Prop :=
  ∀ entry ∈ later, ∀ stream, entry.createsStream stream = false ∧ (streamLife stream).Untouched entry

theorem StillCalls.keepsStreams (h : StillCalls first) : KeepsStreams first :=
  fun entry hentry stream =>
    ⟨(Answered.still_spec (h entry hentry)).2.1 stream,
      (Answered.still_spec (h entry hentry)).2.2.1 stream⟩

/-! ## Histories behind others -/

theorem queue_append (stream : Nat) (first second : List (Answered Memory)) :
    queue stream (first ++ second) = queue stream first ++ queue stream second :=
  List.flatMap_append

theorem current_append (device : Int) (first second : List (Answered Memory)) :
    current device (first ++ second) = current (current device first) second :=
  List.foldl_append

theorem eventPhase_append (event : Nat) (first second : List (Answered Memory)) :
    eventPhase event (first ++ second) = (eventLife event).after (eventPhase event first) second :=
  Lifetime.after_append

theorem unsynchronized_append (stream : Nat) (work : List (Work Memory))
    (first second : List (Answered Memory)) :
    unsynchronized stream work (first ++ second) =
      unsynchronized stream (unsynchronized stream work first) second :=
  List.foldl_append

theorem StillCalls.unsynchronized_eq (h : StillCalls first) (stream : Nat) :
    unsynchronized stream [] first = [] := by
  induction first with
  | nil => rfl
  | cons entry first ih =>
    have hentry := (Answered.still_spec (h entry List.mem_cons_self)).1 stream
    have hstep : unsynchronized stream [] (entry :: first) = unsynchronized stream [] first := by
      rcases entry with ⟨call, answer⟩
      cases call with
      | streamSynchronize target =>
        exact congrArg (fun work => unsynchronized stream work first) (ite_self _)
      | _ => exact congrArg (fun work => unsynchronized stream ([] ++ work) first) hentry
    rw [hstep]
    exact ih fun other hother => h other (List.mem_cons_of_mem _ hother)

theorem KeepsStreams.streamAlive (h : KeepsStreams second) {stream : Nat}
    (halive : StreamAlive stream first) : StreamAlive stream (first ++ second) := by
  rw [StreamAlive, Lifetime.after_append, halive]
  exact Lifetime.after_of_untouched fun entry hentry => (h entry hentry stream).2

theorem KeepsStreams.streamDevice_eq (h : KeepsStreams second) (device : Int) (stream : Nat) :
    streamDevice device stream (first ++ second) = streamDevice device stream first := by
  rw [streamDevice, before_append fun entry hentry => (h entry hentry stream).1, streamDevice]

/-! ## The current device -/

theorem DevicesTold.of_append {device : Int} (h : DevicesTold device (first ++ second)) :
    DevicesTold device first :=
  (allowed_append.1 h).1

theorem QuietCalls.current_eq (h : QuietCalls second) (device : Int) :
    current device second = device := by
  induction second with
  | nil => rfl
  | cons entry second ih =>
    have hentry := Answered.selects_of_quiet (h entry List.mem_cons_self) device
    rw [current, List.foldl_cons, hentry]
    exact ih fun other hother => h other (List.mem_cons_of_mem _ hother)

/-- The device is selected, as far as the runtime tells. -/
def Selects (device : Int) (calls : List (Answered Memory)) : Prop :=
  ∀ first, DevicesTold first calls → current first calls = device

/-- The device that was current before is so again, as far as the runtime tells. -/
structure Restored (api api' : Api Memory) : Prop where
  calls : api.calls <+: api'.calls
  current_eq : ∀ first, DevicesTold first api'.calls → current first api'.calls = current first api.calls

namespace Restored

theorem refl (api : Api Memory) : Restored api api :=
  ⟨List.prefix_rfl, fun _ _ => rfl⟩

theorem trans (h : Restored api api') (h' : Restored api' api'') : Restored api api'' where
  calls := h.calls.trans h'.calls
  current_eq first htold := by
    rcases h'.calls with ⟨later, hlater⟩
    have htold' : DevicesTold first api'.calls := (hlater ▸ htold).of_append
    exact (h'.current_eq first htold).trans (h.current_eq first htold')

theorem of_quiet (h : Comes QuietCalls api api') : Restored api api' := by
  rcases h with ⟨later, hquiet, hleads⟩
  refine ⟨⟨later, hleads.calls_eq.symm⟩, fun first _ => ?_⟩
  rw [hleads.calls_eq, current_append, hquiet.current_eq]

theorem selects {device : Int} (h : Restored api api') (hselects : Selects device api.calls) :
    Selects device api'.calls := by
  intro first htold
  rcases h.calls with ⟨later, hlater⟩
  rw [h.current_eq first htold]
  exact hselects first (hlater ▸ htold).of_append

end Restored

/-- Calls that inspect only. -/
abbrev Quiet (api api' : Api Memory) : Prop :=
  Comes QuietCalls api api'

theorem Quiet.refl (api : Api Memory) : Quiet api api :=
  ⟨[], List.forall_mem_nil _, .refl api⟩

theorem Quiet.trans (h : Quiet api api') (h' : Quiet api' api'') : Quiet api api'' :=
  Comes.trans h h' fun _ _ => QuietCalls.append

/-- Calls that at most select a device. -/
abbrev Still (api api' : Api Memory) : Prop :=
  Comes StillCalls api api'

theorem Still.refl (api : Api Memory) : Still api api :=
  ⟨[], List.forall_mem_nil _, .refl api⟩

theorem Still.trans (h : Still api api') (h' : Still api' api'') : Still api api'' :=
  Comes.trans h h' fun _ _ => StillCalls.append

/-- Calls between still ones. -/
theorem Comes.surround {property : List (Answered Memory) → Prop} {last : Api Memory}
    (hsurround : ∀ {first later second : List (Answered Memory)}, StillCalls first → property later →
      StillCalls second → property (first ++ (later ++ second)))
    (hfirst : Still api api') (h : Comes property api' api'') (hsecond : Still api'' last) :
    Comes property api last := by
  rcases hfirst with ⟨first, hstill, hleads⟩
  rcases h with ⟨later, hlater, hleads'⟩
  rcases hsecond with ⟨second, hstill', hleads''⟩
  exact ⟨_, hsurround hstill hlater hstill', hleads.trans (hleads'.trans hleads'')⟩

theorem Quiet.still (h : Quiet api api') : Still api api' :=
  h.mono fun _ => QuietCalls.still

/-- A call without consequences. -/
theorem Leads.quiet (h : Leads [entry] api api') (hquiet : entry.quiet = true) : Quiet api api' :=
  ⟨_, quietCalls_singleton hquiet, h⟩

theorem Leads.still (h : Leads [entry] api api') (hstill : entry.still = true) : Still api api' :=
  ⟨_, stillCalls_singleton hstill, h⟩

theorem yields_getDeviceCount (api : Api Memory) {fails : Status → Api Memory → Prop} :
    Yields cudaGetDeviceCount api (fun _ api' => Quiet api api') fails :=
  (@yields_invoke _ api .getDeviceCount trivial _).mono (fun _ _ h => h.quiet rfl) fun _ _ h => h

theorem yields_pointerGetAttributes (api : Api Memory) (address : Nat)
    {fails : Status → Api Memory → Prop} :
    Yields (cudaPointerGetAttributes address) api
      (fun answer api' => Leads [⟨.pointerGetAttributes address, answer⟩] api api') fails :=
  @yields_invoke _ api (.pointerGetAttributes address) trivial _

end Cuda
end Core
end AscCpp
