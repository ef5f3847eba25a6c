import AscCpp.Core.Cuda.Completion

/-!
# CompletionRuns — programs with contexts and completion events

- `Consistent.step`, `Consistent.run`: every step and every run keep the invariant.
- `completion_correct`: what holds after any run of a program.
-/

namespace AscCpp
namespace Core
namespace Cuda

open Effect Function Library Library.History

variable {Memory : Type} {runtime : Runtime Memory} {host host' : Host Memory} {api' : Api Memory}

/-- The flag of an object whose event is complete, or that has not been found complete. -/
theorem Consistent.setComplete {name : Nat} (h : Consistent runtime ∅ host) (result : Bool)
    (hcomplete : result = true → ∀ state, (host.events name).state = some state →
      eventPhase state.event host.api.calls = some (.passed state.execution.stream))
    (hpending : result = false → (host.events name).state ≠ none) :
    Consistent runtime ∅ { host with
      events := update host.events name { host.events name with complete := result } } :=
  h.setFlags { host.events name with complete := result } rfl hcomplete fun _ => hpending

/-- The runtime has told that an event is passed: the calls change the phase of this event only. -/
theorem Consistent.passes {entry : Answered Memory} {state : CompletionState}
    (h : Consistent runtime ∅ host) {name : Nat} (hstate : (host.events name).state = some state)
    (hcalls : Comes (Around entry) host.api api') (hrestored : Restored host.api api')
    (hstreams : ∀ stream, entry.createsStream stream = false ∧ (streamLife stream).Untouched entry)
    (hothers : ∀ other, other ≠ state.event → (eventLife other).Untouched entry)
    (hphase : ∀ stream, (eventLife state.event).step (some (.recorded stream)) entry =
        some (.passed stream) ∧
      (eventLife state.event).step (some (.passed stream)) entry = some (.passed stream)) :
    Consistent runtime ∅ { host with api := api' } ∧
      eventPhase state.event api'.calls = some (.passed state.execution.stream) := by
  rcases hcalls with ⟨later, haround, hleads⟩
  have hafter : ∀ event, eventPhase event api'.calls =
      (eventLife event).step (eventPhase event host.api.calls) entry := by
    intro event
    rw [hleads.calls_eq, eventPhase_append, haround.eventLife_after]
  have hother : ∀ event, event ≠ state.event →
      eventPhase event api'.calls = eventPhase event host.api.calls := by
    intro event hne
    rw [hafter, Lifetime.step_of_untouched (hothers event hne)]
  have hpassed : eventPhase state.event api'.calls = some (.passed state.execution.stream) := by
    rw [hafter]
    rcases (h.placed name state hstate).recorded with hrecorded | hrecorded
    · rw [hrecorded, (hphase _).1]
    · rw [hrecorded, (hphase _).2]
  refine ⟨h.evolve hleads hrestored (fun execution hrefers => (h.serves execution hrefers).leads hleads
    (haround.keepsStreams hstreams)) (fun other state' hother' => ?_) fun hdenies event halive _ => ?_,
    hpassed⟩
  · by_cases heq : state'.event = state.event
    · have hname := h.owner other name state' state hother' hstate heq
      rw [hname, hstate, Option.some.injEq] at hother'
      subst hother'
      exact ⟨Or.inr hpassed, fun _ => hpassed⟩
    · exact (h.placed other state' hother').of_eq (hother _ heq)
  · refine h.noneLeaked (fun hbefore => hdenies (hleads.denies hbefore)) event ?_ (Set.notMem_empty _)
    by_cases heq : event = state.event
    · rw [heq]
      exact (h.placed name state hstate).phase_ne
    · rwa [hother event heq] at halive

/-- What a query reports is kept in the flag. -/
theorem Consistent.yields_query {name : Nat} (h : Consistent runtime ∅ host) :
    Yields (host.events name).query host.api
      (fun result api' => Consistent runtime ∅ { host with
        api := api'
        events := update host.events name { host.events name with complete := result } })
      (fun _ api' => Consistent runtime ∅ { host with api := api' }) := by
  refine Yields.failIf (fun _ => h) fun hvalid => ?_
  by_cases hflag : (host.events name).complete = true
  · rw [if_pos hflag]
    exact Yields.pure (h.setComplete true (fun _ state hstate =>
      (h.placed name state hstate).told hflag) Bool.noConfusion)
  · rw [if_neg hflag]
    cases hstate : (host.events name).state with
    | none => exact absurd hstate (h.pending name (by simpa using hvalid) (by simpa using hflag))
    | some state =>
      refine (Cuda.yields_query (h.placed name state hstate).phase_ne).mono
        (fun result api' hquery => ?_) fun _ api' hquery => h.still hquery.1 hquery.2
      cases result with
      | false =>
        exact (h.still (hquery.1.2 rfl) hquery.2).setComplete false Bool.noConfusion
          fun _ => by simp [hstate]
      | true =>
        have hpasses := h.passes hstate (hquery.1.1 rfl) hquery.2
          (fun _ => ⟨rfl, rfl, fun _ => rfl⟩)
          (fun other hne => ⟨rfl, fun phase => by cases phase <;> simp [eventLife, Ne.symm hne]⟩)
          fun stream => by simp [Lifetime.step, eventLife]
        refine hpasses.1.setComplete true (fun _ state' hstate' => ?_) Bool.noConfusion
        rw [hstate, Option.some.injEq] at hstate'
        exact hstate' ▸ hpasses.2

theorem Consistent.yields_wait {name : Nat} (h : Consistent runtime ∅ host) :
    Yields (host.events name).wait host.api
      (fun _ api' => Consistent runtime ∅ { host with
        api := api'
        events := update host.events name { host.events name with complete := true } })
      (fun _ api' => Consistent runtime ∅ { host with api := api' }) := by
  refine Yields.failIf (fun _ => h) fun hvalid => ?_
  by_cases hflag : (host.events name).complete = true
  · rw [if_pos hflag]
    exact Yields.pure (h.setComplete true (fun _ state hstate =>
      (h.placed name state hstate).told hflag) Bool.noConfusion)
  · rw [if_neg hflag]
    cases hstate : (host.events name).state with
    | none => exact absurd hstate (h.pending name (by simpa using hvalid) (by simpa using hflag))
    | some state =>
      refine (Cuda.yields_wait (h.placed name state hstate).phase_ne).mono (fun _ api' hwait => ?_)
        fun _ api' hwait => h.still hwait.1 hwait.2
      have hpasses := h.passes hstate hwait.1 hwait.2
        (fun _ => ⟨rfl, rfl, fun _ => rfl⟩)
        (fun other hne => ⟨rfl, fun phase => by cases phase <;> simp [eventLife, Ne.symm hne]⟩)
        fun stream => by simp [Lifetime.step, eventLife]
      refine hpasses.1.setComplete true (fun _ state' hstate' => ?_) Bool.noConfusion
      rw [hstate, Option.some.injEq] at hstate'
      exact hstate' ▸ hpasses.2

/-- Calls that create and destroy events of their own leave those of the objects alone. -/
theorem Consistent.own {later : List (Answered Memory)} {loose : Set Nat}
    (hfresh : HandsOutFresh runtime) (h : Consistent runtime ∅ host)
    (hleads : Leads later host.api api') (hown : OwnEvents later) (hrestored : Restored host.api api')
    (hloose : ∀ event, eventPhase event later ≠ none → event ∈ loose) :
    Consistent runtime loose { host with api := api' } := by
  have hkept : ∀ event, eventPhase event host.api.calls ≠ none →
      eventPhase event api'.calls = eventPhase event host.api.calls :=
    fun event => hown.kept (h.runtime_eq.symm ▸ hfresh) hleads
  refine h.evolve hleads hrestored (fun execution hrefers =>
    (h.serves execution hrefers).leads hleads hown.streams) (fun name state hstate => ?_)
      fun hdenies event halive hnot => ?_
  · have hplaced := h.placed name state hstate
    exact hplaced.of_eq (hkept _ hplaced.phase_ne)
  · by_cases hdead : eventPhase event host.api.calls = none
    · rw [eventPhase_of_dead hleads hdead] at halive
      exact absurd (hloose event halive) hnot
    · exact h.noneLeaked (fun hbefore => hdenies (hleads.denies hbefore)) event hdead
        (Set.notMem_empty _)

theorem Consistent.submit {name event : Nat} {execution : ExecutionState}
    {submission : Call Memory Nat} (hfresh : HandsOutFresh runtime) (h : Consistent runtime ∅ host)
    (hfree : host.events name = .moved) (hrefers : host.Refers execution)
    (hsubmission : IsSubmission execution submission)
    (hrun : exec submission host.api = some (.ok event, api')) :
    Consistent runtime ∅ { host with
      api := api', events := update host.events name (.ofState ⟨execution, event⟩) } := by
  have hserves := h.serves execution hrefers
  rcases Yields.of_ok (hsubmission host.api hserves) hrun with
    ⟨⟨work, -, later, hsubmitted, hleads⟩, hrestored⟩
  have hmiddle : Consistent runtime {event} { host with api := api' } :=
    h.own hfresh hleads hsubmitted.own hrestored fun other hphase => hsubmitted.noneLeft other hphase
  have hphase : eventPhase event api'.calls = some (.recorded execution.stream) := by
    rw [hleads.calls_eq]
    exact eventPhase_of_some hsubmitted.phase_eq _
  refine @Consistent.addEvent _ _ _ ⟨execution, event⟩ _ hmiddle hfree hrefers
    ⟨Or.inl hphase, Bool.noConfusion⟩ ?_
  -- An event that was owned before keeps its phase, and the new one was dead.
  rintro ⟨other, state, hstate, heq⟩
  have hplaced := h.placed other state hstate
  simp only at heq
  rw [heq] at hplaced
  have huntouched := hsubmitted.own.untouched (h.runtime_eq.symm ▸ hfresh) hleads hplaced.phase_ne
  have hdead : eventPhase event later = none := Lifetime.after_of_untouched huntouched
  rw [hsubmitted.phase_eq] at hdead
  cases hdead

theorem Consistent.submitFails {execution : ExecutionState} {submission : Call Memory Nat}
    {status : Status} (hfresh : HandsOutFresh runtime) (h : Consistent runtime ∅ host)
    (hrefers : host.Refers execution) (hsubmission : IsSubmission execution submission)
    (hrun : exec submission host.api = some (.error status, api')) :
    Consistent runtime ∅ { host with api := api' } := by
  have hserves := h.serves execution hrefers
  rcases Yields.of_error (hsubmission host.api hserves) hrun with
    ⟨⟨later, hrefused, hleads⟩, hrestored⟩
  exact h.own hfresh hleads hrefused.own hrestored fun event hphase =>
    absurd (hrefused.noneLeft event) hphase

theorem Consistent.createContext {name : Nat} {device : Int} {execution : ExecutionState}
    (hfresh : HandsOutFresh runtime) (h : Consistent runtime ∅ host)
    (hrun : exec (createCudaExecutionContext device) host.api = some (.ok execution, api')) :
    Consistent runtime ∅ { host with
      api := api', contexts := update host.contexts name (some execution) } := by
  rcases Yields.of_ok (yields_createCudaExecutionContext host.api device) hrun with
    ⟨⟨⟨later, haround, hleads⟩, -, hserves⟩, hrestored⟩
  have hphase : ∀ event, eventPhase event api'.calls = eventPhase event host.api.calls := by
    intro event
    rw [hleads.calls_eq, eventPhase_append, haround.eventLife_after]
    exact Lifetime.step_of_untouched ⟨rfl, fun _ => rfl⟩
  -- The stream of the new state is none of those that there were.
  have hother : ∀ other, host.Refers other → execution.stream ≠ other.stream := by
    intro other hother heq
    have halive := (h.serves other hother).alive
    rw [← heq] at halive
    rcases haround with ⟨earlier, rest, hearlier, -, rfl⟩
    have hcreated := (allowed_append.1 hleads.genuine).2.1.1
    rw [h.runtime_eq] at hcreated
    exact hfresh.stream _ _ hcreated.symm (hearlier.keepsStreams.streamAlive halive)
  have hmiddle : Consistent runtime ∅ { host with api := api' } := by
    refine h.evolve hleads hrestored (fun other hrefers => ?_) (fun name state hstate =>
      (h.placed name state hstate).of_eq (hphase _)) fun hdenies event halive => ?_
    · have hne := hother other hrefers
      have hcreates : (⟨.streamCreate, .ok execution.stream⟩ : Answered Memory).createsStream
          other.stream = false := by simp [Answered.createsStream, hne]
      refine (h.serves other hrefers).around hleads haround hcreates ⟨?_, fun _ => rfl⟩
      simp [streamLife, hcreates]
    · rw [hphase] at halive
      exact h.noneLeaked (fun hbefore => hdenies (hleads.denies hbefore)) event halive
  exact Consistent.addContext hmiddle hserves fun other hrefers => Ne.symm (hother other hrefers)

/-- An object is taken away, and what it held is destroyed behind it. -/
theorem Consistent.replace {events' : Nat → CompletionEvent} {name : Nat}
    (h : Consistent runtime ∅ host) (origin : Nat → Nat) (hinjective : Injective origin)
    (hevents : ∀ other, events' other = .moved ∨ events' other = host.events (origin other))
    (hgone : ∀ other, origin other = name → events' other = .moved)
    (hkept : ∀ other, other ≠ name → ∃ place, events' place = host.events other)
    (hdestroyed : Destroyed { host with events := events' } (host.events name).state api') :
    Consistent runtime ∅ { host with api := api', events := events' } := by
  have hrefers : ∀ execution, Host.Refers { host with events := events' } execution →
      host.Refers execution := by
    rintro execution (hcontext | ⟨other, state, hother, hexecution⟩)
    · exact Or.inl hcontext
    · rcases hevents other with hmoved | hsame
      · simp [hmoved, CompletionEvent.moved] at hother
      · simp only [hsame] at hother
        exact Or.inr ⟨_, state, hother, hexecution⟩
  -- The contexts stay.
  have hplain := fun loose => @Consistent.rearrange _ runtime loose host h host.contexts events'
    origin hinjective hevents fun other _ hother => ⟨other, hother⟩
  cases hstate : (host.events name).state with
  | none =>
    rw [hstate] at hdestroyed
    cases hdestroyed
    · apply hplain
      rintro event ⟨other, state, hother, hevent⟩ _
      have hne : other ≠ name := by
        rintro rfl
        rw [hstate] at hother
        cases hother
      rcases hkept other hne with ⟨place, hplace⟩
      exact ⟨place, state, hplace ▸ hother, hevent⟩
  | some state =>
    have hloose := hplain {state.event} ?_
    · rw [hstate] at hdestroyed
      have hexecution : host.Refers state.execution := Or.inr ⟨name, state, hstate, rfl⟩
      have hplaced := h.placed name state hstate
      refine hloose.destroyed (h.serves _ hexecution) hplaced.phase_ne ?_ ?_ hdestroyed
      · rintro ⟨other, state', hother, heq⟩
        rcases hevents other with hmoved | hsame
        · simp [hmoved, CompletionEvent.moved] at hother
        · have hsame' : (events' other).state = some state' := hother
          rw [hsame] at hsame'
          have hname := h.owner _ _ state' state hsame' hstate heq
          simp [hgone other hname, CompletionEvent.moved] at hother
      · exact fun other hother heq => h.shared other _ (hrefers other hother) hexecution heq
    · rintro event ⟨other, state', hother, hevent⟩ hnot
      have hne : other ≠ name := by
        rintro rfl
        rw [hstate, Option.some.injEq] at hother
        exact hnot (by rw [hother, hevent]; rfl)
      rcases hkept other hne with ⟨place, hplace⟩
      exact ⟨place, state', hplace ▸ hother, hevent⟩

/-- What a move does to the names. -/
theorem update_move (events : Nat → CompletionEvent) (name source : Nat) (other : Nat) :
    update (update events name (events source)) source .moved other = .moved ∨
      update (update events name (events source)) source .moved other =
        events (Equiv.swap name source other) := by
  rcases eq_or_ne other source with rfl | hsource
  · exact Or.inl (update_self _ _ _)
  · refine Or.inr ?_
    rw [update_of_ne hsource]
    rcases eq_or_ne other name with rfl | hname
    · rw [update_self, Equiv.swap_apply_left]
    · rw [update_of_ne hname, Equiv.swap_apply_of_ne_of_ne hname hsource]

theorem Consistent.step (hfresh : HandsOutFresh runtime) (h : Consistent runtime ∅ host)
    (hstep : HostStep host host') :
    Consistent runtime ∅ host' := by
  cases hstep with
  | createContext hfree hrun => exact h.createContext hfresh hrun
  | createContextFails hrun =>
    rcases Yields.of_error (yields_createCudaExecutionContext host.api _) hrun with
      ⟨hstill, hrestored⟩
    exact h.still hstill hrestored
  | copyContext hfree hsource =>
    refine h.rearrange id injective_id (fun _ => Or.inr rfl) (fun place execution hplace => ?_)
      fun event howns _ => howns
    rename_i name source _
    rcases eq_or_ne place name with rfl | hne
    · rw [update_self] at hplace
      exact ⟨source, hplace ▸ hsource⟩
    · rw [update_of_ne hne] at hplace
      exact ⟨place, hplace⟩
  | destroyContext hcontext hreleased =>
    rename_i name execution _
    have hexecution : host.Refers execution := Or.inl ⟨name, hcontext⟩
    have hfewer : ∀ place other, update host.contexts name none place = some other →
        ∃ place, host.contexts place = some other := by
      intro place other hplace
      rcases eq_or_ne place name with rfl | hne
      · rw [update_self] at hplace
        cases hplace
      · rw [update_of_ne hne] at hplace
        exact ⟨place, hplace⟩
    have hplain := @Consistent.rearrange _ runtime ∅ host h _ host.events id injective_id
      (fun _ => Or.inr rfl) hfewer fun event howns _ => howns
    refine hplain.released (h.serves _ hexecution) (fun other hother heq => ?_) hreleased
    refine h.shared other _ ?_ hexecution heq
    exact hother.imp (fun ⟨place, hplace⟩ => hfewer place other hplace) id
  | submit hfree hcontext hsubmission hrun =>
    exact h.submit hfresh hfree (Or.inl ⟨_, hcontext⟩) hsubmission hrun
  | submitFails hcontext hsubmission hrun =>
    exact h.submitFails hfresh (Or.inl ⟨_, hcontext⟩) hsubmission hrun
  | completed hfree =>
    apply h.setFlags _ (by rw [hfree]; rfl)
    · exact fun _ _ hstate => by cases hstate
    · exact fun _ hfalse => by cases hfalse
  | query hrun => exact Yields.of_ok h.yields_query hrun
  | queryFails hrun => exact Yields.of_error h.yields_query hrun
  | wait hrun => exact Yields.of_ok h.yields_wait hrun
  | waitFails hrun => exact Yields.of_error h.yields_wait hrun
  | moveConstruct hne hfree =>
    rename_i name source
    refine h.rearrange (Equiv.swap name source) (Equiv.injective _) (update_move _ name source)
      (fun _ _ hname => ⟨_, hname⟩) fun event howns _ => ?_
    rcases howns with ⟨other, state, hother, hevent⟩
    refine ⟨Equiv.swap name source other, state, ?_, hevent⟩
    rcases eq_or_ne other name with rfl | hname
    · rw [hfree] at hother
      cases hother
    · rcases eq_or_ne other source with rfl | hsource
      · rw [Equiv.swap_apply_right, update_of_ne hne, update_self]
        exact hother
      · rw [Equiv.swap_apply_of_ne_of_ne hname hsource, update_of_ne hsource, update_of_ne hname]
        exact hother
  | moveAssign hne hdestroyed =>
    rename_i name source _
    refine h.replace (Equiv.swap name source) (Equiv.injective _) (update_move _ name source)
      (fun other hother => ?_) (fun other hother => ?_) hdestroyed
    · have heq : other = source := by
        rw [← Equiv.swap_apply_self name source other, hother, Equiv.swap_apply_left]
      rw [heq, update_self]
    · rcases eq_or_ne other source with rfl | hsource
      · exact ⟨name, by rw [update_of_ne hne, update_self]⟩
      · exact ⟨other, by rw [update_of_ne hsource, update_of_ne hother]⟩
  | destroyEvent hdestroyed =>
    rename_i name _
    refine h.replace id injective_id (fun other => ?_) (fun other hother => ?_)
      (fun other hother => ⟨other, update_of_ne hother _ _⟩) hdestroyed
    · rcases eq_or_ne other name with rfl | hne
      · exact Or.inl (update_self _ _ _)
      · exact Or.inr (update_of_ne hne _ _)
    · exact hother ▸ update_self _ _ _

/-- At the start there are no objects and no handles. -/
theorem Consistent.start (runtime : Runtime Memory) :
    Consistent runtime ∅ (Host.start runtime : Host Memory) where
  runtime_eq := rfl
  genuine := allowed_nil
  serves := by
    rintro execution (⟨name, hname⟩ | ⟨name, state, hstate, -⟩)
    · cases hname
    · cases hstate
  shared := by
    rintro execution other (⟨name, hname⟩ | ⟨name, state, hstate, -⟩)
    · cases hname
    · cases hstate
  placed name state hstate := by cases hstate
  owner name other state state' hstate := by cases hstate
  pending name hvalid := by cases hvalid
  noneLeaked _ event halive := absurd rfl halive
  steady _ _ := rfl

theorem Consistent.run (hfresh : HandsOutFresh runtime) (h : Consistent runtime ∅ host)
    (hrun : HostRun host host') : Consistent runtime ∅ host' := by
  induction hrun with
  | refl => exact h
  | tail _ hstep ih => exact ih.step hfresh hstep

/-- After any run, whatever a runtime has answered that hands out fresh handles: it has been called
with live handles under the right device only; every object owns an event of its own that has been
recorded on its stream, and the runtime has told that one that is complete is passed; no event is left
without an owner unless a device was denied, and the current device is the first one as far as the
runtime tells. -/
theorem completion_correct {runtime : Runtime Memory} (hfresh : HandsOutFresh runtime)
    {host : Host Memory} (hrun : HostRun (Host.start runtime) host) :
    Allowed (fun past entry => WellUsed past entry.call) [] host.api.calls ∧
    (∀ name execution, host.contexts name = some execution → Serves execution host.api) ∧
    (∀ name state, (host.events name).state = some state →
      Serves state.execution host.api ∧
      Placed state.execution.stream state.event (host.events name).complete host.api.calls ∧
      ∀ other state', (host.events other).state = some state' → state'.event = state.event →
        other = name) ∧
    (∀ name, (host.events name).valid = true → (host.events name).complete = false →
      (host.events name).state ≠ none) ∧
    (¬ DeniesDevice host.api → ∀ event, eventPhase event host.api.calls ≠ none →
      ∃ name state, (host.events name).state = some state ∧ state.event = event) ∧
    ∀ first, DevicesTold first host.api.calls → current first host.api.calls = first := by
  have h := (Consistent.start runtime).run hfresh hrun
  refine ⟨h.genuine.mono fun _ _ hgenuine => hgenuine.2, fun name execution hname =>
    h.serves _ (Or.inl ⟨name, hname⟩), fun name state hstate => ⟨?_, h.placed name state hstate, ?_⟩,
    h.pending, ?_, h.steady⟩
  · exact h.serves _ (Or.inr ⟨name, state, hstate, rfl⟩)
  · exact fun other state' hother heq => h.owner other name state' state hother hstate heq
  · exact fun hdenies event halive => h.noneLeaked hdenies event halive (Set.notMem_empty _)

/-- The record of an event is a submission. -/
theorem isSubmission_recordEvent (execution : ExecutionState) :
    IsSubmission execution (execution.recordEvent : Call Memory Nat) :=
  fun _ hserves => (Submits.recordEvent hserves).mono fun _ _ => trivial

/-- So is a copy. -/
theorem isSubmission_copyBytes (execution : ExecutionState) (destination source : ConstMemoryView)
    (byteCount : Nat) :
    IsSubmission execution (execution.copyBytes destination source byteCount : Call Memory Nat) := by
  intro api hserves
  refine (yields_executionCopyBytes hserves destination source byteCount).mono (fun event api' h => ?_)
    fun _ _ h => h
  rcases h with ⟨⟨later, ⟨⟨work, -, hsubmission⟩, -, -⟩, hleads⟩, hrestored⟩
  exact ⟨⟨work, trivial, later, hsubmission, hleads⟩, hrestored⟩

/-- A context, a copy, an event behind it and a wait for the event. -/
theorem completion_sample : ∃ host : Host Unit,
    HostRun (Host.start (grantingRuntime Unit)) host ∧ (host.events 1).complete = true ∧
      eventPhase 4 host.api.calls = some (.passed 1) ∧ current 0 host.api.calls = 0 := by
  have hcreate := (HostRun.refl (Host.start (grantingRuntime Unit))).tail
    (@HostStep.createContext _ _ 0 0 _ _ rfl rfl)
  have hcopy := hcreate.tail (@HostStep.submit _ _ 0 0 _ _ _ _ rfl rfl
    (isSubmission_copyBytes _ ⟨64, 16, .device⟩ ⟨16, 32, .device⟩ 16) rfl)
  have hrecord := hcopy.tail (@HostStep.submit _ _ 1 0 _ _ _ _ rfl rfl
    (isSubmission_recordEvent _) rfl)
  have hwait := hrecord.tail (@HostStep.wait _ _ 1 _ rfl)
  have hcorrect := completion_correct (grantingRuntime_fresh Unit) hwait
  have hrun := (Consistent.start (grantingRuntime Unit)).run (grantingRuntime_fresh Unit) hwait
  exact ⟨_, hwait, rfl, (hcorrect.2.2.1 1 _ rfl).2.1.told rfl,
    hcorrect.2.2.2.2.2 0 (tellsDevice_granting hrun.genuine)⟩

end Cuda
end Core
end AscCpp
