import Mathlib.Data.Nat.Find
import Replay.Proofs.EventCounts

namespace Replay

variable {σ : Type}

theorem Members.get?_map {α β : Type} (members : Members α) (f : α → β) (name : Text) :
    Members.get? (members.map fun m => (m.1, f m.2)) name = (Members.get? members name).map f := by
  induction members with
  | nil => rfl
  | cons m rest ih =>
    rw [Members.get?, Members.get?] at ih
    rw [Members.get?, Members.get?, List.map_cons]
    by_cases h : m.1 = name
    · simp [h]
    · simpa [h] using ih

/-- What the calls of a script ask for has a text if what is logged of its steps has. -/
theorem Script.isTold_of_isLoggable {viewport : Viewport} {script : Script}
    {calls : List HostCall} (h : ∀ step ∈ script.steps, step.IsLoggable viewport)
    (hcalls : script.calls viewport = .ok calls) : ∀ call ∈ calls, call.IsTold := by
  obtain ⟨l, hl, rfl⟩ := Script.calls_eq_ok_iff.mp hcalls
  intro call hcall
  rcases List.mem_append.mp hcall with hcall | hlast
  · obtain ⟨step, hstep, hof⟩ := exists_of_mem_right hl hcall
    have hloggable := h step hstep
    cases step with
    | run frames =>
      obtain rfl := Except.ok.inj hof
      exact hloggable.imp fun _ ht => ht.1
    | input pointer =>
      obtain ⟨event, he, rfl⟩ := map_eq_ok_iff.mp hof
      exact (hloggable event he).imp fun _ ht => ht.1
    | snap label =>
      obtain rfl := Except.ok.inj hof
      trivial
  · rw [List.mem_singleton.mp hlast]
    trivial

/-- The host with its driver as far as calls can be told in a log. -/
def Host.worded (host : Host σ) : Host σ := { host with driver := host.driver.worded }

namespace Run

/-- How far a run came: the host did not open, the time was over ahead of a step or after the last
one, a call failed, or all was carried out. -/
inductive Extent where
  | unopened
  | late (step : Nat)
  | failed (step : Nat) (e : Failure)
  | complete

namespace Extent

/-- The types of the events after the one that records the script. -/
def events (script : Script) : Extent → List Text
  | unopened => []
  | late i => (script.steps.take i).map fun step => step.kind.name
  | failed i e => ((script.steps.take i).map fun step => step.kind.name) ++
      (script.kindAt i).logged (.error e : Except Failure Unit)
  | complete => (script.steps.map fun step => step.kind.name) ++ [CallKind.readFrameCount.name]

/-- The number of events about calls of the kind. -/
def calls (script : Script) (kind : CallKind) : Extent → Nat
  | unopened => 0
  | late i => (script.steps.take i).countP fun step => step.kind = kind
  | failed i _ => ((script.steps.take i).countP fun step => step.kind = kind) +
      if script.kindAt i = kind ∧ kind.isAnnounced then 1 else 0
  | complete => (script.steps.countP fun step => step.kind = kind) +
      if kind = .readFrameCount then 1 else 0

/-- The number of events about failures of the driver. -/
def errors : Extent → Nat
  | failed _ (.driver _) => 1
  | _ => 0

variable {script : Script} {name : Text}

theorem count_steps (steps : List Step) (kind : CallKind) :
    (steps.map fun step => step.kind.name).count kind.name =
      steps.countP fun step => step.kind = kind := by
  rw [List.count, List.countP_map]
  refine List.countP_congr fun step _ => ?_
  simp [CallKind.name_inj]

theorem count_steps_of_ne (h : ∀ kind : CallKind, name ≠ kind.name) (steps : List Step) :
    (steps.map fun step => step.kind.name).count name = 0 := by
  refine List.count_eq_zero.mpr fun hmem => ?_
  obtain ⟨step, -, hstep⟩ := List.mem_map.mp hmem
  exact h step.kind hstep.symm

theorem errorType_ne (kind : CallKind) : LogEntry.errorType ≠ kind.name := by
  cases kind <;> decide

theorem count_logged (kind other : CallKind) (e : Failure) :
    (kind.logged (.error e : Except Failure Unit)).count other.name =
      if kind = other ∧ other.isAnnounced then 1 else 0 := by
  have htypes : e.types.count other.name = 0 := by
    refine List.count_eq_zero.mpr fun hmem => ?_
    cases e with
    | driver message => exact errorType_ne other (List.mem_singleton.mp hmem).symm
    | _ => cases hmem
  rw [CallKind.logged, List.count_append, htypes, Nat.add_zero]
  by_cases h : kind = other
  · subst h
    cases kind.isAnnounced <;> simp
  · have hname : ¬ kind.name = other.name := fun heq => h (CallKind.name_inj.mp heq)
    cases kind.isAnnounced <;> simp [h, hname]

theorem count_logged_of_ne (h : ∀ kind : CallKind, name ≠ kind.name) (kind : CallKind)
    (e : Failure) :
    (kind.logged (.error e : Except Failure Unit)).count name = e.types.count name := by
  have hname : ¬ kind.name = name := fun heq => h kind heq.symm
  rw [CallKind.logged, List.count_append]
  cases kind.isAnnounced <;> simp [hname]

theorem count_kind (extent : Extent) (script : Script) (kind : CallKind) :
    (extent.events script).count kind.name = extent.calls script kind := by
  cases extent with
  | unopened => rfl
  | late i => exact count_steps _ kind
  | failed i e => rw [events, List.count_append, count_steps, count_logged, calls]
  | complete =>
    rw [events, List.count_append, count_steps, calls, List.count_singleton]
    congr 1
    by_cases h : kind = .readFrameCount
    · rw [h]
      rfl
    · have hname : ¬ CallKind.readFrameCount.name = kind.name :=
        fun heq => h (CallKind.name_inj.mp heq).symm
      simp [h, hname]

theorem count_error (extent : Extent) (script : Script) :
    (extent.events script).count LogEntry.errorType = extent.errors := by
  cases extent with
  | unopened => rfl
  | late i => exact count_steps_of_ne errorType_ne _
  | failed i e =>
    rw [events, List.count_append, count_steps_of_ne errorType_ne,
      count_logged_of_ne errorType_ne, Nat.zero_add]
    cases e <;> rfl
  | complete =>
    rw [events, List.count_append, count_steps_of_ne errorType_ne]
    rfl

theorem count_other (extent : Extent) (script : Script) (h : ∀ kind : CallKind, name ≠ kind.name)
    (herror : name ≠ LogEntry.errorType) : (extent.events script).count name = 0 := by
  cases extent with
  | unopened => rfl
  | late i => exact count_steps_of_ne h _
  | failed i e =>
    rw [events, List.count_append, count_steps_of_ne h, count_logged_of_ne h, Nat.zero_add]
    refine List.count_eq_zero.mpr fun hmem => ?_
    cases e with
    | driver message => exact herror (List.mem_singleton.mp hmem)
    | _ => cases hmem
  | complete =>
    have hlast : ¬ CallKind.readFrameCount.name = name := fun heq => h _ heq.symm
    rw [events, List.count_append, count_steps_of_ne h, List.count_singleton]
    simp [hlast]

end Extent

/-- How a number of events is shown: what did not occur is not there. -/
def shownCount (n : Nat) : Option Json := if n = 0 then none else some (.ofNat n)

/-- The counts are those of a run of the script that came so far. -/
structure HasCounts (counts : Members Json) (script : Script) (extent : Extent) : Prop where
  protocol : counts.get? scriptType = shownCount 1
  calls : ∀ kind : CallKind, counts.get? kind.name = shownCount (extent.calls script kind)
  errors : counts.get? LogEntry.errorType = shownCount extent.errors
  others : ∀ name, name ≠ scriptType → (∀ kind : CallKind, name ≠ kind.name) →
    name ≠ LogEntry.errorType → counts.get? name = none

theorem hasCounts_of_events (script : Script) (extent : Extent) :
    HasCounts (((scriptType :: extent.events script).foldl EventLog.tally []).map
      fun c => (c.1, Json.ofNat c.2)) script extent := by
  have hget (name : Text) : Members.get? (((scriptType :: extent.events script).foldl
      EventLog.tally []).map fun c => (c.1, Json.ofNat c.2)) name =
      shownCount ((scriptType :: extent.events script).count name) := by
    rw [Members.get?_map, EventLog.get?_foldl_tally, shownCount]
    split <;> rfl
  have hkinds (kind : CallKind) : scriptType ≠ kind.name := by cases kind <;> decide
  have herror : scriptType ≠ LogEntry.errorType := by decide
  refine ⟨?_, fun kind => ?_, ?_, fun name hname hcalls hother => ?_⟩
  · rw [hget, List.count_cons_self, extent.count_other script hkinds herror]
  · rw [hget, List.count_cons_of_ne (hkinds kind), extent.count_kind]
  · rw [hget, List.count_cons_of_ne herror, extent.count_error]
  · rw [hget, List.count_cons_of_ne hname.symm, extent.count_other script hcalls hother]
    rfl

/-- The check of the budget ahead of a step of the run, or after the last one. -/
def judged (plan : RunPlan) (step : Nat) : Except Failure Unit :=
  (⟨plan.clock 0, Timing.standardBudget, .int 20000⟩ : Timing).judge step (plan.clock (step + 1))

/-- A run of the script comes so far on the host alone, which is entered in the state `s`. -/
inductive Reaches (host : Host σ) (plan : RunPlan) (script : Script) (files : FileSystem) (s : σ) :
    Extent → Prop
  | unopened {e : Failure} {t : σ} (hopened : host.enter plan.settings files s = (.error e, t)) :
    Reaches host plan script files s .unopened
  | late {entered served : σ} {calls : List HostCall} {i : Nat} {e : Failure}
    (hopened : host.enter plan.settings files s = (.ok (), entered))
    (hcalls : script.calls .standard = .ok calls) (hi : i ≤ script.length)
    (htime : ∀ k < i, judged plan k = .ok ())
    (hserve : host.driver.serve (calls.take i) entered = (.ok (), served))
    (hlate : judged plan i = .error e) : Reaches host plan script files s (.late i)
  | failed {entered : σ} {calls : List HostCall} {i : Nat} {e : Failure}
    (hopened : host.enter plan.settings files s = (.ok (), entered))
    (hcalls : script.calls .standard = .ok calls) (htime : ∀ k ≤ i, judged plan k = .ok ())
    (hfault : host.driver.FaultAt calls entered i e) :
    Reaches host plan script files s (.failed i e)
  | complete {entered served : σ} {calls : List HostCall}
    (hopened : host.enter plan.settings files s = (.ok (), entered))
    (hcalls : script.calls .standard = .ok calls)
    (htime : ∀ k ≤ script.length, judged plan k = .ok ())
    (hserve : host.driver.serve calls entered = (.ok (), served)) :
    Reaches host plan script files s .complete

theorem exists_reaches (host : Host σ) (plan : RunPlan) (script : Script) (files : FileSystem)
    (s : σ) : ∃ extent, Reaches host plan script files s extent := by
  classical
  obtain ⟨calls, hcalls⟩ := script.exists_calls
  have hlen := Script.length_calls hcalls
  cases hopened : host.enter plan.settings files s with
  | mk r entered =>
    cases r with
    | error e => exact ⟨.unopened, .unopened hopened⟩
    | ok _ =>
      let stops (k : Nat) : Prop :=
        (∃ e, judged plan k = .error e) ∨ ∃ e, host.driver.FaultAt calls entered k e
      have htime {k : Nat} (hk : ¬ stops k) : judged plan k = .ok () := by
        cases hj : judged plan k with
        | ok _ => rfl
        | error e => exact absurd (.inl ⟨e, hj⟩) hk
      by_cases hstops : ∃ k, k ≤ script.length ∧ stops k
      · -- the first place at which something stops the run
        obtain ⟨hk, hstop⟩ := Nat.find_spec hstops
        have hbefore {i : Nat} (hi : i < Nat.find hstops) : ¬ stops i := fun h =>
          Nat.find_min hstops hi ⟨by omega, h⟩
        generalize Nat.find hstops = k at hk hstop hbefore
        by_cases hlate : ∃ e, judged plan k = .error e
        · obtain ⟨e, he⟩ := hlate
          have hfaultless (j : Nat) (f : Failure) (hf : host.driver.FaultAt calls entered j f) :
              k ≤ j := Nat.le_of_not_lt fun hj => hbefore hj (.inr ⟨f, hf⟩)
          obtain ⟨t, ht⟩ := Driver.serve_take_of_fault_le (m := k) (by omega) hfaultless
          exact ⟨.late k, .late hopened hcalls hk (fun i hi => htime (hbefore hi)) ht he⟩
        · obtain ⟨e, hfault⟩ := hstop.resolve_left hlate
          refine ⟨.failed k e, .failed hopened hcalls (fun i hi => ?_) hfault⟩
          rcases Nat.lt_or_eq_of_le hi with hi | rfl
          · exact htime (hbefore hi)
          · cases hj : judged plan i with
            | ok _ => rfl
            | error f => exact absurd ⟨f, hj⟩ hlate
      · have hnone {k : Nat} (hk : k ≤ script.length) : ¬ stops k := fun h => hstops ⟨k, hk, h⟩
        have hfaultless (j : Nat) (f : Failure) (hf : host.driver.FaultAt calls entered j f) :
            calls.length ≤ j := by
          obtain ⟨call, _, hcall, -⟩ := id hf
          have hj : j < calls.length := (List.getElem?_eq_some_iff.mp hcall).1
          exact absurd (.inr ⟨f, hf⟩) (hnone (k := j) (by omega))
        obtain ⟨t, ht⟩ := Driver.serve_take_of_fault_le (m := calls.length) le_rfl hfaultless
        rw [List.take_length] at ht
        exact ⟨.complete, .complete hopened hcalls (fun k hk => htime (hnone hk)) ht⟩

/-- A run comes to the call at place `i`, and the answer to that call is the first that has no
text. -/
def Untold (host : Host σ) (plan : RunPlan) (script : Script) (files : FileSystem) (s : σ)
    (i : Nat) : Prop :=
  ∃ entered calls, host.enter plan.settings files s = (.ok (), entered) ∧
    script.calls .standard = .ok calls ∧ (∀ k ≤ i, judged plan k = .ok ()) ∧
    host.driver.UntoldAt calls entered i

theorem Untold.reaches {host : Host σ} {plan : RunPlan} {script : Script} {files : FileSystem}
    {s : σ} {i : Nat} (h : Untold host plan script files s i) :
    Reaches host.worded plan script files s (.failed i (.number .tooManyDigits)) := by
  obtain ⟨entered, calls, hopened, hcalls, htime, huntold⟩ := h
  exact .failed hopened hcalls htime huntold.fault

/-- Where all answers have a text, a run comes as far on the worded host. -/
theorem Reaches.worded {host : Host σ} {plan : RunPlan} {script : Script} {files : FileSystem}
    {s : σ} {extent : Extent} (h : Reaches host plan script files s extent)
    (hscript : ∀ step ∈ script.steps, step.IsLoggable .standard)
    (hnone : ∀ i, ¬ Untold host plan script files s i) :
    Reaches host.worded plan script files s extent := by
  cases h with
  | unopened hopened => exact .unopened hopened
  | late hopened hcalls hi htime hserve hlate =>
    have htold := Script.isTold_of_isLoggable hscript hcalls
    refine .late hopened hcalls hi htime (Driver.serve_worded htold (fun j hj huntold => ?_) hserve)
      hlate
    exact hnone j ⟨_, _, hopened, hcalls, fun k hk => htime k (by omega), huntold⟩
  | failed hopened hcalls htime hfault =>
    have htold := Script.isTold_of_isLoggable hscript hcalls
    refine .failed hopened hcalls htime (Driver.fault_worded htold (fun j hj huntold => ?_) hfault)
    exact hnone j ⟨_, _, hopened, hcalls, fun k hk => htime k (by omega), huntold⟩
  | @complete entered served calls hopened hcalls htime hserve =>
    have hlen := Script.length_calls hcalls
    have htold := Script.isTold_of_isLoggable hscript hcalls
    have hall : host.driver.serve (calls.take calls.length) entered = (.ok (), served) := by
      rw [List.take_length]
      exact hserve
    have hworded := Driver.serve_worded htold (fun j hj huntold =>
      hnone j ⟨_, _, hopened, hcalls, fun k hk => htime k (by omega), huntold⟩) hall
    rw [List.take_length] at hworded
    exact .complete hopened hcalls htime hworded

/-- The types of what is logged of the replay on the host that was entered. -/
theorem Reaches.execute_types {host : Host σ} {plan : RunPlan} {script : Script}
    {files : FileSystem} {s entered : σ} {extent : Extent}
    (h : Reaches host.worded plan script files s extent)
    (hscript : ∀ step ∈ script.steps, step.IsLoggable .standard)
    (hopened : host.enter plan.settings files s = (.ok (), entered)) :
    (host.driver.noted.execute plan.clock Timing.standardBudget .standard script
      ⟨entered, []⟩).2.types = extent.events script := by
  cases h with
  | unopened hrefused => cases hopened.symm.trans hrefused
  | late hopened' hcalls hi htime hserve hlate =>
    cases hopened.symm.trans hopened'
    exact Driver.execute_noted_late hcalls rfl hi htime hserve hlate
  | failed hopened' hcalls htime hfault =>
    cases hopened.symm.trans hopened'
    exact Driver.execute_noted_failed hcalls rfl (Script.isTold_of_isLoggable hscript hcalls)
      hfault htime
  | complete hopened' hcalls htime hserve =>
    cases hopened.symm.trans hopened'
    exact Driver.execute_noted_complete hcalls rfl htime hserve

section

variable {host : Host σ} {plan : RunPlan} {script : Script} {s t : Session σ} {directory : Path}
  {counts : Members Nat}

theorem onHost_preserves_counts {α : Type} (a : Action σ α) :
    Action.Preserves (fun s : Session σ => s.counts = counts) (Session.onHost a) := fun _ h => h

theorem onMachine_preserves_counts {α : Type} (a : Action Machine α) :
    Action.Preserves (fun s : Session σ => s.counts = counts) (Session.onMachine a) := fun _ h => h

theorem counts_of_prepare (h : prepare plan script s = (.ok directory, t)) :
    t.counts = EventLog.tally s.counts scriptType := by
  obtain ⟨made, u, hmade, h⟩ := Action.bind_eq_ok_iff.mp h
  obtain ⟨_, v, hstart, h⟩ := Action.bind_eq_ok_iff.mp h
  obtain ⟨_, w, hrecord, h⟩ := Action.bind_eq_ok_iff.mp h
  cases h
  have hu : u.counts = s.counts := by
    have hkept := onMachine_preserves_counts (Machine.makeRunDirectory plan.settings.outputRoot)
      s rfl
    rwa [hmade] at hkept
  have hv : v.counts = u.counts := by
    have hkept := onMachine_preserves_counts (EventLog.start (directory.child logName)) u rfl
    rwa [hstart] at hkept
  rw [EventLog.counts_of_record hrecord, hv, hu]

/-- Of a visit only what is done there can be counted. -/
theorem visit_counts {α : Type} (settings : Settings) (files : FileSystem)
    {body : Action (Session σ) α} {entered : σ}
    (hopened : host.enter settings files s.host = (.ok (), entered)) :
    (host.visit Session.onHost settings files body s).2.counts =
      (body { s with host := entered }).2.counts := by
  have henter : Session.onHost (host.enter settings files) s =
      (.ok (), { s with host := entered }) := by
    rw [Session.onHost, Action.lift, hopened]
  have hleave (r : Except Failure α) (u : Session σ) :
      (Host.conclude Session.onHost host r u).2.counts = u.counts := by
    have hkept : Action.Preserves (fun v : Session σ => v.counts = u.counts)
        (Host.conclude Session.onHost host r) := by
      cases r with
      | ok x => exact (onHost_preserves_counts _).bind fun _ => .pure _
      | error e => exact (onHost_preserves_counts _).bind fun _ => .fail _
    exact hkept u rfl
  rw [Host.visit, Action.bind_ok _ henter, Action.bind_apply, Action.attempt_apply]
  exact hleave _ _

theorem visit_counts_of_error {α : Type} (settings : Settings) (files : FileSystem)
    {body : Action (Session σ) α} {e : Failure} {refused : σ}
    (hopened : host.enter settings files s.host = (.error e, refused)) :
    (host.visit Session.onHost settings files body s).2.counts = s.counts := by
  have henter : Session.onHost (host.enter settings files) s =
      (.error e, { s with host := refused }) := by
    rw [Session.onHost, Action.lift, hopened]
  rw [Host.visit, Action.bind_error _ henter]

/-- What is saved after the visit is not counted. -/
theorem carryOut_counts (files : FileSystem) :
    (carryOut host plan script directory files s).2.counts =
      (host.visit Session.onHost plan.settings files
        ((EventLog.logged (directory.child logName) host.driver).execute plan.clock
          Timing.standardBudget .standard script) s).2.counts := by
  rw [carryOut, Action.bind_apply]
  generalize host.visit Session.onHost plan.settings files _ s = visited
  rcases visited with ⟨e | execution, u⟩
  · rfl
  · have hkept : Action.Preserves (fun v : Session σ => v.counts = u.counts) (do
        let artifacts ← Session.onMachine (Artifact.saveAll directory execution.captures)
        pure (script, execution, artifacts)) :=
      (onMachine_preserves_counts _).bind fun _ => .pure _
    exact hkept u rfl

/-- All entries of the replay can be appended to the log `t`. They are those that have a text. -/
def CanLog (host : Host σ) (plan : RunPlan) (script : Script) (directory : Path)
    (t : Session σ) : Prop :=
  ∀ entered, host.enter plan.settings t.machine.files t.host = (.ok (), entered) →
    (EventLog.addAll (directory.child logName) (host.driver.noted.execute plan.clock
      Timing.standardBudget .standard script ⟨entered, []⟩).2.entries t).1 = .ok ()

theorem carryOut_counts_of_reaches {extent : Extent}
    (h : Reaches host.worded plan script t.machine.files t.host extent)
    (hscript : ∀ step ∈ script.steps, step.IsLoggable .standard)
    (hlog : CanLog host plan script directory t) :
    (carryOut host plan script directory t.machine.files t).2.counts =
      (extent.events script).foldl EventLog.tally t.counts := by
  rw [carryOut_counts]
  cases hopened : host.enter plan.settings t.machine.files t.host with
  | mk r entered =>
    cases r with
    | error e =>
      cases h with
      | unopened _ => rw [visit_counts_of_error _ _ hopened]; rfl
      | late hopened' | failed hopened' | complete hopened' => cases hopened.symm.trans hopened'
    | ok _ =>
      let entries := (host.driver.noted.execute plan.clock Timing.standardBudget .standard script
        ⟨entered, []⟩).2.entries
      let path := directory.child logName
      have hadded : EventLog.addAll path entries (t.withHost entered) = _ :=
        EventLog.addAll_withHost entries t entered
      rw [hlog entered hopened] at hadded
      obtain ⟨u, hrun, hview⟩ := (EventLog.execute_appends host.driver path plan.clock
        Timing.standardBudget .standard script (t.withHost entered)).good hadded
      have hu : u.counts = (EventLog.addAll path entries t).2.counts := by
        have hsame := congrArg Session.counts hview
        exact hsame
      have hcounts := EventLog.counts_of_addAll (Prod.ext (hlog entered hopened) rfl)
      rw [visit_counts _ _ hopened]
      show ((EventLog.logged path host.driver).execute plan.clock Timing.standardBudget .standard
        script (t.withHost entered)).2.counts = _
      rw [hrun, hu, hcounts, ← h.execute_types hscript hopened]
      rfl

end

theorem result_eventCounts (plan : RunPlan) (p : Progress) (counts : Members Nat) :
    (result plan p counts).eventCounts = counts.map fun c => (c.1, Json.ofNat c.2) := by
  rw [result]
  cases p.outcome with
  | error e => rfl
  | ok x => rfl

/-- A run gives a result with the counts of one that came so far; it gives none only if its report
shows a text without a UTF-8 form. -/
def Counts (host : Host σ) (plan : RunPlan) (input : Json) (s : Session σ) (script : Script)
    (extent : Extent) : Prop :=
  (∃ r, (perform host plan input s).1 = .ok r ∧ HasCounts r.eventCounts script extent) ∨
    ∃ e, (perform host plan input s).1 = .error (.file (.unencodable e))

theorem counts_of_reaches {host : Host σ} {plan : RunPlan} {input : Json} {s t : Session σ}
    {script : Script} {directory : Path} {extent : Extent}
    (hread : Script.read .standard .standard input = .ok script)
    (hprepare : prepare plan script (started s) = (.ok directory, t))
    (hlog : CanLog host plan script directory t) (hclock : s.machine.IsTimed)
    (hw : ∀ i, ∃ x, plan.stopwatch i = .real x)
    (h : Reaches host.worded plan script t.machine.files s.host extent) :
    Counts host plan input s script extent := by
  have hhost : t.host = s.host := by
    have hkept := prepare_preserves_host plan script s.host (started s) rfl
    rwa [hprepare] at hkept
  rw [← hhost] at h
  have hsound : (started s).IsSound := ⟨by simp [started], hclock⟩
  obtain ⟨p, u, hp, hu, hprepared⟩ := progress_isPrepared host plan input hsound rfl
  have hcounts : u.counts = (scriptType :: extent.events script).foldl EventLog.tally [] := by
    have hsame := hp.symm.trans (progress_of_prepare hread hprepare)
    obtain ⟨-, rfl⟩ := Prod.mk.inj hsame
    rw [carryOut_counts_of_reaches h (Script.isLoggable_of_read hread) hlog,
      counts_of_prepare hprepare]
    rfl
  have hshown : HasCounts (result plan p u.counts).eventCounts script extent := by
    rw [result_eventCounts, hcounts]
    exact hasCounts_of_events script extent
  obtain ⟨hraise, hgive⟩ := perform_fst hw hp hu hprepared
  by_cases hreport : (result plan p u.counts).IsUnreportable u.machine.files
  · exact .inr (hraise hreport)
  · obtain ⟨a, b, c, hr⟩ := hgive hreport
    exact .inl ⟨_, hr, hshown⟩

/-- A run whose log can be written counts what its extent says, whether or not the host can be left
and the snapshots be saved afterwards, if all answers of the game have a text. If one has none, the
run counts what it would if the game had failed at that call: the answer is not counted, and what
comes after it is not done. Every run has an extent. -/
theorem perform_counts (host : Host σ) (plan : RunPlan) (input : Json) (s : Session σ)
    {script : Script} {directory : Path} {t : Session σ}
    (hread : Script.read .standard .standard input = .ok script)
    (hprepare : prepare plan script (started s) = (.ok directory, t))
    (hlog : CanLog host plan script directory t) (hclock : s.machine.IsTimed)
    (hw : ∀ i, ∃ x, plan.stopwatch i = .real x) :
    let files := t.machine.files
    (∃ extent, Reaches host plan script files s.host extent) ∧
    (∀ extent, Reaches host plan script files s.host extent →
      (∀ i, ¬ Untold host plan script files s.host i) → Counts host plan input s script extent) ∧
    ∀ i, Untold host plan script files s.host i → (script.kindAt i).isAnnounced = false ∧
      Counts host plan input s script (.failed i (.number .tooManyDigits)) := by
  intro files
  have hscript := Script.isLoggable_of_read hread
  refine ⟨exists_reaches host plan script _ _, fun extent h hnone => ?_, fun i h => ⟨?_, ?_⟩⟩
  · exact counts_of_reaches hread hprepare hlog hclock hw (h.worded hscript hnone)
  · obtain ⟨_, _, -, hcalls, -, huntold⟩ := h
    exact huntold.isAnnounced (Script.isTold_of_isLoggable hscript hcalls) hcalls
  · exact counts_of_reaches hread hprepare hlog hclock hw h.reaches

/-- A game whose frame count has too many digits carries out the whole script, but the run does not
count that the frame count was read. -/
theorem perform_counts_of_long_count :
    let host := RehearsalHost.host
      ⟨⟨.null, none, some (.number (.int (10 ^ digitLimit))), none⟩, none, none⟩
    let script : Script := ⟨[.run 1]⟩
    ∃ files r, Reaches host .still script files Session.blank.host .complete ∧
      (perform host .still script.payload .blank).1 = .ok r ∧
      r.eventCounts.get? scriptType = some (.ofNat 1) ∧
      r.eventCounts.get? CallKind.runFrames.name = some (.ofNat 1) ∧
      r.eventCounts.get? CallKind.readFrameCount.name = none := by
  intro host script
  have hread : Script.read .standard .standard script.payload = .ok script := by decide +kernel
  obtain ⟨t, hprepare, hhost, -⟩ : ∃ t, prepare .still script (started .blank) =
      (.ok (.ofLocation [directoryName .blank]), t) ∧ t.host = Session.blank.host ∧ _ :=
    prepare_ok script rfl Session.blank_isOutputRoot Session.blank_isTimed
  have hlog : CanLog host .still script (.ofLocation [directoryName .blank]) t := by
    intro entered hopened
    rw [hhost] at hopened
    obtain rfl : ⟨.int 0, [.opened]⟩ = entered := congrArg Prod.snd hopened
    have hadded : (EventLog.addAll ((Path.ofLocation [directoryName .blank]).child logName)
        (host.driver.noted.execute RunPlan.still.clock Timing.standardBudget .standard script
          ⟨⟨.int 0, [.opened]⟩, []⟩).2.entries
        (prepare (σ := Stage) .still script (started .blank)).2).1.toOption = some () := by
      decide +kernel
    rw [hprepare] at hadded
    exact toOption_eq_some_iff.mp hadded
  let opened : Stage := ⟨.int 0, [.opened]⟩
  let served : Stage := ⟨.int 1, [.opened, .runFrames (.int 1)]⟩
  have hcalls : script.calls .standard = .ok [.runFrames (.int 1), .readFrameCount] := rfl
  have hserve : host.driver.serve [.runFrames (.int 1), .readFrameCount] opened =
      (.ok (), ⟨.int 1, [.opened, .runFrames (.int 1), .readFrameCount]⟩) := rfl
  have htold : (HostCall.runFrames (.int 1)).IsTold := ⟨"1", by decide +kernel⟩
  have hframes : host.driver.worded.obey (.runFrames (.int 1)) opened = (.ok (), served) :=
    (host.driver.worded_runFrames htold opened).trans rfl
  have hfailed : (host.driver.worded.obey .readFrameCount served).1 =
      .error (.number .tooManyDigits) := by
    decide +kernel
  have huntold : Untold host .still script t.machine.files Session.blank.host 1 :=
    ⟨opened, _, rfl, hcalls, fun k _ => rfl, .readFrameCount, served, rfl,
      Action.bind_ok _ hframes, rfl, hfailed⟩
  have hreaches : Reaches host .still script t.machine.files Session.blank.host .complete :=
    .complete rfl hcalls (fun k _ => rfl) hserve
  obtain ⟨r, hr⟩ : ∃ r, (perform host .still script.payload .blank).1 = .ok r := by
    have hsound : (started Session.blank).IsSound := ⟨by simp [started], Session.blank_isTimed⟩
    obtain ⟨p, u, hp, hu, hprepared⟩ := progress_isPrepared host .still script.payload hsound rfl
    let ran := progress host .still script.payload (started .blank)
    have hcheck : (ran.1.toOption.any fun p =>
        !decide ((result .still p ran.2.counts).IsUnreportable ran.2.machine.files)) = true := by
      decide +kernel
    have hran : ran = (.ok p, u) := hp
    rw [hran] at hcheck
    obtain ⟨a, b, c, hr⟩ := (perform_fst (fun _ => ⟨.zero, rfl⟩) hp hu hprepared).2
      (by simpa [Except.toOption] using hcheck)
    exact ⟨_, hr⟩
  obtain ⟨-, -, hnumber⟩ := perform_counts host .still script.payload .blank hread hprepare hlog
    Session.blank_isTimed fun _ => ⟨.zero, rfl⟩
  obtain ⟨-, ⟨r', hr', hcounts⟩ | ⟨e, he⟩⟩ := hnumber 1 huntold
  · obtain rfl : r = r' := Except.ok.inj (hr.symm.trans hr')
    exact ⟨_, r, hreaches, hr, hcounts.protocol, hcounts.calls .runFrames,
      hcounts.calls .readFrameCount⟩
  · cases hr.symm.trans he

end Run

end Replay
