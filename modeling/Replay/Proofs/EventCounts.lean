import Replay.Proofs.RunArtifacts

namespace Replay

variable {σ α : Type}

/-- The kind of call that carries out a step. -/
def Step.kind : Step → CallKind
  | run _ => .runFrames
  | input _ => .applyInput
  | snap _ => .captureSnapshot

/-- Whether calls of the kind are logged before they are made. -/
def CallKind.isAnnounced : CallKind → Bool
  | runFrames | applyInput => true
  | captureSnapshot | readFrameCount => false

theorem CallKind.name_inj {a b : CallKind} : a.name = b.name ↔ a = b := by
  cases a <;> cases b <;> decide

namespace EventLog

variable {path : Path} {s u : Session σ}

/-- Events that are counted one after the other are there as often as they occur. -/
theorem get?_foldl_tally (types : List Text) (name : Text) :
    Members.get? (types.foldl tally []) name =
      if types.count name = 0 then none else some (types.count name) := by
  induction types using List.reverseRecOn generalizing name with
  | nil => rfl
  | append_singleton types type ih =>
    have hcount : (Members.get? (types.foldl tally []) type).getD 0 = types.count type := by
      rw [ih]
      split
      next h => exact h.symm
      next => rfl
    rw [List.foldl_append, List.foldl_cons, List.foldl_nil, tally, Members.get?_put, hcount]
    by_cases h : name = type
    · subst h
      simp
    · have hne : ¬ type = name := fun heq => h heq.symm
      simp [h, hne, ih]

theorem counts_of_record {type message : Text} (h : record path type message s = (.ok (), u)) :
    u.counts = tally s.counts type := by
  obtain ⟨_, _, hclock, h⟩ := Action.bind_eq_ok_iff.mp h
  obtain ⟨_, _, happend, h⟩ := Action.bind_eq_ok_iff.mp h
  obtain ⟨-, rfl⟩ := Prod.mk.inj hclock
  obtain ⟨-, rfl⟩ := Prod.mk.inj happend
  obtain ⟨-, rfl⟩ := Prod.mk.inj h
  rfl

theorem counts_of_add {e : LogEntry} (h : add path e s = (.ok (), u)) :
    u.counts = tally s.counts e.type := by
  obtain ⟨_, _, hmessage, h⟩ := Action.bind_eq_ok_iff.mp h
  obtain ⟨-, rfl⟩ := Prod.mk.inj hmessage
  exact counts_of_record h

theorem counts_of_addAll {entries : List LogEntry} (h : addAll path entries s = (.ok (), u)) :
    u.counts = (entries.map LogEntry.type).foldl tally s.counts := by
  induction entries generalizing s with
  | nil =>
    cases h
    rfl
  | cons e rest ih =>
    obtain ⟨_, t, hadd, h⟩ := Action.bind_eq_ok_iff.mp h
    rw [ih h, counts_of_add hadd, List.map_cons, List.foldl_cons]

end EventLog

/-- The type under which a call is logged that is carried out. -/
def HostCall.typeName (call : HostCall) : Text := call.kind?.elim [] CallKind.name

theorem HostCall.kind?_of_ofStep {viewport : Viewport} {step : Step} {call : HostCall}
    (h : ofStep viewport step = .ok call) : call.kind? = some step.kind := by
  cases step with
  | run frames =>
    obtain rfl := Except.ok.inj h
    rfl
  | snap label =>
    obtain rfl := Except.ok.inj h
    rfl
  | input step =>
    obtain ⟨event, -, rfl⟩ := map_eq_ok_iff.mp h
    rfl

theorem HostCall.typeName_of_ofStep {viewport : Viewport} {step : Step} {call : HostCall}
    (h : ofStep viewport step = .ok call) : call.typeName = step.kind.name := by
  rw [typeName, kind?_of_ofStep h, Option.elim_some]

theorem Script.map_typeName_take {viewport : Viewport} {script : Script} {calls : List HostCall}
    {i : Nat} (h : script.calls viewport = .ok calls) (hi : i ≤ script.length) :
    (calls.take i).map HostCall.typeName =
      (script.steps.take i).map fun step => step.kind.name := by
  obtain ⟨l, hl, rfl⟩ := calls_eq_ok_iff.mp h
  have hil : i ≤ l.length := hl.length_eq ▸ hi
  have hall : l.map HostCall.typeName = script.steps.map fun step => step.kind.name := by
    clear h hi hil
    generalize script.steps = steps at hl
    induction hl with
    | nil => rfl
    | cons hcall _ ih => rw [List.map_cons, List.map_cons, ih, HostCall.typeName_of_ofStep hcall]
  rw [List.take_append_of_le_length hil, List.map_take, List.map_take, hall]

/-- The types of what is logged beside a call that fails so. -/
def Failure.types : Failure → List Text
  | driver _ => [LogEntry.errorType]
  | _ => []

/-- The types of what is logged of a call of the kind that comes out so. -/
def CallKind.logged (kind : CallKind) : Except Failure α → List Text
  | .ok _ => [kind.name]
  | .error e => (if kind.isAnnounced then [kind.name] else []) ++ e.types

theorem CallKind.logged_map {β : Type} (kind : CallKind) (f : α → β) (r : Except Failure α) :
    kind.logged (r.map f) = kind.logged r := by
  cases r <;> rfl

namespace Noted

/-- The types of the entries. -/
def types (n : Noted σ) : List Text := n.entries.map LogEntry.type

/-- An action that does on the host what a call does, and notes what is to be logged of it. -/
def Logs (kind : CallKind) (b : Action (Noted σ) α) (call : Action σ α) : Prop :=
  ∀ n, ∃ m, b n = ((call n.host).1, m) ∧ m.host = (call n.host).2 ∧
    m.types = n.types ++ kind.logged (call n.host).1

theorem guarded_apply (kind : CallKind) (call : Action σ α) (n : Noted σ) :
    ∃ m, guarded kind call n = ((call n.host).1, m) ∧ m.host = (call n.host).2 ∧
      m.types = n.types ++
        match (call n.host).1 with
        | .ok _ => []
        | .error e => e.types := by
  rw [guarded, Action.bind_apply, Action.attempt_apply, onHost, Action.lift]
  cases call n.host with
  | mk r host =>
    cases r with
    | ok x => exact ⟨_, rfl, rfl, (List.append_nil _).symm⟩
    | error e =>
      cases e with
      | driver message =>
        refine ⟨_, rfl, rfl, ?_⟩
        rw [types, List.map_append]
        rfl
      | _ => exact ⟨_, rfl, rfl, (List.append_nil _).symm⟩

theorem announced_logs {kind : CallKind} {e : LogEntry} {t : Text}
    (hkind : kind.isAnnounced = true) (htype : e.type = kind.name) (he : e.message = .ok t)
    (call : Action σ α) :
    Logs kind (note e >>= fun _ => guarded kind call) (e.word >>= fun _ => call) := by
  intro n
  obtain ⟨m, hm, hhost, htypes⟩ := guarded_apply kind call ⟨n.host, n.entries ++ [e]⟩
  rw [Action.bind_ok _ (note_of_ok he n), Action.bind_ok _ (LogEntry.word_of_ok he n.host)]
  refine ⟨m, hm, hhost, ?_⟩
  have hnoted : types ⟨n.host, n.entries ++ [e]⟩ = n.types ++ [kind.name] := by
    rw [types, List.map_append, List.map_singleton, htype, types]
  rw [htypes, hnoted, List.append_assoc]
  cases (call n.host).1 with
  | ok x => rfl
  | error f => rw [CallKind.logged, hkind, if_pos rfl]

theorem answered_logs {kind : CallKind} {entry : α → LogEntry} (hkind : kind.isAnnounced = false)
    (he : ∀ x, (entry x).type = kind.name) (call : Action σ α) :
    Logs kind (guarded kind call >>= fun x => note (entry x) >>= fun _ => pure x)
      (call >>= fun x => (entry x).word >>= fun _ => pure x) := by
  intro n
  obtain ⟨m, hm, hhost, htypes⟩ := guarded_apply kind call n
  cases hcall : call n.host with
  | mk r t =>
    rw [hcall] at hm hhost htypes
    cases r with
    | ok x =>
      rw [Action.bind_ok _ hm, Action.bind_ok _ hcall]
      have hsame : m.types = n.types := htypes.trans (List.append_nil _)
      cases hmessage : (entry x).message with
      | ok text =>
        rw [Action.bind_ok _ (note_of_ok hmessage m),
          Action.bind_ok _ (LogEntry.word_of_ok hmessage t)]
        refine ⟨⟨m.host, m.entries ++ [entry x]⟩, rfl, hhost, ?_⟩
        rw [types, List.map_append, List.map_singleton, he, ← types, hsame]
        rfl
      | error y =>
        rw [Action.bind_error _ (note_of_error hmessage m),
          Action.bind_error _ (LogEntry.word_of_error hmessage t)]
        refine ⟨m, rfl, hhost, ?_⟩
        rw [hsame, CallKind.logged, hkind, if_neg Bool.false_ne_true]
        exact (List.append_nil _).symm
    | error e =>
      rw [Action.bind_error _ hm, Action.bind_error _ hcall]
      refine ⟨m, rfl, hhost, ?_⟩
      rw [htypes, CallKind.logged, hkind, if_neg Bool.false_ne_true, List.nil_append]

end Noted

namespace Driver

variable {viewport : Viewport}

theorem captureSnapshot_logs (driver : Driver σ) :
    Noted.Logs .captureSnapshot driver.noted.captureSnapshot driver.worded.captureSnapshot :=
  Noted.answered_logs rfl (fun _ => rfl) _

theorem readFrameCount_logs (driver : Driver σ) :
    Noted.Logs .readFrameCount driver.noted.readFrameCount driver.worded.readFrameCount :=
  Noted.answered_logs rfl (fun _ => rfl) _

/-- Of each step whose call has a text is logged what is logged of its call. -/
theorem performStep_noted (driver : Driver σ) {step : Step} {call : HostCall}
    (hcall : HostCall.ofStep viewport step = .ok call) (htold : call.IsTold) (n : Noted σ) :
    ∃ shot m, driver.noted.performStep viewport step n =
        ((driver.worded.obey call n.host).1.map fun _ => shot, m) ∧
      m.host = (driver.worded.obey call n.host).2 ∧
      m.types = n.types ++ step.kind.logged (driver.worded.obey call n.host).1 := by
  cases step with
  | run frames =>
    obtain rfl := Except.ok.inj hcall
    obtain ⟨t, ht⟩ := htold
    have hlogs : Noted.Logs .runFrames (driver.noted.runFrames (.int frames))
        (driver.worded.runFrames (.int frames)) := Noted.announced_logs rfl rfl ht _
    obtain ⟨m, hm, hfacts⟩ := hlogs n
    refine ⟨none, m, ?_, hfacts⟩
    rw [performStep, Action.bind_apply, hm, obey]
    cases (driver.worded.runFrames (.int frames) n.host).1 <;> rfl
  | input pointer =>
    obtain ⟨event, he, rfl⟩ := map_eq_ok_iff.mp hcall
    obtain ⟨t, ht⟩ := htold
    have hlogs : Noted.Logs .applyInput (driver.noted.applyInput event)
        (driver.worded.applyInput event) := Noted.announced_logs rfl rfl ht _
    obtain ⟨m, hm, hfacts⟩ := hlogs n
    refine ⟨none, m, ?_, hfacts⟩
    simp only [performStep, he]
    rw [Action.bind_apply, hm, obey]
    cases (driver.worded.applyInput event n.host).1 <;> rfl
  | snap label =>
    obtain rfl := Except.ok.inj hcall
    obtain ⟨m, hm, hhost, htypes⟩ := captureSnapshot_logs driver n
    rw [performStep, Action.bind_apply, hm, obey, Action.bind_apply]
    cases hr : driver.worded.captureSnapshot n.host with
    | mk r t =>
      rw [hr] at hhost htypes
      cases r with
      | ok snapshot =>
        exact ⟨some ⟨label, snapshot.frame, snapshot.image⟩, m, rfl, hhost, htypes⟩
      | error e => exact ⟨none, m, rfl, hhost, htypes⟩

theorem noted_lists (driver : Driver σ) (viewport : Viewport) :
    driver.noted.Lists viewport Noted.host Noted.types HostCall.typeName driver.worded where
  performStep {step call n} hcall hok := by
    obtain ⟨shot, m, hstep, hhost, htypes⟩ :=
      performStep_noted driver hcall (isTold_of_obey hok) n
    rw [hok] at hstep htypes
    refine ⟨shot, m, hstep, hhost, ?_⟩
    rw [htypes, HostCall.typeName_of_ofStep hcall]
    rfl

end Driver

/-- The kind of the call at a place of a script: after the steps comes the frame count. -/
def Script.kindAt (script : Script) (i : Nat) : CallKind :=
  script.steps[i]?.elim .readFrameCount Step.kind

theorem Script.kindAt_of_drop {script : Script} {i : Nat} {step : Step} {rest : List Step}
    (h : script.steps.drop i = step :: rest) : script.kindAt i = step.kind := by
  have hstep : script.steps[i]? = some step := by
    rw [← List.head?_drop, h, List.head?_cons]
  rw [kindAt, hstep, Option.elim_some]

theorem Script.kindAt_length (script : Script) : script.kindAt script.length = .readFrameCount := by
  have hnone : script.steps[script.length]? = none := List.getElem?_eq_none le_rfl
  rw [kindAt, hnone, Option.elim_none]

theorem Script.kind?_of_getElem?_calls {viewport : Viewport} {script : Script}
    {calls : List HostCall} {call : HostCall} {i : Nat} (hcalls : script.calls viewport = .ok calls)
    (hcall : calls[i]? = some call) : call.kind? = some (script.kindAt i) := by
  have hlen := Script.length_calls hcalls
  have hi : i < calls.length := (List.getElem?_eq_some_iff.mp hcall).1
  by_cases hstep : i < script.length
  · obtain ⟨step, hof, hdrop⟩ := Script.drop_steps_of_getElem?_calls hcalls hstep hcall
    rw [kindAt_of_drop hdrop, HostCall.kind?_of_ofStep hof]
  · obtain rfl : i = script.length := by omega
    obtain rfl : HostCall.readFrameCount = call :=
      Option.some.inj ((Script.getElem?_calls_length hcalls).symm.trans hcall)
    rw [kindAt_length]
    rfl

/-- An answer without a text is one to a call that is logged once it was answered. -/
theorem Driver.UntoldAt.isAnnounced {driver : Driver σ} {viewport : Viewport} {script : Script}
    {calls : List HostCall} {s : σ} {i : Nat} (h : driver.UntoldAt calls s i)
    (htold : ∀ call ∈ calls, call.IsTold) (hcalls : script.calls viewport = .ok calls) :
    (script.kindAt i).isAnnounced = false := by
  obtain ⟨call, t, hcall, -, hok, hfailed⟩ := h
  have hkind := Script.kind?_of_getElem?_calls hcalls hcall
  have hsaid := htold call (List.mem_of_getElem? hcall)
  cases call with
  | runFrames count =>
    rw [worded_runFrames driver hsaid, hok] at hfailed
    cases hfailed
  | applyInput event =>
    rw [worded_applyInput driver hsaid, hok] at hfailed
    cases hfailed
  | captureSnapshot =>
    rw [← Option.some.inj hkind]
    rfl
  | readFrameCount =>
    rw [← Option.some.inj hkind]
    rfl
  | opened => cases hkind
  | closed => cases hkind

namespace Driver

variable {driver : Driver σ} {clock : Nat → Number} {budget : Budget} {most : Number}
  {viewport : Viewport} {script : Script} {calls : List HostCall} {i : Nat} {e : Failure} {s t : σ}
  (hcalls : script.calls viewport = .ok calls) (hm : budget.seconds.mul (.int 1000) = .ok most)
include hcalls hm

/-- A replay that runs out of time ahead of a step logs the steps before it. -/
theorem execute_noted_late (hi : i ≤ script.length)
    (hjudge : ∀ k < i, (⟨clock 0, budget, most⟩ : Timing).judge k (clock (k + 1)) = .ok ())
    (hserve : driver.worded.serve (calls.take i) s = (.ok (), t))
    (hlate : (⟨clock 0, budget, most⟩ : Timing).judge i (clock (i + 1)) = .error e) :
    (driver.noted.execute clock budget viewport script ⟨s, []⟩).2.types =
      (script.steps.take i).map fun step => step.kind.name := by
  obtain ⟨shots, v, hrun, -, htypes⟩ := replay_of_listed (u := ⟨s, []⟩)
    (noted_lists driver viewport) hcalls hm hi hjudge hserve
  rw [execute, hrun, Action.bind_apply, Action.map_apply, performSteps_of_error hlate]
  rw [Script.map_typeName_take hcalls hi] at htypes
  exact htypes

/-- A replay that comes to the last call logs all steps, and of that call what is logged of it. -/
theorem execute_noted_read
    (hjudge : ∀ k ≤ script.length,
      (⟨clock 0, budget, most⟩ : Timing).judge k (clock (k + 1)) = .ok ())
    (hserve : driver.worded.serve (calls.take script.length) s = (.ok (), t)) :
    (driver.noted.execute clock budget viewport script ⟨s, []⟩).2.types =
      (script.steps.map fun step => step.kind.name) ++
        CallKind.readFrameCount.logged (driver.worded.obey .readFrameCount t).1 := by
  obtain ⟨shots, v, hrun, rfl, htypes⟩ := replay_of_listed (u := ⟨s, []⟩)
    (noted_lists driver viewport) hcalls hm le_rfl (fun k hk => hjudge k (Nat.le_of_lt hk)) hserve
  have hdrop : script.steps.drop script.length = [] := List.drop_length
  have htake : script.steps.take script.length = script.steps := List.take_length
  rw [Script.map_typeName_take hcalls le_rfl, htake] at htypes
  obtain ⟨m, hread, -, hm⟩ := readFrameCount_logs driver v
  have hobey : (driver.worded.obey .readFrameCount v.host).1 =
      (driver.worded.readFrameCount v.host).1.map fun _ => () := by
    rw [obey, Action.bind_apply]
    rcases driver.worded.readFrameCount v.host with ⟨_ | _, _⟩ <;> rfl
  have hfinal : (driver.noted.execute clock budget viewport script ⟨s, []⟩).2 = m := by
    have hlast : Timed.onHost driver.noted.readFrameCount ⟨v, clock, script.length + 2⟩ =
        ((driver.worded.readFrameCount v.host).1, ⟨m, clock, script.length + 2⟩) := by
      rw [Timed.onHost_apply, hread]
    rw [execute, hrun, Action.bind_apply, Action.map_apply, hdrop,
      performSteps_nil_of_ok (hjudge script.length le_rfl)]
    show ((Timed.onHost _ >>= _) _).2.host = _
    rw [Action.bind_apply, hlast]
    cases (driver.worded.readFrameCount v.host).1 <;> rfl
  rw [hfinal, hm, htypes, hobey, CallKind.logged_map]
  rfl

/-- A replay that fails at a call logs the steps before it, and of the call what is logged when it
fails. -/
theorem execute_noted_failed (htold : ∀ call ∈ calls, call.IsTold)
    (hfault : driver.worded.FaultAt calls s i e)
    (hjudge : ∀ k ≤ i, (⟨clock 0, budget, most⟩ : Timing).judge k (clock (k + 1)) = .ok ()) :
    (driver.noted.execute clock budget viewport script ⟨s, []⟩).2.types =
      ((script.steps.take i).map fun step => step.kind.name) ++
        (script.kindAt i).logged (.error e : Except Failure Unit) := by
  obtain ⟨call, t, hcall, ht, he⟩ := hfault
  have hlen := Script.length_calls hcalls
  have hi : i ≤ script.length := by
    have := (List.getElem?_eq_some_iff.mp hcall).1
    omega
  by_cases hstep : i < script.length
  · obtain ⟨shots, v, hrun, rfl, htypes⟩ := replay_of_listed (u := ⟨s, []⟩)
      (noted_lists driver viewport) hcalls hm hi (fun k hk => hjudge k (Nat.le_of_lt hk)) ht
    rw [Script.map_typeName_take hcalls hi] at htypes
    obtain ⟨step, hof, hdrop⟩ := Script.drop_steps_of_getElem?_calls hcalls hstep hcall
    obtain ⟨shot, m, hperform, -, hm⟩ :=
      performStep_noted driver hof (htold call (List.mem_of_getElem? hcall)) v
    rw [he] at hperform hm
    rw [execute, hrun, Action.bind_apply, Action.map_apply, hdrop,
      performSteps_cons_of_error (hjudge i le_rfl) hperform, Script.kindAt_of_drop hdrop]
    rw [htypes] at hm
    exact hm
  · obtain rfl : i = script.length := by omega
    have htake : script.steps.take script.length = script.steps := List.take_length
    obtain rfl : HostCall.readFrameCount = call :=
      Option.some.inj ((Script.getElem?_calls_length hcalls).symm.trans hcall)
    rw [execute_noted_read hcalls hm hjudge ht, he, Script.kindAt_length, htake]

/-- A replay that comes to its end logs all steps and the frame count. -/
theorem execute_noted_complete
    (hjudge : ∀ k ≤ script.length,
      (⟨clock 0, budget, most⟩ : Timing).judge k (clock (k + 1)) = .ok ())
    (hserve : driver.worded.serve calls s = (.ok (), t)) :
    (driver.noted.execute clock budget viewport script ⟨s, []⟩).2.types =
      (script.steps.map fun step => step.kind.name) ++ [CallKind.readFrameCount.name] := by
  have hsplit : calls = calls.take script.length ++ [.readFrameCount] := by
    obtain ⟨l, hl, rfl⟩ := Script.calls_eq_ok_iff.mp hcalls
    have htake : (l ++ [HostCall.readFrameCount]).take script.length = l :=
      List.take_left' hl.length_eq.symm
    rw [htake]
  rw [hsplit] at hserve
  obtain ⟨u, hsteps, hlast⟩ := exists_serve_of_append hserve
  obtain ⟨_, v, hobey, -⟩ := Action.bind_eq_ok_iff.mp hlast
  rw [execute_noted_read hcalls hm hjudge hsteps, hobey]
  rfl

end Driver

end Replay
