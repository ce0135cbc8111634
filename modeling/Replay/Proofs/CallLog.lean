import Replay.Proofs.HostCalls

namespace Replay

variable {σ τ α β : Type} {log : τ → List HostCall} {calls xs ys : List HostCall}

namespace Action

/-- The action notes no call. -/
def Quiet (log : τ → List HostCall) (a : Action τ α) : Prop := ∀ t, log (a t).2 = log t

/-- The action notes first ones of the calls, and if it does not fail, all of them. -/
def Makes (log : τ → List HostCall) (calls : List HostCall) (a : Action τ α) : Prop :=
  ∀ t, ∃ made, made <+: calls ∧ log (a t).2 = log t ++ made ∧ ∀ x, (a t).1 = .ok x → made = calls

/-- The action notes first ones of the calls, whether it fails or not. -/
def Starts (log : τ → List HostCall) (calls : List HostCall) (a : Action τ α) : Prop :=
  ∀ t, ∃ made, made <+: calls ∧ log (a t).2 = log t ++ made

namespace Quiet

theorem pure (x : α) : Quiet log (Pure.pure x) := fun _ => rfl

theorem fail (e : Failure) : Quiet log (Action.fail e : Action τ α) := fun _ => rfl

theorem ofExcept (r : Except Failure α) : Quiet log (Action.ofExcept r) := fun _ => rfl

theorem read (f : τ → α) : Quiet log (Action.read f) := fun _ => rfl

theorem makes {a : Action τ α} (h : Quiet log a) : Makes log [] a :=
  fun t => ⟨[], List.prefix_refl [], by rw [h t, List.append_nil], fun _ _ => rfl⟩

end Quiet

namespace Makes

variable {a : Action τ α} {f : α → Action τ β}

theorem bind (h : Makes log xs a) (hf : ∀ x, Makes log ys (f x)) :
    Makes log (xs ++ ys) (a >>= f) := by
  intro t
  obtain ⟨made, hmade, hlog, hall⟩ := h t
  rw [Action.bind_apply]
  cases ha : a t with
  | mk r u =>
    rw [ha] at hlog hall
    cases r with
    | ok x =>
      obtain rfl := hall x rfl
      obtain ⟨others, hothers, hlogs, halls⟩ := hf x u
      refine ⟨made ++ others, (List.prefix_append_right_inj made).mpr hothers, ?_, ?_⟩
      · rw [hlogs, hlog, List.append_assoc]
      · intro y hy
        rw [halls y hy]
    | error e =>
      refine ⟨made, hmade.trans (List.prefix_append xs ys), hlog, ?_⟩
      intro y hy
      cases hy

theorem bind_quiet (h : Makes log calls a) (hf : ∀ x, Quiet log (f x)) :
    Makes log calls (a >>= f) :=
  List.append_nil calls ▸ h.bind fun x => (hf x).makes

/-- If a failure of the calls is not got over, all calls are noted unless there is one. -/
theorem attempt_bind {f : Except Failure α → Action τ β} (h : Makes log calls a)
    (hf : ∀ r, Quiet log (f r)) (hfail : ∀ e, Yields (f (.error e)) fun _ => False) :
    Makes log calls (attempt a >>= f) := by
  intro t
  obtain ⟨made, hmade, hlog, hall⟩ := h t
  rw [Action.bind_apply, Action.attempt_apply]
  refine ⟨made, hmade, (hf _ _).trans hlog, ?_⟩
  intro y hy
  cases hr : (a t).1 with
  | ok x => exact hall x hr
  | error e =>
    rw [hr] at hy
    exact (hfail e (Prod.ext hy rfl)).elim

end Makes

variable {a : Action τ α} {f : α → Action τ β}

theorem Makes.starts (h : Makes log calls a) : Starts log calls a := by
  intro t
  obtain ⟨made, hmade, hlog, -⟩ := h t
  exact ⟨made, hmade, hlog⟩

theorem Starts.attempt (h : Starts log calls a) : Starts log calls (Action.attempt a) := h

theorem Starts.bind_quiet (h : Starts log calls a) (hf : ∀ x, Quiet log (f x)) :
    Starts log calls (a >>= f) := by
  intro t
  obtain ⟨made, hmade, hlog⟩ := h t
  refine ⟨made, hmade, ?_⟩
  rw [Action.bind_apply]
  cases ha : a t with
  | mk r u =>
    rw [ha] at hlog
    cases r with
    | ok x => rw [hf x u, hlog]
    | error e => exact hlog

namespace Quiet

theorem bind_makes (h : Quiet log a) (hf : ∀ x, Makes log calls (f x)) :
    Makes log calls (a >>= f) := h.makes.bind hf

theorem bind_starts (h : Quiet log a) (hf : ∀ x, Starts log calls (f x)) :
    Starts log calls (a >>= f) := by
  intro t
  have hlog := h t
  rw [Action.bind_apply]
  cases ha : a t with
  | mk r u =>
    rw [ha] at hlog
    cases r with
    | ok x =>
      obtain ⟨made, hmade, hmore⟩ := hf x u
      exact ⟨made, hmade, by rw [hmore, hlog]⟩
    | error e => exact ⟨[], List.nil_prefix, by rw [hlog, List.append_nil]⟩

theorem starts (h : Quiet log a) : Starts log calls a :=
  fun t => ⟨[], List.nil_prefix, by rw [h t, List.append_nil]⟩

theorem bind (h : Quiet log a) (hf : ∀ x, Quiet log (f x)) : Quiet log (a >>= f) := by
  intro t
  obtain ⟨made, hmade, hlog, -⟩ := h.makes.bind (fun x => (hf x).makes) t
  rw [hlog, List.prefix_nil.mp hmade, List.append_nil]

end Quiet

end Action

namespace HostCall

/-- The calls of steps, up to the first step that has none. -/
def ofSteps (viewport : Viewport) : List Step → List HostCall
  | [] => []
  | step :: rest =>
    match ofStep viewport step with
    | .ok call => call :: ofSteps viewport rest
    | .error _ => []

theorem ofSteps_eq {viewport : Viewport} {steps : List Step}
    (h : List.Forall₂ (fun step call => ofStep viewport step = .ok call) steps calls) :
    ofSteps viewport steps = calls := by
  induction h with
  | nil => rfl
  | cons hcall _ ih => rw [ofSteps, hcall, ih]

end HostCall

namespace Driver

/-- Each call of the driver is noted. -/
structure Notes (log : τ → List HostCall) (driver : Driver τ) : Prop where
  runFrames : ∀ count, Action.Makes log [.runFrames count] (driver.runFrames count)
  applyInput : ∀ event, Action.Makes log [.applyInput event] (driver.applyInput event)
  captureSnapshot : Action.Makes log [.captureSnapshot] driver.captureSnapshot
  readFrameCount : Action.Makes log [.readFrameCount] driver.readFrameCount

theorem recorded_notes (driver : Driver σ) : driver.recorded.Notes Recorded.calls where
  runFrames count := fun _ => ⟨[.runFrames count], List.prefix_refl _, rfl, fun _ _ => rfl⟩
  applyInput event := fun _ => ⟨[.applyInput event], List.prefix_refl _, rfl, fun _ _ => rfl⟩
  captureSnapshot := fun _ => ⟨[.captureSnapshot], List.prefix_refl _, rfl, fun _ _ => rfl⟩
  readFrameCount := fun _ => ⟨[.readFrameCount], List.prefix_refl _, rfl, fun _ _ => rfl⟩

variable {driver : Driver τ} {viewport : Viewport} {timing : Timing} {i : Nat}

theorem performStep_makes (h : driver.Notes log) {step : Step} {call : HostCall}
    (hcall : HostCall.ofStep viewport step = .ok call) :
    Action.Makes log [call] (driver.performStep viewport step) := by
  cases step with
  | run frames =>
    obtain rfl := Except.ok.inj hcall
    exact (h.runFrames _).bind_quiet fun _ => .pure _
  | input step =>
    cases he : Event.ofStep viewport step with
    | error e => simp [HostCall.ofStep, he, Except.map] at hcall
    | ok event =>
      obtain rfl : HostCall.applyInput event = call := by
        simpa [HostCall.ofStep, he, Except.map] using hcall
      simp only [performStep, he]
      exact (h.applyInput _).bind_quiet fun _ => .pure _
  | snap label =>
    obtain rfl := Except.ok.inj hcall
    exact h.captureSnapshot.bind_quiet fun _ => .pure _

/-- A step without a call fails before it comes to the driver. -/
theorem performStep_of_error {step : Step} {e : NumberError}
    (h : HostCall.ofStep viewport step = .error e) :
    driver.performStep viewport step = Action.fail (.number e) := by
  cases step with
  | run frames => cases h
  | snap label => cases h
  | input step =>
    rw [HostCall.ofStep] at h
    rw [performStep]
    cases he : Event.ofStep viewport step with
    | ok event =>
      rw [he] at h
      cases h
    | error e' =>
      rw [he] at h
      obtain rfl := Except.error.inj h
      rfl

theorem performSteps_makes (h : driver.Notes log) (steps : List Step) :
    Action.Makes (fun t : Timed τ => log t.host) (HostCall.ofSteps viewport steps)
      (driver.performSteps timing viewport i steps) := by
  have hcheck (k : Nat) : Action.Quiet (fun t : Timed τ => log t.host) (timing.check k) :=
    fun _ => rfl
  induction steps generalizing i with
  | nil => exact ((hcheck i).bind fun _ => .pure _).makes
  | cons step rest ih =>
    refine (hcheck i).bind_makes fun _ => ?_
    rw [HostCall.ofSteps]
    cases hcall : HostCall.ofStep viewport step with
    | ok call =>
      have hstep : Action.Makes (fun t : Timed τ => log t.host) [call]
          (Timed.onHost (driver.performStep viewport step)) :=
        fun t => performStep_makes h hcall t.host
      exact hstep.bind fun shot => ih.bind_quiet fun shots => .pure _
    | error e =>
      rw [performStep_of_error hcall]
      exact fun t => ⟨[], List.prefix_refl [], (List.append_nil _).symm, fun _ hx => by cases hx⟩

/-- A replay makes the calls of the steps and the one for the frame count, the first ones if it
fails. -/
theorem replay_makes (h : driver.Notes log) (budget : Budget) (viewport : Viewport)
    (script : Script) :
    Action.Makes (fun t : Timed τ => log t.host)
      (HostCall.ofSteps viewport script.steps ++ [.readFrameCount])
      (driver.replay budget viewport script) := by
  have hbegin : Action.Quiet (fun t : Timed τ => log t.host) (Timing.begin budget) :=
    (Action.Quiet.ofExcept _).bind fun _ => Action.Quiet.bind (fun _ => rfl) fun _ => .pure _
  have hlast : Action.Makes (fun t : Timed τ => log t.host) [.readFrameCount]
      (Timed.onHost driver.readFrameCount) := fun t => h.readFrameCount t.host
  refine hbegin.bind_makes fun timing => ?_
  refine (performSteps_makes h script.steps).bind fun captures => ?_
  exact hlast.bind_quiet fun _ => .pure _

/-- A script that has its calls is executed by making them, the first ones if that fails. -/
theorem execute_makes (h : driver.Notes log) {script : Script} {calls : List HostCall}
    (hcalls : script.calls viewport = .ok calls) (clock : Nat → Number) (budget : Budget) :
    Action.Makes log calls (driver.execute clock budget viewport script) := by
  obtain ⟨l, hl, rfl⟩ := Script.calls_eq_ok_iff.mp hcalls
  rw [← HostCall.ofSteps_eq hl]
  intro t
  exact replay_makes h budget viewport script ⟨t, .ofReadings clock⟩

end Driver

namespace EventLog

theorem record_quiet (path : Path) (type message : Text) :
    Action.Quiet (fun s : Session τ => log s.host) (record path type message) := by
  refine Action.Quiet.bind (fun _ => rfl) fun moment => ?_
  exact Action.Quiet.bind (fun _ => rfl) fun _ => fun _ => rfl

theorem add_quiet (path : Path) (e : LogEntry) :
    Action.Quiet (fun s : Session τ => log s.host) (add path e) :=
  (Action.Quiet.ofExcept _).bind fun _ => record_quiet _ _ _

theorem guarded_makes {call : Action τ α} (path : Path) (kind : CallKind)
    (h : Action.Makes log calls call) :
    Action.Makes (fun s : Session τ => log s.host) calls (guarded path kind call) := by
  have hcall : Action.Makes (fun s : Session τ => log s.host) calls (Session.onHost call) :=
    fun s => h s.host
  refine hcall.attempt_bind (fun r => ?_) fun e => ?_
  · split
    · exact .pure _
    · exact (add_quiet _ _).bind fun _ => .fail _
    · exact .fail _
  · split
    next h => cases h
    next => exact (Action.Yields.trivial _).bind fun _ _ => .fail _
    next => exact .fail _

/-- A driver whose calls are logged makes the same calls. -/
theorem logged_notes {driver : Driver τ} (path : Path) (h : driver.Notes log) :
    (logged path driver).Notes fun s : Session τ => log s.host where
  runFrames _ := (add_quiet _ _).bind_makes fun _ => guarded_makes _ _ (h.runFrames _)
  applyInput _ := (add_quiet _ _).bind_makes fun _ => guarded_makes _ _ (h.applyInput _)
  captureSnapshot := (guarded_makes _ _ h.captureSnapshot).bind_quiet fun _ =>
    (add_quiet _ _).bind fun _ => .pure _
  readFrameCount := (guarded_makes _ _ h.readFrameCount).bind_quiet fun _ =>
    (add_quiet _ _).bind fun _ => .pure _

end EventLog

namespace Host

/-- On a host whose entering and leaving note no call, a visit makes the calls of what is done. -/
theorem visit_makes {host : Host τ} (henter : ∀ settings files, Action.Quiet log
    (host.enter settings files)) (hleave : ∀ failure, Action.Quiet log (host.leave failure))
    (settings : Settings) (files : FileSystem) {body : Action (Session τ) α}
    (h : Action.Makes (fun s => log s.host) calls body) :
    Action.Makes (fun s => log s.host) calls
      (host.visit Session.onHost settings files body) := by
  have hon {a : Action τ Unit} (ha : Action.Quiet log a) :
      Action.Quiet (fun s : Session τ => log s.host) (Session.onHost a) := fun s => ha s.host
  refine (hon (henter _ _)).bind_makes fun _ => h.attempt_bind (fun r => ?_) fun e => ?_
  · cases r with
    | ok x => exact (hon (hleave _)).bind fun _ => .pure _
    | error e => exact (hon (hleave _)).bind fun _ => .fail _
  · exact (Action.Yields.trivial _).bind fun _ _ => .fail _

end Host

end Replay
