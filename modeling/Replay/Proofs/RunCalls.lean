import Replay.Proofs.CallLog
import Replay.Proofs.ScriptGrammar
import Replay.Run

namespace Replay

variable {σ : Type}

/-- The frames that a call asks for. -/
def HostCall.frames : HostCall → Int
  | runFrames (.int n) => n
  | _ => 0

/-- A driver is only asked for whole numbers of frames, and for at least one. -/
def HostCall.IsProper (call : HostCall) : Prop :=
  ∀ count, call = runFrames count → ∃ n : Int, count = .int n ∧ 1 ≤ n

theorem Number.exists_mul {x y : Number} {a b : Double} (hx : x.toDouble = .ok a)
    (hy : y.toDouble = .ok b) : ∃ z, x.mul y = .ok z := by
  have hreal : ∃ z, (do
      let a ← x.toDouble
      let b ← y.toDouble
      pure (real (a.mul b)) : Except NumberError Number) = .ok z := ⟨_, by rw [hx, hy]; rfl⟩
  cases x with
  | int m =>
    cases y with
    | int n => exact ⟨.int (m * n), rfl⟩
    | real y => exact hreal
  | real x => cases y <;> exact hreal

/-- A number times an integer that is a double. -/
theorem Number.exists_mul_int (x : Number) {n : Int}
    (hn : (Number.int n).toDouble.toBool = true) : ∃ y, x.mul (.int n) = .ok y := by
  cases x with
  | int m => exact ⟨.int (m * n), rfl⟩
  | real x =>
    cases hd : (Number.int n).toDouble with
    | ok d => exact exists_mul rfl hd
    | error e =>
      rw [hd] at hn
      cases hn

theorem Event.exists_ofStep (step : PointerStep) : ∃ event, ofStep .standard step = .ok event := by
  have hwidth : (Number.int 360).toDouble.toBool = true := by decide +kernel
  have hheight : (Number.int 640).toDouble.toBool = true := by decide +kernel
  obtain ⟨x, hx⟩ := step.x.exists_mul_int hwidth
  obtain ⟨y, hy⟩ := step.y.exists_mul_int hheight
  rw [ofStep]
  cases hs : step.space with
  | pixels => exact ⟨_, rfl⟩
  | norm01 =>
    have hposition : clientPosition .standard .norm01 step.x step.y = .ok ⟨x, y⟩ := by
      simp [clientPosition, Viewport.standard, hx, hy, bind, Except.bind, pure, Except.pure]
    rw [hposition]
    exact ⟨_, rfl⟩

/-- On the standard screen every script has its calls. -/
theorem Script.exists_calls (script : Script) : ∃ calls, script.calls .standard = .ok calls := by
  have hstep (step : Step) : ∃ call, HostCall.ofStep .standard step = .ok call := by
    cases step with
    | run frames => exact ⟨_, rfl⟩
    | snap label => exact ⟨_, rfl⟩
    | input step =>
      obtain ⟨event, he⟩ := Event.exists_ofStep step
      exact ⟨.applyInput event, by rw [HostCall.ofStep, he]; rfl⟩
  obtain ⟨calls, hcalls⟩ := ScriptGrammar.exists_forall₂_of_forall fun step _ => hstep step
  exact ⟨_, Script.calls_eq_ok_iff.mpr ⟨calls, hcalls, rfl⟩⟩

/-- What a script may ask for by the standard limits. -/
structure Script.IsBounded (script : Script) : Prop where
  positive : ∀ frames, .run frames ∈ script.steps → 1 ≤ frames
  frames : (script.steps.map Step.frames).sum ≤ 120
  snaps : script.steps.countP Step.isSnap ≤ 1
  length : script.length ≤ 64

theorem Script.isBounded_of_read {input : Json} {script : Script}
    (h : read .standard .standard input = .ok script) : script.IsBounded := by
  obtain ⟨members, values, -, -, -, -, hmax, hforms, hall⟩ := read_eq_ok_iff.mp h
  obtain ⟨hframes, hsnaps⟩ :=
    (ScriptGrammar.allowsAll_iff (by decide) (by decide) hmax hforms).mp hall
  obtain ⟨hf, hs⟩ := ScriptGrammar.totals_eq hforms
  refine ⟨fun frames hmem => ?_, hf ▸ hframes, Int.ofNat_le.mp (hs ▸ hsnaps), ?_⟩
  · obtain ⟨value, -, hform⟩ := exists_of_mem_right hforms hmem
    cases hform with
    | run _ _ _ _ hpos => exact hpos
  · rw [length, ← hforms.length_eq]
    exact hmax

/-- What a driver may receive: frames in whole numbers from one on, at most 120 in all, at most one
call for a snapshot, at most 64 calls but for that for the frame count, and after that one none. -/
structure HostCall.AreBounded (calls : List HostCall) : Prop where
  proper : ∀ call ∈ calls, call.IsProper
  frames : (calls.map HostCall.frames).sum ≤ 120
  snapshots : calls.count .captureSnapshot ≤ 1
  steps : calls.countP (· ≠ .readFrameCount) ≤ 64
  last : HostCall.readFrameCount ∉ calls.dropLast

namespace HostCall

theorem areBounded_nil : AreBounded [] := by constructor <;> simp

/-- A call asks for what its step does. -/
theorem of_ofStep {viewport : Viewport} {step : Step} {call : HostCall}
    (h : ofStep viewport step = .ok call) :
    call.frames = step.frames ∧ (call = .captureSnapshot ↔ step.isSnap = true) ∧
      call ≠ .readFrameCount ∧ ∀ count, call = .runFrames count → ∃ n, count = .int n ∧
        step = .run n := by
  cases step with
  | run n =>
    obtain rfl := Except.ok.inj h
    simp [HostCall.frames, Step.frames, Step.isSnap]
  | snap label =>
    obtain rfl := Except.ok.inj h
    simp [HostCall.frames, Step.frames, Step.isSnap]
  | input step =>
    cases he : Event.ofStep viewport step with
    | error e => simp [ofStep, he, Except.map] at h
    | ok event =>
      obtain rfl : HostCall.applyInput event = call := by simpa [ofStep, he, Except.map] using h
      simp [HostCall.frames, Step.frames, Step.isSnap]

/-- The calls of steps ask on the whole for what the steps do. -/
theorem sums_of_ofStep {viewport : Viewport} {steps : List Step} {calls : List HostCall}
    (h : List.Forall₂ (fun step call => ofStep viewport step = .ok call) steps calls) :
    (calls.map HostCall.frames).sum = (steps.map Step.frames).sum ∧
      calls.count .captureSnapshot = steps.countP Step.isSnap := by
  induction h with
  | nil => exact ⟨rfl, rfl⟩
  | @cons step call steps calls hcall hcalls ih =>
    obtain ⟨hframes, hsnap, -, -⟩ := of_ofStep hcall
    refine ⟨by rw [List.map_cons, List.map_cons, List.sum_cons, List.sum_cons, hframes, ih.1], ?_⟩
    rw [List.count_cons, List.countP_cons, ih.2]
    congr 1
    by_cases hs : step.isSnap = true
    · simp [hs, hsnap.mpr hs]
    · simp [hs, mt hsnap.mp hs]

theorem frames_nonneg {call : HostCall} (h : call.IsProper) : 0 ≤ call.frames := by
  cases call with
  | runFrames count =>
    obtain ⟨n, rfl, hn⟩ := h count rfl
    exact Int.le_trans (by decide) hn
  | _ => exact le_rfl

/-- Any first ones of the calls of a bounded script are bounded. -/
theorem areBounded_of_prefix {script : Script} {calls made : List HostCall}
    (h : script.IsBounded) (hcalls : script.calls .standard = .ok calls) (hmade : made <+: calls) :
    AreBounded made := by
  obtain ⟨l, hl, rfl⟩ := Script.calls_eq_ok_iff.mp hcalls
  obtain ⟨hsum, hcount⟩ := sums_of_ofStep hl
  have hof : ∀ call ∈ l, call.IsProper ∧ call ≠ .readFrameCount := by
    intro call hmem
    obtain ⟨step, hstep, hcall⟩ := exists_of_mem_right hl hmem
    obtain ⟨-, -, hne, hrun⟩ := of_ofStep hcall
    refine ⟨fun count hc => ?_, hne⟩
    obtain ⟨n, rfl, rfl⟩ := hrun count hc
    exact ⟨n, rfl, h.positive n hstep⟩
  have hproper : ∀ call ∈ l ++ [.readFrameCount], call.IsProper := by
    intro call hmem
    rcases List.mem_append.mp hmem with hmem | hmem
    · exact (hof call hmem).1
    · obtain rfl := List.mem_singleton.mp hmem
      intro count hc
      cases hc
  have hpos : ∀ n ∈ (l ++ [HostCall.readFrameCount]).map HostCall.frames, 0 ≤ n := by
    intro n hn
    obtain ⟨call, hmem, rfl⟩ := List.mem_map.mp hn
    exact frames_nonneg (hproper call hmem)
  have hsub := hmade.sublist
  have hdrop : made.dropLast <+: l := by
    rcases List.prefix_concat_iff.mp hmade with rfl | hmade
    · rw [List.dropLast_concat]
    · exact made.dropLast_prefix.trans hmade
  refine ⟨fun call hmem => hproper call (hsub.subset hmem), ?_, ?_, ?_, ?_⟩
  · calc (made.map HostCall.frames).sum
        ≤ ((l ++ [HostCall.readFrameCount]).map HostCall.frames).sum :=
          (hsub.map HostCall.frames).sum_le_sum hpos
      _ = (script.steps.map Step.frames).sum := by simp [HostCall.frames, hsum]
      _ ≤ 120 := h.frames
  · calc made.count HostCall.captureSnapshot
        ≤ (l ++ [HostCall.readFrameCount]).count HostCall.captureSnapshot := hsub.count_le _
      _ = script.steps.countP Step.isSnap := by simp [hcount]
      _ ≤ 1 := h.snaps
  · calc made.countP (· ≠ HostCall.readFrameCount)
        ≤ (l ++ [HostCall.readFrameCount]).countP (· ≠ HostCall.readFrameCount) := hsub.countP_le
      _ ≤ l.length := by simpa using List.countP_le_length
      _ = script.length := hl.length_eq.symm
      _ ≤ 64 := h.length
  · intro hmem
    exact (hof _ (hdrop.subset hmem)).2 rfl

end HostCall

/-- The host with the calls of its driver noted; entering and leaving are none of them. -/
def Host.recorded (host : Host σ) : Host (Recorded σ) where
  enter settings files :=
    Action.lift Recorded.host (fun host r => { r with host }) (host.enter settings files)
  driver := host.driver.recorded
  leave failure := Action.lift Recorded.host (fun host r => { r with host }) (host.leave failure)

theorem Host.recorded_follows (host : Host σ) : host.recorded.Follows Recorded.host host where
  enter _ _ := fun _ => ⟨rfl, rfl⟩
  driver := host.driver.recorded_follows
  leave _ := fun _ => ⟨rfl, rfl⟩

namespace Run

variable {τ : Type} {part : τ → σ}

/-- A run on a host that does what another one does is a run on that one. -/
theorem perform_follows {larger : Host τ} {host : Host σ} (h : larger.Follows part host)
    (plan : RunPlan) (input : Json) :
    Action.Follows (Session.mapHost part) (perform larger plan input)
      (perform host plan input) := by
  have hreplay (script : Script) (directory : Path) :
      Action.Follows (Session.mapHost part) (replay larger plan script directory)
        (replay host plan script directory) := by
    refine (Session.onMachine_follows _).bind fun _ => ?_
    refine (EventLog.record_follows _ _ _).bind fun _ => ?_
    refine Action.Follows.bind (fun _ => ⟨rfl, rfl⟩) fun files => ?_
    refine (Host.visit_follows h _ _ ?_).bind fun execution => ?_
    · exact Driver.execute_follows (EventLog.logged_follows _ h.driver) _ _ _ _
    · exact (Session.onMachine_follows _).bind fun artifacts => .pure _
  have hprogress : Action.Follows (Session.mapHost part) (progress larger plan input)
      (progress host plan input) := by
    rw [progress, progress]
    cases Script.read .standard .standard input with
    | error e => exact .pure _
    | ok script =>
      refine (Session.onMachine_follows _).attempt.bind fun r => ?_
      cases r with
      | error e => exact .pure _
      | ok directory => exact (hreplay script directory).attempt.bind fun _ => .pure _
  refine (Session.onMachine_follows _).bind fun started => ?_
  refine Action.Follows.bind ?_ fun r => Session.onMachine_follows _
  refine Action.Follows.bind (fun _ => ⟨rfl, rfl⟩) fun _ => hprogress.bind fun p => ?_
  exact Action.Follows.bind (fun _ => ⟨rfl, rfl⟩) fun _ => .pure _

/-- The session of a run whose calls are noted, none of them as yet. -/
def watched (s : Session σ) : Session (Recorded σ) := ⟨⟨s.host, []⟩, s.machine, s.counts⟩

variable (host : Host σ) (plan : RunPlan) {input : Json}

theorem perform_starts {calls : List HostCall}
    (h : Action.Starts (fun s : Session (Recorded σ) => s.host.calls) calls
      (progress host.recorded plan input)) :
    Action.Starts (fun s : Session (Recorded σ) => s.host.calls) calls
      (perform host.recorded plan input) := by
  refine Action.Quiet.bind_starts (fun _ => rfl) fun started => ?_
  refine Action.Starts.bind_quiet ?_ fun r => fun _ => rfl
  refine Action.Quiet.bind_starts (fun _ => rfl) fun _ => h.bind_quiet fun p => ?_
  exact Action.Quiet.bind (fun _ => rfl) fun _ => .pure _

/-- A replay that does not fail makes all calls of its script. -/
theorem replay_makes {script : Script} {calls : List HostCall}
    (hcalls : script.calls .standard = .ok calls) (directory : Path) :
    Action.Makes (fun s : Session (Recorded σ) => s.host.calls) calls
      (replay host.recorded plan script directory) := by
  refine Action.Quiet.bind_makes (fun _ => rfl) fun _ => ?_
  refine (EventLog.record_quiet _ _ _).bind_makes fun _ => ?_
  refine (Action.Quiet.read _).bind_makes fun files => ?_
  refine (Host.visit_makes (fun _ _ _ => rfl) (fun _ _ => rfl) _ _ ?_).bind_quiet fun _ => ?_
  · exact Driver.execute_makes (EventLog.logged_notes _ (Driver.recorded_notes _)) hcalls _ _
  · exact Action.Quiet.bind (fun _ => rfl) fun _ => .pure _

theorem progress_starts {script : Script} {calls : List HostCall}
    (hread : Script.read .standard .standard input = .ok script)
    (hcalls : script.calls .standard = .ok calls) :
    Action.Starts (fun s : Session (Recorded σ) => s.host.calls) calls
      (progress host.recorded plan input) := by
  rw [progress, hread]
  refine Action.Quiet.bind_starts (fun _ => rfl) fun r => ?_
  cases r with
  | error e => exact (Action.Quiet.pure _).starts
  | ok directory =>
    exact (replay_makes host plan hcalls directory).starts.attempt.bind_quiet fun _ => .pure _

/-- In every run, however it ends, the driver of the host receives calls within the bounds of
scripts, and none for a value that is no script. -/
theorem perform_calls (host : Host σ) (plan : RunPlan) (input : Json) (s : Session σ) :
    let noted := perform host.recorded plan input (watched s)
    let calls := noted.2.host.calls
    noted.1 = (perform host plan input s).1 ∧
      Session.mapHost Recorded.host noted.2 = (perform host plan input s).2 ∧
      HostCall.AreBounded calls ∧
      ∀ e, Script.read .standard .standard input = .error e → calls = [] := by
  intro noted calls
  obtain ⟨hresult, hstate⟩ := perform_follows host.recorded_follows plan input (watched s)
  refine ⟨hresult, hstate, ?_⟩
  cases hread : Script.read .standard .standard input with
  | error e =>
    have hquiet : Action.Starts (fun s : Session (Recorded σ) => s.host.calls) []
        (progress host.recorded plan input) := by
      rw [progress, hread]
      exact (Action.Quiet.pure _).starts
    obtain ⟨made, hmade, hlog⟩ := perform_starts host plan hquiet (watched s)
    obtain rfl := List.prefix_nil.mp hmade
    have hnone : calls = [] := hlog
    exact ⟨hnone ▸ HostCall.areBounded_nil, fun _ _ => hnone⟩
  | ok script =>
    obtain ⟨all, hall⟩ := script.exists_calls
    obtain ⟨made, hmade, hlog⟩ :=
      perform_starts host plan (progress_starts host plan hread hall) (watched s)
    have heq : calls = made := hlog
    refine ⟨heq ▸ HostCall.areBounded_of_prefix (Script.isBounded_of_read hread) hall hmade, ?_⟩
    intro e he
    cases he

end Run

end Replay
