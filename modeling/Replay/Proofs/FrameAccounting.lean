import Replay.Proofs.ReplaySuccess
import Replay.Proofs.StepReading

namespace Replay

variable {σ : Type}

/-- What a script says of a snapshot. -/
structure Shot where
  label : Text
  frame : Int
deriving DecidableEq

def LabelledSnapshot.Shows (c : LabelledSnapshot) (shot : Shot) : Prop :=
  c.label = shot.label ∧ c.frame = .int shot.frame

namespace Step

/-- The shot of a step that is taken at frame `n`. -/
def shot? (n : Int) : Step → Option Shot
  | snap label => some ⟨label, n⟩
  | _ => none

/-- The shots of steps of which the first is taken at frame `n`. -/
def shots (n : Int) : List Step → List Shot
  | [] => []
  | first :: rest => (first.shot? n).toList ++ shots (n + first.frames) rest

variable {steps : List Step} {n : Int}

theorem length_shots : (shots n steps).length = steps.countP isSnap := by
  induction steps generalizing n with
  | nil => rfl
  | cons first rest ih =>
    rw [shots, List.length_append, ih, List.countP_cons]
    cases first with
    | run frames => simp [shot?, isSnap]
    | input step => simp [shot?, isSnap]
    | snap label => simp [shot?, isSnap, Nat.add_comm]

/-- The shot of a snapshot step stands behind those of the snapshot steps before it. -/
theorem getElem?_shots {i : Nat} {label : Text} (h : steps[i]? = some (snap label)) :
    (shots n steps)[(steps.take i).countP isSnap]? =
      some ⟨label, n + ((steps.take i).map frames).sum⟩ := by
  induction steps generalizing i n with
  | nil => simp at h
  | cons first rest ih =>
    cases i with
    | zero =>
      simp only [List.getElem?_cons_zero, Option.some.injEq] at h
      subst first
      simp [shots, shot?]
    | succ i =>
      simp only [List.getElem?_cons_succ] at h
      have hrest := ih (n := n + first.frames) h
      rw [List.take_succ_cons, List.map_cons, List.sum_cons, ← add_assoc, ← hrest, shots,
        List.countP_cons]
      cases first with
      | run frames => simp [shot?, isSnap]
      | input step => simp [shot?, isSnap]
      | snap other => simp [shot?, isSnap]

theorem bounds_of_mem_shots (hframes : ∀ step ∈ steps, 0 ≤ step.frames) :
    ∀ shot ∈ shots n steps, n ≤ shot.frame ∧ shot.frame ≤ n + (steps.map frames).sum := by
  induction steps generalizing n with
  | nil => simp [shots]
  | cons first rest ih =>
    intro shot hshot
    have hfirst : 0 ≤ first.frames := hframes first List.mem_cons_self
    have hothers : ∀ step ∈ rest, 0 ≤ step.frames :=
      fun step hstep => hframes step (List.mem_cons_of_mem _ hstep)
    have hsum : 0 ≤ (rest.map frames).sum := by
      apply List.sum_nonneg
      intro k hk
      obtain ⟨step, hstep, rfl⟩ := List.mem_map.mp hk
      exact hothers step hstep
    rw [List.map_cons, List.sum_cons]
    rcases List.mem_append.mp hshot with hnow | hlater
    · obtain rfl : shot.frame = n := by
        cases first with
        | run frames => simp [shot?] at hnow
        | input step => simp [shot?] at hnow
        | snap label =>
          obtain rfl : shot = ⟨label, n⟩ := by simpa [shot?] using hnow
          rfl
      omega
    · obtain ⟨hlow, hhigh⟩ := ih (n := n + first.frames) hothers shot hlater
      omega

theorem pairwise_shots (hframes : ∀ step ∈ steps, 0 ≤ step.frames) :
    (shots n steps).Pairwise (·.frame ≤ ·.frame) := by
  induction steps generalizing n with
  | nil => exact List.Pairwise.nil
  | cons first rest ih =>
    have hothers : ∀ step ∈ rest, 0 ≤ step.frames :=
      fun step hstep => hframes step (List.mem_cons_of_mem _ hstep)
    rw [shots]
    cases first with
    | run frames => exact ih hothers
    | input step => exact ih hothers
    | snap label =>
      refine List.pairwise_cons.mpr ⟨fun shot hshot => ?_, ih hothers⟩
      have hlow := (bounds_of_mem_shots hothers shot hshot).1
      simpa [frames] using hlow

end Step

theorem LabelledSnapshot.map_frame_of_shows {taken : List LabelledSnapshot} {shots : List Shot}
    (h : List.Forall₂ Shows taken shots) :
    taken.map frame = (shots.map Shot.frame).map Json.int := by
  induction h with
  | nil => rfl
  | cons hshow _ ih => rw [List.map_cons, List.map_cons, List.map_cons, ih, hshow.2]

namespace Script

/-- The script up to its step number `i`. -/
def before (script : Script) (i : Nat) : Script := ⟨script.steps.take i⟩

end Script

namespace Driver

variable {driver : Driver σ} {timing : Timing} {viewport : Viewport}

/-- Steps that are carried out are carried out one by one. -/
theorem step_of_performSteps {step : Nat} {first : Step} {rest : List Step} {t u : Timed σ}
    {taken : List LabelledSnapshot}
    (h : driver.performSteps timing viewport step (first :: rest) t = (.ok taken, u)) :
    ∃ shot others t', driver.performStep viewport first t.host = (.ok shot, t'.host) ∧
      driver.performSteps timing viewport (step + 1) rest t' = (.ok others, u) ∧
      taken = shot.toList ++ others := by
  obtain ⟨_, t₁, hcheck, h⟩ := Action.bind_eq_ok_iff.mp h
  have hsame : t₁.host = t.host := by
    obtain ⟨_, _, hclock, hjudge⟩ := Action.bind_eq_ok_iff.mp hcheck
    cases hclock
    obtain ⟨-, rfl⟩ := Prod.mk.inj hjudge
    rfl
  obtain ⟨shot, t₂, hstep, h⟩ := Action.bind_eq_ok_iff.mp h
  rw [Timed.onHost, Action.lift, hsame] at hstep
  obtain ⟨hshot, rfl⟩ := Prod.mk.inj hstep
  obtain ⟨others, _, hrest, h⟩ := Action.bind_eq_ok_iff.mp h
  cases h
  exact ⟨shot, others, _, Prod.ext hshot rfl, hrest, rfl⟩

theorem eq_nil_of_performSteps {step : Nat} {t u : Timed σ} {taken : List LabelledSnapshot}
    (h : driver.performSteps timing viewport step [] t = (.ok taken, u)) :
    taken = [] ∧ u.host = t.host := by
  obtain ⟨_, t₁, hcheck, h⟩ := Action.bind_eq_ok_iff.mp h
  obtain ⟨_, _, hclock, hjudge⟩ := Action.bind_eq_ok_iff.mp hcheck
  cases hclock
  obtain ⟨-, rfl⟩ := Prod.mk.inj hjudge
  cases h
  exact ⟨rfl, rfl⟩

/-- A script that is carried out has its steps performed, from the first on, and then its frames
counted. -/
theorem steps_of_execute {clock : Nat → Number} {budget : Budget} {script : Script}
    {execution : Execution} {s t : σ}
    (h : driver.execute clock budget viewport script s = (.ok execution, t)) :
    ∃ timing t₀ t₁, t₀.host = s ∧
      driver.performSteps timing viewport 0 script.steps t₀ = (.ok execution.captures, t₁) ∧
      driver.readFrameCount t₁.host = (.ok execution.frameCount, t) := by
  obtain ⟨hreplay, rfl⟩ := Prod.mk.inj h
  obtain ⟨timing, t₀, hbegin, hrun⟩ := Action.bind_eq_ok_iff.mp (Prod.ext hreplay rfl)
  have hstart : t₀.host = s := by
    obtain ⟨_, _, hmost, hbegin⟩ := Action.bind_eq_ok_iff.mp hbegin
    obtain ⟨-, rfl⟩ := Prod.mk.inj hmost
    cases hbegin
    rfl
  obtain ⟨captures, t₁, hsteps, hrun⟩ := Action.bind_eq_ok_iff.mp hrun
  obtain ⟨count, t₂, hcount, hrun⟩ := Action.bind_eq_ok_iff.mp hrun
  obtain ⟨hexecution, hlast⟩ := Prod.mk.inj hrun
  obtain rfl := Except.ok.inj hexecution
  obtain ⟨hframes, rfl⟩ := Prod.mk.inj hcount
  exact ⟨timing, t₀, t₁, hstart, hsteps, Prod.ext hframes (congrArg Timed.host hlast)⟩

/-- The driver keeps a frame counter, which its host shows in the answers and nothing but frames
moves on. -/
structure CountsFrames (driver : Driver σ) (counter : σ → Number) : Prop where
  runFrames : ∀ {n frames s t}, counter s = .int n →
    driver.runFrames (.int frames) s = (.ok (), t) → counter t = .int (n + frames)
  applyInput : ∀ {event s t}, driver.applyInput event s = (.ok (), t) → counter t = counter s
  captureSnapshot : ∀ {snapshot s t}, driver.captureSnapshot s = (.ok snapshot, t) →
    snapshot.frame = .number (counter s) ∧ counter t = counter s
  readFrameCount : ∀ {count s t}, driver.readFrameCount s = (.ok count, t) →
    count = .number (counter s)

variable {counter : σ → Number} {n : Int}

theorem shows_of_performStep (hcounts : driver.CountsFrames counter) {step : Step} {s t : σ}
    {taken : Option LabelledSnapshot} (hs : counter s = .int n)
    (h : driver.performStep viewport step s = (.ok taken, t)) :
    List.Forall₂ LabelledSnapshot.Shows taken.toList (step.shot? n).toList ∧
      counter t = .int (n + step.frames) := by
  cases step with
  | run frames =>
    obtain ⟨_, t', hrun, h⟩ := Action.bind_eq_ok_iff.mp h
    cases h
    exact ⟨List.Forall₂.nil, hcounts.runFrames hs hrun⟩
  | input step =>
    cases hevent : Event.ofStep viewport step with
    | error e =>
      rw [performStep, hevent] at h
      cases h
    | ok event =>
      rw [performStep, hevent] at h
      obtain ⟨_, t', happly, h⟩ := Action.bind_eq_ok_iff.mp h
      cases h
      refine ⟨List.Forall₂.nil, ?_⟩
      rw [hcounts.applyInput happly, hs]
      exact congrArg Number.int (add_zero n).symm
  | snap label =>
    obtain ⟨snapshot, t', hsnap, h⟩ := Action.bind_eq_ok_iff.mp h
    cases h
    obtain ⟨hframe, hkept⟩ := hcounts.captureSnapshot hsnap
    rw [hs] at hframe
    refine ⟨List.Forall₂.cons ⟨rfl, hframe⟩ List.Forall₂.nil, ?_⟩
    rw [hkept, hs]
    exact congrArg Number.int (add_zero n).symm

/-- Along the steps the counter tells the frame of the next shot. -/
theorem shows_of_performSteps (hcounts : driver.CountsFrames counter) {steps : List Step}
    {i : Nat} {t u : Timed σ} {taken : List LabelledSnapshot} (ht : counter t.host = .int n)
    (h : driver.performSteps timing viewport i steps t = (.ok taken, u)) :
    List.Forall₂ LabelledSnapshot.Shows taken (Step.shots n steps) ∧
      counter u.host = .int (n + (steps.map Step.frames).sum) := by
  induction steps generalizing i n t taken with
  | nil =>
    obtain ⟨rfl, hsame⟩ := eq_nil_of_performSteps h
    exact ⟨List.Forall₂.nil, by simpa [hsame] using ht⟩
  | cons first rest ih =>
    obtain ⟨shot, others, t', hstep, hrest, rfl⟩ := step_of_performSteps h
    obtain ⟨hshot, ht'⟩ := shows_of_performStep hcounts ht hstep
    obtain ⟨hothers, hu⟩ := ih ht' hrest
    refine ⟨List.rel_append hshot hothers, ?_⟩
    rw [hu, List.map_cons, List.sum_cons, add_assoc]

end Driver

theorem Rehearsal.frame_of_receive {plan : Rehearsal} {call : HostCall} {s t : Stage}
    (h : plan.receive call s = (.ok (), t)) : t.frame = s.frame := by
  unfold receive at h
  dsimp only at h
  split at h
  next =>
    split at h
    next => cases h
    next =>
      cases h
      rfl
  next =>
    cases h
    rfl

/-- A driver in memory that overrides no frame counts its frames. -/
theorem Rehearsal.driver_countsFrames {plan : Rehearsal} (hframe : plan.frame = none)
    (hcount : plan.frameCount = none) : plan.driver.CountsFrames Stage.frame where
  runFrames {n frames s t} hs h := by
    obtain ⟨_, s', hreceive, h⟩ := Action.bind_eq_ok_iff.mp h
    have hsame := frame_of_receive hreceive
    rw [advance, hsame, hs] at h
    cases h
    rfl
  applyInput h := frame_of_receive h
  captureSnapshot {_ s t} h := by
    obtain ⟨_, s', hreceive, h⟩ := Action.bind_eq_ok_iff.mp h
    have hsame := frame_of_receive hreceive
    cases h
    refine ⟨?_, hsame⟩
    show plan.frame.getD (.number t.frame) = _
    rw [hframe, hsame]
    rfl
  readFrameCount {_ s t} h := by
    obtain ⟨_, s', hreceive, h⟩ := Action.bind_eq_ok_iff.mp h
    have hsame := frame_of_receive hreceive
    cases h
    show plan.frameCount.getD (.number t.frame) = _
    rw [hcount, hsame]
    rfl

namespace Driver

variable {driver : Driver σ} {counter : σ → Number}

/-- The frames of a replay of an accepted script, on a driver that counts from `n` on: what the
script says is what the replay gives. -/
theorem execute_frames {viewport screen : Viewport} {limits : Limits} {value : Json}
    {script : Script} {clock : Nat → Number} {budget : Budget} {execution : Execution} {n : Int}
    {s t : σ} (hread : Script.read viewport limits value = .ok script)
    (hcounts : driver.CountsFrames counter) (hs : counter s = .int n)
    (hrun : driver.execute clock budget screen script s = (.ok execution, t)) :
    execution.frameCount = .int (n + script.totals.frames) ∧
    execution.captures.length = script.totals.snaps ∧
    (∀ i label, script.steps[i]? = some (.snap label) →
      ∃ c, execution.captures[(script.before i).totals.snaps]? = some c ∧ c.label = label ∧
        c.frame = .int (n + (script.before i).totals.frames)) ∧
    ∃ frames : List Int, execution.captures.map LabelledSnapshot.frame = frames.map Json.int ∧
      frames.Pairwise (· ≤ ·) ∧ ∀ frame ∈ frames, frame ≤ n + script.totals.frames := by
  obtain ⟨timing, t₀, t₁, rfl, hsteps, hcount⟩ := steps_of_execute hrun
  obtain ⟨hshows, ht₁⟩ := shows_of_performSteps hcounts hs hsteps
  have hframes := Script.frames_nonneg_of_read hread
  refine ⟨?_, ?_, fun i label hi => ?_,
    (Step.shots n script.steps).map Shot.frame, ?_, ?_, fun frame hframe => ?_⟩
  · rw [hcounts.readFrameCount hcount, ht₁, Script.totals_frames]
    rfl
  · rw [hshows.length_eq, Step.length_shots]
    rfl
  · obtain ⟨c, hc, hlabel, hframe⟩ := exists_of_getElem?_right hshows (Step.getElem?_shots hi)
    refine ⟨c, hc, hlabel, ?_⟩
    rw [hframe, Script.totals_frames]
    rfl
  · exact LabelledSnapshot.map_frame_of_shows hshows
  · exact List.pairwise_map.mpr (Step.pairwise_shots hframes)
  · obtain ⟨shot, hshot, rfl⟩ := List.mem_map.mp hframe
    rw [Script.totals_frames]
    exact (Step.bounds_of_mem_shots hframes shot hshot).2

/-- Two snapshots of a counter that starts at 7. -/
theorem execute_frames_from_seven :
    let script : Script := ⟨[.run 5, .snap "a", .run 3, .snap "b"]⟩
    ∃ execution t, (Rehearsal.driver ⟨.null, none, none, none⟩).execute (fun _ => .int 0)
        Timing.standardBudget .standard script ⟨.int 7, []⟩ = (.ok execution, t) ∧
      execution.frameCount = .int 15 ∧ execution.captures.length = 2 ∧
      ∃ c, execution.captures[1]? = some c ∧ c.label = ("b" : Text) ∧ c.frame = .int 15 := by
  intro script
  have hread : Script.read .standard ⟨120, 2⟩ script.payload = .ok script := by decide +kernel
  obtain ⟨execution, t, hrun⟩ : ∃ execution t,
      (Rehearsal.driver ⟨.null, none, none, none⟩).execute (fun _ => .int 0)
        Timing.standardBudget .standard script ⟨.int 7, []⟩ = (.ok execution, t) := ⟨_, _, rfl⟩
  obtain ⟨hcount, hlength, hsnaps, -⟩ :=
    execute_frames hread (Rehearsal.driver_countsFrames rfl rfl) (n := 7) rfl hrun
  exact ⟨execution, t, hrun, hcount, hlength, hsnaps 3 "b" rfl⟩

end Driver

end Replay
