import Replay.Proofs.DriverFollows

namespace Replay

variable {σ α : Type}

/-- The call that carries out a step. -/
def HostCall.ofStep (viewport : Viewport) : Step → Except NumberError HostCall
  | .run frames => .ok (.runFrames (.int frames))
  | .input step => (Event.ofStep viewport step).map HostCall.applyInput
  | .snap _ => .ok .captureSnapshot

/-- The calls of a script: one for each step, in order, and the one for the frame count. -/
def Script.calls (viewport : Viewport) (script : Script) : Except NumberError (List HostCall) := do
  let calls ← script.steps.mapM (HostCall.ofStep viewport)
  pure (calls ++ [.readFrameCount])

theorem Script.calls_eq_ok_iff {viewport : Viewport} {script : Script} {calls : List HostCall} :
    script.calls viewport = .ok calls ↔
      ∃ l, List.Forall₂ (fun step call => HostCall.ofStep viewport step = .ok call) script.steps l ∧
        l ++ [.readFrameCount] = calls := by
  simp [Script.calls, bind_eq_ok_iff, mapM_eq_ok_iff, pure, Except.pure]

theorem Script.length_calls {viewport : Viewport} {script : Script} {calls : List HostCall}
    (h : script.calls viewport = .ok calls) : calls.length = script.length + 1 := by
  obtain ⟨l, hl, rfl⟩ := calls_eq_ok_iff.mp h
  rw [List.length_append, ← hl.length_eq, List.length_singleton, length]

/-- The last call is the one for the frame count. -/
theorem Script.getElem?_calls_length {viewport : Viewport} {script : Script}
    {calls : List HostCall} (h : script.calls viewport = .ok calls) :
    calls[script.length]? = some .readFrameCount := by
  obtain ⟨l, hl, rfl⟩ := calls_eq_ok_iff.mp h
  rw [length, hl.length_eq, List.getElem?_concat_length]

/-- The call at the place of a step is the one that carries it out. -/
theorem Script.drop_steps_of_getElem?_calls {viewport : Viewport} {script : Script}
    {calls : List HostCall} {call : HostCall} {j : Nat} (h : script.calls viewport = .ok calls)
    (hj : j < script.length) (hcall : calls[j]? = some call) :
    ∃ step, HostCall.ofStep viewport step = .ok call ∧
      script.steps.drop j = step :: script.steps.drop (j + 1) := by
  obtain ⟨l, hl, rfl⟩ := calls_eq_ok_iff.mp h
  have hjl : j < l.length := hl.length_eq ▸ hj
  rw [List.getElem?_append_left hjl, List.getElem?_eq_getElem hjl] at hcall
  refine ⟨script.steps[j], ?_, List.drop_eq_getElem_cons hj⟩
  exact (hl.get hj hjl).trans (congrArg Except.ok (Option.some.inj hcall))

/-- A host with the calls that it received. -/
structure Recorded (σ : Type) where
  host : σ
  calls : List HostCall

namespace Recorded

/-- Notes a call, then carries it out. -/
def receive (call : HostCall) (a : Action σ α) : Action (Recorded σ) α := do
  Action.change fun r => { r with calls := r.calls ++ [call] }
  Action.lift Recorded.host (fun host r => { r with host }) a

theorem receive_apply (call : HostCall) (a : Action σ α) (s : σ) (l : List HostCall) :
    receive call a ⟨s, l⟩ = ((a s).1, ⟨(a s).2, l ++ [call]⟩) := rfl

theorem receive_follows (call : HostCall) (a : Action σ α) :
    Action.Follows Recorded.host (receive call a) a := fun _ => ⟨rfl, rfl⟩

end Recorded

namespace Driver

/-- The driver with its calls noted. -/
def recorded (driver : Driver σ) : Driver (Recorded σ) where
  runFrames count := Recorded.receive (.runFrames count) (driver.runFrames count)
  applyInput event := Recorded.receive (.applyInput event) (driver.applyInput event)
  captureSnapshot := Recorded.receive .captureSnapshot driver.captureSnapshot
  readFrameCount := Recorded.receive .readFrameCount driver.readFrameCount

/-- Noting the calls changes nothing else. -/
theorem recorded_follows (driver : Driver σ) :
    driver.recorded.Follows Recorded.host driver where
  runFrames _ := Recorded.receive_follows _ _
  applyInput _ := Recorded.receive_follows _ _
  captureSnapshot := Recorded.receive_follows _ _
  readFrameCount := Recorded.receive_follows _ _

/-- Carries out a call, whatever it gives. -/
def obey (driver : Driver σ) : HostCall → Action σ Unit
  | .runFrames count => driver.runFrames count
  | .applyInput event => driver.applyInput event
  | .captureSnapshot => do
    let _ ← driver.captureSnapshot
    pure ()
  | .readFrameCount => do
    let _ ← driver.readFrameCount
    pure ()
  | .opened | .closed => pure ()

/-- Carries out calls one after the other, until one fails. -/
def serve (driver : Driver σ) : List HostCall → Action σ Unit
  | [] => pure ()
  | call :: rest => do
    driver.obey call
    serve driver rest

/-- Of the calls, the one at place `j` is the first that fails, and it fails with `e`. -/
def FaultAt (driver : Driver σ) (calls : List HostCall) (s : σ) (j : Nat) (e : Failure) : Prop :=
  ∃ call t, calls[j]? = some call ∧ driver.serve (calls.take j) s = (.ok (), t) ∧
    (driver.obey call t).1 = .error e

variable {driver : Driver σ} {calls : List HostCall} {s t : σ} {viewport : Viewport}

theorem serve_append {xs ys : List HostCall} (h : driver.serve xs s = (.ok (), t)) :
    driver.serve (xs ++ ys) s = driver.serve ys t := by
  induction xs generalizing s with
  | nil =>
    have hs : s = t := by simpa [serve] using h
    rw [List.nil_append, hs]
  | cons call rest ih =>
    rw [serve, Action.bind_apply] at h
    rw [List.cons_append, serve, Action.bind_apply]
    cases hc : driver.obey call s with
    | mk r s' =>
      rw [hc] at h
      cases r with
      | ok x => exact ih h
      | error e => simp at h

theorem exists_serve_of_append {xs ys : List HostCall}
    (h : driver.serve (xs ++ ys) s = (.ok (), t)) :
    ∃ u, driver.serve xs s = (.ok (), u) ∧ driver.serve ys u = (.ok (), t) := by
  induction xs generalizing s with
  | nil => exact ⟨s, rfl, h⟩
  | cons call rest ih =>
    obtain ⟨x, v, hc, h⟩ := Action.bind_eq_ok_iff.mp h
    obtain ⟨u, hu, ht⟩ := ih h
    exact ⟨u, by rw [serve, Action.bind_ok _ hc, hu], ht⟩

/-- Calls before the first that fails are carried out. -/
theorem serve_take_of_fault_le {m : Nat} (hm : m ≤ calls.length)
    (h : ∀ j e, driver.FaultAt calls s j e → m ≤ j) :
    ∃ t, driver.serve (calls.take m) s = (.ok (), t) := by
  induction m with
  | zero => exact ⟨s, rfl⟩
  | succ m ih =>
    obtain ⟨t, ht⟩ := ih (by omega) fun j e hf => by have := h j e hf; omega
    have hi : calls[m]? = some calls[m] := List.getElem?_eq_getElem (by omega)
    rw [List.take_add_one, hi, Option.toList_some, serve_append ht]
    cases hc : driver.obey calls[m] t with
    | mk r u =>
      cases r with
      | ok x => exact ⟨u, by rw [serve, Action.bind_ok _ hc]; rfl⟩
      | error e =>
        have := h m e ⟨calls[m], t, hi, ht, by rw [hc]⟩
        omega

/-- A recorded driver receives the call of a step, and fails at it if the driver does. -/
theorem performStep_recorded {step : Step} {call : HostCall}
    (h : HostCall.ofStep viewport step = .ok call) (s : σ) (l : List HostCall) :
    ∃ shot, driver.recorded.performStep viewport step ⟨s, l⟩ =
      ((driver.obey call s).1.map fun _ => shot, ⟨(driver.obey call s).2, l ++ [call]⟩) := by
  cases step with
  | run frames =>
    obtain rfl : HostCall.runFrames (.int frames) = call := by simpa [HostCall.ofStep] using h
    refine ⟨none, ?_⟩
    simp only [performStep, recorded, obey, Action.bind_apply, Recorded.receive_apply]
    cases hr : driver.runFrames (.int frames) s with
    | mk r t => cases r <;> rfl
  | input step =>
    cases he : Event.ofStep viewport step with
    | error e => simp [HostCall.ofStep, he, Except.map] at h
    | ok event =>
      obtain rfl : HostCall.applyInput event = call := by
        simpa [HostCall.ofStep, he, Except.map] using h
      refine ⟨none, ?_⟩
      simp only [performStep, he, recorded, obey, Action.bind_apply, Recorded.receive_apply]
      cases hr : driver.applyInput event s with
      | mk r t => cases r <;> rfl
  | snap label =>
    obtain rfl : HostCall.captureSnapshot = call := by simpa [HostCall.ofStep] using h
    simp only [performStep, recorded, obey, Action.bind_apply, Recorded.receive_apply]
    cases hr : driver.captureSnapshot s with
    | mk r t =>
      cases r with
      | ok snapshot => exact ⟨some ⟨label, snapshot.frame, snapshot.image⟩, rfl⟩
      | error e => exact ⟨none, rfl⟩

end Driver

end Replay
