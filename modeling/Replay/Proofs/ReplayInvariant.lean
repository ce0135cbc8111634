import Replay.Execution
import Replay.Proofs.Outcome

namespace Replay

variable {σ α : Type} {i : σ → Prop} {p : Json → Prop}

/-- The frame count and the frames of all snapshots have the property. -/
def Execution.Has (p : Json → Prop) (execution : Execution) : Prop :=
  p execution.frameCount ∧ ∀ c ∈ execution.captures, p c.frame

namespace Timed

theorem onHost_preserves {a : Action σ α} (h : Action.Preserves i a) :
    Action.Preserves (fun t : Timed σ => i t.host) (onHost a) := fun t ht => h t.host ht

theorem onHost_yields {a : Action σ α} {q : α → Prop} (h : Action.Yields a q) :
    Action.Yields (onHost a) q := h.lift

end Timed

namespace Timing

theorem begin_preserves (budget : Budget) :
    Action.Preserves (fun t : Timed σ => i t.host) (begin budget) :=
  (Action.Preserves.ofExcept _).bind fun _ => Action.Preserves.bind (fun _ h => h) fun _ => .pure _

theorem check_preserves (timing : Timing) (step : Nat) :
    Action.Preserves (fun t : Timed σ => i t.host) (timing.check step) :=
  Action.Preserves.bind (fun _ h => h) fun _ => .ofExcept _

end Timing

namespace Driver

/-- Every call of the driver keeps the property of its host. -/
structure Preserves (i : σ → Prop) (driver : Driver σ) : Prop where
  runFrames : ∀ count, Action.Preserves i (driver.runFrames count)
  applyInput : ∀ event, Action.Preserves i (driver.applyInput event)
  captureSnapshot : Action.Preserves i driver.captureSnapshot
  readFrameCount : Action.Preserves i driver.readFrameCount

/-- All frames and frame counts that the driver gives have the property. -/
structure Yields (p : Json → Prop) (driver : Driver σ) : Prop where
  captureSnapshot : Action.Yields driver.captureSnapshot fun snapshot => p snapshot.frame
  readFrameCount : Action.Yields driver.readFrameCount p

variable {driver : Driver σ} {timing : Timing} {viewport : Viewport} {step : Nat}

theorem performStep_preserves (h : driver.Preserves i) (s : Step) :
    Action.Preserves i (driver.performStep viewport s) := by
  cases s with
  | run frames => exact (h.runFrames _).bind fun _ => .pure _
  | input s =>
    rw [performStep]
    split
    next e => exact .fail _
    next event => exact (h.applyInput _).bind fun _ => .pure _
  | snap label => exact h.captureSnapshot.bind fun _ => .pure _

theorem performSteps_preserves (h : driver.Preserves i) (steps : List Step) :
    Action.Preserves (fun t : Timed σ => i t.host)
      (driver.performSteps timing viewport step steps) := by
  induction steps generalizing step with
  | nil => exact (Timing.check_preserves _ _).bind fun _ => .pure _
  | cons first rest ih =>
    refine (Timing.check_preserves _ _).bind fun _ => ?_
    refine (Timed.onHost_preserves (performStep_preserves h first)).bind fun _ => ?_
    exact ih.bind fun _ => .pure _

theorem execute_preserves (h : driver.Preserves i) (clock : Nat → Number) (budget : Budget)
    (viewport : Viewport) (script : Script) :
    Action.Preserves i (driver.execute clock budget viewport script) := by
  intro s hs
  have hr : Action.Preserves (fun t : Timed σ => i t.host)
      (driver.replay budget viewport script) := by
    refine (Timing.begin_preserves _).bind fun timing => ?_
    refine (performSteps_preserves h _).bind fun captures => ?_
    exact (Timed.onHost_preserves h.readFrameCount).bind fun _ => .pure _
  exact hr ⟨s, .ofReadings clock⟩ hs

theorem performStep_yields (h : driver.Yields p) (s : Step) :
    Action.Yields (driver.performStep viewport s) fun shot => ∀ c ∈ shot, p c.frame := by
  cases s with
  | run frames => exact (Action.Yields.trivial _).bind fun _ _ => .pure (by simp)
  | input s =>
    rw [performStep]
    split
    next e => exact .fail _
    next event => exact (Action.Yields.trivial _).bind fun _ _ => .pure (by simp)
  | snap label => exact h.captureSnapshot.bind fun _ hs => .pure (by simpa using hs)

theorem performSteps_yields (h : driver.Yields p) (steps : List Step) :
    Action.Yields (driver.performSteps timing viewport step steps)
      fun captures => ∀ c ∈ captures, p c.frame := by
  induction steps generalizing step with
  | nil => exact (Action.Yields.trivial _).bind fun _ _ => .pure (by simp)
  | cons first rest ih =>
    refine (Action.Yields.trivial _).bind fun _ _ => ?_
    refine (Timed.onHost_yields (performStep_yields h first)).bind fun shot hshot => ?_
    refine ih.bind fun captures hcaptures => .pure ?_
    intro c hc
    rcases List.mem_append.mp hc with hc | hc
    · exact hshot c (by simpa using hc)
    · exact hcaptures c hc

theorem execute_yields (h : driver.Yields p) (clock : Nat → Number) (budget : Budget)
    (viewport : Viewport) (script : Script) :
    Action.Yields (driver.execute clock budget viewport script) (Execution.Has p) := by
  have hr : Action.Yields (driver.replay budget viewport script) (Execution.Has p) := by
    refine (Action.Yields.trivial _).bind fun timing _ => ?_
    refine (performSteps_yields h _).bind fun captures hcaptures => ?_
    exact (Timed.onHost_yields h.readFrameCount).bind fun count hcount => .pure ⟨hcount, hcaptures⟩
  intro s x t hx
  rw [execute] at hx
  cases hrun : driver.replay budget viewport script ⟨s, .ofReadings clock⟩ with
  | mk r u =>
    rw [hrun] at hx
    cases hx
    exact hr hrun

end Driver

end Replay
