import Replay.EventLog
import Replay.Proofs.ReplayInvariant

namespace Replay

namespace EventLog

variable {σ τ α : Type}

/-- Makes a host call; if the host fails at it, that is reported. -/
def guardedBy (onHost : Action σ α → Action τ α) (report : LogEntry → Action τ Unit)
    (kind : CallKind) (call : Action σ α) : Action τ α := do
  match ← Action.attempt (onHost call) with
  | .ok x => pure x
  | .error (.driver message) => do
    report (.ofFailure kind message)
    Action.fail (.driver message)
  | .error e => Action.fail e

/-- The driver with its calls reported in this way. -/
def loggedBy (onHost : ∀ {α : Type}, Action σ α → Action τ α) (report : LogEntry → Action τ Unit)
    (driver : Driver σ) : Driver τ where
  runFrames count := do
    report (.ofCount count)
    guardedBy onHost report .runFrames (driver.runFrames count)
  applyInput event := do
    report (.ofEvent event)
    guardedBy onHost report .applyInput (driver.applyInput event)
  captureSnapshot := do
    let snapshot ← guardedBy onHost report .captureSnapshot driver.captureSnapshot
    report (.ofSnapshot snapshot)
    pure snapshot
  readFrameCount := do
    let count ← guardedBy onHost report .readFrameCount driver.readFrameCount
    report (.ofFrameCount count)
    pure count

theorem logged_eq (path : Path) (driver : Driver σ) :
    logged path driver = loggedBy Session.onHost (add path) driver := rfl

/-- The types of the events that are reported. -/
def types : List Text :=
  [CallKind.runFrames.name, CallKind.applyInput.name, CallKind.captureSnapshot.name,
    CallKind.readFrameCount.name, LogEntry.errorType]

theorem guardedBy_preserves {i : τ → Prop} {onHost : Action σ α → Action τ α}
    {report : LogEntry → Action τ Unit} (hhost : ∀ call, Action.Preserves i (onHost call))
    (hreport : ∀ e : LogEntry, e.type ∈ types → Action.Preserves i (report e)) (kind : CallKind)
    (call : Action σ α) : Action.Preserves i (guardedBy onHost report kind call) := by
  refine (hhost call).attempt.bind fun r => ?_
  split
  next => exact .pure _
  next message =>
    have htype : (LogEntry.ofFailure kind message).type ∈ types := by
      simp [types, LogEntry.ofFailure]
    exact (hreport _ htype).bind fun _ => .fail _
  next => exact .fail _

/-- What neither the host nor a report takes away, no call does. -/
theorem loggedBy_preserves {i : τ → Prop} {onHost : ∀ {α : Type}, Action σ α → Action τ α}
    {report : LogEntry → Action τ Unit}
    (hhost : ∀ {α : Type} (call : Action σ α), Action.Preserves i (onHost call))
    (hreport : ∀ e : LogEntry, e.type ∈ types → Action.Preserves i (report e))
    (driver : Driver σ) : (loggedBy onHost report driver).Preserves i where
  runFrames _ := (hreport _ (by simp [types, LogEntry.ofCount])).bind fun _ =>
    guardedBy_preserves hhost hreport _ _
  applyInput _ := (hreport _ (by simp [types, LogEntry.ofEvent])).bind fun _ =>
    guardedBy_preserves hhost hreport _ _
  captureSnapshot := (guardedBy_preserves hhost hreport _ _).bind fun _ =>
    (hreport _ (by simp [types, LogEntry.ofSnapshot])).bind fun _ => .pure _
  readFrameCount := (guardedBy_preserves hhost hreport _ _).bind fun _ =>
    (hreport _ (by simp [types, LogEntry.ofFrameCount])).bind fun _ => .pure _

end EventLog

end Replay
