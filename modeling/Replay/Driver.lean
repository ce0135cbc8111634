import Replay.Action
import Replay.Event

namespace Replay

/-- What a host answers to the call for a snapshot. -/
structure Snapshot where
  frame : Json
  image : Json

/-- The calls of a host with states of type `σ`. -/
structure Driver (σ : Type) where
  runFrames : Number → Action σ Unit
  applyInput : Event → Action σ Unit
  captureSnapshot : Action σ Snapshot
  readFrameCount : Action σ Json

/-- A call that a host receives. -/
inductive HostCall where
  | opened
  | runFrames (count : Number)
  | applyInput (event : Event)
  | captureSnapshot
  | readFrameCount
  | closed
deriving DecidableEq

/-- The calls that can be told to fail. -/
inductive CallKind where
  | runFrames
  | applyInput
  | captureSnapshot
  | readFrameCount
deriving DecidableEq

namespace CallKind

def name : CallKind → Text
  | runFrames => "run_frames"
  | applyInput => "apply_input"
  | captureSnapshot => "capture_snapshot"
  | readFrameCount => "read_frame_count"

end CallKind

namespace HostCall

def kind? : HostCall → Option CallKind
  | runFrames _ => some .runFrames
  | applyInput _ => some .applyInput
  | captureSnapshot => some .captureSnapshot
  | readFrameCount => some .readFrameCount
  | _ => none

end HostCall

/-- A failure at the call of one kind with the given number, counted from one. -/
structure PlannedFailure where
  kind : CallKind
  number : Int
  failure : Failure

/-- What a driver in memory answers. -/
structure Rehearsal where
  image : Json
  /-- Overrides the frame of snapshots. -/
  frame : Option Json
  /-- Overrides the frame count. -/
  frameCount : Option Json
  fault : Option PlannedFailure

/-- The state of a driver in memory: its frame counter and the calls it received. -/
structure Stage where
  frame : Number
  calls : List HostCall

namespace Rehearsal

/-- Notes the call, then fails if the plan says so. -/
def receive (plan : Rehearsal) (call : HostCall) : Action Stage Unit := fun stage =>
  let stage := { stage with calls := stage.calls ++ [call] }
  match plan.fault with
  | some fault =>
    let count := stage.calls.countP fun c => c.kind? = some fault.kind
    if call.kind? = some fault.kind && (count : Int) = fault.number then
      (.error fault.failure, stage)
    else (.ok (), stage)
  | none => (.ok (), stage)

def advance (count : Number) : Action Stage Unit := fun stage =>
  match stage.frame.add count with
  | .ok frame => (.ok (), { stage with frame })
  | .error e => (.error (.number e), stage)

def driver (plan : Rehearsal) : Driver Stage where
  runFrames count := do
    plan.receive (.runFrames count)
    advance count
  applyInput event := plan.receive (.applyInput event)
  captureSnapshot := do
    plan.receive .captureSnapshot
    Action.read fun stage => ⟨plan.frame.getD (.number stage.frame), plan.image⟩
  readFrameCount := do
    plan.receive .readFrameCount
    Action.read fun stage => plan.frameCount.getD (.number stage.frame)

end Rehearsal

end Replay
