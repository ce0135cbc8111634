import Replay.EventLog
import Replay.Host
import Replay.Report

namespace Replay

/-- What a run needs to know beside its script. -/
structure RunPlan where
  settings : Settings
  version : Option Text
  /-- The clock of the budget in milliseconds. -/
  clock : Nat → Number
  /-- The clock of the runtime in seconds. -/
  stopwatch : Nat → Number

namespace Run

variable {σ : Type}

def logName : Text := "events.log"

/-- The type of the event that records the script. -/
def scriptType : Text := "protocol"

/-- How far a run came: the directory it made, and its outcome. -/
structure Progress where
  directory : Option Path
  outcome : Except Failure (Script × Execution × List Artifact)

/-- Replays the script on the host, in a directory made for the run. -/
def replay (host : Host σ) (plan : RunPlan) (script : Script) (directory : Path) :
    Action (Session σ) (Script × Execution × List Artifact) := do
  let log := directory.child logName
  Session.onMachine (EventLog.start log)
  EventLog.record log scriptType script.payload.compact
  let files ← Action.read fun s => s.machine.files
  let execution ← host.visit Session.onHost plan.settings files
    ((EventLog.logged log host.driver).execute plan.clock Timing.standardBudget .standard script)
  let artifacts ← Session.onMachine (Artifact.saveAll directory execution.captures)
  pure (script, execution, artifacts)

/-- A script that is refused changes nothing. -/
def progress (host : Host σ) (plan : RunPlan) (input : Json) : Action (Session σ) Progress :=
  match Script.read .standard .standard input with
  | .error e => pure ⟨none, .error (.ofScript e)⟩
  | .ok script => do
    let outputRoot := plan.settings.outputRoot
    match ← Action.attempt (Session.onMachine (Machine.makeRunDirectory outputRoot)) with
    | .error e => pure ⟨none, .error e⟩
    | .ok directory => do
      let outcome ← Action.attempt (replay host plan script directory)
      pure ⟨some directory, outcome⟩

/-- What a successful run says about itself. -/
def diagnostics (plan : RunPlan) (script : Script) : List Text :=
  let game := match plan.version with
    | some v => if v.isEmpty then plan.settings.gameRoot.name else v
    | none => plan.settings.gameRoot.name
  ["Game " ++ game,
    "Viewport " ++ Viewport.standard.width.text ++ "x" ++ Viewport.standard.height.text ++ " @ dpr "
      ++ Viewport.standard.dpr.text,
    "Limits maxFrames=" ++ Text.ofInt Limits.standard.frames ++ ", maxSnaps="
      ++ Text.ofInt Limits.standard.snaps,
    "Executed " ++ Text.ofNat script.length ++ " steps"]

/-- The result of a run, without its times. -/
def result (plan : RunPlan) (p : Progress) (counts : Members Nat) : RunResult :=
  let counts : Members Json := counts.map fun c => (c.1, Json.ofNat c.2)
  match p.outcome with
  | .error e => .failed e.message p.directory counts
  | .ok (script, execution, artifacts) =>
    ⟨true, execution.frameCount, artifacts, diagnostics plan script, p.directory, [], [],
      .real .zero, counts⟩

/-- Puts in the times and writes the report. -/
def finish (plan : RunPlan) (started : Moment) (r : RunResult) : Action Machine RunResult := do
  let finished ← Machine.readClock
  let runtime ← Action.ofExcept
    (((plan.stopwatch 1).sub (plan.stopwatch 0)).mapError Failure.number)
  let r := { r with
    startedAt := started.text, finishedAt := finished.text, runtime := runtime.rounded 2 }
  let _ ← Report.write r none
  pure r

/-- What comes of a script before the report is written; events are counted from zero. -/
def outcome (host : Host σ) (plan : RunPlan) (input : Json) : Action (Session σ) RunResult := do
  Action.change fun s => { s with counts := [] }
  let p ← progress host plan input
  let counts ← Action.read Session.counts
  pure (result plan p counts)

/-- Runs a script from end to end. -/
def perform (host : Host σ) (plan : RunPlan) (input : Json) : Action (Session σ) RunResult := do
  let started ← Session.onMachine Machine.readClock
  let r ← outcome host plan input
  Session.onMachine (finish plan started r)

end Run

end Replay
