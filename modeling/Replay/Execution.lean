import Replay.Clock
import Replay.Driver

namespace Replay

/-- A snapshot under the label of its step. -/
structure LabelledSnapshot where
  label : Text
  frame : Json
  image : Json

structure Execution where
  frameCount : Json
  captures : List LabelledSnapshot

/-- A host together with the clock that its run is timed by, in milliseconds. -/
structure Timed (σ : Type) where
  host : σ
  clock : Clock Number

namespace Timed

variable {σ α : Type}

def onHost (a : Action σ α) : Action (Timed σ) α :=
  Action.lift Timed.host (fun host t => { t with host }) a

def readClock : Action (Timed σ) Number := fun t =>
  let (reading, clock) := t.clock.next
  (.ok reading, { t with clock })

end Timed

/-- A budget of time in seconds. It has a text, by which a run that overruns it is refused. -/
structure Budget where
  seconds : Number
  isShort : seconds.isShort = true

def Budget.ofSeconds? (n : Number) : Option Budget :=
  if h : n.isShort = true then some ⟨n, h⟩ else none

/-- How a run is timed: when it started, and its budget. -/
structure Timing where
  start : Number
  budget : Budget
  /-- The budget in milliseconds. -/
  most : Number

namespace Timing

variable {σ : Type}

/-- The budget of a run. -/
def standardBudget : Budget := ⟨.int 20, by decide +kernel⟩

/-- The next reading of the clock is the start. -/
def begin (budget : Budget) : Action (Timed σ) Timing := do
  let most ← Action.ofExcept ((budget.seconds.mul (.int 1000)).mapError Failure.number)
  let start ← Timed.readClock
  pure ⟨start, budget, most⟩

/-- Whether a reading of the clock ahead of a step is within the budget. -/
def judge (t : Timing) (step : Nat) (now : Number) : Except Failure Unit :=
  match now.sub t.start with
  | .error e => .error (.number e)
  | .ok elapsed =>
    if elapsed.le t.most then .ok ()
    else
      match t.budget.seconds.truncate with
      | .error e => .error (.number e)
      | .ok seconds => .error (.overrun ⟨step, t.budget.seconds, seconds, elapsed⟩)

/-- Reads the clock ahead of a step. -/
def check (t : Timing) (step : Nat) : Action (Timed σ) Unit := do
  let now ← Timed.readClock
  Action.ofExcept (t.judge step now)

end Timing

namespace Driver

variable {σ : Type}

/-- Carries out one step; a snapshot is given back. -/
def performStep (driver : Driver σ) (viewport : Viewport) :
    Step → Action σ (Option LabelledSnapshot)
  | .run frames => do
    driver.runFrames (.int frames)
    pure none
  | .input step =>
    match Event.ofStep viewport step with
    | .error e => Action.fail (.number e)
    | .ok event => do
      driver.applyInput event
      pure none
  | .snap label => do
    let snapshot ← driver.captureSnapshot
    pure (some ⟨label, snapshot.frame, snapshot.image⟩)

/-- Carries out the steps from number `step` on and gives their snapshots. The budget is checked
before each step and after the last one. -/
def performSteps (driver : Driver σ) (timing : Timing) (viewport : Viewport) (step : Nat) :
    List Step → Action (Timed σ) (List LabelledSnapshot)
  | [] => do
    timing.check step
    pure []
  | first :: rest => do
    timing.check step
    let snapshot ← Timed.onHost (driver.performStep viewport first)
    let snapshots ← performSteps driver timing viewport (step + 1) rest
    pure (snapshot.toList ++ snapshots)

/-- Replays a script and reads the frame count at its end. What was done before a failure stays. -/
def replay (driver : Driver σ) (budget : Budget) (viewport : Viewport) (script : Script) :
    Action (Timed σ) Execution := do
  let timing ← Timing.begin budget
  let captures ← driver.performSteps timing viewport 0 script.steps
  let frameCount ← Timed.onHost driver.readFrameCount
  pure ⟨frameCount, captures⟩

/-- Replays a script by a clock of the given readings. -/
def execute (driver : Driver σ) (clock : Nat → Number) (budget : Budget) (viewport : Viewport)
    (script : Script) : Action σ Execution := fun s =>
  match driver.replay budget viewport script ⟨s, .ofReadings clock⟩ with
  | (r, t) => (r, t.host)

end Driver

end Replay
