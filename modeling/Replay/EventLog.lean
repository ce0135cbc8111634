import Replay.Driver
import Replay.Machine

namespace Replay

/-- A host together with the machine and the number of logged events of each type. -/
structure Session (σ : Type) where
  host : σ
  machine : Machine
  counts : Members Nat

namespace Session

variable {σ α : Type}

def onHost (a : Action σ α) : Action (Session σ) α :=
  Action.lift Session.host (fun host s => { s with host }) a

def onMachine (a : Action Machine α) : Action (Session σ) α :=
  Action.lift Session.machine (fun machine s => { s with machine }) a

end Session

/-- An event to be logged: its type and its message. An integer of too many digits has no text, and
then neither has the message. -/
structure LogEntry where
  type : Text
  message : Except NumberError Text

namespace LogEntry

def errorType : Text := "driver_error"

/-- The entry about frames that are asked for. -/
def ofCount (count : Number) : LogEntry :=
  ⟨CallKind.runFrames.name, (Json.number count).shortPlain⟩

def pointText (e : Event) : Text :=
  e.action ++ " pointer=" ++ Text.ofInt e.pointer ++ " at=(" ++ e.position.x.text ++ ","
    ++ e.position.y.text ++ ") source=" ++ e.source

/-- The entry about a pointer event. -/
def ofEvent (e : Event) : LogEntry :=
  ⟨CallKind.applyInput.name, if e.isShort then .ok (pointText e) else .error .tooManyDigits⟩

/-- The entry about a snapshot that was taken. -/
def ofSnapshot (s : Snapshot) : LogEntry :=
  ⟨CallKind.captureSnapshot.name, s.frame.shortPlain.map fun shown => "frame=" ++ shown⟩

/-- The entry about a frame count that was read. -/
def ofFrameCount (count : Json) : LogEntry := ⟨CallKind.readFrameCount.name, count.shortPlain⟩

/-- The entry about a call at which the host failed. -/
def ofFailure (kind : CallKind) (message : Text) : LogEntry :=
  ⟨errorType, .ok (kind.name ++ ": " ++ message)⟩

end LogEntry

namespace EventLog

variable {σ : Type}

def header : Text := "# Headless Runner Events\n"

/-- Makes a log that has no lines yet; a log that is there is continued. -/
def start (path : Path) : Action Machine Unit := do
  Machine.alter fun fs => fs.makeDirectories path.parent
  let found ← Machine.inspect fun fs => fs.hasNode path
  if found then pure () else Machine.alter fun fs => fs.writeText path header

def line (moment : Moment) (type message : Text) : Text :=
  moment.text ++ "\t" ++ type ++ "\t" ++ message ++ "\n"

/-- Adds one event to the counts of its type. -/
def tally (counts : Members Nat) (type : Text) : Members Nat :=
  counts.put type ((counts.get? type).getD 0 + 1)

/-- Appends an event to the log, and counts it once it is written. -/
def record (path : Path) (type message : Text) : Action (Session σ) Unit := do
  let moment ← Session.onMachine Machine.readClock
  Session.onMachine (Machine.alter fun fs => fs.appendText path (line moment type message))
  Action.change fun s => { s with counts := tally s.counts type }

/-- Appends an entry to the log, unless its message has no text. -/
def add (path : Path) (e : LogEntry) : Action (Session σ) Unit := do
  let message ← Action.ofExcept (e.message.mapError Failure.number)
  record path e.type message

/-- Makes a host call; if the host fails at it, that is logged too. -/
def guarded {α : Type} (path : Path) (kind : CallKind) (call : Action σ α) :
    Action (Session σ) α := do
  match ← Action.attempt (Session.onHost call) with
  | .ok x => pure x
  | .error (.driver message) => do
    add path (.ofFailure kind message)
    Action.fail (.driver message)
  | .error e => Action.fail e

/-- The driver with its calls logged: what is done to the game before it is done, what the game
answers afterwards. -/
def logged (path : Path) (driver : Driver σ) : Driver (Session σ) where
  runFrames count := do
    add path (.ofCount count)
    guarded path .runFrames (driver.runFrames count)
  applyInput event := do
    add path (.ofEvent event)
    guarded path .applyInput (driver.applyInput event)
  captureSnapshot := do
    let snapshot ← guarded path .captureSnapshot driver.captureSnapshot
    add path (.ofSnapshot snapshot)
    pure snapshot
  readFrameCount := do
    let count ← guarded path .readFrameCount driver.readFrameCount
    add path (.ofFrameCount count)
    pure count

end EventLog

end Replay
