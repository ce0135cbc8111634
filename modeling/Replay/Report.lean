import Replay.Artifact
import Replay.JsonText

namespace Replay

structure RunResult where
  ok : Bool
  frameCount : Json
  captures : List Artifact
  diagnostics : List Text
  outputDirectory : Option Path
  startedAt : Text
  finishedAt : Text
  runtime : Number
  eventCounts : Members Json

namespace RunResult

/-- A run that failed says why and nothing else. -/
def failed (message : Text) (directory : Option Path) (counts : Members Json) : RunResult :=
  ⟨false, .int 0, [], [message], directory, [], [], .real .zero, counts⟩

def payload (r : RunResult) : Json :=
  .object [("ok", .bool r.ok), ("frameCount", r.frameCount),
    ("captures", .array (r.captures.map Artifact.payload)),
    ("diagnostics", .array (r.diagnostics.map Json.text)),
    ("outputDirectory", Json.ofText? (r.outputDirectory.map Path.text))]

end RunResult

namespace Report

/-- The counts in the order of their names. -/
def sortedCounts (counts : Members Json) : Members Json :=
  counts.mergeSort fun a b => Text.le a.1 b.1

def countText (c : Text × Json) : Text := c.1 ++ "=" ++ c.2.plain

/-- A line of the table of snapshots. -/
def row (number : Nat) (a : Artifact) : Text :=
  "| " ++ Text.ofNat number ++ " | " ++ a.label ++ " | " ++ a.frame.plain ++ " | "
    ++ Text.ofInt a.width ++ "x" ++ Text.ofInt a.height ++ " | " ++ a.path.name ++ " |"

def rows (number : Nat) : List Artifact → List Text
  | [] => []
  | a :: rest => row number a :: rows (number + 1) rest

def table (captures : List Artifact) : List Text :=
  if captures.isEmpty then ["- Captures: none"]
  else "| # | Label | Frame | Size | File |" :: "| --- | --- | --- | --- | --- |" :: rows 1 captures

/-- A line that stands only if there is something to say. -/
def optional (present : Bool) (line : Text) : List Text := if present then [line] else []

/-- The lines about the run as a whole. -/
def summary (r : RunResult) (duration : Text) : List Text :=
  let verdict : Text := if r.ok then "PASS" else "FAIL"
  let head : List Text :=
    ["- Result: **" ++ verdict ++ "**", "- Frame count: " ++ r.frameCount.plain]
  let artifacts : List Text := r.outputDirectory.toList.map fun d => "- Artifacts: " ++ d.text
  head ++ optional (!r.startedAt.isEmpty) ("- Started: " ++ r.startedAt)
    ++ optional (!r.finishedAt.isEmpty) ("- Finished: " ++ r.finishedAt)
    ++ optional true ("- Duration: " ++ duration ++ "s")
    ++ artifacts
    ++ optional (!r.eventCounts.isEmpty)
      ("- Driver calls: " ++ Text.join ", " ((sortedCounts r.eventCounts).map countText))

def diagnosticLine (message : Text) : Text := "- " ++ message

def diagnosticLines (diagnostics : List Text) : List Text :=
  if diagnostics.isEmpty then []
  else "## Diagnostics" :: (diagnostics.map diagnosticLine ++ [[]])

def lines (r : RunResult) (finished : Moment) (duration : Text) : List Text :=
  ["# Headless Run Report — " ++ finished.title, []] ++ summary r duration ++ [[]]
    ++ table r.captures ++ [[]] ++ diagnosticLines r.diagnostics

/-- The moment that the title shows: when the run finished, or else the present one. -/
def titleMoment (finishedAt : Text) : Action Machine Moment :=
  if finishedAt.isEmpty then Machine.readClock
  else
    match Moment.read finishedAt with
    | .ok m => pure m
    | .error .notTimestamp => Machine.readClock
    | .error e => Action.fail (.moment e)

/-- Whether the numbers after the duration have a text. -/
def hasShortTail (r : RunResult) : Bool :=
  r.eventCounts.all (fun c => c.2.isShort) && r.captures.all Artifact.isShort

/-- The duration as it is shown, unless a number of the report has no text. The frame count comes
ahead of it, the other numbers after it. -/
def duration (r : RunResult) : Except NumberError Text :=
  if !r.frameCount.isShort then .error .tooManyDigits
  else
    match r.runtime.fixed 2 with
    | .error e => .error e
    | .ok shown => if hasShortTail r then .ok shown else .error .tooManyDigits

/-- The report, without blank lines at its ends. -/
def render (r : RunResult) : Action Machine Text := do
  let finished ← titleMoment r.finishedAt
  let duration ← Action.ofExcept ((duration r).mapError Failure.number)
  pure ((Text.join "\n" (lines r finished duration)).trim ++ "\n")

def reportName : Text := "report.md"

def resultName : Text := "result.json"

def writeTo (r : RunResult) (directory : Path) : Action Machine Unit := do
  Machine.alter fun fs => fs.makeDirectories directory
  let report ← render r
  Machine.alter fun fs => fs.writeText (directory.child reportName) report
  Machine.alter fun fs => fs.writeText (directory.child resultName) r.payload.indented

/-- Writes both forms into a directory and gives their paths. An error of the file system is
tolerated, any other is not. -/
def write (r : RunResult) (directory : Option Path) : Action Machine (Option (Path × Path)) :=
  match directory.or r.outputDirectory with
  | none => pure none
  | some target => do
    match ← Action.attempt (writeTo r target) with
    | .ok () => pure (some (target.child reportName, target.child resultName))
    | .error e => if e.isAccess then pure none else Action.fail e

end Report

end Replay
