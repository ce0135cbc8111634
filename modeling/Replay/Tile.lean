import Replay.Run

namespace Replay

/-- What runs the tile script: it is given the settings, the version and the script. -/
abbrev Runner (σ : Type) := Settings → Text → Json → Action (Session σ) RunResult

namespace Tile

variable {σ : Type}

def fileName : Text := "tile.png"

def directoryName : Text := "snapshots"

/-- The image that a result offers as the tile. -/
def source (r : RunResult) : Except TileError Path :=
  if r.ok then
    match r.captures with
    | [c] => .ok c.path
    | _ => .error .noCapture
  else .error (.failedRun r.diagnostics)

/-- Copies the image into the game's directory of snapshots. -/
def place (game image : Path) : Action Machine Path := do
  let directory := game.child directoryName
  Machine.alter fun fs => fs.makeDirectories directory
  let target := directory.child fileName
  Machine.update fun fs => fs.copyFile image target
  pure target

/-- Takes the tile image of a game and gives its path. Without settings they are read from the
variables. -/
def capture (runner : Runner σ) (vars : Settings.Variables) (settings : Option Settings)
    (game : Path) : Action (Session σ) Path := do
  let game ← Session.onMachine (Machine.inspect fun fs => fs.resolve game)
  let files ← Action.read fun s => s.machine.files
  let settings ← match settings with
    | some settings => pure settings
    | none => Action.ofExcept (Settings.load files vars (some game))
  let result ← runner settings game.name Script.tile.payload
  let image ← Action.ofExcept ((source result).mapError Failure.tile)
  Session.onMachine (place game image)

/-- The runner that carries out whole runs. -/
def runner (host : Host σ) (clock stopwatch : Nat → Number) : Runner σ :=
  fun settings version script => Run.perform host ⟨settings, some version, clock, stopwatch⟩ script

end Tile

end Replay
