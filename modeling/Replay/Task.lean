import Replay.Arguments

namespace Replay

/-- A command is made from the interpreter, and gives a status when it has run. -/
inductive Task where
  | install
  | browsers
  | serve
  | test
  | smoke
deriving DecidableEq

namespace Task

def all : List Task := [install, browsers, serve, test, smoke]

def name : Task → Text
  | install => "install"
  | browsers => "browsers"
  | serve => "serve"
  | test => "test"
  | smoke => "smoke"

def ofName? (t : Text) : Option Task := all.find? fun task => task.name = t

def gameRootOption : OptionSpec := ⟨["--game-root"], .value, false⟩

def table : ArgumentTable :=
  ⟨[.help, gameRootOption], some ⟨"command", all.map name⟩⟩

/-- The words after the interpreter; a game directory matters to the smoke run only. -/
def words (gameRoot : OptionValue) : Task → List Text
  | install => ["-m", "pip", "install", "-e", ".[test]"]
  | browsers => ["-m", "playwright", "install", "chromium"]
  | serve => ["app.py"]
  | test => ["-m", "pytest", "-q"]
  | smoke =>
    match gameRoot.text? with
    | some root => ["-m", "runner.run_headless", "--smoke", "--game-root", root]
    | none => ["-m", "runner.run_headless", "--smoke"]

/-- The command that the arguments ask for. -/
def command (interpreter : Text) (arguments : List Text) : Except EarlyExit (List Text) := do
  let r ← Arguments.read table arguments
  match r.positional.bind ofName? with
  | some task => pure (interpreter :: task.words (r.value gameRootOption))
  | none => .error (.usage (.positionalMissing "command"))

end Task

end Replay
