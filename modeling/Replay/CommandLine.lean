import Replay.Game
import Replay.Run
import Replay.ScriptSource

namespace Replay

/-- What a command has shown so far. -/
structure Console where
  output : Text
  /-- Messages about errors. -/
  errors : List Text
  /-- Whether all details are logged, once that is settled. -/
  verbose : Option Bool

namespace Console

def empty : Console := ⟨[], [], none⟩

end Console

/-- What a command works with: a host with its machine, and a console. -/
structure Terminal (σ : Type) where
  session : Session σ
  console : Console

/-- What surrounds a command. -/
structure CommandSetting where
  vars : Settings.Variables
  input : Input
  /-- How many arrays and objects inside each other the readers of the command have room for. -/
  depth : Nat
  clock : Nat → Number
  stopwatch : Nat → Number

namespace CommandLine

variable {σ α : Type}

def onSession (a : Action (Session σ) α) : Action (Terminal σ) α :=
  Action.lift Terminal.session (fun session t => { t with session }) a

def setVerbose (verbose : Bool) : Action (Terminal σ) Unit :=
  Action.change fun t => { t with console := { t.console with verbose := some verbose } }

def logError (message : Text) : Action (Terminal σ) Unit :=
  Action.change fun t =>
    { t with console := { t.console with errors := t.console.errors ++ [message] } }

def print (text : Text) : Action (Terminal σ) Unit :=
  Action.change fun t => { t with console := { t.console with output := t.console.output ++ text } }

def inspect (f : FileSystem → Except Failure α) : Action (Terminal σ) α := fun t =>
  (f t.session.machine.files, t)

/-- The script to run and the game version that it runs on. -/
def subject (s : CommandSetting) (o : Options) (settings : Settings) (fs : FileSystem) :
    Except Failure (Json × Text) := do
  let script ← (ScriptSource.ofOptions o s.input.terminal).read fs s.depth s.input.content
  let version ← Game.inferVersion fs settings.gameRoot
  pure (script, version)

/-- Runs the script and prints the result; the status tells whether the run went well. -/
def runScript (host : Host σ) (s : CommandSetting) (settings : Settings) (script : Json)
    (version : Text) : Action (Terminal σ) Nat := do
  let plan : RunPlan := ⟨settings, some version, s.clock, s.stopwatch⟩
  let started ← onSession (Session.onMachine Machine.readClock)
  let outcome ← onSession (Run.outcome host plan script)
  if outcome.ok then pure () else
    logError ("Headless run failed: " ++ Text.join "; " outcome.diagnostics)
  let result ← onSession (Session.onMachine (Run.finish plan started outcome))
  print (result.payload.indented ++ "\n")
  pure (if result.ok then 0 else 1)

/-- The command with its options; settings and sources that cannot be used are reported. -/
def perform (host : Host σ) (s : CommandSetting) (o : Options) : Action (Terminal σ) Nat := do
  match ← Action.attempt (inspect fun fs => Settings.load fs (o.override s.vars) none) with
  | .error (.settings e) => do
    setVerbose false
    logError e.message
    pure 1
  | .error e => Action.fail e
  | .ok settings => do
    setVerbose settings.debug
    match ← Action.attempt (inspect (subject s o settings)) with
    | .error (.source e) => do
      logError e.message
      pure 1
    | .error e => Action.fail e
    | .ok (script, version) => runScript host s settings script version

end CommandLine

end Replay
