import Replay.Integer
import Replay.Lowercase
import Replay.Machine

namespace Replay

structure Settings where
  gameRoot : Path
  harness : Path
  outputRoot : Path
  showBrowser : Bool
  debug : Bool
  /-- The time limit of the browser in milliseconds. -/
  timeout : Int
  browserArgs : List Text

namespace Settings

/-- Variables with their values. -/
abbrev Variables := Members Text

def gameRootName : Text := "HEADLESS_GAME_ROOT"

def harnessName : Text := "HEADLESS_HARNESS_PATH"

def outputName : Text := "HEADLESS_OUTPUT_DIR"

def showBrowserName : Text := "HEADLESS_SHOW_BROWSER"

def debugName : Text := "HEADLESS_DEBUG"

def timeoutName : Text := "HEADLESS_BROWSER_TIMEOUT_MS"

def standardHarness : Path := Path.ofText "dist/headless-harness.js"

def standardOutput : Path := Path.ofText "snapshots"

def standardTimeout : Int := 30000

/-- Arguments for a browser that draws without a graphics card. -/
def standardArgs : List Text :=
  ["--use-gl=angle", "--use-angle=swiftshader", "--enable-webgl", "--ignore-gpu-blocklist",
    "--enable-unsafe-swiftshader"]

/-- The value of a variable, unless it is blank. -/
def value? (vars : Variables) (name : Text) : Option Text :=
  match vars.get? name with
  | some t => if t.trim.isEmpty then none else some t
  | none => none

/-- The absolute path that a text names. -/
def absolute (fs : FileSystem) (p : Path) : Except Failure Path :=
  match FileSystem.homeError? p, fs.expandHome? p with
  | some e, _ => .error (.file e)
  | none, none => .error .homeUnknown
  | none, some p => (fs.resolve p).mapError Failure.file

/-- A directory that exists; without one the working directory is taken. -/
def readDirectory (fs : FileSystem) (vars : Variables) (name : Text) : Except Failure Path :=
  match value? vars name with
  | none => .ok (Path.ofLocation fs.cwd)
  | some t => do
    let path ← absolute fs (Path.ofText t.trim)
    if !(← (fs.hasNode path).mapError Failure.file) then throw (.settings (.missing name path))
    if !(← (fs.isDirectory path).mapError Failure.file) then
      throw (.settings (.notDirectory name path))
    pure path

def readPath (fs : FileSystem) (vars : Variables) (name : Text) (standard : Path) :
    Except Failure Path :=
  match value? vars name with
  | none => .ok standard
  | some t => absolute fs (Path.ofText t.trim)

def trueWords : List Text := ["1", "true", "yes", "on"]

def falseWords : List Text := ["0", "false", "no", "off"]

def readBool (vars : Variables) (name : Text) : Except Failure Bool :=
  match value? vars name with
  | none => .ok false
  | some t =>
    let word := t.trim.lower
    if trueWords.contains word then .ok true
    else if falseWords.contains word then .ok false
    else .error (.settings (.notBoolean name))

def readPositive (vars : Variables) (name : Text) (standard : Int) : Except Failure Int :=
  match value? vars name with
  | none => .ok standard
  | some t =>
    match t.toInt? with
    | none => .error (.settings (.notInteger name))
    | some n => if n ≤ 0 then .error (.settings (.notPositive name)) else .ok n

/-- Reads the settings; a game directory that is given goes before the variable. -/
def load (fs : FileSystem) (vars : Variables) (gameRoot : Option Path) :
    Except Failure Settings := do
  let root ← match gameRoot with
    | some path => pure path
    | none => readDirectory fs vars gameRootName
  let root ← absolute fs root
  let harness ← readPath fs vars harnessName (root ++ standardHarness)
  let output ← readPath fs vars outputName (root ++ standardOutput)
  let showBrowser ← readBool vars showBrowserName
  let debug ← readBool vars debugName
  let timeout ← readPositive vars timeoutName standardTimeout
  pure ⟨root, harness, output, showBrowser, debug, timeout, standardArgs⟩

/-- The source of the harness. -/
def readHarness (s : Settings) (fs : FileSystem) : Except Failure Text := do
  if !(← (fs.isFile s.harness).mapError Failure.file) then
    throw (.settings (.harnessMissing s.harness))
  (fs.readText s.harness).mapError Failure.file

end Settings

end Replay
