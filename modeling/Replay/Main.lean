import Replay.Browser
import Replay.CommandLine
import Std.Time.DateTime

namespace Replay

namespace Shell

def nameOf (p : Path) : String := Text.toString p.text

/-- The bytes of a file, none for what is no file. -/
def bytesOf? (p : Path) : IO (Option Bytes) := do
  try
    let bytes ← IO.FS.readBinFile (nameOf p)
    return some bytes.toList
  catch _ => return none

def isDirectory (p : Path) : IO Bool := do
  try
    discard (IO.FS.realPath (nameOf p ++ "/."))
    return true
  catch _ => return false

/-- Takes up what the machine has at a path. -/
def load (fs : FileSystem) (p : Path) : IO FileSystem := do
  if ← isDirectory p then return fs.putDirectories [] p.names
  match ← bytesOf? p with
  | some bytes => return fs.putFile p.names bytes
  | none => if ← isDirectory p.parent then return fs.putDirectories [] p.parent.names else return fs

def loadAll (fs : FileSystem) (paths : List Path) : IO FileSystem := paths.foldlM load fs

/-- Leaves on the machine what is new in a tree, or changed. -/
def save (before after : FileSystem) : IO Unit :=
  after.nodes.forM fun (l, node) => do
    let name := nameOf (Path.ofLocation l)
    match node with
    | .directory => if (before.node? l).isNone then IO.FS.createDirAll name
    | .file bytes =>
      if before.node? l != some node then IO.FS.writeBinFile name (ByteArray.mk bytes.toArray)

/-- The variables that the runner reads, as far as they are set. -/
def environment : IO Settings.Variables := do
  let names := [Settings.gameRootName, Settings.harnessName, Settings.outputName,
    Settings.showBrowserName, Settings.debugName, Settings.timeoutName]
  names.filterMapM fun name => do
    let value ← IO.getEnv (Text.toString name)
    return value.map fun t => (name, Text.ofString t)

def homes : IO (Text → Option Text) := do
  let home ← IO.getEnv "HOME"
  return fun user => if user.isEmpty then home.map Text.ofString else none

/-- The days from the start of year one to the epoch of the machine's clock. -/
def epoch : Int := Calendar.dayNumber 1970 1 1

def now : IO Moment := do
  let t ← Std.Time.Timestamp.now
  let micro := (epoch * 86400 + t.val.second.val) * 1000000 + t.val.nano.val / 1000
  return (Moment.ofMicroseconds? micro).getD default

/-- The input of the program; it is read only if the script comes from there. -/
def input (o : Options) : IO Input := do
  let stdin ← IO.getStdin
  let terminal ← stdin.isTty
  if ScriptSource.ofOptions o terminal = .input then
    let bytes ← stdin.readBinToEnd
    return ⟨Utf8.decode bytes.toList, terminal⟩
  else return ⟨.ok [], terminal⟩

/-- The paths that settings point to. -/
def pathsOf (s : Settings) : List Path := [s.gameRoot, s.harness, s.outputRoot]

/-- The tree as far as a run with these options may look at it. -/
def files (o : Options) (vars : Settings.Variables) : IO FileSystem := do
  let here := Path.ofText (Text.ofString (toString (← IO.currentDir)))
  let empty : FileSystem := ⟨[], here.names, ← homes, fun _ _ => none⟩
  let named := o.script.text?.toList ++ (o.override vars).map Prod.snd
  let paths := named.filterMap fun t => (Settings.absolute empty (Path.ofText t)).toOption
  let fs ← loadAll empty (here :: paths)
  match Settings.load fs (o.override vars) none with
  | .ok settings => loadAll fs (pathsOf settings)
  | .error _ => return fs

def page : PageRehearsal := ⟨.text Capture.pointUrl, [], []⟩

/-- How many arrays and objects inside each other the readers of scripts have room for. -/
def depth : Nat := 989

def standstill (_ : Nat) : Number := .int 0

def run (o : Options) : IO UInt32 := do
  let vars ← environment
  let before ← files o vars
  let moment ← now
  let machine : Machine := ⟨before, .ofReadings fun _ => moment⟩
  let start : Terminal PageStage := ⟨⟨⟨.int 0, []⟩, machine, []⟩, .empty⟩
  let setting : CommandSetting := ⟨vars, ← input o, depth, standstill, standstill⟩
  let (outcome, t) := CommandLine.perform (BrowserHost.host page.browser .standard) setting o start
  save before t.session.machine.files
  t.console.errors.forM fun e => IO.eprintln (Text.toString e)
  IO.print (Text.toString t.console.output)
  match outcome with
  | .ok status => return status.toUInt32
  | .error e => do
    IO.eprintln (Text.toString e.message)
    return 1

end Shell

end Replay

def main (arguments : List String) : IO UInt32 := do
  match Replay.Options.read (arguments.map Replay.Text.ofString) with
  | .ok o => Replay.Shell.run o
  | .error e => do
    match e with
    | .usage u => IO.eprintln ("error: " ++ Replay.Text.toString u.message)
    | .help => IO.println (Replay.Text.toString Replay.SourceError.usage)
    return e.status.toUInt32
