import Replay.Arguments
import Replay.Settings

namespace Replay

/-- At most one of the sources of the script is given. -/
structure Options where
  smoke : Bool
  script : OptionValue
  json : OptionValue
  stdin : Bool
  gameRoot : OptionValue
  outputDir : OptionValue
  harness : OptionValue
  showBrowser : Bool
  debug : Bool

namespace Options

def smokeOption : OptionSpec := ⟨["--smoke"], .flag, true⟩

def scriptOption : OptionSpec := ⟨["--script"], .value, true⟩

def jsonOption : OptionSpec := ⟨["--json"], .value, true⟩

def stdinOption : OptionSpec := ⟨["--stdin"], .flag, true⟩

def gameRootOption : OptionSpec := ⟨["--game-root"], .value, false⟩

def outputDirOption : OptionSpec := ⟨["--output-dir"], .value, false⟩

def harnessOption : OptionSpec := ⟨["--harness"], .value, false⟩

def showBrowserOption : OptionSpec := ⟨["--show-browser"], .flag, false⟩

def debugOption : OptionSpec := ⟨["--debug"], .flag, false⟩

def table : ArgumentTable :=
  ⟨[.help, smokeOption, scriptOption, jsonOption, stdinOption, gameRootOption, outputDirOption,
    harnessOption, showBrowserOption, debugOption], none⟩

def read (arguments : List Text) : Except EarlyExit Options := do
  let r ← Arguments.read table arguments
  pure ⟨r.has smokeOption, r.value scriptOption, r.value jsonOption, r.has stdinOption,
    r.value gameRootOption, r.value outputDirOption, r.value harnessOption,
    r.has showBrowserOption, r.has debugOption⟩

/-- Puts the value of an option, if it has one, in place of a variable. -/
def putValue (vars : Settings.Variables) (name : Text) (value : OptionValue) :
    Settings.Variables :=
  match value.text? with
  | some t => vars.put name t
  | none => vars

def putFlag (vars : Settings.Variables) (name : Text) (given : Bool) : Settings.Variables :=
  if given then vars.put name "1" else vars

/-- Options go before variables. -/
def override (o : Options) (vars : Settings.Variables) : Settings.Variables :=
  let vars := putValue vars Settings.gameRootName o.gameRoot
  let vars := putValue vars Settings.outputName o.outputDir
  let vars := putValue vars Settings.harnessName o.harness
  let vars := putFlag vars Settings.showBrowserName o.showBrowser
  putFlag vars Settings.debugName o.debug

end Options

end Replay
