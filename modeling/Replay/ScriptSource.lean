import Replay.Options

namespace Replay

/-- What reading the input gives, and whether a person sits there. The bytes at the input may be
none of a text. -/
structure Input where
  content : Except Utf8Error Text
  terminal : Bool

inductive ScriptSource where
  | smoke
  | input
  | file (name : Text)
  | argument (t : Text)
  /-- The option for the argument was given without any. -/
  | blank
  | nowhere
deriving DecidableEq

namespace ScriptSource

/-- The source that the options select; without any, the input is read unless a person sits
there. -/
def ofOptions (o : Options) (terminal : Bool) : ScriptSource :=
  if o.smoke then smoke
  else if o.stdin then input
  else
    match o.script.text?, o.json with
    | some name, _ => file name
    | none, .given t => argument t
    | none, .blank => blank
    | none, .absent => if terminal then nowhere else input

/-- Reads a JSON text; what makes it no JSON is told in the words of the source. -/
def parse (depth : Nat) (t : Text) (blame : JsonError → SourceError) : Except Failure Json :=
  match Json.read depth t with
  | .ok value => .ok value
  | .error e => .error (if e.isSyntax then .source (blame e) else .json e)

def readFile (fs : FileSystem) (depth : Nat) (name : Text) : Except Failure Json := do
  let path ← Settings.absolute fs (Path.ofText name)
  match fs.readText path with
  | .ok t => parse depth t fun _ => .fileNotJson path
  | .error (.access .missing _) => .error (.source (.fileMissing path))
  | .error e => .error (.file e)

def readInput (depth : Nat) : Except Utf8Error Text → Except Failure Json
  | .error e => .error (.file (.undecodable e))
  | .ok t =>
    let t := t.trim
    if t.isEmpty then .error (.source .inputMissing) else parse depth t .inputNotJson

/-- The script that a source gives to a reader of so many levels. -/
def read (fs : FileSystem) (depth : Nat) (content : Except Utf8Error Text) :
    ScriptSource → Except Failure Json
  | smoke => .ok Script.smoke.payload
  | input => readInput depth content
  | file name => readFile fs depth name
  | argument t => parse depth t .argumentNotJson
  | blank => .error .notText
  | nowhere => .error (.source .noSource)

end ScriptSource

end Replay
