import Replay.Execution
import Replay.Label
import Replay.Machine

namespace Replay

structure Artifact where
  label : Text
  frame : Json
  path : Path
  width : Int
  height : Int

namespace Artifact

def payload (a : Artifact) : Json :=
  .object [("label", .text a.label), ("frame", a.frame), ("path", .text a.path.text),
    ("width", .int a.width), ("height", .int a.height)]

/-- Whether the numbers of a snapshot have a text. -/
def isShort (a : Artifact) : Bool :=
  a.frame.isShort && (Number.int a.width).isShort && (Number.int a.height).isShort

def fileName (number : Nat) (label : Text) : Text :=
  Text.padded 2 number ++ "-" ++ Label.fileName label ++ ".png"

/-- Decodes and writes one snapshot. -/
def save (directory : Path) (number : Nat) (c : LabelledSnapshot) : Action Machine Artifact := do
  let (bytes, size) ← Action.ofExcept
    ((Capture.decode Capture.byteLimit c.image).mapError Failure.ofCapture)
  let path := directory.child (fileName number c.label)
  Machine.update fun fs => fs.writeBytes path bytes
  pure ⟨c.label, c.frame, path, size.width, size.height⟩

/-- Saves snapshots one after the other, the first under the given number. -/
def saveFrom (directory : Path) (number : Nat) :
    List LabelledSnapshot → Action Machine (List Artifact)
  | [] => pure []
  | c :: rest => do
    let first ← save directory number c
    let others ← saveFrom directory (number + 1) rest
    pure (first :: others)

def saveAll (directory : Path) (captures : List LabelledSnapshot) :
    Action Machine (List Artifact) :=
  saveFrom directory 1 captures

end Artifact

end Replay
