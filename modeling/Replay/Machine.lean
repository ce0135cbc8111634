import Replay.Action
import Replay.Clock

namespace Replay

structure Machine where
  files : FileSystem
  now : Clock Moment

namespace Machine

def readClock : Action Machine Moment := fun m =>
  let (moment, clock) := m.now.next
  (.ok moment, { m with now := clock })

/-- Looks at the files without changing them. -/
def inspect {α : Type} (f : FileSystem → Except FileError α) : Action Machine α := fun m =>
  ((f m.files).mapError Failure.file, m)

/-- Changes the files, or leaves them as they are if that fails. -/
def update (f : FileSystem → Except FileError FileSystem) : Action Machine Unit := fun m =>
  match f m.files with
  | .ok files => (.ok (), { m with files })
  | .error e => (.error (.file e), m)

/-- Changes the files, also if that fails. -/
def alter (f : FileSystem → Except FileError Unit × FileSystem) : Action Machine Unit := fun m =>
  match f m.files with
  | (r, files) => (r.mapError Failure.file, { m with files })

/-- Makes a new directory for a run, named for the present moment. -/
def makeRunDirectory (root : Path) : Action Machine Path := do
  let root ← inspect fun fs => fs.resolve root
  let moment ← readClock
  let directory := root.child moment.directoryName
  alter fun fs => fs.makeDirectories directory
  pure directory

end Machine

end Replay
