import Replay.Settings

namespace Replay

structure ServiceSettings where
  gamesRoot : Path
  /-- The most bytes of a request; zero is no limit. -/
  sizeLimit : Int
  quota : Int
  /-- The seconds in which the quota holds. -/
  window : Int
  apiKeys : List Text
deriving DecidableEq

namespace ServiceSettings

def standardSizeLimit : Int := 64 * 1024

def standardQuota : Int := 20

def standardWindow : Int := 60

/-- The trimmed texts that are not blank. -/
def trimAll (texts : List Text) : List Text := (texts.map Text.trim).filter fun t => !t.isEmpty

/-- Of equal texts the first one stays. -/
def distinct (keys : List Text) : List Text :=
  keys.foldl (fun kept k => if kept.contains k then kept else kept ++ [k]) []

/-- Keys are the items of a JSON array, or else pieces between commas. -/
def readKeys (depth : Nat) (t : Option Text) : Except Failure (List Text) :=
  let t := (t.getD []).trim
  if Text.startsWith t "[" then
    match Json.read depth t with
    | .ok (.array items) => .ok (distinct (trimAll (items.map Json.plain)))
    | .ok _ => .ok []
    | .error e => if e.isSyntax then .ok [] else .error (.json e)
  else .ok (distinct (trimAll (Text.splitOn ',' t)))

/-- A variable that is no integer counts as unset. -/
def readInt (vars : Settings.Variables) (name : Text) (standard : Int) : Int :=
  ((vars.get? name).bind Text.toInt?).getD standard

def load (fs : FileSystem) (depth : Nat) (vars : Settings.Variables) (standardRoot : Path) :
    Except Failure ServiceSettings := do
  let root ← Settings.readPath fs vars "GAMES_ROOT" standardRoot
  let keys ← readKeys depth (vars.get? "X_API_KEYS")
  pure ⟨root, readInt vars "REQUEST_MAX_BYTES" standardSizeLimit,
    readInt vars "RATE_LIMIT_REQUESTS" standardQuota,
    readInt vars "RATE_LIMIT_WINDOW" standardWindow, keys⟩

end ServiceSettings

end Replay
