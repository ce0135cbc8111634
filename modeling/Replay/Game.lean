import Replay.Failure

namespace Replay

namespace Game

def collection : Text := "games"

/-- The characters of an id after its first one. -/
def isIdPart (c : CodePoint) : Bool :=
  c.isAlphanum || c = ('_' : CodePoint) || c = ('-' : CodePoint)

def lineFeed : CodePoint := CodePoint.ofNat 10

/-- The text without a line feed at its end. -/
def withoutLineEnd (t : Text) : Text := if t.getLast? = some lineFeed then t.dropLast else t

/-- The most characters of an id. -/
def idLimit : Nat := 128

/-- Whether a text may be the id of a game version; a line feed at the end does no harm. -/
def isId (t : Text) : Bool :=
  match withoutLineEnd t with
  | [] => false
  | c :: rest => c.isAlphanum && rest.all isIdPart && decide (rest.length < idLimit)

/-- The directory that an id names below the root of all games. -/
def directory (root : Path) (id : Text) : Except RequestError Path :=
  if isId id then .ok (root.child id) else .error .badGameId

/-- What follows the last name `games`, if there is one and something follows it. -/
def afterCollection? : List Text → Option Text
  | [] => none
  | name :: rest =>
    match afterCollection? rest with
    | some found => some found
    | none => if name = collection && !rest.contains collection then rest.head? else none

/-- The version that a directory holds: the name after the last `games`, or else its own name. -/
def inferVersion (fs : FileSystem) (directory : Path) : Except Failure Text :=
  match fs.resolve directory with
  | .error e => .error (.file e)
  | .ok path =>
    match afterCollection? path.names with
    | some name => .ok name
    | none =>
      match path.names.getLast? with
      | some name => .ok name
      | none => .error (.source (.noGame directory))

end Game

end Replay
