import Replay.Text

namespace Replay

/-- The names on the way from the root of the file system. -/
abbrev Location := List Text

/-- A path is relative without a leading slash. -/
structure Path where
  slashes : Nat
  names : List Text
deriving DecidableEq

namespace Path

def dots : Text := ".."

def slash : CodePoint := '/'

/-- The mark of a home directory. -/
def tilde : CodePoint := '~'

def ofText (t : Text) : Path :=
  let leading := (t.takeWhile (· = slash)).length
  let slashes := if leading = 2 then 2 else min leading 1
  ⟨slashes, (Text.splitOn slash t).filter fun name => !name.isEmpty && name != "."⟩

def isAbsolute (p : Path) : Bool := p.slashes != 0

def ofLocation (l : Location) : Path := ⟨1, l⟩

/-- The path that names nothing is written as a dot. -/
def text (p : Path) : Text :=
  if p.slashes = 0 && p.names.isEmpty then "."
  else List.replicate p.slashes slash ++ Text.join "/" p.names

/-- An absolute second path replaces the first one. -/
def append (p q : Path) : Path :=
  if q.isAbsolute then q else ⟨p.slashes, p.names ++ q.names⟩

instance : Append Path := ⟨append⟩

/-- The path of an entry of the directory. -/
def child (p : Path) (name : Text) : Path := ⟨p.slashes, p.names ++ [name]⟩

/-- The last name, if there is one. -/
def name (p : Path) : Text := p.names.getLast?.getD []

def parent (p : Path) : Path := ⟨p.slashes, p.names.dropLast⟩

/-- The user whose home directory the path starts from: the empty name is the present user. -/
def homeUser? (p : Path) : Option Text :=
  if p.isAbsolute then none
  else
    match p.names with
    | (mark :: user) :: _ => if mark = tilde then some user else none
    | _ => none

end Path

end Replay
