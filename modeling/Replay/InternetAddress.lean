import Replay.Text

namespace Replay

namespace InternetAddress

/-- Whether a text is the decimal form of a byte. -/
def isByte (t : Text) : Bool :=
  !t.isEmpty && t.length ≤ 3 && t.all CodePoint.isDigit
    && (t.length = 1 || t.head? != some ('0' : CodePoint))
    && t.foldl (fun n c => 10 * n + (c.val - 48)) 0 ≤ 255

/-- Whether a text is an address of four bytes. -/
def isShort (t : Text) : Bool :=
  let bytes := Text.splitOn '.' t
  bytes.length = 4 && bytes.all isByte

def isGroup (t : Text) : Bool :=
  !t.isEmpty && t.length ≤ 4 && t.all fun c => c.hexValue?.isSome

def zeroGroup : Text := "0"

/-- The groups of an address, where two stand for four bytes at the end. -/
def groups? (t : Text) : Option (List Text) :=
  let groups := Text.splitOn ':' t
  if groups.length < 3 then none
  else
    match groups.getLast? with
    | some last =>
      if !last.contains ('.' : CodePoint) then some groups
      else if isShort last then some (groups.dropLast ++ [zeroGroup, zeroGroup])
      else none
    | none => none

/-- Whether the groups on one side of those left out are sound; the outermost may be empty if it is
the only one. -/
def isSide (groups : List Text) : Bool := groups = [[]] || groups.all isGroup

/-- The number of groups on one side of those left out. -/
def sideSize (groups : List Text) : Nat := (groups.filter fun g => !g.isEmpty).length

/-- Whether groups are an address, given those before and after the first empty one inside. -/
def isLongWithout (before after : List Text) : Bool :=
  isSide before && isSide after && sideSize before + sideSize after < 8

/-- Splits groups at the first empty one that has a group on each side. -/
def splitInside (groups : List Text) : Option (List Text × List Text) :=
  match groups with
  | [] => none
  | first :: rest =>
    match rest.dropLast.span fun g => !g.isEmpty with
    | (_, []) => none
    | (before, _ :: _) => some (first :: before, rest.drop (before.length + 1))

/-- Whether a text is an address of eight groups. The name of a network may follow it. -/
def isLong (t : Text) : Bool :=
  let (address, zone) := Text.cut '%' t
  let zoned := zone.all fun z => !z.isEmpty && !z.contains ('%' : CodePoint)
  zoned &&
    match groups? address with
    | none => false
    | some groups =>
      groups.length ≤ 9 &&
        match splitInside groups with
        | none => groups.length = 8 && groups.all isGroup
        | some (before, after) => isLongWithout before after

end InternetAddress

end Replay
