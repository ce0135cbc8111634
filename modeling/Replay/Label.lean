import Replay.Lowercase

namespace Replay

namespace Label

def hyphen : CodePoint := '-'

/-- The code points that a name keeps. -/
def isKept (c : CodePoint) : Bool :=
  c.isLower || c.isDigit || c = ('_' : CodePoint) || c = hyphen

/-- Other code points become hyphens, and of neighbouring hyphens one remains. -/
def hyphenate : Text → Text
  | [] => []
  | c :: rest =>
    let c := if isKept c then c else hyphen
    let name := hyphenate rest
    if c = hyphen && name.head? = some hyphen then name else c :: name

def isEdge (c : CodePoint) : Bool := c = hyphen || c = ('_' : CodePoint)

/-- The text without the hyphens and underscores at its ends. -/
def trimEdges (t : Text) : Text := ((t.dropWhile isEdge).reverse.dropWhile isEdge).reverse

/-- The part of a file name that a label gives; a label of nothing else gives `snap`. -/
def fileName (label : Text) : Text :=
  let name := trimEdges (hyphenate label.trim.lower)
  if name.isEmpty then "snap" else name

end Label

end Replay
