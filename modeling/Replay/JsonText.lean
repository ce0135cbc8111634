import Replay.Json

namespace Replay

namespace Json

/-- The escape of one unit of sixteen bits. -/
def unitEscape (n : Nat) : Text := "\\u" ++ Text.hex 4 n

/-- A code point inside quotation marks. -/
def escaped (c : CodePoint) : Text :=
  if c = ('"' : CodePoint) then "\\\""
  else if c = ('\\' : CodePoint) then "\\\\"
  else if c.val = 10 then "\\n"
  else if c.val = 13 then "\\r"
  else if c.val = 9 then "\\t"
  else if c.val = 12 then "\\f"
  else if c.val = 8 then "\\b"
  else if 32 ≤ c.val && c.val < 127 then [c]
  else if c.val < 0x10000 then unitEscape c.val
  else
    unitEscape (0xD800 + (c.val - 0x10000) / 0x400)
      ++ unitEscape (0xDC00 + (c.val - 0x10000) % 0x400)

def quoted (t : Text) : Text := "\"" ++ t.flatMap escaped ++ "\""

def numberText : Number → Text
  | .int n => Text.ofInt n
  | .real .nan => "NaN"
  | .real (.infinity false) => "Infinity"
  | .real (.infinity true) => "-Infinity"
  | .real x => x.text

def boolText (b : Bool) : Text := if b then "true" else "false"

def openBrace : Text := [CodePoint.ofNat 0x7B]

def closeBrace : Text := [CodePoint.ofNat 0x7D]

mutual

/-- The text on one line, with a space after each comma and colon. -/
def compact : Json → Text
  | null => "null"
  | bool b => boolText b
  | number n => numberText n
  | text t => quoted t
  | array items => "[" ++ compactItems items ++ "]"
  | object members => openBrace ++ compactMembers members ++ closeBrace

def compactItems : List Json → Text
  | [] => []
  | [item] => compact item
  | item :: rest => compact item ++ ", " ++ compactItems rest

def compactMembers : List (Text × Json) → Text
  | [] => []
  | [(name, value)] => quoted name ++ ": " ++ compact value
  | (name, value) :: rest => quoted name ++ ": " ++ compact value ++ ", " ++ compactMembers rest

end

mutual

/-- The members of all objects in the order of their names. -/
def sorted : Json → Json
  | array items => array (sortedItems items)
  | object members => object ((sortedMembers members).mergeSort fun a b => Text.le a.1 b.1)
  | value => value

def sortedItems : List Json → List Json
  | [] => []
  | item :: rest => sorted item :: sortedItems rest

def sortedMembers : List (Text × Json) → List (Text × Json)
  | [] => []
  | (name, value) :: rest => (name, sorted value) :: sortedMembers rest

end

mutual

/-- The text on one line without any spaces. -/
def tight : Json → Text
  | null => "null"
  | bool b => boolText b
  | number n => numberText n
  | text t => quoted t
  | array items => "[" ++ tightItems items ++ "]"
  | object members => openBrace ++ tightMembers members ++ closeBrace

def tightItems : List Json → Text
  | [] => []
  | [item] => tight item
  | item :: rest => tight item ++ "," ++ tightItems rest

def tightMembers : List (Text × Json) → Text
  | [] => []
  | [(name, value)] => quoted name ++ ":" ++ tight value
  | (name, value) :: rest => quoted name ++ ":" ++ tight value ++ "," ++ tightMembers rest

end

/-- A new line at a nesting depth; each level is two spaces. -/
def newline (depth : Nat) : Text :=
  "\n" ++ List.replicate (2 * depth) (CodePoint.ofChar ' ')

mutual

/-- The text with one item or member on each line; what is empty stays closed up. -/
def indentedAt (depth : Nat) : Json → Text
  | array [] => "[]"
  | object [] => openBrace ++ closeBrace
  | array items => "[" ++ indentedItems (depth + 1) items ++ newline depth ++ "]"
  | object members =>
    openBrace ++ indentedMembers (depth + 1) members ++ newline depth ++ closeBrace
  | null => "null"
  | bool b => boolText b
  | number n => numberText n
  | text t => quoted t

def indentedItems (depth : Nat) : List Json → Text
  | [] => []
  | [item] => newline depth ++ indentedAt depth item
  | item :: rest => newline depth ++ indentedAt depth item ++ "," ++ indentedItems depth rest

def indentedMembers (depth : Nat) : List (Text × Json) → Text
  | [] => []
  | [(name, value)] => newline depth ++ quoted name ++ ": " ++ indentedAt depth value
  | (name, value) :: rest =>
    newline depth ++ quoted name ++ ": " ++ indentedAt depth value ++ ","
      ++ indentedMembers depth rest

end

def indented (value : Json) : Text := indentedAt 0 value

end Json

end Replay
