import Replay.Bytes
import Replay.Json
import Replay.Printable

namespace Replay

namespace Json

/-- A code point inside quotation marks of the given kind. -/
def shown (mark c : CodePoint) : Text :=
  if c = mark || c = ('\\' : CodePoint) then [CodePoint.ofChar '\\', c]
  else if c.val = 10 then "\\n"
  else if c.val = 13 then "\\r"
  else if c.val = 9 then "\\t"
  else if c.isPrintable then [c]
  else if c.val < 0x100 then "\\x" ++ Text.hex 2 c.val
  else if c.val < 0x10000 then "\\u" ++ Text.hex 4 c.val
  else "\\U" ++ Text.hex 8 c.val

/-- Double quotes are used for a text with single quotes only. -/
def markOf (t : Text) : CodePoint :=
  let single := CodePoint.ofChar '\''
  let double := CodePoint.ofChar '"'
  if t.contains single && !t.contains double then double else single

def shownText (t : Text) : Text := [markOf t] ++ t.flatMap (shown (markOf t)) ++ [markOf t]

/-- Bytes as a text with a letter ahead; those that are not ASCII are escaped. -/
def shownBytes (bytes : Bytes) : Text :=
  let mark := markOf (Bytes.latin bytes)
  "b" ++ [mark] ++ bytes.flatMap (fun b =>
    if b < 0x80 then shown mark (CodePoint.ofNat b.toNat) else "\\x" ++ Text.hex 2 b.toNat)
    ++ [mark]

mutual

/-- The form of a value inside another one. -/
def nested : Json → Text
  | null => "None"
  | bool b => if b then "True" else "False"
  | number n => n.text
  | text t => shownText t
  | array items => "[" ++ nestedItems items ++ "]"
  | object members => [CodePoint.ofNat 0x7B] ++ nestedMembers members ++ [CodePoint.ofNat 0x7D]

def nestedItems : List Json → Text
  | [] => []
  | [item] => nested item
  | item :: rest => nested item ++ ", " ++ nestedItems rest

def nestedMembers : List (Text × Json) → Text
  | [] => []
  | [(name, value)] => shownText name ++ ": " ++ nested value
  | (name, value) :: rest => shownText name ++ ": " ++ nested value ++ ", " ++ nestedMembers rest

end

/-- The form of a value on its own: a text stands without quotes. -/
def plain : Json → Text
  | text t => t
  | value => nested value

mutual

/-- Whether all numbers in a value have a text. -/
def isShort : Json → Bool
  | number n => n.isShort
  | array items => isShortItems items
  | object members => isShortMembers members
  | _ => true

def isShortItems : List Json → Bool
  | [] => true
  | item :: rest => isShort item && isShortItems rest

def isShortMembers : List (Text × Json) → Bool
  | [] => true
  | (_, value) :: rest => isShort value && isShortMembers rest

end

/-- The form of a value on its own, unless an integer in it has too many digits. -/
def shortPlain (value : Json) : Except NumberError Text :=
  if value.isShort then .ok value.plain else .error .tooManyDigits

end Json

end Replay
