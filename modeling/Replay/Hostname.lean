import Replay.Direction
import Replay.Lowercase
import Replay.Punycode
import Replay.ValueText

namespace Replay

/-- What is wrong with a label of a name. -/
inductive LabelError where
  | emptyOrLong
  | long
  /-- The label begins as encoded ones do, though it is not encoded. -/
  | encoded
  /-- A character that no name holds. -/
  | character (c : CodePoint)
  /-- The label is written in both directions. -/
  | mixed
  /-- The label is written from right to left but does not begin and end so. -/
  | inside
deriving DecidableEq

namespace LabelError

def reason : LabelError → Text
  | emptyOrLong => "label empty or too long"
  | long => "label too long"
  | encoded => "Label starts with ACE prefix"
  | character c => "Invalid character " ++ Json.shownText [c]
  | mixed => "Violation of BIDI requirement 2"
  | inside => "Violation of BIDI requirement 3"

def message (e : LabelError) : Text :=
  "encoding with 'idna' codec failed (UnicodeError: " ++ e.reason ++ ")"

end LabelError

namespace Hostname

/-- The most characters of a label. -/
def labelLimit : Nat := 63

/-- How encoded labels begin. -/
def encodedStart : Text := "xn--"

/-- Runs of code points that do not count in labels. -/
def ignoredRuns : List (Nat × Nat) := [
  (0xAD, 0xAD), (0x34F, 0x34F), (0x1806, 0x1806), (0x180B, 0x180D), (0x200B, 0x200D),
  (0x2060, 0x2060), (0xFE00, 0xFE0F), (0xFEFF, 0xFEFF)
]

/-- Runs of spaces, which all count as one. -/
def spaceRuns : List (Nat × Nat) := [
  (0xA0, 0xA0), (0x2000, 0x200A), (0x202F, 0x202F), (0x205F, 0x205F), (0x3000, 0x3000)
]

/-- Runs of code points that no label holds. -/
def refusedRuns : List (Nat × Nat) := [
  (0x80, 0x9F), (0x6DD, 0x6DD), (0x70F, 0x70F), (0x1680, 0x1680), (0x180E, 0x180E),
  (0x200E, 0x200F), (0x2028, 0x202E), (0x2061, 0x2063), (0x206A, 0x206F), (0x2FF0, 0x2FFB),
  (0xD800, 0xF8FF), (0xFDD0, 0xFDEF), (0xFFF9, 0xFFFF), (0x1D173, 0x1D17A), (0x1FFFE, 0x1FFFF),
  (0x2FFFE, 0x2FFFF), (0x3FFFE, 0x3FFFF), (0x4FFFE, 0x4FFFF), (0x5FFFE, 0x5FFFF),
  (0x6FFFE, 0x6FFFF), (0x7FFFE, 0x7FFFF), (0x8FFFE, 0x8FFFF), (0x9FFFE, 0x9FFFF),
  (0xAFFFE, 0xAFFFF), (0xBFFFE, 0xBFFFF), (0xCFFFE, 0xCFFFF), (0xDFFFE, 0xDFFFF),
  (0xE0001, 0xE0001), (0xE0020, 0xE007F), (0xEFFFE, 0x10FFFF)
]

/-- Letters that count as others beyond their case. -/
def variants : List (Nat × String) := [
  (0xAA, "a"), (0xB2, "2"), (0xB3, "3"), (0xB5, "μ"), (0xB9, "1"), (0xBA, "o"), (0xDF, "ss"),
  (0x132, "ij"), (0x133, "ij"), (0x17F, "s"), (0x3C2, "σ"), (0x1E9E, "ss"), (0x212A, "k"),
  (0x212B, "å"), (0xFB00, "ff"), (0xFB01, "fi"), (0xFB02, "fl"), (0xFB03, "ffi"), (0xFB04, "ffl"),
  (0xFB05, "st"), (0xFB06, "st")
]

/-- The wide forms of the visible ASCII characters, in the same order. -/
def isWide (c : CodePoint) : Bool := 0xFF01 ≤ c.val && c.val ≤ 0xFF5E

/-- What stands for a code point once a label is made uniform. -/
def uniform (c : CodePoint) : Text :=
  if c.isIn ignoredRuns then []
  else if c.isIn spaceRuns then " "
  else if isWide c then (CodePoint.ofNat (c.val - 0xFEE0)).lower
  else (variants.lookup c.val).elim c.lower fun t => t

/-- A label that is written from right to left is written so from end to end. -/
def checkDirection (label : Text) : Except LabelError Unit :=
  if !label.any CodePoint.isRightToLeft then .ok ()
  else if label.any CodePoint.isLeftToRight then .error .mixed
  else if label.head?.all CodePoint.isRightToLeft
      && label.getLast?.all CodePoint.isRightToLeft then .ok ()
  else .error .inside

def checkLength (label : Text) : Except LabelError Text :=
  if label.isEmpty || labelLimit < label.length then .error .emptyOrLong else .ok label

/-- A label in ASCII. -/
def encodeLabel (label : Text) : Except LabelError Text :=
  if label.all CodePoint.isAscii then checkLength label
  else do
    let label := label.flatMap uniform
    match label.find? fun c => c.isIn refusedRuns with
    | some c => .error (.character c)
    | none =>
      checkDirection label
      if label.all CodePoint.isAscii then checkLength label
      else if Text.startsWith label encodedStart then .error .encoded
      else checkLength (encodedStart ++ Punycode.encode label)

/-- The characters that count as dots. -/
def isDot (c : CodePoint) : Bool := [0x2E, 0x3002, 0xFF0E, 0xFF61].contains c.val

def dot : Text := "."

/-- Checks the labels of a name in ASCII. The last one may be empty. -/
def checkLabels : List Text → Except LabelError Unit
  | [] => .ok ()
  | [last] => if labelLimit < last.length then .error .long else .ok ()
  | label :: rest => do
    let _ ← checkLength label
    checkLabels rest

/-- A name in ASCII. A dot at its end stays. -/
def encode (name : Text) : Except LabelError Text :=
  if name.all CodePoint.isAscii then
    if name.isEmpty then .ok []
    else (checkLabels (List.splitOnP isDot name)).map fun _ => name
  else
    let labels := List.splitOnP isDot name
    let ends := labels.getLast?.any List.isEmpty
    let labels := if ends then labels.dropLast else labels
    (labels.mapM encodeLabel).map fun labels =>
      Text.join dot labels ++ (if ends then dot else [])

end Hostname

end Replay
