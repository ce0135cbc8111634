import Replay.ValueText

namespace Replay

/-- The zeros of the decimal digits of Unicode 14; each is followed by its other nine digits. -/
def digitZeros : List Nat := [
  0x30, 0x660, 0x6F0, 0x7C0, 0x966, 0x9E6, 0xA66, 0xAE6, 0xB66, 0xBE6, 0xC66, 0xCE6, 0xD66,
  0xDE6, 0xE50, 0xED0, 0xF20, 0x1040, 0x1090, 0x17E0, 0x1810, 0x1946, 0x19D0, 0x1A80, 0x1A90,
  0x1B50, 0x1BB0, 0x1C40, 0x1C50, 0xA620, 0xA8D0, 0xA900, 0xA9D0, 0xA9F0, 0xAA50, 0xABF0,
  0xFF10, 0x104A0, 0x10D30, 0x11066, 0x110F0, 0x11136, 0x111D0, 0x112F0, 0x11450, 0x114D0,
  0x11650, 0x116C0, 0x11730, 0x118E0, 0x11950, 0x11C50, 0x11D50, 0x11DA0, 0x16A60, 0x16AC0,
  0x16B50, 0x1D7CE, 0x1D7D8, 0x1D7E2, 0x1D7EC, 0x1D7F6, 0x1E140, 0x1E2F0, 0x1E950, 0x1FBF0
]

def CodePoint.digitValue? (c : CodePoint) : Option Nat :=
  if c.isDigit then some (c.val - 48)
  else if c.isAscii then none
  else (digitZeros.find? fun z => z ≤ c.val && c.val ≤ z + 9).map (c.val - ·)

/-- Why a text is not read as an integer. -/
inductive IntegerError where
  | malformed (t : Text)
  | tooManyDigits (count : Nat)
deriving DecidableEq

namespace IntegerError

/-- The most characters of a text that a message shows. -/
def shownLimit : Nat := 200

def message : IntegerError → Text
  | malformed t => "invalid literal for int() with base 10: " ++ (Json.shownText t).take shownLimit
  | tooManyDigits count => digitsMessage (some count)

end IntegerError

namespace Text

/-- White space around a number; the four separators of ASCII do not count as such. -/
def isNumberBlank (c : CodePoint) : Bool := c.isBlank && !(28 ≤ c.val && c.val ≤ 31)

def trimNumber (t : Text) : Text :=
  ((t.dropWhile isNumberBlank).reverse.dropWhile isNumberBlank).reverse

/-- Reads digits after those already read: their value, their number, and what follows them. An
underscore stands between two digits. -/
def readDigits : Text → (value count : Nat) → Option (Nat × Nat × Text)
  | [], value, count => some (value, count, [])
  | c :: rest, value, count =>
    match c.digitValue? with
    | some d => readDigits rest (10 * value + d) (count + 1)
    | none =>
      if c = ('_' : CodePoint) then
        if (rest.head?.bind CodePoint.digitValue?).isSome then readDigits rest value count else none
      else some (value, count, c :: rest)

/-- Whether a text starts with a digit. -/
def startsWithDigit (t : Text) : Bool := (t.head?.bind CodePoint.digitValue?).isSome

/-- A minus or plus sign in front, and what follows it. -/
def readSign : Text → Bool × Text
  | c :: rest =>
    if c = ('-' : CodePoint) then (true, rest)
    else if c = ('+' : CodePoint) then (false, rest)
    else (false, c :: rest)
  | [] => (false, [])

/-- Reads an integer. The number of digits is judged before what follows them. -/
def readInt (t : Text) : Except IntegerError Int :=
  let (negative, digits) := readSign (trimNumber t)
  match if startsWithDigit digits then readDigits digits 0 0 else none with
  | none => .error (.malformed t)
  | some (value, count, rest) =>
    if digitLimit < count then .error (.tooManyDigits count)
    else if rest.isEmpty then .ok (if negative then -(value : Int) else value)
    else .error (.malformed t)

def toInt? (t : Text) : Option Int := (readInt t).toOption

end Text

end Replay
