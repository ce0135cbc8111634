import Replay.Integer
import Replay.Lowercase

namespace Replay

namespace Text

/-- Digits, where there are any, after those already read. -/
def digitsFrom (t : Text) (value : Nat) : Option (Nat × Nat × Text) :=
  if startsWithDigit t then readDigits t value 0 else some (value, 0, t)

/-- The digits of a number without its decimal point, and how many stand after the point. -/
def readFraction (t : Text) : Option (Nat × Nat × Text) := do
  let (whole, count, rest) ← digitsFrom t 0
  let (value, places, rest) ←
    match rest with
    | c :: more => if c = ('.' : CodePoint) then digitsFrom more whole else some (whole, 0, rest)
    | [] => some (whole, 0, [])
  if count + places = 0 then none else some (value, places, rest)

/-- A power of ten after the letter for it. -/
def readExponent (t : Text) : Option Int :=
  match t with
  | [] => some 0
  | c :: rest =>
    let (negative, digits) := readSign rest
    if (c = ('e' : CodePoint) || c = ('E' : CodePoint)) && startsWithDigit digits then
      match readDigits digits 0 0 with
      | some (n, _, []) => some (if negative then -(n : Int) else n)
      | _ => none
    else none

/-- Reads a real number. -/
def toDouble? (t : Text) : Option Double :=
  let (negative, t) := readSign (trimNumber t)
  let name := t.lower
  if name = "inf" || name = "infinity" then some (.infinity negative)
  else if name = "nan" then some .nan
  else do
    let (digits, places, rest) ← readFraction t
    let exponent ← readExponent rest
    pure (Double.ofDecimal negative digits (exponent - places))

end Text

end Replay
