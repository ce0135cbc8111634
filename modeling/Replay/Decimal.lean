import Replay.Double

namespace Replay

namespace Double

/-- The largest number of decimal digits a double needs to be read back. -/
def enoughDigits : Nat := 17

/-- The magnitudes, in quarter units, that are read as the double of magnitude `units`. -/
structure Neighbourhood where
  low : Nat
  high : Nat
  closed : Bool

/-- Half the gap to either neighbour is taken in; the ends belong to an even significand. -/
def neighbourhood (units : Nat) : Neighbourhood :=
  let step := spacing units
  let gapBelow := if 1 < step && units = 2 ^ Nat.log2 units then step / 2 else step
  ⟨4 * units - 2 * gapBelow, 4 * units + 2 * step, units / step % 2 = 0⟩

def Neighbourhood.holds (n : Neighbourhood) (scale quarters : Nat) : Bool :=
  if n.closed then n.low * scale ≤ quarters && quarters ≤ n.high * scale
  else n.low * scale < quarters && quarters < n.high * scale

/-- The place of the first decimal digit: `10 ^ (p - 1) ≤ units / one < 10 ^ p`. -/
def leadingPlace (units : Nat) : Int :=
  if one ≤ units then (Nat.toDigits 10 (units / one)).length
  else
    let guess := (1074 - Nat.log2 units) * 30103 / 100000
    let rec find (fuel e : Nat) : Int :=
      match fuel with
      | 0 => 1 - e
      | fuel + 1 => if one ≤ units * 10 ^ e then 1 - e else find fuel (e + 1)
    find 4 (guess - 1)

/-- Of the two neighbours with `count` digits, the nearer one that is read back, if any is. -/
def withDigits? (units count : Nat) (place : Int) : Option (Nat × Int) :=
  let exponent := place - count
  let up := 10 ^ exponent.toNat
  let down := 10 ^ (-exponent).toNat
  let below := units * down / (one * up)
  let area := neighbourhood units
  let reads (digits : Nat) := area.holds down (4 * digits * one * up)
  let nearest := roundDiv (units * down) (one * up)
  let other := if nearest = below then below + 1 else below
  if reads nearest then some (nearest, exponent)
  else if reads other then some (other, exponent)
  else none

/-- Trailing zeros move into the exponent. -/
def withoutZeros : Nat → Nat → Int → Nat × Int
  | 0, digits, exponent => (digits, exponent)
  | fuel + 1, digits, exponent =>
    if digits % 10 = 0 && digits ≠ 0 then withoutZeros fuel (digits / 10) (exponent + 1)
    else (digits, exponent)

/-- The fewest digits, with the exponent of the last one, that read back as the magnitude. -/
def shortest (units : Nat) : Nat × Int :=
  let place := leadingPlace units
  match (List.range' 1 enoughDigits).findSome? (withDigits? units · place) with
  | some (digits, exponent) => withoutZeros 20 digits exponent
  | none => (0, 0)

/-- Numbers from `0.0001` up to sixteen whole digits are written without an exponent. -/
def magnitudeText (units : Nat) : Text :=
  if units = 0 then "0.0"
  else
    let (digits, exponent) := shortest units
    let text := Text.ofNat digits
    let point : Int := text.length + exponent
    if -4 < point && point ≤ 16 then
      if 0 ≤ exponent then text ++ List.replicate exponent.toNat ('0' : CodePoint) ++ ".0"
      else if point ≤ 0 then "0." ++ List.replicate (-point).toNat ('0' : CodePoint) ++ text
      else text.take point.toNat ++ "." ++ text.drop point.toNat
    else
      let power := point - 1
      let mantissa := if text.length = 1 then text else text.take 1 ++ "." ++ text.drop 1
      mantissa ++ (if power < 0 then "e-" else "e+") ++ Text.padded 2 power.natAbs

def signText (negative : Bool) : Text := if negative then "-" else ""

/-- The shortest text that reads back; a whole number keeps one zero after the point. -/
def text : Double → Text
  | nan => "nan"
  | infinity s => signText s ++ "inf"
  | finite s u => signText s ++ magnitudeText u

/-- The text with `places` digits after the point, a half rounded to the even neighbour. -/
def fixed (places : Nat) : Double → Text
  | nan => "nan"
  | infinity s => signText s ++ "inf"
  | finite s u =>
    let scaled := Text.padded (places + 1) (roundDiv (u * 10 ^ places) one)
    let whole := scaled.length - places
    signText s ++ scaled.take whole ++ "." ++ scaled.drop whole

/-- The double nearest to the value rounded to `places` decimal places. -/
def rounded (places : Nat) : Double → Double
  | finite s u => ofFraction s (roundDiv (u * 10 ^ places) one) (10 ^ places)
  | x => x

end Double

end Replay
