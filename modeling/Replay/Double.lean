import Replay.Text

namespace Replay

/-- A finite double is a sign and a magnitude in units of `2 ^ -1074`. -/
inductive Double where
  | nan
  | infinity (negative : Bool)
  | finite (negative : Bool) (units : Nat)
deriving DecidableEq

namespace Double

/-- The number of units in one. -/
def one : Nat := 2 ^ 1074

/-- No finite double reaches this magnitude. -/
def overflow : Nat := 2 ^ 2098

/-- The quotient to the nearest integer, a half to the even one. -/
def roundDiv (num den : Nat) : Nat :=
  let q := num / den
  let r := num % den
  if 2 * r < den then q
  else if den < 2 * r then q + 1
  else if q % 2 = 0 then q else q + 1

/-- The spacing of doubles of the magnitude `units`: 53 significant bits are kept. -/
def spacing (units : Nat) : Nat := 2 ^ (Nat.log2 units - 52)

/-- The double nearest to a magnitude of `num / den` units, a half to the even one. -/
def ofUnits (negative : Bool) (num den : Nat) : Double :=
  let step := spacing (num / den)
  let units := roundDiv num (den * step) * step
  if units < overflow then finite negative units else infinity negative

/-- The double nearest to the fraction `num / den`. -/
def ofFraction (negative : Bool) (num den : Nat) : Double := ofUnits negative (num * one) den

/-- The signed magnitude of a finite double. -/
def signed (negative : Bool) (units : Nat) : Int := if negative then -(units : Int) else units

def isFinite : Double → Bool
  | finite _ _ => true
  | _ => false

/-- The double nearest to an integer, unless it is out of range. -/
def ofInt? (n : Int) : Option Double :=
  let x := ofFraction (n < 0) n.natAbs 1
  if x.isFinite then some x else none

def zero : Double := finite false 0

/-- A finite double without a fractional part. -/
def isInteger : Double → Bool
  | finite _ u => u % one = 0
  | _ => false

def neg : Double → Double
  | nan => nan
  | infinity s => infinity (!s)
  | finite s u => finite (!s) u

/-- A sum that vanishes is negative only if both terms are. -/
def add : Double → Double → Double
  | nan, _ => nan
  | _, nan => nan
  | infinity s, infinity t => if s = t then infinity s else nan
  | infinity s, finite _ _ => infinity s
  | finite _ _, infinity t => infinity t
  | finite s u, finite t v =>
    let sum := signed s u + signed t v
    if sum = 0 then finite (s && t) 0 else ofUnits (sum < 0) sum.natAbs 1

def sub (x y : Double) : Double := add x (neg y)

def mul : Double → Double → Double
  | nan, _ => nan
  | _, nan => nan
  | infinity s, infinity t => infinity (s != t)
  | infinity s, finite t v => if v = 0 then nan else infinity (s != t)
  | finite s u, infinity t => if u = 0 then nan else infinity (s != t)
  | finite s u, finite t v => ofUnits (s != t) (u * v) one

/-- Numerical order; a NaN is below nothing and above nothing. -/
def lt : Double → Double → Bool
  | nan, _ => false
  | _, nan => false
  | infinity s, infinity t => s && !t
  | infinity s, finite _ _ => s
  | finite _ _, infinity t => !t
  | finite s u, finite t v => signed s u < signed t v

/-- Numerical equality: the two zeros are equal and a NaN differs from itself. -/
def same : Double → Double → Bool
  | infinity s, infinity t => s = t
  | finite s u, finite t v => signed s u = signed t v
  | _, _ => false

/-- Numerical order against an integer, without rounding it. -/
def ltInt : Double → Int → Bool
  | nan, _ => false
  | infinity s, _ => s
  | finite s u, n => signed s u < n * one

def gtInt : Double → Int → Bool
  | nan, _ => false
  | infinity s, _ => !s
  | finite s u, n => n * one < signed s u

def sameInt : Double → Int → Bool
  | finite s u, n => signed s u = n * one
  | _, _ => false

/-- The integer part, toward zero; NaN and the infinities have none. -/
def truncate? : Double → Option Int
  | finite s u => some (signed s (u / one))
  | _ => none

/-- The double nearest to `digits * 10 ^ exponent`. -/
def ofDecimal (negative : Bool) (digits : Nat) (exponent : Int) : Double :=
  if digits = 0 then finite negative 0
  else
    let size := (Nat.toDigits 10 digits).length
    if 400 < size + exponent then infinity negative
    else if size + exponent < -400 then finite negative 0
    else
      match exponent with
      | .ofNat e => ofFraction negative (digits * 10 ^ e) 1
      | .negSucc e => ofFraction negative digits (10 ^ (e + 1))

/-- The bits of the binary interchange format. -/
def ofBits (bits : Nat) : Double :=
  let negative := bits / 2 ^ 63 % 2 = 1
  let exponent := bits / 2 ^ 52 % 2048
  let fraction := bits % 2 ^ 52
  if exponent = 2047 then (if fraction = 0 then infinity negative else nan)
  else if exponent = 0 then finite negative fraction
  else finite negative ((2 ^ 52 + fraction) * 2 ^ (exponent - 1))

end Double

end Replay
