import Replay.Decimal

namespace Replay

inductive Number where
  | int (n : Int)
  | real (x : Double)
deriving DecidableEq

instance : Inhabited Number := ⟨.int 0⟩

/-- Why an arithmetical operation has no result. -/
inductive NumberError where
  | integerTooLarge
  | integerOfNan
  | integerOfInfinity
  /-- The decimal text of the integer would be longer than 4300 digits. -/
  | tooManyDigits
deriving DecidableEq

/-- What is said about an integer with too many digits; they may have been counted. -/
def digitsMessage (count : Option Nat) : Text :=
  let found : Text := count.elim [] fun n => ": value has " ++ Text.ofNat n ++ " digits"
  "Exceeds the limit (4300 digits) for integer string conversion" ++ found
    ++ "; use sys.set_int_max_str_digits() to increase the limit"

namespace NumberError

def message : NumberError → Text
  | integerTooLarge => "int too large to convert to float"
  | integerOfNan => "cannot convert float NaN to integer"
  | integerOfInfinity => "cannot convert float infinity to integer"
  | tooManyDigits => digitsMessage none

end NumberError

/-- The longest decimal text of an integer that is read or written. -/
def digitLimit : Nat := 4300

namespace Number

instance : Coe Int Number := ⟨int⟩

def lt : Number → Number → Bool
  | int a, int b => a < b
  | int a, real y => y.gtInt a
  | real x, int b => x.ltInt b
  | real x, real y => x.lt y

def same : Number → Number → Bool
  | int a, int b => a = b
  | int a, real y => y.sameInt a
  | real x, int b => x.sameInt b
  | real x, real y => x.same y

/-- Nothing is at most a NaN, and a NaN is at most nothing. -/
def le (a b : Number) : Bool := a.lt b || a.same b

def isFinite : Number → Bool
  | int _ => true
  | real x => x.isFinite

def toDouble : Number → Except NumberError Double
  | int n => (Double.ofInt? n).elim (.error .integerTooLarge) .ok
  | real x => .ok x

/-- Integers are combined exactly; otherwise both operands become doubles. -/
def combine (whole : Int → Int → Int) (broken : Double → Double → Double) :
    Number → Number → Except NumberError Number
  | int a, int b => .ok (int (whole a b))
  | a, b => do
    let x ← a.toDouble
    let y ← b.toDouble
    pure (real (broken x y))

def add : Number → Number → Except NumberError Number := combine (· + ·) Double.add

def sub : Number → Number → Except NumberError Number := combine (· - ·) Double.sub

def mul : Number → Number → Except NumberError Number := combine (· * ·) Double.mul

/-- The integer part, toward zero. -/
def truncate : Number → Except NumberError Int
  | int n => .ok n
  | real .nan => .error .integerOfNan
  | real (.infinity _) => .error .integerOfInfinity
  | real (.finite s u) => .ok (Double.signed s (u / Double.one))

/-- The integer that the number is, if it is one. -/
def toInt? : Number → Option Int
  | int n => some n
  | real x => if x.isInteger then x.truncate? else none

/-- An integer is its own rounding. -/
def rounded (places : Nat) : Number → Number
  | int n => int n
  | real x => real (x.rounded places)

def text : Number → Text
  | int n => Text.ofInt n
  | real x => x.text

/-- Whether the number has a text: it is no integer with too many digits. -/
def isShort : Number → Bool
  | int k => k.natAbs < 10 ^ digitLimit
  | real _ => true

/-- An integer is converted to a double before it is written with `places` digits. -/
def fixed (places : Nat) (n : Number) : Except NumberError Text := do
  let x ← n.toDouble
  pure (x.fixed places)

end Number

end Replay
