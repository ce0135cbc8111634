import Replay.Utf8

namespace Replay

namespace Base64

def pad : CodePoint := '='

/-- The digit of a value below 64. -/
def digit (n : Nat) : CodePoint :=
  if n < 26 then CodePoint.ofNat (65 + n)
  else if n < 52 then CodePoint.ofNat (97 + (n - 26))
  else if n < 62 then CodePoint.ofNat (48 + (n - 52))
  else if n = 62 then '+'
  else '/'

def value? (c : CodePoint) : Option Nat :=
  if c.isUpper then some (c.val - 65)
  else if c.isLower then some (c.val - 97 + 26)
  else if c.isDigit then some (c.val - 48 + 52)
  else if c = ('+' : CodePoint) then some 62
  else if c = ('/' : CodePoint) then some 63
  else none

/-- The digits of the bytes, after those already written, in reverse. -/
def encodeAfter (done : Text) : Bytes → Text
  | a :: b :: c :: rest =>
    let n := (a.toNat * 256 + b.toNat) * 256 + c.toNat
    encodeAfter (digit (n % 64) :: digit (n / 64 % 64) :: digit (n / 4096 % 64)
      :: digit (n / 262144) :: done) rest
  | [a, b] =>
    let n := (a.toNat * 256 + b.toNat) * 4
    (pad :: digit (n % 64) :: digit (n / 64 % 64) :: digit (n / 4096) :: done).reverse
  | [a] =>
    let n := a.toNat * 16
    (pad :: pad :: digit (n % 64) :: digit (n / 64) :: done).reverse
  | [] => done.reverse

def encode (bytes : Bytes) : Text := encodeAfter [] bytes

/-- The bytes of digits without padding, after those already read, in reverse. -/
def bytesAfter (done : Bytes) : List Nat → Bytes
  | a :: b :: c :: d :: rest =>
    let n := ((a * 64 + b) * 64 + c) * 64 + d
    bytesAfter ((n % 256).toUInt8 :: (n / 256 % 256).toUInt8 :: (n / 65536).toUInt8 :: done) rest
  | [a, b, c] =>
    let n := ((a * 64 + b) * 64 + c) / 4
    ((n % 256).toUInt8 :: (n / 256).toUInt8 :: done).reverse
  | [a, b] => (((a * 64 + b) / 16).toUInt8 :: done).reverse
  | _ => done.reverse

def isPadding (t : Text) : Bool := t.all (· = pad)

/-- Whether a text is made of digits, with at most two equals signs after them. -/
def isFormed (t : Text) : Bool :=
  let (digits, padding) := t.span (· != pad)
  digits.all (fun c => (value? c).isSome) && padding.length ≤ 2 && isPadding padding

/-- Reads whole groups of digits; bits that the padding leaves over are not looked at. -/
def decode? (t : Text) : Option Bytes :=
  let (digits, padding) := t.span (· != pad)
  if t.length % 4 = 0 && padding.length ≤ 2 && isPadding padding then
    if digits.all fun c => (value? c).isSome then some (bytesAfter [] (digits.filterMap value?))
    else none
  else none

/-- The text without the equals signs at its end. -/
def withoutPadding (t : Text) : Text := (t.reverse.dropWhile (· = pad)).reverse

/-- Whether the text has the digits that the bytes are written with. -/
def isEncoding (t : Text) (bytes : Bytes) : Bool :=
  withoutPadding (encode bytes) = withoutPadding t

end Base64

end Replay
