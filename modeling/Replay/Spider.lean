import Replay.ImageFault

namespace Replay

namespace Spider

/-- A real number of four bytes. -/
inductive Entry where
  | nan
  | infinity
  /-- The part of a number before the point, and whether it is all of it. -/
  | finite (whole : Int) (isWhole : Bool)
deriving DecidableEq

namespace Entry

/-- Takes a number from its bits: a sign, eight bits of the exponent, and the digits. -/
def ofBits (n : Nat) : Entry :=
  let exponent := n / 2 ^ 23 % 2 ^ 8
  let digits := n % 2 ^ 23
  if exponent = 255 then if digits = 0 then infinity else nan
  else
    let digits := if exponent = 0 then digits else digits + 2 ^ 23
    let scaled := digits * 2 ^ (max 1 exponent)
    let whole : Int := (scaled / 2 ^ 150 : Nat)
    finite (if n / 2 ^ 31 % 2 = 1 then -whole else whole) (scaled % 2 ^ 150 = 0)

/-- A whole number. -/
def whole? : Entry → Option Int
  | finite n true => some n
  | _ => none

/-- The part of a number before the point. -/
def truncate : Entry → Except ImageFault Int
  | finite n _ => .ok n
  | nan => .error (.number .integerOfNan)
  | infinity => .error (.number .integerOfInfinity)

end Entry

def headerLength : Nat := 108

/-- The kinds of files; only the first one is an image. -/
def forms : List Int := [1, 3, -11, -12, -21, -22]

/-- An entry of a header, counted from one. -/
def entry (number : Bytes → Nat) (header : Bytes) (i : Nat) : Entry :=
  Entry.ofBits (number ((header.drop (4 * (i - 1))).take 4))

/-- Whether the entries agree: the header has as many bytes as its records together. -/
def agrees (entry : Nat → Entry) : Bool :=
  match (entry 5).whole?, (entry 13).whole?, (entry 22).whole?, (entry 23).whole? with
  | some form, some records, some length, some recordLength =>
    ([1, 2, 12].all fun i => (entry i).whole?.isSome) && forms.contains form
      && length = records * recordLength && length != 0
  | _, _, _, _ => false

/-- Checks the entries that tell a single image from a row of them. -/
def checkStack (entry : Nat → Entry) : Except ImageFault Unit := do
  let stack ← (entry 24).truncate
  let image ← (entry 27).truncate
  if stack = 0 && 0 < image then throw .noStack
  ImageFault.suppose (0 ≤ stack && image = 0)
  if 0 < stack then
    let _ ← (entry 26).truncate

/-- The size of the image that the bytes hold, whose header has its bytes in either order. -/
def read (bytes : Bytes) : Except ImageFault ImageSize := do
  let header ← ImageFault.expect (Bytes.slice? 0 headerLength bytes)
  let entry :=
    if agrees (entry Bytes.big header) then entry Bytes.big header else entry Bytes.little header
  ImageFault.suppose (agrees entry && entry 5 = .finite 1 true)
  let width ← (entry 12).truncate
  let height ← (entry 2).truncate
  checkStack entry
  (ImageSize.ofInts width height).accept

end Spider

end Replay
