import Replay.Text

namespace Replay

abbrev Bytes := List UInt8

/-- What is wrong with bytes that are no UTF-8. -/
inductive Utf8Fault where
  | start
  | continuation
  | truncated
deriving DecidableEq

/-- A run of `width` bytes from `position` on that cannot be decoded; the first is `byte`. -/
structure Utf8Error where
  position : Nat
  width : Nat
  byte : UInt8
  fault : Utf8Fault
deriving DecidableEq

/-- A run of surrogates that cannot be encoded; the first is `point`. -/
structure SurrogateError where
  position : Nat
  width : Nat
  point : CodePoint
deriving DecidableEq

namespace Utf8Fault

def message : Utf8Fault → Text
  | start => "invalid start byte"
  | continuation => "invalid continuation byte"
  | truncated => "unexpected end of data"

end Utf8Fault

namespace Utf8Error

def message (e : Utf8Error) : Text :=
  (if e.width = 1 then
    "'utf-8' codec can't decode byte 0x" ++ Text.hex 2 e.byte.toNat ++ " in position "
      ++ Text.ofNat e.position
  else
    "'utf-8' codec can't decode bytes in position " ++ Text.ofNat e.position ++ "-"
      ++ Text.ofNat (e.position + e.width - 1)) ++ ": " ++ e.fault.message

end Utf8Error

namespace SurrogateError

def message (e : SurrogateError) : Text :=
  (if e.width = 1 then
    "'utf-8' codec can't encode character '\\u" ++ Text.hex 4 e.point.val ++ "' in position "
      ++ Text.ofNat e.position
  else
    "'utf-8' codec can't encode characters in position " ++ Text.ofNat e.position ++ "-"
      ++ Text.ofNat (e.position + e.width - 1)) ++ ": surrogates not allowed"

end SurrogateError

namespace Utf8

/-- The bytes of one code point, in the general pattern that also covers surrogates. -/
def bytesOf (c : CodePoint) : Bytes :=
  let n := c.val
  if n < 0x80 then [n.toUInt8]
  else if n < 0x800 then [(0xC0 + n / 64).toUInt8, (0x80 + n % 64).toUInt8]
  else if n < 0x10000 then
    [(0xE0 + n / 4096).toUInt8, (0x80 + n / 64 % 64).toUInt8, (0x80 + n % 64).toUInt8]
  else
    [(0xF0 + n / 262144).toUInt8, (0x80 + n / 4096 % 64).toUInt8, (0x80 + n / 64 % 64).toUInt8,
      (0x80 + n % 64).toUInt8]

/-- The first run of surrogates in a text that starts at `position`. -/
def surrogateRun? (position : Nat) : Text → Option SurrogateError
  | [] => none
  | c :: rest =>
    if c.isSurrogate then
      some ⟨position, 1 + (rest.takeWhile CodePoint.isSurrogate).length, c⟩
    else surrogateRun? (position + 1) rest

def encode (t : Text) : Except SurrogateError Bytes :=
  match surrogateRun? 0 t with
  | some e => .error e
  | none => .ok (t.flatMap bytesOf)

def isContinuation (b : UInt8) : Bool := 0x80 ≤ b && b ≤ 0xBF

/-- The second bytes that a first byte of three allows. -/
def allowsSecondOfThree (surrogates : Bool) (a b : UInt8) : Bool :=
  isContinuation b && (a != 0xE0 || 0xA0 ≤ b) && (surrogates || a != 0xED || b < 0xA0)

/-- The second bytes that a first byte of four allows. -/
def allowsSecondOfFour (a b : UInt8) : Bool :=
  isContinuation b && (a != 0xF0 || 0x90 ≤ b) && (a != 0xF4 || b < 0x90)

/-- The six low bits of a continuation byte. -/
def low (b : UInt8) : Nat := b.toNat % 64

/-- Decodes bytes from `position` on; `surrogates` says whether their three-byte forms are taken. -/
def decodeFrom (surrogates : Bool) (position : Nat) (bytes : Bytes) (done : Text) :
    Except Utf8Error Text :=
  match bytes with
  | [] => .ok done.reverse
  | a :: rest =>
    if a < 0x80 then decodeFrom surrogates (position + 1) rest (CodePoint.ofNat a.toNat :: done)
    else if a < 0xC2 || 0xF4 < a then .error ⟨position, 1, a, .start⟩
    else if a < 0xE0 then
      match rest with
      | [] => .error ⟨position, 1, a, .truncated⟩
      | b :: rest =>
        if isContinuation b then
          decodeFrom surrogates (position + 2) rest
            (CodePoint.ofNat (a.toNat % 32 * 64 + low b) :: done)
        else .error ⟨position, 1, a, .continuation⟩
    else if a < 0xF0 then
      match rest with
      | [] => .error ⟨position, 1, a, .truncated⟩
      | b :: rest =>
        if allowsSecondOfThree surrogates a b then
          match rest with
          | [] => .error ⟨position, 2, a, .truncated⟩
          | c :: rest =>
            if isContinuation c then
              decodeFrom surrogates (position + 3) rest
                (CodePoint.ofNat ((a.toNat % 16 * 64 + low b) * 64 + low c) :: done)
            else .error ⟨position, 2, a, .continuation⟩
        else .error ⟨position, 1, a, .continuation⟩
    else
      match rest with
      | [] => .error ⟨position, 1, a, .truncated⟩
      | b :: rest =>
        if allowsSecondOfFour a b then
          match rest with
          | [] => .error ⟨position, 2, a, .truncated⟩
          | c :: rest =>
            if isContinuation c then
              match rest with
              | [] => .error ⟨position, 3, a, .truncated⟩
              | d :: rest =>
                if isContinuation d then
                  let value := ((a.toNat % 8 * 64 + low b) * 64 + low c) * 64 + low d
                  decodeFrom surrogates (position + 4) rest (CodePoint.ofNat value :: done)
                else .error ⟨position, 3, a, .continuation⟩
            else .error ⟨position, 2, a, .continuation⟩
        else .error ⟨position, 1, a, .continuation⟩

def decode (bytes : Bytes) : Except Utf8Error Text := decodeFrom false 0 bytes []

/-- Decodes bytes among which surrogates may stand. -/
def decodeLoosely (bytes : Bytes) : Except Utf8Error Text := decodeFrom true 0 bytes []

def replacement : CodePoint := CodePoint.ofNat 0xFFFD

/-- Decodes bytes, with a replacement character for each run that cannot be decoded. -/
def decodeReplacing (bytes : Bytes) : Text := go (bytes.length + 1) bytes
where
  go : Nat → Bytes → Text
    | 0, _ => []
    | fuel + 1, bytes =>
      match decode bytes with
      | .ok t => t
      | .error e =>
        ((decode (bytes.take e.position)).toOption.getD []) ++
          replacement :: go fuel (bytes.drop (e.position + e.width))

end Utf8

end Replay
