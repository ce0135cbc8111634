import Replay.Utf8

namespace Replay

inductive ByteOrder where
  | big
  | little
deriving DecidableEq

namespace ByteOrder

/-- The number that bytes stand for. -/
def number : ByteOrder → Bytes → Nat
  | big, bytes => bytes.foldl (fun n b => n * 256 + b.toNat) 0
  | little, bytes => bytes.foldr (fun b n => n * 256 + b.toNat) 0

end ByteOrder

inductive Encoding where
  | utf8
  | utf16 (order : ByteOrder)
  | utf32 (order : ByteOrder)
deriving DecidableEq

namespace Encoding

/-- The marks that name an encoding; of two that fit the first one counts. -/
def marks : List (Bytes × Encoding) :=
  [([0, 0, 0xFE, 0xFF], utf32 .big), ([0xFF, 0xFE, 0, 0], utf32 .little),
    ([0xFE, 0xFF], utf16 .big), ([0xFF, 0xFE], utf16 .little), ([0xEF, 0xBB, 0xBF], utf8)]

/-- The encoding of bytes without a mark: where their zeros are tells it, since JSON begins with
an ASCII character. -/
def guess : Bytes → Encoding
  | a :: b :: c :: d :: _ =>
    if a = 0 then if b = 0 then utf32 .big else utf16 .big
    else if b = 0 then if c = 0 && d = 0 then utf32 .little else utf16 .little
    else utf8
  | [a, b] => if a = 0 then utf16 .big else if b = 0 then utf16 .little else utf8
  | _ => utf8

/-- The encoding of bytes, and what follows its mark. -/
def detect (bytes : Bytes) : Encoding × Bytes :=
  match marks.find? fun m => m.1.isPrefixOf bytes with
  | some (mark, encoding) => (encoding, bytes.drop mark.length)
  | none => (guess bytes, bytes)

/-- Joins surrogates that are pairs. -/
def joinPairs : List Nat → Text
  | high :: low :: rest =>
    if 0xD800 ≤ high && high < 0xDC00 && 0xDC00 ≤ low && low < 0xE000 then
      CodePoint.ofNat (0x10000 + (high - 0xD800) * 1024 + (low - 0xDC00)) :: joinPairs rest
    else CodePoint.ofNat high :: joinPairs (low :: rest)
  | [unit] => [CodePoint.ofNat unit]
  | [] => []

/-- The numbers of two bytes each. -/
def units16? (order : ByteOrder) : Bytes → Option (List Nat)
  | a :: b :: rest => (units16? order rest).map (order.number [a, b] :: ·)
  | [_] => none
  | [] => some []

def points32? (order : ByteOrder) : Bytes → Option Text
  | a :: b :: c :: d :: rest =>
    let n := order.number [a, b, c, d]
    if h : n < 0x110000 then (points32? order rest).map (⟨n, h⟩ :: ·) else none
  | [] => some []
  | _ => none

def decode? : Encoding → Bytes → Option Text
  | utf8, bytes => (Utf8.decodeLoosely bytes).toOption
  | utf16 order, bytes => (units16? order bytes).map joinPairs
  | utf32 order, bytes => points32? order bytes

end Encoding

/-- Decodes the bytes of a JSON text. -/
def Bytes.jsonText? (bytes : Bytes) : Option Text :=
  match Encoding.detect bytes with
  | (encoding, rest) => encoding.decode? rest

end Replay
