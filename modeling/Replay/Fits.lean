import Replay.ImageFault

namespace Replay

namespace Fits

def start : Bytes := Bytes.ofLatin "SIMPLE"

def cardLength : Nat := 80

/-- The length of a unit, which headers are filled up to. -/
def unitLength : Nat := 2880

def isBlank (b : UInt8) : Bool := b = 0x20 || (0x09 ≤ b && b ≤ 0x0D)

def trim (bytes : Bytes) : Bytes :=
  ((bytes.dropWhile isBlank).reverse.dropWhile isBlank).reverse

/-- The keyword of a card. -/
def keyword (card : Bytes) : Bytes := trim (card.take 8)

/-- The value of a card: what stands between an equals sign and a comment. -/
def value (card : Bytes) : Bytes :=
  match trim ((card.drop 8).takeWhile (· != 0x2F)) with
  | 0x3D :: rest => trim rest
  | word => word

/-- The cards of all headers so far; of equal keywords the last one counts. -/
abbrev Cards := List (Bytes × Bytes)

namespace Cards

def find? (cards : Cards) (name : Text) : Option Bytes := cards.lookup (Bytes.ofLatin name)

def number (cards : Cards) (name : Text) : Except ImageFault Int := do
  ImageFault.readInt (← ImageFault.expect (cards.find? name))

/-- The width and the height of an array; without axes it has none. -/
def axes (cards : Cards) (mark : Text) : Except ImageFault (Option (Int × Int)) := do
  let count ← cards.number (mark ++ "NAXIS")
  if count = 0 then pure none
  else
    let first ← cards.number (mark ++ "NAXIS1")
    if count = 1 then pure (some (1, first))
    else pure (some (first, ← cards.number (mark ++ "NAXIS2")))

/-- Whether the cards are of a table with a packed image, whose keywords have a mark ahead. -/
def isPacked (cards : Cards) : Except ImageFault Bool := do
  if cards.find? "XTENSION" = some (Bytes.ofLatin "'BINTABLE'")
      && cards.find? "ZIMAGE" = some (Bytes.ofLatin "T") then
    let way ← ImageFault.expect (cards.find? "ZCMPTYPE")
    pure (decide (way = Bytes.ofLatin "'GZIP_1  '"))
  else pure false

/-- The kinds of values, by their bits. -/
def depths : List Int := [8, 16, 32, -32, -64]

/-- What is known of an image. -/
structure Image where
  size : ImageSize
  /-- Whether its values are of a known kind. -/
  isKnown : Bool

/-- The image that the cards describe, if they describe any. -/
def image? (cards : Cards) : Except ImageFault (Option Image) := do
  let mark : Text ←
    if ← cards.isPacked then do
      let _ ← cards.axes []
      let _ ← cards.number "BITPIX"
      pure "Z"
    else pure []
  match ← cards.axes mark with
  | none => pure none
  | some (width, height) =>
    let depth ← cards.number (mark ++ "BITPIX")
    pure (some ⟨.ofInts width height, depths.contains depth⟩)

end Cards

/-- Where the reading stands. -/
structure Reading where
  cards : Cards
  inHeader : Bool
  image : Option Cards.Image

/-- Reads cards; `place` is that of the next one. -/
def Reading.run (fuel : Nat) (r : Reading) (place : Nat) (bytes : Bytes) :
    Except ImageFault (Option Cards.Image) := do
  match fuel with
  | 0 => throw .notPng
  | fuel + 1 =>
    let card := bytes.take cardLength
    if card.isEmpty then throw .notPng
    let next := place + card.length
    let name := keyword card
    let opens := name = start || name = Bytes.ofLatin "XTENSION"
    let r := { r with inHeader := r.inHeader || opens }
    if !opens && !r.cards.isEmpty && !r.inHeader then return r.image
    if !opens && name = Bytes.ofLatin "END" then
      let image ←
        match r.image with
        | some image => pure (some image)
        | none => r.cards.image?
      let unit := (next + unitLength - 1) / unitLength * unitLength
      Reading.run fuel ⟨r.cards, false, image⟩ unit (bytes.drop (unit - place))
    else if r.image.isSome then Reading.run fuel r next (bytes.drop cardLength)
    else
      let word := value card
      ImageFault.suppose
        (!r.cards.isEmpty || (start.isPrefixOf name && word = Bytes.ofLatin "T"))
      Reading.run fuel { r with cards := (name, word) :: r.cards } next (bytes.drop cardLength)

/-- The size of the image that the bytes hold. -/
def read (bytes : Bytes) : Except ImageFault ImageSize := do
  match ← Reading.run (bytes.length + 1) ⟨[], false, none⟩ 0 bytes with
  | none => throw .noImage
  | some image =>
    ImageFault.suppose image.isKnown
    image.size.accept

end Fits

end Replay
