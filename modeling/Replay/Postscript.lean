import Replay.ImageFault
import Replay.RealReader

namespace Replay

namespace Postscript

/-- The most bytes of a line of text. -/
def lineLimit : Nat := 255

/-- What is known after some lines. -/
structure Reading where
  /-- The line that is being read. -/
  line : Bytes
  /-- The content of the buffer before this line. -/
  stale : Bytes
  inHeader : Bool
  hasStart : Bool
  /-- Whether a box is named, whatever it is. -/
  hasBox : Bool
  box : List Int
  /-- Whether the box is to be found at the end. -/
  boxAtEnd : Bool
  inTrailer : Bool
  /-- The columns and rows that an image has. -/
  image : Option (Int × Int)

def Reading.empty : Reading :=
  ⟨[], List.replicate lineLimit 0, true, false, false, [], false, false, none⟩

/-- What is done after a line. -/
inductive Next where
  | clear
  /-- Goes on in the same line. -/
  | join
  /-- Passes over bytes, or goes back. -/
  | skip (count : Int)
  | stop

namespace Reading

def buffer (r : Reading) : Bytes := r.line ++ r.stale.drop r.line.length

def startsWith (r : Reading) (t : Text) : Bool := (Bytes.ofLatin t).isPrefixOf r.buffer

/-- Begins a line. -/
def cleared (r : Reading) : Reading := { r with line := [], stale := r.buffer }

/-- What the header has to name. -/
def check (r : Reading) : Except ImageFault Unit := ImageFault.suppose (r.hasStart && r.hasBox)

/-- The words of a text. -/
def words (t : Text) : List Text := (t.splitOnP CodePoint.isBlank).filter fun w => !w.isEmpty

/-- The whole parts of numbers. -/
def wholes? (t : Text) : Option (List Int) :=
  (words t).mapM fun w => (Text.toDouble? w).bind Double.truncate?

def boxName : Text := "BoundingBox"

def startName : Text := "PS-Adobe"

def isBlank (c : CodePoint) : Bool := c.val = 32 || c.val = 9

/-- Reads a comment with a name and a value, if the line is one. The first box counts, unless the
one at the end does. -/
def readComment? (r : Reading) (t : Text) : Option Reading :=
  match Text.stripStart? "%%" t with
  | none => none
  | some t =>
    match Text.cut ':' t with
    | (_, none) => none
    | (name, some value) =>
      let value := value.dropWhile isBlank
      let r := { r with
        hasStart := r.hasStart || name = startName, hasBox := r.hasBox || name = boxName }
      if name != boxName then some r
      else if value = "(atend)" then some { r with boxAtEnd := true }
      else if r.box.isEmpty || (r.inTrailer && r.boxAtEnd) then
        some { r with box := (wholes? value).getD r.box }
      else some r

/-- Whether a character may be the second one of a comment without a value: a letter, a digit, an
underscore or one of two signs. -/
def isFieldMark (c : CodePoint) : Bool :=
  c.isAlphanum || ([0x21, 0x25, 0x5F, 0xAA, 0xB2, 0xB3, 0xB5, 0xB9, 0xBA, 0xBC, 0xBD, 0xBE].contains
    c.val) || (0xC0 ≤ c.val && c.val != 0xD7 && c.val != 0xF7)

/-- Reads a comment without a value. -/
def readField (r : Reading) (t : Text) : Reading :=
  match t with
  | _ :: mark :: name =>
    if isFieldMark mark && !name.contains (':' : CodePoint) then
      if startName.isPrefixOf name then { r with hasStart := true }
      else { r with hasBox := r.hasBox || name = boxName }
    else r
  | _ => r

/-- Reads numbers, of which there have to be enough. -/
def numbers (expected : Nat) (words : List Bytes) : Except ImageFault (List Int) := do
  let found ← (words.take expected).mapM ImageFault.readInt
  if found.length < expected then throw (.missingNumbers expected found.length)
  pure found

/-- The words of a line in bytes. -/
def byteWords (bytes : Bytes) : List Bytes :=
  (bytes.splitOnP fun b => b = 0x20 || (0x09 ≤ b && b ≤ 0x0D)).filter fun w => !w.isEmpty

/-- Reads what is said of an image: its columns and rows, the bits of a value, and the colours. -/
def readImage (r : Reading) : Except ImageFault (Reading × Next) := do
  if r.image.isSome then return (r, .clear)
  match ← numbers 4 (byteWords (r.line.drop 11)) with
  | [columns, rows, bits, colours] =>
    if bits = 8 then ImageFault.suppose (1 ≤ colours && colours ≤ 4)
    if bits = 1 || bits = 8 then pure ({ r with image := some (columns, rows) }, .clear)
    else pure (r, .stop)
  | _ => pure (r, .stop)

/-- The place that no file reaches. -/
def farPlace : Int := 2 ^ 63

/-- Reads a line of the header. A line that is no comment ends it and is read on. -/
def readHeaderLine (r : Reading) : Except ImageFault (Reading × Next) := do
  if r.buffer.head? != some 0x25 || r.startsWith "%%EndComments" then
    r.check
    pure ({ r with inHeader := false }, .join)
  else
    let t := Bytes.latin r.line
    pure ((r.readComment? t).getD (r.readField t), .clear)

/-- Reads a line. -/
def readLine (r : Reading) : Except ImageFault (Reading × Next) :=
  if r.inHeader then r.readHeaderLine
  else if r.startsWith "%ImageData:" then r.readImage
  else if r.startsWith "%%EOF" then .ok (r, .stop)
  else if r.inTrailer && r.boxAtEnd then
    .ok ((r.readComment? (Bytes.latin r.line)).getD r, .clear)
  else if r.startsWith "%%Trailer" then .ok ({ r with inTrailer := true }, .clear)
  else if r.startsWith "%%BeginBinary:" then do
    let count ← ImageFault.readInt (r.line.drop 14)
    if farPlace ≤ count then throw .farPlace
    pure (r, .skip count)
  else .ok (r, .clear)

/-- Adds a byte to a line. A comment is not too long; other lines may be binary data. -/
def push (r : Reading) (b : UInt8) : Except ImageFault Reading := do
  if r.line.length < lineLimit then return { r with line := r.line ++ [b] }
  ImageFault.suppose (r.line.head? != some 0x25)
  if r.inHeader then r.check
  pure { r.cleared with line := [b], inHeader := false }

/-- The bytes from a place on, where no place is ahead of the first one. -/
def goTo (all : Bytes) (place : Int) : Bytes := all.drop place.toNat

/-- Reads up to the end; `all` are the bytes of the file. -/
def run (all : Bytes) (fuel : Nat) (r : Reading) (bytes : Bytes) : Except ImageFault Reading := do
  match fuel with
  | 0 => throw .notPng
  | fuel + 1 =>
    match bytes with
    | [] =>
      if r.line.isEmpty then
        if r.inHeader then r.check
        pure r
      else
        match ← r.readLine with
        | (r, .clear) => run all fuel r.cleared []
        | (r, .join) => run all fuel r []
        | (r, .skip count) => run all fuel r.cleared (goTo all (all.length + count))
        | (r, .stop) => pure r
    | b :: rest =>
      if b != 0x0D && b != 0x0A then run all fuel (← r.push b) rest
      else if r.line.isEmpty then run all fuel r rest
      else
        match ← r.readLine with
        | (r, .clear) => run all fuel r.cleared rest
        | (r, .join) => run all fuel r rest
        | (r, .skip count) =>
          run all fuel r.cleared (goTo all (all.length - rest.length + count))
        | (r, .stop) => pure r

/-- The size of a drawing: that of an image goes before the box. -/
def size (r : Reading) : Except ImageFault ImageSize :=
  if r.box.isEmpty then .error .notPng
  else
    match r.image, r.box with
    | some (columns, rows), _ => (ImageSize.ofInts columns rows).accept
    | none, left :: bottom :: right :: top :: _ =>
      (ImageSize.ofInts (right - left) (top - bottom)).accept
    | none, _ => .error .unlike

end Reading

def textStart : Bytes := Bytes.ofLatin "%!PS"

/-- What comes ahead of a drawing with a picture of it: where the drawing is. -/
def binaryStart : Bytes := [0xC5, 0xD0, 0xD3, 0xC6]

/-- The size of the drawing that the bytes hold. -/
def read (bytes : Bytes) : Except ImageFault ImageSize := do
  let place ←
    if textStart.isPrefixOf bytes then pure 0
    else do
      let _ ← Header.little bytes 8 4
      Header.little bytes 4 4
  let r ← Reading.run bytes (4 * bytes.length + 8) .empty (bytes.drop place)
  r.size

end Postscript

end Replay
