import Replay.Bitmap
import Replay.Png

namespace Replay

/-- An entry of a directory of icons. -/
structure IconEntry where
  width : Nat
  height : Nat
  /-- The number of colours, zero for many. -/
  colours : Nat
  bits : Nat
  length : Nat
  place : Nat

namespace IconEntry

def byteLength : Nat := 16

/-- A side of zero stands for the longest one. -/
def side (b : UInt8) : Nat := if b = 0 then 256 else b.toNat

def read (entry : Bytes) : IconEntry :=
  let number := fun start count => Bytes.little ((entry.drop start).take count)
  ⟨side (entry.getD 0 0), side (entry.getD 1 0), number 2 1, number 6 2, number 8 4, number 12 4⟩

def area (e : IconEntry) : Nat := e.width * e.height

/-- The least number of bits that tell apart so many colours. -/
def bitsFor (colours : Nat) : Nat := if colours ≤ 1 then 0 else Nat.log2 (colours - 1) + 1

/-- The bits of a colour, as far as they are known. -/
def depth (e : IconEntry) : Nat :=
  if e.bits != 0 then e.bits
  else if bitsFor e.colours = 0 then 256
  else bitsFor e.colours

/-- Whether an entry is better than another one: larger, or as large with fewer bits. -/
def betters (a b : IconEntry) : Bool :=
  b.area < a.area || (a.area = b.area && a.depth < b.depth)

end IconEntry

namespace Icon

def start : Bytes := [0, 0, 1, 0]

/-- The entries of a directory. -/
def entries : Nat → Bytes → Except ImageFault (List IconEntry)
  | 0, _ => .ok []
  | count + 1, bytes => do
    let (entry, rest) ← ImageFault.expect (Bytes.split? IconEntry.byteLength bytes)
    pure (IconEntry.read entry :: (← entries count rest))

def directoryStart : Nat := 6

/-- The bits of a colour with opacity. -/
def opaqueBits : Nat := 32

/-- The bytes of a row of the mask, which ends at a whole word. -/
def maskRow (width : Nat) : Nat := (width + 31) / 32 * 4

/-- Whether the opacity of all pixels is there, one byte of four. -/
def checkOpacity (size : ImageSize) (pixels : Bytes) : Except ImageFault Unit :=
  let area := size.width * size.height
  if (pixels.take (4 * area)).length / 4 < area then .error .shortOpacity else .ok ()

/-- Whether the mask is there, which ends with the entry. The last row may lack its padding. -/
def checkMask (e : IconEntry) (size : ImageSize) (bytes : Bytes) : Except ImageFault Unit :=
  let row := maskRow size.width
  let total := row * size.height
  if e.place + e.length < total then .error (.negativePlace (e.place + e.length - total : Int))
  else
    let found := ((bytes.drop (e.place + e.length - total)).take total).length
    if size.height != 0 && found < row * (size.height - 1) + (size.width + 7) / 8 then
      .error .shortMask
    else .ok ()

/-- Reads a bitmap of twice the height. What follows the check of its mask is of no matter. -/
def readBitmap (e : IconEntry) (bytes : Bytes) : Except ImageFault ImageSize := do
  let image := bytes.drop e.place
  let b ← Bitmap.read image
  b.size.check
  let size : ImageSize := ⟨b.size.width, b.size.height / 2⟩
  if e.bits = opaqueBits then checkOpacity size (image.drop (b.pixelStart image))
  else checkMask e size bytes
  if size.height = 0 then throw (if b.isRun then .negativeSize else .outside)
  throw .notPng

/-- Reads the header of a PNG image. What its pixels hold is of no matter. -/
def readPng (image : Bytes) : Except ImageFault ImageSize := do
  let image := image.drop Png.signature.length
  let (h, _) ← Png.readHeader image.length .empty image
  let _ ← h.imageSize
  throw .notPng

/-- The first of the best entries. -/
def best (entry : IconEntry) (rest : List IconEntry) : IconEntry :=
  rest.foldl (fun best e => if e.betters best then e else best) entry

/-- Reads the best image. -/
def read (bytes : Bytes) : Except ImageFault ImageSize := do
  let count ← Header.little bytes 4 2
  match ← entries count (bytes.drop directoryStart) with
  | [] => throw .unlike
  | entry :: rest =>
    let e := best entry rest
    let image := bytes.drop e.place
    if Png.signature.isPrefixOf image then readPng image else readBitmap e bytes

end Icon

namespace Cursor

def start : Bytes := [0, 0, 2, 0]

/-- Whether the first side and the second one are both longer. -/
def exceeds (a b : Bytes) : Bool := b.getD 0 0 < a.getD 0 0 && b.getD 1 0 < a.getD 1 0

/-- The largest of the entries ahead, where nothing is as good as nothing read yet. -/
def largest (found : Bytes) : Nat → Bytes → Except ImageFault Bytes
  | 0, _ => .ok found
  | count + 1, bytes => do
    let entry := bytes.take IconEntry.byteLength
    let rest := bytes.drop IconEntry.byteLength
    if found.isEmpty then largest entry count rest
    else if entry.isEmpty then throw .unlike
    else largest (if exceeds entry found then entry else found) count rest

/-- The size of the largest cursor, whose bitmap has twice its height. A bitmap without a place
follows the directory. -/
def read (bytes : Bytes) : Except ImageFault ImageSize := do
  let count ← Header.little bytes 4 2
  let entry ← largest [] count (bytes.drop Icon.directoryStart)
  let place ← Header.little entry 12 4
  let place := if place = 0 then Icon.directoryStart + IconEntry.byteLength * count else place
  let b ← Bitmap.read (bytes.drop place)
  ImageSize.accept ⟨b.size.width, b.size.height / 2⟩

end Cursor

end Replay
