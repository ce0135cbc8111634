import Replay.ImageFault

namespace Replay

/-- What the header of a bitmap says. -/
structure Bitmap where
  size : ImageSize
  /-- The bits of one pixel. -/
  bits : Nat
  compression : Nat
  /-- The colours of the palette; zero for as many as the pixels can tell apart. -/
  colours : Nat
  /-- The bits of red, green, blue and opacity in a pixel, where the header gives them. -/
  masks : List Nat
  /-- The bytes of one colour of the palette. -/
  colourLength : Nat
  /-- The bytes of the header with all masks. -/
  length : Nat

namespace Bitmap

/-- The sizes of headers with all fields. -/
def fullSizes : List Nat := [40, 52, 56, 64, 108, 124]

/-- The size of the header with the fewest fields. -/
def coreSize : Nat := 12

/-- The compression by which masks tell the colours of a pixel. -/
def maskCompression : Nat := 3

/-- The compressions by runs of pixels of eight and of four bits. -/
def isRun (b : Bitmap) : Bool := b.compression = 1 || b.compression = 2

/-- The masks, which follow a short header and are part of a longer one, with the bytes that they
add to it. -/
def readMasks (bytes : Bytes) (length : Nat) : Except ImageFault (List Nat × Nat) := do
  let red ← Header.little bytes 40 4
  let green ← Header.little bytes 44 4
  let blue ← Header.little bytes 48 4
  if length < 52 then pure ([red, green, blue, 0], 12)
  else
    let opacity ← if length < 56 then pure 0 else Header.little bytes 52 4
    pure ([red, green, blue, opacity], 0)

/-- An image upside down has a negative height. -/
def readFull (bytes : Bytes) (length : Nat) : Except ImageFault Bitmap := do
  let width ← Header.little bytes 4 4
  let height ← Header.little bytes 8 4
  let bits ← Header.little bytes 14 2
  let compression ← Header.little bytes 16 4
  let colours ← Header.little bytes 32 4
  let (masks, added) ←
    if compression = maskCompression then readMasks bytes length else pure ([], 0)
  let height := if height / 2 ^ 24 = 0xFF then 2 ^ 32 - height else height
  pure ⟨⟨width, height⟩, bits, compression, colours, masks, 4, length + added⟩

/-- Reads a header, which gives its own size first. -/
def readHeader (bytes : Bytes) : Except ImageFault Bitmap := do
  let length ← Header.little bytes 0 4
  let _ ← ImageFault.need (Bytes.slice? 4 (length - 4) bytes)
  if length = coreSize then
    let width ← Header.little bytes 4 2
    let height ← Header.little bytes 6 2
    let bits ← Header.little bytes 10 2
    pure ⟨⟨width, height⟩, bits, 0, 0, [], 3, length⟩
  else if fullSizes.contains length then readFull bytes length
  else throw .notPng

/-- The masks that pixels of some bits can have. -/
def knownMasks : List (Nat × List Nat) := [
  (32, [0xFF0000, 0xFF00, 0xFF, 0x0]),
  (32, [0xFF000000, 0xFF0000, 0xFF00, 0x0]),
  (32, [0xFF000000, 0xFF00, 0xFF, 0x0]),
  (32, [0xFF000000, 0xFF0000, 0xFF00, 0xFF]),
  (32, [0xFF, 0xFF00, 0xFF0000, 0xFF000000]),
  (32, [0xFF0000, 0xFF00, 0xFF, 0xFF000000]),
  (32, [0xFF000000, 0xFF00, 0xFF, 0xFF0000]),
  (32, [0x0, 0x0, 0x0, 0x0]),
  (24, [0xFF0000, 0xFF00, 0xFF]),
  (16, [0xF800, 0x7E0, 0x1F]),
  (16, [0x7C00, 0x3E0, 0x1F])
]

def hasKnownMasks (b : Bitmap) : Bool :=
  knownMasks.contains (b.bits, if b.bits = 32 then b.masks else b.masks.take 3)

/-- The number of colours in the palette. -/
def paletteSize (b : Bitmap) : Nat := if b.colours = 0 then 2 ^ b.bits else b.colours

/-- Whether the pixels are of a kind that can be read. -/
def isKnown (b : Bitmap) : Bool :=
  [1, 4, 8, 16, 24, 32].contains b.bits
    && (b.compression < maskCompression || (b.compression = maskCompression && b.hasKnownMasks))
    && (8 < b.bits || b.paletteSize ≤ 65536)

/-- The header of a file, ahead of that of the bitmap. -/
def fileHeaderSize : Nat := 14

def isFileStart : Bytes → Bool
  | a :: b :: _ => a = 0x42 && b = 0x4D
  | _ => false

/-- Whether bytes begin with the header of a bitmap. -/
def isStart (bytes : Bytes) : Bool :=
  match Bytes.split? 4 bytes with
  | some (size, _) => (coreSize :: fullSizes).contains (Bytes.little size)
  | none => false

/-- Where the pixels start, as far as the palette is there. -/
def pixelStart (b : Bitmap) (bytes : Bytes) : Nat :=
  if 8 < b.bits then b.length
  else b.length + ((bytes.drop b.length).take (b.colourLength * b.paletteSize)).length

/-- Reads the header of an image that is of use. -/
def read (bytes : Bytes) : Except ImageFault Bitmap := do
  let b ← readHeader bytes
  ImageFault.require b.isKnown
  ImageFault.suppose !b.size.isEmpty
  pure b

/-- The size of the image that the bytes hold. -/
def readSize (bytes : Bytes) : Except ImageFault ImageSize := do
  let b ← read bytes
  b.size.accept

/-- The size of the image in a file. -/
def readFile (bytes : Bytes) : Except ImageFault ImageSize := do
  let (_, rest) ← ImageFault.expect (Bytes.split? fileHeaderSize bytes)
  readSize rest

end Bitmap

end Replay
