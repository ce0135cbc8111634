import Replay.ImageFault

namespace Replay

namespace BlpTexture

def starts : List Bytes := [Bytes.ofLatin "BLP1", Bytes.ofLatin "BLP2"]

/-- The first version has one more word after the size. -/
def read (bytes : Bytes) : Except ImageFault ImageSize := do
  let width ← Header.little bytes 12 4
  let height ← Header.little bytes 16 4
  if bytes.take 4 = Bytes.ofLatin "BLP1" then
    let _ ← Header.little bytes 20 4
  ImageSize.accept ⟨width, height⟩

end BlpTexture

namespace DdsTexture

def start : Bytes := Bytes.ofLatin "DDS "

def headerLength : Nat := 124

/-- Whether flags have the one of some value. -/
def hasFlag (flags value : Nat) : Bool := flags / value % 2 = 1

def opacityFlag : Nat := 0x1

def codeFlag : Nat := 0x4

def paletteFlag : Nat := 0x20

def colourFlag : Nat := 0x40

def brightnessFlag : Nat := 0x20000

/-- The codes of known ways of packing. -/
def codes : List Nat :=
  (["DXT1", "DXT3", "DXT5", "BC4U", "ATI1", "BC5S", "BC5U", "ATI2"] : List Text).map fun name =>
    Bytes.little (Bytes.ofLatin name)

/-- The code that an extended one stands for. -/
def extension : Nat := Bytes.little (Bytes.ofLatin "DX10")

/-- The extended codes of known ways of packing. -/
def extendedCodes : List Nat :=
  [27, 28, 29, 70, 71, 73, 74, 76, 77, 79, 80, 82, 83, 84, 95, 96, 97, 98, 99]

/-- Whether the way of packing is known for what flags say of the pixels. -/
def checkPixels (bytes : Bytes) (flags code bits : Nat) : Except ImageFault Unit := do
  if hasFlag flags colourFlag then pure ()
  else if hasFlag flags brightnessFlag then
    ImageFault.require (bits = 8 || (bits = 16 && hasFlag flags opacityFlag))
  else if hasFlag flags paletteFlag then pure ()
  else if !hasFlag flags codeFlag then throw (.textureFlags flags)
  else if code = extension then
    let extended ← Header.little bytes 128 4
    if !extendedCodes.contains extended then throw (.textureExtendedCode extended)
  else if !codes.contains code then throw (.textureCode code)

def read (bytes : Bytes) : Except ImageFault ImageSize := do
  let length ← Header.little bytes 4 4
  ImageFault.require (length = headerLength && (Bytes.slice? 8 (headerLength - 4) bytes).isSome)
  let height ← Header.little bytes 12 4
  let width ← Header.little bytes 16 4
  checkPixels bytes (← Header.little bytes 80 4) (← Header.little bytes 84 4)
    (← Header.little bytes 88 4)
  ImageSize.accept ⟨width, height⟩

end DdsTexture

namespace FtexTexture

def start : Bytes := Bytes.ofLatin "FTEX"

/-- A texture in one form, packed or not, whose pixels begin with their number of bytes. -/
def read (bytes : Bytes) : Except ImageFault ImageSize := do
  let width ← Header.littleSigned bytes 8 4
  let height ← Header.littleSigned bytes 12 4
  let forms ← Header.littleSigned bytes 20 4
  if forms != 1 then throw (.textureCount forms)
  let form ← Header.littleSigned bytes 24 4
  let place ← Header.littleSigned bytes 28 4
  if place < 0 then throw (.negativePlace place)
  let _ ← Header.little bytes place.toNat 4
  if form != 0 && form != 1 then throw (.textureKind form)
  (ImageSize.ofInts width height).accept

end FtexTexture

end Replay
