import Replay.ImageFault

namespace Replay

namespace RasImage

def start : Bytes := [0x59, 0xA6, 0x6A, 0x95]

def depths : List Nat := [1, 4, 8, 24, 32]

/-- The longest palette in bytes. -/
def paletteLimit : Nat := 1024

def read (bytes : Bytes) : Except ImageFault ImageSize := do
  let word := fun i => Header.big bytes (4 * i) 4
  let width ← word 1
  let height ← word 2
  let depth ← word 3
  let version ← word 5
  let paletteKind ← word 6
  let palette ← word 7
  ImageFault.suppose (depths.contains depth)
  ImageFault.suppose (palette = 0 || (palette ≤ paletteLimit && paletteKind = 1))
  ImageFault.suppose (version ≤ 5)
  ImageSize.accept ⟨width, height⟩

end RasImage

namespace SgiImage

def start : Bytes := [0x01, 0xDA]

/-- The bytes of a value, the number of dimensions, and the number of channels. -/
def kinds : List (Nat × Nat × Nat) := [
  (1, 1, 1), (1, 2, 1), (2, 1, 1), (2, 2, 1), (1, 3, 3), (2, 3, 3), (1, 3, 4), (2, 3, 4)
]

def read (bytes : Bytes) : Except ImageFault ImageSize := do
  let depth ← Header.big bytes 3 1
  let dimensions ← Header.big bytes 4 2
  let width ← Header.big bytes 6 2
  let height ← Header.big bytes 8 2
  let channels ← Header.big bytes 10 2
  if !kinds.contains (depth, dimensions, channels) then throw .channels
  ImageSize.accept ⟨width, height⟩

end SgiImage

namespace PxrImage

def start : Bytes := [0x80, 0xE8, 0x00, 0x00]

def read (bytes : Bytes) : Except ImageFault ImageSize := do
  let height ← Header.little bytes 416 2
  let width ← Header.little bytes 418 2
  let channels ← Header.little bytes 424 2
  let depth ← Header.little bytes 426 2
  ImageFault.suppose (channels = 14 && depth = 2)
  ImageSize.accept ⟨width, height⟩

end PxrImage

namespace QoiImage

def start : Bytes := Bytes.ofLatin "qoif"

def read (bytes : Bytes) : Except ImageFault ImageSize := do
  let width ← Header.big bytes 4 4
  let height ← Header.big bytes 8 4
  let _ ← Header.big bytes 12 1
  ImageSize.accept ⟨width, height⟩

end QoiImage

namespace MspImage

def starts : List Bytes := [Bytes.ofLatin "DanM", Bytes.ofLatin "LinS"]

/-- The sum of sixteen words without carry. -/
def checksum (header : Bytes) : Nat :=
  (List.range 16).foldl (fun sum i => sum ^^^ Bytes.little ((header.drop (2 * i)).take 2)) 0

def read (bytes : Bytes) : Except ImageFault ImageSize := do
  let header ← ImageFault.expect (Bytes.slice? 0 32 bytes)
  ImageFault.suppose (checksum header = 0)
  let width ← Header.little header 4 2
  let height ← Header.little header 6 2
  ImageSize.accept ⟨width, height⟩

end MspImage

namespace AreaImage

def start : Bytes := [0, 0, 0, 0, 0, 0, 0, 4]

/-- The length of the directory. -/
def directoryLength : Nat := 256

/-- The bytes that a value may have. -/
def depths : List Nat := [1, 2, 4]

def read (bytes : Bytes) : Except ImageFault ImageSize := do
  let directory ← ImageFault.expect (Bytes.slice? 0 directoryLength bytes)
  let height ← Header.bigSigned directory 32 4
  let width ← Header.bigSigned directory 36 4
  let depth ← Header.big directory 40 4
  ImageFault.suppose (depths.contains depth)
  (ImageSize.ofInts width height).accept

end AreaImage

namespace MpegFilm

def start : Bytes := [0x00, 0x00, 0x01, 0xB3]

def read (bytes : Bytes) : Except ImageFault ImageSize := do
  let sizes ← Header.big bytes 4 3
  ImageSize.accept ⟨sizes / 4096, sizes % 4096⟩

end MpegFilm

namespace GbrBrush

/-- The shortest header. -/
def leastLength : Nat := 20

def isStart (bytes : Bytes) : Bool :=
  match Header.big bytes 0 4, Header.big bytes 4 4 with
  | .ok length, .ok version => leastLength ≤ length && (version = 1 || version = 2)
  | _, _ => false

/-- What brushes of the second version have in their header. -/
def name : Bytes := Bytes.ofLatin "GIMP"

def read (bytes : Bytes) : Except ImageFault ImageSize := do
  let version ← Header.big bytes 4 4
  let width ← Header.big bytes 8 4
  let height ← Header.big bytes 12 4
  let depth ← Header.big bytes 16 4
  ImageFault.suppose (depth = 1 || depth = 4)
  if version = 2 then
    ImageFault.suppose (Bytes.slice? 20 4 bytes = some name)
    let _ ← Header.big bytes 24 4
  ImageSize.accept ⟨width, height⟩

end GbrBrush

namespace PcdPhotograph

/-- Where the header is. -/
def headerStart : Nat := 2048

def headerLength : Nat := 1539

def start : Bytes := Bytes.ofLatin "PCD_"

def size : ImageSize := ⟨768, 512⟩

def read (bytes : Bytes) : Except ImageFault ImageSize := do
  let header ← ImageFault.expect (Bytes.slice? headerStart headerLength bytes)
  ImageFault.suppose (start.isPrefixOf header)
  pure size

end PcdPhotograph

namespace TgaImage

def depths : List Nat := [1, 8, 16, 24, 32]

/-- The kinds of pixels, those that are packed last. -/
def kinds : List Nat := [1, 2, 3, 9, 10, 11]

/-- The bits of a colour in a palette. -/
def colourDepths : List Nat := [16, 24, 32]

def read (bytes : Bytes) : Except ImageFault ImageSize := do
  let palette ← Header.little bytes 1 1
  let kind ← Header.little bytes 2 1
  let colourDepth ← Header.little bytes 7 1
  let width ← Header.little bytes 12 2
  let height ← Header.little bytes 14 2
  let depth ← Header.little bytes 16 1
  let _ ← Header.little bytes 17 1
  ImageFault.suppose (palette ≤ 1 && depths.contains depth && kinds.contains kind)
  ImageFault.suppose (palette = 0 || colourDepths.contains colourDepth)
  ImageSize.accept ⟨width, height⟩

end TgaImage

end Replay
