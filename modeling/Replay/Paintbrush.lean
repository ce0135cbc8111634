import Replay.ImageFault

namespace Replay

namespace PcxImage

/-- The versions of the format. -/
def versions : List UInt8 := [0, 2, 3, 5]

def isStart : Bytes → Bool
  | a :: b :: _ => a = 10 && versions.contains b
  | _ => false

def headerLength : Nat := 68

/-- Whether pixels of some bits and layers can be read. -/
def isKnown (version bits layers : Nat) : Bool :=
  (bits = 1 && [1, 2, 4].contains layers) || (version = 5 && bits = 8 && [1, 3].contains layers)

/-- The size is that of the frame around the pixels, whose corners count. -/
def read (bytes : Bytes) : Except ImageFault ImageSize := do
  let header ← ImageFault.expect (Bytes.slice? 0 headerLength bytes)
  ImageFault.suppose (isStart header)
  let left ← Header.little header 4 2
  let top ← Header.little header 6 2
  let right ← Header.little header 8 2
  let bottom ← Header.little header 10 2
  ImageFault.suppose (left ≤ right && top ≤ bottom)
  let version ← Header.little header 1 1
  let bits ← Header.little header 3 1
  let layers ← Header.little header 65 1
  ImageFault.require (isKnown version bits layers)
  ImageSize.accept ⟨right + 1 - left, bottom + 1 - top⟩

end PcxImage

namespace DcxFile

def start : Bytes := [0xB1, 0x68, 0xDE, 0x3A]

/-- The most images of one file. -/
def imageLimit : Nat := 1024

/-- Whether a directory ends soundly: with a zero, or after all images that there may be. -/
def isDirectory : Nat → Bytes → Bool
  | 0, _ => true
  | count + 1, bytes =>
    match Bytes.split? 4 bytes with
    | none => false
    | some (place, rest) => Bytes.little place = 0 || isDirectory count rest

/-- The size of the first image. -/
def read (bytes : Bytes) : Except ImageFault ImageSize := do
  let place ← Header.little bytes 4 4
  ImageFault.suppose (place != 0 && isDirectory imageLimit (bytes.drop 4))
  PcxImage.read (bytes.drop place)

end DcxFile

end Replay
