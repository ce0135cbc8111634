import Replay.ImageFault

namespace Replay

namespace Metafile

def placeableStart : Bytes := [0xD7, 0xCD, 0xC6, 0x9A, 0x00, 0x00]

def enhancedStart : Bytes := [0x01, 0x00, 0x00, 0x00]

def starts : List Bytes := [placeableStart, enhancedStart]

/-- The pixels of an inch. -/
def resolution : Int := 72

/-- What stands after the placement of a drawing. -/
def standardStart : Bytes := [0x01, 0x00, 0x09, 0x00]

def readPlaceable (bytes : Bytes) : Except ImageFault ImageSize := do
  let inch ← Header.little bytes 14 2
  if inch = 0 then throw .noInch
  let left ← Header.littleSigned bytes 6 2
  let top ← Header.littleSigned bytes 8 2
  let right ← Header.littleSigned bytes 10 2
  let bottom ← Header.littleSigned bytes 12 2
  ImageFault.suppose (Bytes.slice? 22 4 bytes = some standardStart)
  (ImageSize.ofInts (Int.fdiv ((right - left) * resolution) inch)
    (Int.fdiv ((bottom - top) * resolution) inch)).accept

/-- What marks an enhanced drawing. -/
def enhancedMark : Bytes := Bytes.ofLatin " EMF"

def readEnhanced (bytes : Bytes) : Except ImageFault ImageSize := do
  ImageFault.suppose (Bytes.slice? 40 4 bytes = some enhancedMark)
  let word := fun i => Header.littleSigned bytes (8 + 4 * i) 4
  let left ← word 0
  let top ← word 1
  let right ← word 2
  let bottom ← word 3
  if (← word 4) = (← word 6) then throw .noFrame
  if (← word 5) = (← word 7) then throw .noFrame
  (ImageSize.ofInts (right - left) (bottom - top)).accept

def read (bytes : Bytes) : Except ImageFault ImageSize :=
  if placeableStart.isPrefixOf bytes then readPlaceable bytes else readEnhanced bytes

end Metafile

end Replay
