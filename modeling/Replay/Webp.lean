import Replay.ImageFault

namespace Replay

namespace Webp

def isStart (bytes : Bytes) : Bool :=
  (Bytes.ofLatin "RIFF").isPrefixOf bytes
    && Bytes.slice? 8 4 bytes = some (Bytes.ofLatin "WEBP")
    && Bytes.slice? 12 3 bytes = some (Bytes.ofLatin "VP8")
    && ((bytes[15]?).any fun b => (Bytes.ofLatin " XL").contains b)

/-- The most bits of a side. -/
def sideBits : Nat := 14

/-- The start of a key frame. -/
def frameStart : Bytes := [0x9D, 0x01, 0x2A]

/-- The start of pixels that are packed without loss. -/
def losslessStart : Bytes := [0x2F]

/-- The size of a whole canvas: each side less one, in three bytes. -/
def canvas? (bytes : Bytes) : Option ImageSize := do
  let width ← Bytes.slice? 24 3 bytes
  let height ← Bytes.slice? 27 3 bytes
  pure ⟨width.little + 1, height.little + 1⟩

/-- The size of an image without loss: each side less one, one after the other. -/
def lossless? (bytes : Bytes) : Option ImageSize := do
  let sides ← Bytes.slice? 21 4 bytes
  if Bytes.slice? 20 1 bytes != some losslessStart then none
  else
    pure ⟨sides.little % 2 ^ sideBits + 1, sides.little / 2 ^ sideBits % 2 ^ sideBits + 1⟩

/-- The size of a key frame, each side below two bits of another use. -/
def frame? (bytes : Bytes) : Option ImageSize := do
  let width ← Bytes.slice? 26 2 bytes
  let height ← Bytes.slice? 28 2 bytes
  if Bytes.slice? 23 3 bytes != some frameStart then none
  else pure ⟨width.little % 2 ^ sideBits, height.little % 2 ^ sideBits⟩

/-- The size that the first chunk gives. -/
def size? (bytes : Bytes) : Option ImageSize :=
  let kind := (bytes[15]?).getD 0
  if kind = 0x58 then canvas? bytes
  else if kind = 0x4C then lossless? bytes
  else frame? bytes

def read (bytes : Bytes) : Except ImageFault ImageSize := do
  let size ← ImageFault.need (size? bytes)
  size.check
  pure size

end Webp

end Replay
