import Replay.ImageFault
import Replay.RealReader

namespace Replay

namespace Netpbm

/-- What the header says of the pixels. -/
inductive PixelForm where
  /-- Black or white; nothing is said. -/
  | bilevel
  /-- Whole numbers up to a brightest one. -/
  | whole
  /-- Real numbers with a scale. -/
  | real
deriving DecidableEq

/-- The words that images start with. -/
def forms : List (Text × PixelForm) := [
  ("P1", .bilevel), ("P2", .whole), ("P3", .whole), ("P4", .bilevel), ("P5", .whole),
  ("P6", .whole), ("P0CMYK", .whole), ("Pf", .real), ("PyP", .whole), ("PyRGBA", .whole),
  ("PyCMYK", .whole)
]

def isBlank (b : UInt8) : Bool := b = 0x20 || (0x09 ≤ b && b ≤ 0x0D)

/-- The most bytes of the first word. -/
def magicLimit : Nat := 6

/-- The word at the start, and what follows the blank after it. -/
def readMagic (bytes : Bytes) : Text × Bytes :=
  let magic := (bytes.take magicLimit).takeWhile fun b => !isBlank b
  (Bytes.latin magic, bytes.drop (min (magic.length + 1) magicLimit))

/-- The most bytes of the other words. -/
def wordLimit : Nat := 10

/-- Reads on in a word, or in a comment ahead of it or inside it, up to the blank after the word or
to one byte too many. -/
def wordFrom (comment : Bool) (word : Bytes) : Bytes → Bytes × Bytes
  | [] => (word, [])
  | b :: rest =>
    if comment then wordFrom (b != 0x0D && b != 0x0A) word rest
    else if wordLimit < word.length then (word, b :: rest)
    else if isBlank b then if word.isEmpty then wordFrom false word rest else (word, rest)
    else if b = 0x23 then wordFrom true word rest
    else wordFrom false (word ++ [b]) rest

def readWord (bytes : Bytes) : Except ImageFault (Bytes × Bytes) :=
  let (word, rest) := wordFrom false [] bytes
  if word.isEmpty then .error .headerEnds
  else if wordLimit < word.length then .error (.longWord word)
  else .ok (word, rest)

def readInteger (bytes : Bytes) : Except ImageFault (Int × Bytes) := do
  let (word, rest) ← readWord bytes
  pure (← ImageFault.readInt word, rest)

def readDouble (bytes : Bytes) : Except ImageFault (Double × Bytes) := do
  let (word, rest) ← readWord bytes
  match if word.all (· < 0x80) then Text.toDouble? (Bytes.latin word) else none with
  | some x => pure (x, rest)
  | none => .error (.notNumber (Json.shownBytes word))

/-- What has to hold of the pixels. -/
def checkForm (form : PixelForm) (bytes : Bytes) : Except ImageFault Unit :=
  match form with
  | .bilevel => .ok ()
  | .whole => do
    let (brightest, _) ← readInteger bytes
    if 0 < brightest && brightest < 65536 then pure () else .error .brightest
  | .real => do
    let (scale, _) ← readDouble bytes
    if scale.isFinite && !scale.same .zero then pure () else .error .scale

def isStart : Bytes → Bool
  | a :: b :: _ => a = 0x50 && ((0x30 ≤ b && b ≤ 0x36) || b = 0x66 || b = 0x79)
  | _ => false

/-- The size of the image that the bytes hold. -/
def read (bytes : Bytes) : Except ImageFault ImageSize := do
  let (magic, rest) := readMagic bytes
  let form ← ImageFault.expect (forms.lookup magic)
  let (width, rest) ← readInteger rest
  let (height, rest) ← readInteger rest
  checkForm form rest
  ImageSize.accept ⟨width.toNat, height.toNat⟩

end Netpbm

end Replay
