import Replay.Integer
import Replay.Number

namespace Replay

structure ImageSize where
  width : Nat
  height : Nat
deriving DecidableEq

/-- Why bytes are no image that can be used. -/
inductive ImageFault where
  /-- The bytes do not follow the format, so that they may be of another one. -/
  | unlike
  | notPng
  /-- A chunk is shorter than its content. -/
  | truncated (chunk : Text)
  /-- A chunk of an animation is shorter than its content. -/
  | truncatedAnimation (chunk : Text)
  | largeText
  | tooMuchText (size : Nat)
  /-- The image ends before any pixel data. -/
  | noData
  | tooManyPixels (count : Number)
  /-- A header in text ends before all of it was read. -/
  | headerEnds
  /-- A word of a header in text is too long; this much of it was read. -/
  | longWord (word : Bytes)
  | notInteger (base : Nat) (word : Bytes)
  | longInteger (digits : Nat)
  /-- A word is no number; it is given as it is shown. -/
  | notNumber (shown : Text)
  | number (e : NumberError)
  /-- A row of numbers is too short. -/
  | missingNumbers (expected found : Nat)
  /-- The brightest value of the pixels is out of range. -/
  | brightest
  | scale
  /-- A place ahead of the file. -/
  | negativePlace (place : Int)
  /-- A place that no file reaches. -/
  | farPlace
  | textureCount (count : Int)
  | textureKind (kind : Int)
  | textureFlags (flags : Nat)
  | textureCode (code : Nat)
  | textureExtendedCode (code : Nat)
  | channels
  /-- A data file without an image. -/
  | noImage
  | noInch
  | noFrame
  | tooManyColours
  /-- A width or a height that is no whole number. -/
  | sizeKind
  /-- Tiles with a width or a height that is no whole number. -/
  | tileSizeKind
  | farDirectory
  | colour
  /-- The opacity of an icon ends too early. -/
  | shortOpacity
  /-- The mask of an icon ends too early. -/
  | shortMask
  /-- An image without rows. -/
  | outside
  /-- An image without rows, in runs of pixels. -/
  | negativeSize
  | noStack
deriving DecidableEq

/-- What an error blames. -/
inductive FaultKind where
  | value
  | index
  | size
  | unsupported
  | division
  | overflow
  | attribute
deriving DecidableEq

namespace ImageFault

/-- Takes what an image has to hold. -/
def need {α : Type} : Option α → Except ImageFault α
  | some a => .ok a
  | none => .error .notPng

/-- Turns down what no image holds. -/
def require (holds : Bool) : Except ImageFault Unit :=
  if holds then .ok () else .error .notPng

/-- Takes what every image of the format holds. -/
def expect {α : Type} : Option α → Except ImageFault α
  | some a => .ok a
  | none => .error .unlike

/-- Turns down what is of another format. -/
def suppose (holds : Bool) : Except ImageFault Unit :=
  if holds then .ok () else .error .unlike

/-- Reads an integer that is written in ASCII. -/
def readInt (word : Bytes) : Except ImageFault Int :=
  if !word.all (· < 0x80) then .error (.notInteger 10 word)
  else
    match Text.readInt (Bytes.latin word) with
    | .ok n => .ok n
    | .error (.tooManyDigits count) => .error (.longInteger count)
    | .error (.malformed _) => .error (.notInteger 10 word)

def kind : ImageFault → FaultKind
  | noData => .index
  | tooManyPixels _ => .size
  | textureFlags _ => .unsupported
  | textureCode _ => .unsupported
  | textureExtendedCode _ => .unsupported
  | noFrame => .division
  | farPlace => .overflow
  | number .integerOfInfinity => .overflow
  | number .integerTooLarge => .overflow
  | noStack => .attribute
  | _ => .value

end ImageFault

namespace ImageSize

/-- The most pixels of one image. -/
def pixelLimit : Nat := 178956970

/-- The pixels of an image, where no side counts as less than one. -/
def pixels (size : ImageSize) : Nat := max 1 size.width * max 1 size.height

def isEmpty (size : ImageSize) : Bool := size.width = 0 || size.height = 0

/-- Refuses too many pixels. -/
def check (size : ImageSize) : Except ImageFault Unit :=
  if pixelLimit < size.pixels then .error (.tooManyPixels (.int size.pixels)) else .ok ()

/-- The size of an image whose headers are read: it has pixels and not too many. -/
def accept (size : ImageSize) : Except ImageFault ImageSize :=
  if size.isEmpty then .error .unlike else size.check.map fun _ => size

/-- The size that two numbers give; no image has a negative one. -/
def ofInts (width height : Int) : ImageSize := ⟨width.toNat, height.toNat⟩

end ImageSize

namespace Header

/-- The number in some bytes, the lowest byte first. -/
def little (bytes : Bytes) (start count : Nat) : Except ImageFault Nat :=
  (ImageFault.expect (Bytes.slice? start count bytes)).map Bytes.little

/-- The number in some bytes, the highest byte first. -/
def big (bytes : Bytes) (start count : Nat) : Except ImageFault Nat :=
  (ImageFault.expect (Bytes.slice? start count bytes)).map Bytes.big

/-- The number that `count` bytes hold when their highest bit stands for a sign. -/
def signed (count n : Nat) : Int := if n < 2 ^ (8 * count - 1) then n else n - 2 ^ (8 * count)

def littleSigned (bytes : Bytes) (start count : Nat) : Except ImageFault Int :=
  (little bytes start count).map (signed count)

def bigSigned (bytes : Bytes) (start count : Nat) : Except ImageFault Int :=
  (big bytes start count).map (signed count)

end Header

end Replay
