import Replay.ImageFault
import Replay.Inflate

namespace Replay

/-- What the chunks read so far say. -/
structure PngHeader where
  size : ImageSize
  /-- The colour type, when a known kind of pixels was named. -/
  colours : Option UInt8
  /-- The characters of all texts. -/
  textSize : Nat
  /-- The number of the last chunk of the animation. -/
  sequence : Option Nat

namespace PngHeader

def empty : PngHeader := ⟨⟨0, 0⟩, none, 0, none⟩

/-- The most bytes of one text. -/
def textLimit : Nat := 1024 * 1024

/-- The most characters of all texts. -/
def allTextLimit : Nat := 64 * textLimit

/-- The pairs of bit depth and colour type that images have. -/
def pixelKinds : List (UInt8 × UInt8) :=
  [(1, 0), (2, 0), (4, 0), (8, 0), (16, 0), (8, 2), (16, 2), (1, 3), (2, 3), (4, 3), (8, 3),
    (8, 4), (16, 4), (8, 6), (16, 6)]

/-- The size and the kind of the pixels. An unknown kind leaves the one before. -/
def readImage (h : PngHeader) (data : Bytes) : Except ImageFault PngHeader :=
  match data with
  | a :: b :: c :: d :: e :: f :: g :: i :: depth :: colours :: _ :: filter :: _ :: _ =>
    if filter = 0 then
      .ok { h with
        size := ⟨Bytes.big [a, b, c, d], Bytes.big [e, f, g, i]⟩
        colours := if pixelKinds.contains (depth, colours) then some colours else h.colours }
    else .error .notPng
  | _ => .error (.truncated "IHDR")

/-- A chunk whose content is not looked at, but has a least length. -/
def atLeast (length : Nat) (chunk : Text) (h : PngHeader) (data : Bytes) :
    Except ImageFault PngHeader :=
  if data.length < length then .error (.truncated chunk) else .ok h

/-- The announcement of an animation, of which the number of frames is not looked at. -/
def readAnimation (h : PngHeader) (data : Bytes) : Except ImageFault PngHeader :=
  if data.length < 8 then .error (.truncatedAnimation "acTL") else .ok h

/-- The transparent colour, for the kinds of pixels that have one. -/
def readTransparency (h : PngHeader) (data : Bytes) : Except ImageFault PngHeader :=
  match h.colours with
  | some 0 => atLeast 2 "tRNS" h data
  | some 2 => atLeast 6 "tRNS" h data
  | _ => .ok h

/-- What packed data holds, if it is sound. -/
def unpackText (packed : Bytes) : Except ImageFault (Option (Array UInt8)) :=
  match Inflate.unpack textLimit packed with
  | .ok data => .ok (some data)
  | .error .broken => .ok none
  | .error .tooLarge => .error .largeText

/-- A colour profile: its name, the way of packing, which is zero, and the packed profile. Without
a zero after the name the way of packing is the first byte. -/
def readProfile (h : PngHeader) (data : Bytes) : Except ImageFault PngHeader :=
  match (match Bytes.cutZero? data with | some (_, rest) => rest | none => data) with
  | [] => .error .notPng
  | 0 :: packed => (unpackText packed).map fun _ => h
  | _ => .error .notPng

/-- Counts the characters of a text. -/
def countText (h : PngHeader) (size : Nat) : Except ImageFault PngHeader :=
  if allTextLimit < h.textSize + size then .error (.tooMuchText (h.textSize + size))
  else .ok { h with textSize := h.textSize + size }

/-- A keyword and a text. What has no zero is all keyword. -/
def readText (h : PngHeader) (data : Bytes) : Except ImageFault PngHeader :=
  match Bytes.cutZero? data with
  | some ([], _) => .ok h
  | some (_, text) => h.countText text.length
  | none => .ok h

/-- A keyword, the way of packing, which is zero, and a packed text. -/
def readPackedText (h : PngHeader) (data : Bytes) : Except ImageFault PngHeader :=
  let (keyword, rest) := (Bytes.cutZero? data).getD (data, [])
  if (rest.headD 0) = 0 then do
    let text ← unpackText (rest.drop 1)
    if keyword.isEmpty then pure h else h.countText ((text.getD #[]).size)
  else .error .notPng

/-- A text with its language and its keyword in that language, all in UTF-8. The text may be
packed. -/
structure LanguageText where
  isPacked : Bool
  method : UInt8
  language : Bytes
  localKeyword : Bytes
  text : Bytes

def languageText? (data : Bytes) : Option LanguageText :=
  match Bytes.cutZero? data with
  | some (_, packed :: method :: rest) => do
    let (language, rest) ← Bytes.cutZero? rest
    let (localKeyword, text) ← Bytes.cutZero? rest
    pure ⟨packed != 0, method, language, localKeyword, text⟩
  | _ => none

def LanguageText.unpack (t : LanguageText) : Except ImageFault (Option Bytes) :=
  if !t.isPacked then .ok (some t.text)
  else if t.method = 0 then (unpackText t.text).map fun data => data.map Array.toList
  else .ok none

/-- The characters of UTF-8. -/
def characters? (bytes : Bytes) : Option Nat := ((Utf8.decode bytes).toOption).map List.length

/-- What is malformed or cannot be unpacked is passed over. -/
def readLanguageText (h : PngHeader) (data : Bytes) : Except ImageFault PngHeader :=
  match languageText? data with
  | none => .ok h
  | some t => do
    match ← t.unpack with
    | none => pure h
    | some text =>
      match characters? t.language, characters? t.localKeyword, characters? text with
      | some _, some _, some count => h.countText count
      | _, _, _ => pure h

/-- The number that the next chunk of the animation has. -/
def nextSequence (h : PngHeader) : Nat := (h.sequence.map (· + 1)).getD 0

/-- The number in four bytes of a chunk. -/
def number (data : Bytes) (place : Nat) : Nat := Bytes.big ((data.drop place).take 4)

/-- A frame: its number, and its size and place within the picture. -/
def readFrame (h : PngHeader) (data : Bytes) : Except ImageFault PngHeader :=
  if data.length < 26 then .error (.truncatedAnimation "fcTL")
  else if number data 0 != h.nextSequence then .error .notPng
  else if h.size.width < number data 12 + number data 4
      || h.size.height < number data 16 + number data 8 then
    .error .notPng
  else .ok { h with sequence := some (number data 0) }

/-- The number in front of the pixels of a frame, which follows some frame. -/
def readFramePixels (h : PngHeader) (length : Nat) (rest : Bytes) :
    Except ImageFault (PngHeader × Bytes) :=
  if length < 4 then .error (.truncatedAnimation "fDAT")
  else
    match Bytes.split? 4 rest with
    | some (number, rest) =>
      if h.sequence.isSome && Bytes.big number = h.nextSequence then
        .ok ({ h with sequence := some (Bytes.big number) }, rest)
      else .error .notPng
    | none => .error .notPng

/-- How the chunks of each name are read. -/
def readers : List (Text × (PngHeader → Bytes → Except ImageFault PngHeader)) := [
  ("IHDR", readImage), ("iCCP", readProfile), ("tRNS", readTransparency),
  ("gAMA", atLeast 4 "gAMA"), ("cHRM", atLeast 32 "cHRM"), ("sRGB", atLeast 1 "sRGB"),
  ("pHYs", atLeast 9 "pHYs"), ("tEXt", readText), ("zTXt", readPackedText),
  ("iTXt", readLanguageText), ("acTL", readAnimation), ("fcTL", readFrame)
]

/-- Reads a chunk. Those that nothing is known of are passed over. -/
def read (h : PngHeader) (name : Text) (data : Bytes) : Except ImageFault PngHeader :=
  match readers.lookup name with
  | some reader => reader h data
  | none => .ok h

/-- The size of the image, once all chunks ahead of the pixels are read. -/
def imageSize (h : PngHeader) : Except ImageFault ImageSize := do
  ImageFault.require h.colours.isSome
  h.size.accept

end PngHeader

end Replay
