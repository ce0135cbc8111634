import Replay.ImageFault
import Replay.RealReader

namespace Replay

/-- The length of the part that has to hold the end of a line, and the most bytes of a line. -/
def labelLimit : Nat := 100

namespace ImImage

/-- A line without the characters that end it. -/
def withoutEnd (line : Bytes) : Bytes :=
  if (Bytes.ofLatin "\r\n").isSuffixOf line then line.take (line.length - 2)
  else if (Bytes.ofLatin "\n").isSuffixOf line then line.dropLast
  else line

def isLetter (b : UInt8) : Bool := (0x41 ≤ b && b ≤ 0x5A) || (0x61 ≤ b && b ≤ 0x7A)

def isBlank (b : UInt8) : Bool := b = 0x20 || b = 0x09

/-- The label of a line, which begins with a letter, and its value. -/
def label? (line : Bytes) : Option (Text × Text) :=
  match line.span (· != 0x3A) with
  | (name, _ :: value) =>
    if (name.head?.elim false isLetter) then
      some (Bytes.latin name, Bytes.latin (value.dropWhile isBlank))
    else none
  | (_, []) => none

/-- A whole number, or else a real one. -/
def readNumber (t : Text) : Except ImageFault Number :=
  match Text.readInt t with
  | .ok n => .ok (.int n)
  | .error _ =>
    match Text.toDouble? t with
    | some x => .ok (.real x)
    | none => .error (.notNumber (Json.shownText t))

/-- Numbers between commas or asterisks. -/
def readNumbers (t : Text) : Except ImageFault (List Number) :=
  let t := t.map fun c => if c = ('*' : CodePoint) then CodePoint.ofChar ',' else c
  (Text.splitOn ',' t).mapM readNumber

def sizeLabel : Text := "Image size (x*y)"

def kindLabel : Text := "Image type"

def paletteLabel : Text := "Lut"

/-- The labels whose values are numbers. -/
def numberLabels : List Text := ["File size (no of images)", "Scale (x,y)", sizeLabel]

/-- The labels by which an image is told from other texts. -/
def knownLabels : List Text :=
  numberLabels ++ [kindLabel, paletteLabel, "Comment", "Date", "Digitalization equipment", "Name"]

/-- What is known after some lines. -/
structure Reading where
  size : List Number
  hasKind : Bool
  hasPalette : Bool
  isKnown : Bool

def Reading.empty : Reading := ⟨[.int 512, .int 512], true, false, false⟩

/-- Reads a line. -/
def Reading.readLine (r : Reading) (line : Bytes) : Except ImageFault Reading := do
  let (name, value) ← ImageFault.expect (label? line)
  let numbers ← if numberLabels.contains name then readNumbers value else pure []
  pure ⟨if name = sizeLabel then numbers else r.size,
    if name = kindLabel then !value.isEmpty else r.hasKind,
    r.hasPalette || name = paletteLabel, r.isKnown || knownLabels.contains name⟩

/-- A line with the line feed that ends it, and what follows. -/
def cutLine (bytes : Bytes) : Bytes × Bytes :=
  match bytes.span (· != 0x0A) with
  | (line, []) => (line, [])
  | (line, feed :: rest) => (line ++ [feed], rest)

/-- Reads lines up to a byte that ends them, and gives what follows the end of the header. -/
def Reading.run (fuel : Nat) (r : Reading) (bytes : Bytes) : Except ImageFault (Reading × Bytes) :=
  match fuel, bytes with
  | _, [] => .error .unlike
  | 0, _ => .error .notPng
  | fuel + 1, b :: rest =>
    if b = 0x0D then r.run fuel rest
    else if b = 0 || b = 0x1A then
      match (b :: rest).dropWhile (· != 0x1A) with
      | [] => .error .unlike
      | _ :: rest => .ok (r, rest)
    else
      let (line, rest) := cutLine rest
      if labelLimit < line.length + 1 then .error .unlike
      else
        match r.readLine (withoutEnd (b :: line)) with
        | .ok r => r.run fuel rest
        | .error e => .error e

/-- The bytes of a palette. -/
def paletteLength : Nat := 768

/-- A side that counts as one at least. -/
def atLeastOne (n : Number) : Number := if (Number.int 1).lt n then n else .int 1

/-- Checks the two numbers that make the size; they need not be whole. -/
def checkSize (width height : Number) : Except ImageFault Unit := do
  ImageFault.suppose (!width.le (.int 0) && !height.le (.int 0))
  let count ← ((atLeastOne width).mul (atLeastOne height)).mapError ImageFault.number
  if (Number.int ImageSize.pixelLimit).lt count then throw (.tooManyPixels count)

def read (bytes : Bytes) : Except ImageFault ImageSize := do
  ImageFault.suppose ((bytes.take labelLimit).contains 0x0A)
  let (r, rest) ← Reading.empty.run bytes.length bytes
  ImageFault.suppose r.isKnown
  ImageFault.suppose (!r.hasPalette || paletteLength ≤ rest.length)
  match r.size with
  | width :: height :: _ =>
    ImageFault.suppose r.hasKind
    checkSize width height
    throw .notPng
  | _ => throw .unlike

end ImImage

namespace ImtImage

/-- The name and the value of a line: small letters, a blank, and a word. -/
def field? (line : Bytes) : Option (Bytes × Bytes) :=
  match line.span fun b => 0x61 ≤ b && b ≤ 0x7A with
  | (name, 0x20 :: rest) =>
    some (name, rest.takeWhile fun b => !(b = 0x20 || b = 0x0D || b = 0x0A))
  | _ => none

/-- What is known after some lines. -/
structure Reading where
  width : Int
  height : Int
  isKnown : Bool

/-- Reads a field. -/
def Reading.readField (r : Reading) (name value : Bytes) : Except ImageFault Reading := do
  if name = Bytes.ofLatin "width" then pure { r with width := ← ImageFault.readInt value }
  else if name = Bytes.ofLatin "height" then pure { r with height := ← ImageFault.readInt value }
  else if name = Bytes.ofLatin "pixel" && value = Bytes.ofLatin "n8" then
    pure { r with isKnown := true }
  else pure r

/-- Reads lines up to the form feed ahead of the pixels, or to one that is no field. -/
def Reading.run (fuel : Nat) (r : Reading) (bytes : Bytes) : Except ImageFault Reading :=
  match fuel, bytes with
  | fuel + 1, first :: rest =>
    if first = 0x0C then .ok r
    else
      let (line, rest) := rest.span (· != 0x0A)
      let line := first :: line
      let rest := rest.drop 1
      if line.length = 1 || labelLimit < line.length then .ok r
      else if first = 0x2A then r.run fuel rest
      else
        match field? line with
        | none => .ok r
        | some (name, value) =>
          match r.readField name value with
          | .ok r => r.run fuel rest
          | .error e => .error e
  | _, _ => .ok r

def read (bytes : Bytes) : Except ImageFault ImageSize := do
  ImageFault.suppose ((bytes.take labelLimit).contains 0x0A)
  let r ← Reading.run bytes.length ⟨0, 0, false⟩ bytes
  ImageFault.suppose r.isKnown
  (ImageSize.ofInts r.width r.height).accept

end ImtImage

end Replay
