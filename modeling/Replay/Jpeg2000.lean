import Replay.ImageFault

namespace Replay

namespace Jpeg2000

/-- What a bare stream begins with. -/
def streamStart : Bytes := [0xFF, 0x4F, 0xFF, 0x51]

/-- What a file of boxes begins with. -/
def fileStart : Bytes :=
  [0x00, 0x00, 0x00, 0x0C, 0x6A, 0x50, 0x20, 0x20, 0x0D, 0x0A, 0x87, 0x0A]

/-- Whether segments can be read up to a comment, to the first tile, or to the end. -/
def areSegments (fuel : Nat) (bytes : Bytes) : Bool :=
  match fuel, bytes with
  | _, [] => true
  | 0, _ => false
  | _, [_] => false
  | fuel + 1, _ :: kind :: rest =>
    if kind = 0x90 || kind = 0xD9 then true
    else
      match Bytes.split? 2 rest with
      | none => false
      | some (length, _) => kind = 0x64 || areSegments fuel (rest.drop (Bytes.big length))

/-- Reads the segment that gives the size, after its marker. -/
def readStream (bytes : Bytes) : Except ImageFault ImageSize := do
  let length ← Header.big bytes 0 2
  let segment := if length < 2 then bytes else bytes.take length
  let word := fun i => Header.big segment (4 + 4 * i) 4
  let right ← word 0
  let bottom ← word 1
  let left ← word 2
  let top ← word 3
  let layers ← Header.big segment 36 2
  ImageFault.suppose (1 ≤ layers && layers ≤ 4)
  if layers = 1 then
    let _ ← Header.big segment 38 1
  ImageFault.suppose (areSegments bytes.length (bytes.drop segment.length))
  (ImageSize.ofInts (right - left) (bottom - top)).accept

/-- A box: its name, its content and what follows it. -/
structure Box where
  name : Bytes
  length : Nat
  rest : Bytes

/-- Reads the start of a box; `none` where there is too little of it. A length of one stands for a
longer number after the name. -/
def boxStart? (bytes : Bytes) : Option (Except ImageFault Box) := do
  let (length, rest) ← Bytes.split? 4 bytes
  let (name, rest) ← Bytes.split? 4 rest
  if Bytes.big length = 1 then
    let (length, rest) ← Bytes.split? 8 rest
    let length := Bytes.big length
    pure (if length < 16 then .error .unlike else .ok ⟨name, length - 16, rest⟩)
  else
    let length := Bytes.big length
    pure (if length < 8 then .error .unlike else .ok ⟨name, length - 8, rest⟩)

/-- The content of the box with the header, and what follows that box. -/
def headerBox (fuel : Nat) (bytes : Bytes) : Except ImageFault (Bytes × Bytes) := do
  match fuel with
  | 0 => throw .notPng
  | fuel + 1 =>
    let box ← (← ImageFault.need (boxStart? bytes))
    if box.name = Bytes.ofLatin "jp2h" then ImageFault.need (Bytes.split? box.length box.rest)
    else
      if box.name = Bytes.ofLatin "ftyp" then
        ImageFault.suppose (4 ≤ box.length)
        ImageFault.require (4 ≤ box.rest.length)
      headerBox fuel (box.rest.drop box.length)

/-- What the boxes of a header say: the size, the number of layers, and whether the layers have one
or two values that a palette may stand for. -/
structure Description where
  size : Option ImageSize
  layers : Nat
  isKnown : Bool
  isGrey : Bool

/-- The most colours of a palette. -/
def colourLimit : Nat := 256

/-- Reads colours of a palette, of which there are not too many. Colours of one or two values take
too little room for that. -/
def checkColours (length : Nat) (known : List Bytes) : Nat → Bytes → Except ImageFault Unit
  | 0, _ => .ok ()
  | count + 1, bytes => do
    let (colour, rest) ← ImageFault.expect (Bytes.split? length bytes)
    if length ≤ 2 || known.contains colour then checkColours length known count rest
    else if colourLimit ≤ known.length then throw .tooManyColours
    else checkColours length (colour :: known) count rest

/-- Reads a palette, which is taken only if its values have eight bits. -/
def readPalette (d : Description) (data : Bytes) : Except ImageFault Description := do
  let count ← Header.big data 0 2
  let layers ← Header.big data 2 1
  let (depths, rest) ← ImageFault.expect (Bytes.split? layers (data.drop 3))
  if depths.all (· ≤ 8) then
    checkColours layers [] count rest
    pure { d with isGrey := false }
  else pure d

/-- Reads how far apart pixels are; the first box of the kind for that counts. -/
def checkResolution (fuel : Nat) (bytes : Bytes) : Except ImageFault Unit :=
  match fuel, bytes with
  | _, [] => .ok ()
  | 0, _ => .error .unlike
  | fuel + 1, bytes => do
    let box ← (← ImageFault.expect (boxStart? bytes))
    let (data, rest) ← ImageFault.expect (Bytes.split? box.length box.rest)
    if box.name = Bytes.ofLatin "resc" then ImageFault.suppose (10 ≤ data.length)
    else checkResolution fuel rest

/-- Reads a box of the header. -/
def Description.read (d : Description) (name data : Bytes) : Except ImageFault Description := do
  if name = Bytes.ofLatin "ihdr" then
    let height ← Header.big data 0 4
    let width ← Header.big data 4 4
    let layers ← Header.big data 8 2
    let depth ← Header.big data 10 1
    let isKnown := 1 ≤ layers && layers ≤ 4
    pure ⟨some ⟨width, height⟩, layers, d.isKnown || isKnown,
      if isKnown then (layers = 1 && depth % 128 ≤ 8) || layers = 2 else d.isGrey⟩
  else if name = Bytes.ofLatin "colr" && d.layers = 4 then
    ImageFault.suppose (7 ≤ data.length)
    pure d
  else if name = Bytes.ofLatin "pclr" && d.isGrey then readPalette d data
  else if name = Bytes.ofLatin "res " then
    checkResolution data.length data
    pure d
  else pure d

/-- Reads all boxes of the header. -/
def Description.readAll (d : Description) (fuel : Nat) (bytes : Bytes) :
    Except ImageFault Description :=
  match fuel, bytes with
  | _, [] => .ok d
  | 0, _ => .error .unlike
  | fuel + 1, bytes => do
    let box ← (← ImageFault.expect (boxStart? bytes))
    let (data, rest) ← ImageFault.expect (Bytes.split? box.length box.rest)
    (← d.read box.name data).readAll fuel rest

/-- Whether the stream in the next box, if there is one, begins with sound segments. -/
def checkStream (bytes : Bytes) : Except ImageFault Unit := do
  if (Bytes.ofLatin "jp2c" ++ streamStart).isSuffixOf (bytes.take 12) then
    let length ← Header.big bytes 12 2
    ImageFault.suppose (areSegments bytes.length (bytes.drop (12 + length)))

/-- Reads a file of boxes after its start. -/
def readFile (bytes : Bytes) : Except ImageFault ImageSize := do
  let (header, rest) ← headerBox bytes.length bytes
  let d ← Description.readAll ⟨none, 0, false, false⟩ header.length header
  let size ← ImageFault.expect d.size
  ImageFault.suppose d.isKnown
  checkStream rest
  size.accept

/-- The size of the image that the bytes hold. -/
def read (bytes : Bytes) : Except ImageFault ImageSize :=
  if streamStart.isPrefixOf bytes then readStream (bytes.drop streamStart.length)
  else readFile (bytes.drop fileStart.length)

end Jpeg2000

end Replay
