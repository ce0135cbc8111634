import Replay.ImageFault

namespace Replay

namespace Gif

/-- What is known ahead of the first image. -/
structure Screen where
  size : ImageSize
  /-- How the image is disposed of before the next one; zero if nothing is said. -/
  disposal : Nat
  hasTransparency : Bool

/-- The number in two bytes. -/
def short (bytes : Bytes) (start : Nat) : Nat := Bytes.little ((bytes.drop start).take 2)

/-- The number of bytes of the palette that some flags announce. -/
def paletteSize (flags : UInt8) : Nat :=
  if flags.toNat / 128 = 1 then 3 * 2 ^ (flags.toNat % 8 + 1) else 0

/-- A block of data after its length. An empty one ends a row of blocks. -/
def readBlock : Bytes → Option Bytes × Bytes
  | [] => (none, [])
  | n :: rest =>
    if n = 0 then (none, rest) else (some (rest.take n.toNat), rest.drop n.toNat)

/-- What follows a row of blocks. -/
def skipBlocks (fuel : Nat) (bytes : Bytes) : Bytes :=
  match fuel with
  | 0 => bytes
  | fuel + 1 =>
    match readBlock bytes with
    | (some (_ :: _), rest) => skipBlocks fuel rest
    | (_, rest) => rest

/-- How the next image is shown. -/
def Screen.readControl (s : Screen) (block : Bytes) : Except ImageFault Screen := do
  ImageFault.suppose (3 ≤ block.length)
  let flags := (block.headD 0).toNat
  ImageFault.suppose (flags % 2 = 0 || 4 ≤ block.length)
  let disposal := flags / 4 % 8
  pure { s with
    disposal := if disposal = 0 then s.disposal else disposal
    hasTransparency := s.hasTransparency || flags % 2 = 1 }

/-- The extension that says how the next image is shown. -/
def controlLabel : UInt8 := 249

def commentLabel : UInt8 := 254

def applicationLabel : UInt8 := 255

/-- The application whose second block says how often the animation runs. -/
def loopName : Text := "NETSCAPE2.0"

/-- Whether a block has another one as its second part. -/
def startsLoop (label : UInt8) (block : Option Bytes) : Bool :=
  label = applicationLabel && (block.any fun b => (Bytes.latin b).startsWith loopName)

/-- Reads an extension from its label on. The blocks after its first one are passed over. -/
def Screen.readExtension (s : Screen) (fuel : Nat) :
    Bytes → Except ImageFault (Screen × Bytes)
  | [] => .error .unlike
  | label :: rest =>
    let (block, rest) := readBlock rest
    if label = commentLabel then
      .ok (s, if (block.getD []).isEmpty then rest else skipBlocks fuel rest)
    else
      let rest := if startsLoop label block then (readBlock rest).2 else rest
      let rest := skipBlocks fuel rest
      match block with
      | some block =>
        if label = controlLabel then (s.readControl block).map fun s => (s, rest) else .ok (s, rest)
      | none => .ok (s, rest)

/-- Reads the place of an image. The screen grows to hold it; the pixels have a start at least, and
clearing the image afterwards needs a part as large as the image. -/
def Screen.readImage (s : Screen) (bytes : Bytes) : Except ImageFault ImageSize := do
  let (place, rest) ← ImageFault.expect (Bytes.split? 9 bytes)
  let image : ImageSize := ⟨short place 4, short place 6⟩
  let right := short place 0 + image.width
  let bottom := short place 2 + image.height
  let size : ImageSize := ⟨max s.size.width right, max s.size.height bottom⟩
  if size = s.size then pure () else size.check
  ImageFault.suppose (!(rest.drop (paletteSize (place.getD 8 0))).isEmpty)
  if s.disposal = 2 || 2 < s.disposal && s.hasTransparency then image.check else pure ()
  size.accept

/-- Reads up to the first image. What is neither an extension nor an image nor the end is passed
over. -/
def Screen.read (s : Screen) (fuel : Nat) (bytes : Bytes) : Except ImageFault ImageSize :=
  match fuel, bytes with
  | fuel + 1, b :: rest =>
    if b = 0x3B then .error .unlike
    else if b = 0x21 then
      match s.readExtension fuel rest with
      | .ok (s, rest) => s.read fuel rest
      | .error e => .error e
    else if b = 0x2C then s.readImage rest
    else s.read fuel rest
  | _, _ => .error .unlike

def isStart (bytes : Bytes) : Bool :=
  let start := Bytes.latin (bytes.take 6)
  start = "GIF87a" || start = "GIF89a"

/-- The size of the image that the bytes hold. -/
def read (bytes : Bytes) : Except ImageFault ImageSize := do
  let (screen, rest) ← ImageFault.expect (Bytes.split? 13 bytes)
  let rest := rest.drop (paletteSize (screen.getD 10 0))
  Screen.read ⟨⟨short screen 6, short screen 8⟩, 0, false⟩ rest.length rest

end Gif

end Replay
