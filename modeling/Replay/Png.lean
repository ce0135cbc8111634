import Replay.PngHeader

namespace Replay

namespace Png

def signature : Bytes := [0x89, 0x50, 0x4E, 0x47, 0x0D, 0x0A, 0x1A, 0x0A]

/-- The chunk that ends an image. -/
def endName : Text := "IEND"

/-- The chunk that holds pixels. -/
def dataName : Text := "IDAT"

/-- The chunk that holds pixels of a frame. -/
def frameDataName : Text := "fdAT"

/-- Whether a name can be that of a chunk: letters, digits and underscores. -/
def isName (name : Text) : Bool := name.all fun c => c.isAlphanum || c = ('_' : CodePoint)

/-- The length and the name at the start of a chunk, with the bytes after them. -/
def chunkStart? : Bytes → Option (Nat × Text × Bytes)
  | a :: b :: c :: d :: e :: f :: g :: h :: rest =>
    let name := Bytes.latin [e, f, g, h]
    if isName name then some (Bytes.big [a, b, c, d], name, rest) else none
  | _ => none

/-- The bytes after the checksum of a chunk, if the checksum is right. -/
def afterChecksum? (name : Text) (data rest : Bytes) : Option Bytes :=
  match Bytes.split? 4 rest with
  | some (sum, rest) =>
    if Bytes.big sum = (Crc32.checksum (Bytes.ofLatin name ++ data)).toNat then some rest else none
  | none => none

/-- The data of a chunk and the bytes after it, if the checksum is right. -/
def chunk? (name : Text) (length : Nat) (bytes : Bytes) : Option (Bytes × Bytes) :=
  match Bytes.split? length bytes with
  | some (data, rest) => (afterChecksum? name data rest).map fun rest => (data, rest)
  | none => none

/-- Where the chunks ahead of the pixels end. -/
inductive HeaderEnd where
  /-- At pixels, given with all that follows. -/
  | pixels (bytes : Bytes)
  | framePixels
  /-- At the end of the image. -/
  | nothing

/-- Reads a chunk that is no pixels. What its data says comes before its checksum. -/
def readChunk (h : PngHeader) (name : Text) (length : Nat) (bytes : Bytes) :
    Except ImageFault (PngHeader × Bytes) := do
  let (data, rest) ← ImageFault.need (Bytes.split? length bytes)
  let h ← h.read name data
  let rest ← ImageFault.need (afterChecksum? name data rest)
  pure (h, rest)

/-- Reads chunks up to the first one with pixels. Pixels of an unknown kind are passed over. -/
def readHeader (fuel : Nat) (h : PngHeader) (bytes : Bytes) :
    Except ImageFault (PngHeader × HeaderEnd) :=
  match fuel with
  | 0 => .error .notPng
  | fuel + 1 =>
    match chunkStart? bytes with
    | none => .error .notPng
    | some (length, name, rest) =>
      if name = endName then .ok (h, .nothing)
      else if name = dataName && h.colours.isSome then .ok (h, .pixels bytes)
      else
        match
          if name = frameDataName then h.readFramePixels length rest else .ok (h, rest)
        with
        | .error e => .error e
        | .ok (h, rest) =>
          if name = frameDataName && h.colours.isSome then .ok (h, .framePixels)
          else
            match readChunk h name length rest with
            | .error e => .error e
            | .ok (h, rest) => readHeader fuel h rest

/-- Whether all chunks up to the end of the image are sound. -/
def isSound (fuel : Nat) (bytes : Bytes) : Bool :=
  match fuel with
  | 0 => false
  | fuel + 1 =>
    match chunkStart? bytes with
    | none => false
    | some (length, name, rest) =>
      if name = endName then true
      else
        match chunk? name length rest with
        | some (_, rest) => isSound fuel rest
        | none => false

/-- The size of the image that the bytes hold. An image that is only the frames of an animation
counts as none. -/
def read (bytes : Bytes) : Except ImageFault ImageSize := do
  let bytes := bytes.drop signature.length
  let (h, ending) ← readHeader bytes.length .empty bytes
  let size ← h.imageSize
  match ending with
  | .pixels bytes => if isSound bytes.length bytes then pure size else .error .notPng
  | .framePixels => .error .notPng
  | .nothing => .error .noData

end Png

end Replay
