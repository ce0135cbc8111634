import Replay.ImageFault

namespace Replay

namespace Flic

/-- The two forms of the format. -/
def forms : List Nat := [0xAF11, 0xAF12]

def headerLength : Nat := 128

/-- The number of some bytes, the lowest byte first. -/
def number (bytes : Bytes) (start count : Nat) : Nat := Bytes.little ((bytes.drop start).take count)

def isStart (bytes : Bytes) : Bool :=
  16 ≤ bytes.length && forms.contains (number bytes 4 2)
    && (number bytes 14 2 = 0 || number bytes 14 2 = 3)

/-- Whether bytes of a header are zero that nothing is written in. -/
def isClear (header : Bytes) (start count : Nat) : Bool :=
  ((header.drop start).take count).all (· = 0)

/-- The colours of the palette. -/
def colourCount : Nat := 256

/-- Whether packets of colours fit into the palette; each passes over some colours first. -/
def arePackets (count colour : Nat) (bytes : Bytes) : Bool :=
  match count with
  | 0 => true
  | count + 1 =>
    match bytes with
    | passed :: length :: rest =>
      let length := if length = 0 then colourCount else length.toNat
      let colours := rest.take (3 * length)
      let next := colour + passed.toNat + colours.length / 3
      colours.length % 3 = 0 && (colours.isEmpty || next ≤ colourCount)
        && arePackets count next (rest.drop (3 * length))
    | _ => false

/-- Whether a chunk with a palette is sound. -/
def isPalette (bytes : Bytes) : Bool :=
  match Bytes.split? 2 bytes with
  | some (count, rest) => arePackets (Bytes.little count) 0 rest
  | none => false

/-- The chunks with a palette. -/
def paletteKinds : List Nat := [4, 11]

/-- Whether chunks are sound up to the first one with a palette, or to one without a length. -/
def areChunks (all : Bytes) (count place : Nat) : Bool :=
  match count with
  | 0 => true
  | count + 1 =>
    match Bytes.slice? place 6 all with
    | none => false
    | some chunk =>
      let length := number chunk 0 4
      if paletteKinds.contains (number chunk 4 2) then isPalette (all.drop (place + 6))
      else length = 0 || areChunks all count (place + length)

def prefixKind : Nat := 0xF100

def frameKind : Nat := 0xF1FA

/-- Whether what comes ahead of the first frame is sound. -/
def checkChunks (bytes : Bytes) : Except ImageFault Unit := do
  let kind ← Header.little bytes (headerLength + 4) 2
  let place ←
    if kind = prefixKind then do
      pure (headerLength + (← Header.little bytes headerLength 4))
    else pure headerLength
  if (← Header.little bytes (place + 4) 2) = frameKind then
    let count ← Header.little bytes (place + 6) 2
    ImageFault.suppose (areChunks bytes count (place + 16))

/-- The size of the frames that the bytes hold. -/
def read (bytes : Bytes) : Except ImageFault ImageSize := do
  let header ← ImageFault.expect (Bytes.slice? 0 headerLength bytes)
  ImageFault.suppose (isClear header 20 2 && isClear header 42 38 && isClear header 88 40)
  checkChunks bytes
  ImageFault.suppose (number header 6 2 != 0)
  let _ ← Header.little bytes headerLength 4
  ImageSize.accept ⟨number header 8 2, number header 10 2⟩

end Flic

end Replay
