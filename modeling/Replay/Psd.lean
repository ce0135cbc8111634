import Replay.ImageFault

namespace Replay

namespace Psd

def start : Bytes := Bytes.ofLatin "8BPS"

/-- The layers of pixels, by the colours and the bits of a value. -/
def layerCounts : List ((Nat × Nat) × Nat) := [
  ((0, 1), 1), ((0, 8), 1), ((1, 8), 1), ((2, 8), 1), ((3, 8), 3), ((4, 8), 4), ((7, 8), 1),
  ((9, 8), 3)
]

/-- The kind of pixels in three colours, of which a fourth layer is the opacity. -/
def colourKind : Nat × Nat := (3, 8)

def headerLength : Nat := 26

/-- The place after a section that begins with its length. -/
def afterSection (bytes : Bytes) (place : Nat) : Except ImageFault Nat := do
  pure (place + 4 + (← Header.big bytes place 4))

/-- A place in a file with what follows it. -/
structure Spot where
  place : Nat
  rest : Bytes

/-- Passes over some bytes, as far as there are any. -/
def Spot.pass (s : Spot) (count : Nat) : Spot :=
  ⟨s.place + (s.rest.take count).length, s.rest.drop count⟩

/-- Passes over data, and over one more byte if `padded` says so of their length. -/
def Spot.passData (s : Spot) (count : Nat) (padded : Nat → Bool) : Spot :=
  let found := (s.rest.take count).length
  s.pass (if padded found then found + 1 else found)

/-- The place after the resources, which reach to another one. Each has a mark, a number, a name
and data. -/
def Spot.afterResources (fuel last : Nat) (s : Spot) : Except ImageFault Nat := do
  if last ≤ s.place then return s.place
  match fuel with
  | 0 => throw .unlike
  | fuel + 1 =>
    let _ ← Header.big s.rest 4 2
    let name ← Header.big s.rest 6 1
    let s := (s.pass 7).passData name fun found => found % 2 = 0
    let length ← Header.big s.rest 0 4
    Spot.afterResources fuel last ((s.pass 4).passData length fun found => found % 2 = 1)

/-- The place that no file reaches. -/
def farPlace : Nat := 2 ^ 63

/-- Checks the way in which the pixels are packed. -/
def checkPixels (bytes : Bytes) (place : Nat) (size : ImageSize) (layers : Nat) :
    Except ImageFault Unit := do
  let way ← Header.big bytes place 2
  let rows := size.height * layers
  if way = 0 then
    if farPlace ≤ place + 2 + size.width * rows then throw .farPlace
  else if way = 1 then ImageFault.suppose (2 * rows ≤ bytes.length - (place + 2))

/-- The size of the drawing that the bytes hold. -/
def read (bytes : Bytes) : Except ImageFault ImageSize := do
  let _ ← ImageFault.expect (Bytes.slice? 0 headerLength bytes)
  ImageFault.suppose ((← Header.big bytes 4 2) = 1)
  let given ← Header.big bytes 12 2
  let height ← Header.big bytes 14 4
  let width ← Header.big bytes 18 4
  let bits ← Header.big bytes 22 2
  let colours ← Header.big bytes 24 2
  let layers ← ImageFault.expect (layerCounts.lookup (colours, bits))
  ImageFault.require (layers ≤ given)
  let layers := if (colours, bits) = colourKind && given = 4 then 4 else layers
  let resources := min bytes.length (← afterSection bytes headerLength)
  let last ← afterSection bytes resources
  let first := resources + 4
  let masks ← Spot.afterResources bytes.length last ⟨first, bytes.drop first⟩
  let pixels ← afterSection bytes masks
  if pixels != masks + 4 then
    let _ ← Header.big bytes (masks + 4) 4
  checkPixels bytes pixels ⟨width, height⟩ layers
  ImageSize.accept ⟨width, height⟩

end Psd

end Replay
