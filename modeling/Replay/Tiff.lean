import Replay.ImageFault

namespace Replay

namespace Tiff

/-- The order of the bytes of numbers, and whether places have eight bytes. -/
structure Layout where
  isBig : Bool
  isLong : Bool

/-- What images begin with. Marks in the wrong order of bytes do no harm. -/
def starts : List Bytes := [
  [0x4D, 0x4D, 0x00, 0x2A], [0x49, 0x49, 0x2A, 0x00], [0x4D, 0x4D, 0x2A, 0x00],
  [0x49, 0x49, 0x00, 0x2A], [0x4D, 0x4D, 0x00, 0x2B], [0x49, 0x49, 0x2B, 0x00]
]

def Layout.ofStart (bytes : Bytes) : Layout :=
  ⟨bytes.head? = some 0x4D, bytes[2]? = some 0x2B⟩

namespace Layout

def number (l : Layout) (bytes : Bytes) : Nat :=
  if l.isBig then Bytes.big bytes else Bytes.little bytes

/-- The bytes of a place or a count. -/
def width (l : Layout) : Nat := if l.isLong then 8 else 4

/-- The bytes of the number of entries. -/
def countWidth (l : Layout) : Nat := if l.isLong then 8 else 2

/-- The bytes of an entry: a tag, a type, a count, and the data or its place. -/
def entryWidth (l : Layout) : Nat := 4 + 2 * l.width

end Layout

/-- The types of values that are known, with the bytes of one value. -/
def typeWidths : List (Nat × Nat) := [
  (1, 1), (2, 1), (3, 2), (4, 4), (5, 8), (6, 1), (7, 1), (8, 2), (9, 4), (10, 8), (11, 4),
  (12, 8), (13, 4), (16, 8)
]

/-- The types of whole numbers, and those of them with a sign. -/
def wholeTypes : List Nat := [3, 4, 6, 8, 9, 13, 16]

def signedTypes : List Nat := [6, 8, 9]

/-- The values of a tag. -/
structure Entry where
  type : Nat
  data : Bytes

/-- Of entries with the same tag the last one counts, which stands first here. -/
structure Directory where
  layout : Layout
  entries : List (Nat × Entry)

namespace Directory

/-- The numbers of an entry, if it holds whole numbers. -/
def wholes? (d : Directory) (e : Entry) : Option (List Int) :=
  if !wholeTypes.contains e.type then none
  else
    let width := (typeWidths.lookup e.type).getD 1
    some ((List.range (e.data.length / width)).map fun i =>
      let n := d.layout.number ((e.data.drop (width * i)).take width)
      if signedTypes.contains e.type then Header.signed width n else n)

def has (d : Directory) (tag : Nat) : Bool := (d.entries.lookup tag).isSome

/-- The number of a tag that has only one, or another number where the tag is missing. Values of
other kinds stand for nothing known. -/
def single (d : Directory) (tag : Nat) (standard : Int) : Except ImageFault Int :=
  match d.entries.lookup tag with
  | none => .ok standard
  | some e => ImageFault.expect ((d.wholes? e).bind List.head?)

/-- The number of a tag, or another one where the tag is missing or holds no number. -/
def hint (d : Directory) (tag : Nat) (standard : Int) : Int :=
  (((d.entries.lookup tag).bind d.wholes?).bind List.head?).getD standard

/-- The numbers of a tag. -/
def several (d : Directory) (tag : Nat) (standard : List Int) : Except ImageFault (List Int) :=
  match d.entries.lookup tag with
  | none => .ok standard
  | some e => ImageFault.expect (d.wholes? e)

/-- How many values a tag has, of whatever kind; a text or bytes of no kind are one. -/
def valueCount (d : Directory) (tag : Nat) : Nat :=
  match d.entries.lookup tag with
  | none => 0
  | some e =>
    if e.type = 2 || e.type = 7 then 1 else e.data.length / (typeWidths.lookup e.type).getD 1

/-- A number that has to be whole. -/
def whole (d : Directory) (tag : Nat) (fault : ImageFault) : Except ImageFault Int :=
  match d.entries.lookup tag with
  | none => .error .unlike
  | some e =>
    match (d.wholes? e).bind List.head? with
    | some n => .ok n
    | none => .error fault

end Directory

/-- The place that no file reaches. -/
def farPlace : Nat := 2 ^ 63

/-- The data of an entry; `none` if nothing is kept of it. -/
def readData (l : Layout) (all entry : Bytes) : Except ImageFault (Option Entry) := do
  let type := l.number ((entry.drop 2).take 2)
  let count := l.number ((entry.drop 4).take l.width)
  let data := entry.drop (4 + l.width)
  match typeWidths.lookup type with
  | none => pure none
  | some width =>
    let length := count * width
    if length = 0 then pure none
    else if length ≤ l.width then pure (some ⟨type, data.take length⟩)
    else
      let place := l.number data
      if farPlace ≤ place then throw .farPlace
      match Bytes.slice? place length all with
      | some data => pure (some ⟨type, data⟩)
      | none => throw .notPng

/-- Reads entries; data beyond the end of the file ends the reading. -/
def readEntries (l : Layout) (all : Bytes) (done : List (Nat × Entry)) :
    Nat → Bytes → Except ImageFault (List (Nat × Entry))
  | 0, _ => .ok done
  | count + 1, bytes =>
    match Bytes.split? l.entryWidth bytes with
    | none => .ok done
    | some (entry, rest) =>
      match readData l all entry with
      | .error .notPng => .ok done
      | .error e => .error e
      | .ok none => readEntries l all done count rest
      | .ok (some data) => readEntries l all ((l.number (entry.take 2), data) :: done) count rest

/-- Reads the first directory. -/
def readDirectory (bytes : Bytes) : Except ImageFault Directory := do
  let l := Layout.ofStart bytes
  let place := l.number (← ImageFault.expect (Bytes.slice? l.width l.width bytes))
  ImageFault.suppose (place != 0)
  if farPlace ≤ place then throw .farDirectory
  match Bytes.slice? place l.countWidth bytes with
  | none => pure ⟨l, []⟩
  | some count =>
    let count := min (l.number count) bytes.length
    pure ⟨l, ← readEntries l bytes [] count (bytes.drop (place + l.countWidth))⟩

/-- How pixels are given. -/
structure PixelKind where
  /-- What the values stand for: brightness, colours, or places in a palette. -/
  meaning : Int
  /-- Whether values are whole, whole with a sign, or real. -/
  sample : List Int
  /-- Whether the first pixel of a byte is in its high bits or in its low ones. -/
  order : Int
  depths : List Int
  /-- What the layers beyond those of the colours are for. -/
  extra : List Int
deriving DecidableEq

/-- The kinds of pixels that go with either order of bytes, with the letters for their layers. -/
def commonKinds : List (PixelKind × Nat) := [
  (⟨0, [1], 1, [1], []⟩, 3), (⟨0, [1], 2, [1], []⟩, 4), (⟨1, [1], 1, [1], []⟩, 1),
  (⟨1, [1], 2, [1], []⟩, 3), (⟨0, [1], 1, [2], []⟩, 4), (⟨0, [1], 2, [2], []⟩, 5),
  (⟨1, [1], 1, [2], []⟩, 3), (⟨1, [1], 2, [2], []⟩, 4), (⟨0, [1], 1, [4], []⟩, 4),
  (⟨0, [1], 2, [4], []⟩, 5), (⟨1, [1], 1, [4], []⟩, 3), (⟨1, [1], 2, [4], []⟩, 4),
  (⟨0, [1], 1, [8], []⟩, 3), (⟨0, [1], 2, [8], []⟩, 4), (⟨1, [1], 1, [8], []⟩, 1),
  (⟨1, [2], 1, [8], []⟩, 1), (⟨1, [1], 2, [8], []⟩, 3), (⟨1, [1], 1, [16], []⟩, 4),
  (⟨1, [2], 1, [16], []⟩, 5), (⟨0, [3], 1, [32], []⟩, 5), (⟨1, [2], 1, [32], []⟩, 5),
  (⟨1, [3], 1, [32], []⟩, 5), (⟨1, [1], 1, [8, 8], [2]⟩, 2), (⟨2, [1], 1, [8, 8, 8], []⟩, 3),
  (⟨2, [1], 2, [8, 8, 8], []⟩, 5), (⟨2, [1], 1, [8, 8, 8, 8], []⟩, 4),
  (⟨2, [1], 1, [8, 8, 8, 8], [0]⟩, 4), (⟨2, [1], 1, [8, 8, 8, 8, 8], [0, 0]⟩, 5),
  (⟨2, [1], 1, [8, 8, 8, 8, 8, 8], [0, 0, 0]⟩, 6), (⟨2, [1], 1, [8, 8, 8, 8], [1]⟩, 4),
  (⟨2, [1], 1, [8, 8, 8, 8, 8], [1, 0]⟩, 5), (⟨2, [1], 1, [8, 8, 8, 8, 8, 8], [1, 0, 0]⟩, 6),
  (⟨2, [1], 1, [8, 8, 8, 8], [2]⟩, 4), (⟨2, [1], 1, [8, 8, 8, 8, 8], [2, 0]⟩, 5),
  (⟨2, [1], 1, [8, 8, 8, 8, 8, 8], [2, 0, 0]⟩, 6), (⟨2, [1], 1, [8, 8, 8, 8], [999]⟩, 4),
  (⟨2, [1], 1, [16, 16, 16], []⟩, 7), (⟨2, [1], 1, [16, 16, 16, 16], []⟩, 8),
  (⟨2, [1], 1, [16, 16, 16, 16], [0]⟩, 8), (⟨2, [1], 1, [16, 16, 16, 16], [1]⟩, 8),
  (⟨2, [1], 1, [16, 16, 16, 16], [2]⟩, 8), (⟨3, [1], 1, [1], []⟩, 3), (⟨3, [1], 2, [1], []⟩, 4),
  (⟨3, [1], 1, [2], []⟩, 3), (⟨3, [1], 2, [2], []⟩, 4), (⟨3, [1], 1, [4], []⟩, 3),
  (⟨3, [1], 2, [4], []⟩, 4), (⟨3, [1], 1, [8], []⟩, 1), (⟨3, [1], 1, [8, 8], [0]⟩, 2),
  (⟨3, [1], 1, [8, 8], [2]⟩, 2), (⟨3, [1], 2, [8], []⟩, 3), (⟨5, [1], 1, [8, 8, 8, 8], []⟩, 4),
  (⟨5, [1], 1, [8, 8, 8, 8, 8], [0]⟩, 5), (⟨5, [1], 1, [8, 8, 8, 8, 8, 8], [0, 0]⟩, 6),
  (⟨5, [1], 1, [16, 16, 16, 16], []⟩, 8), (⟨6, [1], 1, [8], []⟩, 1),
  (⟨6, [1], 1, [8, 8, 8], []⟩, 4), (⟨8, [1], 1, [8, 8, 8], []⟩, 3)
]

/-- The kinds of pixels that go only with the lowest byte first. -/
def littleKinds : List (PixelKind × Nat) := [
  (⟨1, [1], 1, [12], []⟩, 4), (⟨0, [1], 1, [16], []⟩, 4), (⟨1, [1], 2, [16], []⟩, 5),
  (⟨1, [1], 1, [32], []⟩, 5)
]

/-- The number of letters for the layers of a kind, if it is known. -/
def PixelKind.letters? (k : PixelKind) (l : Layout) : Option Nat :=
  (commonKinds.lookup k).or (if l.isBig then none else littleKinds.lookup k)

/-- The ways of packing. -/
def packings : List Int := [
  1, 2, 3, 4, 5, 6, 7, 8, 32771, 32773, 32809, 32946, 34676, 34677, 34925, 50000, 50001
]

/-- The most layers of a pixel. -/
def layerLimit : Int := 6

/-- The colours that a meaning stands for. -/
def colourCount (meaning : Int) : Nat :=
  if [2, 6, 8].contains meaning then 3 else if meaning = 5 then 4 else 1

/-- Values that are all alike count once. -/
def collapsed (values : List Int) : List Int :=
  match values with
  | first :: second :: rest => if (second :: rest).all (· = first) then [first] else values
  | values => values

/-- The bits of all layers of a pixel: too many are dropped, and one goes for all. -/
def layerDepths (depths : List Int) (layers : Int) : Except ImageFault (List Int) := do
  ImageFault.suppose (layers ≤ layerLimit)
  let given : Int := depths.length
  let depths :=
    if layers < given then
      depths.take (if layers < 0 then (given + layers).toNat else layers.toNat)
    else if depths.length = 1 then (List.replicate layers.toNat depths).flatten
    else depths
  ImageFault.suppose ((depths.length : Int) = layers)
  pure depths

/-- The packing of old photographs, whose colours are of one kind. -/
def oldPhotograph : Int := 6

/-- The kind of the pixels. Layers that stand for nothing are left out where each layer is kept on
its own. -/
def readKind (d : Directory) (packing planes : Int) : Except ImageFault PixelKind := do
  let meaning ← d.single 262 0
  let meaning := if packing = oldPhotograph then 6 else meaning
  let order ← d.single 266 1
  let sample := collapsed (← d.several 339 [1])
  let depths ← d.several 258 [1]
  let extra ← d.several 338 []
  let layers ← d.single 277 (if packing = oldPhotograph then 3 else 1)
  let isSplit := planes = 2 && !extra.isEmpty && extra.all (· ≤ 0) && extra.contains 0
  let (depths, layers, extra) :=
    if isSplit then (depths.take (depths.length - extra.length), layers - extra.length, [])
    else (depths, layers, extra)
  pure ⟨meaning, sample, order, ← layerDepths depths layers, extra⟩

/-- Where the parts of an image begin. -/
structure Parts where
  count : Nat
  width : Int
  height : Int

/-- The strips or tiles of an image that is not packed. -/
def readParts (d : Directory) (width height : Int) : Except ImageFault Parts := do
  if d.has 273 then
    pure ⟨d.valueCount 273, width, ← d.single 278 height⟩
  else
    ImageFault.suppose (d.has 324)
    if !d.has 322 || !d.has 323 then throw .tileSizeKind
    pure ⟨d.valueCount 324, ← d.whole 322 .tileSizeKind, ← d.whole 323 .tileSizeKind⟩

/-- Whether there are as many layers as parts are given for; `x` and `y` are the corner of the next
part. -/
def hasLayers (p : Parts) (width height : Int) (letters : Nat) (x y : Int) (layer : Nat) :
    Nat → Bool
  | 0 => true
  | count + 1 =>
    layer < letters &&
      if x + p.width < width then hasLayers p width height letters (x + p.width) y layer count
      else if y + p.height < height then
        hasLayers p width height letters 0 (y + p.height) layer count
      else hasLayers p width height letters 0 0 (layer + 1) count

/-- Whether the parts of an image that is not packed can be found. -/
def checkParts (d : Directory) (width height planes : Int) (letters : Nat) :
    Except ImageFault Unit := do
  let p ← readParts d width height
  ImageFault.suppose (planes != 2 || hasLayers p width height letters 0 0 0 p.count)

/-- The size of the image that the directory describes. An image on its side has it the other way
round. -/
def Directory.readImage (d : Directory) : Except ImageFault ImageSize := do
  ImageFault.require (!d.has 0xBC01)
  let packing ← d.single 259 1
  ImageFault.suppose (packings.contains packing)
  let planes := d.hint 284 1
  ImageFault.suppose (d.has 256 && d.has 257)
  let width ← d.whole 256 .sizeKind
  let height ← d.whole 257 .sizeKind
  let turn := d.hint 274 1
  let kind ← readKind d packing planes
  let letters ← ImageFault.expect (kind.letters? d.layout)
  if packing = 1 then checkParts d width height planes letters
  if kind.meaning = 3 then ImageFault.suppose (d.has 320)
  if 5 ≤ turn && turn ≤ 8 then (ImageSize.ofInts height width).accept
  else (ImageSize.ofInts width height).accept

/-- The size of the first image that the bytes hold. -/
def read (bytes : Bytes) : Except ImageFault ImageSize := do
  (← readDirectory bytes).readImage

end Tiff

end Replay
