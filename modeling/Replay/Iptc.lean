import Replay.ImageFault

namespace Replay

namespace Iptc

/-- The two numbers by which a field is known. -/
abbrev Tag := UInt8 × UInt8

/-- A field, which may come more than once; without data it holds nothing. -/
inductive Field where
  | none
  | data (bytes : Bytes)
  | several
deriving DecidableEq

abbrev Fields := List (Tag × Field)

/-- The field of a tag after one more with its data. -/
def Fields.add (fields : Fields) (tag : Tag) (data : Field) : Fields :=
  match fields.lookup tag with
  | some _ => (tag, .several) :: fields
  | none => (tag, data) :: fields

/-- The records that fields are of. -/
def records : List UInt8 := [1, 2, 3, 4, 5, 6, 7, 8, 9, 240]

/-- The longest length in five bytes; from 129 on it stands for bytes with the length. -/
def lengthLimit : UInt8 := 132

/-- The field with the pixels. -/
def pixelTag : Tag := (8, 10)

/-- The tag of a field, the length of its data, and what follows. -/
def readStart (bytes : Bytes) : Except ImageFault (Option (Tag × Nat × Bytes)) := do
  let head := bytes.take 5
  if head.all (· = 0) then return none
  match head with
  | mark :: record :: number :: _ =>
    ImageFault.suppose (mark = 0x1C && records.contains record)
    let first ← ImageFault.expect head[3]?
    ImageFault.require (first ≤ lengthLimit)
    let rest := bytes.drop 5
    if first = 128 then pure (some ((record, number), 0, rest))
    else if 128 < first then
      let count := first.toNat - 128
      pure (some ((record, number), Bytes.big (rest.take count), rest.drop count))
    else
      let length ← Header.big head 3 2
      pure (some ((record, number), length, rest))
  | _ => throw .unlike

/-- Reads fields up to the one with the pixels. -/
def readFields (fuel : Nat) (fields : Fields) (bytes : Bytes) : Except ImageFault Fields := do
  match fuel with
  | 0 => throw .notPng
  | fuel + 1 =>
    match ← readStart bytes with
    | none => pure fields
    | some (tag, length, rest) =>
      if tag = pixelTag then pure fields
      else
        let data := if length = 0 then Field.none else .data (rest.take length)
        readFields fuel (fields.add tag data) (rest.drop length)

/-- The number in the last four bytes of a field. -/
def number (fields : Fields) (tag : Tag) : Except ImageFault Nat :=
  match fields.lookup tag with
  | some (.data bytes) => .ok (Bytes.big (bytes.drop (bytes.length - 4)))
  | _ => .error .unlike

/-- Whether the layers of an image are of known colours. -/
def hasKind (fields : Fields) : Except ImageFault Bool := do
  match fields.lookup (3, 60) with
  | some (.data (layers :: component :: _)) =>
    let isGrey := layers = 1 && component = 0
    if !isGrey then
      match fields.lookup (3, 65) with
      | none => pure ()
      | some (.data (_ :: _)) => pure ()
      | some _ => throw .unlike
    pure (isGrey || (component != 0 && (layers = 3 || layers = 4)))
  | _ => throw .unlike

/-- Whether the way of packing is known. -/
def checkPacking (fields : Fields) : Except ImageFault Unit := do
  if (fields.lookup (3, 120)).isNone then throw .notPng
  let way ← number fields (3, 120)
  ImageFault.require (way = 1 || way = 5)

/-- The size of the image that the fields describe. -/
def read (bytes : Bytes) : Except ImageFault ImageSize := do
  let fields ← readFields (bytes.length + 1) [] bytes
  let isKnown ← hasKind fields
  let width ← number fields (3, 20)
  let height ← number fields (3, 30)
  checkPacking fields
  ImageFault.suppose isKnown
  ImageSize.accept ⟨width, height⟩

end Iptc

end Replay
