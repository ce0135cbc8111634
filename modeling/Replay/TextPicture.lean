import Replay.ImageFault

namespace Replay

namespace ByteText

def isDigit (b : UInt8) : Bool := 0x30 ≤ b && b ≤ 0x39

def isBlank (b : UInt8) : Bool := b = 0x20 || (0x09 ≤ b && b ≤ 0x0D)

def isSpaceOrTab (b : UInt8) : Bool := b = 0x20 || b = 0x09

def isLineEnd (b : UInt8) : Bool := b = 0x0A || b = 0x0D

def trimRight (bytes : Bytes) : Bytes := (bytes.reverse.dropWhile isBlank).reverse

/-- The words between blanks. -/
def words (bytes : Bytes) : List Bytes := (bytes.splitOnP isBlank).filter fun w => !w.isEmpty

/-- What follows a word, if it is there. -/
def after? (word : Text) (bytes : Bytes) : Option Bytes :=
  let word := Bytes.ofLatin word
  if word.isPrefixOf bytes then some (bytes.drop word.length) else none

/-- What follows one byte or more of some kind. -/
def afterSome? (p : UInt8 → Bool) (bytes : Bytes) : Option Bytes :=
  if bytes.head?.any p then some (bytes.dropWhile p) else none

/-- A line with the line feed that ends it, and what follows. -/
def cutLine (bytes : Bytes) : Bytes × Bytes :=
  let line := bytes.takeWhile (· != 0x0A)
  (bytes.take (line.length + 1), bytes.drop (line.length + 1))

end ByteText

open ByteText

namespace XbmImage

/-- How much of a file is searched for the header. -/
def headerLimit : Nat := 512

def isStart (bytes : Bytes) : Bool :=
  (Bytes.ofLatin "#define").isPrefixOf ((bytes.take 16).dropWhile isBlank)

/-- The digits of a definition and what follows the end of its line, from the end of the name on. -/
def value? (bytes : Bytes) : Option (Bytes × Bytes) := do
  let rest ← afterSome? isSpaceOrTab bytes
  let digits := rest.takeWhile isDigit
  if digits.isEmpty then none
  else pure (digits, ← afterSome? isLineEnd (rest.drop digits.length))

/-- Takes a definition of a name with some ending; of several readings the one with the longest
name counts with which all else can be read as well. -/
def define? {α : Type} (ending : Text) (next : Bytes → Option α) (bytes : Bytes) :
    Option (Bytes × α) := do
  let line ← after? "#define" bytes
  let first ← line.head?
  if !isSpaceOrTab first then none
  else
    let line := line.drop 1
    let places := (List.range ((line.takeWhile (· != 0x0A)).length + 1)).reverse
    places.findSome? fun place => do
      let (digits, rest) ← value? (← after? ending (line.drop place))
      pure (digits, ← next rest)

/-- Whether a text has a word in it. -/
def holds (word : Text) (bytes : Bytes) : Bool :=
  (List.range (bytes.length + 1)).any fun i => (after? word (bytes.drop i)).isSome

/-- The width and the height in digits. -/
def sizes? (bytes : Bytes) : Option (Bytes × Bytes) := do
  let height := define? "_height" fun rest => if holds "_bits[]" rest then some () else none
  let (width, (height, _)) ← define? "_width" height (bytes.dropWhile isBlank)
  pure (width, height)

def read (bytes : Bytes) : Except ImageFault ImageSize := do
  let (width, height) ← ImageFault.expect (sizes? (bytes.take headerLimit))
  (ImageSize.ofInts (← ImageFault.readInt width) (← ImageFault.readInt height)).accept

end XbmImage

namespace XpmImage

def start : Bytes := Bytes.ofLatin "/* XPM */"

/-- Digits, where there are any, between a mark and a blank. -/
def field? (mark : UInt8) (bytes : Bytes) : Option (Bytes × Bytes) :=
  match bytes with
  | b :: rest => if b = mark then some (rest.takeWhile isDigit, rest.dropWhile isDigit) else none
  | [] => none

/-- The four numbers of the line that begins the image. -/
def numbers? (line : Bytes) : Option (List Bytes) := do
  let (width, rest) ← field? 0x22 line
  let (height, rest) ← field? 0x20 rest
  let (colours, rest) ← field? 0x20 rest
  let (letters, _) ← field? 0x20 rest
  pure [width, height, colours, letters]

/-- The first line with such numbers, and what follows it. -/
def firstNumbers? (fuel : Nat) (bytes : Bytes) : Option (List Bytes × Bytes) :=
  match fuel, bytes with
  | fuel + 1, _ :: _ =>
    let (line, rest) := cutLine bytes
    match numbers? line with
    | some numbers => some (numbers, rest)
    | none => firstNumbers? fuel rest
  | _, _ => none

/-- Whether a text is a hexadecimal number, with a sign or with the letters for such numbers. -/
def isHexadecimal (word : Bytes) : Bool :=
  let word := trimRight (word.dropWhile isBlank)
  let word := if word.head? = some 0x2B || word.head? = some 0x2D then word.drop 1 else word
  let marked := word.take 2 = Bytes.ofLatin "0x" || word.take 2 = Bytes.ofLatin "0X"
  let digits := if marked then word.drop 2 else word
  let digits := if marked && digits.head? = some 0x5F then digits.drop 1 else digits
  let isDigit := fun b : UInt8 => (CodePoint.ofNat b.toNat).hexValue?.isSome
  digits.head?.any isDigit && digits.getLast?.any isDigit
    && digits.all (fun b => isDigit b || b = 0x5F)
    && !(digits.zip (digits.drop 1)).contains (0x5F, 0x5F)

/-- Looks for the colour among words in pairs: it is a number, or there is none. -/
def checkColour : List Bytes → Except ImageFault Unit
  | [] => .error .colour
  | key :: rest =>
    if key = Bytes.ofLatin "c" then
      match rest with
      | [] => .error .unlike
      | value :: _ =>
        if value = Bytes.ofLatin "None" then .ok ()
        else if value.head? = some 0x23 then
          if isHexadecimal (value.drop 1) then .ok ()
          else .error (.notInteger 16 (value.drop 1))
        else .error .colour
    else
      match rest with
      | [] => .error .colour
      | _ :: rest => checkColour rest

/-- Checks the lines of the palette, each of which begins with a quote and letters for a colour. -/
def checkPalette (letters : Nat) : Nat → Bytes → Except ImageFault Unit
  | 0, _ => .ok ()
  | count + 1, bytes => do
    let (line, rest) := cutLine bytes
    let line := trimRight line
    checkColour (words ((line.take (line.length - 2)).drop (letters + 1)))
    checkPalette letters count rest

def read (bytes : Bytes) : Except ImageFault ImageSize := do
  let (numbers, rest) ←
    ImageFault.expect (firstNumbers? bytes.length (bytes.drop start.length))
  match ← numbers.mapM ImageFault.readInt with
  | [width, height, colours, letters] =>
    checkPalette letters.toNat colours.toNat rest
    (ImageSize.ofInts width height).accept
  | _ => throw .unlike

end XpmImage

namespace Thumbnail

def start : Bytes := Bytes.ofLatin "P7 332"

/-- The first line that is no comment. -/
def firstLine (fuel : Nat) (bytes : Bytes) : Except ImageFault Bytes :=
  match fuel, bytes with
  | fuel + 1, b :: rest =>
    let (line, rest) := cutLine (b :: rest)
    if b = 0x23 then firstLine fuel rest else .ok line
  | _, _ => .error .unlike

def read (bytes : Bytes) : Except ImageFault ImageSize := do
  let line ← firstLine bytes.length (cutLine bytes).2
  match words line with
  | width :: height :: _ =>
    (ImageSize.ofInts (← ImageFault.readInt width) (← ImageFault.readInt height)).accept
  | found => throw (.missingNumbers 2 found.length)

end Thumbnail

end Replay
