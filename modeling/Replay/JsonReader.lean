import Replay.Json

namespace Replay

/-- Why a text is no JSON value. -/
inductive JsonError where
  | expectingValue
  | extraData
  | expectingName
  | expectingColon
  | expectingComma
  | unterminatedText
  | controlCharacter
  | escape
  | unicodeEscape
  | byteOrderMark
  /-- An integer with more digits than are read; the text may still be in the grammar. -/
  | tooManyDigits (count : Nat)
  /-- An array or an object inside too many others. -/
  | tooDeep (kind : Text)
deriving DecidableEq

namespace JsonError

def message : JsonError → Text
  | expectingValue => "Expecting value"
  | extraData => "Extra data"
  | expectingName => "Expecting property name enclosed in double quotes"
  | expectingColon => "Expecting ':' delimiter"
  | expectingComma => "Expecting ',' delimiter"
  | unterminatedText => "Unterminated string starting at"
  | controlCharacter => "Invalid control character at"
  | escape => "Invalid \\escape"
  | unicodeEscape => "Invalid \\uXXXX escape"
  | byteOrderMark => "Unexpected UTF-8 BOM (decode using utf-8-sig)"
  | tooManyDigits count => digitsMessage (some count)
  | tooDeep kind =>
    "maximum recursion depth exceeded while decoding a JSON " ++ kind ++ " from a unicode string"

/-- Whether the text is outside the grammar; otherwise it is only too large to be read. -/
def isSyntax : JsonError → Bool
  | tooManyDigits _ => false
  | tooDeep _ => false
  | _ => true

/-- Whether the value is blamed rather than the depth at which it stands. -/
def isValueError : JsonError → Bool
  | tooDeep _ => false
  | _ => true

end JsonError

namespace Json

/-- White space of the JSON grammar. -/
def isSpace (c : CodePoint) : Bool := c.val = 32 || c.val = 9 || c.val = 10 || c.val = 13

def skipSpace (t : Text) : Text := t.dropWhile isSpace

/-- The value of digits in base ten, after `value`. -/
def digitsValue (value : Nat) (digits : Text) : Nat :=
  digits.foldl (fun v c => 10 * v + (c.val - 48)) value

/-- The digits of an integer part: one zero, or digits that start with another one. -/
def wholePart? : Text → Option (Text × Text)
  | c :: rest =>
    if c = ('0' : CodePoint) then some ([c], rest)
    else if c.isDigit then
      let (digits, rest) := rest.span CodePoint.isDigit
      some (c :: digits, rest)
    else none
  | [] => none

/-- A point with at least one digit; anything else is left alone. -/
def fractionPart (t : Text) : Text × Text :=
  match t with
  | point :: rest =>
    if point = ('.' : CodePoint) then
      match rest.span CodePoint.isDigit with
      | ([], _) => ([], t)
      | (digits, rest) => (digits, rest)
    else ([], t)
  | [] => ([], t)

/-- The sign and digits after an exponent mark; anything else is left alone. -/
def exponentPart (t : Text) : Option Int × Text :=
  match t with
  | mark :: rest =>
    if mark = ('e' : CodePoint) || mark = ('E' : CodePoint) then
      let (negative, rest) := match rest with
        | sign :: rest' =>
          if sign = ('-' : CodePoint) then (true, rest')
          else if sign = ('+' : CodePoint) then (false, rest')
          else (false, rest)
        | [] => (false, rest)
      match rest.span CodePoint.isDigit with
      | ([], _) => (none, t)
      | (digits, rest) =>
        let size : Int := digitsValue 0 digits
        (some (if negative then -size else size), rest)
    else (none, t)
  | [] => (none, t)

/-- What is read at most. -/
structure ReadingLimits where
  /-- The most digits of an integer. -/
  digits : Option Nat
  /-- The most arrays and objects inside each other. -/
  depth : Nat

namespace ReadingLimits

/-- The limits of a reader that has room for so many arrays and objects inside each other. -/
def ofDepth (depth : Nat) : ReadingLimits := ⟨some digitLimit, depth⟩

/-- Without a limit no count of digits exceeds it. -/
def exceeds (limits : ReadingLimits) (count : Nat) : Bool :=
  match limits.digits with
  | some most => most < count
  | none => false

/-- The limits inside an array or an object, if there may be another one. -/
def inner? (limits : ReadingLimits) : Option ReadingLimits :=
  match limits.depth with
  | 0 => none
  | depth + 1 => some { limits with depth }

end ReadingLimits

/-- Reads a number; without fraction and exponent it is an integer. -/
def readNumber (limits : ReadingLimits) (t : Text) : Except JsonError (Json × Text) :=
  let (negative, t) := match t with
    | sign :: rest => if sign = ('-' : CodePoint) then (true, rest) else (false, t)
    | [] => (false, t)
  match wholePart? t with
  | none => .error .expectingValue
  | some (whole, rest) =>
    let (fraction, rest') := fractionPart rest
    let (exponent, rest'') := exponentPart rest'
    if fraction.isEmpty && exponent.isNone then
      if limits.exceeds whole.length then .error (.tooManyDigits whole.length)
      else
        let size : Int := digitsValue 0 whole
        .ok (int (if negative then -size else size), rest)
    else
      let digits := digitsValue (digitsValue 0 whole) fraction
      let place := exponent.getD 0 - fraction.length
      .ok (number (.real (Double.ofDecimal negative digits place)), rest'')

/-- Four hexadecimal digits that do not end the text. -/
def fourHex? : Text → Option (Nat × Text)
  | a :: b :: c :: d :: next :: rest => do
    let a ← a.hexValue?
    let b ← b.hexValue?
    let c ← c.hexValue?
    let d ← d.hexValue?
    pure (((a * 16 + b) * 16 + c) * 16 + d, next :: rest)
  | _ => none

/-- The character that a short escape stands for. -/
def shortEscape? (c : CodePoint) : Option CodePoint :=
  if c = ('"' : CodePoint) || c = ('\\' : CodePoint) || c = ('/' : CodePoint) then some c
  else if c = ('b' : CodePoint) then some (CodePoint.ofNat 8)
  else if c = ('f' : CodePoint) then some (CodePoint.ofNat 12)
  else if c = ('n' : CodePoint) then some (CodePoint.ofNat 10)
  else if c = ('r' : CodePoint) then some (CodePoint.ofNat 13)
  else if c = ('t' : CodePoint) then some (CodePoint.ofNat 9)
  else none

/-- The code point that a pair of surrogates encodes. -/
def joinSurrogates (high low : Nat) : CodePoint :=
  CodePoint.ofNat (0x10000 + (high - 0xD800) * 0x400 + (low - 0xDC00))

/-- Reads an escape after its `u`; a second one that completes a surrogate pair is taken too. -/
def readUnicode (t : Text) : Except JsonError (CodePoint × Text) :=
  match fourHex? t with
  | none => .error .unicodeEscape
  | some (high, rest) =>
    if 0xD800 ≤ high && high ≤ 0xDBFF then
      match rest with
      | slash :: mark :: more =>
        if slash = ('\\' : CodePoint) && mark = ('u' : CodePoint) && 4 < more.length then
          match fourHex? more with
          | none => .error .unicodeEscape
          | some (low, rest') =>
            if 0xDC00 ≤ low && low ≤ 0xDFFF then .ok (joinSurrogates high low, rest')
            else .ok (CodePoint.ofNat high, rest)
        else .ok (CodePoint.ofNat high, rest)
      | _ => .ok (CodePoint.ofNat high, rest)
    else .ok (CodePoint.ofNat high, rest)

/-- Reads the rest of a quoted text, with what was read before it in reverse. -/
def readText (fuel : Nat) (t : Text) (done : Text) : Except JsonError (Text × Text) :=
  match fuel, t with
  | _, [] => .error .unterminatedText
  | 0, _ => .error .unterminatedText
  | fuel + 1, c :: rest =>
    if c = ('"' : CodePoint) then .ok (done.reverse, rest)
    else if c = ('\\' : CodePoint) then
      match rest with
      | [] => .error .unterminatedText
      | e :: rest' =>
        if e = ('u' : CodePoint) then
          match readUnicode rest' with
          | .ok (p, more) => readText fuel more (p :: done)
          | .error e => .error e
        else
          match shortEscape? e with
          | some p => readText fuel rest' (p :: done)
          | none => .error .escape
    else if c.val < 32 then .error .controlCharacter
    else readText fuel rest (c :: done)

/-- Words that are values, with their values. -/
def words : List (Text × Json) :=
  [("null", null), ("true", bool true), ("false", bool false), ("NaN", number (.real .nan)),
    ("Infinity", number (.real (.infinity false))), ("-Infinity", number (.real (.infinity true)))]

/-- The value of the word that the text starts with. -/
def word? (t : Text) : Option (Json × Text) :=
  words.findSome? fun w => (Text.stripStart? w.1 t).map fun rest => (w.2, rest)

mutual

/-- Reads one value that starts at the first character. -/
def readValue (limits : ReadingLimits) (fuel : Nat) (t : Text) : Except JsonError (Json × Text) :=
  match fuel, t with
  | 0, _ => .error .expectingValue
  | _, [] => .error .expectingValue
  | fuel + 1, c :: rest =>
    if c = ('"' : CodePoint) then
      match readText (rest.length + 1) rest [] with
      | .ok (text', rest) => .ok (text text', rest)
      | .error e => .error e
    else if c.val = 0x7B then
      match limits.inner?, skipSpace rest with
      | none, _ => .error (.tooDeep "object")
      | some limits, close :: rest' =>
        if close.val = 0x7D then .ok (object [], rest')
        else readMembers limits fuel (close :: rest') []
      | some _, [] => .error .expectingName
    else if c = ('[' : CodePoint) then
      match limits.inner?, skipSpace rest with
      | none, _ => .error (.tooDeep "array")
      | some limits, close :: rest' =>
        if close = (']' : CodePoint) then .ok (array [], rest')
        else readItems limits fuel (close :: rest') []
      | some _, [] => .error .expectingValue
    else
      match word? (c :: rest) with
      | some found => .ok found
      | none => readNumber limits (c :: rest)

/-- Reads the items of an array up to its end, after those already read, in reverse. -/
def readItems (limits : ReadingLimits) (fuel : Nat) (t : Text) (done : List Json) :
    Except JsonError (Json × Text) :=
  match fuel with
  | 0 => .error .expectingValue
  | fuel + 1 =>
    match readValue limits fuel t with
    | .error e => .error e
    | .ok (item, rest) =>
      match skipSpace rest with
      | c :: rest' =>
        if c = (']' : CodePoint) then .ok (array (item :: done).reverse, rest')
        else if c = (',' : CodePoint) then readItems limits fuel (skipSpace rest') (item :: done)
        else .error .expectingComma
      | [] => .error .expectingComma

/-- Reads the members of an object up to its end, after those already read. -/
def readMembers (limits : ReadingLimits) (fuel : Nat) (t : Text) (done : Members Json) :
    Except JsonError (Json × Text) :=
  match fuel, t with
  | 0, _ => .error .expectingName
  | _, [] => .error .expectingName
  | fuel + 1, quote :: rest =>
    if quote = ('"' : CodePoint) then
      match readText (rest.length + 1) rest [] with
      | .error e => .error e
      | .ok (name, rest) =>
        match skipSpace rest with
        | colon :: rest =>
          if colon = (':' : CodePoint) then
            match readValue limits fuel (skipSpace rest) with
            | .error e => .error e
            | .ok (value, rest) =>
              let members := done.put name value
              match skipSpace rest with
              | c :: rest' =>
                if c.val = 0x7D then .ok (object members, rest')
                else if c = (',' : CodePoint) then
                  readMembers limits fuel (skipSpace rest') members
                else .error .expectingComma
              | [] => .error .expectingComma
          else .error .expectingColon
        | [] => .error .expectingColon
    else .error .expectingName

end

/-- Reads a whole text within limits. -/
def readLimited (limits : ReadingLimits) (t : Text) : Except JsonError Json :=
  match t with
  | mark :: _ =>
    if mark.val = 0xFEFF then .error .byteOrderMark
    else
      match readValue limits (2 * t.length + 2) (skipSpace t) with
      | .error e => .error e
      | .ok (value, rest) => if (skipSpace rest).isEmpty then .ok value else .error .extraData
  | [] => .error .expectingValue

/-- Reads a whole text as one value. Beside the standard grammar, `NaN`, `Infinity` and `-Infinity`
are numbers, and a surrogate may stand alone. How deep the text may nest is for the caller to say:
what calls the reader takes up room too. -/
def read (depth : Nat) (t : Text) : Except JsonError Json := readLimited (.ofDepth depth) t

end Json

end Replay
