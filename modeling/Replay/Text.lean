namespace Replay

-- Powers are those of the core library in every module, whatever else it imports.
@[default_instance 20000]
instance (priority := 20000) natPow : Pow Nat Nat := instPowNat

@[default_instance 15000]
instance (priority := 20000) intPow : Pow Int Nat := instPowNat

/-- A Unicode code point, surrogates included. -/
structure CodePoint where
  val : Nat
  isLt : val < 0x110000
deriving DecidableEq

namespace CodePoint

def ofChar (c : Char) : CodePoint :=
  ⟨c.toNat, by rcases c.valid with h | h <;> simp only [Char.toNat] <;> omega⟩

instance : Coe Char CodePoint := ⟨ofChar⟩

/-- Numbers beyond the last code point become the replacement character. -/
def ofNat (n : Nat) : CodePoint :=
  if h : n < 0x110000 then ⟨n, h⟩ else ⟨0xFFFD, by decide⟩

instance : Inhabited CodePoint := ⟨ofNat 0⟩

/-- A surrogate is no character of its own. -/
def toChar (c : CodePoint) : Char :=
  if c.val.isValidChar then Char.ofNat c.val else '\uFFFD'

def isSurrogate (c : CodePoint) : Bool := 0xD800 ≤ c.val && c.val ≤ 0xDFFF

def isAscii (c : CodePoint) : Bool := c.val < 0x80

/-- The ASCII digits. -/
def isDigit (c : CodePoint) : Bool := 48 ≤ c.val && c.val ≤ 57

/-- The ASCII letters of lower case. -/
def isLower (c : CodePoint) : Bool := 97 ≤ c.val && c.val ≤ 122

/-- The ASCII letters of upper case. -/
def isUpper (c : CodePoint) : Bool := 65 ≤ c.val && c.val ≤ 90

/-- The ASCII letters and digits. -/
def isAlphanum (c : CodePoint) : Bool := c.isDigit || c.isLower || c.isUpper

/-- The value of a hexadecimal digit of either case. -/
def hexValue? (c : CodePoint) : Option Nat :=
  if c.isDigit then some (c.val - 48)
  else if 97 ≤ c.val && c.val ≤ 102 then some (c.val - 87)
  else if 65 ≤ c.val && c.val ≤ 70 then some (c.val - 55)
  else none

/-- White space: the separators of Unicode and the ASCII controls that move the position. -/
def isBlank (c : CodePoint) : Bool :=
  (9 ≤ c.val && c.val ≤ 13) || (28 ≤ c.val && c.val ≤ 32) || c.val == 0x85 || c.val == 0xA0
    || c.val == 0x1680 || (0x2000 ≤ c.val && c.val ≤ 0x200A) || c.val == 0x2028
    || c.val == 0x2029 || c.val == 0x202F || c.val == 0x205F || c.val == 0x3000

end CodePoint

/-- Surrogates count as code points, because a JSON text may hold one alone; such a text has no
UTF-8 form. -/
abbrev Text := List CodePoint

namespace Text

def ofString (s : String) : Text := s.toList.map CodePoint.ofChar

instance : Coe String Text := ⟨ofString⟩

/-- Surrogates are shown as the replacement character. -/
def toString (t : Text) : String := String.ofList (t.map CodePoint.toChar)

/-- The decimal digits of a natural number. -/
def ofNat (n : Nat) : Text := (Nat.toDigits 10 n).map CodePoint.ofChar

/-- A minus sign stands before a negative number. -/
def ofInt : Int → Text
  | .ofNat n => ofNat n
  | .negSucc n => "-" ++ ofNat (n + 1)

/-- Zeros are put in front up to the width. -/
def padded (width n : Nat) : Text :=
  let digits := ofNat n
  List.replicate (width - digits.length) ('0' : CodePoint) ++ digits

/-- `width` hexadecimal digits in lower case. -/
def hex (width n : Nat) : Text :=
  let digits := (Nat.toDigits 16 n).map CodePoint.ofChar
  List.replicate (width - digits.length) ('0' : CodePoint) ++ digits

def trimLeft (t : Text) : Text := t.dropWhile CodePoint.isBlank

def trimRight (t : Text) : Text := (t.reverse.dropWhile CodePoint.isBlank).reverse

/-- The text without the white space around it. -/
def trim (t : Text) : Text := trimRight (trimLeft t)

/-- The text after `start`, if it begins so. -/
def stripStart? (start : Text) : Text → Option Text
  | t => if start.isPrefixOf t then some (t.drop start.length) else none

def startsWith (t start : Text) : Bool := start.isPrefixOf t

def endsWith (t ending : Text) : Bool := ending.isSuffixOf t

def join (separator : Text) (parts : List Text) : Text := List.intercalate separator parts

/-- The pieces between occurrences of `separator`; there is always at least one. -/
def splitOn (separator : CodePoint) (t : Text) : List Text := List.splitOnP (· == separator) t

/-- What stands before the first `separator` and after it, if there is one. -/
def cut (separator : CodePoint) (t : Text) : Text × Option Text :=
  match t.span (· != separator) with
  | (before, []) => (before, none)
  | (before, _ :: after) => (before, some after)

/-- Order by code points, a shorter text before its extensions. -/
def le (s t : Text) : Bool :=
  match s, t with
  | [], _ => true
  | _ :: _, [] => false
  | a :: s, b :: t => a.val < b.val || (a.val == b.val && le s t)

/-- Line ends of either foreign form become single line feeds. -/
def normalizeLines (t : Text) : Text := go false t []
where
  go (afterReturn : Bool) : Text → Text → Text
    | [], done => done.reverse
    | c :: rest, done =>
      if c = ('\r' : CodePoint) then go true rest (CodePoint.ofChar '\n' :: done)
      else if afterReturn && c = ('\n' : CodePoint) then go false rest done
      else go false rest (c :: done)

end Text

end Replay
