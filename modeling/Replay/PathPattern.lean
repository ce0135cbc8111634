import Replay.Failure
import Replay.Uri

namespace Replay

/-- A kind of text within a path. -/
inductive Slot where
  /-- Any text without a slash, but not an empty one. -/
  | word
  | digits
  /-- Digits on both sides of a point. -/
  | decimal
  /-- Five groups of hexadecimal digits. -/
  | identifier
  | nothing
  /-- A text that begins with no slash and has no line feed later on. -/
  | path
deriving DecidableEq

namespace Slot

/-- The kinds by their names. -/
def named : List (Text × Slot) := [
  ("default", .word), ("string", .word), ("int", .digits), ("float", .decimal),
  ("uuid", .identifier), ("any", .nothing), ("path", .path)
]

/-- The lengths of the groups of an identifier. -/
def groupLengths : List Nat := [8, 4, 4, 4, 12]

def isDigits (t : Text) : Bool := !t.isEmpty && t.all fun c => c.digitValue?.isSome

/-- Whether a text is of the kind. -/
def accepts (s : Slot) (t : Text) : Bool :=
  match s with
  | word => !t.isEmpty && !t.contains Uri.slash
  | digits => isDigits t
  | decimal =>
    match Text.splitOn '.' t with
    | [whole, part] => isDigits whole && isDigits part
    | _ => false
  | identifier =>
    let groups := Text.splitOn '-' t
    groups.map List.length = groupLengths && groups.all fun g => g.all fun c => c.hexValue?.isSome
  | nothing => t.isEmpty
  | path =>
    match t with
    | [] => false
    | c :: rest => c != Uri.slash && !rest.contains (CodePoint.ofNat 10)

/-- How late a slot is tried: those that stand for less come first. -/
def weight : Slot → Int
  | digits => 50
  | decimal => 50
  | path => 200
  | _ => 100

end Slot

/-- A part of a pattern. -/
inductive PatternPart where
  | fixed (t : Text)
  | slot (s : Slot)
deriving DecidableEq

abbrev PathPattern := List PatternPart

namespace PathPattern

def isNameStart (c : CodePoint) : Bool := c.isLower || c.isUpper || c = ('_' : CodePoint)

def isNamePart (c : CodePoint) : Bool := isNameStart c || c.isDigit

/-- Reads a name: letters, digits and underscores, with no digit ahead. -/
def readName? (t : Text) : Option (Text × Text) :=
  if t.head?.any isNameStart then some (t.span isNamePart) else none

/-- Reads what follows an opening bracket: the kind of a slot, and what follows it. -/
def readBrackets? (t : Text) : Option (Text × Text) := do
  let (first, rest) ← readName? t
  match Text.stripStart? ">" rest with
  | some rest => pure ("default", rest)
  | none =>
    let (_, rest) ← readName? (← Text.stripStart? ":" rest)
    pure (first, ← Text.stripStart? ">" rest)

/-- A text of its own, unless it is empty. -/
def ofText (t : Text) : PathPattern := if t.isEmpty then [] else [.fixed t]

/-- The slot after an opening bracket, and the text after it. -/
def ofBrackets (rule t : Text) : Except RouteError PathPattern :=
  match readBrackets? t with
  | none => .error (.malformed rule)
  | some (kind, rest) =>
    match Slot.named.lookup kind with
    | some s => .ok (.slot s :: ofText rest)
    | none => .error (.unknownKind kind)

/-- The pattern of a piece of a rule. -/
def ofPiece (rule piece : Text) : Except RouteError PathPattern :=
  match Text.splitOn '<' piece with
  | [] => .ok []
  | first :: others => do
    let slots ← others.mapM (ofBrackets rule)
    pure (ofText first ++ slots.flatten)

/-- What fills the slots when a pattern stands for a text; earlier slots take as much as they
can. -/
def fill? : PathPattern → Text → Option (List Text)
  | [], t => if t.isEmpty then some [] else none
  | .fixed word :: rest, t => (Text.stripStart? word t).bind (fill? rest)
  | .slot s :: rest, t =>
    (List.range (t.length + 1)).reverse.findSome? fun n =>
      if s.accepts (t.take n) then (fill? rest (t.drop n)).map (t.take n :: ·) else none

/-- Whether a pattern stands for texts with slashes. -/
def crosses (p : PathPattern) : Bool := p.contains (.slot .path)

/-- What decides which of two patterns is tried first: more texts of their own, then longer ones,
then more slots, then those that stand for less. -/
def order (p : PathPattern) : List Int :=
  let texts := p.filterMap fun
    | .fixed t => if t.contains Uri.slash then none else some (t.length : Int)
    | .slot _ => none
  let slots := p.filterMap fun
    | .fixed _ => none
    | .slot s => some s.weight
  (-(texts.length : Int) :: texts.map fun n => -n) ++ (-(slots.length : Int) :: slots)

end PathPattern

/-- A piece of the paths of a route. -/
inductive Segment where
  | word (t : Text)
  | pattern (p : PathPattern)
  /-- All pieces that follow, with slashes between. One more slash ends them if `isSlashed`. -/
  | tail (p : PathPattern) (isSlashed : Bool)
deriving DecidableEq

namespace Segment

/-- Any piece that is not empty. -/
def any : Segment := .pattern [.slot .word]

/-- Anything below a directory. -/
def below : Segment := .tail [.slot .path] false

/-- The segments of pieces. From the first one on that may stand for several pieces, all make one
segment, and an empty one after it is the slash at the end. -/
def ofPatterns : List PathPattern → List Segment
  | [] => []
  | p :: rest =>
    if p.crosses then
      if rest.getLast? = some [] then
        [.tail (List.intercalate [.fixed [Uri.slash]] (p :: rest.dropLast)) true, .word []]
      else [.tail (List.intercalate [.fixed [Uri.slash]] (p :: rest)) false]
    else
      match p with
      | [] => .word [] :: ofPatterns rest
      | [.fixed t] => .word t :: ofPatterns rest
      | _ => .pattern p :: ofPatterns rest

/-- The pieces of a path that begins with a slash. -/
def pieces (path : Text) : List Text :=
  match path with
  | [] => []
  | _ :: rest => Text.splitOn Uri.slash rest

/-- The segments that a rule for paths stands for. -/
def ofRule (rule : Text) : Except RouteError (List Segment) := do
  let rule := Uri.mergeSlashes rule
  pure (ofPatterns (← (pieces rule).mapM (PathPattern.ofPiece rule)))

/-- How late a segment is tried. -/
def order : Segment → List Int
  | word _ => []
  | pattern p => p.order
  | tail p _ => p.order

/-- What fills a tail when it stands for a text, and whether the text has the slash at its end. -/
def fillTail? (p : PathPattern) (isSlashed : Bool) (t : Text) : Option (List Text × Bool) :=
  if !isSlashed then (p.fill? t).map (·, false)
  else
    let hasSlash := t.getLast? = some Uri.slash
    let t := if hasSlash then t.dropLast else t
    if t.getLast? = some Uri.slash then none else (p.fill? t).map (·, hasSlash)

end Segment

end Replay
