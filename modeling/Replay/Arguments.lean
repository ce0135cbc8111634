import Replay.Integer
import Replay.ValueText

namespace Replay

inductive OptionKind where
  | help
  | flag
  | value
deriving DecidableEq

structure OptionSpec where
  /-- The spellings of the option. -/
  names : List Text
  kind : OptionKind
  /-- Options of which only one may be given. -/
  exclusive : Bool
deriving DecidableEq

/-- An argument that is no option, with the words it may be. -/
structure PositionalSpec where
  name : Text
  choices : List Text

structure ArgumentTable where
  options : List OptionSpec
  positional : Option PositionalSpec

/-- What is wrong with the arguments of a command. -/
inductive UsageError where
  | ambiguous (given : Text) (spellings : List Text)
  | valueMissing (option : Text)
  | valueUnwanted (option value : Text)
  | excluded (option other : Text)
  | notOneOf (name value : Text) (choices : List Text)
  | positionalMissing (name : Text)
  | unrecognized (words : List Text)
deriving DecidableEq

namespace UsageError

def about (name : Text) (what : Text) : Text := "argument " ++ name ++ ": " ++ what

def message : UsageError → Text
  | ambiguous given spellings =>
    "ambiguous option: " ++ given ++ " could match " ++ Text.join ", " spellings
  | valueMissing option => about option "expected one argument"
  | valueUnwanted option value =>
    about option ("ignored explicit argument " ++ Json.shownText value)
  | excluded option other => about option ("not allowed with argument " ++ other)
  | notOneOf name value choices =>
    about name ("invalid choice: " ++ Json.shownText value ++ " (choose from "
      ++ Text.join ", " (choices.map Json.shownText) ++ ")")
  | positionalMissing name => "the following arguments are required: " ++ name
  | unrecognized words => "unrecognized arguments: " ++ Text.join " " words

end UsageError

/-- Why a command ends before it starts. -/
inductive EarlyExit where
  | help
  | usage (e : UsageError)
deriving DecidableEq

namespace EarlyExit

def status : EarlyExit → Nat
  | help => 0
  | usage _ => 2

end EarlyExit

namespace OptionSpec

/-- The name of the option in messages. -/
def title (o : OptionSpec) : Text := Text.join "/" o.names

def help : OptionSpec := ⟨["-h", "--help"], .help, false⟩

end OptionSpec

/-- What an option with a value was given. -/
inductive OptionValue where
  | absent
  /-- An equals sign with nothing but a double hyphen after it gives no value at all. -/
  | blank
  | given (t : Text)
deriving DecidableEq

namespace OptionValue

/-- A value with something in it. -/
def text? : OptionValue → Option Text
  | given t => if t.isEmpty then none else some t
  | _ => none

end OptionValue

/-- What an argument is taken for. -/
inductive ArgumentMark where
  | word
  | separator
  | known (option : OptionSpec) (value : Option Text)
  /-- An option of one letter with more letters behind it. -/
  | letters (option : OptionSpec) (rest : Text)
  | unknown

namespace Arguments

def hyphen : CodePoint := '-'

def doubleHyphen : Text := "--"

/-- All spellings of the options, in order. -/
def spellings (options : List OptionSpec) : List (Text × OptionSpec) :=
  options.flatMap fun o => o.names.map fun name => (name, o)

def find? (options : List OptionSpec) (spelling : Text) : Option OptionSpec :=
  (spellings options).findSome? fun s => if s.1 = spelling then some s.2 else none

/-- The parts of an argument before and after its first equals sign. -/
def splitValue (t : Text) : Text × Option Text := Text.cut '=' t

/-- The options that an argument may be short for, each with its spelling. -/
def candidates (options : List OptionSpec) (t : Text) : List (Text × ArgumentMark) :=
  if Text.startsWith t doubleHyphen then
    let (start, value) := splitValue t
    (spellings options).filterMap fun s =>
      if Text.startsWith s.1 start then some (s.1, .known s.2 value) else none
  else
    (spellings options).filterMap fun s =>
      if s.1 = t.take 2 then some (s.1, .letters s.2 (t.drop 2))
      else if Text.startsWith s.1 t then some (s.1, .known s.2 none)
      else none

/-- Digits, at most one point, and a line feed at the end at most. -/
def isNegativeNumber (t : Text) : Bool :=
  let isDecimal (c : CodePoint) := c.digitValue?.isSome
  let body := t.drop 1
  let body := if body.getLast? = some (CodePoint.ofNat 10) then body.dropLast else body
  match body.span isDecimal with
  | (digits, []) => !digits.isEmpty
  | (_, point :: rest) => point = ('.' : CodePoint) && !rest.isEmpty && rest.all isDecimal

/-- What one argument is taken for on its own. -/
def mark (options : List OptionSpec) (t : Text) : Except UsageError ArgumentMark :=
  if t.head? != some hyphen then .ok .word
  else
    match find? options t with
    | some o => .ok (.known o none)
    | none =>
      if t.length = 1 then .ok .word
      else
        let (start, value) := splitValue t
        match value, find? options start with
        | some value, some o =>
          .ok (if Text.startsWith t doubleHyphen || value.isEmpty then .known o (some value)
            else .letters o value)
        | _, _ =>
          match candidates options t with
          | [(_, found)] => .ok found
          | [] =>
            .ok (if isNegativeNumber t || t.contains (' ' : CodePoint) then .word else .unknown)
          | found => .error (.ambiguous t (found.map Prod.fst))

/-- What each argument is taken for; after a double hyphen all are words. -/
def marks (options : List OptionSpec) : List Text → Except UsageError (List (Text × ArgumentMark))
  | [] => .ok []
  | t :: rest =>
    if t = doubleHyphen then .ok ((t, .separator) :: rest.map fun word => (word, .word))
    else do
      let first ← mark options t
      let others ← marks options rest
      pure ((t, first) :: others)

/-- The arguments read so far: options with their values, the argument that is no option, and
words that belong to nothing. -/
structure Reading where
  given : List (OptionSpec × OptionValue)
  positional : Option Text
  extras : List Text

def Reading.empty : Reading := ⟨[], none, []⟩

/-- Takes an option, unless one that excludes it was given before. -/
def take (table : ArgumentTable) (r : Reading) (o : OptionSpec) (value : OptionValue) :
    Except EarlyExit Reading :=
  let rival := table.options.find? fun other =>
    other.exclusive && other != o && r.given.any fun g => g.1 = other
  match if o.exclusive then rival else none with
  | some other => .error (.usage (.excluded o.title other.title))
  | none =>
    if o.kind = .help then .error .help
    else .ok { r with given := r.given ++ [(o, value)] }

/-- How letters behind an option without a value end the command: they must name it again. -/
def endLetters (o : OptionSpec) : Text → EarlyExit
  | [] => .help
  | c :: rest =>
    if o.names.contains [hyphen, c] then endLetters o rest
    else .usage (.valueUnwanted o.title (c :: rest))

/-- The value that stands in the same argument as its option. -/
def attached (t : Text) : OptionValue := if t = doubleHyphen then .blank else .given t

/-- The argument that is no option. -/
def takePositional (p : PositionalSpec) (r : Reading) (value : Text) : Except EarlyExit Reading :=
  if p.choices.contains value then .ok { r with positional := some value }
  else .error (.usage (.notOneOf p.name value p.choices))

/-- The argument that is still wanted. -/
def wanted? (table : ArgumentTable) (r : Reading) : Option PositionalSpec :=
  if r.positional.isSome then none else table.positional

/-- Reads marked arguments one after the other. -/
def consume (table : ArgumentTable) (r : Reading) :
    List (Text × ArgumentMark) → Except EarlyExit Reading
  | [] => .ok r
  | (t, .unknown) :: rest => consume table { r with extras := r.extras ++ [t] } rest
  | (t, .separator) :: rest =>
    match wanted? table r, rest with
    | some p, (value, .word) :: rest => do
      let r ← takePositional p r value
      consume table r rest
    | _, rest => consume table { r with extras := r.extras ++ [t] } rest
  | (t, .word) :: rest =>
    match wanted? table r with
    | some p => do
      let r ← takePositional p r t
      match rest with
      | (_, .separator) :: rest => consume table r rest
      | rest => consume table r rest
    | none => consume table { r with extras := r.extras ++ [t] } rest
  | (_, .letters o letters) :: rest =>
    if o.kind = .value then do
      let r ← take table r o (attached letters)
      consume table r rest
    else .error (endLetters o letters)
  | (_, .known o value) :: rest =>
    match o.kind, value with
    | .value, some value => do
      let r ← take table r o (attached value)
      consume table r rest
    | .value, none =>
      match rest with
      | (value, .word) :: rest => do
        let r ← take table r o (.given value)
        consume table r rest
      | _ => .error (.usage (.valueMissing o.title))
    | _, some value => .error (.usage (.valueUnwanted o.title value))
    | _, none => do
      let r ← take table r o .absent
      consume table r rest

/-- Reads all arguments of a command. -/
def read (table : ArgumentTable) (arguments : List Text) : Except EarlyExit Reading := do
  let marked ← (marks table.options arguments).mapError EarlyExit.usage
  let r ← consume table .empty marked
  match wanted? table r with
  | some p => .error (.usage (.positionalMissing p.name))
  | none =>
    if r.extras.isEmpty then pure r else .error (.usage (.unrecognized r.extras))

/-- Whether an option was given. -/
def Reading.has (r : Reading) (o : OptionSpec) : Bool := r.given.any fun g => g.1 = o

/-- The last value given to an option. -/
def Reading.value (r : Reading) (o : OptionSpec) : OptionValue :=
  (r.given.reverse.find? fun g => g.1 = o).elim .absent Prod.snd

end Arguments

end Replay
