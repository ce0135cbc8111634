import Replay.Failure
import Replay.Request

namespace Replay

/-- What a view gives. -/
inductive Reply where
  | value (v : Json)
  /-- A value in a row with a status and headers. -/
  | row (items : List Json)
  /-- A response with a status or headers to put in it, where null stands for neither. -/
  | finished (r : Response) (given : Json)

namespace Reply

/-- A response as it is. -/
def done (r : Response) : Reply := .finished r .null

/-- A value with a status. -/
def withStatus (v : Json) (status : Int) : Reply := .row [v, .number (.int status)]

/-- The row of a value, a status and headers, where null stands for what is not given. In a row of
two the second item is headers if it holds any values, or else a status. -/
def parts? : List Json → Option (Json × Json × Json)
  | [v, .object members] => some (v, .null, .object members)
  | [v, .array items] => some (v, .null, .array items)
  | [v, status] => some (v, status, .null)
  | [v, status, headers] => some (v, status, headers)
  | _ => none

/-- The status that a value names: a whole number, or a text that begins with one. Any other text
names zero. -/
def status? : Json → Option Int
  | .null => some 200
  | .bool b => some (if b then 1 else 0)
  | .number (.int n) => some n
  | .text t =>
    let word := (Text.cut ' ' t.trim).1
    if word.isEmpty then none else some ((Text.toInt? word).getD 0)
  | _ => none

/-- Whether a value counts as not given. -/
def isNothing : Json → Bool
  | .null => true
  | .bool b => !b
  | .number n => n.same (.int 0)
  | .text t => t.isEmpty
  | .array items => items.isEmpty
  | .object members => members.isEmpty

/-- The value of a header in one line. -/
def line (content : Json) : Except Failure Text :=
  if Headers.isValue content.plain then .ok content.plain else .error (.request .severalLines)

/-- Puts a header in place of those of its name. -/
def putField (headers : Headers) (name : Text) (content : Json) : Except Failure Headers :=
  (line content).map (headers.set name)

/-- Puts headers for the items of a list in place of those of its name. -/
def putFields (headers : Headers) (name : Text) : List Json → Except Failure Headers
  | [] => .ok (headers.remove name)
  | first :: rest => do
    let headers ← putField headers name first
    let lines ← rest.mapM line
    pure (headers ++ lines.map fun t => (name, t))

/-- Puts headers one by one in place of those of their names. -/
def putEach (headers : Headers) : List (Text × Json) → Except Failure Headers
  | [] => .ok headers
  | (name, content) :: rest => do
    let headers ← putField headers name content
    putEach headers rest

/-- Puts headers in place of those of their names, where a list stands for several. -/
def putAll (headers : Headers) : List (Text × Json) → Except Failure Headers
  | [] => .ok headers
  | (name, content) :: rest => do
    let headers ←
      match content with
      | .array items => putFields headers name items
      | single => putField headers name single
    putAll headers rest

/-- A name with its value: the two items of a list, the two characters of a text, or the two keys of
an object. -/
def pair? : Json → Option (Text × Json)
  | .array [.text name, content] => some (name, content)
  | .text [name, content] => some ([name], .text [content])
  | .object [(name, _), (content, _)] => some (name, .text content)
  | _ => none

def pairs? (items : List Json) : Option (List (Text × Json)) := items.mapM pair?

/-- The headers after what goes with a response is put among them. -/
def update (headers : Headers) (given : Json) : Except Failure Headers :=
  if isNothing given then .ok headers
  else
    match given with
    | .object members => putAll headers members
    | .array items =>
      match pairs? items with
      | some pairs => putEach headers pairs
      | none => .error .uselessValue
    | _ => .error .uselessValue

/-- The header fields for a name: a list stands for several. -/
def fieldsOf (name : Text) (content : Json) : Except Failure Headers :=
  match content with
  | .array items => items.mapM fun item => (line item).map fun t => (name, t)
  | single => (line single).map fun t => [(name, t)]

/-- The headers of a new response. -/
def fields (given : Json) : Except Failure Headers :=
  if isNothing given then .ok []
  else
    match given with
    | .object members => (members.mapM fun m => fieldsOf m.1 m.2).map List.flatten
    | .array items =>
      match pairs? items with
      | some pairs => pairs.mapM fun p => (line p.2).map fun t => (p.1, t)
      | none => .error .uselessValue
    | _ => .error .uselessValue

/-- A status that is of use. -/
def status (v : Json) : Except Failure Int := (status? v).elim (.error .uselessValue) .ok

/-- The response with another status, unless none is given, and more headers. -/
def revise (r : Response) (given headers : Json) : Except Failure Response := do
  let code ←
    match given with
    | .null => pure r.status
    | given => status given
  let fields ← update r.headers headers
  pure { r with status := code, headers := fields }

/-- The response with a text. It must have a form in bytes. -/
def ofText (t : Text) (given headers : Json) : Except Failure Response := do
  let fields ← fields headers
  let typed := (Headers.get? fields Headers.contentType).isSome
  let fields := if typed then fields else fields ++ [(Headers.contentType, Headers.pageType)]
  let code ← status given
  if (Utf8.encode t).toOption.isSome then pure ⟨code, fields, .text t⟩ else .error .uselessValue

/-- The response for a value; bare numbers and constants have none. -/
def ofParts (v given headers : Json) : Except Failure Response :=
  match v with
  | .text t => ofText t given headers
  | .object members => revise (.ofJson 200 (.object members)) given headers
  | .array items => revise (.ofJson 200 (.array items)) given headers
  | _ => .error .uselessValue

/-- The response for a reply. -/
def response : Reply → Except Failure Response
  | value v => ofParts v .null .null
  | row items =>
    match parts? items with
    | some (v, given, headers) => ofParts v given headers
    | none => .error .uselessValue
  | finished r given =>
    match given with
    | .object _ => revise r .null given
    | .array _ => revise r .null given
    | _ => revise r given .null

/-- The headers after those that go with a JSON response are put among them, a list as one text. -/
def jsonHeaders (headers : Headers) (given : Json) : Except Failure Headers :=
  if isNothing given then .ok headers
  else
    match given with
    | .object members => putEach headers members
    | _ => .error .uselessValue

/-- The reply with its value as JSON, whatever it is; it must not be finished yet. -/
def inJson : Reply → Except Failure Reply
  | value v => .ok (done (.ofJson 200 v))
  | row (v :: given :: rest) => do
    let r := Response.ofJson 200 v
    let headers ← jsonHeaders r.headers (rest.headD .null)
    pure (finished { r with headers } given)
  | _ => .error .uselessValue

end Reply

end Replay
