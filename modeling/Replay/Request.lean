import Replay.Encoding
import Replay.Failure
import Replay.JsonText

namespace Replay

/-- The characters beyond ASCII whose upper case is in ASCII. -/
def foreignCapitals : List (Nat × String) := [
  (0xDF, "SS"), (0x131, "I"), (0x17F, "S"), (0xFB00, "FF"), (0xFB01, "FI"), (0xFB02, "FL"),
  (0xFB03, "FFI"), (0xFB04, "FFL"), (0xFB05, "ST"), (0xFB06, "ST")
]

/-- The upper case as far as it is in ASCII; other characters stay what they are. -/
def CodePoint.capital (c : CodePoint) : Text :=
  if c.isLower then [CodePoint.ofNat (c.val - 32)]
  else (foreignCapitals.find? fun e => e.1 = c.val).elim [c] fun e => e.2

def Text.capitals (t : Text) : Text := t.flatMap CodePoint.capital

/-- The methods that matter. -/
inductive Method where
  | get
  | head
  | post
  | options
  | other
deriving DecidableEq

namespace Method

def name : Method → Text
  | get => "GET"
  | head => "HEAD"
  | post => "POST"
  | options => "OPTIONS"
  | other => []

/-- Methods are named in any case. -/
def ofName (t : Text) : Method :=
  ([get, head, post, options].find? fun m => m.name = t.capitals).getD other

end Method

/-- Header fields in order; their names have no case. -/
abbrev Headers := List (Text × Text)

namespace Headers

def isNamed (name : Text) (h : Text × Text) : Bool := h.1.lower = name.lower

/-- The value of the first header of a name. -/
def get? (headers : Headers) (name : Text) : Option Text :=
  (headers.find? (isNamed name)).map Prod.snd

/-- Puts a header in place of the first one of its name; others of that name vanish. -/
def set (headers : Headers) (name value : Text) : Headers :=
  match headers.span fun h => !isNamed name h with
  | (before, []) => before ++ [(name, value)]
  | (before, _ :: after) => before ++ (name, value) :: after.filter fun h => !isNamed name h

def remove (headers : Headers) (name : Text) : Headers := headers.filter fun h => !isNamed name h

/-- A header has no line ends in its value. -/
def isValue (t : Text) : Bool := !t.any fun c => c.val = 10 || c.val = 13

def contentType : Text := "Content-Type"

def jsonType : Text := "application/json"

def pageType : Text := "text/html; charset=utf-8"

/-- Whether a media type stands for JSON. -/
def isJsonType (type : Text) : Bool :=
  type = jsonType || (Text.startsWith type "application/" && Text.endsWith type "+json")

end Headers

namespace HeaderItems

def quoteMark : CodePoint := '"'

/-- Where the reading of a list stands. -/
inductive Place where
  | bare
  | quoted
  /-- After a backslash between quotes. -/
  | escaped
deriving DecidableEq

/-- The pieces between commas, from an unfinished one on. Commas between quotes count as text, and
so does what follows a backslash there. -/
def pieces (place : Place) (piece : Text) : Text → List Text
  | [] => if piece.isEmpty then [] else [piece]
  | c :: rest =>
    match place with
    | .escaped => pieces .quoted (piece ++ [c]) rest
    | .quoted =>
      if c = ('\\' : CodePoint) then pieces .escaped piece rest
      else pieces (if c = quoteMark then .bare else .quoted) (piece ++ [c]) rest
    | .bare =>
      if c = (',' : CodePoint) then piece :: pieces .bare [] rest
      else pieces (if c = quoteMark then .quoted else .bare) (piece ++ [c]) rest

/-- An item without the quotes around it. -/
def unquoted (item : Text) : Text :=
  if 2 ≤ item.length && item.head? = some quoteMark && item.getLast? = some quoteMark then
    (item.drop 1).dropLast
  else item

end HeaderItems

/-- The items of a header that holds a list. -/
def Headers.items (t : Text) : List Text :=
  (HeaderItems.pieces .bare [] t).map fun piece => HeaderItems.unquoted piece.trim

structure Request where
  /-- The method as it is written. -/
  methodName : Text
  target : Target
  headers : Headers
  body : Option Bytes
  /-- The address of the caller, empty if it is not known. -/
  address : Text

namespace Request

/-- Puts a request together. Its target can be read and written in UTF-8, and its headers have one
line each. -/
def make (methodName target : Text) (headers : Headers) (body : Option Bytes) (address : Text) :
    Except Failure Request := do
  let place ← (Target.read target).mapError Failure.uri
  if headers.any fun h => !Headers.isValue h.2 then throw (.request .severalLines)
  match Utf8.surrogateRun? 0 place.written with
  | some e => throw (.uri (.unencodable e))
  | none => pure ⟨methodName, place, headers, body, address⟩

def method (r : Request) : Method := Method.ofName r.methodName

/-- The name under which a header is handed on: without case, and with hyphens and underscores
alike. -/
def handedName (name : Text) : Text :=
  (Text.capitals name).map fun c => if c = ('-' : CodePoint) then ('_' : CodePoint) else c

/-- The values of a header, joined by commas. -/
def header? (r : Request) (name : Text) : Option Text :=
  match r.headers.filter fun h => handedName h.1 = handedName name with
  | [] => none
  | found => some (Text.join ", " (found.map Prod.snd))

/-- Whether the body comes in pieces, so that its size is not known. -/
def isStreamed (r : Request) : Bool :=
  (Headers.items ((r.header? "Transfer-Encoding").getD [])).any fun item =>
    item.lower = ("chunked" : Text)

/-- The media type that is declared, without parameters. -/
def declaredType (r : Request) : Text :=
  (Text.cut ';' ((Headers.get? r.headers Headers.contentType).getD [])).1

/-- Whether the request is a form without fields. -/
def isBlankForm (r : Request) : Bool :=
  (r.body.getD []).isEmpty && r.declaredType.trim = ("multipart/form-data" : Text)

/-- The size of a form without fields: a line that ends it. -/
def blankFormSize : Nat := 75

/-- The body as far as its size is known. -/
def content (r : Request) : Bytes := if r.isStreamed then [] else r.body.getD []

def size (r : Request) : Nat :=
  if r.isStreamed then 0 else if r.isBlankForm then blankFormSize else r.content.length

/-- Whether the request asks for a connection that stays open in both directions. -/
def isSocket (r : Request) : Bool :=
  let asked := Text.splitOn ',' (Text.lower ((r.header? "Connection").getD []))
  let upgrade := Text.lower ((r.header? "Upgrade").getD [])
  r.target.isSocket
    || (asked.any fun part => part.trim = ("upgrade" : Text)) && upgrade = ("websocket" : Text)

/-- Whether the request names a host that can be asked. -/
def hasHost (r : Request) : Bool := Target.hasHost ((r.header? "Host").getD r.target.host)

def isSpaceOrTab (c : CodePoint) : Bool := c.val = 32 || c.val = 9

/-- The media type of the body, without parameters. -/
def mediaType (r : Request) : Text :=
  Text.lower ((r.declaredType.dropWhile isSpaceOrTab).reverse.dropWhile isSpaceOrTab).reverse

/-- The JSON of the body, null if there is none. A body of too many levels is an error. -/
def json (depth : Nat) (r : Request) : Except JsonError Json :=
  if Headers.isJsonType r.mediaType then
    match r.content.jsonText? with
    | some t =>
      match Json.read depth t with
      | .ok value => .ok value
      | .error e => if e.isValueError then .ok .null else .error e
    | none => .ok .null
  else .ok .null

end Request

inductive Body where
  | json (value : Json)
  | text (t : Text)

namespace Body

/-- The text that is sent. -/
def written : Body → Text
  | json value => value.sorted.tight ++ "\n"
  | text t => t

end Body

structure Response where
  status : Int
  headers : Headers
  body : Body

namespace Response

def ofJson (status : Int) (value : Json) : Response :=
  ⟨status, [(Headers.contentType, Headers.jsonType)], .json value⟩

def ofText (status : Int) (t : Text) : Response :=
  ⟨status, [(Headers.contentType, Headers.pageType)], .text t⟩

/-- What pages begin with. -/
def pageStart : Text := "<!doctype html>"

/-- A page that says no more than the status. -/
def page (status : Int) : Response :=
  ofText status (pageStart ++ "\n<title>" ++ Text.ofInt status ++ "</title>\n")

/-- A JSON object that holds an error. -/
def ofError (status : Int) (message : Text) : Response :=
  ofJson status (.object [("error", .text message)])

/-- The response with one more header. -/
def withHeader (r : Response) (name value : Text) : Response :=
  { r with headers := Headers.set r.headers name value }

def isInformation (status : Int) : Bool := 100 ≤ status && status < 200

/-- The method whose answers have no body, in capitals only. -/
def bareMethod : Text := "HEAD"

/-- Whether a response goes without its body. -/
def isBare (methodName : Text) (status : Int) : Bool :=
  methodName = bareMethod || isInformation status || status = 204 || status = 304

/-- The response as it is sent; one that tells of no change does not name the type of its body. -/
def sent (methodName : Text) (r : Response) : Response :=
  let headers := if r.status = 304 then Headers.remove r.headers Headers.contentType else r.headers
  ⟨r.status, headers, if isBare methodName r.status then .text [] else r.body⟩

/-- The JSON in a response that is declared to hold any; null if it cannot be read. -/
def json? (depth : Nat) (r : Response) : Option Json :=
  let type := (Text.cut ';' ((Headers.get? r.headers Headers.contentType).getD [])).1
  if Headers.isJsonType type.trim then
    match r.body with
    | .json value => some value
    | .text t => some ((Json.read depth t).toOption.getD .null)
  else none

/-- The text in any other response, unless it is a page. -/
def text? (depth : Nat) (r : Response) : Option Text :=
  if (r.json? depth).isSome || Text.startsWith r.body.written pageStart then none
  else some r.body.written

end Response

end Replay
