import Replay.PathPattern
import Replay.Request

namespace Replay

structure Route (α : Type) where
  name : Text
  methods : List Method
  segments : List Segment
  /-- What answers, given the pieces that are not fixed. -/
  handler : List Text → α

/-- How a path is asked for. -/
structure Asking where
  method : Method
  /-- Whether the connection stays open in both directions; no route has that. -/
  isSocket : Bool

inductive Routing (α : Type) where
  | found (name : Text) (handler : α)
  /-- The caller asks which methods there are. -/
  | inquiry
  | moved (path : Text)
  | wrongMethod
  /-- The path is right, but the connection is not. -/
  | wrongConnection
  | missing

/-- A route on the way to a path: the segments that are still to come, and the pieces met so far
that are not fixed. -/
structure Candidate (α : Type) where
  route : Route α
  ahead : List Segment
  values : List Text

/-- What a search comes upon. -/
inductive Hit (α : Type) where
  | route (name : Text) (handler : α)
  /-- A route that needs one more slash at the end of the path. -/
  | slash

/-- What fits a path but not the way in which it is asked for. -/
structure Misses where
  method : Bool
  connection : Bool

namespace Route

variable {α : Type}

/-- A route that answers GET also answers HEAD, and every route answers OPTIONS. -/
def allows (r : Route α) (m : Method) : Bool :=
  m = .options || r.methods.contains m || (m = .head && r.methods.contains .get)

/-- Adds a route under a name of its own. -/
def add (routes : List (Route α)) (r : Route α) : Except RouteError (List (Route α)) :=
  if routes.any fun other => other.name = r.name then .error (.taken r.name)
  else .ok (routes ++ [r])

/-- The candidates that go on with a segment, and have then met some values. -/
def follow (segment : Segment) (values : List Text) (candidates : List (Candidate α)) :
    List (Candidate α) :=
  candidates.filterMap fun c =>
    match c.ahead with
    | next :: ahead =>
      if next = segment then some ⟨c.route, ahead, c.values ++ values⟩ else none
    | [] => none

/-- The segments with slots that candidates go on with, in the order in which they are tried. -/
def openSegments (candidates : List (Candidate α)) : List Segment :=
  let ahead := (candidates.filterMap fun c => c.ahead.head?).filter fun
    | .word _ => false
    | _ => true
  ahead.eraseDups.mergeSort fun a b => !(b.order < a.order)

/-- Takes the first candidate that ends here and is asked for in its way. -/
def arrive (ask : Asking) (misses : Misses) : List (Candidate α) → Option (Hit α) × Misses
  | [] => (none, misses)
  | c :: rest =>
    if !c.ahead.isEmpty then arrive ask misses rest
    else if !c.route.allows ask.method then arrive ask { misses with method := true } rest
    else if ask.isSocket then arrive ask { misses with connection := true } rest
    else (some (.route c.route.name (c.route.handler c.values)), misses)

/-- Whether some candidate would end here after one more slash. -/
def endsAfterSlash (ask : Asking) (candidates : List (Candidate α)) : Bool :=
  candidates.any fun c => c.ahead = [.word []] && c.route.allows ask.method && !ask.isSocket

/-- What a path that ends here leads to. -/
def conclude (ask : Asking) (candidates : List (Candidate α)) (misses : Misses) :
    Option (Hit α) × Misses :=
  match arrive ask misses candidates with
  | (none, misses) => (if endsAfterSlash ask candidates then some .slash else none, misses)
  | found => found

/-- Goes on with a tail, if it stands for all that is left. -/
def searchTail (ask : Asking) (candidates : List (Candidate α)) (misses : Misses)
    (p : PathPattern) (isSlashed : Bool) (t : Text) : Option (Hit α) × Misses :=
  match Segment.fillTail? p isSlashed t with
  | none => (none, misses)
  | some (values, hasSlash) =>
    let candidates := follow (.tail p isSlashed) values candidates
    conclude ask (if hasSlash then follow (.word []) [] candidates else candidates) misses

/-- Searches along the pieces of a path. Fixed pieces go before those with slots. -/
def search (ask : Asking) (candidates : List (Candidate α)) (misses : Misses) :
    List Text → Option (Hit α) × Misses
  | [] => conclude ask candidates misses
  | piece :: pieces =>
    (openSegments candidates).foldl (fun found segment =>
      match found, segment with
      | (none, misses), .pattern p =>
        match p.fill? piece with
        | some values => search ask (follow segment values candidates) misses pieces
        | none => (none, misses)
      | (none, misses), .tail p isSlashed =>
        searchTail ask candidates misses p isSlashed (Text.join [Uri.slash] (piece :: pieces))
      | found, _ => found) (search ask (follow (.word piece) [] candidates) misses pieces)

/-- Searches for a path among all routes. -/
def find (routes : List (Route α)) (ask : Asking) (misses : Misses) (path : Text) :
    Option (Hit α) × Misses :=
  search ask (routes.map fun r => ⟨r, r.segments, []⟩) misses (Segment.pieces path)

/-- Slashes at the start of a path count as one. -/
def rooted (path : Text) : Text :=
  if path.isEmpty then [] else Uri.slash :: path.dropWhile fun c => c = Uri.slash

/-- The outcome for a path that no route leads to, not even with its slashes merged. -/
def refused (misses : Misses) : Routing α :=
  if misses.method then .wrongMethod
  else if misses.connection then .wrongConnection
  else .missing

def choose (routes : List (Route α)) (ask : Asking) (path : Text) : Routing α :=
  let path := rooted path
  match find routes ask ⟨false, false⟩ path with
  | (some (.route name handler), _) =>
    if ask.method = .options then .inquiry else .found name handler
  | (some .slash, _) => .moved (path ++ [Uri.slash])
  | (none, misses) =>
    let merged := Uri.mergeSlashes path
    match find routes ask misses merged with
    | (some (.route _ _), _) => .moved merged
    | (some .slash, _) => .moved (merged ++ [Uri.slash])
    | (none, misses) => refused misses

end Route

namespace Response

def escapedMark (c : CodePoint) : Text :=
  if c = ('&' : CodePoint) then "&amp;"
  else if c = ('<' : CodePoint) then "&lt;"
  else if c = ('>' : CodePoint) then "&gt;"
  else if c = ('\'' : CodePoint) then "&#39;"
  else if c = ('"' : CodePoint) then "&#34;"
  else [c]

/-- A page that sends its reader on. -/
def movedPage (place : Text) : Text :=
  pageStart ++ "\n<html lang=en>\n<title>Redirecting...</title>\n<h1>Redirecting...</h1>\n"
    ++ "<p>You should be redirected automatically to the target URL: <a href=\"" ++ place
    ++ "\">" ++ place ++ "</a>. If not, click the link.\n"

/-- The response that tells the caller to ask at another path of the same site. -/
def moved (site path query : Text) : Response :=
  let query : Text := if query.isEmpty then [] else "?" ++ query
  let place := site ++ Uri.quote (Uri.slash :: Uri.pathMarks) path ++ query
  (ofText 308 (movedPage (place.flatMap escapedMark))).withHeader "Location" place

end Response

end Replay
