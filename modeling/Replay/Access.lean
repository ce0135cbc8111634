import Replay.Action
import Replay.Limiter
import Replay.Reply
import Replay.ServiceSettings
import Replay.ValueText

namespace Replay

/-- A request on its way to a view. -/
structure Call where
  request : Request
  /-- The name of the view. -/
  endpoint : Text
  /-- The reading of the limiter's clock. -/
  time : Number
  /-- The API key that the caller has proved to hold. -/
  key : Option Text

/-- A state that views work on, together with the limiter of requests. -/
structure Served (σ : Type) where
  inner : σ
  limiter : Limiter

abbrev View (σ : Type) := Call → Action (Served σ) Reply

/-- What guards go by. -/
structure AccessRules where
  keys : List Text
  /-- The quota where a view has none of its own. -/
  quota : Except Failure Int
  window : Except Failure Int

namespace AccessRules

/-- The whole number that a setting holds; fractions are cut off, and texts are read. -/
def wholeNumber : Json → Except Failure Int
  | .number n => n.truncate.mapError Failure.number
  | .bool b => .ok (if b then 1 else 0)
  | .text t =>
    (Text.readInt t).mapError fun e => .request (.notInteger e)
  | _ => .error .uselessValue

/-- The keys in a setting, if it is a list; empty ones do not count. -/
def keys? (settings : Members Json) (name : Text) : Option (List Text) :=
  match settings.get? name with
  | some (.array items) => some ((items.map Json.plain).filter fun k => !k.isEmpty)
  | _ => none

/-- The rules that settings of any kind make; for the keys there are two settings, the second of
which counts only if the first one is no list. -/
def ofMembers (settings : Members Json) : AccessRules :=
  ⟨((keys? settings "X_API_KEYS").or (keys? settings "API_KEYS")).getD [],
    (settings.get? "RATE_LIMIT_REQUESTS").elim (.ok ServiceSettings.standardQuota) wholeNumber,
    (settings.get? "RATE_LIMIT_WINDOW").elim (.ok ServiceSettings.standardWindow) wholeNumber⟩

/-- The rules that the settings of the service make. -/
def ofSettings (s : ServiceSettings) : AccessRules :=
  ⟨s.apiKeys.filter fun k => !k.isEmpty, .ok s.quota, .ok s.window⟩

end AccessRules

/-- The quota that a view has of its own, and the caller whom it counts. -/
structure Quota where
  limit : Option Number
  window : Option Number
  caller : Option Text

namespace Quota

def standard : Quota := ⟨none, none, none⟩

end Quota

namespace Access

variable {σ : Type}

def onInner {α : Type} (a : Action σ α) : Action (Served σ) α :=
  Action.lift Served.inner (fun inner s => { s with inner }) a

def keyHeader : Text := "X-API-Key"

/-- The API key that a request carries, empty if it carries none. -/
def givenKey (r : Request) : Text := (r.header? keyHeader).getD []

def unauthorized : Response :=
  (Response.ofError 401 "Unauthorized").withHeader "WWW-Authenticate" "ApiKey"

/-- Texts are compared only if they are ASCII. -/
def sameKey (given key : Text) : Except Failure Bool :=
  if given.all CodePoint.isAscii && key.all CodePoint.isAscii then .ok (decide (given = key))
  else .error .keyNotAscii

/-- Whether a key is among those known; the search ends where it is found. -/
def isKnown (given : Text) : List Text → Except Failure Bool
  | [] => .ok false
  | key :: rest => do
    if ← sameKey given key then pure true else isKnown given rest

/-- Lets a request pass that carries a known API key. -/
def admits (keys : List Text) (r : Request) : Except Failure Bool :=
  let given := givenKey r
  if keys.isEmpty || given.isEmpty then .ok false else isKnown given keys

/-- Serves only callers with an API key. -/
def keyed (rules : AccessRules) (view : View σ) : View σ := fun call => do
  if ← Action.ofExcept (admits rules.keys call.request) then
    view { call with key := some (givenKey call.request) }
  else pure (.done unauthorized)

/-- The value of the view's own, unless it is zero, or else the one of the rules. -/
def chosen (own : Option Number) (standard : Except Failure Int) : Except Failure Number :=
  match own.filter fun n => !n.same (.int 0) with
  | some n => .ok n
  | none => standard.map Number.int

def nonEmpty? (t : Text) : Option Text := if t.isEmpty then none else some t

/-- Whom a request is counted for: the caller that is set, or its key, or its address. -/
def identity (q : Quota) (r : Request) : Text :=
  ((q.caller.bind nonEmpty?).or
    ((nonEmpty? (givenKey r)).or (nonEmpty? r.address))).getD "anonymous"

/-- The name under which requests to a view are counted. -/
def countedAs (q : Quota) (call : Call) : Text := call.endpoint ++ ":" ++ identity q call.request

def tooMany (seconds : Int) : Response :=
  (Response.ofError 429 "Too many requests").withHeader "Retry-After" (Text.ofInt seconds)

/-- Asks the limiter for admission. -/
def askLimiter (time : Number) (caller : Text) (limit window : Number) :
    Action (Served σ) Bool := fun s =>
  match s.limiter.allow time caller limit window with
  | (r, limiter) => (r.mapError Failure.number, { s with limiter })

/-- Serves a caller no more often than the quota allows. -/
def limited (rules : AccessRules) (q : Quota) (view : View σ) : View σ := fun call => do
  let limit ← Action.ofExcept (chosen q.limit rules.quota)
  let window ← Action.ofExcept (chosen q.window rules.window)
  let caller := countedAs q call
  if ← askLimiter call.time caller limit window then view call
  else do
    let limiter ← Action.read Served.limiter
    let seconds ← Action.ofExcept
      ((limiter.retryAfter call.time caller window).mapError Failure.number)
    pure (.done (tooMany seconds))

/-- The response for a failure: what blames the request is told, all else is kept private. -/
def failed : Failure → Response
  | .script e => .ofJson 400 (.object [("error", .text e.message), ("path", .text e.path)])
  | e => if e.isValueError then .ofError 400 e.message else .ofError 500 "Internal server error"

/-- Answers in JSON, whatever the view does. -/
def inJson (view : View σ) : View σ := fun call => do
  match ← Action.attempt (view call) with
  | .error e => pure (.done (failed e))
  | .ok reply => Action.ofExcept reply.inJson

end Access

end Replay
