import Replay.Access
import Replay.Game
import Replay.Route
import Replay.Tile

namespace Replay

/-- What a service works with. -/
structure ServicePlan (σ : Type) where
  settings : ServiceSettings
  /-- The variables that runs are set by. -/
  vars : Settings.Variables
  /-- How many arrays and objects inside each other the readers of requests have room for. -/
  depth : Nat
  host : Host σ
  clock : Nat → Number
  stopwatch : Nat → Number

namespace Service

variable {σ : Type}

def word (w : String) : Segment := .word w

/-- A file of the site; there are none. -/
def fileRoute : Route (View σ) :=
  ⟨"static", [.get], [word "static", .below], fun _ _ => pure (.done (.page 404))⟩

def errorPage : Response := .page 500

/-- Answers with a view; what it cannot turn into a response is an error of the service. -/
def serve (name : Text) (view : View σ) (time : Number) (r : Request) (s : Served σ) :
    Response × Served σ :=
  match view ⟨r, name, time, none⟩ s with
  | (.ok reply, s) => (reply.response.toOption.getD errorPage, s)
  | (.error _, s) => (errorPage, s)

/-- The site that requests go to. -/
def site (r : Request) : Text := r.target.scheme ++ "://" ++ (r.header? "Host").getD r.target.host

/-- What routes lead to. -/
def respond (routes : List (Route (View σ))) (time : Number) (r : Request) (s : Served σ) :
    Response × Served σ :=
  if !r.hasHost then (.page 400, s)
  else
    match Route.choose routes ⟨r.method, r.isSocket⟩ r.target.path with
    | .found name view => serve name view time r s
    | .inquiry => (.ofText 200 [], s)
    | .moved path => (.moved (site r) path r.target.query, s)
    | .wrongMethod => (.page 405, s)
    | .wrongConnection => (.page 400, s)
    | .missing => (.page 404, s)

/-- Answers with whatever routes lead to. -/
def dispatch (routes : List (Route (View σ))) (time : Number) (r : Request) (s : Served σ) :
    Response × Served σ :=
  let (response, s) := respond routes time r s
  (response.sent r.methodName, s)

/-- Whether a request is larger than a limit; zero is no limit. -/
def isTooLarge (limit : Int) (r : Request) : Bool :=
  limit != 0 && r.size != 0 && decide (limit < r.size)

def tooLarge : Response := .ofText 413 "Request too large"

/-- The quota of the views that start a browser. -/
def browserQuota : Quota := ⟨some (.int 5), some (.int 60), none⟩

def health : View σ := fun _ => pure (.value (.object [("status", .text "ok")]))

/-- The JSON in a request, which must not be null. -/
def scriptOf (depth : Nat) (r : Request) : Except Failure Json :=
  match r.json depth with
  | .error e => .error (.json e)
  | .ok script => if script.isNull then .error (.request .noScript) else .ok script

/-- Checks a script without running it. -/
def validate (depth : Nat) : View σ := fun call => do
  let input ← Action.ofExcept (scriptOf depth call.request)
  let script ← Action.ofExcept ((Script.read .standard .standard input).mapError Failure.ofScript)
  pure (.value (.object [("ok", .bool true), ("steps", (script.payload.member? "steps").getD .null),
    ("totals", script.totals.payload)]))

def gameMissing : Reply := .withStatus (.object [("error", .text "Game not found")]) 404

/-- Goes on with the directory of a game, if there is one. -/
def withGame (plan : ServicePlan σ) (id : Text) (body : Path → Action (Session σ) Reply) :
    Action (Session σ) Reply := do
  let directory ← Action.ofExcept
    ((Game.directory plan.settings.gamesRoot id).mapError Failure.request)
  if ← Session.onMachine (Machine.inspect fun fs => fs.isDirectory directory) then body directory
  else pure gameMissing

/-- Runs the script of a request on a game. -/
def runScript (plan : ServicePlan σ) (id : Text) (r : Request) (directory : Path) :
    Action (Session σ) Reply := do
  let script ← Action.ofExcept (scriptOf plan.depth r)
  let files ← Action.read fun s => s.machine.files
  let settings ← Action.ofExcept (Settings.load files plan.vars (some directory))
  let result ← Run.perform plan.host ⟨settings, some id, plan.clock, plan.stopwatch⟩ script
  pure (.withStatus result.payload (if result.ok then 200 else 422))

/-- Takes the tile image of a game. -/
def takeTile (plan : ServicePlan σ) (id : Text) (directory : Path) : Action (Session σ) Reply := do
  match ← Action.attempt
      (Tile.capture (Tile.runner plan.host plan.clock plan.stopwatch) plan.vars none directory) with
  | .error (.tile e) => pure (.withStatus (.object [("error", .text e.message)]) 422)
  | .error e => Action.fail e
  | .ok _ =>
    let place := "/games/" ++ Uri.quote [Uri.slash] id ++ "/snapshots/tile.png"
    pure (.withStatus (.object [("tileSnapshotPath", .text place)]) 200)

/-- The guards before the views that start a browser. -/
def guarded (rules : AccessRules) (view : View σ) : View σ :=
  Access.keyed rules (Access.limited rules browserQuota (Access.inJson view))

/-- The piece of a path that is the id of a game. -/
def idOf (arguments : List Text) : Text := arguments.head?.getD []

def routes (plan : ServicePlan σ) : List (Route (View (Session σ))) :=
  let rules := AccessRules.ofSettings plan.settings
  [fileRoute,
    ⟨"health", [.get], [word "health"], fun _ => health⟩,
    ⟨"validate", [.post], [word "api", word "headless", word "validate"], fun _ =>
      Access.limited rules .standard (Access.inJson (validate plan.depth))⟩,
    ⟨"headless", [.post], [word "api", word "games", .any, word "headless"], fun arguments =>
      guarded rules fun call => Access.onInner
        (withGame plan (idOf arguments) (runScript plan (idOf arguments) call.request))⟩,
    ⟨"tile", [.post], [word "api", word "games", .any, word "tile-snapshot"], fun arguments =>
      guarded rules fun _ => Access.onInner
        (withGame plan (idOf arguments) (takeTile plan (idOf arguments)))⟩]

/-- Answers one request at a time of the limiter's clock. -/
def handle (plan : ServicePlan σ) (time : Number) (r : Request) (s : Served (Session σ)) :
    Response × Served (Session σ) :=
  if isTooLarge plan.settings.sizeLimit r then (tooLarge.sent r.methodName, s)
  else dispatch (routes plan) time r s

end Service

end Replay
