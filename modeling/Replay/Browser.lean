import Replay.Canvas
import Replay.Host

namespace Replay

/-- The methods of the harness. -/
inductive HarnessMethod where
  | bootstrap
  | runFrames
  | applyInput
  | captureSnapshot
  | readFrameCount
deriving DecidableEq

namespace HarnessMethod

def name : HarnessMethod → Text
  | bootstrap => "bootstrap"
  | runFrames => "runFrames"
  | applyInput => "applyInput"
  | captureSnapshot => "captureSnapshot"
  | readFrameCount => "readFrameCount"

end HarnessMethod

/-- What a browser is asked to do. -/
inductive BrowserCall where
  | launch (headless : Bool) (args : List Text)
  | newContext (viewport : Viewport)
  | setTimeout (milliseconds : Int)
  | newPage
  | onConsole
  | setContent (html : Text)
  | addScript (source : Text)
  | waitFor (global : Text)
  | harness (method : HarnessMethod) (global : Text) (args : List Json)
  | destroy (global : Text)
  | closeContext
  | closeBrowser

namespace BrowserCall

def name : BrowserCall → Text
  | launch _ _ => "launch"
  | newContext _ => "new_context"
  | setTimeout _ => "set_default_timeout"
  | newPage => "new_page"
  | onConsole => "on"
  | setContent _ => "set_content"
  | addScript _ => "add_script_tag"
  | waitFor _ => "wait_for_function"
  | harness method _ _ => method.name
  | destroy _ => "destroy"
  | closeContext => "context.close"
  | closeBrowser => "browser.close"

end BrowserCall

/-- A browser with states of type `σ`; most calls answer null. -/
abbrev Browser (σ : Type) := BrowserCall → Action σ Json

namespace Harness

variable {σ : Type}

/-- The name under which a page offers its harness. -/
def standardGlobal : Text := "__starterHeadlessHarness"

/-- What a page without a harness says. -/
def missingMessage : Text := "Headless browser harness was not initialized"

/-- Calls a method; an error of the browser becomes one of the driver. -/
def call (browser : Browser σ) (global : Text) (method : HarnessMethod) (args : List Json) :
    Action σ Json := do
  match ← Action.attempt (browser (.harness method global args)) with
  | .ok answer => pure answer
  | .error (.browser message) =>
    Action.fail (.driver ("Harness call " ++ method.name ++ " failed: " ++ message))
  | .error e => Action.fail e

def bootstrap (browser : Browser σ) (global canvas : Text) : Action σ Unit := do
  let _ ← call browser global .bootstrap [.text canvas]
  pure ()

/-- A snapshot is an object with a whole frame number and a PNG data URL. -/
def readSnapshot (answer : Json) : Except Failure Snapshot :=
  match answer with
  | .object members =>
    match Members.get? members "frame" with
    | some (.number (.int frame)) =>
      let image := (Members.get? members "pngDataUrl").getD .null
      if Capture.isPngUrl image then .ok ⟨.int frame, image⟩
      else .error (.driver CaptureError.notPng.message)
    | _ => .error (.driver "Snapshot capture returned a non-integer frame")
  | _ => .error (.driver CaptureError.notPng.message)

def readCount (answer : Json) : Except Failure Json :=
  match answer with
  | .number (.int n) => .ok (.int n)
  | _ => .error (.driver ("Harness reported a non-integer frame count: " ++ answer.nested))

/-- The driver that forwards every call to the harness. -/
def driver (browser : Browser σ) (global : Text) : Driver σ where
  runFrames count := do
    let _ ← call browser global .runFrames [.number count]
    pure ()
  applyInput event := do
    let _ ← call browser global .applyInput [event.payload]
    pure ()
  captureSnapshot := do
    let answer ← call browser global .captureSnapshot []
    Action.ofExcept (readSnapshot answer)
  readFrameCount := do
    let answer ← call browser global .readFrameCount []
    Action.ofExcept (readCount answer)

def destroy (browser : Browser σ) (global : Text) : Action σ Unit := do
  let _ ← browser (.destroy global)
  pure ()

end Harness

namespace BrowserHost

variable {σ : Type}

/-- Puts the game into the page and waits for its harness. -/
def load (browser : Browser σ) (source : Text) : Action σ Unit := do
  let loaded ← Action.attempt do
    let _ ← browser (.setContent (Canvas.document Canvas.standardId))
    let _ ← browser (.addScript source)
    browser (.waitFor Harness.standardGlobal)
  match loaded with
  | .ok _ => pure ()
  | .error (.browser message) =>
    Action.fail (.driver ("Unable to load headless harness: " ++ message))
  | .error e => Action.fail e

/-- Opens a page in a browser that was launched. -/
def openPage (browser : Browser σ) (viewport : Viewport) (settings : Settings) (source : Text) :
    Action σ Unit := do
  let _ ← browser (.newContext viewport)
  let _ ← browser (.setTimeout settings.timeout)
  let _ ← browser .newPage
  let _ ← browser .onConsole
  load browser source
  Harness.bootstrap browser Harness.standardGlobal Canvas.standardId

/-- Closes the browser after an action, whatever came of it; a failure to close goes first. -/
def thenClose (browser : Browser σ) (action : Action σ Unit) : Action σ Unit := do
  let r ← Action.attempt action
  let _ ← browser .closeBrowser
  Action.ofExcept r

/-- Launches the browser and opens a page; a page that does not open closes the browser. -/
def enter (browser : Browser σ) (viewport : Viewport) (settings : Settings) (files : FileSystem) :
    Action σ Unit := do
  let source ← Action.ofExcept (settings.readHarness files)
  let _ ← browser (.launch (!settings.showBrowser) settings.browserArgs)
  match ← Action.attempt (openPage browser viewport settings source) with
  | .ok () => pure ()
  | .error e => thenClose browser (Action.fail e)

/-- Takes down the page; an error of the browser at its harness is passed over. -/
def closePage (browser : Browser σ) (failure : Option Failure) : Action σ Unit := do
  match ← Action.attempt (Harness.destroy browser Harness.standardGlobal) with
  | .ok () => pure ()
  | .error (.browser _) => pure ()
  | .error e => Action.fail e
  let _ ← browser .closeContext
  match failure with
  | some e => Action.fail e
  | none => pure ()

def host (browser : Browser σ) (viewport : Viewport) : Host σ where
  enter := enter browser viewport
  driver := Harness.driver browser Harness.standardGlobal
  leave failure := thenClose browser (closePage browser failure)

end BrowserHost

/-- What a browser in memory answers: an image for snapshots, answers in place of the harness's
own, and messages of calls that fail. -/
structure PageRehearsal where
  image : Json
  answers : Members Json
  faults : Members Text

/-- The state of a browser in memory: the frame counter of its page and the calls it received. -/
structure PageStage where
  frame : Number
  calls : List BrowserCall

namespace PageRehearsal

/-- What the harness does on its own. -/
def respond (plan : PageRehearsal) (method : HarnessMethod) (args : List Json) :
    Action PageStage Json := fun stage =>
  match method, args with
  | .runFrames, [.number count] =>
    match stage.frame.add count with
    | .ok frame => (.ok .null, { stage with frame })
    | .error e => (.error (.number e), stage)
  | .captureSnapshot, _ =>
    (.ok (.object [("frame", .number stage.frame), ("pngDataUrl", plan.image)]), stage)
  | .readFrameCount, _ => (.ok (.number stage.frame), stage)
  | _, _ => (.ok .null, stage)

/-- Notes each call, then fails if that is planned. -/
def browser (plan : PageRehearsal) : Browser PageStage := fun call => do
  Action.change fun stage => { stage with calls := stage.calls ++ [call] }
  match plan.faults.get? call.name with
  | some message => Action.fail (.browser message)
  | none =>
    match call with
    | .harness method _ args =>
      match plan.answers.get? method.name with
      | some answer => pure answer
      | none => plan.respond method args
    | _ => pure .null

end PageRehearsal

end Replay
