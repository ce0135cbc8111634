import Replay.Script

namespace Replay

/-- The values in a step that are checked on their own. -/
inductive StepField where
  | run
  | snap
  | action
  | pointerId
  | x
  | y
  | space
  | emit
deriving DecidableEq

namespace StepField

/-- The names that lead from the step to the value. -/
def place : StepField → Text
  | run => ".run"
  | snap => ".snap"
  | action => ".input.action"
  | pointerId => ".input.pointerId"
  | x => ".input.x"
  | y => ".input.y"
  | space => ".input.space"
  | emit => ".input.emit"

end StepField

/-- What is wrong with a value in a step. -/
inductive FieldFault where
  | notInteger
  | notPositive
  | notInt64
  | notFinite
  | outside (high : Number)
  | notOneOf (choices : List Text)
  | notText
  | blank
deriving DecidableEq

/-- Why a value is no script. -/
inductive ScriptError where
  | notObject
  | unsupportedField (name : Text)
  | stepsNotArray
  | noSteps
  | tooManySteps
  | stepNotObject (step : Nat)
  | notOneKind (step : Nat)
  | frameLimit (step : Nat) (limit total : Int)
  | inputLimit (step : Nat)
  | snapLimit (step : Nat) (limit : Int) (count : Nat)
  | inputNotObject (step : Nat)
  | field (step : Nat) (field : StepField) (fault : FieldFault)
  /-- An error of the caller's own wording. -/
  | custom (message path reason : Text)
deriving DecidableEq

/-- A bound that is a whole number is written without a fraction. -/
def boundText : Number → Text
  | .int n => Text.ofInt n
  | .real x =>
    match x.truncate? with
    | some n => if x.isInteger then Text.ofInt n else x.text
    | none => x.text

namespace FieldFault

def message : FieldFault → Text
  | notInteger => "must be an integer"
  | notPositive => "must be greater than 0"
  | notInt64 => "must fit in a signed 64-bit integer"
  | notFinite => "must be a finite number"
  | outside high => "must be between 0 and " ++ boundText high
  | notOneOf choices => "must be one of: " ++ Text.join ", " choices
  | notText => "must be a string"
  | blank => "must be a non-empty string"

end FieldFault

namespace ScriptError

def maxSteps : Nat := 64

def maxInputs : Nat := 128

def stepPath (step : Nat) : Text := "steps[" ++ Text.ofNat step ++ "]"

/-- The place in the script that the error is about. -/
def path : ScriptError → Text
  | notObject => "protocol"
  | unsupportedField name => name
  | stepsNotArray => "steps"
  | noSteps => "steps"
  | tooManySteps => "steps"
  | stepNotObject i => stepPath i
  | notOneKind i => stepPath i
  | frameLimit i _ _ => stepPath i ++ ".run"
  | inputLimit i => stepPath i ++ ".input"
  | snapLimit i _ _ => stepPath i ++ ".snap"
  | inputNotObject i => stepPath i ++ ".input"
  | field i f _ => stepPath i ++ f.place
  | custom _ path _ => path

/-- The error without its place. -/
def reason : ScriptError → Text
  | notObject => "must be an object"
  | unsupportedField _ => "unsupported top-level field"
  | stepsNotArray => "must be an array"
  | noSteps => "must contain at least one action"
  | tooManySteps => "cannot exceed " ++ Text.ofNat maxSteps
  | stepNotObject _ => "must be an object"
  | notOneKind _ => "must include exactly one of run, input, or snap"
  | frameLimit _ _ _ => "exceeds frame limit"
  | inputLimit _ => "exceeds input event limit"
  | snapLimit _ _ _ => "exceeds snapshot limit"
  | inputNotObject _ => "must be an object"
  | field _ _ fault => fault.message
  | custom _ _ reason => reason

def message : ScriptError → Text
  | notObject => "Protocol must be a JSON object"
  | unsupportedField name =>
    "Unsupported top-level field \"" ++ name ++ "\". Protocol only supports \"steps\"."
  | frameLimit i limit total =>
    stepPath i ++ " exceeds frame limit " ++ Text.ofInt limit ++ " (total requested: "
      ++ Text.ofInt total ++ ")"
  | inputLimit _ => "input steps cannot exceed " ++ Text.ofNat maxInputs
  | snapLimit i limit count =>
    stepPath i ++ " exceeds snapshot limit " ++ Text.ofInt limit ++ " (requested: "
      ++ Text.ofNat count ++ ")"
  | custom message _ _ => message
  | e => e.path ++ " " ++ e.reason

/-- The integers that the message shows and that can be of any size. -/
def integers : ScriptError → List Int
  | frameLimit _ limit total => [limit, total]
  | snapLimit _ limit _ => [limit]
  | field _ _ (.outside (.int n)) => [n]
  | _ => []

end ScriptError

/-- A script is refused for its own fault, or because a number is too long for the message. -/
inductive ScriptFailure where
  | invalid (e : ScriptError)
  | number (e : NumberError)
deriving DecidableEq

/-- Whether the decimal text of an integer has at most `digitLimit` digits. -/
def isWritable (n : Int) : Bool := n.natAbs < 10 ^ digitLimit

namespace Script

def refuse {α : Type} (e : ScriptError) : Except ScriptFailure α :=
  if e.integers.all isWritable then .error (.invalid e) else .error (.number .tooManyDigits)

/-- The members of an object. -/
def members? : Json → Option (Members Json)
  | .object members => some members
  | _ => none

/-- The totals of the steps read so far. -/
structure Progress where
  frames : Int
  inputs : Nat
  snaps : Nat
deriving DecidableEq

def Progress.start : Progress := ⟨0, 0, 0⟩

def readInteger (step : Nat) (field : StepField) (value : Option Json) :
    Except ScriptFailure Int :=
  match value with
  | some (.number n) =>
    match n.toInt? with
    | some n => .ok n
    | none => refuse (.field step field .notInteger)
  | _ => refuse (.field step field .notInteger)

def readFinite (step : Nat) (field : StepField) (value : Option Json) :
    Except ScriptFailure Number :=
  match value with
  | some (.number n) => if n.isFinite then .ok n else refuse (.field step field .notFinite)
  | _ => refuse (.field step field .notFinite)

def readChoice {α : Type} (step : Nat) (field : StepField) (ofText? : Text → Option α)
    (choices : List Text) (value : Option Json) : Except ScriptFailure α :=
  match value with
  | some (.text t) =>
    match ofText? t with
    | some choice => .ok choice
    | none => refuse (.field step field (.notOneOf choices))
  | _ => refuse (.field step field (.notOneOf choices))

/-- A member that is missing or null takes the default. -/
def orDefault (value : Option Json) (standard : Text) : Option Json :=
  match value with
  | none => some (.text standard)
  | some .null => some (.text standard)
  | some value => some value

/-- Pointer ids are signed integers of 64 bits. -/
def isInt64 (n : Int) : Bool := -2 ^ 63 ≤ n && n < 2 ^ 63

def checkBounds (step : Nat) (field : StepField) (high value : Number) :
    Except ScriptFailure Unit :=
  if value.lt (.int 0) || high.lt value then refuse (.field step field (.outside high)) else .ok ()

/-- The largest coordinates of a space. -/
def bounds (viewport : Viewport) : Space → Number × Number
  | .norm01 => (.int 1, .int 1)
  | .pixels => (viewport.width, viewport.height)

def readPointer (viewport : Viewport) (step : Nat) (value : Json) :
    Except ScriptFailure PointerStep :=
  match members? value with
  | none => refuse (.inputNotObject step)
  | some members => do
    let action ← readChoice step .action PointerAction.ofText?
      (PointerAction.all.map PointerAction.text)
      (members.get? "action")
    let pointer ← readInteger step .pointerId (members.get? "pointerId")
    if !isInt64 pointer then refuse (.field step .pointerId .notInt64)
    let x ← readFinite step .x (members.get? "x")
    let y ← readFinite step .y (members.get? "y")
    let space ← readChoice step .space Space.ofText? (Space.all.map Space.text)
      (orDefault (members.get? "space") Space.norm01.text)
    let emit ← readChoice step .emit Emit.ofText? (Emit.all.map Emit.text)
      (orDefault (members.get? "emit") Emit.both.text)
    checkBounds step .x (bounds viewport space).1 x
    checkBounds step .y (bounds viewport space).2 y
    pure ⟨action, pointer, x, y, space, emit⟩

def readRun (limits : Limits) (step : Nat) (progress : Progress) (value : Json) :
    Except ScriptFailure (Step × Progress) := do
  let frames ← readInteger step .run (some value)
  if frames ≤ 0 then refuse (.field step .run .notPositive)
  let total := progress.frames + frames
  if limits.frames < total then refuse (.frameLimit step limits.frames total)
  pure (.run frames, { progress with frames := total })

def readInput (viewport : Viewport) (step : Nat) (progress : Progress) (value : Json) :
    Except ScriptFailure (Step × Progress) := do
  let count := progress.inputs + 1
  if ScriptError.maxInputs < count then refuse (.inputLimit step)
  let pointer ← readPointer viewport step value
  pure (.input pointer, { progress with inputs := count })

/-- A label without the white space around it. -/
def readLabel (step : Nat) (value : Json) : Except ScriptFailure Text :=
  match value with
  | .text t => if t.trim.isEmpty then refuse (.field step .snap .blank) else .ok t.trim
  | _ => refuse (.field step .snap .notText)

def readSnap (limits : Limits) (step : Nat) (progress : Progress) (value : Json) :
    Except ScriptFailure (Step × Progress) := do
  let label ← readLabel step value
  let count := progress.snaps + 1
  if limits.snaps < count then refuse (.snapLimit step limits.snaps count)
  pure (.snap label, { progress with snaps := count })

/-- Reads one step; keys beside the three kinds are free. -/
def readStep (viewport : Viewport) (limits : Limits) (step : Nat) (progress : Progress)
    (value : Json) : Except ScriptFailure (Step × Progress) :=
  match members? value with
  | none => refuse (.stepNotObject step)
  | some members =>
    match members.get? "run", members.get? "input", members.get? "snap" with
    | some run, none, none => readRun limits step progress run
    | none, some input, none => readInput viewport step progress input
    | none, none, some snap => readSnap limits step progress snap
    | _, _, _ => refuse (.notOneKind step)

def readSteps (viewport : Viewport) (limits : Limits) (step : Nat) (progress : Progress) :
    List Json → Except ScriptFailure (List Step × Progress)
  | [] => .ok ([], progress)
  | value :: rest => do
    let (first, progress) ← readStep viewport limits step progress value
    let (steps, progress) ← readSteps viewport limits (step + 1) progress rest
    pure (first :: steps, progress)

/-- Reads a script; it is an object whose only member is the array of its steps. -/
def read (viewport : Viewport) (limits : Limits) (value : Json) : Except ScriptFailure Script :=
  match members? value with
  | none => refuse .notObject
  | some members =>
    match members.find? fun m => m.1 != ("steps" : Text) with
    | some m => refuse (.unsupportedField m.1)
    | none =>
      match members.get? "steps" with
      | some (.array values) =>
        if values.isEmpty then refuse .noSteps
        else if ScriptError.maxSteps < values.length then refuse .tooManySteps
        else
          match readSteps viewport limits 0 .start values with
          | .ok (steps, _) => .ok ⟨steps⟩
          | .error e => .error e
      | _ => refuse .stepsNotArray

end Script

end Replay
