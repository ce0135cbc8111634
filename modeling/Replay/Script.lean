import Replay.Json

namespace Replay

inductive PointerAction where
  | down
  | move
  | up
  | cancel
deriving DecidableEq

namespace PointerAction

def all : List PointerAction := [down, move, up, cancel]

def text : PointerAction → Text
  | down => "down"
  | move => "move"
  | up => "up"
  | cancel => "cancel"

def ofText? (t : Text) : Option PointerAction := all.find? fun a => a.text = t

end PointerAction

/-- The space of a position: fractions of the viewport, or its pixels. -/
inductive Space where
  | norm01
  | pixels
deriving DecidableEq

namespace Space

def all : List Space := [norm01, pixels]

def text : Space → Text
  | norm01 => "norm01"
  | pixels => "pixels"

def ofText? (t : Text) : Option Space := all.find? fun s => s.text = t

end Space

/-- The devices whose events a pointer step gives rise to. -/
inductive Emit where
  | touch
  | mouse
  | both
deriving DecidableEq

namespace Emit

def all : List Emit := [touch, mouse, both]

def text : Emit → Text
  | touch => "touch"
  | mouse => "mouse"
  | both => "both"

def ofText? (t : Text) : Option Emit := all.find? fun e => e.text = t

end Emit

structure Viewport where
  width : Number
  height : Number
  dpr : Number
deriving DecidableEq

/-- A portrait screen with one device pixel for each pixel. -/
def Viewport.standard : Viewport := ⟨.int 360, .int 640, .int 1⟩

/-- The most frames and the most snapshots of one script. -/
structure Limits where
  frames : Int
  snaps : Int
deriving DecidableEq

def Limits.standard : Limits := ⟨120, 1⟩

structure PointerStep where
  action : PointerAction
  pointer : Int
  x : Number
  y : Number
  space : Space
  emit : Emit
deriving DecidableEq

inductive Step where
  | run (frames : Int)
  | input (step : PointerStep)
  | snap (label : Text)
deriving DecidableEq

structure Script where
  steps : List Step
deriving DecidableEq

/-- How many frames, pointer steps and snapshots a script asks for. -/
structure Totals where
  frames : Int
  inputs : Nat
  snaps : Nat
deriving DecidableEq

def Totals.payload (t : Totals) : Json :=
  .object [("frames", .int t.frames), ("inputs", .ofNat t.inputs), ("snaps", .ofNat t.snaps)]

namespace PointerStep

def payload (step : PointerStep) : Json :=
  .object [("action", .text step.action.text), ("pointerId", .int step.pointer),
    ("x", .number step.x), ("y", .number step.y), ("space", .text step.space.text),
    ("emit", .text step.emit.text)]

end PointerStep

namespace Step

def payload : Step → Json
  | run frames => .object [("run", .int frames)]
  | input step => .object [("input", step.payload)]
  | snap label => .object [("snap", .text label)]

def frames : Step → Int
  | run n => n
  | _ => 0

def isInput : Step → Bool
  | input _ => true
  | _ => false

def isSnap : Step → Bool
  | snap _ => true
  | _ => false

end Step

namespace Script

/-- The number of steps. -/
def length (s : Script) : Nat := s.steps.length

def payload (s : Script) : Json := .object [("steps", .array (s.steps.map Step.payload))]

def totals (s : Script) : Totals :=
  ⟨s.steps.foldr (fun step frames => step.frames + frames) 0, s.steps.countP Step.isInput,
    s.steps.countP Step.isSnap⟩

/-- A tap near the lower middle, some frames before and after, and one snapshot. -/
def smoke : Script :=
  let tap (action : PointerAction) : Step :=
    .input ⟨action, 1, .real (.ofDecimal false 52 (-2)), .real (.ofDecimal false 63 (-2)),
      .norm01, .both⟩
  ⟨[.run 5, tap .down, .run 15, tap .up, .run 80, .snap "smoke"]⟩

/-- The script behind a game's tile image. -/
def tile : Script := ⟨[.run 120, .snap "tile"]⟩

end Script

end Replay
