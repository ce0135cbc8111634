import Replay.Script

namespace Replay

structure Position where
  x : Number
  y : Number
deriving DecidableEq

/-- The client position of a point: fractions are scaled by the viewport, pixels are kept. -/
def clientPosition (viewport : Viewport) (space : Space) (x y : Number) :
    Except NumberError Position :=
  match space with
  | .pixels => .ok ⟨x, y⟩
  | .norm01 => do
    let x ← x.mul viewport.width
    let y ← y.mul viewport.height
    pure ⟨x, y⟩

/-- One event stands for all devices that its source names; the host fans it out. -/
structure Event where
  action : Text
  pointer : Int
  position : Position
  source : Text
deriving DecidableEq

namespace Event

def payload (e : Event) : Json :=
  .object [("action", .text e.action), ("pointerId", .int e.pointer),
    ("clientX", .number e.position.x), ("clientY", .number e.position.y),
    ("source", .text e.source)]

/-- Whether all numbers of the event have a text. -/
def isShort (e : Event) : Bool :=
  (Number.int e.pointer).isShort && e.position.x.isShort && e.position.y.isShort

def ofStep (viewport : Viewport) (step : PointerStep) : Except NumberError Event := do
  let position ← clientPosition viewport step.space step.x step.y
  pure ⟨step.action.text, step.pointer, position, step.emit.text⟩

end Event

end Replay
