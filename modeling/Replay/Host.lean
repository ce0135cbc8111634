import Replay.Driver
import Replay.Settings

namespace Replay

structure Host (σ : Type) where
  /-- Prepares the host; a failure here ends the visit. -/
  enter : Settings → FileSystem → Action σ Unit
  driver : Driver σ
  /-- Ends a visit that went well, or else failed so; a failure at the end goes before that one. -/
  leave : Option Failure → Action σ Unit

namespace Host

variable {σ τ α : Type}

/-- The outcome of leaving after the outcome of a visit. -/
def conclude (onHost : Action σ Unit → Action τ Unit) (host : Host σ) (r : Except Failure α) :
    Action τ α :=
  match r with
  | .ok x => do
    onHost (host.leave none)
    pure x
  | .error e => do
    onHost (host.leave (some e))
    Action.fail e

/-- Enters the host, does something there, and leaves it. -/
def visit (onHost : Action σ Unit → Action τ Unit) (host : Host σ) (settings : Settings)
    (files : FileSystem) (body : Action τ α) : Action τ α := do
  onHost (host.enter settings files)
  let r ← Action.attempt body
  conclude onHost host r

end Host

/-- A host in memory; it may refuse to open, or fail when it is closed. -/
structure RehearsalHost where
  plan : Rehearsal
  refusal : Option Failure
  closing : Option Failure

namespace RehearsalHost

def note (call : HostCall) : Action Stage Unit :=
  Action.change fun stage => { stage with calls := stage.calls ++ [call] }

/-- A visit that failed is not closed. -/
def host (h : RehearsalHost) : Host Stage where
  enter _ _ :=
    match h.refusal with
    | some e => Action.fail e
    | none => note .opened
  driver := h.plan.driver
  leave failure :=
    match failure with
    | some e => Action.fail e
    | none => do
      note .closed
      match h.closing with
      | some e => Action.fail e
      | none => pure ()

end RehearsalHost

end Replay
