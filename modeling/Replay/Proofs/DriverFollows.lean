import Replay.Host
import Replay.Proofs.ReportedCalls

namespace Replay

variable {σ τ α : Type} {part : τ → σ}

namespace Timed

/-- The part of a timed state that belongs to the part of its host. -/
def mapHost (part : τ → σ) (t : Timed τ) : Timed σ := ⟨part t.host, t.clock⟩

theorem onHost_follows {b : Action τ α} {a : Action σ α} (h : Action.Follows part b a) :
    Action.Follows (mapHost part) (onHost b) (onHost a) := by
  intro t
  obtain ⟨hr, hs⟩ := h t.host
  exact ⟨hr, congrArg (fun host => (⟨host, t.clock⟩ : Timed σ)) hs⟩

end Timed

namespace Timing

theorem begin_follows (budget : Budget) :
    Action.Follows (Timed.mapHost part) (begin budget) (begin budget) :=
  (Action.Follows.ofExcept _).bind fun _ => Action.Follows.bind (fun _ => ⟨rfl, rfl⟩) fun _ =>
    .pure _

theorem check_follows (timing : Timing) (k : Nat) :
    Action.Follows (Timed.mapHost part) (timing.check k) (timing.check k) := fun _ => ⟨rfl, rfl⟩

end Timing

namespace Driver

/-- Each call of the one driver does, in a part of its states, what that of the other does. -/
structure Follows (part : τ → σ) (larger : Driver τ) (driver : Driver σ) : Prop where
  runFrames : ∀ count, Action.Follows part (larger.runFrames count) (driver.runFrames count)
  applyInput : ∀ event, Action.Follows part (larger.applyInput event) (driver.applyInput event)
  captureSnapshot : Action.Follows part larger.captureSnapshot driver.captureSnapshot
  readFrameCount : Action.Follows part larger.readFrameCount driver.readFrameCount

theorem Follows.refl (driver : Driver σ) : driver.Follows id driver :=
  ⟨fun _ _ => ⟨rfl, rfl⟩, fun _ _ => ⟨rfl, rfl⟩, fun _ => ⟨rfl, rfl⟩, fun _ => ⟨rfl, rfl⟩⟩

variable {larger : Driver τ} {driver : Driver σ} {timing : Timing} {viewport : Viewport} {i : Nat}

theorem performStep_follows (h : larger.Follows part driver) (step : Step) :
    Action.Follows part (larger.performStep viewport step) (driver.performStep viewport step) := by
  cases step with
  | run frames => exact (h.runFrames _).bind fun _ => .pure _
  | input step =>
    simp only [performStep]
    split
    next e he => exact .fail _
    next event he => exact (h.applyInput _).bind fun _ => .pure _
  | snap label => exact h.captureSnapshot.bind fun _ => .pure _

theorem performSteps_follows (h : larger.Follows part driver) (steps : List Step) :
    Action.Follows (Timed.mapHost part) (larger.performSteps timing viewport i steps)
      (driver.performSteps timing viewport i steps) := by
  induction steps generalizing i with
  | nil => exact (Timing.check_follows _ i).bind fun _ => .pure _
  | cons first rest ih =>
    refine (Timing.check_follows _ i).bind fun _ => ?_
    refine (Timed.onHost_follows (performStep_follows h first)).bind fun shot => ?_
    exact ih.bind fun shots => .pure _

theorem replay_follows (h : larger.Follows part driver) (budget : Budget) (viewport : Viewport)
    (script : Script) :
    Action.Follows (Timed.mapHost part) (larger.replay budget viewport script)
      (driver.replay budget viewport script) := by
  refine (Timing.begin_follows _).bind fun timing => ?_
  refine (performSteps_follows h _).bind fun captures => ?_
  exact (Timed.onHost_follows h.readFrameCount).bind fun _ => .pure _

theorem execute_follows (h : larger.Follows part driver) (clock : Nat → Number) (budget : Budget)
    (viewport : Viewport) (script : Script) :
    Action.Follows part (larger.execute clock budget viewport script)
      (driver.execute clock budget viewport script) := by
  intro t
  obtain ⟨hr, hs⟩ := replay_follows h budget viewport script ⟨t, .ofReadings clock⟩
  exact ⟨hr, congrArg Timed.host hs⟩

end Driver

namespace Session

/-- The session of the part of a host. -/
def mapHost (part : τ → σ) (s : Session τ) : Session σ := ⟨part s.host, s.machine, s.counts⟩

theorem onHost_follows {b : Action τ α} {a : Action σ α} (h : Action.Follows part b a) :
    Action.Follows (mapHost part) (onHost b) (onHost a) := by
  intro s
  obtain ⟨hr, hs⟩ := h s.host
  exact ⟨hr, congrArg (fun host => (⟨host, s.machine, s.counts⟩ : Session σ)) hs⟩

theorem onMachine_follows (a : Action Machine α) :
    Action.Follows (mapHost part) (onMachine a) (onMachine a) := fun _ => ⟨rfl, rfl⟩

end Session

namespace EventLog

theorem record_follows (path : Path) (type message : Text) :
    Action.Follows (Session.mapHost part) (record path type message)
      (record path type message) := by
  refine (Session.onMachine_follows _).bind fun moment => ?_
  exact (Session.onMachine_follows _).bind fun _ => fun _ => ⟨rfl, rfl⟩

theorem add_follows (path : Path) (e : LogEntry) :
    Action.Follows (Session.mapHost part) (add path e) (add path e) :=
  (Action.Follows.ofExcept _).bind fun _ => record_follows _ _ _

variable {ν κ : Type}

theorem guardedBy_follows {part : κ → ν} {onHost : Action σ α → Action ν α}
    {onHost' : Action τ α → Action κ α} {report : LogEntry → Action ν Unit}
    {report' : LogEntry → Action κ Unit} {call : Action σ α} {call' : Action τ α}
    (hhost : Action.Follows part (onHost' call') (onHost call))
    (hreport : ∀ e, Action.Follows part (report' e) (report e)) (kind : CallKind) :
    Action.Follows part (guardedBy onHost' report' kind call')
      (guardedBy onHost report kind call) := by
  refine hhost.attempt.bind fun r => ?_
  split
  · exact .pure _
  · exact (hreport _).bind fun _ => .fail _
  · exact .fail _

/-- Calls that follow others still do so when both are reported alike. -/
theorem loggedBy_follows {inner : τ → σ} {part : κ → ν}
    {onHost : ∀ {α : Type}, Action σ α → Action ν α}
    {onHost' : ∀ {α : Type}, Action τ α → Action κ α} {report : LogEntry → Action ν Unit}
    {report' : LogEntry → Action κ Unit} {larger : Driver τ} {driver : Driver σ}
    (h : larger.Follows inner driver)
    (hhost : ∀ {α : Type} {b : Action τ α} {a : Action σ α},
      Action.Follows inner b a → Action.Follows part (onHost' b) (onHost a))
    (hreport : ∀ e, Action.Follows part (report' e) (report e)) :
    (loggedBy onHost' report' larger).Follows part (loggedBy onHost report driver) where
  runFrames _ := (hreport _).bind fun _ => guardedBy_follows (hhost (h.runFrames _)) hreport _
  applyInput _ := (hreport _).bind fun _ => guardedBy_follows (hhost (h.applyInput _)) hreport _
  captureSnapshot := (guardedBy_follows (hhost h.captureSnapshot) hreport _).bind fun _ =>
    (hreport _).bind fun _ => .pure _
  readFrameCount := (guardedBy_follows (hhost h.readFrameCount) hreport _).bind fun _ =>
    (hreport _).bind fun _ => .pure _

theorem logged_follows {larger : Driver τ} {driver : Driver σ} (path : Path)
    (h : larger.Follows part driver) :
    (logged path larger).Follows (Session.mapHost part) (logged path driver) := by
  rw [logged_eq, logged_eq]
  exact loggedBy_follows h Session.onHost_follows (add_follows path)

end EventLog

namespace Host

/-- One host does, in a part of its states, what another one does. -/
structure Follows (part : τ → σ) (larger : Host τ) (host : Host σ) : Prop where
  enter : ∀ settings files,
    Action.Follows part (larger.enter settings files) (host.enter settings files)
  driver : larger.driver.Follows part host.driver
  leave : ∀ failure, Action.Follows part (larger.leave failure) (host.leave failure)

theorem visit_follows {larger : Host τ} {host : Host σ} (h : larger.Follows part host)
    (settings : Settings) (files : FileSystem) {b : Action (Session τ) α}
    {a : Action (Session σ) α} (hbody : Action.Follows (Session.mapHost part) b a) :
    Action.Follows (Session.mapHost part) (larger.visit Session.onHost settings files b)
      (host.visit Session.onHost settings files a) := by
  refine (Session.onHost_follows (h.enter _ _)).bind fun _ => hbody.attempt.bind fun r => ?_
  cases r with
  | ok x => exact (Session.onHost_follows (h.leave _)).bind fun _ => .pure _
  | error e => exact (Session.onHost_follows (h.leave _)).bind fun _ => .fail _

end Host

end Replay
