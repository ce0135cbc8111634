import Replay.Proofs.RunCalls
import Replay.Proofs.SessionInvariant

namespace Replay

variable {σ τ α β : Type}

namespace Action

/-- The action raises a number of its state by no more than so much, also if it fails. -/
def Raises (f : σ → Nat) (n : Nat) (a : Action σ α) : Prop := ∀ s, f (a s).2 ≤ f s + n

namespace Raises

variable {f : σ → Nat} {n k : Nat}

theorem of_eq {a : Action σ α} (h : ∀ s, f (a s).2 = f s) : Raises f n a := fun s =>
  (Nat.le_of_eq (h s)).trans (Nat.le_add_right _ _)

theorem pure (x : α) : Raises f n (Pure.pure x : Action σ α) := of_eq fun _ => rfl

theorem fail (e : Failure) : Raises f n (Action.fail e : Action σ α) := of_eq fun _ => rfl

theorem mono {a : Action σ α} (h : Raises f n a) (hle : n ≤ k) : Raises f k a := fun s =>
  (h s).trans (Nat.add_le_add_left hle _)

theorem bind {a : Action σ α} {g : α → Action σ β} (ha : Raises f n a)
    (hg : ∀ x, Raises f k (g x)) : Raises f (n + k) (a >>= g) := by
  intro s
  have hs := ha s
  rw [Action.bind_apply]
  cases hrun : a s with
  | mk r t =>
    rw [hrun] at hs
    cases r with
    | ok x =>
      have ht := hg x t
      dsimp only at hs ⊢
      omega
    | error e =>
      dsimp only at hs ⊢
      omega

/-- What leaves the number alone may follow. -/
theorem before {a : Action σ α} {g : α → Action σ β} (ha : Raises f n a)
    (hg : ∀ x, Raises f 0 (g x)) : Raises f n (a >>= g) :=
  ha.bind hg

/-- What leaves the number alone may go ahead. -/
theorem after {a : Action σ α} {g : α → Action σ β} (ha : ∀ s, f (a s).2 = f s)
    (hg : ∀ x, Raises f n (g x)) : Raises f n (a >>= g) := by
  have hall : Raises f (0 + n) (a >>= g) := (of_eq ha).bind hg
  rwa [Nat.zero_add] at hall

theorem attempt {a : Action σ α} (h : Raises f n a) : Raises f n (Action.attempt a) := h

end Raises

end Action

namespace Driver

/-- Every call of the driver raises a number of its host by no more than so much. -/
structure Raises (f : σ → Nat) (n : Nat) (driver : Driver σ) : Prop where
  runFrames : ∀ count, Action.Raises f n (driver.runFrames count)
  applyInput : ∀ event, Action.Raises f n (driver.applyInput event)
  captureSnapshot : Action.Raises f n driver.captureSnapshot
  readFrameCount : Action.Raises f n driver.readFrameCount

variable {f : σ → Nat} {n : Nat} {driver : Driver σ} {timing : Timing} {viewport : Viewport}
  {step : Nat}

theorem performStep_raises (h : driver.Raises f n) (s : Step) :
    Action.Raises f n (driver.performStep viewport s) := by
  cases s with
  | run frames => exact (h.runFrames _).before fun _ => .of_eq fun _ => rfl
  | input s =>
    rw [performStep]
    split
    next => exact .fail _
    next => exact (h.applyInput _).before fun _ => .of_eq fun _ => rfl
  | snap label => exact h.captureSnapshot.before fun _ => .of_eq fun _ => rfl

theorem onHost_raises {a : Action σ α} (h : Action.Raises f n a) :
    Action.Raises (fun t : Timed σ => f t.host) n (Timed.onHost a) := fun t => h t.host

theorem performSteps_raises (h : driver.Raises f n) (steps : List Step) :
    Action.Raises (fun t : Timed σ => f t.host) (n * steps.length)
      (driver.performSteps timing viewport step steps) := by
  induction steps generalizing step with
  | nil => exact .after (fun _ => rfl) fun _ => .pure _
  | cons first rest ih =>
    rw [List.length_cons, Nat.mul_succ, Nat.add_comm]
    refine .after (fun _ => rfl) fun _ => ?_
    refine (onHost_raises (performStep_raises h first)).bind fun _ => ?_
    exact ih.before fun _ => .of_eq fun _ => rfl

/-- A replay makes a call for each step and one more. -/
theorem execute_raises (h : driver.Raises f n) (clock : Nat → Number) (budget : Budget)
    (viewport : Viewport) (script : Script) :
    Action.Raises f (n * (script.length + 1)) (driver.execute clock budget viewport script) := by
  have hbegin (t : Timed σ) : f (Timing.begin budget t).2.host = f t.host := by
    rw [Timing.begin, Action.bind_apply, Action.ofExcept]
    cases budget.seconds.mul (.int 1000) <;> rfl
  have hreplay : Action.Raises (fun t : Timed σ => f t.host) (n * script.length + n)
      (driver.replay budget viewport script) := by
    refine .after hbegin fun timing => ?_
    refine (performSteps_raises h script.steps).bind fun captures => ?_
    exact (onHost_raises h.readFrameCount).before fun _ => .of_eq fun _ => rfl
  exact fun s => hreplay ⟨s, .ofReadings clock⟩

end Driver

namespace EventLog

variable {f : τ → Nat} {onHost : ∀ {α : Type}, Action σ α → Action τ α}
  {report : LogEntry → Action τ Unit}

theorem guardedBy_raises
    (hhost : ∀ {α : Type} (call : Action σ α) (t : τ), f (onHost call t).2 = f t)
    (hreport : ∀ e, Action.Raises f 1 (report e)) (kind : CallKind) (call : Action σ α) :
    Action.Raises f 1 (guardedBy onHost report kind call) := by
  refine .after (hhost call) fun r => ?_
  split
  next => exact .pure _
  next => exact (hreport _).before fun _ => .of_eq fun _ => rfl
  next => exact .fail _

/-- Of a call no more than two events are reported. -/
theorem loggedBy_raises
    (hhost : ∀ {α : Type} (call : Action σ α) (t : τ), f (onHost call t).2 = f t)
    (hreport : ∀ e, Action.Raises f 1 (report e)) (driver : Driver σ) :
    (loggedBy onHost report driver).Raises f 2 where
  runFrames _ := (hreport _).bind fun _ => guardedBy_raises hhost hreport _ _
  applyInput _ := (hreport _).bind fun _ => guardedBy_raises hhost hreport _ _
  captureSnapshot := (guardedBy_raises hhost hreport _ _).bind fun _ =>
    (hreport _).before fun _ => .of_eq fun _ => rfl
  readFrameCount := (guardedBy_raises hhost hreport _ _).bind fun _ =>
    (hreport _).before fun _ => .of_eq fun _ => rfl

/-- The largest of the counts. -/
def most (counts : Members Nat) : Nat := (counts.map Prod.snd).foldr max 0

theorem most_cons (c : Text × Nat) (counts : Members Nat) :
    most (c :: counts) = max c.2 (most counts) := rfl

theorem le_most {counts : Members Nat} {c : Text × Nat} (h : c ∈ counts) : c.2 ≤ most counts := by
  induction counts with
  | nil => cases h
  | cons d rest ih =>
    rw [most_cons]
    rcases List.mem_cons.mp h with rfl | h
    · exact Nat.le_max_left _ _
    · exact (ih h).trans (Nat.le_max_right _ _)

theorem most_put_le (counts : Members Nat) (type : Text) (n : Nat) :
    most (counts.put type n) ≤ max n (most counts) := by
  induction counts with
  | nil => exact Nat.le_refl _
  | cons c rest ih =>
    rw [Members.put]
    split
    next => rw [most_cons, most_cons]; omega
    next => rw [most_cons, most_cons]; omega

theorem mem_of_get? {counts : Members Nat} {type : Text} {n : Nat}
    (h : counts.get? type = some n) : (type, n) ∈ counts := by
  obtain ⟨c, hfind, rfl⟩ := Option.map_eq_some_iff.mp h
  obtain rfl : c.1 = type := by simpa using List.find?_some hfind
  exact List.mem_of_find?_eq_some hfind

theorem most_tally_le (counts : Members Nat) (type : Text) :
    most (tally counts type) ≤ most counts + 1 := by
  have hcount : (counts.get? type).getD 0 ≤ most counts := by
    cases hget : counts.get? type with
    | none => exact Nat.zero_le _
    | some n => exact le_most (mem_of_get? hget)
  have hput := most_put_le counts type ((counts.get? type).getD 0 + 1)
  rw [tally]
  omega

/-- The largest count of a session. -/
def peak (s : Session σ) : Nat := most s.counts

theorem record_raises (path : Path) (type message : Text) :
    Action.Raises (peak (σ := σ)) 1 (record path type message) := by
  refine .after (fun _ => rfl) fun _ => .after (fun _ => rfl) fun _ => ?_
  exact fun s => most_tally_le s.counts type

theorem logged_raises (path : Path) (driver : Driver σ) :
    (logged path driver).Raises peak 2 := by
  rw [logged_eq]
  refine loggedBy_raises (fun _ _ => rfl) (fun e => ?_) driver
  exact .after (fun _ => rfl) fun _ => record_raises path _ _

end EventLog

open EventLog

theorem Host.visit_raises (host : Host σ) (settings : Settings) (files : FileSystem) {n : Nat}
    {body : Action (Session σ) α} (h : Action.Raises peak n body) :
    Action.Raises peak n (host.visit Session.onHost settings files body) := by
  refine .after (fun _ => rfl) fun _ => h.attempt.before fun r => ?_
  cases r with
  | ok x => exact .after (fun _ => rfl) fun _ => .pure _
  | error e => exact .after (fun _ => rfl) fun _ => .fail _

namespace Run

variable (host : Host σ) (plan : RunPlan) (input : Json)

theorem replay_raises (script : Script) (directory : Path) :
    Action.Raises peak (1 + 2 * (script.length + 1)) (replay host plan script directory) := by
  refine .after (fun _ => rfl) fun _ => (record_raises _ _ _).bind fun _ => ?_
  refine .after (fun _ => rfl) fun files => ?_
  have hexecute := Driver.execute_raises (logged_raises (directory.child logName) host.driver)
    plan.clock Timing.standardBudget .standard script
  refine (host.visit_raises plan.settings files hexecute).before fun execution => ?_
  exact .after (fun _ => rfl) fun _ => .pure _

/-- A run counts no more than 131 events of a type. -/
theorem progress_raises : Action.Raises peak 131 (progress host plan input) := by
  rw [progress]
  split
  next => exact .pure _
  next script hread =>
    have hlength := (Script.isBounded_of_read hread).length
    refine .after (fun _ => rfl) fun made => ?_
    cases made with
    | error e => exact .pure _
    | ok directory =>
      have hreplay := replay_raises host plan script directory
      exact (hreplay.mono (by omega)).attempt.before fun _ => .of_eq fun _ => rfl

end Run

end Replay
