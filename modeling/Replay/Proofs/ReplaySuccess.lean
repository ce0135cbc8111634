import Replay.Proofs.ReplayTrace
import Replay.Proofs.SessionInvariant

namespace Replay

open Text

variable {σ τ α β : Type} {inv : τ → Prop} {part : τ → σ}

namespace Action

/-- The action leaves a part of its states alone, keeps an invariant of them, and succeeds. -/
def Succeeds (inv : τ → Prop) (part : τ → σ) (b : Action τ α) : Prop :=
  ∀ t, inv t → ∃ x t', b t = (.ok x, t') ∧ part t' = part t ∧ inv t'

/-- If an action on the part succeeds with a good result, so does this one, with the same result
and the same effect on the part; it keeps an invariant of its states. -/
def Carries (inv : τ → Prop) (part : τ → σ) (good : α → Prop) (b : Action τ α) (a : Action σ α) :
    Prop :=
  ∀ t x s, inv t → a (part t) = (.ok x, s) → good x →
    ∃ t', b t = (.ok x, t') ∧ part t' = s ∧ inv t'

namespace Succeeds

theorem bind {b : Action τ α} {g : α → Action τ β} (h : Succeeds inv part b)
    (hg : ∀ x, Succeeds inv part (g x)) : Succeeds inv part (b >>= g) := by
  intro t ht
  obtain ⟨x, u, hb, hpart, hu⟩ := h t ht
  obtain ⟨y, v, hv, hpart', hinv⟩ := hg x u hu
  exact ⟨y, v, by rw [Action.bind_ok g hb, hv], hpart'.trans hpart, hinv⟩

end Succeeds

namespace Carries

variable {p : α → Prop} {q : β → Prop} {a : Action σ α} {b : Action τ α}

theorem pure (x : α) : Carries inv part p (Pure.pure x) (Pure.pure x) := by
  intro t y s ht hy _
  cases hy
  exact ⟨t, rfl, rfl, ht⟩

theorem bind {f : α → Action σ β} {g : α → Action τ β} (h : Carries inv part p b a)
    (hf : ∀ x, Carries inv part q (g x) (f x)) (hgood : ∀ x, Yields (f x) fun y => q y → p x) :
    Carries inv part q (b >>= g) (a >>= f) := by
  intro t y s ht hy hq
  rw [Action.bind_apply] at hy
  cases ha : a (part t) with
  | mk r u =>
    rw [ha] at hy
    cases r with
    | error e => cases hy
    | ok x =>
      obtain ⟨t', hb, rfl, hinv⟩ := h t x u ht ha (hgood x hy hq)
      obtain ⟨v, hv, hpart, hinv'⟩ := hf x t' y s hinv hy hq
      exact ⟨v, by rw [Action.bind_ok g hb, hv], hpart, hinv'⟩

theorem bind_of_any {f : α → Action σ β} {g : α → Action τ β}
    (h : Carries inv part (fun _ => True) b a) (hf : ∀ x, Carries inv part q (g x) (f x)) :
    Carries inv part q (b >>= g) (a >>= f) := h.bind hf fun _ _ _ _ _ _ => trivial

/-- Something that succeeds may come first. -/
theorem after {c : Action τ β} (h : Succeeds inv part c)
    {g : β → Action τ α} (hg : ∀ x, Carries inv part p (g x) a) :
    Carries inv part p (c >>= g) a := by
  intro t x s ht ha hx
  obtain ⟨y, u, hc, hpart, hu⟩ := h t ht
  obtain ⟨v, hv, hpart', hinv⟩ := hg y u x s hu (hpart ▸ ha) hx
  exact ⟨v, by rw [Action.bind_ok g hc, hv], hpart', hinv⟩

/-- After a good result something that succeeds may follow. -/
theorem andThen (h : Carries inv part p b a) {c : α → Action τ β}
    (hc : ∀ x, p x → Succeeds inv part (c x)) :
    Carries inv part p (b >>= fun x => c x >>= fun _ => Pure.pure x) a := by
  intro t x s ht ha hx
  obtain ⟨u, hb, rfl, hu⟩ := h t x s ht ha hx
  obtain ⟨y, v, hy, hpart, hv⟩ := hc x hx u hu
  exact ⟨v, by rw [Action.bind_ok _ hb, Action.bind_ok _ hy]; rfl, hpart, hv⟩

end Carries

end Action

def Step.label? : Step → Option Text
  | snap label => some label
  | _ => none

/-- The labels of the snapshots that a script asks for, in order. -/
def Script.labels (script : Script) : List Text := script.steps.filterMap Step.label?

/-- A value that the log can show. -/
def Json.IsLoggable (value : Json) : Prop := ∃ t, value.shortPlain = .ok t ∧ t.Encodable

/-- The texts of an event have a UTF-8 form. -/
structure Event.IsEncodable (e : Event) : Prop where
  action : e.action.Encodable
  source : e.source.Encodable

theorem Event.isEncodable_of_ofStep {viewport : Viewport} {step : PointerStep} {e : Event}
    (h : ofStep viewport step = .ok e) : e.IsEncodable := by
  obtain ⟨position, -, h⟩ := bind_eq_ok_iff.mp h
  cases h
  constructor
  · cases step.action <;> exact encodable_ofString _
  · cases step.emit <;> exact encodable_ofString _

/-- An entry that can be added to a log. -/
def LogEntry.IsLoggable (e : LogEntry) : Prop := ∃ t, e.message = .ok t ∧ t.Encodable

namespace LogEntry

theorem isLoggable_ofCount {count : Number} (h : count.isShort = true) :
    (ofCount count).IsLoggable := by
  refine ⟨count.text, ?_, Number.encodable_text count⟩
  have hshort : (Json.number count).isShort = true := by
    rw [Json.isShort, h]
  rw [ofCount, Json.shortPlain, if_pos hshort]
  rfl

theorem isLoggable_ofEvent {e : Event} (he : e.IsEncodable) (h : e.isShort = true) :
    (ofEvent e).IsLoggable := by
  refine ⟨pointText e, ?_, ?_⟩
  · rw [ofEvent, if_pos h]
  · simp [pointText, he.action, he.source]

theorem isLoggable_ofSnapshot {snapshot : Snapshot} (h : snapshot.frame.IsLoggable) :
    (ofSnapshot snapshot).IsLoggable := by
  obtain ⟨t, ht, he⟩ := h
  refine ⟨"frame=" ++ t, ?_, encodable_append.mpr ⟨encodable_ofString _, he⟩⟩
  rw [ofSnapshot, ht]
  rfl

end LogEntry

/-- What is logged before the call of a step can be added to a log. -/
def Step.IsLoggable (viewport : Viewport) : Step → Prop
  | run frames => (LogEntry.ofCount (.int frames)).IsLoggable
  | input step => ∀ e, Event.ofStep viewport step = .ok e → (LogEntry.ofEvent e).IsLoggable
  | snap _ => True

/-- Leaving out the clock, what is done to a timed state is done to its host. -/
theorem Timed.onHost_carries {p : α → Prop} {b : Action τ α} {a : Action σ α}
    (h : Action.Carries inv part p b a) :
    Action.Carries (fun t : Timed τ => inv t.host) (Timed.mapHost part) p (Timed.onHost b)
      (Timed.onHost a) := by
  intro t x s ht ha hx
  obtain ⟨hr, rfl⟩ := Prod.mk.inj ha
  obtain ⟨u, hb, hpart, hu⟩ := h t.host x _ ht (Prod.ext hr rfl) hx
  refine ⟨⟨u, t.clock⟩, ?_, by rw [Timed.mapHost, hpart]; rfl, hu⟩
  rw [Timed.onHost, Action.lift, hb]

/-- A check of the clock leaves the host alone. -/
theorem Timing.check_carries (timing : Timing) (k : Nat) :
    Action.Carries (fun t : Timed τ => inv t.host) (Timed.mapHost part) (fun _ => True)
      (timing.check k) (timing.check k) := by
  intro t x s ht ha _
  obtain ⟨hr, rfl⟩ := Prod.mk.inj ha
  exact ⟨_, Prod.ext hr rfl, rfl, ht⟩

namespace Driver

/-- The calls of the one driver carry out those of the other, if they and the answers can be
logged. -/
structure Carries (inv : τ → Prop) (part : τ → σ) (larger : Driver τ) (driver : Driver σ) :
    Prop where
  runFrames : ∀ count, (LogEntry.ofCount count).IsLoggable →
    Action.Carries inv part (fun _ => True) (larger.runFrames count) (driver.runFrames count)
  applyInput : ∀ event, (LogEntry.ofEvent event).IsLoggable →
    Action.Carries inv part (fun _ => True) (larger.applyInput event) (driver.applyInput event)
  captureSnapshot : Action.Carries inv part (fun snapshot => snapshot.frame.IsLoggable)
    larger.captureSnapshot driver.captureSnapshot
  readFrameCount :
    Action.Carries inv part Json.IsLoggable larger.readFrameCount driver.readFrameCount

variable {larger : Driver τ} {driver : Driver σ} {timing : Timing} {viewport : Viewport} {i : Nat}

theorem performStep_carries (h : larger.Carries inv part driver) {step : Step}
    (hstep : step.IsLoggable viewport) :
    Action.Carries inv part (fun shot => ∀ c ∈ shot, c.frame.IsLoggable)
      (larger.performStep viewport step) (driver.performStep viewport step) := by
  cases step with
  | run frames =>
    exact (h.runFrames _ hstep).bind_of_any fun _ => .pure _
  | input step =>
    simp only [performStep]
    split
    next e he =>
      intro t x s _ ha
      cases ha
    next event he =>
      exact (h.applyInput event (hstep event he)).bind_of_any fun _ => .pure _
  | snap label =>
    refine h.captureSnapshot.bind (fun _ => .pure _) fun snapshot => .pure fun hshot => ?_
    exact hshot _ rfl

theorem performSteps_carries (h : larger.Carries inv part driver) {steps : List Step}
    (hsteps : ∀ step ∈ steps, step.IsLoggable viewport) :
    Action.Carries (fun t : Timed τ => inv t.host) (Timed.mapHost part)
      (fun shots => ∀ c ∈ shots, c.frame.IsLoggable)
      (larger.performSteps timing viewport i steps)
      (driver.performSteps timing viewport i steps) := by
  induction steps generalizing i with
  | nil => exact (Timing.check_carries timing i).bind_of_any fun _ => .pure _
  | cons first rest ih =>
    refine (Timing.check_carries timing i).bind_of_any fun _ => ?_
    have hfirst := performStep_carries h (hsteps first List.mem_cons_self)
    have hrest := ih (i := i + 1) fun step hmem => hsteps step (List.mem_cons_of_mem first hmem)
    refine (Timed.onHost_carries hfirst).bind (fun shot => ?_) fun shot => ?_
    · refine hrest.bind (fun shots => .pure _) fun shots => .pure fun hall c hc => ?_
      exact hall c (List.mem_append_right _ hc)
    · refine (Action.Yields.trivial _).bind fun shots _ => .pure fun hall c hc => ?_
      exact hall c (List.mem_append_left _ (Option.mem_toList.mpr hc))

/-- A replay that succeeds on the part of a state succeeds on the whole. -/
theorem execute_carries (h : larger.Carries inv part driver) (clock : Nat → Number)
    (budget : Budget) (viewport : Viewport) {script : Script}
    (hscript : ∀ step ∈ script.steps, step.IsLoggable viewport) :
    Action.Carries inv part (Execution.Has Json.IsLoggable)
      (larger.execute clock budget viewport script)
      (driver.execute clock budget viewport script) := by
  have hbegin : Action.Carries (fun t : Timed τ => inv t.host) (Timed.mapHost part)
      (fun _ => True) (Timing.begin budget) (Timing.begin budget) := by
    intro t x s ht ha _
    have hbegin : Action.Follows (Timed.mapHost part) (Timing.begin budget)
      (Timing.begin budget) := Timing.begin_follows budget
    obtain ⟨hr, hs⟩ := hbegin t
    rw [ha] at hr hs
    exact ⟨_, Prod.ext hr rfl, hs, Timing.begin_preserves (i := inv) budget t ht⟩
  have hreplay : Action.Carries (fun t : Timed τ => inv t.host) (Timed.mapHost part)
      (Execution.Has Json.IsLoggable) (larger.replay budget viewport script)
      (driver.replay budget viewport script) := by
    refine hbegin.bind_of_any fun timing => ?_
    refine (performSteps_carries h hscript).bind (fun captures => ?_) fun captures => ?_
    · exact (Timed.onHost_carries h.readFrameCount).bind (fun count => .pure _)
        fun count => .pure fun hall => hall.1
    · exact (Action.Yields.trivial _).bind fun count _ => .pure fun hall => hall.2
  intro t x s ht ha hx
  obtain ⟨hr, rfl⟩ := Prod.mk.inj ha
  obtain ⟨u, hu, hpart, hinv⟩ := hreplay ⟨t, .ofReadings clock⟩ x _ ht (Prod.ext hr rfl) hx
  refine ⟨u.host, ?_, congrArg Timed.host hpart, hinv⟩
  rw [execute, hu]

theorem performStep_labels (step : Step) :
    Action.Yields (driver.performStep viewport step)
      fun shot => shot.toList.map LabelledSnapshot.label = step.label?.toList := by
  cases step with
  | run frames => exact (Action.Yields.trivial _).bind fun _ _ => .pure rfl
  | input step =>
    rw [performStep]
    split
    next e => exact .fail _
    next event => exact (Action.Yields.trivial _).bind fun _ _ => .pure rfl
  | snap label => exact (Action.Yields.trivial _).bind fun _ _ => .pure rfl

theorem performSteps_labels (steps : List Step) :
    Action.Yields (driver.performSteps timing viewport i steps)
      fun shots => shots.map LabelledSnapshot.label = steps.filterMap Step.label? := by
  induction steps generalizing i with
  | nil => exact (Action.Yields.trivial _).bind fun _ _ => .pure rfl
  | cons first rest ih =>
    refine (Action.Yields.trivial _).bind fun _ _ => ?_
    refine (Timed.onHost_yields (performStep_labels first)).bind fun shot hshot => ?_
    refine ih.bind fun shots hshots => .pure ?_
    rw [List.map_append, hshot, hshots]
    cases hl : first.label? <;> simp [hl]

/-- The snapshots of a replay are under the labels of the script. -/
theorem execute_labels (clock : Nat → Number) (budget : Budget) (script : Script) :
    Action.Yields (driver.execute clock budget viewport script)
      fun execution => execution.captures.map LabelledSnapshot.label = script.labels := by
  have hreplay : Action.Yields (driver.replay budget viewport script)
      fun execution => execution.captures.map LabelledSnapshot.label = script.labels := by
    refine (Action.Yields.trivial _).bind fun timing _ => ?_
    refine (performSteps_labels script.steps).bind fun captures hcaptures => ?_
    exact (Action.Yields.trivial _).bind fun count _ => .pure hcaptures
  intro s execution t h
  obtain ⟨hr, rfl⟩ := Prod.mk.inj h
  exact hreplay (Prod.ext hr rfl)

/-- A script whose calls can all be carried out in time is executed. -/
theorem execute_ok {script : Script} {calls : List HostCall} {clock : Nat → Number}
    {budget : Budget} {most : Number} {s t : σ} (hcalls : script.calls viewport = .ok calls)
    (hm : budget.seconds.mul (.int 1000) = .ok most)
    (hjudge : ∀ k ≤ script.length,
      (⟨clock 0, budget, most⟩ : Timing).judge k (clock (k + 1)) = .ok ())
    (hserve : driver.serve calls s = (.ok (), t)) :
    ∃ execution, driver.execute clock budget viewport script s = (.ok execution, t) := by
  obtain ⟨execution, hrun⟩ := replay_ok hcalls hm hjudge hserve
  obtain ⟨hreplay, -⟩ := replay_of_recorded hrun
  exact ⟨execution, by rw [execute, hreplay]⟩

end Driver

namespace EventLog

variable {i : Session σ → Prop} {path : Path}

/-- Events can be appended to the log in all states with the invariant, and keep it. -/
def IsOpen (i : Session σ → Prop) (path : Path) : Prop :=
  ∀ type message : Text, type.Encodable → message.Encodable →
    Action.Succeeds i Session.host (record path type message)

theorem add_succeeds (h : IsOpen i path) {e : LogEntry} (ht : e.type.Encodable)
    (he : e.IsLoggable) : Action.Succeeds i Session.host (add path e) := by
  obtain ⟨t, hmessage, hencodable⟩ := he
  rw [add, hmessage]
  exact h e.type t ht hencodable

theorem guarded_carries {p : α → Prop} (path : Path) (kind : CallKind) (call : Action σ α)
    (hi : ∀ s (host : σ), i s → i { s with host }) :
    Action.Carries i Session.host p (guarded path kind call) call := by
  intro s x u hs ha _
  refine ⟨{ s with host := u }, ?_, rfl, hi s u hs⟩
  rw [guarded, Action.bind_apply, Action.attempt_apply, Session.onHost, Action.lift, ha]
  rfl

/-- A driver does with its calls logged what it does without. -/
theorem logged_carries (h : IsOpen i path) (hi : ∀ s (host : σ), i s → i { s with host })
    (driver : Driver σ) : (logged path driver).Carries i Session.host driver where
  runFrames _ hc := .after (add_succeeds h (encodable_name .runFrames) hc)
    fun _ => guarded_carries _ _ _ hi
  applyInput _ he := .after (add_succeeds h (encodable_name .applyInput) he)
    fun _ => guarded_carries _ _ _ hi
  captureSnapshot := (guarded_carries _ _ _ hi).andThen fun _ hs =>
    add_succeeds h (encodable_name .captureSnapshot) (LogEntry.isLoggable_ofSnapshot hs)
  readFrameCount := (guarded_carries _ _ _ hi).andThen fun _ hc =>
    add_succeeds h (encodable_name .readFrameCount) hc

end EventLog

end Replay
