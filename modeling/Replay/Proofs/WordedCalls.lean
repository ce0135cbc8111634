import Replay.Proofs.HostCalls

namespace Replay

variable {σ τ α β : Type}

/-- Fails if the message of an entry has no text. -/
def LogEntry.word (e : LogEntry) : Action σ Unit :=
  Action.ofExcept ((e.message.map fun _ => ()).mapError Failure.number)

/-- The driver as far as its calls can be told in a log: it is asked for nothing that has no text,
and an answer that has none is a failure. -/
def Driver.worded (driver : Driver σ) : Driver σ where
  runFrames count := do
    (LogEntry.ofCount count).word
    driver.runFrames count
  applyInput event := do
    (LogEntry.ofEvent event).word
    driver.applyInput event
  captureSnapshot := do
    let snapshot ← driver.captureSnapshot
    (LogEntry.ofSnapshot snapshot).word
    pure snapshot
  readFrameCount := do
    let count ← driver.readFrameCount
    (LogEntry.ofFrameCount count).word
    pure count

namespace LogEntry

/-- The entry has a text, unless an integer in it is too long. -/
def IsPlain (e : LogEntry) : Prop := (∃ t, e.message = .ok t) ∨ e.message = .error .tooManyDigits

theorem isPlain_shortPlain (value : Json) :
    (∃ t, value.shortPlain = .ok t) ∨ value.shortPlain = .error .tooManyDigits := by
  rw [Json.shortPlain]
  split
  · exact .inl ⟨_, rfl⟩
  · exact .inr rfl

theorem isPlain_ofCount (count : Number) : (ofCount count).IsPlain := isPlain_shortPlain _

theorem isPlain_ofFrameCount (count : Json) : (ofFrameCount count).IsPlain := isPlain_shortPlain _

theorem isPlain_ofEvent (e : Event) : (ofEvent e).IsPlain := by
  rw [IsPlain, ofEvent]
  cases e.isShort
  · exact .inr rfl
  · exact .inl ⟨_, rfl⟩

theorem isPlain_ofSnapshot (s : Snapshot) : (ofSnapshot s).IsPlain := by
  rw [IsPlain, ofSnapshot]
  rcases isPlain_shortPlain s.frame with ⟨t, ht⟩ | ht
  · exact .inl ⟨_, by rw [ht]; rfl⟩
  · exact .inr (by rw [ht]; rfl)

variable {e : LogEntry}

theorem word_of_ok {t : Text} (h : e.message = .ok t) (s : σ) : e.word s = (.ok (), s) := by
  rw [word, h]
  rfl

theorem word_of_error {n : NumberError} (h : e.message = .error n) (s : σ) :
    e.word s = (.error (.number n), s) := by
  rw [word, h]
  rfl

/-- A request that was carried out had a text. -/
theorem exists_of_request {a : Action σ α} {s : σ} {x : α}
    (h : ((e.word >>= fun _ => a) s).1 = .ok x) : ∃ t, e.message = .ok t := by
  cases hmessage : e.message with
  | ok t => exact ⟨t, rfl⟩
  | error n =>
    rw [Action.bind_error _ (word_of_error hmessage s)] at h
    cases h

end LogEntry

theorem Driver.Follows.worded {part : τ → σ} {larger : Driver τ} {driver : Driver σ}
    (h : larger.Follows part driver) : larger.worded.Follows part driver.worded where
  runFrames _ := (Action.Follows.ofExcept _).bind fun _ => h.runFrames _
  applyInput _ := (Action.Follows.ofExcept _).bind fun _ => h.applyInput _
  captureSnapshot := h.captureSnapshot.bind fun _ =>
    (Action.Follows.ofExcept _).bind fun _ => .pure _
  readFrameCount := h.readFrameCount.bind fun _ =>
    (Action.Follows.ofExcept _).bind fun _ => .pure _

/-- What a call asks for has a text. -/
def HostCall.IsTold : HostCall → Prop
  | runFrames count => ∃ t, (LogEntry.ofCount count).message = .ok t
  | applyInput event => ∃ t, (LogEntry.ofEvent event).message = .ok t
  | _ => True

namespace Driver

variable {driver : Driver σ} {call : HostCall} {calls : List HostCall} {s t : σ} {i : Nat}

theorem isTold_of_obey (h : (driver.worded.obey call s).1 = .ok ()) : call.IsTold := by
  cases call with
  | runFrames count => exact LogEntry.exists_of_request h
  | applyInput event => exact LogEntry.exists_of_request h
  | _ => trivial

theorem worded_runFrames (driver : Driver σ) {count : Number}
    (h : (HostCall.runFrames count).IsTold) (s : σ) :
    driver.worded.obey (.runFrames count) s = driver.obey (.runFrames count) s := by
  obtain ⟨t, ht⟩ := h
  exact Action.bind_ok _ (LogEntry.word_of_ok ht s)

theorem worded_applyInput (driver : Driver σ) {event : Event}
    (h : (HostCall.applyInput event).IsTold) (s : σ) :
    driver.worded.obey (.applyInput event) s = driver.obey (.applyInput event) s := by
  obtain ⟨t, ht⟩ := h
  exact Action.bind_ok _ (LogEntry.word_of_ok ht s)

theorem obey_answer {entry : α → LogEntry} (he : ∀ x, (entry x).IsPlain) (a : Action σ α) (s : σ) :
    let worded : Action σ Unit := do
      let _ ← (do
        let x ← a
        (entry x).word
        pure x)
      pure ()
    let bare : Action σ Unit := do
      let _ ← a
      pure ()
    worded s = bare s ∨
      (bare s).1 = .ok () ∧ (worded s).1 = .error (.number .tooManyDigits) := by
  intro worded bare
  cases ha : a s with
  | mk r u =>
    cases r with
    | error e =>
      have hbare : bare s = (.error e, u) := Action.bind_error _ ha
      have hworded : worded s = (.error e, u) := Action.bind_error _ (Action.bind_error _ ha)
      exact .inl (hworded.trans hbare.symm)
    | ok x =>
      have hbare : bare s = (.ok (), u) := Action.bind_ok _ ha
      rcases he x with ⟨t, ht⟩ | ht
      · have hword := LogEntry.word_of_ok ht u
        have hworded : worded s = (.ok (), u) :=
          Action.bind_ok _ ((Action.bind_ok _ ha).trans (Action.bind_ok _ hword))
        exact .inl (hworded.trans hbare.symm)
      · have hword := LogEntry.word_of_error ht u
        have hworded : worded s = (.error (.number .tooManyDigits), u) :=
          Action.bind_error _ ((Action.bind_ok _ ha).trans (Action.bind_error _ hword))
        exact .inr ⟨congrArg Prod.fst hbare, congrArg Prod.fst hworded⟩

/-- The worded driver carries out a call as the driver does, or it gets an answer without a text. -/
theorem worded_obey (driver : Driver σ) (h : call.IsTold) (s : σ) :
    driver.worded.obey call s = driver.obey call s ∨
      (driver.obey call s).1 = .ok () ∧
        (driver.worded.obey call s).1 = .error (.number .tooManyDigits) := by
  cases call with
  | runFrames count => exact .inl (worded_runFrames driver h s)
  | applyInput event => exact .inl (worded_applyInput driver h s)
  | captureSnapshot => exact obey_answer LogEntry.isPlain_ofSnapshot _ s
  | readFrameCount => exact obey_answer LogEntry.isPlain_ofFrameCount _ s
  | opened => exact .inl rfl
  | closed => exact .inl rfl

/-- Of the calls, the one at place `i` is the first whose answer has no text. -/
def UntoldAt (driver : Driver σ) (calls : List HostCall) (s : σ) (i : Nat) : Prop :=
  ∃ call t, calls[i]? = some call ∧ driver.worded.serve (calls.take i) s = (.ok (), t) ∧
    (driver.obey call t).1 = .ok () ∧
    (driver.worded.obey call t).1 = .error (.number .tooManyDigits)

theorem UntoldAt.fault (h : driver.UntoldAt calls s i) :
    driver.worded.FaultAt calls s i (.number .tooManyDigits) := by
  obtain ⟨call, t, hcall, hserve, -, hfailed⟩ := h
  exact ⟨call, t, hcall, hserve, hfailed⟩

/-- Calls that the driver carries out with answers that have a text, the worded one does too. -/
theorem serve_worded {m : Nat} (htold : ∀ call ∈ calls, call.IsTold)
    (hnone : ∀ i < m, ¬ driver.UntoldAt calls s i)
    (h : driver.serve (calls.take m) s = (.ok (), t)) :
    driver.worded.serve (calls.take m) s = (.ok (), t) := by
  induction m generalizing t with
  | zero => exact h
  | succ m ih =>
    rw [List.take_add_one] at h ⊢
    obtain ⟨u, hu, hlast⟩ := exists_serve_of_append h
    have hserve := ih (fun i hi => hnone i (by omega)) hu
    rw [serve_append hserve]
    cases hcall : calls[m]? with
    | none =>
      rw [hcall] at hlast
      exact hlast
    | some call =>
      rw [hcall] at hlast
      obtain ⟨_, v, hobey, hend⟩ := Action.bind_eq_ok_iff.mp hlast
      have hok : (driver.obey call u).1 = .ok () := congrArg Prod.fst hobey
      rcases worded_obey driver (htold call (List.mem_of_getElem? hcall)) u with
        hsame | ⟨-, hfailed⟩
      · rw [Option.toList_some, serve, Action.bind_ok _ (hsame.trans hobey)]
        exact hend
      · exact absurd ⟨call, u, hcall, hserve, hok, hfailed⟩ (hnone m (by omega))

theorem fault_worded {e : Failure} (htold : ∀ call ∈ calls, call.IsTold)
    (hnone : ∀ j < i, ¬ driver.UntoldAt calls s j) (h : driver.FaultAt calls s i e) :
    driver.worded.FaultAt calls s i e := by
  obtain ⟨call, t, hcall, hserve, hfailed⟩ := h
  refine ⟨call, t, hcall, serve_worded htold hnone hserve, ?_⟩
  rcases worded_obey driver (htold call (List.mem_of_getElem? hcall)) t with
    hsame | ⟨hok, -⟩
  · rw [hsame, hfailed]
  · cases hok.symm.trans hfailed

end Driver

/-- An action does what another one does, or it fails for a number without a text, after the first
ones of its calls. -/
structure Action.Curbs (calls : σ → List HostCall) (b a : Action σ α) : Prop where
  grows : ∀ l, Action.Preserves (fun s => l <+: calls s) a
  runs : ∀ s, b s = a s ∨
    (b s).1 = .error (.number .tooManyDigits) ∧ calls (b s).2 <+: calls (a s).2

namespace Action.Curbs

variable {calls : σ → List HostCall} {b a : Action σ α}

theorem refl (h : ∀ l, Action.Preserves (fun s => l <+: calls s) a) : Curbs calls a a :=
  ⟨h, fun _ => .inl rfl⟩

theorem ofExcept (r : Except Failure α) :
    Curbs calls (Action.ofExcept r) (Action.ofExcept r) := .refl fun _ => .ofExcept r

theorem bind {g f : α → Action σ β} (h : Curbs calls b a) (hf : ∀ x, Curbs calls (g x) (f x)) :
    Curbs calls (b >>= g) (a >>= f) where
  grows l := (h.grows l).bind fun x => (hf x).grows l
  runs s := by
    rcases h.runs s with hsame | ⟨hfailed, hcalls⟩
    · rw [Action.bind_apply, Action.bind_apply, hsame]
      cases a s with
      | mk r t =>
        cases r with
        | ok x => exact (hf x).runs t
        | error e => exact .inl rfl
    · -- what `f` does after the failure only adds calls
      have hlater : calls (b s).2 <+: calls ((a >>= f) s).2 := by
        rw [Action.bind_apply]
        cases ha : a s with
        | mk r t =>
          rw [ha] at hcalls
          cases r with
          | ok x => exact (hf x).grows _ t hcalls
          | error e => exact hcalls
      refine .inr ?_
      cases hb : b s with
      | mk r t =>
        rw [hb] at hfailed hlater
        obtain rfl : r = .error (.number .tooManyDigits) := hfailed
        rw [Action.bind_error g hb]
        exact ⟨rfl, hlater⟩

/-- A request that may have no text ahead of a call. -/
theorem request {e : LogEntry} (he : e.IsPlain)
    (h : ∀ l, Action.Preserves (fun s => l <+: calls s) a) :
    Curbs calls (e.word >>= fun _ => a) a where
  grows := h
  runs s := by
    rcases he with ⟨t, ht⟩ | ht
    · exact .inl (Action.bind_ok _ (LogEntry.word_of_ok ht s))
    · rw [Action.bind_error _ (LogEntry.word_of_error ht s)]
      exact .inr ⟨rfl, h _ s (List.prefix_refl _)⟩

/-- An answer that may have no text. -/
theorem answer {entry : α → LogEntry} (he : ∀ x, (entry x).IsPlain)
    (h : ∀ l, Action.Preserves (fun s => l <+: calls s) a) :
    Curbs calls (a >>= fun x => (entry x).word >>= fun _ => pure x) a where
  grows := h
  runs s := by
    cases ha : a s with
    | mk r u =>
      cases r with
      | error e => exact .inl (Action.bind_error _ ha)
      | ok x =>
        rw [Action.bind_ok _ ha]
        rcases he x with ⟨t, ht⟩ | ht
        · exact .inl (Action.bind_ok _ (LogEntry.word_of_ok ht u))
        · rw [Action.bind_error _ (LogEntry.word_of_error ht u)]
          exact .inr ⟨rfl, List.prefix_refl _⟩

theorem timed (h : Curbs calls b a) :
    Curbs (fun t : Timed σ => calls t.host) (Timed.onHost b) (Timed.onHost a) where
  grows l := Timed.onHost_preserves (h.grows l)
  runs t := by
    rcases h.runs t.host with hsame | hfailed
    · exact .inl (by rw [Timed.onHost, Timed.onHost, Action.lift, Action.lift, hsame])
    · exact .inr hfailed

end Action.Curbs

namespace Driver

/-- No call is taken back. -/
theorem recorded_grows (driver : Driver σ) (l : List HostCall) :
    driver.recorded.Preserves fun r => l <+: r.calls where
  runFrames _ := fun _ h => h.trans (List.prefix_append _ _)
  applyInput _ := fun _ h => h.trans (List.prefix_append _ _)
  captureSnapshot := fun _ h => h.trans (List.prefix_append _ _)
  readFrameCount := fun _ h => h.trans (List.prefix_append _ _)

variable {calls : σ → List HostCall} {driver : Driver σ} {timing : Timing} {i : Nat}
  (h : ∀ l, driver.Preserves fun s => l <+: calls s)
include h

theorem worded_performStep (viewport : Viewport) (step : Step) :
    Action.Curbs calls (driver.worded.performStep viewport step)
      (driver.performStep viewport step) := by
  cases step with
  | run frames =>
    exact (Action.Curbs.request (LogEntry.isPlain_ofCount _) fun l => (h l).runFrames _).bind
      fun _ => .ofExcept (.ok none)
  | input step =>
    simp only [performStep]
    split
    next e => exact .ofExcept (.error _)
    next event =>
      exact (Action.Curbs.request (LogEntry.isPlain_ofEvent _) fun l => (h l).applyInput _).bind
        fun _ => .ofExcept (.ok none)
  | snap label =>
    exact (Action.Curbs.answer LogEntry.isPlain_ofSnapshot fun l => (h l).captureSnapshot).bind
      fun _ => .ofExcept (.ok _)

theorem worded_performSteps (viewport : Viewport) (steps : List Step) :
    Action.Curbs (fun t : Timed σ => calls t.host)
      (driver.worded.performSteps timing viewport i steps)
      (driver.performSteps timing viewport i steps) := by
  have hcheck (k : Nat) : Action.Curbs (fun t : Timed σ => calls t.host) (timing.check k)
      (timing.check k) :=
    .refl fun l => Timing.check_preserves (i := fun s => l <+: calls s) timing k
  induction steps generalizing i with
  | nil => exact (hcheck i).bind fun _ => .ofExcept (.ok [])
  | cons first rest ih =>
    refine (hcheck i).bind fun _ => ?_
    refine (worded_performStep h viewport first).timed.bind fun shot => ?_
    exact ih.bind fun shots => .ofExcept (.ok _)

/-- A replay by the worded driver is that by the driver, or it fails for a number without a text,
after the first ones of the calls. -/
theorem worded_execute (clock : Nat → Number) (budget : Budget) (viewport : Viewport)
    (script : Script) :
    Action.Curbs calls (driver.worded.execute clock budget viewport script)
      (driver.execute clock budget viewport script) where
  grows l := execute_preserves (h l) clock budget viewport script
  runs s := by
    have hreplay : Action.Curbs (fun t : Timed σ => calls t.host)
        (driver.worded.replay budget viewport script) (driver.replay budget viewport script) := by
      have hbegin : Action.Curbs (fun t : Timed σ => calls t.host) (Timing.begin budget)
          (Timing.begin budget) :=
        .refl fun l => Timing.begin_preserves (i := fun s => l <+: calls s) budget
      refine hbegin.bind fun timing => ?_
      refine (worded_performSteps h viewport script.steps).bind fun captures => ?_
      refine Action.Curbs.bind ?_ fun count => .ofExcept (.ok _)
      exact (Action.Curbs.answer LogEntry.isPlain_ofFrameCount fun l => (h l).readFrameCount).timed
    rcases hreplay.runs ⟨s, .ofReadings clock⟩ with hsame | hfailed
    · exact .inl (by rw [execute, execute, hsame])
    · exact .inr hfailed

end Driver

end Replay
