import Replay.Proofs.RunSuccess
import Replay.Proofs.WordedCalls

namespace Replay

variable {σ τ κ ν α β : Type}

/-- The same machine and counts with another host. -/
def Session.withHost (s : Session σ) (host : τ) : Session τ := ⟨host, s.machine, s.counts⟩

theorem Session.eq_withHost {s : Session σ} {t : Session τ} {host : τ} (hhost : t.host = host)
    (hlog : mapHost (fun _ => ()) t = mapHost (fun _ => ()) s) : t = s.withHost host := by
  obtain ⟨-, hmachine, hcounts⟩ := Session.mk.inj hlog
  rw [withHost, ← hhost, ← hmachine, ← hcounts]

namespace EventLog

/-- Appends entries one after the other, until one cannot be appended. -/
def addAll (path : Path) : List LogEntry → Action (Session σ) Unit
  | [] => pure ()
  | e :: rest => do
    add path e
    addAll path rest

variable {path : Path}

theorem record_preserves_host (path : Path) (type message : Text) (host : σ) :
    Action.Preserves (fun s : Session σ => s.host = host) (record path type message) := by
  refine Action.Preserves.bind (fun _ h => h) fun moment => ?_
  exact Action.Preserves.bind (fun _ h => h) fun _ => fun _ h => h

theorem add_preserves_host (path : Path) (e : LogEntry) (host : σ) :
    Action.Preserves (fun s : Session σ => s.host = host) (add path e) :=
  (Action.Preserves.ofExcept _).bind fun _ => record_preserves_host _ _ _ _

theorem add_withHost (path : Path) (e : LogEntry) (s : Session σ) (host : τ) :
    add path e (s.withHost host) = ((add path e s).1, (add path e s).2.withHost host) := by
  have hother : Action.Follows (Session.mapHost fun _ : τ => ()) (add path e) (add path e) :=
    add_follows path e
  have hown : Action.Follows (Session.mapHost fun _ : σ => ()) (add path e) (add path e) :=
    add_follows path e
  obtain ⟨hr, hs⟩ := hother (s.withHost host)
  obtain ⟨hr', hs'⟩ := hown s
  have hhost : (add path e (s.withHost host)).2.host = host :=
    add_preserves_host path e host _ rfl
  exact Prod.ext (hr.trans hr'.symm) (Session.eq_withHost hhost (hs.trans hs'.symm))

theorem addAll_withHost (entries : List LogEntry) (s : Session σ) (host : τ) :
    addAll path entries (s.withHost host) =
      ((addAll path entries s).1, (addAll path entries s).2.withHost host) := by
  induction entries generalizing s with
  | nil => rfl
  | cons e rest ih =>
    rw [addAll, addAll, Action.bind_apply, Action.bind_apply, add_withHost]
    cases add path e s with
    | mk r t =>
      cases r with
      | ok _ => exact ih t
      | error _ => rfl

theorem addAll_of_append {xs ys : List LogEntry} {s u : Session σ} {r : Except Failure Unit}
    (h : addAll path (xs ++ ys) s = (r, u)) :
    (∃ t, addAll path xs s = (.ok (), t) ∧ addAll path ys t = (r, u)) ∨
      ∃ e, r = .error e ∧ addAll path xs s = (.error e, u) := by
  induction xs generalizing s with
  | nil => exact .inl ⟨s, rfl, h⟩
  | cons e rest ih =>
    rw [List.cons_append, addAll, Action.bind_apply] at h
    cases ha : add path e s with
    | mk q t =>
      rw [ha] at h
      cases q with
      | ok _ =>
        rcases ih h with ⟨v, hv, hys⟩ | ⟨f, hf, hv⟩
        · exact .inl ⟨v, by rw [addAll, Action.bind_ok _ ha, hv], hys⟩
        · exact .inr ⟨f, hf, by rw [addAll, Action.bind_ok _ ha, hv]⟩
      | error f =>
        obtain ⟨hr, rfl⟩ := Prod.mk.inj h
        exact .inr ⟨f, hr.symm, by rw [addAll, Action.bind_error _ ha]⟩

end EventLog

/-- A host with the entries that a log of its calls has. -/
structure Noted (σ : Type) where
  host : σ
  entries : List LogEntry

namespace Noted

def onHost (a : Action σ α) : Action (Noted σ) α :=
  Action.lift Noted.host (fun host n => { n with host }) a

/-- Notes an entry, unless its message has no text. -/
def note (e : LogEntry) : Action (Noted σ) Unit := do
  e.word
  Action.change fun n => { n with entries := n.entries ++ [e] }

/-- Makes a host call; if the host fails at it, that is noted. -/
def guarded (kind : CallKind) (call : Action σ α) : Action (Noted σ) α := do
  match ← Action.attempt (onHost call) with
  | .ok x => pure x
  | .error (.driver message) => do
    note (.ofFailure kind message)
    Action.fail (.driver message)
  | .error e => Action.fail e

def mapHost (part : τ → σ) (n : Noted τ) : Noted σ := ⟨part n.host, n.entries⟩

end Noted

/-- The driver with the entries noted that a log of its calls has: what is done to the game, what
the game answers, and at which calls the host fails. -/
def Driver.noted (driver : Driver σ) : Driver (Noted σ) where
  runFrames count := do
    Noted.note (.ofCount count)
    Noted.guarded .runFrames (driver.runFrames count)
  applyInput event := do
    Noted.note (.ofEvent event)
    Noted.guarded .applyInput (driver.applyInput event)
  captureSnapshot := do
    let snapshot ← Noted.guarded .captureSnapshot driver.captureSnapshot
    Noted.note (.ofSnapshot snapshot)
    pure snapshot
  readFrameCount := do
    let count ← Noted.guarded .readFrameCount driver.readFrameCount
    Noted.note (.ofFrameCount count)
    pure count

namespace Noted

theorem note_of_ok {e : LogEntry} {t : Text} (h : e.message = .ok t) (n : Noted σ) :
    note e n = (.ok (), ⟨n.host, n.entries ++ [e]⟩) := by
  rw [note, Action.bind_ok _ (LogEntry.word_of_ok h n)]
  rfl

theorem note_of_error {e : LogEntry} {x : NumberError} (h : e.message = .error x) (n : Noted σ) :
    note e n = (.error (.number x), n) := by
  rw [note, Action.bind_error _ (LogEntry.word_of_error h n)]

theorem host_note (e : LogEntry) : Action.Follows Noted.host (note e) (e.word : Action σ Unit) := by
  intro n
  cases h : e.message with
  | ok t =>
    rw [note_of_ok h, LogEntry.word_of_ok h]
    exact ⟨rfl, rfl⟩
  | error x =>
    rw [note_of_error h, LogEntry.word_of_error h]
    exact ⟨rfl, rfl⟩

theorem host_guarded (kind : CallKind) (call : Action σ α) :
    Action.Follows Noted.host (guarded kind call) call := by
  intro n
  rw [guarded, Action.bind_apply, Action.attempt_apply, onHost, Action.lift]
  cases call n.host with
  | mk r host =>
    cases r with
    | ok x => exact ⟨rfl, rfl⟩
    | error e => cases e <;> exact ⟨rfl, rfl⟩

end Noted

namespace Driver

theorem noted_eq (driver : Driver σ) :
    driver.noted = EventLog.loggedBy Noted.onHost Noted.note driver := rfl

/-- Noting entries changes nothing but that what has no text is refused. -/
theorem noted_follows (driver : Driver σ) : driver.noted.Follows Noted.host driver.worded where
  runFrames _ := (Noted.host_note _).bind fun _ => Noted.host_guarded _ _
  applyInput _ := (Noted.host_note _).bind fun _ => Noted.host_guarded _ _
  captureSnapshot := (Noted.host_guarded _ _).bind fun _ =>
    (Noted.host_note _).bind fun _ => .pure _
  readFrameCount := (Noted.host_guarded _ _).bind fun _ =>
    (Noted.host_note _).bind fun _ => .pure _

/-- All entries that are noted have a text. -/
theorem noted_told (driver : Driver σ) :
    driver.noted.Preserves fun n => ∀ e ∈ n.entries, ∃ t, e.message = .ok t := by
  rw [noted_eq]
  refine EventLog.loggedBy_preserves (fun _ _ h => h) (fun e _ n hn => ?_) driver
  cases h : e.message with
  | ok t =>
    rw [Noted.note_of_ok h]
    intro e' he'
    rcases List.mem_append.mp he' with hin | hlast
    · exact hn e' hin
    · rw [List.mem_singleton.mp hlast]
      exact ⟨t, h⟩
  | error x =>
    rw [Noted.note_of_error h]
    exact hn

/-- The same entries are noted of a driver that does the same in a part of its states. -/
theorem Follows.noted {part : τ → σ} {larger : Driver τ} {driver : Driver σ}
    (h : larger.Follows part driver) :
    larger.noted.Follows (Noted.mapHost part) driver.noted := by
  rw [noted_eq, noted_eq]
  refine EventLog.loggedBy_follows h ?_ fun _ =>
    (Action.Follows.ofExcept _).bind fun _ => fun _ => ⟨rfl, rfl⟩
  intro α b a hcall n
  obtain ⟨hr, hs⟩ := hcall n.host
  exact ⟨hr, congrArg (fun host => (⟨host, n.entries⟩ : Noted σ)) hs⟩

end Driver

namespace EventLog

/-- What comes of a run that appends entries to the log `s`, by what comes of one that only notes
them on the same host: nothing else if all can be appended, and a failure with the error of the
first that cannot. -/
structure Appends (path : Path) (view : τ → Session κ) (noted : ν → Noted κ)
    (entries : List LogEntry) (s : Session κ) (run : Except Failure α × τ)
    (bare : Except Failure α × ν) : Prop where
  good : ∀ {u}, addAll path entries s = (.ok (), u) →
    ∃ t, run = (bare.1, t) ∧ view t = u.withHost (noted bare.2).host
  bad : ∀ {e u}, addAll path entries s = (.error e, u) → run.1 = .error e

/-- An action that logs what another one notes. -/
structure Mirrors (path : Path) (view : τ → Session κ) (noted : ν → Noted κ) (b : Action τ α)
    (a : Action ν α) : Prop where
  notes : ∀ n, (noted n).entries <+: (noted (a n).2).entries
  appends : ∀ {t n entries}, (view t).host = (noted n).host →
    (noted (a n).2).entries = (noted n).entries ++ entries →
    Appends path view noted entries (view t) (b t) (a n)

variable {path : Path} {view : τ → Session κ} {noted : ν → Noted κ}

namespace Appends

theorem ofHost {entries : List LogEntry} {s : Session κ} {host : κ} {run : Except Failure α × τ}
    {bare : Except Failure α × ν}
    (h : Appends path view noted entries (s.withHost host) run bare) :
    Appends path view noted entries s run bare where
  good {u} hu := h.good (u := u.withHost host) (by rw [addAll_withHost, hu])
  bad {e u} hu := h.bad (u := u.withHost host) (by rw [addAll_withHost, hu])

variable {xs ys : List LogEntry} {s : Session κ} {b : Action τ α} {g : α → Action τ β} {t : τ}

theorem bind_ok {x : α} {n : ν} {bare : Except Failure β × ν}
    (h : Appends path view noted xs s (b t) (.ok x, n))
    (hg : ∀ t', (view t').host = (noted n).host →
      Appends path view noted ys (view t') (g x t') bare) :
    Appends path view noted (xs ++ ys) s ((b >>= g) t) bare := by
  have hrest {v : Session κ} (hv : addAll path xs s = (.ok (), v)) :
      Appends path view noted ys v ((b >>= g) t) bare := by
    obtain ⟨t', hb, hview⟩ := h.good hv
    have hafter := hg t' (by rw [hview]; rfl)
    rw [hview] at hafter
    rw [Action.bind_ok g hb]
    exact hafter.ofHost
  -- the entries of the second action are appended only if all of the first one were
  refine ⟨fun hu => ?_, fun hu => ?_⟩
  · rcases addAll_of_append hu with ⟨v, hv, hys⟩ | ⟨e, he, -⟩
    · exact (hrest hv).good hys
    · cases he
  · rcases addAll_of_append hu with ⟨v, hv, hys⟩ | ⟨e, he, hxs⟩
    · exact (hrest hv).bad hys
    · cases he
      exact Action.fst_bind_of_error g (h.bad hxs)

theorem bind_error {e : Failure} {n : ν}
    (h : Appends path view noted xs s (b t) (.error e, n)) :
    Appends path view noted xs s ((b >>= g) t) (.error e, n) where
  good hu := by
    obtain ⟨t', hb, hview⟩ := h.good hu
    exact ⟨t', Action.bind_error g hb, hview⟩
  bad hu := Action.fst_bind_of_error g (h.bad hu)

end Appends

namespace Mirrors

theorem ofExcept (r : Except Failure α) :
    Mirrors path view noted (Action.ofExcept r) (Action.ofExcept r) where
  notes _ := List.prefix_refl _
  appends {t n entries} hhost hentries := by
    obtain rfl : entries = [] := List.append_right_eq_self.mp hentries.symm
    refine ⟨fun hu => ?_, fun hu => ?_⟩
    · cases hu
      exact ⟨t, rfl, congrArg (view t).withHost hhost⟩
    · cases hu

theorem bind {b : Action τ α} {a : Action ν α} {g : α → Action τ β} {f : α → Action ν β}
    (h : Mirrors path view noted b a) (hf : ∀ x, Mirrors path view noted (g x) (f x)) :
    Mirrors path view noted (b >>= g) (a >>= f) where
  notes n := by
    have hfirst := h.notes n
    rw [Action.bind_apply]
    cases ha : a n with
    | mk r n' =>
      rw [ha] at hfirst
      cases r with
      | ok x => exact hfirst.trans ((hf x).notes n')
      | error e => exact hfirst
  appends {t n entries} hhost hentries := by
    obtain ⟨first, hfirst⟩ := h.notes n
    have happends := h.appends hhost hfirst.symm
    cases ha : a n with
    | mk r n' =>
      rw [ha] at hfirst happends
      cases r with
      | error e =>
        rw [Action.bind_error f ha] at hentries ⊢
        obtain rfl : entries = first := List.append_cancel_left (hentries.symm.trans hfirst.symm)
        exact happends.bind_error
      | ok x =>
        rw [Action.bind_ok f ha] at hentries ⊢
        obtain ⟨others, hothers⟩ := (hf x).notes n'
        obtain rfl : entries = first ++ others := by
          refine List.append_cancel_left (hentries.symm.trans ?_)
          rw [← hothers, ← List.append_assoc, hfirst]
        exact happends.bind_ok fun t' ht' => (hf x).appends ht' hothers.symm

theorem add (e : LogEntry) :
    Mirrors path id id (EventLog.add (σ := κ) path e) (Noted.note e) := by
  cases hmessage : e.message with
  | error x =>
    have hboth : ∀ t : Session κ, EventLog.add path e t = (.error (.number x), t) := by
      intro t
      rw [EventLog.add, hmessage]
      rfl
    have hrefused : Action.ofExcept (.error (.number x)) = EventLog.add (σ := κ) path e :=
      funext fun t => (hboth t).symm
    have hnote : Action.ofExcept (.error (.number x)) = Noted.note (σ := κ) e :=
      funext fun n => (Noted.note_of_error hmessage n).symm
    rw [← hrefused, ← hnote]
    exact ofExcept _
  | ok text =>
    refine ⟨fun n => ?_, fun {t n entries} hhost hentries => ?_⟩
    · rw [Noted.note_of_ok hmessage]
      exact ⟨[e], rfl⟩
    · rw [Noted.note_of_ok hmessage] at hentries ⊢
      obtain rfl : entries = [e] := List.append_cancel_left hentries.symm
      have hkept : (EventLog.add path e t).2.host = t.host :=
        add_preserves_host path e t.host t rfl
      have hall : addAll path [e] t = EventLog.add path e t := by
        rw [addAll, Action.bind_apply]
        rcases EventLog.add path e t with ⟨r | _, u⟩ <;> rfl
      refine ⟨fun {u} hu => ?_, fun {e' u} hu => ?_⟩
      · have hadd : EventLog.add path e t = (.ok (), u) := hall.symm.trans hu
        rw [hadd] at hkept
        exact ⟨u, hadd, congrArg u.withHost (hkept.trans hhost)⟩
      · exact congrArg Prod.fst (hall.symm.trans hu)

theorem attempt_onHost (call : Action κ α) :
    Mirrors path id id (Action.attempt (Session.onHost call))
      (Action.attempt (Noted.onHost call)) where
  notes n := List.prefix_refl _
  appends {t n entries} hhost hentries := by
    obtain rfl : entries = [] := List.append_right_eq_self.mp hentries.symm
    have hhost : t.host = n.host := hhost
    refine ⟨fun hu => ?_, fun hu => ?_⟩
    · cases hu
      refine ⟨t.withHost (call t.host).2, ?_, ?_⟩
      · rw [Action.attempt_apply, Action.attempt_apply, Session.onHost, Noted.onHost, Action.lift,
          Action.lift, hhost]
        rfl
      · rw [hhost]
        rfl
    · cases hu

theorem guarded (kind : CallKind) (call : Action κ α) :
    Mirrors path id id (EventLog.guarded path kind call) (Noted.guarded kind call) := by
  refine (attempt_onHost call).bind fun r => ?_
  cases r with
  | ok x => exact .ofExcept (.ok x)
  | error e =>
    cases e with
    | driver message => exact (add _).bind fun _ => .ofExcept (.error (.driver message))
    | _ => exact .ofExcept (.error _)

theorem performStep (driver : Driver κ) (viewport : Viewport) (step : Step) :
    Mirrors path id id ((logged path driver).performStep viewport step)
      (driver.noted.performStep viewport step) := by
  cases step with
  | run frames =>
    refine Mirrors.bind ?_ fun _ => .ofExcept (.ok none)
    exact (add _).bind fun _ => guarded _ _
  | input step =>
    simp only [Driver.performStep]
    split
    next e => exact .ofExcept (.error _)
    next event =>
      refine Mirrors.bind ?_ fun _ => .ofExcept (.ok none)
      exact (add _).bind fun _ => guarded _ _
  | snap label =>
    refine Mirrors.bind ?_ fun snapshot => .ofExcept (.ok _)
    exact (guarded _ _).bind fun snapshot => (add _).bind fun _ => .ofExcept (.ok snapshot)

theorem readFrameCount (driver : Driver κ) :
    Mirrors path id id (logged path driver).readFrameCount driver.noted.readFrameCount :=
  (guarded _ _).bind fun count => (add _).bind fun _ => .ofExcept (.ok count)

end Mirrors

end EventLog

namespace Timed

/-- The log of a timed session is kept beside the timed host. -/
def session (t : Timed (Session σ)) : Session (Timed σ) :=
  t.host.withHost ⟨t.host.host, t.clock⟩

def noted (t : Timed (Noted σ)) : Noted (Timed σ) := ⟨⟨t.host.host, t.clock⟩, t.host.entries⟩

end Timed

namespace EventLog.Mirrors

variable {path : Path} {timing : Timing} {i : Nat}

theorem timed {b : Action (Session σ) α} {a : Action (Noted σ) α} (h : Mirrors path id id b a) :
    Mirrors path Timed.session Timed.noted (Timed.onHost b) (Timed.onHost a) where
  notes n := h.notes n.host
  appends {t n entries} hhost hentries := by
    obtain ⟨hhost, hclock⟩ := Timed.mk.inj hhost
    have happends := h.appends (t := t.host) hhost hentries
    refine ⟨fun {u} hu => ?_, fun {e u} hu => ?_⟩
    · rw [Timed.session, addAll_withHost] at hu
      obtain ⟨hr, rfl⟩ := Prod.mk.inj hu
      obtain ⟨t', hb, hview⟩ := happends.good (Prod.ext hr rfl)
      have hview : t' = (addAll path entries t.host).2.withHost (a n.host).2.host := hview
      refine ⟨⟨t', t.clock⟩, by rw [Timed.onHost, Action.lift, hb]; rfl, ?_⟩
      rw [Timed.session, hview, hclock]
      rfl
    · rw [Timed.session, addAll_withHost] at hu
      obtain ⟨hr, -⟩ := Prod.mk.inj hu
      exact happends.bad (Prod.ext hr rfl)

theorem readClock :
    Mirrors path (Timed.session (σ := σ)) Timed.noted Timed.readClock Timed.readClock where
  notes n := List.prefix_refl _
  appends {t n entries} hhost hentries := by
    obtain ⟨hhost, hclock⟩ := Timed.mk.inj hhost
    obtain rfl : entries = [] := List.append_right_eq_self.mp hentries.symm
    refine ⟨fun {u} hu => ?_, fun hu => ?_⟩
    · cases hu
      refine ⟨⟨t.host, t.clock.next.2⟩, ?_, ?_⟩
      · rw [Timed.readClock, Timed.readClock, hclock]
      · rw [Timed.session, hhost, hclock]
        rfl
    · cases hu

theorem check (timing : Timing) (i : Nat) :
    Mirrors path (Timed.session (σ := σ)) Timed.noted (timing.check i) (timing.check i) :=
  readClock.bind fun _ => .ofExcept _

theorem performSteps (driver : Driver σ) (viewport : Viewport) (steps : List Step) :
    Mirrors path Timed.session Timed.noted
      ((logged path driver).performSteps timing viewport i steps)
      (driver.noted.performSteps timing viewport i steps) := by
  induction steps generalizing i with
  | nil => exact (check timing i).bind fun _ => .ofExcept (.ok [])
  | cons first rest ih =>
    refine (check timing i).bind fun _ => ?_
    refine (performStep driver viewport first).timed.bind fun shot => ?_
    exact ih.bind fun shots => .ofExcept (.ok _)

theorem replay (driver : Driver σ) (budget : Budget) (viewport : Viewport) (script : Script) :
    Mirrors path Timed.session Timed.noted
      ((logged path driver).replay budget viewport script)
      (driver.noted.replay budget viewport script) := by
  have hbegin : Mirrors path (Timed.session (σ := σ)) Timed.noted (Timing.begin budget)
      (Timing.begin budget) :=
    (ofExcept _).bind fun _ => readClock.bind fun _ => .ofExcept (.ok _)
  refine hbegin.bind fun timing => ?_
  refine (performSteps driver viewport script.steps).bind fun captures => ?_
  exact (readFrameCount driver).timed.bind fun count => .ofExcept (.ok _)

end EventLog.Mirrors

namespace EventLog

/-- A replay with a log appends the entries that are noted of the replay without one. -/
theorem execute_appends (driver : Driver σ) (path : Path) (clock : Nat → Number) (budget : Budget)
    (viewport : Viewport) (script : Script) (s : Session σ) :
    let noted := driver.noted.execute clock budget viewport script ⟨s.host, []⟩
    Appends path id id noted.2.entries s
      ((logged path driver).execute clock budget viewport script s) noted := by
  intro noted
  let start : Timed (Session σ) := ⟨s, .ofReadings clock⟩
  have h : Appends path Timed.session Timed.noted noted.2.entries start.session
      ((logged path driver).replay budget viewport script start)
      (driver.noted.replay budget viewport script ⟨⟨s.host, []⟩, .ofReadings clock⟩) :=
    (Mirrors.replay driver budget viewport script).appends rfl rfl
  have hstart : addAll path noted.2.entries start.session =
      ((addAll path noted.2.entries s).1,
        (addAll path noted.2.entries s).2.withHost start.session.host) := addAll_withHost _ s _
  refine ⟨fun {u} hu => ?_, fun {e u} hu => ?_⟩
  · rw [hu] at hstart
    obtain ⟨t, ht, hview⟩ := h.good hstart
    refine ⟨t.host, by rw [Driver.execute, ht]; rfl, ?_⟩
    have hhost : t.host = t.session.withHost t.session.host.host := rfl
    rw [id, hhost, hview]
    rfl
  · rw [hu] at hstart
    exact h.bad hstart

/-- A replay with a log whose entries can all be appended is that by the worded driver. -/
theorem execute_of_addAll (driver : Driver σ) {path : Path} {clock : Nat → Number}
    {budget : Budget} {viewport : Viewport} {script : Script} {s t : Session τ} (host : σ)
    (h : addAll path (driver.noted.execute clock budget viewport script ⟨host, []⟩).2.entries
      (s.withHost host) = (.ok (), t.withHost host)) :
    (logged path driver).execute clock budget viewport script (s.withHost host) =
      ((driver.worded.execute clock budget viewport script host).1,
        t.withHost (driver.worded.execute clock budget viewport script host).2) := by
  obtain ⟨hr, hs⟩ :=
    Driver.execute_follows driver.noted_follows clock budget viewport script ⟨host, []⟩
  obtain ⟨u, hu, hview⟩ :=
    (execute_appends driver path clock budget viewport script (s.withHost host)).good h
  rw [hu, ← hr, ← hs]
  exact Prod.ext rfl hview

/-- A replay with a log that succeeds gives what the replay without one gives. -/
theorem execute_of_logged {driver : Driver σ} {path : Path} {clock : Nat → Number}
    {budget : Budget} {viewport : Viewport} {script : Script} {s t : Session σ}
    {execution : Execution}
    (h : (logged path driver).execute clock budget viewport script s = (.ok execution, t)) :
    ∃ served, driver.execute clock budget viewport script s.host = (.ok execution, served) := by
  have happends := execute_appends driver path clock budget viewport script s
  obtain ⟨hr, -⟩ :=
    Driver.execute_follows driver.noted_follows clock budget viewport script ⟨s.host, []⟩
  have hkept (l : List HostCall) : driver.Preserves fun _ => l <+: [] :=
    ⟨fun _ _ h => h, fun _ _ h => h, fun _ h => h, fun _ h => h⟩
  cases hall : addAll path
      (driver.noted.execute clock budget viewport script ⟨s.host, []⟩).2.entries s with
  | mk q u =>
    cases q with
    | error e =>
      have hfailed := happends.bad hall
      rw [h] at hfailed
      cases hfailed
    | ok _ =>
      obtain ⟨t', hrun, -⟩ := happends.good hall
      rw [h] at hrun
      have hworded := hr.symm.trans (Prod.mk.inj hrun).1.symm
      rcases (Driver.worded_execute hkept clock budget viewport script).runs s.host with
        hsame | ⟨hfailed, -⟩
      · exact ⟨_, Prod.ext (hsame ▸ hworded) rfl⟩
      · cases hfailed.symm.trans hworded

/-- Logging is transparent but for numbers without a text. If the entries of a replay, which all
have one, can be appended to its log, the replay gives and does with the log what it gives and does
on the worded driver. That is what it gives and does without the log and with the same calls, or
the replay fails for a number without a text, after the first ones of these calls. -/
theorem execute_logged (driver : Driver σ) (path : Path) (clock : Nat → Number) (budget : Budget)
    (viewport : Viewport) (script : Script) {s t : Session σ}
    (h : addAll path (driver.noted.execute clock budget viewport script ⟨s.host, []⟩).2.entries s
      = (.ok (), t)) :
    let entries := (driver.noted.execute clock budget viewport script ⟨s.host, []⟩).2.entries
    let alone := driver.execute clock budget viewport script s.host
    let heard := driver.recorded.execute clock budget viewport script ⟨s.host, []⟩
    let worded := driver.worded.execute clock budget viewport script s.host
    let wordedHeard := driver.recorded.worded.execute clock budget viewport script ⟨s.host, []⟩
    (∀ e ∈ entries, ∃ text, e.message = .ok text) ∧
      (logged path driver).execute clock budget viewport script s =
        (worded.1, t.withHost worded.2) ∧
      (logged path driver.recorded).execute clock budget viewport script (s.withHost ⟨s.host, []⟩) =
        (wordedHeard.1, t.withHost wordedHeard.2) ∧
      (worded = alone ∧ wordedHeard = heard ∨
        worded.1 = .error (.number .tooManyDigits) ∧
          wordedHeard.1 = .error (.number .tooManyDigits) ∧
          wordedHeard.2.calls <+: heard.2.calls) := by
  intro entries alone heard worded wordedHeard
  -- the same entries are noted of a driver whose calls are noted too
  have hentries : (driver.recorded.noted.execute clock budget viewport script
      ⟨⟨s.host, []⟩, []⟩).2.entries = entries :=
    congrArg Noted.entries
      (Driver.execute_follows driver.recorded_follows.noted clock budget viewport script _).2
  have hheard : wordedHeard.1 = worded.1 ∧ wordedHeard.2.host = worded.2 :=
    Driver.execute_follows driver.recorded_follows.worded clock budget viewport script ⟨s.host, []⟩
  have halone : heard.1 = alone.1 ∧ heard.2.host = alone.2 :=
    Driver.execute_follows driver.recorded_follows clock budget viewport script ⟨s.host, []⟩
  refine ⟨?_, ?_, ?_, ?_⟩
  · exact Driver.execute_preserves driver.noted_told clock budget viewport script ⟨s.host, []⟩
      (by simp)
  · refine execute_of_addAll driver s.host ?_
    rw [addAll_withHost, h]
  · refine execute_of_addAll driver.recorded ⟨s.host, []⟩ ?_
    rw [hentries, addAll_withHost, h]
  · have hcurbed := Driver.worded_execute driver.recorded_grows clock budget viewport script
    rcases hcurbed.runs ⟨s.host, []⟩ with hsame | ⟨hfailed, hcalls⟩
    · have hsame : wordedHeard = heard := hsame
      refine .inl ⟨Prod.ext ?_ ?_, hsame⟩
      · rw [← hheard.1, hsame, halone.1]
      · rw [← hheard.2, hsame, halone.2]
    · exact .inr ⟨hheard.1 ▸ hfailed, hfailed, hcalls⟩

/-- A game whose frame count has too many digits: the replay succeeds, but with a log it fails once
the count was read, and there is no entry about that call. -/
theorem execute_logged_of_long_count :
    let plan : Rehearsal := ⟨.null, none, some (.number (.int (10 ^ digitLimit))), none⟩
    let script : Script := ⟨[.run 1]⟩
    let run := (logged (.ofLocation [Run.logName]) plan.driver.recorded).execute
      RunPlan.still.clock Timing.standardBudget .standard script
      (Session.blank.withHost ⟨Session.blank.host, []⟩)
    (plan.driver.execute RunPlan.still.clock Timing.standardBudget .standard script
        Session.blank.host).1.toBool = true ∧
      run.1 = .error (.number .tooManyDigits) ∧
      run.2.host.calls = [.runFrames (.int 1), .readFrameCount] ∧
      run.2.counts = [(CallKind.runFrames.name, 1)] := by
  intro plan script run
  let entries := (plan.driver.noted.execute RunPlan.still.clock Timing.standardBudget .standard
    script ⟨Session.blank.host, []⟩).2.entries
  have hopen : (addAll (.ofLocation [Run.logName]) entries Session.blank).1.toBool = true := by
    decide +kernel
  have hcounts : (addAll (.ofLocation [Run.logName]) entries Session.blank).2.counts =
      [(CallKind.runFrames.name, 1)] := by
    decide +kernel
  let told := plan.driver.recorded.worded.execute RunPlan.still.clock Timing.standardBudget
    .standard script ⟨Session.blank.host, []⟩
  have hcalls : told.2.calls = [.runFrames (.int 1), .readFrameCount] := by decide +kernel
  have hfailed : told.1 = .error (.number .tooManyDigits) := by
    have hshown : (told.1.map fun _ => ()) = .error (.number .tooManyDigits) := by decide +kernel
    exact map_eq_error_iff.mp hshown
  cases hall : addAll (.ofLocation [Run.logName]) entries Session.blank with
  | mk r t =>
    rw [hall] at hopen hcounts
    cases r with
    | error e => cases hopen
    | ok _ =>
      obtain ⟨-, -, hrun, -⟩ := execute_logged plan.driver _ _ _ _ script hall
      have hrun : run = (told.1, t.withHost told.2) := hrun
      refine ⟨by decide +kernel, ?_⟩
      -- the runs are not to be carried out again
      clear_value run told
      rw [hrun]
      exact ⟨hfailed, hcalls, hcounts⟩

/-- If an entry of a replay cannot be appended, the replay with the log fails for that. -/
theorem execute_logged_of_error (driver : Driver σ) (path : Path) (clock : Nat → Number)
    (budget : Budget) (viewport : Viewport) (script : Script) {s t : Session σ} {e : Failure}
    (h : addAll path (driver.noted.execute clock budget viewport script ⟨s.host, []⟩).2.entries s
      = (.error e, t)) :
    ((logged path driver).execute clock budget viewport script s).1 = .error e :=
  (execute_appends driver path clock budget viewport script s).bad h

end EventLog

end Replay
