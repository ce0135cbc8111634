import Replay.Proofs.EventCounts
import Replay.Proofs.LogLines
import Replay.Proofs.WrittenFiles

namespace Replay

namespace FileSystem

variable {fs : FileSystem} {p : Path} {l : Location} {old : Option Bytes}
  {bytes : Bytes} {s t : Text}

/-- The file can be written in, and it is the UTF-8 form of the text. -/
def HasText (fs : FileSystem) (p : Path) (t : Text) : Prop :=
  ∃ l bytes, fs.openFile p = .ok (l, some bytes) ∧ Utf8.encode t = .ok bytes

theorem hasText_put (h : fs.openFile p = .ok (l, old)) (ht : Utf8.encode t = .ok bytes) :
    (fs.put l (.file bytes)).HasText p t :=
  ⟨l, bytes, openFile_put h bytes, ht⟩

theorem hasText_of_writeText {fs' : FileSystem} (h : fs.writeText p t = (.ok (), fs')) :
    fs'.HasText p t := by
  rw [writeText] at h
  split at h
  next => cases h
  next l old hopen =>
    split at h
    next bytes hbytes =>
      cases h
      exact hasText_put hopen hbytes
    next => cases h

/-- A text is added at the end if it has a UTF-8 form, and otherwise nothing is. -/
theorem HasText.appendText (h : fs.HasText p s) (t : Text) :
    (t.Encodable → ∃ fs', fs.appendText p t = (.ok (), fs') ∧ fs'.HasText p (s ++ t)) ∧
      (¬ t.Encodable → ∃ e fs', fs.appendText p t = (.error e, fs') ∧ fs'.HasText p s) := by
  obtain ⟨l, before, hopen, hbefore⟩ := h
  have hs := Utf8.encodable_of_encode hbefore
  constructor
  · intro ht
    have hbytes := Utf8.encode_of_encodable ht
    have hall : Utf8.encode (s ++ t) = .ok (before ++ t.flatMap Utf8.bytesOf) := by
      rw [Utf8.encode_of_encodable hs] at hbefore
      obtain rfl := Except.ok.inj hbefore
      rw [Utf8.encode_of_encodable (Text.encodable_append.mpr ⟨hs, ht⟩), List.flatMap_append]
    refine ⟨_, ?_, hasText_put hopen hall⟩
    simp only [FileSystem.appendText, hopen, hbytes, Option.getD_some]
  · intro ht
    obtain ⟨e, he⟩ := Utf8.encode_of_not_encodable ht
    refine ⟨.unencodable e, _, ?_, hasText_put hopen hbefore⟩
    simp only [FileSystem.appendText, hopen, he, Option.getD_some]

end FileSystem

variable {σ τ κ α : Type}

namespace EventLog

theorem record_apply (path : Path) (type message : Text) (s : Session σ) :
    record path type message s =
      match s.machine.files.appendText path (line s.machine.now.next.1 type message) with
      | (.ok (), fs) => (.ok (), ⟨s.host, ⟨fs, s.machine.now.next.2⟩, tally s.counts type⟩)
      | (.error e, fs) => (.error (.file e), ⟨s.host, ⟨fs, s.machine.now.next.2⟩, s.counts⟩) := by
  have hclock : Session.onMachine Machine.readClock s =
      (.ok s.machine.now.next.1, ⟨s.host, ⟨s.machine.files, s.machine.now.next.2⟩, s.counts⟩) := rfl
  rw [record, Action.bind_ok _ hclock, Action.bind_apply, Session.onMachine, Action.lift,
    Machine.alter]
  rcases s.machine.files.appendText path (line s.machine.now.next.1 type message) with
    ⟨e | _, fs⟩ <;> rfl

end EventLog

/-- A session with the events whose logging has come to its end. -/
structure Journal (σ : Type) where
  session : Session σ
  events : List Logged

namespace Journal

open EventLog

def onSession (a : Action (Session σ) α) : Action (Journal σ) α :=
  Action.lift Journal.session (fun session j => { j with session }) a

def onHost (a : Action σ α) : Action (Journal σ) α := onSession (Session.onHost a)

/-- Logs an event, and notes it once that is done. -/
def record (path : Path) (type message : Text) : Action (Journal σ) Unit := do
  let moment ← Action.read fun j => j.session.machine.now.next.1
  onSession (EventLog.record path type message)
  Action.change fun j => { j with events := j.events ++ [⟨moment, type, message⟩] }

def add (path : Path) (e : LogEntry) : Action (Journal σ) Unit := do
  let message ← Action.ofExcept (e.message.mapError Failure.number)
  record path e.type message

/-- The driver with its calls logged, and the events noted that are. -/
def logged (path : Path) (driver : Driver σ) : Driver (Journal σ) :=
  loggedBy onHost (add path) driver

variable {path : Path} {type message : Text}

theorem record_apply (path : Path) (type message : Text) (j : Journal σ) :
    record path type message j = match EventLog.record path type message j.session with
      | (.ok (), s) => (.ok (), ⟨s, j.events ++ [⟨j.session.machine.now.next.1, type, message⟩]⟩)
      | (.error e, s) => (.error e, ⟨s, j.events⟩) := by
  have hread : Action.read (fun j : Journal σ => j.session.machine.now.next.1) j =
      (.ok j.session.machine.now.next.1, j) := rfl
  rw [record, Action.bind_ok _ hread, Action.bind_apply, onSession, Action.lift]
  rcases EventLog.record path type message j.session with ⟨e | _, s⟩ <;> rfl

theorem record_follows (path : Path) (type message : Text) :
    Action.Follows Journal.session (record (σ := σ) path type message)
      (EventLog.record path type message) := by
  intro j
  rw [record_apply]
  rcases EventLog.record path type message j.session with ⟨e | _, s⟩ <;> exact ⟨rfl, rfl⟩

/-- Noting the events changes nothing else. -/
theorem logged_follows (path : Path) (driver : Driver σ) :
    (logged path driver).Follows Journal.session (EventLog.logged path driver) := by
  have hhost {α : Type} {b a : Action σ α} (h : Action.Follows id b a) :
      Action.Follows Journal.session (onHost b) (Session.onHost a) := by
    obtain rfl : b = a := funext fun s => Prod.ext (h s).1 (h s).2
    exact fun _ => ⟨rfl, rfl⟩
  have hadd (e : LogEntry) :
      Action.Follows Journal.session (add (σ := σ) path e) (EventLog.add path e) :=
    (Action.Follows.ofExcept _).bind fun _ => record_follows _ _ _
  rw [logged_eq]
  exact loggedBy_follows (.refl driver) hhost hadd

/-- The log is the text of the events that are noted, and they are what is counted. -/
structure IsFaithful (path : Path) (j : Journal σ) : Prop where
  text : j.session.machine.files.HasText path (textOf j.events)
  counts : j.session.counts = (j.events.map Logged.type).foldl tally []
  types : ∀ e ∈ j.events, IsField e.type

/-- An event is logged exactly if it has a UTF-8 form. The log and the counts are right afterwards
in any case. -/
theorem record_of_isFaithful {j : Journal σ} (h : j.IsFaithful path) (htype : IsField type)
    (message : Text) :
    ((record path type message j).1 = .ok () ↔ type.Encodable ∧ message.Encodable) ∧
      (record path type message j).2.IsFaithful path := by
  let e : Logged := ⟨j.session.machine.now.next.1, type, message⟩
  have hline : e.line.Encodable ↔ type.Encodable ∧ message.Encodable := by
    simp [e, Logged.line, line]
  obtain ⟨hwritten, hfailed⟩ := h.text.appendText e.line
  rw [record_apply, EventLog.record_apply]
  by_cases hm : type.Encodable ∧ message.Encodable
  · obtain ⟨fs, happend, htext⟩ := hwritten (hline.mpr hm)
    have happend : j.session.machine.files.appendText path
        (line j.session.machine.now.next.1 type message) = (.ok (), fs) := happend
    rw [happend]
    refine ⟨iff_of_true rfl hm, ?_, ?_, ?_⟩
    · have hsplit : textOf (j.events ++ [e]) = textOf j.events ++ e.line := by
        simp [textOf]
      exact hsplit ▸ htext
    · have hcounts : (j.events ++ [e]).map Logged.type = j.events.map Logged.type ++ [type] := by
        simp [e]
      show tally j.session.counts type = ((j.events ++ [e]).map Logged.type).foldl tally []
      rw [hcounts, List.foldl_append, ← h.counts]
      rfl
    · exact List.forall_mem_append.mpr ⟨h.types, List.forall_mem_singleton.mpr htype⟩
  · obtain ⟨f, fs, happend, htext⟩ := hfailed fun hok => hm (hline.mp hok)
    have happend : j.session.machine.files.appendText path
        (line j.session.machine.now.next.1 type message) = (.error f, fs) := happend
    rw [happend]
    exact ⟨iff_of_false (by simp) hm, htext, h.counts, h.types⟩

theorem isField_of_mem_types (h : type ∈ types) : IsField type := by
  have hall : ∀ type ∈ types, IsField type := by decide
  exact hall type h

theorem record_isFaithful (path : Path) (htype : IsField type) (message : Text) :
    Action.Preserves (IsFaithful (σ := σ) path) (record path type message) :=
  fun _ h => (record_of_isFaithful h htype message).2

theorem add_isFaithful (path : Path) {e : LogEntry} (h : e.type ∈ types) :
    Action.Preserves (IsFaithful (σ := σ) path) (add path e) :=
  (Action.Preserves.ofExcept _).bind fun _ => record_isFaithful path (isField_of_mem_types h) _

theorem logged_isFaithful (path : Path) (driver : Driver σ) :
    (logged path driver).Preserves (IsFaithful path) :=
  loggedBy_preserves (fun _ _ h => ⟨h.text, h.counts, h.types⟩) (fun _ => add_isFaithful path)
    driver

end Journal

/-- What is done with a log and a driver whose calls are logged. -/
inductive LogUse where
  | log (type message : Text)
  | runFrames (count : Number)
  | applyInput (event : Event)
  | captureSnapshot
  | readFrameCount

namespace LogUse

open EventLog

def perform (driver : Driver τ) (log : Text → Text → Action τ Unit) : LogUse → Action τ Unit
  | .log type message => log type message
  | runFrames count => driver.runFrames count
  | applyInput event => driver.applyInput event
  | captureSnapshot => do
    let _ ← driver.captureSnapshot
    pure ()
  | readFrameCount => do
    let _ ← driver.readFrameCount
    pure ()

/-- Uses one after the other; a failure of one does not keep the next ones from being tried. -/
def performAll (driver : Driver τ) (log : Text → Text → Action τ Unit) :
    List LogUse → Action τ Unit
  | [] => pure ()
  | use :: rest => do
    let _ ← Action.attempt (use.perform driver log)
    performAll driver log rest

/-- The type of an event that is logged directly can be read. -/
def IsReadable : LogUse → Prop
  | .log type _ => IsField type
  | _ => True

variable {driver : Driver τ} {log : Text → Text → Action τ Unit}

theorem perform_preserves {i : τ → Prop} (hdriver : driver.Preserves i)
    (hlog : ∀ type message, IsField type → Action.Preserves i (log type message)) {use : LogUse}
    (h : use.IsReadable) : Action.Preserves i (use.perform driver log) := by
  cases use with
  | log type message => exact hlog type message h
  | runFrames count => exact hdriver.runFrames count
  | applyInput event => exact hdriver.applyInput event
  | captureSnapshot => exact hdriver.captureSnapshot.bind fun _ => .pure _
  | readFrameCount => exact hdriver.readFrameCount.bind fun _ => .pure _

theorem performAll_preserves {i : τ → Prop} (hdriver : driver.Preserves i)
    (hlog : ∀ type message, IsField type → Action.Preserves i (log type message))
    {uses : List LogUse} (h : ∀ use ∈ uses, use.IsReadable) :
    Action.Preserves i (performAll driver log uses) := by
  induction uses with
  | nil => exact .pure _
  | cons use rest ih =>
    obtain ⟨huse, hrest⟩ := List.forall_mem_cons.mp h
    exact (perform_preserves hdriver hlog huse).attempt.bind fun _ => ih hrest

theorem perform_follows {part : κ → τ} {driver' : Driver κ} {log' : Text → Text → Action κ Unit}
    (hdriver : driver'.Follows part driver)
    (hlog : ∀ type message, Action.Follows part (log' type message) (log type message))
    (use : LogUse) : Action.Follows part (use.perform driver' log') (use.perform driver log) := by
  cases use with
  | log type message => exact hlog type message
  | runFrames count => exact hdriver.runFrames count
  | applyInput event => exact hdriver.applyInput event
  | captureSnapshot => exact hdriver.captureSnapshot.bind fun _ => .pure _
  | readFrameCount => exact hdriver.readFrameCount.bind fun _ => .pure _

theorem performAll_follows {part : κ → τ} {driver' : Driver κ}
    {log' : Text → Text → Action κ Unit} (hdriver : driver'.Follows part driver)
    (hlog : ∀ type message, Action.Follows part (log' type message) (log type message))
    (uses : List LogUse) :
    Action.Follows part (performAll driver' log' uses) (performAll driver log uses) := by
  induction uses with
  | nil => exact .pure _
  | cons use rest ih => exact (perform_follows hdriver hlog use).attempt.bind fun _ => ih

end LogUse

namespace EventLog

variable {path : Path} {m m' : Machine}

/-- There is no log yet. -/
def IsFresh (path : Path) (m : Machine) : Prop :=
  ∃ fs, m.files.makeDirectories path.parent = (.ok (), fs) ∧ fs.hasNode path = .ok false

theorem start_hasText (hfresh : IsFresh path m) (h : start path m = (.ok (), m')) :
    m'.files.HasText path (textOf []) := by
  obtain ⟨fs, hmake, hnone⟩ := hfresh
  obtain ⟨_, t, halter, h⟩ := Action.bind_eq_ok_iff.mp h
  obtain ⟨fs', hmade, rfl⟩ := Machine.alter_eq_ok_iff.mp halter
  obtain rfl : fs = fs' := (Prod.mk.inj (hmake.symm.trans hmade)).2
  obtain ⟨found, u, hinspect, h⟩ := Action.bind_eq_ok_iff.mp h
  obtain ⟨hfound, rfl⟩ := Machine.inspect_eq_ok_iff.mp hinspect
  obtain rfl : false = found := Except.ok.inj (hnone.symm.trans hfound)
  rw [if_neg Bool.false_ne_true] at h
  obtain ⟨fs'', hwrite, rfl⟩ := Machine.alter_eq_ok_iff.mp h
  have htext : textOf [] = header := by simp [textOf]
  exact htext ▸ FileSystem.hasText_of_writeText hwrite

/-- What is read in a log after any uses of it and of the driver, also if some of them fail. The
file is the text of the events that were logged, in their order, and these are counted. Its lines
give back their types and messages exactly if no message has a line feed; the lines of a type are
as many as are counted, and besides them those that stand in messages after a line feed. -/
theorem read_of_uses {uses : List LogUse} (driver : Driver σ) (host : σ)
    (hfresh : IsFresh path m) (hstart : start path m = (.ok (), m'))
    (huses : ∀ use ∈ uses, use.IsReadable) :
    let s := (LogUse.performAll (logged path driver) (record path) uses ⟨host, m', []⟩).2
    let j := (LogUse.performAll (Journal.logged path driver) (Journal.record path) uses
      ⟨⟨host, m', []⟩, []⟩).2
    j.session = s ∧ s.machine.files.HasText path (textOf j.events) ∧
      ((lines (textOf j.events)).tail.map fields? =
          (j.events.map fun e => some (e.type, e.message)) ↔
        ∀ e ∈ j.events, lineFeed ∉ e.message) ∧
      ∀ type, (s.counts.get? type).getD 0 = (j.events.countP fun e => e.type = type) ∧
        (lines (textOf j.events)).tail.countP (isOf type) =
          (s.counts.get? type).getD 0 +
            (j.events.flatMap Logged.laterLines).countP (isOf type) := by
  intro s j
  have hsame : j.session = s :=
    (LogUse.performAll_follows (Journal.logged_follows path driver) (Journal.record_follows path)
      uses ⟨⟨host, m', []⟩, []⟩).2
  have hbegin : Journal.IsFaithful path (⟨⟨host, m', []⟩, []⟩ : Journal σ) :=
    ⟨start_hasText hfresh hstart, rfl, by simp⟩
  have hfaithful : j.IsFaithful path :=
    LogUse.performAll_preserves (Journal.logged_isFaithful path driver)
      (fun _ message htype => Journal.record_isFaithful path htype message) huses _ hbegin
  have hcount (type : Text) :
      (s.counts.get? type).getD 0 = (j.events.countP fun e => e.type = type) := by
    have htypes : (j.events.map Logged.type).count type =
        j.events.countP fun e => e.type = type := by
      rw [List.count, List.countP_map]
      exact List.countP_congr fun e _ => by simp
    rw [← hsame, hfaithful.counts, get?_foldl_tally, htypes]
    split
    next hzero => rw [hzero, Option.getD_none]
    next => rw [Option.getD_some]
  refine ⟨hsame, hsame ▸ hfaithful.text, map_fields?_eq_iff hfaithful.types, fun type => ?_⟩
  rw [hcount type]
  exact ⟨rfl, countP_isOf hfaithful.types type⟩

/-- The message of a host that fails can hold a line that reads like one of a call that was never
made. -/
theorem read_of_torn_message :
    let path : Path := .ofLocation ["events.log"]
    let moment : Moment := ⟨2026, 1, 2, 3, 4, 5, 678901⟩
    let message : Text := "lost\n2026-01-02T03:04:05.678901+00:00\trun_frames\t9"
    let fault : PlannedFailure := ⟨.runFrames, 1, .driver message⟩
    let driver := Rehearsal.driver ⟨.null, none, none, some fault⟩
    let machine : Machine :=
      ⟨⟨[], [], fun _ => none, fun _ _ => none⟩, .ofReadings fun _ => moment⟩
    let begun := (start path machine).2
    let uses : List LogUse := [.runFrames (.int 1)]
    let s := (LogUse.performAll (logged path driver) (record path) uses
      ⟨⟨.int 0, []⟩, begun, []⟩).2
    let j := (LogUse.performAll (Journal.logged path driver) (Journal.record path) uses
      ⟨⟨⟨.int 0, []⟩, begun, []⟩, []⟩).2
    let events : List (Text × Text) :=
      [(("run_frames" : Text), ("1" : Text)),
        (("driver_error" : Text), ("run_frames: " : Text) ++ message)]
    let found : List (Text × Text) :=
      [(("run_frames" : Text), ("1" : Text)),
        (("driver_error" : Text), ("run_frames: lost" : Text)),
        (("run_frames" : Text), ("9" : Text))]
    s.machine.files.HasText path (textOf j.events) ∧ s.counts.get? "run_frames" = some 1 ∧
      j.events.map (fun e => (e.type, e.message)) = events ∧
      (lines (textOf j.events)).tail.map fields? = found.map some := by
  intro path moment message fault driver machine begun uses s j events found
  have hfresh : IsFresh path machine := by
    refine ⟨(machine.files.makeDirectories path.parent).2, Prod.ext ?_ rfl, ?_⟩ <;> decide +kernel
  have hstart : start path machine = (.ok (), begun) := Prod.ext (by decide +kernel) rfl
  have huses : ∀ use ∈ uses, use.IsReadable := by simp [uses, LogUse.IsReadable]
  have hread := read_of_uses driver (⟨.int 0, []⟩ : Stage) hfresh hstart huses
  have hcount : s.counts.get? "run_frames" = some 1 := by decide +kernel
  have hevents : j.events.map (fun e => (e.type, e.message)) = events := by decide +kernel
  have hfound : (lines (textOf j.events)).tail.map fields? = found.map some := by decide +kernel
  refine ⟨?_, hcount, hevents, hfound⟩
  -- The run is not evaluated where only its name matters.
  subst s j
  generalize LogUse.performAll (logged path driver) (record path) uses _ = done at hread ⊢
  generalize LogUse.performAll (Journal.logged path driver) _ uses _ = noted at hread ⊢
  exact hread.2.1

end EventLog

end Replay
