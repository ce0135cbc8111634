import Replay.Proofs.CaptureDecoding
import Replay.Proofs.ReportText
import Replay.Proofs.ReportedCalls
import Replay.Run

namespace Replay

open Text

variable {σ α : Type}

/-- The wall clock shows moments of the calendar only. -/
def Machine.IsTimed (m : Machine) : Prop := ∀ i, (m.now.reading i).IsValid

namespace Machine

theorem readClock_preserves : Action.Preserves IsTimed readClock := fun _ h => h

theorem inspect_preserves (f : FileSystem → Except FileError α) :
    Action.Preserves IsTimed (inspect f) := fun _ h => h

theorem alter_preserves (f : FileSystem → Except FileError Unit × FileSystem) :
    Action.Preserves IsTimed (alter f) := fun _ h => h

theorem update_preserves (f : FileSystem → Except FileError FileSystem) :
    Action.Preserves IsTimed (update f) := by
  intro m h
  rw [update]
  split <;> exact h

theorem makeRunDirectory_preserves (root : Path) :
    Action.Preserves IsTimed (makeRunDirectory root) := by
  refine (inspect_preserves _).bind fun _ => readClock_preserves.bind fun _ => ?_
  exact (alter_preserves _).bind fun _ => .pure _

/-- What follows from a change of the files that went well. -/
theorem alter_yields {f : FileSystem → Except FileError Unit × FileSystem} {q : Prop}
    (h : ∀ fs fs', f fs = (.ok (), fs') → q) : Action.Yields (alter f) fun _ => q := by
  intro m x t hx
  rw [alter] at hx
  cases hf : f m.files with
  | mk r fs =>
    rw [hf] at hx
    cases r with
    | ok u => exact h _ _ hf
    | error e => cases hx

/-- A directory that was made for a run can be named to the system. -/
theorem makeRunDirectory_yields (root : Path) :
    Action.Yields (makeRunDirectory root) fun d => FileSystem.nameError? d = none := by
  refine (Action.Yields.trivial _).bind fun root _ => ?_
  refine (Action.Yields.trivial _).bind fun moment _ => ?_
  have hmade : Action.Yields
      (alter fun fs => fs.makeDirectories (root.child moment.directoryName))
      fun _ => FileSystem.nameError? (root.child moment.directoryName) = none :=
    alter_yields fun _ _ h => FileSystem.nameError?_of_makeDirectories h
  exact hmade.bind fun _ h => .pure h

end Machine

/-- What holds all through a run: the names of the counted events have a UTF-8 form, and the wall
clock shows moments of the calendar. -/
structure Session.IsSound (s : Session σ) : Prop where
  counts : ∀ c ∈ s.counts, c.1.Encodable
  clock : s.machine.IsTimed

namespace Session

/-- The property is not one of the host. -/
def IsHostless (i : Session σ → Prop) : Prop := ∀ s (host : σ), i s → i { s with host }

theorem isHostless_isSound : IsHostless (IsSound (σ := σ)) := fun _ _ h => ⟨h.counts, h.clock⟩

theorem onHost_preserves {i : Session σ → Prop} (h : IsHostless i) (a : Action σ α) :
    Action.Preserves i (onHost a) := fun s hs => h s _ hs

theorem onMachine_preserves {a : Action Machine α} (h : Action.Preserves Machine.IsTimed a) :
    Action.Preserves (IsSound (σ := σ)) (onMachine a) :=
  fun _ hs => ⟨hs.counts, h _ hs.clock⟩

end Session

theorem Members.mem_put {members : Members α} {name : Text} {value : α} {m : Text × α}
    (h : m ∈ members.put name value) : m.1 = name ∨ m ∈ members := by
  induction members with
  | nil =>
    obtain rfl := List.mem_singleton.mp h
    exact .inl rfl
  | cons n rest ih =>
    rw [put] at h
    split at h
    next =>
      rcases List.mem_cons.mp h with rfl | h
      · exact .inl rfl
      · exact .inr (List.mem_cons_of_mem n h)
    next =>
      rcases List.mem_cons.mp h with rfl | h
      · exact .inr List.mem_cons_self
      · exact (ih h).imp id (List.mem_cons_of_mem n)

/-- A value that can be shown: it has a text, and that has a UTF-8 form. -/
structure Json.IsShowable (value : Json) : Prop where
  short : value.isShort = true
  encodable : value.plain.Encodable

theorem Json.isShowable_of_shortPlain {value : Json} {t : Text} (h : value.shortPlain = .ok t)
    (ht : t.Encodable) : value.IsShowable := by
  rw [shortPlain] at h
  split at h
  next hshort =>
    obtain rfl := Except.ok.inj h
    exact ⟨hshort, ht⟩
  next => cases h

/-- A text is only appended to a file if it has a UTF-8 form. -/
theorem FileSystem.encodable_of_appendText {fs fs' : FileSystem} {path : Path} {t : Text}
    (h : fs.appendText path t = (.ok (), fs')) : t.Encodable := by
  rw [appendText] at h
  split at h
  next => cases h
  next =>
    split at h
    next bytes he => exact Utf8.encodable_of_encode he
    next => cases h

namespace EventLog

variable {path : Path} {type message : Text}

theorem start_preserves (path : Path) : Action.Preserves Machine.IsTimed (start path) := by
  refine (Machine.alter_preserves _).bind fun _ => ?_
  refine (Machine.inspect_preserves _).bind fun found => ?_
  split
  · exact .pure _
  · exact Machine.alter_preserves _

theorem record_preserves (path : Path) (message : Text) (ht : type.Encodable) :
    Action.Preserves (Session.IsSound (σ := σ)) (record path type message) := by
  refine (Session.onMachine_preserves Machine.readClock_preserves).bind fun moment => ?_
  refine (Session.onMachine_preserves (Machine.alter_preserves _)).bind fun _ => ?_
  intro s h
  refine ⟨fun c hc => ?_, h.clock⟩
  rcases Members.mem_put hc with hc | hc
  · rw [hc]
    exact ht
  · exact h.counts c hc

/-- An event is only logged if its message has a UTF-8 form. -/
theorem record_yields (path : Path) (type message : Text) :
    Action.Yields (record (σ := σ) path type message) fun _ => message.Encodable := by
  refine (Action.Yields.trivial _).bind fun moment _ => ?_
  have happend : Action.Yields
      (Machine.alter fun fs => fs.appendText path (line moment type message))
      fun _ => message.Encodable := by
    refine Machine.alter_yields fun _ _ ha => ?_
    have hline := FileSystem.encodable_of_appendText ha
    simp only [line, encodable_append] at hline
    exact hline.1.2
  exact (happend.lift).bind fun _ h => Action.Yields.const h _

/-- A property of sessions that neither the host nor entries of the log take away. -/
structure IsKept (path : Path) (i : Session σ → Prop) : Prop where
  host : Session.IsHostless i
  add : ∀ {e : LogEntry}, e.type.Encodable → Action.Preserves i (add path e)

theorem isKept_isSound (path : Path) : IsKept path (Session.IsSound (σ := σ)) :=
  ⟨Session.isHostless_isSound, fun ht =>
    (Action.Preserves.ofExcept _).bind fun _ => record_preserves _ _ ht⟩

/-- An entry is only added if its message has a UTF-8 form. -/
theorem add_yields (path : Path) (e : LogEntry) :
    Action.Yields (add (σ := σ) path e) fun _ => ∃ t, e.message = .ok t ∧ t.Encodable := by
  have hmessage : Action.Yields (σ := Session σ)
      (Action.ofExcept (e.message.mapError Failure.number)) fun t => e.message = .ok t := by
    refine .ofExcept fun t h => ?_
    cases hm : e.message with
    | ok shown =>
      rw [hm] at h
      exact congrArg Except.ok (Except.ok.inj h)
    | error e =>
      rw [hm] at h
      cases h
  refine hmessage.bind fun t ht => ?_
  intro s x u hx
  exact ⟨t, ht, record_yields path e.type t hx⟩

theorem encodable_name (kind : CallKind) : kind.name.Encodable := by
  cases kind <;> exact encodable_ofString _

theorem encodable_of_mem_types {type : Text} (h : type ∈ types) : type.Encodable := by
  have hall : ∀ type ∈ types, type.Encodable := by decide
  exact hall type h

/-- Logging keeps what neither the host nor entries of the log take away. -/
theorem logged_preserves {i : Session σ → Prop} (h : IsKept path i) (driver : Driver σ) :
    (logged path driver).Preserves i := by
  rw [logged_eq]
  exact loggedBy_preserves (Session.onHost_preserves h.host)
    (fun _ htype => h.add (encodable_of_mem_types htype)) driver

/-- All frames that a logged driver gives can be shown, since they were logged. -/
theorem logged_yields (path : Path) (driver : Driver σ) :
    (logged path driver).Yields Json.IsShowable where
  captureSnapshot := (Action.Yields.trivial _).bind fun snapshot _ =>
    (add_yields _ _).bind fun _ h => .pure (by
      obtain ⟨t, ht, he⟩ := h
      obtain ⟨shown, hshown, rfl⟩ := map_eq_ok_iff.mp ht
      exact Json.isShowable_of_shortPlain hshown (encodable_append.mp he).2)
  readFrameCount := (Action.Yields.trivial _).bind fun count _ =>
    (add_yields _ _).bind fun _ h => .pure (by
      obtain ⟨t, ht, he⟩ := h
      exact Json.isShowable_of_shortPlain ht he)

end EventLog

namespace Artifact

theorem encodable_fileName (number : Nat) (label : Text) : (fileName number label).Encodable := by
  simp [fileName]

theorem save_preserves (directory : Path) (number : Nat) (c : LabelledSnapshot) :
    Action.Preserves Machine.IsTimed (save directory number c) := by
  refine (Action.Preserves.ofExcept _).bind fun decoded => ?_
  exact (Machine.update_preserves _).bind fun _ => .pure _

theorem saveFrom_preserves (directory : Path) (number : Nat) (captures : List LabelledSnapshot) :
    Action.Preserves Machine.IsTimed (saveFrom directory number captures) := by
  induction captures generalizing number with
  | nil => exact .pure _
  | cons c rest ih =>
    exact (save_preserves _ _ _).bind fun _ => (ih _).bind fun _ => .pure _

variable {p : Json → Prop}

/-- What does not depend on the frame of an artifact: its file has a name with a UTF-8 form, and the
size of its image can be shown. -/
structure IsReportable (a : Artifact) : Prop where
  name : a.path.name.Encodable
  width : (Number.int a.width).isShort = true
  height : (Number.int a.height).isShort = true

/-- A saved snapshot keeps its frame. -/
theorem save_yields (directory : Path) (number : Nat) (c : LabelledSnapshot) :
    Action.Yields (save directory number c) fun a => a.frame = c.frame ∧ a.IsReportable := by
  have hdecode : Action.Yields (σ := Machine) (Action.ofExcept
      ((Capture.decode Capture.byteLimit c.image).mapError Failure.ofCapture))
      fun decoded => decoded.2.pixels ≤ ImageSize.pixelLimit :=
    .ofExcept fun _ h => Capture.pixels_le_of_decode (mapError_eq_ok_iff.mp h)
  refine hdecode.bind fun ⟨bytes, size⟩ hsize => ?_
  have hside {side other : Nat} (h : max 1 side * max 1 other ≤ ImageSize.pixelLimit) :
      (Number.int side).isShort = true := by
    have hle : max 1 side ≤ max 1 side * max 1 other :=
      Nat.le_mul_of_pos_right _ (Nat.lt_of_lt_of_le Nat.one_pos (Nat.le_max_left 1 other))
    have hlimit : ImageSize.pixelLimit ≤ 2 ^ 63 := by decide
    exact Number.isShort_int (by omega) (by omega)
  have hwidth : (Number.int size.width).isShort = true := hside hsize
  have hheight : (Number.int size.height).isShort = true :=
    hside ((Nat.le_of_eq (Nat.mul_comm _ _)).trans hsize)
  have hname : (directory.child (fileName number c.label)).name.Encodable := by
    simp [Path.child, Path.name, encodable_fileName]
  exact (Action.Yields.trivial _).bind fun _ _ => .pure ⟨rfl, hname, hwidth, hheight⟩

theorem saveFrom_yields (directory : Path) (number : Nat) {captures : List LabelledSnapshot}
    (h : ∀ c ∈ captures, p c.frame) :
    Action.Yields (saveFrom directory number captures)
      fun artifacts => ∀ a ∈ artifacts, p a.frame ∧ a.IsReportable := by
  induction captures generalizing number with
  | nil => exact .pure (by simp)
  | cons c rest ih =>
    refine (save_yields _ _ _).bind fun a ha => ?_
    refine (ih _ fun c hc => h c (List.mem_cons_of_mem _ hc)).bind fun others hothers => .pure ?_
    intro b hb
    rcases List.mem_cons.mp hb with rfl | hb
    · exact ⟨ha.1 ▸ h c List.mem_cons_self, ha.2⟩
    · exact hothers b hb

end Artifact

namespace Host

theorem visit_preserves {i : Session σ → Prop} (hi : Session.IsHostless i) (host : Host σ)
    (settings : Settings) (files : FileSystem) {body : Action (Session σ) α}
    (h : Action.Preserves i body) :
    Action.Preserves i (host.visit Session.onHost settings files body) := by
  refine (Session.onHost_preserves hi _).bind fun _ => h.attempt.bind fun r => ?_
  cases r with
  | ok x => exact (Session.onHost_preserves hi _).bind fun _ => .pure _
  | error e => exact (Session.onHost_preserves hi _).bind fun _ => .fail _

theorem visit_yields (host : Host σ) (settings : Settings) (files : FileSystem)
    {body : Action (Session σ) α} {q : α → Prop} (h : Action.Yields body q) :
    Action.Yields (host.visit Session.onHost settings files body) q := by
  refine (Action.Yields.trivial _).bind fun _ _ => h.attempt.bind fun r hr => ?_
  cases r with
  | ok x => exact (Action.Yields.trivial _).bind fun _ _ => .pure (hr x rfl)
  | error e => exact (Action.Yields.trivial _).bind fun _ _ => .fail _

end Host

end Replay
