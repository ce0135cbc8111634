import Replay.Proofs.RunArtifacts

namespace Replay

open FileSystem

/-- The names of the files that a run writes. -/
def Run.IsOutput (name : Text) : Prop :=
  name ∈ [Run.logName, Report.reportName, Report.resultName] ∨
    ∃ number label, name = Artifact.fileName number label

theorem Run.IsOutput.ne_dots {name : Text} (h : IsOutput name) : name ≠ Path.dots := by
  rcases h with h | ⟨number, label, rfl⟩
  · have hall : ∀ name ∈ [logName, Report.reportName, Report.resultName], name ≠ Path.dots := by
      decide
    exact hall name h
  · exact Artifact.fileName_ne_dots number label

namespace FileSystem

variable {fs fs' fs'' : FileSystem} {d k : Location} {name : Text} {n : Node}

/-- Nothing but the nodes differs: paths lead to the same places, and the same is refused. -/
def IsVersion (fs fs' : FileSystem) : Prop := { fs' with nodes := fs.nodes } = fs

namespace IsVersion

theorem refl (fs : FileSystem) : IsVersion fs fs := rfl

theorem trans (h : IsVersion fs fs') (h' : IsVersion fs' fs'') : IsVersion fs fs'' := by
  unfold IsVersion at h h' ⊢
  calc { fs'' with nodes := fs.nodes }
      = { fs' with nodes := fs.nodes } :=
        congrArg (fun f : FileSystem => { f with nodes := fs.nodes }) h'
    _ = fs := h

theorem cwd (h : IsVersion fs fs') : fs'.cwd = fs.cwd := by
  unfold IsVersion at h
  rw [← h]

theorem refuses (h : IsVersion fs fs') : fs'.refuses = fs.refuses := by
  unfold IsVersion at h
  rw [← h]

theorem put (fs : FileSystem) (l : Location) (n : Node) : IsVersion fs (fs.put l n) := by
  unfold FileSystem.put
  split <;> rfl

theorem of_makeDirectory {p : Path} (h : fs.makeDirectory p = .ok fs') : IsVersion fs fs' := by
  unfold makeDirectory at h
  split at h
  · cases h
  · split at h
    · cases h
    · split at h
      · cases h
      · split at h
        · cases h
        · cases h
        · split at h
          · cases h
          · cases h
            exact put _ _ _

end IsVersion

theorem snd_accept (fs : FileSystem) (p : Path) (e : FileError) : (fs.accept p e).2 = fs := by
  unfold accept
  split
  · split <;> rfl
  · rfl

namespace IsVersion

theorem ensureDirectory (fs : FileSystem) (p : Path) : IsVersion fs (fs.ensureDirectory p).2 := by
  unfold FileSystem.ensureDirectory
  split
  next hmade => exact of_makeDirectory hmade
  next =>
    rw [snd_accept]
    exact refl _

theorem makeDirectories (fs : FileSystem) (p : Path) : IsVersion fs (fs.makeDirectories p).2 := by
  fun_induction FileSystem.makeDirectories fs p with
  | case1 p fs' hmade => exact of_makeDirectory hmade
  | case2 p q hnames hmade => exact refl _
  | case3 p q hnames hmade hshorter fs' habove ih =>
    rw [habove] at ih
    exact ih.trans (ensureDirectory fs' p)
  | case4 p q hnames hmade hshorter e fs' habove ih =>
    rw [habove] at ih
    exact ih
  | case5 p e _ hmade =>
    rw [snd_accept]
    exact refl _

end IsVersion

/-- Nothing changes but the files of a run in the directory, and that directories are added on the
way to it. -/
structure Confined (d : Location) (fs fs' : FileSystem) : Prop where
  version : IsVersion fs fs'
  nodes : ∀ k, (∃ name bytes, Run.IsOutput name ∧ k = d ++ [name] ∧
      fs'.node? k = some (.file bytes)) ∨
    fs'.node? k = fs.node? k ∨
    (k <+: d ∧ fs.node? k = none ∧ fs'.node? k = some .directory)

namespace Confined

theorem refl (d : Location) (fs : FileSystem) : Confined d fs fs :=
  ⟨.refl _, fun _ => .inr (.inl rfl)⟩

theorem trans (h : Confined d fs fs') (h' : Confined d fs' fs'') : Confined d fs fs'' := by
  refine ⟨h.version.trans h'.version, fun k => ?_⟩
  rcases h'.nodes k with hfile | hsame' | ⟨hway, hnone', hmade⟩
  · exact .inl hfile
  · rw [hsame']
    exact h.nodes k
  · rcases h.nodes k with ⟨_, _, -, -, hfile⟩ | hsame | ⟨-, -, hmade'⟩
    · rw [hfile] at hnone'
      cases hnone'
    · exact .inr (.inr ⟨hway, hsame ▸ hnone', hmade⟩)
    · rw [hmade'] at hnone'
      cases hnone'

theorem put (fs : FileSystem) (d : Location) (h : Run.IsOutput name) (bytes : Bytes) :
    Confined d fs (fs.put (d ++ [name]) (.file bytes)) := by
  have hne : d ++ [name] ≠ [] := by simp
  refine ⟨.put _ _ _, fun k => ?_⟩
  by_cases hk : k = d ++ [name]
  · exact .inl ⟨name, bytes, h, hk, by rw [node?_put hne, if_pos hk]⟩
  · exact .inr (.inl (by rw [node?_put hne, if_neg hk]))

end Confined

theorem confined_makeDirectories (hd : IsPlain d) (fs : FileSystem) :
    Confined d fs (fs.makeDirectories (.ofLocation d)).2 := by
  have hmade : fs.makeDirectories (.ofLocation d) =
      (_, (fs.makeDirectories (.ofLocation d)).2) := rfl
  obtain ⟨hway, -⟩ := clearsWay_of_makeDirectories hd hmade
  exact ⟨.makeDirectories _ _, fun k => .inr (hway k)⟩

theorem confined_writeText (hd : IsPlain d) (hname : Run.IsOutput name) (fs : FileSystem)
    (t : Text) : Confined d fs (fs.writeText ((Path.ofLocation d).child name) t).2 := by
  unfold writeText
  split
  next => exact .refl _ _
  next l old hopen =>
    obtain rfl := eq_of_openFile (hd.concat hname.ne_dots) hopen
    split
    next => exact .put _ _ hname _
    next => exact .put _ _ hname _

theorem confined_appendText (hd : IsPlain d) (hname : Run.IsOutput name) (fs : FileSystem)
    (t : Text) : Confined d fs (fs.appendText ((Path.ofLocation d).child name) t).2 := by
  rw [Path.child_ofLocation]
  rcases appendText_eq (hd.concat hname.ne_dots) t with heq | ⟨bytes, heq⟩
  · rw [heq]
    exact .refl _ _
  · rw [heq]
    exact .put _ _ hname _

theorem confined_writeBytes (hd : IsPlain d) (hname : Run.IsOutput name) {bytes : Bytes}
    (h : fs.writeBytes ((Path.ofLocation d).child name) bytes = .ok fs') : Confined d fs fs' := by
  rw [writeBytes_eq (hd.concat hname.ne_dots) h]
  exact .put _ _ hname _

end FileSystem

/-- The machine differs in the directory alone, and in how often its clock was read. -/
structure Machine.Confined (d : Location) (m m' : Machine) : Prop where
  files : m.files.Confined d m'.files
  clock : m'.now.reading = m.now.reading

namespace Machine

variable {d : Location} {before : Machine} {α : Type}

theorem readClock_confined : Action.Preserves (Confined d before) readClock :=
  fun _ h => ⟨h.files, h.clock⟩

theorem inspect_confined (f : FileSystem → Except FileError α) :
    Action.Preserves (Confined d before) (inspect f) := fun _ h => h

theorem alter_confined {f : FileSystem → Except FileError Unit × FileSystem}
    (hf : ∀ fs, FileSystem.Confined d fs (f fs).2) :
    Action.Preserves (Confined d before) (alter f) :=
  fun _ h => ⟨h.files.trans (hf _), h.clock⟩

theorem update_confined {f : FileSystem → Except FileError FileSystem}
    (hf : ∀ fs fs', f fs = .ok fs' → FileSystem.Confined d fs fs') :
    Action.Preserves (Confined d before) (update f) := by
  intro m h
  unfold update
  split
  next fs hdone => exact ⟨h.files.trans (hf _ _ hdone), h.clock⟩
  next => exact h

end Machine

/-- The session differs from the machine that was in a directory alone. -/
def Session.IsConfined {σ : Type} (d : Location) (before : Machine) (s : Session σ) : Prop :=
  before.Confined d s.machine

variable {σ α : Type} {d : Location} {before : Machine}

theorem Session.onMachine_apply {a : Action Machine α} {r : Except Failure α} {s : Session σ}
    {m : Machine} (h : a s.machine = (r, m)) : onMachine a s = (r, { s with machine := m }) := by
  rw [onMachine, Action.lift, h]

theorem Session.onMachine_confined {a : Action Machine α}
    (h : Action.Preserves (before.Confined d) a) :
    Action.Preserves (IsConfined (σ := σ) d before) (onMachine a) := fun _ hs => h _ hs

namespace EventLog

theorem start_confined (hd : IsPlain d) :
    Action.Preserves (before.Confined d) (start ((Path.ofLocation d).child Run.logName)) := by
  unfold start
  rw [Path.parent_child]
  refine (Machine.alter_confined (confined_makeDirectories hd)).bind fun _ => ?_
  refine (Machine.inspect_confined _).bind fun found => ?_
  split
  · exact .pure _
  · exact Machine.alter_confined fun fs => confined_writeText hd (.inl (by decide)) fs _

theorem record_confined (hd : IsPlain d) (type message : Text) :
    Action.Preserves (Session.IsConfined (σ := σ) d before)
      (record ((Path.ofLocation d).child Run.logName) type message) := by
  refine (Session.onMachine_confined Machine.readClock_confined).bind fun moment => ?_
  have happend : Action.Preserves (before.Confined d) (Machine.alter fun fs =>
      fs.appendText ((Path.ofLocation d).child Run.logName) (line moment type message)) :=
    Machine.alter_confined fun fs => confined_appendText hd (.inl (by decide)) fs _
  exact (Session.onMachine_confined happend).bind fun _ => fun _ h => h

theorem isKept_confined (hd : IsPlain d) :
    IsKept ((Path.ofLocation d).child Run.logName) (Session.IsConfined (σ := σ) d before) where
  host _ _ h := h
  add _ := (Action.Preserves.ofExcept _).bind fun _ => record_confined hd _ _

end EventLog

theorem Artifact.saveFrom_confined (hd : IsPlain d) (number : Nat)
    (captures : List LabelledSnapshot) :
    Action.Preserves (before.Confined d) (saveFrom (.ofLocation d) number captures) := by
  induction captures generalizing number with
  | nil => exact .pure _
  | cons c rest ih =>
    have hsave : Action.Preserves (before.Confined d) (save (.ofLocation d) number c) := by
      refine (Action.Preserves.ofExcept _).bind fun decoded => ?_
      have hwrite : Action.Preserves (before.Confined d) (Machine.update fun fs =>
          fs.writeBytes ((Path.ofLocation d).child (fileName number c.label)) decoded.1) :=
        Machine.update_confined fun _ _ h => confined_writeBytes hd (.inr ⟨number, c.label, rfl⟩) h
      exact hwrite.bind fun _ => .pure _
    exact hsave.bind fun _ => (ih _).bind fun _ => .pure _

namespace Report

/-- A result without a directory is not reported. -/
theorem write_of_none {r : RunResult} (h : r.outputDirectory = none) :
    write r none = pure none := by
  unfold write
  rw [h]
  rfl

/-- Whatever the clock keeps, and making a directory and writing two files there, a report keeps. -/
theorem write_preserves {i : Machine → Prop} {r : RunResult}
    (h : ∀ p ∈ r.outputDirectory, p = .ofLocation d) (hclock : Action.Preserves i Machine.readClock)
    (hmake : Action.Preserves i (Machine.alter fun fs => fs.makeDirectories (.ofLocation d)))
    (hfile : ∀ name ∈ [reportName, resultName], ∀ t, Action.Preserves i
      (Machine.alter fun fs => fs.writeText ((Path.ofLocation d).child name) t)) :
    Action.Preserves i (write r none) := by
  have htitle : Action.Preserves i (titleMoment r.finishedAt) := by
    unfold titleMoment
    split
    · exact hclock
    · split
      · exact .pure _
      · exact hclock
      · exact .fail _
  have hrender : Action.Preserves i (render r) :=
    htitle.bind fun _ => (Action.Preserves.ofExcept _).bind fun _ => .pure _
  have hwrite : Action.Preserves i (writeTo r (.ofLocation d)) := by
    refine hmake.bind fun _ => hrender.bind fun report => ?_
    exact (hfile reportName (by simp) _).bind fun _ => hfile resultName (by simp) _
  cases hdirectory : r.outputDirectory with
  | none =>
    rw [write_of_none hdirectory]
    exact .pure _
  | some p =>
    obtain rfl := h p hdirectory
    unfold write
    rw [hdirectory]
    refine hwrite.attempt.bind fun q => ?_
    cases q with
    | ok _ => exact .pure _
    | error e =>
      dsimp only
      split
      · exact .pure _
      · exact .fail _

theorem write_confined (hd : IsPlain d) {r : RunResult}
    (h : ∀ p ∈ r.outputDirectory, p = .ofLocation d) :
    Action.Preserves (before.Confined d) (write r none) := by
  refine write_preserves h Machine.readClock_confined ?_ fun name hname t => ?_
  · exact Machine.alter_confined (confined_makeDirectories hd)
  · refine Machine.alter_confined fun fs => confined_writeText hd (.inl ?_) fs t
    exact List.mem_cons_of_mem _ hname

end Report

namespace Run

variable {host : Host σ} {plan : RunPlan} {input : Json} {s : Session σ}

theorem replay_confined (host : Host σ) (plan : RunPlan) (script : Script) (hd : IsPlain d) :
    Action.Preserves (Session.IsConfined d before)
      (replay host plan script (.ofLocation d)) := by
  have hkept : EventLog.IsKept ((Path.ofLocation d).child logName)
      (Session.IsConfined (σ := σ) d before) := EventLog.isKept_confined hd
  refine (Session.onMachine_confined (EventLog.start_confined hd)).bind fun _ => ?_
  refine (EventLog.record_confined hd _ _).bind fun _ => ?_
  refine (Action.Preserves.read _).bind fun files => ?_
  refine (Host.visit_preserves hkept.host _ _ _ ?_).bind fun execution => ?_
  · exact Driver.execute_preserves (EventLog.logged_preserves hkept _) _ _ _ _
  · exact (Session.onMachine_confined (Artifact.saveFrom_confined hd _ _)).bind fun _ => .pure _

theorem makeRunDirectory_of_error {m : Machine} {root : Path} {e : FileError}
    (h : m.files.resolve root = .error e) :
    Machine.makeRunDirectory root m = (.error (.file e), m) := by
  have hinspect : Machine.inspect (fun fs => fs.resolve root) m = (.error (.file e), m) := by
    show ((m.files.resolve root).mapError Failure.file, m) = _
    rw [h]
    rfl
  exact Action.bind_error _ hinspect

/-- The directory of a run is made, if at all, in the output root under the name of its moment. -/
theorem makeRunDirectory_confined {m : Machine} {root : Path} {l : Location} (hl : IsPlain l)
    (hresolve : m.files.resolve root = .ok (.ofLocation l)) :
    let d := l ++ [(m.now.reading m.now.taken).directoryName]
    let made := Machine.makeRunDirectory root m
    m.Confined d made.2 ∧ ∀ p, made.1 = .ok p → p = .ofLocation d := by
  intro d made
  have hd : IsPlain d := hl.concat (Moment.directoryName_ne_dots _)
  have hinspect : Machine.inspect (fun fs => fs.resolve root) m = (.ok (.ofLocation l), m) := by
    show ((m.files.resolve root).mapError Failure.file, m) = _
    rw [hresolve]
    rfl
  have hmade : made = (Machine.alter (fun fs => fs.makeDirectories (.ofLocation d)) >>=
      fun _ => pure (Path.ofLocation d)) { m with now := m.now.next.2 } :=
    Action.bind_ok _ hinspect
  rw [hmade]
  constructor
  · have hconfined : Action.Preserves (m.Confined d)
        (Machine.alter fun fs => fs.makeDirectories (.ofLocation d)) :=
      Machine.alter_confined (confined_makeDirectories hd)
    exact hconfined.bind (fun _ => .pure (Path.ofLocation d)) _ ⟨.refl _ _, rfl⟩
  · intro p hp
    obtain ⟨_, _, -, h⟩ := Action.bind_eq_ok_iff.mp (Prod.ext hp rfl)
    cases h
    rfl

theorem progress_of_refused (host : Host σ) (plan : RunPlan) {e : ScriptFailure}
    (h : Script.read .standard .standard input = .error e) (t : Session σ) :
    progress host plan input t = (.ok ⟨none, .error (.ofScript e)⟩, t) := by
  rw [progress, h]
  rfl

/-- How a run of a script comes to its report. -/
theorem progress_of_read (host : Host σ) (plan : RunPlan) {script : Script}
    (hread : Script.read .standard .standard input = .ok script) (s : Session σ) :
    progress host plan input s =
      match Session.onMachine (Machine.makeRunDirectory plan.settings.outputRoot) s with
      | (.error e, t) => (.ok ⟨none, .error e⟩, t)
      | (.ok directory, t) =>
        (.ok ⟨some directory, (replay host plan script directory t).1⟩,
          (replay host plan script directory t).2) := by
  rw [progress, hread]
  simp only [Action.bind_apply, Action.attempt_apply]
  cases Session.onMachine (Machine.makeRunDirectory plan.settings.outputRoot) s with
  | mk r t => cases r <;> rfl

/-- Up to its report a run changes its own directory alone. -/
theorem progress_confined (host : Host σ) {script : Script} {l : Location} (hl : IsPlain l)
    (hread : Script.read .standard .standard input = .ok script)
    (hresolve : s.machine.files.resolve plan.settings.outputRoot = .ok (.ofLocation l)) :
    let d := l ++ [directoryName s]
    let after := progress host plan input (started s)
    after.2.IsConfined d (started s).machine ∧
      ∀ p, after.1 = .ok p → ∀ q ∈ p.directory, q = .ofLocation d := by
  intro d after
  have hd : IsPlain d := hl.concat (Moment.directoryName_ne_dots _)
  obtain ⟨hmachine, hpath⟩ := makeRunDirectory_confined (m := (started s).machine) hl hresolve
  have hmade : ((Session.onMachine (Machine.makeRunDirectory plan.settings.outputRoot))
      (started s)).2.IsConfined d (started s).machine := hmachine
  have hafter : after = _ := progress_of_read host plan hread (started s)
  rw [hafter]
  cases hr : Session.onMachine (Machine.makeRunDirectory plan.settings.outputRoot)
      (started s) with
  | mk r t =>
    rw [hr] at hmade
    cases r with
    | error e =>
      refine ⟨hmade, fun p hp q hq => ?_⟩
      cases hp
      cases hq
    | ok directory =>
      obtain rfl := hpath directory (congrArg Prod.fst (Session.eq_of_onMachine hr))
      refine ⟨replay_confined host plan script hd t hmade, fun p hp q hq => ?_⟩
      cases hp
      exact (Option.some.inj hq).symm

/-- Whatever the clock and the report keep, the end of a run keeps. -/
theorem finish_preserves {i : Machine → Prop} (plan : RunPlan) (began : Moment) {r : RunResult}
    (hclock : Action.Preserves i Machine.readClock)
    (hwrite : ∀ r' : RunResult, r'.outputDirectory = r.outputDirectory →
      Action.Preserves i (Report.write r' none)) :
    Action.Preserves i (finish plan began r) := by
  refine hclock.bind fun finished => (Action.Preserves.ofExcept _).bind fun runtime => ?_
  refine Action.Preserves.bind (hwrite _ ?_) fun _ => .pure _
  rfl

/-- A run that came so far ends with its report. -/
theorem perform_eq {p : Progress} {t : Session σ}
    (hp : progress host plan input (started s) = (.ok p, t)) :
    perform host plan input s = Session.onMachine
      (finish plan (s.machine.now.reading s.machine.now.taken) (result plan p t.counts)) t := by
  show ((progress host plan input >>= _) >>= _) (started s) = _
  rw [Action.bind_apply, Action.bind_apply, hp]
  rfl

/-- The directory of a run: in its output root, under the name of the moment when it is made. A
run has none if its value is no script, or if its output root cannot be found. -/
def ownDirectory? (plan : RunPlan) (input : Json) (s : Session σ) : Option Location :=
  match Script.read .standard .standard input, s.machine.files.resolve plan.settings.outputRoot with
  | .ok _, .ok root => some (root.names ++ [directoryName s])
  | _, _ => none

/-- The moment that the directory of a run is named for. -/
def stamp? (plan : RunPlan) (input : Json) (s : Session σ) : Option Moment :=
  (ownDirectory? plan input s).map fun _ => s.machine.now.reading (s.machine.now.taken + 1)

theorem exists_of_ownDirectory? (hcwd : IsPlain s.machine.files.cwd)
    (h : ownDirectory? plan input s = some d) :
    ∃ script l, Script.read .standard .standard input = .ok script ∧ IsPlain l ∧
      s.machine.files.resolve plan.settings.outputRoot = .ok (.ofLocation l) ∧
      d = l ++ [directoryName s] := by
  unfold ownDirectory? at h
  split at h
  next script root hread hresolve =>
    obtain ⟨l, rfl, hl⟩ := exists_of_resolve hcwd hresolve
    exact ⟨script, l, hread, hl, hresolve, (Option.some.inj h).symm⟩
  · cases h

/-- What a run with a directory changes, however it ends. -/
theorem perform_confined (host : Host σ) (hcwd : IsPlain s.machine.files.cwd)
    (h : ownDirectory? plan input s = some d) :
    let after := perform host plan input s
    s.machine.Confined d after.2.machine ∧
      ∀ r, after.1 = .ok r → ∀ p ∈ r.outputDirectory, p = .ofLocation d := by
  intro after
  obtain ⟨script, l, hread, hl, hresolve, rfl⟩ := exists_of_ownDirectory? hcwd h
  have hd : IsPlain (l ++ [directoryName s]) := hl.concat (Moment.directoryName_ne_dots _)
  obtain ⟨hconfined, hpath⟩ := progress_confined host hl hread hresolve
  obtain ⟨p, t, hp⟩ := progress_ok host plan input (started s)
  rw [hp] at hconfined hpath
  have hown : ∀ q ∈ (result plan p t.counts).outputDirectory,
      q = .ofLocation (l ++ [directoryName s]) := by
    rw [outputDirectory_result]
    exact hpath p rfl
  have hfinish : after = Session.onMachine (finish plan _ (result plan p t.counts)) t :=
    perform_eq hp
  constructor
  · rw [hfinish]
    have hbegun : s.machine.Confined (l ++ [directoryName s]) t.machine :=
      ⟨hconfined.files, hconfined.clock⟩
    refine finish_preserves plan _ Machine.readClock_confined (fun r' hr' => ?_) _ hbegun
    exact Report.write_confined hd (hr' ▸ hown)
  · intro r hr q hq
    obtain ⟨finished, runtime, w, rfl, -⟩ :=
      write_of_finish (Session.eq_of_onMachine (hfinish.symm.trans (Prod.ext hr rfl)))
    rw [outputDirectory_timed] at hq
    exact hown q hq

/-- A run without a directory changes no files. -/
theorem perform_of_none (host : Host σ) (h : ownDirectory? plan input s = none) :
    let after := perform host plan input s
    after.2.machine.files = s.machine.files ∧
      after.2.machine.now.reading = s.machine.now.reading ∧
      ∀ r, after.1 = .ok r → r.outputDirectory = none := by
  intro after
  have hprogress : ∃ e, progress host plan input (started s) =
      (.ok ⟨none, .error e⟩, started s) := by
    unfold ownDirectory? at h
    cases hread : Script.read .standard .standard input with
    | error e => exact ⟨.ofScript e, progress_of_refused host plan hread (started s)⟩
    | ok script =>
      cases hresolve : s.machine.files.resolve plan.settings.outputRoot with
      | ok root =>
        rw [hread, hresolve] at h
        cases h
      | error e =>
        have hmade : Session.onMachine (Machine.makeRunDirectory plan.settings.outputRoot)
            (started s) = (.error (.file e), started s) :=
          Session.onMachine_apply (makeRunDirectory_of_error hresolve)
        refine ⟨.file e, (progress_of_read host plan hread (started s)).trans ?_⟩
        rw [hmade]
  obtain ⟨e, hp⟩ := hprogress
  have hfinish : after = Session.onMachine (finish plan _ (result plan ⟨none, .error e⟩ [])) _ :=
    perform_eq hp
  have hkept : Action.Preserves (fun m : Machine => m.files = s.machine.files ∧
      m.now.reading = s.machine.now.reading)
      (finish plan (s.machine.now.reading s.machine.now.taken)
        (result plan ⟨none, .error e⟩ [])) := by
    refine finish_preserves plan _ (fun _ hm => hm) fun r' hr' => ?_
    rw [Report.write_of_none hr']
    exact .pure _
  obtain ⟨hfiles, hclock⟩ := hkept (started s).machine ⟨rfl, rfl⟩
  refine ⟨hfinish ▸ hfiles, hfinish ▸ hclock, fun r hr => ?_⟩
  obtain ⟨finished, runtime, w, rfl, -⟩ :=
    write_of_finish (Session.eq_of_onMachine (hfinish.symm.trans (Prod.ext hr rfl)))
  rfl

/-- The end of a run without a directory reads the clock, and that is all. -/
theorem finish_of_none {x y : Double} (h0 : plan.stopwatch 0 = .real x)
    (h1 : plan.stopwatch 1 = .real y) (began : Moment) {r : RunResult} (m : Machine)
    (h : r.outputDirectory = none) :
    ∃ finished runtime, finish plan began r m =
      (.ok (r.timed began finished runtime), { m with now := m.now.next.2 }) := by
  let runtime : Number := .real ((y.sub x).rounded 2)
  let timed := r.timed began (m.now.reading m.now.taken) runtime
  have hfinish : finish plan began r m = (do
      let _ ← Report.write timed none
      pure timed : Action Machine RunResult) { m with now := m.now.next.2 } := by
    rw [finish, h0, h1]
    rfl
  refine ⟨m.now.reading m.now.taken, runtime, hfinish.trans ?_⟩
  have hnone : timed.outputDirectory = none := (outputDirectory_timed r began _ runtime).trans h
  rw [Report.write_of_none hnone]
  rfl

/-- A value that is no script has no effect, however late its fault is found: on every host alike
the run gives the fault as its only diagnostic and no directory, the host is as it was, and so are
the files. -/
theorem perform_of_refused (plan : RunPlan) {input : Json} {e : ScriptFailure} (s : Session σ)
    (hread : Script.read .standard .standard input = .error e)
    (hw : ∀ i, ∃ x, plan.stopwatch i = .real x) :
    ∃ r t, (∀ host : Host σ, perform host plan input s = (.ok r, t)) ∧
      t.host = s.host ∧ t.machine.files = s.machine.files ∧
      r.ok = false ∧ r.outputDirectory = none ∧ r.eventCounts = [] ∧ r.frameCount = .int 0 ∧
      r.captures = [] ∧ r.diagnostics = [(Failure.ofScript e).message] := by
  obtain ⟨x, h0⟩ := hw 0
  obtain ⟨y, h1⟩ := hw 1
  let refused := result plan ⟨none, .error (.ofScript e)⟩ []
  let began := s.machine.now.reading s.machine.now.taken
  let m := (started s).machine
  obtain ⟨finished, runtime, hfinish⟩ := finish_of_none (r := refused) h0 h1 began m rfl
  refine ⟨refused.timed began finished runtime, ⟨s.host, { m with now := m.now.next.2 }, []⟩,
    fun host => ?_, rfl, rfl, rfl, rfl, rfl, rfl, rfl, rfl⟩
  have hprogress := progress_of_refused host plan hread (started s)
  exact (perform_eq hprogress).trans (Session.onMachine_apply hfinish)

/-- Frames beyond the limit at the last of 64 steps. -/
theorem perform_of_overdrawn :
    let input := Script.payload ⟨List.replicate 63 (.run 1) ++ [.run 58]⟩
    Script.read .standard .standard input = .error (.invalid (.frameLimit 63 120 121)) ∧
      ∃ r t, (∀ host : Host Stage, perform host .still input .blank = (.ok r, t)) ∧
        t.host = Session.blank.host ∧ t.machine.files = Session.blank.machine.files ∧
        r.ok = false ∧ r.outputDirectory = none ∧ r.eventCounts = [] ∧
        r.diagnostics = ["steps[63] exceeds frame limit 120 (total requested: 121)"] := by
  intro input
  have hread : Script.read .standard .standard input =
      .error (.invalid (.frameLimit 63 120 121)) := by decide +kernel
  obtain ⟨r, t, hrun, hhost, hfiles, hok, hdirectory, hcounts, -, -, hdiagnostics⟩ :=
    perform_of_refused .still .blank hread fun _ => ⟨.zero, rfl⟩
  refine ⟨hread, r, t, hrun, hhost, hfiles, hok, hdirectory, hcounts, hdiagnostics.trans ?_⟩
  decide +kernel

end Run

end Replay
