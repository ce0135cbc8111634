import Replay.Browser
import Replay.Proofs.CaptureFiles
import Replay.Proofs.ReplaySuccess
import Replay.Proofs.RunCalls
import Replay.Proofs.RunOutcome

namespace Replay

open Text FileSystem

variable {σ : Type}

theorem Script.length_labels (script : Script) :
    script.labels.length = script.steps.countP Step.isSnap := by
  rw [labels, List.length_filterMap_eq_countP]
  congr 1
  funext step
  cases step <;> rfl

theorem Script.length_labels_le {input : Json} {script : Script}
    (h : read .standard .standard input = .ok script) : script.labels.length ≤ 1 := by
  rw [length_labels]
  exact (isBounded_of_read h).snaps

/-- A number from zero to a standard length, as it is or in proportion, has a text. -/
theorem Number.isShort_of_inside {x : Number} {high : Int} (hlow : x.lt (.int 0) = false)
    (hhigh : (Number.int high).lt x = false) (hmost : high ≤ 640) :
    x.isShort = true ∧ ∀ length y, 0 ≤ length → length ≤ 640 → x.mul (.int length) = .ok y →
      y.isShort = true := by
  cases x with
  | real d =>
    refine ⟨rfl, fun length y _ _ hy => ?_⟩
    obtain ⟨a, -, hy⟩ := bind_eq_ok_iff.mp hy
    obtain ⟨b, -, hy⟩ := bind_eq_ok_iff.mp hy
    cases hy
    rfl
  | int n =>
    have hlow : 0 ≤ n := by simpa [Number.lt] using hlow
    have hhigh : n ≤ high := by simpa [Number.lt] using hhigh
    refine ⟨isShort_int (by omega) (by omega), fun length y h0 h1 hy => ?_⟩
    obtain rfl := Except.ok.inj hy
    have h2 : 0 ≤ n * length := Int.mul_nonneg hlow h0
    have h3 : n * length ≤ 640 * 640 := by
      calc n * length ≤ n * 640 := Int.mul_le_mul_of_nonneg_left h1 hlow
        _ ≤ 640 * 640 := by omega
    exact isShort_int (n := n * length) (by omega) (by omega)

/-- The numbers of a pointer event on the standard screen have a text. -/
theorem Event.isShort_of_form {fields : Members Json} {step : PointerStep} {e : Event}
    (hform : Script.PointerForm .standard fields step) (h : ofStep .standard step = .ok e) :
    e.isShort = true := by
  obtain ⟨position, hposition, h⟩ := bind_eq_ok_iff.mp h
  obtain rfl := Except.ok.inj h
  have hpointer : (Number.int step.pointer).isShort = true := by
    have := hform.int64
    simp only [Script.isInt64, Bool.and_eq_true, decide_eq_true_eq] at this
    exact Number.isShort_int (by omega) (by omega)
  have hx := hform.xInside
  have hy := hform.yInside
  cases hs : step.space with
  | pixels =>
    rw [hs] at hposition hx hy
    obtain rfl := Except.ok.inj hposition
    simp [isShort, hpointer, (Number.isShort_of_inside hx.1 hx.2 (by decide)).1,
      (Number.isShort_of_inside hy.1 hy.2 (by decide)).1]
  | norm01 =>
    rw [hs] at hposition hx hy
    obtain ⟨x, hxmul, hposition⟩ := bind_eq_ok_iff.mp hposition
    obtain ⟨y, hymul, hposition⟩ := bind_eq_ok_iff.mp hposition
    obtain rfl := Except.ok.inj hposition
    have hxshort := (Number.isShort_of_inside hx.1 hx.2 (by decide)).2 360 x (by decide)
      (by decide) hxmul
    have hyshort := (Number.isShort_of_inside hy.1 hy.2 (by decide)).2 640 y (by decide)
      (by decide) hymul
    simp [isShort, hpointer, hxshort, hyshort]

/-- All that is logged before the calls of an accepted script can be logged. -/
theorem Script.isLoggable_of_read {input : Json} {script : Script}
    (h : read .standard .standard input = .ok script) :
    ∀ step ∈ script.steps, step.IsLoggable .standard := by
  intro step hstep
  have hbounded := isBounded_of_read h
  obtain ⟨members, values, -, -, -, -, -, hforms, -⟩ := read_eq_ok_iff.mp h
  obtain ⟨value, -, hform⟩ := exists_of_mem_right hforms hstep
  cases hform with
  | @run members x frames hr hi hs hx hpos =>
    have hnonneg : ∀ n ∈ script.steps.map Step.frames, 0 ≤ n := by
      intro n hn
      obtain ⟨other, hother, rfl⟩ := List.mem_map.mp hn
      exact frames_nonneg_of_read h other hother
    have hle : frames ≤ 120 := (List.single_le_sum hnonneg _
      (List.mem_map_of_mem (f := Step.frames) hstep)).trans hbounded.frames
    exact LogEntry.isLoggable_ofCount (Number.isShort_int (by omega) (by omega))
  | input hr hi hs hfields =>
    intro e he
    exact LogEntry.isLoggable_ofEvent (Event.isEncodable_of_ofStep he)
      (Event.isShort_of_form hfields he)
  | snap => trivial

/-- A host on which a script can be replayed. It opens with the files as they are, carries out the
calls of the script, and closes; all checks of the budget are in time; the snapshots can be decoded,
and all frames can be logged. -/
structure Host.Serves (host : Host σ) (plan : RunPlan) (script : Script) (files : FileSystem)
    (s entered served left : σ) : Prop where
  opens : host.enter plan.settings files s = (.ok (), entered)
  serves : ∀ calls, script.calls .standard = .ok calls →
    host.driver.serve calls entered = (.ok (), served)
  closes : host.leave none served = (.ok (), left)
  inTime : ∀ k ≤ script.length,
    (⟨plan.clock 0, Timing.standardBudget, .int 20000⟩ : Timing).judge k (plan.clock (k + 1)) =
      .ok ()
  images : ∀ execution t, host.driver.execute plan.clock Timing.standardBudget .standard script
    entered = (.ok execution, t) →
    ∀ c ∈ execution.captures, c.IsReadable
  frames : ∀ execution t, host.driver.execute plan.clock Timing.standardBudget .standard script
    entered = (.ok execution, t) → execution.Has Json.IsLoggable

/-- A visit during which something is carried out that succeeds on the host alone. -/
theorem Host.visit_ok {α : Type} {i : Session σ → Prop} {p : α → Prop} {host : Host σ}
    {settings : Settings} {files : FileSystem} {b : Action (Session σ) α} {a : Action σ α}
    {s : Session σ} {entered served left : σ} {x : α}
    (hi : ∀ s (host : σ), i s → i { s with host }) (hb : Action.Carries i Session.host p b a)
    (hs : i s) (hopens : host.enter settings files s.host = (.ok (), entered))
    (ha : a entered = (.ok x, served)) (hx : p x)
    (hcloses : host.leave none served = (.ok (), left)) :
    ∃ t, host.visit Session.onHost settings files b s = (.ok x, t) ∧ i t := by
  have henter : Session.onHost (host.enter settings files) s =
      (.ok (), { s with host := entered }) := by
    rw [Session.onHost, Action.lift, hopens]
  obtain ⟨u, hu, hserved, hinv⟩ := hb { s with host := entered } x served (hi s entered hs) ha hx
  have hleave : Session.onHost (host.leave none) u = (.ok (), { u with host := left }) := by
    rw [Session.onHost, Action.lift, hserved, hcloses]
  refine ⟨{ u with host := left }, ?_, hi u left hinv⟩
  rw [Host.visit, Action.bind_ok _ henter, Action.bind_apply, Action.attempt_apply, hu]
  show (Session.onHost (host.leave none) >>= _) u = _
  rw [Action.bind_ok _ hleave]
  rfl

namespace Run

/-- The machine of the session has a directory for the files of a run. -/
def IsReady (l : Location) (s : Session σ) : Prop := s.machine.files.IsRunDirectory l

theorem isNameable_of_mem_logName : ∀ c ∈ logName, c.IsNameable := by
  have hvisible : Text.IsVisible logName := by decide
  exact fun c hc => (hvisible c hc).isNameable

section

variable {α : Type} {l : Location}

theorem onMachine_succeeds {a : Action Machine α}
    (h : ∀ m : Machine, m.files.IsRunDirectory l →
      ∃ x m', a m = (.ok x, m') ∧ m'.files.IsRunDirectory l) :
    Action.Succeeds (IsReady (σ := σ) l) Session.host (Session.onMachine a) := by
  intro s hs
  obtain ⟨x, m, ha, hm⟩ := h s.machine hs
  exact ⟨x, { s with machine := m }, by rw [Session.onMachine, Action.lift, ha], rfl, hm⟩

theorem alter_succeeds {f : FileSystem → Except FileError Unit × FileSystem}
    (h : ∀ fs, fs.IsRunDirectory l → ∃ fs', f fs = (.ok (), fs') ∧ fs'.IsRunDirectory l) :
    Action.Succeeds (IsReady (σ := σ) l) Session.host (Session.onMachine (Machine.alter f)) := by
  refine onMachine_succeeds fun m hm => ?_
  obtain ⟨fs, hf, hfs⟩ := h m.files hm
  exact ⟨(), { m with files := fs }, by rw [Machine.alter, hf]; rfl, hfs⟩

/-- Events can be logged in the directory of a run. -/
theorem isOpen_log (l : Location) :
    EventLog.IsOpen (IsReady (σ := σ) l) ((Path.ofLocation l).child logName) := by
  intro type message ht hm
  have hclock : Action.Succeeds (IsReady (σ := σ) l) Session.host
      (Session.onMachine Machine.readClock) :=
    onMachine_succeeds fun m hm => ⟨_, { m with now := m.now.next.2 }, rfl, hm⟩
  refine hclock.bind fun moment => ?_
  have hline : (EventLog.line moment type message).Encodable := by
    simp [EventLog.line, ht, hm]
  refine (alter_succeeds fun fs h => ?_).bind fun _ => fun s hs => ⟨(), _, rfl, rfl, hs⟩
  exact h.exists_appendText (by decide) (by decide) isNameable_of_mem_logName hline

theorem start_succeeds (l : Location) :
    Action.Succeeds (IsReady (σ := σ) l) Session.host
      (Session.onMachine (EventLog.start ((Path.ofLocation l).child logName))) := by
  have hparent : ((Path.ofLocation l).child logName).parent = Path.ofLocation l := by
    simp [Path.parent, Path.child, Path.ofLocation]
  have hheader : EventLog.header.Encodable := encodable_ofString _
  refine onMachine_succeeds fun m hm => ?_
  have hmake : Machine.alter (fun fs => fs.makeDirectories (Path.ofLocation l)) m =
      (.ok (), m) := by
    rw [Machine.alter, hm.makeDirectories_eq]
    rfl
  obtain ⟨found, hfound⟩ := hm.exists_hasNode (by decide) (by decide) isNameable_of_mem_logName
  have hinspect : Machine.inspect (fun fs => fs.hasNode ((Path.ofLocation l).child logName)) m =
      (.ok found, m) := by
    rw [Machine.inspect, hfound]
    rfl
  obtain ⟨fs, hfs, hrun⟩ :=
    hm.exists_writeText (by decide) (by decide) isNameable_of_mem_logName hheader
  rw [EventLog.start, hparent, Action.bind_ok _ hmake, Action.bind_ok _ hinspect]
  cases found with
  | true => exact ⟨(), m, rfl, hm⟩
  | false =>
    refine ⟨(), { m with files := fs }, ?_, hrun⟩
    rw [if_neg Bool.false_ne_true, Machine.alter, hfs]
    rfl

end

/-- What is done before the host is entered. -/
def prepare (plan : RunPlan) (script : Script) : Action (Session σ) Path := do
  let directory ← Session.onMachine (Machine.makeRunDirectory plan.settings.outputRoot)
  let log := directory.child logName
  Session.onMachine (EventLog.start log)
  EventLog.record log scriptType script.payload.compact
  pure directory

theorem prepare_of_steps {plan : RunPlan} {script : Script} {directory : Path}
    {s t u v : Session σ}
    (hmade : Session.onMachine (Machine.makeRunDirectory plan.settings.outputRoot) s =
      (.ok directory, t))
    (hstart : Session.onMachine (EventLog.start (directory.child logName)) t = (.ok (), u))
    (hrecord : EventLog.record (directory.child logName) scriptType script.payload.compact u =
      (.ok (), v)) : prepare plan script s = (.ok directory, v) := by
  rw [prepare, Action.bind_ok _ hmade]
  show (Session.onMachine _ >>= _) _ = _
  rw [Action.bind_ok _ hstart, Action.bind_ok _ hrecord]
  rfl

/-- What is done from entering the host on, with the files as they are then. -/
def carryOut (host : Host σ) (plan : RunPlan) (script : Script) (directory : Path)
    (files : FileSystem) : Action (Session σ) (Script × Execution × List Artifact) := do
  let execution ← host.visit Session.onHost plan.settings files
    ((EventLog.logged (directory.child logName) host.driver).execute plan.clock
      Timing.standardBudget .standard script)
  let artifacts ← Session.onMachine (Artifact.saveAll directory execution.captures)
  pure (script, execution, artifacts)

/-- The files when the host is entered. -/
def filesAtEntry (plan : RunPlan) (script : Script) (s : Session σ) : FileSystem :=
  (prepare plan script (started s)).2.machine.files

/-- The name of the directory that is made for the run: the second reading of the clock. -/
def directoryName (s : Session σ) : Text :=
  (s.machine.now.reading (s.machine.now.taken + 1)).directoryName

theorem progress_of_prepare {host : Host σ} {plan : RunPlan} {input : Json} {script : Script}
    {s t : Session σ} {directory : Path}
    (hread : Script.read .standard .standard input = .ok script)
    (h : prepare plan script s = (.ok directory, t)) :
    progress host plan input s =
      (.ok ⟨some directory, (carryOut host plan script directory t.machine.files t).1⟩,
        (carryOut host plan script directory t.machine.files t).2) := by
  obtain ⟨made, u, hmade, h⟩ := Action.bind_eq_ok_iff.mp h
  obtain ⟨_, v, hstart, h⟩ := Action.bind_eq_ok_iff.mp h
  obtain ⟨_, w, hrecord, h⟩ := Action.bind_eq_ok_iff.mp h
  cases h
  have hreplay : replay host plan script directory u =
      carryOut host plan script directory t.machine.files t := by
    rw [replay, Action.bind_ok _ hstart, Action.bind_ok _ hrecord]
    rfl
  rw [progress, hread]
  simp only [Action.bind_apply, Action.attempt_apply, hmade, hreplay]
  rfl

section

variable {plan : RunPlan} {script : Script} {s : Session σ} {l : Location}

theorem makeRunDirectory_ok
    (hresolve : s.machine.files.resolve plan.settings.outputRoot = .ok (.ofLocation l))
    (hroot : s.machine.files.IsOutputRoot l (directoryName s)) (hclock : s.machine.IsTimed) :
    ∃ m, Machine.makeRunDirectory plan.settings.outputRoot (started s).machine =
        (.ok (.ofLocation (l ++ [directoryName s])), m) ∧
      m.files.IsRunDirectory (l ++ [directoryName s]) := by
  have hvisible := Moment.isVisible_directoryName
    (s.machine.now.reading (s.machine.now.taken + 1))
  have hlength : (directoryName s).length = 24 :=
    Moment.length_directoryName (hclock (s.machine.now.taken + 1))
  have hsize : byteSize (directoryName s) ≤ nameLimit := by
    rw [directoryName, byteSize_of_isVisible hvisible, ← directoryName, hlength]
    decide
  have hdots : directoryName s ≠ Path.dots := by
    intro h
    rw [h] at hlength
    cases hlength
  obtain ⟨fs, hmake, hrun⟩ :=
    hroot.makeDirectories_eq hdots hsize fun c hc => (hvisible c hc).isNameable
  refine ⟨⟨fs, s.machine.now.next.2.next.2⟩, ?_, hrun⟩
  have hresolved : Machine.inspect (fun fs => fs.resolve plan.settings.outputRoot)
      (started s).machine = (.ok (.ofLocation l), (started s).machine) := by
    simp only [Machine.inspect, started, hresolve]
    rfl
  have halter : Machine.alter
      (fun fs => fs.makeDirectories (.ofLocation (l ++ [directoryName s])))
      ⟨s.machine.files, s.machine.now.next.2.next.2⟩ =
      (.ok (), ⟨fs, s.machine.now.next.2.next.2⟩) := by
    simp only [Machine.alter, hmake]
    rfl
  -- One reading of the clock is the start of the run, the next one names the directory.
  rw [Machine.makeRunDirectory, Action.bind_ok _ hresolved]
  show (Machine.alter (fun fs => fs.makeDirectories (.ofLocation (l ++ [directoryName s]))) >>=
    fun _ => pure (Path.ofLocation (l ++ [directoryName s])))
    ⟨s.machine.files, s.machine.now.next.2.next.2⟩ = _
  rw [Action.bind_ok _ halter]
  rfl

/-- The directory of the run is made, and its log begins with the script. -/
theorem prepare_ok (script : Script)
    (hresolve : s.machine.files.resolve plan.settings.outputRoot = .ok (.ofLocation l))
    (hroot : s.machine.files.IsOutputRoot l (directoryName s)) (hclock : s.machine.IsTimed) :
    ∃ t, prepare plan script (started s) = (.ok (.ofLocation (l ++ [directoryName s])), t) ∧
      t.host = s.host ∧ IsReady (l ++ [directoryName s]) t := by
  obtain ⟨m, hmachine, hrun⟩ := makeRunDirectory_ok hresolve hroot hclock
  have hmade : Session.onMachine (Machine.makeRunDirectory plan.settings.outputRoot) (started s) =
      (.ok (.ofLocation (l ++ [directoryName s])), ⟨s.host, m, []⟩) := by
    rw [Session.onMachine, Action.lift, hmachine]
    rfl
  have hlog : Action.Succeeds (IsReady (σ := σ) (l ++ [directoryName s])) Session.host (do
      let log := (Path.ofLocation (l ++ [directoryName s])).child logName
      Session.onMachine (EventLog.start log)
      EventLog.record log scriptType script.payload.compact) :=
    (start_succeeds _).bind fun _ =>
      isOpen_log _ _ _ (encodable_ofString _) (Json.encodable_compact _)
  obtain ⟨_, t, ht, hhost, hready⟩ := hlog ⟨s.host, m, []⟩ hrun
  obtain ⟨_, u, hstart, hrecord⟩ := Action.bind_eq_ok_iff.mp ht
  exact ⟨t, prepare_of_steps hmade hstart hrecord, hhost, hready⟩

/-- The visit of a host that serves the script. -/
theorem visit_ok {host : Host σ} {t : Session σ} {entered served left : σ}
    (hscript : ∀ step ∈ script.steps, step.IsLoggable .standard)
    (h : host.Serves plan script t.machine.files t.host entered served left)
    (hready : IsReady l t) :
    ∃ execution u, host.visit Session.onHost plan.settings t.machine.files
        ((EventLog.logged ((Path.ofLocation l).child logName) host.driver).execute plan.clock
          Timing.standardBudget .standard script) t = (.ok execution, u) ∧ IsReady l u ∧
      execution.captures.map LabelledSnapshot.label = script.labels ∧
      ∀ c ∈ execution.captures, c.IsReadable := by
  obtain ⟨calls, hcalls⟩ := script.exists_calls
  obtain ⟨execution, hexecution⟩ :=
    Driver.execute_ok hcalls rfl h.inTime (h.serves calls hcalls)
  have hhost : ∀ (s : Session σ) (host : σ), IsReady l s → IsReady l { s with host } :=
    fun _ _ hs => hs
  have hcarries := Driver.execute_carries (EventLog.logged_carries (isOpen_log l) hhost host.driver)
    plan.clock Timing.standardBudget .standard hscript
  obtain ⟨u, hvisit, hu⟩ := Host.visit_ok hhost hcarries hready h.opens hexecution
    (h.frames execution served hexecution) h.closes
  exact ⟨execution, u, hvisit, hu, Driver.execute_labels _ _ _ hexecution,
    h.images execution served hexecution⟩

end

section

variable {host : Host σ} {plan : RunPlan} {script : Script} {t : Session σ} {l : Location}
  {entered served left : σ}

theorem carryOut_ok (hscript : ∀ step ∈ script.steps, step.IsLoggable .standard)
    (h : host.Serves plan script t.machine.files t.host entered served left)
    (hready : IsReady l t) (hone : script.labels.length ≤ 1)
    (hsize : ∀ label ∈ script.labels, byteSize (Artifact.fileName 1 label) ≤ nameLimit) :
    ∃ execution artifacts u, carryOut host plan script (.ofLocation l) t.machine.files t =
      (.ok (script, execution, artifacts), u) ∧ artifacts.map Artifact.label = script.labels ∧
      IsReady l u := by
  obtain ⟨execution, u, hvisit, hu, hlabels, himages⟩ := visit_ok hscript h hready
  have hnames : ∀ i c, execution.captures[i]? = some c →
      byteSize (Artifact.fileName (1 + i) c.label) ≤ nameLimit := by
    intro i c hc
    have hlabel : c.label ∈ script.labels :=
      hlabels ▸ List.mem_map_of_mem (List.mem_of_getElem? hc)
    have hlength : execution.captures.length ≤ 1 := by
      rwa [← List.length_map (f := LabelledSnapshot.label), hlabels]
    obtain rfl : i = 0 := by
      have := (List.getElem?_eq_some_iff.mp hc).1
      omega
    exact hsize c.label hlabel
  obtain ⟨artifacts, machine, hsave, hsaved, hleft⟩ := Artifact.saveFrom_ok hu 1 himages hnames
  refine ⟨execution, artifacts, { u with machine }, ?_, hsaved.trans hlabels, hleft⟩
  have hall : Session.onMachine (Artifact.saveAll (.ofLocation l) execution.captures) u =
      (.ok artifacts, { u with machine }) := by
    rw [Session.onMachine, Action.lift, Artifact.saveAll, hsave]
  rw [carryOut, Action.bind_ok _ hvisit, Action.bind_ok _ hall]
  rfl

theorem carryOut_of_long (hscript : ∀ step ∈ script.steps, step.IsLoggable .standard)
    (h : host.Serves plan script t.machine.files t.host entered served left)
    (hready : IsReady l t) (hone : script.labels.length ≤ 1) {label : Text}
    (hmem : label ∈ script.labels) (hsize : nameLimit < byteSize (Artifact.fileName 1 label)) :
    (carryOut host plan script (.ofLocation l) t.machine.files t).1 =
      .error (.file (.access .nameTooLong
        ((Path.ofLocation l).child (Artifact.fileName 1 label)))) := by
  obtain ⟨execution, u, hvisit, hu, hlabels, himages⟩ := visit_ok hscript h hready
  obtain ⟨c, hc, rfl⟩ := List.mem_map.mp (hlabels ▸ hmem)
  have hlength : execution.captures.length = 1 := by
    have hpos := List.length_pos_of_mem hc
    rw [← hlabels, List.length_map] at hone
    omega
  obtain ⟨d, hcaptures⟩ := List.length_eq_one_iff.mp hlength
  obtain rfl : c = d := by simpa [hcaptures] using hc
  have hsave := Artifact.save_of_long hu (himages c hc) hsize
  rw [carryOut, Action.bind_ok _ hvisit, hcaptures]
  exact Action.fst_bind_of_error _ (Action.fst_bind_of_error _ hsave)

end

/-- The path of an entry can be shown if the path of the directory and the name can. -/
theorem encodable_ofLocation_concat {l : Location} {name : Text}
    (hl : (Path.ofLocation l).text.Encodable) (hname : name.Encodable) :
    (Path.ofLocation (l ++ [name])).text.Encodable := by
  intro c hc
  rcases Path.mem_text hc with rfl | rfl | ⟨other, hother, hmem⟩
  · decide
  · decide
  · rcases List.mem_append.mp hother with hother | hother
    · exact hl c (Path.mem_text_of_mem_names hother hmem)
    · obtain rfl := List.mem_singleton.mp hother
      exact hname c hmem

/-- If all that is shown of the result has a UTF-8 form, the run gives it. -/
theorem perform_of_shown {host : Host σ} {plan : RunPlan} {input : Json} {s t : Session σ}
    {p : Progress} (hclock : s.machine.IsTimed) (hw : ∀ i, ∃ x, plan.stopwatch i = .real x)
    (hp : progress host plan input (started s) = (.ok p, t))
    (hshown : ∀ x ∈ (result plan p t.counts).shown, x.Encodable) :
    ∃ r, (perform host plan input s).1 = .ok r ∧ r.ok = (result plan p t.counts).ok ∧
      r.captures = (result plan p t.counts).captures ∧
      r.diagnostics = (result plan p t.counts).diagnostics := by
  have hsound : (started s).IsSound := ⟨by simp [started], hclock⟩
  obtain ⟨p', t', hp', ht, hprepared⟩ := progress_isPrepared host plan input hsound rfl
  rw [hp] at hp'
  cases hp'
  have hreportable : ¬ (result plan p t.counts).IsUnreportable t.machine.files := by
    rintro ⟨d, -, -, x, hx, hbad⟩
    exact hbad (hshown x hx)
  obtain ⟨a, b, c, hperform⟩ := (perform_fst hw hp ht hprepared).2 hreportable
  exact ⟨_, hperform, RunResult.timed_eq _ a b c⟩

section

variable {host : Host σ} {plan : RunPlan} {input : Json} {script : Script} {s t : Session σ}
  {directory : Path} (hclock : s.machine.IsTimed) (hw : ∀ i, ∃ x, plan.stopwatch i = .real x)
  (hdirectory : directory.text.Encodable)
include hclock hw hdirectory

theorem perform_of_carried {execution : Execution} {artifacts : List Artifact}
    (hp : progress host plan input (started s) =
      (.ok ⟨some directory, .ok (script, execution, artifacts)⟩, t))
    (hlabels : ∀ a ∈ artifacts, a.label.Encodable)
    (hdiagnostics : ∀ x ∈ diagnostics plan script, x.Encodable) :
    ∃ r, (perform host plan input s).1 = .ok r ∧ r.ok = true ∧ r.captures = artifacts := by
  obtain ⟨r, hr, hok, hcaptures, -⟩ := perform_of_shown hclock hw hp fun x hx => by
    rcases RunResult.mem_shown_iff.mp hx with ⟨d, hd, rfl⟩ | hx | ⟨a, ha, rfl⟩
    · cases hd
      exact hdirectory
    · exact hdiagnostics x hx
    · exact hlabels a ha
  exact ⟨r, hr, hok, hcaptures⟩

theorem perform_of_error {e : Failure}
    (hp : progress host plan input (started s) = (.ok ⟨some directory, .error e⟩, t))
    (he : e.message.Encodable) :
    ∃ r, (perform host plan input s).1 = .ok r ∧ r.ok = false ∧ r.diagnostics = [e.message] := by
  obtain ⟨r, hr, hok, -, hdiagnostics⟩ := perform_of_shown hclock hw hp fun x hx => by
    rcases RunResult.mem_shown_iff.mp hx with ⟨d, hd, rfl⟩ | hx | ⟨a, ha, rfl⟩
    · cases hd
      exact hdirectory
    · obtain rfl := List.mem_singleton.mp hx
      exact he
    · cases ha
  exact ⟨r, hr, hok, hdiagnostics⟩

end

/-- The failure of a file whose name is too long can be told if its directory can. -/
theorem encodable_nameTooLong {directory : Path} {name : Text}
    (h : (directory.child name).text.Encodable) :
    (Failure.file (.access .nameTooLong (directory.child name))).message.Encodable := by
  have hshown := Json.encodable_shownText h
  simp only [Failure.message, FileError.message, AccessFault.number, AccessFault.wording,
    encodable_append, encodable_ofString, encodable_ofNat, hshown, and_self]

section

variable {host : Host σ} {plan : RunPlan} {input : Json} {s : Session σ} {script : Script}
  {l : Location} {entered served left : σ}
  (hread : Script.read .standard .standard input = .ok script)
  (hhost : host.Serves plan script (filesAtEntry plan script s) s.host entered served left)
  (hresolve : s.machine.files.resolve plan.settings.outputRoot = .ok (.ofLocation l))
  (hroot : s.machine.files.IsOutputRoot l (directoryName s)) (hclock : s.machine.IsTimed)
  (hw : ∀ i, ∃ x, plan.stopwatch i = .real x) (hpath : (Path.ofLocation l).text.Encodable)
include hread hhost hresolve hroot hclock

/-- The host is entered, with the directory of the run ready. -/
theorem exists_entry : ∃ t, host.Serves plan script t.machine.files t.host entered served left ∧
    IsReady (l ++ [directoryName s]) t ∧
    progress host plan input (started s) = (.ok ⟨some (.ofLocation (l ++ [directoryName s])),
      (carryOut host plan script (.ofLocation (l ++ [directoryName s])) t.machine.files t).1⟩,
      (carryOut host plan script (.ofLocation (l ++ [directoryName s])) t.machine.files t).2) := by
  obtain ⟨t, hprepare, hstart, hready⟩ := prepare_ok script hresolve hroot hclock
  have hfiles : filesAtEntry plan script s = t.machine.files := by
    rw [filesAtEntry, hprepare]
  rw [hfiles, ← hstart] at hhost
  exact ⟨t, hhost, hready, progress_of_prepare hread hprepare⟩

include hw hpath

theorem perform_of_fits
    (hsize : ∀ label ∈ script.labels, byteSize (Artifact.fileName 1 label) ≤ nameLimit)
    (htexts : ∀ t ∈ script.labels ++ diagnostics plan script, t.Encodable) :
    ∃ r, (perform host plan input s).1 = .ok r ∧ r.ok = true ∧
      r.captures.map Artifact.label = script.labels := by
  obtain ⟨t, hserves, hready, hprogress⟩ := exists_entry hread hhost hresolve hroot hclock
  obtain ⟨execution, artifacts, u, hcarry, hlabels, -⟩ :=
    carryOut_ok (Script.isLoggable_of_read hread) hserves hready (Script.length_labels_le hread)
      hsize
  rw [hcarry] at hprogress
  obtain ⟨r, hr, hok, hcaptures⟩ := perform_of_carried hclock hw
    (encodable_ofLocation_concat hpath (Moment.isVisible_directoryName _).encodable) hprogress
    (fun a ha => htexts _ (List.mem_append_left _ (hlabels ▸ List.mem_map_of_mem ha)))
    fun x hx => htexts x (List.mem_append_right _ hx)
  exact ⟨r, hr, hok, hcaptures ▸ hlabels⟩

theorem perform_of_long {label : Text} (hmem : label ∈ script.labels)
    (hlong : nameLimit < byteSize (Artifact.fileName 1 label)) :
    ∃ r, (perform host plan input s).1 = .ok r ∧ r.ok = false ∧
      r.diagnostics = [FileError.message (.access .nameTooLong
        ((Path.ofLocation (l ++ [directoryName s])).child (Artifact.fileName 1 label)))] := by
  obtain ⟨t, hserves, hready, hprogress⟩ := exists_entry hread hhost hresolve hroot hclock
  rw [carryOut_of_long (Script.isLoggable_of_read hread) hserves hready
    (Script.length_labels_le hread) hmem hlong] at hprogress
  have hdirectory : (Path.ofLocation (l ++ [directoryName s])).text.Encodable :=
    encodable_ofLocation_concat hpath (Moment.isVisible_directoryName _).encodable
  exact perform_of_error hclock hw hdirectory hprogress (encodable_nameTooLong
    (encodable_ofLocation_concat hdirectory (Artifact.encodable_fileName 1 label)))

end

/-- On a host that serves its script, with a directory to write in, a run succeeds exactly if the
name of its image file is not too long; it keeps a snapshot for each label, in order. -/
theorem perform_of_serves (host : Host σ) (plan : RunPlan) (input : Json) (s : Session σ)
    {script : Script} {l : Location} {entered served left : σ}
    (hread : Script.read .standard .standard input = .ok script)
    (hhost : host.Serves plan script (filesAtEntry plan script s) s.host entered served left)
    (hresolve : s.machine.files.resolve plan.settings.outputRoot = .ok (.ofLocation l))
    (hroot : s.machine.files.IsOutputRoot l (directoryName s)) (hclock : s.machine.IsTimed)
    (hw : ∀ i, ∃ x, plan.stopwatch i = .real x) (hpath : (Path.ofLocation l).text.Encodable)
    (htexts : ∀ t ∈ script.labels ++ diagnostics plan script, t.Encodable) :
    ∃ r, (perform host plan input s).1 = .ok r ∧
      ((∀ label ∈ script.labels, byteSize (Artifact.fileName 1 label) ≤ nameLimit) →
        r.ok = true ∧ r.captures.map Artifact.label = script.labels) ∧
      ∀ label ∈ script.labels, nameLimit < byteSize (Artifact.fileName 1 label) →
        r.ok = false ∧ r.diagnostics = [FileError.message (.access .nameTooLong
          ((Path.ofLocation (l ++ [directoryName s])).child (Artifact.fileName 1 label)))] := by
  by_cases hfits : ∀ label ∈ script.labels, byteSize (Artifact.fileName 1 label) ≤ nameLimit
  · obtain ⟨r, hr, hok, hlabels⟩ :=
      perform_of_fits hread hhost hresolve hroot hclock hw hpath hfits htexts
    refine ⟨r, hr, fun _ => ⟨hok, hlabels⟩, fun label hmem hlong => ?_⟩
    exact absurd (hfits label hmem) (Nat.not_le.mpr hlong)
  · obtain ⟨label, hmem, hlong⟩ : ∃ label ∈ script.labels,
        nameLimit < byteSize (Artifact.fileName 1 label) := by
      simpa using hfits
    obtain ⟨r, hr, hfailed⟩ :=
      perform_of_long hread hhost hresolve hroot hclock hw hpath hmem hlong
    refine ⟨r, hr, fun hall => absurd (hall label hmem) (Nat.not_le.mpr hlong), ?_⟩
    intro other hother hlonger
    obtain ⟨r', hr', hfailed'⟩ :=
      perform_of_long hread hhost hresolve hroot hclock hw hpath hother hlonger
    obtain rfl : r = r' := Except.ok.inj (hr.symm.trans hr')
    exact hfailed'

end Run

/-- A script that takes one snapshot. -/
def Script.shot (label : Text) : Script := ⟨[.snap label]⟩

/-- A host in memory that shows one picture and never fails. -/
def RehearsalHost.steady : RehearsalHost := ⟨⟨.text Capture.pointUrl, none, none, none⟩, none, none⟩

/-- A plan with the root of the files as the place of everything, and with clocks at a stand. -/
def RunPlan.still : RunPlan :=
  ⟨⟨.ofLocation [], .ofLocation [], .ofLocation [], false, false, 1, []⟩, none, fun _ => .int 0,
    fun _ => .real .zero⟩

/-- A session on a machine without any files. -/
def Session.blank : Session Stage :=
  ⟨⟨.int 0, []⟩, ⟨⟨[], [], fun _ => none, fun _ _ => none⟩,
    .ofReadings fun _ => ⟨1970, 1, 1, 0, 0, 0, 0⟩⟩, []⟩

theorem RehearsalHost.execute_steady {label : Text} {execution : Execution} {t : Stage}
    (h : steady.host.driver.execute RunPlan.still.clock Timing.standardBudget .standard
      (.shot label) ⟨.int 0, [.opened]⟩ = (.ok execution, t)) :
    execution = ⟨.number (.int 0), [⟨label, .number (.int 0), .text Capture.pointUrl⟩]⟩ := by
  cases h
  rfl

theorem Capture.isReadable_pointUrl (label : Text) (frame : Json) :
    LabelledSnapshot.IsReadable ⟨label, frame, .text Capture.pointUrl⟩ := by
  have hpicture : (Capture.decode Capture.byteLimit (.text Capture.pointUrl)).toBool = true := by
    decide +kernel
  show ∃ decoded, Capture.decode Capture.byteLimit (.text Capture.pointUrl) = .ok decoded
  cases hd : Capture.decode Capture.byteLimit (.text Capture.pointUrl) with
  | ok decoded => exact ⟨decoded, rfl⟩
  | error e =>
    rw [hd] at hpicture
    cases hpicture

theorem Json.isLoggable_int {n : Int} (hshort : (Json.number (.int n)).isShort = true) :
    Json.IsLoggable (.number (.int n)) :=
  ⟨Json.plain (.number (.int n)), by rw [Json.shortPlain, if_pos hshort],
    Number.encodable_text (.int n)⟩

theorem RehearsalHost.steady_serves (label : Text) (files : FileSystem) :
    steady.host.Serves .still (.shot label) files Session.blank.host ⟨.int 0, [.opened]⟩
      ⟨.int 0, [.opened, .captureSnapshot, .readFrameCount]⟩
      ⟨.int 0, [.opened, .captureSnapshot, .readFrameCount, .closed]⟩ where
  opens := rfl
  serves calls h := by
    obtain rfl : [.captureSnapshot, .readFrameCount] = calls := Except.ok.inj h
    rfl
  closes := rfl
  inTime k _ := rfl
  images execution t h c hc := by
    obtain rfl := execute_steady h
    obtain rfl := List.mem_singleton.mp hc
    exact Capture.isReadable_pointUrl _ _
  frames execution t h := by
    have hframe : Json.IsLoggable (.number (.int 0)) := Json.isLoggable_int (by decide +kernel)
    obtain rfl := execute_steady h
    refine ⟨hframe, fun c hc => ?_⟩
    obtain rfl := List.mem_singleton.mp hc
    exact hframe

theorem Session.blank_isOutputRoot :
    blank.machine.files.IsOutputRoot [] (Run.directoryName blank) := by
  have hnode : ∀ name l, blank.machine.files.node? (name :: l) = none := fun _ _ => rfl
  refine ⟨⟨by simp, fun l hl => ?_⟩, by decide, by decide +kernel, fun bytes => ?_, fun other => ?_,
    fun _ _ _ => rfl⟩
  · rw [List.prefix_nil.mp hl]
    rfl
  · simp [hnode]
  · simp [hnode]

theorem Session.blank_isTimed : blank.machine.IsTimed := by
  have hepoch : Moment.IsValid ⟨1970, 1, 1, 0, 0, 0, 0⟩ := by constructor <;> decide
  exact fun _ => hepoch

namespace Run

/-- On a steady host and a machine without any files a snapshot under the label `tile` is kept. -/
theorem perform_shot_tile :
    ∃ r, (perform RehearsalHost.steady.host .still (Script.shot "tile").payload .blank).1 = .ok r ∧
      r.ok = true ∧ r.captures.map Artifact.label = ["tile"] := by
  have hread : Script.read .standard .standard (Script.shot "tile").payload =
      .ok (.shot "tile") := by decide +kernel
  obtain ⟨r, hr, hfits, -⟩ := perform_of_serves RehearsalHost.steady.host .still _ .blank hread
    (RehearsalHost.steady_serves _ _) rfl Session.blank_isOutputRoot Session.blank_isTimed
    (fun _ => ⟨.zero, rfl⟩) (by decide) (by decide +kernel)
  exact ⟨r, hr, hfits (by decide +kernel)⟩

/-- A label of 249 letters makes a name of 256 bytes: although nothing else goes wrong, the run
fails. -/
theorem perform_shot_of_long_label :
    let label : Text := List.replicate 249 (CodePoint.ofChar 'a')
    let plan := RunPlan.still
    let script := Script.shot label
    Script.read .standard .standard script.payload = .ok script ∧
      (∃ entered served left, RehearsalHost.steady.host.Serves plan script
        (filesAtEntry plan script .blank) Session.blank.host entered served left) ∧
      Session.blank.machine.files.resolve plan.settings.outputRoot = .ok (.ofLocation []) ∧
      Session.blank.machine.files.IsOutputRoot [] (directoryName .blank) ∧
      (∀ t ∈ script.labels ++ diagnostics plan script, t.Encodable) ∧
      ∃ r, (perform RehearsalHost.steady.host plan script.payload .blank).1 = .ok r ∧
        r.ok = false := by
  intro label plan script
  have hread : Script.read .standard .standard script.payload = .ok script := by decide +kernel
  have hserves := RehearsalHost.steady_serves label (filesAtEntry plan script .blank)
  have hlong : nameLimit < byteSize (Artifact.fileName 1 label) := by decide +kernel
  obtain ⟨r, hr, hok, -⟩ := perform_of_long hread hserves rfl Session.blank_isOutputRoot
    Session.blank_isTimed (fun _ => ⟨.zero, rfl⟩) (by decide) List.mem_cons_self hlong
  exact ⟨hread, ⟨_, _, _, hserves⟩, rfl, Session.blank_isOutputRoot, by decide +kernel, r, hr, hok⟩

end Run

end Replay
