import Replay.Proofs.LogTransparency
import Replay.Proofs.ReportFiles

namespace Replay

open FileSystem

variable {σ : Type}

theorem Path.child_ofLocation (l : Location) (name : Text) :
    (ofLocation l).child name = .ofLocation (l ++ [name]) := rfl

theorem Path.parent_child (p : Path) (name : Text) : (p.child name).parent = p := by
  simp [parent, child]

/-- The directory has a log in it and nothing else. -/
def FileSystem.HasLog (fs : FileSystem) (l : Location) : Prop :=
  ∃ log, fs.Holds l [(Run.logName, log)]

namespace EventLog

variable {l : Location}

theorem isPlain_logName (hl : IsPlain l) : IsPlain (l ++ [Run.logName]) :=
  hl.concat (by decide)

theorem start_holds {m m' : Machine} (hl : IsPlain l) (hm : m.files.Holds l [])
    (h : start ((Path.ofLocation l).child Run.logName) m = (.ok (), m')) :
    m'.files.HasLog l := by
  rw [start, Path.parent_child] at h
  obtain ⟨_, m₁, halter, h⟩ := Action.bind_eq_ok_iff.mp h
  obtain ⟨fs, hmake, rfl⟩ := Machine.alter_eq_ok_iff.mp halter
  have hempty : fs.Holds l [] := hm.of_clearsWay (clearsWay_of_makeDirectories hl hmake).1
  obtain ⟨found, m₂, hinspect, h⟩ := Action.bind_eq_ok_iff.mp h
  obtain ⟨hfound, hsame⟩ := Machine.inspect_eq_ok_iff.mp hinspect
  rw [hsame] at h
  cases found with
  | true =>
    obtain ⟨n, hn, -⟩ := exists_of_test (isPlain_logName hl) hfound
    obtain ⟨f, hf, -⟩ := (hempty.below [Run.logName] (by simp) n).mp hn
    cases hf
  | false =>
    rw [if_neg Bool.false_ne_true] at h
    obtain ⟨fs', hwrite, rfl⟩ := Machine.alter_eq_ok_iff.mp h
    obtain ⟨bytes, -, rfl⟩ := writeText_eq (isPlain_logName hl) hwrite
    exact ⟨bytes, hempty.add (by simp) bytes⟩

theorem record_preserves_hasLog (hl : IsPlain l) (type message : Text) :
    Action.Preserves (fun s : Session σ => s.machine.files.HasLog l)
      (record ((Path.ofLocation l).child Run.logName) type message) := by
  refine Action.Preserves.bind (fun s hs => hs) fun moment => ?_
  refine Action.Preserves.bind (fun s hs => ?_) fun _ => fun s hs => hs
  obtain ⟨log, hlog⟩ := hs
  have hfiles : (Session.onMachine (Machine.alter fun fs => fs.appendText
      ((Path.ofLocation l).child Run.logName) (line moment type message)) s).2.machine.files =
      (s.machine.files.appendText ((Path.ofLocation l).child Run.logName)
        (line moment type message)).2 := rfl
  rw [hfiles]
  rcases appendText_eq (isPlain_logName hl) (line moment type message) with heq | ⟨bytes, heq⟩
  · rw [Path.child_ofLocation, heq]
    exact ⟨log, hlog⟩
  · rw [Path.child_ofLocation, heq]
    exact ⟨bytes, by simpa using hlog.put Run.logName bytes⟩

theorem isKept_hasLog (hl : IsPlain l) :
    IsKept ((Path.ofLocation l).child Run.logName)
      (fun s : Session σ => s.machine.files.HasLog l) where
  host _ _ h := h
  add _ := (Action.Preserves.ofExcept _).bind fun _ => record_preserves_hasLog hl _ _

end EventLog

namespace Artifact

variable {l : Location} {captures : List LabelledSnapshot} {artifacts : List Artifact}
  {files images : List (Text × Bytes)} {c : LabelledSnapshot}

/-- The files are the images of the snapshots, each at the path of its artifact. -/
structure AreImages (directory : Path) (captures : List LabelledSnapshot)
    (artifacts : List Artifact) (images : List (Text × Bytes)) : Prop where
  labels : artifacts.map label = captures.map LabelledSnapshot.label
  paths : List.Forall₂ (fun a file => a.path = directory.child file.1) artifacts images
  names : List.Forall₂ (fun a file => file.1 = fileName 1 a.label) artifacts images
  contents : List.Forall₂ (fun c file =>
    ∃ size, Capture.decode Capture.byteLimit c.image = .ok (file.2, size)) captures images

theorem ne_fileName {name : Text} (h : name.head? ≠ some ('0' : CodePoint)) (label : Text) :
    name ≠ fileName 1 label := by
  -- the names of images begin with their number
  rintro rfl
  exact h rfl

theorem update_ends {name : Text} (hplain : IsPlain (l ++ [name]))
    (hnew : ∀ f ∈ files, f.1 ≠ name) (bytes : Bytes) :
    Action.Ends (fun m => m.files.Holds l files)
      (Machine.update fun fs => fs.writeBytes ((Path.ofLocation l).child name) bytes)
      (fun _ m => m.files.Holds l (files ++ [(name, bytes)])) (fun m => m.files.Holds l files) where
  ok hm h := by
    obtain ⟨fs, hwrite, rfl⟩ := Machine.update_eq_ok_iff.mp h
    obtain rfl := writeBytes_eq hplain hwrite
    exact hm.add hnew bytes
  error hm h := by
    obtain ⟨_, -, -, rfl⟩ := Machine.update_eq_error_iff.mp h
    exact hm

/-- A snapshot that is saved is one more file; where that fails the files are as before. -/
theorem save_ends (hl : IsPlain l) (hnew : ∀ f ∈ files, f.1 ≠ fileName 1 c.label) :
    Action.Ends (fun m => m.files.Holds l files) (save (.ofLocation l) 1 c)
      (fun a m => ∃ file, m.files.Holds l (files ++ [file]) ∧
        AreImages (.ofLocation l) [c] [a] [file]) (fun m => m.files.Holds l files) := by
  have hdecoded : Action.Yields (σ := Machine)
      (Action.ofExcept ((Capture.decode Capture.byteLimit c.image).mapError Failure.ofCapture))
      fun d => Capture.decode Capture.byteLimit c.image = .ok d :=
    .ofExcept fun d => mapError_eq_ok_iff.mp
  refine (Action.Ends.ofPreserves (.ofExcept _)).bind_of_yields hdecoded fun d hd => ?_
  have hplain := hl.concat (fileName_ne_dots 1 c.label)
  refine (update_ends hplain hnew d.1).bind fun _ => .pure fun m hm => ?_
  exact ⟨(fileName 1 c.label, d.1), hm, rfl, .cons rfl .nil, .cons rfl .nil, .cons ⟨d.2, hd⟩ .nil⟩

/-- The directory has a log in it, the images of the snapshots, and nothing else. -/
def IsSaved (l : Location) (captures : List LabelledSnapshot) (artifacts : List Artifact)
    (fs : FileSystem) : Prop :=
  ∃ log images, fs.Holds l ((Run.logName, log) :: images) ∧
    AreImages (.ofLocation l) captures artifacts images

/-- Of at most one snapshot nothing is left if saving fails. -/
theorem saveAll_ends (hl : IsPlain l) (hone : captures.length ≤ 1) :
    Action.Ends (fun m => m.files.HasLog l) (saveAll (.ofLocation l) captures)
      (fun artifacts m => IsSaved l captures artifacts m.files) (fun m => m.files.HasLog l) := by
  refine .ofExists fun log => ?_
  cases captures with
  | nil => exact .pure fun m hm => ⟨log, [], hm, rfl, .nil, .nil, .nil⟩
  | cons c rest =>
    obtain rfl : rest = [] := by simpa using hone
    have hnew : ∀ f ∈ [(Run.logName, log)], f.1 ≠ fileName 1 c.label := by
      intro f hf
      rw [List.mem_singleton.mp hf]
      show Run.logName ≠ _
      exact ne_fileName (by decide) c.label
    have hfailed : ∀ m : Machine, m.files.Holds l [(Run.logName, log)] → m.files.HasLog l :=
      fun m hm => ⟨log, hm⟩
    refine ((save_ends hl hnew).mono (fun _ _ h => h) hfailed).bind fun a => ?_
    refine ⟨fun hm h => ?_, fun _ h => ?_⟩
    · cases h
      obtain ⟨file, hholds, himages⟩ := hm
      exact ⟨log, [file], hholds, himages⟩
    · cases h

end Artifact

theorem Session.eq_of_onMachine {α : Type} {a : Action Machine α} {r : Except Failure α}
    {s u : Session σ} (h : onMachine a s = (r, u)) : a s.machine = (r, u.machine) := by
  rw [onMachine, Action.lift] at h
  obtain ⟨hr, rfl⟩ := Prod.mk.inj h
  exact Prod.ext hr rfl

theorem Host.visit_eq_ok {α : Type} {host : Host σ} {settings : Settings} {files : FileSystem}
    {body : Action (Session σ) α} {x : α} {s u : Session σ}
    (h : host.visit Session.onHost settings files body s = (.ok x, u)) :
    ∃ entered t, host.enter settings files s.host = (.ok (), entered) ∧
      body { s with host := entered } = (.ok x, t) := by
  obtain ⟨_, s₁, henter, h⟩ := Action.bind_eq_ok_iff.mp h
  obtain ⟨q, t, hbody, h⟩ := Action.bind_eq_ok_iff.mp h
  rw [Session.onHost, Action.lift] at henter
  obtain ⟨hopened, rfl⟩ := Prod.mk.inj henter
  rw [Action.attempt_apply] at hbody
  obtain ⟨hq, rfl⟩ := Prod.mk.inj hbody
  cases q with
  | error e =>
    obtain ⟨_, _, -, h⟩ := Action.bind_eq_ok_iff.mp h
    cases h
  | ok y =>
    obtain ⟨_, _, -, h⟩ := Action.bind_eq_ok_iff.mp h
    cases h
    exact ⟨_, _, Prod.ext hopened rfl, Prod.ext (Except.ok.inj hq) rfl⟩

namespace Run

variable {host : Host σ} {plan : RunPlan} {script : Script} {l : Location}

/-- What is made before the script is replayed: the directory of the run, and its log. -/
def openLog (plan : RunPlan) : Action Machine Path := do
  let directory ← Machine.makeRunDirectory plan.settings.outputRoot
  EventLog.start (directory.child logName)
  pure directory

/-- What the replay of the script on the host gives in a run. -/
def Gives (host : Host σ) (plan : RunPlan) (script : Script) (s : Session σ)
    (execution : Execution) : Prop :=
  ∃ entered served,
    host.enter plan.settings (filesAtEntry plan script s) s.host = (.ok (), entered) ∧
    host.driver.execute plan.clock Timing.standardBudget .standard script entered =
      (.ok execution, served)

theorem start_ends (hl : IsPlain l) :
    Action.Ends (fun s : Session σ => s.machine.files.Holds l [] ∧
        (EventLog.start ((Path.ofLocation l).child logName) s.machine).1 = .ok ())
      (Session.onMachine (EventLog.start ((Path.ofLocation l).child logName)))
      (fun _ s => s.machine.files.HasLog l) (fun s => s.machine.files.HasLog l) where
  ok hs h := EventLog.start_holds hl hs.1 (Session.eq_of_onMachine h)
  error hs h := by cases hs.2.symm.trans (congrArg Prod.fst (Session.eq_of_onMachine h))

theorem visit_preserves_hasLog (host : Host σ) (plan : RunPlan) (script : Script)
    (files : FileSystem) (hl : IsPlain l) :
    Action.Preserves (fun s : Session σ => s.machine.files.HasLog l)
      (host.visit Session.onHost plan.settings files
        ((EventLog.logged ((Path.ofLocation l).child logName) host.driver).execute plan.clock
          Timing.standardBudget .standard script)) := by
  have hkept := EventLog.isKept_hasLog (σ := σ) hl
  refine Host.visit_preserves hkept.host _ _ _ ?_
  exact Driver.execute_preserves (EventLog.logged_preserves hkept _) _ _ _ _

/-- A replay saves the images of its snapshots, or else leaves a log alone. -/
theorem replay_ends (host : Host σ) (plan : RunPlan) (hl : IsPlain l)
    (hone : script.labels.length ≤ 1) :
    Action.Ends (fun s => s.machine.files.Holds l [] ∧
        (EventLog.start ((Path.ofLocation l).child logName) s.machine).1 = .ok ())
      (replay host plan script (.ofLocation l))
      (fun x s => Artifact.IsSaved l x.2.1.captures x.2.2 s.machine.files)
      (fun s => s.machine.files.HasLog l) := by
  -- whatever the host does, the log is all there is until the snapshots are saved
  refine (start_ends hl).bind fun _ => ?_
  refine (Action.Ends.ofPreserves (EventLog.record_preserves_hasLog hl _ _)).bind fun _ => ?_
  refine (Action.Ends.ofPreserves (Action.Preserves.read _)).bind fun files => ?_
  have hlabels : Action.Yields ((EventLog.logged ((Path.ofLocation l).child logName)
      host.driver).execute plan.clock Timing.standardBudget .standard script)
      fun execution => execution.captures.map LabelledSnapshot.label = script.labels :=
    Driver.execute_labels _ _ _
  refine (Action.Ends.ofPreserves (visit_preserves_hasLog host plan script files hl)).bind_of_yields
    (Host.visit_yields host plan.settings files hlabels) fun execution he => ?_
  have hlength : execution.captures.length ≤ 1 := by
    rwa [← List.length_map (f := LabelledSnapshot.label), he]
  refine ((Artifact.saveAll_ends hl hlength).lift fun _ _ => rfl).bind fun artifacts => ?_
  exact .pure fun s hs => hs

theorem prepare_preserves_host (plan : RunPlan) (script : Script) (state : σ) :
    Action.Preserves (fun s : Session σ => s.host = state) (prepare plan script) := by
  refine Action.Preserves.bind (fun _ h => h) fun directory => ?_
  refine Action.Preserves.bind (fun _ h => h) fun _ => ?_
  exact (EventLog.record_preserves_host _ _ _ _).bind fun _ => .pure _

/-- The snapshots that a run keeps are those that the replay gives on the host alone. -/
theorem gives_of_replay {directory : Path} {x : Script × Execution × List Artifact}
    {s u t : Session σ}
    (hmade : Session.onMachine (Machine.makeRunDirectory plan.settings.outputRoot) (started s) =
      (.ok directory, u))
    (h : replay host plan script directory u = (.ok x, t)) :
    x.1 = script ∧ Gives host plan script s x.2.1 := by
  obtain ⟨_, v, hstart, h⟩ := Action.bind_eq_ok_iff.mp h
  obtain ⟨_, w, hrecord, h⟩ := Action.bind_eq_ok_iff.mp h
  obtain ⟨files, _, hread, h⟩ := Action.bind_eq_ok_iff.mp h
  cases hread
  obtain ⟨execution, _, hvisit, h⟩ := Action.bind_eq_ok_iff.mp h
  obtain ⟨artifacts, _, -, h⟩ := Action.bind_eq_ok_iff.mp h
  cases h
  -- the host is entered with the files as they are after the preparations
  have hprepare : prepare plan script (started s) = (.ok directory, w) :=
    prepare_of_steps hmade hstart hrecord
  have hhost : w.host = s.host := by
    have hkept := prepare_preserves_host plan script s.host (started s) rfl
    rwa [hprepare] at hkept
  obtain ⟨entered, _, henter, hbody⟩ := Host.visit_eq_ok hvisit
  obtain ⟨served, hserved⟩ := EventLog.execute_of_logged hbody
  refine ⟨rfl, entered, served, ?_, hserved⟩
  rw [filesAtEntry, hprepare, ← hhost]
  exact henter

theorem start_of_openLog {directory d : Path} {m m' : Machine}
    (hmade : Machine.makeRunDirectory plan.settings.outputRoot m = (.ok directory, m'))
    (h : (openLog plan m).1 = .ok d) :
    (EventLog.start (directory.child logName) m').1 = .ok () := by
  rw [openLog, Action.bind_ok _ hmade] at h
  cases hstart : EventLog.start (directory.child logName) m' with
  | mk r t =>
    cases r with
    | ok _ => rfl
    | error e =>
      rw [Action.bind_error _ hstart] at h
      cases h

/-- What a run has left when its report is to be written. -/
theorem progress_leaves {input : Json} {p : Progress} {d : Path} {s t : Session σ}
    (htree : s.machine.files.IsTree) (hnew : s.machine.files.node? d.names = none)
    (hlog : (openLog plan (started s).machine).1 = .ok d)
    (hp : progress host plan input (started s) = (.ok p, t)) (hd : p.directory = some d) :
    ∃ l, d = .ofLocation l ∧ IsPlain l ∧
      (∀ e, p.outcome = .error e → t.machine.files.HasLog l) ∧
      ∀ x, p.outcome = .ok x → Script.read .standard .standard input = .ok x.1 ∧
        Gives host plan x.1 s x.2.1 ∧
        Artifact.IsSaved l x.2.1.captures x.2.2 t.machine.files := by
  rw [progress] at hp
  cases hread : Script.read .standard .standard input with
  | error e =>
    rw [hread] at hp
    cases hp
    cases hd
  | ok script =>
    rw [hread] at hp
    simp only [Action.bind_apply, Action.attempt_apply] at hp
    cases hmade : Session.onMachine (Machine.makeRunDirectory plan.settings.outputRoot)
        (started s) with
    | mk q u =>
      rw [hmade] at hp
      cases q with
      | error e =>
        cases hp
        cases hd
      | ok directory =>
        cases hp
        cases hd
        have hmachine := Session.eq_of_onMachine hmade
        have hstarted : (started s).machine.files.IsTree := htree
        obtain ⟨l, rfl, hl, hempty⟩ := Machine.makeRunDirectory_holds hstarted hmachine
        have hends := replay_ends host plan hl (Script.length_labels_le hread)
        have hu := And.intro (hempty hnew) (start_of_openLog hmachine hlog)
        refine ⟨l, rfl, hl, fun e he => hends.error hu (Prod.ext he rfl), fun x hx => ?_⟩
        obtain ⟨rfl, hgives⟩ := gives_of_replay hmade (Prod.ext hx rfl)
        exact ⟨rfl, hgives, hends.ok hu (Prod.ext hx rfl)⟩

/-- The machine when the report of the run is written. -/
def machineAtReport (host : Host σ) (plan : RunPlan) (input : Json) (s : Session σ) : Machine :=
  let m := (progress host plan input (started s)).2.machine
  { m with now := m.now.next.2 }

theorem write_of_finish {began : Moment} {r r' : RunResult} {m m' : Machine}
    (h : finish plan began r m = (.ok r', m')) :
    ∃ finished runtime w, r' = r.timed began finished runtime ∧
      Report.write r' none { m with now := m.now.next.2 } = (.ok w, m') := by
  obtain ⟨finished, _, hclock, h⟩ := Action.bind_eq_ok_iff.mp h
  cases hclock
  obtain ⟨runtime, _, hruntime, h⟩ := Action.bind_eq_ok_iff.mp h
  obtain ⟨-, rfl⟩ := Prod.mk.inj hruntime
  obtain ⟨w, _, hwrite, h⟩ := Action.bind_eq_ok_iff.mp h
  cases h
  exact ⟨_, _, w, rfl, hwrite⟩

/-- A run that gives a result wrote its report, or tried to. -/
theorem write_of_perform {input : Json} {r : RunResult} {s t : Session σ}
    (h : perform host plan input s = (.ok r, t)) :
    ∃ p u a b c w, progress host plan input (started s) = (.ok p, u) ∧
      r = (result plan p u.counts).timed a b c ∧
      Report.write r none (machineAtReport host plan input s) = (.ok w, t.machine) := by
  obtain ⟨began, _, hclock, h⟩ := Action.bind_eq_ok_iff.mp h
  cases hclock
  obtain ⟨before, v, houtcome, h⟩ := Action.bind_eq_ok_iff.mp h
  obtain ⟨_, _, hcounts, houtcome⟩ := Action.bind_eq_ok_iff.mp houtcome
  cases hcounts
  obtain ⟨p, u, hp, houtcome⟩ := Action.bind_eq_ok_iff.mp houtcome
  have houtcome : (Except.ok (result plan p u.counts), u) = (.ok before, v) := houtcome
  obtain ⟨hbefore, rfl⟩ := Prod.mk.inj houtcome
  obtain rfl := Except.ok.inj hbefore
  obtain ⟨finished, runtime, w, hr, hwrite⟩ := write_of_finish (Session.eq_of_onMachine h)
  have hp : progress host plan input (started s) = (.ok p, u) := hp
  refine ⟨p, u, _, finished, runtime, w, hp, hr, ?_⟩
  rw [machineAtReport, hp]
  exact hwrite

theorem outputDirectory_timed (r : RunResult) (started finished : Moment) (runtime : Number) :
    (r.timed started finished runtime).outputDirectory = r.outputDirectory := rfl

theorem outputDirectory_result (plan : RunPlan) (p : Progress) (counts : Members Nat) :
    (result plan p counts).outputDirectory = p.directory := by
  rw [result]
  cases p.outcome <;> rfl

theorem write_holds {captures : List LabelledSnapshot} {artifacts : List Artifact} {r : RunResult}
    {m m' : Machine} {paths : Path × Path} (hl : IsPlain l)
    (hm : Artifact.IsSaved l captures artifacts m.files)
    (hdirectory : r.outputDirectory = some (.ofLocation l))
    (hwrite : Report.write r none m = (.ok (some paths), m')) :
    ∃ log images report json,
      m'.files.Holds l
        ((logName, log) :: images ++ [(Report.reportName, report), (Report.resultName, json)]) ∧
      Utf8.encode r.payload.indented = .ok json ∧
      Artifact.AreImages (.ofLocation l) captures artifacts images := by
  obtain ⟨log, images, hholds, himages⟩ := hm
  have hnew : ∀ f ∈ (logName, log) :: images,
      f.1 ≠ Report.reportName ∧ f.1 ≠ Report.resultName := by
    intro f hf
    rcases List.mem_cons.mp hf with rfl | hf
    · exact (by decide : logName ≠ Report.reportName ∧ logName ≠ Report.resultName)
    · obtain ⟨a, -, hname⟩ := exists_of_mem_right himages.names hf
      rw [hname]
      exact ⟨(Artifact.ne_fileName (by decide) a.label).symm,
        (Artifact.ne_fileName (by decide) a.label).symm⟩
  obtain ⟨report, json, hjson, hall⟩ := Report.write_holds hl hholds hnew hdirectory hwrite
  exact ⟨log, images, report, json, hall, hjson, himages⟩

theorem write_of_carried {input : Json} {x : Script × Execution × List Artifact} {r : RunResult}
    {s t u : Session σ} (hrun : perform host plan input s = (.ok r, t))
    (hp : progress host plan input (started s) = (.ok ⟨some (.ofLocation l), .ok x⟩, u))
    (hready : IsReady l u) :
    r.outputDirectory = some (.ofLocation l) ∧
      ∃ paths, (Report.write r none (machineAtReport host plan input s)).1 = .ok (some paths) := by
  obtain ⟨p, v, a, b, c, w, hp', rfl, hwrite⟩ := write_of_perform hrun
  rw [hp] at hp'
  cases hp'
  have hfiles : (machineAtReport host plan input s).files.IsRunDirectory l := by
    rw [machineAtReport, hp]
    exact hready
  obtain ⟨paths, rfl⟩ := Report.exists_paths_of_write hfiles rfl hwrite
  exact ⟨rfl, paths, congrArg Prod.fst hwrite⟩

end Run

theorem Session.blank_isTree : blank.machine.files.IsTree := by
  refine ⟨fun l hl h => absurd ?_ h, fun _ h => absurd h List.not_mem_nil⟩
  rw [node?, if_neg (by simpa using hl)]
  rfl

namespace Run

theorem perform_tile :
    ∃ r t artifact,
      perform RehearsalHost.steady.host .still (Script.shot "tile").payload .blank = (.ok r, t) ∧
      r.ok = true ∧ r.outputDirectory = some (.ofLocation [directoryName .blank]) ∧
      (∃ paths, (Report.write r none (machineAtReport RehearsalHost.steady.host .still
        (Script.shot "tile").payload .blank)).1 = .ok (some paths)) ∧
      r.captures = [artifact] ∧ artifact.label = "tile" := by
  let script := Script.shot "tile"
  have hread : Script.read .standard .standard script.payload = .ok script := by decide +kernel
  have hserves := RehearsalHost.steady_serves "tile" (filesAtEntry .still script .blank)
  obtain ⟨entered, hserves, hready, hprogress⟩ := exists_entry hread hserves rfl
    Session.blank_isOutputRoot Session.blank_isTimed
  obtain ⟨execution, artifacts, u, hcarry, hlabels, hleft⟩ :=
    carryOut_ok (Script.isLoggable_of_read hread) hserves hready (by decide) (by decide)
  rw [hcarry] at hprogress
  have hnames : artifacts.map Artifact.label = ["tile"] := hlabels
  obtain ⟨artifact, rfl, hname⟩ := List.map_eq_singleton_iff.mp hnames
  have hlabel : ∀ a ∈ [artifact], a.label.Encodable := by
    intro a ha
    rw [List.mem_singleton.mp ha, hname]
    decide
  obtain ⟨r, hr, hok, hcaptures⟩ := perform_of_carried Session.blank_isTimed
    (fun _ => ⟨.zero, rfl⟩) (by decide +kernel) hprogress hlabel (by decide +kernel)
  obtain ⟨hdirectory, hpaths⟩ := write_of_carried (Prod.ext hr rfl) hprogress hleft
  exact ⟨r, _, artifact, Prod.ext hr rfl, hok, hdirectory, hpaths, hcaptures, hname⟩

/-- What a run leaves in a directory that was not there before, if its log can be begun and its
report is written: the log, the report, the text of the result, one file for each image of the
result, and nothing else. The images are those that the host gives for the script, and a run that
fails leaves none. -/
theorem perform_leaves (host : Host σ) (plan : RunPlan) (input : Json) {s t : Session σ}
    {r : RunResult} {d : Path} {paths : Path × Path} (htree : s.machine.files.IsTree)
    (hrun : perform host plan input s = (.ok r, t)) (hdirectory : r.outputDirectory = some d)
    (hnew : s.machine.files.node? d.names = none)
    (hlog : (openLog plan (started s).machine).1 = .ok d)
    (hreport : (Report.write r none (machineAtReport host plan input s)).1 = .ok (some paths)) :
    ∃ log images report json,
      t.machine.files.Holds d.names
        ((logName, log) :: images ++ [(Report.reportName, report), (Report.resultName, json)]) ∧
      Utf8.encode r.payload.indented = .ok json ∧
      (r.ok = false → r.captures = [] ∧ images = []) ∧
      (r.ok = true → ∃ script execution, Script.read .standard .standard input = .ok script ∧
        Gives host plan script s execution ∧
        execution.captures.map LabelledSnapshot.label = script.labels ∧
        Artifact.AreImages d execution.captures r.captures images) := by
  obtain ⟨p, u, a, b, c, w, hp, hr, hwrite⟩ := write_of_perform hrun
  rw [hwrite] at hreport
  obtain rfl := Except.ok.inj hreport
  have hd : p.directory = some d := by
    rw [← outputDirectory_result plan p u.counts, ← hdirectory, hr]
    rfl
  obtain ⟨l, rfl, hl, hfailed, hdone⟩ := progress_leaves htree hnew hlog hp hd
  have hfiles : (machineAtReport host plan input s).files = u.machine.files := by
    rw [machineAtReport, hp]
  obtain ⟨hok, hcaptures, -⟩ := RunResult.timed_eq (result plan p u.counts) a b c
  rw [← hr] at hok hcaptures
  cases hout : p.outcome with
  | error e =>
    obtain ⟨log, hholds⟩ := hfailed e hout
    obtain ⟨hbad, -, hnone, -⟩ := result_of_error plan hout u.counts
    have hsaved : Artifact.IsSaved l [] [] (machineAtReport host plan input s).files :=
      ⟨log, [], hfiles ▸ hholds, rfl, .nil, .nil, .nil⟩
    obtain ⟨log, images, report, json, hall, hjson, himages⟩ :=
      write_holds hl hsaved hdirectory hwrite
    refine ⟨log, images, report, json, hall, hjson, fun _ => ⟨hcaptures.trans hnone, ?_⟩, ?_⟩
    · exact List.forall₂_nil_left_iff.mp himages.paths
    · intro htrue
      rw [hok, hbad] at htrue
      cases htrue
  | ok x =>
    obtain ⟨hread, hgives, hsaved⟩ := hdone x hout
    rw [← hfiles] at hsaved
    obtain ⟨log, images, report, json, hall, hjson, himages⟩ :=
      write_holds hl hsaved hdirectory hwrite
    have hkept : r.captures = x.2.2 := by rw [hcaptures, result, hout]
    refine ⟨log, images, report, json, hall, hjson, fun hfalse => ?_, fun _ => ?_⟩
    · rw [hok, result_of_ok plan hout] at hfalse
      cases hfalse
    · obtain ⟨entered, served, henter, hexecution⟩ := hgives
      have hlabels := Driver.execute_labels _ _ _ hexecution
      exact ⟨x.1, x.2.1, hread, ⟨entered, served, henter, hexecution⟩, hlabels, hkept ▸ himages⟩

/-- On a machine without any files a snapshot under the label `tile` is left in one file beside the
log and the report. -/
theorem perform_leaves_tile :
    ∃ r t log image report json,
      perform RehearsalHost.steady.host .still (Script.shot "tile").payload .blank = (.ok r, t) ∧
      r.ok = true ∧
      t.machine.files.Holds [directoryName .blank] [(logName, log), ("01-tile.png", image),
        (Report.reportName, report), (Report.resultName, json)] := by
  let host := RehearsalHost.steady.host
  let script := Script.shot "tile"
  let d : Path := .ofLocation [directoryName .blank]
  have hlog : (openLog .still (started Session.blank).machine).1 = .ok d :=
    toOption_eq_some_iff.mp (by decide +kernel)
  obtain ⟨r, t, artifact, hrun, hok, hdirectory, ⟨paths, hpaths⟩, hcaptures, hlabel⟩ :=
    perform_tile
  obtain ⟨log, images, report, json, hholds, -, -, hdone⟩ :=
    perform_leaves host .still script.payload Session.blank_isTree hrun hdirectory rfl hlog hpaths
  obtain ⟨_, _, -, -, -, himages⟩ := hdone hok
  have hnames := himages.names
  rw [hcaptures] at hnames
  cases hnames with
  | @cons _ file _ _ hfile hrest =>
    cases hrest
    have hpng : file.1 = ("01-tile.png" : Text) := by
      rw [hfile, hlabel]
      decide
    obtain ⟨name, image⟩ := file
    obtain rfl : name = ("01-tile.png" : Text) := hpng
    exact ⟨_, _, log, image, report, json, hrun, hok, hholds⟩

end Run

end Replay
