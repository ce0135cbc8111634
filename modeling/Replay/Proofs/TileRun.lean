import Replay.Proofs.FrameAccounting
import Replay.Proofs.RunFrame

namespace Replay

open FileSystem

variable {σ : Type}

theorem Script.read_tile : Script.read .standard .standard Script.tile.payload = .ok .tile := by
  decide +kernel

/-- The host, entered from the state, runs the frames of the tile script and then answers with the
snapshot. -/
def Host.Shows (host : Host σ) (settings : Settings) (files : FileSystem) (start : σ)
    (snapshot : Snapshot) : Prop :=
  ∃ entered advanced taken, host.enter settings files start = (.ok (), entered) ∧
    host.driver.runFrames (.int 120) entered = (.ok (), advanced) ∧
    host.driver.captureSnapshot advanced = (.ok snapshot, taken)

namespace Driver

variable {driver : Driver σ} {timing : Timing} {viewport : Viewport}

/-- What it takes to carry out the tile script. -/
theorem execute_tile {clock : Nat → Number} {budget : Budget} {execution : Execution} {s t : σ}
    (h : driver.execute clock budget viewport .tile s = (.ok execution, t)) :
    ∃ advanced snapshot taken, driver.runFrames (.int 120) s = (.ok (), advanced) ∧
      driver.captureSnapshot advanced = (.ok snapshot, taken) ∧
      execution.captures = [⟨"tile", snapshot.frame, snapshot.image⟩] := by
  obtain ⟨timing, t₀, t₁, rfl, hsteps, -⟩ := steps_of_execute h
  obtain ⟨shot, others, t', hrun, hothers, htaken⟩ := step_of_performSteps hsteps
  obtain ⟨shot', none, t'', hsnap, hnone, rfl⟩ := step_of_performSteps hothers
  obtain ⟨rfl, -⟩ := eq_nil_of_performSteps hnone
  obtain ⟨_, advanced, hframes, hrun⟩ := Action.bind_eq_ok_iff.mp hrun
  obtain ⟨hshot, rfl⟩ := Prod.mk.inj hrun
  obtain ⟨snapshot, taken, hcapture, hsnap⟩ := Action.bind_eq_ok_iff.mp hsnap
  obtain ⟨hshot', -⟩ := Prod.mk.inj hsnap
  cases hshot
  cases hshot'
  exact ⟨_, snapshot, taken, hframes, hcapture, htaken⟩

end Driver

/-- One snapshot that is saved is decoded, and its bytes are the file of its artifact. -/
theorem Artifact.file_of_saveAll {l : Location} {c : LabelledSnapshot} {artifacts : List Artifact}
    {m m' : Machine} (hl : IsPlain l) (h : saveAll (.ofLocation l) [c] m = (.ok artifacts, m')) :
    ∃ a bytes size, artifacts = [a] ∧ a.path = .ofLocation (l ++ [fileName 1 c.label]) ∧
      Capture.decode Capture.byteLimit c.image = .ok (bytes, size) ∧
      m'.files.node? (l ++ [fileName 1 c.label]) = some (.file bytes) := by
  obtain ⟨a, _, hsave, h⟩ := Action.bind_eq_ok_iff.mp h
  obtain ⟨_, _, hnone, h⟩ := Action.bind_eq_ok_iff.mp h
  cases hnone
  cases h
  obtain ⟨bytes, size, fs, hdecoded, hwrite, rfl, rfl⟩ := save_eq_ok_iff.mp hsave
  refine ⟨_, bytes, size, rfl, rfl, hdecoded, ?_⟩
  have hplain := hl.concat (fileName_ne_dots 1 c.label)
  rw [writeBytes_eq hplain hwrite, node?_put (by simp), if_pos rfl]

/-- A directory of a run stays one while another run, or the same, goes on, unless one is in the
other. -/
theorem FileSystem.IsRunDirectory.of_confined {fs fs' : FileSystem} {l d : Location}
    (h : fs.IsRunDirectory l) (hconfined : Confined d fs fs')
    (hway : ∀ name, ¬ d ++ [name] <+: l) (hbelow : ∀ name, ¬ l ++ [name] <+: d) :
    fs'.IsRunDirectory l := by
  refine ⟨⟨h.reached.names, fun k hk => ?_⟩, h.nameable, h.room, fun name => ?_, ?_⟩
  · have hdirectory := h.reached.above k hk
    rcases hconfined.nodes k with ⟨name, _, -, rfl, -⟩ | hsame | ⟨-, hnone, -⟩
    · exact absurd hk (hway name)
    · rw [hsame, hdirectory]
    · rw [hdirectory] at hnone
      cases hnone
  · rcases hconfined.nodes (l ++ [name]) with ⟨_, bytes, -, -, hfile⟩ | hsame | ⟨hin, -, -⟩
    · rw [hfile]
      simp
    · rw [hsame]
      exact h.free name
    · exact absurd hin (hbelow name)
  · rw [hconfined.version.refuses]
    exact h.allowed

/-- A report leaves the other files of its directory alone. -/
theorem Report.write_keeps_file {l : Location} {r : RunResult} {name : Text} {bytes : Bytes}
    (hl : IsPlain l) (h : ∀ p ∈ r.outputDirectory, p = .ofLocation l)
    (hname : name ∉ [reportName, resultName]) :
    Action.Preserves (fun m : Machine => m.files.node? (l ++ [name]) = some (.file bytes))
      (write r none) := by
  refine write_preserves h (fun _ hm => hm) (fun m hm => ?_) fun other hother t m hm => ?_
  · exact (clearsWay_of_makeDirectories hl rfl).1.node?_eq hm
  · have hplain := hl.concat (Run.IsOutput.ne_dots (.inl (List.mem_cons_of_mem _ hother)))
    have hne : ¬ l ++ [name] = l ++ [other] := by
      intro heq
      obtain rfl : name = other := by simpa using heq
      exact hname hother
    show (m.files.writeText _ t).2.node? (l ++ [name]) = _
    unfold writeText
    split
    next => exact hm
    next k old hopen =>
      obtain rfl := eq_of_openFile hplain hopen
      split
      next => rwa [node?_put (by simp), if_neg hne]
      next => rwa [node?_put (by simp), if_neg hne]

namespace Run

variable {host : Host σ} {plan : RunPlan} {input : Json} {s t : Session σ} {r : RunResult}

/-- The steps behind a run that went well. -/
theorem replay_of_perform {script : Script}
    (hread : Script.read .standard .standard input = .ok script)
    (hrun : perform host plan input s = (.ok r, t)) (hok : r.ok = true) :
    ∃ directory u v x w, r.outputDirectory = some directory ∧ r.captures = x.2.2 ∧
      Session.onMachine (Machine.makeRunDirectory plan.settings.outputRoot) (started s) =
        (.ok directory, u) ∧
      replay host plan script directory u = (.ok x, v) ∧ t.host = v.host ∧
      Report.write r none { v.machine with now := v.machine.now.next.2 } = (.ok w, t.machine) := by
  obtain ⟨p, v, a, b, c, w, hp, rfl, hwrite⟩ := write_of_perform hrun
  have hhost : t.host = v.host := by
    rw [perform_eq hp] at hrun
    obtain ⟨-, rfl⟩ := Prod.mk.inj hrun
    rfl
  have hmachine : machineAtReport host plan input s =
      { v.machine with now := v.machine.now.next.2 } := by
    rw [machineAtReport, hp]
  obtain ⟨hsame, hcaptures, -⟩ := RunResult.timed_eq (result plan p v.counts) a b c
  have hdirectory : ((result plan p v.counts).timed a b c).outputDirectory = p.directory :=
    (outputDirectory_timed _ a b c).trans (outputDirectory_result plan p v.counts)
  rw [hsame] at hok
  cases hout : p.outcome with
  | error e =>
    obtain ⟨hbad, -⟩ := result_of_error plan hout v.counts
    rw [hbad] at hok
    cases hok
  | ok x =>
    rw [progress_of_read host plan hread] at hp
    cases hmade : Session.onMachine (Machine.makeRunDirectory plan.settings.outputRoot)
        (started s) with
    | mk q u =>
      rw [hmade] at hp
      cases q with
      | error e =>
        cases hp
        cases hout
      | ok directory =>
        cases hp
        refine ⟨directory, u, _, x, w, hdirectory, ?_, rfl, Prod.ext hout rfl, hhost,
          hmachine ▸ hwrite⟩
        rw [hcaptures, result, hout]

/-- A run of the tile script that went well has one image, the bytes of the host's snapshot, and
its report leaves it alone. -/
theorem image_of_perform (hcwd : IsPlain s.machine.files.cwd)
    (hrun : perform host plan Script.tile.payload s = (.ok r, t)) (hok : r.ok = true) :
    ∃ d a snapshot bytes size, IsPlain d ∧ r.outputDirectory = some (.ofLocation d) ∧
      r.captures = [a] ∧ a.path = .ofLocation (d ++ [Artifact.fileName 1 "tile"]) ∧
      host.Shows plan.settings (filesAtEntry plan .tile s) s.host snapshot ∧
      Capture.decode Capture.byteLimit snapshot.image = .ok (bytes, size) ∧
      t.machine.files.node? (d ++ [Artifact.fileName 1 "tile"]) = some (.file bytes) := by
  obtain ⟨directory, u, v, x, w, hdirectory, hcaptures, hmade, hreplay, -, hwrite⟩ :=
    replay_of_perform Script.read_tile hrun hok
  -- the directory is that of the run
  obtain ⟨l, hl, hown⟩ : ∃ l, IsPlain l ∧ ∀ p ∈ r.outputDirectory, p = .ofLocation l := by
    cases hd : ownDirectory? plan Script.tile.payload s with
    | none =>
      obtain ⟨-, -, hnone⟩ := perform_of_none host hd
      rw [hnone r (congrArg Prod.fst hrun)] at hdirectory
      cases hdirectory
    | some l =>
      obtain ⟨-, hown⟩ := perform_confined host hcwd hd
      obtain ⟨_, above, -, habove, -, rfl⟩ := exists_of_ownDirectory? hcwd hd
      exact ⟨_, habove.concat (Moment.directoryName_ne_dots _), hown r (congrArg Prod.fst hrun)⟩
  obtain rfl := hown directory hdirectory
  obtain ⟨-, entered, served, henter, hexecute⟩ := gives_of_replay hmade hreplay
  obtain ⟨advanced, snapshot, taken, hframes, htaken, hshots⟩ := Driver.execute_tile hexecute
  -- what is saved is that snapshot
  obtain ⟨_, _, -, hreplay⟩ := Action.bind_eq_ok_iff.mp hreplay
  obtain ⟨_, _, -, hreplay⟩ := Action.bind_eq_ok_iff.mp hreplay
  obtain ⟨_, _, -, hreplay⟩ := Action.bind_eq_ok_iff.mp hreplay
  obtain ⟨execution, _, -, hreplay⟩ := Action.bind_eq_ok_iff.mp hreplay
  obtain ⟨artifacts, _, hsave, hreplay⟩ := Action.bind_eq_ok_iff.mp hreplay
  cases hreplay
  have hsave := Session.eq_of_onMachine hsave
  rw [show execution.captures = _ from hshots] at hsave
  obtain ⟨a, bytes, size, rfl, hpath, hdecode, hfile⟩ := Artifact.file_of_saveAll hl hsave
  refine ⟨l, a, snapshot, bytes, size, hl, hdirectory, hcaptures, hpath,
    ⟨entered, advanced, taken, henter, hframes, htaken⟩, hdecode, ?_⟩
  have hname : Artifact.fileName 1 "tile" ∉ [Report.reportName, Report.resultName] := by decide
  have hkept := Report.write_keeps_file hl hown hname
    { v.machine with now := v.machine.now.next.2 } hfile
  rwa [hwrite] at hkept

/-- A run that went well leaves a directory for its files behind. -/
theorem isRunDirectory_of_perform {script : Script} {root : Location}
    (hread : Script.read .standard .standard input = .ok script)
    (hresolve : s.machine.files.resolve plan.settings.outputRoot = .ok (.ofLocation root))
    (hroot : s.machine.files.IsOutputRoot root (directoryName s)) (hclock : s.machine.IsTimed)
    (hrun : perform host plan input s = (.ok r, t)) (hok : r.ok = true) :
    r.outputDirectory = some (.ofLocation (root ++ [directoryName s])) ∧
      t.machine.files.IsRunDirectory (root ++ [directoryName s]) := by
  obtain ⟨directory, u, v, x, w, hdirectory, -, hmade, hreplay, -, hwrite⟩ :=
    replay_of_perform hread hrun hok
  obtain ⟨m, hmachine, hready⟩ := makeRunDirectory_ok hresolve hroot hclock
  obtain ⟨hpath, rfl⟩ := Prod.mk.inj (hmade.symm.trans (Session.onMachine_apply hmachine))
  obtain rfl := Except.ok.inj hpath
  have hd : IsPlain (root ++ [directoryName s]) :=
    fun name hname => (hready.reached.names name hname).1
  have hstart : Session.IsConfined (root ++ [directoryName s]) m { started s with machine := m } :=
    ⟨.refl _ m.files, rfl⟩
  have hreplayed := replay_confined host plan script hd _ hstart
  rw [hreplay] at hreplayed
  have hbefore : m.Confined (root ++ [directoryName s])
      { v.machine with now := v.machine.now.next.2 } := ⟨hreplayed.files, hreplayed.clock⟩
  have hown : ∀ p ∈ r.outputDirectory, p = .ofLocation (root ++ [directoryName s]) := by
    rw [hdirectory]
    exact fun p hp => (Option.some.inj hp).symm
  have hafter := Report.write_confined hd hown _ hbefore
  rw [hwrite] at hafter
  exact ⟨hdirectory, hready.of_confined hafter.files (fun _ h => by simpa using h.length_le)
    fun _ h => by simpa using h.length_le⟩

end Run

end Replay
