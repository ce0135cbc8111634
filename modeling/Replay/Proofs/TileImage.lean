import Replay.Proofs.RunCalls
import Replay.Proofs.TileRun
import Replay.Tile

namespace Replay

open FileSystem

variable {σ : Type}

namespace FileSystem

variable {fs fs' : FileSystem} {k l : Location} {bytes copied : Bytes}

theorem eq_of_readBytes (hk : IsPlain k) (hfile : fs.node? k = some (.file bytes))
    (h : fs.readBytes (.ofLocation k) = .ok copied) : copied = bytes := by
  unfold readBytes at h
  split at h
  · cases h
  · split at h
    next found b hlook =>
      cases h
      unfold look at hlook
      split at hlook
      · cases hlook
      next l hfind =>
        obtain rfl := eq_of_find hk hfind
        rw [hfile] at hlook
        split at hlook <;> cases hlook
        rfl
    · cases h
    · cases h

/-- A copy of a file has its bytes. -/
theorem copyFile_eq (hk : IsPlain k) (hl : IsPlain l) (hfile : fs.node? k = some (.file bytes))
    (h : fs.copyFile (.ofLocation k) (.ofLocation l) = .ok fs') :
    fs' = fs.put l (.file bytes) := by
  unfold copyFile at h
  split at h
  · cases h
  · dsimp only at h
    split_ifs at h
    split at h
    · cases h
    next copied hread => rw [writeBytes_eq hl h, eq_of_readBytes hk hfile hread]

namespace IsRunDirectory

variable {name other : Text} {n : Node} (h : fs.IsRunDirectory k) (hdots : name ≠ Path.dots)
  (hsize : byteSize name ≤ nameLimit)
include h hdots hsize

theorem look_child (hn : fs.node? (k ++ [name]) = some n) (kind : AccessKind) :
    fs.look kind ((Path.ofLocation k).child name) = .ok (k ++ [name], n) := by
  simp only [look, h.find_child hdots hsize, h.allowed kind _ (List.prefix_append k [name]), hn]

/-- A file of one run directory can be copied to another one. -/
theorem exists_copyFile (hname : ∀ c ∈ name, c.IsNameable)
    (hfile : fs.node? (k ++ [name]) = some (.file bytes)) (h' : fs.IsRunDirectory l)
    (hdots' : other ≠ Path.dots) (hsize' : byteSize other ≤ nameLimit)
    (hname' : ∀ c ∈ other, c.IsNameable) (hne : k ++ [name] ≠ l ++ [other]) :
    ∃ fs', fs.copyFile ((Path.ofLocation k).child name) ((Path.ofLocation l).child other) =
      .ok fs' := by
  have hread : fs.readBytes ((Path.ofLocation k).child name) = .ok bytes := by
    simp only [readBytes, nameError?_child h.nameable hname, h.look_child hdots hsize hfile]
  obtain ⟨fs', hwrite, -⟩ := h'.exists_writeBytes hdots' hsize' hname' bytes
  refine ⟨fs', ?_⟩
  rw [copyFile, nameError?_child h.nameable hname, nameError?_child h'.nameable hname']
  rw [h.look_child hdots hsize hfile .inspect, hread]
  cases hn : fs.node? (l ++ [other]) with
  | none =>
    have hlook : fs.look .inspect ((Path.ofLocation l).child other) = .error .missing := by
      simp only [look, h'.find_child hdots' hsize',
        h'.allowed .inspect _ (List.prefix_append l [other]), hn]
    rw [hlook]
    exact hwrite
  | some n =>
    rw [h'.look_child hdots' hsize' hn .inspect]
    simpa [hne] using hwrite

end IsRunDirectory

end FileSystem

namespace Tile

variable {host : Host σ} {clock stopwatch : Nat → Number} {runner : Runner σ}
  {vars : Settings.Variables} {settings : Settings} {game : Path} {s : Session σ} {g k : Location}
  {bytes : Bytes}

/-- The place of the tile image of a game. -/
def location (g : Location) : Location := g ++ [directoryName, fileName]

/-- What comes before the image is put in its place: the game, and the image of its run. -/
def take (runner : Runner σ) (vars : Settings.Variables) (settings : Option Settings)
    (game : Path) : Action (Session σ) (Path × Path) := do
  let game ← Session.onMachine (Machine.inspect fun fs => fs.resolve game)
  let files ← Action.read fun s => s.machine.files
  let settings ← match settings with
    | some settings => pure settings
    | none => Action.ofExcept (Settings.load files vars (some game))
  let result ← runner settings game.name Script.tile.payload
  let image ← Action.ofExcept ((source result).mapError Failure.tile)
  pure (game, image)

theorem capture_eq (runner : Runner σ) (vars : Settings.Variables) (settings : Option Settings)
    (game : Path) :
    capture runner vars settings game =
      take runner vars settings game >>= fun taken =>
        Session.onMachine (place taken.1 taken.2) := by
  unfold capture take
  cases settings with
  | none =>
    simp only [Action.bind_assoc]
    rfl
  | some settings =>
    simp only [Action.bind_assoc]
    rfl

/-- With settings that are given all that can go wrong is the run and what it comes to. -/
theorem take_of_resolve (runner : Runner σ) (vars : Settings.Variables)
    (h : s.machine.files.resolve game = .ok (.ofLocation g)) :
    take runner vars (some settings) game s =
      (runner settings (Path.ofLocation g).name Script.tile.payload >>= fun r =>
        Action.ofExcept ((source r).mapError Failure.tile) >>= fun image =>
          pure (Path.ofLocation g, image)) s := by
  have hresolve : Session.onMachine (Machine.inspect fun fs => fs.resolve game) s =
      (.ok (.ofLocation g), s) := by
    refine Session.onMachine_apply (m := s.machine) ?_
    show ((s.machine.files.resolve game).mapError Failure.file, s.machine) = _
    rw [h]
    rfl
  unfold take
  rw [Action.bind_ok _ hresolve]
  rfl

theorem isPlain_location (hg : IsPlain g) : IsPlain (location g) := by
  have hlocation : location g = g ++ [directoryName] ++ [fileName] := by simp [location]
  rw [hlocation]
  exact (hg.concat (by decide)).concat (by decide)

/-- The image that is put in its place has the bytes of the one that was taken. -/
theorem file_of_place {path : Path} {m m' : Machine} (hg : IsPlain g) (hk : IsPlain k)
    (hfile : m.files.node? k = some (.file bytes))
    (h : place (.ofLocation g) (.ofLocation k) m = (.ok path, m')) :
    path = .ofLocation (location g) ∧
      m'.files.node? (location g) = some (.file bytes) := by
  obtain ⟨_, m₁, halter, h⟩ := Action.bind_eq_ok_iff.mp h
  obtain ⟨fs, hmake, rfl⟩ := Machine.alter_eq_ok_iff.mp halter
  obtain ⟨_, m₂, hupdate, h⟩ := Action.bind_eq_ok_iff.mp h
  obtain ⟨hpath, rfl⟩ := Prod.mk.inj h
  have htarget : ((Path.ofLocation g).child directoryName).child fileName =
      .ofLocation (location g) := by
    rw [Path.child_ofLocation, Path.child_ofLocation, location, List.append_assoc]
    rfl
  have hstill : fs.node? k = some (.file bytes) :=
    (clearsWay_of_makeDirectories (hg.concat (by decide)) hmake).1.node?_eq hfile
  refine ⟨(Except.ok.inj hpath).symm.trans htarget, ?_⟩
  unfold Machine.update at hupdate
  rw [htarget] at hupdate
  split at hupdate
  next fs' hcopy =>
    cases hupdate
    have hne : location g ≠ [] := by simp [location]
    rw [copyFile_eq hk (isPlain_location hg) hstill hcopy, node?_put hne, if_pos rfl]
  next => cases hupdate

/-- An image in the directory of a run can be put in its place, if that is elsewhere. -/
theorem place_ok {m : Machine} {d : Location} {name : Text}
    (hroot : m.files.IsOutputRoot g directoryName) (hd : m.files.IsRunDirectory d)
    (hdots : name ≠ Path.dots) (hsize : byteSize name ≤ nameLimit)
    (hname : ∀ c ∈ name, c.IsNameable) (hfile : m.files.node? (d ++ [name]) = some (.file bytes))
    (hout : ¬ g ++ [directoryName] <+: d) (hbelow : ¬ d <+: g ++ [directoryName]) :
    ∃ path m', place (.ofLocation g) (.ofLocation (d ++ [name])) m = (.ok path, m') := by
  have hplain : IsPlain (g ++ [directoryName]) :=
    IsPlain.concat (fun part hpart => (hroot.reached.names part hpart).1) (by decide)
  have hletters : Text.IsVisible directoryName ∧ Text.IsVisible fileName := by decide
  obtain ⟨fs, hmake, htarget⟩ := hroot.makeDirectories_eq (by decide) (by decide)
    fun c hc => (hletters.1 c hc).isNameable
  have hconfined := confined_makeDirectories hplain m.files
  rw [hmake] at hconfined
  have hsource := hd.of_confined hconfined
    (fun _ hway => hout ((List.prefix_append _ _).trans hway))
    fun _ hway => hbelow ((List.prefix_append _ _).trans hway)
  have hstill : fs.node? (d ++ [name]) = some (.file bytes) :=
    (clearsWay_of_makeDirectories hplain hmake).1.node?_eq hfile
  have hne : d ++ [name] ≠ g ++ [directoryName] ++ [fileName] := by
    intro heq
    obtain ⟨rfl, -⟩ := List.append_inj' heq (by simp)
    exact hout (List.prefix_refl _)
  obtain ⟨fs', hcopy⟩ := hsource.exists_copyFile hdots hsize hname hstill htarget (by decide)
    (by decide) (fun c hc => (hletters.2 c hc).isNameable) hne
  have halter :
      Machine.alter (fun fs => fs.makeDirectories ((Path.ofLocation g).child directoryName)) m =
        (.ok (), { m with files := fs }) := by
    rw [Path.child_ofLocation, Machine.alter, hmake]
    rfl
  have hupdate : Machine.update (fun fs => fs.copyFile (.ofLocation (d ++ [name]))
      (((Path.ofLocation g).child directoryName).child fileName)) { m with files := fs } =
      (.ok (), { m with files := fs' }) := by
    rw [← Path.child_ofLocation, Path.child_ofLocation g, Machine.update, hcopy]
  refine ⟨((Path.ofLocation g).child directoryName).child fileName, { m with files := fs' }, ?_⟩
  unfold place
  rw [Action.bind_ok _ halter, Action.bind_ok _ hupdate]
  rfl

/-- A result that offers an image is a good one with that capture alone. -/
theorem source_eq_ok {r : RunResult} {image : Path} (h : source r = .ok image) :
    r.ok = true ∧ ∃ a, r.captures = [a] ∧ a.path = image := by
  unfold source at h
  split at h
  next hok =>
    split at h
    next a hcaptures =>
      cases h
      exact ⟨hok, a, hcaptures, rfl⟩
    · cases h
  · cases h

/-- How a tile image that was taken came about. -/
theorem perform_of_take {image : Path × Path} {t : Session σ}
    (hgame : s.machine.files.resolve game = .ok (.ofLocation g))
    (h : take (Tile.runner host clock stopwatch) vars (some settings) game s = (.ok image, t)) :
    ∃ r, Run.perform host ⟨settings, some (Path.ofLocation g).name, clock, stopwatch⟩
        Script.tile.payload s = (.ok r, t) ∧
      source r = .ok image.2 ∧ image.1 = .ofLocation g := by
  rw [take_of_resolve _ _ hgame] at h
  obtain ⟨r, u, hrun, h⟩ := Action.bind_eq_ok_iff.mp h
  obtain ⟨path, v, hsource, h⟩ := Action.bind_eq_ok_iff.mp h
  cases h
  obtain ⟨hpath, rfl⟩ := Prod.mk.inj hsource
  exact ⟨r, hrun, mapError_eq_ok_iff.mp hpath, rfl⟩

/-- What is at the place of the tile image is as before, or nothing was there and a directory was
made on the way to the output root. -/
def IsKept (settings : Settings) (g : Location) (before after : FileSystem) : Prop :=
  after.node? (location g) = before.node? (location g) ∨
    ∃ l, before.resolve settings.outputRoot = .ok (.ofLocation l) ∧ location g <+: l ∧
      before.node? (location g) = none ∧ after.node? (location g) = some .directory

theorem not_isOutput_fileName : ¬ Run.IsOutput fileName := by
  rintro (h | ⟨number, label, h⟩)
  · revert h
    decide
  · have hhyphen : ('-' : CodePoint) ∈ Artifact.fileName number label := by
      simp [Artifact.fileName, Text.ofString]
    rw [← h] at hhyphen
    revert hhyphen
    decide

theorem directoryName_ne_fileName (m : Moment) : m.directoryName ≠ fileName := by
  intro h
  have hhyphen : ('-' : CodePoint) ∈ m.directoryName := by
    simp [Moment.directoryName, Moment.timeText, Text.ofString]
  rw [h] at hhyphen
  revert hhyphen
  decide

/-- No run writes the tile image. -/
theorem isKept_of_perform (host : Host σ) (plan : RunPlan) (input : Json) (g : Location)
    (hcwd : IsPlain s.machine.files.cwd) :
    IsKept plan.settings g s.machine.files (Run.perform host plan input s).2.machine.files := by
  cases hd : Run.ownDirectory? plan input s with
  | none =>
    obtain ⟨hfiles, -⟩ := Run.perform_of_none host hd
    exact .inl (congrArg (fun fs : FileSystem => fs.node? (location g)) hfiles)
  | some d =>
    obtain ⟨_, l, -, -, hresolve, rfl⟩ := Run.exists_of_ownDirectory? hcwd hd
    obtain ⟨hconfined, -⟩ := Run.perform_confined host hcwd hd
    have hlocation : location g = g ++ [directoryName] ++ [fileName] := by simp [location]
    rcases hconfined.files.nodes (location g) with
      ⟨name, _, hname, heq, -⟩ | hsame | ⟨hway, hnone, hmade⟩
    · rw [hlocation] at heq
      obtain ⟨-, hlast⟩ := List.append_inj' heq (by simp)
      rw [← List.singleton_inj.mp hlast] at hname
      exact absurd hname not_isOutput_fileName
    · exact .inl hsame
    · refine .inr ⟨l, hresolve, ?_, hnone, hmade⟩
      rcases List.prefix_concat_iff.mp hway with heq | hway
      · rw [hlocation] at heq
        obtain ⟨-, hlast⟩ := List.append_inj' heq (by simp)
        exact absurd (List.singleton_inj.mp hlast).symm (directoryName_ne_fileName _)
      · exact hway

theorem isKept_of_take (host : Host σ) (clock stopwatch : Nat → Number)
    (vars : Settings.Variables) (settings : Settings) (hcwd : IsPlain s.machine.files.cwd)
    (hgame : s.machine.files.resolve game = .ok (.ofLocation g)) :
    IsKept settings g s.machine.files
      (take (Tile.runner host clock stopwatch) vars (some settings) game s).2.machine.files := by
  have hrun := isKept_of_perform host ⟨settings, some (Path.ofLocation g).name, clock, stopwatch⟩
    Script.tile.payload g hcwd
  rw [take_of_resolve _ _ hgame, Action.bind_apply]
  unfold runner
  cases hperform : Run.perform host ⟨settings, some (Path.ofLocation g).name, clock, stopwatch⟩
      Script.tile.payload s with
  | mk q t =>
    rw [hperform] at hrun
    cases q with
    | error e => exact hrun
    | ok r =>
      dsimp only
      rw [Action.bind_apply]
      cases source r with
      | error e => exact hrun
      | ok image => exact hrun

theorem capture_follows (host : Host σ) (clock stopwatch : Nat → Number)
    (vars : Settings.Variables) (settings : Settings) (game : Path) :
    Action.Follows (Session.mapHost Recorded.host)
      (capture (Tile.runner host.recorded clock stopwatch) vars (some settings) game)
      (capture (Tile.runner host clock stopwatch) vars (some settings) game) := by
  refine (Session.onMachine_follows _).bind fun resolved => ?_
  refine Action.Follows.bind (fun _ => ⟨rfl, rfl⟩) fun files => ?_
  refine (Action.Follows.pure settings).bind fun settings => ?_
  refine (Run.perform_follows host.recorded_follows _ _).bind fun r => ?_
  exact (Action.Follows.ofExcept _).bind fun image => Session.onMachine_follows _

/-- On a host whose calls are noted, an image that was taken took those of the tile script. -/
theorem calls_of_capture {path : Path} {t : Session (Recorded σ)}
    (hgame : s.machine.files.resolve game = .ok (.ofLocation g))
    (h : capture (Tile.runner host.recorded clock stopwatch) vars (some settings) game
      (Run.watched s) = (.ok path, t)) :
    t.host.calls = [.runFrames (.int 120), .captureSnapshot, .readFrameCount] := by
  rw [capture_eq] at h
  obtain ⟨image, u, htake, hplace⟩ := Action.bind_eq_ok_iff.mp h
  obtain ⟨r, hrun, hsource, -⟩ := perform_of_take (s := Run.watched s) hgame htake
  obtain ⟨hok, -⟩ := source_eq_ok hsource
  obtain ⟨directory, v, w, x, _, -, -, hmade, hreplay, hhost, -⟩ :=
    Run.replay_of_perform Script.read_tile hrun hok
  have hcalls : Script.tile.calls .standard =
      .ok [.runFrames (.int 120), .captureSnapshot, .readFrameCount] := rfl
  obtain ⟨made, -, hnoted, hall⟩ := Run.replay_makes host _ hcalls directory v
  rw [hreplay] at hnoted hall
  dsimp only at hnoted
  obtain rfl := hall x rfl
  have hnone : v.host.calls = [] := by
    obtain ⟨-, rfl⟩ := Prod.mk.inj hmade
    rfl
  have hlast : t.host = u.host := by
    obtain ⟨-, rfl⟩ := Prod.mk.inj hplace
    rfl
  rw [hlast, hhost, hnoted, hnone]
  rfl

/-- Where the run goes well and its directory is apart from the game's snapshots, the image is put
in its place. -/
theorem capture_ok {root : Location} {r : RunResult} {t : Session σ}
    (hcwd : IsPlain s.machine.files.cwd)
    (hgame : s.machine.files.resolve game = .ok (.ofLocation g))
    (hresolve : s.machine.files.resolve settings.outputRoot = .ok (.ofLocation root))
    (hroot : s.machine.files.IsOutputRoot root (Run.directoryName s)) (hclock : s.machine.IsTimed)
    (hrun : Run.perform host ⟨settings, some (Path.ofLocation g).name, clock, stopwatch⟩
      Script.tile.payload s = (.ok r, t)) (hok : r.ok = true)
    (hplace : t.machine.files.IsOutputRoot g directoryName)
    (hout : ¬ g ++ [directoryName] <+: root ++ [Run.directoryName s])
    (hbelow : ¬ root ++ [Run.directoryName s] <+: g ++ [directoryName]) :
    ∃ path, (capture (Tile.runner host clock stopwatch) vars (some settings) game s).1 =
      .ok path := by
  obtain ⟨hdirectory, hown⟩ :=
    Run.isRunDirectory_of_perform Script.read_tile hresolve hroot hclock hrun hok
  obtain ⟨d, a, _, bytes, _, -, hd, hcaptures, himage, -, -, hfile⟩ :=
    Run.image_of_perform hcwd hrun hok
  cases hdirectory.symm.trans hd
  have hvisible := Artifact.isVisible_fileName 1 "tile"
  obtain ⟨path, m, hplaced⟩ := place_ok hplace hown (Artifact.fileName_ne_dots 1 "tile") (by decide)
    (fun c hc => (hvisible c hc).isNameable) hfile hout hbelow
  have htake : take (Tile.runner host clock stopwatch) vars (some settings) game s =
      (.ok (.ofLocation g, a.path), t) := by
    refine (take_of_resolve _ _ hgame).trans ((Action.bind_ok _ hrun).trans ?_)
    rw [source, hok, hcaptures]
    rfl
  refine ⟨path, ?_⟩
  rw [capture_eq, Action.bind_ok _ htake, himage, Session.onMachine_apply hplaced]

/-- The steady host carries out the tile script of a game. -/
theorem steady_serves (version : Option Text) (files : FileSystem) :
    RehearsalHost.steady.host.Serves { RunPlan.still with version } .tile files Session.blank.host
      ⟨.int 0, [.opened]⟩
      ⟨.int 120, [.opened, .runFrames (.int 120), .captureSnapshot, .readFrameCount]⟩
      ⟨.int 120, [.opened, .runFrames (.int 120), .captureSnapshot, .readFrameCount, .closed]⟩ where
  opens := rfl
  serves calls h := by
    obtain rfl : [.runFrames (.int 120), .captureSnapshot, .readFrameCount] = calls :=
      Except.ok.inj h
    rfl
  closes := rfl
  inTime k _ := rfl
  images execution t h c hc := by
    cases h
    obtain rfl := List.mem_singleton.mp hc
    exact Capture.isReadable_pointUrl _ _
  frames execution t h := by
    have hframe : Json.IsLoggable (.number (.int 120)) := Json.isLoggable_int (by decide +kernel)
    cases h
    refine ⟨hframe, fun c hc => ?_⟩
    obtain rfl := List.mem_singleton.mp hc
    exact hframe

theorem directoryName_ne_stamp : directoryName ≠ Run.directoryName Session.blank := by
  decide +kernel

/-- A run on a machine without any files leaves its root free for snapshots. -/
theorem isOutputRoot_of_confined {t : Session Stage}
    (h : Session.blank.machine.Confined [Run.directoryName Session.blank] t.machine) :
    t.machine.files.IsOutputRoot [] directoryName := by
  have hnone : ∀ rest, t.machine.files.node? (directoryName :: rest) = none := by
    intro rest
    rcases h.files.nodes (directoryName :: rest) with ⟨_, _, -, heq, -⟩ | hsame | ⟨hway, -⟩
    · exact absurd (List.cons.inj heq).1 directoryName_ne_stamp
    · exact hsame
    · exact absurd (List.cons_prefix_cons.mp hway).1 directoryName_ne_stamp
  refine ⟨⟨by simp, fun l hl => ?_⟩, by decide, by decide +kernel, fun bytes => ?_,
    fun other => ?_, fun _ _ _ => ?_⟩
  · rw [List.prefix_nil.mp hl]
    rfl
  · simp [hnone]
  · simp [hnone]
  · rw [h.files.version.refuses]
    rfl

/-- On the steady host and a machine without any files an image is put in its place. -/
theorem capture_steady :
    ∃ path, (capture (Tile.runner RehearsalHost.steady.host (fun _ => .int 0) fun _ => .real .zero)
      [] (some RunPlan.still.settings) (.ofLocation []) Session.blank).1 = .ok path := by
  let plan : RunPlan := { RunPlan.still with version := some (Path.ofLocation []).name }
  have hcwd : IsPlain Session.blank.machine.files.cwd := fun _ h => absurd h List.not_mem_nil
  obtain ⟨r, hr, hok, -⟩ := Run.perform_of_fits Script.read_tile (steady_serves plan.version _) rfl
    Session.blank_isOutputRoot Session.blank_isTimed (fun _ => ⟨.zero, rfl⟩) (by decide)
    (by decide) (by decide +kernel)
  obtain ⟨t, hrun⟩ : ∃ t, Run.perform RehearsalHost.steady.host plan Script.tile.payload .blank =
      (.ok r, t) := ⟨_, Prod.ext hr rfl⟩
  have hown : Run.ownDirectory? plan Script.tile.payload Session.blank =
      some [Run.directoryName .blank] := by
    rw [Run.ownDirectory?, Script.read_tile]
    rfl
  obtain ⟨hconfined, -⟩ := Run.perform_confined RehearsalHost.steady.host hcwd hown
  rw [hrun] at hconfined
  refine capture_ok hcwd rfl rfl Session.blank_isOutputRoot Session.blank_isTimed hrun hok
    (isOutputRoot_of_confined hconfined) (fun hway => ?_) fun hway => ?_
  · exact directoryName_ne_stamp (List.cons_prefix_cons.mp hway).1
  · exact directoryName_ne_stamp (List.cons_prefix_cons.mp hway).1.symm

/-- The tile image of a game, taken by runs of the tile script. An image that is given is at its
place: the host ran the frames and answered with one snapshot, and the file has the bytes of that.
If the run did not go well that is raised, and the run never comes without a capture. Whatever fails
before the image is put in its place, what was there stays, unless nothing was and the runs have
their directories there or below. -/
theorem capture_image (host : Host σ) (clock stopwatch : Nat → Number) (vars : Settings.Variables)
    (settings : Settings) (game : Path) (s : Session σ) (hcwd : IsPlain s.machine.files.cwd) :
    let files := s.machine.files
    let plan (g : Location) : RunPlan :=
      ⟨settings, some (Path.ofLocation g).name, clock, stopwatch⟩
    let after := capture (Tile.runner host clock stopwatch) vars (some settings) game s
    let noted := capture (Tile.runner host.recorded clock stopwatch) vars (some settings) game
      (Run.watched s)
    (noted.1 = after.1 ∧ Session.mapHost Recorded.host noted.2 = after.2) ∧
    (∀ path, after.1 = .ok path → ∃ g snapshot bytes size,
      files.resolve game = .ok (.ofLocation g) ∧ path = .ofLocation (location g) ∧
      noted.2.host.calls = [.runFrames (.int 120), .captureSnapshot, .readFrameCount] ∧
      host.Shows settings (Run.filesAtEntry (plan g) .tile s) s.host snapshot ∧
      Capture.decode Capture.byteLimit snapshot.image = .ok (bytes, size) ∧
      after.2.machine.files.node? (location g) = some (.file bytes)) ∧
    ∀ g, files.resolve game = .ok (.ofLocation g) →
      (∀ r t, Run.perform host (plan g) Script.tile.payload s = (.ok r, t) →
        source r ≠ .error .noCapture ∧
        (r.ok = false → after.1 = .error (.tile (.failedRun r.diagnostics)))) ∧
      ∀ e, after.1 = .error e →
        (∃ image u, take (Tile.runner host clock stopwatch) vars (some settings) game s =
            (.ok (.ofLocation g, image), u) ∧
          place (.ofLocation g) image u.machine = (.error e, after.2.machine)) ∨
        IsKept settings g files after.2.machine.files := by
  intro files plan after noted
  have hfollows : noted.1 = after.1 ∧ Session.mapHost Recorded.host noted.2 = after.2 :=
    capture_follows host clock stopwatch vars settings game (Run.watched s)
  have hafter : after = (take (Tile.runner host clock stopwatch) vars (some settings) game >>=
      fun taken => Session.onMachine (place taken.1 taken.2)) s := congrFun (capture_eq _ _ _ _) s
  refine ⟨hfollows, fun path hpath => ?_, fun g hgame => ⟨fun r t hrun => ⟨?_, ?_⟩, fun e he => ?_⟩⟩
  · obtain ⟨image, u, htake, hplace⟩ :=
      Action.bind_eq_ok_iff.mp (hafter.symm.trans (Prod.ext hpath rfl))
    obtain ⟨q, _, hinspect, -⟩ := Action.bind_eq_ok_iff.mp htake
    obtain ⟨hresolve, -⟩ := Machine.inspect_eq_ok_iff.mp (Session.eq_of_onMachine hinspect)
    obtain ⟨g, rfl, hg⟩ := exists_of_resolve hcwd hresolve
    obtain ⟨r, hrun, hsource, hfirst⟩ := perform_of_take hresolve htake
    obtain ⟨hok, a, hcaptures, himage⟩ := source_eq_ok hsource
    obtain ⟨d, a', snapshot, bytes, size, hd, -, hcaptures', hpath', hshows, hdecode, hfile⟩ :=
      Run.image_of_perform hcwd hrun hok
    obtain rfl : a = a' := List.singleton_inj.mp (hcaptures.symm.trans hcaptures')
    rw [hfirst, ← himage, hpath'] at hplace
    obtain ⟨hplaced, hbytes⟩ := file_of_place hg (hd.concat (Artifact.fileName_ne_dots 1 "tile"))
      hfile (Session.eq_of_onMachine hplace)
    have hcalls := calls_of_capture hresolve (Prod.ext (hfollows.1.trans hpath) rfl)
    exact ⟨g, snapshot, bytes, size, hresolve, hplaced, hcalls, hshows, hdecode, hbytes⟩
  · intro hnone
    cases hok : r.ok with
    | false =>
      rw [source, hok] at hnone
      cases hnone
    | true =>
      obtain ⟨_, a, _, _, _, -, -, hcaptures, -⟩ := Run.image_of_perform hcwd hrun hok
      rw [source, hok, hcaptures] at hnone
      cases hnone
  · intro hbad
    have htake : take (Tile.runner host clock stopwatch) vars (some settings) game s =
        (.error (.tile (.failedRun r.diagnostics)), t) := by
      refine (take_of_resolve _ _ hgame).trans ((Action.bind_ok _ hrun).trans ?_)
      rw [source, hbad]
      rfl
    rw [hafter, Action.bind_error _ htake]
  · rcases Action.bind_eq_error_iff.mp (hafter.symm.trans (Prod.ext he rfl)) with
      htake | ⟨image, u, htake, hplace⟩
    · have hkept := isKept_of_take host clock stopwatch vars settings hcwd hgame
      rw [htake] at hkept
      exact .inr hkept
    · obtain ⟨_, -, -, hfirst⟩ := perform_of_take hgame htake
      obtain ⟨game', path⟩ := image
      obtain rfl : game' = .ofLocation g := hfirst
      exact .inl ⟨path, u, htake, Session.eq_of_onMachine hplace⟩

/-- The picture of the steady host is put in its place, and a host that does not open leaves the old
image there. -/
theorem capture_image_of_steady_and_shut :
    let shut := RehearsalHost.host ⟨⟨.null, none, none, none⟩, some (.driver "shut"), none⟩
    let settings : Settings := ⟨.ofLocation ["g"], .ofLocation [], .ofLocation [directoryName],
      false, false, 1, []⟩
    let files := Session.blank.machine.files.putFile (location ["g"]) [1, 2]
    let s : Session Stage := ⟨Session.blank.host, ⟨files, Session.blank.machine.now⟩, []⟩
    (∃ t bytes size,
      capture (Tile.runner RehearsalHost.steady.host (fun _ => .int 0) fun _ => .real .zero) []
        (some RunPlan.still.settings) (.ofLocation []) Session.blank =
          (.ok (.ofLocation (location [])), t) ∧
      Capture.decode Capture.byteLimit (.text Capture.pointUrl) = .ok (bytes, size) ∧
      t.machine.files.node? (location []) = some (.file bytes)) ∧
    ∃ t, capture (Tile.runner shut (fun _ => .int 0) fun _ => .real .zero) [] (some settings)
        (.ofLocation ["g"]) s = (.error (.tile (.failedRun ["shut"])), t) ∧
      t.machine.files.node? (location ["g"]) = some (.file [1, 2]) := by
  intro shut settings files s
  have hcwd : IsPlain Session.blank.machine.files.cwd := fun _ h => absurd h List.not_mem_nil
  constructor
  · obtain ⟨path, hpath⟩ := capture_steady
    obtain ⟨-, hshown, -⟩ := capture_image RehearsalHost.steady.host (fun _ => .int 0)
      (fun _ => .real .zero) [] RunPlan.still.settings (.ofLocation []) .blank hcwd
    obtain ⟨g, snapshot, bytes, size, hgame, hplaced, -, hshows, hdecode, hfile⟩ :=
      hshown path hpath
    have hroot : g = [] := by
      cases hgame
      rfl
    have himage : snapshot.image = .text Capture.pointUrl := by
      obtain ⟨entered, advanced, taken, henter, hframes, htaken⟩ := hshows
      cases henter
      cases hframes
      cases htaken
      rfl
    rw [hroot] at hplaced hfile
    rw [hplaced] at hpath
    rw [himage] at hdecode
    clear hshown
    generalize capture _ _ _ _ Session.blank = after at hpath hfile ⊢
    exact ⟨after.2, bytes, size, Prod.ext hpath rfl, hdecode, hfile⟩
  · have hfailed : (capture (Tile.runner shut (fun _ => .int 0) fun _ => .real .zero) []
        (some settings) (.ofLocation ["g"]) s).1 = .error (.tile (.failedRun ["shut"])) := by
      decide +kernel
    have hgame : s.machine.files.resolve (.ofLocation ["g"]) = .ok (.ofLocation ["g"]) := by
      decide +kernel
    have hold : s.machine.files.node? (location ["g"]) = some (.file [1, 2]) := by
      decide +kernel
    obtain ⟨-, -, herror⟩ := capture_image shut (fun _ => .int 0) (fun _ => .real .zero) []
      settings (.ofLocation ["g"]) s hcwd
    obtain ⟨-, hkept⟩ := herror ["g"] hgame
    clear herror
    generalize capture _ _ _ _ s = after at hfailed hkept ⊢
    refine ⟨after.2, Prod.ext hfailed rfl, ?_⟩
    rcases hkept _ hfailed with ⟨image, u, htake, -⟩ | hsame | ⟨l, -, -, hnone, -⟩
    · have hnone : (take (Tile.runner shut (fun _ => .int 0) fun _ => .real .zero) []
          (some settings) (.ofLocation ["g"]) s).1.toBool = false := by decide +kernel
      rw [htake] at hnone
      cases hnone
    · exact hsame.trans hold
    · rw [hold] at hnone
      cases hnone

/-- Where the runs of a game have their directories at the place of its tile image, a run that fails
puts a directory there. -/
theorem capture_of_root_at_tile :
    let shut := RehearsalHost.host ⟨⟨.null, none, none, none⟩, some (.driver "shut"), none⟩
    let settings : Settings := ⟨.ofLocation ["g"], .ofLocation [], .ofLocation (location ["g"]),
      false, false, 1, []⟩
    let after := capture (Tile.runner shut (fun _ => .int 0) fun _ => .real .zero) []
      (some settings) (.ofLocation ["g"]) .blank
    after.1 = .error (.tile (.failedRun ["shut"])) ∧
      Session.blank.machine.files.node? (location ["g"]) = none ∧
      after.2.machine.files.node? (location ["g"]) = some .directory := by
  intro shut settings after
  exact ⟨by decide +kernel, by decide +kernel, by decide +kernel⟩

end Tile

end Replay
