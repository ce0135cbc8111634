import Replay.Proofs.FileNames
import Replay.Proofs.SourceFailures

namespace Replay

/-- Why it cannot be told what is at a path. -/
structure FileSystem.Uninspectable (fs : FileSystem) (p : Path) (fault : AccessFault) : Prop where
  name : nameError? p = none
  look : fs.look .inspect p = .error fault
  present : fault ≠ .missing
  way : fault ≠ .notDirectory

theorem FileSystem.test_eq_error_iff {fs : FileSystem} {p : Path} {asked : Node → Bool}
    {e : FileError} :
    fs.test p asked = .error e ↔ ∃ fault, fs.Uninspectable p fault ∧ e = .access fault p := by
  unfold test
  constructor
  · intro h
    split at h
    next => cases h
    next hname =>
      split at h
      next => cases h
      next => cases h
      next => cases h
      next fault hmissing hway hlook =>
        exact ⟨fault, ⟨hname, hlook, hmissing, hway⟩, (Except.error.inj h).symm⟩
  · rintro ⟨fault, ⟨hname, hlook, hmissing, hway⟩, rfl⟩
    rw [hname, hlook]
    cases fault with
    | missing => exact absurd rfl hmissing
    | notDirectory => exact absurd rfl hway
    | _ => rfl

/-- Only a path that can be named is found to lead anywhere. -/
theorem FileSystem.nameError?_of_test {fs : FileSystem} {p : Path} {asked : Node → Bool}
    (h : fs.test p asked = .ok true) : nameError? p = none := by
  unfold test at h
  split at h
  next => cases h
  next hname => exact hname

theorem FileSystem.isDirectory_eq_true_iff {fs : FileSystem} {p : Path} :
    fs.isDirectory p = .ok true ↔
      nameError? p = none ∧ ∃ l, fs.look .inspect p = .ok (l, .directory) := by
  unfold isDirectory test
  constructor
  · intro h
    split at h
    next => cases h
    next hname =>
      split at h
      next l n hlook =>
        obtain rfl : n = .directory := by simpa using h
        exact ⟨hname, l, hlook⟩
      next => cases h
      next => cases h
      next => cases h
  · rintro ⟨hname, l, hlook⟩
    rw [hname, hlook]
    simp

/-- On the way along names that the system takes nothing is wrong with the path. -/
theorem FileSystem.pathError?_eq_none {done : Path} {names : List Text}
    (hdone : nameError? done = none) (h : ∀ name ∈ names, ∀ c ∈ name, c.IsNameable) :
    pathError? done names = none := by
  induction names generalizing done with
  | nil => rfl
  | cons name rest ih =>
    obtain ⟨hname, hrest⟩ := List.forall_mem_cons.mp h
    have hchild := nameError?_child hdone hname
    rw [pathError?]
    split
    · split
      · exact ih (nameError?_parent hdone) hrest
      · exact ih hchild hrest
    · rw [hchild]
      exact ih hchild hrest

/-- A path that can be named has an absolute form. -/
theorem FileSystem.exists_resolve (fs : FileSystem) {p : Path} (h : nameError? p = none) :
    ∃ q, fs.resolve p = .ok q := by
  have hroot : nameError? ⟨min p.slashes 1, []⟩ = none := nameError?_eq_none_iff.mpr (by simp)
  rw [resolve, pathError?_eq_none hroot (nameError?_eq_none_iff.mp h)]
  exact ⟨_, rfl⟩

theorem Path.isAbsolute_append {p : Path} (hp : p.isAbsolute = true) (q : Path) :
    (p ++ q).isAbsolute = true := by
  show (append p q).isAbsolute = true
  rw [append]
  split
  next hq => exact hq
  next => exact hp

namespace Settings

variable {fs : FileSystem} {vars : Variables} {name : Text} {p q : Path} {f : Failure}

theorem isAbsolute_of_absolute (h : absolute fs p = .ok q) : q.isAbsolute = true := by
  unfold absolute at h
  split at h
  next => cases h
  next => cases h
  next =>
    rw [mapError_eq_ok_iff, FileSystem.resolve] at h
    split at h
    next => cases h
    next =>
      obtain rfl := Except.ok.inj h
      rfl

/-- An absolute path that can be named keeps having an absolute form. -/
theorem exists_absolute (fs : FileSystem) (hp : p.isAbsolute = true)
    (hname : FileSystem.nameError? p = none) : ∃ q, absolute fs p = .ok q := by
  have huser : p.homeUser? = none := by rw [Path.homeUser?, if_pos hp]
  have hhome : FileSystem.homeError? p = none := by rw [FileSystem.homeError?, huser]; rfl
  have hexpand : fs.expandHome? p = some p := by rw [FileSystem.expandHome?, huser]
  obtain ⟨q, hq⟩ := FileSystem.exists_resolve fs hname
  refine ⟨q, ?_⟩
  unfold absolute
  rw [hhome, hexpand]
  dsimp only
  rw [hq]
  rfl

theorem ne_settings_of_misplaced (h : Misplaced fs p f) (e : SettingsError) : f ≠ .settings e := by
  rintro rfl
  cases h

/-- The variable is left out or names a path that has an absolute form. -/
def IsPlaced (fs : FileSystem) (vars : Variables) (name : Text) : Prop :=
  ∀ t, value? vars name = some t → ∃ q, absolute fs (Path.ofText t.trim) = .ok q

theorem readPath_eq_error_iff {standard : Path} :
    readPath fs vars name standard = .error f ↔
      ∃ t, value? vars name = some t ∧ Misplaced fs (Path.ofText t.trim) f := by
  rw [readPath]
  cases value? vars name with
  | none => simp
  | some t => simp [absolute_eq_error_iff]

theorem exists_readPath_iff (standard : Path) :
    (∃ q, readPath fs vars name standard = .ok q) ↔ IsPlaced fs vars name := by
  rw [readPath, IsPlaced]
  cases value? vars name with
  | none => simp
  | some t => simp

theorem isAbsolute_of_readPath {standard : Path} (hstandard : standard.isAbsolute = true)
    (h : readPath fs vars name standard = .ok q) : q.isAbsolute = true := by
  rw [readPath] at h
  split at h
  next =>
    obtain rfl := Except.ok.inj h
    exact hstandard
  next => exact isAbsolute_of_absolute h

theorem exists_of_readBool (h : readBool vars name = .error f) : ∃ e, f = .settings e := by
  rw [readBool] at h
  split at h
  next => cases h
  next =>
    dsimp only at h
    split at h
    next => cases h
    next =>
      split at h
      next => cases h
      next => exact ⟨_, (Except.error.inj h).symm⟩

theorem exists_of_readPositive {standard : Int} (h : readPositive vars name standard = .error f) :
    ∃ e, f = .settings e := by
  rw [readPositive] at h
  split at h
  next => cases h
  next =>
    split at h
    next => exact ⟨_, (Except.error.inj h).symm⟩
    next =>
      split at h
      next => exact ⟨_, (Except.error.inj h).symm⟩
      next => cases h

theorem one_le_of_readPositive {standard n : Int} (hstandard : 1 ≤ standard)
    (h : readPositive vars name standard = .ok n) : 1 ≤ n := by
  rw [readPositive] at h
  split at h
  next =>
    obtain rfl := Except.ok.inj h
    exact hstandard
  next =>
    split at h
    next => cases h
    next =>
      split at h
      next => cases h
      next hpositive =>
        obtain rfl := Except.ok.inj h
        omega

/-- The game directory is there: the one that the variable names, or else the working directory. -/
def HasGame (fs : FileSystem) (vars : Variables) : Prop :=
  match value? vars gameRootName with
  | none => ∃ q, absolute fs (.ofLocation fs.cwd) = .ok q
  | some t => ∃ q l, absolute fs (Path.ofText t.trim) = .ok q ∧ FileSystem.nameError? q = none ∧
      fs.look .inspect q = .ok (l, .directory)

/-- Why a game directory is not found without its setting being to blame. -/
inductive Loses (fs : FileSystem) (vars : Variables) : Failure → Prop
  | place {t : Text} {f : Failure} : value? vars gameRootName = some t →
    Misplaced fs (Path.ofText t.trim) f → Loses fs vars f
  | inspection {t : Text} {q : Path} {fault : AccessFault} : value? vars gameRootName = some t →
    absolute fs (Path.ofText t.trim) = .ok q → fs.Uninspectable q fault →
    Loses fs vars (.file (.access fault q))
  | workplace {f : Failure} : value? vars gameRootName = none →
    Misplaced fs (.ofLocation fs.cwd) f → Loses fs vars f

/-- The failures of reading settings that blame no setting. Each one comes only if all that is read
ahead of it is there. -/
inductive Escapes (fs : FileSystem) (vars : Variables) : Failure → Prop
  | game {f : Failure} : Loses fs vars f → Escapes fs vars f
  | harness {t : Text} {f : Failure} : HasGame fs vars → value? vars harnessName = some t →
    Misplaced fs (Path.ofText t.trim) f → Escapes fs vars f
  | output {t : Text} {f : Failure} : HasGame fs vars → IsPlaced fs vars harnessName →
    value? vars outputName = some t → Misplaced fs (Path.ofText t.trim) f → Escapes fs vars f

/-- Settings that a run can be made with. -/
structure IsUsable (s : Settings) : Prop where
  gameRoot : s.gameRoot.isAbsolute = true
  harness : s.harness.isAbsolute = true
  outputRoot : s.outputRoot.isAbsolute = true
  timeout : 1 ≤ s.timeout

/-- The path of the game directory, once it is found to be one. -/
def gamePath (fs : FileSystem) (vars : Variables) : Except Failure Path :=
  readDirectory fs vars gameRootName >>= absolute fs

theorem readDirectory_of_value {t : Text} (ht : value? vars name = some t)
    (hq : absolute fs (Path.ofText t.trim) = .ok q) :
    readDirectory fs vars name =
      match fs.hasNode q, fs.isDirectory q with
      | .error e, _ => .error (.file e)
      | .ok false, _ => .error (.settings (.missing name q))
      | .ok true, .error e => .error (.file e)
      | .ok true, .ok false => .error (.settings (.notDirectory name q))
      | .ok true, .ok true => .ok q := by
  rw [readDirectory, ht]
  dsimp only
  rw [hq]
  show ((fs.hasNode q).mapError Failure.file >>= fun present => _) = _
  cases fs.hasNode q with
  | error e => rfl
  | ok present =>
    cases present with
    | false => rfl
    | true =>
      cases fs.isDirectory q with
      | error e => rfl
      | ok found => cases found <;> rfl

theorem readDirectory_of_misplaced {t : Text} (ht : value? vars name = some t)
    (h : Misplaced fs (Path.ofText t.trim) f) : readDirectory fs vars name = .error f := by
  rw [readDirectory, ht]
  dsimp only
  rw [absolute_eq_error_iff.mpr h]
  rfl

/-- What can be looked at is a directory, or else the setting is to blame. -/
theorem readDirectory_of_look {t : Text} (ht : value? vars name = some t)
    (hq : absolute fs (Path.ofText t.trim) = .ok q)
    (hlook : ∀ fault, ¬ fs.Uninspectable q fault) :
    (∃ e, readDirectory fs vars name = .error (.settings e)) ∨
      readDirectory fs vars name = .ok q ∧ FileSystem.nameError? q = none ∧
        ∃ l, fs.look .inspect q = .ok (l, .directory) := by
  have hnone (asked : Node → Bool) (e : FileError) : fs.test q asked ≠ .error e := by
    intro he
    obtain ⟨fault, hfault, -⟩ := FileSystem.test_eq_error_iff.mp he
    exact hlook fault hfault
  rw [readDirectory_of_value ht hq]
  cases hnode : fs.hasNode q with
  | error e => exact absurd hnode (hnone _ e)
  | ok present =>
    cases present with
    | false => exact .inl ⟨_, rfl⟩
    | true =>
      cases hdirectory : fs.isDirectory q with
      | error e => exact absurd hdirectory (hnone _ e)
      | ok found =>
        cases found with
        | false => exact .inl ⟨_, rfl⟩
        | true =>
          exact .inr ⟨rfl, FileSystem.nameError?_of_test hnode,
            (FileSystem.isDirectory_eq_true_iff.mp hdirectory).2⟩

theorem gamePath_of_none (h : value? vars gameRootName = none) :
    gamePath fs vars = absolute fs (.ofLocation fs.cwd) := by
  rw [gamePath, readDirectory, h]
  rfl

theorem gamePath_of_loses (h : Loses fs vars f) :
    gamePath fs vars = .error f ∧ ∀ e, f ≠ .settings e := by
  cases h with
  | place ht hplace =>
    refine ⟨?_, ne_settings_of_misplaced hplace⟩
    rw [gamePath, readDirectory_of_misplaced ht hplace]
    rfl
  | inspection ht hq hfault =>
    refine ⟨?_, fun _ h => nomatch h⟩
    have hnode : fs.hasNode _ = .error _ := FileSystem.test_eq_error_iff.mpr ⟨_, hfault, rfl⟩
    rw [gamePath, readDirectory_of_value ht hq, hnode]
    rfl
  | workplace hnone hplace =>
    refine ⟨?_, ne_settings_of_misplaced hplace⟩
    rw [gamePath_of_none hnone, absolute_eq_error_iff.mpr hplace]

theorem exists_gamePath (h : HasGame fs vars) : ∃ root, gamePath fs vars = .ok root := by
  rw [HasGame] at h
  cases ht : value? vars gameRootName with
  | none =>
    rw [ht] at h
    obtain ⟨q, hq⟩ := h
    exact ⟨q, by rw [gamePath_of_none ht, hq]⟩
  | some t =>
    rw [ht] at h
    obtain ⟨q, l, hq, hname, hlook⟩ := h
    have hdirectory : fs.isDirectory q = .ok true :=
      FileSystem.isDirectory_eq_true_iff.mpr ⟨hname, l, hlook⟩
    have hnode : fs.hasNode q = .ok true := by
      rw [FileSystem.hasNode, FileSystem.test, hname]
      dsimp only
      rw [hlook]
    obtain ⟨root, hroot⟩ := exists_absolute fs (isAbsolute_of_absolute hq) hname
    refine ⟨root, ?_⟩
    rw [gamePath, readDirectory_of_value ht hq, hnode, hdirectory]
    exact hroot

/-- A game directory is found, or its setting is to blame, or else it is lost. -/
theorem gamePath_cases (fs : FileSystem) (vars : Variables) :
    HasGame fs vars ∨ (∃ e, gamePath fs vars = .error (.settings e)) ∨ ∃ f, Loses fs vars f := by
  cases ht : value? vars gameRootName with
  | none =>
    cases hq : absolute fs (.ofLocation fs.cwd) with
    | ok q =>
      refine .inl ?_
      rw [HasGame, ht]
      exact ⟨q, hq⟩
    | error f => exact .inr (.inr ⟨f, .workplace ht (absolute_eq_error_iff.mp hq)⟩)
  | some t =>
    cases hq : absolute fs (Path.ofText t.trim) with
    | error f => exact .inr (.inr ⟨f, .place ht (absolute_eq_error_iff.mp hq)⟩)
    | ok q =>
      by_cases hfault : ∃ fault, fs.Uninspectable q fault
      · obtain ⟨fault, hfault⟩ := hfault
        exact .inr (.inr ⟨_, .inspection ht hq hfault⟩)
      · rcases readDirectory_of_look ht hq fun fault h => hfault ⟨fault, h⟩ with
          ⟨e, he⟩ | ⟨-, hname, l, hlook⟩
        · refine .inr (.inl ⟨e, ?_⟩)
          rw [gamePath, he]
          rfl
        · refine .inl ?_
          rw [HasGame, ht]
          exact ⟨q, l, hq, hname, hlook⟩

/-- What is read once the game directory is found. -/
def readRest (fs : FileSystem) (vars : Variables) (root : Path) : Except Failure Settings := do
  let harness ← readPath fs vars harnessName (root ++ standardHarness)
  let output ← readPath fs vars outputName (root ++ standardOutput)
  let showBrowser ← readBool vars showBrowserName
  let debug ← readBool vars debugName
  let timeout ← readPositive vars timeoutName standardTimeout
  pure ⟨root, harness, output, showBrowser, debug, timeout, standardArgs⟩

theorem load_eq (fs : FileSystem) (vars : Variables) :
    load fs vars none = gamePath fs vars >>= readRest fs vars := (bind_assoc _ _ _).symm

theorem load_of_gamePath {root : Path} (h : gamePath fs vars = .ok root) :
    load fs vars none = readRest fs vars root := by
  rw [load_eq, h]
  rfl

theorem isUsable_of_load {s : Settings} (h : load fs vars none = .ok s) : s.IsUsable := by
  rw [load_eq] at h
  obtain ⟨root, hroot, h⟩ := bind_eq_ok_iff.mp h
  obtain ⟨directory, -, hroot⟩ := bind_eq_ok_iff.mp hroot
  obtain ⟨harness, hharness, h⟩ := bind_eq_ok_iff.mp h
  obtain ⟨output, houtput, h⟩ := bind_eq_ok_iff.mp h
  obtain ⟨showBrowser, -, h⟩ := bind_eq_ok_iff.mp h
  obtain ⟨debug, -, h⟩ := bind_eq_ok_iff.mp h
  obtain ⟨timeout, htimeout, h⟩ := bind_eq_ok_iff.mp h
  obtain rfl := Except.ok.inj h
  have habsolute := isAbsolute_of_absolute hroot
  exact ⟨habsolute, isAbsolute_of_readPath (Path.isAbsolute_append habsolute _) hharness,
    isAbsolute_of_readPath (Path.isAbsolute_append habsolute _) houtput,
    one_le_of_readPositive (by decide) htimeout⟩

theorem escapes_of_readRest {root : Path} (hgame : HasGame fs vars)
    (h : readRest fs vars root = .error f) (hnot : ∀ e, f ≠ .settings e) : Escapes fs vars f := by
  rcases bind_eq_error_iff.mp h with h | ⟨harness, hharness, h⟩
  · obtain ⟨t, ht, hplace⟩ := readPath_eq_error_iff.mp h
    exact .harness hgame ht hplace
  have hplaced := (exists_readPath_iff _).mp ⟨harness, hharness⟩
  rcases bind_eq_error_iff.mp h with h | ⟨output, -, h⟩
  · obtain ⟨t, ht, hplace⟩ := readPath_eq_error_iff.mp h
    exact .output hgame hplaced ht hplace
  -- what is read after the paths can only blame its own setting
  refine absurd ?_ (not_exists.mpr hnot)
  rcases bind_eq_error_iff.mp h with h | ⟨showBrowser, -, h⟩
  · exact exists_of_readBool h
  rcases bind_eq_error_iff.mp h with h | ⟨debug, -, h⟩
  · exact exists_of_readBool h
  rcases bind_eq_error_iff.mp h with h | ⟨timeout, -, h⟩
  · exact exists_of_readPositive h
  · cases h

theorem load_of_escapes (h : Escapes fs vars f) :
    load fs vars none = .error f ∧ ∀ e, f ≠ .settings e := by
  cases h with
  | game h =>
    obtain ⟨hgame, hnot⟩ := gamePath_of_loses h
    refine ⟨?_, hnot⟩
    rw [load_eq, hgame]
    rfl
  | harness hgame ht hplace =>
    obtain ⟨root, hroot⟩ := exists_gamePath hgame
    refine ⟨?_, ne_settings_of_misplaced hplace⟩
    rw [load_of_gamePath hroot, readRest, readPath_eq_error_iff.mpr ⟨_, ht, hplace⟩]
    rfl
  | output hgame hplaced ht hplace =>
    obtain ⟨root, hroot⟩ := exists_gamePath hgame
    obtain ⟨harness, hharness⟩ :=
      (exists_readPath_iff (root ++ standardHarness)).mpr hplaced
    refine ⟨?_, ne_settings_of_misplaced hplace⟩
    rw [load_of_gamePath hroot, readRest, hharness]
    show (readPath fs vars outputName (root ++ standardOutput) >>= _) = _
    rw [readPath_eq_error_iff.mpr ⟨_, ht, hplace⟩]
    rfl

/-- Settings that are read can be used, on a file system without symbolic links. If none are read, a
setting is blamed for it, or else it is one of the failures that `Escapes` tells: a path has no
absolute form, for one because it starts at the home of a user who is not known, or the system
refuses to look at the game directory. A working directory that can be named is not among them. -/
theorem load_outcome (fs : FileSystem) (vars : Variables) :
    (∀ s, load fs vars none = .ok s → s.IsUsable) ∧
    (∀ f, (load fs vars none = .error f ∧ ∀ e, f ≠ .settings e) ↔ Escapes fs vars f) ∧
    (FileSystem.nameError? (.ofLocation fs.cwd) = none → value? vars gameRootName = none →
      HasGame fs vars) := by
  refine ⟨fun s => isUsable_of_load, fun f => ⟨fun ⟨h, hnot⟩ => ?_, load_of_escapes⟩, ?_⟩
  case refine_2 =>
    intro hname hnone
    rw [HasGame, hnone]
    exact exists_absolute _ rfl hname
  rcases gamePath_cases fs vars with hgame | ⟨e, he⟩ | ⟨f', hlost⟩
  · obtain ⟨root, hroot⟩ := exists_gamePath hgame
    rw [load_of_gamePath hroot] at h
    exact escapes_of_readRest hgame h hnot
  · rw [load_eq, he] at h
    obtain rfl := Except.error.inj h
    exact absurd rfl (hnot e)
  · obtain ⟨hload, -⟩ := load_of_escapes (.game hlost)
    obtain rfl := Except.error.inj (hload.symm.trans h)
    exact .game hlost

example : load ⟨[], [], fun _ => none, fun _ _ => none⟩ [(harnessName, "~nobody/harness.js")] none =
    .error .homeUnknown := rfl

end Settings

end Replay
