import Replay.CommandLine
import Replay.Proofs.JsonSize
import Replay.Proofs.Outcome

namespace Replay

variable {σ : Type}

/-- Why a path has no absolute form. -/
inductive Settings.Misplaced (fs : FileSystem) (p : Path) : Failure → Prop
  | user {e : FileError} : FileSystem.homeError? p = some e → Misplaced fs p (.file e)
  | home : FileSystem.homeError? p = none → fs.expandHome? p = none → Misplaced fs p .homeUnknown
  | way {q : Path} {e : FileError} : FileSystem.homeError? p = none → fs.expandHome? p = some q →
    fs.resolve q = .error e → Misplaced fs p (.file e)

/-- Why a path leads to no text. -/
inductive FileSystem.Unreadable (fs : FileSystem) (p : Path) : FileError → Prop
  | name {e : FileError} : nameError? p = some e → Unreadable fs p e
  | refused {fault : AccessFault} : nameError? p = none → fs.look .read p = .error fault →
    Unreadable fs p (.access fault p)
  | directory {l : Location} : nameError? p = none → fs.look .read p = .ok (l, .directory) →
    Unreadable fs p (.access .isDirectory p)
  | bytes {l : Location} {bytes : Bytes} {e : Utf8Error} : nameError? p = none →
    fs.look .read p = .ok (l, .file bytes) → Utf8.decode bytes = .error e →
    Unreadable fs p (.undecodable e)

theorem Settings.absolute_eq_error_iff {fs : FileSystem} {p : Path} {f : Failure} :
    absolute fs p = .error f ↔ Misplaced fs p f := by
  unfold absolute
  constructor
  · intro h
    split at h
    next e hhome =>
      cases h
      exact .user hhome
    next hhome hexpand =>
      cases h
      exact .home hhome hexpand
    next q hhome hexpand =>
      cases hresolve : fs.resolve q with
      | ok r =>
        rw [hresolve] at h
        cases h
      | error e =>
        rw [hresolve] at h
        cases h
        exact .way hhome hexpand hresolve
  · intro h
    cases h with
    | user hhome => rw [hhome]
    | home hhome hexpand => rw [hhome, hexpand]
    | way hhome hexpand hresolve =>
      rw [hhome, hexpand]
      dsimp only
      rw [hresolve]
      rfl

theorem FileSystem.readText_eq_error_iff {fs : FileSystem} {p : Path} {e : FileError} :
    fs.readText p = .error e ↔ fs.Unreadable p e := by
  unfold readText readBytes
  constructor
  · intro h
    split at h
    next e' hbytes =>
      obtain rfl := Except.error.inj h
      split at hbytes
      next e'' hname =>
        obtain rfl := Except.error.inj hbytes
        exact .name hname
      next hname =>
        split at hbytes
        next => cases hbytes
        next l hlook =>
          cases hbytes
          exact .directory hname hlook
        next fault hlook =>
          cases hbytes
          exact .refused hname hlook
    next bytes hbytes =>
      split at h
      next => cases h
      next e' hdecode =>
        cases h
        split at hbytes
        next => cases hbytes
        next hname =>
          split at hbytes
          next l bytes' hlook =>
            obtain rfl := Except.ok.inj hbytes
            exact .bytes hname hlook hdecode
          next => cases hbytes
          next => cases hbytes
  · intro h
    cases h with
    | name hname => rw [hname]
    | refused hname hlook => rw [hname, hlook]
    | directory hname hlook => rw [hname, hlook]
    | bytes hname hlook hdecode =>
      rw [hname, hlook]
      dsimp only
      rw [hdecode]

namespace ScriptSource

variable {fs : FileSystem} {depth : Nat} {content : Except Utf8Error Text}
  {source : ScriptSource} {f : Failure}

/-- The text that a source holds ready for the reader of JSON. -/
def text? (fs : FileSystem) (content : Except Utf8Error Text) : ScriptSource → Option Text
  | input => content.toOption.map Text.trim
  | argument t => some t
  | file name =>
    (Settings.absolute fs (Path.ofText name)).toOption.bind fun path =>
      (fs.readText path).toOption
  | _ => none

/-- The failures of a source that are not its own errors. -/
inductive Escapes (fs : FileSystem) (depth : Nat) (content : Except Utf8Error Text) :
    ScriptSource → Failure → Prop
  | blank : Escapes fs depth content blank .notText
  | bytes {e : Utf8Error} : content = .error e →
    Escapes fs depth content input (.file (.undecodable e))
  | place {name : Text} {f : Failure} : Settings.Misplaced fs (Path.ofText name) f →
    Escapes fs depth content (file name) f
  | access {name : Text} {path : Path} {e : FileError} :
    Settings.absolute fs (Path.ofText name) = .ok path → fs.Unreadable path e →
    (∀ q, e ≠ .access .missing q) → Escapes fs depth content (file name) (.file e)
  | size {source : ScriptSource} {t : Text} {e : JsonError} : source.text? fs content = some t →
    Json.read depth t = .error e → e.isSyntax = false →
    Escapes fs depth content source (.json e)

/-- Beside the errors of the source, a text fails where it is too large. -/
theorem parse_eq_error_iff {t : Text} {blame : JsonError → SourceError} :
    (parse depth t blame = .error f ∧ ∀ e, f ≠ .source e) ↔
      ∃ e, Json.read depth t = .error e ∧ e.isSyntax = false ∧ f = .json e := by
  unfold parse
  cases hread : Json.read depth t with
  | ok value => simp
  | error e =>
    dsimp only
    constructor
    · rintro ⟨h, hnot⟩
      obtain rfl := Except.error.inj h
      cases hgrammar : e.isSyntax with
      | true => exact absurd (if_pos hgrammar) (hnot _)
      | false => exact ⟨e, rfl, hgrammar, if_neg Bool.false_ne_true⟩
    · rintro ⟨e', he, hgrammar, rfl⟩
      obtain rfl := Except.error.inj he
      rw [hgrammar]
      exact ⟨rfl, by simp⟩

theorem readInput_eq_error_iff :
    (readInput depth content = .error f ∧ ∀ e, f ≠ .source e) ↔
      Escapes fs depth content input f := by
  cases content with
  | error e =>
    constructor
    · rintro ⟨h, -⟩
      obtain rfl := Except.error.inj h
      exact .bytes rfl
    · intro h
      cases h with
      | bytes he =>
        obtain rfl := Except.error.inj he
        exact ⟨rfl, by simp⟩
      | size ht => cases ht
  | ok t =>
    rw [readInput]
    constructor
    · rintro ⟨h, hnot⟩
      split at h
      next =>
        obtain rfl := Except.error.inj h
        exact absurd rfl (hnot _)
      next =>
        obtain ⟨e, hread, hgrammar, rfl⟩ := parse_eq_error_iff.mp ⟨h, hnot⟩
        exact .size rfl hread hgrammar
    · intro h
      cases h with
      | bytes he => cases he
      | size ht hread hgrammar =>
        obtain rfl := Option.some.inj ht
        -- the empty text is outside the grammar
        have hsome : ¬ t.trim.isEmpty = true := by
          intro hempty
          rw [List.isEmpty_iff.mp hempty] at hread
          cases hread
          cases hgrammar
        rw [if_neg hsome]
        exact parse_eq_error_iff.mpr ⟨_, hread, hgrammar, rfl⟩

theorem text?_file_eq_some_iff {name t : Text} :
    text? fs content (file name) = some t ↔
      ∃ path, Settings.absolute fs (Path.ofText name) = .ok path ∧ fs.readText path = .ok t := by
  rw [text?, Option.bind_eq_some_iff]
  simp only [toOption_eq_some_iff]

theorem readFile_of_absolute {name : Text} {path : Path}
    (h : Settings.absolute fs (Path.ofText name) = .ok path) :
    readFile fs depth name = match fs.readText path with
      | .ok t => parse depth t fun _ => .fileNotJson path
      | .error (.access .missing _) => .error (.source (.fileMissing path))
      | .error e => .error (.file e) := by
  rw [readFile, h]
  rfl

theorem escapes_of_readFile {name : Text} (h : readFile fs depth name = .error f)
    (hnot : ∀ e, f ≠ .source e) : Escapes fs depth content (file name) f := by
  cases hplace : Settings.absolute fs (Path.ofText name) with
  | error e =>
    rw [readFile, hplace] at h
    obtain rfl := Except.error.inj h
    exact .place (Settings.absolute_eq_error_iff.mp hplace)
  | ok path =>
    rw [readFile_of_absolute hplace] at h
    split at h
    next t htext =>
      obtain ⟨e, hread, hgrammar, rfl⟩ := parse_eq_error_iff.mp ⟨h, hnot⟩
      exact .size (text?_file_eq_some_iff.mpr ⟨path, hplace, htext⟩) hread hgrammar
    next =>
      obtain rfl := Except.error.inj h
      exact absurd rfl (hnot _)
    next e hpresent htext =>
      obtain rfl := Except.error.inj h
      exact .access hplace (FileSystem.readText_eq_error_iff.mp htext) hpresent

theorem readFile_of_escapes {name : Text} (h : Escapes fs depth content (file name) f) :
    readFile fs depth name = .error f ∧ ∀ e, f ≠ .source e := by
  cases h with
  | place hmisplaced =>
    have hplace := Settings.absolute_eq_error_iff.mpr hmisplaced
    refine ⟨by rw [readFile, hplace]; rfl, ?_⟩
    intro e he
    subst he
    cases hmisplaced
  | access hplace hunreadable hpresent =>
    have htext := FileSystem.readText_eq_error_iff.mpr hunreadable
    refine ⟨?_, by simp⟩
    rw [readFile_of_absolute hplace, htext]
    split
    next h => cases h
    next q h =>
      obtain rfl := Except.error.inj h
      exact absurd rfl (hpresent q)
    next h =>
      obtain rfl := Except.error.inj h
      rfl
  | size ht hread hgrammar =>
    obtain ⟨path, hplace, htext⟩ := text?_file_eq_some_iff.mp ht
    rw [readFile_of_absolute hplace, htext]
    exact parse_eq_error_iff.mpr ⟨_, hread, hgrammar, rfl⟩

theorem read_eq_error_iff :
    (source.read fs depth content = .error f ∧ ∀ e, f ≠ .source e) ↔
      source.Escapes fs depth content f := by
  cases source with
  | smoke =>
    constructor
    · rintro ⟨h, -⟩
      cases h
    · intro h
      cases h with
      | size ht => cases ht
  | input => exact readInput_eq_error_iff
  | file name => exact ⟨fun h => escapes_of_readFile h.1 h.2, readFile_of_escapes⟩
  | argument t =>
    show (parse depth t _ = .error f ∧ _) ↔ _
    rw [parse_eq_error_iff]
    constructor
    · rintro ⟨e, hread, hgrammar, rfl⟩
      exact .size rfl hread hgrammar
    · intro h
      cases h with
      | size ht hread hgrammar =>
        obtain rfl := Option.some.inj ht
        exact ⟨_, hread, hgrammar, rfl⟩
  | blank =>
    constructor
    · rintro ⟨h, -⟩
      obtain rfl := Except.error.inj h
      exact .blank
    · intro h
      cases h with
      | blank => exact ⟨rfl, by simp⟩
      | size ht => cases ht
  | nowhere =>
    constructor
    · rintro ⟨h, hnot⟩
      obtain rfl := Except.error.inj h
      exact absurd rfl (hnot _)
    · intro h
      cases h with
      | size ht => cases ht

/-- Only a long text is refused for its size. -/
theorem exists_of_escapes_json {e : JsonError} (h : source.Escapes fs depth content (.json e)) :
    ∃ t, source.text? fs content = some t ∧ min depth digitLimit < t.length := by
  cases h with
  | place hmisplaced => cases hmisplaced
  | size ht hread hgrammar => exact ⟨_, ht, Json.lt_length_of_read hread hgrammar⟩

end ScriptSource

/-- The terminal of a command that has read its settings. -/
def Terminal.settled (t : Terminal σ) (settings : Settings) : Terminal σ :=
  { t with console := { t.console with verbose := some settings.debug } }

def Terminal.reported (t : Terminal σ) (message : Text) : Terminal σ :=
  { t with console := { t.console with errors := t.console.errors ++ [message] } }

namespace CommandLine

variable {host : Host σ} {s : CommandSetting} {o : Options} {t : Terminal σ} {settings : Settings}

/-- A command whose settings are read goes on with its subject. -/
theorem perform_of_load
    (h : Settings.load t.session.machine.files (o.override s.vars) none = .ok settings) :
    perform host s o t = (do
      match ← Action.attempt (inspect (subject s o settings)) with
      | .error (.source e) => do
        logError e.message
        pure 1
      | .error e => Action.fail e
      | .ok (script, version) => runScript host s settings script version : Action (Terminal σ) Nat)
        (t.settled settings) := by
  have hload : Action.attempt (inspect fun fs => Settings.load fs (o.override s.vars) none) t =
      (.ok (.ok settings), t) := by
    rw [Action.attempt_apply, inspect, h]
  rw [perform, Action.bind_ok _ hload]
  rfl

theorem attempt_subject {x : Except Failure (Json × Text)}
    (h : subject s o settings t.session.machine.files = x) :
    Action.attempt (inspect (subject s o settings)) t = (.ok x, t) := by
  rw [Action.attempt_apply, inspect, h]

/-- Sources and the command that reads them, on a file system without symbolic links: what is not an
error of the source is just what `Escapes` says, and the command reports the former and fails with
the latter. -/
theorem perform_of_source (host : Host σ) (s : CommandSetting) (o : Options) (t : Terminal σ) :
    let fs := t.session.machine.files
    let source := ScriptSource.ofOptions o s.input.terminal
    let content := s.input.content
    let outcome := source.read fs s.depth content
    (∀ f, (outcome = .error f ∧ ∀ e, f ≠ .source e) ↔ source.Escapes fs s.depth content f) ∧
    (∀ e, source.Escapes fs s.depth content (.json e) →
      ∃ text, source.text? fs content = some text ∧ min s.depth digitLimit < text.length) ∧
    ∀ settings, Settings.load fs (o.override s.vars) none = .ok settings →
      (∀ e, outcome = .error (.source e) →
        perform host s o t = (.ok 1, (t.settled settings).reported e.message)) ∧
      ∀ f, source.Escapes fs s.depth content f → (perform host s o t).1 = .error f := by
  intro fs source content outcome
  refine ⟨fun f => ScriptSource.read_eq_error_iff, fun e => ScriptSource.exists_of_escapes_json,
    fun settings hload => ⟨fun e he => ?_, fun f hf => ?_⟩⟩
  · have hsubject : subject s o settings fs = .error (.source e) := by
      show (outcome >>= _) = _
      rw [he]
      rfl
    have hattempt := attempt_subject (t := t.settled settings) hsubject
    rw [perform_of_load hload, Action.bind_ok _ hattempt]
    rfl
  · obtain ⟨hout, hnot⟩ := ScriptSource.read_eq_error_iff.mpr hf
    have hsubject : subject s o settings fs = .error f := by
      show (outcome >>= _) = _
      rw [show outcome = .error f from hout]
      rfl
    have hattempt := attempt_subject (t := t.settled settings) hsubject
    rw [perform_of_load hload, Action.bind_ok _ hattempt]
    cases f with
    | source e => exact absurd rfl (hnot e)
    | _ => rfl

/-- The bytes of the file are no UTF-8: the command fails with the error of the decoder. -/
theorem perform_of_undecodable :
    let o : Options := ⟨false, .given "u.json", .absent, false, .absent, .absent, .absent, false,
      false⟩
    let s : CommandSetting := ⟨[], ⟨.ok [], false⟩, 989, fun _ => .int 0, fun _ => .real .zero⟩
    let fs : FileSystem := ⟨[(["u.json"], .file [0x22, 0xFF, 0x22])], [], fun _ => none,
      fun _ _ => none⟩
    let host := RehearsalHost.host ⟨⟨.null, none, none, none⟩, none, none⟩
    let t : Terminal Stage := ⟨⟨⟨.int 0, []⟩,
      ⟨fs, .ofReadings fun _ => ⟨1970, 1, 1, 0, 0, 0, 0⟩⟩, []⟩, .empty⟩
    let e : FileError := .undecodable ⟨1, 1, 0xFF, .start⟩
    (ScriptSource.ofOptions o false).Escapes fs 989 (.ok []) (.file e) ∧
      (perform host s o t).1 = .error (.file e) := by
  intro o s fs host t e
  obtain ⟨hescapes, -, hperform⟩ := perform_of_source host s o t
  have hout : (ScriptSource.ofOptions o false).read fs 989 (.ok []) = .error (.file e) := rfl
  have hfails := (hescapes (.file e)).mp ⟨hout, by simp⟩
  exact ⟨hfails, (hperform _ rfl).2 _ hfails⟩

end CommandLine

end Replay
