import Replay.Proofs.FileNames
import Replay.Proofs.MomentText
import Replay.Proofs.Outcome
import Replay.Report

namespace Replay

open Text

/-- Integers of a few digits have a text. -/
theorem Number.isShort_int {n : Int} (hlow : -2 ^ 63 ≤ n) (hhigh : n ≤ 2 ^ 63) :
    (Number.int n).isShort = true := by
  have hpow : 10 ^ 20 ≤ 10 ^ digitLimit := Nat.pow_le_pow_right (by decide) (by decide)
  rw [Number.isShort, decide_eq_true_eq]
  generalize 10 ^ digitLimit = limit at hpow
  omega

/-- Every text that the report of a result shows as it is has a UTF-8 form. -/
structure RunResult.IsEncodable (r : RunResult) : Prop where
  frameCount : r.frameCount.plain.Encodable
  startedAt : r.startedAt.Encodable
  finishedAt : r.finishedAt.Encodable
  directory : ∀ d ∈ r.outputDirectory, d.text.Encodable
  counts : ∀ c ∈ r.eventCounts, (Report.countText c).Encodable
  captures : ∀ a ∈ r.captures, a.label.Encodable ∧ a.frame.plain.Encodable ∧ a.path.name.Encodable
  diagnostics : ∀ t ∈ r.diagnostics, t.Encodable

namespace Report

/-- All lines have a UTF-8 form. -/
def AllEncodable (lines : List Text) : Prop := ∀ line ∈ lines, line.Encodable

@[simp] theorem allEncodable_nil : AllEncodable [] := by simp [AllEncodable]

@[simp] theorem allEncodable_cons {line : Text} {lines : List Text} :
    AllEncodable (line :: lines) ↔ line.Encodable ∧ AllEncodable lines := by simp [AllEncodable]

@[simp] theorem allEncodable_append {xs ys : List Text} :
    AllEncodable (xs ++ ys) ↔ AllEncodable xs ∧ AllEncodable ys := by
  simp only [AllEncodable, List.mem_append, or_imp, forall_and]

@[simp] theorem allEncodable_map {α : Type} {f : α → Text} {xs : List α} :
    AllEncodable (xs.map f) ↔ ∀ x ∈ xs, (f x).Encodable := List.forall_mem_map

/-- A line that is left out because its text is empty would not matter. -/
theorem allEncodable_optional {start t : Text} (hs : start.Encodable) :
    AllEncodable (optional (!t.isEmpty) (start ++ t)) ↔ t.Encodable := by
  cases t <;> simp [optional, hs]

theorem allEncodable_rows (number : Nat) (captures : List Artifact) :
    AllEncodable (rows number captures) ↔
      ∀ a ∈ captures, a.label.Encodable ∧ a.frame.plain.Encodable ∧ a.path.name.Encodable := by
  induction captures generalizing number with
  | nil => simp [rows]
  | cons a rest ih => simp [rows, row, ih, and_assoc]

theorem allEncodable_table (captures : List Artifact) :
    AllEncodable (table captures) ↔
      ∀ a ∈ captures, a.label.Encodable ∧ a.frame.plain.Encodable ∧ a.path.name.Encodable := by
  rw [table]
  cases captures with
  | nil => simp
  | cons a rest => simpa using allEncodable_rows 1 (a :: rest)

theorem allEncodable_diagnosticLines (diagnostics : List Text) :
    AllEncodable (diagnosticLines diagnostics) ↔ ∀ t ∈ diagnostics, t.Encodable := by
  rw [diagnosticLines]
  cases diagnostics with
  | nil => simp
  | cons t rest => simp [diagnosticLine]

theorem encodable_counts (counts : Members Json) :
    (Text.join ", " ((sortedCounts counts).map countText)).Encodable ↔
      ∀ c ∈ counts, (countText c).Encodable := by
  rw [encodable_join (encodable_ofString _)]
  refine allEncodable_map.trans ⟨fun h c hc => h c ?_, fun h c hc => h c ?_⟩
  · exact List.mem_mergeSort.mpr hc
  · exact List.mem_mergeSort.mp hc

theorem allEncodable_summary {duration : Text} (hd : duration.Encodable) (r : RunResult) :
    AllEncodable (summary r duration) ↔ r.frameCount.plain.Encodable ∧ r.startedAt.Encodable ∧
      r.finishedAt.Encodable ∧ (∀ d ∈ r.outputDirectory, d.text.Encodable) ∧
      ∀ c ∈ r.eventCounts, (countText c).Encodable := by
  have hcounts : AllEncodable (optional (!r.eventCounts.isEmpty)
      ("- Driver calls: " ++ Text.join ", " ((sortedCounts r.eventCounts).map countText))) ↔
      ∀ c ∈ r.eventCounts, (countText c).Encodable := by
    rw [← encodable_counts, optional]
    cases hc : r.eventCounts with
    | nil => simp [sortedCounts, Text.join]
    | cons c rest => simp
  have hdir : AllEncodable (r.outputDirectory.toList.map fun d => "- Artifacts: " ++ d.text) ↔
      ∀ d ∈ r.outputDirectory, d.text.Encodable := by
    simp
  simp only [summary, allEncodable_append, hcounts, hdir,
    allEncodable_optional (encodable_ofString _)]
  simp [optional, hd, and_assoc]

/-- The lines of a report have a UTF-8 form if all that they show has one. -/
theorem allEncodable_lines {duration : Text} (hd : duration.Encodable) (r : RunResult)
    (m : Moment) : AllEncodable (lines r m duration) ↔ r.IsEncodable := by
  simp only [lines, allEncodable_append, allEncodable_summary hd, allEncodable_table,
    allEncodable_diagnosticLines]
  constructor
  · rintro ⟨⟨⟨⟨⟨-, hf, hs, hfin, hdir, hcounts⟩, -⟩, hcap⟩, -⟩, hdiag⟩
    exact ⟨hf, hs, hfin, hdir, hcounts, hcap, hdiag⟩
  · rintro ⟨hf, hs, hfin, hdir, hcounts, hcap, hdiag⟩
    exact ⟨⟨⟨⟨⟨by simp, hf, hs, hfin, hdir, hcounts⟩, by simp⟩, hcap⟩, by simp⟩, hdiag⟩

/-- The text of a report, for the moment in its title. -/
def textOf (r : RunResult) (m : Moment) (duration : Text) : Text :=
  (Text.join "\n" (lines r m duration)).trim ++ "\n"

theorem encodable_textOf {duration : Text} (hd : duration.Encodable) (r : RunResult) (m : Moment) :
    (textOf r m duration).Encodable ↔ r.IsEncodable := by
  rw [textOf, encodable_append, encodable_trim, encodable_join (encodable_ofString _),
    ← allEncodable_lines hd r m]
  simp [AllEncodable]

variable {r : RunResult} {m : Moment} {shown : Text} {machine : Machine}

/-- A duration is shown if all numbers of the report have a text. -/
theorem duration_eq_ok_iff :
    duration r = .ok shown ↔
      r.frameCount.isShort = true ∧ r.runtime.fixed 2 = .ok shown ∧ hasShortTail r = true := by
  rw [duration]
  cases r.frameCount.isShort with
  | false => simp
  | true =>
    cases r.runtime.fixed 2 with
    | error e => simp
    | ok found => cases hasShortTail r <;> simp

theorem encodable_of_duration (h : duration r = .ok shown) : shown.Encodable := by
  obtain ⟨x, -, hx⟩ := bind_eq_ok_iff.mp (duration_eq_ok_iff.mp h).2.1
  obtain rfl := Except.ok.inj hx
  exact Double.encodable_fixed 2 x

theorem render_eq (r : RunResult) :
    render r = titleMoment r.finishedAt >>= fun m =>
      Action.ofExcept ((duration r).mapError Failure.number) >>= fun shown =>
        pure (textOf r m shown) := rfl

/-- Where all numbers have a text a report is given once its title has a moment. -/
theorem render_of_duration (hx : duration r = .ok shown) :
    render r = titleMoment r.finishedAt >>= fun m => pure (textOf r m shown) := by
  rw [render_eq, hx]
  rfl

/-- A result that tells when its run finished is rendered without looking at the clock. -/
theorem render_apply (hm : m.IsValid) (hf : r.finishedAt = m.text) (hx : duration r = .ok shown) :
    render r machine = (.ok (textOf r m shown), machine) := by
  have hne : m.text.isEmpty = false := by
    have := TimestampReader.length_text (m := m)
    cases ht : m.text with
    | nil => simp [ht] at this
    | cons c rest => rfl
  have ht : titleMoment m.text = (pure m : Action Machine Moment) := by
    rw [titleMoment, hne, Moment.read_text hm]
    rfl
  rw [render_of_duration hx, hf, ht]
  rfl

theorem alter_apply (f : FileSystem → Except FileError Unit × FileSystem) :
    Machine.alter f machine =
      ((f machine.files).1.mapError Failure.file, { machine with files := (f machine.files).2 }) :=
  rfl

/-- The file of the report can be opened in the directory, once that is there. -/
def Opens (files : FileSystem) (directory : Path) : Prop :=
  ∃ fs place, files.makeDirectories directory = (.ok (), fs) ∧
    fs.openFile (directory.child reportName) = .ok place

instance (files : FileSystem) (directory : Path) : Decidable (Opens files directory) :=
  match h : files.makeDirectories directory with
  | (.ok (), fs) =>
    match ho : fs.openFile (directory.child reportName) with
    | .ok place => .isTrue ⟨fs, place, h, ho⟩
    | .error _ => .isFalse fun ⟨fs', place, h', ho'⟩ => by
      obtain rfl : fs = fs' := (Prod.mk.inj (h.symm.trans h')).2
      cases ho.symm.trans ho'
  | (.error _, _) => .isFalse fun ⟨_, _, h', _⟩ => by cases h.symm.trans h'

theorem isNameable_of_mem_reportName : ∀ c ∈ reportName, c.IsNameable := by
  unfold CodePoint.IsNameable
  decide

theorem isNameable_of_mem_resultName : ∀ c ∈ resultName, c.IsNameable := by
  unfold CodePoint.IsNameable
  decide

/-- Writing a text that has a UTF-8 form fails only if the system refuses. -/
theorem isAccess_of_writeText {p : Path} {t : Text} {e : Failure}
    (hp : FileSystem.nameError? p = none) (ht : t.Encodable)
    (h : (Machine.alter (fun fs => fs.writeText p t) machine).1 = .error e) :
    e.isAccess = true := by
  rw [alter_apply, FileSystem.writeText, Utf8.encode_of_encodable ht] at h
  cases ho : machine.files.openFile p with
  | ok place =>
    rw [ho] at h
    cases h
  | error e' =>
    rw [ho] at h
    obtain rfl : Failure.file e' = e := Except.error.inj h
    exact FileSystem.isAccess_of_openFile ho hp

section

variable {d : Path}

theorem writeTo_of_no_directory {fs : FileSystem} {e : FileError}
    (h : machine.files.makeDirectories d = (.error e, fs)) :
    (writeTo r d machine).1 = .error (.file e) := by
  rw [writeTo, Action.bind_apply, alter_apply, h]
  rfl

/-- Once the directory is there the two files are written into it. -/
theorem writeTo_of_directory (hm : m.IsValid) (hf : r.finishedAt = m.text)
    (hx : duration r = .ok shown) {fs : FileSystem}
    (h : machine.files.makeDirectories d = (.ok (), fs)) :
    writeTo r d machine =
      (do
        Machine.alter fun fs => fs.writeText (d.child reportName) (textOf r m shown)
        Machine.alter fun fs => fs.writeText (d.child resultName) r.payload.indented)
        { machine with files := fs } := by
  rw [writeTo, Action.bind_apply, alter_apply, h]
  show (render r >>= _) _ = _
  rw [Action.bind_apply, render_apply hm hf hx]

theorem writeTo_of_not_opens (hd : FileSystem.nameError? d = none) (hm : m.IsValid)
    (hf : r.finishedAt = m.text) (hx : duration r = .ok shown) (h : ¬ Opens machine.files d) :
    ∃ e, (writeTo r d machine).1 = .error e ∧ e.isAccess = true := by
  cases hmk : machine.files.makeDirectories d with
  | mk made fs =>
    cases made with
    | error e =>
      exact ⟨.file e, writeTo_of_no_directory hmk, FileSystem.isAccess_of_makeDirectories hmk hd⟩
    | ok u =>
      cases ho : fs.openFile (d.child reportName) with
      | ok place => exact absurd ⟨fs, place, hmk, ho⟩ h
      | error e =>
        refine ⟨.file e, ?_, FileSystem.isAccess_of_openFile ho
          (FileSystem.nameError?_child hd isNameable_of_mem_reportName)⟩
        rw [writeTo_of_directory hm hf hx hmk, Action.bind_apply, alter_apply,
          FileSystem.writeText, ho]
        rfl

theorem writeTo_of_not_encodable (hm : m.IsValid) (hf : r.finishedAt = m.text)
    (hx : duration r = .ok shown) (h : Opens machine.files d) (hr : ¬ r.IsEncodable) :
    ∃ e, (writeTo r d machine).1 = .error (.file (.unencodable e)) := by
  obtain ⟨fs, place, hmk, ho⟩ := h
  have ht : ¬ (textOf r m shown).Encodable := fun h =>
    hr ((encodable_textOf (encodable_of_duration hx) r m).mp h)
  obtain ⟨e, he⟩ := Utf8.encode_of_not_encodable ht
  refine ⟨e, ?_⟩
  rw [writeTo_of_directory hm hf hx hmk, Action.bind_apply, alter_apply, FileSystem.writeText, ho]
  simp only [he]
  rfl

theorem writeTo_of_encodable (hd : FileSystem.nameError? d = none) (hm : m.IsValid)
    (hf : r.finishedAt = m.text) (hx : duration r = .ok shown) (hr : r.IsEncodable) {e : Failure}
    (h : (writeTo r d machine).1 = .error e) : e.isAccess = true := by
  have ht := (encodable_textOf (encodable_of_duration hx) r m).mpr hr
  have hreport := FileSystem.nameError?_child hd isNameable_of_mem_reportName
  have hresult := FileSystem.nameError?_child hd isNameable_of_mem_resultName
  cases hmk : machine.files.makeDirectories d with
  | mk made fs =>
    cases made with
    | error e' =>
      rw [writeTo_of_no_directory hmk] at h
      obtain rfl := Except.error.inj h
      exact FileSystem.isAccess_of_makeDirectories hmk hd
    | ok u =>
      rw [writeTo_of_directory hm hf hx hmk, Action.bind_apply] at h
      split at h
      next hw => exact isAccess_of_writeText hresult (Json.encodable_indented _) h
      next e' machine' hw =>
        obtain rfl := Except.error.inj h
        exact isAccess_of_writeText hreport ht (congrArg Prod.fst hw)

end

/-- The report can be opened in the directory of the run, but something that it shows has no UTF-8
form. -/
def Spoils (r : RunResult) (files : FileSystem) : Prop :=
  ∃ d, r.outputDirectory = some d ∧ Opens files d ∧ ¬ r.IsEncodable

theorem write_of_spoils (machine : Machine) (hm : m.IsValid) (hf : r.finishedAt = m.text)
    (hx : duration r = .ok shown) (h : Spoils r machine.files) :
    ∃ e, (write r none machine).1 = .error (.file (.unencodable e)) := by
  obtain ⟨d, hd, ho, hr⟩ := h
  obtain ⟨e, he⟩ := writeTo_of_not_encodable hm hf hx ho hr
  refine ⟨e, ?_⟩
  rw [write, hd]
  show ((Action.attempt (writeTo r d) >>= _) machine).1 = _
  rw [Action.bind_apply, Action.attempt]
  cases hw : writeTo r d machine with
  | mk w machine' =>
    obtain rfl : w = .error (.file (.unencodable e)) := by simpa [hw] using he
    rfl

theorem write_of_not_spoils (machine : Machine)
    (hname : ∀ d ∈ r.outputDirectory, FileSystem.nameError? d = none) (hm : m.IsValid)
    (hf : r.finishedAt = m.text) (hx : duration r = .ok shown) (h : ¬ Spoils r machine.files) :
    ∃ paths, (write r none machine).1 = .ok paths := by
  rw [write]
  cases hd : r.outputDirectory with
  | none => exact ⟨none, rfl⟩
  | some d =>
    have hn := hname d hd
    show ∃ paths, ((Action.attempt (writeTo r d) >>= _) machine).1 = .ok paths
    rw [Action.bind_apply, Action.attempt]
    cases hw : writeTo r d machine with
    | mk w machine' =>
      cases w with
      | ok u => exact ⟨_, rfl⟩
      | error e =>
        have he : e.isAccess = true := by
          by_cases hr : r.IsEncodable
          · exact writeTo_of_encodable hn hm hf hx hr (congrArg Prod.fst hw)
          · have ho : ¬ Opens machine.files d := fun ho => h ⟨d, hd, ho, hr⟩
            obtain ⟨e', he', hacc⟩ := writeTo_of_not_opens hn hm hf hx ho
            obtain rfl : e = e' := by simpa [hw] using he'
            exact hacc
        refine ⟨none, ?_⟩
        show ((if e.isAccess then pure none else Action.fail e : Action Machine _) machine').1 = _
        rw [if_pos he]
        rfl

end Report

end Replay
