import Replay.Proofs.DirectoryContents
import Replay.Proofs.ReportText

namespace Replay

open FileSystem

namespace Report

variable {l : Location} {files : List (Text × Bytes)} {r : RunResult} {m m' : Machine}
  {x : Except Failure Unit}

theorem titleMoment_preserves (finishedAt : Text) (fs : FileSystem) :
    Action.Preserves (fun m : Machine => m.files = fs) (titleMoment finishedAt) := by
  rw [titleMoment]
  split
  · exact fun _ h => h
  · split
    · exact .pure _
    · exact fun _ h => h
    · exact .fail _

theorem render_preserves (r : RunResult) (fs : FileSystem) :
    Action.Preserves (fun m : Machine => m.files = fs) (render r) :=
  (titleMoment_preserves _ _).bind fun _ => (Action.Preserves.ofExcept _).bind fun _ => .pure _

theorem writeTo_holds (hl : IsPlain l) (hm : m.files.Holds l files)
    (hnew : ∀ f ∈ files, f.1 ≠ reportName ∧ f.1 ≠ resultName)
    (h : writeTo r (.ofLocation l) m = (.ok (), m')) :
    ∃ report json, Utf8.encode r.payload.indented = .ok json ∧
      m'.files.Holds l (files ++ [(reportName, report), (resultName, json)]) := by
  obtain ⟨_, m₁, halter, h⟩ := Action.bind_eq_ok_iff.mp h
  obtain ⟨fs, hmake, rfl⟩ := Machine.alter_eq_ok_iff.mp halter
  have hholds : fs.Holds l files := hm.of_clearsWay (clearsWay_of_makeDirectories hl hmake).1
  obtain ⟨text, m₂, hrender, h⟩ := Action.bind_eq_ok_iff.mp h
  have hsame : m₂.files = fs := by
    have hkept := render_preserves r fs ⟨fs, m.now⟩ rfl
    rwa [hrender] at hkept
  obtain ⟨_, m₃, halter, h⟩ := Action.bind_eq_ok_iff.mp h
  obtain ⟨fs₃, hreport, rfl⟩ := Machine.alter_eq_ok_iff.mp halter
  obtain ⟨fs₄, hresult, rfl⟩ := Machine.alter_eq_ok_iff.mp h
  obtain ⟨report, -, rfl⟩ := writeText_eq (hl.concat (by decide)) hreport
  obtain ⟨json, hjson, rfl⟩ := writeText_eq (hl.concat (by decide)) hresult
  have hother : ∀ f ∈ files ++ [(reportName, report)], f.1 ≠ resultName := by
    intro f hf
    rcases List.mem_append.mp hf with hf | hf
    · exact (hnew f hf).2
    · rw [List.mem_singleton.mp hf]
      exact (by decide : reportName ≠ resultName)
  have hall := (hholds.add (fun f hf => (hnew f hf).1) report).add hother json
  rw [List.append_assoc] at hall
  rw [hsame]
  exact ⟨report, json, hjson, hall⟩

theorem write_holds {paths : Path × Path} (hl : IsPlain l) (hm : m.files.Holds l files)
    (hnew : ∀ f ∈ files, f.1 ≠ reportName ∧ f.1 ≠ resultName)
    (hdirectory : r.outputDirectory = some (.ofLocation l))
    (h : write r none m = (.ok (some paths), m')) :
    ∃ report json, Utf8.encode r.payload.indented = .ok json ∧
      m'.files.Holds l (files ++ [(reportName, report), (resultName, json)]) := by
  rw [write, hdirectory] at h
  have h : (Action.attempt (writeTo r (.ofLocation l)) >>= fun q => _) m = _ := h
  rw [Action.bind_apply, Action.attempt_apply] at h
  cases hwrite : writeTo r (.ofLocation l) m with
  | mk q t =>
    rw [hwrite] at h
    cases q with
    | ok _ =>
      cases h
      exact writeTo_holds hl hm hnew hwrite
    | error e =>
      dsimp only at h
      split at h <;> cases h

theorem isAccess_of_titleMoment {finishedAt : Text} {e : Failure}
    (h : titleMoment finishedAt m = (.error e, m')) : e.isAccess = false := by
  rw [titleMoment] at h
  by_cases hempty : finishedAt.isEmpty = true
  · rw [if_pos hempty] at h
    cases h
  · rw [if_neg hempty] at h
    cases hread : Moment.read finishedAt with
    | ok _ =>
      rw [hread] at h
      cases h
    | error refusal =>
      rw [hread] at h
      cases refusal with
      | notTimestamp => cases h
      | outOfRange =>
        cases h
        rfl

theorem isAccess_of_render {e : Failure} (h : render r m = (.error e, m')) :
    e.isAccess = false := by
  rcases Action.bind_eq_error_iff.mp h with h | ⟨_, _, -, h⟩
  · exact isAccess_of_titleMoment h
  · rcases Action.bind_eq_error_iff.mp h with h | ⟨_, _, -, h⟩
    · obtain ⟨hfixed, -⟩ := Prod.mk.inj h
      cases hduration : duration r with
      | ok duration =>
        rw [hduration] at hfixed
        cases hfixed
      | error n =>
        rw [hduration] at hfixed
        cases hfixed
        rfl
    · cases h

/-- Where files can be written only a text without a UTF-8 form is in the way. -/
theorem writeText_ends {name : Text} (hdots : name ≠ Path.dots)
    (hsize : byteSize name ≤ nameLimit) (hname : ∀ c ∈ name, c.IsNameable) (t : Text)
    (h : m.files.IsRunDirectory l)
    (ha : Machine.alter (fun fs => fs.writeText ((Path.ofLocation l).child name) t) m = (x, m')) :
    (x = .ok () ∧ m'.files.IsRunDirectory l) ∨ ∃ e, x = .error e ∧ e.isAccess = false := by
  by_cases ht : t.Encodable
  · obtain ⟨fs, hwrite, hfs⟩ := h.exists_writeText hdots hsize hname ht
    rw [Machine.alter, hwrite] at ha
    cases ha
    exact .inl ⟨rfl, hfs⟩
  · obtain ⟨old, hopen⟩ := h.openFile_child hdots hsize hname
    obtain ⟨e, he⟩ := Utf8.encode_of_not_encodable ht
    rw [Machine.alter, writeText, hopen] at ha
    simp only [he] at ha
    cases ha
    exact .inr ⟨_, rfl, rfl⟩

theorem isAccess_of_writeTo {e : Failure} (h : m.files.IsRunDirectory l)
    (hw : writeTo r (.ofLocation l) m = (.error e, m')) : e.isAccess = false := by
  have hmake : Machine.alter (fun fs => fs.makeDirectories (.ofLocation l)) m = (.ok (), m) := by
    rw [Machine.alter, h.makeDirectories_eq]
    rfl
  rw [writeTo, Action.bind_ok _ hmake] at hw
  rcases Action.bind_eq_error_iff.mp hw with hrender | ⟨report, m₁, hrender, hw⟩
  · exact isAccess_of_render hrender
  have h₁ : m₁.files.IsRunDirectory l := by
    have hsame := render_preserves r m.files m rfl
    rw [hrender] at hsame
    exact hsame ▸ h
  rcases Action.bind_eq_error_iff.mp hw with hreport | ⟨_, m₂, hreport, hw⟩
  · obtain ⟨hok, -⟩ | ⟨e', he, hacc⟩ :=
      writeText_ends (by decide) (by decide) isNameable_of_mem_reportName report h₁ hreport
    · cases hok
    · cases he
      exact hacc
  obtain ⟨-, h₂⟩ | ⟨e', he, -⟩ :=
    writeText_ends (by decide) (by decide) isNameable_of_mem_reportName report h₁ hreport
  · obtain ⟨hok, -⟩ | ⟨e', he, hacc⟩ := writeText_ends (by decide) (by decide)
      isNameable_of_mem_resultName r.payload.indented h₂ hw
    · cases hok
    · cases he
      exact hacc
  · cases he

/-- Where files can be written a report is not given up. -/
theorem exists_paths_of_write {w : Option (Path × Path)} (h : m.files.IsRunDirectory l)
    (hdirectory : r.outputDirectory = some (.ofLocation l)) (hw : write r none m = (.ok w, m')) :
    ∃ paths, w = some paths := by
  rw [write, hdirectory] at hw
  have hw : (Action.attempt (writeTo r (.ofLocation l)) >>= fun q => _) m = _ := hw
  rw [Action.bind_apply, Action.attempt_apply] at hw
  cases hwrite : writeTo r (.ofLocation l) m with
  | mk q t =>
    rw [hwrite] at hw
    cases q with
    | ok _ =>
      cases hw
      exact ⟨_, rfl⟩
    | error e =>
      dsimp only at hw
      rw [isAccess_of_writeTo h hwrite] at hw
      cases hw

end Report

end Replay
