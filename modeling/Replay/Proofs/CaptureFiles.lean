import Replay.Proofs.DirectoryContents

namespace Replay

open Text FileSystem

/-- The image of the snapshot can be decoded. -/
def LabelledSnapshot.IsReadable (c : LabelledSnapshot) : Prop :=
  ∃ decoded, Capture.decode Capture.byteLimit c.image = .ok decoded

namespace Artifact

variable {l : Location} {machine : Machine} {number : Nat} {c : LabelledSnapshot}

/-- A snapshot is saved if its image can be decoded and its file written. -/
theorem save_eq_ok_iff {directory : Path} {a : Artifact} {m m' : Machine} :
    save directory number c m = (.ok a, m') ↔ ∃ bytes size fs,
      Capture.decode Capture.byteLimit c.image = .ok (bytes, size) ∧
      m.files.writeBytes (directory.child (fileName number c.label)) bytes = .ok fs ∧
      a = ⟨c.label, c.frame, directory.child (fileName number c.label), size.width, size.height⟩ ∧
      m' = { m with files := fs } := by
  constructor
  · intro h
    obtain ⟨⟨bytes, size⟩, _, hdecode, h⟩ := Action.bind_eq_ok_iff.mp h
    obtain ⟨hdecoded, rfl⟩ := Prod.mk.inj hdecode
    obtain ⟨_, _, hupdate, h⟩ := Action.bind_eq_ok_iff.mp h
    obtain ⟨fs, hwrite, rfl⟩ := Machine.update_eq_ok_iff.mp hupdate
    cases h
    exact ⟨bytes, size, fs, mapError_eq_ok_iff.mp hdecoded, hwrite, rfl, rfl⟩
  · rintro ⟨bytes, size, fs, hdecoded, hwrite, rfl, rfl⟩
    rw [save, hdecoded]
    show (Machine.update _ >>= _) m = _
    rw [Action.bind_ok _ (Machine.update_eq_ok_iff.mpr ⟨fs, hwrite, rfl⟩)]
    rfl

/-- A snapshot that can be decoded is saved if the name of its file is not too long. -/
theorem save_ok (h : machine.files.IsRunDirectory l) (hread : c.IsReadable)
    (hsize : byteSize (fileName number c.label) ≤ nameLimit) :
    ∃ a machine', save (Path.ofLocation l) number c machine = (.ok a, machine') ∧
      a.label = c.label ∧ machine'.files.IsRunDirectory l := by
  obtain ⟨⟨bytes, size⟩, hdecode⟩ := hread
  obtain ⟨fs, hfs, hrun⟩ := h.exists_writeBytes (fileName_ne_dots number c.label) hsize
    (fun d hd => (isVisible_fileName number c.label d hd).isNameable) bytes
  exact ⟨_, _, save_eq_ok_iff.mpr ⟨bytes, size, fs, hdecode, hfs, rfl, rfl⟩, rfl, hrun⟩

theorem save_of_long (h : machine.files.IsRunDirectory l) (hread : c.IsReadable)
    (hsize : nameLimit < byteSize (fileName number c.label)) :
    (save (Path.ofLocation l) number c machine).1 = .error (.file (.access .nameTooLong
      ((Path.ofLocation l).child (fileName number c.label)))) := by
  obtain ⟨⟨bytes, size⟩, hdecode⟩ := hread
  have hopen := h.openFile_child_of_long (fileName_ne_dots number c.label) hsize
    fun d hd => (isVisible_fileName number c.label d hd).isNameable
  have hupdate : Machine.update (fun fs => fs.writeBytes
      ((Path.ofLocation l).child (fileName number c.label)) bytes) machine =
      (.error (.file (.access .nameTooLong
        ((Path.ofLocation l).child (fileName number c.label)))), machine) := by
    simp only [Machine.update, writeBytes, hopen]
  rw [save, hdecode]
  show ((Machine.update _ >>= _) machine).1 = _
  rw [Action.bind_error _ hupdate]

/-- Snapshots that can be decoded are saved if no name is too long, each under its label. -/
theorem saveFrom_ok (h : machine.files.IsRunDirectory l) (number : Nat)
    {captures : List LabelledSnapshot} (hread : ∀ c ∈ captures, c.IsReadable)
    (hsize : ∀ i c, captures[i]? = some c → byteSize (fileName (number + i) c.label) ≤ nameLimit) :
    ∃ artifacts machine', saveFrom (Path.ofLocation l) number captures machine =
      (.ok artifacts, machine') ∧ artifacts.map label = captures.map LabelledSnapshot.label ∧
      machine'.files.IsRunDirectory l := by
  induction captures generalizing number machine with
  | nil => exact ⟨[], machine, rfl, rfl, h⟩
  | cons c rest ih =>
    have hfirst : byteSize (fileName number c.label) ≤ nameLimit := hsize 0 c rfl
    obtain ⟨a, machine', hsave, hlabel, hrun⟩ :=
      save_ok h (hread c List.mem_cons_self) hfirst
    obtain ⟨others, machine'', hrest, hlabels, hlast⟩ := ih hrun (number + 1)
      (fun d hd => hread d (List.mem_cons_of_mem c hd)) fun i d hd => by
        have := hsize (i + 1) d hd
        rwa [show number + (i + 1) = number + 1 + i by omega] at this
    refine ⟨a :: others, machine'', ?_, by rw [List.map_cons, List.map_cons, hlabel, hlabels],
      hlast⟩
    rw [saveFrom, Action.bind_ok _ hsave, Action.bind_ok _ hrest]
    rfl

end Artifact

end Replay
