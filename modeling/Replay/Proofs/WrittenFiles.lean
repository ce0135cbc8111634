import Replay.Proofs.RunFrame

namespace Replay

namespace FileSystem

variable {fs fs' fs'' : FileSystem} {p : Path} {k l done names : Location} {name : Text}
  {old : Option Bytes} {bytes : Bytes} {files : List (Text × Bytes)}

/-- Nothing but nodes differs, and what was a directory is one. -/
structure KeepsDirectories (fs fs' : FileSystem) : Prop where
  version : IsVersion fs fs'
  node : ∀ k, fs.node? k = some .directory → fs'.node? k = some .directory

namespace KeepsDirectories

theorem refl (fs : FileSystem) : KeepsDirectories fs fs := ⟨.refl fs, fun _ h => h⟩

theorem trans (h : KeepsDirectories fs fs') (h' : KeepsDirectories fs' fs'') :
    KeepsDirectories fs fs'' :=
  ⟨h.version.trans h'.version, fun k hk => h'.node k (h.node k hk)⟩

theorem put (hk : fs.node? k ≠ some .directory) (bytes : Bytes) :
    KeepsDirectories fs (fs.put k (.file bytes)) := by
  refine ⟨.put _ _ _, fun l hl => ?_⟩
  have hne : k ≠ [] := by
    rintro rfl
    exact hk rfl
  have hother : l ≠ k := fun heq => hk (heq ▸ hl)
  rw [node?_put hne, if_neg hother, hl]

/-- On the way along a path only directories are met. -/
theorem walk_eq (h : KeepsDirectories fs fs') (hwalk : fs.walk done names = .ok l) :
    fs'.walk done names = .ok l := by
  induction names generalizing done with
  | nil => exact hwalk
  | cons name rest ih =>
    rw [walk] at hwalk
    cases hdone : fs.node? done with
    | none => simp [hdone] at hwalk
    | some n =>
      cases n with
      | file b => simp [hdone] at hwalk
      | directory =>
        rw [walk, h.node done hdone]
        rw [hdone] at hwalk
        dsimp only at hwalk ⊢
        split
        next hdots =>
          rw [if_pos hdots] at hwalk
          exact ih hwalk
        next hdots =>
          rw [if_neg hdots] at hwalk
          split
          next hsize =>
            rw [if_pos hsize] at hwalk
            cases hwalk
          next hsize =>
            rw [if_neg hsize] at hwalk
            exact ih hwalk

theorem find_eq (h : KeepsDirectories fs fs') (hfind : fs.find p = .ok l) :
    fs'.find p = .ok l := by
  rw [find] at hfind ⊢
  split at hfind
  next => cases hfind
  next hsize =>
    rw [if_neg hsize, h.version.cwd]
    exact h.walk_eq hfind

end KeepsDirectories

theorem openFile_eq_ok_iff : fs.openFile p = .ok (l, old) ↔ nameError? p = none ∧
    fs.find p = .ok l ∧ fs.node? l.dropLast = some .directory ∧ fs.refuses .write l = none ∧
    fs.node? l = old.map .file := by
  constructor
  · intro h
    rw [openFile] at h
    split at h
    next => cases h
    next hname =>
      split at h
      next => cases h
      next m hfind =>
        split at h
        next => cases h
        next => cases h
        next hparent =>
          split at h
          next => cases h
          next hallowed =>
            split at h
            next => cases h
            next b hnode =>
              cases h
              exact ⟨hname, hfind, hparent, hallowed, hnode⟩
            next hnode =>
              cases h
              exact ⟨hname, hfind, hparent, hallowed, hnode⟩
  · rintro ⟨hname, hfind, hparent, hallowed, hnode⟩
    rw [openFile]
    simp only [hname, hfind, hparent, hallowed, hnode]
    cases old <;> rfl

theorem not_directory_of_openFile (h : fs.openFile p = .ok (l, old)) :
    fs.node? l ≠ some .directory := by
  obtain ⟨-, -, -, -, hnode⟩ := openFile_eq_ok_iff.mp h
  rw [hnode]
  cases old <;> simp

theorem openFile_put (h : fs.openFile p = .ok (l, old)) (bytes : Bytes) :
    (fs.put l (.file bytes)).openFile p = .ok (l, some bytes) := by
  obtain ⟨hname, hfind, hparent, hallowed, -⟩ := openFile_eq_ok_iff.mp h
  have hfile := not_directory_of_openFile h
  have hkept := KeepsDirectories.put hfile bytes
  have hne : l ≠ [] := by
    rintro rfl
    exact hfile rfl
  refine openFile_eq_ok_iff.mpr ⟨hname, hkept.find_eq hfind, hkept.node _ hparent, ?_, ?_⟩
  · rw [hkept.version.refuses, hallowed]
  · rw [node?_put hne, if_pos rfl]
    rfl

/-- A walk ends in an entry of the directory that its names but the last one lead to. -/
theorem exists_of_walk_concat (hname : name ≠ Path.dots)
    (h : fs.walk done (names ++ [name]) = .ok k) :
    ∃ l, fs.walk done names = .ok l ∧ fs.node? l = some .directory ∧ k = l ++ [name] := by
  induction names generalizing done with
  | nil =>
    rw [List.nil_append, walk] at h
    split at h
    next => cases h
    next => cases h
    next hdone =>
      rw [if_neg hname] at h
      split at h
      next => cases h
      next => exact ⟨done, rfl, hdone, (Except.ok.inj h).symm⟩
  | cons first rest ih =>
    rw [List.cons_append, walk] at h
    rw [walk]
    split at h
    next => cases h
    next => cases h
    next =>
      split at h
      next hdots =>
        rw [if_pos hdots]
        exact ih h
      next hdots =>
        rw [if_neg hdots]
        split at h
        next => cases h
        next hsize =>
          rw [if_neg hsize]
          exact ih h

theorem byteSize_text_child (hlong : pathLimit < byteSize p.text) :
    pathLimit < byteSize (p.child name).text := by
  have hchild : (p.child name).text =
      List.replicate p.slashes Path.slash ++ Text.join "/" (p.names ++ [name]) := by
    simp [Path.text, Path.child]
  rw [Path.text] at hlong
  rw [hchild, join_concat, byteSize_append]
  split at hlong
  next => exact absurd hlong (by decide)
  next =>
    rw [byteSize_append] at hlong
    split
    next hnone =>
      rw [hnone] at hlong
      have hempty : byteSize (Text.join "/" []) = 0 := rfl
      omega
    next =>
      rw [byteSize_append, byteSize_append]
      omega

/-- The path of an entry leads to an entry of the directory. -/
theorem exists_of_find_child (hname : name ≠ Path.dots) (h : fs.find (p.child name) = .ok k) :
    ∃ l, fs.find p = .ok l ∧ fs.node? l = some .directory ∧ k = l ++ [name] := by
  rw [find] at h
  split at h
  next => cases h
  next hshort =>
    obtain ⟨l, hwalk, hdirectory, rfl⟩ := exists_of_walk_concat hname h
    refine ⟨l, ?_, hdirectory, rfl⟩
    rw [find, if_neg fun hlong => hshort (byteSize_text_child hlong)]
    exact hwalk

/-- The files in the directory at the location, put there one after the other. -/
def putFiles (fs : FileSystem) (l : Location) (files : List (Text × Bytes)) : FileSystem :=
  files.foldl (fun fs f => fs.put (l ++ [f.1]) (.file f.2)) fs

theorem node?_putFiles (hk : ∀ f ∈ files, k ≠ l ++ [f.1]) :
    (fs.putFiles l files).node? k = fs.node? k := by
  induction files generalizing fs with
  | nil => rfl
  | cons f rest ih =>
    obtain ⟨hf, hrest⟩ := List.forall_mem_cons.mp hk
    rw [putFiles, List.foldl_cons]
    refine (ih hrest).trans ?_
    rw [node?_put (by simp), if_neg hf]

/-- Under different names no file is put in place of another one. -/
theorem node?_putFiles_of_mem (hnames : (files.map Prod.fst).Nodup) {f : Text × Bytes}
    (hf : f ∈ files) : (fs.putFiles l files).node? (l ++ [f.1]) = some (.file f.2) := by
  induction files generalizing fs with
  | nil => cases hf
  | cons first rest ih =>
    obtain ⟨hfirst, hrest⟩ := List.nodup_cons.mp hnames
    rw [putFiles, List.foldl_cons]
    rcases List.mem_cons.mp hf with rfl | hf
    · refine (node?_putFiles fun g hg heq => hfirst ?_).trans ?_
      · have hname : f.1 = g.1 := by simpa using heq
        exact hname ▸ List.mem_map_of_mem hg
      · rw [node?_put (by simp), if_pos rfl]
    · exact ih hrest hf

/-- The second file system is the first one with the files put in the directory that the path
leads to, each where no directory was. -/
structure Receives (p : Path) (l : Location) (files : List (Text × Bytes)) (fs fs' : FileSystem) :
    Prop where
  eq : fs' = fs.putFiles l files
  keeps : KeepsDirectories fs fs'
  entries : ∀ f ∈ files, fs'.find p = .ok l ∧ fs'.find (p.child f.1) = .ok (l ++ [f.1])

namespace Receives

theorem nil (p : Path) (l : Location) (fs : FileSystem) : Receives p l [] fs fs :=
  ⟨rfl, .refl fs, fun _ hf => absurd hf List.not_mem_nil⟩

theorem cons (hname : name ≠ Path.dots) (hwrite : fs.writeBytes (p.child name) bytes = .ok fs')
    (hrest : Receives p l files fs' fs'') :
    ∃ l, Receives p l ((name, bytes) :: files) fs fs'' := by
  rw [writeBytes] at hwrite
  split at hwrite
  next => cases hwrite
  next k old hopen =>
    cases hwrite
    obtain ⟨-, hfind, -⟩ := openFile_eq_ok_iff.mp hopen
    obtain ⟨place, hplace, hdirectory, rfl⟩ := exists_of_find_child hname hfind
    have hkeeps := (KeepsDirectories.put (not_directory_of_openFile hopen) bytes).trans hrest.keeps
    have hsame : ∀ f ∈ files, l = place := fun f hf =>
      Except.ok.inj ((hrest.entries f hf).1.symm.trans (hkeeps.find_eq hplace))
    refine ⟨place, ?_, hkeeps, fun f hf => ?_⟩
    · rw [hrest.eq]
      cases files with
      | nil => rfl
      | cons f others =>
        rw [hsame f List.mem_cons_self]
        rfl
    · rcases List.mem_cons.mp hf with rfl | hf
      · exact ⟨hkeeps.find_eq hplace, hkeeps.find_eq hfind⟩
      · exact hsame f hf ▸ hrest.entries f hf

end Receives

end FileSystem

end Replay
