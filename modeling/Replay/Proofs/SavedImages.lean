import Replay.Proofs.WrittenFiles

namespace Replay

open FileSystem

namespace Artifact

/-- The artifacts of snapshots whose images can be decoded, the first under the given number, with
the names and the contents of their files. -/
inductive Saved (directory : Path) :
    Nat → List LabelledSnapshot → List Artifact → List (Text × Bytes) → Prop
  | nil (number : Nat) : Saved directory number [] [] []
  | cons {number : Nat} {c : LabelledSnapshot} {bytes : Bytes} {size : ImageSize}
      {captures : List LabelledSnapshot} {artifacts : List Artifact} {files : List (Text × Bytes)}
      (decoded : Capture.decode Capture.byteLimit c.image = .ok (bytes, size))
      (others : Saved directory (number + 1) captures artifacts files) :
      Saved directory number (c :: captures)
        (⟨c.label, c.frame, directory.child (fileName number c.label), size.width, size.height⟩ ::
          artifacts)
        ((fileName number c.label, bytes) :: files)

variable {directory : Path} {number : Nat} {c : LabelledSnapshot} {a : Artifact}
  {captures : List LabelledSnapshot} {artifacts : List Artifact} {files : List (Text × Bytes)}
  {m m' : Machine}

namespace Saved

theorem length_eq (h : Saved directory number captures artifacts files) :
    artifacts.length = captures.length := by
  induction h with
  | nil => rfl
  | cons _ _ ih => exact congrArg (· + 1) ih

theorem paths (h : Saved directory number captures artifacts files) :
    artifacts.map path = (files.map Prod.fst).map directory.child := by
  induction h with
  | nil => rfl
  | cons _ _ ih => exact congrArg (_ :: ·) ih

/-- The names begin with the numbers of their snapshots. -/
theorem number_le (h : Saved directory number captures artifacts files) :
    ∀ f ∈ files, ∃ k label, number ≤ k ∧ f.1 = fileName k label := by
  induction h with
  | nil => simp
  | @cons number c bytes size captures artifacts files _ _ ih =>
    intro f hf
    rcases List.mem_cons.mp hf with rfl | hf
    · exact ⟨number, c.label, le_rfl, rfl⟩
    · obtain ⟨k, label, hk, hname⟩ := ih f hf
      exact ⟨k, label, by omega, hname⟩

theorem nodup (h : Saved directory number captures artifacts files) :
    (files.map Prod.fst).Nodup := by
  induction h with
  | nil => exact List.nodup_nil
  | @cons number c bytes size captures artifacts files _ others ih =>
    refine List.nodup_cons.mpr ⟨fun hmem => ?_, ih⟩
    obtain ⟨f, hf, hsame⟩ := List.mem_map.mp hmem
    obtain ⟨k, label, hk, hname⟩ := others.number_le f hf
    have hnumber := number_of_fileName (hname.symm.trans hsame)
    omega

/-- The snapshot at a place, with its artifact and its file. -/
theorem get {i : Nat} (h : Saved directory number captures artifacts files)
    (hc : captures[i]? = some c) (ha : artifacts[i]? = some a) :
    ∃ bytes size, Capture.decode Capture.byteLimit c.image = .ok (bytes, size) ∧
      a = ⟨c.label, c.frame, directory.child (fileName (number + i) c.label), size.width,
        size.height⟩ ∧ (fileName (number + i) c.label, bytes) ∈ files := by
  induction h generalizing i with
  | nil => cases hc
  | @cons number first bytes size captures artifacts files decoded _ ih =>
    cases i with
    | zero =>
      cases hc
      cases ha
      exact ⟨bytes, size, decoded, rfl, List.mem_cons_self⟩
    | succ i =>
      obtain ⟨bytes, size, hdecoded, hartifact, hfile⟩ := ih hc ha
      rw [show number + 1 + i = number + (i + 1) by omega] at hartifact hfile
      exact ⟨bytes, size, hdecoded, hartifact, List.mem_cons_of_mem _ hfile⟩

end Saved

/-- Snapshots that are saved are put in the directory under their names. -/
theorem saved_of_saveFrom (h : saveFrom directory number captures m = (.ok artifacts, m')) :
    ∃ files l, Saved directory number captures artifacts files ∧
      Receives directory l files m.files m'.files ∧ m'.now = m.now := by
  induction captures generalizing number artifacts m with
  | nil =>
    cases h
    exact ⟨[], [], .nil number, .nil _ _ _, rfl⟩
  | cons c rest ih =>
    obtain ⟨first, m₁, hfirst, h⟩ := Action.bind_eq_ok_iff.mp h
    obtain ⟨others, _, hothers, h⟩ := Action.bind_eq_ok_iff.mp h
    cases h
    obtain ⟨bytes, size, fs, hdecoded, hwrite, rfl, rfl⟩ := save_eq_ok_iff.mp hfirst
    obtain ⟨files, l, hsaved, hreceives, hnow⟩ := ih hothers
    obtain ⟨l, hall⟩ := Receives.cons (fileName_ne_dots number c.label) hwrite hreceives
    exact ⟨_, l, hsaved.cons hdecoded, hall, hnow⟩

/-- The artifact is the one of the snapshot with the number: its file is directly in the directory,
and it holds the bytes of the image. -/
structure IsStored (fs : FileSystem) (directory : Path) (number : Nat) (c : LabelledSnapshot)
    (a : Artifact) : Prop where
  label : a.label = c.label
  frame : a.frame = c.frame
  path : a.path = directory.child (fileName number c.label)
  content : ∃ l bytes size, fs.find directory = .ok l ∧
    fs.find a.path = .ok (l ++ [fileName number c.label]) ∧
    fs.node? (l ++ [fileName number c.label]) = some (.file bytes) ∧
    Capture.decode Capture.byteLimit c.image = .ok (bytes, size) ∧
    a.width = size.width ∧ a.height = size.height

theorem isStored_of_saveFrom {i : Nat}
    (h : saveFrom directory number captures m = (.ok artifacts, m'))
    (hc : captures[i]? = some c) (ha : artifacts[i]? = some a) :
    IsStored m'.files directory (number + i) c a := by
  obtain ⟨files, l, hsaved, hreceives, -⟩ := saved_of_saveFrom h
  obtain ⟨bytes, size, hdecoded, rfl, hfile⟩ := hsaved.get hc ha
  obtain ⟨hdirectory, hentry⟩ := hreceives.entries _ hfile
  refine ⟨rfl, rfl, rfl, l, bytes, size, hdirectory, hentry, ?_, hdecoded, rfl, rfl⟩
  rw [hreceives.eq]
  exact node?_putFiles_of_mem hsaved.nodup hfile

/-- What is at none of the paths of the artifacts is as it was. -/
theorem node?_of_saveFrom {l : Location}
    (h : saveFrom directory number captures m = (.ok artifacts, m'))
    (hl : ∀ a ∈ artifacts, m'.files.find a.path ≠ .ok l) :
    m'.files.node? l = m.files.node? l := by
  obtain ⟨files, d, hsaved, hreceives, -⟩ := saved_of_saveFrom h
  rw [hreceives.eq]
  refine node?_putFiles fun f hf heq => ?_
  have hpath : directory.child f.1 ∈ artifacts.map path := by
    rw [hsaved.paths]
    exact List.mem_map_of_mem (List.mem_map_of_mem hf)
  obtain ⟨a, ha, hsame⟩ := List.mem_map.mp hpath
  refine hl a ha ?_
  rw [hsame, heq]
  exact (hreceives.entries f hf).2

/-- Snapshots that are saved are lost neither to each other nor to what was there: each has its own
artifact, at a path of its own in the directory, with a file of exactly the bytes of its image, and
no other file changes. -/
theorem saveAll_stores (h : saveAll directory captures m = (.ok artifacts, m')) :
    artifacts.length = captures.length ∧ (artifacts.map path).Nodup ∧
      (∀ i c a, captures[i]? = some c → artifacts[i]? = some a →
        IsStored m'.files directory (i + 1) c a) ∧
      (∀ l, (∀ a ∈ artifacts, m'.files.find a.path ≠ .ok l) →
        m'.files.node? l = m.files.node? l) ∧
      IsVersion m.files m'.files ∧ m'.now = m.now := by
  obtain ⟨files, l, hsaved, hreceives, hnow⟩ := saved_of_saveFrom h
  have hchild : Function.Injective directory.child := by
    intro name other heq
    simpa [Path.child] using heq
  refine ⟨hsaved.length_eq, ?_, fun i c a hc ha => ?_, fun k hk => node?_of_saveFrom h hk,
    hreceives.keeps.version, hnow⟩
  · rw [hsaved.paths]
    exact hsaved.nodup.map hchild
  · rw [Nat.add_comm i 1]
    exact isStored_of_saveFrom h hc ha

/-- Labels that give the same name, or the name of a file that is there. -/
theorem saveAll_stores_like_labels :
    let captures : List LabelledSnapshot :=
      [⟨"A b", .number (.int 1), .text Capture.pointUrl⟩,
        ⟨"a-b", .number (.int 2), .text Capture.pointUrl⟩,
        ⟨"01-a-b", .number (.int 3), .text Capture.pointUrl⟩]
    let fs : FileSystem := ⟨[(["w"], .directory), (["w", "01-a-b.png"], .file [1]),
      (["w", "03-a-b.png"], .file [2])], ["w"], fun _ => none, fun _ _ => none⟩
    ∃ artifacts m', saveAll ⟨0, []⟩ captures ⟨fs, Session.blank.machine.now⟩ =
        (.ok artifacts, m') ∧
      artifacts.map path = [⟨0, ["01-a-b.png"]⟩, ⟨0, ["02-a-b.png"]⟩, ⟨0, ["03-01-a-b.png"]⟩] ∧
      (∀ i c a, captures[i]? = some c → artifacts[i]? = some a →
        IsStored m'.files ⟨0, []⟩ (i + 1) c a) ∧
      m'.files.node? ["w", "03-a-b.png"] = some (.file [2]) := by
  intro captures fs
  let paths : List Path := [⟨0, ["01-a-b.png"]⟩, ⟨0, ["02-a-b.png"]⟩, ⟨0, ["03-01-a-b.png"]⟩]
  have hrun : (saveAll ⟨0, []⟩ captures ⟨fs, Session.blank.machine.now⟩).1.map (·.map path) =
        .ok paths ∧
      ∀ p ∈ paths, (saveAll ⟨0, []⟩ captures ⟨fs, Session.blank.machine.now⟩).2.files.find p ≠
        .ok ["w", "03-a-b.png"] := by
    decide +kernel
  cases h : saveAll ⟨0, []⟩ captures ⟨fs, Session.blank.machine.now⟩ with
  | mk r m' =>
    rw [h] at hrun
    obtain ⟨hpaths, hfind⟩ := hrun
    cases r with
    | error e => cases hpaths
    | ok artifacts =>
      obtain ⟨-, -, hstored, hothers, -⟩ := saveAll_stores h
      have hpaths : artifacts.map path = paths := Except.ok.inj hpaths
      refine ⟨artifacts, m', rfl, hpaths, hstored, ?_⟩
      exact (hothers _ fun a ha => hfind a.path (hpaths ▸ List.mem_map_of_mem ha)).trans rfl

theorem ofCapture_injective : Function.Injective Failure.ofCapture := by
  intro e e' h
  cases e <;> cases e' <;> cases h <;> rfl

/-- Only a refused image makes saving fail with the error of an image, and then nothing is done. -/
theorem save_eq_rejected_iff {e : CaptureFailure} :
    save directory number c m = (.error (.ofCapture e), m') ↔
      Capture.decode Capture.byteLimit c.image = .error e ∧ m' = m := by
  rw [save, Action.bind_eq_error_iff]
  constructor
  · rintro (h | ⟨⟨bytes, size⟩, _, -, h⟩)
    · obtain ⟨hrefused, rfl⟩ := Prod.mk.inj h
      refine ⟨?_, rfl⟩
      cases hdecode : Capture.decode Capture.byteLimit c.image with
      | ok image =>
        rw [hdecode] at hrefused
        cases hrefused
      | error e' =>
        rw [hdecode] at hrefused
        rw [ofCapture_injective (Except.error.inj hrefused)]
    · rcases Action.bind_eq_error_iff.mp h with h | ⟨_, _, -, h⟩
      · obtain ⟨e', -, hfile, -⟩ := Machine.update_eq_error_iff.mp h
        cases e <;> cases hfile
      · cases h
  · rintro ⟨hdecode, rfl⟩
    rw [hdecode]
    exact .inl rfl

/-- Where an image is refused, the snapshots before it have been saved and nothing else was done. -/
theorem saveFrom_eq_rejected_iff {e : CaptureFailure} :
    saveFrom directory number captures m = (.error (.ofCapture e), m') ↔
      ∃ before c rest artifacts, captures = before ++ c :: rest ∧
        Capture.decode Capture.byteLimit c.image = .error e ∧
        saveFrom directory number before m = (.ok artifacts, m') := by
  induction captures generalizing number m with
  | nil =>
    constructor
    · intro h
      cases h
    · rintro ⟨before, c, rest, _, hsplit, -⟩
      exact absurd hsplit.symm (by simp)
  | cons first others ih =>
    rw [saveFrom, Action.bind_eq_error_iff, save_eq_rejected_iff]
    constructor
    · rintro (⟨hdecode, rfl⟩ | ⟨a, m₁, hfirst, h⟩)
      · exact ⟨[], first, others, [], rfl, hdecode, rfl⟩
      · rcases Action.bind_eq_error_iff.mp h with h | ⟨_, _, -, h⟩
        · obtain ⟨before, c, rest, artifacts, rfl, hdecode, hbefore⟩ := ih.mp h
          refine ⟨first :: before, c, rest, a :: artifacts, rfl, hdecode, ?_⟩
          rw [saveFrom, Action.bind_ok _ hfirst, Action.bind_ok _ hbefore]
          rfl
        · cases h
    · rintro ⟨before, c, rest, artifacts, hsplit, hdecode, hbefore⟩
      cases before with
      | nil =>
        cases hbefore
        obtain ⟨rfl, -⟩ := List.cons.inj hsplit
        exact .inl ⟨hdecode, rfl⟩
      | cons _ before =>
        obtain ⟨rfl, rfl⟩ := List.cons.inj hsplit
        obtain ⟨a, m₁, hfirst, hbefore⟩ := Action.bind_eq_ok_iff.mp hbefore
        obtain ⟨saved, m₂, hsaved, hend⟩ := Action.bind_eq_ok_iff.mp hbefore
        obtain ⟨-, rfl⟩ := Prod.mk.inj hend
        exact .inr ⟨a, m₁, hfirst,
          Action.bind_error _ (ih.mpr ⟨before, c, rest, saved, rfl, hdecode, hsaved⟩)⟩

/-- Saving fails for an image exactly if one is refused and all snapshots before it are saved; on a
file system without symbolic links it leaves these, each in its file, and nothing of the others. -/
theorem saveAll_eq_rejected_iff {e : CaptureFailure} :
    saveAll directory captures m = (.error (.ofCapture e), m') ↔
      ∃ before c rest artifacts, captures = before ++ c :: rest ∧
        Capture.decode Capture.byteLimit c.image = .error e ∧
        saveAll directory before m = (.ok artifacts, m') ∧ (before = [] → m' = m) ∧
        (∀ i c a, before[i]? = some c → artifacts[i]? = some a →
          IsStored m'.files directory (i + 1) c a) ∧
        ∀ l, (∀ a ∈ artifacts, m'.files.find a.path ≠ .ok l) →
          m'.files.node? l = m.files.node? l := by
  constructor
  · intro h
    obtain ⟨before, c, rest, artifacts, rfl, hdecode, hbefore⟩ := saveFrom_eq_rejected_iff.mp h
    refine ⟨before, c, rest, artifacts, rfl, hdecode, hbefore, ?_, fun i c a hc ha => ?_,
      fun l hl => node?_of_saveFrom hbefore hl⟩
    · rintro rfl
      cases hbefore
      rfl
    · rw [Nat.add_comm i 1]
      exact isStored_of_saveFrom hbefore hc ha
  · rintro ⟨before, c, rest, artifacts, rfl, hdecode, hbefore, -⟩
    exact saveFrom_eq_rejected_iff.mpr ⟨before, c, rest, artifacts, rfl, hdecode, hbefore⟩

/-- A second image that is refused leaves the file of the first one behind. -/
theorem saveAll_of_second_refused :
    let captures : List LabelledSnapshot :=
      [⟨"a", .number (.int 1), .text Capture.pointUrl⟩, ⟨"b", .number (.int 1), .null⟩]
    let m := Session.blank.machine
    ∃ m', saveAll (.ofLocation []) captures m = (.error (.ofCapture (.capture .notPng)), m') ∧
      m.files.node? ["01-a.png"] = none ∧
      ∃ bytes, m'.files.node? ["01-a.png"] = some (.file bytes) := by
  intro captures m
  have hrun : (saveAll (.ofLocation []) captures m).1.map (fun _ => ()) =
        .error (.ofCapture (.capture .notPng)) ∧
      ((saveAll (.ofLocation []) captures m).2.files.node? ["01-a.png"]).any (· ≠ .directory) =
        true := by
    decide +kernel
  cases h : saveAll (.ofLocation []) captures m with
  | mk r m' =>
    rw [h] at hrun
    obtain ⟨herror, hfile⟩ := hrun
    refine ⟨m', ?_, rfl, ?_⟩
    · cases r with
      | ok artifacts => cases herror
      | error e => rw [Except.error.inj herror]
    · obtain ⟨n, hn, hkind⟩ := (Option.any_eq_true _ _).mp hfile
      cases n with
      | directory => simp at hkind
      | file bytes => exact ⟨bytes, hn⟩

end Artifact

end Replay
