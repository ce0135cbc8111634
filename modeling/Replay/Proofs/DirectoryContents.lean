import Replay.Machine
import Replay.Proofs.Outcome
import Replay.Proofs.RunDirectory
import Replay.Proofs.VisibleNames

namespace Replay

namespace FileSystem

variable {fs fs' fs'' : FileSystem} {k l : Location} {files : List (Text × Bytes)} {name : Text}
  {t : Text} {bytes : Bytes} {r : Except FileError Unit}

/-- The names lead down only. -/
def IsPlain (l : Location) : Prop := ∀ name ∈ l, name ≠ Path.dots

theorem IsPlain.concat (hl : IsPlain l) (hname : name ≠ Path.dots) : IsPlain (l ++ [name]) := by
  intro n hn
  rcases List.mem_append.mp hn with hn | hn
  · exact hl n hn
  · exact List.mem_singleton.mp hn ▸ hname

/-- Whatever is there is in a directory, and the working directory is named without dots. -/
structure IsTree (fs : FileSystem) : Prop where
  parent : ∀ l ≠ [], fs.node? l ≠ none → fs.node? l.dropLast = some .directory
  cwd : IsPlain fs.cwd

/-- Below a place where nothing is there is nothing either. -/
theorem IsTree.node?_append (h : fs.IsTree) (hl : fs.node? l = none) (rest : Location) :
    fs.node? (l ++ rest) = none := by
  induction rest using List.reverseRecOn with
  | nil => rwa [List.append_nil]
  | append_singleton rest name ih =>
    by_contra hsome
    have hparent := h.parent (l ++ (rest ++ [name])) (by simp) hsome
    rw [← List.append_assoc, List.dropLast_concat, ih] at hparent
    cases hparent

theorem isPlain_foldl_step (hl : IsPlain l) (names : Location) : IsPlain (names.foldl step l) := by
  induction names generalizing l with
  | nil => exact hl
  | cons name rest ih =>
    rw [List.foldl_cons]
    refine ih ?_
    rw [step]
    split
    · exact fun n hn => hl n (List.dropLast_subset l hn)
    next hname => exact hl.concat hname

theorem exists_of_resolve {p q : Path} (hcwd : IsPlain fs.cwd) (h : fs.resolve p = .ok q) :
    ∃ l, q = .ofLocation l ∧ IsPlain l := by
  rw [resolve] at h
  split at h
  · cases h
  · refine ⟨_, (Except.ok.inj h).symm, isPlain_foldl_step ?_ p.names⟩
    split
    · exact fun _ hn => absurd hn List.not_mem_nil
    · exact hcwd

theorem eq_of_walk {done names : Location} (hnames : IsPlain names)
    (h : fs.walk done names = .ok l) : l = done ++ names := by
  induction names generalizing done with
  | nil =>
    rw [List.append_nil]
    exact (Except.ok.inj h).symm
  | cons name rest ih =>
    have hdots := hnames name List.mem_cons_self
    have hrest : IsPlain rest := fun n hn => hnames n (List.mem_cons_of_mem name hn)
    rw [walk] at h
    split at h
    · cases h
    · cases h
    · rw [if_neg hdots] at h
      split at h
      · cases h
      · have hl := ih hrest h
        rw [hl, List.append_assoc]
        rfl

theorem eq_of_find (hk : IsPlain k) (h : fs.find (.ofLocation k) = .ok l) : l = k := by
  rw [find] at h
  split at h
  · cases h
  · exact eq_of_walk hk h

theorem eq_of_openFile {old : Option Bytes} (hk : IsPlain k)
    (h : fs.openFile (.ofLocation k) = .ok (l, old)) : l = k := by
  rw [openFile] at h
  split at h
  · cases h
  · split at h
    · cases h
    next found hfound =>
      have hl := eq_of_find hk hfound
      split at h
      · cases h
      · cases h
      · split at h
        · cases h
        · split at h
          · cases h
          · cases h
            exact hl
          · cases h
            exact hl

theorem writeBytes_eq (hk : IsPlain k) (h : fs.writeBytes (.ofLocation k) bytes = .ok fs') :
    fs' = fs.put k (.file bytes) := by
  rw [writeBytes] at h
  split at h
  · cases h
  next l old ho =>
    obtain rfl := eq_of_openFile hk ho
    exact (Except.ok.inj h).symm

theorem writeText_eq (hk : IsPlain k) (h : fs.writeText (.ofLocation k) t = (.ok (), fs')) :
    ∃ bytes, Utf8.encode t = .ok bytes ∧ fs' = fs.put k (.file bytes) := by
  rw [writeText] at h
  split at h
  · cases h
  next l old ho =>
    obtain rfl := eq_of_openFile hk ho
    split at h
    next bytes hbytes =>
      cases h
      exact ⟨bytes, hbytes, rfl⟩
    · cases h

/-- Also where a text cannot be added, nothing but the file changes. -/
theorem appendText_eq (hk : IsPlain k) (t : Text) :
    (fs.appendText (.ofLocation k) t).2 = fs ∨
      ∃ bytes, (fs.appendText (.ofLocation k) t).2 = fs.put k (.file bytes) := by
  rw [appendText]
  split
  · exact .inl rfl
  next l old ho =>
    obtain rfl := eq_of_openFile hk ho
    dsimp only
    split
    · exact .inr ⟨_, rfl⟩
    · exact .inr ⟨_, rfl⟩

/-- The change adds directories on the way to a place, and nothing else. -/
def ClearsWay (k : Location) (fs fs' : FileSystem) : Prop :=
  ∀ l, fs'.node? l = fs.node? l ∨
    l <+: k ∧ fs.node? l = none ∧ fs'.node? l = some .directory

namespace ClearsWay

theorem refl (k : Location) (fs : FileSystem) : ClearsWay k fs fs := fun _ => .inl rfl

theorem trans (h : ClearsWay k fs fs') (h' : ClearsWay l fs' fs'') (hkl : k <+: l) :
    ClearsWay l fs fs'' := by
  intro m
  rcases h m with h | ⟨hm, hnone, hmade⟩
  · rcases h' m with h' | ⟨hm, hnone, hmade⟩
    · exact .inl (h'.trans h)
    · exact .inr ⟨hm, h ▸ hnone, hmade⟩
  · rcases h' m with h' | ⟨-, hnone', -⟩
    · exact .inr ⟨hm.trans hkl, hnone, h'.trans hmade⟩
    · rw [hmade] at hnone'
      cases hnone'

theorem node?_eq (h : ClearsWay k fs fs') {n : Node} (hn : fs.node? l = some n) :
    fs'.node? l = some n := by
  rcases h l with h | ⟨-, hnone, -⟩
  · exact h.trans hn
  · rw [hn] at hnone
    cases hnone

theorem node?_append (h : ClearsWay k fs fs') {rest : Location} (hrest : rest ≠ []) :
    fs'.node? (k ++ rest) = fs.node? (k ++ rest) := by
  refine (h (k ++ rest)).resolve_right fun ⟨hshort, _⟩ => hrest ?_
  have hlength := hshort.length_le
  rw [List.length_append] at hlength
  exact List.length_eq_zero_iff.mp (by omega)

end ClearsWay

theorem clearsWay_of_makeDirectory (hk : IsPlain k)
    (h : fs.makeDirectory (.ofLocation k) = .ok fs') :
    ClearsWay k fs fs' ∧ fs'.node? k = some .directory := by
  rw [makeDirectory] at h
  split at h
  · cases h
  · split at h
    · cases h
    next found hfound =>
      obtain rfl := eq_of_find hk hfound
      split at h
      · cases h
      next hnone =>
        have hne : found ≠ [] := by
          rintro rfl
          cases hnone
        split at h
        · cases h
        · cases h
        · split at h
          · cases h
          · cases h
            refine ⟨fun l => ?_, by rw [node?_put hne, if_pos rfl]⟩
            rw [node?_put hne]
            split
            next heq => exact .inr ⟨heq ▸ List.prefix_refl l, heq ▸ hnone, rfl⟩
            next => exact .inl rfl

theorem exists_of_test {asked : Node → Bool} (hk : IsPlain k)
    (h : fs.test (.ofLocation k) asked = .ok true) : ∃ n, fs.node? k = some n ∧ asked n = true := by
  rw [test] at h
  split at h
  · cases h
  · split at h
    next found n hlook =>
      rw [look] at hlook
      split at hlook
      · cases hlook
      next l hfind =>
        obtain rfl := eq_of_find hk hfind
        split at hlook
        · cases hlook
        · split at hlook
          next node hnode =>
            cases hlook
            exact ⟨n, hnode, Except.ok.inj h⟩
          · cases hlook
    · cases h
    · cases h
    · cases h

theorem node?_of_isDirectory (hk : IsPlain k) (h : fs.isDirectory (.ofLocation k) = .ok true) :
    fs.node? k = some .directory := by
  obtain ⟨n, hnode, hn⟩ := exists_of_test hk h
  rw [hnode, of_decide_eq_true hn]

theorem accept_eq (hk : IsPlain k) {e : FileError}
    (h : fs.accept (.ofLocation k) e = (r, fs')) :
    fs' = fs ∧ (r = .ok () → fs'.node? k = some .directory) := by
  rw [accept.eq_def] at h
  split at h
  · split at h
    next hdir =>
      cases h
      exact ⟨rfl, fun _ => node?_of_isDirectory hk hdir⟩
    · cases h
      exact ⟨rfl, nofun⟩
    · cases h
      exact ⟨rfl, nofun⟩
  · cases h
    exact ⟨rfl, nofun⟩

theorem clearsWay_of_ensureDirectory (hk : IsPlain k)
    (h : fs.ensureDirectory (.ofLocation k) = (r, fs')) :
    ClearsWay k fs fs' ∧ (r = .ok () → fs'.node? k = some .directory) := by
  rw [ensureDirectory] at h
  split at h
  next made hmade =>
    cases h
    obtain ⟨hway, hnode⟩ := clearsWay_of_makeDirectory hk hmade
    exact ⟨hway, fun _ => hnode⟩
  · obtain ⟨rfl, hnode⟩ := accept_eq hk h
    exact ⟨.refl _ _, hnode⟩

/-- Making directories adds some on the way, whether it succeeds or not. -/
theorem clearsWay_of_makeDirectories (hk : IsPlain k)
    (h : fs.makeDirectories (.ofLocation k) = (r, fs')) :
    ClearsWay k fs fs' ∧ (r = .ok () → fs'.node? k = some .directory) := by
  -- by the names from the last one on: a parent that is missing is made first
  induction k using List.reverseRecOn generalizing r fs' with
  | nil =>
    rw [makeDirectories] at h
    split at h
    next made hmade =>
      cases h
      obtain ⟨hway, hnode⟩ := clearsWay_of_makeDirectory hk hmade
      exact ⟨hway, fun _ => hnode⟩
    · have hroot : (Path.ofLocation []).names = [] := rfl
      rw [dif_pos hroot] at h
      cases h
      exact ⟨.refl _ _, nofun⟩
    · obtain ⟨rfl, hnode⟩ := accept_eq hk h
      exact ⟨.refl _ _, hnode⟩
  | append_singleton k name ih =>
    have hparent : (Path.ofLocation (k ++ [name])).parent = .ofLocation k := by
      simp [Path.parent, Path.ofLocation]
    have habove : IsPlain k := fun n hn => hk n (List.mem_append_left _ hn)
    rw [makeDirectories] at h
    split at h
    next made hmade =>
      cases h
      obtain ⟨hway, hnode⟩ := clearsWay_of_makeDirectory hk hmade
      exact ⟨hway, fun _ => hnode⟩
    · have hdeeper : (Path.ofLocation (k ++ [name])).names ≠ [] := by simp [Path.ofLocation]
      rw [dif_neg hdeeper] at h
      dsimp only at h
      rw [hparent] at h
      split at h
      next made hmade =>
        obtain ⟨hway, -⟩ := ih habove hmade
        obtain ⟨hrest, hnode⟩ := clearsWay_of_ensureDirectory hk h
        exact ⟨hway.trans hrest (List.prefix_append k [name]), hnode⟩
      next e made hmade =>
        cases h
        obtain ⟨hway, -⟩ := ih habove hmade
        exact ⟨hway.trans (.refl _ _) (List.prefix_append k [name]), nofun⟩
    · obtain ⟨rfl, hnode⟩ := accept_eq hk h
      exact ⟨.refl _ _, hnode⟩

/-- The directory has these files in it, and nothing else is below it. -/
structure Holds (fs : FileSystem) (l : Location) (files : List (Text × Bytes)) : Prop where
  directory : fs.node? l = some .directory
  below : ∀ rest ≠ [], ∀ n,
    fs.node? (l ++ rest) = some n ↔ ∃ f ∈ files, rest = [f.1] ∧ n = .file f.2

namespace Holds

theorem of_made (htree : fs.IsTree) (hnew : fs.node? l = none) (hway : ClearsWay l fs fs')
    (hmade : fs'.node? l = some .directory) : fs'.Holds l [] := by
  refine ⟨hmade, fun rest hrest n => ?_⟩
  rw [hway.node?_append hrest, htree.node?_append hnew]
  simp

theorem of_clearsWay (h : fs.Holds l files) (hway : ClearsWay l fs fs') : fs'.Holds l files := by
  refine ⟨hway.node?_eq h.directory, fun rest hrest n => ?_⟩
  rw [hway.node?_append hrest]
  exact h.below rest hrest n

/-- A file that is written goes in place of one of its name. -/
theorem put (h : fs.Holds l files) (name : Text) (bytes : Bytes) :
    (fs.put (l ++ [name]) (.file bytes)).Holds l
      (files.filter (fun f => f.1 ≠ name) ++ [(name, bytes)]) := by
  have hne : l ++ [name] ≠ [] := by simp
  refine ⟨?_, fun rest hrest n => ?_⟩
  · rw [node?_put hne, if_neg (by simp)]
    exact h.directory
  · rw [node?_put hne]
    -- at the name itself only the new file counts, elsewhere only the others
    by_cases hname : rest = [name]
    · rw [if_pos (by rw [hname])]
      constructor
      · intro hn
        exact ⟨(name, bytes), by simp, hname, (Option.some.inj hn).symm⟩
      · rintro ⟨f, hf, hrest, rfl⟩
        have hf1 : f.1 = name := List.singleton_inj.mp (hrest.symm.trans hname)
        rcases List.mem_append.mp hf with hf | hf
        · exact absurd hf1 (by simpa using (List.mem_filter.mp hf).2)
        · rw [List.mem_singleton.mp hf]
    · rw [if_neg (by simpa using hname), h.below rest hrest n]
      constructor
      · rintro ⟨f, hf, rfl, rfl⟩
        have hother : f.1 ≠ name := fun heq => hname (heq ▸ rfl)
        have hkept : f ∈ files.filter (fun f => f.1 ≠ name) :=
          List.mem_filter.mpr ⟨hf, decide_eq_true hother⟩
        exact ⟨f, List.mem_append_left _ hkept, rfl, rfl⟩
      · rintro ⟨f, hf, rfl, rfl⟩
        rcases List.mem_append.mp hf with hf | hf
        · exact ⟨f, (List.mem_filter.mp hf).1, rfl, rfl⟩
        · obtain rfl := List.mem_singleton.mp hf
          exact absurd rfl hname

theorem add (h : fs.Holds l files) (hnew : ∀ f ∈ files, f.1 ≠ name) (bytes : Bytes) :
    (fs.put (l ++ [name]) (.file bytes)).Holds l (files ++ [(name, bytes)]) := by
  have hothers : files.filter (fun f => f.1 ≠ name) = files :=
    List.filter_eq_self.mpr fun f hf => by simpa using hnew f hf
  rw [← hothers]
  exact h.put name bytes

end Holds

end FileSystem

open FileSystem

namespace Machine

variable {α : Type} {m m' : Machine}

theorem inspect_eq_ok_iff {f : FileSystem → Except FileError α} {x : α} :
    inspect f m = (.ok x, m') ↔ f m.files = .ok x ∧ m' = m := by
  rw [inspect, Prod.mk.injEq, mapError_eq_ok_iff, eq_comm (a := m)]

theorem alter_eq_ok_iff {f : FileSystem → Except FileError Unit × FileSystem} :
    alter f m = (.ok (), m') ↔ ∃ fs, f m.files = (.ok (), fs) ∧ m' = { m with files := fs } := by
  rw [alter]
  cases f m.files with
  | mk r fs => simp [mapError_eq_ok_iff, eq_comm]

theorem update_eq_ok_iff {f : FileSystem → Except FileError FileSystem} :
    update f m = (.ok (), m') ↔ ∃ fs, f m.files = .ok fs ∧ m' = { m with files := fs } := by
  rw [update]
  cases f m.files with
  | ok fs => simp [eq_comm]
  | error e => simp

theorem update_eq_error_iff {f : FileSystem → Except FileError FileSystem} {e : Failure} :
    update f m = (.error e, m') ↔ ∃ e', f m.files = .error e' ∧ e = .file e' ∧ m' = m := by
  rw [update]
  cases f m.files with
  | ok fs => simp
  | error e' => simp [eq_comm]

/-- A directory that is made for a run where nothing was is empty. -/
theorem makeRunDirectory_holds {root d : Path} (htree : m.files.IsTree)
    (h : makeRunDirectory root m = (.ok d, m')) :
    ∃ l, d = .ofLocation l ∧ IsPlain l ∧ (m.files.node? l = none → m'.files.Holds l []) := by
  obtain ⟨resolved, t, hinspect, h⟩ := Action.bind_eq_ok_iff.mp h
  obtain ⟨hresolve, hsame⟩ := inspect_eq_ok_iff.mp hinspect
  rw [hsame] at h
  obtain ⟨moment, _, hclock, h⟩ := Action.bind_eq_ok_iff.mp h
  cases hclock
  obtain ⟨_, _, halter, h⟩ := Action.bind_eq_ok_iff.mp h
  cases h
  obtain ⟨fs, hmake, rfl⟩ := alter_eq_ok_iff.mp halter
  obtain ⟨above, rfl, habove⟩ := exists_of_resolve htree.cwd hresolve
  have hplain := habove.concat (Moment.directoryName_ne_dots (m.now.reading m.now.taken))
  obtain ⟨hway, hmade⟩ := clearsWay_of_makeDirectories hplain hmake
  exact ⟨_, rfl, hplain, fun hnew => .of_made htree hnew hway (hmade rfl)⟩

end Machine

end Replay
