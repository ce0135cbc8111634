import Replay.Proofs.FileNames

namespace Replay

open Text

namespace FileSystem

variable {fs : FileSystem} {l : Location} {name : Text} {n : Node}

theorem find?_map_put (nodes : List (Location × Node)) (l l' : Location) (n : Node) :
    (nodes.map fun e => if e.1 = l then (l, n) else e).find? (fun e => e.1 = l') =
      if l' = l then (nodes.find? fun e => e.1 = l).map fun _ => (l, n)
      else nodes.find? fun e => e.1 = l' := by
  induction nodes with
  | nil => simp
  | cons e rest ih =>
    by_cases he : e.1 = l
    · by_cases hl : l' = l
      · simp [he, hl]
      · have hl' : ¬ l = l' := fun h => hl h.symm
        simpa [he, hl, hl'] using ih
    · by_cases hl : l' = l
      · subst hl
        simpa [he] using ih
      · by_cases hel : e.1 = l' <;> simp_all

/-- A node that is put somewhere is found there, and nothing changes elsewhere. -/
theorem node?_put (hl : l ≠ []) (l' : Location) :
    (fs.put l n).node? l' = if l' = l then some n else fs.node? l' := by
  rw [node?, node?, put]
  by_cases hroot : l' = []
  · simp [hroot, Ne.symm hl]
  · simp only [List.isEmpty_iff, hroot, if_false]
    by_cases hany : (fs.nodes.any fun e => e.1 = l) = true
    · rw [if_pos hany, find?_map_put]
      obtain ⟨e, he, hel⟩ := List.any_eq_true.mp hany
      by_cases h : l' = l
      · have hsome : (fs.nodes.find? fun e => e.1 = l).isSome = true :=
          List.find?_isSome.mpr ⟨e, he, hel⟩
        obtain ⟨found, hfound⟩ := Option.isSome_iff_exists.mp hsome
        simp [h, hfound]
      · simp [h]
    · rw [if_neg hany]
      have hnone : (fs.nodes.find? fun e => e.1 = l) = none :=
        List.find?_eq_none.mpr fun e he hel => hany (List.any_eq_true.mpr ⟨e, he, hel⟩)
      by_cases h : l' = l
      · simp [List.find?_append, h, hnone]
      · have h' : ¬ l = l' := fun e => h e.symm
        simp [List.find?_append, h, h']

/-- The names lead through directories to a directory. -/
structure HasDirectory (fs : FileSystem) (l : Location) : Prop where
  names : ∀ name ∈ l, name ≠ Path.dots ∧ byteSize name ≤ nameLimit
  above : ∀ l', l' <+: l → fs.node? l' = some .directory

/-- Names that lead through directories are followed to the end. -/
theorem walk_append {done rest : Location} (more : Location)
    (hnames : ∀ name ∈ rest, name ≠ Path.dots ∧ byteSize name ≤ nameLimit)
    (habove : ∀ l', l' <+: rest → fs.node? (done ++ l') = some .directory) :
    fs.walk done (rest ++ more) = fs.walk (done ++ rest) more := by
  induction rest generalizing done with
  | nil => simp
  | cons name rest ih =>
    have hdone : fs.node? done = some .directory := by
      simpa using habove [] List.nil_prefix
    obtain ⟨hdots, hsize⟩ := hnames name List.mem_cons_self
    have hrest : fs.walk (done ++ [name]) (rest ++ more) =
        fs.walk (done ++ [name] ++ rest) more := by
      refine ih (fun n hn => hnames n (List.mem_cons_of_mem name hn)) fun l' hl' => ?_
      simpa using habove (name :: l') ((List.prefix_cons_inj name).mpr hl')
    rw [List.cons_append, walk, hdone]
    simp only [hdots, if_false, Nat.not_lt.mpr hsize]
    simpa using hrest

namespace HasDirectory

variable (h : fs.HasDirectory l)
include h

theorem walk_append (more : Location) : fs.walk [] (l ++ more) = fs.walk l more :=
  FileSystem.walk_append more h.names h.above

theorem node?_eq : fs.node? l = some .directory := h.above l (List.prefix_refl l)

theorem walk_eq : fs.walk [] l = .ok l := by
  rw [← List.append_nil l, h.walk_append, List.append_nil, walk]

theorem walk_child (hdots : name ≠ Path.dots) (hsize : byteSize name ≤ nameLimit) :
    fs.walk [] (l ++ [name]) = .ok (l ++ [name]) := by
  rw [h.walk_append, walk, h.node?_eq]
  simp only [hdots, if_false, Nat.not_lt.mpr hsize, walk]

theorem walk_child_of_long (hdots : name ≠ Path.dots) (hsize : nameLimit < byteSize name) :
    fs.walk [] (l ++ [name]) = .error .nameTooLong := by
  rw [h.walk_append, walk, h.node?_eq]
  simp only [hdots, if_false, hsize, if_true]

end HasDirectory

theorem HasDirectory.of_put (h : fs.HasDirectory l) {l' : Location} (hne : l' ≠ [])
    (hl : ¬ l' <+: l) : (fs.put l' n).HasDirectory l := by
  refine ⟨h.names, fun k hk => ?_⟩
  rw [node?_put hne, if_neg]
  · exact h.above k hk
  · rintro rfl
    exact hl hk

@[simp] theorem byteSize_nil : byteSize [] = 0 := rfl

@[simp] theorem byteSize_append (s t : Text) : byteSize (s ++ t) = byteSize s + byteSize t := by
  induction s with
  | nil => simp
  | cons c s ih => simp only [List.cons_append, byteSize, List.foldr_cons] at ih ⊢; omega

theorem byteSize_slash : byteSize [Path.slash] = 1 := by decide

theorem join_concat (separator : Text) (parts : List Text) (t : Text) :
    join separator (parts ++ [t]) =
      if parts = [] then t else join separator parts ++ separator ++ t := by
  induction parts with
  | nil => simp [join]
  | cons first rest ih =>
    cases rest with
    | nil => simp [join]
    | cons second rest =>
      rw [List.cons_append, List.cons_append, join_cons_cons, ← List.cons_append, ih,
        join_cons_cons]
      simp

/-- The path of an entry is longer by a slash and the name. -/
theorem byteSize_child_le (l : Location) (name : Text) :
    byteSize (Path.ofLocation (l ++ [name])).text ≤
      byteSize (Path.ofLocation l).text + 1 + byteSize name := by
  have htext (k : Location) : (Path.ofLocation k).text = [Path.slash] ++ join "/" k := by
    simp [Path.text, Path.ofLocation]
  have hslash : byteSize ("/" : Text) = 1 := by decide
  rw [htext, htext, join_concat]
  simp only [byteSize_append, byteSize_slash]
  split
  · omega
  · simp only [byteSize_append, hslash]
    omega

/-- A directory for the files of a run: it is reached, its path leaves room for names, there is
no directory in it, and nothing in it is refused. -/
structure IsRunDirectory (fs : FileSystem) (l : Location) : Prop where
  reached : fs.HasDirectory l
  nameable : nameError? (Path.ofLocation l) = none
  room : byteSize (Path.ofLocation l).text + 1 + nameLimit ≤ pathLimit
  free : ∀ name, fs.node? (l ++ [name]) ≠ some .directory
  allowed : ∀ kind l', l <+: l' → fs.refuses kind l' = none

namespace IsRunDirectory

variable (h : fs.IsRunDirectory l)
include h

theorem find_self : fs.find (Path.ofLocation l) = .ok l := by
  have hroom := h.room
  rw [find, if_neg (by omega)]
  exact h.reached.walk_eq

theorem find_child (hdots : name ≠ Path.dots) (hsize : byteSize name ≤ nameLimit) :
    fs.find ((Path.ofLocation l).child name) = .ok (l ++ [name]) := by
  have hroom := h.room
  have hchild : byteSize ((Path.ofLocation l).child name).text ≤ _ := byteSize_child_le l name
  rw [find, if_neg (by omega)]
  exact h.reached.walk_child hdots hsize

/-- The directory that is there need not be made. -/
theorem makeDirectories_eq : fs.makeDirectories (Path.ofLocation l) = (.ok (), fs) := by
  have hmake : fs.makeDirectory (Path.ofLocation l) =
      .error (.access .exists (Path.ofLocation l)) := by
    simp only [makeDirectory, h.nameable, h.find_self, h.reached.node?_eq]
  have htest : fs.isDirectory (Path.ofLocation l) = .ok true := by
    simp only [isDirectory, test, h.nameable, look, h.find_self,
      h.allowed _ _ (List.prefix_refl l), h.reached.node?_eq, decide_true]
  rw [makeDirectories, hmake]
  simp only [accept, htest]

theorem openFile_child (hdots : name ≠ Path.dots) (hsize : byteSize name ≤ nameLimit)
    (hname : ∀ c ∈ name, c.IsNameable) :
    ∃ old, fs.openFile ((Path.ofLocation l).child name) = .ok (l ++ [name], old) := by
  rw [openFile, nameError?_child h.nameable hname, h.find_child hdots hsize]
  simp only [List.dropLast_concat, h.reached.node?_eq, h.allowed _ _ (List.prefix_append l [name])]
  cases hn : fs.node? (l ++ [name]) with
  | none => exact ⟨none, rfl⟩
  | some n =>
    cases n with
    | directory => exact absurd hn (h.free name)
    | file bytes => exact ⟨some bytes, rfl⟩

theorem openFile_child_of_long (hdots : name ≠ Path.dots) (hsize : nameLimit < byteSize name)
    (hname : ∀ c ∈ name, c.IsNameable) :
    fs.openFile ((Path.ofLocation l).child name) =
      .error (.access .nameTooLong ((Path.ofLocation l).child name)) := by
  have hfind : fs.find ((Path.ofLocation l).child name) = .error .nameTooLong := by
    rw [find]
    split
    · rfl
    · exact h.reached.walk_child_of_long hdots hsize
  simp only [openFile, nameError?_child h.nameable hname, hfind]

/-- The directory stays one for a run when a file is put in it. -/
theorem put (name : Text) (bytes : Bytes) :
    (fs.put (l ++ [name]) (.file bytes)).IsRunDirectory l := by
  have hne : l ++ [name] ≠ [] := by simp
  have hrefuses : (fs.put (l ++ [name]) (.file bytes)).refuses = fs.refuses := by
    rw [FileSystem.put]
    split <;> rfl
  refine ⟨h.reached.of_put hne fun hp => ?_, h.nameable, h.room, fun other => ?_, ?_⟩
  · have := hp.length_le
    simp only [List.length_append, List.length_singleton] at this
    omega
  · rw [node?_put hne]
    split
    · simp
    · exact h.free other
  · intro kind l' hl'
    rw [hrefuses]
    exact h.allowed kind l' hl'

variable {t : Text} (hdots : name ≠ Path.dots) (hsize : byteSize name ≤ nameLimit)
  (hname : ∀ c ∈ name, c.IsNameable)
include hdots hsize hname

theorem exists_hasNode : ∃ b, fs.hasNode ((Path.ofLocation l).child name) = .ok b := by
  have hnameable := nameError?_child h.nameable hname
  have hallowed := h.allowed .inspect _ (List.prefix_append l [name])
  cases hn : fs.node? (l ++ [name]) with
  | none =>
    refine ⟨false, ?_⟩
    simp only [hasNode, test, hnameable, look, h.find_child hdots hsize, hallowed, hn]
  | some n =>
    refine ⟨true, ?_⟩
    simp only [hasNode, test, hnameable, look, h.find_child hdots hsize, hallowed, hn]

theorem exists_writeBytes (bytes : Bytes) :
    ∃ fs', fs.writeBytes ((Path.ofLocation l).child name) bytes = .ok fs' ∧
      fs'.IsRunDirectory l := by
  obtain ⟨old, ho⟩ := h.openFile_child hdots hsize hname
  exact ⟨_, by simp only [writeBytes, ho], h.put name bytes⟩

theorem exists_writeText (ht : t.Encodable) :
    ∃ fs', fs.writeText ((Path.ofLocation l).child name) t = (.ok (), fs') ∧
      fs'.IsRunDirectory l := by
  obtain ⟨old, ho⟩ := h.openFile_child hdots hsize hname
  obtain ⟨bytes, hb⟩ : ∃ bytes, Utf8.encode t = .ok bytes := ⟨_, Utf8.encode_of_encodable ht⟩
  exact ⟨_, by simp only [writeText, ho, hb], h.put name bytes⟩

theorem exists_appendText (ht : t.Encodable) :
    ∃ fs', fs.appendText ((Path.ofLocation l).child name) t = (.ok (), fs') ∧
      fs'.IsRunDirectory l := by
  obtain ⟨old, ho⟩ := h.openFile_child hdots hsize hname
  obtain ⟨bytes, hb⟩ : ∃ bytes, Utf8.encode t = .ok bytes := ⟨_, Utf8.encode_of_encodable ht⟩
  exact ⟨_, by simp only [appendText, ho, hb], h.put name (old.getD [] ++ bytes)⟩

end IsRunDirectory

/-- A directory in which the directory of a run can be made under a name: it is reached, nothing in
it is refused, and what is already there under the name is a directory of files if anything. -/
structure IsOutputRoot (fs : FileSystem) (l : Location) (name : Text) : Prop where
  reached : fs.HasDirectory l
  nameable : nameError? (Path.ofLocation l) = none
  room : byteSize (Path.ofLocation l).text + 1 + byteSize name + 1 + nameLimit ≤ pathLimit
  notFile : ∀ bytes, fs.node? (l ++ [name]) ≠ some (.file bytes)
  free : ∀ other, fs.node? (l ++ [name] ++ [other]) ≠ some .directory
  allowed : ∀ kind l', l <+: l' → fs.refuses kind l' = none

namespace IsOutputRoot

variable (h : fs.IsOutputRoot l name) (hdots : name ≠ Path.dots)
  (hsize : byteSize name ≤ nameLimit) (hname : ∀ c ∈ name, c.IsNameable)
include h hdots hsize hname

theorem isRunDirectory {fs' : FileSystem} (hnode : ∀ l', fs'.node? l' =
      if l' = l ++ [name] then some .directory else fs.node? l')
    (hrefuses : fs'.refuses = fs.refuses) : fs'.IsRunDirectory (l ++ [name]) := by
  have hroom := h.room
  have hchild := byteSize_child_le l name
  refine ⟨⟨fun n hn => ?_, fun l' hl' => ?_⟩, nameError?_child h.nameable hname, by omega,
    fun other => ?_, fun kind l' hl' => ?_⟩
  · rcases List.mem_append.mp hn with hn | hn
    · exact h.reached.names n hn
    · obtain rfl := List.mem_singleton.mp hn
      exact ⟨hdots, hsize⟩
  · rw [hnode]
    rcases List.prefix_concat_iff.mp hl' with rfl | hl'
    · rw [if_pos rfl]
    · split
      · rfl
      · exact h.reached.above l' hl'
  · rw [hnode, if_neg (by simp)]
    exact h.free other
  · rw [hrefuses]
    exact h.allowed kind l' ((List.prefix_append l [name]).trans hl')

/-- The directory of a run can be made. -/
theorem makeDirectories_eq : ∃ fs', fs.makeDirectories (Path.ofLocation (l ++ [name])) =
    (.ok (), fs') ∧ fs'.IsRunDirectory (l ++ [name]) := by
  have hnode := h.reached.node?_eq
  by_cases hthere : fs.node? (l ++ [name]) = some .directory
  · have hrun : fs.IsRunDirectory (l ++ [name]) := by
      refine h.isRunDirectory hdots hsize hname (fun l' => ?_) rfl
      split
      next heq => rw [heq, hthere]
      next => rfl
    exact ⟨fs, hrun.makeDirectories_eq, hrun⟩
  · have hnone : fs.node? (l ++ [name]) = none := by
      cases hn : fs.node? (l ++ [name]) with
      | none => rfl
      | some n =>
        cases n with
        | directory => exact absurd hn hthere
        | file bytes => exact absurd hn (h.notFile bytes)
    have hroom := h.room
    have hchild := byteSize_child_le l name
    have hfind : fs.find (Path.ofLocation (l ++ [name])) = .ok (l ++ [name]) := by
      rw [find, if_neg (by omega)]
      exact h.reached.walk_child hdots hsize
    have hnameable : nameError? (Path.ofLocation (l ++ [name])) = none :=
      nameError?_child h.nameable hname
    have hmake : fs.makeDirectory (Path.ofLocation (l ++ [name])) =
        .ok (fs.put (l ++ [name]) .directory) := by
      simp only [makeDirectory, hnameable, hfind, hnone, List.dropLast_concat, hnode,
        h.allowed _ _ (List.prefix_append l [name])]
    refine ⟨_, by rw [makeDirectories, hmake], ?_⟩
    refine h.isRunDirectory hdots hsize hname (fun l' => node?_put (by simp) l') ?_
    rw [put]
    split <;> rfl

end IsOutputRoot

end FileSystem

end Replay
