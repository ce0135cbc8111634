import Replay.Proofs.GameIds

namespace Replay.Game

variable {names before rest : List Text} {name version id : Text}

/-- A version and the names on the way to its directory. -/
inductive IsVersionOf : List Text → Text → Prop
  | after {before rest : List Text} {name : Text} (last : collection ∉ name :: rest) :
    IsVersionOf (before ++ collection :: name :: rest) name
  | own {before : List Text} {name : Text}
    (last : collection ∉ before ++ [name] ∨ name = collection) :
    IsVersionOf (before ++ [name]) name

theorem afterCollection?_of_not_mem (h : collection ∉ names) : afterCollection? names = none := by
  induction names with
  | nil => rfl
  | cons first rest ih =>
    obtain ⟨hne, hrest⟩ := not_or.mp (mt List.mem_cons.mpr h)
    rw [afterCollection?, ih hrest]
    simp [Ne.symm hne]

/-- What follows the last `games` is found behind any names. -/
theorem afterCollection?_append_cons (before : List Text) (h : collection ∉ rest) :
    afterCollection? (before ++ collection :: rest) = rest.head? := by
  induction before with
  | nil =>
    rw [List.nil_append, afterCollection?, afterCollection?_of_not_mem h]
    simp [h]
  | cons first before ih =>
    rw [List.cons_append, afterCollection?, ih]
    cases rest with
    | nil => simp
    | cons next rest => rfl

/-- The names up to the last `games`, and those after it. -/
theorem exists_last_collection (h : collection ∈ names) :
    ∃ before rest, names = before ++ collection :: rest ∧ collection ∉ rest := by
  obtain ⟨tail, front, hsplit, hnot⟩ := List.eq_append_cons_of_mem (List.mem_reverse.mpr h)
  refine ⟨front.reverse, tail.reverse, ?_, mt List.mem_reverse.mp hnot⟩
  rw [← List.reverse_reverse names, hsplit]
  simp

theorem IsVersionOf.eq (h : IsVersionOf names version) :
    (afterCollection? names).or names.getLast? = some version := by
  cases h with
  | after hlast => rw [afterCollection?_append_cons _ hlast, List.head?_cons, Option.some_or]
  | @own before _ hlast =>
    have hnone : afterCollection? (before ++ [version]) = none := by
      rcases hlast with hnot | rfl
      · exact afterCollection?_of_not_mem hnot
      · exact afterCollection?_append_cons before List.not_mem_nil
    rw [hnone, Option.none_or, List.getLast?_concat]

/-- Every directory but the root is that of a version. -/
theorem exists_isVersionOf (h : names ≠ []) : ∃ version, IsVersionOf names version := by
  by_cases hmem : collection ∈ names
  · obtain ⟨before, rest, rfl, hrest⟩ := exists_last_collection hmem
    cases rest with
    | nil => exact ⟨collection, .own (.inr rfl)⟩
    | cons name rest => exact ⟨name, .after hrest⟩
  · obtain ⟨before, name, rfl⟩ := (List.eq_nil_or_concat' names).resolve_left h
    exact ⟨name, .own (.inl hmem)⟩

/-- A directory right below `games` is that of the version with its name. -/
theorem isVersionOf_child (before : List Text) (id : Text) :
    IsVersionOf (before ++ [collection] ++ [id]) id := by
  by_cases hid : id = collection
  · exact .own (.inr hid)
  · rw [List.append_assoc]
    exact .after (by simpa using Ne.symm hid)

section

variable {fs : FileSystem} {directory path root : Path}

theorem inferVersion_eq (h : fs.resolve directory = .ok path) :
    inferVersion fs directory =
      ((afterCollection? path.names).or path.names.getLast?).elim
        (.error (.source (.noGame directory))) .ok := by
  simp only [inferVersion, h]
  cases afterCollection? path.names with
  | some found => rfl
  | none => cases path.names.getLast? <;> rfl

theorem inferVersion_of_isVersionOf (h : fs.resolve directory = .ok path)
    (hversion : IsVersionOf path.names version) : inferVersion fs directory = .ok version := by
  rw [inferVersion_eq h, hversion.eq]
  rfl

theorem inferVersion_of_root (h : fs.resolve directory = .ok path) (hroot : path.names = []) :
    inferVersion fs directory = .error (.source (.noGame directory)) := by
  rw [inferVersion_eq h, hroot]
  rfl

theorem exists_of_name (h : root.name = collection) :
    ∃ before, root.names = before ++ [collection] := by
  rw [Path.name] at h
  cases hlast : root.names.getLast? with
  | none =>
    rw [hlast] at h
    exact absurd h (by decide)
  | some name =>
    rw [hlast] at h
    obtain rfl : name = collection := h
    exact List.getLast?_eq_some_iff.mp hlast

/-- The absolute path of an entry of `games` ends with that name and its own. -/
theorem names_of_resolve_child (hroot : root.name = collection) (hid : id ≠ Path.dots)
    (h : fs.resolve (root.child id) = .ok path) :
    ∃ before, path.names = before ++ [collection] ++ [id] := by
  obtain ⟨names, hnames⟩ := exists_of_name hroot
  rw [FileSystem.resolve] at h
  split at h
  next => cases h
  next =>
    obtain rfl := Except.ok.inj h
    have hgames : collection ≠ Path.dots := by decide
    refine ⟨names.foldl FileSystem.step (if root.isAbsolute then [] else fs.cwd), ?_⟩
    simp [Path.ofLocation, Path.child, Path.isAbsolute, hnames, FileSystem.step, hgames, hid]

/-- The version of a directory, by the names of its absolute path. It is the one after the last
`games` if there is one after it, and the last one otherwise; it cannot be told exactly if there is
no name at all. A directory whose path is that of one called `games` and one more name is taken for
the version of this name, and so is every entry of such a directory. -/
theorem inferVersion_of_resolve (fs : FileSystem) (directory path : Path)
    (h : fs.resolve directory = .ok path) :
    (∀ version, inferVersion fs directory = .ok version ↔ IsVersionOf path.names version) ∧
    (∀ f, inferVersion fs directory = .error f ↔
      path.names = [] ∧ f = .source (.noGame directory)) ∧
    (∀ (root : Path) (id : Text), root.name = collection → path = root.child id →
      inferVersion fs directory = .ok id) ∧
    ∀ (root : Path) (id : Text), root.name = collection → IsComponent id →
      directory = root.child id → inferVersion fs directory = .ok id := by
  have hnamed (hne : path.names ≠ []) :
      ∃ version, IsVersionOf path.names version ∧ inferVersion fs directory = .ok version := by
    obtain ⟨version, hversion⟩ := exists_isVersionOf hne
    exact ⟨version, hversion, inferVersion_of_isVersionOf h hversion⟩
  refine ⟨fun version => ⟨fun hinfer => ?_, inferVersion_of_isVersionOf h⟩,
    fun f => ⟨fun hinfer => ?_, ?_⟩, fun root id hroot hpath => ?_,
    fun root id hroot hid hpath => ?_⟩
  · have hne : path.names ≠ [] := fun hroot => by
      rw [inferVersion_of_root h hroot] at hinfer
      cases hinfer
    obtain ⟨found, hfound, hinfer'⟩ := hnamed hne
    rwa [Except.ok.inj (hinfer.symm.trans hinfer')]
  · by_cases hroot : path.names = []
    · exact ⟨hroot, Except.error.inj (hinfer.symm.trans (inferVersion_of_root h hroot))⟩
    · obtain ⟨version, -, hinfer'⟩ := hnamed hroot
      cases hinfer.symm.trans hinfer'
  · rintro ⟨hroot, rfl⟩
    exact inferVersion_of_root h hroot
  · obtain ⟨before, hnames⟩ := exists_of_name hroot
    refine inferVersion_of_isVersionOf h ?_
    rw [hpath, Path.child, hnames]
    exact isVersionOf_child before id
  · obtain ⟨before, hnames⟩ := names_of_resolve_child hroot hid.ne_dots (hpath ▸ h)
    refine inferVersion_of_isVersionOf h ?_
    rw [hnames]
    exact isVersionOf_child before id

end

/-- Of two directories `games` the inner one counts. -/
theorem inferVersion_of_inner_collection :
    let fs : FileSystem := ⟨[], [], fun _ => none, fun _ _ => none⟩
    let directory : Path := .ofText "/games/v1/games/v2/build"
    fs.resolve directory = .ok directory ∧ inferVersion fs directory = .ok "v2" := by
  intro fs directory
  have hresolve : fs.resolve directory = .ok directory := by decide +kernel
  refine ⟨hresolve, ((inferVersion_of_resolve fs directory directory hresolve).1 "v2").mpr ?_⟩
  have hversion : IsVersionOf ([("games" : Text), "v1"] ++ collection :: "v2" :: ["build"]) "v2" :=
    .after (by decide)
  exact hversion

end Replay.Game
