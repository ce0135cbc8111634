import Mathlib.Data.List.Basic
import Replay.FileSystem
import Replay.Proofs.Encodable

namespace Replay

/-- A code point that a name may have: no surrogate but those of undecoded bytes, and no null. -/
def CodePoint.IsNameable (c : CodePoint) : Prop :=
  (c.isSurrogate = true → 0xDC80 ≤ c.val ∧ c.val ≤ 0xDCFF) ∧ c.val ≠ 0

namespace Path

variable {p : Path} {c : CodePoint}

/-- The text of a path is made of its names, slashes, and a dot if there is no name. -/
theorem mem_text (h : c ∈ p.text) :
    c = slash ∨ c = CodePoint.ofChar '.' ∨ ∃ name ∈ p.names, c ∈ name := by
  rw [text] at h
  split at h
  next => exact .inr (.inl (by simpa [Text.ofString] using h))
  next =>
    rcases List.mem_append.mp h with h | h
    · exact .inl (List.eq_of_mem_replicate h)
    · rcases Text.mem_join h with h | h
      · exact .inl (List.mem_singleton.mp h)
      · exact .inr (.inr h)

theorem mem_text_of_mem_names {name : Text} (hn : name ∈ p.names) (hc : c ∈ name) :
    c ∈ p.text := by
  rw [text, if_neg]
  · exact List.mem_append_right _ (Text.mem_join_of_mem hn hc)
  · have := List.ne_nil_of_mem hn
    simp [this]

end Path

namespace FileSystem

/-- Only the surrogates of undecoded bytes are passed over when a name is encoded. -/
theorem isSurrogate_masked_iff (c : CodePoint) :
    (if 0xDC80 ≤ c.val && c.val ≤ 0xDCFF then CodePoint.ofNat 0 else c).isSurrogate = false ↔
      (c.isSurrogate = true → 0xDC80 ≤ c.val ∧ c.val ≤ 0xDCFF) := by
  split
  next h =>
    simp only [Bool.and_eq_true, decide_eq_true_eq] at h
    simp only [h, and_self, implies_true, iff_true]
    decide
  next h =>
    simp only [Bool.and_eq_true, decide_eq_true_eq] at h
    simp [h]

theorem textError?_eq_none_iff {t : Text} :
    textError? t = none ↔ ∀ c ∈ t, c.IsNameable := by
  rw [textError?]
  split
  next e he =>
    have hne : ¬ Text.Encodable _ := fun h => by
      rw [Utf8.surrogateRun?_eq_none_iff.mpr h] at he
      cases he
    simp only [reduceCtorEq, false_iff]
    intro h
    refine hne fun d hd => ?_
    obtain ⟨c, hc, rfl⟩ := List.mem_map.mp hd
    exact (isSurrogate_masked_iff c).mpr (h c hc).1
  next he =>
    have hen := Utf8.surrogateRun?_eq_none_iff.mp he
    have hs : ∀ c ∈ t, c.isSurrogate = true → 0xDC80 ≤ c.val ∧ c.val ≤ 0xDCFF := fun c hc =>
      (isSurrogate_masked_iff c).mp (hen _ (List.mem_map_of_mem hc))
    simp only [ite_eq_right_iff, reduceCtorEq, imp_false, List.any_eq_true, decide_eq_true_eq,
      not_exists, not_and]
    exact ⟨fun h c hc => ⟨hs c hc, h c hc⟩, fun h c hc => (h c hc).2⟩

theorem isNameable_slash : CodePoint.IsNameable Path.slash := by
  constructor <;> decide

theorem isNameable_dot : CodePoint.IsNameable (CodePoint.ofChar '.') := by
  constructor <;> decide

/-- A path can be named if all its names can. -/
theorem nameError?_eq_none_iff {p : Path} :
    nameError? p = none ↔ ∀ name ∈ p.names, ∀ c ∈ name, c.IsNameable := by
  rw [nameError?, textError?_eq_none_iff]
  constructor
  · exact fun h name hn c hc => h c (Path.mem_text_of_mem_names hn hc)
  · intro h c hc
    rcases Path.mem_text hc with rfl | rfl | ⟨name, hn, hc⟩
    · exact isNameable_slash
    · exact isNameable_dot
    · exact h name hn c hc

theorem nameError?_child {p : Path} {name : Text} (hp : nameError? p = none)
    (hn : ∀ c ∈ name, c.IsNameable) : nameError? (p.child name) = none := by
  rw [nameError?_eq_none_iff] at hp ⊢
  intro n hmem
  rcases List.mem_append.mp hmem with h | h
  · exact hp n h
  · obtain rfl := List.mem_singleton.mp h
    exact hn

theorem nameError?_parent {p : Path} (hp : nameError? p = none) : nameError? p.parent = none := by
  rw [nameError?_eq_none_iff] at hp ⊢
  exact fun n hmem => hp n ((List.dropLast_sublist _).subset hmem)

variable {fs fs' : FileSystem} {p : Path} {e : FileError}

theorem isAccess_of_openFile (h : fs.openFile p = .error e) (hp : nameError? p = none) :
    e.isAccess = true := by
  rw [openFile, hp] at h
  simp only at h
  repeat' split at h
  all_goals first | cases h; rfl | cases h

theorem isAccess_of_makeDirectory (h : fs.makeDirectory p = .error e) (hp : nameError? p = none) :
    e.isAccess = true := by
  rw [makeDirectory, hp] at h
  simp only at h
  repeat' split at h
  all_goals first | cases h; rfl | cases h

theorem isAccess_of_test {asked : Node → Bool} (h : fs.test p asked = .error e) :
    e.isAccess = true := by
  rw [test] at h
  repeat' split at h
  all_goals first | cases h; rfl | cases h

theorem isAccess_of_accept {e' : FileError} (h : fs.accept p e = (.error e', fs'))
    (he : e.isAccess = true) : e'.isAccess = true := by
  cases e with
  | access fault q =>
    simp only [accept] at h
    split at h
    next => cases h
    next =>
      cases h
      rfl
    next hd =>
      cases h
      exact isAccess_of_test hd
  | sameFile source target =>
    cases h
    rfl
  | nullCharacter => cases he
  | unencodable e => cases he
  | undecodable e => cases he

theorem isAccess_of_ensureDirectory (h : fs.ensureDirectory p = (.error e, fs'))
    (hp : nameError? p = none) : e.isAccess = true := by
  rw [ensureDirectory] at h
  split at h
  next => cases h
  next e' he => exact isAccess_of_accept h (isAccess_of_makeDirectory he hp)

theorem isAccess_of_makeDirectories (h : fs.makeDirectories p = (.error e, fs'))
    (hp : nameError? p = none) : e.isAccess = true := by
  fun_induction makeDirectories fs p generalizing fs' e with
  | case1 p fs' hm => cases h
  | case2 p q hm hnil =>
    cases h
    rfl
  | case3 p q hm hne hlt fs' hparent ih => exact isAccess_of_ensureDirectory h hp
  | case4 p q hm hne hlt e fs' hparent ih =>
    cases h
    exact ih hparent (nameError?_parent hp)
  | case5 p e hne hm => exact isAccess_of_accept h (isAccess_of_makeDirectory hm hp)

theorem isAccess_of_textError? {t : Text} (h : textError? t = some e) : e.isAccess = false := by
  rw [textError?] at h
  repeat' split at h
  all_goals first | cases h; rfl | cases h

/-- A directory that can be made can be named. -/
theorem nameError?_of_makeDirectories (h : fs.makeDirectories p = (.ok (), fs')) :
    nameError? p = none := by
  cases hn : nameError? p with
  | none => rfl
  | some e =>
    have he := isAccess_of_textError? hn
    have hm : fs.makeDirectory p = .error e := by rw [makeDirectory, hn]
    rw [makeDirectories, hm] at h
    cases e with
    | access fault q => cases he
    | sameFile source target => cases he
    | nullCharacter => cases h
    | unencodable e => cases h
    | undecodable e => cases h

end FileSystem

end Replay
