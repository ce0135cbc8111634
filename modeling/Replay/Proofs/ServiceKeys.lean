import Replay.Proofs.KeyedAccess
import Replay.Proofs.ReportTable
import Replay.Proofs.TextArrays

namespace Replay

namespace Text

variable {left right t piece : Text} {separator c : CodePoint}

theorem trim_of_isBlank (h : ∀ c ∈ t, c.isBlank = true) : t.trim = [] := by
  have hnil : t ++ [] ++ [] = t := by simp
  exact hnil ▸ trim_append_append (t := []) h fun _ hc => absurd hc List.not_mem_nil

theorem exists_trim (t : Text) :
    ∃ left right, (∀ c ∈ left, c.isBlank = true) ∧ (∀ c ∈ right, c.isBlank = true) ∧
      left ++ t.trim ++ right = t := by
  refine ⟨t.takeWhile CodePoint.isBlank, t.trimLeft.rtakeWhile CodePoint.isBlank,
    fun c hc => List.mem_takeWhile_imp hc, fun c hc => List.mem_rtakeWhile_imp hc, ?_⟩
  rw [trim_eq_rdropWhile, List.append_assoc, trimLeft, List.rdropWhile_append_rtakeWhile]
  exact List.takeWhile_append_dropWhile

/-- White space around a text is white space around its first piece and its last one. -/
theorem map_trim_splitOn_append_append (hleft : ∀ c ∈ left, c.isBlank = true)
    (hright : ∀ c ∈ right, c.isBlank = true) (hseparator : separator.isBlank = false) :
    (splitOn separator (left ++ t ++ right)).map trim = (splitOn separator t).map trim := by
  induction hn : t.length using Nat.strongRecOn generalizing left t right with
  | ind n ih =>
    subst hn
    by_cases hmem : separator ∈ t
    · obtain ⟨a, b, rfl⟩ := List.append_of_mem hmem
      have hnone : ∀ c ∈ ([] : Text), c.isBlank = true := fun _ hc => absurd hc List.not_mem_nil
      have hfront := ih a.length (by simp) (t := a) hleft hnone rfl
      have hback := ih b.length (by simp; omega) (t := b) hnone hright rfl
      rw [List.append_nil] at hfront
      rw [List.nil_append] at hback
      have hcut : left ++ (a ++ separator :: b) ++ right =
          (left ++ a) ++ separator :: (b ++ right) := by simp
      rw [hcut, splitOn_append_cons, splitOn_append_cons, List.map_append, List.map_append,
        hfront, hback]
    · have hblank : ∀ u : Text, (∀ c ∈ u, c.isBlank = true) → separator ∉ u := fun u hu hin =>
        absurd (hu _ hin) (by simp [hseparator])
      have hall : separator ∉ left ++ t ++ right := by
        simp [hblank left hleft, hblank right hright, hmem]
      rw [splitOn_of_not_mem hall, splitOn_of_not_mem hmem, List.map_singleton, List.map_singleton,
        trim_append_append hleft hright]

theorem map_trim_splitOn_trim (hseparator : separator.isBlank = false) (t : Text) :
    (splitOn separator t.trim).map trim = (splitOn separator t).map trim := by
  obtain ⟨left, right, hleft, hright, ht⟩ := exists_trim t
  have hpieces := map_trim_splitOn_append_append (t := t.trim) hleft hright hseparator
  rw [← hpieces, ht]

end Text

namespace ServiceSettings

variable {k t piece : Text} {keys pieces : List Text} {depth : Nat}

def comma : CodePoint := ','

/-- A text with white space around it. -/
def IsPadded (t padded : Text) : Prop :=
  ∃ left right, (∀ c ∈ left, c.isBlank = true) ∧ (∀ c ∈ right, c.isBlank = true) ∧
    padded = left ++ t ++ right

/-- The pieces of a list of keys: the keys with white space around them and, anywhere, pieces of
nothing but white space. -/
inductive Pieces : List Text → List Text → Prop
  | nil : Pieces [] []
  | key {k piece : Text} {keys pieces : List Text} (padded : IsPadded k piece)
    (later : Pieces keys pieces) : Pieces (k :: keys) (piece :: pieces)
  | empty {piece : Text} {keys pieces : List Text} (blank : ∀ c ∈ piece, c.isBlank = true)
    (later : Pieces keys pieces) : Pieces keys (piece :: pieces)

/-- A text that lists the keys with commas between them. -/
def IsCommaList (keys : List Text) (t : Text) : Prop :=
  ∃ pieces, Pieces keys pieces ∧ t = Text.join [comma] pieces

/-- Keys that can be told from the marks of both ways to list them. -/
structure ArePlain (keys : List Text) : Prop where
  ne_nil : ∀ k ∈ keys, k ≠ []
  trimmed : ∀ k ∈ keys, k.trim = k
  comma_not_mem : ∀ k ∈ keys, comma ∉ k
  unbracketed : Text.startsWith (keys.headD []) "[" = false

theorem trimAll_cons_of_ne_nil (h : piece.trim ≠ []) (pieces : List Text) :
    trimAll (piece :: pieces) = piece.trim :: trimAll pieces := by
  simp [trimAll, h]

theorem trimAll_cons_of_eq_nil (h : piece.trim = []) (pieces : List Text) :
    trimAll (piece :: pieces) = trimAll pieces := by
  simp [trimAll, h]

theorem trimAll_eq_self (hne : ∀ k ∈ keys, k ≠ []) (htrim : ∀ k ∈ keys, k.trim = k) :
    trimAll keys = keys := by
  rw [trimAll, List.map_congr_left htrim, List.map_id']
  exact List.filter_eq_self.mpr fun k hk => by simpa using hne k hk

theorem Pieces.trimAll_eq (h : Pieces keys pieces) : trimAll pieces = trimAll keys := by
  induction h with
  | nil => rfl
  | @key k piece keys pieces padded _ ih =>
    obtain ⟨left, right, hleft, hright, rfl⟩ := padded
    have htrim : (left ++ k ++ right).trim = k.trim := Text.trim_append_append hleft hright
    by_cases hk : k.trim = []
    · rw [trimAll_cons_of_eq_nil hk, trimAll_cons_of_eq_nil (htrim.trans hk), ih]
    · rw [trimAll_cons_of_ne_nil hk, trimAll_cons_of_ne_nil (htrim ▸ hk), htrim, ih]
  | empty blank _ ih => rw [trimAll_cons_of_eq_nil (Text.trim_of_isBlank blank), ih]

theorem comma_not_mem_of_isBlank (h : ∀ c ∈ t, c.isBlank = true) : comma ∉ t :=
  fun hin => absurd (h _ hin) (by decide)

theorem Pieces.comma_not_mem (h : Pieces keys pieces) (hkeys : ∀ k ∈ keys, comma ∉ k) :
    ∀ piece ∈ pieces, comma ∉ piece := by
  induction h with
  | nil => exact hkeys
  | key padded _ ih =>
    obtain ⟨left, right, hleft, hright, rfl⟩ := padded
    obtain ⟨hk, hlater⟩ := List.forall_mem_cons.mp hkeys
    refine List.forall_mem_cons.mpr ⟨?_, ih hlater⟩
    simp [hk, comma_not_mem_of_isBlank hleft, comma_not_mem_of_isBlank hright]
  | empty blank _ ih =>
    exact List.forall_mem_cons.mpr ⟨comma_not_mem_of_isBlank blank, ih hkeys⟩

theorem Pieces.trimAll_splitOn (h : Pieces keys pieces) (hkeys : ∀ k ∈ keys, comma ∉ k) :
    trimAll (Text.splitOn comma (Text.join [comma] pieces)) = trimAll keys := by
  cases pieces with
  | nil => cases h; rfl
  | cons piece pieces =>
    rw [Text.splitOn_join (List.cons_ne_nil _ _),
      Text.flatMap_splitOn_of_not_mem (h.comma_not_mem hkeys), h.trimAll_eq]

theorem trimAll_splitOn_trim (t : Text) :
    trimAll (Text.splitOn comma t.trim) = trimAll (Text.splitOn comma t) := by
  rw [trimAll, Text.map_trim_splitOn_trim (by decide), trimAll]

/-- A bracket in front of a list is one in front of its first key. -/
theorem startsWith_headD_trimAll (h : Text.startsWith t "[" = true) :
    Text.startsWith ((trimAll (Text.splitOn comma t)).headD []) "[" = true := by
  obtain ⟨rest, rfl⟩ := List.isPrefixOf_iff_prefix.mp h
  have hcomma : comma ∉ ("[" : Text) := by decide
  rw [Text.splitOn_append_of_not_mem hcomma]
  cases hpieces : Text.splitOn comma rest with
  | nil => exact absurd hpieces (Text.splitOn_ne_nil _ _)
  | cons piece pieces =>
    have htrim : (("[" : Text) ++ piece).trim = ("[" : Text) ++ Text.trimRight piece :=
      Text.trim_append (c := CodePoint.ofChar '[') (d := CodePoint.ofChar '[') rfl (by decide) rfl
        (by decide) piece
    have hne : (("[" : Text) ++ piece).trim ≠ [] := htrim ▸ List.cons_ne_nil _ _
    rw [List.modifyHead_cons, trimAll_cons_of_ne_nil hne, htrim]
    exact List.isPrefixOf_iff_prefix.mpr (List.prefix_append _ _)

theorem readKeys_of_not_startsWith (h : Text.startsWith t.trim "[" = false) :
    readKeys depth (some t) = .ok (distinct (trimAll (Text.splitOn comma t))) := by
  rw [← trimAll_splitOn_trim]
  exact if_neg (by simpa using h)

theorem readKeys_of_isCommaList (h : ArePlain keys) (ht : IsCommaList keys t) :
    readKeys depth (some t) = .ok keys.eraseDups := by
  obtain ⟨pieces, hpieces, rfl⟩ := ht
  have hkeys : trimAll (Text.splitOn comma (Text.join [comma] pieces)) = keys :=
    (hpieces.trimAll_splitOn h.comma_not_mem).trans (trimAll_eq_self h.ne_nil h.trimmed)
  have hbracket : Text.startsWith (Text.join [comma] pieces).trim "[" = false := by
    rw [Bool.eq_false_iff]
    intro hstart
    have hfirst := startsWith_headD_trimAll hstart
    rw [trimAll_splitOn_trim, hkeys, h.unbracketed] at hfirst
    cases hfirst
  rw [readKeys_of_not_startsWith hbracket, hkeys, distinct_eq_eraseDups]

theorem readKeys_of_read (hne : ∀ k ∈ keys, k ≠ []) (htrim : ∀ k ∈ keys, k.trim = k)
    (ht : Json.read depth t = .ok (.array (keys.map .text))) :
    readKeys depth (some t) = .ok keys.eraseDups := by
  obtain ⟨hhead, hread⟩ := Json.read_trim ht
  have hbracket : Text.startsWith t.trim "[" = true := by
    obtain ⟨rest, hrest⟩ := List.head?_eq_some_iff.mp hhead
    rw [hrest]
    exact List.isPrefixOf_iff_prefix.mpr ⟨rest, rfl⟩
  have hplain : (keys.map Json.text).map Json.plain = keys := by
    rw [List.map_map]
    exact List.map_id keys
  rw [readKeys, Option.getD_some, if_pos hbracket, hread]
  simp only [hplain, trimAll_eq_self hne htrim, distinct_eq_eraseDups]

/-- Keys are told apart and trimmed, and none of them is blank. However they are listed, with commas
between them or in an array, the same are read: each key where it stands first. -/
theorem readKeys_agree (depth : Nat) :
    (∀ t keys, readKeys depth t = .ok keys → keys.Nodup ∧ ∀ k ∈ keys, k ≠ [] ∧ k.trim = k) ∧
      ∀ keys, ArePlain keys →
        (∀ t, IsCommaList keys t → readKeys depth (some t) = .ok keys.eraseDups) ∧
        ∀ t, Json.read depth t = .ok (.array (keys.map .text)) →
          readKeys depth (some t) = .ok keys.eraseDups := by
  refine ⟨fun t keys h => ?_, fun keys h => ⟨fun t => readKeys_of_isCommaList h, fun t =>
    readKeys_of_read h.ne_nil h.trimmed⟩⟩
  obtain ⟨texts, rfl⟩ := exists_of_readKeys h
  refine ⟨nodup_distinct _, fun k hk => ?_⟩
  obtain ⟨hne, t, -, rfl⟩ := mem_trimAll_of_distinct hk
  exact ⟨hne, Text.trim_trim t⟩

/-- Three keys of which one is repeated, with white space and pieces of nothing between the commas,
and in an array with an escape. -/
theorem readKeys_of_repeated :
    readKeys 1 (some " one, two ,,one ") = .ok ["one", "two"] ∧
      readKeys 1 (some " [\"one\", \"\\u0074wo\" ,\"one\"]\n") = .ok ["one", "two"] := by
  have hplain : ArePlain ["one", "two", "one"] := by
    refine ⟨?_, ?_, ?_, ?_⟩ <;> decide
  have hpieces : Pieces ["one", "two", "one"] [" one", " two ", "", "one "] :=
    .key ⟨" ", "", by decide, by decide, rfl⟩ <|
      .key ⟨" ", " ", by decide, by decide, rfl⟩ <|
        .empty (by decide) <| .key ⟨"", " ", by decide, by decide, rfl⟩ .nil
  have hread := (readKeys_agree 1).2 _ hplain
  exact ⟨hread.1 _ ⟨_, hpieces, rfl⟩, hread.2 _ (by cbv)⟩

end ServiceSettings

end Replay
