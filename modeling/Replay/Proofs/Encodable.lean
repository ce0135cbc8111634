import Replay.JsonText
import Replay.Label
import Replay.Proofs.Trim
import Replay.Timestamp
import Replay.Utf8
import Replay.ValueText

namespace Replay

namespace Text

/-- No code point of the text is a surrogate. -/
def Encodable (t : Text) : Prop := ∀ c ∈ t, c.isSurrogate = false

instance (t : Text) : Decidable t.Encodable := inferInstanceAs (Decidable (∀ c ∈ t, _))

variable {s t : Text}

@[simp] theorem encodable_nil : Encodable [] := by simp [Encodable]

@[simp] theorem encodable_cons {c : CodePoint} :
    Encodable (c :: t) ↔ c.isSurrogate = false ∧ Encodable t := by simp [Encodable]

@[simp] theorem encodable_append : Encodable (s ++ t) ↔ Encodable s ∧ Encodable t := by
  simp only [Encodable, List.mem_append, or_imp, forall_and]

@[simp] theorem encodable_ite {p : Prop} [Decidable p] :
    Encodable (if p then s else t) ↔ (p → Encodable s) ∧ (¬p → Encodable t) := by
  by_cases h : p <;> simp [h]

theorem Encodable.of_subset (h : Encodable t) (hs : s ⊆ t) : Encodable s := fun c hc => h c (hs hc)

/-- Characters are never surrogates. -/
@[simp] theorem isSurrogate_ofChar (c : Char) : (CodePoint.ofChar c).isSurrogate = false := by
  have h : c.toNat < 0xD800 ∨ 0xDFFF < c.toNat ∧ c.toNat < 0x110000 := c.valid
  rw [CodePoint.isSurrogate, Bool.and_eq_false_iff, decide_eq_false_iff_not,
    decide_eq_false_iff_not]
  show ¬ 0xD800 ≤ c.toNat ∨ ¬ c.toNat ≤ 0xDFFF
  omega

theorem encodable_map_ofChar (cs : List Char) : Encodable (cs.map CodePoint.ofChar) := by
  intro c hc
  obtain ⟨x, -, rfl⟩ := List.mem_map.mp hc
  exact isSurrogate_ofChar x

@[simp] theorem encodable_ofString (s : String) : Encodable (ofString s) := encodable_map_ofChar _

@[simp] theorem encodable_ofNat (n : Nat) : Encodable (ofNat n) := encodable_map_ofChar _

@[simp] theorem encodable_ofInt (n : Int) : Encodable (ofInt n) := by
  cases n <;> simp [ofInt]

@[simp] theorem encodable_replicate_ofChar (n : Nat) (c : Char) :
    Encodable (List.replicate n (CodePoint.ofChar c)) := by
  intro d hd
  rw [List.eq_of_mem_replicate hd, isSurrogate_ofChar]

@[simp] theorem encodable_padded (width n : Nat) : Encodable (padded width n) := by
  simp [padded]

@[simp] theorem encodable_hex (width n : Nat) : Encodable (hex width n) := by
  simp [hex, encodable_map_ofChar]

theorem encodable_flatMap {α : Type} {xs : List α} {f : α → Text} :
    Encodable (xs.flatMap f) ↔ ∀ x ∈ xs, Encodable (f x) := by
  simp only [Encodable, List.mem_flatMap]
  exact ⟨fun h x hx c hc => h c ⟨x, hx, hc⟩, fun h c ⟨x, hx, hc⟩ => h x hx c hc⟩

theorem join_cons_cons (separator t u : Text) (rest : List Text) :
    join separator (t :: u :: rest) = t ++ separator ++ join separator (u :: rest) := by
  simp [join]

theorem mem_join_of_mem {separator t : Text} {parts : List Text} {c : CodePoint}
    (ht : t ∈ parts) (hc : c ∈ t) : c ∈ join separator parts := by
  induction parts with
  | nil => simp at ht
  | cons u rest ih =>
    cases rest with
    | nil =>
      obtain rfl := List.mem_singleton.mp ht
      simpa [join] using hc
    | cons v rest =>
      rw [join_cons_cons, List.mem_append, List.mem_append]
      rcases List.mem_cons.mp ht with rfl | ht
      · exact .inl (.inl hc)
      · exact .inr (ih ht)

theorem mem_join {separator : Text} {parts : List Text} {c : CodePoint}
    (h : c ∈ join separator parts) : c ∈ separator ∨ ∃ t ∈ parts, c ∈ t := by
  induction parts with
  | nil => simp [join] at h
  | cons u rest ih =>
    cases rest with
    | nil => exact .inr ⟨u, List.mem_singleton_self u, by simpa [join] using h⟩
    | cons v rest =>
      rw [join_cons_cons, List.mem_append, List.mem_append] at h
      rcases h with (h | h) | h
      · exact .inr ⟨u, List.mem_cons_self, h⟩
      · exact .inl h
      · rcases ih h with h | ⟨t, ht, hc⟩
        · exact .inl h
        · exact .inr ⟨t, List.mem_cons_of_mem u ht, hc⟩

theorem encodable_join {separator : Text} (hs : Encodable separator) {parts : List Text} :
    Encodable (join separator parts) ↔ ∀ t ∈ parts, Encodable t := by
  constructor
  · intro h t ht c hc
    exact h c (mem_join_of_mem ht hc)
  · intro h c hc
    rcases mem_join hc with hc | ⟨t, ht, hc⟩
    · exact hs c hc
    · exact h t ht c hc

/-- White space is no surrogate. -/
theorem isSurrogate_of_isBlank {c : CodePoint} (h : c.isBlank = true) : c.isSurrogate = false := by
  simp only [CodePoint.isBlank, CodePoint.isSurrogate, Bool.or_eq_true, Bool.and_eq_true,
    decide_eq_true_eq, beq_iff_eq, Bool.and_eq_false_iff, decide_eq_false_iff_not] at h ⊢
  omega

theorem encodable_dropWhile {p : CodePoint → Bool} (hp : ∀ c, p c = true → c.isSurrogate = false) :
    Encodable (t.dropWhile p) ↔ Encodable t := by
  induction t with
  | nil => simp
  | cons c rest ih =>
    by_cases h : p c = true
    · simp [h, ih, hp c h]
    · simp [h]

theorem encodable_reverse : Encodable t.reverse ↔ Encodable t := by simp [Encodable]

theorem encodable_trim : Encodable t.trim ↔ Encodable t := by
  have hb : ∀ c : CodePoint, c.isBlank = true → c.isSurrogate = false :=
    fun _ => isSurrogate_of_isBlank
  rw [trim, trimRight, encodable_reverse, encodable_dropWhile hb, encodable_reverse, trimLeft,
    encodable_dropWhile hb]

end Text

namespace Utf8

theorem surrogateRun?_eq_none_iff {t : Text} {i : Nat} :
    surrogateRun? i t = none ↔ t.Encodable := by
  induction t generalizing i with
  | nil => simp [surrogateRun?]
  | cons c rest ih =>
    rw [surrogateRun?, Text.encodable_cons]
    split
    next h => simp [h]
    next h => simp [h, ih]

theorem encode_of_encodable {t : Text} (h : t.Encodable) :
    encode t = .ok (t.flatMap bytesOf) := by
  rw [encode, surrogateRun?_eq_none_iff.mpr h]

theorem encode_of_not_encodable {t : Text} (h : ¬ t.Encodable) : ∃ e, encode t = .error e := by
  rw [encode]
  cases hr : surrogateRun? 0 t with
  | none => exact absurd (surrogateRun?_eq_none_iff.mp hr) h
  | some e => exact ⟨e, rfl⟩

theorem encodable_of_encode {t : Text} {bytes : Bytes} (h : encode t = .ok bytes) :
    t.Encodable := by
  by_contra ht
  obtain ⟨e, he⟩ := encode_of_not_encodable ht
  simp [he] at h

end Utf8

open Text

namespace Moment

@[simp] theorem encodable_text (m : Moment) : Encodable m.text := by
  simp [text, dateText, timeText]

@[simp] theorem encodable_title (m : Moment) : Encodable m.title := by
  simp [title, timeText]

end Moment

namespace Double

@[simp] theorem encodable_signText (s : Bool) : Encodable (signText s) := by
  cases s <;> simp [signText]

theorem encodable_magnitudeText (units : Nat) : Encodable (magnitudeText units) := by
  rw [magnitudeText]
  generalize shortest units = shortest
  obtain ⟨digits, exponent⟩ := shortest
  have hn := encodable_ofNat digits
  have ht : ∀ n, Encodable ((ofNat digits).take n) := fun n => hn.of_subset (List.take_subset n _)
  have hd : ∀ n, Encodable ((ofNat digits).drop n) := fun n => hn.of_subset (List.drop_subset n _)
  have hr : Encodable (ofNat digits).tail := hn.of_subset (List.tail_sublist _).subset
  simp [ht, hd, hr]

@[simp] theorem encodable_text (x : Double) : Encodable x.text := by
  cases x <;> simp [text, encodable_magnitudeText]

@[simp] theorem encodable_fixed (places : Nat) (x : Double) : Encodable (x.fixed places) := by
  cases x with
  | nan => simp [fixed]
  | infinity s => simp [fixed]
  | finite s u =>
    have h := encodable_padded (places + 1) (roundDiv (u * 10 ^ places) one)
    simp [fixed, h.of_subset (List.take_subset _ _), h.of_subset (List.drop_subset _ _)]

end Double

@[simp] theorem Number.encodable_text (n : Number) : Encodable n.text := by
  cases n <;> simp [Number.text]

namespace Json

theorem encodable_escaped (c : CodePoint) : Encodable (escaped c) := by
  have hc : (32 ≤ c.val && c.val < 127) = true → c.isSurrogate = false := by
    intro h
    simp only [Bool.and_eq_true, decide_eq_true_eq] at h
    simp only [CodePoint.isSurrogate, Bool.and_eq_false_iff, decide_eq_false_iff_not]
    omega
  unfold escaped
  repeat' split
  iterate 7 · exact encodable_ofString _
  next h => exact encodable_cons.mpr ⟨hc h, encodable_nil⟩
  all_goals simp [unitEscape]

@[simp] theorem encodable_quoted (t : Text) : Encodable (quoted t) := by
  simp [quoted, encodable_flatMap, encodable_escaped]

@[simp] theorem encodable_boolText (b : Bool) : Encodable (boolText b) := by
  cases b <;> simp [boolText]

@[simp] theorem encodable_numberText (n : Number) : Encodable (numberText n) := by
  unfold numberText
  split <;> simp

@[simp] theorem encodable_newline (depth : Nat) : Encodable (newline depth) := by
  simp [newline]

@[simp] theorem encodable_openBrace : Encodable openBrace := by decide

@[simp] theorem encodable_closeBrace : Encodable closeBrace := by decide

mutual

theorem encodable_indentedAt (depth : Nat) : (j : Json) → Encodable (indentedAt depth j)
  | array [] => by simp [indentedAt]
  | object [] => by simp [indentedAt]
  | array (item :: rest) => by
    have h := encodable_indentedItems (depth + 1) (item :: rest)
    simp [indentedAt, h]
  | object (m :: rest) => by
    have h := encodable_indentedMembers (depth + 1) (m :: rest)
    simp [indentedAt, h]
  | null => by simp [indentedAt]
  | bool b => by simp [indentedAt]
  | number n => by simp [indentedAt]
  | text t => by simp [indentedAt]

theorem encodable_indentedItems (depth : Nat) :
    (items : List Json) → Encodable (indentedItems depth items)
  | [] => by simp [indentedItems]
  | [item] => by
    have h := encodable_indentedAt depth item
    simp [indentedItems, h]
  | item :: next :: rest => by
    have h := encodable_indentedAt depth item
    have hrest := encodable_indentedItems depth (next :: rest)
    simp [indentedItems, h, hrest]

theorem encodable_indentedMembers (depth : Nat) :
    (members : List (Text × Json)) → Encodable (indentedMembers depth members)
  | [] => by simp [indentedMembers]
  | [(name, value)] => by
    have h := encodable_indentedAt depth value
    simp [indentedMembers, h]
  | (name, value) :: next :: rest => by
    have h := encodable_indentedAt depth value
    have hrest := encodable_indentedMembers depth (next :: rest)
    simp [indentedMembers, h, hrest]

end

/-- The printed form of every value can be written. -/
theorem encodable_indented (j : Json) : Encodable j.indented := encodable_indentedAt 0 j

mutual

theorem encodable_compact : (j : Json) → Encodable (compact j)
  | array items => by
    have h := encodable_compactItems items
    simp [compact, h]
  | object members => by
    have h := encodable_compactMembers members
    simp [compact, h]
  | null => by simp [compact]
  | bool b => by simp [compact]
  | number n => by simp [compact]
  | text t => by simp [compact]

theorem encodable_compactItems : (items : List Json) → Encodable (compactItems items)
  | [] => by simp [compactItems]
  | [item] => by
    have h := encodable_compact item
    simp [compactItems, h]
  | item :: next :: rest => by
    have h := encodable_compact item
    have hrest := encodable_compactItems (next :: rest)
    simp [compactItems, h, hrest]

theorem encodable_compactMembers :
    (members : List (Text × Json)) → Encodable (compactMembers members)
  | [] => by simp [compactMembers]
  | [(name, value)] => by
    have h := encodable_compact value
    simp [compactMembers, h]
  | (name, value) :: next :: rest => by
    have h := encodable_compact value
    have hrest := encodable_compactMembers (next :: rest)
    simp [compactMembers, h, hrest]

end

/-- A text that is shown in quotation marks is only escaped. -/
theorem encodable_shownText {t : Text} (h : t.Encodable) : Encodable (shownText t) := by
  have hmark : Encodable [markOf t] := by
    rw [markOf]
    split <;> simp
  have hshown : ∀ c ∈ t, Encodable (shown (markOf t) c) := by
    intro c hc
    have hc := h c hc
    rw [shown]
    repeat' split
    · simp [hc]
    · simp
    · simp
    · simp
    · simp [hc]
    all_goals simp
  exact encodable_append.mpr ⟨encodable_append.mpr ⟨hmark, encodable_flatMap.mpr hshown⟩, hmark⟩

end Json

namespace Label

/-- What a name keeps are small letters, digits and two signs, all of them visible ASCII. -/
theorem bounds_of_isKept {c : CodePoint} (h : isKept c = true) :
    45 ≤ c.val ∧ c.val ≤ 122 ∧ c.isUpper = false := by
  simp only [isKept, CodePoint.isLower, CodePoint.isDigit, Bool.or_eq_true, Bool.and_eq_true,
    decide_eq_true_eq] at h
  simp only [CodePoint.isUpper, Bool.and_eq_false_iff, decide_eq_false_iff_not]
  rcases h with ((h | h) | rfl) | rfl
  · omega
  · omega
  · decide
  · decide

theorem isSurrogate_of_isKept {c : CodePoint} (h : isKept c = true) : c.isSurrogate = false := by
  obtain ⟨-, hhigh, -⟩ := bounds_of_isKept h
  simp only [CodePoint.isSurrogate, Bool.and_eq_false_iff, decide_eq_false_iff_not]
  omega

theorem isKept_of_mem_hyphenate {c : CodePoint} {t : Text} (h : c ∈ hyphenate t) :
    isKept c = true := by
  induction t with
  | nil => simp [hyphenate] at h
  | cons d rest ih =>
    have hd : isKept (if isKept d then d else hyphen) = true := by
      split
      next hk => exact hk
      next => decide
    rw [hyphenate] at h
    generalize (if isKept d then d else hyphen) = e at h hd
    split at h
    next => exact ih h
    next =>
      rcases List.mem_cons.mp h with rfl | h
      · exact hd
      · exact ih h

theorem trimEdges_subset (t : Text) : trimEdges t ⊆ t := by
  intro c hc
  rw [trimEdges, List.mem_reverse] at hc
  have h := (List.dropWhile_sublist _).subset hc
  exact (List.dropWhile_sublist _).subset (List.mem_reverse.mp h)

@[simp] theorem encodable_fileName (label : Text) : Encodable (fileName label) := by
  rw [fileName]
  refine encodable_ite.mpr ⟨fun _ => encodable_ofString _, fun _ => ?_⟩
  · intro c hc
    exact isSurrogate_of_isKept (isKept_of_mem_hyphenate (trimEdges_subset _ hc))

end Label

end Replay
