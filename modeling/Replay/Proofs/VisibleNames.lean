import Replay.Artifact
import Replay.Proofs.FileNames
import Replay.Proofs.MomentText

namespace Replay

/-- An ASCII character that is neither a blank nor a control. -/
def CodePoint.IsVisible (c : CodePoint) : Prop := 33 ≤ c.val ∧ c.val ≤ 126

instance (c : CodePoint) : Decidable c.IsVisible := inferInstanceAs (Decidable (_ ∧ _))

theorem CodePoint.IsVisible.isNameable {c : CodePoint} (h : c.IsVisible) : c.IsNameable := by
  obtain ⟨hlow, hhigh⟩ := h
  refine ⟨fun hs => ?_, by omega⟩
  simp only [isSurrogate, Bool.and_eq_true, decide_eq_true_eq] at hs
  omega

theorem CodePoint.ofChar_injective : Function.Injective CodePoint.ofChar := by
  intro a b h
  exact Char.toNat_inj.mp (congrArg CodePoint.val h)

namespace Text

def IsVisible (t : Text) : Prop := ∀ c ∈ t, c.IsVisible

instance (t : Text) : Decidable t.IsVisible := inferInstanceAs (Decidable (∀ c ∈ t, _))

variable {s t : Text} {width n : Nat}

@[simp] theorem isVisible_append : IsVisible (s ++ t) ↔ IsVisible s ∧ IsVisible t := by
  simp only [IsVisible, List.mem_append, or_imp, forall_and]

theorem IsVisible.encodable (h : t.IsVisible) : t.Encodable := by
  intro c hc
  obtain ⟨hlow, hhigh⟩ := h c hc
  simp only [CodePoint.isSurrogate, Bool.and_eq_false_iff, decide_eq_false_iff_not]
  omega

theorem isDigit_of_mem_padded {c : CodePoint} (hc : c ∈ padded width n) : c.isDigit = true := by
  rcases List.mem_append.mp hc with hc | hc
  · rw [List.eq_of_mem_replicate hc]
    decide
  · obtain ⟨x, hx, rfl⟩ := List.mem_map.mp hc
    have hdigit := Nat.isDigit_of_mem_toDigits (by decide) (by decide) hx
    simp only [Char.isDigit, Bool.and_eq_true, decide_eq_true_eq, UInt32.le_iff_toNat_le] at hdigit
    obtain ⟨hlow, hhigh⟩ := hdigit
    exact Bool.and_eq_true_iff.mpr ⟨decide_eq_true hlow, decide_eq_true hhigh⟩

@[simp] theorem isVisible_padded (width n : Nat) : IsVisible (padded width n) := by
  intro c hc
  have hdigit := isDigit_of_mem_padded hc
  simp only [CodePoint.isDigit, Bool.and_eq_true, decide_eq_true_eq] at hdigit
  exact ⟨by omega, by omega⟩

theorem length_padded (hw : 1 ≤ width) (h : n < 10 ^ width) : (padded width n).length = width := by
  induction width, hw using Nat.le_induction generalizing n with
  | base => simp [padded, ofNat, Nat.toDigits_of_lt_base (by omega : n < 10)]
  | succ width hw ih =>
    have hn : n / 10 < 10 ^ width := by
      rw [Nat.pow_succ] at h
      omega
    rw [TimestampReader.padded_succ hw, List.length_append, ih hn, List.length_singleton]

/-- Zeros in front do not change which number is meant. -/
theorem padded_inj {k : Nat} (h : padded width n = padded width k) : n = k := by
  have hdigits (i : Nat) : ∃ zeros, padded width i =
      (List.replicate zeros '0' ++ Nat.toDigits 10 i).map CodePoint.ofChar := by
    refine ⟨width - (ofNat i).length, ?_⟩
    rw [padded, List.map_append, List.map_replicate]
    rfl
  have hread (zeros i : Nat) :
      Nat.ofDigitChars 10 (List.replicate zeros '0' ++ Nat.toDigits 10 i) 0 = i := by
    rw [Nat.ofDigitChars_append]
    have hzeros : Nat.ofDigitChars 10 (List.replicate zeros '0') 0 = 0 := by
      induction zeros with
      | zero => rfl
      | succ zeros ih => exact ih
    rw [hzeros, Nat.ofDigitChars_ten_toDigits]
  obtain ⟨zeros, hn⟩ := hdigits n
  obtain ⟨zeros', hk⟩ := hdigits k
  rw [hn, hk] at h
  rw [← hread zeros n, ← hread zeros' k, List.map_injective_iff.mpr CodePoint.ofChar_injective h]

/-- A number of a fixed width can be told from what follows it. -/
theorem padded_append_inj {k : Nat} (hw : 1 ≤ width) (hn : n < 10 ^ width) (hk : k < 10 ^ width)
    (h : padded width n ++ s = padded width k ++ t) : n = k ∧ s = t := by
  have hlength : (padded width n).length = (padded width k).length := by
    rw [length_padded hw hn, length_padded hw hk]
  obtain ⟨hnumber, hrest⟩ := List.append_inj h hlength
  exact ⟨padded_inj hnumber, hrest⟩

end Text

theorem FileSystem.byteSize_of_isVisible {t : Text} (h : t.IsVisible) :
    byteSize t = t.length := by
  induction t with
  | nil => rfl
  | cons c t ih =>
    obtain ⟨hlow, hhigh⟩ := h c List.mem_cons_self
    have hrest := ih fun d hd => h d (List.mem_cons_of_mem c hd)
    have hbytes : (Utf8.bytesOf c).length = 1 := by
      rw [Utf8.bytesOf]
      simp only [show c.val < 0x80 by omega, if_true, List.length_singleton]
    have hsurrogate : ¬ 0xDC80 ≤ c.val := by omega
    rw [byteSize, List.foldr_cons, ← byteSize, hrest, List.length_cons]
    simp only [hsurrogate, decide_false, Bool.false_and, Bool.false_eq_true, if_false, hbytes]
    omega

namespace Moment

variable {m : Moment}

theorem isVisible_directoryName (m : Moment) : m.directoryName.IsVisible := by
  have hhyphen : Text.IsVisible "-" := by decide
  have hletters : Text.IsVisible "T" ∧ Text.IsVisible "Z" := by decide
  simp [directoryName, dateText, timeText, hhyphen, hletters]

theorem length_directoryName (h : m.IsValid) : m.directoryName.length = 24 := by
  obtain ⟨hdate, hh, hm, hs, hu⟩ := h
  obtain ⟨-, hyear, -, hmonth, -, hday⟩ := Calendar.isDate_iff.mp hdate
  have hdays := Calendar.daysInMonth_le m.year m.month
  have hliteral : ("-" : Text).length = 1 ∧ ("T" : Text).length = 1 ∧ ("Z" : Text).length = 1 := by
    decide
  simp only [directoryName, dateText, timeText, List.length_append, hliteral]
  rw [Text.length_padded (by omega) (by omega), Text.length_padded (by omega) (by omega),
    Text.length_padded (by omega) (by omega), Text.length_padded (by omega) (by omega),
    Text.length_padded (by omega) (by omega), Text.length_padded (by omega) (by omega),
    Text.length_padded (by omega) (by omega)]

theorem directoryName_ne_dots (m : Moment) : m.directoryName ≠ Path.dots := by
  intro h
  have hlength := congrArg List.length h
  have hliterals : ("-" : Text).length = 1 ∧ ("T" : Text).length = 1 ∧ ("Z" : Text).length = 1 ∧
      Path.dots.length = 2 := by
    decide
  simp only [directoryName, dateText, timeText, List.length_append, hliterals] at hlength
  omega

/-- Moments of different milliseconds have different names. -/
theorem milliseconds_of_directoryName {m' : Moment} (h : m.IsValid) (h' : m'.IsValid)
    (heq : m.directoryName = m'.directoryName) :
    m.toMicroseconds / 1000 = m'.toMicroseconds / 1000 := by
  obtain ⟨hdate, hh, hm, hs, hu⟩ := h
  obtain ⟨-, hyear, -, hmonth, -, hday⟩ := Calendar.isDate_iff.mp hdate
  have hdays := Calendar.daysInMonth_le m.year m.month
  obtain ⟨hdate', hh', hm', hs', hu'⟩ := h'
  obtain ⟨-, hyear', -, hmonth', -, hday'⟩ := Calendar.isDate_iff.mp hdate'
  have hdays' := Calendar.daysInMonth_le m'.year m'.month
  -- the parts of a name stand at fixed places, whatever the signs between them
  simp only [directoryName, dateText, timeText, List.append_assoc] at heq
  obtain ⟨eyear, heq⟩ := Text.padded_append_inj (by omega) (by omega) (by omega) heq
  obtain ⟨emonth, heq⟩ :=
    Text.padded_append_inj (by omega) (by omega) (by omega) (List.append_cancel_left heq)
  obtain ⟨eday, heq⟩ :=
    Text.padded_append_inj (by omega) (by omega) (by omega) (List.append_cancel_left heq)
  obtain ⟨ehour, heq⟩ :=
    Text.padded_append_inj (by omega) (by omega) (by omega) (List.append_cancel_left heq)
  obtain ⟨eminute, heq⟩ :=
    Text.padded_append_inj (by omega) (by omega) (by omega) (List.append_cancel_left heq)
  obtain ⟨esecond, heq⟩ :=
    Text.padded_append_inj (by omega) (by omega) (by omega) (List.append_cancel_left heq)
  obtain ⟨emilli, -⟩ :=
    Text.padded_append_inj (by omega) (by omega) (by omega) (List.append_cancel_left heq)
  rw [toMicroseconds, toMicroseconds, secondsOfDay, secondsOfDay, eyear, emonth, eday, ehour,
    eminute, esecond]
  omega

end Moment

namespace Artifact

theorem isVisible_labelName (label : Text) : (Label.fileName label).IsVisible := by
  rw [Label.fileName]
  split
  · decide
  · intro c hc
    have hkept := Label.isKept_of_mem_hyphenate (Label.trimEdges_subset _ hc)
    obtain ⟨hlow, hhigh, -⟩ := Label.bounds_of_isKept hkept
    exact ⟨by omega, by omega⟩

theorem isVisible_fileName (number : Nat) (label : Text) : (fileName number label).IsVisible := by
  have hliterals : Text.IsVisible "-" ∧ Text.IsVisible ".png" := by decide
  simp [fileName, isVisible_labelName, hliterals]

/-- The number of an image can be told from the name of its file. -/
theorem number_of_fileName {n k : Nat} {label other : Text}
    (h : fileName n label = fileName k other) : n = k := by
  have hread (number : Nat) (label : Text) :
      (fileName number label).takeWhile CodePoint.isDigit = Text.padded 2 number := by
    rw [fileName, List.append_assoc, List.append_assoc,
      List.takeWhile_append_of_pos fun c hc => Text.isDigit_of_mem_padded hc]
    exact List.append_nil _
  have hdigits := congrArg (List.takeWhile CodePoint.isDigit) h
  rw [hread, hread] at hdigits
  exact Text.padded_inj hdigits

theorem fileName_ne_dots (number : Nat) (label : Text) : fileName number label ≠ Path.dots := by
  intro h
  have hlength := congrArg List.length h
  have hliterals : ("-" : Text).length = 1 ∧ (".png" : Text).length = 4 ∧ Path.dots.length = 2 := by
    decide
  simp only [fileName, List.length_append, hliterals] at hlength
  omega

end Artifact

end Replay
