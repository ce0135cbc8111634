import Mathlib.Data.List.DropRight
import Replay.Text

namespace Replay

namespace Text

variable {p : CodePoint → Bool} {t : Text} {c : CodePoint}

/-- Where all code points of a kind are taken off both ends, none of them is at the front. -/
theorem not_head_of_dropWhile (h : ((t.dropWhile p).rdropWhile p).head? = some c) :
    p c = false := by
  obtain ⟨rest, hrest⟩ : (t.dropWhile p).rdropWhile p <+: t.dropWhile p :=
    List.rdropWhile_prefix _ _
  have hhead : (t.dropWhile p).head? = some c := by
    rw [← hrest, List.head?_append, h, Option.some_or]
  have hnot := List.head?_dropWhile_not p t
  rwa [hhead] at hnot

/-- Nothing is taken off a text that neither begins nor ends with a code point of the kind. -/
theorem rdropWhile_dropWhile_eq_self (hhead : ∀ c, t.head? = some c → p c = false)
    (hlast : ∀ h : t ≠ [], p (t.getLast h) = false) : (t.dropWhile p).rdropWhile p = t := by
  have hleft : t.dropWhile p = t := by
    cases t with
    | nil => rfl
    | cons c rest =>
      have hc : p c = false := hhead c List.head?_cons
      exact List.dropWhile_cons_of_neg (by simp [hc])
  rw [hleft, List.rdropWhile_eq_self_iff]
  intro h
  simp [hlast h]

theorem trim_eq_rdropWhile (t : Text) :
    t.trim = (t.dropWhile CodePoint.isBlank).rdropWhile CodePoint.isBlank := rfl

/-- The text begins with no blank. -/
theorem not_isBlank_head_trim {t : Text} {c : CodePoint} (h : t.trim.head? = some c) :
    c.isBlank = false := not_head_of_dropWhile h

/-- The text ends with no blank. -/
theorem not_isBlank_getLast_trim {t : Text} (h : t.trim ≠ []) :
    (t.trim.getLast h).isBlank = false := by
  have hnot := List.rdropWhile_last_not CodePoint.isBlank (t.dropWhile CodePoint.isBlank) h
  exact Bool.not_eq_true _ ▸ hnot

/-- A text that neither begins nor ends with a blank is left alone. -/
theorem trim_eq_self {t : Text} (hhead : ∀ c, t.head? = some c → c.isBlank = false)
    (hlast : ∀ h : t ≠ [], (t.getLast h).isBlank = false) : t.trim = t :=
  rdropWhile_dropWhile_eq_self hhead hlast

/-- Trimming a second time changes nothing. -/
theorem trim_trim (t : Text) : t.trim.trim = t.trim :=
  trim_eq_self (fun _ => not_isBlank_head_trim) not_isBlank_getLast_trim

theorem trim_of_not_isBlank {t : Text} (h : ∀ c ∈ t, c.isBlank = false) : t.trim = t :=
  trim_eq_self (fun c hc => h c (List.mem_of_head? hc)) fun hne => h _ (List.getLast_mem hne)

/-- White space around a text is not seen by trimming. -/
theorem trim_append_append {left t right : Text} (hleft : ∀ c ∈ left, c.isBlank = true)
    (hright : ∀ c ∈ right, c.isBlank = true) : (left ++ t ++ right).trim = t.trim := by
  have hend (u : Text) :
      (u ++ right).rdropWhile CodePoint.isBlank = u.rdropWhile CodePoint.isBlank := by
    have hreverse : ∀ c ∈ right.reverse, c.isBlank = true := fun c hc =>
      hright c (List.mem_reverse.mp hc)
    rw [List.rdropWhile, List.rdropWhile, List.reverse_append,
      List.dropWhile_append_of_pos hreverse]
  rw [trim_eq_rdropWhile, trim_eq_rdropWhile, List.append_assoc,
    List.dropWhile_append_of_pos hleft, List.dropWhile_append]
  split
  next hempty =>
    -- of a text of nothing but white space nothing is left either way
    have hnil : right.dropWhile CodePoint.isBlank = [] := List.dropWhile_eq_nil_iff.mpr hright
    rw [hnil, List.isEmpty_iff.mp hempty]
  next => exact hend _

theorem trimRight_append {front : Text} {d : CodePoint} (hlast : front.getLast? = some d)
    (hd : d.isBlank = false) (tail : Text) :
    trimRight (front ++ tail) = front ++ trimRight tail := by
  obtain ⟨start, rfl⟩ := List.getLast?_eq_some_iff.mp hlast
  have hfront : (start ++ [d]).reverse.dropWhile CodePoint.isBlank = (start ++ [d]).reverse := by
    rw [List.reverse_append]
    exact List.dropWhile_cons_of_neg (by simp [hd])
  rw [trimRight, trimRight, List.reverse_append, List.dropWhile_append, hfront]
  split
  next hempty => simp [List.isEmpty_iff.mp hempty]
  next => simp

/-- Nothing is taken off a front that neither begins nor ends with a blank. -/
theorem trim_append {front : Text} {d : CodePoint} (hhead : front.head? = some c)
    (hc : c.isBlank = false) (hlast : front.getLast? = some d) (hd : d.isBlank = false)
    (tail : Text) : trim (front ++ tail) = front ++ trimRight tail := by
  obtain ⟨rest, rfl⟩ := List.head?_eq_some_iff.mp hhead
  have hleft : trimLeft (c :: rest ++ tail) = c :: rest ++ tail :=
    List.dropWhile_cons_of_neg (by simp [hc])
  rw [trim, hleft, trimRight_append hlast hd]

/-- A text whose end is trimmed begins as before once its first code point is put after it, even if
nothing was left of it. -/
theorem exists_trimRight_cons (c : CodePoint) (t : Text) :
    ∃ rest, trimRight (c :: t) ++ [c] = c :: rest := by
  obtain ⟨rest, hrest⟩ : trimRight (c :: t) <+: c :: t := List.rdropWhile_prefix _ _
  cases htrim : trimRight (c :: t) with
  | nil => exact ⟨[], rfl⟩
  | cons d u =>
    rw [htrim] at hrest
    obtain rfl := (List.cons.inj hrest).1
    exact ⟨u ++ [d], rfl⟩

theorem stripStart?_eq_some_iff {start t rest : Text} :
    stripStart? start t = some rest ↔ t = start ++ rest := by
  rw [stripStart?]
  by_cases h : start.isPrefixOf t = true
  · obtain ⟨rest', rfl⟩ := List.isPrefixOf_iff_prefix.mp h
    simp [h]
  · have hne : ¬ t = start ++ rest := by
      rintro rfl
      exact h (List.isPrefixOf_iff_prefix.mpr (List.prefix_append start rest))
    simp [h, hne]

end Text

end Replay
