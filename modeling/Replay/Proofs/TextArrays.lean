import Replay.Proofs.JsonSize

namespace Replay.Json

variable {limits inner : ReadingLimits} {t s r rest done text : Text} {c : CodePoint}
  {texts : List Text} {depth fuel n : Nat}

theorem fourHex?_of_append (hr : r ≠ []) (h : fourHex? (t ++ s) = some (n, r ++ s)) :
    fourHex? t = some (n, r) := by
  obtain ⟨digits, ht, -, -, hother⟩ := exists_of_fourHex? h
  rw [← List.append_assoc] at ht
  rw [List.append_cancel_right ht]
  exact hother r hr

theorem IsAlone.of_append (h : IsAlone (r ++ s)) : IsAlone r := by
  rintro more rfl hlength
  have hlong : 4 < (more ++ s).length := by
    rw [List.length_append]
    omega
  obtain ⟨low, last, hlow, hout⟩ := h (more ++ s) rfl hlong
  obtain ⟨digits, hmore, hdigits, -⟩ := exists_of_fourHex? hlow
  -- the four digits do not reach beyond the front
  obtain ⟨last', rfl⟩ : ∃ last', last = last' ++ s := by
    have hsizes := congrArg List.length hmore
    rw [List.length_append, List.length_append] at hsizes
    have hsuffix := List.suffix_of_suffix_length_le (List.suffix_append more s)
      (suffix_of_fourHex? hlow) (by omega)
    exact hsuffix.imp fun _ => Eq.symm
  have hne : last' ≠ [] := by
    rintro rfl
    have hsizes := congrArg List.length hmore
    simp only [List.length_append, List.nil_append] at hsizes
    omega
  exact ⟨low, last', fourHex?_of_append hne hlow, hout⟩

/-- An escape is read alike without what stands further on, as long as anything stands after it. -/
theorem readUnicode_of_append (hr : r ≠ []) (h : readUnicode (t ++ s) = .ok (c, r ++ s)) :
    readUnicode t = .ok (c, r) := by
  obtain ⟨high, after, hhigh, ⟨halone, hc, rfl⟩ | ⟨hrange, more, low, rfl, hlow, hpair⟩⟩ :=
    readUnicode_eq_ok_iff.mp h
  · refine readUnicode_eq_ok_iff.mpr ⟨high, r, fourHex?_of_append hr hhigh, .inl ⟨?_, hc, rfl⟩⟩
    exact fun hrange => (halone hrange).of_append
  · obtain ⟨digits, rfl, -, -, hother⟩ := exists_of_fourHex? hlow
    have hfirst : fourHex? t = some (high, CodePoint.ofChar '\\' :: CodePoint.ofChar 'u' ::
        (digits ++ r)) :=
      fourHex?_of_append (List.cons_ne_nil _ _) (by simpa using hhigh)
    exact readUnicode_eq_ok_iff.mpr
      ⟨high, _, hfirst, .inr ⟨hrange, digits ++ r, low, rfl, hother r hr, hpair⟩⟩

/-- What is at least as long as the end has it at its own end. -/
theorem exists_append_of_suffix {u : Text} (hend : s <:+ u) (hrest : rest <:+ u)
    (hle : s.length ≤ rest.length) : ∃ front, rest = front ++ s :=
  (List.suffix_of_suffix_length_le hend hrest hle).imp fun _ => Eq.symm

theorem exists_cons_of_append {u : Text} (h : t ++ s = c :: u) (hle : s.length ≤ u.length) :
    ∃ more, t = c :: more ∧ u = more ++ s := by
  cases t with
  | nil =>
    rw [List.nil_append] at h
    rw [h, List.length_cons] at hle
    omega
  | cons d more =>
    obtain ⟨rfl, rfl⟩ := List.cons.inj h
    exact ⟨more, rfl, rfl⟩

/-- A quoted text is read alike without what stands after its closing quotation mark. -/
theorem readText_of_append (h : readText fuel (t ++ s) done = .ok (text, r ++ s))
    (hn : t.length ≤ n) : readText n t done = .ok (text, r) := by
  generalize hu : t ++ s = u at h
  have hle : ∀ {fuel u done}, readText fuel u done = .ok (text, r ++ s) → s.length < u.length := by
    intro fuel u done h
    have hlt := length_lt_of_readText h
    rw [List.length_append] at hlt
    omega
  fun_induction readText fuel u done generalizing t n with
  | case3 done fuel rest =>
    obtain ⟨rfl, rfl⟩ := Prod.mk.inj (Except.ok.inj h)
    obtain ⟨more, rfl, hmore⟩ := exists_cons_of_append hu (by simp)
    obtain ⟨n, rfl⟩ := Nat.exists_eq_add_one_of_ne_zero (Nat.ne_zero_of_lt hn)
    rw [readText.eq_def, List.append_cancel_right hmore]
    exact if_pos rfl
  | case5 done fuel rest p more hread hquote ih =>
    have hmore := suffix_of_readUnicode hread
    have hlt := hle h
    have hsize := hmore.length_le
    obtain ⟨u, rfl, htail⟩ := exists_cons_of_append hu (by rw [List.length_cons]; omega)
    obtain ⟨t, rfl, rfl⟩ := exists_cons_of_append htail.symm (by omega)
    obtain ⟨front, rfl⟩ := exists_append_of_suffix (List.suffix_append t s) hmore hlt.le
    have hfront : front ≠ [] := by
      rintro rfl
      exact absurd hlt (lt_irrefl _)
    have hfirst := readUnicode_of_append hfront hread
    have hlength := (suffix_of_readUnicode hfirst).length_le
    obtain ⟨n, rfl⟩ := Nat.exists_eq_add_one_of_ne_zero (Nat.ne_zero_of_lt hn)
    simp only [List.length_cons] at hn
    have hlater : readText n front _ = _ := ih (by omega) rfl h
    rw [readText.eq_def]
    simpa [hquote, hfirst] using hlater
  | case7 done fuel e rest he p hshort hquote ih =>
    have hlt := hle h
    obtain ⟨u, rfl, htail⟩ := exists_cons_of_append hu (by rw [List.length_cons]; omega)
    obtain ⟨t, rfl, rfl⟩ := exists_cons_of_append htail.symm hlt.le
    obtain ⟨n, rfl⟩ := Nat.exists_eq_add_one_of_ne_zero (Nat.ne_zero_of_lt hn)
    simp only [List.length_cons] at hn
    have hlater : readText n t _ = _ := ih (by omega) rfl h
    rw [readText.eq_def]
    simpa [hquote, he, hshort] using hlater
  | case10 done fuel c rest hquote hescape hcontrol ih =>
    obtain ⟨t, rfl, rfl⟩ := exists_cons_of_append hu (hle h).le
    obtain ⟨n, rfl⟩ := Nat.exists_eq_add_one_of_ne_zero (Nat.ne_zero_of_lt hn)
    simp only [List.length_cons] at hn
    have hlater : readText n t _ = _ := ih (by omega) rfl h
    rw [readText.eq_def]
    simpa [hquote, hescape, hcontrol] using hlater
  | _ => cases h

/-- What is left of a quoted text and is no shorter than the end is left of it without the end. -/
theorem exists_readText_of_append {after : Text}
    (h : readText fuel (t ++ s) done = .ok (text, after)) (hle : s.length ≤ after.length)
    (hn : t.length ≤ n) : ∃ front, after = front ++ s ∧ readText n t done = .ok (text, front) := by
  obtain ⟨c, more, hcons, hmore⟩ := exists_cons_of_readText h
  have hafter : after <:+ t ++ s := hmore.trans (hcons ▸ List.suffix_cons c more)
  obtain ⟨front, rfl⟩ := exists_append_of_suffix (List.suffix_append t s) hafter hle
  exact ⟨front, rfl, readText_of_append h hn⟩

theorem skipSpace_append (h : s.length < (skipSpace (t ++ s)).length) :
    skipSpace (t ++ s) = skipSpace t ++ s := by
  rw [skipSpace, List.dropWhile_append] at h ⊢
  split
  next hempty =>
    rw [if_pos hempty] at h
    exact absurd h (Nat.not_lt.mpr (length_skipSpace_le s))
  next => rfl

theorem skipSpace_of_append (h : skipSpace (t ++ s) = c :: (r ++ s)) : skipSpace t = c :: r := by
  have hlt : s.length < (skipSpace (t ++ s)).length := by
    rw [h, List.length_cons, List.length_append]
    omega
  rw [skipSpace_append hlt, ← List.cons_append] at h
  exact List.append_cancel_right h

/-- Quoted texts with commas between them up to a closing bracket, and what is left after it. -/
inductive TextItems : Text → List Text → Text → Prop
  | last {t after rest text : Text} (quoted : readText (t.length + 1) t [] = .ok (text, after))
    (close : skipSpace after = CodePoint.ofChar ']' :: rest) :
    TextItems (CodePoint.ofChar '"' :: t) [text] rest
  | next {t after more rest text : Text} {texts : List Text}
    (quoted : readText (t.length + 1) t [] = .ok (text, after))
    (comma : skipSpace after = CodePoint.ofChar ',' :: more)
    (later : TextItems (skipSpace more) texts rest) :
    TextItems (CodePoint.ofChar '"' :: t) (text :: texts) rest

/-- An array of texts, and what is left after it. -/
inductive TextArray : Text → List Text → Text → Prop
  | empty {t rest : Text} (close : skipSpace t = CodePoint.ofChar ']' :: rest) :
    TextArray (CodePoint.ofChar '[' :: t) [] rest
  | items {t rest : Text} {texts : List Text} (items : TextItems (skipSpace t) texts rest) :
    TextArray (CodePoint.ofChar '[' :: t) texts rest

theorem exists_of_skipSpace {u : Text} (h : skipSpace t = u) : ∃ front, t = front ++ u := by
  obtain ⟨front, hfront⟩ := List.dropWhile_suffix isSpace (l := t)
  exact ⟨front, h ▸ hfront.symm⟩

theorem exists_of_readText (h : readText fuel t done = .ok (text, rest)) :
    ∃ front, t = front ++ rest := by
  obtain ⟨c, _, rfl, front, rfl⟩ := exists_cons_of_readText h
  exact ⟨c :: front, rfl⟩

theorem TextItems.exists_front (h : TextItems t texts rest) :
    ∃ front, t = front ++ CodePoint.ofChar ']' :: rest := by
  induction h with
  | last quoted close =>
    obtain ⟨front, rfl⟩ := exists_of_readText quoted
    obtain ⟨space, rfl⟩ := exists_of_skipSpace close
    exact ⟨CodePoint.ofChar '"' :: (front ++ space), by simp⟩
  | next quoted comma _ ih =>
    obtain ⟨front, rfl⟩ := exists_of_readText quoted
    obtain ⟨space, rfl⟩ := exists_of_skipSpace comma
    obtain ⟨later, hlater⟩ := ih
    obtain ⟨space', rfl⟩ := exists_of_skipSpace hlater
    exact ⟨CodePoint.ofChar '"' :: (front ++ space ++ CodePoint.ofChar ',' :: (space' ++ later)),
      by simp⟩

theorem TextItems.length_lt (h : TextItems t texts (r ++ s)) : s.length < t.length := by
  obtain ⟨front, rfl⟩ := h.exists_front
  simp only [List.length_append, List.length_cons]
  omega

theorem TextArray.exists_middle (h : TextArray t texts rest) :
    ∃ middle, t = CodePoint.ofChar '[' :: (middle ++ [CodePoint.ofChar ']'] ++ rest) := by
  cases h with
  | empty close =>
    obtain ⟨space, rfl⟩ := exists_of_skipSpace close
    exact ⟨space, by simp⟩
  | items items =>
    obtain ⟨front, hfront⟩ := items.exists_front
    obtain ⟨space, rfl⟩ := exists_of_skipSpace hfront
    exact ⟨space ++ front, by simp⟩

/-- What stands after the closing bracket does not matter. -/
theorem TextItems.of_append (h : TextItems (t ++ s) texts (r ++ s)) : TextItems t texts r := by
  generalize hu : t ++ s = u at h
  generalize hv : r ++ s = v at h
  induction h generalizing t with
  | @last u after _ text quoted close =>
    subst hv
    have hafter : s.length ≤ after.length := by
      have hlt := length_lt_of_skipSpace close
      rw [List.length_append] at hlt
      omega
    have hlt := length_lt_of_readText quoted
    obtain ⟨t, rfl, rfl⟩ := exists_cons_of_append hu (by omega)
    obtain ⟨front, rfl, hread⟩ := exists_readText_of_append quoted hafter (Nat.le_succ t.length)
    exact .last hread (skipSpace_of_append close)
  | @next u after more _ text texts quoted comma later ih =>
    subst hv
    have hmore := later.length_lt
    have hlt := length_lt_of_readText quoted
    have hcomma := length_lt_of_skipSpace comma
    have hspace := length_skipSpace_le more
    obtain ⟨t, rfl, rfl⟩ := exists_cons_of_append hu (by omega)
    obtain ⟨front, rfl, hread⟩ :=
      exists_readText_of_append quoted (by omega) (Nat.le_succ t.length)
    have hsuffix : more <:+ front ++ s := by
      obtain ⟨space, hspace⟩ := exists_of_skipSpace comma
      exact ⟨space ++ [CodePoint.ofChar ','], by simp [hspace]⟩
    obtain ⟨m, rfl⟩ := exists_append_of_suffix (List.suffix_append front s) hsuffix (by omega)
    exact .next hread (skipSpace_of_append comma) (ih (skipSpace_append hmore).symm rfl)

theorem TextArray.of_append (h : TextArray (t ++ s) texts (r ++ s)) : TextArray t texts r := by
  generalize hu : t ++ s = u at h
  generalize hv : r ++ s = v at h
  cases h with
  | @empty u _ close =>
    subst hv
    have hlt := length_lt_of_skipSpace close
    rw [List.length_append] at hlt
    obtain ⟨t, rfl, rfl⟩ := exists_cons_of_append hu (by omega)
    exact .empty (skipSpace_of_append close)
  | @items u _ _ items =>
    subst hv
    have hlt := items.length_lt
    have hspace := length_skipSpace_le u
    obtain ⟨t, rfl, rfl⟩ := exists_cons_of_append hu (by omega)
    rw [skipSpace_append hlt] at items
    exact .items items.of_append

theorem exists_of_readItems {value : Json} {items : List Json}
    (h : readItems limits fuel t items = .ok (value, rest)) :
    ∃ later, value = array (items.reverse ++ later) := by
  induction fuel using Nat.strongRecOn generalizing t items with
  | ind fuel ih =>
    revert h
    fun_cases readItems limits fuel t items with
    | case3 fuel item after hread more hskip =>
      intro h
      obtain ⟨rfl, rfl⟩ := Prod.mk.inj (Except.ok.inj h)
      exact ⟨[item], by simp⟩
    | case4 fuel item after hread more hskip =>
      intro h
      obtain ⟨later, rfl⟩ := ih fuel (Nat.lt_succ_self fuel) h
      exact ⟨item :: later, by simp⟩
    | _ =>
      intro h
      cases h

theorem exists_of_readMembers {value : Json} {members : Members Json}
    (h : readMembers limits fuel t members = .ok (value, rest)) :
    ∃ later, value = object later := by
  induction fuel using Nat.strongRecOn generalizing t members with
  | ind fuel ih =>
    revert h
    fun_cases readMembers limits fuel t members with
    | case5 =>
      intro h
      obtain ⟨rfl, rfl⟩ := Prod.mk.inj (Except.ok.inj h)
      exact ⟨_, rfl⟩
    | case6 fuel => exact ih fuel (Nat.lt_succ_self fuel)
    | _ =>
      intro h
      cases h

theorem exists_of_readNumber {value : Json} (h : readNumber limits t = .ok (value, rest)) :
    ∃ x, value = number x := by
  revert h
  fun_cases readNumber limits t with
  | case3 | case4 =>
    intro h
    obtain ⟨rfl, -⟩ := Prod.mk.inj (Except.ok.inj h)
    exact ⟨_, rfl⟩
  | _ =>
    intro h
    cases h

theorem ne_of_word? {value : Json} (h : word? t = some (value, rest)) :
    (∀ text, value ≠ .text text) ∧ ∀ items, value ≠ array items := by
  obtain ⟨w, hmem, hw⟩ := List.exists_of_findSome?_eq_some h
  obtain ⟨_, -, hpair⟩ := Option.map_eq_some_iff.mp hw
  obtain ⟨rfl, -⟩ := Prod.mk.inj hpair
  simp only [words, List.mem_cons, List.not_mem_nil, or_false] at hmem
  rcases hmem with rfl | rfl | rfl | rfl | rfl | rfl <;> simp

/-- Only what is in quotation marks is read as a text. -/
theorem exists_of_readValue_text (h : readValue limits fuel t = .ok (.text text, rest)) :
    ∃ u, t = CodePoint.ofChar '"' :: u ∧ readText (u.length + 1) u [] = .ok (text, rest) := by
  revert h
  fun_cases readValue limits fuel t with
  | case3 fuel u text' after hread =>
    intro h
    obtain ⟨heq, rfl⟩ := Prod.mk.inj (Except.ok.inj h)
    obtain rfl := Json.text.inj heq
    exact ⟨u, rfl, hread⟩
  | case7 =>
    intro h
    obtain ⟨_, hvalue⟩ := exists_of_readMembers h
    cases hvalue
  | case11 =>
    intro h
    obtain ⟨_, hvalue⟩ := exists_of_readItems h
    cases hvalue
  | case13 fuel c u _ _ _ found hword =>
    intro h
    obtain rfl := Except.ok.inj h
    exact absurd rfl ((ne_of_word? hword).1 text)
  | case14 =>
    intro h
    obtain ⟨_, hvalue⟩ := exists_of_readNumber h
    cases hvalue
  | _ =>
    intro h
    cases h

/-- The items that are read are the texts in quotation marks. -/
theorem textItems_of_readItems {items : List Json}
    (h : readItems limits fuel t items = .ok (array (items.reverse ++ texts.map .text), rest)) :
    TextItems t texts rest := by
  induction fuel using Nat.strongRecOn generalizing t items texts with
  | ind fuel ih =>
    revert h
    fun_cases readItems limits fuel t items with
    | case3 fuel item after hread more hskip =>
      intro h
      obtain ⟨hitems, rfl⟩ := Prod.mk.inj (Except.ok.inj h)
      have hlast : [item] = texts.map .text := by
        simpa using Json.array.inj hitems
      obtain ⟨text, rfl, rfl⟩ := List.map_eq_singleton_iff.mp hlast.symm
      obtain ⟨u, rfl, hquoted⟩ := exists_of_readValue_text hread
      exact .last hquoted hskip
    | case4 fuel item after hread more hskip =>
      intro h
      obtain ⟨later, hlater⟩ := exists_of_readItems h
      have hnext : texts.map .text = item :: later := by
        simpa using Json.array.inj hlater
      obtain ⟨text, texts, rfl, rfl, rfl⟩ := List.map_eq_cons_iff.mp hnext
      obtain ⟨u, rfl, hquoted⟩ := exists_of_readValue_text hread
      have hlater : readItems limits fuel (skipSpace more) (.text text :: items) =
          .ok (array ((.text text :: items).reverse ++ texts.map .text), rest) := by
        simpa using h
      exact .next hquoted hskip (ih fuel (Nat.lt_succ_self fuel) hlater)
    | _ =>
      intro h
      cases h

/-- An array of texts is read only if there may be another array. -/
theorem textArray_of_readValue
    (h : readValue limits fuel t = .ok (array (texts.map .text), rest)) :
    TextArray t texts rest ∧ ∃ inner, limits.inner? = some inner := by
  revert h
  fun_cases readValue limits fuel t with
  | case7 =>
    intro h
    obtain ⟨_, hvalue⟩ := exists_of_readMembers h
    cases hvalue
  | case10 fuel u inner more _ _ _ hskip =>
    intro h
    obtain ⟨harray, rfl⟩ := Prod.mk.inj (Except.ok.inj h)
    obtain rfl := List.map_eq_nil_iff.mp (Json.array.inj harray).symm
    exact ⟨.empty hskip, inner, ‹limits.inner? = some inner›⟩
  | case11 fuel u inner close more hskip =>
    intro h
    have hitems : readItems inner fuel (skipSpace u) [] =
        .ok (array (([] : List Json).reverse ++ texts.map .text), rest) := by
      rw [hskip]
      exact h
    exact ⟨.items (textItems_of_readItems hitems), inner, ‹limits.inner? = some inner›⟩
  | case13 fuel c u _ _ _ found hword =>
    intro h
    obtain rfl := Except.ok.inj h
    exact absurd rfl ((ne_of_word? hword).2 _)
  | case14 =>
    intro h
    obtain ⟨_, hvalue⟩ := exists_of_readNumber h
    cases hvalue
  | _ =>
    intro h
    cases h

theorem readValue_quote {u after : Text} (h : readText (u.length + 1) u [] = .ok (text, after))
    (limits : ReadingLimits) (fuel : Nat) :
    readValue limits (fuel + 1) (CodePoint.ofChar '"' :: u) = .ok (.text text, after) := by
  rw [readValue.eq_def]
  simp [h]

theorem readValue_bracket {u : Text} (h : skipSpace u = c :: rest)
    (hinner : limits.inner? = some inner) (fuel : Nat) :
    readValue limits (fuel + 1) (CodePoint.ofChar '[' :: u) =
      if c = CodePoint.ofChar ']' then .ok (array [], rest)
      else readItems inner fuel (c :: rest) [] := by
  have hquote : CodePoint.ofChar '[' ≠ CodePoint.ofChar '"' := by decide
  have hbrace : (CodePoint.ofChar '[').val ≠ 0x7B := by decide
  rw [readValue.eq_def]
  simp [hquote, hbrace, hinner, h]

/-- Texts in quotation marks are read as they are, if there is as much fuel as there are
characters. -/
theorem TextItems.readItems_eq (h : TextItems t texts rest) (hfuel : t.length < fuel)
    (items : List Json) :
    readItems limits fuel t items = .ok (array (items.reverse ++ texts.map .text), rest) := by
  induction h generalizing fuel items with
  | last quoted close =>
    have hlt := length_lt_of_readText quoted
    rw [List.length_cons] at hfuel
    obtain ⟨fuel, rfl⟩ : ∃ n, fuel = n + 1 + 1 := ⟨fuel - 2, by omega⟩
    rw [readItems, readValue_quote quoted]
    simp [close]
  | @next u after more rest text texts quoted comma later ih =>
    have hlt := length_lt_of_readText quoted
    have hcomma := length_lt_of_skipSpace comma
    have hspace := length_skipSpace_le more
    have hne : CodePoint.ofChar ',' ≠ CodePoint.ofChar ']' := by decide
    rw [List.length_cons] at hfuel
    obtain ⟨fuel, rfl⟩ : ∃ n, fuel = n + 1 + 1 := ⟨fuel - 2, by omega⟩
    have hlater : readItems limits (fuel + 1) (skipSpace more) (.text text :: items) = _ :=
      ih (by omega) (.text text :: items)
    rw [readItems, readValue_quote quoted]
    simpa [comma, hne] using hlater

theorem TextItems.exists_cons (h : TextItems t texts rest) :
    ∃ u, t = CodePoint.ofChar '"' :: u := by
  cases h with
  | last => exact ⟨_, rfl⟩
  | next => exact ⟨_, rfl⟩

theorem TextArray.readValue_eq (h : TextArray t texts rest) (hinner : limits.inner? = some inner)
    (hfuel : t.length < fuel) :
    readValue limits fuel t = .ok (array (texts.map .text), rest) := by
  obtain ⟨fuel, rfl⟩ := Nat.exists_eq_add_one_of_ne_zero (Nat.ne_zero_of_lt hfuel)
  cases h with
  | empty close => rw [readValue_bracket close hinner, if_pos rfl, List.map_nil]
  | @items u _ _ items =>
    have hspace := length_skipSpace_le u
    rw [List.length_cons] at hfuel
    obtain ⟨v, hv⟩ := items.exists_cons
    have hitems : readItems inner fuel (skipSpace u) [] = _ := items.readItems_eq (by omega) []
    rw [readValue_bracket hv hinner, if_neg (by decide), ← hv, hitems]
    rfl

theorem exists_textArray_of_read (h : read depth t = .ok (array (texts.map .text))) :
    ∃ rest, TextArray (skipSpace t) texts rest ∧ skipSpace rest = [] ∧
      ∃ inner, (ReadingLimits.ofDepth depth).inner? = some inner := by
  cases t with
  | nil => cases h
  | cons mark more =>
    rw [read, readLimited] at h
    split at h
    next => cases h
    next =>
      split at h
      next => cases h
      next value rest hread =>
        split at h
        next hrest =>
          obtain rfl := Except.ok.inj h
          obtain ⟨harray, hinner⟩ := textArray_of_readValue hread
          exact ⟨rest, harray, List.isEmpty_iff.mp hrest, hinner⟩
        next => cases h

theorem TextArray.read_eq (h : TextArray t texts [])
    (hinner : (ReadingLimits.ofDepth depth).inner? = some inner) :
    read depth t = .ok (array (texts.map .text)) := by
  obtain ⟨middle, rfl⟩ := h.exists_middle
  have hmark : (CodePoint.ofChar '[').val ≠ 0xFEFF := by decide
  have hspace : skipSpace (CodePoint.ofChar '[' :: (middle ++ [CodePoint.ofChar ']'] ++ [])) =
      CodePoint.ofChar '[' :: (middle ++ [CodePoint.ofChar ']'] ++ []) :=
    List.dropWhile_cons_of_neg (by decide)
  rw [read, readLimited, if_neg hmark, hspace, h.readValue_eq hinner (by omega)]
  rfl

theorem isBlank_of_isSpace (h : isSpace c = true) : c.isBlank = true := by
  simp only [isSpace, CodePoint.isBlank, Bool.or_eq_true, Bool.and_eq_true,
    decide_eq_true_eq] at h ⊢
  omega

theorem isBlank_of_skipSpace_eq_nil (h : skipSpace t = []) : ∀ c ∈ t, c.isBlank = true :=
  fun c hc => isBlank_of_isSpace (List.dropWhile_eq_nil_iff.mp h c hc)

/-- White space around an array of texts can be trimmed. -/
theorem read_trim (h : read depth t = .ok (array (texts.map .text))) :
    t.trim.head? = some (CodePoint.ofChar '[') ∧
      read depth t.trim = .ok (array (texts.map .text)) := by
  obtain ⟨rest, harray, hrest, inner, hinner⟩ := exists_textArray_of_read h
  obtain ⟨middle, hmiddle⟩ := harray.exists_middle
  rw [← List.cons_append] at hmiddle
  -- the brackets and what is between them
  generalize hcore : CodePoint.ofChar '[' :: (middle ++ [CodePoint.ofChar ']']) = core at hmiddle
  have hsplit : t = t.takeWhile isSpace ++ core ++ rest := by
    rw [List.append_assoc, ← hmiddle]
    exact List.takeWhile_append_dropWhile.symm
  have hleft : ∀ c ∈ t.takeWhile isSpace, c.isBlank = true := fun c hc =>
    isBlank_of_isSpace (List.mem_takeWhile_imp hc)
  have htrim : t.trim = core := by
    rw [hsplit, Text.trim_append_append hleft (isBlank_of_skipSpace_eq_nil hrest)]
    refine Text.trim_eq_self (fun c hc => ?_) fun hne => ?_
    · rw [← hcore, List.head?_cons] at hc
      obtain rfl := Option.some.inj hc
      decide
    · subst hcore
      have hlast : (CodePoint.ofChar '[' :: (middle ++ [CodePoint.ofChar ']'])).getLast hne =
          CodePoint.ofChar ']' := List.getLast_append_singleton (CodePoint.ofChar '[' :: middle)
      rw [hlast]
      decide
  have hread : TextArray core texts [] := by
    rw [hmiddle] at harray
    exact TextArray.of_append (s := rest) harray
  rw [htrim]
  exact ⟨hcore ▸ rfl, hread.read_eq hinner⟩

end Replay.Json
