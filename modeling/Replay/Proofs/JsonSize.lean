import Mathlib.Data.List.TakeDrop
import Replay.JsonReader
import Replay.Proofs.Trim

namespace Replay.Json

variable {limits inner : ReadingLimits} {t u rest : Text}

/-- Of the text no more is left than there was, and one that is too large to be read is longer than
one of the limits. -/
def Within (limits : ReadingLimits) (t : Text) : Except JsonError (Json × Text) → Prop
  | .ok (_, rest) => rest.length ≤ t.length
  | .error e => e.isSyntax = false →
    limits.depth < t.length ∨ ∃ most, limits.digits = some most ∧ most < t.length

namespace Within

variable {r : Except JsonError (Json × Text)}

theorem mono (h : Within limits t r) (hle : t.length ≤ u.length) : Within limits u r := by
  cases r with
  | ok x => exact Nat.le_trans h hle
  | error e =>
    intro he
    rcases h he with hdepth | ⟨most, hmost, hlt⟩
    · exact .inl (by omega)
    · exact .inr ⟨most, hmost, by omega⟩

/-- What is within the inner limits is within the outer ones, around one more character. -/
theorem outward (hinner : limits.inner? = some inner) (h : Within inner t r)
    (hlt : t.length < u.length) : Within limits u r := by
  have hdepth : limits.depth = inner.depth + 1 ∧ limits.digits = inner.digits := by
    unfold ReadingLimits.inner? at hinner
    split at hinner
    next => cases hinner
    next depth hd =>
      obtain rfl := Option.some.inj hinner
      exact ⟨hd, rfl⟩
  cases r with
  | ok x => exact Nat.le_of_lt (Nat.lt_of_le_of_lt h hlt)
  | error e =>
    intro he
    rcases h he with hin | ⟨most, hmost, hin⟩
    · exact .inl (by omega)
    · exact .inr ⟨most, hdepth.2.trans hmost, by omega⟩

/-- A text outside the grammar is not refused for its size. -/
theorem of_isSyntax {e : JsonError} (h : e.isSyntax = true) : Within limits t (.error e) := by
  intro he
  rw [h] at he
  cases he

end Within

theorem length_skipSpace_le (t : Text) : (skipSpace t).length ≤ t.length :=
  (List.dropWhile_suffix _).length_le

theorem length_lt_of_skipSpace {c : CodePoint} (h : skipSpace t = c :: rest) :
    rest.length < t.length := by
  have hle := length_skipSpace_le t
  rw [h, List.length_cons] at hle
  omega

/-- The digits are taken off whatever stands after them, but there has to be something. -/
theorem exists_of_fourHex? {n : Nat} (h : fourHex? t = some (n, rest)) :
    ∃ digits, t = digits ++ rest ∧ digits.length = 4 ∧ rest ≠ [] ∧
      ∀ other ≠ [], fourHex? (digits ++ other) = some (n, other) := by
  unfold fourHex? at h
  split at h
  next a b c d next' rest' =>
    obtain ⟨w, ha, h⟩ := Option.bind_eq_some_iff.mp h
    obtain ⟨x, hb, h⟩ := Option.bind_eq_some_iff.mp h
    obtain ⟨y, hc, h⟩ := Option.bind_eq_some_iff.mp h
    obtain ⟨z, hd, h⟩ := Option.bind_eq_some_iff.mp h
    obtain ⟨rfl, rfl⟩ := Prod.mk.inj (Option.some.inj h)
    refine ⟨[a, b, c, d], rfl, rfl, List.cons_ne_nil _ _, fun other hother => ?_⟩
    obtain ⟨e, more, rfl⟩ := List.exists_cons_of_ne_nil hother
    simp [fourHex?, ha, hb, hc, hd]
  next => cases h

theorem suffix_of_fourHex? {n : Nat} (h : fourHex? t = some (n, rest)) : rest <:+ t := by
  obtain ⟨digits, rfl, -⟩ := exists_of_fourHex? h
  exact List.suffix_append digits rest

/-- No second half of a surrogate pair stands at the front, where there is an escape at all. -/
def IsAlone (t : Text) : Prop :=
  ∀ more, t = CodePoint.ofChar '\\' :: CodePoint.ofChar 'u' :: more → 4 < more.length →
    ∃ low last, fourHex? more = some (low, last) ∧ ¬ (0xDC00 ≤ low ∧ low ≤ 0xDFFF)

/-- An escape stands for its own number, unless it is the first half of a surrogate pair and the
second half follows. -/
theorem readUnicode_eq_ok_iff {c : CodePoint} : readUnicode t = .ok (c, rest) ↔
    ∃ high after, fourHex? t = some (high, after) ∧
      ((0xD800 ≤ high ∧ high ≤ 0xDBFF → IsAlone after) ∧ c = CodePoint.ofNat high ∧ rest = after ∨
        (0xD800 ≤ high ∧ high ≤ 0xDBFF) ∧ ∃ more low,
          after = CodePoint.ofChar '\\' :: CodePoint.ofChar 'u' :: more ∧
          fourHex? more = some (low, rest) ∧ (0xDC00 ≤ low ∧ low ≤ 0xDFFF) ∧
          c = joinSurrogates high low) := by
  constructor
  · intro h
    unfold readUnicode at h
    split at h
    next => cases h
    next high after hhigh =>
      refine ⟨high, after, hhigh, ?_⟩
      split at h
      next hrange =>
        split at h
        next slash mark more =>
          split at h
          next hmarks =>
            simp only [Bool.and_eq_true, decide_eq_true_eq] at hmarks hrange
            obtain ⟨⟨rfl, rfl⟩, hlength⟩ := hmarks
            split at h
            next => cases h
            next low last hlow =>
              split at h
              next hpair =>
                obtain ⟨rfl, rfl⟩ := Prod.mk.inj (Except.ok.inj h)
                simp only [Bool.and_eq_true, decide_eq_true_eq] at hpair
                exact .inr ⟨hrange, more, low, rfl, hlow, hpair, rfl⟩
              next hpair =>
                obtain ⟨rfl, rfl⟩ := Prod.mk.inj (Except.ok.inj h)
                simp only [Bool.and_eq_true, decide_eq_true_eq] at hpair
                refine .inl ⟨fun _ more' hmore _ => ?_, rfl, rfl⟩
                obtain rfl := (List.cons.inj (List.cons.inj hmore).2).2
                exact ⟨low, last, hlow, hpair⟩
          next hmarks =>
            obtain ⟨rfl, rfl⟩ := Prod.mk.inj (Except.ok.inj h)
            refine .inl ⟨fun _ more' hmore hlength => ?_, rfl, rfl⟩
            simp only [List.cons.injEq] at hmore
            obtain ⟨rfl, rfl, rfl⟩ := hmore
            exact absurd (by simp [hlength]) hmarks
        next hshort =>
          obtain ⟨rfl, rfl⟩ := Prod.mk.inj (Except.ok.inj h)
          exact .inl ⟨fun _ more hmore _ => absurd hmore (hshort _ _ _), rfl, rfl⟩
      next hrange =>
        obtain ⟨rfl, rfl⟩ := Prod.mk.inj (Except.ok.inj h)
        exact .inl ⟨fun hhigh => absurd (by simpa using hhigh) hrange, rfl, rfl⟩
  · rintro ⟨high, after, hhigh, ⟨halone, rfl, rfl⟩ | ⟨hrange, more, low, hafter, hlow, hpair, hc⟩⟩
    · simp only [readUnicode, hhigh]
      split
      next hrange =>
        split
        next slash mark more =>
          split
          next hmarks =>
            simp only [Bool.and_eq_true, decide_eq_true_eq] at hmarks hrange
            obtain ⟨⟨rfl, rfl⟩, hlength⟩ := hmarks
            obtain ⟨low, last, hlow, hpair⟩ := halone hrange more rfl hlength
            rw [hlow]
            exact if_neg (by simpa using hpair)
          next => rfl
        next => rfl
      next => rfl
    · obtain ⟨digits, hmore, hdigits, hne, -⟩ := exists_of_fourHex? hlow
      have hlength : 4 < more.length := by
        have hpos := List.length_pos_iff.mpr hne
        rw [hmore, List.length_append]
        omega
      subst hafter
      rw [hc, readUnicode, hhigh]
      simp [hrange, hlength, hlow, hpair]

theorem suffix_of_readUnicode {c : CodePoint} (h : readUnicode t = .ok (c, rest)) :
    rest <:+ t := by
  obtain ⟨high, after, hhigh, ⟨-, -, rfl⟩ | ⟨-, more, low, hafter, hlow, -⟩⟩ :=
    readUnicode_eq_ok_iff.mp h
  · exact suffix_of_fourHex? hhigh
  · have hmore : more <:+ after := hafter ▸ List.suffix_append [_, _] more
    exact (suffix_of_fourHex? hlow).trans (hmore.trans (suffix_of_fourHex? hhigh))

theorem isSyntax_of_readUnicode {e : JsonError} (h : readUnicode t = .error e) :
    e.isSyntax = true := by
  have hescape : e = .unicodeEscape := by
    unfold readUnicode at h
    repeat' split at h
    all_goals cases h <;> rfl
  rw [hescape]
  rfl

/-- What is left of a text after its closing quotation mark, which is taken off at least. -/
theorem exists_cons_of_readText {fuel : Nat} {done text : Text}
    (h : readText fuel t done = .ok (text, rest)) : ∃ c more, t = c :: more ∧ rest <:+ more := by
  fun_induction readText fuel t done with
  | case3 done fuel rest' =>
    obtain ⟨-, rfl⟩ := Prod.mk.inj (Except.ok.inj h)
    exact ⟨_, _, rfl, List.suffix_rfl⟩
  | case5 done fuel rest' p more hunicode _ ih =>
    obtain ⟨c, more', rfl, hrest⟩ := ih h
    refine ⟨_, _, rfl, hrest.trans ((List.suffix_cons c more').trans ?_)⟩
    exact (suffix_of_readUnicode hunicode).trans (List.suffix_cons _ rest')
  | case7 done fuel e rest' _ p hshort _ ih =>
    obtain ⟨c, more', rfl, hrest⟩ := ih h
    exact ⟨_, _, rfl, hrest.trans (List.suffix_append [e, c] more')⟩
  | case10 done fuel c rest' _ _ _ ih =>
    obtain ⟨c', more', rfl, hrest⟩ := ih h
    exact ⟨_, _, rfl, hrest.trans (List.suffix_cons c' more')⟩
  | _ => cases h

theorem length_lt_of_readText {fuel : Nat} {done text : Text}
    (h : readText fuel t done = .ok (text, rest)) : rest.length < t.length := by
  obtain ⟨c, more, rfl, hrest⟩ := exists_cons_of_readText h
  exact Nat.lt_succ_of_le hrest.length_le

theorem isSyntax_of_readText {fuel : Nat} {t done : Text} {e : JsonError}
    (h : readText fuel t done = .error e) : e.isSyntax = true := by
  fun_induction readText fuel t done with
  | case5 | case7 | case10 =>
    rename_i ih
    exact ih h
  | case6 done fuel rest' e' hunicode =>
    cases h
    exact isSyntax_of_readUnicode hunicode
  | _ => cases h <;> rfl

/-- The digits at the front of a text and what follows them. -/
theorem length_of_span {digits : Text} (h : t.span CodePoint.isDigit = (digits, rest)) :
    digits.length + rest.length = t.length := by
  rw [List.span_eq_takeWhile_dropWhile] at h
  obtain ⟨rfl, rfl⟩ := Prod.mk.inj h
  rw [← List.length_append, List.takeWhile_append_dropWhile]

theorem length_of_wholePart? {digits : Text} (h : wholePart? t = some (digits, rest)) :
    digits.length + rest.length = t.length := by
  unfold wholePart? at h
  split at h
  next c more =>
    split at h
    next =>
      obtain ⟨rfl, rfl⟩ := Prod.mk.inj (Option.some.inj h)
      simp [Nat.add_comm]
    next =>
      split at h
      next =>
        cases hspan : more.span CodePoint.isDigit with
        | mk digits' rest' =>
          rw [hspan] at h
          obtain ⟨rfl, rfl⟩ := Prod.mk.inj (Option.some.inj h)
          have hlength := length_of_span hspan
          simp only [List.length_cons]
          omega
      next => cases h
  next => cases h

theorem length_fractionPart_le (t : Text) : (fractionPart t).2.length ≤ t.length := by
  unfold fractionPart
  split
  next point more =>
    split
    next =>
      split
      next => exact Nat.le_refl _
      next digits rest' _ hspan =>
        have hlength := length_of_span hspan
        simp only [List.length_cons]
        omega
    next => exact Nat.le_refl _
  next => exact Nat.le_refl _

theorem length_exponentPart_le (t : Text) : (exponentPart t).2.length ≤ t.length := by
  fun_cases exponentPart t with
  | case2 mark more _ negative signed hsigned digits rest' _ hspan =>
    have hmore : signed.length ≤ more.length := by
      split at hsigned
      next sign rest' =>
        split at hsigned
        next =>
          obtain ⟨-, rfl⟩ := Prod.mk.inj hsigned
          simp
        next =>
          split at hsigned <;> obtain ⟨-, rfl⟩ := Prod.mk.inj hsigned <;> simp
      next =>
        obtain ⟨-, rfl⟩ := Prod.mk.inj hsigned
        exact Nat.le_refl _
    have hlength := length_of_span hspan
    simp only [List.length_cons]
    omega
  | _ => exact Nat.le_refl _

theorem length_le_of_sign {c : CodePoint} {more unsigned : Text} {negative : Bool}
    (h : (if c = ('-' : CodePoint) then (true, more) else (false, c :: more)) =
      (negative, unsigned)) : unsigned.length ≤ (c :: more).length := by
  split at h
  next =>
    obtain ⟨-, rfl⟩ := Prod.mk.inj h
    simp
  next =>
    obtain ⟨-, rfl⟩ := Prod.mk.inj h
    exact Nat.le_refl _

theorem within_readNumber (limits : ReadingLimits) (t : Text) :
    Within limits t (readNumber limits t) := by
  cases t with
  | nil => exact .of_isSyntax rfl
  | cons c more =>
    fun_cases readNumber limits (c :: more) with
    | case1 => exact .of_isSyntax rfl
    | case2 negative unsigned hunsigned whole rest' hwhole fraction _ _ exponent _ _ _ hexceeds =>
      intro _
      have hlength := length_of_wholePart? hwhole
      have hle := length_le_of_sign hunsigned
      unfold ReadingLimits.exceeds at hexceeds
      split at hexceeds
      next most hmost =>
        have hlt := of_decide_eq_true hexceeds
        exact .inr ⟨most, hmost, by omega⟩
      next => cases hexceeds
    | case3 negative unsigned hunsigned whole rest' hwhole =>
      have hlength := length_of_wholePart? hwhole
      have hle := length_le_of_sign hunsigned
      show rest'.length ≤ (c :: more).length
      omega
    | case4 negative unsigned hunsigned whole rest' hwhole fraction after hfraction exponent last
        hexponent =>
      have hlength := length_of_wholePart? hwhole
      have hle := length_le_of_sign hunsigned
      have hafter := length_fractionPart_le rest'
      have hlast := length_exponentPart_le after
      rw [hfraction] at hafter
      rw [hexponent] at hlast
      show last.length ≤ (c :: more).length
      dsimp only at hafter hlast
      omega

theorem length_le_of_word? {value : Json} (h : word? t = some (value, rest)) :
    rest.length ≤ t.length := by
  obtain ⟨w, -, hw⟩ := List.exists_of_findSome?_eq_some h
  obtain ⟨u, hu, hpair⟩ := Option.map_eq_some_iff.mp hw
  obtain ⟨-, rfl⟩ := Prod.mk.inj hpair
  rw [Text.stripStart?_eq_some_iff.mp hu, List.length_append]
  omega

section

variable {fuel : Nat}

/-- Where what stands in arrays and objects is read within the limits, so is a value. -/
theorem within_readValue
    (hitems : ∀ n < fuel, ∀ limits t done, Within limits t (readItems limits n t done))
    (hmembers : ∀ n < fuel, ∀ limits t done, Within limits t (readMembers limits n t done)) :
    Within limits t (readValue limits fuel t) := by
  have hdeep : ∀ {c : CodePoint} {more : Text} {kind : Text}, limits.inner? = none →
      Within limits (c :: more) (.error (.tooDeep kind)) := by
    intro c more kind hinner _
    unfold ReadingLimits.inner? at hinner
    split at hinner
    next hdepth => exact .inl (by simp [hdepth])
    next => cases hinner
  have hclosed : ∀ {c close : CodePoint} {more rest : Text} {value : Json},
      skipSpace more = close :: rest → Within limits (c :: more) (.ok (value, rest)) := by
    intro c close more rest value hskip
    have hlt := length_lt_of_skipSpace hskip
    show rest.length ≤ (c :: more).length
    rw [List.length_cons]
    omega
  have hnested : ∀ {c : CodePoint} {more inside : Text}, skipSpace more = inside →
      inside.length < (c :: more).length := by
    intro c more inside hskip
    have hle := length_skipSpace_le more
    rw [hskip] at hle
    rw [List.length_cons]
    omega
  fun_cases readValue limits fuel t with
  | case3 fuel more value rest hread =>
    have hle := (length_lt_of_readText hread).le
    exact Nat.le_trans hle (by simp)
  | case4 fuel more e hread => exact .of_isSyntax (isSyntax_of_readText hread)
  | case5 fuel c more _ _ hinner => exact hdeep hinner
  | case6 fuel c more _ _ inner close rest hskip => exact hclosed hskip
  | case7 fuel c more _ _ inner close rest hskip hinner =>
    exact (hmembers fuel (Nat.lt_succ_self _) _ _ _).outward hinner (hnested hskip)
  | case9 fuel more hinner => exact hdeep hinner
  | case10 fuel more inner rest _ _ _ hskip => exact hclosed hskip
  | case11 fuel more inner close rest hskip hinner =>
    exact (hitems fuel (Nat.lt_succ_self _) _ _ _).outward hinner (hnested hskip)
  | case13 fuel c more _ _ _ found hword => exact length_le_of_word? hword
  | case14 => exact within_readNumber _ _
  | _ => exact .of_isSyntax rfl

theorem within_readItems (hvalue : ∀ n < fuel, ∀ limits t, Within limits t (readValue limits n t))
    (hitems : ∀ n < fuel, ∀ limits t done, Within limits t (readItems limits n t done))
    (done : List Json) : Within limits t (readItems limits fuel t done) := by
  fun_cases readItems limits fuel t done with
  | case2 fuel e hread =>
    have hfirst := hvalue fuel (Nat.lt_succ_self _) limits t
    rwa [hread] at hfirst
  | case3 fuel item more hread rest hskip =>
    have hfirst := hvalue fuel (Nat.lt_succ_self _) limits t
    rw [hread] at hfirst
    exact Nat.le_trans (Nat.le_of_lt (length_lt_of_skipSpace hskip)) hfirst
  | case4 fuel item more hread rest hskip =>
    have hfirst := hvalue fuel (Nat.lt_succ_self _) limits t
    rw [hread] at hfirst
    have hrest := length_lt_of_skipSpace hskip
    exact (hitems fuel (Nat.lt_succ_self _) _ _ _).mono
      (Nat.le_trans (length_skipSpace_le rest) (Nat.le_trans (Nat.le_of_lt hrest) hfirst))
  | _ => exact .of_isSyntax rfl

theorem within_readMembers
    (hvalue : ∀ n < fuel, ∀ limits t, Within limits t (readValue limits n t))
    (hmembers : ∀ n < fuel, ∀ limits t done, Within limits t (readMembers limits n t done))
    (done : Members Json) : Within limits t (readMembers limits fuel t done) := by
  -- a name and a colon leave less of the text
  have hname : ∀ {quote colon : CodePoint} {n : Nat} {more name after rest : Text},
      readText n more [] = .ok (name, after) → skipSpace after = colon :: rest →
      (skipSpace rest).length ≤ (quote :: more).length := by
    intro quote colon n more name after rest hread hskip
    have hafter := length_lt_of_readText hread
    have hrest := length_lt_of_skipSpace hskip
    have hle := length_skipSpace_le rest
    rw [List.length_cons]
    omega
  fun_cases readMembers limits fuel t done with
  | case3 fuel more e hread => exact .of_isSyntax (isSyntax_of_readText hread)
  | case4 fuel more name after hread rest e hfail hskip =>
    have hfirst := hvalue fuel (Nat.lt_succ_self _) limits (skipSpace rest)
    rw [hfail] at hfirst
    exact hfirst.mono (hname hread hskip)
  | case5 fuel more name after hread rest item last hitem _ close further hclose _ hskip =>
    have hfirst := hvalue fuel (Nat.lt_succ_self _) limits (skipSpace rest)
    rw [hitem] at hfirst
    have hlast := length_lt_of_skipSpace hclose
    exact Nat.le_trans (Nat.le_of_lt hlast) (Nat.le_trans hfirst (hname hread hskip))
  | case6 fuel more name after hread rest item last hitem _ further hskip hcomma =>
    have hfirst := hvalue fuel (Nat.lt_succ_self _) limits (skipSpace rest)
    rw [hitem] at hfirst
    have hlast := length_lt_of_skipSpace hcomma
    refine (hmembers fuel (Nat.lt_succ_self _) _ _ _).mono ?_
    exact Nat.le_trans (length_skipSpace_le further) (Nat.le_trans (Nat.le_of_lt hlast)
      (Nat.le_trans hfirst (hname hread hskip)))
  | _ => exact .of_isSyntax rfl

end

theorem within_readers (fuel : Nat) :
    (∀ limits t, Within limits t (readValue limits fuel t)) ∧
    (∀ limits t done, Within limits t (readItems limits fuel t done)) ∧
    ∀ limits t done, Within limits t (readMembers limits fuel t done) := by
  induction fuel using Nat.strongRecOn with
  | ind fuel ih =>
    have hvalue := fun n hn => (ih n hn).1
    have hitems := fun n hn => (ih n hn).2.1
    have hmembers := fun n hn => (ih n hn).2.2
    exact ⟨fun _ _ => within_readValue hitems hmembers,
      fun _ _ done => within_readItems hvalue hitems done,
      fun _ _ done => within_readMembers hvalue hmembers done⟩

/-- A text that is refused for its size is longer than one of the limits. -/
theorem lt_length_of_readLimited {e : JsonError} (h : readLimited limits t = .error e)
    (he : e.isSyntax = false) :
    limits.depth < t.length ∨ ∃ most, limits.digits = some most ∧ most < t.length := by
  cases t with
  | nil =>
    cases h
    cases he
  | cons mark more =>
    rw [readLimited] at h
    split at h
    next =>
      cases h
      cases he
    next =>
      split at h
      next e' hread =>
        obtain rfl := Except.error.inj h
        have hwithin := (within_readers (2 * (mark :: more).length + 2)).1 limits
          (skipSpace (mark :: more))
        rw [hread] at hwithin
        exact hwithin.mono (length_skipSpace_le _) he
      next =>
        split at h
        next => cases h
        next =>
          cases h
          cases he

/-- A text that is longer neither than nesting may be deep nor than an integer may be is read unless
it is outside the grammar. -/
theorem lt_length_of_read {depth : Nat} {e : JsonError} (h : read depth t = .error e)
    (he : e.isSyntax = false) : min depth digitLimit < t.length := by
  rcases lt_length_of_readLimited h he with hdepth | ⟨most, hmost, hlt⟩
  · exact (Nat.min_le_left _ _).trans_lt hdepth
  · obtain rfl := Option.some.inj hmost
    exact (Nat.min_le_right _ _).trans_lt hlt

end Replay.Json
