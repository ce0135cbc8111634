import Mathlib.Algebra.Order.Group.Nat
import Mathlib.Order.Monotone.Basic
import Mathlib.Tactic.IntervalCases
import Replay.Timestamp

namespace Replay

namespace Calendar

theorem daysBeforeYear_succ {year : Nat} (h : 1 ≤ year) :
    daysBeforeYear (year + 1) = daysBeforeYear year + daysInYear year := by
  obtain ⟨past, rfl⟩ : ∃ past, year = past + 1 := ⟨year - 1, by omega⟩
  have h4 := @Nat.succ_div past 4
  have h100 := @Nat.succ_div past 100
  have h400 := @Nat.succ_div past 400
  have hle : past / 100 ≤ past / 4 := Nat.div_le_div_left (by omega) (by omega)
  simp only [daysBeforeYear, daysInYear, isLeap, Nat.add_sub_cancel, h4, h100, h400,
    Nat.dvd_iff_mod_eq_zero, Bool.and_eq_true, Bool.or_eq_true, decide_eq_true_eq, bne_iff_ne,
    ne_eq]
  by_cases c4 : (past + 1) % 4 = 0
  · by_cases c100 : (past + 1) % 100 = 0
    · by_cases c400 : (past + 1) % 400 = 0
      · simp only [c4, c100, c400, if_true, not_true, or_true, and_self]
        omega
      · simp only [c4, c100, c400, if_true, if_false, not_true, or_false, and_false]
        omega
    · have c400 : (past + 1) % 400 ≠ 0 := by omega
      simp only [c4, c100, c400, if_true, if_false, not_false_eq_true, true_or, and_self]
      omega
  · have c100 : (past + 1) % 100 ≠ 0 := by omega
    have c400 : (past + 1) % 400 ≠ 0 := by omega
    simp only [c4, c100, c400, if_false, false_and]
    omega

theorem daysBeforeYear_le {a b : Nat} (h : a ≤ b) : daysBeforeYear a ≤ daysBeforeYear b := by
  refine monotone_nat_of_le_succ (fun n => ?_) h
  rcases Nat.eq_zero_or_pos n with rfl | hn
  · exact le_rfl
  · rw [daysBeforeYear_succ hn]
    omega

/-- The guess is off by at most one, and the two comparisons correct it. -/
theorem yearOf_eq {year number : Nat} (hy : 1 ≤ year) (h : daysBeforeYear year ≤ number)
    (h' : number < daysBeforeYear (year + 1)) : yearOf number = year := by
  have hlow : year ≤ number * 400 / 146097 + 1 + 1 := by
    simp only [daysBeforeYear] at h
    omega
  have hhigh : number * 400 / 146097 + 1 ≤ year + 1 := by
    simp only [daysBeforeYear] at h'
    omega
  simp only [yearOf]
  generalize number * 400 / 146097 + 1 = guess at hlow hhigh ⊢
  have hbelow : ∀ a, a ≤ year → daysBeforeYear a ≤ number := fun a ha =>
    (daysBeforeYear_le ha).trans h
  have habove : ∀ a, year + 1 ≤ a → number < daysBeforeYear a := fun a ha =>
    h'.trans_le (daysBeforeYear_le ha)
  split
  next hg =>
    have : ¬ year + 1 ≤ guess + 1 := fun hle => by have := habove _ hle; omega
    omega
  next hg =>
    have : ¬ guess + 1 ≤ year := fun hle => hg (hbelow _ hle)
    split
    next hg' =>
      have : ¬ year + 1 ≤ guess := fun hle => by have := habove _ hle; omega
      omega
    next hg' =>
      have : ¬ guess ≤ year := fun hle => hg' (hbelow _ hle)
      omega

/-- Counting off the months before a month ends at it. -/
theorem monthAndDay_eq {year months first month day : Nat} (hf : first ≤ month)
    (hm : month ≤ first + months) (hd : 1 ≤ day) (hd' : day ≤ daysInMonth year month) :
    monthAndDay year months first
      ((List.range' first (month - first)).foldr (fun m days => daysInMonth year m + days) 0 +
        (day - 1)) =
      (month, day) := by
  induction months generalizing first with
  | zero =>
    obtain rfl : month = first := by omega
    simp [monthAndDay, Nat.sub_add_cancel hd]
  | succ months ih =>
    rw [monthAndDay]
    by_cases he : month = first
    · subst he
      have : day - 1 < daysInMonth year month := by omega
      simp [this, Nat.sub_add_cancel hd]
    · have hs : month - first = month - (first + 1) + 1 := by omega
      rw [hs, List.range'_succ, List.foldr_cons, Nat.add_assoc, if_neg (by omega),
        Nat.add_sub_cancel_left]
      exact ih (by omega) (by omega)

theorem isDate_iff {year month day : Nat} :
    isDate year month day = true ↔ 1 ≤ year ∧ year ≤ 9999 ∧ 1 ≤ month ∧ month ≤ 12 ∧ 1 ≤ day ∧
      day ≤ daysInMonth year month := by
  simp only [isDate, Bool.and_eq_true, decide_eq_true_eq, and_assoc]
  rfl

theorem daysInMonth_le (year month : Nat) : daysInMonth year month ≤ 31 := by
  rw [daysInMonth]
  repeat' split
  all_goals omega

theorem daysBeforeMonth_add_lt {year month day : Nat} (h : isDate year month day = true) :
    daysBeforeMonth year month + (day - 1) < daysInYear year := by
  obtain ⟨-, -, hm, hm', hd, hd'⟩ := isDate_iff.mp h
  cases hl : isLeap year <;> interval_cases month <;>
    simp [daysBeforeMonth, daysInMonth, daysInYear, hl, List.range'] at hd' ⊢ <;> omega

theorem dateOf_dayNumber {year month day : Nat} (h : isDate year month day = true) :
    dateOf (dayNumber year month day) = (year, month, day) := by
  have hlt := daysBeforeMonth_add_lt h
  obtain ⟨hy, -, hm, hm', hd, hd'⟩ := isDate_iff.mp h
  have hsucc := daysBeforeYear_succ hy
  have hyear : yearOf (dayNumber year month day) = year := by
    refine yearOf_eq hy ?_ ?_
    · rw [dayNumber]
      omega
    · rw [dayNumber]
      omega
  have hrest : dayNumber year month day - daysBeforeYear year =
      daysBeforeMonth year month + (day - 1) := by
    rw [dayNumber]
    omega
  rw [dateOf, hyear, hrest, daysBeforeMonth, monthAndDay_eq hm (by omega) hd hd']

theorem dayNumber_lt_endNumber {year month day : Nat} (h : isDate year month day = true) :
    dayNumber year month day < endNumber := by
  have hlt := daysBeforeMonth_add_lt h
  obtain ⟨hy, hy', -⟩ := isDate_iff.mp h
  have hsucc := daysBeforeYear_succ hy
  have hle : daysBeforeYear (year + 1) ≤ daysBeforeYear (lastYear + 1) :=
    daysBeforeYear_le (Nat.succ_le_succ hy')
  have hend : endNumber = daysBeforeYear (lastYear + 1) := rfl
  rw [hend, dayNumber]
  omega

theorem daysBeforeMonth_succ (year : Nat) {month : Nat} (h : 1 ≤ month) (h' : month ≤ 11) :
    daysBeforeMonth year (month + 1) = daysBeforeMonth year month + daysInMonth year month := by
  interval_cases month <;> simp [daysBeforeMonth, List.range'] <;> omega

theorem daysBeforeMonth_december (year : Nat) :
    daysBeforeMonth year 12 + daysInMonth year 12 = daysInYear year := by
  cases hl : isLeap year <;> simp [daysBeforeMonth, daysInMonth, daysInYear, hl, List.range']

theorem one_le_daysInMonth (year month : Nat) : 1 ≤ daysInMonth year month := by
  rw [daysInMonth]
  repeat' split
  all_goals omega

/-- The first day of a year comes right after the last one of the year before. -/
theorem dayNumber_newYear {year : Nat} (h : 1 ≤ year) :
    dayNumber (year + 1) 1 1 = dayNumber year 12 (daysInMonth year 12) + 1 := by
  have hyear := daysBeforeYear_succ h
  have hdecember := daysBeforeMonth_december year
  have hjanuary : daysBeforeMonth (year + 1) 1 = 0 := rfl
  have hone := one_le_daysInMonth year 12
  rw [dayNumber, dayNumber, hjanuary]
  omega

/-- Every day of the calendar has a date. -/
theorem exists_isDate {number : Nat} (h : number < endNumber) :
    ∃ year month day, isDate year month day = true ∧ dayNumber year month day = number := by
  induction number with
  | zero => exact ⟨1, 1, 1, by decide, by decide⟩
  | succ number ih =>
    obtain ⟨year, month, day, hdate, rfl⟩ := ih (by omega)
    obtain ⟨hy, hy', hm, hm', hd, hd'⟩ := isDate_iff.mp hdate
    -- the next day is in the same month, or the first one of the next month or year
    by_cases hday : day < daysInMonth year month
    · refine ⟨year, month, day + 1, isDate_iff.mpr ⟨hy, hy', hm, hm', by omega, hday⟩, ?_⟩
      rw [dayNumber, dayNumber]
      omega
    · obtain rfl : day = daysInMonth year month := by omega
      by_cases hmonth : month ≤ 11
      · have hsucc := daysBeforeMonth_succ year hm hmonth
        refine ⟨year, month + 1, 1, isDate_iff.mpr
          ⟨hy, hy', by omega, by omega, le_rfl, one_le_daysInMonth _ _⟩, ?_⟩
        rw [dayNumber, dayNumber]
        omega
      · obtain rfl : month = 12 := by omega
        have hnext := dayNumber_newYear hy
        have hlast : year ≠ lastYear := by
          rintro rfl
          rw [← hnext] at h
          exact absurd h (Nat.lt_irrefl _)
        have hyear : year + 1 ≤ 9999 := Nat.lt_of_le_of_ne hy' hlast
        exact ⟨year + 1, 1, 1, isDate_iff.mpr
          ⟨by omega, hyear, le_rfl, by omega, le_rfl, one_le_daysInMonth _ _⟩, hnext⟩

end Calendar

namespace Moment

/-- A date of the calendar and a time of a day. -/
structure IsValid (m : Moment) : Prop where
  date : Calendar.isDate m.year m.month m.day = true
  hour : m.hour < 24
  minute : m.minute < 60
  second : m.second < 60
  microsecond : m.microsecond < 1000000

theorem ofMicroseconds?_ofNat (n : Nat) :
    ofMicroseconds? (.ofNat n) = if n / 1000000 / 86400 < Calendar.endNumber then
      some ⟨(Calendar.dateOf (n / 1000000 / 86400)).1, (Calendar.dateOf (n / 1000000 / 86400)).2.1,
        (Calendar.dateOf (n / 1000000 / 86400)).2.2, n / 1000000 % 86400 / 3600,
        n / 1000000 % 86400 / 60 % 60, n / 1000000 % 86400 % 60, n % 1000000⟩
    else none := by
  rw [ofMicroseconds?]

theorem ofMicroseconds?_toMicroseconds {m : Moment} (h : m.IsValid) :
    ofMicroseconds? m.toMicroseconds = some m := by
  obtain ⟨hdate, hh, hm, hs, hu⟩ := h
  have hend := Calendar.dayNumber_lt_endNumber hdate
  have hof := Calendar.dateOf_dayNumber hdate
  have hsod : m.secondsOfDay < 86400 := by
    rw [secondsOfDay]
    omega
  have hnumber : m.toMicroseconds / 1000000 / 86400 =
      Calendar.dayNumber m.year m.month m.day := by
    rw [toMicroseconds]
    omega
  have hrest : m.toMicroseconds / 1000000 % 86400 = m.secondsOfDay := by
    rw [toMicroseconds]
    omega
  have hmicro : m.toMicroseconds % 1000000 = m.microsecond := by
    rw [toMicroseconds]
    omega
  rw [← Int.ofNat_eq_natCast, ofMicroseconds?_ofNat, hnumber, hrest, hmicro, hof, if_pos hend]
  have h1 : m.secondsOfDay / 3600 = m.hour := by
    rw [secondsOfDay]
    omega
  have h2 : m.secondsOfDay / 60 % 60 = m.minute := by
    rw [secondsOfDay]
    omega
  have h3 : m.secondsOfDay % 60 = m.second := by
    rw [secondsOfDay]
    omega
  rw [h1, h2, h3]

/-- The moments of the calendar are those that are reached from its start. -/
theorem ofMicroseconds?_eq_some_iff {n : Int} {m : Moment} :
    ofMicroseconds? n = some m ↔ m.IsValid ∧ (m.toMicroseconds : Int) = n := by
  constructor
  · intro h
    cases n with
    | negSucc n => cases h
    | ofNat n =>
      rw [ofMicroseconds?_ofNat] at h
      split at h
      next hend =>
        obtain ⟨year, month, day, hdate, hnumber⟩ := Calendar.exists_isDate hend
        rw [← hnumber, Calendar.dateOf_dayNumber hdate] at h
        obtain rfl := Option.some.inj h
        refine ⟨⟨hdate, ?_, ?_, ?_, ?_⟩, ?_⟩
        all_goals dsimp only
        · omega
        · omega
        · omega
        · omega
        · rw [toMicroseconds, hnumber, secondsOfDay]
          refine congrArg Int.ofNat ?_
          dsimp only
          omega
      next => cases h
  · rintro ⟨h, rfl⟩
    exact ofMicroseconds?_toMicroseconds h

theorem ofMicroseconds?_eq_none_iff {n : Int} :
    ofMicroseconds? n = none ↔ ∀ m : Moment, m.IsValid → (m.toMicroseconds : Int) ≠ n := by
  simp only [Option.eq_none_iff_forall_ne_some, ne_eq, ofMicroseconds?_eq_some_iff, not_and]

end Moment

end Replay
