import Replay.Proofs.MomentText

namespace Replay

namespace TimestampReader

variable {p rest : Bytes} {clock c : Clock}

theorem digits?_lt {count value v : Nat} (h : digits? count value p = some (v, rest)) :
    v < (value + 1) * 10 ^ count := by
  induction count generalizing value p with
  | zero =>
    obtain ⟨rfl, -⟩ := Prod.mk.inj (Option.some.inj h)
    omega
  | succ count ih =>
    cases p with
    | nil => cases h
    | cons b p =>
      rw [digits?] at h
      split at h
      next hdigit =>
        have hlt := ih h
        have hnine : b.toNat ≤ 57 := by
          simp only [isDigit, Bool.and_eq_true, decide_eq_true_eq, UInt8.le_iff_toNat_le] at hdigit
          exact hdigit.2
        calc v < (10 * value + (b.toNat - 48) + 1) * 10 ^ count := hlt
          _ ≤ (10 * (value + 1)) * 10 ^ count := Nat.mul_le_mul_right _ (by omega)
          _ = (value + 1) * 10 ^ (count + 1) := by
            rw [Nat.pow_succ', Nat.mul_left_comm, Nat.mul_assoc]
      next => cases h

theorem microsecond_of_fraction? {left : Nat} (h : fraction? clock p left = some c) :
    c.microsecond < 1000000 := by
  obtain ⟨⟨v, rest⟩, hv, h⟩ := Option.bind_eq_some_iff.mp h
  obtain rfl := Option.some.inj h
  have hlt : v < 10 ^ min 6 left := by simpa using digits?_lt hv
  calc v * 10 ^ (6 - min 6 left) < 10 ^ min 6 left * 10 ^ (6 - min 6 left) :=
      Nat.mul_lt_mul_of_pos_right hlt (Nat.pow_pos (by decide))
    _ = 10 ^ 6 := by rw [← Nat.pow_add, Nat.add_sub_cancel' (Nat.min_le_left 6 left)]

theorem Clock.microsecond_set (clock : Clock) (index value : Nat) :
    (clock.set index value).microsecond = clock.microsecond := by
  rcases index with _ | _ | index <;> rfl

theorem microsecond_of_clock? {separated : Bool} {left pairs : Nat}
    (hclock : clock.microsecond < 1000000) (h : clock? clock separated left pairs p = some c) :
    c.microsecond < 1000000 := by
  induction pairs generalizing clock separated left p with
  | zero => exact microsecond_of_fraction? h
  | succ pairs ih =>
    obtain ⟨⟨value, p'⟩, -, h⟩ := Option.bind_eq_some_iff.mp h
    have hset : (clock.set (2 - pairs) value).microsecond < 1000000 := by
      rwa [Clock.microsecond_set]
    dsimp only at h
    generalize decide (if pairs = 2 then peek p' = colon else separated = true) = apart at h
    split at h
    · obtain rfl := Option.some.inj h
      exact hset
    · split at h
      · exact ih hset h
      · split at h
        · exact microsecond_of_fraction? h
        · split at h
          all_goals
            split at h
            · cases h
            · exact ih hset h

theorem between_of_size {size most : Int} {negative : Prop} [Decidable negative] (h : 0 ≤ size)
    (h' : size < most) :
    -most < (if negative then -size else size) ∧ (if negative then -size else size) < most := by
  split <;> omega

/-- A time of day has less than a million microseconds, and its offset is less than a day. -/
theorem bounds_of_time? {offset : Option Int} (h : time? p = some (c, offset)) :
    c.microsecond < 1000000 ∧ ∀ o ∈ offset, -(86400 * 1000000) < o ∧ o < 86400 * 1000000 := by
  obtain ⟨clock, hclock, h⟩ := Option.bind_eq_some_iff.mp h
  have hmicro := microsecond_of_clock? (by decide) hclock
  split at h
  next =>
    split at h
    next =>
      cases h
      exact ⟨hmicro, by simp⟩
    next => cases h
  next sign zone _ =>
    split at h
    next =>
      split at h
      next =>
        cases h
        refine ⟨hmicro, fun o ho => ?_⟩
        obtain rfl := Option.some.inj ho
        omega
      next => cases h
    next =>
      obtain ⟨shift, -, h⟩ := Option.bind_eq_some_iff.mp h
      dsimp only at h
      generalize (shift.hour * 60 + shift.minute) * 60 + shift.second = seconds at h
      have hnonneg : (0 : Int) ≤ if seconds = 0 then 0
          else ((seconds * 1000000 + shift.microsecond : Nat) : Int) := by
        split
        next => exact le_rfl
        next => exact Int.natCast_nonneg _
      generalize (if seconds = 0 then 0
        else ((seconds * 1000000 + shift.microsecond : Nat) : Int)) = size at h hnonneg
      split at h
      next =>
        split at h
        next hsize =>
          cases h
          refine ⟨hmicro, fun o ho => ?_⟩
          obtain rfl := Option.some.inj ho
          exact between_of_size hnonneg hsize
        next => cases h
      next => cases h

theorem isDate_of_dateOf {number : Option Int} {year month day : Nat}
    (h : (number.bind fun n => match n with
      | .ofNat n => if n < Calendar.endNumber then some (Calendar.dateOf n) else none
      | .negSucc _ => none) = some (year, month, day)) : Calendar.isDate year month day = true := by
  obtain ⟨n, -, h⟩ := Option.bind_eq_some_iff.mp h
  split at h
  next n =>
    split at h
    next hend =>
      obtain ⟨year', month', day', hdate, hnumber⟩ := Calendar.exists_isDate hend
      rw [← hnumber, Calendar.dateOf_dayNumber hdate] at h
      cases h
      exact hdate
    next => cases h
  next => cases h

theorem isDate_of_date? {length year month day : Nat}
    (h : date? length p = some (year, month, day)) : Calendar.isDate year month day = true := by
  obtain ⟨⟨y, p₁⟩, -, h⟩ := Option.bind_eq_some_iff.mp h
  dsimp only at h
  generalize (if peek p₁ = hyphen then p₁.drop 1 else p₁) = p₂ at h
  generalize (if peek p₁ = hyphen then 5 else 4) = read at h
  split at h
  next =>
    obtain ⟨⟨number, p₃⟩, -, h⟩ := Option.bind_eq_some_iff.mp h
    dsimp only at h
    split at h
    next =>
      split at h
      next => cases h
      next =>
        obtain ⟨weekday, -, h⟩ := Option.bind_eq_some_iff.mp h
        exact isDate_of_dateOf h
    next => exact isDate_of_dateOf h
  next =>
    obtain ⟨⟨month', p₃⟩, -, h⟩ := Option.bind_eq_some_iff.mp h
    dsimp only at h
    split at h
    next => cases h
    next =>
      obtain ⟨⟨day', p₄⟩, -, h⟩ := Option.bind_eq_some_iff.mp h
      dsimp only at h
      split at h
      next hdate =>
        cases h
        exact (Bool.and_eq_true_iff.mp hdate).2
      next => cases h

end TimestampReader

namespace Moment

open TimestampReader

/-- The text says this of a moment: its date and time of day, and the offset of that time from
universal time, if there is one. -/
def Stated (t : Text) (m : Moment) (offset : Option Int) : Prop :=
  7 ≤ t.length ∧ ∃ p ended, Utf8.encode (withSeparator t) = .ok p ∧
    parts? p = some ((m.year, m.month, m.day), ⟨m.hour, m.minute, m.second, m.microsecond, ended⟩,
      offset)

variable {t : Text} {m m' : Moment} {offset offset' : Option Int}

/-- What a text says is a moment of the calendar, and no more than a day off. -/
theorem Stated.isValid (h : Stated t m offset) :
    m.IsValid ∧ ∀ o ∈ offset, -(86400 * 1000000) < o ∧ o < 86400 * 1000000 := by
  obtain ⟨-, p, ended, -, h⟩ := h
  obtain ⟨⟨year, month, day⟩, hdate, h⟩ := Option.bind_eq_some_iff.mp h
  dsimp only at h
  split at h
  next =>
    obtain ⟨⟨clock, o⟩, htime, h⟩ := Option.bind_eq_some_iff.mp h
    dsimp only at h
    split at h
    next hday =>
      cases h
      obtain ⟨hmicro, hoffset⟩ := bounds_of_time? htime
      simp only [isTimeOfDay, Bool.and_eq_true, decide_eq_true_eq] at hday
      exact ⟨⟨isDate_of_date? hdate, hday.1.1, hday.1.2, hday.2, hmicro⟩, hoffset⟩
    next => cases h
  next =>
    simp only [Option.some.injEq, Prod.mk.injEq, midnight, TimestampReader.Clock.mk.injEq] at h
    obtain ⟨⟨rfl, rfl, rfl⟩, ⟨hh, hm, hs, hu, -⟩, rfl⟩ := h
    exact ⟨⟨isDate_of_date? hdate, by omega, by omega, by omega, by omega⟩, by simp⟩

/-- A time with an offset is read in universal time. -/
theorem read_of_offset {o : Int} {u : Moment} (h : Stated t m (some o)) (hu : u.IsValid)
    (heq : (u.toMicroseconds : Int) = m.toMicroseconds - o) : read t = .ok u := by
  obtain ⟨hlength, p, ended, hp, hparts⟩ := h
  have hinstant := ofMicroseconds?_eq_some_iff.mpr ⟨hu, heq⟩
  rw [read, if_neg (Nat.not_lt.mpr hlength), hp]
  simp only [hparts, hinstant]

/-- A time without an offset is read as it is, but not on the first day. -/
theorem read_of_local (h : Stated t m none) :
    read t =
      if Calendar.dayNumber m.year m.month m.day = 0 then .error .notTimestamp else .ok m := by
  obtain ⟨hlength, p, ended, hp, hparts⟩ := h
  rw [read, if_neg (Nat.not_lt.mpr hlength), hp]
  simp only [hparts]

theorem read_of_unstated (h : ∀ m offset, ¬ Stated t m offset) :
    read t = .error .notTimestamp := by
  rw [read]
  split
  next => rfl
  next hlength =>
    split
    next => rfl
    next p hp =>
      split
      next => rfl
      next year month day clock offset hparts =>
        exact absurd ⟨Nat.not_lt.mp hlength, p, clock.ended, hp, hparts⟩
          (h ⟨year, month, day, clock.hour, clock.minute, clock.second, clock.microsecond⟩ offset)

/-- The text says a time, but its instant is not one of the calendar. -/
def IsBeyond (t : Text) : Prop :=
  ∃ m offset, Stated t m (some offset) ∧
    ∀ u : Moment, u.IsValid → (u.toMicroseconds : Int) ≠ m.toMicroseconds - offset

theorem read_of_isBeyond (h : IsBeyond t) : read t = .error .outOfRange := by
  obtain ⟨m, offset, ⟨hlength, p, ended, hp, hparts⟩, hnone⟩ := h
  have hinstant := ofMicroseconds?_eq_none_iff.mpr hnone
  rw [read, if_neg (Nat.not_lt.mpr hlength), hp]
  simp only [hparts, hinstant]

theorem exists_isValid {n : Int} (h : 0 ≤ n) (h' : n < Calendar.endNumber * 86400 * 1000000) :
    ∃ u : Moment, u.IsValid ∧ (u.toMicroseconds : Int) = n := by
  obtain ⟨k, rfl⟩ := Int.eq_ofNat_of_zero_le h
  have hend : k / 1000000 / 86400 < Calendar.endNumber := by
    generalize Calendar.endNumber = last at h'
    omega
  have hsome := ofMicroseconds?_ofNat k
  rw [if_pos hend] at hsome
  exact ⟨_, ofMicroseconds?_eq_some_iff.mp hsome⟩

/-- Only in the hours next to an end of the calendar an offset leads out of it. -/
theorem IsBeyond.day (h : IsBeyond t) :
    ∃ m offset, Stated t m (some offset) ∧
      ((Calendar.dayNumber m.year m.month m.day = 0 ∧ 0 < offset) ∨
        (Calendar.dayNumber m.year m.month m.day + 1 = Calendar.endNumber ∧ offset < 0)) := by
  obtain ⟨m, offset, hstated, hnone⟩ := h
  refine ⟨m, offset, hstated, ?_⟩
  obtain ⟨hvalid, hoffset⟩ := hstated.isValid
  obtain ⟨hlow, hhigh⟩ := hoffset offset rfl
  have hend := Calendar.dayNumber_lt_endNumber hvalid.date
  have hseconds : m.secondsOfDay < 86400 := by
    obtain ⟨-, hh, hm, hs, -⟩ := hvalid
    rw [secondsOfDay]
    omega
  have hmicro := hvalid.microsecond
  by_contra hinside
  have hout : ¬ (0 ≤ (m.toMicroseconds : Int) - offset ∧
      (m.toMicroseconds : Int) - offset < Calendar.endNumber * 86400 * 1000000) := by
    rintro ⟨h0, h1⟩
    obtain ⟨u, hu, heq⟩ := exists_isValid h0 h1
    exact hnone u hu heq
  rw [toMicroseconds] at hout
  generalize Calendar.endNumber = last at *
  generalize Calendar.dayNumber m.year m.month m.day = day at *
  omega

end Moment

end Replay
