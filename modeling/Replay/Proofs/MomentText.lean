import Replay.Proofs.CalendarDate
import Replay.Proofs.Encodable
import Replay.TimestampReader

namespace Replay

namespace TimestampReader

/-- The decimal digits of a number as bytes, exactly `width` of them. -/
def digitsOf : (width n : Nat) → Bytes
  | 0, _ => []
  | width + 1, n => digitsOf width (n / 10) ++ [(48 + n % 10).toUInt8]

@[simp] theorem length_digitsOf (width n : Nat) : (digitsOf width n).length = width := by
  induction width generalizing n with
  | zero => rfl
  | succ width ih => simp [digitsOf, ih]

theorem isDigit_digit {d : Nat} (h : d < 10) :
    isDigit (48 + d).toUInt8 = true ∧ (48 + d).toUInt8.toNat - 48 = d := by
  revert d
  decide

theorem isDigit_of_mem_digitsOf {width n : Nat} {b : UInt8} (h : b ∈ digitsOf width n) :
    isDigit b = true := by
  induction width generalizing n with
  | zero => simp [digitsOf] at h
  | succ width ih =>
    rw [digitsOf, List.mem_append, List.mem_singleton] at h
    rcases h with h | rfl
    · exact ih h
    · exact (isDigit_digit (Nat.mod_lt n (by omega))).1

theorem digits?_append {a b value : Nat} {p : Bytes} :
    digits? (a + b) value p = (digits? a value p).bind fun r => digits? b r.1 r.2 := by
  induction a generalizing value p with
  | zero => simp [digits?]
  | succ a ih =>
    rw [show a + 1 + b = a + b + 1 by omega]
    cases p with
    | nil => simp [digits?]
    | cons c p =>
      rw [digits?, digits?]
      split
      next => exact ih
      next => rfl

theorem digits?_digitsOf {width n value : Nat} {p : Bytes} (h : n < 10 ^ width) :
    digits? width value (digitsOf width n ++ p) = some (value * 10 ^ width + n, p) := by
  induction width generalizing n value p with
  | zero =>
    obtain rfl : n = 0 := by simpa using h
    simp [digits?, digitsOf]
  | succ width ih =>
    have hn : n / 10 < 10 ^ width := by
      rw [Nat.pow_succ] at h
      omega
    obtain ⟨hd, hv⟩ := isDigit_digit (Nat.mod_lt n (by omega : 10 > 0))
    rw [digits?_append, digitsOf, List.append_assoc, ih hn]
    simp only [Option.bind_some, List.singleton_append, digits?, hd, if_true, hv]
    have he : 10 * (value * 10 ^ width + n / 10) + n % 10 = value * 10 ^ (width + 1) + n := by
      rw [Nat.pow_succ, ← Nat.mul_assoc]
      omega
    rw [he]

theorem digits?_zero_digitsOf {width n : Nat} (h : n < 10 ^ width) (p : Bytes) :
    digits? width 0 (digitsOf width n ++ p) = some (n, p) := by
  rw [digits?_digitsOf h, Nat.zero_mul, Nat.zero_add]

theorem padded_succ {width : Nat} (hw : 1 ≤ width) (n : Nat) :
    Text.padded (width + 1) n =
      Text.padded width (n / 10) ++ [CodePoint.ofChar (Nat.digitChar (n % 10))] := by
  simp only [Text.padded, Text.ofNat]
  rw [Nat.toDigits_eq_if (by omega)]
  split
  next hn =>
    obtain ⟨w, rfl⟩ : ∃ w, width = w + 1 := ⟨width - 1, by omega⟩
    have hz : Nat.toDigits 10 (n / 10) = ['0'] := by
      rw [Nat.div_eq_of_lt hn]
      rfl
    simp [hz, Nat.mod_eq_of_lt hn, List.replicate_succ']
  next hn => simp [Nat.succ_sub_succ]

theorem bytesOf_digitChar {d : Nat} (h : d < 10) :
    Utf8.bytesOf (CodePoint.ofChar (Nat.digitChar d)) = [(48 + d).toUInt8] := by
  revert d
  decide

/-- A number that fits is padded to exactly that many digits. -/
theorem flatMap_bytesOf_padded {width n : Nat} (hw : 1 ≤ width) (h : n < 10 ^ width) :
    (Text.padded width n).flatMap Utf8.bytesOf = digitsOf width n := by
  induction width, hw using Nat.le_induction generalizing n with
  | base =>
    have hp : Text.padded 1 n = [CodePoint.ofChar (Nat.digitChar n)] := by
      simp [Text.padded, Text.ofNat, Nat.toDigits_of_lt_base (by omega : n < 10)]
    simp [hp, digitsOf, bytesOf_digitChar (by omega : n < 10), Nat.mod_eq_of_lt (by omega : n < 10)]
  | succ width hw ih =>
    have hn : n / 10 < 10 ^ width := by
      rw [Nat.pow_succ] at h
      omega
    rw [padded_succ hw, List.flatMap_append, ih hn, digitsOf]
    simp [bytesOf_digitChar (Nat.mod_lt n (by omega : 10 > 0))]

/-- The bytes of the fraction of a second; a whole second has none. -/
def fractionBytes (m : Moment) : Bytes :=
  if m.microsecond = 0 then [] else 0x2E :: digitsOf 6 m.microsecond

/-- The bytes of the time of day. -/
def clockBytes (m : Moment) : Bytes :=
  digitsOf 2 m.hour ++ colon :: (digitsOf 2 m.minute ++ colon :: (digitsOf 2 m.second ++
    fractionBytes m))

/-- The bytes of the offset without its sign. -/
def zoneBytes : Bytes := digitsOf 2 0 ++ colon :: digitsOf 2 0

/-- The bytes of the standard text. -/
def momentBytes (m : Moment) : Bytes :=
  digitsOf 4 m.year ++ hyphen :: (digitsOf 2 m.month ++ hyphen :: (digitsOf 2 m.day ++
    0x54 :: (clockBytes m ++ plus :: zoneBytes)))

theorem encode_text {m : Moment} (h : m.IsValid) : Utf8.encode m.text = .ok (momentBytes m) := by
  obtain ⟨hdate, hh, hm, hs, hu⟩ := h
  obtain ⟨-, hy, -, hmonth, -, hday⟩ := Calendar.isDate_iff.mp hdate
  have hle := Calendar.daysInMonth_le m.year m.month
  have hyphens : (Text.ofString "-").flatMap Utf8.bytesOf = [hyphen] := rfl
  have colons : (Text.ofString ":").flatMap Utf8.bytesOf = [colon] := rfl
  have letter : (Text.ofString "T").flatMap Utf8.bytesOf = [0x54] := rfl
  have point : (Text.ofString ".").flatMap Utf8.bytesOf = [0x2E] := rfl
  have offset : (Text.ofString "+00:00").flatMap Utf8.bytesOf =
      plus :: zoneBytes := rfl
  rw [Utf8.encode_of_encodable (Moment.encodable_text m)]
  simp only [Moment.text, Moment.dateText, Moment.timeText, List.flatMap_append, hyphens, colons,
    letter, offset, flatMap_bytesOf_padded (by omega : 1 ≤ 4) (by omega : m.year < 10 ^ 4),
    flatMap_bytesOf_padded (by omega : 1 ≤ 2) (by omega : m.month < 10 ^ 2),
    flatMap_bytesOf_padded (by omega : 1 ≤ 2) (by omega : m.day < 10 ^ 2),
    flatMap_bytesOf_padded (by omega : 1 ≤ 2) (by omega : m.hour < 10 ^ 2),
    flatMap_bytesOf_padded (by omega : 1 ≤ 2) (by omega : m.minute < 10 ^ 2),
    flatMap_bytesOf_padded (by omega : 1 ≤ 2) (by omega : m.second < 10 ^ 2)]
  have hf : (if m.microsecond = 0 then ([] : Text) else
        "." ++ Text.padded 6 m.microsecond).flatMap Utf8.bytesOf = fractionBytes m := by
    rw [fractionBytes]
    split
    · rfl
    · rw [List.flatMap_append, point,
        flatMap_bytesOf_padded (by omega : 1 ≤ 6) (by omega : m.microsecond < 10 ^ 6)]
      rfl
  rw [hf]
  simp [momentBytes, clockBytes]

theorem length_text {m : Moment} : 7 ≤ m.text.length := by
  simp [Moment.text, Text.ofString]
  omega

/-- A text without surrogates keeps its separator. -/
theorem withSeparator_of_encodable {t : Text} (h : t.Encodable) : withSeparator t = t := by
  have hn : ∀ i : Nat, ((t[i]?).map CodePoint.isSurrogate).getD false = false := by
    intro i
    cases hi : t[i]? with
    | none => rfl
    | some c => simpa using h c (List.mem_of_getElem? hi)
  simp [withSeparator, hn]

theorem ne_of_isDigit {b c : UInt8} (h : isDigit b = true) (hc : isDigit c = false) : b ≠ c := by
  rintro rfl
  simp [h] at hc

/-- A number of two digits begins with a digit. -/
theorem digitsOf_two (n : Nat) : ∃ b c, digitsOf 2 n = [b, c] ∧ isDigit b = true := by
  refine ⟨_, _, rfl, ?_⟩
  exact (isDigit_digit (Nat.mod_lt (n / 10) (by omega))).1

@[simp] theorem peekAt_digitsOf (width n : Nat) (b : UInt8) (p : Bytes) :
    peekAt (digitsOf width n ++ b :: p) width = b := by
  simp [peekAt]

theorem dateLength_momentBytes (m : Moment) : dateLength (momentBytes m) = 10 := by
  obtain ⟨b, c, hb, hd⟩ := digitsOf_two m.month
  have h4 : peekAt (momentBytes m) 4 = hyphen := peekAt_digitsOf 4 m.year _ _
  have h5 : peekAt (momentBytes m) 5 = b := by
    rw [momentBytes, hb, peekAt, List.getElem?_append_right (by simp)]
    simp
  have hlen : ¬ (momentBytes m).length = 7 := by
    simp [momentBytes]
    omega
  have hweek : b ≠ week := ne_of_isDigit hd (by decide)
  rw [dateLength, if_neg hlen, h4, h5, if_pos rfl, if_neg hweek]

theorem date?_momentBytes {m : Moment} (h : m.IsValid) :
    date? 10 (momentBytes m) = some (m.year, m.month, m.day) := by
  obtain ⟨-, hy, -, hm, -, hday⟩ := Calendar.isDate_iff.mp h.date
  have hle := Calendar.daysInMonth_le m.year m.month
  obtain ⟨b, c, hb, hd⟩ := digitsOf_two m.month
  have hpeek : (digitsOf 2 m.month).head?.getD hyphen ≠ week := by
    rw [hb]
    exact ne_of_isDigit hd (by decide)
  have hyear := digits?_zero_digitsOf (by omega : m.year < 10 ^ 4)
  have hmonth := digits?_zero_digitsOf (by omega : m.month < 10 ^ 2)
  have hday := digits?_zero_digitsOf (by omega : m.day < 10 ^ 2)
  rw [date?, momentBytes, hyear]
  simp only [Option.bind_eq_bind, Option.bind_some]
  simp [peek, hpeek, hmonth, hday, h.date]

theorem clock?_clockBytes {m : Moment} (h : m.IsValid) (p : Bytes) :
    ∃ ended, clock? midnight true (clockBytes m).length 3 (clockBytes m ++ plus :: p) =
      some ⟨m.hour, m.minute, m.second, m.microsecond, ended⟩ := by
  obtain ⟨-, hh, hm, hs, hu⟩ := h
  have hhour := digits?_zero_digitsOf (by omega : m.hour < 10 ^ 2)
  have hminute := digits?_zero_digitsOf (by omega : m.minute < 10 ^ 2)
  have hsecond := digits?_zero_digitsOf (by omega : m.second < 10 ^ 2)
  have hmicro := digits?_zero_digitsOf (by omega : m.microsecond < 10 ^ 6)
  by_cases hz : m.microsecond = 0
  · simp [clockBytes, fractionBytes, hz, clock?, hhour, hminute, hsecond, peek, Clock.set, midnight]
  · simp [clockBytes, fractionBytes, hz, clock?, hhour, hminute, hsecond, peek, Clock.set, midnight,
      fraction?, hmicro]

/-- No byte of the time of day begins an offset. -/
theorem not_zone_of_mem_clockBytes {m : Moment} {b : UInt8} (h : b ∈ clockBytes m) :
    (!(b = plus || b = hyphen || b = zulu)) = true := by
  have hb : isDigit b = true ∨ b = colon ∨ b = 0x2E := by
    have hd : ∀ {width n}, b ∈ digitsOf width n → isDigit b = true := isDigit_of_mem_digitsOf
    simp only [clockBytes, fractionBytes, List.mem_append, List.mem_cons] at h
    rcases h with h | h | h | h | h | h
    · exact .inl (hd h)
    · exact .inr (.inl h)
    · exact .inl (hd h)
    · exact .inr (.inl h)
    · exact .inl (hd h)
    · split at h
      next => simp at h
      next =>
        rcases List.mem_cons.mp h with h | h
        · exact .inr (.inr h)
        · exact .inl (hd h)
  rcases hb with hb | rfl | rfl
  · have h1 : b ≠ plus := ne_of_isDigit hb (by decide)
    have h2 : b ≠ hyphen := ne_of_isDigit hb (by decide)
    have h3 : b ≠ zulu := ne_of_isDigit hb (by decide)
    simp [h1, h2, h3]
  · decide
  · decide

theorem time?_bytes {m : Moment} (h : m.IsValid) :
    ∃ ended, time? (clockBytes m ++ plus :: zoneBytes) =
      some (⟨m.hour, m.minute, m.second, m.microsecond, ended⟩, some 0) := by
  obtain ⟨ended, hclock⟩ := clock?_clockBytes h zoneBytes
  have hbefore : ((clockBytes m ++ plus :: zoneBytes).takeWhile
      fun b => !(b = plus || b = hyphen || b = zulu)) = clockBytes m := by
    rw [List.takeWhile_append_of_pos fun b hb => not_zone_of_mem_clockBytes hb]
    simp
  have hzone : clock? midnight true zoneBytes.length 3 zoneBytes = some midnight := rfl
  refine ⟨ended, ?_⟩
  simp only [time?]
  rw [hbefore, hclock]
  simp only [Option.bind_eq_bind, Option.bind_some, List.drop_left, hzone]
  rfl

theorem parts?_momentBytes {m : Moment} (h : m.IsValid) :
    ∃ ended, parts? (momentBytes m) = some ((m.year, m.month, m.day),
      ⟨m.hour, m.minute, m.second, m.microsecond, ended⟩, some 0) := by
  obtain ⟨ended, htime⟩ := time?_bytes h
  refine ⟨ended, ?_⟩
  have hdrop : (momentBytes m).drop 10 = 0x54 :: (clockBytes m ++ plus :: zoneBytes) := by
    simp [momentBytes, List.drop_append, List.drop_eq_nil_of_le]
  have hlen : 10 < (momentBytes m).length := by
    simp [momentBytes]
    omega
  have hday : isTimeOfDay ⟨m.hour, m.minute, m.second, m.microsecond, ended⟩ = true := by
    simp [isTimeOfDay, h.hour, h.minute, h.second]
  rw [parts?, dateLength_momentBytes, date?_momentBytes h]
  simp only [Option.bind_eq_bind, Option.bind_some, hlen, if_true, hdrop]
  have hsep : separatorLength (peek (0x54 :: (clockBytes m ++ plus :: zoneBytes))) = 1 := rfl
  rw [hsep, List.drop_one, List.tail_cons, htime]
  simp [hday]

end TimestampReader

-- The offset stays a variable here: with a number in its place the kernel would compute the
-- microseconds of the moment one by one.
theorem Moment.read_of_parts? {t : Text} {p : Bytes} {m m' : Moment} {ended : Bool} {offset : Int}
    (hlen : ¬ t.length < 7) (hp : Utf8.encode (TimestampReader.withSeparator t) = .ok p)
    (hparts : TimestampReader.parts? p = some ((m.year, m.month, m.day),
      ⟨m.hour, m.minute, m.second, m.microsecond, ended⟩, some offset))
    (hback : Moment.ofMicroseconds? (m.toMicroseconds - offset) = some m') :
    Moment.read t = .ok m' := by
  rw [Moment.read, if_neg hlen, hp]
  simp only [hparts, hback]

/-- The moment that is read from the standard text is the one that it was written for. -/
theorem Moment.read_text {m : Moment} (h : m.IsValid) : Moment.read m.text = .ok m := by
  obtain ⟨ended, hparts⟩ := TimestampReader.parts?_momentBytes h
  have hlen : ¬ m.text.length < 7 := by
    have := TimestampReader.length_text (m := m)
    omega
  have hback : Moment.ofMicroseconds? ((m.toMicroseconds : Int) - 0) = some m := by
    rw [Int.sub_zero, Moment.ofMicroseconds?_toMicroseconds h]
  refine Moment.read_of_parts? hlen ?_ hparts hback
  rw [TimestampReader.withSeparator_of_encodable m.encodable_text, TimestampReader.encode_text h]

end Replay
