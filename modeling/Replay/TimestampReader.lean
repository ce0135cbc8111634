import Replay.Timestamp
import Replay.Utf8

namespace Replay

/-- Why a text gives no moment. -/
inductive MomentError where
  | notTimestamp
  /-- The moment lies outside the calendar in universal time. -/
  | outOfRange
deriving DecidableEq

namespace MomentError

def message : MomentError → Text
  | notTimestamp => "Invalid isoformat string"
  | outOfRange => "date value out of range"

end MomentError

namespace TimestampReader

def hyphen : UInt8 := 0x2D

def colon : UInt8 := 0x3A

def week : UInt8 := 0x57

def zulu : UInt8 := 0x5A

def plus : UInt8 := 0x2B

def isDigit (b : UInt8) : Bool := 0x30 ≤ b && b ≤ 0x39

/-- The first byte. -/
def peek (p : Bytes) : UInt8 := p.head?.getD 0

def peekAt (p : Bytes) (i : Nat) : UInt8 := p[i]?.getD 0

/-- Reads exactly `count` digits after `value`. -/
def digits? : (count value : Nat) → Bytes → Option (Nat × Bytes)
  | 0, value, p => some (value, p)
  | count + 1, value, p =>
    match p with
    | b :: p => if isDigit b then digits? count (10 * value + (b.toNat - 48)) p else none
    | [] => none

/-- Where the date ends: the forms of dates are told apart by their fifth and sixth bytes. -/
def dateLength (p : Bytes) : Nat :=
  if p.length = 7 then 7
  else if peekAt p 4 = hyphen then
    if peekAt p 5 = week then
      if 8 < p.length && peekAt p 8 = hyphen && !(10 < p.length && isDigit (peekAt p 10)) then 10
      else 8
    else 10
  else if peekAt p 4 = week then
    let stop := 7 + ((p.drop 7).takeWhile isDigit).length
    if stop < 9 then stop else if stop % 2 = 0 then 7 else 8
  else 8

/-- The day of the week of a day number; Monday is zero. -/
def weekday (number : Nat) : Nat := number % 7

/-- A year has a week 53 if it starts on a Thursday, or on a Wednesday and is a leap year. -/
def hasLongWeeks (year : Nat) : Bool :=
  let first := weekday (Calendar.dayNumber year 1 1)
  first = 3 || (first = 2 && Calendar.isLeap year)

/-- The number of a day of a week of a year, which may lie in a neighbouring year; week one is
the one with the first Thursday. -/
def weekDate? (year week day : Nat) : Option Int :=
  if 1 ≤ year && 1 ≤ week && (week < 53 || (week = 53 && hasLongWeeks year)) && 1 ≤ day
      && day ≤ 7 then
    let first := Calendar.dayNumber year 1 1
    let monday : Int := if weekday first ≤ 3 then (first : Int) - weekday first
      else (first : Int) + 7 - weekday first
    some (monday + ((week - 1) * 7 + (day - 1) : Nat))
  else none

/-- The date that takes up the first `length` bytes. -/
def date? (length : Nat) (p : Bytes) : Option (Nat × Nat × Nat) := do
  let (year, p) ← digits? 4 0 p
  let separated := peek p = hyphen
  let p := if separated then p.drop 1 else p
  let read := if separated then 5 else 4
  if peek p = week then
    let (number, p) ← digits? 2 0 (p.drop 1)
    let day ←
      if read + 3 < length then
        if separated && peek p != hyphen then none
        else (digits? 1 0 (if separated then p.drop 1 else p)).map Prod.fst
      else some 1
    match ← weekDate? year number day with
    | .ofNat n => if n < Calendar.endNumber then some (Calendar.dateOf n) else none
    | .negSucc _ => none
  else
    let (month, p) ← digits? 2 0 p
    if separated && peek p != hyphen then none
    else
      let (day, _) ← digits? 2 0 (if separated then p.drop 1 else p)
      let read := read + (if separated then 5 else 4)
      if read = length && Calendar.isDate year month day then some (year, month, day) else none

/-- A time of day; `ended` says whether nothing followed it. -/
structure Clock where
  hour : Nat
  minute : Nat
  second : Nat
  microsecond : Nat
  ended : Bool
deriving DecidableEq

/-- Reads the fraction of a second out of at most `left` bytes; digits after the sixth are
passed over. -/
def fraction? (clock : Clock) (p : Bytes) (left : Nat) : Option Clock := do
  let count := min 6 left
  let (value, p) ← digits? count 0 p
  let rest := p.dropWhile isDigit
  pure { clock with microsecond := value * 10 ^ (6 - count), ended := peek rest = 0 }

/-- Puts a value into the hour, the minute or the second. -/
def Clock.set (clock : Clock) (index value : Nat) : Clock :=
  match index with
  | 0 => { clock with hour := value }
  | 1 => { clock with minute := value }
  | _ => { clock with second := value }

/-- Reads the pairs of digits of a time of day that ends after `left` bytes. -/
def clock? (clock : Clock) (separated : Bool) (left : Nat) : (pairs : Nat) → Bytes → Option Clock
  | 0, p => fraction? clock p left
  | pairs + 1, p => do
    let (value, p) ← digits? 2 0 p
    let clock := clock.set (2 - pairs) value
    let c := peek p
    let separated := if pairs = 2 then c = colon else separated
    let left := left - 2
    if left ≤ 1 then some { clock with ended := c = 0 }
    else if separated && c = colon then clock? clock separated (left - 1) pairs (p.drop 1)
    else if c = 0x2E || c = 0x2C then fraction? clock (p.drop 1) (left - 1)
    else if separated then none
    else clock? clock separated left pairs p

def midnight : Clock := ⟨0, 0, 0, 0, true⟩

/-- A time of day and its offset from universal time in microseconds, if one is given. -/
def time? (p : Bytes) : Option (Clock × Option Int) := do
  let isZone (b : UInt8) := b = plus || b = hyphen || b = zulu
  let before := (p.takeWhile fun b => !isZone b).length
  let clock ← clock? midnight true before 3 p
  match p.drop before with
  | [] => if clock.ended then some (clock, none) else none
  | sign :: zone =>
    if sign = zulu then (if peek zone = 0 then some (clock, some 0) else none)
    else
      let offset ← clock? midnight true zone.length 3 zone
      if offset.ended then
        let seconds := (offset.hour * 60 + offset.minute) * 60 + offset.second
        let size : Int :=
          if seconds = 0 then 0 else ((seconds * 1000000 + offset.microsecond : Nat) : Int)
        if size < 86400 * 1000000 then
          some (clock, some (if sign = hyphen then -size else size))
        else none
      else none

def isTimeOfDay (c : Clock) : Bool := c.hour < 24 && c.minute < 60 && c.second < 60

/-- The number of bytes of the separator that starts so. -/
def separatorLength (b : UInt8) : Nat :=
  if b < 0x80 then 1 else if b < 0xE0 then 2 else if b < 0xF0 then 3 else 4

/-- The local date and time of a time stamp, with its offset. -/
def parts? (p : Bytes) : Option ((Nat × Nat × Nat) × Clock × Option Int) := do
  let length := dateLength p
  let date ← date? length p
  if length < p.length then
    let rest := p.drop length
    let (clock, offset) ← time? (rest.drop (separatorLength (peek rest)))
    if isTimeOfDay clock then some (date, clock, offset) else none
  else some (date, midnight, none)

/-- A surrogate in the place of the separator counts as one. -/
def withSeparator (t : Text) : Text :=
  match [7, 8, 10].find? fun i => (t[i]?.map CodePoint.isSurrogate).getD false with
  | some i => t.set i 'T'
  | none => t

end TimestampReader

/-- The moment that a text stands for. Without an offset it is local time, which is universal
time, and which is known from the second day of the calendar on. -/
def Moment.read (t : Text) : Except MomentError Moment :=
  if t.length < 7 then .error .notTimestamp
  else
    match Utf8.encode (TimestampReader.withSeparator t) with
    | .error _ => .error .notTimestamp
    | .ok p =>
      match TimestampReader.parts? p with
      | none => .error .notTimestamp
      | some ((year, month, day), clock, offset) =>
        let m : Moment :=
          ⟨year, month, day, clock.hour, clock.minute, clock.second, clock.microsecond⟩
        match offset with
        | none =>
          if Calendar.dayNumber year month day = 0 then .error .notTimestamp else .ok m
        | some offset =>
          match Moment.ofMicroseconds? (m.toMicroseconds - offset) with
          | some m => .ok m
          | none => .error .outOfRange

end Replay
