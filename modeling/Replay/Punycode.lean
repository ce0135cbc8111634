import Replay.Text

namespace Replay

namespace Punycode

/-- The number of digits: letters, then decimal digits. -/
def base : Nat := 36

def digit (n : Nat) : CodePoint := CodePoint.ofNat (if n < 26 then 97 + n else 22 + n)

/-- Digits below the threshold of their place end a number. -/
def threshold (bias place : Nat) : Nat := max 1 (min 26 (place - bias))

theorem one_le_threshold (bias place : Nat) : 1 ≤ threshold bias place := by
  unfold threshold
  omega

/-- A number in digits, the one that counts for least first. -/
def digitsFrom (bias place n : Nat) : Text :=
  let least := threshold bias place
  if n < least then [digit n]
  else
    digit (least + (n - least) % (base - least))
      :: digitsFrom bias (place + base) ((n - least) / (base - least))
termination_by n
decreasing_by
  have := one_le_threshold bias place
  have := Nat.div_le_self (n - threshold bias place) (base - threshold bias place)
  omega

def digits (bias n : Nat) : Text := digitsFrom bias base n

/-- The bias that suits steps of some length. -/
def biasOf (step bias : Nat) : Nat :=
  if 455 < step then biasOf (step / 35) (bias + base) else bias + base * step / (step + 38)
termination_by step

/-- The bias after a step. The first one tells less than those that follow it. -/
def nextBias (step count : Nat) (isFirst : Bool) : Nat :=
  let step := if isFirst then step / 700 else step / 2
  biasOf (step + step / count) 0

/-- How far the writing has come. -/
structure Progress where
  /-- The places and code points passed since the last one that was written. -/
  step : Nat
  bias : Nat
  /-- The number of code points that are written. -/
  count : Nat
  isFirst : Bool
  written : Text

/-- Passes one code point of the text while the occurrences of `point` are written. -/
def Progress.pass (point : Nat) (p : Progress) (c : CodePoint) : Progress :=
  if c.val < point then { p with step := p.step + 1 }
  else if c.val = point then
    ⟨0, nextBias p.step (p.count + 1) p.isFirst, p.count + 1, false,
      p.written ++ digits p.bias p.step⟩
  else p

/-- Writes the occurrences of code points, which rise from `next` on. -/
def Progress.passAll (t : Text) (p : Progress) (next : Nat) : List Nat → Progress
  | [] => p
  | point :: points =>
    let p := { p with step := p.step + (point - next) * (p.count + 1) }
    let p := t.foldl (Progress.pass point) p
    passAll t { p with step := p.step + 1 } (point + 1) points

/-- The code points beyond ASCII, in order. -/
def foreignPoints (t : Text) : List Nat :=
  (((t.filter fun c => !c.isAscii).map CodePoint.val).mergeSort fun a b => a ≤ b).eraseDups

def encode (t : Text) : Text :=
  let plain := t.filter CodePoint.isAscii
  let start : Progress := ⟨0, 72, plain.length, true, []⟩
  let mark : Text := if plain.isEmpty then [] else "-"
  plain ++ mark ++ (start.passAll t 128 (foreignPoints t)).written

end Punycode

end Replay
