import Replay.Bits

namespace Replay

/-- A canonical prefix code: among codes of one length the numbers go up with the symbols, and
shorter codes come before longer ones. -/
structure PrefixCode where
  /-- How many symbols have codes of one bit, of two bits, and so on up to the longest. -/
  counts : List Nat
  /-- The symbols in the order of their codes. -/
  symbols : Array Nat

namespace PrefixCode

def longest (lengths : List Nat) : Nat := lengths.foldl max 0

/-- The code that gives each symbol as many bits as its length says; none for length zero. -/
def ofLengths (lengths : List Nat) : PrefixCode :=
  let used := List.range' 1 (longest lengths)
  ⟨used.map fun n => lengths.count n,
    (used.flatMap fun n => (lengths.zipIdx.filter (·.1 = n)).map (·.2)).toArray⟩

/-- Gives each length its codes out of those that are left: how many are left in the end, or
nothing if there are too many symbols. -/
def roomAfter? (room : Nat) : List Nat → Option Nat
  | [] => some room
  | n :: counts => if 2 * room < n then none else roomAfter? (2 * room - n) counts

def room? (code : PrefixCode) : Option Nat := roomAfter? 1 code.counts

/-- Whether each row of bits is read as a symbol sooner or later. -/
def isComplete (code : PrefixCode) : Bool := code.room? = some 0

/-- Whether a code for data can be used: it is complete, or it has a single bit, or no codes. -/
def isUsable (code : PrefixCode) : Bool :=
  match code.room? with
  | none => false
  | some room => room = 0 || code.counts.length ≤ 1

/-- Reads a symbol from the lengths on. The codes read so far have the number `value` and stand
behind `before` shorter ones, of which the first of this length would be `first`. -/
def readFrom (symbols : Array Nat) (value first before : Nat) :
    List Nat → Bits → Except Halt (Nat × Bits)
  | [], _ => .error .broken
  | n :: counts, bits =>
    match bits.take 1 with
    | .error e => .error e
    | .ok (b, bits) =>
      let value := 2 * value + b
      let first := 2 * first
      if value < first + n then .ok (symbols.getD (before + (value - first)) 0, bits)
      else readFrom symbols value (first + n) (before + n) counts bits

/-- Reads a symbol. A code without symbols breaks only after a bit was read. -/
def read (code : PrefixCode) (bits : Bits) : Except Halt (Nat × Bits) :=
  readFrom code.symbols 0 0 0 (if code.counts.isEmpty then [0] else code.counts) bits

end PrefixCode

end Replay
