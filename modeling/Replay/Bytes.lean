import Replay.Utf8

namespace Replay

namespace Bytes

/-- The number that the bytes write, the highest byte first. -/
def big (bytes : Bytes) : Nat := bytes.foldl (fun n b => 256 * n + b.toNat) 0

/-- The number that the bytes write, the lowest byte first. -/
def little (bytes : Bytes) : Nat := bytes.foldr (fun b n => b.toNat + 256 * n) 0

/-- The first `count` bytes with what follows them, if there are as many. -/
def split? (count : Nat) (bytes : Bytes) : Option (Bytes × Bytes) :=
  let first := bytes.take count
  if first.length = count then some (first, bytes.drop count) else none

/-- The `count` bytes from a place on, if there are as many. -/
def slice? (start count : Nat) (bytes : Bytes) : Option Bytes :=
  (split? count (bytes.drop start)).map Prod.fst

/-- The bytes up to the first zero and those after it. -/
def cutZero? (bytes : Bytes) : Option (Bytes × Bytes) :=
  match bytes.span (· != 0) with
  | (before, _ :: after) => some (before, after)
  | (_, []) => none

/-- Each byte as the character of that number. -/
def latin (bytes : Bytes) : Text := bytes.map fun b => CodePoint.ofNat b.toNat

/-- Characters as the bytes of their numbers. -/
def ofLatin (t : Text) : Bytes := t.map fun c => UInt8.ofNat c.val

end Bytes

end Replay
