import Replay.Bytes

namespace Replay

/-- Why reading packed data stops. -/
inductive Halt where
  /-- Nothing is left to read. -/
  | ended
  | broken
  /-- More would be unpacked than is wanted, and there is still packed data left. -/
  | full
deriving DecidableEq

/-- Bits to read, the lowest first: those held of a byte that was begun, then whole bytes. -/
structure Bits where
  held : Nat
  count : Nat
  rest : Bytes

namespace Bits

def ofBytes (bytes : Bytes) : Bits := ⟨0, 0, bytes⟩

def takeFrom (n held count : Nat) : Bytes → Except Halt (Nat × Bits)
  | [] =>
    if n ≤ count then .ok (held % 2 ^ n, ⟨held / 2 ^ n, count - n, []⟩) else .error .ended
  | b :: rest =>
    if n ≤ count then .ok (held % 2 ^ n, ⟨held / 2 ^ n, count - n, b :: rest⟩)
    else takeFrom n (held + b.toNat * 2 ^ count) (count + 8) rest

/-- The number that the next `n` bits write. -/
def take (n : Nat) (bits : Bits) : Except Halt (Nat × Bits) :=
  takeFrom n bits.held bits.count bits.rest

/-- What stops the reading when no more is to be unpacked. -/
def cut (bits : Bits) : Halt := if bits.rest.isEmpty then .ended else .full

end Bits

end Replay
