import Replay.Bytes

namespace Replay

namespace Crc32

/-- One bit further, in the reflected form of the polynomial. -/
def shift (crc : UInt32) : UInt32 :=
  if crc &&& 1 = 1 then (crc >>> 1) ^^^ 0xEDB88320 else crc >>> 1

def step (crc : UInt32) (b : UInt8) : UInt32 :=
  shift (shift (shift (shift (shift (shift (shift (shift (crc ^^^ b.toUInt32))))))))

/-- The checksum of the bytes. -/
def checksum (bytes : Bytes) : UInt32 := (bytes.foldl step 0xFFFFFFFF) ^^^ 0xFFFFFFFF

end Crc32

namespace Adler32

/-- The largest prime below two to the sixteenth. -/
def modulus : Nat := 65521

/-- The sum of the bytes, and the sum of the sums so far. -/
def step (sums : Nat × Nat) (b : UInt8) : Nat × Nat :=
  let low := (sums.1 + b.toNat) % modulus
  (low, (sums.2 + low) % modulus)

/-- The checksum of the bytes. -/
def checksum (bytes : Array UInt8) : Nat :=
  let (low, high) := bytes.foldl step (1, 0)
  65536 * high + low

end Adler32

end Replay
