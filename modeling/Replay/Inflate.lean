import Replay.Checksum
import Replay.PrefixCode

namespace Replay

/-- Why data is not unpacked. -/
inductive InflateError where
  | broken
  | tooLarge
deriving DecidableEq

namespace Inflate

/-- What is unpacked so far, with the bits that follow or what stopped the reading. -/
structure Progress where
  out : Array UInt8
  next : Except Halt Bits

def Progress.halted (out : Array UInt8) (halt : Halt) : Progress := ⟨out, .error halt⟩

/-- The least length of each symbol for a match, with the number of bits that add to it. -/
def lengthSteps : List (Nat × Nat) := [
  (3, 0), (4, 0), (5, 0), (6, 0), (7, 0), (8, 0), (9, 0), (10, 0), (11, 1), (13, 1), (15, 1),
  (17, 1), (19, 2), (23, 2), (27, 2), (31, 2), (35, 3), (43, 3), (51, 3), (59, 3), (67, 4),
  (83, 4), (99, 4), (115, 4), (131, 5), (163, 5), (195, 5), (227, 5), (258, 0)
]

/-- The least distance of each symbol, with the number of bits that add to it. -/
def distanceSteps : List (Nat × Nat) := [
  (1, 0), (2, 0), (3, 0), (4, 0), (5, 1), (7, 1), (9, 2), (13, 2), (17, 3), (25, 3), (33, 4),
  (49, 4), (65, 5), (97, 5), (129, 6), (193, 6), (257, 7), (385, 7), (513, 8), (769, 8),
  (1025, 9), (1537, 9), (2049, 10), (3073, 10), (4097, 11), (6145, 11), (8193, 12), (12289, 12),
  (16385, 13), (24577, 13)
]

/-- The symbol that ends a block; those above it stand for matches. -/
def blockEnd : Nat := 256

/-- The codes of a block: one for bytes, the end of the block and lengths, one for distances. -/
structure Codes where
  data : PrefixCode
  distance : PrefixCode

/-- The codes of blocks that bring none along. -/
def fixedCodes : Codes :=
  ⟨.ofLengths (List.replicate 144 8 ++ List.replicate 112 9 ++ List.replicate 24 7
      ++ List.replicate 8 8),
    .ofLengths (List.replicate 32 5)⟩

/-- The number that a symbol with its added bits stands for. -/
def readStep (steps : List (Nat × Nat)) (symbol : Nat) (bits : Bits) : Except Halt (Nat × Bits) :=
  match steps[symbol]? with
  | none => .error .broken
  | some (least, count) => do
    let (more, bits) ← bits.take count
    pure (least + more, bits)

/-- The length and the distance of the match that a symbol begins. -/
def readMatch (codes : Codes) (symbol : Nat) (bits : Bits) : Except Halt (Nat × Nat × Bits) := do
  let (length, bits) ← readStep lengthSteps (symbol - (blockEnd + 1)) bits
  let (symbol, bits) ← codes.distance.read bits
  let (distance, bits) ← readStep distanceSteps symbol bits
  pure (length, distance, bits)

/-- Repeats what stands `distance` bytes before the end, byte by byte. -/
def copy (distance : Nat) (out : Array UInt8) : Nat → Array UInt8
  | 0 => out
  | n + 1 => copy distance (out.push (out.getD (out.size - distance) 0)) n

/-- Unpacks up to the end of a block. Each symbol takes at least one bit. -/
def readSymbols (limit : Nat) (codes : Codes) (fuel : Nat) (out : Array UInt8) (bits : Bits) :
    Progress :=
  match fuel with
  | 0 => .halted out .ended
  | fuel + 1 =>
    match codes.data.read bits with
    | .error e => .halted out e
    | .ok (symbol, bits) =>
      if symbol = blockEnd then ⟨out, .ok bits⟩
      else if symbol < blockEnd then
        if limit ≤ out.size then .halted out bits.cut
        else readSymbols limit codes fuel (out.push (UInt8.ofNat symbol)) bits
      else
        match readMatch codes symbol bits with
        | .error e => .halted out e
        | .ok (length, distance, bits) =>
          if limit ≤ out.size then .halted out bits.cut
          else if out.size < distance then .halted out .broken
          else if limit - out.size < length then
            .halted (copy distance out (limit - out.size)) bits.cut
          else readSymbols limit codes fuel (copy distance out length) bits

/-- A block that is stored as it is, from the next whole byte on. -/
def readStored (limit : Nat) (out : Array UInt8) (bits : Bits) : Progress :=
  match Bytes.split? 4 bits.rest with
  | none => .halted out .ended
  | some (sizes, rest) =>
    let length := Bytes.little (sizes.take 2)
    if length + Bytes.little (sizes.drop 2) = 65535 then
      let part := rest.take (min length (limit - out.size))
      let bits := Bits.ofBytes (rest.drop part.length)
      let out := part.foldl Array.push out
      if part.length = length then ⟨out, .ok bits⟩ else .halted out bits.cut
    else .halted out .broken

/-- The order in which the lengths of the codes for lengths are given. -/
def lengthOrder : List Nat := [16, 17, 18, 0, 8, 7, 9, 6, 10, 5, 11, 4, 12, 3, 13, 2, 14, 1, 15]

/-- Reads numbers of three bits. -/
def readTriples (bits : Bits) : Nat → Except Halt (List Nat × Bits)
  | 0 => .ok ([], bits)
  | n + 1 => do
    let (value, bits) ← bits.take 3
    let (values, bits) ← readTriples bits n
    pure (value :: values, bits)

/-- The code for lengths, given the number of lengths that it has. -/
def readLengthCode (count : Nat) (bits : Bits) : Except Halt (PrefixCode × Bits) := do
  let (values, bits) ← readTriples bits count
  let given := lengthOrder.zip values
  let code := PrefixCode.ofLengths ((List.range 19).map fun n => (given.lookup n).getD 0)
  if code.counts.isEmpty then pure (⟨[2], #[0, 0]⟩, bits)
  else if code.isComplete then pure (code, bits)
  else .error .broken

/-- The lengths that a symbol of the code for lengths stands for, after those already known. -/
def readRun (known : Array Nat) (symbol : Nat) (bits : Bits) : Except Halt (Nat × Nat × Bits) :=
  if symbol < 16 then .ok (symbol, 1, bits)
  else if symbol = 16 then do
    let (more, bits) ← bits.take 2
    match known.back? with
    | some length => pure (length, 3 + more, bits)
    | none => .error .broken
  else if symbol = 17 then do
    let (more, bits) ← bits.take 3
    pure (0, 3 + more, bits)
  else do
    let (more, bits) ← bits.take 7
    pure (0, 11 + more, bits)

/-- Reads lengths until `total` are known. Each symbol gives at least one. -/
def readLengths (code : PrefixCode) (total : Nat) (fuel : Nat) (known : Array Nat) (bits : Bits) :
    Except Halt (Array Nat × Bits) :=
  if known.size = total then .ok (known, bits)
  else
    match fuel with
    | 0 => .error .broken
    | fuel + 1 => do
      let (symbol, bits) ← code.read bits
      let (length, count, bits) ← readRun known symbol bits
      if total < known.size + count then .error .broken
      else readLengths code total fuel (known ++ Array.replicate count length) bits

/-- The codes that a block brings along. -/
def readCodes (bits : Bits) : Except Halt (Codes × Bits) := do
  let (dataCount, bits) ← bits.take 5
  let (distanceCount, bits) ← bits.take 5
  let (lengthCount, bits) ← bits.take 4
  if 29 < dataCount || 29 < distanceCount then .error .broken
  else do
    let (code, bits) ← readLengthCode (lengthCount + 4) bits
    let total := dataCount + 257 + (distanceCount + 1)
    let (lengths, bits) ← readLengths code total total #[] bits
    let lengths := lengths.toList
    let codes : Codes :=
      ⟨.ofLengths (lengths.take (dataCount + 257)), .ofLengths (lengths.drop (dataCount + 257))⟩
    if lengths.getD blockEnd 0 = 0 || !codes.data.isUsable || !codes.distance.isUsable then
      .error .broken
    else pure (codes, bits)

/-- Unpacks a block of the kind that its second and third bit name. -/
def readBlock (limit fuel kind : Nat) (out : Array UInt8) (bits : Bits) : Progress :=
  match kind with
  | 0 => readStored limit out bits
  | 1 => readSymbols limit fixedCodes fuel out bits
  | 2 =>
    match readCodes bits with
    | .ok (codes, bits) => readSymbols limit codes fuel out bits
    | .error e => .halted out e
  | _ => .halted out .broken

/-- Unpacks blocks up to the last one. -/
def readBlocks (limit fuel : Nat) (out : Array UInt8) (bits : Bits) : Progress :=
  match fuel with
  | 0 => .halted out .ended
  | fuel + 1 =>
    match bits.take 3 with
    | .error e => .halted out e
    | .ok (start, bits) =>
      match readBlock limit fuel (start / 2) out bits with
      | ⟨out, .ok bits⟩ => if start % 2 = 1 then ⟨out, .ok bits⟩ else readBlocks limit fuel out bits
      | halted => halted

/-- Whether the two bytes in front promise deflated data that needs no dictionary. -/
def isStart (method flags : UInt8) : Bool :=
  (256 * method.toNat + flags.toNat) % 31 = 0 && method.toNat % 16 = 8 && method.toNat / 16 < 8

/-- Whether the data needs a dictionary, which there is none of. -/
def needsDictionary (flags : UInt8) : Bool := flags.toNat / 32 % 2 = 1

/-- Whether the checksum after the last block is right, as far as it is there. -/
def endsWell (out : Array UInt8) (bits : Bits) : Bool :=
  match Bytes.split? 4 bits.rest with
  | some (sum, _) => Bytes.big sum = Adler32.checksum out
  | none => true

/-- What the packed data holds, which may be `limit` bytes at most. -/
def unpack (limit : Nat) : Bytes → Except InflateError (Array UInt8)
  | method :: flags :: rest =>
    if !isStart method flags then .error .broken
    else if needsDictionary flags then
      if rest.length < 4 then .ok #[] else .error .broken
    else
      match readBlocks limit (8 * rest.length + 1) #[] (Bits.ofBytes rest) with
      | ⟨out, .ok bits⟩ => if endsWell out bits then .ok out else .error .broken
      | ⟨out, .error .ended⟩ => .ok out
      | ⟨_, .error .broken⟩ => .error .broken
      | ⟨_, .error .full⟩ => .error .tooLarge
  | _ => .ok #[]

end Inflate

end Replay
