import Replay.ImageFault

namespace Replay

namespace Jpeg

/-- What a marker stands for. -/
inductive Marker where
  | frame
  | tables
  | application (number : Nat)
  | scan
  /-- A segment that nothing is read of. -/
  | skipped
  /-- A marker without a segment. -/
  | bare
  | unknown
deriving DecidableEq

/-- The meaning of the byte after the one that announces a marker. -/
def Marker.ofByte (b : UInt8) : Marker :=
  if b < 0xC0 || b = 0xFF then unknown
  else if b = 0xDA then scan
  else if b = 0xDB then tables
  else if [0xC4, 0xCC, 0xDC, 0xDD, 0xDF, 0xFE].contains b then skipped
  else if b = 0xC8 || (0xD0 ≤ b && b ≤ 0xD9) || 0xF0 ≤ b then bare
  else if 0xE0 ≤ b then application (b.toNat - 0xE0)
  else frame

/-- The size of a frame: eight bits for each value of one, three or four, with three bytes more
about each of them. -/
def frameSize? (data : Bytes) : Option ImageSize :=
  match data with
  | bits :: a :: b :: c :: d :: layers :: more =>
    if bits = 8 && [1, 3, 4].contains layers && more.length % 3 = 0 then
      some ⟨Bytes.big [c, d], Bytes.big [a, b]⟩
    else none
  | _ => none

/-- Whether data is tables of sixty-four numbers, of one byte or of two. -/
def isTables (fuel : Nat) (data : Bytes) : Bool :=
  match fuel, data with
  | _, [] => true
  | 0, _ => false
  | fuel + 1, kind :: rest =>
    let size := if kind < 16 then 64 else 128
    size ≤ rest.length && isTables fuel (rest.drop size)

/-- Whether the data of an application is long enough for what it names. -/
def isApplication (number : Nat) (data : Bytes) : Bool :=
  let start := fun (name : Text) => (Bytes.latin data).startsWith name
  7 ≤ data.length || !(number = 0 && start "JFIF" || number = 14 && start "Adobe")

/-- What the pieces of a colour profile begin with. -/
def profileStart : Bytes := Bytes.ofLatin "ICC_PROFILE" ++ [0]

/-- What a row of resources begins with. -/
def resourcesStart : Bytes := Bytes.ofLatin "Photoshop 3.0" ++ [0]

def resourceStart : Bytes := Bytes.ofLatin "8BIM"

/-- The resource that says how far apart pixels are, in fourteen bytes. -/
def resolutionCode : Nat := 0x03ED

/-- Pads to an even number. -/
def evened (n : Nat) : Nat := n + n % 2

/-- Whether resources from a place on have a length for each of their names. A resource that ends
later than the data is the last one. -/
def hasNames (fuel place : Nat) (data : Bytes) : Bool :=
  match fuel with
  | 0 => true
  | fuel + 1 =>
    if (data.drop place).take 4 != resourceStart || data.length < place + 6 then true
    else
      match data[place + 6]? with
      | none => false
      | some n =>
        let start := evened (place + 7 + n.toNat)
        match Bytes.slice? start 4 data with
        | none => true
        | some size =>
          if Bytes.big ((data.drop (place + 4)).take 2) = resolutionCode
              && (min (Bytes.big size) (data.length - (start + 4)) < 14) then true
          else hasNames fuel (evened (start + 4 + Bytes.big size)) data

/-- Order of bytes as of words in a dictionary. -/
def precedes : Bytes → Bytes → Bool
  | _, [] => false
  | [], _ :: _ => true
  | a :: s, b :: t => a < b || (a = b && precedes s t)

/-- The first of some pieces in that order. -/
def first (piece : Bytes) (rest : List Bytes) : Bytes :=
  rest.foldl (fun first p => if precedes p first then p else first) piece

/-- Whether the first piece of a profile, if there is any, says how many there are. -/
def isProfile : List Bytes → Bool
  | [] => true
  | piece :: rest => 14 ≤ (first piece rest).length

/-- What is known after some segments: the frame, and the pieces of a profile. -/
structure Header where
  size : Option ImageSize
  profile : List Bytes

/-- Reads a frame, for which the profile is put together. -/
def Header.readFrame (h : Header) (data : Bytes) : Except ImageFault Header := do
  let size ← ImageFault.expect (frameSize? data)
  ImageFault.suppose (isProfile h.profile)
  size.check
  pure ⟨some size, []⟩

/-- Reads the data of an application. -/
def Header.readApplication (h : Header) (number : Nat) (data : Bytes) :
    Except ImageFault Header := do
  ImageFault.suppose (isApplication number data)
  if number = 2 && profileStart.isPrefixOf data then
    pure { h with profile := h.profile ++ [data] }
  else if number = 13 && resourcesStart.isPrefixOf data then
    ImageFault.suppose (hasNames data.length resourcesStart.length data)
    pure h
  else pure h

/-- What is known after a segment. -/
def Header.readData (h : Header) (marker : Marker) (data : Bytes) : Except ImageFault Header :=
  match marker with
  | .frame => h.readFrame data
  | .tables => (ImageFault.suppose (isTables data.length data)).map fun _ => h
  | .application number => h.readApplication number data
  | _ => .ok h

/-- Reads up to the first scan. What stands between segments is passed over. -/
def Header.read (h : Header) (fuel : Nat) (bytes : Bytes) : Except ImageFault ImageSize :=
  match fuel, bytes with
  | fuel + 1, 0xFF :: b :: rest =>
    if b = 0xFF then h.read fuel (b :: rest)
    else if b = 0 then h.read fuel rest
    else
      match Marker.ofByte b with
      | .unknown => .error .unlike
      | .bare => h.read fuel rest
      | marker => do
        let (length, rest) ← ImageFault.expect (Bytes.split? 2 rest)
        let (data, rest) ← ImageFault.need (Bytes.split? (Bytes.big length - 2) rest)
        let h ← h.readData marker data
        if marker = .scan then (← ImageFault.expect h.size).accept else h.read fuel rest
  | fuel + 1, _ :: rest => h.read fuel rest
  | _, _ => .error .unlike

def isStart (bytes : Bytes) : Bool := bytes.take 3 = [0xFF, 0xD8, 0xFF]

/-- The size of the image that the bytes hold. -/
def read (bytes : Bytes) : Except ImageFault ImageSize :=
  let bytes := bytes.drop 2
  Header.read ⟨none, []⟩ bytes.length bytes

end Jpeg

end Replay
