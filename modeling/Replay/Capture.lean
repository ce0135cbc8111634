import Replay.Base64
import Replay.Json
import Replay.Picture

namespace Replay

/-- The image of a snapshot is no PNG data URL, or it is too large. -/
inductive CaptureError where
  | notPng
  | tooLarge (most : Int) (size : Nat)
deriving DecidableEq

namespace CaptureError

def message : CaptureError → Text
  | notPng => "Snapshot capture returned a non-PNG data URL"
  | tooLarge most size =>
    "Snapshot capture exceeds " ++ Text.ofInt most ++ " bytes (" ++ Text.ofNat size ++ " bytes)"

end CaptureError

/-- Why the image of a snapshot is refused. -/
inductive CaptureFailure where
  | capture (e : CaptureError)
  | image (e : ImageFault)
  /-- A number that was to be told has no text. -/
  | number (e : NumberError)
deriving DecidableEq

namespace Capture

/-- The most bytes of one image. -/
def byteLimit : Int := 3 * 1024 * 1024

def urlStart : Text := "data:image/png;base64,"

/-- The data URL of a picture of one point. -/
def pointUrl : Text :=
  urlStart ++ "iVBORw0KGgoAAAANSUhEUgAAAAEAAAABCAIAAACQd1PeAAAADElEQVR4nGP4z8AAAAMBAQDJ/pLvAAAAAElFTkSuQmCC"

/-- What follows the start of a PNG data URL. -/
def urlBody? (t : Text) : Option Text := Text.stripStart? urlStart t.trim

def isPngUrl : Json → Bool
  | .text t => (urlBody? t).isSome
  | _ => false

def withoutBlanks (t : Text) : Text := t.filter fun c => !c.isBlank

/-- The check of the bytes themselves; an unusual fault keeps its own error. -/
def checkImage (bytes : Bytes) : Except CaptureFailure ImageSize :=
  match Picture.check bytes with
  | .ok size => .ok size
  | .error .notPng => .error (.capture .notPng)
  | .error .unlike => .error (.capture .notPng)
  | .error e => .error (.image e)

/-- Whether a text is to be decoded: whole groups of digits, the last one filled up. -/
def isCandidate (encoded : Text) : Bool :=
  !encoded.isEmpty && encoded.length % 4 = 0 && Base64.isFormed encoded

/-- How an image of more bytes than `most` is refused; the refusal tells both numbers. -/
def tooLarge (most : Int) (size : Nat) : CaptureFailure :=
  if (Number.int most).isShort && (Number.int size).isShort then .capture (.tooLarge most size)
  else .number .tooManyDigits

/-- The bytes of an encoding of at most `most` bytes, with the size of the image. -/
def decodeBody (most : Int) (encoded : Text) : Except CaptureFailure (Bytes × ImageSize) :=
  if isCandidate encoded then
    match Base64.decode? encoded with
    | none => .error (.capture .notPng)
    | some bytes =>
      if bytes.isEmpty then .error (.capture .notPng)
      else if most < bytes.length then .error (tooLarge most bytes.length)
      else if !Base64.isEncoding encoded bytes then .error (.capture .notPng)
      else
        match checkImage bytes with
        | .ok size => .ok (bytes, size)
        | .error e => .error e
  else .error (.capture .notPng)

/-- The bytes of the image that a snapshot holds. -/
def decode (most : Int) : Json → Except CaptureFailure (Bytes × ImageSize)
  | .text t =>
    match urlBody? t with
    | some body => decodeBody most (withoutBlanks body)
    | none => .error (.capture .notPng)
  | _ => .error (.capture .notPng)

end Capture

end Replay
