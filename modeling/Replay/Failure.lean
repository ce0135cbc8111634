import Replay.Capture
import Replay.FileSystem
import Replay.Integer
import Replay.JsonReader
import Replay.ScriptReader
import Replay.TimestampReader
import Replay.Uri

namespace Replay

/-- A setting that cannot be used. -/
inductive SettingsError where
  | missing (name : Text) (path : Path)
  | notDirectory (name : Text) (path : Path)
  | notInteger (name : Text)
  | notPositive (name : Text)
  | notBoolean (name : Text)
  | harnessMissing (path : Path)
deriving DecidableEq

namespace SettingsError

def message : SettingsError → Text
  | missing v path => v ++ " path does not exist: " ++ path.text
  | notDirectory v path => v ++ " must point to a directory: " ++ path.text
  | notInteger v => v ++ " must be an integer"
  | notPositive v => v ++ " must be greater than zero"
  | notBoolean v => v ++ " must be a boolean (0/1, true/false)"
  | harnessMissing path => "Headless harness bundle not found: " ++ path.text

end SettingsError

/-- Why there is no script to run. -/
inductive SourceError where
  | fileMissing (path : Path)
  | fileNotJson (path : Path)
  | argumentNotJson (e : JsonError)
  | inputMissing
  | inputNotJson (e : JsonError)
  | noSource
  | noGame (path : Path)
deriving DecidableEq

namespace SourceError

def usage : Text :=
  "Usage: python -m runner.run_headless (--smoke | --script <path> | --json <value> | --stdin) "
    ++ "or pipe JSON via stdin with no args"

def message : SourceError → Text
  | fileMissing path => "Script file not found: " ++ path.text
  | fileNotJson path => "Script file " ++ path.text ++ " is not valid JSON"
  | argumentNotJson e => "--json value is not valid JSON: " ++ e.message
  | inputMissing => "Missing JSON protocol on stdin"
  | inputNotJson e => "stdin is not valid JSON: " ++ e.message
  | noSource => usage
  | noGame path => "Unable to infer game version from cwd: " ++ path.text

end SourceError

/-- What is wrong with a request, or with the settings that it is judged by. -/
inductive RequestError where
  | noScript
  | badGameId
  | notInteger (e : IntegerError)
  /-- A header has a value of several lines. -/
  | severalLines
deriving DecidableEq

namespace RequestError

def message : RequestError → Text
  | noScript => "Request body must be a JSON script"
  | badGameId => "Invalid game version id"
  | notInteger e => e.message
  | severalLines => "Header values must not contain newline characters."

end RequestError

/-- What is wrong with the paths of views. -/
inductive RouteError where
  /-- A bracket that begins no slot. -/
  | malformed (rule : Text)
  /-- A slot of an unknown kind. -/
  | unknownKind (kind : Text)
  /-- Another view has the name. -/
  | taken (name : Text)
deriving DecidableEq

namespace RouteError

def message : RouteError → Text
  | malformed rule => "malformed url rule: " ++ Json.shownText rule
  | unknownKind kind => "the converter " ++ Json.shownText kind ++ " does not exist"
  | taken name => "View function mapping is overwriting an existing endpoint function: " ++ name

end RouteError

/-- Why a game gets no tile image. -/
inductive TileError where
  | failedRun (diagnostics : List Text)
  | noCapture
deriving DecidableEq

namespace TileError

def message : TileError → Text
  | failedRun diagnostics => "Headless snapshot run failed: " ++ Text.join "; " diagnostics
  | noCapture => "Headless snapshot run did not produce a capture"

end TileError

namespace ImageFault

def message : ImageFault → Text
  | unlike => CaptureError.notPng.message
  | notPng => CaptureError.notPng.message
  | truncated chunk => "Truncated " ++ chunk ++ " chunk"
  | truncatedAnimation chunk => "APNG contains truncated " ++ chunk ++ " chunk"
  | largeText => "Decompressed data too large for PngImagePlugin.MAX_TEXT_CHUNK"
  | tooMuchText size =>
    "Too much memory used in text chunks: " ++ Text.ofNat size ++ ">MAX_TEXT_MEMORY"
  | noData => "list index out of range"
  | tooManyPixels count =>
    "Image size (" ++ count.text ++ " pixels) exceeds limit of "
      ++ Text.ofNat ImageSize.pixelLimit ++ " pixels, could be decompression bomb DOS attack."
  | headerEnds => "Reached EOF while reading header"
  | longWord word => Json.shownBytes (Bytes.ofLatin "Token too long in file header: " ++ word)
  | notInteger base word =>
    "invalid literal for int() with base " ++ Text.ofNat base ++ ": "
      ++ (Json.shownBytes word).take IntegerError.shownLimit
  | longInteger digits => digitsMessage (some digits)
  | notNumber shown => "could not convert string to float: " ++ shown
  | number e => e.message
  | missingNumbers expected found =>
    "not enough values to unpack (expected " ++ Text.ofNat expected ++ ", got " ++ Text.ofNat found
      ++ ")"
  | brightest => "maxval must be greater than 0 and less than 65536"
  | scale => "scale must be finite and non-zero"
  | negativePlace place => "negative seek value " ++ Text.ofInt place
  | farPlace => "Python int too large to convert to C ssize_t"
  | textureCount count => "Unsupported number of texture formats: " ++ Text.ofInt count
  | textureKind kind => "Invalid texture compression format: " ++ Text.ofInt kind
  | textureFlags flags => "Unknown pixel format flags " ++ Text.ofNat flags
  | textureCode code => "Unimplemented pixel format " ++ Text.ofNat code
  | textureExtendedCode code => "Unimplemented DXGI format " ++ Text.ofNat code
  | channels => "Unsupported SGI image mode"
  | noImage => "No image data"
  | noInch => "Invalid inch"
  | noFrame => "float division by zero"
  | tooManyColours => "cannot allocate more than 256 colors"
  | sizeKind => "Invalid dimensions"
  | tileSizeKind => "Invalid tile dimensions"
  | farDirectory => "Unable to seek to frame"
  | colour => "cannot read this XPM file"
  | shortOpacity => "buffer is not large enough"
  | shortMask => "not enough image data"
  | outside => "tile cannot extend outside image"
  | negativeSize => "Size cannot be negative"
  | noStack => "'SpiderImageFile' object has no attribute 'stkoffset'"

/-- Whether the error blames a value that was given. -/
def isValueError (e : ImageFault) : Bool := e.kind = .value

end ImageFault

/-- A run that took longer than its budget, found before a step or after the last one. -/
structure Overrun where
  step : Nat
  /-- The budget in seconds. -/
  budget : Number
  /-- The budget in whole seconds. -/
  seconds : Int
  elapsed : Number
deriving DecidableEq

namespace Overrun

def message (o : Overrun) : Text :=
  "Headless run exceeded max runtime of " ++ Text.ofInt o.seconds ++ " seconds at step "
    ++ Text.ofNat o.step

end Overrun

inductive Failure where
  | script (e : ScriptError)
  | overrun (e : Overrun)
  /-- A call of a host that failed or gave an answer of no use. -/
  | driver (message : Text)
  /-- An error that the browser reports. -/
  | browser (message : Text)
  | capture (e : CaptureError)
  | image (e : ImageFault)
  | settings (e : SettingsError)
  | source (e : SourceError)
  | tile (e : TileError)
  | request (e : RequestError)
  | route (e : RouteError)
  | uri (e : UriError)
  | file (e : FileError)
  | number (e : NumberError)
  | json (e : JsonError)
  | moment (e : MomentError)
  | homeUnknown
  /-- An option was to hold a text and held nothing. -/
  | notText
  /-- A key that is not ASCII was compared. -/
  | keyNotAscii
  /-- A value of a kind that has no use where it stands. -/
  | uselessValue
  /-- An error that the surroundings raise, with the name of its kind. -/
  | foreign (kind message : Text)
deriving DecidableEq

namespace Failure

def message : Failure → Text
  | script e => e.message
  | overrun e => e.message
  | driver m => m
  | browser m => m
  | capture e => e.message
  | image e => e.message
  | settings e => e.message
  | source e => e.message
  | tile e => e.message
  | request e => e.message
  | route e => e.message
  | uri e => e.message
  | file e => e.message
  | number e => e.message
  | json e => e.message
  | moment e => e.message
  | homeUnknown => "Could not determine home directory."
  | notText => "the JSON object must be str, bytes or bytearray, not list"
  | keyNotAscii => "comparing strings with non-ASCII characters is not supported"
  | uselessValue => "value of no use"
  | foreign _ m => m

def ofScript : ScriptFailure → Failure
  | .invalid e => script e
  | .number e => number e

def ofCapture : CaptureFailure → Failure
  | .capture e => capture e
  | .image e => image e
  | .number e => number e

/-- The kinds of errors of the surroundings that blame a value. -/
def valueErrorKinds : List Text := ["ValueError", "CaptureDecodeError", "ProtocolInputError"]

/-- Whether the error blames a value that was given. -/
def isValueError : Failure → Bool
  | script _ => true
  | capture _ => true
  | image e => e.isValueError
  | source _ => true
  | request _ => true
  | route (.malformed _) => true
  | uri _ => true
  | file .nullCharacter => true
  | file (.unencodable _) => true
  | file (.undecodable _) => true
  | number .integerOfNan => true
  | number .tooManyDigits => true
  | json e => e.isValueError
  | moment .notTimestamp => true
  | foreign kind _ => valueErrorKinds.contains kind
  | _ => false

def isAccess : Failure → Bool
  | file e => e.isAccess
  | _ => false

end Failure

end Replay
