import Replay.Hostname
import Replay.InternetAddress

namespace Replay

/-- The parts of a reference; those that it does not have are empty. -/
structure UriParts where
  scheme : Text
  authority : Text
  path : Text
  query : Text
  fragment : Text
deriving DecidableEq

/-- What is wrong with a reference. -/
inductive UriError where
  /-- Brackets that do not match. -/
  | brackets
  | futureAddress
  | noAddress (host : Text)
  /-- An address of four bytes in brackets. -/
  | shortAddress
  /-- The authority holds a character that stands for one with a meaning. -/
  | ambiguous (authority : Text)
  | portNotNumber (port : Text)
  | portTooLarge
  /-- The number of a port has too many digits. -/
  | longPort (digits : Nat)
  | label (e : LabelError)
  | unencodable (e : SurrogateError)
deriving DecidableEq

namespace UriError

def message : UriError → Text
  | brackets => "Invalid IPv6 URL"
  | futureAddress => "IPvFuture address is invalid"
  | noAddress host => Json.shownText host ++ " does not appear to be an IPv4 or IPv6 address"
  | shortAddress => "An IPv4 address cannot be in brackets"
  | ambiguous authority =>
    "netloc '" ++ authority ++ "' contains invalid characters under NFKC normalization"
  | portNotNumber port => "Port could not be cast to integer value as " ++ Json.shownText port
  | portTooLarge => "Port out of range 0-65535"
  | longPort digits => digitsMessage (some digits)
  | label e => e.message
  | unencodable e => e.message

end UriError

namespace Uri

def slash : CodePoint := '/'

def percent : CodePoint := '%'

/-- Makes one slash of all that follow each other. -/
def mergeSlashes : Text → Text
  | a :: b :: rest =>
    if a = slash && b = slash then mergeSlashes (b :: rest) else a :: mergeSlashes (b :: rest)
  | t => t

/-- Replaces each percent sign and its two hexadecimal digits by their byte. -/
def unquotedBytes : Text → Bytes
  | c :: a :: b :: rest =>
    match
      if c = percent then a.hexValue?.bind fun x => b.hexValue?.map fun y => x * 16 + y else none
    with
    | some n => n.toUInt8 :: unquotedBytes rest
    | none => Utf8.bytesOf c ++ unquotedBytes (a :: b :: rest)
  | c :: rest => Utf8.bytesOf c ++ unquotedBytes rest
  | [] => []

def unquote (t : Text) : Text := Utf8.decodeReplacing (unquotedBytes t)

def hexDigit (n : Nat) : CodePoint :=
  if n < 10 then CodePoint.ofNat (48 + n) else CodePoint.ofNat (55 + n)

def quotedByte (b : UInt8) : Text := [percent, hexDigit (b.toNat / 16), hexDigit (b.toNat % 16)]

/-- The characters that never need quoting. -/
def isUnreserved (c : CodePoint) : Bool :=
  c.isAlphanum || c = ('_' : CodePoint) || c = ('.' : CodePoint) || c = ('-' : CodePoint)
    || c = ('~' : CodePoint)

/-- Quotes all that is neither unreserved nor one of the characters to keep. -/
def quote (kept t : Text) : Text :=
  t.flatMap fun c =>
    if isUnreserved c || kept.contains c then [c] else (Utf8.bytesOf c).flatMap quotedByte

/-- Quotes a text that has a form in bytes. -/
def quote? (kept t : Text) : Except UriError Text :=
  match Utf8.surrogateRun? 0 t with
  | some e => .error (.unencodable e)
  | none => .ok (quote kept t)

/-- The characters that may stand in a path. -/
def pathMarks : Text := "/!$&'()*+,:;=@"

/-- The characters that may stand in a query. -/
def queryMarks : Text := "?/!$&'()*+,:;=@"

/-- The characters that may stand in a fragment. -/
def fragmentMarks : Text := "#?/!$&'()*+,:;=@"

def isSchemeStart (c : CodePoint) : Bool := c.isLower || c.isUpper

def isSchemePart (c : CodePoint) : Bool :=
  c.isAlphanum || c = ('+' : CodePoint) || c = ('-' : CodePoint) || c = ('.' : CodePoint)

/-- The scheme, which has no case, and what follows its colon. -/
def cutScheme (t : Text) : Text × Text :=
  match Text.cut ':' t with
  | (scheme, some rest) =>
    if (scheme.head?.elim false isSchemeStart) && scheme.all isSchemePart then
      (Text.lower scheme, rest)
    else ([], t)
  | _ => ([], t)

def endsAuthority (c : CodePoint) : Bool :=
  c = slash || c = ('?' : CodePoint) || c = ('#' : CodePoint)

/-- The authority after two slashes, and what follows it. -/
def cutAuthority : Text → Text × Text
  | a :: b :: rest =>
    if a = slash && b = slash then rest.span fun c => !endsAuthority c else ([], a :: b :: rest)
  | t => ([], t)

/-- Tabs and line ends have no meaning in a reference, and controls and spaces none before it. -/
def cleaned (t : Text) : Text :=
  (t.dropWhile fun c => decide (c.val ≤ 32)).filter fun c =>
    !(c.val = 9 || c.val = 10 || c.val = 13)

/-- The characters that stand for others with a meaning in references. -/
def ambiguousPoints : List Nat := [
  0x2047, 0x2048, 0x2049, 0x2100, 0x2101, 0x2105, 0x2106, 0x2A74, 0xFE13, 0xFE16, 0xFE55, 0xFE56,
  0xFE5F, 0xFE6B, 0xFF03, 0xFF0F, 0xFF1A, 0xFF1F, 0xFF20
]

/-- Whether a host in brackets is an address of a future form: a letter, digits and a dot. -/
def isFutureAddress (host : Text) : Bool :=
  match Text.cut '.' (host.drop 1) with
  | (version, some (_ :: _)) => !version.isEmpty && version.all fun c => c.hexValue?.isSome
  | _ => false

def checkBracketed (host : Text) : Except UriError Unit :=
  if Text.startsWith host "v" then
    if isFutureAddress host then .ok () else .error .futureAddress
  else if InternetAddress.isShort host then .error .shortAddress
  else if InternetAddress.isLong host then .ok ()
  else .error (.noAddress host)

def openBracket : CodePoint := '['

def closeBracket : CodePoint := ']'

/-- Brackets in an authority match and hold an address. -/
def checkBrackets (authority : Text) : Except UriError Unit :=
  match authority.contains openBracket, authority.contains closeBracket with
  | false, false => .ok ()
  | true, true =>
    let inside := ((Text.cut openBracket authority).2).getD []
    checkBracketed (Text.cut closeBracket inside).1
  | _, _ => .error .brackets

/-- Splits a reference. -/
def split (t : Text) : Except UriError UriParts := do
  let (scheme, rest) := cutScheme (cleaned t)
  let (authority, rest) := cutAuthority rest
  checkBrackets authority
  let (rest, fragment) := Text.cut '#' rest
  let (path, query) := Text.cut '?' rest
  if authority.any fun c => ambiguousPoints.contains c.val then throw (.ambiguous authority)
  pure ⟨scheme, authority, path, query.getD [], fragment.getD []⟩

/-- What stands before the last occurrence of a separator, if there is one, and after it. -/
def cutLast (separator : CodePoint) (t : Text) : Option Text × Text :=
  match t.reverse.span (· != separator) with
  | (after, []) => (none, after.reverse)
  | (after, _ :: before) => (some before.reverse, after.reverse)

/-- The user of an authority and what else is said of the host. -/
def user? (authority : Text) : Option Text := (cutLast '@' authority).1

/-- The host as it is written, and the port after it. -/
def hostAndPort (authority : Text) : Text × Text :=
  let place := (cutLast '@' authority).2
  match Text.cut openBracket place with
  | (_, some inside) =>
    let (host, after) := Text.cut closeBracket inside
    (host, ((Text.cut ':' (after.getD [])).2).getD [])
  | (_, none) =>
    let (host, port) := Text.cut ':' place
    (host, port.getD [])

/-- The name of a host has no case, but the zone after a percent sign has. -/
def foldedHost (host : Text) : Text :=
  let (name, zone) := Text.cut percent host
  Text.lower name ++ zone.elim [] (percent :: ·)

def portLimit : Nat := 65535

/-- The number of a port, if any is given. -/
def readPort (port : Text) : Except UriError (Option Nat) :=
  if port.isEmpty then .ok none
  else if !port.all CodePoint.isDigit then .error (.portNotNumber port)
  else if digitLimit < port.length then .error (.longPort port.length)
  else
    let n := port.foldl (fun n c => 10 * n + (c.val - 48)) 0
    if portLimit < n then .error .portTooLarge else .ok (some n)

/-- The characters that may stand in the name of a user. -/
def userMarks : Text := "%!$&'()*+,;="

/-- The user, quoted, with the sign that ends it. -/
def quoteUser (authority : Text) : Except UriError Text :=
  match user? authority with
  | none => .ok []
  | some given => do
    let (name, password) := Text.cut ':' given
    if name.isEmpty then return []
    let name ← quote? userMarks name
    let password := password.getD []
    if password.isEmpty then return name ++ "@"
    let password ← quote? userMarks password
    pure (name ++ ":" ++ password ++ "@")

/-- An authority in ASCII. -/
def encodeAuthority (authority : Text) : Except UriError Text := do
  let (host, port) := hostAndPort authority
  let host ← (Hostname.encode (foldedHost host)).mapError UriError.label
  let host := if host.contains (':' : CodePoint) then "[" ++ host ++ "]" else host
  let port ← readPort port
  let port := port.elim [] fun n => (':' : CodePoint) :: Text.ofNat n
  let user ← quoteUser authority
  pure (user ++ host ++ port)

/-- The schemes of references with an authority. -/
def authoritySchemes : List Text := [
  "ftp", "http", "gopher", "nntp", "telnet", "imap", "wais", "file", "mms", "https", "shttp",
  "snews", "prospero", "rtsp", "rtsps", "rtspu", "rsync", "svn", "svn+ssh", "sftp", "nfs", "git",
  "git+ssh", "ws", "wss"
]

/-- Puts the parts of a reference together. -/
def join (u : UriParts) : Text :=
  let slashed := Text.startsWith u.path "//"
  let path :=
    if !u.authority.isEmpty || authoritySchemes.contains u.scheme || slashed then
      let rooted := u.path.isEmpty || Text.startsWith u.path "/"
      "//" ++ u.authority ++ (if rooted then u.path else slash :: u.path)
    else u.path
  let start := if u.scheme.isEmpty then path else u.scheme ++ ":" ++ path
  let asked := if u.query.isEmpty then start else start ++ "?" ++ u.query
  if u.fragment.isEmpty then asked else asked ++ "#" ++ u.fragment

/-- A reference in ASCII. What is quoted already stays as it is. -/
def encode (t : Text) : Except UriError Text := do
  let parts ← split t
  let path ← quote? (percent :: pathMarks) parts.path
  let query ← quote? (percent :: queryMarks) parts.query
  let fragment ← quote? (percent :: fragmentMarks) parts.fragment
  let authority ← encodeAuthority parts.authority
  pure (join ⟨parts.scheme, authority, path, query, fragment⟩)

end Uri

/-- Where a request goes. -/
structure Target where
  scheme : Text
  host : Text
  path : Text
  query : Text
  /-- The path and the query as they are written. -/
  written : Text
deriving DecidableEq

namespace Target

def standardScheme : Text := "http"

def standardHost : Text := "localhost"

def orElse (t standard : Text) : Text := if t.isEmpty then standard else t

/-- Reads the target of a request. The sender drops the scheme and the host of a reference, the
receiver does so once more, and a last time while the path is put into ASCII, where they stay in
the path. -/
def read (t : Text) : Except UriError Target := do
  let sent ← Uri.split t
  let written := if sent.query.isEmpty then sent.path else sent.path ++ "?" ++ sent.query
  let received ← Uri.split written
  let path ← Uri.encode received.path
  let base ← Uri.encode (orElse sent.scheme standardScheme ++ "://"
    ++ orElse sent.authority standardHost ++ "/")
  let base ← Uri.split base
  pure ⟨base.scheme, base.authority, Uri.unquote path, received.query, written⟩

/-- Whether the scheme stands for connections that stay open in both directions. -/
def isSocket (t : Target) : Bool := t.scheme = ("ws" : Text) || t.scheme = ("wss" : Text)

/-- Whether the host is one that can be asked. -/
def hasHost (host : Text) : Bool :=
  ((Hostname.encode (Text.cut ':' host.lower).1).toOption).isSome

end Target

end Replay
