import Replay.Path
import Replay.Utf8
import Replay.ValueText

namespace Replay

inductive Node where
  | directory
  | file (bytes : Bytes)
deriving DecidableEq

inductive AccessKind where
  | inspect
  | read
  | write
  | makeDirectory
deriving DecidableEq

/-- Why the system refuses an access. -/
inductive AccessFault where
  | missing
  | notDirectory
  | isDirectory
  | exists
  | nameTooLong
  | denied
  /-- Any other refusal, with its number and its wording. -/
  | refused (number : Nat) (wording : Text)
deriving DecidableEq

namespace AccessFault

def number : AccessFault → Nat
  | missing => 2
  | notDirectory => 20
  | isDirectory => 21
  | «exists» => 17
  | nameTooLong => 36
  | denied => 13
  | refused n _ => n

def wording : AccessFault → Text
  | missing => "No such file or directory"
  | notDirectory => "Not a directory"
  | isDirectory => "Is a directory"
  | «exists» => "File exists"
  | nameTooLong => "File name too long"
  | denied => "Permission denied"
  | refused _ w => w

end AccessFault

/-- Why an operation on files fails. -/
inductive FileError where
  | access (fault : AccessFault) (path : Path)
  | sameFile (source target : Path)
  /-- A path with a null character names nothing. -/
  | nullCharacter
  | unencodable (e : SurrogateError)
  | undecodable (e : Utf8Error)
deriving DecidableEq

namespace FileError

def pathText (p : Path) : Text := "PosixPath(" ++ Json.shownText p.text ++ ")"

def message : FileError → Text
  | access fault path =>
    "[Errno " ++ Text.ofNat fault.number ++ "] " ++ fault.wording ++ ": "
      ++ Json.shownText path.text
  | sameFile source target => pathText source ++ " and " ++ pathText target ++ " are the same file"
  | nullCharacter => "embedded null byte"
  | unencodable e => e.message
  | undecodable e => e.message

/-- The errors that the system itself reports. -/
def isAccess : FileError → Bool
  | access _ _ => true
  | sameFile _ _ => true
  | _ => false

end FileError

/-- A tree of directories and files. There are no links in it, symbolic or hard ones, so that each
node has one location only. -/
structure FileSystem where
  nodes : List (Location × Node)
  /-- Where relative paths start. -/
  cwd : Location
  /-- The home directories of users; the empty name is the present user. -/
  homes : Text → Option Text
  /-- Accesses that are refused although the tree would allow them. -/
  refuses : AccessKind → Location → Option AccessFault

namespace FileSystem

/-- The most bytes of one name. -/
def nameLimit : Nat := 255

/-- The most bytes of a path. -/
def pathLimit : Nat := 4095

/-- The size of a name in bytes; a low surrogate of an undecoded byte counts as that byte. -/
def byteSize (t : Text) : Nat :=
  t.foldr (fun c size =>
    (if 0xDC80 ≤ c.val && c.val ≤ 0xDCFF then 1 else (Utf8.bytesOf c).length) + size) 0

/-- The node at a location; the root is always a directory. -/
def node? (fs : FileSystem) (l : Location) : Option Node :=
  if l.isEmpty then some .directory else (fs.nodes.find? fun e => e.1 = l).map Prod.snd

/-- Puts a node at a location, in place of one that is there. -/
def put (fs : FileSystem) (l : Location) (n : Node) : FileSystem :=
  if fs.nodes.any fun e => e.1 = l then
    { fs with nodes := fs.nodes.map fun e => if e.1 = l then (l, n) else e }
  else { fs with nodes := fs.nodes ++ [(l, n)] }

/-- Puts a directory below another one, and those in between, unless they are there. -/
def putDirectories (fs : FileSystem) (done : Location) : List Text → FileSystem
  | [] => fs
  | name :: rest =>
    let here := done ++ [name]
    putDirectories (if (fs.node? here).isSome then fs else fs.put here .directory) here rest

/-- Puts a file at a location, and the directories above it. -/
def putFile (fs : FileSystem) (l : Location) (bytes : Bytes) : FileSystem :=
  (fs.putDirectories [] l.dropLast).put l (.file bytes)

/-- Follows names from a directory to the location they lead to, which need not exist itself. -/
def walk (fs : FileSystem) (done : Location) : List Text → Except AccessFault Location
  | [] => .ok done
  | name :: rest =>
    match fs.node? done with
    | none => .error .missing
    | some (.file _) => .error .notDirectory
    | some .directory =>
      if name = Path.dots then walk fs done.dropLast rest
      else if nameLimit < byteSize name then .error .nameTooLong
      else walk fs (done ++ [name]) rest

/-- The location a path leads to, if every name before the last is one of a directory. -/
def find (fs : FileSystem) (p : Path) : Except AccessFault Location :=
  if pathLimit < byteSize p.text then .error .nameTooLong
  else walk fs (if p.isAbsolute then [] else fs.cwd) p.names

/-- The node a path leads to. -/
def look (fs : FileSystem) (kind : AccessKind) (p : Path) : Except AccessFault (Location × Node) :=
  match fs.find p with
  | .error e => .error e
  | .ok l =>
    match fs.refuses kind l with
    | some e => .error e
    | none =>
      match fs.node? l with
      | some n => .ok (l, n)
      | none => .error .missing

/-- What makes a text no name for the system. -/
def textError? (t : Text) : Option FileError :=
  match Utf8.surrogateRun? 0 (t.map fun c =>
      if 0xDC80 ≤ c.val && c.val ≤ 0xDCFF then CodePoint.ofNat 0 else c) with
  | some e => some (.unencodable e)
  | none => if t.any (fun c => c.val = 0) then some .nullCharacter else none

/-- A path that no access can be made with. -/
def nameError? (p : Path) : Option FileError := textError? p.text

/-- Goes from a directory to the one above it or to an entry. -/
def step (l : Location) (name : Text) : Location :=
  if name = Path.dots then l.dropLast else l ++ [name]

/-- The first name that no access can be made with, on the way along a path; a relative path keeps
the dots that it begins with. -/
def pathError? (done : Path) : List Text → Option FileError
  | [] => none
  | name :: rest =>
    if name = Path.dots then
      if done.isAbsolute || !(done.names.all fun n => n = Path.dots) then
        pathError? done.parent rest
      else pathError? (done.child name) rest
    else (nameError? (done.child name)).or (pathError? (done.child name) rest)

/-- The absolute path without dots. -/
def resolve (fs : FileSystem) (p : Path) : Except FileError Path :=
  match pathError? ⟨min p.slashes 1, []⟩ p.names with
  | some e => .error e
  | none => .ok (Path.ofLocation (p.names.foldl step (if p.isAbsolute then [] else fs.cwd)))

/-- A user whose home directory cannot be asked for. -/
def homeError? (p : Path) : Option FileError := p.homeUser?.bind textError?

/-- The home directory of a user; a home that itself starts with a tilde is none. -/
def home? (fs : FileSystem) (user : Text) : Option Path :=
  match fs.homes user with
  | none => none
  | some home =>
    let home := (home.reverse.dropWhile fun c => c = Path.slash).reverse
    if home.isEmpty then some (.ofLocation [])
    else if home.head? = some Path.tilde then none
    else some (.ofText home)

/-- Puts the home directory of a user in place of the name that stands for it. -/
def expandHome? (fs : FileSystem) (p : Path) : Option Path :=
  match p.homeUser? with
  | none => some p
  | some user => (fs.home? user).map fun home => home ++ ⟨0, p.names.drop 1⟩

/-- Whether the node at a path is as asked; only a name that is too long or a refusal is an
error. -/
def test (fs : FileSystem) (p : Path) (asked : Node → Bool) : Except FileError Bool :=
  match nameError? p with
  | some _ => .ok false
  | none =>
    match fs.look .inspect p with
    | .ok (_, n) => .ok (asked n)
    | .error .missing => .ok false
    | .error .notDirectory => .ok false
    | .error e => .error (.access e p)

def hasNode (fs : FileSystem) (p : Path) : Except FileError Bool := fs.test p fun _ => true

def isDirectory (fs : FileSystem) (p : Path) : Except FileError Bool :=
  fs.test p fun n => n = .directory

def isFile (fs : FileSystem) (p : Path) : Except FileError Bool :=
  fs.test p fun n => n != .directory

/-- The bytes of a file. -/
def readBytes (fs : FileSystem) (p : Path) : Except FileError Bytes :=
  match nameError? p with
  | some e => .error e
  | none =>
    match fs.look .read p with
    | .ok (_, .file bytes) => .ok bytes
    | .ok (_, .directory) => .error (.access .isDirectory p)
    | .error e => .error (.access e p)

/-- The text of a file in UTF-8, with single line feeds at all line ends. -/
def readText (fs : FileSystem) (p : Path) : Except FileError Text :=
  match fs.readBytes p with
  | .error e => .error e
  | .ok bytes =>
    match Utf8.decode bytes with
    | .ok t => .ok t.normalizeLines
    | .error e => .error (.undecodable e)

/-- The location of a file that can be written, and the bytes it holds now. -/
def openFile (fs : FileSystem) (p : Path) : Except FileError (Location × Option Bytes) :=
  match nameError? p with
  | some e => .error e
  | none =>
    match fs.find p with
    | .error e => .error (.access e p)
    | .ok l =>
      match fs.node? l.dropLast with
      | none => .error (.access .missing p)
      | some (.file _) => .error (.access .notDirectory p)
      | some .directory =>
        match fs.refuses .write l with
        | some e => .error (.access e p)
        | none =>
          match fs.node? l with
          | some .directory => .error (.access .isDirectory p)
          | some (.file bytes) => .ok (l, some bytes)
          | none => .ok (l, none)

/-- Writes a file anew. -/
def writeBytes (fs : FileSystem) (p : Path) (bytes : Bytes) : Except FileError FileSystem :=
  match fs.openFile p with
  | .error e => .error e
  | .ok (l, _) => .ok (fs.put l (.file bytes))

/-- Writes a text anew; a text that cannot be encoded leaves the file empty. -/
def writeText (fs : FileSystem) (p : Path) (t : Text) : Except FileError Unit × FileSystem :=
  match fs.openFile p with
  | .error e => (.error e, fs)
  | .ok (l, _) =>
    match Utf8.encode t with
    | .ok bytes => (.ok (), fs.put l (.file bytes))
    | .error e => (.error (.unencodable e), fs.put l (.file []))

/-- Adds a text at the end of a file; a text that cannot be encoded adds nothing. -/
def appendText (fs : FileSystem) (p : Path) (t : Text) : Except FileError Unit × FileSystem :=
  match fs.openFile p with
  | .error e => (.error e, fs)
  | .ok (l, old) =>
    let before := old.getD []
    match Utf8.encode t with
    | .ok bytes => (.ok (), fs.put l (.file (before ++ bytes)))
    | .error e => (.error (.unencodable e), fs.put l (.file before))

/-- Makes one directory, whose parent must exist. -/
def makeDirectory (fs : FileSystem) (p : Path) : Except FileError FileSystem :=
  match nameError? p with
  | some e => .error e
  | none =>
    match fs.find p with
    | .error e => .error (.access e p)
    | .ok l =>
      match fs.node? l with
      | some _ => .error (.access .exists p)
      | none =>
        match fs.node? l.dropLast with
        | none => .error (.access .missing p)
        | some (.file _) => .error (.access .notDirectory p)
        | some .directory =>
          match fs.refuses .makeDirectory l with
          | some e => .error (.access e p)
          | none => .ok (fs.put l .directory)

/-- An error of making a directory is none if the directory is there. -/
def accept (fs : FileSystem) (p : Path) (e : FileError) : Except FileError Unit × FileSystem :=
  match e with
  | .access _ _ =>
    match fs.isDirectory p with
    | .ok true => (.ok (), fs)
    | .ok false => (.error e, fs)
    | .error e => (.error e, fs)
  | e => (.error e, fs)

/-- Makes a directory that may be there already, in a directory that is. -/
def ensureDirectory (fs : FileSystem) (p : Path) : Except FileError Unit × FileSystem :=
  match fs.makeDirectory p with
  | .ok fs => (.ok (), fs)
  | .error e => fs.accept p e

/-- Makes a directory that may be there already, and the directories above it. -/
def makeDirectories (fs : FileSystem) (p : Path) : Except FileError Unit × FileSystem :=
  match fs.makeDirectory p with
  | .ok fs => (.ok (), fs)
  | .error (.access .missing q) =>
    if h : p.names = [] then (.error (.access .missing q), fs)
    else
      have : p.parent.names.length < p.names.length := by
        have := List.length_pos_iff.mpr h
        simp only [Path.parent, List.length_dropLast]
        omega
      match makeDirectories fs p.parent with
      | (.ok (), fs) => fs.ensureDirectory p
      | (.error e, fs) => (.error e, fs)
  | .error e => fs.accept p e
termination_by p.names.length

/-- Copies the bytes of one file to another. -/
def copyFile (fs : FileSystem) (source target : Path) : Except FileError FileSystem :=
  match (nameError? source).or (nameError? target) with
  | some e => .error e
  | none =>
    let same := match fs.look .inspect source, fs.look .inspect target with
      | .ok (a, _), .ok (b, _) => decide (a = b)
      | _, _ => false
    if same then .error (.sameFile source target)
    else
      match fs.readBytes source with
      | .error e => .error e
      | .ok bytes => fs.writeBytes target bytes

end FileSystem

end Replay
